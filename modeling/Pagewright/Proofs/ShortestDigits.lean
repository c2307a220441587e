import Mathlib.Data.Rat.Floor
import Pagewright.Proofs.ShortestDecimal

/-!
The digits of shortest decimals. Where the first digit stands is found from the leading bits, seventeen
digits are enough for any double, and of the decimals with the fewest digits the nearest one is chosen.
-/
namespace Pagewright

namespace Double

/-! ### How wide a basin is -/

theorem value_strictMono : StrictMono value :=
  strictMono_nat_of_lt_succ fun m => (value_lt_edge m).trans (edge_lt_value m)

@[simp] theorem value_zero : value 0 = 0 := by simp [value, significand]

theorem value_pos {m : Nat} (hm : m ≠ 0) : 0 < value m :=
  value_zero ▸ value_strictMono (Nat.pos_of_ne_zero hm)

@[simp] theorem value_nonneg (m : Nat) :
    0 ≤ value m := value_zero ▸ value_strictMono.monotone (Nat.zero_le m)

theorem value_bounds {m : Nat} (hm : m ≠ 0) (hfinite : m < infiniteMagnitude) :
    (2 : ℚ) ^ (-1074 : ℤ) ≤ value m ∧ value m < 2 ^ (1024 : ℤ) := by
  have hleast : value 1 = 2 ^ (-1074 : ℤ) := by
    have hpacked := value_packed (e := 0) (s := 1) (by decide) (.inl rfl)
    rwa [Nat.zero_mul, Nat.cast_one, one_mul] at hpacked
  have hbehind : value infiniteMagnitude = 2 ^ (1024 : ℤ) := by
    have hpacked := value_packed (e := 2046) (s := leadingBit) (by decide) (.inr le_rfl)
    rw [show infiniteMagnitude = 2046 * leadingBit + leadingBit by decide, hpacked,
      show ((leadingBit : ℕ) : ℚ) = 2 ^ (52 : ℤ) by norm_num [leadingBit], ← zpow_add₀ (by norm_num)]
    norm_num
  rw [← hleast, ← hbehind]
  exact ⟨value_strictMono.monotone (Nat.one_le_iff_ne_zero.mpr hm), value_strictMono hfinite⟩

@[simp] theorem significand_lt (m : Nat) : significand m < 2 * leadingBit := by
  unfold significand leadingBit
  split <;> omega

theorem significand_pos {m : Nat} (hm : m ≠ 0) : 0 < significand m := by
  unfold significand leadingBit
  split <;> omega

theorem Nearest.of_inside {m : Nat} {x : ℚ} (hlow : edge m < x) (hhigh : x < edge (m + 1)) :
    Nearest m x :=
  ⟨hlow.le, hhigh.le, fun htie => (htie.elim hlow.ne' hhigh.ne).elim⟩

end Double

namespace Decimal

open Double (leadingBit infiniteMagnitude significand value edge Nearest)

variable {m : Nat}

/-- The gap from a double to the next one is more than one in `10 ^ 16`. -/
theorem value_lt_width (hm : m ≠ 0) : value m < 10 ^ 16 * (edge (m + 1) - edge m) := by
  have hstep := Double.two_zpow_pos (Double.exponent m - 2)
  have hpos := Double.significand_pos hm
  have hlt := Double.significand_lt m
  have hbelow : quartersBelow m ≤ 4 * significand m := by
    unfold quartersBelow
    split <;> omega
  have hquarters : 4 * significand m < 10 ^ 16 * (2 + quartersBelow m) := by
    unfold quartersBelow
    unfold leadingBit at *
    split <;> omega
  have hquarters : ((4 * significand m : ℕ) : ℚ) < 10 ^ 16 * (2 + quartersBelow m) := by
    exact_mod_cast hquarters
  rw [value_eq, edge_succ_eq, edge_eq, Nat.cast_sub hbelow]
  calc ((4 * significand m : ℕ) : ℚ) * 2 ^ (Double.exponent m - 2)
      < 10 ^ 16 * (2 + quartersBelow m) * 2 ^ (Double.exponent m - 2) :=
        mul_lt_mul_of_pos_right hquarters hstep
    _ = _ := by
        push_cast
        ring

private theorem exists_nearest_on_grid {e : ℤ} (hfine : (10 : ℚ) ^ e < edge (m + 1) - edge m) :
    ∃ c : ℕ, Nearest m (c * 10 ^ e) := by
  have hpow := ten_zpow_pos e
  have hquotient : 0 ≤ value m / 10 ^ e := div_nonneg (Double.value_nonneg m) hpow.le
  have hfloor : (⌊value m / 10 ^ e⌋₊ : ℚ) * 10 ^ e ≤ value m :=
    (le_div_iff₀ hpow).mp (Nat.floor_le hquotient)
  have hnext : value m < (⌊value m / 10 ^ e⌋₊ + 1) * 10 ^ e :=
    (div_lt_iff₀ hpow).mp (Nat.lt_floor_add_one _)
  generalize ⌊value m / 10 ^ e⌋₊ = c at hfloor hnext
  obtain hlow | hlow := lt_or_ge (edge m) (c * 10 ^ e)
  · exact ⟨c, .of_inside hlow (hfloor.trans_lt (Double.value_lt_edge m))⟩
  · refine ⟨c + 1, .of_inside ?_ ?_⟩
    · push_cast
      exact (Double.edge_le_value m).trans_lt hnext
    · push_cast
      linarith

/-! ### Where the first digit stands -/

/-- The logarithm of two is a little more than `59 / 196`. -/
theorem ten_pow_le_two_zpow {a : ℕ} {b : ℤ} (h : 196 * a ≤ 59 * b) : (10 : ℚ) ^ a ≤ 2 ^ b := by
  refine le_of_pow_le_pow_left₀ (n := 59) (by decide) (Double.two_zpow_pos b).le ?_
  calc ((10 : ℚ) ^ a) ^ 59 = (10 ^ 59) ^ a := pow_right_comm 10 a 59
    _ ≤ (2 ^ 196) ^ a := pow_le_pow_left₀ (by norm_num) (by norm_num) a
    _ = 2 ^ (196 * a : ℤ) := by
        rw [← pow_mul, ← zpow_natCast]
        push_cast
        rfl
    _ ≤ 2 ^ (59 * b) := zpow_le_zpow_right₀ (by norm_num) h
    _ = (2 ^ b) ^ 59 := by
        rw [mul_comm, zpow_mul]
        rfl

private theorem two_zpow_le_ten_pow {a : ℕ} {b : ℤ} (h : 28 * b ≤ 93 * a) :
    (2 : ℚ) ^ b ≤ 10 ^ a := by
  refine le_of_pow_le_pow_left₀ (n := 28) (by decide) (by positivity) ?_
  calc ((2 : ℚ) ^ b) ^ 28 = 2 ^ (28 * b) := by
        rw [mul_comm, zpow_mul]
        rfl
    _ ≤ 2 ^ (93 * a : ℤ) := zpow_le_zpow_right₀ (by norm_num) h
    _ = (2 ^ 93) ^ a := by
        rw [← pow_mul, ← zpow_natCast]
        push_cast
        rfl
    _ ≤ (10 ^ 28) ^ a := pow_le_pow_left₀ (by norm_num) (by norm_num) a
    _ = (10 ^ a) ^ 28 := pow_right_comm 10 28 a

theorem ten_zpow_le_two_zpow {a b : ℤ} (hlow : 196 * a ≤ 59 * b) (hhigh : 93 * a ≤ 28 * b) :
    (10 : ℚ) ^ a ≤ 2 ^ b := by
  cases a with
  | ofNat n => exact ten_pow_le_two_zpow hlow
  | negSucc n =>
    have hinverse : (2 : ℚ) ^ (-b) ≤ 10 ^ (n + 1) := two_zpow_le_ten_pow (by omega)
    rw [zpow_negSucc, ← inv_inv ((2 : ℚ) ^ b), ← zpow_neg]
    exact inv_anti₀ (Double.two_zpow_pos _) hinverse

private theorem two_zpow_le_ten_zpow {a b : ℤ} (hlow : 59 * b ≤ 196 * a) (hhigh : 28 * b ≤ 93 * a) :
    (2 : ℚ) ^ b ≤ 10 ^ a := by
  have hinverse : (10 : ℚ) ^ (-a) ≤ 2 ^ (-b) := ten_zpow_le_two_zpow (by omega) (by omega)
  rw [zpow_neg, zpow_neg] at hinverse
  exact (inv_le_inv₀ (ten_zpow_pos a) (Double.two_zpow_pos b)).mp hinverse

@[simp] private theorem scaled_reaches_iff (num : Nat) {den : Nat} (hden : 0 < den) (k : ℤ) :
    (scaled num den k).2 ≤ (scaled num den k).1 ↔ (10 : ℚ) ^ k ≤ num / den := by
  have hpos : (0 : ℚ) < (scaled num den k).2 := by exact_mod_cast scaled_den_pos num hden k
  have hquotient := scaled_quotient num den k
  rw [← one_le_div₀ (ten_zpow_pos k), ← hquotient, one_le_div₀ hpos, Nat.cast_le]

/-- The place that the quotient of the leading bits points to. -/
def guessedPlace (num den : Nat) : ℤ := Int.fdiv (((num.log2 : ℤ) - den.log2) * 30103) 100000

private theorem leadingPlace_eq (num : Nat) {den : Nat} (hden : 0 < den) :
    leadingPlace num den =
      if (num / den : ℚ) < 10 ^ guessedPlace num den then guessedPlace num den - 1
      else if (10 : ℚ) ^ (guessedPlace num den + 1) ≤ num / den then guessedPlace num den + 1
      else guessedPlace num den := by
  have hreaches (k : ℤ) := scaled_reaches_iff num hden k
  unfold leadingPlace
  simp only [hreaches, Bool.not_eq_eq_eq_not, Bool.not_true, decide_eq_false_iff_not, not_le,
    decide_eq_true_eq]
  rfl

private theorem leadingPlace_bounds {num den : Nat} (hnum : num ≠ 0) (hden : 0 < den)
    (hlow : -2000 ≤ (num.log2 : ℤ) - den.log2) (hhigh : (num.log2 : ℤ) - den.log2 ≤ 2000) :
    (10 : ℚ) ^ leadingPlace num den ≤ num / den ∧
      (num / den : ℚ) < 10 ^ (leadingPlace num den + 1) := by
  obtain ⟨hleast, hmost⟩ := Double.log2_quotient_bounds hnum hden
  have hguess : guessedPlace num den = ((num.log2 : ℤ) - den.log2) * 30103 / 100000 :=
    Int.fdiv_eq_ediv_of_nonneg _ (by decide)
  rw [leadingPlace_eq num hden]
  generalize guessedPlace num den = guess at hguess
  have hbefore : (10 : ℚ) ^ (guess - 1) ≤ num / den :=
    (ten_zpow_le_two_zpow (by omega) (by omega)).trans hleast
  have hbehind : (num / den : ℚ) < 10 ^ (guess + 2) :=
    hmost.trans_le (two_zpow_le_ten_zpow (by omega) (by omega))
  split
  · next hbelow => exact ⟨hbefore, by rwa [sub_add_cancel]⟩
  · next hnotbelow =>
    split
    · next habove => exact ⟨habove, by rwa [add_assoc]⟩
    · next hnotabove => exact ⟨not_lt.mp hnotbelow, not_le.mp hnotabove⟩

theorem firstPlace_bounds (hm : m ≠ 0) (hfinite : m < infiniteMagnitude) :
    (10 : ℚ) ^ firstPlace m ≤ value m ∧ value m < 10 ^ (firstPlace m + 1) := by
  have hspans := Basin.of_spans m
  have hden := hspans.den_pos
  have hnum : (Basin.of m).num ≠ 0 := by
    intro hzero
    have hvalue := hspans.num
    rw [hzero, Nat.cast_zero, zero_div] at hvalue
    exact (Double.value_pos hm).ne hvalue
  obtain ⟨hleast, hmost⟩ := Double.value_bounds hm hfinite
  obtain ⟨hbitslow, hbitshigh⟩ := Double.log2_quotient_bounds hnum hden
  rw [hspans.num] at hbitslow hbitshigh
  have hlow := (zpow_lt_zpow_iff_right₀ (by norm_num)).mp (hleast.trans_lt hbitshigh)
  have hhigh := (zpow_lt_zpow_iff_right₀ (by norm_num)).mp (hbitslow.trans_lt hmost)
  rw [← hspans.num]
  exact leadingPlace_bounds hnum hden (by omega) (by omega)

/-! ### Seventeen digits -/

theorem exists_nearest_seventeen (hm : m ≠ 0) (hfinite : m < infiniteMagnitude) :
    ∃ c : ℕ, Nearest m (c * 10 ^ (firstPlace m - (16 : ℕ))) := by
  obtain ⟨hfirst, -⟩ := firstPlace_bounds hm hfinite
  have hwidth := value_lt_width hm
  apply exists_nearest_on_grid
  rw [zpow_sub₀ (by norm_num), zpow_natCast, div_lt_iff₀ (by positivity)]
  linarith

@[simp] theorem amount_trimmed (d : Decimal) (n : Nat) : (d.trimmed n).amount = d.amount := by
  induction n generalizing d with
  | zero => rfl
  | succ n ih =>
    rw [trimmed]
    split
    · next hzero =>
      have hdigits : d.digits = d.digits / 10 * 10 := by omega
      rw [ih, amount, amount, zpow_add_one₀ (by norm_num)]
      conv_rhs => rw [hdigits]
      push_cast
      ring
    · rfl

theorem nearest_shortest (hfinite : m < infiniteMagnitude) : Nearest m (shortest m).amount := by
  by_cases hm : m = 0
  · have hzero : (shortest m).amount = value m := by
      rw [hm, Double.value_zero]
      simp [shortest, amount]
    rw [hzero]
    exact .of_value m
  · obtain ⟨c, hc⟩ := exists_nearest_seventeen hm hfinite
    obtain ⟨d, j, -, hshortest, hchosen, -⟩ := shortest_spec hm (by decide) hc
    rw [hshortest, amount_trimmed]
    exact hchosen.nearest

/-! ### The fewest digits, and the nearest of them -/

@[simp] theorem digitChars_length_le_iff {n k : ℕ} (hk : 0 < k) :
    (digitChars n).length ≤ k ↔ n < 10 ^ k :=
  Nat.length_toDigits_le_iff (by decide) hk

@[simp] theorem digitChars_length_pos (n : ℕ) : 0 < (digitChars n).length := Nat.length_toDigits_pos

@[simp] private theorem lt_pow_length (n : ℕ) : n < 10 ^ (digitChars n).length :=
  (digitChars_length_le_iff (digitChars_length_pos n)).mp le_rfl

/-- A decimal that rounds to a magnitude, has no more digits than any other one that does, and of those
with as many digits is as near to it as any. -/
structure IsShortest (m : Nat) (d : Decimal) : Prop where
  nearest : Nearest m d.amount
  fewest : ∀ c : Decimal, Nearest m c.amount →
    (digitChars d.digits).length ≤ (digitChars c.digits).length
  closest : ∀ c : Decimal, Nearest m c.amount →
    (digitChars c.digits).length = (digitChars d.digits).length →
      |value m - d.amount| ≤ |value m - c.amount|

private theorem amount_on_grid {c : Decimal} {e : ℤ} (he : e ≤ c.exponent) :
    ∃ x : ℕ, c.amount = x * 10 ^ e := by
  refine ⟨c.digits * 10 ^ (c.exponent - e).toNat, ?_⟩
  rw [amount, Nat.cast_mul, Nat.cast_pow, mul_assoc, ← zpow_natCast, Int.toNat_of_nonneg (by omega),
    Nat.cast_ofNat, ← zpow_add₀ (by norm_num), sub_add_cancel]

private theorem amount_lt {c : Decimal} {i : ℕ} {e : ℤ} (hdigits : c.digits < 10 ^ i)
    (he : c.exponent + i ≤ e) : c.amount < 10 ^ e := by
  have hdigits : (c.digits : ℚ) < 10 ^ i := by exact_mod_cast hdigits
  calc c.amount < 10 ^ i * 10 ^ c.exponent := mul_lt_mul_of_pos_right hdigits (ten_zpow_pos _)
    _ = 10 ^ (c.exponent + i) := by rw [add_comm, zpow_add₀ (by norm_num), zpow_natCast]
    _ ≤ 10 ^ e := zpow_le_zpow_right₀ (by norm_num) he

/-- For a decimal in a basin there is a point of the grid with as many digits that is in the basin too and
no farther from the double: the decimal itself or, if it is too small to be on that grid, the power of ten
between it and the double. -/
theorem exists_as_near_on_grid (hm : m ≠ 0) (hfinite : m < infiniteMagnitude) {c : Decimal}
    (hc : Nearest m c.amount) {i : ℕ} (hdigits : c.digits < 10 ^ (i + 1)) :
    ∃ x : ℕ, Nearest m (x * 10 ^ (firstPlace m - i)) ∧
      |value m - x * 10 ^ (firstPlace m - i)| ≤ |value m - c.amount| := by
  obtain hcoarse | hfine := le_or_gt (firstPlace m - i) c.exponent
  · obtain ⟨x, hx⟩ := amount_on_grid hcoarse
    exact ⟨x, hx ▸ hc, by rw [hx]⟩
  · obtain ⟨hfirst, -⟩ := firstPlace_bounds hm hfinite
    have hbelow : c.amount < 10 ^ firstPlace m := amount_lt hdigits (by push_cast; omega)
    have hpower : ((10 ^ i : ℕ) : ℚ) * 10 ^ (firstPlace m - i) = 10 ^ firstPlace m := by
      rw [Nat.cast_pow, Nat.cast_ofNat, ← zpow_natCast, ← zpow_add₀ (by norm_num), add_sub_cancel]
    refine ⟨10 ^ i, ?_, ?_⟩ <;> rw [hpower]
    · exact hc.between (.of_value m) hbelow.le hfirst
    · rw [abs_of_nonneg (by linarith), abs_of_nonneg (by linarith)]
      linarith

theorem Basin.Chooses.digits_le {d : Decimal} {j : ℕ} (hm : m ≠ 0) (hfinite : m < infiniteMagnitude)
    (h : Basin.Chooses m (firstPlace m - j) d) : d.digits ≤ 10 ^ (j + 1) := by
  obtain ⟨-, hbehind⟩ := firstPlace_bounds hm hfinite
  have hpower : ((10 ^ (j + 1) : ℕ) : ℚ) * 10 ^ (firstPlace m - j) = 10 ^ (firstPlace m + 1) := by
    rw [Nat.cast_pow, Nat.cast_ofNat, ← zpow_natCast, ← zpow_add₀ (by norm_num)]
    congr 1
    push_cast
    ring
  by_contra hmore
  have hmore : ((10 ^ (j + 1) : ℕ) : ℚ) < d.digits := by exact_mod_cast not_le.mp hmore
  have hbeyond : (10 : ℚ) ^ (firstPlace m + 1) < d.amount := by
    rw [← hpower, amount, h.exponent]
    exact mul_lt_mul_of_pos_right hmore (ten_zpow_pos _)
  have hnear := Nearest.between (.of_value m) h.nearest hbehind.le hbeyond.le
  have hpreferred := h.preferred _ (hpower ▸ hnear)
  rw [amount, h.exponent] at hbeyond
  rw [Preferred, hpower, abs_of_nonpos (by linarith), abs_of_nonpos (by linarith)] at hpreferred
  rcases hpreferred with hlt | ⟨heq, -⟩ <;> linarith

@[simp] theorem trimmed_digits_le (d : Decimal) (n : Nat) : (d.trimmed n).digits ≤ d.digits := by
  induction n generalizing d with
  | zero => exact le_rfl
  | succ n ih =>
    rw [trimmed]
    split
    · exact (ih _).trans (Nat.div_le_self _ _)
    · exact le_rfl

private theorem trimmed_digits_lt {d : Decimal} {j : ℕ} (hd : d.digits ≤ 10 ^ (j + 1)) (n : ℕ) :
    (d.trimmed (n + 1)).digits < 10 ^ (j + 1) := by
  obtain hlt | heq := Nat.lt_or_eq_of_le hd
  · exact (trimmed_digits_le d _).trans_lt hlt
  · have hzero : d.digits ≠ 0 ∧ d.digits % 10 = 0 := by
      rw [heq, pow_succ]
      exact ⟨by positivity, Nat.mul_mod_left _ _⟩
    rw [trimmed, if_pos hzero]
    refine (trimmed_digits_le _ n).trans_lt ?_
    dsimp only
    rw [heq, pow_succ]
    omega

private theorem lt_digits_length (hm : m ≠ 0) (hfinite : m < infiniteMagnitude) {j : ℕ}
    (hbefore : ∀ i < j, ∀ x : ℕ, ¬Nearest m (x * 10 ^ (firstPlace m - i))) {c : Decimal}
    (hc : Nearest m c.amount) : j < (digitChars c.digits).length := by
  by_contra hless
  have hpos := digitChars_length_pos c.digits
  have hdigits : c.digits < 10 ^ ((digitChars c.digits).length - 1 + 1) := by
    rw [Nat.sub_add_cancel hpos]
    exact lt_pow_length c.digits
  obtain ⟨x, hx, -⟩ := exists_as_near_on_grid hm hfinite hc hdigits
  exact hbefore _ (by omega) x hx

private theorem zero_isShortest : IsShortest 0 (shortest 0) := by
  have hzero : value 0 - (shortest 0).amount = 0 := by simp [shortest, amount]
  refine ⟨nearest_shortest (by decide), fun c _ => digitChars_length_pos c.digits, fun c _ _ => ?_⟩
  rw [hzero, abs_zero]
  exact abs_nonneg _

theorem shortest_isShortest (hfinite : m < infiniteMagnitude) : IsShortest m (shortest m) := by
  obtain rfl | hm := eq_or_ne m 0
  · exact zero_isShortest
  obtain ⟨c₀, hc₀⟩ := exists_nearest_seventeen hm hfinite
  obtain ⟨d, j, -, hshortest, hchosen, hbefore⟩ := shortest_spec hm (by decide) hc₀
  have hlength : (digitChars (shortest m).digits).length ≤ j + 1 := by
    rw [digitChars_length_le_iff (Nat.succ_pos j), hshortest]
    exact trimmed_digits_lt (hchosen.digits_le hm hfinite) 16
  have hamount : (shortest m).amount = d.digits * 10 ^ (firstPlace m - j) := by
    rw [hshortest, amount_trimmed, amount, hchosen.exponent]
  constructor
  case nearest => exact nearest_shortest hfinite
  case fewest => exact fun c hc => hlength.trans (lt_digits_length hm hfinite hbefore hc)
  case closest =>
    intro c hc heq
    have hdigits : c.digits < 10 ^ (j + 1) :=
      (digitChars_length_le_iff (Nat.succ_pos j)).mp (heq ▸ hlength)
    obtain ⟨x, hx, hnear⟩ := exists_as_near_on_grid hm hfinite hc hdigits
    rw [hamount]
    refine le_trans ?_ hnear
    exact (hchosen.preferred x hx).elim le_of_lt fun h => h.1.le

end Decimal

/-! ### Integers -/

namespace Double

private theorem exponent_nonpos {m : Nat} (h : value m < 2 ^ 53) : exponent m ≤ 0 := by
  by_contra hpos
  have hnormal : m / leadingBit ≠ 0 := by
    intro hzero
    rw [exponent, if_pos hzero] at hpos
    exact hpos (by decide)
  have hbit : leadingBit ≤ significand m := by
    rw [significand, if_neg hnormal]
    exact Nat.le_add_right _ _
  have hbit : (2 : ℚ) ^ 52 ≤ significand m := by
    have hcast : ((leadingBit : ℕ) : ℚ) ≤ significand m := by exact_mod_cast hbit
    exact le_trans (by norm_num [leadingBit]) hcast
  have hstep : (2 : ℚ) ^ (1 : ℤ) ≤ 2 ^ exponent m := zpow_le_zpow_right₀ (by norm_num) (by omega)
  have hvalue : (2 : ℚ) ^ 52 * 2 ^ (1 : ℤ) ≤ value m :=
    mul_le_mul hbit hstep (by norm_num) (by positivity)
  norm_num at hvalue h
  linarith

theorem step_le_one {m : Nat} (h : value m < 2 ^ 53) : (2 : ℚ) ^ exponent m ≤ 1 :=
  zpow_le_one_of_nonpos₀ (by norm_num) (exponent_nonpos h)

theorem Nearest.natural_eq {m v x : ℕ} (hv : value m = v) (hlt : v < 2 ^ 53) (hx : Nearest m x) :
    x = v := by
  have hvalue : value m < 2 ^ 53 := by
    rw [hv]
    exact_mod_cast hlt
  have hhigh : (x : ℚ) ≤ v + 1 / 2 := by
    have hedge := hx.high
    have hstep := step_le_one hvalue
    rw [edge, hv] at hedge
    linarith
  have hlow : (v : ℚ) ≤ x + 1 / 2 := by
    cases m with
    | zero =>
      rw [value_zero] at hv
      have hnonneg : (0 : ℚ) ≤ x := Nat.cast_nonneg x
      linarith
    | succ m =>
      have hedge := hx.low
      have hstep := step_le_one ((value_strictMono (Nat.lt_succ_self m)).trans hvalue)
      have hsucc := value_succ m
      rw [edge] at hedge
      linarith
  have hhigh : x < v + 1 := by
    have hcast : (x : ℚ) < (v + 1 : ℕ) := by
      push_cast
      linarith
    exact_mod_cast hcast
  have hlow : v < x + 1 := by
    have hcast : (v : ℚ) < (x + 1 : ℕ) := by
      push_cast
      linarith
    exact_mod_cast hcast
  omega

end Double

namespace Decimal

open Double (leadingBit infiniteMagnitude value Nearest)

private theorem firstPlace_natural {m v : ℕ} (hfinite : m < infiniteMagnitude) (hv : value m = v)
    (hpos : v ≠ 0) (hlt : v < 2 ^ 53) : m ≠ 0 ∧ ∃ p < 17, firstPlace m = (p : ℕ) := by
  have hm : m ≠ 0 := by
    rintro rfl
    rw [Double.value_zero] at hv
    exact hpos (by exact_mod_cast hv.symm)
  obtain ⟨hfirst, hbehind⟩ := firstPlace_bounds hm hfinite
  have hone : (10 : ℚ) ^ (0 : ℤ) ≤ value m := by
    rw [hv, zpow_zero]
    exact_mod_cast Nat.one_le_iff_ne_zero.mpr hpos
  have hseventeen : value m < (10 : ℚ) ^ (17 : ℤ) := by
    rw [hv]
    have hcast : (v : ℚ) < 2 ^ 53 := by exact_mod_cast hlt
    exact hcast.trans (by norm_num)
  have hleast := (zpow_lt_zpow_iff_right₀ (by norm_num)).mp (hone.trans_lt hbehind)
  have hmost := (zpow_lt_zpow_iff_right₀ (by norm_num)).mp (hfirst.trans_lt hseventeen)
  exact ⟨hm, (firstPlace m).toNat, by omega, by omega⟩

theorem plain_shortest_natural {m v : ℕ} (hfinite : m < infiniteMagnitude) (hv : value m = v)
    (hpos : v ≠ 0) (hle : v ≤ 2 ^ 53) : (shortest m).plain = intText v := by
  obtain hlt | rfl := Nat.lt_or_eq_of_le hle
  · obtain ⟨hm, p, hplace, hp⟩ := firstPlace_natural hfinite hv hpos hlt
    have hunits : Nearest m (v * 10 ^ (firstPlace m - p)) := by
      rw [hp, sub_self, zpow_zero, mul_one, ← hv]
      exact .of_value m
    obtain ⟨d, j, hj, hshortest, hchosen, -⟩ := shortest_spec hm hplace hunits
    have hexponent : d.exponent = (p - j : ℕ) := by
      rw [hchosen.exponent, hp]
      omega
    have hnear := hchosen.nearest
    rw [amount, hexponent, zpow_natCast] at hnear
    have hv' : d.digits * 10 ^ (p - j) = v := Nearest.natural_eq hv hlt (by exact_mod_cast hnear)
    have hdigits : d.digits ≠ 0 := by
      intro hzero
      rw [hzero, Nat.zero_mul] at hv'
      exact hpos hv'.symm
    rw [hshortest, plain_trimmed_natural hexponent hdigits, hv']
  -- the next double is two away, so another integer rounds to this one
  · have hpacked := Double.value_packed (e := 1074) (s := 2 * leadingBit) le_rfl (.inr (by decide))
    have hm : m = 1074 * leadingBit + 2 * leadingBit := by
      apply Double.value_strictMono.injective
      rw [hv, hpacked]
      norm_num [leadingBit]
    rw [hm]
    decide +kernel

end Decimal

end Pagewright
