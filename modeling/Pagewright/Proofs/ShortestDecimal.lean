import Pagewright.Proofs.NearestDouble

/-!
The shortest decimal of a double. Its basin is the set of numbers it is nearest to, and of the multiples
of a power of ten only the two around the double can be the first to lie in it.
-/
namespace Pagewright.Decimal

open Double (leadingBit significand value edge Nearest)

/-! ### The basin of a magnitude -/

theorem pow_eq_quarters (z : ℤ) : (2 : ℚ) ^ z = 4 * 2 ^ (z - 2) := by
  rw [zpow_sub₀ (by norm_num) z 2]
  norm_num
  ring

/-- How far a basin reaches below its magnitude, in quarters of a step. -/
def quartersBelow (m : Nat) : Nat :=
  if significand m = leadingBit ∧ Double.exponent m ≠ -1074 then 1 else 2

theorem value_eq (m : Nat) :
    value m = (4 * significand m : ℕ) * 2 ^ (Double.exponent m - 2) := by
  rw [value, pow_eq_quarters]
  push_cast
  ring

theorem edge_succ_eq (m : Nat) :
    edge (m + 1) = (4 * significand m + 2 : ℕ) * 2 ^ (Double.exponent m - 2) := by
  rw [edge, value, pow_eq_quarters]
  push_cast
  ring

theorem edge_eq (m : Nat) :
    edge m = (4 * significand m - quartersBelow m : ℕ) * 2 ^ (Double.exponent m - 2) := by
  obtain ⟨e, s, rfl, hs, he⟩ := Double.exists_packed m
  obtain ⟨hsignificand, hexponent⟩ := Double.parts_packed hs he
  rw [quartersBelow, hsignificand, hexponent]
  by_cases hfirst : e ≠ 0 ∧ s = leadingBit
  · obtain ⟨hne, rfl⟩ := hfirst
    have hcondition : leadingBit = leadingBit ∧ (e : ℤ) - 1074 ≠ -1074 := ⟨rfl, by omega⟩
    rw [if_pos hcondition, Double.edge_packed_first hne, pow_eq_quarters, Nat.cast_sub (by decide)]
    push_cast
    ring
  · have hcondition : ¬(s = leadingBit ∧ (e : ℤ) - 1074 ≠ -1074) := by
      rintro ⟨heq, hne⟩
      exact hfirst ⟨by omega, heq⟩
    rw [if_neg hcondition]
    by_cases hpos : e * leadingBit + s = 0
    · have hzero : s = 0 := by omega
      rw [hpos, hzero]
      simp [edge]
    · have hspos : 1 ≤ s := by
        obtain rfl | h := he
        · omega
        · exact le_trans (by decide) h
      rw [Double.edge_packed hs.le he hpos hfirst, pow_eq_quarters, Nat.cast_sub (by omega)]
      push_cast
      ring

namespace Basin

structure Spans (b : Basin) (m : Nat) : Prop where
  den_pos : 0 < b.den
  num : (b.num / b.den : ℚ) = value m
  low : (b.low / b.den : ℚ) = edge m
  high : (b.high / b.den : ℚ) = edge (m + 1)
  closed : b.closed = true ↔ m % 2 = 0

@[simp] theorem of_spans (m : Nat) : (Basin.of m).Spans m := by
  have hparity : (significand m % 2 == 0) = true ↔ m % 2 = 0 := by
    rw [beq_iff_eq]
    unfold significand leadingBit
    split <;> omega
  have hlow := edge_eq m
  have hhigh := edge_succ_eq m
  have hvalue := value_eq m
  cases hexponent : Double.exponent m - 2 with
  | ofNat k =>
    have hof : Basin.of m = ⟨4 * significand m * Nat.pow 2 k,
        (4 * significand m - quartersBelow m) * Nat.pow 2 k,
        (4 * significand m + 2) * Nat.pow 2 k, 1, significand m % 2 == 0⟩ := by
      unfold Basin.of
      rw [hexponent]
      rfl
    rw [hexponent, Double.zpow_ofNat_eq Nat.cast_two] at hlow hhigh hvalue
    rw [hof]
    refine ⟨Nat.one_pos, ?_, ?_, ?_, hparity⟩
    · rw [hvalue, Nat.cast_one, div_one, Nat.cast_mul]
    · rw [hlow, Nat.cast_one, div_one, Nat.cast_mul]
    · rw [hhigh, Nat.cast_one, div_one, Nat.cast_mul]
  | negSucc k =>
    have hof : Basin.of m = ⟨4 * significand m * 1,
        (4 * significand m - quartersBelow m) * 1,
        (4 * significand m + 2) * 1, Nat.pow 2 (k + 1), significand m % 2 == 0⟩ := by
      unfold Basin.of
      rw [hexponent]
      rfl
    rw [hexponent, Double.zpow_negSucc_eq Nat.cast_two, mul_one_div] at hlow hhigh hvalue
    rw [hof]
    simp only [Nat.mul_one]
    exact ⟨Nat.pow_pos Nat.two_pos, hvalue.symm, hlow.symm, hhigh.symm, hparity⟩

theorem of_den {m k : Nat} (hk : Double.exponent m - 2 = k) : (Basin.of m).den = 1 := by
  unfold Basin.of
  rw [hk]

theorem contains_iff {b : Basin} {m : Nat} (h : b.Spans m) (num : Nat) {den : Nat}
    (hden : 0 < den) :
    b.contains num den = true ↔ Nearest m (num / den) := by
  have hbden : (0 : ℚ) < b.den := by exact_mod_cast h.den_pos
  have hden' : (0 : ℚ) < den := by exact_mod_cast hden
  have hle (a a' c c' : Nat) (hc : (0 : ℚ) < c) (hc' : (0 : ℚ) < c') :
      a * c' ≤ a' * c ↔ (a / c : ℚ) ≤ a' / c' := by
    rw [div_le_div_iff₀ hc hc']
    exact_mod_cast Iff.rfl
  have hlt (a a' c c' : Nat) (hc : (0 : ℚ) < c) (hc' : (0 : ℚ) < c') :
      a * c' < a' * c ↔ (a / c : ℚ) < a' / c' := by
    rw [div_lt_div_iff₀ hc hc']
    exact_mod_cast Iff.rfl
  unfold contains
  dsimp only
  by_cases heven : m % 2 = 0
  · rw [h.closed.mpr heven, if_pos rfl, Bool.and_eq_true, decide_eq_true_eq, decide_eq_true_eq,
      hle _ _ _ _ hbden hden', hle _ _ _ _ hden' hbden, h.low, h.high, Nearest.iff_even heven]
  · have hopen : b.closed = false := Bool.eq_false_iff.mpr (mt h.closed.mp heven)
    rw [hopen, if_neg Bool.false_ne_true, Bool.and_eq_true, decide_eq_true_eq, decide_eq_true_eq,
      hlt _ _ _ _ hbden hden', hlt _ _ _ _ hden' hbden, h.low, h.high, Nearest.iff_odd heven]

end Basin

/-! ### The grid of a power of ten -/

def amount (d : Decimal) : ℚ := d.digits * 10 ^ d.exponent

@[simp] theorem ten_zpow_pos (e : ℤ) : (0 : ℚ) < 10 ^ e := zpow_pos (by norm_num) e

theorem scaled_den_pos (num : Nat) {den : Nat} (hden : 0 < den) (e : ℤ) :
    0 < (scaled num den e).2 := by
  cases e with
  | ofNat k => exact Nat.mul_pos hden (Nat.pow_pos (by decide))
  | negSucc k => exact hden

@[simp] theorem scaled_quotient (num den : Nat) (e : ℤ) :
    ((scaled num den e).1 / (scaled num den e).2 : ℚ) = num / den / 10 ^ e := by
  cases e with
  | ofNat k => rw [Double.zpow_ofNat_eq Nat.cast_ofNat, scaled, div_div, Nat.cast_mul]
  | negSucc k =>
    rw [Double.zpow_negSucc_eq Nat.cast_ofNat, scaled, div_div_eq_mul_div, div_one, Nat.cast_mul, div_mul_eq_mul_div]

/-- A number of a grid comes before another one for a number: it is nearer, or as near and not smaller. -/
def Preferred (x : ℚ) (e : ℤ) (c c' : Nat) : Prop :=
  |x - c * 10 ^ e| < |x - c' * 10 ^ e| ∨ |x - c * 10 ^ e| = |x - c' * 10 ^ e| ∧ c' ≤ c

section Neighbours

variable {y : ℚ} {d c : Nat} (e : ℤ)

theorem preferred_iff :
    Preferred (y * 10 ^ e) e d c ↔ |y - d| < |y - c| ∨ |y - d| = |y - c| ∧ c ≤ d := by
  have hpow := ten_zpow_pos e
  have hdistance (n : Nat) : |y * 10 ^ e - n * 10 ^ e| = |y - n| * 10 ^ e := by
    rw [← sub_mul, abs_mul, abs_of_pos hpow]
  rw [Preferred, hdistance, hdistance, mul_lt_mul_iff_left₀ hpow, mul_left_inj' hpow.ne']

theorem preferred_below (hlow : d ≤ y) (hhigh : y < d + 1) (hc : c ≤ d ∨ y - d < 1 / 2) :
    Preferred (y * 10 ^ e) e d c := by
  rw [preferred_iff, abs_of_nonneg (sub_nonneg.mpr hlow)]
  obtain hlt | rfl | hgt := Nat.lt_trichotomy c d
  · have hcd : (c : ℚ) + 1 ≤ d := by exact_mod_cast hlt
    rw [abs_of_nonneg (by linarith)]
    exact .inl (by linarith)
  · exact .inr ⟨(abs_of_nonneg (sub_nonneg.mpr hlow)).symm, le_rfl⟩
  · have hcd : (d : ℚ) + 1 ≤ c := by exact_mod_cast hgt
    have hhalf := hc.resolve_left (not_le.mpr hgt)
    rw [abs_of_nonpos (by linarith)]
    exact .inl (by linarith)

theorem preferred_above (hhigh : y < d + 1) (hc : d + 1 ≤ c ∨ 1 / 2 ≤ y - d) :
    Preferred (y * 10 ^ e) e (d + 1) c := by
  rw [preferred_iff, abs_of_nonpos (by push_cast; linarith)]
  push_cast
  obtain hlt | rfl | hgt := Nat.lt_trichotomy c (d + 1)
  · have hcd : (c : ℚ) ≤ d := by exact_mod_cast Nat.le_of_lt_succ hlt
    have hhalf := hc.resolve_left (not_le.mpr hlt)
    rw [abs_of_nonneg (by linarith)]
    obtain h | h := lt_or_eq_of_le (show -(y - (d + 1)) ≤ y - c by linarith)
    · exact .inl h
    · exact .inr ⟨h, hlt.le⟩
  · push_cast
    rw [abs_of_nonpos (by linarith)]
    exact .inr ⟨rfl, le_rfl⟩
  · have hcd : (d : ℚ) + 1 + 1 ≤ c := by exact_mod_cast hgt
    rw [abs_of_nonpos (by linarith)]
    exact .inl (by linarith)

end Neighbours

namespace Basin

def holds (b : Basin) (e : ℤ) (c : Nat) : Bool :=
  match e with
  | .ofNat k => b.contains (c * Nat.pow 10 k) 1
  | .negSucc k => b.contains c (Nat.pow 10 (k + 1))

theorem holds_iff {b : Basin} {m : Nat} (h : b.Spans m) (e : ℤ) (c : Nat) :
    b.holds e c = true ↔ Nearest m (c * 10 ^ e) := by
  cases e with
  | ofNat k =>
    rw [holds, contains_iff h _ Nat.one_pos, Double.zpow_ofNat_eq Nat.cast_ofNat, Nat.cast_one, div_one, Nat.cast_mul]
  | negSucc k =>
    have hden : 0 < Nat.pow 10 (k + 1) := Nat.pow_pos (by decide)
    rw [holds, contains_iff h _ hden, Double.zpow_negSucc_eq Nat.cast_ofNat, mul_one_div]

/-- The point of a grid that is chosen lies in the basin, and comes before any other one that does. -/
structure Chooses (m : Nat) (e : ℤ) (d : Decimal) : Prop where
  exponent : d.exponent = e
  nearest : Nearest m d.amount
  preferred : ∀ c : Nat, Nearest m (c * 10 ^ e) → Preferred (value m) e d.digits c

private theorem gridPoint?_eq (b : Basin) (e : ℤ) :
    b.gridPoint? e =
      match b.holds e ((scaled b.num b.den e).1 / (scaled b.num b.den e).2),
        b.holds e ((scaled b.num b.den e).1 / (scaled b.num b.den e).2 + 1) with
      | true, true =>
        some ⟨if 2 * ((scaled b.num b.den e).1 % (scaled b.num b.den e).2) < (scaled b.num b.den e).2
          then (scaled b.num b.den e).1 / (scaled b.num b.den e).2
          else (scaled b.num b.den e).1 / (scaled b.num b.den e).2 + 1, e⟩
      | true, false => some ⟨(scaled b.num b.den e).1 / (scaled b.num b.den e).2, e⟩
      | false, true => some ⟨(scaled b.num b.den e).1 / (scaled b.num b.den e).2 + 1, e⟩
      | false, false => none := rfl

private theorem quotient_parts (num : Nat) {den : Nat} (hden : 0 < den) :
    ((num / den : ℕ) : ℚ) ≤ num / den ∧ (num / den : ℚ) < (num / den : ℕ) + 1 ∧
      (2 * (num % den) < den ↔ (num / den : ℚ) - (num / den : ℕ) < 1 / 2) := by
  have hden' : (0 : ℚ) < den := by exact_mod_cast hden
  have hnum : (num : ℚ) = (num / den : ℕ) * den + (num % den : ℕ) := by
    exact_mod_cast (Nat.div_add_mod' num den).symm
  have hmod : ((num % den : ℕ) : ℚ) < den := by exact_mod_cast Nat.mod_lt num hden
  have hmod' : (0 : ℚ) ≤ (num % den : ℕ) := Nat.cast_nonneg _
  refine ⟨?_, ?_, ?_⟩
  · rw [le_div_iff₀ hden']
    linarith
  · rw [div_lt_iff₀ hden']
    linarith
  · rw [sub_lt_iff_lt_add, div_lt_iff₀ hden', hnum]
    constructor
    · intro h
      have h : 2 * ((num % den : ℕ) : ℚ) < den := by exact_mod_cast h
      linarith
    · intro h
      have h : 2 * ((num % den : ℕ) : ℚ) < den := by linarith
      exact_mod_cast h

theorem gridPoint?_spec {b : Basin} {m : Nat} (h : b.Spans m) (e : ℤ) :
    match b.gridPoint? e with
    | some d => Chooses m e d
    | none => ∀ c : Nat, ¬Nearest m (c * 10 ^ e) := by
  have hpow := ten_zpow_pos e
  have hquotient := scaled_quotient b.num b.den e
  have hden := scaled_den_pos b.num h.den_pos e
  rw [gridPoint?_eq]
  generalize (scaled b.num b.den e).1 = num at hquotient ⊢
  generalize (scaled b.num b.den e).2 = den at hquotient hden ⊢
  rw [h.num] at hquotient
  have hvalue : value m = num / den * 10 ^ e := by rw [hquotient, div_mul_cancel₀ _ hpow.ne']
  obtain ⟨hlow, hhigh, hhalf⟩ := quotient_parts num hden
  generalize (num / den : ℚ) = y at hvalue hlow hhigh hhalf
  generalize num / den = d at hlow hhigh hhalf ⊢
  -- a point beyond a neighbour is in the basin only if the neighbour is
  have hbelow {c : Nat} (hc : Nearest m (c * 10 ^ e)) (hle : c ≤ d) : Nearest m (d * 10 ^ e) := by
    refine hc.between (.of_value m) (mul_le_mul_of_nonneg_right (by exact_mod_cast hle) hpow.le) ?_
    rw [hvalue]
    exact mul_le_mul_of_nonneg_right hlow hpow.le
  have habove {c : Nat} (hc : Nearest m (c * 10 ^ e)) (hle : d + 1 ≤ c) :
      Nearest m ((d + 1 : ℕ) * 10 ^ e) := by
    refine Nearest.between (.of_value m) hc ?_
      (mul_le_mul_of_nonneg_right (by exact_mod_cast hle) hpow.le)
    rw [hvalue]
    push_cast
    exact mul_le_mul_of_nonneg_right hhigh.le hpow.le
  rw [← holds_iff h] at hbelow habove
  have hchosen {n : Nat} (hn : b.holds e n = true)
      (hpreferred : ∀ c : Nat, Nearest m (c * 10 ^ e) → Preferred (y * 10 ^ e) e n c) :
      Chooses m e ⟨n, e⟩ := ⟨rfl, (holds_iff h e n).mp hn, hvalue ▸ hpreferred⟩
  cases hfirst : b.holds e d <;> cases hsecond : b.holds e (d + 1)
  case false.false =>
    intro c hc
    obtain hle | hle := Nat.lt_or_ge d c
    · rw [habove hc hle] at hsecond
      cases hsecond
    · rw [hbelow hc hle] at hfirst
      cases hfirst
  case false.true =>
    refine hchosen hsecond fun c hc => preferred_above e hhigh (.inl ?_)
    apply Nat.lt_of_not_le
    intro hle
    rw [hbelow hc hle] at hfirst
    cases hfirst
  case true.false =>
    refine hchosen hfirst fun c hc => preferred_below e hlow hhigh (.inl ?_)
    apply Nat.le_of_not_lt
    intro hle
    rw [habove hc hle] at hsecond
    cases hsecond
  case true.true =>
    dsimp only
    split
    · next hless => exact hchosen hfirst fun c _ => preferred_below e hlow hhigh (.inr (hhalf.mp hless))
    · next hmore =>
      refine hchosen hsecond fun c _ => preferred_above e hhigh (.inr ?_)
      exact not_lt.mp (mt hhalf.mpr hmore)

end Basin

/-! ### The first grid -/

private theorem findSome?_range {α : Type} {f : Nat → Option α} {n j : Nat} {a : α} (hj : j < n)
    (ha : f j = some a) (hbefore : ∀ i < j, f i = none) : (List.range n).findSome? f = some a := by
  induction n with
  | zero => omega
  | succ n ih =>
    rw [List.range_succ, List.findSome?_append]
    obtain hlt | rfl := Nat.lt_or_eq_of_le (Nat.le_of_lt_succ hj)
    · rw [ih hlt, Option.some_or]
    · have hnone : (List.range j).findSome? f = none :=
        List.findSome?_eq_none_iff.mpr fun i hi => hbefore i (List.mem_range.mp hi)
      rw [hnone, Option.none_or, List.findSome?_cons, ha]

def firstPlace (m : Nat) : ℤ := leadingPlace (Basin.of m).num (Basin.of m).den

/-- If a grid has a point in the basin of a magnitude, the shortest decimal is chosen on the coarsest grid
that has one. -/
theorem shortest_spec {m n : Nat} (hm : m ≠ 0) (hn : n < 17) {c : Nat}
    (hc : Nearest m (c * 10 ^ (firstPlace m - n))) :
    ∃ d j, j ≤ n ∧ shortest m = d.trimmed 17 ∧ Basin.Chooses m (firstPlace m - j) d ∧
      ∀ i < j, ∀ c : Nat, ¬Nearest m (c * 10 ^ (firstPlace m - i)) := by
  classical
  have hexists : ∃ n : ℕ, ∃ c : ℕ, Nearest m (c * 10 ^ (firstPlace m - n)) := ⟨n, c, hc⟩
  let j := Nat.find hexists
  have hjn : j ≤ n := Nat.find_min' hexists ⟨c, hc⟩
  have hbefore : ∀ i < j, ∀ c : Nat, ¬Nearest m (c * 10 ^ (firstPlace m - i)) :=
    fun i hi c hnear => Nat.find_min hexists hi ⟨c, hnear⟩
  obtain ⟨c', hc'⟩ := Nat.find_spec hexists
  have hgrid := Basin.gridPoint?_spec (Basin.of_spans m)
  cases hpoint : (Basin.of m).gridPoint? (firstPlace m - j) with
  | none =>
    have hnone := hgrid (firstPlace m - j)
    rw [hpoint] at hnone
    exact absurd hc' (hnone c')
  | some d =>
    have hchosen := hgrid (firstPlace m - j)
    rw [hpoint] at hchosen
    refine ⟨d, j, hjn, ?_, hchosen, hbefore⟩
    have hnone : ∀ i < j, (Basin.of m).gridPoint? (firstPlace m - i) = none := by
      intro i hi
      have hpoints := hgrid (firstPlace m - i)
      cases hother : (Basin.of m).gridPoint? (firstPlace m - i) with
      | none => rfl
      | some d' =>
        rw [hother] at hpoints
        have hnear := hpoints.nearest
        rw [amount, hpoints.exponent] at hnear
        exact absurd hnear (hbefore i hi d'.digits)
    have hfound := findSome?_range (Nat.lt_of_le_of_lt hjn hn) hpoint hnone
    rw [shortest, if_neg hm]
    dsimp only
    change (match (List.range 17).findSome? fun n : Nat => (Basin.of m).gridPoint? (firstPlace m - n) with
      | some d => d.trimmed 17
      | none => _) = _
    rw [hfound]

/-! ### Writing out -/

private theorem digitChars_mul_pow {n : Nat} (hn : n ≠ 0) (k : Nat) :
    digitChars (n * 10 ^ k) = digitChars n ++ List.replicate k '0' := by
  induction k with
  | zero => simp
  | succ k ih =>
    have hpos : 0 < n * 10 ^ k := Nat.mul_pos (Nat.pos_of_ne_zero hn) (Nat.pow_pos (by decide))
    have hzero := Nat.toDigits_append_toDigits (b := 10) (d := 0) (by decide) hpos (by decide)
    have hnext : n * 10 ^ (k + 1) = 10 * (n * 10 ^ k) + 0 := by ring
    rw [digitChars, hnext, ← hzero]
    change digitChars (n * 10 ^ k) ++ ['0'] = _
    rw [ih, List.append_assoc, List.replicate_succ']

theorem plain_natural {d : Decimal} {k : Nat} (hk : d.exponent = k) (hd : d.digits ≠ 0) :
    d.plain = intText ((d.digits * 10 ^ k : ℕ) : ℤ) := by
  have hnegative : ¬((d.digits * 10 ^ k : ℕ) : ℤ) < 0 := by omega
  unfold plain intText
  rw [hk, Int.natAbs_natCast, digitChars_mul_pow hd]
  dsimp only
  rw [if_neg hnegative, if_neg hd]

private theorem trimmed_natural {d : Decimal} {k : Nat} (hk : d.exponent = k) (hd : d.digits ≠ 0)
    (n : Nat) :
    ∃ k' : ℕ, (d.trimmed n).exponent = k' ∧ (d.trimmed n).digits ≠ 0 ∧
      (d.trimmed n).digits * 10 ^ k' = d.digits * 10 ^ k := by
  induction n generalizing d k with
  | zero => exact ⟨k, hk, hd, rfl⟩
  | succ n ih =>
    rw [trimmed]
    split
    · next hzero =>
      have hdigits : d.digits / 10 * 10 = d.digits := by omega
      have hexponent : d.exponent + 1 = ((k + 1 : ℕ) : ℤ) := by omega
      obtain ⟨k', hk', hd', heq⟩ := ih (d := ⟨d.digits / 10, d.exponent + 1⟩) hexponent (by
        dsimp only
        omega)
      refine ⟨k', hk', hd', heq.trans ?_⟩
      dsimp only
      rw [pow_succ', ← mul_assoc, hdigits]
    · exact ⟨k, hk, hd, rfl⟩

theorem plain_trimmed_natural {d : Decimal} {k : Nat} (hk : d.exponent = k) (hd : d.digits ≠ 0)
    (n : Nat) : (d.trimmed n).plain = intText ((d.digits * 10 ^ k : ℕ) : ℤ) := by
  obtain ⟨k', hk', hd', heq⟩ := trimmed_natural hk hd n
  rw [plain_natural hk' hd', heq]

end Pagewright.Decimal
