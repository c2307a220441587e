import Mathlib.Data.Nat.Cast.Field
import Pagewright.Markup.ValueText
import Pagewright.Proofs.PositionalTexts
import Pagewright.Proofs.ShortestDigits

/-!
The texts of floats in the markup. Each is a number that rounds to the float, so that floats of different
values have different texts; where floats hold all integers, they are written like integers.
-/
namespace Pagewright

namespace Double

def signed (negative : Bool) (m : Nat) : ℚ := if negative then -value m else value m

def toRat (d : Double) : ℚ := signed d.negative d.magnitude

/-- The double that a number is rounded to. -/
def nearest (x : ℚ) : Double := ofRatio (x < 0) x.num.natAbs x.den

/-- No double is nearer to a number, not even one of those that would follow the greatest if there were
more exponents; and if one with another value is as near, it is this one that has an even significand. -/
structure ClosestTo (d : Double) (x : ℚ) : Prop where
  near : ∀ negative m, |x - d.toRat| ≤ |x - signed negative m|
  even : ∀ negative m, |x - signed negative m| = |x - d.toRat| → signed negative m ≠ d.toRat →
    significand d.magnitude % 2 = 0

variable {m m' : Nat} {x y : ℚ}

/-! ### Distances -/

@[simp] theorem edge_succ_eq_mid (m : Nat) : edge (m + 1) = (value m + value (m + 1)) / 2 := by
  rw [edge, value_succ]
  ring

theorem Nearest.before (h : Nearest m y) (hlt : m' < m) :
    |y - value m| ≤ y - value m' ∧ (y - value m' = |y - value m| → m % 2 = 0) := by
  obtain ⟨m, rfl⟩ := Nat.exists_eq_succ_of_ne_zero (Nat.ne_zero_of_lt hlt)
  have hlow := h.low
  have hedge := edge_succ_eq_mid m
  have hbefore : value m' ≤ value m := value_strictMono.monotone (Nat.le_of_lt_succ hlt)
  have hstep : value m < value (m + 1) := value_strictMono (Nat.lt_succ_self m)
  refine ⟨abs_le.mpr ⟨by linarith, by linarith⟩, fun heq => h.tie (.inl ?_)⟩
  obtain habs | habs := abs_choice (y - value (m + 1)) <;> rw [habs] at heq <;> linarith

theorem Nearest.behind (h : Nearest m y) (hlt : m < m') :
    |y - value m| ≤ value m' - y ∧ (value m' - y = |y - value m| → m % 2 = 0) := by
  have hhigh := h.high
  have hedge := edge_succ_eq_mid m
  have hbehind : value (m + 1) ≤ value m' := value_strictMono.monotone hlt
  have hstep : value m < value (m + 1) := value_strictMono (Nat.lt_succ_self m)
  refine ⟨abs_le.mpr ⟨by linarith, by linarith⟩, fun heq => h.tie (.inr ?_)⟩
  obtain habs | habs := abs_choice (y - value m) <;> rw [habs] at heq <;> linarith

/-- A number is not nearer to another magnitude than to the one that it rounds to, and if it is as near, the
latter is even. -/
theorem Nearest.near (h : Nearest m y) (m' : Nat) :
    |y - value m| ≤ |y - value m'| ∧
      (|y - value m'| = |y - value m| → value m' ≠ value m → m % 2 = 0) := by
  obtain hlt | rfl | hgt := Nat.lt_trichotomy m' m
  · obtain ⟨hle, heven⟩ := h.before hlt
    have habs : |y - value m'| = y - value m' := abs_of_nonneg ((abs_nonneg _).trans hle)
    rw [habs]
    exact ⟨hle, fun heq _ => heven heq⟩
  · exact ⟨le_rfl, fun _ hne => absurd rfl hne⟩
  · obtain ⟨hle, heven⟩ := h.behind hgt
    have habs : |y - value m'| = value m' - y := by
      rw [abs_sub_comm]
      exact abs_of_nonneg ((abs_nonneg _).trans hle)
    rw [habs]
    exact ⟨hle, fun heq _ => heven heq⟩

theorem Nearest.nonneg (h : Nearest m y) : 0 ≤ y :=
  (edge_strictMono.monotone (Nat.zero_le m)).trans h.low

theorem Nearest.near_negated (h : Nearest m y) (m' : Nat) :
    |y - value m| ≤ y + value m' ∧ (y + value m' = |y - value m| → -value m' ≠ value m → m % 2 = 0) := by
  have hzero := h.near 0
  have hnonneg := value_nonneg m'
  rw [value_zero, sub_zero, abs_of_nonneg h.nonneg] at hzero
  refine ⟨by linarith, fun heq hne => hzero.2 (by linarith) fun hvalue => hne ?_⟩
  linarith

theorem Nearest.near_signed (h : Nearest m y) (negative : Bool) (m' : Nat) :
    |y - value m| ≤ |y - signed negative m'| ∧
      (|y - signed negative m'| = |y - value m| → signed negative m' ≠ value m → m % 2 = 0) := by
  cases negative with
  | false => exact h.near m'
  | true =>
    have habs : |y - signed true m'| = y + value m' := by
      rw [signed, if_pos rfl, sub_neg_eq_add]
      exact abs_of_nonneg (add_nonneg h.nonneg (value_nonneg m'))
    rw [habs]
    exact h.near_negated m'

@[simp] theorem signed_not (negative : Bool) (m : Nat) :
    signed (!negative) m = -signed negative m := by
  cases negative
  · rfl
  · exact (neg_neg _).symm

@[simp] theorem significand_parity (m : Nat) : significand m % 2 = m % 2 := by
  unfold significand leadingBit
  split <;> omega

theorem closestTo_of_nearest {d : Double} (h : Nearest d.magnitude y) :
    d.ClosestTo (if d.negative then -y else y) := by
  have hflip (z : ℚ) : |-y - z| = |y - -z| := by
    rw [← abs_neg]
    congr 1
    ring
  cases hsign : d.negative with
  | false =>
    have hvalue : d.toRat = value d.magnitude := by rw [toRat, hsign, signed, if_neg Bool.false_ne_true]
    rw [if_neg Bool.false_ne_true]
    constructor
    · intro negative m
      rw [hvalue]
      exact (h.near_signed negative m).1
    · intro negative m heq hne
      rw [hvalue] at heq hne
      rw [significand_parity]
      exact (h.near_signed negative m).2 heq hne
  | true =>
    have hvalue : d.toRat = -value d.magnitude := by rw [toRat, hsign, signed, if_pos rfl]
    rw [if_pos rfl]
    constructor
    · intro negative m
      rw [hvalue, hflip, hflip, neg_neg, ← signed_not]
      exact (h.near_signed _ m).1
    · intro negative m heq hne
      rw [hvalue, hflip, hflip, neg_neg, ← signed_not] at heq
      rw [significand_parity]
      refine (h.near_signed _ m).2 heq fun hsame => hne ?_
      rw [hvalue, ← hsame, signed_not, neg_neg]

/-! ### Doubles by sign and magnitude -/

@[simp] theorem ofMagnitude_eta (d : Double) : ofMagnitude d.negative d.magnitude = d := by
  have hbound := d.bits.toNat_lt
  have hmagnitude : d.magnitude < signBit := Nat.mod_lt _ (by decide)
  have hbits : (ofMagnitude d.negative d.magnitude).bits = d.bits := by
    apply UInt64.toNat_inj.mp
    rw [ofMagnitude_bits _ hmagnitude]
    unfold Double.negative magnitude signBit
    by_cases hsign : 0x8000000000000000 ≤ d.bits.toNat
    · rw [decide_eq_true hsign, if_pos rfl]
      omega
    · rw [decide_eq_false hsign, if_neg Bool.false_ne_true]
      omega
  exact congrArg Double.mk hbits

private theorem abs_eq_quotient (x : ℚ) : |x| = (x.num.natAbs : ℚ) / x.den := by
  conv_lhs => rw [← Rat.num_div_den x]
  rw [abs_div, Nat.abs_cast, Nat.cast_natAbs, Int.cast_abs]

theorem nearest_eq (negative : Bool) (hfinite : m < infiniteMagnitude) (h : Nearest m y)
    (hy : y ≠ 0) :
    nearest (if negative then -y else y) = ofMagnitude negative m := by
  have hpos : 0 < y := lt_of_le_of_ne h.nonneg hy.symm
  have hsign : decide ((if negative then -y else y) < 0) = negative := by
    cases negative
    · exact decide_eq_false (not_lt.mpr hpos.le)
    · exact decide_eq_true (neg_lt_zero.mpr hpos)
  have habs : |if negative then -y else y| = y := by
    cases negative
    · exact abs_of_pos hpos
    · exact (abs_neg y).trans (abs_of_pos hpos)
  rw [nearest, ofRatio, hsign, (nearestMagnitude_eq_iff (Rat.den_pos _) hfinite).mpr]
  rw [← abs_eq_quotient, habs]
  exact h

@[simp] theorem nearest_zero : nearest 0 = ofMagnitude false 0 := rfl

/-! ### Integers -/

private theorem ratio_quotient (m : Nat) :
    0 < (ratio m).2 ∧ ((ratio m).1 / (ratio m).2 : ℚ) = value m := by
  unfold ratio value
  cases exponent m with
  | ofNat k =>
    refine ⟨Nat.one_pos, ?_⟩
    rw [zpow_ofNat_eq Nat.cast_two, Nat.cast_one, div_one, Nat.cast_mul]
  | negSucc k =>
    refine ⟨Nat.pow_pos Nat.two_pos, ?_⟩
    rw [zpow_negSucc_eq Nat.cast_two, mul_one_div]

theorem toRat_eq_intCast_iff {d : Double} {i : ℤ} :
    d.toRat = i ↔ ∃ n : ℕ, value d.magnitude = n ∧ i = if d.negative then -(n : ℤ) else n := by
  have hnonneg := value_nonneg d.magnitude
  unfold toRat signed
  cases d.negative with
  | false =>
    simp only [Bool.false_eq_true, if_false]
    constructor
    · intro h
      obtain ⟨n, rfl⟩ := Int.eq_ofNat_of_zero_le (a := i) (by exact_mod_cast h ▸ hnonneg)
      exact ⟨n, by exact_mod_cast h, rfl⟩
    · rintro ⟨n, hn, rfl⟩
      exact_mod_cast hn
  | true =>
    simp only [if_true]
    constructor
    · intro h
      have hvalue : value d.magnitude = (-i : ℤ) := by
        push_cast
        linarith
      obtain ⟨n, hn⟩ := Int.eq_ofNat_of_zero_le (a := -i) (by exact_mod_cast hvalue ▸ hnonneg)
      exact ⟨n, by rw [hvalue, hn, Int.cast_natCast], by omega⟩
    · rintro ⟨n, hn, rfl⟩
      rw [hn]
      push_cast
      rfl

theorem toInt?_eq {d : Double} (hd : d.isFinite) :
    d.toInt? =
      if (ratio d.magnitude).1 % (ratio d.magnitude).2 = 0 then
        some (if d.negative then -(((ratio d.magnitude).1 / (ratio d.magnitude).2 : ℕ) : ℤ)
          else ((ratio d.magnitude).1 / (ratio d.magnitude).2 : ℕ))
      else none := by
  unfold toInt?
  rw [if_pos hd]

theorem toInt?_eq_some_iff {d : Double} (hd : d.isFinite) {i : ℤ} :
    d.toInt? = some i ↔ d.toRat = i := by
  obtain ⟨hden, hquotient⟩ := ratio_quotient d.magnitude
  have hden' : ((ratio d.magnitude).2 : ℚ) ≠ 0 := by exact_mod_cast hden.ne'
  rw [toInt?_eq hd, toRat_eq_intCast_iff, ← hquotient]
  generalize (ratio d.magnitude).1 = num at *
  generalize (ratio d.magnitude).2 = den at *
  constructor
  · intro h
    split at h
    · next hmod =>
      refine ⟨num / den, ?_, (Option.some.inj h).symm⟩
      exact (Nat.cast_div (Nat.dvd_of_mod_eq_zero hmod) hden').symm
    · cases h
  · rintro ⟨n, hvalue, hi⟩
    have hnum : num = n * den := by exact_mod_cast (div_eq_iff hden').mp hvalue
    rw [if_pos (hnum ▸ Nat.mul_mod_left _ _), hnum, Nat.mul_div_cancel _ hden, ← hi]

private theorem exists_value_natural {n : ℕ} (hn : n ≤ 2 ^ 53) :
    ∃ m < infiniteMagnitude, value m = n := by
  obtain rfl | hpos := Nat.eq_zero_or_pos n
  · exact ⟨0, by decide, by rw [value_zero, Nat.cast_zero]⟩
  obtain hlt | rfl := Nat.lt_or_eq_of_le hn
  · have hbits : n.log2 ≤ 52 := Nat.le_of_lt_succ ((Nat.log2_lt hpos.ne').mpr hlt)
    have hshift : 2 ^ n.log2 * 2 ^ (52 - n.log2) = leadingBit := by
      rw [← pow_add, Nat.add_sub_cancel' hbits]
      decide
    have hlow : leadingBit ≤ n * 2 ^ (52 - n.log2) := by
      rw [← hshift]
      exact Nat.mul_le_mul_right _ (Nat.log2_self_le hpos.ne')
    have hhigh : n * 2 ^ (52 - n.log2) ≤ 2 * leadingBit := by
      rw [← hshift, ← mul_assoc, ← pow_succ']
      exact Nat.mul_le_mul_right _ Nat.lt_log2_self.le
    refine ⟨(1022 + n.log2) * leadingBit + n * 2 ^ (52 - n.log2), ?_, ?_⟩
    · unfold infiniteMagnitude
      unfold leadingBit at *
      omega
    · have hexponent : ((1022 + n.log2 : ℕ) : ℤ) - 1074 = -((52 - n.log2 : ℕ) : ℤ) := by omega
      rw [value_packed hhigh (.inr hlow), hexponent, zpow_neg, zpow_natCast]
      push_cast
      exact mul_inv_cancel_right₀ (by positivity) _
  · refine ⟨1074 * leadingBit + 2 * leadingBit, by decide, ?_⟩
    rw [value_packed le_rfl (.inr (by decide))]
    norm_num [leadingBit]

theorem ofInt_exact {i : ℤ} (hi : |i| ≤ 2 ^ 53) : (ofInt i).isFinite ∧ (ofInt i).toRat = i := by
  have hnat : i.natAbs ≤ 2 ^ 53 := by
    rw [Int.abs_eq_natAbs] at hi
    exact_mod_cast hi
  obtain ⟨m, hfinite, hvalue⟩ := exists_value_natural hnat
  have hnearest : nearestMagnitude i.natAbs 1 = m := by
    rw [nearestMagnitude_eq_iff Nat.one_pos hfinite, Nat.cast_one, div_one, ← hvalue]
    exact .of_value m
  have hsign : m < signBit := hfinite.trans (by decide)
  have hmagnitude : (ofInt i).magnitude = m := by
    rw [ofInt, ofRatio, hnearest, magnitude_ofMagnitude _ hsign]
  have hnegative : (ofInt i).negative = decide (i < 0) := by
    rw [ofInt, ofRatio, hnearest, negative_ofMagnitude _ hsign]
  refine ⟨decide_eq_true (hmagnitude ▸ hfinite), toRat_eq_intCast_iff.mpr ⟨i.natAbs, ?_, ?_⟩⟩
  · rw [hmagnitude, hvalue]
  · rw [hnegative]
    by_cases hneg : i < 0
    · simp only [hneg, decide_true, if_true]
      omega
    · simp only [hneg, decide_false, Bool.false_eq_true, if_false]
      omega

@[simp] theorem toRat_eq_zero_iff {d : Double} : d.toRat = 0 ↔ d.magnitude = 0 := by
  have hvalue : value d.magnitude = 0 ↔ d.magnitude = 0 := by
    rw [← value_zero]
    exact value_strictMono.injective.eq_iff
  rw [← hvalue, toRat, signed]
  split
  · exact neg_eq_zero
  · exact Iff.rfl

theorem eq_of_toRat_eq {d d' : Double} (h : d.toRat = d'.toRat) (hzero : d.toRat ≠ 0) : d = d' := by
  have hpos : 0 < value d.magnitude := value_pos (mt toRat_eq_zero_iff.mpr hzero)
  have hnonneg := value_nonneg d'.magnitude
  unfold toRat signed at h
  rw [← ofMagnitude_eta d, ← ofMagnitude_eta d']
  cases hsign : d.negative <;> cases hsign' : d'.negative <;>
    simp only [hsign, hsign', Bool.false_eq_true, if_true, if_false] at h
  case false.true => linarith
  case true.false => linarith
  case false.false => rw [value_strictMono.injective h]
  case true.true => rw [value_strictMono.injective (neg_injective h)]

end Double

namespace Markup

open Double (Nearest)
open Script (Value)

variable {d d' : Double}

def shortestText (d : Double) : String :=
  (if d.negative then "-" else "") ++ (Decimal.shortest d.magnitude).plain

theorem numberText_finite (hd : d.isFinite) :
    numberText d =
      match d.toInt? with
      | some i => if i.natAbs < greatestInteger then Decimal.intText i else shortestText d
      | none => shortestText d := by
  have hfinite : d.magnitude < Double.infiniteMagnitude := of_decide_eq_true hd
  have hnan : d.isNaN = false := decide_eq_false (by omega)
  have hinfinite : d.isInfinite = false := beq_eq_false_iff_ne.mpr hfinite.ne
  unfold numberText
  rw [hnan, hinfinite]
  rfl

theorem numberText_integer (hd : d.isFinite) {i : ℤ} (hi : d.toRat = i)
    (hsmall : i.natAbs < greatestInteger) : numberText d = Decimal.intText i := by
  rw [numberText_finite hd, (Double.toInt?_eq_some_iff hd).mpr hi]
  exact if_pos hsmall

theorem numberText_shortest (hd : d.isFinite)
    (hlarge : ∀ i : ℤ, d.toRat = i → ¬i.natAbs < greatestInteger) : numberText d = shortestText d := by
  rw [numberText_finite hd]
  cases hi : d.toInt? with
  | none => rfl
  | some i => exact if_neg (hlarge i ((Double.toInt?_eq_some_iff hd).mp hi))

/-- The text of a finite float is a number that rounds to it. -/
theorem exists_numberText (hd : d.isFinite) :
    ∃ (n : Positional) (y : ℚ), numberText d = n.text ∧ n.value = (if d.negative then -y else y) ∧
      Nearest d.magnitude y ∧ (d.toRat = 0 → y = 0) := by
  have hfinite : d.magnitude < Double.infiniteMagnitude := of_decide_eq_true hd
  by_cases hsmall : ∃ i : ℤ, d.toRat = i ∧ i.natAbs < greatestInteger
  · obtain ⟨i, hi, hsmall⟩ := hsmall
    obtain ⟨n, htext, hvalue⟩ := Decimal.exists_intText i
    refine ⟨n, Double.value d.magnitude, ?_, ?_, .of_value _, ?_⟩
    · rw [numberText_integer hd hi hsmall, htext]
    · rw [hvalue, ← hi]
      rfl
    · intro hzero
      rw [Double.toRat_eq_zero_iff.mp hzero, Double.value_zero]
  · obtain ⟨n, htext, hvalue⟩ := Decimal.exists_positional d.negative (Decimal.shortest d.magnitude)
    refine ⟨n, _, ?_, hvalue, Decimal.nearest_shortest hfinite, ?_⟩
    · rw [numberText_shortest hd fun i hi hless => hsmall ⟨i, hi, hless⟩, htext]
      rfl
    · intro hzero
      rw [Double.toRat_eq_zero_iff.mp hzero]
      simp [Decimal.shortest, Decimal.amount]

theorem shortestText_integer (hd : d.isFinite) {i : ℤ} (hi : d.toRat = i) (hne : i ≠ 0)
    (hle : |i| ≤ 2 ^ 53) : shortestText d = Decimal.intText i := by
  have hfinite : d.magnitude < Double.infiniteMagnitude := of_decide_eq_true hd
  obtain ⟨v, hv, rfl⟩ := Double.toRat_eq_intCast_iff.mp hi
  unfold shortestText
  cases hsign : d.negative with
  | false =>
    simp only [hsign, Bool.false_eq_true, if_false] at hne hle ⊢
    have hle : v ≤ 2 ^ 53 := by
      rw [Nat.abs_cast] at hle
      exact_mod_cast hle
    rw [Decimal.plain_shortest_natural hfinite hv (by exact_mod_cast hne) hle, String.empty_append]
  | true =>
    simp only [hsign, if_true] at hne hle ⊢
    have hle : v ≤ 2 ^ 53 := by
      rw [abs_neg, Nat.abs_cast] at hle
      exact_mod_cast hle
    have hne : v ≠ 0 := by
      rintro rfl
      exact hne rfl
    rw [Decimal.plain_shortest_natural hfinite hv hne hle, Decimal.intText_neg hne]

private theorem numberText_eq_intText (hd : d.isFinite) {i : ℤ} (hi : d.toRat = i)
    (hle : |i| ≤ 2 ^ 53) :
    numberText d = Decimal.intText i := by
  by_cases hsmall : i.natAbs < greatestInteger
  · exact numberText_integer hd hi hsmall
  · have hne : i ≠ 0 := by
      rintro rfl
      exact hsmall (by decide)
    rw [← shortestText_integer hd hi hne hle]
    refine numberText_shortest hd fun i' hi' => ?_
    have hsame : i' = i := by exact_mod_cast hi'.symm.trans hi
    rwa [hsame]

theorem nearest_numberText (hd : d.isFinite) :
    ∃ n : Positional, numberText d = n.text ∧ d.ClosestTo n.value ∧
      Double.nearest n.value = if d.toRat = 0 then .ofMagnitude false 0 else d := by
  have hfinite : d.magnitude < Double.infiniteMagnitude := of_decide_eq_true hd
  obtain ⟨n, y, htext, hvalue, hnear, hzero⟩ := exists_numberText hd
  refine ⟨n, htext, hvalue ▸ Double.closestTo_of_nearest hnear, ?_⟩
  rw [hvalue]
  by_cases h : d.toRat = 0
  · rw [if_pos h, hzero h, neg_zero, ite_self]
    exact Double.nearest_zero
  · have hy : y ≠ 0 := by
      rintro rfl
      exact Nearest.not_zero (mt Double.toRat_eq_zero_iff.mpr h) hnear
    rw [if_neg h, Double.nearest_eq d.negative hfinite hnear hy, Double.ofMagnitude_eta]

private theorem numberText_eq_iff (hd : d.isFinite) (hd' : d'.isFinite) :
    numberText d' = numberText d ↔ d'.toRat = d.toRat := by
  constructor
  · intro h
    obtain ⟨n, htext, -, hnearest⟩ := nearest_numberText hd
    obtain ⟨n', htext', -, hnearest'⟩ := nearest_numberText hd'
    have hsame : n' = n := Positional.text_injective (by rw [← htext, ← htext', h])
    have hvalue {d : Double} (h : Double.nearest n.value =
        if d.toRat = 0 then .ofMagnitude false 0 else d) : (Double.nearest n.value).toRat = d.toRat := by
      rw [h]
      split
      · next hzero => rw [hzero]; exact Double.toRat_eq_zero_iff.mpr rfl
      · rfl
    rw [← hvalue hnearest, ← hvalue (hsame ▸ hnearest')]
  · intro h
    by_cases hzero : d'.toRat = 0
    · have hcast : ((0 : ℤ) : ℚ) = 0 := Int.cast_zero
      rw [numberText_integer hd' (hzero.trans hcast.symm) (by decide),
        numberText_integer hd ((h ▸ hzero).trans hcast.symm) (by decide)]
    · rw [Double.eq_of_toRat_eq h hzero]

/-- The text of a finite float is faithful. It is a number, written without an exponent, to which no double is
closer and which is rounded to the float, up to the sign of zero; so the texts of two floats are the same only
if their values are. The digits, unless they are those of an integer below `10 ^ 15`, are the closest of the
shortest decimals that round to the float; and this makes no difference for integers up to `2 ^ 53`, which have
the text of the integer anyway. -/
theorem numberText_faithful (hd : d.isFinite) :
    (∃ n : Positional, numberText d = n.text ∧ d.ClosestTo n.value ∧
      Double.nearest n.value = if d.toRat = 0 then .ofMagnitude false 0 else d) ∧
    (∀ d' : Double, d'.isFinite → (numberText d' = numberText d ↔ d'.toRat = d.toRat)) ∧
    (numberText d = shortestText d ∨
      ∃ i : ℤ, d.toRat = i ∧ |i| < 10 ^ 15 ∧ numberText d = Decimal.intText i) ∧
    Decimal.IsShortest d.magnitude (Decimal.shortest d.magnitude) ∧
    ∀ i : Int64, |i.toInt| ≤ 2 ^ 53 →
      (Double.ofInt i.toInt).isFinite ∧ (Double.ofInt i.toInt).toRat = i.toInt ∧
      (d.toRat = i.toInt → valueText? (.float d) = valueText? (.integer i) ∧
        (i.toInt ≠ 0 → shortestText d = numberText d)) := by
  refine ⟨nearest_numberText hd, fun d' hd' => numberText_eq_iff hd hd', ?_,
    Decimal.shortest_isShortest (of_decide_eq_true hd), fun i hi => ?_⟩
  · by_cases hsmall : ∃ i : ℤ, d.toRat = i ∧ i.natAbs < greatestInteger
    · obtain ⟨i, hi, hsmall⟩ := hsmall
      refine .inr ⟨i, hi, ?_, numberText_integer hd hi hsmall⟩
      rw [Int.abs_eq_natAbs]
      exact_mod_cast hsmall
    · exact .inl (numberText_shortest hd fun i hi hless => hsmall ⟨i, hi, hless⟩)
  · obtain ⟨hfinite, hexact⟩ := Double.ofInt_exact hi
    refine ⟨hfinite, hexact, fun hvalue => ?_⟩
    have htext := numberText_eq_intText hd hvalue hi
    exact ⟨congrArg some htext, fun hne => (shortestText_integer hd hvalue hne hi).trans htext.symm⟩

/-- The last integer that floats hold exactly with all those before it is beyond `10 ^ 15`; the least number
above zero needs 324 places. -/
theorem numberText_faithful_limits :
    let last : Double := ⟨0x4340000000000000⟩
    let least : Double := ⟨1⟩
    last.isFinite ∧ last.toRat = (9007199254740992 : Int64).toInt ∧
      valueText? (.float last) = valueText? (.integer 9007199254740992) ∧
      shortestText last = numberText last ∧
      least.isFinite ∧ least.toRat ≠ last.toRat ∧ numberText least ≠ numberText last := by
  intro last least
  have hlast : last.isFinite := by decide
  have hleast : least.isFinite := by decide
  have hvalue : last.toRat = (9007199254740992 : Int64).toInt :=
    (Double.toInt?_eq_some_iff hlast).mp (by decide +kernel)
  have hdifferent : least.toRat ≠ last.toRat := by
    intro h
    have hzero : least.toRat ≠ 0 := mt Double.toRat_eq_zero_iff.mp (by decide)
    exact absurd (Double.eq_of_toRat_eq h hzero) (by decide)
  obtain ⟨-, htexts, -, -, hintegers⟩ := numberText_faithful hlast
  obtain ⟨-, -, hinteger⟩ := hintegers 9007199254740992 (by decide)
  obtain ⟨htext, hform⟩ := hinteger hvalue
  exact ⟨hlast, hvalue, htext, hform (by decide), hleast, hdifferent,
    mt (htexts least hleast).mp hdifferent⟩

end Markup

end Pagewright
