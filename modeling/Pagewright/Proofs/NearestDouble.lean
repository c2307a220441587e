import Mathlib.Algebra.Order.Field.Basic
import Mathlib.Data.Rat.Cast.Order
import Mathlib.Tactic.FieldSimp
import Mathlib.Tactic.Linarith
import Mathlib.Tactic.NormNum
import Mathlib.Tactic.Positivity
import Mathlib.Tactic.Ring
import Pagewright.Number.Decimal

/-!
The numbers that a double is nearest to. They lie between the points halfway to the doubles before and
behind it, and the points themselves belong to the even one of two neighbours.
-/
namespace Pagewright

namespace Double

def value (m : Nat) : ℚ := significand m * 2 ^ exponent m

/-- Where the numbers begin that a magnitude is nearest to: halfway from the magnitude before. -/
def edge : Nat → ℚ
  | 0 => 0
  | m + 1 => value m + 2 ^ exponent m / 2

/-- A magnitude that a number is nearest to; a tie goes to the even one. -/
structure Nearest (m : Nat) (x : ℚ) : Prop where
  low : edge m ≤ x
  high : x ≤ edge (m + 1)
  tie : x = edge m ∨ x = edge (m + 1) → m % 2 = 0

/-! ### Magnitudes in order -/

theorem parts_packed {e s : Nat} (hs : s < 2 * leadingBit) (he : e = 0 ∨ leadingBit ≤ s) :
    significand (e * leadingBit + s) = s ∧ exponent (e * leadingBit + s) = (e : ℤ) - 1074 := by
  unfold significand exponent
  unfold leadingBit at *
  split <;> omega

theorem exists_packed (m : Nat) :
    ∃ e s, m = e * leadingBit + s ∧ s < 2 * leadingBit ∧ (e = 0 ∨ leadingBit ≤ s) := by
  unfold leadingBit
  by_cases h : m / 0x10000000000000 = 0
  · exact ⟨0, m, by omega, by omega, .inl rfl⟩
  · refine ⟨m / 0x10000000000000 - 1, 0x10000000000000 + m % 0x10000000000000, ?_, ?_, ?_⟩ <;> omega

@[simp] theorem two_zpow_pos (z : ℤ) : (0 : ℚ) < 2 ^ z := zpow_pos (by norm_num) z

theorem two_zpow_succ (e : Nat) :
    (2 : ℚ) ^ (((e + 1 : ℕ) : ℤ) - 1074) = 2 ^ ((e : ℤ) - 1074) * 2 := by
  rw [← zpow_add_one₀ (by norm_num)]
  congr 1
  push_cast
  ring

theorem value_packed {e s : Nat} (hs : s ≤ 2 * leadingBit) (he : e = 0 ∨ leadingBit ≤ s) :
    value (e * leadingBit + s) = s * 2 ^ ((e : ℤ) - 1074) := by
  obtain hlt | rfl := Nat.lt_or_eq_of_le hs
  · obtain ⟨hsignificand, hexponent⟩ := parts_packed hlt he
    rw [value, hsignificand, hexponent]
  · have hcarry : e * leadingBit + 2 * leadingBit = (e + 1) * leadingBit + leadingBit := by ring
    have hlt : leadingBit < 2 * leadingBit := by decide
    obtain ⟨hsignificand, hexponent⟩ := parts_packed (e := e + 1) hlt (.inr le_rfl)
    rw [value, hcarry, hsignificand, hexponent]
    rw [two_zpow_succ]
    push_cast
    ring

theorem value_succ (m : Nat) : value (m + 1) = value m + 2 ^ exponent m := by
  obtain ⟨e, s, rfl, hs, he⟩ := exists_packed m
  have hnext := value_packed (e := e) (s := s + 1) hs (he.imp_right fun h => by omega)
  rw [Nat.add_assoc, hnext, value_packed hs.le he, (parts_packed hs he).2]
  push_cast
  ring

@[simp] theorem value_lt_edge (m : Nat) : value m < edge (m + 1) := by
  rw [edge]
  have := two_zpow_pos (exponent m)
  linarith

@[simp] theorem edge_lt_value (m : Nat) : edge (m + 1) < value (m + 1) := by
  rw [edge, value_succ]
  have := two_zpow_pos (exponent m)
  linarith

@[simp] theorem edge_le_value (m : Nat) : edge m ≤ value m := by
  cases m with
  | zero => simp [edge, value, significand]
  | succ m => exact (edge_lt_value m).le

theorem edge_lt_value_of_ne_zero {m : Nat} (hm : m ≠ 0) : edge m < value m := by
  obtain ⟨m, rfl⟩ := Nat.exists_eq_succ_of_ne_zero hm
  exact edge_lt_value m

theorem edge_strictMono : StrictMono edge :=
  strictMono_nat_of_lt_succ fun m => (edge_le_value m).trans_lt (value_lt_edge m)

/-! ### One nearest magnitude -/

namespace Nearest

variable {m n : Nat} {x y z : ℚ}

theorem unique (hm : Nearest m x) (hn : Nearest n x) : m = n := by
  have hnot {m n : Nat} (hm : Nearest m x) (hn : Nearest n x) : ¬m < n := by
    intro hlt
    have hle : edge (m + 1) ≤ edge n := edge_strictMono.monotone hlt
    have hedge : edge (m + 1) = edge n := le_antisymm hle (hn.low.trans hm.high)
    have hnext : m + 1 = n := edge_strictMono.injective hedge
    have hmeven := hm.tie (.inr (le_antisymm hm.high (hedge ▸ hn.low)))
    have hneven := hn.tie (.inl (le_antisymm (hedge ▸ hm.high) hn.low))
    omega
  exact Nat.le_antisymm (Nat.le_of_not_lt (hnot hn hm)) (Nat.le_of_not_lt (hnot hm hn))

@[simp] theorem of_value (m : Nat) : Nearest m (value m) := by
  refine ⟨edge_le_value m, (value_lt_edge m).le, ?_⟩
  rintro (hlow | hhigh)
  · cases m with
    | zero => rfl
    | succ m => exact absurd hlow (edge_lt_value m).ne'
  · exact absurd hhigh (value_lt_edge m).ne

theorem iff_even (hm : m % 2 = 0) : Nearest m x ↔ edge m ≤ x ∧ x ≤ edge (m + 1) :=
  ⟨fun h => ⟨h.low, h.high⟩, fun ⟨hlow, hhigh⟩ => ⟨hlow, hhigh, fun _ => hm⟩⟩

theorem iff_odd (hm : m % 2 ≠ 0) : Nearest m x ↔ edge m < x ∧ x < edge (m + 1) := by
  constructor
  · intro h
    exact ⟨lt_of_le_of_ne h.low fun heq => hm (h.tie (.inl heq.symm)),
      lt_of_le_of_ne h.high fun heq => hm (h.tie (.inr heq))⟩
  · rintro ⟨hlow, hhigh⟩
    refine ⟨hlow.le, hhigh.le, ?_⟩
    rintro (h | h)
    · exact absurd h hlow.ne'
    · exact absurd h hhigh.ne

theorem of_lt (hlow : value m ≤ x) (hhigh : x < edge (m + 1)) :
    Nearest m x := by
  refine ⟨(edge_le_value m).trans hlow, hhigh.le, ?_⟩
  rintro (h | h)
  · by_cases hm : m = 0
    · rw [hm]
    · exact absurd h (((edge_lt_value_of_ne_zero hm).trans_le hlow).ne')
  · exact absurd h hhigh.ne

theorem not_zero (hm : m ≠ 0) : ¬Nearest m 0 := by
  intro h
  have hpos : edge 0 < edge m := edge_strictMono (Nat.pos_of_ne_zero hm)
  exact absurd h.low (not_le.mpr hpos)

theorem between (hx : Nearest m x) (hz : Nearest m z) (hxy : x ≤ y) (hyz : y ≤ z) :
    Nearest m y := by
  refine ⟨hx.low.trans hxy, hyz.trans hz.high, ?_⟩
  rintro (hlow | hhigh)
  · exact hx.tie (.inl (le_antisymm (hlow ▸ hxy) hx.low))
  · exact hz.tie (.inr (le_antisymm hz.high (hhigh ▸ hyz)))

end Nearest

/-! ### Rounding -/

theorem zpow_ofNat_eq {b : ℚ} {n : Nat} (hb : (n : ℚ) = b) (k : Nat) :
    b ^ (Int.ofNat k) = (Nat.pow n k : ℕ) := by
  rw [← hb, Int.ofNat_eq_natCast, zpow_natCast]
  exact (Nat.cast_pow n k).symm

theorem zpow_negSucc_eq {b : ℚ} {n : Nat} (hb : (n : ℚ) = b) (k : Nat) :
    b ^ (Int.negSucc k) = 1 / (Nat.pow n (k + 1) : ℕ) := by
  rw [← hb, zpow_negSucc, one_div]
  congr 1
  exact (Nat.cast_pow n (k + 1)).symm

private theorem roundDiv_bounds (num : Nat) {den : Nat} (hden : 0 < den) :
    2 * (roundDiv num den * den) ≤ 2 * num + den ∧ 2 * num ≤ 2 * (roundDiv num den * den) + den ∧
      (2 * (roundDiv num den * den) = 2 * num + den ∨ 2 * num = 2 * (roundDiv num den * den) + den →
        roundDiv num den % 2 = 0) := by
  have hdiv : num / den * den + num % den = num := Nat.div_add_mod' num den
  have hmod : num % den < den := Nat.mod_lt _ hden
  have hnext : (num / den + 1) * den = num / den * den + den := Nat.succ_mul _ _
  unfold roundDiv
  dsimp only
  split
  · rename_i hdown
    simp only [Bool.or_eq_true, decide_eq_true_eq, Bool.and_eq_true, beq_iff_eq] at hdown
    omega
  · rename_i hup
    simp only [Bool.or_eq_true, decide_eq_true_eq, Bool.and_eq_true, beq_iff_eq, not_or,
      not_and] at hup
    rw [hnext]
    omega

theorem roundDiv_near (num : Nat) {den : Nat} (hden : 0 < den) :
    (roundDiv num den : ℚ) - 1 / 2 ≤ num / den ∧ (num / den : ℚ) ≤ roundDiv num den + 1 / 2 ∧
      ((num / den : ℚ) = roundDiv num den - 1 / 2 ∨ (num / den : ℚ) = roundDiv num den + 1 / 2 →
        roundDiv num den % 2 = 0) := by
  obtain ⟨hlow, hhigh, htie⟩ := roundDiv_bounds num hden
  have hden' : (0 : ℚ) < den := by exact_mod_cast hden
  have hlow' : 2 * (roundDiv num den * den : ℚ) ≤ 2 * num + den := by exact_mod_cast hlow
  have hhigh' : 2 * (num : ℚ) ≤ 2 * (roundDiv num den * den) + den := by exact_mod_cast hhigh
  refine ⟨?_, ?_, ?_⟩
  · rw [le_div_iff₀ hden']
    linarith
  · rw [div_le_iff₀ hden']
    linarith
  · intro hhalf
    apply htie
    rw [div_eq_iff hden'.ne', div_eq_iff hden'.ne'] at hhalf
    refine hhalf.imp (fun h => ?_) fun h => ?_
    · have : 2 * (roundDiv num den * den : ℚ) = 2 * num + den := by linarith
      exact_mod_cast this
    · have : 2 * (num : ℚ) = 2 * (roundDiv num den * den) + den := by linarith
      exact_mod_cast this

def roundAt (num den : Nat) : ℤ → Nat
  | .ofNat k => roundDiv num (den * Nat.pow 2 k)
  | .negSucc k => roundDiv (num * Nat.pow 2 (k + 1)) den

private theorem roundAt_near (num : Nat) {den : Nat} (hden : 0 < den) (e : ℤ) :
    ((roundAt num den e : ℚ) - 1 / 2) * 2 ^ e ≤ num / den ∧
      (num / den : ℚ) ≤ (roundAt num den e + 1 / 2) * 2 ^ e ∧
      ((num / den : ℚ) = (roundAt num den e - 1 / 2) * 2 ^ e ∨
        (num / den : ℚ) = (roundAt num den e + 1 / 2) * 2 ^ e → roundAt num den e % 2 = 0) := by
  have hpow := two_zpow_pos e
  rw [← le_div_iff₀ hpow, ← div_le_iff₀ hpow, ← div_eq_iff hpow.ne', ← div_eq_iff hpow.ne']
  cases e with
  | ofNat k =>
    have hden' : 0 < den * Nat.pow 2 k := Nat.mul_pos hden (Nat.pow_pos Nat.two_pos)
    have hquotient : (num / den : ℚ) / 2 ^ (Int.ofNat k) = num / (den * Nat.pow 2 k : ℕ) := by
      rw [zpow_ofNat_eq Nat.cast_two, div_div, Nat.cast_mul]
    rw [hquotient]
    exact roundDiv_near num hden'
  | negSucc k =>
    have hquotient : (num / den : ℚ) / 2 ^ (Int.negSucc k) = (num * Nat.pow 2 (k + 1) : ℕ) / den := by
      rw [zpow_negSucc_eq Nat.cast_two, div_div_eq_mul_div, div_one, Nat.cast_mul, div_mul_eq_mul_div]
    rw [hquotient]
    exact roundDiv_near _ hden

def leadingExponent (num den : Nat) : ℤ :=
  let e : Int := (num.log2 : Int) - den.log2 - 52
  if num.log2 < den.log2 then
    (if num * Nat.pow 2 (den.log2 - num.log2) < den then e - 1 else e)
  else (if num < den * Nat.pow 2 (num.log2 - den.log2) then e - 1 else e)

private theorem gridExponent_eq (num den : Nat) :
    gridExponent num den = max (leadingExponent num den) (-1074) := rfl

theorem log2_bounds {n : Nat} (hn : n ≠ 0) :
    (2 : ℚ) ^ (n.log2 : ℤ) ≤ n ∧ (n : ℚ) < 2 ^ ((n.log2 : ℤ) + 1) := by
  constructor
  · rw [zpow_natCast]
    exact_mod_cast Nat.log2_self_le hn
  · rw [show (n.log2 : ℤ) + 1 = (n.log2 + 1 : ℕ) by push_cast; rfl, zpow_natCast]
    exact_mod_cast Nat.lt_log2_self

theorem log2_quotient_bounds {num den : Nat} (hnum : num ≠ 0) (hden : 0 < den) :
    (2 : ℚ) ^ ((num.log2 : ℤ) - den.log2 - 1) ≤ num / den ∧
      (num / den : ℚ) < 2 ^ ((num.log2 : ℤ) - den.log2 + 1) := by
  have hden' : (0 : ℚ) < den := by exact_mod_cast hden
  obtain ⟨hnumlow, hnumhigh⟩ := log2_bounds hnum
  obtain ⟨hdenlow, hdenhigh⟩ := log2_bounds hden.ne'
  constructor
  · rw [le_div_iff₀ hden']
    calc (2 : ℚ) ^ ((num.log2 : ℤ) - den.log2 - 1) * den
        ≤ 2 ^ ((num.log2 : ℤ) - den.log2 - 1) * 2 ^ ((den.log2 : ℤ) + 1) :=
          mul_le_mul_of_nonneg_left hdenhigh.le (two_zpow_pos _).le
      _ = 2 ^ (num.log2 : ℤ) := by
          rw [← zpow_add₀ (by norm_num)]
          congr 1
          ring
      _ ≤ num := hnumlow
  · rw [div_lt_iff₀ hden']
    calc (num : ℚ) < 2 ^ ((num.log2 : ℤ) + 1) := hnumhigh
      _ = 2 ^ ((num.log2 : ℤ) - den.log2 + 1) * 2 ^ (den.log2 : ℤ) := by
          rw [← zpow_add₀ (by norm_num)]
          congr 1
          ring
      _ ≤ 2 ^ ((num.log2 : ℤ) - den.log2 + 1) * den :=
          mul_le_mul_of_nonneg_left hdenlow (two_zpow_pos _).le

private theorem leadingExponent_eq (num : Nat) {den : Nat} (hden : 0 < den) :
    leadingExponent num den =
      if (num / den : ℚ) < 2 ^ ((num.log2 : ℤ) - den.log2) then (num.log2 : ℤ) - den.log2 - 53
      else (num.log2 : ℤ) - den.log2 - 52 := by
  have hden' : (0 : ℚ) < den := by exact_mod_cast hden
  have hstep : (num.log2 : ℤ) - den.log2 - 52 - 1 = (num.log2 : ℤ) - den.log2 - 53 := by ring
  unfold leadingExponent
  dsimp only
  rw [hstep]
  by_cases h : num.log2 < den.log2
  · have hless : num * Nat.pow 2 (den.log2 - num.log2) < den ↔
        (num / den : ℚ) < 2 ^ ((num.log2 : ℤ) - den.log2) := by
      have hpow : (2 : ℚ) ^ ((num.log2 : ℤ) - den.log2) = (2 ^ (den.log2 - num.log2))⁻¹ := by
        rw [← zpow_natCast, ← zpow_neg, Nat.cast_sub h.le, neg_sub]
      rw [hpow, div_lt_iff₀ hden', ← div_eq_inv_mul, lt_div_iff₀ (by positivity)]
      exact_mod_cast Iff.rfl
    rw [if_pos h]
    simp only [hless]
  · have hmore : num < den * Nat.pow 2 (num.log2 - den.log2) ↔
        (num / den : ℚ) < 2 ^ ((num.log2 : ℤ) - den.log2) := by
      have hpow : (2 : ℚ) ^ ((num.log2 : ℤ) - den.log2) = 2 ^ (num.log2 - den.log2) := by
        rw [← zpow_natCast, Nat.cast_sub (not_lt.mp h)]
      rw [hpow, div_lt_iff₀ hden', mul_comm]
      exact_mod_cast Iff.rfl
    rw [if_neg h]
    simp only [hmore]

private theorem leadingExponent_bounds {num den : Nat} (hnum : num ≠ 0) (hden : 0 < den) :
    (2 : ℚ) ^ (leadingExponent num den + 52) ≤ num / den ∧
      (num / den : ℚ) < 2 ^ (leadingExponent num den + 53) := by
  obtain ⟨hlow, hhigh⟩ := log2_quotient_bounds hnum hden
  rw [leadingExponent_eq num hden]
  split
  · rename_i hless
    rw [sub_add_cancel, show (num.log2 : ℤ) - den.log2 - 53 + 52 = num.log2 - den.log2 - 1 by ring]
    exact ⟨hlow, hless⟩
  · rename_i hnot
    rw [sub_add_cancel, show (num.log2 : ℤ) - den.log2 - 52 + 53 = num.log2 - den.log2 + 1 by ring]
    exact ⟨not_lt.mp hnot, hhigh⟩

/-! ### The nearest magnitude is found -/

/-- Below a power of two the step is half as wide. -/
theorem edge_packed_first {e : Nat} (he : e ≠ 0) :
    edge (e * leadingBit + leadingBit) = (leadingBit - 1 / 4) * 2 ^ ((e : ℤ) - 1074) := by
  obtain ⟨e, rfl⟩ := Nat.exists_eq_succ_of_ne_zero he
  have hbefore : (e + 1) * leadingBit + leadingBit =
      e * leadingBit + (2 * leadingBit - 1) + 1 := by
    unfold leadingBit
    omega
  have hlast : 2 * leadingBit - 1 < 2 * leadingBit := by decide
  have hbits : leadingBit ≤ 2 * leadingBit - 1 := by decide
  rw [Nat.succ_eq_add_one, two_zpow_succ, hbefore, edge, value_packed hlast.le (.inr hbits),
    (parts_packed hlast (.inr hbits)).2, Nat.cast_sub (by decide)]
  push_cast
  ring

theorem edge_packed {e s : Nat} (hs : s ≤ 2 * leadingBit) (he : e = 0 ∨ leadingBit ≤ s)
    (hpos : e * leadingBit + s ≠ 0) (hfirst : ¬(e ≠ 0 ∧ s = leadingBit)) :
    edge (e * leadingBit + s) = (s - 1 / 2) * 2 ^ ((e : ℤ) - 1074) := by
  have hne : s ≠ 0 := by
    rintro rfl
    obtain rfl | h := he
    · exact hpos (Nat.zero_mul _)
    · exact absurd h (by decide)
  obtain ⟨s, rfl⟩ := Nat.exists_eq_succ_of_ne_zero hne
  have he' : e = 0 ∨ leadingBit ≤ s := by
    by_cases hzero : e = 0
    · exact .inl hzero
    · have hne : s + 1 ≠ leadingBit := fun heq => hfirst ⟨hzero, heq⟩
      exact .inr (by omega)
  rw [Nat.succ_eq_add_one, ← Nat.add_assoc, edge, value_packed (by omega) he',
    (parts_packed (by omega) he').2]
  push_cast
  ring

theorem le_edge_packed {e s : Nat} (hs : s ≤ 2 * leadingBit) (he : e = 0 ∨ leadingBit ≤ s) :
    ((s : ℚ) + 1 / 2) * 2 ^ ((e : ℤ) - 1074) ≤ edge (e * leadingBit + s + 1) := by
  have hexponent : (e : ℤ) - 1074 ≤ exponent (e * leadingBit + s) := by
    obtain hlt | rfl := Nat.lt_or_eq_of_le hs
    · exact (parts_packed hlt he).2.ge
    -- the significand carries into the next exponent, where the step is twice as wide
    · have hcarry : e * leadingBit + 2 * leadingBit = (e + 1) * leadingBit + leadingBit := by ring
      rw [hcarry, (parts_packed (by decide) (.inr le_rfl)).2]
      push_cast
      omega
  have hstep : (2 : ℚ) ^ ((e : ℤ) - 1074) ≤ 2 ^ exponent (e * leadingBit + s) :=
    zpow_le_zpow_right₀ (by norm_num) hexponent
  rw [edge, value_packed hs he]
  linarith

private theorem nearest_packed {e s : Nat} {x : ℚ} (hs : s ≤ 2 * leadingBit)
    (he : e = 0 ∨ leadingBit ≤ s)
    (hx : 0 ≤ x) (hleading : e ≠ 0 → (leadingBit : ℚ) * 2 ^ ((e : ℤ) - 1074) ≤ x)
    (hlow : ((s : ℚ) - 1 / 2) * 2 ^ ((e : ℤ) - 1074) ≤ x)
    (hhigh : x ≤ ((s : ℚ) + 1 / 2) * 2 ^ ((e : ℤ) - 1074))
    (htie : x = (s - 1 / 2) * 2 ^ ((e : ℤ) - 1074) ∨ x = (s + 1 / 2) * 2 ^ ((e : ℤ) - 1074) →
      s % 2 = 0) : Nearest (e * leadingBit + s) x := by
  have hparity : (e * leadingBit + s) % 2 = s % 2 := by
    unfold leadingBit
    omega
  have hbehind := le_edge_packed hs he
  have heven (h : x = edge (e * leadingBit + s + 1)) : s % 2 = 0 :=
    htie (.inr (le_antisymm hhigh (h ▸ hbehind)))
  by_cases hfirst : e ≠ 0 ∧ s = leadingBit
  -- the edge below is nearer than half a step, but a number with this exponent is not below the magnitude
  · obtain ⟨hne, rfl⟩ := hfirst
    have hlt : edge (e * leadingBit + leadingBit) < x := by
      rw [edge_packed_first hne]
      have hpos := two_zpow_pos ((e : ℤ) - 1074)
      linarith [hleading hne]
    exact ⟨hlt.le, hhigh.trans hbehind, fun _ => hparity⟩
  · by_cases hpos : e * leadingBit + s = 0
    · rw [hpos] at hbehind ⊢
      exact ⟨hx, hhigh.trans hbehind, fun _ => rfl⟩
    · have hedge := edge_packed hs he hpos hfirst
      refine ⟨hedge ▸ hlow, hhigh.trans hbehind, ?_⟩
      rw [hparity]
      rintro (h | h)
      · exact htie (.inl (h.trans hedge))
      · exact heven h

private theorem nearestMagnitude_eq {num : Nat} (hnum : num ≠ 0) (den : Nat) {e : Nat}
    (he : gridExponent num den = (e : ℤ) - 1074) :
    nearestMagnitude num den =
      min (e * leadingBit + roundAt num den (gridExponent num den)) infiniteMagnitude := by
  have hexponent : (gridExponent num den + 1074).toNat = e := by omega
  have hround : nearestMagnitude num den =
      if (gridExponent num den + 1074).toNat * leadingBit + roundAt num den (gridExponent num den) <
          infiniteMagnitude then
        (gridExponent num den + 1074).toNat * leadingBit + roundAt num den (gridExponent num den)
      else infiniteMagnitude := by
    rw [nearestMagnitude, if_neg hnum]
    rfl
  rw [hround, hexponent]
  split <;> omega

theorem exists_nearest (num : Nat) {den : Nat} (hden : 0 < den) :
    ∃ m, Nearest m (num / den) ∧ nearestMagnitude num den = min m infiniteMagnitude := by
  by_cases hnum : num = 0
  · refine ⟨0, ?_, by simp [nearestMagnitude, hnum]⟩
    have hzero : ((num : ℚ) / den) = value 0 := by simp [hnum, value, significand]
    rw [hzero]
    exact .of_value 0
  · obtain ⟨hleading, htop⟩ := leadingExponent_bounds hnum hden
    have hgrid := gridExponent_eq num den
    obtain ⟨e, he⟩ : ∃ e : ℕ, gridExponent num den = (e : ℤ) - 1074 :=
      ⟨(gridExponent num den + 1074).toNat, by omega⟩
    have hround := roundAt_near num hden (gridExponent num den)
    refine ⟨_, ?_, nearestMagnitude_eq hnum den he⟩
    rw [he] at hround ⊢
    generalize roundAt num den ((e : ℤ) - 1074) = s at hround ⊢
    obtain ⟨hlow, hhigh, htie⟩ := hround
    have hpos := two_zpow_pos ((e : ℤ) - 1074)
    have hbit : (2 : ℚ) ^ ((e : ℤ) - 1074 + 52) = leadingBit * 2 ^ ((e : ℤ) - 1074) := by
      rw [zpow_add₀ (by norm_num), mul_comm]
      norm_num [leadingBit]
    have hbits : (2 : ℚ) ^ ((e : ℤ) - 1074 + 53) = 2 * leadingBit * 2 ^ ((e : ℤ) - 1074) := by
      rw [zpow_add₀ (by norm_num), mul_comm]
      norm_num [leadingBit]
    have hbelow : (num / den : ℚ) < 2 * leadingBit * 2 ^ ((e : ℤ) - 1074) := by
      rw [← hbits]
      exact htop.trans_le (zpow_le_zpow_right₀ (by norm_num) (by omega))
    have habove (hne : e ≠ 0) : (leadingBit : ℚ) * 2 ^ ((e : ℤ) - 1074) ≤ num / den := by
      rw [← hbit]
      convert hleading using 2
      omega
    -- the bounds are loose by half a step, which the integers around it absorb
    refine nearest_packed ?_ ?_ (by positivity) habove hlow hhigh htie
    · have hs : ((s : ℚ) - 1 / 2) < 2 * leadingBit :=
        lt_of_mul_lt_mul_right (hlow.trans_lt hbelow) hpos.le
      have hs : (s : ℚ) < (2 * leadingBit + 1 : ℕ) := by
        push_cast
        linarith
      have hs : s < 2 * leadingBit + 1 := by exact_mod_cast hs
      omega
    · by_cases hne : e = 0
      · exact .inl hne
      · right
        have hs : (leadingBit : ℚ) ≤ (s : ℚ) + 1 / 2 :=
          le_of_mul_le_mul_right ((habove hne).trans hhigh) hpos
        have hs : (leadingBit : ℚ) < (s + 1 : ℕ) := by
          push_cast
          linarith
        have hs : leadingBit < s + 1 := by exact_mod_cast hs
        omega

/-- Rounding finds the nearest of all finite magnitudes. -/
theorem nearestMagnitude_eq_iff {num den m : Nat} (hden : 0 < den) (hm : m < infiniteMagnitude) :
    nearestMagnitude num den = m ↔ Nearest m (num / den) := by
  obtain ⟨n, hn, hnearest⟩ := exists_nearest num hden
  rw [hnearest]
  constructor
  · intro h
    have heq : n = m := by omega
    exact heq ▸ hn
  · intro h
    rw [hn.unique h]
    exact Nat.min_eq_left hm.le

/-! ### Doubles of integers -/

@[simp] theorem ofMagnitude_bits (negative : Bool) {m : Nat} (hm : m < signBit) :
    (ofMagnitude negative m).bits.toNat = if negative then signBit + m else m := by
  unfold ofMagnitude
  unfold signBit at *
  rw [UInt64.toNat_ofNat']
  split <;> omega

@[simp] theorem magnitude_ofMagnitude (negative : Bool) {m : Nat} (hm : m < signBit) :
    (ofMagnitude negative m).magnitude = m := by
  rw [magnitude, ofMagnitude_bits negative hm]
  unfold signBit at *
  split <;> omega

@[simp] theorem negative_ofMagnitude (negative : Bool) {m : Nat} (hm : m < signBit) :
    (ofMagnitude negative m).negative = negative := by
  rw [Double.negative, ofMagnitude_bits negative hm]
  cases negative
  · simpa using hm
  · simp

theorem nearestMagnitude_lt (num : Nat) {den : Nat} (hden : 0 < den) :
    nearestMagnitude num den < signBit := by
  obtain ⟨m, -, hm⟩ := exists_nearest num hden
  have hinfinite : infiniteMagnitude < signBit := by decide
  rw [hm]
  omega

theorem ratio_natural {m k v : Nat} (hk : exponent m = k) (hv : value m = v) :
    ratio m = (v, 1) := by
  have hratio : ratio m = (significand m * Nat.pow 2 k, 1) := by
    unfold ratio
    rw [hk]
  rw [value, hk, zpow_natCast] at hv
  have hv : significand m * Nat.pow 2 k = v := by exact_mod_cast hv
  rw [hratio, hv]

theorem ofInt_eq_iff {i j : ℤ} :
    ofInt i = ofInt j ↔ (i < 0 ↔ j < 0) ∧
      nearestMagnitude i.natAbs 1 = nearestMagnitude j.natAbs 1 := by
  have hi := nearestMagnitude_lt i.natAbs Nat.one_pos
  have hj := nearestMagnitude_lt j.natAbs Nat.one_pos
  constructor
  · intro h
    have hnegative := congrArg Double.negative h
    have hmagnitude := congrArg magnitude h
    unfold ofInt ofRatio at hnegative hmagnitude
    rw [negative_ofMagnitude _ hi, negative_ofMagnitude _ hj, decide_eq_decide] at hnegative
    rw [magnitude_ofMagnitude _ hi, magnitude_ofMagnitude _ hj] at hmagnitude
    exact ⟨hnegative, hmagnitude⟩
  · rintro ⟨hsign, hmagnitude⟩
    unfold ofInt ofRatio
    rw [hmagnitude, decide_eq_decide.mpr hsign]

end Double

end Pagewright
