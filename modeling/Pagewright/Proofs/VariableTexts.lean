import Pagewright.Markup.ValueText
import Pagewright.Proofs.BoundVariables
import Pagewright.Proofs.ShortestDecimal

/-!
The texts of a page's variables in the markup. What fits into 64 bits with a sign comes through as it is
written; a greater integer becomes the double nearest to it, and comes out as the shortest decimal of that.
-/
namespace Pagewright

namespace Double

/-! ### The doubles from `2 ^ 63` to `2 ^ 64` -/

/-- A magnitude from that of `2 ^ 63` to that of `2 ^ 64`, and its value. -/
def Wide (m v : Nat) : Prop :=
  ∃ s, m = 1085 * leadingBit + s ∧ leadingBit ≤ s ∧ s ≤ 2 * leadingBit ∧ v = s * 2 ^ 11

namespace Wide

variable {m v : Nat}

theorem value_eq (h : Wide m v) : value m = v := by
  obtain ⟨s, rfl, hlow, hhigh, rfl⟩ := h
  rw [value_packed hhigh (.inr hlow)]
  push_cast
  norm_num

theorem bounds (h : Wide m v) : 2 ^ 63 ≤ v ∧ v ≤ 2 ^ 64 := by
  obtain ⟨s, rfl, hlow, hhigh, rfl⟩ := h
  unfold leadingBit at *
  omega

theorem le_edge (h : Wide m v) : (v : ℚ) + 1024 ≤ edge (m + 1) := by
  obtain ⟨s, rfl, hlow, hhigh, rfl⟩ := h
  refine le_trans (le_of_eq ?_) (le_edge_packed hhigh (.inr hlow))
  push_cast
  norm_num
  ring

theorem last : Wide (1085 * leadingBit + 2 * leadingBit) (2 ^ 64) :=
  ⟨2 * leadingBit, rfl, by decide, le_rfl, by decide⟩

theorem edge_le (h : Wide m v) : edge (m + 1) ≤ 2 ^ 64 + 2 ^ 12 := by
  obtain ⟨s, rfl, hlow, hhigh, rfl⟩ := h
  have hafter : value (1086 * leadingBit + (leadingBit + 1)) = 2 ^ 64 + 2 ^ 12 := by
    rw [value_packed (by decide) (.inr (by decide))]
    norm_num [leadingBit]
  have hle : 1085 * leadingBit + s + 1 ≤ 1086 * leadingBit + (leadingBit + 1) := by omega
  rw [← hafter]
  exact (edge_strictMono.monotone hle).trans (edge_le_value _)

theorem lt_infinite (h : Wide m v) : m < infiniteMagnitude ∧ m ≠ 0 := by
  obtain ⟨s, rfl, hlow, hhigh, rfl⟩ := h
  unfold infiniteMagnitude
  unfold leadingBit at *
  omega

theorem exists_exponent (h : Wide m v) : ∃ k : ℕ, exponent m = k + 11 := by
  obtain ⟨s, rfl, hlow, hhigh, rfl⟩ := h
  obtain hlt | rfl := Nat.lt_or_eq_of_le hhigh
  · exact ⟨0, by rw [(parts_packed hlt (.inr hlow)).2]; norm_num⟩
  · have hcarry : 1085 * leadingBit + 2 * leadingBit = 1086 * leadingBit + leadingBit := by omega
    exact ⟨1, by rw [hcarry, (parts_packed (by decide) (.inr le_rfl)).2]; norm_num⟩

theorem of_nearest {x : ℚ} (hm : Nearest m x) (hlow : 2 ^ 63 ≤ x) (hhigh : x ≤ 2 ^ 64) :
    ∃ v, Wide m v := by
  have hfirst : value (1085 * leadingBit + leadingBit) = 2 ^ 63 := by
    rw [value_packed (by decide) (.inr le_rfl)]
    norm_num [leadingBit]
  have hlast := last.value_eq
  have hnotbelow : ¬m < 1085 * leadingBit + leadingBit := by
    intro hlt
    have hedge : edge (m + 1) ≤ edge (1085 * leadingBit + leadingBit) := edge_strictMono.monotone hlt
    have hstrict := edge_lt_value_of_ne_zero (m := 1085 * leadingBit + leadingBit) (by decide)
    have := hm.high
    linarith
  have hnotabove : ¬1085 * leadingBit + 2 * leadingBit < m := by
    intro hlt
    have hedge : edge (1085 * leadingBit + 2 * leadingBit + 1) ≤ edge m := edge_strictMono.monotone hlt
    have hstrict := value_lt_edge (1085 * leadingBit + 2 * leadingBit)
    have := hm.low
    push_cast at hlast
    linarith
  exact ⟨_, m - 1085 * leadingBit, by omega, by omega, by omega, rfl⟩

theorem toInt?_eq (h : Wide m v) {d : Double} (hmagnitude : d.magnitude = m)
    (hnegative : d.negative = false) : d.toInt? = some (v : ℤ) := by
  obtain ⟨k, hk⟩ := h.exists_exponent
  have hfinite : d.isFinite = true := decide_eq_true (hmagnitude ▸ h.lt_infinite.1)
  rw [toInt?, if_pos hfinite, hmagnitude, ratio_natural (k := k + 11) (by rw [hk]; rfl) h.value_eq]
  simp [hnegative, Nat.mod_one]

theorem firstPlace_eq (h : Wide m v) :
    Decimal.firstPlace m = if 10 ^ 19 ≤ v then 19 else 18 := by
  obtain ⟨k, hk⟩ := h.exists_exponent
  have hden : (Decimal.Basin.of m).den = 1 := Decimal.Basin.of_den (k := k + 9) (by omega)
  have hnum : (Decimal.Basin.of m).num = v := by
    have hspan := (Decimal.Basin.of_spans m).num
    rw [hden, h.value_eq, Nat.cast_one, div_one] at hspan
    exact_mod_cast hspan
  obtain ⟨hlow, hhigh⟩ := h.bounds
  rw [Decimal.firstPlace, hden, hnum]
  obtain hlt | rfl := Nat.lt_or_eq_of_le hhigh
  · have hlog : v.log2 = 63 := (Nat.log2_eq_iff (by omega)).mpr ⟨hlow, hlt⟩
    have hguess : Int.fdiv (((63 : ℕ) - (Nat.log2 1 : ℕ) : ℤ) * 30103) 100000 = 18 := by decide
    unfold Decimal.leadingPlace
    rw [hlog, hguess]
    simp [Decimal.scaled]
    omega
  · decide +kernel

theorem ten_pow : Wide (1085 * leadingBit + 4882812500000000) (10 ^ 19) :=
  ⟨4882812500000000, rfl, by decide, by decide, by norm_num⟩

/-- What rounds to such a double has no more places than are searched: the powers of ten that could come
near it are another double or too large. -/
theorem not_nearest_beyond (h : Wide m v) {c place : ℕ} (hplace : Decimal.firstPlace m < place) :
    ¬Nearest m ((c * 10 ^ place : ℕ) : ℚ) := by
  intro hnear
  have hle : c * 10 ^ place ≤ 2 ^ 64 + 2 ^ 12 := by
    have hle := hnear.high.trans h.edge_le
    exact_mod_cast hle
  have hc : c ≠ 0 := by
    rintro rfl
    rw [Nat.zero_mul, Nat.cast_zero] at hnear
    exact absurd hnear (Nearest.not_zero h.lt_infinite.2)
  have hpos : 1 ≤ c := Nat.pos_of_ne_zero hc
  rw [h.firstPlace_eq] at hplace
  split at hplace
  · have hpow : 10 ^ 20 ≤ 10 ^ place := Nat.pow_le_pow_right (by decide) (by omega)
    have hmul : 10 ^ place ≤ c * 10 ^ place := Nat.le_mul_of_pos_left _ hpos
    omega
  · next hbelow =>
    obtain ⟨more, rfl⟩ : ∃ more, place = 19 + more := ⟨place - 19, by omega⟩
    have hsplit : c * 10 ^ (19 + more) = c * 10 ^ more * 10 ^ 19 := by ring
    have hpow : 1 ≤ c * 10 ^ more := Nat.mul_pos hpos (Nat.pow_pos (by decide))
    -- only `10 ^ 19` is small enough, and it is a double itself
    have hten : c * 10 ^ (19 + more) = 10 ^ 19 := by omega
    have hother : Nearest (1085 * leadingBit + 4882812500000000) ((10 ^ 19 : ℕ) : ℚ) :=
      ten_pow.value_eq ▸ .of_value _
    rw [hten] at hnear
    have hvalue := h.value_eq
    rw [hnear.unique hother, ten_pow.value_eq] at hvalue
    have hv : 10 ^ 19 = v := by exact_mod_cast hvalue
    exact hbelow hv.le

end Wide

end Double

namespace Decimal

open Double (value edge Nearest Wide)

variable {m v : Nat}

private theorem nearest_thousand (h : Wide m v) :
    Nearest m ((v / 1000 + 1 : ℕ) * 10 ^ (3 : ℤ)) := by
  have hcast : ((v / 1000 + 1 : ℕ) : ℚ) * 10 ^ (3 : ℤ) = ((v / 1000 + 1) * 1000 : ℕ) := by
    push_cast
    norm_num
  have hlow : v ≤ (v / 1000 + 1) * 1000 := by omega
  have hhigh : (v / 1000 + 1) * 1000 < v + 1024 := by omega
  rw [hcast]
  refine .of_lt ?_ (lt_of_lt_of_le ?_ h.le_edge)
  · rw [h.value_eq]
    exact_mod_cast hlow
  · exact_mod_cast hhigh

theorem shortest_wide (h : Wide m v) :
    ∃ n : ℕ, (shortest m).plain = intText n ∧ Nearest m n ∧
      (∀ x j : ℕ, Nearest m x → 10 ^ j ∣ x → 10 ^ j ∣ n) ∧
      ∀ x : ℕ, Nearest m x → (∀ j, 10 ^ j ∣ n → 10 ^ j ∣ x) →
        |(v : ℤ) - n| < |(v : ℤ) - x| ∨ |(v : ℤ) - n| = |(v : ℤ) - x| ∧ x ≤ n := by
  obtain ⟨p, hp, hplaces⟩ : ∃ p : ℕ, firstPlace m = p ∧ 3 ≤ p ∧ p < 20 := by
    rw [h.firstPlace_eq]
    split
    · exact ⟨19, rfl, by decide, by decide⟩
    · exact ⟨18, rfl, by decide, by decide⟩
  have hthousand : firstPlace m - (p - 3 : ℕ) = 3 := by omega
  obtain ⟨d, j, hj, hshortest, hchosen, hbefore⟩ :=
    shortest_spec h.lt_infinite.2 (n := p - 3) (by omega) (hthousand ▸ nearest_thousand h)
  have hplace : firstPlace m - j = (p - j : ℕ) := by omega
  rw [hplace] at hchosen
  generalize p - j = e at hplace hchosen
  have hcast (c k : ℕ) : ((c * 10 ^ k : ℕ) : ℚ) = c * 10 ^ (k : ℤ) := by
    rw [zpow_natCast]
    push_cast
    rfl
  have hnear : Nearest m ((d.digits * 10 ^ e : ℕ) : ℚ) := by
    have hnear := hchosen.nearest
    rwa [amount, hchosen.exponent, ← hcast] at hnear
  have hdigits : d.digits ≠ 0 := by
    intro hzero
    rw [hzero, Nat.zero_mul, Nat.cast_zero] at hnear
    exact absurd hnear (Nearest.not_zero h.lt_infinite.2)
  refine ⟨d.digits * 10 ^ e, ?_, hnear, ?_, ?_⟩
  · rw [hshortest]
    exact plain_trimmed_natural hchosen.exponent hdigits 17
  · rintro x j' hx ⟨c, rfl⟩
    rw [Nat.mul_comm] at hx
    obtain hcoarse | hfine := Nat.lt_or_ge e j'
    · exfalso
      obtain hbeyond | hwithin := Nat.lt_or_ge p j'
      · exact h.not_nearest_beyond (by omega) hx
      · rw [hcast] at hx
        refine hbefore (p - j') (by omega) c ?_
        rwa [show firstPlace m - (p - j' : ℕ) = j' by omega]
    · exact (Nat.pow_dvd_pow 10 hfine).mul_left _
  · intro x hx hzeros
    obtain ⟨c, rfl⟩ := hzeros e (Nat.dvd_mul_left _ _)
    rw [Nat.mul_comm, hcast] at hx
    have hpreferred := hchosen.preferred c hx
    rw [Preferred, h.value_eq, ← hcast, ← hcast] at hpreferred
    rw [Nat.mul_comm (10 ^ e) c]
    refine hpreferred.imp (fun hlt => ?_) fun hequal => ⟨?_, Nat.mul_le_mul_right _ hequal.2⟩
    · exact_mod_cast hlt
    · exact_mod_cast hequal.1

end Decimal

namespace Page

open Script (Value Store)
open Markup (valueText? numberText)
open Double (Nearest Wide)

/-- An integer that stands for the double of another one: of the integers with this double it ends in the
most zeros, and of those that end in as many it is nearest to the double, or the greater of two. -/
structure StandsFor (n i : ℤ) : Prop where
  same : Double.ofInt n = .ofInt i
  zeros : ∀ (x : ℤ) (j : ℕ), Double.ofInt x = .ofInt i → 10 ^ j ∣ x → 10 ^ j ∣ n
  nearest : ∃ v, (Double.ofInt i).toInt? = some v ∧
    ∀ x, Double.ofInt x = .ofInt i → (∀ j : ℕ, (10 : ℤ) ^ j ∣ n → 10 ^ j ∣ x) →
      |v - n| < |v - x| ∨ |v - n| = |v - x| ∧ x ≤ n

theorem StandsFor.unique {n n' i : ℤ} (h : StandsFor n i) (h' : StandsFor n' i) : n = n' := by
  obtain ⟨v, hv, hnearest⟩ := h.nearest
  obtain ⟨v', hv', hnearest'⟩ := h'.nearest
  obtain rfl : v = v' := Option.some.inj (hv.symm.trans hv')
  have hn := hnearest n' h'.same fun j hj => h'.zeros n j h.same hj
  have hn' := hnearest' n h.same fun j hj => h.zeros n' j h'.same hj
  omega

/-! ### Integers without a sign -/

variable {i : ℤ}

private theorem exists_wide (hlow : 2 ^ 63 ≤ i) (hhigh : i < 2 ^ 64) :
    ∃ m v, Wide m v ∧ Double.nearestMagnitude i.natAbs 1 = m := by
  obtain ⟨m, hnear, hm⟩ := Double.exists_nearest i.natAbs Nat.one_pos
  rw [Nat.cast_one, div_one] at hnear
  have hlow' : 2 ^ 63 ≤ i.natAbs := by omega
  have hhigh' : i.natAbs ≤ 2 ^ 64 := by omega
  obtain ⟨v, hwide⟩ := Wide.of_nearest hnear (by exact_mod_cast hlow') (by exact_mod_cast hhigh')
  exact ⟨m, v, hwide, hm.trans (Nat.min_eq_left hwide.lt_infinite.1.le)⟩

private theorem ofInt_eq_wide {m v : ℕ} (hwide : Wide m v) (hi : 0 ≤ i)
    (hm : Double.nearestMagnitude i.natAbs 1 = m) {x : ℤ} :
    Double.ofInt x = .ofInt i ↔ ∃ n : ℕ, x = n ∧ Nearest m n := by
  have hnearest (n : ℕ) : Double.nearestMagnitude n 1 = m ↔ Nearest m n := by
    rw [Double.nearestMagnitude_eq_iff Nat.one_pos hwide.lt_infinite.1, Nat.cast_one, div_one]
  rw [Double.ofInt_eq_iff, hm, hnearest]
  constructor
  · rintro ⟨hsign, hnear⟩
    exact ⟨x.natAbs, by omega, hnear⟩
  · rintro ⟨n, rfl, hnear⟩
    exact ⟨by omega, hnear⟩

private theorem numberText_wide (hlow : 2 ^ 63 ≤ i) (hhigh : i < 2 ^ 64) :
    ∃ n, StandsFor n i ∧ numberText (.ofInt i) = Decimal.intText n := by
  obtain ⟨m, v, hwide, hm⟩ := exists_wide hlow hhigh
  have hsame {x : ℤ} := ofInt_eq_wide (x := x) hwide (by omega) hm
  obtain ⟨n, htext, hnear, hzeros, hnearest⟩ := Decimal.shortest_wide hwide
  have hsmall := Double.nearestMagnitude_lt i.natAbs Nat.one_pos
  have hmagnitude : (Double.ofInt i).magnitude = m :=
    (Double.magnitude_ofMagnitude _ hsmall).trans hm
  have hnegative : (Double.ofInt i).negative = false :=
    (Double.negative_ofMagnitude _ hsmall).trans (decide_eq_false (by omega))
  have htoInt := hwide.toInt?_eq hmagnitude hnegative
  refine ⟨n, ⟨hsame.mpr ⟨n, rfl, hnear⟩, ?_, v, htoInt, ?_⟩, ?_⟩
  · intro x j hx hdvd
    obtain ⟨x, rfl, hnear⟩ := hsame.mp hx
    exact_mod_cast hzeros x j hnear (by exact_mod_cast hdvd)
  · intro x hx hdvd
    obtain ⟨x, rfl, hnear⟩ := hsame.mp hx
    have h := hnearest x hnear fun j hj => by
      exact_mod_cast hdvd j (by exact_mod_cast hj)
    exact_mod_cast h
  · obtain ⟨hfinite, -⟩ := hwide.lt_infinite
    have hnan : (Double.ofInt i).isNaN = false := by
      rw [Double.isNaN, hmagnitude]
      exact decide_eq_false (by omega)
    have hinfinite : (Double.ofInt i).isInfinite = false := by
      rw [Double.isInfinite, hmagnitude]
      exact beq_eq_false_iff_ne.mpr hfinite.ne
    have hbig : ¬v < Markup.greatestInteger := by
      have hbound := hwide.bounds.1
      unfold Markup.greatestInteger
      omega
    rw [numberText, hnan, hinfinite, htoInt, hnegative, hmagnitude]
    simp only [Bool.false_eq_true, if_false, Int.natAbs_natCast, if_neg hbig, String.empty_append,
      htext]

namespace Variables

private theorem isSupported_of_isScalar {v : Json} (hv : isScalar v = true) :
    isSupported v = true := by
  cases v with
  | array items => rfl
  | _ => exact hv

/-- Integers, strings and booleans come through the table of variables into the markup. Strings and
booleans are as they were, integers of 64 bits with a sign have the same digits, and a greater integer
comes out as the one that stands for its double. -/
theorem bind_texts (vars : Variables) (hnames : (vars.map Prod.fst).Nodup) (s : Store) :
    ∃ (r : Nat) (s' : Store), vars.bind s = .ok (.table r) s' ∧ ∀ key v, (key, v) ∈ vars →
      let text := valueText? ((s'.heap.table r).get (.ofText key))
      (∀ t, v = .string t → text = some t) ∧
      (∀ b, v = .boolean b → text = some (if b then "true" else "false")) ∧
      ∀ i, v = .number (.integer i) →
        (-2 ^ 63 ≤ i → i < 2 ^ 63 → text = some (Decimal.intText i)) ∧
        (2 ^ 63 ≤ i → i < 2 ^ 64 →
          (∃ n, StandsFor n i) ∧ ∀ n, StandsFor n i → text = some (Decimal.intText n)) := by
  obtain ⟨s', hbind, -, htable, hmade, -⟩ := bind_eq vars s
  refine ⟨_, s', hbind, fun key v hmem => ?_⟩
  have hconverts {v : Json} (hmem : (key, v) ∈ vars) (hv : isScalar v = true) :
      Converts v ((s'.heap.table s.heap.tables.size).get (.ofText key)) := by
    have hbound := fill_fields_bound hnames hmade hmem (isSupported_of_isScalar hv)
    rw [← htable] at hbound
    generalize (s'.heap.table _).get _ = value at hbound ⊢
    cases hbound with
    | scalar hconverts => exact hconverts
    | list _ _ => cases hv
  refine ⟨?_, ?_, ?_⟩
  · rintro t rfl
    obtain hvalue := hconverts hmem rfl
    generalize (s'.heap.table _).get _ = value at hvalue ⊢
    cases hvalue with
    | string => exact congrArg some (Bytes.toText_ofText t)
  · rintro b rfl
    obtain hvalue := hconverts hmem rfl
    generalize (s'.heap.table _).get _ = value at hvalue ⊢
    cases hvalue with
    | boolean => rfl
  · rintro i rfl
    obtain hvalue := hconverts hmem rfl
    generalize (s'.heap.table _).get _ = value at hvalue ⊢
    cases hvalue with
    | integer hlow hhigh =>
      refine ⟨fun _ _ => ?_, fun _ _ => by omega⟩
      rw [valueText?, Int64.toInt_ofInt_of_le hlow hhigh]
    | wide hrange =>
      refine ⟨fun _ _ => by omega, fun hlow hhigh => ?_⟩
      obtain ⟨n, hn, htext⟩ := numberText_wide hlow hhigh
      refine ⟨⟨n, hn⟩, fun n' hn' => ?_⟩
      rw [hn'.unique hn]
      exact congrArg some htext

/-- A string, an identifier beyond the integers that doubles hold, and the first integer that has no sign. -/
theorem bind_texts_identifier :
    let vars : Variables := [("id", .number (.integer (2 ^ 53 + 1))), ("name", .string "a"),
      ("size", .number (.integer (2 ^ 63)))]
    (vars.map Prod.fst).Nodup ∧ ∃ (r : Nat) (s' : Store), bind vars default = .ok (.table r) s' ∧
      valueText? ((s'.heap.table r).get (.ofText "id")) = some "9007199254740993" ∧
      valueText? ((s'.heap.table r).get (.ofText "name")) = some "a" ∧
      ∃ n, StandsFor n (2 ^ 63) ∧
        valueText? ((s'.heap.table r).get (.ofText "size")) = some (Decimal.intText n) := by
  intro vars
  have hnames : (vars.map Prod.fst).Nodup := by decide
  obtain ⟨r, s', hbind, htexts⟩ := bind_texts vars hnames default
  have hid := ((htexts "id" _ (by simp [vars])).2.2 (2 ^ 53 + 1) rfl).1 (by norm_num) (by norm_num)
  have hname := (htexts "name" (.string "a") (by simp [vars])).1 "a" rfl
  obtain ⟨⟨n, hn⟩, hsize⟩ :=
    ((htexts "size" _ (by simp [vars])).2.2 (2 ^ 63) rfl).2 (by norm_num) (by norm_num)
  exact ⟨hnames, r, s', hbind, hid.trans (by decide), hname, n, hn, hsize n hn⟩

/-- The greatest integer of 64 bits has no sign, and comes out with other digits. -/
theorem greatest_integer_rounded :
    ∃ (r : Nat) (s' : Store),
      bind [("n", .number (.integer (2 ^ 64 - 1)))] default = .ok (.table r) s' ∧
      valueText? ((s'.heap.table r).get (.ofText "n")) = some "18446744073709552000" ∧
      valueText? ((s'.heap.table r).get (.ofText "n")) ≠ some (Decimal.intText (2 ^ 64 - 1)) := by
  refine ⟨0, _, rfl, ?_, ?_⟩
  · decide +kernel
  · decide +kernel

end Variables

end Page

end Pagewright
