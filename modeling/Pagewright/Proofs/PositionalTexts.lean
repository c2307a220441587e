import Pagewright.Proofs.ShortestDecimal

/-!
Numbers written out: digits, perhaps a point and further digits, and perhaps a minus sign in front. What is
written stands for one number, and decimals and integers are written in this way.
-/
namespace Pagewright

structure IsDigits (cs : List Char) : Prop where
  nonempty : cs ≠ []
  digits : ∀ c ∈ cs, c.isDigit = true

def digitsValue (cs : List Char) : Nat := Nat.ofDigitChars 10 cs 0

/-- A number as it is written out, without an exponent. -/
@[ext]
structure Positional where
  negative : Bool
  whole : List Char
  /-- The digits behind the point, if there is one. -/
  fraction : Option (List Char)
  whole_digits : IsDigits whole
  fraction_digits : ∀ cs ∈ fraction, IsDigits cs

namespace Positional

def tail (n : Positional) : List Char := n.fraction.elim [] ('.' :: ·)

def chars (n : Positional) : List Char :=
  if n.negative then '-' :: (n.whole ++ n.tail) else n.whole ++ n.tail

def text (n : Positional) : String := String.ofList n.chars

def size (n : Positional) : ℚ :=
  digitsValue n.whole + digitsValue (n.fraction.getD []) / 10 ^ (n.fraction.getD []).length

def value (n : Positional) : ℚ := if n.negative then -n.size else n.size

/-! ### One reading -/

@[simp] theorem takeWhile_isDigit (n : Positional) :
    (n.whole ++ n.tail).takeWhile Char.isDigit = n.whole := by
  have htail : n.tail.takeWhile Char.isDigit = [] := by
    unfold tail
    cases n.fraction <;> rfl
  rw [List.takeWhile_append_of_pos n.whole_digits.digits, htail, List.append_nil]

@[simp] theorem whole_head_ne (n : Positional) (cs : List Char) :
    n.whole ++ n.tail ≠ '-' :: cs := by
  intro hchars
  have hwhole := n.takeWhile_isDigit
  rw [hchars] at hwhole
  exact n.whole_digits.nonempty hwhole.symm

private theorem negative_eq {n n' : Positional} (h : n.chars = n'.chars) :
    n.negative = n'.negative := by
  unfold chars at h
  cases hn : n.negative <;> cases hn' : n'.negative
  case false.true =>
    rw [hn, hn'] at h
    exact absurd h (n.whole_head_ne _)
  case true.false =>
    rw [hn, hn'] at h
    exact absurd h.symm (n'.whole_head_ne _)
  all_goals rfl

/-- What is written can be read in one way only. -/
theorem text_injective {n n' : Positional} (h : n.text = n'.text) : n = n' := by
  have hchars : n.chars = n'.chars := String.ofList_injective h
  have hnegative := negative_eq hchars
  have hparts : n.whole ++ n.tail = n'.whole ++ n'.tail := by
    unfold chars at hchars
    rw [hnegative] at hchars
    split at hchars
    · exact List.tail_eq_of_cons_eq hchars
    · exact hchars
  have hwhole : n.whole = n'.whole := by
    rw [← n.takeWhile_isDigit, hparts, n'.takeWhile_isDigit]
  have htail : n.tail = n'.tail := by
    rw [hwhole] at hparts
    exact List.append_cancel_left hparts
  have hfraction : n.fraction = n'.fraction := by
    unfold tail at htail
    cases hn : n.fraction <;> cases hn' : n'.fraction <;> rw [hn, hn'] at htail <;> simp_all
  exact Positional.ext hnegative hwhole hfraction

end Positional

/-! ### Decimals and integers -/

namespace Decimal

@[simp] theorem isDigits_digitChars (n : Nat) : IsDigits (digitChars n) :=
  ⟨Nat.toDigits_ne_nil, fun _ => Nat.isDigit_of_mem_toDigits (by decide) (by decide)⟩

@[simp] theorem digitsValue_digitChars (n : Nat) : digitsValue (digitChars n) = n :=
  Nat.ofDigitChars_ten_toDigits

@[simp] theorem digitsValue_append (cs cs' : List Char) :
    digitsValue (cs ++ cs') = digitsValue cs * 10 ^ cs'.length + digitsValue cs' := by
  rw [digitsValue, Nat.ofDigitChars_append, Nat.ofDigitChars_eq_ofDigitChars_zero, mul_comm]
  rfl

@[simp] private theorem digitsValue_zeros (n : Nat) : digitsValue (List.replicate n '0') = 0 := by
  rw [digitsValue, Nat.ofDigitChars_replicate_zero, mul_zero]

@[simp] private theorem digitsValue_nil : digitsValue [] = 0 := rfl

def positional (negative : Bool) (n : Nat) : Positional where
  negative := negative
  whole := digitChars n
  fraction := none
  whole_digits := isDigits_digitChars n
  fraction_digits := fun _ h => nomatch h

@[simp] theorem intText_natCast (n : Nat) : intText n = String.ofList (digitChars n) := by
  unfold intText
  dsimp only
  rw [if_neg (not_lt.mpr (Int.natCast_nonneg n)), Int.natAbs_natCast]

@[simp] theorem positional_text (negative : Bool) (n : Nat) :
    (positional negative n).text = (if negative then "-" else "") ++ intText n := by
  rw [intText_natCast]
  apply String.toList_injective
  cases negative <;> simp [Positional.text, Positional.chars, Positional.tail, positional]

@[simp] theorem positional_value (negative : Bool) (n : Nat) :
    (positional negative n).value = if negative then -(n : ℚ) else n := by
  have hsize : (positional negative n).size = n := by
    unfold Positional.size positional
    simp
  rw [Positional.value, hsize]
  rfl

theorem intText_neg {n : Nat} (hn : n ≠ 0) : intText (-(n : ℤ)) = "-" ++ intText n := by
  rw [intText_natCast, intText, if_pos (by omega), Int.natAbs_neg, Int.natAbs_natCast]
  apply String.toList_injective
  simp

theorem exists_intText (i : ℤ) : ∃ n : Positional, n.text = intText i ∧ n.value = i := by
  cases i with
  | ofNat n =>
    refine ⟨positional false n, ?_, ?_⟩
    · rw [positional_text]
      exact String.empty_append
    · rw [positional_value]
      rfl
  | negSucc n =>
    refine ⟨positional true (n + 1), ?_, ?_⟩
    · rw [positional_text, Int.negSucc_eq]
      exact (intText_neg (Nat.succ_ne_zero n)).symm
    · rw [positional_value, Int.cast_negSucc]
      rfl

def parted (negative : Bool) {cs : List Char} (h : IsDigits cs) {places : Nat} (hpos : 0 < places)
    (hlt : places < cs.length) : Positional where
  negative := negative
  whole := cs.take (cs.length - places)
  fraction := some (cs.drop (cs.length - places))
  whole_digits := by
    refine ⟨?_, fun c hc => h.digits c (List.mem_of_mem_take hc)⟩
    rw [← List.length_pos_iff, List.length_take]
    omega
  fraction_digits := by
    intro fraction hfraction
    obtain rfl := Option.some.inj hfraction
    refine ⟨?_, fun c hc => h.digits c (List.mem_of_mem_drop hc)⟩
    rw [← List.length_pos_iff, List.length_drop]
    omega

private theorem parted_value (negative : Bool) {cs : List Char} (h : IsDigits cs) {places : Nat}
    (hpos : 0 < places) (hlt : places < cs.length) :
    (parted negative h hpos hlt).value =
      if negative then -(digitsValue cs / 10 ^ places : ℚ) else digitsValue cs / 10 ^ places := by
  have hlength : (cs.drop (cs.length - places)).length = places := by
    rw [List.length_drop]
    omega
  have hwhole := digitsValue_append (cs.take (cs.length - places)) (cs.drop (cs.length - places))
  rw [List.take_append_drop, hlength] at hwhole
  have hsize : (parted negative h hpos hlt).size = digitsValue cs / 10 ^ places := by
    rw [hwhole]
    unfold Positional.size parted
    rw [Option.getD_some, hlength]
    push_cast
    field_simp
  rw [Positional.value, hsize]
  rfl

theorem exists_positional (negative : Bool) (d : Decimal) :
    ∃ n : Positional, n.text = (if negative then "-" else "") ++ d.plain ∧
      n.value = if negative then -d.amount else d.amount := by
  cases hexponent : d.exponent with
  | ofNat k =>
    refine ⟨positional negative (d.digits * 10 ^ k), ?_, ?_⟩
    · have hplain : d.plain = intText ((d.digits * 10 ^ k : ℕ) : ℤ) := by
        by_cases hzero : d.digits = 0
        · unfold plain
          rw [hexponent, intText_natCast, hzero, Nat.zero_mul]
          rfl
        · exact plain_natural hexponent hzero
      rw [positional_text, hplain]
    · rw [positional_value, amount, hexponent]
      push_cast
      rfl
  | negSucc k =>
    have hdigits : IsDigits (List.replicate (k + 1 + 1 - (digitChars d.digits).length) '0' ++
        digitChars d.digits) := by
      refine ⟨by simp [(isDigits_digitChars d.digits).nonempty], fun c hc => ?_⟩
      obtain hzero | hc := List.mem_append.mp hc
      · rw [List.eq_of_mem_replicate hzero]
        decide
      · exact (isDigits_digitChars d.digits).digits c hc
    have hlength : k + 1 < (List.replicate (k + 1 + 1 - (digitChars d.digits).length) '0' ++
        digitChars d.digits).length := by
      rw [List.length_append, List.length_replicate]
      omega
    refine ⟨parted negative hdigits (Nat.succ_pos k) hlength, ?_, ?_⟩
    · unfold plain
      rw [hexponent]
      apply String.toList_injective
      cases negative <;> simp [Positional.text, Positional.chars, Positional.tail, parted]
    · rw [parted_value, digitsValue_append, digitsValue_zeros, Nat.zero_mul, Nat.zero_add,
        digitsValue_digitChars, amount, hexponent, zpow_negSucc, ← div_eq_mul_inv]

end Decimal

end Pagewright
