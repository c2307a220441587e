import Pagewright.Text.Utf8

/-!
Reading back what was written: the bytes of a text are read as that text again.
-/
namespace Pagewright

namespace Utf8

@[simp] theorem toNat_ofNat {n : Nat} (h : n < 256) : (UInt8.ofNat n).toNat = n := by
  simpa using Nat.mod_eq_of_lt h

/-! ### The first byte of a character -/

private theorem lead_one {v : Nat} (h : v ≤ 127) :
    lead (UInt8.ofNat v) = .ascii (Char.ofNat v) := by
  have hlt : v < 0x80 := by omega
  simp only [lead, toNat_ofNat (show v < 256 by omega), if_pos hlt]

theorem lead_two {a : Nat} (h : 2 ≤ a) (h' : a < 32) :
    lead (UInt8.ofNat (a + 192)) = .opens ⟨1, a, 0x80, 0xbf⟩ := by
  simp only [lead, toNat_ofNat (show a + 192 < 256 by omega)]
  grind

theorem lead_three {a : Nat} (h : a < 16) :
    lead (UInt8.ofNat (a + 224)) =
      .opens ⟨2, a, if a = 0 then 0xa0 else 0x80, if a = 13 then 0x9f else 0xbf⟩ := by
  simp only [lead, toNat_ofNat (show a + 224 < 256 by omega)]
  grind

theorem lead_four {a : Nat} (h : a ≤ 4) :
    lead (UInt8.ofNat (a + 240)) =
      .opens ⟨3, a, if a = 0 then 0x90 else 0x80, if a = 4 then 0x8f else 0xbf⟩ := by
  simp only [lead, toNat_ofNat (show a + 240 < 256 by omega)]
  grind

namespace Reader

theorem next_lead {read : List Char} {broken : Bool} {b : UInt8} {p : Pending}
    (hb : lead b = .opens p) : next ⟨none, read, broken⟩ b = ⟨some p, read, broken⟩ := by
  simp only [next, start, hb]

theorem next_inner {read : List Char} {broken : Bool} {p : Pending} {t : Nat} (ht : t < 64)
    (howed : p.owed ≠ 1) (hlow : p.low ≤ t + 128) (hhigh : t + 128 ≤ p.high) :
    next ⟨some p, read, broken⟩ (UInt8.ofNat (t + 128)) =
      ⟨some ⟨p.owed - 1, p.bits * 64 + t, 0x80, 0xbf⟩, read, broken⟩ := by
  simp only [next, toNat_ofNat (show t + 128 < 256 by omega)]
  rw [if_pos ⟨hlow, hhigh⟩, if_neg howed, Nat.add_sub_cancel]

theorem next_last {read : List Char} {broken : Bool} {p : Pending} {t : Nat} (ht : t < 64)
    (howed : p.owed = 1) (hlow : p.low ≤ t + 128) (hhigh : t + 128 ≤ p.high) :
    next ⟨some p, read, broken⟩ (UInt8.ofNat (t + 128)) =
      ⟨none, Char.ofNat (p.bits * 64 + t) :: read, broken⟩ := by
  simp only [next, toNat_ofNat (show t + 128 < 256 by omega)]
  rw [if_pos ⟨hlow, hhigh⟩, if_pos howed, Nat.add_sub_cancel]

variable (read : List Char) (broken : Bool) {v : Nat}

private theorem foldl_two (h : 127 < v) (h' : v ≤ 2047) :
    [UInt8.ofNat (v / 64 % 32 + 192), UInt8.ofNat (v % 64 + 128)].foldl next ⟨none, read, broken⟩ =
      ⟨none, Char.ofNat v :: read, broken⟩ := by
  have hbits : v / 64 % 32 * 64 + v % 64 = v := by omega
  simp only [List.foldl_cons, List.foldl_nil]
  rw [next_lead (lead_two (by omega) (by omega)),
    next_last (by omega) rfl (by simp only; omega) (by simp only; omega), hbits]

/-- The second byte keeps clear of the overlong forms and of the surrogates. -/
theorem foldl_three (h : 2047 < v) (h' : v ≤ 65535) (hvalid : v < 0xd800 ∨ 0xdfff < v) :
    [UInt8.ofNat (v / 4096 % 16 + 224), UInt8.ofNat (v / 64 % 64 + 128),
        UInt8.ofNat (v % 64 + 128)].foldl next ⟨none, read, broken⟩ =
      ⟨none, Char.ofNat v :: read, broken⟩ := by
  have hbits : (v / 4096 % 16 * 64 + v / 64 % 64) * 64 + v % 64 = v := by omega
  have hlow : (if v / 4096 % 16 = 0 then 0xa0 else 0x80) ≤ v / 64 % 64 + 128 := by
    split <;> omega
  have hhigh : v / 64 % 64 + 128 ≤ if v / 4096 % 16 = 13 then 0x9f else 0xbf := by
    split <;> omega
  simp only [List.foldl_cons, List.foldl_nil]
  rw [next_lead (lead_three (by omega)), next_inner (by omega) (by simp) hlow hhigh,
    next_last (by omega) rfl (by simp only; omega) (by simp only; omega), hbits]

private theorem foldl_four (h : 65535 < v) (h' : v < 0x110000) :
    [UInt8.ofNat (v / 262144 % 8 + 240), UInt8.ofNat (v / 4096 % 64 + 128),
        UInt8.ofNat (v / 64 % 64 + 128), UInt8.ofNat (v % 64 + 128)].foldl next
          ⟨none, read, broken⟩ =
      ⟨none, Char.ofNat v :: read, broken⟩ := by
  have hbits : ((v / 262144 % 8 * 64 + v / 4096 % 64) * 64 + v / 64 % 64) * 64 + v % 64 = v := by
    omega
  have hlow : (if v / 262144 % 8 = 0 then 0x90 else 0x80) ≤ v / 4096 % 64 + 128 := by
    split <;> omega
  have hhigh : v / 4096 % 64 + 128 ≤ if v / 262144 % 8 = 4 then 0x8f else 0xbf := by
    split <;> omega
  simp only [List.foldl_cons, List.foldl_nil]
  rw [next_lead (lead_four (by omega)), next_inner (by omega) (by simp) hlow hhigh,
    next_inner (by omega) (by simp) (by simp only; omega) (by simp only; omega),
    next_last (by omega) rfl (by simp only; omega) (by simp only; omega), hbits]

@[simp] theorem foldl_encodeChar (c : Char) :
    (String.utf8EncodeChar c).foldl next ⟨none, read, broken⟩ = ⟨none, c :: read, broken⟩ := by
  have hvalid : c.val.toNat < 0xd800 ∨ 0xdfff < c.val.toNat ∧ c.val.toNat < 0x110000 := c.valid
  have hread : Char.ofNat c.val.toNat = c := Char.ofNat_toNat c
  rw [String.utf8EncodeChar]
  generalize c.val.toNat = v at hvalid hread ⊢
  rw [← hread]
  -- one case for each number of bytes
  split
  · rename_i hone
    simp only [List.foldl_cons, List.foldl_nil, next, start, lead_one hone]
  · split
    · exact foldl_two read broken (by omega) (by omega)
    · split
      · exact foldl_three read broken (by omega) (by omega) (by omega)
      · exact foldl_four read broken (by omega) (by omega)

end Reader

theorem foldl_encode (cs : List Char) (r : Reader) (hr : r.pending = none) :
    (encode cs).foldl Reader.next r = { r with read := cs.reverse ++ r.read } := by
  induction cs generalizing r with
  | nil => rfl
  | cons c cs ih =>
    obtain ⟨pending, read, broken⟩ := r
    cases hr
    have hread := ih ⟨none, c :: read, broken⟩ rfl
    rw [encode] at hread ⊢
    rw [List.flatMap_cons, List.foldl_append, Reader.foldl_encodeChar, hread]
    simp

@[simp] theorem scan_encode (cs : List Char) : scan (encode cs) = ⟨none, cs.reverse, false⟩ := by
  rw [scan, foldl_encode cs {} rfl]
  simp [Reader.finish]

@[simp] theorem decode_encode (cs : List Char) : decode (encode cs) = cs := by
  rw [decode, scan_encode, List.reverse_reverse]

end Utf8

@[simp] theorem Bytes.toText_ofText (s : String) : Bytes.toText (Bytes.ofText s) = s := by
  rw [toText, ofText, Utf8.decode_encode, String.ofList_toList]

end Pagewright
