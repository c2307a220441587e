import Pagewright.Proofs.TextBytes

/-!
The order of texts. Characters of a greater number have greater bytes, whatever follows them, so texts
stand in the order of their bytes.
-/
namespace Pagewright

/-! ### Where two texts part -/

section Lists

variable {α : Type} [LT α] {a b : List α}

theorem parts_of_lt (h : a < b) :
    (∃ c rest, b = a ++ c :: rest) ∨
      ∃ common c d x y, a = common ++ c :: x ∧ b = common ++ d :: y ∧ c < d := by
  induction a generalizing b with
  | nil =>
    cases b with
    | nil => exact absurd h (List.not_lt_nil _)
    | cons c rest => exact .inl ⟨c, rest, rfl⟩
  | cons c x ih =>
    cases b with
    | nil => exact absurd h (List.not_lt_nil _)
    | cons d y =>
      obtain hcd | ⟨rfl, hxy⟩ := List.cons_lt_cons_iff.mp h
      · exact .inr ⟨[], c, d, x, y, rfl, rfl, hcd⟩
      · obtain ⟨e, rest, rfl⟩ | ⟨common, e, f, u, v, rfl, rfl, hef⟩ := ih hxy
        · exact .inl ⟨e, rest, rfl⟩
        · exact .inr ⟨c :: common, e, f, u, v, rfl, rfl, hef⟩

theorem lt_append_cons (a : List α) (c : α) (rest : List α) : a < a ++ c :: rest := by
  have h : a ++ [] < a ++ c :: rest := List.append_left_lt (List.nil_lt_cons c rest)
  rwa [List.append_nil] at h

theorem append_cons_lt {c d : α} (h : c < d) (common x y : List α) :
    common ++ c :: x < common ++ d :: y := by
  apply List.append_left_lt
  exact List.cons_lt_cons_iff.mpr (.inl h)

theorem append_lt_append_iff [Std.Irrefl (α := α) (· < ·)] (common : List α) :
    common ++ a < common ++ b ↔ a < b := by
  induction common with
  | nil => rfl
  | cons c common ih =>
    rw [List.cons_append, List.cons_append, List.cons_lt_cons_iff, ih]
    simp [Std.Irrefl.irrefl c]

end Lists

/-! ### Texts and their bytes -/

namespace Utf8

private theorem ofNat_cons_lt {a b : Nat} (ha : a < 256) (hb : b < 256) (u v : Bytes) :
    UInt8.ofNat a :: u < UInt8.ofNat b :: v ↔ a < b ∨ a = b ∧ u < v := by
  have heq : UInt8.ofNat a = UInt8.ofNat b ↔ a = b := by
    rw [← UInt8.toNat_inj, toNat_ofNat ha, toNat_ofNat hb]
  rw [List.cons_lt_cons_iff, UInt8.lt_iff_toNat_lt, toNat_ofNat ha, toNat_ofNat hb, heq]

private theorem encodeChar_append_lt {c d : Char} (h : c < d) (u v : Bytes) :
    String.utf8EncodeChar c ++ u < String.utf8EncodeChar d ++ v := by
  have hvalid : d.val.toNat < 0xd800 ∨ 0xdfff < d.val.toNat ∧ d.val.toNat < 0x110000 := d.valid
  have hlt : c.val.toNat < d.val.toNat := h
  rw [String.utf8EncodeChar, String.utf8EncodeChar]
  generalize c.val.toNat = m at hlt ⊢
  generalize d.val.toNat = n at hlt hvalid ⊢
  -- one step of six bits at a time, so that leading parts that are equal are equal terms
  have hhigh (k : Nat) : k / 262144 = k / 4096 / 64 := by omega
  have hmiddle (k : Nat) : k / 4096 = k / 64 / 64 := by omega
  repeat' split
  all_goals
    simp (disch := omega) only [List.cons_append, List.nil_append, ofNat_cons_lt, hhigh, hmiddle]
    omega

@[simp] theorem encode_append (a b : List Char) : encode (a ++ b) = encode a ++ encode b :=
  List.flatMap_append

@[simp] private theorem encode_ne_nil (c : Char) (cs : List Char) : encode (c :: cs) ≠ [] := by
  simp [encode]

theorem encode_lt_encode {a b : List Char} (h : a < b) : encode a < encode b := by
  obtain ⟨c, rest, rfl⟩ | ⟨common, c, d, x, y, rfl, rfl, hcd⟩ := parts_of_lt h
  · obtain ⟨byte, bytes, hbytes⟩ := List.exists_cons_of_ne_nil (encode_ne_nil c rest)
    rw [encode_append, hbytes]
    exact lt_append_cons _ _ _
  · rw [encode_append, encode_append]
    apply List.append_left_lt
    exact encodeChar_append_lt hcd (encode x) (encode y)

end Utf8

@[simp] theorem Bytes.ofText_lt_ofText {a b : String} :
    Bytes.ofText a < Bytes.ofText b ↔ a < b := by
  constructor
  · intro h
    obtain hlt | rfl | hgt := Std.lt_trichotomy a b
    · exact hlt
    · exact absurd h (List.lt_irrefl _)
    · exact absurd h (List.lt_asymm (Utf8.encode_lt_encode hgt))
  · exact Utf8.encode_lt_encode

@[simp] theorem Bytes.ofText_le_ofText {a b : String} :
    Bytes.ofText a ≤ Bytes.ofText b ↔ a ≤ b := by
  rw [← Std.not_lt, ← Std.not_lt, ofText_lt_ofText]

end Pagewright
