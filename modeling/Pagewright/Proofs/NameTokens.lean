import Pagewright.Proofs.ComponentSpecs
import Pagewright.Proofs.TextBytes
import Pagewright.Script.Chunk

/-! Identifiers as tokens, and the scripts that consist of one: a word that is not reserved is a
name, and what `compile` makes of it with `return` before it. -/
namespace Pagewright.Script

open Server (IsIdentifier isIdentifierChar)

namespace Token

variable {b : UInt8} {w rest : Bytes} {c : Char} {cs : List Char}

/-! ### Words -/

def IsWord : Bytes → Prop
  | [] => False
  | b :: w => isNameStart b ∧ ∀ c ∈ w, isNamePart c

private theorem skipBlanks_of_isNameStart (h : isNameStart b) (line : Nat) (rest : Bytes) :
    skipBlanks line (b :: rest) = (line, b :: rest) := by
  have hline : b ≠ 10 ∧ b ≠ 13 ∧ isSpace b = false := by
    simp only [isNameStart, isLetter, Bool.or_eq_true, Bool.and_eq_true, decide_eq_true_eq,
      UInt8.le_iff_toNat_le, ← UInt8.toNat_inj, isSpace, Bool.or_eq_false_iff,
      Bool.and_eq_false_iff, decide_eq_false_iff_not, ne_eq] at h ⊢
    simp only [UInt8.reduceToNat] at h ⊢
    omega
  obtain ⟨hfeed, hreturn, hspace⟩ := hline
  unfold skipBlanks
  split <;> simp_all

theorem scanFrom_word (hw : IsWord w) (hrest : ∀ c ∈ rest.head?, ¬isNamePart c) (fuel line : Nat)
    (out : List Lexeme) :
    scanFrom (fuel + 1) line out (w ++ rest) = scanFrom fuel line (⟨word w, line⟩ :: out) rest := by
  cases w with
  | nil => exact absurd hw id
  | cons b w =>
    obtain ⟨hfirst, hpart⟩ := hw
    have hall : ∀ c ∈ b :: w, isNamePart c :=
      List.forall_mem_cons.mpr ⟨Bool.or_eq_true_iff.mpr (.inl hfirst), hpart⟩
    have htake : (b :: w ++ rest).takeWhile isNamePart = b :: w := by
      rw [List.takeWhile_append_of_pos hall]
      cases rest with
      | nil => simp
      | cons c rest => simp [hrest c rfl]
    have hdrop : (b :: w ++ rest).dropWhile isNamePart = rest := by
      rw [List.dropWhile_append_of_pos hall]
      cases rest with
      | nil => rfl
      | cons c rest => exact List.dropWhile_cons_of_neg (hrest c rfl)
    have hone : one line (b :: w ++ rest) = .ok (⟨word (b :: w), line⟩, rest) := by
      rw [List.cons_append, one, if_pos hfirst, ← List.cons_append, htake, hdrop]
    have hdash : b ≠ 45 := by
      rintro rfl
      exact absurd hfirst (by decide)
    rw [scanFrom, List.cons_append, skipBlanks_of_isNameStart hfirst]
    rw [List.cons_append] at hone
    dsimp only
    split
    · next heq => exact absurd heq (List.cons_ne_nil _ _)
    · next heq => exact absurd (List.cons.inj heq).1 hdash
    · rw [hone]

@[simp] theorem scanFrom_nil (fuel line : Nat) (out : List Lexeme) :
    scanFrom fuel line out [] = .ok (out.reverse, line) := by
  cases fuel <;> rfl

@[simp] theorem scan_word (hw : IsWord w) : scan w = .ok ([⟨word w, 1⟩], 1) := by
  have hscan : scanFrom (w.length + 1) 1 [] (w ++ []) = _ := scanFrom_word hw (by simp) _ _ _
  rw [List.append_nil, scanFrom_nil] at hscan
  exact hscan

@[simp] private theorem scanFrom_space (fuel line : Nat) (out : List Lexeme) (bs : Bytes) :
    scanFrom (fuel + 1) line out (32 :: bs) = scanFrom (fuel + 1) line out bs := by
  have hskip : skipBlanks line (32 :: bs) = skipBlanks line bs := by rfl
  rw [scanFrom, hskip, scanFrom]

@[simp] theorem scan_return_word (hw : IsWord w) :
    scan (Bytes.ofText "return " ++ w) = .ok ([⟨.keyword .return, 1⟩, ⟨word w, 1⟩], 1) := by
  have hreturn : IsWord (Bytes.ofText "return") := ⟨by decide +kernel, by decide +kernel⟩
  have hspace : ∀ c ∈ (32 :: w).head?, ¬isNamePart c := by
    rintro c ⟨⟩
    decide
  have hfirst := scanFrom_word hreturn hspace (w.length + 7) 1 []
  have hkeyword : word (Bytes.ofText "return") = .keyword .return := by decide +kernel
  have hlast : scanFrom (w.length + 6 + 1) 1 [⟨.keyword .return, 1⟩] (w ++ []) = _ :=
    scanFrom_word hw (by simp) _ _ _
  rw [List.append_nil, scanFrom_nil] at hlast
  rw [scanFrom_space, hkeyword, hlast] at hfirst
  exact hfirst

/-! ### Identifiers -/

private theorem encodeChar_ascii (h : c.toNat ≤ 127) :
    String.utf8EncodeChar c = [UInt8.ofNat c.toNat] := by
  have hval : c.val.toNat ≤ 127 := h
  rw [String.utf8EncodeChar, if_pos hval]
  rfl

theorem isNamePart_of_isIdentifierChar (h : isIdentifierChar c) :
    isNamePart (UInt8.ofNat c.toNat) := by
  have hrange := Server.toNat_of_isIdentifierChar h
  have hbyte : (UInt8.ofNat c.toNat).toNat = c.toNat := Utf8.toNat_ofNat (by omega)
  simp only [isNamePart, isNameStart, isLetter, isDigit, Bool.or_eq_true, Bool.and_eq_true,
    decide_eq_true_eq, UInt8.le_iff_toNat_le, ← UInt8.toNat_inj, hbyte]
  simp only [UInt8.reduceToNat]
  omega

private theorem isDigit_ofNat (h : isIdentifierChar c) :
    isDigit (UInt8.ofNat c.toNat) = c.isDigit := by
  have hrange := Server.toNat_of_isIdentifierChar h
  have hbyte : (UInt8.ofNat c.toNat).toNat = c.toNat := Utf8.toNat_ofNat (by omega)
  rw [Bool.eq_iff_iff]
  simp only [isDigit, Char.isDigit, Bool.and_eq_true, decide_eq_true_eq, UInt8.le_iff_toNat_le,
    UInt32.le_iff_toNat_le, hbyte, ge_iff_le]
  rfl

private theorem encode_of_chars (h : ∀ c ∈ cs, isIdentifierChar c) :
    Utf8.encode cs = cs.map fun c => UInt8.ofNat c.toNat := by
  induction cs with
  | nil => rfl
  | cons c cs ih =>
    obtain ⟨hfirst, hrest⟩ := List.forall_mem_cons.mp h
    have hrange := Server.toNat_of_isIdentifierChar hfirst
    rw [Utf8.encode] at ih ⊢
    rw [List.flatMap_cons, encodeChar_ascii (by omega), ih hrest, List.map_cons,
      List.singleton_append]

theorem isWord_ofText {s : String} (h : IsIdentifier s.toList) : IsWord (Bytes.ofText s) := by
  rw [Bytes.ofText]
  generalize s.toList = cs at h ⊢
  obtain ⟨hne, hchars, hdigit⟩ := Server.isIdentifier_iff.mp h
  rw [encode_of_chars hchars]
  cases cs with
  | nil => exact absurd rfl hne
  | cons c cs =>
    obtain ⟨hfirst, hrest⟩ := List.forall_mem_cons.mp hchars
    have hstart : isNameStart (UInt8.ofNat c.toNat) := by
      refine (Bool.or_eq_true_iff.mp (isNamePart_of_isIdentifierChar hfirst)).resolve_right ?_
      rwa [isDigit_ofNat hfirst]
    refine ⟨hstart, fun b hb => ?_⟩
    obtain ⟨d, hd, rfl⟩ := List.mem_map.mp hb
    exact isNamePart_of_isIdentifierChar (hrest d hd)

theorem word_ofText (s : String) : word (Bytes.ofText s) =
    ((Keyword.ofName? s).map .keyword).getD (.name (Bytes.ofText s)) := by
  rw [word, Bytes.toText_ofText]
  cases Keyword.ofName? s <;> rfl

theorem scan_identifier_iff {s : String} (h : IsIdentifier s.toList) :
    scan (Bytes.ofText s) = .ok ([⟨.name (Bytes.ofText s), 1⟩], 1) ↔ Keyword.ofName? s = none := by
  rw [scan_word (isWord_ofText h), word_ofText]
  cases Keyword.ofName? s <;> simp

end Token

/-! ### Scripts of one word -/

def chunkScope : Scope :=
  ⟨[(Scope.environment, .plain)], 1, 1, [], [], true, false, 0, 0, Chunk.deepestNesting⟩

/-- A function that gives nothing, or a value that stands in its source. -/
def Function.IsConstant (f : Function) : Prop :=
  ∃ es, f = .mk 0 true [.returns es] ∧ (es = [] ∨ ∃ l, es = [.constant l])

variable {w : Bytes}

private theorem not_isBinary (h : Token.IsWord w) : isBinary w = false := by
  cases w with
  | nil => rfl
  | cons b w =>
    have hne : b ≠ 0x1b := by
      rintro rfl
      exact absurd h.1 (by decide)
    simp [isBinary, hne]

theorem compile_return_name (hw : Token.IsWord w) (hname : Token.word w = .name w) :
    compile (Bytes.ofText "return " ++ w) Chunk.deepestNesting =
      .ok (.mk 0 true [.returns [chunkScope.resolve w 1]]) := by
  unfold compile
  rw [Token.scan_return_word hw, hname]
  rfl

theorem compile_return_keyword (hw : Token.IsWord w) {k : Keyword} (hk : Token.word w = .keyword k)
    {f : Function} (h : compile (Bytes.ofText "return " ++ w) Chunk.deepestNesting = .ok f) :
    f.IsConstant := by
  unfold compile at h
  rw [Token.scan_return_word hw, hk] at h
  cases k
  case nil => cases h; exact ⟨_, rfl, .inr ⟨_, rfl⟩⟩
  case true => cases h; exact ⟨_, rfl, .inr ⟨_, rfl⟩⟩
  case false => cases h; exact ⟨_, rfl, .inr ⟨_, rfl⟩⟩
  all_goals cases h

theorem compile_keyword (hw : Token.IsWord w) {k : Keyword} (hk : Token.word w = .keyword k)
    {f : Function} (h : compile w Chunk.deepestNesting = .ok f) : f.IsConstant := by
  unfold compile at h
  rw [not_isBinary hw, Token.scan_word hw, hk] at h
  cases k
  case «return» => cases h; exact ⟨_, rfl, .inl rfl⟩
  all_goals cases h

end Pagewright.Script
