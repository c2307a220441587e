import Mathlib.Data.List.DropRight
import Pagewright.Server.ComponentList

/-! What the text of a component can look like: a name and a path with an equals sign between them,
and blanks around both. Every other text has one flaw, the first of those that are looked for. -/
namespace Pagewright

namespace Text

def Trimmed (cs : List Char) : Prop :=
  (∀ c ∈ cs.head?, ¬isBlank c) ∧ ∀ c ∈ cs.getLast?, ¬isBlank c

def Blank (cs : List Char) : Prop := ∀ c ∈ cs, isBlank c

variable {cs left right t : List Char}

theorem Blank.not_mem {c : Char} (h : Blank cs) (hc : isBlank c = false) : c ∉ cs :=
  fun hmem => Bool.eq_false_iff.mp hc (h c hmem)

theorem trimChars_eq (cs : List Char) :
    trimChars cs = (cs.dropWhile isBlank).rdropWhile isBlank := rfl

theorem dropWhile_of_head (h : ∀ c ∈ cs.head?, ¬isBlank c) : cs.dropWhile isBlank = cs := by
  cases cs with
  | nil => rfl
  | cons c cs => exact List.dropWhile_cons_of_neg (h c rfl)

private theorem rdropWhile_of_getLast (h : ∀ c ∈ cs.getLast?, ¬isBlank c) :
    cs.rdropWhile isBlank = cs := by
  rw [List.rdropWhile, dropWhile_of_head (by rwa [List.head?_reverse]), List.reverse_reverse]

private theorem rdropWhile_append_blank (hr : Blank right) (cs : List Char) :
    (cs ++ right).rdropWhile isBlank = cs.rdropWhile isBlank := by
  have hreverse : ∀ c ∈ right.reverse, isBlank c := fun c hc => hr c (List.mem_reverse.mp hc)
  rw [List.rdropWhile, List.reverse_append, List.dropWhile_append_of_pos hreverse, List.rdropWhile]

theorem trimChars_append (hl : Blank left) (hr : Blank right) (ht : Trimmed t) :
    trimChars (left ++ t ++ right) = t := by
  rw [trimChars_eq, List.append_assoc, List.dropWhile_append_of_pos hl]
  cases t with
  | nil =>
    have hnone : right.dropWhile isBlank = [] := List.dropWhile_eq_nil_iff.mpr hr
    rw [List.nil_append, hnone, List.rdropWhile_nil]
  | cons c t =>
    have hfirst : ∀ d ∈ (c :: t ++ right).head?, ¬isBlank d := ht.1
    rw [dropWhile_of_head hfirst, rdropWhile_append_blank hr, rdropWhile_of_getLast ht.2]

@[simp] theorem trimmed_trimChars (cs : List Char) : Trimmed (trimChars cs) := by
  rw [trimChars_eq]
  constructor
  · intro c hc
    obtain ⟨rest, hrest⟩ := List.rdropWhile_prefix isBlank (l := cs.dropWhile isBlank)
    have hhead : (cs.dropWhile isBlank).head? = some c := by
      rw [← hrest, List.head?_append, Option.mem_def.mp hc]
      rfl
    have hnot := List.head?_dropWhile_not isBlank cs
    rw [hhead] at hnot
    exact Bool.eq_false_iff.mp hnot
  · intro c hc
    have hne : (cs.dropWhile isBlank).rdropWhile isBlank ≠ [] := List.ne_nil_of_mem
      (List.mem_of_mem_getLast? hc)
    rw [← List.getLast_of_getLast?_eq_some hc]
    exact List.rdropWhile_last_not _ _ hne

theorem exists_trimChars (cs : List Char) :
    ∃ left right, Blank left ∧ Blank right ∧ cs = left ++ trimChars cs ++ right := by
  refine ⟨cs.takeWhile isBlank, (cs.dropWhile isBlank).rtakeWhile isBlank, ?_, ?_, ?_⟩
  · exact fun c hc => List.mem_takeWhile_imp hc
  · exact fun c hc => List.mem_rtakeWhile_imp hc
  · rw [trimChars_eq, List.append_assoc, List.rdropWhile_append_rtakeWhile,
      List.takeWhile_append_dropWhile]

@[simp] theorem trimChars_eq_nil_iff : trimChars cs = [] ↔ Blank cs := by
  constructor
  · intro h
    obtain ⟨left, right, hl, hr, hcs⟩ := exists_trimChars cs
    rw [h, List.append_nil] at hcs
    rw [hcs]
    exact List.forall_mem_append.mpr ⟨hl, hr⟩
  · intro h
    rw [trimChars_eq, List.dropWhile_eq_nil_iff.mpr h, List.rdropWhile_nil]

end Text

namespace Server

open Text (Blank Trimmed isBlank trimChars)

/-- The variables of a script: letters, digits and underscores, and no digit first. -/
def IsIdentifier : List Char → Prop
  | [] => False
  | c :: cs => (c.isAlpha ∨ c = '_') ∧ ∀ d ∈ cs, d.isAlphanum ∨ d = '_'

variable {cs a b : List Char} {c : Char}

/-! ### Characters of names -/

theorem isIdentifierChar_iff : isIdentifierChar c ↔ c.isAlphanum ∨ c = '_' := by
  simp [isIdentifierChar]

theorem toNat_of_isIdentifierChar (h : isIdentifierChar c) :
    (48 ≤ c.toNat ∧ c.toNat ≤ 57) ∨ (65 ≤ c.toNat ∧ c.toNat ≤ 90) ∨
      (97 ≤ c.toNat ∧ c.toNat ≤ 122) ∨ c.toNat = 95 := by
  unfold isIdentifierChar Char.isAlphanum Char.isAlpha Char.isUpper Char.isLower Char.isDigit at h
  simp only [Bool.or_eq_true, Bool.and_eq_true, decide_eq_true_eq, UInt32.le_iff_toNat_le,
    ge_iff_le] at h
  rcases h with ((hupper | hlower) | hdigit) | rfl
  · exact .inr (.inl hupper)
  · exact .inr (.inr (.inl hlower))
  · exact .inl hdigit
  · exact .inr (.inr (.inr rfl))

private theorem isBlank_of_isIdentifierChar (h : isIdentifierChar c) : isBlank c = false := by
  have hrange := toNat_of_isIdentifierChar h
  simp only [isBlank, Bool.or_eq_false_iff, Bool.and_eq_false_iff, decide_eq_false_iff_not,
    beq_eq_false_iff_ne]
  omega

private theorem not_isDigit_of_isAlpha (h : c.isAlpha) : ¬c.isDigit := by
  unfold Char.isAlpha Char.isUpper Char.isLower at h
  unfold Char.isDigit
  simp only [Bool.or_eq_true, Bool.and_eq_true, decide_eq_true_eq, UInt32.le_iff_toNat_le,
    ge_iff_le] at h ⊢
  change (65 ≤ c.val.toNat ∧ c.val.toNat ≤ 90) ∨ 97 ≤ c.val.toNat ∧ c.val.toNat ≤ 122 at h
  change ¬(48 ≤ c.val.toNat ∧ c.val.toNat ≤ 57)
  omega

theorem isIdentifier_iff :
    IsIdentifier cs ↔ cs ≠ [] ∧ (∀ c ∈ cs, isIdentifierChar c) ∧ ¬cs.head?.any Char.isDigit := by
  cases cs with
  | nil => simp [IsIdentifier]
  | cons c cs =>
    have hfirst : c.isAlpha ∨ c = '_' ↔ isIdentifierChar c ∧ ¬c.isDigit := by
      simp only [isIdentifierChar_iff, Char.isAlphanum, Bool.or_eq_true]
      constructor
      · rintro (halpha | rfl)
        · exact ⟨.inl (.inl halpha), not_isDigit_of_isAlpha halpha⟩
        · exact ⟨.inr rfl, by decide⟩
      · rintro ⟨(halpha | hdigit) | hunder, hnot⟩
        · exact .inl halpha
        · exact absurd hdigit hnot
        · exact .inr hunder
    simp only [IsIdentifier, hfirst, ← isIdentifierChar_iff, List.forall_mem_cons, List.head?_cons,
      Option.any_some, ne_eq, reduceCtorEq, not_false_eq_true, true_and]
    exact and_right_comm

theorem trimmed_of_chars (h : ∀ c ∈ cs, isIdentifierChar c) : Trimmed cs := by
  have hplain {c : Char} (hc : c ∈ cs) : ¬isBlank c :=
    Bool.eq_false_iff.mp (isBlank_of_isIdentifierChar (h c hc))
  exact ⟨fun c hc => hplain (List.mem_of_mem_head? hc),
    fun c hc => hplain (List.mem_of_mem_getLast? hc)⟩

theorem equals_not_mem_of_chars (h : ∀ c ∈ cs, isIdentifierChar c) : '=' ∉ cs :=
  fun hmem => Bool.false_ne_true (h '=' hmem)

/-! ### The first equals sign -/

theorem splitEquals?_cons_of_ne (h : c ≠ '=') (cs : List Char) :
    splitEquals? (c :: cs) = (splitEquals? cs).map fun (a, b) => (c :: a, b) :=
  splitEquals?.eq_3 c cs h

@[simp] theorem splitEquals?_eq_some_iff :
    splitEquals? cs = some (a, b) ↔ '=' ∉ a ∧ cs = a ++ '=' :: b := by
  induction cs generalizing a with
  | nil => simp [splitEquals?]
  | cons c cs ih =>
    by_cases hc : c = '='
    · subst hc
      cases a with
      | nil => simp [splitEquals?, eq_comm]
      | cons d a => grind [splitEquals?]
    · rw [splitEquals?_cons_of_ne hc]
      constructor
      · intro h
        obtain ⟨⟨a', b'⟩, hsplit, heq⟩ := Option.map_eq_some_iff.mp h
        obtain ⟨rfl, rfl⟩ := Prod.mk.inj heq
        obtain ⟨hnot, rfl⟩ := ih.mp hsplit
        exact ⟨by simp [Ne.symm hc, hnot], rfl⟩
      · rintro ⟨hnot, heq⟩
        cases a with
        | nil => exact absurd (List.cons.inj heq).1 hc
        | cons d a =>
          obtain ⟨rfl, rfl⟩ := List.cons.inj heq
          rw [ih.mpr ⟨fun hmem => hnot (List.mem_cons_of_mem _ hmem), rfl⟩]
          rfl

@[simp] theorem splitEquals?_eq_none_iff : splitEquals? cs = none ↔ '=' ∉ cs := by
  induction cs with
  | nil => simp [splitEquals?]
  | cons c cs ih =>
    by_cases hc : c = '='
    · simp [splitEquals?, hc]
    · simp [splitEquals?_cons_of_ne hc, ih, Ne.symm hc]

/-! ### Components -/

/-- A component that can be written: its name can be a variable of a script, and its path is seen. -/
structure ComponentSpec.Proper (spec : ComponentSpec) : Prop where
  name : IsIdentifier spec.name.toList
  path_ne : spec.path ≠ ""
  path : Trimmed spec.path.toList

inductive Writes (spec : ComponentSpec) : List Char → Prop
  | intro {b₁ b₂ b₃ b₄ : List Char} : Blank b₁ → Blank b₂ → Blank b₃ → Blank b₄ →
      Writes spec ((b₁ ++ spec.name.toList ++ b₂) ++ '=' :: (b₃ ++ spec.path.toList ++ b₄))

inductive Flaw : List Char → SpecProblem → Prop
  | noEquals {cs : List Char} : '=' ∉ cs → Flaw cs .noEquals
  | emptyPart {a b : List Char} : '=' ∉ a → Blank a ∨ Blank b → Flaw (a ++ '=' :: b) .emptyPart
  | invalidCharacter {b₁ name b₂ path : List Char} : Blank b₁ → Blank b₂ → Trimmed name →
      '=' ∉ name → (∃ c ∈ name, ¬isIdentifierChar c) → ¬Blank path →
      Flaw (b₁ ++ name ++ b₂ ++ '=' :: path) .invalidCharacter
  | leadingDigit {b₁ b₂ path rest : List Char} {d : Char} : Blank b₁ → Blank b₂ → d.isDigit →
      (∀ c ∈ rest, isIdentifierChar c) → ¬Blank path →
      Flaw (b₁ ++ d :: rest ++ b₂ ++ '=' :: path) .leadingDigit

namespace ComponentSpec

variable {text : String} {spec : ComponentSpec} {problem : SpecProblem}

@[simp] theorem isEmpty_trimChars : (trimChars cs).isEmpty ↔ Blank cs := by
  rw [List.isEmpty_iff, Text.trimChars_eq_nil_iff]

theorem equals_not_mem_around {b₁ name b₂ : List Char} (hb₁ : Blank b₁) (hb₂ : Blank b₂)
    (hname : '=' ∉ name) : '=' ∉ b₁ ++ name ++ b₂ := by
  have hplain : isBlank '=' = false := by decide
  simp only [List.mem_append, not_or]
  exact ⟨⟨hb₁.not_mem hplain, hname⟩, hb₂.not_mem hplain⟩

theorem parse_split (ha : '=' ∉ a) (htext : text.toList = a ++ '=' :: b) :
    parse text =
      if (trimChars a).isEmpty || (trimChars b).isEmpty then .error ⟨text, .emptyPart⟩
      else if !(trimChars a).all isIdentifierChar then .error ⟨text, .invalidCharacter⟩
      else if (trimChars a).head?.any Char.isDigit then .error ⟨text, .leadingDigit⟩
      else .ok ⟨String.ofList (trimChars a), String.ofList (trimChars b)⟩ := by
  unfold parse
  rw [splitEquals?_eq_some_iff.mpr ⟨ha, htext⟩]

theorem parse_of_writes (hspec : spec.Proper) (h : Writes spec text.toList) :
    parse text = .ok spec := by
  generalize htext : text.toList = cs at h
  obtain ⟨hb₁, hb₂, hb₃, hb₄⟩ := h
  obtain ⟨hne, hchars, hfirst⟩ := isIdentifier_iff.mp hspec.name
  have hequals := equals_not_mem_around hb₁ hb₂ (equals_not_mem_of_chars hchars)
  have hempty : ¬(spec.name.toList.isEmpty || spec.path.toList.isEmpty) := by
    simpa [hspec.path_ne] using hne
  rw [parse_split hequals htext, Text.trimChars_append hb₁ hb₂ (trimmed_of_chars hchars),
    Text.trimChars_append hb₃ hb₄ hspec.path, if_neg hempty, List.all_eq_true.mpr hchars,
    if_neg (by decide), if_neg hfirst, String.ofList_toList, String.ofList_toList]

theorem parse_of_flaw (h : Flaw text.toList problem) : parse text = .error ⟨text, problem⟩ := by
  generalize htext : text.toList = cs at h
  cases h with
  | noEquals hequals =>
    unfold parse
    rw [htext, splitEquals?_eq_none_iff.mpr hequals]
  | emptyPart hequals hblank =>
    rw [parse_split hequals htext, if_pos]
    rwa [Bool.or_eq_true, isEmpty_trimChars, isEmpty_trimChars]
  | @invalidCharacter b₁ name b₂ path hb₁ hb₂ htrimmed hequals hinvalid hpath =>
    obtain ⟨c, hc, hnot⟩ := hinvalid
    have hempty : ¬(name.isEmpty || (trimChars path).isEmpty) := by
      rw [Bool.or_eq_true, isEmpty_trimChars, List.isEmpty_iff]
      exact not_or.mpr ⟨List.ne_nil_of_mem hc, hpath⟩
    have hall : !name.all isIdentifierChar := by
      rw [Bool.not_eq_true', List.all_eq_false]
      exact ⟨c, hc, hnot⟩
    rw [parse_split (equals_not_mem_around hb₁ hb₂ hequals) htext,
      Text.trimChars_append hb₁ hb₂ htrimmed, if_neg hempty, if_pos hall]
  | @leadingDigit b₁ b₂ path rest d hb₁ hb₂ hdigit hrest hpath =>
    have hchars : ∀ c ∈ d :: rest, isIdentifierChar c := by
      refine List.forall_mem_cons.mpr ⟨?_, hrest⟩
      simp [isIdentifierChar, Char.isAlphanum, hdigit]
    have hempty : ¬((d :: rest).isEmpty || (trimChars path).isEmpty) := by
      rw [Bool.or_eq_true, isEmpty_trimChars, List.isEmpty_iff]
      exact not_or.mpr ⟨List.cons_ne_nil d rest, hpath⟩
    rw [parse_split (equals_not_mem_around hb₁ hb₂ (equals_not_mem_of_chars hchars)) htext,
      Text.trimChars_append hb₁ hb₂ (trimmed_of_chars hchars), if_neg hempty,
      List.all_eq_true.mpr hchars, if_neg (by decide), List.head?_cons, Option.any_some,
      if_pos hdigit]

theorem writes_or_flaw (cs : List Char) :
    (∃ spec : ComponentSpec, spec.Proper ∧ Writes spec cs) ∨ ∃ problem, Flaw cs problem := by
  cases hsplit : splitEquals? cs with
  | none => exact .inr ⟨_, .noEquals (splitEquals?_eq_none_iff.mp hsplit)⟩
  | some sides =>
    obtain ⟨a, b⟩ := sides
    obtain ⟨hequals, rfl⟩ := splitEquals?_eq_some_iff.mp hsplit
    by_cases hblank : Blank a ∨ Blank b
    · exact .inr ⟨_, .emptyPart hequals hblank⟩
    obtain ⟨hname, hpath⟩ := not_or.mp hblank
    obtain ⟨b₁, b₂, hb₁, hb₂, ha⟩ := Text.exists_trimChars a
    obtain ⟨b₃, b₄, hb₃, hb₄, hb⟩ := Text.exists_trimChars b
    have hne : trimChars a ≠ [] := fun h => hname (Text.trimChars_eq_nil_iff.mp h)
    have htrimmed := Text.trimmed_trimChars a
    generalize trimChars a = name at ha hne htrimmed
    subst ha
    by_cases hchars : ∀ c ∈ name, isIdentifierChar c
    · by_cases hdigit : name.head?.any Char.isDigit
      · obtain ⟨d, rest, rfl⟩ := List.exists_cons_of_ne_nil hne
        refine .inr ⟨_, .leadingDigit hb₁ hb₂ hdigit ?_ hpath⟩
        exact (List.forall_mem_cons.mp hchars).2
      · let spec : ComponentSpec := ⟨String.ofList name, String.ofList (trimChars b)⟩
        have hspec : spec.Proper := by
          refine ⟨?_, ?_, ?_⟩
          · rw [String.toList_ofList]
            exact isIdentifier_iff.mpr ⟨hne, hchars, hdigit⟩
          · simpa [spec] using hpath
          · rw [String.toList_ofList]
            exact Text.trimmed_trimChars b
        have hwrites : Writes spec (b₁ ++ spec.name.toList ++ b₂ ++
            '=' :: (b₃ ++ spec.path.toList ++ b₄)) := .intro hb₁ hb₂ hb₃ hb₄
        rw [String.toList_ofList, String.toList_ofList, ← hb] at hwrites
        exact .inl ⟨spec, hspec, hwrites⟩
    · have hequals' : '=' ∉ name := fun h =>
        hequals (List.mem_append_left b₂ (List.mem_append_right b₁ h))
      have hinvalid : ∃ c ∈ name, ¬isIdentifierChar c := by
        simpa only [not_forall, exists_prop] using hchars
      exact .inr ⟨_, .invalidCharacter hb₁ hb₂ htrimmed hequals' hinvalid hpath⟩

@[simp] theorem parse_eq_ok_iff :
    parse text = .ok spec ↔ spec.Proper ∧ Writes spec text.toList := by
  refine ⟨fun h => ?_, fun h => parse_of_writes h.1 h.2⟩
  rcases writes_or_flaw text.toList with ⟨spec', hspec, hwrites⟩ | ⟨problem, hflaw⟩
  · cases h.symm.trans (parse_of_writes hspec hwrites)
    exact ⟨hspec, hwrites⟩
  · cases h.symm.trans (parse_of_flaw hflaw)

@[simp] theorem parse_eq_error_iff {fault : SpecFault} :
    parse text = .error fault ↔ fault.text = text ∧ Flaw text.toList fault.problem := by
  constructor
  · intro h
    rcases writes_or_flaw text.toList with ⟨spec, hspec, hwrites⟩ | ⟨problem, hflaw⟩
    · cases h.symm.trans (parse_of_writes hspec hwrites)
    · cases h.symm.trans (parse_of_flaw hflaw)
      exact ⟨rfl, hflaw⟩
  · rintro ⟨rfl, hflaw⟩
    exact parse_of_flaw hflaw

end ComponentSpec

end Server

end Pagewright
