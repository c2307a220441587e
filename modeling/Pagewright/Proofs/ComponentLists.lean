import Pagewright.Proofs.ComponentSpecs
import Pagewright.Proofs.FilePaths

/-! Lists of components. A text is read part by part, and the parts are what stands between its
commas: reading accepts what can be written and nothing else, and the first part that cannot is
reported. -/
namespace Pagewright

namespace Text

variable {sep : Char} {cs : List Char} {ps : List (List Char)}

theorem intercalate_cons (p : List Char) (h : ps ≠ []) :
    [sep].intercalate (p :: ps) = p ++ sep :: [sep].intercalate ps := by
  obtain ⟨q, qs, rfl⟩ := List.exists_cons_of_ne_nil h
  simp [List.intercalate]

theorem pieces_intercalate (hps : ps ≠ []) (h : ∀ p ∈ ps, sep ∉ p) :
    pieces sep ([sep].intercalate ps) = ps := by
  induction ps with
  | nil => exact absurd rfl hps
  | cons p ps ih =>
    obtain ⟨hp, hrest⟩ := List.forall_mem_cons.mp h
    cases ps with
    | nil => simpa [List.intercalate] using pieces_of_not_mem hp
    | cons q qs =>
      rw [intercalate_cons p (List.cons_ne_nil q qs), pieces_append_cons, pieces_of_not_mem hp,
        ih (List.cons_ne_nil q qs) hrest]
      rfl

@[simp] theorem intercalate_pieces (sep : Char) (cs : List Char) :
    [sep].intercalate (pieces sep cs) = cs := by
  induction cs with
  | nil => rfl
  | cons c cs ih =>
    by_cases hc : c = sep
    · rw [pieces, if_pos hc, intercalate_cons [] (pieces_ne_nil sep cs), ih, hc]
      rfl
    · rw [pieces, if_neg hc]
      obtain ⟨p, ps, hps⟩ := List.exists_cons_of_ne_nil (pieces_ne_nil sep cs)
      rw [hps] at ih ⊢
      rw [← ih]
      cases ps <;> simp [List.intercalate]

end Text

namespace Server

open Text (Blank)

/-- The parts of a list's text, and the components that they stand for. -/
inductive Listed : List (List Char) → List ComponentSpec → Prop
  | nil : Listed [] []
  | blank {part : List Char} {parts : List (List Char)} {specs : List ComponentSpec} :
      Blank part → Listed parts specs → Listed (part :: parts) specs
  | component {part : List Char} {parts : List (List Char)} {spec : ComponentSpec}
      {specs : List ComponentSpec} :
      spec.Proper → ',' ∉ spec.path.toList → Writes spec part → Listed parts specs →
      Listed (part :: parts) (spec :: specs)

variable {part : List Char} {parts before after : List (List Char)} {spec : ComponentSpec}
  {specs : List ComponentSpec} {fault : SpecFault}

/-! ### Commas -/

theorem Writes.comma_not_mem (hspec : spec.Proper) (hpath : ',' ∉ spec.path.toList)
    (h : Writes spec part) : ',' ∉ part := by
  obtain ⟨hb₁, hb₂, hb₃, hb₄⟩ := h
  have hblank : Text.isBlank ',' = false := by decide
  have hname : ',' ∉ spec.name.toList := fun hmem =>
    Bool.false_ne_true ((isIdentifier_iff.mp hspec.name).2.1 ',' hmem)
  simp [hb₁.not_mem hblank, hb₂.not_mem hblank, hb₃.not_mem hblank, hb₄.not_mem hblank, hname,
    hpath]

theorem Writes.comma_not_mem_path (h : Writes spec part) (hpart : ',' ∉ part) :
    ',' ∉ spec.path.toList := by
  obtain ⟨hb₁, hb₂, hb₃, hb₄⟩ := h
  exact fun hmem => hpart (by simp [hmem])

theorem Listed.comma_not_mem (h : Listed parts specs) : ∀ p ∈ parts, ',' ∉ p := by
  induction h with
  | nil => simp
  | blank hblank _ ih => exact List.forall_mem_cons.mpr ⟨hblank.not_mem (by decide), ih⟩
  | component hspec hpath hwrites _ ih =>
    exact List.forall_mem_cons.mpr ⟨hwrites.comma_not_mem hspec hpath, ih⟩

/-! ### Part by part -/

namespace ComponentSpec

def parseParts (parts : List (List Char)) : Except SpecFault (List ComponentSpec) :=
  ((parts.map String.ofList).filter fun part => !isBlankText part).mapM parse

theorem parseList_eq (text : String) :
    parseList text = parseParts (Text.pieces ',' text.toList) := rfl

theorem isBlankText_ofList : isBlankText (String.ofList part) ↔ Blank part := by
  simp [isBlankText, Blank]

theorem parseParts_blank (h : Blank part) (parts : List (List Char)) :
    parseParts (part :: parts) = parseParts parts := by
  unfold parseParts
  rw [List.map_cons, List.filter_cons_of_neg]
  simpa using isBlankText_ofList.mpr h

theorem parseParts_cons (h : ¬Blank part) (parts : List (List Char)) :
    parseParts (part :: parts) = do
      let spec ← parse (String.ofList part)
      let specs ← parseParts parts
      return spec :: specs := by
  unfold parseParts
  rw [List.map_cons, List.filter_cons_of_pos, List.mapM_cons]
  simpa using mt isBlankText_ofList.mp h

theorem parseParts_append (parts parts' : List (List Char)) :
    parseParts (parts ++ parts') = do
      let specs ← parseParts parts
      let specs' ← parseParts parts'
      return specs ++ specs' := by
  unfold parseParts
  rw [List.map_append, List.filter_append, List.mapM_append]

private theorem not_blank_of_writes (h : Writes spec part) : ¬Blank part := by
  obtain ⟨hb₁, hb₂, hb₃, hb₄⟩ := h
  exact fun hblank => hblank.not_mem (c := '=') (by decide) (by simp)

@[simp] theorem parse_ofList_eq_ok_iff : parse (String.ofList part) = .ok spec ↔
    spec.Proper ∧ Writes spec part := by
  rw [parse_eq_ok_iff, String.toList_ofList]

@[simp] theorem parse_ofList_eq_error_iff : parse (String.ofList part) = .error fault ↔
    fault.text = String.ofList part ∧ Flaw part fault.problem := by
  rw [parse_eq_error_iff, String.toList_ofList]

theorem parseParts_of_listed (h : Listed parts specs) : parseParts parts = .ok specs := by
  induction h with
  | nil => rfl
  | blank hblank _ ih => rw [parseParts_blank hblank, ih]
  | component hspec _ hwrites _ ih =>
    rw [parseParts_cons (not_blank_of_writes hwrites),
      parse_ofList_eq_ok_iff.mpr ⟨hspec, hwrites⟩, ih]
    rfl

theorem listed_or_flaw (parts : List (List Char)) (hparts : ∀ p ∈ parts, ',' ∉ p) :
    (∃ specs, Listed parts specs) ∨ ∃ before part after specs problem,
      parts = before ++ part :: after ∧ Listed before specs ∧ ¬Blank part ∧ Flaw part problem := by
  induction parts with
  | nil => exact .inl ⟨[], .nil⟩
  | cons part parts ih =>
    obtain ⟨hpart, hrest⟩ := List.forall_mem_cons.mp hparts
    by_cases hblank : Blank part
    · rcases ih hrest with ⟨specs, hlisted⟩ | ⟨before, p, after, specs, problem, rfl, hlisted, hp⟩
      · exact .inl ⟨specs, .blank hblank hlisted⟩
      · exact .inr ⟨part :: before, p, after, specs, problem, rfl, .blank hblank hlisted, hp⟩
    · rcases writes_or_flaw part with ⟨spec, hspec, hwrites⟩ | ⟨problem, hflaw⟩
      · have hpath := hwrites.comma_not_mem_path hpart
        rcases ih hrest with ⟨specs, hlisted⟩ | ⟨before, p, after, specs, problem, rfl, hlisted, hp⟩
        · exact .inl ⟨spec :: specs, .component hspec hpath hwrites hlisted⟩
        · exact .inr ⟨part :: before, p, after, spec :: specs, problem, rfl,
            .component hspec hpath hwrites hlisted, hp⟩
      · exact .inr ⟨[], part, parts, [], problem, rfl, .nil, hblank, hflaw⟩

theorem parseParts_of_flaw {problem : SpecProblem} (hbefore : Listed before specs)
    (hblank : ¬Blank part) (hflaw : Flaw part problem) (after : List (List Char)) :
    parseParts (before ++ part :: after) = .error ⟨String.ofList part, problem⟩ := by
  have hparse : parse (String.ofList part) = .error ⟨String.ofList part, problem⟩ :=
    parse_ofList_eq_error_iff.mpr ⟨rfl, hflaw⟩
  rw [parseParts_append, parseParts_of_listed hbefore, parseParts_cons hblank, hparse]
  rfl

end ComponentSpec

/-- The first part of a text that is neither blank nor a component. -/
def FirstUnlisted (cs part : List Char) : Prop :=
  ∃ before after specs, cs = [','].intercalate (before ++ part :: after) ∧
    Listed before specs ∧ (∀ p ∈ part :: after, ',' ∉ p) ∧
    ¬Blank part ∧ ∀ spec : ComponentSpec, spec.Proper → ¬Writes spec part

theorem FirstUnlisted.exists_flaw {cs : List Char} (h : FirstUnlisted cs part) :
    ∃ problem, Flaw part problem := by
  obtain ⟨before, after, specs, -, -, -, -, hnot⟩ := h
  rcases ComponentSpec.writes_or_flaw part with ⟨spec, hspec, hwrites⟩ | hflaw
  · exact absurd hwrites (hnot spec hspec)
  · exact hflaw

namespace ComponentSpec

private theorem not_writes_of_flaw {problem : SpecProblem} (h : Flaw part problem)
    (hspec : spec.Proper) :
    ¬Writes spec part := by
  intro hwrites
  have hok := parse_ofList_eq_ok_iff.mpr ⟨hspec, hwrites⟩
  have herror : parse (String.ofList part) = .error ⟨String.ofList part, problem⟩ :=
    parse_ofList_eq_error_iff.mpr ⟨rfl, h⟩
  cases hok.symm.trans herror

theorem parseParts_intercalate (h : ∀ p ∈ parts, ',' ∉ p) :
    parseParts (Text.pieces ',' ([','].intercalate parts)) = parseParts parts := by
  cases parts with
  | nil => exact parseParts_blank (List.forall_mem_nil _) []
  | cons p ps => rw [Text.pieces_intercalate (List.cons_ne_nil p ps) h]

private theorem parseList_eq_ok_iff {text : String} : parseList text = .ok specs ↔
    ∃ parts, Listed parts specs ∧ text.toList = [','].intercalate parts := by
  constructor
  · intro h
    refine ⟨Text.pieces ',' text.toList, ?_, (Text.intercalate_pieces ',' text.toList).symm⟩
    rw [parseList_eq] at h
    rcases listed_or_flaw _ fun p => Text.sep_not_mem_of_mem_pieces with
      ⟨specs', hlisted⟩ | ⟨before, part, after, specs', problem, hparts, hbefore, hblank, hflaw⟩
    · cases h.symm.trans (parseParts_of_listed hlisted)
      exact hlisted
    · rw [hparts, parseParts_of_flaw hbefore hblank hflaw] at h
      cases h
  · rintro ⟨parts, hlisted, htext⟩
    rw [parseList_eq, htext, parseParts_intercalate hlisted.comma_not_mem,
      parseParts_of_listed hlisted]

theorem parseList_eq_error_iff {text : String} : parseList text = .error fault ↔
    ∃ part, FirstUnlisted text.toList part ∧ fault.text = String.ofList part ∧
      Flaw part fault.problem := by
  constructor
  · intro h
    rw [parseList_eq] at h
    have hcommas : ∀ p ∈ Text.pieces ',' text.toList, ',' ∉ p :=
      fun p => Text.sep_not_mem_of_mem_pieces
    rcases listed_or_flaw _ hcommas with
      ⟨specs, hlisted⟩ | ⟨before, part, after, specs, problem, hparts, hbefore, hblank, hflaw⟩
    · cases h.symm.trans (parseParts_of_listed hlisted)
    · rw [hparts] at h hcommas
      cases h.symm.trans (parseParts_of_flaw hbefore hblank hflaw after)
      have htext : text.toList = [','].intercalate (before ++ part :: after) := by
        rw [← hparts, Text.intercalate_pieces]
      exact ⟨part, ⟨before, after, specs, htext, hbefore, (List.forall_mem_append.mp hcommas).2,
        hblank, fun spec hspec => not_writes_of_flaw hflaw hspec⟩, rfl, hflaw⟩
  · rintro ⟨part, ⟨before, after, specs, htext, hbefore, hcommas, hblank, -⟩, hfault, hflaw⟩
    rw [parseList_eq, htext, parseParts_intercalate
      (List.forall_mem_append.mpr ⟨hbefore.comma_not_mem, hcommas⟩),
      parseParts_of_flaw hbefore hblank hflaw after, ← hfault]

/-- Reading a list undoes writing it, with whatever blanks and blank parts; what is not written so
is refused for its first part that is neither blank nor a component; and texts with a comma between
them are read one after the other. -/
theorem parseList_undoes_writing (text : String) :
    (∀ specs, parseList text = .ok specs ↔
      ∃ parts, Listed parts specs ∧ text.toList = [','].intercalate parts) ∧
    ((∃ fault, parseList text = .error fault) ↔ ∃ part, FirstUnlisted text.toList part) ∧
    (∀ fault, parseList text = .error fault ↔
      ∃ part, FirstUnlisted text.toList part ∧ fault.text = String.ofList part ∧
        Flaw part fault.problem) ∧
    ∀ more, parseList (text ++ "," ++ more) = do
      let specs ← parseList text
      let specs' ← parseList more
      return specs ++ specs' := by
  refine ⟨fun specs => parseList_eq_ok_iff, ⟨?_, ?_⟩, fun fault => parseList_eq_error_iff, ?_⟩
  · rintro ⟨fault, h⟩
    obtain ⟨part, hfirst, -⟩ := parseList_eq_error_iff.mp h
    exact ⟨part, hfirst⟩
  · rintro ⟨part, hfirst⟩
    obtain ⟨problem, hflaw⟩ := hfirst.exists_flaw
    exact ⟨⟨String.ofList part, problem⟩, parseList_eq_error_iff.mpr ⟨part, hfirst, rfl, hflaw⟩⟩
  · intro more
    have hchars : (text ++ "," ++ more).toList = text.toList ++ ',' :: more.toList := by simp
    rw [parseList_eq, hchars, Text.pieces_append_cons, parseParts_append]
    rfl

/-- Blanks and blank parts fall away, and a path may hold what divides it from its name. -/
example : parseList " Card = a b=c.lua ,\t,,_x1=/d" =
    .ok [⟨"Card", "a b=c.lua"⟩, ⟨"_x1", "/d"⟩] := by
  decide +kernel

end ComponentSpec

end Server

end Pagewright
