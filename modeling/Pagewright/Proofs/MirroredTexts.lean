import Pagewright.Proofs.MirroredArguments
import Pagewright.Proofs.TextCalls

/-! Library functions for texts on a store and on its mirror. Texts have no place. -/
namespace Pagewright.Script.Library

variable {π : Nat ↪ Nat} {call call' : Callback} {args : List Value}

theorem utf8_mirrored (f : Utf8Function) (args : List Value) :
    Mirrored π (List.map (·.moved π)) (utf8 f args) (utf8 f (args.map (·.moved π))) := by
  cases f with
  | char =>
    unfold utf8
    dsimp only
    rw [List.length_map]
    refine (Mirrored.mapM (n := fun p => p) fun i => ?_).bind fun ps => .pure ?_
    · exact (integerArg_agreed _ args i).bind fun c => .ite (.pure rfl) (bad_mirrored _ i _)
    · rw [List.map_id']
      rfl
  | codepoint =>
    refine (bytesArg_agreed _ args 0).bind fun s => (integerOr_agreed _ args 1 _).bind fun i => ?_
    refine (integerOr_agreed _ args 2 _).bind fun j => .ite (bad_mirrored _ 1 _) <|
      .ite (bad_mirrored _ 2 _) ?_
    rw [optArg_moved, Value.truthy_moved]
    split
    · exact .pure (by rw [List.map_map]; rfl)
    · exact .fault _
  | codes =>
    exact (bytesArg_agreed _ args 0).bind fun s => .ite (bad_mirrored _ 0 _) (.pure rfl)
  | codesStep =>
    refine (bytesArg_agreed _ args 0).bind fun s => (integerArg_agreed _ args 1).bind fun i => ?_
    dsimp only
    split
    · exact .pure rfl
    · split
      · exact .ite (.fault _) (.pure rfl)
      · exact .fault _
  | len =>
    refine (bytesArg_agreed _ args 0).bind fun s => (integerOr_agreed _ args 1 _).bind fun i => ?_
    refine (integerOr_agreed _ args 2 _).bind fun j => .ite (bad_mirrored _ 1 _) <|
      .ite (bad_mirrored _ 2 _) ?_
    rw [optArg_moved, Value.truthy_moved]
    split <;> exact .pure rfl
  | offset =>
    refine (bytesArg_agreed _ args 0).bind fun s => (integerArg_agreed _ args 1).bind fun n => ?_
    refine (integerOr_agreed _ args 2 _).bind fun i => .ite (bad_mirrored _ 2 _) <|
      .ite (.fault _) (.pure ?_)
    generalize (if n = 0 then _ else _ : Option Int) = found
    cases found <;> rfl

/-! ### Matches -/

theorem captured_moved {m : Pattern.Matcher} {s e : Nat} {caps : Array Pattern.Capture} {i : Nat}
    {v : Value} (h : Pattern.captured m s e caps i = .ok v) : v.moved π = v := by
  unfold Pattern.captured at h
  split at h
  · exact Except.ok.inj h ▸ rfl
  · exact Except.ok.inj h ▸ rfl
  · cases h
  · split at h
    · exact Except.ok.inj h ▸ rfl
    · cases h

private theorem captures_moved {m : Pattern.Matcher} {s e : Nat} {caps : Array Pattern.Capture}
    {vs : List Value} (h : Pattern.captures m s e caps = .ok vs) : vs.map (·.moved π) = vs := by
  refine List.map_congr_left (g := id) (fun v hv => ?_) |>.trans vs.map_id
  obtain ⟨i, -, hi⟩ := mapM_ok h v hv
  exact captured_moved hi

theorem captures_mirrored (m : Pattern.Matcher) (s e : Nat) (caps : Array Pattern.Capture) :
    Mirrored π (List.map (·.moved π)) (lift (Pattern.captures m s e caps))
      (lift (Pattern.captures m s e caps)) :=
  lift_mirrored fun _ hvs => captures_moved hvs

theorem find_mirrored (f : StringFunction) (args : List Value) :
    Mirrored π (List.map (·.moved π)) (find f args) (find f (args.map (·.moved π))) := by
  refine (bytesArg_agreed _ args 0).bind fun s => (bytesArg_agreed _ args 1).bind fun p => ?_
  refine (integerOr_agreed _ args 2 _).bind fun i => .ite (.pure rfl) ?_
  rw [optArg_moved, Value.truthy_moved]
  refine .ite ?_ ?_
  · split <;> exact .pure rfl
  · refine (lift_mirrored (m := id) fun _ _ => rfl).bind fun found => ?_
    dsimp only [id]
    split
    · exact .pure rfl
    · refine .ite ?_ (captures_mirrored _ _ _ _)
      exact .ite (.pure rfl) ((captures_mirrored _ _ _ _).bind fun vs => .pure rfl)

theorem matchesStep_mirrored (generator : Nat) (subject pattern : Bytes) (position : Nat)
    (last : Option Nat) :
    Mirrored π (List.map (·.moved π)) (matchesStep generator subject pattern position last)
      (matchesStep generator subject pattern position last) := by
  refine (lift_mirrored (m := id) fun _ _ => rfl).bind fun found => ?_
  dsimp only [id]
  split
  · exact .pure rfl
  · exact Mirrored.bind (m := id)
      (.onHeap fun _ _ _ hh => ⟨rfl, hh.setGenerator generator _⟩)
      fun _ => captures_mirrored _ _ _ _

/-! ### Formats -/

@[simp] private theorem literal?_moved (v : Value) :
    Format.literal? (v.moved π) = Format.literal? v := by
  cases v <;> rfl

private theorem apply_agreed (hcall : CallsMirrored π call call') (args : List Value) (i : Nat)
    (d : Format.Directive) :
    Agreed π (Format.apply call args i d) (Format.apply call' (args.map (·.moved π)) i d) := by
  have hrequire (ok : Bool) :
      Agreed π (if ok then pure () else Eval.fault (.format ("invalid conversion '%" ++
          d.written.toText ++ "' to 'format'")))
        (if ok then pure () else Eval.fault (.format ("invalid conversion '%" ++
          d.written.toText ++ "' to 'format'"))) :=
    .ite (.pure rfl) (.fault _)
  have hinteger {ok : Bool} {f : Int → Bytes} :=
    (integerArg_agreed (π := π) (.string .format) args i).bind fun n =>
      (hrequire ok).bind fun _ => .pure (m := fun a => a) (a := f n) rfl
  have hfloat {ok : Bool} {f : Double → Bytes} :=
    (floatArg_agreed (π := π) (.string .format) args i).bind fun x =>
      (hrequire ok).bind fun _ => .pure (m := fun a => a) (a := f x) rfl
  have hgiven : (arg? (args.map (·.moved π)) i).isNone = (arg? args i).isNone := by
    rw [arg?_moved, Option.isNone_map]
  unfold Format.apply
  dsimp only
  rw [hgiven]
  refine .ite (bad_mirrored _ i _) ?_
  split
  case h_16 =>
    rw [optArg_moved, literal?_moved]
    refine .ite (.fault _) ?_
    split
    · exact .pure rfl
    · exact bad_mirrored _ i _
  case h_17 =>
    rw [optArg_moved]
    refine (textOf_agreed hcall _).bind fun s => .ite (.pure rfl) ?_
    have hfilled {ok : Bool} {c : Prop} [Decidable c] {b b' : Bytes} :=
      (hrequire ok).bind fun _ => Mirrored.ite (π := π) (m := fun a => a) (c := c)
        (.pure (a := b) rfl) (.pure (a := b') rfl)
    exact .ite ((bad_mirrored (m := fun a => a) _ i _).bind fun _ => hfilled) hfilled
  case h_18 => exact (hrequire false).bind fun _ => .pure rfl
  all_goals first
    | exact hinteger
    | exact hfloat

private theorem write_agreed (hcall : CallsMirrored π call call') (args : List Value) (fuel i : Nat)
    (out bs : Bytes) :
    Agreed π (Format.write call args fuel i out bs)
      (Format.write call' (args.map (·.moved π)) fuel i out bs) := by
  induction fuel generalizing i out bs with
  | zero => exact .pure rfl
  | succ fuel ih =>
    unfold Format.write
    split
    · exact .pure rfl
    · exact ih i _ _
    · split
      · exact (apply_agreed hcall args (i + 1) _).bind fun s => ih (i + 1) _ _
      · exact .fault _
    · exact ih i _ _

/-! ### Replacements -/

theorem replacementText_agreed (whole : Bytes) (v : Value) :
    Agreed π (replacementText whole v) (replacementText whole (v.moved π)) := by
  unfold replacementText
  rw [v.truthy_moved, v.toBytes?_moved, v.typeName_moved]
  refine .ite (.pure rfl) ?_
  split
  · exact .pure rfl
  · exact .fault _

private theorem replacement_agreed (hcall : CallsMirrored π call call') (substitute : Value)
    (m : Pattern.Matcher) (s e : Nat) (caps : Array Pattern.Capture) :
    Agreed π (replacement call substitute m s e caps)
      (replacement call' (substitute.moved π) m s e caps) := by
  have hwritten (rs : List Value) :
      Agreed π (replacementText (m.subject.extract s e).toList (rs.headD .nil))
        (replacementText (m.subject.extract s e).toList ((rs.map (·.moved π)).headD .nil)) := by
    rw [Value.headD_map_moved]
    exact replacementText_agreed _ _
  cases substitute with
  | table r =>
    exact (lift_mirrored fun _ hkey => captured_moved hkey).bind fun key =>
      (getField_mirrored hcall (.table r) key).bind fun v => replacementText_agreed _ v
  | string t =>
    exact (lift_mirrored (m := id) fun _ _ => rfl).bind fun t =>
      replacementText_agreed (m.subject.extract s e).toList (.string t)
  | _ =>
    exact (captures_mirrored m s e caps).bind fun vs => (hcall _ vs).bind fun rs => hwritten rs

private theorem replaceFrom_agreed (hcall : CallsMirrored π call call') (substitute : Value)
    (m : Pattern.Matcher) (anchored : Bool) (most fuel s : Nat) (last : Option Nat) (n : Nat)
    (out : Bytes) :
    Agreed π (replaceFrom call substitute m anchored most fuel s last n out)
      (replaceFrom call' (substitute.moved π) m anchored most fuel s last n out) := by
  induction fuel generalizing s last n out with
  | zero => exact .pure rfl
  | succ fuel ih =>
    unfold replaceFrom
    refine .ite (.pure rfl) ?_
    refine (lift_mirrored (m := id) fun _ _ => rfl).bind fun found => ?_
    dsimp only [id]
    split
    · exact (replacement_agreed hcall substitute m s _ _).bind fun t =>
        .ite (.pure rfl) (ih _ _ _ _)
    · split
      · exact .ite (.pure rfl) (ih _ _ _ _)
      · exact .pure rfl

private theorem gsub_mirrored (hcall : CallsMirrored π call call') (args : List Value) :
    Mirrored π (List.map (·.moved π)) (gsub call args) (gsub call' (args.map (·.moved π))) := by
  refine (bytesArg_agreed _ args 0).bind fun s => (bytesArg_agreed _ args 1).bind fun p => ?_
  have hrest (substitute : Value) :
      Mirrored π (List.map (·.moved π)) (replaceAll call args s p substitute)
        (replaceAll call' (args.map (·.moved π)) s p (substitute.moved π)) :=
    (integerOr_agreed _ args 3 _).bind fun most =>
      (replaceFrom_agreed hcall substitute _ _ _ _ _ _ _ _).bind fun r => .pure rfl
  have hbad (reason : String) :
      Mirrored π (·.moved π) (bad (α := Value) (.string .gsub) 2 reason)
        (bad (.string .gsub) 2 reason) :=
    bad_mirrored _ 2 reason
  dsimp only
  rw [arg?_moved, given_moved]
  cases arg? args 2 with
  | none => exact (hbad _).bind hrest
  | some v =>
    have hgiven (v : Value) := (Mirrored.pure (m := (·.moved π)) (a := v) rfl).bind hrest
    cases v with
    | table r => exact hgiven (.table r)
    | closure r => exact hgiven (.closure r)
    | builtin f => exact hgiven (.builtin f)
    | generator r => exact hgiven (.generator r)
    | string t => exact hgiven (.string t)
    | integer i => exact hgiven (.string _)
    | float d => exact hgiven (.string _)
    | _ => exact (hbad _).bind hrest

private theorem rep_mirrored (args : List Value) :
    Mirrored π (List.map (·.moved π)) (rep args) (rep (args.map (·.moved π))) :=
  (bytesArg_agreed _ args 0).bind fun _ => (integerArg_agreed _ args 1).bind fun _ =>
    (bytesOr_agreed _ args 2 []).bind fun _ => .ite (.pure rfl) (.ite (.fault _) (.pure rfl))

theorem string_mirrored (hcall : CallsMirrored π call call') (f : StringFunction)
    (args : List Value) :
    Mirrored π (List.map (·.moved π)) (string call f args)
      (string call' f (args.map (·.moved π))) := by
  have hfirst := bytesArg_agreed (π := π) (.string f) args 0
  cases f with
  | byte =>
    exact hfirst.bind fun s => (integerOr_agreed _ args 1 _).bind fun i =>
      (integerOr_agreed _ args 2 _).bind fun j => .pure (by rw [List.map_map]; rfl)
  | char =>
    unfold string
    dsimp only
    rw [List.length_map]
    refine (Mirrored.mapM (n := fun b => b) fun i => ?_).bind fun bs => .pure ?_
    · exact (integerArg_agreed _ args i).bind fun c => .ite (.pure rfl) (bad_mirrored _ i _)
    · rw [List.map_id']
      rfl
  | find => exact find_mirrored .find args
  | format => exact hfirst.bind fun s => (write_agreed hcall args _ _ _ _).bind fun t => .pure rfl
  | gmatch =>
    refine hfirst.bind fun s => (bytesArg_agreed _ args 1).bind fun p =>
      (integerOr_agreed _ args 2 _).bind fun i => ?_
    exact Mirrored.bind (m := fun r => r)
      (.onHeap fun _ _ _ hh => ⟨hh.newGenerator_fst _, hh.newGenerator _⟩) fun r => .pure rfl
  | gsub => exact gsub_mirrored hcall args
  | len => exact hfirst.bind fun s => .pure rfl
  | lower => exact hfirst.bind fun s => .pure rfl
  | «match» => exact find_mirrored .match args
  | rep => exact rep_mirrored args
  | reverse => exact hfirst.bind fun s => .pure rfl
  | sub =>
    exact hfirst.bind fun s => (integerArg_agreed _ args 1).bind fun i =>
      (integerOr_agreed _ args 2 _).bind fun j => .pure rfl
  | upper => exact hfirst.bind fun s => .pure rfl

end Pagewright.Script.Library
