import Pagewright.Proofs.LibraryArguments

/-! Library functions for texts in a confined store. -/
namespace Pagewright.Script.Library

variable {g : Globals} {w : Set Nat} {call call' : Callback}

theorem utf8_keeps (f : Utf8Function) (args : List Value) :
    Keeps g w (utf8 f args) (AllWithin w) := by
  cases f with
  | char =>
      refine Same.bind (P := fun _ => True) ?_ fun _ _ => .pure (.one trivial)
      refine (Same.mapM (Q := fun _ => True) fun i _ => ?_).mono fun _ _ => trivial
      exact (integerArg_keeps _ args i).bind fun c _ =>
        Same.ite (fun _ => .pure trivial) fun _ => bad_keeps _ i _
  | codepoint =>
      refine (bytesArg_keeps _ args 0).bind fun s _ => (integerOr_keeps _ args 1 _).bind fun i _ => ?_
      refine (integerOr_keeps _ args 2 _).bind fun j _ => Same.ite (fun _ => bad_keeps _ 1 _) fun _ =>
        Same.ite (fun _ => bad_keeps _ 2 _) fun _ => ?_
      split
      · exact .pure (allWithin_map (f := fun p : Nat => ofInt p) (fun _ => trivial) _)
      · exact Same.fault _
  | codes =>
      refine (bytesArg_keeps _ args 0).bind fun s _ => Same.ite (fun _ => bad_keeps _ 0 _) fun _ => ?_
      exact .pure (allWithin_cons.mpr ⟨trivial, allWithin_cons.mpr ⟨trivial, .one trivial⟩⟩)
  | codesStep =>
      refine (bytesArg_keeps _ args 0).bind fun s _ => (integerArg_keeps _ args 1).bind fun i _ => ?_
      dsimp only
      split
      · exact .pure (.one trivial)
      · split
        · exact Same.ite (fun _ => Same.fault _) fun _ =>
            .pure (allWithin_cons.mpr ⟨trivial, .one trivial⟩)
        · exact Same.fault _
  | len =>
      refine (bytesArg_keeps _ args 0).bind fun s _ => (integerOr_keeps _ args 1 _).bind fun i _ => ?_
      refine (integerOr_keeps _ args 2 _).bind fun j _ => Same.ite (fun _ => bad_keeps _ 1 _) fun _ =>
        Same.ite (fun _ => bad_keeps _ 2 _) fun _ => ?_
      split
      · exact .pure (.one trivial)
      · exact .pure (allWithin_cons.mpr ⟨trivial, .one trivial⟩)
  | offset =>
      refine (bytesArg_keeps _ args 0).bind fun s _ => (integerArg_keeps _ args 1).bind fun n _ => ?_
      refine (integerOr_keeps _ args 2 _).bind fun i _ => Same.ite (fun _ => bad_keeps _ 2 _) fun _ =>
        Same.ite (fun _ => Same.fault _) fun _ => .pure (.one (getD_within fun v hv => ?_))
      obtain ⟨p, -, rfl⟩ := Option.map_eq_some_iff.mp hv
      trivial

private theorem captured_within {m : Pattern.Matcher} {s e : Nat} {caps : Array Pattern.Capture}
    {i : Nat} {v : Value} (h : Pattern.captured m s e caps i = .ok v) : v.Within w := by
  unfold Pattern.captured at h
  split at h
  · exact Except.ok.inj h ▸ trivial
  · exact Except.ok.inj h ▸ trivial
  · cases h
  · split at h
    · exact Except.ok.inj h ▸ trivial
    · cases h

theorem mapM_ok {α β ε : Type} {f : α → Except ε β} {as : List α} {bs : List β}
    (h : as.mapM f = .ok bs) : ∀ b ∈ bs, ∃ a ∈ as, f a = .ok b := by
  induction as generalizing bs with
  | nil =>
      rw [List.mapM_nil] at h
      exact Except.ok.inj h ▸ fun b hb => absurd hb List.not_mem_nil
  | cons a as ih =>
      rw [List.mapM_cons] at h
      cases hfirst : f a with
      | error e =>
          rw [hfirst] at h
          cases h
      | ok b =>
          cases hrest : as.mapM f with
          | error e =>
              rw [hfirst, hrest] at h
              cases h
          | ok rest =>
              rw [hfirst, hrest] at h
              obtain rfl := Except.ok.inj h
              refine List.forall_mem_cons.mpr ⟨⟨a, List.mem_cons_self, hfirst⟩, fun b' hb' => ?_⟩
              obtain ⟨a', ha', heq⟩ := ih hrest b' hb'
              exact ⟨a', List.mem_cons_of_mem _ ha', heq⟩

private theorem captures_within {m : Pattern.Matcher} {s e : Nat} {caps : Array Pattern.Capture}
    {vs : List Value} (h : Pattern.captures m s e caps = .ok vs) : AllWithin w vs := by
  intro v hv
  obtain ⟨i, -, hi⟩ := mapM_ok h v hv
  exact captured_within hi

theorem captures_keeps (m : Pattern.Matcher) (s e : Nat) (caps : Array Pattern.Capture) :
    Keeps g w (lift (Pattern.captures m s e caps)) (AllWithin w) :=
  lift_keeps fun _ hvs => captures_within hvs

theorem find_keeps (f : StringFunction) (args : List Value) :
    Keeps g w (find f args) (AllWithin w) := by
  refine (bytesArg_keeps _ args 0).bind fun s _ => (bytesArg_keeps _ args 1).bind fun p _ => ?_
  refine (integerOr_keeps _ args 2 _).bind fun i _ => Same.ite (fun _ => .pure (.one trivial)) fun _ =>
    Same.ite (fun _ => ?_) fun _ => ?_
  · split
    · exact .pure (allWithin_cons.mpr ⟨trivial, .one trivial⟩)
    · exact .pure (.one trivial)
  · refine (lift_keeps (Q := fun _ => True) fun _ _ => trivial).bind fun found _ => ?_
    split
    · exact .pure (.one trivial)
    · refine Same.ite (fun _ => ?_) fun _ => captures_keeps _ _ _ _
      have hplaced {i e : Int} (vs : List Value) (hvs : AllWithin w vs) :
          Keeps g w (pure (ofInt i :: ofInt e :: vs)) (AllWithin w) :=
        .pure (allWithin_cons.mpr ⟨trivial, allWithin_cons.mpr ⟨trivial, hvs⟩⟩)
      exact Same.ite (fun _ => (Same.pure allWithin_nil).bind hplaced) fun _ =>
        (captures_keeps _ _ _ _).bind hplaced

theorem matchesStep_keeps (generator : Nat) (subject pattern : Bytes) (position : Nat)
    (last : Option Nat) :
    Keeps g w (matchesStep generator subject pattern position last) (AllWithin w) := by
  refine (lift_keeps (Q := fun _ => True) fun _ _ => trivial).bind fun found _ => ?_
  split
  · exact .pure allWithin_nil
  · refine Same.bind (P := fun _ => True) ?_ fun _ _ => captures_keeps _ _ _ _
    exact Keeps.onHeap fun s hs =>
      ⟨hs.setGenerator _ _, trivial⟩

private theorem apply_same {args : List Value} (h : AllWithin w args) (i : Nat)
    (d : Format.Directive) :
    Same g w (Format.apply call args i d) (Format.apply call' args i d) fun _ => True := by
  have hrequire (ok : Bool) :
      Keeps g w (if ok then pure () else Eval.fault (.format ("invalid conversion '%" ++
        d.written.toText ++ "' to 'format'"))) fun _ => True :=
    Same.ite (fun _ => .pure trivial) fun _ => Same.fault _
  have hinteger {ok : Bool} {f : Int → Bytes} :=
    (integerArg_keeps (g := g) (w := w) (.string .format) args i).bind fun n _ =>
      (hrequire ok).bind fun _ _ => Same.pure (a := f n) (Q := fun _ => True) trivial
  have hfloat {ok : Bool} {f : Double → Bytes} :=
    (floatArg_keeps (g := g) (w := w) (.string .format) args i).bind fun x _ =>
      (hrequire ok).bind fun _ _ => Same.pure (a := f x) (Q := fun _ => True) trivial
  refine Same.ite (fun _ => bad_keeps _ i _) fun _ => ?_
  split
  case h_16 =>
    refine Same.ite (fun _ => Same.fault _) fun _ => ?_
    split
    · exact .pure trivial
    · exact bad_keeps _ i _
  case h_17 =>
    refine (textOf_same (optArg_within h i)).bind fun s _ =>
      Same.ite (fun _ => .pure trivial) fun _ => ?_
    have hfilled {ok : Bool} {c : Prop} [Decidable c] {b b' : Bytes} :=
      (hrequire ok).bind fun _ _ => Same.ite (c := c)
        (fun _ => Same.pure (g := g) (w := w) (a := b) (Q := fun _ => True) trivial)
        fun _ => Same.pure (a := b') trivial
    exact Same.ite (fun _ => (bad_keeps (Q := fun _ => True) _ i _).bind fun _ _ => hfilled)
      fun _ => hfilled
  case h_18 => exact (hrequire false).bind fun _ _ => .pure trivial
  all_goals first
    | exact hinteger
    | exact hfloat

private theorem write_same {args : List Value} (h : AllWithin w args) (fuel i : Nat)
    (out bs : Bytes) :
    Same g w (Format.write call args fuel i out bs) (Format.write call' args fuel i out bs)
      fun _ => True := by
  induction fuel generalizing i out bs with
  | zero => exact .pure trivial
  | succ fuel ih =>
      unfold Format.write
      split
      · exact .pure trivial
      · exact ih i _ _
      · split
        · exact (apply_same h (i + 1) _).bind fun _ _ => ih (i + 1) _ _
        · exact Same.fault _
      · exact ih i _ _

theorem replacementText_keeps (whole : Bytes) (v : Value) :
    Keeps g w (replacementText whole v) fun _ => True := by
  unfold replacementText
  refine Same.ite (fun _ => .pure trivial) fun _ => ?_
  split
  · exact .pure trivial
  · exact Same.fault _

private theorem replacement_agrees (hcall : CallsAgree g call call') {substitute : Value}
    (h : substitute.Within w) (m : Pattern.Matcher) (s e : Nat) (caps : Array Pattern.Capture) :
    Agrees g w (replacement call substitute m s e caps)
      (replacement call' substitute m s e caps) fun _ _ => True := by
  unfold replacement
  dsimp only
  split
  · refine Same.agrees ?_
    exact (lift_keeps (Q := fun _ => True) fun _ _ => trivial).bind fun key _ =>
      (getField_any h key).bind fun v _ => replacementText_keeps _ v
  · refine Same.agrees ?_
    exact (lift_keeps (Q := fun _ => True) fun _ _ => trivial).bind fun t _ =>
      replacementText_keeps (m.subject.extract s e).toList (.string t)
  · refine (captures_keeps m s e caps).bindAgrees fun vs hvs => (hcall h hvs).bind fun w' _ rs _ => ?_
    exact (replacementText_keeps _ (rs.headD .nil)).agrees

private theorem replaceFrom_agrees (hcall : CallsAgree g call call') {substitute : Value}
    (h : substitute.Within w) (m : Pattern.Matcher) (anchored : Bool) (most fuel s : Nat)
    (last : Option Nat) (n : Nat) (out : Bytes) :
    Agrees g w (replaceFrom call substitute m anchored most fuel s last n out)
      (replaceFrom call' substitute m anchored most fuel s last n out) fun _ _ => True := by
  induction fuel generalizing w s last n out with
  | zero => exact .pure trivial
  | succ fuel ih =>
      unfold replaceFrom
      dsimp only
      split
      · exact .pure trivial
      · refine (lift_keeps (Q := fun _ => True) fun _ _ => trivial).bindAgrees fun found _ => ?_
        split
        · refine (replacement_agrees hcall h m s _ _).bind fun w' hw t _ => ?_
          split
          · exact .pure trivial
          · exact ih (h.mono hw) _ _ _ _
        · split
          · split
            · exact .pure trivial
            · exact ih h _ _ _ _
          · exact .pure trivial

private theorem replaceAll_agrees (hcall : CallsAgree g call call') (args : List Value)
    (s p : Bytes) {substitute : Value} (h : substitute.Within w) :
    Agrees g w (replaceAll call args s p substitute)
      (replaceAll call' args s p substitute) AllWithin := by
  refine (integerOr_keeps _ args 3 _).bindAgrees fun most _ => ?_
  refine (replaceFrom_agrees hcall h _ _ _ _ _ _ _ _).bind fun w' _ r _ => ?_
  exact .pure (allWithin_cons.mpr ⟨trivial, .one trivial⟩)

private theorem gsub_agrees (hcall : CallsAgree g call call') {args : List Value}
    (h : AllWithin w args) :
    Agrees g w (gsub call args) (gsub call' args) AllWithin := by
  refine (bytesArg_keeps _ args 0).bindAgrees fun s _ =>
    (bytesArg_keeps _ args 1).bindAgrees fun p _ => ?_
  have hrest (substitute : Value) (hsubstitute : substitute.Within w) :=
    replaceAll_agrees hcall args s p hsubstitute
  have hbad (reason : String) : Keeps g w (bad (.string .gsub) 2 reason) (Value.Within w) :=
    bad_keeps _ 2 reason
  dsimp only [arg?]
  split
  · rename_i r hr
    exact (Same.pure (h _ (List.mem_of_getElem? hr))).bindAgrees hrest
  · rename_i v _ hv
    split
    · exact (Same.pure (h v (List.mem_of_getElem? hv))).bindAgrees hrest
    · split
      · exact (Same.pure trivial).bindAgrees hrest
      · exact (hbad _).bindAgrees hrest
  · exact (hbad _).bindAgrees hrest

private theorem rep_keeps (args : List Value) : Keeps g w (rep args) (AllWithin w) :=
  (bytesArg_keeps _ args 0).bind fun _ _ => (integerArg_keeps _ args 1).bind fun _ _ =>
    (bytesOr_keeps _ args 2 []).bind fun _ _ => Same.ite (fun _ => .pure (.one trivial)) fun _ =>
      Same.ite (fun _ => Same.fault _) fun _ => .pure (.one trivial)

theorem string_agrees (hcall : CallsAgree g call call') (f : StringFunction) {args : List Value}
    (h : AllWithin w args) :
    Agrees g w (string call f args) (string call' f args) AllWithin := by
  cases f with
  | byte =>
      exact Same.agrees ((bytesArg_keeps _ args 0).bind fun s _ =>
        (integerOr_keeps _ args 1 _).bind fun i _ => (integerOr_keeps _ args 2 _).bind fun j _ =>
          .pure (allWithin_map (f := fun c : UInt8 => ofInt c.toNat) (fun _ => trivial) _))
  | char =>
      refine Same.agrees (Same.bind (P := fun _ => True) ?_ fun _ _ => .pure (.one trivial))
      refine (Same.mapM (Q := fun _ => True) fun i _ => ?_).mono fun _ _ => trivial
      exact (integerArg_keeps _ args i).bind fun c _ =>
        Same.ite (fun _ => .pure trivial) fun _ => bad_keeps _ i _
  | find => exact (find_keeps _ args).agrees
  | format =>
      exact Same.agrees ((bytesArg_keeps _ args 0).bind fun s _ =>
        (write_same h _ _ _ _).bind fun _ _ => .pure (.one trivial))
  | gmatch =>
      refine Same.agrees ((bytesArg_keeps _ args 0).bind fun s _ =>
        (bytesArg_keeps _ args 1).bind fun p _ => (integerOr_keeps _ args 2 _).bind fun i _ => ?_)
      refine Same.bind (P := fun _ => True) ?_ fun _ _ => .pure (.one trivial)
      exact Keeps.onHeap fun s hs =>
        ⟨hs.newGenerator _, trivial⟩
  | gsub => exact gsub_agrees hcall h
  | len => exact ((bytesArg_keeps _ args 0).bind fun _ _ => .pure (.one trivial)).agrees
  | lower => exact ((bytesArg_keeps _ args 0).bind fun _ _ => .pure (.one trivial)).agrees
  | «match» => exact (find_keeps _ args).agrees
  | rep => exact (rep_keeps args).agrees
  | reverse => exact ((bytesArg_keeps _ args 0).bind fun _ _ => .pure (.one trivial)).agrees
  | sub =>
      exact Same.agrees ((bytesArg_keeps _ args 0).bind fun s _ =>
        (integerArg_keeps _ args 1).bind fun i _ => (integerOr_keeps _ args 2 _).bind fun j _ =>
          .pure (.one trivial))
  | upper => exact ((bytesArg_keeps _ args 0).bind fun _ _ => .pure (.one trivial)).agrees

end Pagewright.Script.Library
