import Pagewright.Proofs.Answers

/-! Two computations side by side: the second may give up, and until it does both come to the same and
leave a confined store. Statements about runs are put together from these. -/
namespace Pagewright.Script

variable {α β : Type} {g : Globals} {w : Set Nat}

/-- How a computation ends: what holds of the store and of its value. Errors carry visible values. -/
def Ends (g : Globals) (w : Set Nat) (Q : α → Prop) : EStateM.Result Stop Store α → Prop
  | .ok a s => Confined g w s ∧ Q a
  | .error (.raised v) s => Confined g w s ∧ v.Within w
  | .error (.fault _) s => Confined g w s
  | .error .exhausted _ => True

def storeOf : EStateM.Result Stop Store α → Store
  | .ok _ s => s
  | .error _ s => s

def hasEnded : EStateM.Result Stop Store α → Bool
  | .error .exhausted _ => false
  | _ => true

theorem Ends.confined {Q : α → Prop} {r : EStateM.Result Stop Store α} (h : Ends g w Q r)
    (hended : hasEnded r) : Confined g w (storeOf r) := by
  cases r with
  | ok a s => exact h.1
  | error e s =>
      cases e with
      | raised v => exact h.1
      | fault f => exact h
      | exhausted => exact Bool.noConfusion hended

/-- Two results are one, unless the second gave up; afterwards more tables may be visible. -/
def Alike (g : Globals) (w : Set Nat) (r r' : EStateM.Result Stop Store α)
    (Q : Set Nat → α → Prop) : Prop :=
  (∃ s, r' = .error .exhausted s) ∨ r = r' ∧ ∃ w', w ⊆ w' ∧ Ends g w' (Q w') r'

def Agrees (g : Globals) (w : Set Nat) (e e' : Eval α) (Q : Set Nat → α → Prop) : Prop :=
  ∀ s, Confined g w s → Alike g w (e s) (e' s) Q

def Same (g : Globals) (w : Set Nat) (e e' : Eval α) (Q : α → Prop) : Prop :=
  Agrees g w e e' fun w' a => w' = w ∧ Q a

abbrev Keeps (g : Globals) (w : Set Nat) (e : Eval α) (Q : α → Prop) : Prop := Same g w e e Q

theorem Ends.mono {P Q : α → Prop} (hPQ : ∀ a, P a → Q a) {r : EStateM.Result Stop Store α}
    (h : Ends g w P r) : Ends g w Q r := by
  cases r with
  | ok a s => exact ⟨h.1, hPQ a h.2⟩
  | error e s =>
      cases e with
      | raised v => exact h
      | fault f => exact h
      | exhausted => trivial

theorem Alike.of_subset {w' : Set Nat} {r r' : EStateM.Result Stop Store α}
    {Q : Set Nat → α → Prop} (h : Alike g w' r r' Q) (hw : w ⊆ w') : Alike g w r r' Q :=
  h.imp_right fun ⟨heq, w'', hw', hends⟩ => ⟨heq, w'', hw.trans hw', hends⟩

theorem Agrees.mono {e e' : Eval α} {P Q : Set Nat → α → Prop} (h : Agrees g w e e' P)
    (hPQ : ∀ w', w ⊆ w' → ∀ a, P w' a → Q w' a) : Agrees g w e e' Q := by
  intro s hs
  refine (h s hs).imp_right fun ⟨heq, w', hw, hends⟩ => ⟨heq, w', hw, ?_⟩
  exact hends.mono (hPQ w' hw)

theorem Same.agrees {e e' : Eval α} {Q : Set Nat → α → Prop} (h : Same g w e e' (Q w)) :
    Agrees g w e e' Q :=
  Agrees.mono h fun _ _ _ ⟨hw, hQ⟩ => hw ▸ hQ

theorem Same.mono {e e' : Eval α} {P Q : α → Prop} (h : Same g w e e' P) (hPQ : ∀ a, P a → Q a) :
    Same g w e e' Q :=
  Agrees.mono h fun _ _ a hP => ⟨hP.1, hPQ a hP.2⟩

/-! One step after another. -/

theorem eval_bind (e : Eval α) (f : α → Eval β) (s : Store) :
    (e >>= f) s = match e s with
      | .ok a s' => f a s'
      | .error e s' => .error e s' := by
  change EStateM.bind e f s = _
  unfold EStateM.bind
  cases e s <;> rfl

theorem get_bind (f : Store → Eval β) (s : Store) : (get >>= f) s = f s s := rfl

theorem Agrees.bind {e e' : Eval α} {f f' : α → Eval β} {P : Set Nat → α → Prop}
    {Q : Set Nat → β → Prop} (he : Agrees g w e e' P)
    (hf : ∀ w', w ⊆ w' → ∀ a, P w' a → Agrees g w' (f a) (f' a) Q) :
    Agrees g w (e >>= f) (e' >>= f') Q := by
  intro s hs
  rw [eval_bind, eval_bind]
  rcases he s hs with ⟨s', hstop⟩ | ⟨heq, w', hw, hends⟩
  · exact Or.inl ⟨s', by rw [hstop]⟩
  · rw [heq]
    cases hr : e' s with
    | ok a s' =>
        rw [hr] at hends
        exact (hf w' hw a hends.2 s' hends.1).of_subset hw
    | error stop s' =>
        rw [hr] at hends
        cases stop with
        | raised v => exact Or.inr ⟨rfl, w', hw, hends⟩
        | fault f => exact Or.inr ⟨rfl, w', hw, hends⟩
        | exhausted => exact Or.inl ⟨s', rfl⟩

theorem Same.bindAgrees {e e' : Eval α} {f f' : α → Eval β} {P : α → Prop}
    {Q : Set Nat → β → Prop} (he : Same g w e e' P)
    (hf : ∀ a, P a → Agrees g w (f a) (f' a) Q) :
    Agrees g w (e >>= f) (e' >>= f') Q := by
  refine Agrees.bind he fun w' _ a ha => ?_
  obtain ⟨rfl, hP⟩ := ha
  exact hf a hP

theorem Same.bind {e e' : Eval α} {f f' : α → Eval β} {P : α → Prop} {Q : β → Prop}
    (he : Same g w e e' P) (hf : ∀ a, P a → Same g w (f a) (f' a) Q) :
    Same g w (e >>= f) (e' >>= f') Q :=
  he.bindAgrees hf

/-! The simplest computations. -/

theorem Same.pure {a : α} {Q : α → Prop} (ha : Q a) : Same g w (pure a) (pure a) Q :=
  fun _ hs => Or.inr ⟨rfl, w, subset_rfl, hs, rfl, ha⟩

theorem Same.fault (f : Fault) {Q : α → Prop} : Same g w (Eval.fault f) (Eval.fault f) Q :=
  fun _ hs => Or.inr ⟨rfl, w, subset_rfl, hs⟩

theorem Same.raise {v : Value} (hv : v.Within w) {Q : α → Prop} :
    Same g w (Eval.raise v) (Eval.raise v) Q :=
  fun _ hs => Or.inr ⟨rfl, w, subset_rfl, hs, hv⟩

theorem Agrees.pure {a : α} {Q : Set Nat → α → Prop} (ha : Q w a) :
    Agrees g w (pure a) (pure a) Q :=
  Same.agrees (.pure ha)

theorem Agrees.fault (f : Fault) {Q : Set Nat → α → Prop} :
    Agrees g w (Eval.fault f) (Eval.fault f) Q :=
  Same.agrees (.fault f)

theorem Same.get : Keeps g w get (Confined g w) :=
  fun _ hs => Or.inr ⟨rfl, w, subset_rfl, hs, rfl, hs⟩

theorem Keeps.onHeap {f : Heap → α × Heap} {Q : α → Prop}
    (h : ∀ s, Confined g w s → Confined g w { s with heap := (f s.heap).2 } ∧ Q (f s.heap).1) :
    Keeps g w (Eval.onHeap f) Q :=
  fun s hs => Or.inr ⟨rfl, w, subset_rfl, (h s hs).1, rfl, (h s hs).2⟩

theorem newTable_agrees {t : Table} (h : t.Within w) (hmeta : t.metatable = none) :
    Agrees g w (Eval.newTable t) (Eval.newTable t) Value.Within :=
  fun s hs => Or.inr ⟨rfl, insert s.heap.tables.size w, Set.subset_insert _ _,
    hs.newTable h hmeta, Set.mem_insert _ _⟩

theorem Same.map {e e' : Eval α} {P : α → Prop} {Q : β → Prop} (h : Same g w e e' P) (f : α → β)
    (hf : ∀ a, P a → Q (f a)) : Same g w (f <$> e) (f <$> e') Q := by
  rw [map_eq_pure_bind, map_eq_pure_bind]
  exact h.bind fun a ha => .pure (hf a ha)

theorem Same.discard {e e' : Eval α} {P : α → Prop} (h : Same g w e e' P) :
    Same g w (discard e) (discard e') fun _ => True :=
  h.map (fun _ => PUnit.unit) fun _ _ => trivial

theorem Same.ite {e₁ e₁' e₂ e₂' : Eval α} {Q : α → Prop} {c : Prop} [Decidable c]
    (h₁ : c → Same g w e₁ e₁' Q) (h₂ : ¬c → Same g w e₂ e₂' Q) :
    Same g w (if c then e₁ else e₂) (if c then e₁' else e₂') Q := by
  split
  · rename_i hc
    exact h₁ hc
  · rename_i hc
    exact h₂ hc

theorem Same.mapM {f f' : α → Eval β} {Q : β → Prop} {as : List α}
    (h : ∀ a ∈ as, Same g w (f a) (f' a) Q) :
    Same g w (as.mapM f) (as.mapM f') fun bs => ∀ b ∈ bs, Q b := by
  induction as with
  | nil =>
      rw [List.mapM_nil, List.mapM_nil]
      exact .pure fun _ hb => absurd hb List.not_mem_nil
  | cons a as ih =>
      obtain ⟨ha, has⟩ := List.forall_mem_cons.mp h
      rw [List.mapM_cons, List.mapM_cons]
      exact ha.bind fun b hb => (ih has).bind fun bs hbs =>
        .pure (List.forall_mem_cons.mpr ⟨hb, hbs⟩)

theorem Same.foldlM {f f' : β → α → Eval β} {Q : β → Prop} {as : List α}
    (h : ∀ a ∈ as, ∀ b, Q b → Same g w (f b a) (f' b a) Q) {b : β} (hb : Q b) :
    Same g w (as.foldlM f b) (as.foldlM f' b) Q := by
  induction as generalizing b with
  | nil => exact .pure hb
  | cons a as ih =>
      obtain ⟨ha, has⟩ := List.forall_mem_cons.mp h
      rw [List.foldlM_cons, List.foldlM_cons]
      exact (ha b hb).bind fun b hb => ih has hb

theorem Same.forIn {f f' : α → PUnit → Eval (ForInStep PUnit)} {as : List α}
    (h : ∀ a ∈ as, Same g w (f a ⟨⟩) (f' a ⟨⟩) (· = .yield ⟨⟩)) :
    Same g w (forIn as ⟨⟩ f) (forIn as ⟨⟩ f') fun _ => True := by
  induction as with
  | nil =>
      rw [List.forIn_nil, List.forIn_nil]
      exact .pure trivial
  | cons a as ih =>
      obtain ⟨ha, has⟩ := List.forall_mem_cons.mp h
      rw [List.forIn_cons, List.forIn_cons]
      refine ha.bind fun r hr => ?_
      subst hr
      exact ih has

theorem Agrees.forIn {f f' : α → PUnit → Eval (ForInStep PUnit)} {as : List α}
    (h : ∀ w', w ⊆ w' → ∀ a ∈ as, Agrees g w' (f a ⟨⟩) (f' a ⟨⟩) fun _ r => r = .yield ⟨⟩) :
    Agrees g w (forIn as ⟨⟩ f) (forIn as ⟨⟩ f') fun _ _ => True := by
  induction as generalizing w with
  | nil =>
      rw [List.forIn_nil, List.forIn_nil]
      exact .pure trivial
  | cons a as ih =>
      rw [List.forIn_cons, List.forIn_cons]
      refine (h w subset_rfl a List.mem_cons_self).bind fun w₁ hw₁ r hr => ?_
      subst hr
      exact ih fun w₂ hw₂ b hb => h w₂ (hw₁.trans hw₂) b (List.mem_cons_of_mem a hb)

end Pagewright.Script
