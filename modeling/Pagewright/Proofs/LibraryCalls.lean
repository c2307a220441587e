import Pagewright.Proofs.TableCalls
import Pagewright.Proofs.TextCalls

/-! Library functions in a confined store. -/
namespace Pagewright.Script.Library

variable {g : Globals} {w : Set Nat} {call call' : Callback}

/-! Functions that are globals. -/

private theorem tonumber_keeps {args : List Value} (h : AllWithin w args) :
    Keeps g w (tonumber args) (AllWithin w) := by
  unfold tonumber
  dsimp only
  split
  · refine (anyArg_keeps _ h 0).bind fun v _ => ?_
    split
    · rename_i b _
      exact .pure (.one (getD_within fun n hn => toNumber?_within (v := .string b) hn))
    · exact .pure (.one (getD_within fun n hn => toNumber?_within hn))
  · refine (integerArg_keeps _ args 1).bind fun base _ => ?_
    split
    · split
      · exact bad_keeps _ 1 _
      · refine .pure (.one (getD_within fun n hn => ?_))
        obtain ⟨i, -, rfl⟩ := Option.map_eq_some_iff.mp hn
        trivial
    · exact bad_keeps _ 0 _

private theorem select_keeps {args : List Value} (h : AllWithin w args) :
    Keeps g w (select args) (AllWithin w) := by
  have hrest := h.drop 1
  unfold select
  dsimp only
  split
  · exact .pure (allWithin_cons.mpr ⟨trivial, allWithin_nil⟩)
  · refine (integerArg_keeps _ args 0).bind fun n _ => ?_
    split
    · exact .pure (hrest.drop _)
    · split
      · exact .pure (hrest.drop _)
      · exact bad_keeps _ 0 _

/-- What may not be applied if environments are to stay what they are. -/
def reachesEnvironments : Value → Bool
  | .builtin (.basic .load) | .builtin (.basic .getmetatable)
  | .builtin (.basic .setmetatable) => true
  | _ => false

private theorem basic_same {f : BasicFunction}
    (hf : reachesEnvironments (.builtin (.basic f)) = false)
    {args : List Value} (h : AllWithin w args)
    (hchanged : (changed (.basic f) args).Changeable w) :
    Same g w (basic call f args) (basic call' f args) (AllWithin w) := by
  have hpairs : Event.pairs ≠ Event.index := Event.ne_index (by simp)
  cases f with
  | load => cases hf
  | getmetatable => cases hf
  | setmetatable => cases hf
  | assert =>
      refine (anyArg_keeps _ h 0).bind fun v _ => ?_
      split
      · exact .pure h
      · refine Same.raise ?_
        rw [List.getD_eq_getElem?_getD]
        cases hv : args[1]? with
        | none => trivial
        | some v => exact h v (List.mem_of_getElem? hv)
  | collectgarbage => exact .pure (.one trivial)
  | ipairs =>
      exact (anyArg_keeps _ h 0).bind fun v hv =>
        .pure (allWithin_cons.mpr ⟨trivial, allWithin_cons.mpr ⟨hv, .one trivial⟩⟩)
  | ipairsStep =>
      refine (integerArg_keeps _ args 1).bind fun i _ => ?_
      refine (getField_same (optArg_within h 0) Value.noConfusion).bind fun v hv => ?_
      split
      · exact .pure (.one trivial)
      · exact .pure (allWithin_cons.mpr ⟨trivial, .one hv⟩)
  | next =>
      refine (tableArg_keeps _ (optArg_within h 0)).bind fun r hr => ?_
      refine (table_keeps hr).bind fun t ht => ?_
      split
      · exact Same.fault _
      · exact .pure (.one trivial)
      · rename_i k v hnext
        obtain ⟨hk, hv⟩ := ht.next? hnext
        exact .pure (allWithin_cons.mpr ⟨hk, .one hv⟩)
  | pairs =>
      refine (anyArg_keeps _ h 0).bind fun v hv => Same.get.bind fun s hs => ?_
      rw [hs.metamethod hv hpairs]
      exact .pure (allWithin_cons.mpr ⟨trivial, allWithin_cons.mpr ⟨hv, .one trivial⟩⟩)
  | print => exact .pure allWithin_nil
  | rawequal =>
      exact (anyArg_keeps _ h 0).bind fun x _ => (anyArg_keeps _ h 1).bind fun y _ =>
        .pure (.one trivial)
  | rawget =>
      refine (tableArg_keeps _ (optArg_within h 0)).bind fun r hr => ?_
      exact (anyArg_keeps _ h 1).bind fun k _ => (table_keeps hr).bind fun t ht =>
        .pure (.one (ht.get _))
  | rawlen =>
      unfold basic arg?
      dsimp only
      split
      · rename_i r hr
        exact (table_keeps (h _ (List.mem_of_getElem? hr))).bind fun t _ =>
          .pure (.one trivial)
      · exact .pure (.one trivial)
      · exact bad_keeps _ 0 _
  | rawset =>
      refine (tableArg_keeps _ hchanged).bind fun r hr => ?_
      refine (anyArg_keeps _ h 1).bind fun k hk => ?_
      refine (anyArg_keeps _ h 2).bind fun v hv => ?_
      refine (lift_keeps (Q := (·.Within w)) fun k' hk' => checkedKey_within hk hk').bind
        fun k' hk' => ?_
      exact fun s hs => Or.inr ⟨rfl, w, subset_rfl, hs.setField hr hk' hv, rfl, .one hr.1⟩
  | select => exact select_keeps h
  | tonumber => exact tonumber_keeps h
  | tostring =>
      exact (anyArg_keeps _ h 0).bind fun v hv => (textOf_same hv).bind fun _ _ =>
        .pure (.one trivial)
  | type => exact (anyArg_keeps _ h 0).bind fun v _ => .pure (.one trivial)

/-! Coroutines. -/

theorem threadArg_keeps (f : Builtin) (args : List Value) (i : Nat) :
    Keeps g w (threadArg f args i) fun _ => True := by
  unfold threadArg
  split
  · exact .pure trivial
  · exact bad_keeps f i _

private theorem toClose_within {frames : List Frame} (h : ∀ f ∈ frames, f.Within w) :
    AllWithin w (toClose frames) := by
  intro v hv
  obtain ⟨f, hf, hclose⟩ := List.mem_filterMap.mp hv
  have hwithin := h f hf
  split at hclose
  · exact Option.some.inj hclose ▸ hwithin
  · cases hclose

private theorem closeValue_same {v : Value} (h : v.Within w) :
    Same g w (closeValue call v) (closeValue call' v) fun _ => True := by
  have hevent : Event.close ≠ Event.index := Event.ne_index (by simp)
  refine Same.get.bind fun s hs => ?_
  rw [hs.metamethod h hevent]
  exact .pure trivial

private theorem closeThread_same (t : Nat) :
    Same g w (closeThread call t) (closeThread call' t) (AllWithin w) := by
  refine Same.get.bind fun s hs => ?_
  have hthread := hs.thread_within t
  have hloop {vs : List Value} (hvs : AllWithin w vs) :
      Same g w
        (do
          for v in vs do closeValue call v
          return [.boolean true])
        (do
          for v in vs do closeValue call' v
          return [.boolean true]) (AllWithin w) :=
    Same.bind (Same.forIn fun v hv => (closeValue_same (hvs v hv)).bind fun _ _ => .pure rfl)
      fun _ _ => .pure (.one trivial)
  have hdead (hne : s.heap.threads.getD t .dead ≠ .running) :
      Keeps g w (Eval.onHeap fun h => ((), h.setThread t .dead)) fun _ => True := by
    refine Keeps.onHeap fun s' hs' => ⟨?_, trivial⟩
    exact hs'.setThread (t := .dead) trivial (hs.ne_zero_of_not_running hne)
  cases hth : s.heap.threads.getD t .dead with
  | running => exact Same.fault _
  | fresh f => exact (hdead (by rw [hth]; exact Thread.noConfusion)).bind fun _ _ => hloop allWithin_nil
  | suspended frames n =>
      rw [hth] at hthread
      exact (hdead (by rw [hth]; exact Thread.noConfusion)).bind fun _ _ =>
        hloop (toClose_within hthread)
  | dead => exact (hdead (by rw [hth]; exact Thread.noConfusion)).bind fun _ _ => hloop allWithin_nil

private theorem coroutine_same (f : CoroutineFunction) {args : List Value} (h : AllWithin w args) :
    Same g w (coroutine call f args) (coroutine call' f args) (AllWithin w) := by
  have hstart : Keeps g w (do
      let f ← functionArg (.coroutine f) args 0
      Eval.onHeap (·.newThread (.fresh f))) fun _ => True :=
    (functionArg_keeps _ h 0).bind fun v hv => Keeps.onHeap fun s hs =>
      ⟨hs.newThread hv, trivial⟩
  cases f with
  | close => exact (threadArg_keeps _ args 0).bind fun t _ => closeThread_same t
  | create => exact hstart.bind fun _ _ => .pure (.one trivial)
  | isyieldable => exact Same.get.bind fun _ _ => .pure (.one trivial)
  | running =>
      exact Same.get.bind fun _ _ => .pure (allWithin_cons.mpr ⟨trivial, .one trivial⟩)
  | status =>
      exact Same.get.bind fun _ _ => (threadArg_keeps _ args 0).bind fun _ _ =>
        .pure (.one trivial)
  | wrap =>
      refine hstart.bind fun t _ => Same.bind (P := fun _ => True) ?_ fun _ _ =>
        .pure (.one trivial)
      exact Keeps.onHeap fun s hs =>
        ⟨hs.newGenerator _, trivial⟩

/-! Numbers. -/

theorem extreme_same (f : MathFunction) {args : List Value} (h : AllWithin w args) :
    Same g w (extreme call f args) (extreme call' f args) (AllWithin w) := by
  refine (numberArg_keeps _ args 0).discard.bind fun _ _ => ?_
  refine Same.bind (Same.foldlM (Q := (·.Within w)) (fun i _ best hbest => ?_) (optArg_within h 0))
    fun best hbest => .pure (.one hbest)
  refine (numberArg_keeps _ args i).discard.bind fun _ _ => Same.get.bind fun s hs => ?_
  have hv := optArg_within h i
  have hbelow : (if f = .max then below s false best (optArg args i)
      else below s false (optArg args i) best).Settled w := by
    split
    · exact below_settled hs false hbest hv
    · exact below_settled hs false hv hbest
  refine (settle_same hbelow).bind fun beyond _ => .pure ?_
  split
  · exact hv
  · exact hbest

theorem rounded_keeps (f : MathFunction) (round : Double → Double) (args : List Value) :
    Keeps g w (rounded f round args) (AllWithin w) := by
  refine (numberArg_keeps _ args 0).bind fun n hn => ?_
  split
  · refine .pure (.one ?_)
    unfold asInteger
    split <;> trivial
  · exact .pure (.one hn)

private theorem math_same (f : MathFunction) {args : List Value} (h : AllWithin w args) :
    Same g w (math call f args) (math call' f args) (AllWithin w) := by
  cases f with
  | abs =>
      refine (numberArg_keeps _ args 0).bind fun n hn => ?_
      split
      · exact .pure (.one trivial)
      · exact .pure (.one trivial)
      · exact .pure (.one hn)
  | ceil => exact rounded_keeps _ _ args
  | floor => exact rounded_keeps _ _ args
  | exp => exact (floatArg_keeps _ args 0).bind fun _ _ => .pure (.one trivial)
  | sqrt => exact (floatArg_keeps _ args 0).bind fun _ _ => .pure (.one trivial)
  | fmod =>
      refine (numberArg_keeps _ args 0).bind fun _ _ => (numberArg_keeps _ args 1).bind fun _ _ => ?_
      split
      · exact Same.ite (fun _ => bad_keeps _ 1 _) fun _ => .pure (.one trivial)
      · exact (floatArg_keeps _ args 0).bind fun _ _ => (floatArg_keeps _ args 1).bind fun _ _ =>
          .pure (.one trivial)
  | log =>
      refine (floatArg_keeps _ args 0).bind fun _ _ => ?_
      split
      · exact .pure (.one trivial)
      · exact (floatArg_keeps _ args 1).bind fun _ _ => .pure (.one trivial)
  | max => exact extreme_same _ h
  | min => exact extreme_same _ h
  | modf =>
      unfold math modf
      dsimp only
      split
      · exact .pure (allWithin_cons.mpr ⟨trivial, .one trivial⟩)
      · exact (floatArg_keeps _ args 0).bind fun _ _ =>
          .pure (allWithin_cons.mpr ⟨trivial, .one trivial⟩)
  | tointeger =>
      refine (anyArg_keeps _ h 0).bind fun v _ => ?_
      split <;> exact .pure (.one trivial)
  | type =>
      refine (anyArg_keeps _ h 0).bind fun v _ => .pure (.one ?_)
      split <;> trivial
  | ult =>
      exact (integerArg_keeps _ args 0).bind fun _ _ => (integerArg_keeps _ args 1).bind fun _ _ =>
        .pure (.one trivial)

theorem call_agrees (hcall : CallsAgree g call call') {f : Builtin}
    (hf : reachesEnvironments (.builtin f) = false) {args : List Value} (h : AllWithin w args)
    (hchanged : (changed f args).Changeable w) :
    Agrees g w (Library.call call f args) (Library.call call' f args) AllWithin := by
  cases f with
  | control f => exact .fault _
  | basic f => exact (basic_same hf h hchanged).agrees
  | string f => exact string_agrees hcall f h
  | table f => exact table_agrees hcall f h hchanged
  | math f => exact (math_same f h).agrees
  | coroutine f =>
      exact (coroutine_same f h).agrees
  | utf8 f =>
      exact (utf8_keeps f args).agrees

end Pagewright.Script.Library
