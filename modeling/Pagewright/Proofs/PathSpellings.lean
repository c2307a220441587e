import Mathlib.Logic.Relation
import Pagewright.Proofs.FilePaths
import Pagewright.Proofs.Responses

/-! Segments as the normal form of paths. Two paths have the same segments exactly if they differ only in
how many slashes stand at their ends or where both have one, and the server answers such paths alike. -/
namespace Pagewright

namespace Http

/-- A path, and the same one with a slash more at an end or beside another slash. -/
inductive Slashed : String → String → Prop
  | front (path : String) : Slashed path ("/" ++ path)
  | behind (path : String) : Slashed path (path ++ "/")
  | beside (before after : String) : Slashed (before ++ "/" ++ after) (before ++ "//" ++ after)

/-- Paths that differ only in how many slashes stand at their ends, and where both have one. -/
def Respelled : String → String → Prop := Relation.EqvGen Slashed

structure IsSegment (s : String) : Prop where
  nonempty : s ≠ ""
  no_slash : '/' ∉ s.toList

variable {path path' s : String} {segments : List String}

/-! ### Splitting -/

@[simp] theorem pathSegments_append_slash (before after : String) :
    pathSegments (before ++ "/" ++ after) = pathSegments before ++ pathSegments after := by
  have hsplit : Text.split '/' (before ++ "/" ++ after) =
      Text.split '/' before ++ Text.split '/' after := Text.split_append_sep '/' before after
  rw [pathSegments, hsplit, List.filter_append]
  rfl

@[simp] theorem pathSegments_empty : pathSegments "" = [] := by decide

@[simp] theorem IsSegment.pathSegments (h : IsSegment s) : pathSegments s = [s] := by
  have hsplit : Text.split '/' s = [s] := by
    simp [Text.split, Text.pieces_of_not_mem h.no_slash]
  simp [Http.pathSegments, hsplit, h.nonempty]

theorem isSegment_of_mem (h : s ∈ pathSegments path) : IsSegment s := by
  obtain ⟨hsplit, hnonempty⟩ := List.mem_filter.mp h
  obtain ⟨piece, hpiece, rfl⟩ := List.mem_map.mp hsplit
  refine ⟨by simpa using hnonempty, ?_⟩
  rw [String.toList_ofList]
  exact Text.sep_not_mem_of_mem_pieces hpiece

@[simp] private theorem pathSegments_intercalate (h : ∀ s ∈ segments, IsSegment s) :
    pathSegments ("/".intercalate segments) = segments := by
  induction segments with
  | nil => exact pathSegments_empty
  | cons s rest ih =>
    obtain ⟨hs, hrest⟩ := List.forall_mem_cons.mp h
    cases rest with
    | nil => rw [String.intercalate_singleton, hs.pathSegments]
    | cons next rest =>
      rw [String.intercalate_cons_cons, pathSegments_append_slash, hs.pathSegments, ih hrest]
      rfl

/-! ### Slashes to spare -/

@[simp] theorem pathSegments_slash_append (path : String) :
    pathSegments ("/" ++ path) = pathSegments path := by
  have hsplit := pathSegments_append_slash "" path
  rwa [String.empty_append, pathSegments_empty, List.nil_append] at hsplit

@[simp] private theorem pathSegments_append_single (path : String) :
    pathSegments (path ++ "/") = pathSegments path := by
  have hsplit := pathSegments_append_slash path ""
  rwa [String.append_empty, pathSegments_empty, List.append_nil] at hsplit

theorem append_two_slashes (before after : String) :
    before ++ "//" ++ after = before ++ "/" ++ ("/" ++ after) := by
  apply String.toList_injective
  simp

theorem Slashed.pathSegments_eq (h : Slashed path path') :
    pathSegments path = pathSegments path' := by
  cases h with
  | front => rw [pathSegments_slash_append]
  | behind => rw [pathSegments_append_single]
  | beside before after =>
    rw [append_two_slashes, pathSegments_append_slash, pathSegments_append_slash,
      pathSegments_slash_append]

theorem Respelled.pathSegments_eq (h : Respelled path path') :
    pathSegments path = pathSegments path' := by
  induction h with
  | rel _ _ hslashed => exact hslashed.pathSegments_eq
  | refl _ => rfl
  | symm _ _ _ ih => exact ih.symm
  | trans _ _ _ _ _ ih ih' => exact ih.trans ih'

theorem Slashed.append (before : String) (h : Slashed path path') :
    Slashed (before ++ "/" ++ path) (before ++ "/" ++ path') := by
  cases h with
  | front =>
    rw [← append_two_slashes]
    exact .beside before path
  | behind =>
    rw [← String.append_assoc]
    exact .behind _
  | beside first after =>
    simp only [← String.append_assoc]
    exact .beside (before ++ "/" ++ first) after

theorem Respelled.append (before : String) (h : Respelled path path') :
    Respelled (before ++ "/" ++ path) (before ++ "/" ++ path') := by
  induction h with
  | rel _ _ hslashed => exact .rel _ _ (hslashed.append before)
  | refl _ => exact .refl _
  | symm _ _ _ ih => exact .symm _ _ ih
  | trans _ _ _ _ _ ih ih' => exact .trans _ _ _ ih ih'

/-- A path without slashes is a segment or empty, and any other one goes on behind its first slash. -/
theorem first_slash (path : String) :
    path = "" ∨ IsSegment path ∨
      ∃ before after, path = before ++ "/" ++ after ∧ after.length < path.length ∧
        (before = "" ∨ IsSegment before) := by
  by_cases hslash : '/' ∈ path.toList
  · obtain ⟨front, rest, hpath, hfront⟩ := List.eq_append_cons_of_mem hslash
    refine .inr (.inr ⟨String.ofList front, String.ofList rest, ?_, ?_, ?_⟩)
    · apply String.toList_injective
      simp [hpath]
    · rw [← String.length_toList, ← String.length_toList, hpath]
      simp only [String.toList_ofList, List.length_append, List.length_cons]
      omega
    · refine or_iff_not_imp_left.mpr fun hne => ⟨hne, ?_⟩
      rwa [String.toList_ofList]
  · by_cases hempty : path = ""
    · exact .inl hempty
    · exact .inr (.inl ⟨hempty, hslash⟩)

/-- Every path is its segments joined, but for slashes to spare. -/
theorem respelled_intercalate (path : String) :
    Respelled ("/".intercalate (pathSegments path)) path := by
  induction hlength : path.length using Nat.strongRecOn generalizing path with
  | ind n ih =>
    obtain rfl | hsegment | ⟨before, after, rfl, hafter, hbefore⟩ := first_slash path
    · exact .refl _
    · rw [hsegment.pathSegments, String.intercalate_singleton]
      exact .refl _
    · have hrest := ih after.length (hlength ▸ hafter) after rfl
      rw [pathSegments_append_slash]
      obtain rfl | hbefore := hbefore
      · rw [pathSegments_empty, List.nil_append, String.empty_append]
        exact .trans _ _ _ hrest (.rel _ _ (.front after))
      · refine .trans _ _ _ ?_ (hrest.append before)
        rw [hbefore.pathSegments, List.singleton_append]
        -- nothing but slashes may follow, and then the segment alone is what is joined
        cases pathSegments after with
        | nil =>
          rw [String.intercalate_singleton, String.intercalate_nil, String.append_empty]
          exact .rel _ _ (.behind before)
        | cons next rest =>
          rw [String.intercalate_cons_cons]
          exact .refl _

theorem respelled_iff : Respelled path path' ↔ pathSegments path = pathSegments path' := by
  refine ⟨Respelled.pathSegments_eq, fun h => ?_⟩
  have hpath := respelled_intercalate path
  rw [h] at hpath
  exact .trans _ _ _ (.symm _ _ hpath) (respelled_intercalate path')

theorem pathSegments_eq_iff :
    pathSegments path = segments ↔
      (∀ s ∈ segments, IsSegment s) ∧ Respelled ("/".intercalate segments) path := by
  constructor
  · rintro rfl
    exact ⟨fun s => isSegment_of_mem, respelled_intercalate path⟩
  · rintro ⟨hsegments, hrespelled⟩
    rw [← hrespelled.pathSegments_eq, pathSegments_intercalate hsegments]

end Http

namespace Server

open Http (IsSegment Request Respelled Router pathSegments)

variable {r r' : Request}

private theorem decision_congr (registry : Markup.Registry) (c : Config) (port : Option Nat)
    (files : Files) (pool : Page.Pool Page.Context) (hmethod : r'.method = r.method)
    (hsegments : r'.segments = r.segments) :
    decision registry c port files pool r' = decision registry c port files pool r := by
  unfold decision
  rw [hmethod, hsegments]

private theorem respond_congr (c : Config) (start files : Files) (port : Option Nat)
    (peer peer' : String)
    {s s' : State} (hmethod : r'.method = r.method) (hsegments : r'.segments = r.segments)
    (hpool : s'.pool = s.pool) :
    let app := Application.ofConfig c start port
    let out := (app.respond files peer r).run s
    let out' := (app.respond files peer' r').run s'
    out'.1 = out.1 ∧ out'.2.pool = out.2.pool ∧
      ∃ opened, out.2.opened = s.opened ++ opened ∧ out'.2.opened = s'.opened ++ opened := by
  intro app out out'
  cases hanswered : Application.methods.contains r.method with
  | false =>
    obtain ⟨hresponse, hleft, hopened⟩ := respond_refused app files peer s hanswered
    obtain ⟨hresponse', hleft', hopened'⟩ := respond_refused app files peer' s' (hmethod ▸ hanswered)
    refine ⟨hresponse'.trans hresponse.symm, hleft'.trans (hpool.trans hleft.symm), [], ?_, ?_⟩
    · exact hopened.trans (List.append_nil _).symm
    · exact hopened'.trans (List.append_nil _).symm
  | true =>
    have hget : ¬(r.method ≠ "GET" ∧ r.method ≠ "HEAD") := by
      rw [← not_or, not_not]
      simpa [Application.methods] using hanswered
    have hget' : ¬(r'.method ≠ "GET" ∧ r'.method ≠ "HEAD") := hmethod ▸ hget
    obtain ⟨hresponse, hleft, hopened⟩ := respond_handled app files peer s hanswered
    obtain ⟨hresponse', hleft', hopened'⟩ := respond_handled app files peer' s' (hmethod ▸ hanswered)
    have hsame := decision_congr app.registry c port files s.pool hmethod hsegments
    obtain ⟨hdecided, hwaiting, hlist⟩ := handle_eq_decision c start files port r s hget
    obtain ⟨hdecided', hwaiting', hlist'⟩ := handle_eq_decision c start files port r' s' hget'
    rw [hpool, hsame] at hdecided' hwaiting' hlist'
    exact ⟨(hresponse'.trans hdecided').trans (hresponse.trans hdecided).symm,
      (hleft'.trans hwaiting').trans (hleft.trans hwaiting).symm,
      _, hopened.trans hlist, hopened'.trans hlist'⟩

/-- The segments of a path are its normal form. Splitting goes over the two sides of any slash apart; what
it gives are texts without slashes that are not empty, and a list of such texts is given back by exactly the
paths that it is joined to with slashes to spare. Mounting at such paths makes the same router, and requests
for them get the same response from the same files and the same pool, opening the same files and leaving the
same pool. -/
theorem pathSegments_normal_form :
    (∀ before after : String,
      pathSegments (before ++ "/" ++ after) = pathSegments before ++ pathSegments after) ∧
    (∀ path : String, ∀ s ∈ pathSegments path, s ≠ "" ∧ '/' ∉ s.toList) ∧
    (∀ (segments : List String) (path : String), pathSegments path = segments ↔
      (∀ s ∈ segments, IsSegment s) ∧ Respelled ("/".intercalate segments) path) ∧
    (∀ path path' : String, Respelled path path' ↔ pathSegments path = pathSegments path') ∧
    (∀ (α : Type) (router : Router α) (handler : α) (path path' : String), Respelled path path' →
      router.add path handler = router.add path' handler) ∧
    ∀ (c : Config) (start files : Files) (port : Option Nat) (peer peer' : String) (r r' : Request)
      (s s' : State), r'.method = r.method → Respelled r.path r'.path → s'.pool = s.pool →
      let app := Application.ofConfig c start port
      let out := (app.respond files peer r).run s
      let out' := (app.respond files peer' r').run s'
      out'.1 = out.1 ∧ out'.2.pool = out.2.pool ∧
        ∃ opened, out.2.opened = s.opened ++ opened ∧ out'.2.opened = s'.opened ++ opened := by
  refine ⟨Http.pathSegments_append_slash, ?_, fun _ _ => Http.pathSegments_eq_iff,
    fun _ _ => Http.respelled_iff, ?_, ?_⟩
  · intro path s hs
    have hsegment := Http.isSegment_of_mem hs
    exact ⟨hsegment.nonempty, hsegment.no_slash⟩
  · intro α router handler path path' hrespelled
    unfold Router.add
    rw [hrespelled.pathSegments_eq]
  · intro c start files port peer peer' r r' s s' hmethod hrespelled hpool
    have hsegments : r'.segments = r.segments := hrespelled.pathSegments_eq.symm
    exact respond_congr c start files port peer peer' hmethod hsegments hpool

end Server

end Pagewright
