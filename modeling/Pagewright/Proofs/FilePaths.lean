import Mathlib.Tactic.SplitIfs
import Pagewright.Files

/-! Where paths lead. A path that is a directory's, with a name put below it, leads to the child of that
name in the place that the directory's path leads to, or to nothing; a name or a path that is too long is
told apart from one where nothing is. -/
namespace Pagewright

theorem Text.pieces_of_not_mem {sep : Char} {cs : List Char} (h : sep ∉ cs) :
    pieces sep cs = [cs] := by
  induction cs with
  | nil => rfl
  | cons c cs ih =>
      rw [List.mem_cons, not_or] at h
      simp [pieces, ih h.2, Ne.symm h.1]

@[simp] theorem Text.split_append_sep (sep : Char) (a b : String) :
    split sep (a ++ String.singleton sep ++ b) = split sep a ++ split sep b := by
  simp [split]

namespace Path

/-- A name that neither stays in a directory nor leaves it, and leads one step down. -/
structure IsName (name : String) : Prop where
  nonempty : name ≠ ""
  not_here : name ≠ "."
  not_above : name ≠ ".."
  no_slash : '/' ∉ name.toList

variable {name : String}

@[simp] theorem IsName.split (h : IsName name) : split name = [name] := by
  simp [Path.split, Text.split, Text.pieces_of_not_mem h.no_slash]

@[simp] theorem IsName.not_absolute (h : IsName name) : isAbsolute name = false := by
  unfold isAbsolute
  cases hchars : name.toList with
  | nil => rfl
  | cons c cs =>
      have hslash := h.no_slash
      rw [hchars, List.mem_cons, not_or] at hslash
      simp [Ne.symm hslash.1]

@[simp] theorem isAbsolute_join (h : IsName name) (dir : String) :
    isAbsolute (join dir name) = isAbsolute dir := by
  unfold join
  rw [h.not_absolute, Bool.false_or]
  by_cases hdir : dir = ""
  · subst hdir
    exact h.not_absolute
  · have hchars : dir.toList ≠ [] := by simpa using hdir
    have hhead (rest : String) : isAbsolute (dir ++ rest) = isAbsolute dir := by
      simp [isAbsolute, List.head?_append, List.head?_eq_some_head hchars]
    simp only [String.isEmpty_iff, hdir, if_false]
    split
    · exact hhead name
    · rw [String.append_assoc]
      exact hhead _

theorem split_join (h : IsName name) (dir : String) :
    ∃ front empties, (∀ e ∈ empties, e = "") ∧ split dir = front ++ empties ∧
      split (join dir name) = front ++ [name] := by
  unfold join
  rw [h.not_absolute, Bool.false_or]
  by_cases hdir : dir = ""
  · refine ⟨[], [""], by simp, by simp [hdir, split, Text.split, Text.pieces], ?_⟩
    simp [hdir, h.split]
  · simp only [String.isEmpty_iff, hdir, if_false]
    split
    · next hslash =>
      obtain ⟨cs, hcs⟩ : ∃ cs, dir.toList = cs ++ ['/'] := by
        apply List.getLast?_eq_some_iff.mp
        simpa [endsInSlash] using hslash
      have hdir' : dir = String.ofList cs ++ String.singleton '/' := by
        apply String.toList_injective
        simp [hcs]
      refine ⟨split (String.ofList cs), [""], by simp, ?_, ?_⟩
      · simp [hdir', split, Text.split, Text.pieces]
      · rw [hdir', split, Text.split_append_sep]
        exact congrArg (split (String.ofList cs) ++ ·) h.split
    · refine ⟨split dir, [], by simp, by simp, ?_⟩
      exact (Text.split_append_sep '/' dir name).trans (congrArg (split dir ++ ·) h.split)

theorem not_mem_join {c : Char} (hc : c ≠ '/') {dir name : String} (hdir : c ∉ dir.toList)
    (hname : c ∉ name.toList) : c ∉ (join dir name).toList := by
  unfold join
  split
  · exact hname
  · split <;> simp [hdir, hname, hc]

theorem join_ne_empty {dir name : String} (hname : name ≠ "") : join dir name ≠ "" := by
  unfold join
  split
  · exact hname
  · split <;> simp [hname]

end Path

namespace Files

variable {fs : Files}

/-- Where a path leads, from the working directory or, if it is absolute, from outside the tree. -/
def follow (fs : Files) (path : String) : Except FileFault (Option Location × Entry) :=
  fs.walk (if Path.isAbsolute path then none else some []) (Path.split path)

theorem follow_of_resolve {path : String} {r : Option Location × Entry}
    (h : fs.resolve path = .ok r) : fs.follow path = .ok r := by
  unfold resolve at h
  split at h
  · cases h
  · split at h
    · cases h
    · split at h
      · cases h
      · exact h

def next (fs : Files) (here : Option Location) (name : String) : Except FileFault (Option Location) :=
  match here.elim (some Entry.directory) fs.entry? with
  | none => .error .notFound
  | some (.file _) => .error .notDirectory
  | some .directory =>
    if name = "" || name = "." then .ok here
    else if name = ".." then
      .ok (match here with
        | none | some [] => none
        | some l => some l.dropLast)
    else if longestName < name.utf8ByteSize then .error .nameTooLong
    else match here with
      | none => .error .notFound
      | some l => .ok (some (l ++ [name]))

theorem walk_cons (here : Option Location) (name : String) (rest : List String) :
    fs.walk here (name :: rest) =
      match fs.next here name with
      | .ok place => fs.walk place rest
      | .error e => .error e := by
  rw [walk.eq_def]
  unfold next
  cases here with
  | none =>
      dsimp only [Option.elim]
      split_ifs <;> rfl
  | some l =>
      dsimp only [Option.elim]
      cases fs.entry? l with
      | none => rfl
      | some e =>
          cases e with
          | file data => rfl
          | directory =>
              dsimp only
              split_ifs
              · rfl
              · cases l <;> rfl
              · rfl
              · rfl

theorem walk_nil {here place : Option Location} {e : Entry} :
    fs.walk here [] = .ok (place, e) ↔
      here = place ∧ here.elim (some Entry.directory) fs.entry? = some e := by
  unfold walk
  cases here with
  | none => simp
  | some l => cases hentry : fs.entry? l <;> simp [hentry]

theorem walk_nil_of_next {here place : Option Location} {name : String}
    (h : fs.next here name = .ok place) : fs.walk here [] = .ok (here, .directory) := by
  unfold next at h
  split at h
  · cases h
  · cases h
  · next hentry => exact walk_nil.mpr ⟨rfl, hentry⟩

private theorem next_of_isName {here place : Option Location} {name : String}
    (hname : Path.IsName name)
    (h : fs.next here name = .ok place) : ∃ l, here = some l ∧ place = some (l ++ [name]) := by
  unfold next at h
  split at h
  · cases h
  · cases h
  · rw [if_neg (by simp [hname.nonempty, hname.not_here]), if_neg hname.not_above] at h
    split at h
    · cases h
    · cases here with
      | none => cases h
      | some l => exact ⟨l, rfl, (Except.ok.inj h).symm⟩

theorem walk_append {here place : Option Location} {front : List String} (rest : List String)
    (h : fs.walk here front = .ok (place, .directory)) :
    fs.walk here (front ++ rest) = fs.walk place rest := by
  induction front generalizing here with
  | nil => rw [(walk_nil.mp h).1, List.nil_append]
  | cons name front ih =>
      rw [walk_cons] at h
      rw [List.cons_append, walk_cons]
      cases hnext : fs.next here name with
      | error e => simp [hnext] at h
      | ok next => exact ih (by simpa [hnext] using h)

theorem walk_append_cons {here : Option Location} {front rest : List String} {name : String}
    {r : Option Location × Entry} (h : fs.walk here (front ++ name :: rest) = .ok r) :
    ∃ place, fs.walk here front = .ok (place, .directory) := by
  induction front generalizing here with
  | nil =>
      rw [List.nil_append, walk_cons] at h
      cases hnext : fs.next here name with
      | error e => simp [hnext] at h
      | ok place => exact ⟨here, walk_nil_of_next hnext⟩
  | cons first front ih =>
      rw [List.cons_append, walk_cons] at h
      rw [walk_cons]
      cases hnext : fs.next here first with
      | error e => simp [hnext] at h
      | ok place => exact ih (by simpa [hnext] using h)

theorem walk_empties {place : Option Location} {empties : List String}
    (hempties : ∀ e ∈ empties, e = "") (h : fs.walk place [] = .ok (place, .directory)) :
    fs.walk place empties = .ok (place, .directory) := by
  induction empties with
  | nil => exact h
  | cons e empties ih =>
      obtain ⟨rfl, hrest⟩ := List.forall_mem_cons.mp hempties
      have hnext : fs.next place "" = .ok place := by
        simp [next, (walk_nil.mp h).2]
      rw [walk_cons, hnext]
      exact ih hrest

/-- A name put below a directory's path leads to the child of that name, if it leads anywhere. -/
theorem resolve_join {dir name : String} (hname : Path.IsName name)
    {place : Option Location} {e : Entry} (h : fs.resolve (Path.join dir name) = .ok (place, e)) :
    ∃ l, fs.follow dir = .ok (some l, .directory) ∧ place = some (l ++ [name]) := by
  have hfollow := follow_of_resolve h
  obtain ⟨front, empties, hempties, hdir, hpath⟩ := Path.split_join hname dir
  unfold follow at hfollow ⊢
  rw [Path.isAbsolute_join hname, hpath] at hfollow
  rw [hdir]
  obtain ⟨parent, hparent⟩ := walk_append_cons hfollow
  rw [walk_append [name] hparent, walk_cons] at hfollow
  cases hnext : fs.next parent name with
  | error e => simp [hnext] at hfollow
  | ok child =>
      obtain ⟨l, rfl, rfl⟩ := next_of_isName hname hnext
      simp only [hnext] at hfollow
      refine ⟨l, ?_, (walk_nil.mp hfollow).1.symm⟩
      rw [walk_append empties hparent]
      exact walk_empties hempties (walk_nil_of_next hnext)

def child? (fs : Files) (place : Option Location) (name : String) : Option Entry :=
  place.bind fun l => fs.entry? (l ++ [name])

/-- A directory's path with a name below it can be opened as far as lengths go. -/
structure ShortEnough (dir name : String) : Prop where
  path : (Path.join dir name).utf8ByteSize ≤ longestPath
  last : name.utf8ByteSize ≤ longestName

private theorem walk_front {here place : Option Location} {front empties : List String}
    (hempties : ∀ e ∈ empties, e = "")
    (h : fs.walk here (front ++ empties) = .ok (place, .directory)) :
    fs.walk here front = .ok (place, .directory) := by
  cases empties with
  | nil => rwa [List.append_nil] at h
  | cons e empties =>
      -- an empty component is looked up, so what stands before it leads to a directory
      obtain ⟨parent, hparent⟩ := walk_append_cons h
      rw [walk_append _ hparent] at h
      have hthere : fs.walk parent [] = .ok (parent, .directory) := by
        have hstart := walk_append [] hparent
        rw [List.append_nil, hparent] at hstart
        exact hstart.symm
      rw [walk_empties hempties hthere] at h
      rw [hparent, h]

private theorem walk_isName {place : Option Location} {name : String} (hname : Path.IsName name)
    (h : place.elim (some Entry.directory) fs.entry? = some .directory) :
    fs.walk place [name] =
      if longestName < name.utf8ByteSize then .error .nameTooLong
      else match fs.child? place name with
        | some e => .ok (place.map (· ++ [name]), e)
        | none => .error .notFound := by
  rw [walk_cons]
  unfold next
  rw [h]
  simp only [hname.nonempty, hname.not_here, hname.not_above, decide_false, Bool.or_self,
    Bool.false_eq_true, if_false]
  by_cases hlong : longestName < name.utf8ByteSize
  · simp only [hlong, if_true]
  · simp only [hlong, if_false]
    cases place with
    | none => rfl
    | some l =>
        simp only [child?, Option.bind_some, Option.map_some]
        cases hentry : fs.entry? (l ++ [name]) <;> simp [walk, hentry]

theorem resolve_child {dir name : String} (hname : Path.IsName name) (hnul : '\x00' ∉ name.toList)
    {place : Option Location} (hdir : fs.resolve dir = .ok (place, .directory)) :
    (ShortEnough dir name → fs.resolve (Path.join dir name) =
      match fs.child? place name with
      | some e => .ok (place.map (· ++ [name]), e)
      | none => .error .notFound) ∧
    (¬ShortEnough dir name → fs.resolve (Path.join dir name) = .error .nameTooLong) := by
  have hfollow := follow_of_resolve hdir
  obtain ⟨front, empties, hempties, hsplit, hpath⟩ := Path.split_join hname dir
  unfold follow at hfollow
  rw [hsplit] at hfollow
  have hfront := walk_front hempties hfollow
  have hthere : place.elim (some Entry.directory) fs.entry? = some .directory := by
    have hstart := walk_append [] hfront
    rw [List.append_nil, hfront] at hstart
    exact (walk_nil.mp hstart.symm).2
  have hwalk := walk_append [name] hfront
  rw [walk_isName hname hthere, ← hpath, ← Path.isAbsolute_join hname] at hwalk
  have hclean : '\x00' ∉ dir.toList := by
    intro hmem
    unfold resolve at hdir
    rw [if_pos (List.contains_iff_mem.mpr hmem)] at hdir
    cases hdir
  have hresolve : fs.resolve (Path.join dir name) =
      if longestPath < (Path.join dir name).utf8ByteSize then .error .nameTooLong
      else fs.walk (if Path.isAbsolute (Path.join dir name) then none else some [])
        (Path.split (Path.join dir name)) := by
    unfold resolve
    rw [if_neg (by
        rw [List.contains_iff_mem]
        exact Path.not_mem_join (by decide) hclean hnul),
      if_neg (by simpa using Path.join_ne_empty hname.nonempty)]
  rw [hresolve, hwalk]
  constructor
  · rintro ⟨hpathShort, hshort⟩
    rw [if_neg (by omega), if_neg (by omega)]
  · intro hlong
    split
    · rfl
    · rw [if_pos]
      apply Nat.lt_of_not_le
      intro hshort
      exact hlong ⟨by omega, hshort⟩

end Files

end Pagewright
