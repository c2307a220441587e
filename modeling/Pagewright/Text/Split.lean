/-!
Texts cut at a separator. Pieces can be empty, and there is one more of them than separators; cutting
a text is cutting what stands before and after any one separator.
-/
namespace Pagewright.Text

def pieces (sep : Char) : List Char → List (List Char)
  | [] => [[]]
  | c :: cs =>
    if c = sep then [] :: pieces sep cs
    else match pieces sep cs with
      | [] => [[c]]
      | p :: ps => (c :: p) :: ps

@[simp] theorem pieces_ne_nil (sep : Char) (cs : List Char) : pieces sep cs ≠ [] := by
  cases cs with
  | nil => simp [pieces]
  | cons c cs =>
    unfold pieces
    split
    · simp
    · split <;> simp

@[simp] theorem pieces_append_cons (sep : Char) (a b : List Char) :
    pieces sep (a ++ sep :: b) = pieces sep a ++ pieces sep b := by
  induction a with
  | nil => simp [pieces]
  | cons c a ih =>
    by_cases h : c = sep
    · simp [pieces, h, ih]
    · cases ha : pieces sep a with
      | nil => exact absurd ha (pieces_ne_nil sep a)
      | cons p ps => simp [pieces, h, ih, ha]

theorem sep_not_mem_of_mem_pieces {sep : Char} {p cs : List Char} (h : p ∈ pieces sep cs) :
    sep ∉ p := by
  induction cs generalizing p with
  | nil => simp_all [pieces]
  | cons c cs ih =>
    by_cases hc : c = sep
    · rcases List.mem_cons.mp (by simpa [pieces, hc] using h) with rfl | h
      · simp
      · exact ih h
    · cases hs : pieces sep cs with
      | nil => exact absurd hs (pieces_ne_nil sep cs)
      | cons q qs =>
        rcases List.mem_cons.mp (by simpa [pieces, hc, hs] using h) with rfl | h
        · simpa [Ne.symm hc] using ih (hs ▸ List.mem_cons_self)
        · exact ih (hs ▸ List.mem_cons_of_mem q h)

def split (sep : Char) (s : String) : List String :=
  (pieces sep s.toList).map String.ofList

end Pagewright.Text
