/-!
# Pieces

A text cut at every occurrence of a separator: the directives of a filter between commas, the parts of
a path between slashes.  A text without a separator is one piece, and empty pieces are kept, so the
pieces with the separator between them are the text again.
-/

namespace TableAlgebra

def pieces (separator : Char) : List Char → List (List Char)
  | [] => [[]]
  | c :: cs =>
    if c = separator then [] :: pieces separator cs
    else (pieces separator cs).modifyHead (c :: ·)

theorem pieces_ne_nil (separator : Char) (cs : List Char) : pieces separator cs ≠ [] := by
  induction cs with
  | nil => simp [pieces]
  | cons c cs ih => by_cases h : c = separator <;> simp [pieces, h, ih]

/-- no piece holds a separator -/
theorem not_mem_of_mem_pieces {separator : Char} {cs piece : List Char}
    (h : piece ∈ pieces separator cs) : separator ∉ piece := by
  induction cs generalizing piece with
  | nil => simp_all [pieces]
  | cons c cs ih =>
    rw [pieces] at h
    split at h
    · rcases List.mem_cons.mp h with rfl | h
      · exact List.not_mem_nil
      · exact ih h
    · rename_i hc
      obtain ⟨p, ps, hp⟩ := List.exists_cons_of_ne_nil (pieces_ne_nil separator cs)
      rw [hp, List.modifyHead_cons] at h
      rcases List.mem_cons.mp h with rfl | h
      · have := ih (hp ▸ List.mem_cons_self)
        simp [Ne.symm hc, this]
      · exact ih (hp ▸ List.mem_cons_of_mem p h)

/-- the pieces with the separator between them are the text -/
theorem intercalate_pieces (separator : Char) (cs : List Char) :
    [separator].intercalate (pieces separator cs) = cs := by
  induction cs with
  | nil => rfl
  | cons c cs ih =>
    obtain ⟨p, ps, hp⟩ := List.exists_cons_of_ne_nil (pieces_ne_nil separator cs)
    rw [hp] at ih
    rw [pieces, hp]
    split
    · rename_i hc
      simp [List.intercalate_cons_cons, ih, hc]
    · cases ps with
      | nil => simpa [List.modifyHead_cons] using ih
      | cons q qs =>
        simp only [List.intercalate_cons_cons, List.modifyHead_cons, List.cons_append] at ih ⊢
        rw [ih]

end TableAlgebra
