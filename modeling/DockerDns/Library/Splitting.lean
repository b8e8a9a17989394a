/-!
# The pieces of a list between separators

How the pieces end: a list that ends in the separator has an empty last piece.
-/
namespace DockerDns.Library

variable {α : Type} [BEq α] [LawfulBEq α] {a : α}

theorem splitOn_concat_self (xs : List α) : (xs ++ [a]).splitOn a = xs.splitOn a ++ [[]] := by
  rw [List.splitOn_append_cons_self, List.splitOn_nil]

/-- A last element that is not the separator is in the last piece. -/
theorem splitOn_concat_other (xs : List α) {c : α} (other : c ≠ a) :
    ((xs ++ [c]).splitOn a).getLast? ≠ some [] := by
  induction xs with
  | nil =>
    rw [List.nil_append, List.splitOn_eq_singleton (by simpa using other.symm)]
    simp
  | cons x rest ih =>
    rw [List.cons_append, List.splitOn_cons_eq_if_modifyHead]
    have nonempty : (rest ++ [c]).splitOn a ≠ [] := List.splitOn_ne_nil a _
    generalize (rest ++ [c]).splitOn a = pieces at ih nonempty
    cases pieces with
    | nil => exact absurd rfl nonempty
    | cons head tail =>
      split
      · simpa [List.getLast?_cons] using ih
      · cases tail with
        | nil => simp
        | cons next more => simpa [List.getLast?_cons] using ih

/-- The last piece is empty just when the list is, or ends in the separator. -/
theorem getLast?_splitOn (xs : List α) :
    (xs.splitOn a).getLast? = some [] ↔ xs = [] ∨ xs.getLast? = some a := by
  rcases List.eq_nil_or_concat xs with rfl | ⟨init, c, rfl⟩
  · simp [List.splitOn_nil]
  · rw [List.concat_eq_append]
    by_cases same : c = a
    · subst same
      simp [splitOn_concat_self]
    · simp [splitOn_concat_other init same, same]

/-- An element other than the separator is in one of the pieces. -/
theorem exists_piece {x : α} {xs : List α} (member : x ∈ xs) (other : x ≠ a) :
    ∃ piece ∈ xs.splitOn a, x ∈ piece := by
  induction xs with
  | nil => cases member
  | cons y rest ih =>
    rw [List.splitOn_cons_eq_if_modifyHead]
    have nonempty : rest.splitOn a ≠ [] := List.splitOn_ne_nil a rest
    generalize rest.splitOn a = pieces at ih nonempty
    cases pieces with
    | nil => exact absurd rfl nonempty
    | cons head tail =>
      rcases List.mem_cons.mp member with rfl | member
      · rw [if_neg (by simpa using other)]
        exact ⟨x :: head, List.mem_cons_self, List.mem_cons_self⟩
      · obtain ⟨piece, listed, inside⟩ := ih member
        split
        · exact ⟨piece, List.mem_cons_of_mem _ listed, inside⟩
        · rcases List.mem_cons.mp listed with rfl | listed
          · exact ⟨y :: piece, List.mem_cons_self, List.mem_cons_of_mem _ inside⟩
          · exact ⟨piece, List.mem_cons_of_mem _ listed, inside⟩

end DockerDns.Library
