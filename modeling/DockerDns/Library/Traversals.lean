import Mathlib.Data.List.Basic

/-!
# A list taken element by element, up to the first failure
-/
namespace DockerDns.Library

variable {α β ε : Type}

/-- Either every element is taken, or the failure is that of the first element
that is not. -/
theorem mapM_outcome (f : α → Except ε β) (xs : List α) :
    (∃ ys, xs.mapM f = .ok ys ∧ ∀ y, y ∈ ys ↔ ∃ x ∈ xs, f x = .ok y) ∨
      ∃ front x back e, xs = front ++ x :: back ∧ (∀ y ∈ front, ∃ b, f y = .ok b) ∧
        f x = .error e ∧ xs.mapM f = .error e := by
  induction xs with
  | nil => exact .inl ⟨[], rfl, fun y => by simp⟩
  | cons x xs ih =>
    rw [List.mapM_cons]
    cases first : f x with
    | error e => exact .inr ⟨[], x, xs, e, rfl, nofun, first, rfl⟩
    | ok b =>
      rcases ih with ⟨ys, taken, members⟩ | ⟨front, z, back, e, rfl, before, failed, stopped⟩
      · rw [taken]
        refine .inl ⟨b :: ys, rfl, fun y => ?_⟩
        rw [List.mem_cons, members, List.exists_mem_cons_iff, first, Except.ok.injEq, eq_comm]
      · rw [stopped]
        refine .inr ⟨x :: front, z, back, e, rfl, fun w member => ?_, failed, rfl⟩
        rcases List.mem_cons.mp member with rfl | member
        · exact ⟨b, first⟩
        · exact before w member

end DockerDns.Library
