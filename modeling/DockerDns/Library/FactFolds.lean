import Mathlib.Data.List.Basic

/-!
# Loops over a store of facts

A store is seen through the facts it holds. When one turn of a loop drops some
facts and adds others, the whole loop drops and adds what its turns do, provided
no turn drops what another one added. A guarded removal drops its facts only if
the store holds a guard fact.
-/
namespace DockerDns.Library

variable {σ β φ : Type} (Has : σ → φ → Prop) (inv : σ → Prop) (step : σ → β → σ)

/-- The turns replace: each drops `drops b`, then adds `adds b`. -/
theorem foldl_replaces (drops adds : β → φ → Prop)
    (turn : ∀ s b, inv s → inv (step s b) ∧
      ∀ f, Has (step s b) f ↔ (Has s f ∧ ¬ drops b f) ∨ adds b f)
    (coherent : ∀ b b' f, adds b f → drops b' f → adds b' f) (turns : List β) (s : σ)
    (start : inv s) : inv (turns.foldl step s) ∧
      ∀ f, Has (turns.foldl step s) f ↔
        (Has s f ∧ ∀ b ∈ turns, ¬ drops b f) ∨ ∃ b ∈ turns, adds b f := by
  induction turns generalizing s with
  | nil => exact ⟨start, fun f => by simp⟩
  | cons b rest ih =>
    obtain ⟨kept, effect⟩ := turn s b start
    obtain ⟨last, effects⟩ := ih (step s b) kept
    refine ⟨last, fun f => (effects f).trans ?_⟩
    rw [effect]
    simp only [List.forall_mem_cons, List.exists_mem_cons_iff]
    constructor
    · intro held
      rcases held with ⟨⟨old, first⟩ | added, later⟩ | later
      · exact .inl ⟨old, first, later⟩
      · exact .inr (.inl added)
      · exact .inr (.inr later)
    · intro held
      rcases held with ⟨old, first, later⟩ | added | later
      · exact .inl ⟨.inl ⟨old, first⟩, later⟩
      · -- a later turn may drop what this one added, and then adds it again
        by_cases dropped : ∃ b' ∈ rest, drops b' f
        · obtain ⟨b', member, drop⟩ := dropped
          exact .inr ⟨b', member, coherent b b' f added drop⟩
        · exact .inl ⟨.inr added, fun b' member drop => dropped ⟨b', member, drop⟩⟩
      · exact .inr later

/-- The turns add: each adds `adds b` and drops nothing. -/
theorem foldl_adds (adds : β → φ → Prop)
    (turn : ∀ s b, inv s → inv (step s b) ∧ ∀ f, Has (step s b) f ↔ Has s f ∨ adds b f)
    (turns : List β) (s : σ) (start : inv s) : inv (turns.foldl step s) ∧
      ∀ f, Has (turns.foldl step s) f ↔ Has s f ∨ ∃ b ∈ turns, adds b f := by
  have replaces := foldl_replaces Has inv step (fun _ _ => False) adds
    (fun s b start => ⟨(turn s b start).1, fun f => by simpa using (turn s b start).2 f⟩)
    (fun _ _ _ _ drop => drop.elim) turns s start
  exact ⟨replaces.1, fun f => by simpa using replaces.2 f⟩

/-- The turns remove: each drops `drops b`, but only while its guard is held. -/
theorem foldl_removes (guard : β → φ) (drops : β → φ → Prop)
    (turn : ∀ s b, inv s → inv (step s b) ∧
      ∀ f, Has (step s b) f ↔ Has s f ∧ ¬ (Has s (guard b) ∧ drops b f))
    (coherent : ∀ b b' f, drops b (guard b') → drops b' f → drops b f) (turns : List β) (s : σ)
    (start : inv s) : inv (turns.foldl step s) ∧
      ∀ f, Has (turns.foldl step s) f ↔
        Has s f ∧ ¬ ∃ b ∈ turns, Has s (guard b) ∧ drops b f := by
  induction turns generalizing s with
  | nil => exact ⟨start, fun f => by simp⟩
  | cons b rest ih =>
    obtain ⟨kept, effect⟩ := turn s b start
    obtain ⟨last, effects⟩ := ih (step s b) kept
    refine ⟨last, fun f => (effects f).trans ?_⟩
    simp only [effect, List.exists_mem_cons_iff, not_or, and_assoc]
    refine and_congr_right fun _ => and_congr_right fun first => not_congr ⟨?_, ?_⟩
    · intro found
      obtain ⟨b', member, held, _, drop⟩ := found
      exact ⟨b', member, held, drop⟩
    · intro found
      obtain ⟨b', member, held, drop⟩ := found
      refine ⟨b', member, held, ?_, drop⟩
      intro both
      obtain ⟨guarded, lost⟩ := both
      exact first ⟨guarded, coherent b b' f lost drop⟩

end DockerDns.Library
