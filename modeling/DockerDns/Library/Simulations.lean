/-!
# Simulations between machines

Where every step of a machine is matched by some steps of another, every run of
the first is matched by a run of the second.
-/
namespace DockerDns.Library

variable {σ τ ι κ : Type}

theorem foldl_simulated {step : σ → ι → σ} {step' : τ → κ → τ} {sees : σ → τ → Prop}
    (once : ∀ s t i, sees s t → ∃ moves : List κ, sees (step s i) (moves.foldl step' t))
    (inputs : List ι) {s : σ} {t : τ} (start : sees s t) :
    ∃ moves : List κ, sees (inputs.foldl step s) (moves.foldl step' t) := by
  induction inputs generalizing s t with
  | nil => exact ⟨[], start⟩
  | cons i rest ih =>
    obtain ⟨front, first⟩ := once s t i start
    obtain ⟨back, later⟩ := ih first
    refine ⟨front ++ back, ?_⟩
    rw [List.foldl_append]
    exact later

end DockerDns.Library
