/-!
# Endless runs with fair inputs

A machine that is given inputs without end reaches its goal when each input
leaves its control state alone or makes progress, and when what makes progress
now is sure to come. Progress is a well-founded rank of the control state; what
the inputs do to the rest of the state does not matter.
-/
namespace DockerDns.Library

variable {σ ι κ γ ρ : Type}

/-- The states of an endless run. -/
def states (step : σ → ι → σ) (s : σ) (inputs : Nat → ι) : Nat → σ
  | 0 => s
  | n + 1 => step (states step s inputs n) (inputs n)

/-- What is due at some moment is answered then or later. -/
def Fair (step : σ → ι → σ) (answers : κ → ι → Prop) (due : σ → κ → Prop) (s : σ)
    (inputs : Nat → ι) : Prop :=
  ∀ n k, due (states step s inputs n) k → ∃ later ≥ n, answers k (inputs later)

variable {step : σ → ι → σ} {inputs : Nat → ι} {answers : κ → ι → Prop} {due : σ → κ → Prop}

theorem states_add (s : σ) (n k : Nat) : states step s inputs (n + k) =
    states step (states step s inputs n) (fun i => inputs (n + i)) k := by
  induction k with
  | zero => rfl
  | succ k ih => exact congrArg (step · (inputs (n + k))) ih

theorem states_invariant {inv : σ → Prop} {s : σ} (kept : ∀ s i, inv s → inv (step s i))
    (start : inv s) (n : Nat) : inv (states step s inputs n) := by
  induction n with
  | zero => exact start
  | succ n ih => exact kept _ _ ih

theorem Fair.shift {s : σ} (fair : Fair step answers due s inputs) (n : Nat) :
    Fair step answers due (states step s inputs n) fun i => inputs (n + i) := by
  intro start k isDue
  rw [← states_add] at isDue
  obtain ⟨later, bound, found⟩ := fair (n + start) k isDue
  refine ⟨later - n, by omega, ?_⟩
  show answers k (inputs (n + (later - n)))
  rw [Nat.add_sub_cancel' (by omega)]
  exact found

/-- One goal after another. -/
theorem reaches_trans (first goal : σ → Prop) {s : σ}
    (reached : ∃ n, first (states step s inputs n))
    (after : ∀ n, first (states step s inputs n) →
      ∃ k, goal (states step (states step s inputs n) (fun i => inputs (n + i)) k)) :
    ∃ n, goal (states step s inputs n) := by
  obtain ⟨n, here⟩ := reached
  obtain ⟨k, there⟩ := after n here
  rw [← states_add] at there
  exact ⟨n + k, there⟩

section Progress
variable {r : ρ → ρ → Prop} {control : σ → γ} {rank : γ → ρ} {next : γ → κ} {inv goal : σ → Prop}

/-- Until the rank drops or the goal is reached, the control state stays. -/
private theorem control_stays (kept : ∀ s i, inv s → inv (step s i))
    (quiet : ∀ s i, inv s → ¬ goal s → control (step s i) = control s ∨
      r (rank (control (step s i))) (rank (control s)))
    {s : σ} (start : inv s) (never : ∀ n, ¬ goal (states step s inputs n)) (n : Nat) :
    control (states step s inputs n) = control s ∨
      ∃ k, r (rank (control (states step s inputs k))) (rank (control s)) := by
  induction n with
  | zero => exact .inl rfl
  | succ n ih =>
    rcases ih with same | dropped
    · have held : inv (states step s inputs n) := states_invariant kept start n
      rcases quiet _ (inputs n) held (never n) with quiet | less
      · exact .inl (quiet.trans same)
      · rw [same] at less
        exact .inr ⟨n + 1, less⟩
    · exact .inr dropped

/-- Under fair inputs the goal is reached. -/
theorem fair_reaches (control : σ → γ) (rank : γ → ρ) (next : γ → κ)
    (inv goal : σ → Prop) (wf : WellFounded r) (kept : ∀ s i, inv s → inv (step s i))
    (quiet : ∀ s i, inv s → ¬ goal s → control (step s i) = control s ∨
      r (rank (control (step s i))) (rank (control s)))
    (progress : ∀ s i, inv s → ¬ goal s → answers (next (control s)) i →
      r (rank (control (step s i))) (rank (control s)))
    (isDue : ∀ s, inv s → ¬ goal s → due s (next (control s)))
    {s : σ} (start : inv s) (fair : Fair step answers due s inputs) :
    ∃ n, goal (states step s inputs n) := by
  generalize same : rank (control s) = level
  induction level using wf.induction generalizing s inputs with
  | _ level ih =>
    subst same
    refine Classical.byContradiction fun none => ?_
    have never := not_exists.mp none
    obtain ⟨n, _, found⟩ := fair 0 _ (isDue s start (never 0))
    -- at the latest when the awaited input comes, the rank is below
    have below : ∃ k, r (rank (control (states step s inputs k))) (rank (control s)) := by
      rcases control_stays kept quiet start never n with same | dropped
      · have held : inv (states step s inputs n) := states_invariant kept start n
        rw [← same] at found
        have less := progress _ (inputs n) held (never n) found
        rw [same] at less
        exact ⟨n + 1, less⟩
      · exact dropped
    obtain ⟨k, less⟩ := below
    obtain ⟨m, reached⟩ := ih _ less (states_invariant kept start k) (fair.shift k) rfl
    exact never (k + m) (states_add s k m ▸ reached)

end Progress
end DockerDns.Library
