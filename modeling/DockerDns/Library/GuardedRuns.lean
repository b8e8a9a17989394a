/-!
# Runs of a deterministic machine over a list of inputs

`Along ok` says that every step of a run meets a condition on the input and on
the state before the step; `Throughout P` says that every state the run passes,
the first and the last included, satisfies `P`. The rules turn one preservation
lemma about a step into a fact about the whole run.
-/
namespace DockerDns.Library

variable {σ ι : Type} (step : σ → ι → σ)

/-- Every step of the run meets `ok` in the state it is taken from. -/
def Along (ok : σ → ι → Prop) : σ → List ι → Prop
  | _, [] => True
  | s, i :: rest => ok s i ∧ Along ok (step s i) rest

/-- Every state of the run satisfies `P`. -/
def Throughout (P : σ → Prop) : σ → List ι → Prop
  | s, [] => P s
  | s, i :: rest => P s ∧ Throughout P (step s i) rest

/-- What the steps of a run put out, in order. -/
def outputs {ω : Type} (out : σ → ι → List ω) : σ → List ι → List ω
  | _, [] => []
  | s, i :: rest => out s i ++ outputs out (step s i) rest

variable {step}

theorem Throughout.first {P : σ → Prop} {s : σ} {inputs : List ι}
    (h : Throughout step P s inputs) : P s := by
  cases inputs with
  | nil => exact h
  | cons i rest => exact h.1

theorem Throughout.last {P : σ → Prop} {s : σ} {inputs : List ι}
    (h : Throughout step P s inputs) : P (inputs.foldl step s) := by
  induction inputs generalizing s with
  | nil => exact h
  | cons i rest ih => exact ih h.2

theorem Throughout.mono {P Q : σ → Prop} {s : σ} {inputs : List ι}
    (h : Throughout step P s inputs) (implies : ∀ s, P s → Q s) :
    Throughout step Q s inputs := by
  induction inputs generalizing s with
  | nil => exact implies s h
  | cons i rest ih => exact ⟨implies s h.1, ih h.2⟩

theorem Throughout.and {P Q : σ → Prop} {s : σ} {inputs : List ι}
    (left : Throughout step P s inputs) (right : Throughout step Q s inputs) :
    Throughout step (fun s => P s ∧ Q s) s inputs := by
  induction inputs generalizing s with
  | nil => exact ⟨left, right⟩
  | cons i rest ih => exact ⟨⟨left.1, right.1⟩, ih left.2 right.2⟩

/-- An invariant of the steps a run really takes, given a fact `Q` about every
state it passes, holds in every state. -/
theorem throughout_of_step {P Q : σ → Prop} {ok : σ → ι → Prop} {s : σ} {inputs : List ι}
    (preserved : ∀ s i, P s → Q s → Q (step s i) → ok s i → P (step s i))
    (start : P s) (facts : Throughout step Q s inputs) (met : Along step ok s inputs) :
    Throughout step P s inputs := by
  induction inputs generalizing s with
  | nil => exact start
  | cons i rest ih =>
    exact ⟨start, ih (preserved s i start facts.1 facts.2.first met.1) facts.2 met.2⟩

/-- When `ok` is exactly what one step needs, it is exactly what a run needs. -/
theorem throughout_iff_along {P Q : σ → Prop} {ok : σ → ι → Prop} {s : σ} {inputs : List ι}
    (exact : ∀ s i, P s → Q s → Q (step s i) → (P (step s i) ↔ ok s i))
    (start : P s) (facts : Throughout step Q s inputs) :
    Throughout step P s inputs ↔ Along step ok s inputs := by
  induction inputs generalizing s with
  | nil => exact iff_of_true start trivial
  | cons i rest ih =>
    have once := exact s i start facts.1 facts.2.first
    constructor
    · intro all
      obtain ⟨_, later⟩ := all
      have after := later.first
      exact ⟨once.mp after, (ih after facts.2).mp later⟩
    · intro all
      obtain ⟨met, later⟩ := all
      exact ⟨start, (ih (once.mpr met) facts.2).mpr later⟩

/-- A condition on the steps follows from another where a fact holds throughout. -/
theorem Along.imp {Q : σ → Prop} {ok ok' : σ → ι → Prop} {s : σ} {inputs : List ι}
    (met : Along step ok s inputs) (facts : Throughout step Q s inputs)
    (implies : ∀ s i, Q s → ok s i → ok' s i) : Along step ok' s inputs := by
  induction inputs generalizing s with
  | nil => trivial
  | cons i rest ih => exact ⟨implies s i facts.1 met.1, ih met.2 facts.2⟩

theorem along_of_forall {ok : σ → ι → Prop} {s : σ} {inputs : List ι}
    (all : ∀ s i, ok s i) : Along step ok s inputs := by
  induction inputs generalizing s with
  | nil => trivial
  | cons i rest ih => exact ⟨all s i, ih⟩

/-- An unconditional invariant holds at the end of every run. -/
theorem foldl_invariant {P : σ → Prop} {s : σ} (inputs : List ι)
    (preserved : ∀ s i, P s → P (step s i)) (start : P s) : P (inputs.foldl step s) := by
  induction inputs generalizing s with
  | nil => exact start
  | cons i rest ih => exact ih (preserved s i start)

/-- An unconditional invariant holds throughout every run. -/
theorem throughout_invariant {P : σ → Prop} {s : σ} (inputs : List ι)
    (preserved : ∀ s i, P s → P (step s i)) (start : P s) : Throughout step P s inputs := by
  induction inputs generalizing s with
  | nil => exact start
  | cons i rest ih => exact ⟨start, ih (preserved s i start)⟩

/-- An invariant of the state and the inputs so far. -/
theorem foldl_history {P : List ι → σ → Prop} {past : List ι} {s : σ} (inputs : List ι)
    (preserved : ∀ past s i, P past s → P (past ++ [i]) (step s i)) (start : P past s) :
    P (past ++ inputs) (inputs.foldl step s) := by
  induction inputs generalizing past s with
  | nil => rwa [List.append_nil]
  | cons i rest ih =>
    have later := ih (preserved past s i start)
    rwa [List.append_assoc] at later

/-- A run puts out no more than the budget every output is paid from. -/
theorem outputs_length_le {ω : Type} {out : σ → ι → List ω} {P : σ → Prop} {budget : σ → Nat}
    (paid : ∀ s i, P s → P (step s i) ∧ (out s i).length + budget (step s i) ≤ budget s)
    (inputs : List ι) {s : σ} (start : P s) : (outputs step out s inputs).length ≤ budget s := by
  induction inputs generalizing s with
  | nil => exact Nat.zero_le _
  | cons i rest ih =>
    obtain ⟨kept, spent⟩ := paid s i start
    have later := ih kept
    rw [outputs, List.length_append]
    omega

/-- A checked step that succeeds with the plain step's result wherever the
invariant holds makes a whole checked run succeed with the plain run's. -/
theorem foldlM_eq_foldl {P : σ → Prop} {checked : σ → ι → Option σ}
    (once : ∀ s i, P s → checked s i = some (step s i) ∧ P (step s i)) (inputs : List ι) {s : σ}
    (start : P s) : inputs.foldlM checked s = some (inputs.foldl step s) := by
  induction inputs generalizing s with
  | nil => rfl
  | cons i rest ih =>
    obtain ⟨succeeds, kept⟩ := once s i start
    rw [List.foldlM_cons, succeeds]
    exact ih kept

end DockerDns.Library
