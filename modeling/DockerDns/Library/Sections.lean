/-!
# Tasks that work in critical sections

A task touches the store it shares with others in critical sections, one after
another; what a section finds decides how the task goes on. Between two sections
the others may look at the store. `run` is the task on its own, `Every P` says
that whoever looks, and whenever, finds `P`.
-/
namespace DockerDns.Library

/-- A computation by sections: each updates the store, and the rest depends on the
store as the section found it. -/
inductive Sectioned (σ α : Type) where
  | pure (a : α)
  | enter (update : σ → σ) (next : σ → Sectioned σ α)

namespace Sectioned
variable {σ τ α β : Type}

def bind : Sectioned σ α → (α → Sectioned σ β) → Sectioned σ β
  | .pure a, f => f a
  | .enter update next, f => .enter update fun s => (next s).bind f

instance : Monad (Sectioned σ) where
  pure := .pure
  bind := .bind

instance : LawfulMonad (Sectioned σ) := by
  refine LawfulMonad.mk' _ ?_ ?_ ?_
  · intro α x
    induction x with
    | pure a => rfl
    | enter update next ih => exact congrArg (Sectioned.enter update) (funext ih)
  · intros
    rfl
  · intro α β γ x f g
    induction x with
    | pure a => rfl
    | enter update next ih => exact congrArg (Sectioned.enter update) (funext ih)

/-- A section that only looks. -/
def read (f : σ → α) : Sectioned σ α := .enter id fun s => .pure (f s)

/-- A section that only writes. -/
def modify (f : σ → σ) : Sectioned σ Unit := .enter f fun _ => .pure ()

/-- A section that writes and reports what it found. -/
def modifyGet (f : σ → α × σ) : Sectioned σ α := .enter (fun s => (f s).2) fun s => .pure (f s).1

/-- The result and the last store of the task. -/
def run : Sectioned σ α → σ → α × σ
  | .pure a, s => (a, s)
  | .enter update next, s => (next s).run (update s)

/-- `P` holds before the first section and after each. -/
def Every (P : σ → Prop) : Sectioned σ α → σ → Prop
  | .pure _, s => P s
  | .enter update next, s => P s ∧ (next s).Every P (update s)

section Run
variable (s : σ)

@[simp] theorem run_pure (a : α) : (Pure.pure a : Sectioned σ α).run s = (a, s) := rfl

@[simp] theorem run_read (f : σ → α) : (read f).run s = (f s, s) := rfl

@[simp] theorem run_modify (f : σ → σ) : (modify f).run s = ((), f s) := rfl

@[simp] theorem run_modifyGet (f : σ → α × σ) : (modifyGet f).run s = f s := rfl

@[simp] theorem run_bind (x : Sectioned σ α) (f : α → Sectioned σ β) :
    (x >>= f).run s = (f (x.run s).1).run (x.run s).2 := by
  induction x generalizing s with
  | pure a => rfl
  | enter update next ih => exact ih s (update s)

/-- A loop over a list folds the runs of its turns. -/
theorem run_forM (xs : List β) (f : β → Sectioned σ PUnit) :
    (xs.forM f).run s = (⟨⟩, xs.foldl (fun s x => ((f x).run s).2) s) := by
  induction xs generalizing s with
  | nil => rfl
  | cons x rest ih =>
    show (f x >>= fun _ => rest.forM f).run s = _
    rw [run_bind, ih]
    rfl

/-- A loop that carries a value folds the runs of its turns. -/
theorem run_foldlM (xs : List β) (f : α → β → Sectioned σ α) (a : α) :
    (xs.foldlM f a).run s = xs.foldl (fun acc x => (f acc.1 x).run acc.2) (a, s) := by
  induction xs generalizing s a with
  | nil => rfl
  | cons x rest ih =>
    rw [List.foldlM_cons, run_bind, ih]
    rfl

end Run

section Every
variable {P Q : σ → Prop} {s : σ}

theorem Every.first {x : Sectioned σ α} (every : x.Every P s) : P s := by
  cases x with
  | pure a => exact every
  | enter update next => exact every.1

theorem Every.last {x : Sectioned σ α} (every : x.Every P s) : P (x.run s).2 := by
  induction x generalizing s with
  | pure a => exact every
  | enter update next ih => exact ih s every.2

theorem Every.mono {x : Sectioned σ α} (every : x.Every P s) (implies : ∀ s, P s → Q s) :
    x.Every Q s := by
  induction x generalizing s with
  | pure a => exact implies s every
  | enter update next ih => exact ⟨implies s every.1, ih s every.2⟩

theorem Every.and {x : Sectioned σ α} (left : x.Every P s) (right : x.Every Q s) :
    x.Every (fun s => P s ∧ Q s) s := by
  induction x generalizing s with
  | pure a => exact ⟨left, right⟩
  | enter update next ih => exact ⟨⟨left.1, right.1⟩, ih s left.2 right.2⟩

@[simp] theorem every_pure (a : α) : (Pure.pure a : Sectioned σ α).Every P s ↔ P s := .rfl

@[simp] theorem every_read (f : σ → α) : (read f).Every P s ↔ P s := and_self_iff

@[simp] theorem every_modify (f : σ → σ) : (modify f).Every P s ↔ P s ∧ P (f s) := .rfl

@[simp] theorem every_modifyGet (f : σ → α × σ) : (modifyGet f).Every P s ↔ P s ∧ P (f s).2 := .rfl

theorem every_bind (x : Sectioned σ α) (f : α → Sectioned σ β) :
    (x >>= f).Every P s ↔ x.Every P s ∧ (f (x.run s).1).Every P (x.run s).2 := by
  induction x generalizing s with
  | pure a => exact ⟨fun every => ⟨every.first, every⟩, And.right⟩
  | enter update next ih => exact (and_congr_right fun _ => ih s).trans and_assoc.symm

/-- What a task reports at its end is no moment of its own. -/
theorem every_report (x : Sectioned σ α) (f : α → β) :
    (x >>= fun a => Pure.pure (f a)).Every P s ↔ x.Every P s := by
  rw [every_bind]
  exact ⟨And.left, fun every => ⟨every, every.last⟩⟩

/-- A loop keeps what each of its turns keeps: `inv` between the turns, `P` at
every moment. -/
theorem every_forM {inv : σ → Prop} (xs : List β) (f : β → Sectioned σ PUnit)
    (turn : ∀ x ∈ xs, ∀ s, inv s → (f x).Every P s ∧ inv ((f x).run s).2)
    (implies : ∀ s, inv s → P s) (start : inv s) :
    (xs.forM f).Every P s ∧ inv ((xs.forM f).run s).2 := by
  induction xs generalizing s with
  | nil => exact ⟨implies s start, start⟩
  | cons x rest ih =>
    obtain ⟨every, kept⟩ := turn x List.mem_cons_self s start
    have later := ih (fun y member => turn y (List.mem_cons_of_mem _ member)) kept
    show (f x >>= fun _ => rest.forM f).Every P s ∧
      inv ((f x >>= fun _ => rest.forM f).run s).2
    rw [every_bind, run_bind]
    exact ⟨⟨every, later.1⟩, later.2⟩

/-- The moments of a loop are those of its turns, each from the store the turns
before it left. -/
theorem every_forM_iff (xs : List β) (f : β → Sectioned σ PUnit) :
    (xs.forM f).Every P s ↔ P s ∧ ∀ front x back, xs = front ++ x :: back →
      (f x).Every P (front.foldl (fun s x => ((f x).run s).2) s) := by
  induction xs generalizing s with
  | nil =>
    refine (and_iff_left ?_).symm
    intro front x back split
    exact absurd split.symm (List.append_ne_nil_of_right_ne_nil _ (List.cons_ne_nil _ _))
  | cons x rest ih =>
    show (f x >>= fun _ => rest.forM f).Every P s ↔ _
    rw [every_bind, ih]
    constructor
    · intro every
      refine ⟨every.1.first, fun front y back split => ?_⟩
      rcases List.cons_eq_append_iff.mp split with ⟨rfl, same⟩ | ⟨later, rfl, same⟩
      · cases same
        exact every.1
      · exact every.2.2 later y back same
    · intro every
      have turn := every.2 [] x rest rfl
      exact ⟨turn, turn.last, fun front y back split =>
        every.2 (x :: front) y back (congrArg (x :: ·) split)⟩

/-- A loop that carries a value keeps what each of its turns keeps. -/
theorem every_foldlM (inv : α → σ → Prop) (xs : List β) (f : α → β → Sectioned σ α) {a : α}
    (turn : ∀ x ∈ xs, ∀ a s, inv a s → (f a x).Every P s ∧
      inv ((f a x).run s).1 ((f a x).run s).2)
    (implies : ∀ a s, inv a s → P s) (start : inv a s) :
    (xs.foldlM f a).Every P s ∧ inv ((xs.foldlM f a).run s).1 ((xs.foldlM f a).run s).2 := by
  induction xs generalizing s a with
  | nil => exact ⟨implies a s start, start⟩
  | cons x rest ih =>
    obtain ⟨every, kept⟩ := turn x List.mem_cons_self a s start
    have later := ih (fun y member => turn y (List.mem_cons_of_mem _ member)) kept
    rw [List.foldlM_cons, every_bind, run_bind]
    exact ⟨⟨every, later.1⟩, later.2⟩

end Every

/-- A part of a store that can be read and replaced on its own. -/
structure Part (τ σ : Type) where
  get : τ → σ
  put : τ → σ → τ
  get_put : ∀ t s, get (put t s) = s
  put_get : ∀ t, put t (get t) = t
  put_put : ∀ t s s', put (put t s) s' = put t s'

/-- The same sections on a larger store. -/
def within (part : Part τ σ) : Sectioned σ α → Sectioned τ α
  | .pure a => .pure a
  | .enter update next =>
    .enter (fun t => part.put t (update (part.get t))) fun t => (next (part.get t)).within part

section Within
variable (part : Part τ σ)

@[simp] theorem run_within (x : Sectioned σ α) (t : τ) :
    (x.within part).run t = ((x.run (part.get t)).1, part.put t (x.run (part.get t)).2) := by
  induction x generalizing t with
  | pure a => exact congrArg (Prod.mk a) (part.put_get t).symm
  | enter update next ih =>
    refine (ih (part.get t) _).trans ?_
    rw [part.get_put, part.put_put]
    rfl

theorem every_within {P : τ → Prop} (x : Sectioned σ α) (t : τ) :
    (x.within part).Every P t ↔ x.Every (fun s => P (part.put t s)) (part.get t) := by
  induction x generalizing t with
  | pure a =>
    show P t ↔ P (part.put t (part.get t))
    rw [part.put_get]
  | enter update next ih =>
    show P t ∧ _ ↔ P (part.put t (part.get t)) ∧ _
    rw [part.put_get, ih, part.get_put]
    simp only [part.put_put]

end Within

/-- What happens next: the task enters its next section, or someone asks. -/
inductive Turn (ρ : Type) where
  | work
  | ask (question : ρ)

/-- The answers under a schedule, each with its question. -/
def answers {ρ ω : Type} (answer : σ → ρ → ω) : Sectioned σ α → σ → List (Turn ρ) → List (ρ × ω)
  | _, _, [] => []
  | x, s, .ask question :: rest => (question, answer s question) :: x.answers answer s rest
  | .pure a, s, .work :: rest => answers answer (.pure a) s rest
  | .enter update next, s, .work :: rest => (next s).answers answer (update s) rest

/-- Under every schedule, every answer is that of a store satisfying `P`. -/
theorem Every.answers {ρ ω : Type} {P : σ → Prop} (answer : σ → ρ → ω) {x : Sectioned σ α} {s : σ}
    (every : x.Every P s) (schedule : List (Turn ρ)) :
    ∀ entry ∈ x.answers answer s schedule, ∃ seen, P seen ∧ entry.2 = answer seen entry.1 := by
  induction schedule generalizing x s with
  | nil => exact fun _ member => nomatch member
  | cons turn rest ih =>
    cases turn with
    | work =>
      cases x with
      | pure a => exact ih every
      | enter update next => exact ih every.2
    | ask question =>
      intro entry member
      rcases List.mem_cons.mp member with rfl | later
      · exact ⟨s, every.first, rfl⟩
      · exact ih every entry later

end Sectioned
end DockerDns.Library
