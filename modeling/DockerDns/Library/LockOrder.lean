import Mathlib.Algebra.Order.BigOperators.Group.Finset
import Mathlib.Data.Fintype.Basic
import Mathlib.Data.List.Nodup
import Mathlib.Logic.Function.Basic
import Mathlib.Logic.Relation
import Mathlib.Tactic.Common

/-!
# Scoped locks in a fixed order

Tasks take locks for scopes of their code. A lock serves its requests in the
order they came, readers together. Where every lock is taken above those already
held, whoever waits waits behind a task that can move.
-/
namespace DockerDns.Library

inductive Mode where
  | read | write
  deriving DecidableEq, Repr

instance : Fintype Mode := ⟨{.read, .write}, fun mode => by cases mode <;> decide⟩

/-- What a task does with locks. -/
inductive Locking (Λ : Type) where
  | skip
  /-- the guard is held while the body runs -/
  | scope (lock : Λ) (mode : Mode) (body : Locking Λ)
  | seq (first next : Locking Λ)
  | either (left right : Locking Λ)

namespace Locking
variable {Λ α : Type}

/-- A guard that is dropped at once. -/
def touch (lock : Λ) (mode : Mode) : Locking Λ := .scope lock mode .skip

def each (xs : List α) (body : α → Locking Λ) : Locking Λ :=
  xs.foldr (fun x rest => .seq (body x) rest) .skip

/-- No lock below `low` is taken, and none inside a scope that is not above its lock. -/
def Above (rank : Λ → Nat) : Nat → Locking Λ → Prop
  | _, .skip => True
  | low, .scope lock _ body => low ≤ rank lock ∧ body.Above rank (rank lock + 1)
  | low, .seq first next => first.Above rank low ∧ next.Above rank low
  | low, .either left right => left.Above rank low ∧ right.Above rank low

/-- The turns a task takes for it, at most. -/
def size : Locking Λ → Nat
  | .skip => 1
  | .scope _ _ body => body.size + 3
  | .seq first next => first.size + next.size + 1
  | .either left right => left.size + right.size + 1

variable {rank : Λ → Nat} {low : Nat}

theorem above_touch {lock : Λ} {mode : Mode} (above : low ≤ rank lock) :
    (touch lock mode).Above rank low :=
  ⟨above, trivial⟩

theorem above_each {xs : List α} {body : α → Locking Λ}
    (above : ∀ x ∈ xs, (body x).Above rank low) : (each xs body).Above rank low := by
  induction xs with
  | nil => trivial
  | cons x rest ih =>
    rw [List.forall_mem_cons] at above
    exact ⟨above.1, ih above.2⟩

end Locking

/-- A layer of what a task has still to do. -/
inductive Frame (Λ : Type) where
  | run (code : Locking Λ)
  /-- a guard that is dropped when this layer is reached -/
  | held (lock : Λ) (mode : Mode)

inductive Task (Λ : Type) where
  | active (stack : List (Frame Λ))
  /-- queued for the lock of a scope -/
  | waiting (lock : Λ) (mode : Mode) (body : Locking Λ) (rest : List (Frame Λ))

namespace Task
variable {Λ : Type}

def stack : Task Λ → List (Frame Λ)
  | .active stack => stack
  | .waiting _ _ _ rest => rest

def Holds (task : Task Λ) (lock : Λ) (mode : Mode) : Prop := .held lock mode ∈ task.stack

def WaitsFor (task : Task Λ) (lock : Λ) : Prop := ∃ mode body rest, task = .waiting lock mode body rest

def Finished (task : Task Λ) : Prop := task = .active []

def holding (task : Task Λ) : List (Λ × Mode) :=
  task.stack.filterMap fun
    | .run _ => none
    | .held lock mode => some (lock, mode)

theorem mem_holding {task : Task Λ} {lock : Λ} {mode : Mode} :
    (lock, mode) ∈ task.holding ↔ task.Holds lock mode := by
  rw [holding, Holds, List.mem_filterMap]
  constructor
  · rintro ⟨frame, member, same⟩
    cases frame with
    | run code => cases same
    | held lock' mode' =>
      cases same
      exact member
  · exact fun member => ⟨_, member, rfl⟩

instance [DecidableEq Λ] (task : Task Λ) (lock : Λ) (mode : Mode) : Decidable (task.Holds lock mode) :=
  decidable_of_iff _ mem_holding

@[simp] theorem waitsFor_active (stack : List (Frame Λ)) (lock : Λ) :
    ¬ (active stack).WaitsFor lock := by
  rintro ⟨mode, body, rest, same⟩
  cases same

@[simp] theorem waitsFor_waiting (lock : Λ) (mode : Mode) (body : Locking Λ)
    (rest : List (Frame Λ)) (lock' : Λ) :
    (waiting lock mode body rest).WaitsFor lock' ↔ lock = lock' := by
  simp [WaitsFor]

end Task

/-- The tasks, and who is queued for each lock. -/
structure Locked (ι Λ : Type) where
  tasks : ι → Task Λ
  queue : Λ → List ι

namespace Locked
variable {ι Λ : Type}

def start (code : ι → Locking Λ) : Locked ι Λ := ⟨fun i => .active [.run (code i)], fun _ => []⟩

/-- The lock can be taken: a writer excludes everyone else. -/
def Free (s : Locked ι Λ) (lock : Λ) : Mode → Prop
  | .read => ∀ i, ¬ (s.tasks i).Holds lock .write
  | .write => ∀ i mode, ¬ (s.tasks i).Holds lock mode

instance [Fintype ι] [DecidableEq Λ] (s : Locked ι Λ) (lock : Λ) :
    (mode : Mode) → Decidable (s.Free lock mode)
  | .read => inferInstanceAs (Decidable (∀ i, ¬ (s.tasks i).Holds lock .write))
  | .write => inferInstanceAs (Decidable (∀ i mode, ¬ (s.tasks i).Holds lock mode))

end Locked

/-- What a task can do alone. -/
inductive Alone {Λ : Type} : List (Frame Λ) → List (Frame Λ) → Prop
  | skip (rest : List (Frame Λ)) : Alone (.run .skip :: rest) rest
  | seq (first next : Locking Λ) (rest : List (Frame Λ)) :
    Alone (.run (.seq first next) :: rest) (.run first :: .run next :: rest)
  | left (left right : Locking Λ) (rest : List (Frame Λ)) :
    Alone (.run (.either left right) :: rest) (.run left :: rest)
  | right (left right : Locking Λ) (rest : List (Frame Λ)) :
    Alone (.run (.either left right) :: rest) (.run right :: rest)
  | release (lock : Λ) (mode : Mode) (rest : List (Frame Λ)) :
    Alone (.held lock mode :: rest) rest

section Turns
variable {ι Λ : Type} [DecidableEq ι] [DecidableEq Λ]

/-- A turn of one task. -/
inductive Turned (s : Locked ι Λ) (i : ι) : Locked ι Λ → Prop
  | alone {stack stack' : List (Frame Λ)} (at_work : s.tasks i = .active stack)
      (moved : Alone stack stack') :
    Turned s i { s with tasks := Function.update s.tasks i (.active stack') }
  | request {lock : Λ} {mode : Mode} {body : Locking Λ} {rest : List (Frame Λ)}
      (asks : s.tasks i = .active (.run (.scope lock mode body) :: rest)) :
    Turned s i ⟨Function.update s.tasks i (.waiting lock mode body rest),
      Function.update s.queue lock (s.queue lock ++ [i])⟩
  | grant {lock : Λ} {mode : Mode} {body : Locking Λ} {rest : List (Frame Λ)} {behind : List ι}
      (waits : s.tasks i = .waiting lock mode body rest) (first : s.queue lock = i :: behind)
      (free : s.Free lock mode) :
    Turned s i ⟨Function.update s.tasks i (.active (.run body :: .held lock mode :: rest)),
      Function.update s.queue lock behind⟩

/-- A run, with whose turn it was each time. -/
inductive Turns : Locked ι Λ → List ι → Locked ι Λ → Prop
  | none (s : Locked ι Λ) : Turns s [] s
  | cons {s s' s'' : Locked ι Λ} {i : ι} {schedule : List ι} (first : Turned s i s')
      (later : Turns s' schedule s'') : Turns s (i :: schedule) s''

theorem Turns.append {s s' s'' : Locked ι Λ} {schedule schedule' : List ι}
    (front : Turns s schedule s') (back : Turns s' schedule' s'') :
    Turns s (schedule ++ schedule') s'' := by
  induction front with
  | none => exact back
  | cons first _ ih => exact .cons first (ih back)

def CanMove (s : Locked ι Λ) (i : ι) : Prop := ∃ s', Turned s i s'

end Turns

section Order
variable {ι Λ : Type} {rank : Λ → Nat}

/-- The least rank that may still be taken. -/
def floor (rank : Λ → Nat) : List (Frame Λ) → Nat
  | [] => 0
  | .held lock _ :: _ => rank lock + 1
  | .run _ :: rest => floor rank rest

/-- Every layer takes its locks above those held below it. -/
def Ranked (rank : Λ → Nat) : List (Frame Λ) → Prop
  | [] => True
  | .run code :: rest => code.Above rank (floor rank rest) ∧ Ranked rank rest
  | .held lock _ :: rest => floor rank rest ≤ rank lock ∧ Ranked rank rest

def Task.Ranked (rank : Λ → Nat) : Task Λ → Prop
  | .active stack => Library.Ranked rank stack
  | .waiting lock _ body rest =>
    floor rank rest ≤ rank lock ∧ body.Above rank (rank lock + 1) ∧ Library.Ranked rank rest

theorem Ranked.alone {stack stack' : List (Frame Λ)} (ranked : Ranked rank stack)
    (moved : Alone stack stack') : Ranked rank stack' := by
  cases moved with
  | skip => exact ranked.2
  | seq => exact ⟨ranked.1.1, ranked.1.2, ranked.2⟩
  | left => exact ⟨ranked.1.1, ranked.2⟩
  | right => exact ⟨ranked.1.2, ranked.2⟩
  | release => exact ranked.2

theorem Ranked.held_lt {stack : List (Frame Λ)} (ranked : Ranked rank stack) {lock : Λ}
    {mode : Mode} (held : .held lock mode ∈ stack) : rank lock < floor rank stack := by
  induction stack with
  | nil => cases held
  | cons frame rest ih =>
    rcases List.mem_cons.mp held with rfl | below
    · exact Nat.lt_succ_self _
    · cases frame with
      | run code => exact ih ranked.2 below
      | held lock' mode' =>
        exact Nat.lt_succ_of_lt (Nat.lt_of_lt_of_le (ih ranked.2 below) ranked.1)

/-- The tasks are ranked, and the queues hold those that wait. -/
structure Disciplined (rank : Λ → Nat) (s : Locked ι Λ) : Prop where
  ranked : ∀ i, (s.tasks i).Ranked rank
  queued : ∀ lock i, i ∈ s.queue lock ↔ (s.tasks i).WaitsFor lock
  distinct : ∀ lock, (s.queue lock).Nodup

theorem disciplined_start {code : ι → Locking Λ} (above : ∀ i, (code i).Above rank 0) :
    Disciplined rank (.start code) where
  ranked i := ⟨above i, trivial⟩
  queued lock i := by
    refine iff_of_false List.not_mem_nil ?_
    rintro ⟨mode, body, rest, same⟩
    cases same
  distinct _ := List.nodup_nil

section Invariant
variable [DecidableEq ι] {s : Locked ι Λ} {i : ι}

theorem ranked_update (ranked : ∀ i, (s.tasks i).Ranked rank) {task : Task Λ}
    (own : task.Ranked rank) : ∀ j, (Function.update s.tasks i task j).Ranked rank :=
  (Function.forall_update_iff s.tasks (p := fun _ task => task.Ranked rank)).mpr
    ⟨own, fun j _ => ranked j⟩

theorem waitsFor_update (task : Task Λ) (lock : Λ) (j : ι) :
    (Function.update s.tasks i task j).WaitsFor lock ↔
      (j = i ∧ task.WaitsFor lock) ∨ (j ≠ i ∧ (s.tasks j).WaitsFor lock) := by
  by_cases same : j = i
  · subst same
    simp
  · simp [same]

variable [DecidableEq Λ] {s' : Locked ι Λ}

omit [DecidableEq ι] in
theorem distinct_update (distinct : ∀ lock, (s.queue lock).Nodup) {lock : Λ} {queue : List ι}
    (own : queue.Nodup) : ∀ lock', (Function.update s.queue lock queue lock').Nodup :=
  (Function.forall_update_iff s.queue (p := fun _ queue => queue.Nodup)).mpr
    ⟨own, fun lock' _ => distinct lock'⟩

theorem Disciplined.turned (disciplined : Disciplined rank s) (turned : Turned s i s') :
    Disciplined rank s' := by
  obtain ⟨ranked, queued, distinct⟩ := disciplined
  have own := ranked i
  cases turned with
  | alone at_work moved =>
    have absent : ∀ lock, i ∉ s.queue lock := by simp [queued, at_work]
    rw [at_work] at own
    refine ⟨ranked_update ranked (own.alone moved), fun lock j => ?_, distinct⟩
    rw [waitsFor_update, ← queued]
    by_cases same : j = i
    · simp [same, absent]
    · simp [same]
  | @request lock _ _ _ asks =>
    have absent : ∀ lock, i ∉ s.queue lock := by simp [queued, asks]
    have appended : (s.queue lock ++ [i]).Nodup :=
      List.concat_eq_append ▸ List.Nodup.concat (absent lock) (distinct lock)
    rw [asks] at own
    refine ⟨ranked_update ranked ⟨own.1.1, own.1.2, own.2⟩, fun lock' j => ?_,
      distinct_update distinct appended⟩
    rw [waitsFor_update, ← queued]
    by_cases here : lock' = lock
    · subst here
      by_cases same : j = i <;> simp [same]
    · by_cases same : j = i
      · simp [same, here, absent, Ne.symm here]
      · simp [same, here]
  | @grant lock _ _ _ behind waits first free =>
    have head := distinct lock
    rw [first, List.nodup_cons] at head
    rw [waits] at own
    refine ⟨ranked_update ranked ⟨own.2.1, own.1, own.2.2⟩, fun lock' j => ?_,
      distinct_update distinct head.2⟩
    rw [waitsFor_update, ← queued]
    by_cases here : lock' = lock
    · subst here
      by_cases same : j = i
      · simp [same, head.1]
      · simp [same, first]
    · have absent : i ∉ s.queue lock' := by simp [queued, waits, Ne.symm here]
      by_cases same : j = i
      · simp [same, here, absent]
      · simp [same, here]

theorem Disciplined.turns (disciplined : Disciplined rank s) {schedule : List ι}
    (turns : Turns s schedule s') : Disciplined rank s' := by
  induction turns with
  | none => exact disciplined
  | cons first _ ih => exact ih (disciplined.turned first)

end Invariant

section Chains
variable {s : Locked ι Λ} {i j : ι} {lock : Λ}

/-- `j` is before `i` in the queue `i` waits in, or holds the lock. -/
def InWay (s : Locked ι Λ) (i j : ι) : Prop :=
  ∃ lock ahead behind, s.queue lock = ahead ++ i :: behind ∧
    (j ∈ ahead ∨ ∃ mode, (s.tasks j).Holds lock mode)

theorem exists_holder {mode : Mode} (taken : ¬ s.Free lock mode) :
    ∃ k mode', (s.tasks k).Holds lock mode' := by
  cases mode with
  | read =>
    obtain ⟨k, held⟩ := not_forall_not.mp taken
    exact ⟨k, .write, held⟩
  | write =>
    obtain ⟨k, some⟩ := not_forall.mp taken
    obtain ⟨mode', held⟩ := not_forall_not.mp some
    exact ⟨k, mode', held⟩

variable [DecidableEq ι] [DecidableEq Λ]

theorem canMove_active {frame : Frame Λ} {rest : List (Frame Λ)}
    (at_work : s.tasks i = .active (frame :: rest)) : CanMove s i := by
  cases frame with
  | run code =>
    cases code with
    | skip => exact ⟨_, .alone at_work (.skip rest)⟩
    | scope lock mode body => exact ⟨_, .request at_work⟩
    | seq first next => exact ⟨_, .alone at_work (.seq first next rest)⟩
    | either left right => exact ⟨_, .alone at_work (.left left right rest)⟩
  | held lock mode => exact ⟨_, .alone at_work (.release lock mode rest)⟩

theorem not_canMove (finished : (s.tasks i).Finished) : ¬ CanMove s i := by
  rintro ⟨s', turned⟩
  unfold Task.Finished at finished
  cases turned with
  | alone at_work moved =>
    cases finished.symm.trans at_work
    cases moved
  | request asks => cases finished.symm.trans asks
  | grant waits => cases finished.symm.trans waits

/-- By induction on how many ranks are above the lock that is waited for: a holder
that waits too waits for a higher one. -/
theorem waiting_chain (disciplined : Disciplined rank s) {top : Nat}
    (bounded : ∀ lock, rank lock ≤ top)
    (waits : (s.tasks i).WaitsFor lock) :
    ∃ j, Relation.ReflTransGen (InWay s) i j ∧ CanMove s j := by
  induction above : top - rank lock using Nat.strongRecOn generalizing i lock with
  | ind n ih =>
    obtain ⟨ahead, behind, split⟩ := List.append_of_mem ((disciplined.queued lock i).mpr waits)
    obtain ⟨j, behind', first⟩ : ∃ j behind', s.queue lock = j :: behind' := by
      rw [split]
      cases ahead <;> exact ⟨_, _, rfl⟩
    have to_first : Relation.ReflTransGen (InWay s) i j := by
      cases ahead with
      | nil =>
        cases split.symm.trans first
        exact .refl
      | cons j' ahead =>
        cases split.symm.trans first
        exact .single ⟨lock, _, _, split, .inl List.mem_cons_self⟩
    obtain ⟨mode, body, rest, waits'⟩ := (disciplined.queued lock j).mp (first ▸ List.mem_cons_self)
    by_cases free : s.Free lock mode
    · exact ⟨j, to_first, _, .grant waits' first free⟩
    obtain ⟨k, mode', held⟩ := exists_holder free
    have to_holder : Relation.ReflTransGen (InWay s) i k :=
      to_first.tail ⟨lock, [], behind', first, .inr ⟨mode', held⟩⟩
    have ranked := disciplined.ranked k
    cases at_work : s.tasks k with
    | active stack =>
      rw [Task.Holds, at_work] at held
      cases stack with
      | nil => cases held
      | cons frame rest => exact ⟨k, to_holder, canMove_active at_work⟩
    | waiting lock' mode'' body' rest' =>
      rw [Task.Holds, at_work] at held
      rw [at_work] at ranked
      have higher := Nat.lt_of_lt_of_le (ranked.2.2.held_lt held) ranked.1
      have limit := bounded lock'
      obtain ⟨l, chain, moves⟩ := ih (top - rank lock') (by omega) ⟨mode'', body', rest', at_work⟩ rfl
      exact ⟨l, to_holder.trans chain, moves⟩

/-- Whoever is not finished waits, if at all, at the end of a chain of tasks in its
way, the last of which can move. -/
theorem unfinished_chain (disciplined : Disciplined rank s) {top : Nat}
    (bounded : ∀ lock, rank lock ≤ top)
    (unfinished : ¬ (s.tasks i).Finished) :
    ∃ j, Relation.ReflTransGen (InWay s) i j ∧ CanMove s j := by
  cases at_work : s.tasks i with
  | active stack =>
    cases stack with
    | nil => exact absurd at_work unfinished
    | cons frame rest => exact ⟨i, .refl, canMove_active at_work⟩
  | waiting lock mode body rest => exact waiting_chain disciplined bounded ⟨mode, body, rest, at_work⟩

end Chains

section Budget

def Frame.size : Frame Λ → Nat
  | .run code => code.size
  | .held _ _ => 1

def stackSize : List (Frame Λ) → Nat
  | [] => 0
  | frame :: rest => frame.size + stackSize rest

def Task.size : Task Λ → Nat
  | .active stack => stackSize stack
  | .waiting _ _ body rest => body.size + 2 + stackSize rest

theorem Alone.size_lt {stack stack' : List (Frame Λ)} (moved : Alone stack stack') :
    stackSize stack' < stackSize stack := by
  cases moved <;> simp only [stackSize, Frame.size, Locking.size] <;> omega

variable [DecidableEq ι] [Fintype ι] {s s' : Locked ι Λ} {i : ι}

/-- The turns that are left, at most. -/
def Locked.size (s : Locked ι Λ) : Nat := ∑ i, (s.tasks i).size

theorem size_update {task : Task Λ} (less : task.size < (s.tasks i).size) :
    ∑ j, (Function.update s.tasks i task j).size < s.size := by
  refine Finset.sum_lt_sum (fun j _ => ?_) ⟨i, Finset.mem_univ i, by rwa [Function.update_self]⟩
  by_cases same : j = i
  · subst same
    rw [Function.update_self]
    exact Nat.le_of_lt less
  · rw [Function.update_of_ne same]

variable [DecidableEq Λ]

theorem Turned.size_lt (turned : Turned s i s') : s'.size < s.size := by
  cases turned with
  | alone at_work moved => exact size_update (at_work ▸ moved.size_lt)
  | request asks =>
    apply size_update
    simp only [asks, Task.size, stackSize, Frame.size, Locking.size]
    omega
  | grant waits =>
    apply size_update
    simp only [waits, Task.size, stackSize, Frame.size]
    omega

theorem Turns.length_le {schedule : List ι} (turns : Turns s schedule s') :
    schedule.length + s'.size ≤ s.size := by
  induction turns with
  | none => exact Nat.le_of_eq (Nat.zero_add _)
  | cons first _ ih =>
    have less := first.size_lt
    rw [List.length_cons]
    omega

end Budget

section Ends
variable [DecidableEq ι] [DecidableEq Λ] {s s' : Locked ι Λ}

/-- When no task can move all are finished, no lock is taken and none queued for. -/
theorem Disciplined.finished (disciplined : Disciplined rank s) {top : Nat}
    (bounded : ∀ lock, rank lock ≤ top) (stuck : ∀ i, ¬ CanMove s i) :
    (∀ i, (s.tasks i).Finished) ∧ ∀ lock, s.queue lock = [] ∧ ∀ mode, s.Free lock mode := by
  have finished : ∀ i, (s.tasks i).Finished := by
    intro i
    by_contra unfinished
    obtain ⟨j, _, moves⟩ := unfinished_chain disciplined bounded unfinished
    exact stuck j moves
  have released : ∀ i lock mode, ¬ (s.tasks i).Holds lock mode := by
    intro i lock mode held
    rw [finished i] at held
    cases held
  refine ⟨finished, fun lock => ⟨List.eq_nil_iff_forall_not_mem.mpr fun i queued => ?_, fun mode => ?_⟩⟩
  · have waits := (disciplined.queued lock i).mp queued
    rw [finished i] at waits
    exact Task.waitsFor_active _ _ waits
  · cases mode with
    | read => exact fun i => released i lock .write
    | write => exact fun i mode => released i lock mode

end Ends
end Order
end DockerDns.Library
