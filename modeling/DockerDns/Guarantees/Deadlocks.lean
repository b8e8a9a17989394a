import DockerDns.Source.Guards
import Mathlib.Data.Fintype.Option

/-!
# The tasks never deadlock

The tables of the monitor and the catalog come first, the zone table and the
records of the zones after them, and no task asks for two locks of one rank at a
time. Renaming a container holds no guard while records move.
-/
namespace DockerDns.Guarantees
open Library Source Source.Guards

def rank : Lock → Nat
  | .containers | .networks | .catalog => 0
  | .reverseZones | .records _ => 1

def LockFree : Locking Lock → Prop
  | .skip => True
  | .scope _ _ _ => False
  | .seq first next => LockFree first ∧ LockFree next
  | .either left right => LockFree left ∧ LockFree right

/-- Only the records of zones are locked, and no two at a time: the lookups of the
library. -/
def RecordsOnly : Locking Lock → Prop
  | .skip => True
  | .scope lock _ body => (∃ zone, lock = .records zone) ∧ LockFree body
  | .seq first next => RecordsOnly first ∧ RecordsOnly next
  | .either left right => RecordsOnly left ∧ RecordsOnly right

theorem LockFree.above {code : Locking Lock} (free : LockFree code) (low : Nat) :
    code.Above rank low := by
  induction code with
  | skip => trivial
  | scope => exact free.elim
  | seq first next ih ih' => exact ⟨ih free.1, ih' free.2⟩
  | either left right ih ih' => exact ⟨ih free.1, ih' free.2⟩

theorem RecordsOnly.above {code : Locking Lock} (only : RecordsOnly code) : code.Above rank 1 := by
  induction code with
  | skip => trivial
  | scope lock mode body =>
    obtain ⟨⟨zone, rfl⟩, free⟩ := only
    exact ⟨Nat.le_refl 1, free.above _⟩
  | seq first next ih ih' => exact ⟨ih only.1, ih' only.2⟩
  | either left right ih ih' => exact ⟨ih only.1, ih' only.2⟩

section Table
variable {low : Nat} (inside : low ≤ 1)
include inside

theorem above_inZone (found : Option Handle) : (inZone found).Above rank low := by
  cases found with
  | none => trivial
  | some zone => exact Locking.above_touch inside

theorem above_upsert (found : Option Handle) : (upsert found).Above rank low :=
  ⟨Locking.above_touch inside, Locking.above_touch inside, above_inZone inside found⟩

theorem above_renameRecords (ips : List (Option Handle × Option Handle)) :
    (renameRecords ips).Above rank low :=
  ⟨Locking.above_touch inside, Locking.above_each fun ip _ =>
    ⟨Locking.above_touch inside, above_inZone inside ip.1, above_upsert inside ip.2⟩⟩

theorem above_removeRecord (record : Option (Option Handle)) :
    (removeRecord record).Above rank low := by
  cases record with
  | none => exact Locking.above_touch inside
  | some found =>
    exact ⟨Locking.above_touch inside, Locking.above_touch inside, above_inZone inside found⟩

end Table

section Monitor

theorem above_registerContainerNetworks (found : List (Option Handle)) :
    (registerContainerNetworks found).Above rank 0 :=
  ⟨Nat.le_refl 0, Locking.above_each fun zone _ => above_upsert (Nat.le_refl 1) zone⟩

theorem above_registerNetwork (zones : Nat) : (registerNetwork zones).Above rank 0 :=
  ⟨Locking.above_each fun _ _ =>
    ⟨Locking.above_touch (Nat.zero_le _), Locking.above_touch (Nat.zero_le _)⟩,
    Locking.above_touch (Nat.zero_le _)⟩

theorem above_deregisterZone (named : Bool) : (deregisterZone named).Above rank 0 := by
  refine ⟨Locking.above_touch (Nat.zero_le _), ?_⟩
  cases named with
  | false => trivial
  | true => exact Locking.above_touch (Nat.zero_le _)

theorem above_handleEvent (event : Handling) : (handleEvent event).Above rank 0 := by
  have removed : ∀ records : List (Option (Option Handle)),
      (Locking.each records removeAddress).Above rank 1 :=
    fun records => Locking.above_each fun record _ => above_removeRecord (Nat.le_refl 1) record
  cases event with
  | ignored => trivial
  | containerStart found => exact above_registerContainerNetworks found
  | containerRename a aaaa =>
    exact ⟨⟨above_renameRecords (Nat.zero_le 1) a, above_renameRecords (Nat.zero_le 1) aaaa⟩,
      Locking.above_touch (Nat.zero_le _)⟩
  | containerDie records =>
    exact ⟨Locking.above_touch (Nat.zero_le _),
      Locking.above_each fun record _ => above_removeRecord (Nat.zero_le 1) record⟩
  | networkConnect stale found =>
    exact ⟨Nat.le_refl 0, removed stale,
      Locking.above_each fun zone _ => above_upsert (Nat.le_refl 1) zone⟩
  | networkDisconnect records => exact ⟨Nat.le_refl 0, removed records⟩
  | networkCreate zones =>
    cases zones with
    | none => exact Locking.above_touch (Nat.zero_le _)
    | some zones => exact ⟨Locking.above_touch (Nat.zero_le _), above_registerNetwork zones⟩
  | networkDestroy zones =>
    exact ⟨Locking.above_touch (Nat.zero_le _),
      Locking.above_each fun named _ => above_deregisterZone named⟩

theorem above_dockerEventMonitor (networks : List Nat) (containers : List (List (Option Handle)))
    (events : List Handling) : (dockerEventMonitor networks containers events).Above rank 0 :=
  ⟨Locking.above_each fun zones _ => above_registerNetwork zones,
    Locking.above_each fun found _ => above_registerContainerNetworks found,
    Locking.above_each fun event _ => above_handleEvent event⟩

theorem above_handleRequest {lookup : Locking Lock} (only : RecordsOnly lookup)
    (intercepted : Bool) : (handleRequest intercepted lookup).Above rank 0 := by
  cases intercepted with
  | true => trivial
  | false => exact ⟨Nat.le_refl 0, only.above⟩

end Monitor

section Runs
variable {ι : Type} [DecidableEq ι] {networks : List Nat}
  {containers : List (List (Option Handle))} {events : List Handling} {intercepted : ι → Bool}
  {lookup : ι → Locking Lock} {schedule : List (Option ι)} {s : Locked (Option ι) Lock}

theorem disciplined_run (lookups : ∀ query, RecordsOnly (lookup query))
    (run : Turns (.start (tasks (dockerEventMonitor networks containers events)
      fun query => handleRequest (intercepted query) (lookup query))) schedule s) :
    Disciplined rank s := by
  refine (disciplined_start fun task => ?_).turns run
  cases task with
  | none => exact above_dockerEventMonitor networks containers events
  | some query => exact above_handleRequest (lookups query) (intercepted query)

theorem rank_le (lock : Lock) : rank lock ≤ 1 := by
  cases lock <;> simp only [rank, Nat.zero_le, Nat.le_refl]

/-- Whatever the monitor handles and however many queries run beside it, whoever is
not finished waits, if at all, at the end of a chain of tasks in its way, the last
of which can move. -/
theorem locks_never_deadlock (lookups : ∀ query, RecordsOnly (lookup query))
    (run : Turns (.start (tasks (dockerEventMonitor networks containers events)
      fun query => handleRequest (intercepted query) (lookup query))) schedule s)
    {task : Option ι} (unfinished : ¬ (s.tasks task).Finished) :
    ∃ mover, Relation.ReflTransGen (InWay s) task mover ∧ CanMove s mover :=
  unfinished_chain (disciplined_run lookups run) rank_le unfinished

/-- Beside finitely many queries every run ends, and ends with all tasks finished
and all locks free. -/
theorem locked_runs_finish [Fintype ι] (lookups : ∀ query, RecordsOnly (lookup query))
    (run : Turns (.start (tasks (dockerEventMonitor networks containers events)
      fun query => handleRequest (intercepted query) (lookup query))) schedule s) :
    schedule.length + s.size ≤ (Locked.start (tasks (dockerEventMonitor networks containers events)
        fun query => handleRequest (intercepted query) (lookup query))).size ∧
      ((∀ task, ¬ CanMove s task) → (∀ task, (s.tasks task).Finished) ∧
        ∀ lock, s.queue lock = [] ∧ ∀ mode, s.Free lock mode) :=
  ⟨run.length_le, (disciplined_run lookups run).finished rank_le⟩

end Runs

section Examples

/-- Two queries that are not intercepted read the records of the forward zone,
beside a monitor that registers one zone. -/
abbrev twoQueries : Option Bool → Locking Lock :=
  tasks (dockerEventMonitor [1] [] []) fun _ => handleRequest false (.touch (.records none) .read)

theorem recordsOnly_forward (_ : Bool) :
    RecordsOnly (.touch (.records none) .read) := ⟨⟨none, rfl⟩, trivial⟩

/-- One query holds the catalog, the monitor waits to write it, and the other
query waits behind the monitor. -/
def contended : Locked (Option Bool) Lock where
  tasks
    | none => .waiting .catalog .write .skip
      [.run .skip, .run (.touch .networks .write), .run .skip, .run (.seq .skip .skip)]
    | some true => .active [.run (.touch (.records none) .read), .held .catalog .read]
    | some false => .waiting .catalog .read (.touch (.records none) .read) []
  queue
    | .catalog => [none, some false]
    | _ => []

theorem exists_contended : ∃ schedule, Turns (.start twoQueries) schedule contended := by
  have run : Turns (.start twoQueries) [some true, some true, none, none, none, none, none, none,
      none, none, none, none, some false] _ :=
    .cons (.request rfl) <| .cons (.grant rfl rfl (by decide)) <|
    .cons (.alone rfl (.seq _ _ _)) <| .cons (.alone rfl (.seq _ _ _)) <|
    .cons (.alone rfl (.seq _ _ _)) <| .cons (.alone rfl (.seq _ _ _)) <|
    .cons (.alone rfl (.seq _ _ _)) <|
    -- the zone table, then the catalog
    .cons (.request rfl) <| .cons (.grant rfl rfl (by decide)) <|
    .cons (.alone rfl (.skip _)) <| .cons (.alone rfl (.release _ _ _)) <|
    .cons (.request rfl) <| .cons (.request rfl) (.none _)
  refine ⟨_, (congrArg (Turns (.start twoQueries) _) ?_).mp run⟩
  refine congrArg₂ Locked.mk (funext fun task => ?_) (funext fun lock => ?_)
  · rcases task with _ | _ | _ <;> rfl
  · cases lock <;> rfl

theorem locks_never_deadlock_queued : ∃ schedule, Turns (.start twoQueries) schedule contended ∧
    ∃ mover, Relation.ReflTransGen (InWay contended) (some false) mover ∧ CanMove contended mover := by
  obtain ⟨schedule, run⟩ := exists_contended
  exact ⟨schedule, run, locks_never_deadlock recordsOnly_forward run nofun⟩

/-- The catalog goes to the monitor, then to the other query. -/
theorem locked_runs_finish_in_turn : ∃ schedule s, Turns (.start twoQueries) schedule s ∧
    schedule.length + s.size ≤ (Locked.start twoQueries).size ∧ (∀ task, (s.tasks task).Finished) ∧
      ∀ lock, s.queue lock = [] ∧ ∀ mode, s.Free lock mode := by
  obtain ⟨_, front⟩ := exists_contended
  have back : Turns contended [some true, some true, some true, some true, some true,
      none, none, none, none, none, none, none, none, none, none, none, none,
      some false, some false, some false, some false, some false, some false] _ :=
    -- the first query reads the records and lets the catalog go
    .cons (.request rfl) <| .cons (.grant rfl rfl (by decide)) <|
    .cons (.alone rfl (.skip _)) <| .cons (.alone rfl (.release _ _ _)) <|
    .cons (.alone rfl (.release _ _ _)) <|
    -- the monitor writes the catalog, then its network table
    .cons (.grant rfl rfl (by decide)) <| .cons (.alone rfl (.skip _)) <|
    .cons (.alone rfl (.release _ _ _)) <| .cons (.alone rfl (.skip _)) <|
    .cons (.request rfl) <| .cons (.grant rfl rfl (by decide)) <|
    .cons (.alone rfl (.skip _)) <| .cons (.alone rfl (.release _ _ _)) <|
    .cons (.alone rfl (.skip _)) <| .cons (.alone rfl (.seq _ _ _)) <|
    .cons (.alone rfl (.skip _)) <| .cons (.alone rfl (.skip _)) <|
    .cons (.grant rfl rfl (by decide)) <|
    .cons (.request rfl) <| .cons (.grant rfl rfl (by decide)) <|
    .cons (.alone rfl (.skip _)) <| .cons (.alone rfl (.release _ _ _)) <|
    .cons (.alone rfl (.release _ _ _)) (.none _)
  have run := front.append back
  obtain ⟨bound, finish⟩ := locked_runs_finish recordsOnly_forward run
  exact ⟨_, _, run, bound, finish (by
    rintro (_ | _ | _)
    · exact not_canMove rfl
    · exact not_canMove rfl
    · exact not_canMove rfl)⟩

end Examples
end DockerDns.Guarantees
