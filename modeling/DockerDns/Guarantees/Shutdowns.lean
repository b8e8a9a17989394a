import DockerDns.Guarantees.ProcessMoves
import DockerDns.Library.GuardedRuns

/-!
# How the process ends

Whatever the interleaving, a task that ends cancels the token, the main task
leaves its wait with the token cancelled, and the exit code tells why.
-/
namespace DockerDns.Guarantees
open Library Source

/-- A task that holds a guard has ended. -/
def SomeEnded (p : Process) : Prop :=
  p.listener = .ended ∨ p.consumer = .ended ∨ p.dns = .ended

def handlerOf (p : Process) : Signaled → Handler
  | .term => p.terminate
  | .int => p.interrupt

/-- The main task waits for the token or a signal. -/
def Waiting (p : Process) : Prop := p.main = .selecting ∨ p.main = .sigterm ∨ p.main = .sigint

/-- Why the main task leaves its wait. -/
inductive Cause (past : List ProcessMove) (p : Process) : Shutdown → Prop
  | stopped (ended : SomeEnded p) : Cause past p taskStopped
  | term (sent : .signal .term ∈ past) : Cause past p (.signal sigterm)
  | int (sent : .signal .int ∈ past) : Cause past p (.signal sigint)
  | unregisteredTerm (failed : .pollSigterm false ∈ past) :
      Cause past p (.unexpectedError Signaled.term.registrationFailed)
  | unregisteredInt (failed : .pollSigint false ∈ past) :
      Cause past p (.unexpectedError Signaled.int.registrationFailed)

/-- Why the process is over before the main task waits. -/
inductive EarlyCause (past : List ProcessMove) : Shutdown → Prop
  | setUp (report : String) (failed : .setUp (some report) ∈ past) :
      EarlyCause past (.unexpectedError report)
  | bind (report : String) (failed : .bind (some report) ∈ past) :
      EarlyCause past (.unexpectedError report)

/-- What holds of the token and the tasks while the main task is there. -/
def MainInvariant (past : List ProcessMove) (p : Process) : Main → Prop
  | .setUp => p.cancelled = false ∧ p.dns = .unbound
  | .binding => (p.cancelled = true → SomeEnded p) ∧ p.dns = .unbound
  | .selecting | .sigterm | .sigint => (p.cancelled = true → SomeEnded p) ∧ p.dns ≠ .unbound
  | .draining reason => p.cancelled = true ∧ Cause past p reason ∧ p.dns ≠ .unbound
  | .exited shutdown =>
    p.cancelled = true ∧ Cause past p shutdown ∨ p.dns = .unbound ∧ EarlyCause past shutdown
  | .killed number =>
    number = sigterm ∧ p.terminate = .unregistered ∧ .signal .term ∈ past ∨
      number = sigint ∧ p.interrupt = .unregistered ∧ .signal .int ∈ past

structure Orderly (past : List ProcessMove) (p : Process) : Prop where
  guarded : SomeEnded p → p.cancelled = true
  main : MainInvariant past p p.main
  sent : ∀ signal, handlerOf p signal = .arrived → .signal signal ∈ past

theorem orderly_initial (docker : Docker) (monitor : Monitor) :
    Orderly [] (.initial docker monitor) := by
  refine ⟨fun ended => ?_, ⟨rfl, rfl⟩, fun signal arrived => ?_⟩
  · rcases ended with ended | ended | ended <;> cases ended
  · cases signal <;> cases arrived

section Moves
variable {env : Env} {p p' : Process} {m : ProcessMove} {past past' : List ProcessMove}

/-- What the tasks and the surroundings may do to what the main task's invariant reads. -/
structure Aside (m : ProcessMove) (p p' : Process) : Prop where
  main : p'.main = p.main := by rfl
  ended : SomeEnded p → SomeEnded p' := by exact id
  guarded : (SomeEnded p → p.cancelled = true) → SomeEnded p' → p'.cancelled = true := by exact id
  unbound : p'.dns = .unbound ↔ p.dns = .unbound := by rfl
  cancelled : p'.cancelled = p.cancelled ∨
    p.main ≠ .setUp ∧ p'.cancelled = true ∧ SomeEnded p' := by exact .inl rfl
  unregistered : ∀ signal, handlerOf p signal = .unregistered →
    handlerOf p' signal = .unregistered := by exact fun _ => id
  arrived : ∀ signal, handlerOf p' signal = .arrived →
    handlerOf p signal = .arrived ∨ m = .signal signal := by exact fun _ => .inl

theorem Cause.mono {reason : Shutdown} (cause : Cause past p reason) (more : past ⊆ past')
    (ended : SomeEnded p → SomeEnded p') : Cause past' p' reason := by
  cases cause with
  | stopped stopped => exact .stopped (ended stopped)
  | term sent => exact .term (more sent)
  | int sent => exact .int (more sent)
  | unregisteredTerm failed => exact .unregisteredTerm (more failed)
  | unregisteredInt failed => exact .unregisteredInt (more failed)

theorem EarlyCause.mono {shutdown : Shutdown} (cause : EarlyCause past shutdown)
    (more : past ⊆ past') : EarlyCause past' shutdown := by
  cases cause with
  | setUp report failed => exact .setUp report (more failed)
  | bind report failed => exact .bind report (more failed)

theorem Aside.mainInvariant (aside : Aside m p p') (more : past ⊆ past')
    (inv : MainInvariant past p p.main) : MainInvariant past' p' p'.main := by
  have cause : ∀ {reason}, Cause past p reason → Cause past' p' reason :=
    fun cause => cause.mono more aside.ended
  have guard : (p.cancelled = true → SomeEnded p) → p'.cancelled = true → SomeEnded p' := by
    intro before now
    rcases aside.cancelled with same | ⟨_, _, here⟩
    · exact aside.ended (before (same ▸ now))
    · exact here
  have still : p.cancelled = true → p'.cancelled = true := by
    intro before
    rcases aside.cancelled with same | ⟨_, now, _⟩
    · exact same.trans before
    · exact now
  have bound : p.dns ≠ .unbound → p'.dns ≠ .unbound :=
    fun bound unbound => bound (aside.unbound.mp unbound)
  rw [aside.main]
  cases main : p.main with
  | setUp =>
    rw [main] at inv
    rcases aside.cancelled with same | ⟨other, _⟩
    · exact ⟨same.trans inv.1, aside.unbound.mpr inv.2⟩
    · exact absurd main other
  | binding =>
    rw [main] at inv
    exact ⟨guard inv.1, aside.unbound.mpr inv.2⟩
  | selecting | sigterm | sigint =>
    rw [main] at inv
    exact ⟨guard inv.1, bound inv.2⟩
  | draining reason =>
    rw [main] at inv
    exact ⟨still inv.1, cause inv.2.1, bound inv.2.2⟩
  | exited shutdown =>
    rw [main] at inv
    exact inv.imp (fun left => ⟨still left.1, cause left.2⟩)
      fun early => ⟨aside.unbound.mpr early.1, early.2.mono more⟩
  | killed number =>
    rw [main] at inv
    exact inv.imp (fun term => ⟨term.1, aside.unregistered .term term.2.1, more term.2.2⟩)
      fun int => ⟨int.1, aside.unregistered .int int.2.1, more int.2.2⟩

theorem Orderly.aside (orderly : Orderly past p) (aside : Aside m p p') :
    Orderly (past ++ [m]) p' where
  guarded := aside.guarded orderly.guarded
  main := aside.mainInvariant (List.subset_append_left past [m]) orderly.main
  sent signal arrived := by
    rcases aside.arrived signal arrived with before | rfl
    · exact List.mem_append_left _ (orderly.sent signal before)
    · exact List.mem_append_right _ (List.mem_singleton_self _)

/-- The main task, where no handler gets a signal. -/
private theorem Orderly.moves (orderly : Orderly past p)
    (guarded : SomeEnded p' → p'.cancelled = true)
    (main : past ⊆ past ++ [m] → m ∈ past ++ [m] → MainInvariant (past ++ [m]) p' p'.main)
    (handlers : ∀ signal, handlerOf p' signal = .arrived → handlerOf p signal = .arrived := by
      exact fun _ => id) : Orderly (past ++ [m]) p' where
  guarded := guarded
  main := main (List.subset_append_left _ _) (List.mem_append_right _ (List.mem_singleton_self _))
  sent signal arrived := List.mem_append_left _ (orderly.sent signal (handlers signal arrived))

theorem not_setUp_of_spawned (spawned : p.spawned = true) : p.main ≠ .setUp := by
  intro main
  simp [Process.spawned, main] at spawned

/-- A consumer that goes on. -/
private theorem Aside.alive (before : p.consumer ≠ .ended) (after : p'.consumer ≠ .ended)
    (listener : p'.listener = p.listener := by rfl) (dns : p'.dns = p.dns := by rfl)
    (main : p'.main = p.main := by rfl) (cancelled : p'.cancelled = p.cancelled := by rfl)
    (terminate : p'.terminate = p.terminate := by rfl)
    (interrupt : p'.interrupt = p.interrupt := by rfl) : Aside m p p' := by
  have ended : SomeEnded p' ↔ SomeEnded p := by
    simp only [SomeEnded, listener, dns, before, after]
  have handlers : ∀ signal, handlerOf p' signal = handlerOf p signal := by
    intro signal
    cases signal with
    | term => exact terminate
    | int => exact interrupt
  exact
    { main := main
      ended := ended.mpr
      guarded := fun guarded now => cancelled.trans (guarded (ended.mp now))
      unbound := by rw [dns]
      cancelled := .inl cancelled
      unregistered := fun signal => (handlers signal).trans
      arrived := fun signal arrived => .inl ((handlers signal).symm.trans arrived) }

theorem Orderly.moved (orderly : Orderly past p) (moved : Moved env p m p') :
    Orderly (past ++ [m]) p' := by
  have at_main := orderly.main
  cases moved with
  | same => exact orderly.aside {}
  | acted => exact orderly.aside {}
  | terminated registered =>
    refine orderly.aside { unregistered := fun signal unregistered => ?_, arrived := fun signal arrived => ?_ }
    · cases signal with
      | term => exact absurd unregistered registered
      | int => exact unregistered
    · cases signal with
      | term => exact .inr rfl
      | int => exact .inl arrived
  | interrupted registered =>
    refine orderly.aside { unregistered := fun signal unregistered => ?_, arrived := fun signal arrived => ?_ }
    · cases signal with
      | term => exact unregistered
      | int => exact absurd unregistered registered
    · cases signal with
      | term => exact .inl arrived
      | int => exact .inr rfl
  | killedByTerm unregistered =>
    exact orderly.moves orderly.guarded fun _ new => .inl ⟨rfl, unregistered, new⟩
  | killedByInt unregistered =>
    exact orderly.moves orderly.guarded fun _ new => .inr ⟨rfl, unregistered, new⟩
  | setUpFailed report main =>
    rw [main] at at_main
    exact orderly.moves orderly.guarded fun _ new => .inr ⟨at_main.2, .setUp report new⟩
  | setUp main =>
    rw [main] at at_main
    exact orderly.moves orderly.guarded fun _ _ =>
      ⟨fun cancelled => absurd (at_main.1.symm.trans cancelled) Bool.false_ne_true, at_main.2⟩
  | bindFailed report main =>
    rw [main] at at_main
    exact orderly.moves orderly.guarded fun _ new => .inr ⟨at_main.2, .bind report new⟩
  | bound main =>
    rw [main] at at_main
    -- the server was unbound, so it is not what has ended
    have ended : SomeEnded { p with main := .selecting, dns := .serving } ↔ SomeEnded p := by
      simp [SomeEnded, at_main.2]
    exact orderly.moves (fun now => orderly.guarded (ended.mp now)) fun _ _ =>
      ⟨fun cancelled => ended.mpr (at_main.1 cancelled), Dns.noConfusion⟩
  | stopped main cancelled =>
    rw [main] at at_main
    exact orderly.moves (fun _ => rfl) fun _ _ => ⟨rfl, .stopped (at_main.1 cancelled), at_main.2⟩
  | uncancelled main | registeredTerm main | registeredInt main | noTerm _ main | noInt _ main =>
    rw [main] at at_main
    refine orderly.moves orderly.guarded (fun _ _ => at_main) fun signal arrived => ?_
    cases signal <;> first | exact arrived | cases arrived
  | tookTerm _ main arrived =>
    rw [main] at at_main
    exact orderly.moves (fun _ => rfl) fun more _ =>
      ⟨rfl, .term (more (orderly.sent .term arrived)), at_main.2⟩
  | tookInt _ main arrived =>
    rw [main] at at_main
    exact orderly.moves (fun _ => rfl) fun more _ =>
      ⟨rfl, .int (more (orderly.sent .int arrived)), at_main.2⟩
  | unregisteredTerm main =>
    rw [main] at at_main
    exact orderly.moves (fun _ => rfl) fun _ new => ⟨rfl, .unregisteredTerm new, at_main.2⟩
  | unregisteredInt main =>
    rw [main] at at_main
    exact orderly.moves (fun _ => rfl) fun _ new => ⟨rfl, .unregisteredInt new, at_main.2⟩
  | tasksEnded reason main | timedOut reason main =>
    rw [main] at at_main
    exact orderly.moves orderly.guarded fun more _ =>
      .inl ⟨at_main.1, at_main.2.1.mono more id⟩
  | subscribed | forwarded => exact orderly.aside {}
  | listedNetworks | inspectedNetwork => exact orderly.aside {}
  | listenerStopped spawned =>
    exact orderly.aside
      { ended := fun _ => .inl rfl
        guarded := fun _ _ => rfl
        cancelled := .inr ⟨not_setUp_of_spawned spawned, rfl, .inl rfl⟩ }
  | consumerEnded _ spawned =>
    exact orderly.aside
      { ended := fun _ => .inr (.inl rfl)
        guarded := fun _ _ => rfl
        cancelled := .inr ⟨not_setUp_of_spawned spawned, rfl, .inr (.inl rfl)⟩ }
  | serverStopped spawned bound =>
    exact orderly.aside
      { ended := fun _ => .inr (.inr rfl)
        guarded := fun _ _ => rfl
        unbound := iff_of_false Dns.noConfusion bound
        cancelled := .inr ⟨not_setUp_of_spawned spawned, rfl, .inr (.inr rfl)⟩ }
  | serverStopping serving =>
    have ended : SomeEnded { p with dns := .stopping } ↔ SomeEnded p := by
      simp [SomeEnded, serving]
    exact orderly.aside
      { ended := ended.mpr
        guarded := fun guarded now => guarded (ended.mp now)
        unbound := by simp [serving] }
  | listedContainers _ consumer | polled consumer | received _ _ consumer | empty consumer
  | handled _ _ consumer =>
    exact orderly.aside (.alive (by simp [consumer]) Consumer.noConfusion)

end Moves

section Runs

theorem orderly (env : Env) (docker : Docker) (monitor : Monitor) (moves : List ProcessMove) :
    Orderly moves (moves.foldl (processMove env) (.initial docker monitor)) :=
  foldl_history moves (fun _ p m before => before.moved (moved env p m))
    (orderly_initial docker monitor)

/-- The exit codes, each with what must have happened. -/
inductive CodeTells (past : List ProcessMove) (p : Process) : ExitCode → Prop
  | term (sent : .signal .term ∈ past) (cancelled : p.cancelled = true) : CodeTells past p 143
  | int (sent : .signal .int ∈ past) (cancelled : p.cancelled = true) : CodeTells past p 130
  | taskEnded (ended : SomeEnded p) (cancelled : p.cancelled = true) : CodeTells past p 1
  | unregistered (failed : .pollSigterm false ∈ past ∨ .pollSigint false ∈ past)
      (cancelled : p.cancelled = true) : CodeTells past p 1
  | early (report : String) (failed : .setUp (some report) ∈ past ∨ .bind (some report) ∈ past)
      (unbound : p.dns = .unbound) : CodeTells past p 1

/-- An ended task never goes unnoticed, and in every run that is over the exit
code, or the signal that killed the process, tells why. -/
theorem exits_tell_why (env : Env) (docker : Docker) (monitor : Monitor)
    (moves : List ProcessMove) :
    let p := moves.foldl (processMove env) (.initial docker monitor)
    (SomeEnded p → p.cancelled = true) ∧ (Waiting p → p.cancelled = true → SomeEnded p) ∧
      (∀ shutdown, p.main = .exited shutdown → CodeTells moves p shutdown.report) ∧
      ∀ number, p.main = .killed number →
        number = sigterm ∧ p.terminate = .unregistered ∧ .signal .term ∈ moves ∨
          number = sigint ∧ p.interrupt = .unregistered ∧ .signal .int ∈ moves := by
  intro p
  have held : Orderly moves p := orderly env docker monitor moves
  have at_main := held.main
  refine ⟨held.guarded, fun waiting => ?_, fun shutdown exited => ?_, fun number killed => ?_⟩
  · rcases waiting with main | main | main <;> rw [main] at at_main <;> exact at_main.1
  · rw [exited] at at_main
    rcases at_main with ⟨cancelled, cause⟩ | ⟨unbound, cause⟩
    · cases cause with
      | stopped ended => exact .taskEnded ended cancelled
      | term sent => exact .term sent cancelled
      | int sent => exact .int sent cancelled
      | unregisteredTerm failed => exact .unregistered (.inl failed) cancelled
      | unregisteredInt failed => exact .unregistered (.inr failed) cancelled
    · cases cause with
      | setUp report failed => exact .early report (.inl failed) unbound
      | bind report failed => exact .early report (.inr failed) unbound
  · rw [killed] at at_main
    exact at_main

end Runs
end DockerDns.Guarantees
