import DockerDns.Guarantees.Shutdowns
import DockerDns.Source.Reference
import DockerDns.Library.FairRuns

/-!
# The process stops

Once the token is cancelled or an awaited signal has arrived, the process is
over after finitely many moves, without the timeout: every task that can go on
is polled again, every call under way is answered, and the Docker client's
listener and the DNS server return once the token is cancelled.
-/
namespace DockerDns.Guarantees
open Library Source

/-- What a party of the process waits for. -/
inductive Due where
  | setUp | bind | select | sigterm | sigint | drained
  | listener
  | networks | network | containers | token | channel | event
  | server | stop

/-- A call of `start` may also fail. -/
def Answers : Due → ProcessMove → Prop
  | .setUp, .setUp _ | .bind, .bind _ | .select, .select | .sigterm, .pollSigterm _
  | .sigint, .pollSigint _ | .drained, .tasksEnded | .listener, .listenerStops
  | .networks, .listNetworks | .networks, .listingFails | .network, .inspectNetwork
  | .containers, .listContainers _ | .containers, .listingFails | .token, .pollToken
  | .channel, .receive | .event, .handle _ | .server, .pollServer | .stop, .serverStops => True
  | _, _ => False

/-- The parties that wait, each for its next move. -/
def Owed (p : Process) : Due → Prop
  | .setUp => p.main = .setUp
  | .bind => p.main = .binding
  | .select => p.main = .selecting
  | .sigterm => p.main = .sigterm
  | .sigint => p.main = .sigint
  | .drained => (∃ reason, p.main = .draining reason) ∧
    p.listener = .ended ∧ p.consumer = .ended ∧ p.dns = .ended
  | .listener => p.cancelled = true ∧ p.listener = .running
  | .networks => p.consumer = .starting ∧ p.phase = .starting
  | .network => p.consumer = .starting ∧ ∃ id networks, p.phase = .inspecting (id :: networks)
  | .containers => p.consumer = .starting ∧ p.phase = .inspecting []
  | .token => p.consumer = .polling
  | .channel => p.consumer = .receiving
  | .event => ∃ notice, p.consumer = .handling notice
  | .server => p.cancelled = true ∧ p.dns = .serving
  | .stop => p.cancelled = true ∧ p.dns = .stopping

section Signalled
variable {env : Env} {p p' : Process} {m : ProcessMove}

/-- How many polls the main task is from the signal that has arrived. -/
def pollsLeft : Main → Handler → Nat
  | .setUp, .arrived => 5
  | .binding, .arrived => 4
  | .sigint, .arrived => 3
  | .selecting, .arrived => 2
  | .sigterm, .arrived => 1
  -- only SIGINT has
  | .setUp, _ => 10
  | .binding, _ => 9
  | .selecting, _ => 8
  | .sigterm, _ => 7
  | .sigint, _ => 6
  | _, _ => 0

def SignalArrived (p : Process) : Prop := p.terminate = .arrived ∨ p.interrupt = .arrived

theorem SignalArrived.moved (arrived : SignalArrived p) (moved : Moved env p m p') :
    SignalArrived p' := by
  cases moved with
  | terminated => exact .inl rfl
  | interrupted => exact .inr rfl
  | registeredTerm _ unregistered =>
    refine .inr (arrived.resolve_left ?_)
    simp [unregistered]
  | registeredInt _ unregistered =>
    refine .inl (arrived.resolve_right ?_)
    simp [unregistered]
  | _ => exact arrived

/-- What the main task waits for. -/
def mainNext : Main → Due
  | .setUp => .setUp
  | .binding => .bind
  | .sigterm => .sigterm
  | .sigint => .sigint
  | _ => .select

/-- What it waits for moves it on. -/
theorem main_answered (alive : p.gone = false) (undrained : ∀ reason, p.main ≠ .draining reason)
    (answers : Answers (mainNext p.main) m) : (processMove env p m).main ≠ p.main := by
  cases main : p.main <;> rw [main] at answers <;> cases m <;> try exact answers.elim
  case setUp.setUp error => cases error <;> simp [processMove, Process.mainMove, main]
  case binding.bind error => cases error <;> simp [processMove, Process.mainMove, main]
  case selecting.select =>
    cases cancelled : p.cancelled <;>
      simp [processMove, Process.mainMove, Process.leave, main, cancelled]
  case sigterm.pollSigterm registered =>
    cases terminate : p.terminate <;> cases registered <;>
      simp [processMove, Process.mainMove, Process.leave, main, terminate]
  case sigint.pollSigint registered =>
    cases interrupt : p.interrupt <;> cases registered <;>
      simp [processMove, Process.mainMove, Process.leave, main, interrupt]
  case draining.select reason => exact absurd main (undrained reason)
  case exited.select => simp [Process.gone, main] at alive
  case killed.select => simp [Process.gone, main] at alive

/-- On its way to a signal that has arrived. -/
structure Approaching (p : Process) : Prop where
  arrived : SignalArrived p
  draining : ∀ reason, p.main = .draining reason → p.cancelled = true

def StoppedOrStopping (p : Process) : Prop := p.cancelled = true ∨ p.gone = true

theorem pollsLeft_pos (approaching : Approaching p) (going : ¬ StoppedOrStopping p) :
    0 < pollsLeft p.main p.terminate := by
  obtain ⟨uncancelled, alive⟩ := not_or.mp going
  cases main : p.main with
  | draining reason => exact absurd (approaching.draining reason main) uncancelled
  | exited | killed => simp [Process.gone, main] at alive
  | _ => cases p.terminate <;> simp [pollsLeft]

/-- Nobody but the main task moves it, and it only comes closer to the signal. -/
theorem pollsLeft_moved (approaching : Approaching p) (going : ¬ StoppedOrStopping p)
    (moved : Moved env p m p') :
    (p'.main, p'.terminate) = (p.main, p.terminate) ∨
      pollsLeft p'.main p'.terminate < pollsLeft p.main p.terminate := by
  have left := pollsLeft_pos approaching going
  cases moved with
  | terminated =>
    cases main : p.main <;> cases terminate : p.terminate <;>
      simp [pollsLeft, main, terminate] at left ⊢
  | setUp main | bound main | uncancelled main =>
    cases p.terminate <;> simp [pollsLeft, main]
  | registeredTerm main unregistered => simp [pollsLeft, main, unregistered]
  | noTerm _ main waiting => simp [pollsLeft, main, waiting]
  | registeredInt main unregistered =>
    have term := approaching.arrived.resolve_right (by simp [unregistered])
    simp [pollsLeft, main, term]
  | noInt _ main waiting =>
    have term := approaching.arrived.resolve_right (by simp [waiting])
    simp [pollsLeft, main, term]
  | tasksEnded reason main | timedOut reason main => simp [pollsLeft, main] at left
  | setUpFailed | bindFailed | killedByTerm | killedByInt | stopped | tookTerm | tookInt |
    unregisteredTerm | unregisteredInt => exact .inr left
  | _ => exact .inl rfl

theorem pollsLeft_answered (approaching : Approaching p) (going : ¬ StoppedOrStopping p)
    (answers : Answers (mainNext p.main) m) :
    pollsLeft (processMove env p m).main (processMove env p m).terminate <
      pollsLeft p.main p.terminate := by
  obtain ⟨uncancelled, alive⟩ := not_or.mp going
  have moves : (processMove env p m).main ≠ p.main := main_answered (Bool.not_eq_true _ ▸ alive)
    (fun reason main => uncancelled (approaching.draining reason main)) answers
  refine (pollsLeft_moved approaching going (moved env p m)).resolve_left fun same => ?_
  exact moves (congrArg Prod.fst same)

theorem main_owed (alive : p.gone = false) (undrained : ∀ reason, p.main ≠ .draining reason) :
    Owed p (mainNext p.main) := by
  cases main : p.main with
  | draining reason => exact absurd main (undrained reason)
  | exited | killed => simp [Process.gone, main] at alive
  | _ => exact main

theorem approaching_of_orderly {past : List ProcessMove} (arrived : SignalArrived p)
    (orderly : Orderly past p) : Approaching p where
  arrived := arrived
  draining reason main := by
    have at_main := orderly.main
    rw [main] at at_main
    exact at_main.1

/-- A signal that has arrived is taken. -/
theorem signal_taken {inputs : Nat → ProcessMove} {past : List ProcessMove}
    (arrived : SignalArrived p) (orderly : Orderly past p)
    (fair : Fair (processMove env) Answers Owed p inputs) :
    ∃ n, StoppedOrStopping (states (processMove env) p inputs n) := by
  refine fair_reaches (fun p => (p.main, p.terminate))
    (fun control => pollsLeft control.1 control.2) (fun control => mainNext control.1)
    (fun p => SignalArrived p ∧ ∃ past, Orderly past p) StoppedOrStopping Nat.lt_wfRel.wf ?_ ?_ ?_ ?_
    ⟨arrived, past, orderly⟩ fair
  · rintro p m ⟨arrived, past, orderly⟩
    exact ⟨arrived.moved (moved env p m), _, orderly.moved (moved env p m)⟩
  · rintro p m ⟨arrived, past, orderly⟩ going
    exact pollsLeft_moved (approaching_of_orderly arrived orderly) going (moved env p m)
  · rintro p m ⟨arrived, past, orderly⟩ going answers
    exact pollsLeft_answered (approaching_of_orderly arrived orderly) going answers
  · rintro p ⟨arrived, past, orderly⟩ going
    obtain ⟨uncancelled, alive⟩ := not_or.mp going
    have approaching := approaching_of_orderly arrived orderly
    exact main_owed (Bool.not_eq_true _ ▸ alive)
      fun reason main => uncancelled (approaching.draining reason main)

end Signalled
section Cancelled
variable {env : Env} {p p' : Process} {m : ProcessMove}

/-- Where the parties stand. -/
structure Standing where
  main : Main
  listener : Listener
  consumer : Consumer
  phase : Phase
  dns : Dns

def standing (p : Process) : Standing := ⟨p.main, p.listener, p.consumer, p.phase, p.dns⟩

def mainLeft : Main → Nat
  | .setUp => 6
  | .binding => 5
  | .sigterm => 4
  | .sigint => 3
  | .selecting => 2
  | .draining _ => 1
  | .exited _ | .killed _ => 0

def listenerLeft : Listener → Nat
  | .running => 1
  | .ended => 0

/-- Once the networks are listed, how many calls of `start` are left is known. -/
def consumerLeft : Consumer → Phase → Nat
  | .starting, .inspecting networks => 4 + networks.length
  | .receiving, _ => 3
  | .handling _, _ => 2
  | .polling, _ => 1
  | _, _ => 0

def listingLeft : Consumer → Phase → Nat
  | .starting, .starting => 1
  | _, _ => 0

def dnsLeft : Dns → Nat
  | .unbound | .serving => 2
  | .stopping => 1
  | .ended => 0

def movesLeft (s : Standing) : Nat × Nat :=
  (listingLeft s.consumer s.phase,
    mainLeft s.main + listenerLeft s.listener + consumerLeft s.consumer s.phase + dnsLeft s.dns)

abbrev Fewer : Nat × Nat → Nat × Nat → Prop := Prod.Lex (· < ·) (· < ·)

theorem fewer_of {a a' b b' : Nat} (first : a' ≤ a) (second : b' < b) : Fewer (a', b') (a, b) := by
  rcases Nat.lt_or_eq_of_le first with less | rfl
  · exact .left _ _ less
  · exact .right _ second

/-- Where a cancelled process can be. -/
structure Stopping (p : Process) : Prop where
  cancelled : p.cancelled = true
  bound : ∀ reason, p.main = .draining reason → p.dns ≠ .unbound
  starting : p.consumer = .starting → p.phase ≠ .consuming

theorem mainLeft_pos (alive : ¬ p.gone = true) : 0 < mainLeft p.main := by
  cases main : p.main with
  | exited | killed => simp [Process.gone, main] at alive
  | _ => simp [mainLeft]

/-- A cancelled process only comes closer to its end. -/
theorem standing_moved (stopping : Stopping p) (alive : ¬ p.gone = true) (moved : Moved env p m p') :
    standing p' = standing p ∨ Fewer (movesLeft (standing p')) (movesLeft (standing p)) := by
  have left := mainLeft_pos alive
  cases moved with
  | uncancelled _ uncancelled | polled _ uncancelled =>
    rw [stopping.cancelled] at uncancelled
    cases uncancelled
  | setUp main | stopped main | registeredTerm main | registeredInt main | noTerm _ main
  | noInt _ main | tookTerm _ main | tookInt _ main | unregisteredTerm main
  | unregisteredInt main | tasksEnded _ main | timedOut _ main | setUpFailed _ main
  | bindFailed _ main =>
    refine .inr (fewer_of (Nat.le_refl _) ?_)
    simp only [standing, Process.leave, main, mainLeft]
    omega
  | bound main =>
    refine .inr (fewer_of (Nat.le_refl _) ?_)
    simp only [standing, main, mainLeft]
    cases p.dns <;> simp only [dnsLeft] <;> omega
  | killedByTerm | killedByInt =>
    refine .inr (fewer_of (Nat.le_refl _) ?_)
    exact Nat.add_lt_add_right (Nat.add_lt_add_right (Nat.add_lt_add_right left _) _) _
  | listenerStopped =>
    cases listener : p.listener with
    | ended => exact .inl (by simp only [standing, Process.endListener, listener])
    | running =>
      refine .inr (fewer_of (Nat.le_refl _) ?_)
      simp only [standing, Process.endListener, listener, listenerLeft]
      omega
  | serverStopping serving =>
    refine .inr (fewer_of (Nat.le_refl _) ?_)
    simp only [standing, serving, dnsLeft]
    omega
  | serverStopped =>
    cases dns : p.dns with
    | ended => exact .inl (by simp only [standing, Process.endDns, dns])
    | unbound | serving | stopping =>
      refine .inr (fewer_of (Nat.le_refl _) ?_)
      simp only [standing, Process.endDns, dns, dnsLeft]
      omega
  | listedNetworks consumer phase =>
    refine .inr (.left _ _ ?_)
    simp only [standing, consumer, phase, listingLeft]
    decide
  | inspectedNetwork id networks consumer phase =>
    refine .inr (fewer_of ?_ ?_)
    · simp only [standing, consumer, listingLeft]
      exact Nat.zero_le _
    · simp only [standing, consumer, phase, consumerLeft, List.length_cons]
      omega
  | listedContainers orders consumer phase =>
    refine .inr (fewer_of (Nat.zero_le _) ?_)
    simp only [standing, consumer, phase, consumerLeft]
    omega
  | received _ _ consumer | empty consumer | handled _ _ consumer =>
    refine .inr (fewer_of (Nat.zero_le _) ?_)
    simp only [standing, consumer, consumerLeft]
    omega
  | consumerEnded =>
    cases consumer : p.consumer with
    | ended => exact .inl (by simp only [standing, Process.endConsumer, consumer])
    | polling | receiving | handling =>
      refine .inr (fewer_of (Nat.zero_le _) ?_)
      simp only [standing, Process.endConsumer, consumer, consumerLeft]
      omega
    | starting =>
      cases phase : p.phase with
      | starting =>
        refine .inr (.left _ _ ?_)
        simp only [standing, Process.endConsumer, consumer, phase, listingLeft]
        decide
      | inspecting networks =>
        refine .inr (fewer_of (Nat.zero_le _) ?_)
        simp only [standing, Process.endConsumer, consumer, phase, consumerLeft]
        omega
      | consuming => exact absurd phase (stopping.starting consumer)
  | _ => exact .inl rfl

/-- What the main task waits for when it waits for the others. -/
def tasksNext : Listener → Consumer → Phase → Dns → Due
  | .running, _, _, _ => .listener
  | .ended, .starting, .starting, _ => .networks
  | .ended, .starting, .inspecting [], _ => .containers
  | .ended, .starting, _, _ => .network
  | .ended, .polling, _, _ => .token
  | .ended, .receiving, _, _ => .channel
  | .ended, .handling _, _, _ => .event
  | .ended, .ended, _, .serving => .server
  | .ended, .ended, _, .stopping => .stop
  | .ended, .ended, _, _ => .drained

def standingNext (s : Standing) : Due :=
  match s.main with
  | .draining _ => tasksNext s.listener s.consumer s.phase s.dns
  | main => mainNext main

private theorem start_answered (spawned : p.spawned = true) (consumer : p.consumer = .starting)
    (consuming : p.phase ≠ .consuming)
    (answers : Answers (tasksNext .ended .starting p.phase p.dns) m) :
    standing (processMove env p m) ≠ standing p := by
  cases phase : p.phase with
  | starting =>
    rw [phase] at answers
    cases m <;> try exact answers.elim
    all_goals
      simp [processMove, spawned, Process.consumerMove, Process.endConsumer, consumer, phase, standing]
  | inspecting networks =>
    rw [phase] at answers
    cases networks with
    | nil =>
      cases m <;> try exact answers.elim
      all_goals
        simp [processMove, spawned, Process.consumerMove, Process.endConsumer, consumer, phase, standing]
    | cons id networks =>
      cases m <;> try exact answers.elim
      simp [processMove, spawned, Process.consumerMove, consumer, phase, standing]
  | consuming => exact absurd phase consuming

/-- Where the main task waits for the others. -/
private theorem drained_answered {reason : Shutdown} (stopping : Stopping p)
    (main : p.main = .draining reason)
    (answers : Answers (tasksNext p.listener p.consumer p.phase p.dns) m) :
    standing (processMove env p m) ≠ standing p := by
  have spawned : p.spawned = true := by simp [Process.spawned, main]
  cases listener : p.listener with
  | running =>
    rw [listener] at answers
    cases m <;> try exact answers.elim
    simp [processMove, spawned, Process.listenerMove, Process.endListener, listener, standing]
  | ended =>
    rw [listener] at answers
    cases consumer : p.consumer with
    | starting =>
      rw [consumer] at answers
      exact start_answered spawned consumer (stopping.starting consumer) answers
    | polling =>
      rw [consumer] at answers
      cases m <;> try exact answers.elim
      simp [processMove, spawned, Process.consumerMove, Process.endConsumer, consumer,
        stopping.cancelled, standing]
    | receiving =>
      rw [consumer] at answers
      cases m <;> try exact answers.elim
      cases channel : p.channel <;>
        simp [processMove, spawned, Process.consumerMove, Process.endConsumer, consumer, channel,
          listener, standing]
    | handling notice =>
      rw [consumer] at answers
      cases m <;> try exact answers.elim
      simp [processMove, spawned, Process.consumerMove, consumer, standing]
    | ended =>
      rw [consumer] at answers
      cases dns : p.dns with
      | unbound => exact absurd dns (stopping.bound reason main)
      | serving =>
        rw [dns] at answers
        cases m <;> try exact answers.elim
        simp [processMove, spawned, Process.dnsMove, dns, stopping.cancelled, standing]
      | stopping =>
        rw [dns] at answers
        cases m <;> try exact answers.elim
        simp [processMove, spawned, Process.dnsMove, Process.endDns, dns, standing]
      | ended =>
        rw [dns] at answers
        cases m <;> try exact answers.elim
        simp [processMove, Process.mainMove, main, listener, consumer, dns, standing]

private theorem standingNext_waiting (undrained : ∀ reason, p.main ≠ .draining reason) :
    standingNext (standing p) = mainNext p.main := by
  simp only [standingNext, standing]

theorem standing_answered (stopping : Stopping p) (alive : ¬ p.gone = true)
    (answers : Answers (standingNext (standing p)) m) :
    Fewer (movesLeft (standing (processMove env p m))) (movesLeft (standing p)) := by
  refine (standing_moved stopping alive (moved env p m)).resolve_left ?_
  by_cases draining : ∃ reason, p.main = .draining reason
  · obtain ⟨reason, main⟩ := draining
    simp only [standingNext, standing, main] at answers
    exact drained_answered stopping main answers
  · have undrained : ∀ reason, p.main ≠ .draining reason := not_exists.mp draining
    rw [standingNext_waiting undrained] at answers
    intro same
    exact main_answered (Bool.not_eq_true _ ▸ alive) undrained answers (congrArg Standing.main same)

theorem standing_owed (stopping : Stopping p) (alive : ¬ p.gone = true) :
    Owed p (standingNext (standing p)) := by
  by_cases draining : ∃ reason, p.main = .draining reason
  · obtain ⟨reason, main⟩ := draining
    simp only [standingNext, standing, main]
    cases listener : p.listener with
    | running => exact ⟨stopping.cancelled, listener⟩
    | ended =>
      cases consumer : p.consumer with
      | starting =>
        cases phase : p.phase with
        | starting => exact ⟨consumer, phase⟩
        | inspecting networks =>
          cases networks with
          | nil => exact ⟨consumer, phase⟩
          | cons id networks => exact ⟨consumer, id, networks, phase⟩
        | consuming => exact absurd phase (stopping.starting consumer)
      | polling | receiving => exact consumer
      | handling notice => exact ⟨notice, consumer⟩
      | ended =>
        cases dns : p.dns with
        | unbound => exact absurd dns (stopping.bound reason main)
        | serving | stopping => exact ⟨stopping.cancelled, dns⟩
        | ended => exact ⟨⟨reason, main⟩, listener, consumer, dns⟩
  · rw [standingNext_waiting (not_exists.mp draining)]
    exact main_owed (Bool.not_eq_true _ ▸ alive) (not_exists.mp draining)

/-- `start` has not returned while the consumer is in it. -/
def InStart (p : Process) : Prop := p.consumer = .starting → p.phase ≠ .consuming

theorem InStart.moved (starting : InStart p) (moved : Moved env p m p') : InStart p' := by
  cases moved with
  | listedNetworks | inspectedNetwork => exact fun _ => Phase.noConfusion
  | listedContainers | consumerEnded | polled | received | empty | handled =>
    exact fun here => Consumer.noConfusion here
  | _ => exact starting

theorem stopping_of_orderly {past : List ProcessMove} (cancelled : p.cancelled = true)
    (starting : InStart p) (orderly : Orderly past p) : Stopping p where
  cancelled := cancelled
  bound reason main := by
    have at_main := orderly.main
    rw [main] at at_main
    exact at_main.2.2
  starting := starting

/-- A cancelled process is over in the end. -/
theorem cancelled_stops {inputs : Nat → ProcessMove} {past : List ProcessMove}
    (cancelled : p.cancelled = true) (starting : InStart p) (orderly : Orderly past p)
    (fair : Fair (processMove env) Answers Owed p inputs) :
    ∃ n, (states (processMove env) p inputs n).gone = true := by
  refine fair_reaches standing movesLeft standingNext
    (fun p => p.cancelled = true ∧ InStart p ∧ ∃ past, Orderly past p) (Process.gone · = true)
    (Prod.lex Nat.lt_wfRel Nat.lt_wfRel).wf ?_ ?_ ?_ ?_ ⟨cancelled, starting, past, orderly⟩ fair
  · rintro p m ⟨cancelled, starting, past, orderly⟩
    have step := moved env p m
    exact ⟨cancelled_moved step cancelled, starting.moved step, _, orderly.moved step⟩
  · rintro p m ⟨cancelled, starting, past, orderly⟩ alive
    exact standing_moved (stopping_of_orderly cancelled starting orderly) alive (moved env p m)
  · rintro p m ⟨cancelled, starting, past, orderly⟩ alive answers
    exact standing_answered (stopping_of_orderly cancelled starting orderly) alive answers
  · rintro p ⟨cancelled, starting, past, orderly⟩ alive
    exact standing_owed (stopping_of_orderly cancelled starting orderly) alive

end Cancelled

section Stops
variable {env : Env}

theorem inStart_along (docker : Docker) (monitor : Monitor) (moves : List ProcessMove) :
    InStart (moves.foldl (processMove env) (.initial docker monitor)) :=
  foldl_invariant moves (fun p m starting => starting.moved (moved env p m))
    fun _ => Phase.noConfusion

/-- Whatever a process has done so far, once the token is cancelled or a signal
it waits for has arrived, it is over in the end, if nothing it waits for from then
on stays away for good. -/
theorem process_stops (docker : Docker) (monitor : Monitor) (moves : List ProcessMove)
    {p : Process} (reached : p = moves.foldl (processMove env) (.initial docker monitor))
    (asked : p.cancelled = true ∨ SignalArrived p) {inputs : Nat → ProcessMove}
    (fair : Fair (processMove env) Answers Owed p inputs) :
    ∃ n, (states (processMove env) p inputs n).gone = true := by
  have held : Orderly moves p := reached ▸ orderly env docker monitor moves
  have starting : InStart p := reached ▸ inStart_along docker monitor moves
  rcases asked with cancelled | arrived
  · exact cancelled_stops cancelled starting held fair
  · refine reaches_trans StoppedOrStopping (Process.gone · = true) (signal_taken arrived held fair)
      fun n taken => ?_
    rcases taken with cancelled | gone
    · have kept : ∀ p m, InStart p ∧ (∃ past, Orderly past p) →
          InStart (processMove env p m) ∧ ∃ past, Orderly past (processMove env p m) := by
        rintro p m ⟨starting, past, orderly⟩
        exact ⟨starting.moved (moved env p m), _, orderly.moved (moved env p m)⟩
      obtain ⟨starting, past, orderly⟩ := states_invariant kept ⟨starting, moves, held⟩ n
      exact cancelled_stops cancelled starting orderly (fair.shift n)
    · exact ⟨0, gone⟩

/-- Every party takes its turn, again and again. -/
def turn (n : Nat) : ProcessMove :=
  match n % 15 with
  | 0 => .setUp none
  | 1 => .bind none
  | 2 => .select
  | 3 => .pollSigterm true
  | 4 => .pollSigint true
  | 5 => .tasksEnded
  | 6 => .listenerStops
  | 7 => .listNetworks
  | 8 => .inspectNetwork
  | 9 => .listContainers .listed
  | 10 => .pollToken
  | 11 => .receive
  | 12 => .handle .listed
  | 13 => .pollServer
  | _ => .serverStops

def turnOf : Due → Nat
  | .setUp => 0
  | .bind => 1
  | .select => 2
  | .sigterm => 3
  | .sigint => 4
  | .drained => 5
  | .listener => 6
  | .networks => 7
  | .network => 8
  | .containers => 9
  | .token => 10
  | .channel => 11
  | .event => 12
  | .server => 13
  | .stop => 14

theorem turns_fair (p : Process) : Fair (processMove env) Answers Owed p turn := by
  intro n k _
  refine ⟨15 * n + turnOf k, by omega, ?_⟩
  have place : (15 * n + turnOf k) % 15 = turnOf k := by
    rw [Nat.mul_add_mod]
    cases k <;> rfl
  rw [turn, place]
  cases k <;> exact trivial

/-- SIGTERM comes when the process has come up. -/
theorem process_stops_turns : ∃ n, (states (processMove Reference.env)
    ([.setUp none, .bind none, .select, .pollSigterm true, .pollSigint true, .signal .term].foldl
      (processMove Reference.env) (.initial ⟨∅, ∅⟩ Reference.monitor)) turn n).gone = true :=
  process_stops _ _ _ rfl (.inr (.inl rfl)) (turns_fair _)

end Stops
end DockerDns.Guarantees
