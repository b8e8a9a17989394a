import DockerDns.Guarantees.ProcessMoves
import DockerDns.Library.GuardedRuns
import DockerDns.Library.Simulations
import DockerDns.Source.Reference

/-!
# What the process does with events

Signals, failures and the shutdown only ever stop the tasks: whatever the
process has made of the table, the interleaving of Docker, the listener and the
monitor alone could have made. Between Docker's announcement and the handling no
event is lost, doubled or overtaken while the consumer is there.
-/
namespace DockerDns.Guarantees
open Library Source

/-- The event the consumer has taken and not handled. -/
def inHand : Consumer → List Notice
  | .handling notice => [notice]
  | _ => []

/-- The three parties of the process, as the interleaving alone has them. -/
structure Sees (p : Process) (s : System) : Prop where
  docker : s.docker = p.docker
  subscribed : s.subscribed = p.subscribed
  phase : s.phase = p.phase
  monitor : s.monitor = p.monitor
  queue : p.consumer ≠ .ended → s.queue = inHand p.consumer ++ p.channel ++ p.unread
  consuming : p.consumer ≠ .starting → p.consumer ≠ .ended → p.phase = .consuming

theorem sees_initial (docker : Docker) (monitor : Monitor) :
    Sees (.initial docker monitor) (.initial docker monitor) :=
  ⟨rfl, rfl, rfl, rfl, fun _ => rfl, fun other => absurd rfl other⟩

section Moves
variable {env : Env} {p p' : Process} {m : ProcessMove} {s : System}

theorem Sees.moved (sees : Sees p s) (moved : Moved env p m p') :
    ∃ moves : List Move, Sees p' (moves.foldl (move env) s) := by
  obtain ⟨docker, subscribed, phase, monitor, queue, consuming⟩ := sees
  cases moved with
  | same => exact ⟨[], docker, subscribed, phase, monitor, queue, consuming⟩
  | acted action after notice acted =>
    refine ⟨[.docker action], ?_⟩
    rw [← docker] at acted
    simp only [List.foldl_cons, List.foldl_nil, move, acted]
    refine ⟨rfl, subscribed, phase, monitor, fun alive => ?_, consuming⟩
    rw [subscribed, queue alive]
    split
    · exact List.append_assoc ..
    · rfl
  | subscribed =>
    exact ⟨[.subscribe], docker, rfl, phase, monitor, queue, consuming⟩
  | forwarded notice unread announced =>
    refine ⟨[], docker, subscribed, phase, monitor, fun alive => (queue alive).trans ?_, consuming⟩
    rw [announced]
    simp only [List.append_assoc, List.singleton_append]
  | listedNetworks consumer starting =>
    refine ⟨[.listNetworks], ?_⟩
    have starting := phase.trans starting
    simp only [List.foldl_cons, List.foldl_nil, move, starting]
    exact ⟨docker, subscribed, by rw [docker], monitor, queue, fun other => absurd consumer other⟩
  | inspectedNetwork id networks consumer inspecting =>
    refine ⟨[.inspectNetwork], ?_⟩
    have inspecting := phase.trans inspecting
    simp only [List.foldl_cons, List.foldl_nil, move, inspecting]
    exact ⟨docker, subscribed, rfl, by rw [monitor, docker], queue,
      fun other => absurd consumer other⟩
  | listedContainers orders consumer inspected =>
    refine ⟨[.listContainers orders], ?_⟩
    have inspected := phase.trans inspected
    simp only [List.foldl_cons, List.foldl_nil, move, inspected]
    refine ⟨docker, subscribed, rfl, by rw [monitor, docker], fun _ => ?_, fun _ _ => rfl⟩
    rw [queue (by simp [consumer]), consumer]
    rfl
  | consumerEnded =>
    exact ⟨[], docker, subscribed, phase, monitor, fun alive => absurd rfl alive,
      fun _ alive => absurd rfl alive⟩
  | received notice channel consumer queued =>
    have consumes := consuming (by simp [consumer]) (by simp [consumer])
    rw [consumer, queued] at queue
    exact ⟨[], docker, subscribed, phase, monitor, fun _ => queue Consumer.noConfusion,
      fun _ _ => consumes⟩
  | polled consumer | empty consumer =>
    have consumes := consuming (by simp [consumer]) (by simp [consumer])
    rw [consumer] at queue
    exact ⟨[], docker, subscribed, phase, monitor, fun _ => queue Consumer.noConfusion,
      fun _ _ => consumes⟩
  | handled orders notice consumer =>
    have consumes := consuming (by simp [consumer]) (by simp [consumer])
    rw [consumer] at queue
    have waits : s.queue = notice :: (p.channel ++ p.unread) := queue Consumer.noConfusion
    refine ⟨[.handle orders], ?_⟩
    simp only [List.foldl_cons, List.foldl_nil, move, phase.trans consumes, waits]
    exact ⟨docker, subscribed, consumes.symm, by rw [monitor, docker], fun _ => rfl,
      fun _ _ => consumes⟩
  | _ => exact ⟨[], docker, subscribed, phase, monitor, queue, consuming⟩

/-- Every run of the process is, for the table, a run of the interleaving alone. -/
theorem process_simulated (env : Env) (docker : Docker) (monitor : Monitor)
    (moves : List ProcessMove) :
    ∃ system : List Move, Sees (moves.foldl (processMove env) (.initial docker monitor))
      (system.foldl (move env) (.initial docker monitor)) :=
  foldl_simulated (fun p _ m sees => sees.moved (moved env p m)) moves (sees_initial docker monitor)

end Moves

section Events
variable {env : Env} {p p' : Process} {m : ProcessMove}

def handledBy (p : Process) : ProcessMove → List Notice
  | .handle _ => if p.spawned then inHand p.consumer else []
  | _ => []

/-- What has been announced is what has been handled, then what is on its way. -/
structure InOrder (announced handled : List Notice) (p : Process) : Prop where
  queued : ∃ lost : List Notice, announced = handled ++ lost ++ p.channel ++ p.unread ∧
    lost.length ≤ 1 ∧ (p.consumer ≠ .ended → lost = inHand p.consumer)
  capacity : p.channel.length ≤ channelCapacity

variable {announced handled : List Notice}

/-- What neither Docker does nor the handling. -/
private theorem InOrder.moved (inOrder : InOrder announced handled p) (moved : Moved env p m p')
    (silent : ∀ action, m ≠ .docker action) (idle : ∀ orders, m ≠ .handle orders) :
    InOrder announced handled p' := by
  obtain ⟨⟨lost, queued, one, inHand⟩, capacity⟩ := inOrder
  cases moved with
  | acted action => exact absurd rfl (silent action)
  | handled orders => exact absurd rfl (idle orders)
  | forwarded notice unread read room =>
    refine ⟨⟨lost, ?_, one, inHand⟩, ?_⟩
    · rw [queued, read]
      simp only [List.append_assoc, List.singleton_append]
    · rw [List.length_append]
      exact room
  | listedContainers orders consumer | polled consumer | empty consumer =>
    rw [consumer] at inHand
    exact ⟨⟨lost, queued, one, fun _ => inHand Consumer.noConfusion⟩, capacity⟩
  | consumerEnded => exact ⟨⟨lost, queued, one, fun alive => absurd rfl alive⟩, capacity⟩
  | received notice channel consumer waiting =>
    rw [consumer] at inHand
    rw [waiting] at queued capacity
    rw [inHand Consumer.noConfusion] at queued
    refine ⟨⟨[notice], ?_, Nat.le_refl _, fun _ => rfl⟩, Nat.le_of_succ_le capacity⟩
    rw [queued]
    simp [Guarantees.inHand]
  | _ => exact ⟨⟨lost, queued, one, inHand⟩, capacity⟩

/-- How many events the consumer may still handle once the token is cancelled. -/
def stillToHandle (p : Process) : Nat :=
  match p.consumer with
  | .receiving | .handling _ => 1
  | _ => 0

private theorem stillToHandle_moved (cancelled : p.cancelled = true) (moved : Moved env p m p')
    (idle : ∀ orders, m ≠ .handle orders) :
    stillToHandle p' ≤ stillToHandle p := by
  cases moved with
  | handled orders => exact absurd rfl (idle orders)
  | polled _ uncancelled =>
    rw [cancelled] at uncancelled
    cases uncancelled
  | listedContainers | empty | consumerEnded => exact Nat.zero_le _
  | received notice channel consumer => simp [stillToHandle, consumer]
  | _ => exact Nat.le_refl _

private theorem stillToHandle_step (m : ProcessMove) (cancelled : p.cancelled = true) :
    (handledBy p m).length + stillToHandle (processMove env p m) ≤ stillToHandle p := by
  cases m with
  | handle orders =>
    simp only [handledBy, processMove, Process.consumerMove]
    split
    next =>
      split
      next notice consumer => simp [stillToHandle, consumer, inHand]
      next other =>
        cases consumer : p.consumer with
        | handling notice => exact absurd consumer (other notice)
        | _ => exact Nat.le_of_eq (Nat.zero_add _)
    · exact Nat.le_of_eq (Nat.zero_add _)
  | _ =>
    refine Nat.le_trans (Nat.le_of_eq (Nat.zero_add _)) ?_
    exact stillToHandle_moved cancelled (moved env p _) fun _ => ProcessMove.noConfusion

/-- Once the token is cancelled, at most one more event is handled. -/
theorem one_more_event {p : Process} (cancelled : p.cancelled = true) (moves : List ProcessMove) :
    (outputs (processMove env) handledBy p moves).length ≤ 1 := by
  have spent : (outputs (processMove env) handledBy p moves).length ≤ stillToHandle p :=
    outputs_length_le (P := (Process.cancelled · = true)) (fun p m cancelled =>
      ⟨cancelled_moved (moved env p m) cancelled, stillToHandle_step m cancelled⟩) moves cancelled
  have one : stillToHandle p ≤ 1 := by
    unfold stillToHandle
    split <;> decide
  exact Nat.le_trans spent one

/-- Two networks are announced while the consumer waits for an event, and the
listener stops before the first of them is received. -/
def twoWaiting : Process :=
  [.setUp none, .subscribe, .listNetworks, .listContainers .listed, .pollToken,
    .docker (.createNetwork "a" []), .forward, .docker (.createNetwork "b" []), .forward,
    .listenerStops].foldl (processMove Reference.env) (.initial ⟨∅, ∅⟩ Reference.monitor)

/-- The consumer goes on as long as it can. -/
def consuming : List ProcessMove :=
  [.receive, .handle .listed, .pollToken, .receive, .handle .listed]

theorem one_more_event_stopped :
    outputs (processMove Reference.env) handledBy twoWaiting consuming = [.networkCreated "a"] ∧
      (outputs (processMove Reference.env) handledBy twoWaiting consuming).length ≤ 1 :=
  ⟨rfl, one_more_event rfl consuming⟩

end Events
end DockerDns.Guarantees
