import DockerDns.Source.Process

/-!
# What a move of the process can do

Every move is one of these, with what it was possible on. The results about runs
of the process go by these cases and never unfold a move.
-/
namespace DockerDns.Guarantees
open Library Source

inductive Moved (env : Env) (p : Process) : ProcessMove → Process → Prop
  | same (m : ProcessMove) : Moved env p m p
  | acted (action : Action) (docker : Docker) (notice : Notice)
      (acted : p.docker.act action = some (docker, notice)) :
      Moved env p (.docker action)
        { p with docker, unread := if p.subscribed then p.unread ++ [notice] else p.unread }
  | terminated (registered : p.terminate ≠ .unregistered) :
      Moved env p (.signal .term) { p with terminate := .arrived }
  | interrupted (registered : p.interrupt ≠ .unregistered) :
      Moved env p (.signal .int) { p with interrupt := .arrived }
  | killedByTerm (unregistered : p.terminate = .unregistered) (alive : p.gone = false) :
      Moved env p (.signal .term) { p with main := .killed sigterm }
  | killedByInt (unregistered : p.interrupt = .unregistered) (alive : p.gone = false) :
      Moved env p (.signal .int) { p with main := .killed sigint }
  | setUpFailed (report : String) (main : p.main = .setUp) :
      Moved env p (.setUp (some report)) { p with main := .exited (.unexpectedError report) }
  | setUp (main : p.main = .setUp) : Moved env p (.setUp none) { p with main := .binding }
  | bindFailed (report : String) (main : p.main = .binding) :
      Moved env p (.bind (some report)) { p with main := .exited (.unexpectedError report) }
  | bound (main : p.main = .binding) :
      Moved env p (.bind none) { p with main := .selecting, dns := .serving }
  | stopped (main : p.main = .selecting) (cancelled : p.cancelled = true) :
      Moved env p .select (p.leave taskStopped)
  | uncancelled (main : p.main = .selecting) (cancelled : p.cancelled = false) :
      Moved env p .select { p with main := .sigterm }
  | registeredTerm (main : p.main = .sigterm) (unregistered : p.terminate = .unregistered) :
      Moved env p (.pollSigterm true) { p with main := .sigint, terminate := .waiting }
  | registeredInt (main : p.main = .sigint) (unregistered : p.interrupt = .unregistered) :
      Moved env p (.pollSigint true) { p with main := .selecting, interrupt := .waiting }
  | unregisteredTerm (main : p.main = .sigterm) (unregistered : p.terminate = .unregistered) :
      Moved env p (.pollSigterm false)
        (p.leave (.unexpectedError Signaled.term.registrationFailed))
  | unregisteredInt (main : p.main = .sigint) (unregistered : p.interrupt = .unregistered) :
      Moved env p (.pollSigint false)
        (p.leave (.unexpectedError Signaled.int.registrationFailed))
  | noTerm (registered : Bool) (main : p.main = .sigterm) (waiting : p.terminate = .waiting) :
      Moved env p (.pollSigterm registered) { p with main := .sigint }
  | noInt (registered : Bool) (main : p.main = .sigint) (waiting : p.interrupt = .waiting) :
      Moved env p (.pollSigint registered) { p with main := .selecting }
  | tookTerm (registered : Bool) (main : p.main = .sigterm) (arrived : p.terminate = .arrived) :
      Moved env p (.pollSigterm registered) (p.leave (.signal sigterm))
  | tookInt (registered : Bool) (main : p.main = .sigint) (arrived : p.interrupt = .arrived) :
      Moved env p (.pollSigint registered) (p.leave (.signal sigint))
  | tasksEnded (reason : Shutdown) (main : p.main = .draining reason) :
      Moved env p .tasksEnded { p with main := .exited reason }
  | timedOut (reason : Shutdown) (main : p.main = .draining reason) :
      Moved env p .timeout { p with main := .exited reason }
  | subscribed (spawned : p.spawned = true) : Moved env p .subscribe { p with subscribed := true }
  | forwarded (notice : Notice) (unread : List Notice) (announced : p.unread = notice :: unread)
      (room : p.channel.length < channelCapacity) :
      Moved env p .forward { p with unread, channel := p.channel ++ [notice] }
  | listenerStopped (spawned : p.spawned = true) : Moved env p .listenerStops p.endListener
  | listedNetworks (consumer : p.consumer = .starting) (phase : p.phase = .starting) :
      Moved env p .listNetworks { p with phase := .inspecting p.docker.listNetworks }
  | inspectedNetwork (id : String) (networks : List String) (consumer : p.consumer = .starting)
      (phase : p.phase = .inspecting (id :: networks)) :
      Moved env p .inspectNetwork { p with
        phase := .inspecting networks
        monitor := (p.monitor.registerNetwork env id (p.docker.inspectNetwork id)).1 }
  | listedContainers (orders : Orders) (consumer : p.consumer = .starting)
      (phase : p.phase = .inspecting []) :
      Moved env p (.listContainers orders) { p with
        phase := .consuming
        consumer := .polling
        monitor := p.docker.listContainers.foldl (Monitor.startContainer env orders) p.monitor }
  | consumerEnded (m : ProcessMove) (spawned : p.spawned = true) : Moved env p m p.endConsumer
  | polled (consumer : p.consumer = .polling) (cancelled : p.cancelled = false) :
      Moved env p .pollToken { p with consumer := .receiving }
  | received (notice : Notice) (channel : List Notice) (consumer : p.consumer = .receiving)
      (queued : p.channel = notice :: channel) :
      Moved env p .receive { p with channel, consumer := .handling notice }
  | empty (consumer : p.consumer = .receiving) (empty : p.channel = []) :
      Moved env p .receive { p with consumer := .polling }
  | handled (orders : Orders) (notice : Notice) (consumer : p.consumer = .handling notice) :
      Moved env p (.handle orders) { p with
        consumer := .polling
        monitor := (p.monitor.handleEvent env (notice.input p.docker orders)).1 }
  | serverStopping (dns : p.dns = .serving) (cancelled : p.cancelled = true) :
      Moved env p .pollServer { p with dns := .stopping }
  | serverStopped (spawned : p.spawned = true) (dns : p.dns ≠ .unbound) :
      Moved env p .serverStops p.endDns

section Cases
variable {env : Env} {p : Process}

private theorem moved_main (m : ProcessMove) (about : ∀ q, processMove env q m = q.mainMove m) :
    Moved env p m (processMove env p m) := by
  rw [about]
  cases m with
  | setUp error =>
    cases main : p.main <;> cases error <;> simp only [Process.mainMove, main]
    case setUp.none => exact .setUp main
    case setUp.some => exact .setUpFailed _ main
    all_goals exact .same _
  | bind error =>
    cases main : p.main <;> cases error <;> simp only [Process.mainMove, main]
    case binding.none => exact .bound main
    case binding.some => exact .bindFailed _ main
    all_goals exact .same _
  | select =>
    simp only [Process.mainMove]
    split
    next main =>
      split
      next cancelled => exact .stopped main cancelled
      next cancelled => exact .uncancelled main (Bool.not_eq_true _ ▸ cancelled)
    · exact .same _
  | pollSigterm registered =>
    simp only [Process.mainMove]
    split
    next main unregistered => exact .registeredTerm main unregistered
    next main unregistered => exact .unregisteredTerm main unregistered
    next main waiting => exact .noTerm _ main waiting
    next main arrived => exact .tookTerm _ main arrived
    · exact .same _
  | pollSigint registered =>
    simp only [Process.mainMove]
    split
    next main unregistered => exact .registeredInt main unregistered
    next main unregistered => exact .unregisteredInt main unregistered
    next main waiting => exact .noInt _ main waiting
    next main arrived => exact .tookInt _ main arrived
    · exact .same _
  | tasksEnded =>
    simp only [Process.mainMove]
    split
    next main _ _ _ => exact .tasksEnded _ main
    · exact .same _
  | timeout =>
    simp only [Process.mainMove]
    split
    next main => exact .timedOut _ main
    · exact .same _
  | _ => exact .same _

private theorem moved_listener (m : ProcessMove) (spawned : p.spawned = true) :
    Moved env p m (p.listenerMove m) := by
  cases m with
  | subscribe =>
    simp only [Process.listenerMove]
    split
    · exact .subscribed spawned
    · exact .same _
  | forward =>
    simp only [Process.listenerMove]
    split
    · exact .same _
    · exact .same _
    · exact .same _
    next announced _ =>
      split
      next room => exact .forwarded _ _ announced room
      · exact .same _
  | listenerStops => exact .listenerStopped spawned
  | _ => exact .same _

private theorem moved_consumer (m : ProcessMove) (spawned : p.spawned = true) :
    Moved env p m (p.consumerMove env m) := by
  cases m with
  | listNetworks =>
    simp only [Process.consumerMove]
    split
    next consumer phase => exact .listedNetworks consumer phase
    · exact .same _
  | inspectNetwork =>
    simp only [Process.consumerMove]
    split
    next consumer phase => exact .inspectedNetwork _ _ consumer phase
    · exact .same _
  | listContainers orders =>
    simp only [Process.consumerMove]
    split
    next consumer phase => exact .listedContainers orders consumer phase
    · exact .same _
  | listingFails =>
    simp only [Process.consumerMove]
    split
    · exact .consumerEnded _ spawned
    · exact .consumerEnded _ spawned
    · exact .same _
  | pollToken =>
    simp only [Process.consumerMove]
    split
    next consumer =>
      split
      · exact .consumerEnded _ spawned
      next cancelled => exact .polled consumer (Bool.not_eq_true _ ▸ cancelled)
    · exact .same _
  | receive =>
    simp only [Process.consumerMove]
    split
    next consumer queued => exact .received _ _ consumer queued
    · exact .consumerEnded _ spawned
    next consumer empty _ => exact .empty consumer empty
    · exact .same _
  | handle orders =>
    simp only [Process.consumerMove]
    split
    next consumer => exact .handled orders _ consumer
    · exact .same _
  | consumerPanics => exact .consumerEnded _ spawned
  | _ => exact .same _

private theorem moved_dns (m : ProcessMove) (spawned : p.spawned = true) :
    Moved env p m (p.dnsMove m) := by
  cases m with
  | pollServer =>
    simp only [Process.dnsMove]
    split
    next dns =>
      split
      next cancelled => exact .serverStopping dns cancelled
      · exact .same _
    · exact .same _
  | serverStops =>
    simp only [Process.dnsMove]
    split
    next dns => exact .serverStopped spawned (by simp [dns])
    next dns => exact .serverStopped spawned (by simp [dns])
    · exact .same _
  | _ => exact .same _

private theorem moved_spawned {m : ProcessMove} {q : Process}
    (moved : p.spawned = true → Moved env p m q) : Moved env p m (if p.spawned then q else p) := by
  split
  next spawned => exact moved spawned
  · exact .same _

/-- Every move is one of the cases. -/
theorem moved (env : Env) (p : Process) (m : ProcessMove) :
    Moved env p m (processMove env p m) := by
  cases m with
  | docker action =>
    simp only [processMove, Process.act]
    cases acted : p.docker.act action with
    | none => exact .same _
    | some answer => exact .acted action answer.1 answer.2 acted
  | signal signal =>
    simp only [processMove, Process.signalled]
    split
    · exact .same _
    next alive =>
      have alive : p.gone = false := Bool.not_eq_true _ ▸ alive
      split
      next unregistered => exact .killedByTerm unregistered alive
      next registered => exact .terminated registered
      next unregistered => exact .killedByInt unregistered alive
      next registered => exact .interrupted registered
  | setUp | bind | select | pollSigterm | pollSigint | tasksEnded | timeout => exact moved_main _ fun _ => rfl
  | subscribe | forward | listenerStops => exact moved_spawned (moved_listener _)
  | pollServer | serverStops => exact moved_spawned (moved_dns _)
  | listNetworks | inspectNetwork | listContainers | listingFails | pollToken | receive | handle |
    consumerPanics => exact moved_spawned (moved_consumer _)

/-- The token stays cancelled. -/
theorem cancelled_moved {p' : Process} {m : ProcessMove} (moved : Moved env p m p')
    (cancelled : p.cancelled = true) : p'.cancelled = true := by
  cases moved <;> first | exact cancelled | rfl

end Cases
end DockerDns.Guarantees
