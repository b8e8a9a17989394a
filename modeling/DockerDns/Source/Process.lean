import DockerDns.Source.Tasks

/-!
# The process

`main.rs:128-315`, `shutdown.rs`, `signal_handlers.rs`, `monitor.rs:595-655` and
`dns_listener.rs:162-198`: the main task spawns the other three and waits for a
signal or for one of them to end, cancels the token, and waits for all of them.
Every task holds a guard that cancels the token when the task ends, whatever the
reason. A biased `select!` polls its arms one after another, and other tasks run
between two polls, so each arm is a move of its own.
-/
namespace DockerDns.Source
open Library

abbrev ExitCode := UInt8

def ExitCode.success : ExitCode := 0
def ExitCode.failure : ExitCode := 1

inductive Shutdown where
  | success
  | signal (signal : UInt8)
  | operationalFailure (code : ExitCode) (message : String)
  | unexpectedError (report : String)
  deriving DecidableEq

def Shutdown.report : Shutdown → ExitCode
  | .success => .success
  | .signal number => number + 128
  | .operationalFailure code _ => code
  | .unexpectedError _ => .failure

def sigint : UInt8 := 2
def sigterm : UInt8 := 15

/-- The signals the process waits for. -/
inductive Signaled where
  | term | int
  deriving DecidableEq, Repr

/-- The text a failed registration is wrapped with. -/
def Signaled.registrationFailed : Signaled → String
  | .term => "Failed to register SIGTERM handler"
  | .int => "Failed to register CTRL+c handler"

def taskStopped : Shutdown :=
  .operationalFailure .failure "Some task unexpectedly failed which triggered a shutdown."

/-- What becomes of a signal of one kind. An unregistered one kills the process. -/
inductive Handler where
  | unregistered | waiting | arrived
  deriving DecidableEq, Repr

/-- How far `start_tasks` is. -/
inductive Main where
  /-- the configuration, the forward zone and the client are built -/
  | setUp
  /-- the monitor and the listener are spawned, the sockets are not bound -/
  | binding
  /-- about to poll the token in `select!` -/
  | selecting
  /-- the token was not cancelled at this poll; SIGTERM is polled next -/
  | sigterm
  /-- SIGINT is polled next -/
  | sigint
  /-- the token is cancelled, and the tracker waited for -/
  | draining (reason : Shutdown)
  | exited (shutdown : Shutdown)
  /-- by a signal nothing was registered for yet -/
  | killed (signal : UInt8)
  deriving DecidableEq

inductive Listener where
  | running | ended
  deriving DecidableEq, Repr

/-- How far `docker_event_monitor` is. -/
inductive Consumer where
  /-- in `start` -/
  | starting
  /-- about to poll the token in `consume_events` -/
  | polling
  /-- the token was not cancelled at this poll; the channel is polled next -/
  | receiving
  | handling (notice : Notice)
  | ended

/-- How far `dns_handler` is. -/
inductive Dns where
  | unbound | serving | stopping | ended
  deriving DecidableEq, Repr

def channelCapacity : Nat := 50

structure Process where
  docker : Docker
  subscribed : Bool
  /-- what Docker has announced since the subscription and nobody has read -/
  unread : List Notice
  channel : List Notice
  phase : Phase
  monitor : Monitor
  listener : Listener
  consumer : Consumer
  dns : Dns
  cancelled : Bool
  main : Main
  terminate : Handler
  interrupt : Handler

def Process.initial (docker : Docker) (monitor : Monitor) : Process where
  docker := docker
  subscribed := false
  unread := []
  channel := []
  phase := .starting
  monitor := monitor
  listener := .running
  consumer := .starting
  dns := .unbound
  cancelled := false
  main := .setUp
  terminate := .unregistered
  interrupt := .unregistered

inductive ProcessMove where
  | docker (action : Action)
  | signal (signal : Signaled)
  | setUp (error : Option String)
  | bind (error : Option String)
  | select
  | pollSigterm (registered : Bool)
  | pollSigint (registered : Bool)
  | tasksEnded
  | timeout
  | subscribe
  | forward
  | listenerStops
  | listNetworks
  | inspectNetwork
  | listContainers (orders : Orders)
  | listingFails
  | pollToken
  | receive
  | handle (orders : Orders)
  | consumerPanics
  | pollServer
  | serverStops

namespace Process

/-- The process is gone. -/
def gone (p : Process) : Bool :=
  match p.main with
  | .exited _ | .killed _ => true
  | _ => false

/-- The tasks are spawned, and the process is not gone. -/
def spawned (p : Process) : Bool :=
  match p.main with
  | .setUp | .exited _ | .killed _ => false
  | _ => true

/-- The guard of the task cancels the token. -/
def endListener (p : Process) : Process := { p with listener := .ended, cancelled := true }
def endConsumer (p : Process) : Process := { p with consumer := .ended, cancelled := true }
def endDns (p : Process) : Process := { p with dns := .ended, cancelled := true }

/-- `main` leaves the `select!`. -/
def leave (p : Process) (reason : Shutdown) : Process :=
  { p with cancelled := true, main := .draining reason }

/-- Docker goes on, whatever becomes of the process. -/
def act (p : Process) (action : Action) : Process :=
  match p.docker.act action with
  | none => p
  | some (docker, notice) =>
    { p with docker, unread := if p.subscribed then p.unread ++ [notice] else p.unread }

def signalled (p : Process) (signal : Signaled) : Process :=
  if p.gone then p
  else
    match signal, p.terminate, p.interrupt with
    | .term, .unregistered, _ => { p with main := .killed sigterm }
    | .term, _, _ => { p with terminate := .arrived }
    | .int, _, .unregistered => { p with main := .killed sigint }
    | .int, _, _ => { p with interrupt := .arrived }

/-- A failed bind returns at once: the token is not cancelled, the tasks go down
with the runtime. -/
def mainMove (p : Process) : ProcessMove → Process
  | .setUp error =>
    match p.main, error with
    | .setUp, some report => { p with main := .exited (.unexpectedError report) }
    | .setUp, none => { p with main := .binding }
    | _, _ => p
  | .bind error =>
    match p.main, error with
    | .binding, some report => { p with main := .exited (.unexpectedError report) }
    | .binding, none => { p with main := .selecting, dns := .serving }
    | _, _ => p
  | .select =>
    match p.main with
    | .selecting => if p.cancelled then p.leave taskStopped else { p with main := .sigterm }
    | _ => p
  -- the first poll of a wait registers its handler
  | .pollSigterm registered =>
    match p.main, p.terminate, registered with
    | .sigterm, .unregistered, true => { p with main := .sigint, terminate := .waiting }
    | .sigterm, .unregistered, false => p.leave (.unexpectedError Signaled.term.registrationFailed)
    | .sigterm, .waiting, _ => { p with main := .sigint }
    | .sigterm, .arrived, _ => p.leave (.signal sigterm)
    | _, _, _ => p
  | .pollSigint registered =>
    match p.main, p.interrupt, registered with
    | .sigint, .unregistered, true => { p with main := .selecting, interrupt := .waiting }
    | .sigint, .unregistered, false => p.leave (.unexpectedError Signaled.int.registrationFailed)
    | .sigint, .waiting, _ => { p with main := .selecting }
    | .sigint, .arrived, _ => p.leave (.signal sigint)
    | _, _, _ => p
  | .tasksEnded =>
    match p.main, p.listener, p.consumer, p.dns with
    | .draining reason, .ended, .ended, .ended => { p with main := .exited reason }
    | _, _, _, _ => p
  | .timeout =>
    match p.main with
    | .draining reason => { p with main := .exited reason }
    | _ => p
  | _ => p

/-- When `produce_events` returns, for whatever reason, the task ends. -/
def listenerMove (p : Process) : ProcessMove → Process
  | .subscribe =>
    match p.listener with
    | .running => { p with subscribed := true }
    | .ended => p
  | .forward =>
    match p.listener, p.consumer, p.unread with
    | .ended, _, _ | _, .ended, _ | _, _, [] => p
    | .running, _, notice :: unread =>
      if p.channel.length < channelCapacity then
        { p with unread, channel := p.channel ++ [notice] }
      else p
  | .listenerStops => p.endListener
  | _ => p

/-- `start` does not look at the token. Its two listings may fail. -/
def consumerMove (env : Env) (p : Process) : ProcessMove → Process
  | .listNetworks =>
    match p.consumer, p.phase with
    | .starting, .starting => { p with phase := .inspecting p.docker.listNetworks }
    | _, _ => p
  | .inspectNetwork =>
    match p.consumer, p.phase with
    | .starting, .inspecting (id :: networks) =>
      { p with
        phase := .inspecting networks
        monitor := (p.monitor.registerNetwork env id (p.docker.inspectNetwork id)).1 }
    | _, _ => p
  | .listContainers orders =>
    match p.consumer, p.phase with
    | .starting, .inspecting [] =>
      { p with
        phase := .consuming
        consumer := .polling
        monitor := p.docker.listContainers.foldl (Monitor.startContainer env orders) p.monitor }
    | _, _ => p
  | .listingFails =>
    match p.consumer, p.phase with
    | .starting, .starting | .starting, .inspecting [] => p.endConsumer
    | _, _ => p
  | .pollToken =>
    match p.consumer with
    | .polling => if p.cancelled then p.endConsumer else { p with consumer := .receiving }
    | _ => p
  | .receive =>
    match p.consumer, p.channel, p.listener with
    | .receiving, notice :: channel, _ => { p with channel, consumer := .handling notice }
    -- the sender is dropped with the listener
    | .receiving, [], .ended => p.endConsumer
    | .receiving, [], .running => { p with consumer := .polling }
    | _, _, _ => p
  | .handle orders =>
    match p.consumer with
    | .handling notice =>
      { p with
        consumer := .polling
        monitor := (p.monitor.handleEvent env (notice.input p.docker orders)).1 }
    | _ => p
  | .consumerPanics => p.endConsumer
  | _ => p

def dnsMove (p : Process) : ProcessMove → Process
  | .pollServer =>
    match p.dns with
    | .serving => if p.cancelled then { p with dns := .stopping } else p
    | _ => p
  | .serverStops =>
    match p.dns with
    | .serving | .stopping => p.endDns
    | _ => p
  | _ => p

end Process

/-- One move of the process or of its surroundings. -/
def processMove (env : Env) (p : Process) : ProcessMove → Process
  | .docker action => p.act action
  | .signal signal => p.signalled signal
  | m@(.setUp _) | m@(.bind _) | m@.select | m@(.pollSigterm _) | m@(.pollSigint _) |
    m@.tasksEnded | m@.timeout => p.mainMove m
  | m@.subscribe | m@.forward | m@.listenerStops => if p.spawned then p.listenerMove m else p
  | m@.pollServer | m@.serverStops => if p.spawned then p.dnsMove m else p
  | m => if p.spawned then p.consumerMove env m else p

end DockerDns.Source
