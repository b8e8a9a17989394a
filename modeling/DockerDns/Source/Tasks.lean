import DockerDns.Source.Daemon

/-!
# The tasks

`main.rs:182-202,284-315`: the listener and the event monitor are spawned as
independent tasks. The listener subscribes at some moment and passes on, in
order, what Docker announces from then on; the monitor makes the calls of
`start` one after another and then handles the queued events, each with one
inspect call at that moment. Nothing orders the subscription and the calls.
-/
namespace DockerDns.Source
open Library

/-- How far the event monitor is. -/
inductive Phase where
  | starting
  /-- `start` has listed the networks; these are still to be inspected -/
  | inspecting (networks : List String)
  /-- `start` has returned -/
  | consuming
  deriving DecidableEq, Repr

structure System where
  docker : Docker
  subscribed : Bool
  queue : List Notice
  phase : Phase
  monitor : Monitor

def System.initial (docker : Docker) (monitor : Monitor) : System :=
  { docker, subscribed := false, queue := [], phase := .starting, monitor }

inductive Move where
  | docker (action : Action)
  | subscribe
  | listNetworks
  | inspectNetwork
  | listContainers (orders : Orders)
  | handle (orders : Orders)

/-- The event of a notice with Docker's answers at this moment. -/
def Notice.input (notice : Notice) (d : Docker) (orders : Orders) : Input where
  event := notice.event
  inspectContainer := d.inspectContainer notice.subject
  inspectNetwork := d.inspectNetwork notice.subject
  orders := orders

/-- A move that is not possible in the phase the monitor is in changes nothing. -/
def move (env : Env) (s : System) : Move → System
  | .docker action =>
    match s.docker.act action with
    | none => s
    | some (docker, notice) =>
      { s with docker, queue := if s.subscribed then s.queue ++ [notice] else s.queue }
  | .subscribe => { s with subscribed := true }
  | .listNetworks =>
    match s.phase with
    | .starting => { s with phase := .inspecting s.docker.listNetworks }
    | _ => s
  | .inspectNetwork =>
    match s.phase with
    | .inspecting (id :: networks) =>
      { s with
        phase := .inspecting networks
        monitor := (s.monitor.registerNetwork env id (s.docker.inspectNetwork id)).1 }
    | _ => s
  | .listContainers orders =>
    match s.phase with
    | .inspecting [] =>
      { s with
        phase := .consuming
        monitor := s.docker.listContainers.foldl (Monitor.startContainer env orders) s.monitor }
    | _ => s
  | .handle orders =>
    match s.phase, s.queue with
    | .consuming, notice :: queue =>
      { s with queue, monitor := (s.monitor.handleEvent env (notice.input s.docker orders)).1 }
    | _, _ => s

end DockerDns.Source
