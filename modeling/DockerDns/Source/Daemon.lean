import DockerDns.Source.Monitor

/-!
# Docker, as the tasks see it

The daemon on the other side of the client: containers that start, die, pause,
unpause, are renamed, and join and leave networks; networks that come and go.
Every action emits its event; `list` and `inspect` calls answer with the state
at the moment of the call. Actions Docker refuses do not happen.
-/
namespace DockerDns.Source
open Library

inductive Status where
  | stopped | running | paused
  deriving DecidableEq, Repr

/-- The state text of a listing. -/
def Status.text : Status → String
  | .stopped => "exited"
  | .running => "running"
  | .paused => "paused"

structure Container where
  /-- without the slash that `inspect` puts before it -/
  name : String
  labels : FiniteMap String String
  status : Status
  networks : FiniteMap String ContainerNetwork

namespace Container

/-- A stopped container is reported with its networks and without addresses. -/
def reported (c : Container) : FiniteMap String ContainerNetwork :=
  if c.status = .stopped then c.networks.mapValues fun _ => ⟨none, none⟩ else c.networks

def inspect (c : Container) : ContainerInspect := ⟨"/" ++ c.name, c.labels, c.reported⟩

def summary (c : Container) (id : String) : ContainerSummary :=
  ⟨id, c.status.text, [c.name], c.reported⟩

end Container

structure Docker where
  containers : FiniteMap String Container
  /-- network id to the subnets of its IPAM configuration -/
  networks : FiniteMap String (List (Option IpNet))

inductive Action where
  | start (id : String) (networks : FiniteMap String ContainerNetwork)
  | die (id : String)
  | pause (id : String)
  | unpause (id : String)
  | rename (id name : String)
  | connect (id network : String) (addresses : ContainerNetwork)
  | disconnect (id network : String)
  | createNetwork (id : String) (config : List (Option IpNet))
  | destroyNetwork (id : String)

/-- What an action announces, with the data its event carries. -/
inductive Notice where
  | started (id : String)
  | died (id : String)
  | paused (id : String)
  | unpaused (id : String)
  | renamed (id : String) (labels : FiniteMap String String) (old new : String)
  | connected (id network : String)
  | disconnected (id network : String)
  | networkCreated (id : String)
  | networkDestroyed (id : String)

namespace Notice

/-- The event of the client, with the attributes a handler reads. -/
def event : Notice → Event
  | started id => ⟨.container, "start", ⟨id, ∅⟩⟩
  | died id => ⟨.container, "die", ⟨id, ∅⟩⟩
  | paused id => ⟨.container, "pause", ⟨id, ∅⟩⟩
  | unpaused id => ⟨.container, "unpause", ⟨id, ∅⟩⟩
  | renamed id labels old new =>
    ⟨.container, "rename", ⟨id, (labels.insert "oldName" ("/" ++ old)).insert "name" new⟩⟩
  | connected id network =>
    ⟨.network, "connect", ⟨network, (FiniteMap.insert ∅ "container" id).insert "name" network⟩⟩
  | disconnected id network =>
    ⟨.network, "disconnect", ⟨network, (FiniteMap.insert ∅ "container" id).insert "name" network⟩⟩
  | networkCreated id => ⟨.network, "create", ⟨id, ∅⟩⟩
  | networkDestroyed id => ⟨.network, "destroy", ⟨id, ∅⟩⟩

/-- The container or network an inspect call of the handler asks for. -/
def subject : Notice → String
  | started id | died id | paused id | unpaused id | renamed id .. | connected id _
  | disconnected id _ | networkCreated id | networkDestroyed id => id

end Notice

namespace Docker

def inspectContainer (d : Docker) (id : String) : Option ContainerInspect :=
  (d.containers.lookup id).map Container.inspect

/-- Stopped containers are listed too: `start` skips what is not running. -/
def listContainers (d : Docker) : List ContainerSummary :=
  d.containers.entries.map fun entry => entry.2.summary entry.1

def inspectNetwork (d : Docker) (id : String) : Option NetworkInspect :=
  (d.networks.lookup id).map NetworkInspect.mk

def listNetworks (d : Docker) : List String := d.networks.entries.map Sigma.fst

/-- A container changes as `change` says, and its notice is sent. -/
def update (d : Docker) (id : String) (change : Container → Option (Container × Notice)) :
    Option (Docker × Notice) :=
  match d.containers.lookup id with
  | none => none
  | some c => (change c).map fun changed =>
    ({ d with containers := d.containers.insert id changed.1 }, changed.2)

/-- The state after an action and its notice; `none` when Docker refuses it. -/
def act (d : Docker) : Action → Option (Docker × Notice)
  | .start id networks => d.update id fun c =>
    if c.status = .stopped then some ({ c with status := .running, networks }, .started id)
    else none
  | .die id => d.update id fun c =>
    if c.status = .stopped then none else some ({ c with status := .stopped }, .died id)
  | .pause id => d.update id fun c =>
    if c.status = .running then some ({ c with status := .paused }, .paused id) else none
  | .unpause id => d.update id fun c =>
    if c.status = .paused then some ({ c with status := .running }, .unpaused id) else none
  | .rename id name => d.update id fun c =>
    if ∀ entry ∈ d.containers.entries, entry.2.name ≠ name then
      some ({ c with name }, .renamed id c.labels c.name name)
    else none
  | .connect id network addresses => d.update id fun c =>
    if c.status = .stopped ∨ c.networks.lookup network = none then
      some ({ c with networks := c.networks.insert network addresses }, .connected id network)
    else none
  | .disconnect id network => d.update id fun c =>
    if c.networks.lookup network = none then none
    else some ({ c with networks := c.networks.erase network }, .disconnected id network)
  | .createNetwork id config =>
    if d.networks.lookup id = none then
      some ({ d with networks := d.networks.insert id config }, .networkCreated id)
    else none
  | .destroyNetwork id =>
    if d.networks.lookup id = none then none
    else some ({ d with networks := d.networks.erase id }, .networkDestroyed id)

end Docker
end DockerDns.Source
