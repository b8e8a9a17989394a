import DockerDns.Library.GuardedRuns
import DockerDns.Source.Monitor
import Mathlib.Tactic.SplitIfs

/-!
# Steps, requests and runs

A run is the list of steps `start` takes over the listed networks and
containers, followed by the events. Each step asks the tables for one of eight
requests, decoded once from the event, its attributes and the inspect results;
handlers that return early ask for nothing. Every later result is about
requests, so a handler is unfolded only here.
-/
namespace DockerDns.Guarantees
open Library Source

inductive Step where
  | listedNetwork (network : String × Option NetworkInspect)
  | listedContainer (orders : Orders) (container : ContainerSummary)
  | event (input : Input)

def step (env : Env) (m : Monitor) : Step → Monitor
  | .listedNetwork network => (m.registerNetwork env network.1 network.2).1
  | .listedContainer orders container => m.startContainer env orders container
  | .event input => (m.handleEvent env input).1

/-- The steps of a process: nothing follows a listing that fails. -/
def runSteps (boot : Bootstrap) (inputs : List Input) : List Step :=
  match boot.networks with
  | none => []
  | some networks => networks.map .listedNetwork ++
    match boot.containers with
    | none => []
    | some containers =>
      containers.map (.listedContainer boot.orders) ++ inputs.map .event

theorem dockerEventMonitor_eq (env : Env) (m : Monitor) (boot : Bootstrap) (inputs : List Input) :
    m.dockerEventMonitor env boot inputs = (runSteps boot inputs).foldl (step env) m := by
  unfold Monitor.dockerEventMonitor Monitor.start runSteps
  cases boot.networks with
  | none => rfl
  | some networks =>
    cases boot.containers with
    | none => simp [List.foldl_map, step]
    | some containers => simp [List.foldl_map, List.foldl_append, step, Monitor.consumeEvents]

/-- What a step asks of the tables. -/
inductive Request where
  | nothing
  | register (id : String) (names : List Name) (networks : FiniteMap String ContainerNetwork)
  | rename (id : String) (old new : Name) (names : List Name)
  | die (id : String)
  | connect (id network : String) (names : List Name) (ips : NetworkIps)
  | disconnect (id network : String)
  | registerNetwork (id : String) (config : List (Option IpNet))
  | deregisterNetwork (id : String)

def Step.orders : Step → Orders
  | .listedNetwork _ => .listed
  | .listedContainer orders _ => orders
  | .event input => input.orders

/-- The text the rename handler parses as the container's old name. -/
def oldNameText (env : Env) (name : String) : String :=
  AuthorityWrapper.stripPrefix '/'
    (sanitize env.regex name ++ "." ++ env.hickory.display env.domain)

/-- The text the rename handler parses as the container's new name. -/
def newNameText (env : Env) (name : String) : String :=
  name ++ "." ++ env.hickory.display env.domain

def renameRequest (env : Env) (event : Event) : Request :=
  match event.actor.attributes.lookup "oldName", event.actor.attributes.lookup "name" with
  | some oldName, some name =>
    match env.hickory.parse (oldNameText env oldName), env.hickory.parse (newNameText env name) with
    | some old, some new => .rename event.actor.id old new
      (toFullNames env.hickory (getAllNamesFromEvent env.regex event) env.domain)
    | _, _ => .nothing
  | _, _ => .nothing

def inspectNames (env : Env) (container : ContainerInspect) : List Name :=
  toFullNames env.hickory (getAllNamesFromInspect env.regex container) env.domain

/-- Names are computed from the reported name and labels alone. -/
theorem inspectNames_congr {env : Env} {a b : ContainerInspect} (name : a.name = b.name)
    (labels : ∀ label, a.labels.lookup label = b.labels.lookup label) :
    inspectNames env a = inspectNames env b := by
  simp only [inspectNames, getAllNamesFromInspect, appendComposeNames, name, labels]

def connectRequest (env : Env) (event : Event) (inspect : Option ContainerInspect) : Request :=
  match event.actor.attributes.lookup "container", event.actor.attributes.lookup "name", inspect with
  | some containerId, some networkName, some container =>
    match (container.networks.lookup networkName).bind NetworkIps.fromNetwork with
    | some ips => .connect containerId networkName (inspectNames env container) ips
    | none => .nothing
  | _, _, _ => .nothing

def eventRequest (env : Env) (m : Monitor) (input : Input) : Request :=
  match input.event.type with
  | .container =>
    if input.event.action = "start" then
      match input.inspectContainer with
      | some container =>
        .register input.event.actor.id (inspectNames env container) container.networks
      | none => .nothing
    else if input.event.action = "rename" then renameRequest env input.event
    else if input.event.action = "die" then .die input.event.actor.id
    else .nothing
  | .network =>
    if input.event.action = "connect" then
      connectRequest env input.event input.inspectContainer
    else if input.event.action = "disconnect" then
      match input.event.actor.attributes.lookup "container",
        input.event.actor.attributes.lookup "name" with
      | some containerId, some networkName => .disconnect containerId networkName
      | _, _ => .nothing
    else if input.event.action = "create" then
      match m.networks.lookup input.event.actor.id, input.inspectNetwork with
      | none, some inspect => .registerNetwork input.event.actor.id inspect.config
      | _, _ => .nothing
    else if input.event.action = "destroy" then .deregisterNetwork input.event.actor.id
    else .nothing
  | _ => .nothing

/-- The request of a step. Only a network create looks at the monitor: a network
already registered is left alone. -/
def request (env : Env) (m : Monitor) : Step → Request
  | .listedNetwork (id, some inspect) => .registerNetwork id inspect.config
  | .listedNetwork (_, none) => .nothing
  | .listedContainer _ container =>
    if container.state ≠ "running" then .nothing
    else .register container.id (toFullNames env.hickory container.names env.domain)
      container.networks
  | .event input => eventRequest env m input

/-- The tables after the rename of a container whose names parsed. -/
def renameContainer (env : Env) (orders : Orders) (m : Monitor) (id : String) (old new : Name)
    (names : List Name) : Monitor :=
  let w := m.authorityWrapper
  let w := (w.renameRecords env.hickory orders.reverse ⟨LowerName.new old, .a⟩ new).getD w
  let w := (w.renameRecords env.hickory orders.reverse ⟨LowerName.new old, .aaaa⟩ new).getD w
  { m with
    authorityWrapper := w
    containers := match m.containers.lookup id with
      | none => m.containers
      | some state => m.containers.insert id { state with names } }

/-- The tables after a container died. -/
def forgetContainer (env : Env) (orders : Orders) (m : Monitor) (id : String) : Monitor :=
  match m.containers.lookup id with
  | none => m
  | some state => { m with
      authorityWrapper := (orders.networks state.networks.entries).foldl
        (fun w entry => Monitor.removeAll env orders.reverse state.names entry.2.ips w)
        m.authorityWrapper
      containers := m.containers.erase id }

/-- The tables after a container left a network. -/
def disconnectNetwork (env : Env) (orders : Orders) (m : Monitor) (id network : String) : Monitor :=
  match m.containers.lookup id with
  | none => m
  | some state =>
    match state.networks.lookup network with
    | none => m
    | some ips => { m with
        authorityWrapper :=
          Monitor.removeAll env orders.reverse state.names ips.ips m.authorityWrapper
        containers :=
          m.containers.insert id { state with networks := state.networks.erase network } }

def perform (env : Env) (orders : Orders) (m : Monitor) : Request → Monitor
  | .nothing => m
  | .register id names networks => m.registerContainerNetworks env orders id names networks
  | .rename id old new names => renameContainer env orders m id old new names
  | .die id => forgetContainer env orders m id
  | .connect id network names ips => (m.connectNetwork env orders id network names ips).1
  | .disconnect id network => disconnectNetwork env orders m id network
  | .registerNetwork id config => (m.registerNetwork env id (some ⟨config⟩)).1
  | .deregisterNetwork id => (m.deregisterNetwork env id).1

section Handlers
variable (env : Env) (orders : Orders) (m : Monitor) (event : Event)

theorem handleContainerRename_eq :
    (m.handleContainerRename env orders event).1 =
      perform env orders m (renameRequest env event) := by
  unfold Monitor.handleContainerRename renameRequest
  cases old : event.actor.attributes.lookup "oldName" with
  | none => rfl
  | some oldName =>
    cases new : event.actor.attributes.lookup "name" with
    | none => rfl
    | some name =>
      simp only [Option.map_some, AuthorityWrapper.rename, newNameText, oldNameText]
      cases parseNew : env.hickory.parse (name ++ "." ++ env.hickory.display env.domain) with
      | none => cases env.hickory.parse _ <;> rfl
      | some newName =>
        cases parseOld : env.hickory.parse (AuthorityWrapper.stripPrefix '/'
            (sanitize env.regex oldName ++ "." ++ env.hickory.display env.domain)) with
        | none => rfl
        | some oldName => rfl

theorem handleContainerStart_eq (inspect : Option ContainerInspect) :
    (m.handleContainerStart env orders event inspect).1 =
      perform env orders m (match inspect with
        | some container =>
          .register event.actor.id (inspectNames env container) container.networks
        | none => .nothing) := by
  cases inspect <;> rfl

theorem handleContainerDie_eq :
    (m.handleContainerDie env orders event).1 = perform env orders m (.die event.actor.id) := by
  simp only [Monitor.handleContainerDie, perform, forgetContainer]
  cases m.containers.lookup event.actor.id <;> rfl

theorem handleNetworkConnect_eq (inspect : Option ContainerInspect) :
    (m.handleNetworkConnect env orders event inspect).1 =
      perform env orders m (connectRequest env event inspect) := by
  unfold Monitor.handleNetworkConnect connectRequest
  cases event.actor.attributes.lookup "container" with
  | none => rfl
  | some containerId =>
    cases event.actor.attributes.lookup "name" with
    | none => rfl
    | some networkName =>
      cases inspect with
      | none => rfl
      | some container =>
        dsimp only
        cases container.networks.lookup networkName with
        | none => rfl
        | some network =>
          simp only [Option.bind_some]
          cases NetworkIps.fromNetwork network <;> rfl

theorem handleNetworkDisconnect_eq :
    (m.handleNetworkDisconnect env orders event).1 =
      perform env orders m (match event.actor.attributes.lookup "container",
          event.actor.attributes.lookup "name" with
        | some containerId, some networkName => .disconnect containerId networkName
        | _, _ => .nothing) := by
  unfold Monitor.handleNetworkDisconnect
  cases event.actor.attributes.lookup "container" with
  | none => rfl
  | some containerId =>
    cases event.actor.attributes.lookup "name" with
    | none => rfl
    | some networkName =>
      simp only [perform, disconnectNetwork]
      cases m.containers.lookup containerId with
      | none => rfl
      | some state =>
        dsimp only
        cases state.networks.lookup networkName <;> rfl

theorem handleNetworkCreate_eq (inspect : Option NetworkInspect) :
    (m.handleNetworkCreate env event inspect).1 =
      perform env orders m (match m.networks.lookup event.actor.id, inspect with
        | none, some inspect => .registerNetwork event.actor.id inspect.config
        | _, _ => .nothing) := by
  unfold Monitor.handleNetworkCreate
  cases m.networks.lookup event.actor.id with
  | some zones => rfl
  | none => cases inspect <;> rfl

end Handlers

theorem handleEvent_eq (env : Env) (m : Monitor) (input : Input) :
    (m.handleEvent env input).1 = perform env input.orders m (eventRequest env m input) := by
  unfold Monitor.handleEvent eventRequest
  cases input.event.type with
  | container =>
    dsimp only
    split_ifs
    · exact handleContainerStart_eq env _ m _ _
    · exact handleContainerRename_eq env _ m _
    · exact handleContainerDie_eq env _ m _
    · rfl
  | network =>
    dsimp only
    split_ifs
    · exact handleNetworkConnect_eq env _ m _ _
    · exact handleNetworkDisconnect_eq env _ m _
    · exact handleNetworkCreate_eq env _ m _ _
    · rfl
    · rfl
  | _ => rfl

/-- Every step does what it asks for, and nothing else. -/
theorem step_eq (env : Env) (m : Monitor) (s : Step) :
    step env m s = perform env s.orders m (request env m s) := by
  cases s with
  | listedNetwork network =>
    obtain ⟨id, inspect⟩ := network
    cases inspect <;> rfl
  | listedContainer orders container =>
    simp only [step, Monitor.startContainer, request]
    split_ifs <;> rfl
  | event input => exact handleEvent_eq env m input

end DockerDns.Guarantees
