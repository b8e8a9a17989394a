import DockerDns.Source.Containers

/-!
# The monitor

`docker/monitor.rs:57-74,239-673` and the set-up in `main.rs:142-171`. A handler
takes the event, the answer of its one inspect call and the iteration orders of
the hash maps it searches; it returns the monitor and how it ended. Log messages
are left out.
-/
namespace DockerDns.Source
open Library

structure ContainerState where
  names : List Name
  /-- network name to addresses -/
  networks : FiniteMap String NetworkIps

inductive CatalogEntry where
  | forward
  | reverse (authority : Handle)
  deriving DecidableEq, Repr

abbrev Catalog := FiniteMap LowerName (List CatalogEntry)

/-- The crates and the configured domain. -/
structure Env where
  hickory : Hickory
  ipnet : Ipnet
  regex : Regex
  domain : Name

structure Monitor where
  authorityWrapper : AuthorityWrapper
  catalog : Catalog
  containers : FiniteMap String ContainerState
  /-- network id to the reverse zones registered for it -/
  networks : FiniteMap String (List IpNet)

structure NetworkInspect where
  /-- the subnet of each IPAM configuration -/
  config : List (Option IpNet)

/-- The iteration orders of one handler call. -/
structure Orders where
  reverse : IterationOrder
  networks : List (Sigma fun _ : String => NetworkIps) → List (Sigma fun _ : String => NetworkIps)
  networks_perm : ∀ entries, (networks entries).Perm entries

def Orders.listed : Orders := ⟨.listed, id, fun _ => .refl _⟩

/-- How a handler ended: every early return of the source has its own value. -/
inductive Exit where
  | done
  | missingOldName | missingName | missingContainer
  | parse (error : ParseError)
  | inspectFailed
  | networkNotFound | noAddresses | sameAddresses
  | notTracked | notConnected
  | alreadyRegistered | notRegistered
  | ignored
  deriving DecidableEq, Repr

def setUpCatalog (domain : Name) : Catalog :=
  (∅ : Catalog).insert (LowerName.new domain) [.forward]

namespace Monitor

def new (env : Env) (forward : InMemoryZoneHandler) : Monitor :=
  { authorityWrapper := .new forward, catalog := setUpCatalog env.domain,
    containers := ∅, networks := ∅ }

/-- The loops `for ip in ips { for name in names { add } }`. -/
def addAll (env : Env) (order : IterationOrder) (names : List Name) (ips : List IpAddr)
    (w : AuthorityWrapper) : AuthorityWrapper :=
  ips.foldl (fun w ip => names.foldl (fun w name => w.add env.hickory order name ip) w) w

def removeAll (env : Env) (order : IterationOrder) (names : List Name) (ips : List IpAddr)
    (w : AuthorityWrapper) : AuthorityWrapper :=
  ips.foldl (fun w ip => names.foldl (fun w name => w.removeAddress env.hickory order name ip) w) w

/-- One turn of the loop over the reported networks: a network without an
address is skipped. -/
def registerNetworkIps (env : Env) (order : IterationOrder) (acc : AuthorityWrapper × ContainerState)
    (entry : Sigma fun _ : String => ContainerNetwork) : AuthorityWrapper × ContainerState :=
  match NetworkIps.fromNetwork entry.2 with
  | none => acc
  | some networkIps =>
    (addAll env order acc.2.names networkIps.ips acc.1,
      { acc.2 with networks := acc.2.networks.insert entry.1 networkIps })

def registerContainerNetworks (env : Env) (orders : Orders) (m : Monitor) (containerId : String)
    (fullNames : List Name) (networks : FiniteMap String ContainerNetwork) : Monitor :=
  let containerState := (m.containers.lookup containerId).getD ⟨fullNames, ∅⟩
  let registered := networks.entries.foldl (registerNetworkIps env orders.reverse)
    (m.authorityWrapper, containerState)
  { m with
    authorityWrapper := registered.1
    containers := m.containers.insert containerId registered.2 }

def handleContainerRename (env : Env) (orders : Orders) (m : Monitor) (event : Event) :
    Monitor × Exit :=
  let oldName := (event.actor.attributes.lookup "oldName").map fun name =>
    sanitize env.regex name ++ "." ++ env.hickory.display env.domain
  let newName := (event.actor.attributes.lookup "name").map fun name =>
    name ++ "." ++ env.hickory.display env.domain
  match oldName, newName with
  | none, _ => (m, .missingOldName)
  | some _, none => (m, .missingName)
  | some oldName, some newName =>
    match m.authorityWrapper.rename env.hickory orders.reverse oldName newName with
    | (w, .error error) => ({ m with authorityWrapper := w }, .parse error)
    | (w, .ok ()) =>
      let newNames := toFullNames env.hickory (getAllNamesFromEvent env.regex event) env.domain
      let containers := match m.containers.lookup event.actor.id with
        | none => m.containers
        | some state => m.containers.insert event.actor.id { state with names := newNames }
      ({ m with authorityWrapper := w, containers }, .done)

def handleContainerStart (env : Env) (orders : Orders) (m : Monitor) (event : Event)
    (inspect : Option ContainerInspect) : Monitor × Exit :=
  match inspect with
  | none => (m, .inspectFailed)
  | some container =>
    let fullNames :=
      toFullNames env.hickory (getAllNamesFromInspect env.regex container) env.domain
    (m.registerContainerNetworks env orders event.actor.id fullNames container.networks, .done)

def handleContainerDie (env : Env) (orders : Orders) (m : Monitor) (event : Event) :
    Monitor × Exit :=
  match m.containers.lookup event.actor.id with
  | none => (m, .notTracked)
  | some state =>
    let w := (orders.networks state.networks.entries).foldl
      (fun w entry => removeAll env orders.reverse state.names entry.2.ips w) m.authorityWrapper
    ({ m with authorityWrapper := w, containers := m.containers.erase event.actor.id }, .done)

/-- The body of the connect handler once the container's names and its network's
addresses are known: an entry with the same addresses is left alone, the
records of other addresses go first. The names serve a container not yet tracked. -/
def connectNetwork (env : Env) (orders : Orders) (m : Monitor) (containerId networkName : String)
    (fullNames : List Name) (networkIps : NetworkIps) : Monitor × Exit :=
  let state := (m.containers.lookup containerId).getD ⟨fullNames, ∅⟩
  let previous := state.networks.lookup networkName
  let connected := { state with networks := state.networks.insert networkName networkIps }
  let containers := m.containers.insert containerId connected
  if previous = some networkIps then
    ({ m with containers }, .sameAddresses)
  else
    let w := match previous with
      | some oldIps => removeAll env orders.reverse state.names oldIps.ips m.authorityWrapper
      | none => m.authorityWrapper
    let w := addAll env orders.reverse state.names networkIps.ips w
    ({ m with authorityWrapper := w, containers }, .done)

def handleNetworkConnect (env : Env) (orders : Orders) (m : Monitor) (event : Event)
    (inspect : Option ContainerInspect) : Monitor × Exit :=
  match event.actor.attributes.lookup "container" with
  | none => (m, .missingContainer)
  | some containerId =>
    match event.actor.attributes.lookup "name" with
    | none => (m, .missingName)
    | some networkName =>
      match inspect with
      | none => (m, .inspectFailed)
      | some container =>
        match container.networks.lookup networkName with
        | none => (m, .networkNotFound)
        | some network =>
          match NetworkIps.fromNetwork network with
          | none => (m, .noAddresses)
          | some networkIps => m.connectNetwork env orders containerId networkName
            (toFullNames env.hickory (getAllNamesFromInspect env.regex container) env.domain)
            networkIps

def handleNetworkDisconnect (env : Env) (orders : Orders) (m : Monitor) (event : Event) :
    Monitor × Exit :=
  match event.actor.attributes.lookup "container" with
  | none => (m, .missingContainer)
  | some containerId =>
    match event.actor.attributes.lookup "name" with
    | none => (m, .missingName)
    | some networkName =>
      match m.containers.lookup containerId with
      | none => (m, .notTracked)
      | some state =>
        match state.networks.lookup networkName with
        | none => (m, .notConnected)
        | some networkIps =>
          let w := removeAll env orders.reverse state.names networkIps.ips m.authorityWrapper
          let state := { state with networks := state.networks.erase networkName }
          ({ m with authorityWrapper := w, containers := m.containers.insert containerId state },
            .done)

/-- One turn of the inner loop of `register_network`: a fresh handler joins the
reverse zones and the catalog. -/
def registerZone (env : Env) (acc : Monitor × List IpNet) (zone : IpNet × Name) :
    Monitor × List IpNet :=
  match setUpAuthority env.hickory zone.2 with
  | none => acc
  | some handler =>
    let (w, authority) := acc.1.authorityWrapper.share handler
    ({ acc.1 with
        authorityWrapper := w.addReverseZone zone.1 authority
        catalog := acc.1.catalog.insert (LowerName.new zone.2) [.reverse authority] },
      acc.2 ++ [zone.1])

def registerConfig (env : Env) (acc : Monitor × List IpNet) (subnet : Option IpNet) :
    Monitor × List IpNet :=
  match subnet with
  | none => acc
  | some subnet => (parseSubnet env.hickory env.ipnet subnet).foldl (registerZone env) acc

def registerNetwork (env : Env) (m : Monitor) (networkId : String)
    (inspect : Option NetworkInspect) : Monitor × Exit :=
  match inspect with
  | none => (m, .inspectFailed)
  | some inspect =>
    let registered := inspect.config.foldl (registerConfig env) (m, [])
    ({ registered.1 with networks := registered.1.networks.insert networkId registered.2 }, .done)

/-- One turn of the loop of `deregister_network`. -/
def deregisterZone (env : Env) (m : Monitor) (network : IpNet) : Monitor :=
  let m := { m with authorityWrapper := m.authorityWrapper.removeReverseZone network }
  match zoneName env.hickory network with
  | none => m
  | some name => { m with catalog := m.catalog.erase (LowerName.new name) }

def deregisterNetwork (env : Env) (m : Monitor) (networkId : String) : Monitor × Exit :=
  match m.networks.lookup networkId with
  | none => (m, .notRegistered)
  | some zones =>
    (zones.foldl (deregisterZone env) { m with networks := m.networks.erase networkId }, .done)

def handleNetworkCreate (env : Env) (m : Monitor) (event : Event)
    (inspect : Option NetworkInspect) : Monitor × Exit :=
  match m.networks.lookup event.actor.id with
  | some _ => (m, .alreadyRegistered)
  | none => m.registerNetwork env event.actor.id inspect

def handleNetworkDestroy (env : Env) (m : Monitor) (event : Event) : Monitor × Exit :=
  m.deregisterNetwork env event.actor.id

end Monitor

/-- An event with the answers of the inspect calls its handler may make. -/
structure Input where
  event : Event
  inspectContainer : Option ContainerInspect := none
  inspectNetwork : Option NetworkInspect := none
  orders : Orders := .listed

namespace Monitor

/-- The dispatch of `consume_events`. -/
def handleEvent (env : Env) (m : Monitor) (input : Input) : Monitor × Exit :=
  match input.event.type with
  | .container =>
    if input.event.action = "start" then
      m.handleContainerStart env input.orders input.event input.inspectContainer
    else if input.event.action = "rename" then
      m.handleContainerRename env input.orders input.event
    else if input.event.action = "die" then
      m.handleContainerDie env input.orders input.event
    else (m, .ignored)
  | .network =>
    if input.event.action = "connect" then
      m.handleNetworkConnect env input.orders input.event input.inspectContainer
    else if input.event.action = "disconnect" then
      m.handleNetworkDisconnect env input.orders input.event
    else if input.event.action = "create" then
      m.handleNetworkCreate env input.event input.inspectNetwork
    else if input.event.action = "destroy" then
      m.handleNetworkDestroy env input.event
    else (m, .ignored)
  | _ => (m, .ignored)

def consumeEvents (env : Env) (m : Monitor) (inputs : List Input) : Monitor :=
  inputs.foldl (fun m input => (m.handleEvent env input).1) m

/-- One turn of the second loop of `start`. -/
def startContainer (env : Env) (orders : Orders) (m : Monitor) (container : ContainerSummary) :
    Monitor :=
  if container.state ≠ "running" then m
  else m.registerContainerNetworks env orders container.id
    (toFullNames env.hickory container.names env.domain) container.networks

end Monitor

/-- The answers of the client during `start`: the listed networks, each with its
inspect result, and the listed containers; `none` where the listing fails. -/
structure Bootstrap where
  networks : Option (List (String × Option NetworkInspect))
  containers : Option (List ContainerSummary)
  orders : Orders := .listed

namespace Monitor

/-- The flag is false when a listing fails and `start` returns early. -/
def start (env : Env) (m : Monitor) (boot : Bootstrap) : Monitor × Bool :=
  match boot.networks with
  | none => (m, false)
  | some networks =>
    let m := networks.foldl (fun m network => (m.registerNetwork env network.1 network.2).1) m
    match boot.containers with
    | none => (m, false)
    | some containers => (containers.foldl (startContainer env boot.orders) m, true)

/-- `docker_event_monitor`: events are consumed once `start` succeeded. -/
def dockerEventMonitor (env : Env) (m : Monitor) (boot : Bootstrap) (inputs : List Input) :
    Monitor :=
  match m.start env boot with
  | (m, false) => m
  | (m, true) => m.consumeEvents env inputs

end Monitor

/-- `start_tasks`: the monitor before its first call, over the served domain's
fresh zone; `none` when that zone cannot be set up. -/
def startTasks (env : Env) : Option Monitor :=
  (setUpAuthority env.hickory env.domain).map (Monitor.new env)

end DockerDns.Source
