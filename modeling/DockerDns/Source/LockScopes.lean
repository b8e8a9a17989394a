import DockerDns.Library.Sections
import DockerDns.Source.Monitor

/-!
# The same code, lock by lock

`table.rs:77-240` and `docker/monitor.rs:256-673` again, with every lock scope a
section of its own: queries are answered by other tasks between any two of them.
The tables `containers` and `networks` are the monitor's own; their guards are
held across several sections, which nobody else can tell.
-/
namespace DockerDns.Source.LockScopes
open Library

section Table
variable (hk : Hickory) (order : IterationOrder)

/-- The end of `upsert`: the pointer joins the zone that covers the address. -/
def addPointer (name : Name) (address : IpAddr) : Sectioned AuthorityWrapper Unit := do
  match ← .read fun w => w.findReverseAuthority order address with
  | none => pure ()
  | some reverseAuthority =>
    let reverse := hk.nameOfIp address
    .modify fun w => w.modifyHandler reverseAuthority fun records =>
      appendToRecordSet hk records ⟨LowerName.new reverse, .ptr⟩ reverse .ptr (.ptr name)

def upsert (name : Name) (address : IpAddr) : Sectioned AuthorityWrapper Unit := do
  let rdata := RData.ofIp address
  let recordType := rdata.recordType
  .modify fun w => w.modifyForward fun records =>
    appendToRecordSet hk records ⟨LowerName.new name, recordType⟩ name recordType rdata
  addPointer hk order name address

def add (name : Name) (address : IpAddr) : Sectioned AuthorityWrapper Unit :=
  upsert hk order name address

def removePointer (ip : IpAddr) (name : LowerName) : Sectioned AuthorityWrapper Unit := do
  match ← .read fun w => w.findReverseAuthority order ip with
  | none => pure ()
  | some reverseAuthority =>
    .modify fun w => w.modifyHandler reverseAuthority fun records =>
      removeFromPtrSet hk records ip name

def renameRecord (oldName : LowerName) (newName : Name) (ip : IpAddr) :
    Sectioned AuthorityWrapper Unit := do
  removePointer hk order ip oldName
  upsert hk order newName ip

/-- The first scope of `rename_records`: the record set leaves the forward zone. -/
def takeRecords (oldKey : RrKey) (w : AuthorityWrapper) :
    Option (List IpAddr) × AuthorityWrapper :=
  match w.forward.records.lookup oldKey with
  | none => (none, w)
  | some recordSet => (some (recordSet.records.filterMap RData.ipAddr),
      w.modifyForward fun records => records.erase oldKey)

/-- Whether records were stored under the old key. -/
def renameRecords (oldKey : RrKey) (newName : Name) : Sectioned AuthorityWrapper Bool := do
  match ← .modifyGet (takeRecords oldKey) with
  | none => pure false
  | some ips =>
    ips.forM (renameRecord hk order oldKey.name newName)
    pure true

/-- The two passes of `rename`, over names that parsed. -/
def renameFamilies (oldNameParsed newNameParsed : Name) : Sectioned AuthorityWrapper Unit := do
  let oldKey := LowerName.new oldNameParsed
  let _ ← renameRecords hk order ⟨oldKey, .a⟩ newNameParsed
  let _ ← renameRecords hk order ⟨oldKey, .aaaa⟩ newNameParsed
  pure ()

def rename (oldName newName : String) : Sectioned AuthorityWrapper (Except ParseError Unit) :=
  match hk.parse newName with
  | none => pure (.error .newName)
  | some newNameParsed =>
    match hk.parse (AuthorityWrapper.stripPrefix '/' oldName) with
    | none => pure (.error .oldName)
    | some oldNameParsed => do
      renameFamilies hk order oldNameParsed newNameParsed
      pure (.ok ())

/-- The first scope of `remove_record`: the record leaves the forward zone, if it is there. -/
def takeRecord (name : Name) (ip : IpAddr) (w : AuthorityWrapper) : Bool × AuthorityWrapper :=
  match removeFromSet hk w.forward.records ⟨LowerName.new name, (RData.ofIp ip).recordType⟩
      ⟨name, 0, RData.ofIp ip⟩ with
  | none => (false, w)
  | some records => (true, w.modifyForward fun _ => records)

/-- Whether the forward zone held the record. -/
def removeRecord (name : Name) (ip : IpAddr) : Sectioned AuthorityWrapper Bool := do
  match ← .modifyGet (takeRecord hk name ip) with
  | false => pure false
  | true =>
    removePointer hk order ip (LowerName.new name)
    pure true

def removeAddress (name : Name) (ip : IpAddr) : Sectioned AuthorityWrapper Unit := do
  let _ ← removeRecord hk order name ip
  pure ()

end Table

/-- The authority wrapper of a monitor. -/
def table : Sectioned.Part Monitor AuthorityWrapper where
  get m := m.authorityWrapper
  put m w := { m with authorityWrapper := w }
  get_put _ _ := rfl
  put_get _ := rfl
  put_put _ _ _ := rfl

section Handlers
variable (env : Env)

def addAll (order : IterationOrder) (names : List Name) (ips : List IpAddr) :
    Sectioned AuthorityWrapper Unit :=
  ips.forM fun ip => names.forM fun name => add env.hickory order name ip

def removeAll (order : IterationOrder) (names : List Name) (ips : List IpAddr) :
    Sectioned AuthorityWrapper Unit :=
  ips.forM fun ip => names.forM fun name => removeAddress env.hickory order name ip

/-- One turn of the loop over the reported networks; the entry is updated in place. -/
def registerNetworkIps (order : IterationOrder) (containerId : String) (state : ContainerState)
    (entry : Sigma fun _ : String => ContainerNetwork) : Sectioned Monitor ContainerState :=
  match NetworkIps.fromNetwork entry.2 with
  | none => pure state
  | some networkIps => do
    (addAll env order state.names networkIps.ips).within table
    let state := { state with networks := state.networks.insert entry.1 networkIps }
    .modify fun m => { m with containers := m.containers.insert containerId state }
    pure state

/-- The entry of a container, created with the given names when it has none. -/
def openEntry (containerId : String) (fullNames : List Name) (m : Monitor) :
    ContainerState × Monitor :=
  let state := (m.containers.lookup containerId).getD ⟨fullNames, ∅⟩
  (state, { m with containers := m.containers.insert containerId state })

def registerContainerNetworks (orders : Orders) (containerId : String) (fullNames : List Name)
    (networks : FiniteMap String ContainerNetwork) : Sectioned Monitor Unit := do
  let containerState ← .modifyGet (openEntry containerId fullNames)
  let _ ← networks.entries.foldlM (registerNetworkIps env orders.reverse containerId) containerState
  pure ()

/-- The names of a tracked container are replaced. -/
def setNames (containerId : String) (names : List Name) (m : Monitor) : Monitor :=
  { m with
    containers := match m.containers.lookup containerId with
      | none => m.containers
      | some state => m.containers.insert containerId { state with names } }

def handleContainerRename (orders : Orders) (event : Event) : Sectioned Monitor Exit :=
  let oldName := (event.actor.attributes.lookup "oldName").map fun name =>
    sanitize env.regex name ++ "." ++ env.hickory.display env.domain
  let newName := (event.actor.attributes.lookup "name").map fun name =>
    name ++ "." ++ env.hickory.display env.domain
  match oldName, newName with
  | none, _ => pure .missingOldName
  | some _, none => pure .missingName
  | some oldName, some newName => do
    match ← (rename env.hickory orders.reverse oldName newName).within table with
    | .error error => pure (.parse error)
    | .ok () =>
      let newNames := toFullNames env.hickory (getAllNamesFromEvent env.regex event) env.domain
      .modify (setNames event.actor.id newNames)
      pure .done

def handleContainerStart (orders : Orders) (event : Event) (inspect : Option ContainerInspect) :
    Sectioned Monitor Exit :=
  match inspect with
  | none => pure .inspectFailed
  | some container => do
    let fullNames :=
      toFullNames env.hickory (getAllNamesFromInspect env.regex container) env.domain
    registerContainerNetworks env orders event.actor.id fullNames container.networks
    pure .done

def removeEntry (containerId : String) (m : Monitor) : Option ContainerState × Monitor :=
  match m.containers.lookup containerId with
  | none => (none, m)
  | some state => (some state, { m with containers := m.containers.erase containerId })

def handleContainerDie (orders : Orders) (event : Event) : Sectioned Monitor Exit := do
  match ← .modifyGet (removeEntry event.actor.id) with
  | none => pure .notTracked
  | some state =>
    ((orders.networks state.networks.entries).forM fun entry =>
      removeAll env orders.reverse state.names entry.2.ips).within table
    pure .done

/-- The network joins the container's entry; the result is the entry as it was
before, created when there was none. -/
def connectEntry (containerId networkName : String) (fullNames : List Name)
    (networkIps : NetworkIps) (m : Monitor) : ContainerState × Monitor :=
  let state := (m.containers.lookup containerId).getD ⟨fullNames, ∅⟩
  let connected := { state with networks := state.networks.insert networkName networkIps }
  (state, { m with containers := m.containers.insert containerId connected })

/-- The records of a network whose addresses changed: the old ones go first. -/
def connectRecords (orders : Orders) (names : List Name) (previous : Option NetworkIps)
    (networkIps : NetworkIps) : Sectioned AuthorityWrapper Unit := do
  match previous with
  | some oldIps =>
    removeAll env orders.reverse names oldIps.ips
    addAll env orders.reverse names networkIps.ips
  | none => addAll env orders.reverse names networkIps.ips

/-- The connect handler on the container's entry as it was found. -/
def connectFrom (orders : Orders) (networkName : String) (networkIps : NetworkIps)
    (state : ContainerState) : Sectioned Monitor Exit :=
  let previous := state.networks.lookup networkName
  if previous = some networkIps then pure .sameAddresses
  else do
    (connectRecords env orders state.names previous networkIps).within table
    pure .done

def connectNetwork (orders : Orders) (containerId networkName : String) (fullNames : List Name)
    (networkIps : NetworkIps) : Sectioned Monitor Exit := do
  let state ← .modifyGet (connectEntry containerId networkName fullNames networkIps)
  connectFrom env orders networkName networkIps state

def handleNetworkConnect (orders : Orders) (event : Event) (inspect : Option ContainerInspect) :
    Sectioned Monitor Exit :=
  match event.actor.attributes.lookup "container" with
  | none => pure .missingContainer
  | some containerId =>
    match event.actor.attributes.lookup "name" with
    | none => pure .missingName
    | some networkName =>
      match inspect with
      | none => pure .inspectFailed
      | some container =>
        match container.networks.lookup networkName with
        | none => pure .networkNotFound
        | some network =>
          match NetworkIps.fromNetwork network with
          | none => pure .noAddresses
          | some networkIps => connectNetwork env orders containerId networkName
            (toFullNames env.hickory (getAllNamesFromInspect env.regex container) env.domain)
            networkIps

/-- The network leaves the container's entry. -/
def disconnectEntry (containerId networkName : String) (m : Monitor) :
    Except Exit (List Name × NetworkIps) × Monitor :=
  match m.containers.lookup containerId with
  | none => (.error .notTracked, m)
  | some state =>
    match state.networks.lookup networkName with
    | none => (.error .notConnected, m)
    | some networkIps =>
      let after := { state with networks := state.networks.erase networkName }
      (.ok (state.names, networkIps), { m with containers := m.containers.insert containerId after })

def handleNetworkDisconnect (orders : Orders) (event : Event) : Sectioned Monitor Exit :=
  match event.actor.attributes.lookup "container" with
  | none => pure .missingContainer
  | some containerId =>
    match event.actor.attributes.lookup "name" with
    | none => pure .missingName
    | some networkName => do
      match ← .modifyGet (disconnectEntry containerId networkName) with
      | .error exit => pure exit
      | .ok (names, networkIps) =>
        (removeAll env orders.reverse names networkIps.ips).within table
        pure .done

/-- The zone joins the reverse zones, under its own scope. -/
def shareZone (network : IpNet) (handler : InMemoryZoneHandler) (m : Monitor) : Handle × Monitor :=
  let (w, authority) := m.authorityWrapper.share handler
  (authority, { m with authorityWrapper := w.addReverseZone network authority })

/-- One turn of the inner loop of `register_network`: the reverse zones first,
then the catalog. -/
def registerZone (registered : List IpNet) (zone : IpNet × Name) :
    Sectioned Monitor (List IpNet) :=
  match setUpAuthority env.hickory zone.2 with
  | none => pure registered
  | some handler => do
    let authority ← .modifyGet (shareZone zone.1 handler)
    .modify fun m => { m with
      catalog := m.catalog.insert (LowerName.new zone.2) [.reverse authority] }
    pure (registered ++ [zone.1])

def registerConfig (registered : List IpNet) (subnet : Option IpNet) :
    Sectioned Monitor (List IpNet) :=
  match subnet with
  | none => pure registered
  | some subnet => (parseSubnet env.hickory env.ipnet subnet).foldlM (registerZone env) registered

def registerNetwork (networkId : String) (inspect : Option NetworkInspect) :
    Sectioned Monitor Exit :=
  match inspect with
  | none => pure .inspectFailed
  | some inspect => do
    let registered ← inspect.config.foldlM (registerConfig env) []
    .modify fun m => { m with networks := m.networks.insert networkId registered }
    pure .done

/-- One turn of the loop of `deregister_network`. -/
def deregisterZone (network : IpNet) : Sectioned Monitor Unit := do
  .modify fun m => { m with authorityWrapper := m.authorityWrapper.removeReverseZone network }
  match zoneName env.hickory network with
  | none => pure ()
  | some name => .modify fun m => { m with catalog := m.catalog.erase (LowerName.new name) }

def removeNetwork (networkId : String) (m : Monitor) : Option (List IpNet) × Monitor :=
  match m.networks.lookup networkId with
  | none => (none, m)
  | some zones => (some zones, { m with networks := m.networks.erase networkId })

def deregisterNetwork (networkId : String) : Sectioned Monitor Exit := do
  match ← .modifyGet (removeNetwork networkId) with
  | none => pure .notRegistered
  | some zones =>
    zones.forM (deregisterZone env)
    pure .done

def handleNetworkCreate (event : Event) (inspect : Option NetworkInspect) :
    Sectioned Monitor Exit := do
  match ← .read fun m => m.networks.lookup event.actor.id with
  | some _ => pure .alreadyRegistered
  | none => registerNetwork env event.actor.id inspect

def handleNetworkDestroy (event : Event) : Sectioned Monitor Exit :=
  deregisterNetwork env event.actor.id

def handleEvent (input : Input) : Sectioned Monitor Exit :=
  match input.event.type with
  | .container =>
    if input.event.action = "start" then
      handleContainerStart env input.orders input.event input.inspectContainer
    else if input.event.action = "rename" then
      handleContainerRename env input.orders input.event
    else if input.event.action = "die" then
      handleContainerDie env input.orders input.event
    else pure .ignored
  | .network =>
    if input.event.action = "connect" then
      handleNetworkConnect env input.orders input.event input.inspectContainer
    else if input.event.action = "disconnect" then
      handleNetworkDisconnect env input.orders input.event
    else if input.event.action = "create" then
      handleNetworkCreate env input.event input.inspectNetwork
    else if input.event.action = "destroy" then
      handleNetworkDestroy env input.event
    else pure .ignored
  | _ => pure .ignored

def startContainer (orders : Orders) (container : ContainerSummary) : Sectioned Monitor Unit :=
  if container.state ≠ "running" then pure ()
  else registerContainerNetworks env orders container.id
    (toFullNames env.hickory container.names env.domain) container.networks

/-- The flag is false when a listing fails. -/
def start (boot : Bootstrap) : Sectioned Monitor Bool :=
  match boot.networks with
  | none => pure false
  | some networks => do
    networks.forM fun network => do
      let _ ← registerNetwork env network.1 network.2
      pure ()
    match boot.containers with
    | none => pure false
    | some containers =>
      containers.forM (startContainer env boot.orders)
      pure true

def consumeEvents (inputs : List Input) : Sectioned Monitor Unit :=
  inputs.forM fun input => do
    let _ ← handleEvent env input
    pure ()

/-- `docker_event_monitor` -/
def dockerEventMonitor (boot : Bootstrap) (inputs : List Input) : Sectioned Monitor Unit := do
  if ← start env boot then consumeEvents env inputs
  else pure ()

end Handlers
end DockerDns.Source.LockScopes
