import DockerDns.Guarantees.HandlerEffects
import DockerDns.Guarantees.LockScopeRuns

/-!
# Every moment of a run

The requests of the steps, lock by lock. What holds at every moment of a request
holds at every moment of the step that asks for it, and what holds at every
moment of every step holds at every moment of the run.
-/
namespace DockerDns.Guarantees
open Library Source

/-- A step, lock by lock. -/
def stepSections (env : Env) : Step → Sectioned Monitor Unit
  | .listedNetwork network => do
    let _ ← LockScopes.registerNetwork env network.1 network.2
    pure ()
  | .listedContainer orders container => LockScopes.startContainer env orders container
  | .event input => do
    let _ ← LockScopes.handleEvent env input
    pure ()

/-- A request, lock by lock. -/
def requestSections (env : Env) (orders : Orders) : Request → Sectioned Monitor Unit
  | .nothing => pure ()
  | .register id names networks =>
    LockScopes.registerContainerNetworks env orders id names networks
  | .rename id old new names => do
    (LockScopes.renameFamilies env.hickory orders.reverse old new).within LockScopes.table
    .modify (LockScopes.setNames id names)
  | .die id => do
    match ← .modifyGet (LockScopes.removeEntry id) with
    | none => pure ()
    | some state =>
      ((orders.networks state.networks.entries).forM fun entry =>
        LockScopes.removeAll env orders.reverse state.names entry.2.ips).within LockScopes.table
  | .connect id network names ips => do
    let _ ← LockScopes.connectNetwork env orders id network names ips
    pure ()
  | .disconnect id network => do
    match ← .modifyGet (LockScopes.disconnectEntry id network) with
    | .error _ => pure ()
    | .ok (names, networkIps) =>
      (LockScopes.removeAll env orders.reverse names networkIps.ips).within LockScopes.table
  | .registerNetwork id config => do
    let _ ← LockScopes.registerNetwork env id (some ⟨config⟩)
    pure ()
  | .deregisterNetwork id => do
    let _ ← LockScopes.deregisterNetwork env id
    pure ()

section Requests
variable (env : Env) {P : Monitor → Prop} {m : Monitor}

private theorem every_handleContainerRename (orders : Orders) (event : Event) :
    (LockScopes.handleContainerRename env orders event).Every P m ↔
      (requestSections env orders (renameRequest env event)).Every P m := by
  unfold LockScopes.handleContainerRename renameRequest
  cases event.actor.attributes.lookup "oldName" with
  | none => rfl
  | some oldName =>
    cases event.actor.attributes.lookup "name" with
    | none => rfl
    | some name =>
      simp only [Option.map_some, LockScopes.rename, newNameText, oldNameText]
      cases env.hickory.parse (name ++ "." ++ env.hickory.display env.domain) with
      | none => cases env.hickory.parse _ <;> rfl
      | some new =>
        cases env.hickory.parse (AuthorityWrapper.stripPrefix '/'
            (sanitize env.regex oldName ++ "." ++ env.hickory.display env.domain)) with
        | none => rfl
        | some old =>
          simp only [requestSections, Sectioned.every_bind, Sectioned.every_within,
            Sectioned.run_within, Sectioned.run_bind, Sectioned.run_pure, Sectioned.run_modify,
            Sectioned.every_pure, Sectioned.every_modify]
          exact ⟨fun every => ⟨every.1.1, every.2.1⟩,
            fun every => ⟨⟨every.1, every.2.1⟩, every.2, every.2.2⟩⟩

private theorem every_handleContainerDie (orders : Orders) (event : Event) :
    (LockScopes.handleContainerDie env orders event).Every P m ↔
      (requestSections env orders (.die event.actor.id)).Every P m := by
  simp only [LockScopes.handleContainerDie, requestSections, Sectioned.every_bind,
    Sectioned.run_modifyGet]
  cases (LockScopes.removeEntry event.actor.id m).1 with
  | none => rfl
  | some state => rw [Sectioned.every_report]

private theorem every_handleNetworkConnect (orders : Orders) (event : Event)
    (inspect : Option ContainerInspect) :
    (LockScopes.handleNetworkConnect env orders event inspect).Every P m ↔
      (requestSections env orders (connectRequest env event inspect)).Every P m := by
  unfold LockScopes.handleNetworkConnect connectRequest
  cases event.actor.attributes.lookup "container" with
  | none => rfl
  | some containerId =>
    cases event.actor.attributes.lookup "name" with
    | none => rfl
    | some networkName =>
      cases inspect with
      | none => rfl
      | some container =>
        dsimp only
        cases container.networks.lookup networkName with
        | none => rfl
        | some network =>
          simp only [Option.bind_some]
          cases NetworkIps.fromNetwork network with
          | none => rfl
          | some ips => exact (Sectioned.every_report _ _).symm

private theorem every_handleNetworkDisconnect (orders : Orders) (event : Event) :
    (LockScopes.handleNetworkDisconnect env orders event).Every P m ↔
      (requestSections env orders (match event.actor.attributes.lookup "container",
          event.actor.attributes.lookup "name" with
        | some containerId, some networkName => .disconnect containerId networkName
        | _, _ => .nothing)).Every P m := by
  unfold LockScopes.handleNetworkDisconnect
  cases event.actor.attributes.lookup "container" with
  | none => rfl
  | some containerId =>
    cases event.actor.attributes.lookup "name" with
    | none => rfl
    | some networkName =>
      simp only [requestSections, Sectioned.every_bind, Sectioned.run_modifyGet]
      cases (LockScopes.disconnectEntry containerId networkName m).1 with
      | error exit => rfl
      | ok found => rw [Sectioned.every_report]

private theorem every_handleNetworkCreate (orders : Orders) (event : Event)
    (inspect : Option NetworkInspect) :
    (LockScopes.handleNetworkCreate env event inspect).Every P m ↔
      (requestSections env orders (match m.networks.lookup event.actor.id, inspect with
        | none, some inspect => .registerNetwork event.actor.id inspect.config
        | _, _ => .nothing)).Every P m := by
  simp only [LockScopes.handleNetworkCreate, Sectioned.every_bind, Sectioned.every_read,
    Sectioned.run_read]
  cases m.networks.lookup event.actor.id with
  | some zones => exact and_self_iff
  | none =>
    cases inspect with
    | none => exact and_self_iff
    | some inspect =>
      rw [requestSections, Sectioned.every_report]
      exact and_iff_right_of_imp Sectioned.Every.first

/-- The moments of a handler are those of the request it makes. -/
theorem every_handleEvent (input : Input) : (LockScopes.handleEvent env input).Every P m ↔
    (requestSections env input.orders (eventRequest env m input)).Every P m := by
  unfold LockScopes.handleEvent eventRequest
  cases input.event.type with
  | container =>
    dsimp only
    split_ifs
    · cases input.inspectContainer with
      | none => rfl
      | some container => exact Sectioned.every_report _ _
    · exact every_handleContainerRename env input.orders input.event
    · exact every_handleContainerDie env input.orders input.event
    · rfl
  | network =>
    dsimp only
    split_ifs
    · exact every_handleNetworkConnect env input.orders input.event input.inspectContainer
    · exact every_handleNetworkDisconnect env input.orders input.event
    · exact every_handleNetworkCreate env input.orders input.event input.inspectNetwork
    · exact (Sectioned.every_report _ _).symm
    · rfl
  | _ => rfl

/-- The moments of a step are those of the request it makes. -/
theorem every_stepSections (s : Step) : (stepSections env s).Every P m ↔
    (requestSections env s.orders (request env m s)).Every P m := by
  cases s with
  | listedNetwork network =>
    obtain ⟨id, inspect⟩ := network
    cases inspect <;> rfl
  | listedContainer orders container =>
    simp only [stepSections, LockScopes.startContainer, request]
    split_ifs <;> rfl
  | event input => exact (Sectioned.every_report _ _).trans (every_handleEvent env input)

theorem run_stepSections (s : Step) : ((stepSections env s).run m).2 = step env m s := by
  cases s with
  | listedNetwork network => simp only [stepSections, Sectioned.run_bind, run_registerNetwork,
      Sectioned.run_pure, step]
  | listedContainer orders container => exact run_startContainer env orders m container
  | event input => simp only [stepSections, Sectioned.run_bind, run_handleEvent,
      Sectioned.run_pure, step]

end Requests
end DockerDns.Guarantees
