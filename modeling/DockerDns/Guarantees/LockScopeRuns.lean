import Mathlib.Tactic.SplitIfs
import DockerDns.Source.LockScopes

/-!
# The code lock by lock does what the code does

Run on its own, every function of the lock-by-lock model ends with the result and
the state of the function it splits.
-/
namespace DockerDns.Guarantees
open Library Source

section Table
variable (hk : Hickory) (order : IterationOrder) (w : AuthorityWrapper)

theorem run_addPointer (name : Name) (address : IpAddr) :
    ((LockScopes.addPointer hk order name address).run w).2 =
      match w.findReverseAuthority order address with
      | none => w
      | some authority => w.modifyHandler authority fun records =>
        appendToRecordSet hk records ⟨LowerName.new (hk.nameOfIp address), .ptr⟩
          (hk.nameOfIp address) .ptr (.ptr name) := by
  simp only [LockScopes.addPointer, Sectioned.run_bind, Sectioned.run_read]
  cases w.findReverseAuthority order address <;> rfl

theorem run_upsert (name : Name) (address : IpAddr) :
    ((LockScopes.upsert hk order name address).run w).2 = w.upsert hk order name address := by
  simp only [LockScopes.upsert, Sectioned.run_bind, Sectioned.run_modify, run_addPointer]
  rfl

theorem run_removePointer (ip : IpAddr) (name : LowerName) :
    ((LockScopes.removePointer hk order ip name).run w).2 = w.removePointer hk order ip name := by
  simp only [LockScopes.removePointer, AuthorityWrapper.removePointer, Sectioned.run_bind,
    Sectioned.run_read]
  cases w.findReverseAuthority order ip <;> rfl

theorem run_renameRecord (oldName : LowerName) (newName : Name) (ip : IpAddr) :
    ((LockScopes.renameRecord hk order oldName newName ip).run w).2 =
      w.renameRecord hk order oldName newName ip := by
  simp only [LockScopes.renameRecord, Sectioned.run_bind, run_upsert, run_removePointer]
  rfl

theorem run_renameRecords (oldKey : RrKey) (newName : Name) :
    ((LockScopes.renameRecords hk order oldKey newName).run w).2 =
      (w.renameRecords hk order oldKey newName).getD w := by
  simp only [LockScopes.renameRecords, AuthorityWrapper.renameRecords, Sectioned.run_bind,
    Sectioned.run_modifyGet, LockScopes.takeRecords]
  cases w.forward.records.lookup oldKey with
  | none => rfl
  | some set =>
    simp only [Sectioned.run_bind, Sectioned.run_forM, run_renameRecord, Sectioned.run_pure]
    rfl

theorem run_rename (oldName newName : String) :
    (LockScopes.rename hk order oldName newName).run w =
      ((w.rename hk order oldName newName).2, (w.rename hk order oldName newName).1) := by
  unfold LockScopes.rename AuthorityWrapper.rename
  cases hk.parse newName with
  | none => rfl
  | some new =>
    cases hk.parse (AuthorityWrapper.stripPrefix '/' oldName) with
    | none => rfl
    | some old => simp only [LockScopes.renameFamilies, Sectioned.run_bind, run_renameRecords,
        Sectioned.run_pure]

theorem run_removeAddress (name : Name) (ip : IpAddr) :
    ((LockScopes.removeAddress hk order name ip).run w).2 = w.removeAddress hk order name ip := by
  simp only [LockScopes.removeAddress, LockScopes.removeRecord, AuthorityWrapper.removeAddress,
    AuthorityWrapper.removeRecord, Sectioned.run_bind, Sectioned.run_modifyGet,
    LockScopes.takeRecord]
  cases removeFromSet hk w.forward.records _ _ with
  | none => rfl
  | some records => simp only [Sectioned.run_bind, run_removePointer, Sectioned.run_pure,
      Option.getD_some]

end Table

section Handlers
variable (env : Env)

theorem run_addAll (order : IterationOrder) (names : List Name) (ips : List IpAddr)
    (w : AuthorityWrapper) :
    ((LockScopes.addAll env order names ips).run w).2 = Monitor.addAll env order names ips w := by
  simp only [LockScopes.addAll, Sectioned.run_forM, LockScopes.add, run_upsert]
  rfl

theorem run_removeAll (order : IterationOrder) (names : List Name) (ips : List IpAddr)
    (w : AuthorityWrapper) :
    ((LockScopes.removeAll env order names ips).run w).2 =
      Monitor.removeAll env order names ips w := by
  simp only [LockScopes.removeAll, Sectioned.run_forM, run_removeAddress]
  rfl

/-- The loop that updates the entry in place ends with the loop that carries it. -/
private theorem run_registerLoop (order : IterationOrder) (id : String) (m : Monitor)
    (containers : FiniteMap String ContainerState)
    (entries : List (Sigma fun _ : String => ContainerNetwork)) (state : ContainerState)
    (stored : m.containers = containers.insert id state) :
    ((entries.foldlM (LockScopes.registerNetworkIps env order id) state).run m).2 =
      { m with
        authorityWrapper :=
          (entries.foldl (Monitor.registerNetworkIps env order) (m.authorityWrapper, state)).1
        containers := containers.insert id
          (entries.foldl (Monitor.registerNetworkIps env order) (m.authorityWrapper, state)).2 } := by
  induction entries generalizing m state with
  | nil =>
    obtain ⟨w, catalog, _, networks⟩ := m
    exact congrArg (fun containers => Monitor.mk w catalog containers networks) stored
  | cons entry rest ih =>
    rw [List.foldlM_cons, Sectioned.run_bind, List.foldl_cons]
    unfold LockScopes.registerNetworkIps Monitor.registerNetworkIps
    cases NetworkIps.fromNetwork entry.2 with
    | none => exact ih m state stored
    | some networkIps =>
      simp only [Sectioned.run_bind, Sectioned.run_within, run_addAll, Sectioned.run_modify,
        Sectioned.run_pure, LockScopes.table]
      refine ih _ _ ?_
      show m.containers.insert id _ = _
      rw [stored]
      exact AList.insert_insert _

theorem run_registerContainerNetworks (orders : Orders) (m : Monitor) (id : String)
    (fullNames : List Name) (networks : FiniteMap String ContainerNetwork) :
    ((LockScopes.registerContainerNetworks env orders id fullNames networks).run m).2 =
      m.registerContainerNetworks env orders id fullNames networks := by
  simp only [LockScopes.registerContainerNetworks, Sectioned.run_bind, Sectioned.run_modifyGet]
  exact run_registerLoop env orders.reverse id _ m.containers networks.entries _ rfl

theorem run_handleContainerRename (orders : Orders) (m : Monitor) (event : Event) :
    (LockScopes.handleContainerRename env orders event).run m =
      ((m.handleContainerRename env orders event).2, (m.handleContainerRename env orders event).1) := by
  unfold LockScopes.handleContainerRename Monitor.handleContainerRename
  cases event.actor.attributes.lookup "oldName" with
  | none => rfl
  | some oldName =>
    cases event.actor.attributes.lookup "name" with
    | none => rfl
    | some newName =>
      simp only [Option.map_some, Sectioned.run_bind, Sectioned.run_within, run_rename,
        LockScopes.table]
      generalize AuthorityWrapper.rename _ _ _ _ _ = renamed
      obtain ⟨w, result⟩ := renamed
      cases result <;> rfl

theorem run_handleContainerStart (orders : Orders) (m : Monitor) (event : Event)
    (inspect : Option ContainerInspect) :
    (LockScopes.handleContainerStart env orders event inspect).run m =
      ((m.handleContainerStart env orders event inspect).2,
        (m.handleContainerStart env orders event inspect).1) := by
  cases inspect with
  | none => rfl
  | some container =>
    simp only [LockScopes.handleContainerStart, Sectioned.run_bind, run_registerContainerNetworks,
      Sectioned.run_pure]
    rfl

theorem run_handleContainerDie (orders : Orders) (m : Monitor) (event : Event) :
    (LockScopes.handleContainerDie env orders event).run m =
      ((m.handleContainerDie env orders event).2, (m.handleContainerDie env orders event).1) := by
  simp only [LockScopes.handleContainerDie, Monitor.handleContainerDie, Sectioned.run_bind,
    Sectioned.run_modifyGet, LockScopes.removeEntry]
  cases m.containers.lookup event.actor.id with
  | none => rfl
  | some state =>
    simp only [Sectioned.run_bind, Sectioned.run_forM, Sectioned.run_within, run_removeAll,
      Sectioned.run_pure]
    rfl

theorem run_connectRecords (orders : Orders) (names : List Name) (previous : Option NetworkIps)
    (networkIps : NetworkIps) (w : AuthorityWrapper) :
    ((LockScopes.connectRecords env orders names previous networkIps).run w).2 =
      Monitor.addAll env orders.reverse names networkIps.ips
        (match previous with
        | some oldIps => Monitor.removeAll env orders.reverse names oldIps.ips w
        | none => w) := by
  cases previous with
  | none => exact run_addAll env orders.reverse names networkIps.ips w
  | some oldIps => simp only [LockScopes.connectRecords, Sectioned.run_bind, run_addAll,
      run_removeAll]

theorem run_connectNetwork (orders : Orders) (m : Monitor) (id network : String)
    (fullNames : List Name) (networkIps : NetworkIps) :
    (LockScopes.connectNetwork env orders id network fullNames networkIps).run m =
      ((m.connectNetwork env orders id network fullNames networkIps).2,
        (m.connectNetwork env orders id network fullNames networkIps).1) := by
  simp only [LockScopes.connectNetwork, Sectioned.run_bind, Sectioned.run_modifyGet]
  unfold LockScopes.connectFrom LockScopes.connectEntry Monitor.connectNetwork
  dsimp only
  split_ifs
  · rfl
  · simp only [Sectioned.run_bind, Sectioned.run_within, run_connectRecords, Sectioned.run_pure]
    rfl

theorem run_handleNetworkConnect (orders : Orders) (m : Monitor) (event : Event)
    (inspect : Option ContainerInspect) :
    (LockScopes.handleNetworkConnect env orders event inspect).run m =
      ((m.handleNetworkConnect env orders event inspect).2,
        (m.handleNetworkConnect env orders event inspect).1) := by
  unfold LockScopes.handleNetworkConnect Monitor.handleNetworkConnect
  cases event.actor.attributes.lookup "container" with
  | none => rfl
  | some id =>
    cases event.actor.attributes.lookup "name" with
    | none => rfl
    | some network =>
      cases inspect with
      | none => rfl
      | some container =>
        dsimp only
        cases container.networks.lookup network with
        | none => rfl
        | some reported =>
          dsimp only
          cases NetworkIps.fromNetwork reported with
          | none => rfl
          | some networkIps => exact run_connectNetwork env orders m id network _ networkIps

theorem run_handleNetworkDisconnect (orders : Orders) (m : Monitor) (event : Event) :
    (LockScopes.handleNetworkDisconnect env orders event).run m =
      ((m.handleNetworkDisconnect env orders event).2,
        (m.handleNetworkDisconnect env orders event).1) := by
  unfold LockScopes.handleNetworkDisconnect Monitor.handleNetworkDisconnect
  cases event.actor.attributes.lookup "container" with
  | none => rfl
  | some id =>
    cases event.actor.attributes.lookup "name" with
    | none => rfl
    | some network =>
      simp only [Sectioned.run_bind, Sectioned.run_modifyGet, LockScopes.disconnectEntry]
      cases m.containers.lookup id with
      | none => rfl
      | some state =>
        dsimp only
        cases state.networks.lookup network with
        | none => rfl
        | some networkIps =>
          simp only [Sectioned.run_bind, Sectioned.run_within, run_removeAll, Sectioned.run_pure]
          rfl

theorem run_registerZone (m : Monitor) (registered : List IpNet) (zone : IpNet × Name) :
    (LockScopes.registerZone env registered zone).run m =
      ((Monitor.registerZone env (m, registered) zone).2,
        (Monitor.registerZone env (m, registered) zone).1) := by
  unfold LockScopes.registerZone Monitor.registerZone
  cases setUpAuthority env.hickory zone.2 <;> rfl

private theorem run_carried {α β : Type} (f : α → β → Sectioned Monitor α)
    (g : Monitor × α → β → Monitor × α)
    (once : ∀ m a x, (f a x).run m = ((g (m, a) x).2, (g (m, a) x).1)) (xs : List β) (m : Monitor)
    (a : α) : (xs.foldlM f a).run m = ((xs.foldl g (m, a)).2, (xs.foldl g (m, a)).1) := by
  rw [Sectioned.run_foldlM]
  induction xs generalizing m a with
  | nil => rfl
  | cons x rest ih =>
    rw [List.foldl_cons, List.foldl_cons, once]
    exact ih _ _

theorem run_registerConfig (m : Monitor) (registered : List IpNet) (subnet : Option IpNet) :
    (LockScopes.registerConfig env registered subnet).run m =
      ((Monitor.registerConfig env (m, registered) subnet).2,
        (Monitor.registerConfig env (m, registered) subnet).1) := by
  cases subnet with
  | none => rfl
  | some subnet => exact run_carried _ _ (run_registerZone env) _ m registered

theorem run_registerNetwork (m : Monitor) (id : String) (inspect : Option NetworkInspect) :
    (LockScopes.registerNetwork env id inspect).run m =
      ((m.registerNetwork env id inspect).2, (m.registerNetwork env id inspect).1) := by
  cases inspect with
  | none => rfl
  | some inspect =>
    simp only [LockScopes.registerNetwork, Sectioned.run_bind,
      run_carried _ _ (run_registerConfig env), Sectioned.run_modify, Sectioned.run_pure]
    rfl

theorem run_deregisterZone (m : Monitor) (network : IpNet) :
    ((LockScopes.deregisterZone env network).run m).2 = m.deregisterZone env network := by
  simp only [LockScopes.deregisterZone, Monitor.deregisterZone, Sectioned.run_bind,
    Sectioned.run_modify]
  cases zoneName env.hickory network <;> rfl

theorem run_deregisterNetwork (m : Monitor) (id : String) :
    (LockScopes.deregisterNetwork env id).run m =
      ((m.deregisterNetwork env id).2, (m.deregisterNetwork env id).1) := by
  simp only [LockScopes.deregisterNetwork, Monitor.deregisterNetwork, Sectioned.run_bind,
    Sectioned.run_modifyGet, LockScopes.removeNetwork]
  cases m.networks.lookup id with
  | none => rfl
  | some zones => simp only [Sectioned.run_bind, Sectioned.run_forM, run_deregisterZone,
      Sectioned.run_pure]

theorem run_handleNetworkCreate (m : Monitor) (event : Event) (inspect : Option NetworkInspect) :
    (LockScopes.handleNetworkCreate env event inspect).run m =
      ((m.handleNetworkCreate env event inspect).2, (m.handleNetworkCreate env event inspect).1) := by
  simp only [LockScopes.handleNetworkCreate, Monitor.handleNetworkCreate, Sectioned.run_bind,
    Sectioned.run_read]
  cases m.networks.lookup event.actor.id with
  | none => exact run_registerNetwork env m event.actor.id inspect
  | some zones => rfl

/-- Handling an event lock by lock is handling it. -/
theorem run_handleEvent (m : Monitor) (input : Input) :
    (LockScopes.handleEvent env input).run m =
      ((m.handleEvent env input).2, (m.handleEvent env input).1) := by
  unfold LockScopes.handleEvent Monitor.handleEvent
  cases input.event.type with
  | container =>
    dsimp only
    split_ifs
    · exact run_handleContainerStart env input.orders m input.event input.inspectContainer
    · exact run_handleContainerRename env input.orders m input.event
    · exact run_handleContainerDie env input.orders m input.event
    · rfl
  | network =>
    dsimp only
    split_ifs
    · exact run_handleNetworkConnect env input.orders m input.event input.inspectContainer
    · exact run_handleNetworkDisconnect env input.orders m input.event
    · exact run_handleNetworkCreate env m input.event input.inspectNetwork
    · exact run_deregisterNetwork env m input.event.actor.id
    · rfl
  | _ => rfl

theorem run_startContainer (orders : Orders) (m : Monitor) (container : ContainerSummary) :
    ((LockScopes.startContainer env orders container).run m).2 =
      m.startContainer env orders container := by
  unfold LockScopes.startContainer Monitor.startContainer
  split_ifs
  · rfl
  · exact run_registerContainerNetworks env orders m container.id _ container.networks

/-- The whole task, lock by lock, ends as the task does. -/
theorem run_dockerEventMonitor (m : Monitor) (boot : Bootstrap) (inputs : List Input) :
    ((LockScopes.dockerEventMonitor env boot inputs).run m).2 =
      m.dockerEventMonitor env boot inputs := by
  unfold LockScopes.dockerEventMonitor LockScopes.start Monitor.dockerEventMonitor Monitor.start
  cases boot.networks with
  | none => rfl
  | some networks =>
    cases boot.containers with
    | none =>
      simp only [Sectioned.run_bind, Sectioned.run_forM, run_registerNetwork, Sectioned.run_pure]
      rfl
    | some containers =>
      simp only [Sectioned.run_bind, Sectioned.run_forM, run_registerNetwork, Sectioned.run_pure,
        run_startContainer, LockScopes.consumeEvents, Monitor.consumeEvents, run_handleEvent,
        if_true]

end Handlers
end DockerDns.Guarantees
