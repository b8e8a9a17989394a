import DockerDns.Guarantees.LockScopeSteps
import DockerDns.Guarantees.Registrations

/-!
# The pairs a request works on, turn by turn

A request about containers works on its pairs one after another. What every
operation on one pair keeps, at each of its moments and at its end, the whole
request keeps at each of its moments.
-/
namespace DockerDns.Guarantees
open Library Source

/-- The pairs a request adds. -/
def AddsPair (m : Monitor) : Request → Name → IpAddr → Prop
  | .register id names networks, name, ip => name ∈ (entryOr m id names).names ∧
    ∃ net ips, Reports networks net ips ∧ ip ∈ ips.ips
  | .connect id net names ips, name, ip => (entryOr m id names).networks.lookup net ≠ some ips ∧
    name ∈ (entryOr m id names).names ∧ ip ∈ ips.ips
  | _, _, _ => False

/-- The pairs a request removes: a connect removes those of the addresses it replaces. -/
def RemovesPair (m : Monitor) : Request → Name → IpAddr → Prop
  | .die id, name, ip => ∃ state, m.containers.lookup id = some state ∧ name ∈ state.names ∧
    Recorded state.networks ip
  | .connect id net names ips, name, ip => ∃ old,
    (entryOr m id names).networks.lookup net = some old ∧ old ≠ ips ∧
    name ∈ (entryOr m id names).names ∧ ip ∈ old.ips
  | .disconnect id net, name, ip => ∃ state ips, m.containers.lookup id = some state ∧
    state.networks.lookup net = some ips ∧ name ∈ state.names ∧ ip ∈ ips.ips
  | _, _, _ => False

def Request.Renames : Request → Name → Name → Prop
  | .rename _ old new _, old', new' => old' = old ∧ new' = new
  | _, _, _ => False

/-- What the operations of a request keep: `inv` between them, `Q` at every moment. -/
structure TurnsKeep (env : Env) (orders : Orders) (m : Monitor) (r : Request)
    (inv Q : AuthorityWrapper → Prop) : Prop where
  adds : ∀ name ip, AddsPair m r name ip → ∀ w, inv w →
    (LockScopes.upsert env.hickory orders.reverse name ip).Every Q w ∧
      inv (w.upsert env.hickory orders.reverse name ip)
  removes : ∀ name ip, RemovesPair m r name ip → ∀ w, inv w →
    (LockScopes.removeAddress env.hickory orders.reverse name ip).Every Q w ∧
      inv (w.removeAddress env.hickory orders.reverse name ip)
  renames : ∀ old new, r.Renames old new → ∀ t, ForwardKind t → ∀ w, inv w →
    (LockScopes.renameRecords env.hickory orders.reverse ⟨LowerName.new old, t⟩ new).Every Q w ∧
      inv ((w.renameRecords env.hickory orders.reverse ⟨LowerName.new old, t⟩ new).getD w)
  implies : ∀ w, inv w → Q w

section Loops
variable {env : Env} {order : IterationOrder} {inv Q : AuthorityWrapper → Prop}

/-- The loops over addresses and names keep what the turns keep. -/
private theorem every_pairs (f : Name → IpAddr → Sectioned AuthorityWrapper Unit)
    (g : AuthorityWrapper → Name → IpAddr → AuthorityWrapper)
    (same : ∀ name ip w, ((f name ip).run w).2 = g w name ip) {names : List Name}
    {ips : List IpAddr}
    (turn : ∀ name ∈ names, ∀ ip ∈ ips, ∀ w, inv w → (f name ip).Every Q w ∧ inv (g w name ip))
    (implies : ∀ w, inv w → Q w) {w : AuthorityWrapper} (start : inv w) :
    (ips.forM fun ip => names.forM fun name => f name ip).Every Q w ∧
      inv ((ips.forM fun ip => names.forM fun name => f name ip).run w).2 := by
  refine Sectioned.every_forM ips _ (fun ip inside w start => ?_) implies start
  refine Sectioned.every_forM names _ (fun name member w start => ?_) implies start
  rw [same]
  exact turn name member ip inside w start

theorem every_addAll {names : List Name} {ips : List IpAddr}
    (turn : ∀ name ∈ names, ∀ ip ∈ ips, ∀ w, inv w →
      (LockScopes.upsert env.hickory order name ip).Every Q w ∧
        inv (w.upsert env.hickory order name ip))
    (implies : ∀ w, inv w → Q w) {w : AuthorityWrapper} (start : inv w) :
    (LockScopes.addAll env order names ips).Every Q w ∧
      inv (Monitor.addAll env order names ips w) := by
  have loop := every_pairs (LockScopes.add env.hickory order)
    (fun w name ip => w.upsert env.hickory order name ip)
    (fun name ip w => run_upsert env.hickory order w name ip) turn implies start
  rwa [← run_addAll]

theorem every_removeAll {names : List Name} {ips : List IpAddr}
    (turn : ∀ name ∈ names, ∀ ip ∈ ips, ∀ w, inv w →
      (LockScopes.removeAddress env.hickory order name ip).Every Q w ∧
        inv (w.removeAddress env.hickory order name ip))
    (implies : ∀ w, inv w → Q w) {w : AuthorityWrapper} (start : inv w) :
    (LockScopes.removeAll env order names ips).Every Q w ∧
      inv (Monitor.removeAll env order names ips w) := by
  have loop := every_pairs (LockScopes.removeAddress env.hickory order)
    (fun w name ip => w.removeAddress env.hickory order name ip)
    (fun name ip w => run_removeAddress env.hickory order w name ip) turn implies start
  rwa [← run_removeAll]

end Loops

/-- A moment of a request that leaves the catalog and the network table alone. -/
structure TableMoment (m : Monitor) (Q : AuthorityWrapper → Prop) (m' : Monitor) : Prop where
  catalog : m'.catalog = m.catalog
  networks : m'.networks = m.networks
  table : Q m'.authorityWrapper

section Requests
variable {env : Env} {orders : Orders} {m : Monitor} {inv Q : AuthorityWrapper → Prop}

/-- Sections on the table alone, from a monitor that differs in its containers at most. -/
private theorem every_table {x : Sectioned AuthorityWrapper Unit} {m₁ : Monitor}
    (same : TableMoment m inv m₁) (every : x.Every Q m₁.authorityWrapper) :
    (x.within LockScopes.table).Every (TableMoment m Q) m₁ := by
  rw [Sectioned.every_within]
  exact every.mono fun w held => ⟨same.catalog, same.networks, held⟩

private theorem every_registerLoop {id : String} {names : List Name}
    {networks : FiniteMap String ContainerNetwork}
    (keeps : TurnsKeep env orders m (.register id names networks) inv Q)
    (start : inv m.authorityWrapper) :
    (requestSections env orders (.register id names networks)).Every (TableMoment m Q) m := by
  have implies : ∀ m', TableMoment m inv m' → TableMoment m Q m' :=
    fun m' moment => ⟨moment.catalog, moment.networks, keeps.implies _ moment.table⟩
  have opened : TableMoment m inv (LockScopes.openEntry id names m).2 := ⟨rfl, rfl, start⟩
  rw [requestSections, LockScopes.registerContainerNetworks, Sectioned.every_bind]
  simp only [Sectioned.every_report, Sectioned.every_modifyGet, Sectioned.run_modifyGet]
  have loop := Sectioned.every_foldlM (P := TableMoment m Q)
    (fun (state : ContainerState) m' => state.names = (entryOr m id names).names ∧
      TableMoment m inv m')
    networks.entries (LockScopes.registerNetworkIps env orders.reverse id) ?_
    (fun _ m' both => implies m' both.2) (a := (LockScopes.openEntry id names m).1)
    ⟨rfl, opened⟩
  · exact ⟨⟨implies m ⟨rfl, rfl, start⟩, implies _ opened⟩, loop.1⟩
  · rintro ⟨net, network⟩ member state m' ⟨sameNames, moment⟩
    unfold LockScopes.registerNetworkIps
    cases reported : NetworkIps.fromNetwork network with
    | none => exact ⟨implies m' moment, sameNames, moment⟩
    | some networkIps =>
      have found := (FiniteMap.mem_entries_iff networks net network).mp member
      have pairs : (LockScopes.addAll env orders.reverse state.names networkIps.ips).Every Q
            m'.authorityWrapper ∧
          inv (Monitor.addAll env orders.reverse state.names networkIps.ips m'.authorityWrapper) :=
        every_addAll (fun name named ip inside => keeps.adds name ip
          ⟨sameNames ▸ named, net, networkIps, ⟨network, found, reported⟩, inside⟩)
          keeps.implies moment.table
      simp only [Sectioned.every_bind, Sectioned.run_within, run_addAll, Sectioned.every_modify,
        Sectioned.run_modify, Sectioned.run_bind, Sectioned.run_pure, Sectioned.every_pure]
      have after : TableMoment m inv (LockScopes.table.put m'
          (Monitor.addAll env orders.reverse state.names networkIps.ips m'.authorityWrapper)) :=
        ⟨moment.catalog, moment.networks, pairs.2⟩
      refine ⟨⟨every_table moment pairs.1, ⟨implies _ after, ?_⟩, ?_⟩, sameNames, ?_⟩
      · exact implies _ ⟨after.catalog, after.networks, after.table⟩
      · exact implies _ ⟨after.catalog, after.networks, after.table⟩
      · exact ⟨after.catalog, after.networks, after.table⟩

private theorem every_removals {entry : FiniteMap String ContainerState} {names : List Name}
    {ips : List IpAddr} {r : Request} (keeps : TurnsKeep env orders m r inv Q)
    (removes : ∀ name ∈ names, ∀ ip ∈ ips, RemovesPair m r name ip)
    (start : inv m.authorityWrapper) :
    ((LockScopes.removeAll env orders.reverse names ips).within LockScopes.table).Every
      (TableMoment m Q) { m with containers := entry } :=
  every_table ⟨rfl, rfl, start⟩ (every_removeAll (fun name named ip inside =>
    keeps.removes name ip (removes name named ip inside)) keeps.implies start).1

private theorem every_die {id : String} (keeps : TurnsKeep env orders m (.die id) inv Q)
    (start : inv m.authorityWrapper) :
    (requestSections env orders (.die id)).Every (TableMoment m Q) m := by
  have here : TableMoment m Q m := ⟨rfl, rfl, keeps.implies _ start⟩
  simp only [requestSections, Sectioned.every_bind, Sectioned.every_modifyGet,
    Sectioned.run_modifyGet, LockScopes.removeEntry]
  cases tracked : m.containers.lookup id with
  | none => exact ⟨⟨here, here⟩, here⟩
  | some state =>
    have opened : TableMoment m inv { m with containers := m.containers.erase id } :=
      ⟨rfl, rfl, start⟩
    refine ⟨⟨here, rfl, rfl, here.table⟩, every_table opened ?_⟩
    refine (Sectioned.every_forM _ _ (fun entry member w held => ?_) keeps.implies start).1
    have found := (FiniteMap.mem_entries_iff state.networks entry.1 entry.2).mp
      ((orders.networks_perm _).mem_iff.mp member)
    rw [run_removeAll]
    exact every_removeAll (fun name named ip inside => keeps.removes name ip
      ⟨state, tracked, named, entry.1, entry.2, found, inside⟩) keeps.implies held

private theorem every_connect {id net : String} {names : List Name} {ips : NetworkIps}
    (keeps : TurnsKeep env orders m (.connect id net names ips) inv Q)
    (start : inv m.authorityWrapper) :
    (requestSections env orders (.connect id net names ips)).Every (TableMoment m Q) m := by
  have here : TableMoment m Q m := ⟨rfl, rfl, keeps.implies _ start⟩
  have opened : TableMoment m inv (LockScopes.connectEntry id net names ips m).2 :=
    ⟨rfl, rfl, start⟩
  have afterwards : TableMoment m Q (LockScopes.connectEntry id net names ips m).2 :=
    ⟨rfl, rfl, keeps.implies _ start⟩
  have entry : (LockScopes.connectEntry id net names ips m).1 = entryOr m id names := rfl
  rw [requestSections, Sectioned.every_report]
  simp only [LockScopes.connectNetwork, Sectioned.every_bind, Sectioned.every_modifyGet,
    Sectioned.run_modifyGet, entry]
  unfold LockScopes.connectFrom
  dsimp only
  split_ifs with same
  · exact ⟨⟨here, afterwards⟩, afterwards⟩
  · have adds : ∀ w, inv w →
        (LockScopes.addAll env orders.reverse (entryOr m id names).names ips.ips).Every Q w :=
      fun w held => (every_addAll (fun name named ip inside =>
        keeps.adds name ip ⟨same, named, inside⟩) keeps.implies held).1
    have records : (LockScopes.connectRecords env orders (entryOr m id names).names
        ((entryOr m id names).networks.lookup net) ips).Every Q m.authorityWrapper := by
      cases previous : (entryOr m id names).networks.lookup net with
      | none => exact adds _ start
      | some old =>
        have different : old ≠ ips := fun equal => same (equal ▸ previous)
        have removed : (LockScopes.removeAll env orders.reverse (entryOr m id names).names
              old.ips).Every Q m.authorityWrapper ∧
            inv (Monitor.removeAll env orders.reverse (entryOr m id names).names old.ips
              m.authorityWrapper) :=
          every_removeAll (fun name named ip inside =>
            keeps.removes name ip ⟨old, previous, different, named, inside⟩) keeps.implies start
        simp only [LockScopes.connectRecords, Sectioned.every_bind, run_removeAll]
        exact ⟨removed.1, adds _ removed.2⟩
    rw [Sectioned.every_report]
    exact ⟨⟨here, afterwards⟩, every_table opened records⟩

private theorem every_disconnect {id net : String}
    (keeps : TurnsKeep env orders m (.disconnect id net) inv Q) (start : inv m.authorityWrapper) :
    (requestSections env orders (.disconnect id net)).Every (TableMoment m Q) m := by
  have here : TableMoment m Q m := ⟨rfl, rfl, keeps.implies _ start⟩
  simp only [requestSections, Sectioned.every_bind, Sectioned.every_modifyGet,
    Sectioned.run_modifyGet, LockScopes.disconnectEntry]
  cases tracked : m.containers.lookup id with
  | none => exact ⟨⟨here, here⟩, here⟩
  | some state =>
    dsimp only
    cases connected : state.networks.lookup net with
    | none => exact ⟨⟨here, here⟩, here⟩
    | some ips =>
      refine ⟨⟨here, rfl, rfl, here.table⟩, ?_⟩
      exact every_removals keeps (fun name named ip inside =>
        ⟨state, ips, tracked, connected, named, inside⟩) start

private theorem every_renameFamilies {id : String} {old new : Name} {names : List Name}
    (keeps : TurnsKeep env orders m (.rename id old new names) inv Q)
    (start : inv m.authorityWrapper) :
    (requestSections env orders (.rename id old new names)).Every (TableMoment m Q) m := by
  have first := keeps.renames old new ⟨rfl, rfl⟩ .a (.inl rfl) m.authorityWrapper start
  have second := keeps.renames old new ⟨rfl, rfl⟩ .aaaa (.inr rfl) _ first.2
  have families : (LockScopes.renameFamilies env.hickory orders.reverse old new).Every Q
      m.authorityWrapper := by
    simp only [LockScopes.renameFamilies, Sectioned.every_bind, run_renameRecords,
      Sectioned.every_pure]
    exact ⟨first.1, second.1, keeps.implies _ second.2⟩
  have unchanged : TableMoment m inv m := ⟨rfl, rfl, start⟩
  have every := every_table unchanged families
  have last := every.last
  simp only [requestSections, Sectioned.every_bind, Sectioned.every_modify]
  exact ⟨every, last, last.catalog, last.networks, last.table⟩

/-- What the operations of a request keep holds at each of its moments. -/
theorem every_request {r : Request} (about : ¬ r.AboutNetworks)
    (keeps : TurnsKeep env orders m r inv Q) (start : inv m.authorityWrapper) :
    (requestSections env orders r).Every (TableMoment m Q) m := by
  cases r with
  | nothing => exact ⟨rfl, rfl, keeps.implies _ start⟩
  | register id names networks => exact every_registerLoop keeps start
  | rename id old new names => exact every_renameFamilies keeps start
  | die id => exact every_die keeps start
  | connect id net names ips => exact every_connect keeps start
  | disconnect id net => exact every_disconnect keeps start
  | registerNetwork | deregisterNetwork => exact absurd trivial about

end Requests
end DockerDns.Guarantees
