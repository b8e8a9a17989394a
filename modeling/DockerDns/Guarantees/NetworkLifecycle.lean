import DockerDns.Guarantees.Registrations

/-!
# The three network tables never drift apart

When no network is registered twice, the zone table holds exactly the zones that
`Monitor.networks` remembers, and the end of a network removes exactly its own.
-/
namespace DockerDns.Guarantees
open Library Source

/-- The zone table, the catalog and the network table describe the same zones. -/
structure TablesAgree (env : Env) (m : Monitor) : Prop where
  zones : ∀ net, (∃ authority, m.authorityWrapper.reverseZones.lookup net = some authority) ↔
    ∃ id nets, m.networks.lookup id = some nets ∧ net ∈ nets
  distinct : ∀ id nets, m.networks.lookup id = some nets → nets.Nodup
  apart : ∀ id id' nets nets' net, m.networks.lookup id = some nets →
    m.networks.lookup id' = some nets' → net ∈ nets → net ∈ nets' → id = id'
  catalog : ∀ n entries, m.catalog.lookup n = some entries ↔
    (n = LowerName.new env.domain ∧ entries = [.forward]) ∨
    ∃ net authority name, m.authorityWrapper.reverseZones.lookup net = some authority ∧
      zoneName env.hickory net = some name ∧ n = LowerName.new name ∧
      entries = [.reverse authority]

/-- The end of a network removes its zones from the three tables, and nothing else. -/
structure DestroyExact (env : Env) (m m' : Monitor) (id : String) (nets : List IpNet) : Prop where
  networks : ∀ id', m'.networks.lookup id' = if id' = id then none else m.networks.lookup id'
  zones : ∀ net, m'.authorityWrapper.reverseZones.lookup net =
    if net ∈ nets then none else m.authorityWrapper.reverseZones.lookup net
  catalog : ∀ n, m'.catalog.lookup n =
    if ∃ net ∈ nets, (zoneName env.hickory net).map LowerName.new = some n then none
    else m.catalog.lookup n
  handlers : m'.authorityWrapper.handlers = m.authorityWrapper.handlers
  forward : m'.authorityWrapper.forward = m.authorityWrapper.forward
  served : m'.catalog.lookup (LowerName.new env.domain) = some [.forward]

/-- A registration finds no earlier one under its id. -/
def Fresh (m : Monitor) : Request → Prop
  | .registerNetwork id _ => m.networks.lookup id = none
  | _ => True

/-- Every registration of the ledger is the one the network table remembers. -/
structure Live (m : Monitor) (g : Ledger) : Prop where
  ids : (g.map Prod.fst).Nodup
  remembered : ∀ id subnets, (id, subnets) ∈ g →
    m.networks.lookup id = some (subnets.flatMap blocks)

section Step
variable {env : Env} {m : Monitor} {g : Ledger}

theorem live_step (laws : EnvLaws env) (registered : Registered env m g) (live : Live m g)
    (s : Step) (fresh : Fresh m (request env m s)) :
    Live (step env m s) (g.after m (request env m s)) := by
  rw [step_eq]
  generalize request env m s = r at fresh
  by_cases about : r.AboutNetworks
  · cases r with
    | registerNetwork id config =>
      have unknown : ∀ subnets, (id, subnets) ∉ g := by
        intro subnets member
        have known := live.remembered id subnets member
        rw [show m.networks.lookup id = none from fresh] at known
        cases known
      rw [registerNetwork_eq laws]
      constructor
      · show (id :: g.map Prod.fst).Nodup
        rw [List.nodup_cons]
        refine ⟨fun member => ?_, live.ids⟩
        obtain ⟨⟨_, subnets⟩, inside, rfl⟩ := List.mem_map.mp member
        exact unknown subnets inside
      · intro id' subnets member
        simp only [FiniteMap.lookup_insert]
        rcases List.mem_cons.mp member with here | old
        · cases here
          exact if_pos rfl
        · rw [if_neg]
          · exact live.remembered id' subnets old
          · rintro rfl
            exact unknown subnets old
    | deregisterNetwork id =>
      cases found : m.networks.lookup id with
      | none =>
        rw [deregisterNetwork_absent _ found]
        simpa only [Ledger.after, found, Option.isSome_none, Bool.false_eq_true, if_false]
          using live
      | some nets =>
        obtain ⟨subnets, latest, rfl⟩ := registered.networks id nets found
        obtain ⟨front, back, whole, erased⟩ := Ledger.eraseP_latest latest
        have removed := deregisterZones_removed laws.names (subnets.flatMap blocks)
          { m with networks := m.networks.erase id }
        rw [deregisterNetwork_eq _ found]
        simp only [Ledger.after, found, Option.isSome_some, if_true, erased]
        have ids := live.ids
        rw [whole, List.map_append, List.map_cons, List.nodup_middle, List.nodup_cons,
          ← List.map_append] at ids
        refine ⟨ids.2, fun id' subnets' member => ?_⟩
        have different : id' ≠ id := by
          rintro rfl
          exact ids.1 (List.mem_map.mpr ⟨_, member, rfl⟩)
        rw [removed.networks]
        simp only [FiniteMap.lookup_erase, if_neg different]
        apply live.remembered id' subnets'
        rw [whole]
        exact (List.perm_middle.mem_iff).mpr (List.mem_cons_of_mem _ member)
    | _ => exact about.elim
  · have same := sameTables_of_container laws.records s.orders registered.wellFormed about
    rw [Ledger.after_container about]
    refine ⟨live.ids, fun id subnets member => ?_⟩
    rw [same.networks]
    exact live.remembered id subnets member

theorem mem_of_latest {id : String} {subnets : List IpNet} (found : g.latest id = some subnets) :
    (id, subnets) ∈ g := by
  obtain ⟨front, back, whole, _⟩ := Ledger.eraseP_latest found
  rw [whole]
  exact List.mem_append_right _ List.mem_cons_self

theorem blocks_nodup {subnets : List IpNet} (disjoint : subnets.Pairwise IpNet.Disjoint) :
    (subnets.flatMap blocks).Nodup := by
  have apart : (subnets.flatMap blocks).Pairwise IpNet.Disjoint := by
    rw [List.flatMap_def, List.pairwise_flatten, List.pairwise_map]
    refine ⟨fun nets member => ?_, disjoint.imp fun separate net block net' block' ip both => ?_⟩
    · obtain ⟨subnet, _, rfl⟩ := List.mem_map.mp member
      exact blocks_disjoint subnet
    · exact separate ip ⟨contains_of_block block both.1, contains_of_block block' both.2⟩
  refine apart.imp fun {net net'} separate same => ?_
  subst same
  exact separate (IpNet.base net) ⟨contains_base net, contains_base net⟩

theorem tablesAgree_of_live (laws : EnvLaws env) (registered : Registered env m g)
    (disjoint : g.Disjoint) (agrees : CatalogAgrees env m) (live : Live m g) :
    TablesAgree env m := by
  have zone : ∀ id subnets net, m.networks.lookup id = some (subnets.flatMap blocks) →
      g.latest id = some subnets → net ∈ subnets.flatMap blocks → g.zones net := by
    intro id subnets net _ latest member
    obtain ⟨subnet, inside, block⟩ := List.mem_flatMap.mp member
    exact ⟨subnet, List.mem_flatMap.mpr ⟨_, mem_of_latest latest, inside⟩, block⟩
  constructor
  · intro net
    rw [registered.table.keys net]
    constructor
    · intro zone
      obtain ⟨subnet, member, block⟩ := zone
      obtain ⟨⟨id, subnets⟩, entry, inside⟩ := List.mem_flatMap.mp member
      exact ⟨id, _, live.remembered id subnets entry, List.mem_flatMap.mpr ⟨subnet, inside, block⟩⟩
    · intro listed
      obtain ⟨id, nets, found, member⟩ := listed
      obtain ⟨subnets, latest, rfl⟩ := registered.networks id nets found
      exact zone id subnets net found latest member
  · intro id nets found
    obtain ⟨subnets, latest, rfl⟩ := registered.networks id nets found
    apply blocks_nodup
    obtain ⟨front, back, whole, _⟩ := Ledger.eraseP_latest latest
    apply List.Pairwise.sublist _ disjoint
    rw [whole]
    simp only [Ledger.subnets, List.flatMap_append, List.flatMap_cons]
    exact (List.sublist_append_left _ _).trans (List.sublist_append_right _ _)
  · intro id id' nets nets' net found found' member member'
    obtain ⟨subnets, latest, rfl⟩ := registered.networks id nets found
    obtain ⟨subnets', latest', rfl⟩ := registered.networks id' nets' found'
    by_contra different
    -- the deregistration of one network would keep the block of the other
    have kept : Ledger.zones (g.eraseP fun entry => decide (entry.1 = id)) net := by
      have latest'' := latest'
      rw [← Ledger.latest_eraseP (Ne.symm different)] at latest''
      obtain ⟨subnet, inside, block⟩ := List.mem_flatMap.mp member'
      exact ⟨subnet, List.mem_flatMap.mpr ⟨_, mem_of_latest latest'', inside⟩, block⟩
    exact ((Ledger.zones_eraseP disjoint latest net).mp kept).2 member
  · intro n entries
    rw [agrees n entries]
    simp only [zoneName_eq laws.names, Option.some.injEq, exists_and_left, exists_eq_left', zoneKey]

theorem destroyExact_of_registered (laws : EnvLaws env) (outside : DomainOutside env.domain)
    (registered : Registered env m g) (agrees : CatalogAgrees env m) (orders : Orders)
    {id : String} {nets : List IpNet} (found : m.networks.lookup id = some nets) :
    DestroyExact env m (perform env orders m (.deregisterNetwork id)) id nets := by
  obtain ⟨subnets, _, rfl⟩ := registered.networks id nets found
  have areZones := flatMap_blocks_isZone subnets
  have frame := deregisterNetwork_frame env orders registered.wellFormed id
  have removed := deregisterZones_removed laws.names (subnets.flatMap blocks)
    { m with networks := m.networks.erase id }
  have forward := frame.forward
  rw [deregisterNetwork_eq orders found] at forward ⊢
  have catalog : ∀ n, ((subnets.flatMap blocks).foldl (Monitor.deregisterZone env)
        { m with networks := m.networks.erase id }).catalog.lookup n =
      if ∃ net ∈ subnets.flatMap blocks,
        (zoneName env.hickory net).map LowerName.new = some n then none
      else m.catalog.lookup n := by
    intro n
    rw [removed.catalog n]
    refine if_congr (exists_congr fun net => and_congr_right fun _ => ?_) rfl rfl
    rw [zoneName_eq laws.names, Option.map_some, Option.some.injEq]
    exact eq_comm
  refine ⟨fun id' => ?_, removed.zones, catalog, removed.handlers, forward, ?_⟩
  · rw [removed.networks]
    exact FiniteMap.lookup_erase _ _ _
  · rw [catalog, if_neg]
    · exact (agrees _ _).mpr (.inl ⟨rfl, rfl⟩)
    · intro named
      obtain ⟨net, member, same⟩ := named
      rw [zoneName_eq laws.names] at same
      exact zoneKey_ne_domain outside (areZones net member) (Option.some.inj same)

end Step

section Run
variable {env : Env}

/-- A create event of a network already registered asks for nothing. -/
private theorem fresh_event (m : Monitor) (input : Input) : Fresh m (eventRequest env m input) := by
  cases asked : eventRequest env m input with
  | registerNetwork id config =>
    unfold eventRequest renameRequest connectRequest at asked
    show m.networks.lookup id = none
    grind
  | _ => trivial

/-- Distinct listed networks are registered once each. -/
private theorem fresh_listed (laws : EnvLaws env) (networks : List (String × Option NetworkInspect))
    (distinct : (networks.map Prod.fst).Nodup) (rest : List Step)
    (later : ∀ p : Monitor × Ledger, Along (ledgerStep env)
      (fun p s => Fresh p.1 (request env p.1 s)) p rest) (p : Monitor × Ledger)
    (unknown : ∀ network ∈ networks, p.1.networks.lookup network.1 = none) :
    Along (ledgerStep env) (fun p s => Fresh p.1 (request env p.1 s)) p
      (networks.map .listedNetwork ++ rest) := by
  induction networks generalizing p with
  | nil => exact later p
  | cons network others ih =>
    obtain ⟨id, inspect⟩ := network
    rw [List.map_cons, List.nodup_cons] at distinct
    refine ⟨?_, ih distinct.2 _ fun other member => ?_⟩
    · cases inspect with
      | none => trivial
      | some inspect => exact unknown _ List.mem_cons_self
    · have before := unknown other (List.mem_cons_of_mem _ member)
      have different : other.1 ≠ id := by
        intro same
        exact distinct.1 (List.mem_map.mpr ⟨other, member, same⟩)
      show (step env p.1 (.listedNetwork (id, inspect))).networks.lookup other.1 = none
      rw [step_eq]
      cases inspect with
      | none => exact before
      | some inspect =>
        show (perform env _ p.1 (.registerNetwork id inspect.config)).networks.lookup _ = none
        rw [registerNetwork_eq laws]
        simp only [FiniteMap.lookup_insert, if_neg different]
        exact before

/-- Container steps and events register no network twice. -/
private theorem fresh_later (p : Monitor × Ledger) (steps : List Step)
    (noListing : ∀ s ∈ steps, ∀ network, s ≠ .listedNetwork network) :
    Along (ledgerStep env) (fun p s => Fresh p.1 (request env p.1 s)) p steps := by
  induction steps generalizing p with
  | nil => trivial
  | cons s rest ih =>
    refine ⟨?_, ih _ fun s member => noListing s (List.mem_cons_of_mem _ member)⟩
    cases s with
    | listedNetwork network => exact absurd rfl (noListing _ List.mem_cons_self network)
    | listedContainer orders container =>
      simp only [request]
      split <;> trivial
    | event input => exact fresh_event p.1 input

theorem fresh_run (laws : EnvLaws env) {m₀ : Monitor} (started : startTasks env = some m₀)
    (boot : Bootstrap) (inputs : List Input)
    (distinct : ((boot.networks.getD []).map Prod.fst).Nodup) :
    Along (ledgerStep env) (fun p s => Fresh p.1 (request env p.1 s)) (m₀, [])
      (runSteps boot inputs) := by
  unfold runSteps
  cases listed : boot.networks with
  | none => trivial
  | some networks =>
    rw [listed] at distinct
    apply fresh_listed laws networks distinct
    · intro p
      apply fresh_later
      intro s member network same
      subst same
      cases containers : boot.containers with
      | none => rw [containers] at member; cases member
      | some containers' => rw [containers] at member; simp at member
    · intro network _
      rw [(startTasks_empty laws.records started).2.1]
      rfl

/-- In every run that lists distinct networks and whose registered subnets stay
disjoint, under a domain outside the reverse name spaces, the three tables
agree, and the destroy event of a network removes exactly its zones. -/
theorem network_tables_agree (laws : EnvLaws env) (outside : DomainOutside env.domain)
    {m₀ : Monitor} (started : startTasks env = some m₀) (boot : Bootstrap) (inputs : List Input)
    (distinct : ((boot.networks.getD []).map Prod.fst).Nodup)
    (disjoint : Throughout (ledgerStep env) (fun p => p.2.Disjoint) (m₀, [])
      (runSteps boot inputs)) :
    Throughout (ledgerStep env) (fun p => TablesAgree env p.1 ∧
      ∀ input nets, input.event.type = .network → input.event.action = "destroy" →
        p.1.networks.lookup input.event.actor.id = some nets →
        DestroyExact env p.1 (p.1.handleEvent env input).1 input.event.actor.id nets) (m₀, [])
      (runSteps boot inputs) := by
  have registered := registered_throughout laws started (runSteps boot inputs) disjoint
  have agrees := catalogAgrees_throughout laws outside started (runSteps boot inputs) disjoint
  have live : Throughout (ledgerStep env) (fun p => Live p.1 p.2) (m₀, []) (runSteps boot inputs) :=
    throughout_of_step (fun _ s live registered _ fresh => live_step laws registered live s fresh)
      ⟨List.nodup_nil, fun _ _ member => nomatch member⟩ registered
      (fresh_run laws started boot inputs distinct)
  refine (((disjoint.and registered).and agrees).and live).mono fun p all => ⟨?_, ?_⟩
  · exact tablesAgree_of_live laws all.1.1.2 all.1.1.1 all.1.2 all.2
  · intro input nets network destroy found
    have asked : eventRequest env p.1 input = .deregisterNetwork input.event.actor.id := by
      simp [eventRequest, network, destroy]
    rw [handleEvent_eq, asked]
    exact destroyExact_of_registered laws outside all.1.1.2 all.1.2 input.orders found

section Runs
open Reference

/-- Docker lists the bridge network and no container. -/
def listedBridge : Bootstrap where
  networks := some [("bridge", some ⟨[some bridge, none]⟩)]
  containers := some []

theorem network_tables_agree_bridge :
    Throughout (ledgerStep Reference.env) (fun p => TablesAgree Reference.env p.1 ∧
      ∀ input nets, input.event.type = .network → input.event.action = "destroy" →
        p.1.networks.lookup input.event.actor.id = some nets →
        DestroyExact Reference.env p.1 (p.1.handleEvent Reference.env input).1
          input.event.actor.id nets) (monitor, [])
      (runSteps listedBridge [destroyEvent "bridge"]) := by
  apply network_tables_agree reference_laws _ env_started
  · decide
  · exact ⟨List.Pairwise.nil, List.pairwise_singleton _ _, List.Pairwise.nil⟩
  · constructor <;> decide

end Runs
end Run
end DockerDns.Guarantees
