import DockerDns.Guarantees.Directories

/-!
# The monitor keeps the directory

In every run whose registered subnets stay disjoint the tables hold what the
directory says, after whatever iteration orders. So two monitors that are told
the same serve the same, and a reverse answer is missing only where the
directory has the link late.
-/
namespace DockerDns.Guarantees
open Library Source

section Entries
variable {env : Env} {d : Directory} {m : Monitor}

theorem reports_iff_reported {networks : FiniteMap String ContainerNetwork} {net : String}
    {ips : NetworkIps} : Reports networks net ips ↔ reported networks net = some ips :=
  Option.bind_eq_some_iff.symm

theorem entryOf_overwritten {networks : FiniteMap String ContainerNetwork}
    {before after : FiniteMap String NetworkIps}
    (overwritten : Overwritten (Reports networks) before after) (names : List Name) :
    entryOf ⟨names, after⟩ =
      ⟨Named names, fun net => (reported networks net).or (before.lookup net)⟩ := by
  have lookup : after.lookup = fun net => (reported networks net).or (before.lookup net) := by
    funext net
    refine Option.ext fun ips => (overwritten net ips).trans ?_
    simp only [reports_iff_reported]
    cases reported networks net <;> simp
  rw [entryOf, lookup]

theorem entryOf_insert (state : ContainerState) (net : String) (ips : NetworkIps) :
    entryOf ⟨state.names, state.networks.insert net ips⟩ =
      ⟨Named state.names, Function.update state.networks.lookup net (some ips)⟩ := by
  have lookup : (state.networks.insert net ips).lookup =
      Function.update state.networks.lookup net (some ips) := by
    funext net'
    rw [FiniteMap.lookup_insert, Function.update_apply]
  rw [entryOf, lookup]

theorem entryOf_erase (state : ContainerState) (net : String) :
    entryOf ⟨state.names, state.networks.erase net⟩ =
      ⟨Named state.names, Function.update state.networks.lookup net none⟩ := by
  have lookup : (state.networks.erase net).lookup =
      Function.update state.networks.lookup net none := by
    funext net'
    rw [FiniteMap.lookup_erase, Function.update_apply]
  rw [entryOf, lookup]

theorem Describes.entry (described : Describes env d m) (id : String) (names : List Name) :
    d.entry id names = entryOf (entryOr m id names) := by
  rw [Directory.entry, described.containers, entryOr]
  cases m.containers.lookup id <;> rfl

theorem Describes.coverage (described : Describes env d m) (ip : IpAddr) :
    d.covered ip ↔ CoveredBy (zonesOf m) ip := by
  simp only [Directory.covered, CoveredBy, described.zones, exists_and_right]

end Entries

section Containers
variable {env : Env} {d : Directory} {m m' : Monitor} {g : Ledger}

/-- A request about a container changes its entry and its links. -/
theorem Describes.update (described : Describes env d m) {id : String}
    {entry : Option ContainerState} {facts : Fact → Prop} (effect : ContainerEffect m m' id entry facts)
    {entry' : Option Entry} {links : Links LowerName IpAddr} (entries : entry' = entry.map entryOf)
    (agrees : Agrees env.hickory (zonesOf m) d.covered links facts) :
    Describes env (d.update id entry' links) m' := by
  have zones : zonesOf m' = zonesOf m := by
    funext net authority
    simp only [zonesOf, effect.wrapper.zones.reverseZones]
  have held : Has m'.authorityWrapper = facts := funext fun f => propext (effect.wrapper.facts f)
  refine ⟨fun id' => ?_, described.networks.trans effect.networks.symm, ?_, ?_⟩
  · rw [effect.containers]
    simp only [Directory.update, Function.update_apply]
    split
    · exact entries
    · exact described.containers id'
  · rw [zones]
    exact described.zones
  · rw [zones, held]
    exact agrees

theorem describes_container (laws : EnvLaws env) (registered : Registered env m g)
    (disjoint : g.Disjoint) (described : Describes env d m) (orders : Orders) {r : Request}
    (container : ¬ r.AboutNetworks) : Describes env (d.perform r) (perform env orders m r) := by
  have covers := covers_of_registered registered disjoint orders.reverse
  have coverage := described.coverage
  have links := described.links
  cases r with
  | nothing => exact described
  | registerNetwork | deregisterNetwork => exact absurd trivial container
  | register id names networks =>
    obtain ⟨after, overwritten, effect⟩ :=
      register_effect orders laws.records registered.wellFormed id names networks
    simp only [Directory.perform, described.entry]
    refine described.update effect ?_ ?_
    · rw [Option.map_some, entryOf_overwritten overwritten]
      rfl
    · simp only [reports_iff_reported]
      exact links.added laws.names covers coverage _
  | rename id old new names =>
    have effect := renameRequest_effect orders laws.records registered.wellFormed id old new names
    refine described.update effect ?_ (links.renamed laws.names covers coverage _ _)
    rw [described.containers, Option.map_map, Option.map_map]
    rfl
  | die id =>
    simp only [Directory.perform, described.containers]
    cases tracked : m.containers.lookup id with
    | none =>
      rw [die_absent orders tracked]
      exact described
    | some state =>
      have effect : ContainerEffect m (perform env orders m (.die id)) _ _ _ :=
        die_effect orders laws.records registered.wellFormed tracked
      exact described.update effect rfl (links.removed laws.names covers _)
  | connect id net names ips =>
    have effect := connect_effect orders laws.records registered.wellFormed id net names ips
    simp only [Directory.perform, described.entry]
    refine described.update effect ?_ ?_
    · rw [Option.map_some, entryOf_insert]
      rfl
    · have same : (entryOf (entryOr m id names)).networks net = some ips ↔
          (entryOr m id names).networks.lookup net = some ips := Iff.rfl
      by_cases recorded : (entryOr m id names).networks.lookup net = some ips
      · rw [if_pos recorded, if_pos (same.mpr recorded)]
        exact links
      · rw [if_neg recorded, if_neg (mt same.mp recorded)]
        exact (links.removed laws.names covers _).added laws.names covers coverage _
  | disconnect id net =>
    simp only [Directory.perform, described.containers]
    cases tracked : m.containers.lookup id with
    | none =>
      rw [disconnect_absent orders (by simp [tracked])]
      exact described
    | some state =>
      simp only [Option.map_some]
      cases connected : (entryOf state).networks net with
      | none =>
        have absent : ∀ state', m.containers.lookup id = some state' →
            state'.networks.lookup net = none := by
          intro state' found
          cases tracked.symm.trans found
          exact connected
        rw [disconnect_absent orders absent]
        exact described
      | some ips =>
        have effect : ContainerEffect m (perform env orders m (.disconnect id net)) _ _ _ :=
          disconnect_effect orders laws.records registered.wellFormed tracked connected
        refine described.update effect ?_ (links.removed laws.names covers _)
        rw [Option.map_some, entryOf_erase]
        rfl

end Containers

section Networks
variable {env : Env} {d : Directory} {m m' : Monitor} {g : Ledger}

/-- A new registration shares no address with the zones in force. -/
theorem registration_apart {id : String} {subnets : List IpNet}
    (disjoint : Ledger.Disjoint ((id, subnets) :: g)) {net net' : IpNet} {ip : IpAddr}
    (fresh : net ∈ subnets.flatMap blocks) (zone : g.zones net') (inside : net.contains ip = true) :
    ¬ net'.contains ip = true := by
  intro inside'
  obtain ⟨subnet, listed, block⟩ := List.mem_flatMap.mp fresh
  obtain ⟨subnet', listed', block'⟩ := zone
  have apart := (List.pairwise_append.mp disjoint).2.2 subnet listed subnet' listed'
  exact apart ip ⟨contains_of_block block inside, contains_of_block block' inside'⟩

theorem describes_registerNetwork (laws : EnvLaws env) (registered : Registered env m g)
    (described : Describes env d m) (orders : Orders) (id : String) (config : List (Option IpNet))
    (disjoint : Ledger.Disjoint ((id, config.reduceOption) :: g)) :
    Describes env (d.perform (.registerNetwork id config))
      (perform env orders m (.registerNetwork id config)) := by
  have frame := registerNetwork_frame orders laws.records registered.wellFormed id config
  have after := registered_register laws orders registered id config
  have listed := registerNetwork_eq laws orders m id config
  have added := (registerZones_added laws.records (config.reduceOption.flatMap blocks) (m, [])).1
  have zones : ∀ net, d.zones net ↔ g.zones net :=
    fun net => (described.zones net).trans (registered.table.keys net)
  refine ⟨fun id' => ?_, ?_, fun net => ?_, fun n ip => ?_, fun ip n => ?_⟩
  · rw [frame.containers]
    exact described.containers id'
  · rw [listed]
    exact congrArg (FiniteMap.insert · id _) described.networks
  · refine Iff.trans ?_ (after.table.keys net).symm
    rw [Ledger.zones_cons]
    exact or_congr_right (zones net)
  · exact (described.links.addresses n ip).trans (frame.facts _).symm
  · have mirror : ((d.perform (.registerNetwork id config)).links.mirror
        (d.perform (.registerNetwork id config)).covered ip n) ↔ d.links.mirror d.covered ip n := by
      refine Links.mirror_cover ?_ ?_
      · rintro ⟨net, fresh, inside⟩ ⟨net', zone, inside'⟩
        exact registration_apart disjoint fresh ((zones net').mp zone) inside inside'
      · simp only [Directory.covered, Directory.perform, or_and_right, exists_or]
    refine mirror.trans ((described.links.pointers ip n).trans ?_)
    constructor
    · rintro ⟨net, authority, zone, inside, held⟩
      have known : net ∉ config.reduceOption.flatMap blocks := by
        intro fresh
        have zone := (registered.table.keys net).mp ⟨authority, zone⟩
        exact registration_apart disjoint fresh zone inside inside
      refine ⟨net, authority, ?_, inside, (frame.facts _).mpr held⟩
      unfold zonesOf
      rw [listed]
      exact (added.kept net known).trans zone
    · rintro ⟨net, authority, zone, inside, held⟩
      have held := (frame.facts _).mp held
      rcases zonesOf_after laws registered orders _ zone with before | ⟨_, _, _, _, beyond⟩
      · exact ⟨net, authority, before, inside, held⟩
      · exact absurd held (fresh_no_pointer beyond _ n)

theorem describes_deregisterNetwork (laws : EnvLaws env) (registered : Registered env m g)
    (disjoint : g.Disjoint) (described : Describes env d m) (orders : Orders) (id : String) :
    Describes env (d.perform (.deregisterNetwork id))
      (perform env orders m (.deregisterNetwork id)) := by
  simp only [Directory.perform, described.networks]
  cases found : m.networks.lookup id with
  | none =>
    rw [deregisterNetwork_absent orders found]
    exact described
  | some nets =>
    have frame := deregisterNetwork_frame env orders registered.wellFormed id
    have removed := deregisterZones_removed laws.names nets
      { m with networks := m.networks.erase id }
    have zones : ∀ net authority, zonesOf (perform env orders m (.deregisterNetwork id)) net authority ↔
        zonesOf m net authority ∧ net ∉ nets := by
      intro net authority
      unfold zonesOf
      rw [deregisterNetwork_eq orders found, removed.zones]
      split
      next gone => exact iff_of_false nofun fun both => both.2 gone
      next stays => exact (and_iff_left stays).symm
    refine ⟨fun id' => ?_, ?_, fun net => ?_, fun n ip => ?_, fun ip n => ?_⟩
    · rw [frame.containers]
      exact described.containers id'
    · rw [deregisterNetwork_eq orders found, removed.networks]
    · simp only [zones, exists_and_right, described.zones]
    · exact (described.links.addresses n ip).trans (frame.facts _).symm
    · have shrunk : (∃ net, (d.zones net ∧ net ∉ nets) ∧ net.contains ip = true) → d.covered ip :=
        fun ⟨net, zone, inside⟩ => ⟨net, zone.1, inside⟩
      refine (Links.mirror_restrict shrunk).trans ?_
      rw [described.links.pointers]
      constructor
      · rintro ⟨⟨net, authority, zone, inside, held⟩, net', ⟨remains, stays⟩, inside'⟩
        obtain ⟨authority', zone'⟩ := (described.zones net').mp remains
        -- no other zone contains the address
        obtain rfl := registered.unique disjoint zone zone' inside inside'
        exact ⟨net, authority, (zones net authority).mpr ⟨zone, stays⟩, inside,
          (frame.facts _).mpr held⟩
      · rintro ⟨net, authority, zone, inside, held⟩
        obtain ⟨zone, stays⟩ := (zones net authority).mp zone
        exact ⟨⟨net, authority, zone, inside, (frame.facts _).mp held⟩, net,
          ⟨(described.zones net).mpr ⟨authority, zone⟩, stays⟩, inside⟩

end Networks

section Runs
variable {env : Env} {d : Directory} {m : Monitor} {g : Ledger}

theorem describes_step (laws : EnvLaws env) (registered : Registered env m g)
    (disjoint : g.Disjoint) (described : Describes env d m) (s : Step)
    (disjoint' : (g.after m (request env m s)).Disjoint) :
    Describes env (d.step env s) (step env m s) := by
  rw [step_eq, Directory.step, described.networks, asked_eq]
  generalize request env m s = r at disjoint'
  by_cases about : r.AboutNetworks
  · cases r with
    | registerNetwork id config =>
      exact describes_registerNetwork laws registered described s.orders id config disjoint'
    | deregisterNetwork id =>
      exact describes_deregisterNetwork laws registered disjoint described s.orders id
    | _ => exact about.elim
  · exact describes_container laws registered disjoint described s.orders about

theorem describes_start (laws : EnvLaws env) {m₀ : Monitor} (started : startTasks env = some m₀) :
    Describes env .empty m₀ := by
  obtain ⟨containers, networks, zones, _, addresses⟩ := startTasks_empty laws.records started
  have none : ∀ net authority, ¬ zonesOf m₀ net authority := by
    intro net authority zone
    unfold zonesOf at zone
    rw [zones] at zone
    cases zone
  refine ⟨fun id => ?_, networks.symm, fun net => ?_, fun n ip => ?_, fun ip n => ?_⟩
  · rw [containers]
    rfl
  · exact iff_of_false id fun ⟨authority, zone⟩ => none net authority zone
  · exact iff_of_false id (addresses n ip)
  · exact iff_of_false Links.mirror_empty fun ⟨net, authority, zone, _⟩ => none net authority zone

/-- The directory is kept from any state that holds one. -/
theorem describes_run (laws : EnvLaws env) (steps : List Step) (registered : Registered env m g)
    (described : Describes env d m)
    (disjoint : Throughout (ledgerStep env) (fun p => p.2.Disjoint) (m, g) steps) :
    Describes env (steps.foldl (Directory.step env) d) (steps.foldl (step env) m) := by
  induction steps generalizing d m g with
  | nil => exact described
  | cons s rest ih =>
    have next := disjoint.2.first
    exact ih (registered_step laws registered disjoint.1 s)
      (describes_step laws registered disjoint.1 described s next) disjoint.2

/-- After every run whose registered subnets stay disjoint the tables hold what
the directory says: the same containers, networks and zones, the links as address
records, and as pointers the covered links that are not late. -/
theorem monitor_keeps_directory (laws : EnvLaws env) {m₀ : Monitor}
    (started : startTasks env = some m₀) (boot : Bootstrap) (inputs : List Input)
    (disjoint : Throughout (ledgerStep env) (fun p => p.2.Disjoint) (m₀, [])
      (runSteps boot inputs)) :
    Describes env ((runSteps boot inputs).foldl (Directory.step env) .empty)
      (m₀.dockerEventMonitor env boot inputs) := by
  rw [dockerEventMonitor_eq]
  exact describes_run laws _ (registered_start laws started) (describes_start laws started) disjoint

end Runs

section Reordered
variable {env : Env} {d : Directory} {m m' : Monitor} {g : Ledger} {s s' : Step}
  {steps steps' : List Step}

/-- The same step, where the hash maps iterate otherwise. -/
inductive SameButOrders : Step → Step → Prop
  | listedNetwork (network : String × Option NetworkInspect) :
    SameButOrders (.listedNetwork network) (.listedNetwork network)
  | listedContainer (orders orders' : Orders) (container : ContainerSummary) :
    SameButOrders (.listedContainer orders container) (.listedContainer orders' container)
  | event (input : Input) (orders' : Orders) :
    SameButOrders (.event input) (.event { input with orders := orders' })

theorem SameButOrders.asked (same : SameButOrders s s')
    (networks : FiniteMap String (List IpNet)) :
    Guarantees.asked env networks s' = Guarantees.asked env networks s := by
  cases same <;> rfl

end Reordered

section Examples
open Reference

private theorem bridge_disjoint :
    Throughout (ledgerStep env) (fun p => p.2.Disjoint) (monitor, [])
      (runSteps ⟨some [], some [], .listed⟩
        [startEvent "c" webOnBridge, createEvent "bridge" [bridge], destroyEvent "bridge"]) :=
  ⟨List.Pairwise.nil, List.Pairwise.nil, List.pairwise_singleton _ _, List.Pairwise.nil⟩

/-- A container starts before its network is registered, so its link is late. -/
theorem monitor_keeps_directory_bridge :
    Describes env
      ((runSteps ⟨some [], some [], .listed⟩ [startEvent "c" webOnBridge,
        createEvent "bridge" [bridge], destroyEvent "bridge"]).foldl (Directory.step env) .empty)
      (monitor.dockerEventMonitor env ⟨some [], some [], .listed⟩ [startEvent "c" webOnBridge,
        createEvent "bridge" [bridge], destroyEvent "bridge"]) :=
  monitor_keeps_directory reference_laws env_started _ _ bridge_disjoint

end Examples
end DockerDns.Guarantees
