import DockerDns.Guarantees.NetworkTables

/-!
# The tables follow the ledger

In every run whose registered subnets stay pairwise disjoint, the zone table
holds the zones of the registrations in force. No two zones share an address,
so the search for the zone of an address has one answer in every order.
-/
namespace DockerDns.Guarantees
open Library Source

/-- What every result about reverse zones relies on. -/
structure EnvLaws (env : Env) : Prop where
  records : env.hickory.RecordLaws
  names : env.hickory.NameLaws
  subnets : env.ipnet.Laws

/-- The zones of the subnets in force. -/
def Ledger.zones (g : Ledger) (net : IpNet) : Prop := ∃ subnet ∈ g.subnets, net ∈ blocks subnet

namespace Ledger
variable {g : Ledger} {id : String} {subnets : List IpNet}

theorem latest_cons (g : Ledger) (entry : String × List IpNet) (id : String) :
    latest (entry :: g) id = if entry.1 = id then some entry.2 else latest g id := by
  unfold latest
  rw [List.find?_cons]
  by_cases here : entry.1 = id <;> simp [here]

theorem latest_eraseP {id' : String} (other : id' ≠ id) :
    latest (g.eraseP fun entry => decide (entry.1 = id)) id' = latest g id' := by
  induction g with
  | nil => rfl
  | cons entry rest ih =>
    rw [List.eraseP_cons]
    by_cases here : entry.1 = id
    · simp [here, latest_cons, Ne.symm other]
    · simp [here, latest_cons, ih]

/-- A deregistration takes one registration out of the ledger. -/
theorem eraseP_latest (found : g.latest id = some subnets) :
    ∃ front back, g = front ++ (id, subnets) :: back ∧
      (g.eraseP fun entry => decide (entry.1 = id)) = front ++ back := by
  induction g with
  | nil => cases found
  | cons entry rest ih =>
    rw [latest_cons] at found
    by_cases here : entry.1 = id
    · rw [if_pos here] at found
      cases found
      exact ⟨[], rest, by rw [← here]; rfl, by simp [here]⟩
    · rw [if_neg here] at found
      obtain ⟨front, back, whole, erased⟩ := ih found
      exact ⟨entry :: front, back, by rw [whole]; rfl, by simp [here, erased]⟩

theorem zones_append (front back : Ledger) (net : IpNet) :
    zones (front ++ back) net ↔ zones front net ∨ zones back net := by
  simp only [zones, subnets, List.flatMap_append, List.mem_append, or_and_right, exists_or]

theorem zones_cons (entry : String × List IpNet) (g : Ledger) (net : IpNet) :
    zones (entry :: g) net ↔ net ∈ entry.2.flatMap blocks ∨ zones g net := by
  simp only [zones, subnets, List.flatMap_cons, List.mem_append, or_and_right, exists_or,
    List.mem_flatMap]

theorem isZone_of_zones {net : IpNet} (zone : g.zones net) : IsZone net := by
  obtain ⟨subnet, _, member⟩ := zone
  exact isZone_of_mem member

end Ledger

/-- An address of the block. -/
def IpNet.base : IpNet → IpAddr
  | .v4 net => .v4 net.addr
  | .v6 net => .v6 net.addr

theorem contains_base (net : IpNet) : net.contains (IpNet.base net) = true := by
  cases net with
  | v4 net => exact (Block.contains_iff net net.addr).mpr rfl
  | v6 net => exact (Block.contains_iff net net.addr).mpr rfl

theorem contains_of_block {subnet net : IpNet} {ip : IpAddr} (member : net ∈ blocks subnet)
    (inside : net.contains ip = true) : subnet.contains ip = true :=
  (contains_iff_blocks subnet ip).mpr ⟨net, member, inside⟩

/-- Two zones of disjoint subnets that share an address are one zone. -/
theorem Ledger.zone_unique {g : Ledger} (disjoint : g.Disjoint) {net net' : IpNet}
    (zone : g.zones net) (zone' : g.zones net') {ip : IpAddr} (inside : net.contains ip = true)
    (inside' : net'.contains ip = true) : net = net' := by
  obtain ⟨subnet, member, block⟩ := zone
  obtain ⟨subnet', member', block'⟩ := zone'
  have same : subnet = subnet' := by
    by_contra different
    have apart := disjoint.forall member member' different
    exact apart ip ⟨contains_of_block block inside, contains_of_block block' inside'⟩
  subst same
  by_contra different
  have apart := (blocks_disjoint subnet).forall block block' different
  exact apart ip ⟨inside, inside'⟩

/-- The tables of the monitor are those of the ledger. -/
structure Registered (env : Env) (m : Monitor) (g : Ledger) : Prop where
  wellFormed : WrapperWellFormed m.authorityWrapper
  table : ZoneTable m g.zones
  networks : ∀ id nets, m.networks.lookup id = some nets →
    ∃ subnets, g.latest id = some subnets ∧ nets = subnets.flatMap blocks

section Coverage
variable {env : Env} {m : Monitor} {g : Ledger}

/-- At most one registered zone contains an address. -/
theorem Registered.unique (registered : Registered env m g) (disjoint : g.Disjoint)
    {net net' : IpNet} {authority authority' : Handle} {ip : IpAddr}
    (found : m.authorityWrapper.reverseZones.lookup net = some authority)
    (found' : m.authorityWrapper.reverseZones.lookup net' = some authority')
    (inside : net.contains ip = true) (inside' : net'.contains ip = true) : net = net' :=
  g.zone_unique disjoint ((registered.table.keys net).mp ⟨_, found⟩)
    ((registered.table.keys net').mp ⟨_, found'⟩) inside inside'

/-- The search finds the one zone that contains the address, in whatever order. -/
theorem Registered.cover_iff (registered : Registered env m g) (disjoint : g.Disjoint)
    (order : IterationOrder) (ip : IpAddr) (authority : Handle) :
    m.authorityWrapper.findReverseAuthority order ip = some authority ↔
      ∃ net, m.authorityWrapper.reverseZones.lookup net = some authority ∧
        net.contains ip = true := by
  constructor
  · exact findReverseAuthority_some
  · intro covered
    obtain ⟨net, found, inside⟩ := covered
    cases search : m.authorityWrapper.findReverseAuthority order ip with
    | none =>
      have outside := findReverseAuthority_none search found
      rw [inside] at outside
      cases outside
    | some authority' =>
      obtain ⟨net', found', inside'⟩ := findReverseAuthority_some search
      obtain rfl := registered.unique disjoint found found' inside inside'
      exact congrArg some (Option.some.inj (found'.symm.trans found))

end Coverage

section Step
variable {env : Env} {m : Monitor} {g : Ledger}

theorem configZones_eq (laws : EnvLaws env) (config : List (Option IpNet)) :
    configZones env config = namedZones (config.reduceOption.flatMap blocks) := by
  induction config with
  | nil => rfl
  | cons subnet rest ih =>
    cases subnet with
    | none => exact ih
    | some subnet =>
      have tail : configZones env (some subnet :: rest) =
          parseSubnet env.hickory env.ipnet subnet ++ configZones env rest := rfl
      rw [tail, ih, parseSubnet_eq laws.names laws.subnets, List.reduceOption_cons_of_some,
        List.flatMap_cons, namedZones, namedZones, List.map_append]

theorem flatMap_blocks_isZone (subnets : List IpNet) :
    ∀ net ∈ subnets.flatMap blocks, IsZone net := by
  intro net member
  obtain ⟨subnet, _, block⟩ := List.mem_flatMap.mp member
  exact isZone_of_mem block

/-- A registration adds the zones of its subnets, and then its network entry. -/
theorem registerNetwork_eq (laws : EnvLaws env) (orders : Orders) (m : Monitor) (id : String)
    (config : List (Option IpNet)) :
    perform env orders m (.registerNetwork id config) =
      { ((namedZones (config.reduceOption.flatMap blocks)).foldl
          (Monitor.registerZone env) (m, [])).1 with
        networks := m.networks.insert id (config.reduceOption.flatMap blocks) } := by
  obtain ⟨added, listed⟩ :=
    registerZones_added laws.records (config.reduceOption.flatMap blocks) (m, [])
  simp only [perform, Monitor.registerNetwork, registerConfig_eq, configZones_eq laws, listed,
    added.networks, List.nil_append]

/-- A deregistration takes the network entry, and then its zones. -/
theorem deregisterNetwork_eq (orders : Orders) {id : String} {nets : List IpNet}
    (found : m.networks.lookup id = some nets) :
    perform env orders m (.deregisterNetwork id) =
      nets.foldl (Monitor.deregisterZone env) { m with networks := m.networks.erase id } := by
  simp only [perform, Monitor.deregisterNetwork, found]

theorem deregisterNetwork_absent (orders : Orders) {id : String}
    (absent : m.networks.lookup id = none) :
    perform env orders m (.deregisterNetwork id) = m := by
  simp only [perform, Monitor.deregisterNetwork, absent]

/-- A request about containers leaves the zone table, the catalog and the
network table alone. -/
structure SameTables (m m' : Monitor) : Prop where
  reverseZones : m'.authorityWrapper.reverseZones = m.authorityWrapper.reverseZones
  catalog : m'.catalog = m.catalog
  networks : m'.networks = m.networks

def Request.AboutNetworks : Request → Prop
  | .registerNetwork _ _ | .deregisterNetwork _ => True
  | _ => False

theorem sameTables_of_container (laws : env.hickory.RecordLaws) (orders : Orders)
    (wf : WrapperWellFormed m.authorityWrapper) {r : Request} (container : ¬ r.AboutNetworks) :
    SameTables m (perform env orders m r) := by
  cases perform_outcome orders laws wf r with
  | unchanged same => rw [same]; exact ⟨rfl, rfl, rfl⟩
  | networkRegistered _ _ _ | networkDeregistered _ _ => exact absurd trivial container
  | registered _ _ _ _ _ effect | renamed _ _ _ _ effect | died _ _ _ effect
  | connected _ _ _ _ effect | disconnected _ _ _ _ _ _ effect =>
    exact ⟨effect.wrapper.zones.reverseZones, effect.catalog, effect.networks⟩

theorem Ledger.after_container {r : Request} (container : ¬ r.AboutNetworks) :
    g.after m r = g := by
  cases r <;> first | rfl | exact absurd trivial container

theorem ZoneTable.of_same {m' : Monitor} {zones : IpNet → Prop} (table : ZoneTable m zones)
    (same : m'.authorityWrapper.reverseZones = m.authorityWrapper.reverseZones) :
    ZoneTable m' zones := by
  refine ⟨table.isZone, ?_, ?_⟩
  · rw [same]
    exact table.keys
  · rw [same]
    exact table.handlers

theorem registered_register (laws : EnvLaws env) (orders : Orders)
    (registered : Registered env m g) (id : String) (config : List (Option IpNet)) :
    Registered env (perform env orders m (.registerNetwork id config))
      ((id, config.reduceOption) :: g) := by
  have frame := registerNetwork_frame orders laws.records registered.wellFormed id config
  refine ⟨frame.wellFormed, ?_, ?_⟩
  · have table := registerZones_table laws.records (config.reduceOption.flatMap blocks)
      (flatMap_blocks_isZone _) (m, []) registered.wellFormed registered.table
    rw [registerNetwork_eq laws]
    have zones := table.congr fun net => Ledger.zones_cons (id, config.reduceOption) g net
    exact zones.of_same rfl
  · intro id' nets found
    rw [registerNetwork_eq laws] at found
    simp only [FiniteMap.lookup_insert] at found
    rw [Ledger.latest_cons]
    split at found
    next here =>
      cases found
      exact ⟨config.reduceOption, by rw [if_pos here.symm], rfl⟩
    next elsewhere =>
      obtain ⟨subnets, latest, listed⟩ := registered.networks id' nets found
      exact ⟨subnets, by rw [if_neg (Ne.symm elsewhere), latest], listed⟩

/-- The zones of a registration that ends are no longer zones of the ledger. -/
theorem Ledger.zones_eraseP (disjoint : g.Disjoint) {id : String} {subnets : List IpNet}
    (found : g.latest id = some subnets) (net : IpNet) :
    zones (g.eraseP fun entry => decide (entry.1 = id)) net ↔
      g.zones net ∧ net ∉ subnets.flatMap blocks := by
  obtain ⟨front, back, whole, erased⟩ := eraseP_latest found
  rw [erased]
  have split : ∀ z, g.zones z ↔ z ∈ subnets.flatMap blocks ∨ zones (front ++ back) z := by
    intro z
    rw [whole, zones_append, zones_append, zones_cons]
    exact or_left_comm
  constructor
  · intro zone
    refine ⟨(split net).mpr (.inr zone), fun member => ?_⟩
    -- a subnet that stays and one that goes would both contain the block
    obtain ⟨subnet, remains, block⟩ := zone
    obtain ⟨subnet', ends, block'⟩ := List.mem_flatMap.mp member
    have pairwise : (subnets ++ Ledger.subnets (front ++ back)).Pairwise IpNet.Disjoint := by
      refine (List.Perm.pairwise_iff (fun h => ?_) ?_).mp disjoint
      · exact fun ip both => h ip both.symm
      · rw [whole]
        simp only [Ledger.subnets, List.flatMap_append, List.flatMap_cons]
        exact List.perm_append_comm_assoc _ _ _
    have apart := (List.pairwise_append.mp pairwise).2.2 subnet' ends subnet remains
    exact apart (IpNet.base net) ⟨contains_of_block block' (contains_base net),
      contains_of_block block (contains_base net)⟩
  · intro both
    exact ((split net).mp both.1).resolve_left both.2

theorem registered_deregister (laws : EnvLaws env) (orders : Orders)
    (registered : Registered env m g) (disjoint : g.Disjoint) (id : String) :
    Registered env (perform env orders m (.deregisterNetwork id))
      (g.after m (.deregisterNetwork id)) := by
  cases found : m.networks.lookup id with
  | none =>
    rw [deregisterNetwork_absent orders found]
    simpa only [Ledger.after, found, Option.isSome_none, Bool.false_eq_true, if_false]
      using registered
  | some nets =>
    obtain ⟨subnets, latest, rfl⟩ := registered.networks id nets found
    have frame := deregisterNetwork_frame env orders registered.wellFormed id
    have removed := deregisterZones_removed laws.names (subnets.flatMap blocks)
      { m with networks := m.networks.erase id }
    simp only [Ledger.after, found, Option.isSome_some, if_true]
    refine ⟨frame.wellFormed, ?_, ?_⟩
    · have table := deregisterZones_table laws.names (subnets.flatMap blocks)
        { m with networks := m.networks.erase id } (registered.table.of_same rfl)
      rw [deregisterNetwork_eq orders found]
      exact table.congr (Ledger.zones_eraseP disjoint latest)
    · intro id' nets' found'
      rw [deregisterNetwork_eq orders found, removed.networks] at found'
      simp only [FiniteMap.lookup_erase] at found'
      split at found'
      · cases found'
      next elsewhere =>
        rw [Ledger.latest_eraseP elsewhere]
        exact registered.networks id' nets' found'

theorem registered_step (laws : EnvLaws env) (registered : Registered env m g)
    (disjoint : g.Disjoint) (s : Step) :
    Registered env (step env m s) (g.after m (request env m s)) := by
  rw [step_eq]
  generalize request env m s = r
  by_cases about : r.AboutNetworks
  · cases r with
    | registerNetwork id config => exact registered_register laws s.orders registered id config
    | deregisterNetwork id => exact registered_deregister laws s.orders registered disjoint id
    | _ => exact about.elim
  · have same := sameTables_of_container laws.records s.orders registered.wellFormed about
    rw [Ledger.after_container about]
    refine ⟨(perform_wellFormed laws.records s.orders registered.wellFormed r).1,
      registered.table.of_same same.reverseZones, ?_⟩
    rw [same.networks]
    exact registered.networks

theorem registered_start (laws : EnvLaws env) {m₀ : Monitor} (started : startTasks env = some m₀) :
    Registered env m₀ [] := by
  obtain ⟨_, networks, zones, _⟩ := startTasks_empty laws.records started
  refine ⟨startTasks_wellFormed laws.records started, ⟨?_, ?_, ?_⟩, ?_⟩
  · exact fun net zone => Ledger.isZone_of_zones zone
  · intro net
    rw [zones]
    constructor
    · exact fun ⟨_, found⟩ => nomatch found
    · exact fun ⟨_, member, _⟩ => nomatch member
  · intro net net' authority found
    rw [zones] at found
    cases found
  · intro id nets found
    rw [networks] at found
    cases found

/-- In every run whose registered subnets stay disjoint, the tables follow the ledger. -/
theorem registered_throughout (laws : EnvLaws env) {m₀ : Monitor}
    (started : startTasks env = some m₀) (steps : List Step)
    (disjoint : Throughout (ledgerStep env) (fun p => p.2.Disjoint) (m₀, []) steps) :
    Throughout (ledgerStep env) (fun p => Registered env p.1 p.2) (m₀, []) steps := by
  have free : Along (ledgerStep env) (fun _ _ => True) (m₀, []) steps :=
    along_of_forall fun _ _ => trivial
  exact throughout_of_step
    (fun _ s registered disjoint _ _ => registered_step laws registered disjoint s)
    (registered_start laws started) disjoint free

/-- Every step keeps the catalog in agreement with the zone table. -/
theorem catalogAgrees_step (laws : EnvLaws env) (outside : DomainOutside env.domain)
    (registered : Registered env m g) (agrees : CatalogAgrees env m) (s : Step) :
    CatalogAgrees env (step env m s) := by
  rw [step_eq]
  generalize request env m s = r
  by_cases about : r.AboutNetworks
  · cases r with
    | registerNetwork id config =>
      rw [registerNetwork_eq laws]
      exact registerZones_catalog laws.records outside _ (flatMap_blocks_isZone _) (m, [])
        registered.wellFormed registered.table agrees
    | deregisterNetwork id =>
      cases found : m.networks.lookup id with
      | none =>
        rw [deregisterNetwork_absent _ found]
        exact agrees
      | some nets =>
        obtain ⟨subnets, _, rfl⟩ := registered.networks id nets found
        rw [deregisterNetwork_eq _ found]
        exact deregisterZones_catalog laws.names outside _ (flatMap_blocks_isZone subnets) _
          (registered.table.of_same rfl) agrees
    | _ => exact about.elim
  · have same := sameTables_of_container laws.records s.orders registered.wellFormed about
    unfold CatalogAgrees
    rw [same.catalog, same.reverseZones]
    exact agrees

theorem catalogAgrees_throughout (laws : EnvLaws env) (outside : DomainOutside env.domain)
    {m₀ : Monitor} (started : startTasks env = some m₀) (steps : List Step)
    (disjoint : Throughout (ledgerStep env) (fun p => p.2.Disjoint) (m₀, []) steps) :
    Throughout (ledgerStep env) (fun p => CatalogAgrees env p.1) (m₀, []) steps := by
  have free : Along (ledgerStep env) (fun _ _ => True) (m₀, []) steps :=
    along_of_forall fun _ _ => trivial
  refine throughout_of_step (fun _ s agrees registered _ _ =>
    catalogAgrees_step laws outside registered agrees s) ?_
    (registered_throughout laws started steps disjoint) free
  rw [startTasks_eq laws.records] at started
  cases started
  intro n entries
  show (setUpCatalog env.domain).lookup n = some entries ↔ _
  unfold setUpCatalog
  rw [FiniteMap.lookup_insert]
  constructor
  · intro found
    split at found
    next here =>
      cases found
      exact .inl ⟨here, rfl⟩
    next => cases found
  · intro listed
    rcases listed with ⟨rfl, rfl⟩ | ⟨net, authority, found, _⟩
    · exact if_pos rfl
    · cases found

end Step

theorem reference_laws : EnvLaws Reference.env :=
  ⟨Reference.hickory_recordLaws, Reference.hickory_nameLaws, Reference.ipnet_laws⟩

end DockerDns.Guarantees
