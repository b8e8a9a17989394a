import DockerDns.Guarantees.ReverseLookup
import DockerDns.Guarantees.RunMoments

/-!
# Reverse queries while zones come and go

A zone joins the table before the catalog and leaves it before the catalog. In
between, the two disagree about that zone alone, and a reverse query that finds a
handler still finds one set up for a block with its address.
-/
namespace DockerDns.Guarantees
open Library Source

/-- The handler was set up for the zone of this name. -/
def SetUpFor (m : Monitor) (authority : Handle) (zone : Name) : Prop :=
  m.authorityWrapper.handlers[authority]?.map (·.origin) = some zone

/-- The catalog lists the name as the zone table has it. -/
def ListedAs (env : Env) (m : Monitor) (n : LowerName) (entries : List CatalogEntry) : Prop :=
  (n = LowerName.new env.domain ∧ entries = [.forward]) ∨
    ∃ net authority, m.authorityWrapper.reverseZones.lookup net = some authority ∧
      n = zoneKey net ∧ entries = [.reverse authority]

/-- The catalog at a moment of a run. -/
structure RoutedMeanwhile (env : Env) (m : Monitor) : Prop where
  inFlight : ∃ flight : Option IpNet, ∀ n, (∀ net ∈ flight, n ≠ zoneKey net) →
    ∀ entries, m.catalog.lookup n = some entries ↔ ListedAs env m n entries
  owned : ∀ n entries, m.catalog.lookup n = some entries →
    (n = LowerName.new env.domain ∧ entries = [.forward]) ∨
    ∃ net authority, IsZone net ∧ n = zoneKey net ∧ entries = [.reverse authority] ∧
      SetUpFor m authority (standardZoneName net)

/-- The tables between two requests. -/
structure ZonesListed (env : Env) (m : Monitor) : Prop where
  wellFormed : WrapperWellFormed m.authorityWrapper
  table : ∃ zones, ZoneTable m zones
  agrees : CatalogAgrees env m
  networks : ∀ id nets, m.networks.lookup id = some nets → ∀ net ∈ nets, IsZone net
  setUp : ∀ net authority, m.authorityWrapper.reverseZones.lookup net = some authority →
    SetUpFor m authority (standardZoneName net)

section Requests
variable {env : Env} {m m' : Monitor}

theorem ZonesListed.routed (listed : ZonesListed env m) : RoutedMeanwhile env m where
  inFlight := ⟨none, fun n _ entries => listed.agrees n entries⟩
  owned n entries found := by
    obtain ⟨zones, table⟩ := listed.table
    refine ((listed.agrees n entries).mp found).imp_right fun reverse => ?_
    obtain ⟨net, authority, registered, named, entry⟩ := reverse
    exact ⟨net, authority, table.zone_of_lookup registered, named, entry,
      listed.setUp net authority registered⟩

theorem SetUpFor.share {authority : Handle} {zone : Name} (setUp : SetUpFor m authority zone)
    (net : IpNet) : SetUpFor (sharedZone m net) authority zone := by
  obtain ⟨handler, found, origin⟩ := Option.map_eq_some_iff.mp setUp
  have known := (List.getElem?_eq_some_iff.mp found).1
  refine Option.map_eq_some_iff.mpr ⟨handler, ?_, origin⟩
  simp only [sharedZone, withFreshZone]
  rw [List.getElem?_append_left known]
  exact found

theorem setUpFor_fresh (m : Monitor) (net : IpNet) :
    SetUpFor (sharedZone m net) m.authorityWrapper.handlers.length (standardZoneName net) := by
  simp [SetUpFor, sharedZone, withFreshZone]

/-- The zone in flight is the one that was shared and is not listed yet. -/
private theorem routed_sharedZone (listed : ZonesListed env m) (net : IpNet) :
    RoutedMeanwhile env (sharedZone m net) := by
  constructor
  · refine ⟨some net, fun n other entries => ?_⟩
    have apart : n ≠ zoneKey net := other net rfl
    refine (listed.agrees n entries).trans (or_congr_right ?_)
    simp only [sharedZone, withFreshZone, FiniteMap.lookup_insert]
    refine exists_congr fun net' => exists_congr fun authority => ?_
    by_cases here : net' = net
    · subst here
      exact iff_of_false (fun both => apart both.2.1) fun both => apart both.2.1
    · rw [if_neg here]
  · intro n entries found
    refine (listed.routed.owned n entries found).imp_right fun reverse => ?_
    obtain ⟨net', authority, isZone', named, entry, setUp⟩ := reverse
    exact ⟨net', authority, isZone', named, entry, setUp.share net⟩

/-- The zone in flight is the one that was withdrawn and is still listed. -/
private theorem routed_withdrawnZone (listed : ZonesListed env m) (net : IpNet) :
    RoutedMeanwhile env (withdrawnZone m net) := by
  constructor
  · refine ⟨some net, fun n other entries => ?_⟩
    have apart : n ≠ zoneKey net := other net rfl
    refine (listed.agrees n entries).trans (or_congr_right ?_)
    simp only [withdrawnZone, AuthorityWrapper.removeReverseZone, FiniteMap.lookup_erase]
    refine exists_congr fun net' => exists_congr fun authority => ?_
    by_cases here : net' = net
    · subst here
      exact iff_of_false (fun both => apart both.2.1) fun both => apart both.2.1
    · rw [if_neg here]
  · exact listed.routed.owned

variable (laws : EnvLaws env) (outside : DomainOutside env.domain)
include laws outside

private theorem zonesListed_listedZone (listed : ZonesListed env m) {net : IpNet}
    (isZone : IsZone net) : ZonesListed env (listedZone m net) := by
  obtain ⟨zones, table⟩ := listed.table
  have after := registerZone_table laws.records (m, []) listed.wellFormed table isZone
  have agrees := registerZone_catalog laws.records outside (m, []) table listed.agrees isZone
  rw [registerZone_eq laws.records] at after agrees
  refine ⟨(freshZone_kept listed.wellFormed net _).1, ⟨_, after⟩, agrees, listed.networks, ?_⟩
  intro net' authority registered
  simp only [listedZone, sharedZone, withFreshZone, FiniteMap.lookup_insert] at registered
  split at registered
  next here =>
    cases registered
    exact here ▸ setUpFor_fresh m net
  next => exact (listed.setUp net' authority registered).share net

private theorem zonesListed_deregisterZone (listed : ZonesListed env m) {net : IpNet}
    (isZone : IsZone net) : ZonesListed env (Monitor.deregisterZone env m net) := by
  obtain ⟨zones, table⟩ := listed.table
  have after := deregisterZone_table laws.names table net
  have agrees := deregisterZone_catalog laws.names outside table listed.agrees isZone
  rw [deregisterZone_eq laws.names] at after agrees ⊢
  refine ⟨(removeReverseZone_kept listed.wellFormed net).1, ⟨_, after⟩, agrees, listed.networks, ?_⟩
  intro net' authority registered
  simp only [AuthorityWrapper.removeReverseZone, FiniteMap.lookup_erase] at registered
  split at registered
  · cases registered
  · exact listed.setUp net' authority registered

theorem turnsKeep_zonesListed (listed : ZonesListed env m) (r : Request) :
    ZoneTurnsKeep env m r (ZonesListed env) (RoutedMeanwhile env) where
  adds net added m' listed' := by
    have isZone : IsZone net := by
      cases r with
      | registerNetwork id config => exact flatMap_blocks_isZone _ net added
      | _ => exact added.elim
    exact ⟨routed_sharedZone listed' net,
      zonesListed_listedZone laws outside listed' isZone⟩
  removes net removed m' listed' := by
    have isZone : IsZone net := by
      cases r with
      | deregisterNetwork id =>
        obtain ⟨nets, registered, member⟩ := removed
        exact listed.networks id nets registered net member
      | _ => exact removed.elim
    exact ⟨routed_withdrawnZone listed' net,
      zonesListed_deregisterZone laws outside listed' isZone⟩
  entries m' networks listed' known := by
    refine ⟨listed'.wellFormed, listed'.table.imp fun _ table => table.of_same rfl, listed'.agrees, fun id nets found net member => ?_,
      listed'.setUp⟩
    rcases known id nets found with before | added
    · exact listed'.networks id nets before net member
    · cases r with
      | registerNetwork id config => exact flatMap_blocks_isZone _ net (added net member)
      | _ => exact (added net member).elim
  implies _ := ZonesListed.routed

omit laws outside in
/-- A monitor with the same catalog, networks and zones. -/
theorem ZonesListed.of_same (listed : ZonesListed env m) (catalog : m'.catalog = m.catalog)
    (networks : m'.networks = m.networks) (wf : WrapperWellFormed m'.authorityWrapper)
    (zones : SameZones m.authorityWrapper m'.authorityWrapper) : ZonesListed env m' := by
  refine ⟨wf, listed.table.imp fun _ table => table.of_same zones.reverseZones, ?_, ?_, ?_⟩
  · unfold CatalogAgrees
    rw [catalog, zones.reverseZones]
    exact listed.agrees
  · rw [networks]
    exact listed.networks
  · intro net authority registered
    rw [zones.reverseZones] at registered
    rw [SetUpFor, ← List.getElem?_map, zones.handlers, List.getElem?_map]
    exact listed.setUp net authority registered

omit outside in
/-- At the moments of a request on containers the catalog and the zones are as before. -/
theorem every_routed_container (keep : env.hickory.KeepLaws) (orders : Orders) {r : Request}
    (about : ¬ r.AboutNetworks) (sound : TableSound env.hickory m.authorityWrapper)
    (listed : ZonesListed env m) :
    (requestSections env orders r).Every (ZonesListed env) m :=
  (every_atWork laws.records keep laws.names about sound).mono fun _ moment =>
    listed.of_same moment.catalog moment.networks moment.table.sound.wellFormed moment.table.zones

end Requests

section Queries
variable {env : Env} {m : Monitor}

/-- A zone whose name ends the reverse name of an address contains the address. -/
theorem contains_of_suffix {net : IpNet} (isZone : IsZone net) {ip : IpAddr} {suffix : List Label}
    (ends : suffix <:+ (standardReverseName ip).labels)
    (named : LowerName.new ⟨suffix, true⟩ = zoneKey net) : net.contains ip = true := by
  have lower : (Name.mk suffix true).toLowercase = standardZoneName net := by
    rw [← standardZoneName_lower net]
    exact (LowerName.new_eq_iff _ _).mp named
  refine (zoneOf_iff_contains isZone.boundary ip).mp ?_
  unfold ZoneOf
  rw [standardZoneName_lower, ← congrArg Name.labels lower]
  exact ends.map Label.toLowercase

/-- A reverse query that finds a handler finds one set up for a block with the address. -/
theorem RoutedMeanwhile.query (names : env.hickory.NameLaws) (routed : RoutedMeanwhile env m)
    {ip : IpAddr} {entries : List CatalogEntry}
    (found : longestMatch m.catalog (env.hickory.nameOfIp ip) = some entries) :
    entries = [.forward] ∨ ∃ net authority, entries = [.reverse authority] ∧
      net.contains ip = true ∧ SetUpFor m authority (standardZoneName net) := by
  have fqdn : (standardReverseName ip).fqdn = true := by cases ip <;> rfl
  rw [names.nameOfIp, longestMatch, find_eq_some_iff, fqdn] at found
  obtain ⟨suffix, ends, listed, _⟩ := found
  refine (routed.owned _ entries listed).imp And.right fun reverse => ?_
  obtain ⟨net, authority, isZone, named, entry, setUp⟩ := reverse
  exact ⟨net, authority, entry, contains_of_suffix isZone ends named, setUp⟩

end Queries

section Runs
variable {env : Env} (laws : EnvLaws env) (outside : DomainOutside env.domain)
  (keep : env.hickory.KeepLaws)
include laws outside

theorem zonesListed_start {m₀ : Monitor} (started : startTasks env = some m₀) :
    ZonesListed env m₀ := by
  obtain ⟨_, networks, zones, _⟩ := startTasks_empty laws.records started
  refine ⟨startTasks_wellFormed laws.records started, ⟨_, (registered_start laws started).table⟩,
    catalogAgrees_throughout laws outside started [] List.Pairwise.nil, ?_, ?_⟩
  · intro id nets found
    rw [networks] at found
    cases found
  · intro net authority registered
    rw [zones] at registered
    cases registered

include keep

theorem zonesListed_step {m : Monitor} (s : Step) (sound : TableSound env.hickory m.authorityWrapper)
    (listed : ZonesListed env m) : ZonesListed env (step env m s) := by
  by_cases about : (request env m s).AboutNetworks
  · rw [step_eq]
    exact (every_networkRequest laws s.orders about
      (turnsKeep_zonesListed laws outside listed _) listed).2
  · have every := every_routed_container laws keep s.orders about sound listed
    rw [← every_stepSections] at every
    rw [← run_stepSections]
    exact every.last

/-- At every moment of every run the catalog and the zone table differ in one zone
at most, and a reverse query is routed to the forward zone or to a handler set up
for a block that contains the address. -/
theorem reverse_queries_routed {m₀ : Monitor} (started : startTasks env = some m₀)
    (boot : Bootstrap) (inputs : List Input) :
    (LockScopes.dockerEventMonitor env boot inputs).Every (fun m => RoutedMeanwhile env m ∧
      ∀ ip entries, longestMatch m.catalog (env.hickory.nameOfIp ip) = some entries →
        entries = [.forward] ∨ ∃ net authority, entries = [.reverse authority] ∧
          net.contains ip = true ∧ SetUpFor m authority (standardZoneName net)) m₀ := by
  refine every_run fun m orders r busy => ?_
  obtain ⟨sound, listed⟩ := busy.invariant
    (fun m => TableSound env.hickory m.authorityWrapper ∧ ZonesListed env m)
    ⟨sound_start laws.records started, zonesListed_start laws outside started⟩
    fun m s both => ⟨sound_step laws.records keep laws.names both.1 s,
      zonesListed_step laws outside keep s both.1 both.2⟩
  have routed : (requestSections env orders r).Every (RoutedMeanwhile env) m := by
    by_cases about : r.AboutNetworks
    · exact (every_networkRequest laws orders about
        (turnsKeep_zonesListed laws outside listed r) listed).1
    · exact (every_routed_container laws keep orders about sound listed).mono
        fun _ => ZonesListed.routed
  exact routed.mono fun m routed => ⟨routed, fun ip entries => routed.query laws.names⟩

open Reference in
omit laws outside keep in
/-- The bridge network comes and goes. -/
theorem reverse_queries_routed_bridge :
    (LockScopes.dockerEventMonitor Reference.env ⟨some [], some [], .listed⟩
        [createEvent "bridge" [bridge], destroyEvent "bridge"]).Every
      (fun m => RoutedMeanwhile Reference.env m ∧
        ∀ ip entries, longestMatch m.catalog (hickory.nameOfIp ip) = some entries →
          entries = [.forward] ∨ ∃ net authority, entries = [.reverse authority] ∧
            net.contains ip = true ∧ SetUpFor m authority (standardZoneName net)) monitor := by
  refine reverse_queries_routed reference_laws ?_ hickory_keepLaws env_started _ _
  constructor <;> decide

end Runs
end DockerDns.Guarantees
