import Mathlib.Data.List.ReduceOption
import DockerDns.Guarantees.ReachableStates
import DockerDns.Guarantees.SubnetExpansion

/-!
# The zone table and the catalog

One registration writes the zone table, the catalog and the network table; a
deregistration recomputes the zone names from the stored blocks. Beside the
monitor runs a ledger of the registrations in force. While their subnets are
pairwise disjoint, both tables hold exactly the zones of the ledger.
-/
namespace DockerDns.Guarantees
open Library Source

/-- The registrations in force, the latest first, each with its subnets. -/
abbrev Ledger := List (String × List IpNet)

namespace Ledger

def subnets (g : Ledger) : List IpNet := g.flatMap Prod.snd

/-- The subnets of simultaneously registered networks share no address. -/
def Disjoint (g : Ledger) : Prop := g.subnets.Pairwise IpNet.Disjoint

/-- A registration joins the ledger; a deregistration that finds its network
ends the latest registration under its id. -/
def after (m : Monitor) (g : Ledger) : Request → Ledger
  | .registerNetwork id config => (id, config.reduceOption) :: g
  | .deregisterNetwork id =>
    if (m.networks.lookup id).isSome then g.eraseP fun entry => decide (entry.1 = id) else g
  | _ => g

/-- The latest registration under an id. -/
def latest (g : Ledger) (id : String) : Option (List IpNet) :=
  (g.find? fun entry => decide (entry.1 = id)).map Prod.snd

end Ledger

/-- A step of the monitor, with the ledger it leaves. -/
def ledgerStep (env : Env) (p : Monitor × Ledger) (s : Step) : Monitor × Ledger :=
  (step env p.1 s, p.2.after p.1 (request env p.1 s))

/-- A strict descendant of a zone, ignoring case. -/
def StrictlyUnder (zone name : Name) : Prop :=
  ZoneOf zone name ∧ zone.labels.length < name.labels.length

instance (zone name : Name) : Decidable (StrictlyUnder zone name) :=
  inferInstanceAs (Decidable (_ ∧ _))

/-- The domain is not a strict descendant of the names the reverse zones are under. -/
def DomainOutside (domain : Name) : Prop :=
  ¬ StrictlyUnder ⟨inAddrArpa, true⟩ domain ∧ ¬ StrictlyUnder ⟨ip6Arpa, true⟩ domain

def zoneKey (net : IpNet) : LowerName := LowerName.new (standardZoneName net)

theorem strictlyUnder_of_suffix {top : List Label} {domain : Name} {labels : List Label}
    (plain : ∀ label ∈ top, label.Plain) (nonempty : labels ≠ [])
    (suffix : labels ++ top <:+ domain.toLowercase.labels) : StrictlyUnder ⟨top, true⟩ domain := by
  have lower : (Name.mk top true).toLowercase.labels = top := toLowercase_labels plain
  have within : top <:+ domain.toLowercase.labels := (List.suffix_append labels top).trans suffix
  have size := suffix.length_le
  have positive := List.length_pos_iff.mpr nonempty
  refine ⟨?_, ?_⟩
  · unfold ZoneOf
    rw [lower]
    exact within
  · simp only [List.length_append, Name.toLowercase, List.length_map] at size
    show top.length < _
    omega

/-- No zone name ends the served domain. -/
theorem zone_not_suffix_of_domain {domain : Name} (outside : DomainOutside domain) {net : IpNet}
    (isZone : IsZone net) : ¬ ZoneOf (standardZoneName net) domain := by
  intro suffix
  unfold ZoneOf at suffix
  rw [standardZoneName_lower] at suffix
  cases net with
  | v4 net =>
    apply outside.1
    apply strictlyUnder_of_suffix inAddrArpa_plain _ suffix
    have positive := isZone.positive
    have divides : 8 ∣ net.prefixLen := isZone.boundary
    apply List.ne_nil_of_length_pos
    rw [spelled_length]
    exact Nat.div_pos (Nat.le_of_dvd positive divides) (by omega)
  | v6 net =>
    apply outside.2
    apply strictlyUnder_of_suffix ip6Arpa_plain _ suffix
    have positive := isZone.positive
    have divides : 4 ∣ net.prefixLen := isZone.boundary
    apply List.ne_nil_of_length_pos
    rw [spelled_length]
    exact Nat.div_pos (Nat.le_of_dvd positive divides) (by omega)

theorem zoneKey_ne_domain {domain : Name} (outside : DomainOutside domain) {net : IpNet}
    (isZone : IsZone net) : zoneKey net ≠ LowerName.new domain := by
  intro same
  apply zone_not_suffix_of_domain outside isZone
  have equal := (LowerName.new_eq_iff _ _).mp same
  simp only [ZoneOf, equal, List.suffix_refl]

/-- The zone table holds exactly these zones, each under its own handler. -/
structure ZoneTable (m : Monitor) (zones : IpNet → Prop) : Prop where
  isZone : ∀ net, zones net → IsZone net
  keys : ∀ net, (∃ authority, m.authorityWrapper.reverseZones.lookup net = some authority) ↔
    zones net
  handlers : ∀ net net' authority,
    m.authorityWrapper.reverseZones.lookup net = some authority →
    m.authorityWrapper.reverseZones.lookup net' = some authority → net = net'

/-- The catalog lists the served domain and the name of every zone in the table,
each zone with the handler of the table. -/
def CatalogAgrees (env : Env) (m : Monitor) : Prop :=
  ∀ n entries, m.catalog.lookup n = some entries ↔
    (n = LowerName.new env.domain ∧ entries = [.forward]) ∨
    ∃ net authority, m.authorityWrapper.reverseZones.lookup net = some authority ∧
      n = zoneKey net ∧ entries = [.reverse authority]

section Zones
variable {env : Env} {m : Monitor} {zones : IpNet → Prop}

theorem ZoneTable.zone_of_lookup (table : ZoneTable m zones) {net : IpNet} {authority : Handle}
    (found : m.authorityWrapper.reverseZones.lookup net = some authority) : IsZone net :=
  table.isZone net ((table.keys net).mp ⟨authority, found⟩)

theorem ZoneTable.congr {zones' : IpNet → Prop} (table : ZoneTable m zones)
    (same : ∀ net, zones' net ↔ zones net) : ZoneTable m zones' :=
  ⟨fun net zone => table.isZone net ((same net).mp zone),
    fun net => (table.keys net).trans (same net).symm, table.handlers⟩

/-- The named zones of blocks, as `parse_subnet` lists them. -/
def namedZones (nets : List IpNet) : List (IpNet × Name) :=
  nets.map fun net => (net, standardZoneName net)

theorem registerZone_table (laws : env.hickory.RecordLaws) (acc : Monitor × List IpNet)
    (wf : WrapperWellFormed acc.1.authorityWrapper) (table : ZoneTable acc.1 zones) {net : IpNet}
    (isZone : IsZone net) :
    ZoneTable (Monitor.registerZone env acc (net, standardZoneName net)).1
      (fun z => z = net ∨ zones z) := by
  rw [registerZone_eq laws]
  constructor
  · intro z zone
    rcases zone with rfl | zone
    · exact isZone
    · exact table.isZone z zone
  · intro z
    simp only [FiniteMap.lookup_insert]
    split
    next here => simp [here]
    next elsewhere => simp [elsewhere, table.keys z]
  · intro y z authority foundY foundZ
    simp only [FiniteMap.lookup_insert] at foundY foundZ
    -- the fresh handler is beyond every registered one
    split at foundY
    next hereY =>
      split at foundZ
      next hereZ => rw [hereY, hereZ]
      next =>
        cases foundY
        exact absurd (wf.shared z _ foundZ) (Nat.lt_irrefl _)
    next =>
      split at foundZ
      next =>
        cases foundZ
        exact absurd (wf.shared y _ foundY) (Nat.lt_irrefl _)
      next => exact table.handlers y z authority foundY foundZ

theorem registerZone_catalog (laws : env.hickory.RecordLaws) (outside : DomainOutside env.domain)
    (acc : Monitor × List IpNet) (table : ZoneTable acc.1 zones)
    (agrees : CatalogAgrees env acc.1) {net : IpNet} (isZone : IsZone net) :
    CatalogAgrees env (Monitor.registerZone env acc (net, standardZoneName net)).1 := by
  rw [registerZone_eq laws]
  intro n entries
  simp only [FiniteMap.lookup_insert]
  constructor
  · intro found
    split at found
    next here =>
      cases found
      exact .inr ⟨net, _, if_pos rfl, here, rfl⟩
    next elsewhere =>
      rcases (agrees n entries).mp found with domain | ⟨z, authority, known, named, entry⟩
      · exact .inl domain
      · refine .inr ⟨z, authority, ?_, named, entry⟩
        rw [if_neg, known]
        intro same
        exact elsewhere (named.trans (congrArg zoneKey same))
  · intro listed
    rcases listed with ⟨rfl, rfl⟩ | ⟨z, authority, known, rfl, rfl⟩
    · have apart : LowerName.new env.domain ≠ LowerName.new (standardZoneName net) :=
        (zoneKey_ne_domain outside isZone).symm
      rw [if_neg apart]
      exact (agrees _ _).mpr (.inl ⟨rfl, rfl⟩)
    · split at known
      next here =>
        cases known
        rw [here]
        exact if_pos rfl
      next elsewhere =>
        rw [if_neg]
        · exact (agrees _ _).mpr (.inr ⟨z, authority, known, rfl, rfl⟩)
        · intro same
          exact elsewhere (standardZoneName_inj (table.zone_of_lookup known) isZone same)

theorem registerZones_table (laws : env.hickory.RecordLaws) (added : List IpNet)
    (areZones : ∀ net ∈ added, IsZone net) (acc : Monitor × List IpNet)
    (wf : WrapperWellFormed acc.1.authorityWrapper) (table : ZoneTable acc.1 zones) :
    ZoneTable ((namedZones added).foldl (Monitor.registerZone env) acc).1
      (fun z => z ∈ added ∨ zones z) := by
  induction added generalizing acc zones with
  | nil => exact table.congr fun z => by simp
  | cons net rest ih =>
    have first := registerZone_table laws acc wf table (areZones net List.mem_cons_self)
    have frame := registerZone_frame laws acc (net, standardZoneName net) wf
    have others := ih (fun z member => areZones z (List.mem_cons_of_mem _ member)) _
      frame.wellFormed first
    apply others.congr
    intro z
    rw [List.mem_cons, or_assoc, or_left_comm]

theorem registerZones_catalog (laws : env.hickory.RecordLaws) (outside : DomainOutside env.domain)
    (added : List IpNet) (areZones : ∀ net ∈ added, IsZone net) (acc : Monitor × List IpNet)
    (wf : WrapperWellFormed acc.1.authorityWrapper) (table : ZoneTable acc.1 zones)
    (agrees : CatalogAgrees env acc.1) :
    CatalogAgrees env ((namedZones added).foldl (Monitor.registerZone env) acc).1 := by
  induction added generalizing acc zones with
  | nil => exact agrees
  | cons net rest ih =>
    have isZone := areZones net List.mem_cons_self
    have frame := registerZone_frame laws acc (net, standardZoneName net) wf
    exact ih (fun z member => areZones z (List.mem_cons_of_mem _ member)) _ frame.wellFormed
      (registerZone_table laws acc wf table isZone)
      (registerZone_catalog laws outside acc table agrees isZone)

/-- What registering zones does to the tables: the others keep their handlers,
each new one has a handler that was not there before. -/
structure ZonesAdded (m m' : Monitor) (added : List IpNet) : Prop where
  networks : m'.networks = m.networks
  kept : ∀ net, net ∉ added → m'.authorityWrapper.reverseZones.lookup net =
    m.authorityWrapper.reverseZones.lookup net
  fresh : ∀ net ∈ added, ∀ authority, m'.authorityWrapper.reverseZones.lookup net = some authority →
    m.authorityWrapper.handlers.length ≤ authority

theorem registerZones_added (laws : env.hickory.RecordLaws) (added : List IpNet)
    (acc : Monitor × List IpNet) :
    ZonesAdded acc.1 ((namedZones added).foldl (Monitor.registerZone env) acc).1 added ∧
      ((namedZones added).foldl (Monitor.registerZone env) acc).2 = acc.2 ++ added := by
  induction added generalizing acc with
  | nil => exact ⟨⟨rfl, fun _ _ => rfl, fun net member => nomatch member⟩, by simp [namedZones]⟩
  | cons net rest ih =>
    obtain ⟨others, listed⟩ := ih (Monitor.registerZone env acc (net, standardZoneName net))
    have turn := registerZone_eq laws acc (net, standardZoneName net)
    rw [turn] at others listed
    refine ⟨⟨?_, ?_, ?_⟩, ?_⟩
    · simpa only [namedZones, List.map_cons, List.foldl_cons, turn] using others.networks
    · intro z absent
      rw [List.mem_cons, not_or] at absent
      have kept := others.kept z absent.2
      simp only [FiniteMap.lookup_insert, if_neg absent.1] at kept
      simpa only [namedZones, List.map_cons, List.foldl_cons, turn] using kept
    · intro z member authority found
      simp only [namedZones, List.map_cons, List.foldl_cons, turn] at found
      by_cases later : z ∈ rest
      · have beyond := others.fresh z later authority found
        simp only [List.length_append, List.length_singleton] at beyond
        omega
      · obtain rfl : z = net := by simpa [later] using member
        have kept := others.kept z later
        simp only [FiniteMap.lookup_insert, if_pos] at kept
        have authorityEq := kept.symm.trans found
        cases authorityEq
        exact Nat.le_refl _
    · simp only [namedZones, List.map_cons, List.foldl_cons, turn]
      exact listed.trans (List.append_assoc _ _ _)

theorem deregisterZone_eq (names : env.hickory.NameLaws) (m : Monitor) (net : IpNet) :
    Monitor.deregisterZone env m net =
      { m with
        authorityWrapper := m.authorityWrapper.removeReverseZone net
        catalog := m.catalog.erase (zoneKey net) } := by
  simp only [Monitor.deregisterZone, zoneName_eq names, zoneKey]

theorem deregisterZone_table (names : env.hickory.NameLaws) (table : ZoneTable m zones)
    (net : IpNet) : ZoneTable (Monitor.deregisterZone env m net) (fun z => zones z ∧ z ≠ net) := by
  rw [deregisterZone_eq names]
  constructor
  · intro z both
    exact table.isZone z both.1
  · intro z
    simp only [AuthorityWrapper.removeReverseZone, FiniteMap.lookup_erase]
    split
    next here => simp [here]
    next elsewhere => simp [elsewhere, table.keys z]
  · intro y z authority foundY foundZ
    simp only [AuthorityWrapper.removeReverseZone, FiniteMap.lookup_erase] at foundY foundZ
    split at foundY
    · cases foundY
    next =>
      split at foundZ
      · cases foundZ
      next => exact table.handlers y z authority foundY foundZ

theorem deregisterZone_catalog (names : env.hickory.NameLaws) (outside : DomainOutside env.domain)
    (table : ZoneTable m zones) (agrees : CatalogAgrees env m) {net : IpNet}
    (isZone : IsZone net) : CatalogAgrees env (Monitor.deregisterZone env m net) := by
  rw [deregisterZone_eq names]
  intro n entries
  simp only [AuthorityWrapper.removeReverseZone, FiniteMap.lookup_erase]
  constructor
  · intro found
    split at found
    · cases found
    next elsewhere =>
      rcases (agrees n entries).mp found with domain | ⟨z, authority, known, named, entry⟩
      · exact .inl domain
      · refine .inr ⟨z, authority, ?_, named, entry⟩
        rw [if_neg, known]
        intro same
        exact elsewhere (named.trans (congrArg zoneKey same))
  · intro listed
    rcases listed with ⟨rfl, rfl⟩ | ⟨z, authority, known, rfl, rfl⟩
    · rw [if_neg (zoneKey_ne_domain outside isZone).symm]
      exact (agrees _ _).mpr (.inl ⟨rfl, rfl⟩)
    · split at known
      · cases known
      next elsewhere =>
        rw [if_neg]
        · exact (agrees _ _).mpr (.inr ⟨z, authority, known, rfl, rfl⟩)
        · intro same
          exact elsewhere (standardZoneName_inj (table.zone_of_lookup known) isZone same)

theorem deregisterZones_table (names : env.hickory.NameLaws) (removed : List IpNet) (m : Monitor)
    (table : ZoneTable m zones) :
    ZoneTable (removed.foldl (Monitor.deregisterZone env) m) (fun z => zones z ∧ z ∉ removed) := by
  induction removed generalizing m zones with
  | nil => exact table.congr fun z => by simp
  | cons net rest ih =>
    apply (ih _ (deregisterZone_table names table net)).congr
    intro z
    rw [List.mem_cons, not_or, and_assoc]

theorem deregisterZones_catalog (names : env.hickory.NameLaws)
    (outside : DomainOutside env.domain) (removed : List IpNet)
    (areZones : ∀ net ∈ removed, IsZone net) (m : Monitor) (table : ZoneTable m zones)
    (agrees : CatalogAgrees env m) :
    CatalogAgrees env (removed.foldl (Monitor.deregisterZone env) m) := by
  induction removed generalizing m zones with
  | nil => exact agrees
  | cons net rest ih =>
    exact ih (fun z member => areZones z (List.mem_cons_of_mem _ member)) _
      (deregisterZone_table names table net)
      (deregisterZone_catalog names outside table agrees (areZones net List.mem_cons_self))

/-- What deregistering zones does to the tables, entry by entry. -/
structure ZonesRemoved (m m' : Monitor) (removed : List IpNet) : Prop where
  networks : m'.networks = m.networks
  handlers : m'.authorityWrapper.handlers = m.authorityWrapper.handlers
  zones : ∀ net, m'.authorityWrapper.reverseZones.lookup net =
    if net ∈ removed then none else m.authorityWrapper.reverseZones.lookup net
  catalog : ∀ n, m'.catalog.lookup n =
    if ∃ net ∈ removed, n = zoneKey net then none else m.catalog.lookup n

theorem deregisterZones_removed (names : env.hickory.NameLaws) (removed : List IpNet)
    (m : Monitor) : ZonesRemoved m (removed.foldl (Monitor.deregisterZone env) m) removed := by
  induction removed generalizing m with
  | nil => exact ⟨rfl, rfl, fun _ => by simp, fun _ => by simp⟩
  | cons net rest ih =>
    have others := ih (Monitor.deregisterZone env m net)
    have turn := deregisterZone_eq names m net
    refine ⟨?_, ?_, ?_, ?_⟩
    · exact others.networks.trans (by rw [turn])
    · exact others.handlers.trans (by rw [turn]; rfl)
    · intro z
      refine (others.zones z).trans ?_
      rw [turn]
      simp only [AuthorityWrapper.removeReverseZone, FiniteMap.lookup_erase, List.mem_cons]
      by_cases later : z ∈ rest <;> simp [later]
    · intro n
      refine (others.catalog n).trans ?_
      rw [turn]
      simp only [FiniteMap.lookup_erase, List.exists_mem_cons_iff]
      by_cases later : ∃ z ∈ rest, n = zoneKey z <;> simp [later]

end Zones
end DockerDns.Guarantees
