import DockerDns.Guarantees.Registrations

/-!
# The zone a pointer is written to is the zone a query reads

The writer picks a zone by containment of the address, the reader by the
longest zone name that ends the reverse name. Both pick the same handler.
-/
namespace DockerDns.Guarantees
open Library Source

/-- The search of the catalog: the whole name first, then one label less. -/
def Catalog.find (catalog : Catalog) (fqdn : Bool) : List Label → Option (List CatalogEntry)
  | [] => catalog.lookup (LowerName.new ⟨[], fqdn⟩)
  | label :: rest =>
    (catalog.lookup (LowerName.new ⟨label :: rest, fqdn⟩)).or (Catalog.find catalog fqdn rest)

/-- The entry under the longest zone name that is a suffix of the name. -/
def longestMatch (catalog : Catalog) (name : Name) : Option (List CatalogEntry) :=
  Catalog.find catalog name.fqdn name.labels

/-- The search finds the longest suffix that is listed. -/
theorem find_eq_some_iff (catalog : Catalog) (fqdn : Bool) (labels : List Label)
    (entries : List CatalogEntry) : Catalog.find catalog fqdn labels = some entries ↔
      ∃ suffix, suffix <:+ labels ∧
        catalog.lookup (LowerName.new ⟨suffix, fqdn⟩) = some entries ∧
        ∀ longer, longer <:+ labels → suffix.length < longer.length →
          catalog.lookup (LowerName.new ⟨longer, fqdn⟩) = none := by
  induction labels with
  | nil =>
    constructor
    · intro found
      refine ⟨[], List.suffix_refl _, found, fun longer suffix less => ?_⟩
      rw [List.suffix_nil.mp suffix] at less
      exact absurd less (Nat.lt_irrefl _)
    · intro listed
      obtain ⟨suffix, ends, found, _⟩ := listed
      obtain rfl := List.suffix_nil.mp ends
      exact found
  | cons label rest ih =>
    unfold Catalog.find
    cases whole : catalog.lookup (LowerName.new ⟨label :: rest, fqdn⟩) with
    | some listed =>
      rw [Option.some_or]
      constructor
      · intro same
        cases same
        refine ⟨label :: rest, List.suffix_refl _, whole, fun longer suffix less => ?_⟩
        exact absurd suffix.length_le (Nat.not_le_of_lt less)
      · intro other
        obtain ⟨suffix, ends, found, longest⟩ := other
        rcases List.suffix_cons_iff.mp ends with rfl | shorter
        · rw [← whole, found]
        · have less : suffix.length < (label :: rest).length :=
            Nat.lt_succ_of_le shorter.length_le
          have absent := longest _ (List.suffix_refl _) less
          rw [whole] at absent
          cases absent
    | none =>
      rw [Option.none_or, ih]
      constructor
      · intro listed
        obtain ⟨suffix, ends, found, longest⟩ := listed
        refine ⟨suffix, ends.trans (List.suffix_cons label rest), found, fun longer within less => ?_⟩
        rcases List.suffix_cons_iff.mp within with rfl | within
        · exact whole
        · exact longest longer within less
      · intro listed
        obtain ⟨suffix, ends, found, longest⟩ := listed
        rcases List.suffix_cons_iff.mp ends with rfl | shorter
        · rw [whole] at found
          cases found
        · exact ⟨suffix, shorter, found, fun longer within less =>
            longest longer (within.trans (List.suffix_cons label rest)) less⟩

/-- The writer and the reader agree on the zone of every address. -/
structure ReverseRouted (env : Env) (m : Monitor) : Prop where
  unique : ∀ ip net net' authority authority',
    m.authorityWrapper.reverseZones.lookup net = some authority →
    m.authorityWrapper.reverseZones.lookup net' = some authority' →
    net.contains ip = true → net'.contains ip = true → net = net'
  anyOrder : ∀ ip order order', m.authorityWrapper.findReverseAuthority order ip =
    m.authorityWrapper.findReverseAuthority order' ip
  selected : ∀ ip order authority,
    m.authorityWrapper.findReverseAuthority order ip = some authority →
    longestMatch m.catalog (env.hickory.nameOfIp ip) = some [.reverse authority]
  unselected : ∀ ip order, m.authorityWrapper.findReverseAuthority order ip = none →
    ∀ entries, longestMatch m.catalog (env.hickory.nameOfIp ip) = some entries →
      entries = [.forward]

section State
variable {env : Env} {m : Monitor} {g : Ledger}

/-- A listed name that ends the reverse name of an address is the served domain or
the zone of a block that contains the address. -/
private theorem listed_suffix (registered : Registered env m g) (agrees : CatalogAgrees env m)
    {ip : IpAddr} {suffix : List Label} (ends : suffix <:+ (standardReverseName ip).labels)
    {entries : List CatalogEntry}
    (listed : m.catalog.lookup (LowerName.new ⟨suffix, true⟩) = some entries) :
    (LowerName.new ⟨suffix, true⟩ = LowerName.new env.domain ∧ entries = [.forward]) ∨
    ∃ net authority, m.authorityWrapper.reverseZones.lookup net = some authority ∧
      net.contains ip = true ∧ suffix.length = (standardZoneName net).labels.length := by
  rcases (agrees _ _).mp listed with domain | ⟨net, authority, found, named, _⟩
  · exact .inl domain
  · have isZone := registered.table.zone_of_lookup found
    have lower : (Name.mk suffix true).toLowercase = standardZoneName net := by
      rw [← standardZoneName_lower net]
      exact (LowerName.new_eq_iff _ _).mp named
    have labels := congrArg Name.labels lower
    refine .inr ⟨net, authority, found, (zoneOf_iff_contains isZone.boundary ip).mp ?_, ?_⟩
    · unfold ZoneOf
      rw [standardZoneName_lower, ← labels]
      exact ends.map Label.toLowercase
    · rw [← labels]
      exact (List.length_map _).symm

theorem reverseRouted_of_registered (laws : EnvLaws env) (outside : DomainOutside env.domain)
    (registered : Registered env m g) (disjoint : g.Disjoint) (agrees : CatalogAgrees env m) :
    ReverseRouted env m := by
  have fqdn : ∀ ip, (standardReverseName ip).fqdn = true := fun ip => by cases ip <;> rfl
  constructor
  · intro ip net net' authority authority' found found' inside inside'
    exact registered.unique disjoint found found' inside inside'
  · intro ip order order'
    apply Option.ext
    intro authority
    rw [registered.cover_iff disjoint, registered.cover_iff disjoint]
  · intro ip order authority search
    obtain ⟨net, found, inside⟩ := findReverseAuthority_some search
    have isZone := registered.table.zone_of_lookup found
    have ends : (standardZoneName net).labels <:+ (standardReverseName ip).labels := by
      have zone := (zoneOf_iff_contains isZone.boundary ip).mpr inside
      unfold ZoneOf at zone
      rwa [standardZoneName_lower, standardReverseName_lower] at zone
    rw [laws.names.nameOfIp, longestMatch, find_eq_some_iff, fqdn]
    have key : LowerName.new ⟨(standardZoneName net).labels, true⟩ = zoneKey net := by
      cases net <;> rfl
    refine ⟨(standardZoneName net).labels, ends, ?_, fun longer within less => ?_⟩
    · rw [key]
      exact (agrees _ _).mpr (.inr ⟨net, authority, found, rfl, rfl⟩)
    · -- a longer match would be the domain or the zone of another block
      by_contra some
      obtain ⟨entries, listed⟩ := Option.ne_none_iff_exists'.mp some
      rcases listed_suffix registered agrees within listed with
        ⟨domain, _⟩ | ⟨net', authority', found', inside', length⟩
      · apply zone_not_suffix_of_domain outside isZone
        unfold ZoneOf
        rw [← (LowerName.new_eq_iff _ _).mp domain]
        exact (List.suffix_of_suffix_length_le ends within (Nat.le_of_lt less)).map _
      · obtain rfl := registered.unique disjoint found found' inside inside'
        omega
  · intro ip order search entries selected
    rw [laws.names.nameOfIp, longestMatch, find_eq_some_iff, fqdn] at selected
    obtain ⟨suffix, ends, listed, _⟩ := selected
    rcases listed_suffix registered agrees ends listed with
      ⟨_, entry⟩ | ⟨net, authority, found, inside, _⟩
    · exact entry
    · rw [findReverseAuthority_none search found] at inside
      cases inside

end State

/-- In every run whose registered subnets stay disjoint, under a domain outside
the reverse name spaces, a query reads the zone a pointer is written to. -/
theorem reverse_zone_routed {env : Env} (laws : EnvLaws env) (outside : DomainOutside env.domain)
    {m₀ : Monitor} (started : startTasks env = some m₀) (boot : Bootstrap) (inputs : List Input)
    (disjoint : Throughout (ledgerStep env) (fun p => p.2.Disjoint) (m₀, [])
      (runSteps boot inputs)) :
    Throughout (ledgerStep env) (fun p => ReverseRouted env p.1) (m₀, [])
      (runSteps boot inputs) := by
  have registered := registered_throughout laws started (runSteps boot inputs) disjoint
  have agrees := catalogAgrees_throughout laws outside started (runSteps boot inputs) disjoint
  refine ((disjoint.and registered).and agrees).mono fun p all => ?_
  exact reverseRouted_of_registered laws outside all.1.2 all.1.1 all.2

section Runs
open Reference

/-- Two networks are registered, then the first is destroyed. -/
def twoNetworks : List Input :=
  [createEvent "bridge" [bridge], createEvent "shop" [shop], destroyEvent "bridge"]

theorem reverse_zone_routed_bridge : Throughout (ledgerStep env) (fun p => ReverseRouted env p.1)
    (monitor, []) (runSteps ⟨some [], some [], .listed⟩ twoNetworks) := by
  apply reverse_zone_routed reference_laws _ env_started
  · exact ⟨List.Pairwise.nil, List.pairwise_singleton _ _, List.pairwise_pair.mpr shop_disjoint,
      List.pairwise_singleton _ _⟩
  · constructor <;> decide

end Runs
end DockerDns.Guarantees
