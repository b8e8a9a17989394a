import DockerDns.Guarantees.LockScopeSteps
import DockerDns.Guarantees.Registrations

/-!
# The zones a request works on, turn by turn

A network request shares its zones with the table and then lists them in the
catalog, or takes them from the table and then from the catalog, one zone after
another. What every turn keeps, at its moment in between and at its end, the
whole request keeps.
-/
namespace DockerDns.Guarantees
open Library Source

/-- The zone is in the table but not yet in the catalog. -/
def sharedZone (m : Monitor) (net : IpNet) : Monitor :=
  { m with authorityWrapper := withFreshZone m.authorityWrapper net (standardZoneName net) }

def listedZone (m : Monitor) (net : IpNet) : Monitor :=
  { sharedZone m net with
    catalog := m.catalog.insert (zoneKey net) [.reverse m.authorityWrapper.handlers.length] }

/-- The zone is out of the table but still in the catalog. -/
def withdrawnZone (m : Monitor) (net : IpNet) : Monitor :=
  { m with authorityWrapper := m.authorityWrapper.removeReverseZone net }

def AddsZone : Request → IpNet → Prop
  | .registerNetwork _ config, net => net ∈ config.reduceOption.flatMap blocks
  | _, _ => False

def RemovesZone (m : Monitor) : Request → IpNet → Prop
  | .deregisterNetwork id, net => ∃ nets, m.networks.lookup id = some nets ∧ net ∈ nets
  | _, _ => False

/-- What the turns of a network request keep: `inv` between them, `Q` at every moment. -/
structure ZoneTurnsKeep (env : Env) (m : Monitor) (r : Request) (inv Q : Monitor → Prop) : Prop where
  adds : ∀ net, AddsZone r net → ∀ m', inv m' → Q (sharedZone m' net) ∧ inv (listedZone m' net)
  removes : ∀ net, RemovesZone m r net → ∀ m', inv m' →
    Q (withdrawnZone m' net) ∧ inv (Monitor.deregisterZone env m' net)
  entries : ∀ m' networks, inv m' → (∀ id nets, networks.lookup id = some nets →
    m'.networks.lookup id = some nets ∨ ∀ net ∈ nets, AddsZone r net) → inv { m' with networks }
  implies : ∀ m', inv m' → Q m'

section Turns
variable {env : Env} {m : Monitor} {r : Request} {inv Q : Monitor → Prop}

private theorem every_registerZone (laws : EnvLaws env) (keeps : ZoneTurnsKeep env m r inv Q)
    {net : IpNet} (added : AddsZone r net) {m' : Monitor} (held : inv m')
    (registered : List IpNet) :
    (LockScopes.registerZone env registered (net, standardZoneName net)).Every Q m' ∧
      (LockScopes.registerZone env registered (net, standardZoneName net)).run m' =
        (registered ++ [net], listedZone m' net) ∧ inv (listedZone m' net) := by
  obtain ⟨between, after⟩ := keeps.adds net added m' held
  have here := keeps.implies m' held
  have last := keeps.implies _ after
  simp only [LockScopes.registerZone, setUpAuthority_eq laws.records]
  exact ⟨⟨here, between, last⟩, rfl, after⟩

private theorem every_registerConfig (laws : EnvLaws env) (keeps : ZoneTurnsKeep env m r inv Q)
    {subnet : Option IpNet} (added : ∀ net ∈ subnet.toList.flatMap blocks, AddsZone r net)
    {m' : Monitor} (held : inv m') {registered : List IpNet}
    (known : ∀ net ∈ registered, AddsZone r net) :
    (LockScopes.registerConfig env registered subnet).Every Q m' ∧
      (∀ net ∈ ((LockScopes.registerConfig env registered subnet).run m').1, AddsZone r net) ∧
      inv ((LockScopes.registerConfig env registered subnet).run m').2 := by
  cases subnet with
  | none => exact ⟨keeps.implies m' held, known, held⟩
  | some subnet =>
    simp only [LockScopes.registerConfig, parseSubnet_eq laws.names laws.subnets]
    refine Sectioned.every_foldlM (fun registered m' => (∀ net ∈ registered, AddsZone r net) ∧
      inv m') _ _ ?_ (fun _ m' both => keeps.implies m' both.2) ⟨known, held⟩
    rintro zone member registered m' ⟨known, held⟩
    obtain ⟨net, block, rfl⟩ := List.mem_map.mp member
    have new : AddsZone r net := added net (by simpa using block)
    obtain ⟨every, run, after⟩ := every_registerZone laws keeps new held registered
    rw [run]
    refine ⟨every, fun z member => ?_, after⟩
    rcases List.mem_append.mp member with old | fresh
    · exact known z old
    · rwa [List.mem_singleton.mp fresh]

private theorem every_registerNetwork (laws : EnvLaws env) (orders : Orders) {id : String}
    {config : List (Option IpNet)} (keeps : ZoneTurnsKeep env m (.registerNetwork id config) inv Q)
    (held : inv m) :
    (requestSections env orders (.registerNetwork id config)).Every Q m ∧
      inv (perform env orders m (.registerNetwork id config)) := by
  have turn : ∀ subnet ∈ config, ∀ net ∈ subnet.toList.flatMap blocks,
      AddsZone (.registerNetwork id config) net := by
    intro subnet member net block
    cases subnet with
    | none => cases block
    | some subnet =>
      rw [Option.toList_some, List.flatMap_singleton] at block
      exact List.mem_flatMap.mpr ⟨subnet, List.reduceOption_mem_iff.mpr member, block⟩
  have loop := Sectioned.every_foldlM (P := Q)
    (fun registered m' => (∀ net ∈ registered, AddsZone (.registerNetwork id config) net) ∧ inv m')
    config (LockScopes.registerConfig env) (fun subnet member registered m' both =>
      every_registerConfig laws keeps (turn subnet member) both.2 both.1)
    (fun _ m' both => keeps.implies m' both.2) (a := []) ⟨fun _ member => (nomatch member), held⟩
  obtain ⟨every, known, after⟩ := loop
  generalize zones : config.foldlM (LockScopes.registerConfig env) [] = x at every known after
  have closed := keeps.entries _ ((x.run m).2.networks.insert id (x.run m).1) after (by
    intro id' nets found
    rw [FiniteMap.lookup_insert] at found
    split at found
    · cases found
      exact .inr known
    · exact .inl found)
  have run := run_registerNetwork env m id (some ⟨config⟩)
  simp only [LockScopes.registerNetwork, zones, Sectioned.run_bind, Sectioned.run_modify,
    Sectioned.run_pure, Prod.mk.injEq] at run
  rw [requestSections, Sectioned.every_report, perform, ← run.2]
  refine ⟨?_, closed⟩
  simp only [LockScopes.registerNetwork, zones, Sectioned.every_bind, Sectioned.every_modify]
  exact ⟨every, ⟨keeps.implies _ after, keeps.implies _ closed⟩, keeps.implies _ closed⟩

private theorem every_deregisterZone (laws : EnvLaws env) (keeps : ZoneTurnsKeep env m r inv Q)
    {net : IpNet} (removed : RemovesZone m r net) {m' : Monitor} (held : inv m') :
    (LockScopes.deregisterZone env net).Every Q m' ∧
      inv ((LockScopes.deregisterZone env net).run m').2 := by
  obtain ⟨between, after⟩ := keeps.removes net removed m' held
  have last := keeps.implies _ after
  rw [deregisterZone_eq laws.names] at after last
  simp only [LockScopes.deregisterZone, zoneName_eq laws.names]
  exact ⟨⟨keeps.implies m' held, between, last⟩, after⟩

private theorem every_deregisterNetwork (laws : EnvLaws env) (orders : Orders) {id : String}
    (keeps : ZoneTurnsKeep env m (.deregisterNetwork id) inv Q) (held : inv m) :
    (requestSections env orders (.deregisterNetwork id)).Every Q m ∧
      inv (perform env orders m (.deregisterNetwork id)) := by
  have here := keeps.implies m held
  have run := run_deregisterNetwork env m id
  rw [requestSections, Sectioned.every_report, perform]
  cases found : m.networks.lookup id with
  | none =>
    refine ⟨?_, ?_⟩
    · simp only [LockScopes.deregisterNetwork, Sectioned.every_bind, Sectioned.every_modifyGet,
        Sectioned.run_modifyGet, LockScopes.removeNetwork, found]
      exact ⟨⟨here, here⟩, here⟩
    · simpa only [Monitor.deregisterNetwork, found] using held
  | some nets =>
    have opened : inv { m with networks := m.networks.erase id } := by
      refine keeps.entries m _ held fun id' nets' found' => .inl ?_
      rw [FiniteMap.lookup_erase] at found'
      split at found'
      · cases found'
      · exact found'
    have loop := Sectioned.every_forM nets (LockScopes.deregisterZone env)
      (fun net member m' held => every_deregisterZone laws keeps ⟨nets, found, member⟩ held)
      keeps.implies opened
    simp only [LockScopes.deregisterNetwork, Sectioned.every_bind, Sectioned.every_modifyGet,
      Sectioned.run_modifyGet, LockScopes.removeNetwork, found, Sectioned.run_bind,
      Sectioned.run_pure, Prod.mk.injEq] at run ⊢
    rw [← run.2]
    exact ⟨⟨⟨here, keeps.implies _ opened⟩, loop.1, keeps.implies _ loop.2⟩, loop.2⟩

/-- What the turns of a network request keep holds at each of its moments, and
between requests. -/
theorem every_networkRequest (laws : EnvLaws env) (orders : Orders) (about : r.AboutNetworks)
    (keeps : ZoneTurnsKeep env m r inv Q) (held : inv m) :
    (requestSections env orders r).Every Q m ∧ inv (perform env orders m r) := by
  cases r with
  | registerNetwork id config => exact every_registerNetwork laws orders keeps held
  | deregisterNetwork id => exact every_deregisterNetwork laws orders keeps held
  | _ => exact about.elim

end Turns
end DockerDns.Guarantees
