import DockerDns.Guarantees.Requests
import DockerDns.Guarantees.TableEffects

/-!
# What a request about a container does

One effect lemma for each request that concerns a container: the catalog and the
network table stay, one entry of the container table changes, and the records
gain, lose or move the pairs of the container's names and addresses.
-/
namespace DockerDns.Guarantees
open Library Source

/-- A name of the list, ignoring case. -/
def Named (names : List Name) (n : LowerName) : Prop := ∃ name ∈ names, LowerName.new name = n

/-- An address of one of the recorded networks. -/
def Recorded (networks : FiniteMap String NetworkIps) (ip : IpAddr) : Prop :=
  ∃ net ips, networks.lookup net = some ips ∧ ip ∈ ips.ips

/-- The network is reported with these addresses. -/
def Reports (networks : FiniteMap String ContainerNetwork) (net : String) (ips : NetworkIps) :
    Prop :=
  ∃ network, networks.lookup net = some network ∧ NetworkIps.fromNetwork network = some ips

theorem reports_congr {networks networks' : FiniteMap String ContainerNetwork}
    (same : ∀ net, networks.lookup net = networks'.lookup net) : Reports networks = Reports networks' := by
  funext net ips
  simp only [Reports, same]

section Facts
variable (hk : Hickory) (cover : IpAddr → Option Handle)

def Added (pairs : LowerName → IpAddr → Prop) (before : Fact → Prop) (f : Fact) : Prop :=
  before f ∨ ∃ n ip, pairs n ip ∧ PairFact hk cover n ip f

/-- A pair goes only if its address record was there. -/
def Removed (pairs : LowerName → IpAddr → Prop) (before : Fact → Prop) (f : Fact) : Prop :=
  before f ∧ ¬ ∃ n ip, pairs n ip ∧ before (.address n ip) ∧ PairFact hk cover n ip f

variable {hk : Hickory} {cover : IpAddr → Option Handle}
variable {pairs : LowerName → IpAddr → Prop} {before : Fact → Prop} {n : LowerName} {ip : IpAddr}

theorem added_nothing (f : Fact) : Added hk cover (fun _ _ => False) before f ↔ before f := by
  simp [Added]

theorem removed_nothing (f : Fact) (none : ∀ n ip, ¬ pairs n ip) :
    Removed hk cover pairs before f ↔ before f := by
  simp [Removed, none]

theorem added_address : Added hk cover pairs before (.address n ip) ↔
    before (.address n ip) ∨ pairs n ip := by
  simp [Added, PairFact]

theorem removed_address : Removed hk cover pairs before (.address n ip) ↔
    before (.address n ip) ∧ ¬ pairs n ip := by
  simp only [Removed, PairFact]
  refine and_congr_right fun held => not_congr ⟨?_, ?_⟩
  · intro found
    obtain ⟨_, _, pair, _, rfl, rfl⟩ := found
    exact pair
  · exact fun pair => ⟨n, ip, pair, held, rfl, rfl⟩

theorem renamed_address {old new : LowerName} {moved : IpAddr → Prop} :
    Renamed hk cover old new moved before (.address n ip) ↔
      (before (.address n ip) ∧ ¬ (n = old ∧ moved ip)) ∨ (n = new ∧ moved ip) := by
  simp only [Renamed, PairFact]
  have pair : ∀ name, (∃ ip', moved ip' ∧ n = name ∧ ip = ip') ↔ n = name ∧ moved ip := by
    intro name
    constructor
    · intro found
      obtain ⟨_, goes, same, rfl⟩ := found
      exact ⟨same, goes⟩
    · intro both
      exact ⟨ip, both.2, both.1, rfl⟩
  rw [pair, pair]

end Facts

section Loops
variable {env : Env} {w : AuthorityWrapper}

private theorem inner_loop (f : AuthorityWrapper → Name → IpAddr → AuthorityWrapper)
    (names : List Name) (ips : List IpAddr) (w : AuthorityWrapper) :
    ips.foldl (fun w ip => names.foldl (fun w name => f w name ip) w) w =
      (ips.flatMap fun ip => names.map fun name => (name, ip)).foldl
        (fun w pair => f w pair.1 pair.2) w := by
  rw [List.foldl_flatMap]
  simp only [List.foldl_map]

private theorem mem_product (names : List Name) (ips : List IpAddr) (Q : LowerName → IpAddr → Prop) :
    (∃ pair ∈ ips.flatMap fun ip => names.map fun name => (name, ip),
      Q (LowerName.new pair.1) pair.2) ↔ ∃ n ip, (Named names n ∧ ip ∈ ips) ∧ Q n ip := by
  simp only [List.mem_flatMap, List.mem_map, Named]
  constructor
  · intro product
    obtain ⟨_, ⟨ip, inside, name, member, rfl⟩, q⟩ := product
    exact ⟨_, ip, ⟨⟨name, member, rfl⟩, inside⟩, q⟩
  · intro product
    obtain ⟨_, ip, ⟨⟨name, member, rfl⟩, inside⟩, q⟩ := product
    exact ⟨_, ⟨ip, inside, name, member, rfl⟩, q⟩

theorem addAll_effect (order : IterationOrder) (laws : env.hickory.RecordLaws)
    (wf : WrapperWellFormed w) (names : List Name) (ips : List IpAddr) :
    Effect w (Monitor.addAll env order names ips w)
      (Added env.hickory (w.findReverseAuthority order) (fun n ip => Named names n ∧ ip ∈ ips)
        (Has w)) := by
  unfold Monitor.addAll
  rw [inner_loop fun w name ip => w.add env.hickory order name ip]
  obtain ⟨⟨zones, kept⟩, facts⟩ := foldl_adds Has (fun w' => SameZones w w' ∧ WrapperWellFormed w')
    (fun w pair => w.add env.hickory order pair.1 pair.2)
    (fun pair => PairFact env.hickory (w.findReverseAuthority order) (LowerName.new pair.1) pair.2)
    (by
      intro w' pair kept
      obtain ⟨name, ip⟩ := pair
      obtain ⟨zones, kept⟩ := kept
      have turn := upsert_effect order laws kept name ip
      rw [funext (zones.cover order)] at turn
      exact ⟨⟨zones.trans turn.zones, turn.wellFormed⟩, turn.facts⟩)
    (ips.flatMap fun ip => names.map fun name => (name, ip)) w ⟨.refl w, wf⟩
  refine ⟨kept, zones, fun f => (facts f).trans (or_congr_right ?_)⟩
  exact mem_product names ips fun n ip =>
    PairFact env.hickory (w.findReverseAuthority order) n ip f

/-- The removal of a list of pairs, whatever loop it comes from. -/
private theorem removal_loop (order : IterationOrder) (laws : env.hickory.RecordLaws)
    (wf : WrapperWellFormed w) (pairs : List (Name × IpAddr)) :
    Effect w (pairs.foldl (fun w pair => w.removeAddress env.hickory order pair.1 pair.2) w)
      fun f => Has w f ∧ ¬ ∃ pair ∈ pairs, Has w (.address (LowerName.new pair.1) pair.2) ∧
        PairFact env.hickory (w.findReverseAuthority order) (LowerName.new pair.1) pair.2 f := by
  obtain ⟨⟨zones, kept⟩, facts⟩ := foldl_removes Has
    (fun w' => SameZones w w' ∧ WrapperWellFormed w')
    (fun w pair => w.removeAddress env.hickory order pair.1 pair.2)
    (fun pair : Name × IpAddr => Fact.address (LowerName.new pair.1) pair.2)
    (fun pair => PairFact env.hickory (w.findReverseAuthority order) (LowerName.new pair.1) pair.2)
    (by
      intro w' pair kept
      obtain ⟨name, ip⟩ := pair
      obtain ⟨zones, kept⟩ := kept
      have turn := removeAddress_effect order laws kept name ip
      rw [funext (zones.cover order)] at turn
      exact ⟨⟨zones.trans turn.zones, turn.wellFormed⟩, turn.facts⟩)
    (by
      -- a pair's address record belongs to that pair alone
      intro pair pair' f same drop
      obtain ⟨name, ip⟩ := pair
      obtain ⟨name', ip'⟩ := pair'
      obtain ⟨sameName, sameIp⟩ := same
      simp only at sameName sameIp drop
      rw [sameName, sameIp] at drop
      exact drop)
    pairs w ⟨.refl w, wf⟩
  exact ⟨kept, zones, facts⟩

theorem removeAll_effect (order : IterationOrder) (laws : env.hickory.RecordLaws)
    (wf : WrapperWellFormed w) (names : List Name) (ips : List IpAddr) :
    Effect w (Monitor.removeAll env order names ips w)
      (Removed env.hickory (w.findReverseAuthority order) (fun n ip => Named names n ∧ ip ∈ ips)
        (Has w)) := by
  unfold Monitor.removeAll
  rw [inner_loop fun w name ip => w.removeAddress env.hickory order name ip]
  have loop := removal_loop order laws wf (ips.flatMap fun ip => names.map fun name => (name, ip))
  refine ⟨loop.wellFormed, loop.zones, fun f => (loop.facts f).trans ?_⟩
  refine and_congr_right fun _ => not_congr ?_
  exact mem_product names ips fun n ip => Has w (.address n ip) ∧
    PairFact env.hickory (w.findReverseAuthority order) n ip f

/-- The two removals of a container's records: over every network it died in. -/
theorem dieLoop_effect (orders : Orders) (laws : env.hickory.RecordLaws)
    (wf : WrapperWellFormed w) (names : List Name) (networks : FiniteMap String NetworkIps) :
    Effect w ((orders.networks networks.entries).foldl
        (fun w entry => Monitor.removeAll env orders.reverse names entry.2.ips w) w)
      (Removed env.hickory (w.findReverseAuthority orders.reverse)
        (fun n ip => Named names n ∧ Recorded networks ip) (Has w)) := by
  have flat : ∀ entries : List (Sigma fun _ : String => NetworkIps), entries.foldl
      (fun w entry => Monitor.removeAll env orders.reverse names entry.2.ips w) w =
      Monitor.removeAll env orders.reverse names (entries.flatMap fun entry => entry.2.ips) w := by
    intro entries
    unfold Monitor.removeAll
    rw [List.foldl_flatMap]
  have recorded : ∀ ip, ip ∈ (orders.networks networks.entries).flatMap (fun entry => entry.2.ips) ↔
      Recorded networks ip := by
    intro ip
    simp only [List.mem_flatMap, (orders.networks_perm networks.entries).mem_iff, Recorded]
    constructor
    · intro listed
      obtain ⟨⟨net, ips⟩, member, inside⟩ := listed
      exact ⟨net, ips, (FiniteMap.mem_entries_iff _ _ _).mp member, inside⟩
    · intro recorded
      obtain ⟨net, ips, found, inside⟩ := recorded
      exact ⟨⟨net, ips⟩, (FiniteMap.mem_entries_iff _ _ _).mpr found, inside⟩
  rw [flat]
  have removal := removeAll_effect orders.reverse laws wf names
    ((orders.networks networks.entries).flatMap fun entry => entry.2.ips)
  simpa only [recorded] using removal

/-- The networks an entry records after the reported ones were written over it. -/
def Overwritten (reports : String → NetworkIps → Prop) (before after : FiniteMap String NetworkIps) :
    Prop :=
  ∀ net ips, after.lookup net = some ips ↔
    reports net ips ∨ ((¬ ∃ ips', reports net ips') ∧ before.lookup net = some ips)

/-- Among these entries the network is reported with these addresses. -/
private def InReport (entries : List (Sigma fun _ : String => ContainerNetwork)) (net : String)
    (ips : NetworkIps) : Prop :=
  ∃ network, ⟨net, network⟩ ∈ entries ∧ NetworkIps.fromNetwork network = some ips

private theorem inReport_cons {entries : List (Sigma fun _ : String => ContainerNetwork)}
    {net net' : String} {network : ContainerNetwork} {ips : NetworkIps} :
    InReport (⟨net, network⟩ :: entries) net' ips ↔
      (net' = net ∧ NetworkIps.fromNetwork network = some ips) ∨ InReport entries net' ips := by
  simp only [InReport, List.mem_cons, Sigma.mk.injEq]
  constructor
  · intro listed
    rcases listed with ⟨network', ⟨rfl, same⟩ | member, reported⟩
    · cases eq_of_heq same
      exact .inl ⟨rfl, reported⟩
    · exact .inr ⟨network', member, reported⟩
  · intro listed
    rcases listed with ⟨rfl, reported⟩ | ⟨network', member, reported⟩
    · exact ⟨network, .inl ⟨rfl, .rfl⟩, reported⟩
    · exact ⟨network', .inr member, reported⟩

/-- The loop over the reported networks, whose names are distinct. -/
private theorem registerLoop_effect (order : IterationOrder) (laws : env.hickory.RecordLaws)
    (entries : List (Sigma fun _ : String => ContainerNetwork)) (distinct : entries.NodupKeys)
    (w : AuthorityWrapper) (wf : WrapperWellFormed w) (state : ContainerState) :
    ∃ w' after, entries.foldl (Monitor.registerNetworkIps env order) (w, state) =
        (w', ⟨state.names, after⟩) ∧
      Overwritten (InReport entries) state.networks after ∧
      Effect w w' (Added env.hickory (w.findReverseAuthority order)
        (fun n ip => Named state.names n ∧ ∃ net ips, InReport entries net ips ∧ ip ∈ ips.ips)
        (Has w)) := by
  induction entries generalizing w state with
  | nil =>
    exact ⟨w, state.networks, rfl, by simp [Overwritten, InReport], wf, .refl w,
      by simp [Added, InReport]⟩
  | cons entry rest ih =>
    obtain ⟨net, network⟩ := entry
    obtain ⟨fresh, distinct⟩ := List.nodupKeys_cons.mp distinct
    have absent : ∀ ips, ¬ InReport rest net ips := by
      intro ips listed
      obtain ⟨network', member, _⟩ := listed
      have key := List.mem_keys_of_mem member
      exact fresh key
    cases reported : NetworkIps.fromNetwork network with
    | none =>
      obtain ⟨w', after, out, overwritten, effect⟩ := ih distinct w wf state
      have same : InReport (⟨net, network⟩ :: rest) = InReport rest := by
        funext net' ips
        simp [inReport_cons, reported]
      refine ⟨w', after, ?_, same ▸ overwritten, same ▸ effect⟩
      simpa [List.foldl_cons, Monitor.registerNetworkIps, reported] using out
    | some networkIps =>
      have first := addAll_effect order laws wf state.names networkIps.ips
      obtain ⟨w', after, out, overwritten, effect⟩ := ih distinct
        (Monitor.addAll env order state.names networkIps.ips w) first.wellFormed
        ⟨state.names, state.networks.insert net networkIps⟩
      refine ⟨w', after, ?_, ?_, effect.wellFormed, first.zones.trans effect.zones, fun f => ?_⟩
      · simpa [List.foldl_cons, Monitor.registerNetworkIps, reported] using out
      · intro net' ips
        rw [overwritten, FiniteMap.lookup_insert]
        simp only [inReport_cons, reported, Option.some.injEq]
        by_cases here : net' = net
        · subst here
          simp [absent]
        · simp [here]
      · rw [effect.facts, Added, first.facts, Added, Added, funext (first.zones.cover order)]
        simp only [inReport_cons, reported, Option.some.injEq]
        constructor
        · intro held
          rcases held with (old | ⟨n, ip, ⟨named, inside⟩, pair⟩) | ⟨n, ip, ⟨named, net', ips, listed, inside⟩, pair⟩
          · exact .inl old
          · exact .inr ⟨n, ip, ⟨named, net, networkIps, .inl ⟨rfl, rfl⟩, inside⟩, pair⟩
          · exact .inr ⟨n, ip, ⟨named, net', ips, .inr listed, inside⟩, pair⟩
        · intro held
          rcases held with old | ⟨n, ip, ⟨named, net', ips, ⟨rfl, rfl⟩ | listed, inside⟩, pair⟩
          · exact .inl (.inl old)
          · exact .inl (.inr ⟨n, ip, ⟨named, inside⟩, pair⟩)
          · exact .inr ⟨n, ip, ⟨named, net', ips, listed, inside⟩, pair⟩

end Loops

/-- A request about container `id`: its entry is now `entry`, the records are
now `facts`, and nothing else changed. -/
structure ContainerEffect (m m' : Monitor) (id : String) (entry : Option ContainerState)
    (facts : Fact → Prop) : Prop where
  catalog : m'.catalog = m.catalog
  networks : m'.networks = m.networks
  containers : ∀ id', m'.containers.lookup id' =
    if id' = id then entry else m.containers.lookup id'
  wrapper : Effect m.authorityWrapper m'.authorityWrapper facts

theorem ContainerEffect.refl {m : Monitor} (wf : WrapperWellFormed m.authorityWrapper) (id : String) :
    ContainerEffect m m id (m.containers.lookup id) (Has m.authorityWrapper) where
  catalog := rfl
  networks := rfl
  containers id' := by
    split
    next here => rw [here]
    next => rfl
  wrapper := .nothing wf

/-- The entry a container is updated from: a new one takes the given names. -/
def entryOr (m : Monitor) (id : String) (names : List Name) : ContainerState :=
  (m.containers.lookup id).getD ⟨names, ∅⟩

section Entries
variable {m : Monitor} {id : String} {networks : FiniteMap String NetworkIps} {net : String}
  {ip : IpAddr}

theorem entryOr_tracked {state : ContainerState} (tracked : m.containers.lookup id = some state)
    (names : List Name) : entryOr m id names = state := by
  rw [entryOr, tracked, Option.getD_some]

theorem entryOr_untracked (untracked : m.containers.lookup id = none) (names : List Name) :
    entryOr m id names = ⟨names, ∅⟩ := by
  rw [entryOr, untracked, Option.getD_none]

/-- Only an entry that exists has recorded an address. -/
theorem entryOr_recorded {names : List Name} (recorded : Recorded (entryOr m id names).networks ip) :
    m.containers.lookup id = some (entryOr m id names) := by
  cases tracked : m.containers.lookup id with
  | none =>
    rw [entryOr_untracked tracked] at recorded
    obtain ⟨net, ips, found, _⟩ := recorded
    cases found
  | some state => rw [entryOr_tracked tracked]

theorem recorded_insert {ips : NetworkIps} : Recorded (networks.insert net ips) ip ↔
    ip ∈ ips.ips ∨ ∃ net' ips', net' ≠ net ∧ networks.lookup net' = some ips' ∧ ip ∈ ips'.ips := by
  simp only [Recorded, FiniteMap.lookup_insert]
  constructor
  · intro recorded
    obtain ⟨net', ips', found, inside⟩ := recorded
    split at found
    · cases found
      exact .inl inside
    next other => exact .inr ⟨net', ips', other, found, inside⟩
  · intro recorded
    rcases recorded with inside | ⟨net', ips', other, found, inside⟩
    · exact ⟨net, ips, if_pos rfl, inside⟩
    · exact ⟨net', ips', (if_neg other).trans found, inside⟩

theorem recorded_erase : Recorded (networks.erase net) ip ↔
    ∃ net' ips', net' ≠ net ∧ networks.lookup net' = some ips' ∧ ip ∈ ips'.ips := by
  simp only [Recorded, FiniteMap.lookup_erase]
  constructor
  · intro recorded
    obtain ⟨net', ips', found, inside⟩ := recorded
    split at found
    · cases found
    next other => exact ⟨net', ips', other, found, inside⟩
  · intro recorded
    obtain ⟨net', ips', other, found, inside⟩ := recorded
    exact ⟨net', ips', (if_neg other).trans found, inside⟩

end Entries

section Requests
variable {env : Env} {m : Monitor} (orders : Orders) (laws : env.hickory.RecordLaws)
  (wf : WrapperWellFormed m.authorityWrapper)

include laws wf

theorem register_effect (id : String) (names : List Name)
    (networks : FiniteMap String ContainerNetwork) :
    ∃ after, Overwritten (Reports networks) (entryOr m id names).networks after ∧
      ContainerEffect m (perform env orders m (.register id names networks)) id
        (some ⟨(entryOr m id names).names, after⟩)
        (Added env.hickory (m.authorityWrapper.findReverseAuthority orders.reverse)
          (fun n ip => Named (entryOr m id names).names n ∧
            ∃ net ips, Reports networks net ips ∧ ip ∈ ips.ips) (Has m.authorityWrapper)) := by
  obtain ⟨w', after, out, overwritten, effect⟩ := registerLoop_effect orders.reverse laws
    networks.entries networks.nodupKeys m.authorityWrapper wf (entryOr m id names)
  have listed : InReport networks.entries = Reports networks := by
    funext net ips
    simp only [InReport, Reports, FiniteMap.mem_entries_iff]
  rw [listed] at overwritten effect
  have performed : perform env orders m (.register id names networks) =
      { m with
        authorityWrapper := w'
        containers := m.containers.insert id ⟨(entryOr m id names).names, after⟩ } := by
    simp only [perform, Monitor.registerContainerNetworks]
    rw [show (m.containers.lookup id).getD ⟨names, ∅⟩ = entryOr m id names from rfl, out]
  rw [performed]
  exact ⟨after, overwritten, rfl, rfl, fun id' => FiniteMap.lookup_insert _ _ _ _, effect⟩

theorem connect_effect (id net : String) (names : List Name) (ips : NetworkIps) :
    ContainerEffect m (perform env orders m (.connect id net names ips)) id
      (some ⟨(entryOr m id names).names, (entryOr m id names).networks.insert net ips⟩)
      (if (entryOr m id names).networks.lookup net = some ips then Has m.authorityWrapper
      else Added env.hickory (m.authorityWrapper.findReverseAuthority orders.reverse)
        (fun n ip => Named (entryOr m id names).names n ∧ ip ∈ ips.ips)
        (Removed env.hickory (m.authorityWrapper.findReverseAuthority orders.reverse)
          (fun n ip => Named (entryOr m id names).names n ∧
            ∃ old, (entryOr m id names).networks.lookup net = some old ∧ ip ∈ old.ips)
          (Has m.authorityWrapper))) := by
  simp only [perform, Monitor.connectNetwork]
  rw [show (m.containers.lookup id).getD ⟨names, ∅⟩ = entryOr m id names from rfl]
  split_ifs with same
  · exact ⟨rfl, rfl, fun id' => FiniteMap.lookup_insert _ _ _ _, .nothing wf⟩
  cases previous : (entryOr m id names).networks.lookup net with
  | none =>
    have added := addAll_effect orders.reverse laws wf (entryOr m id names).names ips.ips
    refine ⟨rfl, rfl, fun id' => FiniteMap.lookup_insert _ _ _ _, added.wellFormed, added.zones,
      fun f => (added.facts f).trans ?_⟩
    simp [Added, Removed]
  | some old =>
    have removed := removeAll_effect orders.reverse laws wf (entryOr m id names).names old.ips
    have added := addAll_effect orders.reverse laws removed.wellFormed (entryOr m id names).names
      ips.ips
    refine ⟨rfl, rfl, fun id' => FiniteMap.lookup_insert _ _ _ _, added.wellFormed,
      removed.zones.trans added.zones, fun f => (added.facts f).trans ?_⟩
    rw [Added, Added, removed.facts, funext (removed.zones.cover orders.reverse)]
    simp

theorem disconnect_effect {id net : String} {state : ContainerState} {ips : NetworkIps}
    (tracked : m.containers.lookup id = some state) (connected : state.networks.lookup net = some ips) :
    ContainerEffect m (perform env orders m (.disconnect id net)) id
      (some ⟨state.names, state.networks.erase net⟩)
      (Removed env.hickory (m.authorityWrapper.findReverseAuthority orders.reverse)
        (fun n ip => Named state.names n ∧ ip ∈ ips.ips) (Has m.authorityWrapper)) := by
  simp only [perform, disconnectNetwork, tracked, connected]
  exact ⟨rfl, rfl, fun id' => FiniteMap.lookup_insert _ _ _ _,
    removeAll_effect orders.reverse laws wf state.names ips.ips⟩

theorem die_effect {id : String} {state : ContainerState}
    (tracked : m.containers.lookup id = some state) :
    ContainerEffect m (perform env orders m (.die id)) id none
      (Removed env.hickory (m.authorityWrapper.findReverseAuthority orders.reverse)
        (fun n ip => Named state.names n ∧ Recorded state.networks ip)
        (Has m.authorityWrapper)) := by
  simp only [perform, forgetContainer, tracked]
  exact ⟨rfl, rfl, fun id' => FiniteMap.lookup_erase _ _ _,
    dieLoop_effect orders laws wf state.names state.networks⟩

theorem renameRequest_effect (id : String) (old new : Name) (names : List Name) :
    ContainerEffect m (perform env orders m (.rename id old new names)) id
      ((m.containers.lookup id).map fun state => { state with names })
      (Renamed env.hickory (m.authorityWrapper.findReverseAuthority orders.reverse)
        (LowerName.new old) (LowerName.new new)
        (fun ip => Has m.authorityWrapper (.address (LowerName.new old) ip))
        (Has m.authorityWrapper)) := by
  refine ⟨rfl, rfl, fun id' => ?_, ?_⟩
  · simp only [perform, renameContainer]
    cases tracked : m.containers.lookup id with
    | none =>
      by_cases here : id' = id
      · rw [here, if_pos rfl, tracked]
        rfl
      · rw [if_neg here]
    | some state => exact FiniteMap.lookup_insert _ _ _ _
  · exact renameFamilies_effect orders.reverse laws wf old new

end Requests

/-- A container is tracked with the network, or it has recorded no such network. -/
theorem connected_or_absent (m : Monitor) (id net : String) :
    (∃ state ips, m.containers.lookup id = some state ∧ state.networks.lookup net = some ips) ∨
      ∀ state, m.containers.lookup id = some state → state.networks.lookup net = none := by
  cases tracked : m.containers.lookup id with
  | none => exact .inr fun _ found => by cases found
  | some state =>
    cases connected : state.networks.lookup net with
    | none =>
      refine .inr fun state' found => ?_
      cases found
      exact connected
    | some ips => exact .inl ⟨state, ips, rfl, connected⟩

/-- A request about a container or a network that is not there does nothing. -/
theorem disconnect_absent {env : Env} {m : Monitor} (orders : Orders) {id net : String}
    (absent : ∀ state, m.containers.lookup id = some state → state.networks.lookup net = none) :
    perform env orders m (.disconnect id net) = m := by
  simp only [perform, disconnectNetwork]
  cases tracked : m.containers.lookup id with
  | none => rfl
  | some state => simp only [absent state tracked]

theorem die_absent {env : Env} {m : Monitor} (orders : Orders) {id : String}
    (absent : m.containers.lookup id = none) : perform env orders m (.die id) = m := by
  simp only [perform, forgetContainer, absent]

/-- After its die a container is not tracked, whether or not it was before. -/
theorem die_gone {env : Env} (m : Monitor) (orders : Orders) (id : String) :
    (perform env orders m (.die id)).containers.lookup id = none := by
  simp only [perform, forgetContainer]
  cases tracked : m.containers.lookup id with
  | none => exact tracked
  | some state => exact (FiniteMap.lookup_erase _ _ _).trans (if_pos rfl)

/-- A request about a network leaves the containers and every record alone. -/
structure NetworkFrame (m m' : Monitor) : Prop where
  containers : m'.containers = m.containers
  forward : m'.authorityWrapper.forward = m.authorityWrapper.forward
  wellFormed : WrapperWellFormed m'.authorityWrapper
  facts : ∀ f, Has m'.authorityWrapper f ↔ Has m.authorityWrapper f

theorem NetworkFrame.refl {m : Monitor} (wf : WrapperWellFormed m.authorityWrapper) :
    NetworkFrame m m := ⟨rfl, rfl, wf, fun _ => Iff.rfl⟩

theorem NetworkFrame.trans {m m' m'' : Monitor} (first : NetworkFrame m m')
    (later : NetworkFrame m' m'') : NetworkFrame m m'' :=
  ⟨later.containers.trans first.containers, later.forward.trans first.forward, later.wellFormed,
    fun f => (later.facts f).trans (first.facts f)⟩

section Networks
variable {env : Env} {m : Monitor}

theorem registerZone_eq (laws : env.hickory.RecordLaws) (acc : Monitor × List IpNet)
    (zone : IpNet × Name) :
    Monitor.registerZone env acc zone =
      ({ acc.1 with
          authorityWrapper :=
            { acc.1.authorityWrapper with
              reverseZones := acc.1.authorityWrapper.reverseZones.insert zone.1
                acc.1.authorityWrapper.handlers.length
              handlers := acc.1.authorityWrapper.handlers ++
                [⟨zone.2, (∅ : Records).insert (soaKey zone.2) (soaSet zone.2)⟩] }
          catalog := acc.1.catalog.insert (LowerName.new zone.2)
            [.reverse acc.1.authorityWrapper.handlers.length] },
        acc.2 ++ [zone.1]) := by
  simp only [Monitor.registerZone, setUpAuthority_eq laws, AuthorityWrapper.share,
    AuthorityWrapper.addReverseZone]

theorem registerZone_frame (laws : env.hickory.RecordLaws) (acc : Monitor × List IpNet)
    (zone : IpNet × Name) (wf : WrapperWellFormed acc.1.authorityWrapper) :
    NetworkFrame acc.1 (Monitor.registerZone env acc zone).1 := by
  rw [registerZone_eq laws]
  have kept := freshZone_kept wf zone.1 zone.2
  exact ⟨rfl, rfl, kept.1, kept.2⟩

/-- The zones of an IPAM configuration, in the order they are registered. -/
def configZones (env : Env) (config : List (Option IpNet)) : List (IpNet × Name) :=
  config.flatMap fun subnet =>
    match subnet with
    | none => []
    | some subnet => parseSubnet env.hickory env.ipnet subnet

theorem registerConfig_eq (config : List (Option IpNet)) (acc : Monitor × List IpNet) :
    config.foldl (Monitor.registerConfig env) acc =
      (configZones env config).foldl (Monitor.registerZone env) acc := by
  rw [configZones, List.foldl_flatMap]
  congr 1
  funext acc subnet
  cases subnet <;> rfl

theorem registerZones_frame (laws : env.hickory.RecordLaws) (zones : List (IpNet × Name))
    (acc : Monitor × List IpNet) (wf : WrapperWellFormed acc.1.authorityWrapper) :
    NetworkFrame acc.1 (zones.foldl (Monitor.registerZone env) acc).1 := by
  induction zones generalizing acc with
  | nil => exact .refl wf
  | cons zone rest ih =>
    have first := registerZone_frame laws acc zone wf
    exact first.trans (ih _ first.wellFormed)

theorem registerNetwork_frame (orders : Orders) (laws : env.hickory.RecordLaws)
    (wf : WrapperWellFormed m.authorityWrapper)
    (id : String) (config : List (Option IpNet)) :
    NetworkFrame m (perform env orders m (.registerNetwork id config)) := by
  have frame := registerZones_frame laws (configZones env config) (m, []) wf
  simp only [perform, Monitor.registerNetwork, registerConfig_eq]
  exact ⟨frame.containers, frame.forward, frame.wellFormed, frame.facts⟩

theorem deregisterZone_frame (env : Env) (m : Monitor) (net : IpNet)
    (wf : WrapperWellFormed m.authorityWrapper) :
    NetworkFrame m (Monitor.deregisterZone env m net) := by
  have kept := removeReverseZone_kept wf net
  unfold Monitor.deregisterZone
  cases zoneName env.hickory net <;> exact ⟨rfl, rfl, kept.1, kept.2⟩

theorem deregisterZones_frame (env : Env) (zones : List IpNet) (m : Monitor)
    (wf : WrapperWellFormed m.authorityWrapper) :
    NetworkFrame m (zones.foldl (Monitor.deregisterZone env) m) := by
  induction zones generalizing m with
  | nil => exact .refl wf
  | cons net rest ih =>
    have first := deregisterZone_frame env m net wf
    exact first.trans (ih _ first.wellFormed)

theorem deregisterNetwork_frame (env : Env) (orders : Orders)
    (wf : WrapperWellFormed m.authorityWrapper) (id : String) : NetworkFrame m (perform env orders m (.deregisterNetwork id)) := by
  simp only [perform, Monitor.deregisterNetwork]
  cases m.networks.lookup id with
  | none => exact .refl wf
  | some zones =>
    have frame := deregisterZones_frame env zones { m with networks := m.networks.erase id } wf
    exact ⟨frame.containers, frame.forward, frame.wellFormed, frame.facts⟩

end Networks

/-- What a request can do. A request about something that is not there, and a
step that asks for nothing, leave the monitor as it was. -/
inductive Outcome (env : Env) (orders : Orders) (m m' : Monitor) : Request → Prop
  | unchanged {r : Request} (same : m' = m) : Outcome env orders m m' r
  | networkRegistered (id : String) (config : List (Option IpNet)) (frame : NetworkFrame m m') :
      Outcome env orders m m' (.registerNetwork id config)
  | networkDeregistered (id : String) (frame : NetworkFrame m m') :
      Outcome env orders m m' (.deregisterNetwork id)
  | registered (id : String) (names : List Name) (networks : FiniteMap String ContainerNetwork)
      (after : FiniteMap String NetworkIps)
      (overwritten : Overwritten (Reports networks) (entryOr m id names).networks after)
      (effect : ContainerEffect m m' id (some ⟨(entryOr m id names).names, after⟩)
        (Added env.hickory (m.authorityWrapper.findReverseAuthority orders.reverse)
          (fun n ip => Named (entryOr m id names).names n ∧
            ∃ net ips, Reports networks net ips ∧ ip ∈ ips.ips) (Has m.authorityWrapper))) :
      Outcome env orders m m' (.register id names networks)
  | renamed (id : String) (old new : Name) (names : List Name)
      (effect : ContainerEffect m m' id
        ((m.containers.lookup id).map fun state => { state with names })
        (Renamed env.hickory (m.authorityWrapper.findReverseAuthority orders.reverse)
          (LowerName.new old) (LowerName.new new)
          (fun ip => Has m.authorityWrapper (.address (LowerName.new old) ip))
          (Has m.authorityWrapper))) :
      Outcome env orders m m' (.rename id old new names)
  | died (id : String) (state : ContainerState) (tracked : m.containers.lookup id = some state)
      (effect : ContainerEffect m m' id none
        (Removed env.hickory (m.authorityWrapper.findReverseAuthority orders.reverse)
          (fun n ip => Named state.names n ∧ Recorded state.networks ip)
          (Has m.authorityWrapper))) :
      Outcome env orders m m' (.die id)
  | connected (id net : String) (names : List Name) (ips : NetworkIps)
      (effect : ContainerEffect m m' id
        (some ⟨(entryOr m id names).names, (entryOr m id names).networks.insert net ips⟩)
        (if (entryOr m id names).networks.lookup net = some ips then Has m.authorityWrapper
        else Added env.hickory (m.authorityWrapper.findReverseAuthority orders.reverse)
          (fun n ip => Named (entryOr m id names).names n ∧ ip ∈ ips.ips)
          (Removed env.hickory (m.authorityWrapper.findReverseAuthority orders.reverse)
            (fun n ip => Named (entryOr m id names).names n ∧
              ∃ old, (entryOr m id names).networks.lookup net = some old ∧ ip ∈ old.ips)
            (Has m.authorityWrapper)))) :
      Outcome env orders m m' (.connect id net names ips)
  | disconnected (id net : String) (state : ContainerState) (ips : NetworkIps)
      (tracked : m.containers.lookup id = some state)
      (connected : state.networks.lookup net = some ips)
      (effect : ContainerEffect m m' id (some ⟨state.names, state.networks.erase net⟩)
        (Removed env.hickory (m.authorityWrapper.findReverseAuthority orders.reverse)
          (fun n ip => Named state.names n ∧ ip ∈ ips.ips) (Has m.authorityWrapper))) :
      Outcome env orders m m' (.disconnect id net)

theorem perform_outcome {env : Env} (orders : Orders) {m : Monitor} (laws : env.hickory.RecordLaws)
    (wf : WrapperWellFormed m.authorityWrapper) (r : Request) :
    Outcome env orders m (perform env orders m r) r := by
  cases r with
  | nothing => exact .unchanged rfl
  | register id names networks =>
    obtain ⟨after, overwritten, effect⟩ := register_effect orders laws wf id names networks
    exact .registered id names networks after overwritten effect
  | rename id old new names =>
    exact .renamed id old new names (renameRequest_effect orders laws wf id old new names)
  | die id =>
    cases tracked : m.containers.lookup id with
    | none => exact .unchanged (die_absent orders tracked)
    | some state => exact .died id state tracked (die_effect orders laws wf tracked)
  | connect id net names ips =>
    exact .connected id net names ips (connect_effect orders laws wf id net names ips)
  | disconnect id net =>
    rcases connected_or_absent m id net with ⟨state, ips, tracked, connected⟩ | absent
    · exact .disconnected id net state ips tracked connected
        (disconnect_effect orders laws wf tracked connected)
    · exact .unchanged (disconnect_absent orders absent)
  | registerNetwork id config =>
    exact .networkRegistered id config (registerNetwork_frame orders laws wf id config)
  | deregisterNetwork id => exact .networkDeregistered id (deregisterNetwork_frame env orders wf id)

end DockerDns.Guarantees
