import DockerDns.Guarantees.ContainerLife
import DockerDns.Guarantees.Idempotence
import DockerDns.Guarantees.Registrations
import DockerDns.Guarantees.Spellings
import DockerDns.Guarantees.Teardown

/-!
# Events of different containers commute

Seen through the spelling of facts, a request about a container is an update
local to the facts of the pairs it works on. Two containers without a common
pair have disjoint regions, even where they share record sets, so the order of
their events shows in the order of records and the case of owners at most.
-/
namespace DockerDns.Guarantees
open Library Source

/-- The pairs a request works on. -/
def WorkedOn (m : Monitor) : Request → LowerName → IpAddr → Prop
  | .register id names networks, n, ip => Named (entryOr m id names).names n ∧
    ∃ net ips, Reports networks net ips ∧ ip ∈ ips.ips
  | .connect id net names ips, n, ip => Named (entryOr m id names).names n ∧
    (ip ∈ ips.ips ∨ ∃ old, (entryOr m id names).networks.lookup net = some old ∧ ip ∈ old.ips)
  | r, n, ip => Claimed m r n ip

open Classical in
/-- What a request does to the spelling of facts. -/
noncomputable def requestSpelling (hk : Hickory) (cover : IpAddr → Option Handle) (m : Monitor) :
    Request → Spelling → Spelling
  | .register id names networks, v => addSpelling hk cover (entryOr m id names).names
    (fun ip => ∃ net ips, Reports networks net ips ∧ ip ∈ ips.ips) v
  | .connect id net names ips, v =>
    if (entryOr m id names).networks.lookup net = some ips then v
    else addSpelling hk cover (entryOr m id names).names (fun ip => ip ∈ ips.ips)
      (removeSpelling hk cover (fun n ip => Named (entryOr m id names).names n ∧
        ∃ old, (entryOr m id names).networks.lookup net = some old ∧ ip ∈ old.ips) v)
  | r, v => removeSpelling hk cover (Claimed m r) v

/-- A request about a container that works by pairs, or none at all. -/
def ByPairs (r : Request) : Prop := container r ≠ none ∨ r = .nothing

section Spelling
variable {env : Env} {m : Monitor} (laws : env.hickory.RecordLaws) (keep : env.hickory.KeepLaws)
  (wf : WrapperWellFormed m.authorityWrapper) (orders : Orders)

theorem reportPairs_eq (order : IterationOrder) (names : List Name)
    (entries : List (Sigma fun _ : String => ContainerNetwork)) :
    entries.flatMap (reportPairs order names) = addPairs order names
      (entries.flatMap fun entry => ((NetworkIps.fromNetwork entry.2).map NetworkIps.ips).getD []) := by
  rw [addPairs, List.flatMap_assoc]
  congr 1
  funext entry
  unfold reportPairs
  cases NetworkIps.fromNetwork entry.2 <;> rfl

theorem mem_reported (networks : FiniteMap String ContainerNetwork) (ip : IpAddr) :
    (ip ∈ networks.entries.flatMap fun entry =>
      ((NetworkIps.fromNetwork entry.2).map NetworkIps.ips).getD []) ↔
      ∃ net ips, Reports networks net ips ∧ ip ∈ ips.ips := by
  simp only [List.mem_flatMap, Sigma.exists, FiniteMap.mem_entries_iff, Reports]
  constructor
  · intro listed
    obtain ⟨net, network, found, inside⟩ := listed
    cases addresses : NetworkIps.fromNetwork network with
    | none =>
      rw [addresses] at inside
      cases inside
    | some ips =>
      rw [addresses] at inside
      exact ⟨net, ips, ⟨network, found, addresses⟩, inside⟩
  · intro reported
    obtain ⟨net, ips, ⟨network, found, addresses⟩, inside⟩ := reported
    exact ⟨net, network, found, by rw [addresses]; exact inside⟩

include laws keep wf

theorem connect_spelling (id net : String) (names : List Name) (ips : NetworkIps) :
    spelling (perform env orders m (.connect id net names ips)).authorityWrapper =
      requestSpelling env.hickory (m.authorityWrapper.findReverseAuthority orders.reverse) m
        (.connect id net names ips) (spelling m.authorityWrapper) := by
  have state : (m.containers.lookup id).getD ⟨names, ∅⟩ = entryOr m id names := rfl
  rw [perform_operations env orders m (r := .connect id net names ips) rfl]
  simp only [containerOperations, requestSpelling, state]
  cases previous : (entryOr m id names).networks.lookup net with
  | none =>
    rw [if_neg (by simp), removeSpelling_nothing (by simp)]
    exact spelling_addPairs orders.reverse laws keep wf _ _
  | some old =>
    dsimp only
    by_cases same : old = ips
    · rw [if_pos same, if_pos (congrArg some same)]
      rfl
    · rw [if_neg same, if_neg fun equal => same (Option.some.inj equal), List.foldl_append]
      have removed : Effect m.authorityWrapper (Monitor.removeAll env orders.reverse
          (entryOr m id names).names old.ips m.authorityWrapper) _ :=
        removeAll_effect orders.reverse laws wf (entryOr m id names).names old.ips
      rw [removeAll_eq] at removed
      have within := (Within.refl m.authorityWrapper).removes_left laws keep
        (removePairs orders.reverse (entryOr m id names).names old.ips)
        (removePairs_removes _ _ _) wf
      rw [spelling_addPairs orders.reverse laws keep removed.wellFormed,
        funext (removed.zones.cover orders.reverse), spelling_removed wf removed within]
      simp only [Option.some.injEq, exists_eq_left']

theorem perform_spelling {r : Request} (byPairs : ByPairs r) :
    spelling (perform env orders m r).authorityWrapper =
      requestSpelling env.hickory (m.authorityWrapper.findReverseAuthority orders.reverse) m r
        (spelling m.authorityWrapper) := by
  cases r with
  | nothing => exact (removeSpelling_nothing (fun _ _ claimed => claimed) _).symm
  | register id names networks =>
    rw [perform_operations env orders m (r := .register id names networks) rfl]
    simp only [containerOperations, requestSpelling, reportPairs_eq, ← mem_reported]
    exact spelling_addPairs orders.reverse laws keep wf _ _
  | connect id net names ips => exact connect_spelling laws keep wf orders id net names ips
  | die id =>
    have torn := die_tornDown laws keep wf orders id
    have effect := torn.wrapper
    simp only [exists_eq_left] at effect
    exact spelling_removed wf effect torn.within
  | disconnect id net =>
    have torn := disconnect_tornDown laws keep wf orders id net
    have effect := torn.wrapper
    simp only [exists_eq_left] at effect
    exact spelling_removed wf effect torn.within
  | rename | registerNetwork | deregisterNetwork => simp [ByPairs, container] at byPairs

end Spelling

section Regions
variable {hk : Hickory} {cover : IpAddr → Option Handle} {m m' : Monitor}

theorem Region.mono {pairs pairs' : LowerName → IpAddr → Prop}
    (le : ∀ n ip, pairs n ip → pairs' n ip) (f : Fact) (inside : Region hk cover pairs f) :
    Region hk cover pairs' f := by
  obtain ⟨n, ip, pair, fact⟩ := inside
  exact ⟨n, ip, le n ip pair, fact⟩

/-- A fact belongs to one pair. -/
theorem pairFact_inj (names : hk.NameLaws) {n n' : LowerName} {ip ip' : IpAddr} {f : Fact}
    (left : PairFact hk cover n ip f) (right : PairFact hk cover n' ip' f) : n = n' ∧ ip = ip' := by
  cases f with
  | address =>
    obtain ⟨rfl, rfl⟩ := left
    exact right
  | pointer =>
    obtain ⟨_, key, rfl⟩ := left
    obtain ⟨_, key', same⟩ := right
    exact ⟨same, reverseKey_inj names (key.symm.trans key')⟩

theorem region_disjoint (names : hk.NameLaws) {pairs pairs' : LowerName → IpAddr → Prop}
    (apart : ∀ n ip, pairs n ip → ¬ pairs' n ip) (f : Fact) (inside : Region hk cover pairs f) :
    ¬ Region hk cover pairs' f := by
  intro inside'
  obtain ⟨n, ip, pair, fact⟩ := inside
  obtain ⟨n', ip', pair', fact'⟩ := inside'
  obtain ⟨rfl, rfl⟩ := pairFact_inj names fact fact'
  exact apart n ip pair pair'

/-- A request reads and writes the facts of its own pairs only. -/
theorem requestSpelling_local (r : Request) :
    Local (Region hk cover (WorkedOn m r)) (requestSpelling hk cover m r) := by
  cases r with
  | register id names networks => exact addSpelling_local _ _
  | connect id net names ips =>
    have removed : Local (Region hk cover (WorkedOn m (.connect id net names ips)))
        (removeSpelling hk cover fun n ip => Named (entryOr m id names).names n ∧
          ∃ old, (entryOr m id names).networks.lookup net = some old ∧ ip ∈ old.ips) :=
      (removeSpelling_local _).mono (Region.mono fun n ip pair => ⟨pair.1, .inr pair.2⟩)
    have added : Local (Region hk cover (WorkedOn m (.connect id net names ips)))
        (addSpelling hk cover (entryOr m id names).names fun ip => ip ∈ ips.ips) :=
      (addSpelling_local _ _).mono (Region.mono fun n ip pair => ⟨pair.1, .inl pair.2⟩)
    have both := removed.comp added
    by_cases same : (entryOr m id names).networks.lookup net = some ips
    · have nothing : requestSpelling hk cover m (.connect id net names ips) = fun v => v := by
        funext v
        exact if_pos same
      rw [nothing]
      exact .none
    · exact (congrArg (Local _) (funext fun v => if_neg same)).mpr both
  | nothing | rename | die | disconnect | registerNetwork | deregisterNetwork =>
    exact removeSpelling_local _

theorem entryOr_congr {id : String} (entry : m.containers.lookup id = m'.containers.lookup id)
    (names : List Name) : entryOr m id names = entryOr m' id names := by
  rw [entryOr, entryOr, entry]

/-- What a request does depends on the entry of its container, and not on the
order of the reported networks. -/
theorem requestSpelling_congr {r r' : Request} (byPairs : ByPairs r) (repeats : Repeats r r')
    (entry : ∀ id, container r = some id → m.containers.lookup id = m'.containers.lookup id) :
    requestSpelling hk cover m r = requestSpelling hk cover m' r' := by
  cases repeats with
  | created id config => simp [ByPairs, container] at byPairs
  | register id names same =>
    funext v
    simp only [requestSpelling, entryOr_congr (entry id rfl), reports_congr same]
  | same =>
    cases r with
    | nothing => rfl
    | register id names networks =>
      funext v
      simp only [requestSpelling, entryOr_congr (entry id rfl)]
    | connect id net names ips =>
      funext v
      simp only [requestSpelling, entryOr_congr (entry id rfl)]
    | die id =>
      have claimed : Claimed m (.die id) = Claimed m' (.die id) := by
        funext n ip
        simp only [Claimed, entry id rfl]
      exact congrArg (removeSpelling hk cover) claimed
    | disconnect id net =>
      have claimed : Claimed m (.disconnect id net) = Claimed m' (.disconnect id net) := by
        funext n ip
        simp only [Claimed, entry id rfl]
      exact congrArg (removeSpelling hk cover) claimed
    | rename | registerNetwork | deregisterNetwork => simp [ByPairs, container] at byPairs

end Regions

section Entries
variable {env : Env} {m m' : Monitor} (laws : env.hickory.RecordLaws)
  (wf : WrapperWellFormed m.authorityWrapper) (wf' : WrapperWellFormed m'.authorityWrapper)
  (orders orders' : Orders)

include laws wf

theorem perform_zones {r : Request} (byPairs : ByPairs r) :
    SameZones m.authorityWrapper (perform env orders m r).authorityWrapper := by
  cases perform_outcome orders laws wf r with
  | unchanged same => rw [same]; exact .refl _
  | networkRegistered | networkDeregistered => simp [ByPairs, container] at byPairs
  | registered _ _ _ _ _ effect | renamed _ _ _ _ effect | died _ _ _ effect
  | connected _ _ _ _ effect | disconnected _ _ _ _ _ _ effect => exact effect.wrapper.zones

/-- A request leaves the entries of other containers alone. -/
theorem perform_others {r : Request} (byPairs : ByPairs r) {id : String}
    (other : container r ≠ some id) :
    (perform env orders m r).containers.lookup id = m.containers.lookup id := by
  have elsewhere : ∀ {id' : String}, container r = some id' → ¬ id = id' := by
    intro id' about here
    exact other (here ▸ about)
  cases perform_outcome orders laws wf r with
  | unchanged same => rw [same]
  | networkRegistered | networkDeregistered | renamed => simp [ByPairs, container] at byPairs
  | registered _ _ _ _ _ effect | died _ _ _ effect | connected _ _ _ _ effect
  | disconnected _ _ _ _ _ _ effect => rw [effect.containers, if_neg (elsewhere rfl)]

include wf'

/-- What becomes of a container's entry depends on the entry and the request. -/
theorem perform_entry {r r' : Request} (repeats : Repeats r r') {id : String}
    (about : container r = some id)
    (entry : m.containers.lookup id = m'.containers.lookup id) :
    Option.Rel SameEntry ((perform env orders m r).containers.lookup id)
      ((perform env orders' m' r').containers.lookup id) := by
  have register : ∀ (names : List Name) {networks networks' : FiniteMap String ContainerNetwork},
      (∀ net, networks.lookup net = networks'.lookup net) →
      Option.Rel SameEntry ((perform env orders m (.register id names networks)).containers.lookup id)
        ((perform env orders' m' (.register id names networks')).containers.lookup id) := by
    intro names networks networks' same
    obtain ⟨after, overwritten, effect⟩ := register_effect orders laws wf id names networks
    obtain ⟨after', overwritten', effect'⟩ := register_effect orders' laws wf' id names networks'
    rw [effect.containers, effect'.containers, if_pos rfl, if_pos rfl]
    refine .some ⟨by rw [entryOr_congr entry], fun net => Option.ext fun ips => ?_⟩
    rw [overwritten, overwritten', entryOr_congr entry]
    simp only [Reports, same]
  cases repeats with
  | created id config => cases about
  | register id' names same =>
    cases about
    exact register names same
  | same =>
    cases r with
    | register id' names networks =>
      cases about
      exact register names fun _ => rfl
    | connect id' net names ips =>
      cases about
      rw [(connect_effect orders laws wf id net names ips).containers,
        (connect_effect orders' laws wf' id net names ips).containers, if_pos rfl, if_pos rfl,
        entryOr_congr entry]
      exact rel_refl SameEntry.refl _
    | disconnect id' net =>
      cases about
      simp only [perform, disconnectNetwork, entry]
      cases tracked : m'.containers.lookup id with
      | none =>
        dsimp only
        rw [entry, tracked]
        exact .none
      | some state =>
        dsimp only
        cases state.networks.lookup net with
        | none =>
          dsimp only
          rw [entry]
          exact rel_refl SameEntry.refl _
        | some ips =>
          simp only [FiniteMap.lookup_insert, if_true]
          exact .some (.refl _)
    | die id' =>
      cases about
      rw [die_gone, die_gone]
      exact .none
    | nothing | rename | registerNetwork | deregisterNetwork => cases about

end Entries

section Pairs
variable {env : Env} {m : Monitor}

theorem Repeats.byPairs {r r' : Request} (repeats : Repeats r r') (byPairs : ByPairs r) :
    ByPairs r' ∧ container r' = container r := by
  cases repeats with
  | created id config => simp [ByPairs, container] at byPairs
  | register id names same => exact ⟨.inl (by simp [container]), rfl⟩
  | same => exact ⟨byPairs, rfl⟩

theorem ByPairs.spelled {hk : Hickory} {r : Request} (byPairs : ByPairs r) : Spelled hk r := by
  cases r with
  | rename => simp [ByPairs, container] at byPairs
  | _ => trivial

/-- The spelling after two requests about different containers, as two updates
of the spelling before. -/
theorem two_spellings (laws : env.hickory.RecordLaws) (keep : env.hickory.KeepLaws)
    (wf : WrapperWellFormed m.authorityWrapper) (disjoint : ZonesDisjoint m.authorityWrapper)
    (order : IterationOrder) (orders orders' : Orders) {r r' : Request} (byPairs : ByPairs r)
    (byPairs' : ByPairs r')
    (different : ∀ id, container r' = some id → container r ≠ some id) :
    spelling (perform env orders' (perform env orders m r) r').authorityWrapper =
      requestSpelling env.hickory (m.authorityWrapper.findReverseAuthority order) m r'
        (requestSpelling env.hickory (m.authorityWrapper.findReverseAuthority order) m r
          (spelling m.authorityWrapper)) := by
  have zones := perform_zones laws wf orders byPairs
  have wf' := (perform_wellFormed laws orders wf r).1
  have entry : ∀ id, container r' = some id →
      (perform env orders m r).containers.lookup id = m.containers.lookup id :=
    fun id about => perform_others laws wf orders byPairs (different id about)
  have repeats : Repeats r' r' := by
    refine .same fun id config same => ?_
    subst same
    simp [ByPairs, container] at byPairs'
  rw [perform_spelling laws keep wf' orders' byPairs', funext (zones.cover orders'.reverse),
    requestSpelling_congr byPairs' repeats entry, perform_spelling laws keep wf orders byPairs,
    cover_order disjoint orders'.reverse order, cover_order disjoint orders.reverse order]

end Pairs

/-- Two requests about different containers that work on no common pair. -/
theorem requests_commute {env : Env} {m : Monitor} (laws : env.hickory.RecordLaws)
    (keep : env.hickory.KeepLaws) (names : env.hickory.NameLaws)
    (sound : TableSound env.hickory m.authorityWrapper) (disjoint : ZonesDisjoint m.authorityWrapper)
    (orders₁ orders₂ orders₁' orders₂' : Orders) {r₁ r₂ r₁' r₂' : Request} (byPairs₁ : ByPairs r₁)
    (byPairs₂ : ByPairs r₂) (repeats₁ : Repeats r₁ r₁') (repeats₂ : Repeats r₂ r₂')
    (different : ∀ id, container r₁ = some id → container r₂ ≠ some id)
    (apart : ∀ n ip, WorkedOn m r₁ n ip → ¬ WorkedOn m r₂ n ip) :
    SameState OwnerRespelled (perform env orders₂ (perform env orders₁ m r₁) r₂)
      (perform env orders₁' (perform env orders₂' m r₂') r₁') := by
  have wf := sound.wellFormed
  obtain ⟨byPairs₁', same₁⟩ := repeats₁.byPairs byPairs₁
  obtain ⟨byPairs₂', same₂⟩ := repeats₂.byPairs byPairs₂
  have different' : ∀ id, container r₂ = some id → container r₁ ≠ some id :=
    fun id about other => different id other about
  -- the tables of both runs are as the program makes them
  have sound₁ := perform_sound laws keep names sound orders₁ byPairs₁.spelled
  have sound₂ := perform_sound laws keep names sound orders₂' byPairs₂'.spelled
  have sound₁₂ := perform_sound laws keep names sound₁ orders₂ byPairs₂.spelled
  have sound₂₁ := perform_sound laws keep names sound₂ orders₁' byPairs₁'.spelled
  have zones₁₂ := (perform_zones laws wf orders₁ byPairs₁).trans
    (perform_zones laws sound₁.wellFormed orders₂ byPairs₂)
  have zones₂₁ := (perform_zones laws wf orders₂' byPairs₂').trans
    (perform_zones laws sound₂.wellFormed orders₁' byPairs₁')
  have aside : ∀ {r : Request}, ByPairs r → ¬ r.AboutNetworks := by
    intro r byPairs about
    cases r with
    | registerNetwork | deregisterNetwork => simp [ByPairs, container] at byPairs
    | _ => exact about
  have tables₁ := sameTables_of_container laws orders₁ wf (aside byPairs₁)
  have tables₁₂ := sameTables_of_container laws orders₂ sound₁.wellFormed (aside byPairs₂)
  have tables₂ := sameTables_of_container laws orders₂' wf (aside byPairs₂')
  have tables₂₁ := sameTables_of_container laws orders₁' sound₂.wellFormed (aside byPairs₁')
  refine ⟨fun name => by rw [tables₁₂.catalog, tables₁.catalog, tables₂₁.catalog, tables₂.catalog],
    fun id => by rw [tables₁₂.networks, tables₁.networks, tables₂₁.networks, tables₂.networks], ?_,
    fun net => by rw [zones₁₂.reverseZones, zones₂₁.reverseZones], ?_⟩
  · intro id
    by_cases about₁ : container r₁ = some id
    · have untouched : (perform env orders₂' m r₂').containers.lookup id =
          m.containers.lookup id :=
        perform_others laws wf orders₂' byPairs₂' (by rw [same₂]; exact different id about₁)
      rw [perform_others laws sound₁.wellFormed orders₂ byPairs₂ (different id about₁)]
      exact perform_entry laws wf sound₂.wellFormed orders₁ orders₁' repeats₁ about₁ untouched.symm
    · have untouched₁ := perform_others laws wf orders₁ byPairs₁ about₁
      rw [perform_others laws sound₂.wellFormed orders₁' byPairs₁' (by rw [same₁]; exact about₁)]
      by_cases about₂ : container r₂ = some id
      · exact perform_entry laws sound₁.wellFormed wf orders₂ orders₂' repeats₂ about₂ untouched₁
      · rw [perform_others laws sound₁.wellFormed orders₂ byPairs₂ about₂, untouched₁,
          perform_others laws wf orders₂' byPairs₂' (by rw [same₂]; exact about₂)]
        exact rel_refl SameEntry.refl _
  · refine sameSets_of_spelling sound₁₂.wellFormed sound₂₁.wellFormed sound₁₂.made sound₂₁.made
      (zones₁₂.symm.trans zones₂₁) fun f => ?_
    rw [two_spellings laws keep wf disjoint .listed orders₁ orders₂ byPairs₁ byPairs₂ different',
      two_spellings laws keep wf disjoint .listed orders₂' orders₁' byPairs₂' byPairs₁'
        (by rw [same₁, same₂]; exact different),
      ← requestSpelling_congr byPairs₁ repeats₁ fun _ _ => rfl,
      ← requestSpelling_congr byPairs₂ repeats₂ fun _ _ => rfl]
    exact congrFun ((requestSpelling_local r₂).commute (requestSpelling_local r₁)
      (fun f inside inside' => region_disjoint names apart f inside' inside) _) f

/-- A start or die of a container, or its connect or disconnect. -/
def Lifecycle (event : Event) : Prop :=
  (event.type = .container ∧ (event.action = "start" ∨ event.action = "die")) ∨
    (event.type = .network ∧ (event.action = "connect" ∨ event.action = "disconnect"))

/-- The container an event concerns. -/
def subject (event : Event) : Option String :=
  match event.type with
  | .container => some event.actor.id
  | _ => event.actor.attributes.lookup "container"

/-- A recorded or inspected name of the event's container. -/
def EventName (env : Env) (m : Monitor) (input : Input) (n : LowerName) : Prop :=
  (∃ id state, subject input.event = some id ∧ m.containers.lookup id = some state ∧
    Named state.names n) ∨
  ∃ container, input.inspectContainer = some container ∧ Named (inspectNames env container) n

/-- A recorded or inspected address of the event's container. -/
def EventIp (m : Monitor) (input : Input) (ip : IpAddr) : Prop :=
  (∃ id state, subject input.event = some id ∧ m.containers.lookup id = some state ∧
    Recorded state.networks ip) ∨
  ∃ container net ips, input.inspectContainer = some container ∧
    Reports container.networks net ips ∧ ip ∈ ips.ips

/-- What the request of a lifecycle event has to do with the event. -/
structure AboutEvent (env : Env) (m : Monitor) (input : Input) (r : Request) : Prop where
  byPairs : ByPairs r
  subject : ∀ id, container r = some id → subject input.event = some id
  pairs : ∀ n ip, WorkedOn m r n ip → EventName env m input n ∧ EventIp m input ip

section Events
variable {env : Env} {m : Monitor} {input : Input}

theorem aboutEvent_nothing : AboutEvent env m input .nothing :=
  ⟨.inr rfl, (by intro id about; cases about), fun _ _ claimed => claimed.elim⟩

theorem entryOr_name {id : String} {n : LowerName}
    (concerns : subject input.event = some id) {container : ContainerInspect}
    (inspected : input.inspectContainer = some container)
    (named : Named (entryOr m id (inspectNames env container)).names n) : EventName env m input n := by
  unfold entryOr at named
  cases tracked : m.containers.lookup id with
  | none =>
    rw [tracked] at named
    exact .inr ⟨container, inspected, named⟩
  | some state =>
    rw [tracked] at named
    exact .inl ⟨id, state, concerns, tracked, named⟩

theorem claimed_event {r : Request} {n : LowerName} {ip : IpAddr} (claimed : Claimed m r n ip)
    (concerns : ∀ id, container r = some id → subject input.event = some id) :
    EventName env m input n ∧ EventIp m input ip := by
  cases r with
  | die id =>
    obtain ⟨state, tracked, named, recorded⟩ := claimed
    exact ⟨.inl ⟨id, state, concerns id rfl, tracked, named⟩,
      .inl ⟨id, state, concerns id rfl, tracked, recorded⟩⟩
  | disconnect id net =>
    obtain ⟨state, ips, tracked, found, named, inside⟩ := claimed
    exact ⟨.inl ⟨id, state, concerns id rfl, tracked, named⟩,
      .inl ⟨id, state, concerns id rfl, tracked, net, ips, found, inside⟩⟩
  | _ => exact claimed.elim

theorem aboutEvent_start {id : String} (concerns : subject input.event = some id)
    {container : ContainerInspect} (inspected : input.inspectContainer = some container) :
    AboutEvent env m input (.register id (inspectNames env container) container.networks) := by
  refine ⟨.inl (by simp [Guarantees.container]), ?_, ?_⟩
  · intro id' about
    cases about
    exact concerns
  · intro n ip pair
    obtain ⟨named, net, ips, reports, inside⟩ := pair
    exact ⟨entryOr_name concerns inspected named,
      .inr ⟨container, net, ips, inspected, reports, inside⟩⟩

theorem aboutEvent_connect {id net : String} (concerns : subject input.event = some id)
    {container : ContainerInspect} (inspected : input.inspectContainer = some container)
    {ips : NetworkIps}
    (reported : (container.networks.lookup net).bind NetworkIps.fromNetwork = some ips) :
    AboutEvent env m input (.connect id net (inspectNames env container) ips) := by
  refine ⟨.inl (by simp [Guarantees.container]), ?_, ?_⟩
  · intro id' about
    cases about
    exact concerns
  · intro n ip pair
    obtain ⟨named, inside⟩ := pair
    refine ⟨entryOr_name concerns inspected named, ?_⟩
    rcases inside with new | ⟨old, found, inside⟩
    · exact .inr ⟨container, net, ips, inspected, Option.bind_eq_some_iff.mp reported, new⟩
    · unfold entryOr at found
      cases tracked : m.containers.lookup id with
      | none =>
        rw [tracked] at found
        cases found
      | some state =>
        rw [tracked] at found
        exact .inl ⟨id, state, concerns, tracked, net, old, found, inside⟩

theorem aboutEvent_claims {r : Request} (byPairs : ByPairs r)
    (claims : WorkedOn m r = Claimed m r)
    (concerns : ∀ id, container r = some id → subject input.event = some id) :
    AboutEvent env m input r :=
  ⟨byPairs, concerns, fun _ _ pair => claimed_event (claims ▸ pair) concerns⟩

/-- A lifecycle event asks for work on the pairs of its container, if for any;
what it asks for does not depend on the state. -/
theorem eventRequest_lifecycle (lifecycle : Lifecycle input.event) (m' : Monitor) :
    AboutEvent env m input (eventRequest env m input) ∧
      eventRequest env m' input = eventRequest env m input := by
  unfold eventRequest
  rcases lifecycle with ⟨kind, action⟩ | ⟨kind, action⟩
  · have concerns : subject input.event = some input.event.actor.id := by
      rw [subject, kind]
    rw [kind]
    dsimp only
    rcases action with start | die
    · rw [if_pos start]
      refine ⟨?_, rfl⟩
      cases inspected : input.inspectContainer with
      | none => exact aboutEvent_nothing
      | some container => exact aboutEvent_start concerns inspected
    · rw [die]
      refine ⟨aboutEvent_claims (.inl (by simp [container])) rfl ?_, rfl⟩
      intro id about
      cases about
      exact concerns
  · have concerns : subject input.event = input.event.actor.attributes.lookup "container" := by
      rw [subject, kind]
    rw [kind]
    dsimp only
    rcases action with connect | disconnect
    · rw [if_pos connect, if_pos connect]
      refine ⟨?_, rfl⟩
      unfold connectRequest
      split
      next id net container sameId _ inspected =>
        cases reported : (container.networks.lookup net).bind NetworkIps.fromNetwork with
        | none => exact aboutEvent_nothing
        | some ips => exact aboutEvent_connect (concerns.trans sameId) inspected reported
      next => exact aboutEvent_nothing
    · have other : ¬ input.event.action = "connect" := by
        rw [disconnect]
        decide
      simp only [if_neg other, if_pos disconnect, and_true]
      split
      next id net sameId _ =>
        refine aboutEvent_claims (.inl (by simp [container])) rfl ?_
        intro id' about
        cases about
        exact concerns.trans sameId
      next => exact aboutEvent_nothing

end Events

/-- Two events of different containers without a common pair, handled in either
order, end in the same state up to the order of records and the case of owners. -/
theorem events_commute {env : Env} (laws : env.hickory.RecordLaws) (keep : env.hickory.KeepLaws)
    (names : env.hickory.NameLaws) {m : Monitor} (sound : TableSound env.hickory m.authorityWrapper)
    (disjoint : ZonesDisjoint m.authorityWrapper) {first second first' second' : Input}
    (lifecycle₁ : Lifecycle first.event) (lifecycle₂ : Lifecycle second.event)
    (again₁ : Redelivered first first') (again₂ : Redelivered second second')
    (different : ∀ id, subject first.event = some id → subject second.event ≠ some id)
    (apart : ∀ n ip, EventName env m first n ∧ EventIp m first ip →
      ¬ (EventName env m second n ∧ EventIp m second ip)) :
    SameState OwnerRespelled (m.consumeEvents env [first, second])
      (m.consumeEvents env [second', first']) := by
  have requested : ∀ {input again : Input}, Lifecycle input.event → Redelivered input again →
      AboutEvent env m input (eventRequest env m input) ∧
      Repeats (eventRequest env m input) (eventRequest env m again) ∧
      (∀ m', eventRequest env m' input = eventRequest env m input) ∧
      ∀ m', eventRequest env m' again = eventRequest env m again := by
    intro input again lifecycle redelivered
    have lifecycle' : Lifecycle again.event := redelivered.event ▸ lifecycle
    have repeats := eventRequest_repeats env .listed m redelivered
    have same := (eventRequest_lifecycle lifecycle'
      (perform env .listed m (eventRequest env m input)) : AboutEvent env m again _ ∧ _).2
    rw [same] at repeats
    exact ⟨(eventRequest_lifecycle lifecycle m).1, repeats,
      fun m' => (eventRequest_lifecycle lifecycle m').2,
      fun m' => (eventRequest_lifecycle lifecycle' m').2⟩
  obtain ⟨about₁, repeats₁, same₁, same₁'⟩ := requested lifecycle₁ again₁
  obtain ⟨about₂, repeats₂, same₂, same₂'⟩ := requested lifecycle₂ again₂
  simp only [Monitor.consumeEvents, List.foldl_cons, List.foldl_nil, handleEvent_eq, same₂, same₁']
  refine requests_commute laws keep names sound disjoint _ _ _ _ about₁.byPairs about₂.byPairs
    repeats₁ repeats₂ ?_ ?_
  · intro id container₁ container₂
    exact different id (about₁.subject id container₁) (about₂.subject id container₂)
  · intro n ip pair pair'
    exact apart n ip (about₁.pairs n ip pair) (about₂.pairs n ip pair')

section Runs
open Reference

/-- A container starts while another with its name, but not its address, dies. -/
theorem events_commute_twin :
    SameState OwnerRespelled
      (webRunning.consumeEvents env [startEvent "d" (some webTwin), dieEvent "c"])
      (webRunning.consumeEvents env [dieEvent "c", startEvent "d" (some webTwin)]) := by
  refine events_commute hickory_recordLaws hickory_keepLaws hickory_nameLaws webRunning_sound
    webRunning_disjoint (.inl ⟨rfl, .inl rfl⟩) (.inl ⟨rfl, .inr rfl⟩) (.refl _) (.refl _) ?_ ?_
  · intro id first second
    have same : some "d" = some "c" := first.trans second.symm
    cases (by decide : some "d" ≠ some "c") same
  · intro n ip first second
    have starting : ip = .v4 0xac110003#32 := by
      rcases first.2 with ⟨id, state, concerns, tracked, _⟩ | ⟨container, net, ips, inspected, reports, inside⟩
      · cases concerns
        have untracked : webRunning.containers.lookup "d" = none := rfl
        cases untracked.symm.trans tracked
      · cases inspected
        rw [webTwin_reports reports] at inside
        exact List.mem_singleton.mp inside
    rcases second.2 with ⟨id, state, concerns, tracked, net, ips, found, inside⟩ | ⟨_, _, _, inspected, _⟩
    · cases concerns
      have recorded : webRunning.containers.lookup "c" = some ⟨[name ["web", "docker"]],
        (∅ : FiniteMap String NetworkIps).insert "bridge" (.v4Only 0xac110002#32)⟩ := rfl
      cases recorded.symm.trans tracked
      rw [FiniteMap.lookup_insert] at found
      split at found
      · cases found
        rw [starting] at inside
        cases (by decide : IpAddr.v4 0xac110003#32 ≠ .v4 0xac110002#32) (List.mem_singleton.mp inside)
      · cases found
    · cases inspected

end Runs
end DockerDns.Guarantees
