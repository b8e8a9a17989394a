import DockerDns.Guarantees.RenameRekeys

/-!
# A container's life leaves no trace

While a container lives, the table is the one from before with some of the
container's pairs added: each of them belongs to an address that the container
still has recorded. So its die takes them all, and nothing else, however often
its addresses changed in between and whoever shares its names and addresses.
-/
namespace DockerDns.Guarantees
open Library Source

/-- The state while container `c` lives, seen from the state `m₀` without it:
its names are `names`, and only the addresses in `occurs` were reported. -/
structure Living (hk : Hickory) (cover : IpAddr → Option Handle) (names : List Name)
    (occurs : IpAddr → Prop) (c : String) (m₀ m : Monitor) : Prop where
  catalog : m.catalog = m₀.catalog
  networks : m.networks = m₀.networks
  others : ∀ id, id ≠ c → m.containers.lookup id = m₀.containers.lookup id
  named : ∀ state, m.containers.lookup c = some state → state.names = names
  recorded : ∀ state ip, m.containers.lookup c = some state → Recorded state.networks ip → occurs ip
  wellFormed : WrapperWellFormed m.authorityWrapper
  zones : SameZones m₀.authorityWrapper m.authorityWrapper
  within : Within m₀.authorityWrapper m.authorityWrapper
  /-- Every new fact belongs to a pair of the container that is still there. -/
  facts : ∀ f, Has m.authorityWrapper f → Has m₀.authorityWrapper f ∨
    ∃ n ip, (Named names n ∧ occurs ip) ∧ Has m.authorityWrapper (.address n ip) ∧
      PairFact hk cover n ip f
  /-- Every pair of the container that is there is still recorded. -/
  owned : ∀ n ip, Named names n → occurs ip → Has m.authorityWrapper (.address n ip) →
    ∃ state, m.containers.lookup c = some state ∧ Recorded state.networks ip

section Changes
variable {hk : Hickory} {cover : IpAddr → Option Handle} {names : List Name}
  {occurs : IpAddr → Prop} {c : String} {m₀ m m' : Monitor}

/-- A table within another has no fact that the other lacks. -/
theorem Within.facts {w v : AuthorityWrapper} (within : Within w v) {f : Fact} (held : Has w f) :
    Has v f := by
  obtain ⟨set, found, member⟩ := (has_iff f).mp held
  obtain ⟨set', found', part⟩ := within f.place set found
  exact (has_iff f).mpr ⟨set', found', List.map_subset _ part.records member⟩

theorem living_start (wf : WrapperWellFormed m₀.authorityWrapper)
    (untracked : m₀.containers.lookup c = none)
    (absent : ∀ n ip, Named names n → occurs ip → ¬ Has m₀.authorityWrapper (.address n ip)) :
    Living hk cover names occurs c m₀ m₀ where
  catalog := rfl
  networks := rfl
  others _ _ := rfl
  named state tracked := by
    rw [untracked] at tracked
    cases tracked
  recorded state ip tracked := by
    rw [untracked] at tracked
    cases tracked
  wellFormed := wf
  zones := .refl _
  within := .refl _
  facts _ held := .inl held
  owned n ip named inside held := absurd held (absent n ip named inside)

/-- A change of the container's entry and records: it adds pairs that are then
recorded, and what it does not remove stays recorded. -/
theorem Living.change (living : Living hk cover names occurs c m₀ m) {entry : ContainerState}
    {facts : Fact → Prop} (adds removes : LowerName → IpAddr → Prop)
    (effect : ContainerEffect m m' c (some entry) facts)
    (factsEq : ∀ f, facts f ↔ Added hk cover adds (Removed hk cover removes (Has m.authorityWrapper)) f)
    (within : Within m₀.authorityWrapper m'.authorityWrapper) (name : entry.names = names)
    (recorded : ∀ ip, Recorded entry.networks ip → occurs ip)
    (added : ∀ n ip, adds n ip → Named names n ∧ Recorded entry.networks ip)
    (kept : ∀ n ip state, m.containers.lookup c = some state → Named names n →
      Recorded state.networks ip → ¬ removes n ip → Recorded entry.networks ip) :
    Living hk cover names occurs c m₀ m' where
  catalog := effect.catalog.trans living.catalog
  networks := effect.networks.trans living.networks
  others id other := by
    rw [effect.containers, if_neg other]
    exact living.others id other
  named state tracked := by
    rw [effect.containers, if_pos rfl] at tracked
    cases tracked
    exact name
  recorded state ip tracked := by
    rw [effect.containers, if_pos rfl] at tracked
    cases tracked
    exact recorded ip
  wellFormed := effect.wrapper.wellFormed
  zones := living.zones.trans effect.wrapper.zones
  within := within
  facts f held := by
    rw [effect.wrapper.facts, factsEq] at held
    rcases held with ⟨old, stays⟩ | ⟨n, ip, new, pair⟩
    · rcases living.facts f old with before | ⟨n, ip, owned, live, pair⟩
      · exact .inl before
      · -- the pair was not removed, or the fact would have gone with it
        refine .inr ⟨n, ip, owned, ?_, pair⟩
        rw [effect.wrapper.facts, factsEq, added_address, removed_address]
        exact .inl ⟨live, fun goes => stays ⟨n, ip, goes, live, pair⟩⟩
    · have ⟨name, inside⟩ := added n ip new
      refine .inr ⟨n, ip, ⟨name, recorded ip inside⟩, ?_, pair⟩
      rw [effect.wrapper.facts, factsEq, added_address]
      exact .inr new
  owned n ip name inside held := by
    refine ⟨entry, (effect.containers c).trans (if_pos rfl), ?_⟩
    rw [effect.wrapper.facts, factsEq, added_address, removed_address] at held
    rcases held with ⟨old, stays⟩ | new
    · obtain ⟨state, tracked, still⟩ := living.owned n ip name inside old
      exact kept n ip state tracked name still stays
    · exact (added n ip new).2

end Changes

section Requests
variable {env : Env} {names : List Name} {occurs : IpAddr → Prop} {c : String} {m₀ m : Monitor}
  (laws : env.hickory.RecordLaws) (keep : env.hickory.KeepLaws)
  (wf₀ : WrapperWellFormed m₀.authorityWrapper) (disjoint : ZonesDisjoint m₀.authorityWrapper)
  (order : IterationOrder)
  (absent : ∀ n ip f, Named names n → occurs ip →
    PairFact env.hickory (m₀.authorityWrapper.findReverseAuthority order) n ip f →
    ¬ Has m₀.authorityWrapper f)

include laws keep wf₀ disjoint absent in
/-- The container's requests remove nothing that was there before. -/
theorem Living.spared (living : Living env.hickory
      (m₀.authorityWrapper.findReverseAuthority order) names occurs c m₀ m) (orders : Orders)
    {r : Request} (about : container r = some c) :
    Within m₀.authorityWrapper (perform env orders m r).authorityWrapper := by
  rw [perform_operations env orders m about]
  refine Within.run_right laws keep wf₀ _ ?_ living.wellFormed living.zones living.within
  intro operation member
  rcases mem_containerOperations member with ⟨name, ip, rfl⟩ | ⟨state, name, ip, tracked, named, recorded, rfl⟩
  · trivial
  · intro f pair
    rw [cover_order disjoint orders.reverse order] at pair
    refine absent _ ip f ⟨name, ?_, rfl⟩ (living.recorded state ip tracked recorded) pair
    exact living.named state tracked ▸ named

include disjoint in
theorem Living.cover (living : Living env.hickory
      (m₀.authorityWrapper.findReverseAuthority order) names occurs c m₀ m) (orders : Orders) :
    m.authorityWrapper.findReverseAuthority orders.reverse =
      m₀.authorityWrapper.findReverseAuthority order :=
  (funext (living.zones.cover orders.reverse)).trans (cover_order disjoint _ _)

include laws keep wf₀ disjoint absent

theorem Living.register (living : Living env.hickory
      (m₀.authorityWrapper.findReverseAuthority order) names occurs c m₀ m)
    (untracked : m.containers.lookup c = none) (orders : Orders)
    (networks : FiniteMap String ContainerNetwork)
    (reported : ∀ net ips, Reports networks net ips → ∀ ip ∈ ips.ips, occurs ip) :
    Living env.hickory (m₀.authorityWrapper.findReverseAuthority order) names occurs c m₀
      (perform env orders m (.register c names networks)) := by
  obtain ⟨after, overwritten, effect⟩ := register_effect orders laws living.wellFormed c names networks
  rw [entryOr_untracked untracked, living.cover disjoint order orders] at effect
  rw [entryOr_untracked untracked] at overwritten
  have reports : ∀ net ips, after.lookup net = some ips ↔ Reports networks net ips := by
    intro net ips
    rw [overwritten]
    simp
  have written : ∀ ip, Recorded after ip ↔ ∃ net ips, Reports networks net ips ∧ ip ∈ ips.ips := by
    intro ip
    simp only [Recorded, reports]
  refine living.change
    (fun n ip => Named names n ∧ ∃ net ips, Reports networks net ips ∧ ip ∈ ips.ips)
    (fun _ _ => False) effect (fun f => ?_)
    (living.spared laws keep wf₀ disjoint order absent orders rfl) rfl ?_ ?_ ?_
  · simp only [Added, removed_nothing _ fun _ _ => id]
  · intro ip recorded
    obtain ⟨net, ips, reports, inside⟩ := (written ip).mp recorded
    exact reported net ips reports ip inside
  · intro n ip pair
    exact ⟨pair.1, (written ip).mpr pair.2⟩
  · intro n ip state tracked
    rw [untracked] at tracked
    cases tracked

theorem Living.connect (living : Living env.hickory
      (m₀.authorityWrapper.findReverseAuthority order) names occurs c m₀ m) (orders : Orders)
    (net : String) (ips : NetworkIps) (reported : ∀ ip ∈ ips.ips, occurs ip) :
    Living env.hickory (m₀.authorityWrapper.findReverseAuthority order) names occurs c m₀
      (perform env orders m (.connect c net names ips)) := by
  have effect := connect_effect orders laws living.wellFormed c net names ips
  rw [living.cover disjoint order orders] at effect
  have spared := living.spared laws keep wf₀ disjoint order absent orders
    (r := .connect c net names ips) rfl
  have named : (entryOr m c names).names = names := by
    unfold entryOr
    cases tracked : m.containers.lookup c with
    | none => rfl
    | some state => exact living.named state tracked
  have recorded : ∀ ip, Recorded ((entryOr m c names).networks.insert net ips) ip → occurs ip := by
    intro ip recorded
    rcases recorded_insert.mp recorded with new | ⟨net', ips', _, found, old⟩
    · exact reported ip new
    · have before : Recorded (entryOr m c names).networks ip := ⟨net', ips', found, old⟩
      exact living.recorded _ ip (entryOr_recorded before) before
  split_ifs at effect with same
  · refine living.change (fun _ _ => False) (fun _ _ => False) effect (fun f => ?_) spared named
      recorded ?_ ?_
    · rw [added_nothing, removed_nothing f fun _ _ => id]
    · intro n ip pair
      exact pair.elim
    · intro n ip state tracked _ still _
      rw [← entryOr_tracked tracked names] at still
      obtain ⟨net', ips', found, inside⟩ := still
      rw [recorded_insert]
      by_cases here : net' = net
      · subst here
        cases same.symm.trans found
        exact .inl inside
      · exact .inr ⟨net', ips', here, found, inside⟩
  · refine living.change _ _ effect (fun _ => Iff.rfl) spared named recorded ?_ ?_
    · intro n ip pair
      rw [named] at pair
      exact ⟨pair.1, recorded_insert.mpr (.inl pair.2)⟩
    · intro n ip state tracked name still stays
      rw [← entryOr_tracked tracked names] at still
      obtain ⟨net', ips', found, inside⟩ := still
      rw [recorded_insert]
      by_cases here : net' = net
      · subst here
        rw [named] at stays
        exact absurd ⟨name, ips', found, inside⟩ stays
      · exact .inr ⟨net', ips', here, found, inside⟩

theorem Living.disconnect (living : Living env.hickory
      (m₀.authorityWrapper.findReverseAuthority order) names occurs c m₀ m) (orders : Orders)
    (net : String) :
    Living env.hickory (m₀.authorityWrapper.findReverseAuthority order) names occurs c m₀
      (perform env orders m (.disconnect c net)) := by
  rcases connected_or_absent m c net with ⟨state, ips, tracked, connected⟩ | none
  · have effect := disconnect_effect orders laws living.wellFormed tracked connected
    rw [living.cover disjoint order orders] at effect
    have named := living.named state tracked
    refine living.change (fun _ _ => False) (fun n ip => Named state.names n ∧ ip ∈ ips.ips)
      effect (fun f => ?_)
      (living.spared laws keep wf₀ disjoint order absent orders rfl) named ?_ ?_ ?_
    · rw [added_nothing]
    · intro ip recorded
      obtain ⟨net', ips', _, found, inside⟩ := recorded_erase.mp recorded
      exact living.recorded state ip tracked ⟨net', ips', found, inside⟩
    · intro n ip pair
      exact pair.elim
    · intro n ip state' tracked' name still stays
      cases tracked.symm.trans tracked'
      obtain ⟨net', ips', found, inside⟩ := still
      refine recorded_erase.mpr ⟨net', ips', ?_, found, inside⟩
      rintro rfl
      cases connected.symm.trans found
      exact stays ⟨named.symm ▸ name, inside⟩
  · rwa [disconnect_absent orders none]

/-- The die takes what is left of the container, and nothing else. -/
theorem Living.die (living : Living env.hickory
      (m₀.authorityWrapper.findReverseAuthority order) names occurs c m₀ m)
    (untracked : m₀.containers.lookup c = none) (orders : Orders) :
    SameState Reordered (perform env orders m (.die c)) m₀ := by
  have spared := living.spared laws keep wf₀ disjoint order absent orders (r := .die c) rfl
  -- what is left after the die was there before the start
  obtain ⟨facts, effect, left⟩ : ∃ facts, ContainerEffect m (perform env orders m (.die c)) c none facts ∧
      ∀ f, facts f → Has m₀.authorityWrapper f := by
    cases tracked : m.containers.lookup c with
    | none =>
      have unchanged := ContainerEffect.refl living.wellFormed c
      rw [tracked] at unchanged
      rw [die_absent orders tracked]
      refine ⟨_, unchanged, fun f held => ?_⟩
      rcases living.facts f held with before | ⟨n, ip, ⟨named, inside⟩, live, _⟩
      · exact before
      · obtain ⟨state, found, _⟩ := living.owned n ip named inside live
        cases tracked.symm.trans found
    | some state =>
      have effect := die_effect orders laws living.wellFormed tracked
      rw [living.cover disjoint order orders] at effect
      refine ⟨_, effect, fun f held => ?_⟩
      rcases living.facts f held.1 with before | ⟨n, ip, ⟨name, inside⟩, live, pair⟩
      · exact before
      · obtain ⟨state', found, recorded⟩ := living.owned n ip name inside live
        cases tracked.symm.trans found
        have named := living.named state tracked
        exact absurd ⟨n, ip, ⟨named.symm ▸ name, recorded⟩, live, pair⟩ held.2
  have zones := living.zones.trans effect.wrapper.zones
  refine ⟨fun name => by rw [effect.catalog, living.catalog],
    fun id => by rw [effect.networks, living.networks], ?_,
    fun net => by rw [zones.reverseZones], ?_⟩
  · intro id
    rw [effect.containers]
    split
    next here =>
      rw [here, untracked]
      exact .none
    next here =>
      rw [living.others id here]
      exact rel_refl SameEntry.refl _
  · refine sameSets_of_within effect.wrapper.wellFormed wf₀ effect.wrapper.wellFormed zones.symm
      (.refl _) spared fun f => ⟨fun held => ?_, spared.facts⟩
    exact left f ((effect.wrapper.facts f).mp held)

end Requests

/-- An address that an inspect result among the inputs reports. -/
def Occurs (inputs : List Input) (ip : IpAddr) : Prop :=
  ∃ input ∈ inputs, ∃ container net ips, input.inspectContainer = some container ∧
    Reports container.networks net ips ∧ ip ∈ ips.ips

/-- A connect or disconnect event of the container. -/
def Reconnects (c : String) (event : Event) : Prop :=
  event.type = .network ∧ (event.action = "connect" ∨ event.action = "disconnect") ∧
    event.actor.attributes.lookup "container" = some c

/-- Every inspect result among the inputs reports this name and these labels. -/
def Reporting (name : String) (labels : FiniteMap String String) (inputs : List Input) : Prop :=
  ∀ input ∈ inputs, ∀ container, input.inspectContainer = some container →
    container.name = name ∧ ∀ label, container.labels.lookup label = labels.lookup label

section Lives
variable {env : Env} {c : String} {name : String} {labels : FiniteMap String String}
  {m₀ m : Monitor}

variable (laws : env.hickory.RecordLaws) (keep : env.hickory.KeepLaws)
  (wf₀ : WrapperWellFormed m₀.authorityWrapper) (disjoint : ZonesDisjoint m₀.authorityWrapper)
  (order : IterationOrder) {occurs : IpAddr → Prop}
  (absent : ∀ n ip f, Named (inspectNames env ⟨name, labels, ∅⟩) n → occurs ip →
    PairFact env.hickory (m₀.authorityWrapper.findReverseAuthority order) n ip f →
    ¬ Has m₀.authorityWrapper f)

include laws keep wf₀ disjoint absent

theorem living_reconnect {input : Input} (reconnects : Reconnects c input.event)
    (reporting : Reporting name labels [input]) (reported : ∀ ip, Occurs [input] ip → occurs ip)
    (living : Living env.hickory (m₀.authorityWrapper.findReverseAuthority order)
      (inspectNames env ⟨name, labels, ∅⟩) occurs c m₀ m) :
    Living env.hickory (m₀.authorityWrapper.findReverseAuthority order)
      (inspectNames env ⟨name, labels, ∅⟩) occurs c m₀ (m.handleEvent env input).1 := by
  obtain ⟨network, action, container⟩ := reconnects
  rw [handleEvent_eq]
  simp only [eventRequest, network]
  rcases action with connect | disconnect
  · rw [if_pos connect]
    unfold connectRequest
    rw [container]
    split
    next containerId networkName inspect sameId _ inspected =>
      cases sameId
      cases found : (inspect.networks.lookup networkName).bind NetworkIps.fromNetwork with
      | none => exact living
      | some ips =>
        obtain ⟨same, labelled⟩ := reporting input List.mem_cons_self inspect inspected
        dsimp only
        rw [inspectNames_congr (b := ⟨name, labels, ∅⟩) same labelled]
        refine living.connect laws keep wf₀ disjoint order absent input.orders networkName ips ?_
        intro ip inside
        exact reported ip ⟨input, List.mem_cons_self, inspect, networkName, ips, inspected,
          Option.bind_eq_some_iff.mp found, inside⟩
    next => exact living
  · have other : ¬ input.event.action = "connect" := by
      rw [disconnect]
      decide
    rw [if_neg other, if_pos disconnect, container]
    cases input.event.actor.attributes.lookup "name" with
    | none => exact living
    | some networkName => exact living.disconnect laws keep wf₀ disjoint order absent input.orders _

/-- The container lives through any sequence of connects and disconnects. -/
theorem living_run (inputs : List Input) (reconnects : ∀ input ∈ inputs, Reconnects c input.event)
    (reporting : Reporting name labels inputs) (reported : ∀ ip, Occurs inputs ip → occurs ip)
    (living : Living env.hickory (m₀.authorityWrapper.findReverseAuthority order)
      (inspectNames env ⟨name, labels, ∅⟩) occurs c m₀ m) :
    Living env.hickory (m₀.authorityWrapper.findReverseAuthority order)
      (inspectNames env ⟨name, labels, ∅⟩) occurs c m₀ (m.consumeEvents env inputs) := by
  induction inputs generalizing m with
  | nil => exact living
  | cons input rest ih =>
    have first := living_reconnect laws keep wf₀ disjoint order absent
      (reconnects input List.mem_cons_self)
      (fun input' member => reporting input' (by simpa using Or.inl (List.mem_singleton.mp member)))
      (fun ip occurs => reported ip ?_) living
    · exact ih (fun input' member => reconnects input' (List.mem_cons_of_mem _ member))
        (fun input' member => reporting input' (List.mem_cons_of_mem _ member))
        (fun ip occurs => reported ip
          (occurs.imp fun _ both => ⟨List.mem_cons_of_mem _ both.1, both.2⟩)) first
    · obtain ⟨input', member, found⟩ := occurs
      obtain rfl := List.mem_singleton.mp member
      exact ⟨input', List.mem_cons_self, found⟩

end Lives

/-- From the start of an untracked container to its die, whatever it connects to
in between: if none of its pairs was there before, everything is as before. -/
theorem life_leaves_no_trace {env : Env} (laws : env.hickory.RecordLaws)
    (keep : env.hickory.KeepLaws) {m : Monitor} (wf : WrapperWellFormed m.authorityWrapper)
    (disjoint : ZonesDisjoint m.authorityWrapper) (c name : String)
    (labels : FiniteMap String String) (untracked : m.containers.lookup c = none)
    (start die : Input) (between : List Input)
    (starts : start.event.type = .container ∧ start.event.action = "start" ∧
      start.event.actor.id = c)
    (reconnects : ∀ input ∈ between, Reconnects c input.event)
    (dies : die.event.type = .container ∧ die.event.action = "die" ∧ die.event.actor.id = c)
    (reporting : Reporting name labels (start :: between))
    (absent : ∀ n ip, Named (inspectNames env ⟨name, labels, ∅⟩) n →
      Occurs (start :: between) ip →
      ¬ ForwardPair m.authorityWrapper n ip ∧ ¬ ReversePair env.hickory m.authorityWrapper ip n) :
    SameState Reordered (m.consumeEvents env (start :: between ++ [die])) m := by
  have facts : ∀ n ip f, Named (inspectNames env ⟨name, labels, ∅⟩) n →
      Occurs (start :: between) ip →
      PairFact env.hickory (m.authorityWrapper.findReverseAuthority .listed) n ip f →
      ¬ Has m.authorityWrapper f := by
    intro n ip f named occurs pair held
    cases f with
    | address n' ip' =>
      obtain ⟨rfl, rfl⟩ := pair
      exact (absent n' ip' named occurs).1 held
    | pointer authority reverse n' =>
      obtain ⟨covered, rfl, rfl⟩ := pair
      obtain ⟨net, registered, _⟩ := findReverseAuthority_some covered
      exact (absent n' ip named occurs).2 ⟨net, authority, registered, held⟩
  have fresh : Living env.hickory (m.authorityWrapper.findReverseAuthority .listed)
      (inspectNames env ⟨name, labels, ∅⟩) (Occurs (start :: between)) c m m :=
    living_start wf untracked fun n ip named occurs => (absent n ip named occurs).1
  have started : Living env.hickory (m.authorityWrapper.findReverseAuthority .listed)
      (inspectNames env ⟨name, labels, ∅⟩) (Occurs (start :: between)) c m
      (m.handleEvent env start).1 := by
    obtain ⟨kind, action, rfl⟩ := starts
    rw [handleEvent_eq]
    simp only [eventRequest, kind, if_pos action]
    cases inspected : start.inspectContainer with
    | none => exact fresh
    | some container =>
      obtain ⟨same, labelled⟩ := reporting start List.mem_cons_self container inspected
      dsimp only
      rw [inspectNames_congr (b := ⟨name, labels, ∅⟩) same labelled]
      refine fresh.register laws keep wf disjoint .listed facts untracked start.orders _ ?_
      intro net ips reports ip inside
      exact ⟨start, List.mem_cons_self, container, net, ips, inspected, reports, inside⟩
  have lived := living_run laws keep wf disjoint .listed facts between reconnects
    (fun input member => reporting input (List.mem_cons_of_mem _ member))
    (fun _ occurs => occurs.imp fun _ both => ⟨List.mem_cons_of_mem _ both.1, both.2⟩) started
  obtain ⟨kind, action, rfl⟩ := dies
  have died := lived.die laws keep wf disjoint .listed facts untracked die.orders
  have last : eventRequest env ((m.handleEvent env start).1.consumeEvents env between) die =
      .die die.event.actor.id := by
    unfold eventRequest
    rw [kind, action]
    rfl
  rw [Monitor.consumeEvents, List.foldl_append, List.foldl_cons, List.foldl_cons, List.foldl_nil,
    handleEvent_eq]
  rw [← last] at died
  exact died

section Runs
open Reference

/-- A second container with the name of the first. -/
def webTwin : ContainerInspect := ⟨"/web", ∅, mapOf [("bridge", v4 0xac110003#32)]⟩

theorem webTwin_reports {net : String} {ips : NetworkIps} (reports : Reports webTwin.networks net ips) :
    ips = .v4Only 0xac110003#32 := by
  obtain ⟨network, found, addresses⟩ := reports
  have only : ((∅ : FiniteMap String ContainerNetwork).insert "bridge"
    (v4 0xac110003#32)).lookup net = some network := found
  rw [FiniteMap.lookup_insert] at only
  split at only
  · cases only
    cases addresses
    rfl
  · cases only

theorem life_leaves_no_trace_twin :
    SameState Reordered
      (webRunning.consumeEvents env (startEvent "d" (some webTwin) ::
        [connectEvent "d" "bridge" (some webTwin), disconnectEvent "d" "bridge"] ++ [dieEvent "d"]))
      webRunning := by
  refine life_leaves_no_trace hickory_recordLaws hickory_keepLaws
    webRunning_sound.wellFormed webRunning_disjoint "d" "/web" ∅ (by decide) _ _ _ ⟨rfl, rfl, rfl⟩ ?_
    ⟨rfl, rfl, rfl⟩ ?_ ?_
  · intro input member
    rcases List.mem_cons.mp member with rfl | member
    · exact ⟨rfl, .inl rfl, rfl⟩
    · obtain rfl := List.mem_singleton.mp member
      exact ⟨rfl, .inr rfl, rfl⟩
  · intro input member container inspected
    simp only [List.mem_cons, List.not_mem_nil, or_false] at member
    rcases member with rfl | rfl | rfl
    · cases inspected
      exact ⟨rfl, fun _ => rfl⟩
    · cases inspected
      exact ⟨rfl, fun _ => rfl⟩
    · cases inspected
  · intro n ip named occurs
    have names : inspectNames env ⟨"/web", ∅, ∅⟩ = [name ["web", "docker"]] := by decide
    rw [names] at named
    obtain ⟨_, member, rfl⟩ := named
    obtain rfl := List.mem_singleton.mp member
    obtain ⟨input, listed, container, net, ips, inspected, reports, inside⟩ := occurs
    have twin : container = webTwin := by
      simp only [List.mem_cons, List.not_mem_nil, or_false] at listed
      rcases listed with rfl | rfl | rfl
      · exact (Option.some.inj inspected).symm
      · exact (Option.some.inj inspected).symm
      · cases inspected
    subst twin
    rw [webTwin_reports reports] at inside
    obtain rfl := List.mem_singleton.mp inside
    refine ⟨?_, ?_⟩
    · unfold ForwardPair
      decide
    · intro pair
      obtain ⟨net, authority, registered, _⟩ := pair
      have none : (∅ : FiniteMap IpNet Handle).lookup net = some authority := registered
      cases none

end Runs
end DockerDns.Guarantees
