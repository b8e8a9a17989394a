import DockerDns.Guarantees.TableStates

/-!
# Teardown is order-independent

A die or a disconnect takes away the pairs that its container had recorded, as
far as they are still there. What a list of such events has taken away, seen
from the state before the list, depends on which events are in it and not on
their order: whatever an event no longer finds, another one has removed.
-/
namespace DockerDns.Guarantees
open Library Source

/-- The entry after some of its networks are left. -/
structure Cut (left : String → Prop) (before after : ContainerState) : Prop where
  names : after.names = before.names
  networks : ∀ net ips, after.networks.lookup net = some ips ↔
    before.networks.lookup net = some ips ∧ ¬ left net

/-- The pairs a die or a disconnect is about in this state. -/
def Claimed (m : Monitor) : Request → LowerName → IpAddr → Prop
  | .die id, n, ip => ∃ state, m.containers.lookup id = some state ∧ Named state.names n ∧
    Recorded state.networks ip
  | .disconnect id net, n, ip => ∃ state ips, m.containers.lookup id = some state ∧
    state.networks.lookup net = some ips ∧ Named state.names n ∧ ip ∈ ips.ips
  | _, _, _ => False

/-- The second state is the first one after the requests in `done`. -/
structure TornDown (hk : Hickory) (cover : IpAddr → Option Handle) (done : Request → Prop)
    (m m' : Monitor) : Prop where
  catalog : m'.catalog = m.catalog
  networks : m'.networks = m.networks
  gone : ∀ id, done (.die id) → m'.containers.lookup id = none
  kept : ∀ id, ¬ done (.die id) → Option.Rel (Cut fun net => done (.disconnect id net))
    (m.containers.lookup id) (m'.containers.lookup id)
  wrapper : Effect m.authorityWrapper m'.authorityWrapper
    (Removed hk cover (fun n ip => ∃ r, done r ∧ Claimed m r n ip) (Has m.authorityWrapper))
  within : Within m'.authorityWrapper m.authorityWrapper

section Composition
variable {hk : Hickory} {cover : IpAddr → Option Handle} {done done' : Request → Prop}
  {m m' m'' : Monitor}

theorem removed_congr {pairs pairs' : LowerName → IpAddr → Prop} {before : Fact → Prop} (f : Fact)
    (same : ∀ n ip, pairs n ip ↔ pairs' n ip) :
    Removed hk cover pairs before f ↔ Removed hk cover pairs' before f := by
  simp only [Removed, same]

/-- Two removals are one removal of both. -/
theorem removed_removed {pairs pairs' : LowerName → IpAddr → Prop} {before : Fact → Prop}
    (f : Fact) : Removed hk cover pairs' (Removed hk cover pairs before) f ↔
      Removed hk cover (fun n ip => pairs n ip ∨ pairs' n ip) before f := by
  constructor
  · intro held
    obtain ⟨⟨old, first⟩, second⟩ := held
    refine ⟨old, ?_⟩
    intro gone
    obtain ⟨n, ip, goes | goes, held, pair⟩ := gone
    · exact first ⟨n, ip, goes, held, pair⟩
    · by_cases before' : pairs n ip
      · exact first ⟨n, ip, before', held, pair⟩
      · exact second ⟨n, ip, goes, removed_address.mpr ⟨held, before'⟩, pair⟩
  · intro held
    obtain ⟨old, stays⟩ := held
    refine ⟨⟨old, ?_⟩, ?_⟩
    · intro gone
      obtain ⟨n, ip, goes, held, pair⟩ := gone
      exact stays ⟨n, ip, .inl goes, held, pair⟩
    · intro gone
      obtain ⟨n, ip, goes, held, pair⟩ := gone
      exact stays ⟨n, ip, .inr goes, (removed_address.mp held).1, pair⟩

/-- What is still recorded was recorded before. -/
theorem TornDown.entry (torn : TornDown hk cover done m m') {id : String} {state : ContainerState}
    (tracked : m'.containers.lookup id = some state) : ¬ done (.die id) ∧
      ∃ before, m.containers.lookup id = some before ∧
        Cut (fun net => done (.disconnect id net)) before state := by
  have alive : ¬ done (.die id) := by
    intro died
    rw [torn.gone id died] at tracked
    cases tracked
  have kept := torn.kept id alive
  rw [tracked] at kept
  generalize m.containers.lookup id = before at kept
  cases kept with
  | some cut => exact ⟨alive, _, rfl, cut⟩

theorem TornDown.claimed_before (torn : TornDown hk cover done m m') {r : Request} {n : LowerName}
    {ip : IpAddr} (claimed : Claimed m' r n ip) : Claimed m r n ip := by
  cases r with
  | die id =>
    obtain ⟨state, tracked, named, net, ips, found, inside⟩ := claimed
    obtain ⟨_, before, tracked', cut⟩ := torn.entry tracked
    exact ⟨before, tracked', cut.names ▸ named, net, ips, ((cut.networks net ips).mp found).1, inside⟩
  | disconnect id net =>
    obtain ⟨state, ips, tracked, found, named, inside⟩ := claimed
    obtain ⟨_, before, tracked', cut⟩ := torn.entry tracked
    exact ⟨before, ips, tracked', ((cut.networks net ips).mp found).1, cut.names ▸ named, inside⟩
  | _ => exact claimed.elim

/-- What is no longer recorded was taken away by one of the requests. -/
theorem TornDown.claimed_after (torn : TornDown hk cover done m m') {r : Request} {n : LowerName}
    {ip : IpAddr} (claimed : Claimed m r n ip) :
    (∃ r', done r' ∧ Claimed m r' n ip) ∨ Claimed m' r n ip := by
  -- the entry is gone, or cut by the networks already left
  have after : ∀ id state, m.containers.lookup id = some state → done (.die id) ∨
      ∃ state', m'.containers.lookup id = some state' ∧
        Cut (fun net => done (.disconnect id net)) state state' := by
    intro id state tracked
    by_cases died : done (.die id)
    · exact .inl died
    · have kept := torn.kept id died
      rw [tracked] at kept
      generalize m'.containers.lookup id = after at kept
      cases kept with
      | some cut => exact .inr ⟨_, rfl, cut⟩
  cases r with
  | die id =>
    obtain ⟨state, tracked, named, net, ips, found, inside⟩ := claimed
    rcases after id state tracked with died | ⟨state', tracked', cut⟩
    · exact .inl ⟨.die id, died, state, tracked, named, net, ips, found, inside⟩
    · by_cases left : done (.disconnect id net)
      · exact .inl ⟨.disconnect id net, left, state, ips, tracked, found, named, inside⟩
      · exact .inr ⟨state', tracked', cut.names.symm ▸ named, net, ips,
          (cut.networks net ips).mpr ⟨found, left⟩, inside⟩
  | disconnect id net =>
    obtain ⟨state, ips, tracked, found, named, inside⟩ := claimed
    rcases after id state tracked with died | ⟨state', tracked', cut⟩
    · exact .inl ⟨.die id, died, state, tracked, named, net, ips, found, inside⟩
    · by_cases left : done (.disconnect id net)
      · exact .inl ⟨.disconnect id net, left, state, ips, tracked, found, named, inside⟩
      · exact .inr ⟨state', ips, tracked', (cut.networks net ips).mpr ⟨found, left⟩,
          cut.names.symm ▸ named, inside⟩
  | _ => exact claimed.elim

theorem Cut.trans {left left' : String → Prop} {a b c : ContainerState} (first : Cut left a b)
    (later : Cut left' b c) : Cut (fun net => left net ∨ left' net) a c := by
  refine ⟨later.names.trans first.names, fun net ips => ?_⟩
  rw [later.networks, first.networks, not_or, and_assoc]

theorem TornDown.trans (first : TornDown hk cover done m m') (later : TornDown hk cover done' m' m'') :
    TornDown hk cover (fun r => done r ∨ done' r) m m'' := by
  refine ⟨later.catalog.trans first.catalog, later.networks.trans first.networks, ?_, ?_, ?_,
    later.within.trans first.within⟩
  · intro id died
    by_cases last : done' (.die id)
    · exact later.gone id last
    · have kept := later.kept id last
      rw [first.gone id (died.resolve_right last)] at kept
      generalize m''.containers.lookup id = after at kept
      cases kept with
      | none => rfl
  · intro id alive
    rw [not_or] at alive
    have before := first.kept id alive.1
    have after := later.kept id alive.2
    generalize m.containers.lookup id = a, m'.containers.lookup id = b,
      m''.containers.lookup id = c at before after
    cases before with
    | none =>
      cases after with
      | none => exact .none
    | some cut =>
      cases after with
      | some cut' => exact .some (cut.trans cut')
  · refine ⟨later.wrapper.wellFormed, first.wrapper.zones.trans later.wrapper.zones, fun f => ?_⟩
    have facts := funext fun f => propext (first.wrapper.facts f)
    rw [later.wrapper.facts, facts, removed_removed]
    refine removed_congr f fun n ip => ⟨?_, ?_⟩
    · intro claimed
      rcases claimed with ⟨r, was, claimed⟩ | ⟨r, was, claimed⟩
      · exact ⟨r, .inl was, claimed⟩
      · exact ⟨r, .inr was, first.claimed_before claimed⟩
    · intro claimed
      obtain ⟨r, was | was, claimed⟩ := claimed
      · exact .inl ⟨r, was, claimed⟩
      · exact (first.claimed_after claimed).imp_right fun still => ⟨r, was, still⟩

/-- The requests that were done determine the state. -/
theorem TornDown.unique (wf : WrapperWellFormed m.authorityWrapper)
    (torn : TornDown hk cover done m m') (torn' : TornDown hk cover done m m'') :
    SameState Reordered m' m'' := by
  refine ⟨fun name => by rw [torn.catalog, torn'.catalog],
    fun id => by rw [torn.networks, torn'.networks], ?_,
    fun net => by rw [torn.wrapper.zones.reverseZones, torn'.wrapper.zones.reverseZones], ?_⟩
  · intro id
    by_cases died : done (.die id)
    · rw [torn.gone id died, torn'.gone id died]
      exact .none
    · have kept := torn.kept id died
      have kept' := torn'.kept id died
      generalize m.containers.lookup id = a, m'.containers.lookup id = b,
        m''.containers.lookup id = c at kept kept'
      cases kept with
      | none =>
        cases kept' with
        | none => exact .none
      | some cut =>
        cases kept' with
        | some cut' =>
          refine .some ⟨cut.names.trans cut'.names.symm, fun net => Option.ext fun ips => ?_⟩
          exact (cut.networks net ips).trans (cut'.networks net ips).symm
  · exact sameSets_of_within torn.wrapper.wellFormed torn'.wrapper.wellFormed wf
      (torn.wrapper.zones.symm.trans torn'.wrapper.zones) torn.within torn'.within
      fun f => (torn.wrapper.facts f).trans (torn'.wrapper.facts f).symm

end Composition

section Requests
variable {env : Env} {m : Monitor}

theorem removePairs_removes (order : IterationOrder) (names : List Name) (ips : List IpAddr) :
    ∀ operation ∈ removePairs order names ips, ∃ order name ip,
      operation = .removeAddress order name ip := by
  intro operation member
  obtain ⟨ip, _, member⟩ := List.mem_flatMap.mp member
  obtain ⟨name, _, rfl⟩ := List.mem_map.mp member
  exact ⟨order, name, ip, rfl⟩

theorem Cut.refl {left : String → Prop} (stays : ∀ net, ¬ left net) (state : ContainerState) :
    Cut left state state := ⟨rfl, fun net _ => (and_iff_left (stays net)).symm⟩

/-- A request that finds nothing leaves the state as it is. -/
theorem tornDown_absent {hk : Hickory} {cover : IpAddr → Option Handle}
    (wf : WrapperWellFormed m.authorityWrapper) {done : Request → Prop}
    (gone : ∀ id, done (.die id) → m.containers.lookup id = none)
    (kept : ∀ id net state, done (.disconnect id net) → m.containers.lookup id = some state →
      state.networks.lookup net = none) : TornDown hk cover done m m := by
  have unclaimed : ∀ n ip, ¬ ∃ r, done r ∧ Claimed m r n ip := by
    intro n ip claimed
    obtain ⟨r, was, claimed⟩ := claimed
    cases r with
    | die id =>
      obtain ⟨state, tracked, _⟩ := claimed
      cases (gone id was).symm.trans tracked
    | disconnect id net =>
      obtain ⟨state, ips, tracked, found, _⟩ := claimed
      cases (kept id net state was tracked).symm.trans found
    | _ => exact claimed
  refine ⟨rfl, rfl, gone, fun id _ => ?_, ⟨wf, .refl _, fun f => (removed_nothing f unclaimed).symm⟩,
    .refl _⟩
  cases tracked : m.containers.lookup id with
  | none => exact .none
  | some state =>
    refine .some ⟨rfl, fun net ips => (and_iff_left_of_imp ?_).symm⟩
    intro found left
    cases (kept id net state left tracked).symm.trans found

variable (laws : env.hickory.RecordLaws) (keep : env.hickory.KeepLaws)
  (wf : WrapperWellFormed m.authorityWrapper) (orders : Orders)

include laws keep wf

theorem die_tornDown (id : String) :
    TornDown env.hickory (m.authorityWrapper.findReverseAuthority orders.reverse)
      (fun r => r = .die id) m (perform env orders m (.die id)) := by
  cases tracked : m.containers.lookup id with
  | none =>
    rw [die_absent orders tracked]
    refine tornDown_absent wf ?_ ?_
    · intro id' same
      cases same
      exact tracked
    · intro id' net state same
      cases same
  | some state =>
    have effect := die_effect orders laws wf tracked
    have performed := perform_operations env orders m (r := .die id) rfl
    refine ⟨effect.catalog, effect.networks, ?_, ?_, ⟨effect.wrapper.wellFormed, effect.wrapper.zones,
      fun f => (effect.wrapper.facts f).trans (removed_congr f fun n ip => ?_)⟩, ?_⟩
    · intro id' same
      cases same
      exact (effect.containers id).trans (if_pos rfl)
    · intro id' other
      rw [effect.containers, if_neg fun same => other (congrArg Request.die same)]
      refine rel_refl (Cut.refl fun net same => ?_) _
      cases same
    · rw [exists_eq_left]
      simp only [Claimed, tracked, Option.some.injEq, exists_eq_left']
    · rw [performed]
      refine (Within.refl _).removes_left laws keep _ ?_ wf
      simp only [containerOperations, tracked]
      intro operation member
      obtain ⟨recorded, _, member⟩ := List.mem_flatMap.mp member
      exact removePairs_removes _ _ _ operation member

theorem disconnect_tornDown (id net : String) :
    TornDown env.hickory (m.authorityWrapper.findReverseAuthority orders.reverse)
      (fun r => r = .disconnect id net) m (perform env orders m (.disconnect id net)) := by
  rcases connected_or_absent m id net with ⟨state, ips, tracked, connected⟩ | absent
  · have effect := disconnect_effect orders laws wf tracked connected
    have performed := perform_operations env orders m (r := .disconnect id net) rfl
    refine ⟨effect.catalog, effect.networks, ?_, ?_, ⟨effect.wrapper.wellFormed, effect.wrapper.zones,
      fun f => (effect.wrapper.facts f).trans (removed_congr f fun n ip => ?_)⟩, ?_⟩
    · intro id' same
      cases same
    · intro id' _
      rw [effect.containers]
      split
      next here =>
        subst here
        rw [tracked]
        refine .some ⟨rfl, fun net' ips => ?_⟩
        rw [FiniteMap.lookup_erase]
        by_cases same : net' = net
        · simp [same]
        · simp [same]
      next other =>
        refine rel_refl (Cut.refl fun net' same => other ?_) _
        cases same
        rfl
    · rw [exists_eq_left]
      constructor
      · intro pair
        exact ⟨state, ips, tracked, connected, pair⟩
      · intro claimed
        obtain ⟨_, _, tracked', connected', pair⟩ := claimed
        cases tracked.symm.trans tracked'
        cases connected.symm.trans connected'
        exact pair
    · rw [performed]
      refine (Within.refl _).removes_left laws keep _ ?_ wf
      simp only [containerOperations, tracked, connected]
      exact removePairs_removes _ _ _
  · rw [disconnect_absent orders absent]
    refine tornDown_absent wf ?_ ?_
    · intro id' same
      cases same
    · intro id' net' state same tracked
      cases same
      exact absent state tracked

end Requests

/-- A container die or a network disconnect. -/
def Teardown (event : Event) : Prop :=
  (event.type = .container ∧ event.action = "die") ∨
    (event.type = .network ∧ event.action = "disconnect")

/-- The request of a teardown event; it depends on the event alone. -/
def teardownRequest (event : Event) : Request :=
  match event.type with
  | .container => .die event.actor.id
  | _ =>
    match event.actor.attributes.lookup "container", event.actor.attributes.lookup "name" with
    | some containerId, some networkName => .disconnect containerId networkName
    | _, _ => .nothing

section Runs
variable {env : Env} {m : Monitor} (laws : env.hickory.RecordLaws) (keep : env.hickory.KeepLaws)
  (wf : WrapperWellFormed m.authorityWrapper)

theorem eventRequest_teardown {input : Input} (teardown : Teardown input.event) :
    eventRequest env m input = teardownRequest input.event := by
  unfold eventRequest teardownRequest
  rcases teardown with ⟨kind, action⟩ | ⟨kind, action⟩
  · rw [kind, action]
    rfl
  · rw [kind, action]
    rfl

include laws keep wf in
theorem handleEvent_tornDown {input : Input} (teardown : Teardown input.event) :
    TornDown env.hickory (m.authorityWrapper.findReverseAuthority input.orders.reverse)
      (fun r => r = teardownRequest input.event) m (m.handleEvent env input).1 := by
  rw [handleEvent_eq, eventRequest_teardown teardown]
  unfold teardownRequest
  split
  · exact die_tornDown laws keep wf input.orders _
  · split
    · exact disconnect_tornDown laws keep wf input.orders _ _
    · refine tornDown_absent wf ?_ ?_
      · intro id same
        cases same
      · intro id net state same
        cases same

include laws keep wf in
/-- A run of teardown events has done their requests, whatever was gone before. -/
theorem consumeEvents_tornDown (disjoint : ZonesDisjoint m.authorityWrapper)
    (order : IterationOrder) (inputs : List Input) (teardown : ∀ input ∈ inputs, Teardown input.event) :
    TornDown env.hickory (m.authorityWrapper.findReverseAuthority order)
      (fun r => ∃ input ∈ inputs, r = teardownRequest input.event) m (m.consumeEvents env inputs) := by
  induction inputs generalizing m with
  | nil =>
    refine tornDown_absent wf ?_ ?_
    · intro id done
      obtain ⟨input, member, _⟩ := done
      cases member
    · intro id net state done
      obtain ⟨input, member, _⟩ := done
      cases member
  | cons input rest ih =>
    have first := handleEvent_tornDown laws keep wf (teardown input List.mem_cons_self)
    rw [cover_order disjoint _ order] at first
    have later := ih first.wrapper.wellFormed (disjoint.of_same first.wrapper.zones)
      fun input member => teardown input (List.mem_cons_of_mem _ member)
    rw [funext (first.wrapper.zones.cover order)] at later
    have both := first.trans later
    simp only [List.exists_mem_cons_iff]
    exact both

end Runs

/-- Dies and disconnects end in the same state in every order. -/
theorem teardown_order_independent {env : Env} (laws : env.hickory.RecordLaws)
    (keep : env.hickory.KeepLaws) {m : Monitor} (wf : WrapperWellFormed m.authorityWrapper)
    (disjoint : ZonesDisjoint m.authorityWrapper) (inputs inputs' : List Input)
    (teardown : ∀ input ∈ inputs, Teardown input.event)
    (perm : (inputs.map Input.event).Perm (inputs'.map Input.event)) :
    SameState Reordered (m.consumeEvents env inputs) (m.consumeEvents env inputs') := by
  have listed : ∀ {P : Event → Prop} {l : List Input},
      (∃ input ∈ l, P input.event) ↔ ∃ event ∈ l.map Input.event, P event := by
    intro P l
    simp
  have teardown' : ∀ input ∈ inputs', Teardown input.event := by
    intro input member
    obtain ⟨input', member', same⟩ := List.mem_map.mp
      (perm.mem_iff.mpr (List.mem_map_of_mem (f := Input.event) member))
    rw [← same]
    exact teardown input' member'
  have torn := consumeEvents_tornDown laws keep wf disjoint .listed inputs teardown
  have torn' := consumeEvents_tornDown laws keep wf disjoint .listed inputs' teardown'
  have same : (fun r => ∃ input ∈ inputs, r = teardownRequest input.event) =
      fun r => ∃ input ∈ inputs', r = teardownRequest input.event := by
    funext r
    rw [listed (P := fun event => r = teardownRequest event),
      listed (P := fun event => r = teardownRequest event)]
    simp only [perm.mem_iff]
  rw [← same] at torn'
  exact torn.unique wf torn'

section Runs
open Reference

theorem teardown_order_independent_web :
    SameState Reordered
      (webRunning.consumeEvents env [disconnectEvent "c" "bridge", dieEvent "c", dieEvent "c"])
      (webRunning.consumeEvents env [dieEvent "c", dieEvent "c", disconnectEvent "c" "bridge"]) :=
  teardown_order_independent hickory_recordLaws hickory_keepLaws webRunning_sound.wellFormed
    webRunning_disjoint _ _
    (by simp [Teardown, disconnectEvent, dieEvent])
    (List.perm_append_singleton _ [(dieEvent "c").event, (dieEvent "c").event]).symm

end Runs
end DockerDns.Guarantees
