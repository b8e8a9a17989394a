import DockerDns.Guarantees.RenameSpelling

/-!
# Every event is idempotent

Start-up overlaps the listing with the events, so what was seen already is
delivered again. The second request of an event is the first one once more,
except that a network already created asks for nothing. Each request finds its
work done, up to the order of records.
-/
namespace DockerDns.Guarantees
open Library Source

/-- Two inspect results that differ in the order of their maps at most. -/
structure SameReport (a b : ContainerInspect) : Prop where
  name : a.name = b.name
  labels : ∀ label, a.labels.lookup label = b.labels.lookup label
  networks : ∀ net, a.networks.lookup net = b.networks.lookup net

/-- The same event with the same inspect results, whatever the iteration orders. -/
structure Redelivered (input again : Input) : Prop where
  event : again.event = input.event
  inspectContainer : Option.Rel SameReport input.inspectContainer again.inspectContainer
  inspectNetwork : again.inspectNetwork = input.inspectNetwork

theorem Redelivered.refl (input : Input) : Redelivered input input :=
  ⟨rfl, rel_refl (fun _ => ⟨rfl, fun _ => rfl, fun _ => rfl⟩) _, rfl⟩

/-- The second request of an event that is handled twice. -/
inductive Repeats : Request → Request → Prop
  | same {r : Request} (stays : ∀ id config, r ≠ .registerNetwork id config) : Repeats r r
  | register (id : String) (names : List Name) {networks networks' : FiniteMap String ContainerNetwork}
      (reported : ∀ net, networks.lookup net = networks'.lookup net) :
      Repeats (.register id names networks) (.register id names networks')
  | created (id : String) (config : List (Option IpNet)) :
      Repeats (.registerNetwork id config) .nothing

section Requests
variable {env : Env}

theorem connectRequest_congr (event : Event) {a b : Option ContainerInspect}
    (same : Option.Rel SameReport a b) : connectRequest env event a = connectRequest env event b := by
  cases same with
  | none => rfl
  | some same =>
    unfold connectRequest
    cases event.actor.attributes.lookup "container" with
    | none => rfl
    | some containerId =>
      cases event.actor.attributes.lookup "name" with
      | none => rfl
      | some networkName => simp only [inspectNames_congr same.name same.labels, same.networks]

theorem eventRequest_repeats (env : Env) (orders : Orders) (m : Monitor) {input again : Input}
    (redelivered : Redelivered input again) :
    Repeats (eventRequest env m input)
      (eventRequest env (perform env orders m (eventRequest env m input)) again) := by
  obtain ⟨event, inspect, inspectNetwork⟩ := redelivered
  have other : ∀ {r : Request}, container r ≠ none ∨ r = .nothing → Repeats r r := by
    intro r kind
    refine .same fun id config same => ?_
    subst same
    simp [container] at kind
  unfold eventRequest
  rw [event]
  cases input.event.type with
  | container =>
    dsimp only
    split_ifs
    · generalize input.inspectContainer = first, again.inspectContainer = second at inspect
      cases inspect with
      | none => exact other (.inr rfl)
      | some same =>
        dsimp only
        rw [inspectNames_congr same.name same.labels]
        exact .register _ _ same.networks
    · refine .same fun id config => ?_
      unfold renameRequest
      split
      · split <;> simp
      · simp
    · exact other (.inl (by simp [container]))
    · exact other (.inr rfl)
  | network =>
    dsimp only
    split_ifs
    · rw [connectRequest_congr _ inspect]
      refine .same fun id config => ?_
      unfold connectRequest
      split
      · split <;> simp
      · simp
    · refine .same fun id config => ?_
      split <;> simp
    · rw [inspectNetwork]
      cases registered : m.networks.lookup input.event.actor.id with
      | some zones =>
        simp only [perform, registered]
        exact other (.inr rfl)
      | none =>
        cases input.inspectNetwork with
        | none =>
          simp only [perform, registered]
          exact other (.inr rfl)
        | some inspect =>
          simp only [perform, Monitor.registerNetwork, FiniteMap.lookup_insert, if_true]
          exact .created _ _
    · exact .same (by simp)
    · exact other (.inr rfl)
  | _ => exact other (.inr rfl)

end Requests

/-- A rename of a name to itself adds what is missing of its pairs, once. -/
theorem respelled_facts {hk : Hickory} {cover : IpAddr → Option Handle} {n : LowerName}
    {before : Fact → Prop} (f : Fact) :
    Renamed hk cover n n
        (fun ip => Renamed hk cover n n (fun ip => before (.address n ip)) before (.address n ip))
        (Renamed hk cover n n (fun ip => before (.address n ip)) before) f ↔
      Renamed hk cover n n (fun ip => before (.address n ip)) before f := by
  simp only [renamed_self fun _ moved => moved]
  by_cases moves : ∃ ip, before (.address n ip) ∧ PairFact hk cover n ip f
  · exact iff_of_true (.inr moves) (.inr moves)
  · rw [Renamed, or_iff_left moves, and_iff_left moves]

section Again
variable {env : Env} {m : Monitor} (laws : env.hickory.RecordLaws) (keep : env.hickory.KeepLaws)
  (wf : WrapperWellFormed m.authorityWrapper) (disjoint : ZonesDisjoint m.authorityWrapper)
  (orders again : Orders)

theorem sameState_of_eq {m m' : Monitor} (same : m' = m) : SameState Reordered m' m := by
  rw [same]
  exact SameState.refl id id m

include laws keep wf disjoint in
theorem register_again (id : String) (names : List Name)
    {networks networks' : FiniteMap String ContainerNetwork}
    (reported : ∀ net, networks.lookup net = networks'.lookup net) :
    SameState Reordered
      (perform env again (perform env orders m (.register id names networks))
        (.register id names networks'))
      (perform env orders m (.register id names networks)) := by
  obtain ⟨after, overwritten, effect⟩ := register_effect orders laws wf id names networks
  generalize once : perform env orders m (.register id names networks) = m₁ at *
  have wf₁ := effect.wrapper.wellFormed
  obtain ⟨after', overwritten', effect'⟩ := register_effect again laws wf₁ id names networks'
  have grown := perform_operations env again m₁ (r := .register id names networks') rfl
  generalize perform env again m₁ (.register id names networks') = m₂ at *
  have tracked := (effect.containers id).trans (if_pos rfl)
  rw [← reports_congr reported, entryOr_tracked tracked] at overwritten' effect'
  refine effect'.sameState (.refl wf₁ id) ?_ ?_
  · rw [tracked]
    refine .some ⟨rfl, fun net => Option.ext fun ips => ?_⟩
    rw [overwritten', overwritten]
    tauto
  · have wf₂ := effect'.wrapper.wellFormed
    have adds : Within m₁.authorityWrapper m₂.authorityWrapper := by
      rw [grown]
      refine Within.run_right laws keep wf₁ _ ?_ wf₁ (.refl _) (.refl _)
      intro operation member
      obtain ⟨reported, _, member⟩ := List.mem_flatMap.mp member
      unfold reportPairs at member
      cases found : NetworkIps.fromNetwork reported.2 with
      | none =>
        rw [found] at member
        cases member
      | some ips =>
        rw [found] at member
        obtain ⟨ip, _, member⟩ := List.mem_flatMap.mp member
        obtain ⟨name, _, rfl⟩ := List.mem_map.mp member
        trivial
    refine sameSets_of_within wf₂ wf₁ wf₂ effect'.wrapper.zones.symm (.refl _) adds ?_
    intro f
    rw [effect'.wrapper.facts, Added, or_iff_left_iff_imp]
    intro added
    rw [effect.wrapper.facts]
    right
    rwa [funext (effect.wrapper.zones.cover again.reverse), cover_order disjoint _ orders.reverse]
      at added

include laws wf in
/-- The second connect finds the network recorded with the same addresses. -/
theorem connect_again (id net : String) (names : List Name) (ips : NetworkIps) :
    SameState Reordered
      (perform env again (perform env orders m (.connect id net names ips))
        (.connect id net names ips))
      (perform env orders m (.connect id net names ips)) := by
  have effect := connect_effect orders laws wf id net names ips
  generalize perform env orders m (.connect id net names ips) = m₁ at *
  have entry := entryOr_tracked ((effect.containers id).trans (if_pos rfl)) names
  have recorded : (entryOr m₁ id names).networks.lookup net = some ips := by
    rw [entry]
    exact (FiniteMap.lookup_insert _ _ _ _).trans (if_pos rfl)
  unfold entryOr at entry recorded
  simp only [perform, Monitor.connectNetwork, if_pos recorded]
  refine ⟨fun _ => rfl, fun _ => rfl, ?_, fun _ => rfl, .refl _ _ _⟩
  intro id'
  rw [FiniteMap.lookup_insert, entry]
  split
  next here =>
    rw [here, effect.containers, if_pos rfl]
    refine .some ⟨rfl, fun net' => ?_⟩
    simp only [FiniteMap.lookup_insert]
    split <;> rfl
  next => exact rel_refl SameEntry.refl _

theorem die_again (id : String) :
    perform env again (perform env orders m (.die id)) (.die id) =
      perform env orders m (.die id) :=
  die_absent again (die_gone m orders id)

include laws wf in
theorem disconnect_again (id net : String) :
    perform env again (perform env orders m (.disconnect id net)) (.disconnect id net) =
      perform env orders m (.disconnect id net) := by
  apply disconnect_absent
  intro state after
  rcases connected_or_absent m id net with ⟨before, ips, tracked, connected⟩ | absent
  · rw [(disconnect_effect orders laws wf tracked connected).containers, if_pos rfl] at after
    cases after
    exact (FiniteMap.lookup_erase _ _ _).trans (if_pos rfl)
  · rw [disconnect_absent orders absent] at after
    exact absent state after

include laws keep disjoint in
/-- The second rename finds nothing under the old name, or, where the names
agree ignoring case, what the first one put there. -/
theorem rename_again (names : env.hickory.NameLaws) (sound : TableSound env.hickory m.authorityWrapper) (id : String)
    (old new : Name) (newNames : List Name) :
    SameState Reordered
      (perform env again (perform env orders m (.rename id old new newNames))
        (.rename id old new newNames))
      (perform env orders m (.rename id old new newNames)) := by
  have effect := renameRequest_effect orders laws sound.wellFormed id old new newNames
  have wf₁ := effect.wrapper.wellFormed
  have effect' := renameRequest_effect again laws wf₁ id old new newNames
  refine effect'.sameState (.refl wf₁ id) ?_ ?_
  · rw [effect.containers, if_pos rfl, Option.map_map]
    exact rel_refl SameEntry.refl _
  · by_cases same : LowerName.new old = LowerName.new new
    · refine sameSets_of_within effect'.wrapper.wellFormed wf₁ wf₁ effect'.wrapper.zones.symm ?_
        (.refl _) fun f => ?_
      · have within := respelled_again orders.reverse laws keep names sound.wellFormed sound.made new
          again.reverse (cover_order disjoint _ _)
        simpa only [perform, renameContainer, respelled, same] using within
      · rw [effect'.wrapper.facts, funext (effect.wrapper.zones.cover again.reverse),
          cover_order disjoint again.reverse orders.reverse, same]
        have facts := funext fun f => propext (effect.wrapper.facts f)
        rw [facts, same]
        exact respelled_facts f
    · have gone : ∀ ip, ¬ Has (perform env orders m (.rename id old new newNames)).authorityWrapper
          (.address (LowerName.new old) ip) := by
        intro ip held
        rw [effect.wrapper.facts, renamed_address] at held
        rcases held with ⟨before, stays⟩ | ⟨equal, _⟩
        · exact stays ⟨rfl, before⟩
        · exact same equal
      have vacant := fun t (plain : t ≠ .soa) =>
        vacant_of_no_address (t := t) wf₁ plain fun ip _ => gone ip
      generalize perform env orders m (.rename id old new newNames) = m₁ at vacant ⊢
      have unmoved : (perform env again m₁ (.rename id old new newNames)).authorityWrapper =
          m₁.authorityWrapper := by
        simp only [perform, renameContainer, AuthorityWrapper.renameRecords,
          vacant .a (by simp), vacant .aaaa (by simp), Option.getD_none]
      rw [unmoved]
      exact .refl _ _ _

include laws keep disjoint in
/-- Each request finds its work done. -/
theorem perform_again (names : env.hickory.NameLaws)
    (sound : TableSound env.hickory m.authorityWrapper) {r r' : Request} (repeats : Repeats r r') :
    SameState Reordered (perform env again (perform env orders m r) r')
      (perform env orders m r) := by
  have wf := sound.wellFormed
  cases repeats with
  | created id config => exact .refl _ _ _
  | register id fullNames reported =>
    exact register_again laws keep wf disjoint orders again id fullNames reported
  | same stays =>
    cases r with
    | nothing => exact .refl _ _ _
    | register id fullNames networks =>
      exact register_again laws keep wf disjoint orders again id fullNames fun _ => rfl
    | rename id old new newNames =>
      exact rename_again laws keep disjoint orders again names sound id old new newNames
    | die id => exact sameState_of_eq (die_again orders again id)
    | connect id net fullNames ips =>
      exact connect_again laws wf orders again id net fullNames ips
    | disconnect id net => exact sameState_of_eq (disconnect_again laws wf orders again id net)
    | registerNetwork id config => exact absurd rfl (stays id config)
    | deregisterNetwork id =>
      apply sameState_of_eq
      apply deregisterNetwork_absent
      cases found : m.networks.lookup id with
      | none =>
        rw [deregisterNetwork_absent orders found]
        exact found
      | some nets =>
        rw [deregisterNetwork_eq orders found, (deregisterZones_removed names nets _).networks,
          FiniteMap.lookup_erase, if_pos rfl]

end Again

/-- Handling an event again, with the same inspect results, changes nothing but
the order of records. -/
theorem event_idempotent {env : Env} (laws : env.hickory.RecordLaws)
    (keep : env.hickory.KeepLaws) (names : env.hickory.NameLaws) {m : Monitor}
    (sound : TableSound env.hickory m.authorityWrapper) (disjoint : ZonesDisjoint m.authorityWrapper)
    (input again : Input) (redelivered : Redelivered input again) :
    SameState Reordered ((m.handleEvent env input).1.handleEvent env again).1
      (m.handleEvent env input).1 := by
  have repeats := eventRequest_repeats env input.orders m redelivered
  rw [handleEvent_eq, handleEvent_eq]
  exact perform_again laws keep disjoint input.orders again.orders names sound repeats

section Runs
open Reference

/-- A rename to the same name in capitals, delivered twice. -/
theorem event_idempotent_capitals :
    SameState Reordered
      ((({ monitor with authorityWrapper := webServed }).handleEvent env
        (renameEvent "c" "/web" "WEB" [])).1.handleEvent env (renameEvent "c" "/web" "WEB" [])).1
      (({ monitor with authorityWrapper := webServed }).handleEvent env
        (renameEvent "c" "/web" "WEB" [])).1 :=
  event_idempotent hickory_recordLaws hickory_keepLaws hickory_nameLaws webServed_sound
    webServed_disjoint _ _ (.refl _)

end Runs
end DockerDns.Guarantees
