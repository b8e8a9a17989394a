import DockerDns.Guarantees.Ownership

/-!
# Tracked addresses are served

While no two recorded networks hold one address, every handler but the rename
keeps the records of the names and addresses it tracks. The rename moves all
that the old name holds and takes the names of the event, compose names
included, for the names of the container: it loses no record when no other
container has the old name and each name it records is the new one or one the
container had.
-/
namespace DockerDns.Guarantees
open Library Source

/-- No two recorded networks, of one container or of two, hold the same address. -/
def DistinctAddresses (m : Monitor) : Prop :=
  ∀ id state net ips id' state' net' ips' ip,
    m.containers.lookup id = some state → state.networks.lookup net = some ips → ip ∈ ips.ips →
    m.containers.lookup id' = some state' → state'.networks.lookup net' = some ips' →
    ip ∈ ips'.ips → id = id' ∧ net = net'

instance (m : Monitor) : Decidable (DistinctAddresses m) :=
  decidable_of_iff (∀ entry ∈ m.containers.entries, ∀ network ∈ entry.2.networks.entries,
      ∀ entry' ∈ m.containers.entries, ∀ network' ∈ entry'.2.networks.entries,
      ∀ ip ∈ network.2.ips, ip ∈ network'.2.ips → entry.1 = entry'.1 ∧ network.1 = network'.1) (by
    simp only [DistinctAddresses, Sigma.forall, FiniteMap.mem_entries_iff]
    constructor
    · intro all id state net ips id' state' net' ips' ip h1 h2 h3 h4 h5 h6
      exact all id state h1 net ips h2 id' state' h4 net' ips' h5 ip h3 h6
    · intro all id state h1 net ips h2 id' state' h4 net' ips' h5 ip h3 h6
      exact all id state net ips id' state' net' ips' ip h1 h2 h3 h4 h5 h6)

/-- Every name of a tracked container resolves to every address recorded for it. -/
def Served (m : Monitor) : Prop :=
  ∀ id state n ip, m.containers.lookup id = some state → Named state.names n →
    Recorded state.networks ip → Address m n ip

/-- A rename that takes no record from another container and records only names
under which the records exist: the new name, where the old one has them, or a
name that has them already and does not lose them. -/
def KeepsTracked (m : Monitor) : Request → Prop
  | .rename id old new names =>
    (LowerName.new old ≠ LowerName.new new → ∀ id' state, id' ≠ id →
      m.containers.lookup id' = some state → Named state.names (LowerName.new old) →
      ∀ ip, ¬ Recorded state.networks ip) ∧
    ∀ state, m.containers.lookup id = some state → ∀ n ip, Named names n →
      Recorded state.networks ip →
      (n = LowerName.new new ∧ Address m (LowerName.new old) ip) ∨
      ((n ≠ LowerName.new old ∨ LowerName.new old = LowerName.new new) ∧ Address m n ip)
  | _ => True

/-- The records a request removes have no second owner: no other container with
the name has recorded the address, nor has another network of the container. -/
def SparesOthers (m : Monitor) : Request → Prop
  | .die id => ∀ state n ip, m.containers.lookup id = some state → Named state.names n →
    Recorded state.networks ip → ¬ OwnedByOther m id n ip
  | .connect id net _ ips => ∀ state old n ip, m.containers.lookup id = some state →
    state.networks.lookup net = some old → old ≠ ips → Named state.names n → ip ∈ old.ips →
    ¬ OwnedByOther m id n ip ∧
      ∀ net' ips', state.networks.lookup net' = some ips' → ip ∈ ips'.ips → net' = net
  | .disconnect id net => ∀ state old n ip, m.containers.lookup id = some state →
    state.networks.lookup net = some old → Named state.names n → ip ∈ old.ips →
    ¬ OwnedByOther m id n ip ∧
      ∀ net' ips', state.networks.lookup net' = some ips' → ip ∈ ips'.ips → net' = net
  | _ => True

theorem sparesOthers_of_distinct {m : Monitor} (distinct : DistinctAddresses m) (r : Request) :
    SparesOthers m r := by
  -- an address recorded twice is recorded by one container for one network
  have alone : ∀ id state net ips n ip, m.containers.lookup id = some state →
      state.networks.lookup net = some ips → ip ∈ ips.ips → ¬ OwnedByOther m id n ip := by
    intro id state net ips n ip tracked found inside other
    obtain ⟨id', state', different, tracked', _, net', ips', found', inside'⟩ := other
    exact different (distinct id' state' net' ips' id state net ips ip tracked' found' inside'
      tracked found inside).1
  cases r with
  | die id =>
    intro state n ip tracked _ recorded
    obtain ⟨net, ips, found, inside⟩ := recorded
    exact alone id state net ips n ip tracked found inside
  | connect id net names ips =>
    intro state old n ip tracked found _ _ inside
    refine ⟨alone id state net old n ip tracked found inside, fun net' ips' found' inside' => ?_⟩
    exact (distinct id state net' ips' id state net old ip tracked found' inside' tracked found
      inside).2
  | disconnect id net =>
    intro state old n ip tracked found _ inside
    refine ⟨alone id state net old n ip tracked found inside, fun net' ips' found' inside' => ?_⟩
    exact (distinct id state net' ips' id state net old ip tracked found' inside' tracked found
      inside).2
  | _ => trivial

/-- The entries of the other containers are as before. -/
private theorem served_elsewhere {m m' : Monitor} {id : String} {entry : Option ContainerState}
    {facts : Fact → Prop} (effect : ContainerEffect m m' id entry facts)
    (others : ∀ id' state n ip, id' ≠ id → m.containers.lookup id' = some state →
      Named state.names n → Recorded state.networks ip → facts (.address n ip))
    (here : ∀ state n ip, entry = some state → Named state.names n →
      Recorded state.networks ip → facts (.address n ip)) : Served m' := by
  intro id' state n ip tracked named recorded
  rw [effect.containers] at tracked
  refine (effect.wrapper.facts _).mpr ?_
  split at tracked
  · exact here state n ip tracked named recorded
  next other => exact others id' state n ip other tracked named recorded

section Requests
variable {env : Env} {orders : Orders} {m m' : Monitor} {id : String}

private theorem served_registered {names : List Name} {networks : FiniteMap String ContainerNetwork}
    (outcome : Outcome env orders m m' (.register id names networks)) (served : Served m) :
    Served m' := by
  cases outcome with
  | unchanged same => exact same ▸ served
  | registered id names networks after overwritten effect =>
    refine served_elsewhere effect (fun id' state n ip _ tracked named recorded => ?_)
      fun state n ip entry named recorded => ?_
    · exact added_address.mpr (.inl (served id' state n ip tracked named recorded))
    · cases entry
      obtain ⟨net, ips, found, inside⟩ := recorded
      rw [added_address]
      rcases (overwritten net ips).mp found with reports | ⟨_, before⟩
      · exact .inr ⟨named, net, ips, reports, inside⟩
      · have recorded : Recorded (entryOr m id names).networks ip := ⟨net, ips, before, inside⟩
        exact .inl (served id _ n ip (entryOr_recorded recorded) named recorded)

private theorem served_renamed {old new : Name} {names : List Name}
    (outcome : Outcome env orders m m' (.rename id old new names))
    (keeps : KeepsTracked m (.rename id old new names)) (served : Served m) : Served m' := by
  obtain ⟨others, own⟩ := keeps
  cases outcome with
  | unchanged same => exact same ▸ served
  | renamed id old new names effect =>
    refine served_elsewhere effect (fun id' state n ip other tracked named recorded => ?_)
      fun state n ip entry named recorded => ?_
    · have held := served id' state n ip tracked named recorded
      rw [renamed_address]
      by_cases moves : n = LowerName.new old
      · subst moves
        by_cases same : LowerName.new old = LowerName.new new
        · exact .inr ⟨same, held⟩
        · exact absurd recorded (others same id' state other tracked named ip)
      · exact .inl ⟨held, fun both => moves both.1⟩
    · obtain ⟨before, tracked, rfl⟩ := Option.map_eq_some_iff.mp entry
      rw [renamed_address]
      rcases own before tracked n ip named recorded with ⟨rfl, moved⟩ | ⟨unmoved, held⟩
      · exact .inr ⟨rfl, moved⟩
      · by_cases moves : n = LowerName.new old
        · subst moves
          exact .inr ⟨unmoved.resolve_left fun different => different rfl, held⟩
        · exact .inl ⟨held, fun both => moves both.1⟩

private theorem served_died (outcome : Outcome env orders m m' (.die id))
    (spares : SparesOthers m (.die id)) (served : Served m) : Served m' := by
  cases outcome with
  | unchanged same => exact same ▸ served
  | died id state tracked effect =>
    refine served_elsewhere effect (fun id' state' n ip other tracked' named recorded => ?_)
      fun state n ip entry => by cases entry
    apply removed_address.mpr
    refine ⟨served id' state' n ip tracked' named recorded, fun removed => ?_⟩
    exact spares state n ip tracked removed.1 removed.2 ⟨id', state', other, tracked', named, recorded⟩

private theorem served_connected {net : String} {names : List Name} {ips : NetworkIps}
    (outcome : Outcome env orders m m' (.connect id net names ips))
    (spares : SparesOthers m (.connect id net names ips)) (served : Served m) : Served m' := by
  cases outcome with
  | unchanged same => exact same ▸ served
  | connected id net names ips effect =>
    refine served_elsewhere effect (fun id' state n ip other tracked named recorded => ?_)
      fun state n ip entry named recorded => ?_
    · have held := served id' state n ip tracked named recorded
      split
      · exact held
      next changed =>
        apply added_address.mpr
        refine .inl (removed_address.mpr ⟨held, fun removed => ?_⟩)
        obtain ⟨named', old, found, inside⟩ := removed
        have different : old ≠ ips := fun same => changed (same ▸ found)
        have tracked' := entryOr_recorded ⟨net, old, found, inside⟩
        exact (spares _ old n ip tracked' found different named' inside).1
          ⟨id', state, other, tracked, named, recorded⟩
    · cases entry
      rcases recorded_insert.mp recorded with inside | ⟨net', ips', otherNet, found, inside⟩
      · split
        next same =>
          have recorded : Recorded (entryOr m id names).networks ip := ⟨net, ips, same, inside⟩
          exact served id _ n ip (entryOr_recorded recorded) named recorded
        next => exact added_address.mpr (.inr ⟨named, inside⟩)
      · have recorded : Recorded (entryOr m id names).networks ip := ⟨net', ips', found, inside⟩
        have tracked := entryOr_recorded recorded
        have held := served id _ n ip tracked named recorded
        split
        · exact held
        next changed =>
          apply added_address.mpr
          refine .inl (removed_address.mpr ⟨held, fun removed => ?_⟩)
          obtain ⟨_, old, foundOld, insideOld⟩ := removed
          have different : old ≠ ips := fun same => changed (same ▸ foundOld)
          exact otherNet ((spares _ old n ip tracked foundOld different named insideOld).2 net' ips'
            found inside)

private theorem served_disconnected {net : String}
    (outcome : Outcome env orders m m' (.disconnect id net))
    (spares : SparesOthers m (.disconnect id net)) (served : Served m) : Served m' := by
  cases outcome with
  | unchanged same => exact same ▸ served
  | disconnected id net state ips tracked connected effect =>
    refine served_elsewhere effect (fun id' state' n ip other tracked' named recorded => ?_)
      fun state' n ip entry named recorded => ?_
    · apply removed_address.mpr
      refine ⟨served id' state' n ip tracked' named recorded, fun removed => ?_⟩
      exact (spares state ips n ip tracked connected removed.1 removed.2).1
        ⟨id', state', other, tracked', named, recorded⟩
    · cases entry
      obtain ⟨net', ips', otherNet, found, inside⟩ := recorded_erase.mp recorded
      apply removed_address.mpr
      refine ⟨served id state n ip tracked named ⟨net', ips', found, inside⟩, fun removed => ?_⟩
      exact otherNet ((spares state ips n ip tracked connected named removed.2).2 net' ips' found
        inside)

end Requests

theorem served_step {env : Env} (laws : env.hickory.RecordLaws) (orders : Orders) {m : Monitor}
    (wf : WrapperWellFormed m.authorityWrapper) (r : Request) (spares : SparesOthers m r)
    (keeps : KeepsTracked m r) (served : Served m) : Served (perform env orders m r) := by
  have outcome := perform_outcome orders laws wf r
  have networks : ∀ {m'}, NetworkFrame m m' → Served m' := by
    intro m' frame id state n ip tracked named recorded
    rw [frame.containers] at tracked
    exact (frame.facts _).mpr (served id state n ip tracked named recorded)
  cases r with
  | nothing => exact served
  | register id names networks => exact served_registered outcome served
  | rename id old new names => exact served_renamed outcome keeps served
  | die id => exact served_died outcome spares served
  | connect id net names ips => exact served_connected outcome spares served
  | disconnect id net => exact served_disconnected outcome spares served
  | registerNetwork id config => exact networks (registerNetwork_frame orders laws wf id config)
  | deregisterNetwork id => exact networks (deregisterNetwork_frame env orders wf id)

/-- A rename that breaks the condition loses a tracked address. -/
theorem keepsTracked_of_served {env : Env} (laws : env.hickory.RecordLaws) (orders : Orders)
    {m : Monitor} (wf : WrapperWellFormed m.authorityWrapper) (r : Request)
    (served : Served m) (after : Served (perform env orders m r)) : KeepsTracked m r := by
  cases r with
  | rename id old new names =>
    have effect := renameRequest_effect orders laws wf id old new names
    have address : ∀ n ip, Address (perform env orders m (.rename id old new names)) n ip ↔ _ :=
      fun n ip => (effect.wrapper.facts (.address n ip)).trans renamed_address
    refine ⟨fun different id' state other tracked named ip recorded => ?_,
      fun state tracked n ip named recorded => ?_⟩
    · have unchanged : (perform env orders m (.rename id old new names)).containers.lookup id' =
          some state := by rw [effect.containers, if_neg other, tracked]
      have held := served id' state _ ip tracked named recorded
      rcases (address _ ip).mp (after id' state _ ip unchanged named recorded) with
        ⟨_, unmoved⟩ | ⟨same, _⟩
      · exact unmoved ⟨rfl, held⟩
      · exact different same
    · have changed : (perform env orders m (.rename id old new names)).containers.lookup id =
          some { state with names } := by
        rw [effect.containers, if_pos rfl, tracked]
        rfl
      rcases (address n ip).mp (after id _ n ip changed named recorded) with
        ⟨held, unmoved⟩ | ⟨isNew, moved⟩
      · exact .inr ⟨.inl fun same => unmoved ⟨same, same ▸ held⟩, held⟩
      · exact .inl ⟨isNew, moved⟩
  | _ => trivial

/-- While the recorded addresses are distinct, no state of a run has lost a
tracked address exactly when every rename of the run keeps what is tracked. -/
theorem no_lost_address {env : Env} (laws : env.hickory.RecordLaws) {m₀ : Monitor}
    (started : startTasks env = some m₀) (boot : Bootstrap) (inputs : List Input)
    (distinct : Throughout (step env) DistinctAddresses m₀ (runSteps boot inputs)) :
    Throughout (step env) Served m₀ (runSteps boot inputs) ↔
      Along (step env) (fun m s => KeepsTracked m (request env m s)) m₀ (runSteps boot inputs) := by
  have wellFormed := forwardServed_throughout laws (runSteps boot inputs)
    (forwardServed_start laws started)
  have untracked := (startTasks_empty laws started).1
  refine throughout_iff_along (fun m s served both _ => ?_) ?_ (distinct.and wellFormed)
  · rw [step_eq]
    exact ⟨keepsTracked_of_served laws s.orders both.2.wellFormed _ served,
      fun keeps => served_step laws s.orders both.2.wellFormed _
        (sparesOthers_of_distinct both.1 _) keeps served⟩
  · intro id state n ip tracked
    rw [untracked] at tracked
    cases tracked

section Runs
open Reference

/-- A compose container, listed at startup under its container name alone. -/
def listedCompose : Bootstrap where
  networks := some []
  containers := some [⟨"c", "running", ["web"], mapOf [("shop_default", v4 0xac120002#32)]⟩]

def renamedCompose : Input :=
  renameEvent "c" "/web" "www"
    [("com.docker.compose.service", "web"), ("com.docker.compose.project", "shop")]

/-- The rename records compose names no record was ever made for. -/
theorem rename_loses_compose_name :
    Throughout (step env) DistinctAddresses monitor (runSteps listedCompose [renamedCompose]) ∧
      ¬ Served (monitor.dockerEventMonitor env listedCompose [renamedCompose]) := by
  refine ⟨⟨by decide, by decide, show DistinctAddresses _ by decide⟩, fun served => ?_⟩
  have tracked : ∃ state, (monitor.dockerEventMonitor env listedCompose
      [renamedCompose]).containers.lookup "c" = some state ∧
      Named state.names (LowerName.new (name ["web", "shop", "docker"])) ∧
      Recorded state.networks (.v4 0xac120002#32) := by
    refine ⟨_, rfl, ?_, ?_⟩ <;> decide
  obtain ⟨state, tracked, named, recorded⟩ := tracked
  have held := served "c" state _ _ tracked named recorded
  revert held
  decide

/-- A container that is listed and renamed stays resolvable. -/
theorem no_lost_address_rename :
    Throughout (step env) Served monitor
      (runSteps listedCompose [renameEvent "c" "/web" "www" []]) := by
  have distinct : Throughout (step env) DistinctAddresses monitor
      (runSteps listedCompose [renameEvent "c" "/web" "www" []]) :=
    ⟨by decide, by decide, show DistinctAddresses _ by decide⟩
  refine (no_lost_address hickory_recordLaws env_started _ _ distinct).mpr
    ⟨trivial, ⟨fun _ id' state other tracked => ?_, fun state tracked n ip named recorded => ?_⟩,
      trivial⟩
  · have other : id' ≠ "c" := other
    have untracked := (FiniteMap.lookup_insert ∅ "c" id' _).symm.trans tracked
    rw [if_neg other] at untracked
    cases untracked
  · cases tracked
    obtain ⟨net, ips, found, inside⟩ := recorded
    have found := (FiniteMap.lookup_insert ∅ "shop_default" net _).symm.trans found
    split at found
    · cases found
      obtain rfl := List.mem_singleton.mp inside
      obtain ⟨_, member, rfl⟩ := named
      obtain rfl := List.mem_singleton.mp member
      exact .inl (by decide)
    · cases found

end Runs
end DockerDns.Guarantees
