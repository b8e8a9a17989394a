import DockerDns.Guarantees.ReachableStates
import DockerDns.Source.Reference

/-!
# Which addresses are served

An address record is owned when a tracked container has its name and has
recorded its address. A start event of a container that is already tracked
overwrites recorded addresses without removing their records, where the connect
path removes them; a rename moves whatever the old name holds and replaces the
names of the container. Ownership survives every run in which neither drops an
address or a name that still has a record.
-/
namespace DockerDns.Guarantees
open Library Source

/-- The request drops no address and no name that still has a record. A tracked
container that is registered again has each served address reported again, or
recorded for a network that is not reported. A rename that changes the name
finds only addresses of the container under the old name and gives it the new
one, and the other names it drops have no record. What another container owns
may go. -/
def KeepsOwners (m : Monitor) : Request → Prop
  | .register id _ networks => ∀ state, m.containers.lookup id = some state →
    ∀ n ip, Named state.names n → Recorded state.networks ip → Address m n ip →
      (∃ net ips, Reports networks net ips ∧ ip ∈ ips.ips) ∨
      (∃ net ips, state.networks.lookup net = some ips ∧ ip ∈ ips.ips ∧
        ¬ ∃ reported, Reports networks net reported) ∨
      OwnedByOther m id n ip
  | .rename id old new names =>
    (LowerName.new old ≠ LowerName.new new → ∀ ip, Address m (LowerName.new old) ip →
      (Named names (LowerName.new new) ∧
        ∃ state, m.containers.lookup id = some state ∧ Recorded state.networks ip) ∨
      OwnedByOther m id (LowerName.new new) ip) ∧
    ∀ state, m.containers.lookup id = some state → ∀ n ip, Named state.names n →
      Recorded state.networks ip → Address m n ip →
      n ≠ LowerName.new old ∨ LowerName.new old = LowerName.new new →
      Named names n ∨ OwnedByOther m id n ip
  | _ => True

section Step
variable {m m' : Monitor} {id : String} {facts : Fact → Prop} {n : LowerName} {ip : IpAddr}

/-- The entry of one container changed: an owner is that entry or another one. -/
private theorem owned_after {entry : Option ContainerState}
    (effect : ContainerEffect m m' id entry facts) : Owned m' n ip ↔
      OwnedByOther m id n ip ∨
        ∃ state, entry = some state ∧ Named state.names n ∧ Recorded state.networks ip := by
  constructor
  · intro owned
    obtain ⟨id', state, tracked, named, recorded⟩ := owned
    rw [effect.containers] at tracked
    split at tracked
    · exact .inr ⟨state, tracked, named, recorded⟩
    next other => exact .inl ⟨id', state, other, tracked, named, recorded⟩
  · intro owner
    rcases owner with ⟨id', state, other, tracked, named, recorded⟩ | ⟨state, rfl, named, recorded⟩
    · exact ⟨id', state, by rw [effect.containers, if_neg other, tracked], named, recorded⟩
    · exact ⟨id, state, by rw [effect.containers, if_pos rfl], named, recorded⟩

private theorem owned_split (owned : Owned m n ip) : OwnedByOther m id n ip ∨
    ∃ state, m.containers.lookup id = some state ∧ Named state.names n ∧
      Recorded state.networks ip := by
  obtain ⟨id', state, tracked, named, recorded⟩ := owned
  by_cases here : id' = id
  · exact .inr ⟨state, here ▸ tracked, named, recorded⟩
  · exact .inl ⟨id', state, here, tracked, named, recorded⟩

end Step

section Requests
variable {env : Env} {orders : Orders} {m m' : Monitor} {id : String} {n : LowerName} {ip : IpAddr}

private theorem owned_registered {names : List Name} {networks : FiniteMap String ContainerNetwork}
    (outcome : Outcome env orders m m' (.register id names networks))
    (keeps : KeepsOwners m (.register id names networks))
    (owned : ∀ n ip, Address m n ip → Owned m n ip) (held : Address m' n ip) : Owned m' n ip := by
  cases outcome with
  | unchanged same => exact same ▸ owned n ip (same ▸ held)
  | registered id names networks after overwritten effect =>
    apply (owned_after effect).mpr
    rcases added_address.mp ((effect.wrapper.facts _).mp held) with old | ⟨named, net, ips, reports, inside⟩
    · rcases owned_split (owned n ip old) with other | ⟨state, tracked, named, recorded⟩
      · exact .inl other
      · rw [entryOr_tracked tracked names] at overwritten ⊢
        rcases keeps state tracked n ip named recorded old with
          ⟨net, ips, reports, inside⟩ | ⟨net, ips, found, inside, silent⟩ | other
        · exact .inr ⟨_, rfl, named, net, ips, (overwritten net ips).mpr (.inl reports), inside⟩
        · exact .inr ⟨_, rfl, named, net, ips, (overwritten net ips).mpr (.inr ⟨silent, found⟩), inside⟩
        · exact .inl other
    · exact .inr ⟨_, rfl, named, net, ips, (overwritten net ips).mpr (.inl reports), inside⟩

private theorem owned_renamed {old new : Name} {names : List Name}
    (outcome : Outcome env orders m m' (.rename id old new names))
    (keeps : KeepsOwners m (.rename id old new names))
    (owned : ∀ n ip, Address m n ip → Owned m n ip) (held : Address m' n ip) : Owned m' n ip := by
  obtain ⟨moves, stays⟩ := keeps
  cases outcome with
  | unchanged same => exact same ▸ owned n ip (same ▸ held)
  | renamed id old new names effect =>
    apply (owned_after effect).mpr
    -- an address that stays under its name keeps an owner
    have remains : ∀ n, Address m n ip →
        n ≠ LowerName.new old ∨ LowerName.new old = LowerName.new new →
        OwnedByOther m id n ip ∨ ∃ state, (m.containers.lookup id).map
          (fun state => { state with names }) = some state ∧ Named state.names n ∧
          Recorded state.networks ip := by
      intro n held unmoved
      rcases owned_split (owned n ip held) with other | ⟨state, tracked, named, recorded⟩
      · exact .inl other
      · rcases stays state tracked n ip named recorded held unmoved with kept | other
        · exact .inr ⟨{ state with names }, by rw [tracked]; rfl, kept, recorded⟩
        · exact .inl other
    rcases renamed_address.mp ((effect.wrapper.facts _).mp held) with ⟨before, unmoved⟩ | ⟨rfl, moved⟩
    · exact remains n before (.inl fun same => unmoved ⟨same, same ▸ before⟩)
    · by_cases same : LowerName.new old = LowerName.new new
      · exact remains _ (same ▸ moved) (.inr same)
      · rcases moves same ip moved with ⟨named, state, tracked, recorded⟩ | other
        · exact .inr ⟨{ state with names }, by rw [tracked]; rfl, named, recorded⟩
        · exact .inl other

private theorem owned_died (outcome : Outcome env orders m m' (.die id))
    (owned : ∀ n ip, Address m n ip → Owned m n ip) (held : Address m' n ip) : Owned m' n ip := by
  cases outcome with
  | unchanged same => exact same ▸ owned n ip (same ▸ held)
  | died id state tracked effect =>
    obtain ⟨before, spared⟩ := removed_address.mp ((effect.wrapper.facts _).mp held)
    apply (owned_after effect).mpr
    rcases owned_split (owned n ip before) with other | ⟨state', tracked', named, recorded⟩
    · exact .inl other
    · cases tracked.symm.trans tracked'
      exact absurd ⟨named, recorded⟩ spared

private theorem owned_connected {net : String} {names : List Name} {ips : NetworkIps}
    (outcome : Outcome env orders m m' (.connect id net names ips))
    (owned : ∀ n ip, Address m n ip → Owned m n ip) (held : Address m' n ip) : Owned m' n ip := by
  cases outcome with
  | unchanged same => exact same ▸ owned n ip (same ▸ held)
  | connected id net names ips effect =>
    have facts := (effect.wrapper.facts _).mp held
    apply (owned_after effect).mpr
    -- an owner other than the replaced addresses is still there
    have remains : Address m n ip → (∀ old, (entryOr m id names).networks.lookup net = some old →
        Named (entryOr m id names).names n → ip ∈ old.ips → ip ∈ ips.ips) →
        OwnedByOther m id n ip ∨ ∃ state, some (⟨(entryOr m id names).names,
          (entryOr m id names).networks.insert net ips⟩ : ContainerState) = some state ∧
          Named state.names n ∧ Recorded state.networks ip := by
      intro before replaced
      rcases owned_split (owned n ip before) with other | ⟨state, tracked, named, net', ips', found, inside⟩
      · exact .inl other
      · rw [entryOr_tracked tracked names] at replaced ⊢
        refine .inr ⟨_, rfl, named, recorded_insert.mpr ?_⟩
        by_cases here : net' = net
        · subst here
          exact .inl (replaced ips' found named inside)
        · exact .inr ⟨net', ips', here, found, inside⟩
    split at facts
    next same =>
      apply remains facts
      intro old found _ inside
      cases same.symm.trans found
      exact inside
    next different =>
      rcases added_address.mp facts with before | ⟨named, inside⟩
      · obtain ⟨before, spared⟩ := removed_address.mp before
        exact remains before fun old found named inside =>
          absurd ⟨named, old, found, inside⟩ spared
      · exact .inr ⟨_, rfl, named, recorded_insert.mpr (.inl inside)⟩

private theorem owned_disconnected {net : String}
    (outcome : Outcome env orders m m' (.disconnect id net))
    (owned : ∀ n ip, Address m n ip → Owned m n ip) (held : Address m' n ip) : Owned m' n ip := by
  cases outcome with
  | unchanged same => exact same ▸ owned n ip (same ▸ held)
  | disconnected id net state ips tracked connected effect =>
    obtain ⟨before, spared⟩ := removed_address.mp ((effect.wrapper.facts _).mp held)
    apply (owned_after effect).mpr
    rcases owned_split (owned n ip before) with
      other | ⟨state', tracked', named, net', ips', found, inside⟩
    · exact .inl other
    · cases tracked.symm.trans tracked'
      have elsewhere : net' ≠ net := by
        intro here
        subst here
        cases connected.symm.trans found
        exact spared ⟨named, inside⟩
      exact .inr ⟨_, rfl, named, recorded_erase.mpr ⟨net', ips', elsewhere, found, inside⟩⟩

end Requests

/-- One request under the condition keeps every address owned. -/
theorem owned_step {env : Env} (laws : env.hickory.RecordLaws) (orders : Orders) {m : Monitor}
    (wf : WrapperWellFormed m.authorityWrapper) (r : Request) (keeps : KeepsOwners m r)
    (owned : ∀ n ip, Address m n ip → Owned m n ip) (n : LowerName) (ip : IpAddr)
    (held : Address (perform env orders m r) n ip) : Owned (perform env orders m r) n ip := by
  have outcome := perform_outcome orders laws wf r
  cases r with
  | nothing => exact owned n ip held
  | register id names networks => exact owned_registered outcome keeps owned held
  | rename id old new names => exact owned_renamed outcome keeps owned held
  | die id => exact owned_died outcome owned held
  | connect id net names ips => exact owned_connected outcome owned held
  | disconnect id net => exact owned_disconnected outcome owned held
  | registerNetwork id config =>
    have frame := registerNetwork_frame orders laws wf id config
    have before : Address m n ip := (frame.facts _).mp held
    simpa only [Owned, frame.containers] using owned n ip before
  | deregisterNetwork id =>
    have frame := deregisterNetwork_frame env orders wf id
    have before : Address m n ip := (frame.facts _).mp held
    simpa only [Owned, frame.containers] using owned n ip before

/-- A request that breaks the condition leaves an address no one owns. -/
theorem keepsOwners_of_owned {env : Env} (laws : env.hickory.RecordLaws) (orders : Orders)
    {m : Monitor} (wf : WrapperWellFormed m.authorityWrapper) (r : Request)
    (owned : ∀ n ip, Address (perform env orders m r) n ip → Owned (perform env orders m r) n ip) :
    KeepsOwners m r := by
  cases r with
  | register id names networks =>
    intro state tracked n ip named recorded held
    obtain ⟨after, overwritten, effect⟩ := register_effect orders laws wf id names networks
    have kept := (effect.wrapper.facts _).mpr (added_address.mpr (.inl held))
    rcases (owned_after effect).mp (owned n ip kept) with other | ⟨_, entry, _, net, ips, found, inside⟩
    · exact .inr (.inr other)
    · cases entry
      rw [entryOr_tracked tracked names] at overwritten
      rcases (overwritten net ips).mp found with reports | ⟨silent, before⟩
      · exact .inl ⟨net, ips, reports, inside⟩
      · exact .inr (.inl ⟨net, ips, before, inside, silent⟩)
  | rename id old new names =>
    have effect := renameRequest_effect orders laws wf id old new names
    refine ⟨fun different ip held => ?_, fun state tracked n ip named recorded held unmoved => ?_⟩
    · have moved := (effect.wrapper.facts _).mpr (renamed_address.mpr (.inr ⟨rfl, held⟩))
      rcases (owned_after effect).mp (owned _ ip moved) with other | ⟨after, entry, named, recorded⟩
      · exact .inr other
      · obtain ⟨state, tracked, rfl⟩ := Option.map_eq_some_iff.mp entry
        exact .inl ⟨named, state, tracked, recorded⟩
    · have kept : Address (perform env orders m (.rename id old new names)) n ip := by
        refine (effect.wrapper.facts _).mpr (renamed_address.mpr ?_)
        by_cases moves : n = LowerName.new old
        · subst moves
          exact .inr ⟨unmoved.resolve_left fun different => different rfl, held⟩
        · exact .inl ⟨held, fun both => moves both.1⟩
      rcases (owned_after effect).mp (owned n ip kept) with other | ⟨after, entry, named, recorded⟩
      · exact .inr other
      · rw [tracked] at entry
        cases entry
        exact .inl named
  | _ => trivial

/-- Every served address is owned; once no container is tracked, the forward
zone holds its SOA and nothing else. -/
def NoStaleAddress (env : Env) (m : Monitor) : Prop :=
  (∀ n ip, Address m n ip → Owned m n ip) ∧
  ((∀ id, m.containers.lookup id = none) → ∀ key,
    m.authorityWrapper.forward.records.lookup key =
      if key = soaKey env.domain then some (soaSet env.domain) else none)

/-- No state of a run serves a stale address exactly when every request of the
run keeps owners. -/
theorem no_stale_address {env : Env} (laws : env.hickory.RecordLaws) {m₀ : Monitor}
    (started : startTasks env = some m₀) (boot : Bootstrap) (inputs : List Input) :
    Throughout (step env) (NoStaleAddress env) m₀ (runSteps boot inputs) ↔
      Along (step env) (fun m s => KeepsOwners m (request env m s)) m₀ (runSteps boot inputs) := by
  have served := forwardServed_throughout laws (runSteps boot inputs)
    (forwardServed_start laws started)
  have empty := (startTasks_empty laws started).2.2.2.2
  have exact : ∀ m s, (∀ n ip, Address m n ip → Owned m n ip) → ForwardServed env m →
      ForwardServed env (step env m s) →
      ((∀ n ip, Address (step env m s) n ip → Owned (step env m s) n ip) ↔
        KeepsOwners m (request env m s)) := by
    intro m s owned served _
    rw [step_eq]
    exact ⟨keepsOwners_of_owned laws s.orders served.wellFormed _,
      fun keeps => owned_step laws s.orders served.wellFormed _ keeps owned⟩
  rw [← throughout_iff_along exact (fun n ip held => absurd held (empty n ip)) served]
  refine ⟨fun all => all.mono fun m both => both.1, fun all => ?_⟩
  refine (all.and served).mono fun m both => ⟨both.1, fun none key => ?_⟩
  refine only_soa_left both.2 (fun n ip held => ?_) key
  obtain ⟨id, state, tracked, _⟩ := both.1 n ip held
  rw [none id] at tracked
  cases tracked

section Runs
open Reference

/-- A container listed at one address and started at another, its death unseen. -/
def missedDeath : Bootstrap where
  networks := some []
  containers := some [⟨"c", "running", ["web"], mapOf [("bridge", v4 0xac110002#32)]⟩]

def restarted : Input :=
  startEvent "c" (some ⟨"/web", ∅, mapOf [("bridge", v4 0xac110003#32)]⟩)

/-- The old address is still served after the start, though nothing owns it. -/
theorem restart_serves_stale_address :
    Address (monitor.dockerEventMonitor env missedDeath [restarted])
        (LowerName.new (name ["web", "docker"])) (.v4 0xac110002#32) ∧
      ¬ Owned (monitor.dockerEventMonitor env missedDeath [restarted])
        (LowerName.new (name ["web", "docker"])) (.v4 0xac110002#32) := by
  constructor <;> decide

/-- A container that starts and dies leaves an empty zone. -/
theorem no_stale_address_start_die :
    Throughout (step env) (NoStaleAddress env) monitor
      (runSteps ⟨some [], some [], .listed⟩ [restarted, dieEvent "c"]) := by
  refine (no_stale_address hickory_recordLaws env_started _ _).mpr ⟨?_, trivial, trivial⟩
  intro state tracked
  have untracked : monitor.containers.lookup "c" = none := rfl
  exact absurd (untracked.symm.trans tracked) nofun

end Runs
end DockerDns.Guarantees
