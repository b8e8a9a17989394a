import DockerDns.Guarantees.TableStates

/-!
# The start path and the connect path

A start writes a reported network over whatever the entry had recorded. A
connect compares first: the same addresses are left alone, other ones lose their
records. The two come to the same state exactly when the records at the time of
the event already fit the recorded addresses in one respect for each path.
-/
namespace DockerDns.Guarantees
open Library Source

/-- What both paths rely on where a network was recorded with `old` and is now
reported with `ips`: no record is left of an address it no longer has, and with
the addresses unchanged every record of theirs is in place. -/
structure InStep (hk : Hickory) (cover : IpAddr → Option Handle) (names : List Name)
    (old ips : NetworkIps) (before : Fact → Prop) : Prop where
  dropped : ∀ n ip, Named names n → ip ∈ old.ips → ip ∉ ips.ips → ¬ before (.address n ip)
  kept : old = ips → ∀ n ip f, Named names n → ip ∈ ips.ips → PairFact hk cover n ip f → before f

/-- The report has this network with addresses, and no other one. -/
def ReportsOnly (networks : FiniteMap String ContainerNetwork) (net : String) (ips : NetworkIps) :
    Prop :=
  ∀ net' ips', Reports networks net' ips' ↔ net' = net ∧ ips' = ips

/-- Both paths leave the same state, without the records of dropped addresses. -/
structure PathsAgree (entry : ContainerState) (net : String) (ips : NetworkIps)
    (registered connected : Monitor) : Prop where
  same : SameState Respelled registered connected
  dropped : ∀ old n ip, entry.networks.lookup net = some old → Named entry.names n →
    ip ∈ old.ips → ip ∉ ips.ips → ¬ Address registered n ip ∧ ¬ Address connected n ip

section Facts
variable {hk : Hickory} {cover : IpAddr → Option Handle} {names : List Name} {old ips : NetworkIps}
  {before : Fact → Prop}

/-- Writing over an entry without a look at it, against the two cases of a connect. -/
theorem inStep_iff : InStep hk cover names old ips before ↔
    ∀ f, Added hk cover (fun n ip => Named names n ∧ ip ∈ ips.ips) before f ↔
      if old = ips then before f
      else Added hk cover (fun n ip => Named names n ∧ ip ∈ ips.ips)
        (Removed hk cover (fun n ip => Named names n ∧ ip ∈ old.ips) before) f := by
  by_cases same : old = ips
  · subst same
    simp only [if_true]
    constructor
    · intro inStep f
      refine ⟨?_, .inl⟩
      intro held
      rcases held with held | ⟨n, ip, ⟨named, inside⟩, pair⟩
      · exact held
      · exact inStep.kept rfl n ip f named inside pair
    · intro agree
      refine ⟨fun n ip _ inside absent => absurd inside absent, ?_⟩
      intro _ n ip f named inside pair
      exact (agree f).mp (.inr ⟨n, ip, ⟨named, inside⟩, pair⟩)
  · simp only [if_neg same]
    constructor
    · intro inStep f
      refine ⟨?_, Or.imp_left And.left⟩
      intro held
      rcases held with held | added
      · by_cases gone : ∃ n ip, (Named names n ∧ ip ∈ old.ips) ∧ before (.address n ip) ∧
            PairFact hk cover n ip f
        · -- a pair that goes and was served is one of the pairs that come back
          obtain ⟨n, ip, ⟨named, inside⟩, served, pair⟩ := gone
          refine .inr ⟨n, ip, ⟨named, ?_⟩, pair⟩
          by_contra absent
          exact inStep.dropped n ip named inside absent served
        · exact .inl ⟨held, gone⟩
      · exact .inr added
    · intro agree
      refine ⟨?_, fun equal => absurd equal same⟩
      intro n ip named inside absent served
      have kept := (agree (.address n ip)).mp (.inl served)
      rw [added_address, removed_address] at kept
      rcases kept with ⟨_, gone⟩ | ⟨_, back⟩
      · exact gone ⟨named, inside⟩
      · exact absent back

end Facts

section Paths
variable {env : Env} {m : Monitor}

/-- The two entries record the same networks. -/
theorem overwritten_only {networks : FiniteMap String ContainerNetwork} {net : String}
    {ips : NetworkIps} (only : ReportsOnly networks net ips)
    {before after : FiniteMap String NetworkIps}
    (overwritten : Overwritten (Reports networks) before after) (net' : String) :
    after.lookup net' = (before.insert net ips).lookup net' := by
  apply Option.ext
  intro ips'
  rw [FiniteMap.lookup_insert, overwritten, only]
  by_cases here : net' = net
  · simp [here, only net, eq_comm]
  · simp [here, only net']

/-- The two paths from a sound state, for a network recorded or not. -/
theorem pathsAgree_iff (laws : env.hickory.RecordLaws) (keep : env.hickory.KeepLaws)
    (nameLaws : env.hickory.NameLaws) (sound : TableSound env.hickory m.authorityWrapper)
    (orders : Orders) (id : String) (names : List Name) {net : String} {ips : NetworkIps}
    {networks : FiniteMap String ContainerNetwork} (only : ReportsOnly networks net ips) :
    PathsAgree (entryOr m id names) net ips (perform env orders m (.register id names networks))
        (perform env orders m (.connect id net names ips)) ↔
      ∀ old, (entryOr m id names).networks.lookup net = some old →
        InStep env.hickory (m.authorityWrapper.findReverseAuthority orders.reverse)
          (entryOr m id names).names old ips (Has m.authorityWrapper) := by
  have soundR := perform_sound laws keep nameLaws sound orders
    (r := .register id names networks) trivial
  have soundC := perform_sound laws keep nameLaws sound orders
    (r := .connect id net names ips) trivial
  obtain ⟨after, overwritten, registered⟩ :=
    register_effect orders laws sound.wellFormed id names networks
  have connected := connect_effect orders laws sound.wellFormed id net names ips
  generalize perform env orders m (.register id names networks) = a at soundR registered ⊢
  generalize perform env orders m (.connect id net names ips) = b at soundC connected ⊢
  generalize entryOr m id names = entry at overwritten registered connected ⊢
  have added : (fun n ip => Named entry.names n ∧ ∃ net' ips', Reports networks net' ips' ∧
      ip ∈ ips'.ips) = fun n ip => Named entry.names n ∧ ip ∈ ips.ips := by
    funext n ip
    have only : ∀ net' ips', Reports networks net' ips' ↔ net' = net ∧ ips' = ips := only
    simp only [only, and_assoc, exists_and_left, exists_eq_left]
  rw [added] at registered
  have meets := sameState_iff registered connected soundR soundC
    ⟨rfl, overwritten_only only overwritten⟩
  cases recorded : entry.networks.lookup net with
  | none =>
    refine ⟨fun _ old found => absurd found (by simp), fun _ => ⟨meets.mpr fun f => ?_, ?_⟩⟩
    · rw [recorded, if_neg (by simp)]
      simp [Added, Removed]
    · intro old n ip found
      cases recorded.symm.trans found
  | some old =>
    have inStep_meets : SameState Respelled a b ↔ InStep env.hickory
        (m.authorityWrapper.findReverseAuthority orders.reverse) entry.names old ips
        (Has m.authorityWrapper) := by
      rw [meets, inStep_iff]
      simp only [recorded, Option.some.injEq, exists_eq_left']
      refine forall_congr' fun f => ?_
      split_ifs <;> rfl
    constructor
    · intro agree old' found
      cases found
      exact inStep_meets.mp agree.same
    · intro inStep
      have same := inStep_meets.mpr (inStep old rfl)
      refine ⟨same, fun old' n ip found named inside absent => ?_⟩
      cases recorded.symm.trans found
      have gone : ¬ Address b n ip := by
        have different : ¬ some old = some ips := fun equal => absent (Option.some.inj equal ▸ inside)
        rw [Address, connected.wrapper.facts, recorded, if_neg different, added_address,
          removed_address]
        intro held
        rcases held with ⟨_, spared⟩ | ⟨_, back⟩
        · exact spared ⟨named, old, rfl, inside⟩
        · exact absent back
      have shared := meets.mp same (.address n ip)
      rw [← registered.wrapper.facts, ← connected.wrapper.facts] at shared
      exact ⟨fun held => gone (shared.mp held), gone⟩

end Paths

/-- In every reachable state, for a container tracked or not and a report of one
network with addresses: a start and a connect come to the same exactly when the
network is new to the entry, or the records are in step with what it recorded. -/
theorem start_and_connect_agree {env : Env} (laws : env.hickory.RecordLaws)
    (keep : env.hickory.KeepLaws) (names : env.hickory.NameLaws) {m₀ : Monitor}
    (started : startTasks env = some m₀) (boot : Bootstrap) (inputs : List Input) {m : Monitor}
    (reached : m = m₀.dockerEventMonitor env boot inputs) (orders : Orders) {id net : String}
    {event : Event} (concerns : event.actor.attributes.lookup "container" = some id)
    (connects : event.actor.attributes.lookup "name" = some net) {container : ContainerInspect}
    {ips : NetworkIps} (only : ReportsOnly container.networks net ips) :
    PathsAgree (entryOr m id (inspectNames env container)) net ips
        (m.registerContainerNetworks env orders id (inspectNames env container) container.networks)
        (m.handleNetworkConnect env orders event (some container)).1 ↔
      ∀ old, (entryOr m id (inspectNames env container)).networks.lookup net = some old →
        InStep env.hickory (m.authorityWrapper.findReverseAuthority orders.reverse)
          (entryOr m id (inspectNames env container)).names old ips (Has m.authorityWrapper) := by
  have sound : TableSound env.hickory m.authorityWrapper :=
    reached ▸ sound_reached laws keep names started boot inputs
  have reported : (container.networks.lookup net).bind NetworkIps.fromNetwork = some ips :=
    Option.bind_eq_some_iff.mpr ((only net ips).mpr ⟨rfl, rfl⟩)
  have requested : connectRequest env event (some container) =
      .connect id net (inspectNames env container) ips := by
    simp only [connectRequest, concerns, connects, reported]
  rw [handleNetworkConnect_eq, requested]
  exact pathsAgree_iff laws keep names sound orders id (inspectNames env container) only

section Runs
open Reference

/-- The container `web` on the network `bridge` at one address. -/
def webAt (addr : Ipv4Addr) : ContainerInspect := ⟨"/web", ∅, mapOf [("bridge", v4 addr)]⟩

theorem webAt_only (addr : Ipv4Addr) :
    ReportsOnly (webAt addr).networks "bridge" (.v4Only addr) := by
  intro net ips
  have found : (webAt addr).networks.lookup net = if net = "bridge" then some (v4 addr) else none :=
    FiniteMap.lookup_insert _ _ _ _
  simp only [Reports, found]
  split_ifs with here
  · simp [here, v4, NetworkIps.fromNetwork, eq_comm]
  · simp [here]

/-- The monitor after the start of `c` at this address. -/
def webStarted (addr : Ipv4Addr) : Monitor :=
  monitor.dockerEventMonitor env ⟨some [], some [], .listed⟩ [startEvent "c" (some (webAt addr))]

/-- A start with a changed address leaves the record of the old one behind. -/
theorem restart_and_connect_differ :
    ¬ PathsAgree (entryOr (webStarted 0xac110002#32) "c" (inspectNames env (webAt 0xac110003#32)))
      "bridge" (.v4Only 0xac110003#32)
      ((webStarted 0xac110002#32).registerContainerNetworks env .listed "c"
        (inspectNames env (webAt 0xac110003#32)) (webAt 0xac110003#32).networks)
      ((webStarted 0xac110002#32).handleNetworkConnect env .listed
        (connectEvent "c" "bridge" none).event (some (webAt 0xac110003#32))).1 := by
  intro agree
  have gone := (agree.dropped (.v4Only 0xac110002#32) (LowerName.new (name ["web", "docker"]))
    (.v4 0xac110002#32) rfl ⟨_, List.mem_singleton_self _, rfl⟩ (by decide) (by decide)).1
  exact gone (by decide)

/-- A connect with the recorded address, its record in place. -/
theorem start_and_connect_agree_web :
    PathsAgree (entryOr (webStarted 0xac110002#32) "c" (inspectNames env (webAt 0xac110002#32)))
      "bridge" (.v4Only 0xac110002#32)
      ((webStarted 0xac110002#32).registerContainerNetworks env .listed "c"
        (inspectNames env (webAt 0xac110002#32)) (webAt 0xac110002#32).networks)
      ((webStarted 0xac110002#32).handleNetworkConnect env .listed
        (connectEvent "c" "bridge" none).event (some (webAt 0xac110002#32))).1 := by
  refine (start_and_connect_agree hickory_recordLaws hickory_keepLaws hickory_nameLaws env_started
    _ _ rfl .listed rfl rfl (webAt_only _)).mpr ?_
  intro old recorded
  have same : (entryOr (webStarted 0xac110002#32) "c" (inspectNames env (webAt 0xac110002#32))).networks.lookup
      "bridge" = some (.v4Only 0xac110002#32) := rfl
  cases same.symm.trans recorded
  refine ⟨fun n ip _ inside absent => absurd inside absent, ?_⟩
  intro _ n ip f named inside pair
  obtain rfl := List.mem_singleton.mp inside
  obtain ⟨web, listed, rfl⟩ := named
  obtain rfl : web = name ["web", "docker"] := List.mem_singleton.mp listed
  rcases pairFact_iff.mp pair with rfl | pointer
  · decide
  · cases f with
    | address => exact pointer.elim
    | pointer => cases pointer.1

end Runs
end DockerDns.Guarantees
