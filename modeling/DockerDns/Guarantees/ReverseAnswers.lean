import DockerDns.Guarantees.Registrations

/-!
# Reverse answers are never wrong, and when they are missing

A pointer is written and deleted in the zone that covers its address at that
moment. While the zones are disjoint every pointer of a registered zone keeps
its address record. A zone registered after an address it covers never gets its
pointer, and that is the only way to lose one.
-/
namespace DockerDns.Guarantees
open Library Source

section Facts
variable {hk : Hickory} {zones : IpNet → Handle → Prop} {cover : IpAddr → Option Handle}
variable {before : Fact → Prop} {pairs : LowerName → IpAddr → Prop} {old new : LowerName}

/-- Every pointer in a zone is that of an address of the zone, whose record exists. -/
def Backed (hk : Hickory) (zones : IpNet → Handle → Prop) (facts : Fact → Prop) : Prop :=
  ∀ net authority reverse n, zones net authority → facts (.pointer authority reverse n) →
    ∃ ip, reverse = reverseKey hk ip ∧ net.contains ip = true ∧ facts (.address n ip)

/-- Every address record a zone covers has its pointer there. -/
def Complete (hk : Hickory) (zones : IpNet → Handle → Prop) (facts : Fact → Prop) : Prop :=
  ∀ n ip net authority, facts (.address n ip) → zones net authority → net.contains ip = true →
    facts (.pointer authority (reverseKey hk ip) n)

/-- The search covers exactly the addresses of the zones, and each zone has its own handler. -/
structure Covers (zones : IpNet → Handle → Prop) (cover : IpAddr → Option Handle) : Prop where
  exact : ∀ ip authority, cover ip = some authority ↔
    ∃ net, zones net authority ∧ net.contains ip = true
  handlers : ∀ net net' authority, zones net authority → zones net' authority → net = net'

/-- A pair that is covered by a zone's own handler lies in the zone. -/
theorem Covers.inside (covers : Covers zones cover) {net : IpNet} {authority : Handle}
    {ip : IpAddr} (zone : zones net authority) (covered : cover ip = some authority) :
    net.contains ip = true := by
  obtain ⟨net', zone', inside⟩ := (covers.exact ip authority).mp covered
  obtain rfl := covers.handlers net net' authority zone zone'
  exact inside

theorem added_backed (covers : Covers zones cover) (backed : Backed hk zones before) :
    Backed hk zones (Added hk cover pairs before) := by
  intro net authority reverse n zone held
  rcases held with old | ⟨n', ip, pair, covered, named, rfl⟩
  · obtain ⟨ip, named, inside, held⟩ := backed net authority reverse n zone old
    exact ⟨ip, named, inside, .inl held⟩
  · exact ⟨ip, named, covers.inside zone covered, added_address.mpr (.inr pair)⟩

theorem removed_backed (covers : Covers zones cover) (backed : Backed hk zones before) :
    Backed hk zones (Removed hk cover pairs before) := by
  intro net authority reverse n zone held
  obtain ⟨ip, named, inside, address⟩ := backed net authority reverse n zone held.1
  refine ⟨ip, named, inside, removed_address.mpr ⟨address, fun pair => ?_⟩⟩
  -- the removal of the pair would have taken the pointer
  exact held.2 ⟨n, ip, pair, address, (covers.exact ip authority).mpr ⟨net, zone, inside⟩, named, rfl⟩

theorem renamed_backed (covers : Covers zones cover) {moved : IpAddr → Prop}
    (backed : Backed hk zones before) : Backed hk zones (Renamed hk cover old new moved before) := by
  intro net authority reverse n zone held
  rcases held with ⟨pointer, stays⟩ | ⟨ip, moves, covered, named, rfl⟩
  · obtain ⟨ip, named, inside, address⟩ := backed net authority reverse n zone pointer
    refine ⟨ip, named, inside, renamed_address.mpr (.inl ⟨address, fun gone => ?_⟩)⟩
    exact stays ⟨ip, gone.2, (covers.exact ip authority).mpr ⟨net, zone, inside⟩, named, gone.1⟩
  · exact ⟨ip, named, covers.inside zone covered, renamed_address.mpr (.inr ⟨rfl, moves⟩)⟩

theorem reverseKey_inj (names : hk.NameLaws) {ip ip' : IpAddr} (same : reverseKey hk ip = reverseKey hk ip') :
    ip = ip' := by
  unfold reverseKey at same
  rw [names.nameOfIp, names.nameOfIp] at same
  exact standardReverseName_inj same

theorem added_complete (covers : Covers zones cover) (complete : Complete hk zones before) :
    Complete hk zones (Added hk cover pairs before) := by
  intro n ip net authority held zone inside
  rcases added_address.mp held with old | pair
  · exact .inl (complete n ip net authority old zone inside)
  · exact .inr ⟨n, ip, pair, (covers.exact ip authority).mpr ⟨net, zone, inside⟩, rfl, rfl⟩

theorem removed_complete (names : hk.NameLaws) (complete : Complete hk zones before) :
    Complete hk zones (Removed hk cover pairs before) := by
  intro n ip net authority held zone inside
  obtain ⟨address, spared⟩ := removed_address.mp held
  refine ⟨complete n ip net authority address zone inside, fun gone => ?_⟩
  obtain ⟨n', ip', pair, _, _, same, rfl⟩ := gone
  obtain rfl := reverseKey_inj names same
  exact spared pair

theorem renamed_complete (names : hk.NameLaws) (covers : Covers zones cover) {moved : IpAddr → Prop}
    (complete : Complete hk zones before) :
    Complete hk zones (Renamed hk cover old new moved before) := by
  intro n ip net authority held zone inside
  rcases renamed_address.mp held with ⟨address, stays⟩ | ⟨rfl, moves⟩
  · refine .inl ⟨complete n ip net authority address zone inside, fun gone => ?_⟩
    obtain ⟨ip', moves, _, same, rfl⟩ := gone
    obtain rfl := reverseKey_inj names same
    exact stays ⟨rfl, moves⟩
  · exact .inr ⟨ip, moves, (covers.exact ip authority).mpr ⟨net, zone, inside⟩, rfl, rfl⟩

end Facts

/-- The zones in the table. -/
def zonesOf (m : Monitor) (net : IpNet) (authority : Handle) : Prop :=
  m.authorityWrapper.reverseZones.lookup net = some authority

instance (m : Monitor) (net : IpNet) (authority : Handle) : Decidable (zonesOf m net authority) :=
  inferInstanceAs (Decidable (_ = _))

/-- Every pointer of a registered zone lies under an address of the zone and has
its forward counterpart. -/
def PointersBacked (env : Env) (m : Monitor) : Prop :=
  Backed env.hickory (zonesOf m) (Has m.authorityWrapper)

/-- Every address record that a registered zone covers has its pointer there. -/
def PointersComplete (env : Env) (m : Monitor) : Prop :=
  Complete env.hickory (zonesOf m) (Has m.authorityWrapper)

section Step
variable {env : Env} {m : Monitor} {g : Ledger}

theorem covers_of_registered (registered : Registered env m g) (disjoint : g.Disjoint)
    (order : IterationOrder) :
    Covers (zonesOf m) (m.authorityWrapper.findReverseAuthority order) :=
  ⟨registered.cover_iff disjoint order, registered.table.handlers⟩

/-- A request about containers adds, removes and moves pairs, so it keeps what
those three keep. -/
theorem facts_of_container (laws : env.hickory.RecordLaws) (orders : Orders)
    (wf : WrapperWellFormed m.authorityWrapper) {r : Request} (container : ¬ r.AboutNetworks)
    {P : (Fact → Prop) → Prop}
    (added : ∀ pairs before, P before → P (Added env.hickory
      (m.authorityWrapper.findReverseAuthority orders.reverse) pairs before))
    (removed : ∀ pairs before, P before → P (Removed env.hickory
      (m.authorityWrapper.findReverseAuthority orders.reverse) pairs before))
    (renamed : ∀ old new moved before, P before → P (Renamed env.hickory
      (m.authorityWrapper.findReverseAuthority orders.reverse) old new moved before))
    (start : P (Has m.authorityWrapper)) : P (Has (perform env orders m r).authorityWrapper) := by
  have facts : ∀ {id entry facts}, ContainerEffect m (perform env orders m r) id entry facts →
      Has (perform env orders m r).authorityWrapper = facts :=
    fun effect => funext fun f => propext (effect.wrapper.facts f)
  cases perform_outcome orders laws wf r with
  | unchanged same => rwa [same]
  | networkRegistered _ _ _ | networkDeregistered _ _ => exact absurd trivial container
  | registered _ _ _ _ _ effect =>
    rw [facts effect]
    exact added _ _ start
  | renamed _ _ _ _ effect =>
    rw [facts effect]
    exact renamed _ _ _ _ start
  | died _ _ _ effect | disconnected _ _ _ _ _ _ effect =>
    rw [facts effect]
    exact removed _ _ start
  | connected _ _ _ _ effect =>
    rw [facts effect]
    split
    · exact start
    · exact added _ _ (removed _ _ start)

/-- The zones a step leaves: those of the table, less or more whole zones. A zone
that a step adds has a handler no pointer is stored in. -/
theorem zonesOf_after (laws : EnvLaws env) (registered : Registered env m g) (orders : Orders)
    (r : Request) {net : IpNet} {authority : Handle}
    (zone : zonesOf (perform env orders m r) net authority) :
    zonesOf m net authority ∨ ∃ id config, r = .registerNetwork id config ∧
      net ∈ config.reduceOption.flatMap blocks ∧
      m.authorityWrapper.handlers.length ≤ authority := by
  by_cases about : r.AboutNetworks
  · cases r with
    | registerNetwork id config =>
      have added := (registerZones_added laws.records (config.reduceOption.flatMap blocks)
        (m, [])).1
      rw [registerNetwork_eq laws] at zone
      by_cases member : net ∈ config.reduceOption.flatMap blocks
      · exact .inr ⟨id, config, rfl, member, added.fresh net member authority zone⟩
      · exact .inl ((added.kept net member).symm.trans zone)
    | deregisterNetwork id =>
      left
      cases found : m.networks.lookup id with
      | none => rwa [deregisterNetwork_absent orders found] at zone
      | some nets =>
        have removed := deregisterZones_removed laws.names nets
          { m with networks := m.networks.erase id }
        rw [deregisterNetwork_eq orders found] at zone
        have kept := (removed.zones net).symm.trans zone
        split at kept
        · cases kept
        · exact kept
    | _ => exact about.elim
  · have same := sameTables_of_container laws.records orders registered.wellFormed about
    left
    unfold zonesOf at zone ⊢
    rwa [same.reverseZones] at zone

theorem fresh_no_pointer {authority : Handle}
    (beyond : m.authorityWrapper.handlers.length ≤ authority) (reverse n : LowerName) :
    ¬ Has m.authorityWrapper (.pointer authority reverse n) := by
  intro held
  obtain ⟨zone, found, _⟩ := held
  rw [List.getElem?_eq_none beyond] at found
  cases found

theorem zonesOf_container (laws : EnvLaws env) (registered : Registered env m g) (orders : Orders)
    {r : Request} (about : ¬ r.AboutNetworks) : zonesOf (perform env orders m r) = zonesOf m := by
  have same := sameTables_of_container laws.records orders registered.wellFormed about
  unfold zonesOf
  rw [same.reverseZones]

theorem facts_of_network (laws : env.hickory.RecordLaws) (orders : Orders)
    (wf : WrapperWellFormed m.authorityWrapper) {r : Request} (about : r.AboutNetworks) (f : Fact) :
    Has (perform env orders m r).authorityWrapper f ↔ Has m.authorityWrapper f := by
  cases r with
  | registerNetwork id config => exact (registerNetwork_frame orders laws wf id config).facts f
  | deregisterNetwork id => exact (deregisterNetwork_frame env orders wf id).facts f
  | _ => exact about.elim

theorem backed_perform (laws : EnvLaws env) (registered : Registered env m g)
    (disjoint : g.Disjoint) (orders : Orders) (r : Request) (backed : PointersBacked env m) :
    PointersBacked env (perform env orders m r) := by
  by_cases about : r.AboutNetworks
  · have facts := facts_of_network laws.records orders registered.wellFormed about
    intro net authority reverse n zone held
    rw [facts] at held
    rcases zonesOf_after laws registered orders r zone with before | ⟨_, _, _, _, beyond⟩
    · obtain ⟨ip, named, inside, address⟩ := backed net authority reverse n before held
      exact ⟨ip, named, inside, (facts _).mpr address⟩
    · exact absurd held (fresh_no_pointer beyond reverse n)
  · have covers := covers_of_registered registered disjoint orders.reverse
    unfold PointersBacked
    rw [zonesOf_container laws registered orders about]
    exact facts_of_container laws.records orders registered.wellFormed about
      (fun _ _ => added_backed covers) (fun _ _ => removed_backed covers)
      (fun _ _ _ _ => renamed_backed covers) backed

/-- No address record lies in a subnet that is about to be registered. -/
def Uncovered (m : Monitor) : Request → Prop
  | .registerNetwork _ config => ∀ n ip, Address m n ip →
    ∀ subnet ∈ config.reduceOption, ¬ subnet.contains ip = true
  | _ => True

theorem complete_perform (laws : EnvLaws env) (registered : Registered env m g)
    (disjoint : g.Disjoint) (orders : Orders) (r : Request) (uncovered : Uncovered m r)
    (complete : PointersComplete env m) : PointersComplete env (perform env orders m r) := by
  by_cases about : r.AboutNetworks
  · have facts := facts_of_network laws.records orders registered.wellFormed about
    intro n ip net authority held zone inside
    rw [facts] at held ⊢
    rcases zonesOf_after laws registered orders r zone with before | ⟨id, config, rfl, member, _⟩
    · exact complete n ip net authority held before inside
    · obtain ⟨subnet, listed, block⟩ := List.mem_flatMap.mp member
      exact absurd (contains_of_block block inside) (uncovered n ip held subnet listed)
  · have covers := covers_of_registered registered disjoint orders.reverse
    unfold PointersComplete
    rw [zonesOf_container laws registered orders about]
    exact facts_of_container laws.records orders registered.wellFormed about
      (fun _ _ => added_complete covers) (fun _ _ => removed_complete laws.names)
      (fun _ _ _ _ => renamed_complete laws.names covers) complete

/-- A zone registered over an address record lacks its pointer. -/
theorem uncovered_of_complete (laws : EnvLaws env) (registered : Registered env m g)
    (orders : Orders) (r : Request) (complete : PointersComplete env (perform env orders m r)) :
    Uncovered m r := by
  cases r with
  | registerNetwork id config =>
    intro n ip held subnet listed covered
    obtain ⟨net, block, inside⟩ := (contains_iff_blocks subnet ip).mp covered
    have member : net ∈ config.reduceOption.flatMap blocks :=
      List.mem_flatMap.mpr ⟨subnet, listed, block⟩
    have frame := registerNetwork_frame orders laws.records registered.wellFormed id config
    have after := registered_register laws orders registered id config
    have zone : Ledger.zones ((id, config.reduceOption) :: g) net :=
      (Ledger.zones_cons (id, config.reduceOption) g net).mpr (.inl member)
    obtain ⟨authority, found⟩ := (after.table.keys net).mpr zone
    have pointer := complete n ip net authority ((frame.facts _).mpr held) found inside
    have added := (registerZones_added laws.records (config.reduceOption.flatMap blocks)
      (m, [])).1
    rw [registerNetwork_eq laws] at found
    exact fresh_no_pointer (added.fresh net member authority found) _ _ ((frame.facts _).mp pointer)
  | _ => trivial

end Step

section Run
variable {env : Env}

/-- In every run whose registered subnets stay disjoint, no state gives a wrong
reverse answer. -/
theorem reverse_answers_backed (laws : EnvLaws env) {m₀ : Monitor}
    (started : startTasks env = some m₀) (boot : Bootstrap) (inputs : List Input)
    (disjoint : Throughout (ledgerStep env) (fun p => p.2.Disjoint) (m₀, [])
      (runSteps boot inputs)) :
    Throughout (ledgerStep env) (fun p => PointersBacked env p.1) (m₀, [])
      (runSteps boot inputs) := by
  have registered := registered_throughout laws started (runSteps boot inputs) disjoint
  have free : Along (ledgerStep env) (fun _ _ => True) (m₀, []) (runSteps boot inputs) :=
    along_of_forall fun _ _ => trivial
  refine throughout_of_step (fun p s backed both _ _ => ?_) ?_ (disjoint.and registered) free
  · show PointersBacked env (step env p.1 s)
    rw [step_eq]
    exact backed_perform laws both.2 both.1 s.orders _ backed
  · intro net authority reverse n zone
    have none := (startTasks_empty laws.records started).2.2.1
    unfold zonesOf at zone
    rw [none] at zone
    cases zone

/-- In a run whose registered subnets stay disjoint, no reverse answer is ever
missing exactly when no network is registered over an address already served. -/
theorem reverse_answers_complete (laws : EnvLaws env) {m₀ : Monitor}
    (started : startTasks env = some m₀) (boot : Bootstrap) (inputs : List Input)
    (disjoint : Throughout (ledgerStep env) (fun p => p.2.Disjoint) (m₀, [])
      (runSteps boot inputs)) :
    Throughout (ledgerStep env) (fun p => PointersComplete env p.1) (m₀, [])
        (runSteps boot inputs) ↔
      Along (ledgerStep env) (fun p s => Uncovered p.1 (request env p.1 s)) (m₀, [])
        (runSteps boot inputs) := by
  have registered := registered_throughout laws started (runSteps boot inputs) disjoint
  refine throughout_iff_along (fun p s complete both _ => ?_) ?_ (disjoint.and registered)
  · show PointersComplete env (step env p.1 s) ↔ _
    rw [step_eq]
    exact ⟨uncovered_of_complete laws both.2 s.orders _,
      fun uncovered => complete_perform laws both.2 both.1 s.orders _ uncovered complete⟩
  · intro n ip net authority held
    exact absurd held ((startTasks_empty laws.records started).2.2.2.2 n ip)

end Run

section Runs
open Reference

def webOnBridge : Option ContainerInspect :=
  some ⟨"/web", ∅, mapOf [("bridge", v4 0xac110002#32)]⟩

/-- A network is created, then a container starts in it and dies. -/
theorem reverse_answers_backed_bridge :
    Throughout (ledgerStep env) (fun p => PointersBacked env p.1) (monitor, [])
      (runSteps ⟨some [], some [], .listed⟩
        [createEvent "bridge" [bridge], startEvent "c" webOnBridge, dieEvent "c"]) := by
  apply reverse_answers_backed reference_laws env_started
  exact ⟨List.Pairwise.nil, List.pairwise_singleton _ _, List.pairwise_singleton _ _,
    List.pairwise_singleton _ _⟩

/-- A container is listed before the listing of its network. -/
def listedWeb : Bootstrap where
  networks := some []
  containers := some [⟨"c", "running", ["web"], mapOf [("bridge", v4 0xac110002#32)]⟩]

/-- The network registers over the served address, and the connect event finds the
address recorded: the pointer is never written. -/
theorem late_network_misses_pointer :
    Throughout (ledgerStep env) (fun p => p.2.Disjoint) (monitor, [])
        (runSteps listedWeb [createEvent "bridge" [bridge], connectEvent "c" "bridge" webOnBridge]) ∧
      ¬ PointersComplete env (monitor.dockerEventMonitor env listedWeb
        [createEvent "bridge" [bridge], connectEvent "c" "bridge" webOnBridge]) := by
  constructor
  · exact ⟨List.Pairwise.nil, List.Pairwise.nil, List.pairwise_singleton _ _,
      List.pairwise_singleton _ _⟩
  · intro complete
    have pointer := complete (LowerName.new (name ["web", "docker"])) (.v4 0xac110002#32) bridge 0
      (by decide) (by decide) (by decide)
    revert pointer
    decide

/-- A network that is created before its container starts gets every pointer. -/
theorem reverse_answers_complete_bridge :
    Throughout (ledgerStep env) (fun p => PointersComplete env p.1) (monitor, [])
      (runSteps ⟨some [], some [], .listed⟩
        [createEvent "bridge" [bridge], startEvent "c" webOnBridge]) := by
  apply (reverse_answers_complete reference_laws env_started _ _ _).mpr
  · refine ⟨fun n ip held => ?_, trivial, trivial⟩
    exact absurd held ((startTasks_empty hickory_recordLaws env_started).2.2.2.2 n ip)
  · exact ⟨List.Pairwise.nil, List.pairwise_singleton _ _, List.pairwise_singleton _ _⟩

end Runs
end DockerDns.Guarantees
