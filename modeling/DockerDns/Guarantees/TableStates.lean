import DockerDns.Guarantees.ReverseAnswers
import DockerDns.Guarantees.StoreSafety
import DockerDns.Guarantees.TableGrowth

/-!
# The states of the table

What every operation keeps beside well-formedness: the TTL of the sets the table
creates, the spelling of reverse owners, and that a registered zone holds
pointers of its own addresses only. Every step of the monitor is a sequence of
these operations on its table, so every state of every run is sound.
-/
namespace DockerDns.Guarantees
open Library Source

/-- The owner of a reverse set is spelled as its key, in lower case. -/
def OwnedAs : Place → Name → Prop
  | .forward _, _ => True
  | .reverse _ key, owner => owner = key.name.name

/-- Every set but an SOA is as the table creates sets. -/
def Made (w : AuthorityWrapper) : Prop :=
  ∀ place set, stored w place = some set → place.key.recordType ≠ .soa →
    set.ttl = 5 ∧ OwnedAs place set.name

/-- Registered zones have their own handlers, and hold pointers of their own
addresses only. -/
structure Placed (hk : Hickory) (w : AuthorityWrapper) : Prop where
  distinct : ∀ net net' authority, w.reverseZones.lookup net = some authority →
    w.reverseZones.lookup net' = some authority → net = net'
  inside : ∀ net authority ip n, w.reverseZones.lookup net = some authority →
    Has w (.pointer authority (reverseKey hk ip) n) → net.contains ip = true

structure TableSound (hk : Hickory) (w : AuthorityWrapper) : Prop where
  wellFormed : WrapperWellFormed w
  made : Made w
  placed : Placed hk w

/-- No two registered zones share an address. -/
def ZonesDisjoint (w : AuthorityWrapper) : Prop :=
  ∀ net net' authority authority', w.reverseZones.lookup net = some authority →
    w.reverseZones.lookup net' = some authority' → net ≠ net' → net.Disjoint net'

section Cover
variable {w : AuthorityWrapper}

/-- Over disjoint zones the search finds the zone of the address, in any order. -/
theorem cover_iff (disjoint : ZonesDisjoint w) (order : IterationOrder) (ip : IpAddr)
    (authority : Handle) : w.findReverseAuthority order ip = some authority ↔
      ∃ net, w.reverseZones.lookup net = some authority ∧ net.contains ip = true := by
  constructor
  · exact findReverseAuthority_some
  · intro covered
    obtain ⟨net, registered, contains⟩ := covered
    cases found : w.findReverseAuthority order ip with
    | none =>
      rw [findReverseAuthority_none found registered] at contains
      cases contains
    | some authority' =>
      obtain ⟨net', registered', contains'⟩ := findReverseAuthority_some found
      by_cases same : net = net'
      · subst same
        exact registered'.symm.trans registered
      · exact absurd ⟨contains, contains'⟩ (disjoint net net' _ _ registered registered' same ip)

theorem cover_order (disjoint : ZonesDisjoint w) (order order' : IterationOrder) :
    w.findReverseAuthority order = w.findReverseAuthority order' := by
  funext ip
  apply Option.ext
  intro authority
  exact (cover_iff disjoint order ip authority).trans (cover_iff disjoint order' ip authority).symm

theorem ZonesDisjoint.of_same {w' : AuthorityWrapper} (disjoint : ZonesDisjoint w)
    (zones : SameZones w w') : ZonesDisjoint w' := by
  unfold ZonesDisjoint
  rw [zones.reverseZones]
  exact disjoint

/-- One zone is disjoint from no other. -/
theorem zonesDisjoint_of_one {net : IpNet}
    (only : ∀ net' authority, w.reverseZones.lookup net' = some authority → net' = net) :
    ZonesDisjoint w := by
  intro net₁ net₂ authority authority' registered registered' different
  exact absurd ((only _ _ registered).trans (only _ _ registered').symm) different

end Cover

section Made
variable {hk : Hickory} {w w' : AuthorityWrapper} (order : IterationOrder)

theorem Made.of_within (made : Made w) (within : Within w' w) : Made w' := by
  intro place set found plain
  obtain ⟨whole, before, part⟩ := within place set found
  have kept := made place whole before plain
  rw [part.head.ttl, part.head.name] at kept
  exact kept

theorem reverseKey_name (names : hk.NameLaws) (ip : IpAddr) :
    (reverseKey hk ip).name = hk.nameOfIp ip := by
  rw [reverseKey, LowerName.new, names.nameOfIp]
  exact standardReverseName_lower ip

theorem made_upsert (keep : hk.KeepLaws) (names : hk.NameLaws) (wf : WrapperWellFormed w)
    (made : Made w) (name : Name) (ip : IpAddr) : Made (w.upsert hk order name ip) := by
  intro place set found plain
  rw [stored_upsert order wf] at found
  split at found
  next here =>
    cases found
    have kind := pairPlace_type here name
    cases before : stored w place with
    | none =>
      rw [baseAt, before, Option.getD_none]
      have typed : (rdataAt name ip place).recordType = (freshAt hk name ip place).recordType := by
        cases place <;> rfl
      have head := keep.addRdata_head _ _ typed (rdataAt_isPlain name ip place)
      rw [head.ttl, head.name]
      cases place with
      | forward key => exact ⟨rfl, trivial⟩
      | reverse authority key =>
        obtain ⟨_, rfl⟩ := here
        exact ⟨rfl, (reverseKey_name names ip).symm⟩
    | some base =>
      rw [baseAt, before, Option.getD_some]
      have typed := kind.trans (wf.set before plain).recordType.symm
      have head := keep.addRdata_head base _ typed (rdataAt_isPlain name ip place)
      rw [head.ttl, head.name]
      exact made place base before plain
  next => exact made place set found plain

theorem made_renameRecords (laws : hk.RecordLaws) (keep : hk.KeepLaws) (names : hk.NameLaws)
    (wf : WrapperWellFormed w) (made : Made w) (old : LowerName) (newName : Name) {t : RecordType}
    (kind : ForwardKind t) : Made ((w.renameRecords hk order ⟨old, t⟩ newName).getD w) := by
  unfold AuthorityWrapper.renameRecords
  cases w.forward.records.lookup ⟨old, t⟩ with
  | none => exact made
  | some set =>
    have erased := modifyForward_effect (fun records => records.erase ⟨old, t⟩) wf
      (wf.forward.erase forwardKind_plain kind)
    have turn : ∀ (w' : AuthorityWrapper) (ip : IpAddr), WrapperWellFormed w' ∧ Made w' →
        WrapperWellFormed (w'.renameRecord hk order old newName ip) ∧
          Made (w'.renameRecord hk order old newName ip) := by
      intro w' ip both
      obtain ⟨wf', made'⟩ := both
      have pointer := removePointer_effect order laws wf' old ip
      have shrunk := (Within.refl w').removePointer_left order keep wf' ip old
      exact ⟨(renameRecord_effect order laws wf' old newName ip).wellFormed,
        made_upsert order keep names pointer.wellFormed (made'.of_within shrunk) newName ip⟩
    exact (foldl_invariant (set.records.filterMap RData.ipAddr) turn
      ⟨erased.wellFormed, made.of_within ((Within.refl w).eraseForward_left _)⟩).2

theorem made_rename (laws : hk.RecordLaws) (keep : hk.KeepLaws) (names : hk.NameLaws)
    (wf : WrapperWellFormed w) (made : Made w) (oldName newName : String) :
    Made (w.rename hk order oldName newName).1 := by
  unfold AuthorityWrapper.rename
  cases hk.parse newName with
  | none => exact made
  | some new =>
    cases hk.parse (AuthorityWrapper.stripPrefix '/' oldName) with
    | none => exact made
    | some old =>
      have first := renameRecords_effect order laws wf (LowerName.new old) new (t := .a) (.inl rfl)
      have firstMade := made_renameRecords order laws keep names wf made
        (LowerName.new old) new (t := .a) (.inl rfl)
      exact made_renameRecords order laws keep names first.wellFormed firstMade _ new (.inr rfl)

theorem stored_freshZone (w : AuthorityWrapper) (net : IpNet) (zone : Name) (place : Place)
    (plain : place.key.recordType ≠ .soa) :
    stored (withFreshZone w net zone) place = stored w place := by
  cases place with
  | forward key => rfl
  | reverse authority key =>
    simp only [stored, withFreshZone, List.getElem?_append]
    split
    · rfl
    next beyond =>
      have outside : w.handlers[authority]? = none :=
        List.getElem?_eq_none (Nat.le_of_not_lt beyond)
      rw [outside, Option.bind_none, Option.bind_eq_none_iff]
      intro fresh found
      rw [List.mem_singleton.mp (List.mem_of_getElem? found)]
      have other : key ≠ soaKey zone := fun same => plain (congrArg RrKey.recordType same)
      rw [FiniteMap.lookup_insert, if_neg other, FiniteMap.lookup_empty]

end Made

section Placed
variable {hk : Hickory} {w w' : AuthorityWrapper} (order : IterationOrder)

/-- An operation over the same zones adds pointers only where their addresses
are covered. -/
theorem Placed.of_facts (names : hk.NameLaws) (placed : Placed hk w) (zones : SameZones w w')
    (facts : ∀ f, Has w' f → Has w f ∨
      ∃ n ip, PairFact hk (w.findReverseAuthority order) n ip f) : Placed hk w' := by
  constructor
  · rw [zones.reverseZones]
    exact placed.distinct
  · intro net authority ip n registered held
    rw [zones.reverseZones] at registered
    rcases facts _ held with before | ⟨n', ip', covered, sameKey, _⟩
    · exact placed.inside net authority ip n registered before
    · obtain ⟨net', registered', contains⟩ := findReverseAuthority_some covered
      rw [placed.distinct net net' authority registered registered', reverseKey_inj names sameKey]
      exact contains

theorem renamed_covered {old new : LowerName} {moved : IpAddr → Prop} {before : Fact → Prop}
    {cover : IpAddr → Option Handle} {f : Fact} (held : Renamed hk cover old new moved before f) :
    before f ∨ ∃ n ip, PairFact hk cover n ip f := by
  rcases held with ⟨held, _⟩ | ⟨ip, _, pair⟩
  · exact .inl held
  · exact .inr ⟨new, ip, pair⟩

theorem placed_freshZone (wf : WrapperWellFormed w) (placed : Placed hk w) (net : IpNet)
    (zone : Name) : Placed hk (withFreshZone w net zone) := by
  have known : ∀ net' authority, (withFreshZone w net zone).reverseZones.lookup net' =
      some authority → (net' = net ∧ authority = w.handlers.length) ∨
        (w.reverseZones.lookup net' = some authority ∧ authority < w.handlers.length) := by
    intro net' authority registered
    simp only [withFreshZone, FiniteMap.lookup_insert] at registered
    split at registered
    next here => exact .inl ⟨here, (Option.some.inj registered).symm⟩
    next => exact .inr ⟨registered, wf.shared net' authority registered⟩
  constructor
  · intro net₁ net₂ authority first second
    rcases known net₁ authority first with ⟨rfl, fresh⟩ | ⟨old, bound⟩
    · rcases known net₂ authority second with ⟨rfl, _⟩ | ⟨_, bound⟩
      · rfl
      · exact absurd fresh (Nat.ne_of_lt bound)
    · rcases known net₂ authority second with ⟨_, fresh⟩ | ⟨old', _⟩
      · exact absurd fresh (Nat.ne_of_lt bound)
      · exact placed.distinct net₁ net₂ authority old old'
  · intro net' authority ip n registered held
    rw [(freshZone_kept wf net zone).2] at held
    rcases known net' authority registered with ⟨_, fresh⟩ | ⟨old, _⟩
    · -- no handler stood at the fresh index
      obtain ⟨z, found, _⟩ := held
      rw [fresh, List.getElem?_eq_none (Nat.le_refl _)] at found
      cases found
    · exact placed.inside net' authority ip n old held

theorem placed_removeZone (wf : WrapperWellFormed w) (placed : Placed hk w) (net : IpNet) :
    Placed hk (w.removeReverseZone net) := by
  have known : ∀ net' authority, (w.removeReverseZone net).reverseZones.lookup net' =
      some authority → w.reverseZones.lookup net' = some authority := by
    intro net' authority registered
    simp only [AuthorityWrapper.removeReverseZone, FiniteMap.lookup_erase] at registered
    split at registered
    · cases registered
    · exact registered
  constructor
  · intro net₁ net₂ authority first second
    exact placed.distinct net₁ net₂ authority (known _ _ first) (known _ _ second)
  · intro net' authority ip n registered held
    rw [(removeReverseZone_kept wf net).2] at held
    exact placed.inside net' authority ip n (known _ _ registered) held

end Placed

section Operations
variable {hk : Hickory} {w : AuthorityWrapper}

theorem apply_sound (laws : hk.RecordLaws) (keep : hk.KeepLaws) (names : hk.NameLaws)
    (sound : TableSound hk w) (operation : Operation) : TableSound hk (w.apply hk operation) := by
  obtain ⟨wf, made, placed⟩ := sound
  cases operation with
  | add order name ip =>
    have effect := upsert_effect order laws wf name ip
    refine ⟨effect.wellFormed, made_upsert order keep names wf made name ip,
      placed.of_facts order names effect.zones fun f held => ?_⟩
    exact ((effect.facts f).mp held).imp_right fun pair => ⟨_, ip, pair⟩
  | removeAddress order name ip =>
    have effect := removeAddress_effect order laws wf name ip
    exact ⟨effect.wellFormed,
      made.of_within ((Within.refl w).removeAddress_left order laws keep wf name ip),
      placed.of_facts order names effect.zones
        fun f held => .inl ((effect.facts f).mp held).1⟩
  | rename order oldName newName =>
    have madeAfter := made_rename order laws keep names wf made oldName newName
    rw [AuthorityWrapper.apply]
    rcases rename_effect order laws wf oldName newName with same | ⟨_, _, effect⟩
    · rw [same]
      exact ⟨wf, made, placed⟩
    · exact ⟨effect.wellFormed, madeAfter, placed.of_facts order names effect.zones
        fun f held => renamed_covered ((effect.facts f).mp held)⟩
  | addReverseZone network zone =>
    rw [AuthorityWrapper.apply, addFreshZone_eq laws]
    refine ⟨(freshZone_kept wf network zone).1, ?_, placed_freshZone wf placed network zone⟩
    intro place set found plain
    rw [stored_freshZone w network zone place plain] at found
    exact made place set found plain
  | removeReverseZone network =>
    exact ⟨(removeReverseZone_kept wf network).1, made, placed_removeZone wf placed network⟩

theorem run_sound (laws : hk.RecordLaws) (keep : hk.KeepLaws) (names : hk.NameLaws)
    (operations : List Operation) (sound : TableSound hk w) :
    TableSound hk (operations.foldl (AuthorityWrapper.apply hk) w) :=
  foldl_invariant operations (fun _ operation sound => apply_sound laws keep names sound operation)
    sound

theorem new_sound (laws : hk.RecordLaws) {domain : Name} {forward : InMemoryZoneHandler}
    (fresh : setUpAuthority hk domain = some forward) : TableSound hk (.new forward) := by
  refine ⟨(new_safe laws fresh).wellFormed, ?_, ?_, ?_⟩
  · rw [setUpAuthority_eq laws] at fresh
    cases fresh
    intro place set found plain
    cases place with
    | forward key =>
      have other : key ≠ soaKey domain := fun same => plain (congrArg RrKey.recordType same)
      have vacant : ((∅ : Records).insert (soaKey domain) (soaSet domain)).lookup key = some set :=
        found
      rw [FiniteMap.lookup_insert, if_neg other, FiniteMap.lookup_empty] at vacant
      cases vacant
    | reverse authority key => cases found
  · intro net net' authority registered
    cases registered
  · intro net authority ip n registered
    cases registered

end Operations

/-- Two sound tables over the same zones are the same up to record order and
letter case exactly when they hold the same facts. -/
theorem sameSets_iff {hk : Hickory} {w w' : AuthorityWrapper} (sound : TableSound hk w)
    (sound' : TableSound hk w') (zones : SameZones w w') :
    SameSets Respelled w w' ↔ ∀ f, Has w f ↔ Has w' f := by
  constructor
  · intro same f
    rw [has_iff, has_iff]
    have rel := same f.place
    generalize stored w f.place = a at rel
    generalize stored w' f.place = b at rel
    cases rel with
    | none => simp
    | some alike =>
      simp only [Option.some.injEq, exists_eq_left']
      exact alike.records.mem_iff
  · intro facts
    refine sameSets_of_facts sound.wellFormed sound'.wellFormed zones facts (Alike.refl _ _) ?_
    intro place set set' found found' plain same
    have wf := sound.wellFormed.set found plain
    have wf' := sound'.wellFormed.set found' plain
    refine ⟨?_, wf.recordType.trans wf'.recordType.symm,
      (sound.made place set found plain).1.trans (sound'.made place set' found' plain).1.symm,
      (List.perm_ext_iff_of_nodup wf.distinct wf'.distinct).mpr same⟩
    exact (LowerName.new_eq_iff _ _).mp (wf.name.trans wf'.name.symm)

section Updates
variable {m a b : Monitor} {id : String}

/-- Two updates of one entry, compared. -/
theorem ContainerEffect.sameState {entry entry' : Option ContainerState} {facts facts' : Fact → Prop}
    {alike : RecordSet → RecordSet → Prop} (effect : ContainerEffect m a id entry facts)
    (effect' : ContainerEffect m b id entry' facts') (entries : Option.Rel SameEntry entry entry')
    (records : SameSets alike a.authorityWrapper b.authorityWrapper) : SameState alike a b where
  catalog name := by rw [effect.catalog, effect'.catalog]
  networks net := by rw [effect.networks, effect'.networks]
  containers id' := by
    rw [effect.containers, effect'.containers]
    split
    · exact entries
    · exact rel_refl SameEntry.refl _
  zones net := by rw [effect.wrapper.zones.reverseZones, effect'.wrapper.zones.reverseZones]
  records := records

/-- Two updates of one entry to the same networks differ in their records at most. -/
theorem sameState_iff {hk : Hickory} {entry entry' : ContainerState} {facts facts' : Fact → Prop}
    (effect : ContainerEffect m a id (some entry) facts)
    (effect' : ContainerEffect m b id (some entry') facts') (sound : TableSound hk a.authorityWrapper)
    (sound' : TableSound hk b.authorityWrapper) (same : SameEntry entry entry') :
    SameState Respelled a b ↔ ∀ f, facts f ↔ facts' f := by
  have records : SameSets Respelled a.authorityWrapper b.authorityWrapper ↔
      ∀ f, facts f ↔ facts' f := by
    rw [sameSets_iff sound sound' (effect.wrapper.zones.symm.trans effect'.wrapper.zones)]
    refine forall_congr' fun f => ?_
    rw [effect.wrapper.facts, effect'.wrapper.facts]
  rw [← records]
  exact ⟨SameState.records, effect.sameState effect' (.some same)⟩

end Updates

/-- The second table comes from the first by a sequence of operations. -/
def Operated (hk : Hickory) (w w' : AuthorityWrapper) : Prop :=
  ∃ operations : List Operation, w' = operations.foldl (AuthorityWrapper.apply hk) w

section Steps
variable {hk : Hickory}

theorem Operated.refl (w : AuthorityWrapper) : Operated hk w w := ⟨[], rfl⟩

theorem Operated.once (hk : Hickory) (w : AuthorityWrapper) (operation : Operation) :
    Operated hk w (w.apply hk operation) := ⟨[operation], rfl⟩

theorem Operated.trans {u v w : AuthorityWrapper} (first : Operated hk u v)
    (later : Operated hk v w) : Operated hk u w := by
  obtain ⟨front, rfl⟩ := first
  obtain ⟨back, rfl⟩ := later
  exact ⟨front ++ back, List.foldl_append.symm⟩

/-- A loop whose turns are operations on the table part of its state. -/
theorem Operated.loop {σ β : Type} (table : σ → AuthorityWrapper) {turn : σ → β → σ}
    (turns : ∀ s b, Operated hk (table s) (table (turn s b))) (l : List β) (s : σ) :
    Operated hk (table s) (table (l.foldl turn s)) := by
  induction l generalizing s with
  | nil => exact .refl _
  | cons b rest ih => exact (turns s b).trans (ih _)

variable {env : Env}

theorem registerZone_operated (acc : Monitor × List IpNet) (zone : IpNet × Name) :
    Operated env.hickory acc.1.authorityWrapper
      (Monitor.registerZone env acc zone).1.authorityWrapper := by
  have once := Operated.once env.hickory acc.1.authorityWrapper
    (.addReverseZone zone.1 zone.2)
  simp only [AuthorityWrapper.apply, AuthorityWrapper.addFreshZone] at once
  unfold Monitor.registerZone
  cases setUp : setUpAuthority env.hickory zone.2 with
  | none => exact .refl _
  | some handler =>
    rw [setUp] at once
    exact once

theorem deregisterZone_operated (m : Monitor) (net : IpNet) :
    Operated env.hickory m.authorityWrapper (Monitor.deregisterZone env m net).authorityWrapper := by
  have once := Operated.once env.hickory m.authorityWrapper (.removeReverseZone net)
  unfold Monitor.deregisterZone
  cases zoneName env.hickory net <;> exact once

/-- The names of a rename request are read off two texts. -/
def Spelled (hk : Hickory) : Request → Prop
  | .rename _ old new _ => ∃ oldName newName,
    hk.parse (AuthorityWrapper.stripPrefix '/' oldName) = some old ∧ hk.parse newName = some new
  | _ => True

/-- Every request works on the table through its operations. -/
theorem perform_operated (orders : Orders) (m : Monitor) {r : Request}
    (spelled : Spelled env.hickory r) :
    Operated env.hickory m.authorityWrapper (perform env orders m r).authorityWrapper := by
  cases about : container r with
  | some id => exact ⟨_, perform_operations env orders m about⟩
  | none =>
    cases r with
    | register | connect | disconnect | die => cases about
    | nothing => exact .refl _
    | rename id old new names =>
      obtain ⟨oldName, newName, parsedOld, parsedNew⟩ := spelled
      have once := Operated.once env.hickory m.authorityWrapper
        (.rename orders.reverse oldName newName)
      simp only [AuthorityWrapper.apply, AuthorityWrapper.rename, parsedOld, parsedNew] at once
      exact once
    | registerNetwork id config =>
      simp only [perform, Monitor.registerNetwork, registerConfig_eq]
      exact .loop (fun acc : Monitor × List IpNet => acc.1.authorityWrapper) registerZone_operated
        (configZones env config) (m, [])
    | deregisterNetwork id =>
      simp only [perform, Monitor.deregisterNetwork]
      cases m.networks.lookup id with
      | none => exact .refl _
      | some zones =>
        exact .loop Monitor.authorityWrapper deregisterZone_operated zones
          { m with networks := m.networks.erase id }

theorem request_spelled (m : Monitor) (s : Step) : Spelled env.hickory (request env m s) := by
  cases s with
  | listedNetwork network =>
    obtain ⟨id, inspect⟩ := network
    cases inspect <;> trivial
  | listedContainer orders container =>
    simp only [request]
    split_ifs <;> trivial
  | event input =>
    simp only [request, eventRequest]
    split
    · split_ifs
      · split <;> trivial
      · unfold renameRequest
        split
        · split
          next parsedOld parsedNew => exact ⟨_, _, parsedOld, parsedNew⟩
          next => trivial
        · trivial
      · trivial
      · trivial
    · split_ifs
      · unfold connectRequest
        split
        · split <;> trivial
        · trivial
      · split <;> trivial
      · split <;> trivial
      · trivial
      · trivial
    · trivial

/-- A request keeps the table sound. -/
theorem perform_sound (laws : env.hickory.RecordLaws) (keep : env.hickory.KeepLaws)
    (names : env.hickory.NameLaws) {m : Monitor} (sound : TableSound env.hickory m.authorityWrapper)
    (orders : Orders) {r : Request} (spelled : Spelled env.hickory r) :
    TableSound env.hickory (perform env orders m r).authorityWrapper := by
  obtain ⟨operations, same⟩ := perform_operated orders m spelled
  rw [same]
  exact run_sound laws keep names operations sound

/-- A step of the monitor keeps its table sound. -/
theorem sound_step (laws : env.hickory.RecordLaws) (keep : env.hickory.KeepLaws)
    (names : env.hickory.NameLaws) {m : Monitor} (sound : TableSound env.hickory m.authorityWrapper)
    (s : Step) : TableSound env.hickory (step env m s).authorityWrapper := by
  rw [step_eq]
  exact perform_sound laws keep names sound s.orders (request_spelled m s)

theorem sound_start (laws : env.hickory.RecordLaws) {m : Monitor}
    (started : startTasks env = some m) : TableSound env.hickory m.authorityWrapper := by
  obtain ⟨forward, fresh, rfl⟩ := Option.map_eq_some_iff.mp started
  exact new_sound laws fresh

/-- Every state of every run is sound. -/
theorem sound_reached (laws : env.hickory.RecordLaws) (keep : env.hickory.KeepLaws)
    (names : env.hickory.NameLaws) {m : Monitor} (started : startTasks env = some m)
    (boot : Bootstrap) (inputs : List Input) :
    TableSound env.hickory (m.dockerEventMonitor env boot inputs).authorityWrapper := by
  rw [dockerEventMonitor_eq]
  exact foldl_invariant (P := fun m : Monitor => TableSound env.hickory m.authorityWrapper) _
    (fun _ s sound => sound_step laws keep names sound s) (sound_start laws started)

end Steps

section Runs
open Reference

/-- One running container with one address. -/
def webRunning : Monitor :=
  (monitor.handleEvent env (startEvent "c" (some ⟨"/web", ∅,
    mapOf [("bridge", v4 0xac110002#32)]⟩))).1

theorem webRunning_sound : TableSound hickory webRunning.authorityWrapper :=
  sound_step hickory_recordLaws hickory_keepLaws hickory_nameLaws
    (sound_start hickory_recordLaws env_started) (.event _)

theorem webRunning_disjoint : ZonesDisjoint webRunning.authorityWrapper := by
  intro net net' authority authority' registered
  have none : (∅ : FiniteMap IpNet Handle).lookup net = some authority := registered
  cases none

end Runs
end DockerDns.Guarantees
