import DockerDns.Library.FactFolds
import DockerDns.Guarantees.RecordStores
import DockerDns.Source.Table

/-!
# What the authority wrapper's operations do to its records

The records of a wrapper are seen as facts: an address of a name in the forward
zone, a pointer of a reverse name in one handler. Each operation keeps the
stores well formed, leaves the zone table alone, and adds, removes or moves
exactly the facts of the pairs it is given. Names are compared ignoring case.
-/
namespace DockerDns.Guarantees
open Library Source

inductive Fact where
  | address (n : LowerName) (ip : IpAddr)
  | pointer (authority : Handle) (reverse n : LowerName)
  deriving DecidableEq

def Has (w : AuthorityWrapper) : Fact → Prop
  | .address n ip => Holds w.forward.records n (RData.ofIp ip)
  | .pointer authority reverse n =>
    ∃ zone, w.handlers[authority]? = some zone ∧ Holds zone.records reverse (.ptr n.name)

instance (w : AuthorityWrapper) (f : Fact) : Decidable (Has w f) :=
  match f with
  | .address n ip => inferInstanceAs (Decidable (Holds w.forward.records n (RData.ofIp ip)))
  | .pointer authority reverse n =>
    match equal : w.handlers[authority]? with
    | none => .isFalse (by simp [Has, equal])
    | some zone => decidable_of_iff (Holds zone.records reverse (.ptr n.name)) (by simp [Has, equal])

def reverseKey (hk : Hickory) (ip : IpAddr) : LowerName := LowerName.new (hk.nameOfIp ip)

/-- The facts of a name and an address: the address record, and the pointer in
the handler that covers the address, if one does. -/
def PairFact (hk : Hickory) (cover : IpAddr → Option Handle) (n : LowerName) (ip : IpAddr) :
    Fact → Prop
  | .address n' ip' => n' = n ∧ ip' = ip
  | .pointer authority reverse n' =>
    cover ip = some authority ∧ reverse = reverseKey hk ip ∧ n' = n

/-- The pointer among the facts of a pair. -/
def PointerFact (hk : Hickory) (cover : IpAddr → Option Handle) (n : LowerName) (ip : IpAddr) :
    Fact → Prop
  | .address _ _ => False
  | .pointer authority reverse n' =>
    cover ip = some authority ∧ reverse = reverseKey hk ip ∧ n' = n

theorem pairFact_iff {hk : Hickory} {cover : IpAddr → Option Handle} {n : LowerName} {ip : IpAddr}
    {f : Fact} : PairFact hk cover n ip f ↔ f = .address n ip ∨ PointerFact hk cover n ip f := by
  cases f <;> simp [PairFact, PointerFact]

structure WrapperWellFormed (w : AuthorityWrapper) : Prop where
  forward : RecordsWellFormed ForwardKind w.forward.origin w.forward.records
  handlers : ∀ zone ∈ w.handlers, RecordsWellFormed ReverseKind zone.origin zone.records
  shared : ∀ net authority, w.reverseZones.lookup net = some authority →
    authority < w.handlers.length

/-- The zone table and the origins of all zones are as before. -/
structure SameZones (w w' : AuthorityWrapper) : Prop where
  reverseZones : w'.reverseZones = w.reverseZones
  handlers : w'.handlers.map (·.origin) = w.handlers.map (·.origin)
  forward : w'.forward.origin = w.forward.origin

theorem SameZones.refl (w : AuthorityWrapper) : SameZones w w := ⟨rfl, rfl, rfl⟩

theorem SameZones.trans {w w' w'' : AuthorityWrapper} (first : SameZones w w')
    (second : SameZones w' w'') : SameZones w w'' :=
  ⟨second.reverseZones.trans first.reverseZones, second.handlers.trans first.handlers,
    second.forward.trans first.forward⟩

theorem SameZones.symm {w w' : AuthorityWrapper} (same : SameZones w w') : SameZones w' w :=
  ⟨same.reverseZones.symm, same.handlers.symm, same.forward.symm⟩

theorem SameZones.length {w w' : AuthorityWrapper} (same : SameZones w w') :
    w'.handlers.length = w.handlers.length := by
  simpa using congrArg List.length same.handlers

theorem SameZones.cover {w w' : AuthorityWrapper} (same : SameZones w w')
    (order : IterationOrder) (ip : IpAddr) :
    w'.findReverseAuthority order ip = w.findReverseAuthority order ip := by
  simp [AuthorityWrapper.findReverseAuthority, same.reverseZones]

/-- A handler the search returns belongs to a registered zone containing the address. -/
theorem findReverseAuthority_some {order : IterationOrder} {w : AuthorityWrapper} {ip : IpAddr}
    {authority : Handle} (found : w.findReverseAuthority order ip = some authority) :
    ∃ net, w.reverseZones.lookup net = some authority ∧ net.contains ip = true := by
  simp only [AuthorityWrapper.findReverseAuthority, Option.map_eq_some_iff] at found
  obtain ⟨⟨net, _⟩, first, rfl⟩ := found
  refine ⟨net, ?_, by simpa using List.find?_some first⟩
  rw [← FiniteMap.mem_entries_iff, ← (order.zones_perm _).mem_iff]
  exact List.mem_of_find?_eq_some first

theorem findReverseAuthority_none {order : IterationOrder} {w : AuthorityWrapper} {ip : IpAddr}
    (found : w.findReverseAuthority order ip = none) {net : IpNet} {authority : Handle}
    (registered : w.reverseZones.lookup net = some authority) : net.contains ip = false := by
  simp only [AuthorityWrapper.findReverseAuthority, Option.map_eq_none_iff,
    List.find?_eq_none] at found
  have member := (FiniteMap.mem_entries_iff _ net authority).mpr registered
  simpa using found _ ((order.zones_perm _).mem_iff.mpr member)

/-- With no address of a type left, the forward zone has no set of that type. -/
theorem vacant_of_no_address {w : AuthorityWrapper} (wf : WrapperWellFormed w) {n : LowerName}
    {t : RecordType} (plain : t ≠ .soa)
    (gone : ∀ ip, (RData.ofIp ip).recordType = t → ¬ Has w (.address n ip)) :
    w.forward.records.lookup ⟨n, t⟩ = none := by
  cases found : w.forward.records.lookup ⟨n, t⟩ with
  | none => rfl
  | some set =>
    exfalso
    have other : (⟨n, t⟩ : RrKey) ≠ soaKey w.forward.origin := by
      intro same
      exact plain (congrArg RrKey.recordType same)
    obtain ⟨kind, setWf⟩ := wf.forward.sets _ set found other
    obtain ⟨r, member⟩ := List.exists_mem_of_ne_nil _ setWf.nonempty
    have sameType := setWf.types r member
    have family : r.recordType = .a ∨ r.recordType = .aaaa := sameType ▸ kind
    obtain ⟨ip, rfl⟩ : ∃ ip, r = RData.ofIp ip := by
      cases r with
      | a addr => exact ⟨.v4 addr, rfl⟩
      | aaaa addr => exact ⟨.v6 addr, rfl⟩
      | ptr | soa => simp [RData.recordType] at family
    refine gone ip sameType ⟨set, ?_, by simpa using member⟩
    rw [sameType]
    exact found

/-- The operation turned `w` into `w'`, whose facts are now `facts`. -/
structure Effect (w w' : AuthorityWrapper) (facts : Fact → Prop) : Prop where
  wellFormed : WrapperWellFormed w'
  zones : SameZones w w'
  facts : ∀ f, Has w' f ↔ facts f

theorem Effect.nothing {w : AuthorityWrapper} (wf : WrapperWellFormed w) : Effect w w (Has w) :=
  ⟨wf, .refl w, fun _ => .rfl⟩

section Handlers
variable {w : AuthorityWrapper}

theorem modifyForward_effect (f : Records → Records) (wf : WrapperWellFormed w)
    (forward : RecordsWellFormed ForwardKind w.forward.origin (f w.forward.records)) :
    Effect w (w.modifyForward f) fun
      | .address n ip => Holds (f w.forward.records) n (RData.ofIp ip)
      | fact => Has w fact := by
  refine ⟨⟨forward, wf.handlers, wf.shared⟩, ⟨rfl, rfl, rfl⟩, ?_⟩
  rintro (⟨n, ip⟩ | ⟨authority, reverse, n⟩) <;> rfl

theorem modifyHandler_effect (f : Records → Records) (wf : WrapperWellFormed w) {authority : Handle}
    {zone : InMemoryZoneHandler} (found : w.handlers[authority]? = some zone)
    (kept : RecordsWellFormed ReverseKind zone.origin (f zone.records)) :
    Effect w (w.modifyHandler authority f) fun
      | .pointer a reverse n =>
        if a = authority then Holds (f zone.records) reverse (.ptr n.name)
        else Has w (.pointer a reverse n)
      | fact => Has w fact := by
  have origins : (w.handlers.modify authority (·.modify f)).map (·.origin) =
      w.handlers.map (·.origin) := by
    apply List.ext_getElem?
    intro i
    simp only [List.getElem?_map, List.getElem?_modify]
    cases w.handlers[i]? with
    | none => rfl
    | some z =>
      simp only [Option.map_eq_map, Option.map_some, Option.some.injEq]
      split <;> rfl
  refine ⟨⟨wf.forward, ?_, ?_⟩, ⟨rfl, origins, rfl⟩, ?_⟩
  · intro z member
    obtain ⟨i, at_i⟩ := List.mem_iff_getElem?.mp member
    simp only [AuthorityWrapper.modifyHandler, List.getElem?_modify, Option.map_eq_map,
      Option.map_eq_some_iff] at at_i
    obtain ⟨z', at_i, rfl⟩ := at_i
    split
    next here =>
      subst here
      cases found.symm.trans at_i
      exact kept
    next => exact wf.handlers z' (List.mem_of_getElem? at_i)
  · intro net a registered
    simpa [AuthorityWrapper.modifyHandler] using wf.shared net a registered
  · intro f
    rcases f with ⟨n, ip⟩ | ⟨a, reverse, n⟩
    · rfl
    · simp only [Has, AuthorityWrapper.modifyHandler, List.getElem?_modify]
      by_cases here : a = authority
      · subst here
        simp [found]
      · simp [here, Ne.symm here]

end Handlers

section Operations
variable {hk : Hickory} {w : AuthorityWrapper}

theorem WrapperWellFormed.handler (wf : WrapperWellFormed w) {order : IterationOrder} {ip : IpAddr} {authority : Handle}
    (found : w.findReverseAuthority order ip = some authority) :
    ∃ zone, w.handlers[authority]? = some zone ∧
      RecordsWellFormed ReverseKind zone.origin zone.records := by
  obtain ⟨net, registered, _⟩ := findReverseAuthority_some found
  have bound := wf.shared net authority registered
  exact ⟨_, List.getElem?_eq_getElem bound, wf.handlers _ (List.getElem_mem bound)⟩

theorem lower_ptr_eq_iff (n : LowerName) (name : Name) :
    (RData.ptr n.name).lower = (RData.ptr name).lower ↔ n = LowerName.new name := by
  simp only [RData.lower, n.lower, RData.ptr.injEq]
  exact ⟨fun same => LowerName.ext same, fun same => congrArg LowerName.name same⟩

theorem upsert_effect (order : IterationOrder) (laws : hk.RecordLaws) (wf : WrapperWellFormed w) (name : Name)
    (ip : IpAddr) :
    Effect w (w.upsert hk order name ip) fun f =>
      Has w f ∨ PairFact hk (w.findReverseAuthority order) (LowerName.new name) ip f := by
  obtain ⟨forwardWf, forwardHolds⟩ := append_effect laws wf.forward forwardKind_plain
    ⟨LowerName.new name, (RData.ofIp ip).recordType⟩ name (RData.ofIp ip)
    (RData.recordType_ofIp ip) rfl rfl
  have forward := modifyForward_effect (fun records => appendToRecordSet hk records
    ⟨LowerName.new name, (RData.ofIp ip).recordType⟩ name (RData.ofIp ip).recordType
    (RData.ofIp ip)) wf forwardWf
  have cover := forward.zones.cover order ip
  unfold AuthorityWrapper.upsert
  dsimp only
  cases found : w.findReverseAuthority order ip with
  | none =>
    rw [cover, found]
    refine ⟨forward.wellFormed, forward.zones, ?_⟩
    intro f
    rcases f with ⟨n, ip'⟩ | ⟨a, rev, n⟩
    · refine (forward.facts _).trans ?_
      simp [forwardHolds, PairFact, Has]
    · refine (forward.facts _).trans ?_
      simp [PairFact, found]
  | some authority =>
    rw [cover, found]
    obtain ⟨zone, at_authority, zoneWf⟩ := forward.wellFormed.handler (cover.trans found)
    obtain ⟨reverseWf, reverseHolds⟩ := append_effect laws zoneWf reverseKind_plain
      ⟨reverseKey hk ip, .ptr⟩ (hk.nameOfIp ip) (.ptr name) rfl rfl rfl
    have reverse := modifyHandler_effect (fun records => appendToRecordSet hk records
      ⟨reverseKey hk ip, .ptr⟩ (hk.nameOfIp ip) .ptr (.ptr name)) forward.wellFormed
      at_authority reverseWf
    refine ⟨reverse.wellFormed, forward.zones.trans reverse.zones, ?_⟩
    intro f
    rcases f with ⟨n, ip'⟩ | ⟨a, rev, n⟩
    · refine (reverse.facts _).trans ((forward.facts _).trans ?_)
      simp [forwardHolds, PairFact, Has]
    · refine (reverse.facts _).trans ?_
      change w.handlers[authority]? = some zone at at_authority
      simp only [PairFact, found, Option.some.injEq]
      split
      next here =>
        subst here
        rw [reverseHolds, lower_ptr_eq_iff]
        simp [Has, at_authority]
      next elsewhere =>
        refine (forward.facts _).trans ?_
        simp [Ne.symm elsewhere]

theorem removePointer_effect (order : IterationOrder) (laws : hk.RecordLaws) (wf : WrapperWellFormed w) (old : LowerName)
    (ip : IpAddr) :
    Effect w (w.removePointer hk order ip old) fun f =>
      Has w f ∧ ¬ PointerFact hk (w.findReverseAuthority order) old ip f := by
  unfold AuthorityWrapper.removePointer
  cases found : w.findReverseAuthority order ip with
  | none =>
    refine ⟨wf, .refl w, ?_⟩
    rintro (⟨n, ip'⟩ | ⟨a, reverse, n⟩) <;> simp [PointerFact, found]
  | some authority =>
    obtain ⟨zone, at_authority, zoneWf⟩ := wf.handler found
    -- whether or not the pointer is there, the stores end without it
    obtain ⟨kept, holds⟩ : RecordsWellFormed ReverseKind zone.origin
          (removeFromPtrSet hk zone.records ip old) ∧
        ∀ n r, Holds (removeFromPtrSet hk zone.records ip old) n r ↔
          Holds zone.records n r ∧
            ¬ (n = reverseKey hk ip ∧ r.lower = (RData.ptr old.name).lower) := by
      by_cases held : Holds zone.records (reverseKey hk ip) (.ptr old.name)
      · obtain ⟨after, removed, afterWf, effect⟩ := remove_effect laws zoneWf reverseKind_plain
          ⟨reverseKey hk ip, .ptr⟩ ⟨hk.nameOfIp ip, 0, .ptr old.name⟩ rfl rfl rfl held
        have equal : removeFromPtrSet hk zone.records ip old = after := by
          unfold removeFromPtrSet
          exact congrArg (Option.getD · zone.records) removed
        rw [equal]
        exact ⟨afterWf, effect⟩
      · have absent := remove_absent_effect laws zoneWf reverseKind_plain
          ⟨reverseKey hk ip, .ptr⟩ ⟨hk.nameOfIp ip, 0, .ptr old.name⟩ rfl rfl rfl held
        have equal : removeFromPtrSet hk zone.records ip old = zone.records := by
          unfold removeFromPtrSet
          exact congrArg (Option.getD · zone.records) absent
        rw [equal]
        refine ⟨zoneWf, fun n r => (and_iff_left_of_imp ?_).symm⟩
        intro there both
        obtain ⟨rfl, same⟩ := both
        exact held ((holds_congr_lower same).mp there)
    have effect := modifyHandler_effect (fun records => removeFromPtrSet hk records ip old) wf
      at_authority kept
    refine ⟨effect.wellFormed, effect.zones, ?_⟩
    intro f
    rcases f with ⟨n, ip'⟩ | ⟨a, reverse, n⟩
    · refine (effect.facts _).trans ?_
      simp [PointerFact]
    · refine (effect.facts _).trans ?_
      simp only [PointerFact, found, Option.some.injEq]
      split
      next here =>
        subst here
        rw [holds, lower_ptr_eq_iff, LowerName.new_name]
        simp [Has, at_authority]
      next elsewhere => simp [Ne.symm elsewhere]

/-- A removal takes both facts of the pair, but only if the forward zone has it. -/
theorem removeAddress_effect (order : IterationOrder) (laws : hk.RecordLaws) (wf : WrapperWellFormed w) (name : Name)
    (ip : IpAddr) :
    Effect w (w.removeAddress hk order name ip) fun f =>
      Has w f ∧ ¬ (Has w (.address (LowerName.new name) ip) ∧
        PairFact hk (w.findReverseAuthority order) (LowerName.new name) ip f) := by
  unfold AuthorityWrapper.removeAddress AuthorityWrapper.removeRecord
  dsimp only
  by_cases held : Holds w.forward.records (LowerName.new name) (RData.ofIp ip)
  · obtain ⟨records, removed, recordsWf, holds⟩ := remove_effect laws wf.forward
      forwardKind_plain ⟨LowerName.new name, (RData.ofIp ip).recordType⟩ ⟨name, 0, RData.ofIp ip⟩
      (RData.recordType_ofIp ip) rfl rfl held
    have forward := modifyForward_effect (fun _ => records) wf recordsWf
    have reverse := removePointer_effect order laws forward.wellFormed
      (LowerName.new name) ip
    have cover : AuthorityWrapper.findReverseAuthority order (w.modifyForward fun _ => records) =
        w.findReverseAuthority order := funext (forward.zones.cover order)
    rw [removed]
    refine ⟨reverse.wellFormed, forward.zones.trans reverse.zones, fun f => ?_⟩
    refine (reverse.facts f).trans ?_
    rw [cover, forward.facts, pairFact_iff]
    have there : Has w (.address (LowerName.new name) ip) := held
    rcases f with ⟨n, ip'⟩ | ⟨a, rev, n⟩
    · simp [holds, held, PointerFact, Has]
    · simp [there]
  · have absent := remove_absent_effect laws wf.forward forwardKind_plain
      ⟨LowerName.new name, (RData.ofIp ip).recordType⟩ ⟨name, 0, RData.ofIp ip⟩
      (RData.recordType_ofIp ip) rfl rfl held
    rw [absent]
    refine ⟨wf, .refl w, fun f => (and_iff_left ?_).symm⟩
    exact fun both => held both.1

/-- The facts after the addresses in `moved` went from `old` to `new`. -/
def Renamed (hk : Hickory) (cover : IpAddr → Option Handle) (old new : LowerName)
    (moved : IpAddr → Prop) (before : Fact → Prop) (f : Fact) : Prop :=
  (before f ∧ ¬ ∃ ip, moved ip ∧ PairFact hk cover old ip f) ∨
    ∃ ip, moved ip ∧ PairFact hk cover new ip f

theorem renameRecord_effect (order : IterationOrder) (laws : hk.RecordLaws) (wf : WrapperWellFormed w) (old : LowerName)
    (newName : Name) (ip : IpAddr) :
    Effect w (w.renameRecord hk order old newName ip) fun f =>
      (Has w f ∧ ¬ PointerFact hk (w.findReverseAuthority order) old ip f) ∨
        PairFact hk (w.findReverseAuthority order) (LowerName.new newName) ip f := by
  have pointer := removePointer_effect order laws wf old ip
  have pair := upsert_effect order laws pointer.wellFormed newName ip
  have cover := funext (pointer.zones.cover order)
  refine ⟨pair.wellFormed, pointer.zones.trans pair.zones, fun f => ?_⟩
  refine (pair.facts f).trans ?_
  rw [cover, pointer.facts]

/-- The loop of `rename_records` over a list of addresses. -/
theorem renameRecord_loop (order : IterationOrder) (laws : hk.RecordLaws) (wf : WrapperWellFormed w) (old : LowerName)
    (newName : Name) (ips : List IpAddr) :
    Effect w (ips.foldl (AuthorityWrapper.renameRecord hk order old newName) w) fun f =>
      (Has w f ∧ ∀ ip ∈ ips, ¬ PointerFact hk (w.findReverseAuthority order) old ip f) ∨
        ∃ ip ∈ ips, PairFact hk (w.findReverseAuthority order) (LowerName.new newName) ip f := by
  obtain ⟨⟨zones, kept⟩, facts⟩ := foldl_replaces Has
    (fun w' => SameZones w w' ∧ WrapperWellFormed w')
    (AuthorityWrapper.renameRecord hk order old newName)
    (PointerFact hk (w.findReverseAuthority order) old)
    (PairFact hk (w.findReverseAuthority order) (LowerName.new newName))
    (by
      intro w' ip kept
      obtain ⟨zones, kept⟩ := kept
      have turn := renameRecord_effect order laws kept old newName ip
      have cover := funext (zones.cover order)
      rw [cover] at turn
      exact ⟨⟨zones.trans turn.zones, turn.wellFormed⟩, turn.facts⟩)
    (by
      -- a dropped pointer that was just added carries the same reverse name and handler
      intro ip ip' f added dropped
      rcases f with ⟨n, i⟩ | ⟨a, rev, n⟩
      · exact dropped.elim
      · exact ⟨dropped.1, dropped.2.1, added.2.2⟩)
    ips w ⟨.refl w, wf⟩
  exact ⟨kept, zones, facts⟩

theorem mem_addresses (set : RecordSet) (ip : IpAddr) :
    ip ∈ set.records.filterMap RData.ipAddr ↔ (RData.ofIp ip).lower ∈ set.data := by
  simp only [List.mem_filterMap, RecordSet.data, List.mem_map, RData.lower_ofIp]
  refine exists_congr fun r => and_congr_right fun _ => ?_
  rw [← RData.lower_ipAddr, RData.ipAddr_eq_some]

/-- The addresses of a stored set are those its name holds in its family. -/
theorem stored_addresses (wf : WrapperWellFormed w) {n : LowerName} {t : RecordType}
    (kind : ForwardKind t) {set : RecordSet} (found : w.forward.records.lookup ⟨n, t⟩ = some set)
    (ip : IpAddr) : ip ∈ set.records.filterMap RData.ipAddr ↔
      (RData.ofIp ip).recordType = t ∧ Has w (.address n ip) := by
  have setWf := (wf.forward.sets _ set found (forwardKind_plain.ne_soaKey kind _)).2
  rw [mem_addresses]
  constructor
  · intro member
    have sameType := setWf.types _ member
    rw [RData.lower_recordType] at sameType
    exact ⟨sameType, set, by rw [sameType]; exact found, member⟩
  · intro held
    obtain ⟨rfl, set', found', member⟩ := held
    cases found.symm.trans found'
    exact member

/-- One record type of a rename: the addresses of that type stored under the old
name move to the new one. -/
theorem renameRecords_effect (order : IterationOrder) (laws : hk.RecordLaws)
    (wf : WrapperWellFormed w) (old : LowerName) (newName : Name) {t : RecordType}
    (kind : ForwardKind t) :
    Effect w ((w.renameRecords hk order ⟨old, t⟩ newName).getD w)
      (Renamed hk (w.findReverseAuthority order) old (LowerName.new newName)
        (fun ip => (RData.ofIp ip).recordType = t ∧ Has w (.address old ip)) (Has w)) := by
  unfold AuthorityWrapper.renameRecords
  cases found : w.forward.records.lookup ⟨old, t⟩ with
  | none =>
    refine ⟨wf, .refl w, fun f => ?_⟩
    have nothing : ∀ ip, ¬ ((RData.ofIp ip).recordType = t ∧ Has w (.address old ip)) := by
      intro ip moved
      obtain ⟨rfl, set, stored, _⟩ := moved
      rw [found] at stored
      cases stored
    simp [Renamed, nothing]
  | some set =>
    have ips := stored_addresses wf kind found
    have forward := modifyForward_effect (fun records => records.erase ⟨old, t⟩) wf
      (wf.forward.erase forwardKind_plain kind)
    have loop := renameRecord_loop order laws forward.wellFormed old newName
      (set.records.filterMap RData.ipAddr)
    have cover : AuthorityWrapper.findReverseAuthority order
        (w.modifyForward fun records => records.erase ⟨old, t⟩) =
        w.findReverseAuthority order := funext (forward.zones.cover order)
    -- erasing the set takes the addresses that are about to move
    have erased : ∀ f, Has (w.modifyForward fun records => records.erase ⟨old, t⟩) f ↔
        Has w f ∧ ∀ ip ∈ set.records.filterMap RData.ipAddr, f ≠ .address old ip := by
      intro f
      rcases f with ⟨n, ip⟩ | ⟨a, rev, n⟩
      · refine (forward.facts _).trans ?_
        by_cases here : n = old ∧ (RData.ofIp ip).recordType = t
        · obtain ⟨rfl, sameType⟩ := here
          have gone : ¬ Holds (w.forward.records.erase ⟨n, t⟩) n (RData.ofIp ip) := by
            intro moved
            obtain ⟨set', stored, _⟩ := moved
            rw [FiniteMap.lookup_erase, sameType, if_pos rfl] at stored
            cases stored
          refine iff_of_false gone ?_
          intro both
          obtain ⟨held, none⟩ := both
          exact none ip ((ips ip).mpr ⟨sameType, held⟩) rfl
        · have elsewhere : (⟨n, (RData.ofIp ip).recordType⟩ : RrKey) ≠ ⟨old, t⟩ := by
            simpa using here
          simp only [Has, Holds, FiniteMap.lookup_erase, if_neg elsewhere]
          refine (and_iff_left ?_).symm
          rintro ip' member same
          cases same
          exact here ⟨rfl, ((ips ip).mp member).1⟩
      · refine (forward.facts _).trans ?_
        simp
    refine ⟨loop.wellFormed, forward.zones.trans loop.zones, fun f => ?_⟩
    refine (loop.facts f).trans ?_
    rw [cover, erased, Renamed]
    simp only [pairFact_iff, ips, not_exists, not_and, not_or, and_assoc]
    refine or_congr_left (and_congr_right fun _ => ?_)
    exact ⟨fun both ip type held => ⟨both.1 ip ⟨type, held⟩, both.2 ip ⟨type, held⟩⟩,
      fun both => ⟨fun ip moved => (both ip moved.1 moved.2).1,
        fun ip moved => (both ip moved.1 moved.2).2⟩⟩

private theorem replace_twice {B D A D' A' : Prop} (again : A → D' → A') :
    (((B ∧ ¬ D) ∨ A) ∧ ¬ D') ∨ A' ↔ (B ∧ ¬ (D ∨ D')) ∨ (A ∨ A') := by
  by_cases dropped : D'
  · have added : A ∨ A' ↔ A' := or_iff_right_of_imp fun first => again first dropped
    simp [dropped, added]
  · simp [dropped, or_assoc]

/-- Moving the IPv4 addresses and then the IPv6 ones moves them all. -/
private theorem renamed_twice {cover : IpAddr → Option Handle} {old new : LowerName}
    {before middle : Fact → Prop} (f : Fact)
    (later : ∀ ip, (RData.ofIp ip).recordType = .aaaa →
      (middle (.address old ip) ↔ before (.address old ip)))
    (first : ∀ f, middle f ↔ Renamed hk cover old new
      (fun ip => (RData.ofIp ip).recordType = .a ∧ before (.address old ip)) before f) :
    Renamed hk cover old new
        (fun ip => (RData.ofIp ip).recordType = .aaaa ∧ middle (.address old ip)) middle f ↔
      Renamed hk cover old new (fun ip => before (.address old ip)) before f := by
  have moved : ∀ P : IpAddr → Prop, (∃ ip, before (.address old ip) ∧ P ip) ↔
      (∃ ip, ((RData.ofIp ip).recordType = .a ∧ before (.address old ip)) ∧ P ip) ∨
        ∃ ip, ((RData.ofIp ip).recordType = .aaaa ∧ middle (.address old ip)) ∧ P ip := by
    intro P
    constructor
    · intro moved
      obtain ⟨ip, held, p⟩ := moved
      rcases RData.recordType_ofIp ip with isV4 | isV6
      · exact .inl ⟨ip, ⟨isV4, held⟩, p⟩
      · exact .inr ⟨ip, ⟨isV6, (later ip isV6).mpr held⟩, p⟩
    · intro moved
      rcases moved with ⟨ip, ⟨_, held⟩, p⟩ | ⟨ip, ⟨isV6, held⟩, p⟩
      · exact ⟨ip, held, p⟩
      · exact ⟨ip, (later ip isV6).mp held, p⟩
  -- a pair added by the first pass is dropped by the second only to be added again
  have again : (∃ ip, ((RData.ofIp ip).recordType = .a ∧ before (.address old ip)) ∧
        PairFact hk cover new ip f) →
      (∃ ip, ((RData.ofIp ip).recordType = .aaaa ∧ middle (.address old ip)) ∧
        PairFact hk cover old ip f) →
      ∃ ip, ((RData.ofIp ip).recordType = .aaaa ∧ middle (.address old ip)) ∧
        PairFact hk cover new ip f := by
    intro added dropped
    obtain ⟨ip, ⟨isV4, _⟩, added⟩ := added
    obtain ⟨ip', ⟨isV6, held⟩, dropped⟩ := dropped
    refine ⟨ip', ⟨isV6, held⟩, ?_⟩
    rcases f with ⟨n, i⟩ | ⟨a, rev, n⟩
    · obtain ⟨_, rfl⟩ := added
      obtain ⟨_, rfl⟩ := dropped
      rw [isV4] at isV6
      cases isV6
    · exact ⟨dropped.1, dropped.2.1, added.2.2⟩
  simp only [Renamed, moved, first f]
  exact replace_twice again

/-- The two passes of a rename move every address of the old name; nothing else
changes. -/
theorem renameFamilies_effect (order : IterationOrder) (laws : hk.RecordLaws)
    (wf : WrapperWellFormed w) (old new : Name) :
    Effect w
      ((((w.renameRecords hk order ⟨LowerName.new old, .a⟩ new).getD w).renameRecords hk order
        ⟨LowerName.new old, .aaaa⟩ new).getD
          ((w.renameRecords hk order ⟨LowerName.new old, .a⟩ new).getD w))
      (Renamed hk (w.findReverseAuthority order) (LowerName.new old) (LowerName.new new)
        (fun ip => Has w (.address (LowerName.new old) ip)) (Has w)) := by
  have first := renameRecords_effect order laws wf (LowerName.new old) new (t := .a) (.inl rfl)
  have second := renameRecords_effect order laws first.wellFormed (LowerName.new old) new
    (t := .aaaa) (.inr rfl)
  refine ⟨second.wellFormed, first.zones.trans second.zones, fun f => ?_⟩
  rw [second.facts, funext (first.zones.cover order)]
  -- the first pass leaves the IPv6 addresses of the old name in place
  have later : ∀ ip, (RData.ofIp ip).recordType = .aaaa →
      (Has ((w.renameRecords hk order ⟨LowerName.new old, .a⟩ new).getD w)
        (.address (LowerName.new old) ip) ↔ Has w (.address (LowerName.new old) ip)) := by
    intro ip isV6
    rw [first.facts, Renamed]
    constructor
    · intro both
      rcases both with ⟨held, _⟩ | ⟨ip', ⟨isV4, _⟩, _, rfl⟩
      · exact held
      · rw [isV6] at isV4
        cases isV4
    · intro held
      refine .inl ⟨held, ?_⟩
      intro moved
      obtain ⟨ip', ⟨isV4, _⟩, _, rfl⟩ := moved
      rw [isV6] at isV4
      cases isV4
  exact renamed_twice f later first.facts

/-- The table with a fresh zone registered for the network. -/
def withFreshZone (w : AuthorityWrapper) (net : IpNet) (zone : Name) : AuthorityWrapper :=
  { w with
    reverseZones := w.reverseZones.insert net w.handlers.length
    handlers := w.handlers ++ [⟨zone, (∅ : Records).insert (soaKey zone) (soaSet zone)⟩] }

/-- A fresh zone holds no pointer, so no fact changes. -/
theorem freshZone_kept (wf : WrapperWellFormed w) (net : IpNet) (zone : Name) :
    WrapperWellFormed (withFreshZone w net zone) ∧
      ∀ f, Has (withFreshZone w net zone) f ↔ Has w f := by
  refine ⟨⟨wf.forward, ?_, ?_⟩, ?_⟩
  · intro z member
    rcases List.mem_append.mp member with old | new
    · exact wf.handlers z old
    · rw [List.mem_singleton.mp new]
      exact fresh_wellFormed ReverseKind zone
  · intro net' authority registered
    simp only [withFreshZone, FiniteMap.lookup_insert] at registered
    simp only [withFreshZone, List.length_append, List.length_singleton]
    split at registered
    · cases registered
      exact Nat.lt_succ_self _
    · exact Nat.lt_succ_of_lt (wf.shared net' authority registered)
  · intro f
    cases f with
    | address n ip => rfl
    | pointer authority reverse n =>
      simp only [Has, withFreshZone, List.getElem?_append]
      split
      · rfl
      next beyond =>
        have outside : w.handlers[authority]? = none :=
          List.getElem?_eq_none (Nat.le_of_not_lt beyond)
        rw [outside]
        constructor
        · intro held
          obtain ⟨z, found, holds⟩ := held
          obtain rfl := List.mem_singleton.mp (List.mem_of_getElem? found)
          exact absurd holds (fresh_holds zone reverse (.inr (.inr rfl)))
        · intro held
          obtain ⟨z, found, _⟩ := held
          cases found

theorem removeReverseZone_kept (wf : WrapperWellFormed w) (net : IpNet) :
    WrapperWellFormed (w.removeReverseZone net) ∧
      ∀ f, Has (w.removeReverseZone net) f ↔ Has w f := by
  refine ⟨⟨wf.forward, wf.handlers, ?_⟩, fun f => by cases f <;> rfl⟩
  intro net' authority registered
  rw [AuthorityWrapper.removeReverseZone, FiniteMap.lookup_erase] at registered
  split at registered
  · cases registered
  · exact wf.shared net' authority registered

end Operations
end DockerDns.Guarantees
