import DockerDns.Library.GuardedRuns
import DockerDns.Guarantees.TableEffects
import DockerDns.Source.Assertions
import DockerDns.Source.Reference

/-!
# No operation of the table panics

In a well-formed table every call that adds or removes a record meets the
assertions of the record set, so the asserting operations succeed with the
results of the plain ones; the plain ones keep the table well formed. Both hold
along every sequence of operations from a fresh zone.
-/
namespace DockerDns.Guarantees
open Library Source

section Records
variable (hk : Hickory) {kinds : RecordType → Prop} {origin : Name} {records : Records}

theorem append_asserts (wf : RecordsWellFormed kinds origin records) (plain : PlainKinds kinds)
    (key : RrKey) (owner : Name) (rdata : RData) (kind : kinds key.recordType)
    (matching : rdata.recordType = key.recordType) :
    Asserting.appendToRecordSet hk records key owner key.recordType rdata =
      some (appendToRecordSet hk records key owner key.recordType rdata) := by
  unfold Asserting.appendToRecordSet appendToRecordSet Asserting.addRdata
  cases found : records.lookup key with
  | some set =>
    have setWf := (wf.sets key set found (plain.ne_soaKey kind origin)).2
    have asserted : set.Asserts ⟨set.name, set.ttl, rdata⟩ :=
      ⟨rfl, matching.trans setWf.recordType.symm⟩
    simp only [if_pos asserted, Option.map_some]
  | none =>
    have asserted : (RecordSet.withTtl owner key.recordType 5).Asserts
        ⟨(RecordSet.withTtl owner key.recordType 5).name,
          (RecordSet.withTtl owner key.recordType 5).ttl, rdata⟩ := ⟨rfl, matching⟩
    simp only [if_pos asserted, Option.map_some]

theorem removeFromSet_asserts (wf : RecordsWellFormed kinds origin records)
    (plain : PlainKinds kinds) (key : RrKey) (record : Record) (kind : kinds key.recordType)
    (matching : record.data.recordType = key.recordType)
    (owned : LowerName.new record.name = key.name) :
    Asserting.removeFromSet hk records key record = some (removeFromSet hk records key record) := by
  unfold Asserting.removeFromSet removeFromSet Asserting.remove
  cases found : records.lookup key with
  | none => rfl
  | some set =>
    have setWf := (wf.sets key set found (plain.ne_soaKey kind origin)).2
    have asserted : set.Asserts record :=
      ⟨owned.trans setWf.name.symm, matching.trans setWf.recordType.symm⟩
    simp only [if_pos asserted, Option.map_some]
    cases hk.remove set record <;> rfl

end Records

section Operations
variable {hk : Hickory} {w : AuthorityWrapper}

/-- An update of one handler that meets its assertions there. -/
theorem modifyHandler_asserts {authority : Handle} {zone : InMemoryZoneHandler}
    (found : w.handlers[authority]? = some zone) {f : Records → Option Records}
    {g : Records → Records} (asserted : f zone.records = some (g zone.records)) :
    Asserting.modifyHandler w authority f = some (w.modifyHandler authority g) := by
  simp only [Asserting.modifyHandler, found, asserted, Option.map_some, Option.some.injEq,
    AuthorityWrapper.modifyHandler]
  congr 1
  apply List.ext_getElem?
  intro i
  simp only [List.getElem?_modify]
  by_cases here : authority = i
  · subst here
    simp only [found, if_pos]
    rfl
  · simp only [if_neg here]

theorem upsert_asserts (order : IterationOrder) (wf : WrapperWellFormed w)
    (name : Name) (ip : IpAddr) :
    Asserting.upsert hk order w name ip = some (w.upsert hk order name ip) := by
  have forward := append_asserts hk wf.forward forwardKind_plain
    ⟨LowerName.new name, (RData.ofIp ip).recordType⟩ name (RData.ofIp ip)
    (RData.recordType_ofIp ip) rfl
  simp only [Asserting.upsert, forward, Option.bind_some, AuthorityWrapper.upsert]
  -- the forward update leaves the search and the handlers alone
  have cover : ∀ f, (w.modifyForward f).findReverseAuthority order ip =
      w.findReverseAuthority order ip := fun _ => rfl
  rw [cover, cover]
  cases found : w.findReverseAuthority order ip with
  | none => rfl
  | some authority =>
    obtain ⟨zone, at_authority, zoneWf⟩ := wf.handler found
    have asserted := append_asserts hk zoneWf reverseKind_plain ⟨reverseKey hk ip, .ptr⟩
      (hk.nameOfIp ip) (.ptr name) rfl rfl
    have forwardKept : ∀ f, (w.modifyForward f).handlers[authority]? = some zone :=
      fun _ => at_authority
    exact modifyHandler_asserts (forwardKept _) asserted

theorem removePointer_asserts (order : IterationOrder) (wf : WrapperWellFormed w) (ip : IpAddr)
    (name : LowerName) :
    Asserting.removePointer hk order w ip name = some (w.removePointer hk order ip name) := by
  unfold Asserting.removePointer AuthorityWrapper.removePointer
  cases found : w.findReverseAuthority order ip with
  | none => rfl
  | some authority =>
    obtain ⟨zone, at_authority, zoneWf⟩ := wf.handler found
    apply modifyHandler_asserts at_authority
    have asserted := removeFromSet_asserts hk zoneWf reverseKind_plain
      ⟨reverseKey hk ip, .ptr⟩ ⟨hk.nameOfIp ip, 0, .ptr name.name⟩ rfl rfl rfl
    exact congrArg (Option.map (·.getD zone.records)) asserted

theorem renameRecord_asserts (order : IterationOrder) (laws : hk.RecordLaws)
    (wf : WrapperWellFormed w) (old : LowerName) (newName : Name) (ip : IpAddr) :
    Asserting.renameRecord hk order old newName w ip =
      some (w.renameRecord hk order old newName ip) := by
  unfold Asserting.renameRecord
  rw [removePointer_asserts order wf ip old]
  exact upsert_asserts order (removePointer_effect order laws wf old ip).wellFormed newName ip

theorem renameRecords_asserts (order : IterationOrder) (laws : hk.RecordLaws)
    (wf : WrapperWellFormed w) (old : LowerName) (newName : Name) {t : RecordType}
    (kind : ForwardKind t) :
    Asserting.renameRecords hk order w ⟨old, t⟩ newName =
      some (w.renameRecords hk order ⟨old, t⟩ newName) := by
  unfold Asserting.renameRecords AuthorityWrapper.renameRecords
  cases w.forward.records.lookup ⟨old, t⟩ with
  | none => rfl
  | some set =>
    have erased := modifyForward_effect (fun records => records.erase ⟨old, t⟩) wf
      (wf.forward.erase forwardKind_plain kind)
    have turn : ∀ w' ip, WrapperWellFormed w' →
        Asserting.renameRecord hk order old newName w' ip =
          some (w'.renameRecord hk order old newName ip) ∧
        WrapperWellFormed (w'.renameRecord hk order old newName ip) := fun w' ip wf' =>
      ⟨renameRecord_asserts order laws wf' old newName ip,
        (renameRecord_effect order laws wf' old newName ip).wellFormed⟩
    have loop := foldlM_eq_foldl turn (set.records.filterMap RData.ipAddr) erased.wellFormed
    exact congrArg (Option.map some) loop

theorem rename_asserts (order : IterationOrder) (laws : hk.RecordLaws) (wf : WrapperWellFormed w)
    (oldName newName : String) :
    Asserting.rename hk order w oldName newName = some (w.rename hk order oldName newName) := by
  unfold Asserting.rename AuthorityWrapper.rename
  cases hk.parse newName with
  | none => rfl
  | some new =>
    cases hk.parse (AuthorityWrapper.stripPrefix '/' oldName) with
    | none => rfl
    | some old =>
      have first := renameRecords_effect order laws wf (LowerName.new old) new (t := .a) (.inl rfl)
      simp only [renameRecords_asserts order laws wf (LowerName.new old) new (.inl rfl),
        renameRecords_asserts order laws first.wellFormed (LowerName.new old) new (.inr rfl),
        Option.bind_some, Option.map_some]

theorem removeAddress_asserts (order : IterationOrder) (laws : hk.RecordLaws)
    (wf : WrapperWellFormed w) (name : Name) (ip : IpAddr) :
    Asserting.removeAddress hk order w name ip = some (w.removeAddress hk order name ip) := by
  unfold Asserting.removeAddress Asserting.removeRecord AuthorityWrapper.removeAddress
    AuthorityWrapper.removeRecord
  have asserted := removeFromSet_asserts hk wf.forward forwardKind_plain
    ⟨LowerName.new name, (RData.ofIp ip).recordType⟩ ⟨name, 0, RData.ofIp ip⟩
    (RData.recordType_ofIp ip) rfl rfl
  simp only [asserted, Option.bind_some]
  by_cases held : Holds w.forward.records (LowerName.new name) (RData.ofIp ip)
  · obtain ⟨records, removed, recordsWf, _⟩ := remove_effect laws wf.forward forwardKind_plain
      ⟨LowerName.new name, (RData.ofIp ip).recordType⟩ ⟨name, 0, RData.ofIp ip⟩
      (RData.recordType_ofIp ip) rfl rfl held
    have forward := modifyForward_effect (fun _ => records) wf recordsWf
    simp only [removed, removePointer_asserts order forward.wellFormed, Option.map_some,
      Option.getD_some]
  · simp only [remove_absent_effect laws wf.forward forwardKind_plain
      ⟨LowerName.new name, (RData.ofIp ip).recordType⟩ ⟨name, 0, RData.ofIp ip⟩
      (RData.recordType_ofIp ip) rfl rfl held, Option.map_some]

theorem apply_asserts (laws : hk.RecordLaws) (wf : WrapperWellFormed w) (operation : Operation) :
    Asserting.apply hk w operation = some (w.apply hk operation) := by
  cases operation with
  | add order name address => exact upsert_asserts order wf name address
  | removeAddress order name ip => exact removeAddress_asserts order laws wf name ip
  | rename order oldName newName =>
    exact congrArg (Option.map Prod.fst) (rename_asserts order laws wf oldName newName)
  | addReverseZone network zone => rfl
  | removeReverseZone network => rfl

theorem addFreshZone_eq (laws : hk.RecordLaws) (w : AuthorityWrapper) (network : IpNet)
    (zone : Name) : w.addFreshZone hk network zone = withFreshZone w network zone := by
  simp only [AuthorityWrapper.addFreshZone, setUpAuthority_eq laws, AuthorityWrapper.share,
    AuthorityWrapper.addReverseZone, withFreshZone]

/-- A rename that fails leaves the table as it is; one that succeeds moves the
addresses of the old name. -/
theorem rename_effect (order : IterationOrder) (laws : hk.RecordLaws) (wf : WrapperWellFormed w)
    (oldName newName : String) :
    (w.rename hk order oldName newName).1 = w ∨ ∃ old new : Name,
      Effect w (w.rename hk order oldName newName).1
        (Renamed hk (w.findReverseAuthority order) (LowerName.new old) (LowerName.new new)
          (fun ip => Has w (.address (LowerName.new old) ip)) (Has w)) := by
  unfold AuthorityWrapper.rename
  cases hk.parse newName with
  | none => exact .inl rfl
  | some new =>
    cases hk.parse (AuthorityWrapper.stripPrefix '/' oldName) with
    | none => exact .inl rfl
    | some old => exact .inr ⟨old, new, renameFamilies_effect order laws wf old new⟩

end Operations

/-- The zone an operation adds. -/
def addedZones : Operation → List Name
  | .addReverseZone _ zone => [zone]
  | .add .. | .removeAddress .. | .rename .. | .removeReverseZone _ => []

/-- A table over the zone of `domain` and these reverse zones, registered or not. -/
structure TableSafe (domain : Name) (zones : List Name) (w : AuthorityWrapper) : Prop where
  wellFormed : WrapperWellFormed w
  forward : w.forward.origin = domain
  handlers : w.handlers.map (·.origin) = zones

section Runs
variable {hk : Hickory} {domain : Name} {zones : List Name} {w : AuthorityWrapper}

theorem TableSafe.of_effect {w' : AuthorityWrapper} {facts : Fact → Prop}
    (safe : TableSafe domain zones w) (effect : Effect w w' facts) : TableSafe domain zones w' :=
  ⟨effect.wellFormed, effect.zones.forward.trans safe.forward,
    effect.zones.handlers.trans safe.handlers⟩

theorem apply_safe (laws : hk.RecordLaws) (safe : TableSafe domain zones w)
    (operation : Operation) :
    TableSafe domain (zones ++ addedZones operation) (w.apply hk operation) := by
  cases operation with
  | add order name address =>
    rw [addedZones, List.append_nil]
    exact safe.of_effect (upsert_effect order laws safe.wellFormed name address)
  | removeAddress order name ip =>
    rw [addedZones, List.append_nil]
    exact safe.of_effect (removeAddress_effect order laws safe.wellFormed name ip)
  | rename order oldName newName =>
    rw [addedZones, List.append_nil, AuthorityWrapper.apply]
    rcases rename_effect order laws safe.wellFormed oldName newName with same | ⟨_, _, effect⟩
    · rwa [same]
    · exact safe.of_effect effect
  | addReverseZone network zone =>
    rw [AuthorityWrapper.apply, addFreshZone_eq laws]
    refine ⟨(freshZone_kept safe.wellFormed network zone).1, safe.forward, ?_⟩
    rw [withFreshZone, List.map_append, safe.handlers]
    rfl
  | removeReverseZone network =>
    rw [addedZones, List.append_nil]
    exact ⟨(removeReverseZone_kept safe.wellFormed network).1, safe.forward, safe.handlers⟩

theorem run_safe (laws : hk.RecordLaws) (operations : List Operation)
    (safe : TableSafe domain zones w) :
    TableSafe domain (zones ++ operations.flatMap addedZones)
      (operations.foldl (AuthorityWrapper.apply hk) w) := by
  induction operations generalizing w zones with
  | nil => simpa using safe
  | cons operation rest ih =>
    have later := ih (apply_safe laws safe operation)
    rwa [List.append_assoc, ← List.flatMap_cons] at later

theorem new_safe (laws : hk.RecordLaws) {forward : InMemoryZoneHandler}
    (fresh : setUpAuthority hk domain = some forward) : TableSafe domain [] (.new forward) := by
  rw [setUpAuthority_eq laws] at fresh
  cases fresh
  refine ⟨⟨fresh_wellFormed ForwardKind domain, ?_, ?_⟩, rfl, rfl⟩
  · intro zone member
    cases member
  · intro net authority registered
    cases registered

end Runs

/-- Along every sequence of operations from a fresh zone the table stays well
formed over the same zones, no assertion of a record set fails, and a removed
address is gone: without another one of its family its name has no set left. -/
theorem record_stores_stay_well_formed {hk : Hickory} (laws : hk.RecordLaws) {domain : Name}
    {forward : InMemoryZoneHandler} (fresh : setUpAuthority hk domain = some forward)
    (operations : List Operation) {w : AuthorityWrapper}
    (reached : w = operations.foldl (AuthorityWrapper.apply hk) (.new forward)) :
    TableSafe domain (operations.flatMap addedZones) w ∧
    operations.foldlM (Asserting.apply hk) (.new forward) = some w ∧
    ∀ order name ip, ¬ Has (w.removeAddress hk order name ip) (.address (LowerName.new name) ip) ∧
      ∀ t, t ≠ .soa → (∀ ip', (RData.ofIp ip').recordType = t →
          ¬ Has (w.removeAddress hk order name ip) (.address (LowerName.new name) ip')) →
        (w.removeAddress hk order name ip).forward.records.lookup ⟨LowerName.new name, t⟩ =
          none := by
  have start := new_safe laws fresh
  have safe := run_safe laws operations start
  rw [← reached, List.nil_append] at safe
  refine ⟨safe, ?_, ?_⟩
  · rw [reached]
    have turn : ∀ (w' : AuthorityWrapper) (operation : Operation), WrapperWellFormed w' →
        Asserting.apply hk w' operation = some (w'.apply hk operation) ∧
        WrapperWellFormed (w'.apply hk operation) := fun w' operation wf =>
      ⟨apply_asserts laws wf operation,
        (apply_safe laws ⟨wf, rfl, rfl⟩ operation).wellFormed⟩
    exact foldlM_eq_foldl turn operations start.wellFormed
  · intro order name ip
    have removed := removeAddress_effect order laws safe.wellFormed name ip
    refine ⟨?_, fun t plain gone => vacant_of_no_address removed.wellFormed plain gone⟩
    rw [removed.facts]
    intro both
    exact both.2 ⟨both.1, rfl, rfl⟩

section Runs
open Reference

/-- One name in two spellings gains an address twice and loses it once. -/
def spelledTwice : List Operation :=
  [.addReverseZone bridge (name ["17", "172", "in-addr", "arpa"]),
    .add .listed (name ["Web", "docker"]) (.v4 0xac110002#32),
    .add .listed (name ["web", "docker"]) (.v4 0xac110002#32),
    .removeAddress .listed (name ["WEB", "docker"]) (.v4 0xac110002#32)]

theorem record_stores_stay_well_formed_spelled :
    TableSafe env.domain (spelledTwice.flatMap addedZones)
      (spelledTwice.foldl (AuthorityWrapper.apply hickory)
        (.new monitor.authorityWrapper.forward)) :=
  (record_stores_stay_well_formed hickory_recordLaws (setUpAuthority_eq hickory_recordLaws _)
    spelledTwice rfl).1

end Runs
end DockerDns.Guarantees
