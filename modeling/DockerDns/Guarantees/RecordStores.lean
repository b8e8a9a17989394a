import DockerDns.Source.Zones

/-!
# Record stores stay well formed

Every set of a zone is non-empty, carries the type and the owner of its key and
holds distinct data of that type; the zone's SOA set is untouched. Under this
invariant the assertions of the record set operations hold at every call, and
the effect of a call is the insertion or removal of one record.
-/
namespace DockerDns.Guarantees
open Library Source

structure SetWellFormed (key : RrKey) (set : RecordSet) : Prop where
  nonempty : set.data ≠ []
  name : LowerName.new set.name = key.name
  recordType : set.recordType = key.recordType
  types : ∀ r ∈ set.data, r.recordType = key.recordType
  distinct : set.data.Nodup

/-- `kinds` are the record types the zone stores beside its SOA. -/
structure RecordsWellFormed (kinds : RecordType → Prop) (origin : Name) (records : Records) :
    Prop where
  sets : ∀ key set, records.lookup key = some set → key ≠ soaKey origin →
    kinds key.recordType ∧ SetWellFormed key set
  soa : records.lookup (soaKey origin) = some (soaSet origin)

/-- A zone's kinds: plain types, so never the SOA. -/
def PlainKinds (kinds : RecordType → Prop) : Prop := ∀ t, kinds t → t.IsPlain

theorem PlainKinds.ne_soaKey {kinds : RecordType → Prop} (plain : PlainKinds kinds) {key : RrKey}
    (kind : kinds key.recordType) (origin : Name) : key ≠ soaKey origin := by
  rintro rfl
  have := plain _ kind
  simp [soaKey, RecordType.IsPlain] at this

/-- The records hold `r` under the owner `n`, names compared ignoring case. -/
def Holds (records : Records) (n : LowerName) (r : RData) : Prop :=
  ∃ set, records.lookup ⟨n, r.recordType⟩ = some set ∧ r.lower ∈ set.data

instance (records : Records) (n : LowerName) (r : RData) : Decidable (Holds records n r) :=
  match equal : records.lookup ⟨n, r.recordType⟩ with
  | none => .isFalse (by simp [Holds, equal])
  | some set => decidable_of_iff (r.lower ∈ set.data) (by simp [Holds, equal])

theorem holds_congr_lower {records : Records} {n : LowerName} {r r' : RData}
    (same : r.lower = r'.lower) : Holds records n r ↔ Holds records n r' := by
  have types : r.recordType = r'.recordType := by
    rw [← RData.lower_recordType, same, RData.lower_recordType]
  simp only [Holds, types, same]

/-- The SOA set of its origin is the only one a zone stores. -/
theorem RecordsWellFormed.soa_lookup {kinds : RecordType → Prop} {origin : Name}
    {records : Records} (wf : RecordsWellFormed kinds origin records) (plain : PlainKinds kinds)
    {key : RrKey} (soa : key.recordType = .soa) :
    records.lookup key = if key = soaKey origin then some (soaSet origin) else none := by
  split
  next here => rw [here, wf.soa]
  next other =>
    cases found : records.lookup key with
    | none => rfl
    | some set =>
      have kind := plain _ (wf.sets key set found other).1
      rw [soa] at kind
      simp [RecordType.IsPlain] at kind

section Update
variable {hk : Hickory} {kinds : RecordType → Prop} {origin : Name} {records : Records}

private theorem data_eq_nil_iff (set : RecordSet) : set.data = [] ↔ set.isEmpty = true := by
  simp [RecordSet.data, RecordSet.isEmpty]

theorem SetWellFormed.added {key : RrKey} (set : RecordSet) {after : RecordSet} {rdata : RData}
    (name : LowerName.new set.name = key.name) (recordType : set.recordType = key.recordType)
    (types : ∀ r ∈ set.data, r.recordType = key.recordType) (distinct : set.data.Nodup)
    (matching : rdata.recordType = key.recordType) (added : set.Added rdata after) :
    SetWellFormed key after := by
  have member : ∀ r, r ∈ after.data ↔ r = rdata.lower ∨ r ∈ set.data := fun r => by
    rw [added.data.mem_iff, List.mem_insert_iff]
  refine ⟨?_, ?_, added.recordType.trans recordType, ?_, ?_⟩
  · exact List.ne_nil_of_mem ((member rdata.lower).mpr (.inl rfl))
  · rw [added.name, name]
  · intro r inside
    rcases (member r).mp inside with rfl | old
    · rw [RData.lower_recordType, matching]
    · exact types r old
  · exact added.data.nodup_iff.mpr distinct.insert

theorem SetWellFormed.removed {key : RrKey} {set after : RecordSet} {rdata : RData}
    (wf : SetWellFormed key set) (removed : set.Removed rdata after) (rest : after.data ≠ []) :
    SetWellFormed key after := by
  refine ⟨rest, ?_, removed.recordType.trans wf.recordType, ?_, ?_⟩
  · rw [removed.name, wf.name]
  · intro r inside
    exact wf.types r (List.mem_of_mem_erase (removed.data.mem_iff.mp inside))
  · exact removed.data.nodup_iff.mpr (wf.distinct.erase _)

/-- A stored set replaced by another well-formed one. -/
theorem RecordsWellFormed.insert (wf : RecordsWellFormed kinds origin records)
    (plain : PlainKinds kinds) {key : RrKey} {set : RecordSet} (kind : kinds key.recordType)
    (setWf : SetWellFormed key set) :
    RecordsWellFormed kinds origin (records.insert key set) := by
  constructor
  · intro key' set' found different
    rw [FiniteMap.lookup_insert] at found
    split at found
    next same =>
      subst same
      cases found
      exact ⟨kind, setWf⟩
    next => exact wf.sets key' set' found different
  · rw [FiniteMap.lookup_insert, if_neg (plain.ne_soaKey kind origin).symm]
    exact wf.soa

theorem RecordsWellFormed.erase (wf : RecordsWellFormed kinds origin records)
    (plain : PlainKinds kinds) {key : RrKey} (kind : kinds key.recordType) :
    RecordsWellFormed kinds origin (records.erase key) := by
  constructor
  · intro key' set' found different
    rw [FiniteMap.lookup_erase] at found
    split at found
    · cases found
    · exact wf.sets key' set' found different
  · rw [FiniteMap.lookup_erase, if_neg (plain.ne_soaKey kind origin).symm]
    exact wf.soa

private theorem holds_of_lookup {key : RrKey} {n : LowerName} {r : RData}
    (different : ¬ (n = key.name ∧ r.recordType = key.recordType)) {records' : Records}
    (frame : ∀ k, k ≠ key → records'.lookup k = records.lookup k) :
    Holds records' n r ↔ Holds records n r := by
  have other : (⟨n, r.recordType⟩ : RrKey) ≠ key := by
    rintro rfl
    exact different ⟨rfl, rfl⟩
  simp only [Holds, frame _ other]

theorem append_effect (laws : hk.RecordLaws) (wf : RecordsWellFormed kinds origin records)
    (plain : PlainKinds kinds) (key : RrKey) (owner : Name) (rdata : RData)
    (kind : kinds key.recordType) (matching : rdata.recordType = key.recordType)
    (owned : LowerName.new owner = key.name) :
    RecordsWellFormed kinds origin
      (appendToRecordSet hk records key owner key.recordType rdata) ∧
    ∀ n r, Holds (appendToRecordSet hk records key owner key.recordType rdata) n r ↔
      Holds records n r ∨ (n = key.name ∧ r.lower = rdata.lower) := by
  -- both branches store one set that gained `rdata`
  obtain ⟨before, after, stored, holds, added, setWf⟩ : ∃ before after : RecordSet,
      appendToRecordSet hk records key owner key.recordType rdata = records.insert key after ∧
      (∀ r, (∃ set, records.lookup key = some set ∧ r ∈ set.data) ↔ r ∈ before.data) ∧
      before.Added rdata after ∧ SetWellFormed key after := by
    unfold appendToRecordSet
    cases found : records.lookup key with
    | some set =>
      have setWf := (wf.sets key set found (plain.ne_soaKey kind origin)).2
      have added := laws.addRdata set rdata (matching.trans setWf.recordType.symm)
        (setWf.recordType ▸ plain _ kind) setWf.distinct
      exact ⟨set, _, rfl, by simp, added,
        SetWellFormed.added set setWf.name setWf.recordType setWf.types setWf.distinct matching added⟩
    | none =>
      have added := laws.addRdata (RecordSet.withTtl owner key.recordType 5) rdata matching
        (plain _ kind) List.nodup_nil
      exact ⟨_, _, rfl, by simp [RecordSet.withTtl, RecordSet.data], added,
        SetWellFormed.added (RecordSet.withTtl owner key.recordType 5) owned rfl
          (by simp [RecordSet.withTtl, RecordSet.data]) List.nodup_nil matching added⟩
  rw [stored]
  refine ⟨wf.insert plain kind setWf, ?_⟩
  intro n r
  by_cases here : n = key.name ∧ r.recordType = key.recordType
  · obtain ⟨rfl, sameType⟩ := here
    have place : (⟨key.name, r.recordType⟩ : RrKey) = key := by rw [sameType]
    simp only [Holds, place, FiniteMap.lookup_insert, if_pos, Option.some.injEq,
      exists_eq_left', added.data.mem_iff, List.mem_insert_iff, true_and, holds r.lower]
    exact or_comm
  · refine (holds_of_lookup here fun k other => ?_).trans (or_iff_left ?_).symm
    · rw [FiniteMap.lookup_insert, if_neg other]
    · intro both
      obtain ⟨rfl, same⟩ := both
      refine here ⟨rfl, ?_⟩
      rw [← RData.lower_recordType, same, RData.lower_recordType, matching]

theorem remove_effect (laws : hk.RecordLaws) (wf : RecordsWellFormed kinds origin records)
    (plain : PlainKinds kinds) (key : RrKey) (record : Record) (kind : kinds key.recordType)
    (matching : record.data.recordType = key.recordType)
    (owned : LowerName.new record.name = key.name) (held : Holds records key.name record.data) :
    ∃ after, removeFromSet hk records key record = some after ∧
      RecordsWellFormed kinds origin after ∧
      ∀ n r, Holds after n r ↔
        Holds records n r ∧ ¬ (n = key.name ∧ r.lower = record.data.lower) := by
  obtain ⟨set, found, member⟩ := held
  rw [matching] at found
  have setWf := (wf.sets key set found (plain.ne_soaKey kind origin)).2
  obtain ⟨after, removed, effect⟩ := laws.remove_present set record (owned.trans setWf.name.symm)
    (matching.trans setWf.recordType.symm) (setWf.recordType ▸ plain _ kind) setWf.distinct member
  have elsewhere : ∀ records' : Records, (∀ k, k ≠ key → records'.lookup k = records.lookup k) →
      ∀ n r, ¬ (n = key.name ∧ r.recordType = key.recordType) → (Holds records' n r ↔
        Holds records n r ∧ ¬ (n = key.name ∧ r.lower = record.data.lower)) := by
    intro records' frame n r here
    rw [holds_of_lookup here frame]
    refine (and_iff_left ?_).symm
    intro both
    obtain ⟨rfl, same⟩ := both
    refine here ⟨rfl, ?_⟩
    rw [← RData.lower_recordType, same, RData.lower_recordType, matching]
  have here : ∀ r : RData, r.recordType = key.recordType →
      (Holds records key.name r ↔ r.lower ∈ set.data) := by
    intro r sameType
    simp only [Holds, sameType, found, Option.some.injEq, exists_eq_left']
  have split : ∀ r : RData, r.lower ∈ after.data ↔
      r.lower ∈ set.data ∧ r.lower ≠ record.data.lower := by
    intro r
    rw [effect.data.mem_iff, setWf.distinct.mem_erase_iff, and_comm]
  by_cases empty : after.isEmpty = true
  · refine ⟨records.erase key, ?_, wf.erase plain kind, fun n r => ?_⟩
    · simp [removeFromSet, found, removed, empty]
    by_cases at_key : n = key.name ∧ r.recordType = key.recordType
    · obtain ⟨rfl, sameType⟩ := at_key
      rw [here r sameType]
      have gone := split r
      rw [(data_eq_nil_iff after).mpr empty] at gone
      simp only [List.not_mem_nil, false_iff] at gone
      simp only [Holds, sameType, FiniteMap.lookup_erase, if_pos, true_and]
      simpa using gone
    · exact elsewhere _ (fun k other => by rw [FiniteMap.lookup_erase, if_neg other]) n r at_key
  · have rest : after.data ≠ [] := fun nil => empty ((data_eq_nil_iff after).mp nil)
    refine ⟨records.insert key after, ?_, wf.insert plain kind (setWf.removed effect rest),
      fun n r => ?_⟩
    · simp [removeFromSet, found, removed, empty]
    by_cases at_key : n = key.name ∧ r.recordType = key.recordType
    · obtain ⟨rfl, sameType⟩ := at_key
      rw [here r sameType]
      simp only [Holds, sameType, FiniteMap.lookup_insert, if_pos, Option.some.injEq,
        exists_eq_left', true_and]
      exact split r
    · exact elsewhere _ (fun k other => by rw [FiniteMap.lookup_insert, if_neg other]) n r at_key

theorem remove_absent_effect (laws : hk.RecordLaws) (wf : RecordsWellFormed kinds origin records)
    (plain : PlainKinds kinds) (key : RrKey) (record : Record) (kind : kinds key.recordType)
    (matching : record.data.recordType = key.recordType)
    (owned : LowerName.new record.name = key.name) (absent : ¬ Holds records key.name record.data) :
    removeFromSet hk records key record = none := by
  unfold removeFromSet
  cases found : records.lookup key with
  | none => rfl
  | some set =>
    have setWf := (wf.sets key set found (plain.ne_soaKey kind origin)).2
    have missing : record.data.lower ∉ set.data := fun member =>
      absent ⟨set, by rw [matching]; exact found, member⟩
    simp only [laws.remove_absent set record (owned.trans setWf.name.symm)
      (matching.trans setWf.recordType.symm) (setWf.recordType ▸ plain _ kind) setWf.distinct
      missing]

end Update

/-- The types the forward zone stores beside its SOA. -/
def ForwardKind (t : RecordType) : Prop := t = .a ∨ t = .aaaa

/-- The type a reverse zone stores beside its SOA. -/
def ReverseKind (t : RecordType) : Prop := t = .ptr

theorem forwardKind_plain : PlainKinds ForwardKind := by
  intro t family
  rcases family with rfl | rfl
  · exact .inl rfl
  · exact .inr (.inl rfl)

theorem reverseKind_plain : PlainKinds ReverseKind := by
  rintro t rfl
  exact .inr (.inr rfl)

theorem setUpAuthority_eq {hk : Hickory} (laws : hk.RecordLaws) (domain : Name) :
    setUpAuthority hk domain =
      some ⟨domain, (∅ : Records).insert (soaKey domain) (soaSet domain)⟩ := by
  exact laws.newZoneHandler ⟨domain, 3600, .soa domain domain 0 0 0 0 0⟩ rfl

theorem fresh_wellFormed (kinds : RecordType → Prop) (domain : Name) :
    RecordsWellFormed kinds domain ((∅ : Records).insert (soaKey domain) (soaSet domain)) := by
  constructor
  · intro key set found different
    rw [FiniteMap.lookup_insert, if_neg different] at found
    simp at found
  · exact AList.lookup_insert _

/-- A fresh zone holds no record but its SOA. -/
theorem fresh_holds (domain : Name) (n : LowerName) {r : RData} (plain : r.recordType.IsPlain) :
    ¬ Holds ((∅ : Records).insert (soaKey domain) (soaSet domain)) n r := by
  intro held
  obtain ⟨set, found, _⟩ := held
  have different : (⟨n, r.recordType⟩ : RrKey) ≠ soaKey domain := by
    intro same
    have := congrArg RrKey.recordType same
    simp only [soaKey] at this
    rw [this] at plain
    simp [RecordType.IsPlain] at plain
  rw [FiniteMap.lookup_insert, if_neg different] at found
  simp at found

end DockerDns.Guarantees
