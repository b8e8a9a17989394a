import DockerDns.Guarantees.ContainerOperations
import DockerDns.Guarantees.SameStates

/-!
# Tables that are part of another

`Within w v`: every set of `w` is found in `v`, under the same owner, type and
TTL, with all its records as they are spelled. Additions keep what is there,
removals only take away, so with the facts on both sides equal nothing but the
order of records can differ.
-/
namespace DockerDns.Guarantees
open Library Source

structure Part (a b : RecordSet) : Prop where
  head : a.SameHead b
  records : a.records ⊆ b.records

def Within (w v : AuthorityWrapper) : Prop :=
  ∀ place set, stored w place = some set → ∃ set', stored v place = some set' ∧ Part set set'

theorem Part.refl (a : RecordSet) : Part a a := ⟨⟨rfl, rfl, rfl⟩, List.Subset.refl _⟩

theorem Part.trans {a b c : RecordSet} (first : Part a b) (later : Part b c) : Part a c :=
  ⟨⟨later.head.name.trans first.head.name, later.head.recordType.trans first.head.recordType,
    later.head.ttl.trans first.head.ttl⟩, List.Subset.trans first.records later.records⟩

theorem Within.refl (w : AuthorityWrapper) : Within w w :=
  fun _ set found => ⟨set, found, .refl set⟩

theorem Within.trans {u v w : AuthorityWrapper} (first : Within u v) (later : Within v w) :
    Within u w := by
  intro place set found
  obtain ⟨set', found', part⟩ := first place set found
  obtain ⟨set'', found'', part'⟩ := later place set' found'
  exact ⟨set'', found'', part.trans part'⟩

/-- Two parts of one set that hold the same data are reorderings of each other. -/
theorem reordered_of_parts {key : RrKey} {a b c : RecordSet} (left : Part a c) (right : Part b c)
    (wfA : SetWellFormed key a) (wfB : SetWellFormed key b) (wfC : SetWellFormed key c)
    (same : ∀ d, d ∈ a.data ↔ d ∈ b.data) : Reordered a b := by
  -- within `c` a record is known by its datum
  have moves : ∀ {x y : RecordSet}, x.records ⊆ c.records → y.records ⊆ c.records →
      (∀ d, d ∈ x.data → d ∈ y.data) → x.records ⊆ y.records := by
    intro x y inX inY same r member
    obtain ⟨r', member', equal⟩ := List.mem_map.mp (same _ (List.mem_map_of_mem member))
    have one := List.inj_on_of_nodup_map wfC.distinct (inY member') (inX member) equal
    exact one ▸ member'
  refine ⟨left.head.name.symm.trans right.head.name,
    left.head.recordType.symm.trans right.head.recordType,
    left.head.ttl.symm.trans right.head.ttl, ?_⟩
  rw [List.map_id, List.map_id, List.perm_ext_iff_of_nodup wfA.distinct.of_map wfB.distinct.of_map]
  intro r
  exact ⟨fun member => moves left.records right.records (fun d => (same d).mp) member,
    fun member => moves right.records left.records (fun d => (same d).mpr) member⟩

theorem sameSets_of_within {w w' v : AuthorityWrapper} (wf : WrapperWellFormed w)
    (wf' : WrapperWellFormed w') (wfV : WrapperWellFormed v) (zones : SameZones w w')
    (left : Within w v) (right : Within w' v) (facts : ∀ f, Has w f ↔ Has w' f) :
    SameSets Reordered w w' := by
  refine sameSets_of_facts wf wf' zones facts (Alike.refl id id) ?_
  intro place set set' found found' plain same
  obtain ⟨whole, stored, part⟩ := left place set found
  obtain ⟨other, stored', part'⟩ := right place set' found'
  cases stored.symm.trans stored'
  exact reordered_of_parts part part' (wf.set found plain) (wf'.set found' plain)
    (wfV.set stored plain) same

section Places
variable {hk : Hickory} {cover : IpAddr → Option Handle}

theorem pairPlace_type {n : LowerName} {ip : IpAddr} {place : Place}
    (here : PairPlace hk cover n ip place) (name : Name) :
    (rdataAt name ip place).recordType = place.key.recordType := by
  cases place with
  | forward key => exact congrArg RrKey.recordType (Eq.symm here)
  | reverse authority key => exact congrArg RrKey.recordType here.2.symm

theorem pairPlace_isPlain {n : LowerName} {ip : IpAddr} {place : Place}
    (here : PairPlace hk cover n ip place) : place.key.recordType.IsPlain := by
  cases place with
  | forward key =>
    obtain rfl := here
    exact forwardKind_plain _ (RData.recordType_ofIp ip)
  | reverse authority key =>
    obtain ⟨_, rfl⟩ := here
    exact .inr (.inr rfl)

theorem pairPlace_plain {n : LowerName} {ip : IpAddr} {place : Place}
    (here : PairPlace hk cover n ip place) : place.key.recordType ≠ .soa := by
  intro soa
  have plain := pairPlace_isPlain here
  rw [soa] at plain
  simp [RecordType.IsPlain] at plain

/-- The datum of a pair at one of its places states one of the pair's facts. -/
theorem pairPlace_fact {name : Name} {ip : IpAddr} {place : Place}
    (here : PairPlace hk cover (LowerName.new name) ip place) :
    ∃ f, PairFact hk cover (LowerName.new name) ip f ∧ f.place = place ∧
      f.rdata = (rdataAt name ip place).lower := by
  cases place with
  | forward key =>
    obtain rfl := here
    exact ⟨.address (LowerName.new name) ip, ⟨rfl, rfl⟩, rfl, (RData.lower_ofIp ip).symm⟩
  | reverse authority key =>
    obtain ⟨covered, rfl⟩ := here
    exact ⟨.pointer authority (reverseKey hk ip) (LowerName.new name), ⟨covered, rfl, rfl⟩, rfl, rfl⟩

theorem recordAt_data (hk : Hickory) (name : Name) (ip : IpAddr) (place : Place) :
    (recordAt hk name ip place).data.lower = (rdataAt name ip place).lower := by
  cases place with
  | forward key => rfl
  | reverse authority key => simp [recordAt, rdataAt, RData.lower, LowerName.new]

theorem removeAt_part (keep : hk.KeepLaws) {record : Record} {o : Option RecordSet}
    {rest : RecordSet} (removed : removeAt hk record o = some rest) :
    ∃ set, o = some set ∧ Part rest set := by
  cases o with
  | none => cases removed
  | some set =>
    simp only [removeAt, Option.bind_some] at removed
    cases found : hk.remove set record with
    | none =>
      rw [found] at removed
      cases removed
      exact ⟨_, rfl, .refl _⟩
    | some after =>
      rw [found] at removed
      dsimp only at removed
      split at removed
      · cases removed
      · cases removed
        have head := keep.remove_head set record _ found
        exact ⟨set, rfl, ⟨head.name.symm, head.recordType.symm, head.ttl.symm⟩,
          keep.remove_keeps set record _ found⟩

/-- A removal leaves the records of other data as they are. -/
theorem kept_of_removed (laws : hk.RecordLaws) (keep : hk.KeepLaws) {key : RrKey}
    {set after : RecordSet} {record : Record} (wf : SetWellFormed key set)
    (plain : key.recordType.IsPlain) (owned : LowerName.new record.name = key.name)
    (matching : record.data.recordType = key.recordType)
    (removed : hk.remove set record = some after) {r : RData} (member : r ∈ set.records)
    (other : r.lower ≠ record.data.lower) : r ∈ after.records := by
  have sameName := owned.trans wf.name.symm
  have sameType := matching.trans wf.recordType.symm
  have isPlain : set.recordType.IsPlain := wf.recordType ▸ plain
  have held : record.data.lower ∈ set.data := by
    by_contra absent
    rw [laws.remove_absent set record sameName sameType isPlain wf.distinct absent] at removed
    cases removed
  obtain ⟨_, removed', effect⟩ :=
    laws.remove_present set record sameName sameType isPlain wf.distinct held
  cases removed.symm.trans removed'
  have kept : r.lower ∈ after.data := by
    rw [effect.data.mem_iff, wf.distinct.mem_erase_iff]
    exact ⟨other, List.mem_map_of_mem member⟩
  obtain ⟨r', member', same⟩ := List.mem_map.mp kept
  have one := List.inj_on_of_nodup_map wf.distinct (keep.remove_keeps set record after removed member')
    member same
  exact one ▸ member'

theorem recordAt_asserts {name : Name} {ip : IpAddr} {place : Place}
    (here : PairPlace hk cover (LowerName.new name) ip place) :
    LowerName.new (recordAt hk name ip place).name = place.key.name ∧
      (recordAt hk name ip place).data.recordType = place.key.recordType := by
  cases place with
  | forward key =>
    obtain rfl := here
    exact ⟨rfl, rfl⟩
  | reverse authority key =>
    obtain ⟨_, rfl⟩ := here
    exact ⟨rfl, rfl⟩

end Places

section Operations
variable {hk : Hickory} {v w : AuthorityWrapper} (order : IterationOrder)

/-- Additions keep what is there. -/
theorem Within.upsert_right (keep : hk.KeepLaws) (wf : WrapperWellFormed w) (within : Within v w)
    (name : Name) (ip : IpAddr) : Within v (w.upsert hk order name ip) := by
  intro place set found
  obtain ⟨set', found', part⟩ := within place set found
  rw [stored_upsert order wf]
  split
  next here =>
    have matching : (rdataAt name ip place).recordType = set'.recordType :=
      (pairPlace_type here name).trans (wf.set found' (pairPlace_plain here)).recordType.symm
    rw [baseAt, found', Option.getD_some]
    have plain := rdataAt_isPlain name ip place
    exact ⟨_, rfl, part.trans
      ⟨keep.addRdata_head set' _ matching plain, keep.addRdata_keeps set' _ matching plain⟩⟩
  next => exact ⟨set', found', part⟩

/-- Additions of what a table holds, spelled as there, stay within it. -/
theorem Within.upsert_left (keep : hk.KeepLaws) (wf : WrapperWellFormed w) (within : Within w v)
    (name : Name) (ip : IpAddr)
    (held : ∀ place, PairPlace hk (w.findReverseAuthority order) (LowerName.new name) ip place →
      ∃ set, stored v place = some set ∧ (freshAt hk name ip place).SameHead set ∧
        rdataAt name ip place ∈ set.records) :
    Within (w.upsert hk order name ip) v := by
  intro place set found
  rw [stored_upsert order wf] at found
  split at found
  next here =>
    cases found
    obtain ⟨whole, stored, head, member⟩ := held place here
    have kind := pairPlace_type here name
    -- the base is the stored set, or a fresh one with the owner and TTL of `whole`
    have base : Part (baseAt hk w name ip place) whole ∧
        (rdataAt name ip place).recordType = (baseAt hk w name ip place).recordType := by
      unfold baseAt
      cases before : Guarantees.stored w place with
      | none =>
        refine ⟨⟨head, ?_⟩, ?_⟩
        · cases place <;> exact List.nil_subset _
        · cases place <;> rfl
      | some set' =>
        obtain ⟨whole', stored', part⟩ := within place set' before
        cases stored.symm.trans stored'
        exact ⟨part, kind.trans (wf.set before (pairPlace_plain here)).recordType.symm⟩
    have plain := rdataAt_isPlain name ip place
    have grown := keep.addRdata_head _ _ base.2 plain
    refine ⟨whole, stored, ⟨?_, ?_⟩⟩
    · exact ⟨base.1.head.name.trans grown.name.symm,
        base.1.head.recordType.trans grown.recordType.symm, base.1.head.ttl.trans grown.ttl.symm⟩
    · intro r inside
      rcases List.mem_cons.mp (keep.addRdata_adds _ _ base.2 plain inside) with rfl | old
      · exact member
      · exact base.1.records old
  next => exact within place set found

theorem Within.removePointer_left (keep : hk.KeepLaws) (wf : WrapperWellFormed w)
    (within : Within w v) (ip : IpAddr) (old : LowerName) :
    Within (w.removePointer hk order ip old) v := by
  intro place set found
  rw [stored_removePointer order wf] at found
  split at found
  next =>
    obtain ⟨whole, before, part⟩ := removeAt_part keep found
    obtain ⟨set', found', part'⟩ := within place whole before
    exact ⟨set', found', part.trans part'⟩
  next => exact within place set found

/-- Removals only take away. -/
theorem Within.removeAddress_left (laws : hk.RecordLaws) (keep : hk.KeepLaws)
    (wf : WrapperWellFormed w) (within : Within w v) (name : Name) (ip : IpAddr) :
    Within (w.removeAddress hk order name ip) v := by
  by_cases held : Has w (.address (LowerName.new name) ip)
  · intro place set found
    rw [stored_removeAddress order laws wf name ip held] at found
    split at found
    next =>
      obtain ⟨whole, before, part⟩ := removeAt_part keep found
      obtain ⟨set', found', part'⟩ := within place whole before
      exact ⟨set', found', part.trans part'⟩
    next => exact within place set found
  · rwa [removeAddress_absent order laws wf name ip held]

theorem Within.eraseForward_left (within : Within w v) (key : RrKey) :
    Within (w.modifyForward fun records => records.erase key) v := by
  intro place set found
  cases place with
  | forward k =>
    simp only [stored, AuthorityWrapper.modifyForward, InMemoryZoneHandler.modify_records,
      FiniteMap.lookup_erase] at found
    split at found
    · cases found
    · exact within (.forward k) set found
  | reverse a k => exact within (.reverse a k) set found

/-- Removals of what a table does not hold leave the table within. -/
theorem Within.removeAddress_right (laws : hk.RecordLaws) (keep : hk.KeepLaws)
    (wfV : WrapperWellFormed v) (wf : WrapperWellFormed w) (within : Within v w) (name : Name)
    (ip : IpAddr)
    (absent : ∀ f, PairFact hk (w.findReverseAuthority order) (LowerName.new name) ip f →
      ¬ Has v f) : Within v (w.removeAddress hk order name ip) := by
  by_cases held : Has w (.address (LowerName.new name) ip)
  · intro place set found
    obtain ⟨set', found', part⟩ := within place set found
    rw [stored_removeAddress order laws wf name ip held]
    split
    next here =>
      have plain := pairPlace_plain here
      have setWf := wf.set found' plain
      simp only [removeAt, found', Option.bind_some]
      cases removed : hk.remove set' (recordAt hk name ip place) with
      | none => exact ⟨set', rfl, part⟩
      | some rest =>
        have kept : set.records ⊆ rest.records := by
          intro r member
          have asserts := recordAt_asserts here
          refine kept_of_removed laws keep setWf (pairPlace_isPlain here) asserts.1 asserts.2
            removed (part.records member) ?_
          intro same
          obtain ⟨f, pair, rfl, datum⟩ := pairPlace_fact here
          refine absent f pair ((has_iff f).mpr ⟨set, found, ?_⟩)
          rw [datum, ← recordAt_data hk, ← same]
          exact List.mem_map_of_mem member
        have head := keep.remove_head set' _ rest removed
        obtain ⟨d, inside⟩ := List.exists_mem_of_ne_nil _ (wfV.set found plain).nonempty
        obtain ⟨r, member, _⟩ := List.mem_map.mp inside
        have occupied : ¬ rest.isEmpty = true := by
          rw [RecordSet.isEmpty, List.isEmpty_iff]
          exact List.ne_nil_of_mem (kept member)
        exact ⟨rest, if_neg occupied, ⟨head.name.trans part.head.name,
          head.recordType.trans part.head.recordType, head.ttl.trans part.head.ttl⟩, kept⟩
    next => exact ⟨set', found', part⟩
  · rwa [removeAddress_absent order laws wf name ip held]

end Operations

/-- An addition, or the removal of a pair of which the table has no fact. -/
def Spares (hk : Hickory) (v : AuthorityWrapper) : Operation → Prop
  | .add .. => True
  | .removeAddress order name ip =>
    ∀ f, PairFact hk (v.findReverseAuthority order) (LowerName.new name) ip f → ¬ Has v f
  | .rename .. | .addReverseZone .. | .removeReverseZone _ => False

section Runs
variable {hk : Hickory} {v w : AuthorityWrapper}

/-- Operations that spare a table keep it within. -/
theorem Within.run_right (laws : hk.RecordLaws) (keep : hk.KeepLaws) (wfV : WrapperWellFormed v)
    (operations : List Operation) (spares : ∀ operation ∈ operations, Spares hk v operation)
    (wf : WrapperWellFormed w) (zones : SameZones v w) (within : Within v w) :
    Within v (operations.foldl (AuthorityWrapper.apply hk) w) := by
  induction operations generalizing w with
  | nil => exact within
  | cons operation rest ih =>
    have later := fun op member => spares op (List.mem_cons_of_mem _ member)
    have first := spares operation List.mem_cons_self
    cases operation with
    | add order name ip =>
      have effect := upsert_effect order laws wf name ip
      exact ih later effect.wellFormed (zones.trans effect.zones)
        (within.upsert_right order keep wf name ip)
    | removeAddress order name ip =>
      have effect := removeAddress_effect order laws wf name ip
      refine ih later effect.wellFormed (zones.trans effect.zones)
        (within.removeAddress_right order laws keep wfV wf name ip ?_)
      rw [funext (zones.cover order)]
      exact first
    | rename | addReverseZone | removeReverseZone => exact first.elim

/-- Removals stay within. -/
theorem Within.removes_left (laws : hk.RecordLaws) (keep : hk.KeepLaws)
    (operations : List Operation)
    (removes : ∀ operation ∈ operations, ∃ order name ip, operation = .removeAddress order name ip)
    (wf : WrapperWellFormed w) (within : Within w v) :
    Within (operations.foldl (AuthorityWrapper.apply hk) w) v := by
  induction operations generalizing w with
  | nil => exact within
  | cons operation rest ih =>
    obtain ⟨order, name, ip, rfl⟩ := removes operation List.mem_cons_self
    exact ih (fun op member => removes op (List.mem_cons_of_mem _ member))
      (removeAddress_effect order laws wf name ip).wellFormed
      (within.removeAddress_left order laws keep wf name ip)

end Runs
end DockerDns.Guarantees
