import DockerDns.Guarantees.TableEffects

/-!
# The record sets a table stores

A table is read place by place: a key of the forward zone or of one handler.
One equation for each operation says what becomes of every place; `Within`
compares two tables set by set, and `Alike` says how far two sets may differ.
-/
namespace DockerDns.Guarantees
open Library Source

inductive Place where
  | forward (key : RrKey)
  | reverse (authority : Handle) (key : RrKey)
  deriving DecidableEq

def Place.key : Place → RrKey
  | .forward key => key
  | .reverse _ key => key

def stored (w : AuthorityWrapper) : Place → Option RecordSet
  | .forward key => w.forward.records.lookup key
  | .reverse authority key => (w.handlers[authority]?).bind fun zone => zone.records.lookup key

section Places
variable (hk : Hickory) (cover : IpAddr → Option Handle)

/-- The pointers of an address in the handler that covers it. -/
def PointerPlace (ip : IpAddr) : Place → Prop
  | .forward _ => False
  | .reverse authority key => cover ip = some authority ∧ key = ⟨reverseKey hk ip, .ptr⟩

/-- The places of a name and an address: its address records, and the pointers
of the address. -/
def PairPlace (n : LowerName) (ip : IpAddr) : Place → Prop
  | .forward key => key = ⟨n, (RData.ofIp ip).recordType⟩
  | .reverse authority key => PointerPlace hk cover ip (.reverse authority key)

instance (ip : IpAddr) : DecidablePred (PointerPlace hk cover ip)
  | .forward _ => .isFalse id
  | .reverse _ _ => inferInstanceAs (Decidable (_ ∧ _))

instance (n : LowerName) (ip : IpAddr) : DecidablePred (PairPlace hk cover n ip)
  | .forward _ => inferInstanceAs (Decidable (_ = _))
  | .reverse authority key =>
    inferInstanceAs (Decidable (PointerPlace hk cover ip (.reverse authority key)))

end Places

/-- The datum a pair stores at one of its places. -/
def rdataAt (name : Name) (ip : IpAddr) : Place → RData
  | .forward _ => RData.ofIp ip
  | .reverse _ _ => .ptr name

theorem rdataAt_isPlain (name : Name) (ip : IpAddr) (place : Place) :
    (rdataAt name ip place).recordType.IsPlain := by
  cases place with
  | forward key => exact (RData.recordType_ofIp ip).imp_right .inl
  | reverse authority key => exact .inr (.inr rfl)

/-- The empty set a pair starts from at a vacant place. -/
def freshAt (hk : Hickory) (name : Name) (ip : IpAddr) : Place → RecordSet
  | .forward _ => RecordSet.withTtl name (RData.ofIp ip).recordType 5
  | .reverse _ _ => RecordSet.withTtl (hk.nameOfIp ip) .ptr 5

/-- The set a pair is added to at one of its places. -/
def baseAt (hk : Hickory) (w : AuthorityWrapper) (name : Name) (ip : IpAddr) (place : Place) :
    RecordSet :=
  (stored w place).getD (freshAt hk name ip place)

/-- The record that names a pair at one of its places when it is to be removed. -/
def recordAt (hk : Hickory) (name : Name) (ip : IpAddr) : Place → Record
  | .forward _ => ⟨name, 0, RData.ofIp ip⟩
  | .reverse _ _ => ⟨hk.nameOfIp ip, 0, .ptr (LowerName.new name).name⟩

/-- A place after the removal of a record: a set that held it, vacant once empty. -/
def removeAt (hk : Hickory) (record : Record) (set : Option RecordSet) : Option RecordSet :=
  match set.bind fun set => hk.remove set record with
  | none => set
  | some rest => if rest.isEmpty then none else some rest

theorem forward_not_pointer {hk : Hickory} {cover : IpAddr → Option Handle} {ip : IpAddr}
    (key : RrKey) : ¬ PointerPlace hk cover ip (.forward key) := id

section Records
variable (hk : Hickory) (records : Records) (key k : RrKey)

theorem append_lookup (owner : Name) (t : RecordType) (rdata : RData) :
    (appendToRecordSet hk records key owner t rdata).lookup k =
      if k = key then some (hk.addRdata ((records.lookup key).getD (.withTtl owner t 5)) rdata)
      else records.lookup k := by
  unfold appendToRecordSet
  cases records.lookup key <;> exact FiniteMap.lookup_insert _ _ _ _

theorem removeFromSet_lookup (record : Record) :
    ((removeFromSet hk records key record).getD records).lookup k =
      if k = key then removeAt hk record (records.lookup key) else records.lookup k := by
  -- a removal that finds nothing leaves the key as it is
  have nothing : records.lookup k = if k = key then records.lookup key else records.lookup k := by
    by_cases here : k = key
    · rw [if_pos here, here]
    · rw [if_neg here]
  unfold removeFromSet removeAt
  cases found : records.lookup key with
  | none => rwa [found] at nothing
  | some set =>
    simp only [Option.bind_some]
    cases hk.remove set record with
    | none => rwa [found] at nothing
    | some rest =>
      simp only [Option.getD_some]
      by_cases vacant : rest.isEmpty = true
      · simp only [if_pos vacant, FiniteMap.lookup_erase]
      · simp only [if_neg vacant, FiniteMap.lookup_insert]

end Records

section Operations
variable {hk : Hickory} {w : AuthorityWrapper}

theorem stored_modifyHandler (authority a : Handle) (f : Records → Records) (key : RrKey) :
    stored (w.modifyHandler authority f) (.reverse a key) =
      if a = authority then (w.handlers[a]?).bind fun zone => (f zone.records).lookup key
      else stored w (.reverse a key) := by
  simp only [stored, AuthorityWrapper.modifyHandler, List.getElem?_modify]
  by_cases here : a = authority
  · subst here
    cases w.handlers[a]? <;> simp
  · simp [here, Ne.symm here]

theorem stored_upsert (order : IterationOrder) (wf : WrapperWellFormed w) (name : Name)
    (ip : IpAddr) (place : Place) :
    stored (w.upsert hk order name ip) place =
      if PairPlace hk (w.findReverseAuthority order) (LowerName.new name) ip place then
        some (hk.addRdata (baseAt hk w name ip place) (rdataAt name ip place))
      else stored w place := by
  have cover : ∀ f, (w.modifyForward f).findReverseAuthority order ip =
      w.findReverseAuthority order ip := fun _ => rfl
  have forward : ∀ key, (appendToRecordSet hk w.forward.records
      ⟨LowerName.new name, (RData.ofIp ip).recordType⟩ name (RData.ofIp ip).recordType
      (RData.ofIp ip)).lookup key =
        if key = ⟨LowerName.new name, (RData.ofIp ip).recordType⟩ then
          some (hk.addRdata (baseAt hk w name ip (.forward key)) (RData.ofIp ip))
        else w.forward.records.lookup key := by
    intro key
    rw [append_lookup]
    split
    next here => subst here; rfl
    next => rfl
  simp only [AuthorityWrapper.upsert, cover]
  cases found : w.findReverseAuthority order ip with
  | none =>
    cases place with
    | forward key => exact forward key
    | reverse a key =>
      rw [if_neg fun both => absurd both.1 (by simp [found])]
      rfl
  | some authority =>
    obtain ⟨zone, at_authority, _⟩ := wf.handler found
    cases place with
    | forward key => exact forward key
    | reverse a key =>
      rw [stored_modifyHandler]
      by_cases here : a = authority
      · subst here
        have before : ∀ k, stored w (.reverse a k) = zone.records.lookup k := by
          intro k
          simp only [stored, at_authority, Option.bind_some]
        have after : ∀ f, (w.modifyForward f).handlers[a]? = some zone := fun _ => at_authority
        simp only [if_true, after, Option.bind_some, append_lookup, PairPlace, PointerPlace, found,
          true_and, ← before]
        split
        next same =>
          subst same
          exact (if_pos rfl).symm
        next other => exact (if_neg other).symm
      · have apart : ¬ PairPlace hk (w.findReverseAuthority order) (LowerName.new name) ip
            (.reverse a key) := by
          intro both
          exact here (Option.some.inj (both.1.symm.trans found))
        rw [if_neg here, if_neg apart]
        rfl

theorem stored_removePointer (order : IterationOrder) (wf : WrapperWellFormed w) (ip : IpAddr)
    (old : LowerName) (place : Place) :
    stored (w.removePointer hk order ip old) place =
      if PointerPlace hk (w.findReverseAuthority order) ip place then
        removeAt hk ⟨hk.nameOfIp ip, 0, .ptr old.name⟩ (stored w place)
      else stored w place := by
  unfold AuthorityWrapper.removePointer
  cases place with
  | forward key =>
    rw [if_neg (forward_not_pointer key)]
    cases w.findReverseAuthority order ip <;> rfl
  | reverse a key =>
    cases found : w.findReverseAuthority order ip with
    | none => rw [if_neg fun both => absurd both.1 (by simp [found])]
    | some authority =>
      obtain ⟨zone, at_authority, _⟩ := wf.handler found
      dsimp only
      rw [stored_modifyHandler]
      by_cases here : a = authority
      · subst here
        have before : ∀ k, stored w (.reverse a k) = zone.records.lookup k := by
          intro k
          simp only [stored, at_authority, Option.bind_some]
        simp only [if_true, at_authority, Option.bind_some, removeFromPtrSet,
          removeFromSet_lookup, PointerPlace, found, true_and, ← before]
        split
        next same =>
          subst same
          exact (if_pos rfl).symm
        next other => exact (if_neg other).symm
      · have apart : ¬ PointerPlace hk (w.findReverseAuthority order) ip (.reverse a key) := by
          intro both
          exact here (Option.some.inj (both.1.symm.trans found))
        rw [if_neg here, if_neg apart]

/-- An address that is not there is not removed. -/
theorem removeAddress_absent (order : IterationOrder) (laws : hk.RecordLaws)
    (wf : WrapperWellFormed w) (name : Name) (ip : IpAddr)
    (absent : ¬ Has w (.address (LowerName.new name) ip)) :
    w.removeAddress hk order name ip = w := by
  have vacant := remove_absent_effect laws wf.forward forwardKind_plain
    ⟨LowerName.new name, (RData.ofIp ip).recordType⟩ ⟨name, 0, RData.ofIp ip⟩
    (RData.recordType_ofIp ip) rfl rfl absent
  simp only [AuthorityWrapper.removeAddress, AuthorityWrapper.removeRecord, vacant, Option.getD_none]

theorem stored_removeAddress (order : IterationOrder) (laws : hk.RecordLaws)
    (wf : WrapperWellFormed w) (name : Name) (ip : IpAddr)
    (held : Has w (.address (LowerName.new name) ip)) (place : Place) :
    stored (w.removeAddress hk order name ip) place =
      if PairPlace hk (w.findReverseAuthority order) (LowerName.new name) ip place then
        removeAt hk (recordAt hk name ip place) (stored w place)
      else stored w place := by
  obtain ⟨records, removed, recordsWf, _⟩ := remove_effect laws wf.forward forwardKind_plain
    ⟨LowerName.new name, (RData.ofIp ip).recordType⟩ ⟨name, 0, RData.ofIp ip⟩
    (RData.recordType_ofIp ip) rfl rfl held
  have forwardWf := (modifyForward_effect (fun _ => records) wf recordsWf).wellFormed
  have after : w.removeAddress hk order name ip =
      (w.modifyForward fun _ => records).removePointer hk order ip (LowerName.new name) := by
    simp only [AuthorityWrapper.removeAddress, AuthorityWrapper.removeRecord, removed,
      Option.getD_some]
  rw [after, stored_removePointer order forwardWf]
  cases place with
  | forward key =>
    rw [if_neg (forward_not_pointer key)]
    have found := removeFromSet_lookup hk w.forward.records
      ⟨LowerName.new name, (RData.ofIp ip).recordType⟩ key ⟨name, 0, RData.ofIp ip⟩
    rw [removed, Option.getD_some] at found
    refine Eq.trans found ?_
    simp only [PairPlace, recordAt, stored]
    split
    next here =>
      subst here
      exact (if_pos rfl).symm
    next other => exact (if_neg other).symm
  | reverse a key => rfl

end Operations
end DockerDns.Guarantees
