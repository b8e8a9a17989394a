import DockerDns.Guarantees.RenameRekeys

/-!
# How a rename spells what it moves

A rename takes a whole record set away before it adds its addresses again, and
each pointer before the new one. What it has moved is therefore stored under the
new name exactly as that is spelled, and a second rename to the same spelling
puts back the sets it takes away.
-/
namespace DockerDns.Guarantees
open Library Source

/-- Every place of the pair stores it as an addition to a vacant place does. -/
def StoredAs (hk : Hickory) (cover : IpAddr → Option Handle) (w : AuthorityWrapper) (name : Name)
    (ip : IpAddr) : Prop :=
  ∀ place, PairPlace hk cover (LowerName.new name) ip place →
    ∃ set, stored w place = some set ∧ (freshAt hk name ip place).SameHead set ∧
      rdataAt name ip place ∈ set.records

/-- The set of the name and type, if there is one, has the name as its owner. -/
def SpelledBy (w : AuthorityWrapper) (name : Name) (t : RecordType) : Prop :=
  ∀ set, stored w (.forward ⟨LowerName.new name, t⟩) = some set → set.name = name

section Additions
variable {hk : Hickory} {cover : IpAddr → Option Handle} {w w' : AuthorityWrapper} {name : Name}
  {ip : IpAddr}

theorem StoredAs.within (as : StoredAs hk cover w name ip) (within : Within w w') :
    StoredAs hk cover w' name ip := by
  intro place here
  obtain ⟨set, found, head, member⟩ := as place here
  obtain ⟨set', found', part⟩ := within place set found
  exact ⟨set', found', ⟨part.head.name.trans head.name, part.head.recordType.trans head.recordType,
    part.head.ttl.trans head.ttl⟩, part.records member⟩

theorem StoredAs.of_frame (as : StoredAs hk cover w name ip)
    (frame : ∀ place, PairPlace hk cover (LowerName.new name) ip place →
      stored w' place = stored w place) : StoredAs hk cover w' name ip := by
  intro place here
  rw [frame place here]
  exact as place here

theorem rdata_of_lower {r : RData} (same : r.lower = RData.ofIp ip) : r = RData.ofIp ip := by
  rw [← RData.ipAddr_eq_some, ← RData.lower_ipAddr, same, RData.ipAddr_eq_some]

/-- The places of two addresses share no pointer set. -/
theorem pointerPlace_apart (names : hk.NameLaws) {n : LowerName} {ip' : IpAddr} {place : Place}
    (other : ip ≠ ip') (here : PairPlace hk cover n ip place) :
    ¬ PointerPlace hk cover ip' place := by
  intro there
  cases place with
  | forward key => exact there
  | reverse authority key =>
    have sameKey : reverseKey hk ip = reverseKey hk ip' :=
      congrArg RrKey.name (here.2.symm.trans there.2)
    exact other (reverseKey_inj names sameKey)

/-- The set a pair joins has the head of a fresh one. -/
theorem baseAt_head (names : hk.NameLaws) (wf : WrapperWellFormed w) (made : Made w)
    (spelled : SpelledBy w name (RData.ofIp ip).recordType) {place : Place}
    (here : PairPlace hk cover (LowerName.new name) ip place) :
    (freshAt hk name ip place).SameHead (baseAt hk w name ip place) := by
  unfold baseAt
  cases found : stored w place with
  | none => exact ⟨rfl, rfl, rfl⟩
  | some set =>
    have plain := pairPlace_plain here
    have kind := (wf.set found plain).recordType
    obtain ⟨ttl, owner⟩ := made place set found plain
    cases place with
    | forward key =>
      obtain rfl := here
      exact ⟨spelled set found, kind, ttl⟩
    | reverse authority key =>
      obtain ⟨_, rfl⟩ := here
      exact ⟨owner.trans (reverseKey_name names ip), kind, ttl⟩

variable (order : IterationOrder)

theorem upsert_storedAs (laws : hk.RecordLaws) (keep : hk.KeepLaws) (names : hk.NameLaws)
    (wf : WrapperWellFormed w) (made : Made w)
    (spelled : SpelledBy w name (RData.ofIp ip).recordType)
    (unpointed : ∀ authority, w.findReverseAuthority order ip = some authority →
      ¬ Has w (.pointer authority (reverseKey hk ip) (LowerName.new name))) :
    StoredAs hk (w.findReverseAuthority order) (w.upsert hk order name ip) name ip := by
  intro place here
  have head := baseAt_head names wf made spelled here
  have typed : (rdataAt name ip place).recordType = (baseAt hk w name ip place).recordType := by
    rw [head.recordType]
    cases place <;> rfl
  have plain := rdataAt_isPlain name ip place
  have grown := keep.addRdata_head _ _ typed plain
  refine ⟨_, (stored_upsert order wf name ip place).trans (if_pos here),
    ⟨grown.name.trans head.name, grown.recordType.trans head.recordType, grown.ttl.trans head.ttl⟩, ?_⟩
  -- the datum is there in some spelling; it is the one just added
  have distinct : (baseAt hk w name ip place).data.Nodup := by
    unfold baseAt
    cases found : stored w place with
    | none => cases place <;> exact List.nodup_nil
    | some set => exact (wf.set found (pairPlace_plain here)).distinct
  have added := (laws.addRdata _ _ typed (typed ▸ plain) distinct).data
  have member := added.mem_iff.mpr (List.mem_insert_self (a := (rdataAt name ip place).lower))
  obtain ⟨r, inside, same⟩ := List.mem_map.mp member
  rcases List.mem_cons.mp (keep.addRdata_adds _ _ typed plain inside) with rfl | old
  · exact inside
  cases place with
  | forward key =>
    have datum : r = RData.ofIp ip := rdata_of_lower (same.trans (RData.lower_ofIp ip))
    rw [datum] at inside
    exact inside
  | reverse authority key =>
    obtain ⟨covered, rfl⟩ := here
    refine absurd ?_ (unpointed authority covered)
    rw [has_iff]
    cases found : stored w (.reverse authority ⟨reverseKey hk ip, .ptr⟩) with
    | none =>
      rw [baseAt, found] at old
      cases old
    | some set =>
      rw [baseAt, found, Option.getD_some] at old
      have datum : r.lower ∈ set.data := List.mem_map_of_mem old
      rw [same] at datum
      exact ⟨set, found, datum⟩

theorem upsert_spelledBy (keep : hk.KeepLaws) (names : hk.NameLaws) (wf : WrapperWellFormed w)
    (made : Made w) (spelled : SpelledBy w name (RData.ofIp ip).recordType) :
    SpelledBy (w.upsert hk order name ip) name (RData.ofIp ip).recordType := by
  intro set found
  have here : PairPlace hk (w.findReverseAuthority order) (LowerName.new name) ip
      (.forward ⟨LowerName.new name, (RData.ofIp ip).recordType⟩) := rfl
  rw [stored_upsert order wf, if_pos here] at found
  cases found
  have head := baseAt_head names wf made spelled here
  have typed : (RData.ofIp ip).recordType =
      (baseAt hk w name ip (.forward ⟨LowerName.new name, (RData.ofIp ip).recordType⟩)).recordType :=
    head.recordType.symm
  have grown := keep.addRdata_head _ _ typed (pairPlace_isPlain here)
  exact grown.name.trans head.name

end Additions

section Renames
variable {hk : Hickory} {w : AuthorityWrapper} (order : IterationOrder) (laws : hk.RecordLaws)
  (keep : hk.KeepLaws) (names : hk.NameLaws)

include laws keep names

/-- One turn of the loop stores its own pair as spelled and keeps the earlier ones. -/
theorem renameRecord_storedAs (wf : WrapperWellFormed w) (made : Made w) {name : Name}
    {ip : IpAddr} (spelled : SpelledBy w name (RData.ofIp ip).recordType) (ip' : IpAddr)
    (before : ip' = ip ∨ StoredAs hk (w.findReverseAuthority order) w name ip') :
    StoredAs hk (w.findReverseAuthority order)
      (w.renameRecord hk order (LowerName.new name) name ip) name ip' := by
  have pointer := removePointer_effect order laws wf (LowerName.new name) ip
  have sameCover := funext (pointer.zones.cover order)
  have removed : ∀ place, stored (w.removePointer hk order ip (LowerName.new name)) place = _ :=
    stored_removePointer order wf ip (LowerName.new name)
  unfold AuthorityWrapper.renameRecord
  by_cases here : ip' = ip
  · subst here
    have shrunk := (Within.refl w).removePointer_left order keep wf ip' (LowerName.new name)
    rw [← sameCover]
    refine upsert_storedAs order laws keep names pointer.wellFormed (made.of_within shrunk) ?_ ?_
    · intro set found
      rw [removed, if_neg (forward_not_pointer _)] at found
      exact spelled set found
    · intro authority covered held
      rw [sameCover] at covered
      exact ((pointer.facts _).mp held).2 ⟨covered, rfl, rfl⟩
  · have unmoved : StoredAs hk (w.findReverseAuthority order)
        (w.removePointer hk order ip (LowerName.new name)) name ip' := by
      refine (before.resolve_left here).of_frame fun place pair => ?_
      rw [removed, if_neg (pointerPlace_apart names here pair)]
    exact unmoved.within ((Within.refl _).upsert_right order keep pointer.wellFormed name ip)

theorem renameRecord_kept (wf : WrapperWellFormed w) (made : Made w) {name : Name} {ip : IpAddr}
    (spelled : SpelledBy w name (RData.ofIp ip).recordType) :
    Made (w.renameRecord hk order (LowerName.new name) name ip) ∧
      SpelledBy (w.renameRecord hk order (LowerName.new name) name ip) name
        (RData.ofIp ip).recordType := by
  have pointer := removePointer_effect order laws wf (LowerName.new name) ip
  have shrunk := (Within.refl w).removePointer_left order keep wf ip (LowerName.new name)
  have made' := made.of_within shrunk
  refine ⟨made_upsert order keep names pointer.wellFormed made' name ip,
    upsert_spelledBy order keep names pointer.wellFormed made' fun set found => ?_⟩
  rw [stored_removePointer order wf, if_neg (forward_not_pointer _)] at found
  exact spelled set found

/-- The loop of a rename stores every pair of its list as spelled. -/
theorem renameRecord_loop_storedAs {name : Name} {t : RecordType} (ips : List IpAddr)
    (family : ∀ ip ∈ ips, (RData.ofIp ip).recordType = t) (wf : WrapperWellFormed w)
    (made : Made w) (spelled : SpelledBy w name t) (ip : IpAddr)
    (before : ip ∈ ips ∨ StoredAs hk (w.findReverseAuthority order) w name ip) :
    StoredAs hk (w.findReverseAuthority order)
      (ips.foldl (AuthorityWrapper.renameRecord hk order (LowerName.new name) name) w) name ip := by
  induction ips generalizing w with
  | nil => exact before.resolve_left List.not_mem_nil
  | cons first rest ih =>
    obtain rfl := family first List.mem_cons_self
    have turn := renameRecord_effect order laws wf (LowerName.new name) name first
    obtain ⟨made', spelled'⟩ := renameRecord_kept order laws keep names wf made spelled
    have stored := renameRecord_storedAs order laws keep names wf made spelled ip
    rw [← funext (turn.zones.cover order)] at stored before ⊢
    refine ih (fun ip member => family ip (List.mem_cons_of_mem _ member)) turn.wellFormed made'
      spelled' ?_
    rcases before with listed | already
    · rcases List.mem_cons.mp listed with here | later
      · exact .inr (stored (.inl here))
      · exact .inl later
    · exact .inr (stored (.inr already))

/-- One record type of a rename of a name to a spelling of itself. -/
theorem renameRecords_storedAs (wf : WrapperWellFormed w) (made : Made w) (name : Name)
    {t : RecordType} (kind : ForwardKind t) {ip : IpAddr} (family : (RData.ofIp ip).recordType = t)
    (held : Has w (.address (LowerName.new name) ip)) :
    StoredAs hk (w.findReverseAuthority order)
      ((w.renameRecords hk order ⟨LowerName.new name, t⟩ name).getD w) name ip := by
  obtain ⟨set, found, _⟩ := id held
  rw [family] at found
  have listed := stored_addresses wf kind found
  simp only [AuthorityWrapper.renameRecords, found, Option.getD_some]
  have erased := modifyForward_effect (fun records => records.erase ⟨LowerName.new name, t⟩) wf
    (wf.forward.erase forwardKind_plain kind)
  have vacant : SpelledBy (w.modifyForward fun records => records.erase ⟨LowerName.new name, t⟩)
      name t := by
    intro set' found'
    have gone := (FiniteMap.lookup_erase w.forward.records ⟨LowerName.new name, t⟩
      ⟨LowerName.new name, t⟩).symm.trans found'
    rw [if_pos rfl] at gone
    cases gone
  exact renameRecord_loop_storedAs order laws keep names _
    (fun ip inside => ((listed ip).mp inside).1) erased.wellFormed
    (made.of_within ((Within.refl w).eraseForward_left _)) vacant ip
    (.inl ((listed ip).mpr ⟨family, held⟩))

end Renames

/-- Both record types of a rename of a name to a spelling of itself. -/
def respelled (hk : Hickory) (order : IterationOrder) (w : AuthorityWrapper) (name : Name) :
    AuthorityWrapper :=
  let first := (w.renameRecords hk order ⟨LowerName.new name, .a⟩ name).getD w
  (first.renameRecords hk order ⟨LowerName.new name, .aaaa⟩ name).getD first

section Respelled
variable {hk : Hickory} {w v : AuthorityWrapper} (order : IterationOrder) (laws : hk.RecordLaws)
  (keep : hk.KeepLaws) (names : hk.NameLaws)

theorem renamed_self {cover : IpAddr → Option Handle} {n : LowerName} {moved : IpAddr → Prop}
    {before : Fact → Prop} (held : ∀ ip, moved ip → before (.address n ip)) (ip : IpAddr) :
    Renamed hk cover n n moved before (.address n ip) ↔ before (.address n ip) := by
  rw [renamed_address]
  by_cases goes : moved ip
  · simp [goes, held ip goes]
  · simp [goes]

include laws keep names in
theorem respelled_storedAs (wf : WrapperWellFormed w) (made : Made w) (name : Name) {ip : IpAddr}
    (held : Has w (.address (LowerName.new name) ip)) :
    StoredAs hk (w.findReverseAuthority order) (respelled hk order w name) name ip := by
  have first := renameRecords_effect order laws wf (LowerName.new name) name (t := .a) (.inl rfl)
  have sameCover := funext (first.zones.cover order)
  have firstMade := made_renameRecords order laws keep names wf made (LowerName.new name) name
    (t := .a) (.inl rfl)
  unfold respelled
  rcases RData.recordType_ofIp ip with isV4 | isV6
  · have moved := renameRecords_storedAs order laws keep names wf made name (.inl rfl) isV4 held
    -- the second pass works at the places of IPv6 addresses only
    refine moved.of_frame fun place here => ?_
    refine renameRecords_frame order laws first.wellFormed (LowerName.new name) name (.inr rfl) place ?_
    intro ip' isV6 _
    have other : ip ≠ ip' := by
      rintro rfl
      rw [isV4] at isV6
      cases isV6
    rw [sameCover]
    refine (and_self_iff).mpr fun there => ?_
    cases place with
    | forward key =>
      have sameType := congrArg RrKey.recordType (here.symm.trans there)
      rw [isV4, isV6] at sameType
      cases sameType
    | reverse authority key => exact pointerPlace_apart names other here there
  · have kept := (first.facts (.address (LowerName.new name) ip)).trans
      (renamed_self (fun _ moved => moved.2) ip)
    have moved := renameRecords_storedAs order laws keep names first.wellFormed firstMade name
      (.inr rfl) isV6 (kept.mpr held)
    rwa [sameCover] at moved

include laws keep in
/-- A rename of pairs that a table stores as spelled stays within it. -/
theorem Within.renameRecords_left (wf : WrapperWellFormed w) (within : Within w v) (name : Name)
    {t : RecordType} (kind : ForwardKind t)
    (stored : ∀ ip, Has w (.address (LowerName.new name) ip) →
      StoredAs hk (w.findReverseAuthority order) v name ip) :
    Within ((w.renameRecords hk order ⟨LowerName.new name, t⟩ name).getD w) v := by
  unfold AuthorityWrapper.renameRecords
  cases found : w.forward.records.lookup ⟨LowerName.new name, t⟩ with
  | none => exact within
  | some set =>
    have erased := modifyForward_effect (fun records => records.erase ⟨LowerName.new name, t⟩) wf
      (wf.forward.erase forwardKind_plain kind)
    have listed : ∀ ip ∈ set.records.filterMap RData.ipAddr,
        StoredAs hk (w.findReverseAuthority order) v name ip := by
      intro ip member
      exact stored ip ((stored_addresses wf kind found ip).mp member).2
    have loop : ∀ (ips : List IpAddr) (u : AuthorityWrapper), WrapperWellFormed u →
        SameZones w u → Within u v →
        (∀ ip ∈ ips, StoredAs hk (w.findReverseAuthority order) v name ip) →
        Within (ips.foldl (AuthorityWrapper.renameRecord hk order (LowerName.new name) name) u) v := by
      intro ips
      induction ips with
      | nil => exact fun _ _ _ within _ => within
      | cons ip rest ih =>
        intro u wf zones within stored
        have turn := renameRecord_effect order laws wf (LowerName.new name) name ip
        have pointer := removePointer_effect order laws wf (LowerName.new name) ip
        refine ih _ turn.wellFormed (zones.trans turn.zones) ?_
          fun ip member => stored ip (List.mem_cons_of_mem _ member)
        refine (within.removePointer_left order keep wf ip _).upsert_left order keep
          pointer.wellFormed name ip ?_
        rw [funext ((zones.trans pointer.zones).cover order)]
        exact stored ip List.mem_cons_self
    exact loop _ _ erased.wellFormed erased.zones (within.eraseForward_left _) listed

include laws keep names in
/-- A second rename to the same spelling takes nothing new in. -/
theorem respelled_again (wf : WrapperWellFormed w) (made : Made w) (name : Name)
    (order' : IterationOrder)
    (sameCover : w.findReverseAuthority order' = w.findReverseAuthority order) :
    Within (respelled hk order' (respelled hk order w name) name) (respelled hk order w name) := by
  have once := renameFamilies_effect order laws wf name name
  have stored : ∀ ip, Has (respelled hk order w name) (.address (LowerName.new name) ip) →
      StoredAs hk (w.findReverseAuthority order) (respelled hk order w name) name ip := by
    intro ip held
    exact respelled_storedAs order laws keep names wf made name
      ((renamed_self (fun _ moved => moved) ip).mp ((once.facts _).mp held))
  have cover : (respelled hk order w name).findReverseAuthority order' =
      w.findReverseAuthority order := (funext (once.zones.cover order')).trans sameCover
  rw [← cover] at stored
  have first := renameRecords_effect order' laws once.wellFormed (LowerName.new name) name
    (t := .a) (.inl rfl)
  have shrunk := (Within.refl (respelled hk order w name)).renameRecords_left order' laws keep
    once.wellFormed name (t := .a) (.inl rfl) stored
  refine shrunk.renameRecords_left order' laws keep first.wellFormed name (.inr rfl) ?_
  intro ip held
  rw [funext (first.zones.cover order')]
  exact stored ip ((renamed_self (fun _ moved => moved.2) ip).mp ((first.facts _).mp held))

end Respelled
end DockerDns.Guarantees
