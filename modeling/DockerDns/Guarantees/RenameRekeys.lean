import DockerDns.Guarantees.TableStates

/-!
# A rename is a re-keying, or nothing

The table seen as two sets of pairs: names with their addresses, and addresses
with the names their pointers give. A rename whose two names parse moves the
addresses of the old name to the new one in both sets and leaves every other
record set as it is; otherwise it leaves the table as it is.
-/
namespace DockerDns.Guarantees
open Library Source

/-- The forward zone holds an A or AAAA record of the name with this address. -/
def ForwardPair (w : AuthorityWrapper) (n : LowerName) (ip : IpAddr) : Prop := Has w (.address n ip)

/-- A registered reverse zone holds a pointer of the address to the name. -/
def ReversePair (hk : Hickory) (w : AuthorityWrapper) (ip : IpAddr) (n : LowerName) : Prop :=
  ∃ net authority, w.reverseZones.lookup net = some authority ∧
    Has w (.pointer authority (reverseKey hk ip) n)

/-- Some registered reverse zone contains the address. -/
def Covered (w : AuthorityWrapper) (ip : IpAddr) : Prop :=
  ∃ net authority, w.reverseZones.lookup net = some authority ∧ net.contains ip = true

/-- The places where a rename works: the sets of both names for the families the
old name has, and the pointers of its covered addresses. -/
def Touched (hk : Hickory) (w : AuthorityWrapper) (old new : LowerName) : Place → Prop
  | .forward key => (key.name = old ∨ key.name = new) ∧
    ∃ ip, ForwardPair w old ip ∧ (RData.ofIp ip).recordType = key.recordType
  | .reverse authority key => ∃ ip net, ForwardPair w old ip ∧
    w.reverseZones.lookup net = some authority ∧ net.contains ip = true ∧
    key = ⟨reverseKey hk ip, .ptr⟩

/-- The addresses of `old` are now those of `new`, forward and reverse; nothing
else has changed. -/
structure Rekeyed (hk : Hickory) (old new : LowerName) (w w' : AuthorityWrapper) : Prop where
  forward : ∀ n ip, ForwardPair w' n ip ↔
    (ForwardPair w n ip ∧ ¬ (n = old ∧ ForwardPair w old ip)) ∨ (n = new ∧ ForwardPair w old ip)
  reverse : ∀ ip n, ReversePair hk w' ip n ↔
    (ReversePair hk w ip n ∧ ¬ (n = old ∧ ForwardPair w old ip ∧ Covered w ip)) ∨
      (n = new ∧ ForwardPair w old ip ∧ Covered w ip)
  zones : SameZones w w'
  others : ∀ place, ¬ Touched hk w old new place → stored w' place = stored w place

section Frame
variable {hk : Hickory} {w : AuthorityWrapper}

theorem renameRecord_frame (order : IterationOrder) (laws : hk.RecordLaws)
    (wf : WrapperWellFormed w) (old : LowerName) (newName : Name) (ip : IpAddr) {place : Place}
    (apart : ¬ PairPlace hk (w.findReverseAuthority order) (LowerName.new newName) ip place) :
    stored (w.renameRecord hk order old newName ip) place = stored w place := by
  have pointer := removePointer_effect order laws wf old ip
  have unpointed : ¬ PointerPlace hk (w.findReverseAuthority order) ip place := by
    cases place with
    | forward key => exact id
    | reverse authority key => exact apart
  unfold AuthorityWrapper.renameRecord
  rw [stored_upsert order pointer.wellFormed, funext (pointer.zones.cover order), if_neg apart,
    stored_removePointer order wf, if_neg unpointed]

theorem renameRecord_loop_frame (order : IterationOrder) (laws : hk.RecordLaws)
    (wf : WrapperWellFormed w) (old : LowerName) (newName : Name) (ips : List IpAddr)
    (place : Place) (apart : ∀ ip ∈ ips,
      ¬ PairPlace hk (w.findReverseAuthority order) (LowerName.new newName) ip place) :
    stored (ips.foldl (AuthorityWrapper.renameRecord hk order old newName) w) place =
      stored w place := by
  induction ips generalizing w with
  | nil => rfl
  | cons ip rest ih =>
    have turn := renameRecord_effect order laws wf old newName ip
    have later := ih turn.wellFormed (by
      intro ip' member
      rw [funext (turn.zones.cover order)]
      exact apart ip' (List.mem_cons_of_mem _ member))
    rw [List.foldl_cons, later]
    exact renameRecord_frame order laws wf old newName ip (apart ip List.mem_cons_self)

/-- One record type of a rename leaves the places of other pairs alone. -/
theorem renameRecords_frame (order : IterationOrder) (laws : hk.RecordLaws)
    (wf : WrapperWellFormed w) (old : LowerName) (newName : Name) {t : RecordType}
    (kind : ForwardKind t) (place : Place)
    (apart : ∀ ip, (RData.ofIp ip).recordType = t → Has w (.address old ip) →
      ¬ PairPlace hk (w.findReverseAuthority order) old ip place ∧
      ¬ PairPlace hk (w.findReverseAuthority order) (LowerName.new newName) ip place) :
    stored ((w.renameRecords hk order ⟨old, t⟩ newName).getD w) place = stored w place := by
  unfold AuthorityWrapper.renameRecords
  cases found : w.forward.records.lookup ⟨old, t⟩ with
  | none => rfl
  | some set =>
    have setWf := (wf.forward.sets _ set found (forwardKind_plain.ne_soaKey kind _)).2
    have moved := stored_addresses wf kind found
    have erased := modifyForward_effect (fun records => records.erase ⟨old, t⟩) wf
      (wf.forward.erase forwardKind_plain kind)
    have loop := renameRecord_loop_frame order laws erased.wellFormed old newName
      (set.records.filterMap RData.ipAddr) place (by
        intro ip member
        obtain ⟨sameType, held⟩ := (moved ip).mp member
        exact (apart ip sameType held).2)
    refine loop.trans ?_
    -- the erased set is not empty, so its key is a place of a moved pair
    cases place with
    | reverse authority key => rfl
    | forward key =>
      refine (FiniteMap.lookup_erase _ _ _).trans (if_neg ?_)
      rintro rfl
      obtain ⟨d, datum⟩ := List.exists_mem_of_ne_nil _ setWf.nonempty
      have plain : t ≠ .soa := by rcases kind with rfl | rfl <;> exact fun same => by cases same
      have here : stored w (.forward ⟨old, t⟩) = some set := found
      obtain ⟨f, samePlace, sameDatum⟩ := exists_fact wf here plain datum
      have held : Has w f := by
        rw [has_iff, samePlace, sameDatum]
        exact ⟨set, here, datum⟩
      cases f with
      | pointer authority reverse n => cases samePlace
      | address n ip =>
        obtain ⟨rfl, typed⟩ : n = old ∧ (RData.ofIp ip).recordType = t := by
          simpa [Fact.place] using samePlace
        exact (apart ip typed held).1 (by rw [PairPlace, typed])

/-- The places of a moved pair are touched. -/
theorem touched_of_pair (order : IterationOrder) {old new n : LowerName} {ip : IpAddr}
    {place : Place} (named : n = old ∨ n = new) (moved : ForwardPair w old ip)
    (here : PairPlace hk (w.findReverseAuthority order) n ip place) : Touched hk w old new place := by
  cases place with
  | forward key =>
    obtain rfl := here
    exact ⟨named, ip, moved, rfl⟩
  | reverse authority key =>
    obtain ⟨covered, rfl⟩ := here
    obtain ⟨net, registered, contains⟩ := findReverseAuthority_some covered
    exact ⟨ip, net, moved, registered, contains, rfl⟩

/-- The two passes of a rename leave untouched places alone. -/
theorem renameFamilies_frame (order : IterationOrder) (laws : hk.RecordLaws)
    (wf : WrapperWellFormed w) (old new : Name) (place : Place)
    (untouched : ¬ Touched hk w (LowerName.new old) (LowerName.new new) place) :
    stored ((((w.renameRecords hk order ⟨LowerName.new old, .a⟩ new).getD w).renameRecords hk order
        ⟨LowerName.new old, .aaaa⟩ new).getD
          ((w.renameRecords hk order ⟨LowerName.new old, .a⟩ new).getD w)) place =
      stored w place := by
  have first := renameRecords_effect order laws wf (LowerName.new old) new (t := .a) (.inl rfl)
  have apart : ∀ ip, Has w (.address (LowerName.new old) ip) →
      ¬ PairPlace hk (w.findReverseAuthority order) (LowerName.new old) ip place ∧
      ¬ PairPlace hk (w.findReverseAuthority order) (LowerName.new new) ip place :=
    fun ip moved => ⟨fun here => untouched (touched_of_pair order (.inl rfl) moved here),
      fun here => untouched (touched_of_pair order (.inr rfl) moved here)⟩
  have firstFrame := renameRecords_frame order laws wf (LowerName.new old) new (t := .a) (.inl rfl)
    place fun ip _ moved => apart ip moved
  refine (renameRecords_frame order laws first.wellFormed (LowerName.new old) new (.inr rfl) place
    ?_).trans firstFrame
  intro ip isV6 moved
  rw [funext (first.zones.cover order)]
  -- what the second pass moves was there before the first
  rcases (first.facts _).mp moved with ⟨before, _⟩ | ⟨ip', ⟨isV4, _⟩, _, rfl⟩
  · exact apart ip before
  · rw [isV6] at isV4
    cases isV4

end Frame

section Pairs
variable {hk : Hickory} {w w' : AuthorityWrapper}

/-- What a rename does to facts, read as pairs. -/
theorem reversePair_renamed (names : hk.NameLaws) (placed : Placed hk w) (order : IterationOrder)
    (disjoint : ZonesDisjoint w) {old new : LowerName}
    (effect : Effect w w' (Renamed hk (w.findReverseAuthority order) old new
      (fun ip => Has w (.address old ip)) (Has w))) (ip : IpAddr) (n : LowerName) :
    ReversePair hk w' ip n ↔
      (ReversePair hk w ip n ∧ ¬ (n = old ∧ ForwardPair w old ip ∧ Covered w ip)) ∨
        (n = new ∧ ForwardPair w old ip ∧ Covered w ip) := by
  have pointer : ∀ authority n, Has w' (.pointer authority (reverseKey hk ip) n) ↔
      (Has w (.pointer authority (reverseKey hk ip) n) ∧
        ¬ (n = old ∧ ForwardPair w old ip ∧ w.findReverseAuthority order ip = some authority)) ∨
      (n = new ∧ ForwardPair w old ip ∧ w.findReverseAuthority order ip = some authority) := by
    intro authority n
    have moved : ∀ name, (∃ ip', Has w (.address old ip') ∧ PairFact hk
        (w.findReverseAuthority order) name ip' (.pointer authority (reverseKey hk ip) n)) ↔
        n = name ∧ ForwardPair w old ip ∧ w.findReverseAuthority order ip = some authority := by
      intro name
      constructor
      · intro pair
        obtain ⟨ip', held, covered, sameKey, sameName⟩ := pair
        obtain rfl := reverseKey_inj names sameKey
        exact ⟨sameName, held, covered⟩
      · intro pair
        obtain ⟨sameName, held, covered⟩ := pair
        exact ⟨ip, held, covered, rfl, sameName⟩
    rw [effect.facts, Renamed, moved, moved]
  simp only [ReversePair, pointer, effect.zones.reverseZones]
  have covers := cover_iff disjoint order ip
  constructor
  · intro held
    obtain ⟨net, authority, registered, ⟨before, stays⟩ | ⟨same, moved, covered⟩⟩ := held
    · refine .inl ⟨⟨net, authority, registered, before⟩, ?_⟩
      intro goes
      obtain ⟨same, moved, _⟩ := goes
      -- the pointer lies in the zone that contains its address
      have contains := placed.inside net authority ip n registered before
      exact stays ⟨same, moved, (covers authority).mpr ⟨net, registered, contains⟩⟩
    · obtain ⟨net', registered', contains⟩ := (covers authority).mp covered
      exact .inr ⟨same, moved, net', authority, registered', contains⟩
  · intro held
    rcases held with ⟨⟨net, authority, registered, before⟩, stays⟩ | ⟨same, moved, covered⟩
    · refine ⟨net, authority, registered, .inl ⟨before, ?_⟩⟩
      intro goes
      obtain ⟨same, moved, covered⟩ := goes
      obtain ⟨net', registered', contains⟩ := (covers authority).mp covered
      exact stays ⟨same, moved, net', authority, registered', contains⟩
    · obtain ⟨net, authority, registered, contains⟩ := covered
      exact ⟨net, authority, registered,
        .inr ⟨same, moved, (covers authority).mpr ⟨net, registered, contains⟩⟩⟩

end Pairs

/-- In every state of a table with disjoint zones, a rename fails and changes
nothing when one of its names does not parse, and else succeeds as a re-keying. -/
theorem rename_rekeys {hk : Hickory} (laws : hk.RecordLaws) (names : hk.NameLaws)
    {w : AuthorityWrapper} (wf : WrapperWellFormed w) (placed : Placed hk w)
    (disjoint : ZonesDisjoint w) (order : IterationOrder) (oldName newName : String) :
    ((hk.parse newName = none ∨ hk.parse (AuthorityWrapper.stripPrefix '/' oldName) = none) →
      (∃ error, (w.rename hk order oldName newName).2 = .error error) ∧
        (w.rename hk order oldName newName).1 = w) ∧
    ∀ old new, hk.parse (AuthorityWrapper.stripPrefix '/' oldName) = some old →
      hk.parse newName = some new →
      (w.rename hk order oldName newName).2 = .ok () ∧
        Rekeyed hk (LowerName.new old) (LowerName.new new) w
          (w.rename hk order oldName newName).1 := by
  constructor
  · intro unparsed
    unfold AuthorityWrapper.rename
    cases parsedNew : hk.parse newName with
    | none => exact ⟨⟨_, rfl⟩, rfl⟩
    | some new =>
      cases parsedOld : hk.parse (AuthorityWrapper.stripPrefix '/' oldName) with
      | none => exact ⟨⟨_, rfl⟩, rfl⟩
      | some old => simp [parsedNew, parsedOld] at unparsed
  · intro old new parsedOld parsedNew
    have effect := renameFamilies_effect order laws wf old new
    have frame := renameFamilies_frame order laws wf old new
    unfold AuthorityWrapper.rename
    simp only [parsedOld, parsedNew]
    refine ⟨trivial, ?_, reversePair_renamed names placed order disjoint effect, effect.zones, frame⟩
    intro n ip
    exact (effect.facts _).trans renamed_address

section Runs
open Reference

/-- One name with an IPv4 address in a registered zone. -/
def webServed : AuthorityWrapper :=
  [.addReverseZone bridge (name ["17", "172", "in-addr", "arpa"]),
    .add .listed (name ["web", "docker"]) (.v4 0xac110002#32)].foldl
    (AuthorityWrapper.apply hickory) monitor.authorityWrapper

theorem webServed_sound : TableSound hickory webServed := by
  have start : TableSound env.hickory monitor.authorityWrapper :=
    sound_start hickory_recordLaws env_started
  exact run_sound hickory_recordLaws hickory_keepLaws hickory_nameLaws _ start

theorem webServed_disjoint : ZonesDisjoint webServed := by
  apply zonesDisjoint_of_one
  intro net authority registered
  have only : ((∅ : FiniteMap IpNet Handle).insert bridge 0).lookup net = some authority := registered
  rw [FiniteMap.lookup_insert] at only
  split at only
  next here => exact here
  next => cases only

theorem rename_rekeys_web :
    (webServed.rename hickory .listed "/web.docker." "www.docker.").2 = .ok () ∧
      Rekeyed hickory (LowerName.new (name ["web", "docker"])) (LowerName.new (name ["www", "docker"]))
        webServed (webServed.rename hickory .listed "/web.docker." "www.docker.").1 :=
  (rename_rekeys hickory_recordLaws hickory_nameLaws webServed_sound.wellFormed
    webServed_sound.placed webServed_disjoint .listed "/web.docker." "www.docker.").2 _ _
    (by decide) (by decide)

/-- The text of the old name need not parse: one leading slash is stripped first. -/
theorem slashed_old_name_renames : ZonesDisjoint webServed ∧ hickory.parse "/web.docker." = none ∧
    (webServed.rename hickory .listed "/web.docker." "www.docker.").2 = .ok () ∧
      ¬ ForwardPair (webServed.rename hickory .listed "/web.docker." "www.docker.").1
        (LowerName.new (name ["web", "docker"])) (.v4 0xac110002#32) :=
  ⟨webServed_disjoint, by decide, rfl, by
    rw [ForwardPair]
    decide⟩

end Runs
end DockerDns.Guarantees
