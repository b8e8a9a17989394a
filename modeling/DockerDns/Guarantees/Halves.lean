import DockerDns.Guarantees.LockScopeRuns
import DockerDns.Guarantees.TableStates

/-!
# The forward half of an operation

Additions and removals write the forward zone in one lock scope and the reverse
zone in another. Between the two, the table is as the whole operation leaves a
table without reverse zones.
-/
namespace DockerDns.Guarantees
open Library Source

def withoutZones (w : AuthorityWrapper) : AuthorityWrapper := { w with reverseZones := ∅ }

/-- The table between the two scopes of an addition. -/
def addedForward (hk : Hickory) (w : AuthorityWrapper) (name : Name) (ip : IpAddr) :
    AuthorityWrapper :=
  w.modifyForward fun records => appendToRecordSet hk records
    ⟨LowerName.new name, (RData.ofIp ip).recordType⟩ name (RData.ofIp ip).recordType (RData.ofIp ip)

section Zoneless
variable {hk : Hickory} {w w' : AuthorityWrapper} (order : IterationOrder)

theorem has_withoutZones (f : Fact) : Has (withoutZones w) f ↔ Has w f := by
  cases f <;> rfl

theorem cover_withoutZones (ip : IpAddr) :
    (withoutZones w).findReverseAuthority order ip = none := by
  have empty : order.zones [] = [] := (order.zones_perm []).eq_nil
  have entries : (withoutZones w).reverseZones.entries = [] := rfl
  rw [AuthorityWrapper.findReverseAuthority, entries, empty]
  rfl

theorem pairFact_withoutZones {n : LowerName} {ip : IpAddr} {f : Fact} :
    PairFact hk ((withoutZones w).findReverseAuthority order) n ip f ↔ f = .address n ip := by
  rw [pairFact_iff, or_iff_left]
  cases f <;> simp [PointerFact, cover_withoutZones]

theorem wellFormed_withoutZones (wf : WrapperWellFormed w) :
    WrapperWellFormed (withoutZones w) := by
  refine ⟨wf.forward, wf.handlers, fun net authority registered => ?_⟩
  cases registered

/-- What an operation does to a table without zones, it does to the table. -/
theorem Effect.withZones {facts : Fact → Prop}
    (effect : Effect (withoutZones w) (withoutZones w') facts) (wf : WrapperWellFormed w)
    (same : w'.reverseZones = w.reverseZones) : Effect w w' facts := by
  refine ⟨⟨effect.wellFormed.forward, effect.wellFormed.handlers, ?_⟩,
    ⟨same, effect.zones.handlers, effect.zones.forward⟩,
    fun f => (has_withoutZones f).symm.trans (effect.facts f)⟩
  intro net authority registered
  rw [same] at registered
  have length : w'.handlers.length = w.handlers.length := effect.zones.length
  rw [length]
  exact wf.shared net authority registered

theorem modifyForward_withoutZones (f : Records → Records) :
    (withoutZones w).modifyForward f = withoutZones (w.modifyForward f) := rfl

theorem upsert_withoutZones (name : Name) (ip : IpAddr) :
    (withoutZones w).upsert hk order name ip = withoutZones (addedForward hk w name ip) := by
  simp only [AuthorityWrapper.upsert, modifyForward_withoutZones, cover_withoutZones]
  rfl

theorem removeAddress_withoutZones (name : Name) (ip : IpAddr) :
    (withoutZones w).removeAddress hk order name ip =
      withoutZones (LockScopes.takeRecord hk name ip w).2 := by
  have same : (withoutZones w).forward = w.forward := rfl
  simp only [AuthorityWrapper.removeAddress, AuthorityWrapper.removeRecord, LockScopes.takeRecord,
    same]
  cases removeFromSet hk w.forward.records _ _ with
  | none => rfl
  | some records =>
    simp only [modifyForward_withoutZones, AuthorityWrapper.removePointer, cover_withoutZones]
    rfl

end Zoneless

section Moments
variable {hk : Hickory} {w : AuthorityWrapper} (order : IterationOrder)
  {Q : AuthorityWrapper → Prop}

theorem every_upsert_iff (name : Name) (ip : IpAddr) :
    (LockScopes.upsert hk order name ip).Every Q w ↔
      Q w ∧ Q (addedForward hk w name ip) ∧ Q (w.upsert hk order name ip) := by
  rw [← run_upsert]
  simp only [LockScopes.upsert, LockScopes.addPointer, Sectioned.every_bind, Sectioned.run_bind,
    Sectioned.every_modify, Sectioned.run_modify, Sectioned.every_read, Sectioned.run_read]
  change (Q w ∧ Q (addedForward hk w name ip)) ∧ Q (addedForward hk w name ip) ∧ _ ↔
    Q w ∧ Q (addedForward hk w name ip) ∧ _
  generalize AuthorityWrapper.findReverseAuthority order _ ip = found
  cases found with
  | none => exact ⟨fun every => ⟨every.1.1, every.2⟩, fun every => ⟨⟨every.1, every.2.1⟩, every.2⟩⟩
  | some authority => exact ⟨fun every => ⟨every.1.1, every.2.1, every.2.2.2⟩,
      fun every => ⟨⟨every.1, every.2.1⟩, every.2.1, every.2.1, every.2.2⟩⟩

theorem every_removePointer_iff (ip : IpAddr) (name : LowerName) :
    (LockScopes.removePointer hk order ip name).Every Q w ↔
      Q w ∧ Q (w.removePointer hk order ip name) := by
  rw [← run_removePointer]
  simp only [LockScopes.removePointer, Sectioned.every_bind, Sectioned.run_bind,
    Sectioned.every_read, Sectioned.run_read]
  cases w.findReverseAuthority order ip with
  | none => exact .rfl
  | some authority => exact ⟨fun every => every.2, fun every => ⟨every.1, every⟩⟩

theorem every_removeAddress_iff (name : Name) (ip : IpAddr) :
    (LockScopes.removeAddress hk order name ip).Every Q w ↔
      Q w ∧ Q (LockScopes.takeRecord hk name ip w).2 ∧ Q (w.removeAddress hk order name ip) := by
  rw [← run_removeAddress, LockScopes.removeAddress, Sectioned.every_report]
  simp only [LockScopes.removeRecord, Sectioned.every_bind, Sectioned.run_bind,
    Sectioned.every_modifyGet, Sectioned.run_modifyGet, Sectioned.run_pure]
  cases (LockScopes.takeRecord hk name ip w).1 with
  | false => exact ⟨fun every => ⟨every.1.1, every.2, every.2⟩,
      fun every => ⟨⟨every.1, every.2.1⟩, every.2.1⟩⟩
  | true =>
    simp only [Sectioned.every_report, every_removePointer_iff, Sectioned.run_bind,
      run_removePointer, Sectioned.run_pure]
    exact ⟨fun every => ⟨every.1.1, every.2⟩, fun every => ⟨⟨every.1, every.2.1⟩, every.2⟩⟩

/-- A rename of one type keeps what its first scope and its turns keep. -/
theorem every_renameRecords (oldKey : RrKey) (newName : Name) (inv : AuthorityWrapper → Prop)
    (here : Q w) (taken : Q (LockScopes.takeRecords oldKey w).2)
    (implies : ∀ w, inv w → Q w)
    (start : ∀ ips, (LockScopes.takeRecords oldKey w).1 = some ips →
      inv (LockScopes.takeRecords oldKey w).2 ∧ ∀ ip ∈ ips, ∀ w, inv w →
        (Q (w.removePointer hk order ip oldKey.name) ∧
          (LockScopes.upsert hk order newName ip).Every Q
            (w.removePointer hk order ip oldKey.name)) ∧
          inv (w.renameRecord hk order oldKey.name newName ip)) :
    (LockScopes.renameRecords hk order oldKey newName).Every Q w := by
  simp only [LockScopes.renameRecords, Sectioned.every_bind, Sectioned.every_modifyGet,
    Sectioned.run_modifyGet]
  cases found : (LockScopes.takeRecords oldKey w).1 with
  | none => exact ⟨⟨here, taken⟩, taken⟩
  | some ips =>
    obtain ⟨begins, turns⟩ := start ips found
    rw [Sectioned.every_report]
    refine ⟨⟨here, taken⟩, (Sectioned.every_forM ips _ ?_ implies begins).1⟩
    intro ip member w held
    obtain ⟨moments, kept⟩ := turns ip member w held
    rw [run_renameRecord]
    refine ⟨?_, kept⟩
    simp only [LockScopes.renameRecord, Sectioned.every_bind, run_removePointer,
      every_removePointer_iff]
    exact ⟨⟨implies w held, moments.1⟩, moments.2⟩

end Moments

/-- The table after one lock scope: what it holds now, and that it is sound. -/
structure Scope (hk : Hickory) (w w' : AuthorityWrapper) (facts : Fact → Prop) : Prop where
  effect : Effect w w' facts
  sound : TableSound hk w'

section Scopes
variable {hk : Hickory} {w : AuthorityWrapper} (order : IterationOrder)

/-- A scope that adds no fact but those of covered pairs leaves a sound table. -/
theorem Scope.of_effect (names : hk.NameLaws) (sound : TableSound hk w) {w' : AuthorityWrapper}
    {facts : Fact → Prop} (effect : Effect w w' facts) (made : Made w')
    (covered : ∀ f, facts f → Has w f ∨
      ∃ n ip, PairFact hk (w.findReverseAuthority order) n ip f) : Scope hk w w' facts :=
  ⟨effect, effect.wellFormed, made, sound.placed.of_facts order names effect.zones
    fun f held => covered f ((effect.facts f).mp held)⟩

variable (laws : hk.RecordLaws) (keep : hk.KeepLaws) (names : hk.NameLaws)
  (sound : TableSound hk w)
include laws keep names sound

theorem addedForward_scope (name : Name) (ip : IpAddr) :
    Scope hk w (addedForward hk w name ip) fun f =>
      Has w f ∨ f = .address (LowerName.new name) ip := by
  have wf := wellFormed_withoutZones sound.wellFormed
  have zoneless := upsert_effect .listed laws wf name ip
  have made := made_upsert .listed keep names wf sound.made name ip
  rw [upsert_withoutZones] at zoneless made
  have effect : Effect w (addedForward hk w name ip) _ := zoneless.withZones sound.wellFormed rfl
  have facts : ∀ f, Has (addedForward hk w name ip) f ↔
      Has w f ∨ f = .address (LowerName.new name) ip := by
    intro f
    rw [effect.facts, has_withoutZones, pairFact_withoutZones]
  refine .of_effect .listed names sound ⟨effect.wellFormed, effect.zones, facts⟩ made ?_
  intro f held
  exact held.imp_right fun here => ⟨_, ip, pairFact_iff.mpr (.inl here)⟩

theorem upsert_scope (name : Name) (ip : IpAddr) :
    Scope hk w (w.upsert hk order name ip) fun f =>
      Has w f ∨ PairFact hk (w.findReverseAuthority order) (LowerName.new name) ip f :=
  ⟨upsert_effect order laws sound.wellFormed name ip,
    apply_sound laws keep names sound (.add order name ip)⟩

theorem takeRecord_scope (name : Name) (ip : IpAddr) :
    Scope hk w (LockScopes.takeRecord hk name ip w).2 fun f =>
      Has w f ∧ f ≠ .address (LowerName.new name) ip := by
  have wf := wellFormed_withoutZones sound.wellFormed
  have zoneless := removeAddress_effect .listed laws wf name ip
  have within := (Within.refl (withoutZones w)).removeAddress_left .listed laws keep wf name ip
  rw [removeAddress_withoutZones] at zoneless within
  have zones : (LockScopes.takeRecord hk name ip w).2.reverseZones = w.reverseZones := by
    unfold LockScopes.takeRecord
    cases removeFromSet hk w.forward.records _ _ <;> rfl
  have effect := zoneless.withZones sound.wellFormed zones
  have made : Made (LockScopes.takeRecord hk name ip w).2 := sound.made.of_within within
  have facts : ∀ f, Has (LockScopes.takeRecord hk name ip w).2 f ↔
      Has w f ∧ f ≠ .address (LowerName.new name) ip := by
    intro f
    rw [effect.facts, has_withoutZones, has_withoutZones, pairFact_withoutZones]
    refine and_congr_right fun held => not_congr (and_iff_right_of_imp fun here => ?_)
    exact here ▸ held
  exact .of_effect .listed names sound ⟨effect.wellFormed, effect.zones, facts⟩ made
    fun f held => .inl held.1

theorem removeAddress_scope (name : Name) (ip : IpAddr) :
    Scope hk w (w.removeAddress hk order name ip) fun f =>
      Has w f ∧ ¬ (Has w (.address (LowerName.new name) ip) ∧
        PairFact hk (w.findReverseAuthority order) (LowerName.new name) ip f) :=
  ⟨removeAddress_effect order laws sound.wellFormed name ip,
    apply_sound laws keep names sound (.removeAddress order name ip)⟩

theorem removePointer_scope (ip : IpAddr) (old : LowerName) :
    Scope hk w (w.removePointer hk order ip old) fun f =>
      Has w f ∧ ¬ PointerFact hk (w.findReverseAuthority order) old ip f :=
  .of_effect order names sound (removePointer_effect order laws sound.wellFormed old ip)
    (sound.made.of_within ((Within.refl w).removePointer_left order keep sound.wellFormed ip old))
    fun _ held => .inl held.1

omit laws keep in
/-- Taking the set of a name takes its addresses of that type, and reports them. -/
theorem takeRecords_scope (old : LowerName) {t : RecordType} (kind : ForwardKind t) :
    Scope hk w (LockScopes.takeRecords ⟨old, t⟩ w).2 (fun f => Has w f ∧
        ∀ ip, (RData.ofIp ip).recordType = t → f ≠ .address old ip) ∧
      ∀ ips, (LockScopes.takeRecords ⟨old, t⟩ w).1 = some ips →
        ips.Nodup ∧ ∀ ip, ip ∈ ips ↔ (RData.ofIp ip).recordType = t ∧ Has w (.address old ip) := by
  unfold LockScopes.takeRecords
  cases found : w.forward.records.lookup ⟨old, t⟩ with
  | none =>
    have vacant : ∀ ip, (RData.ofIp ip).recordType = t → ¬ Has w (.address old ip) := by
      intro ip sameType held
      obtain ⟨set, stored, _⟩ := held
      rw [sameType, found] at stored
      cases stored
    refine ⟨⟨⟨sound.wellFormed, .refl w, fun f => (and_iff_left_of_imp ?_).symm⟩, sound⟩,
      fun ips nothing => nomatch nothing⟩
    intro held ip sameType here
    exact vacant ip sameType (here ▸ held)
  | some set =>
    have setWf := (sound.wellFormed.forward.sets _ set found
      (forwardKind_plain.ne_soaKey kind _)).2
    refine ⟨?_, ?_⟩
    · have effect := modifyForward_effect (fun records => records.erase ⟨old, t⟩) sound.wellFormed
        (sound.wellFormed.forward.erase forwardKind_plain kind)
      refine .of_effect .listed names sound ⟨effect.wellFormed, effect.zones, fun f => ?_⟩
        (sound.made.of_within ((Within.refl w).eraseForward_left _)) fun f held => .inl held.1
      refine (effect.facts f).trans ?_
      rcases f with ⟨n, ip⟩ | ⟨authority, reverse, n⟩
      · simp only [Holds, FiniteMap.lookup_erase, RrKey.mk.injEq, Has]
        by_cases here : n = old ∧ (RData.ofIp ip).recordType = t
        · rw [if_pos here]
          simp [here.1, here.2]
        · rw [if_neg here]
          refine (and_iff_left ?_).symm
          rintro ip' sameType same
          cases same
          exact here ⟨rfl, sameType⟩
      · simp
    · rintro ips same
      cases same
      refine ⟨?_, stored_addresses sound.wellFormed kind found⟩
      refine List.Nodup.filterMap ?_ setWf.distinct.of_map
      intro r r' ip held held'
      rw [Option.mem_def, RData.ipAddr_eq_some] at held held'
      rw [held, held']

end Scopes
end DockerDns.Guarantees
