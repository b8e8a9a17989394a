import DockerDns.Guarantees.ReverseAnswers
import DockerDns.Guarantees.RunMoments

/-!
# The pairs in flight

An addition writes its address record before the pointer, a removal takes its
address record before the pointer. So forward and reverse answers disagree only
about the pair between the two scopes. A rename takes all addresses of the old
name first, and their pointers one by one.
-/
namespace DockerDns.Guarantees
open Library Source

section Facts
variable {hk : Hickory} {zones : IpNet → Handle → Prop} {cover : IpAddr → Option Handle}
  {pairs pairs' : LowerName → IpAddr → Prop} {before after : Fact → Prop}

/-- Every pointer in a zone is that of an address of the zone, whose record exists
but for some pairs. -/
def BackedBut (hk : Hickory) (zones : IpNet → Handle → Prop) (pairs : LowerName → IpAddr → Prop)
    (facts : Fact → Prop) : Prop :=
  ∀ net authority reverse n, zones net authority → facts (.pointer authority reverse n) →
    ∃ ip, reverse = reverseKey hk ip ∧ net.contains ip = true ∧
      (facts (.address n ip) ∨ pairs n ip)

/-- Every address record a zone covers has its pointer there, but for some pairs. -/
def CompleteBut (hk : Hickory) (zones : IpNet → Handle → Prop) (pairs : LowerName → IpAddr → Prop)
    (facts : Fact → Prop) : Prop :=
  ∀ n ip net authority, facts (.address n ip) → zones net authority → net.contains ip = true →
    facts (.pointer authority (reverseKey hk ip) n) ∨ pairs n ip

@[simp] theorem backedBut_none :
    BackedBut hk zones (fun _ _ => False) before ↔ Backed hk zones before := by
  simp [BackedBut, Backed]

@[simp] theorem completeBut_none :
    CompleteBut hk zones (fun _ _ => False) before ↔ Complete hk zones before := by
  simp [CompleteBut, Complete]

theorem Complete.but (complete : Complete hk zones before) : CompleteBut hk zones pairs before :=
  fun n ip net authority held zone inside => .inl (complete n ip net authority held zone inside)

/-- Addresses may only go with the pairs in flight, and no pointer may come. -/
theorem BackedBut.change (backed : BackedBut hk zones pairs before)
    (more : ∀ n ip, pairs n ip → pairs' n ip)
    (pointers : ∀ authority reverse n, after (.pointer authority reverse n) →
      before (.pointer authority reverse n))
    (addresses : ∀ n ip, before (.address n ip) → after (.address n ip) ∨ pairs' n ip) :
    BackedBut hk zones pairs' after := by
  intro net authority reverse n zone held
  obtain ⟨ip, named, inside, address⟩ := backed net authority reverse n zone (pointers _ _ _ held)
  exact ⟨ip, named, inside, address.elim (addresses n ip) fun pair => .inr (more n ip pair)⟩

/-- Pointers may only go with the pairs in flight, and addresses only come with them. -/
theorem CompleteBut.change (complete : CompleteBut hk zones pairs before)
    (more : ∀ n ip, pairs n ip → pairs' n ip)
    (addresses : ∀ n ip, after (.address n ip) → before (.address n ip) ∨ pairs' n ip)
    (pointers : ∀ authority n ip, after (.address n ip) →
      before (.pointer authority (reverseKey hk ip) n) →
      after (.pointer authority (reverseKey hk ip) n) ∨ pairs' n ip) :
    CompleteBut hk zones pairs' after := by
  intro n ip net authority held zone inside
  rcases addresses n ip held with old | pair
  · rcases complete n ip net authority old zone inside with pointer | pair
    · exact pointers authority n ip held pointer
    · exact .inr (more n ip pair)
  · exact .inr pair

/-- A pair that comes with its pointer backs it. -/
theorem BackedBut.pair (covers : Covers zones cover) (backed : BackedBut hk zones pairs before)
    {n : LowerName} {ip : IpAddr} (facts : ∀ f, after f ↔ before f ∨ PairFact hk cover n ip f) :
    BackedBut hk zones pairs after := by
  intro net authority reverse n' zone held
  rcases (facts _).mp held with old | ⟨covered, named, rfl⟩
  · obtain ⟨ip', named, inside, address⟩ := backed net authority reverse n' zone old
    exact ⟨ip', named, inside, address.imp_left fun held => (facts _).mpr (.inl held)⟩
  · exact ⟨ip, named, covers.inside zone covered, .inl ((facts _).mpr (.inr ⟨rfl, rfl⟩))⟩

/-- A pair that comes with its pointer is in flight no longer. -/
theorem CompleteBut.pair (covers : Covers zones cover) {n : LowerName} {ip : IpAddr}
    (complete : CompleteBut hk zones (fun n' ip' => n' = n ∧ ip' = ip) before)
    (facts : ∀ f, after f ↔ before f ∨ PairFact hk cover n ip f) : Complete hk zones after := by
  intro n' ip' net authority held zone inside
  have here : n' = n ∧ ip' = ip → after (.pointer authority (reverseKey hk ip') n') := by
    rintro ⟨rfl, rfl⟩
    exact (facts _).mpr (.inr ⟨(covers.exact ip' authority).mpr ⟨net, zone, inside⟩, rfl, rfl⟩)
  rcases (facts _).mp held with old | ⟨rfl, rfl⟩
  · exact (complete n' ip' net authority old zone inside).elim
      (fun pointer => (facts _).mpr (.inl pointer)) here
  · exact here ⟨rfl, rfl⟩

/-- A removal of one pair. -/
theorem removed_one {n : LowerName} {ip : IpAddr} (f : Fact) :
    before f ∧ ¬ (before (.address n ip) ∧ PairFact hk cover n ip f) ↔
      Removed hk cover (fun n' ip' => n' = n ∧ ip' = ip) before f := by
  simp [Removed]

end Facts

section Backed
variable {env : Env} {orders : Orders} {m : Monitor} {r : Request} {w : AuthorityWrapper}

/-- The pointers whose address record is gone are those of one pair that goes, or
of the old name of a rename. -/
def BackedMeanwhile (env : Env) (m : Monitor) (r : Request) (zones : IpNet → Handle → Prop)
    (facts : Fact → Prop) : Prop :=
  Backed env.hickory zones facts ∨
    (∃ n ip, Goes m r n ip ∧
      BackedBut env.hickory zones (fun n' ip' => n' = n ∧ ip' = ip) facts) ∨
    ∃ old new, r.Renames old new ∧ BackedBut env.hickory zones
      (fun n ip => n = LowerName.new old ∧ Address m n ip) facts

def BackedHere (env : Env) (orders : Orders) (m : Monitor) (r : Request)
    (w : AuthorityWrapper) : Prop :=
  AtWork env orders m r w ∧ BackedMeanwhile env m r (zonesOf m) (Has w)

/-- Between two operations every pointer is backed. -/
def BackedAtWork (env : Env) (orders : Orders) (m : Monitor) (r : Request)
    (w : AuthorityWrapper) : Prop :=
  AtWork env orders m r w ∧ Backed env.hickory (zonesOf m) (Has w)

theorem BackedAtWork.here (atWork : BackedAtWork env orders m r w) :
    BackedHere env orders m r w := ⟨atWork.1, .inl atWork.2⟩

variable (laws : EnvLaws env) (keep : env.hickory.KeepLaws)
  (covers : Covers (zonesOf m) (m.authorityWrapper.findReverseAuthority orders.reverse))
include laws keep covers

/-- Neither scope of an addition leaves a pointer without address. -/
private theorem upsert_backedBut {pairs : LowerName → IpAddr → Prop}
    (atWork : AtWork env orders m r w) (but : BackedBut env.hickory (zonesOf m) pairs (Has w))
    (name : Name) (ip : IpAddr) :
    BackedBut env.hickory (zonesOf m) pairs (Has (addedForward env.hickory w name ip)) ∧
      BackedBut env.hickory (zonesOf m) pairs
        (Has (w.upsert env.hickory orders.reverse name ip)) := by
  have first := (addedForward_scope laws.records keep laws.names atWork.sound name ip).effect.facts
  have whole := (upsert_scope orders.reverse laws.records keep laws.names atWork.sound name
    ip).effect.facts
  rw [funext (atWork.zones.cover orders.reverse)] at whole
  refine ⟨but.change (fun _ _ => id) ?_ ?_, but.pair covers whole⟩
  · exact fun _ _ _ held => ((first _).mp held).resolve_right (by simp)
  · exact fun _ _ held => .inl ((first _).mpr (.inl held))

private theorem adds_backed (name : Name) (ip : IpAddr) (pair : AddsPair m r name ip)
    (held : BackedAtWork env orders m r w) :
    (LockScopes.upsert env.hickory orders.reverse name ip).Every (BackedHere env orders m r) w ∧
      BackedAtWork env orders m r (w.upsert env.hickory orders.reverse name ip) := by
  obtain ⟨every, after⟩ := (turnsKeep_between laws.records keep laws.names r).adds name ip pair w
    held.1
  obtain ⟨_, forward, _⟩ := (every_upsert_iff orders.reverse name ip).mp every
  obtain ⟨first, whole⟩ := upsert_backedBut laws keep covers held.1 (backedBut_none.mpr held.2)
    name ip
  have last : BackedAtWork env orders m r (w.upsert env.hickory orders.reverse name ip) :=
    ⟨after, backedBut_none.mp whole⟩
  refine ⟨(every_upsert_iff orders.reverse name ip).mpr ⟨held.here, ?_, last.here⟩, last⟩
  exact BackedAtWork.here ⟨forward, backedBut_none.mp first⟩

private theorem removes_backed (name : Name) (ip : IpAddr) (pair : RemovesPair m r name ip)
    (held : BackedAtWork env orders m r w) :
    (LockScopes.removeAddress env.hickory orders.reverse name ip).Every
        (BackedHere env orders m r) w ∧
      BackedAtWork env orders m r (w.removeAddress env.hickory orders.reverse name ip) := by
  obtain ⟨atWork, backed⟩ := held
  obtain ⟨every, after⟩ := (turnsKeep_between laws.records keep laws.names r).removes name ip pair
    w atWork
  obtain ⟨_, forward, _⟩ := (every_removeAddress_iff orders.reverse name ip).mp every
  have first := (takeRecord_scope laws.records keep laws.names atWork.sound name ip).effect.facts
  have whole := (removeAddress_scope orders.reverse laws.records keep laws.names atWork.sound name
    ip).effect.facts
  rw [funext (atWork.zones.cover orders.reverse)] at whole
  have last : BackedAtWork env orders m r
      (w.removeAddress env.hickory orders.reverse name ip) := by
    refine ⟨after, ?_⟩
    rw [funext fun f => propext ((whole f).trans (removed_one f))]
    exact removed_backed covers backed
  refine ⟨(every_removeAddress_iff orders.reverse name ip).mpr ⟨?_, ?_, last.here⟩, last⟩
  · exact BackedAtWork.here ⟨atWork, backed⟩
  · have pointers : ∀ authority reverse n, Has (LockScopes.takeRecord env.hickory name ip w).2
        (.pointer authority reverse n) → Has w (.pointer authority reverse n) :=
      fun _ _ _ held => ((first _).mp held).1
    have addresses : ∀ n ip', Has w (.address n ip') →
        Has (LockScopes.takeRecord env.hickory name ip w).2 (.address n ip') ∨
          n = LowerName.new name ∧ ip' = ip := by
      intro n ip' held
      by_cases here : n = LowerName.new name ∧ ip' = ip
      · exact .inr here
      · exact .inl ((first _).mpr ⟨held, by simpa using here⟩)
    by_cases there : Has w (.address (LowerName.new name) ip)
    · -- the pointer of the pair waits for the second scope
      refine ⟨forward, .inr (.inl ⟨_, ip, goes_of_removes atWork pair there, ?_⟩)⟩
      exact (backedBut_none.mpr backed).change (fun _ _ => False.elim) pointers addresses
    · refine BackedAtWork.here ⟨forward, backedBut_none.mp
        ((backedBut_none.mpr backed).change (fun _ _ => id) pointers fun n ip' held => ?_)⟩
      refine .inl ((addresses n ip' held).resolve_right ?_)
      rintro ⟨rfl, rfl⟩
      exact there held

private theorem renames_backed (old new : Name) (renames : r.Renames old new) {t : RecordType}
    (kind : ForwardKind t) (held : BackedAtWork env orders m r w) :
    (LockScopes.renameRecords env.hickory orders.reverse ⟨LowerName.new old, t⟩ new).Every
        (BackedHere env orders m r) w ∧
      BackedAtWork env orders m r
        ((w.renameRecords env.hickory orders.reverse ⟨LowerName.new old, t⟩ new).getD w) := by
  obtain ⟨atWork, backed⟩ := held
  obtain ⟨every, after⟩ := (turnsKeep_between laws.records keep laws.names r).renames old new
    renames t kind w atWork
  obtain ⟨taken, listed⟩ := takeRecords_scope laws.names atWork.sound (LowerName.new old) kind
  have goes : ∀ ip, Address m (LowerName.new old) ip → Goes m r (LowerName.new old) ip :=
    fun ip there => .inr ⟨old, new, renames, rfl, there⟩
  have last : BackedAtWork env orders m r
      ((w.renameRecords env.hickory orders.reverse ⟨LowerName.new old, t⟩ new).getD w) := by
    have facts := (renameRecords_effect orders.reverse laws.records atWork.sound.wellFormed
      (LowerName.new old) new kind).facts
    rw [funext (atWork.zones.cover orders.reverse)] at facts
    refine ⟨after, ?_⟩
    rw [funext fun f => propext (facts f)]
    exact renamed_backed covers backed
  -- while the loop runs, the pointers without address are all to the old name
  have meanwhile : ∀ w', AtWork env orders m r w' ∧ BackedBut env.hickory (zonesOf m)
      (fun n ip => n = LowerName.new old ∧ Address m n ip) (Has w') →
      BackedHere env orders m r w' :=
    fun w' both => ⟨both.1, .inr (.inr ⟨old, new, renames, both.2⟩)⟩
  have first : AtWork env orders m r (LockScopes.takeRecords ⟨LowerName.new old, t⟩ w).2 ∧
      BackedBut env.hickory (zonesOf m) (fun n ip => n = LowerName.new old ∧ Address m n ip)
        (Has (LockScopes.takeRecords ⟨LowerName.new old, t⟩ w).2) := by
    refine ⟨atWork.takeRecords laws.names kind fun ip held =>
        goes ip (address_of_renames atWork renames held),
      (backedBut_none.mpr backed).change (fun _ _ => False.elim) ?_ ?_⟩
    · exact fun _ _ _ held => ((taken.effect.facts _).mp held).1
    · intro n ip held
      by_cases here : n = LowerName.new old
      · subst here
        exact .inr ⟨rfl, address_of_renames atWork renames held⟩
      · refine .inl ((taken.effect.facts _).mpr ⟨held, fun ip' _ same => ?_⟩)
        cases same
        exact here rfl
  refine ⟨every_renameRecords orders.reverse ⟨LowerName.new old, t⟩ new _
    (BackedAtWork.here ⟨atWork, backed⟩) (meanwhile _ first) meanwhile
    fun ips found => ⟨first, fun ip member w' held => ?_⟩, last⟩
  obtain ⟨atWork', but⟩ := held
  have there := address_of_renames atWork renames ((listed ips found).2 ip |>.mp member).2
  have comes : Comes m r (LowerName.new new) ip := .inr ⟨old, new, renames, rfl, there⟩
  have gone := atWork'.removePointer orders.reverse laws.records keep laws.names rfl (goes ip there)
  have facts := (removePointer_scope orders.reverse laws.records keep laws.names atWork'.sound ip
    (LowerName.new old)).effect.facts
  have goneBut : BackedBut env.hickory (zonesOf m) (fun n ip => n = LowerName.new old ∧
      Address m n ip) (Has (w'.removePointer env.hickory orders.reverse ip (LowerName.new old))) :=
    but.change (fun _ _ => id) (fun _ _ _ held => ((facts _).mp held).1)
      fun _ _ held => .inl ((facts _).mpr ⟨held, id⟩)
  obtain ⟨every, after⟩ := every_upsert_between orders.reverse laws.records keep laws.names rfl gone
    new ip comes
  obtain ⟨_, forward, _⟩ := (every_upsert_iff orders.reverse new ip).mp every
  obtain ⟨first, whole⟩ := upsert_backedBut laws keep covers gone goneBut new ip
  refine ⟨⟨meanwhile _ ⟨gone, goneBut⟩, (every_upsert_iff orders.reverse new ip).mpr ?_⟩,
    after, whole⟩
  exact ⟨meanwhile _ ⟨gone, goneBut⟩, meanwhile _ ⟨forward, first⟩, meanwhile _ ⟨after, whole⟩⟩

theorem turnsKeep_backed : TurnsKeep env orders m r (BackedAtWork env orders m r)
    (BackedHere env orders m r) where
  adds name ip pair _ := adds_backed laws keep covers name ip pair
  removes name ip pair _ := removes_backed laws keep covers name ip pair
  renames old new renames _ kind _ := renames_backed laws keep covers old new renames kind
  implies _ := BackedAtWork.here

end Backed

section Complete
variable {env : Env} {orders : Orders} {m : Monitor} {r : Request} {w : AuthorityWrapper}

/-- The address records whose pointer is missing are those of one pair that comes. -/
def CompleteMeanwhile (env : Env) (m : Monitor) (r : Request) (zones : IpNet → Handle → Prop)
    (facts : Fact → Prop) : Prop :=
  Complete env.hickory zones facts ∨ ∃ n ip, Comes m r n ip ∧
    CompleteBut env.hickory zones (fun n' ip' => n' = n ∧ ip' = ip) facts

def CompleteHere (env : Env) (orders : Orders) (m : Monitor) (r : Request)
    (w : AuthorityWrapper) : Prop :=
  AtWork env orders m r w ∧ CompleteMeanwhile env m r (zonesOf m) (Has w)

/-- Between two operations no pointer is missing. -/
def CompleteAtWork (env : Env) (orders : Orders) (m : Monitor) (r : Request)
    (w : AuthorityWrapper) : Prop :=
  AtWork env orders m r w ∧ Complete env.hickory (zonesOf m) (Has w)

theorem CompleteAtWork.here (atWork : CompleteAtWork env orders m r w) :
    CompleteHere env orders m r w := ⟨atWork.1, .inl atWork.2⟩

variable (laws : EnvLaws env) (keep : env.hickory.KeepLaws)
include laws keep

/-- The first scope of an addition leaves its own pair without pointer, the second
writes it. -/
private theorem upsert_complete
    (covers : Covers (zonesOf m) (m.authorityWrapper.findReverseAuthority orders.reverse))
    (atWork : AtWork env orders m r w) (name : Name) (ip : IpAddr)
    (but : CompleteBut env.hickory (zonesOf m)
      (fun n ip' => n = LowerName.new name ∧ ip' = ip) (Has w)) :
    CompleteBut env.hickory (zonesOf m) (fun n ip' => n = LowerName.new name ∧ ip' = ip)
        (Has (addedForward env.hickory w name ip)) ∧
      Complete env.hickory (zonesOf m) (Has (w.upsert env.hickory orders.reverse name ip)) := by
  have first := (addedForward_scope laws.records keep laws.names atWork.sound name ip).effect.facts
  have whole := (upsert_scope orders.reverse laws.records keep laws.names atWork.sound name
    ip).effect.facts
  rw [funext (atWork.zones.cover orders.reverse)] at whole
  refine ⟨but.change (fun _ _ => id) ?_ ?_, but.pair covers whole⟩
  · exact fun n ip' held => ((first _).mp held).imp_right fun same => by simpa using same
  · exact fun _ _ _ _ held => .inl ((first _).mpr (.inl held))

private theorem adds_complete
    (covers : Covers (zonesOf m) (m.authorityWrapper.findReverseAuthority orders.reverse))
    (name : Name) (ip : IpAddr) (pair : AddsPair m r name ip)
    (held : CompleteAtWork env orders m r w) :
    (LockScopes.upsert env.hickory orders.reverse name ip).Every
        (CompleteHere env orders m r) w ∧
      CompleteAtWork env orders m r (w.upsert env.hickory orders.reverse name ip) := by
  obtain ⟨every, after⟩ := (turnsKeep_between laws.records keep laws.names r).adds name ip pair w
    held.1
  obtain ⟨_, forward, _⟩ := (every_upsert_iff orders.reverse name ip).mp every
  obtain ⟨first, whole⟩ := upsert_complete laws keep covers held.1 name ip held.2.but
  have last : CompleteAtWork env orders m r (w.upsert env.hickory orders.reverse name ip) :=
    ⟨after, whole⟩
  refine ⟨(every_upsert_iff orders.reverse name ip).mpr ⟨held.here, ?_, last.here⟩, last⟩
  exact ⟨forward, .inr ⟨_, ip, .inl ⟨name, rfl, pair⟩, first⟩⟩

private theorem removes_complete (name : Name) (ip : IpAddr) (pair : RemovesPair m r name ip)
    (held : CompleteAtWork env orders m r w) :
    (LockScopes.removeAddress env.hickory orders.reverse name ip).Every
        (CompleteHere env orders m r) w ∧
      CompleteAtWork env orders m r (w.removeAddress env.hickory orders.reverse name ip) := by
  obtain ⟨atWork, complete⟩ := held
  obtain ⟨every, after⟩ := (turnsKeep_between laws.records keep laws.names r).removes name ip pair
    w atWork
  obtain ⟨_, forward, _⟩ := (every_removeAddress_iff orders.reverse name ip).mp every
  have first := (takeRecord_scope laws.records keep laws.names atWork.sound name ip).effect.facts
  have whole := (removeAddress_scope orders.reverse laws.records keep laws.names atWork.sound name
    ip).effect.facts
  have last : CompleteAtWork env orders m r
      (w.removeAddress env.hickory orders.reverse name ip) := by
    refine ⟨after, ?_⟩
    rw [funext fun f => propext ((whole f).trans (removed_one f))]
    exact removed_complete laws.names complete
  refine ⟨(every_removeAddress_iff orders.reverse name ip).mpr ⟨?_, ?_, last.here⟩, last⟩
  · exact CompleteAtWork.here ⟨atWork, complete⟩
  · refine CompleteAtWork.here ⟨forward, completeBut_none.mp
      ((completeBut_none.mpr complete).change (fun _ _ => id) ?_ ?_)⟩
    · exact fun _ _ held => .inl ((first _).mp held).1
    · exact fun _ _ _ _ held => .inl ((first _).mpr ⟨held, by simp⟩)

/-- Without its pointer to the old name, an address lacks one at most under the new. -/
private theorem removePointer_complete {old new : LowerName} {ip : IpAddr}
    (atWork : AtWork env orders m r w) (complete : Complete env.hickory (zonesOf m) (Has w))
    (moved : old ≠ new → ¬ Has w (.address old ip)) :
    CompleteBut env.hickory (zonesOf m) (fun n ip' => n = new ∧ ip' = ip)
      (Has (w.removePointer env.hickory orders.reverse ip old)) := by
  have facts := (removePointer_scope orders.reverse laws.records keep laws.names atWork.sound ip
    old).effect.facts
  refine (completeBut_none.mpr complete).change (fun _ _ => False.elim) ?_ ?_
  · exact fun _ _ held => .inl ((facts _).mp held).1
  · intro authority n ip' address pointer
    by_cases dropped : PointerFact env.hickory (w.findReverseAuthority orders.reverse) old ip
        (.pointer authority (reverseKey env.hickory ip') n)
    · obtain ⟨_, sameKey, rfl⟩ := dropped
      obtain rfl := reverseKey_inj laws.names sameKey
      by_cases same : n = new
      · exact .inr ⟨same, rfl⟩
      · exact absurd ((facts _).mp address).1 (moved same)
    · exact .inl ((facts _).mpr ⟨pointer, dropped⟩)

private theorem renames_complete
    (covers : Covers (zonesOf m) (m.authorityWrapper.findReverseAuthority orders.reverse))
    (old new : Name) (renames : r.Renames old new) {t : RecordType} (kind : ForwardKind t)
    (held : CompleteAtWork env orders m r w) :
    (LockScopes.renameRecords env.hickory orders.reverse ⟨LowerName.new old, t⟩ new).Every
        (CompleteHere env orders m r) w ∧
      CompleteAtWork env orders m r
        ((w.renameRecords env.hickory orders.reverse ⟨LowerName.new old, t⟩ new).getD w) := by
  obtain ⟨atWork, complete⟩ := held
  obtain ⟨every, after⟩ := (turnsKeep_between laws.records keep laws.names r).renames old new
    renames t kind w atWork
  obtain ⟨taken, listed⟩ := takeRecords_scope laws.names atWork.sound (LowerName.new old) kind
  have goes : ∀ ip, Address m (LowerName.new old) ip → Goes m r (LowerName.new old) ip :=
    fun ip there => .inr ⟨old, new, renames, rfl, there⟩
  have last : CompleteAtWork env orders m r
      ((w.renameRecords env.hickory orders.reverse ⟨LowerName.new old, t⟩ new).getD w) := by
    have facts := (renameRecords_effect orders.reverse laws.records atWork.sound.wellFormed
      (LowerName.new old) new kind).facts
    rw [funext (atWork.zones.cover orders.reverse)] at facts
    refine ⟨after, ?_⟩
    rw [funext fun f => propext (facts f)]
    exact renamed_complete laws.names covers complete
  have first : CompleteAtWork env orders m r (LockScopes.takeRecords ⟨LowerName.new old, t⟩ w).2 := by
    refine ⟨atWork.takeRecords laws.names kind fun ip held =>
        goes ip (address_of_renames atWork renames held),
      completeBut_none.mp ((completeBut_none.mpr complete).change (fun _ _ => id) ?_ ?_)⟩
    · exact fun _ _ held => .inl ((taken.effect.facts _).mp held).1
    · exact fun _ _ _ _ held => .inl ((taken.effect.facts _).mpr ⟨held, by simp⟩)
  -- the addresses of the old name are gone, and come back only under the same name
  refine ⟨every_renameRecords orders.reverse ⟨LowerName.new old, t⟩ new
    (fun w' => CompleteAtWork env orders m r w' ∧
      (LowerName.new old ≠ LowerName.new new → ∀ ip, (RData.ofIp ip).recordType = t →
        ¬ Has w' (.address (LowerName.new old) ip)))
    (CompleteAtWork.here ⟨atWork, complete⟩)
    first.here (fun w' both => both.1.here)
    fun ips found => ⟨⟨first, fun _ ip type held => ?_⟩, fun ip member w' held => ?_⟩, last⟩
  · exact ((taken.effect.facts _).mp held).2 ip type rfl
  obtain ⟨⟨atWork', complete'⟩, moved⟩ := held
  obtain ⟨type, held⟩ := (listed ips found).2 ip |>.mp member
  have there := address_of_renames atWork renames held
  have comes : Comes m r (LowerName.new new) ip := .inr ⟨old, new, renames, rfl, there⟩
  have gone := atWork'.removePointer orders.reverse laws.records keep laws.names rfl (goes ip there)
  have goneFacts := (removePointer_scope orders.reverse laws.records keep laws.names atWork'.sound ip
    (LowerName.new old)).effect.facts
  have goneBut := removePointer_complete laws keep atWork' complete' fun differ => moved differ ip type
  obtain ⟨every, after⟩ := every_upsert_between orders.reverse laws.records keep laws.names rfl gone
    new ip comes
  obtain ⟨_, forward, _⟩ := (every_upsert_iff orders.reverse new ip).mp every
  obtain ⟨half, whole⟩ := upsert_complete laws keep covers gone new ip goneBut
  have pending : CompleteHere env orders m r
      (w'.removePointer env.hickory orders.reverse ip (LowerName.new old)) :=
    ⟨gone, .inr ⟨_, ip, comes, goneBut⟩⟩
  refine ⟨⟨pending, (every_upsert_iff orders.reverse new ip).mpr ⟨pending, ?_, ?_⟩⟩,
    ⟨after, whole⟩, fun differ ip' type' held => ?_⟩
  · exact ⟨forward, .inr ⟨_, ip, comes, half⟩⟩
  · exact CompleteAtWork.here ⟨after, whole⟩
  · rcases ((upsert_scope orders.reverse laws.records keep laws.names gone.sound new
      ip).effect.facts _).mp held with before | ⟨same, _⟩
    · exact moved differ ip' type' ((goneFacts _).mp before).1
    · exact differ same

theorem turnsKeep_complete
    (covers : Covers (zonesOf m) (m.authorityWrapper.findReverseAuthority orders.reverse)) :
    TurnsKeep env orders m r (CompleteAtWork env orders m r) (CompleteHere env orders m r) where
  adds name ip pair _ := adds_complete laws keep covers name ip pair
  removes name ip pair _ := removes_complete laws keep name ip pair
  renames old new renames _ kind _ := renames_complete laws keep covers old new renames kind
  implies _ := CompleteAtWork.here

end Complete

section Networks
variable {env : Env} {m m' : Monitor} {r : Request}

/-- The zones of a monitor at work on a network request: those it had, less or
more whole zones. A zone that the request adds has a handler of its own. -/
structure ZonesFrom (m : Monitor) (r : Request) (m' : Monitor) : Prop where
  handlers : m.authorityWrapper.handlers.length ≤ m'.authorityWrapper.handlers.length
  zones : ∀ net authority, zonesOf m' net authority → zonesOf m net authority ∨
    AddsZone r net ∧ m.authorityWrapper.handlers.length ≤ authority

theorem turnsKeep_zonesFrom (env : Env) (names : env.hickory.NameLaws) (m : Monitor) (r : Request) :
    ZoneTurnsKeep env m r (ZonesFrom m r) (ZonesFrom m r) where
  adds net added m' zonesFrom := by
    have shared : ZonesFrom m r (sharedZone m' net) := by
      refine ⟨Nat.le_trans zonesFrom.handlers (by simp [sharedZone, withFreshZone]), ?_⟩
      intro net' authority zone
      simp only [zonesOf, sharedZone, withFreshZone, FiniteMap.lookup_insert] at zone
      split at zone
      next here =>
        cases zone
        exact .inr ⟨here ▸ added, zonesFrom.handlers⟩
      next => exact zonesFrom.zones net' authority zone
    exact ⟨shared, shared.handlers, shared.zones⟩
  removes net _ m' zonesFrom := by
    have withdrawn : ZonesFrom m r (withdrawnZone m' net) := by
      refine ⟨zonesFrom.handlers, fun net' authority zone => zonesFrom.zones net' authority ?_⟩
      simp only [zonesOf, withdrawnZone, AuthorityWrapper.removeReverseZone,
        FiniteMap.lookup_erase] at zone
      split at zone
      · cases zone
      · exact zone
    rw [deregisterZone_eq names]
    exact ⟨withdrawn, withdrawn.handlers, withdrawn.zones⟩
  entries _ _ zonesFrom _ := ⟨zonesFrom.handlers, zonesFrom.zones⟩
  implies _ zonesFrom := zonesFrom

/-- No record moves, and a fresh handler holds no pointer. -/
theorem backed_of_zonesFrom (backed : PointersBacked env m) (zonesFrom : ZonesFrom m r m')
    (facts : ∀ f, Has m'.authorityWrapper f ↔ Has m.authorityWrapper f) : PointersBacked env m' := by
  intro net authority reverse n zone held
  have before := (facts _).mp held
  rcases zonesFrom.zones net authority zone with old | ⟨_, beyond⟩
  · obtain ⟨ip, named, inside, address⟩ := backed net authority reverse n old before
    exact ⟨ip, named, inside, (facts _).mpr address⟩
  · exact absurd before (fresh_no_pointer beyond reverse n)

/-- A zone over no address misses no pointer. -/
theorem complete_of_zonesFrom (complete : PointersComplete env m) (uncovered : Uncovered m r)
    (zonesFrom : ZonesFrom m r m')
    (facts : ∀ f, Has m'.authorityWrapper f ↔ Has m.authorityWrapper f) :
    PointersComplete env m' := by
  intro n ip net authority held zone inside
  have before := (facts _).mp held
  rcases zonesFrom.zones net authority zone with old | ⟨added, _⟩
  · exact (facts _).mpr (complete n ip net authority before old inside)
  · cases r with
    | registerNetwork id config =>
      obtain ⟨subnet, listed, block⟩ := List.mem_flatMap.mp added
      exact absurd (contains_of_block block inside) (uncovered n ip before subnet listed)
    | _ => exact added.elim

end Networks

section Runs
variable {env : Env}

/-- A moment of a request on containers has the zones of the monitor before it. -/
private theorem zonesOf_moment {orders : Orders} {m m' : Monitor} {r : Request}
    (atWork : AtWork env orders m r m'.authorityWrapper) : zonesOf m' = zonesOf m := by
  unfold zonesOf
  rw [atWork.zones.reverseZones]

/-- What the results about moments need of the monitor a step comes to. -/
private structure Settled (env : Env) (p : Monitor × Ledger) : Prop where
  disjoint : p.2.Disjoint
  registered : Registered env p.1 p.2
  sound : TableSound env.hickory p.1.authorityWrapper
  backed : PointersBacked env p.1

private theorem settled_throughout (laws : EnvLaws env) (keep : env.hickory.KeepLaws) {m₀ : Monitor}
    (started : startTasks env = some m₀) (steps : List Step)
    (disjoint : Throughout (ledgerStep env) (fun p => p.2.Disjoint) (m₀, []) steps) :
    Throughout (ledgerStep env) (Settled env) (m₀, []) steps := by
  have free : Along (ledgerStep env) (fun _ _ => True) (m₀, []) steps :=
    along_of_forall fun _ _ => trivial
  refine throughout_of_step (fun p s settled both after _ => ?_) ?_
    (disjoint.and (registered_throughout laws started steps disjoint)) free
  · refine ⟨after.1, after.2, sound_step laws.records keep laws.names settled.sound s, ?_⟩
    show PointersBacked env (step env p.1 s)
    rw [step_eq]
    exact backed_perform laws both.2 both.1 s.orders _ settled.backed
  · refine ⟨disjoint.first, registered_start laws started, sound_start laws.records started, ?_⟩
    intro net authority reverse n zone
    have none := (startTasks_empty laws.records started).2.2.1
    unfold zonesOf at zone
    rw [none] at zone
    cases zone

/-- In every run whose registered subnets stay disjoint, at every moment of every
step, the pointers whose address record is gone are those of one pair that the
step is taking away, or of the old name of a rename. -/
theorem pointers_backed_meanwhile (laws : EnvLaws env) (keep : env.hickory.KeepLaws) {m₀ : Monitor}
    (started : startTasks env = some m₀) (boot : Bootstrap) (inputs : List Input)
    (disjoint : Throughout (ledgerStep env) (fun p => p.2.Disjoint) (m₀, [])
      (runSteps boot inputs)) :
    Along (ledgerStep env) (fun p s => (stepSections env s).Every (fun m' => BackedMeanwhile env p.1
      (request env p.1 s) (zonesOf m') (Has m'.authorityWrapper)) p.1) (m₀, [])
      (runSteps boot inputs) := by
  have free : Along (ledgerStep env) (fun _ _ => True) (m₀, []) (runSteps boot inputs) :=
    along_of_forall fun _ _ => trivial
  refine free.imp (settled_throughout laws keep started _ disjoint) fun p s settled _ => ?_
  obtain ⟨disjoint, registered, sound, backed⟩ := settled
  rw [every_stepSections]
  by_cases about : (request env p.1 s).AboutNetworks
  · have zones := (every_networkRequest laws s.orders about (turnsKeep_zonesFrom env laws.names p.1 _)
      ⟨Nat.le_refl _, fun _ _ zone => .inl zone⟩).1
    have records := every_networkMoment laws keep s.orders about sound
    exact (zones.and records).mono fun m' both =>
      .inl (backed_of_zonesFrom backed both.1 both.2.facts)
  · have covers := covers_of_registered registered disjoint s.orders.reverse
    have moments := every_request about (turnsKeep_backed laws keep covers) ⟨.start sound, backed⟩
    exact moments.mono fun m' moment => by
      rw [zonesOf_moment moment.table.1]
      exact moment.table.2

/-- In every run whose registered subnets stay disjoint and cover no address that
is served before them, at every moment of every step, at most one address record
of a registered zone lacks its pointer: one that the step is adding. -/
theorem pointers_complete_meanwhile (laws : EnvLaws env) (keep : env.hickory.KeepLaws)
    {m₀ : Monitor} (started : startTasks env = some m₀) (boot : Bootstrap) (inputs : List Input)
    (disjoint : Throughout (ledgerStep env) (fun p => p.2.Disjoint) (m₀, [])
      (runSteps boot inputs))
    (uncovered : Along (ledgerStep env) (fun p s => Uncovered p.1 (request env p.1 s)) (m₀, [])
      (runSteps boot inputs)) :
    Along (ledgerStep env) (fun p s => (stepSections env s).Every (fun m' => CompleteMeanwhile env
      p.1 (request env p.1 s) (zonesOf m') (Has m'.authorityWrapper)) p.1) (m₀, [])
      (runSteps boot inputs) := by
  have settled := settled_throughout laws keep started _ disjoint
  have complete : Throughout (ledgerStep env) (fun p => PointersComplete env p.1) (m₀, [])
      (runSteps boot inputs) := by
    refine throughout_of_step (fun p s complete settled _ met => ?_) ?_ settled uncovered
    · show PointersComplete env (step env p.1 s)
      rw [step_eq]
      exact complete_perform laws settled.registered settled.disjoint s.orders _ met complete
    · intro n ip net authority held
      exact absurd held ((startTasks_empty laws.records started).2.2.2.2 n ip)
  refine uncovered.imp (settled.and complete) fun p s both met => ?_
  obtain ⟨⟨disjoint, registered, sound, _⟩, complete⟩ := both
  rw [every_stepSections]
  by_cases about : (request env p.1 s).AboutNetworks
  · have zones := (every_networkRequest laws s.orders about (turnsKeep_zonesFrom env laws.names p.1 _)
      ⟨Nat.le_refl _, fun _ _ zone => .inl zone⟩).1
    have records := every_networkMoment laws keep s.orders about sound
    exact (zones.and records).mono fun m' both =>
      .inl (complete_of_zonesFrom complete met both.1 both.2.facts)
  · have covers := covers_of_registered registered disjoint s.orders.reverse
    have moments := every_request about (turnsKeep_complete laws keep covers)
      ⟨.start sound, complete⟩
    exact moments.mono fun m' moment => by
      rw [zonesOf_moment moment.table.1]
      exact moment.table.2

end Runs

section Examples
open Reference

/-- A network is created, then a container starts in it and dies. -/
def bridgeRun : List Step := runSteps ⟨some [], some [], .listed⟩
  [createEvent "bridge" [bridge], startEvent "c" webOnBridge, dieEvent "c"]

private theorem bridgeRun_disjoint :
    Throughout (ledgerStep env) (fun p => p.2.Disjoint) (monitor, []) bridgeRun :=
  ⟨List.Pairwise.nil, List.pairwise_singleton _ _, List.pairwise_singleton _ _,
    List.pairwise_singleton _ _⟩

theorem pointers_backed_meanwhile_bridge :
    Along (ledgerStep env) (fun p s => (stepSections env s).Every (fun m' => BackedMeanwhile env p.1
      (request env p.1 s) (zonesOf m') (Has m'.authorityWrapper)) p.1) (monitor, []) bridgeRun :=
  pointers_backed_meanwhile reference_laws hickory_keepLaws env_started _ _ bridgeRun_disjoint

theorem pointers_complete_meanwhile_bridge :
    Along (ledgerStep env) (fun p s => (stepSections env s).Every (fun m' => CompleteMeanwhile env
      p.1 (request env p.1 s) (zonesOf m') (Has m'.authorityWrapper)) p.1) (monitor, [])
      bridgeRun := by
  refine pointers_complete_meanwhile reference_laws hickory_keepLaws env_started _ _
    bridgeRun_disjoint ⟨fun n ip held => ?_, trivial, trivial, trivial⟩
  exact absurd held ((startTasks_empty hickory_recordLaws env_started).2.2.2.2 n ip)

end Examples
end DockerDns.Guarantees
