import DockerDns.Guarantees.Halves
import DockerDns.Guarantees.LockScopeTurns
import DockerDns.Guarantees.Spellings

/-!
# Between the lock scopes of a request

While a request about containers is at work, the facts of its own pairs come and
go, and nothing else does. What the table holds at any moment lies between the
facts that stay and those that were there or are to come.
-/
namespace DockerDns.Guarantees
open Library Source

/-- The pairs that come while the request is at work. -/
def Comes (m : Monitor) (r : Request) (n : LowerName) (ip : IpAddr) : Prop :=
  (∃ name, LowerName.new name = n ∧ AddsPair m r name ip) ∨
    ∃ old new, r.Renames old new ∧ LowerName.new new = n ∧ Address m (LowerName.new old) ip

/-- The pairs that go while the request is at work, some only to come again. -/
def Goes (m : Monitor) (r : Request) (n : LowerName) (ip : IpAddr) : Prop :=
  (∃ name, LowerName.new name = n ∧ RemovesPair m r name ip ∧ (Address m n ip ∨ Comes m r n ip)) ∨
    ∃ old new, r.Renames old new ∧ LowerName.new old = n ∧ Address m n ip

/-- What a table holds while the pairs `out` go and the pairs `inn` come. -/
structure Between (hk : Hickory) (cover : IpAddr → Option Handle)
    (out inn : LowerName → IpAddr → Prop) (w₀ w : AuthorityWrapper) : Prop where
  sound : TableSound hk w
  zones : SameZones w₀ w
  kept : ∀ f, Has w₀ f → ¬ Region hk cover out f → Has w f
  known : ∀ f, Has w f → Has w₀ f ∨ Region hk cover inn f

section Scopes
variable {hk : Hickory} {cover : IpAddr → Option Handle} {out inn : LowerName → IpAddr → Prop}
  {w₀ w w' : AuthorityWrapper}

theorem Between.start (sound : TableSound hk w₀) : Between hk cover out inn w₀ w₀ :=
  ⟨sound, .refl w₀, fun _ held _ => held, fun _ held => .inl held⟩

/-- A scope that takes facts of `out` and adds facts of `inn` stays in between. -/
theorem Between.scope {facts : Fact → Prop} (between : Between hk cover out inn w₀ w)
    (scope : Scope hk w w' facts) (kept : ∀ f, Has w f → ¬ Region hk cover out f → facts f)
    (known : ∀ f, facts f → Has w f ∨ Region hk cover inn f) : Between hk cover out inn w₀ w' where
  sound := scope.sound
  zones := between.zones.trans scope.effect.zones
  kept f held stays := (scope.effect.facts f).mpr (kept f (between.kept f held stays) stays)
  known f held := (known f ((scope.effect.facts f).mp held)).elim (between.known f) .inr

variable (order : IterationOrder) (laws : hk.RecordLaws) (keep : hk.KeepLaws) (names : hk.NameLaws)
include laws keep names

theorem every_upsert_between (covers : w₀.findReverseAuthority order = cover)
    (between : Between hk cover out inn w₀ w) (name : Name) (ip : IpAddr)
    (comes : inn (LowerName.new name) ip) :
    (LockScopes.upsert hk order name ip).Every (Between hk cover out inn w₀) w ∧
      Between hk cover out inn w₀ (w.upsert hk order name ip) := by
  have same : w.findReverseAuthority order = cover :=
    (funext (between.zones.cover order)).trans covers
  have forward := between.scope (addedForward_scope laws keep names between.sound name ip)
    (fun f held _ => .inl held)
    fun f held => held.imp_right fun here => ⟨_, ip, comes, pairFact_iff.mpr (.inl here)⟩
  have whole := between.scope (upsert_scope order laws keep names between.sound name ip)
    (fun f held _ => .inl held)
    fun f held => held.imp_right fun pair => ⟨_, ip, comes, same ▸ pair⟩
  exact ⟨(every_upsert_iff order name ip).mpr ⟨between, forward, whole⟩, whole⟩

theorem every_removeAddress_between (covers : w₀.findReverseAuthority order = cover)
    (between : Between hk cover out inn w₀ w) (name : Name) (ip : IpAddr)
    (goes : Has w (.address (LowerName.new name) ip) → out (LowerName.new name) ip) :
    (LockScopes.removeAddress hk order name ip).Every (Between hk cover out inn w₀) w ∧
      Between hk cover out inn w₀ (w.removeAddress hk order name ip) := by
  have same : w.findReverseAuthority order = cover :=
    (funext (between.zones.cover order)).trans covers
  have forward := between.scope (takeRecord_scope laws keep names between.sound name ip)
    (fun f held stays => ⟨held, fun here => stays
      ⟨_, ip, goes (here ▸ held), pairFact_iff.mpr (.inl here)⟩⟩)
    fun f held => .inl held.1
  have whole := between.scope (removeAddress_scope order laws keep names between.sound name ip)
    (fun f held stays => ⟨held, fun gone => stays ⟨_, ip, goes gone.1, same ▸ gone.2⟩⟩)
    fun f held => .inl held.1
  exact ⟨(every_removeAddress_iff order name ip).mpr ⟨between, forward, whole⟩, whole⟩

theorem Between.removePointer (covers : w₀.findReverseAuthority order = cover)
    (between : Between hk cover out inn w₀ w) {n : LowerName} {ip : IpAddr} (goes : out n ip) :
    Between hk cover out inn w₀ (w.removePointer hk order ip n) := by
  have same : w.findReverseAuthority order = cover :=
    (funext (between.zones.cover order)).trans covers
  refine between.scope (removePointer_scope order laws keep names between.sound ip n) ?_
    fun f held => .inl held.1
  intro f held stays
  exact ⟨held, fun gone => stays ⟨n, ip, goes, pairFact_iff.mpr (.inr (same ▸ gone))⟩⟩

omit laws keep in
theorem Between.takeRecords (between : Between hk cover out inn w₀ w) {n : LowerName}
    {t : RecordType} (kind : ForwardKind t) (goes : ∀ ip, Has w (.address n ip) → out n ip) :
    Between hk cover out inn w₀ (LockScopes.takeRecords ⟨n, t⟩ w).2 := by
  refine between.scope (takeRecords_scope names between.sound n kind).1 ?_ fun f held => .inl held.1
  intro f held stays
  exact ⟨held, fun ip _ here => stays
    ⟨n, ip, goes ip (here ▸ held), pairFact_iff.mpr (.inl here)⟩⟩

/-- A rename of one type, at every moment: the addresses of the old name go, and
those of the new name come one by one. -/
theorem every_renameRecords_between (covers : w₀.findReverseAuthority order = cover)
    (between : Between hk cover out inn w₀ w) (old new : Name) {t : RecordType}
    (kind : ForwardKind t)
    (moves : ∀ ip, Has w (.address (LowerName.new old) ip) →
      out (LowerName.new old) ip ∧ inn (LowerName.new new) ip) :
    (LockScopes.renameRecords hk order ⟨LowerName.new old, t⟩ new).Every
        (Between hk cover out inn w₀) w ∧
      Between hk cover out inn w₀
        ((w.renameRecords hk order ⟨LowerName.new old, t⟩ new).getD w) := by
  have listed := (takeRecords_scope names between.sound (LowerName.new old) kind).2
  have first := between.takeRecords names kind fun ip held => (moves ip held).1
  have every : (LockScopes.renameRecords hk order ⟨LowerName.new old, t⟩ new).Every
      (Between hk cover out inn w₀) w := by
    refine every_renameRecords order ⟨LowerName.new old, t⟩ new _ between first (fun _ => id)
      fun ips found => ⟨first, fun ip member w' between' => ?_⟩
    have moved := moves ip ((listed ips found).2 ip |>.mp member).2
    have pointer := between'.removePointer order laws keep names covers moved.1
    have pair := every_upsert_between order laws keep names covers pointer new ip moved.2
    exact ⟨⟨pointer, pair.1⟩, pair.2⟩
  have last := every.last
  rw [run_renameRecords] at last
  exact ⟨every, last⟩

end Scopes

section Requests
variable {env : Env} {orders : Orders} {m : Monitor}

/-- The table of a monitor at work on a request about containers. -/
def AtWork (env : Env) (orders : Orders) (m : Monitor) (r : Request) : AuthorityWrapper → Prop :=
  Between env.hickory (m.authorityWrapper.findReverseAuthority orders.reverse) (Goes m r)
    (Comes m r) m.authorityWrapper

/-- An address record the table holds meanwhile was there or is to come. -/
theorem AtWork.address {r : Request} {w : AuthorityWrapper} (atWork : AtWork env orders m r w)
    {n : LowerName} {ip : IpAddr} (held : Has w (.address n ip)) :
    Address m n ip ∨ Comes m r n ip := by
  rcases atWork.known _ held with before | ⟨_, _, comes, rfl, rfl⟩
  · exact .inl before
  · exact .inr comes

/-- A rename adds no pair but those it moves. -/
theorem comes_rename {r : Request} {old new : Name} (renames : r.Renames old new) {n : LowerName}
    {ip : IpAddr} (comes : Comes m r n ip) :
    LowerName.new new = n ∧ Address m (LowerName.new old) ip := by
  cases r with
  | rename id old₀ new₀ names =>
    obtain ⟨rfl, rfl⟩ := renames
    rcases comes with ⟨_, _, added⟩ | ⟨old', new', ⟨rfl, rfl⟩, named, held⟩
    · exact added.elim
    · exact ⟨named, held⟩
  | _ => exact renames.elim

/-- A pair that is removed while its address record is there goes. -/
theorem goes_of_removes {r : Request} {w : AuthorityWrapper}
    (atWork : AtWork env orders m r w) {name : Name} {ip : IpAddr}
    (removes : RemovesPair m r name ip) (held : Has w (.address (LowerName.new name) ip)) :
    Goes m r (LowerName.new name) ip := .inl ⟨name, rfl, removes, atWork.address held⟩

/-- The addresses that a rename finds were there when it came. -/
theorem address_of_renames {r : Request} {w : AuthorityWrapper}
    (atWork : AtWork env orders m r w) {old new : Name}
    (renames : r.Renames old new) {ip : IpAddr} (held : Has w (.address (LowerName.new old) ip)) :
    Address m (LowerName.new old) ip :=
  (atWork.address held).elim id fun comes => (comes_rename renames comes).2

variable (laws : env.hickory.RecordLaws) (keep : env.hickory.KeepLaws)
  (names : env.hickory.NameLaws)
include laws keep names

theorem turnsKeep_between (r : Request) :
    TurnsKeep env orders m r (AtWork env orders m r) (AtWork env orders m r) where
  adds name ip pair w between := every_upsert_between orders.reverse laws keep names rfl between
    name ip (.inl ⟨name, rfl, pair⟩)
  removes name ip pair w between := every_removeAddress_between orders.reverse laws keep names rfl
    between name ip (goes_of_removes between pair)
  renames old new renames t kind w between := by
    refine every_renameRecords_between orders.reverse laws keep names rfl between old new kind
      fun ip held => ?_
    have before := address_of_renames between renames held
    exact ⟨.inr ⟨old, new, renames, rfl, before⟩, .inr ⟨old, new, renames, rfl, before⟩⟩
  implies _ between := between

/-- Every moment of a request about containers. -/
theorem every_atWork {r : Request} (about : ¬ r.AboutNetworks)
    (sound : TableSound env.hickory m.authorityWrapper) :
    (requestSections env orders r).Every (TableMoment m (AtWork env orders m r)) m :=
  every_request about (turnsKeep_between laws keep names r) (.start sound)

end Requests
end DockerDns.Guarantees
