import DockerDns.Guarantees.StoredSets
import DockerDns.Source.Monitor

/-!
# States that are the same but for record order and letter case

Two tables with the same facts store the same sets up to spelling. When both are
part of a third table, set by set, the spelling agrees as well. Two monitors
are the same when their maps have the same lookups and their tables the same sets.
-/
namespace DockerDns.Guarantees
open Library Source

/-- Two sets with one type and TTL, whose owners agree once spelled by `spell`
and whose records, once spelled by `norm`, are the same in some order. -/
structure Alike (spell : Name → Name) (norm : RData → RData) (a b : RecordSet) : Prop where
  name : spell a.name = spell b.name
  recordType : a.recordType = b.recordType
  ttl : a.ttl = b.ttl
  records : (a.records.map norm).Perm (b.records.map norm)

/-- The same up to record order. -/
abbrev Reordered : RecordSet → RecordSet → Prop := Alike id id

/-- The same up to record order and the letter case of the owner. -/
abbrev OwnerRespelled : RecordSet → RecordSet → Prop := Alike Name.toLowercase id

/-- The same up to record order and letter case. -/
abbrev Respelled : RecordSet → RecordSet → Prop := Alike Name.toLowercase RData.lower

theorem Alike.refl (spell : Name → Name) (norm : RData → RData) (a : RecordSet) :
    Alike spell norm a a := ⟨rfl, rfl, rfl, .refl _⟩

def SameSets (alike : RecordSet → RecordSet → Prop) (w w' : AuthorityWrapper) : Prop :=
  ∀ place, Option.Rel alike (stored w place) (stored w' place)

structure SameEntry (a b : ContainerState) : Prop where
  names : a.names = b.names
  networks : ∀ net, a.networks.lookup net = b.networks.lookup net

structure SameState (alike : RecordSet → RecordSet → Prop) (m m' : Monitor) : Prop where
  catalog : ∀ name, m.catalog.lookup name = m'.catalog.lookup name
  networks : ∀ id, m.networks.lookup id = m'.networks.lookup id
  containers : ∀ id, Option.Rel SameEntry (m.containers.lookup id) (m'.containers.lookup id)
  zones : ∀ net, m.authorityWrapper.reverseZones.lookup net =
    m'.authorityWrapper.reverseZones.lookup net
  records : SameSets alike m.authorityWrapper m'.authorityWrapper

theorem rel_refl {α : Type} {r : α → α → Prop} (refl : ∀ a, r a a) (o : Option α) :
    Option.Rel r o o := by
  cases o with
  | none => exact .none
  | some a => exact .some (refl a)

theorem SameEntry.refl (a : ContainerState) : SameEntry a a := ⟨rfl, fun _ => rfl⟩

theorem SameSets.refl (spell : Name → Name) (norm : RData → RData) (w : AuthorityWrapper) :
    SameSets (Alike spell norm) w w := fun _ => rel_refl (Alike.refl spell norm) _

theorem SameState.refl (spell : Name → Name) (norm : RData → RData) (m : Monitor) :
    SameState (Alike spell norm) m m :=
  ⟨fun _ => rfl, fun _ => rfl, fun _ => rel_refl SameEntry.refl _, fun _ => rfl, .refl spell norm _⟩

/-- The place that stores a fact. -/
def Fact.place : Fact → Place
  | .address n ip => .forward ⟨n, (RData.ofIp ip).recordType⟩
  | .pointer authority reverse _ => .reverse authority ⟨reverse, .ptr⟩

/-- The datum that states a fact at its place. -/
def Fact.rdata : Fact → RData
  | .address _ ip => RData.ofIp ip
  | .pointer _ _ n => .ptr n.name

section Tables
variable {w w' v : AuthorityWrapper}

theorem has_iff (f : Fact) :
    Has w f ↔ ∃ set, stored w f.place = some set ∧ f.rdata ∈ set.data := by
  cases f with
  | address n ip => simp only [Has, Holds, Fact.place, Fact.rdata, stored, RData.lower_ofIp]
  | pointer authority reverse n =>
    simp only [Has, Holds, Fact.place, Fact.rdata, stored, RData.recordType_ptr,
      Option.bind_eq_some_iff]
    have lower : (RData.ptr n.name).lower = .ptr n.name := congrArg RData.ptr n.lower
    rw [lower]
    constructor
    · intro held
      obtain ⟨zone, found, set, stored, member⟩ := held
      exact ⟨set, ⟨zone, found, stored⟩, member⟩
    · intro held
      obtain ⟨set, ⟨zone, found, stored⟩, member⟩ := held
      exact ⟨zone, found, set, stored, member⟩

/-- A stored set other than an SOA is well formed for its key. -/
theorem WrapperWellFormed.set (wf : WrapperWellFormed w) {place : Place} {set : RecordSet}
    (found : stored w place = some set) (plain : place.key.recordType ≠ .soa) :
    SetWellFormed place.key set := by
  have other : ∀ origin, place.key ≠ soaKey origin :=
    fun origin same => plain (congrArg RrKey.recordType same)
  cases place with
  | forward key => exact (wf.forward.sets key set found (other _)).2
  | reverse authority key =>
    obtain ⟨zone, member, found⟩ := Option.bind_eq_some_iff.mp found
    exact ((wf.handlers zone (List.mem_of_getElem? member)).sets key set found (other _)).2

/-- Every datum of such a set states a fact. -/
theorem exists_fact (wf : WrapperWellFormed w) {place : Place} {set : RecordSet}
    (found : stored w place = some set) (plain : place.key.recordType ≠ .soa) {d : RData}
    (member : d ∈ set.data) : ∃ f : Fact, f.place = place ∧ f.rdata = d := by
  have sameType := (wf.set found plain).types d member
  have other : ∀ origin, place.key ≠ soaKey origin :=
    fun origin same => plain (congrArg RrKey.recordType same)
  obtain ⟨r, _, rfl⟩ := List.mem_map.mp member
  cases place with
  | forward key =>
    have kind : ForwardKind key.recordType := (wf.forward.sets key set found (other _)).1
    obtain ⟨ip, same⟩ : ∃ ip, r = RData.ofIp ip := by
      rw [RData.lower_recordType] at sameType
      have family : r.recordType = .a ∨ r.recordType = .aaaa := sameType ▸ kind
      cases r with
      | a addr => exact ⟨.v4 addr, rfl⟩
      | aaaa addr => exact ⟨.v6 addr, rfl⟩
      | ptr | soa => simp [RData.recordType] at family
    subst same
    refine ⟨.address key.name ip, ?_, (RData.lower_ofIp ip).symm⟩
    rw [RData.lower_recordType] at sameType
    simp only [Fact.place, sameType]
    rfl
  | reverse authority key =>
    obtain ⟨zone, inside, found⟩ := Option.bind_eq_some_iff.mp found
    have kind : key.recordType = .ptr :=
      ((wf.handlers zone (List.mem_of_getElem? inside)).sets key set found (other _)).1
    have isPtr : r.recordType = .ptr := (RData.lower_recordType r).symm.trans (sameType.trans kind)
    cases r with
    | ptr target =>
      refine ⟨.pointer authority key.name (LowerName.new target), ?_, rfl⟩
      simp only [Fact.place, ← kind]
    | a | aaaa | soa => cases isPtr

/-- The SOA sets of two tables over the same zones are the same. -/
theorem stored_soa (wf : WrapperWellFormed w) (wf' : WrapperWellFormed w') (zones : SameZones w w')
    {place : Place} (soa : place.key.recordType = .soa) : stored w place = stored w' place := by
  cases place with
  | forward key =>
    have isSoa : key.recordType = .soa := soa
    simp only [stored, wf.forward.soa_lookup forwardKind_plain isSoa,
      wf'.forward.soa_lookup forwardKind_plain isSoa, zones.forward]
  | reverse authority key =>
    have isSoa : key.recordType = .soa := soa
    have origins : (w'.handlers[authority]?).map (·.origin) =
        (w.handlers[authority]?).map (·.origin) := by
      rw [← List.getElem?_map, ← List.getElem?_map, zones.handlers]
    simp only [stored]
    cases found : w.handlers[authority]? with
    | none =>
      rw [found, Option.map_none, Option.map_eq_none_iff] at origins
      rw [origins]
    | some zone =>
      rw [found, Option.map_some, Option.map_eq_some_iff] at origins
      obtain ⟨zone', found', same⟩ := origins
      rw [found', Option.bind_some, Option.bind_some,
        (wf.handlers zone (List.mem_of_getElem? found)).soa_lookup reverseKind_plain isSoa,
        (wf'.handlers zone' (List.mem_of_getElem? found')).soa_lookup reverseKind_plain isSoa, same]

/-- Two tables over the same zones store the same sets once any two sets with
the same key and the same data are alike. -/
theorem sameSets_of_facts (wf : WrapperWellFormed w) (wf' : WrapperWellFormed w')
    (zones : SameZones w w') (facts : ∀ f, Has w f ↔ Has w' f)
    {alike : RecordSet → RecordSet → Prop} (refl : ∀ set, alike set set)
    (sets : ∀ place set set', stored w place = some set → stored w' place = some set' →
      place.key.recordType ≠ .soa → (∀ d, d ∈ set.data ↔ d ∈ set'.data) → alike set set') :
    SameSets alike w w' := by
  intro place
  by_cases soa : place.key.recordType = .soa
  · rw [stored_soa wf wf' zones soa]
    exact rel_refl refl _
  -- a datum of one table is a datum of the other at the same place
  have moves : ∀ {u u' : AuthorityWrapper}, WrapperWellFormed u → (∀ f, Has u f → Has u' f) →
      ∀ set d, stored u place = some set → d ∈ set.data →
        ∃ set', stored u' place = some set' ∧ d ∈ set'.data := by
    intro u u' wfu same set d found member
    obtain ⟨f, rfl, rfl⟩ := exists_fact wfu found soa member
    exact (has_iff f).mp (same f ((has_iff f).mpr ⟨set, found, member⟩))
  have occupied : ∀ {u : AuthorityWrapper}, WrapperWellFormed u → ∀ set, stored u place = some set →
      ∃ d, d ∈ set.data :=
    fun wfu set found => List.exists_mem_of_ne_nil _ (wfu.set found soa).nonempty
  have forth := moves wf fun f => (facts f).mp
  have back := moves wf' fun f => (facts f).mpr
  cases found : stored w place with
  | none =>
    cases found' : stored w' place with
    | none => exact .none
    | some set' =>
      obtain ⟨d, member⟩ := occupied wf' set' found'
      obtain ⟨set, stored, _⟩ := back set' d found' member
      cases found.symm.trans stored
  | some set =>
    obtain ⟨d, member⟩ := occupied wf set found
    obtain ⟨set', found', _⟩ := forth set d found member
    rw [found']
    refine .some (sets place set set' found found' soa fun d => ⟨?_, ?_⟩)
    · intro member
      obtain ⟨other, stored, inside⟩ := forth set d found member
      cases found'.symm.trans stored
      exact inside
    · intro member
      obtain ⟨other, stored, inside⟩ := back set' d found' member
      cases found.symm.trans stored
      exact inside

end Tables
end DockerDns.Guarantees
