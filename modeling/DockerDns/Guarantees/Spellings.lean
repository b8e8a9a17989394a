import DockerDns.Guarantees.TableStates
import DockerDns.Library.LocalUpdates

/-!
# How a table spells its facts

Every fact a table holds is stated by one record, in one spelling. Additions
keep the spellings that are there and use the first of the container's names for
a new fact; removals keep the spelling of what stays. Tables that spell the same
facts alike differ in the order of records and the case of owners at most.
-/
namespace DockerDns.Guarantees
open Library Source

abbrev Spelling := Fact → Option RData

/-- The record that states a fact. -/
def spelling (w : AuthorityWrapper) : Spelling := fun f =>
  (stored w f.place).bind fun set => set.records.find? fun r => r.lower = f.rdata

section Tables
variable {w w' : AuthorityWrapper}

theorem Fact.plain (f : Fact) : f.place.key.recordType ≠ .soa := by
  cases f with
  | address n ip =>
    rcases RData.recordType_ofIp ip with isV4 | isV6
    · simp [Fact.place, Place.key, isV4]
    · simp [Fact.place, Place.key, isV6]
  | pointer authority reverse n => simp [Fact.place, Place.key]

theorem spelling_eq_some (wf : WrapperWellFormed w) {f : Fact} {r : RData} :
    spelling w f = some r ↔
      ∃ set, stored w f.place = some set ∧ r ∈ set.records ∧ r.lower = f.rdata := by
  rw [spelling, Option.bind_eq_some_iff]
  refine exists_congr fun set => and_congr_right fun found => ?_
  constructor
  · intro first
    have same := List.find?_some first
    exact ⟨List.mem_of_find?_eq_some first, by simpa using same⟩
  · intro both
    obtain ⟨member, same⟩ := both
    cases first : set.records.find? fun r => r.lower = f.rdata with
    | none => exact absurd same (by simpa using List.find?_eq_none.mp first r member)
    | some r' =>
      have same' : r'.lower = f.rdata := by simpa using List.find?_some first
      have distinct := (wf.set found f.plain).distinct
      rw [List.inj_on_of_nodup_map distinct (List.mem_of_find?_eq_some first) member
        (same'.trans same.symm)]

theorem spelling_isSome (wf : WrapperWellFormed w) (f : Fact) :
    (spelling w f).isSome ↔ Has w f := by
  rw [Option.isSome_iff_exists, has_iff]
  constructor
  · intro spelled
    obtain ⟨r, spelled⟩ := spelled
    obtain ⟨set, found, member, same⟩ := (spelling_eq_some wf).mp spelled
    exact ⟨set, found, same ▸ List.mem_map_of_mem member⟩
  · intro held
    obtain ⟨set, found, member⟩ := held
    obtain ⟨r, inside, same⟩ := List.mem_map.mp member
    exact ⟨r, (spelling_eq_some wf).mpr ⟨set, found, inside, same⟩⟩

/-- A table within another spells what it holds as the other does. -/
theorem spelling_of_within (wf : WrapperWellFormed w) (wf' : WrapperWellFormed w')
    (within : Within w' w) {f : Fact} (held : Has w' f) : spelling w' f = spelling w f := by
  obtain ⟨r, spelled⟩ := Option.isSome_iff_exists.mp ((spelling_isSome wf' f).mpr held)
  obtain ⟨set, found, member, same⟩ := (spelling_eq_some wf').mp spelled
  obtain ⟨set', found', part⟩ := within f.place set found
  rw [spelled, (spelling_eq_some wf).mpr ⟨set', found', part.records member, same⟩]

/-- Tables as the program makes them, over the same zones, that spell the same
facts alike. -/
theorem sameSets_of_spelling (wf : WrapperWellFormed w) (wf' : WrapperWellFormed w')
    (made : Made w) (made' : Made w') (zones : SameZones w w')
    (same : ∀ f, spelling w f = spelling w' f) : SameSets OwnerRespelled w w' := by
  have facts : ∀ f, Has w f ↔ Has w' f := by
    intro f
    rw [← spelling_isSome wf, ← spelling_isSome wf', same]
  refine sameSets_of_facts wf wf' zones facts (Alike.refl _ _) ?_
  intro place set set' found found' plain _
  have setWf := wf.set found plain
  have setWf' := wf'.set found' plain
  have moves : ∀ {u u' : AuthorityWrapper} {a b : RecordSet}, WrapperWellFormed u →
      WrapperWellFormed u' → stored u place = some a → stored u' place = some b →
      (∀ f, spelling u f = spelling u' f) → a.records ⊆ b.records := by
    intro u u' a b wfu wfu' foundA foundB same r member
    obtain ⟨f, samePlace, sameDatum⟩ := exists_fact wfu foundA plain (List.mem_map_of_mem member)
    subst samePlace
    have spelled := (spelling_eq_some wfu).mpr ⟨a, foundA, member, sameDatum.symm⟩
    rw [same] at spelled
    obtain ⟨b', foundB', member', _⟩ := (spelling_eq_some wfu').mp spelled
    cases foundB.symm.trans foundB'
    exact member'
  refine ⟨(LowerName.new_eq_iff _ _).mp (setWf.name.trans setWf'.name.symm),
    setWf.recordType.trans setWf'.recordType.symm,
    (made place set found plain).1.trans (made' place set' found' plain).1.symm, ?_⟩
  rw [List.map_id, List.map_id, List.perm_ext_iff_of_nodup setWf.distinct.of_map setWf'.distinct.of_map]
  intro r
  exact ⟨fun member => moves wf wf' found found' same member,
    fun member => moves wf' wf found' found (fun f => (same f).symm) member⟩

end Tables

/-- The record of a container with these names that states a fact: a pointer
gives the first of the names that agrees. -/
def datumOf (names : List Name) : Fact → Option RData
  | .address _ ip => some (RData.ofIp ip)
  | .pointer _ _ n => (names.find? fun name => LowerName.new name = n).map RData.ptr

open Classical in
/-- The spelling after the pairs of some names and addresses were added. -/
noncomputable def addSpelling (hk : Hickory) (cover : IpAddr → Option Handle) (names : List Name)
    (ips : IpAddr → Prop) (v : Spelling) : Spelling := fun f =>
  (v f).or (if ∃ n ip, (Named names n ∧ ips ip) ∧ PairFact hk cover n ip f then datumOf names f
    else none)

open Classical in
/-- The spelling after pairs were removed. -/
noncomputable def removeSpelling (hk : Hickory) (cover : IpAddr → Option Handle)
    (pairs : LowerName → IpAddr → Prop) (v : Spelling) : Spelling := fun f =>
  if Removed hk cover pairs (fun f => (v f).isSome) f then v f else none

section Updates
variable {hk : Hickory} {cover : IpAddr → Option Handle} {w w' : AuthorityWrapper}

theorem pairFact_place {n : LowerName} {ip : IpAddr} {f : Fact} (pair : PairFact hk cover n ip f) :
    PairPlace hk cover n ip f.place := by
  cases f with
  | address n' ip' =>
    obtain ⟨rfl, rfl⟩ := pair
    rfl
  | pointer authority reverse n' =>
    obtain ⟨covered, rfl, rfl⟩ := pair
    exact ⟨covered, rfl⟩

instance (n : LowerName) (ip : IpAddr) : DecidablePred (PairFact hk cover n ip)
  | .address _ _ => inferInstanceAs (Decidable (_ ∧ _))
  | .pointer _ _ _ => inferInstanceAs (Decidable (_ ∧ _))

theorem spelling_upsert (order : IterationOrder) (laws : hk.RecordLaws) (keep : hk.KeepLaws)
    (wf : WrapperWellFormed w) (name : Name) (ip : IpAddr) :
    spelling (w.upsert hk order name ip) = fun f =>
      if PairFact hk (w.findReverseAuthority order) (LowerName.new name) ip f then
        (spelling w f).or (some (rdataAt name ip f.place))
      else spelling w f := by
  funext f
  have effect := upsert_effect order laws wf name ip
  have within := (Within.refl w).upsert_right order keep wf name ip
  by_cases held : Has w f
  · rw [← spelling_of_within effect.wellFormed wf within held]
    obtain ⟨r, spelled⟩ := Option.isSome_iff_exists.mp ((spelling_isSome wf f).mpr held)
    rw [spelled, Option.some_or, ite_self]
  have unspelled : spelling w f = none := by
    rw [← Option.not_isSome_iff_eq_none, spelling_isSome wf]
    exact held
  split
  next pair =>
    have added : Has (w.upsert hk order name ip) f := (effect.facts f).mpr (.inr pair)
    obtain ⟨r, spelled⟩ :=
      Option.isSome_iff_exists.mp ((spelling_isSome effect.wellFormed f).mpr added)
    obtain ⟨set, found, member, same⟩ := (spelling_eq_some effect.wellFormed).mp spelled
    have here := pairFact_place pair
    rw [stored_upsert order wf, if_pos here] at found
    cases found
    have typed : (rdataAt name ip f.place).recordType = (baseAt hk w name ip f.place).recordType := by
      rw [pairPlace_type here name, baseAt]
      cases before : stored w f.place with
      | none => exact (pairPlace_type here name).symm.trans (by cases f.place <;> rfl)
      | some base => exact (wf.set before f.plain).recordType.symm
    rw [unspelled, Option.none_or, spelled]
    rcases List.mem_cons.mp (keep.addRdata_adds _ _ typed (rdataAt_isPlain name ip _) member) with rfl | old
    · rfl
    · -- a record that was there before would have stated the fact
      refine absurd ((has_iff f).mpr ?_) held
      cases before : stored w f.place with
      | none =>
        rw [baseAt, before] at old
        cases place : f.place with
        | forward key =>
          rw [place] at old
          cases old
        | reverse authority key =>
          rw [place] at old
          cases old
      | some base =>
        rw [baseAt, before, Option.getD_some] at old
        exact ⟨base, rfl, same ▸ List.mem_map_of_mem old⟩
  next other =>
    rw [unspelled, ← Option.not_isSome_iff_eq_none, spelling_isSome effect.wellFormed, effect.facts]
    exact fun both => both.elim held other

/-- Adding at one address after others is adding at all of them. -/
theorem addSpelling_twice (names : List Name) (ips ips' : IpAddr → Prop) (v : Spelling) :
    addSpelling hk cover names ips' (addSpelling hk cover names ips v) =
      addSpelling hk cover names (fun ip => ips ip ∨ ips' ip) v := by
  funext f
  have either : (∃ n ip, (Named names n ∧ (ips ip ∨ ips' ip)) ∧ PairFact hk cover n ip f) ↔
      (∃ n ip, (Named names n ∧ ips ip) ∧ PairFact hk cover n ip f) ∨
        ∃ n ip, (Named names n ∧ ips' ip) ∧ PairFact hk cover n ip f := by
    simp only [and_or_left, or_and_right, exists_or]
  simp only [addSpelling, either, Option.or_assoc]
  split_ifs <;> simp_all

/-- Adding an address under one name and then under the others. -/
theorem addSpelling_cons (name : Name) (rest : List Name) (ip : IpAddr) (v : Spelling) :
    addSpelling hk cover (name :: rest) (fun ip' => ip' = ip) v =
      addSpelling hk cover rest (fun ip' => ip' = ip) fun f =>
        if PairFact hk cover (LowerName.new name) ip f then
          (v f).or (some (rdataAt name ip f.place))
        else v f := by
  funext f
  simp only [addSpelling]
  by_cases pair : PairFact hk cover (LowerName.new name) ip f
  · have here : ∃ n ip', (Named (name :: rest) n ∧ ip' = ip) ∧ PairFact hk cover n ip' f :=
      ⟨_, ip, ⟨⟨name, List.mem_cons_self, rfl⟩, rfl⟩, pair⟩
    rw [if_pos here, if_pos pair, Option.or_assoc, Option.some_or]
    congr 1
    cases f with
    | address n ip' =>
      obtain ⟨_, rfl⟩ := pair
      rfl
    | pointer authority reverse n =>
      obtain ⟨_, _, rfl⟩ := pair
      simp [datumOf, rdataAt, Fact.place]
  · have later : (∃ n ip', (Named (name :: rest) n ∧ ip' = ip) ∧ PairFact hk cover n ip' f) ↔
        ∃ n ip', (Named rest n ∧ ip' = ip) ∧ PairFact hk cover n ip' f := by
      constructor
      · intro found
        obtain ⟨_, _, ⟨⟨name', member, rfl⟩, rfl⟩, pair'⟩ := found
        rcases List.mem_cons.mp member with rfl | member
        · exact absurd pair' pair
        · exact ⟨_, _, ⟨⟨name', member, rfl⟩, rfl⟩, pair'⟩
      · intro found
        obtain ⟨_, _, ⟨⟨name', member, rfl⟩, rfl⟩, pair'⟩ := found
        exact ⟨_, _, ⟨⟨name', List.mem_cons_of_mem _ member, rfl⟩, rfl⟩, pair'⟩
    rw [if_neg pair]
    by_cases found : ∃ n ip', (Named rest n ∧ ip' = ip) ∧ PairFact hk cover n ip' f
    · rw [if_pos found, if_pos (later.mpr found)]
      obtain ⟨n, ip', ⟨_, rfl⟩, pair'⟩ := found
      cases f with
      | address => rfl
      | pointer authority reverse n' =>
        obtain ⟨covered, sameKey, rfl⟩ := pair'
        have differs : LowerName.new name ≠ n' := fun same => pair ⟨covered, sameKey, same.symm⟩
        simp [datumOf, differs]
    · rw [if_neg found, if_neg fun longer => found (later.mp longer)]

theorem spelling_addPairs (order : IterationOrder) (laws : hk.RecordLaws) (keep : hk.KeepLaws)
    (wf : WrapperWellFormed w) (names : List Name) (ips : List IpAddr) :
    spelling ((addPairs order names ips).foldl (AuthorityWrapper.apply hk) w) =
      addSpelling hk (w.findReverseAuthority order) names (fun ip => ip ∈ ips) (spelling w) := by
  -- one address, under every name
  have once : ∀ (names : List Name) (ip : IpAddr) (u : AuthorityWrapper), WrapperWellFormed u →
      SameZones w u →
      WrapperWellFormed ((names.map fun name => Operation.add order name ip).foldl
        (AuthorityWrapper.apply hk) u) ∧
      SameZones w ((names.map fun name => Operation.add order name ip).foldl
        (AuthorityWrapper.apply hk) u) ∧
      spelling ((names.map fun name => Operation.add order name ip).foldl
        (AuthorityWrapper.apply hk) u) =
        addSpelling hk (w.findReverseAuthority order) names (fun ip' => ip' = ip) (spelling u) := by
    intro names ip
    induction names with
    | nil =>
      intro u wf zones
      refine ⟨wf, zones, funext fun f => ?_⟩
      simp [addSpelling, Named]
    | cons name rest ih =>
      intro u wf zones
      have effect := upsert_effect order laws wf name ip
      obtain ⟨kept, same, spelled⟩ := ih _ effect.wellFormed (zones.trans effect.zones)
      refine ⟨kept, same, ?_⟩
      rw [addSpelling_cons, ← funext (zones.cover order), ← spelling_upsert order laws keep wf name ip,
        funext (zones.cover order)]
      exact spelled
  have all : ∀ (ips : List IpAddr) (u : AuthorityWrapper), WrapperWellFormed u → SameZones w u →
      spelling ((addPairs order names ips).foldl (AuthorityWrapper.apply hk) u) =
        addSpelling hk (w.findReverseAuthority order) names (fun ip => ip ∈ ips) (spelling u) := by
    intro ips
    induction ips with
    | nil =>
      intro u _ _
      funext f
      simp [addSpelling, addPairs]
    | cons ip rest ih =>
      intro u wf zones
      obtain ⟨kept, same, spelled⟩ := once names ip u wf zones
      simp only [List.mem_cons]
      rw [← addSpelling_twice, ← spelled, ← ih _ kept same, addPairs, List.flatMap_cons,
        List.foldl_append]
      rfl
  exact all ips w wf (.refl w)

/-- Removals leave the spelling of what stays. -/
theorem spelling_removed (wf : WrapperWellFormed w) {pairs : LowerName → IpAddr → Prop}
    (effect : Effect w w' (Removed hk cover pairs (Has w))) (within : Within w' w) :
    spelling w' = removeSpelling hk cover pairs (spelling w) := by
  have held : (fun f => ((spelling w f).isSome : Prop)) = Has w :=
    funext fun f => propext (spelling_isSome wf f)
  funext f
  rw [removeSpelling]
  split
  next stays =>
    rw [held] at stays
    exact spelling_of_within wf effect.wellFormed within ((effect.facts f).mpr stays)
  next gone =>
    rw [held] at gone
    rw [← Option.not_isSome_iff_eq_none, spelling_isSome effect.wellFormed, effect.facts]
    exact gone

theorem removeSpelling_nothing {pairs : LowerName → IpAddr → Prop} (none : ∀ n ip, ¬ pairs n ip)
    (v : Spelling) : removeSpelling hk cover pairs v = v := by
  funext f
  simp only [removeSpelling, Removed, none, false_and, exists_false, not_false_eq_true, and_true]
  split
  · rfl
  next absent => exact (Option.not_isSome_iff_eq_none.mp absent).symm

/-- The facts of some pairs. -/
def Region (hk : Hickory) (cover : IpAddr → Option Handle) (pairs : LowerName → IpAddr → Prop)
    (f : Fact) : Prop := ∃ n ip, pairs n ip ∧ PairFact hk cover n ip f

theorem addSpelling_local (names : List Name) (ips : IpAddr → Prop) :
    Local (Region hk cover fun n ip => Named names n ∧ ips ip) (addSpelling hk cover names ips) := by
  constructor
  · intro v f outside
    have absent : ¬ ∃ n ip, (Named names n ∧ ips ip) ∧ PairFact hk cover n ip f := outside
    rw [addSpelling, if_neg absent, Option.or_none]
  · intro v v' same f inside
    rw [addSpelling, addSpelling, same f inside]

theorem removeSpelling_local (pairs : LowerName → IpAddr → Prop) :
    Local (Region hk cover pairs) (removeSpelling hk cover pairs) := by
  constructor
  · intro v f outside
    have stays : Removed hk cover pairs (fun f => (v f).isSome) f ↔ (v f).isSome := by
      refine and_iff_left ?_
      intro gone
      obtain ⟨n, ip, pair, _, fact⟩ := gone
      exact outside ⟨n, ip, pair, fact⟩
    rw [removeSpelling]
    split
    · rfl
    next absent => exact (Option.not_isSome_iff_eq_none.mp fun held => absent (stays.mpr held)).symm
  · intro v v' same f inside
    have addresses : ∀ n ip, pairs n ip → v (.address n ip) = v' (.address n ip) :=
      fun n ip pair => same _ ⟨n, ip, pair, rfl, rfl⟩
    have stays : Removed hk cover pairs (fun f => (v f).isSome) f ↔
        Removed hk cover pairs (fun f => (v' f).isSome) f := by
      simp only [Removed, same f inside]
      refine and_congr_right fun _ => not_congr ?_
      refine exists_congr fun n => exists_congr fun ip => and_congr_right fun pair => ?_
      rw [addresses n ip pair]
    rw [removeSpelling, removeSpelling]
    by_cases here : Removed hk cover pairs (fun f => (v f).isSome) f
    · rw [if_pos here, if_pos (stays.mp here), same f inside]
    · rw [if_neg here, if_neg fun there => here (stays.mpr there)]

end Updates
end DockerDns.Guarantees
