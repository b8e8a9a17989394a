import DockerDns.Library.FiniteMap

/-!
# Hash sets under a hand-written hash

A hash set compares only elements whose hashes are equal. When equality is
agreement of a normal form and the hash respects it, insertion is insertion into
a set of normal forms, and a map of such sets represents a relation.
-/
namespace DockerDns.Library

variable {κ α β η : Type}

section Relations
variable [DecidableEq κ] {norm : α → β}

/-- The map holds, under each key, the normal forms the relation gives it, each
once, and no key without one. -/
def Represents (norm : α → β) (map : FiniteMap κ (List α)) (pairs : κ → β → Prop) : Prop :=
  ∀ key, (map.lookup key = none ∧ ∀ b, ¬ pairs key b) ∨
    ∃ set, map.lookup key = some set ∧ set ≠ [] ∧ (set.map norm).Nodup ∧
      ∀ b, b ∈ set.map norm ↔ pairs key b

theorem represents_empty : Represents norm (∅ : FiniteMap κ (List α)) fun _ _ => False :=
  fun _ => .inl ⟨rfl, fun _ => id⟩

theorem Represents.congr {map : FiniteMap κ (List α)} {pairs pairs' : κ → β → Prop}
    (represents : Represents norm map pairs) (same : ∀ key b, pairs' key b ↔ pairs key b) :
    Represents norm map pairs' := by
  have equal : pairs' = pairs := funext fun key => funext fun b => propext (same key b)
  rwa [equal]

end Relations

section Sets
variable [DecidableEq β] [DecidableEq η] (norm : α → β) (hash : α → η)

/-- Elements with one normal form have one hash. -/
def HashAgrees : Prop := ∀ x y, norm x = norm y → hash x = hash y

/-- The set after an insertion; the flag tells whether the element is new. -/
def hashInsert (set : List α) (x : α) : List α × Bool :=
  if ∃ y ∈ set, hash y = hash x ∧ norm y = norm x then (set, false) else (set ++ [x], true)

variable {norm hash}

theorem hashInsert_cases (agrees : HashAgrees norm hash) (set : List α) (x : α) :
    (norm x ∈ set.map norm ∧ (hashInsert norm hash set x).1 = set) ∨
      (norm x ∉ set.map norm ∧ (hashInsert norm hash set x).1 = set ++ [x]) := by
  have found : (∃ y ∈ set, hash y = hash x ∧ norm y = norm x) ↔ norm x ∈ set.map norm := by
    rw [List.mem_map]
    constructor
    · intro listed
      obtain ⟨y, member, _, same⟩ := listed
      exact ⟨y, member, same⟩
    · intro listed
      obtain ⟨y, member, same⟩ := listed
      exact ⟨y, member, agrees y x same, same⟩
  unfold hashInsert
  by_cases present : norm x ∈ set.map norm
  · exact .inl ⟨present, by rw [if_pos (found.mpr present)]⟩
  · exact .inr ⟨present, by rw [if_neg fun listed => present (found.mp listed)]⟩

theorem mem_hashInsert (agrees : HashAgrees norm hash) (set : List α) (x : α) (b : β) :
    b ∈ (hashInsert norm hash set x).1.map norm ↔ b ∈ set.map norm ∨ b = norm x := by
  rcases hashInsert_cases agrees set x with ⟨present, same⟩ | ⟨_, appended⟩
  · rw [same]
    constructor
    · exact .inl
    · intro either
      rcases either with old | rfl
      · exact old
      · exact present
  · rw [appended, List.map_append, List.mem_append]
    exact or_congr_right List.mem_singleton

theorem nodup_hashInsert (agrees : HashAgrees norm hash) {set : List α} (x : α)
    (distinct : (set.map norm).Nodup) : ((hashInsert norm hash set x).1.map norm).Nodup := by
  rcases hashInsert_cases agrees set x with ⟨_, same⟩ | ⟨absent, appended⟩
  · rwa [same]
  · rw [appended, List.map_append, List.nodup_append]
    refine ⟨distinct, List.nodup_singleton _, ?_⟩
    intro b member c single same
    rw [List.map_singleton, List.mem_singleton] at single
    exact absent (single ▸ same ▸ member)

theorem hashInsert_ne_nil (agrees : HashAgrees norm hash) (set : List α) (x : α) :
    (hashInsert norm hash set x).1 ≠ [] := by
  have member := (mem_hashInsert agrees set x (norm x)).mpr (.inr rfl)
  intro empty
  rw [empty] at member
  cases member

section Maps
variable [DecidableEq κ]

/-- `entry(key).or_default().insert(x)`. -/
def insertPair (norm : α → β) (hash : α → η) (map : FiniteMap κ (List α)) (key : κ) (x : α) :
    FiniteMap κ (List α) :=
  map.insert key (hashInsert norm hash ((map.lookup key).getD []) x).1

theorem insertPair_represents (agrees : HashAgrees norm hash) {map : FiniteMap κ (List α)}
    {pairs : κ → β → Prop} (represents : Represents norm map pairs) (key : κ) (x : α) :
    Represents norm (insertPair norm hash map key x)
      fun key' b => pairs key' b ∨ (key' = key ∧ b = norm x) := by
  intro key'
  unfold insertPair
  rw [FiniteMap.lookup_insert]
  by_cases here : key' = key
  · subst here
    rw [if_pos rfl]
    -- the set before, empty when the key was vacant
    have before : (((map.lookup key').getD []).map norm).Nodup ∧
        ∀ b, b ∈ ((map.lookup key').getD []).map norm ↔ pairs key' b := by
      rcases represents key' with ⟨vacant, none⟩ | ⟨set, found, _, distinct, members⟩
      · rw [vacant]
        exact ⟨List.nodup_nil, fun b => iff_of_false List.not_mem_nil (none b)⟩
      · rw [found]
        exact ⟨distinct, members⟩
    refine .inr ⟨_, rfl, hashInsert_ne_nil agrees _ x, nodup_hashInsert agrees x before.1, ?_⟩
    intro b
    rw [mem_hashInsert agrees, before.2]
    simp
  · rw [if_neg here]
    rcases represents key' with ⟨vacant, none⟩ | ⟨set, found, nonempty, distinct, members⟩
    · exact .inl ⟨vacant, fun b => by simp [here, none b]⟩
    · exact .inr ⟨set, found, nonempty, distinct, fun b => by simp [here, members b]⟩

end Maps
end Sets
end DockerDns.Library
