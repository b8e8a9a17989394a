import Mathlib.Algebra.Ring.Nat
import Mathlib.Data.List.AList

/-!
# Finite maps with a list of entries

Hash maps and ordered maps are `AList`s: distinct keys, a lookup, and a list of
entries whose order carries no meaning. The lemmas state lookups after an
update as one conditional, so that a proof splits on the key once.
-/
namespace DockerDns.Library

variable {κ α : Type}

abbrev FiniteMap (κ α : Type) := AList (fun _ : κ => α)

namespace FiniteMap
variable [DecidableEq κ]

def lookup (m : FiniteMap κ α) (k : κ) : Option α := AList.lookup k m

def insert (m : FiniteMap κ α) (k : κ) (v : α) : FiniteMap κ α := AList.insert k v m

def erase (m : FiniteMap κ α) (k : κ) : FiniteMap κ α := AList.erase k m

@[simp] theorem lookup_empty (k : κ) : (∅ : FiniteMap κ α).lookup k = none := rfl

theorem lookup_insert (m : FiniteMap κ α) (k k' : κ) (v : α) :
    (m.insert k v).lookup k' = if k' = k then some v else m.lookup k' := by
  unfold lookup insert
  split
  next equal =>
    subst equal
    exact AList.lookup_insert m
  next different => exact AList.lookup_insert_ne different

theorem lookup_erase (m : FiniteMap κ α) (k k' : κ) :
    (m.erase k).lookup k' = if k' = k then none else m.lookup k' := by
  unfold lookup erase
  split
  next equal =>
    subst equal
    exact AList.lookup_erase k' m
  next different => exact AList.lookup_erase_ne different

theorem mem_entries_iff (m : FiniteMap κ α) (k : κ) (v : α) :
    (⟨k, v⟩ : Sigma fun _ : κ => α) ∈ m.entries ↔ m.lookup k = some v :=
  AList.mem_lookup_iff.symm

/-- The same keys with every value changed. -/
def mapValues {β : Type} (m : FiniteMap κ α) (f : α → β) : FiniteMap κ β :=
  ⟨m.entries.map (.map id fun _ => f), m.nodupKeys.map₂ (fun _ => f)⟩

@[simp] theorem lookup_mapValues {β : Type} (m : FiniteMap κ α) (f : α → β) (k : κ) :
    (m.mapValues f).lookup k = (m.lookup k).map f :=
  List.dlookup_map₂ k

end FiniteMap
end DockerDns.Library
