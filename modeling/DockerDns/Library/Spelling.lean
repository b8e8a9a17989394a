import DockerDns.Library.Blocks

/-!
# Spelled addresses

The first `j` digits of an address in radix `2 ^ k`, each written as a label, the
least significant first. A spelling is a suffix of a longer one exactly when the
two addresses agree on the leading bits it covers.
-/
namespace DockerDns.Library

variable {width k j n : Nat} {β : Type} {spell : Nat → β}

/-- The labels of the first `j` digits, the last digit first. -/
def spelled (k : Nat) (spell : Nat → β) (j : Nat) (a : BitVec width) : List β :=
  ((List.range j).map fun i => spell (digit k i a)).reverse

/-- Distinct digits are spelled differently. -/
def Faithful (k : Nat) (spell : Nat → β) : Prop :=
  ∀ c d, c < 2 ^ k → d < 2 ^ k → spell c = spell d → c = d

@[simp] theorem spelled_length (k : Nat) (spell : Nat → β) (j : Nat) (a : BitVec width) :
    (spelled k spell j a).length = j := by
  simp [spelled]

theorem mem_spelled {label : β} {a : BitVec width} (member : label ∈ spelled k spell j a) :
    ∃ d < 2 ^ k, label = spell d := by
  simp only [spelled, List.mem_reverse, List.mem_map] at member
  obtain ⟨i, _, rfl⟩ := member
  exact ⟨_, digit_lt k i a, rfl⟩

private theorem map_range_prefix_iff (f g : Nat → β) (le : j ≤ n) :
    (List.range j).map f <+: (List.range n).map g ↔ ∀ i < j, f i = g i := by
  rw [List.prefix_iff_eq_take, List.length_map, List.length_range, ← List.map_take,
    List.take_range, Nat.min_eq_left le, List.map_inj_left]
  simp only [List.mem_range]

theorem spelled_suffix_iff (faithful : Faithful k spell) (le : j ≤ n) (bound : k * j ≤ width)
    (a b : BitVec width) :
    spelled k spell j b <:+ spelled k spell n a ↔ leading (k * j) a = leading (k * j) b := by
  rw [spelled, spelled, List.reverse_suffix, map_range_prefix_iff _ _ le,
    leading_eq_iff_digits a b bound]
  constructor
  · intro same i inside
    exact (faithful _ _ (digit_lt k i b) (digit_lt k i a) (same i inside)).symm
  · intro same i inside
    rw [same i inside]

/-- An address is determined by the spelling of all its digits. -/
theorem spelled_inj (faithful : Faithful k spell) (whole : k * n = width) {a b : BitVec width}
    (same : spelled k spell n a = spelled k spell n b) : a = b := by
  have suffix : spelled k spell n b <:+ spelled k spell n a := same ▸ List.suffix_refl _
  have agree := (spelled_suffix_iff faithful (Nat.le_refl n) (Nat.le_of_eq whole) a b).mp suffix
  rw [whole, leading_width, leading_width] at agree
  exact BitVec.eq_of_toNat_eq agree

end DockerDns.Library
