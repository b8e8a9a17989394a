import Mathlib.Data.List.Basic
import Mathlib.Algebra.Ring.Nat

/-!
# Address blocks

A block is an address of a fixed width with a prefix length; it contains the
addresses that agree with it on that many leading bits. A block of prefix `p`
is partitioned by its `2 ^ (q - p)` sub-blocks of prefix `q`, and two addresses
agree on `k * j` leading bits exactly when their first `j` digits in radix
`2 ^ k` agree.
-/
namespace DockerDns.Library

variable {width : Nat}

/-- The number spelled by the first `p` bits. -/
def leading (p : Nat) (a : BitVec width) : Nat := a.toNat / 2 ^ (width - p)

theorem leading_lt {p : Nat} (a : BitVec width) (bound : p ≤ width) : leading p a < 2 ^ p := by
  unfold leading
  rw [Nat.div_lt_iff_lt_mul (Nat.two_pow_pos _), ← Nat.pow_add, Nat.add_sub_cancel' bound]
  exact a.isLt

theorem leading_of_longer {p q : Nat} (a : BitVec width) (le : p ≤ q) (bound : q ≤ width) :
    leading p a = leading q a / 2 ^ (q - p) := by
  unfold leading
  rw [Nat.div_div_eq_div_mul, ← Nat.pow_add]
  congr 2
  omega

theorem leading_width (a : BitVec width) : leading width a = a.toNat := by
  simp [leading]

/-- Digit `i` of an address in radix `2 ^ k`, the most significant digit first. -/
def digit (k i : Nat) (a : BitVec width) : Nat := leading (k * (i + 1)) a % 2 ^ k

theorem digit_lt (k i : Nat) (a : BitVec width) : digit k i a < 2 ^ k :=
  Nat.mod_lt _ (Nat.two_pow_pos k)

private theorem mul_add_inj {base x y dx dy : Nat} (hx : dx < base) (hy : dy < base) :
    x * base + dx = y * base + dy ↔ x = y ∧ dx = dy := by
  constructor
  · intro equal
    have positive : 0 < base := Nat.lt_of_le_of_lt (Nat.zero_le _) hx
    have quotient := congrArg (· / base) equal
    have remainder := congrArg (· % base) equal
    simp only [Nat.add_comm _ dx, Nat.add_comm _ dy, Nat.add_mul_div_right _ _ positive,
      Nat.div_eq_of_lt hx, Nat.div_eq_of_lt hy, Nat.zero_add] at quotient
    simp only [Nat.add_comm _ dx, Nat.add_comm _ dy, Nat.add_mul_mod_self_right,
      Nat.mod_eq_of_lt hx, Nat.mod_eq_of_lt hy] at remainder
    exact ⟨quotient, remainder⟩
  · intro both
    obtain ⟨rfl, rfl⟩ := both
    rfl

theorem leading_succ_digit {k j : Nat} (a : BitVec width) (bound : k * (j + 1) ≤ width) :
    leading (k * (j + 1)) a = leading (k * j) a * 2 ^ k + digit k j a := by
  have shorter := leading_of_longer a (Nat.mul_le_mul_left k (Nat.le_succ j)) bound
  have exponent : k * (j + 1) - k * j = k := by
    rw [Nat.mul_succ]
    omega
  rw [exponent] at shorter
  rw [shorter, digit, Nat.div_add_mod']

/-- Two addresses agree on `k * j` leading bits when their first `j` digits do. -/
theorem leading_eq_iff_digits {k j : Nat} (a b : BitVec width) (bound : k * j ≤ width) :
    leading (k * j) a = leading (k * j) b ↔ ∀ i < j, digit k i a = digit k i b := by
  induction j with
  | zero =>
    have ha := leading_lt (p := 0) a (Nat.zero_le _)
    have hb := leading_lt (p := 0) b (Nat.zero_le _)
    simp only [Nat.mul_zero, Nat.not_lt_zero, false_implies, implies_true, iff_true]
    omega
  | succ j ih =>
    have shorter : k * j ≤ width := Nat.le_trans (Nat.mul_le_mul_left k (Nat.le_succ j)) bound
    rw [leading_succ_digit a bound, leading_succ_digit b bound,
      mul_add_inj (digit_lt k j a) (digit_lt k j b), ih shorter]
    constructor
    · intro all i inside
      obtain ⟨before, last⟩ := all
      rcases Nat.lt_succ_iff_lt_or_eq.mp inside with earlier | equal
      · exact before i earlier
      · rw [equal]
        exact last
    · intro digits
      exact ⟨fun i inside => digits i (Nat.lt_succ_of_lt inside), digits j (Nat.lt_succ_self j)⟩

structure Block (width : Nat) where
  addr : BitVec width
  prefixLen : Nat
  bounded : prefixLen ≤ width
  deriving DecidableEq, Repr

namespace Block

def contains (b : Block width) (a : BitVec width) : Bool :=
  leading b.prefixLen a == leading b.prefixLen b.addr

/-- The host bits below the prefix are zero. -/
def Aligned (b : Block width) : Prop :=
  b.addr.toNat = leading b.prefixLen b.addr * 2 ^ (width - b.prefixLen)

def Disjoint (b c : Block width) : Prop := ∀ a, ¬ (b.contains a = true ∧ c.contains a = true)

theorem contains_iff (b : Block width) (a : BitVec width) :
    b.contains a = true ↔ leading b.prefixLen a = leading b.prefixLen b.addr := by
  simp [contains]

/-- The block of prefix `q` whose leading bits spell `n`. -/
def ofLeading (n q : Nat) (bound : q ≤ width) : Block width :=
  ⟨BitVec.ofNat width (n * 2 ^ (width - q)), q, bound⟩

theorem ofLeading_toNat {n q : Nat} (small : n < 2 ^ q) (bound : q ≤ width) :
    (ofLeading n q bound).addr.toNat = n * 2 ^ (width - q) := by
  have fits : n * 2 ^ (width - q) < 2 ^ width := by
    calc
      n * 2 ^ (width - q) < 2 ^ q * 2 ^ (width - q) :=
        Nat.mul_lt_mul_of_pos_right small (Nat.two_pow_pos _)
      _ = 2 ^ width := by rw [← Nat.pow_add, Nat.add_sub_cancel' bound]
  simp [ofLeading, Nat.mod_eq_of_lt fits]

theorem leading_ofLeading {n q : Nat} (small : n < 2 ^ q) (bound : q ≤ width) :
    leading q (ofLeading n q bound).addr = n := by
  rw [leading, ofLeading_toNat small bound, Nat.mul_div_cancel _ (Nat.two_pow_pos _)]

theorem ofLeading_aligned {n q : Nat} (small : n < 2 ^ q) (bound : q ≤ width) :
    (ofLeading n q bound).Aligned := by
  show (ofLeading n q bound).addr.toNat = leading q (ofLeading n q bound).addr * 2 ^ (width - q)
  rw [leading_ofLeading small bound, ofLeading_toNat small bound]

/-- The sub-blocks of prefix `q`, in increasing order. -/
def subnets (b : Block width) (q : Nat) (bound : q ≤ width) : List (Block width) :=
  (List.range (2 ^ (q - b.prefixLen))).map fun i =>
    ofLeading (leading b.prefixLen b.addr * 2 ^ (q - b.prefixLen) + i) q bound

section Partition
variable {b : Block width} {q : Nat} (bound : q ≤ width)

@[simp] theorem subnets_length : (b.subnets q bound).length = 2 ^ (q - b.prefixLen) := by
  simp [subnets]

private theorem subnet_number_lt (longer : b.prefixLen ≤ q) {i : Nat}
    (inside : i < 2 ^ (q - b.prefixLen)) :
    leading b.prefixLen b.addr * 2 ^ (q - b.prefixLen) + i < 2 ^ q := by
  have top := leading_lt b.addr b.bounded
  calc
    leading b.prefixLen b.addr * 2 ^ (q - b.prefixLen) + i
      < leading b.prefixLen b.addr * 2 ^ (q - b.prefixLen) + 2 ^ (q - b.prefixLen) := by omega
    _ = (leading b.prefixLen b.addr + 1) * 2 ^ (q - b.prefixLen) := by
      rw [Nat.add_mul, Nat.one_mul]
    _ ≤ 2 ^ b.prefixLen * 2 ^ (q - b.prefixLen) := Nat.mul_le_mul_right _ top
    _ = 2 ^ q := by rw [← Nat.pow_add, Nat.add_sub_cancel' longer]

theorem mem_subnets (z : Block width) : z ∈ b.subnets q bound ↔
    ∃ i < 2 ^ (q - b.prefixLen),
      z = ofLeading (leading b.prefixLen b.addr * 2 ^ (q - b.prefixLen) + i) q bound := by
  simp only [subnets, List.mem_map, List.mem_range]
  exact exists_congr fun i => and_congr_right fun _ => eq_comm

theorem subnets_prefixLen {z : Block width} (member : z ∈ b.subnets q bound) :
    z.prefixLen = q := by
  simp only [subnets, List.mem_map] at member
  obtain ⟨i, _, rfl⟩ := member
  rfl

theorem subnets_aligned (longer : b.prefixLen ≤ q) {z : Block width}
    (member : z ∈ b.subnets q bound) : z.Aligned := by
  obtain ⟨i, inside, rfl⟩ := (mem_subnets bound z).mp member
  exact ofLeading_aligned (subnet_number_lt longer inside) bound

/-- A block contains an address exactly when one of its sub-blocks does. -/
theorem contains_iff_subnets (a : BitVec width) (longer : b.prefixLen ≤ q) :
    b.contains a = true ↔ ∃ z ∈ b.subnets q bound, z.contains a = true := by
  rw [contains_iff, leading_of_longer a longer bound]
  constructor
  · intro same
    let i := leading q a % 2 ^ (q - b.prefixLen)
    have inside : i < 2 ^ (q - b.prefixLen) := Nat.mod_lt _ (Nat.two_pow_pos _)
    refine ⟨_, (mem_subnets bound _).mpr ⟨i, inside, rfl⟩, ?_⟩
    rw [contains_iff]
    show leading q a = leading q (ofLeading _ q bound).addr
    rw [leading_ofLeading (subnet_number_lt longer inside) bound, ← same, Nat.mul_comm,
      Nat.div_add_mod]
  · intro found
    obtain ⟨z, member, within⟩ := found
    obtain ⟨i, inside, rfl⟩ := (mem_subnets bound z).mp member
    rw [contains_iff] at within
    change leading q a = leading q (ofLeading _ q bound).addr at within
    rw [leading_ofLeading (subnet_number_lt longer inside) bound] at within
    rw [within, Nat.mul_comm, Nat.mul_add_div (Nat.two_pow_pos _), Nat.div_eq_of_lt inside,
      Nat.add_zero]

/-- Two aligned blocks of one prefix that share an address are equal. -/
theorem eq_of_shared {y z : Block width} (alignedY : y.Aligned) (alignedZ : z.Aligned)
    (samePrefix : y.prefixLen = z.prefixLen) {a : BitVec width}
    (inY : y.contains a = true) (inZ : z.contains a = true) : y = z := by
  rw [contains_iff] at inY inZ
  obtain ⟨addrY, p, boundedY⟩ := y
  obtain ⟨addrZ, p', boundedZ⟩ := z
  obtain rfl : p = p' := samePrefix
  have address : addrY = addrZ := by
    apply BitVec.eq_of_toNat_eq
    simp only [Aligned] at alignedY alignedZ
    rw [alignedY, alignedZ, ← inY, ← inZ]
  subst address
  rfl

theorem subnets_pairwise_disjoint (longer : b.prefixLen ≤ q) :
    (b.subnets q bound).Pairwise Disjoint := by
  rw [subnets, List.pairwise_map]
  refine List.Pairwise.imp_of_mem ?_ List.pairwise_lt_range
  intro i j memberI memberJ less a shared
  have insideI := List.mem_range.mp memberI
  have insideJ := List.mem_range.mp memberJ
  have left := (contains_iff _ _).mp shared.1
  have right := (contains_iff _ _).mp shared.2
  change leading q a = leading q (ofLeading _ q bound).addr at left right
  rw [leading_ofLeading (subnet_number_lt longer insideI) bound] at left
  rw [leading_ofLeading (subnet_number_lt longer insideJ) bound] at right
  omega

end Partition
end Block
end DockerDns.Library
