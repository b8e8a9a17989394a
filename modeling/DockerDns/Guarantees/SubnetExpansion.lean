import DockerDns.Guarantees.ReverseNames
import DockerDns.Source.Reference

/-!
# Subnet expansion is an exact, correctly named partition

`parse_subnet` rounds the prefix length up to the next boundary of the family
and lists the sub-blocks of that length, each with the zone name of its block.
-/
namespace DockerDns.Guarantees
open Library Source

/-- `b` is `n` rounded up to a multiple of `unit`. -/
structure RoundedUp (unit n b : Nat) : Prop where
  divides : unit ∣ b
  above : n ≤ b
  least : ∀ c, unit ∣ c → n ≤ c → b ≤ c

theorem boundary_roundedUp {unit : Nat} (positive : 0 < unit) (prefixLen : Nat) :
    RoundedUp unit (max prefixLen 1) (boundary unit prefixLen) := by
  unfold boundary
  generalize max prefixLen 1 = n
  constructor
  · exact Nat.dvd_mul_left _ _
  · have next := Nat.lt_div_mul_add (a := n + (unit - 1)) positive
    omega
  · intro c divides above
    obtain ⟨k, rfl⟩ := divides
    have quotient : (n + (unit - 1)) / unit < k + 1 := by
      rw [Nat.div_lt_iff_lt_mul positive, Nat.add_mul, Nat.one_mul, Nat.mul_comm k]
      omega
    rw [Nat.mul_comm unit]
    exact Nat.mul_le_mul_right unit (Nat.le_of_lt_succ quotient)

/-- The boundary unit of a family. -/
def boundaryUnit : IpNet → Nat
  | .v4 _ => octetBoundary
  | .v6 _ => nibbleBoundary

theorem boundaryUnit_pos (net : IpNet) : 0 < boundaryUnit net := by
  cases net with
  | v4 => exact (by decide : 0 < octetBoundary)
  | v6 => exact (by decide : 0 < nibbleBoundary)

def blockPrefix (net : IpNet) : Nat := boundary (boundaryUnit net) net.prefixLen

theorem blockPrefix_roundedUp (net : IpNet) :
    RoundedUp (boundaryUnit net) (max net.prefixLen 1) (blockPrefix net) :=
  boundary_roundedUp (boundaryUnit_pos net) net.prefixLen

theorem octet_boundary_le (net : Block 32) : boundary octetBoundary net.prefixLen ≤ 32 := by
  have bounded := net.bounded
  apply (boundary_roundedUp (by decide) net.prefixLen).least
  · decide
  · omega

theorem nibble_boundary_le (net : Block 128) : boundary nibbleBoundary net.prefixLen ≤ 128 := by
  have bounded := net.bounded
  apply (boundary_roundedUp (by decide) net.prefixLen).least
  · decide
  · omega

theorem prefixLen_le_boundary {unit : Nat} (positive : 0 < unit) (prefixLen : Nat) :
    prefixLen ≤ boundary unit prefixLen :=
  Nat.le_trans (Nat.le_max_left _ 1) (boundary_roundedUp positive prefixLen).above

/-- The blocks a subnet expands to. -/
def blocks : IpNet → List IpNet
  | .v4 net => (net.subnets (boundary octetBoundary net.prefixLen) (octet_boundary_le net)).map .v4
  | .v6 net => (net.subnets (boundary nibbleBoundary net.prefixLen) (nibble_boundary_le net)).map .v6

/-- The expansion skips no block. -/
theorem parseSubnet_eq {hk : Hickory} {ipnet : Ipnet} (names : hk.NameLaws) (laws : ipnet.Laws)
    (net : IpNet) :
    parseSubnet hk ipnet net = (blocks net).map fun block => (block, standardZoneName block) := by
  have named : ∀ nets : List IpNet,
      (nets.filterMap fun n => (zoneName hk n).map fun name => (n, name)) =
        nets.map fun block => (block, standardZoneName block) := by
    intro nets
    simp only [zoneName_eq names, Option.map_some]
    exact congrFun List.filterMap_eq_map' nets
  cases net with
  | v4 net =>
    simp only [parseSubnet, named, blocks, parseSubnetIpv4]
    rw [laws.subnetsV4 net _ (octet_boundary_le net)
      (prefixLen_le_boundary (by decide) net.prefixLen), Option.getD_some]
  | v6 net =>
    simp only [parseSubnet, named, blocks, parseSubnetIpv6]
    rw [laws.subnetsV6 net _ (nibble_boundary_le net)
      (prefixLen_le_boundary (by decide) net.prefixLen), Option.getD_some]

/-- A network of prefix length `b` in the family of `net`, with zero host bits. -/
structure IsBlock (net : IpNet) (b : Nat) (block : IpNet) : Prop where
  family : boundaryUnit block = boundaryUnit net
  prefixLen : block.prefixLen = b
  aligned : block.Aligned

section Blocks
variable {net block : IpNet}

@[simp] theorem blocks_length : (blocks net).length = 2 ^ (blockPrefix net - net.prefixLen) := by
  cases net <;> simp [blocks, blockPrefix, boundaryUnit, IpNet.prefixLen]

theorem isBlock_of_mem (member : block ∈ blocks net) : IsBlock net (blockPrefix net) block := by
  cases net with
  | v4 net =>
    obtain ⟨z, inside, rfl⟩ := List.mem_map.mp member
    exact ⟨rfl, Block.subnets_prefixLen _ inside,
      Block.subnets_aligned _ (prefixLen_le_boundary (by decide) net.prefixLen) inside⟩
  | v6 net =>
    obtain ⟨z, inside, rfl⟩ := List.mem_map.mp member
    exact ⟨rfl, Block.subnets_prefixLen _ inside,
      Block.subnets_aligned _ (prefixLen_le_boundary (by decide) net.prefixLen) inside⟩

theorem onBoundary_of_mem (member : block ∈ blocks net) : OnBoundary block := by
  have isBlock := isBlock_of_mem member
  have divides := (blockPrefix_roundedUp net).divides
  rw [← isBlock.family, ← isBlock.prefixLen] at divides
  cases block <;> exact divides

theorem isZone_of_mem (member : block ∈ blocks net) : IsZone block := by
  have isBlock := isBlock_of_mem member
  have above := (blockPrefix_roundedUp net).above
  refine ⟨isBlock.aligned, onBoundary_of_mem member, ?_⟩
  rw [isBlock.prefixLen]
  omega

theorem blocks_disjoint (net : IpNet) : (blocks net).Pairwise IpNet.Disjoint := by
  cases net with
  | v4 net =>
    have apart := Block.subnets_pairwise_disjoint (octet_boundary_le net)
      (prefixLen_le_boundary (by decide) net.prefixLen)
    apply List.pairwise_map.mpr
    apply apart.imp
    intro y z disjoint ip both
    cases ip with
    | v4 addr => exact disjoint addr both
    | v6 addr => exact Bool.false_ne_true both.1
  | v6 net =>
    have apart := Block.subnets_pairwise_disjoint (nibble_boundary_le net)
      (prefixLen_le_boundary (by decide) net.prefixLen)
    apply List.pairwise_map.mpr
    apply apart.imp
    intro y z disjoint ip both
    cases ip with
    | v4 addr => exact Bool.false_ne_true both.1
    | v6 addr => exact disjoint addr both

theorem contains_iff_blocks (net : IpNet) (ip : IpAddr) :
    net.contains ip = true ↔ ∃ block ∈ blocks net, block.contains ip = true := by
  cases net with
  | v4 net =>
    simp only [blocks, List.mem_map, exists_exists_and_eq_and]
    cases ip with
    | v4 addr =>
      exact Block.contains_iff_subnets (octet_boundary_le net) addr
        (prefixLen_le_boundary (by decide) net.prefixLen)
    | v6 addr => simp [IpNet.contains]
  | v6 net =>
    simp only [blocks, List.mem_map, exists_exists_and_eq_and]
    cases ip with
    | v4 addr => simp [IpNet.contains]
    | v6 addr =>
      exact Block.contains_iff_subnets (nibble_boundary_le net) addr
        (prefixLen_le_boundary (by decide) net.prefixLen)

end Blocks

/-- The pairs partition the subnet into blocks of prefix length `b`, and each
name is the zone of the addresses of its block. -/
structure ExactPartition (hk : Hickory) (net : IpNet) (b : Nat) (pairs : List (IpNet × Name)) :
    Prop where
  rounded : RoundedUp (boundaryUnit net) (max net.prefixLen 1) b
  count : pairs.length = 2 ^ (b - net.prefixLen)
  blocks : ∀ pair ∈ pairs, IsBlock net b pair.1
  disjoint : (pairs.map Prod.fst).Pairwise IpNet.Disjoint
  covers : ∀ ip, net.contains ip = true ↔ ∃ pair ∈ pairs, pair.1.contains ip = true
  named : ∀ pair ∈ pairs, ∀ ip, pair.1.contains ip = true ↔ ZoneOf pair.2 (hk.nameOfIp ip)
  answers : ∀ ip, pairs.countP (fun pair => ZoneOf pair.2 (hk.nameOfIp ip)) =
    if net.contains ip then 1 else 0

private theorem countP_exclusive {α : Type} {p : α → Bool} {l : List α}
    (exclusive : l.Pairwise fun a b => ¬ (p a = true ∧ p b = true)) :
    l.countP p = if ∃ a ∈ l, p a = true then 1 else 0 := by
  induction l with
  | nil => simp
  | cons a rest ih =>
    rw [List.pairwise_cons] at exclusive
    rw [List.countP_cons, ih exclusive.2]
    by_cases first : p a = true
    · have others : ¬ ∃ b ∈ rest, p b = true := fun ⟨b, member, second⟩ =>
        exclusive.1 b member ⟨first, second⟩
      simp [first, others]
    · simp [first]

/-- Every subnet is partitioned exactly, and its zones are named correctly. -/
theorem parse_subnet_partition {hk : Hickory} {ipnet : Ipnet} (names : hk.NameLaws)
    (laws : ipnet.Laws) (net : IpNet) :
    ∃ b, ExactPartition hk net b (parseSubnet hk ipnet net) := by
  have nameOf : ∀ block ∈ blocks net, ∀ ip, block.contains ip = true ↔
      ZoneOf (standardZoneName block) (hk.nameOfIp ip) := by
    intro block member ip
    rw [names.nameOfIp]
    exact (zoneOf_iff_contains (onBoundary_of_mem member) ip).symm
  refine ⟨blockPrefix net, ?_⟩
  rw [parseSubnet_eq names laws]
  constructor
  · exact blockPrefix_roundedUp net
  · rw [List.length_map, blocks_length]
  · intro pair member
    obtain ⟨block, inside, rfl⟩ := List.mem_map.mp member
    exact isBlock_of_mem inside
  · have firsts : ((blocks net).map fun block => (block, standardZoneName block)).map Prod.fst =
        blocks net := by
      rw [List.map_map]
      exact List.map_id (blocks net)
    rw [firsts]
    exact blocks_disjoint net
  · intro ip
    simp only [contains_iff_blocks net ip, List.mem_map, exists_exists_and_eq_and]
  · intro pair member ip
    obtain ⟨block, inside, rfl⟩ := List.mem_map.mp member
    exact nameOf block inside ip
  · intro ip
    have same : (blocks net).countP
          (fun block => decide (ZoneOf (standardZoneName block) (hk.nameOfIp ip))) =
        (blocks net).countP fun block => block.contains ip := by
      apply List.countP_congr
      intro block inside
      rw [decide_eq_true_iff, nameOf block inside ip]
    rw [List.countP_map]
    refine same.trans ((countP_exclusive ?_).trans ?_)
    · exact (blocks_disjoint net).imp fun disjoint both => disjoint ip both
    · simp only [← contains_iff_blocks net ip]

section Runs
open Reference

/-- A subnet with host bits and a prefix length between two boundaries. -/
theorem parse_subnet_partition_unaligned : ∃ b, ExactPartition hickory
    (.v4 ⟨0xac10427b#32, 18, by decide⟩) b
    (parseSubnet hickory ipnet (.v4 ⟨0xac10427b#32, 18, by decide⟩)) :=
  parse_subnet_partition hickory_nameLaws ipnet_laws _

end Runs
end DockerDns.Guarantees
