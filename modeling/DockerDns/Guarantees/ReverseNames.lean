import DockerDns.Library.Spelling
import DockerDns.Source.Subnets

/-!
# Reverse names and reverse zone names

Both kinds of name spell leading digits of an address, octets in decimal or
nibbles in hexadecimal, under the top-level name of the family. A zone name is
always defined, and it is a suffix of the reverse name of an address exactly
when the block contains the address.
-/
namespace DockerDns.Guarantees
open Library Source

/-- `Name::zone_of`: the name ends with the labels of the zone, ignoring case. -/
def ZoneOf (zone name : Name) : Prop := zone.toLowercase.labels <:+ name.toLowercase.labels

instance (zone name : Name) : Decidable (ZoneOf zone name) :=
  inferInstanceAs (Decidable (_ <:+ _))

section Labels

private theorem toLower_plain (c : Char) (plain : c.isDigit ∨ c.isLower ∨ c = '-') :
    c.toLower = c := by
  unfold Char.toLower
  rcases plain with digit | lower | rfl
  · grind [Char.isDigit]
  · delta Char.isLower at lower
    grind
  · rfl

theorem plain_toLowercase {label : Label} (plain : label.Plain) : label.toLowercase = label := by
  calc
    label.map Char.toLower = label.map id :=
      List.map_congr_left fun c member => toLower_plain c (plain.2.2 c member)
    _ = label := List.map_id label

theorem toLowercase_labels {labels : List Label} (plain : ∀ label ∈ labels, label.Plain) :
    labels.map Label.toLowercase = labels := by
  calc
    labels.map Label.toLowercase = labels.map id :=
      List.map_congr_left fun label member => plain_toLowercase (plain label member)
    _ = labels := List.map_id labels

theorem decimal_faithful (k : Nat) : Faithful k (Nat.toDigits 10) := by
  intro c d _ _ same
  have value := congrArg (Nat.ofDigitChars 10 · 0) same
  simpa only [Nat.ofDigitChars_ten_toDigits] using value

theorem hexadecimal_faithful : Faithful 4 (Nat.toDigits 16) := by
  have all : ∀ c < 2 ^ 4, ∀ d < 2 ^ 4, Nat.toDigits 16 c = Nat.toDigits 16 d → c = d := by decide
  exact fun c d smallC smallD => all c smallC d smallD

theorem decimal_plain {d : Nat} (small : d < 2 ^ 8) :
    Label.Plain (Nat.toDigits 10 d) ∧ (Nat.toDigits 10 d).length ≤ 3 := by
  have short : (Nat.toDigits 10 d).length ≤ 3 :=
    (Nat.length_toDigits_le_iff (by omega) (by omega)).mpr (by omega)
  refine ⟨⟨Nat.toDigits_ne_nil, by omega, fun c member => .inl ?_⟩, short⟩
  exact Nat.isDigit_of_mem_toDigits (by omega) (by omega) member

theorem hexadecimal_plain {d : Nat} (small : d < 2 ^ 4) :
    Label.Plain (Nat.toDigits 16 d) ∧ (Nat.toDigits 16 d).length ≤ 3 := by
  have chars : ∀ d < 2 ^ 4, (Nat.digitChar d).isDigit ∨ (Nat.digitChar d).isLower := by decide
  have single : Nat.toDigits 16 d = [Nat.digitChar d] := Nat.toDigits_of_lt_base (by omega)
  rw [single]
  refine ⟨⟨by simp, by simp, fun c member => ?_⟩, by simp⟩
  rw [List.mem_singleton.mp member]
  exact (chars d small).imp_right .inl

theorem inAddrArpa_plain : ∀ label ∈ inAddrArpa, Label.Plain label := by
  intro label member
  rcases List.mem_cons.mp member with rfl | last
  · exact ⟨by simp, by simp, by simp⟩
  · rw [List.mem_singleton.mp last]
    exact ⟨by simp, by simp, by simp⟩

theorem ip6Arpa_plain : ∀ label ∈ ip6Arpa, Label.Plain label := by
  intro label member
  rcases List.mem_cons.mp member with rfl | last
  · exact ⟨by simp, by simp, by simp⟩
  · rw [List.mem_singleton.mp last]
    exact ⟨by simp, by simp, by simp⟩

end Labels

/-- The zone name of a block: the digits its prefix covers, under its family's name. -/
def standardZoneName : IpNet → Name
  | .v4 net => ⟨spelled 8 (Nat.toDigits 10) (net.prefixLen / 8) net.addr ++ inAddrArpa, true⟩
  | .v6 net => ⟨spelled 4 (Nat.toDigits 16) (net.prefixLen / 4) net.addr ++ ip6Arpa, true⟩

section Digits

theorem octets_eq (addr : Ipv4Addr) : octets addr = (List.range 4).map fun i => digit 8 i addr := by
  unfold octets digit leading
  apply List.map_congr_left
  intro i member
  have inside := List.mem_range.mp member
  rw [Nat.shiftRight_eq_div_pow]
  congr 3
  omega

private theorem octet6_eq (addr : Ipv6Addr) {i : Nat} (inside : i < 16) :
    addr.toNat >>> (120 - 8 * i) % 256 / 16 = digit 4 (2 * i) addr ∧
      addr.toNat >>> (120 - 8 * i) % 256 % 16 = digit 4 (2 * i + 1) addr := by
  unfold digit leading
  rw [Nat.shiftRight_eq_div_pow]
  constructor
  · rw [show 128 - 4 * (2 * i + 1) = (120 - 8 * i) + 4 by omega, Nat.pow_add,
      ← Nat.div_div_eq_div_mul]
    omega
  · rw [show 128 - 4 * (2 * i + 1 + 1) = 120 - 8 * i by omega]
    omega

private theorem range_pairs {β : Type} (f : Nat → β) (n : Nat) :
    (List.range n).flatMap (fun i => [f (2 * i), f (2 * i + 1)]) = (List.range (2 * n)).map f := by
  induction n with
  | zero => rfl
  | succ n ih =>
    rw [List.range_succ, List.flatMap_append, ih, Nat.mul_succ, List.range_succ, List.range_succ]
    simp

theorem nibbles_eq (addr : Ipv6Addr) :
    ((octets6 addr).flatMap fun octet => [octet / 16, octet % 16]) =
      (List.range 32).map fun i => digit 4 i addr := by
  rw [← range_pairs _ 16, octets6, List.flatMap_map]
  apply List.flatMap_congr
  intro i member
  have both := octet6_eq addr (List.mem_range.mp member)
  rw [both.1, both.2]

theorem nibble_eq (addr : Ipv6Addr) {i : Nat} (inside : i < 32) :
    nibble (octets6 addr) i = digit 4 i addr := by
  have found : (octets6 addr).getD (i / 2) 0 = addr.toNat >>> (120 - 8 * (i / 2)) % 256 := by
    rw [List.getD_eq_getElem?_getD, octets6, List.getElem?_map, List.getElem?_range (by omega)]
    rfl
  have both := octet6_eq addr (i := i / 2) (by omega)
  unfold nibble
  rw [found]
  split
  next even =>
    rw [Nat.shiftRight_eq_div_pow, show (2 : Nat) ^ 4 = 16 from rfl, both.1]
    congr 1
    omega
  next odd =>
    rw [show (0x0f : Nat) = 2 ^ 4 - 1 from rfl, Nat.and_two_pow_sub_one_eq_mod,
      show (2 : Nat) ^ 4 = 16 from rfl, both.2]
    congr 1
    omega

theorem standardReverseName_v4 (addr : Ipv4Addr) : standardReverseName (.v4 addr) =
    ⟨spelled 8 (Nat.toDigits 10) 4 addr ++ inAddrArpa, true⟩ := by
  rw [standardReverseName, octets_eq, spelled, List.map_reverse, List.map_map]
  rfl

theorem standardReverseName_v6 (addr : Ipv6Addr) : standardReverseName (.v6 addr) =
    ⟨spelled 4 (Nat.toDigits 16) 32 addr ++ ip6Arpa, true⟩ := by
  rw [standardReverseName, nibbles_eq, spelled, List.map_reverse, List.map_map]
  rfl

end Digits

section ZoneNames
variable {hk : Hickory}

private theorem spelled_plain {width k : Nat} {spell : Nat → Label}
    (digits : ∀ {d}, d < 2 ^ k → (spell d).Plain ∧ (spell d).length ≤ 3) (j : Nat)
    (addr : BitVec width) :
    ∀ label ∈ spelled k spell j addr, label.Plain ∧ label.length ≤ 3 := by
  intro label member
  obtain ⟨d, small, rfl⟩ := mem_spelled member
  exact digits small

private theorem encodedLength_le {labels tail : List Label}
    (short : ∀ label ∈ labels, label.length ≤ 3) :
    Name.encodedLength ⟨labels ++ tail, true⟩ ≤
      4 * labels.length + Name.encodedLength ⟨tail, true⟩ := by
  induction labels with
  | nil => simp
  | cons label rest ih =>
    have first := short label List.mem_cons_self
    have others := ih fun label member => short label (List.mem_cons_of_mem _ member)
    simp only [Name.encodedLength, List.cons_append, List.map_cons, List.sum_cons,
      List.length_cons] at others ⊢
    omega

private theorem zoneLabels_eq {labels tail : List Label} {n : Nat} (laws : hk.NameLaws)
    (numerals : ∀ label ∈ labels, label.Numeral) (short : ∀ label ∈ labels, label.length ≤ 3)
    (few : labels.length ≤ n) (fits : 4 * n + Name.encodedLength ⟨tail, true⟩ ≤ 255) :
    (hk.fromLabels labels).bind (fun name => hk.appendDomain name ⟨tail, false⟩) =
      some ⟨labels ++ tail, true⟩ := by
  have whole : Name.encodedLength ⟨labels ++ tail, true⟩ ≤ _ := encodedLength_le short
  have part : Name.encodedLength ⟨labels ++ [], true⟩ ≤ _ := encodedLength_le short
  have root : Name.encodedLength ⟨[], true⟩ ≤ Name.encodedLength ⟨tail, true⟩ :=
    Nat.succ_le_succ (Nat.zero_le _)
  rw [List.append_nil] at part
  rw [laws.fromLabels labels numerals (by omega)]
  have small : Name.encodedLength ⟨labels ++ tail, true⟩ ≤ 255 := by omega
  exact laws.appendDomain ⟨labels, true⟩ ⟨tail, false⟩ small

/-- Every block has a zone name, whatever its prefix length. -/
theorem zoneName_eq (laws : hk.NameLaws) (net : IpNet) :
    zoneName hk net = some (standardZoneName net) := by
  cases net with
  | v4 net =>
    have bounded := net.bounded
    have labels : ((octets net.addr).take (net.prefixLen / 8)).reverse.map (Nat.toDigits 10) =
        spelled 8 (Nat.toDigits 10) (net.prefixLen / 8) net.addr := by
      rw [octets_eq, ← List.map_take, List.take_range, Nat.min_eq_left (by omega), spelled,
        List.map_reverse, List.map_map]
      rfl
    simp only [zoneName, laws.inAddrArpa, Option.bind_eq_bind, Option.bind_some, labels]
    refine zoneLabels_eq (n := 4) laws (fun label member => ?_)
      (fun label member => (spelled_plain decimal_plain _ _ label member).2)
      (by rw [spelled_length]; omega) (by decide)
    exact .inl (mem_spelled member)
  | v6 net =>
    have bounded := net.bounded
    have labels : ((List.range (net.prefixLen / 4)).reverse.map fun i =>
          Nat.toDigits 16 (nibble (octets6 net.addr) i)) =
        spelled 4 (Nat.toDigits 16) (net.prefixLen / 4) net.addr := by
      rw [spelled, List.map_reverse]
      apply congrArg List.reverse
      apply List.map_congr_left
      intro i member
      rw [nibble_eq net.addr (by have := List.mem_range.mp member; omega)]
    simp only [zoneName, laws.ip6Arpa, Option.bind_eq_bind, Option.bind_some, labels]
    refine zoneLabels_eq (n := 32) laws (fun label member => ?_)
      (fun label member => (spelled_plain hexadecimal_plain _ _ label member).2)
      (by rw [spelled_length]; omega) (by decide)
    exact .inr (mem_spelled member)

private theorem append_plain {labels tail : List Label}
    (plain : ∀ label ∈ labels, label.Plain ∧ label.length ≤ 3)
    (plainTail : ∀ label ∈ tail, label.Plain) : ∀ label ∈ labels ++ tail, label.Plain := by
  intro label member
  rcases List.mem_append.mp member with front | back
  · exact (plain label front).1
  · exact plainTail label back

theorem standardZoneName_lower (net : IpNet) :
    (standardZoneName net).toLowercase = standardZoneName net := by
  cases net with
  | v4 net =>
    exact congrArg (Name.mk · true)
      (toLowercase_labels (append_plain (spelled_plain decimal_plain _ _) inAddrArpa_plain))
  | v6 net =>
    exact congrArg (Name.mk · true)
      (toLowercase_labels (append_plain (spelled_plain hexadecimal_plain _ _) ip6Arpa_plain))

theorem standardReverseName_lower (ip : IpAddr) :
    (standardReverseName ip).toLowercase = standardReverseName ip := by
  cases ip with
  | v4 addr =>
    rw [standardReverseName_v4]
    exact congrArg (Name.mk · true)
      (toLowercase_labels (append_plain (spelled_plain decimal_plain _ _) inAddrArpa_plain))
  | v6 addr =>
    rw [standardReverseName_v6]
    exact congrArg (Name.mk · true)
      (toLowercase_labels (append_plain (spelled_plain hexadecimal_plain _ _) ip6Arpa_plain))

/-- The prefix length is a whole number of octets or nibbles. -/
def OnBoundary : IpNet → Prop
  | .v4 net => 8 ∣ net.prefixLen
  | .v6 net => 4 ∣ net.prefixLen

/-- The name of a block on a boundary is a suffix of the reverse names of its
addresses and of no other. -/
theorem zoneOf_iff_contains {net : IpNet} (boundary : OnBoundary net) (ip : IpAddr) :
    ZoneOf (standardZoneName net) (standardReverseName ip) ↔ net.contains ip = true := by
  unfold ZoneOf
  rw [standardZoneName_lower, standardReverseName_lower]
  have families : inAddrArpa ≠ ip6Arpa := by decide
  have lengths : inAddrArpa.length = ip6Arpa.length := rfl
  cases net with
  | v4 net =>
    cases ip with
    | v4 addr =>
      have bounded := net.bounded
      have digits : 8 * (net.prefixLen / 8) = net.prefixLen := Nat.mul_div_cancel' boundary
      rw [standardReverseName_v4, standardZoneName, List.suffix_append_self_iff,
        spelled_suffix_iff (decimal_faithful 8) (by omega) (by omega), digits]
      exact (Block.contains_iff net addr).symm
    | v6 addr =>
      rw [standardReverseName_v6, standardZoneName, List.suffix_append_inj_of_length_eq lengths]
      exact iff_of_false (fun both => families both.2) Bool.false_ne_true
  | v6 net =>
    cases ip with
    | v4 addr =>
      rw [standardReverseName_v4, standardZoneName, List.suffix_append_inj_of_length_eq lengths.symm]
      exact iff_of_false (fun both => families both.2.symm) Bool.false_ne_true
    | v6 addr =>
      have bounded := net.bounded
      have digits : 4 * (net.prefixLen / 4) = net.prefixLen := Nat.mul_div_cancel' boundary
      rw [standardReverseName_v6, standardZoneName, List.suffix_append_self_iff,
        spelled_suffix_iff hexadecimal_faithful (by omega) (by omega), digits]
      exact (Block.contains_iff net addr).symm

/-- A block `parse_subnet` can emit: no host bits, a boundary prefix, not the
whole address space. -/
structure IsZone (net : IpNet) : Prop where
  aligned : net.Aligned
  boundary : OnBoundary net
  positive : 0 < net.prefixLen

private theorem block_eq_of_spelled {width k : Nat} {spell : Nat → Label}
    (faithful : Faithful k spell) {y z : Block width} (alignedY : y.Aligned)
    (alignedZ : z.Aligned) (boundaryY : k ∣ y.prefixLen) (boundaryZ : k ∣ z.prefixLen)
    (same : spelled k spell (y.prefixLen / k) y.addr = spelled k spell (z.prefixLen / k) z.addr) :
    y = z := by
  have lengths : y.prefixLen / k = z.prefixLen / k := by
    simpa only [spelled_length] using congrArg List.length same
  have prefixes : y.prefixLen = z.prefixLen := (Nat.div_left_inj boundaryY boundaryZ).mp lengths
  have digits : k * (z.prefixLen / k) = z.prefixLen := Nat.mul_div_cancel' boundaryZ
  have suffix : spelled k spell (z.prefixLen / k) z.addr <:+
      spelled k spell (z.prefixLen / k) y.addr := by
    have equal : spelled k spell (z.prefixLen / k) z.addr = spelled k spell (z.prefixLen / k) y.addr := by
      rw [← same, lengths]
    simp only [equal, List.suffix_refl]
  have agree := (spelled_suffix_iff faithful (Nat.le_refl _)
    (by rw [digits]; exact z.bounded) y.addr z.addr).mp suffix
  rw [digits] at agree
  exact Block.eq_of_shared alignedY alignedZ prefixes ((Block.contains_iff y y.addr).mpr rfl)
    ((Block.contains_iff z y.addr).mpr agree)

/-- Two zones of one name are one block. -/
theorem standardZoneName_inj {y z : IpNet} (isZoneY : IsZone y) (isZoneZ : IsZone z)
    (same : LowerName.new (standardZoneName y) = LowerName.new (standardZoneName z)) : y = z := by
  rw [LowerName.new_eq_iff, standardZoneName_lower, standardZoneName_lower] at same
  have labels := congrArg Name.labels same
  have families : inAddrArpa ≠ ip6Arpa := by decide
  cases y with
  | v4 y =>
    cases z with
    | v4 z =>
      exact congrArg IpNet.v4 (block_eq_of_spelled (decimal_faithful 8) isZoneY.aligned
        isZoneZ.aligned isZoneY.boundary isZoneZ.boundary (List.append_cancel_right labels))
    | v6 z => exact absurd (List.append_inj_right' labels rfl) families
  | v6 y =>
    cases z with
    | v4 z => exact absurd (List.append_inj_right' labels rfl) families.symm
    | v6 z =>
      exact congrArg IpNet.v6 (block_eq_of_spelled hexadecimal_faithful isZoneY.aligned
        isZoneZ.aligned isZoneY.boundary isZoneZ.boundary (List.append_cancel_right labels))

/-- An address is determined by its reverse name. -/
theorem standardReverseName_inj {ip ip' : IpAddr}
    (same : LowerName.new (standardReverseName ip) = LowerName.new (standardReverseName ip')) :
    ip = ip' := by
  rw [LowerName.new_eq_iff, standardReverseName_lower, standardReverseName_lower] at same
  have families : inAddrArpa ≠ ip6Arpa := by decide
  cases ip with
  | v4 addr =>
    rw [standardReverseName_v4] at same
    cases ip' with
    | v4 addr' =>
      rw [standardReverseName_v4] at same
      exact congrArg IpAddr.v4 (spelled_inj (decimal_faithful 8) (by decide : 8 * 4 = 32)
        (List.append_cancel_right (congrArg Name.labels same)))
    | v6 addr' =>
      rw [standardReverseName_v6] at same
      exact absurd (List.append_inj_right' (congrArg Name.labels same) rfl) families
  | v6 addr =>
    rw [standardReverseName_v6] at same
    cases ip' with
    | v4 addr' =>
      rw [standardReverseName_v4] at same
      exact absurd (List.append_inj_right' (congrArg Name.labels same) rfl) families.symm
    | v6 addr' =>
      rw [standardReverseName_v6] at same
      exact congrArg IpAddr.v6 (spelled_inj hexadecimal_faithful (by decide : 4 * 32 = 128)
        (List.append_cancel_right (congrArg Name.labels same)))

end ZoneNames
end DockerDns.Guarantees
