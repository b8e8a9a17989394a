import DockerDns.Guarantees.RecordTexts
import DockerDns.Guarantees.StaticRecords
import DockerDns.Library.Traversals

/-!
# From the configured texts to the answers

A text is taken exactly when every piece between its commas is a record text,
and then the handler answers just what the pieces say. Every record whose name
can be written can be configured.
-/
namespace DockerDns.Guarantees
open Library Source

section Served
variable {hk : Hickory} {hasher : Hasher} {nameError : List Char → String} {values : List String}

/-- Some piece says that the name has the address. -/
def Said (hk : Hickory) (values : List String) (n : LowerName) (ip : IpAddr) : Prop :=
  ∃ piece ∈ delimited values, ∃ r, RecordText hk piece r ∧ n = LowerName.new r.name ∧ ip = r.addr

/-- The values are refused for the first piece that is no record text. -/
def Refused (hk : Hickory) (nameError : List Char → String) (values : List String) : Prop :=
  ∃ front piece back e, delimited values = front ++ piece :: back ∧
    (∀ piece' ∈ front, ∃ r, RecordText hk piece' r) ∧ (∀ r, ¬ RecordText hk piece r) ∧
    parseRecord hk nameError piece = .error e ∧ parseRecords hk nameError values = .error e

/-- Every pair that is said, and no other, is answered in both directions. -/
def AnswersSaid (hk : Hickory) (values : List String) (handler : DnsRequestHandler) : Prop :=
  ∀ order n ip,
    (Response.Answers (handler.handleRequest order (some (n, (RData.ofIp ip).recordType)))
        (RData.ofIp ip) ↔ Said hk values n ip) ∧
    (Response.Answers (handler.handleRequest order (some (LowerName.new (hk.nameOfIp ip), .ptr)))
        (.ptr n.name) ↔ Said hk values n ip)

theorem exists_record {records : List RawRecord}
    (read : ∀ r, r ∈ records ↔ ∃ piece ∈ delimited values, parseRecord hk nameError piece = .ok r)
    (n : LowerName) (ip : IpAddr) :
    (∃ record ∈ records, n = LowerName.new record.name ∧ ip = record.addr) ↔
      Said hk values n ip := by
  constructor
  · rintro ⟨record, member, same⟩
    obtain ⟨piece, listed, parsed⟩ := (read record).mp member
    exact ⟨piece, listed, record, parseRecord_sound parsed, same⟩
  · rintro ⟨piece, listed, record, spelled, same⟩
    exact ⟨record, (read record).mpr ⟨piece, listed, parseRecord_complete spelled⟩, same⟩

/-- From the configured texts to the answers. -/
theorem record_texts_answered (names : hk.NameLaws) (ignores : hasher.IgnoresCase) :
    Refused hk nameError values ∨ ∃ records, parseRecords hk nameError values = .ok records ∧
      AnswersSaid hk values (DnsRequestHandler.new hk hasher records) := by
  rcases mapM_outcome (parseRecord hk nameError) (delimited values) with
    ⟨records, taken, read⟩ | ⟨front, piece, back, e, whole, before, failed, stopped⟩
  · refine .inr ⟨records, taken, fun order n ip => ⟨?_, ?_⟩⟩
    · rw [answers_iff ignores, RData.lower_ofIp, listed_address, exists_record read]
      simp
    · rw [answers_iff ignores, listed_pointer names, exists_record read]
      simp
  · refine .inl ⟨front, piece, back, e, whole, fun other member => ?_, fun r spelled => ?_, failed,
      stopped⟩
    · exact (before other member).imp fun r => parseRecord_sound
    · cases failed.symm.trans (parseRecord_complete spelled)

end Served

section Runs
open Reference

theorem record_texts_answered_mixed :
    Refused hickory (fun _ => "") ["Web.lan:10.0.0.1,web.lan:[::ffff:1.2.3.4]", "db.lan:10.0.0.2"] ∨
      ∃ records, parseRecords hickory (fun _ => "")
          ["Web.lan:10.0.0.1,web.lan:[::ffff:1.2.3.4]", "db.lan:10.0.0.2"] = .ok records ∧
        AnswersSaid hickory ["Web.lan:10.0.0.1,web.lan:[::ffff:1.2.3.4]", "db.lan:10.0.0.2"]
          (DnsRequestHandler.new hickory hasher records) :=
  record_texts_answered hickory_nameLaws hasher_ignoresCase

end Runs
section Writing
variable {radix maxDigits bound n : Nat} {allow : Bool} {digits : List Nat}

theorem toDigit_digitChar :
    ∀ radix ≤ 16, ∀ d < radix, toDigit radix (Nat.digitChar d) = some d := by decide

theorem numberText_digits (digits : List Nat) (value : numberOf radix digits = n)
    (written : radix ≤ 16) (small : ∀ d ∈ digits, d < radix) (nonempty : digits ≠ [])
    (short : digits.length ≤ maxDigits)
    (plain : ¬ (allow = false ∧ digits.head? = some 0 ∧ 1 < digits.length)) (bounded : n < bound) :
    NumberText radix maxDigits bound allow (digits.map Nat.digitChar) n where
  digits := by
    have spelled := fun d member => toDigit_digitChar radix written d (small d member)
    exact ⟨digits, List.forall₂_map_left_iff.mpr (List.forall₂_same.mpr spelled), value, plain⟩
  nonempty := List.map_eq_nil_iff.not.mpr nonempty
  short := by rwa [List.length_map]
  bounded := bounded

theorem exists_octetText (small : n < 256) : ∃ text, OctetText text n := by
  have digits : ∃ digits : List Nat, numberOf 10 digits = n ∧ (∀ d ∈ digits, d < 10) ∧
      digits ≠ [] ∧ digits.length ≤ 3 ∧ ¬ (digits.head? = some 0 ∧ 1 < digits.length) := by
    rcases Nat.lt_or_ge n 10 with one | more
    · exact ⟨[n], by simp [numberOf], by simp [one], by simp, by simp, by simp⟩
    rcases Nat.lt_or_ge n 100 with two | three
    · exact ⟨[n / 10, n % 10], by simp [numberOf]; omega, by simp; omega, by simp, by simp,
        by simp; omega⟩
    · exact ⟨[n / 100, n / 10 % 10, n % 10], by simp [numberOf]; omega, by simp; omega, by simp,
        by simp, by simp; omega⟩
  obtain ⟨digits, value, decimal, nonempty, short, plain⟩ := digits
  exact ⟨_, numberText_digits digits value (by omega) decimal nonempty short
    (fun both => plain both.2) small⟩

theorem exists_groupText (small : n < 65536) : ∃ text, GroupText text n := by
  have value : numberOf 16 [n / 4096, n / 256 % 16, n / 16 % 16, n % 16] = n := by
    simp only [numberOf, List.foldl]
    omega
  have hexadecimal : ∀ d ∈ [n / 4096, n / 256 % 16, n / 16 % 16, n % 16], d < 16 := by
    intro d member
    simp only [List.mem_cons, List.not_mem_nil, or_false] at member
    omega
  exact ⟨_, numberText_digits _ value (Nat.le_refl 16) hexadecimal (List.cons_ne_nil _ _)
    (Nat.le_refl 4) nofun small⟩

theorem comma_free {text : List Char} (number : NumberText radix maxDigits bound allow text n)
    (other : toDigit radix ',' = none) : ',' ∉ text :=
  fun member => number.isDigit member other

theorem exists_groupsText (groups : List Nat) (some : groups ≠ [])
    (small : ∀ n ∈ groups, n < 65536) : ∃ text, GroupsText false text groups ∧ ',' ∉ text := by
  induction groups with
  | nil => exact absurd rfl some
  | cons n groups ih =>
    obtain ⟨text, group⟩ := exists_groupText (small n List.mem_cons_self)
    have plain := comma_free group (by decide)
    by_cases last : groups = []
    · subst last
      exact ⟨text, .one group, plain⟩
    · obtain ⟨more, later, plain'⟩ := ih last fun n' member => small n' (List.mem_cons_of_mem n member)
      exact ⟨text ++ ':' :: more, .cons group later, by simp [plain, plain']⟩

theorem exists_dottedText (addr : Ipv4Addr) : ∃ text, DottedText text addr ∧ ',' ∉ text := by
  have bound := addr.isLt
  have value : addr = ofOctets (addr.toNat / 16777216) (addr.toNat / 65536 % 256)
      (addr.toNat / 256 % 256) (addr.toNat % 256) := by
    apply BitVec.eq_of_toNat_eq
    rw [ofOctets, BitVec.toNat_ofNat]
    omega
  obtain ⟨ta, a⟩ := exists_octetText (by omega : addr.toNat / 16777216 < 256)
  obtain ⟨tb, b⟩ := exists_octetText (by omega : addr.toNat / 65536 % 256 < 256)
  obtain ⟨tc, c⟩ := exists_octetText (by omega : addr.toNat / 256 % 256 < 256)
  obtain ⟨td, d⟩ := exists_octetText (by omega : addr.toNat % 256 < 256)
  refine ⟨_, ⟨ta, tb, tc, td, _, _, _, _, a, b, c, d, rfl, value⟩, ?_⟩
  have plain := comma_free a (by decide)
  have plain' := comma_free b (by decide)
  have plain'' := comma_free c (by decide)
  have plain''' := comma_free d (by decide)
  simp [plain, plain', plain'', plain''']

theorem exists_groups (addr : Ipv6Addr) : ∃ groups : List Nat, addr = ofGroups groups ∧
    groups.length = 8 ∧ ∀ n ∈ groups, n < 65536 := by
  have bound := addr.isLt
  refine ⟨[addr.toNat / 65536 ^ 7, addr.toNat / 65536 ^ 6 % 65536, addr.toNat / 65536 ^ 5 % 65536,
    addr.toNat / 65536 ^ 4 % 65536, addr.toNat / 65536 ^ 3 % 65536, addr.toNat / 65536 ^ 2 % 65536,
    addr.toNat / 65536 % 65536, addr.toNat % 65536], ?_, rfl, ?_⟩
  · apply BitVec.eq_of_toNat_eq
    rw [ofGroups, numberOf, BitVec.toNat_ofNat]
    simp only [List.foldl]
    omega
  · intro n member
    simp only [List.mem_cons, List.not_mem_nil, or_false] at member
    omega

/-- Every address has a text that the reader takes, and none of them a comma. -/
theorem exists_addressText (ip : IpAddr) : ∃ text, AddressText text ip ∧ ',' ∉ text := by
  cases ip with
  | v4 addr => exact exists_dottedText addr
  | v6 addr =>
    obtain ⟨groups, rfl, all, small⟩ := exists_groups addr
    have some : groups ≠ [] := by
      rintro rfl
      cases all
    obtain ⟨text, spelled, plain⟩ := exists_groupsText groups some small
    exact ⟨_, ⟨text, rfl, .full spelled all⟩, by simp [plain]⟩

end Writing

section Configurable
variable {hk : Hickory} {nameError : List Char → String}

/-- The name has a text that a piece can hold. -/
def Nameable (hk : Hickory) (r : RawRecord) : Prop :=
  ∃ nameStr name, ':' ∉ nameStr ∧ ',' ∉ nameStr ∧ hk.parse (String.ofList nameStr) = some name ∧
    r.name = { name with fqdn := true }

theorem Nameable.piece {r : RawRecord} (nameable : Nameable hk r) :
    ∃ piece, RecordText hk piece r ∧ ',' ∉ piece := by
  obtain ⟨nameStr, name, colon, comma, named, same⟩ := nameable
  obtain ⟨addrStr, address, comma'⟩ := exists_addressText r.addr
  exact ⟨nameStr ++ ':' :: addrStr, ⟨nameStr, addrStr, name, rfl, colon, address, named, same⟩,
    by simp [comma, comma']⟩

theorem exists_pieces {group : List RawRecord} (nameable : ∀ r ∈ group, Nameable hk r) :
    ∃ pieces : List (List Char), pieces.mapM (parseRecord hk nameError) = .ok group ∧
      pieces.length = group.length ∧ ∀ piece ∈ pieces, ',' ∉ piece := by
  induction group with
  | nil => exact ⟨[], rfl, rfl, nofun⟩
  | cons r group ih =>
    rw [List.forall_mem_cons] at nameable
    obtain ⟨piece, spelled, plain⟩ := nameable.1.piece
    obtain ⟨pieces, taken, length, plain'⟩ := ih nameable.2
    refine ⟨piece :: pieces, ?_, congrArg (· + 1) length, List.forall_mem_cons.mpr ⟨plain, plain'⟩⟩
    rw [List.mapM_cons, parseRecord_complete spelled, taken]
    rfl

theorem exists_value {group : List RawRecord} (filled : group ≠ [])
    (nameable : ∀ r ∈ group, Nameable hk r) :
    ∃ value, parseRecords hk nameError [value] = .ok group := by
  obtain ⟨pieces, taken, count, plain⟩ := exists_pieces nameable
  have some : pieces ≠ [] := by
    rintro rfl
    exact filled (List.length_eq_zero_iff.mp count.symm)
  refine ⟨String.ofList ([','].intercalate pieces), ?_⟩
  have split : delimited [String.ofList ([','].intercalate pieces)] = pieces := by
    rw [delimited, List.flatMap_singleton, String.toList_ofList,
      List.splitOn_intercalate ',' plain some]
  rw [parseRecords, split, taken]

/-- The values are parsed one after another. -/
theorem parseRecords_cons {value : String} {values : List String} {group records : List RawRecord}
    (first : parseRecords hk nameError [value] = .ok group)
    (later : parseRecords hk nameError values = .ok records) :
    parseRecords hk nameError (value :: values) = .ok (group ++ records) := by
  have split : delimited (value :: values) = delimited [value] ++ delimited values := by
    simp [delimited]
  rw [parseRecords] at first later ⊢
  rw [split, List.mapM_append, first, later]
  rfl

/-- Whatever records are wanted, and however they are grouped into values, there
are values that configure them, one for each group. -/
theorem records_configurable (groups : List (List RawRecord))
    (filled : ∀ group ∈ groups, group ≠ [])
    (nameable : ∀ group ∈ groups, ∀ r ∈ group, Nameable hk r) :
    ∃ values,
      List.Forall₂ (fun value group => parseRecords hk nameError [value] = .ok group) values groups ∧
      parseRecords hk nameError values = .ok groups.flatten := by
  induction groups with
  | nil => exact ⟨[], .nil, rfl⟩
  | cons group groups ih =>
    rw [List.forall_mem_cons] at filled nameable
    obtain ⟨values, each, read⟩ := ih filled.2 nameable.2
    obtain ⟨value, first⟩ := exists_value filled.1 nameable.1
    exact ⟨value :: values, .cons first each, parseRecords_cons first read⟩

end Configurable

section Runs
open Reference

theorem nameable_web (addr : IpAddr) : Nameable hickory ⟨name ["web", "lan"], addr⟩ :=
  ⟨"web.lan".toList, ⟨["web".toList, "lan".toList], false⟩, by decide, by decide, by decide, rfl⟩

/-- Two values, the first with an IPv4 and an IPv6 record. -/
theorem records_configurable_mixed :
    ∃ values, List.Forall₂ (fun value group => parseRecords hickory (fun _ => "") [value] = .ok group)
        values [[⟨name ["web", "lan"], .v4 0x0a000001#32⟩, ⟨name ["web", "lan"], .v6 1#128⟩],
          [⟨name ["web", "lan"], .v4 0x0a000002#32⟩]] ∧
      parseRecords hickory (fun _ => "") values = .ok
        [⟨name ["web", "lan"], .v4 0x0a000001#32⟩, ⟨name ["web", "lan"], .v6 1#128⟩,
          ⟨name ["web", "lan"], .v4 0x0a000002#32⟩] :=
  records_configurable [[⟨name ["web", "lan"], .v4 0x0a000001#32⟩, ⟨name ["web", "lan"], .v6 1#128⟩],
    [⟨name ["web", "lan"], .v4 0x0a000002#32⟩]] (by simp) (by
      simp only [List.forall_mem_cons]
      exact ⟨⟨nameable_web _, nameable_web _, nofun⟩, ⟨nameable_web _, nofun⟩, nofun⟩)

end Runs
end DockerDns.Guarantees
