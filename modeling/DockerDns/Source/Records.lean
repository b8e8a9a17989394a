import Mathlib.Data.List.Perm.Basic
import DockerDns.Library.FiniteMap

/-!
# DNS names, record data and record sets

The data the program exchanges with its DNS library: names with their FQDN flag
and their lower-cased form, addresses, record data and record sets. The
operations of the library itself are fields of `Hickory`; `RecordLaws` and
`NameLaws` state what the program relies on: record sets are sets of data
compared ignoring case, and names are concatenated label by label.
-/
namespace DockerDns.Source
open Library

abbrev Label := List Char

structure Name where
  labels : List Label
  fqdn : Bool
  deriving DecidableEq, Repr

def Label.toLowercase (label : Label) : Label := label.map Char.toLower

def Name.toLowercase (name : Name) : Name :=
  { name with labels := name.labels.map Label.toLowercase }

theorem char_toLower_idem (c : Char) : c.toLower.toLower = c.toLower := by
  unfold Char.toLower
  grind

@[simp] theorem Label.toLowercase_idem (label : Label) :
    label.toLowercase.toLowercase = label.toLowercase := by
  rw [Label.toLowercase, Label.toLowercase, List.map_map]
  exact List.map_congr_left fun c _ => char_toLower_idem c

@[simp] theorem Name.toLowercase_idem (name : Name) :
    name.toLowercase.toLowercase = name.toLowercase := by
  simp [Name.toLowercase]

/-- A name whose labels are lower case: the key type of every record map. -/
structure LowerName where
  name : Name
  lower : name.toLowercase = name
  deriving DecidableEq, Repr

def LowerName.new (name : Name) : LowerName := ⟨name.toLowercase, name.toLowercase_idem⟩

@[ext] theorem LowerName.ext {a b : LowerName} (h : a.name = b.name) : a = b := by
  cases a
  cases b
  simpa using h

@[simp] theorem LowerName.new_name (n : LowerName) : LowerName.new n.name = n :=
  LowerName.ext n.lower

/-- Names are compared ignoring case exactly when their lower-cased forms agree. -/
theorem LowerName.new_eq_iff (a b : Name) :
    LowerName.new a = LowerName.new b ↔ a.toLowercase = b.toLowercase := by
  simp [LowerName.new]

abbrev Ipv4Addr := BitVec 32
abbrev Ipv6Addr := BitVec 128

inductive IpAddr where
  | v4 (addr : Ipv4Addr)
  | v6 (addr : Ipv6Addr)
  deriving DecidableEq, Repr

inductive RecordType where
  | a | aaaa | ptr | soa | any
  | other (code : Nat)
  deriving DecidableEq, Repr

inductive RData where
  | a (addr : Ipv4Addr)
  | aaaa (addr : Ipv6Addr)
  | ptr (target : Name)
  | soa (mname rname : Name) (serial refresh retry expire minimum : Nat)
  deriving DecidableEq, Repr

namespace RData

def recordType : RData → RecordType
  | .a _ => .a
  | .aaaa _ => .aaaa
  | .ptr _ => .ptr
  | .soa .. => .soa

/-- `RData::from(IpAddr)`. -/
def ofIp : IpAddr → RData
  | .v4 addr => .a addr
  | .v6 addr => .aaaa addr

/-- `RData::ip_addr`. -/
def ipAddr : RData → Option IpAddr
  | .a addr => some (.v4 addr)
  | .aaaa addr => some (.v6 addr)
  | _ => none

/-- Two data are equal to the DNS library when their names agree ignoring case:
its equality is the equality of this normal form. -/
def lower : RData → RData
  | .a addr => .a addr
  | .aaaa addr => .aaaa addr
  | .ptr target => .ptr target.toLowercase
  | .soa mname rname serial refresh retry expire minimum =>
    .soa mname.toLowercase rname.toLowercase serial refresh retry expire minimum

@[simp] theorem lower_recordType (r : RData) : r.lower.recordType = r.recordType := by
  cases r <;> rfl

@[simp] theorem lower_ofIp (ip : IpAddr) : (ofIp ip).lower = ofIp ip := by
  cases ip <;> rfl

@[simp] theorem lower_ipAddr (r : RData) : r.lower.ipAddr = r.ipAddr := by
  cases r <;> rfl

@[simp] theorem ofIp_inj (ip ip' : IpAddr) : ofIp ip = ofIp ip' ↔ ip = ip' := by
  cases ip <;> cases ip' <;> simp [ofIp]

theorem ipAddr_eq_some (r : RData) (ip : IpAddr) : r.ipAddr = some ip ↔ r = ofIp ip := by
  cases r <;> cases ip <;> simp [ipAddr, ofIp]

@[simp] theorem recordType_ptr (target : Name) : (ptr target).recordType = .ptr := rfl

theorem recordType_ofIp (ip : IpAddr) :
    (ofIp ip).recordType = .a ∨ (ofIp ip).recordType = .aaaa := by
  cases ip
  · exact .inl rfl
  · exact .inr rfl

end RData

structure RrKey where
  name : LowerName
  recordType : RecordType
  deriving DecidableEq, Repr

structure Record where
  name : Name
  ttl : Nat
  data : RData
  deriving DecidableEq, Repr

structure RecordSet where
  name : Name
  recordType : RecordType
  ttl : Nat
  records : List RData
  deriving DecidableEq, Repr

namespace RecordSet

/-- `RecordSet::with_ttl`: an empty set. -/
def withTtl (name : Name) (recordType : RecordType) (ttl : Nat) : RecordSet :=
  { name, recordType, ttl, records := [] }

/-- `RecordSet::from(Record)`: the set of one record. -/
def ofRecord (record : Record) : RecordSet :=
  { name := record.name, recordType := record.data.recordType, ttl := record.ttl,
    records := [record.data] }

def isEmpty (set : RecordSet) : Bool := set.records.isEmpty

/-- The data of a set as the library compares them. -/
def data (set : RecordSet) : List RData := set.records.map RData.lower

end RecordSet

/-- A zone handler: its origin and its records by lower-cased name and type. -/
structure InMemoryZoneHandler where
  origin : Name
  records : FiniteMap RrKey RecordSet

/-- What the program calls in the DNS library. -/
structure Hickory where
  /-- `str::parse::<Name>` -/
  parse : String → Option Name
  /-- `Name::from_str_relaxed` -/
  fromStrRelaxed : String → Option Name
  /-- `Display for Name` -/
  display : Name → String
  fromLabels : List Label → Option Name
  appendDomain : Name → Name → Option Name
  /-- `Name::from(IpAddr)` -/
  nameOfIp : IpAddr → Name
  /-- `RecordSet::add_rdata`; the library asserts that the types agree. -/
  addRdata : RecordSet → RData → RecordSet
  /-- `RecordSet::remove`, `none` when no record is removed; the library
  asserts that the record's name and type are the set's. -/
  remove : RecordSet → Record → Option RecordSet
  /-- `InMemoryZoneHandler::new`, `none` on an error -/
  newZoneHandler : Name → FiniteMap RrKey RecordSet → Option InMemoryZoneHandler

/-- The bytes a name takes in a message: a length octet before each label and
the root's. -/
def Name.encodedLength (name : Name) : Nat :=
  (name.labels.map fun label => label.length + 1).sum + 1

/-- A label in lower case that needs no escape. -/
def Label.Plain (label : Label) : Prop :=
  label ≠ [] ∧ label.length ≤ 63 ∧ ∀ c ∈ label, c.isDigit ∨ c.isLower ∨ c = '-'

/-- A decimal octet or a hexadecimal nibble: the labels a zone name is made of. -/
def Label.Numeral (label : Label) : Prop :=
  (∃ octet < 2 ^ 8, label = Nat.toDigits 10 octet) ∨ ∃ nibble < 2 ^ 4, label = Nat.toDigits 16 nibble

def octets (addr : Ipv4Addr) : List Nat :=
  (List.range 4).map fun i => addr.toNat >>> (24 - 8 * i) % 256

def octets6 (addr : Ipv6Addr) : List Nat :=
  (List.range 16).map fun i => addr.toNat >>> (120 - 8 * i) % 256

def inAddrArpa : List Label := ["in-addr".toList, "arpa".toList]
def ip6Arpa : List Label := ["ip6".toList, "arpa".toList]

/-- The standard reverse name of an address: decimal octets under
`in-addr.arpa`, or hexadecimal nibbles under `ip6.arpa`, least significant first. -/
def standardReverseName : IpAddr → Name
  | .v4 addr => ⟨(octets addr).reverse.map (Nat.toDigits 10) ++ inAddrArpa, true⟩
  | .v6 addr =>
    ⟨((octets6 addr).flatMap fun octet => [octet / 16, octet % 16]).reverse.map
      (Nat.toDigits 16) ++ ip6Arpa, true⟩

/-- The documented effect of adding data to a set of its own type. -/
structure RecordSet.Added (set : RecordSet) (rdata : RData) (after : RecordSet) : Prop where
  name : after.name = set.name
  recordType : after.recordType = set.recordType
  data : after.data.Perm (set.data.insert rdata.lower)

/-- The documented effect of removing data that a set holds. -/
structure RecordSet.Removed (set : RecordSet) (rdata : RData) (after : RecordSet) : Prop where
  name : after.name = set.name
  recordType : after.recordType = set.recordType
  data : after.data.Perm (set.data.erase rdata.lower)

/-- Address and pointer sets: the types whose last record may be removed. -/
def RecordType.IsPlain (t : RecordType) : Prop := t = .a ∨ t = .aaaa ∨ t = .ptr

/-- What the record stores rely on. Nothing is said of a call whose assertions
fail: the library panics there. -/
structure Hickory.RecordLaws (hk : Hickory) : Prop where
  addRdata : ∀ (set : RecordSet) (rdata : RData), rdata.recordType = set.recordType →
    set.recordType.IsPlain → set.data.Nodup → set.Added rdata (hk.addRdata set rdata)
  remove_present : ∀ (set : RecordSet) (record : Record),
    LowerName.new record.name = LowerName.new set.name →
    record.data.recordType = set.recordType → set.recordType.IsPlain → set.data.Nodup →
    record.data.lower ∈ set.data →
    ∃ after, hk.remove set record = some after ∧ set.Removed record.data after
  remove_absent : ∀ (set : RecordSet) (record : Record),
    LowerName.new record.name = LowerName.new set.name →
    record.data.recordType = set.recordType → set.recordType.IsPlain → set.data.Nodup →
    record.data.lower ∉ set.data → hk.remove set record = none
  /-- a zone that starts from its SOA record alone -/
  newZoneHandler : ∀ soa : Record, soa.data.recordType = .soa →
    let records := FiniteMap.insert ∅ ⟨LowerName.new soa.name, .soa⟩ (RecordSet.ofRecord soa)
    hk.newZoneHandler soa.name records = some ⟨soa.name, records⟩

/-- Two sets that differ in their records at most. -/
structure RecordSet.SameHead (before after : RecordSet) : Prop where
  name : after.name = before.name
  recordType : after.recordType = before.recordType
  ttl : after.ttl = before.ttl

/-- What a set keeps when addresses or pointers join it or data leave it: its name,
type and TTL, and the spelling of the records it already holds. -/
structure Hickory.KeepLaws (hk : Hickory) : Prop where
  addRdata_head : ∀ (set : RecordSet) (rdata : RData), rdata.recordType = set.recordType →
    rdata.recordType.IsPlain → set.SameHead (hk.addRdata set rdata)
  addRdata_keeps : ∀ (set : RecordSet) (rdata : RData), rdata.recordType = set.recordType →
    rdata.recordType.IsPlain → set.records ⊆ (hk.addRdata set rdata).records
  addRdata_adds : ∀ (set : RecordSet) (rdata : RData), rdata.recordType = set.recordType →
    rdata.recordType.IsPlain → (hk.addRdata set rdata).records ⊆ rdata :: set.records
  remove_head : ∀ (set : RecordSet) (record : Record) (after : RecordSet),
    hk.remove set record = some after → set.SameHead after
  remove_keeps : ∀ (set : RecordSet) (record : Record) (after : RecordSet),
    hk.remove set record = some after → after.records ⊆ set.records

/-- What the reverse names and the reverse zone names rely on. -/
structure Hickory.NameLaws (hk : Hickory) : Prop where
  nameOfIp : ∀ ip, hk.nameOfIp ip = standardReverseName ip
  inAddrArpa : hk.fromStrRelaxed "in-addr.arpa" = some ⟨inAddrArpa, false⟩
  ip6Arpa : hk.fromStrRelaxed "ip6.arpa" = some ⟨ip6Arpa, false⟩
  fromLabels : ∀ labels, (∀ label ∈ labels, Label.Numeral label) →
    Name.encodedLength ⟨labels, true⟩ ≤ 255 → hk.fromLabels labels = some ⟨labels, true⟩
  appendDomain : ∀ name domain : Name,
    Name.encodedLength ⟨name.labels ++ domain.labels, true⟩ ≤ 255 →
    hk.appendDomain name domain = some ⟨name.labels ++ domain.labels, true⟩

end DockerDns.Source
