import DockerDns.Library.HashSets
import DockerDns.Source.Zones

/-!
# The request handler and its static records

`dns_listener.rs:26-167` and the records of `config.rs`. Static records are kept
in a map of hash sets whose elements are hashed by hand. Metadata, transport
and log messages are left out.
-/
namespace DockerDns.Source
open Library

structure RawRecord where
  name : Name
  addr : IpAddr
  deriving DecidableEq, Repr

/-- The hasher's state after a record type and one value. -/
structure Hasher where
  a : RecordType → Ipv4Addr → Nat
  aaaa : RecordType → Ipv6Addr → Nat
  ptr : RecordType → Name → Nat

/-- The library hashes names ignoring case. -/
def Hasher.IgnoresCase (hasher : Hasher) : Prop :=
  ∀ t a b, a.toLowercase = b.toLowercase → hasher.ptr t a = hasher.ptr t b

structure HashedRData where
  data : RData
  deriving DecidableEq, Repr

namespace HashedRData

/-- The derived equality is the library's: it ignores the case of names. -/
def norm (r : HashedRData) : RData := r.data.lower

/-- `none` where the source is unreachable. -/
def hash (hasher : Hasher) (r : HashedRData) : Option Nat :=
  match r.data with
  | .a a => some (hasher.a r.data.recordType a)
  | .aaaa aaaa => some (hasher.aaaa r.data.recordType aaaa)
  | .ptr ptr => some (hasher.ptr r.data.recordType ptr)
  | .soa .. => none

end HashedRData

abbrev Intercepts := FiniteMap LowerName (List HashedRData)

structure DnsRequestHandler where
  intercepts : Intercepts

namespace DnsRequestHandler

/-- One turn of the loop of `new`: the forward record, then the reverse one. That
a forward record is a duplicate is only logged. -/
def addIntercept (hk : Hickory) (hasher : Hasher) (map : Intercepts) (intercept : RawRecord) :
    Intercepts :=
  let forward : HashedRData := ⟨RData.ofIp intercept.addr⟩
  let map := insertPair HashedRData.norm (HashedRData.hash hasher) map
    (LowerName.new intercept.name) forward
  let ptrName := hk.nameOfIp intercept.addr
  let ptr : HashedRData := ⟨.ptr intercept.name⟩
  insertPair HashedRData.norm (HashedRData.hash hasher) map (LowerName.new ptrName) ptr

def new (hk : Hickory) (hasher : Hasher) (intercepts : List RawRecord) : DnsRequestHandler :=
  ⟨intercepts.foldl (addIntercept hk hasher) ∅⟩

end DnsRequestHandler

/-- Where a request is answered. -/
inductive Response where
  | answers (answers : List Record)
  | catalog
  deriving DecidableEq, Repr

/-- The order in which a hash set iterates its elements at one moment. -/
structure SetOrder where
  elements : List HashedRData → List HashedRData
  elements_perm : ∀ set, (elements set).Perm set

/-- A request without one well-formed query goes to the catalog. -/
def DnsRequestHandler.handleRequest (order : SetOrder) (handler : DnsRequestHandler)
    (query : Option (LowerName × RecordType)) : Response :=
  match query with
  | none => .catalog
  | some (qname, qtype) =>
    match handler.intercepts.lookup qname with
    | none => .catalog
    | some rdatas => .answers
      (((order.elements rdatas).filter fun r =>
          qtype = r.data.recordType || qtype = .any).map fun r => ⟨qname.name, 5, r.data⟩)

end DockerDns.Source
