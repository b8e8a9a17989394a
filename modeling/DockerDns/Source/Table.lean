import DockerDns.Source.Zones

/-!
# The authority wrapper

`table.rs:69-240`. Reverse zone handlers are shared between this table and the
catalog through an `Arc`: they live in `handlers`, and both tables hold the
index of a handler. A hash map iterates in no specified order, so every
operation that searches the reverse zones takes the order as an argument.
-/
namespace DockerDns.Source
open Library

/-- The index of a reverse zone handler, standing for the `Arc` that shares it. -/
abbrev Handle := Nat

structure AuthorityWrapper where
  forward : InMemoryZoneHandler
  reverseZones : FiniteMap IpNet Handle
  handlers : List InMemoryZoneHandler

abbrev ReverseEntry := Sigma fun _ : IpNet => Handle

/-- The order in which a hash map iterates its entries at one moment. -/
structure IterationOrder where
  zones : List ReverseEntry → List ReverseEntry
  zones_perm : ∀ entries, (zones entries).Perm entries

def IterationOrder.listed : IterationOrder := ⟨id, fun _ => .refl _⟩

inductive ParseError where
  | newName | oldName
  deriving DecidableEq, Repr

namespace AuthorityWrapper

def new (forward : InMemoryZoneHandler) : AuthorityWrapper :=
  { forward, reverseZones := ∅, handlers := [] }

/-- `Arc::new`: the handler joins the shared ones. -/
def share (w : AuthorityWrapper) (zone : InMemoryZoneHandler) : AuthorityWrapper × Handle :=
  ({ w with handlers := w.handlers ++ [zone] }, w.handlers.length)

def addReverseZone (w : AuthorityWrapper) (network : IpNet) (authority : Handle) :
    AuthorityWrapper :=
  { w with reverseZones := w.reverseZones.insert network authority }

def removeReverseZone (w : AuthorityWrapper) (network : IpNet) : AuthorityWrapper :=
  { w with reverseZones := w.reverseZones.erase network }

def findReverseAuthority (order : IterationOrder) (w : AuthorityWrapper) (ip : IpAddr) :
    Option Handle :=
  ((order.zones w.reverseZones.entries).find? fun entry => entry.1.contains ip).map (·.2)

def modifyForward (w : AuthorityWrapper) (f : Records → Records) : AuthorityWrapper :=
  { w with forward := w.forward.modify f }

def modifyHandler (w : AuthorityWrapper) (authority : Handle) (f : Records → Records) :
    AuthorityWrapper :=
  { w with handlers := w.handlers.modify authority (·.modify f) }

def upsert (hk : Hickory) (order : IterationOrder) (w : AuthorityWrapper) (name : Name)
    (address : IpAddr) : AuthorityWrapper :=
  let rdata := RData.ofIp address
  let recordType := rdata.recordType
  let reverse := hk.nameOfIp address
  let w := w.modifyForward fun records =>
    appendToRecordSet hk records ⟨LowerName.new name, recordType⟩ name recordType rdata
  match w.findReverseAuthority order address with
  | none => w
  | some reverseAuthority => w.modifyHandler reverseAuthority fun records =>
    appendToRecordSet hk records ⟨LowerName.new reverse, .ptr⟩ reverse .ptr (.ptr name)

def add (hk : Hickory) (order : IterationOrder) (w : AuthorityWrapper) (name : Name)
    (address : IpAddr) : AuthorityWrapper :=
  w.upsert hk order name address

/-- The step `rename_records` and `remove_record` share: the pointer to `name`
leaves the zone that covers the address, if one does. -/
def removePointer (hk : Hickory) (order : IterationOrder) (w : AuthorityWrapper) (ip : IpAddr)
    (name : LowerName) : AuthorityWrapper :=
  match w.findReverseAuthority order ip with
  | none => w
  | some reverseAuthority => w.modifyHandler reverseAuthority fun records =>
    removeFromPtrSet hk records ip name

/-- One turn of the loop in `rename_records`: the pointer to the old name goes,
the new pair comes. -/
def renameRecord (hk : Hickory) (order : IterationOrder) (oldName : LowerName) (newName : Name)
    (w : AuthorityWrapper) (ip : IpAddr) : AuthorityWrapper :=
  (w.removePointer hk order ip oldName).upsert hk order newName ip

/-- `none` when nothing is stored under the old key. -/
def renameRecords (hk : Hickory) (order : IterationOrder) (w : AuthorityWrapper) (oldKey : RrKey)
    (newName : Name) : Option AuthorityWrapper :=
  match w.forward.records.lookup oldKey with
  | none => none
  | some recordSet =>
    let w := w.modifyForward fun records => records.erase oldKey
    let ips := recordSet.records.filterMap RData.ipAddr
    some (ips.foldl (renameRecord hk order oldKey.name newName) w)

def stripPrefix (c : Char) (s : String) : String :=
  match s.toList with
  | c' :: rest => if c' = c then String.ofList rest else s
  | [] => s

/-- Both names are parsed before any record moves; the `A` records move first.
That neither family has records under the old name is only logged. -/
def rename (hk : Hickory) (order : IterationOrder) (w : AuthorityWrapper)
    (oldName newName : String) : AuthorityWrapper × Except ParseError Unit :=
  match hk.parse newName with
  | none => (w, .error .newName)
  | some newNameParsed =>
    match hk.parse (stripPrefix '/' oldName) with
    | none => (w, .error .oldName)
    | some oldNameParsed =>
      let oldKey := LowerName.new oldNameParsed
      let w := (w.renameRecords hk order ⟨oldKey, .a⟩ newNameParsed).getD w
      let w := (w.renameRecords hk order ⟨oldKey, .aaaa⟩ newNameParsed).getD w
      (w, .ok ())

/-- `none` when the forward zone holds no such record. -/
def removeRecord (hk : Hickory) (order : IterationOrder) (w : AuthorityWrapper) (name : Name)
    (ip : IpAddr) : Option AuthorityWrapper :=
  let recordType := (RData.ofIp ip).recordType
  let key : RrKey := ⟨LowerName.new name, recordType⟩
  let recordToRemove : Record := ⟨name, 0, RData.ofIp ip⟩
  match removeFromSet hk w.forward.records key recordToRemove with
  | none => none
  | some records =>
    some ((w.modifyForward fun _ => records).removePointer hk order ip (LowerName.new name))

def removeAddress (hk : Hickory) (order : IterationOrder) (w : AuthorityWrapper) (name : Name)
    (ip : IpAddr) : AuthorityWrapper :=
  (w.removeRecord hk order name ip).getD w

end AuthorityWrapper
end DockerDns.Source
