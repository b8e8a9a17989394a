import DockerDns.Source.Table

/-!
# The table with its assertions

`RecordSet::insert` and `RecordSet::remove` assert that the record has the name
and the type of the set. Here the operations of the table are spelled out once
more with these assertions: `none` is a panic, which ends the process.
-/
namespace DockerDns.Source
open Library

/-- What `RecordSet::insert` and `RecordSet::remove` assert. -/
def RecordSet.Asserts (set : RecordSet) (record : Record) : Prop :=
  LowerName.new record.name = LowerName.new set.name ∧ record.data.recordType = set.recordType

instance (set : RecordSet) (record : Record) : Decidable (set.Asserts record) :=
  inferInstanceAs (Decidable (_ ∧ _))

namespace Asserting

/-- `add_rdata` inserts a record of the set's own name and TTL. -/
def addRdata (hk : Hickory) (set : RecordSet) (rdata : RData) : Option RecordSet :=
  if set.Asserts ⟨set.name, set.ttl, rdata⟩ then some (hk.addRdata set rdata) else none

def remove (hk : Hickory) (set : RecordSet) (record : Record) : Option (Option RecordSet) :=
  if set.Asserts record then some (hk.remove set record) else none

def appendToRecordSet (hk : Hickory) (records : Records) (key : RrKey) (owner : Name)
    (recordType : RecordType) (rdata : RData) : Option Records :=
  match records.lookup key with
  | some set => (addRdata hk set rdata).map (records.insert key)
  | none => (addRdata hk (RecordSet.withTtl owner recordType 5) rdata).map (records.insert key)

def removeFromSet (hk : Hickory) (records : Records) (key : RrKey) (record : Record) :
    Option (Option Records) :=
  match records.lookup key with
  | none => some none
  | some set => (remove hk set record).map fun removed =>
    removed.map fun set => if set.isEmpty then records.erase key else records.insert key set

def removeFromPtrSet (hk : Hickory) (records : Records) (ip : IpAddr) (name : LowerName) :
    Option Records :=
  let reverse := hk.nameOfIp ip
  let ptrKey : RrKey := ⟨LowerName.new reverse, .ptr⟩
  let recordToRemove : Record := ⟨reverse, 0, .ptr name.name⟩
  (removeFromSet hk records ptrKey recordToRemove).map (·.getD records)

/-- An update of a handler's records, if there is such a handler. -/
def modifyHandler (w : AuthorityWrapper) (authority : Handle) (f : Records → Option Records) :
    Option AuthorityWrapper :=
  match w.handlers[authority]? with
  | none => some w
  | some zone => (f zone.records).map fun records => w.modifyHandler authority fun _ => records

def upsert (hk : Hickory) (order : IterationOrder) (w : AuthorityWrapper) (name : Name)
    (address : IpAddr) : Option AuthorityWrapper :=
  let rdata := RData.ofIp address
  let recordType := rdata.recordType
  let reverse := hk.nameOfIp address
  let key : RrKey := ⟨LowerName.new name, recordType⟩
  (appendToRecordSet hk w.forward.records key name recordType rdata).bind fun records =>
    let w := w.modifyForward fun _ => records
    match w.findReverseAuthority order address with
    | none => some w
    | some reverseAuthority => modifyHandler w reverseAuthority fun records =>
      appendToRecordSet hk records ⟨LowerName.new reverse, .ptr⟩ reverse .ptr (.ptr name)

def removePointer (hk : Hickory) (order : IterationOrder) (w : AuthorityWrapper) (ip : IpAddr)
    (name : LowerName) : Option AuthorityWrapper :=
  match w.findReverseAuthority order ip with
  | none => some w
  | some reverseAuthority => modifyHandler w reverseAuthority fun records =>
    removeFromPtrSet hk records ip name

def renameRecord (hk : Hickory) (order : IterationOrder) (oldName : LowerName) (newName : Name)
    (w : AuthorityWrapper) (ip : IpAddr) : Option AuthorityWrapper :=
  (removePointer hk order w ip oldName).bind fun w => upsert hk order w newName ip

def renameRecords (hk : Hickory) (order : IterationOrder) (w : AuthorityWrapper) (oldKey : RrKey)
    (newName : Name) : Option (Option AuthorityWrapper) :=
  match w.forward.records.lookup oldKey with
  | none => some none
  | some recordSet =>
    let w := w.modifyForward fun records => records.erase oldKey
    let ips := recordSet.records.filterMap RData.ipAddr
    (ips.foldlM (renameRecord hk order oldKey.name newName) w).map some

def rename (hk : Hickory) (order : IterationOrder) (w : AuthorityWrapper)
    (oldName newName : String) : Option (AuthorityWrapper × Except ParseError Unit) :=
  match hk.parse newName with
  | none => some (w, .error .newName)
  | some newNameParsed =>
    match hk.parse (AuthorityWrapper.stripPrefix '/' oldName) with
    | none => some (w, .error .oldName)
    | some oldNameParsed =>
      let oldKey := LowerName.new oldNameParsed
      (renameRecords hk order w ⟨oldKey, .a⟩ newNameParsed).bind fun aResult =>
        let w := aResult.getD w
        (renameRecords hk order w ⟨oldKey, .aaaa⟩ newNameParsed).map fun aaaaResult =>
          (aaaaResult.getD w, .ok ())

def removeRecord (hk : Hickory) (order : IterationOrder) (w : AuthorityWrapper) (name : Name)
    (ip : IpAddr) : Option (Option AuthorityWrapper) :=
  let recordType := (RData.ofIp ip).recordType
  let key : RrKey := ⟨LowerName.new name, recordType⟩
  let recordToRemove : Record := ⟨name, 0, RData.ofIp ip⟩
  (removeFromSet hk w.forward.records key recordToRemove).bind fun removed =>
    match removed with
    | none => some none
    | some records =>
      (removePointer hk order (w.modifyForward fun _ => records) ip (LowerName.new name)).map some

def removeAddress (hk : Hickory) (order : IterationOrder) (w : AuthorityWrapper) (name : Name)
    (ip : IpAddr) : Option AuthorityWrapper :=
  (removeRecord hk order w name ip).map (·.getD w)

end Asserting

/-- The operations of the table that the program calls; a zone to add is a fresh
one. Each carries the iteration order of the hash map it searches. -/
inductive Operation where
  | add (order : IterationOrder) (name : Name) (address : IpAddr)
  | removeAddress (order : IterationOrder) (name : Name) (ip : IpAddr)
  | rename (order : IterationOrder) (oldName newName : String)
  | addReverseZone (network : IpNet) (zone : Name)
  | removeReverseZone (network : IpNet)

namespace AuthorityWrapper

/-- A zone whose handler cannot be set up is skipped. -/
def addFreshZone (hk : Hickory) (w : AuthorityWrapper) (network : IpNet) (zone : Name) :
    AuthorityWrapper :=
  match setUpAuthority hk zone with
  | none => w
  | some handler =>
    let (w, authority) := w.share handler
    w.addReverseZone network authority

def apply (hk : Hickory) (w : AuthorityWrapper) : Operation → AuthorityWrapper
  | .add order name address => w.add hk order name address
  | .removeAddress order name ip => w.removeAddress hk order name ip
  | .rename order oldName newName => (w.rename hk order oldName newName).1
  | .addReverseZone network zone => w.addFreshZone hk network zone
  | .removeReverseZone network => w.removeReverseZone network

end AuthorityWrapper

def Asserting.apply (hk : Hickory) (w : AuthorityWrapper) : Operation → Option AuthorityWrapper
  | .add order name address => upsert hk order w name address
  | .removeAddress order name ip => removeAddress hk order w name ip
  | .rename order oldName newName => (rename hk order w oldName newName).map (·.1)
  | .addReverseZone network zone => some (w.addFreshZone hk network zone)
  | .removeReverseZone network => some (w.removeReverseZone network)

end DockerDns.Source
