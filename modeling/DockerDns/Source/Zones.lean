import DockerDns.Source.Subnets

/-!
# Record maps and zone handlers

`table.rs:21-67` and `dns_listener.rs:200-218`: how a record joins or leaves
the map of a zone, and the handler a fresh zone starts from.
-/
namespace DockerDns.Source
open Library

abbrev Records := FiniteMap RrKey RecordSet

def appendToRecordSet (hk : Hickory) (records : Records) (key : RrKey) (owner : Name)
    (recordType : RecordType) (rdata : RData) : Records :=
  match records.lookup key with
  | some set => records.insert key (hk.addRdata set rdata)
  | none => records.insert key (hk.addRdata (RecordSet.withTtl owner recordType 5) rdata)

/-- The removal `remove_from_ptr_set` and `remove_record` share: `none` when the
key is vacant or the set holds no such record, else the map without it, and
without the key once its set is empty. -/
def removeFromSet (hk : Hickory) (records : Records) (key : RrKey) (record : Record) :
    Option Records :=
  match records.lookup key with
  | none => none
  | some set =>
    match hk.remove set record with
    | none => none
    | some set => some (if set.isEmpty then records.erase key else records.insert key set)

def removeFromPtrSet (hk : Hickory) (records : Records) (ip : IpAddr) (name : LowerName) :
    Records :=
  let reverse := hk.nameOfIp ip
  let ptrKey : RrKey := ⟨LowerName.new reverse, .ptr⟩
  let recordToRemove : Record := ⟨reverse, 0, .ptr name.name⟩
  (removeFromSet hk records ptrKey recordToRemove).getD records

def soaKey (origin : Name) : RrKey := ⟨LowerName.new origin, .soa⟩

def soaSet (domain : Name) : RecordSet :=
  RecordSet.ofRecord ⟨domain, 3600, .soa domain domain 0 0 0 0 0⟩

def setUpAuthority (hk : Hickory) (domain : Name) : Option InMemoryZoneHandler :=
  let tree := (∅ : Records).insert (soaKey domain) (soaSet domain)
  hk.newZoneHandler domain tree

/-- `records_mut`: an update of the records under the handler's lock. -/
def InMemoryZoneHandler.modify (zone : InMemoryZoneHandler) (f : Records → Records) :
    InMemoryZoneHandler :=
  { zone with records := f zone.records }

@[simp] theorem InMemoryZoneHandler.modify_records (zone : InMemoryZoneHandler)
    (f : Records → Records) : (zone.modify f).records = f zone.records := rfl

end DockerDns.Source
