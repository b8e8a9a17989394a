import DockerDns.Library.LockOrder
import DockerDns.Source.Table

/-!
# Which locks the tasks hold, and how long

The guards of `table.rs:77-240`, `docker/monitor.rs:256-680` and
`dns_listener.rs:88-160`, and nothing else of the code. What decides a branch or
the length of a loop is an argument: the zone that `find_reverse_authority` finds,
whether a record is there, the addresses and names of a container.
-/
namespace DockerDns.Source.Guards
open Library

inductive Lock where
  | containers
  | networks
  | catalog
  | reverseZones
  /-- the records of the forward zone, or of a reverse zone -/
  | records (zone : Option Handle)
  deriving DecidableEq

def findReverseAuthority : Locking Lock := .touch .reverseZones .read

/-- What is done in the zone that was found. -/
def inZone : Option Handle → Locking Lock
  | none => .skip
  | some zone => .touch (.records (some zone)) .write

def upsert (found : Option Handle) : Locking Lock :=
  .seq (.touch (.records none) .write) (.seq findReverseAuthority (inZone found))

def add (found : Option Handle) : Locking Lock := upsert found

/-- One turn of the loop of `rename_records`, with both zones it finds. -/
def renameRecord (ip : Option Handle × Option Handle) : Locking Lock :=
  .seq findReverseAuthority (.seq (inZone ip.1) (upsert ip.2))

/-- The addresses are empty where there is no record set. -/
def renameRecords (ips : List (Option Handle × Option Handle)) : Locking Lock :=
  .seq (.touch (.records none) .write) (.each ips renameRecord)

def rename (a aaaa : List (Option Handle × Option Handle)) : Locking Lock :=
  .seq (renameRecords a) (renameRecords aaaa)

/-- `none` where the record is not there. -/
def removeRecord : Option (Option Handle) → Locking Lock
  | none => .touch (.records none) .write
  | some found =>
    .seq (.touch (.records none) .write) (.seq findReverseAuthority (inZone found))

def removeAddress (record : Option (Option Handle)) : Locking Lock := removeRecord record

/-- One zone for each address and name, in the order of the loops. -/
def registerContainerNetworks (found : List (Option Handle)) : Locking Lock :=
  .scope .containers .write (.each found add)

def handleContainerRename (a aaaa : List (Option Handle × Option Handle)) : Locking Lock :=
  .seq (rename a aaaa) (.touch .containers .write)

def handleContainerStart (found : List (Option Handle)) : Locking Lock :=
  registerContainerNetworks found

/-- The guard is dropped before the records go. -/
def handleContainerDie (records : List (Option (Option Handle))) : Locking Lock :=
  .seq (.touch .containers .write) (.each records removeAddress)

def handleNetworkConnect (stale : List (Option (Option Handle))) (found : List (Option Handle)) :
    Locking Lock :=
  .scope .containers .write (.seq (.each stale removeAddress) (.each found add))

def handleNetworkDisconnect (records : List (Option (Option Handle))) : Locking Lock :=
  .scope .containers .write (.each records removeAddress)

def registerZone : Locking Lock :=
  .seq (.touch .reverseZones .write) (.touch .catalog .write)

def registerNetwork (zones : Nat) : Locking Lock :=
  .seq (.each (List.range zones) fun _ => registerZone) (.touch .networks .write)

/-- Whether the network has a zone name decides whether the catalog is touched. -/
def deregisterZone (named : Bool) : Locking Lock :=
  .seq (.touch .reverseZones .write) (if named then .touch .catalog .write else .skip)

def deregisterNetwork (zones : List Bool) : Locking Lock :=
  .seq (.touch .networks .write) (.each zones deregisterZone)

/-- `none` where the network is known already or its inspection fails. -/
def handleNetworkCreate : Option Nat → Locking Lock
  | none => .touch .networks .write
  | some zones => .seq (.touch .networks .write) (registerNetwork zones)

def handleNetworkDestroy (zones : List Bool) : Locking Lock := deregisterNetwork zones

/-- What an event makes the monitor do, with what its handler finds. -/
inductive Handling where
  /-- the handler returns before it takes a lock -/
  | ignored
  | containerStart (found : List (Option Handle))
  | containerRename (a aaaa : List (Option Handle × Option Handle))
  /-- no records where no state is kept of the container -/
  | containerDie (records : List (Option (Option Handle)))
  | networkConnect (stale : List (Option (Option Handle))) (found : List (Option Handle))
  | networkDisconnect (records : List (Option (Option Handle)))
  | networkCreate (zones : Option Nat)
  | networkDestroy (zones : List Bool)

def handleEvent : Handling → Locking Lock
  | .ignored => .skip
  | .containerStart found => handleContainerStart found
  | .containerRename a aaaa => handleContainerRename a aaaa
  | .containerDie records => handleContainerDie records
  | .networkConnect stale found => handleNetworkConnect stale found
  | .networkDisconnect records => handleNetworkDisconnect records
  | .networkCreate zones => handleNetworkCreate zones
  | .networkDestroy zones => handleNetworkDestroy zones

/-- `start`, then the events. -/
def dockerEventMonitor (networks : List Nat) (containers : List (List (Option Handle)))
    (events : List Handling) : Locking Lock :=
  .seq (.each networks registerNetwork)
    (.seq (.each containers registerContainerNetworks) (.each events handleEvent))

/-- The guard of the catalog is held until the library has answered. -/
def handleRequest (intercepted : Bool) (lookup : Locking Lock) : Locking Lock :=
  if intercepted then .skip else .scope .catalog .read lookup

/-- The monitor beside any number of queries. -/
def tasks {ι : Type} (monitor : Locking Lock) (queries : ι → Locking Lock) :
    Option ι → Locking Lock
  | none => monitor
  | some query => queries query

end DockerDns.Source.Guards
