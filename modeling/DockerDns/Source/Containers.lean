import DockerDns.Source.Table

/-!
# Containers: addresses and names

`docker/monitor.rs:27-153`: what the Docker client reports of a container, the
addresses one network gives it, and the DNS names it is registered under.
-/
namespace DockerDns.Source
open Library

inductive NetworkIps where
  | v4Only (v4 : Ipv4Addr)
  | v6Only (v6 : Ipv6Addr)
  | both (v4 : Ipv4Addr) (v6 : Ipv6Addr)
  deriving DecidableEq, Repr

structure ContainerNetwork where
  ipAddress : Option Ipv4Addr
  globalIpv6Address : Option Ipv6Addr
  deriving DecidableEq, Repr

namespace NetworkIps

def fromNetwork (network : ContainerNetwork) : Option NetworkIps :=
  match network.ipAddress, network.globalIpv6Address with
  | some v4, some v6 => some (.both v4 v6)
  | some v4, none => some (.v4Only v4)
  | none, some v6 => some (.v6Only v6)
  | none, none => none

def ips : NetworkIps → List IpAddr
  | .v4Only v4 => [.v4 v4]
  | .v6Only v6 => [.v6 v6]
  | .both v4 v6 => [.v4 v4, .v6 v6]

end NetworkIps

/-- What `inspect_container` reports that the monitor reads; the order of the
entries of `networks` is the order the program iterates them in. -/
structure ContainerInspect where
  name : String
  labels : FiniteMap String String
  networks : FiniteMap String ContainerNetwork

/-- What `list_containers` reports that the monitor reads. -/
structure ContainerSummary where
  id : String
  state : String
  names : List String
  networks : FiniteMap String ContainerNetwork

inductive EventType where
  | builder | config | container | daemon | image | network | node | plugin | secret | service
  | volume
  deriving DecidableEq, Repr

structure Actor where
  id : String
  attributes : FiniteMap String String

structure Event where
  type : EventType
  action : String
  actor : Actor

/-- The classes of the regular expression crate that `RE_VALIDNAME` names. -/
structure Regex where
  /-- `\w` -/
  isWord : Char → Bool
  /-- `\d` -/
  isDigit : Char → Bool

/-- The classes hold ASCII letters, digits and the underscore, not the slash. -/
structure Regex.Laws (regex : Regex) : Prop where
  word : ∀ c, c.isAlphanum ∨ c = '_' → regex.isWord c = true
  slash : regex.isWord '/' = false ∧ regex.isDigit '/' = false

/-- `RE_VALIDNAME.replace_all(name, "")`: what is not in `[\w\d.-]` goes. -/
def sanitize (regex : Regex) (name : String) : String :=
  String.ofList (name.toList.filter fun c => regex.isWord c || regex.isDigit c || c == '.' || c == '-')

/-- `str::parse::<usize>`: an optional plus sign, then digits, within 64 bits. -/
def parseUsize (s : String) : Option Nat :=
  let digits := match s.toList with
    | '+' :: rest => rest
    | cs => cs
  if digits ≠ [] ∧ digits.all Char.isDigit then
    let value := Nat.ofDigitChars 10 digits 0
    if value < 2 ^ 64 then some value else none
  else none

def appendComposeNames (names : List String) (bag : FiniteMap String String) : List String :=
  let inst := ((bag.lookup "com.docker.compose.container-number").bind parseUsize).getD 1
  match bag.lookup "com.docker.compose.service", bag.lookup "com.docker.compose.project" with
  | some service, some project =>
    let names := names ++ [Nat.repr inst ++ "." ++ service ++ "." ++ project]
    if inst = 1 then names ++ [service ++ "." ++ project] else names
  | _, _ => names

def getAllNamesFromEvent (regex : Regex) (event : Event) : List String :=
  let names := match event.actor.attributes.lookup "name" with
    | some name => [sanitize regex name]
    | none => []
  appendComposeNames names event.actor.attributes

def getAllNamesFromInspect (regex : Regex) (container : ContainerInspect) : List String :=
  appendComposeNames [sanitize regex container.name] container.labels

def toFullNames (hk : Hickory) (raw : List String) (domain : Name) : List Name :=
  raw.filterMap fun name => (hk.parse name).bind fun parsed => hk.appendDomain parsed domain

end DockerDns.Source
