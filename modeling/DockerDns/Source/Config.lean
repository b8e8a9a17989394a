import DockerDns.Source.AddressTexts
import DockerDns.Source.Listener

/-!
# The configured records

`config.rs:32-41,112-140`: static records are given as `name:ip` or
`name:[ipv6]`, separated by commas, in one text or in several.
-/
namespace DockerDns.Source

/-- `str::split_once` -/
def splitOnce (delimiter : Char) : List Char → Option (List Char × List Char)
  | [] => none
  | c :: text =>
    if c = delimiter then some ([], text)
    else (splitOnce delimiter text).map fun parts => (c :: parts.1, parts.2)

/-- The address of a record: in brackets an IPv6 one, else an IPv4 one. -/
def parseAddr (addrStr : List Char) : Except String IpAddr :=
  if addrStr.head? = some '[' ∧ addrStr.getLast? = some ']' then
    match parseIpv6Addr addrStr.tail.dropLast with
    | some addr => .ok (.v6 addr)
    | none => .error "invalid IPv6 address syntax"
  else
    match parseIpv4Addr addrStr with
    | some addr => .ok (.v4 addr)
    | none => .error "invalid IPv4 address syntax"

/-- `nameError` is what the library says of a text that is no name. -/
def parseRecord (hk : Hickory) (nameError : List Char → String) (value : List Char) :
    Except String RawRecord :=
  match splitOnce ':' value with
  | none => .error ("expected `name:ip` or `name:[ipv6]`, got `" ++ String.ofList value ++ "`")
  | some (nameStr, addrStr) =>
    match parseAddr addrStr with
    | .error error => .error error
    | .ok addr =>
      match hk.parse (String.ofList nameStr) with
      | none => .error (nameError nameStr)
      | some name => .ok ⟨{ name with fqdn := true }, addr⟩

/-- `value_delimiter`: each value of the command line is split at its commas. -/
def delimited (values : List String) : List (List Char) :=
  values.flatMap fun value => value.toList.splitOn ','

/-- The first failure is reported. -/
def parseRecords (hk : Hickory) (nameError : List Char → String) (values : List String) :
    Except String (List RawRecord) :=
  (delimited values).mapM (parseRecord hk nameError)

end DockerDns.Source
