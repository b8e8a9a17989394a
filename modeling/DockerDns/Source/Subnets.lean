import DockerDns.Library.Blocks
import DockerDns.Source.Records

/-!
# Subnet expansion and reverse zone names

`docker/monitor.rs:155-237`. A subnet is expanded to blocks on octet (IPv4) or
nibble (IPv6) boundaries, each with the name of its reverse zone. The
enumeration of sub-blocks is the `ipnet` crate's, a field of `Ipnet`.
-/
namespace DockerDns.Source
open Library

inductive IpNet where
  | v4 (net : Block 32)
  | v6 (net : Block 128)
  deriving DecidableEq, Repr

namespace IpNet

def contains : IpNet → IpAddr → Bool
  | .v4 net, .v4 addr => net.contains addr
  | .v6 net, .v6 addr => net.contains addr
  | _, _ => false

/-- Two subnets that share no address, whatever their families. -/
def Disjoint (s t : IpNet) : Prop := ∀ ip, ¬ (s.contains ip = true ∧ t.contains ip = true)

instance : Std.Symm IpNet.Disjoint := ⟨fun _ _ disjoint ip both => disjoint ip both.symm⟩

def prefixLen : IpNet → Nat
  | .v4 net => net.prefixLen
  | .v6 net => net.prefixLen

def Aligned : IpNet → Prop
  | .v4 net => net.Aligned
  | .v6 net => net.Aligned

end IpNet

/-- `Ipv4Net::subnets` and `Ipv6Net::subnets`, `none` on a prefix length error. -/
structure Ipnet where
  subnetsV4 : Block 32 → Nat → Option (List (Block 32))
  subnetsV6 : Block 128 → Nat → Option (List (Block 128))

/-- The crate enumerates the sub-networks of the truncated network in order. -/
structure Ipnet.Laws (ipnet : Ipnet) : Prop where
  subnetsV4 : ∀ (net : Block 32) (q : Nat) (bound : q ≤ 32), net.prefixLen ≤ q →
    ipnet.subnetsV4 net q = some (net.subnets q bound)
  subnetsV6 : ∀ (net : Block 128) (q : Nat) (bound : q ≤ 128), net.prefixLen ≤ q →
    ipnet.subnetsV6 net q = some (net.subnets q bound)

def octetBoundary : Nat := 8
def nibbleBoundary : Nat := 4

/-- `prefix_len().max(1).div_ceil(unit) * unit`; no prefix overflows `u8` here. -/
def boundary (unit prefixLen : Nat) : Nat := (max prefixLen 1 + (unit - 1)) / unit * unit

def parseSubnetIpv4 (ipnet : Ipnet) (net : Block 32) : List IpNet :=
  ((ipnet.subnetsV4 net (boundary octetBoundary net.prefixLen)).getD []).map .v4

def parseSubnetIpv6 (ipnet : Ipnet) (net : Block 128) : List IpNet :=
  ((ipnet.subnetsV6 net (boundary nibbleBoundary net.prefixLen)).getD []).map .v6

/-- Nibble `i` of an IPv6 address, the most significant first. -/
def nibble (octets : List Nat) (i : Nat) : Nat :=
  if i % 2 = 0 then octets.getD (i / 2) 0 >>> 4 else octets.getD (i / 2) 0 &&& 0x0f

def zoneName (hk : Hickory) : IpNet → Option Name
  | .v4 net => do
    let domain ← hk.fromStrRelaxed "in-addr.arpa"
    let byteCount := net.prefixLen / 8
    let labels := ((octets net.addr).take byteCount).reverse.map (Nat.toDigits 10)
    let name ← hk.fromLabels labels
    hk.appendDomain name domain
  | .v6 net => do
    let domain ← hk.fromStrRelaxed "ip6.arpa"
    let nibbleCount := net.prefixLen / 4
    let octets := octets6 net.addr
    let labels := (List.range nibbleCount).reverse.map fun i => Nat.toDigits 16 (nibble octets i)
    let name ← hk.fromLabels labels
    hk.appendDomain name domain

/-- The blocks of a subnet with their zone names; a block without one is skipped. -/
def parseSubnet (hk : Hickory) (ipnet : Ipnet) (network : IpNet) : List (IpNet × Name) :=
  let nets := match network with
    | .v4 net => parseSubnetIpv4 ipnet net
    | .v6 net => parseSubnetIpv6 ipnet net
  nets.filterMap fun n => (zoneName hk n).map fun name => (n, name)

end DockerDns.Source
