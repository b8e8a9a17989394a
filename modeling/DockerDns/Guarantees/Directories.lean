import DockerDns.Guarantees.ReverseAnswers
import DockerDns.Library.Links
import Mathlib.Logic.Function.Basic

/-!
# What the table is for

A directory of containers, networks and links between names and addresses, with
one rule for each request. It knows no stores, handlers or iteration orders, and
no pointer records: a reverse answer is the converse of a link to a covered
address, unless the link is late.
-/
namespace DockerDns.Guarantees
open Library Source

structure Entry where
  names : LowerName → Prop
  networks : String → Option NetworkIps

structure Directory where
  containers : String → Option Entry
  networks : FiniteMap String (List IpNet)
  zones : IpNet → Prop
  links : Links LowerName IpAddr

def entryOf (state : ContainerState) : Entry := ⟨Named state.names, state.networks.lookup⟩

/-- What an inspect result reports about a network. -/
def reported (networks : FiniteMap String ContainerNetwork) (net : String) : Option NetworkIps :=
  (networks.lookup net).bind NetworkIps.fromNetwork

namespace Directory

def empty : Directory := ⟨fun _ => none, ∅, fun _ => False, .empty⟩

def covered (d : Directory) (ip : IpAddr) : Prop := ∃ net, d.zones net ∧ net.contains ip = true

def entry (d : Directory) (id : String) (names : List Name) : Entry :=
  (d.containers id).getD ⟨Named names, fun _ => none⟩

/-- The entry of a container, and the links that change with it. -/
def update (d : Directory) (id : String) (entry : Option Entry) (links : Links LowerName IpAddr) :
    Directory :=
  { d with containers := Function.update d.containers id entry, links }

def perform (d : Directory) : Request → Directory
  | .nothing => d
  | .register id names networks =>
    let entry := d.entry id names
    d.update id (some { entry with
        networks := fun net => (reported networks net).or (entry.networks net) })
      (d.links.link fun n ip => entry.names n ∧ ∃ net ips, reported networks net = some ips ∧
        ip ∈ ips.ips)
  | .rename id old new names =>
    d.update id ((d.containers id).map fun entry => { entry with names := Named names })
      (d.links.rekey (.new old) (.new new))
  | .die id =>
    match d.containers id with
    | none => d
    | some entry => d.update id none (d.links.unlink fun n ip => entry.names n ∧
        ∃ net ips, entry.networks net = some ips ∧ ip ∈ ips.ips)
  | .connect id net names ips =>
    let entry := d.entry id names
    d.update id (some { entry with networks := Function.update entry.networks net (some ips) })
      (if entry.networks net = some ips then d.links
      else (d.links.unlink fun n ip => entry.names n ∧
        ∃ old, entry.networks net = some old ∧ ip ∈ old.ips).link
        fun n ip => entry.names n ∧ ip ∈ ips.ips)
  | .disconnect id net =>
    match d.containers id with
    | none => d
    | some entry =>
      match entry.networks net with
      | none => d
      | some ips => d.update id (some { entry with
            networks := Function.update entry.networks net none })
          (d.links.unlink fun n ip => entry.names n ∧ ip ∈ ips.ips)
  | .registerNetwork id config =>
    let nets := config.reduceOption.flatMap blocks
    { d with
      networks := d.networks.insert id nets
      zones := fun net => net ∈ nets ∨ d.zones net
      links := d.links.cover fun ip => ∃ net ∈ nets, net.contains ip = true }
  | .deregisterNetwork id =>
    match d.networks.lookup id with
    | none => d
    | some nets =>
      { d with
        networks := d.networks.erase id
        zones := fun net => d.zones net ∧ net ∉ nets }

end Directory

/-- What a step asks for where these networks are registered. -/
def asked (env : Env) (networks : FiniteMap String (List IpNet)) (s : Step) : Request :=
  request env { Monitor.new env ⟨env.domain, ∅⟩ with networks } s

def Directory.step (env : Env) (d : Directory) (s : Step) : Directory :=
  d.perform (asked env d.networks s)

/-- A request looks at nothing but the network table. -/
theorem asked_eq (env : Env) (m : Monitor) (s : Step) :
    asked env m.networks s = request env m s := by
  cases s <;> rfl

section Pointers
variable {hk : Hickory} {zones : IpNet → Handle → Prop} {cover : IpAddr → Option Handle}
variable {before : Fact → Prop} {pairs : LowerName → IpAddr → Prop} {n old new : LowerName}
  {ip : IpAddr}

/-- A pointer of the address, in a zone that contains it. -/
def PointsIn (hk : Hickory) (zones : IpNet → Handle → Prop) (facts : Fact → Prop) (ip : IpAddr)
    (n : LowerName) : Prop :=
  ∃ net authority, zones net authority ∧ net.contains ip = true ∧
    facts (.pointer authority (reverseKey hk ip) n)

def CoveredBy (zones : IpNet → Handle → Prop) (ip : IpAddr) : Prop :=
  ∃ net authority, zones net authority ∧ net.contains ip = true

theorem pointsIn_added (names : hk.NameLaws) (covers : Covers zones cover) :
    PointsIn hk zones (Added hk cover pairs before) ip n ↔
      PointsIn hk zones before ip n ∨ (pairs n ip ∧ CoveredBy zones ip) := by
  constructor
  · rintro ⟨net, authority, zone, inside, old | ⟨n', ip', pair, _, same, rfl⟩⟩
    · exact .inl ⟨net, authority, zone, inside, old⟩
    · obtain rfl := reverseKey_inj names same
      exact .inr ⟨pair, net, authority, zone, inside⟩
  · rintro (⟨net, authority, zone, inside, held⟩ | ⟨pair, net, authority, zone, inside⟩)
    · exact ⟨net, authority, zone, inside, .inl held⟩
    · have covered := (covers.exact ip authority).mpr ⟨net, zone, inside⟩
      exact ⟨net, authority, zone, inside, .inr ⟨n, ip, pair, covered, rfl, rfl⟩⟩

theorem pointsIn_removed (names : hk.NameLaws) (covers : Covers zones cover) :
    PointsIn hk zones (Removed hk cover pairs before) ip n ↔
      PointsIn hk zones before ip n ∧ ¬ (pairs n ip ∧ before (.address n ip)) := by
  constructor
  · rintro ⟨net, authority, zone, inside, held, spared⟩
    refine ⟨⟨net, authority, zone, inside, held⟩, fun gone => spared ?_⟩
    have covered := (covers.exact ip authority).mpr ⟨net, zone, inside⟩
    exact ⟨n, ip, gone.1, gone.2, covered, rfl, rfl⟩
  · rintro ⟨⟨net, authority, zone, inside, held⟩, spared⟩
    refine ⟨net, authority, zone, inside, held, ?_⟩
    rintro ⟨n', ip', pair, address, _, same, rfl⟩
    obtain rfl := reverseKey_inj names same
    exact spared ⟨pair, address⟩

theorem pointsIn_renamed (names : hk.NameLaws) (covers : Covers zones cover)
    {moved : IpAddr → Prop} : PointsIn hk zones (Renamed hk cover old new moved before) ip n ↔
      (PointsIn hk zones before ip n ∧ ¬ (n = old ∧ moved ip)) ∨
        (n = new ∧ moved ip) ∧ CoveredBy zones ip := by
  constructor
  · rintro ⟨net, authority, zone, inside, ⟨held, spared⟩ | ⟨ip', moves, _, same, rfl⟩⟩
    · refine .inl ⟨⟨net, authority, zone, inside, held⟩, fun gone => spared ?_⟩
      have covered := (covers.exact ip authority).mpr ⟨net, zone, inside⟩
      exact ⟨ip, gone.2, covered, rfl, gone.1⟩
    · obtain rfl := reverseKey_inj names same
      exact .inr ⟨⟨rfl, moves⟩, net, authority, zone, inside⟩
  · rintro (⟨⟨net, authority, zone, inside, held⟩, spared⟩ |
      ⟨⟨rfl, moves⟩, net, authority, zone, inside⟩)
    · refine ⟨net, authority, zone, inside, .inl ⟨held, ?_⟩⟩
      rintro ⟨ip', moves, _, same, rfl⟩
      obtain rfl := reverseKey_inj names same
      exact spared ⟨rfl, moves⟩
    · have covered := (covers.exact ip authority).mpr ⟨net, zone, inside⟩
      exact ⟨net, authority, zone, inside, .inr ⟨ip, moves, covered, rfl, rfl⟩⟩

end Pointers

/-- The links are the address records, and their mirror the pointers. -/
structure Agrees (hk : Hickory) (zones : IpNet → Handle → Prop) (covered : IpAddr → Prop)
    (links : Links LowerName IpAddr) (facts : Fact → Prop) : Prop where
  addresses : ∀ n ip, links.held n ip ↔ facts (.address n ip)
  pointers : ∀ ip n, links.mirror covered ip n ↔ PointsIn hk zones facts ip n

section Agreement
variable {hk : Hickory} {zones : IpNet → Handle → Prop} {cover : IpAddr → Option Handle}
  {covered : IpAddr → Prop} {links : Links LowerName IpAddr} {before : Fact → Prop}
variable (names : hk.NameLaws) (covers : Covers zones cover)
include names covers

theorem Agrees.added (agrees : Agrees hk zones covered links before)
    (coverage : ∀ ip, covered ip ↔ CoveredBy zones ip) (pairs : LowerName → IpAddr → Prop) :
    Agrees hk zones covered (links.link pairs) (Added hk cover pairs before) where
  addresses n ip := (or_congr_left (agrees.addresses n ip)).trans added_address.symm
  pointers ip n := by
    rw [Links.mirror_link, pointsIn_added names covers, agrees.pointers, coverage]

theorem Agrees.removed (agrees : Agrees hk zones covered links before)
    (pairs : LowerName → IpAddr → Prop) :
    Agrees hk zones covered (links.unlink pairs) (Removed hk cover pairs before) where
  addresses n ip := (and_congr_left' (agrees.addresses n ip)).trans removed_address.symm
  pointers ip n := by
    rw [Links.mirror_unlink, pointsIn_removed names covers, ← agrees.pointers]
    refine and_congr_right fun served => not_congr ?_
    exact (and_iff_left ((agrees.addresses n ip).mp served.1)).symm

theorem Agrees.renamed (agrees : Agrees hk zones covered links before)
    (coverage : ∀ ip, covered ip ↔ CoveredBy zones ip) (old new : LowerName) :
    Agrees hk zones covered (links.rekey old new)
      (Renamed hk cover old new (fun ip => before (.address old ip)) before) where
  addresses n ip := by
    rw [renamed_address, ← agrees.addresses, ← agrees.addresses]
    exact Iff.rfl
  pointers ip n := by
    rw [Links.mirror_rekey, pointsIn_renamed names covers, agrees.pointers, coverage,
      agrees.addresses]

end Agreement

/-- The tables hold what the directory says. -/
structure Describes (env : Env) (d : Directory) (m : Monitor) : Prop where
  containers : ∀ id, d.containers id = (m.containers.lookup id).map entryOf
  networks : d.networks = m.networks
  zones : ∀ net, d.zones net ↔ ∃ authority, zonesOf m net authority
  links : Agrees env.hickory (zonesOf m) d.covered d.links (Has m.authorityWrapper)

end DockerDns.Guarantees
