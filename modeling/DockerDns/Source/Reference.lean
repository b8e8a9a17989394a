import DockerDns.Library.Splitting
import DockerDns.Source.Domain
import DockerDns.Source.Listener
import DockerDns.Source.Monitor

/-!
# Executable crates

One concrete behaviour of the crates the program calls, as their documentation
describes it: the model runs on it, and it shows that the laws the results rely
on can be met together.
-/
namespace DockerDns.Source
open Library

namespace Reference

/-- Letters, digits, underscores and hyphens, no hyphen in front; or the wildcard. -/
def validLabel (label : Label) : Bool :=
  label == ['*'] || (label ≠ [] && label.length ≤ 63 && label.head? != some '-' &&
    label.all fun c => c.isAlphanum || c == '-' || c == '_')

def fits (name : Name) : Option Name := if name.encodedLength ≤ 255 then some name else none

/-- The labels between the dots of a text. -/
def splitDots : List Char → Label → List Label
  | [], label => [label.reverse]
  | '.' :: rest, label => label.reverse :: splitDots rest []
  | c :: rest, label => splitDots rest (c :: label)

/-- A trailing dot makes an absolute name; the dot alone is the root. -/
def parse (s : String) : Option Name :=
  if s = "." then some ⟨[], true⟩
  else if s = "" then some ⟨[], false⟩
  else
    let pieces := splitDots s.toList []
    let absolute := pieces.getLast? == some []
    let labels := if absolute then pieces.dropLast else pieces
    if labels.all validLabel then fits ⟨labels, absolute⟩ else none

def display (name : Name) : String :=
  String.ofList (List.intercalate ['.'] name.labels ++
    if name.fqdn || name.labels.isEmpty then ['.'] else [])

def addRdata (set : RecordSet) (rdata : RData) : RecordSet :=
  if rdata.lower ∈ set.data then set else { set with records := set.records ++ [rdata] }

def remove (set : RecordSet) (record : Record) : Option RecordSet :=
  if record.data.lower ∈ set.data then
    some { set with records := set.records.filter fun r => r.lower != record.data.lower }
  else none

def hickory : Hickory where
  parse := parse
  fromStrRelaxed := parse
  display := display
  fromLabels labels := if labels.all validLabel then fits ⟨labels, true⟩ else none
  appendDomain name domain := fits ⟨name.labels ++ domain.labels, true⟩
  nameOfIp := standardReverseName
  addRdata := addRdata
  remove := remove
  newZoneHandler origin records :=
    if (records.lookup (soaKey origin)).isSome then some ⟨origin, records⟩ else none

def ipnet : Ipnet where
  subnetsV4 net q :=
    if bound : q ≤ 32 then if net.prefixLen ≤ q then some (net.subnets q bound) else none else none
  subnetsV6 net q :=
    if bound : q ≤ 128 then if net.prefixLen ≤ q then some (net.subnets q bound) else none else none

def regex : Regex := ⟨fun c => c.isAlphanum || c == '_', Char.isDigit⟩

theorem hickory_recordLaws : hickory.RecordLaws where
  addRdata set rdata _ _ _ := by
    refine ⟨?_, ?_, ?_⟩ <;> simp only [hickory, addRdata]
    · split <;> rfl
    · split <;> rfl
    · split
      next member => rw [List.insert_of_mem member]
      next absent =>
        rw [List.insert_of_not_mem absent]
        simp [RecordSet.data, List.perm_append_singleton]
  remove_present set record _ _ _ distinct member := by
    refine ⟨{ set with records := set.records.filter fun r => r.lower != record.data.lower }, ?_,
      rfl, rfl, ?_⟩
    · simp only [hickory, remove, if_pos member]
    · rw [distinct.erase_eq_filter]
      apply List.Perm.of_eq
      simp only [RecordSet.data, List.filter_map]
      rfl
  remove_absent set record _ _ _ _ absent := by
    simp only [hickory, remove, if_neg absent]
  newZoneHandler soa _ := by
    simp [hickory, soaKey, FiniteMap.lookup_insert]

theorem hickory_keepLaws : hickory.KeepLaws where
  addRdata_head set rdata _ _ := by
    simp only [hickory, addRdata]
    split <;> exact ⟨rfl, rfl, rfl⟩
  addRdata_keeps set rdata _ _ := by
    simp only [hickory, addRdata]
    split
    · exact List.Subset.refl _
    · exact List.subset_append_left _ _
  addRdata_adds set rdata _ _ := by
    simp only [hickory, addRdata]
    split
    · exact List.subset_cons_self _ _
    · intro r member
      simpa [or_comm] using member
  remove_head set record after removed := by
    simp only [hickory, remove] at removed
    split at removed
    · cases removed
      exact ⟨rfl, rfl, rfl⟩
    · cases removed
  remove_keeps set record after removed := by
    simp only [hickory, remove] at removed
    split at removed
    · cases removed
      exact List.filter_sublist.subset
    · cases removed

theorem validLabel_numeral {label : Label} (numeral : label.Numeral) : validLabel label = true := by
  rcases numeral with ⟨octet, small, rfl⟩ | ⟨nibble, small, rfl⟩
  · have digits : ∀ c ∈ Nat.toDigits 10 octet, c.isDigit = true :=
      fun c => Nat.isDigit_of_mem_toDigits (by omega) (by omega)
    have nonempty : Nat.toDigits 10 octet ≠ [] := Nat.toDigits_ne_nil
    have short : (Nat.toDigits 10 octet).length ≤ 3 :=
      (Nat.length_toDigits_le_iff (by omega) (by omega)).mpr (by omega)
    have front : (Nat.toDigits 10 octet).head? ≠ some '-' :=
      fun head => absurd (digits '-' (List.mem_of_head? head)) (by decide)
    have chars : (Nat.toDigits 10 octet).all (fun c => c.isAlphanum || c == '-' || c == '_') = true :=
      List.all_eq_true.mpr fun c member => by simp [Char.isAlphanum, digits c member]
    simp only [validLabel, Bool.or_eq_true, Bool.and_eq_true, decide_eq_true_eq, bne_iff_ne]
    exact .inr ⟨⟨⟨nonempty, by omega⟩, front⟩, chars⟩
  · have all : ∀ nibble < 2 ^ 4, validLabel (Nat.toDigits 16 nibble) = true := by decide
    exact all nibble small

theorem hickory_nameLaws : hickory.NameLaws where
  nameOfIp _ := rfl
  inAddrArpa := by decide
  ip6Arpa := by decide
  fromLabels labels numerals short := by
    have valid : labels.all validLabel = true :=
      List.all_eq_true.mpr fun label member => validLabel_numeral (numerals label member)
    simp only [hickory, valid, if_true, fits, if_pos short]
  appendDomain name domain short := by
    simp only [hickory, fits, if_pos short]

theorem splitDots_eq (text label : List Char) :
    splitDots text label = (text.splitOn '.').modifyHead (label.reverse ++ ·) := by
  induction text generalizing label with
  | nil => simp [splitDots, List.splitOn_nil]
  | cons c rest ih =>
    rw [List.splitOn_cons_eq_if_modifyHead]
    by_cases dot : c = '.'
    · subst dot
      have unchanged : (rest.splitOn '.').modifyHead (fun piece => piece) = rest.splitOn '.' := by
        cases rest.splitOn '.' <;> rfl
      simp [splitDots, ih, unchanged]
    · rw [splitDots.eq_3 _ _ _ (fun same => dot same), ih, if_neg (by simpa using dot),
        List.modifyHead_modifyHead]
      congr 1
      funext piece
      simp

theorem parse_text {s : String} (nonempty : s ≠ "") (notRoot : s ≠ ".") :
    parse s = if (textName s).labels.all validLabel then fits (textName s) else none := by
  have pieces : splitDots s.toList [] = s.toList.splitOn '.' := by
    rw [splitDots_eq]
    cases s.toList.splitOn '.' <;> rfl
  have chars : s.toList ≠ [] := fun empty => nonempty (String.toList_eq_nil_iff.mp empty)
  simp only [parse, if_neg nonempty, if_neg notRoot, pieces, textName]
  by_cases dot : s.toList.getLast? = some '.'
  · obtain ⟨init, spelled⟩ : ∃ init, s.toList = init ++ ['.'] := List.getLast?_eq_some_iff.mp dot
    simp [spelled, splitOn_concat_self]
  · have last : ((s.toList.splitOn '.').getLast? == some []) = false := by
      rw [beq_eq_false_iff_ne, ne_eq, getLast?_splitOn]
      exact fun ends => ends.elim chars dot
    simp [dot, last]

theorem hickory_textLaws : hickory.TextLaws (validLabel · = true) where
  label label valid := by
    simp only [validLabel, Bool.or_eq_true, Bool.and_eq_true, decide_eq_true_eq, List.all_eq_true,
      beq_iff_eq] at valid
    rcases valid with rfl | ⟨⟨⟨nonempty, bounded⟩, _⟩, chars⟩
    · decide
    refine ⟨nonempty, bounded, fun member => ?_, fun member => ?_⟩
    · exact absurd (chars _ member) (by decide)
    · exact absurd (chars _ member) (by decide)
  root := rfl
  empty := rfl
  parse s nonempty notRoot valid short := by
    refine ⟨textName s, ?_, rfl, valid⟩
    simp only [hickory, parse_text nonempty notRoot, fits, if_pos short]
    rw [if_pos (List.all_eq_true.mpr valid)]
  reject s nonempty notRoot unfit := by
    simp only [hickory, parse_text nonempty notRoot, fits]
    split_ifs with valid short
    · exact absurd ⟨List.all_eq_true.mp valid, short⟩ unfit
    · rfl
    · rfl
  display labels := by
    simp [hickory, display]
  append := hickory_nameLaws.appendDomain
  append_long name domain long := by
    simp only [hickory, fits, if_neg (Nat.not_le.mpr long)]

theorem regex_laws : regex.Laws where
  word c member := by
    rcases member with alphanum | rfl
    · simp [regex, alphanum]
    · rfl
  slash := ⟨rfl, rfl⟩

theorem ipnet_laws : ipnet.Laws where
  subnetsV4 net q bound longer := by simp [ipnet, bound, longer]
  subnetsV6 net q bound longer := by simp [ipnet, bound, longer]

/-- A polynomial hash of the values, names in lower case. -/
def hasher : Hasher where
  a _ addr := addr.toNat
  aaaa _ addr := addr.toNat
  ptr _ name := name.toLowercase.labels.foldl
    (fun h label => label.foldl (fun h c => (31 * h + c.toNat) % 2 ^ 64) (h + 1)) 0

theorem hasher_ignoresCase : hasher.IgnoresCase := by
  intro t a b same
  simp only [hasher, same]

/-- The served domain `docker.`, the default of the command line. -/
def env : Env := ⟨hickory, ipnet, regex, ⟨["docker".toList], true⟩⟩

/-- The monitor `start_tasks` builds over these crates. -/
def monitor : Monitor :=
  .new env ⟨env.domain, (∅ : Records).insert (soaKey env.domain) (soaSet env.domain)⟩

def mapOf {κ α : Type} [DecidableEq κ] (entries : List (κ × α)) : FiniteMap κ α :=
  entries.foldr (fun entry m => m.insert entry.1 entry.2) ∅

def name (labels : List String) : Name := ⟨labels.map String.toList, true⟩

def v4 (addr : Ipv4Addr) : ContainerNetwork := ⟨some addr, none⟩

/-- 172.17.0.0/16, the subnet of Docker's default network. -/
def bridge : IpNet := .v4 ⟨0xac110000#32, 16, by decide⟩

/-- 172.18.0.0/16, the subnet of the next network. -/
def shop : IpNet := .v4 ⟨0xac120000#32, 16, by decide⟩

theorem shop_disjoint : shop.Disjoint bridge := by
  rintro (addr | addr) ⟨inShop, inBridge⟩
  · have first : leading 16 addr = leading 16 0xac120000#32 := beq_iff_eq.mp inShop
    have second : leading 16 addr = leading 16 0xac110000#32 := beq_iff_eq.mp inBridge
    exact absurd (first.symm.trans second) (by decide)
  · cases inShop

def startEvent (id : String) (inspect : Option ContainerInspect) : Input where
  event := ⟨.container, "start", ⟨id, ∅⟩⟩
  inspectContainer := inspect

def dieEvent (id : String) : Input where
  event := ⟨.container, "die", ⟨id, ∅⟩⟩

def renameEvent (id oldName newName : String) (labels : List (String × String)) : Input where
  event := ⟨.container, "rename", ⟨id, mapOf ([("oldName", oldName), ("name", newName)] ++ labels)⟩⟩

def connectEvent (id network : String) (inspect : Option ContainerInspect) : Input where
  event := ⟨.network, "connect", ⟨"net-id", mapOf [("container", id), ("name", network)]⟩⟩
  inspectContainer := inspect

def disconnectEvent (id network : String) : Input where
  event := ⟨.network, "disconnect", ⟨"net-id", mapOf [("container", id), ("name", network)]⟩⟩

def createEvent (id : String) (subnets : List IpNet) : Input where
  event := ⟨.network, "create", ⟨id, ∅⟩⟩
  inspectNetwork := some ⟨subnets.map some⟩

def destroyEvent (id : String) : Input where
  event := ⟨.network, "destroy", ⟨id, ∅⟩⟩

theorem env_started : startTasks env = some monitor := by
  have zone : setUpAuthority hickory env.domain = some
      ⟨env.domain, (∅ : Records).insert (soaKey env.domain) (soaSet env.domain)⟩ :=
    hickory_recordLaws.newZoneHandler ⟨env.domain, 3600, .soa env.domain env.domain 0 0 0 0 0⟩ rfl
  simp only [startTasks, monitor]
  rw [show setUpAuthority env.hickory env.domain = _ from zone]
  rfl

end Reference
end DockerDns.Source
