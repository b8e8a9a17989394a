import DockerDns.Guarantees.AddressTexts
import DockerDns.Source.Config

/-!
# Which texts are records
-/
namespace DockerDns.Guarantees
open Source

section Texts
variable {hk : Hickory} {nameError : List Char → String} {text value : List Char} {r : RawRecord}

def AddressText (text : List Char) : IpAddr → Prop
  | .v4 addr => DottedText text addr
  | .v6 addr => ∃ inner, text = '[' :: (inner ++ [']']) ∧ Ipv6Text inner addr

/-- A name and an address with a colon between them. -/
def RecordText (hk : Hickory) (text : List Char) (r : RawRecord) : Prop :=
  ∃ nameStr addrStr name, text = nameStr ++ ':' :: addrStr ∧ ':' ∉ nameStr ∧
    AddressText addrStr r.addr ∧ hk.parse (String.ofList nameStr) = some name ∧
    r.name = { name with fqdn := true }

theorem splitOnce_iff {delimiter : Char} {front back : List Char} :
    splitOnce delimiter text = some (front, back) ↔
      text = front ++ delimiter :: back ∧ delimiter ∉ front := by
  induction text generalizing front with
  | nil => simp [splitOnce]
  | cons c text ih =>
    rw [splitOnce]
    split
    next here =>
      subst here
      constructor
      · intro same
        cases same
        exact ⟨rfl, List.not_mem_nil⟩
      · rintro ⟨whole, absent⟩
        cases front with
        | nil => rw [List.nil_append, List.cons.injEq] at whole; rw [whole.2]
        | cons c' front =>
          obtain rfl := (List.cons.inj whole).1
          exact absurd List.mem_cons_self absent
    next other =>
      rw [Option.map_eq_some_iff]
      constructor
      · rintro ⟨⟨front', back'⟩, found, same⟩
        cases same
        obtain ⟨whole, absent⟩ := ih.mp found
        refine ⟨congrArg (c :: ·) whole, fun member => ?_⟩
        rcases List.mem_cons.mp member with same | member
        · exact other same.symm
        · exact absent member
      · rintro ⟨whole, absent⟩
        cases front with
        | nil => exact absurd (List.cons.inj whole).1 other
        | cons c' front =>
          obtain ⟨rfl, tails⟩ := List.cons.inj whole
          have missing := fun member => absent (List.mem_cons_of_mem c member)
          exact ⟨(front, back), ih.mpr ⟨tails, missing⟩, rfl⟩

theorem bracketed_iff : text.head? = some '[' ∧ text.getLast? = some ']' ↔
    ∃ inner, text = '[' :: (inner ++ [']']) := by
  constructor
  · rintro ⟨opens, closes⟩
    cases text with
    | nil => cases opens
    | cons c rest =>
      cases opens
      rcases List.eq_nil_or_concat rest with rfl | ⟨inner, last, rfl⟩
      · simp at closes
      · refine ⟨inner, ?_⟩
        rw [List.concat_eq_append] at closes ⊢
        simp only [List.getLast?_cons, List.getLast?_append] at closes
        simpa using closes
  · rintro ⟨inner, rfl⟩
    simp [List.getLast?_cons]

theorem DottedText.unbracketed {addr : Ipv4Addr} (dotted : DottedText text addr) :
    ¬ (text.head? = some '[' ∧ text.getLast? = some ']') := by
  rintro ⟨opens, _⟩
  obtain ⟨ta, _, _, _, _, _, _, _, octet, _, _, _, rfl, _⟩ := dotted
  cases ta with
  | nil => exact octet.nonempty rfl
  | cons c ta =>
    cases opens
    exact octet.isDigit List.mem_cons_self (by decide)

theorem parseAddr_bracketed (inner : List Char) {ip : IpAddr} :
    parseAddr ('[' :: (inner ++ [']'])) = .ok ip ↔ ∃ addr, Ipv6Text inner addr ∧ ip = .v6 addr := by
  rw [parseAddr, if_pos (bracketed_iff.mpr ⟨inner, rfl⟩), List.tail_cons, List.dropLast_concat]
  simp only [← parseIpv6Addr_iff]
  cases parseIpv6Addr inner with
  | none => simp
  | some addr => simp [eq_comm]

theorem parseAddr_plain (plain : ¬ (text.head? = some '[' ∧ text.getLast? = some ']'))
    {ip : IpAddr} : parseAddr text = .ok ip ↔ ∃ addr, DottedText text addr ∧ ip = .v4 addr := by
  rw [parseAddr, if_neg plain]
  simp only [← parseIpv4Addr_iff]
  cases parseIpv4Addr text with
  | none => simp
  | some addr => simp [eq_comm]

theorem parseAddr_iff {ip : IpAddr} : parseAddr text = .ok ip ↔ AddressText text ip := by
  by_cases brackets : text.head? = some '[' ∧ text.getLast? = some ']'
  · obtain ⟨inner, rfl⟩ := bracketed_iff.mp brackets
    rw [parseAddr_bracketed]
    cases ip with
    | v4 addr =>
      exact iff_of_false nofun fun (dotted : DottedText _ addr) => dotted.unbracketed brackets
    | v6 addr =>
      simp only [IpAddr.v6.injEq, exists_eq_right', AddressText, List.cons.injEq, true_and,
        List.append_left_inj, exists_eq_left']
  · rw [parseAddr_plain brackets]
    cases ip with
    | v4 addr => simp only [IpAddr.v4.injEq, exists_eq_right', AddressText]
    | v6 addr =>
      refine iff_of_false nofun ?_
      rintro ⟨inner, rfl, _⟩
      exact brackets (bracketed_iff.mpr ⟨inner, rfl⟩)

section Reading
variable {nameError : List Char → String}

theorem parseRecord_sound (parsed : parseRecord hk nameError value = .ok r) :
    RecordText hk value r := by
  unfold parseRecord at parsed
  split at parsed
  · cases parsed
  next nameStr addrStr parts =>
    split at parsed
    · cases parsed
    next addr address =>
      split at parsed
      · cases parsed
      next name named =>
        cases parsed
        obtain ⟨whole, absent⟩ := splitOnce_iff.mp parts
        exact ⟨nameStr, addrStr, name, whole, absent, parseAddr_iff.mp address, named, rfl⟩

theorem parseRecord_complete (spelled : RecordText hk value r) :
    parseRecord hk nameError value = .ok r := by
  obtain ⟨nameStr, addrStr, name, whole, absent, address, named, same⟩ := spelled
  have parts := splitOnce_iff.mpr ⟨whole, absent⟩
  have read := parseAddr_iff.mpr address
  simp only [parseRecord, parts, read, named, ← same]

/-- A record is read just from the texts that spell it. -/
theorem record_texts_exact (hk : Hickory) (nameError : List Char → String) (value : List Char)
    (r : RawRecord) : parseRecord hk nameError value = .ok r ↔ RecordText hk value r :=
  ⟨parseRecord_sound, parseRecord_complete⟩

end Reading

end Texts

end DockerDns.Guarantees
