import DockerDns.Source.AddressTexts
import Mathlib.Tactic.SplitIfs

/-!
# Which texts are addresses

Each reader takes the longest text it can, so it reads a text exactly when the
text is spelled by the rules and nothing that could continue it follows.
-/
namespace DockerDns.Guarantees
open Source

section Numbers
variable {radix maxDigits bound n : Nat} {allow : Bool} {text rest s : List Char}
  {digits : List Nat}

def Spells (radix : Nat) : List Char → List Nat → Prop :=
  List.Forall₂ fun c digit => toDigit radix c = some digit

/-- No digit follows. -/
def Ends (radix : Nat) (rest : List Char) : Prop := ∀ c ∈ rest.head?, toDigit radix c = none

/-- One to `maxDigits` digits of a number below `bound`, with or without leading zeros. -/
structure NumberText (radix maxDigits bound : Nat) (allow : Bool) (text : List Char) (n : Nat) :
    Prop where
  digits : ∃ digits, Spells radix text digits ∧ numberOf radix digits = n ∧
    ¬ (allow = false ∧ digits.head? = some 0 ∧ 1 < digits.length)
  nonempty : text ≠ []
  short : text.length ≤ maxDigits
  bounded : n < bound

theorem readDigits_sound (radix : Nat) (s : List Char) : ∃ text, s = text ++ (readDigits radix s).2 ∧
    Spells radix text (readDigits radix s).1 ∧ Ends radix (readDigits radix s).2 := by
  induction s with
  | nil => exact ⟨[], rfl, .nil, nofun⟩
  | cons c s ih =>
    cases digit : toDigit radix c with
    | none =>
      simp only [readDigits, digit]
      refine ⟨[], rfl, .nil, fun c' here => ?_⟩
      cases here
      exact digit
    | some d =>
      obtain ⟨text, whole, spells, ends⟩ := ih
      simp only [readDigits, digit]
      exact ⟨c :: text, congrArg (c :: ·) whole, .cons digit spells, ends⟩

theorem Spells.isDigit (spells : Spells radix text digits) {c : Char} (member : c ∈ text) :
    toDigit radix c ≠ none := by
  induction spells with
  | nil => cases member
  | cons digit _ ih =>
    rcases List.mem_cons.mp member with rfl | member
    · simp [digit]
    · exact ih member

theorem NumberText.isDigit (number : NumberText radix maxDigits bound allow text n) {c : Char}
    (member : c ∈ text) : toDigit radix c ≠ none := by
  obtain ⟨digits, spells, _⟩ := number.digits
  exact spells.isDigit member

theorem readDigits_complete (spells : Spells radix text digits) (ends : Ends radix rest) :
    readDigits radix (text ++ rest) = (digits, rest) := by
  induction spells with
  | nil =>
    cases rest with
    | nil => rfl
    | cons c rest => simp only [List.nil_append, readDigits, ends c rfl]
  | cons digit _ ih => simp only [List.cons_append, readDigits, digit, ih]

theorem readNumber_iff : readNumber radix maxDigits bound allow s = some (n, rest) ↔
    ∃ text, s = text ++ rest ∧ NumberText radix maxDigits bound allow text n ∧ Ends radix rest := by
  constructor
  · intro read
    obtain ⟨text, whole, spells, ends⟩ := readDigits_sound radix s
    unfold readNumber at read
    generalize readDigits radix s = result at read whole spells ends
    obtain ⟨digits, rest'⟩ := result
    have length : text.length = digits.length := spells.length_eq
    dsimp only at read
    split_ifs at read with long none zero small
    cases read
    refine ⟨text, whole, ⟨⟨_, spells, rfl, zero⟩, ?_, ?_, small⟩, ends⟩
    · rintro rfl
      exact none (List.length_eq_zero_iff.mp length.symm)
    · rw [length]
      exact Nat.le_of_not_lt long
  · rintro ⟨text, rfl, ⟨⟨digits, spells, rfl, plain⟩, nonempty, short, bounded⟩, ends⟩
    have length := spells.length_eq
    have some : digits ≠ [] := by
      rintro rfl
      exact nonempty (List.length_eq_zero_iff.mp length)
    simp only [readNumber, readDigits_complete spells ends]
    rw [if_neg (Nat.not_lt.mpr (length ▸ short)), if_neg some, if_neg plain, if_pos bounded]

end Numbers

section Ipv4
variable {text rest s : List Char} {addr : Ipv4Addr}

abbrev OctetText : List Char → Nat → Prop := NumberText 10 3 256 false

/-- Four octets, with dots between them. -/
def DottedText (text : List Char) (addr : Ipv4Addr) : Prop :=
  ∃ ta tb tc td a b c d, OctetText ta a ∧ OctetText tb b ∧ OctetText tc c ∧ OctetText td d ∧
    text = ta ++ '.' :: (tb ++ '.' :: (tc ++ '.' :: td)) ∧ addr = ofOctets a b c d

theorem readGivenChar_iff {target : Char} : readGivenChar target s = some rest ↔
    s = target :: rest := by
  cases s with
  | nil => simp [readGivenChar]
  | cons c s =>
    simp only [readGivenChar, List.cons.injEq]
    by_cases same : c = target <;> simp [same]

theorem readSeparator_false {α : Type} {separator : Char}
    {inner : List Char → Option (α × List Char)} {result : α × List Char} :
    readSeparator separator false inner s = some result ↔
      ∃ s', s = separator :: s' ∧ inner s' = some result := by
  simp only [readSeparator, Bool.false_eq_true, if_false, Option.bind_eq_some_iff, readGivenChar_iff]

theorem readIpv4Addr_iff : readIpv4Addr s = some (addr, rest) ↔
    ∃ text, s = text ++ rest ∧ DottedText text addr ∧ Ends 10 rest := by
  have dot : ∀ tail, Ends 10 ('.' :: tail) := by
    intro tail c here
    cases here
    decide
  simp only [readIpv4Addr, readOctet, Option.bind_eq_bind, Option.bind_eq_some_iff,
    readSeparator_false, Prod.exists]
  constructor
  · rintro ⟨a, s1, readA, b, s2, ⟨_, rfl, readB⟩, c, s3, ⟨_, rfl, readC⟩, d, s4, ⟨_, rfl, readD⟩, same⟩
    obtain ⟨ta, rfl, octetA, _⟩ := readNumber_iff.mp readA
    obtain ⟨tb, rfl, octetB, _⟩ := readNumber_iff.mp readB
    obtain ⟨tc, rfl, octetC, _⟩ := readNumber_iff.mp readC
    obtain ⟨td, rfl, octetD, ends⟩ := readNumber_iff.mp readD
    cases same
    exact ⟨_, by simp, ⟨ta, tb, tc, td, a, b, c, d, octetA, octetB, octetC, octetD, rfl, rfl⟩, ends⟩
  · rintro ⟨_, rfl, ⟨ta, tb, tc, td, a, b, c, d, octetA, octetB, octetC, octetD, rfl, rfl⟩, ends⟩
    refine ⟨a, _, readNumber_iff.mpr ⟨ta, ?_, octetA, dot _⟩, b, _,
      ⟨_, rfl, readNumber_iff.mpr ⟨tb, rfl, octetB, dot _⟩⟩, c, _,
      ⟨_, rfl, readNumber_iff.mpr ⟨tc, rfl, octetC, dot _⟩⟩, d, rest,
      ⟨_, rfl, readNumber_iff.mpr ⟨td, rfl, octetD, ends⟩⟩, rfl⟩
    simp

theorem parseWith_iff {α : Type} {inner : List Char → Option (α × List Char)} {value : α} :
    parseWith inner s = some value ↔ inner s = some (value, []) := by
  unfold parseWith
  split
  next read => simp [read]
  next other =>
    refine iff_of_false ?_ fun read => other value read
    exact fun none => nomatch none

theorem parseIpv4Addr_iff : parseIpv4Addr s = some addr ↔ DottedText s addr := by
  rw [parseIpv4Addr, parseWith_iff, readIpv4Addr_iff]
  simp [Ends]

end Ipv4

section Groups
variable {text rest s : List Char} {groups : List Nat} {embedded : Bool}

abbrev GroupText : List Char → Nat → Prop := NumberText 16 4 65536 true

/-- Groups with colons between them, the last two perhaps as an IPv4 address. -/
inductive GroupsText : Bool → List Char → List Nat → Prop
  | one {text : List Char} {n : Nat} (group : GroupText text n) : GroupsText false text [n]
  | embedded {text : List Char} {addr : Ipv4Addr} (dotted : DottedText text addr) :
    GroupsText true text (embeddedGroups addr)
  | cons {embedded : Bool} {text more : List Char} {n : Nat} {groups : List Nat}
      (group : GroupText text n) (later : GroupsText embedded more groups) :
    GroupsText embedded (text ++ ':' :: more) (n :: groups)

/-- The text is over, or a colon follows. -/
def AtColon (rest : List Char) : Prop := rest = [] ∨ ∃ tail, rest = ':' :: tail

theorem AtColon.ends (at_colon : AtColon rest) : Ends 16 rest ∧ Ends 10 rest := by
  rcases at_colon with rfl | ⟨tail, rfl⟩
  · exact ⟨nofun, nofun⟩
  · constructor <;> intro c here <;> cases here <;> decide

theorem AtColon.not_dot (at_colon : AtColon rest) (tail : List Char) : rest ≠ '.' :: tail := by
  rintro rfl
  rcases at_colon with none | ⟨_, same⟩
  · cases none
  · cases same

/-- No dot comes before the next colon, so no IPv4 address is read. -/
theorem no_ipv4 (plain : '.' ∉ text) (at_colon : AtColon rest) :
    readIpv4Addr (text ++ rest) = none := by
  refine Option.eq_none_iff_forall_not_mem.mpr fun ⟨addr, rest'⟩ read => ?_
  obtain ⟨_, whole, ⟨ta, tb, tc, td, a, _, _, _, octet, _, _, _, rfl, _⟩, _⟩ :=
    readIpv4Addr_iff.mp read
  rw [List.append_assoc, List.cons_append] at whole
  rcases List.append_eq_append_iff.mp whole with ⟨more, rfl, after⟩ | ⟨more, rfl, after⟩
  · cases more with
    | nil => exact at_colon.not_dot _ after
    | cons c more =>
      rcases at_colon with rfl | ⟨tail, rfl⟩
      · cases after
      · cases after
        exact octet.isDigit (List.mem_append_right _ List.mem_cons_self) (by decide)
  · cases more with
    | nil => exact at_colon.not_dot _ after.symm
    | cons c more =>
      obtain rfl := (List.cons.inj after).1
      exact plain (List.mem_append_right _ List.mem_cons_self)

theorem GroupText.plain {n : Nat} (group : NumberText 16 4 65536 true text n) : '.' ∉ text :=
  fun member => group.isDigit member (by decide)

/-- No further group follows. -/
def NoGroup (rest : List Char) : Prop := rest = [] ∨ ∃ tail, rest = ':' :: ':' :: tail

theorem NoGroup.atColon (stops : NoGroup rest) : AtColon rest :=
  stops.imp_right fun ⟨_, same⟩ => ⟨_, same⟩

theorem readNumber_colon (tail : List Char) : readNumber 16 4 65536 true (':' :: tail) = none := by
  have colon : toDigit 16 ':' = none := by decide
  simp [readNumber, readDigits, colon]

theorem readNumber_nil : readNumber 16 4 65536 true [] = none := rfl

theorem readIpv4Addr_colon (tail : List Char) : readIpv4Addr (':' :: tail) = none :=
  no_ipv4 List.not_mem_nil (.inr ⟨tail, rfl⟩)

theorem readIpv4Addr_nil : readIpv4Addr [] = none := rfl

theorem readGroups_stops (first : Bool) (left : Nat) (stops : NoGroup rest) :
    readGroups first left rest = ([], false, rest) := by
  cases left with
  | zero => rfl
  | succ left =>
    have no_addr : readSeparator ':' first readIpv4Addr rest = none := by
      rcases stops with rfl | ⟨tail, rfl⟩ <;> cases first <;>
        simp [readSeparator, readGivenChar, readIpv4Addr_colon, readIpv4Addr_nil]
    have no_group : readSeparator ':' first (readNumber 16 4 65536 true) rest = none := by
      rcases stops with rfl | ⟨tail, rfl⟩ <;> cases first <;>
        simp [readSeparator, readGivenChar, readNumber_colon, readNumber_nil]
    simp only [readGroups, no_addr, no_group, ite_self]

/-- The separator before a piece. -/
def separated (first : Bool) (text : List Char) : List Char := if first then text else ':' :: text

theorem readSeparator_separated {α : Type} (first : Bool)
    (inner : List Char → Option (α × List Char)) :
    readSeparator ':' first inner (separated first s) = inner s := by
  cases first <;> simp [readSeparator, separated, readGivenChar]

theorem readSeparator_some {α : Type} {first : Bool} {inner : List Char → Option (α × List Char)}
    {result : α × List Char} (read : readSeparator ':' first inner s = some result) :
    ∃ s', s = separated first s' ∧ inner s' = some result := by
  cases first with
  | true => exact ⟨s, rfl, read⟩
  | false => exact readSeparator_false.mp read

theorem readGroups_complete (spelled : GroupsText embedded text groups) (stops : NoGroup rest)
    (first : Bool) {left : Nat} (fits : groups.length ≤ left) :
    readGroups first left (separated first (text ++ rest)) = (groups, embedded, rest) := by
  induction spelled generalizing first left with
  | one group =>
    cases left with
    | zero => cases fits
    | succ left =>
      have no_addr := no_ipv4 (GroupText.plain group) stops.atColon
      have read := readNumber_iff.mpr ⟨_, rfl, group, stops.atColon.ends.1⟩
      simp only [readGroups, readSeparator_separated, no_addr, ite_self, read,
        readGroups_stops false _ stops]
  | embedded dotted =>
    match left, fits with
    | left + 2, _ =>
      have read := readIpv4Addr_iff.mpr ⟨_, rfl, dotted, stops.atColon.ends.2⟩
      simp only [readGroups, readSeparator_separated, Nat.succ_pos, if_true, read]
  | @cons _ text more n groups group _ ih =>
    cases left with
    | zero => cases fits
    | succ left =>
      have at_colon : AtColon (':' :: (more ++ rest)) := .inr ⟨_, rfl⟩
      have no_addr := no_ipv4 (GroupText.plain group) at_colon
      have read := readNumber_iff.mpr ⟨_, rfl, group, at_colon.ends.1⟩
      have later := ih false (Nat.le_of_succ_le_succ fits)
      simp only [separated, Bool.false_eq_true, if_false] at later
      rw [List.append_assoc, List.cons_append]
      simp only [readGroups, readSeparator_separated, no_addr, ite_self, read, later]

theorem readGroups_sound (left : Nat) (first : Bool) (s : List Char) :
    readGroups first left s = ([], false, s) ∨ ∃ text,
      s = separated first (text ++ (readGroups first left s).2.2) ∧
        GroupsText (readGroups first left s).2.1 text (readGroups first left s).1 ∧
        (readGroups first left s).1.length ≤ left := by
  induction left generalizing first s with
  | zero => exact .inl rfl
  | succ left ih =>
    rw [readGroups]
    split
    next addr rest read =>
      split at read
      next room =>
        obtain ⟨s', rfl, piece⟩ := readSeparator_some read
        obtain ⟨text, rfl, dotted, _⟩ := readIpv4Addr_iff.mp piece
        exact .inr ⟨text, rfl, .embedded dotted, Nat.succ_le_succ room⟩
      · cases read
    next =>
      split
      next group rest read =>
        obtain ⟨s', rfl, piece⟩ := readSeparator_some read
        obtain ⟨text, rfl, spelled, _⟩ := readNumber_iff.mp piece
        right
        rcases ih false rest with none | ⟨more, whole, later, short⟩
        · rw [none]
          exact ⟨text, rfl, .one spelled, Nat.succ_le_succ (Nat.zero_le _)⟩
        · refine ⟨text ++ ':' :: more, ?_, .cons spelled later, Nat.succ_le_succ short⟩
          simp only [List.append_assoc, List.cons_append]
          exact congrArg (fun tail => separated first (text ++ tail)) whole
      · exact .inl rfl

/-- The groups on one side of `::`, perhaps none. -/
def Side (embedded : Bool) (text : List Char) (groups : List Nat) : Prop :=
  (text = [] ∧ groups = [] ∧ embedded = false) ∨ GroupsText embedded text groups

theorem readGroups_side (side : Side embedded text groups) (stops : NoGroup rest) {left : Nat}
    (fits : groups.length ≤ left) :
    readGroups true left (text ++ rest) = (groups, embedded, rest) := by
  rcases side with ⟨rfl, rfl, rfl⟩ | spelled
  · exact readGroups_stops true left stops
  · exact readGroups_complete spelled stops true fits

theorem side_of_read (left : Nat) (s : List Char) : ∃ text,
    s = text ++ (readGroups true left s).2.2 ∧
      Side (readGroups true left s).2.1 text (readGroups true left s).1 ∧
      (readGroups true left s).1.length ≤ left := by
  rcases readGroups_sound left true s with none | ⟨text, whole, spelled, short⟩
  · rw [none]
    exact ⟨[], rfl, .inl ⟨rfl, rfl, rfl⟩, Nat.zero_le _⟩
  · exact ⟨text, whole, .inr spelled, short⟩

end Groups

section Ipv6
variable {text s : List Char} {addr : Ipv6Addr}

/-- Eight groups, or up to seven with `::` for the missing ones. -/
inductive Ipv6Text : List Char → Ipv6Addr → Prop
  | full {embedded : Bool} {text : List Char} {groups : List Nat}
      (spelled : GroupsText embedded text groups) (all : groups.length = 8) :
    Ipv6Text text (ofGroups groups)
  | elided {embedded : Bool} {front back : List Char} {head tail : List Nat}
      (before : Side false front head) (after : Side embedded back tail)
      (room : head.length + tail.length ≤ 7) :
    Ipv6Text (front ++ ':' :: ':' :: back)
      (ofGroups (head ++ List.replicate (8 - head.length - tail.length) 0 ++ tail))

theorem parseIpv6Addr_sound (parsed : parseIpv6Addr s = some addr) : Ipv6Text s addr := by
  have read := parseWith_iff.mp parsed
  obtain ⟨front, whole, before, short⟩ := side_of_read 8 s
  unfold readIpv6Addr at read
  generalize readGroups true 8 s = first at read whole before short
  obtain ⟨head, embedded, rest⟩ := first
  dsimp only at read whole before short
  split_ifs at read with all dotted
  · cases read
    rw [List.append_nil] at whole
    subst whole
    refine .full (before.resolve_left ?_) all
    rintro ⟨_, rfl, _⟩
    cases all
  · simp only [Option.bind_eq_bind, Option.bind_eq_some_iff, readGivenChar_iff] at read
    obtain ⟨_, rfl, rest, rfl, read⟩ := read
    obtain ⟨back, after, side, limit⟩ := side_of_read (8 - (head.length + 1)) rest
    generalize readGroups true (8 - (head.length + 1)) rest = second at read after side limit
    obtain ⟨tail, _, rest'⟩ := second
    dsimp only at read after side limit
    cases read
    rw [List.append_nil] at after
    subst after whole
    have plain : embedded = false := Bool.not_eq_true _ ▸ dotted
    subst plain
    exact .elided before side (by omega)

theorem parseIpv6Addr_complete (spelled : Ipv6Text s addr) : parseIpv6Addr s = some addr := by
  refine parseWith_iff.mpr ?_
  cases spelled with
  | full spelled all =>
    have read := readGroups_side (.inr spelled) (.inl rfl) (Nat.le_of_eq all)
    rw [List.append_nil] at read
    simp only [readIpv6Addr, read, all, if_true]
  | @elided _ front back head tail before after room =>
    have first := readGroups_side before (.inr ⟨back, rfl⟩) (by omega : head.length ≤ 8)
    have second := readGroups_side after (.inl rfl) (by omega : tail.length ≤ 8 - (head.length + 1))
    have some : head.length ≠ 8 := by omega
    rw [List.append_nil] at second
    simp only [readIpv6Addr, first, some, if_false, Bool.false_eq_true, readGivenChar, if_true,
      Option.bind_eq_bind, Option.bind_some, second]

theorem parseIpv6Addr_iff : parseIpv6Addr s = some addr ↔ Ipv6Text s addr :=
  ⟨parseIpv6Addr_sound, parseIpv6Addr_complete⟩

end Ipv6
end DockerDns.Guarantees
