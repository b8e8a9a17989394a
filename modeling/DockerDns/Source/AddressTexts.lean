import DockerDns.Source.Records

/-!
# How addresses are read

The standard library's `Ipv4Addr::from_str` and `Ipv6Addr::from_str`, reader by
reader. A reader that fails leaves the text where it was.
-/
namespace DockerDns.Source

/-- `char::to_digit` -/
def toDigit (radix : Nat) (c : Char) : Option Nat :=
  (if '0' ≤ c ∧ c ≤ '9' then some (c.toNat - 48)
  else if 'a' ≤ c ∧ c ≤ 'z' then some (c.toNat - 87)
  else if 'A' ≤ c ∧ c ≤ 'Z' then some (c.toNat - 55)
  else none).filter (· < radix)

/-- All digits there are. -/
def readDigits (radix : Nat) : List Char → List Nat × List Char
  | [] => ([], [])
  | c :: text =>
    match toDigit radix c with
    | some digit => (digit :: (readDigits radix text).1, (readDigits radix text).2)
    | none => ([], c :: text)

def numberOf (radix : Nat) (digits : List Nat) : Nat :=
  digits.foldl (fun n digit => n * radix + digit) 0

/-- A number below `bound`: one digit more than `maxDigits` and the reader fails. -/
def readNumber (radix maxDigits bound : Nat) (allowZeroPrefix : Bool) (text : List Char) :
    Option (Nat × List Char) :=
  match readDigits radix text with
  | (digits, rest) =>
    if maxDigits < digits.length then none
    else if digits = [] then none
    else if allowZeroPrefix = false ∧ digits.head? = some 0 ∧ 1 < digits.length then none
    else if numberOf radix digits < bound then some (numberOf radix digits, rest)
    else none

def readGivenChar (target : Char) : List Char → Option (List Char)
  | c :: rest => if c = target then some rest else none
  | [] => none

/-- The separator stands before every piece but the first. -/
def readSeparator {α : Type} (separator : Char) (first : Bool)
    (inner : List Char → Option (α × List Char)) (text : List Char) : Option (α × List Char) :=
  if first then inner text else (readGivenChar separator text).bind inner

def ofOctets (a b c d : Nat) : Ipv4Addr := BitVec.ofNat 32 (((a * 256 + b) * 256 + c) * 256 + d)

def readOctet (first : Bool) : List Char → Option (Nat × List Char) :=
  readSeparator '.' first (readNumber 10 3 256 false)

def readIpv4Addr (text : List Char) : Option (Ipv4Addr × List Char) := do
  let (a, text) ← readOctet true text
  let (b, text) ← readOctet false text
  let (c, text) ← readOctet false text
  let (d, text) ← readOctet false text
  some (ofOctets a b c d, text)

def ofGroups (groups : List Nat) : Ipv6Addr := BitVec.ofNat 128 (numberOf 65536 groups)

/-- The two groups an embedded IPv4 address stands for. -/
def embeddedGroups (addr : Ipv4Addr) : List Nat := [addr.toNat / 65536, addr.toNat % 65536]

/-- Up to `left` groups, and whether they end in an embedded IPv4 address, which
is tried while two groups are left. -/
def readGroups (first : Bool) : Nat → List Char → List Nat × Bool × List Char
  | 0, text => ([], false, text)
  | left + 1, text =>
    match if 0 < left then readSeparator ':' first readIpv4Addr text else none with
    | some (addr, rest) => (embeddedGroups addr, true, rest)
    | none =>
      match readSeparator ':' first (readNumber 16 4 65536 true) text with
      | some (group, rest) =>
        (group :: (readGroups false left rest).1, (readGroups false left rest).2)
      | none => ([], false, text)

def readIpv6Addr (text : List Char) : Option (Ipv6Addr × List Char) :=
  match readGroups true 8 text with
  | (head, embedded, rest) =>
    if head.length = 8 then some (ofGroups head, rest)
    -- no IPv4 address before `::`
    else if embedded then none
    else do
      let rest ← readGivenChar ':' rest
      let rest ← readGivenChar ':' rest
      -- `::` stands for at least one group
      match readGroups true (8 - (head.length + 1)) rest with
      | (tail, _, rest) =>
        some (ofGroups (head ++ List.replicate (8 - head.length - tail.length) 0 ++ tail), rest)

/-- The whole text is read. -/
def parseWith {α : Type} (inner : List Char → Option (α × List Char)) (text : List Char) :
    Option α :=
  match inner text with
  | some (value, []) => some value
  | _ => none

def parseIpv4Addr : List Char → Option Ipv4Addr := parseWith readIpv4Addr
def parseIpv6Addr : List Char → Option Ipv6Addr := parseWith readIpv6Addr

example : parseIpv6Addr "1::ffff:1.2.3.4".toList = some 0x00010000000000000000ffff01020304#128 := by
  decide

end DockerDns.Source
