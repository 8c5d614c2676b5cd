/-
The text forms of addresses in the standard library: the parser behind `str::parse` for
`Ipv6Addr` and `IpAddr`, and `Display`. The parser reads from the front of the text and keeps what is
left; a reader that fails has read nothing.
-/
import DNSRivet.Net.Addr

namespace DNSRivet.Net

/-! ## Characters and numbers -/

/-- `char::to_digit`, for a radix of at most 16. -/
def toDigit (radix : Nat) (c : Char) : Option Nat :=
  let n := c.toNat
  let digit : Option Nat :=
    if 48 ≤ n ∧ n ≤ 57 then some (n - 48)
    else if 97 ≤ n ∧ n ≤ 102 then some (n - 97 + 10)
    else if 65 ≤ n ∧ n ≤ 70 then some (n - 65 + 10)
    else none
  digit.filter (· < radix)

def readGivenChar (target : Char) : List Char → Option (List Char)
  | c :: rest => if c = target then some rest else none
  | [] => none

/-- The value of a run of digits. -/
def digitsValue (radix : Nat) (digits : List Char) : Nat :=
  digits.foldl (fun n c => n * radix + (toDigit radix c).getD 0) 0

/-- `read_number` with a limit on the digits: all digits at the front, none over the limit, and at most
`limit` as the target type. -/
def readNumber (radix maxDigits limit : Nat) (allowZeroPrefix : Bool) (s : List Char) : Option (Nat × List Char) :=
  let digits := s.takeWhile fun c => (toDigit radix c).isSome
  let rest := s.dropWhile fun c => (toDigit radix c).isSome
  if maxDigits < digits.length ∨ digits.length = 0 then none
  else if !allowZeroPrefix && digits.head? == some '0' && decide (1 < digits.length) then none
  else if digitsValue radix digits ≤ limit then some (digitsValue radix digits, rest)
  else none

/-! ## Parsing -/

/-- Octal-looking octets are not allowed. -/
def readOctet (s : List Char) : Option (UInt8 × List Char) :=
  (readNumber 10 3 255 false s).map fun p => (UInt8.ofNat p.1, p.2)

def readIpv4Addr (s : List Char) : Option (Ipv4Addr × List Char) := do
  let (a, s) ← readOctet s
  let (b, s) ← readOctet (← readGivenChar '.' s)
  let (c, s) ← readOctet (← readGivenChar '.' s)
  let (d, s) ← readOctet (← readGivenChar '.' s)
  some (⟨a, b, c, d⟩, s)

/-- A reader behind the separator, which the first group does not have. -/
def readSeparator {α : Type} (sep : Char) (index : Nat) (inner : List Char → Option (α × List Char)) (s : List Char) :
    Option (α × List Char) :=
  if 0 < index then (readGivenChar sep s).bind inner else inner s

def readGroup (s : List Char) : Option (UInt16 × List Char) :=
  (readNumber 16 4 65535 true s).map fun p => (UInt16.ofNat p.1, p.2)

def segmentOf (hi lo : UInt8) : UInt16 := (hi.toUInt16 <<< 8) ||| lo.toUInt16

/-- `read_groups` with `n` of the groups still to read: the groups read, whether an IPv4 address ended
them, and what is left. -/
def readGroups : Nat → List UInt16 → List Char → List UInt16 × Bool × List Char
  | 0, groups, s => (groups, false, s)
  | n + 1, groups, s =>
    -- an embedded IPv4 address takes two groups
    match if 0 < n then readSeparator ':' groups.length readIpv4Addr s else none with
    | some (ip, rest) => (groups ++ [segmentOf ip.a ip.b, segmentOf ip.c ip.d], true, rest)
    | none =>
      match readSeparator ':' groups.length readGroup s with
      | some (group, rest) => readGroups n (groups ++ [group]) rest
      | none => (groups, false, s)

def Ipv6Addr.ofSegments (segments : List UInt16) : Option Ipv6Addr :=
  if h : segments.length = 8 then some ⟨segments, h⟩ else none

def readIpv6Addr (s : List Char) : Option (Ipv6Addr × List Char) := do
  let (head, headIpv4, s) := readGroups 8 [] s
  if head.length = 8 then (Ipv6Addr.ofSegments head).map fun ip => (ip, s)
  else if headIpv4 then none
  else
    let s ← readGivenChar ':' s
    let s ← readGivenChar ':' s
    -- the `::` stands for at least one group
    let (tail, _, s) := readGroups (8 - (head.length + 1)) [] s
    (Ipv6Addr.ofSegments (head ++ List.replicate (8 - head.length - tail.length) 0 ++ tail)).map fun ip => (ip, s)

def readIpAddr (s : List Char) : Option (IpAddr × List Char) :=
  match readIpv4Addr s with
  | some (ip, rest) => some (.v4 ip, rest)
  | none => (readIpv6Addr s).map fun p => (.v6 p.1, p.2)

/-- A reader that must use up the whole text. -/
def parseWith {α : Type} (inner : List Char → Option (α × List Char)) (s : String) : Option α := do
  let (a, rest) ← inner s.toList
  if rest.isEmpty then some a else none

/-- `str::parse::<IpAddr>`. -/
def parseIpAddr (s : String) : Option IpAddr := parseWith readIpAddr s

/-- `str::parse::<Ipv6Addr>`. -/
def parseIpv6Addr (s : String) : Option Ipv6Addr := parseWith readIpv6Addr s

/-! ## Display -/

def digitChar (n : Nat) : Char := if n < 10 then Char.ofNat (48 + n) else Char.ofNat (87 + n)

/-- The digits of `n`, at most `fuel` of them, in front of `acc`. -/
def digitsLoop (radix : Nat) : Nat → Nat → List Char → List Char
  | 0, _, acc => acc
  | fuel + 1, n, acc =>
    if n < radix then digitChar n :: acc else digitsLoop radix fuel (n / radix) (digitChar (n % radix) :: acc)

/-- A number below `2^32` in decimal or lower-case hexadecimal. -/
def digits (radix n : Nat) : List Char := digitsLoop radix 10 n []

def Ipv4Addr.chars (ip : Ipv4Addr) : List Char :=
  digits 10 ip.a.toNat ++ '.' :: digits 10 ip.b.toNat ++ '.' :: digits 10 ip.c.toNat ++ '.' :: digits 10 ip.d.toNat

/-- A run of zero segments. -/
structure Span where
  start : Nat
  len : Nat
deriving DecidableEq, Repr

/-- The first longest run of zero segments; `current` is the run that reaches up to segment `i`. -/
def longestZeroes : List UInt16 → Nat → Span → Span → Span
  | [], _, _, longest => longest
  | segment :: rest, i, current, longest =>
    if segment = 0 then
      let current : Span := ⟨if current.len = 0 then i else current.start, current.len + 1⟩
      longestZeroes rest (i + 1) current (if longest.len < current.len then current else longest)
    else longestZeroes rest (i + 1) ⟨0, 0⟩ longest

/-- A colon-separated part of the address. -/
def fmtSubslice (chunk : List UInt16) : List Char :=
  (List.intersperse [':'] (chunk.map fun segment => digits 16 segment.toNat)).flatten

def Ipv6Addr.chars (ip : Ipv6Addr) : List Char :=
  match ip.toIpv4Mapped with
  | some mapped => [':', ':', 'f', 'f', 'f', 'f', ':'] ++ mapped.chars
  | none =>
    let zeroes := longestZeroes ip.segments 0 ⟨0, 0⟩ ⟨0, 0⟩
    if 1 < zeroes.len then
      fmtSubslice (ip.segments.take zeroes.start) ++ [':', ':'] ++
        fmtSubslice (ip.segments.drop (zeroes.start + zeroes.len))
    else fmtSubslice ip.segments

/-- `IpAddr::to_string`. -/
def IpAddr.display : IpAddr → String
  | .v4 ip => String.ofList ip.chars
  | .v6 ip => String.ofList ip.chars

/-- `SocketAddr::to_string`. -/
def SocketAddr.display : SocketAddr → String
  | .v4 ip port => String.ofList (ip.chars ++ ':' :: digits 10 port)
  | .v6 ip port _ scopeId =>
    let scope := if scopeId = 0 then [] else '%' :: digits 10 scopeId
    String.ofList ('[' :: ip.chars ++ scope ++ [']', ':'] ++ digits 10 port)

example : parseIpAddr "0:0::1" = some (.v6 Ipv6Addr.localhost) := by decide
example : (IpAddr.v6 Ipv6Addr.localhost).display = "::1" := by decide
example : parseIpAddr "::ffff:127.0.0.1" = parseIpAddr "::ffff:7f00:1" := by decide
example : parseIpAddr "127.0.0.01" = none := by decide

end DNSRivet.Net
