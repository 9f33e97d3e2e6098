import WebClient.Text.Numeral

/-!
# Internet addresses

The textual forms of IPv4 and IPv6 addresses. An address is read in any of its spellings and
written in one: an IPv4 address as four decimal numbers, an IPv6 address as hexadecimal groups with
the first of its longest runs of zero groups left out, and the groups that hold an IPv4 address in
the form of that address.
-/

namespace WebClient

inductive IpAddress where
  | v4 (a b c d : UInt8)
  | v6 (groups : Vector UInt16 8)
  deriving DecidableEq, Repr

namespace IpAddress

/-- A number up to `largest` at the front of a text, with at most `digits` digits, and what follows
it. -/
def readNumber? (base largest digits : Nat) (cs : List Char) : Option (Nat × List Char) :=
  let isDigit c := (Text.digitValue? base c).isSome
  let number := cs.takeWhile isDigit
  if number.isEmpty || number.length > digits then none
  else (Text.digitsFrom? base largest 0 number).map (·, cs.dropWhile isDigit)

/-- An octet in decimal, without leading zeros. -/
def readOctet? (cs : List Char) : Option (UInt8 × List Char) :=
  match readNumber? 10 255 3 cs with
  | some (n, rest) =>
    if cs.head? = some '0' && cs.length ≠ rest.length + 1 then none
    else some (UInt8.ofNat n, rest)
  | none => none

def readDotOctet? : List Char → Option (UInt8 × List Char)
  | '.' :: rest => readOctet? rest
  | _ => none

def readV4? (cs : List Char) : Option ((UInt8 × UInt8 × UInt8 × UInt8) × List Char) := do
  let (a, cs) ← readOctet? cs
  let (b, cs) ← readDotOctet? cs
  let (c, cs) ← readDotOctet? cs
  let (d, cs) ← readDotOctet? cs
  return ((a, b, c, d), cs)

def groupOf (high low : UInt8) : UInt16 :=
  UInt16.ofNat (high.toNat * 256 + low.toNat)

/-- Up to `count` groups, a colon before each but the first of the address, what follows them, and
whether the last two were written as an IPv4 address. -/
def readGroups (count : Nat) (leading : Bool) (cs : List Char) :
    List UInt16 × List Char × Bool :=
  match count with
  | 0 => ([], cs, false)
  | count + 1 =>
    let group? := if leading then some cs else match cs with
      | ':' :: rest => some rest
      | _ => none
    match group? with
    | none => ([], cs, false)
    | some body =>
      match if count = 0 then none else readV4? body with
      | some ((a, b, c, d), rest) => ([groupOf a b, groupOf c d], rest, true)
      | none =>
        match readNumber? 16 0xFFFF 4 body with
        | none => ([], cs, false)
        | some (group, rest) =>
          let (groups, rest, dotted) := readGroups count false rest
          (UInt16.ofNat group :: groups, rest, dotted)

def ofGroups? (groups : List UInt16) : Option IpAddress :=
  if h : groups.length = 8 then some (.v6 ⟨groups.toArray, by simpa using h⟩) else none

/-- An IPv6 address at the front of a text: eight groups, or fewer around two colons that stand for
at least one zero group. -/
def readV6? (cs : List Char) : Option (IpAddress × List Char) :=
  match readGroups 8 true cs with
  | (front, rest, dotted) =>
    if front.length = 8 then (ofGroups? front).map (·, rest)
    else if dotted then none
    else match rest with
      | ':' :: ':' :: rest =>
        match readGroups (7 - front.length) true rest with
        | (back, rest, _) =>
          let zeros := List.replicate (8 - front.length - back.length) 0
          (ofGroups? (front ++ zeros ++ back)).map (·, rest)
      | _ => none

def parse? (s : String) : Option IpAddress :=
  match readV4? s.toList, readV6? s.toList with
  | some ((a, b, c, d), []), _ => some (.v4 a b c d)
  | _, some (address, []) => some address
  | _, _ => none

def dotted (octets : List UInt8) : List Char :=
  ['.'].intercalate (octets.map fun octet => Text.decimal octet.toNat)

def colons (groups : List UInt16) : List Char :=
  [':'].intercalate (groups.map fun group => Text.hexadecimal group.toNat)

def octetsOf (group : UInt16) : List UInt8 :=
  [UInt8.ofNat (group.toNat / 256), UInt8.ofNat (group.toNat % 256)]

def zeroRun (groups : List UInt16) (start : Nat) : Nat :=
  ((groups.drop start).takeWhile (· = 0)).length

/-- Where the first of the longest runs of zero groups starts, and its length. -/
def longestZeroRun (groups : List UInt16) : Nat × Nat :=
  (List.range groups.length).foldl
    (fun best start =>
      if zeroRun groups start > best.2 then (start, zeroRun groups start) else best) (0, 0)

def groupsText (groups : List UInt16) : List Char :=
  match groups with
  | [0, 0, 0, 0, 0, 0xFFFF, high, low] =>
    [':', ':', 'f', 'f', 'f', 'f', ':'] ++ dotted (octetsOf high ++ octetsOf low)
  | _ =>
    match longestZeroRun groups with
    | (start, length) =>
      if length > 1 then
        colons (groups.take start) ++ [':', ':'] ++ colons (groups.drop (start + length))
      else colons groups

/-- The address in its one written form. -/
def text : IpAddress → String
  | v4 a b c d => String.ofList (dotted [a, b, c, d])
  | v6 groups => String.ofList (groupsText groups.toList)

end IpAddress

/-- One end of a connection. -/
structure SocketAddress where
  ip : IpAddress
  port : UInt16
  deriving DecidableEq, Repr

namespace SocketAddress

def parse? (s : String) : Option SocketAddress :=
  let address? := match s.toList with
    | '[' :: rest =>
      match IpAddress.readV6? rest with
      | some (ip, ']' :: ':' :: port) => some (ip, port)
      | _ => none
    | cs =>
      match IpAddress.readV4? cs with
      | some ((a, b, c, d), ':' :: port) => some (.v4 a b c d, port)
      | _ => none
  match address? with
  | none => none
  | some (ip, port) =>
    if port.isEmpty then none
    else (Text.digitsFrom? 10 (Text.maxOfBits 16) 0 port).map fun n =>
      { ip, port := UInt16.ofNat n }

/-- The address and the port, brackets around an IPv6 address. -/
def text (address : SocketAddress) : String :=
  let ip := match address.ip with
    | .v4 .. => address.ip.text
    | .v6 _ => "[" ++ address.ip.text ++ "]"
  ip ++ ":" ++ String.ofList (Text.decimal address.port.toNat)

end SocketAddress

end WebClient
