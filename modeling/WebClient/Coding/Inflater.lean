import WebClient.Bytes

/-!
# Inflating by portions

Deflated data is a row of bits: the bits of a byte are read from the lowest to the highest, and a
number of several bits has its lowest bit first.

It is taken in by portions of 32 KiB, and what it stands for fills a window of 32 KiB, the farthest
that it may refer back, which is given out when it is full and when a portion has been used up. Once
more has been given out than is wanted, nothing is taken in or put into a new window any more, so
that little data cannot fill the memory. An error is therefore found when it lies in the portion and
the window at hand at that time, though it stands behind what is wanted, and otherwise it is not.

Which portion is at hand depends on how far ahead bytes are fetched from it into the buffer that
bits are read from. Bytes that have been fetched and not used go back when the window is given out.
-/

namespace WebClient

inductive InflateError where
  | corrupt
  | truncated
  deriving DecidableEq, Repr

/-- Why inflating ends before the end of the data: there is an error, or what has been given out is
more than is wanted. -/
inductive Halt where
  | fault (e : InflateError)
  | enough (out : ByteArray)

/-- Data that is being inflated: the data, how many bytes are wanted, the place of the next bit, the
numbers of bytes that have been fetched into the buffer and taken in, the inflated bytes, and how
many of them there are when the window is full. -/
structure Inflater where
  bytes : ByteArray
  limit : Nat
  position : Nat
  fetched : Nat
  taken : Nat
  out : ByteArray
  windowEnd : Nat

namespace Inflater

/-- The size of a portion, and of the window. -/
def portionSize : Nat := 32768

/-- The end of the portion in which a byte stands, when the first portion starts at the origin. -/
def portionEnd (origin index : Nat) : Nat :=
  origin + ((index - origin) / portionSize + 1) * portionSize

/-- Data from a byte on, taken in by portions from an origin on. -/
def start (limit : Nat) (bytes : ByteArray) (origin index : Nat) : Inflater where
  bytes
  limit
  position := 8 * index
  fetched := index
  taken := min (portionEnd origin index) bytes.size
  out := .empty
  windowEnd := portionSize

def buffered (s : Inflater) : Nat :=
  8 * s.fetched - s.position

def atHand (s : Inflater) : Nat :=
  s.taken - s.fetched

def room (s : Inflater) : Nat :=
  s.windowEnd - s.out.size

/-- The number of the byte behind the bits that have been read. -/
def byteIndex (s : Inflater) : Nat :=
  (s.position + 7) / 8

/-- Takes in the next portion, before which the window is given out. -/
def take (s : Inflater) : Except Halt Inflater :=
  if s.out.size > s.limit then .error (.enough s.out)
  else if s.taken < s.bytes.size then
    .ok { s with
      taken := min (s.taken + portionSize) s.bytes.size
      windowEnd := portionEnd 0 s.out.size }
  else .error (.fault .truncated)

/-- Gives out a window that is full, and takes in the next portion if this one has been used up. -/
def makeRoom (s : Inflater) : Except Halt Inflater :=
  if s.room > 0 then .ok s
  else if s.out.size > s.limit then .error (.enough s.out)
  else
    let fetched := s.byteIndex
    let taken := if fetched = s.taken then min (s.taken + portionSize) s.bytes.size else s.taken
    .ok { s with fetched, taken, windowEnd := portionEnd 0 s.out.size }

def fetch (s : Inflater) (count : Nat) : Inflater :=
  { s with fetched := s.fetched + count }

/-- Fetches four bytes unless the buffer is rather full. -/
def fill (s : Inflater) : Inflater :=
  if s.buffered < 30 then s.fetch 4 else s

/-- Fetches bytes one after the other, and takes in what is needed for it. -/
def fetchMore (s : Inflater) : (count : Nat) → Except Halt Inflater
  | 0 => .ok s
  | count + 1 => do
    let s ← if s.atHand = 0 then s.take else .ok s
    (s.fetch 1).fetchMore count

/-- The bit that many bits behind the next one, or a zero behind the data. -/
def peek (s : Inflater) (ahead : Nat) : Nat :=
  let place := s.position + ahead
  match s.bytes[place / 8]? with
  | some b => (b.toNat >>> (place % 8)) % 2
  | none => 0

/-- The number that the next `count` bits spell, the first of which is that many bits behind the
next one. -/
def peekNumber (s : Inflater) (ahead : Nat) : (count : Nat) → Nat
  | 0 => 0
  | count + 1 => s.peek ahead + 2 * s.peekNumber (ahead + 1) count

def skip (s : Inflater) (count : Nat) : Inflater :=
  { s with position := s.position + count }

def bits (s : Inflater) (count : Nat) : Except Halt (Nat × Inflater) := do
  let s ← s.fetchMore ((count - s.buffered + 7) / 8)
  return (s.peekNumber 0 count, s.skip count)

def align (s : Inflater) : Inflater :=
  { s with position := 8 * s.byteIndex }

def put (s : Inflater) (b : UInt8) : Except Halt Inflater := do
  let ⟨bytes, limit, position, fetched, taken, out, windowEnd⟩ ← s.makeRoom
  return ⟨bytes, limit, position, fetched, taken, out.push b, windowEnd⟩

/-- The bytes with the stretch of so many bytes repeated that starts `distance` bytes before the
end. -/
def repeatStretch (out : ByteArray) (distance : Nat) : (length : Nat) → ByteArray
  | 0 => out
  | length + 1 =>
    let b := if distance ≤ out.size then out[out.size - distance]?.getD 0 else 0
    repeatStretch (out.push b) distance length

/-- Repeats a stretch that fits into the window. -/
def putRepeated (s : Inflater) (distance length : Nat) : Inflater :=
  let ⟨bytes, limit, position, fetched, taken, out, windowEnd⟩ := s
  ⟨bytes, limit, position, fetched, taken, repeatStretch out distance length, windowEnd⟩

/-- Repeats a stretch: as much of it as the window has room for, and then the rest. -/
def repeatBack (s : Inflater) (distance length : Nat) : Except Halt Inflater := do
  let fitting := min length s.room
  let s := s.putRepeated distance fitting
  if fitting < length then
    let s ← s.makeRoom
    return s.putRepeated distance (length - fitting)
  else return s

/-- Puts bytes of the data into the window as they are: as many of those that are at hand as it has
room for. -/
def copy (s : Inflater) (length : Nat) : Except Halt (Nat × Inflater) := do
  let s ← s.makeRoom
  let ⟨bytes, limit, position, fetched, taken, out, windowEnd⟩ ←
    if s.atHand = 0 then s.take else .ok s
  let count := min length (min (taken - fetched) (windowEnd - out.size))
  let out := out ++ bytes.extract fetched (fetched + count)
  return (count, ⟨bytes, limit, position + 8 * count, fetched + count, taken, out, windowEnd⟩)

/-- Puts the bytes back that have been fetched and not used, at the end of the deflated data. -/
def finish (s : Inflater) : Inflater :=
  { s with position := 8 * s.byteIndex, fetched := s.byteIndex }

end Inflater

end WebClient
