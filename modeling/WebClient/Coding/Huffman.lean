import WebClient.Coding.Inflater

/-!
# Canonical codes

A code gives each symbol in use a row of one to fifteen bits. The lengths of the rows fix the code:
the codes of one length are consecutive numbers in the order of their symbols, and the shorter ones
come first. So a code is kept as the number of symbols of each length, and the symbols in the order
of their codes.

A code is complete when every endless row of bits starts with the code of a symbol. Of the codes
that are not, two can be read: the one without symbols, and the one with a single symbol of one bit,
which leaves the other bit without a meaning.
-/

namespace WebClient

/-- A code, as the number of symbols of each length from one to the longest, and all symbols in
order. -/
structure Huffman where
  counts : List Nat
  symbols : Array Nat
  deriving DecidableEq, Repr

namespace Huffman

def maxLength : Nat := 15

/-- The symbols whose codes have the given length, when a list tells the length of each. -/
def symbolsOf (lengths : List Nat) (length : Nat) : List Nat :=
  (lengths.zipIdx.filter (·.1 = length)).map (·.2)

/-- The code in which each symbol has its length; a symbol of length zero is not in use. The code
without symbols has a longest length of one too, so that a bit must be there to find it missing. -/
def ofLengths (lengths : List Nat) : Huffman :=
  let groups := (List.range (lengths.foldl max 1)).map fun i => symbolsOf lengths (i + 1)
  { counts := groups.map List.length, symbols := groups.flatten.toArray }

/-- How many rows of `bits` bits start with the code of some symbol, where the code has so many
symbols of each length up to that one. -/
def covered (bits : Nat) : List Nat → Nat
  | [] => 0
  | count :: counts => (count <<< (bits - 1)) + covered (bits - 1) counts

/-- Whether every row of fifteen bits starts with exactly one code. -/
def isComplete (code : Huffman) : Bool :=
  covered maxLength code.counts = 1 <<< maxLength

/-- Whether the code can be read: it is complete, or it has at most one symbol, and no symbol of
more than one bit. -/
def isUsable (code : Huffman) : Bool :=
  code.isComplete || (code.symbols.size ≤ 1 && code.counts.length ≤ 1)

/-- `find` behind `length` bits, which spell `code`: `first` is the code that the first symbol of
the next length would have, and `index` the number of shorter codes. -/
def findFrom (symbols : Array Nat) (s : Inflater) (length code first index : Nat) :
    (counts : List Nat) → Nat × Option Nat
  | [] => (length, none)
  | count :: counts =>
    let code := 2 * code + s.peek length
    if code < first + count then (length + 1, symbols[index + (code - first)]?)
    else
      findFrom symbols s (length + 1) code (2 * (first + count)) (index + count) counts

/-- The length of the code with which the next bits start, and its symbol; none when they have as
many bits as the longest code and start with no code. -/
def find (code : Huffman) (s : Inflater) : Nat × Option Nat :=
  findFrom code.symbols s 0 0 0 0 code.counts

def isBuffered (code : Huffman) (s : Inflater) : Bool :=
  (code.find s).1 ≤ s.buffered

/-- Fetches what the next symbol may need, two bytes where there are two at hand and no more than
needed where there are not. Tells whether the symbol is in the buffer; otherwise a portion has been
taken in, with which to try again. -/
def gather (code : Huffman) (s : Inflater) : Except Halt (Bool × Inflater) := do
  if s.buffered ≥ maxLength then return (true, s)
  else if s.atHand ≥ 2 then return (true, s.fetch 2)
  else if code.isBuffered s then return (true, s)
  else if s.atHand = 1 && code.isBuffered (s.fetch 1) then return (true, s.fetch 1)
  else
    let s ← (s.fetch s.atHand).take
    return (false, s)

def gatherIn (code : Huffman) : (tries : Nat) → Inflater → Except Halt Inflater
  | 0, s => .ok s
  | tries + 1, s => do
    let (isThere, s) ← code.gather s
    if isThere then return s else code.gatherIn tries s

/-- The next symbol, whose bits are in the buffer; bits that start with no code are corrupt. -/
def readBuffered (code : Huffman) (s : Inflater) : Except Halt (Nat × Inflater) :=
  match code.find s with
  | (length, some symbol) => .ok (symbol, s.skip length)
  | (_, none) => .error (.fault .corrupt)

/-- The next symbol. Only the last portion may have fewer than two bytes, so the symbol is there at
the second try, unless there is nothing more to take in. -/
def read (code : Huffman) (s : Inflater) : Except Halt (Nat × Inflater) := do
  let s ← code.gatherIn 2 s
  code.readBuffered s

end Huffman

end WebClient
