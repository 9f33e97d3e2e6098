import WebClient.Coding.Huffman

/-!
# Deflate

Deflated data is a row of blocks. A stored block holds its bytes as they are; the others hold
symbols of two codes, which are fixed or precede the symbols. A symbol of the first code is a byte,
the end of the block, or the length of a stretch to be repeated, whose distance the second code
gives. A distance that reaches back before the first byte repeats zeros.

Reading goes by steps, each of which reads a symbol or two, the start of a block or some of its
stored bytes. How a step fetches bits depends on how much it has at hand: where there is plenty of
data and of room, it keeps the buffer full; near the end of either it fetches only what it needs.
-/

namespace WebClient.Deflate

structure Codes where
  literals : Huffman
  distances : Huffman

/-- A length or distance: its least value, and the number of bits that add to it. -/
structure Span where
  least : Nat
  extraBits : Nat
  deriving DecidableEq, Repr

/-- Spans one after the other, from the least value and the numbers of bits. -/
def spansFrom (least : Nat) : (extraBits : List Nat) → List Span
  | [] => []
  | extraBits :: rest => { least, extraBits } :: spansFrom (least + (1 <<< extraBits)) rest

/-- The lengths of repeated stretches; the longest has a symbol of its own. -/
def lengths : Array Span :=
  (spansFrom 3 ([0, 0, 0, 0] ++ (List.range 6).flatMap (List.replicate 4))).toArray.push
    { least := 258, extraBits := 0 }

def distances : Array Span :=
  (spansFrom 1 ([0, 0] ++ (List.range 14).flatMap (List.replicate 2))).toArray

/-- The codes of a block that brings none. -/
def fixedCodes : Codes where
  literals := .ofLengths (List.replicate 144 8 ++ List.replicate 112 9 ++ List.replicate 24 7 ++
    List.replicate 8 8)
  distances := .ofLengths (List.replicate 32 5)

/-- The order in which a block gives the lengths of the code that its lengths are written in. -/
def lengthOrder : List Nat :=
  [16, 17, 18, 0, 8, 7, 9, 6, 10, 5, 11, 4, 12, 3, 13, 2, 14, 1, 15]

/-- The lengths that a block gives for the code of its lengths, each with its symbol. -/
def readLengthLengths (s : Inflater) : (symbols : List Nat) →
    Except Halt (List (Nat × Nat) × Inflater)
  | [] => .ok ([], s)
  | symbol :: symbols => do
    let (length, s) ← s.bits 3
    let (rest, s) ← readLengthLengths s symbols
    return ((symbol, length) :: rest, s)

/-- What a symbol above fifteen stands for among lengths: a length, and how often it comes beyond
the first time. -/
def readRepeat (symbol : Nat) (lengths : Array Nat) (s : Inflater) :
    Except Halt (Nat × Nat × Inflater) :=
  match symbol with
  | 16 =>
    match lengths.back? with
    | some last => do
      let (more, s) ← s.bits 2
      return (last, 2 + more, s)
    | none => .error (.fault .corrupt)
  | 17 => do
    let (more, s) ← s.bits 3
    return (0, 2 + more, s)
  | _ => do
    let (more, s) ← s.bits 7
    return (0, 10 + more, s)

def readLengths (code : Huffman) (total : Nat) (lengths : Array Nat) (s : Inflater) :
    Except Halt (List Nat × Inflater) :=
  if lengths.size < total then
    match code.read s with
    | .error e => .error e
    | .ok (symbol, s) =>
      if symbol < 16 then readLengths code total (lengths.push symbol) s
      else match readRepeat symbol lengths s with
        | .error e => .error e
        | .ok (length, again, s) =>
          readLengths code total (lengths ++ Array.replicate (again + 1) length) s
  else if lengths.size = total then .ok (lengths.toList, s)
  else .error (.fault .corrupt)
termination_by total - lengths.size
decreasing_by
  · simp only [Array.size_push]
    omega
  · simp only [Array.size_append, Array.size_replicate]
    omega

def usableCode (lengths : List Nat) : Except Halt Huffman :=
  let code := Huffman.ofLengths lengths
  if code.isUsable then .ok code else .error (.fault .corrupt)

def readCodes (s : Inflater) : Except Halt (Codes × Inflater) := do
  let (literals, s) ← s.bits 5
  let (distances, s) ← s.bits 5
  let (given, s) ← s.bits 4
  let literals := literals + 257
  let distances := distances + 1
  if literals > 286 || distances > 30 then throw (.fault .corrupt)
  let (lengthLengths, s) ← readLengthLengths s (lengthOrder.take (given + 4))
  let code := Huffman.ofLengths
    ((List.range lengthOrder.length).map fun symbol => (lengthLengths.lookup symbol).getD 0)
  if !code.isComplete then throw (.fault .corrupt)
  let (lengths, s) ← readLengths code (literals + distances) #[] s
  let distances ← usableCode (lengths.drop literals)
  let literals ← usableCode (lengths.take literals)
  return ({ literals, distances }, s)

/-- Where the reading stands: in front of a block or behind the last one, among the symbols of a
block, or among the bytes of a stored one, of which so many are left. -/
inductive Place where
  | between
  | symbols (codes : Codes)
  | stored (left : Nat)

/-- How a reading goes on: from a place, of which it is known whether the last block has started. -/
structure State where
  inflater : Inflater
  place : Place := .between
  isLast : Bool := false

inductive Step where
  | again (s : State)
  | done (s : Inflater)

/-- The number that a symbol and its further bits give. Before these are read, a reader with plenty
at hand fills its buffer. -/
def readSpan (spans : Array Span) (symbol : Nat) (fill : Span → Bool) (s : Inflater) :
    Except Halt (Nat × Inflater) :=
  match spans[symbol]? with
  | some span => do
    let (more, s) ← (if fill span then s.fill else s).bits span.extraBits
    return (span.least + more, s)
  | none => .error (.fault .corrupt)

/-- Reads what belongs to a symbol that is not a byte: nothing for the end of the block, or the
stretch to be repeated. -/
def readStretch (codes : Codes) (symbol : Nat) (hasPlenty : Bool) (s : Inflater) :
    Except Halt (Inflater × Place) := do
  if symbol = 256 then return (s, .between)
  else
    let (length, s) ← readSpan lengths (symbol - 257) (fun _ => hasPlenty) s
    let (symbol, s) ← codes.distances.read s
    let (distance, s) ← readSpan distances symbol (fun span => hasPlenty && span.extraBits > 0) s
    return (← s.repeatBack distance length, .symbols codes)

/-- Reads one symbol with no more than is needed for it. -/
def readSparingly (codes : Codes) (s : Inflater) : Except Halt (Inflater × Place) := do
  let (isThere, s) ← codes.literals.gather s
  if isThere then
    let (symbol, s) ← codes.literals.readBuffered s
    if symbol < 256 then return (← s.put (UInt8.ofNat symbol), .symbols codes)
    else readStretch codes symbol false s
  else return (s, .symbols codes)

/-- Reads a symbol from a buffer that has been filled, and a second one if the first is a byte. -/
def readFilled (codes : Codes) (hasPlenty : Bool) (s : Inflater) :
    Except Halt (Inflater × Place) := do
  let (symbol, s) ← codes.literals.readBuffered s.fill
  if symbol < 256 then
    let (next, s) ← codes.literals.readBuffered s
    let s ← s.put (UInt8.ofNat symbol)
    if next < 256 then return (← s.put (UInt8.ofNat next), .symbols codes)
    else readStretch codes next hasPlenty s
  else readStretch codes symbol hasPlenty s

def readSymbols (codes : Codes) (s : Inflater) : Except Halt (Inflater × Place) :=
  if s.atHand < 4 || s.room < 2 then readSparingly codes s
  else readFilled codes (s.atHand ≥ 14 && s.room ≥ 259) s

/-- Reads bytes of a stored block: one that is in the buffer already, or else those at hand. -/
def readStored (left : Nat) (s : Inflater) : Except Halt (Inflater × Place) := do
  if left = 0 then return (s, .between)
  else if s.buffered > 0 then
    let (b, s) ← s.bits 8
    return (← s.put (UInt8.ofNat b), .stored (left - 1))
  else
    let (count, s) ← s.copy left
    return (s, .stored (left - count))

/-- The length of a stored block, which comes twice, the second time with all bits turned. -/
def readStoredLength (s : Inflater) : Except Halt (Nat × Inflater) := do
  let (length, s) ← s.align.bits 16
  let (turned, s) ← s.bits 16
  if length + turned ≠ 0xFFFF then throw (.fault .corrupt)
  return (length, s)

def readBlock (s : Inflater) : Except Halt State := do
  let (start, s) ← s.bits 3
  let isLast := start % 2 = 1
  match start / 2 with
  | 0 =>
    let (left, s) ← readStoredLength s
    return { inflater := s, place := .stored left, isLast }
  | 1 => return { inflater := s, place := .symbols fixedCodes, isLast }
  | 2 =>
    let (codes, s) ← readCodes s
    return { inflater := s, place := .symbols codes, isLast }
  | _ => throw (.fault .corrupt)

def step (s : State) : Except Halt Step :=
  let ⟨inflater, place, isLast⟩ := s
  match place with
  | .between => if isLast then .ok (.done inflater.finish) else (readBlock inflater).map .again
  | .symbols codes =>
    (readSymbols codes inflater).map fun (inflater, place) => .again { inflater, place, isLast }
  | .stored left =>
    (readStored left inflater).map fun (inflater, place) => .again { inflater, place, isLast }

/-- So many steps, or fewer if the data ends before. -/
def run : (steps : Nat) → State → Except Halt Inflater
  | 0, _ => .error (.fault .truncated)
  | steps + 1, s =>
    match step s with
    | .error e => .error e
    | .ok (.done s) => .ok s
    | .ok (.again s) => run steps s

/-- Inflates data to its end. Every step reads a bit or takes in a byte, but for the last one and
the one at the end of a stored block, which has four bytes at its start. -/
def inflateAll (s : Inflater) : Except Halt Inflater :=
  run (10 * s.bytes.size + 10) { inflater := s }

def inflated (result : Except Halt Inflater) : Except InflateError Bytes :=
  match result with
  | .ok s => .ok s.out.data.toList
  | .error (.enough out) => .ok out.data.toList
  | .error (.fault e) => .error e

/-- Inflates data without a header; what follows it is ignored. -/
def inflate (limit : Nat) (data : Bytes) : Except InflateError Bytes :=
  inflated (inflateAll (.start limit data.toByteArray 0 0))

end WebClient.Deflate
