import WebClient.Bytes

/-!
# SHA-1

The secure hash of FIPS 180-4 with a digest of 160 bits. A message is filled up to blocks of 64
bytes, of which the last ends with the message's length in bits; each block stretches to 80 words
and drives 80 rounds over five words of state, which are added to the state before the block.
-/

namespace WebClient.Sha1

structure State where
  a : UInt32
  b : UInt32
  c : UInt32
  d : UInt32
  e : UInt32
  deriving DecidableEq, Repr

def initial : State :=
  { a := 0x67452301, b := 0xEFCDAB89, c := 0x98BADCFE, d := 0x10325476, e := 0xC3D2E1F0 }

def rotateLeft (word : UInt32) (count : UInt32) : UInt32 :=
  (word <<< count) ||| (word >>> (32 - count))

/-- The message with a one bit, zero bits and the length behind it, in whole blocks. -/
def padded (message : Bytes) : Bytes :=
  let zeros := (119 - message.length % 64) % 64
  message ++ 0x80 :: List.replicate zeros 0 ++ Bytes.ofNat 8 (8 * message.length)

/-- The words that bytes spell, four bytes each. -/
def words : Bytes → List UInt32
  | a :: b :: c :: d :: rest => UInt32.ofNat (Bytes.toNat [a, b, c, d]) :: words rest
  | _ => []

/-- The words of a block stretched to 80: each further word mixes four earlier ones. -/
def schedule (block : List UInt32) : Array UInt32 :=
  (List.range 64).foldl
    (fun w i =>
      let word j := w.getD (i + j) 0
      w.push (rotateLeft (word 13 ^^^ word 8 ^^^ word 2 ^^^ word 0) 1))
    block.toArray

/-- What a round of the given number mixes: a function of three words, and a constant. -/
def mix (round : Nat) (b c d : UInt32) : UInt32 :=
  if round < 20 then ((b &&& c) ||| (~~~b &&& d)) + 0x5A827999
  else if round < 40 then (b ^^^ c ^^^ d) + 0x6ED9EBA1
  else if round < 60 then ((b &&& c) ||| (b &&& d) ||| (c &&& d)) + 0x8F1BBCDC
  else (b ^^^ c ^^^ d) + 0xCA62C1D6

def round (word : UInt32) (number : Nat) (s : State) : State :=
  { a := rotateLeft s.a 5 + mix number s.b s.c s.d + s.e + word
    b := s.a
    c := rotateLeft s.b 30
    d := s.c
    e := s.d }

def compress (s : State) (block : List UInt32) : State :=
  let w := schedule block
  let t := (List.range 80).foldl (fun t i => round (w.getD i 0) i t) s
  { a := s.a + t.a, b := s.b + t.b, c := s.c + t.c, d := s.d + t.d, e := s.e + t.e }

/-- The state after so many blocks, whose words are given in a row. -/
def compressAll (s : State) : (blocks : Nat) → List UInt32 → State
  | 0, _ => s
  | blocks + 1, ws => compressAll (compress s (ws.take 16)) blocks (ws.drop 16)

def digest (message : Bytes) : Bytes :=
  let filled := padded message
  let s := compressAll initial (filled.length / 64) (words filled)
  [s.a, s.b, s.c, s.d, s.e].flatMap fun word => Bytes.ofNat 4 word.toNat

end WebClient.Sha1
