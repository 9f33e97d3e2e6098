import WebClient.Bytes

/-!
# UTF-8

A reader of UTF-8 stands between characters or inside a sequence, where it knows how many
continuation bytes are owed and in which range the next one must fall; the ranges exclude overlong
forms, surrogates and values above U+10FFFF. Reading stops in one of three ways: at the end of a
character, inside a sequence that later bytes may complete, or at a byte that no continuation can
mend. The last two differ, because a message cut inside a character is not yet wrong.
-/

namespace WebClient.Utf8

/-- Where a reader stands. Inside a sequence, `owed` bytes follow the next one, which must lie
between `low` and `high`, and `bits` is the value of the bytes read so far. -/
inductive Place where
  | between
  | inside (owed : Nat) (low high : UInt8) (bits : Nat)
  deriving DecidableEq, Repr

inductive Step where
  | char (c : Char)
  | more (place : Place)
  | refuse
  deriving DecidableEq, Repr

/-- A byte read between characters: a character by itself, or the first byte of a sequence. -/
def first (b : UInt8) : Step :=
  if b < 0x80 then .char (Char.ofNat b.toNat)
  else if b < 0xC2 then .refuse
  else if b < 0xE0 then .more (.inside 0 0x80 0xBF (b.toNat % 32))
  else if b = 0xE0 then .more (.inside 1 0xA0 0xBF 0)
  else if b = 0xED then .more (.inside 1 0x80 0x9F 13)
  else if b < 0xF0 then .more (.inside 1 0x80 0xBF (b.toNat % 16))
  else if b = 0xF0 then .more (.inside 2 0x90 0xBF 0)
  else if b < 0xF4 then .more (.inside 2 0x80 0xBF (b.toNat % 8))
  else if b = 0xF4 then .more (.inside 2 0x80 0x8F 4)
  else .refuse

def step (place : Place) (b : UInt8) : Step :=
  match place with
  | .between => first b
  | .inside owed low high bits =>
    if low ≤ b ∧ b ≤ high then
      let bits := bits * 64 + b.toNat % 64
      match owed with
      | 0 => .char (Char.ofNat bits)
      | owed + 1 => .more (.inside owed 0x80 0xBF bits)
    else .refuse

/-- How a reading ends: at the end of a character, inside the sequence begun by `tail`, or at a
byte that cannot stand where it does. -/
inductive Ending where
  | complete
  | unfinished (tail : Bytes)
  | malformed
  deriving DecidableEq, Repr

/-- A reading that goes on: `text` is what the characters read so far spell, and `pending`, latest
first, are the bytes of the sequence the reader stands in. -/
def readFrom (place : Place) (pending : Bytes) (text : String) : Bytes → String × Ending
  | [] => (text, if place = .between then .complete else .unfinished pending.reverse)
  | b :: rest =>
    match step place b with
    | .char c => readFrom .between [] (text.push c) rest
    | .more place => readFrom place (b :: pending) text rest
    | .refuse => (text, .malformed)

def read (bs : Bytes) : String × Ending :=
  readFrom .between [] "" bs

def decode? (bs : Bytes) : Option String :=
  match read bs with
  | (text, .complete) => some text
  | _ => none

/-- A byte read after a refusal: the reader starts again with it. -/
def restart (text : String) (b : UInt8) : Place × String :=
  match first b with
  | .char c => (.between, text.push c)
  | .more place => (place, text)
  | .refuse => (.between, text.push '\uFFFD')

def decodeLossyFrom (place : Place) (text : String) : Bytes → String
  | [] => if place = .between then text else text.push '\uFFFD'
  | b :: rest =>
    match step place b with
    | .char c => decodeLossyFrom .between (text.push c) rest
    | .more place => decodeLossyFrom place text rest
    | .refuse =>
      match place with
      | .between => decodeLossyFrom .between (text.push '\uFFFD') rest
      | .inside .. =>
        let (place, text) := restart (text.push '\uFFFD') b
        decodeLossyFrom place text rest

/-- The text of bytes that need not be UTF-8: each longest run that starts a sequence and cannot be
continued becomes one replacement character. -/
def decodeLossy (bs : Bytes) : String :=
  decodeLossyFrom .between "" bs

end WebClient.Utf8
