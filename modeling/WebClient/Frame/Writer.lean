import WebClient.Bytes
import WebClient.Frame.Opcode

/-!
# Writing frames

A frame goes out as one byte for its final bit and opcode, the length of the payload in the
shortest of three forms, a masking key, and the payload combined with the key byte by byte. A
client masks every frame. Control frames are never fragmented and are short; other payloads have a
limit of 16 MiB.
-/

namespace WebClient

structure Frame where
  opcode : Opcode
  payload : Bytes
  fin : Bool := true
  deriving DecidableEq, Repr

structure MaskKey where
  byte0 : UInt8
  byte1 : UInt8
  byte2 : UInt8
  byte3 : UInt8
  deriving DecidableEq, Repr

namespace MaskKey

def toBytes (key : MaskKey) : Bytes :=
  [key.byte0, key.byte1, key.byte2, key.byte3]

def byteAt (key : MaskKey) (index : Nat) : UInt8 :=
  match index % 4 with
  | 0 => key.byte0
  | 1 => key.byte1
  | 2 => key.byte2
  | _ => key.byte3

def apply (key : MaskKey) (payload : Bytes) : Bytes :=
  payload.mapIdx fun index b => b ^^^ key.byteAt index

theorem apply_apply (key : MaskKey) (payload : Bytes) :
    key.apply (key.apply payload) = payload := by
  apply List.ext_getElem
  · simp only [apply, List.length_mapIdx]
  · intro index _ _
    simp only [apply, List.getElem_mapIdx, UInt8.xor_assoc, UInt8.xor_self, UInt8.xor_zero]

end MaskKey

namespace Frame

def maxControlPayload : Nat := 125

def maxPayload : Nat := 16 * 1024 * 1024

inductive WriteError where
  | badControl
  | tooLong
  deriving DecidableEq, Repr

def WriteError.message : WriteError → String
  | badControl => "control frame payload max 125 bytes, unfragmented"
  | tooLong => "payload too long"

def text (s : String) : Frame :=
  { opcode := .text, payload := Bytes.ofString s }

def binary (data : Bytes) : Frame :=
  { opcode := .binary, payload := data }

def ping (data : Bytes) : Frame :=
  { opcode := .ping, payload := data }

def pong (data : Bytes) : Frame :=
  { opcode := .pong, payload := data }

/-- A Close; without a code it has no reason either. -/
def close (code : Option CloseCode) (reason : String) : Frame :=
  { opcode := .close
    payload := match code with
      | some code => Bytes.ofNat 2 code.toNat ++ Bytes.ofString reason
      | none => [] }

/-- The length of a payload with the mask bit: in seven bits, or announced by 126 or 127 and
written out in two or eight bytes. -/
def lengthBytes (length : Nat) : Bytes :=
  if length < 126 then [0x80 ||| UInt8.ofNat length]
  else if length < 65536 then (0x80 ||| 126) :: Bytes.ofNat 2 length
  else (0x80 ||| 127) :: Bytes.ofNat 8 length

def head (frame : Frame) : Bytes :=
  ((if frame.fin then 0x80 else 0) ||| frame.opcode.code) :: lengthBytes frame.payload.length

def refusal? (frame : Frame) : Option WriteError :=
  if frame.opcode.isControl && (frame.payload.length > maxControlPayload || !frame.fin) then
    some .badControl
  else if frame.payload.length > maxPayload then some .tooLong
  else none

/-- The frame as it goes over the wire under a masking key. It is refused before its first byte is
written, so a refusal leaves nothing behind. -/
def encode (frame : Frame) (key : MaskKey) : Except WriteError Bytes :=
  match frame.refusal? with
  | some e => .error e
  | none => .ok (frame.head ++ key.toBytes ++ key.apply frame.payload)

end Frame

end WebClient
