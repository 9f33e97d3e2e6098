/-!
# Opcodes and close codes

The low four bits of a frame's first byte say what the frame is. Six values are in use, and the
three of them with the high bit set are control frames, which may stand between the fragments of a
message. A Close frame may carry a code, of which some values never go over the wire.
-/

namespace WebClient

inductive Opcode where
  | continuation
  | text
  | binary
  | close
  | ping
  | pong
  deriving DecidableEq, Repr

namespace Opcode

def all : List Opcode := [continuation, text, binary, close, ping, pong]

def code : Opcode → UInt8
  | continuation => 0x0
  | text => 0x1
  | binary => 0x2
  | close => 0x8
  | ping => 0x9
  | pong => 0xA

/-- The opcode of four bits, none for a reserved value. -/
def ofCode? (code : UInt8) : Option Opcode :=
  all.find? (·.code == code)

def isControl : Opcode → Bool
  | close | ping | pong => true
  | continuation | text | binary => false

@[simp] theorem ofCode?_code (opcode : Opcode) : ofCode? opcode.code = some opcode := by
  cases opcode <;> rfl

end Opcode

abbrev CloseCode := UInt16

namespace CloseCode

/-- The side that closes no longer needs the connection, or is shutting down. -/
def goingAway : CloseCode := 1001

def protocolError : CloseCode := 1002

/-- Stands for a Close frame without a code; it is never sent. -/
def noStatus : CloseCode := 1005

/-- Whether a Close frame may carry the code: the registered codes apart from those kept for local
use, and the range left to libraries and applications. -/
def isSendable (code : CloseCode) : Bool :=
  (1000 ≤ code && code ≤ 1003) || (1007 ≤ code && code ≤ 1014) || (3000 ≤ code && code ≤ 4999)

end CloseCode

end WebClient
