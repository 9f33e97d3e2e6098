import WebClient.Bytes
import WebClient.Text.Numeral

/-!
# Escaped bytes

Bytes of an unknown kind are shown in ASCII: visible characters and blanks stand as they are, apart
from both quotes and the backslash, and every other byte is an escape. Two hexadecimal digits write
the bytes that have no escape of their own.
-/

namespace WebClient.Text

def hexPair (b : UInt8) : List Char :=
  [Nat.digitChar (b.toNat / 16), Nat.digitChar (b.toNat % 16)]

/-- A byte as it is shown. -/
def escapeByte (b : UInt8) : List Char :=
  match Char.ofNat b.toNat with
  | '\t' => ['\\', 't']
  | '\n' => ['\\', 'n']
  | '\r' => ['\\', 'r']
  | '"' => ['\\', '"']
  | '\x27' => ['\\', '\x27']
  | '\\' => ['\\', '\\']
  | c => if ' ' ≤ c ∧ c ≤ '~' then [c] else '\\' :: 'x' :: hexPair b

def escaped (bytes : Bytes) : String :=
  String.ofList (bytes.flatMap escapeByte)

end WebClient.Text
