import WebClient.Coding.Checksum
import WebClient.Coding.Deflate

/-!
# Zlib

The zlib format puts two bytes before deflated data, which name the method and the size of the
window, and Adler's sum behind it.
-/

namespace WebClient.Zlib

/-- Whether two bytes start data that can be read: deflated, with a window of at most 32 KiB,
without a dictionary of its own, and with a valid check. -/
def isHeader (first second : UInt8) : Bool :=
  (first.toNat * 256 + second.toNat) % 31 = 0 && second &&& 0x20 = 0 && first &&& 0x0F = 8 &&
    first >>> 4 ≤ 7

/-- Goes on behind deflated data to the sum, and checks it. It belongs to the data that is taken in
and given out. -/
def checkSum (s : Inflater) : Except Halt Inflater := do
  let (b₀, s) ← s.bits 8
  let (b₁, s) ← s.bits 8
  let (b₂, s) ← s.bits 8
  let (b₃, s) ← s.bits 8
  let sum := ((b₀ * 256 + b₁) * 256 + b₂) * 256 + b₃
  if sum ≠ (Adler32.checksum s.out).toNat then throw (.fault .corrupt)
  return s

/-- Inflates data in the format; what follows it is ignored. -/
def inflate (limit : Nat) (data : Bytes) : Except InflateError Bytes :=
  match data with
  | first :: second :: _ => do
    if !isHeader first second then throw .corrupt
    Deflate.inflated do
      checkSum (← Deflate.inflateAll (.start limit data.toByteArray 0 2))
  | _ => .error .truncated

end WebClient.Zlib
