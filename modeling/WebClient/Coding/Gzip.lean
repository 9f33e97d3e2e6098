import WebClient.Coding.Checksum
import WebClient.Coding.Deflate

/-!
# Gzip

A gzip member has a header, deflated data, and behind it the check and the length of the data. A
byte of flags in the header says which further fields it has; a bit of it that has no meaning must
not be set.
-/

namespace WebClient.Gzip

/-- The most bytes a name or a comment may have. -/
def maxFieldBytes : Nat := 65535

def hasFlag (flags flag : UInt8) : Bool :=
  flags &&& flag ≠ 0

def littleEndian (bytes : Bytes) : Nat :=
  Bytes.toNat bytes.reverse

def take (count : Nat) (bytes : Bytes) : Except InflateError (Bytes × Bytes) :=
  match bytes.take? count with
  | some cut => .ok cut
  | none => .error .truncated

/-- What follows the fixed part of a header and its extra field. -/
def skipExtra (flags : UInt8) (bytes : Bytes) : Except InflateError Bytes := do
  if hasFlag flags 0x04 then
    let (length, rest) ← take 2 bytes
    let (_, rest) ← take (littleEndian length) rest
    return rest
  else return bytes

/-- What follows a text that ends with a zero byte, where a flag says that there is one. -/
def skipText (flags flag : UInt8) (bytes : Bytes) : Except InflateError Bytes :=
  if hasFlag flags flag then
    let (text, rest) := bytes.span (· ≠ 0)
    if text.length > maxFieldBytes then .error .corrupt
    else match rest with
      | _ :: rest => .ok rest
      | [] => .error .truncated
  else .ok bytes

def skipCheck (flags : UInt8) (header bytes : Bytes) : Except InflateError Bytes := do
  if hasFlag flags 0x02 then
    let (check, rest) ← take 2 bytes
    let sum := (Crc32.checksum header.toByteArray).toNat % 65536
    if littleEndian check ≠ sum then throw .corrupt
    return rest
  else return bytes

def skipHeader (data : Bytes) : Except InflateError Bytes := do
  let (fixed, rest) ← take 10 data
  match fixed with
  | 0x1F :: 0x8B :: 8 :: flags :: _ =>
    if flags &&& 0xE0 ≠ 0 then throw .corrupt
    let rest ← skipExtra flags rest
    let rest ← skipText flags 0x08 rest
    let rest ← skipText flags 0x10 rest
    skipCheck flags (data.take (data.length - rest.length)) rest
  | _ => throw .corrupt

/-- Where the portions start in which data with a header is taken in: at the start of the data, or
behind an extra field of which a portion or more is left when the first portion has been used up,
for such a rest is taken in at once. -/
def origin (data : Bytes) : Nat :=
  let fieldEnd := 12 + littleEndian ((data.drop 10).take 2)
  if hasFlag (data.getD 3 0) 0x04 && fieldEnd ≥ 2 * Inflater.portionSize then fieldEnd else 0

/-- Inflates the first member of some data; what follows it is ignored. The check is made when all
data has been given out, so data above the limit is given back without it. -/
def inflate (limit : Nat) (data : Bytes) : Except InflateError Bytes := do
  let content ← skipHeader data
  let index := data.length - content.length
  match Deflate.inflateAll (.start limit data.toByteArray (origin data) index) with
  | .error e => Deflate.inflated (.error e)
  | .ok s =>
    if s.out.size ≤ limit then
      let (trailer, _) ← take 8 (data.drop s.byteIndex)
      let check := littleEndian (trailer.take 4)
      let length := littleEndian (trailer.drop 4)
      if check ≠ (Crc32.checksum s.out).toNat || length ≠ s.out.size % 0x100000000 then
        throw .corrupt
    return s.out.data.toList

end WebClient.Gzip
