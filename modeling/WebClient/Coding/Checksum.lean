/-!
# Checksums

The two sums that compressed data carries of what it stands for. The cyclic redundancy check is the
remainder of a division of polynomials, taken a byte at a time with the help of a table; Adler's sum
adds up the bytes, and the sums as they grow.
-/

namespace WebClient

namespace Crc32

/-- A remainder one bit on. -/
def shift (c : UInt32) : UInt32 :=
  if c &&& 1 = 1 then (c >>> 1) ^^^ 0xEDB88320 else c >>> 1

def table : Array UInt32 :=
  (List.range 256).toArray.map fun b => Nat.repeat shift 8 (UInt32.ofNat b)

def update (c : UInt32) (b : UInt8) : UInt32 :=
  table.getD ((c ^^^ b.toUInt32) &&& 0xFF).toNat 0 ^^^ (c >>> 8)

def checksum (bytes : ByteArray) : UInt32 :=
  ~~~(bytes.foldl update 0xFFFFFFFF)

end Crc32

namespace Adler32

/-- The prime below which both sums are kept. -/
def modulus : UInt32 := 65521

def update (sums : UInt32 × UInt32) (b : UInt8) : UInt32 × UInt32 :=
  let a := (sums.1 + b.toUInt32) % modulus
  (a, (sums.2 + a) % modulus)

def checksum (bytes : ByteArray) : UInt32 :=
  let (a, b) := bytes.foldl update (1, 0)
  (b <<< 16) ||| a

end Adler32

end WebClient
