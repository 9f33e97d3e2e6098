/-!
# Unsigned numerals

Ports, status codes, lengths, chunk sizes and counts are unsigned numerals: an optional plus sign
and at least one digit of the base, with no other character, leading zeros being allowed. A reader
names the largest number it can hold, and a numeral above that is refused like a malformed one.
-/

namespace WebClient.Text

def digitValue? (base : Nat) (c : Char) : Option Nat :=
  let value? :=
    if '0' ≤ c ∧ c ≤ '9' then some (c.toNat - '0'.toNat)
    else if 'a' ≤ c ∧ c ≤ 'f' then some (c.toNat - 'a'.toNat + 10)
    else if 'A' ≤ c ∧ c ≤ 'F' then some (c.toNat - 'A'.toNat + 10)
    else none
  value?.filter (· < base)

/-- The number that digits continue from `value`, none when a character is no digit or the number
grows above `largest`. -/
def digitsFrom? (base largest value : Nat) : List Char → Option Nat
  | [] => some value
  | c :: cs =>
    match digitValue? base c with
    | some d =>
      let next := value * base + d
      if next ≤ largest then digitsFrom? base largest next cs else none
    | none => none

/-- The number written by a numeral of the given base, if it is at most `largest`. -/
def numeral? (base largest : Nat) (cs : List Char) : Option Nat :=
  let digits := match cs with
    | '+' :: rest => rest
    | _ => cs
  match digits with
  | [] => none
  | _ :: _ => digitsFrom? base largest 0 digits

/-- The decimal digits of a number, without leading zeros. -/
def decimal (n : Nat) : List Char :=
  Nat.toDigits 10 n

def hexadecimal (n : Nat) : List Char :=
  Nat.toDigits 16 n

/-- The largest numbers of 8, 16, 32 and 64 bits, the bounds of the numerals read here. -/
def maxOfBits (bits : Nat) : Nat :=
  (1 <<< bits) - 1

theorem digitsFrom?_le {base largest value n : Nat} {cs : List Char} (hv : value ≤ largest)
    (h : digitsFrom? base largest value cs = some n) : n ≤ largest := by
  induction cs generalizing value with
  | nil => simpa [digitsFrom?, ← Option.some_inj.1 h] using hv
  | cons c cs ih =>
    simp only [digitsFrom?] at h
    split at h
    · split at h
      · next hle => exact ih hle h
      · simp at h
    · simp at h

theorem numeral?_le {base largest n : Nat} {cs : List Char}
    (h : numeral? base largest cs = some n) : n ≤ largest := by
  simp only [numeral?] at h
  split at h
  · simp at h
  · exact digitsFrom?_le (Nat.zero_le _) h

end WebClient.Text
