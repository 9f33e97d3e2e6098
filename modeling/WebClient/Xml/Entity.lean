import WebClient.Text.Numeral

/-!
# Entities

In character data an ampersand starts a reference, which a semicolon ends: the number of a character
in decimal, or behind an x in hexadecimal, or one of five names. A reference that does not end, an
unknown name and a number that is no character make the text malformed.
-/

namespace WebClient.Xml

/-- The character with a number, which is neither zero nor a surrogate. -/
def charOfNumber? (n : Nat) : Option Char :=
  if n = 0 then none
  else if h : n.isValidChar then some (Char.ofNatAux n h)
  else none

def referenceNumber? (cs : List Char) : Option Nat :=
  let (base, digits) := match cs with
    | 'x' :: digits => (16, digits)
    | _ => (10, cs)
  if digits.head? = some '+' then none else Text.numeral? base (Text.maxOfBits 32) digits

/-- The character a reference stands for, by what is between its ampersand and semicolon. -/
def reference? (name : List Char) : Option Char :=
  match name with
  | '#' :: number => (referenceNumber? number).bind charOfNumber?
  | ['l', 't'] => some '<'
  | ['g', 't'] => some '>'
  | ['a', 'm', 'p'] => some '&'
  | ['a', 'p', 'o', 's'] => some '\''
  | ['q', 'u', 'o', 't'] => some '"'
  | _ => none

/-- `unescape?` with the characters so far, latest first, and those of a reference that has
begun. -/
def unescapeFrom? (seen : List Char) (begun : Option (List Char)) : List Char → Option (List Char)
  | [] => if begun.isNone then some seen.reverse else none
  | c :: cs =>
    match begun with
    | none => if c = '&' then unescapeFrom? seen (some []) cs else unescapeFrom? (c :: seen) none cs
    | some name =>
      if c = ';' then
        match reference? name.reverse with
        | some d => unescapeFrom? (d :: seen) none cs
        | none => none
      else if c = '&' then none
      else unescapeFrom? seen (some (c :: name)) cs

def unescape? (cs : List Char) : Option (List Char) :=
  unescapeFrom? [] none cs

end WebClient.Xml
