import WebClient.Text.Blank
import WebClient.Text.Letter

/-!
# Header fields

The header fields of a message, in the order in which they stand on the wire. A name may stand more
than once, and names are compared without regard to letter case. Setting a field keeps its place and
its spelling, so a list built by setting alone never has one name twice.
-/

namespace WebClient.Http

structure Field where
  name : String
  value : String
  deriving DecidableEq, Repr

abbrev Headers := List Field

def Field.isNamed (field : Field) (name : String) : Bool :=
  Text.eqIgnoringCase field.name name

namespace Headers

def get? (headers : Headers) (name : String) : Option String :=
  (headers.find? (·.isNamed name)).map (·.value)

def has (headers : Headers) (name : String) : Bool :=
  headers.any (·.isNamed name)

/-- The fields with the first one of the name given a new value, or with a new field behind the
others when there is none. -/
def set (headers : Headers) (name value : String) : Headers :=
  match headers with
  | [] => [{ name, value }]
  | field :: rest =>
    if field.isNamed name then { field with value } :: rest
    else field :: Headers.set rest name value

def setAll (headers fields : Headers) : Headers :=
  fields.foldl (fun (headers : Headers) field => headers.set field.name field.value) headers

def erase (headers : Headers) (name : String) : Headers :=
  headers.filter fun field => !field.isNamed name

def values (headers : Headers) (name : String) : List String :=
  (headers.filter (·.isNamed name)).map (·.value)

/-- The elements of the comma-separated lists in all fields with the name, blanks trimmed. -/
def elements (headers : Headers) (name : String) : List String :=
  (headers.values name).flatMap fun value =>
    (value.toList.splitOn ',').map fun element => String.ofList (Text.trimChars element)

/-- Whether the lists in the fields with the name have the element, in any letter case. -/
def hasElement (headers : Headers) (name element : String) : Bool :=
  (headers.elements name).any (Text.eqIgnoringCase · element)

theorem has_eq_isSome_get? (headers : Headers) (name : String) :
    headers.has name = (headers.get? name).isSome := by
  rw [Bool.eq_iff_iff]
  simp [has, get?, List.find?_isSome]

theorem has_erase (headers : Headers) (name : String) : (headers.erase name).has name = false := by
  simp [has, erase]

end Headers

end WebClient.Http
