import WebClient.Settings.Basic
import WebClient.Text.Blank
import WebClient.Text.Quoted
import WebClient.Text.Utf8
import WebClient.Xml.Entity
import WebClient.Xml.Event

/-!
# Settings documents

Settings are written as the child elements of a `transport` element. The reader goes through the
events of a document and remembers the element that was opened last inside `transport`; the first
text after that is its value. Elements it does not know are passed over. The first bad value ends
the reading, even if the document is malformed further on.
-/

namespace WebClient.Settings

inductive FileFault where
  | isDirectory
  | notUtf8
  deriving DecidableEq, Repr

inductive ReadError where
  | file (fault : FileFault)
  | malformed
  | invalidValue (element value : String)
  deriving DecidableEq, Repr

def ReadError.message : ReadError → String
  | file .isDirectory => "cannot read transport settings: it is a directory"
  | file .notUtf8 => "cannot read transport settings: it is not UTF-8"
  | malformed => "XML parse error"
  | invalidValue element value =>
    "invalid value " ++ Text.quoted value ++ " for <" ++ element ++ ">"

def readFlag? (value : String) : Option Bool :=
  if value ∈ ["true", "yes", "1"] then some true
  else if value ∈ ["false", "no", "0"] then some false
  else none

/-- The settings with the value that an element gives to one of them, none when the value is not
valid for that one. -/
def set? (settings : Settings) (element value : String) : Option Settings :=
  match element with
  | "trace-log" => (readFlag? value).map fun b => { settings with traceLogging := b }
  | "max-redirects" =>
    (Text.numeral? 10 (Text.maxOfBits 32) value.toList).map fun n =>
      { settings with maxRedirects := UInt32.ofNat n }
  | "chunking-disabled" => (readFlag? value).map fun b => { settings with chunkingDisabled := b }
  | "idle-handler-removed" =>
    (readFlag? value).map fun b => { settings with idleHandlerRemoved := b }
  | _ => some settings

def set (settings : Settings) (element value : String) : Except ReadError Settings :=
  match settings.set? element value with
  | some settings => .ok settings
  | none => .error (.invalidValue element value)

/-- Where a reader stands in a document: the settings so far, whether `transport` is open, and the
element whose value may come next. -/
structure Place where
  settings : Settings := {}
  inTransport : Bool := false
  element : Option String := none
  deriving DecidableEq, Repr

def rootName : List Char := "transport".toList

def Place.step (p : Place) (event : Xml.Event) : Except ReadError Place :=
  match event with
  | .startTag name =>
    if name = rootName then .ok { p with inTransport := true }
    else if p.inTransport then
      .ok { p with element := if name.isEmpty then none else some (String.ofList name) }
    else .ok p
  | .text raw =>
    match p.inTransport, p.element with
    | true, some element =>
      match Xml.unescape? raw with
      | none => .error .malformed
      | some value =>
        (p.settings.set element (String.ofList (Text.trimChars value))).map fun settings =>
          { p with settings, element := none }
    | _, _ => .ok p
  | .endTag name =>
    .ok { p with inTransport := p.inTransport && name ≠ rootName, element := none }
  | .emptyTag _ | .other => .ok p

def ofEventsFrom (p : Place) : List Xml.Event → Except ReadError Settings
  | [] => .ok p.settings
  | event :: events =>
    match p.step event with
    | .ok p => ofEventsFrom p events
    | .error e => .error e

def ofEvents (events : List Xml.Event) : Except ReadError Settings :=
  ofEventsFrom {} events

def ofDocument (document : String) : Except ReadError Settings :=
  match Xml.events document.toList with
  | (events, wellFormed) =>
    match ofEvents events with
    | .ok settings => if wellFormed then .ok settings else .error .malformed
    | .error e => .error e

inductive File where
  | missing
  | directory
  | content (bytes : Bytes)

/-- The settings in a file; where there is no file, everything is as it is by default. -/
def load : File → Except ReadError Settings
  | .missing => .ok {}
  | .directory => .error (.file .isDirectory)
  | .content bytes =>
    match Utf8.decode? bytes with
    | some document => ofDocument document
    | none => .error (.file .notUtf8)

end WebClient.Settings
