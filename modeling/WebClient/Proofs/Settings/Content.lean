import WebClient.Settings.Document

/-!
# Settings documents as trees

What stands between two tags is a row of elements, empty tags, texts and other markup, and an
element has such a row between its own tags. The reader of settings does not see the tree but the
events it comes to, one after the other (`Xml.Content.events`). It takes a document part by part
(`Place.run_append`), and between two children of `transport` it waits for no value
(`Place.element_of_run`).
-/

namespace WebClient

namespace Xml

/-- What stands between two tags, from the first piece on. -/
inductive Content where
  | nil
  | element (name : List Char) (inner rest : Content)
  | empty (name : List Char) (rest : Content)
  | text (raw : List Char) (rest : Content)
  | other (rest : Content)

namespace Content

def events : Content → List Event
  | nil => []
  | element name inner rest => .startTag name :: (inner.events ++ .endTag name :: rest.events)
  | empty name rest => .emptyTag name :: rest.events
  | text raw rest => .text raw :: rest.events
  | other rest => .other :: rest.events

def append : Content → Content → Content
  | nil, more => more
  | element name inner rest, more => element name inner (rest.append more)
  | empty name rest, more => empty name (rest.append more)
  | text raw rest, more => text raw (rest.append more)
  | other rest, more => other (rest.append more)

instance : Append Content := ⟨append⟩

@[simp] theorem nil_append (more : Content) : nil ++ more = more := rfl

@[simp] theorem events_append (first more : Content) :
    (first ++ more).events = first.events ++ more.events := by
  change (first.append more).events = _
  induction first with
  | nil => rfl
  | element name inner rest _ ih => simp [append, events, ih]
  | empty | text | other => simp [append, events, *]

def legible : Content → Bool
  | nil => true
  | element _ inner rest => inner.legible && rest.legible
  | empty _ rest | other rest => rest.legible
  | text raw rest => (unescape? raw).isSome && rest.legible

end Content

end Xml

namespace Settings

open Xml (Content)

def settingNames : List String :=
  ["trace-log", "max-redirects", "chunking-disabled", "idle-handler-removed"]

theorem mem_settingNames {element : String} :
    element ∈ settingNames ↔ element = "trace-log" ∨ element = "max-redirects" ∨
      element = "chunking-disabled" ∨ element = "idle-handler-removed" := by
  simp [settingNames]

theorem set_eq_ok {settings settings' : Settings} {element value : String} :
    settings.set element value = .ok settings' ↔ settings.set? element value = some settings' := by
  unfold set
  cases settings.set? element value <;> simp

theorem set_of_not_mem {element : String} (h : element ∉ settingNames) (settings : Settings)
    (value : String) : settings.set element value = .ok settings := by
  simp only [mem_settingNames, not_or] at h
  rw [set_eq_ok]
  unfold set?
  split <;> simp_all

/-! ### Documents part by part -/

namespace Place

def run (p : Place) : List Xml.Event → Except ReadError Place
  | [] => .ok p
  | event :: events =>
    match p.step event with
    | .ok p => p.run events
    | .error e => .error e

theorem run_append (p : Place) (events more : List Xml.Event) :
    p.run (events ++ more) = (p.run events).bind fun p => p.run more := by
  induction events generalizing p with
  | nil => rfl
  | cons event events ih =>
    simp only [List.cons_append, run]
    cases p.step event with
    | error e => rfl
    | ok p => exact ih p

theorem run_append_eq_ok {p p' : Place} {events more : List Xml.Event} :
    p.run (events ++ more) = .ok p' ↔ ∃ q, p.run events = .ok q ∧ q.run more = .ok p' := by
  rw [run_append]
  cases p.run events <;> simp [Except.bind]

theorem run_cons_eq_ok {p p' : Place} {event : Xml.Event} {events : List Xml.Event} :
    p.run (event :: events) = .ok p' ↔ ∃ q, p.step event = .ok q ∧ q.run events = .ok p' := by
  simp only [run]
  cases p.step event <;> simp

theorem run_others (p : Place) (count : Nat) : p.run (List.replicate count .other) = .ok p := by
  induction count with
  | zero => rfl
  | succ count ih => simpa [List.replicate_succ, run, step] using ih

theorem ofEventsFrom_eq (p : Place) (events : List Xml.Event) :
    ofEventsFrom p events = (p.run events).map Place.settings := by
  induction events generalizing p with
  | nil => rfl
  | cons event events ih =>
    simp only [ofEventsFrom, run]
    cases p.step event with
    | error e => rfl
    | ok p => exact ih p

/-- The place behind the start of an element that is not the root. -/
def opened (p : Place) (name : List Char) : Place :=
  if p.inTransport then
    { p with element := if name.isEmpty then none else some (String.ofList name) }
  else p

theorem step_startTag {name : List Char} (h : name ≠ rootName) (p : Place) :
    p.step (.startTag name) = .ok (p.opened name) := by
  simp only [step, if_neg h, opened]
  split <;> rfl

theorem step_endTag {name : List Char} (h : name ≠ rootName) (p : Place) :
    p.step (.endTag name) = .ok { p with element := none } := by
  simp [step, h]

theorem opened_with (p : Place) (name : List Char) (element : Option String) :
    { p.opened name with element } = { p with element } := by
  unfold opened
  split <;> rfl

@[simp] theorem settings_opened (p : Place) (name : List Char) :
    (p.opened name).settings = p.settings := by
  unfold opened
  split <;> rfl

@[simp] theorem inTransport_opened (p : Place) (name : List Char) :
    (p.opened name).inTransport = p.inTransport := by
  unfold opened
  split <;> rfl

theorem run_element_eq_ok {p p' : Place} {name : List Char} {inner rest : Content} :
    p.run (Content.element name inner rest).events = .ok p' ↔
      ∃ q r s, p.step (.startTag name) = .ok q ∧ q.run inner.events = .ok r ∧
        r.step (.endTag name) = .ok s ∧ s.run rest.events = .ok p' := by
  simp only [Content.events, run_cons_eq_ok, run_append_eq_ok]
  constructor
  · rintro ⟨q, hstart, r, hinner, s, hend, hrest⟩
    exact ⟨q, r, s, hstart, hinner, hend, hrest⟩
  · rintro ⟨q, r, s, hstart, hinner, hend, hrest⟩
    exact ⟨q, hstart, r, hinner, s, hend, hrest⟩

/-- An element that is not the root: its content is read from its start on, and behind it no value
is waited for. -/
theorem run_element_of_ne {p p' : Place} {name : List Char} {inner rest : Content}
    (h : name ≠ rootName) :
    p.run (Content.element name inner rest).events = .ok p' ↔
      ∃ q : Place, (p.opened name).run inner.events = .ok q ∧
        Place.run { q with element := none } rest.events = .ok p' := by
  rw [run_element_eq_ok]
  simp [step_startTag h, step_endTag h]

/-- What a text can do: it is passed over, or it is the value of the element that was opened
last. -/
theorem step_text_cases {p p' : Place} {raw : List Char} (h : p.step (.text raw) = .ok p') :
    (p.inTransport = false ∨ p.element = none) ∧ p' = p ∨
      ∃ element value settings, p.inTransport = true ∧ p.element = some element ∧
        Xml.unescape? raw = some value ∧
        p.settings.set element (String.ofList (Text.trimChars value)) = .ok settings ∧
        p' = { p with settings, element := none } := by
  obtain ⟨settings, inTransport, element?⟩ := p
  cases inTransport with
  | false => exact .inl ⟨.inl rfl, (Except.ok.inj h).symm⟩
  | true =>
    cases element? with
    | none => exact .inl ⟨.inr rfl, (Except.ok.inj h).symm⟩
    | some element =>
      simp only [step] at h
      cases hvalue : Xml.unescape? raw with
      | none => simp [hvalue] at h
      | some value =>
        cases hset : settings.set element (String.ofList (Text.trimChars value)) with
        | error e => simp [hvalue, hset, Except.map] at h
        | ok settings' =>
          simp only [hvalue, hset, Except.map, Except.ok.injEq] at h
          exact .inr ⟨element, value, settings', rfl, rfl, rfl, hset, h.symm⟩

/-- Between two pieces of a content, a value is waited for only if it was in front of it. -/
theorem element_of_run {content : Content} {p p' : Place} (helement : p.element = none)
    (h : p.run content.events = .ok p') : p'.element = none := by
  induction content generalizing p with
  | nil =>
    obtain rfl := Except.ok.inj h
    exact helement
  | element name inner rest _ ih =>
    obtain ⟨_, _, _, -, -, hclosed, hrest⟩ := run_element_eq_ok.1 h
    obtain rfl := Except.ok.inj hclosed
    exact ih rfl hrest
  | empty name rest ih => exact ih helement h
  | other rest ih => exact ih helement h
  | text raw rest ih =>
    obtain ⟨q, hq, hrest⟩ := run_cons_eq_ok.1 h
    rcases step_text_cases hq with ⟨-, rfl⟩ | ⟨_, _, _, -, -, -, -, rfl⟩
    · exact ih helement hrest
    · exact ih rfl hrest

end Place

theorem ofEvents_eq_ok {events : List Xml.Event} {settings : Settings} :
    ofEvents events = .ok settings ↔
      ∃ p : Place, Place.run {} events = .ok p ∧ p.settings = settings := by
  rw [ofEvents, Place.ofEventsFrom_eq]
  cases Place.run {} events <;> simp [Except.map]

/-- A document that is well formed is what its events spell. -/
theorem ofDocument_eq_ofEvents {document : String} {events : List Xml.Event}
    (h : Xml.events document.toList = (events, true)) : ofDocument document = ofEvents events := by
  simp only [ofDocument, h, if_true]
  cases ofEvents events <;> rfl

/-! ### Documents -/

/-- The events of a document whose root is a `transport` element: its children, and how many
comments and instructions stand in front of it and behind it. -/
def documentEvents (prolog : Nat) (children : Content) (epilog : Nat) : List Xml.Event :=
  List.replicate prolog .other ++ .startTag rootName ::
    (children.events ++ .endTag rootName :: List.replicate epilog .other)

end Settings

end WebClient
