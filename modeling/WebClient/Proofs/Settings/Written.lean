import Mathlib.Data.List.Basic
import Mathlib.Logic.Function.Basic
import WebClient.Proofs.Settings.Content
import WebClient.Proofs.Text.Numeral
import WebClient.Proofs.Xml.Element

/-!
# Settings that are written

A settings document is written as a row of elements in `transport`, with white space between them.
What stands in it is a list of entries (`Entry`), and reading it sets their values one after the
other (`Entry.Written.ofDocument_eq`). The settings that come out are told by the last value of each
name alone (`setAll_of_isValid`), unless some value is not valid: then the first such value is what
is reported (`setAll_of_not_isValid`).

White space between two elements can be an event of its own, for the format knows four blanks and
Unicode many more. No value is waited for there, so it is passed over.
-/

namespace WebClient.Settings

/-- An element of a settings document, with any name but that of the root and a text that is not of
blanks alone. -/
structure Entry where
  name : String
  text : String
  isName : Xml.IsName name.toList
  name_ne_root : name.toList ≠ rootName
  visible : ∃ c ∈ text.toList, Xml.isBlank c = false

namespace Entry

def value (entry : Entry) : String :=
  Text.trim entry.text

/-- The value that the last of some entries with a name gives. -/
def lastValue? (entries : List Entry) (name : String) : Option String :=
  (entries.reverse.find? (·.name = name)).map value

/-- The entries are written as children of the root, with white space around each. -/
inductive Children : (entries : List Entry) → (written : List Char) → Prop
  | nil {gap : List Char} (hgap : ∀ c ∈ gap, Text.isBlank c = true) : Children [] gap
  | cons {entry : Entry} {entries : List Entry} {gap raw more : List Char}
      (hgap : ∀ c ∈ gap, Text.isBlank c = true) (hraw : Xml.Encodes raw entry.text.toList)
      (hmore : Children entries more) :
      Children (entry :: entries) (gap ++ (Xml.element entry.name.toList raw ++ more))

/-- The entries are what is written in a document. -/
def Written (entries : List Entry) (document : String) : Prop :=
  ∃ front children back, (∀ c ∈ front, Text.isBlank c = true) ∧ Children entries children ∧
    (∀ c ∈ back, Text.isBlank c = true) ∧
    document.toList = front ++ (Xml.element rootName children ++ back)

end Entry

def readCount? (value : String) : Option UInt32 :=
  (Text.numeral? 10 (Text.maxOfBits 32) value.toList).map UInt32.ofNat

/-- A value is valid for the setting that an element names; other elements take every value. -/
def isValid (element value : String) : Bool :=
  match element with
  | "trace-log" | "chunking-disabled" | "idle-handler-removed" => (readFlag? value).isSome
  | "max-redirects" => (readCount? value).isSome
  | _ => true

/-- The settings with the value of each element, where there is one. -/
def ofValues (value? : String → Option String) : Settings where
  traceLogging := ((value? "trace-log").bind readFlag?).getD ({} : Settings).traceLogging
  maxRedirects := ((value? "max-redirects").bind readCount?).getD ({} : Settings).maxRedirects
  chunkingDisabled :=
    ((value? "chunking-disabled").bind readFlag?).getD ({} : Settings).chunkingDisabled
  idleHandlerRemoved :=
    ((value? "idle-handler-removed").bind readFlag?).getD ({} : Settings).idleHandlerRemoved

def setAll (settings : Settings) (entries : List Entry) : Except ReadError Settings :=
  entries.foldlM (fun settings entry => settings.set entry.name entry.value) settings

theorem set?_count (settings : Settings) (value : String) :
    settings.set? "max-redirects" value =
      (readCount? value).map fun count => { settings with maxRedirects := count } := by
  simp [set?, readCount?, Function.comp_def]

/-! ### All settings written out -/

def flagText (flag : Bool) : String :=
  if flag then "true" else "false"

def countText (count : UInt32) : String :=
  String.ofList (Text.decimal count.toNat)

theorem visible_flagText (flag : Bool) :
    ∃ c ∈ (flagText flag).toList, Xml.isBlank c = false := by
  cases flag with
  | false => exact ⟨'f', by decide, rfl⟩
  | true => exact ⟨'t', by decide, rfl⟩

theorem readFlag?_trim_flagText (flag : Bool) :
    readFlag? (Text.trim (flagText flag)) = some flag := by
  cases flag <;> decide

theorem readCount?_trim_countText (count : UInt32) :
    readCount? (Text.trim (countText count)) = some count := by
  have hspells := Text.spells_decimal count.toNat
  have hle : count.toNat ≤ Text.maxOfBits 32 := Nat.le_of_lt_succ count.toNat_lt
  have htrim : (Text.trim (countText count)).toList = Text.decimal count.toNat := by
    simp [countText, hspells.trimChars_eq]
  rw [readCount?, htrim, Text.numeral?_of_spells hspells hle]
  simp

theorem visible_countText (count : UInt32) :
    ∃ c ∈ (countText count).toList, Xml.isBlank c = false := by
  have hspells := Text.spells_decimal count.toNat
  obtain ⟨c, cs, hdigits⟩ := List.exists_cons_of_ne_nil hspells.ne_nil
  have hmem : c ∈ Text.decimal count.toNat := hdigits ▸ List.mem_cons_self
  obtain ⟨d, hd⟩ := hspells.exists_digitValue? c hmem
  refine ⟨c, by simpa [countText] using hmem, ?_⟩
  rw [← Bool.not_eq_true]
  intro hblank
  have htext := Xml.isBlank_text hblank
  rw [Text.isBlank_of_digitValue? hd] at htext
  cases htext

def Entry.ofFlag (name : String) (isName : Xml.IsName name.toList)
    (name_ne_root : name.toList ≠ rootName) (flag : Bool) : Entry where
  name
  text := flagText flag
  isName
  name_ne_root
  visible := visible_flagText flag

def entries (settings : Settings) : List Entry := [
  .ofFlag "trace-log" (by decide) (by decide) settings.traceLogging,
  { name := "max-redirects"
    text := countText settings.maxRedirects
    isName := by decide
    name_ne_root := by decide
    visible := visible_countText settings.maxRedirects },
  .ofFlag "chunking-disabled" (by decide) (by decide) settings.chunkingDisabled,
  .ofFlag "idle-handler-removed" (by decide) (by decide) settings.idleHandlerRemoved]

theorem names_entries (settings : Settings) :
    settings.entries.map Entry.name = settingNames := by
  rfl

theorem set_entries {settings : Settings} {entry : Entry} (h : entry ∈ settings.entries) :
    settings.set entry.name entry.value = .ok settings := by
  rw [set_eq_ok]
  simp only [entries, List.mem_cons, List.not_mem_nil, or_false] at h
  rcases h with rfl | rfl | rfl | rfl
  · simp [set?, Entry.ofFlag, Entry.value, readFlag?_trim_flagText]
  · simp [set?_count, Entry.value, readCount?_trim_countText]
  · simp [set?, Entry.ofFlag, Entry.value, readFlag?_trim_flagText]
  · simp [set?, Entry.ofFlag, Entry.value, readFlag?_trim_flagText]

/-! ### One value after the other -/

theorem ofValues_update_of_not_mem {element : String} (h : element ∉ settingNames)
    (value? : String → Option String) (value : Option String) :
    ofValues (Function.update value? element value) = ofValues value? := by
  simp only [mem_settingNames, not_or] at h
  simp [ofValues, Ne.symm h.1, Ne.symm h.2.1, Ne.symm h.2.2.1, Ne.symm h.2.2.2]

theorem isSome_set? (settings : Settings) (element value : String) :
    (settings.set? element value).isSome = isValid element value := by
  unfold set? isValid
  split <;> simp [readCount?]

theorem set_of_not_isValid {element value : String} (h : isValid element value = false)
    (settings : Settings) : settings.set element value = .error (.invalidValue element value) := by
  rw [← isSome_set? settings, Option.isSome_eq_false_iff, Option.isNone_iff_eq_none] at h
  simp [set, h]

/-- A valid value takes the place of the one that was set before. -/
theorem set_of_isValid {element value : String} (h : isValid element value = true)
    (value? : String → Option String) :
    (ofValues value?).set element value =
      .ok (ofValues (Function.update value? element (some value))) := by
  by_cases hknown : element ∈ settingNames
  · rw [set_eq_ok]
    rcases mem_settingNames.1 hknown with rfl | rfl | rfl | rfl
    -- One setting is a count, all others are switches.
    case inr.inl =>
      obtain ⟨count, hcount⟩ := Option.isSome_iff_exists.1 h
      simp [set?_count, hcount, ofValues]
    all_goals
      obtain ⟨flag, hflag⟩ := Option.isSome_iff_exists.1 h
      simp [set?, hflag, ofValues]
  · rw [set_of_not_mem hknown, ofValues_update_of_not_mem hknown]

theorem lastValue?_append_singleton (entries : List Entry) (entry : Entry) :
    Entry.lastValue? (entries ++ [entry]) =
      Function.update (Entry.lastValue? entries) entry.name (some entry.value) := by
  funext name
  simp only [Entry.lastValue?, List.reverse_append, List.reverse_singleton, List.singleton_append,
    List.find?_cons, Function.update_apply]
  by_cases hname : entry.name = name
  · simp [hname]
  · simp [hname, Ne.symm hname]

/-- Values that are all valid: of each setting the last one counts. -/
theorem setAll_of_isValid {entries : List Entry}
    (h : ∀ entry ∈ entries, isValid entry.name entry.value = true) :
    setAll {} entries = .ok (ofValues (Entry.lastValue? entries)) := by
  induction entries using List.reverseRecOn with
  | nil => rfl
  | append_singleton entries entry ih =>
    rw [List.forall_mem_append] at h
    have hlast := h.2 entry (List.mem_singleton_self entry)
    rw [setAll, List.foldlM_append, ← setAll, ih h.1, lastValue?_append_singleton]
    simp [bind, Except.bind, pure, Except.pure, set_of_isValid hlast]

/-- The first value that is not valid is reported, whatever follows it. -/
theorem setAll_of_not_isValid {before : List Entry} {bad : Entry}
    (hbefore : ∀ entry ∈ before, isValid entry.name entry.value = true)
    (hbad : isValid bad.name bad.value = false) (after : List Entry) :
    setAll {} (before ++ bad :: after) = .error (.invalidValue bad.name bad.value) := by
  rw [setAll, List.foldlM_append, ← setAll, setAll_of_isValid hbefore]
  simp [bind, Except.bind, set_of_not_isValid hbad]

theorem exists_lastValue? {entries : List Entry} {entry : Entry} (h : entry ∈ entries) :
    ∃ last ∈ entries, last.name = entry.name ∧
      Entry.lastValue? entries entry.name = some last.value := by
  have hsome : (entries.reverse.find? (·.name = entry.name)).isSome = true := by
    rw [List.find?_isSome]
    exact ⟨entry, List.mem_reverse.2 h, by simp⟩
  obtain ⟨last, hlast⟩ := Option.isSome_iff_exists.1 hsome
  refine ⟨last, List.mem_reverse.1 (List.mem_of_find?_eq_some hlast), ?_, ?_⟩
  · simpa using List.find?_some hlast
  · rw [Entry.lastValue?, hlast, Option.map_some]

theorem ofValues_eq {settings : Settings} {value? : String → Option String}
    (h : ∀ name ∈ settingNames, ∃ value, value? name = some value ∧
      settings.set? name value = some settings) : ofValues value? = settings := by
  obtain ⟨trace, htrace, hsetTrace⟩ := h "trace-log" (by decide)
  obtain ⟨count, hcount, hsetCount⟩ := h "max-redirects" (by decide)
  obtain ⟨chunking, hchunking, hsetChunking⟩ := h "chunking-disabled" (by decide)
  obtain ⟨idle, hidle, hsetIdle⟩ := h "idle-handler-removed" (by decide)
  obtain ⟨traceLogging, maxRedirects, chunkingDisabled, idleHandlerRemoved⟩ := settings
  have hreadTrace : readFlag? trace = some traceLogging := by simpa [set?] using hsetTrace
  have hreadCount : readCount? count = some maxRedirects := by simpa [set?_count] using hsetCount
  have hreadChunking : readFlag? chunking = some chunkingDisabled := by
    simpa [set?] using hsetChunking
  have hreadIdle : readFlag? idle = some idleHandlerRemoved := by simpa [set?] using hsetIdle
  simp [ofValues, htrace, hreadTrace, hcount, hreadCount, hchunking, hreadChunking, hidle,
    hreadIdle]

/-- Entries that name every setting, with values that leave the settings as they are, spell
them. -/
theorem setAll_of_set_eq {settings : Settings} {entries : List Entry}
    (hnames : ∀ name ∈ settingNames, ∃ entry ∈ entries, entry.name = name)
    (hset : ∀ entry ∈ entries, settings.set entry.name entry.value = .ok settings) :
    setAll {} entries = .ok settings := by
  have hvalid : ∀ entry ∈ entries, isValid entry.name entry.value = true := by
    intro entry hentry
    rw [← isSome_set? settings, set_eq_ok.1 (hset entry hentry), Option.isSome_some]
  rw [setAll_of_isValid hvalid, ofValues_eq]
  intro name hname
  obtain ⟨entry, hentry, rfl⟩ := hnames name hname
  obtain ⟨last, hmem, heq, hvalue⟩ := exists_lastValue? hentry
  exact ⟨last.value, hvalue, heq ▸ set_eq_ok.1 (hset last hmem)⟩

/-! ### One event after the other -/

namespace Place

theorem run_textEvents {p : Place} (h : p.element = none) (raw : List Char) :
    p.run (Xml.textEvents raw) = .ok p := by
  unfold Xml.textEvents
  split
  · rfl
  · simp [run, step, h]

def inside (settings : Settings) : Place :=
  { settings, inTransport := true }

theorem run_entry (settings : Settings) (entry : Entry) {raw : List Char}
    (hraw : Xml.Encodes raw entry.text.toList) :
    (inside settings).run (Xml.elementEvents entry.name.toList (Xml.textEvents raw)) =
      (settings.set entry.name entry.value).map inside := by
  obtain ⟨core, value, hevents, hvalue, htrim⟩ := hraw.exists_textEvents entry.visible
  have hstart : (inside settings).step (.startTag entry.name.toList) =
      .ok { inside settings with element := some entry.name } := by
    simp [step_startTag entry.name_ne_root, opened, inside, entry.isName.1]
  have htext : ({ inside settings with element := some entry.name } : Place).step (.text core) =
      (settings.set entry.name entry.value).map inside := by
    simp only [step, inside, hvalue, htrim]
    rfl
  have hend (settings : Settings) : (inside settings).step (.endTag entry.name.toList) =
      .ok (inside settings) := step_endTag entry.name_ne_root _
  rw [Xml.elementEvents, hevents]
  simp only [List.cons_append, List.nil_append, run, hstart, htext]
  cases settings.set entry.name entry.value with
  | error e => rfl
  | ok settings => simp [Except.map, hend]

end Place

theorem not_mem_of_isBlank {gap : List Char} (h : ∀ c ∈ gap, Text.isBlank c = true) :
    '<' ∉ gap := by
  intro hmem
  exact absurd (h '<' hmem) (by decide)

/-- The children of the root come to events that set one value after the other. -/
theorem Entry.Children.exists_events {entries : List Entry} {children : List Char}
    (h : Entry.Children entries children) :
    ∃ events, Xml.ComesTo children events ∧
      ∀ settings, (Place.inside settings).run events =
        (settings.setAll entries).map Place.inside := by
  -- Each entry changes the settings the others are set in, so the place stays general.
  induction h with
  | @nil gap hgap =>
    refine ⟨Xml.textEvents gap, Xml.comesTo_textEvents (not_mem_of_isBlank hgap), ?_⟩
    exact fun settings => Place.run_textEvents rfl gap
  | @cons entry entries gap raw more hgap hraw hmore ih =>
    obtain ⟨events, hevents, hrun⟩ := ih
    refine ⟨Xml.textEvents gap ++ (Xml.elementEvents entry.name.toList (Xml.textEvents raw) ++
      events), fun opened seen rest => ?_, fun settings => ?_⟩
    · rw [List.append_assoc, List.append_assoc,
        Xml.eventsFrom_text (not_mem_of_isBlank hgap) (by simp [Xml.element]),
        Xml.eventsFrom_element entry.isName (Xml.comesTo_textEvents hraw.1), hevents]
      simp
    · rw [Place.run_append, Place.run_textEvents rfl, Except.bind, Place.run_append,
        Place.run_entry settings entry hraw, setAll, List.foldlM_cons]
      cases settings.set entry.name entry.value with
      | error e => rfl
      | ok settings => exact hrun settings

/-- What is read are the settings by default, with the value of each entry set in turn. -/
theorem Entry.Written.ofDocument_eq {entries : List Entry} {document : String}
    (h : Entry.Written entries document) : ofDocument document = setAll {} entries := by
  obtain ⟨front, children, back, hfront, hchildren, hback, hdocument⟩ := h
  obtain ⟨events, hevents, hrun⟩ := hchildren.exists_events
  have hroot : Xml.IsName rootName := by decide
  have hmark : '\uFEFF' ∉ front := fun hmem => absurd (hfront _ hmem) (by decide)
  have hread := Xml.events_element hroot (not_mem_of_isBlank hfront) hmark hevents
    (not_mem_of_isBlank hback)
  rw [← hdocument] at hread
  have hopen : Place.step {} (.startTag rootName) = .ok (Place.inside {}) := rfl
  have hclose (settings : Settings) : (Place.inside settings).step (.endTag rootName) =
      .ok { settings } := by simp [Place.step, Place.inside]
  rw [ofDocument_eq_ofEvents hread, ofEvents, Place.ofEventsFrom_eq, Place.run_append,
    Place.run_textEvents rfl, Except.bind, Place.run_append, Xml.elementEvents, Place.run, hopen]
  dsimp only
  rw [Place.run_append, hrun]
  cases setAll {} entries with
  | error e => rfl
  | ok settings => simp [Except.map, Except.bind, Place.run, hclose, Place.run_textEvents]

theorem Entry.exists_written (entries : List Entry) :
    ∃ document, Entry.Written entries document := by
  have hnone : ∀ c ∈ ([] : List Char), Text.isBlank c = true := by simp
  have hchildren : ∃ children, Entry.Children entries children := by
    induction entries with
    | nil => exact ⟨[], .nil hnone⟩
    | cons entry entries ih =>
      obtain ⟨more, hmore⟩ := ih
      exact ⟨_, .cons hnone (Xml.encodes_escape entry.text.toList) hmore⟩
  obtain ⟨children, hchildren⟩ := hchildren
  exact ⟨String.ofList (Xml.element rootName children), [], children, [], hnone, hchildren, hnone,
    by simp⟩

/-- **What a settings document says.** Its entries, with white space between them and their texts
escaped in any way, are set one after the other, from the settings by default on: the last value of
each setting counts, and a setting that is not named keeps its default. The first value that is not
valid is reported instead. Settings that are written out, in any order, are read back. -/
theorem ofDocument_of_entries (entries : List Entry) :
    (∃ document, Entry.Written entries document) ∧
    ∀ document, Entry.Written entries document →
      ofDocument document = setAll {} entries ∧
      ((∀ entry ∈ entries, isValid entry.name entry.value = true) →
        ofDocument document = .ok (ofValues (Entry.lastValue? entries))) ∧
      (∀ before bad after, entries = before ++ bad :: after →
        (∀ entry ∈ before, isValid entry.name entry.value = true) →
        isValid bad.name bad.value = false →
        ofDocument document = .error (.invalidValue bad.name bad.value)) ∧
      ∀ settings : Settings, entries.Perm settings.entries →
        ofDocument document = .ok settings := by
  refine ⟨Entry.exists_written entries, fun document hwritten => ?_⟩
  rw [hwritten.ofDocument_eq]
  refine ⟨rfl, setAll_of_isValid, ?_, ?_⟩
  · rintro before bad after rfl hbefore hbad
    exact setAll_of_not_isValid hbefore hbad after
  · intro settings hperm
    -- In any order each name stands once, with the value that the settings have.
    refine setAll_of_set_eq ?_ fun entry hentry => set_entries (hperm.mem_iff.1 hentry)
    intro name hname
    rw [← names_entries settings, List.mem_map] at hname
    obtain ⟨entry, hentry, rfl⟩ := hname
    exact ⟨entry, hperm.mem_iff.2 hentry, rfl⟩

end WebClient.Settings
