import Mathlib.Data.List.Basic
import WebClient.Proofs.Settings.Content

/-!
# Unknown elements

An element that the reader of settings does not know is meant to be passed over. The reader keeps no
record of the elements that are open, only of the one that was opened last, so what stands inside an
unknown element is read as if it stood beside it. `UnknownElement.ignored_iff` says which elements
make no difference in any document: those in which no element is named `transport`, and none that is
named like a setting begins with a text.
-/

namespace WebClient

namespace Xml.Content

open Settings (rootName settingNames)

/-- Some element in the content is named like the root of a settings document. -/
def namesRoot : Content → Bool
  | nil => false
  | element name inner rest => name == rootName || inner.namesRoot || rest.namesRoot
  | empty _ rest | text _ rest | other rest => rest.namesRoot

/-- Some element in the content that is named like a setting begins with a text, but for empty tags
and other markup; or the content itself does, and `waiting` says that it stands in such an
element. -/
def givesValue (waiting : Bool) : Content → Bool
  | nil => false
  | element name inner rest =>
    inner.givesValue (String.ofList name ∈ settingNames) || rest.givesValue false
  | empty _ rest | other rest => rest.givesValue waiting
  | text _ rest => waiting || rest.givesValue false

end Xml.Content

namespace Settings

open Xml (Content)

/-- An element that is no setting and not the root, with any content. -/
structure UnknownElement where
  name : List Char
  inner : Content
  name_ne_root : name ≠ rootName
  name_unknown : String.ofList name ∉ settingNames
  inner_legible : inner.legible = true

/-- A place between two children of the `transport` element of a document. -/
structure Gap where
  prolog : Nat
  before : Content
  after : Content
  epilog : Nat

namespace Gap

/-- The events of the document with a content put into the gap. -/
def events (gap : Gap) (content : Content) : List Xml.Event :=
  documentEvents gap.prolog (gap.before ++ (content ++ gap.after)) gap.epilog

def front (gap : Gap) : List Xml.Event :=
  List.replicate gap.prolog .other ++ .startTag rootName :: gap.before.events

theorem ofEvents_eq_ok {gap : Gap} {content : Content} {settings : Settings} :
    ofEvents (gap.events content) = .ok settings ↔
      ∃ p q r : Place, Place.run {} gap.front = .ok p ∧ p.run content.events = .ok q ∧
        q.run gap.after.events = .ok r ∧ r.settings = settings := by
  have hevents : gap.events content = gap.front ++ (content.events ++ (gap.after.events ++
      (.endTag rootName :: List.replicate gap.epilog .other))) := by
    simp [events, documentEvents, front]
  have hclose (r : Place) : r.run (.endTag rootName :: List.replicate gap.epilog .other) =
      .ok { r with inTransport := false, element := none } := by
    refine Place.run_cons_eq_ok.2 ⟨_, rfl, ?_⟩
    simp [Place.run_others]
  simp only [Settings.ofEvents_eq_ok, hevents, Place.run_append_eq_ok, hclose, Except.ok.injEq]
  constructor
  · rintro ⟨p', ⟨p, hfront, q, hcontent, r, hafter, rfl⟩, hsettings⟩
    exact ⟨p, q, r, hfront, hcontent, hafter, hsettings⟩
  · rintro ⟨p, q, r, hfront, hcontent, hafter, hsettings⟩
    exact ⟨_, ⟨p, hfront, q, hcontent, r, hafter, rfl⟩, hsettings⟩

theorem element_of_front {gap : Gap} {p : Place} (h : Place.run {} gap.front = .ok p) :
    p.element = none := by
  obtain ⟨q, hprolog, h⟩ := Place.run_append_eq_ok.1 h
  rw [Place.run_others, Except.ok.injEq] at hprolog
  subst hprolog
  exact Place.element_of_run (p := { inTransport := true }) rfl h

end Gap

namespace UnknownElement

def content (x : UnknownElement) : Content :=
  .element x.name x.inner .nil

/-- Wherever the element is put, a document that is accepted comes to the same settings. -/
def Ignored (x : UnknownElement) : Prop :=
  ∀ (gap : Gap) (settings : Settings), ofEvents (gap.events .nil) = .ok settings →
    ofEvents (gap.events x.content) = .ok settings

end UnknownElement

/-! ### What is passed over -/

namespace Place

def waits (p : Place) : Bool :=
  p.inTransport && p.element.any (· ∈ settingNames)

theorem waits_opened (p : Place) (name : List Char) :
    (p.opened name).waits = (p.inTransport && decide (String.ofList name ∈ settingNames)) := by
  cases hin : p.inTransport with
  | false => simp [opened, waits, hin]
  | true =>
    cases name with
    | nil => simp [opened, waits, hin, settingNames]
    | cons c cs => simp [opened, waits, hin]

theorem step_text_of_not_waits {p : Place} {raw : List Char} (h : p.waits = false)
    (hlegible : (Xml.unescape? raw).isSome = true) :
    ∃ element, p.step (.text raw) = .ok { p with element } ∧
      ({ p with element } : Place).waits = false := by
  obtain ⟨value, hvalue⟩ := Option.isSome_iff_exists.1 hlegible
  obtain ⟨settings, inTransport, element?⟩ := p
  cases inTransport with
  | false => exact ⟨element?, rfl, rfl⟩
  | true =>
    cases element? with
    | none => exact ⟨none, rfl, rfl⟩
    | some element =>
      have hunknown : element ∉ settingNames := by simpa [waits] using h
      refine ⟨none, ?_, rfl⟩
      simp only [step, hvalue, set_of_not_mem hunknown, Except.map]

/-- A content that names no root and gives no value leaves the settings as they are. -/
theorem run_of_quiet {content : Content} {p : Place} {waiting : Bool}
    (hlegible : content.legible = true) (hroot : content.namesRoot = false)
    (hvalue : content.givesValue waiting = false) (hwaits : p.waits = true → waiting = true) :
    ∃ element, p.run content.events = .ok { p with element } := by
  induction content generalizing p waiting with
  | nil => exact ⟨p.element, rfl⟩
  | element name inner rest ihInner ihRest =>
    simp only [Content.legible, Bool.and_eq_true] at hlegible
    simp only [Content.namesRoot, Bool.or_eq_false_iff, beq_eq_false_iff_ne] at hroot
    simp only [Content.givesValue, Bool.or_eq_false_iff] at hvalue
    obtain ⟨⟨hname, hinnerRoot⟩, hrestRoot⟩ := hroot
    obtain ⟨_, hinner⟩ := ihInner (p := p.opened name) hlegible.1 hinnerRoot hvalue.1
      (by simp [waits_opened])
    obtain ⟨element, hrest⟩ := ihRest (p := { p with element := none }) hlegible.2 hrestRoot
      hvalue.2 (by simp [waits])
    rw [opened_with] at hinner
    exact ⟨element, (run_element_of_ne hname).2 ⟨_, hinner, hrest⟩⟩
  | empty name rest ih => exact ih hlegible hroot hvalue hwaits
  | other rest ih => exact ih hlegible hroot hvalue hwaits
  | text raw rest ih =>
    simp only [Content.legible, Bool.and_eq_true] at hlegible
    simp only [Content.givesValue, Bool.or_eq_false_iff] at hvalue
    have hnot : p.waits = false := by
      rw [← Bool.not_eq_true]
      exact fun h => by simp [hwaits h] at hvalue
    obtain ⟨element, htext, hnext⟩ := step_text_of_not_waits hnot hlegible.1
    obtain ⟨element', hrest⟩ := ih (p := { p with element }) hlegible.2 hroot hvalue.2
      (by simp [hnext])
    exact ⟨element', run_cons_eq_ok.2 ⟨_, htext, hrest⟩⟩

/-! ### What is not passed over -/

/-- Behind a content that names the root, the reader takes the root for closed. -/
theorem inTransport_of_run {content : Content} {p p' : Place}
    (h : p.run content.events = .ok p') :
    p'.inTransport = (p.inTransport && !content.namesRoot) := by
  induction content generalizing p p' with
  | nil =>
    obtain rfl := Except.ok.inj h
    simp [Content.namesRoot]
  | element name inner rest ihInner ihRest =>
    by_cases hname : name = rootName
    · obtain ⟨q, r, s, -, -, hclosed, hrest⟩ := run_element_eq_ok.1 h
      obtain rfl := Except.ok.inj hclosed
      simp [ihRest hrest, Content.namesRoot, hname]
    · obtain ⟨q, hinner, hrest⟩ := (run_element_of_ne hname).1 h
      rw [ihRest hrest]
      simp [ihInner hinner, Content.namesRoot, beq_eq_false_iff_ne.2 hname, Bool.and_assoc]
  | empty name rest ih => exact ih h
  | other rest ih => exact ih h
  | text raw rest ih =>
    obtain ⟨q, hq, hrest⟩ := run_cons_eq_ok.1 h
    rw [ih hrest]
    rcases step_text_cases hq with ⟨-, rfl⟩ | ⟨_, _, _, -, -, -, -, rfl⟩ <;> rfl

theorem settings_of_run {content : Content} {p p' : Place} (hin : p.inTransport = false)
    (hroot : content.namesRoot = false) (h : p.run content.events = .ok p') :
    p'.settings = p.settings := by
  induction content generalizing p p' with
  | nil =>
    obtain rfl := Except.ok.inj h
    rfl
  | element name inner rest ihInner ihRest =>
    simp only [Content.namesRoot, Bool.or_eq_false_iff, beq_eq_false_iff_ne] at hroot
    obtain ⟨⟨hname, hinnerRoot⟩, hrestRoot⟩ := hroot
    obtain ⟨q, hinner, hrest⟩ := (run_element_of_ne hname).1 h
    have hclosed : q.inTransport = false := by
      rw [inTransport_of_run hinner]
      simp [hin]
    rw [ihRest (p := { q with element := none }) hclosed hrestRoot hrest,
      ihInner (by simpa using hin) hinnerRoot hinner, settings_opened]
  | empty name rest ih => exact ih hin hroot h
  | other rest ih => exact ih hin hroot h
  | text raw rest ih =>
    obtain ⟨q, hq, hrest⟩ := run_cons_eq_ok.1 h
    rcases step_text_cases hq with ⟨-, rfl⟩ | ⟨_, _, _, htrue, -⟩
    · exact ih hin hroot hrest
    · simp [hin] at htrue

/-- Two readers stand at the same place of a document, with any settings. -/
structure Twins (p q : Place) : Prop where
  inTransport_eq : p.inTransport = q.inTransport
  element_eq : p.element = q.element

/-- Both pass over a text, or both take it for the value of the same element. -/
theorem Twins.step_text {p q p' q' : Place} {raw : List Char} (h : p.Twins q)
    (hp : p.step (.text raw) = .ok p') (hq : q.step (.text raw) = .ok q') :
    p.waits = false ∧ p' = p ∧ q' = q ∨
      ∃ element value, p.element = some element ∧ p'.inTransport = true ∧ p'.element = none ∧
        p'.Twins q' ∧ p.settings.set element value = .ok p'.settings ∧
        q.settings.set element value = .ok q'.settings := by
  obtain ⟨hin, helement⟩ := h
  rcases step_text_cases hp with ⟨hpassed, rfl⟩ | ⟨element, value, s, hopen, hsome, hvalue, hs, rfl⟩
  · rcases step_text_cases hq with ⟨-, rfl⟩ | ⟨_, _, _, hopen, hsome, -⟩
    · refine .inl ⟨?_, rfl, rfl⟩
      rcases hpassed with hclosed | hnone
      · simp [waits, hclosed]
      · simp [waits, hnone]
    · rw [hin, helement, hopen, hsome] at hpassed
      simp at hpassed
  · rw [hin] at hopen
    rw [helement] at hsome
    rcases step_text_cases hq with ⟨hpassed, -⟩ | ⟨_, _, t, -, hsome', hvalue', ht, rfl⟩
    · simp [hopen, hsome] at hpassed
    · obtain rfl := Option.some_inj.1 (hsome.symm.trans hsome')
      obtain rfl := Option.some_inj.1 (hvalue.symm.trans hvalue')
      exact .inr ⟨element, _, helement.trans hsome, hin.trans hopen, rfl, ⟨hin, rfl⟩, hs, ht⟩

end Place

/-- No setting is the same. -/
structure Differ (s t : Settings) : Prop where
  traceLogging : s.traceLogging ≠ t.traceLogging
  maxRedirects : s.maxRedirects ≠ t.maxRedirects
  chunkingDisabled : s.chunkingDisabled ≠ t.chunkingDisabled
  idleHandlerRemoved : s.idleHandlerRemoved ≠ t.idleHandlerRemoved

/-- A value makes one setting the same, whatever it was. -/
theorem Differ.of_set {s t s' t' : Settings} {element value : String} (h : s'.Differ t')
    (hs : s.set element value = .ok s') (ht : t.set element value = .ok t') :
    s.Differ t ∧ element ∉ settingNames := by
  by_cases hknown : element ∈ settingNames
  · rw [set_eq_ok] at hs ht
    rcases mem_settingNames.1 hknown with rfl | rfl | rfl | rfl <;>
      obtain ⟨x, hx, rfl⟩ := Option.map_eq_some_iff.1 hs <;>
      obtain ⟨y, hy, rfl⟩ := Option.map_eq_some_iff.1 ht <;>
      obtain rfl := Option.some_inj.1 (hx.symm.trans hy)
    · exact absurd rfl h.traceLogging
    · exact absurd rfl h.maxRedirects
    · exact absurd rfl h.chunkingDisabled
    · exact absurd rfl h.idleHandlerRemoved
  · rw [set_of_not_mem hknown, Except.ok.injEq] at hs ht
    subst hs ht
    exact ⟨h, hknown⟩

namespace Place

/-- Two readers that differ in every setting behind a content have differed in front of it, and the
content gives no value: a value would have made one setting the same, and no setting is made
different again. -/
theorem run_differ {content : Content} {p q p' q' : Place} (hroot : content.namesRoot = false)
    (hin : p.inTransport = true) (htwins : p.Twins q) (hp : p.run content.events = .ok p')
    (hq : q.run content.events = .ok q') :
    p'.Twins q' ∧ (p'.settings.Differ q'.settings →
      p.settings.Differ q.settings ∧ content.givesValue p.waits = false) := by
  induction content generalizing p q p' q' with
  | nil =>
    obtain rfl := Except.ok.inj hp
    obtain rfl := Except.ok.inj hq
    exact ⟨htwins, fun hdiffer => ⟨hdiffer, rfl⟩⟩
  | element name inner rest ihInner ihRest =>
    simp only [Content.namesRoot, Bool.or_eq_false_iff, beq_eq_false_iff_ne] at hroot
    obtain ⟨⟨hname, hinnerRoot⟩, hrestRoot⟩ := hroot
    obtain ⟨p₁, hp₁, hpRest⟩ := (run_element_of_ne hname).1 hp
    obtain ⟨q₁, hq₁, hqRest⟩ := (run_element_of_ne hname).1 hq
    have hopened : (p.opened name).Twins (q.opened name) := by
      refine ⟨by simp [htwins.inTransport_eq], ?_⟩
      simp [opened, ← htwins.inTransport_eq, hin]
    obtain ⟨hinner, hinnerDiffer⟩ := ihInner hinnerRoot (by simpa using hin) hopened hp₁ hq₁
    have hin₁ : p₁.inTransport = true := by
      rw [inTransport_of_run hp₁]
      simp [hin, hinnerRoot]
    obtain ⟨hrest, hrestDiffer⟩ := ihRest (p := { p₁ with element := none })
      (q := { q₁ with element := none }) hrestRoot hin₁ ⟨hinner.inTransport_eq, rfl⟩ hpRest hqRest
    refine ⟨hrest, fun hdiffer => ?_⟩
    obtain ⟨hbehind, hrestValue⟩ := hrestDiffer hdiffer
    obtain ⟨hbefore, hinnerValue⟩ := hinnerDiffer hbehind
    refine ⟨by simpa using hbefore, ?_⟩
    rw [waits_opened, hin, Bool.true_and] at hinnerValue
    rw [Content.givesValue, hinnerValue, Bool.false_or]
    simpa [waits] using hrestValue
  | empty name rest ih => exact ih hroot hin htwins hp hq
  | other rest ih => exact ih hroot hin htwins hp hq
  | text raw rest ih =>
    obtain ⟨p₁, hp₁, hpRest⟩ := run_cons_eq_ok.1 hp
    obtain ⟨q₁, hq₁, hqRest⟩ := run_cons_eq_ok.1 hq
    rcases htwins.step_text hp₁ hq₁ with
      ⟨hnot, rfl, rfl⟩ | ⟨element, value, helement, hin₁, hnone, htwins₁, hs, ht⟩
    · have hrest := ih hroot hin htwins hpRest hqRest
      rw [hnot] at hrest ⊢
      exact hrest
    · obtain ⟨hbehind, hdiffer⟩ := ih hroot hin₁ htwins₁ hpRest hqRest
      refine ⟨hbehind, fun hsettings => ?_⟩
      obtain ⟨hset, hrest⟩ := hdiffer hsettings
      obtain ⟨hbefore, hunknown⟩ := hset.of_set hs ht
      refine ⟨hbefore, ?_⟩
      rw [Content.givesValue]
      simpa [waits, helement, hunknown, hnone] using hrest

end Place

/-! ### Unknown elements -/

def settingElement (name value : String) (rest : Content) : Content :=
  .element name.toList (.text value.toList .nil) rest

namespace UnknownElement

theorem ignored_of_quiet {x : UnknownElement} (hroot : x.inner.namesRoot = false)
    (hvalue : x.inner.givesValue false = false) : x.Ignored := by
  intro gap settings h
  obtain ⟨p, q, r, hfront, hnothing, hafter, hsettings⟩ := Gap.ofEvents_eq_ok.1 h
  obtain rfl := Except.ok.inj hnothing
  have helement := Gap.element_of_front hfront
  have hlegible : x.content.legible = true := by simp [content, Content.legible, x.inner_legible]
  have hnames : x.content.namesRoot = false := by
    simp [content, Content.namesRoot, hroot, x.name_ne_root]
  have hgives : x.content.givesValue false = false := by
    simp [content, Content.givesValue, hvalue, x.name_unknown]
  obtain ⟨element, hrun⟩ := Place.run_of_quiet (p := p) hlegible hnames hgives
    (by simp [Place.waits, helement])
  obtain rfl : element = none := Place.element_of_run helement hrun
  have hsame : { p with element := none } = p := by rw [← helement]
  rw [hsame] at hrun
  exact Gap.ofEvents_eq_ok.2 ⟨p, p, r, hfront, hrun, hafter, hsettings⟩

def traceLogBehind (value : String) : Gap :=
  ⟨0, .nil, settingElement "trace-log" value .nil, 0⟩

/-- If an element names the root, the settings behind it are not read. -/
theorem namesRoot_of_ignored {x : UnknownElement} (h : x.Ignored) : x.inner.namesRoot = false := by
  by_contra hroot
  -- Behind the element the reader stands at one place, so the value behind it makes no difference.
  have hread (value : String) (settings : Settings)
      (hvalue : ofEvents ((traceLogBehind value).events .nil) = .ok settings) :
      ∃ q : Place, Place.run { inTransport := true } x.content.events = .ok q ∧
        q.settings = settings := by
    obtain ⟨p, q, r, hfront, hcontent, hafter, hsettings⟩ := Gap.ofEvents_eq_ok.1 (h _ _ hvalue)
    obtain rfl : { inTransport := true } = p := Except.ok.inj hfront
    have hclosed : q.inTransport = false := by
      rw [Place.inTransport_of_run hcontent]
      simp [content, Content.namesRoot, eq_true_of_ne_false hroot]
    exact ⟨q, hcontent, by rw [← hsettings, Place.settings_of_run hclosed rfl hafter]⟩
  obtain ⟨q, hq, hon⟩ := hread "true" { traceLogging := true } rfl
  obtain ⟨q', hq', hoff⟩ := hread "false" {} rfl
  obtain rfl := Except.ok.inj (hq.symm.trans hq')
  simpa using congrArg Settings.traceLogging (hon.symm.trans hoff)

def allInFront (flag number : String) : Gap :=
  ⟨0, settingElement "trace-log" flag (settingElement "max-redirects" number
    (settingElement "chunking-disabled" flag (settingElement "idle-handler-removed" flag .nil))),
    .nil, 0⟩

/-- If an element gives a value, one of the settings in front of it is lost. -/
theorem givesValue_of_ignored {x : UnknownElement} (h : x.Ignored) :
    x.inner.givesValue false = false := by
  -- The settings in front are the same again behind the element, so two documents with no setting
  -- in common are still so.
  have hread (flag number : String) (settings : Settings)
      (hfront : Place.run {} (allInFront flag number).front =
        .ok { settings, inTransport := true }) :
      ∃ q : Place, Place.run { settings, inTransport := true } x.content.events = .ok q ∧
        q.settings = settings := by
    have hvalue : ofEvents ((allInFront flag number).events .nil) = .ok settings :=
      Gap.ofEvents_eq_ok.2 ⟨_, _, _, hfront, rfl, rfl, rfl⟩
    obtain ⟨p, q, r, hfront', hcontent, hafter, hsettings⟩ := Gap.ofEvents_eq_ok.1 (h _ _ hvalue)
    obtain rfl := Except.ok.inj (hfront.symm.trans hfront')
    obtain rfl := Except.ok.inj hafter
    exact ⟨q, hcontent, hsettings⟩
  obtain ⟨q, hq, hon⟩ := hread "true" "1" ⟨true, 1, true, true⟩ rfl
  obtain ⟨q', hq', hoff⟩ := hread "false" "2" ⟨false, 2, false, false⟩ rfl
  have hroot : x.content.namesRoot = false := by
    simp [content, Content.namesRoot, namesRoot_of_ignored h, x.name_ne_root]
  have hdiffer : q.settings.Differ q'.settings := by
    rw [hon, hoff]
    exact ⟨by decide, by decide, by decide, by decide⟩
  have htwins : Place.Twins { settings := ⟨true, 1, true, true⟩, inTransport := true }
      { settings := ⟨false, 2, false, false⟩, inTransport := true } := ⟨rfl, rfl⟩
  obtain ⟨-, hgives⟩ := (Place.run_differ hroot rfl htwins hq hq').2 hdiffer
  simpa [content, Content.givesValue, x.name_unknown] using hgives

/-- **Which unknown elements are ignored**: in every document that is accepted, and wherever they
are put between the children of `transport`, those whose content has no element that is named like
the root, and none that is named like a setting and begins with a text. -/
theorem ignored_iff (x : UnknownElement) :
    x.Ignored ↔ x.inner.namesRoot = false ∧ x.inner.givesValue false = false :=
  ⟨fun h => ⟨namesRoot_of_ignored h, givesValue_of_ignored h⟩,
    fun ⟨hroot, hvalue⟩ => ignored_of_quiet hroot hvalue⟩

def colour : UnknownElement where
  name := "colour".toList
  inner := .text "blue".toList .nil
  name_ne_root := by decide
  name_unknown := by decide
  inner_legible := by decide

theorem colour_ignored : colour.Ignored :=
  (ignored_iff colour).2 ⟨rfl, rfl⟩

/-- An element around one that is named like a setting. -/
def aroundTraceLog : UnknownElement where
  name := "x".toList
  inner := settingElement "trace-log" "true" .nil
  name_ne_root := by decide
  name_unknown := by decide
  inner_legible := by decide

/-- **An unknown element that is not ignored.** The setting inside it is read as if it stood beside
it. -/
theorem aroundTraceLog_read :
    let gap : Gap := ⟨0, .nil, .nil, 0⟩
    let without := "<transport></transport>"
    let inserted := "<transport><x><trace-log>true</trace-log></x></transport>"
    Xml.events without.toList = (gap.events .nil, true) ∧
      Xml.events inserted.toList = (gap.events aroundTraceLog.content, true) ∧
      ofDocument without = .ok {} ∧
      ofDocument inserted = .ok { traceLogging := true } := by
  intro gap without inserted
  have hwithout : Xml.events without.toList = (gap.events .nil, true) := by decide +kernel
  have hinserted : Xml.events inserted.toList = (gap.events aroundTraceLog.content, true) := by
    decide +kernel
  refine ⟨hwithout, hinserted, ?_, ?_⟩
  · rw [ofDocument_eq_ofEvents hwithout]
    rfl
  · rw [ofDocument_eq_ofEvents hinserted]
    rfl

end UnknownElement

end Settings

end WebClient
