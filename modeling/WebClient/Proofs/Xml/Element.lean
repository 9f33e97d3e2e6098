import WebClient.Proofs.Text.Split
import WebClient.Xml.Entity
import WebClient.Xml.Event

/-!
# Elements that are written

An element with a text is written as a start tag, character data and an end tag. The reader takes
them one at a time: a tag up to its closing angle, character data up to the next opening one. So
what a document comes to is known piece by piece (`eventsFrom_element`, `eventsFrom_text`), whatever
is open around it and whatever follows.

The reader takes blanks off character data before the references in it are read. A blank that is
written as a reference stays, but one that stands for itself is no part of a reference, so the text
is the same up to the blanks at its ends (`Encodes.exists_textEvents`).
-/

namespace WebClient.Xml

variable {opened : List (List Char)} {seen : List Event} {name raw rest : List Char}

/-! ### References -/

/-- Character data for a text, escaped in any way. -/
def Encodes (raw text : List Char) : Prop :=
  '<' ∉ raw ∧ unescape? raw = some text

def escapeChar : Char → List Char
  | '<' => "&lt;".toList
  | '>' => "&gt;".toList
  | '&' => "&amp;".toList
  | '\'' => "&apos;".toList
  | '"' => "&quot;".toList
  | c => [c]

def escape (text : List Char) : List Char :=
  text.flatMap escapeChar

theorem unescapeFrom?_escapeChar (seen : List Char) (c : Char) (cs : List Char) :
    unescapeFrom? seen none (escapeChar c ++ cs) = unescapeFrom? (c :: seen) none cs := by
  unfold escapeChar
  split
  case h_6 _ _ hamp _ _ => exact if_neg hamp
  all_goals rfl

theorem unescapeFrom?_escape (seen text : List Char) :
    unescapeFrom? seen none (escape text) = some (seen.reverse ++ text) := by
  induction text generalizing seen with
  | nil => simp [escape, unescapeFrom?]
  | cons c text ih =>
    have hcons : escape (c :: text) = escapeChar c ++ escape text := rfl
    rw [hcons, unescapeFrom?_escapeChar, ih]
    simp

theorem encodes_escape (text : List Char) : Encodes (escape text) text := by
  constructor
  · rw [escape, List.mem_flatMap]
    rintro ⟨c, -, hc⟩
    unfold escapeChar at hc
    split at hc
    case h_6 hlt _ _ _ _ => exact hlt (List.mem_singleton.1 hc).symm
    all_goals simp at hc
  · exact unescapeFrom?_escape [] text

/-- Characters that no reference begins with stand for themselves. -/
theorem unescapeFrom?_append_left {front : List Char} (hamp : '&' ∉ front) (seen cs : List Char) :
    unescapeFrom? seen none (front ++ cs) = unescapeFrom? (front.reverse ++ seen) none cs := by
  induction front generalizing seen with
  | nil => rfl
  | cons c front ih =>
    rw [List.mem_cons, not_or] at hamp
    rw [List.cons_append, unescapeFrom?, if_neg (Ne.symm hamp.1), ih hamp.2]
    simp

theorem unescapeFrom?_begun {back : List Char} (hsemi : ';' ∉ back) (seen name : List Char) :
    unescapeFrom? seen (some name) back = none := by
  induction back generalizing name with
  | nil => rfl
  | cons c back ih =>
    rw [List.mem_cons, not_or] at hsemi
    rw [unescapeFrom?, if_neg (Ne.symm hsemi.1), ih hsemi.2]
    split <;> rfl

theorem unescapeFrom?_append_right {back : List Char} (hamp : '&' ∉ back) (hsemi : ';' ∉ back)
    (seen : List Char) (begun : Option (List Char)) (cs : List Char) :
    unescapeFrom? seen begun (cs ++ back) = (unescapeFrom? seen begun cs).map (· ++ back) := by
  induction cs generalizing seen begun with
  | nil =>
    cases begun with
    | none =>
      have hback := unescapeFrom?_append_left hamp seen []
      rw [List.append_nil] at hback
      simp [hback, unescapeFrom?]
    | some name => exact unescapeFrom?_begun hsemi seen name
  | cons c cs ih =>
    rw [List.cons_append]
    cases begun with
    | none =>
      simp only [unescapeFrom?]
      split <;> exact ih _ _
    | some name =>
      simp only [unescapeFrom?]
      split
      · cases reference? name.reverse with
        | none => rfl
        | some d => exact ih _ _
      · split
        · rfl
        · exact ih _ _

theorem unescapeFrom?_eq_map (seen : List Char) (begun : Option (List Char)) (cs : List Char) :
    unescapeFrom? seen begun cs = (unescapeFrom? [] begun cs).map (seen.reverse ++ ·) := by
  induction cs generalizing seen begun with
  | nil => cases begun <;> simp [unescapeFrom?]
  | cons c cs ih =>
    cases begun with
    | none =>
      simp only [unescapeFrom?]
      split
      · exact ih _ _
      · rw [ih (c :: seen), ih [c], Option.map_map]
        simp [Function.comp_def]
    | some name =>
      simp only [unescapeFrom?]
      split
      · cases reference? name.reverse with
        | none => rfl
        | some d =>
          dsimp only
          rw [ih (d :: seen), ih [d], Option.map_map]
          simp [Function.comp_def]
      · split
        · rfl
        · exact ih _ _

/-- Blanks around character data stay around its text. -/
theorem unescape?_between {front back : List Char} (hfront : '&' ∉ front) (hamp : '&' ∉ back)
    (hsemi : ';' ∉ back) (cs : List Char) :
    unescape? (front ++ cs ++ back) = (unescape? cs).map (front ++ · ++ back) := by
  rw [unescape?, unescapeFrom?_append_right hamp hsemi, unescapeFrom?_append_left hfront,
    unescapeFrom?_eq_map, Option.map_map, unescape?]
  simp [Function.comp_def]

/-! ### Blanks -/

theorem eq_of_isBlank {c : Char} (h : isBlank c = true) :
    c = ' ' ∨ c = '\t' ∨ c = '\r' ∨ c = '\n' := by
  simpa [isBlank, or_assoc] using h

theorem isBlank_text {c : Char} (h : isBlank c = true) : Text.isBlank c = true := by
  rcases eq_of_isBlank h with rfl | rfl | rfl | rfl <;> decide

theorem not_mem_of_isBlank {blanks : List Char} (h : ∀ c ∈ blanks, isBlank c = true) {c : Char}
    (hc : isBlank c = false) : c ∉ blanks := by
  intro hmem
  simp [h c hmem] at hc

theorem exists_eq_trimEnd_append (cs : List Char) :
    ∃ back, (∀ c ∈ back, isBlank c = true) ∧ cs = trimEnd cs ++ back := by
  refine ⟨(cs.reverse.takeWhile isBlank).reverse, ?_, ?_⟩
  · intro c hc
    exact List.mem_takeWhile_imp (List.mem_reverse.1 hc)
  · rw [trimEnd, ← List.reverse_append, List.takeWhile_append_dropWhile, List.reverse_reverse]

/-- The event that character data comes to, if any. -/
def textEvents (raw : List Char) : List Event :=
  match raw.dropWhile isBlank with
  | [] => []
  | c :: cs => [.text (trimEnd (c :: cs))]

/-- A text that is not of blanks alone comes to one event, and its references give the text, up to
the blanks around it. -/
theorem Encodes.exists_textEvents {text : List Char} (h : Encodes raw text)
    (hvisible : ∃ c ∈ text, isBlank c = false) :
    ∃ core value, textEvents raw = [.text core] ∧ unescape? core = some value ∧
      Text.trimChars value = Text.trimChars text := by
  obtain ⟨-, htext⟩ := h
  have hfront : ∀ c ∈ raw.takeWhile isBlank, isBlank c = true := fun c => List.mem_takeWhile_imp
  have hamp : '&' ∉ raw.takeWhile isBlank := not_mem_of_isBlank hfront rfl
  obtain ⟨back, hback, hcore⟩ := exists_eq_trimEnd_append (raw.dropWhile isBlank)
  have hraw : raw = raw.takeWhile isBlank ++ trimEnd (raw.dropWhile isBlank) ++ back := by
    rw [List.append_assoc, ← hcore, List.takeWhile_append_dropWhile]
  have hread := unescape?_between hamp (not_mem_of_isBlank hback rfl)
    (not_mem_of_isBlank hback rfl) (trimEnd (raw.dropWhile isBlank))
  rw [← hraw, htext] at hread
  obtain ⟨value, hvalue, heq⟩ := Option.map_eq_some_iff.1 hread.symm
  refine ⟨trimEnd (raw.dropWhile isBlank), value, ?_, hvalue, ?_⟩
  · cases hdrop : raw.dropWhile isBlank with
    | cons c cs => simp [textEvents, hdrop]
    | nil =>
      -- A text of blanks alone would stand for itself.
      obtain ⟨c, hmem, hc⟩ := hvisible
      rw [hdrop] at hvalue
      obtain rfl := Option.some.inj hvalue
      rw [← heq, List.reverse_nil, List.append_nil] at hmem
      rcases List.mem_append.1 hmem with hmem | hmem
      · exact absurd hmem (not_mem_of_isBlank hfront hc)
      · exact absurd hmem (not_mem_of_isBlank hback hc)
  · rw [← heq, Text.trimChars_append fun c hc => isBlank_text (hback c hc),
      Text.trimChars_append_left fun c hc => isBlank_text (hfront c hc)]

/-! ### Events -/

/-- No character is a blank, a quote or one that markup begins or ends with. The names of the format
are among these. -/
def IsName (name : List Char) : Prop :=
  name ≠ [] ∧ ∀ c ∈ name, isBlank c = false ∧ c ∉ ['<', '>', '/', '!', '?', '"', '\'']

instance (name : List Char) : Decidable (IsName name) :=
  @instDecidableAnd _ _ _ (List.decidableBAll _ _)

def element (name raw : List Char) : List Char :=
  '<' :: name ++ '>' :: raw ++ '<' :: '/' :: name ++ ['>']

def elementEvents (name : List Char) (inner : List Event) : List Event :=
  .startTag name :: (inner ++ [.endTag name])

/-- In front of markup, a piece of a document comes to some events. -/
def ComesTo (written : List Char) (events : List Event) : Prop :=
  ∀ opened seen rest, eventsFrom opened seen (written ++ '<' :: rest) =
    eventsFrom opened (events.reverse ++ seen) ('<' :: rest)

theorem splitMarkup?_tag {content : List Char}
    (h : ∀ c ∈ content, c ∉ ['>', '"', '\'']) (seen rest : List Char) :
    splitMarkup? (.tag none) seen (content ++ '>' :: rest) =
      some (seen.reverse ++ content, rest) := by
  induction content generalizing seen with
  | nil => simp [splitMarkup?, Markup.feed]
  | cons c content ih =>
    rw [List.forall_mem_cons] at h
    obtain ⟨hc, hcontent⟩ := h
    have hfeed : (Markup.tag none).feed c = some (.tag none) := by
      simp only [List.mem_cons, not_or] at hc
      simp [Markup.feed, hc]
    rw [List.cons_append, splitMarkup?, hfeed]
    simpa using ih hcontent (c :: seen)

theorem eventsFrom_markup {opened' : List (List Char)} {markup content : List Char} {m : Markup}
    {event : Event} (hstart : Markup.ofStart? markup = some m)
    (hsplit : splitMarkup? m [] markup = some (content, rest))
    (hevent : eventOf? opened m content = some (event, opened')) :
    eventsFrom opened seen ('<' :: markup) = eventsFrom opened' (event :: seen) rest := by
  have hdrop : ('<' :: markup).dropWhile isBlank = '<' :: markup := rfl
  rw [eventsFrom]
  split
  · next hnil => simp [hdrop] at hnil
  · next markup' hcons =>
    obtain rfl : markup = markup' := by simpa [hdrop] using hcons
    simp only [hstart]
    split
    · next hnone => simp [hsplit] at hnone
    · next hsome =>
      obtain ⟨rfl, rfl⟩ : content = _ ∧ rest = _ := by simpa [hsplit] using hsome
      simp only [hevent]
  · next c cs hother hcons =>
    simp only [hdrop, List.cons.injEq] at hcons
    exact (hother hcons.1.symm).elim

namespace IsName

theorem not_mem (hname : IsName name) {c : Char}
    (hc : c ∈ ['<', '>', '/', '!', '?', '"', '\'']) : c ∉ name :=
  fun hmem => (hname.2 c hmem).2 hc

theorem not_mem_markup (hname : IsName name) : ∀ c ∈ name, c ∉ ['>', '"', '\''] := by
  intro c hmem hc
  refine hname.not_mem ?_ hmem
  simp only [List.mem_cons, List.not_mem_nil, or_false] at hc ⊢
  tauto

theorem ofStart?_eq (hname : IsName name) (rest : List Char) :
    Markup.ofStart? (name ++ '>' :: rest) = some (.tag none) := by
  obtain ⟨hne, hplain⟩ := hname
  obtain ⟨c, cs, rfl⟩ := List.exists_cons_of_ne_nil hne
  obtain ⟨-, hc⟩ := hplain c (List.mem_cons_self)
  rw [List.cons_append]
  unfold Markup.ofStart?
  split <;> simp_all

theorem eventOf?_startTag (hname : IsName name) (opened : List (List Char)) :
    eventOf? opened (.tag none) name = some (.startTag name, name :: opened) := by
  have htag : tagName name = name :=
    List.takeWhile_eq_self_iff.2 fun c hmem => by simp [(hname.2 c hmem).1]
  have hslash : '/' ∉ name := hname.not_mem (by simp)
  have hlast : name.getLast? ≠ some '/' := fun h => hslash (List.mem_of_getLast? h)
  unfold eventOf?
  dsimp only
  split
  · exact absurd List.mem_cons_self hslash
  · rw [if_neg hlast, htag]

theorem trimEnd_eq (hname : IsName name) : trimEnd name = name := by
  have hkeep : name.reverse.dropWhile isBlank = name.reverse := by
    cases hreverse : name.reverse with
    | nil => rfl
    | cons c cs =>
      have hmem : c ∈ name := List.mem_reverse.1 (hreverse ▸ List.mem_cons_self)
      simp [(hname.2 c hmem).1]
  rw [trimEnd, hkeep, List.reverse_reverse]

theorem eventOf?_endTag (hname : IsName name) (opened : List (List Char)) :
    eventOf? (name :: opened) (.tag none) ('/' :: name) = some (.endTag name, opened) := by
  simp [eventOf?, hname.trimEnd_eq]

end IsName

theorem eventsFrom_startTag (hname : IsName name) :
    eventsFrom opened seen ('<' :: (name ++ '>' :: rest)) =
      eventsFrom (name :: opened) (.startTag name :: seen) rest :=
  eventsFrom_markup (hname.ofStart?_eq rest) (splitMarkup?_tag hname.not_mem_markup [] rest)
    (hname.eventOf?_startTag opened)

theorem eventsFrom_endTag (hname : IsName name) :
    eventsFrom (name :: opened) seen ('<' :: '/' :: (name ++ '>' :: rest)) =
      eventsFrom opened (.endTag name :: seen) rest := by
  have hsplit : splitMarkup? (.tag none) [] ('/' :: name ++ '>' :: rest) =
      some ('/' :: name, rest) :=
    splitMarkup?_tag (List.forall_mem_cons.2 ⟨by simp, hname.not_mem_markup⟩) [] rest
  exact eventsFrom_markup rfl hsplit (hname.eventOf?_endTag opened)

theorem eventsFrom_congr {document document' : List Char}
    (h : document.dropWhile isBlank = document'.dropWhile isBlank) :
    eventsFrom opened seen document = eventsFrom opened seen document' := by
  -- Both readings turn on the first character that is no blank.
  conv_lhs => rw [eventsFrom]
  conv_rhs => rw [eventsFrom]
  generalize document.dropWhile isBlank = first at h
  subst h
  rfl

theorem eventsFrom_nil : eventsFrom opened seen [] = (seen.reverse, true) := by
  rw [eventsFrom]
  rfl

theorem eventsFrom_of_dropWhile {document : List Char} {c : Char} {cs : List Char}
    (hdrop : document.dropWhile isBlank = c :: cs) (hc : c ≠ '<') :
    eventsFrom opened seen document =
      eventsFrom opened (.text (trimEnd (c :: cs.takeWhile (· ≠ '<'))) :: seen)
        (cs.dropWhile (· ≠ '<')) := by
  rw [eventsFrom]
  split
  · next hnil => simp [hdrop] at hnil
  · next hcons => simp [hdrop, hc] at hcons
  · next c' cs' _ hcons =>
    obtain ⟨rfl, rfl⟩ := List.cons.inj (hdrop.symm.trans hcons)
    rfl

/-- Character data up to the next markup, or up to the end, comes to its event. -/
theorem eventsFrom_text (hraw : '<' ∉ raw) (hrest : ∀ c ∈ rest.head?, c = '<') :
    eventsFrom opened seen (raw ++ rest) =
      eventsFrom opened ((textEvents raw).reverse ++ seen) rest := by
  cases hdrop : raw.dropWhile isBlank with
  | nil =>
    have hblank : (raw ++ rest).dropWhile isBlank = rest.dropWhile isBlank := by
      simp [List.dropWhile_append, hdrop]
    simpa [textEvents, hdrop] using eventsFrom_congr hblank
  | cons c cs =>
    have hcore : (raw ++ rest).dropWhile isBlank = c :: (cs ++ rest) := by
      simp [List.dropWhile_append, hdrop]
    have hmem : '<' ∉ c :: cs := fun h =>
      hraw ((List.dropWhile_suffix isBlank).subset (hdrop ▸ h))
    rw [List.mem_cons, not_or] at hmem
    have hpass : ∀ d ∈ cs, decide (d ≠ '<') = true := fun d hd =>
      decide_eq_true fun heq => hmem.2 (heq ▸ hd)
    have hstop : rest.takeWhile (· ≠ '<') = [] ∧ rest.dropWhile (· ≠ '<') = rest := by
      cases rest with
      | nil => exact ⟨rfl, rfl⟩
      | cons d rest => simp [hrest d rfl]
    rw [eventsFrom_of_dropWhile hcore (Ne.symm hmem.1), List.takeWhile_append_of_pos hpass,
      List.dropWhile_append_of_pos hpass, hstop.1, hstop.2, List.append_nil]
    simp [textEvents, hdrop]

theorem comesTo_textEvents (hraw : '<' ∉ raw) : ComesTo raw (textEvents raw) :=
  fun _ _ _ => eventsFrom_text hraw (by simp)

theorem eventsFrom_last (hraw : '<' ∉ raw) :
    eventsFrom opened seen raw = (seen.reverse ++ textEvents raw, true) := by
  have htext : eventsFrom opened seen (raw ++ []) =
      eventsFrom opened ((textEvents raw).reverse ++ seen) [] := eventsFrom_text hraw (by simp)
  rw [List.append_nil, eventsFrom_nil] at htext
  simpa using htext

/-- What stands in an element is read between its tags, and the reading goes on behind it. -/
theorem eventsFrom_element {inner : List Char} {events : List Event} (hname : IsName name)
    (hinner : ComesTo inner events) :
    eventsFrom opened seen (element name inner ++ rest) =
      eventsFrom opened ((elementEvents name events).reverse ++ seen) rest := by
  have hwritten : element name inner ++ rest =
      '<' :: (name ++ '>' :: (inner ++ '<' :: '/' :: (name ++ '>' :: rest))) := by simp [element]
  rw [hwritten, eventsFrom_startTag hname, hinner, eventsFrom_endTag hname]
  simp [elementEvents]

/-- A document of one element is well formed, whatever other text is around it. -/
theorem events_element {front inner back : List Char} {events : List Event} (hname : IsName name)
    (hfront : '<' ∉ front) (hmark : '\uFEFF' ∉ front) (hinner : ComesTo inner events)
    (hback : '<' ∉ back) :
    Xml.events (front ++ (element name inner ++ back)) =
      (textEvents front ++ (elementEvents name events ++ textEvents back), true) := by
  have hfirst : (front ++ (element name inner ++ back)).head? ≠ some '\uFEFF' := by
    cases front with
    | nil => simp [element]
    | cons c front =>
      rintro ⟨rfl⟩
      exact hmark List.mem_cons_self
  rw [Xml.events, if_neg hfirst, eventsFrom_text hfront (by simp [element]),
    eventsFrom_element hname hinner, eventsFrom_last hback]
  simp

end WebClient.Xml
