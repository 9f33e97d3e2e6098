/-!
# XML events

A document is read as the tags, texts and other markup that stand in it, one after the other. Blanks
around a text are not part of it, and a text of blanks alone is no event. An end tag must name the
element opened last; elements that are still open when the document ends are let be. What breaks
off inside markup, or is no markup at all, ends the reading as malformed.
-/

namespace WebClient.Xml

/-- One piece of a document. A text is given as it stands, references included. -/
inductive Event where
  | startTag (name : List Char)
  | emptyTag (name : List Char)
  | endTag (name : List Char)
  | text (raw : List Char)
  | other
  deriving DecidableEq, Repr

def isBlank (c : Char) : Bool :=
  c = ' ' || c = '\t' || c = '\r' || c = '\n'

/-- Where a reader stands inside markup: what decides whether the next closing angle ends it.

A tag ends outside quotes, an instruction behind a question mark, a comment behind two hyphens that
are not those it starts with, character data behind two brackets, and a document type where every
angle inside it is closed. -/
inductive Markup where
  | tag (quote : Option Char)
  | instruction (last : Char)
  | comment (length : Nat) (beforeLast last : Char)
  | data (beforeLast last : Char)
  | docType (depth : Nat)
  deriving DecidableEq, Repr

/-- The place behind one more character, none when that character ends the markup. -/
def Markup.feed (m : Markup) (c : Char) : Option Markup :=
  match m with
  | tag none => if c = '>' then none else some (tag (if c = '"' || c = '\'' then some c else none))
  | tag (some quote) => some (tag (if c = quote then none else some quote))
  | instruction last => if c = '>' && last = '?' then none else some (instruction c)
  | comment length beforeLast last =>
    if c = '>' && beforeLast = '-' && last = '-' && length > 4 then none
    else some (comment (length + 1) last c)
  | data beforeLast last =>
    if c = '>' && beforeLast = ']' && last = ']' then none else some (data last c)
  | docType depth =>
    if c = '<' then some (docType (depth + 1))
    else if c = '>' then (match depth with
      | 0 => none
      | depth + 1 => some (docType depth))
    else some (docType depth)

def splitMarkup? (m : Markup) (seen : List Char) :
    List Char → Option (List Char × List Char)
  | [] => none
  | c :: cs =>
    match m.feed c with
    | none => some (seen.reverse, cs)
    | some m => splitMarkup? m (c :: seen) cs

def Markup.ofStart? : List Char → Option Markup
  | [] => none
  | '!' :: '-' :: _ => some (comment 0 ' ' ' ')
  | '!' :: '[' :: _ => some (data ' ' ' ')
  | '!' :: 'D' :: _ | '!' :: 'd' :: _ => some (docType 0)
  | '!' :: _ => none
  | '?' :: _ => some (instruction ' ')
  | _ => some (tag none)

def tagName (content : List Char) : List Char :=
  content.takeWhile (!isBlank ·)

def trimEnd (cs : List Char) : List Char :=
  (cs.reverse.dropWhile isBlank).reverse

/-- The event of markup with the given content, and the names of the elements that are open behind
it, innermost first. -/
def eventOf? (opened : List (List Char)) (m : Markup) (content : List Char) :
    Option (Event × List (List Char)) :=
  match m with
  | .comment .. => if "!--".toList.isPrefixOf content then some (.other, opened) else none
  | .data .. => if "![CDATA[".toList.isPrefixOf content then some (.other, opened) else none
  | .docType _ =>
    if content.take 8 |>.map Char.toLower |> (· = "!doctype".toList) then
      if (content.drop 8).all isBlank then none else some (.other, opened)
    else none
  | .instruction _ => if content.length > 1 then some (.other, opened) else none
  | .tag _ =>
    match content with
    | '/' :: name =>
      -- a name of blanks alone is compared as it stands
      let name := if name.all isBlank then name else trimEnd name
      match opened with
      | [] => none
      | expected :: opened => if name = expected then some (.endTag name, opened) else none
    | _ =>
      if content.getLast? = some '/' then some (.emptyTag (tagName content.dropLast), opened)
      else some (.startTag (tagName content), tagName content :: opened)

theorem length_lt_of_splitMarkup? {m : Markup} {seen cs content rest : List Char}
    (h : splitMarkup? m seen cs = some (content, rest)) : rest.length < cs.length := by
  induction cs generalizing m seen with
  | nil => simp [splitMarkup?] at h
  | cons c cs ih =>
    simp only [splitMarkup?] at h
    split at h
    · simp only [Option.some.injEq, Prod.mk.injEq] at h
      simp [h.2]
    · have := ih h
      simp only [List.length_cons]
      omega

/-- The events of the rest of a document, behind those in `seen`, latest first, and whether the rest
is well formed. -/
def eventsFrom (opened : List (List Char)) (seen : List Event) (document : List Char) :
    List Event × Bool :=
  match _h : document.dropWhile isBlank with
  | [] => (seen.reverse, true)
  | '<' :: markup =>
    match Markup.ofStart? markup with
    | none => (seen.reverse, false)
    | some m =>
      match _hs : splitMarkup? m [] markup with
      | none => (seen.reverse, false)
      | some (content, rest) =>
        match eventOf? opened m content with
        | none => (seen.reverse, false)
        | some (event, opened) => eventsFrom opened (event :: seen) rest
  | c :: cs =>
    eventsFrom opened (.text (trimEnd (c :: cs.takeWhile (· ≠ '<'))) :: seen)
      (cs.dropWhile (· ≠ '<'))
termination_by document.length
decreasing_by
  · have shorter := (List.dropWhile_suffix (l := document) isBlank).length_le
    have := length_lt_of_splitMarkup? _hs
    simp only [_h, List.length_cons] at shorter
    omega
  · have shorter := (List.dropWhile_suffix (l := document) isBlank).length_le
    have := (List.dropWhile_suffix (l := cs) (· ≠ '<')).length_le
    simp only [_h, List.length_cons] at shorter
    omega

/-- The events of a document, up to where it is malformed, and whether it is well formed. A byte
order mark in front is ignored. -/
def events (document : List Char) : List Event × Bool :=
  eventsFrom [] [] (if document.head? = some '\uFEFF' then document.tail else document)

end WebClient.Xml
