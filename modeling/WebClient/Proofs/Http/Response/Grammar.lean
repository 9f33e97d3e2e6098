import WebClient.Proofs.Http.Headers
import WebClient.Proofs.Http.Response.Pieces
import WebClient.Proofs.Http.Wire
import WebClient.Proofs.Text.Split

/-!
# The form of a response

A response on the wire is a status line, the lines of its fields, an empty line and a body. How the
body is framed is for the status and the fields to say: there is none, or its length is stated, or
it comes in chunks with further fields behind the last, or it ends with the connection. Numbers may
be spelled in any way and names and values may have blanks around them.

A reader that starts afresh reads any such response as what it says (`decode_text`,
`decodeEnd_text`). The parts are read one after the other: a line, a row of fields, a row of chunks.
-/

namespace WebClient.Http

open Request (fieldLine)

/-! ### The parts of a response -/

/-- The line of a field: what stands in front of its first colon, and behind it. -/
structure FieldLine where
  name : String
  value : String

namespace FieldLine

def text (line : FieldLine) : String :=
  line.name ++ ":" ++ line.value

def bytes (line : FieldLine) : Bytes :=
  Bytes.ofString line.text ++ Bytes.crlf

def field (line : FieldLine) : Field :=
  ⟨Text.trim line.name, Text.trim line.value⟩

/-- The name ends at the first colon, and the line where it should. -/
structure IsPlain (line : FieldLine) : Prop where
  no_colon : ':' ∉ line.name.toList
  is_line : Bytes.IsLine (Bytes.ofString line.text)

theorem length_bytes (line : FieldLine) :
    line.bytes.length = (Bytes.ofString line.text).length + 2 := by
  rw [bytes, List.length_append]
  rfl

end FieldLine

/-- The line on which a client, or a server that writes like one, puts a field. -/
def Field.line (field : Field) : FieldLine :=
  ⟨field.name, " " ++ field.value⟩

theorem Field.text_line (field : Field) : field.line.text = field.name ++ ": " ++ field.value := by
  rw [← String.toList_inj]
  simp [FieldLine.text, Field.line]

theorem Field.bytes_line (field : Field) : field.line.bytes = fieldLine field := by
  rw [FieldLine.bytes, Field.text_line, fieldLine_eq]

def Field.trimmed (field : Field) : Field :=
  ⟨Text.trim field.name, Text.trim field.value⟩

/-- The blank behind the colon is no part of the value. -/
theorem Field.field_line (field : Field) : field.line.field = field.trimmed := by
  have hblank : Text.isBlank ' ' = true := by decide
  have hvalue : Text.trim (" " ++ field.value) = Text.trim field.value := by
    simp [Text.trim, Text.trimChars, List.dropWhile_cons_of_pos hblank]
  rw [FieldLine.field, Field.line, hvalue, Field.trimmed]

theorem flatMap_bytes_line (fields : Headers) :
    (fields.map Field.line).flatMap FieldLine.bytes = fields.flatMap fieldLine := by
  have hbytes : (fun field : Field => field.line.bytes) = fieldLine := funext Field.bytes_line
  rw [List.flatMap_map, hbytes]

/-- A chunked body with the lines of its trailers. -/
structure ChunkedText where
  chunks : List Chunk
  lastDigits : List Char
  lastExtension : String
  trailers : List FieldLine
  last_spells : Text.Spells 16 0 lastDigits
  last_extends_line : IsExtension lastExtension
  trailers_plain : ∀ line ∈ trailers, line.IsPlain

namespace ChunkedText

def body (text : ChunkedText) : Bytes :=
  text.chunks.flatMap Chunk.data

def trailerLines (text : ChunkedText) : Bytes :=
  text.trailers.flatMap FieldLine.bytes ++ Bytes.crlf

def bytes (text : ChunkedText) : Bytes :=
  text.chunks.flatMap Chunk.bytes ++
    (Bytes.ofString (sizeLine text.lastDigits text.lastExtension) ++ Bytes.crlf ++
      text.trailerLines)

end ChunkedText

/-- What follows the head, by how it is framed. -/
inductive BodyText where
  | bodiless
  | sized (body : Bytes)
  | chunked (text : ChunkedText)
  | untilClose (body : Bytes)

namespace BodyText

def body : BodyText → Bytes
  | bodiless => []
  | sized body => body
  | chunked text => text.body
  | untilClose body => body

def trailers : BodyText → List FieldLine
  | chunked text => text.trailers
  | _ => []

def trailerLines : BodyText → Bytes
  | chunked text => text.trailerLines
  | _ => []

def bytes : BodyText → Bytes
  | bodiless => []
  | sized body => body
  | chunked text => text.bytes
  | untilClose body => body

/-- The bytes themselves show where the response ends. -/
def IsDelimited : BodyText → Prop
  | untilClose _ => False
  | _ => True

/-- The fields of the head say that the body is framed so. -/
def FramedBy (headers : Headers) : BodyText → Prop
  | bodiless => True
  | sized body =>
    headers.has "Transfer-Encoding" = false ∧ headers.has "Content-Length" = true ∧
      ∀ value ∈ headers.values "Content-Length",
        Text.Spells 10 body.length (Text.trimChars value.toList)
  | chunked _ => headers.EndChunked
  | untilClose _ =>
    headers.has "Transfer-Encoding" = false ∧ headers.has "Content-Length" = false

end BodyText

/-- A response as it stands on the wire; the reason, if there is one, with the blanks around it. -/
structure ResponseText where
  version : String
  digits : List Char
  status : Nat
  reason : Option String
  lines : List FieldLine
  body : BodyText

namespace ResponseText

def statusText (t : ResponseText) : String :=
  t.version ++ " " ++ String.ofList t.digits ++
    match t.reason with
    | some reason => " " ++ reason
    | none => ""

def fields (t : ResponseText) : Headers :=
  t.lines.map FieldLine.field

def head (t : ResponseText) : Bytes :=
  Bytes.ofString t.statusText ++ Bytes.crlf ++ (t.lines.flatMap FieldLine.bytes ++ Bytes.crlf)

def bytes (t : ResponseText) : Bytes :=
  t.head ++ t.body.bytes

def response (t : ResponseText) : Response where
  status := t.status
  reason := (t.reason.map Text.trim).filter (· ≠ "")
  headers := t.fields ++ t.body.trailers.map FieldLine.field
  body := t.body.body

/-- The response keeps to the form and to the sizes that are read. -/
structure WellFormed (t : ResponseText) : Prop where
  is_version : "HTTP/".toList <+: t.version.toList ∧ ' ' ∉ t.version.toList
  status_spelled : Text.Spells 10 t.status t.digits
  status_range : 100 ≤ t.status ∧ t.status < 1000
  status_line : Bytes.IsLine (Bytes.ofString t.statusText)
  lines_plain : ∀ line ∈ t.lines, line.IsPlain
  bodiless_iff : ResponseReader.isBodiless t.status = true ↔ t.body = .bodiless
  framed : t.body.FramedBy t.fields
  head_length : t.head.length + t.body.trailerLines.length ≤ ResponseReader.maxHeadBytes
  body_length : t.body.body.length ≤ ResponseReader.maxBodyBytes

/-- The head alone keeps to the form and to the size that are read. -/
structure WellFormedHead (t : ResponseText) : Prop where
  is_version : "HTTP/".toList <+: t.version.toList ∧ ' ' ∉ t.version.toList
  status_spelled : Text.Spells 10 t.status t.digits
  status_range : 100 ≤ t.status ∧ t.status < 1000
  status_line : Bytes.IsLine (Bytes.ofString t.statusText)
  lines_plain : ∀ line ∈ t.lines, line.IsPlain
  head_length : t.head.length ≤ ResponseReader.maxHeadBytes

theorem WellFormed.wellFormedHead {t : ResponseText} (h : t.WellFormed) : t.WellFormedHead :=
  ⟨h.is_version, h.status_spelled, h.status_range, h.status_line, h.lines_plain,
    Nat.le_trans (Nat.le_add_right _ _) h.head_length⟩

theorem isVersion_http11 : "HTTP/".toList <+: "HTTP/1.1".toList ∧ ' ' ∉ "HTTP/1.1".toList := by
  decide

end ResponseText

namespace ResponseReader

variable {r : ResponseReader}

/-! ### The kind of body -/

/-- The reader looks for the chunked coding anywhere in the values, also inside another word. -/
theorem isChunked_iff {headers : Headers} : isChunked headers = true ↔
    ∃ value ∈ headers.values "Transfer-Encoding",
      "chunked".toList <:+: (Text.lower value).toList := by
  rw [isChunked, Headers.values_congr lower_transferEncoding, List.any_eq_true]
  refine exists_congr fun value => and_congr_right fun _ => ?_
  exact ⟨Text.infix_of_splitMarkerFrom?_isSome, fun h => Text.splitMarkerFrom?_isSome_of_infix h []⟩

theorem isChunked_of_hasElement {headers : Headers}
    (h : headers.hasElement "Transfer-Encoding" "chunked" = true) : isChunked headers = true := by
  obtain ⟨coding, helements, hchunked⟩ := List.any_eq_true.1 h
  simp only [Headers.elements, List.mem_flatMap, List.mem_map] at helements
  obtain ⟨value, hvalue, piece, hpiece, rfl⟩ := helements
  have hinfix : Text.trimChars piece <:+: value.toList :=
    (Text.trimChars_infix piece).trans (Text.infix_of_mem_splitOn hpiece)
  have hlower : (Text.trimChars piece).map Char.toLower = "chunked".toList := by
    have heq := congrArg String.toList (Text.eqIgnoringCase_iff.1 hchunked)
    simpa [Text.lower] using heq
  refine isChunked_iff.2 ⟨value, hvalue, ?_⟩
  rw [← hlower, Text.lower, String.toList_map]
  exact hinfix.map Char.toLower

theorem isChunked_of_endChunked {headers : Headers} (h : headers.EndChunked) :
    isChunked headers = true := by
  obtain ⟨coding, hlast, hchunked⟩ := h
  have helements : coding ∈ headers.elements "Transfer-Encoding" :=
    (List.mem_filter.1 (List.mem_of_getLast? hlast)).1
  exact isChunked_of_hasElement (List.any_eq_true.2 ⟨coding, helements, hchunked⟩)

theorem isChunked_of_not_has {headers : Headers} (h : headers.has "Transfer-Encoding" = false) :
    isChunked headers = false := by
  rw [isChunked, Headers.values_congr lower_transferEncoding, Headers.values_eq_nil h, List.any_nil]

theorem statedLength_of_head? {headers : Headers} {value : String} {n : Nat}
    (hvalue : (headers.values "Content-Length").head? = some value)
    (hread : Text.numeral? 10 (Text.maxOfBits 64) (Text.trimChars value.toList) = some n) :
    statedLength headers = .ok (some n) := by
  have hget : headers.get? "content-length" = some value := by
    rw [Headers.get?_eq_head?_values, Headers.values_congr lower_contentLength, hvalue]
  simp only [statedLength, hget, hread]

theorem statedLength_of_values {headers : Headers} {n : Nat}
    (hhas : headers.has "Content-Length" = true)
    (hspells : ∀ value ∈ headers.values "Content-Length",
      Text.Spells 10 n (Text.trimChars value.toList))
    (hn : n ≤ maxBodyBytes) : statedLength headers = .ok (some n) := by
  rw [Headers.has_eq_isSome_get?, Headers.get?_eq_head?_values] at hhas
  obtain ⟨value, hvalue⟩ := Option.isSome_iff_exists.1 hhas
  have hdigits := hspells value (List.mem_of_head? hvalue)
  exact statedLength_of_head? hvalue
    (Text.numeral?_of_spells hdigits (Nat.le_trans hn (by decide)))

theorem statedLength_of_not_has {headers : Headers} (h : headers.has "Content-Length" = false) :
    statedLength headers = .ok none := by
  have hnone : headers.get? "content-length" = none := by
    rw [Headers.has_congr lower_contentLength.symm, Headers.has_eq_isSome_get?] at h
    simpa using h
  simp only [statedLength, hnone]

/-! ### Lines -/

theorem withLine_of_line {line : String} (hline : Bytes.IsLine (Bytes.ofString line))
    (hfit : r.phase.countsLines = true →
      r.headBytes + ((Bytes.ofString line).length + 2) ≤ maxHeadBytes)
    (rest : Bytes) (next : String → ResponseReader → Bytes → Step) :
    r.withLine (Bytes.ofString line ++ Bytes.crlf ++ rest) next =
      next line (r.countLine ((Bytes.ofString line).length + 2)) rest := by
  simp only [withLine, Bytes.splitLine?_of_isLine hline, Utf8.decode?_ofString, phase_countLine]
  by_cases hcounts : r.phase.countsLines = true
  · have hle := hfit hcounts
    rw [← headBytes_countLine hcounts] at hle
    have hnot : ¬ (r.countLine ((Bytes.ofString line).length + 2)).headBytes > maxHeadBytes :=
      Nat.not_lt.2 hle
    simp [hnot]
  · simp [hcounts]

theorem readField_text {line : FieldLine} (h : line.IsPlain) :
    readField line.text = .ok line.field := by
  have hcut : Text.splitFirst? ':' line.text.toList =
      some (line.name.toList, line.value.toList) :=
    Text.splitFirst?_eq_some_iff.2 ⟨by simp [FieldLine.text], h.no_colon⟩
  simp only [readField, hcut, FieldLine.field, Text.trim]

def withLines (r : ResponseReader) (lines : List FieldLine) : ResponseReader :=
  { r with
    headers := r.headers ++ lines.map FieldLine.field
    headBytes := r.headBytes + (lines.flatMap FieldLine.bytes).length }

@[simp] theorem headBytes_withLines (r : ResponseReader) (lines : List FieldLine) :
    (r.withLines lines).headBytes = r.headBytes + (lines.flatMap FieldLine.bytes).length := rfl

theorem step_fieldLine {line : FieldLine} (hphase : r.phase = .headers ∨ r.phase = .trailers)
    (h : line.IsPlain) (hfit : r.headBytes + line.bytes.length ≤ maxHeadBytes) (rest : Bytes) :
    r.step (line.bytes ++ rest) = .again (r.withLines [line]) rest := by
  have hne : line.text.isEmpty = false := by
    rw [← Bool.not_eq_true, String.isEmpty_iff]
    intro hempty
    simpa [FieldLine.text] using congrArg String.toList hempty
  have hlength := line.length_bytes
  rw [hlength] at hfit
  have hcounts : r.phase.countsLines = true := by rcases hphase with hp | hp <;> rw [hp] <;> rfl
  have hcount : { r.countLine ((Bytes.ofString line.text).length + 2) with
      headers := r.headers ++ [line.field] } = r.withLines [line] := by
    simp [countLine, hcounts, withLines, hlength]
  rw [FieldLine.bytes, ← hcount]
  rcases hphase with hphase | hphase
  all_goals
    simp only [step, hphase]
    rw [withLine_of_line h.is_line (fun _ => hfit)]
    simp only [hne, Bool.false_eq_true, if_false, readField_text h]
    simp [countLine, hcounts]

/-- A row of fields, in the head or behind the last chunk. -/
theorem decode_lines (lines : List FieldLine) (hplain : ∀ line ∈ lines, line.IsPlain)
    (hphase : r.phase = .headers ∨ r.phase = .trailers)
    (hfit : r.headBytes + (lines.flatMap FieldLine.bytes).length ≤ maxHeadBytes) (rest : Bytes) :
    r.decode (lines.flatMap FieldLine.bytes ++ rest) = (r.withLines lines).decode rest := by
  -- The reader is general, since it stands further on behind each field.
  induction lines generalizing r with
  | nil => simp [withLines]
  | cons line lines ih =>
    rw [List.flatMap_cons, List.length_append] at hfit
    obtain ⟨hline, hlines⟩ := List.forall_mem_cons.1 hplain
    have hstep := step_fieldLine hphase hline (by omega) (lines.flatMap FieldLine.bytes ++ rest)
    have hone : (r.withLines [line]).headBytes = r.headBytes + line.bytes.length := by simp
    have hbehind : (r.withLines [line]).phase = .headers ∨
        (r.withLines [line]).phase = .trailers := hphase
    rw [List.flatMap_cons, List.append_assoc, decode_of_again hstep,
      ih hlines hbehind (by rw [hone]; omega)]
    simp [withLines, Nat.add_assoc]

theorem isLine_empty : Bytes.IsLine (Bytes.ofString "") := .nil

theorem step_emptyLine_headers (hphase : r.phase = .headers)
    (hfit : r.headBytes + 2 ≤ maxHeadBytes) (rest : Bytes) :
    r.step (Bytes.crlf ++ rest) = { r with headBytes := r.headBytes + 2 }.startBody rest := by
  have hcounts : r.phase.countsLines = true := by rw [hphase]; rfl
  have hcount : r.countLine 2 = { r with headBytes := r.headBytes + 2 } := by
    simp [countLine, hcounts]
  rw [← hcount]
  simp only [step, hphase]
  exact withLine_of_line isLine_empty (fun _ => hfit) rest _

theorem step_emptyLine_trailers (hphase : r.phase = .trailers)
    (hfit : r.headBytes + 2 ≤ maxHeadBytes) (rest : Bytes) :
    r.step (Bytes.crlf ++ rest) = .answer (.ok (some r.response)) {} rest := by
  have hresponse : (r.countLine 2).response = r.response := by
    unfold countLine
    split <;> rfl
  simp only [step, hphase]
  rw [← hresponse]
  exact withLine_of_line isLine_empty (fun _ => hfit) rest _

/-! ### The head -/

def behindStatus (t : ResponseText) : ResponseReader :=
  { phase := .headers, status := t.status, reason := t.response.reason,
    headBytes := (Bytes.ofString t.statusText).length + 2 }

def behindHead (t : ResponseText) : ResponseReader :=
  { phase := .headers, status := t.status, reason := t.response.reason, headers := t.fields,
    headBytes := t.head.length }

@[simp] theorem headBytes_behindStatus (t : ResponseText) :
    (behindStatus t).headBytes = (Bytes.ofString t.statusText).length + 2 := rfl

theorem length_head (t : ResponseText) :
    t.head.length = (Bytes.ofString t.statusText).length + 2 +
      (t.lines.flatMap FieldLine.bytes).length + 2 := by
  simp only [ResponseText.head, List.length_append, Bytes.crlf, List.length_cons, List.length_nil]
  omega

theorem filter_trim (reason : String) :
    (if (Text.trimChars reason.toList).isEmpty then none
      else some (String.ofList (Text.trimChars reason.toList))) =
      ((some reason).map Text.trim).filter (· ≠ "") := by
  by_cases hempty : Text.trimChars reason.toList = []
  · simp [Text.trim, hempty, Option.filter]
  · simp [Text.trim, hempty, Option.filter]

theorem readStatusLine_statusText {t : ResponseText} (h : t.WellFormedHead) :
    readStatusLine t.statusText = .ok (t.status, t.response.reason) := by
  obtain ⟨hlow, hhigh⟩ := h.status_range
  obtain ⟨hhttp, hword⟩ := h.is_version
  have hblank : ' ' ∉ t.digits := h.status_spelled.not_mem (by decide)
  have hread : Text.numeral? 10 (Text.maxOfBits 16) t.digits = some t.status :=
    Text.numeral?_of_spells h.status_spelled (Nat.le_trans (Nat.le_of_lt hhigh) (by decide))
  have hversion : "HTTP/".toList.isPrefixOf t.version.toList = true :=
    List.isPrefixOf_iff_prefix.2 hhttp
  have hcut (after : List Char) :
      Text.splitFirst? ' ' (t.version.toList ++ ' ' :: after) = some (t.version.toList, after) :=
    Text.splitFirst?_eq_some_iff.2 ⟨rfl, hword⟩
  rcases hreason : t.reason with _ | reason
  · have hline : t.statusText.toList = t.version.toList ++ ' ' :: t.digits := by
      simp [ResponseText.statusText, hreason]
    have hnone : Text.splitFirst? ' ' t.digits = none := Text.splitFirst?_eq_none_iff.2 hblank
    simp only [readStatusLine, hline, hcut, hnone, Option.getD_some, Option.getD_none, hversion,
      hread, hlow, hhigh, Bool.not_true, Bool.false_eq_true, if_false, and_self, if_true,
      Text.trimChars_nil, List.isEmpty_nil, ResponseText.response, hreason, Option.map_none,
      Option.filter_none]
  · have hline : t.statusText.toList =
        t.version.toList ++ ' ' :: (t.digits ++ ' ' :: reason.toList) := by
      simp [ResponseText.statusText, hreason]
    have hsome : Text.splitFirst? ' ' (t.digits ++ ' ' :: reason.toList) =
        some (t.digits, reason.toList) :=
      Text.splitFirst?_eq_some_iff.2 ⟨rfl, hblank⟩
    simp only [readStatusLine, hline, hcut, hsome, Option.getD_some, hversion, hread, hlow, hhigh,
      Bool.not_true, Bool.false_eq_true, if_false, and_self, if_true, filter_trim,
      ResponseText.response, hreason]

theorem step_statusText {t : ResponseText} (h : t.WellFormedHead) (rest : Bytes) :
    ResponseReader.step {} (Bytes.ofString t.statusText ++ Bytes.crlf ++ rest) =
      .again (behindStatus t) rest := by
  have hne : t.statusText.isEmpty = false := by
    rw [← Bool.not_eq_true, String.isEmpty_iff]
    intro hempty
    simpa [ResponseText.statusText] using congrArg String.toList hempty
  have hfit : 0 + ((Bytes.ofString t.statusText).length + 2) ≤ maxHeadBytes := by
    have hhead := h.head_length
    rw [length_head] at hhead
    omega
  simp only [step]
  rw [withLine_of_line h.status_line (fun _ => hfit)]
  simp only [hne, Bool.false_eq_true, if_false, readStatusLine_statusText h]
  simp [countLine, Phase.countsLines, behindStatus]

/-- The head is read up to its last line, and then the status and the fields decide. -/
theorem decode_head {t : ResponseText} (h : t.WellFormedHead) (rest : Bytes) :
    ResponseReader.decode {} (t.head ++ rest) =
      ((behindStatus t).withLines t.lines).decode (Bytes.crlf ++ rest) ∧
    ((behindStatus t).withLines t.lines).step (Bytes.crlf ++ rest) =
      (behindHead t).startBody rest := by
  have hhead := h.head_length
  have hlength := length_head t
  constructor
  · have hfit : (behindStatus t).headBytes + (t.lines.flatMap FieldLine.bytes).length ≤
        maxHeadBytes := by
      rw [headBytes_behindStatus]
      omega
    rw [ResponseText.head, List.append_assoc, List.append_assoc (t.lines.flatMap FieldLine.bytes),
      decode_of_again (step_statusText h _), decode_lines t.lines h.lines_plain (.inl rfl) hfit]
  · have hbehind : behindHead t = { (behindStatus t).withLines t.lines with
        headBytes := ((behindStatus t).withLines t.lines).headBytes + 2 } := by
      simp [behindHead, behindStatus, withLines, hlength, ResponseText.fields]
    rw [hbehind]
    refine step_emptyLine_headers rfl ?_ rest
    rw [headBytes_withLines, headBytes_behindStatus]
    omega

/-! ### Bodies -/

@[simp] theorem response_addBody (r : ResponseReader) (taken : Bytes) :
    (r.addBody taken).response = { r.response with body := r.response.body ++ taken } := by
  simp [addBody, response]

theorem readChunkSize_sizeLine {n : Nat} {digits : List Char} {extension : String}
    (hspells : Text.Spells 16 n digits) (hextends : IsExtension extension)
    (hn : n ≤ maxBodyBytes) : readChunkSize (sizeLine digits extension) = some n := by
  have hread : Text.numeral? 16 (Text.maxOfBits 64) digits = some n :=
    Text.numeral?_of_spells hspells (Nat.le_trans hn (by decide))
  have hdigits : ∀ c ∈ digits, decide (c ≠ ';') = true := by
    have hnot : ';' ∉ digits := hspells.not_mem (by decide)
    simpa using fun c hc => ne_of_mem_of_not_mem hc hnot
  rw [readChunkSize, sizeLine, String.toList_append, String.toList_ofList]
  rcases hextends.1 with rfl | ⟨blanks, more, hmore, hblanks⟩
  · rw [String.toList_empty, List.takeWhile_append_of_pos hdigits, List.takeWhile_nil,
      List.append_nil, hspells.trimChars_eq, hread]
  · have hstop : ∀ c ∈ blanks, decide (c ≠ ';') = true := by
      intro c hc
      rcases hblanks c hc with rfl | rfl <;> decide
    have htrim : ∀ c ∈ blanks, Text.isBlank c = true := by
      intro c hc
      rcases hblanks c hc with rfl | rfl <;> decide
    rw [hmore, List.takeWhile_append_of_pos hdigits, List.takeWhile_append_of_pos hstop,
      List.takeWhile_cons_of_neg (by decide), List.append_nil, Text.trimChars_append htrim,
      hspells.trimChars_eq, hread]

theorem step_sizeLine {n : Nat} {digits : List Char} {extension : String}
    (hphase : r.phase = .chunkSize) (hspells : Text.Spells 16 n digits)
    (hextends : IsExtension extension) (hfit : r.body.size + n ≤ maxBodyBytes) (rest : Bytes) :
    r.step (Bytes.ofString (sizeLine digits extension) ++ Bytes.crlf ++ rest) =
      .again { r with phase := if n = 0 then .trailers else .chunkData n } rest := by
  have hcounts : r.phase.countsLines = false := by rw [hphase]; rfl
  have hread := readChunkSize_sizeLine hspells hextends (by omega)
  simp only [step, hphase]
  rw [withLine_of_line (isLine_sizeLine hspells hextends) (by simp [hcounts])]
  simp only [hread, countLine, hcounts, Bool.false_eq_true, if_false, if_neg (Nat.not_lt.2 hfit)]

theorem step_chunkData {data : Bytes} (hphase : r.phase = .chunkData data.length) (rest : Bytes) :
    r.step (data ++ rest) = .again { r.addBody data with phase := .chunkEnd } rest := by
  simp [step, hphase]

theorem decode_chunk (hphase : r.phase = .chunkSize) (chunk : Chunk)
    (hfit : r.body.size + chunk.data.length ≤ maxBodyBytes) (rest : Bytes) :
    r.decode (chunk.bytes ++ rest) = (r.addBody chunk.data).decode rest := by
  have hpos : chunk.data.length ≠ 0 := by simpa using chunk.data_ne_nil
  have hsize := step_sizeLine hphase chunk.spells chunk.extends_line hfit
    (chunk.data ++ (Bytes.crlf ++ rest))
  rw [if_neg hpos] at hsize
  have hdata := step_chunkData (r := { r with phase := .chunkData chunk.data.length }) rfl
    (Bytes.crlf ++ rest)
  have hend : ResponseReader.step
      { ResponseReader.addBody { r with phase := .chunkData chunk.data.length } chunk.data with
        phase := .chunkEnd } (Bytes.crlf ++ rest) = .again (r.addBody chunk.data) rest := by
    simp [step, Bytes.crlf, addBody, hphase]
  rw [Chunk.bytes, List.append_assoc, List.append_assoc, decode_of_again hsize,
    decode_of_again hdata, decode_of_again hend]

theorem decode_chunks (hphase : r.phase = .chunkSize) (chunks : List Chunk)
    (hfit : r.body.size + (chunks.flatMap Chunk.data).length ≤ maxBodyBytes) (rest : Bytes) :
    r.decode (chunks.flatMap Chunk.bytes ++ rest) =
      (r.addBody (chunks.flatMap Chunk.data)).decode rest := by
  induction chunks generalizing r with
  | nil => simp
  | cons chunk chunks ih =>
    rw [List.flatMap_cons, List.length_append] at hfit
    have hbehind : (r.addBody chunk.data).phase = .chunkSize := hphase
    rw [List.flatMap_cons, List.append_assoc, decode_chunk hphase chunk (by omega),
      ih hbehind (by rw [size_addBody]; omega), addBody_append, List.flatMap_cons]

/-- The chunks, the trailers and the empty line behind them. -/
theorem decode_chunkedText (text : ChunkedText) (hphase : r.phase = .chunkSize)
    (hbody : r.body.size + text.body.length ≤ maxBodyBytes)
    (hhead : r.headBytes + text.trailerLines.length ≤ maxHeadBytes) (following : Bytes) :
    r.decode (text.bytes ++ following) =
      { result := .ok (some { r.response with
          headers := r.response.headers ++ text.trailers.map FieldLine.field
          body := r.response.body ++ text.body })
        reader := {}
        rest := following } := by
  have hlines : text.trailerLines.length =
      (text.trailers.flatMap FieldLine.bytes).length + 2 := by
    simp [ChunkedText.trailerLines, Bytes.crlf]
  have hlast := step_sizeLine (r := r.addBody text.body) hphase text.last_spells
    text.last_extends_line (by rw [size_addBody]; exact hbody)
    (text.trailers.flatMap FieldLine.bytes ++ (Bytes.crlf ++ following))
  rw [if_pos rfl] at hlast
  have htrailers := decode_lines (r := { r.addBody text.body with phase := .trailers })
    text.trailers text.trailers_plain (.inr rfl)
    (show r.headBytes + (text.trailers.flatMap FieldLine.bytes).length ≤ maxHeadBytes by omega)
    (Bytes.crlf ++ following)
  have hempty := step_emptyLine_trailers
    (r := { r.addBody text.body with phase := .trailers }.withLines text.trailers) rfl
    (show r.headBytes + (text.trailers.flatMap FieldLine.bytes).length + 2 ≤ maxHeadBytes by omega)
    following
  have hchunks := decode_chunks hphase text.chunks hbody
    (Bytes.ofString (sizeLine text.lastDigits text.lastExtension) ++ Bytes.crlf ++
      (text.trailers.flatMap FieldLine.bytes ++ (Bytes.crlf ++ following)))
  have hbytes : text.bytes ++ following = text.chunks.flatMap Chunk.bytes ++
      (Bytes.ofString (sizeLine text.lastDigits text.lastExtension) ++ Bytes.crlf ++
        (text.trailers.flatMap FieldLine.bytes ++ (Bytes.crlf ++ following))) := by
    simp [ChunkedText.bytes, ChunkedText.trailerLines]
  rw [hbytes, hchunks, ← ChunkedText.body, decode_of_again hlast, htrailers,
    decode_of_answer hempty]
  simp [withLines, addBody, response]

theorem step_ofLength {body : Bytes} (hphase : r.phase = .body body.length)
    (hempty : r.body = .empty) (following : Bytes) :
    r.step (body ++ following) =
      .answer (.ok (some { r.response with body := body })) {} following := by
  have htake : (body ++ following).splitAt (body.length - r.body.size) = (body, following) := by
    simp [hempty]
  have hsize : (r.addBody body).body.size = body.length := by simp [hempty]
  have hbefore : r.response.body = [] := by simp [response, hempty]
  simp only [step, hphase, htake, hsize, if_true, finish, response_addBody, hbefore,
    List.nil_append]

theorem step_untilClose {body : Bytes} (hphase : r.phase = .untilClose)
    (hfit : r.body.size + body.length ≤ maxBodyBytes) :
    r.step body = .answer (.ok none) (r.addBody body) [] := by
  simp only [step, hphase, if_neg (Nat.not_lt.2 hfit)]

/-! ### The response -/

theorem isBodiless_eq_false {t : ResponseText} (h : t.WellFormed) (hbody : t.body ≠ .bodiless) :
    isBodiless (behindHead t).status = false :=
  eq_false_of_ne_true fun hstatus => hbody (h.bodiless_iff.1 hstatus)

theorem response_eq (t : ResponseText) :
    t.response = { (behindHead t).response with
      headers := (behindHead t).response.headers ++ t.body.trailers.map FieldLine.field
      body := t.body.body } := rfl

theorem decode_bodiless {t : ResponseText} (h : t.WellFormed) (hform : t.body = .bodiless)
    (following : Bytes) :
    ResponseReader.decode {} (t.bytes ++ following) =
      { result := .ok (some t.response), reader := {}, rest := following } := by
  have hstatus : isBodiless (behindHead t).status = true := h.bodiless_iff.2 hform
  have hstart : (behindHead t).startBody following =
      .answer (.ok (some (behindHead t).response)) {} following := by
    rw [startBody, if_pos hstatus, finish]
  have hbytes : t.bytes = t.head := by
    simp [ResponseText.bytes, hform, BodyText.bytes]
  obtain ⟨hdecode, hstep⟩ := decode_head h.wellFormedHead following
  rw [hbytes, hdecode, decode_of_answer (hstep.trans hstart), response_eq, hform]
  simp [BodyText.trailers, BodyText.body, response, behindHead]

theorem decode_sized {t : ResponseText} (h : t.WellFormed) {body : Bytes}
    (hform : t.body = .sized body) (following : Bytes) :
    ResponseReader.decode {} (t.bytes ++ following) =
      { result := .ok (some t.response), reader := {}, rest := following } := by
  have hbodied : t.body ≠ .bodiless := by simp [hform]
  have hframed := h.framed
  have hfit := h.body_length
  simp only [hform, BodyText.FramedBy, BodyText.body] at hframed hfit
  obtain ⟨hcoding, hhas, hspells⟩ := hframed
  have hchunked : isChunked (behindHead t).headers = false := isChunked_of_not_has hcoding
  have hlength : statedLength (behindHead t).headers = .ok (some body.length) :=
    statedLength_of_values hhas hspells hfit
  have hbytes : t.bytes ++ following = t.head ++ (body ++ following) := by
    simp [ResponseText.bytes, hform, BodyText.bytes]
  obtain ⟨hdecode, hstep⟩ := decode_head h.wellFormedHead (body ++ following)
  rw [startBody, isBodiless_eq_false h hbodied, hchunked, hlength] at hstep
  rw [hbytes, hdecode, response_eq, hform]
  by_cases hempty : body.length = 0
  · obtain rfl := List.length_eq_zero_iff.1 hempty
    rw [decode_of_answer hstep]
    simp [BodyText.trailers, BodyText.body, response, behindHead]
  · have hbody := step_ofLength
      (r := { behindHead t with phase := .body body.length }) rfl rfl following
    have hstart : ((behindStatus t).withLines t.lines).step (Bytes.crlf ++ (body ++ following)) =
        .again { behindHead t with phase := .body body.length } (body ++ following) := by
      rw [hstep]
      simp [Nat.not_lt.2 hfit]
    rw [decode_of_again hstart, decode_of_answer hbody]
    simp [BodyText.trailers, BodyText.body, response, behindHead]

theorem decode_chunked {t : ResponseText} (h : t.WellFormed) {text : ChunkedText}
    (hform : t.body = .chunked text) (following : Bytes) :
    ResponseReader.decode {} (t.bytes ++ following) =
      { result := .ok (some t.response), reader := {}, rest := following } := by
  have hbodied : t.body ≠ .bodiless := by simp [hform]
  have hframed := h.framed
  have hhead := h.head_length
  have hbody := h.body_length
  simp only [hform, BodyText.FramedBy, BodyText.body, BodyText.trailerLines] at hframed hhead hbody
  have hchunked : isChunked (behindHead t).headers = true := isChunked_of_endChunked hframed
  have hbytes : t.bytes ++ following = t.head ++ (text.bytes ++ following) := by
    simp [ResponseText.bytes, hform, BodyText.bytes]
  obtain ⟨hdecode, hstep⟩ := decode_head h.wellFormedHead (text.bytes ++ following)
  rw [startBody, isBodiless_eq_false h hbodied, hchunked] at hstep
  have hchunks := decode_chunkedText (r := { behindHead t with phase := .chunkSize }) text rfl
    (show 0 + text.body.length ≤ maxBodyBytes by omega) hhead following
  rw [hbytes, hdecode, decode_of_again hstep, response_eq, hform]
  exact hchunks.trans rfl

/-- **A delimited response is read as what it says**, and the bytes behind it are left. -/
theorem decode_text {t : ResponseText} (h : t.WellFormed) (hdelimited : t.body.IsDelimited)
    (following : Bytes) :
    ResponseReader.decode {} (t.bytes ++ following) =
      { result := .ok (some t.response), reader := {}, rest := following } := by
  cases hform : t.body with
  | bodiless => exact decode_bodiless h hform following
  | sized body => exact decode_sized h hform following
  | chunked text => exact decode_chunked h hform following
  | untilClose body =>
    rw [hform] at hdelimited
    exact hdelimited.elim

/-- **A response that ends with its connection** is read when the connection has ended. -/
theorem decodeEnd_text {t : ResponseText} (h : t.WellFormed) {body : Bytes}
    (hform : t.body = .untilClose body) :
    ResponseReader.decodeEnd {} t.bytes =
      { result := .ok (some t.response), reader := {}, rest := [] } := by
  have hbodied : t.body ≠ .bodiless := by simp [hform]
  have hframed := h.framed
  have hfit := h.body_length
  simp only [hform, BodyText.FramedBy, BodyText.body] at hframed hfit
  have hchunked : isChunked (behindHead t).headers = false := isChunked_of_not_has hframed.1
  have hlength : statedLength (behindHead t).headers = .ok none := statedLength_of_not_has hframed.2
  have hbytes : t.bytes = t.head ++ body := by
    simp [ResponseText.bytes, hform, BodyText.bytes]
  obtain ⟨hdecode, hstep⟩ := decode_head h.wellFormedHead body
  rw [startBody, isBodiless_eq_false h hbodied, hchunked, hlength] at hstep
  have hclose := step_untilClose (r := { behindHead t with phase := .untilClose })
    rfl (show 0 + body.length ≤ maxBodyBytes by omega)
  rw [decodeEnd, hbytes, hdecode, decode_of_again hstep, decode_of_answer hclose, response_eq,
    hform]
  simp [BodyText.trailers, BodyText.body, response, behindHead, addBody]

end ResponseReader

end WebClient.Http
