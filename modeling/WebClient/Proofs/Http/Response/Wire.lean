import WebClient.Proofs.Http.Response.Grammar

/-!
# Responses read back

A server writes a response as a status line, fields, an empty line and, if the status has room for
one, a body, which is delimited by its stated length, by chunks or by the end of the connection.
Whichever of these it is, and however the numbers are spelled and the body is cut into chunks, a
reader that starts afresh gives the response back (`read_back`), because what the server writes has
the form of a response (`ServerResponse.wellFormed_text`).
-/

namespace WebClient.Http

open Request (fieldLine)

/-- How the body of a response is framed, and what follows the head for it. -/
inductive BodyForm where
  | bodiless
  | ofLength (body : Bytes) (digits : List Char) (spells : Text.Spells 10 body.length digits)
  | inChunks (form : ChunkedForm)
  | untilClose (body : Bytes)

namespace BodyForm

def body : BodyForm → Bytes
  | bodiless => []
  | ofLength body _ _ => body
  | inChunks form => form.body
  | untilClose body => body

def framing : BodyForm → Headers
  | ofLength _ digits _ => [⟨"Content-Length", String.ofList digits⟩]
  | inChunks _ => [⟨"Transfer-Encoding", "chunked"⟩]
  | bodiless | untilClose _ => []

def trailers : BodyForm → Headers
  | inChunks form => form.trailers
  | _ => []

/-- The lines behind the body that count towards the size of the head. -/
def trailerLines : BodyForm → Bytes
  | inChunks form => form.trailerLines
  | _ => []

def bytes : BodyForm → Bytes
  | bodiless => []
  | ofLength body _ _ => body
  | inChunks form => form.bytes
  | untilClose body => body

/-- The bytes themselves show where the response ends. -/
def IsDelimited : BodyForm → Prop
  | untilClose _ => False
  | _ => True

end BodyForm

/-- A response as a server writes it. The field that states the framing may stand anywhere among the
others. -/
structure ServerResponse where
  status : Nat
  reason : Option String
  before : Headers
  behind : Headers
  form : BodyForm

namespace ServerResponse

def fields (s : ServerResponse) : Headers :=
  s.before ++ s.form.framing ++ s.behind

def statusLine (s : ServerResponse) : String :=
  "HTTP/1.1 " ++ String.ofList (Text.decimal s.status) ++
    match s.reason with
    | some reason => " " ++ reason
    | none => ""

def head (s : ServerResponse) : Bytes :=
  Bytes.ofString s.statusLine ++ Bytes.crlf ++ (s.fields.flatMap fieldLine ++ Bytes.crlf)

def bytes (s : ServerResponse) : Bytes :=
  s.head ++ s.form.bytes

def response (s : ServerResponse) : Response where
  status := s.status
  reason := s.reason
  headers := s.fields ++ s.form.trailers
  body := s.form.body

/-- The response keeps to the form and to the sizes that a client reads. -/
structure WellFormed (s : ServerResponse) : Prop where
  status_range : 100 ≤ s.status ∧ s.status < 1000
  reason_line : ∀ reason ∈ s.reason,
    reason ≠ "" ∧ Text.trim reason = reason ∧ Bytes.IsLine (Bytes.ofString reason)
  fields_plain : ∀ field ∈ s.before ++ s.behind, field.IsPlain
  bodiless_iff : ResponseReader.isBodiless s.status = true ↔ s.form = .bodiless
  not_framed : s.form ≠ .bodiless →
    Headers.has (s.before ++ s.behind) "Content-Length" = false ∧
      Headers.has (s.before ++ s.behind) "Transfer-Encoding" = false
  head_length : s.head.length + s.form.trailerLines.length ≤ ResponseReader.maxHeadBytes
  body_length : s.form.body.length ≤ ResponseReader.maxBodyBytes

end ServerResponse

/-! ### The form of what is written -/

theorem Field.IsPlain.isPlain_line {field : Field} (h : field.IsPlain) : field.line.IsPlain where
  no_colon := h.no_colon
  is_line := by
    rw [Field.text_line]
    exact h.isLine

theorem Field.IsPlain.trimmed_eq {field : Field} (h : field.IsPlain) : field.trimmed = field := by
  rw [Field.trimmed, h.name_trimmed, h.value_trimmed]

theorem Field.IsPlain.field_line {field : Field} (h : field.IsPlain) :
    field.line.field = field := by
  rw [Field.field_line, h.trimmed_eq]

theorem map_field_line {fields : Headers} (h : ∀ field ∈ fields, field.IsPlain) :
    (fields.map Field.line).map FieldLine.field = fields := by
  rw [List.map_map]
  conv_rhs => rw [← List.map_id fields]
  exact List.map_congr_left fun field hmem => (h field hmem).field_line

theorem isPlain_of_mem_map_line {fields : Headers} (h : ∀ field ∈ fields, field.IsPlain) :
    ∀ line ∈ fields.map Field.line, line.IsPlain := by
  intro line hmem
  obtain ⟨field, hfield, rfl⟩ := List.mem_map.1 hmem
  exact (h field hfield).isPlain_line

def ChunkedForm.text (form : ChunkedForm) : ChunkedText where
  chunks := form.chunks
  lastDigits := form.lastDigits
  lastExtension := form.lastExtension
  trailers := form.trailers.map Field.line
  last_spells := form.last_spells
  last_extends_line := form.last_extends_line
  trailers_plain := isPlain_of_mem_map_line form.trailers_plain

theorem ChunkedForm.trailerLines_text (form : ChunkedForm) :
    form.text.trailerLines = form.trailerLines := by
  rw [ChunkedText.trailerLines, text, flatMap_bytes_line, trailerLines]

namespace BodyForm

def text : BodyForm → BodyText
  | bodiless => .bodiless
  | ofLength body _ _ => .sized body
  | inChunks form => .chunked form.text
  | untilClose body => .untilClose body

theorem body_text (form : BodyForm) : form.text.body = form.body := by
  cases form <;> rfl

theorem trailerLines_text (form : BodyForm) : form.text.trailerLines = form.trailerLines := by
  cases form with
  | inChunks form => exact form.trailerLines_text
  | _ => rfl

theorem bytes_text (form : BodyForm) : form.text.bytes = form.bytes := by
  cases form with
  | inChunks form =>
    simp only [text, BodyText.bytes, ChunkedText.bytes, bytes, ChunkedForm.bytes,
      form.trailerLines_text]
    rfl
  | _ => rfl

theorem map_trailers_text (form : BodyForm) :
    form.text.trailers.map FieldLine.field = form.trailers := by
  cases form with
  | inChunks form => exact map_field_line form.trailers_plain
  | _ => rfl

theorem isDelimited_text (form : BodyForm) : form.text.IsDelimited ↔ form.IsDelimited := by
  cases form <;> rfl

end BodyForm

theorem isPlain_of_length {n : Nat} {digits : List Char} (h : Text.Spells 10 n digits) :
    Field.IsPlain ⟨"Content-Length", String.ofList digits⟩ := by
  have htrimmed : Text.trim "Content-Length" = "Content-Length" := by decide +kernel
  have hcolon : ':' ∉ "Content-Length".toList := by decide +kernel
  have hline : 13 ∉ Bytes.ofString "Content-Length" := by decide +kernel
  exact ⟨htrimmed, by simp [Text.trim, h.trimChars_eq], hcolon, Bytes.isLine_of_not_mem hline,
    Bytes.isLine_of_not_mem (not_mem_of_spells h)⟩

theorem isPlain_chunked : Field.IsPlain ⟨"Transfer-Encoding", "chunked"⟩ where
  name_trimmed := by decide +kernel
  value_trimmed := by decide +kernel
  no_colon := by decide +kernel
  name_line := Bytes.isLine_of_not_mem (by decide +kernel)
  value_line := Bytes.isLine_of_not_mem (by decide +kernel)

theorem isPlain_of_mem_framing {form : BodyForm} : ∀ field ∈ form.framing, field.IsPlain := by
  intro field hmem
  cases form with
  | bodiless => simp [BodyForm.framing] at hmem
  | ofLength body digits spells =>
    rw [List.mem_singleton.1 hmem]
    exact isPlain_of_length spells
  | inChunks form =>
    rw [List.mem_singleton.1 hmem]
    exact isPlain_chunked
  | untilClose body => simp [BodyForm.framing] at hmem

theorem isPlain_of_mem_fields {s : ServerResponse} (h : s.WellFormed) :
    ∀ field ∈ s.fields, field.IsPlain := by
  intro field hmem
  rcases List.mem_append.1 hmem with hmem | hmem
  · rcases List.mem_append.1 hmem with hmem | hmem
    · exact h.fields_plain field (List.mem_append_left _ hmem)
    · exact isPlain_of_mem_framing field hmem
  · exact h.fields_plain field (List.mem_append_right _ hmem)

namespace ServerResponse

def text (s : ServerResponse) : ResponseText where
  version := "HTTP/1.1"
  digits := Text.decimal s.status
  status := s.status
  reason := s.reason
  lines := s.fields.map Field.line
  body := s.form.text

theorem statusText_text (s : ServerResponse) : s.text.statusText = s.statusLine := rfl

theorem head_text (s : ServerResponse) : s.text.head = s.head := by
  rw [ResponseText.head, statusText_text, text, flatMap_bytes_line, head]

theorem bytes_text (s : ServerResponse) : s.text.bytes = s.bytes := by
  rw [ResponseText.bytes, head_text, bytes, ← s.form.bytes_text]
  rfl

theorem fields_text {s : ServerResponse} (h : s.WellFormed) : s.text.fields = s.fields :=
  map_field_line (isPlain_of_mem_fields h)

theorem response_text {s : ServerResponse} (h : s.WellFormed) : s.text.response = s.response := by
  have hreason : (s.reason.map Text.trim).filter (· ≠ "") = s.reason := by
    cases hreason : s.reason with
    | none => rfl
    | some reason =>
      obtain ⟨hne, htrim, -⟩ := h.reason_line reason hreason
      simp [htrim, hne]
  have htrailers := s.form.map_trailers_text
  have hbody := s.form.body_text
  rw [ResponseText.response, fields_text h]
  simp only [text, hreason, htrailers, hbody, response]

theorem isLine_statusLine {s : ServerResponse} (h : s.WellFormed) :
    Bytes.IsLine (Bytes.ofString s.statusLine) := by
  have hversion : 13 ∉ Bytes.ofString "HTTP/1.1 " := by decide +kernel
  have hstatus := not_mem_of_spells (Text.spells_decimal s.status)
  rw [ServerResponse.statusLine, Bytes.ofString_append, Bytes.ofString_append]
  refine .append_of_not_mem (by simp [hversion, hstatus]) ?_
  cases hreason : s.reason with
  | none => exact .nil
  | some reason =>
    have hblank : 13 ∉ Bytes.ofString " " := by decide +kernel
    rw [Bytes.ofString_append]
    exact .append_of_not_mem hblank (h.reason_line reason hreason).2.2

theorem has_fields {s : ServerResponse} {name : String}
    (h : Headers.has (s.before ++ s.behind) name = false) :
    s.fields.has name = s.form.framing.has name := by
  rw [Headers.has_append, Bool.or_eq_false_iff] at h
  rw [fields, Headers.has_append, Headers.has_append, h.1, h.2, Bool.false_or, Bool.or_false]

theorem values_fields {s : ServerResponse} {name : String}
    (h : Headers.has (s.before ++ s.behind) name = false) :
    s.fields.values name = s.form.framing.values name := by
  rw [Headers.has_append, Bool.or_eq_false_iff] at h
  rw [fields, Headers.values_append, Headers.values_append, Headers.values_eq_nil h.1,
    Headers.values_eq_nil h.2, List.nil_append, List.append_nil]

theorem framedBy_text {s : ServerResponse} (h : s.WellFormed) :
    s.form.text.FramedBy s.fields := by
  by_cases hbody : s.form = .bodiless
  · rw [hbody]
    trivial
  · obtain ⟨hlength, hcoding⟩ := h.not_framed hbody
    have hlengths := has_fields hlength
    have hcodings := has_fields hcoding
    have hlengthValues := values_fields hlength
    have hcodingValues := values_fields hcoding
    cases hform : s.form with
    | bodiless => exact absurd hform hbody
    | ofLength body digits spells =>
      rw [hform, BodyForm.framing] at hlengths hcodings hlengthValues
      rw [Headers.has_singleton] at hlengths hcodings
      rw [Headers.values_singleton] at hlengthValues
      refine ⟨hcodings.trans (not_isNamed_of_length _), hlengths.trans (isNamed_self _ _), ?_⟩
      rw [hlengthValues]
      simpa [spells.trimChars_eq] using spells
    | inChunks form =>
      rw [hform, BodyForm.framing, Headers.values_singleton] at hcodingValues
      refine ⟨"chunked", ?_, Text.eqIgnoringCase_refl _⟩
      rw [Headers.codings, Headers.elements, hcodingValues]
      decide +kernel
    | untilClose body =>
      rw [hform] at hlengths hcodings
      exact ⟨hcodings, hlengths⟩

/-- What a server writes has the form of a response. -/
theorem wellFormed_text {s : ServerResponse} (h : s.WellFormed) : s.text.WellFormed where
  is_version := ResponseText.isVersion_http11
  status_spelled := Text.spells_decimal s.status
  status_range := h.status_range
  status_line := isLine_statusLine h
  lines_plain := isPlain_of_mem_map_line (isPlain_of_mem_fields h)
  bodiless_iff := by
    rw [show s.text.status = s.status from rfl, h.bodiless_iff, text]
    cases s.form <;> simp [BodyForm.text]
  framed := by
    rw [fields_text h]
    exact framedBy_text h
  head_length := by
    rw [head_text, text, BodyForm.trailerLines_text]
    exact h.head_length
  body_length := by
    rw [text, BodyForm.body_text]
    exact h.body_length

end ServerResponse

namespace ResponseReader

/-- **A response of any form is read back**, with its trailers behind its other fields, and the
reader stands behind it as it stood in front: at once where the response is delimited, whatever
follows it, and else at the end of the connection. -/
theorem read_back {s : ServerResponse} (h : s.WellFormed) :
    (s.form.IsDelimited → ∀ following,
      ResponseReader.decode {} (s.bytes ++ following) =
        { result := .ok (some s.response), reader := {}, rest := following }) ∧
    (¬ s.form.IsDelimited →
      ResponseReader.decodeEnd {} s.bytes =
        { result := .ok (some s.response), reader := {}, rest := [] }) := by
  have htext := s.wellFormed_text h
  rw [← s.response_text h, ← s.bytes_text, ← s.form.isDelimited_text]
  refine ⟨decode_text htext, fun hopen => ?_⟩
  cases hform : s.form.text with
  | untilClose body => exact decodeEnd_text htext hform
  | _ =>
    rw [hform] at hopen
    exact absurd trivial hopen

/-- A chunk with an extension, and a zero in front of its size. -/
def hiChunk : Chunk where
  digits := ['0', '2']
  extension := " ;a=b"
  data := [104, 105]
  spells := spells_zero.snoc (c := '2') (d := 2) rfl
  extends_line :=
    ⟨.inr ⟨[' '], "a=b".toList, by decide, by simp⟩, Bytes.isLine_of_not_mem (by decide +kernel)⟩
  data_ne_nil := by simp

def hiInChunks : ChunkedForm where
  chunks := [hiChunk]
  lastDigits := ['0']
  lastExtension := ""
  trailers := [⟨"Digest", "d"⟩]
  last_spells := spells_zero
  last_extends_line := isExtension_empty
  trailers_plain := by
    intro field hfield
    rw [List.mem_singleton.1 hfield]
    exact ⟨by decide +kernel, by decide +kernel, by decide +kernel,
      Bytes.isLine_of_not_mem (by decide +kernel), Bytes.isLine_of_not_mem (by decide +kernel)⟩

def okInChunks : ServerResponse where
  status := 200
  reason := some "OK"
  before := [⟨"Server", "x"⟩]
  behind := []
  form := .inChunks hiInChunks

theorem wellFormed_okInChunks : okInChunks.WellFormed where
  status_range := by decide
  reason_line := by
    intro reason hreason
    obtain rfl : "OK" = reason := Option.some_inj.1 hreason
    exact ⟨by decide +kernel, by decide +kernel, Bytes.isLine_of_not_mem (by decide +kernel)⟩
  fields_plain := by
    intro field hfield
    rw [List.mem_singleton.1 hfield]
    exact ⟨by decide +kernel, by decide +kernel, by decide +kernel,
      Bytes.isLine_of_not_mem (by decide +kernel), Bytes.isLine_of_not_mem (by decide +kernel)⟩
  bodiless_iff := by simp [okInChunks, isBodiless]
  not_framed := fun _ => ⟨by decide +kernel, by decide +kernel⟩
  head_length := by decide +kernel
  body_length := by decide +kernel

theorem read_back_okInChunks :
    ResponseReader.decode {}
        (Bytes.ofString "HTTP/1.1 200 OK\r\nServer: x\r\nTransfer-Encoding: chunked\r\n\r\n" ++
          Bytes.ofString "02 ;a=b\r\nhi\r\n0\r\nDigest: d\r\n\r\n" ++ Bytes.ofString "HTTP") =
      { result := .ok (some
          { status := 200
            reason := some "OK"
            headers := [⟨"Server", "x"⟩, ⟨"Transfer-Encoding", "chunked"⟩, ⟨"Digest", "d"⟩]
            body := [104, 105] })
        reader := {}
        rest := Bytes.ofString "HTTP" } := by
  have hbytes : okInChunks.bytes =
      Bytes.ofString "HTTP/1.1 200 OK\r\nServer: x\r\nTransfer-Encoding: chunked\r\n\r\n" ++
        Bytes.ofString "02 ;a=b\r\nhi\r\n0\r\nDigest: d\r\n\r\n" := by
    decide +kernel
  rw [← hbytes]
  exact (read_back wellFormed_okInChunks).1 trivial (Bytes.ofString "HTTP")

end ResponseReader

end WebClient.Http
