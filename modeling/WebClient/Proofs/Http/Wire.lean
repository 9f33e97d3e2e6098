import WebClient.Http.Request.Writer
import WebClient.Http.Response.Reader
import WebClient.Proofs.Bytes
import WebClient.Proofs.Text.Numeral
import WebClient.Proofs.Text.Utf8

/-!
# Fields and chunks on the wire

The parts of a message that requests and responses share, as any sender may write them. A field
stands on its line with a colon and a blank between its name and its value. A chunked body is a row
of chunks, each led by its size, which may be spelled in any way and have an extension behind it,
and ends with the size zero and trailers. A client's own chunked bodies are of this form
(`exists_chunkedForm_encode`).
-/

namespace WebClient.Http

open Request (fieldLine)

/-! ### Fields -/

/-- The line of the field shows where the name and the value begin and end. -/
structure Field.IsPlain (field : Field) : Prop where
  name_trimmed : Text.trim field.name = field.name
  value_trimmed : Text.trim field.value = field.value
  no_colon : ':' ∉ field.name.toList
  name_line : Bytes.IsLine (Bytes.ofString field.name)
  value_line : Bytes.IsLine (Bytes.ofString field.value)

theorem fieldLine_eq (field : Field) :
    fieldLine field = Bytes.ofString (field.name ++ ": " ++ field.value) ++ Bytes.crlf := by
  simp [fieldLine]

theorem Field.IsPlain.isLine {field : Field} (h : field.IsPlain) :
    Bytes.IsLine (Bytes.ofString (field.name ++ ": " ++ field.value)) := by
  have hcolon : Bytes.ofString ": " = [58, 32] := rfl
  have hbetween : Bytes.IsLine [58, 32] := Bytes.isLine_of_not_mem (by decide)
  rw [Bytes.ofString_append, Bytes.ofString_append, hcolon]
  refine (h.name_line.append hbetween (.inr (by decide))).append h.value_line (.inl ?_)
  simp

/-! ### Chunks -/

/-- What may stand behind the size of a chunk: nothing, or a semicolon and what it leads, perhaps
with blanks in front. -/
def IsExtension (text : String) : Prop :=
  (text = "" ∨ ∃ blanks more, text.toList = blanks ++ ';' :: more ∧
    ∀ c ∈ blanks, c = ' ' ∨ c = '\t') ∧
  Bytes.IsLine (Bytes.ofString text)

def sizeLine (digits : List Char) (extension : String) : String :=
  String.ofList digits ++ extension

theorem not_mem_of_spells {base n : Nat} {digits : List Char} (h : Text.Spells base n digits) :
    13 ∉ Bytes.ofString (String.ofList digits) := by
  rw [Bytes.ofString_ofList_of_ascii h.toNat_lt]
  intro hmem
  obtain ⟨c, hc, hbyte⟩ := List.mem_map.1 hmem
  obtain ⟨d, hd⟩ := h.exists_digitValue? c hc
  have hrange := Text.digitValue?_range hd
  have hvalue : c.toNat % 256 = 13 := by simpa using congrArg UInt8.toNat hbyte
  omega

theorem isLine_sizeLine {n : Nat} {digits : List Char} {extension : String}
    (h : Text.Spells 16 n digits) (hextends : IsExtension extension) :
    Bytes.IsLine (Bytes.ofString (sizeLine digits extension)) := by
  rw [sizeLine, Bytes.ofString_append]
  exact .append_of_not_mem (not_mem_of_spells h) hextends.2

structure Chunk where
  digits : List Char
  extension : String
  data : Bytes
  spells : Text.Spells 16 data.length digits
  extends_line : IsExtension extension
  data_ne_nil : data ≠ []

def Chunk.bytes (chunk : Chunk) : Bytes :=
  Bytes.ofString (sizeLine chunk.digits chunk.extension) ++ Bytes.crlf ++ chunk.data ++ Bytes.crlf

/-- A chunked body, from the first chunk to the empty line behind the trailers. -/
structure ChunkedForm where
  chunks : List Chunk
  lastDigits : List Char
  lastExtension : String
  trailers : Headers
  last_spells : Text.Spells 16 0 lastDigits
  last_extends_line : IsExtension lastExtension
  trailers_plain : ∀ field ∈ trailers, field.IsPlain

namespace ChunkedForm

def body (form : ChunkedForm) : Bytes :=
  form.chunks.flatMap Chunk.data

/-- The lines of the trailers with the empty line behind them. -/
def trailerLines (form : ChunkedForm) : Bytes :=
  form.trailers.flatMap fieldLine ++ Bytes.crlf

def bytes (form : ChunkedForm) : Bytes :=
  form.chunks.flatMap Chunk.bytes ++
    (Bytes.ofString (sizeLine form.lastDigits form.lastExtension) ++ Bytes.crlf ++
      form.trailerLines)

end ChunkedForm

theorem spells_zero : Text.Spells 16 0 ['0'] := .digit rfl

theorem isExtension_empty : IsExtension "" :=
  ⟨.inl rfl, .nil⟩

/-- The form of a body that the client writes in chunks: one chunk with all of it, if it is not
empty. -/
def ChunkedForm.ofBody (body : Bytes) : ChunkedForm where
  chunks := if h : body = [] then [] else
    [⟨Text.hexadecimal body.length, "", body, Text.spells_hexadecimal _, isExtension_empty, h⟩]
  lastDigits := ['0']
  lastExtension := ""
  trailers := []
  last_spells := spells_zero
  last_extends_line := isExtension_empty
  trailers_plain := by simp

theorem ChunkedForm.body_ofBody (body : Bytes) : (ofBody body).body = body := by
  by_cases hbody : body = []
  · simp [ChunkedForm.body, ofBody, hbody]
  · simp [ChunkedForm.body, ofBody, hbody]

theorem ChunkedForm.bytes_ofBody (body : Bytes) : (ofBody body).bytes = Chunked.encode body := by
  by_cases hbody : body = []
  · rw [hbody]
    rfl
  · simp [ChunkedForm.bytes, ofBody, ChunkedForm.trailerLines, Chunk.bytes, sizeLine,
      Chunked.encode, Chunked.chunk, Chunked.lastChunk, hbody]

/-- A chunked body that the client writes has the form of one. -/
theorem exists_chunkedForm_encode (body : Bytes) :
    ∃ form : ChunkedForm, form.body = body ∧ form.bytes = Chunked.encode body :=
  ⟨.ofBody body, ChunkedForm.body_ofBody body, ChunkedForm.bytes_ofBody body⟩

end WebClient.Http
