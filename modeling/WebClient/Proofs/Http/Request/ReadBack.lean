import WebClient.Proofs.Http.Request.Head
import WebClient.Proofs.Http.Response.Wire

/-!
# Requests read back

The writer of requests and the reader of responses share the syntax of fields, lengths and chunks.
With a status line in the place of its request line, a written request has the form of a response
(`wellFormed_answerText`), so the reader gives back its fields, with the one that states the framing
behind them, and its body (`encode_read_back`). Fields of the caller come back without the blanks
around them; so that none of them states a framing of its own, none may have the name of one when
read like this.
-/

namespace WebClient

namespace Bytes

/-- The bytes with another text on their first line. -/
def withFirstLine (text : String) (bs : Bytes) : Bytes :=
  match bs.splitLine? with
  | none => bs
  | some (_, after) => ofString text ++ crlf ++ after

theorem withFirstLine_line {line : Bytes} (h : IsLine line) (text : String) (after : Bytes) :
    withFirstLine text (line ++ crlf ++ after) = ofString text ++ crlf ++ after := by
  simp only [withFirstLine, splitLine?_of_isLine h]

end Bytes

namespace Text

def isTokenChar (c : Char) : Bool :=
  c.isAlphanum || "!#$%&'*+-.^_`|~".toList.contains c

def IsToken (s : String) : Prop :=
  s ≠ "" ∧ ∀ c ∈ s.toList, isTokenChar c = true

theorem toLower_of_isBlank {c : Char} (h : isBlank c = true) : c.toLower = c := by
  have hother : ¬ (65 ≤ c.val.toNat ∧ c.val.toNat ≤ 90) := by
    simp only [isBlank, Bool.or_eq_true, Bool.and_eq_true, decide_eq_true_eq, beq_iff_eq,
      UInt32.le_iff_toNat_le, ← UInt32.toNat_inj, UInt32.reduceToNat] at h
    omega
  refine dif_neg fun hupper => hother ?_
  exact ⟨UInt32.le_iff_toNat_le.1 hupper.1, UInt32.le_iff_toNat_le.1 hupper.2⟩

theorem trim_of_eqIgnoringCase {s word : String} (h : eqIgnoringCase s word = true)
    (hword : (lower word).toList.any isBlank = false) : trim s = s := by
  have hblank : ∀ c ∈ s.toList, isBlank c = false := by
    intro c hc
    by_contra hnot
    have hlower := toLower_of_isBlank (eq_true_of_ne_false hnot)
    have hmem : c ∈ (lower s).toList := by
      rw [lower, String.toList_map, ← hlower]
      exact List.mem_map_of_mem hc
    rw [eqIgnoringCase_iff.1 h] at hmem
    exact List.any_eq_false.1 hword c hmem (eq_true_of_ne_false hnot)
  have hself := trimChars_eq_self (fun c hc => hblank c (List.mem_of_head? hc))
    fun c hc => hblank c (List.mem_of_getLast? hc)
  rw [trim, hself, String.ofList_toList]

end Text

namespace Http

namespace Headers

/-- A field has the name of a framing field only if it still does without blanks. -/
theorem has_of_trimmed {headers : Headers} {name : String}
    (hname : (Text.lower name).toList.any Text.isBlank = false)
    (h : Headers.has (headers.map Field.trimmed) name = false) : headers.has name = false := by
  rw [Headers.has, List.any_eq_false] at h ⊢
  intro field hmem hnamed
  refine h field.trimmed (List.mem_map_of_mem hmem) ?_
  rw [Field.isNamed, Field.trimmed, Text.trim_of_eqIgnoringCase hnamed hname]
  exact hnamed

end Headers

theorem Method.isLine_word {method : Method}
    (h : method ∈ Method.named ∨ Text.IsToken method.word) :
    Bytes.IsLine (Bytes.ofString method.word) := by
  refine Bytes.isLine_ofString fun hmem => ?_
  rcases h with hnamed | htoken
  · have hall : ∀ method ∈ Method.named, '\r' ∉ method.word.toList := by decide +kernel
    exact hall method hnamed hmem
  · have hchar := htoken.2 '\r' hmem
    revert hchar
    decide +kernel

namespace Request

open ResponseReader (maxHeadBytes maxBodyBytes)

variable {request : Request} {chunking : Bool} {body : Bytes}

/-! ### What the writer adds -/

/-- The field that states the framing of a body which the request does not frame itself. -/
def addedField (chunking : Bool) (body : Bytes) : Field :=
  if chunking then ⟨"Transfer-Encoding", "chunked"⟩
  else ⟨"Content-Length", String.ofList (Text.decimal body.length)⟩

theorem framingField_of_not_has (hbody : request.body = some body)
    (hlength : request.headers.has "Content-Length" = false)
    (hcoding : request.headers.has "Transfer-Encoding" = false) :
    request.framingField chunking = [addedField chunking body] := by
  cases chunking <;> simp [framingField, framing, hbody, hlength, hcoding, addedField]

theorem content_of_not_has (hbody : request.body = some body)
    (hlength : request.headers.has "Content-Length" = false)
    (hcoding : request.headers.has "Transfer-Encoding" = false) :
    request.content chunking = if chunking then Chunked.encode body else body := by
  cases chunking <;> simp [content, framing, hbody, hlength, hcoding]

theorem isPlain_addedField (chunking : Bool) (body : Bytes) :
    (addedField chunking body).IsPlain := by
  cases chunking with
  | true => exact isPlain_chunked
  | false => exact isPlain_of_length (Text.spells_decimal _)

/-! ### The form of what is written -/

def bodyText (chunking : Bool) (body : Bytes) : BodyText :=
  if chunking then .chunked (ChunkedForm.ofBody body).text else .sized body

theorem bytes_bodyText (chunking : Bool) (body : Bytes) :
    (bodyText chunking body).bytes = if chunking then Chunked.encode body else body := by
  cases chunking with
  | true =>
    have htext : (ChunkedForm.ofBody body).text.bytes = (ChunkedForm.ofBody body).bytes :=
      BodyForm.bytes_text (.inChunks (.ofBody body))
    exact htext.trans (ChunkedForm.bytes_ofBody body)
  | false => rfl

theorem body_bodyText (chunking : Bool) (body : Bytes) : (bodyText chunking body).body = body := by
  cases chunking with
  | true => exact ChunkedForm.body_ofBody body
  | false => rfl

theorem trailers_bodyText (chunking : Bool) (body : Bytes) :
    (bodyText chunking body).trailers = [] := by
  cases chunking <;> rfl

theorem length_trailerLines_bodyText_le (chunking : Bool) (body : Bytes) :
    (bodyText chunking body).trailerLines.length ≤ 2 := by
  cases chunking with
  | true => exact Nat.le_refl 2
  | false => exact Nat.zero_le 2

theorem framedBy_bodyText {headers : Headers} (hlength : headers.has "Content-Length" = false)
    (hcoding : headers.has "Transfer-Encoding" = false) (chunking : Bool) (body : Bytes) :
    (bodyText chunking body).FramedBy (headers ++ [addedField chunking body]) := by
  cases chunking with
  | true =>
    have hdescribe := Headers.describe_encode hlength hcoding body
    refine (hdescribe.in_chunks ?_).2
    simp
  | false =>
    have hdescribe := Headers.describe_decimal hlength hcoding body
    have hhas : Headers.has (headers ++ [addedField false body]) "Content-Length" = true := by
      simp [addedField]
    refine ⟨?_, hhas, (hdescribe.of_length hhas).2⟩
    simp [addedField, hcoding, not_isNamed_of_length]

/-- The request with a status line in the place of its request line. -/
def answerText (request : Request) (chunking : Bool) (body : Bytes) : ResponseText where
  version := "HTTP/1.1"
  digits := ['2', '0', '0']
  status := 200
  reason := some "OK"
  lines := (request.headers ++ [addedField chunking body]).map Field.line
  body := bodyText chunking body

theorem statusText_answerText (request : Request) (chunking : Bool) (body : Bytes) :
    (request.answerText chunking body).statusText = "HTTP/1.1 200 OK" := by
  have hline : "HTTP/1.1" ++ " " ++ String.ofList ['2', '0', '0'] ++ (" " ++ "OK") =
      "HTTP/1.1 200 OK" := by decide +kernel
  exact hline

theorem fields_answerText (request : Request) (chunking : Bool) (body : Bytes) :
    (request.answerText chunking body).fields =
      request.headers.map Field.trimmed ++ [addedField chunking body] := by
  have hline : FieldLine.field ∘ Field.line = Field.trimmed := funext Field.field_line
  have hadded := (isPlain_addedField chunking body).trimmed_eq
  rw [ResponseText.fields, answerText, List.map_map, hline, List.map_append, List.map_singleton,
    hadded]

theorem response_answerText (request : Request) (chunking : Bool) (body : Bytes) :
    (request.answerText chunking body).response =
      { status := 200
        reason := some "OK"
        headers := request.headers.map Field.trimmed ++ [addedField chunking body]
        body := body } := by
  have hreason : ((some "OK").map Text.trim).filter (· ≠ "") = some "OK" := by decide +kernel
  have htrailers : (request.answerText chunking body).body.trailers = [] :=
    trailers_bodyText chunking body
  have hbody : (request.answerText chunking body).body.body = body := body_bodyText chunking body
  rw [ResponseText.response, fields_answerText, htrailers, hbody, List.map_nil, List.append_nil]
  exact congrArg (fun reason => Response.mk 200 reason _ body) hreason

theorem head_answerText (request : Request) (chunking : Bool) (body : Bytes) :
    (request.answerText chunking body).head = Bytes.ofString "HTTP/1.1 200 OK" ++ Bytes.crlf ++
      ((request.headers ++ [addedField chunking body]).flatMap fieldLine ++ Bytes.crlf) := by
  rw [ResponseText.head, statusText_answerText, answerText, flatMap_bytes_line]

/-- Every field that is written stands on a line of its own. -/
theorem isPlain_line_of_isWritable {field : Field} (h : isWritable field = true) :
    field.line.IsPlain where
  no_colon := (isWritable_iff.1 h).2.2.2
  is_line := by
    rw [Field.text_line]
    exact Bytes.isLine_ofString (not_mem_fieldText h)

theorem wellFormed_answerText (hwritable : ∀ field ∈ request.headers, isWritable field = true)
    (hlength : Headers.has (request.headers.map Field.trimmed) "Content-Length" = false)
    (hcoding : Headers.has (request.headers.map Field.trimmed) "Transfer-Encoding" = false)
    (hhead : (request.answerText chunking body).head.length + 2 ≤ maxHeadBytes)
    (hbody : body.length ≤ maxBodyBytes) : (request.answerText chunking body).WellFormed where
  is_version := ResponseText.isVersion_http11
  status_spelled := by
    have htwo : Text.Spells 10 2 ['2'] := .digit rfl
    exact (htwo.snoc (c := '0') (d := 0) rfl).snoc (c := '0') (d := 0) rfl
  status_range := by
    have hrange : 100 ≤ 200 ∧ 200 < 1000 := by decide
    exact hrange
  status_line := by
    rw [statusText_answerText]
    exact Bytes.isLine_ofString (by decide +kernel)
  lines_plain := by
    intro line hmem
    obtain ⟨field, hfield, rfl⟩ := List.mem_map.1 hmem
    rcases List.mem_append.1 hfield with hfield | hfield
    · exact isPlain_line_of_isWritable (hwritable field hfield)
    · rw [List.mem_singleton.1 hfield]
      exact (isPlain_addedField chunking body).isPlain_line
  bodiless_iff := by
    have hstatus : ResponseReader.isBodiless 200 = false := by decide
    refine iff_of_false (by simp [answerText, hstatus]) ?_
    cases chunking <;> simp [answerText, bodyText]
  framed := by
    rw [fields_answerText]
    exact framedBy_bodyText hlength hcoding chunking body
  head_length := by
    have hlines : (request.answerText chunking body).body.trailerLines.length ≤ 2 :=
      length_trailerLines_bodyText_le chunking body
    omega
  body_length := by
    have hsame : (request.answerText chunking body).body.body = body := body_bodyText chunking body
    rw [hsame]
    exact hbody

/-! ### The round trip -/

theorem withFirstLine_head (hmethod : Bytes.IsLine (Bytes.ofString request.method.word))
    (hpath : Text.IsWord request.path) (text : String) (content : Bytes) :
    Bytes.withFirstLine text (request.head chunking ++ content) =
      Bytes.ofString text ++ Bytes.crlf ++
        ((request.fields chunking).flatMap fieldLine ++ Bytes.crlf) ++ content := by
  have hline := (isLine_lineText_iff hpath).2 hmethod
  rw [head_eq, requestLine_eq, List.append_assoc, List.append_assoc, List.append_assoc,
    ← List.append_assoc (Bytes.ofString request.lineText), Bytes.withFirstLine_line hline]
  simp only [List.append_assoc]

/-- **What is written is read back.** With a status line in the place of its request line, a written
request with a body is read as a response that has the fields of the request, without the blanks
around them, behind them the one that states the framing, and its body; no bytes are left. -/
theorem encode_read_back {bytes : Bytes} (hencode : request.encode chunking = .ok bytes)
    (hmethod : request.method ∈ Method.named ∨ Text.IsToken request.method.word)
    (hbody : request.body = some body) (hsize : body.length ≤ maxBodyBytes)
    (hlength : Headers.has (request.headers.map Field.trimmed) "Content-Length" = false)
    (hcoding : Headers.has (request.headers.map Field.trimmed) "Transfer-Encoding" = false)
    (hhead : (Bytes.withFirstLine "HTTP/1.1 200 OK" (request.head chunking)).length + 2 ≤
      maxHeadBytes) :
    ResponseReader.decode {} (Bytes.withFirstLine "HTTP/1.1 200 OK" bytes) =
      { result := .ok (some
          { status := 200
            reason := some "OK"
            headers := request.headers.map Field.trimmed ++ [addedField chunking body]
            body := body })
        reader := {}
        rest := [] } := by
  obtain ⟨-, htarget, hwritable, rfl⟩ := encode_eq_ok_iff.1 hencode
  have hpath := isWord_iff_isTarget.2 htarget
  have hline := Method.isLine_word hmethod
  -- The writer compares names with the blanks around them, the reader without.
  have hlengths := Headers.has_of_trimmed (by decide +kernel) hlength
  have hcodings := Headers.has_of_trimmed (by decide +kernel) hcoding
  have hfields : request.fields chunking = request.headers ++ [addedField chunking body] := by
    rw [fields, framingField_of_not_has hbody hlengths hcodings]
  have hanswer (content : Bytes) :
      Bytes.withFirstLine "HTTP/1.1 200 OK" (request.head chunking ++ content) =
        (request.answerText chunking body).head ++ content := by
    rw [withFirstLine_head hline hpath, head_answerText, hfields]
  have hcontent : request.content chunking = (request.answerText chunking body).body.bytes := by
    rw [content_of_not_has hbody hlengths hcodings]
    exact (bytes_bodyText chunking body).symm
  have hnil := hanswer []
  rw [List.append_nil, List.append_nil] at hnil
  rw [hnil] at hhead
  have hform := wellFormed_answerText hwritable hlength hcoding hhead hsize
  have hdelimited : (request.answerText chunking body).body.IsDelimited := by
    cases chunking <;> exact trivial
  have hdecode := ResponseReader.decode_text hform hdelimited []
  rw [List.append_nil, response_answerText] at hdecode
  rw [hanswer, hcontent]
  exact hdecode

theorem read_back_greeting :
    ResponseReader.decode {}
        (Bytes.ofString "HTTP/1.1 200 OK\r\nHost: h\r\nX-Name:  b \r\n" ++
          Bytes.ofString "Transfer-Encoding: chunked\r\n\r\n5\r\nhello\r\n0\r\n\r\n") =
      { result := .ok (some
          { status := 200
            reason := some "OK"
            headers := [⟨"Host", "h"⟩, ⟨"X-Name", "b"⟩, ⟨"Transfer-Encoding", "chunked"⟩]
            body := hello })
        reader := {}
        rest := [] } := by
  generalize hrequest : greeting [⟨"X-Name", " b "⟩] (some hello) = request
  have hencode : request.encode true = .ok (request.head true ++ request.content true) := by
    rw [← hrequest]
    exact encode_greeting (by decide +kernel) (some hello) true
  have hmethod : request.method ∈ Method.named := by
    rw [← hrequest]
    decide
  have hbody : request.body = some hello := by
    rw [← hrequest]
    rfl
  have hlength : Headers.has (request.headers.map Field.trimmed) "Content-Length" = false := by
    rw [← hrequest]
    decide +kernel
  have hcoding : Headers.has (request.headers.map Field.trimmed) "Transfer-Encoding" = false := by
    rw [← hrequest]
    decide +kernel
  have hhead : (Bytes.withFirstLine "HTTP/1.1 200 OK" (request.head true)).length + 2 ≤
      maxHeadBytes := by
    rw [← hrequest]
    decide +kernel
  have hread := encode_read_back hencode (.inl hmethod) hbody (by decide) hlength hcoding hhead
  have hbytes : Bytes.withFirstLine "HTTP/1.1 200 OK" (request.head true ++ request.content true) =
      Bytes.ofString "HTTP/1.1 200 OK\r\nHost: h\r\nX-Name:  b \r\n" ++
        Bytes.ofString "Transfer-Encoding: chunked\r\n\r\n5\r\nhello\r\n0\r\n\r\n" := by
    rw [← hrequest]
    decide +kernel
  have hfields : request.headers.map Field.trimmed ++ [addedField true hello] =
      [⟨"Host", "h"⟩, ⟨"X-Name", "b"⟩, ⟨"Transfer-Encoding", "chunked"⟩] := by
    rw [← hrequest]
    decide +kernel
  rwa [hbytes, hfields] at hread

end Request

end Http

end WebClient
