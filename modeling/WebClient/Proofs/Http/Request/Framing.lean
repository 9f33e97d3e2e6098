import WebClient.Proofs.Http.Headers
import WebClient.Proofs.Http.Wire

/-!
# Whether the head of a request describes what follows it

A recipient knows where a request ends by its framing fields alone, so what they say has to be what
is written. The fields that the writer adds are right, and with them there is never more than one
framing. Framing fields of the caller are written as they are: they are neither checked against the
body nor dropped, and they decide how the body goes out. The head is therefore true exactly when
the caller's framing fields are (`encode_describes_iff`), and in particular when there are none.
-/

namespace WebClient.Http

open Request (fieldLine)

/-! ### Framing fields -/

namespace Headers

/-- The fields tell how `body` makes up the bytes `content` that follow them. -/
structure Describe (headers : Headers) (body content : Bytes) : Prop where
  one_framing : ¬ (headers.has "Content-Length" = true ∧ headers.has "Transfer-Encoding" = true)
  in_chunks : headers.has "Transfer-Encoding" = true →
    (∃ form : ChunkedForm, form.body = body ∧ form.bytes = content) ∧ headers.EndChunked
  of_length : headers.has "Content-Length" = true →
    content = body ∧ ∀ value ∈ headers.values "Content-Length",
      Text.Spells 10 content.length (Text.trimChars value.toList)
  unframed : headers.has "Content-Length" = false → headers.has "Transfer-Encoding" = false →
    content = []

theorem describe_nil {headers : Headers} (hlength : headers.has "Content-Length" = false)
    (hcoding : headers.has "Transfer-Encoding" = false) (body : Bytes) :
    headers.Describe body [] where
  one_framing := by simp [hlength]
  in_chunks := by simp [hcoding]
  of_length := by simp [hlength]
  unframed := fun _ _ => rfl

theorem describe_encode {headers : Headers} (hlength : headers.has "Content-Length" = false)
    (hcoding : headers.has "Transfer-Encoding" = false) (body : Bytes) :
    Headers.Describe (headers ++ [⟨"Transfer-Encoding", "chunked"⟩]) body
      (Chunked.encode body) := by
  have hother : Headers.has (headers ++ [⟨"Transfer-Encoding", "chunked"⟩]) "Content-Length" =
      false := by simp [hlength, not_isNamed_of_coding]
  have hend : Headers.EndChunked (headers ++ [⟨"Transfer-Encoding", "chunked"⟩]) := by
    refine ⟨"chunked", ?_, Text.eqIgnoringCase_refl _⟩
    rw [codings, elements, values_append, values_eq_nil hcoding]
    decide +kernel
  refine ⟨by simp [hother], fun _ => ⟨exists_chunkedForm_encode body, hend⟩, by simp [hother], ?_⟩
  simp

theorem describe_decimal {headers : Headers} (hlength : headers.has "Content-Length" = false)
    (hcoding : headers.has "Transfer-Encoding" = false) (body : Bytes) :
    Headers.Describe
      (headers ++ [⟨"Content-Length", String.ofList (Text.decimal body.length)⟩]) body body := by
  have hother : Headers.has
      (headers ++ [⟨"Content-Length", String.ofList (Text.decimal body.length)⟩])
      "Transfer-Encoding" = false := by simp [hcoding, not_isNamed_of_length]
  have hspells := Text.spells_decimal body.length
  refine ⟨by simp [hother], by simp [hother], fun _ => ⟨rfl, ?_⟩, by simp⟩
  rw [values_append, values_eq_nil hlength, values_singleton]
  simpa [hspells.trimChars_eq] using hspells

end Headers

theorem ChunkedForm.bytes_ne_nil (form : ChunkedForm) : form.bytes ≠ [] := by
  simp [ChunkedForm.bytes, Bytes.crlf]

namespace Request

variable {request : Request} {chunking : Bool}

/-- The framing fields that the request has of its own agree with its body. -/
structure FramesTruly (request : Request) : Prop where
  one_framing : ¬ (request.headers.has "Content-Length" = true ∧
    request.headers.has "Transfer-Encoding" = true)
  in_chunks : request.headers.has "Transfer-Encoding" = true →
    request.body.isSome ∧ request.headers.EndChunked
  of_length : ∀ value ∈ request.headers.values "Content-Length",
    Text.Spells 10 (request.body.getD []).length (Text.trimChars value.toList)

theorem framesTruly_of_not_has (hlength : request.headers.has "Content-Length" = false)
    (hcoding : request.headers.has "Transfer-Encoding" = false) : request.FramesTruly where
  one_framing := by simp [hlength]
  in_chunks := by simp [hcoding]
  of_length := by simp [Headers.values_eq_nil hlength]

/-! ### What is written -/

def fields (request : Request) (chunking : Bool) : Headers :=
  request.headers ++ request.framingField chunking

theorem head_eq (request : Request) (chunking : Bool) : request.head chunking =
    request.requestLine ++ (request.fields chunking).flatMap fieldLine ++ Bytes.crlf := rfl

theorem encode_eq_ok {bytes : Bytes} (h : request.encode chunking = .ok bytes) :
    bytes = request.requestLine ++ (request.fields chunking).flatMap fieldLine ++ Bytes.crlf ++
      request.content chunking := by
  unfold encode at h
  split at h
  · simp at h
  · split at h
    · simp at h
    · split at h
      · simp at h
      · rw [← head_eq]
        exact (Except.ok.inj h).symm

theorem framingField_eq_nil (h : request.headers.has "Content-Length" = true ∨
    request.headers.has "Transfer-Encoding" = true) : request.framingField chunking = [] := by
  unfold framingField framing
  rcases request.body with _ | body
  · rfl
  · by_cases hlength : request.headers.has "Content-Length" = true
    · simp [hlength]
    · have hcoding := h.resolve_left hlength
      simp [hlength, hcoding]

theorem content_of_length (h : request.headers.has "Content-Length" = true) :
    request.content chunking = request.body.getD [] := by
  unfold content framing
  rcases request.body with _ | body
  · rfl
  · simp [h]

theorem content_in_chunks (hlength : request.headers.has "Content-Length" = false)
    (hcoding : request.headers.has "Transfer-Encoding" = true) :
    request.content chunking = (request.body.map Chunked.encode).getD [] := by
  unfold content framing
  rcases request.body with _ | body
  · rfl
  · simp [hlength, hcoding]

/-! ### When the fields are true -/

theorem describe_of_not_has (hlength : request.headers.has "Content-Length" = false)
    (hcoding : request.headers.has "Transfer-Encoding" = false) :
    (request.fields chunking).Describe (request.body.getD []) (request.content chunking) := by
  unfold fields framingField content framing
  rcases request.body with _ | body
  · simpa using Headers.describe_nil hlength hcoding []
  · cases chunking with
    | true => simpa [hlength, hcoding] using Headers.describe_encode hlength hcoding body
    | false => simpa [hlength, hcoding] using Headers.describe_decimal hlength hcoding body

/-- What the head says of the framing is true exactly when what the caller says of it is. -/
theorem describe_iff : (request.fields chunking).Describe (request.body.getD [])
    (request.content chunking) ↔ request.FramesTruly := by
  by_cases hlength : request.headers.has "Content-Length" = true
  · have hfields : request.fields chunking = request.headers := by
      rw [fields, framingField_eq_nil (.inl hlength), List.append_nil]
    rw [hfields, content_of_length hlength]
    constructor
    · intro h
      exact ⟨h.one_framing, fun hcoding => absurd ⟨hlength, hcoding⟩ h.one_framing,
        (h.of_length hlength).2⟩
    · intro h
      exact ⟨h.one_framing, fun hcoding => absurd ⟨hlength, hcoding⟩ h.one_framing,
        fun _ => ⟨rfl, h.of_length⟩, by simp [hlength]⟩
  · replace hlength := eq_false_of_ne_true hlength
    by_cases hcoding : request.headers.has "Transfer-Encoding" = true
    · have hfields : request.fields chunking = request.headers := by
        rw [fields, framingField_eq_nil (.inr hcoding), List.append_nil]
      rw [hfields, content_in_chunks hlength hcoding]
      constructor
      · intro h
        obtain ⟨⟨form, -, hbytes⟩, hend⟩ := h.in_chunks hcoding
        refine ⟨h.one_framing, fun _ => ⟨?_, hend⟩, by simp [Headers.values_eq_nil hlength]⟩
        -- Nothing at all would not even be an empty body in chunks.
        cases hbody : request.body with
        | none => exact absurd (by simpa [hbody] using hbytes) form.bytes_ne_nil
        | some body => rfl
      · intro h
        obtain ⟨hsome, hend⟩ := h.in_chunks hcoding
        obtain ⟨body, hbody⟩ := Option.isSome_iff_exists.1 hsome
        refine ⟨h.one_framing, fun _ => ⟨?_, hend⟩, by simp [hlength], by simp [hcoding]⟩
        simpa [hbody] using exists_chunkedForm_encode body
    · replace hcoding := eq_false_of_ne_true hcoding
      exact iff_of_true (describe_of_not_has hlength hcoding)
        (framesTruly_of_not_has hlength hcoding)

/-- **The head of a written request describes the bytes that follow it exactly when the framing
fields of the caller do**: there is not one of each kind, a transfer coding comes with a body and
ends with the chunked one, and a length is the number of bytes in the body. -/
theorem encode_describes_iff {bytes : Bytes} (h : request.encode chunking = .ok bytes) :
    ∃ content : Bytes,
      bytes = request.requestLine ++ (request.fields chunking).flatMap fieldLine ++ Bytes.crlf ++
        content ∧
      ((request.fields chunking).Describe (request.body.getD []) content ↔ request.FramesTruly) :=
  ⟨request.content chunking, encode_eq_ok h, describe_iff⟩

def greeting (framing : Headers) (body : Option Bytes) : Request where
  method := .post
  path := "/"
  headers := ⟨"Host", "h"⟩ :: framing
  body := body

def hello : Bytes := [104, 101, 108, 108, 111]

theorem encode_greeting {framing : Headers} (h : framing.all isWritable = true)
    (body : Option Bytes) (chunking : Bool) :
    (greeting framing body).encode chunking =
      .ok ((greeting framing body).head chunking ++ (greeting framing body).content chunking) := by
  have hhost : (greeting framing body).headers.has "Host" = true := by
    simp [greeting, Headers.has]
  have htarget : isTarget (greeting framing body).path = true := by
    have : isTarget "/" = true := by decide +kernel
    exact this
  have hwritable : (greeting framing body).headers.find? (!isWritable ·) = none := by
    have : isWritable ⟨"Host", "h"⟩ = true := by decide +kernel
    simpa [greeting, this] using h
  simp [encode, hhost, htarget, hwritable]

/-- A length may be spelled with a zero in front. -/
theorem describes_greeting :
    (greeting [⟨"Content-Length", "05"⟩] (some hello)).encode true =
        .ok ((greeting [⟨"Content-Length", "05"⟩] (some hello)).head true ++ hello) ∧
      ((greeting [⟨"Content-Length", "05"⟩] (some hello)).fields true).Describe hello hello := by
  generalize hrequest : greeting [⟨"Content-Length", "05"⟩] (some hello) = request
  have hlength : request.headers.has "Content-Length" = true := by
    rw [← hrequest]
    decide +kernel
  have hbody : request.body = some hello := by rw [← hrequest]; rfl
  have hcontent : request.content true = hello := by rw [content_of_length hlength, hbody]; rfl
  have hencode : request.encode true = .ok (request.head true ++ hello) := by
    have hw : List.all [(⟨"Content-Length", "05"⟩ : Field)] isWritable = true := by decide +kernel
    rw [← hcontent, ← hrequest]
    exact encode_greeting hw (some hello) true
  have htrue : request.FramesTruly := by
    have hzero : Text.Spells 10 0 ['0'] := .digit rfl
    have hspells : Text.Spells 10 5 ['0', '5'] := hzero.snoc (c := '5') (d := 5) rfl
    have hvalues : request.headers.values "Content-Length" = ["05"] := by
      rw [← hrequest]
      decide +kernel
    have hcoding : request.headers.has "Transfer-Encoding" = false := by
      rw [← hrequest]
      decide +kernel
    refine ⟨by simp [hcoding], by simp [hcoding], ?_⟩
    have hfive : ((some hello).getD []).length = 5 := rfl
    rw [hvalues, hbody, hfive]
    simpa [hspells.trimChars_eq] using hspells
  obtain ⟨content, hbytes, hiff⟩ := encode_describes_iff hencode
  rw [← head_eq] at hbytes
  obtain rfl := List.append_cancel_left hbytes
  rw [hbody] at hiff
  exact ⟨hencode, hiff.2 htrue⟩

/-- The request is written, and its head does not describe what follows it. -/
def Misdescribed (request : Request) (chunking : Bool) : Prop :=
  ∃ bytes, request.encode chunking = .ok bytes ∧ ∀ content : Bytes,
    bytes = request.requestLine ++ (request.fields chunking).flatMap fieldLine ++ Bytes.crlf ++
      content → ¬ (request.fields chunking).Describe (request.body.getD []) content

theorem misdescribed_greeting {framing : Headers} {body : Option Bytes}
    (hwritable : framing.all isWritable = true)
    (huntrue : ¬ (greeting framing body).FramesTruly) (chunking : Bool) :
    (greeting framing body).Misdescribed chunking := by
  refine ⟨_, encode_greeting hwritable body chunking, fun content hbytes hdescribe => huntrue ?_⟩
  rw [← head_eq] at hbytes
  obtain rfl := List.append_cancel_left hbytes
  exact describe_iff.1 hdescribe

theorem not_framesTruly_of_length {value : String} {body : Option Bytes} {d : Nat}
    (hread : Text.numeral? 10 9 (Text.trimChars value.toList) = some d)
    (hbody : (body.getD []).length ≤ 9) (hne : d ≠ (body.getD []).length) :
    ¬ (greeting [⟨"Content-Length", value⟩] body).FramesTruly := by
  intro h
  have hother : (Field.mk "Host" "h").isNamed "Content-Length" = false := by decide +kernel
  have hmem : value ∈
      (greeting [⟨"Content-Length", value⟩] body).headers.values "Content-Length" := by
    simp [greeting, Headers.values, hother]
  have hlength := Text.numeral?_of_spells (h.of_length value hmem) hbody
  exact hne (Option.some_inj.1 (hread.symm.trans hlength))

/-- Each way in which fields of the caller can be untrue: a length that is not the body's or is of
no body, both framings at once, a last coding that is not the chunked one, a coding of no body. -/
theorem misdescribed_greetings :
    (greeting [⟨"Content-Length", "3"⟩] (some hello)).Misdescribed true ∧
    (greeting [⟨"Content-Length", "5"⟩] none).Misdescribed true ∧
    (greeting [⟨"Content-Length", "5"⟩, ⟨"Transfer-Encoding", "chunked"⟩]
      (some hello)).Misdescribed true ∧
    (greeting [⟨"Transfer-Encoding", "gzip"⟩] (some hello)).Misdescribed true ∧
    (greeting [⟨"Transfer-Encoding", "chunked"⟩] none).Misdescribed true := by
  refine ⟨misdescribed_greeting (by decide +kernel) ?_ true,
    misdescribed_greeting (by decide +kernel) ?_ true,
    misdescribed_greeting (by decide +kernel) ?_ true,
    misdescribed_greeting (by decide +kernel) ?_ true,
    misdescribed_greeting (by decide +kernel) ?_ true⟩
  · have hread : Text.numeral? 10 9 (Text.trimChars "3".toList) = some 3 := by decide +kernel
    exact not_framesTruly_of_length hread (by decide) (by decide)
  · have hread : Text.numeral? 10 9 (Text.trimChars "5".toList) = some 5 := by decide +kernel
    exact not_framesTruly_of_length hread (by decide) (by decide)
  · exact fun h => h.one_framing (by decide +kernel)
  · intro h
    obtain ⟨coding, hlast, hchunked⟩ := (h.in_chunks (by decide +kernel)).2
    have hcodings : (greeting [⟨"Transfer-Encoding", "gzip"⟩] (some hello)).headers.codings =
      ["gzip"] := by decide +kernel
    obtain rfl : "gzip" = coding := by simpa [hcodings] using hlast
    exact absurd hchunked (by decide +kernel)
  · exact fun h => absurd (h.in_chunks (by decide +kernel)).1 (by decide)

end Request

end WebClient.Http
