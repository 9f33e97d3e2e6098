import WebClient.Exchange.Channel
import WebClient.Proofs.Http.Response.Interim
import WebClient.Proofs.Http.Response.Wire

/-!
# Reading the response of an exchange

A channel reads pieces until it has a response that is not interim or the stream ends. What it comes
to is what all of the pieces come to at once (`Channel.readResponse_of_unbroken`), unless a cut
breaks the line of a chunk's size. So it skips the interim responses of a stream, however many there
are and however they are cut, and nothing else (`Channel.readResponse_interims`).
-/

namespace WebClient.Exchange.Channel

open Http

/-! ### The end of the stream -/

/-- At the end of the stream nothing counts but what all of it comes to. -/
theorem finishReading_decode {r : ResponseReader} {buffer : Bytes}
    {result : Except ReadError Response}
    (h : (r.decodeEnd buffer).result = result.map some) :
    finishReading (r.decode buffer) none = result.mapError .read := by
  cases hresult : (r.decode buffer).result with
  | error e =>
    simp only [ResponseReader.decodeEnd, hresult] at h
    cases result <;> cases h
    simp only [finishReading, hresult, Except.mapError]
  | ok response? =>
    cases response? with
    | some response =>
      simp only [ResponseReader.decodeEnd, hresult] at h
      cases result <;> cases h
      simp only [finishReading, hresult, Except.mapError]
    | none =>
      -- Decoding what has been waited for once more changes nothing.
      have hnothing : (r.decode (buffer ++ [])).result = .ok none := by
        rw [List.append_nil, hresult]
      have hresume := ResponseReader.decode_resume hresult hnothing
      rw [List.append_nil, List.append_nil] at hresume
      rw [← ResponseReader.decodeEnd_congr hresume] at h
      cases result with
      | error e => simp only [finishReading, hresult, h, Except.map, Except.mapError]
      | ok response => simp only [finishReading, hresult, h, Except.map, Except.mapError]

theorem finishReading_congr {answer other : ResponseReader.Answer}
    (h : answer.seen = other.seen) (readFailure : Option StreamError) :
    finishReading answer readFailure = finishReading other readFailure := by
  have hseen (answer : ResponseReader.Answer) :
      finishReading answer.seen readFailure = finishReading answer readFailure := by
    cases hresult : answer.result with
    | ok response? => simp only [ResponseReader.Answer.seen, hresult]
    | error e => simp only [ResponseReader.Answer.seen, finishReading, hresult]
  rw [← hseen, h, hseen]

/-! ### Pieces -/

/-- **How a stream is cut makes no difference** to the response that is read from it, if no cut
breaks the line of a chunk's size. -/
theorem readResponse_of_unbroken {r : ResponseReader} {buffer : Bytes} {pieces : List Bytes}
    (h : ResponseReader.Unbroken (fun front => r.decodeFinal (buffer ++ front)) pieces.flatten)
    (readFailure : Option StreamError) :
    (readResponse r buffer readFailure pieces).2 =
      finishReading (r.decodeFinal (buffer ++ pieces.flatten)) readFailure := by
  induction pieces generalizing r buffer with
  | nil => rw [List.flatten_nil, List.append_nil, readResponse]
  | cons piece pieces ih =>
    have hmore (front : Bytes) := ResponseReader.decodeFinal_append r buffer front
    have hfirst : ¬ (r.decodeFinal buffer).BreaksSizeLine := by
      simpa using h [] List.nil_prefix
    rw [List.flatten_cons] at h ⊢
    rw [readResponse]
    generalize r.decodeFinal buffer = answer at hmore hfirst
    obtain ⟨result, reader, rest⟩ := answer
    rcases result with e | _ | response
    · have hstands := (hmore (piece ++ pieces.flatten)).resolve_left hfirst
      rw [finishReading_congr hstands]
      rfl
    · -- What is waited for is read from where the call left off, and cuts matter there no less.
      have hresume (front : Bytes) :
          (r.decodeFinal (buffer ++ (piece ++ front))).seen =
            (reader.decodeFinal (rest ++ piece ++ front)).seen := by
        rw [hmore, List.append_assoc]
      rw [finishReading_congr (hresume pieces.flatten)]
      refine ih fun front hfront => ?_
      rw [← ResponseReader.Answer.breaksSizeLine_congr (hresume front)]
      exact h.behind front hfront
    · rw [hmore]
      rfl

theorem readResponse_new {pieces : List Bytes}
    (h : ResponseReader.Unbroken (ResponseReader.decodeFinal {}) pieces.flatten) :
    (readResponse {} [] none pieces).2 =
      finishReading (ResponseReader.decodeFinal {} pieces.flatten) none :=
  readResponse_of_unbroken h none

/-! ### Interim responses -/

/-- **Interim responses are skipped, and nothing else.** When any number of them come before a
response with a status from 200 on, whose head, trailers included, has at most 32 KiB and whose size
lines have at most 1 KiB each, then that response is what is read, however the stream is cut. When
nothing comes behind them, there is no response. -/
theorem readResponse_interims {interim : List ResponseText}
    (hinterim : ∀ i ∈ interim, i.WellFormed ∧ i.status < 200) (pieces : List Bytes) :
    (∀ t : ResponseText, t.WellFormed → 200 ≤ t.status →
      t.head.length + t.body.trailerLines.length ≤ 32 * 1024 →
      (∀ line ∈ t.body.sizeLines, line.length ≤ 1024) →
      pieces.flatten = interim.flatMap ResponseText.bytes ++ t.bytes →
      (readResponse {} [] none pieces).2 = .ok t.response ∧ t.response.isInterim = false) ∧
    (pieces.flatten = interim.flatMap ResponseText.bytes →
      (readResponse {} [] none pieces).2 = .error .incompleteResponse) := by
  constructor
  · intro t h hfinal hhead hlines hpieces
    have hroom : ∀ line ∈ t.body.sizeLines,
        t.head.length + (line.length + 2) ≤ ResponseReader.maxHeadBytes := by
      intro line hline
      have hshort := hlines line hline
      simp only [ResponseReader.maxHeadBytes]
      omega
    obtain ⟨hskips, hunbroken⟩ := ResponseReader.decodeFinal_interims hinterim t.bytes
    rw [← hpieces] at hskips hunbroken
    have hread := readResponse_new (hunbroken (ResponseReader.unbroken_final h hfinal hroom))
    have hend : (ResponseReader.decodeEnd {} t.bytes).result = (Except.ok t.response).map some :=
      ResponseReader.result_decodeEnd h
    constructor
    · rw [hread, hskips, ResponseReader.decodeFinal_of_isPrefix h hfinal (List.prefix_refl _)]
      exact finishReading_decode hend
    · rw [← Bool.not_eq_true, ResponseReader.isInterim_response h]
      exact Nat.not_lt.2 hfinal
  · intro hpieces
    have hidle : ResponseReader.decode {} [] = { result := .ok none, reader := {}, rest := [] } :=
      ResponseReader.decode_of_answer rfl
    have hnothing : ResponseReader.decodeFinal {} [] = ResponseReader.decode {} [] :=
      ResponseReader.decodeFinal_of_final (by simp [hidle])
    have hfits : ResponseReader.FitsIn {} ResponseReader.maxHeadBytes [] := Nat.zero_le _
    obtain ⟨hskips, hunbroken⟩ := ResponseReader.decodeFinal_interims hinterim []
    rw [List.append_nil, ← hpieces] at hskips hunbroken
    have hread :=
      readResponse_new (hunbroken (ResponseReader.unbroken_decodeFinal_of_fitsIn hfits))
    have hend : (ResponseReader.decodeEnd {} []).result = .ok none := by
      simp [ResponseReader.decodeEnd, hidle, ResponseReader.isIdle]
    rw [hread, hskips, hnothing]
    simp only [finishReading, hidle, hend]

/-- A head that comes before the final response. -/
def interimHead (status : Nat) (reason : String) (fields : Headers) : ServerResponse where
  status := status
  reason := some reason
  before := fields
  behind := []
  form := .bodiless

theorem wellFormed_interimHead {status : Nat} {reason : String} {fields : Headers}
    (hstatus : 100 ≤ status ∧ status < 200)
    (hreason : reason ≠ "" ∧ Text.trim reason = reason ∧ Bytes.IsLine (Bytes.ofString reason))
    (hfields : ∀ field ∈ fields, field.IsPlain)
    (hlength : (interimHead status reason fields).head.length ≤ ResponseReader.maxHeadBytes) :
    (interimHead status reason fields).WellFormed where
  status_range := ⟨hstatus.1, by simp only [interimHead]; omega⟩
  reason_line := by
    intro other hother
    obtain rfl : reason = other := Option.some_inj.1 hother
    exact hreason
  fields_plain := by simpa [interimHead] using hfields
  bodiless_iff := by simp [interimHead, ResponseReader.isBodiless, hstatus]
  not_framed := by simp [interimHead]
  head_length := by simpa [interimHead, BodyForm.trailerLines] using hlength
  body_length := Nat.zero_le _

/-- Two interim responses in two pieces, of which the first ends inside the second response, and a
final one that comes byte by byte. -/
theorem readResponse_continue :
    let heads := Bytes.ofString "HTTP/1.1 100 Continue\r\n\r\n" ++
      Bytes.ofString "HTTP/1.1 103 Early Hints\r\nLink: /a.css\r\n\r\n"
    let chunked :=
      Bytes.ofString "HTTP/1.1 200 OK\r\nServer: x\r\nTransfer-Encoding: chunked\r\n\r\n" ++
        Bytes.ofString "02 ;a=b\r\nhi\r\n0\r\nDigest: d\r\n\r\n"
    (readResponse {} [] none ([heads.take 40, heads.drop 40] ++ chunked.map fun b => [b])).2 =
      .ok { status := 200
            reason := some "OK"
            headers := [⟨"Server", "x"⟩, ⟨"Transfer-Encoding", "chunked"⟩, ⟨"Digest", "d"⟩]
            body := [104, 105] } ∧
    (readResponse {} [] none [heads.take 40, heads.drop 40]).2 = .error .incompleteResponse := by
  intro heads chunked
  have hlink : ∀ field ∈ [(⟨"Link", "/a.css"⟩ : Field)], field.IsPlain := by
    intro field hfield
    rw [List.mem_singleton.1 hfield]
    exact ⟨by decide +kernel, by decide +kernel, by decide +kernel,
      Bytes.isLine_of_not_mem (by decide +kernel), Bytes.isLine_of_not_mem (by decide +kernel)⟩
  have hcontinue : (interimHead 100 "Continue" []).WellFormed :=
    wellFormed_interimHead (by decide)
      ⟨by decide, by decide +kernel, Bytes.isLine_of_not_mem (by decide +kernel)⟩ nofun
      (by decide +kernel)
  have hhints : (interimHead 103 "Early Hints" [⟨"Link", "/a.css"⟩]).WellFormed :=
    wellFormed_interimHead (by decide)
      ⟨by decide, by decide +kernel, Bytes.isLine_of_not_mem (by decide +kernel)⟩ hlink
      (by decide +kernel)
  have hinterim : ∀ i ∈ [(interimHead 100 "Continue" []).text,
      (interimHead 103 "Early Hints" [⟨"Link", "/a.css"⟩]).text],
      i.WellFormed ∧ i.status < 200 := by
    rw [List.forall_mem_cons, List.forall_mem_singleton]
    exact ⟨⟨ServerResponse.wellFormed_text hcontinue, by decide⟩,
      ⟨ServerResponse.wellFormed_text hhints, by decide⟩⟩
  have hheads : heads = [(interimHead 100 "Continue" []).text,
      (interimHead 103 "Early Hints" [⟨"Link", "/a.css"⟩]).text].flatMap ResponseText.bytes := by
    decide +kernel
  have hchunked : chunked = ResponseReader.okInChunks.text.bytes := by decide +kernel
  have hbytes : (chunked.map fun b => [b]).flatten = chunked := by
    rw [← List.flatMap_def, List.flatMap_singleton']
  have hresponse : ResponseReader.okInChunks.text.response =
      { status := 200
        reason := some "OK"
        headers := [⟨"Server", "x"⟩, ⟨"Transfer-Encoding", "chunked"⟩, ⟨"Digest", "d"⟩]
        body := [104, 105] } := by decide +kernel
  have hcut : [heads.take 40, heads.drop 40].flatten = heads := by simp
  constructor
  · rw [← hresponse]
    exact ((readResponse_interims hinterim _).1 _
      (ServerResponse.wellFormed_text ResponseReader.wellFormed_okInChunks) (by decide)
      (by decide +kernel) (by decide +kernel)
      (by rw [List.flatten_append, hcut, hbytes, hheads, hchunked])).1
  · exact (readResponse_interims hinterim _).2 (by rw [hcut, hheads])

end WebClient.Exchange.Channel
