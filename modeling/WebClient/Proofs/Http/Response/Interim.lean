import WebClient.Http.Response.Final
import WebClient.Proofs.Http.Response.Grammar
import WebClient.Proofs.Http.Response.HeadAlone

/-!
# Interim responses

Any number of heads with a status from 100 to 199 may come before the response that answers the
request, and reading goes over them: behind one it is as if nothing had been read
(`decodeFinal_interim`).

How the stream is cut makes no difference to this, with the one exception that a reader of single
responses has (`decodeFinal_append`): a cut inside the line of a chunk's size at which the head and
the line have grown too long. A response whose size lines are short enough has no such cut
(`unbroken_text`).
-/

namespace WebClient.Http

def ChunkedText.sizeLines (text : ChunkedText) : List Bytes :=
  text.chunks.map (fun chunk => Bytes.ofString (sizeLine chunk.digits chunk.extension)) ++
    [Bytes.ofString (sizeLine text.lastDigits text.lastExtension)]

def BodyText.sizeLines : BodyText → List Bytes
  | chunked text => text.sizeLines
  | _ => []

namespace ResponseReader

variable {r r' : ResponseReader} {buffer buffer' : Bytes} {call call' : Bytes → Answer}

/-! ### Reading over interim responses -/

theorem decodeFinal_of_interim {response : Response}
    (hresult : (r.decode buffer).result = .ok (some response))
    (hinterim : response.isInterim = true) :
    r.decodeFinal buffer = (r.decode buffer).reader.decodeFinal (r.decode buffer).rest := by
  rw [decodeFinal]
  split
  · next other hother =>
    obtain rfl : response = other := by simpa [hresult] using hother
    rw [if_pos hinterim]
  · next hnone => exact absurd hresult (hnone response)

theorem decodeFinal_of_final
    (hfinal : ∀ response, (r.decode buffer).result = .ok (some response) →
      response.isInterim = false) : r.decodeFinal buffer = r.decode buffer := by
  rw [decodeFinal]
  split
  · next response hresult => simp [hfinal response hresult]
  · rfl

theorem decodeFinal_seen_congr (h : (r.decode buffer).seen = (r'.decode buffer').seen) :
    (r.decodeFinal buffer).seen = (r'.decodeFinal buffer').seen := by
  have hresult := Answer.result_congr h
  by_cases hinterim : ∃ response, (r.decode buffer).result = .ok (some response) ∧
      response.isInterim = true
  · obtain ⟨response, hread, hinterim⟩ := hinterim
    have hread' := hresult.symm.trans hread
    have heq : r.decode buffer = r'.decode buffer' := by
      simpa only [Answer.seen, hread, hread'] using h
    rw [decodeFinal_of_interim hread hinterim, decodeFinal_of_interim hread' hinterim, heq]
  · have hfinal : ∀ response, (r.decode buffer).result = .ok (some response) →
        response.isInterim = false := fun response hread =>
      eq_false_of_ne_true fun htrue => hinterim ⟨response, hread, htrue⟩
    rw [decodeFinal_of_final hfinal, decodeFinal_of_final (by rwa [← hresult]), h]

/-- More bytes behind the buffer make the difference that they make to a reader of single
responses (`decode_append`). -/
theorem decodeFinal_append (r : ResponseReader) (buffer more : Bytes) :
    match (r.decodeFinal buffer).result with
    | .ok (some _) =>
      r.decodeFinal (buffer ++ more) =
        { r.decodeFinal buffer with rest := (r.decodeFinal buffer).rest ++ more }
    | .ok none =>
      (r.decodeFinal (buffer ++ more)).seen =
        ((r.decodeFinal buffer).reader.decodeFinal ((r.decodeFinal buffer).rest ++ more)).seen
    | .error _ =>
      (r.decodeFinal buffer).BreaksSizeLine ∨
        (r.decodeFinal (buffer ++ more)).seen = (r.decodeFinal buffer).seen := by
  have hcall := decode_append r buffer more
  fun_induction decodeFinal r buffer with
  | case1 r buffer answer response hresult hinterim ih =>
    -- The interim response is there with more bytes behind it, and so is all that follows.
    have hread : (r.decode buffer).result = .ok (some response) := hresult
    rw [hread] at hcall
    have hread' : (r.decode (buffer ++ more)).result = .ok (some response) := by rw [hcall, hread]
    have hbehind : r.decodeFinal (buffer ++ more) =
        answer.reader.decodeFinal (answer.rest ++ more) := by
      rw [decodeFinal_of_interim hread' hinterim, hcall]
    rw [hbehind]
    exact ih (decode_append _ _ _)
  | case2 r buffer answer response hresult hfinal =>
    have hread : (r.decode buffer).result = .ok (some response) := hresult
    rw [hread] at hcall
    have hsame : r.decodeFinal (buffer ++ more) = r.decode (buffer ++ more) := by
      refine decodeFinal_of_final fun other hother => ?_
      obtain rfl : response = other := by simpa [hcall, hread] using hother
      exact eq_false_of_ne_true hfinal
    rw [hresult, hsame]
    exact hcall
  | case3 r buffer answer hnone =>
    cases hresult : answer.result with
    | ok response? =>
      cases response? with
      | some response => exact absurd hresult (hnone response)
      | none =>
        have hread : (r.decode buffer).result = .ok none := hresult
        rw [hread] at hcall
        exact decodeFinal_seen_congr hcall
    | error e =>
      have hread : (r.decode buffer).result = .error e := hresult
      rw [hread] at hcall
      refine hcall.imp_right fun hseen => ?_
      rw [decodeFinal_of_final fun response hother => ?_, hseen]
      simp [Answer.result_congr hseen, hread] at hother

/-! ### Cuts that break no line -/

/-- Wherever the bytes are cut, a call on the part in front of the cut does not end at the line of
a chunk's size. -/
def Unbroken (call : Bytes → Answer) (bytes : Bytes) : Prop :=
  ∀ front, front <+: bytes → ¬ (call front).BreaksSizeLine

theorem Unbroken.append {first rest : Bytes} (h : Unbroken call first)
    (hread : ∀ front, call (first ++ front) = call' front) (hrest : Unbroken call' rest) :
    Unbroken call (first ++ rest) := by
  rintro front ⟨more, hcut⟩
  rcases List.append_eq_append_iff.1 hcut with ⟨_, rfl, -⟩ | ⟨front, rfl, rfl⟩
  · exact h _ (List.prefix_append _ _)
  · rw [hread]
    exact hrest _ (List.prefix_append _ _)

theorem Unbroken.behind {first rest : Bytes} (h : Unbroken call (first ++ rest)) :
    Unbroken (fun front => call (first ++ front)) rest :=
  fun _ hfront => h _ ((List.prefix_append_right_inj first).2 hfront)

theorem Answer.not_breaksSizeLine_of_ok {answer : Answer} {response? : Option Response}
    (h : answer.result = .ok response?) : ¬ answer.BreaksSizeLine := by
  rintro ⟨herror, -⟩
  simp [h] at herror

theorem Answer.FitsIn.not_breaksSizeLine {answer : Answer} {size : Nat} (h : answer.FitsIn size) :
    ¬ answer.BreaksSizeLine := by
  rintro ⟨herror, -⟩
  rw [FitsIn, herror] at h
  exact h rfl

theorem FitsIn.of_isPrefix {size : Nat} {front : Bytes} (h : r.FitsIn size buffer)
    (hfront : front <+: buffer) : r.FitsIn size front :=
  Nat.le_trans (Nat.add_le_add_left hfront.length_le _) h

theorem unbroken_of_fitsIn (h : r.FitsIn maxHeadBytes buffer) : Unbroken r.decode buffer :=
  fun _ hfront => (fitsIn_decode (Nat.le_refl _) (h.of_isPrefix hfront)).not_breaksSizeLine

theorem fitsIn_decodeFinal {size : Nat} (hsize : size ≤ maxHeadBytes) (h : r.FitsIn size buffer) :
    (r.decodeFinal buffer).FitsIn size := by
  fun_induction decodeFinal r buffer with
  | case1 r buffer answer response hresult hinterim ih =>
    obtain ⟨hfresh, hshorter, -⟩ := length_lt_of_decode r buffer hresult
    have hroom : r.headBytes + buffer.length ≤ size := h
    refine ih ?_
    rw [FitsIn, hfresh]
    show 0 + (r.decode buffer).rest.length ≤ size
    omega
  | case2 => exact fitsIn_decode hsize h
  | case3 => exact fitsIn_decode hsize h

theorem unbroken_decodeFinal_of_fitsIn (h : r.FitsIn maxHeadBytes buffer) :
    Unbroken r.decodeFinal buffer :=
  fun _ hfront => (fitsIn_decodeFinal (Nat.le_refl _) (h.of_isPrefix hfront)).not_breaksSizeLine

/-! ### Chunks -/

theorem unbroken_chunkData {data : Bytes} (hphase : r.phase = .chunkData data.length) :
    Unbroken r.decode data := by
  intro front hfront
  by_cases hshort : front.length < data.length
  · have htake : front.take data.length = front := List.take_of_length_le hshort.le
    have hwaits : ∃ r' rest, r.step front = .answer (.ok none) r' rest := by
      simp only [step, hphase, List.splitAt_eq, htake, if_pos hshort]
      exact ⟨_, _, rfl⟩
    obtain ⟨r', rest, hs⟩ := hwaits
    exact Answer.not_breaksSizeLine_of_ok (by rw [decode_of_answer hs])
  · obtain rfl := hfront.eq_of_length_le (Nat.not_lt.1 hshort)
    have hs := step_chunkData hphase []
    rw [List.append_nil] at hs
    have hend : ResponseReader.step { r.addBody front with phase := .chunkEnd } [] =
        .answer (.ok none) { r.addBody front with phase := .chunkEnd } [] := rfl
    exact Answer.not_breaksSizeLine_of_ok (by rw [decode_of_again hs, decode_of_answer hend])

theorem unbroken_sizeLine {line : Bytes} (hfit : r.headBytes + (line.length + 2) ≤ maxHeadBytes) :
    Unbroken r.decode (line ++ Bytes.crlf) :=
  unbroken_of_fitsIn (by rw [FitsIn, List.length_append]; exact hfit)

theorem unbroken_chunk (hphase : r.phase = .chunkSize) (chunk : Chunk)
    (hbody : r.body.size + chunk.data.length ≤ maxBodyBytes)
    (hfit : r.headBytes + ((Bytes.ofString (sizeLine chunk.digits chunk.extension)).length + 2) ≤
      maxHeadBytes) : Unbroken r.decode chunk.bytes := by
  have hpos : chunk.data.length ≠ 0 := by simpa using chunk.data_ne_nil
  have hsize (front : Bytes) := step_sizeLine hphase chunk.spells chunk.extends_line hbody front
  simp only [if_neg hpos] at hsize
  have hdata (front : Bytes) := step_chunkData
    (r := { r with phase := .chunkData chunk.data.length }) rfl front
  have hcrlf : Unbroken (ResponseReader.decode
      { ResponseReader.addBody { r with phase := .chunkData chunk.data.length } chunk.data with
        phase := .chunkEnd }) Bytes.crlf := by
    refine unbroken_of_fitsIn ?_
    show r.headBytes + 2 ≤ maxHeadBytes
    omega
  rw [Chunk.bytes, List.append_assoc]
  exact (unbroken_sizeLine hfit).append (fun front => decode_of_again (hsize front))
    ((unbroken_chunkData rfl).append (fun front => decode_of_again (hdata front)) hcrlf)

theorem unbroken_chunks (hphase : r.phase = .chunkSize) (chunks : List Chunk)
    (hbody : r.body.size + (chunks.flatMap Chunk.data).length ≤ maxBodyBytes)
    (hfit : ∀ chunk ∈ chunks, r.headBytes +
      ((Bytes.ofString (sizeLine chunk.digits chunk.extension)).length + 2) ≤ maxHeadBytes)
    {rest : Bytes} (hrest : Unbroken (r.addBody (chunks.flatMap Chunk.data)).decode rest) :
    Unbroken r.decode (chunks.flatMap Chunk.bytes ++ rest) := by
  induction chunks generalizing r with
  | nil => simpa using hrest
  | cons chunk chunks ih =>
    rw [List.flatMap_cons, List.length_append] at hbody
    rw [List.flatMap_cons, ← addBody_append] at hrest
    obtain ⟨hchunk, hchunks⟩ := List.forall_mem_cons.1 hfit
    rw [List.flatMap_cons, List.append_assoc]
    exact (unbroken_chunk hphase chunk (by omega) hchunk).append
      (fun front => decode_chunk hphase chunk (by omega) front)
      (ih hphase (by rw [size_addBody]; omega) hchunks hrest)

theorem unbroken_chunkedText (text : ChunkedText) (hphase : r.phase = .chunkSize)
    (hbody : r.body.size + text.body.length ≤ maxBodyBytes)
    (hhead : r.headBytes + text.trailerLines.length ≤ maxHeadBytes)
    (hfit : ∀ line ∈ text.sizeLines, r.headBytes + (line.length + 2) ≤ maxHeadBytes) :
    Unbroken r.decode text.bytes := by
  obtain ⟨hchunks, hlast⟩ := List.forall_mem_append.1 hfit
  have hsize (front : Bytes) := step_sizeLine (r := r.addBody text.body) hphase text.last_spells
    text.last_extends_line (by rw [size_addBody]; exact hbody) front
  simp only [if_true] at hsize
  have htrailers : Unbroken
      (ResponseReader.decode { r.addBody text.body with phase := .trailers }) text.trailerLines :=
    unbroken_of_fitsIn hhead
  refine unbroken_chunks hphase text.chunks hbody (fun chunk hchunk => ?_) ?_
  · exact hchunks _ (List.mem_map_of_mem hchunk)
  · have hline : Unbroken (r.addBody text.body).decode
        (Bytes.ofString (sizeLine text.lastDigits text.lastExtension) ++ Bytes.crlf) :=
      unbroken_sizeLine (hlast _ (List.mem_singleton_self _))
    exact hline.append (fun front => decode_of_again (hsize front)) htrailers

/-! ### Responses -/

theorem not_breaksSizeLine_of_body {length : Nat} (hphase : r.phase = .body length) :
    ¬ (r.decode buffer).BreaksSizeLine := by
  have hstep : ∃ response? r' rest, r.step buffer = .answer (.ok response?) r' rest := by
    simp only [step, hphase, finish]
    split <;> exact ⟨_, _, _, rfl⟩
  obtain ⟨response?, r', rest, hs⟩ := hstep
  exact Answer.not_breaksSizeLine_of_ok (by rw [decode_of_answer hs])

theorem not_breaksSizeLine_of_untilClose (hphase : r.phase = .untilClose) :
    ¬ (r.decode buffer).BreaksSizeLine := by
  rintro ⟨herror, -⟩
  rcases step_untilClose_cases hphase buffer with hs | hs <;> simp [decode_of_answer hs] at herror

theorem not_breaksSizeLine_of_head {t : ResponseText} (h : t.WellFormedHead)
    (hchunked : isBodiless t.status = false → isChunked t.fields = false) (behind : Bytes) :
    ¬ (ResponseReader.decode {} (t.head ++ behind)).BreaksSizeLine := by
  obtain ⟨hdecode, hstep⟩ := decode_head h behind
  have hstarts := starts_startBody (behindHead t) behind
  rw [← hstep] at hstarts
  rw [hdecode]
  generalize hs : ((behindStatus t).withLines t.lines).step (Bytes.crlf ++ behind) = step at hstarts
  cases hstarts with
  | ends =>
    rw [decode_of_answer hs]
    exact Answer.not_breaksSizeLine_of_ok rfl
  | opens hbody hopens =>
    rw [decode_of_again hs]
    cases hopens with
    | chunked htrue => exact absurd (hchunked hbody) (by simpa [behindHead] using htrue)
    | sized => exact not_breaksSizeLine_of_body rfl
    | untilClose => exact not_breaksSizeLine_of_untilClose rfl
  | noLength _ _ hlength =>
    obtain rfl := statedLength_eq_error hlength
    rw [decode_of_answer hs]
    simp [Answer.BreaksSizeLine]
  | tooLong =>
    rw [decode_of_answer hs]
    simp [Answer.BreaksSizeLine]

/-- No cut behind the head breaks a size line that fits behind the head. -/
theorem unbroken_behindHead {t : ResponseText} (h : t.WellFormed)
    (hfit : ∀ line ∈ t.body.sizeLines, t.head.length + (line.length + 2) ≤ maxHeadBytes) :
    Unbroken (fun behind => ResponseReader.decode {} (t.head ++ behind)) t.body.bytes := by
  have hframed := h.framed
  cases hform : t.body with
  | bodiless =>
    have hstatus : isBodiless t.status = true := h.bodiless_iff.2 hform
    exact fun behind _ => not_breaksSizeLine_of_head h.wellFormedHead (by simp [hstatus]) behind
  | sized | untilClose =>
    rw [hform] at hframed
    exact fun behind _ => not_breaksSizeLine_of_head h.wellFormedHead
      (fun _ => isChunked_of_not_has hframed.1) behind
  | chunked text =>
    have hbodied : t.body ≠ .bodiless := by simp [hform]
    have hlength := h.head_length
    have hbody := h.body_length
    simp only [hform, BodyText.FramedBy, BodyText.body, BodyText.trailerLines,
      BodyText.sizeLines] at hframed hlength hbody hfit
    have hchunked : isChunked (behindHead t).headers = true := isChunked_of_endChunked hframed
    have hread (behind : Bytes) : ResponseReader.decode {} (t.head ++ behind) =
        ResponseReader.decode { behindHead t with phase := .chunkSize } behind := by
      obtain ⟨hdecode, hstep⟩ := decode_head h.wellFormedHead behind
      rw [startBody, isBodiless_eq_false h hbodied, hchunked] at hstep
      rw [hdecode, decode_of_again hstep]
    have hchunks := unbroken_chunkedText (r := { behindHead t with phase := .chunkSize }) text rfl
      (show 0 + text.body.length ≤ maxBodyBytes by omega) hlength hfit
    intro behind hbehind
    dsimp only
    rw [hread]
    exact hchunks behind hbehind

/-- **A response is never broken** by a cut when each of its size lines fits behind its head. -/
theorem unbroken_text {t : ResponseText} (h : t.WellFormed)
    (hfit : ∀ line ∈ t.body.sizeLines, t.head.length + (line.length + 2) ≤ maxHeadBytes) :
    Unbroken (ResponseReader.decode {}) t.bytes := by
  have hhead : FitsIn {} maxHeadBytes t.head := by
    rw [FitsIn, Nat.zero_add]
    exact h.wellFormedHead.head_length
  exact (unbroken_of_fitsIn hhead).append (fun _ => rfl) (unbroken_behindHead h hfit)

/-- A response that reading has to come to: all of it is read at the end of the stream. -/
theorem result_decodeEnd {t : ResponseText} (h : t.WellFormed) :
    (ResponseReader.decodeEnd {} t.bytes).result = .ok (some t.response) := by
  have hdelimited (hd : t.body.IsDelimited) :
      (ResponseReader.decodeEnd {} t.bytes).result = .ok (some t.response) := by
    have hwhole := decode_text h hd []
    rw [List.append_nil] at hwhole
    simp only [decodeEnd, hwhole]
  cases hform : t.body with
  | untilClose body => rw [decodeEnd_text h hform]
  | _ => exact hdelimited (by rw [hform]; trivial)

/-- What a call gives back of a part of a response is the response. -/
theorem eq_response_of_decode {t : ResponseText} (h : t.WellFormed) {front : Bytes}
    (hfront : front <+: t.bytes) {response : Response}
    (hresult : (ResponseReader.decode {} front).result = .ok (some response)) :
    response = t.response := by
  obtain ⟨more, hcut⟩ := hfront
  have hcall := decode_append {} front more
  rw [hresult] at hcall
  have hend := result_decodeEnd h
  rw [← hcut] at hend
  simpa [decodeEnd, hcall, hresult] using hend

theorem isInterim_response {t : ResponseText} (h : t.WellFormed) :
    t.response.isInterim = true ↔ t.status < 200 := by
  have hlow := h.status_range.1
  simp [Response.isInterim, ResponseText.response, hlow]

theorem decodeFinal_of_isPrefix {t : ResponseText} (h : t.WellFormed) (hfinal : 200 ≤ t.status)
    {front : Bytes} (hfront : front <+: t.bytes) :
    ResponseReader.decodeFinal {} front = ResponseReader.decode {} front := by
  refine decodeFinal_of_final fun response hresult => ?_
  rw [eq_response_of_decode h hfront hresult, ← Bool.not_eq_true, isInterim_response h]
  exact Nat.not_lt.2 hfinal

theorem unbroken_final {t : ResponseText} (h : t.WellFormed) (hfinal : 200 ≤ t.status)
    (hfit : ∀ line ∈ t.body.sizeLines, t.head.length + (line.length + 2) ≤ maxHeadBytes) :
    Unbroken (ResponseReader.decodeFinal {}) t.bytes := by
  intro front hfront
  rw [decodeFinal_of_isPrefix h hfinal hfront]
  exact unbroken_text h hfit front hfront

theorem bodiless_of_interim {t : ResponseText} (h : t.WellFormed) (hinterim : t.status < 200) :
    t.body = .bodiless := by
  have hlow := h.status_range.1
  exact h.bodiless_iff.1 (by simp [isBodiless, hlow, hinterim])

/-- **An interim response is read over**, whatever follows it. -/
theorem decodeFinal_interim {t : ResponseText} (h : t.WellFormed) (hinterim : t.status < 200)
    (following : Bytes) :
    ResponseReader.decodeFinal {} (t.bytes ++ following) =
      ResponseReader.decodeFinal {} following := by
  have hread := decode_bodiless h (bodiless_of_interim h hinterim) following
  rw [decodeFinal_of_interim (by rw [hread]) ((isInterim_response h).2 hinterim), hread]

theorem unbroken_interim {t : ResponseText} (h : t.WellFormed) (hinterim : t.status < 200)
    {following : Bytes} (hbehind : Unbroken (ResponseReader.decodeFinal {}) following) :
    Unbroken (ResponseReader.decodeFinal {}) (t.bytes ++ following) := by
  have hhead : FitsIn {} maxHeadBytes t.bytes := by
    rw [FitsIn, Nat.zero_add, ResponseText.bytes, bodiless_of_interim h hinterim, BodyText.bytes,
      List.append_nil]
    exact h.wellFormedHead.head_length
  exact (unbroken_decodeFinal_of_fitsIn hhead).append (decodeFinal_interim h hinterim) hbehind

/-- **Any number of interim responses is read over**, and where what follows them is not broken by a
cut, nor is the whole. -/
theorem decodeFinal_interims {interim : List ResponseText}
    (h : ∀ t ∈ interim, t.WellFormed ∧ t.status < 200) (following : Bytes) :
    ResponseReader.decodeFinal {} (interim.flatMap ResponseText.bytes ++ following) =
        ResponseReader.decodeFinal {} following ∧
      (Unbroken (ResponseReader.decodeFinal {}) following →
        Unbroken (ResponseReader.decodeFinal {})
          (interim.flatMap ResponseText.bytes ++ following)) := by
  induction interim with
  | nil => exact ⟨rfl, id⟩
  | cons t interim ih =>
    obtain ⟨⟨ht, hstatus⟩, hinterim⟩ := List.forall_mem_cons.1 h
    obtain ⟨hread, hunbroken⟩ := ih hinterim
    rw [List.flatMap_cons, List.append_assoc, decodeFinal_interim ht hstatus, hread]
    exact ⟨rfl, fun hbehind => unbroken_interim ht hstatus (hunbroken hbehind)⟩

end ResponseReader

end WebClient.Http
