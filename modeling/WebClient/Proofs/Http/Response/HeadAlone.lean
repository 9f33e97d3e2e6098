import WebClient.Proofs.Http.Response.Framing

/-!
# Heads without bodies

What a reader makes of a stream that ends with the head of a response. The reader is not told what
was asked, so it takes the status and the fields at their word: where they announce a body, one that
does not come is an error. `ResponseText.EndsAtHead` says that they announce none, and
`decodeEnd_headAlone` that the response is complete in that case and in no other.

A stream that is no longer than a head may be is never refused for its length, however it is cut
(`fitsIn_decode`), so that for such streams the cuts never matter.
-/

namespace WebClient.Http

/-- The status and the fields announce no body, whatever was asked. -/
def ResponseText.EndsAtHead (t : ResponseText) : Prop :=
  t.status = 204 ∨ t.status = 304 ∨
    (∀ value ∈ t.fields.values "Transfer-Encoding",
      ¬ "chunked".toList <:+: (Text.lower value).toList) ∧
    ∀ value ∈ (t.fields.values "Content-Length").head?, ReadsAs value 0

namespace ResponseReader

variable {r : ResponseReader} {buffer : Bytes} {size : Nat}

/-! ### Short streams -/

/-- The head read so far and the bytes that are there are no larger than `size` together. -/
def FitsIn (r : ResponseReader) (size : Nat) (buffer : Bytes) : Prop :=
  r.headBytes + buffer.length ≤ size

/-- What a step leaves still fits, and it has not refused a line for its length. -/
def Step.FitsIn (size : Nat) : Step → Prop
  | .again r rest | .answer (.ok none) r rest => r.FitsIn size rest
  | .answer (.error e) _ _ => e ≠ .headTooLarge
  | .answer (.ok (some _)) _ _ => True

theorem headBytes_countLine_le (r : ResponseReader) (bytes : Nat) :
    (r.countLine bytes).headBytes ≤ r.headBytes + bytes := by
  unfold countLine
  split
  · exact Nat.le_refl _
  · exact Nat.le_add_right _ _

theorem fitsIn_withLine {next : String → ResponseReader → Bytes → Step}
    (hsize : size ≤ maxHeadBytes) (h : r.FitsIn size buffer)
    (hnext : ∀ line bytes rest, (r.countLine bytes).FitsIn size rest →
      (next line (r.countLine bytes) rest).FitsIn size) :
    (r.withLine buffer next).FitsIn size := by
  have hroom : r.headBytes + buffer.length ≤ size := h
  unfold withLine
  split
  · rw [if_neg (Nat.not_lt.2 (Nat.le_trans hroom hsize))]
    exact h
  · next line rest hline =>
    have hlength : buffer.length = line.length + 2 + rest.length := by
      rw [Bytes.eq_of_splitLine? hline]
      simp only [List.length_append, Bytes.crlf, List.length_cons, List.length_nil]
    have hcount := r.headBytes_countLine_le (line.length + 2)
    have hfits : (r.countLine (line.length + 2)).FitsIn size rest := by
      unfold FitsIn
      omega
    have hshort : ¬ (r.countLine (line.length + 2)).headBytes > maxHeadBytes := by omega
    simp only [hshort, decide_false, Bool.and_false, Bool.false_eq_true, if_false]
    split
    · simp [Step.FitsIn]
    · exact hnext _ _ _ hfits

theorem ne_headTooLarge_of_readStatusLine {line : String} {e : ReadError}
    (h : readStatusLine line = .error e) : e ≠ .headTooLarge := by
  simp only [readStatusLine] at h
  repeat' split at h
  all_goals cases h <;> simp

theorem ne_headTooLarge_of_readField {line : String} {e : ReadError}
    (h : readField line = .error e) : e ≠ .headTooLarge := by
  unfold readField at h
  split at h <;> cases h
  simp

theorem statedLength_eq_error {headers : Headers} {e : ReadError}
    (h : statedLength headers = .error e) : e = .invalidLength := by
  unfold statedLength at h
  split at h
  · nomatch h
  · split at h <;> cases h
    rfl

theorem fitsIn_startBody {rest : Bytes} (h : r.FitsIn size rest) :
    (r.startBody rest).FitsIn size := by
  have hstarts := starts_startBody r rest
  generalize r.startBody rest = step at hstarts
  cases hstarts with
  | ends => trivial
  | opens => exact h
  | noLength _ _ hlength =>
    obtain rfl := statedLength_eq_error hlength
    simp [Step.FitsIn]
  | tooLong => simp [Step.FitsIn]

/-- The bytes that a step takes off the buffer are the most that it adds to the head. -/
theorem fitsIn_step (hsize : size ≤ maxHeadBytes) (h : r.FitsIn size buffer) :
    (r.step buffer).FitsIn size := by
  have hroom : r.headBytes + buffer.length ≤ size := h
  unfold step
  cases r.phase with
  | statusLine =>
    refine fitsIn_withLine hsize h fun line bytes rest hrest => ?_
    split
    · exact Nat.le_trans (Nat.add_le_add_right (Nat.zero_le _) _) hrest
    · split
      · next hfailed => exact ne_headTooLarge_of_readStatusLine hfailed
      · exact hrest
  | headers =>
    refine fitsIn_withLine hsize h fun line bytes rest hrest => ?_
    split
    · exact fitsIn_startBody hrest
    · split
      · next hfailed => exact ne_headTooLarge_of_readField hfailed
      · exact hrest
  | body length =>
    simp only [List.splitAt_eq, finish]
    split
    · trivial
    · simp only [Step.FitsIn, FitsIn, addBody, List.length_drop]
      omega
  | untilClose =>
    dsimp only
    split
    · simp [Step.FitsIn]
    · simp only [Step.FitsIn, FitsIn, addBody, List.length_nil]
      omega
  | chunkSize =>
    refine fitsIn_withLine hsize h fun line bytes rest hrest => ?_
    split
    · simp [Step.FitsIn]
    · split
      · simp [Step.FitsIn]
      · exact hrest
  | chunkData remaining =>
    simp only [List.splitAt_eq]
    split
    all_goals
      simp only [Step.FitsIn, FitsIn, addBody, List.length_drop]
      omega
  | chunkEnd =>
    dsimp only
    split
    · next rest =>
      simp only [List.length_cons] at hroom
      simp only [Step.FitsIn, FitsIn]
      omega
    · simp [Step.FitsIn]
    · exact h
  | trailers =>
    refine fitsIn_withLine hsize h fun line bytes rest hrest => ?_
    split
    · trivial
    · split
      · next hfailed => exact ne_headTooLarge_of_readField hfailed
      · exact hrest

def Answer.FitsIn (size : Nat) (answer : Answer) : Prop :=
  (Step.answer answer.result answer.reader answer.rest).FitsIn size

/-- **A short stream is never refused for its length**, and what a call leaves of it is short. -/
theorem fitsIn_decode (hsize : size ≤ maxHeadBytes) (h : r.FitsIn size buffer) :
    (r.decode buffer).FitsIn size := by
  fun_induction ResponseReader.decode r buffer with
  | case1 r buffer result r' rest hs =>
    have hstep := fitsIn_step hsize h
    rwa [hs] at hstep
  | case2 r buffer r' rest hs ih =>
    have hstep := fitsIn_step hsize h
    rw [hs] at hstep
    exact ih hstep

/-! ### The end of the stream behind a head -/

theorem isChunked_eq_false_iff {headers : Headers} : isChunked headers = false ↔
    ∀ value ∈ headers.values "Transfer-Encoding",
      ¬ "chunked".toList <:+: (Text.lower value).toList := by
  rw [← Bool.not_eq_true, isChunked_iff]
  simp only [not_exists, not_and]

theorem statedLength_none_or_zero_iff {headers : Headers} :
    statedLength headers = .ok none ∨ statedLength headers = .ok (some 0) ↔
      ∀ value ∈ (headers.values "Content-Length").head?, ReadsAs value 0 := by
  constructor
  · rintro (hnone | hzero) value hvalue
    · rw [values_of_statedLength hnone] at hvalue
      simp at hvalue
    · obtain ⟨other, hother, hreads⟩ := head?_of_statedLength hzero
      obtain rfl := Option.mem_unique hvalue hother
      exact hreads
  · intro hreads
    cases hhead : (headers.values "Content-Length").head? with
    | none =>
      have hget : headers.get? "content-length" = none := by
        rw [Headers.get?_eq_head?_values, Headers.values_congr lower_contentLength, hhead]
      exact .inl (by simp only [statedLength, hget])
    | some value =>
      have hread : Text.numeral? 10 (Text.maxOfBits 64) (Text.trimChars value.toList) = some 0 :=
        Text.numeral?_eq_some_iff.2 ⟨Nat.zero_le _, hreads value hhead⟩
      exact .inr (statedLength_of_head? hhead hread)

theorem endsAtHead_iff {t : ResponseText} (hfinal : 200 ≤ t.status) :
    t.EndsAtHead ↔ isBodiless t.status = true ∨ isChunked t.fields = false ∧
      (statedLength t.fields = .ok none ∨ statedLength t.fields = .ok (some 0)) := by
  have hstatus : isBodiless t.status = true ↔ t.status = 204 ∨ t.status = 304 := by
    simp only [isBodiless, Bool.or_eq_true, Bool.and_eq_true, decide_eq_true_eq, beq_iff_eq]
    omega
  rw [hstatus, isChunked_eq_false_iff, statedLength_none_or_zero_iff, or_assoc]
  rfl

theorem decodeEnd_of_again {r' : ResponseReader} {rest : Bytes}
    (h : r.step buffer = .again r' rest) : r.decodeEnd buffer = r'.decodeEnd rest :=
  decodeEnd_congr (decode_of_again h)

theorem decodeEnd_of_some {r' : ResponseReader} {rest : Bytes} {response : Response}
    (h : r.step buffer = .answer (.ok (some response)) r' rest) :
    (r.decodeEnd buffer).result = .ok (some response) := by
  simp only [decodeEnd, decode_of_answer h]

theorem decodeEnd_of_error {r' : ResponseReader} {rest : Bytes} {e : ReadError}
    (h : r.step buffer = .answer (.error e) r' rest) :
    (r.decodeEnd buffer).result = .error e := by
  simp only [decodeEnd, decode_of_answer h]

/-- A reader that has just opened a body waits when nothing comes, and when that is the end, the
response is complete if the body ends with the connection. -/
theorem decodeEnd_of_opens {fields : Headers} (hopens : Opens fields r.phase)
    (hbody : r.body = .empty) (hhead : r.headBytes ≤ maxHeadBytes) :
    (r.decodeEnd []).result =
      if r.phase = .untilClose then .ok (some r.response) else .error .closedEarly := by
  have hwaits : r.step [] = .answer (.ok none) r [] := by
    generalize hphase : r.phase = phase at hopens
    cases hopens with
    | chunked =>
      have hline : Bytes.splitLine? [] = none := rfl
      simp only [step, hphase, withLine, hline, List.length_nil, Nat.add_zero,
        if_neg (Nat.not_lt.2 hhead)]
    | sized _ _ hpos => simp [step, hphase, hbody, hpos.ne]
    | untilClose => simp [step, hphase, hbody]
  have hidle : r.isIdle = false := by
    cases hphase : r.phase with
    | statusLine =>
      rw [hphase] at hopens
      cases hopens
    | _ => simp [isIdle, hphase]
  simp only [decodeEnd, decode_of_answer hwaits, hidle, Bool.false_and, Bool.false_eq_true,
    if_false]
  split <;> rfl

/-- **A head with nothing behind it** is a whole response exactly when it announces no body. -/
theorem decodeEnd_headAlone {t : ResponseText} (h : t.WellFormedHead) (hform : t.body = .bodiless)
    (hfinal : 200 ≤ t.status) :
    (t.EndsAtHead → (ResponseReader.decodeEnd {} t.bytes).result = .ok (some t.response)) ∧
      (¬ t.EndsAtHead → ∃ e ∈ [ReadError.closedEarly, .invalidLength, .bodyTooLarge],
        (ResponseReader.decodeEnd {} t.bytes).result = .error e) := by
  have hbytes : t.bytes = t.head ++ [] := by rw [ResponseText.bytes, hform, BodyText.bytes]
  have hresponse : (behindHead t).response = t.response := by
    rw [response_eq, hform]
    simp [BodyText.trailers, BodyText.body, response, behindHead]
  obtain ⟨hdecode, hstep⟩ := decode_head h []
  rw [hbytes, decodeEnd_congr hdecode, endsAtHead_iff hfinal, ← hresponse]
  have hstarts := starts_startBody (behindHead t) []
  generalize hstart : (behindHead t).startBody [] = step at hstarts
  rw [hstart] at hstep
  cases hstarts with
  | ends hends =>
    refine ⟨fun _ => decodeEnd_of_some hstep, fun hnot => absurd ?_ hnot⟩
    cases hbody : isBodiless t.status with
    | true => exact .inl rfl
    | false => exact .inr ((hends hbody).imp_right .inr)
  | opens hbody hopens =>
    have hbody : isBodiless t.status = false := hbody
    rw [decodeEnd_of_again hstep, decodeEnd_of_opens hopens rfl h.head_length]
    cases hopens with
    | chunked hchunked =>
      have hchunked : isChunked t.fields = true := hchunked
      exact ⟨by simp [hbody, hchunked], fun _ => ⟨_, by simp, rfl⟩⟩
    | sized hchunked hlength hpos =>
      have hlength : statedLength t.fields = _ := hlength
      exact ⟨by simp [hbody, hlength, hpos.ne'], fun _ => ⟨_, by simp, rfl⟩⟩
    | untilClose hchunked hlength =>
      exact ⟨fun _ => rfl, fun hnot => absurd (.inr ⟨hchunked, .inl hlength⟩) hnot⟩
  | noLength hbody hchunked hlength =>
    have hbody : isBodiless t.status = false := hbody
    have hlength : statedLength t.fields = _ := hlength
    obtain rfl := statedLength_eq_error hlength
    exact ⟨by simp [hbody, hlength], fun _ => ⟨_, by simp, decodeEnd_of_error hstep⟩⟩
  | tooLong hbody hchunked hlength hlong =>
    have hbody : isBodiless t.status = false := hbody
    have hlength : statedLength t.fields = _ := hlength
    have hpos := Nat.ne_zero_of_lt hlong
    exact ⟨by simp [hbody, hlength, hpos], fun _ => ⟨_, by simp, decodeEnd_of_error hstep⟩⟩

end ResponseReader

end WebClient.Http
