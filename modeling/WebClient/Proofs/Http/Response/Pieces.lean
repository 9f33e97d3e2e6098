import WebClient.Http.Response.Drain
import WebClient.Proofs.Bytes
import WebClient.Proofs.Text.Utf8

/-!
# Responses that come in pieces

A reader of responses may be stopped anywhere between two steps. A step with more bytes behind its
buffer comes to one of three things (`step_append`): it does what it did before and leaves the new
bytes behind what it leaves; or it waited before, and now does what a step from where it waited
would do; or it refused the buffer before, and refuses it still. There is one exception to the
last. A line that is not complete is refused when it no longer fits the head, and the line of a
chunk's size is the one line that is not refused when it is complete. `BreaksSizeLine` says that a
reading ends there, and `feed_outcome_eq_iff` that nothing else depends on how a stream is cut. The
last section shows a stream that is cut there.
-/

namespace WebClient.Http.ResponseReader

/-! ### One step -/

def Step.extend (more : Bytes) : Step → Step
  | .again r rest => .again r (rest ++ more)
  | .answer result r rest => .answer result r (rest ++ more)

def Step.Waits : Step → Prop
  | .answer (.ok none) _ _ => True
  | _ => False

/-- What matters of a reader behind an error. -/
def afterError (r : ResponseReader) : ResponseReader :=
  { phase := r.phase }

/-- What matters of a step: behind an error nothing is read, so all that is kept of the reader is
where it stood. -/
def Step.seen : Step → Step
  | .answer (.error e) r _ => .answer (.error e) r.afterError []
  | s => s

/-- What is done with a line passes on the bytes behind it, and does not ask for more. -/
def PassesOn (next : String → ResponseReader → Bytes → Step) : Prop :=
  ∀ line r rest more, ¬ (next line r rest).Waits ∧
    next line r (rest ++ more) = (next line r rest).extend more

theorem phase_countLine (r : ResponseReader) (bytes : Nat) :
    (r.countLine bytes).phase = r.phase := by
  unfold countLine
  split <;> rfl

theorem headBytes_countLine {r : ResponseReader} (h : r.phase.countsLines = true) (bytes : Nat) :
    (r.countLine bytes).headBytes = r.headBytes + bytes := by
  simp [countLine, h]

theorem withLine_append {next : String → ResponseReader → Bytes → Step} (hnext : PassesOn next)
    (r : ResponseReader) (buffer more : Bytes) :
    (¬ (r.withLine buffer next).Waits ∧
      r.withLine (buffer ++ more) next = (r.withLine buffer next).extend more) ∨
    r.withLine buffer next = .answer (.ok none) r buffer ∨
    (r.withLine buffer next = .answer (.error .headTooLarge) r buffer ∧
      (r.phase.countsLines = true →
        (r.withLine (buffer ++ more) next).seen =
          .answer (.error .headTooLarge) r.afterError [])) := by
  cases hline : buffer.splitLine? with
  | some cut =>
    obtain ⟨line, rest⟩ := cut
    refine .inl ?_
    simp only [withLine, hline, Bytes.splitLine?_append more hline]
    split
    · exact ⟨id, rfl⟩
    · split
      · exact ⟨id, rfl⟩
      · exact hnext _ _ _ _
  | none =>
    refine .inr ?_
    by_cases hlong : r.headBytes + buffer.length > maxHeadBytes
    · refine .inr ⟨by simp only [withLine, hline, if_pos hlong], fun hcounts => ?_⟩
      cases hwhole : (buffer ++ more).splitLine? with
      | none =>
        have hstill : r.headBytes + (buffer ++ more).length > maxHeadBytes := by
          rw [List.length_append]
          omega
        simp only [withLine, hwhole, if_pos hstill, Step.seen]
      | some cut =>
        obtain ⟨line, rest⟩ := cut
        have hlt := Bytes.length_lt_of_splitLine?_append hline hwhole
        have hcount := headBytes_countLine hcounts (line.length + 2)
        have htoo : (r.countLine (line.length + 2)).headBytes > maxHeadBytes := by omega
        simp only [withLine, hwhole, phase_countLine, hcounts, htoo, decide_true, Bool.and_self,
          if_true, Step.seen, afterError]
    · exact .inl (by simp only [withLine, hline, if_neg hlong])

theorem startBody_append (r : ResponseReader) (rest more : Bytes) :
    ¬ (r.startBody rest).Waits ∧ r.startBody (rest ++ more) = (r.startBody rest).extend more := by
  unfold startBody finish
  repeat' split
  all_goals exact ⟨id, rfl⟩

@[simp] theorem addBody_nil (r : ResponseReader) : r.addBody [] = r := by
  simp [addBody]

@[simp] theorem addBody_append (r : ResponseReader) (taken more : Bytes) :
    (r.addBody taken).addBody more = r.addBody (taken ++ more) := by
  simp [addBody, ByteArray.append_assoc]

@[simp] theorem size_addBody (r : ResponseReader) (taken : Bytes) :
    (r.addBody taken).body.size = r.body.size + taken.length := by
  simp [addBody]

@[simp] theorem phase_addBody (r : ResponseReader) (taken : Bytes) :
    (r.addBody taken).phase = r.phase := rfl

/-- What a step does when there are more bytes behind its buffer. -/
inductive Resumes (r : ResponseReader) (buffer more : Bytes) : Prop
  /-- The step had what it needed. -/
  | decided (hdecided : ¬ (r.step buffer).Waits)
      (heq : r.step (buffer ++ more) = (r.step buffer).extend more)
  /-- The step waited, and a step from where it left off makes up for it. -/
  | waited (r' : ResponseReader) (rest : Bytes)
      (hwaited : r.step buffer = .answer (.ok none) r' rest)
      (heq : (r.step (buffer ++ more)).seen = (r'.step (rest ++ more)).seen)
  /-- The step refused a buffer that is too long, which more bytes can mend only in the line of a
  chunk's size. -/
  | refused (e : ReadError) (hrefused : r.step buffer = .answer (.error e) r buffer)
      (heq : r.phase = .chunkSize ∧ e = .headTooLarge ∨
        (r.step (buffer ++ more)).seen = .answer (.error e) r.afterError [])

theorem resumes_of_withLine {next : String → ResponseReader → Bytes → Step} (hnext : PassesOn next)
    {r : ResponseReader} {buffer : Bytes} (more : Bytes)
    (hstep : ∀ bytes, r.step bytes = r.withLine bytes next)
    (hphase : r.phase = .chunkSize ∨ r.phase.countsLines = true) : Resumes r buffer more := by
  rcases withLine_append hnext r buffer more with ⟨hdecided, heq⟩ | hwaited | ⟨hrefused, heq⟩
  · exact .decided (by rwa [hstep]) (by rw [hstep, hstep, heq])
  · exact .waited r buffer (by rw [hstep, hwaited]) rfl
  · refine .refused _ (by rw [hstep, hrefused]) ?_
    rcases hphase with hphase | hcounts
    · exact .inl ⟨hphase, rfl⟩
    · exact .inr (by rw [hstep]; exact heq hcounts)

theorem resumes_body {r : ResponseReader} {length : Nat} (hphase : r.phase = .body length)
    (buffer more : Bytes) : Resumes r buffer more := by
  -- A buffer that is too short is taken whole, so a later step takes what a single one would have.
  by_cases hshort : r.body.size + buffer.length < length
  · have htake : buffer.take (length - r.body.size) = buffer :=
      List.take_of_length_le (by omega)
    have hdrop : buffer.drop (length - r.body.size) = [] :=
      List.drop_of_length_le (by omega)
    refine .waited (r.addBody buffer) [] ?_ ?_
    · have hne : r.body.size + buffer.length ≠ length := by omega
      simp only [step, hphase, List.splitAt_eq, htake, hdrop, size_addBody, if_neg hne]
    · have hneed : length - r.body.size - buffer.length =
          length - (r.body.size + buffer.length) := by omega
      simp only [step, hphase, phase_addBody, List.splitAt_eq, List.nil_append, List.take_append,
        List.drop_append, htake, hdrop, hneed, addBody_append, size_addBody]
  · have hle : length - r.body.size ≤ buffer.length := by omega
    by_cases hdone : r.body.size + (length - r.body.size) = length
    · have hsize : (r.addBody (buffer.take (length - r.body.size))).body.size = length := by
        rw [size_addBody, List.length_take, Nat.min_eq_left hle, hdone]
      refine .decided ?_ ?_
      · simp only [step, hphase, List.splitAt_eq, if_pos hsize, finish]
        exact id
      · simp only [step, hphase, List.splitAt_eq, List.take_append_of_le_length hle,
          List.drop_append_of_le_length hle, if_pos hsize, finish, Step.extend]
    · have hzero : length - r.body.size = 0 := by omega
      have hne : r.body.size ≠ length := by omega
      refine .waited r buffer ?_ rfl
      simp only [step, hphase, List.splitAt_eq, hzero, List.take_zero, List.drop_zero, addBody_nil,
        if_neg hne]

theorem resumes_chunkData {r : ResponseReader} {remaining : Nat}
    (hphase : r.phase = .chunkData remaining) (buffer more : Bytes) : Resumes r buffer more := by
  by_cases hshort : buffer.length < remaining
  · have htake : buffer.take remaining = buffer := List.take_of_length_le (by omega)
    have hdrop : buffer.drop remaining = [] := List.drop_of_length_le (by omega)
    refine .waited { r.addBody buffer with phase := .chunkData (remaining - buffer.length) } []
      ?_ ?_
    · simp only [step, hphase, List.splitAt_eq, htake, hdrop, if_pos hshort]
    · have hwaits : buffer.length + (more.take (remaining - buffer.length)).length < remaining ↔
          (more.take (remaining - buffer.length)).length < remaining - buffer.length := by omega
      simp only [step, hphase, List.splitAt_eq, List.nil_append, List.take_append, List.drop_append,
        htake, hdrop, List.length_append, hwaits, Nat.sub_add_eq, addBody, List.toByteArray_append,
        ByteArray.append_assoc]
  · have hle : remaining ≤ buffer.length := by omega
    have hall : ¬ (buffer.take remaining).length < remaining := by
      rw [List.length_take]
      omega
    refine .decided ?_ ?_
    · simp only [step, hphase, List.splitAt_eq, if_neg hall]
      exact id
    · simp only [step, hphase, List.splitAt_eq, List.take_append_of_le_length hle,
        List.drop_append_of_le_length hle, if_neg hall, Step.extend]

theorem step_untilClose_cases {r : ResponseReader} (hphase : r.phase = .untilClose)
    (buffer : Bytes) : r.step buffer = .answer (.error .bodyTooLarge) r buffer ∨
      r.step buffer = .answer (.ok none) (r.addBody buffer) [] := by
  simp only [step, hphase]
  split
  · exact .inl rfl
  · exact .inr rfl

theorem resumes_untilClose {r : ResponseReader} (hphase : r.phase = .untilClose)
    (buffer more : Bytes) : Resumes r buffer more := by
  by_cases hlong : r.body.size + buffer.length > maxBodyBytes
  · have hstill : r.body.size + (buffer ++ more).length > maxBodyBytes := by
      rw [List.length_append]
      omega
    refine .refused .bodyTooLarge (by simp only [step, hphase, if_pos hlong]) (.inr ?_)
    simp only [step, hphase, if_pos hstill, Step.seen]
  · refine .waited (r.addBody buffer) [] (by simp only [step, hphase, if_neg hlong]) ?_
    simp only [step, hphase, phase_addBody, size_addBody, addBody_append, List.nil_append,
      List.length_append, Nat.add_assoc]
    split <;> simp only [Step.seen, afterError, phase_addBody]

theorem resumes_chunkEnd {r : ResponseReader} (hphase : r.phase = .chunkEnd)
    (buffer more : Bytes) : Resumes r buffer more := by
  rcases buffer with _ | ⟨first, _ | ⟨second, rest⟩⟩
  · exact .waited r [] (by simp only [step, hphase]) rfl
  · exact .waited r [first] (by simp only [step, hphase]) rfl
  · by_cases hend : first = 13 ∧ second = 10
    · obtain ⟨rfl, rfl⟩ := hend
      exact .decided (by simp only [step, hphase]; exact id) (by simp only [step, hphase]; rfl)
    · have hbad : ∀ bytes, r.step (first :: second :: bytes) =
          .answer (.error .missingChunkEnd) r (first :: second :: bytes) := by
        intro bytes
        simp only [step, hphase]
        split
        · next heq =>
          simp only [List.cons.injEq] at heq
          exact absurd ⟨heq.1, heq.2.1⟩ hend
        · rfl
        · next hno => exact absurd rfl (hno first second bytes)
      refine .decided ?_ ?_
      · rw [hbad]
        exact id
      · rw [List.cons_append, List.cons_append, hbad, hbad]
        rfl

/-- **A step may be taken early.** -/
theorem step_append (r : ResponseReader) (buffer more : Bytes) : Resumes r buffer more := by
  cases hphase : r.phase with
  | statusLine =>
    have hcounts : r.phase.countsLines = true := by rw [hphase, Phase.countsLines]
    refine resumes_of_withLine ?_ more (fun _ => by simp only [step, hphase]; rfl) (.inr hcounts)
    intro line r₁ rest more
    dsimp only
    repeat' split
    all_goals exact ⟨id, rfl⟩
  | headers =>
    have hcounts : r.phase.countsLines = true := by rw [hphase, Phase.countsLines]
    refine resumes_of_withLine ?_ more (fun _ => by simp only [step, hphase]; rfl) (.inr hcounts)
    intro line r₁ rest more
    dsimp only
    split
    · exact startBody_append r₁ rest more
    · split <;> exact ⟨id, rfl⟩
  | body length => exact resumes_body hphase buffer more
  | untilClose => exact resumes_untilClose hphase buffer more
  | chunkSize =>
    refine resumes_of_withLine ?_ more (fun _ => by simp only [step, hphase]; rfl) (.inl hphase)
    intro line r₁ rest more
    dsimp only
    repeat' split
    all_goals exact ⟨id, rfl⟩
  | chunkData remaining => exact resumes_chunkData hphase buffer more
  | chunkEnd => exact resumes_chunkEnd hphase buffer more
  | trailers =>
    have hcounts : r.phase.countsLines = true := by rw [hphase, Phase.countsLines]
    refine resumes_of_withLine ?_ more (fun _ => by simp only [step, hphase]; rfl) (.inr hcounts)
    intro line r₁ rest more
    dsimp only
    repeat' split
    all_goals exact ⟨id, rfl⟩

theorem step_append_of_again {r r' : ResponseReader} {buffer rest : Bytes}
    (h : r.step buffer = .again r' rest) (more : Bytes) :
    r.step (buffer ++ more) = .again r' (rest ++ more) := by
  rcases step_append r buffer more with ⟨-, heq⟩ | ⟨r₁, rest₁, hwaited, -⟩ | ⟨e, hrefused, -⟩
  · rw [heq, h]
    rfl
  · simp [h] at hwaited
  · simp [h] at hrefused

/-! ### One call -/

theorem decode_of_again {r r' : ResponseReader} {buffer rest : Bytes}
    (h : r.step buffer = .again r' rest) : r.decode buffer = r'.decode rest := by
  rw [decode]
  split
  · next ha => simp [h] at ha
  · next ha =>
    obtain ⟨rfl, rfl⟩ := by simpa only [h, Step.again.injEq] using ha
    rfl

theorem decode_of_answer {r r' : ResponseReader} {buffer rest : Bytes}
    {result : Except ReadError (Option Response)} (h : r.step buffer = .answer result r' rest) :
    r.decode buffer = { result, reader := r', rest } := by
  rw [decode]
  split
  · next ha =>
    obtain ⟨rfl, rfl, rfl⟩ := by simpa only [h, Step.answer.injEq] using ha
    rfl
  · next ha => simp [h] at ha

def Answer.seen (answer : Answer) : Answer :=
  match answer.result with
  | .ok _ => answer
  | .error _ => { answer with reader := answer.reader.afterError, rest := [] }

theorem Answer.result_congr {answer other : Answer} (h : answer.seen = other.seen) :
    answer.result = other.result := by
  have hseen (answer : Answer) : answer.seen.result = answer.result := by
    unfold seen
    split <;> rfl
  rw [← hseen, h, hseen]

def Answer.BreaksSizeLine (answer : Answer) : Prop :=
  answer.result = .error .headTooLarge ∧ answer.reader.phase = .chunkSize

theorem Answer.breaksSizeLine_congr {answer other : Answer} (h : answer.seen = other.seen) :
    answer.BreaksSizeLine ↔ other.BreaksSizeLine := by
  have hseen (answer : Answer) : answer.seen.BreaksSizeLine ↔ answer.BreaksSizeLine := by
    unfold seen
    split <;> rfl
  rw [← hseen, h, hseen]

theorem decode_seen_congr {r r' : ResponseReader} {buffer buffer' : Bytes}
    (h : (r.step buffer).seen = (r'.step buffer').seen) :
    (r.decode buffer).seen = (r'.decode buffer').seen := by
  cases hs : r.step buffer with
  | again r₁ rest =>
    cases hs' : r'.step buffer' with
    | again r₂ rest₂ =>
      obtain ⟨rfl, rfl⟩ := by simpa only [hs, hs', Step.seen, Step.again.injEq] using h
      rw [decode_of_again hs, decode_of_again hs']
    | answer result₂ r₂ rest₂ =>
      rw [hs, hs'] at h
      cases result₂ <;> simp [Step.seen] at h
  | answer result r₁ rest =>
    cases hs' : r'.step buffer' with
    | again r₂ rest₂ =>
      rw [hs, hs'] at h
      cases result <;> simp [Step.seen] at h
    | answer result₂ r₂ rest₂ =>
      rw [decode_of_answer hs, decode_of_answer hs']
      rw [hs, hs'] at h
      cases result <;> cases result₂ <;> simp_all [Step.seen, Answer.seen]

/-- A call with more bytes behind its buffer: a response is found as before, a call that waited
goes on from where it left off, and an error stands unless it broke the line of a chunk's size. -/
theorem decode_append (r : ResponseReader) (buffer more : Bytes) :
    match (r.decode buffer).result with
    | .ok (some _) =>
      r.decode (buffer ++ more) = { r.decode buffer with rest := (r.decode buffer).rest ++ more }
    | .ok none =>
      (r.decode (buffer ++ more)).seen =
        ((r.decode buffer).reader.decode ((r.decode buffer).rest ++ more)).seen
    | .error _ =>
      (r.decode buffer).BreaksSizeLine ∨
        (r.decode (buffer ++ more)).seen = (r.decode buffer).seen := by
  fun_induction decode r buffer with
  | case1 r buffer result r' rest hs =>
    rcases step_append r buffer more with ⟨hdecided, heq⟩ | ⟨r₁, rest₁, hwaited, heq⟩ |
      ⟨e, hrefused, hsize | heq⟩
    · rw [hs] at hdecided heq
      have hdecode := decode_of_answer heq
      rcases result with e | _ | response
      · refine .inr ?_
        rw [hdecode]
        rfl
      · exact absurd trivial hdecided
      · exact hdecode
    · obtain ⟨rfl, rfl, rfl⟩ := by simpa only [hs, Step.answer.injEq] using hwaited
      exact decode_seen_congr heq
    · obtain ⟨rfl, rfl, rfl⟩ := by simpa only [hs, Step.answer.injEq] using hrefused
      exact .inl ⟨by rw [hsize.2], hsize.1⟩
    · obtain ⟨rfl, rfl, rfl⟩ := by simpa only [hs, Step.answer.injEq] using hrefused
      refine .inr ?_
      rw [← decode_of_answer hs]
      exact decode_seen_congr (by rw [heq, hs]; rfl)
  | case2 r buffer r' rest hs ih =>
    rw [decode_of_again (step_append_of_again hs more)]
    exact ih

/-! ### Draining -/

namespace Drained

def behind (responses : List Response) (d : Drained) : Drained :=
  { d with responses := responses ++ d.responses }

/-- What a caller is given: the responses, and the error that ended the reading. -/
def outcome (d : Drained) : List Response × Option ReadError :=
  (d.responses, d.failure)

def seen (d : Drained) : Drained :=
  match d.failure with
  | none => d
  | some _ => { d with reader := d.reader.afterError, rest := [] }

/-- The reading ended at a line of a chunk's size that was refused before it was complete. -/
def BreaksSizeLine (d : Drained) : Prop :=
  d.failure = some .headTooLarge ∧ d.reader.phase = .chunkSize

theorem outcome_congr {d d' : Drained} (h : d.seen = d'.seen) : d.outcome = d'.outcome := by
  have hseen (d : Drained) : d.seen.outcome = d.outcome := by
    unfold seen
    split <;> rfl
  rw [← hseen, h, hseen]

theorem responses_congr {d d' : Drained} (h : d.seen = d'.seen) : d.responses = d'.responses :=
  congrArg Prod.fst (outcome_congr h)

theorem breaksSizeLine_congr {d d' : Drained} (h : d.seen = d'.seen) :
    d.BreaksSizeLine ↔ d'.BreaksSizeLine := by
  have hseen (d : Drained) : d.seen.BreaksSizeLine ↔ d.BreaksSizeLine := by
    unfold seen
    split <;> rfl
  rw [← hseen, h, hseen]

theorem seen_behind (responses : List Response) (d : Drained) :
    (d.behind responses).seen = d.seen.behind responses := by
  obtain ⟨read, failure, reader, rest⟩ := d
  cases failure <;> rfl

theorem outcome_behind (responses : List Response) (d : Drained) :
    (d.behind responses).outcome = (responses ++ d.outcome.1, d.outcome.2) := rfl

end Drained

/-- What a call comes to when reading goes on behind a response. -/
def Answer.drain (answer : Answer) : Drained :=
  match answer.result with
  | .ok none => { reader := answer.reader, rest := answer.rest }
  | .error e => { failure := some e, reader := answer.reader, rest := answer.rest }
  | .ok (some response) => (answer.reader.drain answer.rest).behind [response]

theorem drain_eq (r : ResponseReader) (buffer : Bytes) :
    r.drain buffer = (r.decode buffer).drain := by
  rw [ResponseReader.drain]
  unfold Answer.drain
  split <;> simp_all [Drained.behind]

theorem Answer.seen_drain (answer : Answer) : answer.seen.drain.seen = answer.drain.seen := by
  unfold Answer.seen
  split
  · rfl
  · next h => simp only [Answer.drain, h, Drained.seen, afterError]

theorem seen_drain_congr {r r' : ResponseReader} {buffer buffer' : Bytes}
    (h : (r.decode buffer).seen = (r'.decode buffer').seen) :
    (r.drain buffer).seen = (r'.drain buffer').seen := by
  rw [drain_eq, drain_eq, ← Answer.seen_drain, h, Answer.seen_drain]

/-- **A drained buffer and the bytes behind it.** A reading that found no error goes on from where
it stopped. An error stands, unless it broke the line of a chunk's size: then more responses may
come. -/
theorem drain_append (r : ResponseReader) (buffer more : Bytes) :
    match (r.drain buffer).failure with
    | none =>
      (r.drain (buffer ++ more)).seen =
        (((r.drain buffer).reader.drain ((r.drain buffer).rest ++ more)).behind
          (r.drain buffer).responses).seen
    | some _ =>
      (r.drain buffer).BreaksSizeLine ∧
          (r.drain buffer).responses <+: (r.drain (buffer ++ more)).responses ∨
        (r.drain (buffer ++ more)).seen = (r.drain buffer).seen := by
  fun_induction ResponseReader.drain r buffer with
  | case1 r buffer answer h =>
    have hcall := decode_append r buffer more
    rw [show (r.decode buffer).result = .ok none from h] at hcall
    exact seen_drain_congr hcall
  | case2 r buffer answer e h =>
    have hresult : (r.decode buffer).result = .error e := h
    have hcall := decode_append r buffer more
    rw [hresult] at hcall
    rcases hcall with hbreaks | hseen
    · have he : e = .headTooLarge := by simpa [hresult] using hbreaks.1
      exact .inl ⟨⟨by rw [he], hbreaks.2⟩, List.nil_prefix⟩
    · refine .inr ?_
      have hdrain : (r.drain (buffer ++ more)).seen = (r.drain buffer).seen :=
        seen_drain_congr hseen
      rw [hdrain, drain_eq]
      simp only [Answer.drain, hresult]
      rfl
  | case3 r buffer answer response h later ih =>
    have hresult : (r.decode buffer).result = .ok (some response) := h
    have hcall := decode_append r buffer more
    rw [hresult] at hcall
    have hwhole : r.drain (buffer ++ more) =
        (answer.reader.drain (answer.rest ++ more)).behind [response] := by
      rw [drain_eq, hcall]
      simp only [Answer.drain, hresult]
      rfl
    rw [hwhole]
    dsimp only
    cases hfailure : later.failure with
    | none =>
      rw [show (answer.reader.drain answer.rest).failure = none from hfailure] at ih
      dsimp only at ih ⊢
      rw [Drained.seen_behind, ih, ← Drained.seen_behind]
      rfl
    | some e =>
      rw [show (answer.reader.drain answer.rest).failure = some e from hfailure] at ih
      dsimp only at ih ⊢
      rcases ih with ⟨hbreaks, hprefix⟩ | hseen
      · exact .inl ⟨⟨hfailure.symm.trans hbreaks.1, hbreaks.2⟩,
          (List.prefix_append_right_inj [response]).2 hprefix⟩
      · refine .inr ?_
        rw [Drained.seen_behind, hseen, ← Drained.seen_behind, ← hfailure]
        rfl

theorem drain_nil : ResponseReader.drain {} [] = { reader := {}, rest := [] } := by
  rw [drain_eq, decode_of_answer rfl]
  rfl

/-- Responses that were read stay read, whatever comes behind. -/
theorem responses_drain_mono (r : ResponseReader) {buffer whole : Bytes} (h : buffer <+: whole) :
    (r.drain buffer).responses <+: (r.drain whole).responses := by
  obtain ⟨more, rfl⟩ := h
  have hmore := drain_append r buffer more
  split at hmore
  · rw [Drained.responses_congr hmore]
    exact List.prefix_append _ _
  · rcases hmore with ⟨-, hprefix⟩ | hseen
    · exact hprefix
    · exact ⟨[], (List.append_nil _).trans (Drained.responses_congr hseen).symm⟩

/-! ### Feeding -/

/-- A reader that has used up its buffer: without more bytes, nothing comes of it. -/
def Exhausted (r : ResponseReader) (buffer : Bytes) : Prop :=
  (r.drain buffer).outcome = ([], none)

theorem exhausted_of_drain {r : ResponseReader} {buffer : Bytes}
    (h : (r.drain buffer).failure = none) :
    (r.drain buffer).reader.Exhausted (r.drain buffer).rest := by
  have hmore := drain_append r buffer []
  rw [h] at hmore
  have houtcome := Drained.outcome_congr hmore
  simp only [List.append_nil, Drained.outcome, Drained.behind, h, Prod.mk.injEq,
    List.self_eq_append_right] at houtcome
  exact Prod.ext houtcome.1 houtcome.2.symm

def upTo (pieces : List Bytes) (count : Nat) : Bytes :=
  (pieces.take count).flatten

theorem upTo_of_length_le {pieces : List Bytes} {count : Nat} (h : pieces.length ≤ count) :
    upTo pieces count = pieces.flatten := by
  rw [upTo, List.take_of_length_le h]

theorem upTo_mono (pieces : List Bytes) {fewer count : Nat} (h : fewer ≤ count) :
    upTo pieces fewer <+: upTo pieces count := by
  obtain ⟨tail, htail⟩ := List.take_prefix_take_left h (l := pieces)
  exact ⟨tail.flatten, by rw [upTo, upTo, ← htail, List.flatten_append]⟩

theorem append_upTo_cons (buffer piece : Bytes) (pieces : List Bytes) (count : Nat) :
    buffer ++ upTo (piece :: pieces) (count + 1) = buffer ++ piece ++ upTo pieces count := by
  rw [upTo, List.take_succ_cons, List.flatten_cons, List.append_assoc, upTo]

theorem Exhausted.not_breaksSizeLine {r : ResponseReader} {buffer : Bytes}
    (h : r.Exhausted buffer) (pieces : List Bytes) :
    ¬ (r.drain (buffer ++ upTo pieces 0)).BreaksSizeLine := by
  rw [upTo, List.take_zero, List.flatten_nil, List.append_nil]
  intro hbreaks
  have hnone : (r.drain buffer).failure = none := congrArg Prod.snd h
  have hsome := hbreaks.1
  simp [hnone] at hsome

theorem feed_cons_of_error {r : ResponseReader} {buffer piece : Bytes} {e : ReadError}
    (h : (r.drain (buffer ++ piece)).failure = some e) (pieces : List Bytes) :
    (r.feed buffer (piece :: pieces)).1 = r.drain (buffer ++ piece) := by
  rw [feed]
  simp only [h]

theorem outcome_feed_cons {r : ResponseReader} {buffer piece : Bytes}
    (h : (r.drain (buffer ++ piece)).failure = none) (pieces : List Bytes) :
    (r.feed buffer (piece :: pieces)).1.outcome =
      (((r.drain (buffer ++ piece)).reader.feed (r.drain (buffer ++ piece)).rest pieces).1.behind
        (r.drain (buffer ++ piece)).responses).outcome := by
  rw [feed]
  simp only [h]
  rfl

/-- **What feeding comes to.** A reader that is fed pieces comes to what it would come to with all
of them at once, or with those up to the first cut inside the line of a chunk's size at which the
line no longer fits the head. -/
theorem feed_outcome {r : ResponseReader} {buffer : Bytes} (h : r.Exhausted buffer)
    (pieces : List Bytes) :
    ∃ count, (r.feed buffer pieces).1.outcome = (r.drain (buffer ++ upTo pieces count)).outcome ∧
      ((r.drain (buffer ++ upTo pieces count)).BreaksSizeLine ∨ count = pieces.length) ∧
      ∀ earlier < count, ¬ (r.drain (buffer ++ upTo pieces earlier)).BreaksSizeLine := by
  induction pieces generalizing r buffer with
  | nil =>
    refine ⟨0, ?_, .inr rfl, fun earlier hlt => absurd hlt (Nat.not_lt_zero earlier)⟩
    rw [upTo, List.take_nil, List.flatten_nil, List.append_nil, h]
    rfl
  | cons piece pieces ih =>
    have hfirst := h.not_breaksSizeLine (piece :: pieces)
    have hmore (count : Nat) := drain_append r (buffer ++ piece) (upTo pieces count)
    cases hfailure : (r.drain (buffer ++ piece)).failure with
    | none =>
      -- The first piece is read without an error: the rest is read from where that stopped.
      simp only [hfailure] at hmore
      obtain ⟨count, houtcome, hlast, hearlier⟩ := ih (exhausted_of_drain hfailure)
      have hcut (count : Nat) :
          (r.drain (buffer ++ upTo (piece :: pieces) (count + 1))).BreaksSizeLine ↔
            ((r.drain (buffer ++ piece)).reader.drain
              ((r.drain (buffer ++ piece)).rest ++ upTo pieces count)).BreaksSizeLine := by
        rw [append_upTo_cons, Drained.breaksSizeLine_congr (hmore count)]
        rfl
      refine ⟨count + 1, ?_, ?_, ?_⟩
      · rw [append_upTo_cons, Drained.outcome_congr (hmore count), outcome_feed_cons hfailure,
          Drained.outcome_behind, houtcome, ← Drained.outcome_behind]
      · rw [hcut]
        exact hlast.imp_right (congrArg (· + 1))
      · intro earlier hlt
        cases earlier with
        | zero => exact hfirst
        | succ earlier =>
          rw [hcut]
          exact hearlier earlier (by omega)
    | some e =>
      simp only [hfailure] at hmore
      rw [feed_cons_of_error hfailure]
      by_cases hbreaks : (r.drain (buffer ++ piece)).BreaksSizeLine
      · have hone : buffer ++ upTo (piece :: pieces) 1 = buffer ++ piece := by
          rw [append_upTo_cons]
          exact List.append_nil _
        refine ⟨1, by rw [hone], .inl (by rwa [hone]), fun earlier hlt => ?_⟩
        rwa [show earlier = 0 by omega]
      · -- The error stands, whatever comes behind, so there is no cut inside the line of a size.
        have hstands (count : Nat) : (r.drain (buffer ++ upTo (piece :: pieces) (count + 1))).seen =
            (r.drain (buffer ++ piece)).seen := by
          rw [append_upTo_cons]
          exact (hmore count).resolve_left fun hcut => hbreaks hcut.1
        refine ⟨pieces.length + 1, (Drained.outcome_congr (hstands _)).symm, .inr rfl, ?_⟩
        intro earlier hlt
        cases earlier with
        | zero => exact hfirst
        | succ earlier => rwa [Drained.breaksSizeLine_congr (hstands earlier)]

/-- **When the cuts of a stream matter.** A fresh reader that is fed a stream in pieces gives back
the same responses, and finds the same error or none, as one that is given the whole stream, exactly
when this holds: wherever the stream is cut inside the line of a chunk's size, so far on that the
head and the part of the line before the cut are longer than a head may be, the reading of the whole
stream ends with that same error before another response. -/
theorem feed_outcome_eq_iff (pieces : List Bytes) :
    (ResponseReader.feed {} [] pieces).1.outcome =
        (ResponseReader.drain {} pieces.flatten).outcome ↔
      ∀ count, (ResponseReader.drain {} (upTo pieces count)).BreaksSizeLine →
        (ResponseReader.drain {} pieces.flatten).outcome =
          (ResponseReader.drain {} (upTo pieces count)).outcome := by
  have hfresh : ResponseReader.Exhausted {} [] := by
    rw [Exhausted, drain_nil]
    rfl
  obtain ⟨last, houtcome, hlast, hearlier⟩ := feed_outcome hfresh pieces
  simp only [List.nil_append] at houtcome hlast hearlier
  constructor
  · intro heq count hbreaks
    have hle : last ≤ count := Nat.le_of_not_lt fun hlt => hearlier count hlt hbreaks
    rcases hlast with hcut | rfl
    · obtain ⟨hwhole, hfailure⟩ := Prod.mk.inj (houtcome.symm.trans heq)
      have hfewer := responses_drain_mono {} (upTo_mono pieces hle)
      have hmore := responses_drain_mono {}
        (upTo_mono pieces (Nat.le_max_left count pieces.length))
      rw [upTo_of_length_le (Nat.le_max_right _ _), ← hwhole] at hmore
      refine Prod.ext ?_ ?_
      · exact hwhole.symm.trans (hfewer.eq_of_length_le hmore.length_le)
      · exact hfailure.symm.trans (hcut.1.trans hbreaks.1.symm)
    · rw [upTo_of_length_le hle]
  · intro hall
    rw [houtcome]
    rcases hlast with hcut | rfl
    · exact (hall last hcut).symm
    · rw [upTo_of_length_le (Nat.le_refl _)]

/-! ### A cut that matters -/

/-- The line of a chunk's size is refused when it grows too long before it is complete. -/
theorem step_of_long_sizeLine {r : ResponseReader} (hphase : r.phase = .chunkSize) {line : Bytes}
    (hline : 13 ∉ line) (hlong : r.headBytes + line.length > maxHeadBytes) :
    r.step line = .answer (.error .headTooLarge) r line := by
  simp only [step, hphase, withLine, Bytes.splitLine?_eq_none_of_not_mem hline, if_pos hlong]

theorem step_of_sizeLine {r : ResponseReader} (hphase : r.phase = .chunkSize) {line : String}
    {size : Nat} (hline : 13 ∉ Bytes.ofString line) (hsize : readChunkSize line = some size)
    (hpos : 0 < size) (hle : r.body.size + size ≤ maxBodyBytes) (after : Bytes) :
    r.step (Bytes.ofString line ++ Bytes.crlf ++ after) =
      .again { r with phase := .chunkData size } after := by
  simp only [step, hphase, withLine, Bytes.splitLine?_of_not_mem hline, countLine,
    Phase.countsLines, Bool.false_and, Bool.false_eq_true, if_false, Utf8.decode?_ofString, hsize,
    if_neg (Nat.not_lt.2 hle), if_neg (Nat.ne_of_gt hpos)]

def chunkedHead : Bytes :=
  Bytes.ofString "HTTP/1.1 200 OK\r\n" ++ Bytes.ofString "transfer-encoding: chunked\r\n" ++
    Bytes.crlf

/-- A reader that has read the two lines of this head, and so much of a body. -/
def behindLines (phase : Phase) (headBytes : Nat) (body : Bytes) : ResponseReader :=
  { phase, status := 200, reason := some "OK", headers := [⟨"transfer-encoding", "chunked"⟩],
    headBytes, body := body.toByteArray }

theorem isChunked_chunkedHead : isChunked [⟨"transfer-encoding", "chunked"⟩] = true := by
  have hlower : (Text.lower "chunked").toList = "chunked".toList := by simp [Text.lower]
  simp only [isChunked, Headers.values, Field.isNamed, Text.eqIgnoringCase_refl, List.filter_cons,
    List.filter_nil, if_true, List.map_cons, List.map_nil, List.any_cons, List.any_nil, hlower,
    Bool.or_false]
  decide

theorem decode_chunkedHead (more : Bytes) :
    ResponseReader.decode {} (chunkedHead ++ more) =
      (behindLines .chunkSize 47 []).decode more := by
  have hstatus : ResponseReader.step {} (Bytes.ofString "HTTP/1.1 200 OK\r\n") =
      .again { phase := .headers, status := 200, reason := some "OK", headBytes := 17 } [] := rfl
  have hfield : ResponseReader.step
      { phase := .headers, status := 200, reason := some "OK", headBytes := 17 }
      (Bytes.ofString "transfer-encoding: chunked\r\n") =
        .again (behindLines .headers 45 []) [] := rfl
  have hempty : (behindLines .headers 45 []).step Bytes.crlf =
      .again (behindLines .chunkSize 47 []) [] := by
    have hbody : (behindLines .headers 45 []).step Bytes.crlf =
        (behindLines .headers 47 []).startBody [] := rfl
    have hchunked : isChunked (behindLines .headers 47 []).headers = true := isChunked_chunkedHead
    rw [hbody, startBody, if_neg (by decide), if_pos hchunked]
    rfl
  rw [chunkedHead, List.append_assoc, List.append_assoc,
    decode_of_again (step_append_of_again hstatus _), List.nil_append,
    decode_of_again (step_append_of_again hfield _), List.nil_append,
    decode_of_again (step_append_of_again hempty _), List.nil_append]

/-- The line of a chunk of one byte, with an extension that is as long as a head may be. -/
def longSizeLine : String :=
  String.ofList ('1' :: ';' :: List.replicate maxHeadBytes 'a')

theorem ofString_longSizeLine :
    Bytes.ofString longSizeLine = 49 :: 59 :: List.replicate maxHeadBytes 97 := by
  have hascii : ∀ c ∈ '1' :: ';' :: List.replicate maxHeadBytes 'a', c.toNat < 0x80 := by
    intro c hc
    simp only [List.mem_cons, List.mem_replicate] at hc
    rcases hc with rfl | rfl | ⟨-, rfl⟩ <;> decide
  rw [longSizeLine, Bytes.ofString_ofList_of_ascii hascii, List.map_cons, List.map_cons,
    List.map_replicate]
  rfl

theorem not_mem_longSizeLine : 13 ∉ Bytes.ofString longSizeLine := by
  rw [ofString_longSizeLine]
  simp

theorem readChunkSize_longSizeLine : readChunkSize longSizeLine = some 1 := by
  rw [readChunkSize, longSizeLine, String.toList_ofList]
  generalize List.replicate maxHeadBytes 'a' = extension
  rfl

/-- **A cut that matters.** A stream with one response is read in one piece, and refused when it is
cut behind the extension of its first chunk's size. -/
theorem feed_outcome_ne_drain :
    (ResponseReader.feed {} [] [chunkedHead ++ Bytes.ofString longSizeLine,
      Bytes.crlf ++ Bytes.ofString "x\r\n0\r\n\r\n"]).1.outcome = ([], some .headTooLarge) ∧
    (ResponseReader.drain {} [chunkedHead ++ Bytes.ofString longSizeLine,
      Bytes.crlf ++ Bytes.ofString "x\r\n0\r\n\r\n"].flatten).outcome =
        ([{ status := 200, reason := some "OK", headers := [⟨"transfer-encoding", "chunked"⟩],
            body := [120] }], none) := by
  constructor
  · have hlong : (behindLines .chunkSize 47 []).headBytes + (Bytes.ofString longSizeLine).length >
        maxHeadBytes := by
      rw [ofString_longSizeLine, List.length_cons, List.length_cons, List.length_replicate,
        behindLines]
      omega
    have hcut : ResponseReader.drain {} ([] ++ (chunkedHead ++ Bytes.ofString longSizeLine)) =
        { failure := some .headTooLarge, reader := behindLines .chunkSize 47 [],
          rest := Bytes.ofString longSizeLine } := by
      rw [List.nil_append, drain_eq, decode_chunkedHead,
        decode_of_answer (step_of_long_sizeLine rfl not_mem_longSizeLine hlong)]
      simp only [Answer.drain]
    rw [feed, hcut]
    simp only [Drained.outcome]
  · have hsize (after : Bytes) :
        (behindLines .chunkSize 47 []).step
            (Bytes.ofString longSizeLine ++ Bytes.crlf ++ after) =
          .again (behindLines (.chunkData 1) 47 []) after :=
      step_of_sizeLine rfl not_mem_longSizeLine readChunkSize_longSizeLine (by decide) (by decide)
        after
    have hdata : (behindLines (.chunkData 1) 47 []).step (Bytes.ofString "x\r\n0\r\n\r\n") =
        .again (behindLines .chunkEnd 47 [120]) (Bytes.ofString "\r\n0\r\n\r\n") := rfl
    have hend : (behindLines .chunkEnd 47 [120]).step (Bytes.ofString "\r\n0\r\n\r\n") =
        .again (behindLines .chunkSize 47 [120]) (Bytes.ofString "0\r\n\r\n") := rfl
    have hlast : (behindLines .chunkSize 47 [120]).step (Bytes.ofString "0\r\n\r\n") =
        .again (behindLines .trailers 47 [120]) Bytes.crlf := rfl
    have htrailers : (behindLines .trailers 47 [120]).step Bytes.crlf =
        .answer (.ok (some (behindLines .trailers 49 [120]).response)) {} [] := rfl
    rw [List.flatten_cons, List.flatten_cons, List.flatten_nil, List.append_nil, List.append_assoc,
      ← List.append_assoc (Bytes.ofString longSizeLine), drain_eq, decode_chunkedHead,
      decode_of_again (hsize _), decode_of_again hdata, decode_of_again hend,
      decode_of_again hlast, decode_of_answer htrailers]
    simp only [Answer.drain, drain_nil]
    rfl

end WebClient.Http.ResponseReader
