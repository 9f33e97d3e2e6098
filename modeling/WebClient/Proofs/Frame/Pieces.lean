import WebClient.Frame.Drain
import WebClient.Proofs.Bytes

/-!
# Frames that come in pieces

A reader gives back the same frames however the bytes are cut into pieces. What carries this is a
statement about one step: a step that goes on, or is answered with a frame or an error, does the
same with more bytes behind the buffer and leaves them behind what it leaves, and a step that waits
changes neither the reader nor the buffer. From there it passes to a call (`decode_append`), to a
buffer that is drained (`drain_append`) and to pieces that are fed (`feed_eq_drain`).
-/

namespace WebClient.FrameReader

/-! ### One step -/

theorem step_append_of_again {r r' : FrameReader} {buffer rest : Bytes} (more : Bytes)
    (h : r.step buffer = .again r' rest) : r.step (buffer ++ more) = .again r' (rest ++ more) := by
  unfold step at h ⊢
  split at h
  · split at h
    · split at h
      · simp at h
      · next hheader =>
        obtain ⟨rfl, rfl⟩ := by simpa only [Step.again.injEq] using h
        simp only [List.cons_append, hheader]
    · simp at h
  · split at h
    · simp at h
    · next ht =>
      obtain ⟨rfl, rfl⟩ := by simpa only [Step.again.injEq] using h
      simp only [Bytes.take?_append more ht]
  · split at h
    · simp at h
    · next ht =>
      dsimp only at h
      split at h
      · simp at h
      · next hle =>
        obtain ⟨rfl, rfl⟩ := by simpa only [Step.again.injEq] using h
        simp only [Bytes.take?_append more ht, if_neg hle]
  · split at h
    · simp at h
    · split at h <;> simp at h

theorem step_append_of_answer {r r' : FrameReader} {buffer rest : Bytes}
    {result : Except Error (Option Received)} (more : Bytes)
    (h : r.step buffer = .answer result r' rest) (hresult : result ≠ .ok none) :
    r.step (buffer ++ more) = .answer result r' (rest ++ more) := by
  unfold step at h ⊢
  split at h
  · split at h
    · split at h
      · next hheader =>
        obtain ⟨rfl, rfl, rfl⟩ := by simpa only [Step.answer.injEq] using h
        simp only [List.cons_append, hheader]
      · simp at h
    · exact absurd (Step.answer.inj h).1.symm hresult
  · split at h
    · exact absurd (Step.answer.inj h).1.symm hresult
    · simp at h
  · split at h
    · exact absurd (Step.answer.inj h).1.symm hresult
    · next ht =>
      dsimp only at h
      split at h
      · next hlt =>
        obtain ⟨rfl, rfl, rfl⟩ := by simpa only [Step.answer.injEq] using h
        simp only [Bytes.take?_append more ht, if_pos hlt]
      · simp at h
  · split at h
    · next hlt =>
      obtain ⟨rfl, rfl, rfl⟩ := by simpa only [Step.answer.injEq] using h
      simp only [if_pos hlt]
    · next hle =>
      split at h
      · exact absurd (Step.answer.inj h).1.symm hresult
      · next ht =>
        obtain ⟨rfl, rfl, rfl⟩ := by simpa only [Step.answer.injEq] using h
        simp only [Bytes.take?_append more ht, if_neg hle]

theorem eq_of_step_waits {r r' : FrameReader} {buffer rest : Bytes}
    (h : r.step buffer = .answer (.ok none) r' rest) : r' = r ∧ rest = buffer := by
  unfold step at h
  split at h
  · split at h
    · split at h <;> simp at h
    · simpa [eq_comm] using h
  · split at h
    · simpa [eq_comm] using h
    · simp at h
  · split at h
    · simpa [eq_comm] using h
    · dsimp only at h
      split at h <;> simp at h
  · split at h
    · simp at h
    · split at h
      · simpa [eq_comm] using h
      · next payload _ _ =>
        simp only [Step.answer.injEq] at h
        cases hc : (classify _ _ payload).2 <;> rw [hc] at h <;> simp [Except.map] at h

/-! ### One call -/

theorem decode_of_again {r r' : FrameReader} {buffer rest : Bytes}
    (h : r.step buffer = .again r' rest) : r.decode buffer = r'.decode rest := by
  rw [decode]
  split
  · next ha => simp [h] at ha
  · next ha =>
    obtain ⟨rfl, rfl⟩ := by simpa only [h, Step.again.injEq] using ha
    rfl

theorem decode_of_answer {r r' : FrameReader} {buffer rest : Bytes}
    {result : Except Error (Option Received)} (h : r.step buffer = .answer result r' rest) :
    r.decode buffer = { result, reader := r', rest } := by
  rw [decode]
  split
  · next ha =>
    obtain ⟨rfl, rfl, rfl⟩ := by simpa only [h, Step.answer.injEq] using ha
    rfl
  · next ha => simp [h] at ha

theorem decode_append (r : FrameReader) (buffer more : Bytes)
    (h : (r.decode buffer).result ≠ .ok none) :
    r.decode (buffer ++ more) =
      { r.decode buffer with rest := (r.decode buffer).rest ++ more } := by
  fun_induction decode r buffer with
  | case1 r buffer result r' rest hs => exact decode_of_answer (step_append_of_answer more hs h)
  | case2 r buffer r' rest hs ih =>
    rw [decode_of_again (step_append_of_again more hs)]
    exact ih h

theorem step_of_decode_waits (r : FrameReader) (buffer : Bytes)
    (h : (r.decode buffer).result = .ok none) :
    (r.decode buffer).reader.step (r.decode buffer).rest =
      .answer (.ok none) (r.decode buffer).reader (r.decode buffer).rest := by
  fun_induction decode r buffer with
  | case1 r buffer result r' rest hs =>
    dsimp only at h ⊢
    subst h
    obtain ⟨rfl, rfl⟩ := eq_of_step_waits hs
    exact hs
  | case2 r buffer r' rest hs ih => exact ih h

/-- A call that waits has lost nothing: with more bytes, a call from where it stopped comes to the
same as a call from where it began. -/
theorem decode_append_of_waits (r : FrameReader) (buffer more : Bytes)
    (h : (r.decode buffer).result = .ok none) :
    r.decode (buffer ++ more) =
      (r.decode buffer).reader.decode ((r.decode buffer).rest ++ more) := by
  fun_induction decode r buffer with
  | case1 r buffer result r' rest hs =>
    dsimp only at h ⊢
    subst h
    obtain ⟨rfl, rfl⟩ := eq_of_step_waits hs
    rfl
  | case2 r buffer r' rest hs ih =>
    rw [decode_of_again (step_append_of_again more hs)]
    exact ih h

/-! ### Draining -/

def Drained.behind (frames : List Received) (d : Drained) : Drained :=
  { d with frames := frames ++ d.frames }

/-- What a call comes to when reading goes on behind a frame. -/
def Answer.drain (answer : Answer) : Drained :=
  match answer.result with
  | .ok none => { reader := answer.reader, rest := answer.rest }
  | .error e => { failure := some e, reader := answer.reader, rest := answer.rest }
  | .ok (some received) => (answer.reader.drain answer.rest).behind [received]

theorem drain_eq (r : FrameReader) (buffer : Bytes) : r.drain buffer = (r.decode buffer).drain := by
  rw [FrameReader.drain]
  unfold Answer.drain
  split <;> simp_all [Drained.behind]

/-- What a drained buffer comes to when more bytes arrive: an error stands, and otherwise reading
goes on where it stopped. -/
def Drained.resume (d : Drained) (more : Bytes) : Drained :=
  match d.failure with
  | some _ => { d with rest := d.rest ++ more }
  | none => (d.reader.drain (d.rest ++ more)).behind d.frames

theorem Drained.resume_behind (frames : List Received) (d : Drained) (more : Bytes) :
    (d.behind frames).resume more = (d.resume more).behind frames := by
  simp only [resume, behind]
  cases d.failure with
  | none => simp only [List.append_assoc]
  | some e => rfl

/-- **Draining may stop anywhere.** A buffer that is drained before the bytes behind it have come
loses nothing. -/
theorem drain_append (r : FrameReader) (buffer more : Bytes) :
    r.drain (buffer ++ more) = (r.drain buffer).resume more := by
  fun_induction FrameReader.drain r buffer with
  | case1 r buffer answer h =>
    rw [drain_eq, decode_append_of_waits r buffer more h, ← drain_eq]
    rfl
  | case2 r buffer answer e h =>
    have hresult : (r.decode buffer).result = .error e := h
    rw [drain_eq, decode_append r buffer more (by simp [hresult])]
    simp only [Answer.drain, hresult]
    rfl
  | case3 r buffer answer received h later ih =>
    have hresult : (r.decode buffer).result = .ok (some received) := h
    rw [drain_eq, decode_append r buffer more (by simp [hresult])]
    simp only [Answer.drain, hresult]
    rw [ih, ← Drained.resume_behind]
    rfl

/-- A reader waits when its next step can only ask for more bytes. -/
def Waits (r : FrameReader) (buffer : Bytes) : Prop :=
  r.step buffer = .answer (.ok none) r buffer

theorem drain_of_waits {r : FrameReader} {buffer : Bytes} (h : r.Waits buffer) :
    r.drain buffer = { reader := r, rest := buffer } := by
  rw [drain_eq, decode_of_answer h]
  rfl

/-- A buffer that is drained without an error leaves a reader that waits. -/
theorem waits_of_drain (r : FrameReader) (buffer : Bytes) (h : (r.drain buffer).failure = none) :
    (r.drain buffer).reader.Waits (r.drain buffer).rest := by
  fun_induction FrameReader.drain r buffer with
  | case1 r buffer answer hresult => exact step_of_decode_waits r buffer hresult
  | case2 r buffer answer e hresult => simp at h
  | case3 r buffer answer received hresult later ih => exact ih h

/-! ### Feeding -/

/-- The bytes a reading has not used, in the buffer or in pieces that were not read. -/
def joinUnread (fed : Drained × List Bytes) : Drained :=
  { fed.1 with rest := fed.1.rest ++ fed.2.flatten }

theorem feed_eq_drain {r : FrameReader} {buffer : Bytes} (h : r.Waits buffer)
    (pieces : List Bytes) :
    joinUnread (r.feed buffer pieces) = r.drain (buffer ++ pieces.flatten) := by
  induction pieces generalizing r buffer with
  | nil => simp [feed, joinUnread, drain_of_waits h]
  | cons piece pieces ih =>
    rw [List.flatten_cons, ← List.append_assoc, drain_append, feed, Drained.resume]
    cases hfailure : (r.drain (buffer ++ piece)).failure with
    | some e => simp only [joinUnread, hfailure]
    | none =>
      have hwaits := waits_of_drain r (buffer ++ piece) hfailure
      rw [← ih hwaits]
      rfl

/-- **How a stream is cut does not matter.** A fresh reader that is fed a stream in pieces gives
back the same frames and finds the same error, if any, as one that is given the whole stream; it
stands where that one stands, and the bytes it has left unread, with the pieces it was not given,
are the same. -/
theorem feed_pieces_eq_whole (pieces : List Bytes) :
    let fed := FrameReader.feed {} [] pieces
    let whole := FrameReader.drain {} pieces.flatten
    fed.1.frames = whole.frames ∧ fed.1.failure = whole.failure ∧ fed.1.reader = whole.reader ∧
      fed.1.rest ++ fed.2.flatten = whole.rest := by
  have hwaits : FrameReader.Waits {} [] := rfl
  have heq := feed_eq_drain hwaits pieces
  rw [List.nil_append] at heq
  rw [← heq]
  exact ⟨rfl, rfl, rfl, rfl⟩

end WebClient.FrameReader
