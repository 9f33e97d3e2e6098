import WebClient.Proofs.Http.Response.Pieces

/-!
# The beginnings of a response

A reader that has read the beginning of a response waits for the rest, and then comes to what it
would have come to at once (`decode_resume`). That it waits, and does not refuse the beginning, is
not true of every response: the line of a chunk's size may be refused while it is not complete. It
is true of a response without a body (`decode_waits_of_bodiless`) and of one whose body ends with
the connection (`decode_waits_of_untilClose`), because the reader of such a response never stands in
a body that comes in chunks.
-/

namespace WebClient.Http

def Phase.inChunks : Phase → Bool
  | .chunkSize | .chunkData _ | .chunkEnd | .trailers => true
  | .statusLine | .headers | .body _ | .untilClose => false

namespace ResponseReader

/-! ### Bodies in chunks -/

/-- The reader stands in a body that comes in chunks, and its status has room for a body. -/
structure ReadsChunks (r : ResponseReader) : Prop where
  inChunks : r.phase.inChunks = true
  hasBody : isBodiless r.status = false

def Step.StaysInChunks : Step → Prop
  | .again r _ | .answer (.ok none) r _ => r.ReadsChunks
  | .answer (.ok (some response)) _ _ => isBodiless response.status = false
  | .answer (.error _) _ _ => True

theorem withLine_cases {P : Step → Prop} (r : ResponseReader) (buffer : Bytes)
    (next : String → ResponseReader → Bytes → Step) (hwaits : P (.answer (.ok none) r buffer))
    (hrefuses : ∀ e r' rest, r'.phase = r.phase → P (.answer (.error e) r' rest))
    (hnext : ∀ line bytes rest, P (next line (r.countLine bytes) rest)) :
    P (r.withLine buffer next) := by
  unfold withLine
  split
  · split
    · exact hrefuses _ _ _ rfl
    · exact hwaits
  · dsimp only
    split
    · exact hrefuses _ _ _ (r.phase_countLine _)
    · split
      · exact hrefuses _ _ _ (r.phase_countLine _)
      · exact hnext _ _ _

theorem ReadsChunks.countLine {r : ResponseReader} (h : r.ReadsChunks) (bytes : Nat) :
    (r.countLine bytes).ReadsChunks := by
  unfold ResponseReader.countLine
  split
  · exact ⟨h.inChunks, h.hasBody⟩
  · exact h

theorem ReadsChunks.step {r : ResponseReader} (h : r.ReadsChunks) (buffer : Bytes) :
    (r.step buffer).StaysInChunks := by
  have hinChunks := h.inChunks
  unfold ResponseReader.step
  cases hphase : r.phase with
  | statusLine => simp [hphase, Phase.inChunks] at hinChunks
  | headers => simp [hphase, Phase.inChunks] at hinChunks
  | body length => simp [hphase, Phase.inChunks] at hinChunks
  | untilClose => simp [hphase, Phase.inChunks] at hinChunks
  | chunkSize =>
    refine withLine_cases r buffer _ h (fun _ _ _ _ => trivial) fun line bytes rest => ?_
    split
    · trivial
    · split
      · trivial
      · refine ⟨?_, (h.countLine bytes).hasBody⟩
        dsimp only
        split <;> rfl
  | chunkData remaining =>
    simp only [List.splitAt_eq]
    split <;> exact ⟨rfl, h.hasBody⟩
  | chunkEnd =>
    dsimp only
    split
    · exact ⟨rfl, h.hasBody⟩
    · trivial
    · exact h
  | trailers =>
    refine withLine_cases r buffer _ h (fun _ _ _ _ => trivial) fun line bytes rest => ?_
    have hline := h.countLine bytes
    split
    · exact hline.hasBody
    · split
      · trivial
      · exact ⟨hline.inChunks, hline.hasBody⟩

def Answer.StaysInChunks (answer : Answer) : Prop :=
  (Step.answer answer.result answer.reader answer.rest).StaysInChunks

theorem ReadsChunks.decode {r : ResponseReader} (h : r.ReadsChunks) (buffer : Bytes) :
    (r.decode buffer).StaysInChunks := by
  fun_induction ResponseReader.decode r buffer with
  | case1 r buffer result r' rest hs =>
    have hstep := h.step buffer
    rwa [hs] at hstep
  | case2 r buffer r' rest hs ih =>
    have hstep := h.step buffer
    rw [hs] at hstep
    exact ih hstep

/-! ### How a body in chunks is entered -/

/-- A body in chunks is read only where the status has room for a body. -/
def Framed (r : ResponseReader) : Prop :=
  r.phase.inChunks = true → isBodiless r.status = false

theorem framed_of_phase {r : ResponseReader} (h : r.phase.inChunks = false) : r.Framed :=
  fun hinChunks => absurd hinChunks (Bool.eq_false_iff.1 h)

theorem framed_startBody {r r' : ResponseReader} {rest rest' : Bytes}
    (h : r.startBody rest = .again r' rest') : r'.Framed := by
  unfold startBody finish at h
  split at h
  · nomatch h
  · next hbody =>
    have hbody : isBodiless r.status = false := Bool.eq_false_iff.2 hbody
    repeat' split at h
    all_goals simp only [Step.again.injEq, reduceCtorEq] at h
    all_goals
      obtain ⟨rfl, -⟩ := h
      exact fun _ => hbody

theorem Framed.of_step {r r' : ResponseReader} (h : r.Framed) {buffer rest : Bytes}
    (hs : r.step buffer = .again r' rest) : r'.Framed := by
  by_cases hinChunks : r.phase.inChunks = true
  · have hstep := ReadsChunks.step ⟨hinChunks, h hinChunks⟩ buffer
    rw [hs] at hstep
    exact fun _ => hstep.hasBody
  · revert hs
    unfold step
    cases hphase : r.phase with
    | statusLine =>
      refine withLine_cases (P := fun s => s = .again r' rest → r'.Framed) r buffer _
        (by simp) (by simp) fun line bytes rest hs => ?_
      have hline := (r.phase_countLine bytes).trans hphase
      split at hs
      · obtain ⟨rfl, -⟩ := Step.again.inj hs
        exact framed_of_phase (by simp [hline, Phase.inChunks])
      · split at hs
        · cases hs
        · obtain ⟨rfl, -⟩ := Step.again.inj hs
          exact framed_of_phase rfl
    | headers =>
      refine withLine_cases (P := fun s => s = .again r' rest → r'.Framed) r buffer _
        (by simp) (by simp) fun line bytes rest hs => ?_
      have hline := (r.phase_countLine bytes).trans hphase
      split at hs
      · exact framed_startBody hs
      · split at hs
        · cases hs
        · obtain ⟨rfl, -⟩ := Step.again.inj hs
          exact framed_of_phase (by simp [hline, Phase.inChunks])
    | body length =>
      simp only [List.splitAt_eq, finish]
      split <;> simp
    | untilClose =>
      dsimp only
      split <;> simp
    | _ => simp [hphase, Phase.inChunks] at hinChunks

/-! ### More bytes -/

/-- A call that waited goes on from where it left off. -/
theorem decode_resume {r : ResponseReader} {buffer more : Bytes}
    (hwaits : (r.decode buffer).result = .ok none) {response? : Option Response}
    (hwhole : (r.decode (buffer ++ more)).result = .ok response?) :
    (r.decode buffer).reader.decode ((r.decode buffer).rest ++ more) =
      r.decode (buffer ++ more) := by
  have hcall := decode_append r buffer more
  rw [hwaits] at hcall
  have hseen : (r.decode (buffer ++ more)).seen = r.decode (buffer ++ more) := by
    rw [Answer.seen, hwhole]
  generalize (r.decode buffer).reader.decode ((r.decode buffer).rest ++ more) = resumed at hcall
  rw [hseen] at hcall
  cases hresult : resumed.result with
  | ok _ => rw [hcall, Answer.seen, hresult]
  | error e => simp [hcall, Answer.seen, hresult] at hwhole

/-- What was refused is refused with more bytes behind it, unless the reader stands in a body that
comes in chunks. -/
theorem Framed.decode_append_of_error {r : ResponseReader} (h : r.Framed) {buffer : Bytes}
    {e : ReadError} (herror : (r.decode buffer).result = .error e) (more : Bytes) :
    (r.decode (buffer ++ more)).StaysInChunks := by
  fun_induction ResponseReader.decode r buffer with
  | case1 r buffer result r' rest hs =>
    obtain rfl : result = .error e := herror
    rcases step_append r buffer more with ⟨-, heq⟩ | ⟨r₁, rest₁, hwaited, -⟩ |
      ⟨e', hrefused, ⟨hphase, -⟩ | heq⟩
    · rw [hs] at heq
      rw [decode_of_answer heq]
      trivial
    · simp [hs] at hwaited
    · have hinChunks : r.phase.inChunks = true := by rw [hphase]; rfl
      exact ReadsChunks.decode ⟨hinChunks, h hinChunks⟩ _
    · cases hwhole : r.step (buffer ++ more) with
      | again r₁ rest₁ => simp [hwhole, Step.seen] at heq
      | answer result r₁ rest₁ =>
        rw [decode_of_answer hwhole]
        cases result with
        | ok response? => simp [hwhole, Step.seen] at heq
        | error e => trivial
  | case2 r buffer r' rest hs ih =>
    rw [decode_of_again (step_append_of_again hs more)]
    exact ih (h.of_step hs) herror

theorem framed_new : ({} : ResponseReader).Framed :=
  framed_of_phase rfl

theorem decode_waits_of_bodiless {buffer more : Bytes} {response : Response}
    (hwhole : ({} : ResponseReader).decode (buffer ++ more) =
      { result := .ok (some response), reader := {}, rest := [] })
    (hbodiless : isBodiless response.status = true) (hmore : more ≠ []) :
    (({} : ResponseReader).decode buffer).result = .ok none := by
  cases hresult : (({} : ResponseReader).decode buffer).result with
  | error e =>
    have hstays := framed_new.decode_append_of_error hresult more
    rw [hwhole] at hstays
    exact absurd hbodiless (Bool.eq_false_iff.1 hstays)
  | ok response? =>
    cases response? with
    | none => rfl
    | some other =>
      have hcall := decode_append {} buffer more
      rw [hresult] at hcall
      have hrest := congrArg Answer.rest (hcall.symm.trans hwhole)
      exact absurd (List.append_eq_nil_iff.1 hrest).2 hmore

theorem decode_waits_of_untilClose {buffer more : Bytes}
    (hwaits : (({} : ResponseReader).decode (buffer ++ more)).result = .ok none)
    (hphase : (({} : ResponseReader).decode (buffer ++ more)).reader.phase = .untilClose) :
    (({} : ResponseReader).decode buffer).result = .ok none := by
  cases hresult : (({} : ResponseReader).decode buffer).result with
  | error e =>
    have hstays := framed_new.decode_append_of_error hresult more
    rw [Answer.StaysInChunks, hwaits] at hstays
    have hinChunks := hstays.inChunks
    rw [hphase] at hinChunks
    nomatch hinChunks
  | ok response? =>
    cases response? with
    | none => rfl
    | some other =>
      have hcall := decode_append {} buffer more
      rw [hresult] at hcall
      have hfound := congrArg Answer.result hcall
      rw [hwaits] at hfound
      exact absurd (hfound.trans hresult) (by simp)

/-- The end of the connection completes a response that was waiting for it. -/
theorem phase_of_decodeEnd {r : ResponseReader} {buffer : Bytes} {response : Response}
    (hwaits : (r.decode buffer).result = .ok none)
    (hend : (r.decodeEnd buffer).result = .ok (some response)) :
    (r.decode buffer).reader.phase = .untilClose := by
  by_contra hphase
  simp only [decodeEnd, hwaits, if_neg hphase] at hend
  split at hend <;> simp [hwaits] at hend

theorem decodeEnd_congr {r r' : ResponseReader} {buffer buffer' : Bytes}
    (h : r.decode buffer = r'.decode buffer') : r.decodeEnd buffer = r'.decodeEnd buffer' := by
  simp only [decodeEnd, h]

end ResponseReader

end WebClient.Http
