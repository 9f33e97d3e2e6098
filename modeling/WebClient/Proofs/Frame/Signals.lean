import WebClient.Frame.Drain
import WebClient.Proofs.Frame.Wire

/-!
# Control frames are short

A reader judges the length of a control frame when it has read the header, and reads the payload
only if it is short. So the payload of every Ping that is given back fits into the Pong that answers
it.
-/

namespace WebClient

/-- Only what is short is read of a control frame. -/
def FramePhase.ShortSignals : FramePhase → Prop
  | .header => True
  | .length16 head | .length64 head => head.isControl = false
  | .payload head length => head.isControl = true → length ≤ Frame.maxControlPayload

/-- The payload of a Ping fits into a control frame. -/
def Received.ShortSignals (received : Received) : Prop :=
  ∀ payload, received = .ping payload → payload.length ≤ Frame.maxControlPayload

namespace FrameReader

theorem shortSignals_readHeader {first second : UInt8} {phase : FramePhase}
    (h : readHeader first second = .ok phase) : phase.ShortSignals := by
  unfold readHeader at h
  dsimp only at h
  generalize (second &&& 0x7F).toNat = length at h
  split at h
  · nomatch h
  split at h
  · nomatch h
  split at h
  · nomatch h
  split at h
  · nomatch h
  next hlong =>
    have hshort (hsignal : (Opcode.ofCode? (first &&& 0x0F)).any Opcode.isControl = true) :
        length ≤ Frame.maxControlPayload := by
      simpa [hsignal] using hlong
    -- The two long forms announce more than a control frame may have.
    have hdata (hmany : Frame.maxControlPayload < length) :
        (Opcode.ofCode? (first &&& 0x0F)).any Opcode.isControl = false :=
      Bool.eq_false_iff.2 fun hsignal => Nat.not_lt.2 (hshort hsignal) hmany
    split at h
    · next hform =>
      obtain rfl := Except.ok.inj h
      exact hdata (by rw [hform]; decide)
    split at h
    · next hform =>
      obtain rfl := Except.ok.inj h
      exact hdata (by rw [hform]; decide)
    · obtain rfl := Except.ok.inj h
      exact hshort

theorem ne_ping_readData (r : FrameReader) (kind : MessageKind) (fin : Bool)
    (payload answer : Bytes) : (r.readData kind fin payload).2 ≠ .ok (.ping answer) := by
  unfold readData
  repeat' split
  all_goals simp

/-- A Ping comes of a control frame, with its payload. -/
theorem eq_payload_of_classify {r : FrameReader} {head : FrameHead} {payload answer : Bytes}
    (h : (r.classify head payload).2 = .ok (.ping answer)) :
    head.isControl = true ∧ answer = payload := by
  unfold classify at h
  split at h
  · simp at h
  · next hcode =>
    obtain rfl : payload = answer := by simpa using h
    exact ⟨by rw [FrameHead.isControl, hcode]; rfl, rfl⟩
  · simp at h
  · unfold readClose at h
    repeat' split at h
    all_goals simp at h
  · unfold startMessage at h
    split at h
    · simp at h
    · exact absurd h (ne_ping_readData _ _ _ _ _)
  · unfold startMessage at h
    split at h
    · simp at h
    · exact absurd h (ne_ping_readData _ _ _ _ _)
  · unfold continueMessage at h
    split at h
    · simp at h
    · exact absurd h (ne_ping_readData _ _ _ _ _)

/-- What a step keeps: what it gives back is short, and so is what it goes on to read. -/
def Step.ShortSignals : Step → Prop
  | .again r _ => r.phase.ShortSignals
  | .answer result r _ =>
    r.phase.ShortSignals ∧ ∀ received, result = .ok (some received) → received.ShortSignals

theorem shortSignals_step {r : FrameReader} (h : r.phase.ShortSignals) (buffer : Bytes) :
    (r.step buffer).ShortSignals := by
  unfold step
  cases hphase : r.phase with
  | header =>
    dsimp only
    split
    · split
      · exact ⟨h, fun _ hresult => nomatch hresult⟩
      · next hheader => exact shortSignals_readHeader hheader
    · exact ⟨h, fun _ hresult => nomatch hresult⟩
  | length16 head =>
    have hdata : head.isControl = false := by rwa [hphase] at h
    dsimp only
    split
    · exact ⟨h, fun _ hresult => nomatch hresult⟩
    · exact fun hcontrol => absurd hcontrol (Bool.eq_false_iff.1 hdata)
  | length64 head =>
    have hdata : head.isControl = false := by rwa [hphase] at h
    dsimp only
    split
    · exact ⟨h, fun _ hresult => nomatch hresult⟩
    · split
      · exact ⟨h, fun _ hresult => nomatch hresult⟩
      · exact fun hcontrol => absurd hcontrol (Bool.eq_false_iff.1 hdata)
  | payload head length =>
    have hshort : head.isControl = true → length ≤ Frame.maxControlPayload := by rwa [hphase] at h
    dsimp only
    split
    · exact ⟨h, fun _ hresult => nomatch hresult⟩
    · split
      · exact ⟨h, fun _ hresult => nomatch hresult⟩
      · next payload rest htaken =>
        refine ⟨by rw [phase_classify]; trivial, fun received hresult answer hping => ?_⟩
        obtain ⟨-, hlength⟩ := Bytes.take?_eq_some htaken
        subst hping
        have hanswer : (classify { r with phase := .header } head payload).2 =
            .ok (.ping answer) := by
          revert hresult
          cases (classify { r with phase := .header } head payload).2 with
          | ok other => simp [Except.map]
          | error e => simp [Except.map]
        obtain ⟨hcontrol, rfl⟩ := eq_payload_of_classify hanswer
        exact hlength ▸ hshort hcontrol

theorem shortSignals_decode {r : FrameReader} (h : r.phase.ShortSignals) (buffer : Bytes) :
    (Step.answer (r.decode buffer).result (r.decode buffer).reader
      (r.decode buffer).rest).ShortSignals := by
  fun_induction decode r buffer with
  | case1 r buffer result r' rest hs =>
    have hstep := shortSignals_step h buffer
    rwa [hs] at hstep
  | case2 r buffer r' rest hs ih =>
    have hstep := shortSignals_step h buffer
    rw [hs] at hstep
    exact ih hstep

theorem shortSignals_new : ({} : FrameReader).phase.ShortSignals :=
  trivial

/-- **Control frames are short.** -/
theorem shortSignals_drain {r : FrameReader} (h : r.phase.ShortSignals) (buffer : Bytes) :
    (r.drain buffer).reader.phase.ShortSignals ∧
      ∀ received ∈ (r.drain buffer).frames, received.ShortSignals := by
  fun_induction FrameReader.drain r buffer with
  | case1 r buffer answer hresult =>
    exact ⟨(shortSignals_decode h buffer).1, fun _ hmem => absurd hmem List.not_mem_nil⟩
  | case2 r buffer answer e hresult =>
    exact ⟨(shortSignals_decode h buffer).1, fun _ hmem => absurd hmem List.not_mem_nil⟩
  | case3 r buffer answer received hresult later ih =>
    obtain ⟨hreader, hreceived⟩ := shortSignals_decode h buffer
    obtain ⟨hlast, hlater⟩ := ih hreader
    refine ⟨hlast, fun other hmem => ?_⟩
    rcases List.mem_cons.1 hmem with rfl | hmem
    · exact hreceived _ hresult
    · exact hlater other hmem

end FrameReader

end WebClient
