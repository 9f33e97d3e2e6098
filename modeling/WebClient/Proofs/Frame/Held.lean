import Mathlib.Order.Bounds.Basic
import WebClient.Proofs.Frame.Carry
import WebClient.Proofs.Frame.Pieces

/-!
# What a reader of frames holds

A reader and its buffer are used by two kinds of call: bytes are put behind the buffer, and a frame
is asked for. An error ends a call but not the use of the reader, which stands wherever the error
has left it. Whatever calls were made, the reader carries at most the beginning of one character,
and the buffer holds less than the frame that is waited for still needs (`held_of_calls`).
-/

namespace WebClient

namespace FramePhase

/-- A payload that is to be taken is not too long. -/
def Fits : FramePhase → Prop
  | payload _ length => length ≤ Frame.maxPayload
  | _ => True

/-- How many bytes there must be before the reader can go on. -/
def needed : FramePhase → Nat
  | header | length16 _ => 2
  | length64 _ => 8
  | payload _ length => length

theorem Fits.needed_le {phase : FramePhase} (h : phase.Fits) : phase.needed ≤ Frame.maxPayload := by
  cases phase with
  | header | length16 | length64 => exact Nat.le_of_ble_eq_true rfl
  | payload => exact h

end FramePhase

namespace FrameReader

variable {r r' : FrameReader} {buffer rest : Bytes}

/-! ### The payloads that are taken -/

theorem fits_readHeader {first second : UInt8} {phase : FramePhase}
    (h : readHeader first second = .ok phase) : phase.Fits := by
  have hlength : (second &&& 0x7F).toNat ≤ Frame.maxPayload := by
    rw [UInt8.toNat_and]
    exact Nat.le_trans Nat.and_le_right (by decide)
  unfold readHeader at h
  dsimp only at h
  split at h
  · nomatch h
  split at h
  · nomatch h
  split at h
  · nomatch h
  split at h
  · nomatch h
  split at h
  · obtain rfl := Except.ok.inj h
    trivial
  split at h
  · obtain rfl := Except.ok.inj h
    trivial
  · obtain rfl := Except.ok.inj h
    exact hlength

theorem fits_step (h : r.phase.Fits) (buffer : Bytes) : (r.step buffer).reader.phase.Fits := by
  unfold step
  cases hphase : r.phase with
  | header =>
    dsimp only
    split
    · split
      · exact h
      · next hheader => exact fits_readHeader hheader
    · exact h
  | length16 head =>
    dsimp only
    split
    · exact h
    · next length rest htaken =>
      obtain ⟨-, hlength⟩ := Bytes.take?_eq_some htaken
      have hlt := length.toNat_lt
      rw [hlength] at hlt
      exact Nat.le_trans (Nat.le_of_lt hlt) (by decide)
  | length64 head =>
    dsimp only
    split
    · exact h
    · split
      · exact h
      · next hlong => exact Nat.not_lt.1 hlong
  | payload head length =>
    dsimp only
    split
    · exact h
    · split
      · exact h
      · change FramePhase.Fits (classify _ head _).1.phase
        rw [phase_classify]
        trivial

/-- The readers that a call comes by, one for each of its steps. -/
def path (r : FrameReader) (buffer : Bytes) : List FrameReader :=
  match _h : r.step buffer with
  | .again r' rest => r :: path r' rest
  | .answer _ _ _ => [r]
termination_by buffer.length
decreasing_by exact length_lt_of_step _h

/-- What holds wherever a reader may come to stand. -/
structure Sound (r : FrameReader) : Prop where
  carriesText : r.CarriesText
  fits : r.phase.Fits

theorem Sound.step (h : r.Sound) (buffer : Bytes) : (r.step buffer).reader.Sound :=
  ⟨carriesText_step h.carriesText buffer, fits_step h.fits buffer⟩

theorem Sound.decode (h : r.Sound) (buffer : Bytes) : (r.decode buffer).reader.Sound :=
  keeps_decode (P := Sound) (fun buffer h => h.step buffer) h buffer

theorem Sound.of_mem_path (h : r.Sound) (hmem : r' ∈ path r buffer) : r'.Sound := by
  fun_induction path r buffer with
  | case1 r buffer next rest hs ih =>
    have hstep := h.step buffer
    rw [hs] at hstep
    rcases List.mem_cons.1 hmem with rfl | hmem
    · exact h
    · exact ih hstep hmem
  | case2 r => rwa [List.mem_singleton.1 hmem]

/-! ### The bytes that are waited for -/

/-- With some bytes, that many, a call comes to a frame or an error. -/
def Completes (r : FrameReader) (count : Nat) : Prop :=
  ∃ whole : Bytes, whole.length = count ∧ (r.decode whole).result ≠ .ok none

theorem step_of_lt_needed (h : r.phase.Fits) (hlt : buffer.length < r.phase.needed) :
    r.step buffer = .answer (.ok none) r buffer := by
  unfold step
  cases hphase : r.phase with
  | header =>
    rw [hphase] at hlt
    match buffer, hlt with
    | [], _ | [_], _ => rfl
  | length16 head =>
    rw [hphase] at hlt
    have hnone : buffer.take? 2 = none := Bytes.take?_eq_none_iff.2 hlt
    simp only [hnone]
  | length64 head =>
    rw [hphase] at hlt
    have hnone : buffer.take? 8 = none := Bytes.take?_eq_none_iff.2 hlt
    simp only [hnone]
  | payload head length =>
    rw [hphase] at h hlt
    have hfits : ¬ length > Frame.maxPayload := Nat.not_lt.2 h
    have hnone : buffer.take? length = none := Bytes.take?_eq_none_iff.2 hlt
    simp only [if_neg hfits, hnone]

theorem lt_needed_of_step (hs : r.step buffer = .answer (.ok none) r' rest) :
    buffer.length < r.phase.needed := by
  unfold step at hs
  cases hphase : r.phase with
  | header =>
    simp only [hphase] at hs
    match buffer with
    | [] | [_] => exact Nat.le_of_ble_eq_true rfl
    | first :: second :: rest =>
      dsimp only at hs
      split at hs <;> simp at hs
  | length16 head =>
    simp only [hphase] at hs
    split at hs
    · next hnone => exact Bytes.take?_eq_none_iff.1 hnone
    · nomatch hs
  | length64 head =>
    simp only [hphase] at hs
    split at hs
    · next hnone => exact Bytes.take?_eq_none_iff.1 hnone
    · split at hs <;> nomatch hs
  | payload head length =>
    simp only [hphase] at hs
    split at hs
    · nomatch hs
    split at hs
    · next hnone => exact Bytes.take?_eq_none_iff.1 hnone
    · next payload _ _ =>
      simp only [Step.answer.injEq] at hs
      cases hresult : (classify { r with phase := .header } head payload).2 with
      | ok received => simp [hresult, Except.map] at hs
      | error e => simp [hresult, Except.map] at hs

theorem result_ne_of_payload {head : FrameHead} {length : Nat}
    (hphase : r.phase = .payload head length) (hlength : length ≤ buffer.length) :
    (r.decode buffer).result ≠ .ok none := by
  cases hstep : r.step buffer with
  | again r' rest =>
    unfold step at hstep
    simp only [hphase] at hstep
    split at hstep
    · nomatch hstep
    split at hstep <;> nomatch hstep
  | answer result r' rest =>
    rw [decode_of_answer hstep]
    intro hnone
    obtain rfl : result = .ok none := hnone
    have hlt := lt_needed_of_step hstep
    rw [hphase] at hlt
    exact absurd hlt (Nat.not_lt.2 hlength)

theorem completes_of_again {head : FrameHead}
    (hstep : r.step buffer = .again { r with phase := .payload head 0 } rest) :
    r.Completes buffer.length := by
  refine ⟨buffer, rfl, ?_⟩
  rw [decode_of_again hstep]
  exact result_ne_of_payload rfl (Nat.zero_le _)

/-- The frame is complete without a payload, or with the payload that was announced. -/
theorem completes_needed (r : FrameReader) : r.Completes r.phase.needed := by
  cases hphase : r.phase with
  | header =>
    -- A pong without a payload is whole in two bytes, in the middle of a message too.
    have hstep : r.step [0x8A, 0] = .again { r with phase := .payload ⟨true, 0xA⟩ 0 } [] := by
      unfold step
      rw [hphase]
      rfl
    exact completes_of_again hstep
  | length16 head =>
    -- The long forms of a length may announce an empty payload.
    have hstep : r.step [0, 0] = .again { r with phase := .payload head 0 } [] := by
      unfold step
      rw [hphase]
      rfl
    exact completes_of_again hstep
  | length64 head =>
    have hzero : Bytes.toNat (List.replicate 8 0) = 0 := by decide
    have htaken : Bytes.take? 8 (List.replicate 8 0) = some (List.replicate 8 0, []) := rfl
    have hstep : r.step (List.replicate 8 0) = .again { r with phase := .payload head 0 } [] := by
      unfold step
      simp only [hphase, htaken, hzero, Nat.not_lt_zero, gt_iff_lt, if_false]
    exact completes_of_again hstep
  | payload head length =>
    have hlength : (List.replicate length (0 : UInt8)).length = length := List.length_replicate
    exact ⟨_, hlength, result_ne_of_payload hphase (Nat.le_of_eq hlength.symm)⟩

/-- **What a phase needs** is the least with which the frame can be complete. -/
theorem isLeast_needed (h : r.phase.Fits) : IsLeast {count | r.Completes count} r.phase.needed := by
  refine ⟨completes_needed r, ?_⟩
  rintro _ ⟨whole, rfl, hwhole⟩
  by_contra hlt
  exact hwhole (by rw [decode_of_answer (step_of_lt_needed h (Nat.not_le.1 hlt))])

/-! ### Calls -/

inductive Call where
  | append (bytes : Bytes)
  | decode

structure Session where
  reader : FrameReader := {}
  buffer : Bytes := []

namespace Session

/-- The session behind a call. An error leaves the reader and the buffer where it was found. -/
def call (s : Session) : Call → Session
  | .append bytes => { s with buffer := s.buffer ++ bytes }
  | .decode =>
    let answer := s.reader.decode s.buffer
    { reader := answer.reader, buffer := answer.rest }

def ofCalls (calls : List Call) : Session :=
  calls.foldl call {}

theorem sound_call {s : Session} (h : s.reader.Sound) (next : Call) :
    (s.call next).reader.Sound := by
  cases next with
  | append bytes => exact h
  | decode => exact h.decode s.buffer

theorem sound_ofCalls (calls : List Call) : (ofCalls calls).reader.Sound := by
  suffices h : ∀ s : Session, s.reader.Sound → (calls.foldl call s).reader.Sound from
    h {} ⟨.inl rfl, trivial⟩
  induction calls with
  | nil => exact fun s h => h
  | cons next calls ih => exact fun s h => ih (s.call next) (sound_call h next)

/-- **What a reader holds**, whatever calls were made and whatever errors they came to. It carries
nothing but the beginning of one character, and only while a text is in progress. No payload that a
call comes to is too long. And when a call comes to no frame, the buffer is shorter than any bytes
that complete the frame, and so shorter than the longest payload. -/
theorem held_of_calls (calls : List Call) :
    let s := ofCalls calls
    let answer := s.reader.decode s.buffer
    (s.reader.fragment ≠ some .text → s.reader.carry = []) ∧ s.reader.carry.length ≤ 3 ∧
      (s.reader.carry ≠ [] → Utf8.StartsChar s.reader.carry) ∧
      (∀ r ∈ path s.reader s.buffer, ∀ head length, r.phase = .payload head length →
        length ≤ Frame.maxPayload) ∧
      (answer.result = .ok none → ∃ needed, IsLeast {count | answer.reader.Completes count} needed ∧
        answer.rest.length < needed ∧ needed ≤ Frame.maxPayload) := by
  intro s answer
  have hsound : s.reader.Sound := sound_ofCalls calls
  refine ⟨carry_eq_nil hsound.carriesText, ?_, fun hsome => ?_,
    fun r hmem head length hphase => ?_, fun hnone => ?_⟩
  · rcases hsound.carriesText with hnil | ⟨-, hstarts⟩
    · rw [hnil]
      exact Nat.zero_le 3
    · exact hstarts.length_le
  · exact (hsound.carriesText.resolve_left hsome).2
  · have hfits := (hsound.of_mem_path hmem).fits
    rwa [hphase] at hfits
  · have hlater : answer.reader.Sound := hsound.decode s.buffer
    refine ⟨answer.reader.phase.needed, isLeast_needed hlater.fits, ?_, hlater.fits.needed_le⟩
    exact lt_needed_of_step (step_of_decode_waits s.reader s.buffer hnone)

end Session

end FrameReader

end WebClient
