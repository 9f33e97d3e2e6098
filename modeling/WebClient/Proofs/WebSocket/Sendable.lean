import WebClient.Proofs.Frame.RoundTrip
import WebClient.Proofs.WebSocket.Conversation
import WebClient.Proofs.WebSocket.Reading
import WebClient.Proofs.WebSocket.Registry

/-!
# Frames that can be sent

What may be sent is decided in two places. A sender refuses a control frame that is too long, and
the writer of frames also refuses one that is fragmented, and any payload that is too long. So a
frame that was accepted can be written unless it is one of these two
(`Frame.isWritable_iff_of_accepted`). One that cannot be is found out when the worker has taken it:
nothing is written, and the connection ends with an error (`accepted_frames_fate`).
-/

namespace WebClient

namespace Frame

/-- The frame can go out, whatever key it is masked with. -/
def IsWritable (frame : Frame) : Prop :=
  ∀ key, ∃ bytes, frame.encode key = .ok bytes

/-- A sender has nothing against the frame. -/
def IsAccepted (frame : Frame) : Prop :=
  frame.opcode.isControl = true → frame.payload.length ≤ 125

theorem isWritable_iff_refusal? {frame : Frame} : frame.IsWritable ↔ frame.refusal? = none := by
  constructor
  · intro hwritable
    obtain ⟨bytes, hbytes⟩ := hwritable ⟨0, 0, 0, 0⟩
    rw [encode] at hbytes
    split at hbytes
    · cases hbytes
    · assumption
  · intro hrefusal key
    exact ⟨_, by rw [encode, hrefusal]⟩

/-- A frame that cannot go out is refused for the same reason under every key. -/
theorem exists_refused {frame : Frame} (h : ¬ frame.IsWritable) :
    ∃ e, ∀ key, frame.encode key = .error e := by
  obtain ⟨e, he⟩ := Option.ne_none_iff_exists'.1 (mt isWritable_iff_refusal?.2 h)
  exact ⟨e, fun key => by rw [encode, he]⟩

theorem isWritable_iff {frame : Frame} :
    frame.IsWritable ↔
      (frame.opcode.isControl = true → frame.payload.length ≤ 125 ∧ frame.fin = true) ∧
        frame.payload.length ≤ 16 * 1024 * 1024 := by
  have hrefused (key : MaskKey) : (∃ e, frame.encode key = .error e) ↔
      ¬ ((frame.opcode.isControl = true → frame.payload.length ≤ 125 ∧ frame.fin = true) ∧
        frame.payload.length ≤ 16 * 1024 * 1024) := by
    rw [encode_error_iff]
    grind
  constructor
  · intro hwritable
    by_contra hnot
    obtain ⟨bytes, hbytes⟩ := hwritable ⟨0, 0, 0, 0⟩
    obtain ⟨e, he⟩ := (hrefused ⟨0, 0, 0, 0⟩).2 hnot
    simp [hbytes] at he
  · intro hmay
    by_contra hnot
    obtain ⟨e, he⟩ := exists_refused hnot
    exact (hrefused ⟨0, 0, 0, 0⟩).1 ⟨e, he _⟩ hmay

/-- **What may not be sent of what is accepted:** fragmented control frames and payloads that are
too long. -/
theorem isWritable_iff_of_accepted {frame : Frame} (h : frame.IsAccepted) :
    frame.IsWritable ↔
      (frame.opcode.isControl = true → frame.fin = true) ∧
        frame.payload.length ≤ 16 * 1024 * 1024 := by
  rw [isWritable_iff]
  exact and_congr_left' ⟨fun hcontrol hc => (hcontrol hc).2, fun hfin hc => ⟨h hc, hfin hc⟩⟩

/-- A control frame that is accepted and whole is short enough for anything. -/
theorem isWritable_of_control {frame : Frame} (h : frame.IsAccepted)
    (hcontrol : frame.opcode.isControl = true) (hfin : frame.fin = true) : frame.IsWritable :=
  (isWritable_iff_of_accepted h).2 ⟨fun _ => hfin, (h hcontrol).trans (by decide)⟩

/-- A frame that carries data is accepted, however long it is. -/
theorem isWritable_iff_of_data {frame : Frame} (h : frame.opcode.isControl = false) :
    frame.IsWritable ↔ frame.payload.length ≤ 16 * 1024 * 1024 := by
  simp [isWritable_iff, h]

end Frame

namespace WebSocket

/-! ### What a sender accepts -/

namespace SendQueue

theorem isAccepted_of_accept {q : SendQueue} {frame : Frame} (h : (q.accept frame).2 = .ok ()) :
    frame.IsAccepted := by
  rw [snd_accept] at h
  split at h
  · nomatch h
  · next hshort =>
    intro hcontrol
    simpa [hcontrol, Frame.maxControlPayload] using hshort

theorem isAccepted_of_send {q : SendQueue} {frame : Frame} (h : (q.send frame).2 = .ok ()) :
    frame.IsAccepted := by
  rw [send] at h
  split at h
  · next haccept => exact isAccepted_of_accept (congrArg Prod.snd haccept)
  · exact isAccepted_of_accept h

theorem isWritable_of_close {q : SendQueue} {code : CloseCode} {reason : String}
    (h : (q.close code reason).2 = .ok ()) : (Frame.close (some code) reason).IsWritable := by
  rw [close] at h
  split at h
  · exact Frame.isWritable_of_control (isAccepted_of_send h) rfl rfl
  · nomatch h

end SendQueue

namespace Conversation

variable {σ : Type} [Handshaker σ] {c : Conversation σ}

theorem isAccepted_step (h : ∀ frame ∈ c.accepted, frame.IsAccepted) (action : Action) :
    ∀ frame ∈ (c.step action).accepted, frame.IsAccepted := by
  cases action with
  | accept offered =>
    rw [step, accept]
    split
    · next queue haccept =>
      intro frame hframe
      rcases List.mem_append.1 hframe with hbefore | hnew
      · exact h frame hbefore
      · rw [List.mem_singleton.1 hnew]
        exact SendQueue.isAccepted_of_accept (congrArg Prod.snd haccept)
    · exact h
  | enqueue index =>
    rw [step, enqueue]
    split
    · exact h
    · dsimp only
      split <;> exact h
  | take =>
    rw [step]
    split
    · rw [take]
      split <;> exact h
    · exact h
  | start _ | read _ | readEnd | readFailure _ | write _ =>
    rw [step]
    split <;> exact h
  | leave => exact h

theorem isAccepted_run (h : ∀ frame ∈ c.accepted, frame.IsAccepted) (actions : List Action) :
    ∀ frame ∈ (c.run actions).accepted, frame.IsAccepted := by
  induction actions generalizing c with
  | nil => exact h
  | cons action actions ih => exact ih (isAccepted_step h action)

end Conversation

/-! ### What becomes of a frame that is taken -/

namespace Connection

variable {σ : Type} [Handshaker σ]

theorem endStep_of_writable {c : Connection σ} (h : ∀ unit ∈ c.pending, unit.IsWritable)
    (hsound : c.Sound) (halive : c.dispatcher.terminated = false) :
    (c.endStep none).1.finished = false ∧ (c.endStep none).1.dispatcher = c.dispatcher ∧
      sentUnits (c.endStep none).2 = c.pending.map (·, none) := by
  have hlive : c.finished = false := Bool.eq_false_iff.2 fun hend =>
    Bool.false_ne_true (halive.symm.trans (hsound.finished hend))
  obtain ⟨hrelays, masked, hnext⟩ := endStep_of_isWritable h hsound hlive
  have hsent := hrelays.sent_eq
  rw [hnext] at hsent ⊢
  exact ⟨halive, rfl, by simpa [Dispatcher.run, writes] using hsent⟩

/-- A frame that cannot be written ends the connection: the observer is told why, and nothing goes
out. -/
theorem endStep_of_not_isWritable {c : Connection σ} {frame : Frame}
    (hpending : c.pending = [.frame frame]) (hnot : ¬ frame.IsWritable)
    (halive : c.dispatcher.terminated = false) :
    (c.endStep none).1.finished = true ∧ (c.endStep none).1.dispatcher.terminated = true ∧
      sentUnits (c.endStep none).2 = [] ∧
      ∃ e, (∀ key, frame.encode key = .error e) ∧
        notices (told (c.endStep none).2) = [.error (.unwritableFrame e)] := by
  obtain ⟨e, he⟩ := Frame.exists_refused hnot
  have hflush : c.flush none = ({ c with pending := [] }, [], .error (.unwritableFrame e)) := by
    simp [flush, hpending, encodeAll, he, Except.mapError, bind, Except.bind]
  have hfail (c' : Connection σ) (hc' : c'.dispatcher.terminated = false) (cause : Error) :
      sentUnits (c'.fail cause).2 = [] ∧ notices (told (c'.fail cause).2) = [.error cause] := by
    refine ⟨(c'.call_eq (.fail cause)).2, ?_⟩
    have hnotices : notices (c'.dispatcher.step (.fail cause)).2 = [.error cause] :=
      (Dispatcher.ended_fail hc' cause).notices_eq
    rw [fail, (c'.makes_call (.fail cause)).notices_told, Dispatcher.run_cons, notices_append,
      hnotices]
    rfl
  obtain ⟨hsent, htold⟩ := hfail { c with pending := [] } halive (.unwritableFrame e)
  rw [endStep_of_error hflush]
  refine ⟨rfl, terminated_fail _ _, ?_, e, he, ?_⟩
  · rw [List.nil_append, sentUnits_append, hsent]
    rfl
  · rw [List.nil_append, told_append, notices_append, htold]
    rfl

theorem told_turn_command (c : Connection σ) (frame : Frame) :
    told (c.turn (.command frame)).2 = [] := by
  have hquiet : (c.dispatcher.send frame c.writeFailure).2.1.filter Effect.isOutward = [] := by
    unfold Dispatcher.send
    split <;> rfl
  have htold := (c.makes_call (.send frame c.writeFailure)).told_eq
  rw [Dispatcher.run_cons, List.filter_append] at htold
  exact htold.trans (by simpa [Dispatcher.run, Dispatcher.step] using hquiet)

end Connection

namespace Conversation

variable {σ : Type} [Handshaker σ] {c : Conversation σ}

theorem sound_step (h : c.connection.Sound) (action : Action) :
    (c.step action).connection.Sound := by
  have hturn (event : Event) : (c.connection.turn event).1.Sound := by
    obtain ⟨calls, hmakes⟩ := c.connection.exists_makes_turn event
    exact hmakes.sound h
  cases action with
  | accept frame =>
    rw [step, accept]
    split <;> exact h
  | enqueue index =>
    rw [step, enqueue]
    split
    · exact h
    · dsimp only
      split <;> exact h
  | start nonce =>
    rw [step]
    split
    · exact (c.connection.makes_call _).sound h
    · exact h
  | read _ | readEnd | readFailure _ =>
    rw [step]
    split
    · exact hturn _
    · exact h
  | take =>
    rw [step]
    split
    · rw [take]
      split
      · exact h
      · exact hturn _
    · exact h
  | write failure =>
    rw [step]
    split
    · obtain ⟨calls, hmakes⟩ := c.connection.exists_makes_endStep failure
      exact hmakes.sound h
    · exact h
  | leave => exact h

theorem sound_run (h : c.connection.Sound) (actions : List Action) :
    (c.run actions).connection.Sound := by
  induction actions generalizing c with
  | nil => exact h
  | cons action actions ih => exact ih (sound_step h action)

theorem take_write {frame : Frame} {later : List Frame} (hworker : c.worker = .waiting)
    (hcomplete : c.connection.dispatcher.handshake = .complete)
    (hframes : c.queue.frames = frame :: later) :
    (c.step .take).step (.write none) =
      let turn := c.connection.turn (.command frame)
      let ended := turn.1.endStep none
      { c with
        queue := { c.queue with frames := later }
        connection := ended.1
        outputs := c.outputs ++ turn.2 ++ ended.2
        written := c.written ++ sentUnits ended.2
        worker := if ended.1.finished then .gone else .waiting } := by
  simp [step, hworker, hcomplete, take, SendQueue.take?, hframes, after, write, sentUnits]

end Conversation

/-- **The fate of a frame that is taken.** It is written, or it comes behind a Close and is dropped,
and the worker goes on; or it cannot be written, and the connection ends. -/
theorem Sound.take_write {σ : Type} [Handshaker σ] {handshaker : σ} {c : Conversation σ}
    {taken : List Frame} (h : Sound handshaker c taken) (hsound : c.connection.Sound)
    (hworker : c.worker = .waiting) (hcomplete : c.connection.dispatcher.handshake = .complete)
    {frame : Frame} {later : List Frame} (hframes : c.queue.frames = frame :: later) :
    let next := (c.step .take).step (.write none)
    (c.connection.dispatcher.closeSent = true ∨ frame.IsWritable → next.worker = .waiting ∧
      next.connection.dispatcher.terminated = false ∧
        next.written = c.written ++
          if c.connection.dispatcher.closeSent then [] else [(.frame frame, none)]) ∧
      (c.connection.dispatcher.closeSent = false → ¬ frame.IsWritable → next.worker = .gone ∧
        next.connection.dispatcher.terminated = true ∧
        sentUnits next.outputs = sentUnits c.outputs ∧
        ∃ e, (∀ key, frame.encode key = .error e) ∧
          notices (told next.outputs) =
            notices (told c.outputs) ++ [.error (.unwritableFrame e)]) := by
  have hprogress := h.progress
  rw [hworker] at hprogress
  cases hprogress with
  | waiting hpending hopen halive hclose hwritten =>
    obtain ⟨hturn, hsent⟩ := Connection.turn_command hopen halive frame
    obtain ⟨calls, hmakes⟩ := c.connection.exists_makes_turn (.command frame)
    have hquiet := Connection.told_turn_command c.connection frame
    have hstill : (c.connection.turn (.command frame)).1.dispatcher.terminated = false := by
      rw [hturn]
      exact halive
    have hwaits : (c.connection.turn (.command frame)).1.pending =
        if c.connection.dispatcher.closeSent then [] else [.frame frame] := by
      rw [hturn, hpending]
      rfl
    rw [Conversation.take_write hworker hcomplete hframes]
    generalize c.connection.turn (.command frame) = turn at hsent hquiet hstill hwaits hmakes ⊢
    dsimp only
    constructor
    · intro hmay
      have hwritable : ∀ unit ∈ turn.1.pending, unit.IsWritable := by
        rw [hwaits]
        rcases hmay with hbehind | hwritable
        · simp [hbehind]
        · split
          · simp
          · exact List.forall_mem_singleton.2 (Frame.isWritable_iff_refusal?.1 hwritable)
      obtain ⟨hgoes, hdispatcher, hwritten⟩ :=
        Connection.endStep_of_writable hwritable (hmakes.sound hsound) hstill
      rw [hgoes, hdispatcher, hwritten, hwaits]
      refine ⟨rfl, hstill, ?_⟩
      split <;> rfl
    · intro hfirst hnot
      rw [hfirst] at hwaits
      obtain ⟨hfinished, hend, hnothing, e, he, htold⟩ :=
        Connection.endStep_of_not_isWritable hwaits hnot hstill
      refine ⟨by rw [hfinished]; rfl, hend, ?_, e, he, ?_⟩
      · rw [sentUnits_append, sentUnits_append, hsent, hnothing, List.append_nil, List.append_nil]
      · rw [told_append, told_append, hquiet, List.append_nil, notices_append, htold]

section

variable {σ : Type} [Handshaker σ]

/-- **When an accepted frame can be sent.** A frame that a sender accepts can be written, under
every key, exactly when it is not a fragmented control frame and its payload has at most 16 MiB; so
every accepted Ping and Close can, and a text or binary message of up to that length. The same holds
of every frame that waits in the queue of a conversation, however it came about. When such a frame
is the next, and the stream takes what is written, then the worker goes on exactly if the frame can
be written or comes behind a Close. It is written in the first case alone; in the other the
connection ends, nothing goes out, and the observer is told why. -/
theorem accepted_frames_fate (handshaker : σ) (context : ConnectionContext) (registers : Bool)
    (observer : Observer) (traffic : Option TrafficLog) (maskKeys : Nat → MaskKey)
    (actions : List Conversation.Action) :
    let connection : Connection σ :=
      { dispatcher := { handshaker, context, registers }, observer, traffic, maskKeys }
    let c := ({ connection } : Conversation σ).run actions
    (∀ (q : SendQueue) (frame : Frame), (q.send frame).2 = .ok () →
      (frame.IsWritable ↔ (frame.opcode.isControl = true → frame.fin = true) ∧
        frame.payload.length ≤ 16 * 1024 * 1024)) ∧
      (∀ (q : SendQueue) (text : String), (q.sendText text).2 = .ok () →
        ((Frame.text text).IsWritable ↔
          (Bytes.ofString text).length ≤ 16 * 1024 * 1024)) ∧
      (∀ (q : SendQueue) (data : Bytes), (q.sendBinary data).2 = .ok () →
        ((Frame.binary data).IsWritable ↔ data.length ≤ 16 * 1024 * 1024)) ∧
      (∀ (q : SendQueue) (data : Bytes), (q.sendPing data).2 = .ok () →
        (Frame.ping data).IsWritable) ∧
      (∀ (q : SendQueue) (code : CloseCode) (reason : String), (q.close code reason).2 = .ok () →
        (Frame.close (some code) reason).IsWritable) ∧
      (∀ frame ∈ c.queue.frames,
        (frame.IsWritable ↔ (frame.opcode.isControl = true → frame.fin = true) ∧
          frame.payload.length ≤ 16 * 1024 * 1024)) ∧
      (c.worker = .waiting → c.connection.dispatcher.handshake = .complete →
        ∀ frame later, c.queue.frames = frame :: later →
          let next := (c.step .take).step (.write none)
          (c.connection.dispatcher.closeSent = true ∨ frame.IsWritable →
            next.worker = .waiting ∧ next.connection.dispatcher.terminated = false ∧
              next.written = c.written ++
                if c.connection.dispatcher.closeSent then [] else [(.frame frame, none)]) ∧
            (c.connection.dispatcher.closeSent = false → ¬ frame.IsWritable →
              next.worker = .gone ∧ next.connection.dispatcher.terminated = true ∧
                sentUnits next.outputs = sentUnits c.outputs ∧
                ∃ e, (∀ key, frame.encode key = .error e) ∧
                  notices (told next.outputs) =
                    notices (told c.outputs) ++ [.error (.unwritableFrame e)])) := by
  intro connection c
  have hnew : connection.IsNew handshaker :=
    ⟨rfl, Dispatcher.stands_new handshaker context registers, rfl, rfl, rfl, rfl⟩
  have hshares : Shares c := (shares_new connection).run actions
  obtain ⟨taken, hparty⟩ : ∃ taken, Sound handshaker c taken := (sound_new hnew).exists_run actions
  have hsound : c.connection.Sound :=
    Conversation.sound_run ⟨(absurd · Bool.false_ne_true), (absurd · Bool.false_ne_true)⟩ actions
  have haccepted : ∀ frame ∈ c.accepted, frame.IsAccepted :=
    Conversation.isAccepted_run (fun _ hnone => absurd hnone List.not_mem_nil) actions
  have hqueued : c.queue.frames ⊆ c.accepted := by
    have hsubset : c.queue.frames ⊆ c.queued := by
      rw [hparty.queued_eq]
      exact List.subset_append_right _ _
    have hshared : c.queued ⊆ c.accepted :=
      List.Subset.trans (List.subset_append_right _ _) hshares.subperm.subset
    exact List.Subset.trans hsubset hshared
  refine ⟨fun q frame h => Frame.isWritable_iff_of_accepted (SendQueue.isAccepted_of_send h),
    fun q text _ => Frame.isWritable_iff_of_data rfl,
    fun q data _ => Frame.isWritable_iff_of_data rfl,
    fun q data h => Frame.isWritable_of_control (SendQueue.isAccepted_of_send h) rfl rfl,
    fun q code reason h => SendQueue.isWritable_of_close h,
    fun frame hframe => Frame.isWritable_iff_of_accepted (haccepted frame (hqueued hframe)),
    fun hworker hcomplete frame later hframes =>
      hparty.take_write hsound hworker hcomplete hframes⟩

end

/-! ### Pings, whole and fragmented -/

/-- A handshake with a host that every response with status 101 completes. -/
inductive HostHandshake where
  | mk

instance : Handshaker HostHandshake where
  request h _ := (h, { method := .get, path := "/", headers := [⟨"Host", "h"⟩] })
  complete h r := if r.status = 101 then .ok h else .error (.unexpectedStatus r.status "")
  subprotocol _ := none

def wholePing : Frame := Frame.ping [7]

def fragmentedPing : Frame := { Frame.ping [7] with fin := false }

/-- The connection opens, and a frame is accepted and queued. -/
def offered (frame : Frame) : List Conversation.Action :=
  [.start (Hub.repeatedNonce 0), .write none,
    .read (Bytes.ofString "HTTP/1.1 101 Switching Protocols\r\n\r\n"), .write none,
    .accept frame, .enqueue 0]

def hostConnection : Connection HostHandshake where
  dispatcher := { handshaker := .mk, context := Hub.oneContext }
  maskKeys _ := ⟨0, 0, 0, 0⟩

/-- A whole Ping is written. -/
theorem written_wholePing :
    let c := ({ connection := hostConnection } : Conversation HostHandshake).run (offered wholePing)
    wholePing.IsWritable ∧ c.queue.frames = [wholePing] ∧
      ((c.step .take).step (.write none)).worker = .waiting ∧
      ((c.step .take).step (.write none)).written = [(.frame wholePing, none)] := by
  intro c
  have hworker : c.worker = .waiting := by decide +kernel
  have hcomplete : c.connection.dispatcher.handshake = .complete := by decide +kernel
  have hframes : c.queue.frames = [wholePing] := by decide +kernel
  have hfirst : c.connection.dispatcher.closeSent = false := by decide +kernel
  have hnothing : c.written = [] := List.isEmpty_iff.1 (by decide +kernel)
  obtain ⟨-, -, -, hping, -, -, htaken⟩ :=
    accepted_frames_fate HostHandshake.mk Hub.oneContext false .log none
      (fun _ => ⟨0, 0, 0, 0⟩) (offered wholePing)
  have hwritable : wholePing.IsWritable := hping {} [7] (by decide +kernel)
  obtain ⟨hgoes, -, hsent⟩ := (htaken hworker hcomplete wholePing [] hframes).1 (.inr hwritable)
  have hwritten : ((c.step .take).step (.write none)).written =
      c.written ++ if c.connection.dispatcher.closeSent then [] else [(.frame wholePing, none)] :=
    hsent
  rw [hfirst, hnothing] at hwritten
  exact ⟨hwritable, hframes, hgoes, hwritten⟩

/-- **Not all that is accepted can be sent.** A fragmented Ping is accepted, cannot be written under
any key, and ends the connection when its time has come. So it is with a payload of one byte more
than 16 MiB. -/
theorem accepted_unwritable :
    let long : Bytes := List.replicate (16 * 1024 * 1024 + 1) 0
    let c := ({ connection := hostConnection } : Conversation HostHandshake).run
      (offered fragmentedPing)
    (({} : SendQueue).send fragmentedPing).2 = .ok () ∧
      (∀ key, fragmentedPing.encode key = .error .badControl) ∧
      (({} : SendQueue).sendBinary long).2 = .ok () ∧
      (∀ key, (Frame.binary long).encode key = .error .tooLong) ∧
      c.worker = .waiting ∧ c.queue.frames = [fragmentedPing] ∧
      ((c.step .take).step (.write none)).worker = .gone ∧
      ((c.step .take).step (.write none)).connection.dispatcher.terminated = true := by
  intro long c
  have hlong : Frame.maxPayload < (Frame.binary long).payload.length := by
    show Frame.maxPayload < (List.replicate (16 * 1024 * 1024 + 1) (0 : UInt8)).length
    rw [List.length_replicate]
    decide
  have hrefused : (Frame.binary long).refusal? = some .tooLong := by
    rw [Frame.refusal?, if_neg (by simp [Frame.binary, Opcode.isControl]), if_pos hlong]
  refine ⟨by decide +kernel, fun key => rfl, rfl, fun key => ?_, by decide +kernel,
    by decide +kernel, by decide +kernel, by decide +kernel⟩
  rw [Frame.encode, hrefused]

end WebSocket

end WebClient
