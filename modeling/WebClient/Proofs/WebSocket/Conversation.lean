import Mathlib.Data.List.Perm.Subperm
import WebClient.Proofs.WebSocket.Connection

/-!
# Senders beside a connection

Any number of senders share a queue with the worker of one connection, and the two steps of a send
may lie among the steps of the others and of the worker in any order. What the senders do is a
matter of the flag alone: of the Closes that are offered, one is accepted (`Shares`). What the
worker does is a matter of the frames it has taken: they have been written, in order, through the
first Close among them (`Progress`), for a connection remembers the Close that it has sent, and goes
on only when all that waited has been written. Neither side needs to know how far the other has
come, so each keeps its own part of the state sound (`Shares.step`, `Sound.exists_step`).
-/

namespace WebClient.WebSocket

/-! ### Through the first Close -/

def hasClose (frames : List Frame) : Bool :=
  frames.any fun frame => frame.opcode = .close

/-- The frames of a row through the first Close. -/
def upToClose : List Frame → List Frame
  | [] => []
  | frame :: frames => frame :: if frame.opcode = .close then [] else upToClose frames

theorem hasClose_append (frames later : List Frame) :
    hasClose (frames ++ later) = (hasClose frames || hasClose later) :=
  List.any_append

theorem upToClose_append (frames later : List Frame) :
    upToClose (frames ++ later) =
      upToClose frames ++ if hasClose frames then [] else upToClose later := by
  induction frames with
  | nil => rfl
  | cons frame frames ih =>
    by_cases hclose : frame.opcode = .close
    · simp [upToClose, hasClose, hclose]
    · simp only [List.cons_append, upToClose, hclose, if_false, ih]
      simp [hasClose, hclose]

/-- What has been passed to the stream when the frames of a row have been taken and written. -/
def writtenThrough (frames : List Frame) : List (Outbound × Option StreamError) :=
  (upToClose frames).map fun frame => (.frame frame, none)

theorem map_fst_writtenThrough (frames : List Frame) :
    (writtenThrough frames).map Prod.fst = (upToClose frames).map .frame := by
  rw [writtenThrough, List.map_map]
  rfl

theorem snd_of_mem_writtenThrough {frames : List Frame} {sent : Outbound × Option StreamError}
    (h : sent ∈ writtenThrough frames) : sent.2 = none := by
  obtain ⟨frame, -, rfl⟩ := List.mem_map.1 h
  rfl

theorem writtenThrough_append_singleton (frames : List Frame) (frame : Frame) :
    writtenThrough (frames ++ [frame]) =
      writtenThrough frames ++
        (if hasClose frames then [] else [Outbound.frame frame]).map (·, none) := by
  rw [writtenThrough, upToClose_append, List.map_append]
  cases hasClose frames with
  | true => rfl
  | false =>
    have hframe : upToClose [frame] = [frame] := by simp [upToClose]
    rw [hframe]
    rfl

/-! ### The senders -/

namespace SendQueue

theorem eq_of_accept {q q' : SendQueue} {frame : Frame} (h : q.accept frame = (q', .ok ())) :
    q.closeQueued = false ∧ q' = { q with closeQueued := frame.opcode = .close } := by
  unfold accept at h
  split at h
  · simp at h
  · split at h
    · simp at h
    · next hopen => exact ⟨Bool.eq_false_iff.2 hopen, (Prod.mk.inj h).1.symm⟩

theorem eq_of_enqueue {q q' : SendQueue} {frame : Frame} (h : q.enqueue frame = (q', .ok ())) :
    q' = { q with frames := q.frames ++ [frame] } := by
  unfold enqueue at h
  split at h
  · simp at h
  · exact (Prod.mk.inj h).1.symm

theorem eq_of_take? {q q' : SendQueue} {frame : Frame} (h : q.take? = some (frame, q')) :
    q.frames = frame :: q'.frames ∧ q' = { q with frames := q'.frames } := by
  unfold take? at h
  split at h
  · simp at h
  · next frames hframes =>
    obtain ⟨rfl, rfl⟩ := Prod.mk.inj (Option.some.inj h)
    exact ⟨hframes, rfl⟩

theorem snd_accept (q : SendQueue) (frame : Frame) :
    (q.accept frame).2 =
      if frame.opcode.isControl && frame.payload.length > Frame.maxControlPayload then
        .error (.refusedFrame .longControl)
      else if q.closeQueued then .error .connectionClosed
      else .ok () := by
  rw [accept, apply_ite Prod.snd, apply_ite Prod.snd]

end SendQueue

/-- What the senders have done to a conversation. The frames that have joined the queue or are about
to were accepted, and a Close is among the accepted frames once the queue is shut, and only one. -/
structure Shares {σ : Type} (c : Conversation σ) : Prop where
  subperm : (c.inHand ++ c.queued).Subperm c.accepted
  countP_close : c.accepted.countP (fun frame => frame.opcode = .close) =
    if c.queue.closeQueued then 1 else 0

namespace Shares

variable {σ : Type} {c : Conversation σ}

theorem accept (h : Shares c) (frame : Frame) : Shares (c.accept frame) := by
  unfold Conversation.accept
  split
  · next queue haccept =>
    obtain ⟨hopen, rfl⟩ := SendQueue.eq_of_accept haccept
    refine ⟨?_, ?_⟩
    · have hmoved : (c.inHand ++ [frame] ++ c.queued).Perm (c.inHand ++ c.queued ++ [frame]) := by
        rw [List.append_assoc, List.append_assoc]
        exact List.perm_append_comm.append_left c.inHand
      exact hmoved.subperm.trans (h.subperm.append (List.Subperm.refl [frame]))
    · have hnone : c.accepted.countP (fun frame => frame.opcode = .close) = 0 := by
        rw [h.countP_close, hopen]
        rfl
      rw [List.countP_append, hnone, Nat.zero_add]
      simp [List.countP_cons]
  · exact h

theorem enqueue (h : Shares c) (index : Nat) : Shares (c.enqueue index) := by
  unfold Conversation.enqueue
  split
  · exact h
  · next frame hframe =>
    obtain ⟨hindex, hget⟩ := List.getElem?_eq_some_iff.1 hframe
    dsimp only
    split
    · next queue henqueue =>
      obtain rfl := SendQueue.eq_of_enqueue henqueue
      refine ⟨?_, h.countP_close⟩
      have hmoved : (c.inHand.eraseIdx index ++ (c.queued ++ [frame])).Perm
          (c.inHand ++ c.queued) := by
        rw [← List.append_assoc]
        refine (List.perm_append_singleton frame _).trans ?_
        rw [← List.cons_append, ← hget]
        exact (List.getElem_cons_eraseIdx_perm hindex).append_right c.queued
      exact hmoved.subperm.trans h.subperm
    · refine ⟨?_, h.countP_close⟩
      have hfewer := (List.eraseIdx_sublist c.inHand index).append_right c.queued
      exact hfewer.subperm.trans h.subperm

theorem closeQueued_eq (h : Shares c) : c.queue.closeQueued = hasClose c.accepted := by
  have hcount := h.countP_close
  cases hqueued : c.queue.closeQueued with
  | true =>
    rw [hqueued, if_pos rfl] at hcount
    have hsome : 0 < c.accepted.countP fun frame => frame.opcode = .close := by
      rw [hcount]
      exact Nat.one_pos
    obtain ⟨frame, hframe, hclose⟩ := List.countP_pos_iff.1 hsome
    exact (List.any_eq_true.2 ⟨frame, hframe, hclose⟩).symm
  | false =>
    rw [hqueued, if_neg Bool.false_ne_true, List.countP_eq_zero] at hcount
    exact (List.any_eq_false.2 hcount).symm

theorem step [Handshaker σ] (h : Shares c) (action : Conversation.Action) :
    Shares (c.step action) := by
  cases action with
  | accept frame => exact h.accept frame
  | enqueue index => exact h.enqueue index
  | start _ | read _ | readEnd | readFailure _ | write _ =>
    rw [Conversation.step]
    split
    · exact ⟨h.subperm, h.countP_close⟩
    · exact h
  | take =>
    rw [Conversation.step]
    split
    · unfold Conversation.take
      split
      · exact h
      · next frame queue htake =>
        obtain ⟨-, hqueue⟩ := SendQueue.eq_of_take? htake
        rw [hqueue]
        exact ⟨h.subperm, h.countP_close⟩
    · exact h
  | leave => exact ⟨h.subperm, h.countP_close⟩

end Shares

/-! ### The worker -/

/-- Nothing has been written, or the request of the handshake alone. -/
def OnlyRequest {σ : Type} [Handshaker σ] (handshaker : σ) (units : List Outbound) : Prop :=
  units = [] ∨ ∃ nonce, units = [.request (Handshaker.request handshaker nonce).2]

theorem OnlyRequest.of_append {σ : Type} [Handshaker σ] {handshaker : σ}
    {units later : List Outbound} (h : OnlyRequest handshaker (units ++ later)) :
    OnlyRequest handshaker units := by
  rcases h with hnil | ⟨nonce, hrequest⟩
  · exact .inl (List.append_eq_nil_iff.1 hnil).1
  · rcases List.append_eq_singleton_iff.1 hrequest with ⟨hnil, -⟩ | ⟨hall, -⟩
    · exact .inl hnil
    · exact .inr ⟨nonce, hall⟩

/-- How much of the frames that were taken has been written: they are a prefix of those through the
first Close, and only the last write may have failed. -/
structure Reaches (taken : List Frame) (written : List (Outbound × Option StreamError)) : Prop where
  isPrefix : written.map Prod.fst <+: (upToClose taken).map .frame
  snd_eq : ∀ sent ∈ written.dropLast, sent.2 = none

theorem Reaches.append {taken : List Frame} {written : List (Outbound × Option StreamError)}
    (h : Reaches taken written) (later : List Frame) : Reaches (taken ++ later) written := by
  refine ⟨?_, h.snd_eq⟩
  rw [upToClose_append, List.map_append]
  exact h.isPrefix.trans (List.prefix_append _ _)

theorem reaches_of_append {taken : List Frame}
    {written sent : List (Outbound × Option StreamError)} {waiting : List Outbound}
    (h : written ++ waiting.map (·, none) = writtenThrough taken) (hwaiting : waiting.length ≤ 1)
    (hsent : sent = [] ∨ ∃ failure, sent = waiting.map (·, failure)) :
    Reaches taken (written ++ sent) := by
  have hwritten : ∀ before ∈ written, before.2 = none := fun before hbefore =>
    snd_of_mem_writtenThrough (h ▸ List.mem_append_left _ hbefore)
  have hunits : written.map Prod.fst ++ waiting = (upToClose taken).map .frame := by
    rw [← map_fst_writtenThrough, ← h, List.map_append, List.map_map]
    simp [Function.comp_def]
  rcases hsent with rfl | ⟨failure, rfl⟩
  · rw [List.append_nil]
    exact ⟨⟨waiting, hunits⟩, fun before hbefore =>
      hwritten before (List.dropLast_subset _ hbefore)⟩
  · refine ⟨?_, fun before hbefore => ?_⟩
    · rw [← hunits, List.map_append, List.map_map]
      simp [Function.comp_def]
    · match waiting, hwaiting with
      | [], _ =>
        rw [List.map_nil, List.append_nil] at hbefore
        exact hwritten before (List.dropLast_subset _ hbefore)
      | [unit], _ =>
        rw [List.map_singleton, List.dropLast_concat] at hbefore
        exact hwritten before hbefore

structure Connection.IsNew {σ : Type} (handshaker : σ) (c : Connection σ) : Prop where
  handshaker_eq : c.dispatcher.handshaker = handshaker
  stands : c.dispatcher.Stands .pending
  opened_eq : c.dispatcher.opened = false
  closeSent_eq : c.dispatcher.closeSent = false
  pending_eq : c.pending = []
  closing_eq : c.closing = false

/-- Where the worker stands with the frames it has taken. While it goes on, all of them have been
written through the first Close, but for the one that it is about to write. -/
inductive Progress {σ : Type} (handshaker : σ) (taken : List Frame) (c : Connection σ)
    (written : List (Outbound × Option StreamError)) : Worker → Prop
  | unopened (hnew : c.IsNew handshaker) (htaken : taken = []) (hwritten : written = []) :
      Progress handshaker taken c written .unopened
  | waiting (hpending : c.pending = []) (hopen : c.closing = false)
      (halive : c.dispatcher.terminated = false)
      (hclose : c.dispatcher.closeSent = hasClose taken)
      (hwritten : written = writtenThrough taken) : Progress handshaker taken c written .waiting
  | answering (hinternal : ∀ unit ∈ c.pending, unit.isInternal = true)
      (hclose : c.dispatcher.terminated = false → c.dispatcher.closeSent = hasClose taken)
      (hwritten : written = writtenThrough taken) :
      Progress handshaker taken c written (.writing false)
  | sending (hlength : c.pending.length ≤ 1)
      (hclose : c.dispatcher.terminated = false → c.dispatcher.closeSent = hasClose taken)
      (hwritten : written ++ c.pending.map (·, none) = writtenThrough taken) :
      Progress handshaker taken c written (.writing true)
  | gone (hreaches : Reaches taken written) : Progress handshaker taken c written .gone

theorem Progress.reaches {σ : Type} {handshaker : σ} {c : Connection σ} {taken : List Frame}
    {written : List (Outbound × Option StreamError)} {worker : Worker}
    (h : Progress handshaker taken c written worker) : Reaches taken written := by
  have hall (hwritten : written = writtenThrough taken) : Reaches taken written := by
    have hnone : written ++ ([] : List Outbound).map (·, none) = writtenThrough taken := by
      rw [List.map_nil, List.append_nil]
      exact hwritten
    have hreaches := reaches_of_append hnone (Nat.zero_le 1) (.inl rfl)
    rwa [List.append_nil] at hreaches
  cases h with
  | unopened hnew htaken hwritten => exact hall (by rw [htaken, hwritten]; rfl)
  | waiting hpending hopen halive hclose hwritten => exact hall hwritten
  | answering hinternal hclose hwritten => exact hall hwritten
  | sending hlength hclose hwritten =>
    have hreaches := reaches_of_append hwritten hlength (.inl rfl)
    rwa [List.append_nil] at hreaches
  | gone hreaches => exact hreaches

/-- What the worker has done to a conversation when it has taken some frames. -/
structure Sound {σ : Type} [Handshaker σ] (handshaker : σ) (c : Conversation σ)
    (taken : List Frame) : Prop where
  stands : ∃ stage, c.connection.dispatcher.Stands stage
  queued_eq : c.queued = taken ++ c.queue.frames
  onlyRequest : c.connection.dispatcher.handshake ≠ .complete →
    OnlyRequest handshaker ((sentUnits c.outputs).map Prod.fst ++ c.connection.pending)
  filter_eq : (sentUnits c.outputs).filter (fun sent => !sent.1.isInternal) =
    c.written.filter fun sent => !sent.1.isInternal
  sublist : c.written.Sublist (sentUnits c.outputs)
  unopened_eq : c.worker = .unopened → sentUnits c.outputs = []
  progress : Progress handshaker taken c.connection c.written c.worker

namespace Sound

variable {σ : Type} [Handshaker σ] {handshaker : σ} {c : Conversation σ} {taken : List Frame}

theorem accept (h : Sound handshaker c taken) (frame : Frame) :
    Sound handshaker (c.accept frame) taken := by
  unfold Conversation.accept
  split
  · next queue haccept =>
    obtain ⟨-, rfl⟩ := SendQueue.eq_of_accept haccept
    exact ⟨h.stands, h.queued_eq, h.onlyRequest, h.filter_eq, h.sublist, h.unopened_eq, h.progress⟩
  · exact h

theorem enqueue (h : Sound handshaker c taken) (index : Nat) :
    Sound handshaker (c.enqueue index) taken := by
  unfold Conversation.enqueue
  split
  · exact h
  · next frame _ =>
    dsimp only
    split
    · next queue henqueue =>
      obtain rfl := SendQueue.eq_of_enqueue henqueue
      refine ⟨h.stands, ?_, h.onlyRequest, h.filter_eq, h.sublist, h.unopened_eq, h.progress⟩
      show c.queued ++ [frame] = taken ++ (c.queue.frames ++ [frame])
      rw [h.queued_eq, List.append_assoc]
    · exact ⟨h.stands, h.queued_eq, h.onlyRequest, h.filter_eq, h.sublist, h.unopened_eq,
        h.progress⟩

theorem leave (h : Sound handshaker c taken) : Sound handshaker c.leave taken :=
  ⟨h.stands, h.queued_eq, h.onlyRequest, h.filter_eq, h.sublist, (nomatch ·),
    .gone h.progress.reaches⟩

theorem after (h : Sound handshaker c taken) {result : Connection σ × List Output}
    (hstands : ∃ stage, result.1.dispatcher.Stands stage) (hsent : sentUnits result.2 = [])
    (hrequest : result.1.dispatcher.handshake ≠ .complete →
      OnlyRequest handshaker ((sentUnits c.outputs).map Prod.fst ++ result.1.pending))
    {queue : SendQueue} {next : List Frame} (hqueued : c.queued = next ++ queue.frames)
    {worker : Worker} (hworker : worker ≠ .unopened)
    (hprogress : Progress handshaker next result.1 c.written worker) :
    Sound handshaker ({ c with queue }.after result worker) next := by
  have hsame : sentUnits (c.outputs ++ result.2) = sentUnits c.outputs := by
    rw [sentUnits_append, hsent, List.append_nil]
  refine ⟨hstands, hqueued, fun hpending => ?_, ?_, ?_, fun hnone => absurd hnone hworker,
    hprogress⟩
  · show OnlyRequest handshaker ((sentUnits (c.outputs ++ result.2)).map Prod.fst ++ _)
    rw [hsame]
    exact hrequest hpending
  · show (sentUnits (c.outputs ++ result.2)).filter _ = _
    rw [hsame]
    exact h.filter_eq
  · show c.written.Sublist (sentUnits (c.outputs ++ result.2))
    rw [hsame]
    exact h.sublist

theorem start (h : Sound handshaker c taken) (hworker : c.worker = .unopened) (nonce : Nonce) :
    Sound handshaker
      (c.after (c.connection.call (.connectionOpen nonce c.connection.writeFailure))
        (.writing false)) taken := by
  have hprogress := h.progress
  rw [hworker] at hprogress
  cases hprogress with
  | unopened hnew htaken hwritten =>
    obtain ⟨hcall, hsent⟩ := Connection.call_connectionOpen hnew.opened_eq hnew.closing_eq nonce
    refine h.after ?_ hsent (fun _ => ?_) h.queued_eq (by simp) ?_
    · rw [hcall]
      have hstands := hnew.stands
      exact ⟨.pending, hstands.handshake_eq, hstands.session_eq, hstands.outcome_eq,
        hstands.terminated_eq, hstands.context_eq⟩
    · rw [hcall, h.unopened_eq hworker, hnew.pending_eq, ← hnew.handshaker_eq]
      exact .inr ⟨nonce, rfl⟩
    · rw [hcall]
      refine .answering (fun unit hunit => ?_) (fun _ => ?_) ?_
      · rw [hnew.pending_eq] at hunit
        rw [List.mem_singleton.1 hunit]
        rfl
      · rw [htaken]
        exact hnew.closeSent_eq
      · rw [htaken, hwritten]
        rfl

theorem hears (h : Sound handshaker c taken) (hworker : c.worker = .waiting)
    {result : Connection σ × List Output}
    (hhears : ∀ stage, c.connection.dispatcher.Stands stage →
      ∃ next, c.connection.Hears stage result next)
    {worker : Worker} (hnext : worker = .writing false ∨ worker = .gone) :
    Sound handshaker (c.after result worker) taken := by
  obtain ⟨stage, hstage⟩ := h.stands
  obtain ⟨next, hhears⟩ := hhears stage hstage
  obtain ⟨answers, hanswers, hinternal, hnone⟩ := hhears.answers
  refine h.after ⟨next, hhears.stands⟩ hhears.sent_eq (fun hpending => ?_) h.queued_eq ?_ ?_
  · rw [hhears.stands.handshake_eq] at hpending
    rw [hanswers, hnone hpending, List.append_nil]
    refine h.onlyRequest ?_
    rw [hstage.handshake_eq]
    exact hhears.keeps.handshake_ne hpending
  · rcases hnext with rfl | rfl <;> simp
  · have hreaches := h.progress.reaches
    have hprogress := h.progress
    rw [hworker] at hprogress
    cases hprogress with
    | waiting hpending hopen halive hclose hwritten =>
      rcases hnext with rfl | rfl
      · refine .answering ?_ (fun hgoes => ?_) hwritten
        · rw [hanswers, hpending]
          exact hinternal
        · rw [hhears.closeSent_eq hgoes]
          exact hclose
      · exact .gone hreaches

theorem take (h : Sound handshaker c taken) (hworker : c.worker = .waiting)
    (hcomplete : c.connection.dispatcher.handshake = .complete) :
    ∃ next, Sound handshaker c.take next := by
  unfold Conversation.take
  split
  · exact ⟨taken, h⟩
  · next frame queue htake =>
    obtain ⟨hframes, -⟩ := SendQueue.eq_of_take? htake
    have hprogress := h.progress
    rw [hworker] at hprogress
    cases hprogress with
    | waiting hpending hopen halive hclose hwritten =>
      obtain ⟨hturn, hsent⟩ := Connection.turn_command hopen halive frame
      obtain ⟨stage, hstage⟩ := h.stands
      refine ⟨taken ++ [frame], h.after ?_ hsent (fun hpending => ?_) ?_ (by simp) ?_⟩
      · rw [hturn]
        exact ⟨stage, hstage.handshake_eq, hstage.session_eq, hstage.outcome_eq,
          hstage.terminated_eq, hstage.context_eq⟩
      · rw [hturn] at hpending
        exact absurd hcomplete hpending
      · rw [h.queued_eq, hframes, List.append_assoc]
        rfl
      · rw [hturn]
        refine .sending ?_ (fun _ => ?_) ?_
        · rw [hpending, List.nil_append]
          split <;> simp
        · show (c.connection.dispatcher.closeSent || decide (frame.opcode = .close)) = _
          rw [hclose, hasClose_append]
          simp [hasClose]
        · rw [writtenThrough_append_singleton, hwritten, hpending, hclose, List.nil_append]

/-- What waits is the connection's own, or it has been taken out of the queue. -/
theorem filter_sentUnits_endStep (h : Sound handshaker c taken)
    (hworker : c.worker = .writing false) {failure : Option StreamError}
    (hsent : sentUnits (c.connection.endStep failure).2 = [] ∨
      sentUnits (c.connection.endStep failure).2 = c.connection.pending.map (·, failure)) :
    (sentUnits (c.connection.endStep failure).2).filter (fun sent => !sent.1.isInternal) = [] := by
  have hprogress := h.progress
  rw [hworker] at hprogress
  cases hprogress with
  | answering hinternal hclose hwritten =>
    rcases hsent with hnone | hall
    · rw [hnone]
      rfl
    · rw [hall, List.filter_map, List.map_eq_nil_iff, List.filter_eq_nil_iff]
      intro unit hunit
      simp [hinternal unit hunit]

/-- The worker goes on only if it has written all that waited. -/
theorem progress_write (h : Sound handshaker c taken) {fromQueue : Bool}
    (hworker : c.worker = .writing fromQueue) (failure : Option StreamError) :
    Progress handshaker taken (c.write fromQueue failure).connection
      (c.write fromQueue failure).written (c.write fromQueue failure).worker := by
  obtain ⟨stage, hstage⟩ := h.stands
  obtain ⟨next, hends⟩ := Connection.exists_endsTurn hstage failure
  have hprogress := h.progress
  rw [hworker] at hprogress
  show Progress handshaker taken (c.connection.endStep failure).1
    (c.written ++ if fromQueue then sentUnits (c.connection.endStep failure).2 else [])
    (if (c.connection.endStep failure).1.finished then .gone else .waiting)
  cases hfinished : (c.connection.endStep failure).1.finished with
  | true =>
    rw [if_pos rfl]
    cases hprogress with
    | answering hinternal hclose hwritten =>
      rw [if_neg Bool.false_ne_true, List.append_nil]
      exact .gone h.progress.reaches
    | sending hlength hclose hwritten =>
      rw [if_pos rfl]
      exact .gone (reaches_of_append hwritten hlength
        (hends.sent_eq.imp_right fun hall => ⟨failure, hall⟩))
  | false =>
    rw [if_neg Bool.false_ne_true]
    obtain ⟨hdispatcher, hopen, halive, hsent⟩ := hends.going hfinished
    cases hprogress with
    | answering hinternal hclose hwritten =>
      rw [if_neg Bool.false_ne_true, List.append_nil]
      refine .waiting hends.pending_nil hopen halive ?_ hwritten
      rw [hdispatcher] at halive ⊢
      exact hclose halive
    | sending hlength hclose hwritten =>
      rw [if_pos rfl]
      refine .waiting hends.pending_nil hopen halive ?_ ?_
      · rw [hdispatcher] at halive ⊢
        exact hclose halive
      · rw [hsent]
        exact hwritten

theorem onlyRequest_write (h : Sound handshaker c taken) {stage next : Stage}
    (hstage : c.connection.dispatcher.Stands stage) {failure : Option StreamError}
    (hends : c.connection.EndsTurn stage failure (c.connection.endStep failure) next)
    (hpending : (c.connection.endStep failure).1.dispatcher.handshake ≠ .complete) :
    OnlyRequest handshaker
      ((sentUnits (c.outputs ++ (c.connection.endStep failure).2)).map Prod.fst ++
        (c.connection.endStep failure).1.pending) := by
  have hbefore : c.connection.dispatcher.handshake ≠ .complete := by
    rw [hends.stands.handshake_eq] at hpending
    rw [hstage.handshake_eq]
    exact hends.keeps.handshake_ne hpending
  rw [sentUnits_append, List.map_append, hends.pending_nil, List.append_nil]
  rcases hends.sent_eq with hnone | hall
  · rw [hnone, List.map_nil, List.append_nil]
    exact (h.onlyRequest hbefore).of_append
  · have hunits : (c.connection.pending.map (·, failure)).map Prod.fst = c.connection.pending := by
      rw [List.map_map]
      exact List.map_id _
    rw [hall, hunits]
    exact h.onlyRequest hbefore

theorem write (h : Sound handshaker c taken) {fromQueue : Bool}
    (hworker : c.worker = .writing fromQueue) (failure : Option StreamError) :
    Sound handshaker (c.write fromQueue failure) taken := by
  obtain ⟨stage, hstage⟩ := h.stands
  obtain ⟨next, hends⟩ := Connection.exists_endsTurn hstage failure
  refine ⟨⟨next, hends.stands⟩, h.queued_eq, h.onlyRequest_write hstage hends, ?_, ?_,
    fun hnone => ?_, h.progress_write hworker failure⟩
  · show (sentUnits (c.outputs ++ (c.connection.endStep failure).2)).filter _ =
      (c.written ++ if fromQueue then sentUnits (c.connection.endStep failure).2 else []).filter _
    rw [sentUnits_append, List.filter_append, List.filter_append, h.filter_eq]
    cases fromQueue with
    | true => rfl
    | false =>
      rw [h.filter_sentUnits_endStep hworker hends.sent_eq]
      rfl
  · show (c.written ++ if fromQueue then sentUnits (c.connection.endStep failure).2 else []).Sublist
      (sentUnits (c.outputs ++ (c.connection.endStep failure).2))
    rw [sentUnits_append]
    apply h.sublist.append
    cases fromQueue with
    | true => exact List.Sublist.refl _
    | false => exact List.nil_sublist _
  · have hworker : (if (c.connection.endStep failure).1.finished then Worker.gone else .waiting) =
        .unopened := hnone
    split at hworker <;> simp at hworker

/-- **One action.** Whatever happens next, the worker's part stays sound. -/
theorem exists_step (h : Sound handshaker c taken) (action : Conversation.Action) :
    ∃ next, Sound handshaker (c.step action) next := by
  cases action with
  | accept frame => exact ⟨taken, h.accept frame⟩
  | enqueue index => exact ⟨taken, h.enqueue index⟩
  | start nonce =>
    rw [Conversation.step]
    split
    · next hworker => exact ⟨taken, h.start hworker nonce⟩
    · exact ⟨taken, h⟩
  | read bytes =>
    rw [Conversation.step]
    split
    · next hworker =>
      exact ⟨taken, h.hears hworker
        (fun _ hstage => Connection.exists_hears_read hstage bytes) (.inl rfl)⟩
    · exact ⟨taken, h⟩
  | readEnd =>
    rw [Conversation.step]
    split
    · next hworker =>
      exact ⟨taken, h.hears hworker (fun _ hstage => Connection.exists_hears_readEnd hstage)
        (.inr rfl)⟩
    · exact ⟨taken, h⟩
  | readFailure e =>
    rw [Conversation.step]
    split
    · next hworker =>
      exact ⟨taken, h.hears hworker
        (fun _ hstage => Connection.exists_hears_fail hstage (.stream e)) (.inl rfl)⟩
    · exact ⟨taken, h⟩
  | take =>
    rw [Conversation.step]
    split
    · next hready => exact h.take hready.1 hready.2
    · exact ⟨taken, h⟩
  | write failure =>
    rw [Conversation.step]
    split
    · next fromQueue hworker => exact ⟨taken, h.write hworker failure⟩
    · exact ⟨taken, h⟩
  | leave => exact ⟨taken, h.leave⟩

end Sound

/-! ### A whole conversation -/

section

variable {σ : Type}

theorem shares_new (connection : Connection σ) : Shares ({ connection } : Conversation σ) :=
  ⟨List.Subperm.refl [], rfl⟩

variable [Handshaker σ]

theorem sound_new {handshaker : σ} {connection : Connection σ}
    (hnew : connection.IsNew handshaker) : Sound handshaker { connection } [] where
  stands := ⟨.pending, hnew.stands⟩
  queued_eq := rfl
  onlyRequest _ := .inl hnew.pending_eq
  filter_eq := rfl
  sublist := List.Sublist.refl []
  unopened_eq _ := rfl
  progress := .unopened hnew rfl rfl

theorem Shares.run {c : Conversation σ} (h : Shares c) (actions : List Conversation.Action) :
    Shares (c.run actions) := by
  induction actions generalizing c with
  | nil => exact h
  | cons action actions ih => exact ih (h.step action)

theorem Sound.exists_run {handshaker : σ} {c : Conversation σ} {taken : List Frame}
    (h : Sound handshaker c taken) (actions : List Conversation.Action) :
    ∃ last, Sound handshaker (c.run actions) last := by
  induction actions generalizing c taken with
  | nil => exact ⟨taken, h⟩
  | cons action actions ih =>
    obtain ⟨next, hnext⟩ := h.exists_step action
    exact ih hnext

/-- **Senders and worker together.** Any number of sends, each in two steps, lie among the steps of
one worker in any order, with any bytes read and any writes failing. Wherever they stand: at most
one Close has joined the queue. Before the handshake is complete, nothing has been passed to the
stream but its request. The frames of the queue that have been passed to the stream are a prefix of
the queue through its first Close, so what joined behind a Close never is; only the last of them may
not have been written, and while the worker waits none that has left the queue is missing. They went
out in this order, and all else that went out is the request, a Pong or a Close that the connection
writes of its own accord. And a send that starts is refused if its control payload is too long, and
because the connection is closed once a Close has been accepted. -/
theorem senders_interleave (handshaker : σ) (context : ConnectionContext) (registers : Bool)
    (observer : Observer) (traffic : Option TrafficLog) (maskKeys : Nat → MaskKey)
    (actions : List Conversation.Action) :
    let connection : Connection σ :=
      { dispatcher := { handshaker, context, registers }, observer, traffic, maskKeys }
    let c := ({ connection } : Conversation σ).run actions
    c.queued.countP (fun frame => frame.opcode = .close) ≤ 1 ∧
      (c.connection.dispatcher.handshake ≠ .complete →
        OnlyRequest handshaker ((sentUnits c.outputs).map Prod.fst)) ∧
      c.written.map Prod.fst <+: (upToClose c.queued).map .frame ∧
      (∀ sent ∈ c.written.dropLast, sent.2 = none) ∧
      (c.worker = .waiting → ∃ taken,
        c.queued = taken ++ c.queue.frames ∧ c.written = writtenThrough taken) ∧
      c.written.Sublist (sentUnits c.outputs) ∧
      (sentUnits c.outputs).filter (fun sent => !sent.1.isInternal) =
        c.written.filter (fun sent => !sent.1.isInternal) ∧
      ∀ frame, (c.queue.accept frame).2 =
        if frame.opcode.isControl && frame.payload.length > Frame.maxControlPayload then
          .error (.refusedFrame .longControl)
        else if hasClose c.accepted then .error .connectionClosed
        else .ok () := by
  intro connection c
  have hnew : connection.IsNew handshaker :=
    ⟨rfl, Dispatcher.stands_new handshaker context registers, rfl, rfl, rfl, rfl⟩
  have hshares : Shares c := (shares_new connection).run actions
  obtain ⟨taken, hsound⟩ : ∃ taken, Sound handshaker c taken :=
    (sound_new hnew).exists_run actions
  have hreaches : Reaches c.queued c.written := by
    rw [hsound.queued_eq]
    exact hsound.progress.reaches.append c.queue.frames
  refine ⟨?_, fun hpending => (hsound.onlyRequest hpending).of_append, hreaches.isPrefix,
    hreaches.snd_eq, fun hworker => ⟨taken, hsound.queued_eq, ?_⟩, hsound.sublist,
    hsound.filter_eq, fun frame => ?_⟩
  · have hqueued : c.queued.Subperm c.accepted :=
      (List.sublist_append_right c.inHand c.queued).subperm.trans hshares.subperm
    have hcount := hqueued.countP_le fun frame => frame.opcode = .close
    rw [hshares.countP_close] at hcount
    split at hcount <;> omega
  · have hprogress := hsound.progress
    rw [hworker] at hprogress
    cases hprogress with
    | waiting hpending hopen halive hclose hwritten => exact hwritten
  · rw [SendQueue.snd_accept, hshares.closeQueued_eq]

end

end WebClient.WebSocket
