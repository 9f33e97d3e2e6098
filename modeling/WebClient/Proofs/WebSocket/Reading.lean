import WebClient.Proofs.Frame.Signals
import WebClient.Proofs.WebSocket.Awaiting

/-!
# Reading behind the handshake

A connection that has opened drains its buffer after every read, and calls its dispatcher for every
frame that comes of it and for the error that ends the reading. So wherever the stream is cut, its
calls are those for the whole stream (`Speaks.relays_run`). `Relays` adds to what a connection tells
what it writes: all that the dispatcher writes goes out, in order, or waits for the end of the turn.
Nothing is lost there, because a Pong and the answer to a Close can always be written.
-/

namespace WebClient

open WebSocket

/-! ### The calls for a buffer -/

namespace FrameReader.Drained

/-- The calls that a connection makes when it drains a buffer. -/
def calls (d : Drained) : List Dispatcher.Call :=
  d.frames.map (fun received => .receive (.frame received) none) ++
    d.failure.toList.map fun e => .fail (.protocolViolation e.message)

theorem calls_behind (frames : List Received) (d : Drained) :
    (d.behind frames).calls =
      frames.map (fun received => .receive (.frame received) none) ++ d.calls := by
  rw [calls, calls, behind, List.map_append, List.append_assoc]

theorem calls_of_failure_eq_none {d : Drained} (h : d.failure = none) :
    d.calls = d.frames.map fun received => .receive (.frame received) none := by
  rw [calls, h]
  exact List.append_nil _

end FrameReader.Drained

namespace WebSocket

def Outbound.IsWritable : Outbound → Prop
  | .request _ => False
  | .frame f => f.refusal? = none

theorem isWritable_closeEcho (code : CloseCode) :
    Outbound.IsWritable (.frame (Dispatcher.closeEcho code)) := by
  show (Dispatcher.closeEcho code).refusal? = none
  unfold Dispatcher.closeEcho
  repeat' split
  all_goals rfl

theorem isWritable_pong {payload : Bytes} (h : payload.length ≤ Frame.maxControlPayload) :
    Outbound.IsWritable (.frame (Frame.pong payload)) := by
  have hmax : Frame.maxControlPayload ≤ Frame.maxPayload := by decide
  have hlong : ¬ payload.length > Frame.maxPayload := by omega
  simp [Outbound.IsWritable, Frame.refusal?, Frame.pong, hlong, h]

namespace Dispatcher

/-- Something that comes of reading, where Pings are short. -/
def Call.IsHeard : Call → Prop
  | .receive (.frame received) _ => received.ShortSignals
  | .receive (.response _) _ | .connectionClosed | .fail _ => True
  | .connectionOpen .. | .send .. => False

theorem isHeard_calls {d : FrameReader.Drained}
    (h : ∀ received ∈ d.frames, received.ShortSignals) : ∀ call ∈ d.calls, call.IsHeard := by
  intro call hcall
  rcases List.mem_append.1 hcall with hframe | hfailure
  · obtain ⟨received, hreceived, rfl⟩ := List.mem_map.1 hframe
    exact h received hreceived
  · obtain ⟨e, -, rfl⟩ := List.mem_map.1 hfailure
    trivial

end Dispatcher

end WebSocket

/-- The calls for more bytes come behind those for fewer. -/
theorem FrameReader.exists_calls_append {r : FrameReader} (hshort : r.phase.ShortSignals)
    (buffer more : Bytes) :
    ∃ later, (r.drain (buffer ++ more)).calls = (r.drain buffer).calls ++ later ∧
      (∀ call ∈ later, call.IsHeard) ∧
      ((r.drain buffer).failure = none →
        later = ((r.drain buffer).reader.drain ((r.drain buffer).rest ++ more)).calls ∧
        r.drain (buffer ++ more) =
          ((r.drain buffer).reader.drain ((r.drain buffer).rest ++ more)).behind
            (r.drain buffer).frames) := by
  have hreader := (FrameReader.shortSignals_drain hshort buffer).1
  have happend := FrameReader.drain_append r buffer more
  unfold FrameReader.Drained.resume at happend
  cases hfailure : (r.drain buffer).failure with
  | some e =>
    simp only [hfailure] at happend
    refine ⟨[], ?_, fun _ hcall => absurd hcall List.not_mem_nil, fun hnone => nomatch hnone⟩
    rw [happend, List.append_nil, FrameReader.Drained.calls, FrameReader.Drained.calls, hfailure]
  | none =>
    simp only [hfailure] at happend
    refine ⟨_, ?_, Dispatcher.isHeard_calls (FrameReader.shortSignals_drain hreader _).2,
      fun _ => ⟨rfl, happend⟩⟩
    rw [happend, FrameReader.Drained.calls_behind,
      FrameReader.Drained.calls_of_failure_eq_none hfailure]

namespace WebSocket

namespace Dispatcher

variable {σ : Type}

/-- The handshake has been completed, whether or not the connection has ended since. -/
def HasOpened (d : Dispatcher σ) : Prop :=
  ∃ stage, d.Stands stage ∧ stage.handshake = .complete

theorem HasOpened.handshake_eq {d : Dispatcher σ} (h : d.HasOpened) :
    d.handshake = .complete := by
  obtain ⟨stage, hstands, hcomplete⟩ := h
  exact hstands.handshake_eq.trans hcomplete

variable [Handshaker σ]

/-- Whatever is read behind the end is left alone. -/
theorem run_of_isHeard {d : Dispatcher σ} (hend : d.terminated = true) {calls : List Call}
    (h : ∀ call ∈ calls, call.IsHeard) : d.run calls = (d, []) := by
  induction calls with
  | nil => rfl
  | cons call calls ih =>
    have hstep : d.step call = (d, []) := by
      cases call with
      | connectionOpen nonce failure => exact (h _ List.mem_cons_self).elim
      | receive unit failure => exact receive_of_terminated hend unit failure
      | connectionClosed => exact if_pos hend
      | fail cause => exact if_pos hend
      | send frame failure => exact (h _ List.mem_cons_self).elim
    rw [run_cons, hstep, ih fun later hlater => h later (List.mem_cons_of_mem call hlater)]
    rfl

theorem isWritable_of_mem_writes {d : Dispatcher σ} {call : Call} (h : call.IsHeard)
    {unit : Outbound} (hunit : unit ∈ writes (d.step call).2) : unit.IsWritable := by
  obtain ⟨failure, hattempt⟩ := exists_mem_attempts hunit
  rw [attempts_step] at hattempt
  unfold passes at hattempt
  split at hattempt
  · exact h.elim
  · next payload _ =>
    split at hattempt
    · obtain ⟨rfl, -⟩ := Prod.mk.inj (List.mem_singleton.1 hattempt)
      exact isWritable_pong (h payload rfl)
    · exact absurd hattempt List.not_mem_nil
  · split at hattempt
    · obtain ⟨rfl, -⟩ := Prod.mk.inj (List.mem_singleton.1 hattempt)
      exact isWritable_closeEcho _
    · exact absurd hattempt List.not_mem_nil
  · exact h.elim
  all_goals exact absurd hattempt List.not_mem_nil

theorem isWritable_of_mem_writes_run {d : Dispatcher σ} {calls : List Call}
    (h : ∀ call ∈ calls, call.IsHeard) : ∀ unit ∈ writes (d.run calls).2, unit.IsWritable := by
  induction calls generalizing d with
  | nil => exact fun _ hunit => absurd hunit List.not_mem_nil
  | cons call calls ih =>
    intro unit hunit
    rw [run_cons, writes_append] at hunit
    rcases List.mem_append.1 hunit with hfirst | hlater
    · exact isWritable_of_mem_writes (h call List.mem_cons_self) hfirst
    · exact ih (fun later hmem => h later (List.mem_cons_of_mem call hmem)) unit hlater

theorem HasOpened.run {d : Dispatcher σ} (h : d.HasOpened) (calls : List Call) :
    (d.run calls).1.HasOpened := by
  obtain ⟨stage, hstands, hcomplete⟩ := h
  obtain ⟨next, hnext, hkeeps, -⟩ := hstands.exists_stands_run calls
  refine ⟨next, hnext, ?_⟩
  rcases hkeeps with rfl | ⟨hhandshake, -⟩
  · nomatch hcomplete
  · exact hhandshake.trans hcomplete

end Dispatcher

namespace Connection

variable {σ : Type}

/-! ### Connections that have opened -/

/-- A connection that has opened, and may have heard the last since. -/
structure Listens (c : Connection σ) : Prop where
  opened : c.dispatcher.HasOpened
  sound : c.Sound

theorem Listens.writeFailure_eq {c : Connection σ} (h : c.Listens)
    (halive : c.dispatcher.terminated = false) : c.writeFailure = none := by
  have hopen : c.closing = false := Bool.eq_false_iff.2 fun hclosing =>
    Bool.false_ne_true (halive.symm.trans (h.sound.closing hclosing))
  rw [writeFailure, hopen]
  rfl

theorem decode_of_complete {c : Connection σ} (h : c.dispatcher.handshake = .complete) :
    c.decode =
      ({ c with
          frames := (c.frames.decode c.buffer).reader
          buffer := (c.frames.decode c.buffer).rest },
        match (c.frames.decode c.buffer).result with
        | .ok received => .ok (received.map .frame)
        | .error e => .error (.protocolViolation e.message)) := by
  unfold decode
  split
  · next hpending =>
    rw [h] at hpending
    nomatch hpending
  · rfl

/-- The connection stands where the draining of its buffer has stopped. -/
structure Follows (c : Connection σ) (d : FrameReader.Drained) : Prop where
  failure_eq : d.failure = none
  frames_eq : c.frames = d.reader
  buffer_eq : c.buffer = d.rest

/-- A connection that has opened, behind a turn that has drained its buffer. -/
structure Speaks (c : Connection σ) (d : FrameReader.Drained) : Prop extends c.Listens where
  pending_eq : c.pending = []
  finished_eq : c.finished = c.dispatcher.terminated
  follows : c.finished = false → c.Follows d

theorem Speaks.congr {c : Connection σ} {d d' : FrameReader.Drained} (h : c.Speaks d)
    (hfollows : c.finished = false → c.Follows d → c.Follows d') : c.Speaks d' :=
  ⟨h.toListens, h.pending_eq, h.finished_eq, fun hgoes => hfollows hgoes (h.follows hgoes)⟩

/-! ### What is written -/

theorem exists_encodeAll_eq {units : List Outbound} (h : ∀ unit ∈ units, unit.IsWritable)
    (maskKeys : Nat → MaskKey) (masked : Nat) :
    ∃ written, encodeAll maskKeys masked units = .ok written := by
  induction units generalizing masked with
  | nil => exact ⟨_, rfl⟩
  | cons unit units ih =>
    cases unit with
    | request r => exact (h _ List.mem_cons_self).elim
    | frame f =>
      have hallowed : f.refusal? = none := h _ List.mem_cons_self
      obtain ⟨⟨later, masked'⟩, hlater⟩ :=
        ih (fun unit hunit => h unit (List.mem_cons_of_mem _ hunit)) (masked + 1)
      simp only [encodeAll, Frame.encode, hallowed, hlater]
      exact ⟨_, rfl⟩

theorem flush_of_isWritable {c : Connection σ} (h : ∀ unit ∈ c.pending, unit.IsWritable) :
    (c.flush none).2.2 = .ok () := by
  obtain ⟨written, hwritten⟩ := exists_encodeAll_eq h c.maskKeys c.masked
  unfold flush
  split
  · rfl
  · rw [hwritten]

variable [Handshaker σ]

/-- A connection makes calls, and passes on what the dispatcher writes: the units go out in order,
behind those that waited, and the last of them may wait still. -/
structure Relays (c : Connection σ) (calls : List Dispatcher.Call)
    (result : Connection σ × List Output) : Prop extends c.Makes calls result where
  sent_eq : sentUnits result.2 ++ result.1.pending.map (·, none) =
    c.pending.map (·, none) ++ (writes (c.dispatcher.run calls).2).map (·, none)

theorem Relays.trans {c c' c'' : Connection σ} {calls more : List Dispatcher.Call}
    {outputs later : List Output} (h : c.Relays calls (c', outputs))
    (hlater : c'.Relays more (c'', later)) : c.Relays (calls ++ more) (c'', outputs ++ later) := by
  have hsent := h.sent_eq
  have hsent' := hlater.sent_eq
  have hdispatcher : c'.dispatcher = (c.dispatcher.run calls).1 := h.dispatcher_eq
  refine ⟨h.toMakes.trans hlater.toMakes, ?_⟩
  dsimp only at hsent hsent' ⊢
  rw [sentUnits_append, List.append_assoc, hsent', ← List.append_assoc, hsent, hdispatcher,
    Dispatcher.run_append, writes_append, List.map_append, List.append_assoc]

theorem relays_nothing {c c' : Connection σ} {outputs : List Output}
    (hmakes : c.Makes [] (c', outputs)) (hpending : c'.pending = c.pending)
    (hsent : sentUnits outputs = []) : c.Relays [] (c', outputs) := by
  refine ⟨hmakes, ?_⟩
  rw [hsent, hpending]
  exact (List.append_nil _).symm

theorem relays_call (c : Connection σ) (call : Dispatcher.Call) :
    c.Relays [call] (c.call call) := by
  obtain ⟨hcall, hsent⟩ := c.call_eq call
  refine ⟨c.makes_call call, ?_⟩
  rw [hsent, hcall, Dispatcher.run_cons, writes_append]
  simp [Dispatcher.run, writes]

theorem Relays.of_decode {c c' : Connection σ} {answer : Except Error (Option Inbound)}
    (hdecode : c.decode = (c', answer)) {calls : List Dispatcher.Call}
    {result : Connection σ × List Output} (h : c'.Relays calls result) :
    c.Relays calls result := by
  refine ⟨.of_decode hdecode h.toMakes, ?_⟩
  obtain ⟨responses, frames, buffer, rfl⟩ := exists_eq_of_decode hdecode
  exact h.sent_eq

theorem relays_of_terminated {c : Connection σ} (hend : c.dispatcher.terminated = true)
    {calls : List Dispatcher.Call} (h : ∀ call ∈ calls, call.IsHeard) :
    c.Relays calls (c, []) := by
  have hrun := Dispatcher.run_of_isHeard hend h
  refine ⟨⟨?_, ?_, id⟩, ?_⟩
  · rw [hrun]
  · rw [hrun]
    rfl
  · rw [hrun]
    exact (List.append_nil _).symm

theorem Relays.of_read {c c' : Connection σ} {piece : Bytes} {calls : List Dispatcher.Call}
    {outputs : List Output}
    (h : ({ c with buffer := c.buffer ++ piece } : Connection σ).Relays calls (c', outputs)) :
    c.Relays calls (c', c.trafficRecord .inbound piece ++ outputs) := by
  obtain ⟨⟨hdispatcher, htold, hsound⟩, hsent⟩ := h
  refine ⟨⟨hdispatcher, ?_, fun hc => hsound ⟨hc.closing, hc.finished⟩⟩, ?_⟩
  · rw [told_append, told_trafficRecord]
    exact htold
  · rw [sentUnits_append, sentUnits_trafficRecord]
    exact hsent

/-! ### The end of a turn -/

/-- A turn ends with all that waited written, if it can be, and the connection goes on unless its
dispatcher has heard the last. -/
theorem endStep_of_isWritable {c : Connection σ} (h : ∀ unit ∈ c.pending, unit.IsWritable)
    (hsound : c.Sound) (hlive : c.finished = false) :
    c.Relays [] (c.endStep none) ∧ ∃ masked, (c.endStep none).1 =
      { c with pending := [], masked, finished := c.dispatcher.terminated } := by
  have hok := flush_of_isWritable h
  have hmakes := c.makes_flush none
  obtain ⟨hpending, -, -, hsent⟩ := c.flushed_flush none
  obtain ⟨masked, hflush⟩ := c.exists_flush_eq none
  rcases hresult : c.flush none with ⟨c', outputs, answer⟩
  rw [hresult] at hok hmakes hsent hpending hflush
  obtain rfl : answer = .ok () := hok
  have hend : c.endStep none = ((c'.settle none).1, outputs ++ (c'.settle none).2) := by
    rw [endStep, flushOrFail, hresult]
  have hsettle := settle_of_nil hpending none
  obtain rfl : c' = { c with pending := [], masked } := hflush
  have hends : (c.closing || c.dispatcher.terminated) = c.dispatcher.terminated := by
    have himplies := hsound.closing
    revert himplies
    cases c.closing <;> simp
  rw [hend]
  refine ⟨⟨hmakes.trans (makes_settle _ none), ?_⟩, masked, ?_⟩
  · have hwritten : sentUnits outputs = c.pending.map (·, none) := hsent rfl
    rw [sentUnits_append, hwritten, hsettle]
    split <;> simp [sentUnits, Output.sentUnits, Dispatcher.run, writes]
  · rw [hsettle]
    simp only [hends]
    split
    · next hterminated => rw [hterminated]
    · next hgoes => rw [Bool.eq_false_iff.2 hgoes, ← hlive]

/-! ### A buffer of frames -/

theorem Listens.of_makes {c : Connection σ} (h : c.Listens) {calls : List Dispatcher.Call}
    {result : Connection σ × List Output} (hmakes : c.Makes calls result) :
    result.1.Listens := by
  refine ⟨?_, hmakes.sound h.sound⟩
  rw [hmakes.dispatcher_eq]
  exact h.opened.run calls

/-- A connection makes the calls for a buffer, and stands where they leave it, if it goes on. -/
structure Drains (c : Connection σ) (d : FrameReader.Drained)
    (result : Connection σ × List Output) : Prop extends c.Relays d.calls result where
  finished_eq : result.1.finished = c.finished
  follows : result.1.dispatcher.terminated = false → result.1.Follows d

theorem drains_of_terminated {c : Connection σ} (hend : c.dispatcher.terminated = true)
    {d : FrameReader.Drained} (hshort : ∀ received ∈ d.frames, received.ShortSignals) :
    c.Drains d (c, []) := by
  refine ⟨relays_of_terminated hend (Dispatcher.isHeard_calls hshort), rfl, fun hgoes => ?_⟩
  exact absurd hend (Bool.eq_false_iff.1 hgoes)

/-- A connection drains its buffer, up to the end of the stream or its own. -/
theorem Listens.drains_receiveAll {r : FrameReader} {buffer : Bytes}
    (hshort : r.phase.ShortSignals) {c : Connection σ} (h : c.Listens)
    (halive : c.dispatcher.terminated = false) (hframes : c.frames = r)
    (hbuffer : c.buffer = buffer) : c.Drains (r.drain buffer) c.receiveAll := by
  fun_induction FrameReader.drain r buffer generalizing c with
  | case1 r buffer answer hresult =>
    obtain rfl := hframes
    obtain rfl := hbuffer
    have hdecode := decode_of_complete h.opened.handshake_eq
    rw [show (c.frames.decode c.buffer).result = .ok none from hresult] at hdecode
    rw [receiveAll_of_none halive hdecode]
    have hnothing := relays_nothing (makes_refl
      { c with frames := answer.reader, buffer := answer.rest }) rfl rfl
    exact ⟨hnothing.of_decode hdecode, rfl, fun _ => ⟨rfl, rfl, rfl⟩⟩
  | case2 r buffer answer e hresult =>
    obtain rfl := hframes
    obtain rfl := hbuffer
    have hdecode := decode_of_complete h.opened.handshake_eq
    rw [show (c.frames.decode c.buffer).result = .error e from hresult] at hdecode
    rw [receiveAll_of_error halive hdecode]
    have hfails := relays_call
      { c with frames := answer.reader, buffer := answer.rest }
      (.fail (.protocolViolation e.message))
    refine ⟨hfails.of_decode hdecode, ?_, fun hgoes => ?_⟩
    · rw [fail, (call_eq _ _).1]
    · rw [terminated_fail] at hgoes
      cases hgoes
  | case3 r buffer answer received hresult later =>
    rename_i ih
    obtain rfl := hframes
    obtain rfl := hbuffer
    have hdecode := decode_of_complete h.opened.handshake_eq
    rw [show (c.frames.decode c.buffer).result = .ok (some received) from hresult] at hdecode
    have hreader := (FrameReader.shortSignals_decode hshort c.buffer).1
    have hbehind : ({ c with frames := answer.reader, buffer := answer.rest } :
        Connection σ).Listens := ⟨h.opened, h.sound.closing, h.sound.finished⟩
    rw [receiveAll_of_some halive hdecode, hbehind.writeFailure_eq halive]
    have hcall := relays_call { c with frames := answer.reader, buffer := answer.rest }
      (.receive (.frame received) none)
    have hnext := hbehind.of_makes hcall.toMakes
    obtain ⟨heq, -⟩ := call_eq { c with frames := answer.reader, buffer := answer.rest }
      (.receive (.frame received) none)
    generalize Connection.call (_ : Connection σ) _ = called at hcall hnext heq ⊢
    -- If the frame has ended the connection, the rest of the buffer is left alone.
    have hlater : called.1.Drains later called.1.receiveAll := by
      cases hend : called.1.dispatcher.terminated with
      | false => exact ih hreader hnext hend (by rw [heq]) (by rw [heq])
      | true =>
        rw [receiveAll_of_terminated hend]
        exact drains_of_terminated hend (FrameReader.shortSignals_drain hreader answer.rest).2
    refine ⟨(hcall.trans hlater.toRelays).of_decode hdecode, ?_, fun hgoes => ?_⟩
    · rw [hlater.finished_eq, heq]
    · obtain ⟨hfailure, hframes, hbuffer⟩ := hlater.follows hgoes
      exact ⟨hfailure, hframes, hbuffer⟩

/-! ### Between turns -/

theorem Relays.isWritable_pending {c : Connection σ} {calls : List Dispatcher.Call}
    {result : Connection σ × List Output} (h : c.Relays calls result) (hpending : c.pending = [])
    (hheard : ∀ call ∈ calls, call.IsHeard) : ∀ unit ∈ result.1.pending, unit.IsWritable := by
  intro unit hunit
  have hsent := h.sent_eq
  rw [hpending, List.map_nil, List.nil_append] at hsent
  have hwritten : (unit, (none : Option StreamError)) ∈
      (writes (c.dispatcher.run calls).2).map (·, none) := by
    rw [← hsent]
    exact List.mem_append_right _ (List.mem_map_of_mem hunit)
  obtain ⟨unit', hunit', heq⟩ := List.mem_map.1 hwritten
  obtain ⟨rfl, -⟩ := Prod.mk.inj heq
  exact Dispatcher.isWritable_of_mem_writes_run hheard unit' hunit'

/-- What a drained buffer makes the connection write goes out at the end of the turn. -/
theorem Drains.endStep {c c' : Connection σ} {d : FrameReader.Drained} {outputs : List Output}
    (h : c.Drains d (c', outputs)) (hlistens : c.Listens) (hpending : c.pending = [])
    (hlive : c.finished = false) (hshort : ∀ received ∈ d.frames, received.ShortSignals) :
    c.Relays d.calls ((c'.endStep none).1, outputs ++ (c'.endStep none).2) ∧
      (c'.endStep none).1.Speaks d := by
  have hwritable := h.isWritable_pending hpending (Dispatcher.isHeard_calls hshort)
  have hnext := hlistens.of_makes h.toMakes
  obtain ⟨hrelays, masked, hend⟩ :=
    endStep_of_isWritable hwritable hnext.sound (h.finished_eq.trans hlive)
  generalize c'.endStep none = ended at hrelays hend ⊢
  obtain ⟨c'', later⟩ := ended
  have hboth := h.toRelays.trans hrelays
  rw [List.append_nil] at hboth
  refine ⟨hboth, hnext.of_makes hrelays.toMakes, ?_, ?_, ?_⟩
  · rw [hend]
  · rw [hend]
  · rw [hend]
    intro hgoes
    obtain ⟨hfailure, hframes, hbuffer⟩ := h.follows hgoes
    exact ⟨hfailure, hframes, hbuffer⟩

/-- A connection that has made the calls for what has been read makes, on a read, the calls for what
comes to stand behind that. -/
theorem Speaks.relays_read {c c' : Connection σ} {opening : List Dispatcher.Call} {early : Bytes}
    {outputs : List Output} (h : c'.Speaks (FrameReader.drain {} early))
    (hrelays : c.Relays (opening ++ (FrameReader.drain {} early).calls) (c', outputs))
    (piece : Bytes) :
    c.Relays (opening ++ (FrameReader.drain {} (early ++ piece)).calls)
        ((c'.step (.read piece) none).1, outputs ++ (c'.step (.read piece) none).2) ∧
      (c'.step (.read piece) none).1.Speaks (FrameReader.drain {} (early ++ piece)) := by
  have hreader := (FrameReader.shortSignals_drain FrameReader.shortSignals_new early).1
  obtain ⟨later, hlater, hheard, hgoes⟩ :=
    FrameReader.exists_calls_append FrameReader.shortSignals_new early piece
  rw [hlater, ← List.append_assoc]
  cases hfinished : c'.finished with
  | true =>
    have hstep : c'.step (.read piece) none = (c', []) := if_pos hfinished
    have hend := h.finished_eq.symm.trans hfinished
    rw [hstep]
    refine ⟨hrelays.trans (relays_of_terminated hend hheard), h.congr fun hgoes => ?_⟩
    simp [hfinished] at hgoes
  | false =>
    obtain ⟨hfailure, hframes, hbuffer⟩ := h.follows hfinished
    have halive := h.finished_eq.symm.trans hfinished
    obtain ⟨hcalls, hdrained⟩ := hgoes hfailure
    rw [← hframes] at hreader
    rw [← hframes, ← hbuffer] at hcalls hdrained
    have hlistens : ({ c' with buffer := c'.buffer ++ piece } : Connection σ).Listens :=
      ⟨h.opened, h.sound.closing, h.sound.finished⟩
    have hdrains := hlistens.drains_receiveAll hreader halive rfl rfl
    obtain ⟨hread, hspeaks⟩ := hdrains.endStep hlistens h.pending_eq hfinished
      (FrameReader.shortSignals_drain hreader (c'.buffer ++ piece)).2
    rw [step_eq_turn hfinished (by simp) (by simp), hcalls, hdrained]
    refine ⟨?_, hspeaks.congr fun _ hfollows => ?_⟩
    · have hboth := hrelays.trans hread.of_read
      rwa [← List.append_assoc (c'.trafficRecord .inbound piece)] at hboth
    · exact ⟨hfollows.failure_eq, hfollows.frames_eq, hfollows.buffer_eq⟩

theorem Speaks.relays_readEnd {c c' : Connection σ} {d : FrameReader.Drained}
    {calls : List Dispatcher.Call} {outputs : List Output} (h : c'.Speaks d)
    (hrelays : c.Relays calls (c', outputs)) :
    c.Relays (calls ++ [.connectionClosed])
        ((c'.step .readEnd none).1, outputs ++ (c'.step .readEnd none).2) ∧
      (c'.step .readEnd none).1.finished = true ∧ (c'.step .readEnd none).1.pending = [] := by
  cases hfinished : c'.finished with
  | true =>
    have hstep : c'.step .readEnd none = (c', []) := if_pos hfinished
    have hend := h.finished_eq.symm.trans hfinished
    have hlast : c'.Relays [.connectionClosed] (c', []) :=
      relays_of_terminated hend (by simp [Dispatcher.Call.IsHeard])
    rw [hstep]
    exact ⟨hrelays.trans hlast, hfinished, h.pending_eq⟩
  | false =>
    have hnothing : c'.finishHandshake = (c', []) := by
      unfold finishHandshake
      rw [if_pos (by simp [h.opened.handshake_eq])]
    have hclosed := c'.relays_call .connectionClosed
    have hmakes := makes_turn_readEnd (hnothing ▸ c'.makes_refl)
    obtain ⟨hcall, -⟩ := c'.call_eq .connectionClosed
    have hturn : c'.turn .readEnd = ({ (c'.call .connectionClosed).1 with finished := true },
        (c'.call .connectionClosed).2) := by
      simp only [turn, hnothing, List.nil_append]
    have hend : c'.Relays [.connectionClosed] (c'.turn .readEnd) := by
      refine ⟨hmakes, ?_⟩
      rw [hturn]
      exact hclosed.sent_eq
    have hwrites : writes (c'.dispatcher.step .connectionClosed).2 = [] :=
      Dispatcher.writes_connectionClosed c'.dispatcher
    rw [step_readEnd hfinished]
    refine ⟨hrelays.trans hend, ?_, ?_⟩
    · rw [hturn]
    · rw [hturn, hcall, hwrites, h.pending_eq]
      rfl

/-- A stream that is read in pieces and then ends, where every write succeeds. -/
def streamEvents (pieces : List Bytes) : List (Event × Option StreamError) :=
  readAll (pieces.map (·, none)) ++ [(.readEnd, none)]

theorem run_streamEvents_cons (c : Connection σ) (piece : Bytes) (pieces : List Bytes) :
    c.run (streamEvents (piece :: pieces)) =
      (((c.step (.read piece) none).1.run (streamEvents pieces)).1,
        (c.step (.read piece) none).2 ++
          ((c.step (.read piece) none).1.run (streamEvents pieces)).2) := rfl

/-- **However what follows the handshake is cut**, the calls are those for the whole of it. -/
theorem Speaks.relays_run {c c' : Connection σ} {opening : List Dispatcher.Call} {early : Bytes}
    {outputs : List Output} (h : c'.Speaks (FrameReader.drain {} early))
    (hrelays : c.Relays (opening ++ (FrameReader.drain {} early).calls) (c', outputs))
    (pieces : List Bytes) :
    c.Relays
        (opening ++ (FrameReader.drain {} (early ++ pieces.flatten)).calls ++ [.connectionClosed])
        ((c'.run (streamEvents pieces)).1, outputs ++ (c'.run (streamEvents pieces)).2) ∧
      (c'.run (streamEvents pieces)).1.finished = true ∧
      (c'.run (streamEvents pieces)).1.pending = [] := by
  induction pieces generalizing c' early outputs with
  | nil =>
    rw [show streamEvents [] = [(.readEnd, none)] from rfl, run_singleton, List.flatten_nil,
      List.append_nil]
    exact h.relays_readEnd hrelays
  | cons piece pieces ih =>
    obtain ⟨hread, hspeaks⟩ := h.relays_read hrelays piece
    have hlater := ih hspeaks hread
    rw [List.append_assoc outputs, List.append_assoc early] at hlater
    rw [run_streamEvents_cons]
    exact hlater

end Connection

end WebSocket

end WebClient
