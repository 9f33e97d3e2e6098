import WebClient.Proofs.WebSocket.Channel
import WebClient.Proofs.WebSocket.Handshake
import WebClient.WebSocket.Conversation

/-!
# What a connection does with its dispatcher

A connection calls its dispatcher, keeps what is written until the end of the turn, and passes it to
the stream then. So nothing goes out in the course of a turn, whatever is read (`Hears`); what waits
at its end goes out whole or not at all, and after a write that fails the connection goes on no
longer (`EndsTurn`).
-/

namespace WebClient.WebSocket

open Http

/-! ### What waits and what has gone out -/

def sentUnits (outputs : List Output) : List (Outbound × Option StreamError) :=
  outputs.flatMap Output.sentUnits

/-- Whether a connection may write the unit of its own accord: the request, a Pong or a Close. -/
def Outbound.isInternal : Outbound → Bool
  | .request _ => true
  | .frame f => f.opcode = .pong || f.opcode = .close

@[simp] theorem sentUnits_append (outputs later : List Output) :
    sentUnits (outputs ++ later) = sentUnits outputs ++ sentUnits later :=
  List.flatMap_append

theorem sentUnits_trafficRecord {σ : Type} (c : Connection σ) (direction : TrafficDirection)
    (bytes : Bytes) : sentUnits (c.trafficRecord direction bytes) = [] := by
  unfold Connection.trafficRecord
  cases c.traffic <;> rfl

theorem Stage.Keeps.handshake_ne {stage next : Stage} (h : stage.Keeps next)
    (hnext : next.handshake ≠ .complete) : stage.handshake ≠ .complete := by
  rcases h with rfl | ⟨hhandshake, -⟩
  · simp [Stage.handshake]
  · rwa [← hhandshake]

namespace Dispatcher

variable {σ : Type}

theorem writes_fail (d : Dispatcher σ) (cause : Error) : writes (d.fail cause).2 = [] :=
  writes_of_attempts (d.attempts_fail cause)

theorem terminated_fail (d : Dispatcher σ) (cause : Error) :
    (d.fail cause).1.terminated = true := by
  unfold fail
  split
  · assumption
  · exact terminated_terminate d cause

theorem writes_connectionClosed (d : Dispatcher σ) : writes d.connectionClosed.2 = [] :=
  writes_of_attempts d.attempts_connectionClosed

theorem terminated_connectionClosed (d : Dispatcher σ) :
    d.connectionClosed.1.terminated = true := by
  unfold connectionClosed
  split
  · assumption
  · exact terminated_terminate d .connectionClosed

/-- What a call does that sends nothing for the application. It may write what a connection writes
of its own accord, where the handshake is complete, and sends no Close unless it ends the
connection. -/
structure Answers (d : Dispatcher σ) (result : Dispatcher σ × List Effect) : Prop where
  internal : ∀ unit ∈ writes result.2, unit.isInternal = true
  writes_eq : d.handshake ≠ .complete → writes result.2 = []
  closeSent_eq : result.1.terminated = false → result.1.closeSent = d.closeSent

theorem answers_of_writes {d : Dispatcher σ} {result : Dispatcher σ × List Effect}
    (h : writes result.2 = [])
    (hclose : result.1.terminated = false → result.1.closeSent = d.closeSent) :
    d.Answers result :=
  ⟨fun _ hunit => absurd (h ▸ hunit) List.not_mem_nil, fun _ => h, hclose⟩

theorem answers_fail (d : Dispatcher σ) (cause : Error) : d.Answers (d.fail cause) :=
  answers_of_writes (writes_fail d cause) fun halive => by
    simp [terminated_fail d cause] at halive

theorem answers_connectionClosed (d : Dispatcher σ) : d.Answers d.connectionClosed :=
  answers_of_writes (writes_connectionClosed d) fun halive => by
    simp [terminated_connectionClosed d] at halive

theorem isInternal_of_mem_passes [Handshaker σ] {d : Dispatcher σ} {unit : Inbound}
    {failure : WriteFailure} {attempt : Outbound × WriteFailure}
    (h : attempt ∈ d.passes (.receive unit failure)) : attempt.1.isInternal = true := by
  cases unit with
  | response r => exact absurd h List.not_mem_nil
  | frame f =>
    cases f with
    | ping payload =>
      rw [passes] at h
      split at h
      · rw [List.mem_singleton.1 h]
        rfl
      · exact absurd h List.not_mem_nil
    | close code reason =>
      rw [passes] at h
      split at h
      · rw [List.mem_singleton.1 h]
        simp [Outbound.isInternal, opcode_closeEcho]
      · exact absurd h List.not_mem_nil
    | _ => exact absurd h List.not_mem_nil

theorem answers_receive [Handshaker σ] (d : Dispatcher σ) (unit : Inbound)
    (failure : WriteFailure) : d.Answers (d.receive unit failure) := by
  obtain ⟨hattempts, hclose, -⟩ : d.Passes _ (d.receive unit failure) :=
    d.passes_step (.receive unit failure)
  cases hopen : d.isOpen with
  | false =>
    rw [passes_of_not_isOpen hopen] at hattempts hclose
    exact answers_of_writes (writes_of_attempts hattempts) fun _ =>
      hclose.trans (Bool.or_false _)
  | true =>
    obtain ⟨hcomplete, halive⟩ := isOpen_iff.1 hopen
    refine ⟨fun outbound hmem => ?_, fun hpending => absurd hcomplete hpending, fun hgoes => ?_⟩
    · obtain ⟨failure', hattempt⟩ := exists_mem_attempts hmem
      exact isInternal_of_mem_passes (hattempts ▸ hattempt)
    · -- A Close that is passed answers the peer's, and that ends the connection.
      have hnone : passesClose (d.passes (.receive unit failure)) = false := by
        refine Bool.eq_false_iff.2 fun hpassed => ?_
        obtain ⟨code, reason, rfl⟩ := exists_eq_close_of_passesClose hpassed
        have hended := step_of_ends halive (.peerClose hcomplete code reason failure)
        exact Bool.false_ne_true (hgoes.symm.trans hended.terminated)
      rw [hclose, hnone, Bool.or_false]

theorem step_connectionOpen [Handshaker σ] {d : Dispatcher σ} (hnew : d.opened = false)
    (nonce : Nonce) :
    d.step (.connectionOpen nonce none) =
      ({ d with opened := true, handshaker := (Handshaker.request d.handshaker nonce).1 },
        [.write (.request (Handshaker.request d.handshaker nonce).2) none]) :=
  if_neg (Bool.eq_false_iff.1 hnew)

/-- A frame of the application is written unless a Close has been, and a Close is remembered. -/
theorem send_of_alive {d : Dispatcher σ} (h : d.terminated = false) (frame : Frame) :
    (d.send frame none).1 =
        { d with closeSent := d.closeSent || decide (frame.opcode = .close) } ∧
      writes (d.send frame none).2.1 = (if d.closeSent then [] else [.frame frame]) ∧
      closings (d.send frame none).2.1 = 0 := by
  obtain ⟨handshaker, context, registers, handshake, session, outcome, opened, closeSent,
    terminated⟩ := d
  obtain rfl : terminated = false := h
  cases closeSent with
  | true => exact ⟨rfl, rfl, rfl⟩
  | false =>
    by_cases hclose : frame.opcode = .close
    · simp only [send, hclose, if_true]
      exact ⟨rfl, rfl, rfl⟩
    · simp only [send, hclose, if_false]
      exact ⟨rfl, rfl, rfl⟩

end Dispatcher

namespace Connection

variable {σ : Type}

/-! ### Calls and what is heard -/

theorem performAll_eq (c : Connection σ) (effects : List Effect) :
    (c.performAll effects).1 =
        { c with
          pending := c.pending ++ writes effects
          closing := c.closing || decide (0 < closings effects) } ∧
      sentUnits (c.performAll effects).2 = [] := by
  induction effects generalizing c with
  | nil => simp [performAll, writes, closings, sentUnits]
  | cons effect effects ih =>
    obtain ⟨hstate, hsent⟩ := ih (c.perform effect).1
    have hfirst : sentUnits (c.perform effect).2 = [] := by
      unfold perform
      split <;> rfl
    rw [performAll, sentUnits_append, hfirst, hsent, hstate]
    refine ⟨?_, rfl⟩
    unfold perform
    split <;> simp [writes, closings]

/-- What a connection does in the course of a turn in which it reads. Its dispatcher comes from one
stage to another; nothing goes out, and what comes to wait is written by the connection of its own
accord, where the handshake is complete. -/
structure Hears (c : Connection σ) (stage : Stage) (result : Connection σ × List Output)
    (next : Stage) : Prop where
  stands : result.1.dispatcher.Stands next
  keeps : stage.Keeps next
  answers : ∃ answers, result.1.pending = c.pending ++ answers ∧
    (∀ unit ∈ answers, unit.isInternal = true) ∧ (next.handshake ≠ .complete → answers = [])
  closeSent_eq : result.1.dispatcher.terminated = false →
    result.1.dispatcher.closeSent = c.dispatcher.closeSent
  terminated_mono : c.dispatcher.terminated = true → result.1.dispatcher.terminated = true
  sent_eq : sentUnits result.2 = []

theorem hears_nothing {c : Connection σ} {stage : Stage} (h : c.dispatcher.Stands stage) :
    c.Hears stage (c, []) stage :=
  ⟨h, .refl stage, ⟨[], by simp⟩, fun _ => rfl, id, rfl⟩

theorem Hears.trans {c c' c'' : Connection σ} {stage next last : Stage}
    {outputs later : List Output} (h : c.Hears stage (c', outputs) next)
    (hlater : c'.Hears next (c'', later) last) :
    c.Hears stage (c'', outputs ++ later) last where
  stands := hlater.stands
  keeps := h.keeps.trans hlater.keeps
  answers := by
    obtain ⟨first, hfirst, hfirstInternal, hfirstNil⟩ := h.answers
    obtain ⟨second, hsecond, hsecondInternal, hsecondNil⟩ := hlater.answers
    refine ⟨first ++ second, ?_, fun unit hunit => ?_, fun hlast => ?_⟩
    · rw [← List.append_assoc, ← hfirst]
      exact hsecond
    · exact (List.mem_append.1 hunit).elim (hfirstInternal unit) (hsecondInternal unit)
    · rw [hfirstNil (hlater.keeps.handshake_ne hlast), hsecondNil hlast, List.append_nil]
  closeSent_eq halive := by
    have hbetween : c'.dispatcher.terminated = false := Bool.eq_false_iff.2 fun hend =>
      Bool.false_ne_true (halive.symm.trans (hlater.terminated_mono hend))
    exact (hlater.closeSent_eq halive).trans (h.closeSent_eq hbetween)
  terminated_mono hend := hlater.terminated_mono (h.terminated_mono hend)
  sent_eq := by
    have hfirst : sentUnits outputs = [] := h.sent_eq
    rw [sentUnits_append, hfirst]
    exact hlater.sent_eq

theorem exists_eq_of_decode {c c' : Connection σ} {answer : Except Error (Option Inbound)}
    (hdecode : c.decode = (c', answer)) :
    ∃ responses frames buffer, c' = { c with responses, frames, buffer } := by
  obtain rfl : c.decode.1 = c' := congrArg Prod.fst hdecode
  unfold decode
  split
  · exact ⟨_, c.frames, _, rfl⟩
  · exact ⟨c.responses, _, _, rfl⟩

theorem Hears.of_decode {c c' : Connection σ} {answer : Except Error (Option Inbound)}
    (hdecode : c.decode = (c', answer)) {stage next : Stage}
    {result : Connection σ × List Output} (h : c'.Hears stage result next) :
    c.Hears stage result next := by
  obtain ⟨responses, frames, buffer, rfl⟩ := exists_eq_of_decode hdecode
  exact ⟨h.stands, h.keeps, h.answers, h.closeSent_eq, h.terminated_mono, h.sent_eq⟩

theorem stands_of_decode {c c' : Connection σ} {answer : Except Error (Option Inbound)}
    (hdecode : c.decode = (c', answer)) {stage : Stage} (h : c.dispatcher.Stands stage) :
    c'.dispatcher.Stands stage := by
  obtain ⟨responses, frames, buffer, rfl⟩ := exists_eq_of_decode hdecode
  exact h

/-! ### Writing -/

/-- What waits goes out whole, or not at all where part of it cannot be written. -/
structure Flushed (c : Connection σ) (failure : Option StreamError)
    (result : Connection σ × List Output × Except Error Unit) : Prop where
  pending_nil : result.1.pending = []
  dispatcher_eq : result.1.dispatcher = c.dispatcher
  sent_eq : sentUnits result.2.1 = [] ∨ sentUnits result.2.1 = c.pending.map (·, failure)
  sent_of_ok : result.2.2 = .ok () → sentUnits result.2.1 = c.pending.map (·, none)

theorem flushed_flush (c : Connection σ) (failure : Option StreamError) :
    c.Flushed failure (c.flush failure) := by
  unfold flush
  split
  · next hempty =>
    have hnil : c.pending = [] := List.isEmpty_iff.1 hempty
    exact ⟨hnil, rfl, .inl rfl, fun _ => by rw [hnil]; rfl⟩
  · split
    · exact ⟨rfl, rfl, .inl rfl, fun hok => by simp at hok⟩
    · next bytes masked _ =>
      have hsent : sentUnits (c.trafficRecord .outbound bytes ++ [.sent c.pending bytes failure]) =
          c.pending.map (·, failure) := by
        rw [sentUnits_append, sentUnits_trafficRecord]
        exact List.append_nil _
      refine ⟨rfl, rfl, .inr hsent, ?_⟩
      cases failure with
      | none => exact fun _ => hsent
      | some e => exact fun hok => by simp at hok

theorem settle_of_nil {c : Connection σ} (h : c.pending = []) (failure : Option StreamError) :
    c.settle failure =
      if c.closing || c.dispatcher.terminated then ({ c with finished := true }, [.shutdown])
      else (c, []) := by
  unfold settle flush
  simp only [h, List.isEmpty_nil, if_true, List.nil_append]

/-! ### Turns -/

variable [Handshaker σ]

theorem call_eq (c : Connection σ) (call : Dispatcher.Call) :
    (c.call call).1 =
        { c with
          dispatcher := (c.dispatcher.step call).1
          pending := c.pending ++ writes (c.dispatcher.step call).2
          closing := c.closing || decide (0 < closings (c.dispatcher.step call).2) } ∧
      sentUnits (c.call call).2 = [] :=
  performAll_eq _ _

theorem exists_hears_call {c : Connection σ} {stage : Stage} (h : c.dispatcher.Stands stage)
    {call : Dispatcher.Call} (hanswers : c.dispatcher.Answers (c.dispatcher.step call)) :
    ∃ next, c.Hears stage (c.call call) next := by
  obtain ⟨hcall, hsent⟩ := c.call_eq call
  obtain ⟨next, hmoves⟩ := h.exists_moves_step call
  have hkeeps := hmoves.move.keeps
  refine ⟨next, ?_, hkeeps, ?_, ?_, fun hend => ?_, hsent⟩
  · rw [hcall]
    exact hmoves.stands
  · refine ⟨_, by rw [hcall], hanswers.internal, fun hnext => hanswers.writes_eq ?_⟩
    rw [h.handshake_eq]
    exact hkeeps.handshake_ne hnext
  · rw [hcall]
    exact hanswers.closeSent_eq
  · rw [hcall]
    exact (Dispatcher.step_of_terminated hend call).1

theorem exists_hears_receive {c : Connection σ} {stage : Stage} (h : c.dispatcher.Stands stage)
    (unit : Inbound) (failure : WriteFailure) :
    ∃ next, c.Hears stage (c.call (.receive unit failure)) next :=
  exists_hears_call h (Dispatcher.answers_receive c.dispatcher unit failure)

theorem exists_hears_fail {c : Connection σ} {stage : Stage} (h : c.dispatcher.Stands stage)
    (cause : Error) : ∃ next, c.Hears stage (c.fail cause) next :=
  exists_hears_call h (Dispatcher.answers_fail c.dispatcher cause)

theorem exists_hears_receiveAll {c : Connection σ} {stage : Stage}
    (h : c.dispatcher.Stands stage) : ∃ next, c.Hears stage c.receiveAll next := by
  fun_induction receiveAll c generalizing stage with
  | case1 c hend => exact ⟨stage, hears_nothing h⟩
  | case2 c hend c' e hdecode =>
    obtain ⟨next, hhears⟩ := exists_hears_fail (stands_of_decode hdecode h) e
    exact ⟨next, .of_decode hdecode hhears⟩
  | case3 c hend c' hdecode =>
    exact ⟨stage, .of_decode hdecode (hears_nothing (stands_of_decode hdecode h))⟩
  | case4 c hend c' unit hdecode received =>
    rename_i c'' later hlater ih
    obtain ⟨next, hfirst⟩ :=
      exists_hears_receive (stands_of_decode hdecode h) unit c'.writeFailure
    obtain ⟨last, hrest⟩ := ih hfirst.stands
    rw [hlater] at hrest
    exact ⟨last, .of_decode hdecode (hfirst.trans hrest)⟩

/-! ### Turns of reading -/

theorem exists_hears_read {c : Connection σ} {stage : Stage} (h : c.dispatcher.Stands stage)
    (bytes : Bytes) : ∃ next, c.Hears stage (c.turn (.read bytes)) next := by
  obtain ⟨next, hhears⟩ := exists_hears_receiveAll (c := { c with buffer := c.buffer ++ bytes }) h
  refine ⟨next, hhears.stands, hhears.keeps, hhears.answers, hhears.closeSent_eq,
    hhears.terminated_mono, ?_⟩
  have hrest := hhears.sent_eq
  show sentUnits (c.trafficRecord .inbound bytes ++ _) = []
  rw [sentUnits_append, sentUnits_trafficRecord, hrest, List.append_nil]

theorem exists_hears_finishHandshake {c : Connection σ} {stage : Stage}
    (h : c.dispatcher.Stands stage) : ∃ next, c.Hears stage c.finishHandshake next := by
  unfold finishHandshake
  split
  · exact ⟨stage, hears_nothing h⟩
  · dsimp only
    split
    · next response _ =>
      obtain ⟨next, hhears⟩ := exists_hears_receive
        (c := { c with
          responses := (c.responses.decodeEnd c.buffer).reader
          buffer := (c.responses.decodeEnd c.buffer).rest }) h (.response response) c.writeFailure
      exact ⟨next, hhears.stands, hhears.keeps, hhears.answers, hhears.closeSent_eq,
        hhears.terminated_mono, hhears.sent_eq⟩
    · exact ⟨stage, h, .refl stage, ⟨[], by simp⟩, fun _ => rfl, id, rfl⟩

theorem exists_hears_readEnd {c : Connection σ} {stage : Stage} (h : c.dispatcher.Stands stage) :
    ∃ next, c.Hears stage (c.turn .readEnd) next := by
  obtain ⟨between, hfirst⟩ := exists_hears_finishHandshake h
  have hclosed := Dispatcher.answers_connectionClosed c.finishHandshake.1.dispatcher
  obtain ⟨last, hrest⟩ : ∃ last, c.finishHandshake.1.Hears between
      (c.finishHandshake.1.call .connectionClosed) last := exists_hears_call hfirst.stands hclosed
  have hhears := hfirst.trans hrest
  exact ⟨last, hhears.stands, hhears.keeps, hhears.answers, hhears.closeSent_eq,
    hhears.terminated_mono, hhears.sent_eq⟩

/-! ### Turns of sending -/

theorem call_connectionOpen {c : Connection σ} (hnew : c.dispatcher.opened = false)
    (hopen : c.closing = false) (nonce : Nonce) :
    let (handshaker, request) := Handshaker.request c.dispatcher.handshaker nonce
    (c.call (.connectionOpen nonce c.writeFailure)).1 =
        { c with
          dispatcher := { c.dispatcher with opened := true, handshaker }
          pending := c.pending ++ [.request request] } ∧
      sentUnits (c.call (.connectionOpen nonce c.writeFailure)).2 = [] := by
  dsimp only
  obtain ⟨hcall, hsent⟩ := c.call_eq (.connectionOpen nonce c.writeFailure)
  have htaken : c.writeFailure = none := by simp [writeFailure, hopen]
  rw [htaken] at hcall hsent ⊢
  refine ⟨?_, hsent⟩
  rw [hcall, Dispatcher.step_connectionOpen hnew]
  simp [writes, closings]

/-- A frame that is taken while the connection goes on waits to be written, unless a Close has been
sent. -/
theorem turn_command {c : Connection σ} (hopen : c.closing = false)
    (halive : c.dispatcher.terminated = false) (frame : Frame) :
    (c.turn (.command frame)).1 =
        { c with
          dispatcher := { c.dispatcher with
            closeSent := c.dispatcher.closeSent || decide (frame.opcode = .close) }
          pending := c.pending ++ if c.dispatcher.closeSent then [] else [.frame frame] } ∧
      sentUnits (c.turn (.command frame)).2 = [] := by
  obtain ⟨hcall, hsent⟩ := c.call_eq (.send frame none)
  obtain ⟨hdispatcher, hwrites, hclosings⟩ := Dispatcher.send_of_alive halive frame
  have hturn : c.turn (.command frame) = c.call (.send frame none) := by
    simp [turn, writeFailure, hopen]
  rw [hturn]
  refine ⟨?_, hsent⟩
  rw [hcall]
  simp only [Dispatcher.step, hdispatcher, hwrites, hclosings, Nat.lt_irrefl, decide_false,
    Bool.or_false]

/-! ### The end of a turn -/

/-- What a connection does at the end of a turn. It goes on only if all that waited went out. -/
structure EndsTurn (c : Connection σ) (stage : Stage) (failure : Option StreamError)
    (result : Connection σ × List Output) (next : Stage) : Prop where
  stands : result.1.dispatcher.Stands next
  keeps : stage.Keeps next
  pending_nil : result.1.pending = []
  sent_eq : sentUnits result.2 = [] ∨ sentUnits result.2 = c.pending.map (·, failure)
  going : result.1.finished = false →
    result.1.dispatcher = c.dispatcher ∧ result.1.closing = false ∧
      result.1.dispatcher.terminated = false ∧ sentUnits result.2 = c.pending.map (·, none)

/-- Nothing waits behind the writing, and then the connection is settled. -/
theorem endStep_eq {c c' : Connection σ} {outputs : List Output} {failure : Option StreamError}
    (hflush : c.flushOrFail failure = (c', outputs)) (hpending : c'.pending = []) :
    c.endStep failure =
      if c'.closing || c'.dispatcher.terminated then
        ({ c' with finished := true }, outputs ++ [.shutdown])
      else (c', outputs) := by
  rw [endStep, hflush]
  dsimp only
  rw [settle_of_nil hpending]
  split
  · rfl
  · rw [List.append_nil]

theorem pending_fail (c : Connection σ) (cause : Error) :
    (c.fail cause).1.pending = c.pending := by
  obtain ⟨hcall, -⟩ := c.call_eq (.fail cause)
  have hwrites : writes (c.dispatcher.step (.fail cause)).2 = [] :=
    Dispatcher.writes_fail c.dispatcher cause
  rw [fail, hcall, hwrites]
  exact List.append_nil _

theorem terminated_fail (c : Connection σ) (cause : Error) :
    (c.fail cause).1.dispatcher.terminated = true := by
  obtain ⟨hcall, -⟩ := c.call_eq (.fail cause)
  rw [fail, hcall]
  exact Dispatcher.terminated_fail c.dispatcher cause

theorem endStep_of_ok {c c' : Connection σ} {outputs : List Output} {failure : Option StreamError}
    (hflush : c.flush failure = (c', outputs, .ok ())) :
    c.endStep failure =
      if c'.closing || c'.dispatcher.terminated then
        ({ c' with finished := true }, outputs ++ [.shutdown])
      else (c', outputs) := by
  have hpending := (c.flushed_flush failure).pending_nil
  rw [hflush] at hpending
  exact endStep_eq (by rw [flushOrFail, hflush]) hpending

theorem endStep_of_error {c c' : Connection σ} {outputs : List Output}
    {failure : Option StreamError} {e : Error}
    (hflush : c.flush failure = (c', outputs, .error e)) :
    c.endStep failure =
      ({ (c'.fail e).1 with finished := true }, outputs ++ (c'.fail e).2 ++ [.shutdown]) := by
  have hpending := (c.flushed_flush failure).pending_nil
  rw [hflush] at hpending
  have hwritten : c.flushOrFail failure = ((c'.fail e).1, outputs ++ (c'.fail e).2) := by
    rw [flushOrFail, hflush]
  rw [endStep_eq hwritten ((c'.pending_fail e).trans hpending),
    if_pos (by simp [c'.terminated_fail e])]

theorem exists_endsTurn {c : Connection σ} {stage : Stage} (h : c.dispatcher.Stands stage)
    (failure : Option StreamError) : ∃ next, c.EndsTurn stage failure (c.endStep failure) next := by
  obtain ⟨hpending, hdispatcher, hsent, hok⟩ := c.flushed_flush failure
  have hshutdown : sentUnits [Output.shutdown] = [] := rfl
  rcases hflush : c.flush failure with ⟨c', outputs, answer⟩
  rw [hflush] at hpending hdispatcher hsent hok
  have hstands : c'.dispatcher.Stands stage := hdispatcher ▸ h
  cases answer with
  | ok _ =>
    rw [endStep_of_ok hflush]
    refine ⟨stage, ?_⟩
    split
    · refine ⟨hstands, .refl stage, hpending, ?_, fun hlive => by simp at hlive⟩
      rwa [sentUnits_append, hshutdown, List.append_nil]
    · next hgoes =>
      obtain ⟨hopen, halive⟩ : c'.closing = false ∧ c'.dispatcher.terminated = false := by
        simpa using hgoes
      exact ⟨hstands, .refl stage, hpending, hsent,
        fun _ => ⟨hdispatcher, hopen, halive, hok rfl⟩⟩
  | error e =>
    obtain ⟨next, hfails⟩ := exists_hears_fail hstands e
    have hnothing := (c'.pending_fail e).trans hpending
    rw [endStep_of_error hflush]
    refine ⟨next, hfails.stands, hfails.keeps, hnothing, ?_, fun hlive => by simp at hlive⟩
    rwa [sentUnits_append, sentUnits_append, hfails.sent_eq, hshutdown, List.append_nil,
      List.append_nil]

end Connection

end WebClient.WebSocket
