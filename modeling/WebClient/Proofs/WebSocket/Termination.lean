import WebClient.WebSocket.Dispatcher

/-!
# The end of a connection

A connection ends once. `Ends` lists the ways in which one call can end it: the peer's Close, the
loss of the transport, an error that is reported, and the errors the dispatcher finds itself. A call
that ends a connection tells the observer so, by the last notice it gives (`step_of_ends`); any
other call gives no such notice (`step_of_not_ends`); and once a connection has ended the observer
hears nothing (`step_of_terminated`). Over a run of calls this leaves at most one ending
(`terminates_once`).
-/

namespace WebClient.WebSocket

/-! ### What is told and closed -/

def notices (effects : List Effect) : List Notice :=
  effects.filterMap fun
    | .notify notice => some notice
    | _ => none

def closings (effects : List Effect) : Nat :=
  effects.countP fun
    | .closeChannel => true
    | _ => false

@[simp] theorem notices_append (effects later : List Effect) :
    notices (effects ++ later) = notices effects ++ notices later :=
  List.filterMap_append

@[simp] theorem closings_append (effects later : List Effect) :
    closings (effects ++ later) = closings effects + closings later :=
  List.countP_append

/-- The observer is told nothing, and the channel is not closed. -/
structure Silent (effects : List Effect) : Prop where
  notices_eq : notices effects = []
  closings_eq : closings effects = 0

theorem Silent.append {effects later : List Effect} (h : Silent effects) (hlater : Silent later) :
    Silent (effects ++ later) := by
  refine ⟨?_, ?_⟩
  · rw [notices_append, h.notices_eq, hlater.notices_eq, List.append_nil]
  · rw [closings_append, h.closings_eq, hlater.closings_eq]

namespace Dispatcher

variable {σ : Type}

inductive Ending where
  | peerClose (code : CloseCode) (reason : String)
  | failed (cause : Error)
  | lost
  deriving DecidableEq, Repr

def Ending.notice : Ending → Notice
  | peerClose code reason => .message (.close code reason)
  | failed cause => .error cause
  | lost => .message .goingAway

def Ending.closesChannel : Ending → Bool
  | peerClose .. | failed _ => true
  | lost => false

theorem Ending.isTerminal_notice (ending : Ending) : ending.notice.isTerminal = true := by
  cases ending <;> rfl

inductive Ends [Handshaker σ] (d : Dispatcher σ) : Call → Ending → Prop
  | lost : Ends d .connectionClosed .lost
  | reported (cause : Error) : Ends d (.fail cause) (.failed cause)
  | requestNotWritten (hopened : d.opened = false) (nonce : Nonce) (e : StreamError) :
      Ends d (.connectionOpen nonce (some e)) (.failed (.stream e))
  | rejected (hpending : d.handshake = .pending) {r : Http.Response} {e : UpgradeError}
      (hcomplete : Handshaker.complete d.handshaker r = .error e) (failure : WriteFailure) :
      Ends d (.receive (.response r) failure) (.failed (.handshake e))
  | early (hpending : d.handshake = .pending) (f : Received) (failure : WriteFailure) :
      Ends d (.receive (.frame f) failure) (.failed (.protocolViolation
        ((Inbound.frame f).describe ++ " received before the handshake completed")))
  | peerClose (hcomplete : d.handshake = .complete) (code : CloseCode) (reason : String)
      (failure : WriteFailure) :
      Ends d (.receive (.frame (.close code reason)) failure) (.peerClose code reason)
  | pongNotWritten (hcomplete : d.handshake = .complete) (payload : Bytes) (e : StreamError) :
      Ends d (.receive (.frame (.ping payload)) (some e)) (.failed (.stream e))
  | unknownFrame (hcomplete : d.handshake = .complete) (opcode : UInt8) (failure : WriteFailure) :
      Ends d (.receive (.frame (.unknown opcode)) failure) (.failed (.unrecognizedFrame opcode))
  | secondResponse (hcomplete : d.handshake = .complete) (r : Http.Response)
      (failure : WriteFailure) :
      Ends d (.receive (.response r) failure)
        (.failed (.unexpectedResponse r.status r.bodyText))

/-! ### One call -/

/-- What a call does that ends the connection. -/
structure Ended (ending : Ending) (result : Dispatcher σ × List Effect) : Prop where
  terminated : result.1.terminated = true
  notices_eq : notices result.2 = [ending.notice]
  closings_eq : closings result.2 = if ending.closesChannel then 1 else 0

/-- What a call does that leaves the connection as alive as it was. -/
structure Quiet (d : Dispatcher σ) (result : Dispatcher σ × List Effect) : Prop where
  terminated_eq : result.1.terminated = d.terminated
  not_terminal : ∀ notice ∈ notices result.2, notice.isTerminal = false
  closings_eq : closings result.2 = 0

theorem Ended.after_silent {ending : Ending} {d : Dispatcher σ} {effects last : List Effect}
    (hlast : Ended ending (d, last)) (h : Silent effects) : Ended ending (d, effects ++ last) := by
  refine ⟨hlast.terminated, ?_, ?_⟩
  · rw [notices_append, h.notices_eq, List.nil_append]
    exact hlast.notices_eq
  · rw [closings_append, h.closings_eq, Nat.zero_add]
    exact hlast.closings_eq

theorem quiet_of_silent {d d' : Dispatcher σ} {effects : List Effect} (h : Silent effects)
    (hterminated : d'.terminated = d.terminated) : Quiet d (d', effects) := by
  refine ⟨hterminated, ?_, h.closings_eq⟩
  rw [h.notices_eq]
  exact fun _ hnotice => absurd hnotice List.not_mem_nil

theorem Quiet.trans {d d' d'' : Dispatcher σ} {effects later : List Effect}
    (h : Quiet d (d', effects)) (hlater : Quiet d' (d'', later)) :
    Quiet d (d'', effects ++ later) := by
  refine ⟨hlater.terminated_eq.trans h.terminated_eq, fun notice hnotice => ?_, ?_⟩
  · rw [notices_append] at hnotice
    exact (List.mem_append.1 hnotice).elim (h.not_terminal notice) (hlater.not_terminal notice)
  · have hclosings : closings effects = 0 := h.closings_eq
    have hlaterClosings : closings later = 0 := hlater.closings_eq
    rw [closings_append, hclosings, hlaterClosings]

theorem silent_release (d : Dispatcher σ) : Silent d.release := by
  unfold release
  split
  · split <;> exact ⟨rfl, rfl⟩
  · exact ⟨rfl, rfl⟩

theorem silent_terminate (d : Dispatcher σ) (cause : Error) : Silent (d.terminate cause).2 := by
  unfold terminate
  split
  · exact d.silent_release
  · exact d.silent_release.append ⟨rfl, rfl⟩

theorem terminated_terminate (d : Dispatcher σ) (cause : Error) :
    (d.terminate cause).1.terminated = true := by
  unfold terminate
  split <;> rfl

theorem ended_fail {d : Dispatcher σ} (h : d.terminated = false) (cause : Error) :
    Ended (.failed cause) (d.fail cause) := by
  rw [fail, if_neg (by simp [h])]
  exact Ended.after_silent ⟨d.terminated_terminate cause, rfl, rfl⟩ (d.silent_terminate cause)

theorem ended_connectionClosed {d : Dispatcher σ} (h : d.terminated = false) :
    Ended .lost d.connectionClosed := by
  rw [connectionClosed, if_neg (by simp [h])]
  exact Ended.after_silent ⟨d.terminated_terminate _, rfl, rfl⟩ (d.silent_terminate _)

theorem ended_writeOrFail {d : Dispatcher σ} (h : d.terminated = false) (outbound : Outbound)
    (e : StreamError) : Ended (.failed (.stream e)) (d.writeOrFail outbound (some e)) := by
  have hwrite : Silent [.write outbound (some e)] := ⟨rfl, rfl⟩
  exact (ended_fail h _).after_silent hwrite

theorem ended_peerClose (d : Dispatcher σ) (code : CloseCode) (reason : String)
    (failure : WriteFailure) :
    Ended (.peerClose code reason) (d.peerClose code reason failure) := by
  have hecho : Silent (if d.closeSent then [] else [.write (.frame (closeEcho code)) failure]) := by
    split <;> exact ⟨rfl, rfl⟩
  refine ⟨rfl, ?_, ?_⟩
  · rw [peerClose, notices_append, notices_append, notices_append, hecho.notices_eq,
      d.silent_release.notices_eq]
    rfl
  · rw [peerClose, closings_append, closings_append, closings_append, hecho.closings_eq,
      d.silent_release.closings_eq]
    rfl

theorem quiet_complete [Handshaker σ] (d : Dispatcher σ) : Quiet d d.complete := by
  have hregister (session : Session) :
      Silent (if d.registers then [.register session] else []) := by
    split <;> exact ⟨rfl, rfl⟩
  unfold complete
  dsimp only
  split
  · exact quiet_of_silent (hregister _) rfl
  · exact quiet_of_silent ((hregister _).append ⟨rfl, rfl⟩) rfl

variable [Handshaker σ]

theorem receive_of_terminated {d : Dispatcher σ} (h : d.terminated = true) (unit : Inbound)
    (failure : WriteFailure) : d.receive unit failure = (d, []) := by
  simp only [receive, h, if_true]

theorem receive_of_complete {d : Dispatcher σ} (h : d.terminated = false)
    (hcomplete : d.handshake = .complete) (unit : Inbound) (failure : WriteFailure) :
    d.receive unit failure = d.dispatch unit failure := by
  simp only [receive, h, Bool.false_eq_true, if_false, hcomplete]

theorem receive_of_failed {d : Dispatcher σ} (h : d.terminated = false)
    (hfailed : d.handshake = .failed) (unit : Inbound) (failure : WriteFailure) :
    d.receive unit failure = (d, []) := by
  simp only [receive, h, Bool.false_eq_true, if_false, hfailed]

theorem receive_response_of_pending {d : Dispatcher σ} (h : d.terminated = false)
    (hpending : d.handshake = .pending) (r : Http.Response) (failure : WriteFailure) :
    d.receive (.response r) failure =
      match Handshaker.complete d.handshaker r with
      | .ok handshaker => { d with handshaker }.complete
      | .error e => d.fail (.handshake e) := by
  obtain ⟨handshaker, context, registers, handshake, session, outcome, opened, closeSent,
    terminated⟩ := d
  obtain rfl : terminated = false := h
  obtain rfl : handshake = .pending := hpending
  rfl

theorem receive_frame_of_pending {d : Dispatcher σ} (h : d.terminated = false)
    (hpending : d.handshake = .pending) (f : Received) (failure : WriteFailure) :
    d.receive (.frame f) failure = d.fail (.protocolViolation
      ((Inbound.frame f).describe ++ " received before the handshake completed")) := by
  simp only [receive, h, Bool.false_eq_true, if_false, hpending]

theorem step_of_ends {d : Dispatcher σ} (h : d.terminated = false) {call : Call} {ending : Ending}
    (hends : Ends d call ending) : Ended ending (d.step call) := by
  cases hends with
  | lost => exact ended_connectionClosed h
  | reported cause => exact ended_fail h cause
  | requestNotWritten hopened nonce e =>
    rw [step, connectionOpen, if_neg (by simp [hopened])]
    exact ended_writeOrFail (d := { d with opened := true, handshaker := _ }) h _ e
  | rejected hpending hcomplete failure =>
    rw [step, receive_response_of_pending h hpending, hcomplete]
    exact ended_fail h _
  | early hpending f failure =>
    rw [step, receive_frame_of_pending h hpending]
    exact ended_fail h _
  | peerClose hcomplete code reason failure =>
    rw [step, receive_of_complete h hcomplete]
    exact ended_peerClose d code reason failure
  | pongNotWritten hcomplete payload e =>
    rw [step, receive_of_complete h hcomplete]
    exact ended_writeOrFail h _ e
  | unknownFrame hcomplete opcode failure =>
    rw [step, receive_of_complete h hcomplete]
    exact ended_fail h _
  | secondResponse hcomplete r failure =>
    rw [step, receive_of_complete h hcomplete]
    exact ended_fail h _

theorem quiet_dispatch {d : Dispatcher σ} (hcomplete : d.handshake = .complete) {unit : Inbound}
    {failure : WriteFailure} (hends : ∀ ending, ¬ Ends d (.receive unit failure) ending) :
    Quiet d (d.dispatch unit failure) := by
  have hmessage (m : Message) (hm : m.isClose = false) :
      Quiet d (d, [.notify (.message m)]) := by
    refine ⟨rfl, fun notice hnotice => ?_, rfl⟩
    rw [List.mem_singleton.1 hnotice]
    exact hm
  cases unit with
  | response r => exact absurd (.secondResponse hcomplete r failure) (hends _)
  | frame f =>
    cases f with
    | text body final => exact hmessage _ rfl
    | binary data final => exact hmessage _ rfl
    | pong payload => exact hmessage _ rfl
    | ping payload =>
      cases failure with
      | none => exact quiet_of_silent ⟨rfl, rfl⟩ rfl
      | some e => exact absurd (.pongNotWritten hcomplete payload e) (hends _)
    | close code reason => exact absurd (.peerClose hcomplete code reason failure) (hends _)
    | unknown opcode => exact absurd (.unknownFrame hcomplete opcode failure) (hends _)

theorem step_of_not_ends {d : Dispatcher σ} {call : Call} (hends : ∀ ending, ¬ Ends d call ending) :
    Quiet d (d.step call) := by
  have hidle : Quiet d (d, []) := quiet_of_silent ⟨rfl, rfl⟩ rfl
  cases call with
  | connectionOpen nonce failure =>
    rw [step, connectionOpen]
    split
    · exact hidle
    · next hopened =>
      cases failure with
      | none => exact quiet_of_silent ⟨rfl, rfl⟩ rfl
      | some e => exact absurd (.requestNotWritten (by simpa using hopened) nonce e) (hends _)
  | receive unit failure =>
    rw [step]
    cases hterminated : d.terminated with
    | true =>
      rw [receive_of_terminated hterminated]
      exact hidle
    | false =>
      cases hhandshake : d.handshake with
      | pending =>
        cases unit with
        | response r =>
          rw [receive_response_of_pending hterminated hhandshake]
          cases hcomplete : Handshaker.complete d.handshaker r with
          | ok handshaker =>
            have hquiet := quiet_complete { d with handshaker }
            exact ⟨hquiet.terminated_eq, hquiet.not_terminal, hquiet.closings_eq⟩
          | error e => exact absurd (.rejected hhandshake hcomplete failure) (hends _)
        | frame f => exact absurd (.early hhandshake f failure) (hends _)
      | complete =>
        rw [receive_of_complete hterminated hhandshake]
        exact quiet_dispatch hhandshake hends
      | failed =>
        rw [receive_of_failed hterminated hhandshake]
        exact hidle
  | connectionClosed => exact absurd .lost (hends _)
  | fail cause => exact absurd (.reported cause) (hends _)
  | send frame failure =>
    simp only [step, send]
    split
    · exact hidle
    · refine quiet_of_silent ⟨rfl, rfl⟩ ?_
      dsimp only
      split <;> rfl

/-- Once a connection has ended, nothing is heard of it. -/
theorem step_of_terminated {d : Dispatcher σ} (h : d.terminated = true) (call : Call) :
    (d.step call).1.terminated = true ∧ Silent (d.step call).2 := by
  cases call with
  | connectionOpen nonce failure =>
    rw [step, connectionOpen]
    split
    · exact ⟨h, rfl, rfl⟩
    · cases failure with
      | none => exact ⟨h, rfl, rfl⟩
      | some e =>
        have hfail : ({ d with
            opened := true
            handshaker := (Handshaker.request d.handshaker nonce).1 } : Dispatcher σ).fail
              (.stream e) = _ := if_pos h
        simp only [writeOrFail, hfail]
        exact ⟨h, rfl, rfl⟩
  | receive unit failure =>
    rw [step, receive_of_terminated h]
    exact ⟨h, rfl, rfl⟩
  | connectionClosed =>
    rw [step, connectionClosed, if_pos h]
    exact ⟨h, rfl, rfl⟩
  | fail cause =>
    rw [step, fail, if_pos h]
    exact ⟨h, rfl, rfl⟩
  | send frame failure =>
    simp only [step, send, h, Bool.true_or, if_true]
    exact ⟨trivial, rfl, rfl⟩

theorem not_terminated_of_step {d : Dispatcher σ} {call : Call}
    (h : (d.step call).1.terminated = false) : d.terminated = false := by
  refine Bool.eq_false_iff.2 fun hterminated => ?_
  have hstep := (step_of_terminated hterminated call).1
  simp [h] at hstep

theorem not_ends_of_step {d : Dispatcher σ} {call : Call}
    (h : (d.step call).1.terminated = false) (ending : Ending) : ¬ Ends d call ending := by
  intro hends
  have hended := step_of_ends (not_terminated_of_step h) hends
  exact Bool.false_ne_true (h.symm.trans hended.terminated)

/-! ### A run of calls -/

theorem run_append (d : Dispatcher σ) (calls later : List Call) :
    d.run (calls ++ later) =
      (((d.run calls).1.run later).1, (d.run calls).2 ++ ((d.run calls).1.run later).2) := by
  induction calls generalizing d with
  | nil => rfl
  | cons call calls ih =>
    simp only [List.cons_append, run, ih, List.append_assoc]

theorem run_cons (d : Dispatcher σ) (call : Call) (calls : List Call) :
    d.run (call :: calls) =
      (((d.step call).1.run calls).1, (d.step call).2 ++ ((d.step call).1.run calls).2) := rfl

def EndedBy (d : Dispatcher σ) (calls : List Call) (ending : Ending) : Prop :=
  ∃ before call after, calls = before ++ call :: after ∧
    (d.run before).1.terminated = false ∧ Ends (d.run before).1 call ending

theorem run_of_terminated {d : Dispatcher σ} (h : d.terminated = true) (calls : List Call) :
    (d.run calls).1.terminated = true ∧ Silent (d.run calls).2 := by
  induction calls generalizing d with
  | nil => exact ⟨h, rfl, rfl⟩
  | cons call calls ih =>
    obtain ⟨hterminated, hsilent⟩ := step_of_terminated h call
    obtain ⟨hlater, hlaterSilent⟩ := ih hterminated
    rw [run_cons]
    exact ⟨hlater, hsilent.append hlaterSilent⟩

/-- While a connection lives, nothing terminal has been heard of it. -/
theorem run_of_not_terminated {d : Dispatcher σ} {calls : List Call}
    (h : (d.run calls).1.terminated = false) : Quiet d (d.run calls) := by
  induction calls generalizing d with
  | nil => exact quiet_of_silent ⟨rfl, rfl⟩ rfl
  | cons call calls ih =>
    rw [run_cons] at h
    have hlater := ih h
    have hstep : (d.step call).1.terminated = false := hlater.terminated_eq.symm.trans h
    rw [run_cons]
    exact (step_of_not_ends (not_ends_of_step hstep)).trans hlater

theorem exists_endedBy {d : Dispatcher σ} (h : d.terminated = false) {calls : List Call}
    (hend : (d.run calls).1.terminated = true) : ∃ ending, EndedBy d calls ending := by
  induction calls generalizing d with
  | nil => simp [run, h] at hend
  | cons call calls ih =>
    by_cases hends : ∃ ending, Ends d call ending
    · obtain ⟨ending, hends⟩ := hends
      exact ⟨ending, [], call, calls, rfl, h, hends⟩
    · have hquiet := step_of_not_ends fun ending hending => hends ⟨ending, hending⟩
      obtain ⟨ending, before, last, after, rfl, hbefore, hlast⟩ :=
        ih (hquiet.terminated_eq.trans h) hend
      exact ⟨ending, call :: before, last, after, rfl, hbefore, hlast⟩

/-- **One ending.** Once a connection has ended, its observer has heard of the ending and nothing
after it. -/
theorem run_of_endedBy {d : Dispatcher σ} {calls : List Call} {ending : Ending}
    (h : EndedBy d calls ending) :
    (d.run calls).1.terminated = true ∧
      (∃ earlier, notices (d.run calls).2 = earlier ++ [ending.notice] ∧
        ∀ notice ∈ earlier, notice.isTerminal = false) ∧
      closings (d.run calls).2 = if ending.closesChannel then 1 else 0 := by
  obtain ⟨before, call, after, rfl, hbefore, hends⟩ := h
  have hquiet := run_of_not_terminated hbefore
  have hended := step_of_ends hbefore hends
  obtain ⟨hterminated, hsilent⟩ := run_of_terminated hended.terminated after
  rw [run_append, run_cons]
  refine ⟨hterminated, ⟨notices (d.run before).2, ?_, hquiet.not_terminal⟩, ?_⟩
  · rw [notices_append, notices_append, hended.notices_eq, hsilent.notices_eq, List.append_nil]
  · rw [closings_append, closings_append, hquiet.closings_eq, hended.closings_eq,
      hsilent.closings_eq, Nat.zero_add, Nat.add_zero]

theorem terminated_mono (d : Dispatcher σ) {fewer calls : List Call} (hfewer : fewer <+: calls)
    (h : (d.run fewer).1.terminated = true) : (d.run calls).1.terminated = true := by
  obtain ⟨more, rfl⟩ := hfewer
  rw [run_append]
  exact (run_of_terminated h more).1

theorem closings_of_endedBy {d : Dispatcher σ} {calls : List Call} {ending : Ending}
    (h : EndedBy d calls ending) :
    closings (d.run calls).2 = 1 ↔ ending.closesChannel = true := by
  rw [(run_of_endedBy h).2.2]
  split <;> simp_all

theorem closings_le_one {d : Dispatcher σ} (h : d.terminated = false) (calls : List Call) :
    closings (d.run calls).2 ≤ 1 := by
  by_cases hend : (d.run calls).1.terminated = true
  · obtain ⟨ending, hending⟩ := exists_endedBy h hend
    rw [(run_of_endedBy hending).2.2]
    split <;> decide
  · rw [(run_of_not_terminated (Bool.eq_false_iff.2 hend)).closings_eq]
    exact Nat.zero_le 1

theorem closings_eq_one_iff {d : Dispatcher σ} (h : d.terminated = false) (calls : List Call) :
    closings (d.run calls).2 = 1 ↔
      (∃ code reason, d.EndedBy calls (.peerClose code reason)) ∨
        ∃ cause, d.EndedBy calls (.failed cause) := by
  constructor
  · intro hclosed
    have hend : (d.run calls).1.terminated = true := by
      refine Bool.of_not_eq_false fun halive => ?_
      simp [(run_of_not_terminated halive).closings_eq] at hclosed
    obtain ⟨ending, hending⟩ := exists_endedBy h hend
    have hcloses := (closings_of_endedBy hending).1 hclosed
    cases ending with
    | peerClose code reason => exact .inl ⟨code, reason, hending⟩
    | failed cause => exact .inr ⟨cause, hending⟩
    | lost => simp [Ending.closesChannel] at hcloses
  · rintro (⟨code, reason, hending⟩ | ⟨cause, hending⟩)
    · exact (closings_of_endedBy hending).2 rfl
    · exact (closings_of_endedBy hending).2 rfl

/-- What the observer hears: nothing terminal while the connection lives, and then one terminal
notice at the end. -/
theorem notices_run {d : Dispatcher σ} (h : d.terminated = false) (calls : List Call) :
    ∃ earlier, (∀ notice ∈ earlier, notice.isTerminal = false) ∧
      ((d.run calls).1.terminated = false ∧ notices (d.run calls).2 = earlier ∨
        ∃ last, (d.run calls).1.terminated = true ∧ last.isTerminal = true ∧
          notices (d.run calls).2 = earlier ++ [last]) := by
  cases hend : (d.run calls).1.terminated with
  | false => exact ⟨_, (run_of_not_terminated hend).not_terminal, .inl ⟨rfl, rfl⟩⟩
  | true =>
    obtain ⟨ending, hending⟩ := exists_endedBy h hend
    obtain ⟨-, ⟨earlier, hnotices, hearlier⟩, -⟩ := run_of_endedBy hending
    exact ⟨earlier, hearlier, .inr ⟨ending.notice, rfl, ending.isTerminal_notice, hnotices⟩⟩

/-- **Exactly one ending.** Whatever is called on a new dispatcher, in whatever order, and whichever
writes the channel refuses: the observer hears at most one terminal notice, has heard it exactly
when the connection has ended, and hears nothing after it; an ended connection stays ended; and the
channel is closed at most once, exactly when the connection ended with the peer's Close or with an
error. -/
theorem terminates_once (handshaker : σ) (context : ConnectionContext) (registers : Bool)
    (calls : List Call) :
    let d : Dispatcher σ := { handshaker, context, registers }
    (notices (d.run calls).2).countP Notice.isTerminal ≤ 1 ∧
      ((d.run calls).1.terminated = true ↔
        ∃ notice ∈ notices (d.run calls).2, notice.isTerminal = true) ∧
      (∀ earlier last later, notices (d.run calls).2 = earlier ++ last :: later →
        last.isTerminal = true → later = []) ∧
      (∀ fewer, fewer <+: calls → (d.run fewer).1.terminated = true →
        (d.run calls).1.terminated = true) ∧
      closings (d.run calls).2 ≤ 1 ∧
      (closings (d.run calls).2 = 1 ↔
        (∃ code reason, d.EndedBy calls (.peerClose code reason)) ∨
          ∃ cause, d.EndedBy calls (.failed cause)) := by
  intro d
  have hnew : d.terminated = false := rfl
  obtain ⟨earlier, hearlier, hrun⟩ := notices_run hnew calls
  have hnone : earlier.countP Notice.isTerminal = 0 :=
    List.countP_eq_zero.2 fun notice hnotice => by simp [hearlier notice hnotice]
  have hclosings := And.intro (closings_le_one hnew calls) (closings_eq_one_iff hnew calls)
  rcases hrun with ⟨hend, hnotices⟩ | ⟨last, hend, hlast, hnotices⟩
  · rw [hnotices, hnone]
    refine ⟨Nat.zero_le 1, ?_, ?_, fun fewer => d.terminated_mono, hclosings⟩
    · refine iff_of_false (by simp [hend]) ?_
      rintro ⟨notice, hnotice, hterminal⟩
      simp [hearlier notice hnotice] at hterminal
    · rintro before notice later rfl hterminal
      simp [hearlier notice (by simp)] at hterminal
  · rw [hnotices, List.countP_append, hnone, Nat.zero_add]
    refine ⟨List.countP_le_length, ?_, ?_, fun fewer => d.terminated_mono, hclosings⟩
    · exact iff_of_true hend ⟨last, by simp, hlast⟩
    · intro before notice later hcut hterminal
      rcases List.eq_nil_or_concat later with rfl | ⟨later, final, rfl⟩
      · rfl
      · -- A terminal notice with another behind it would be one of the earlier ones.
        rw [List.concat_eq_append, ← List.cons_append, ← List.append_assoc] at hcut
        have hmem : notice ∈ earlier := by simp [(List.append_inj' hcut rfl).1]
        simp [hearlier notice hmem] at hterminal

end Dispatcher

end WebClient.WebSocket
