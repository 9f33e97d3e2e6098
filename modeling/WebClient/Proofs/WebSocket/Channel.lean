import WebClient.Proofs.WebSocket.Termination

/-!
# What a connection's channel is given

A call passes at most one unit to the channel: the request of the handshake, a frame of the
application, the Pong that answers a Ping, or the Close that answers the peer's. Which of them, if
any, is said in one place (`passes`, `attempts_step`), and a dispatcher remembers of all this only
whether a Close was among it (`closeSent_step`). Whether the channel takes what it is given is
another matter: `attempts` are the units passed to it, and `writes` those it has taken.
-/

namespace WebClient.WebSocket

/-- The units passed to the channel, each with what the channel said. -/
def attempts (effects : List Effect) : List (Outbound × WriteFailure) :=
  effects.filterMap fun
    | .write outbound failure => some (outbound, failure)
    | _ => none

def writes (effects : List Effect) : List Outbound :=
  effects.filterMap fun
    | .write outbound none => some outbound
    | _ => none

@[simp] theorem attempts_append (effects later : List Effect) :
    attempts (effects ++ later) = attempts effects ++ attempts later :=
  List.filterMap_append

@[simp] theorem writes_append (effects later : List Effect) :
    writes (effects ++ later) = writes effects ++ writes later :=
  List.filterMap_append

theorem writes_eq (effects : List Effect) :
    writes effects = (attempts effects).filterMap fun
      | (outbound, none) => some outbound
      | _ => none := by
  rw [writes, attempts, List.filterMap_filterMap]
  congr 1
  funext effect
  cases effect with
  | write outbound failure => cases failure <;> rfl
  | _ => rfl

theorem writes_of_attempts {effects : List Effect} (h : attempts effects = []) :
    writes effects = [] := by
  rw [writes_eq, h]
  rfl

theorem exists_mem_attempts {effects : List Effect} {outbound : Outbound}
    (h : outbound ∈ writes effects) : ∃ failure, (outbound, failure) ∈ attempts effects := by
  rw [writes_eq, List.mem_filterMap] at h
  obtain ⟨⟨_, _ | e⟩, hmem, houtbound⟩ := h
  · obtain rfl := Option.some_inj.1 houtbound
    exact ⟨none, hmem⟩
  · nomatch houtbound

def Outbound.isClose : Outbound → Bool
  | .request _ => false
  | .frame f => f.opcode = .close

def passesClose (sent : List (Outbound × WriteFailure)) : Bool :=
  sent.any fun attempt => attempt.1.isClose

theorem passesClose_append (sent later : List (Outbound × WriteFailure)) :
    passesClose (sent ++ later) = (passesClose sent || passesClose later) :=
  List.any_append

theorem closeEcho_eq (code : CloseCode) :
    Dispatcher.closeEcho code = Frame.close (if code = CloseCode.noStatus then none
      else if code.isSendable then some code else some CloseCode.protocolError) "" := by
  unfold Dispatcher.closeEcho
  repeat' split
  all_goals rfl

theorem opcode_closeEcho (code : CloseCode) : (Dispatcher.closeEcho code).opcode = .close := by
  rw [closeEcho_eq]
  rfl

namespace Dispatcher

variable {σ : Type}

/-! ### Calls that pass nothing -/

theorem attempts_release (d : Dispatcher σ) : attempts d.release = [] := by
  unfold release
  repeat' split
  all_goals rfl

theorem attempts_terminate (d : Dispatcher σ) (cause : Error) :
    attempts (d.terminate cause).2 = [] := by
  unfold terminate
  split
  · exact d.attempts_release
  · rw [attempts_append, attempts_release]
    rfl

theorem attempts_fail (d : Dispatcher σ) (cause : Error) : attempts (d.fail cause).2 = [] := by
  unfold fail
  split
  · rfl
  · rw [attempts_append, attempts_terminate]
    rfl

theorem attempts_connectionClosed (d : Dispatcher σ) : attempts d.connectionClosed.2 = [] := by
  unfold connectionClosed
  split
  · rfl
  · rw [attempts_append, attempts_terminate]
    rfl

theorem attempts_complete [Handshaker σ] (d : Dispatcher σ) : attempts d.complete.2 = [] := by
  unfold complete
  dsimp only
  repeat' split
  all_goals rfl

/-- A call that has not touched what a dispatcher knows of its channel. -/
def SameChannel (d d' : Dispatcher σ) : Prop :=
  d'.opened = d.opened ∧ d'.closeSent = d.closeSent

theorem sameChannel_terminate (d : Dispatcher σ) (cause : Error) :
    d.SameChannel (d.terminate cause).1 := by
  unfold terminate
  split <;> exact ⟨rfl, rfl⟩

theorem sameChannel_fail (d : Dispatcher σ) (cause : Error) : d.SameChannel (d.fail cause).1 := by
  unfold fail
  split
  · exact ⟨rfl, rfl⟩
  · exact d.sameChannel_terminate cause

theorem sameChannel_connectionClosed (d : Dispatcher σ) :
    d.SameChannel d.connectionClosed.1 := by
  unfold connectionClosed
  split
  · exact ⟨rfl, rfl⟩
  · exact d.sameChannel_terminate .connectionClosed

theorem sameChannel_complete [Handshaker σ] (d : Dispatcher σ) : d.SameChannel d.complete.1 := by
  unfold complete
  dsimp only
  split <;> exact ⟨rfl, rfl⟩

/-! ### What a handler passes -/

/-- These units have been passed, and the dispatcher remembers a Close among them. -/
structure Passes (d : Dispatcher σ) (sent : List (Outbound × WriteFailure))
    (result : Dispatcher σ × List Effect) : Prop where
  attempts_eq : attempts result.2 = sent
  closeSent_eq : result.1.closeSent = (d.closeSent || passesClose sent)
  opened_mono : d.opened = true → result.1.opened = true

theorem passes_nothing {d d' : Dispatcher σ} {effects : List Effect}
    (h : attempts effects = []) (hsame : d.SameChannel d') : d.Passes [] (d', effects) := by
  refine ⟨h, ?_, fun hopened => hsame.1.trans hopened⟩
  rw [passesClose, List.any_nil, Bool.or_false]
  exact hsame.2

theorem passes_fail (d : Dispatcher σ) (cause : Error) : d.Passes [] (d.fail cause) :=
  passes_nothing (d.attempts_fail cause) (d.sameChannel_fail cause)

theorem passes_writeOrFail (d : Dispatcher σ) {outbound : Outbound}
    (houtbound : outbound.isClose = false) (failure : WriteFailure) :
    d.Passes [(outbound, failure)] (d.writeOrFail outbound failure) := by
  have hclose : (d.closeSent || passesClose [(outbound, failure)]) = d.closeSent := by
    simp [passesClose, houtbound]
  cases failure with
  | none => exact ⟨rfl, hclose.symm, id⟩
  | some e =>
    have hattempts : attempts (d.writeOrFail outbound (some e)).2 =
        (outbound, some e) :: attempts (d.fail (.stream e)).2 := rfl
    obtain ⟨hopened, hsent⟩ := d.sameChannel_fail (.stream e)
    refine ⟨?_, hsent.trans hclose.symm, fun h => hopened.trans h⟩
    rw [hattempts, attempts_fail]

theorem passes_peerClose (d : Dispatcher σ) (code : CloseCode) (reason : String)
    (failure : WriteFailure) :
    d.Passes (if d.closeSent then [] else [(.frame (closeEcho code), failure)])
      (d.peerClose code reason failure) := by
  refine ⟨?_, ?_, id⟩
  · simp only [peerClose, attempts_append, attempts_release]
    split <;> rfl
  · cases hsent : d.closeSent with
    | true => rfl
    | false => simp [peerClose, passesClose, Outbound.isClose, opcode_closeEcho]

theorem passes_send (d : Dispatcher σ) (frame : Frame) (failure : WriteFailure) :
    d.Passes (if d.terminated || d.closeSent then [] else [(.frame frame, failure)])
      ((d.send frame failure).1, (d.send frame failure).2.1) := by
  unfold send
  split
  · exact passes_nothing rfl ⟨rfl, rfl⟩
  · next hallowed =>
    have hsent : d.closeSent = false := by simp_all
    refine ⟨rfl, ?_, fun hopened => ?_⟩ <;> dsimp only <;> split <;>
      simp_all [passesClose, Outbound.isClose]

/-! ### What a call passes -/

/-- The handshake is complete, and the connection has not ended. -/
def isOpen (d : Dispatcher σ) : Bool :=
  d.handshake = .complete && !d.terminated

theorem isOpen_iff {d : Dispatcher σ} :
    d.isOpen = true ↔ d.handshake = .complete ∧ d.terminated = false := by
  simp [isOpen]

variable [Handshaker σ]

/-- The units that a call passes to the channel: one or none. -/
def passes (d : Dispatcher σ) : Call → List (Outbound × WriteFailure)
  | .connectionOpen nonce failure =>
    if d.opened then []
    else [(.request (Handshaker.request d.handshaker nonce).2, failure)]
  | .receive (.frame (.ping payload)) failure =>
    if d.isOpen then [(.frame (Frame.pong payload), failure)] else []
  | .receive (.frame (.close code _)) failure =>
    if d.isOpen && !d.closeSent then [(.frame (closeEcho code), failure)] else []
  | .send frame failure =>
    if d.terminated || d.closeSent then [] else [(.frame frame, failure)]
  | .receive _ _ | .connectionClosed | .fail _ => []

theorem length_passes_le_one (d : Dispatcher σ) (call : Call) : (d.passes call).length ≤ 1 := by
  unfold passes
  repeat' split
  all_goals simp

/-- What is read passes nothing before the handshake is complete, and nothing after the end. -/
theorem passes_of_not_isOpen {d : Dispatcher σ} (h : d.isOpen = false) (unit : Inbound)
    (failure : WriteFailure) : d.passes (.receive unit failure) = [] := by
  unfold passes
  split <;> simp_all

/-- The one Close that is passed for something that is read answers the peer's. -/
theorem exists_eq_close_of_passesClose {d : Dispatcher σ} {unit : Inbound}
    {failure : WriteFailure} (h : passesClose (d.passes (.receive unit failure)) = true) :
    ∃ code reason, unit = .frame (.close code reason) := by
  cases unit with
  | response r => nomatch h
  | frame f =>
    cases f with
    | close code reason => exact ⟨code, reason, rfl⟩
    | ping payload =>
      rw [passes] at h
      split at h <;> nomatch h
    | _ => nomatch h

theorem passes_receive_of_not_isOpen {d : Dispatcher σ} (h : d.isOpen = false) (unit : Inbound)
    (failure : WriteFailure) : d.Passes [] (d.receive unit failure) := by
  cases halive : d.terminated with
  | true =>
    rw [receive_of_terminated halive]
    exact passes_nothing rfl ⟨rfl, rfl⟩
  | false =>
    cases hhandshake : d.handshake with
    | complete => simp [isOpen, halive, hhandshake] at h
    | failed =>
      rw [receive_of_failed halive hhandshake]
      exact passes_nothing rfl ⟨rfl, rfl⟩
    | pending =>
      cases unit with
      | frame f =>
        rw [receive_frame_of_pending halive hhandshake]
        exact d.passes_fail _
      | response r =>
        rw [receive_response_of_pending halive hhandshake]
        cases Handshaker.complete d.handshaker r with
        | error e => exact d.passes_fail _
        | ok handshaker =>
          have hsame := sameChannel_complete { d with handshaker }
          exact passes_nothing (attempts_complete _) hsame

theorem passes_dispatch {d : Dispatcher σ} (h : d.isOpen = true) (unit : Inbound)
    (failure : WriteFailure) :
    d.Passes (d.passes (.receive unit failure)) (d.dispatch unit failure) := by
  have hmessage (m : Message) : d.Passes [] (d, [.notify (.message m)]) :=
    passes_nothing rfl ⟨rfl, rfl⟩
  cases unit with
  | response r => exact d.passes_fail _
  | frame f =>
    cases f with
    | text body final => exact hmessage _
    | binary data final => exact hmessage _
    | pong payload => exact hmessage _
    | ping payload =>
      rw [passes, if_pos h]
      exact d.passes_writeOrFail rfl failure
    | close code reason =>
      have hclose := d.passes_peerClose code reason failure
      cases hsent : d.closeSent <;> simp_all [passes, dispatch]
    | unknown opcode => exact d.passes_fail _

/-- **What a call passes** depends on the call, on how far the connection has come, and on whether a
Close has been passed before. -/
theorem passes_step (d : Dispatcher σ) (call : Call) :
    d.Passes (d.passes call) (d.step call) := by
  cases call with
  | connectionOpen nonce failure =>
    rw [step, connectionOpen, passes]
    split
    · exact passes_nothing rfl ⟨rfl, rfl⟩
    · have hrequest :
          (Outbound.request (Handshaker.request d.handshaker nonce).2).isClose = false := rfl
      obtain ⟨hattempts, hclose, hopened⟩ := passes_writeOrFail
        { d with opened := true, handshaker := (Handshaker.request d.handshaker nonce).1 }
        hrequest failure
      exact ⟨hattempts, hclose, fun _ => hopened rfl⟩
  | receive unit failure =>
    rw [step]
    cases hopen : d.isOpen with
    | true =>
      obtain ⟨hcomplete, halive⟩ := isOpen_iff.1 hopen
      rw [receive_of_complete halive hcomplete]
      exact passes_dispatch hopen unit failure
    | false =>
      rw [passes_of_not_isOpen hopen]
      exact passes_receive_of_not_isOpen hopen unit failure
  | connectionClosed =>
    exact passes_nothing d.attempts_connectionClosed d.sameChannel_connectionClosed
  | fail cause => exact d.passes_fail cause
  | send frame failure => exact d.passes_send frame failure

theorem attempts_step (d : Dispatcher σ) (call : Call) :
    attempts (d.step call).2 = d.passes call :=
  (d.passes_step call).attempts_eq

theorem closeSent_step (d : Dispatcher σ) (call : Call) :
    (d.step call).1.closeSent = (d.closeSent || passesClose (d.passes call)) :=
  (d.passes_step call).closeSent_eq

/-- A dispatcher remembers whether a Close has been passed in the course of the calls. -/
theorem closeSent_run (d : Dispatcher σ) (calls : List Call) :
    (d.run calls).1.closeSent = (d.closeSent || passesClose (attempts (d.run calls).2)) := by
  induction calls generalizing d with
  | nil => exact (Bool.or_false _).symm
  | cons call calls ih =>
    rw [run_cons, ih, closeSent_step, attempts_append, passesClose_append, attempts_step,
      Bool.or_assoc]

theorem opened_connectionOpen (d : Dispatcher σ) (nonce : Nonce) (failure : WriteFailure) :
    (d.connectionOpen nonce failure).1.opened = true := by
  unfold connectionOpen
  split
  · assumption
  · cases failure with
    | none => rfl
    | some e => exact (sameChannel_fail _ (.stream e)).1

theorem opened_run {d : Dispatcher σ} (h : d.opened = true) (calls : List Call) :
    (d.run calls).1.opened = true := by
  induction calls generalizing d with
  | nil => exact h
  | cons call calls ih => exact ih ((d.passes_step call).opened_mono h)

end Dispatcher

end WebClient.WebSocket
