import WebClient.Proofs.WebSocket.Channel
import WebClient.Proofs.WebSocket.Registry

/-!
# The closing handshake

Either side may close first, and either may find that the other has. What keeps the two from
answering each other for ever is that a connection passes one Close at most: the application's, or
the one that answers the peer's. Behind it nothing is passed any more but Pongs
(`eq_pong_of_closeSent`), and the peer's Close is answered only if it came first.
-/

namespace WebClient.WebSocket.Dispatcher

variable {σ : Type} [Handshaker σ]

/-- Behind a Close, a unit that is passed answers a Ping. -/
theorem eq_pong_of_closeSent {d : Dispatcher σ} (hopened : d.opened = true)
    (hsent : d.closeSent = true) {call : Call} {attempt : Outbound × WriteFailure}
    (hmem : attempt ∈ d.passes call) :
    ∃ payload, call = .receive (.frame (.ping payload)) attempt.2 ∧
      attempt.1 = .frame (Frame.pong payload) := by
  unfold passes at hmem
  split at hmem
  · simp [hopened] at hmem
  · next payload failure =>
    split at hmem
    · obtain rfl := List.mem_singleton.1 hmem
      exact ⟨payload, rfl, rfl⟩
    · exact absurd hmem List.not_mem_nil
  · simp [hsent] at hmem
  · simp [hsent] at hmem
  all_goals exact absurd hmem List.not_mem_nil

theorem passesClose_passes_of_closeSent {d : Dispatcher σ} (hsent : d.closeSent = true)
    (call : Call) : passesClose (d.passes call) = false := by
  unfold passes
  repeat' split
  all_goals simp_all [passesClose, Outbound.isClose, Frame.pong]

/-- One Close may be passed, and none if one has been. -/
theorem countP_isClose_run (d : Dispatcher σ) (calls : List Call) :
    (attempts (d.run calls).2).countP (fun attempt => attempt.1.isClose) ≤
      if d.closeSent then 0 else 1 := by
  induction calls generalizing d with
  | nil => exact Nat.zero_le _
  | cons call calls ih =>
    have hlater := ih (d.step call).1
    rw [closeSent_step] at hlater
    rw [run_cons, attempts_append, List.countP_append, attempts_step]
    cases hclose : passesClose (d.passes call) with
    | true =>
      have hsent : d.closeSent = false := Bool.eq_false_iff.2 fun hsent =>
        Bool.false_ne_true ((passesClose_passes_of_closeSent hsent call).symm.trans hclose)
      have hone : (d.passes call).countP (fun attempt => attempt.1.isClose) ≤ _ :=
        List.countP_le_length
      have hlength := d.length_passes_le_one call
      simp only [hclose, Bool.or_true, if_true] at hlater
      simp only [hsent, Bool.false_eq_true, if_false]
      omega
    | false =>
      have hnone : (d.passes call).countP (fun attempt => attempt.1.isClose) = 0 := by
        rw [List.countP_eq_zero]
        exact List.any_eq_false.1 hclose
      rw [hclose, Bool.or_false] at hlater
      rw [hnone, Nat.zero_add]
      exact hlater

theorem notices_receive_close {d : Dispatcher σ} (hopen : d.isOpen = true) (code : CloseCode)
    (reason : String) (failure : WriteFailure) :
    notices (d.step (.receive (.frame (.close code reason)) failure)).2 =
      [.message (.close code reason)] := by
  obtain ⟨hcomplete, halive⟩ := isOpen_iff.1 hopen
  exact (step_of_ends halive (.peerClose hcomplete code reason failure)).notices_eq

/-- **One Close.** A connection is opened, and then anything is called, in any order, with any
writes refused: at most one Close is passed to the channel. Whatever is called next passes at most
one unit, and once a Close has been passed, that unit is the Pong for a Ping that has just been
read. When the peer's Close comes while the connection is open, the observer is told its code and
its reason. It is answered if no Close has been passed: with its own code where that may be sent,
without a code where it had none, and with the code for a broken protocol where it had any other. -/
theorem passes_one_close (handshaker : σ) (context : ConnectionContext) (registers : Bool)
    (nonce : Nonce) (failure : WriteFailure) (calls : List Call) :
    let d : Dispatcher σ := { handshaker, context, registers }
    let ran := d.run (.connectionOpen nonce failure :: calls)
    let passed := attempts ran.2
    passed.countP (fun attempt => attempt.1.isClose) ≤ 1 ∧
      (∀ call, (attempts (ran.1.step call).2).length ≤ 1 ∧
        (passesClose passed = true → ∀ attempt ∈ attempts (ran.1.step call).2, ∃ payload,
          call = .receive (.frame (.ping payload)) attempt.2 ∧
            attempt.1 = .frame (Frame.pong payload))) ∧
      ∀ code reason failure, ran.1.isOpen = true →
        let closed := (ran.1.step (.receive (.frame (.close code reason)) failure)).2
        attempts closed =
            (if passesClose passed then []
            else
              let answer :=
                if code = CloseCode.noStatus then none
                else if code.isSendable then some code
                else some CloseCode.protocolError
              [(.frame (Frame.close answer ""), failure)]) ∧
          notices closed = [.message (.close code reason)] := by
  intro d ran passed
  have hsent : ran.1.closeSent = passesClose passed := by
    rw [closeSent_run]
    exact Bool.false_or _
  have hopened : ran.1.opened = true := by
    refine opened_run ?_ calls
    exact opened_connectionOpen d nonce failure
  refine ⟨d.countP_isClose_run _, fun call => ?_, fun code reason failure hopen => ?_⟩
  · rw [attempts_step]
    refine ⟨length_passes_le_one ran.1 call, fun hclose attempt hmem => ?_⟩
    exact eq_pong_of_closeSent hopened (hsent.trans hclose) hmem
  · refine ⟨?_, notices_receive_close hopen code reason failure⟩
    rw [attempts_step, passes, hopen, hsent, closeEcho_eq]
    cases passesClose passed <;> rfl

/-- A connection is opened, and its handshake completes. -/
def openingCalls : List Call :=
  [.connectionOpen (Hub.repeatedNonce 0) none, .receive (.response { status := 101 }) none]

/-- The peer closes a connection that has just been opened, and its Close is answered with its code.
If the application has closed before, it is not answered. -/
theorem passes_peerClose_openingCalls :
    let d : Dispatcher Hub.PlainHandshake := { handshaker := .mk, context := Hub.oneContext }
    let peerClose : Call := .receive (.frame (.close 1000 "bye")) none
    let opened := (d.run openingCalls).1
    let closing := (d.run (openingCalls ++ [.send (Frame.close (some 1001) "") none])).1
    (opened.isOpen = true ∧
        attempts (opened.step peerClose).2 = [(.frame (Frame.close (some 1000) ""), none)] ∧
        notices (opened.step peerClose).2 = [.message (.close 1000 "bye")]) ∧
      closing.isOpen = true ∧ attempts (closing.step peerClose).2 = [] ∧
        notices (closing.step peerClose).2 = [.message (.close 1000 "bye")] := by
  intro d peerClose opened closing
  have hopen : opened.isOpen = true := rfl
  have hclosing : closing.isOpen = true := rfl
  obtain ⟨-, -, hanswer⟩ := passes_one_close Hub.PlainHandshake.mk Hub.oneContext false
    (Hub.repeatedNonce 0) none [.receive (.response { status := 101 }) none]
  obtain ⟨-, -, hsilent⟩ := passes_one_close Hub.PlainHandshake.mk Hub.oneContext false
    (Hub.repeatedNonce 0) none [.receive (.response { status := 101 }) none,
      .send (Frame.close (some 1001) "") none]
  exact ⟨⟨hopen, hanswer 1000 "bye" none hopen⟩, hclosing, hsilent 1000 "bye" none hclosing⟩

end WebClient.WebSocket.Dispatcher
