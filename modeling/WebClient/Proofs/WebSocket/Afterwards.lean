import WebClient.Proofs.WebSocket.Channel
import WebClient.Proofs.WebSocket.Registry

/-!
# After the end

A connection that has ended is meant to be left alone: whatever is called, nothing more is written,
nobody is told anything, and what has come of the handshake stands. Four of the five calls see to
this themselves. The one that opens the connection does not: a connection that ended before it was
opened writes the request of its handshake when it is opened at last (`run_of_ended`), and to no
other is this left to do. So the calls behind an end are silent exactly where the connection had
been opened before, or is not opened any more (`silent_after_end`).
-/

namespace WebClient.WebSocket.Dispatcher

variable {σ : Type}

def Call.opens : Call → Bool
  | .connectionOpen .. => true
  | .receive .. | .connectionClosed | .fail _ | .send .. => false

/-- The dispatchers differ in nothing but what opening a connection changes. -/
def SameButOpened (d d' : Dispatcher σ) : Prop :=
  d' = { d with opened := d'.opened, handshaker := d'.handshaker }

theorem SameButOpened.trans {d d' d'' : Dispatcher σ} (h : d.SameButOpened d')
    (hlater : d'.SameButOpened d'') : d.SameButOpened d'' := by
  rw [SameButOpened, h] at hlater
  exact hlater

/-! ### Opening -/

theorem opened_dispatch (d : Dispatcher σ) (unit : Inbound) (failure : WriteFailure) :
    (d.dispatch unit failure).1.opened = d.opened := by
  cases unit with
  | response r => exact (d.sameChannel_fail _).1
  | frame f =>
    cases f with
    | ping payload =>
      cases failure with
      | none => rfl
      | some e => exact (d.sameChannel_fail (.stream e)).1
    | unknown opcode => exact (d.sameChannel_fail _).1
    | _ => rfl

variable [Handshaker σ]

theorem opened_receive (d : Dispatcher σ) (unit : Inbound) (failure : WriteFailure) :
    (d.receive unit failure).1.opened = d.opened := by
  unfold receive
  split
  · rfl
  · split
    · split
      · exact (sameChannel_complete _).1
      · exact (d.sameChannel_fail _).1
    · exact (d.sameChannel_fail _).1
    · exact d.opened_dispatch _ failure
    · rfl

theorem opened_step (d : Dispatcher σ) (call : Call) :
    (d.step call).1.opened = (d.opened || call.opens) := by
  cases call with
  | connectionOpen nonce failure =>
    rw [Call.opens, Bool.or_true]
    exact d.opened_connectionOpen nonce failure
  | receive unit failure =>
    rw [Call.opens, Bool.or_false]
    exact d.opened_receive unit failure
  | connectionClosed =>
    rw [Call.opens, Bool.or_false]
    exact d.sameChannel_connectionClosed.1
  | fail cause =>
    rw [Call.opens, Bool.or_false]
    exact (d.sameChannel_fail cause).1
  | send frame failure =>
    rw [Call.opens, Bool.or_false]
    simp only [step, send]
    split
    · rfl
    · dsimp only
      split <;> rfl

theorem opened_run_eq (d : Dispatcher σ) (calls : List Call) :
    (d.run calls).1.opened = (d.opened || calls.any Call.opens) := by
  induction calls generalizing d with
  | nil => exact (Bool.or_false _).symm
  | cons call calls ih => rw [run_cons, ih, opened_step, List.any_cons, Bool.or_assoc]

/-! ### One call behind the end -/

omit [Handshaker σ] in
theorem writeOrFail_of_terminated {d : Dispatcher σ} (h : d.terminated = true)
    (outbound : Outbound) (failure : WriteFailure) :
    d.writeOrFail outbound failure = (d, [.write outbound failure]) := by
  cases failure with
  | none => rfl
  | some e => rw [writeOrFail, fail, if_pos h]

theorem step_of_ended_of_not_opens {d : Dispatcher σ} (h : d.terminated = true) {call : Call}
    (hcall : call.opens = false) : d.step call = (d, []) := by
  cases call with
  | connectionOpen nonce failure => nomatch hcall
  | receive unit failure => rw [step, receive_of_terminated h]
  | connectionClosed => rw [step, connectionClosed, if_pos h]
  | fail cause => rw [step, fail, if_pos h]
  | send frame failure => simp only [step, send, h, Bool.true_or, if_true]

def begun (d : Dispatcher σ) (nonce : Nonce) : Dispatcher σ :=
  { d with opened := true, handshaker := (Handshaker.request d.handshaker nonce).1 }

theorem sameButOpened_begun (d : Dispatcher σ) (nonce : Nonce) :
    d.SameButOpened (d.begun nonce) := rfl

theorem connectionOpen_of_ended {d : Dispatcher σ} (h : d.terminated = true)
    (hopened : d.opened = false) (nonce : Nonce) (failure : WriteFailure) :
    d.connectionOpen nonce failure =
      (d.begun nonce, [.write (.request (Handshaker.request d.handshaker nonce).2) failure]) := by
  have hended : (d.begun nonce).terminated = true := h
  rw [connectionOpen, if_neg (by simp [hopened])]
  exact writeOrFail_of_terminated hended _ failure

/-! ### Any calls behind the end -/

/-- What opening the connection at last still writes. -/
def belated (d : Dispatcher σ) (calls : List Call) : List Effect :=
  if d.opened then []
  else match calls.find? Call.opens with
    | some (.connectionOpen nonce failure) =>
      [.write (.request (Handshaker.request d.handshaker nonce).2) failure]
    | _ => []

theorem belated_of_opened {d : Dispatcher σ} (h : d.opened = true) (calls : List Call) :
    d.belated calls = [] :=
  if_pos h

theorem belated_cons_of_not_opens (d : Dispatcher σ) {call : Call} (h : call.opens = false)
    (calls : List Call) : d.belated (call :: calls) = d.belated calls := by
  rw [belated, belated, List.find?_cons_of_neg (by simp [h])]

theorem belated_eq_nil_iff (d : Dispatcher σ) (calls : List Call) :
    d.belated calls = [] ↔ d.opened = true ∨ calls.any Call.opens = false := by
  unfold belated
  cases hopened : d.opened with
  | true => simp
  | false =>
    cases hfind : calls.find? Call.opens with
    | none =>
      have hnone : calls.any Call.opens = false := by
        simpa using hfind
      simp [hnone]
    | some call =>
      have hopens := List.find?_some hfind
      have hsome : calls.any Call.opens = true :=
        List.any_eq_true.2 ⟨call, List.mem_of_find?_eq_some hfind, hopens⟩
      cases call with
      | connectionOpen nonce failure => simp [hsome]
      | _ => nomatch hopens

/-- **What is done behind the end**: the request is written if the connection is opened only now,
and nothing else. -/
theorem run_of_ended {d : Dispatcher σ} (h : d.terminated = true) (calls : List Call) :
    d.SameButOpened (d.run calls).1 ∧ (d.run calls).2 = d.belated calls := by
  induction calls generalizing d with
  | nil =>
    refine ⟨rfl, ?_⟩
    unfold belated
    split <;> rfl
  | cons call calls ih =>
    rw [run_cons]
    cases hopens : call.opens with
    | false =>
      rw [step_of_ended_of_not_opens h hopens, belated_cons_of_not_opens d hopens]
      exact ih h
    | true =>
      obtain ⟨nonce, failure, rfl⟩ : ∃ nonce failure, call = .connectionOpen nonce failure := by
        cases call with
        | connectionOpen nonce failure => exact ⟨nonce, failure, rfl⟩
        | _ => nomatch hopens
      cases hopened : d.opened with
      | true =>
        have hstep : d.step (.connectionOpen nonce failure) = (d, []) := if_pos hopened
        obtain ⟨hsame, heffects⟩ := ih h
        rw [hstep, belated_of_opened hopened]
        rw [belated_of_opened hopened] at heffects
        exact ⟨hsame, heffects⟩
      | false =>
        rw [step, connectionOpen_of_ended h hopened]
        -- The handshake has begun, so the calls behind this one have nothing left to write.
        obtain ⟨hsame, heffects⟩ := ih (show (d.begun nonce).terminated = true from h)
        refine ⟨(d.sameButOpened_begun nonce).trans hsame, ?_⟩
        rw [heffects, belated_of_opened rfl, List.append_nil, belated, hopened]
        rfl

/-- **Silence after the end.** A connection has ended, in whatever way, and anything is called
afterwards, in any order and with any writes refused. If the connection had been opened before it
ended, or is not opened any more, nothing is done to the world outside; otherwise the request of its
handshake is written, once, and nothing else is done. In either case the state of the handshake, the
session, and everything else but the handshaker and the note that it has started stay as they are,
and no frame is accepted for sending. -/
theorem silent_after_end (handshaker : σ) (context : ConnectionContext) (registers : Bool)
    (calls later : List Call) :
    let d : Dispatcher σ := { handshaker, context, registers }
    let ended := (d.run calls).1
    let after := ended.run later
    ended.terminated = true →
      (after.2 = [] ↔ calls.any Call.opens = true ∨ later.any Call.opens = false) ∧
      after.2 = ended.belated later ∧
      after.1 = { ended with opened := after.1.opened, handshaker := after.1.handshaker } ∧
      ∀ frame failure, after.1.send frame failure = (after.1, [], .error .connectionClosed) := by
  intro d ended after hended
  obtain ⟨hsame, heffects⟩ := run_of_ended hended later
  have hopened : ended.opened = calls.any Call.opens := by
    rw [opened_run_eq d calls]
    exact Bool.false_or _
  have hstill : after.1.terminated = true := by
    rw [show after.1 = _ from hsame]
    exact hended
  refine ⟨?_, heffects, hsame, ?_⟩
  · rw [show after.2 = _ from heffects, belated_eq_nil_iff, hopened]
  · intro frame failure
    simp only [send, hstill, Bool.true_or, if_true]

/-- The connection is opened, lost and opened again, and a frame is sent: nothing more is done. -/
theorem silent_after_loss :
    let d : Dispatcher Hub.PlainHandshake := { handshaker := .mk, context := Hub.twoContexts 0 }
    let calls : List Call := [.connectionOpen ⟨List.replicate 16 0, rfl⟩ none,
      .receive (.response { status := 101 }) none, .connectionClosed]
    let later : List Call := [.connectionOpen ⟨List.replicate 16 1, rfl⟩ none,
      .fail .invalidHostName, .receive (.frame (.ping [1])) none, .send (Frame.pong [2]) none,
      .connectionClosed]
    (d.run calls).1.terminated = true ∧ ((d.run calls).1.run later).2 = [] := by
  intro d calls later
  have hended : (d.run calls).1.terminated = true := rfl
  have hopened : calls.any Call.opens = true := rfl
  obtain ⟨hsilent, -⟩ := silent_after_end Hub.PlainHandshake.mk (Hub.twoContexts 0) false calls
    later hended
  exact ⟨hended, hsilent.2 (.inl hopened)⟩

/-- The transport ends before the connection is opened; then it is opened, and its request is
written. -/
theorem writes_after_end :
    let d : Dispatcher Hub.PlainHandshake := { handshaker := .mk, context := Hub.twoContexts 0 }
    let ended := (d.run [.connectionClosed]).1
    let after := ended.run [.connectionOpen ⟨List.replicate 16 0, rfl⟩ none]
    ended.terminated = true ∧ writes after.2 = [.request { method := .get, path := "/" }] :=
  ⟨rfl, rfl⟩

end WebClient.WebSocket.Dispatcher
