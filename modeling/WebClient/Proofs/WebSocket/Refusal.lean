import WebClient.Proofs.WebSocket.Closing
import WebClient.Proofs.WebSocket.Registry

/-!
# A Close that is refused

A dispatcher notes that it has sent a Close before it knows whether the channel takes it. For every
other frame a send that fails changes nothing, but a Close that the channel refuses counts as sent
from then on (`send_of_close`): it cannot be sent again, and the peer's Close is not
answered. The same note is made when the channel refuses the answer to the peer's Close. So what the
dispatcher says of itself is true of exactly those runs in which no Close is refused
(`closeSent_true_to_channel_iff`).
-/

namespace WebClient.WebSocket

def refusesClose (sent : List (Outbound × WriteFailure)) : Bool :=
  sent.any fun attempt => attempt.1.isClose && attempt.2.isSome

def takesClose (effects : List Effect) : Bool :=
  (writes effects).any Outbound.isClose

theorem takesClose_iff (effects : List Effect) :
    takesClose effects = true ↔
      ∃ attempt ∈ attempts effects, attempt.1.isClose = true ∧ attempt.2 = none := by
  rw [takesClose, List.any_eq_true]
  constructor
  · rintro ⟨outbound, hmem, hclose⟩
    rw [writes_eq, List.mem_filterMap] at hmem
    obtain ⟨⟨passed, _ | e⟩, hpassed, hsome⟩ := hmem
    · obtain rfl := Option.some.inj hsome
      exact ⟨_, hpassed, hclose, rfl⟩
    · nomatch hsome
  · rintro ⟨⟨outbound, failure⟩, hmem, hclose, rfl⟩
    refine ⟨outbound, ?_, hclose⟩
    rw [writes_eq, List.mem_filterMap]
    exact ⟨_, hmem, rfl⟩

theorem refusesClose_iff (sent : List (Outbound × WriteFailure)) :
    refusesClose sent = true ↔
      ∃ attempt ∈ sent, attempt.1.isClose = true ∧ attempt.2 ≠ none := by
  simp only [refusesClose, List.any_eq_true, Bool.and_eq_true, Option.isSome_iff_ne_none]

theorem passesClose_iff (effects : List Effect) :
    passesClose (attempts effects) = true ↔
      takesClose effects = true ∨ refusesClose (attempts effects) = true := by
  rw [passesClose, List.any_eq_true, takesClose_iff, refusesClose_iff]
  constructor
  · rintro ⟨attempt, hmem, hclose⟩
    by_cases htaken : attempt.2 = none
    · exact .inl ⟨attempt, hmem, hclose, htaken⟩
    · exact .inr ⟨attempt, hmem, hclose, htaken⟩
  · rintro (⟨attempt, hmem, hclose, -⟩ | ⟨attempt, hmem, hclose, -⟩) <;>
      exact ⟨attempt, hmem, hclose⟩

namespace Dispatcher

variable {σ : Type}

/-! ### One send -/

theorem send_of_closed {d : Dispatcher σ} (h : d.terminated = true ∨ d.closeSent = true)
    (frame : Frame) (failure : WriteFailure) :
    d.send frame failure = (d, [], .error .connectionClosed) := by
  unfold send
  exact if_pos (by simpa using h)

theorem send_of_not_close (d : Dispatcher σ) {frame : Frame} (h : frame.opcode ≠ .close)
    (failure : WriteFailure) : (d.send frame failure).1 = d := by
  simp only [send, h, if_false]
  split <;> rfl

/-- A Close that the dispatcher passes counts as sent, whether or not the channel takes it. -/
theorem send_of_close {d : Dispatcher σ} (hopen : d.terminated = false)
    (hunsent : d.closeSent = false) {frame : Frame} (h : frame.opcode = .close)
    (failure : WriteFailure) : (d.send frame failure).1 = { d with closeSent := true } := by
  simp only [send, hopen, hunsent, Bool.or_self, Bool.false_eq_true, if_false, if_pos h]

/-- What a send leaves as it was: everything, unless it is the first Close of a connection that has
not ended. -/
theorem send_eq_self_iff (d : Dispatcher σ) (frame : Frame) (failure : WriteFailure) :
    (d.send frame failure).1 = d ↔
      ¬ (frame.opcode = .close ∧ d.terminated = false ∧ d.closeSent = false) := by
  by_cases hclosed : d.terminated = true ∨ d.closeSent = true
  · rw [send_of_closed hclosed]
    refine iff_of_true rfl ?_
    rintro ⟨-, hopen, hunsent⟩
    simp [hopen, hunsent] at hclosed
  · simp only [not_or, Bool.not_eq_true] at hclosed
    obtain ⟨hopen, hunsent⟩ := hclosed
    by_cases hclose : frame.opcode = .close
    · rw [send_of_close hopen hunsent hclose]
      refine iff_of_false ?_ (not_not.2 ⟨hclose, hopen, hunsent⟩)
      intro hsame
      have hsent := congrArg Dispatcher.closeSent hsame
      exact Bool.false_ne_true (hunsent.symm.trans hsent.symm)
    · exact iff_of_true (d.send_of_not_close hclose failure) fun h => hclose h.1

variable [Handshaker σ]

/-! ### Any calls -/

theorem passesClose_run_of_closeSent {d : Dispatcher σ} (hsent : d.closeSent = true)
    (calls : List Call) : passesClose (attempts (d.run calls).2) = false := by
  have hcount := d.countP_isClose_run calls
  rw [if_pos hsent, Nat.le_zero, List.countP_eq_zero] at hcount
  exact List.any_eq_false.2 hcount

/-- The one Close that may be passed is not both taken and refused. -/
theorem not_takesClose_of_refusesClose {d : Dispatcher σ} {calls : List Call}
    (h : refusesClose (attempts (d.run calls).2) = true) : takesClose (d.run calls).2 = false := by
  have hcount := d.countP_isClose_run calls
  rw [List.countP_eq_length_filter] at hcount
  rw [← Bool.not_eq_true, takesClose_iff]
  rintro ⟨taken, htaken, hclose, hnone⟩
  obtain ⟨refused, hrefused, hclose', hsome⟩ := (refusesClose_iff _).1 h
  have hcloses {attempt : Outbound × WriteFailure} (hmem : attempt ∈ attempts (d.run calls).2)
      (hclose : attempt.1.isClose = true) :
      attempt ∈ (attempts (d.run calls).2).filter fun attempt => attempt.1.isClose :=
    List.mem_filter.2 ⟨hmem, hclose⟩
  have htaken := hcloses htaken hclose
  have hrefused := hcloses hrefused hclose'
  rcases hlist : (attempts (d.run calls).2).filter fun attempt => attempt.1.isClose with
    _ | ⟨only, _ | ⟨other, more⟩⟩
  · simp [hlist] at htaken
  · rw [hlist, List.mem_singleton] at htaken hrefused
    exact hsome (by rw [hrefused, ← htaken, hnone])
  · rw [hlist] at hcount
    simp only [List.length_cons] at hcount
    split at hcount <;> omega

/-- **A Close that is refused.** Anything is called on a new dispatcher, in any order and with any
writes refused. A send that fails leaves the dispatcher as it was unless it is a Close on a
connection that has not ended and has not passed a Close before; that Close is one that the channel
refuses, and the dispatcher notes it as sent. So it says that it has sent a Close when the channel
has taken one, exactly if the channel has refused none. Once the channel has refused a Close the
dispatcher counts it as sent, and whatever is called, no Close is passed any more, neither the
application's nor the answer to the peer's, and every send fails. -/
theorem closeSent_true_to_channel_iff (handshaker : σ) (context : ConnectionContext)
    (registers : Bool) (calls : List Call) :
    let d : Dispatcher σ := { handshaker, context, registers }
    let ran := d.run calls
    let now := ran.1
    (∀ frame failure e, (now.send frame failure).2.2 = .error e →
      ((now.send frame failure).1 = now ↔
        ¬ (frame.opcode = .close ∧ now.terminated = false ∧ now.closeSent = false)) ∧
      (frame.opcode = .close → now.terminated = false → now.closeSent = false →
        failure ≠ none ∧ (now.send frame failure).1 = { now with closeSent := true })) ∧
    ((now.closeSent = true ↔ takesClose ran.2 = true) ↔ refusesClose (attempts ran.2) = false) ∧
    (refusesClose (attempts ran.2) = true → now.closeSent = true ∧ ∀ later,
      passesClose (attempts (now.run later).2) = false ∧
      ∀ frame failure, (now.run later).1.send frame failure =
        ((now.run later).1, [], .error .connectionClosed)) := by
  intro d ran now
  have hsent : now.closeSent = passesClose (attempts ran.2) := by
    rw [show now.closeSent = _ from closeSent_run d calls]
    exact Bool.false_or _
  refine ⟨fun frame failure e herror => ⟨now.send_eq_self_iff frame failure, ?_⟩, ?_, ?_⟩
  · intro hclose hopen hunsent
    refine ⟨?_, send_of_close hopen hunsent hclose failure⟩
    rintro rfl
    simp [send, hopen, hunsent] at herror
  · rw [hsent, passesClose_iff]
    cases hrefused : refusesClose (attempts ran.2) with
    | false => simp
    | true =>
      have htaken : takesClose ran.2 = false := not_takesClose_of_refusesClose hrefused
      simp [htaken]
  · intro hrefused
    have hnow : now.closeSent = true := by
      rw [hsent, passesClose_iff]
      exact .inr hrefused
    refine ⟨hnow, fun later => ⟨passesClose_run_of_closeSent hnow later, ?_⟩⟩
    have hstill : (now.run later).1.closeSent = true := by
      rw [closeSent_run, hnow, Bool.true_or]
    exact send_of_closed (.inr hstill)

/-! ### A channel that fails at the closing moment -/

def channelFailure : StreamError :=
  { fault := .brokenPipe, text := some "write failed" }

def closingCall : Call :=
  .send (Frame.close (some 1000) "bye") none

/-- A Ping that is refused changes nothing, and the Close that is taken later is noted. A Close that
is refused is noted too, and neither the next one nor the answer to the peer's is passed. -/
theorem closeSent_of_openingCalls :
    let d : Dispatcher Hub.PlainHandshake := { handshaker := .mk, context := Hub.oneContext }
    let opened := (d.run openingCalls).1
    let closed := d.run (openingCalls ++ [closingCall])
    let refused := d.run (openingCalls ++
      [.send (Frame.close (some 1000) "bye") (some channelFailure)])
    (opened.send (Frame.ping [1]) (some channelFailure)).1 = opened ∧
      (closed.1.closeSent = true ↔ takesClose closed.2 = true) ∧
      refused.1.closeSent = true ∧
      passesClose (attempts (refused.1.run
        [closingCall, .receive (.frame (.close 1000 "")) none]).2) = false := by
  intro d opened closed refused
  obtain ⟨hsend, -, -⟩ :=
    closeSent_true_to_channel_iff Hub.PlainHandshake.mk Hub.oneContext false openingCalls
  obtain ⟨-, htrue, -⟩ := closeSent_true_to_channel_iff Hub.PlainHandshake.mk Hub.oneContext false
    (openingCalls ++ [closingCall])
  obtain ⟨-, -, hrefused⟩ := closeSent_true_to_channel_iff Hub.PlainHandshake.mk Hub.oneContext
    false (openingCalls ++ [.send (Frame.close (some 1000) "bye") (some channelFailure)])
  obtain ⟨hnoted, hlater⟩ := hrefused rfl
  refine ⟨?_, htrue.2 rfl, hnoted, (hlater _).1⟩
  refine (hsend (Frame.ping [1]) (some channelFailure) _ rfl).1.2 ?_
  rintro ⟨hclose, -⟩
  nomatch hclose

/-- **A Close that is lost.** The channel refuses the application's Close on an open connection: the
send fails, and yet the dispatcher is not as it was. It says that it has sent a Close although the
channel has taken none, the Close cannot be sent again, and the peer's is not answered. The peer's
Close, where the channel refuses the answer, leaves the same note. -/
theorem refused_close_is_lost :
    let d : Dispatcher Hub.PlainHandshake := { handshaker := .mk, context := Hub.oneContext }
    let opened := (d.run openingCalls).1
    let refusal : Call := .send (Frame.close (some 1000) "bye") (some channelFailure)
    let echo : Call := .receive (.frame (.close 1000 "")) (some channelFailure)
    let refused := (opened.step refusal).1
    ((opened.send (Frame.close (some 1000) "bye") (some channelFailure)).2.2 =
        .error (.stream channelFailure) ∧
      (opened.send (Frame.close (some 1000) "bye") (some channelFailure)).1 ≠ opened) ∧
    (refused.closeSent = true ∧ takesClose (d.run (openingCalls ++ [refusal])).2 = false ∧
      refused.send (Frame.close (some 1000) "bye") none =
        (refused, [], .error .connectionClosed) ∧
      attempts (refused.step (.receive (.frame (.close 1000 "")) none)).2 = []) ∧
    (opened.step echo).1.closeSent = true ∧
      takesClose (d.run (openingCalls ++ [echo])).2 = false := by
  intro d opened refusal echo refused
  refine ⟨⟨rfl, ?_⟩, ⟨rfl, rfl, rfl, rfl⟩, rfl, rfl⟩
  intro hsame
  have hsent := congrArg Dispatcher.closeSent hsame
  nomatch hsent

end Dispatcher

end WebClient.WebSocket
