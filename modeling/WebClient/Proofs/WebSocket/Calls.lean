import WebClient.Proofs.WebSocket.Connection
import WebClient.WebSocket.Hub

/-!
# A connection as a row of calls

Whatever a connection does, it does by calls to its dispatcher. The world outside is told what the
dispatcher says, apart from the writes and the closing of the channel, which the connection sees to
itself (`Makes`). So what is known of every row of calls is known of every connection, whatever it
lives through (`exists_makes_run`). Of its own it adds only when it closes and finishes, and it does
neither before its dispatcher has heard the last (`Sound`).
-/

namespace WebClient.WebSocket

/-! ### What the world outside is told -/

/-- Whether an effect leaves the connection: a write waits in it, and a close is remembered. -/
def Effect.isOutward : Effect → Bool
  | .write .. | .closeChannel => false
  | .register _ | .unregister _ | .resolve _ | .notify _ => true

/-- What a connection has told the session set, those who wait for the handshake, and the
observer. -/
def told (outputs : List Output) : List Effect :=
  outputs.filterMap fun
    | .effect e => some e
    | _ => none

@[simp] theorem told_append (outputs later : List Output) :
    told (outputs ++ later) = told outputs ++ told later :=
  List.filterMap_append

theorem told_trafficRecord {σ : Type} (c : Connection σ) (direction : TrafficDirection)
    (bytes : Bytes) : told (c.trafficRecord direction bytes) = [] := by
  unfold Connection.trafficRecord
  cases c.traffic <;> rfl

theorem notices_filter_isOutward (effects : List Effect) :
    notices (effects.filter Effect.isOutward) = notices effects := by
  rw [notices, List.filterMap_filter]
  congr 1
  funext effect
  cases effect <;> rfl

theorem resolutions_filter_isOutward (effects : List Effect) :
    resolutions (effects.filter Effect.isOutward) = resolutions effects := by
  rw [resolutions, List.filterMap_filter]
  congr 1
  funext effect
  cases effect <;> rfl

theorem SessionSet.applyAll_filter_isOutward (set : SessionSet) (effects : List Effect) :
    set.applyAll (effects.filter Effect.isOutward) = set.applyAll effects := by
  rw [applyAll, List.foldl_filter]
  congr 1
  funext set effect
  cases effect <;> rfl

theorem SessionSet.foldl_applyOutput (set : SessionSet) (outputs : List Output) :
    outputs.foldl SessionSet.applyOutput set = set.applyAll (told outputs) := by
  induction outputs generalizing set with
  | nil => rfl
  | cons output outputs ih =>
    cases output with
    | effect e => exact ih (set.apply e)
    | sent units bytes failure => exact ih set
    | traffic record => exact ih set
    | shutdown => exact ih set

namespace Dispatcher

variable {σ : Type} [Handshaker σ]

/-- The channel is closed by calls that end the connection. -/
theorem terminated_of_closings {d : Dispatcher σ} {call : Call}
    (h : 0 < closings (d.step call).2) : (d.step call).1.terminated = true := by
  cases hbefore : d.terminated with
  | true => exact (step_of_terminated hbefore call).1
  | false =>
    by_cases hends : ∃ ending, Ends d call ending
    · obtain ⟨ending, hends⟩ := hends
      exact (step_of_ends hbefore hends).terminated
    · have hquiet := step_of_not_ends fun ending hending => hends ⟨ending, hending⟩
      simp [hquiet.closings_eq] at h

end Dispatcher

namespace Connection

variable {σ : Type}

theorem told_performAll (c : Connection σ) (effects : List Effect) :
    told (c.performAll effects).2 = effects.filter Effect.isOutward := by
  induction effects generalizing c with
  | nil => rfl
  | cons effect effects ih =>
    rw [performAll, told_append, ih, List.filter_cons]
    cases effect with
    | write outbound failure => cases failure <;> rfl
    | _ => rfl

/-! ### Calls in a row -/

/-- A connection closes and finishes only when its dispatcher has heard the last. -/
structure Sound (c : Connection σ) : Prop where
  closing : c.closing = true → c.dispatcher.terminated = true
  finished : c.finished = true → c.dispatcher.terminated = true

/-- A connection makes calls to its dispatcher, and tells what comes of them. -/
structure Makes [Handshaker σ] (c : Connection σ) (calls : List Dispatcher.Call)
    (result : Connection σ × List Output) : Prop where
  dispatcher_eq : result.1.dispatcher = (c.dispatcher.run calls).1
  told_eq : told result.2 = (c.dispatcher.run calls).2.filter Effect.isOutward
  sound : c.Sound → result.1.Sound

variable [Handshaker σ]

theorem makes_nothing {c c' : Connection σ} {outputs : List Output}
    (hdispatcher : c'.dispatcher = c.dispatcher) (htold : told outputs = [])
    (hsound : c.Sound → c'.Sound) : c.Makes [] (c', outputs) :=
  ⟨hdispatcher, htold, hsound⟩

theorem makes_refl (c : Connection σ) : c.Makes [] (c, []) :=
  makes_nothing rfl rfl id

theorem Makes.trans {c c' c'' : Connection σ} {calls more : List Dispatcher.Call}
    {outputs later : List Output} (h : c.Makes calls (c', outputs))
    (hlater : c'.Makes more (c'', later)) : c.Makes (calls ++ more) (c'', outputs ++ later) := by
  obtain ⟨hdispatcher, htold, hsound⟩ := h
  obtain ⟨hdispatcher', htold', hsound'⟩ := hlater
  dsimp only at hdispatcher htold hdispatcher' htold'
  rw [hdispatcher] at hdispatcher' htold'
  refine ⟨?_, ?_, fun hc => hsound' (hsound hc)⟩
  · rw [Dispatcher.run_append]
    exact hdispatcher'
  · rw [told_append, htold, htold', Dispatcher.run_append, List.filter_append]

theorem Makes.notices_told {c : Connection σ} {calls : List Dispatcher.Call}
    {result : Connection σ × List Output} (h : c.Makes calls result) :
    notices (told result.2) = notices (c.dispatcher.run calls).2 := by
  rw [h.told_eq, notices_filter_isOutward]

theorem Makes.resolutions_told {c : Connection σ} {calls : List Dispatcher.Call}
    {result : Connection σ × List Output} (h : c.Makes calls result) :
    resolutions (told result.2) = resolutions (c.dispatcher.run calls).2 := by
  rw [h.told_eq, resolutions_filter_isOutward]

theorem makes_call (c : Connection σ) (call : Dispatcher.Call) : c.Makes [call] (c.call call) := by
  obtain ⟨hcall, -⟩ := c.call_eq call
  refine ⟨?_, ?_, fun hc => ?_⟩
  · rw [hcall]
    rfl
  · rw [Connection.call, told_performAll]
    simp [Dispatcher.run]
  · rw [hcall]
    refine ⟨fun hclosing => ?_, fun hfinished => ?_⟩
    · rcases Bool.or_eq_true _ _ ▸ hclosing with hbefore | hnow
      · exact (Dispatcher.step_of_terminated (hc.closing hbefore) call).1
      · exact Dispatcher.terminated_of_closings (of_decide_eq_true hnow)
    · exact (Dispatcher.step_of_terminated (hc.finished hfinished) call).1

theorem Makes.of_decode {c c' : Connection σ} {answer : Except Error (Option Inbound)}
    (hdecode : c.decode = (c', answer)) {calls : List Dispatcher.Call}
    {result : Connection σ × List Output} (h : c'.Makes calls result) : c.Makes calls result := by
  obtain ⟨responses, frames, buffer, rfl⟩ := exists_eq_of_decode hdecode
  exact ⟨h.dispatcher_eq, h.told_eq, fun hc => h.sound ⟨hc.closing, hc.finished⟩⟩

theorem exists_makes_receiveAll (c : Connection σ) : ∃ calls, c.Makes calls c.receiveAll := by
  fun_induction receiveAll c with
  | case1 c hend => exact ⟨[], c.makes_refl⟩
  | case2 c hend c' e hdecode => exact ⟨_, .of_decode hdecode (c'.makes_call (.fail e))⟩
  | case3 c hend c' hdecode => exact ⟨[], .of_decode hdecode c'.makes_refl⟩
  | case4 c hend c' unit hdecode received =>
    rename_i c'' later hlater ih
    obtain ⟨calls, hrest⟩ := ih
    rw [hlater] at hrest
    have hfirst := c'.makes_call (.receive unit c'.writeFailure)
    exact ⟨_, .of_decode hdecode (hfirst.trans hrest)⟩

theorem exists_makes_finishHandshake (c : Connection σ) :
    ∃ calls, c.Makes calls c.finishHandshake := by
  unfold finishHandshake
  split
  · exact ⟨[], c.makes_refl⟩
  · dsimp only
    split
    · obtain ⟨hdispatcher, htold, hsound⟩ := makes_call
        { c with
          responses := (c.responses.decodeEnd c.buffer).reader
          buffer := (c.responses.decodeEnd c.buffer).rest } (.receive _ c.writeFailure)
      exact ⟨_, hdispatcher, htold, fun hc => hsound ⟨hc.closing, hc.finished⟩⟩
    · exact ⟨[], makes_nothing rfl rfl fun hc => ⟨hc.closing, hc.finished⟩⟩

/-! ### The end of a turn -/

theorem makes_flush (c : Connection σ) (failure : Option StreamError) :
    c.Makes [] ((c.flush failure).1, (c.flush failure).2.1) := by
  unfold flush
  split
  · exact c.makes_refl
  · split
    · exact makes_nothing rfl rfl fun hc => ⟨hc.closing, hc.finished⟩
    · refine makes_nothing rfl ?_ fun hc => ⟨hc.closing, hc.finished⟩
      rw [told_append, told_trafficRecord]
      rfl

theorem exists_makes_flushOrFail (c : Connection σ) (failure : Option StreamError) :
    ∃ calls, c.Makes calls (c.flushOrFail failure) := by
  have hflush := c.makes_flush failure
  unfold flushOrFail
  split
  · next c' outputs heq =>
    rw [heq] at hflush
    exact ⟨[], hflush⟩
  · next c' outputs e heq =>
    rw [heq] at hflush
    exact ⟨_, hflush.trans (c'.makes_call (.fail e))⟩

theorem makes_settle (c : Connection σ) (failure : Option StreamError) :
    c.Makes [] (c.settle failure) := by
  unfold settle
  split
  · next hends =>
    have hflush := c.makes_flush failure
    generalize c.flush failure = flushed at hflush ⊢
    obtain ⟨c', outputs, answer⟩ := flushed
    obtain ⟨hdispatcher, htold, hsound⟩ := hflush
    dsimp only at hdispatcher htold
    refine makes_nothing hdispatcher ?_ fun hc => ⟨(hsound hc).closing, fun _ => ?_⟩
    · rw [told_append, htold]
      rfl
    · have hterminated : c.dispatcher.terminated = true :=
        (Bool.or_eq_true _ _ ▸ hends).elim hc.closing id
      exact (congrArg Dispatcher.terminated hdispatcher).trans hterminated
  · exact c.makes_refl

theorem exists_makes_endStep (c : Connection σ) (failure : Option StreamError) :
    ∃ calls, c.Makes calls (c.endStep failure) := by
  obtain ⟨calls, hflush⟩ := c.exists_makes_flushOrFail failure
  exact ⟨_, hflush.trans ((c.flushOrFail failure).1.makes_settle failure)⟩

/-- A connection that has heard the last does not go on. -/
theorem finished_endStep {c : Connection σ} {failure : Option StreamError}
    (h : (c.endStep failure).1.dispatcher.terminated = true) :
    (c.endStep failure).1.finished = true := by
  revert h
  simp only [endStep, settle]
  split
  · exact fun _ => rfl
  · next hgoes => simp_all

theorem Makes.exists_makes_endStep {c c' : Connection σ} {calls : List Dispatcher.Call}
    {outputs : List Output} (h : c.Makes calls (c', outputs)) (failure : Option StreamError) :
    (∃ calls, c.Makes calls
        ((c'.endStep failure).1, outputs ++ (c'.endStep failure).2)) ∧
      ((c'.endStep failure).1.dispatcher.terminated = true →
        (c'.endStep failure).1.finished = true) := by
  obtain ⟨more, hends⟩ := c'.exists_makes_endStep failure
  have hgoes : (c'.endStep failure).1.dispatcher.terminated = true →
      (c'.endStep failure).1.finished = true := finished_endStep
  generalize c'.endStep failure = ended at hends hgoes ⊢
  exact ⟨⟨_, h.trans hends⟩, hgoes⟩

/-! ### Whole lives -/

/-- The end of the stream is noticed behind whatever it completes. -/
theorem makes_turn_readEnd {c : Connection σ} {calls : List Dispatcher.Call}
    (h : c.Makes calls c.finishHandshake) :
    c.Makes (calls ++ [.connectionClosed]) (c.turn .readEnd) := by
  have hclosed := c.finishHandshake.1.makes_call .connectionClosed
  obtain ⟨hdispatcher, htold, hsound⟩ := h.trans hclosed
  refine ⟨hdispatcher, htold, fun hc => ⟨(hsound hc).closing, fun _ => ?_⟩⟩
  exact (congrArg Dispatcher.terminated hclosed.dispatcher_eq).trans
    (Dispatcher.terminated_connectionClosed c.finishHandshake.1.dispatcher)

theorem exists_makes_turn (c : Connection σ) (event : Event) :
    ∃ calls, c.Makes calls (c.turn event) := by
  cases event with
  | read bytes =>
    obtain ⟨calls, hdispatcher, htold, hsound⟩ :=
      exists_makes_receiveAll { c with buffer := c.buffer ++ bytes }
    refine ⟨calls, hdispatcher, ?_, fun hc => hsound ⟨hc.closing, hc.finished⟩⟩
    have hrecord := told_trafficRecord c .inbound bytes
    simp only [turn, told_append, hrecord, htold, List.nil_append]
  | readEnd =>
    obtain ⟨calls, hfirst⟩ := c.exists_makes_finishHandshake
    exact ⟨_, makes_turn_readEnd hfirst⟩
  | readFailure e => exact ⟨_, c.makes_call (.fail (.stream e))⟩
  | command frame => exact ⟨_, c.makes_call (.send frame c.writeFailure)⟩

/-- A step of a connection. It goes on exactly as long as it has not heard the last. -/
theorem exists_makes_step (c : Connection σ) (event : Event) (failure : Option StreamError) :
    (∃ calls, c.Makes calls (c.step event failure)) ∧
      ((c.dispatcher.terminated = true → c.finished = true) →
        (c.step event failure).1.dispatcher.terminated = true →
          (c.step event failure).1.finished = true) := by
  cases hfinished : c.finished with
  | true =>
    have hstep : c.step event failure = (c, []) := if_pos hfinished
    rw [hstep]
    exact ⟨⟨[], c.makes_refl⟩, fun _ _ => hfinished⟩
  | false =>
    by_cases hend : event = .readEnd
    · rw [hend, step_readEnd hfinished]
      exact ⟨c.exists_makes_turn .readEnd, fun _ _ => rfl⟩
    by_cases hearly : ∃ frame, event = .command frame ∧ c.dispatcher.handshake ≠ .complete
    · -- No frame is taken before the handshake is complete.
      obtain ⟨frame, rfl, hhandshake⟩ := hearly
      have hstep : c.step (.command frame) failure = (c, []) := by
        unfold step
        rw [if_neg (Bool.eq_false_iff.1 hfinished)]
        exact if_pos hhandshake
      rw [hstep]
      exact ⟨⟨[], c.makes_refl⟩, fun hends hterminated => hfinished ▸ hends hterminated⟩
    · have hcommand : ∀ frame, event = .command frame → c.dispatcher.handshake = .complete :=
        fun frame heq => Decidable.of_not_not fun hhandshake => hearly ⟨frame, heq, hhandshake⟩
      rw [step_eq_turn hfinished hend hcommand]
      obtain ⟨calls, hturn⟩ := c.exists_makes_turn event
      obtain ⟨hmakes, hgoes⟩ := hturn.exists_makes_endStep failure
      exact ⟨hmakes, fun _ => hgoes⟩

theorem run_cons (c : Connection σ) (event : Event) (failure : Option StreamError)
    (events : List (Event × Option StreamError)) :
    c.run ((event, failure) :: events) =
      (((c.step event failure).1.run events).1,
        (c.step event failure).2 ++ ((c.step event failure).1.run events).2) := rfl

theorem run_singleton (c : Connection σ) (event : Event) (failure : Option StreamError) :
    c.run [(event, failure)] = c.step event failure :=
  Prod.ext rfl (List.append_nil _)

theorem run_append (c : Connection σ) (events later : List (Event × Option StreamError)) :
    c.run (events ++ later) =
      (((c.run events).1.run later).1, (c.run events).2 ++ ((c.run events).1.run later).2) := by
  induction events generalizing c with
  | nil => rfl
  | cons event events ih =>
    obtain ⟨event, failure⟩ := event
    rw [List.cons_append, run_cons, run_cons, ih, List.append_assoc]

/-- **A life is a row of calls.** -/
theorem exists_makes_run (c : Connection σ) (events : List (Event × Option StreamError)) :
    (∃ calls, c.Makes calls (c.run events)) ∧
      ((c.dispatcher.terminated = true → c.finished = true) →
        (c.run events).1.dispatcher.terminated = true → (c.run events).1.finished = true) := by
  induction events generalizing c with
  | nil => exact ⟨⟨[], c.makes_refl⟩, id⟩
  | cons event events ih =>
    obtain ⟨event, failure⟩ := event
    obtain ⟨⟨calls, hstep⟩, hgoes⟩ := c.exists_makes_step event failure
    obtain ⟨⟨more, hrun⟩, hlater⟩ := ih (c.step event failure).1
    rw [run_cons]
    exact ⟨⟨_, hstep.trans hrun⟩, fun hends => hlater (hgoes hends)⟩

theorem exists_makes_start (c : Connection σ) (nonce : Nonce) (failure : Option StreamError) :
    (∃ calls, c.Makes calls (c.start nonce failure)) ∧
      ((c.start nonce failure).1.dispatcher.terminated = true →
        (c.start nonce failure).1.finished = true) := by
  rw [start_eq_call]
  exact (c.makes_call (.connectionOpen nonce c.writeFailure)).exists_makes_endStep failure

/-- A connection that is opened and lives through some events, with all that it does. -/
def life (c : Connection σ) (nonce : Nonce) (failure : Option StreamError)
    (events : List (Event × Option StreamError)) : Connection σ × List Output :=
  let (c, outputs) := c.start nonce failure
  let (c, later) := c.run events
  (c, outputs ++ later)

theorem exists_makes_life (c : Connection σ) (nonce : Nonce) (failure : Option StreamError)
    (events : List (Event × Option StreamError)) :
    (∃ calls, c.Makes calls (c.life nonce failure events)) ∧
      ((c.life nonce failure events).1.dispatcher.terminated = true →
        (c.life nonce failure events).1.finished = true) := by
  obtain ⟨⟨calls, hstart⟩, hgoes⟩ := c.exists_makes_start nonce failure
  obtain ⟨⟨more, hrun⟩, hlater⟩ := (c.start nonce failure).1.exists_makes_run events
  exact ⟨⟨_, hstart.trans hrun⟩, hlater hgoes⟩

end Connection

end WebClient.WebSocket
