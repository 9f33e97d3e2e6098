import WebClient.Proofs.WebSocket.Termination

/-!
# How far a connection has come

Four fields of a dispatcher say how far its connection has come: the state of the handshake, the
session, what those who wait for the handshake have been told, and whether the connection has ended.
They are views of one thing, the stage of the connection (`Stands`). A call leaves the stage alone,
completes or fails a pending handshake, or ends a live connection, and passes certain milestones on
the way, in a fixed order (`Move`). That this is all a call can do is `exists_moves_step`; whatever
ties the four fields together is read off the stages, and whatever happens to them in the course of
many calls is read off the moves (`handshake_agrees`).
-/

namespace WebClient.WebSocket

/-! ### Stages -/

/-- How far a connection has come. -/
inductive Stage where
  | pending
  | live (session : Session)
  | closed (session : Session)
  | failed (cause : Error)

namespace Stage

def handshake : Stage → HandshakeState
  | pending => .pending
  | live _ | closed _ => .complete
  | failed _ => .failed

def session? : Stage → Option Session
  | live session | closed session => some session
  | pending | failed _ => none

def outcome? : Stage → Option (Except Error Unit)
  | pending => none
  | live _ | closed _ => some (.ok ())
  | failed cause => some (.error cause)

def hasEnded : Stage → Bool
  | pending | live _ => false
  | closed _ | failed _ => true

/-- A stage that has left the handshake behind keeps what the handshake gave. -/
def Keeps (stage next : Stage) : Prop :=
  stage = .pending ∨ next.handshake = stage.handshake ∧ next.session? = stage.session?

theorem Keeps.refl (stage : Stage) : stage.Keeps stage :=
  .inr ⟨rfl, rfl⟩

theorem eq_pending_of_handshake {stage : Stage} (h : stage.handshake = .pending) :
    stage = .pending := by
  cases stage with
  | pending => rfl
  | _ => nomatch h

theorem Keeps.trans {stage next last : Stage} (h : stage.Keeps next) (hlater : next.Keeps last) :
    stage.Keeps last := by
  rcases h with hpending | ⟨hhandshake, hsession⟩
  · exact .inl hpending
  · rcases hlater with rfl | ⟨hhandshake', hsession'⟩
    · exact .inl (eq_pending_of_handshake hhandshake.symm)
    · exact .inr ⟨hhandshake'.trans hhandshake, hsession'.trans hsession⟩

end Stage

/-! ### Milestones -/

/-- Whether others learn from an effect how far the connection has come. -/
def Effect.isMilestone : Effect → Bool
  | .register _ | .unregister _ | .resolve _ => true
  | .notify notice => notice.isTerminal
  | .write .. | .closeChannel => false

def milestones (effects : List Effect) : List Effect :=
  effects.filter Effect.isMilestone

def resolutions (effects : List Effect) : List (Except Error Unit) :=
  effects.filterMap fun
    | .resolve result => some result
    | _ => none

@[simp] theorem milestones_append (effects later : List Effect) :
    milestones (effects ++ later) = milestones effects ++ milestones later :=
  List.filter_append ..

theorem milestones_cons_of_isMilestone {effect : Effect} (h : effect.isMilestone = true)
    (later : List Effect) : milestones (effect :: later) = effect :: milestones later :=
  List.filter_cons_of_pos h

theorem milestones_cons_of_not_isMilestone {effect : Effect} (h : effect.isMilestone = false)
    (later : List Effect) : milestones (effect :: later) = milestones later :=
  List.filter_cons_of_neg (by simp [h])

@[simp] theorem resolutions_append (effects later : List Effect) :
    resolutions (effects ++ later) = resolutions effects ++ resolutions later :=
  List.filterMap_append

theorem resolutions_milestones (effects : List Effect) :
    resolutions (milestones effects) = resolutions effects := by
  rw [resolutions, milestones, List.filterMap_filter]
  congr 1
  funext effect
  cases effect with
  | notify notice => exact ite_self none
  | _ => rfl

/-- What one call can make of the stage of a connection, and the milestones that it passes. -/
inductive Move (context : ConnectionContext) (registers : Bool) :
    Stage → Stage → List Effect → Prop
  | stay (stage : Stage) : Move context registers stage stage []
  | complete {session : Session} (hcontext : session.context = context) :
      Move context registers .pending (.live session)
        ((if registers then [.register session] else []) ++ [.resolve (.ok ())])
  | fail (cause : Error) (notice : Notice) (hterminal : notice.isTerminal = true) :
      Move context registers .pending (.failed cause)
        [.resolve (.error cause), .notify notice]
  | finish (session : Session) (notice : Notice) (hterminal : notice.isTerminal = true) :
      Move context registers (.live session) (.closed session)
        ((if registers then [.unregister session.id] else []) ++ [.notify notice])

theorem Move.keeps {context : ConnectionContext} {registers : Bool} {stage next : Stage}
    {passed : List Effect} (h : Move context registers stage next passed) : stage.Keeps next := by
  cases h with
  | stay => exact .refl stage
  | complete => exact .inl rfl
  | fail => exact .inl rfl
  | finish => exact .inr ⟨rfl, rfl⟩

theorem Move.outcome {context : ConnectionContext} {registers : Bool} {stage next : Stage}
    {passed : List Effect} (h : Move context registers stage next passed) :
    next.outcome?.toList = stage.outcome?.toList ++ resolutions passed := by
  cases h with
  | stay => exact (List.append_nil _).symm
  | complete => cases registers <;> rfl
  | fail => rfl
  | finish => cases registers <;> rfl

namespace Dispatcher

variable {σ : Type}

/-! ### What a call makes of the stage -/

structure Stands (d : Dispatcher σ) (stage : Stage) : Prop where
  handshake_eq : d.handshake = stage.handshake
  session_eq : d.session = stage.session?
  outcome_eq : d.outcome = stage.outcome?
  terminated_eq : d.terminated = stage.hasEnded
  context_eq : ∀ session, stage.session? = some session → session.context = d.context

structure Moves (d : Dispatcher σ) (stage : Stage) (result : Dispatcher σ × List Effect)
    (next : Stage) : Prop where
  stands : result.1.Stands next
  context_eq : result.1.context = d.context
  registers_eq : result.1.registers = d.registers
  move : Move d.context d.registers stage next (milestones result.2)

theorem stands_new (handshaker : σ) (context : ConnectionContext) (registers : Bool) :
    ({ handshaker, context, registers } : Dispatcher σ).Stands .pending :=
  ⟨rfl, rfl, rfl, rfl, fun _ h => nomatch h⟩

theorem Moves.behind {d d' : Dispatcher σ} {stage next : Stage} {effect : Effect}
    {effects : List Effect} (h : d.Moves stage (d', effects) next)
    (heffect : effect.isMilestone = false) : d.Moves stage (d', effect :: effects) next := by
  refine ⟨h.stands, h.context_eq, h.registers_eq, ?_⟩
  rw [milestones_cons_of_not_isMilestone heffect]
  exact h.move

theorem Stands.idle {d : Dispatcher σ} {stage : Stage} (h : d.Stands stage) {effects : List Effect}
    (heffects : milestones effects = []) : d.Moves stage (d, effects) stage :=
  ⟨h, rfl, rfl, heffects ▸ .stay stage⟩

theorem Stands.milestones_release {d : Dispatcher σ} {session : Session}
    (h : d.Stands (.live session)) :
    milestones d.release = if d.registers then [.unregister session.id] else [] := by
  rw [release, h.session_eq]
  simp only [Stage.session?]
  split <;> rfl

theorem Stands.exists_moves_terminate {d : Dispatcher σ} {stage : Stage} (h : d.Stands stage)
    (halive : d.terminated = false) (cause : Error) {last : List Effect} (notice : Notice)
    (hlast : milestones last = [.notify notice]) (hterminal : notice.isTerminal = true) :
    ∃ next, d.Moves stage ((d.terminate cause).1, (d.terminate cause).2 ++ last) next := by
  cases stage with
  | pending =>
    have hterminate : d.terminate cause =
        ({ d with terminated := true, handshake := .failed, outcome := some (.error cause) },
          [.resolve (.error cause)]) := by
      simp [terminate, release, h.outcome_eq, h.session_eq, Stage.outcome?, Stage.session?]
    rw [hterminate]
    refine ⟨.failed cause, ⟨rfl, h.session_eq, rfl, rfl, fun _ hs => nomatch hs⟩, rfl, rfl, ?_⟩
    rw [milestones_append, hlast]
    exact .fail cause notice hterminal
  | live session =>
    have hterminate : d.terminate cause = ({ d with terminated := true }, d.release) := by
      simp [terminate, h.outcome_eq, Stage.outcome?]
    rw [hterminate]
    refine ⟨.closed session,
      ⟨h.handshake_eq, h.session_eq, h.outcome_eq, rfl, h.context_eq⟩, rfl, rfl, ?_⟩
    rw [milestones_append, hlast, h.milestones_release]
    exact .finish session notice hterminal
  | closed session => simp [h.terminated_eq, Stage.hasEnded] at halive
  | failed cause => simp [h.terminated_eq, Stage.hasEnded] at halive

theorem Stands.exists_moves_fail {d : Dispatcher σ} {stage : Stage} (h : d.Stands stage)
    (cause : Error) : ∃ next, d.Moves stage (d.fail cause) next := by
  unfold fail
  split
  · exact ⟨stage, h.idle rfl⟩
  · next halive =>
    exact h.exists_moves_terminate (Bool.eq_false_iff.2 halive) cause (.error cause) rfl rfl

theorem Stands.exists_moves_connectionClosed {d : Dispatcher σ} {stage : Stage}
    (h : d.Stands stage) : ∃ next, d.Moves stage d.connectionClosed next := by
  unfold connectionClosed
  split
  · exact ⟨stage, h.idle rfl⟩
  · next halive =>
    exact h.exists_moves_terminate (Bool.eq_false_iff.2 halive) .connectionClosed
      (.message .goingAway) rfl rfl

theorem Stands.exists_moves_writeOrFail {d : Dispatcher σ} {stage : Stage} (h : d.Stands stage)
    (outbound : Outbound) (failure : WriteFailure) :
    ∃ next, d.Moves stage (d.writeOrFail outbound failure) next := by
  cases failure with
  | none => exact ⟨stage, h.idle rfl⟩
  | some e =>
    obtain ⟨next, hnext⟩ := h.exists_moves_fail (.stream e)
    exact ⟨next, hnext.behind rfl⟩

theorem Stands.moves_peerClose {d : Dispatcher σ} {session : Session}
    (h : d.Stands (.live session)) (code : CloseCode) (reason : String) (failure : WriteFailure) :
    d.Moves (.live session) (d.peerClose code reason failure) (.closed session) := by
  refine ⟨⟨h.handshake_eq, h.session_eq, h.outcome_eq, rfl, h.context_eq⟩, rfl, rfl, ?_⟩
  have hecho : milestones
      (if d.closeSent then [] else [.write (.frame (closeEcho code)) failure]) = [] := by
    split <;> rfl
  simp only [peerClose, milestones_append, hecho, h.milestones_release]
  exact .finish session (.message (.close code reason)) rfl

theorem Stands.exists_moves_dispatch {d : Dispatcher σ} {session : Session}
    (h : d.Stands (.live session)) (unit : Inbound) (failure : WriteFailure) :
    ∃ next, d.Moves (.live session) (d.dispatch unit failure) next := by
  cases unit with
  | response r => exact h.exists_moves_fail _
  | frame f =>
    cases f with
    | text body final => exact ⟨_, h.idle rfl⟩
    | binary data final => exact ⟨_, h.idle rfl⟩
    | pong payload => exact ⟨_, h.idle rfl⟩
    | ping payload => exact h.exists_moves_writeOrFail _ failure
    | close code reason => exact ⟨_, h.moves_peerClose code reason failure⟩
    | unknown opcode => exact h.exists_moves_fail _

variable [Handshaker σ]

theorem Stands.exists_moves_complete {d : Dispatcher σ} (h : d.Stands .pending) :
    ∃ session, d.Moves .pending d.complete (.live session) := by
  have hcomplete : d.complete =
      ({ d with
          handshake := .complete
          session := some
            { context := d.context, subprotocol := Handshaker.subprotocol d.handshaker }
          outcome := some (.ok ()) },
        (if d.registers then
            [.register
              { context := d.context, subprotocol := Handshaker.subprotocol d.handshaker }]
          else []) ++ [.resolve (.ok ())]) := by
    simp [complete, h.outcome_eq, Stage.outcome?]
  rw [hcomplete]
  refine ⟨_, ⟨rfl, rfl, rfl, h.terminated_eq, ?_⟩, rfl, rfl, ?_⟩
  · rintro _ ⟨⟩
    rfl
  · have hpassed (session : Session) :
        milestones ((if d.registers then [.register session] else []) ++ [.resolve (.ok ())]) =
          (if d.registers then [.register session] else []) ++ [.resolve (.ok ())] := by
      split <;> rfl
    rw [hpassed]
    exact .complete rfl

theorem Stands.exists_moves_receive {d : Dispatcher σ} {stage : Stage} (h : d.Stands stage)
    (unit : Inbound) (failure : WriteFailure) :
    ∃ next, d.Moves stage (d.receive unit failure) next := by
  cases stage with
  | pending =>
    cases unit with
    | response r =>
      rw [receive_response_of_pending h.terminated_eq h.handshake_eq]
      cases Handshaker.complete d.handshaker r with
      | ok handshaker =>
        have hnext : ({ d with handshaker } : Dispatcher σ).Stands .pending :=
          ⟨h.handshake_eq, h.session_eq, h.outcome_eq, h.terminated_eq, h.context_eq⟩
        obtain ⟨session, hmoves⟩ := hnext.exists_moves_complete
        exact ⟨_, hmoves.stands, hmoves.context_eq, hmoves.registers_eq, hmoves.move⟩
      | error e => exact h.exists_moves_fail _
    | frame f =>
      rw [receive_frame_of_pending h.terminated_eq h.handshake_eq]
      exact h.exists_moves_fail _
  | live session =>
    rw [receive_of_complete h.terminated_eq h.handshake_eq]
    exact h.exists_moves_dispatch unit failure
  | closed session =>
    rw [receive_of_terminated h.terminated_eq]
    exact ⟨_, h.idle rfl⟩
  | failed cause =>
    rw [receive_of_terminated h.terminated_eq]
    exact ⟨_, h.idle rfl⟩

/-- **One call.** Whatever is called, the connection makes one of the moves or stays where it is. -/
theorem Stands.exists_moves_step {d : Dispatcher σ} {stage : Stage} (h : d.Stands stage)
    (call : Call) : ∃ next, d.Moves stage (d.step call) next := by
  cases call with
  | connectionOpen nonce failure =>
    rw [step, connectionOpen]
    split
    · exact ⟨stage, h.idle rfl⟩
    · have hopened : ({ d with
          opened := true
          handshaker := (Handshaker.request d.handshaker nonce).1 } : Dispatcher σ).Stands stage :=
        ⟨h.handshake_eq, h.session_eq, h.outcome_eq, h.terminated_eq, h.context_eq⟩
      obtain ⟨next, hmoves⟩ := hopened.exists_moves_writeOrFail
        (.request (Handshaker.request d.handshaker nonce).2) failure
      exact ⟨next, hmoves.stands, hmoves.context_eq, hmoves.registers_eq, hmoves.move⟩
  | receive unit failure => exact h.exists_moves_receive unit failure
  | connectionClosed => exact h.exists_moves_connectionClosed
  | fail cause => exact h.exists_moves_fail cause
  | send frame failure =>
    simp only [step, send]
    split
    · exact ⟨stage, h.idle rfl⟩
    · -- That a Close has been sent is noted, which no stage shows.
      have hnoted : (if frame.opcode = .close then { d with closeSent := true } else d).Stands
          stage := by
        split
        · exact ⟨h.handshake_eq, h.session_eq, h.outcome_eq, h.terminated_eq, h.context_eq⟩
        · exact h
      refine ⟨stage, hnoted, ?_, ?_, .stay stage⟩ <;> dsimp only <;> split <;> rfl

/-! ### A run of calls -/

/-- What many calls make of the stage: it keeps what it had, and those who wait for the handshake
have been told what it shows. -/
theorem Stands.exists_stands_run {d : Dispatcher σ} {stage : Stage} (h : d.Stands stage)
    (calls : List Call) : ∃ next, (d.run calls).1.Stands next ∧ stage.Keeps next ∧
      next.outcome?.toList = stage.outcome?.toList ++ resolutions (d.run calls).2 := by
  induction calls generalizing d stage with
  | nil => exact ⟨stage, h, .refl stage, (List.append_nil _).symm⟩
  | cons call calls ih =>
    obtain ⟨next, hmoves⟩ := h.exists_moves_step call
    obtain ⟨last, hlast, hkeeps, htold⟩ := ih hmoves.stands
    refine ⟨last, hlast, hmoves.move.keeps.trans hkeeps, ?_⟩
    rw [htold, hmoves.move.outcome, resolutions_milestones, run_cons, resolutions_append,
      List.append_assoc]

theorem Stands.exists_keeps_of_isPrefix {d : Dispatcher σ} {stage : Stage} (h : d.Stands stage)
    {fewer calls : List Call} (hfewer : fewer <+: calls) :
    ∃ earlier later, (d.run fewer).1.Stands earlier ∧ (d.run calls).1.Stands later ∧
      earlier.Keeps later := by
  obtain ⟨more, rfl⟩ := hfewer
  obtain ⟨earlier, hearlier, -, -⟩ := h.exists_stands_run fewer
  obtain ⟨later, hlater, hkeeps, -⟩ := hearlier.exists_stands_run more
  refine ⟨earlier, later, hearlier, ?_, hkeeps⟩
  rw [run_append]
  exact hlater

/-- **One outcome.** Whatever is called on a new dispatcher, in whatever order, and whichever writes
the channel refuses: those who wait for the handshake are told its outcome at most once. The
handshake is pending while they have been told nothing, complete when they have been told that it
succeeded, and failed when they have been told why not; it leaves the pending state once and then
stays where it is. There is a session exactly when the handshake is complete, and it is never
replaced. A connection whose handshake has failed has ended, and an ended connection has no
handshake pending. -/
theorem handshake_agrees (handshaker : σ) (context : ConnectionContext) (registers : Bool)
    (calls : List Call) :
    let d : Dispatcher σ := { handshaker, context, registers }
    let now := (d.run calls).1
    let told := resolutions (d.run calls).2
    (now.handshake = .pending ↔ told = []) ∧
      (now.handshake = .complete ↔ told = [.ok ()]) ∧
      (now.handshake = .failed ↔ ∃ cause, told = [.error cause]) ∧
      now.outcome.toList = told ∧
      (∀ fewer, fewer <+: calls →
        (d.run fewer).1.handshake = .pending ∨ (d.run fewer).1.handshake = now.handshake) ∧
      (now.session.isSome = true ↔ now.handshake = .complete) ∧
      (∀ fewer session, fewer <+: calls → (d.run fewer).1.session = some session →
        now.session = some session) ∧
      (now.handshake = .failed → now.terminated = true) ∧
      (now.terminated = true → now.handshake ≠ .pending) := by
  intro d now told
  have hnew : d.Stands .pending := stands_new handshaker context registers
  obtain ⟨stage, hstage, -, htold⟩ := hnew.exists_stands_run calls
  have hnow : now.Stands stage := hstage
  have htold : told = stage.outcome?.toList := htold.symm
  rw [hnow.handshake_eq, hnow.session_eq, hnow.outcome_eq, hnow.terminated_eq, htold]
  refine ⟨?_, ?_, ?_, rfl, fun fewer hfewer => ?_, ?_, fun fewer session hfewer hsession => ?_,
    ?_, ?_⟩
  · cases stage <;> simp [Stage.handshake, Stage.outcome?]
  · cases stage <;> simp [Stage.handshake, Stage.outcome?]
  · cases stage <;> simp [Stage.handshake, Stage.outcome?]
  · obtain ⟨earlier, later, hearlier, hlater, hkeeps⟩ := hnew.exists_keeps_of_isPrefix hfewer
    rw [hearlier.handshake_eq, ← hnow.handshake_eq, hlater.handshake_eq]
    rcases hkeeps with rfl | ⟨hhandshake, -⟩
    · exact .inl rfl
    · exact .inr hhandshake.symm
  · cases stage <;> simp [Stage.handshake, Stage.session?]
  · obtain ⟨earlier, later, hearlier, hlater, hkeeps⟩ := hnew.exists_keeps_of_isPrefix hfewer
    rw [hearlier.session_eq] at hsession
    rw [← hnow.session_eq, hlater.session_eq]
    rcases hkeeps with rfl | ⟨-, hsame⟩
    · nomatch hsession
    · exact hsame.trans hsession
  · cases stage <;> simp [Stage.handshake, Stage.hasEnded]
  · cases stage <;> simp [Stage.handshake, Stage.hasEnded]

end Dispatcher

end WebClient.WebSocket
