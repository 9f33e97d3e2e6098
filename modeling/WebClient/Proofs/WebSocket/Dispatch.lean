import WebClient.Proofs.WebSocket.Channel
import WebClient.Proofs.WebSocket.Registry

/-!
# What an open connection tells and writes

Between the completion of its handshake and its end, a connection is transparent: each text, binary
and Pong frame that is read becomes one message with the same content, each Ping is answered by a
Pong with the same payload, and each frame of the application that is accepted is written. One call
is looked at alone first, on a connection that has not ended behind it (`notices_step`,
`writtenFrames_step`). On a channel that takes every write, which calls end an open connection can
be seen from the calls themselves (`Call.isEnding`), and so a whole run comes apart at its end
(`dispatch_faithful`).
-/

namespace WebClient.WebSocket

/-! ### What calls ask for -/

def Outbound.frame? : Outbound → Option Frame
  | .request _ => none
  | .frame f => some f

def writtenFrames (effects : List Effect) : List Frame :=
  (writes effects).filterMap Outbound.frame?

@[simp] theorem writtenFrames_append (effects later : List Effect) :
    writtenFrames (effects ++ later) = writtenFrames effects ++ writtenFrames later := by
  rw [writtenFrames, writes_append, List.filterMap_append]
  rfl

/-- Those notices that are not the last. -/
def messagesBetween (effects : List Effect) : List Notice :=
  (notices effects).filter fun notice => !notice.isTerminal

@[simp] theorem messagesBetween_append (effects later : List Effect) :
    messagesBetween (effects ++ later) = messagesBetween effects ++ messagesBetween later := by
  rw [messagesBetween, notices_append, List.filter_append]
  rfl

theorem Move.eq_live {context : ConnectionContext} {registers : Bool} {session : Session}
    {next : Stage} {passed : List Effect}
    (h : Move context registers (.live session) next passed) (halive : next.hasEnded = false) :
    next = .live session := by
  cases h with
  | stay => rfl
  | finish => nomatch halive

theorem Move.exists_eq_live {context : ConnectionContext} {registers : Bool} {next : Stage}
    {passed : List Effect} (h : Move context registers .pending next passed)
    (hcomplete : next.handshake = .complete) : ∃ session, next = .live session := by
  cases h with
  | complete => exact ⟨_, rfl⟩
  | _ => nomatch hcomplete

namespace Dispatcher

/-- The message that stands for a frame which has been read. -/
def Call.message? : Call → Option Message
  | .receive (.frame (.text body final)) _ => some (.text body final)
  | .receive (.frame (.binary data final)) _ => some (.binary data final)
  | .receive (.frame (.pong payload)) _ => some (.control .pong payload)
  | _ => none

/-- Whether a call ends an open connection whose channel takes every write. -/
def Call.isEnding : Call → Bool
  | .connectionClosed | .fail _ => true
  | .receive (.response _) _ => true
  | .receive (.frame (.close ..)) _ | .receive (.frame (.unknown _)) _ => true
  | .receive (.frame _) _ | .connectionOpen .. | .send .. => false

def Call.failure : Call → WriteFailure
  | .connectionOpen _ failure | .receive _ failure | .send _ failure => failure
  | .connectionClosed | .fail _ => none

def Call.echo : Call → List Frame
  | .receive (.frame (.close code _)) _ => [closeEcho code]
  | _ => []

def untilEnd (calls : List Call) : List Call :=
  calls.takeWhile fun call => !call.isEnding

variable {σ : Type}

/-- What whoever makes a call is told in return, which is of interest to those who send. -/
def reply (d : Dispatcher σ) : Call → Except Error Unit
  | .send frame failure => (d.send frame failure).2.2
  | _ => .ok ()

/-- The frame that is written for a call, given the reply to it: a frame that was accepted, or the
Pong for a Ping. -/
def frameFor : Call × Except Error Unit → Option Frame
  | (.send frame _, .ok ()) => some frame
  | (.receive (.frame (.ping payload)) _, _) => some (Frame.pong payload)
  | _ => none

variable [Handshaker σ]

def transcript (d : Dispatcher σ) : List Call → List (Call × Except Error Unit)
  | [] => []
  | call :: calls => (call, d.reply call) :: (d.step call).1.transcript calls

/-! ### One call -/

theorem writtenFrames_eq (effects : List Effect) :
    writtenFrames effects = (attempts effects).filterMap fun
      | (.frame f, none) => some f
      | _ => none := by
  rw [writtenFrames, writes_eq, List.filterMap_filterMap]
  congr 1
  funext ⟨outbound, failure⟩
  cases failure <;> cases outbound <;> rfl

theorem notices_complete (d : Dispatcher σ) : notices d.complete.2 = [] := by
  unfold complete
  dsimp only
  repeat' split
  all_goals rfl

theorem notices_receive_of_pending {d : Dispatcher σ} (hpending : d.handshake = .pending)
    {unit : Inbound} {failure : WriteFailure}
    (halive : (d.step (.receive unit failure)).1.terminated = false) :
    notices (d.step (.receive unit failure)).2 = [] := by
  have hbefore := not_terminated_of_step halive
  have hends := not_ends_of_step halive
  cases unit with
  | frame f => exact absurd (.early hpending f failure) (hends _)
  | response r =>
    rw [step, receive_response_of_pending hbefore hpending]
    cases hcomplete : Handshaker.complete d.handshaker r with
    | ok handshaker => exact notices_complete _
    | error e => exact absurd (.rejected hpending hcomplete failure) (hends _)

/-- A call that leaves a connection alive tells the observer of a text, binary or Pong frame that
has been read, once the handshake is complete, and of nothing else. -/
theorem notices_step {d : Dispatcher σ} {stage : Stage} (h : d.Stands stage) {call : Call}
    (halive : (d.step call).1.terminated = false) :
    notices (d.step call).2 = if d.isOpen then call.message?.toList.map .message else [] := by
  have hbefore := not_terminated_of_step halive
  have hends := not_ends_of_step halive
  cases call with
  | connectionOpen nonce failure =>
    have hnothing : notices (d.connectionOpen nonce failure).2 = [] := by
      unfold connectionOpen
      split
      · rfl
      · next hopened =>
        cases failure with
        | none => rfl
        | some e => exact absurd (.requestNotWritten (by simpa using hopened) nonce e) (hends _)
    simp [step, hnothing, Call.message?]
  | connectionClosed => exact absurd .lost (hends _)
  | fail cause => exact absurd (.reported cause) (hends _)
  | send frame failure =>
    have hnothing : notices (d.send frame failure).2.1 = [] := by
      unfold send
      split <;> rfl
    simp [step, hnothing, Call.message?]
  | receive unit failure =>
    cases stage with
    | closed session => simp [h.terminated_eq, Stage.hasEnded] at hbefore
    | failed cause => simp [h.terminated_eq, Stage.hasEnded] at hbefore
    | pending =>
      have hpending : d.handshake = .pending := h.handshake_eq
      rw [notices_receive_of_pending hpending halive, isOpen, hpending]
      rfl
    | live session =>
      have hopen : d.isOpen = true := isOpen_iff.2 ⟨h.handshake_eq, hbefore⟩
      rw [step, receive_of_complete hbefore h.handshake_eq, hopen, if_pos rfl]
      cases unit with
      | response r => exact absurd (.secondResponse h.handshake_eq r failure) (hends _)
      | frame f =>
        cases f with
        | ping payload =>
          cases failure with
          | none => rfl
          | some e => exact absurd (.pongNotWritten h.handshake_eq payload e) (hends _)
        | close code reason =>
          exact absurd (.peerClose h.handshake_eq code reason failure) (hends _)
        | unknown opcode => exact absurd (.unknownFrame h.handshake_eq opcode failure) (hends _)
        | _ => rfl

/-- A call that leaves a connection alive writes the frame of the application that is accepted, and
the Pong for a Ping. -/
theorem writtenFrames_step {d : Dispatcher σ} {stage : Stage} (h : d.Stands stage) {call : Call}
    (halive : (d.step call).1.terminated = false) :
    writtenFrames (d.step call).2 = (frameFor (call, d.reply call)).toList := by
  have hbefore := not_terminated_of_step halive
  have hends := not_ends_of_step halive
  rw [writtenFrames_eq, attempts_step]
  cases call with
  | connectionOpen nonce failure =>
    rw [passes]
    split <;> cases failure <;> rfl
  | connectionClosed => rfl
  | fail cause => rfl
  | send frame failure =>
    cases hrefused : d.terminated || d.closeSent with
    | true => simp [passes, reply, send, hrefused, frameFor]
    | false => cases failure <;> simp [passes, reply, send, hrefused, frameFor]
  | receive unit failure =>
    cases unit with
    | response r => rfl
    | frame f =>
      cases stage with
      | closed session => simp [h.terminated_eq, Stage.hasEnded] at hbefore
      | failed cause => simp [h.terminated_eq, Stage.hasEnded] at hbefore
      | pending => exact absurd (.early h.handshake_eq f failure) (hends _)
      | live session =>
        have hopen : d.isOpen = true := isOpen_iff.2 ⟨h.handshake_eq, hbefore⟩
        cases f with
        | ping payload =>
          cases failure with
          | none => simp [passes, hopen, frameFor]
          | some e => exact absurd (.pongNotWritten h.handshake_eq payload e) (hends _)
        | close code reason =>
          exact absurd (.peerClose h.handshake_eq code reason failure) (hends _)
        | _ => rfl

theorem writtenFrames_step_of_terminated {d : Dispatcher σ} (h : d.terminated = true)
    (call : Call) : writtenFrames (d.step call).2 = [] := by
  rw [writtenFrames_eq, attempts_step]
  cases call with
  | connectionOpen nonce failure =>
    rw [passes]
    split <;> cases failure <;> rfl
  | receive unit failure =>
    have hclosed : d.isOpen = false := by simp [isOpen, h]
    rw [passes_of_not_isOpen hclosed]
    rfl
  | send frame failure => simp [passes, h]
  | connectionClosed => rfl
  | fail cause => rfl

theorem writtenFrames_run_of_terminated {d : Dispatcher σ} (h : d.terminated = true)
    (calls : List Call) : writtenFrames (d.run calls).2 = [] := by
  induction calls generalizing d with
  | nil => rfl
  | cons call calls ih =>
    rw [run_cons, writtenFrames_append, writtenFrames_step_of_terminated h,
      ih (step_of_terminated h call).1, List.nil_append]

/-! ### Before the handshake is complete -/

/-- While the handshake is pending, the observer is told nothing. -/
theorem Stands.notices_of_pending {d : Dispatcher σ} (h : d.Stands .pending) {calls : List Call}
    (hpending : (d.run calls).1.handshake = .pending) : notices (d.run calls).2 = [] := by
  induction calls generalizing d with
  | nil => rfl
  | cons call calls ih =>
    obtain ⟨next, hmoves⟩ := h.exists_moves_step call
    obtain ⟨last, hlast, hkeeps, -⟩ := hmoves.stands.exists_stands_run calls
    -- The stage can only be pending at the end if it never was anything else.
    obtain rfl : next = .pending := by
      rcases hkeeps with hnext | ⟨hsame, -⟩
      · exact hnext
      · exact Stage.eq_pending_of_handshake
          (hsame.symm.trans (hlast.handshake_eq.symm.trans hpending))
    have hclosed : d.isOpen = false := by simp [isOpen, h.handshake_eq, Stage.handshake]
    rw [run_cons, notices_append, notices_step h hmoves.stands.terminated_eq, hclosed,
      ih hmoves.stands hpending]
    rfl

/-- The response that completes the handshake starts a session, and the observer is told nothing. -/
theorem Stands.exists_live_of_complete {d : Dispatcher σ} (h : d.Stands .pending) {call : Call}
    (hcomplete : (d.step call).1.handshake = .complete) :
    (∃ session, (d.step call).1.Stands (.live session)) ∧ notices (d.step call).2 = [] := by
  obtain ⟨next, hmoves⟩ := h.exists_moves_step call
  have hnext := hmoves.stands.handshake_eq.symm.trans hcomplete
  obtain ⟨session, rfl⟩ := hmoves.move.exists_eq_live hnext
  have hclosed : d.isOpen = false := by simp [isOpen, h.handshake_eq, Stage.handshake]
  refine ⟨⟨session, hmoves.stands⟩, ?_⟩
  rw [notices_step h hmoves.stands.terminated_eq, hclosed]
  rfl

/-! ### An open connection -/

theorem Stands.live_step {d : Dispatcher σ} {session : Session} (h : d.Stands (.live session))
    {call : Call} (hgoes : call.isEnding = false) (htaken : call.failure = none) :
    (d.step call).1.Stands (.live session) := by
  have hends (ending : Ending) : ¬ Ends d call ending := by
    intro hends
    cases hends with
    | rejected hpending => simp [h.handshake_eq, Stage.handshake] at hpending
    | early hpending => simp [h.handshake_eq, Stage.handshake] at hpending
    | requestNotWritten => cases htaken
    | pongNotWritten => cases htaken
    | _ => cases hgoes
  have hquiet := step_of_not_ends hends
  obtain ⟨next, hmoves⟩ := h.exists_moves_step call
  have halive : next.hasEnded = false :=
    hmoves.stands.terminated_eq.symm.trans (hquiet.terminated_eq.trans h.terminated_eq)
  obtain rfl := hmoves.move.eq_live halive
  exact hmoves.stands

/-- A call that is an ending ends an open connection. The observer is told this alone, and the
peer's Close is answered unless this side has passed one. -/
theorem Stands.live_ends {d : Dispatcher σ} {session : Session} (h : d.Stands (.live session))
    {call : Call} (hending : call.isEnding = true) (htaken : call.failure = none) :
    (d.step call).1.terminated = true ∧ messagesBetween (d.step call).2 = [] ∧
      writtenFrames (d.step call).2 = if d.closeSent then [] else call.echo := by
  have hends : ∃ ending, Ends d call ending := by
    cases call with
    | connectionOpen nonce failure => nomatch hending
    | send frame failure => nomatch hending
    | connectionClosed => exact ⟨_, .lost⟩
    | fail cause => exact ⟨_, .reported cause⟩
    | receive unit failure =>
      cases unit with
      | response r => exact ⟨_, .secondResponse h.handshake_eq r failure⟩
      | frame f =>
        cases f with
        | close code reason => exact ⟨_, .peerClose h.handshake_eq code reason failure⟩
        | unknown opcode => exact ⟨_, .unknownFrame h.handshake_eq opcode failure⟩
        | _ => nomatch hending
  obtain ⟨ending, hends⟩ := hends
  obtain ⟨hterminated, hnotices, -⟩ := step_of_ends h.terminated_eq hends
  have hopen : d.isOpen = true := isOpen_iff.2 ⟨h.handshake_eq, h.terminated_eq⟩
  refine ⟨hterminated, ?_, ?_⟩
  · rw [messagesBetween, hnotices]
    simp [ending.isTerminal_notice]
  · rw [writtenFrames_eq, attempts_step]
    cases hends with
    | peerClose _ code reason failure =>
      obtain rfl : failure = none := htaken
      rw [passes, hopen]
      cases d.closeSent <;> rfl
    | rejected hpending => simp [h.handshake_eq, Stage.handshake] at hpending
    | early hpending => simp [h.handshake_eq, Stage.handshake] at hpending
    | requestNotWritten => cases htaken
    | pongNotWritten => cases htaken
    | _ => exact (ite_self []).symm

/-! ### A run of calls -/

theorem Stands.writtenFrames_run {d : Dispatcher σ} {stage : Stage} (h : d.Stands stage)
    {calls : List Call} (halive : (d.run calls).1.terminated = false) :
    writtenFrames (d.run calls).2 = (d.transcript calls).filterMap frameFor := by
  induction calls generalizing d stage with
  | nil => rfl
  | cons call calls ih =>
    obtain ⟨next, hmoves⟩ := h.exists_moves_step call
    have hlater := ih hmoves.stands halive
    have hlast : ((d.step call).1.run calls).1.terminated = false := halive
    have hbetween : (d.step call).1.terminated = false :=
      (run_of_not_terminated hlast).terminated_eq.symm.trans hlast
    rw [run_cons, writtenFrames_append, writtenFrames_step h hbetween, hlater, transcript,
      List.filterMap_cons]
    cases frameFor (call, d.reply call) <;> rfl

theorem Stands.live_run {d : Dispatcher σ} {session : Session} (h : d.Stands (.live session))
    {calls : List Call} (htaken : ∀ call ∈ calls, call.failure = none) :
    (d.run (untilEnd calls)).1.terminated = false ∧
      (d.run calls).1.terminated = calls.any Call.isEnding ∧
      messagesBetween (d.run calls).2 =
        ((untilEnd calls).filterMap Call.message?).map .message ∧
      writtenFrames (d.run calls).2 =
        writtenFrames (d.run (untilEnd calls)).2 ++
          if (d.run (untilEnd calls)).1.closeSent then []
          else (calls.find? Call.isEnding).toList.flatMap Call.echo := by
  induction calls generalizing d with
  | nil => exact ⟨h.terminated_eq, h.terminated_eq, rfl, (ite_self []).symm⟩
  | cons call calls ih =>
    have hfirst := htaken call List.mem_cons_self
    cases hending : call.isEnding with
    | true =>
      obtain ⟨hend, hmessages, hframes⟩ := h.live_ends hending hfirst
      obtain ⟨hterminated, hsilent⟩ := run_of_terminated hend calls
      have hstop : untilEnd (call :: calls) = [] := by simp [untilEnd, hending]
      have hquiet : messagesBetween ((d.step call).1.run calls).2 = [] := by
        rw [messagesBetween, hsilent.notices_eq]
        rfl
      rw [hstop, run_cons]
      refine ⟨h.terminated_eq, ?_, ?_, ?_⟩
      · rw [List.any_cons, hending, hterminated]
        rfl
      · rw [messagesBetween_append, hmessages, hquiet]
        rfl
      · rw [writtenFrames_append, hframes, writtenFrames_run_of_terminated hend,
          List.append_nil, List.find?_cons_of_pos hending]
        simp [run, writtenFrames, writes]
    | false =>
      have hlive := h.live_step hending hfirst
      obtain ⟨halive, hterminated, hmessages, hframes⟩ :=
        ih hlive fun later hlater => htaken later (List.mem_cons_of_mem call hlater)
      have hgoes : untilEnd (call :: calls) = call :: untilEnd calls := by
        simp [untilEnd, hending]
      have hopen : d.isOpen = true := isOpen_iff.2 ⟨h.handshake_eq, h.terminated_eq⟩
      have hstep : messagesBetween (d.step call).2 = call.message?.toList.map .message := by
        have hquiet := step_of_not_ends (not_ends_of_step hlive.terminated_eq)
        rw [messagesBetween, List.filter_eq_self.2, notices_step h hlive.terminated_eq, hopen,
          if_pos rfl]
        intro notice hnotice
        rw [hquiet.not_terminal notice hnotice]
        rfl
      rw [hgoes, run_cons, run_cons]
      refine ⟨halive, ?_, ?_, ?_⟩
      · rw [List.any_cons, hending, hterminated]
        rfl
      · rw [messagesBetween_append, hstep, hmessages, List.filterMap_cons]
        cases call.message? <;> rfl
      · rw [writtenFrames_append, writtenFrames_append, hframes, List.append_assoc,
          List.find?_cons_of_neg (by simp [hending])]

theorem Stands.live_of_upgraded {d : Dispatcher σ} (h : d.Stands .pending) {opening : List Call}
    (hpending : (d.run opening).1.handshake = .pending) {call : Call}
    (hcomplete : (d.run (opening ++ [call])).1.handshake = .complete) :
    (∃ session, (d.run (opening ++ [call])).1.Stands (.live session)) ∧
      notices (d.run (opening ++ [call])).2 = [] := by
  obtain ⟨stage, hstage, -, -⟩ := h.exists_stands_run opening
  obtain rfl := Stage.eq_pending_of_handshake (hstage.handshake_eq.symm.trans hpending)
  rw [run_append] at hcomplete ⊢
  obtain ⟨hlive, hnothing⟩ := hstage.exists_live_of_complete hcomplete
  refine ⟨hlive, ?_⟩
  rw [notices_append, h.notices_of_pending hpending, run_cons, notices_append, hnothing]
  rfl

/-- **Faithful dispatch.** Whatever is called before a response completes the handshake, the
observer has heard nothing by then. From there on the channel takes every write, and anything is
called, in any order. The connection ends with the first call that is an ending. Apart from the
notice of the end, the observer is told of the text, binary and Pong frames that come before, each
once, in order and with the same content. The frames written are those that were accepted from the
application and one Pong for each Ping, with the same payload and in the order of the calls, and
behind them the answer to the peer's Close, if that is the end and this side has passed none. -/
theorem dispatch_faithful (handshaker : σ) (context : ConnectionContext) (registers : Bool)
    (opening : List Call) (response : Http.Response) (failure : WriteFailure)
    (later : List Call) :
    let d : Dispatcher σ := { handshaker, context, registers }
    let upgraded := opening ++ [.receive (.response response) failure]
    let heard := upgraded ++ untilEnd later
    let ran := d.run (upgraded ++ later)
    (d.run opening).1.handshake = .pending → (d.run upgraded).1.handshake = .complete →
      (∀ call ∈ later, call.failure = none) →
      notices (d.run upgraded).2 = [] ∧
        (d.run heard).1.terminated = false ∧
        ran.1.terminated = later.any Call.isEnding ∧
        messagesBetween ran.2 = ((untilEnd later).filterMap Call.message?).map .message ∧
        writtenFrames ran.2 = (d.transcript heard).filterMap frameFor ++
          if passesClose (attempts (d.run heard).2) then []
          else (later.find? Call.isEnding).toList.flatMap Call.echo := by
  intro d upgraded heard ran hpending hcomplete htaken
  have hnew : d.Stands .pending := stands_new handshaker context registers
  obtain ⟨⟨session, hlive⟩, hnothing⟩ := hnew.live_of_upgraded hpending hcomplete
  obtain ⟨halive, hterminated, hmessages, hframes⟩ := hlive.live_run htaken
  have hran : ran = _ := run_append d upgraded later
  have hheard : d.run heard = _ := run_append d upgraded (untilEnd later)
  have hgoes : (d.run heard).1.terminated = false := by
    rw [hheard]
    exact halive
  have hclose : ((d.run upgraded).1.run (untilEnd later)).1.closeSent =
      passesClose (attempts (d.run heard).2) := by
    have hsent := d.closeSent_run heard
    rw [hheard] at hsent ⊢
    exact hsent.trans (Bool.false_or _)
  have hwritten : writtenFrames (d.run upgraded).2 ++
      writtenFrames ((d.run upgraded).1.run (untilEnd later)).2 =
        (d.transcript heard).filterMap frameFor := by
    rw [← hnew.writtenFrames_run hgoes, hheard, writtenFrames_append]
  rw [hran]
  refine ⟨hnothing, hgoes, hterminated, ?_, ?_⟩
  · rw [messagesBetween_append, hmessages, messagesBetween, hnothing]
    rfl
  · rw [writtenFrames_append, hframes, ← List.append_assoc, hwritten, hclose]

/-- A text is read, then a Ping; a text is sent; the peer closes, and sends another text behind its
Close. -/
def greetingCalls : List Call :=
  [.receive (.frame (.text "hello" true)) none, .receive (.frame (.ping [1, 2])) none,
    .send { opcode := .text, payload := [104, 105] } none,
    .receive (.frame (.close 1000 "bye")) none,
    .receive (.frame (.text "late" true)) none]

/-- The text, the Pong, the text that was sent and the answer to the Close. -/
theorem dispatch_greetingCalls :
    let d : Dispatcher Hub.PlainHandshake := { handshaker := .mk, context := Hub.twoContexts 0 }
    let opening : List Call := [.connectionOpen ⟨List.replicate 16 0, rfl⟩ none]
    let upgraded := opening ++ [.receive (.response { status := 101 }) none]
    let ran := d.run (upgraded ++ greetingCalls)
    ((d.run opening).1.handshake = .pending ∧ (d.run upgraded).1.handshake = .complete ∧
        ∀ call ∈ greetingCalls, call.failure = none) ∧
      ran.1.terminated = true ∧
      messagesBetween ran.2 = [.message (.text "hello" true)] ∧
      writtenFrames ran.2 = [Frame.pong [1, 2], { opcode := .text, payload := [104, 105] },
        Frame.close (some 1000) ""] := by
  intro d opening upgraded ran
  have hpending : (d.run opening).1.handshake = .pending := rfl
  have hcomplete : (d.run upgraded).1.handshake = .complete := rfl
  have htaken : ∀ call ∈ greetingCalls, call.failure = none := by
    simp [greetingCalls, Call.failure]
  obtain ⟨-, -, hterminated, hmessages, hframes⟩ :=
    dispatch_faithful Hub.PlainHandshake.mk (Hub.twoContexts 0) false opening { status := 101 } none
      greetingCalls hpending hcomplete htaken
  exact ⟨⟨hpending, hcomplete, htaken⟩, hterminated, hmessages, hframes⟩

end Dispatcher

end WebClient.WebSocket
