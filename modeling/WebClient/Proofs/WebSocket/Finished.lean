import WebClient.Proofs.WebSocket.Awaiting
import WebClient.Proofs.WebSocket.Registry

/-!
# What a connection leaves behind

A connection may finish at several places, with errors of reading, of writing and of the dispatcher
in any order. At whichever it does, its dispatcher has heard the last, and goes on only while it has
not. So the observer has been told of one ending, those who wait for the handshake know how it went,
and the session set is as it was before the connection (`finished_told_once`). A response that
rejects the handshake counts even if its body ends with the stream: it is read at the end, before
the loss of the stream is noticed (`Awaits.makes_readEnd`).
-/

namespace WebClient.WebSocket

open Http

/-! ### What is left in the set -/

theorem SessionSet.unregister_register {set : SessionSet} {session : Session}
    (h : set.session? session.id = none) :
    (set.register session).unregister session.id = set := by
  have hothers := List.find?_eq_none.1 h
  rw [register, unregister, List.eraseP_append_right _ hothers, List.eraseP_cons_of_pos (by simp),
    List.append_nil]

namespace Dispatcher

variable {σ : Type}

/-- A set in which a connection has reported what it has to report at a stage. -/
def withReport (set : SessionSet) (registers : Bool) (stage : Stage) : SessionSet :=
  set ++ if registers then stage.openSession?.toList else []

theorem withReport_move {set : SessionSet} {context : ConnectionContext} {registers : Bool}
    {stage next : Stage} {passed : List Effect} (h : Move context registers stage next passed)
    (hcontext : ∀ session, stage.session? = some session → session.context = context)
    (hfree : set.session? context.id = none) :
    (withReport set registers stage).applyAll passed = withReport set registers next := by
  cases h with
  | stay => rfl
  | complete => cases registers <;> simp [withReport, SessionSet.applyAll, SessionSet.apply,
      SessionSet.register, Stage.openSession?]
  | fail => rfl
  | finish session =>
    cases registers with
    | false => rfl
    | true =>
      have hid : session.id = context.id := by rw [Session.id, hcontext session rfl]
      have hback : (set.register session).unregister session.id = set :=
        SessionSet.unregister_register (by rwa [hid])
      simpa [withReport, SessionSet.applyAll, SessionSet.apply, Stage.openSession?,
        SessionSet.register] using hback

variable [Handshaker σ]

/-- What calls do to a set that has no session of the connection but the one it has reported. -/
theorem Stands.applyAll_run {d : Dispatcher σ} {stage : Stage} (h : d.Stands stage)
    {set : SessionSet} (hfree : set.session? d.context.id = none) (calls : List Call) :
    ∃ next, (d.run calls).1.Stands next ∧
      (withReport set d.registers stage).applyAll (d.run calls).2 =
        withReport set d.registers next := by
  induction calls generalizing d stage with
  | nil => exact ⟨stage, h, rfl⟩
  | cons call calls ih =>
    obtain ⟨next, hnext, hcontext, hregisters, hmove⟩ := h.exists_moves_step call
    obtain ⟨last, hlast, hset⟩ := ih hnext (by rwa [hcontext])
    refine ⟨last, hlast, ?_⟩
    rw [run_cons, SessionSet.applyAll_append, ← SessionSet.applyAll_milestones _ (d.step call).2,
      withReport_move hmove h.context_eq hfree, ← hregisters, hset]

/-- What is true of every dispatcher that has heard the last: the observer was told of one ending,
those who wait for the handshake of one outcome, and the session set is as it was. -/
theorem told_of_terminated (handshaker : σ) (context : ConnectionContext) (registers : Bool)
    {calls : List Call} :
    let d : Dispatcher σ := { handshaker, context, registers }
    (d.run calls).1.terminated = true →
      (∃ earlier last, notices (d.run calls).2 = earlier ++ [last] ∧ last.isTerminal = true ∧
        ∀ notice ∈ earlier, notice.isTerminal = false) ∧
      (∃ result, resolutions (d.run calls).2 = [result]) ∧
      ∀ sessions : SessionSet, sessions.session? context.id = none →
        sessions.applyAll (d.run calls).2 = sessions := by
  intro d hend
  have hnew : d.Stands .pending := stands_new handshaker context registers
  refine ⟨?_, ?_, fun sessions hfree => ?_⟩
  · obtain ⟨earlier, hearlier, ⟨hlives, -⟩ | ⟨last, -, hlast, hnotices⟩⟩ :=
      notices_run (d := d) rfl calls
    · exact absurd (hlives.symm.trans hend) Bool.false_ne_true
    · exact ⟨earlier, last, hnotices, hlast, hearlier⟩
  · obtain ⟨stage, hstage, -, htold⟩ := hnew.exists_stands_run calls
    have hended := hstage.terminated_eq.symm.trans hend
    rw [Stage.outcome?, Option.toList_none, List.nil_append] at htold
    rw [← htold]
    cases stage with
    | pending => cases hended
    | live session => cases hended
    | closed session => exact ⟨_, rfl⟩
    | failed cause => exact ⟨_, rfl⟩
  · obtain ⟨stage, hstage, hset⟩ := hnew.applyAll_run hfree calls
    have hnone : ∀ stage : Stage, stage.openSession? = none →
        withReport sessions registers stage = sessions := by
      intro stage hstage
      rw [withReport, hstage]
      cases registers <;> exact List.append_nil sessions
    have hended := Stage.openSession?_of_hasEnded (hstage.terminated_eq.symm.trans hend)
    rwa [hnone .pending rfl, hnone stage hended] at hset

end Dispatcher

/-! ### The end of the stream -/

theorem Upgrade.complete_of_status_ne (u : Upgrade) (nonce : Nonce) {response : Response}
    (h : response.status ≠ 101) :
    (u.request nonce).1.complete response =
      .error (.unexpectedStatus response.status response.bodyText) := by
  unfold complete
  exact if_pos h

namespace Connection

variable {σ : Type} [Handshaker σ]

/-- At the end of the stream the response that was waited for is judged, and then the loss of the
stream is noticed. -/
theorem Awaits.makes_readEnd {c : Connection σ} {stream : Bytes} (h : c.Awaits stream)
    {response : Response}
    (hend : (ResponseReader.decodeEnd {} stream).result = .ok (some response))
    (failure : Option StreamError) :
    (c.step .readEnd failure).1.finished = true ∧
      c.Makes [.receive (.response response) none, .connectionClosed]
        (c.step .readEnd failure) := by
  have hsame : (ResponseReader.decode {} (stream ++ [])).result = .ok none := by
    rw [List.append_nil]
    exact h.waits
  have hresume := ResponseReader.decode_resume h.waits hsame
  rw [List.append_nil, List.append_nil, ← h.responses_eq, ← h.buffer_eq] at hresume
  have hresult := congrArg ResponseReader.Answer.result (ResponseReader.decodeEnd_congr hresume)
  rw [hend] at hresult
  have htaken : c.writeFailure = none := by simp [writeFailure, h.open_eq]
  have hjudged : c.finishHandshake = ({ c with
      responses := (c.responses.decodeEnd c.buffer).reader
      buffer := (c.responses.decodeEnd c.buffer).rest } : Connection σ).call
        (.receive (.response response) c.writeFailure) := by
    unfold finishHandshake
    rw [if_neg (by simp [h.handshake_eq, h.alive])]
    simp only [hresult]
    rfl
  have hreceive : c.Makes [.receive (.response response) none] c.finishHandshake := by
    obtain ⟨hdispatcher, htold, hsound⟩ := makes_call
      { c with
        responses := (c.responses.decodeEnd c.buffer).reader
        buffer := (c.responses.decodeEnd c.buffer).rest } (.receive (.response response) none)
    rw [hjudged, htaken]
    exact ⟨hdispatcher, htold, fun hc => hsound ⟨hc.closing, hc.finished⟩⟩
  rw [step_readEnd h.unfinished]
  exact ⟨rfl, makes_turn_readEnd hreceive⟩

/-- A response that ends with the stream, and does not open the WebSocket. -/
theorem Awaits.rejected_at_end {c : Connection σ} (h : c.Awaits [])
    {pieces : List (Bytes × Option StreamError)} {response : Response} {e : UpgradeError}
    (hwaits : (ResponseReader.decode {} (pieces.map Prod.fst).flatten).result = .ok none)
    (hend : (ResponseReader.decodeEnd {} (pieces.map Prod.fst).flatten).result =
      .ok (some response))
    (hrejects : Handshaker.complete c.dispatcher.handshaker response = .error e)
    (failure : Option StreamError) :
    (c.run (readAll pieces ++ [(.readEnd, failure)])).1.finished = true ∧
      notices (told (c.run (readAll pieces ++ [(.readEnd, failure)])).2) =
        [.error (.handshake e)] := by
  have hphase := ResponseReader.phase_of_decodeEnd hwaits hend
  obtain ⟨responses, buffer, hread, hawaits, htold, -⟩ := h.reads pieces <| by
    rintro read ⟨more, hmore⟩
    rw [← hmore] at hwaits hphase
    exact ResponseReader.decode_waits_of_untilClose hwaits hphase
  obtain ⟨hfinished, hmakes⟩ := hawaits.makes_readEnd hend failure
  have hdispatcher : (c.run (readAll pieces)).1.dispatcher = c.dispatcher := by rw [hread]
  have hpending : c.dispatcher.handshake = .pending := h.handshake_eq
  have hended := Dispatcher.step_of_ends h.alive (.rejected hpending hrejects none)
  obtain ⟨-, hsilent⟩ :=
    Dispatcher.run_of_terminated hended.terminated [.connectionClosed]
  rw [run_append, run_singleton]
  refine ⟨hfinished, ?_⟩
  rw [told_append, htold, List.nil_append, hmakes.notices_told, hdispatcher, Dispatcher.run_cons,
    notices_append, hended.notices_eq, hsilent.notices_eq]
  rfl

/-- **One ending for every connection that finishes.** A connection is opened, and lives through any
events: anything is read, in any pieces, the stream ends or fails, frames are taken, and any write
fails. If it has finished, its observer has been told of one ending and nothing after it, those who
wait for the handshake have been told its outcome, once, and a session set that had no session of
this connection is what it was before. If it has not finished, the observer has been told of no
ending. In particular a response that ends with the stream and does not open the WebSocket, as none
does whose status is not 101, ends in the error of the handshake, and in nothing else. -/
theorem finished_told_once (handshaker : σ) (context : ConnectionContext) (registers : Bool)
    (observer : Observer) (traffic : Option TrafficLog) (maskKeys : Nat → MaskKey) (nonce : Nonce)
    (failure : Option StreamError) :
    let c : Connection σ :=
      { dispatcher := { handshaker, context, registers }, observer, traffic, maskKeys }
    (∀ events,
      let life := c.life nonce failure events
      (life.1.finished = true →
        (∃ earlier last, notices (told life.2) = earlier ++ [last] ∧ last.isTerminal = true ∧
          ∀ notice ∈ earlier, notice.isTerminal = false) ∧
        (∃ result, resolutions (told life.2) = [result]) ∧
        ∀ sessions : SessionSet, sessions.session? context.id = none →
          life.2.foldl SessionSet.applyOutput sessions = sessions) ∧
      (life.1.finished = false → ∀ notice ∈ notices (told life.2), notice.isTerminal = false)) ∧
    (∀ pieces response e last,
      let stream := (pieces.map Prod.fst).flatten
      (c.start nonce failure).1.finished = false →
        (ResponseReader.decode {} stream).result = .ok none →
        (ResponseReader.decodeEnd {} stream).result = .ok (some response) →
        Handshaker.complete (Handshaker.request handshaker nonce).1 response = .error e →
        let life := c.life nonce failure (readAll pieces ++ [(.readEnd, last)])
        life.1.finished = true ∧ notices (told life.2) = [.error (.handshake e)]) ∧
    ∀ (u : Upgrade) (response : Response), response.status ≠ 101 →
      Handshaker.complete (Handshaker.request u nonce).1 response =
        .error (.unexpectedStatus response.status response.bodyText) := by
  intro c
  have hawaits : c.Awaits [] := awaits_new handshaker context registers observer traffic maskKeys
  refine ⟨fun events => ?_, ?_, fun u response => u.complete_of_status_ne nonce⟩
  · intro life
    obtain ⟨⟨calls, hmakes⟩, hgoes⟩ := c.exists_makes_life nonce failure events
    have hterminated : life.1.dispatcher.terminated = (c.dispatcher.run calls).1.terminated :=
      congrArg Dispatcher.terminated hmakes.dispatcher_eq
    rw [hmakes.notices_told, hmakes.resolutions_told]
    constructor
    · intro hfinished
      have hend := (hmakes.sound hawaits.sound).finished hfinished
      obtain ⟨hlast, hresult, hsessions⟩ :=
        Dispatcher.told_of_terminated handshaker context registers (hterminated.symm.trans hend)
      refine ⟨hlast, hresult, fun sessions hfree => ?_⟩
      rw [SessionSet.foldl_applyOutput, hmakes.told_eq, SessionSet.applyAll_filter_isOutward]
      exact hsessions sessions hfree
    · intro hlives
      have halive : (c.dispatcher.run calls).1.terminated = false := by
        rw [← hterminated]
        exact Bool.eq_false_iff.2 fun hend =>
          Bool.false_ne_true (hlives.symm.trans (hgoes hend))
      exact (Dispatcher.run_of_not_terminated halive).not_terminal
  · intro pieces response e last stream hlives hwaits hend hrejects
    obtain ⟨⟨masked, hopened⟩, hstarted, hquiet, -⟩ := hawaits.start rfl hlives
    have hhandshaker : (c.start nonce failure).1.dispatcher.handshaker =
        (Handshaker.request handshaker nonce).1 := by
      rw [hopened]
    obtain ⟨hfinished, hnotices⟩ :=
      hstarted.rejected_at_end hwaits hend (hhandshaker ▸ hrejects) last
    refine ⟨hfinished, ?_⟩
    rw [Connection.life, told_append, hquiet, List.nil_append]
    exact hnotices

/-- A refusal in two pieces, whose body ends with the stream. -/
def refusal : List (Bytes × Option StreamError) :=
  [(Bytes.ofString "HTTP/1.1 403 Forbidden\r\nConnection: close\r\n\r\nno", none),
    (Bytes.ofString "pe", none)]

def refusalResponse : Response where
  status := 403
  reason := some "Forbidden"
  headers := [⟨"Connection", "close"⟩]
  body := Bytes.ofString "nope"

def refusedConnection : Connection Upgrade where
  dispatcher := { handshaker := { host := "h", path := "/" }, context := Hub.oneContext }
  maskKeys _ := ⟨0, 0, 0, 0⟩

def zeroNonce : Nonce := ⟨List.replicate 16 0, rfl⟩

/-- The refusal is told with its body, and nothing else is. -/
theorem finished_refusal :
    let life := refusedConnection.life zeroNonce none (readAll refusal ++ [(.readEnd, none)])
    (refusedConnection.start zeroNonce none).1.finished = false ∧ life.1.finished = true ∧
      notices (told life.2) = [.error (.handshake (.unexpectedStatus 403 "nope"))] := by
  have hlives : (refusedConnection.start zeroNonce none).1.finished = false := by
    decide +kernel
  have hwaits : (ResponseReader.decode {} (refusal.map Prod.fst).flatten).result = .ok none := by
    decide +kernel
  have hend : (ResponseReader.decodeEnd {} (refusal.map Prod.fst).flatten).result =
      .ok (some refusalResponse) := by
    decide +kernel
  have hbody : refusalResponse.bodyText = "nope" := by decide +kernel
  obtain ⟨-, hrejected, hstatus⟩ := finished_told_once (σ := Upgrade) { host := "h", path := "/" }
    (Hub.oneContext) false .log none (fun _ => ⟨0, 0, 0, 0⟩) zeroNonce none
  have hrejects := hstatus { host := "h", path := "/" } refusalResponse (by decide)
  have hlife := hrejected refusal refusalResponse _ none hlives hwaits hend hrejects
  rw [hbody] at hlife
  exact ⟨hlives, hlife⟩

end Connection

end WebClient.WebSocket
