import WebClient.Proofs.WebSocket.Dispatch
import WebClient.Proofs.WebSocket.Finished
import WebClient.Proofs.WebSocket.Reading

/-!
# From the handshake to frames

The response to the handshake and the frames behind it come in one stream, and a read may end
anywhere in it: inside the response, inside a frame, or with the end of the response and the first
frames in one piece. The reader of responses waits as long as its response is not complete, because
a response with the status 101 has no body. What it leaves in the buffer then is what the reader of
frames begins with (`Accepts.relays_switch`), and so not a byte is lost (`switch_faithful`).
-/

namespace WebClient.WebSocket

open Http

namespace Dispatcher

variable {σ : Type} [Handshaker σ]

/-- What is heard behind the frames: an error of the reader, if there was one, and the end of the
stream. -/
theorem run_end (d : Dispatcher σ) (failure : Option FrameReader.Error) :
    let last := (d.run (failure.toList.map (fun e => .fail (.protocolViolation e.message)) ++
      [.connectionClosed])).2
    notices last =
        (if d.terminated then [] else
          [match failure with
          | some e => .error (.protocolViolation e.message)
          | none => .message .goingAway]) ∧
      writes last = [] := by
  intro last
  constructor
  · cases hend : d.terminated with
    | true => exact (run_of_terminated hend _).2.notices_eq
    | false =>
      cases failure with
      | none =>
        have hlost := step_of_ends hend .lost
        simpa [last, run, Ending.notice] using hlost.notices_eq
      | some e =>
        have hfailed := step_of_ends hend (.reported (.protocolViolation e.message))
        have hclosed := (step_of_terminated hfailed.terminated .connectionClosed).2
        simpa [last, run, hclosed.notices_eq, Ending.notice] using hfailed.notices_eq
  · cases failure with
    | none => simpa [last, run, step] using d.writes_connectionClosed
    | some e => simp [last, run, step, writes_fail, writes_connectionClosed]

theorem step_receive_of_accepts {d : Dispatcher σ} (halive : d.terminated = false)
    (hpending : d.handshake = .pending) {response : Response} {accepted : σ}
    (haccepts : Handshaker.complete d.handshaker response = .ok accepted) :
    d.step (.receive (.response response) none) =
      ({ d with handshaker := accepted } : Dispatcher σ).complete := by
  rw [step, receive_response_of_pending halive hpending, haccepts]

theorem Stands.step_of_accepts {d : Dispatcher σ} (h : d.Stands .pending) {response : Response}
    {accepted : σ} (haccepts : Handshaker.complete d.handshaker response = .ok accepted) :
    (d.step (.receive (.response response) none)).1.HasOpened ∧
      (d.step (.receive (.response response) none)).1.terminated = false ∧
      writes (d.step (.receive (.response response) none)).2 = [] := by
  have hstep := step_receive_of_accepts h.terminated_eq h.handshake_eq haccepts
  have hcomplete : (d.step (.receive (.response response) none)).1.handshake = .complete := by
    rw [hstep]
    unfold complete
    dsimp only
    split <;> rfl
  obtain ⟨⟨session, hlive⟩, -⟩ := h.exists_live_of_complete hcomplete
  refine ⟨⟨_, hlive, rfl⟩, hlive.terminated_eq, ?_⟩
  rw [hstep]
  exact writes_of_attempts (attempts_complete _)

end Dispatcher

namespace Connection

variable {σ : Type}

/-! ### The read that completes the response -/

/-- A connection whose handshake is pending, and the head of a stream that completes it. -/
structure Accepts [Handshaker σ] (c : Connection σ) (head : Bytes) (response : Response) :
    Prop where
  stands : c.dispatcher.Stands .pending
  fresh : c.frames = {}
  whole : ResponseReader.decode {} head =
    { result := .ok (some response), reader := {}, rest := [] }
  status_eq : response.status = 101
  accepts : ∃ accepted, Handshaker.complete c.dispatcher.handshaker response = .ok accepted

variable [Handshaker σ]

theorem Accepts.decode_append {c : Connection σ} {head : Bytes} {response : Response}
    (h : c.Accepts head response) (early : Bytes) :
    ResponseReader.decode {} (head ++ early) =
      { result := .ok (some response), reader := {}, rest := early } := by
  have hcall := ResponseReader.decode_append {} head early
  rw [h.whole] at hcall
  exact hcall

theorem Accepts.relays_read {c c' : Connection σ} {head stream piece missing : Bytes}
    {response : Response} (h : c'.Accepts head response) (hawaits : c'.Awaits stream)
    (hhead : stream ++ piece ++ missing = head) (hmissing : missing ≠ [])
    {calls : List Dispatcher.Call} {outputs : List Output}
    (hrelays : c.Relays calls (c', outputs)) :
    c.Relays calls
        ((c'.step (.read piece) none).1, outputs ++ (c'.step (.read piece) none).2) ∧
      (c'.step (.read piece) none).1.Accepts head response ∧
      (c'.step (.read piece) none).1.Awaits (stream ++ piece) := by
  have hwaits : (ResponseReader.decode {} (stream ++ piece)).result = .ok none := by
    refine ResponseReader.decode_waits_of_bodiless (hhead ▸ h.whole) ?_ hmissing
    rw [h.status_eq]
    rfl
  have hread := hawaits.read hwaits none
  have hquiet : c'.Relays [] (c'.step (.read piece) none) := by
    rw [hread]
    refine relays_nothing (makes_nothing rfl ?_ fun hc => ?_) rfl ?_
    · exact told_trafficRecord c' .inbound piece
    · exact ⟨hc.closing, hc.finished⟩
    · exact sentUnits_trafficRecord c' .inbound piece
  have hboth := hrelays.trans hquiet
  rw [List.append_nil] at hboth
  refine ⟨hboth, ?_, hawaits.awaits_read hwaits none⟩
  rw [hread]
  exact ⟨h.stands, h.fresh, h.whole, h.status_eq, h.accepts⟩

/-- Behind the response, what stands in the buffer is read as frames. -/
theorem Accepts.drains_behind {c : Connection σ} {head : Bytes} {response : Response}
    (h : c.Accepts head response) (hsound : c.Sound) {called : Connection σ × List Output}
    (hcalled : c.call (.receive (.response response) none) = called) :
    called.1.Listens ∧ called.1.pending = c.pending ∧ called.1.finished = c.finished ∧
      called.1.Drains (FrameReader.drain {} c.buffer) called.1.receiveAll := by
  obtain ⟨accepted, haccepts⟩ := h.accepts
  obtain ⟨hopened, halive, hwrites⟩ := h.stands.step_of_accepts haccepts
  have hmakes := c.makes_call (.receive (.response response) none)
  obtain ⟨hcall, -⟩ := c.call_eq (.receive (.response response) none)
  rw [hcalled] at hmakes hcall
  have hlistens : called.1.Listens := by
    refine ⟨?_, hmakes.sound hsound⟩
    rw [hcall]
    exact hopened
  refine ⟨hlistens, ?_, ?_, hlistens.drains_receiveAll FrameReader.shortSignals_new ?_ ?_ ?_⟩
  · rw [hcall, hwrites, List.append_nil]
  · rw [hcall]
  · rw [hcall]
    exact halive
  · rw [hcall]
    exact h.fresh
  · rw [hcall]

/-- The frames that come with the end of the response are read as frames. -/
theorem Accepts.relays_switch {c c' : Connection σ} {head stream piece early : Bytes}
    {response : Response} (h : c'.Accepts head response) (hawaits : c'.Awaits stream)
    (hhead : stream ++ piece = head ++ early) {calls : List Dispatcher.Call}
    {outputs : List Output} (hrelays : c.Relays calls (c', outputs)) :
    c.Relays (calls ++ [.receive (.response response) none] ++ (FrameReader.drain {} early).calls)
        ((c'.step (.read piece) none).1, outputs ++ (c'.step (.read piece) none).2) ∧
      (c'.step (.read piece) none).1.Speaks (FrameReader.drain {} early) := by
  have hwhole := h.decode_append early
  rw [← hhead] at hwhole
  have hdecode := hawaits.decode_eq (congrArg ResponseReader.Answer.result hwhole)
  rw [hwhole] at hdecode
  obtain ⟨behind, hbehind⟩ : ∃ behind : Connection σ, behind =
    { c' with responses := {}, buffer := early } := ⟨_, rfl⟩
  rw [← hbehind] at hdecode
  have hreceive := receiveAll_of_some
    (c := { c' with buffer := c'.buffer ++ piece }) hawaits.alive hdecode
  have haccepts : behind.Accepts head response := by
    rw [hbehind]
    exact ⟨h.stands, h.fresh, h.whole, h.status_eq, h.accepts⟩
  have hsound : behind.Sound := by
    rw [hbehind]
    exact ⟨hawaits.sound.closing, hawaits.sound.finished⟩
  have htaken : behind.writeFailure = none := by
    rw [hbehind]
    simp [writeFailure, hawaits.open_eq]
  have hcall := behind.relays_call (.receive (.response response) none)
  rw [htaken] at hreceive
  generalize hcalled : behind.call (.receive (.response response) none) = called at *
  obtain ⟨hlistens, hpending, hfinished, hdrains⟩ := haccepts.drains_behind hsound hcalled
  rw [hbehind] at hpending hfinished hdrains
  have hshort := (FrameReader.shortSignals_drain FrameReader.shortSignals_new early).2
  obtain ⟨hread, hspeaks⟩ := hdrains.endStep hlistens (hpending.trans hawaits.pending_eq)
    (hfinished.trans hawaits.unfinished) hshort
  have hturn := hrelays.trans ((hcall.trans hread).of_decode hdecode).of_read
  rw [step_eq_turn hawaits.unfinished (by simp) (by simp), turn, hreceive]
  refine ⟨?_, hspeaks⟩
  simpa only [List.append_assoc] using hturn

/-! ### The whole stream -/

theorem Accepts.relays_run {c c' : Connection σ} {head stream missing following : Bytes}
    {response : Response} (h : c'.Accepts head response) (hawaits : c'.Awaits stream)
    (hhead : stream ++ missing = head) (hmissing : missing ≠ []) {calls : List Dispatcher.Call}
    {outputs : List Output} (hrelays : c.Relays calls (c', outputs)) {pieces : List Bytes}
    (hpieces : pieces.flatten = missing ++ following) :
    c.Relays
        (calls ++ [.receive (.response response) none] ++ (FrameReader.drain {} following).calls ++
          [.connectionClosed])
        ((c'.run (streamEvents pieces)).1, outputs ++ (c'.run (streamEvents pieces)).2) ∧
      (c'.run (streamEvents pieces)).1.finished = true ∧
      (c'.run (streamEvents pieces)).1.pending = [] := by
  induction pieces generalizing c' stream missing outputs with
  | nil => exact absurd (List.append_eq_nil_iff.1 hpieces.symm).1 hmissing
  | cons piece pieces ih =>
    rw [run_streamEvents_cons, ← List.append_assoc]
    by_cases hwithin : ∃ rest, rest ≠ [] ∧ missing = piece ++ rest
    · obtain ⟨rest, hrest, rfl⟩ := hwithin
      rw [← List.append_assoc] at hhead
      obtain ⟨hread, haccepts, hnext⟩ := h.relays_read hawaits hhead hrest hrelays
      refine ih haccepts hnext hhead hrest hread ?_
      rw [List.flatten_cons, List.append_assoc] at hpieces
      exact List.append_cancel_left hpieces
    · obtain ⟨early, rfl, rfl⟩ : ∃ early, piece = missing ++ early ∧
          following = early ++ pieces.flatten := by
        rcases List.append_eq_append_iff.1 hpieces with ⟨rest, hrest, hlater⟩ | hearly
        · -- The piece ends where the response does.
          have hnone : rest = [] := Decidable.of_not_not fun hne => hwithin ⟨rest, hne, hrest⟩
          rw [hnone, List.append_nil] at hrest
          exact ⟨[], by rw [hrest, List.append_nil], by simp [hlater, hnone]⟩
        · exact hearly
      have hcut : stream ++ (missing ++ early) = head ++ early := by
        rw [← List.append_assoc, hhead]
      obtain ⟨hread, hspeaks⟩ := h.relays_switch hawaits hcut hrelays
      exact hspeaks.relays_run hread pieces

theorem Awaits.relays_start {c : Connection σ} (h : c.Awaits [])
    (hnew : c.dispatcher.opened = false) {nonce : Nonce}
    (hlives : (c.start nonce none).1.finished = false) :
    c.Relays [.connectionOpen nonce none] (c.start nonce none) := by
  obtain ⟨⟨masked, hopened⟩, hawaits, htold, hsent⟩ := h.start hnew hlives
  have hrun := Dispatcher.run_cons c.dispatcher (.connectionOpen nonce none) []
  rw [Dispatcher.step_connectionOpen hnew] at hrun
  refine ⟨⟨?_, ?_, fun _ => hawaits.sound⟩, ?_⟩
  · rw [hrun, hopened]
    rfl
  · rw [hrun, htold]
    rfl
  · rw [hrun, hsent, hawaits.pending_eq, h.pending_eq]
    rfl

/-- **Nothing is lost at the switch.** A stream begins with a response with the status 101 that
completes the handshake; any bytes may follow. However it is cut into reads, a connection that has
opened, and whose writes succeed, tells its observer what comes of reading the bytes behind the
response with a new reader and dispatching every frame; if that has not ended the connection, it is
told the error that the reader found, as a broken protocol, or that the peer is going away. The
connection writes its request and what this dispatching writes, in the same order. -/
theorem switch_faithful (handshaker : σ) (context : ConnectionContext) (registers : Bool)
    (observer : Observer) (traffic : Option TrafficLog) (maskKeys : Nat → MaskKey) (nonce : Nonce)
    (head following : Bytes) (pieces : List Bytes) (response : Response) (accepted : σ) :
    let d : Dispatcher σ := { handshaker, context, registers }
    let c : Connection σ := { dispatcher := d, observer, traffic, maskKeys }
    let life := c.life nonce none (streamEvents pieces)
    let drained := FrameReader.drain {} following
    let heard := d.run ([.connectionOpen nonce none, .receive (.response response) none] ++
      drained.frames.map fun received => .receive (.frame received) none)
    (c.start nonce none).1.finished = false →
      ResponseReader.decode {} head = { result := .ok (some response), reader := {}, rest := [] } →
      response.status = 101 →
      Handshaker.complete (Handshaker.request handshaker nonce).1 response = .ok accepted →
      pieces.flatten = head ++ following →
      life.1.finished = true ∧
        notices (told life.2) = notices heard.2 ++
          (if heard.1.terminated then [] else
            [match drained.failure with
            | some e => .error (.protocolViolation e.message)
            | none => .message .goingAway]) ∧
        sentUnits life.2 = (writes heard.2).map (·, none) := by
  intro d c life drained heard hlives hwhole hstatus haccepts hpieces
  have hnew : c.Awaits [] := awaits_new handshaker context registers observer traffic maskKeys
  have hstart := hnew.relays_start rfl hlives
  obtain ⟨⟨masked, hopened⟩, hawaits, -, -⟩ := hnew.start rfl hlives
  have hstands : d.Stands .pending := Dispatcher.stands_new handshaker context registers
  have hready : (c.start nonce none).1.Accepts head response := by
    rw [hopened]
    exact ⟨⟨rfl, rfl, rfl, rfl, hstands.context_eq⟩, rfl, hwhole, hstatus, accepted, haccepts⟩
  have hhead : head ≠ [] := by
    rintro rfl
    have hnothing := hnew.waits
    rw [hwhole] at hnothing
    nomatch hnothing
  obtain ⟨hrelays, hfinished, hpending⟩ :=
    hready.relays_run hawaits (List.nil_append head) hhead hstart hpieces
  have hcalls (opening : List Dispatcher.Call) :
      opening ++ drained.calls ++ [.connectionClosed] =
        (opening ++ drained.frames.map fun received => .receive (.frame received) none) ++
          (drained.failure.toList.map (fun e => .fail (.protocolViolation e.message)) ++
            [.connectionClosed]) := by
    simp [FrameReader.Drained.calls]
  rw [hcalls] at hrelays
  obtain ⟨hlast, hsilent⟩ := Dispatcher.run_end heard.1 drained.failure
  have hnotices := hrelays.notices_told
  have hsent := hrelays.sent_eq
  rw [Dispatcher.run_append] at hnotices hsent
  refine ⟨hfinished, ?_, ?_⟩
  · rw [← hlast, ← notices_append]
    exact hnotices
  · rw [hpending, List.map_nil, List.append_nil, writes_append] at hsent
    rw [← List.append_nil (writes heard.2), ← hsilent]
    exact hsent

/-! ### A greeting -/

def greeting : Upgrade := { host := "h", path := "/" }

def greetingHead : Bytes :=
  Bytes.ofString "HTTP/1.1 101 S\r\nUpgrade: websocket\r\nConnection: upgrade\r\n" ++
    Bytes.ofString "Sec-WebSocket-Accept: ICX+Yqv66kxgM0FcWaLWlFLwTAI=\r\n\r\n"

def greetingResponse : Response where
  status := 101
  reason := some "S"
  headers := [⟨"Upgrade", "websocket"⟩, ⟨"Connection", "upgrade"⟩,
    ⟨"Sec-WebSocket-Accept", "ICX+Yqv66kxgM0FcWaLWlFLwTAI="⟩]

/-- A text, a Ping and the peer's Close, and behind them a frame that may not come. -/
def greetingFrames : Bytes :=
  [0x81, 2, 104, 105, 0x89, 1, 7, 0x88, 2, 3, 232, 0xF1, 0xFF]

/-- The cuts are inside the head and inside the Ping. -/
def greetingPieces : List Bytes :=
  [greetingHead.take 40, greetingHead.drop 40 ++ greetingFrames.take 5, greetingFrames.drop 5]

def greetingConnection : Connection Upgrade where
  dispatcher := { handshaker := greeting, context := Hub.oneContext }
  maskKeys _ := ⟨0, 0, 0, 0⟩

theorem decode_greetingHead :
    ResponseReader.decode {} greetingHead =
      { result := .ok (some greetingResponse), reader := {}, rest := [] } := by
  have hresult : (ResponseReader.decode {} greetingHead).result = .ok (some greetingResponse) := by
    decide +kernel
  have hrest : (ResponseReader.decode {} greetingHead).rest = [] := by
    decide +kernel
  have hreader := (ResponseReader.length_lt_of_decode _ _ hresult).1
  generalize ResponseReader.decode {} greetingHead = answer at *
  obtain ⟨result, reader, rest⟩ := answer
  obtain rfl : result = _ := hresult
  obtain rfl : reader = _ := hreader
  obtain rfl : rest = _ := hrest
  rfl

theorem complete_greetingResponse :
    Handshaker.complete (Handshaker.request greeting zeroNonce).1 greetingResponse =
      .ok { greeting with key := some "AAAAAAAAAAAAAAAAAAAAAA==", isComplete := true } := by
  have hkey : Base64.encode zeroNonce.bytes = "AAAAAAAAAAAAAAAAAAAAAA==" := by decide +kernel
  have haccept : Upgrade.acceptFor "AAAAAAAAAAAAAAAAAAAAAA==" =
      "ICX+Yqv66kxgM0FcWaLWlFLwTAI=" := by
    decide +kernel
  have hupgrade : greetingResponse.headers.hasElement "Upgrade" "websocket" = true := by
    decide +kernel
  have hconnection : greetingResponse.headers.hasElement "Connection" "upgrade" = true := by
    decide +kernel
  have hprotocol : greetingResponse.headers.get? "Sec-WebSocket-Protocol" = none := by
    decide +kernel
  have hvalue : greetingResponse.headers.get? "Sec-WebSocket-Accept" =
      some "ICX+Yqv66kxgM0FcWaLWlFLwTAI=" := by
    have hfirst : Text.eqIgnoringCase "Upgrade" "Sec-WebSocket-Accept" = false := by
      decide +kernel
    have hsecond : Text.eqIgnoringCase "Connection" "Sec-WebSocket-Accept" = false := by
      decide +kernel
    simp [greetingResponse, Headers.get?, Field.isNamed, hfirst, hsecond]
  have htrim : Text.trim "ICX+Yqv66kxgM0FcWaLWlFLwTAI=" = "ICX+Yqv66kxgM0FcWaLWlFLwTAI=" := by
    decide +kernel
  have hstatus : greetingResponse.status = 101 := rfl
  simp [Handshaker.complete, Handshaker.request, Upgrade.complete, Upgrade.request, Upgrade.choice,
    hkey, haccept, hupgrade, hconnection, hprotocol, hvalue, htrim, hstatus]

def greetingLife : Connection Upgrade × List Output :=
  greetingConnection.life zeroNonce none (streamEvents greetingPieces)

def greetedDispatcher : Dispatcher Upgrade where
  handshaker := { greeting with key := some "AAAAAAAAAAAAAAAAAAAAAA==", isComplete := true }
  context := Hub.oneContext
  handshake := .complete
  session := some { context := Hub.oneContext, subprotocol := none }
  outcome := some (.ok ())
  opened := true

theorem run_greetingResponse :
    ({ handshaker := greeting, context := Hub.oneContext } : Dispatcher Upgrade).run
        [.connectionOpen zeroNonce none, .receive (.response greetingResponse) none] =
      (greetedDispatcher,
        [.write (.request (Handshaker.request greeting zeroNonce).2) none, .resolve (.ok ())]) := by
  rw [Dispatcher.run_cons, Dispatcher.step_connectionOpen rfl, Dispatcher.run_cons,
    Dispatcher.step_receive_of_accepts rfl rfl complete_greetingResponse]
  rfl

/-- The text and the Close are told, the Pong and the answer to the Close are written, and the rest
is not read. -/
theorem switch_greeting :
    ((greetingConnection.start zeroNonce none).1.finished = false ∧
        ResponseReader.decode {} greetingHead =
          { result := .ok (some greetingResponse), reader := {}, rest := [] } ∧
        greetingResponse.status = 101 ∧
        Handshaker.complete (Handshaker.request greeting zeroNonce).1 greetingResponse =
          .ok greetedDispatcher.handshaker ∧
        greetingPieces.flatten = greetingHead ++ greetingFrames) ∧
      greetingLife.1.finished = true ∧
      notices (told greetingLife.2) = [.message (.text "hi" true), .message (.close 1000 "")] ∧
      sentUnits greetingLife.2 = [(.request (Handshaker.request greeting zeroNonce).2, none),
        (.frame (Frame.pong [7]), none), (.frame (Frame.close (some 1000) ""), none)] := by
  have hlives : (greetingConnection.start zeroNonce none).1.finished = false := by decide +kernel
  have hpieces : greetingPieces.flatten = greetingHead ++ greetingFrames := by decide +kernel
  have hframes : (FrameReader.drain {} greetingFrames).frames =
      [.text "hi" true, .ping [7], .close 1000 ""] := by
    decide +kernel
  obtain ⟨hfinished, hnotices, hsent⟩ :=
    switch_faithful greeting (Hub.oneContext) false .log none (fun _ => ⟨0, 0, 0, 0⟩) zeroNonce
      greetingHead greetingFrames greetingPieces greetingResponse _ hlives decode_greetingHead rfl
      complete_greetingResponse hpieces
  have hheard := Dispatcher.run_append { handshaker := greeting, context := Hub.oneContext }
    [.connectionOpen zeroNonce none, .receive (.response greetingResponse) none]
    ([.text "hi" true, .ping [7], .close 1000 ""].map fun received =>
      .receive (.frame received) none)
  rw [run_greetingResponse] at hheard
  rw [hframes, hheard] at hnotices hsent
  exact ⟨⟨hlives, decode_greetingHead, rfl, complete_greetingResponse, hpieces⟩, hfinished,
    hnotices, hsent⟩

end Connection

end WebClient.WebSocket
