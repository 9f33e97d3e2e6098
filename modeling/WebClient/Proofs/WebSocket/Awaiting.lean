import WebClient.Proofs.Http.Response.Prefix
import WebClient.Proofs.WebSocket.Calls

/-!
# Waiting for the response to the handshake

A connection that has opened reads until the response to its handshake is complete. Until then every
piece that is read changes what has been read and nothing else (`Awaits.reads`): however a stream is
cut, the connection stands where reading it at once would stand.
-/

namespace WebClient.WebSocket

open Http

namespace Connection

variable {σ : Type}

/-- What has been read so far is the beginning of the response to the handshake. -/
structure Awaits (c : Connection σ) (stream : Bytes) : Prop where
  handshake_eq : c.dispatcher.handshake = .pending
  alive : c.dispatcher.terminated = false
  pending_eq : c.pending = []
  open_eq : c.closing = false
  unfinished : c.finished = false
  waits : (ResponseReader.decode {} stream).result = .ok none
  responses_eq : c.responses = (ResponseReader.decode {} stream).reader
  buffer_eq : c.buffer = (ResponseReader.decode {} stream).rest

theorem awaits_new (handshaker : σ) (context : ConnectionContext) (registers : Bool)
    (observer : Observer) (traffic : Option TrafficLog) (maskKeys : Nat → MaskKey) :
    ({ dispatcher := { handshaker, context, registers }, observer, traffic, maskKeys } :
      Connection σ).Awaits [] := by
  have hnothing : ResponseReader.decode {} [] = { result := .ok none, reader := {}, rest := [] } :=
    ResponseReader.decode_of_answer rfl
  exact ⟨rfl, rfl, rfl, rfl, rfl, by rw [hnothing], by rw [hnothing], by rw [hnothing]⟩

theorem Awaits.sound {c : Connection σ} {stream : Bytes} (h : c.Awaits stream) : c.Sound :=
  ⟨fun hclosing => absurd hclosing (by simp [h.open_eq]),
    fun hfinished => absurd hfinished (by simp [h.unfinished])⟩

theorem Awaits.decode_eq {c : Connection σ} {stream : Bytes} (h : c.Awaits stream) {more : Bytes}
    {response? : Option Response}
    (hwhole : (ResponseReader.decode {} (stream ++ more)).result = .ok response?) :
    ({ c with buffer := c.buffer ++ more } : Connection σ).decode =
      ({ c with
          responses := (ResponseReader.decode {} (stream ++ more)).reader
          buffer := (ResponseReader.decode {} (stream ++ more)).rest },
        .ok (response?.map .response)) := by
  have hresume := ResponseReader.decode_resume h.waits hwhole
  rw [← h.responses_eq, ← h.buffer_eq] at hresume
  simp only [decode, h.handshake_eq, hresume, hwhole]

/-! ### The loop of a turn -/

section receiveAll

variable [Handshaker σ] {c c' : Connection σ}

theorem receiveAll_of_terminated (h : c.dispatcher.terminated = true) : c.receiveAll = (c, []) := by
  rw [receiveAll, if_pos h]

theorem receiveAll_of_none (halive : c.dispatcher.terminated = false)
    (hdecode : c.decode = (c', .ok none)) : c.receiveAll = (c', []) := by
  rw [receiveAll, if_neg (Bool.eq_false_iff.1 halive)]
  split <;> simp_all

theorem receiveAll_of_error (halive : c.dispatcher.terminated = false) {e : Error}
    (hdecode : c.decode = (c', .error e)) : c.receiveAll = c'.fail e := by
  rw [receiveAll, if_neg (Bool.eq_false_iff.1 halive)]
  split <;> simp_all

theorem receiveAll_of_some (halive : c.dispatcher.terminated = false) {unit : Inbound}
    (hdecode : c.decode = (c', .ok (some unit))) :
    c.receiveAll =
      ((c'.call (.receive unit c'.writeFailure)).1.receiveAll.1,
        (c'.call (.receive unit c'.writeFailure)).2 ++
          (c'.call (.receive unit c'.writeFailure)).1.receiveAll.2) := by
  rw [receiveAll, if_neg (Bool.eq_false_iff.1 halive)]
  split <;> simp_all

end receiveAll

/-! ### Writing that succeeds -/

theorem exists_flush_eq (c : Connection σ) (failure : Option StreamError) :
    ∃ masked, (c.flush failure).1 = { c with pending := [], masked } := by
  unfold flush
  split
  · next hempty =>
    exact ⟨c.masked, by rw [← List.isEmpty_iff.1 hempty]⟩
  · split
    · exact ⟨c.masked, rfl⟩
    · exact ⟨_, rfl⟩

variable [Handshaker σ]

/-- A connection goes on behind a write only if all that waited has been written. -/
theorem endStep_of_unfinished {c : Connection σ} {failure : Option StreamError}
    (h : (c.endStep failure).1.finished = false) :
    (c.flush failure).2.2 = .ok () ∧
      c.endStep failure = ((c.flush failure).1, (c.flush failure).2.1) := by
  rcases hflush : c.flush failure with ⟨c', outputs, answer⟩
  cases answer with
  | ok _ =>
    rw [endStep_of_ok hflush] at h ⊢
    split at h
    · nomatch h
    · next hgoes => exact ⟨rfl, if_neg hgoes⟩
  | error e =>
    rw [endStep_of_error hflush] at h
    nomatch h

theorem endStep_of_idle {c : Connection σ} (hpending : c.pending = []) (hopen : c.closing = false)
    (halive : c.dispatcher.terminated = false) (failure : Option StreamError) :
    c.endStep failure = (c, []) := by
  have hflush : c.flush failure = (c, [], .ok ()) := by
    unfold flush
    rw [hpending]
    rfl
  rw [endStep_of_ok hflush, if_neg (by simp [hopen, halive])]

/-! ### The beginning of the response -/

/-- What a connection that goes on has done to open: it has sent the request. -/
theorem Awaits.start {c : Connection σ} (h : c.Awaits []) (hnew : c.dispatcher.opened = false)
    {nonce : Nonce} {failure : Option StreamError}
    (hlives : (c.start nonce failure).1.finished = false) :
    (∃ masked, (c.start nonce failure).1 = { c with
        dispatcher := { c.dispatcher with
          opened := true
          handshaker := (Handshaker.request c.dispatcher.handshaker nonce).1 }
        masked }) ∧
      (c.start nonce failure).1.Awaits [] ∧
      told (c.start nonce failure).2 = [] ∧
      sentUnits (c.start nonce failure).2 =
        [(.request (Handshaker.request c.dispatcher.handshaker nonce).2, none)] := by
  have htaken : c.writeFailure = none := by simp [writeFailure, h.open_eq]
  obtain ⟨hopening, hsent⟩ := call_connectionOpen hnew h.open_eq nonce
  have htold := (c.makes_call (.connectionOpen nonce c.writeFailure)).told_eq
  rw [htaken, Dispatcher.run_cons, Dispatcher.step_connectionOpen hnew] at htold
  rw [htaken] at hopening hsent
  rw [start_eq_call, htaken] at hlives ⊢
  dsimp only at hlives
  obtain ⟨hok, hend⟩ := endStep_of_unfinished hlives
  generalize c.call (.connectionOpen nonce none) = opening at *
  obtain ⟨masked, hflush⟩ := opening.1.exists_flush_eq failure
  have hwritten := (opening.1.flushed_flush failure).sent_of_ok hok
  have hquiet := (opening.1.makes_flush failure).told_eq
  have hopened : (opening.1.flush failure).1 = { c with
      dispatcher := { c.dispatcher with
        opened := true
        handshaker := (Handshaker.request c.dispatcher.handshaker nonce).1 }
      masked } := by
    rw [hflush, hopening, h.pending_eq]
    rfl
  rw [hend]
  refine ⟨⟨masked, hopened⟩, ?_, ?_, ?_⟩
  · rw [hopened]
    exact ⟨h.handshake_eq, h.alive, h.pending_eq, h.open_eq, h.unfinished, h.waits,
      h.responses_eq, h.buffer_eq⟩
  · rw [told_append, htold, hquiet]
    rfl
  · rw [sentUnits_append, hsent, hwritten, hopening, h.pending_eq]
    rfl

theorem Awaits.read {c : Connection σ} {stream : Bytes} (h : c.Awaits stream) {piece : Bytes}
    (hwaits : (ResponseReader.decode {} (stream ++ piece)).result = .ok none)
    (failure : Option StreamError) :
    c.step (.read piece) failure =
      ({ c with
          responses := (ResponseReader.decode {} (stream ++ piece)).reader
          buffer := (ResponseReader.decode {} (stream ++ piece)).rest },
        c.trafficRecord .inbound piece) := by
  have hreceive := receiveAll_of_none (c := { c with buffer := c.buffer ++ piece }) h.alive
    (h.decode_eq hwaits)
  have hidle := endStep_of_idle
    (c := { c with
      responses := (ResponseReader.decode {} (stream ++ piece)).reader
      buffer := (ResponseReader.decode {} (stream ++ piece)).rest })
    h.pending_eq h.open_eq h.alive failure
  rw [step_eq_turn h.unfinished (by simp) (by simp), turn, hreceive]
  dsimp only
  rw [hidle, List.append_nil, List.append_nil]

theorem Awaits.awaits_read {c : Connection σ} {stream : Bytes} (h : c.Awaits stream)
    {piece : Bytes} (hwaits : (ResponseReader.decode {} (stream ++ piece)).result = .ok none)
    (failure : Option StreamError) :
    (c.step (.read piece) failure).1.Awaits (stream ++ piece) := by
  rw [h.read hwaits failure]
  exact ⟨h.handshake_eq, h.alive, h.pending_eq, h.open_eq, h.unfinished, hwaits, rfl, rfl⟩

def readAll (pieces : List (Bytes × Option StreamError)) : List (Event × Option StreamError) :=
  pieces.map fun (piece, failure) => (.read piece, failure)

/-- **However the beginning of the response is cut**, reading it changes what has been read and
nothing else. -/
theorem Awaits.reads {c : Connection σ} {stream : Bytes} (h : c.Awaits stream)
    (pieces : List (Bytes × Option StreamError))
    (hwaits : ∀ read, read <+: (pieces.map Prod.fst).flatten →
      (ResponseReader.decode {} (stream ++ read)).result = .ok none) :
    ∃ responses buffer, (c.run (readAll pieces)).1 = { c with responses, buffer } ∧
      (c.run (readAll pieces)).1.Awaits (stream ++ (pieces.map Prod.fst).flatten) ∧
      told (c.run (readAll pieces)).2 = [] ∧ sentUnits (c.run (readAll pieces)).2 = [] := by
  induction pieces generalizing c stream with
  | nil => exact ⟨_, _, rfl, by simpa [readAll, run] using h, rfl, rfl⟩
  | cons piece pieces ih =>
    obtain ⟨piece, failure⟩ := piece
    have hfirst := hwaits piece (List.prefix_append _ _)
    have hread := h.read hfirst failure
    have hnext := h.awaits_read hfirst failure
    obtain ⟨responses, buffer, hrun, hlast, htold, hsent⟩ := ih hnext fun read hprefix => by
      rw [List.append_assoc]
      exact hwaits _ ((List.prefix_append_right_inj piece).2 hprefix)
    rw [readAll, List.map_cons, run_cons]
    refine ⟨responses, buffer, ?_, ?_, ?_, ?_⟩
    · rw [hread] at hrun ⊢
      exact hrun
    · rw [List.map_cons, List.flatten_cons, ← List.append_assoc]
      exact hlast
    · rw [told_append, hread, told_trafficRecord]
      rwa [hread] at htold
    · rw [sentUnits_append, hread, sentUnits_trafficRecord]
      rwa [hread] at hsent

end Connection

end WebClient.WebSocket
