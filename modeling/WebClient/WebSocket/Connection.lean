import WebClient.Frame.Drain
import WebClient.Http.Response.Final
import WebClient.Traffic
import WebClient.WebSocket.Dispatcher
import WebClient.WebSocket.Observer

/-!
# Connections

A connection joins a stream to a dispatcher. What is read goes to the reader of responses while the
handshake is pending and to the reader of frames afterwards, and every unit goes to the dispatcher.
What the dispatcher writes waits until the end of the step and then goes out in one write. A frame
of the application is taken only when the handshake is complete.

The connection lives through a row of events. It finishes when the dispatcher has closed the channel
or heard the last, or with the stream; after that nothing happens any more. Frames are masked with
keys that are given beforehand, one for each frame.
-/

namespace WebClient.WebSocket

open Http

inductive Output where
  | sent (units : List Outbound) (bytes : Bytes) (failure : Option StreamError)
  | traffic (record : LogRecord)
  | effect (e : Effect)
  | shutdown

/-- What happens to a connection: something is read, reading ends or fails, or the first frame of
the queue is taken. -/
inductive Event where
  | read (bytes : Bytes)
  | readEnd
  | readFailure (e : StreamError)
  | command (frame : Frame)

/-- A connection: its dispatcher, its readers with what they have not used up, the units that wait
to be written, and whether the channel is closing and the connection finished. -/
structure Connection (σ : Type) where
  dispatcher : Dispatcher σ
  observer : Observer := .log
  traffic : Option TrafficLog := none
  maskKeys : Nat → MaskKey
  masked : Nat := 0
  responses : ResponseReader := {}
  frames : FrameReader := {}
  buffer : Bytes := []
  pending : List Outbound := []
  closing : Bool := false
  finished : Bool := false

namespace Connection

variable {σ : Type}

/-- What the channel says to a write: it takes none once it is closing. -/
def writeFailure (c : Connection σ) : WriteFailure :=
  if c.closing then some { fault := .brokenPipe, text := some "connection is closing" } else none

/-- The connection after something its dispatcher has done: a write waits, a close is remembered,
and the rest concerns the world outside. -/
def perform (c : Connection σ) : Effect → Connection σ × List Output
  | .write outbound none => ({ c with pending := c.pending ++ [outbound] }, [])
  | .write _ (some _) => (c, [])
  | .closeChannel => ({ c with closing := true }, [])
  | e => (c, [.effect e])

def performAll (c : Connection σ) : List Effect → Connection σ × List Output
  | [] => (c, [])
  | e :: es =>
    let (c, outputs) := c.perform e
    let (c, later) := c.performAll es
    (c, outputs ++ later)

def call [Handshaker σ] (c : Connection σ) (call : Dispatcher.Call) : Connection σ × List Output :=
  let (dispatcher, effects) := c.dispatcher.step call
  { c with dispatcher }.performAll effects

def fail [Handshaker σ] (c : Connection σ) (cause : Error) : Connection σ × List Output :=
  c.call (.fail cause)

def decode (c : Connection σ) : Connection σ × Except Error (Option Inbound) :=
  match c.dispatcher.handshake with
  | .pending =>
    let answer := c.responses.decode c.buffer
    ({ c with responses := answer.reader, buffer := answer.rest },
      match answer.result with
      | .ok response => .ok (response.map .response)
      | .error e => .error (.protocolViolation e.message))
  | _ =>
    let answer := c.frames.decode c.buffer
    ({ c with frames := answer.reader, buffer := answer.rest },
      match answer.result with
      | .ok received => .ok (received.map .frame)
      | .error e => .error (.protocolViolation e.message))

/-- How much is left to read in the buffer: a unit uses up bytes, or was begun before. -/
def unread (c : Connection σ) : Nat :=
  c.responses.responsesLeft c.buffer + c.frames.framesLeft c.buffer

theorem unread_performAll (c : Connection σ) (es : List Effect) :
    (c.performAll es).1.unread = c.unread := by
  induction es generalizing c with
  | nil => rfl
  | cons e es ih =>
    have step : (c.perform e).1.unread = c.unread := by
      unfold perform
      split <;> rfl
    simp only [performAll]
    rw [ih, step]

theorem unread_call [Handshaker σ] (c : Connection σ) (call : Dispatcher.Call) :
    (c.call call).1.unread = c.unread := by
  unfold Connection.call
  rw [unread_performAll]
  rfl

theorem unread_lt_of_decode {c c' : Connection σ} {unit : Inbound}
    (h : c.decode = (c', .ok (some unit))) : c'.unread < c.unread := by
  unfold decode at h
  split at h
  · simp only [Prod.mk.injEq] at h
    obtain ⟨rfl, h⟩ := h
    split at h
    · next hr =>
      simp only [Except.ok.injEq, Option.map_eq_some_iff] at h
      obtain ⟨response, rfl, -⟩ := h
      have := ResponseReader.responsesLeft_lt_of_decode _ _ hr
      obtain ⟨-, hle, -⟩ := ResponseReader.length_lt_of_decode _ _ hr
      simp only [unread, FrameReader.framesLeft]
      omega
    · simp at h
  · simp only [Prod.mk.injEq] at h
    obtain ⟨rfl, h⟩ := h
    split at h
    · next hr =>
      simp only [Except.ok.injEq, Option.map_eq_some_iff] at h
      obtain ⟨received, rfl, -⟩ := h
      have := FrameReader.framesLeft_lt_of_decode _ _ hr
      obtain ⟨-, hle, -⟩ := FrameReader.length_lt_of_decode _ _ hr
      simp only [unread, ResponseReader.responsesLeft]
      omega
    · simp at h

/-- Passes the units in the buffer to the dispatcher until more must be read or the connection
ends. -/
def receiveAll [Handshaker σ] (c : Connection σ) : Connection σ × List Output :=
  if c.dispatcher.terminated then (c, [])
  else match _h : c.decode with
    | (c, .error e) => c.fail e
    | (c, .ok none) => (c, [])
    | (c', .ok (some unit)) =>
      let received := c'.call (.receive unit c'.writeFailure)
      let (c, later) := receiveAll received.1
      (c, received.2 ++ later)
termination_by c.unread
decreasing_by
  rw [unread_call]
  exact unread_lt_of_decode _h

/-- The bytes of units, with the number of masking keys used up before and after. -/
def encodeAll (maskKeys : Nat → MaskKey) (masked : Nat) :
    List Outbound → Except Error (Bytes × Nat)
  | [] => .ok ([], masked)
  | .request request :: rest => do
    let bytes ← (request.encode true).mapError .unwritableRequest
    let (later, masked) ← encodeAll maskKeys masked rest
    return (bytes ++ later, masked)
  | .frame frame :: rest => do
    let bytes ← (frame.encode (maskKeys masked)).mapError .unwritableFrame
    let (later, masked) ← encodeAll maskKeys (masked + 1) rest
    return (bytes ++ later, masked)

def trafficRecord (c : Connection σ) (direction : TrafficDirection) (bytes : Bytes) :
    List Output :=
  c.traffic.toList.map fun log => .traffic (log.record direction bytes)

/-- Writes what waits, given what the stream says to a write. When one unit cannot be written, none
is. Nothing waits any longer in either case. -/
def flush (c : Connection σ) (failure : Option StreamError) :
    Connection σ × List Output × Except Error Unit :=
  if c.pending.isEmpty then (c, [], .ok ())
  else match encodeAll c.maskKeys c.masked c.pending with
    | .error e => ({ c with pending := [] }, [], .error e)
    | .ok (bytes, masked) =>
      ({ c with pending := [], masked },
        c.trafficRecord .outbound bytes ++ [.sent c.pending bytes failure],
        match failure with
        | none => .ok ()
        | some e => .error (.stream e))

def flushOrFail [Handshaker σ] (c : Connection σ) (failure : Option StreamError) :
    Connection σ × List Output :=
  match c.flush failure with
  | (c, outputs, .ok ()) => (c, outputs)
  | (c, outputs, .error e) =>
    let (c, later) := c.fail e
    (c, outputs ++ later)

/-- Finishes a connection that is to go on no longer. -/
def settle (c : Connection σ) (failure : Option StreamError) : Connection σ × List Output :=
  if c.closing || c.dispatcher.terminated then
    let (c, outputs, _) := c.flush failure
    ({ c with finished := true }, outputs ++ [.shutdown])
  else (c, [])

/-- Ends a step: what waits is written, and the connection finishes if it has ended. -/
def endStep [Handshaker σ] (c : Connection σ) (failure : Option StreamError) :
    Connection σ × List Output :=
  let (c, outputs) := c.flushOrFail failure
  let (c, later) := c.settle failure
  (c, outputs ++ later)

def start [Handshaker σ] (c : Connection σ) (nonce : Nonce) (failure : Option StreamError) :
    Connection σ × List Output :=
  let (c, outputs) := c.call (.connectionOpen nonce c.writeFailure)
  let (c, later) := c.endStep failure
  (c, outputs ++ later)

/-- The stream has ended while the handshake is pending: a response that ends with it is complete,
and the handshake judges it. -/
def finishHandshake [Handshaker σ] (c : Connection σ) : Connection σ × List Output :=
  if c.dispatcher.handshake ≠ .pending || c.dispatcher.terminated then (c, [])
  else
    let answer := c.responses.decodeEnd c.buffer
    let c := { c with responses := answer.reader, buffer := answer.rest }
    match answer.result with
    | .ok (some response) => c.call (.receive (.response response) c.writeFailure)
    | _ => (c, [])

/-- The connection after one event, given what the stream says to a write that follows. A frame that
is taken before the handshake is complete, which no connection does, changes nothing. -/
def step [Handshaker σ] (c : Connection σ) (event : Event) (failure : Option StreamError) :
    Connection σ × List Output :=
  if c.finished then (c, [])
  else match event with
    | .readEnd =>
      let (c, outputs) := c.finishHandshake
      let (c, later) := c.call .connectionClosed
      ({ c with finished := true }, outputs ++ later)
    | .read bytes =>
      let record := c.trafficRecord .inbound bytes
      let (c, outputs) := { c with buffer := c.buffer ++ bytes }.receiveAll
      let (c, later) := c.endStep failure
      (c, record ++ outputs ++ later)
    | .readFailure e =>
      let (c, outputs) := c.fail (.stream e)
      let (c, later) := c.endStep failure
      (c, outputs ++ later)
    | .command frame =>
      if c.dispatcher.handshake ≠ .complete then (c, [])
      else
        let (c, outputs) := c.call (.send frame c.writeFailure)
        let (c, later) := c.endStep failure
        (c, outputs ++ later)

def run [Handshaker σ] (c : Connection σ) :
    List (Event × Option StreamError) → Connection σ × List Output
  | [] => (c, [])
  | (event, failure) :: events =>
    let (c, outputs) := c.step event failure
    let (c, later) := c.run events
    (c, outputs ++ later)

end Connection

def SessionSet.applyOutput (set : SessionSet) : Output → SessionSet
  | .effect e => set.apply e
  | _ => set

end WebClient.WebSocket
