import WebClient.WebSocket.Message
import WebClient.WebSocket.Session
import WebClient.WebSocket.Upgrade

/-!
# Dispatching

A dispatcher stands between what a connection reads and the application. It starts the handshake,
judges the first response, and from then on passes messages to the observer, answers Pings and the
peer's Close, and ends the connection exactly once: with the peer's Close, with an error, or with
the Close that stands for a lost connection.

A call changes the dispatcher and gives back, in order, everything it did to the world outside:
what it wrote to the channel and whether the channel took it, whether it closed the channel, what it
told the session set, the observer and whoever waits for the handshake. A call writes at most once,
so the answer the channel would give to a write is an argument of the call.
-/

namespace WebClient.WebSocket

open Http

/-- Where a handshake stands. It leaves `pending` once and then stays where it is. -/
inductive HandshakeState where
  | pending
  | complete
  | failed
  deriving DecidableEq, Repr

inductive Outbound where
  | request (r : Request)
  | frame (f : Frame)
  deriving DecidableEq, Repr

inductive Inbound where
  | response (r : Response)
  | frame (f : Received)
  deriving DecidableEq, Repr

def Inbound.describe : Inbound → String
  | response _ => "HTTP response"
  | frame (.text ..) => "text frame"
  | frame (.binary ..) => "binary frame"
  | frame (.ping _) => "ping frame"
  | frame (.pong _) => "pong frame"
  | frame (.close ..) => "close frame"
  | frame (.unknown _) => "unknown frame"

/-- What a channel says to a write: nothing when it takes it, or why it does not. -/
abbrev WriteFailure := Option StreamError

inductive Effect where
  | write (outbound : Outbound) (failure : WriteFailure)
  | closeChannel
  | register (session : Session)
  | unregister (id : ConnectionId)
  | resolve (result : Except Error Unit)
  | notify (notice : Notice)

/-- The state of one connection. `outcome` is what those who wait for the handshake have been told,
`registers` whether sessions are reported to a set, `closeSent` that a Close frame of this side has
been passed to the channel, and `terminated` that the observer has heard the last. -/
structure Dispatcher (σ : Type) where
  handshaker : σ
  context : ConnectionContext
  registers : Bool := false
  handshake : HandshakeState := .pending
  session : Option Session := none
  outcome : Option (Except Error Unit) := none
  opened : Bool := false
  closeSent : Bool := false
  terminated : Bool := false

namespace Dispatcher

variable {σ : Type}

/-- The effect of taking the session out of the set, if it is in one. -/
def release (d : Dispatcher σ) : List Effect :=
  match d.session with
  | some session => if d.registers then [.unregister session.id] else []
  | none => []

/-- Ends the connection for a cause: the session leaves the set, and a handshake that is still
pending fails. -/
def terminate (d : Dispatcher σ) (cause : Error) : Dispatcher σ × List Effect :=
  match d.outcome with
  | some _ => ({ d with terminated := true }, d.release)
  | none =>
    ({ d with terminated := true, handshake := .failed, outcome := some (.error cause) },
      d.release ++ [.resolve (.error cause)])

/-- An error ends the connection; one that comes later is ignored. -/
def fail (d : Dispatcher σ) (cause : Error) : Dispatcher σ × List Effect :=
  if d.terminated then (d, [])
  else
    let (d, effects) := d.terminate cause
    (d, effects ++ [.notify (.error cause), .closeChannel])

def connectionClosed (d : Dispatcher σ) : Dispatcher σ × List Effect :=
  if d.terminated then (d, [])
  else
    let (d, effects) := d.terminate .connectionClosed
    (d, effects ++ [.notify (.message .goingAway)])

/-- A write that ends the connection if the channel does not take it. -/
def writeOrFail (d : Dispatcher σ) (outbound : Outbound) (failure : WriteFailure) :
    Dispatcher σ × List Effect :=
  match failure with
  | none => (d, [.write outbound none])
  | some e =>
    let (d, effects) := d.fail (.stream e)
    (d, .write outbound (some e) :: effects)

/-- The connection is open: the handshake starts, the first time only. -/
def connectionOpen [Handshaker σ] (d : Dispatcher σ) (nonce : Nonce) (failure : WriteFailure) :
    Dispatcher σ × List Effect :=
  if d.opened then (d, [])
  else
    let (handshaker, request) := Handshaker.request d.handshaker nonce
    { d with opened := true, handshaker }.writeOrFail (.request request) failure

/-- The handshake is complete: the session starts and is reported before anyone is told. -/
def complete [Handshaker σ] (d : Dispatcher σ) : Dispatcher σ × List Effect :=
  let session : Session :=
    { context := d.context, subprotocol := Handshaker.subprotocol d.handshaker }
  let effects := if d.registers then [Effect.register session] else []
  let d := { d with handshake := .complete, session := some session }
  match d.outcome with
  | some _ => (d, effects)
  | none => ({ d with outcome := some (.ok ()) }, effects ++ [.resolve (.ok ())])

/-- The Close that answers the peer's: it repeats a code that may be sent, has none where the peer
gave none, and otherwise says that the peer broke the protocol. -/
def closeEcho (code : CloseCode) : Frame :=
  if code = CloseCode.noStatus then Frame.close none ""
  else if code.isSendable then Frame.close (some code) ""
  else Frame.close (some CloseCode.protocolError) ""

/-- The peer's Close: it is answered unless this side closed first, and ends the connection. -/
def peerClose (d : Dispatcher σ) (code : CloseCode) (reason : String) (failure : WriteFailure) :
    Dispatcher σ × List Effect :=
  let echo := if d.closeSent then [] else [Effect.write (.frame (closeEcho code)) failure]
  ({ d with closeSent := true, terminated := true },
    echo ++ [.closeChannel] ++ d.release ++ [.notify (.message (.close code reason))])

def dispatch (d : Dispatcher σ) (unit : Inbound) (failure : WriteFailure) :
    Dispatcher σ × List Effect :=
  match unit with
  | .frame (.text body final) => (d, [.notify (.message (.text body final))])
  | .frame (.binary data final) => (d, [.notify (.message (.binary data final))])
  | .frame (.pong payload) => (d, [.notify (.message (.control .pong payload))])
  | .frame (.ping payload) => d.writeOrFail (.frame (Frame.pong payload)) failure
  | .frame (.close code reason) => d.peerClose code reason failure
  | .frame (.unknown opcode) => d.fail (.unrecognizedFrame opcode)
  | .response r => d.fail (.unexpectedResponse r.status r.bodyText)

/-- Something has been read. While the handshake is pending, only its response may come. -/
def receive [Handshaker σ] (d : Dispatcher σ) (unit : Inbound) (failure : WriteFailure) :
    Dispatcher σ × List Effect :=
  if d.terminated then (d, [])
  else match d.handshake, unit with
    | .pending, .response r =>
      match Handshaker.complete d.handshaker r with
      | .ok handshaker => { d with handshaker }.complete
      | .error e => d.fail (.handshake e)
    | .pending, unit =>
      d.fail (.protocolViolation (unit.describe ++ " received before the handshake completed"))
    | .complete, unit => d.dispatch unit failure
    | .failed, _ => (d, [])

/-- The application sends a frame. Nothing follows a Close, and nothing is sent after the end. -/
def send (d : Dispatcher σ) (frame : Frame) (failure : WriteFailure) :
    Dispatcher σ × List Effect × Except Error Unit :=
  if d.terminated || d.closeSent then (d, [], .error .connectionClosed)
  else
    let d := if frame.opcode = .close then { d with closeSent := true } else d
    (d, [.write (.frame frame) failure],
      match failure with
      | none => .ok ()
      | some e => .error (.stream e))

/-- The dispatcher is given up: whoever still waits for the handshake is told that the connection is
gone. -/
def drop (d : Dispatcher σ) : List Effect :=
  match d.outcome with
  | some _ => []
  | none => [.resolve (.error .connectionClosed)]

inductive Call where
  | connectionOpen (nonce : Nonce) (failure : WriteFailure)
  | receive (unit : Inbound) (failure : WriteFailure)
  | connectionClosed
  | fail (cause : Error)
  | send (frame : Frame) (failure : WriteFailure)

def step [Handshaker σ] (d : Dispatcher σ) : Call → Dispatcher σ × List Effect
  | .connectionOpen nonce failure => d.connectionOpen nonce failure
  | .receive unit failure => d.receive unit failure
  | .connectionClosed => d.connectionClosed
  | .fail cause => d.fail cause
  | .send frame failure =>
    let (d, effects, _) := d.send frame failure
    (d, effects)

def run [Handshaker σ] (d : Dispatcher σ) : List Call → Dispatcher σ × List Effect
  | [] => (d, [])
  | call :: calls =>
    let (d, effects) := d.step call
    let (d, later) := d.run calls
    (d, effects ++ later)

end Dispatcher

def SessionSet.apply (set : SessionSet) : Effect → SessionSet
  | .register session => set.register session
  | .unregister id => set.unregister id
  | _ => set

end WebClient.WebSocket
