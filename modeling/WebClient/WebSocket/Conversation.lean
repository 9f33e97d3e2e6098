import WebClient.WebSocket.Connection
import WebClient.WebSocket.SendQueue

/-!
# Connections and their senders

A connection is worked on by one task, and its application sends from any number of others. They
meet in the queue alone. A send is two steps, and so is a turn of the worker, which first hears of
something or takes a frame and then writes what has come to wait; in between, all the others may
take any number of steps. A turn and the writing behind it are one step of the connection
(`Connection.step_eq_turn`), and its opening is made in the same way (`Connection.start_eq_call`).

A conversation also keeps what has happened in it: the frames that were accepted, those that joined
the queue, those of the queue that went out, and everything the connection has done.
-/

namespace WebClient.WebSocket

/-- A connection's turn before it writes: something is read, reading ends or fails, or a frame is
passed to the dispatcher. -/
def Connection.turn {σ : Type} [Handshaker σ] (c : Connection σ) :
    Event → Connection σ × List Output
  | .readEnd =>
    let (c, outputs) := c.finishHandshake
    let (c, later) := c.call .connectionClosed
    ({ c with finished := true }, outputs ++ later)
  | .read bytes =>
    let record := c.trafficRecord .inbound bytes
    let (c, outputs) := { c with buffer := c.buffer ++ bytes }.receiveAll
    (c, record ++ outputs)
  | .readFailure e => c.fail (.stream e)
  | .command frame => c.call (.send frame c.writeFailure)

namespace Connection

variable {σ : Type} [Handshaker σ]

theorem step_eq_turn {c : Connection σ} (hlive : c.finished = false) {event : Event}
    (hend : event ≠ .readEnd)
    (hcommand : ∀ frame, event = .command frame → c.dispatcher.handshake = .complete)
    (failure : Option StreamError) :
    c.step event failure =
      (((c.turn event).1.endStep failure).1,
        (c.turn event).2 ++ ((c.turn event).1.endStep failure).2) := by
  unfold step
  rw [if_neg (Bool.eq_false_iff.1 hlive)]
  cases event with
  | readEnd => exact absurd rfl hend
  | read bytes => rfl
  | readFailure e => rfl
  | command frame => exact if_neg (not_not_intro (hcommand frame rfl))

theorem step_readEnd {c : Connection σ} (hlive : c.finished = false)
    (failure : Option StreamError) : c.step .readEnd failure = c.turn .readEnd := by
  unfold step
  rw [if_neg (Bool.eq_false_iff.1 hlive)]
  rfl

theorem start_eq_call (c : Connection σ) (nonce : Nonce) (failure : Option StreamError) :
    c.start nonce failure =
      (((c.call (.connectionOpen nonce c.writeFailure)).1.endStep failure).1,
        (c.call (.connectionOpen nonce c.writeFailure)).2 ++
          ((c.call (.connectionOpen nonce c.writeFailure)).1.endStep failure).2) :=
  rfl

end Connection

/-- The units that an output has passed to the stream, each with what the stream said. -/
def Output.sentUnits : Output → List (Outbound × Option StreamError)
  | .sent units _ failure => units.map (·, failure)
  | _ => []

/-- Where the worker of a connection stands. It writes behind each turn, and then it matters whether
the turn took a frame out of the queue. -/
inductive Worker where
  | unopened
  | waiting
  | writing (fromQueue : Bool)
  | gone
  deriving DecidableEq, Repr

/-- A connection, its worker and its queue, the frames of sends that stand between their two steps,
and what has happened so far. -/
structure Conversation (σ : Type) where
  connection : Connection σ
  worker : Worker := .unopened
  queue : SendQueue := {}
  inHand : List Frame := []
  accepted : List Frame := []
  queued : List Frame := []
  written : List (Outbound × Option StreamError) := []
  outputs : List Output := []

namespace Conversation

variable {σ : Type}

inductive Action where
  | accept (frame : Frame)
  | enqueue (index : Nat)
  | start (nonce : Nonce)
  | read (bytes : Bytes)
  | readEnd
  | readFailure (e : StreamError)
  | take
  | write (failure : Option StreamError)
  | leave

def accept (c : Conversation σ) (frame : Frame) : Conversation σ :=
  match c.queue.accept frame with
  | (queue, .ok ()) =>
    { c with queue, inHand := c.inHand ++ [frame], accepted := c.accepted ++ [frame] }
  | (_, .error _) => c

def enqueue (c : Conversation σ) (index : Nat) : Conversation σ :=
  match c.inHand[index]? with
  | none => c
  | some frame =>
    let c := { c with inHand := c.inHand.eraseIdx index }
    match c.queue.enqueue frame with
    | (queue, .ok ()) => { c with queue, queued := c.queued ++ [frame] }
    | (_, .error _) => c

def after (c : Conversation σ) (result : Connection σ × List Output) (worker : Worker) :
    Conversation σ :=
  { c with connection := result.1, outputs := c.outputs ++ result.2, worker }

/-- The worker is given up, and the queue with it. -/
def leave (c : Conversation σ) : Conversation σ :=
  { c with worker := .gone, queue := c.queue.abandon }

/-- The worker writes what waits, and is done when the connection has finished. -/
def write [Handshaker σ] (c : Conversation σ) (fromQueue : Bool)
    (failure : Option StreamError) : Conversation σ :=
  let result := c.connection.endStep failure
  let sent := if fromQueue then result.2.flatMap Output.sentUnits else []
  { c with written := c.written ++ sent }.after result
    (if result.1.finished then .gone else .waiting)

def take [Handshaker σ] (c : Conversation σ) : Conversation σ :=
  match c.queue.take? with
  | none => c
  | some (frame, queue) =>
    { c with queue }.after (c.connection.turn (.command frame)) (.writing true)

/-- The conversation after one action. An action whose time has not come changes nothing. -/
def step [Handshaker σ] (c : Conversation σ) : Action → Conversation σ
  | .accept frame => c.accept frame
  | .enqueue index => c.enqueue index
  | .start nonce =>
    if c.worker = .unopened then
      c.after (c.connection.call (.connectionOpen nonce c.connection.writeFailure))
        (.writing false)
    else c
  | .read bytes =>
    if c.worker = .waiting then c.after (c.connection.turn (.read bytes)) (.writing false) else c
  | .readFailure e =>
    if c.worker = .waiting then c.after (c.connection.turn (.readFailure e)) (.writing false) else c
  | .readEnd =>
    if c.worker = .waiting then c.after (c.connection.turn .readEnd) .gone else c
  | .take =>
    if c.worker = .waiting ∧ c.connection.dispatcher.handshake = .complete then c.take else c
  | .write failure =>
    match c.worker with
    | .writing fromQueue => c.write fromQueue failure
    | _ => c
  | .leave => c.leave

def run [Handshaker σ] (c : Conversation σ) : List Action → Conversation σ
  | [] => c
  | action :: actions => (c.step action).run actions

end Conversation

end WebClient.WebSocket
