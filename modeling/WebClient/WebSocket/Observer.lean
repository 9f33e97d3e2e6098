import WebClient.Log
import WebClient.WebSocket.Message
import WebClient.WebSocket.Session

/-!
# Observers

An observer is told what a connection receives. One kind puts every notice into a queue that the
application reads, one writes it to the log, and one passes it on to several others, each of which
gets every notice in order. A queue nobody reads any more takes nothing, which is logged.
-/

namespace WebClient.WebSocket

inductive Observer where
  | queue (index : Nat)
  | log
  | fanOut (observers : List Observer)
  deriving Repr

/-- What comes of telling an observer something: an entry in a queue, or a record in the log. -/
inductive Delivery where
  | queued (index : Nat) (notice : Notice)
  | logged (record : LogRecord)
  deriving DecidableEq, Repr

/-- The part of the client that observers log as. -/
def Observer.logTarget : String := "ponte_core::protocol::websocket::observer"

def Message.logRecord (m : Message) (id : ConnectionId) : LogRecord :=
  let record (level : LogLevel) (text : String) (values : List (String × LogValue)) : LogRecord :=
    { target := Observer.logTarget, level, message := some text
      values := ("connection", .text id.text) :: values }
  match m with
  | .text body final =>
    record .debug "text message"
      [("len", .number body.utf8ByteSize), ("final_fragment", .flag final)]
  | .binary data final =>
    record .debug "binary message" [("len", .number data.length), ("final_fragment", .flag final)]
  | .control signal payload =>
    record .debug "control message" [("signal", .text signal.name), ("len", .number payload.length)]
  | .close code reason =>
    record .info "close" [("status_code", .number code.toNat), ("reason", .text reason)]

def Notice.logRecord (notice : Notice) (id : ConnectionId) : LogRecord :=
  match notice with
  | .message m => m.logRecord id
  | .error e =>
    { target := Observer.logTarget, level := .warn, message := some "websocket error"
      values := [("connection", .text id.text), ("error", .text e.message)] }

/-- The record of a notice that no one is left to read. -/
def Notice.lostRecord (notice : Notice) : LogRecord :=
  { target := Observer.logTarget
    level := .debug
    message := match notice with
      | .message _ => some "observer channel closed; message dropped"
      | .error _ => some "observer channel closed; error dropped"
    values := [] }

mutual

/-- What comes of telling an observer a notice, when `isRead` says which queues are still read. -/
def Observer.tell (isRead : Nat → Bool) (id : ConnectionId) (notice : Notice) :
    Observer → List Delivery
  | .queue index =>
    if isRead index then [.queued index notice] else [.logged notice.lostRecord]
  | .log => [.logged (notice.logRecord id)]
  | .fanOut observers => Observer.tellAll isRead id notice observers

def Observer.tellAll (isRead : Nat → Bool) (id : ConnectionId) (notice : Notice) :
    List Observer → List Delivery
  | [] => []
  | o :: os => o.tell isRead id notice ++ Observer.tellAll isRead id notice os

end

end WebClient.WebSocket
