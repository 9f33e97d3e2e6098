import WebClient.WebSocket.Error

/-!
# Queued frames

The frames an application sends wait in a queue until their connection takes them, which it does
once the handshake is complete. Any number of senders share the queue. A send is two steps, between
which other senders may take theirs: the frame is accepted, and then queued. Accepting a Close
shuts the queue for every frame that is not yet accepted.
-/

namespace WebClient.WebSocket

/-- Frames that wait to be sent, first frame first; `closeQueued` tells that a Close has been
accepted, and `abandoned` that the connection is gone. -/
structure SendQueue where
  frames : List Frame := []
  closeQueued : Bool := false
  abandoned : Bool := false
  deriving DecidableEq, Repr

namespace SendQueue

/-- The first step of a send: nothing is accepted behind a Close. -/
def accept (q : SendQueue) (frame : Frame) : SendQueue × Except Error Unit :=
  if frame.opcode.isControl && frame.payload.length > Frame.maxControlPayload then
    (q, .error (.refusedFrame .longControl))
  else if q.closeQueued then (q, .error .connectionClosed)
  else ({ q with closeQueued := frame.opcode = .close }, .ok ())

/-- The second step of a send: the frame joins the queue, while there is a connection. -/
def enqueue (q : SendQueue) (frame : Frame) : SendQueue × Except Error Unit :=
  if q.abandoned then (q, .error .connectionClosed)
  else ({ q with frames := q.frames ++ [frame] }, .ok ())

def send (q : SendQueue) (frame : Frame) : SendQueue × Except Error Unit :=
  match q.accept frame with
  | (q, .ok ()) => q.enqueue frame
  | refused => refused

def sendText (q : SendQueue) (text : String) : SendQueue × Except Error Unit :=
  q.send (Frame.text text)

def sendBinary (q : SendQueue) (data : Bytes) : SendQueue × Except Error Unit :=
  q.send (Frame.binary data)

def sendPing (q : SendQueue) (data : Bytes) : SendQueue × Except Error Unit :=
  q.send (Frame.ping data)

/-- Starts the closing handshake, with a code that may go over the wire. -/
def close (q : SendQueue) (code : CloseCode) (reason : String) : SendQueue × Except Error Unit :=
  if code.isSendable then q.send (Frame.close (some code) reason)
  else (q, .error (.refusedFrame (.unsendableCode code)))

def take? (q : SendQueue) : Option (Frame × SendQueue) :=
  match q.frames with
  | [] => none
  | frame :: frames => some (frame, { q with frames })

/-- The connection is gone: what is still queued will not be sent. -/
def abandon (q : SendQueue) : SendQueue :=
  { q with abandoned := true }

end SendQueue

end WebClient.WebSocket
