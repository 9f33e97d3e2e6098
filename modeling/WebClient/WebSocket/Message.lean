import WebClient.Frame.Reader
import WebClient.WebSocket.Error

/-!
# Messages

What an application hears of its connection. A message stands for one frame of the server, apart
from the Close that stands for a connection which ended without one. The last thing it hears is
either a Close or an error.
-/

namespace WebClient.WebSocket

/-- The control frames that come with a payload of their own. -/
inductive ControlSignal where
  | ping
  | pong
  deriving DecidableEq, Repr

def ControlSignal.name : ControlSignal → String
  | ping => "Ping"
  | pong => "Pong"

inductive Message where
  | text (body : String) (final : Bool)
  | binary (data : Bytes) (final : Bool)
  | control (signal : ControlSignal) (payload : Bytes)
  | close (code : CloseCode) (reason : String)
  deriving DecidableEq, Repr

namespace Message

/-- The Close that stands for a connection which ended without one. -/
def goingAway : Message :=
  .close CloseCode.goingAway "Client is going away"

def isClose : Message → Bool
  | close .. => true
  | _ => false

end Message

/-- What an observer is told: a message, or the error that ends the connection. -/
inductive Notice where
  | message (m : Message)
  | error (e : Error)
  deriving DecidableEq, Repr

def Notice.isTerminal : Notice → Bool
  | message m => m.isClose
  | error _ => true

end WebClient.WebSocket
