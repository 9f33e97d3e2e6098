import WebClient.Frame.Writer
import WebClient.Http.Request.Writer
import WebClient.Net.Stream

/-!
# Errors of a WebSocket

Why an opening handshake is rejected, and why a WebSocket cannot be opened or used any longer, each
with its wording.
-/

namespace WebClient.WebSocket

inductive UpgradeError where
  | notStarted
  | unexpectedStatus (status : Nat) (body : String)
  | missingUpgrade
  | missingConnectionUpgrade
  | missingAccept
  | acceptMismatch
  | unexpectedSubprotocol (name : String)
  deriving DecidableEq, Repr

def UpgradeError.message : UpgradeError → String
  | notStarted => "handshake response received before the request was sent"
  | unexpectedStatus status _ =>
    "expected 101 Switching Protocols, got " ++ String.ofList (Text.decimal status)
  | missingUpgrade => "missing or invalid Upgrade header"
  | missingConnectionUpgrade => "missing Connection: upgrade header"
  | missingAccept => "missing Sec-WebSocket-Accept"
  | acceptMismatch => "Sec-WebSocket-Accept mismatch"
  | unexpectedSubprotocol name =>
    "server selected a subprotocol that was not requested: " ++ name

/-- Why a frame of the application is not queued, although the connection takes frames. -/
inductive QueueError where
  | longControl
  | unsendableCode (code : CloseCode)
  deriving DecidableEq, Repr

def QueueError.message : QueueError → String
  | longControl => "control frame payload max 125 bytes"
  | unsendableCode code =>
    "close code " ++ String.ofList (Text.decimal code.toNat) ++ " may not be sent"

inductive Error where
  | handshake (e : UpgradeError)
  | unexpectedResponse (status : Nat) (content : String)
  | protocolViolation (text : String)
  | unrecognizedFrame (opcode : UInt8)
  | invalidUrl (text : String)
  | connectionClosed
  | invalidHostName
  | stream (e : StreamError)
  | unwritableRequest (e : Http.Request.WriteError)
  | unwritableFrame (e : Frame.WriteError)
  | refusedFrame (e : QueueError)
  deriving DecidableEq, Repr

def Error.message : Error → String
  | handshake e => "handshake failed: " ++ e.message
  | unexpectedResponse status content =>
    "unexpected HTTP response (status=" ++ String.ofList (Text.decimal status) ++ ", content=" ++
      content ++ ")"
  | protocolViolation text => "protocol violation: " ++ text
  | unrecognizedFrame opcode =>
    "cannot identify the WebSocket frame type (opcode 0x" ++
      String.ofList (Text.hexadecimal opcode.toNat) ++ ")"
  | invalidUrl text => "invalid WebSocket URL: " ++ text
  | connectionClosed => "connection closed before the handshake completed"
  | invalidHostName => "invalid host name"
  | stream e => e.message
  | unwritableRequest e => e.message
  | unwritableFrame e => e.message
  | refusedFrame e => e.message

end WebClient.WebSocket
