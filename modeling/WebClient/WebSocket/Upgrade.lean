import WebClient.Coding.Base64
import WebClient.Coding.Sha1
import WebClient.Http.Response
import WebClient.WebSocket.Error

/-!
# The opening handshake

A client asks a server to turn an HTTP connection into a WebSocket with a GET request that carries a
random key. The server agrees with status 101, and proves that it read the request by sending back a
digest of the key. The fields that make up the request are set behind the caller's own, so that a
caller cannot displace them.

What asks for the protocol and judges the answer is kept apart from the connection that uses it:
`Handshaker` says what the connection needs to know.
-/

namespace WebClient.WebSocket

open Http

structure Nonce where
  bytes : Bytes
  length_eq : bytes.length = 16
  deriving DecidableEq

/-- How a connection asks for the protocol and judges the response. -/
class Handshaker (σ : Type) where
  /-- The request to be sent, and the state in which its response is awaited. -/
  request : σ → Nonce → σ × Request
  /-- The state after a response that opens the WebSocket. -/
  complete : σ → Response → Except UpgradeError σ
  /-- The subprotocol that the server has chosen. -/
  subprotocol : σ → Option String

structure Upgrade where
  host : String
  path : String
  subprotocols : List String := []
  headers : Headers := []
  key : Option String := none
  selected : Option String := none
  isComplete : Bool := false
  deriving DecidableEq, Repr

namespace Upgrade

/-- What a server appends to a key before it takes the digest. -/
def acceptSuffix : String := "258EAFA5-E914-47DA-95CA-C5AB0DC85B11"

def acceptFor (key : String) : String :=
  Base64.encode (Sha1.digest (Bytes.ofString key ++ Bytes.ofString acceptSuffix))

def ownHeaders (u : Upgrade) (key : String) : Headers :=
  [{ name := "Upgrade", value := "websocket" },
    { name := "Connection", value := "Upgrade" },
    { name := "Sec-WebSocket-Key", value := key },
    { name := "Sec-WebSocket-Version", value := "13" }] ++
  if u.subprotocols.isEmpty then []
  else [{ name := "Sec-WebSocket-Protocol", value := ", ".intercalate u.subprotocols }]

/-- All fields of the request under a key: the host, then the caller's, then those that make up the
request, each put in the place of an earlier one of its name. -/
def requestHeaders (u : Upgrade) (key : String) : Headers :=
  let host : Headers := [{ name := "Host", value := u.host }]
  (host.setAll u.headers).setAll (u.ownHeaders key)

/-- The request, under a key made from the nonce; the key is remembered. -/
def request (u : Upgrade) (nonce : Nonce) : Upgrade × Request :=
  let key := Base64.encode nonce.bytes
  ({ u with key := some key },
    { method := .get, path := u.path, headers := u.requestHeaders key })

/-- The subprotocol a response chooses, which must be one of those offered. -/
def choice (u : Upgrade) (response : Response) : Except UpgradeError (Option String) :=
  match response.headers.get? "Sec-WebSocket-Protocol" with
  | none => .ok none
  | some value =>
    let name := Text.trim value
    if name ∈ u.subprotocols then .ok (some name) else .error (.unexpectedSubprotocol name)

/-- Checks a response. Nothing changes before the last check has passed, so a response that fails
one leaves the upgrade as it was. A subprotocol chosen earlier stands until another response chooses
one. -/
def complete (u : Upgrade) (response : Response) : Except UpgradeError Upgrade :=
  match u.key with
  | none => .error .notStarted
  | some key =>
    if response.status ≠ 101 then .error (.unexpectedStatus response.status response.bodyText)
    else if !response.headers.hasElement "Upgrade" "websocket" then .error .missingUpgrade
    else if !response.headers.hasElement "Connection" "upgrade" then
      .error .missingConnectionUpgrade
    else match response.headers.get? "Sec-WebSocket-Accept" with
      | none => .error .missingAccept
      | some accept =>
        if Text.trim accept ≠ acceptFor key then .error .acceptMismatch
        else match u.choice response with
          | .error e => .error e
          | .ok none => .ok { u with isComplete := true }
          | .ok (some name) => .ok { u with selected := some name, isComplete := true }

instance : Handshaker Upgrade where
  request := request
  complete := complete
  subprotocol := selected

end Upgrade

end WebClient.WebSocket
