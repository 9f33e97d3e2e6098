import WebClient.Endpoint.Parse
import WebClient.Net.Network
import WebClient.WebSocket.Connection

/-!
# WebSocket clients

A client describes a connection before it is opened: the URL, what the handshake asks for beyond the
WebSocket itself, and who hears of what comes. Opening it checks the URL, connects, and makes the
connection whose handshake has yet to start.
-/

namespace WebClient.WebSocket

structure Client where
  url : String
  subprotocols : List String := []
  headers : Http.Headers := []
  traceLogging : Bool := false
  observer : Observer := .log
  registers : Bool := false

namespace Client

/-- The endpoint of the client's URL, which must be one for WebSockets. -/
def endpoint (client : Client) : Except Error Endpoint :=
  match Endpoint.parse client.url with
  | .error e => .error (.invalidUrl e.message)
  | .ok endpoint =>
    if endpoint.scheme.isWebSocket then .ok endpoint
    else .error (.invalidUrl ("URL scheme must be ws or wss: " ++ client.url))

def tls (endpoint : Endpoint) : Except Error (Option TlsContext) :=
  if endpoint.isSecure then
    match TlsContext.ofHost? endpoint.host with
    | some context => .ok (some context)
    | none => .error .invalidHostName
  else .ok none

def upgrade (client : Client) (endpoint : Endpoint) : Upgrade :=
  { host := endpoint.authority
    path := endpoint.path
    subprotocols := client.subprotocols
    headers := client.headers }

/-- Opens the connection, which is known by its number from then on. -/
def connect (client : Client) (network : Network) (id : ConnectionId)
    (maskKeys : Nat → MaskKey) : Except Error (Connection Upgrade) := do
  let endpoint ← client.endpoint
  let tls ← Client.tls endpoint
  match network.connect id.number endpoint tls with
  | .error (.tcp e) | .error (.tls e) => throw (.stream e)
  | .ok line =>
    let context : ConnectionContext :=
      { id, localAddress := line.localAddress, secure := tls.isSome, uri := client.url }
    return {
      dispatcher := {
        handshaker := client.upgrade endpoint, context, registers := client.registers }
      observer := client.observer
      traffic := if client.traceLogging then some { side := .client } else none
      maskKeys }

end Client

end WebClient.WebSocket
