import WebClient.Net.IpAddress

/-!
# Sessions

What is fixed about a connection when it is opened, the session that its completed handshake starts,
and the set of the sessions whose connections are live, in the order in which they started.
-/

namespace WebClient.WebSocket

structure ConnectionId where
  number : Nat
  deriving DecidableEq, Repr

def ConnectionId.text (id : ConnectionId) : String :=
  "ws-" ++ String.ofList (Text.decimal id.number)

/-- What is fixed about a connection: its number, its own end, a name for that end, whether it runs
over TLS, and the URL that was asked for. -/
structure ConnectionContext where
  id : ConnectionId
  localAddress : SocketAddress
  localName : String := localAddress.ip.text
  secure : Bool
  uri : String
  deriving DecidableEq, Repr

structure Session where
  context : ConnectionContext
  subprotocol : Option String
  deriving DecidableEq, Repr

def Session.id (session : Session) : ConnectionId :=
  session.context.id

/-- The sessions of live connections, earliest first. -/
abbrev SessionSet := List Session

namespace SessionSet

def register (set : SessionSet) (session : Session) : SessionSet :=
  set ++ [session]

def session? (set : SessionSet) (id : ConnectionId) : Option Session :=
  set.find? (·.id == id)

/-- The set without the first session of a connection. -/
def unregister (set : SessionSet) (id : ConnectionId) : SessionSet :=
  set.eraseP (·.id == id)

end SessionSet

end WebClient.WebSocket
