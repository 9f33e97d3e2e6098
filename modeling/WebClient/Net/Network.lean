import WebClient.Endpoint.Basic
import WebClient.Net.IpAddress
import WebClient.Net.Stream
import WebClient.Tls.Context

/-!
# Networks

What lies behind a client's sockets, as far as a client can tell: whether a connection to an
endpoint can be opened, and what a connection gives back for a request. Nothing is said of how the
bytes of an answer are cut into reads, so what holds for all networks holds for every cut.
-/

namespace WebClient

inductive ConnectError where
  | tcp (e : StreamError)
  | tls (e : StreamError)
  deriving DecidableEq, Repr

/-- What a connection gives back for bytes written to it: whether the write fails, the pieces that
are read, and the error that the reading ends with; without one it ends with the stream. -/
structure Reply where
  writeFailure : Option StreamError := none
  pieces : List Bytes := []
  readFailure : Option StreamError := none
  deriving DecidableEq, Repr

/-- An open connection: the address of the client's end, and the reply to what is written. -/
structure Line where
  localAddress : SocketAddress
  reply : Bytes → Reply

/-- What becomes of the connections of a client, which are numbered from zero on. A connection runs
over TLS where there is a context for it. -/
structure Network where
  connect : (number : Nat) → Endpoint → Option TlsContext → Except ConnectError Line

def Network.unreachable : Network where
  connect _ _ _ := .error (.tcp { fault := .networkUnreachable })

end WebClient
