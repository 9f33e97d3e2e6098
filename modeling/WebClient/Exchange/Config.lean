import WebClient.Endpoint.Basic
import WebClient.Settings.Basic
import WebClient.Tls.Context

/-!
# Connection configurations

What every connection of a redirect chain is opened with: the request that started the chain, the
switches of the client, and what a secure connection verifies. Only the last follows the chain from
host to host; the rest stays what the caller gave.
-/

namespace WebClient.Exchange

/-- The request that a chain of connections serves. Two requests for one URL are two origins, which
their numbers tell apart. -/
structure Origin where
  number : Nat
  url : String
  deriving DecidableEq, Repr

def Origin.same (a b : Origin) : Bool :=
  a.number == b.number

structure Config where
  origin : Origin
  settings : Settings := {}
  tls : Option TlsContext := none
  deriving DecidableEq

namespace Config

/-- The configuration for an endpoint: it verifies the endpoint's host when the endpoint is secure,
and nothing otherwise. A context for that host in other letters stays. One for another host gives
way to a new one, which would differ from a first context only in what contexts leave out: it goes
on with the trust of the one before, where a first context has the default. None when the host of a
secure endpoint is no server name. -/
def bindTls? (config : Config) (endpoint : Endpoint) : Option Config :=
  if endpoint.isSecure then
    if config.tls.any fun tls => Text.eqIgnoringCase tls.host endpoint.host then some config
    else (TlsContext.ofHost? endpoint.host).map fun tls => { config with tls := some tls }
  else some { config with tls := none }

end Config

end WebClient.Exchange
