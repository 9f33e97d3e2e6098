import WebClient.Tls.ServerName

/-!
# TLS contexts

A secure connection is opened for one host, which must be a server name. The context keeps the host
as it was given beside the name it spells, with the proof that it does. What else TLS is set up
with, such as the certificates that are trusted, is left out: nothing here looks at it.
-/

namespace WebClient

/-- What a secure connection verifies: the host as it was given, and the name that host is. -/
structure TlsContext where
  host : String
  serverName : ServerName
  isName : ServerName.parse? host = some serverName
  deriving DecidableEq

def TlsContext.ofHost? (host : String) : Option TlsContext :=
  match h : ServerName.parse? host with
  | some serverName => some { host, serverName, isName := h }
  | none => none

end WebClient
