import WebClient.Text.Letter
import WebClient.Text.Numeral

/-!
# Endpoints

An endpoint is what a client needs of a URL: the scheme, the host and port to connect to, and the
path with its query, which is the target of the request line. User information and fragments are
sent nowhere, so an endpoint does not hold them.
-/

namespace WebClient

inductive Scheme where
  | http
  | https
  | ws
  | wss
  deriving DecidableEq, Repr

namespace Scheme

def name : Scheme → String
  | http => "http"
  | https => "https"
  | ws => "ws"
  | wss => "wss"

def isSecure : Scheme → Bool
  | https | wss => true
  | http | ws => false

def isWebSocket : Scheme → Bool
  | ws | wss => true
  | http | https => false

def defaultPort (scheme : Scheme) : UInt16 :=
  if scheme.isSecure then 443 else 80

/-- The schemes, in the order in which a name is compared with theirs. -/
def all : List Scheme := [http, https, ws, wss]

/-- The scheme of a name written in any letter case. -/
def ofName? (name : String) : Option Scheme :=
  all.find? fun scheme => Text.lower name == scheme.name

end Scheme

inductive UrlError where
  | unsupportedScheme (url : String)
  | missingHost
  | invalidPort (port : String)
  | unterminatedBracket
  deriving DecidableEq, Repr

def UrlError.message : UrlError → String
  | unsupportedScheme url => "unsupported URL scheme in " ++ url
  | missingHost => "URL has no host"
  | invalidPort port => "invalid port: " ++ port
  | unterminatedBracket => "unterminated IPv6 bracket"

/-- A place to connect to and the path to ask it for; the host has no brackets around it. -/
structure Endpoint where
  scheme : Scheme
  host : String
  port : UInt16
  path : String
  deriving DecidableEq, Repr

namespace Endpoint

def isSecure (e : Endpoint) : Bool :=
  e.scheme.isSecure

/-- The host and port as a Host header gives them: brackets around a host with a colon, and no
port where it is the scheme's own. -/
def authority (e : Endpoint) : String :=
  let host := if ':' ∈ e.host.toList then "[" ++ e.host ++ "]" else e.host
  if e.port = e.scheme.defaultPort then host
  else host ++ ":" ++ String.ofList (Text.decimal e.port.toNat)

def url (e : Endpoint) : String :=
  e.scheme.name ++ "://" ++ e.authority ++ e.path

/-- Whether two endpoints name the same host, in any letter case, and the same port. -/
def sameHost (a b : Endpoint) : Bool :=
  Text.eqIgnoringCase a.host b.host && a.port == b.port

@[simp] theorem sameHost_refl (e : Endpoint) : e.sameHost e = true := by
  simp [sameHost]

theorem sameHost_comm (a b : Endpoint) : a.sameHost b = b.sameHost a := by
  simp [sameHost, Text.eqIgnoringCase_comm a.host, Bool.beq_comm (a := a.port)]

theorem sameHost_trans {a b c : Endpoint} (ab : a.sameHost b = true) (bc : b.sameHost c = true) :
    a.sameHost c = true := by
  simp only [sameHost, Bool.and_eq_true, beq_iff_eq] at *
  exact ⟨Text.eqIgnoringCase_trans ab.1 bc.1, ab.2.trans bc.2⟩

end Endpoint

end WebClient
