import WebClient.Endpoint.Basic
import WebClient.Http.ContentCoding
import WebClient.Http.Request.Writer
import WebClient.Net.Stream

/-!
# Errors of an exchange

Why a request is not answered: its pipeline cannot be built, its URL or a location on the way leads
nowhere, or something fails between the two ends of a connection.
-/

namespace WebClient.Exchange

inductive TlsError where
  | invalidHostName
  | handshake (e : StreamError)
  deriving DecidableEq, Repr

def TlsError.message : TlsError → String
  | invalidHostName => "invalid host name"
  | handshake e => e.message

/-- Why a request is not answered. -/
inductive Error where
  | duplicateStage (name : String)
  | missingStage (name : String)
  | tls (e : TlsError)
  | invalidUrl (e : UrlError)
  | invalidLocation (location : String) (e : UrlError)
  | incompleteResponse
  | write (e : Http.Request.WriteError)
  | read (e : Http.ReadError)
  | content (e : Http.ContentError)
  | stream (e : StreamError)
  deriving DecidableEq, Repr

def Error.message : Error → String
  | duplicateStage name => "pipeline already has a stage named " ++ name
  | missingStage name => "pipeline has no " ++ name ++ " stage"
  | tls e => "TLS setup failed: " ++ e.message
  | invalidUrl e => "invalid URL: " ++ e.message
  | invalidLocation location e =>
    "invalid redirect location " ++ Text.quoted location ++ ": " ++ e.message
  | incompleteResponse => "connection closed before a complete response"
  | write e => e.message
  | read e => e.message
  | content e => e.message
  | stream e => e.message

end WebClient.Exchange
