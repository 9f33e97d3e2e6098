import WebClient.Endpoint.Basic
import WebClient.Text.Blank
import WebClient.Text.Split

/-!
# Reading URLs

A URL is read from the left: the scheme up to the first colon and two slashes, the authority up to
the first slash or question mark, and the rest as the path. The fragment is dropped first, so a
number sign ends everything. Of the authority only what follows its last at sign counts. A port is
checked before the host, so a URL with neither a host nor a readable port is refused for its port.
-/

namespace WebClient.Endpoint

def splitScheme? (cs : List Char) : Option (Scheme × List Char) :=
  match Text.splitMarker? [':', '/', '/'] cs with
  | some (name, rest) => (Scheme.ofName? (String.ofList name)).map (·, rest)
  | none => none

def dropFragment (cs : List Char) : List Char :=
  cs.takeWhile (· ≠ '#')

/-- Whether a character ends the authority of a URL without a fragment. -/
def endsAuthority (c : Char) : Bool :=
  c = '/' || c = '?'

def dropUserInfo (authority : List Char) : List Char :=
  match Text.splitLast? '@' authority with
  | some (_, rest) => rest
  | none => authority

/-- The path of a URL, from what follows its authority: a query alone belongs to the root. -/
def pathOf : List Char → List Char
  | [] => ['/']
  | '?' :: query => '/' :: '?' :: query
  | path => path

def readPort (cs : List Char) : Except UrlError UInt16 :=
  match Text.numeral? 10 (Text.maxOfBits 16) cs with
  | some n => .ok (UInt16.ofNat n)
  | none => .error (.invalidPort (String.ofList cs))

/-- The host and port of an authority without user information. Between brackets stands an IPv6
address; what follows the closing bracket counts only if it starts with a colon. -/
def splitHostPort (default : UInt16) (authority : List Char) :
    Except UrlError (List Char × UInt16) :=
  match authority with
  | '[' :: bracketed =>
    match Text.splitFirst? ']' bracketed with
    | none => .error .unterminatedBracket
    | some (host, ':' :: port) => (readPort port).map (host, ·)
    | some (host, _) => .ok (host, default)
  | _ =>
    match Text.splitLast? ':' authority with
    | some (host, port) => (readPort port).map (host, ·)
    | none => .ok (authority, default)

/-- The endpoint a URL names; blanks around the URL are ignored. -/
def parse (url : String) : Except UrlError Endpoint :=
  match splitScheme? (Text.trimChars url.toList) with
  | none => .error (.unsupportedScheme url)
  | some (scheme, rest) =>
    let rest := dropFragment rest
    let authority := dropUserInfo (rest.takeWhile fun c => !endsAuthority c)
    match splitHostPort scheme.defaultPort authority with
    | .error e => .error e
    | .ok ([], _) => .error .missingHost
    | .ok (host, port) =>
      let path := pathOf (rest.dropWhile fun c => !endsAuthority c)
      .ok { scheme, host := String.ofList host, port, path := String.ofList path }

end WebClient.Endpoint
