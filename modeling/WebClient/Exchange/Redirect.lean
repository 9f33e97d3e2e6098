import WebClient.Endpoint.Resolve
import WebClient.Exchange.Config
import WebClient.Exchange.Error

/-!
# Following redirects

A response is either delivered or leads to the next hop of its chain: to another endpoint, asked
with what remains of the request. A redirect is delivered when it names no location and when the
chain has made all the hops it may make.

Some redirects turn the request into a GET without a body. Credentials are for one host, so a hop
to another one drops them. The Host field is left out for the next connection to fill in.
-/

namespace WebClient.Exchange

open Http

/-- The next request of a chain: where it goes, what is asked, what the connection is opened with,
the status that led there, and how many hops have been made with this one. -/
structure Hop where
  endpoint : Endpoint
  request : Request
  config : Config
  status : Nat
  hops : UInt32
  deriving DecidableEq

inductive Action where
  | deliver (response : Response)
  | follow (hop : Hop)
  deriving DecidableEq

def turnsIntoGet (status : Nat) (method : Method) : Bool :=
  match status with
  | 303 => method ≠ .head
  | 301 | 302 => method = .post
  | _ => false

/-- A GET in the place of a request, without the body and the fields that describe one. -/
def asGet (request : Request) : Request :=
  let request := { request with method := .get, body := none }
  ((request.eraseHeader "Content-Length").eraseHeader "Transfer-Encoding").eraseHeader
    "Content-Type"

def withoutCredentials (request : Request) : Request :=
  (request.eraseHeader "Authorization").eraseHeader "Cookie"

/-- What is asked of `target` when `endpoint` has answered a request with a redirect. -/
def redirected (endpoint target : Endpoint) (status : Nat) (request : Request) : Request :=
  let request := if turnsIntoGet status request.method then asGet request else request
  let request := if target.sameHost endpoint then request else withoutCredentials request
  { request.eraseHeader "Host" with path := target.path }

def Config.onResponse (config : Config) (endpoint : Endpoint) (request : Request)
    (response : Response) (hops : UInt32) : Except Error Action :=
  if !response.isRedirect then .ok (.deliver response)
  else match response.headers.get? "Location" with
    | none => .ok (.deliver response)
    | some location =>
      if config.settings.maxRedirects ≤ hops then .ok (.deliver response)
      else match endpoint.resolve location with
        | .error e => .error (.invalidLocation location e)
        | .ok target =>
          match config.bindTls? target with
          | none => .error (.tls .invalidHostName)
          | some config =>
            .ok (.follow {
              endpoint := target
              request := redirected endpoint target response.status request
              config
              status := response.status
              hops := hops + 1 })

theorem Config.bindTls?_eq_some {config bound : Config} {endpoint : Endpoint}
    (h : config.bindTls? endpoint = some bound) : ∃ tls, bound = { config with tls } := by
  unfold bindTls? at h
  split at h
  · split at h
    · simp only [Option.some.injEq] at h
      exact ⟨config.tls, h.symm⟩
    · obtain ⟨tls, -, rfl⟩ := Option.map_eq_some_iff.1 h
      exact ⟨some tls, rfl⟩
  · simp only [Option.some.injEq] at h
    exact ⟨none, h.symm⟩

theorem Config.hops_of_follow {config : Config} {endpoint : Endpoint} {request : Request}
    {response : Response} {hops : UInt32} {hop : Hop}
    (h : config.onResponse endpoint request response hops = .ok (.follow hop)) :
    hops < config.settings.maxRedirects ∧ hop.hops.toNat = hops.toNat + 1 ∧
      hop.config.settings = config.settings := by
  unfold onResponse at h
  split at h
  · simp at h
  · split at h
    · simp at h
    · split at h
      · simp at h
      · next hlt =>
        split at h
        · simp at h
        · split at h
          · simp at h
          · next hb =>
            obtain ⟨tls, rfl⟩ := bindTls?_eq_some hb
            simp only [Except.ok.injEq, Action.follow.injEq] at h
            subst h
            have hlt : hops < config.settings.maxRedirects := by
              simpa [UInt32.not_le] using hlt
            refine ⟨hlt, ?_, rfl⟩
            have := UInt32.lt_iff_toNat_lt.1 hlt
            have := config.settings.maxRedirects.toNat_lt
            simp only [UInt32.toNat_add, UInt32.toNat_one]
            omega

end WebClient.Exchange
