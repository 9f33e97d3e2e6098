import WebClient.Exchange.Channel
import WebClient.Endpoint.Parse

/-!
# Redirect chains

A request is sent to its URL and on to wherever redirects lead, on a fresh connection each time,
until a response is delivered or something fails. The number of hops made travels along the chain
and never exceeds the number that the configuration allows (`hops_lt_of_follow`), which is why a
chain ends.
-/

namespace WebClient.Exchange

open Http

/-- One connection of a chain: what it was opened with, what was asked after how many hops, and what
came of it. -/
structure Visit where
  channel : Channel
  config : Config
  request : Request
  hops : UInt32
  exchanged : Exchanged

structure Chain where
  visits : List Visit
  result : Except Error Response

namespace Chain

/-- A hop is made only by a chain that may make one more, and leaves what it may make alone. -/
theorem hops_lt_of_follow {network : Network} {number : Nat} {endpoint : Endpoint}
    {config : Config} {channel : Channel} {request : Request} {hops : UInt32} {hop : Hop}
    (hc : Channel.connect network number endpoint config = .ok channel)
    (h : (channel.exchange request hops).action = .ok (.follow hop)) :
    hop.config.settings.maxRedirects.toNat - hop.hops.toNat <
      config.settings.maxRedirects.toNat - hops.toNat := by
  obtain ⟨response, hr⟩ := Channel.onResponse_of_exchange (Channel.redirect?_of_connect hc) h
  obtain ⟨hlt, hn, hs⟩ := Config.hops_of_follow hr
  rw [hs, hn]
  have := UInt32.lt_iff_toNat_lt.1 hlt
  omega

/-- The rest of a chain, from the connection with a number on. -/
def followFrom (network : Network) (number : Nat) (endpoint : Endpoint) (request : Request)
    (config : Config) (hops : UInt32) : Chain :=
  match _hc : Channel.connect network number endpoint config with
  | .error e => { visits := [], result := .error e }
  | .ok channel =>
    let exchanged := channel.exchange request hops
    let visit : Visit := { channel, config, request, hops, exchanged }
    match _h : exchanged.action with
    | .error e => { visits := [visit], result := .error e }
    | .ok (.deliver response) => { visits := [visit], result := .ok response }
    | .ok (.follow hop) =>
      let rest := followFrom network (number + 1) hop.endpoint hop.request hop.config hop.hops
      { rest with visits := visit :: rest.visits }
termination_by config.settings.maxRedirects.toNat - hops.toNat
decreasing_by exact hops_lt_of_follow _hc _h

/-- Sends a request to a URL, whose path becomes the target of the request, and follows
redirects. -/
def send (network : Network) (url : String) (request : Request) (config : Config) : Chain :=
  match Endpoint.parse url with
  | .error e => { visits := [], result := .error (.invalidUrl e) }
  | .ok endpoint =>
    match config.bindTls? endpoint with
    | none => { visits := [], result := .error (.tls .invalidHostName) }
    | some config => followFrom network 0 endpoint { request with path := endpoint.path } config 0

end Chain

end WebClient.Exchange
