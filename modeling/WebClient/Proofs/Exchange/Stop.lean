import WebClient.Exchange.Chain

/-!
# The stops of a chain

A chain of redirects goes from stop to stop: at each it has an endpoint to ask, a request to ask it
with, a configuration to connect with, and the number of hops made so far. A response either ends
the chain (`EndsChain`) or leads on, and `onResponse_eq_deliver_iff` and `onResponse_eq_follow` say
all that the redirect stage makes of it. A round of a chain over a network is a connection, an
exchange and the word of the redirect stage on what came back (`Stop.round_eq_ok_iff`); `Stop.after`
is where a chain stands after so many rounds.
-/

namespace WebClient

/-- Whether a response is the last of a chain that may make `budget` hops and has made `hops`. -/
def Http.Response.EndsChain (response : Http.Response) (budget hops : UInt32) : Prop :=
  response.status ∉ [301, 302, 303, 307, 308] ∨ response.headers.get? "Location" = none ∨
    budget ≤ hops

namespace Exchange

open Http

/-! ### What the redirect stage makes of a response -/

theorem Config.onResponse_of_endsChain {config : Config} {endpoint : Endpoint} {request : Request}
    {response : Response} {hops : UInt32}
    (h : response.EndsChain config.settings.maxRedirects hops) :
    config.onResponse endpoint request response hops = .ok (.deliver response) := by
  rcases h with hstatus | hlocation | hbudget
  · have hredirect : response.isRedirect = false := by simpa [Response.isRedirect] using hstatus
    simp [onResponse, hredirect]
  · simp [onResponse, hlocation]
  · -- Whether or not the response would lead on, there is no hop left.
    simp only [onResponse, hbudget, if_true]
    split
    · rfl
    · split <;> rfl

/-- A response that does not end the chain is a redirect, and there is a hop left to where its
location leads from the endpoint. -/
theorem Config.onResponse_of_location {config : Config} {endpoint : Endpoint} {request : Request}
    {response : Response} {hops : UInt32} {location : String}
    (h : ¬ response.EndsChain config.settings.maxRedirects hops)
    (hlocation : response.headers.get? "Location" = some location) :
    config.onResponse endpoint request response hops =
      match endpoint.resolve location with
      | .error e => .error (.invalidLocation location e)
      | .ok target =>
        match config.bindTls? target with
        | none => .error (.tls .invalidHostName)
        | some bound => .ok (.follow {
            endpoint := target
            request := redirected endpoint target response.status request
            config := bound
            status := response.status
            hops := hops + 1 }) := by
  obtain ⟨hstatus, h⟩ := not_or.1 h
  obtain ⟨-, hbudget⟩ := not_or.1 h
  have hredirect : response.isRedirect = true := by
    simpa [Response.isRedirect] using Decidable.not_not.1 hstatus
  cases hresolve : endpoint.resolve location with
  | error e =>
    simp only [onResponse, hredirect, hlocation, hbudget, hresolve, Bool.not_true,
      Bool.false_eq_true, if_false]
  | ok target =>
    cases hbind : config.bindTls? target <;>
      simp only [onResponse, hredirect, hlocation, hbudget, hresolve, hbind, Bool.not_true,
        Bool.false_eq_true, if_false]

theorem Config.onResponse_of_not_endsChain {config : Config} {endpoint : Endpoint}
    {request : Request} {response : Response} {hops : UInt32}
    (h : ¬ response.EndsChain config.settings.maxRedirects hops) :
    (∃ e, config.onResponse endpoint request response hops = .error e) ∨
      ∃ location target bound, response.headers.get? "Location" = some location ∧
        endpoint.resolve location = .ok target ∧ config.bindTls? target = some bound ∧
        config.onResponse endpoint request response hops = .ok (.follow {
          endpoint := target
          request := redirected endpoint target response.status request
          config := bound
          status := response.status
          hops := hops + 1 }) := by
  have hsome : response.headers.get? "Location" ≠ none := fun hnone => h (.inr (.inl hnone))
  obtain ⟨location, hlocation⟩ := Option.ne_none_iff_exists'.1 hsome
  simp only [onResponse_of_location h hlocation, hlocation]
  split
  · exact .inl ⟨_, rfl⟩
  · next target htarget =>
    split
    · exact .inl ⟨_, rfl⟩
    · next bound hbound => exact .inr ⟨location, target, bound, rfl, htarget, hbound, rfl⟩

theorem Config.onResponse_eq_deliver_iff {config : Config} {endpoint : Endpoint}
    {request : Request} {response delivered : Response} {hops : UInt32} :
    config.onResponse endpoint request response hops = .ok (.deliver delivered) ↔
      response.EndsChain config.settings.maxRedirects hops ∧ delivered = response := by
  constructor
  · intro h
    by_cases hends : response.EndsChain config.settings.maxRedirects hops
    · rw [onResponse_of_endsChain hends] at h
      cases h
      exact ⟨hends, rfl⟩
    · rcases onResponse_of_not_endsChain hends with ⟨e, he⟩ | ⟨_, _, _, -, -, -, hfollow⟩
      · rw [he] at h
        nomatch h
      · rw [hfollow] at h
        nomatch h
  · rintro ⟨hends, rfl⟩
    exact onResponse_of_endsChain hends

theorem Config.onResponse_eq_follow {config : Config} {endpoint : Endpoint}
    {request : Request} {response : Response} {hops : UInt32} {hop : Hop}
    (h : config.onResponse endpoint request response hops = .ok (.follow hop)) :
    ¬ response.EndsChain config.settings.maxRedirects hops ∧
      ∃ location target bound, response.headers.get? "Location" = some location ∧
        endpoint.resolve location = .ok target ∧ config.bindTls? target = some bound ∧
        hop = {
          endpoint := target
          request := redirected endpoint target response.status request
          config := bound
          status := response.status
          hops := hops + 1 } := by
  have hends : ¬ response.EndsChain config.settings.maxRedirects hops := by
    intro hends
    rw [onResponse_of_endsChain hends] at h
    nomatch h
  refine ⟨hends, ?_⟩
  rcases onResponse_of_not_endsChain hends with
    ⟨e, he⟩ | ⟨location, target, bound, hlocation, htarget, hbound, hfollow⟩
  · rw [he] at h
    nomatch h
  · rw [hfollow] at h
    cases h
    exact ⟨location, target, bound, hlocation, htarget, hbound, rfl⟩

/-! ### One exchange -/

/-- The response that reaches the redirect stage of a channel: the final one, decoded. -/
def Channel.answer (channel : Channel) (request : Request) : Except Error Response :=
  match channel.write (channel.prepare request) with
  | .error e => .error e
  | .ok sent =>
    let reply := channel.line.reply sent
    match reply.writeFailure, channel.pipeline.decoder? with
    | some e, _ => .error (.stream e)
    | none, none => .error (.missingStage Stage.decoderName)
    | none, some reader =>
      (readResponse reader [] reply.readFailure reply.pieces).2.bind channel.decodeContent

theorem Channel.action_exchange {channel : Channel} {config : Config}
    (hconfig : channel.pipeline.redirect? = some config) (request : Request) (hops : UInt32) :
    (channel.exchange request hops).action = (channel.answer request).bind fun response =>
      config.onResponse channel.endpoint (channel.prepare request) response hops := by
  have hconclude (response : Response) :
      channel.conclude (channel.prepare request) hops response =
        (channel.decodeContent response).bind fun response =>
          config.onResponse channel.endpoint (channel.prepare request) response hops := by
    unfold conclude
    rw [hconfig]
    cases channel.decodeContent response <;> rfl
  cases hwrite : channel.write (channel.prepare request) with
  | error e => simp [exchange, answer, hwrite, Except.bind]
  | ok sent =>
    cases hfailure : (channel.line.reply sent).writeFailure with
    | some e => simp [exchange, answer, hwrite, hfailure, Except.bind]
    | none =>
      cases hdecoder : channel.pipeline.decoder? with
      | none => simp [exchange, answer, hwrite, hfailure, hdecoder, Except.bind]
      | some reader =>
        simp only [exchange, answer, hwrite, hfailure, hdecoder]
        cases (readResponse reader [] (channel.line.reply sent).readFailure
          (channel.line.reply sent).pieces).2 with
        | error e => rfl
        | ok response => exact hconclude response

/-! ### Stops -/

/-- Where a chain stands before it connects. -/
structure Stop where
  endpoint : Endpoint
  request : Request
  config : Config
  hops : UInt32
  deriving DecidableEq

def Hop.stop (hop : Hop) : Stop :=
  { endpoint := hop.endpoint, request := hop.request, config := hop.config, hops := hop.hops }

def Visit.stop (visit : Visit) : Stop where
  endpoint := visit.channel.endpoint
  request := visit.request
  config := visit.config
  hops := visit.hops

namespace Stop

def first? (url : String) (request : Request) (config : Config) : Except Error Stop :=
  match Endpoint.parse url with
  | .error e => .error (.invalidUrl e)
  | .ok endpoint =>
    match config.bindTls? endpoint with
    | none => .error (.tls .invalidHostName)
    | some config =>
      .ok { endpoint, request := { request with path := endpoint.path }, config, hops := 0 }

/-- The rest of a chain, from a stop and the connection with a number on. -/
def chain (stop : Stop) (network : Network) (number : Nat) : Chain :=
  Chain.followFrom network number stop.endpoint stop.request stop.config stop.hops

def answer (stop : Stop) (network : Network) (number : Nat) : Except Error Response :=
  (Channel.connect network number stop.endpoint stop.config).bind (·.answer stop.request)

/-- What a chain does at a stop: it connects and makes one exchange. -/
def round (stop : Stop) (network : Network) (number : Nat) : Except Error Action :=
  (Channel.connect network number stop.endpoint stop.config).bind fun channel =>
    (channel.exchange stop.request stop.hops).action

/-- The stop of a chain after so many rounds, if each of them led on. -/
def after (stop : Stop) (network : Network) (number : Nat) : Nat → Option Stop
  | 0 => some stop
  | rounds + 1 =>
    match stop.round network number with
    | .ok (.follow hop) => hop.stop.after network (number + 1) rounds
    | _ => none

end Stop

theorem Chain.send_eq (network : Network) (url : String) (request : Request) (config : Config) :
    send network url request config =
      match Stop.first? url request config with
      | .error e => { visits := [], result := .error e }
      | .ok stop => stop.chain network 0 := by
  unfold send Stop.first?
  cases Endpoint.parse url with
  | error e => rfl
  | ok endpoint =>
    cases hbound : config.bindTls? endpoint with
    | none => simp only [hbound]
    | some tls =>
      simp only [hbound]
      rfl

theorem Stop.first?_eq_ok {url : String} {request : Request} {config : Config} {start : Stop}
    (h : first? url request config = .ok start) :
    ∃ endpoint tls, Endpoint.parse url = .ok endpoint ∧ start = {
      endpoint
      request := { request with path := endpoint.path }
      config := { config with tls }
      hops := 0 } := by
  unfold first? at h
  split at h
  · nomatch h
  · next endpoint hparse =>
    split at h
    · nomatch h
    · next bound hbound =>
      obtain ⟨tls, rfl⟩ := Config.bindTls?_eq_some hbound
      cases h
      exact ⟨endpoint, tls, hparse, rfl⟩

theorem Channel.exists_line_of_connect {network : Network} {number : Nat} {endpoint : Endpoint}
    {config : Config} {channel : Channel}
    (h : connect network number endpoint config = .ok channel) :
    ∃ line, channel = { endpoint, pipeline := .ofConfig config, line } := by
  simp only [connect, Pipeline.assemble_empty] at h
  split at h <;> simp only [Except.ok.injEq, reduceCtorEq] at h
  exact ⟨_, h.symm⟩

theorem Channel.endpoint_of_connect {network : Network} {number : Nat} {endpoint : Endpoint}
    {config : Config} {channel : Channel}
    (h : connect network number endpoint config = .ok channel) : channel.endpoint = endpoint := by
  obtain ⟨line, rfl⟩ := exists_line_of_connect h
  rfl

namespace Stop

/-- The redirect stage decides on the response that a round brings. -/
theorem round_eq_ok_iff (stop : Stop) (network : Network) (number : Nat) (action : Action) :
    stop.round network number = .ok action ↔ ∃ channel response,
      Channel.connect network number stop.endpoint stop.config = .ok channel ∧
      stop.answer network number = .ok response ∧
      stop.config.onResponse stop.endpoint (channel.prepare stop.request) response stop.hops =
        .ok action := by
  unfold round answer
  cases hconnect : Channel.connect network number stop.endpoint stop.config with
  | error e => simp [Except.bind]
  | ok channel =>
    have haction := Channel.action_exchange (Channel.redirect?_of_connect hconnect) stop.request
      stop.hops
    simp only [Except.bind, haction, Channel.endpoint_of_connect hconnect]
    cases channel.answer stop.request with
    | error e => simp
    | ok response => simp

end Stop

end Exchange

end WebClient
