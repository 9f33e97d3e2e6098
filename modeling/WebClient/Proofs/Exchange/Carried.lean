import WebClient.Proofs.Exchange.Credentials
import WebClient.Proofs.Http.Headers

/-!
# What a chain carries on

A hop does two things to a request besides giving it the path of the next endpoint: it may turn it
into a GET without a body, and it may take the credentials from it. How often and in which order
this happens makes no difference (`carried_carried`), so the request of every stop is what one hop
would have left of the first request that did both, if any hop on the way did
(`Stop.request_of_trail`). The Host field is left out by every hop, and the connection fills in the
endpoint it goes to.
-/

namespace WebClient.Exchange

open Http

/-! ### One hop -/

def bodyFields : List String :=
  ["Content-Length", "Transfer-Encoding", "Content-Type"]

def credentialFields : List String :=
  ["Authorization", "Cookie"]

/-- The fields that a hop leaves out, if it turns a request into a GET, and if it goes to another
host. -/
def leftOut (turned moved : Bool) : List String :=
  (if turned then bodyFields else []) ++ (if moved then credentialFields else []) ++ ["Host"]

def carried (original : Request) (turned moved : Bool) (path : String) : Request where
  method := if turned then .get else original.method
  path
  headers := original.headers.without (leftOut turned moved)
  body := if turned then none else original.body

theorem mem_leftOut {turned moved : Bool} {name : String} : name ∈ leftOut turned moved ↔
    (turned = true ∧ name ∈ bodyFields ∨ moved = true ∧ name ∈ credentialFields) ∨
      name = "Host" := by
  cases turned <;> cases moved <;> simp [leftOut, or_assoc]

theorem asGet_eq (request : Request) :
    asGet request = { request with
      method := .get, body := none, headers := request.headers.without bodyFields } := by
  simp only [asGet, Request.eraseHeader, Headers.erase_eq_without, Headers.without_without]
  rfl

theorem withoutCredentials_eq (request : Request) :
    withoutCredentials request =
      { request with headers := request.headers.without credentialFields } := by
  simp only [withoutCredentials, Request.eraseHeader, Headers.erase_eq_without,
    Headers.without_without]
  rfl

theorem redirected_eq_carried (endpoint target : Endpoint) (status : Nat) (request : Request) :
    redirected endpoint target status request =
      carried request (turnsIntoGet status request.method) (!target.sameHost endpoint)
        target.path := by
  unfold redirected carried leftOut
  simp only [asGet_eq, withoutCredentials_eq, Request.eraseHeader, Headers.erase_eq_without]
  cases turnsIntoGet status request.method <;> cases target.sameHost endpoint
  all_goals
    simp only [if_true, if_false, Bool.false_eq_true, Bool.not_true, Bool.not_false,
      Headers.without_without, List.nil_append, List.append_nil]

/-- Two hops leave what one hop leaves that does what either of them does. -/
theorem carried_carried (original : Request) (turned moved turned' moved' : Bool)
    (path path' : String) :
    carried (carried original turned moved path) turned' moved' path' =
      carried original (turned || turned') (moved || moved') path' := by
  have hheaders : (original.headers.without (leftOut turned moved)).without
        (leftOut turned' moved') =
      original.headers.without (leftOut (turned || turned') (moved || moved')) := by
    rw [Headers.without_without]
    refine Headers.without_congr (fun name => ?_) _
    simp only [List.mem_append, mem_leftOut, Bool.or_eq_true]
    tauto
  simp only [carried, hheaders]
  cases turned <;> cases turned' <;> rfl

theorem Channel.values_host_prepare {channel : Channel} {request : Request}
    (h : request.headers.has "Host" = false) :
    (channel.prepare request).headers.values "Host" = [channel.endpoint.authority] := by
  have hfill (name value : String) (hother : Headers.values [⟨name, value⟩] "Host" = [])
      (request : Request) :
      (if request.headers.has name then request else request.setHeader name value).headers.values
        "Host" = request.headers.values "Host" := by
    split
    · rfl
    · next hnot =>
      rw [Request.setHeader, Headers.set_of_not_has value (eq_false_of_ne_true hnot),
        Headers.values_append, hother, List.append_nil]
  have hconnection := hfill "Connection" "close" (by decide +kernel)
  have hcoding := hfill "Accept-Encoding" ContentCoding.accepted (by decide +kernel)
  have hhost : (request.setHeader "Host" channel.endpoint.authority).headers.values "Host" =
      [channel.endpoint.authority] := by
    rw [Request.setHeader, Headers.set_of_not_has _ h, Headers.values_append,
      Headers.values_eq_nil h, Headers.values_singleton, List.nil_append]
  simp only [prepare, ContentCoding.prepare, h, Bool.false_eq_true, if_false]
  split
  · rw [hcoding, hconnection, hhost]
  · rw [hconnection, hhost]

theorem turnsIntoGet_iff {status : Nat} {method : Method} : turnsIntoGet status method = true ↔
    status = 303 ∧ method ≠ .head ∨ (status = 301 ∨ status = 302) ∧ method = .post := by
  unfold turnsIntoGet
  split <;> simp_all

/-! ### Trails -/

namespace Stop

def TurnedBy (stop : Stop) (response : Response) : Prop :=
  response.status = 303 ∧ stop.request.method ≠ .head ∨
    (response.status = 301 ∨ response.status = 302) ∧ stop.request.method = .post

/-- One of the first hops of a trail turns the request into a GET. -/
def TurnsIntoGet (start : Stop) (responses : List Response) (hops : Nat) : Prop :=
  ∃ i < hops, ∃ asked response, (start.trail responses)[i]? = some asked ∧
    responses[i]? = some response ∧ asked.TurnedBy response

/-- One of the first hops of a trail goes to another host. -/
def ChangesHost (start : Stop) (responses : List Response) (hops : Nat) : Prop :=
  ∃ i < hops, ∃ asked next, (start.trail responses)[i]? = some asked ∧
    (start.trail responses)[i + 1]? = some next ∧
    next.endpoint.sameHost asked.endpoint = false

variable {start stop : Stop} {response : Response} {responses : List Response} {hop : Hop}
  {hops : Nat}

theorem trail_cons
    (h : start.config.onResponse start.endpoint start.request response start.hops =
      .ok (.follow hop)) :
    start.trail (response :: responses) = start :: hop.stop.trail responses := by
  rw [trail, h]

theorem exists_hop_of_trail (h : (start.trail responses)[hops + 1]? = some stop) :
    ∃ response rest hop, responses = response :: rest ∧
      start.config.onResponse start.endpoint start.request response start.hops =
        .ok (.follow hop) ∧ (hop.stop.trail rest)[hops]? = some stop := by
  cases responses with
  | nil => simp [trail] at h
  | cons response rest =>
    unfold trail at h
    split at h
    · next hop hfollow => exact ⟨response, rest, hop, rfl, hfollow, h⟩
    · simp at h

theorem trail_zero (start : Stop) (responses : List Response) :
    (start.trail responses)[0]? = some start := by
  obtain ⟨rest, hrest⟩ := exists_trail_eq_cons start responses
  rw [hrest]
  rfl

theorem turnsIntoGet_cons
    (h : start.config.onResponse start.endpoint start.request response start.hops =
      .ok (.follow hop)) :
    start.TurnsIntoGet (response :: responses) (hops + 1) ↔
      start.TurnedBy response ∨ hop.stop.TurnsIntoGet responses hops := by
  rw [TurnsIntoGet, Nat.exists_lt_succ_left, TurnsIntoGet, trail_cons h]
  simp

theorem changesHost_cons
    (h : start.config.onResponse start.endpoint start.request response start.hops =
      .ok (.follow hop)) :
    start.ChangesHost (response :: responses) (hops + 1) ↔
      hop.endpoint.sameHost start.endpoint = false ∨ hop.stop.ChangesHost responses hops := by
  have hnext := trail_zero hop.stop responses
  have hendpoint : hop.stop.endpoint = hop.endpoint := rfl
  rw [ChangesHost, Nat.exists_lt_succ_left, ChangesHost, trail_cons h]
  simp [hnext, hendpoint]

theorem request_of_follow
    (h : start.config.onResponse start.endpoint start.request response start.hops =
      .ok (.follow hop)) :
    hop.stop.request = carried start.request (turnsIntoGet response.status start.request.method)
      (!hop.endpoint.sameHost start.endpoint) hop.endpoint.path := by
  obtain ⟨-, location, target, bound, -, -, -, rfl⟩ := Config.onResponse_eq_follow h
  exact redirected_eq_carried start.endpoint target response.status start.request

/-- What is left of the first request at a stop, by what the hops before it did. -/
theorem request_of_trail (h : (start.trail responses)[hops + 1]? = some stop) :
    ∃ turned moved, stop.request = carried start.request turned moved stop.endpoint.path ∧
      (turned = true ↔ start.TurnsIntoGet responses (hops + 1)) ∧
      (moved = true ↔ start.ChangesHost responses (hops + 1)) := by
  induction hops generalizing start responses with
  | zero =>
    obtain ⟨response, rest, hop, rfl, hfollow, hlast⟩ := exists_hop_of_trail h
    rw [trail_zero] at hlast
    obtain rfl := Option.some.inj hlast
    refine ⟨_, _, request_of_follow hfollow, ?_, ?_⟩
    · rw [turnsIntoGet_cons hfollow, turnsIntoGet_iff]
      simp [TurnedBy, TurnsIntoGet]
    · rw [changesHost_cons hfollow]
      simp [ChangesHost]
  | succ hops ih =>
    obtain ⟨response, rest, hop, rfl, hfollow, hlast⟩ := exists_hop_of_trail h
    obtain ⟨turned, moved, hrequest, hturned, hmoved⟩ := ih hlast
    rw [request_of_follow hfollow, carried_carried] at hrequest
    refine ⟨_, _, hrequest, ?_, ?_⟩
    · rw [turnsIntoGet_cons hfollow, ← hturned, Bool.or_eq_true, turnsIntoGet_iff]
      rfl
    · rw [changesHost_cons hfollow, ← hmoved, Bool.or_eq_true, Bool.not_eq_true']

/-- **What a chain does to a request.** The request of every stop that a hop leads to has the path
of its endpoint and no Host field, so that the connection sends the one of the endpoint. It is the
first request until the first hop that turns it into a GET, and from that hop on it is a GET without
a body and without the fields that describe one. What else it has lost are the credentials, once a
hop has changed the host. -/
theorem carried_of_trail (h : (start.trail responses)[hops + 1]? = some stop) :
    stop.request.path = stop.endpoint.path ∧ stop.request.headers.has "Host" = false ∧
      (∀ channel : Channel, channel.endpoint = stop.endpoint →
        (channel.prepare stop.request).headers.values "Host" = [stop.endpoint.authority]) ∧
      ∃ dropped : List String,
        (¬ start.ChangesHost responses (hops + 1) ∧ dropped = [] ∨
          start.ChangesHost responses (hops + 1) ∧ dropped = ["Authorization", "Cookie"]) ∧
        (¬ start.TurnsIntoGet responses (hops + 1) →
          stop.request.method = start.request.method ∧ stop.request.body = start.request.body ∧
            stop.request.headers = start.request.headers.without (dropped ++ ["Host"])) ∧
        (start.TurnsIntoGet responses (hops + 1) →
          stop.request.method = .get ∧ stop.request.body = none ∧
            stop.request.headers = start.request.headers.without
              (["Content-Length", "Transfer-Encoding", "Content-Type"] ++ dropped ++
                ["Host"])) := by
  obtain ⟨turned, moved, hrequest, hturned, hmoved⟩ := request_of_trail h
  have hhost : stop.request.headers.has "Host" = false := by
    rw [hrequest]
    exact Headers.has_without (mem_leftOut.2 (.inr rfl)) _
  refine ⟨by rw [hrequest, carried], hhost, fun channel hchannel => ?_,
    if moved then credentialFields else [], ?_, fun hnot => ?_, fun hturns => ?_⟩
  · rw [Channel.values_host_prepare hhost, hchannel]
  · rw [← hmoved]
    cases moved <;> simp [credentialFields]
  · obtain rfl : turned = false := eq_false_of_ne_true fun hturns => hnot (hturned.1 hturns)
    rw [hrequest]
    exact ⟨rfl, rfl, rfl⟩
  · obtain rfl : turned = true := hturned.2 hturns
    rw [hrequest]
    exact ⟨rfl, rfl, rfl⟩

def upload : Stop where
  endpoint := ⟨.http, "a.example", 80, "/"⟩
  request :=
    { method := .post, path := "/", body := some [1]
      headers := [⟨"Host", "a.example"⟩, ⟨"Content-Type", "text/plain"⟩, ⟨"Cookie", "id=1"⟩,
        ⟨"Accept", "*/*"⟩] }
  config := { origin := ⟨0, "http://a.example/"⟩ }
  hops := 0

/-- A redirect that keeps a POST, to another host, and one that does not. -/
def handover : List Response :=
  [{ status := 307, headers := [⟨"Location", "//b.example/in"⟩] },
    { status := 303, headers := [⟨"Location", "/out"⟩] }]

/-- Where the handover leads after some hops. -/
def handoverStop (path : String) (method : Method) (headers : Headers) (body : Option Bytes)
    (hops : UInt32) : Stop where
  endpoint := ⟨.http, "b.example", 80, path⟩
  request := { method, path, headers, body }
  config := upload.config
  hops := hops

/-- The upload is handed over as it is but for its credential, and then turned into a GET. -/
theorem carried_handover :
    let posted := handoverStop "/in" .post [⟨"Content-Type", "text/plain"⟩, ⟨"Accept", "*/*"⟩]
      (some [1]) 1
    let got := handoverStop "/out" .get [⟨"Accept", "*/*"⟩] none 2
    upload.trail handover = [upload, posted, got] ∧
      posted.request.headers = upload.request.headers.without
        (["Authorization", "Cookie"] ++ ["Host"]) ∧
      got.request.headers = upload.request.headers.without
        (["Content-Length", "Transfer-Encoding", "Content-Type"] ++ ["Authorization", "Cookie"] ++
          ["Host"]) ∧
      ∀ channel : Channel, channel.endpoint = got.endpoint →
        (channel.prepare got.request).headers.values "Host" = [got.endpoint.authority] := by
  intro posted got
  have htrail : upload.trail handover = [upload, posted, got] := by decide +kernel
  have hother : posted.endpoint.sameHost upload.endpoint = false := by decide +kernel
  have hposted : (upload.trail handover)[0 + 1]? = some posted := by rw [htrail]; rfl
  have hgot : (upload.trail handover)[1 + 1]? = some got := by rw [htrail]; rfl
  have hmoves (hops : Nat) : upload.ChangesHost handover (hops + 1) :=
    ⟨0, Nat.succ_pos hops, upload, posted, by rw [htrail]; rfl, hposted, hother⟩
  have hturns : upload.TurnsIntoGet handover 2 :=
    ⟨1, by decide, posted, _, hposted, rfl, .inl ⟨rfl, by decide⟩⟩
  have hkeeps : ¬ upload.TurnsIntoGet handover 1 := by
    rintro ⟨i, hi, asked, response, hasked, hresponse, hturned⟩
    obtain rfl : i = 0 := by omega
    obtain rfl := Option.some.inj hresponse
    rcases hturned with ⟨hstatus, -⟩ | ⟨hstatus | hstatus, -⟩ <;> nomatch hstatus
  obtain ⟨-, -, -, dropped, hdropped, hkept, -⟩ := carried_of_trail hposted
  obtain ⟨-, rfl⟩ := hdropped.resolve_left fun h => h.1 (hmoves 0)
  obtain ⟨-, -, hhost, dropped, hdropped, -, hget⟩ := carried_of_trail hgot
  obtain ⟨-, rfl⟩ := hdropped.resolve_left fun h => h.1 (hmoves 1)
  exact ⟨htrail, (hkept hkeeps).2.2, (hget hturns).2.2, hhost⟩

end Stop

end WebClient.Exchange
