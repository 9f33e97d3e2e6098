import Mathlib.Data.List.Chain
import WebClient.Proofs.Exchange.Bound

/-!
# Credentials along a chain

What proves who sends a request are its Authorization and Cookie fields. One hop drops them when it
goes to another host than the one that sent it there, and hands all of them on otherwise
(`Stop.HandsOn`). No hop looks at where the chain began, and none needs to: being on the same host
is an equivalence, so the credentials of a stop are those of the start as long as no stop up to it
was on another host, and none from the first such stop on (`Stop.credentials_of_isChain`). A chain
that comes back to its first host comes without them.

The redirect stage alone, asked again and again with whatever responses, goes along a `Stop.trail`.
The requests of a chain over a network carry besides what each connection fills in, which is no
credential.
-/

namespace WebClient

/-! ### Credentials -/

namespace Http

def isCredential (name : String) : Bool :=
  Text.eqIgnoringCase name "Authorization" || Text.eqIgnoringCase name "Cookie"

def Request.credentials (request : Request) : Headers :=
  request.headers.filter (isCredential ·.name)

theorem isCredential_congr {a b : String} (h : Text.eqIgnoringCase a b) :
    isCredential a = isCredential b := by
  rw [Text.eqIgnoringCase_iff] at h
  simp only [isCredential, Text.eqIgnoringCase, h]

theorem Request.credentials_eq_nil_iff {request : Request} :
    request.credentials = [] ↔
      request.headers.has "Authorization" = false ∧ request.headers.has "Cookie" = false := by
  simp only [credentials, isCredential, Headers.has, Field.isNamed, List.filter_eq_nil_iff,
    List.any_eq_false, Bool.or_eq_true, not_or, forall_and]

theorem Request.credentials_eraseHeader (request : Request) {name : String}
    (hname : isCredential name = false) :
    (request.eraseHeader name).credentials = request.credentials := by
  simp only [credentials, eraseHeader, Headers.erase, List.filter_filter]
  refine List.filter_congr fun field _ => ?_
  cases hnamed : field.isNamed name with
  | false => simp
  | true => simp [isCredential_congr hnamed, hname]

theorem Request.credentials_setHeader (request : Request) {name : String} (value : String)
    (hname : isCredential name = false) :
    (request.setHeader name value).credentials = request.credentials := by
  simp only [credentials, setHeader]
  induction request.headers with
  | nil => simp [Headers.set, hname]
  | cons field rest ih =>
    unfold Headers.set
    cases hnamed : field.isNamed name with
    | false => simp [List.filter_cons, ih]
    | true => simp [(isCredential_congr hnamed).trans hname]

end Http

namespace Exchange

open Http

/-! ### One hop -/

theorem credentials_asGet (request : Request) :
    (asGet request).credentials = request.credentials := by
  unfold asGet
  rw [Request.credentials_eraseHeader _ (by decide +kernel),
    Request.credentials_eraseHeader _ (by decide +kernel),
    Request.credentials_eraseHeader _ (by decide +kernel)]
  rfl

theorem credentials_withoutCredentials (request : Request) :
    (withoutCredentials request).credentials = [] := by
  refine Request.credentials_eq_nil_iff.2 ⟨?_, Headers.has_erase _ _⟩
  simp only [withoutCredentials, Request.eraseHeader, Headers.has, Headers.erase, List.any_eq_false,
    List.mem_filter, Bool.not_eq_true', and_imp]
  exact fun field _ hnamed _ => by simp [hnamed]

theorem credentials_redirected (endpoint target : Endpoint) (status : Nat) (request : Request) :
    (redirected endpoint target status request).credentials =
      if target.sameHost endpoint then request.credentials else [] := by
  have hmethod : (if turnsIntoGet status request.method then asGet request else request).credentials
      = request.credentials := by
    split
    · exact credentials_asGet request
    · rfl
  have hhost (request : Request) (path : String) :
      Request.credentials { request.eraseHeader "Host" with path } = request.credentials :=
    request.credentials_eraseHeader (by decide +kernel)
  simp only [redirected, hhost]
  split
  · exact hmethod
  · exact credentials_withoutCredentials _

theorem Config.credentials_of_follow {config : Config} {endpoint : Endpoint} {request : Request}
    {response : Response} {hops : UInt32} {hop : Hop}
    (h : config.onResponse endpoint request response hops = .ok (.follow hop)) :
    hop.request.credentials =
      if hop.endpoint.sameHost endpoint then request.credentials else [] := by
  obtain ⟨-, location, target, bound, -, -, -, rfl⟩ := onResponse_eq_follow h
  exact credentials_redirected endpoint target response.status request

theorem Channel.credentials_prepare (channel : Channel) (request : Request) :
    (channel.prepare request).credentials = request.credentials := by
  have hset (name value : String) (hname : isCredential name = false) (request : Request) :
      (if request.headers.has name then request else request.setHeader name value).credentials =
        request.credentials := by
    split
    · rfl
    · exact request.credentials_setHeader value hname
  have hhost := hset "Host" channel.endpoint.authority (by decide +kernel)
  have hconnection := hset "Connection" "close" (by decide +kernel)
  have hcoding := hset "Accept-Encoding" ContentCoding.accepted (by decide +kernel)
  simp only [prepare, ContentCoding.prepare]
  split
  · rw [hcoding, hconnection, hhost]
  · rw [hconnection, hhost]

/-! ### Whole chains -/

namespace Stop

/-- That the next stop of a chain has the credentials of a stop if it is on the same host, and none
otherwise. -/
def HandsOn (stop next : Stop) : Prop :=
  next.request.credentials =
    if next.endpoint.sameHost stop.endpoint then stop.request.credentials else []

/-- The credentials of a stop are those of the start while no stop up to it was on another host. -/
theorem credentials_of_isChain {start stop : Stop} {before after : List Stop}
    (h : (before ++ stop :: after).IsChain HandsOn)
    (hstart : (before ++ [stop]).head? = some start) :
    stop.request.credentials =
      if ∀ visited ∈ before ++ [stop], visited.endpoint.sameHost start.endpoint then
        start.request.credentials else [] := by
  induction before generalizing start with
  | nil =>
    obtain rfl : stop = start := Option.some.inj hstart
    simp
  | cons first before ih =>
    obtain rfl : first = start := Option.some.inj hstart
    obtain ⟨next, hnext⟩ : ∃ next, (before ++ [stop]).head? = some next :=
      Option.ne_none_iff_exists'.1 (by simp)
    rw [List.cons_append, List.isChain_cons] at h
    have hhands : HandsOn first next := h.1 next (by simpa [List.head?_append] using hnext)
    rw [ih h.2 hnext, hhands]
    by_cases hsame : next.endpoint.sameHost first.endpoint
    · -- Comparing with the next stop is comparing with the first.
      rw [if_pos hsame]
      refine if_congr ⟨fun hall visited hvisited => ?_, fun hall visited hvisited => ?_⟩ rfl rfl
      · rcases List.mem_cons.1 hvisited with rfl | hvisited
        · exact Endpoint.sameHost_refl _
        · exact Endpoint.sameHost_trans (hall visited hvisited) hsame
      · rw [Endpoint.sameHost_comm] at hsame
        exact Endpoint.sameHost_trans (hall visited (List.mem_cons_of_mem _ hvisited)) hsame
    · have hother :
          ¬ ∀ visited ∈ first :: before ++ [stop], visited.endpoint.sameHost first.endpoint :=
        fun hall => hsame (hall next (List.mem_cons_of_mem _ (List.mem_of_mem_head? hnext)))
      rw [if_neg hsame, ite_self, if_neg hother]

theorem credentials_eq_nil_of_isChain {stop : Stop} {after : List Stop}
    (h : (stop :: after).IsChain HandsOn) (hnone : stop.request.credentials = []) :
    ∀ later ∈ after, later.request.credentials = [] := by
  induction after generalizing stop with
  | nil => simp
  | cons next after ih =>
    obtain ⟨hhands, hrest⟩ := List.isChain_cons_cons.1 h
    have hnext : next.request.credentials = [] := by rw [hhands, hnone, ite_self]
    exact List.forall_mem_cons.2 ⟨hnext, ih hrest hnext⟩

/-! ### Trails of the redirect stage -/

/-- The stops that the redirect stage goes along when it is given some responses, one at each. -/
def trail (stop : Stop) : List Response → List Stop
  | [] => [stop]
  | response :: responses =>
    match stop.config.onResponse stop.endpoint stop.request response stop.hops with
    | .ok (.follow hop) => stop :: hop.stop.trail responses
    | _ => [stop]

theorem exists_trail_eq_cons (stop : Stop) (responses : List Response) :
    ∃ rest, stop.trail responses = stop :: rest := by
  unfold trail
  split
  · exact ⟨[], rfl⟩
  · split
    · exact ⟨_, rfl⟩
    · exact ⟨[], rfl⟩

theorem isChain_trail (stop : Stop) (responses : List Response) :
    (stop.trail responses).IsChain HandsOn := by
  induction responses generalizing stop with
  | nil => exact .singleton stop
  | cons response responses ih =>
    unfold trail
    split
    · next hop hfollow =>
      obtain ⟨rest, hrest⟩ := exists_trail_eq_cons hop.stop responses
      have htrail := ih hop.stop
      rw [hrest] at htrail ⊢
      exact .cons_cons (Config.credentials_of_follow hfollow) htrail
    · exact .singleton stop

/-- **Credentials stay on their host.** Wherever responses lead a chain, a stop that has credentials
is on the host of the start, as is every stop before it. Up to there nothing is lost, and what has
been dropped does not come back, not even where the chain does. -/
theorem credentials_of_trail {start stop : Stop} {responses : List Response}
    {before after : List Stop} (h : start.trail responses = before ++ stop :: after) :
    (stop.request.credentials ≠ [] →
      ∀ visited ∈ before ++ [stop], visited.endpoint.sameHost start.endpoint) ∧
    ((∀ visited ∈ before ++ [stop], visited.endpoint.sameHost start.endpoint) →
      stop.request.credentials = start.request.credentials) ∧
    (stop.request.credentials = [] → ∀ later ∈ after, later.request.credentials = []) := by
  have hchain := isChain_trail start responses
  obtain ⟨rest, hrest⟩ := exists_trail_eq_cons start responses
  rw [h] at hchain hrest
  have hstart : (before ++ [stop]).head? = some start := by
    simpa [List.head?_append] using congrArg List.head? hrest
  have hstop := credentials_of_isChain hchain hstart
  refine ⟨fun hkept => ?_, fun hall => by rw [hstop, if_pos hall],
    credentials_eq_nil_of_isChain hchain.right_of_append⟩
  by_contra hother
  exact hkept (by rw [hstop, if_neg hother])

def withLogin : Stop where
  endpoint := ⟨.http, "a.example", 80, "/"⟩
  request :=
    { method := .get, path := "/"
      headers := [⟨"Authorization", "Basic YTpi"⟩, ⟨"Cookie", "id=1"⟩, ⟨"Accept", "*/*"⟩] }
  config := { origin := ⟨0, "http://a.example/"⟩ }
  hops := 0

/-- Redirects to the same host, to another one and back. -/
def detour : List Response :=
  [{ status := 302, headers := [⟨"Location", "http://a.example/in"⟩] },
    { status := 307, headers := [⟨"Location", "//b.example/out"⟩] },
    { status := 308, headers := [⟨"Location", "http://a.example/"⟩] }]

/-- Where the detour leads after some hops, with the credentials that are left. -/
def detourStop (host path : String) (credentials : Headers) (hops : UInt32) : Stop where
  endpoint := ⟨.http, host, 80, path⟩
  request := { method := .get, path, headers := credentials ++ [⟨"Accept", "*/*"⟩] }
  config := withLogin.config
  hops := hops

/-- The chain comes back to its first host without the credentials that it took to a page there. -/
theorem credentials_detour :
    withLogin.trail detour =
        [withLogin, detourStop "a.example" "/in" withLogin.request.credentials 1] ++
          detourStop "b.example" "/out" [] 2 :: [detourStop "a.example" "/" [] 3] ∧
      withLogin.request.credentials.length = 2 ∧
      (detourStop "a.example" "/" [] 3).endpoint.sameHost withLogin.endpoint ∧
      (detourStop "a.example" "/" [] 3).request.credentials = [] := by
  have htrail : withLogin.trail detour =
      [withLogin, detourStop "a.example" "/in" withLogin.request.credentials 1] ++
        detourStop "b.example" "/out" [] 2 :: [detourStop "a.example" "/" [] 3] := by
    decide +kernel
  have hdropped : (detourStop "b.example" "/out" [] 2).request.credentials = [] := by
    decide +kernel
  have hback := (credentials_of_trail htrail).2.2 hdropped (detourStop "a.example" "/" [] 3)
    (List.mem_singleton_self _)
  exact ⟨htrail, by decide +kernel, by decide +kernel, hback⟩

/-! ### Chains over a network -/

theorem handsOn_of_round {stop : Stop} {network : Network} {number : Nat} {hop : Hop}
    (h : stop.round network number = .ok (.follow hop)) : stop.HandsOn hop.stop := by
  obtain ⟨channel, response, -, -, hfollow⟩ := (stop.round_eq_ok_iff network number _).1 h
  have hhands := Config.credentials_of_follow hfollow
  rwa [Channel.credentials_prepare] at hhands

theorem isChain_visits (stop : Stop) (network : Network) (number : Nat) :
    ((stop.chain network number).visits.map Visit.stop).IsChain HandsOn := by
  refine List.isChain_iff_getElem.2 fun i hi => ?_
  rw [List.length_map] at hi
  have hnext := after_of_visits (List.getElem?_eq_getElem hi)
  have hhere := after_of_visits (List.getElem?_eq_getElem (Nat.lt_of_succ_lt hi))
  obtain ⟨before, hop, hbefore, hround, hstop⟩ := exists_round_of_lt hnext (Nat.lt_succ_self i)
  obtain rfl := Option.some.inj (hhere.symm.trans hbefore)
  have hhop := Option.some.inj (hnext.symm.trans hstop)
  simp only [List.getElem_map, hhop]
  exact handsOn_of_round hround

theorem stop_of_head? {stop : Stop} {network : Network} {number : Nat} {first : Visit}
    (h : (stop.chain network number).visits.head? = some first) : first.stop = stop := by
  rw [List.head?_eq_getElem?] at h
  exact (Option.some.inj (after_of_visits h)).symm

theorem credentials_of_first? {start : Stop} {url : String} {request : Request} {config : Config}
    (h : first? url request config = .ok start) :
    start.request.credentials = request.credentials := by
  obtain ⟨endpoint, tls, -, rfl⟩ := first?_eq_ok h
  rfl

end Stop

/-- What goes over the connections of a chain from a URL: the credentials of the request, as long as
none of them was to another host than the first, and no credentials from then on. -/
theorem Chain.credentials_of_visits {network : Network} {url : String} {request : Request}
    {config : Config} {start : Stop} (hstart : Stop.first? url request config = .ok start)
    {before after : List Visit} {visit : Visit}
    (h : (send network url request config).visits = before ++ visit :: after) :
    (visit.channel.prepare visit.request).credentials =
      if ∀ visited ∈ before ++ [visit], visited.channel.endpoint.sameHost start.endpoint then
        request.credentials else [] := by
  rw [send_of_start hstart] at h
  have hchain := start.isChain_visits network 0
  rw [h, List.map_append, List.map_cons] at hchain
  have hmap : before.map Visit.stop ++ [visit.stop] = (before ++ [visit]).map Visit.stop := by simp
  obtain ⟨first, hfirst⟩ : ∃ first, (before ++ [visit]).head? = some first :=
    Option.ne_none_iff_exists'.1 (by simp)
  have hhead : (before.map Visit.stop ++ [visit.stop]).head? = some start := by
    have hvisits : (start.chain network 0).visits.head? = some first := by
      rw [h, ← hfirst]
      simp [List.head?_append]
    rw [hmap, List.head?_map, hfirst, Option.map_some, Stop.stop_of_head? hvisits]
  have hvisit := Stop.credentials_of_isChain hchain hhead
  simp only [hmap, List.forall_mem_map, Stop.credentials_of_first? hstart] at hvisit
  rw [Channel.credentials_prepare]
  exact hvisit

end Exchange

end WebClient
