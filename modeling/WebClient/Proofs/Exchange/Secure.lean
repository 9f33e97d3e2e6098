import WebClient.Proofs.Exchange.Bound
import WebClient.Proofs.Tls.ServerName

/-!
# TLS along a chain

A chain that goes from host to host and from scheme to scheme binds its configuration anew at each
stop. What it connects with there fits the endpoint and is otherwise the caller's
(`Config.BoundTo`), and the pipeline that is assembled from it has the stage for TLS where it should
be (`Pipeline.Serves`). Both hold at every stop of every chain. A secure endpoint whose host is no
server name ends the chain before anything is connected to it.
-/

namespace WebClient

theorem TlsContext.ofHost?_eq_some {host : String} {context : TlsContext}
    (h : ofHost? host = some context) : context.host = host := by
  unfold ofHost? at h
  split at h
  · exact Option.some.inj h ▸ rfl
  · nomatch h

theorem TlsContext.ofHost?_eq_none_iff {host : String} :
    ofHost? host = none ↔ ServerName.parse? host = none := by
  unfold ofHost?
  split
  · next hname => simp [hname]
  · next hname => simp [hname]

namespace Exchange

open Http

/-! ### Binding a configuration to an endpoint -/

/-- A configuration is the one of a caller, bound to an endpoint. -/
structure Config.BoundTo (config caller : Config) (endpoint : Endpoint) : Prop where
  tls_isSome_iff : config.tls.isSome = true ↔ endpoint.scheme = .https ∨ endpoint.scheme = .wss
  host_eq : ∀ context ∈ config.tls, Text.eqIgnoringCase context.host endpoint.host = true
  settings_eq : config.settings = caller.settings
  origin_eq : config.origin = caller.origin

namespace Config

variable {config caller bound : Config} {endpoint : Endpoint}

theorem boundTo_of_bindTls? (h : config.bindTls? endpoint = some bound) :
    bound.BoundTo config endpoint := by
  have hsecure : endpoint.isSecure = true ↔
      endpoint.scheme = .https ∨ endpoint.scheme = .wss := by
    cases hscheme : endpoint.scheme <;> simp [Endpoint.isSecure, Scheme.isSecure, hscheme]
  unfold bindTls? at h
  split at h
  · next htls =>
    split at h
    · next hsame =>
      obtain rfl := Option.some.inj h
      obtain ⟨context, hcontext, hhost⟩ := (Option.any_eq_true _ _).1 hsame
      refine ⟨by simpa [hcontext] using hsecure.1 htls, fun other hother => ?_, rfl, rfl⟩
      obtain rfl := Option.some.inj (hcontext.symm.trans hother)
      exact hhost
    · obtain ⟨context, hcontext, rfl⟩ := Option.map_eq_some_iff.1 h
      refine ⟨by simpa [htls] using hsecure, fun other hother => ?_, rfl, rfl⟩
      obtain rfl := Option.some.inj hother
      rw [TlsContext.ofHost?_eq_some hcontext]
      exact Text.eqIgnoringCase_refl _
  · next hplain =>
    obtain rfl := Option.some.inj h
    exact ⟨by simpa [hplain] using hsecure, nofun, rfl, rfl⟩

/-- Binding fails only where no connection could be made. -/
theorem bindTls?_eq_none_iff : config.bindTls? endpoint = none ↔
    endpoint.isSecure = true ∧ ServerName.parse? endpoint.host = none := by
  unfold bindTls?
  split
  · next hsecure =>
    split
    · next hsame =>
      -- The context is for a name, and its host is the same but for the case of letters.
      obtain ⟨context, -, hhost⟩ := (Option.any_eq_true _ _).1 hsame
      have hname := ServerName.isSome_parse?_of_eqIgnoringCase hhost
      rw [context.isName] at hname
      have hvalid : ServerName.parse? endpoint.host ≠ none :=
        Option.isSome_iff_ne_none.1 hname.symm
      simp [hvalid]
    · rw [Option.map_eq_none_iff, TlsContext.ofHost?_eq_none_iff]
      simp [hsecure]
  · next hplain => simp [hplain]

theorem BoundTo.trans {middle : Endpoint} (h : bound.BoundTo config endpoint)
    (hconfig : config.BoundTo caller middle) : bound.BoundTo caller endpoint where
  tls_isSome_iff := h.tls_isSome_iff
  host_eq := h.host_eq
  settings_eq := h.settings_eq.trans hconfig.settings_eq
  origin_eq := h.origin_eq.trans hconfig.origin_eq

end Config

/-! ### Assembled pipelines -/

/-- A pipeline does what a configuration says: TLS stands next to the stream if there is a context
for it, and nowhere else, and the other stages have their switches from the settings. -/
structure Pipeline.Serves (p : Pipeline) (config : Config) : Prop where
  tls_first : ∀ context ∈ config.tls, p.stages.head? = some (Stage.tlsName, .tls context)
  tls_only : (p.stages.filter fun entry => entry.1 = Stage.tlsName || entry.2.kind = "tls") =
    config.tls.toList.map fun context => (Stage.tlsName, .tls context)
  tls?_eq : p.tls? = config.tls
  encoder?_eq : p.encoder? = some config.settings.chunkingDisabled
  trafficLog?_isSome : p.trafficLog?.isSome = config.settings.traceLogging
  redirect?_eq : p.redirect? = some config

theorem Pipeline.serves_ofConfig (config : Config) : (ofConfig config).Serves config := by
  obtain ⟨origin, ⟨trace, _, chunking, _⟩, tls⟩ := config
  refine ⟨?_, ?_, ?_, ?_, ?_, redirect?_ofConfig _⟩
  · rintro context ⟨⟩
    rfl
  all_goals cases tls <;> cases trace <;> rfl

theorem Channel.pipeline_of_connect {network : Network} {number : Nat} {endpoint : Endpoint}
    {config : Config} {channel : Channel}
    (h : connect network number endpoint config = .ok channel) :
    channel.pipeline = .ofConfig config := by
  obtain ⟨line, rfl⟩ := exists_line_of_connect h
  rfl

/-! ### Stops -/

namespace Stop

variable {stop last : Stop} {network : Network} {number rounds : Nat}

theorem boundTo_of_first? {url : String} {request : Request} {config : Config} {start : Stop}
    (h : first? url request config = .ok start) : start.config.BoundTo config start.endpoint := by
  unfold first? at h
  split at h
  · nomatch h
  · split at h
    · nomatch h
    · next hbound =>
      obtain rfl := Except.ok.inj h
      exact Config.boundTo_of_bindTls? hbound

theorem boundTo_of_round {hop : Hop} (h : stop.round network number = .ok (.follow hop)) :
    hop.stop.config.BoundTo stop.config hop.stop.endpoint := by
  obtain ⟨channel, response, -, -, hfollow⟩ := (stop.round_eq_ok_iff network number _).1 h
  obtain ⟨-, location, target, bound, -, -, hbound, rfl⟩ := Config.onResponse_eq_follow hfollow
  exact Config.boundTo_of_bindTls? hbound

/-- What is bound to the first endpoint of a chain is bound anew to every other. -/
theorem boundTo_of_after {caller : Config} (hstop : stop.config.BoundTo caller stop.endpoint)
    (h : stop.after network number rounds = some last) :
    last.config.BoundTo caller last.endpoint := by
  induction rounds generalizing stop number with
  | zero =>
    obtain rfl : stop = last := Option.some.inj h
    exact hstop
  | succ rounds ih =>
    obtain ⟨hop, hround, hafter⟩ := exists_hop_of_after h
    exact ih ((boundTo_of_round hround).trans hstop) hafter

/-! ### Connections -/

theorem visits_of_connect {channel : Channel} {result : Except Error Response}
    (hconnect : Channel.connect network number stop.endpoint stop.config = .ok channel)
    (h : stop.round network number = result.map .deliver) :
    (stop.chain network number).visits.length = 1 := by
  have hends := (chain_of_ends h).2
  have hvisits : (stop.chain network number).visits ≠ [] := by
    unfold chain
    rw [Chain.followFrom]
    split
    · next e hfailed => cases hfailed.symm.trans hconnect
    · dsimp only
      split <;> exact List.cons_ne_nil _ _
  rw [List.map_eq_nil_iff] at hends
  rw [← List.length_map (f := Visit.stop), hends.resolve_left hvisits]
  rfl

theorem length_visits_of_after (h : stop.after network number rounds = some last) :
    (stop.chain network number).visits.length =
      rounds + (last.chain network (number + rounds)).visits.length := by
  induction rounds generalizing stop number with
  | zero =>
    obtain rfl : stop = last := Option.some.inj h
    exact (Nat.zero_add _).symm
  | succ rounds ih =>
    obtain ⟨hop, hround, hafter⟩ := exists_hop_of_after h
    have hlength := congrArg List.length (chain_of_follow hround).2
    simp only [List.length_map, List.length_cons] at hlength
    rw [hlength, ih hafter, Nat.add_right_comm number, Nat.add_assoc number]
    omega

theorem connect_of_mem_visits {endpoint : Endpoint} {request : Request} {config : Config}
    {hops : UInt32} {visit : Visit}
    (h : visit ∈ (Chain.followFrom network number endpoint request config hops).visits) :
    ∃ number, Channel.connect network number visit.channel.endpoint visit.config =
      .ok visit.channel := by
  have hfirst {number : Nat} {endpoint : Endpoint} {visit : Visit}
      (hconnect : Channel.connect network number endpoint visit.config = .ok visit.channel) :
      ∃ number, Channel.connect network number visit.channel.endpoint visit.config =
        .ok visit.channel :=
    ⟨number, by rw [Channel.endpoint_of_connect hconnect, hconnect]⟩
  fun_induction Chain.followFrom network number endpoint request config hops with
  | case1 => nomatch h
  | case2 _ _ _ _ _ _ hconnect | case3 _ _ _ _ _ _ hconnect =>
    obtain rfl := List.mem_singleton.1 h
    exact hfirst hconnect
  | case4 _ _ _ _ _ _ hconnect _ _ _ _ _ ih =>
    rcases List.mem_cons.1 h with rfl | hlater
    · exact hfirst hconnect
    · exact ih hlater

/-! ### Endpoints that cannot be secured -/

/-- The answer at a stop leads the chain on to an endpoint. -/
def LeadsTo (stop : Stop) (network : Network) (number : Nat) (target : Endpoint) : Prop :=
  ∃ response location, stop.answer network number = .ok response ∧
    ¬ response.EndsChain stop.config.settings.maxRedirects stop.hops ∧
    response.headers.get? "Location" = some location ∧ stop.endpoint.resolve location = .ok target

theorem round_of_answer {response : Response} (h : stop.answer network number = .ok response) :
    ∃ channel, Channel.connect network number stop.endpoint stop.config = .ok channel ∧
      stop.round network number =
        stop.config.onResponse stop.endpoint (channel.prepare stop.request) response stop.hops := by
  obtain ⟨channel, hconnect⟩ := connect_of_answer h
  refine ⟨channel, hconnect, ?_⟩
  rw [answer, hconnect] at h
  rw [round, hconnect]
  simp only [Except.bind] at h ⊢
  rw [Channel.action_exchange (Channel.redirect?_of_connect hconnect), h,
    Channel.endpoint_of_connect hconnect]
  rfl

/-- Where no configuration can be bound to the next endpoint, the chain ends with a connection to
this one. -/
theorem chain_of_leadsTo {target : Endpoint} (h : stop.LeadsTo network number target)
    (hrefused : stop.config.bindTls? target = none) :
    (stop.chain network number).visits.length = 1 ∧
      stop.round network number = .error (.tls .invalidHostName) := by
  obtain ⟨response, location, hanswer, hgoes, hlocation, htarget⟩ := h
  obtain ⟨channel, hconnect, hround⟩ := round_of_answer hanswer
  have herror : stop.round network number =
      (Except.error (.tls .invalidHostName) : Except Error Response).map .deliver := by
    rw [hround, Config.onResponse_of_location hgoes hlocation]
    simp only [htarget, hrefused]
    rfl
  exact ⟨visits_of_connect hconnect herror, herror⟩

end Stop

/-- **TLS follows the endpoint.** Wherever a chain goes, what it connects with is the caller's
configuration, with a context for TLS exactly when the scheme of its endpoint is secure, and then
one for the host of that endpoint; the pipeline has its stage for TLS first in that case and none
otherwise. A secure endpoint whose host is no server name ends the chain, with no connection made
to it. -/
theorem Chain.secure_of_send (network : Network) (url : String) (request : Request)
    (config : Config) :
    let chain := send network url request config
    (∀ visit ∈ chain.visits, visit.config.BoundTo config visit.channel.endpoint ∧
      visit.channel.pipeline.Serves visit.config) ∧
    (∀ start number stop, Stop.first? url request config = .ok start →
      start.after network 0 number = some stop →
        stop.config.BoundTo config stop.endpoint ∧
        (Pipeline.assemble {} stop.config).2 = .ok () ∧
        (Pipeline.assemble {} stop.config).1.Serves stop.config ∧
        ∀ target, stop.LeadsTo network number target → target.isSecure = true →
          ServerName.parse? target.host = none →
            chain.visits.length = number + 1 ∧ chain.result = .error (.tls .invalidHostName)) ∧
    ∀ endpoint, Endpoint.parse url = .ok endpoint → endpoint.isSecure = true →
      ServerName.parse? endpoint.host = none →
        chain.visits = [] ∧ chain.result = .error (.tls .invalidHostName) := by
  intro chain
  refine ⟨fun visit hvisit => ?_, fun start number stop hstart hafter => ?_,
    fun endpoint hparse hsecure hname => ?_⟩
  · cases hfirst : Stop.first? url request config with
    | error e => simp [chain, send_eq, hfirst] at hvisit
    | ok start =>
      have hchain : chain = start.chain network 0 := send_of_start hfirst
      rw [hchain] at hvisit
      obtain ⟨number, hconnect⟩ := Stop.connect_of_mem_visits hvisit
      obtain ⟨i, hi⟩ := List.getElem?_of_mem hvisit
      refine ⟨?_, Channel.pipeline_of_connect hconnect ▸ Pipeline.serves_ofConfig _⟩
      exact Stop.boundTo_of_after (Stop.boundTo_of_first? hfirst) (Stop.after_of_visits hi)
  · have hbound := Stop.boundTo_of_after (Stop.boundTo_of_first? hstart) hafter
    refine ⟨hbound, ?_, ?_, fun target hleads hsecure hname => ?_⟩
    · rw [Pipeline.assemble_empty]
    · rw [Pipeline.assemble_empty]
      exact Pipeline.serves_ofConfig _
    · have hrefused : stop.config.bindTls? target = none :=
        Config.bindTls?_eq_none_iff.2 ⟨hsecure, hname⟩
      have hlast : stop.LeadsTo network (0 + number) target := by rwa [Nat.zero_add]
      obtain ⟨hlength, hround⟩ := Stop.chain_of_leadsTo hlast hrefused
      have hchain : chain = start.chain network 0 := send_of_start hstart
      rw [hchain, Stop.length_visits_of_after hafter, hlength]
      exact ⟨rfl, Stop.result_of_round hafter hround⟩
  · have hrefused : config.bindTls? endpoint = none :=
      Config.bindTls?_eq_none_iff.2 ⟨hsecure, hname⟩
    have hchain : chain = { visits := [], result := .error (.tls .invalidHostName) } := by
      simp only [chain, send, hparse, hrefused]
    rw [hchain]
    exact ⟨rfl, rfl⟩

end Exchange

end WebClient
