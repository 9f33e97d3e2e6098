import WebClient.Proofs.Exchange.Stop

/-!
# The length and the end of a chain

Nothing in the loop that follows redirects counts its rounds: the counter is handed from stop to
stop, past a configuration that is bound anew at each. `Stop.hops_of_after` is the invariant that
carries it through a whole chain. From it come the bound on the connections, and, with what one
round does to a chain (`chain_of_follow`, `chain_of_ends`), the exact response that a chain ends
with: the first of those it met that ends it (`Chain.send_bounded_and_exact`).
-/

namespace WebClient.Exchange

open Http

namespace Stop

variable {stop last : Stop} {network : Network} {number rounds : Nat}

/-! ### Rounds -/

theorem exists_hop_of_after (h : stop.after network number (rounds + 1) = some last) :
    ∃ hop, stop.round network number = .ok (.follow hop) ∧
      hop.stop.after network (number + 1) rounds = some last := by
  unfold after at h
  split at h
  · next hop hround => exact ⟨hop, hround, h⟩
  · nomatch h

theorem after_succ {hop : Hop} (h : stop.round network number = .ok (.follow hop)) (rounds : Nat) :
    stop.after network number (rounds + 1) = hop.stop.after network (number + 1) rounds := by
  simp only [after, h]

theorem exists_round_of_lt (h : stop.after network number rounds = some last) {earlier : Nat}
    (hearlier : earlier < rounds) :
    ∃ before hop, stop.after network number earlier = some before ∧
      before.round network (number + earlier) = .ok (.follow hop) ∧
      stop.after network number (earlier + 1) = some hop.stop := by
  induction rounds generalizing stop number earlier with
  | zero => omega
  | succ rounds ih =>
    obtain ⟨hop, hround, hafter⟩ := exists_hop_of_after h
    cases earlier with
    | zero => exact ⟨stop, hop, rfl, hround, after_succ hround 0⟩
    | succ earlier =>
      obtain ⟨before, next, hbefore, hnext, hstop⟩ := ih hafter (Nat.lt_of_succ_lt_succ hearlier)
      rw [Nat.add_right_comm, Nat.add_assoc] at hnext
      exact ⟨before, next, (after_succ hround earlier).trans hbefore, hnext,
        (after_succ hround (earlier + 1)).trans hstop⟩

/-- A round that does not lead on ends the chain. -/
theorem round_cases (stop : Stop) (network : Network) (number : Nat) :
    (∃ hop, stop.round network number = .ok (.follow hop)) ∨
      ∃ result : Except Error Response, stop.round network number = result.map .deliver := by
  rcases stop.round network number with e | (response | hop)
  · exact .inr ⟨.error e, rfl⟩
  · exact .inr ⟨.ok response, rfl⟩
  · exact .inl ⟨hop, rfl⟩

/-! ### The counter -/

theorem hops_of_round {hop : Hop} (h : stop.round network number = .ok (.follow hop)) :
    stop.hops < stop.config.settings.maxRedirects ∧
      hop.stop.hops.toNat = stop.hops.toNat + 1 ∧
      hop.stop.config.settings = stop.config.settings := by
  obtain ⟨channel, response, -, -, hfollow⟩ := (stop.round_eq_ok_iff network number _).1 h
  exact Config.hops_of_follow hfollow

theorem hops_of_after (h : stop.after network number rounds = some last)
    (hhops : stop.hops ≤ stop.config.settings.maxRedirects) :
    last.hops.toNat = stop.hops.toNat + rounds ∧
      last.hops ≤ last.config.settings.maxRedirects ∧
      last.config.settings = stop.config.settings := by
  induction rounds generalizing stop number with
  | zero =>
    obtain rfl : stop = last := Option.some.inj h
    exact ⟨rfl, hhops, rfl⟩
  | succ rounds ih =>
    obtain ⟨hop, hround, hafter⟩ := exists_hop_of_after h
    obtain ⟨hlt, hcount, hsettings⟩ := hops_of_round hround
    have hnext : hop.stop.hops ≤ hop.stop.config.settings.maxRedirects := by
      rw [hsettings, UInt32.le_iff_toNat_le, hcount]
      exact UInt32.lt_iff_toNat_lt.1 hlt
    obtain ⟨hlast, hbudget, hsame⟩ := ih hafter hnext
    exact ⟨by omega, hbudget, hsame.trans hsettings⟩

/-! ### A chain by its first round -/

theorem stop_of_connect {channel : Channel}
    (h : Channel.connect network number stop.endpoint stop.config = .ok channel)
    (exchanged : Exchanged) :
    Visit.stop ⟨channel, stop.config, stop.request, stop.hops, exchanged⟩ = stop := by
  rw [Visit.stop, Channel.endpoint_of_connect h]

theorem chain_of_follow {hop : Hop} (h : stop.round network number = .ok (.follow hop)) :
    (stop.chain network number).result = (hop.stop.chain network (number + 1)).result ∧
      (stop.chain network number).visits.map Visit.stop =
        stop :: (hop.stop.chain network (number + 1)).visits.map Visit.stop := by
  unfold round at h
  unfold chain
  rw [Chain.followFrom]
  split
  · next e hconnect =>
    rw [hconnect] at h
    cases h
  · next channel hconnect =>
    rw [hconnect] at h
    change (channel.exchange stop.request stop.hops).action = .ok (.follow hop) at h
    dsimp only
    split
    · next haction => cases haction.symm.trans h
    · next haction => cases haction.symm.trans h
    · next hop' haction =>
      cases haction.symm.trans h
      refine ⟨rfl, ?_⟩
      rw [List.map_cons, stop_of_connect hconnect]
      rfl

theorem chain_of_ends {result : Except Error Response}
    (h : stop.round network number = result.map .deliver) :
    (stop.chain network number).result = result ∧
      ((stop.chain network number).visits.map Visit.stop = [] ∨
        (stop.chain network number).visits.map Visit.stop = [stop]) := by
  unfold round at h
  unfold chain
  rw [Chain.followFrom]
  split
  · next e hconnect =>
    rw [hconnect] at h
    cases result <;> cases h
    exact ⟨rfl, .inl rfl⟩
  · next channel hconnect =>
    rw [hconnect] at h
    change (channel.exchange stop.request stop.hops).action = result.map .deliver at h
    have hvisit (exchanged : Exchanged) :=
      congrArg (fun stop : Stop => [stop]) (stop_of_connect hconnect exchanged)
    dsimp only
    split
    · next haction =>
      cases result <;> cases haction.symm.trans h
      exact ⟨rfl, .inr (hvisit _)⟩
    · next haction =>
      cases result <;> cases haction.symm.trans h
      exact ⟨rfl, .inr (hvisit _)⟩
    · next haction => cases result <;> cases haction.symm.trans h

/-! ### The end of a chain -/

theorem result_of_round {result : Except Error Response}
    (h : stop.after network number rounds = some last)
    (hround : last.round network (number + rounds) = result.map .deliver) :
    (stop.chain network number).result = result := by
  induction rounds generalizing stop number with
  | zero =>
    obtain rfl : stop = last := Option.some.inj h
    exact (chain_of_ends hround).1
  | succ rounds ih =>
    obtain ⟨hop, hfollow, hafter⟩ := exists_hop_of_after h
    rw [(chain_of_follow hfollow).1]
    exact ih hafter (by rwa [Nat.add_right_comm, Nat.add_assoc])

/-- A chain has a last round, since each that leads on leaves fewer hops to make. -/
theorem exists_last_round (stop : Stop) (network : Network) (number : Nat) :
    ∃ rounds last, stop.after network number rounds = some last ∧
      last.round network (number + rounds) = (stop.chain network number).result.map .deliver := by
  rcases round_cases stop network number with ⟨hop, hfollow⟩ | ⟨result, hends⟩
  · have hfewer := hops_of_round hfollow
    have : hop.stop.config.settings.maxRedirects.toNat - hop.stop.hops.toNat <
        stop.config.settings.maxRedirects.toNat - stop.hops.toNat := by
      have := UInt32.lt_iff_toNat_lt.1 hfewer.1
      rw [hfewer.2.1, hfewer.2.2]
      omega
    obtain ⟨rounds, last, hafter, hround⟩ := exists_last_round hop.stop network (number + 1)
    refine ⟨rounds + 1, last, (after_succ hfollow rounds).trans hafter, ?_⟩
    rw [(chain_of_follow hfollow).1, ← hround, Nat.add_right_comm, Nat.add_assoc]
  · exact ⟨0, stop, rfl, by rw [(chain_of_ends hends).1]; exact hends⟩
termination_by stop.config.settings.maxRedirects.toNat - stop.hops.toNat

/-- The end of a chain is what the round says that does not lead on. -/
theorem result_eq_iff (stop : Stop) (network : Network) (number : Nat)
    (result : Except Error Response) :
    (stop.chain network number).result = result ↔ ∃ rounds last,
      stop.after network number rounds = some last ∧
        last.round network (number + rounds) = result.map .deliver := by
  constructor
  · rintro rfl
    exact exists_last_round stop network number
  · rintro ⟨rounds, last, hafter, hround⟩
    exact result_of_round hafter hround

/-- The connections of a chain are made at its stops, in their order. -/
theorem after_of_visits {i : Nat} {visit : Visit}
    (h : (stop.chain network number).visits[i]? = some visit) :
    stop.after network number i = some visit.stop := by
  have hstop : ((stop.chain network number).visits.map Visit.stop)[i]? = some visit.stop := by
    rw [List.getElem?_map, h, Option.map_some]
  clear h
  generalize visit.stop = last at hstop ⊢
  induction i generalizing stop number with
  | zero =>
    rcases round_cases stop network number with ⟨hop, hfollow⟩ | ⟨result, hends⟩
    · rwa [(chain_of_follow hfollow).2] at hstop
    · rcases (chain_of_ends hends).2 with hnone | hone
      · rw [hnone] at hstop
        nomatch hstop
      · rwa [hone] at hstop
  | succ i ih =>
    rcases round_cases stop network number with ⟨hop, hfollow⟩ | ⟨result, hends⟩
    · rw [(chain_of_follow hfollow).2] at hstop
      exact (after_succ hfollow i).trans (ih hstop)
    · rcases (chain_of_ends hends).2 with hnone | hone
      · rw [hnone] at hstop
        nomatch hstop
      · rw [hone] at hstop
        nomatch hstop

/-! ### What the redirect stage lets through -/

theorem connect_of_answer {response : Response} (h : stop.answer network number = .ok response) :
    ∃ channel, Channel.connect network number stop.endpoint stop.config = .ok channel := by
  unfold answer at h
  cases hconnect : Channel.connect network number stop.endpoint stop.config with
  | error e =>
    rw [hconnect] at h
    nomatch h
  | ok channel => exact ⟨channel, rfl⟩

theorem round_eq_deliver_iff {response : Response} :
    stop.round network number = .ok (.deliver response) ↔
      stop.answer network number = .ok response ∧
        response.EndsChain stop.config.settings.maxRedirects stop.hops := by
  rw [round_eq_ok_iff]
  constructor
  · rintro ⟨channel, answered, -, hanswer, hdeliver⟩
    obtain ⟨hends, rfl⟩ := Config.onResponse_eq_deliver_iff.1 hdeliver
    exact ⟨hanswer, hends⟩
  · rintro ⟨hanswer, hends⟩
    obtain ⟨channel, hconnect⟩ := connect_of_answer hanswer
    exact ⟨channel, response, hconnect, hanswer, Config.onResponse_of_endsChain hends⟩

theorem answer_of_follow {hop : Hop} (h : stop.round network number = .ok (.follow hop)) :
    ∃ response, stop.answer network number = .ok response ∧
      ¬ response.EndsChain stop.config.settings.maxRedirects stop.hops := by
  obtain ⟨channel, response, -, hanswer, hfollow⟩ := (stop.round_eq_ok_iff network number _).1 h
  exact ⟨response, hanswer, (Config.onResponse_eq_follow hfollow).1⟩

end Stop

/-! ### From the URL on -/

section Send

variable {network : Network} {url : String} {request : Request} {config : Config} {start : Stop}

theorem Chain.send_of_start (h : Stop.first? url request config = .ok start) :
    send network url request config = start.chain network 0 := by
  rw [send_eq, h]

/-- The hops of a chain from its URL on are the rounds that have led on. -/
theorem Stop.hops_of_start (h : first? url request config = .ok start) {number : Nat} {stop : Stop}
    (hafter : start.after network 0 number = some stop) :
    stop.hops.toNat = number ∧ number ≤ config.settings.maxRedirects.toNat ∧
      stop.config.settings = config.settings := by
  obtain ⟨endpoint, tls, -, rfl⟩ := first?_eq_ok h
  obtain ⟨hhops, hle, hsame⟩ := hops_of_after hafter UInt32.zero_le
  rw [UInt32.toNat_zero, Nat.zero_add] at hhops
  rw [hsame, UInt32.le_iff_toNat_le, hhops] at hle
  exact ⟨hhops, hle, hsame⟩

theorem Chain.visits_length_le (network : Network) (url : String) (request : Request)
    (config : Config) :
    (send network url request config).visits.length ≤ config.settings.maxRedirects.toNat + 1 := by
  cases hfirst : Stop.first? url request config with
  | error e => simp [send_eq, hfirst]
  | ok start =>
    -- A longer list would hold a visit at a stop past the budget.
    rw [send_of_start hfirst]
    refine Nat.le_of_not_lt fun hlong => ?_
    have hlast := List.getElem?_eq_getElem hlong
    have := (Stop.hops_of_start hfirst (Stop.after_of_visits hlast)).2.1
    omega

theorem Chain.send_result_eq_ok_iff (h : Stop.first? url request config = .ok start)
    (response : Response) :
    (send network url request config).result = .ok response ↔ ∃ number stop,
      start.after network 0 number = some stop ∧ stop.answer network number = .ok response ∧
        response.EndsChain config.settings.maxRedirects stop.hops ∧
        ∀ earlier < number, ∃ before passed, start.after network 0 earlier = some before ∧
          before.answer network earlier = .ok passed ∧
          ¬ passed.EndsChain config.settings.maxRedirects before.hops := by
  rw [send_of_start h, Stop.result_eq_iff]
  simp only [Nat.zero_add]
  constructor
  · rintro ⟨number, stop, hafter, hround⟩
    obtain ⟨hanswer, hends⟩ := Stop.round_eq_deliver_iff.1 hround
    rw [(Stop.hops_of_start h hafter).2.2] at hends
    refine ⟨number, stop, hafter, hanswer, hends, fun earlier hearlier => ?_⟩
    obtain ⟨before, hop, hbefore, hfollow, -⟩ := Stop.exists_round_of_lt hafter hearlier
    rw [Nat.zero_add] at hfollow
    obtain ⟨passed, hpassed, hgoes⟩ := Stop.answer_of_follow hfollow
    rw [(Stop.hops_of_start h hbefore).2.2] at hgoes
    exact ⟨before, passed, hbefore, hpassed, hgoes⟩
  · rintro ⟨number, stop, hafter, hanswer, hends, -⟩
    rw [← (Stop.hops_of_start h hafter).2.2] at hends
    exact ⟨number, stop, hafter, Stop.round_eq_deliver_iff.2 ⟨hanswer, hends⟩⟩

theorem Chain.send_result_eq_error_iff (h : Stop.first? url request config = .ok start)
    (e : Error) :
    (send network url request config).result = .error e ↔ ∃ number stop,
      start.after network 0 number = some stop ∧ stop.round network number = .error e := by
  rw [send_of_start h, Stop.result_eq_iff]
  simp only [Nat.zero_add, Except.map]

end Send

/-- **Chains are bounded and exact.** Whatever a network answers, a chain opens at most one
connection more than it may make hops, and after so many rounds it has counted just as many hops,
never more than it may make. It fails where a round of it fails; else it ends with the first of its
answers that is no redirect, names no location or comes when no hop is left, as it came. -/
theorem Chain.send_bounded_and_exact (network : Network) (url : String) (request : Request)
    (config : Config) :
    let chain := send network url request config
    let budget := config.settings.maxRedirects
    chain.visits.length ≤ budget.toNat + 1 ∧
      (∀ e, Stop.first? url request config = .error e →
        chain.visits = [] ∧ chain.result = .error e) ∧
      ∀ start, Stop.first? url request config = .ok start →
        (∀ number stop, start.after network 0 number = some stop →
          stop.hops.toNat = number ∧ number ≤ budget.toNat ∧
            ∀ hop, stop.round network number = .ok (.follow hop) →
              number < budget.toNat ∧ hop.hops.toNat = number + 1) ∧
        (∀ number visit, chain.visits[number]? = some visit →
          start.after network 0 number = some visit.stop) ∧
        (∀ response, chain.result = .ok response ↔ ∃ number stop,
          start.after network 0 number = some stop ∧ stop.answer network number = .ok response ∧
            response.EndsChain budget stop.hops ∧
            ∀ earlier < number, ∃ before passed, start.after network 0 earlier = some before ∧
              before.answer network earlier = .ok passed ∧
              ¬ passed.EndsChain budget before.hops) ∧
        ∀ e, chain.result = .error e ↔ ∃ number stop,
          start.after network 0 number = some stop ∧ stop.round network number = .error e := by
  refine ⟨visits_length_le network url request config, fun e h => ?_, fun start h => ⟨?_, ?_,
    send_result_eq_ok_iff h, send_result_eq_error_iff h⟩⟩
  · rw [send_eq, h]
    exact ⟨rfl, rfl⟩
  · intro number stop hafter
    obtain ⟨hhops, hle, hsettings⟩ := Stop.hops_of_start h hafter
    refine ⟨hhops, hle, fun hop hfollow => ?_⟩
    obtain ⟨hlt, hcount, -⟩ := Stop.hops_of_round hfollow
    rw [hsettings, UInt32.lt_iff_toNat_lt, hhops] at hlt
    exact ⟨hlt, hcount.trans (by rw [hhops])⟩
  · intro number visit hvisit
    rw [send_of_start h] at hvisit
    exact Stop.after_of_visits hvisit

end WebClient.Exchange
