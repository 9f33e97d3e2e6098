import Mathlib.Logic.Basic
import WebClient.Proofs.Http.Headers
import WebClient.Proofs.Text.Letter
import WebClient.Proofs.WebSocket.Registry

/-!
# Judging the response to a handshake

A response opens the WebSocket when it meets a list of demands, of which the last but one is that it
proves to have read the key of the request. The demands are made in order, and a response that does
not meet them is refused for the first that it fails (`complete_verdict`). Only a response that
meets them all changes the handshake.
-/

namespace WebClient.WebSocket

open Http

/-- The first of some demands that does not hold is the one with the given answer. -/
def FirstFails {α : Type} (demands : List (Prop × α)) (answer : α) : Prop :=
  ∃ passed demand later, demands = passed ++ demand :: later ∧ (∀ d ∈ passed, d.1) ∧
    ¬ demand.1 ∧ demand.2 = answer

@[simp] theorem firstFails_nil {α : Type} (answer : α) : ¬ FirstFails [] answer := by
  rintro ⟨passed, demand, later, hnil, -⟩
  simp at hnil

@[simp] theorem firstFails_cons {α : Type} (p : Prop) (a : α) (demands : List (Prop × α))
    (answer : α) :
    FirstFails ((p, a) :: demands) answer ↔ ¬ p ∧ a = answer ∨ p ∧ FirstFails demands answer := by
  constructor
  · rintro ⟨passed, demand, later, heq, hpassed, hfails, hanswer⟩
    cases passed with
    | nil =>
      obtain ⟨rfl, rfl⟩ := List.cons.inj heq
      exact .inl ⟨hfails, hanswer⟩
    | cons first passed =>
      obtain ⟨rfl, rfl⟩ := List.cons.inj heq
      obtain ⟨hfirst, hpassed⟩ := List.forall_mem_cons.1 hpassed
      exact .inr ⟨hfirst, passed, demand, later, rfl, hpassed, hfails, hanswer⟩
  · rintro (⟨hfails, hanswer⟩ | ⟨hp, passed, demand, later, rfl, hpassed, hfails, hanswer⟩)
    · exact ⟨[], (p, a), demands, rfl, List.forall_mem_nil _, hfails, hanswer⟩
    · exact ⟨(p, a) :: passed, demand, later, rfl, List.forall_mem_cons.2 ⟨hp, hpassed⟩, hfails,
        hanswer⟩

theorem FirstFails.not_forall {α : Type} {demands : List (Prop × α)} {answer : α}
    (h : FirstFails demands answer) : ¬ ∀ d ∈ demands, d.1 := by
  obtain ⟨passed, demand, later, rfl, -, hfails, -⟩ := h
  intro hall
  exact hfails (hall demand (by simp))

theorem FirstFails.unique {α : Type} {demands : List (Prop × α)} {a b : α}
    (ha : FirstFails demands a) (hb : FirstFails demands b) : a = b := by
  induction demands with
  | nil => exact absurd ha (firstFails_nil a)
  | cons demand demands ih =>
    obtain ⟨p, answer⟩ := demand
    rw [firstFails_cons] at ha hb
    rcases ha with ⟨hp, rfl⟩ | ⟨hp, ha⟩ <;> rcases hb with ⟨hp', rfl⟩ | ⟨hp', hb⟩
    · rfl
    · exact absurd hp' hp
    · exact absurd hp hp'
    · exact ih ha hb

/-- The result is the value if all the demands hold, and the answer to the first that does not
otherwise. -/
def Judges {α β : Type} (demands : List (Prop × α)) (value : β) (result : Except α β) : Prop :=
  (∀ d ∈ demands, d.1) ∧ result = .ok value ∨
    ∃ answer, FirstFails demands answer ∧ result = .error answer

namespace Judges

variable {α β : Type} {demands : List (Prop × α)} {value : β} {result : Except α β}

theorem nil (h : result = .ok value) : Judges [] value result :=
  .inl ⟨List.forall_mem_nil _, h⟩

theorem cons {p : Prop} {answer : α} (hfails : ¬ p → result = .error answer)
    (hholds : p → Judges demands value result) : Judges ((p, answer) :: demands) value result := by
  by_cases hp : p
  · rcases hholds hp with ⟨hall, hresult⟩ | ⟨later, hlater, hresult⟩
    · exact .inl ⟨List.forall_mem_cons.2 ⟨hp, hall⟩, hresult⟩
    · exact .inr ⟨later, (firstFails_cons ..).2 (.inr ⟨hp, hlater⟩), hresult⟩
  · exact .inr ⟨answer, (firstFails_cons ..).2 (.inl ⟨hp, rfl⟩), hfails hp⟩

theorem eq_ok_iff (h : Judges demands value result) {other : β} :
    result = .ok other ↔ (∀ d ∈ demands, d.1) ∧ other = value := by
  rcases h with ⟨hall, rfl⟩ | ⟨answer, hfails, rfl⟩
  · rw [Except.ok.injEq, eq_comm, and_iff_right hall]
  · exact iff_of_false (fun h => nomatch h) fun h => hfails.not_forall h.1

theorem eq_error_iff (h : Judges demands value result) {answer : α} :
    result = .error answer ↔ FirstFails demands answer := by
  rcases h with ⟨hall, rfl⟩ | ⟨first, hfails, rfl⟩
  · exact iff_of_false (fun h => nomatch h) fun hfails => hfails.not_forall hall
  · rw [Except.error.injEq]
    exact ⟨fun heq => heq ▸ hfails, hfails.unique⟩

end Judges

namespace Upgrade

def chosen (response : Response) : Option String :=
  (response.headers.get? "Sec-WebSocket-Protocol").map Text.trim

def Proves (response : Response) (key : String) : Prop :=
  ∃ proof ∈ response.headers.get? "Sec-WebSocket-Accept", Text.trim proof = Base64.encode
    (Sha1.digest (Bytes.ofString key ++ Bytes.ofString "258EAFA5-E914-47DA-95CA-C5AB0DC85B11"))

/-- What is asked of a response, each with the refusal of one that does not show it. -/
def demands (u : Upgrade) (response : Response) : List (Prop × UpgradeError) :=
  [(u.key ≠ none, .notStarted),
    (response.status = 101, .unexpectedStatus response.status response.bodyText),
    (response.headers.Lists "Upgrade" "websocket", .missingUpgrade),
    (response.headers.Lists "Connection" "upgrade", .missingConnectionUpgrade),
    (response.headers.get? "Sec-WebSocket-Accept" ≠ none, .missingAccept),
    (∃ key ∈ u.key, Proves response key, .acceptMismatch),
    (∀ name ∈ chosen response, name ∈ u.subprotocols,
      .unexpectedSubprotocol ((chosen response).getD ""))]

def accepted (u : Upgrade) (response : Response) : Upgrade :=
  { u with isComplete := true, selected := (chosen response).or u.selected }

/-- **What a response is judged by.** -/
theorem judges_complete (u : Upgrade) (response : Response) :
    Judges (u.demands response) (u.accepted response) (u.complete response) := by
  rw [complete]
  -- The demands stand in the order of the checks, so that each step takes one off both.
  refine .cons (fun hkey => by rw [not_not.1 hkey]) fun hkey => ?_
  obtain ⟨key, hkey⟩ := Option.ne_none_iff_exists'.1 hkey
  simp only [hkey, ← Headers.hasElement_iff]
  refine .cons (fun hstatus => if_pos hstatus) fun hstatus => ?_
  rw [if_neg (not_not.2 hstatus)]
  refine .cons (fun hupgrade => if_pos (by simpa using hupgrade)) fun hupgrade => ?_
  rw [hupgrade, if_neg (by decide)]
  refine .cons (fun hconnection => if_pos (by simpa using hconnection)) fun hconnection => ?_
  rw [hconnection, if_neg (by decide)]
  refine .cons (fun hproof => by rw [not_not.1 hproof]) fun hproof => ?_
  obtain ⟨proof, hproof⟩ := Option.ne_none_iff_exists'.1 hproof
  have hproves : (∃ k ∈ some key, Proves response k) ↔ Text.trim proof = acceptFor key := by
    simp [Proves, hproof, acceptFor, acceptSuffix]
  simp only [hproof, hproves]
  refine .cons (fun hmatch => if_pos hmatch) fun hmatch => ?_
  rw [if_neg (not_not.2 hmatch)]
  unfold choice chosen
  cases hname : response.headers.get? "Sec-WebSocket-Protocol" with
  | none =>
    refine .cons (fun hnot => absurd (by simp) hnot) fun _ => .nil ?_
    simp [accepted, chosen, hname, hkey]
  | some value =>
    by_cases hmem : Text.trim value ∈ u.subprotocols
    · refine .cons (fun hnot => absurd (by simpa using hmem) hnot) fun _ => .nil ?_
      simp [accepted, chosen, hname, hkey, hmem]
    · exact .cons (fun _ => by simp [hmem]) fun hall => absurd (hall _ rfl) hmem

/-! ### The life of a handshake -/

/-- The handshake was described, and requests and responses have made it what it is. -/
inductive IsReached : Upgrade → Prop
  | described (host path : String) (subprotocols : List String) (headers : Headers) :
      IsReached { host, path, subprotocols, headers }
  | request {u : Upgrade} (h : IsReached u) (nonce : Nonce) : IsReached (u.request nonce).1
  | complete {u u' : Upgrade} {response : Response} (h : IsReached u)
      (hcomplete : u.complete response = .ok u') : IsReached u'

/-- No subprotocol is chosen before the handshake is complete. -/
theorem IsReached.selected_eq_none {u : Upgrade} (h : u.IsReached)
    (hpending : u.isComplete = false) : u.selected = none := by
  induction h with
  | described => rfl
  | request _ _ ih => exact ih hpending
  | complete _ hcomplete =>
    obtain ⟨-, rfl⟩ := (judges_complete _ _).eq_ok_iff.1 hcomplete
    nomatch hpending

end Upgrade

namespace Dispatcher

variable {σ : Type}

theorem handshaker_fail (d : Dispatcher σ) (cause : Error) :
    (d.fail cause).1.handshaker = d.handshaker := by
  have hterminate : (d.terminate cause).1.handshaker = d.handshaker := by
    unfold terminate
    split <;> rfl
  unfold fail
  split
  · rfl
  · exact hterminate

variable [Handshaker σ]

theorem handshaker_complete (d : Dispatcher σ) : d.complete.1.handshaker = d.handshaker := by
  unfold complete
  dsimp only
  split <;> rfl

/-- A connection that waits for the response goes on with what the response makes of its handshake,
and one that refuses it keeps the handshake as it is. -/
theorem handshaker_receive {d : Dispatcher σ} (h : d.terminated = false)
    (hpending : d.handshake = .pending) (response : Response) (failure : WriteFailure) :
    (d.receive (.response response) failure).1.handshaker =
      match Handshaker.complete d.handshaker response with
      | .ok handshaker => handshaker
      | .error _ => d.handshaker := by
  rw [receive_response_of_pending h hpending]
  cases Handshaker.complete d.handshaker response with
  | ok handshaker => exact handshaker_complete _
  | error e => exact handshaker_fail d _

end Dispatcher

namespace Upgrade

/-- **When a response opens the WebSocket.** It does exactly when it meets every demand, and then
the handshake is complete, with the subprotocol that the response chooses; one that chooses none
leaves the handshake without, unless it was complete before. Any other response is refused for the
first demand that it does not meet, and a connection keeps its handshake as it was. -/
theorem complete_verdict (u : Upgrade) (response : Response) :
    (∀ u', u.complete response = .ok u' ↔
      (∀ demand ∈ u.demands response, demand.1) ∧ u' = u.accepted response) ∧
    (∀ e, u.complete response = .error e ↔ FirstFails (u.demands response) e) ∧
    (u.IsReached → u.isComplete = false → (u.accepted response).selected = chosen response) ∧
    ∀ (d : Dispatcher Upgrade) (failure : WriteFailure), d.handshaker = u →
      d.handshake = .pending → d.terminated = false →
        (∀ u', u.complete response = .ok u' →
          (d.receive (.response response) failure).1.handshaker = u') ∧
        ∀ e, u.complete response = .error e →
          (d.receive (.response response) failure).1.handshaker = u := by
  have hjudges := u.judges_complete response
  refine ⟨fun _ => hjudges.eq_ok_iff, fun _ => hjudges.eq_error_iff, fun hreached hpending => ?_,
    fun d failure hd hpending halive => ?_⟩
  · rw [accepted, hreached.selected_eq_none hpending, Option.or_none]
  · subst hd
    rw [Dispatcher.handshaker_receive halive hpending response failure]
    exact ⟨fun u' (hcomplete : Handshaker.complete d.handshaker response = .ok u') => by
        rw [hcomplete],
      fun e (hcomplete : Handshaker.complete d.handshaker response = .error e) => by
        rw [hcomplete]⟩

/-! ### A sample -/

theorem length_sampleBytes : (Bytes.ofString "the sample nonce").length = 16 := by decide +kernel

def sampleNonce : Nonce := ⟨Bytes.ofString "the sample nonce", length_sampleBytes⟩

def sampleUpgrade : Upgrade :=
  (request { host := "h", path := "/", subprotocols := ["chat", "superchat"] } sampleNonce).1

/-- The response of a server that knows the key `dGhlIHNhbXBsZSBub25jZQ==`. -/
def sampleResponse : Response where
  status := 101
  headers := [⟨"upgrade", "h2c, WebSocket"⟩, ⟨"Connection", "x ,Upgrade"⟩,
    ⟨"Sec-WebSocket-Accept", " s3pPLMBiTxaQ9kYGzzhZRbK+xOo="⟩,
    ⟨"Sec-WebSocket-Protocol", "superchat "⟩]

theorem chosen_sampleResponse : chosen sampleResponse = some "superchat" := by
  rw [chosen, sampleResponse, Headers.get?_cons_of_not (by decide +kernel),
    Headers.get?_cons_of_not (by decide +kernel), Headers.get?_cons_of_not (by decide +kernel),
    Headers.get?_cons_of_isNamed (Text.eqIgnoringCase_refl _)]
  decide +kernel

theorem demands_sampleResponse : ∀ demand ∈ sampleUpgrade.demands sampleResponse, demand.1 := by
  have hkey : sampleUpgrade.key = some "dGhlIHNhbXBsZSBub25jZQ==" := by decide +kernel
  have hupgrade : sampleResponse.headers.Lists "Upgrade" "websocket" := by
    refine ⟨⟨"upgrade", "h2c, WebSocket"⟩, by simp [sampleResponse], ?_, " WebSocket".toList,
      by decide +kernel, ?_⟩
    · exact Text.eqIgnoringCase_iff_toList.2 (by decide +kernel)
    · rw [Text.eqIgnoringCase_iff_toList, Text.toList_trim, String.toList_ofList]
      decide +kernel
  have hconnection : sampleResponse.headers.Lists "Connection" "upgrade" := by
    refine ⟨⟨"Connection", "x ,Upgrade"⟩, by simp [sampleResponse], ?_, "Upgrade".toList,
      by decide +kernel, ?_⟩
    · exact Text.eqIgnoringCase_refl _
    · rw [Text.eqIgnoringCase_iff_toList, Text.toList_trim, String.toList_ofList]
      decide +kernel
  have hproof : sampleResponse.headers.get? "Sec-WebSocket-Accept" =
      some " s3pPLMBiTxaQ9kYGzzhZRbK+xOo=" := by
    rw [sampleResponse, Headers.get?_cons_of_not (by decide +kernel),
      Headers.get?_cons_of_not (by decide +kernel),
      Headers.get?_cons_of_isNamed (Text.eqIgnoringCase_refl _)]
  have hdigest : Text.trim " s3pPLMBiTxaQ9kYGzzhZRbK+xOo=" =
      acceptFor "dGhlIHNhbXBsZSBub25jZQ==" := by decide +kernel
  have hoffered : sampleUpgrade.subprotocols = ["chat", "superchat"] := rfl
  have hstatus : sampleResponse.status = 101 := rfl
  simpa [demands, hkey, hupgrade, hconnection, hproof, chosen_sampleResponse, hoffered, hstatus,
    Proves, acceptFor, acceptSuffix] using hdigest

/-- The sample opens the WebSocket, and with another status it leaves the handshake as it was. -/
theorem complete_verdict_sample :
    sampleUpgrade.IsReached ∧ sampleUpgrade.isComplete = false ∧
      (∃ u, sampleUpgrade.complete sampleResponse = .ok u ∧ u.isComplete = true ∧
        u.selected = some "superchat") ∧
      sampleUpgrade.complete { sampleResponse with status := 200 } =
        .error (.unexpectedStatus 200 "") ∧
      (Dispatcher.receive { handshaker := sampleUpgrade, context := Hub.oneContext }
        (.response { sampleResponse with status := 200 }) none).1.handshaker = sampleUpgrade := by
  have hreached : sampleUpgrade.IsReached := .request (.described ..) _
  obtain ⟨hok, -, hselected, -⟩ := sampleUpgrade.complete_verdict sampleResponse
  obtain ⟨-, herror, -, hkept⟩ :=
    sampleUpgrade.complete_verdict { sampleResponse with status := 200 }
  have hcomplete := (hok _).2 ⟨demands_sampleResponse, rfl⟩
  have hrefused := (herror (.unexpectedStatus 200 "")).2 (by
    have hkey : sampleUpgrade.key ≠ none := by decide +kernel
    have hbody : Response.bodyText { sampleResponse with status := 200 } = "" := by decide +kernel
    simp [demands, hkey, hbody])
  exact ⟨hreached, rfl, ⟨_, hcomplete, rfl, (hselected hreached rfl).trans chosen_sampleResponse⟩,
    hrefused, (hkept _ none rfl rfl rfl).2 _ hrefused⟩

end Upgrade

end WebClient.WebSocket
