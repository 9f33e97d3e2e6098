import WebClient.Proofs.WebSocket.Handshake
import WebClient.WebSocket.Hub
import Mathlib.Data.List.Basic

/-!
# The sessions in the set

Any number of connections report to one session set. What a call does to the set depends only on the
milestones it passes (`applyAll_milestones`), so the moves of the connections say what becomes of
the set: a completed handshake puts a session behind the others, the end of a live connection takes
its session out, and nothing else touches the set. `Reports` is what holds between any two calls:
the set is the row of the open sessions, in the order in which the handshakes completed. What holds
in the middle of a call is read off the order of the milestones (`Move.before_resolve`,
`Move.behind_notify`).
-/

namespace WebClient.WebSocket

/-! ### What milestones do to the set -/

theorem SessionSet.applyAll_append (set : SessionSet) (effects later : List Effect) :
    set.applyAll (effects ++ later) = (set.applyAll effects).applyAll later :=
  List.foldl_append

theorem SessionSet.applyAll_milestones (set : SessionSet) (effects : List Effect) :
    set.applyAll (milestones effects) = set.applyAll effects := by
  induction effects generalizing set with
  | nil => rfl
  | cons effect effects ih =>
    cases effect with
    | notify notice =>
      -- Whether or not the notice is a milestone, it does not touch the set.
      rw [milestones, List.filter_cons]
      split <;> exact ih set
    | write outbound failure => exact ih set
    | closeChannel => exact ih set
    | register session => exact ih (set.register session)
    | unregister id => exact ih (set.unregister id)
    | resolve result => exact ih set

/-- A session is in the set before anyone hears that the handshake has succeeded. -/
theorem Move.before_resolve {context : ConnectionContext} {stage next : Stage}
    {first last : List Effect}
    (h : Move context true stage next (first ++ .resolve (.ok ()) :: last)) :
    ∃ session, next = .live session ∧ first = [.register session] := by
  generalize hpassed : first ++ .resolve (.ok ()) :: last = passed at h
  cases h with
  | stay => simp at hpassed
  | @complete session hcontext =>
    rcases first with _ | ⟨effect, _ | ⟨effect', first⟩⟩
    · simp at hpassed
    · obtain ⟨rfl, -⟩ : effect = .register session ∧ last = [] := by simpa using hpassed
      exact ⟨session, rfl, rfl⟩
    · simp at hpassed
  | fail cause notice hterminal =>
    rcases first with _ | ⟨effect, _ | ⟨effect', first⟩⟩ <;> simp at hpassed
  | finish session notice hterminal =>
    rcases first with _ | ⟨effect, _ | ⟨effect', first⟩⟩ <;> simp at hpassed

theorem Move.behind_notify {context : ConnectionContext} {registers : Bool} {stage next : Stage}
    {first last : List Effect} {notice : Notice}
    (h : Move context registers stage next (first ++ .notify notice :: last)) :
    next.hasEnded = true ∧ last = [] := by
  generalize hpassed : first ++ .notify notice :: last = passed at h
  cases h with
  | stay => simp at hpassed
  | complete hcontext =>
    rcases first with _ | ⟨effect, _ | ⟨effect', first⟩⟩ <;> cases registers <;> simp at hpassed
  | fail cause notice' hterminal =>
    rcases first with _ | ⟨effect, _ | ⟨effect', first⟩⟩
    · simp at hpassed
    · obtain ⟨-, -, hlast⟩ : _ ∧ notice = notice' ∧ last = [] := by simpa using hpassed
      exact ⟨rfl, hlast⟩
    · simp at hpassed
  | finish session notice' hterminal =>
    refine ⟨rfl, ?_⟩
    rcases first with _ | ⟨effect, _ | ⟨effect', first⟩⟩ <;> cases registers <;>
      simp_all

/-! ### The open session of a connection -/

def Stage.openSession? : Stage → Option Session
  | live session => some session
  | pending | closed _ | failed _ => none

theorem Stage.openSession?_of_hasEnded {stage : Stage} (h : stage.hasEnded = true) :
    stage.openSession? = none := by
  cases stage with
  | pending => rfl
  | live session => nomatch h
  | closed session => rfl
  | failed cause => rfl

namespace Dispatcher

variable {σ : Type}

theorem Stands.openSession?_eq {d : Dispatcher σ} {stage : Stage} (h : d.Stands stage) :
    d.openSession? = stage.openSession? := by
  rw [Dispatcher.openSession?, h.terminated_eq, h.session_eq]
  cases stage <;> rfl

theorem Stands.openSession?_eq_some_iff {d : Dispatcher σ} {stage : Stage} (h : d.Stands stage)
    (session : Session) : d.openSession? = some session ↔
      d.handshake = .complete ∧ d.terminated = false ∧ d.session = some session := by
  rw [h.openSession?_eq, h.handshake_eq, h.terminated_eq, h.session_eq]
  cases stage <;> simp [Stage.openSession?, Stage.handshake, Stage.hasEnded, Stage.session?]

theorem Stands.id_of_openSession? {d : Dispatcher σ} {stage : Stage} (h : d.Stands stage)
    {session : Session} (hopen : d.openSession? = some session) : session.id = d.context.id := by
  have hsession : stage.session? = some session := by
    rw [← h.session_eq, ((h.openSession?_eq_some_iff session).1 hopen).2.2]
  exact congrArg ConnectionContext.id (h.context_eq session hsession)

end Dispatcher

/-! ### The set between calls -/

namespace Hub

open Dispatcher

variable {ι σ : Type}

def openSessions (hub : Hub ι σ) (order : List ι) : List Session :=
  order.filterMap fun i => (hub.connections i).openSession?

/-- All connections report to the set, each under a number of its own. -/
structure Wired (hub : Hub ι σ) : Prop where
  stands : ∀ i, ∃ stage, (hub.connections i).Stands stage
  registers : ∀ i, (hub.connections i).registers = true
  distinct : Function.Injective fun i => (hub.connections i).context.id

/-- The set holds the open sessions, in the order in which the handshakes completed. -/
structure Reports (hub : Hub ι σ) (order : List ι) : Prop where
  wired : hub.Wired
  nodup : order.Nodup
  mem_order : ∀ i, i ∈ order ↔ (hub.connections i).handshake = .complete
  sessions_eq : hub.sessions = hub.openSessions order

theorem openSessions_congr {hub next : Hub ι σ} {order : List ι}
    (h : ∀ i ∈ order, (next.connections i).openSession? = (hub.connections i).openSession?) :
    next.openSessions order = hub.openSessions order :=
  List.filterMap_congr h

theorem Wired.id_of_openSession? {hub : Hub ι σ} (h : hub.Wired) {i : ι} {session : Session}
    (hopen : (hub.connections i).openSession? = some session) :
    session.id = (hub.connections i).context.id :=
  let ⟨_, hstage⟩ := h.stands i
  hstage.id_of_openSession? hopen

/-- A call has taken one connection from a stage to the next and passed these milestones; the others
are as they were. -/
structure Turns (hub after : Hub ι σ) (i : ι) (stage next : Stage) (passed : List Effect) :
    Prop where
  stands_before : (hub.connections i).Stands stage
  stands : (after.connections i).Stands next
  context_eq : (after.connections i).context = (hub.connections i).context
  registers_eq : (after.connections i).registers = (hub.connections i).registers
  move : Move (hub.connections i).context (hub.connections i).registers stage next passed
  others : ∀ j ≠ i, after.connections j = hub.connections j
  sessions_eq : after.sessions = hub.sessions.applyAll passed

section Turns

variable {hub after : Hub ι σ} {i : ι} {stage next : Stage} {passed : List Effect}
  {order : List ι}

theorem Turns.forall_connections {P : ι → Dispatcher σ → Prop}
    (h : hub.Turns after i stage next passed) (hself : P i (after.connections i))
    (hothers : ∀ j ≠ i, P j (hub.connections j)) (j : ι) : P j (after.connections j) := by
  by_cases hj : j = i
  · exact hj ▸ hself
  · rw [h.others j hj]
    exact hothers j hj

theorem Turns.openSessions_eq (h : hub.Turns after i stage next passed)
    (hsame : i ∈ order → next.openSession? = stage.openSession?) :
    after.openSessions order = hub.openSessions order := by
  refine openSessions_congr fun j hj => ?_
  by_cases hji : j = i
  · subst hji
    rw [h.stands.openSession?_eq, h.stands_before.openSession?_eq, hsame hj]
  · rw [h.others j hji]

/-- When a connection ends, its session is the one that leaves the row. -/
theorem Reports.unregister_openSessions {session : Session} (h : hub.Reports order)
    (hturns : hub.Turns after i (.live session) (.closed session) passed) :
    SessionSet.unregister (hub.openSessions order) session.id = after.openSessions order := by
  have hopen : (hub.connections i).openSession? = some session :=
    hturns.stands_before.openSession?_eq
  have hclosed : (after.connections i).openSession? = none := hturns.stands.openSession?_eq
  have hmem : i ∈ order := (h.mem_order i).2 hturns.stands_before.handshake_eq
  obtain ⟨earlier, later, rfl⟩ := List.append_of_mem hmem
  have hnodup := List.nodup_append.1 h.nodup
  have hearlier : i ∉ earlier := fun hi => hnodup.2.2 i hi i List.mem_cons_self rfl
  have hlater : i ∉ later := (List.nodup_cons.1 hnodup.2.1).1
  have hother : ∀ other ∈ hub.openSessions earlier, ¬(other.id == session.id) = true := by
    intro other hmem heq
    obtain ⟨j, hj, hjopen⟩ := List.mem_filterMap.1 hmem
    have hsame : (hub.connections j).context.id = (hub.connections i).context.id := by
      rw [← h.wired.id_of_openSession? hjopen, ← h.wired.id_of_openSession? hopen]
      exact beq_iff_eq.1 heq
    exact hearlier (h.wired.distinct hsame ▸ hj)
  calc SessionSet.unregister (hub.openSessions (earlier ++ i :: later)) session.id
      = (hub.openSessions earlier ++ session :: hub.openSessions later).eraseP
          (·.id == session.id) := by
        simp [SessionSet.unregister, openSessions, hopen]
    _ = hub.openSessions earlier ++ hub.openSessions later := by
        rw [List.eraseP_append_right _ hother, List.eraseP_cons_of_pos (by simp)]
    _ = after.openSessions earlier ++ after.openSessions later := by
        rw [hturns.openSessions_eq (absurd · hearlier), hturns.openSessions_eq (absurd · hlater)]
    _ = after.openSessions (earlier ++ i :: later) := by
        simp [openSessions, hclosed]

/-- A move that leaves the handshake as complete as it was keeps the order. -/
theorem Reports.mem_order_of_turns (h : hub.Reports order)
    (hturns : hub.Turns after i stage next passed)
    (hsame : next.handshake = .complete ↔ stage.handshake = .complete) (j : ι) :
    j ∈ order ↔ (after.connections j).handshake = .complete := by
  refine hturns.forall_connections (P := fun j d => j ∈ order ↔ d.handshake = .complete) ?_
    (fun j _ => h.mem_order j) j
  rw [h.mem_order, hturns.stands.handshake_eq, hturns.stands_before.handshake_eq, hsame]

theorem Wired.of_turns (h : hub.Wired) (hturns : hub.Turns after i stage next passed) :
    after.Wired := by
  have hcontext : ∀ j, (after.connections j).context = (hub.connections j).context :=
    hturns.forall_connections (P := fun j d => d.context = (hub.connections j).context)
      hturns.context_eq fun _ _ => rfl
  refine ⟨?_, ?_, ?_⟩
  · exact hturns.forall_connections (P := fun _ d => ∃ stage, d.Stands stage)
      ⟨next, hturns.stands⟩ fun j _ => h.stands j
  · exact hturns.forall_connections (P := fun _ d => d.registers = true)
      (hturns.registers_eq.trans (h.registers i)) fun j _ => h.registers j
  · simpa only [hcontext] using h.distinct

/-- The order in which the handshakes have completed, after one more move. -/
def orderAfter (order : List ι) (i : ι) (stage next : Stage) : List ι :=
  if stage.handshake ≠ .complete ∧ next.handshake = .complete then order ++ [i] else order

theorem Reports.of_turns (h : hub.Reports order) (hturns : hub.Turns after i stage next passed) :
    after.Reports (orderAfter order i stage next) := by
  have hwired := h.wired.of_turns hturns
  have hsessions := hturns.sessions_eq
  rw [h.sessions_eq] at hsessions
  have hmove := hturns.move
  rw [h.wired.registers i] at hmove
  cases hmove with
  | stay =>
    have horder : orderAfter order i stage stage = order := if_neg fun hc => hc.1 hc.2
    rw [horder]
    exact ⟨hwired, h.nodup, h.mem_order_of_turns hturns .rfl,
      hsessions.trans (hturns.openSessions_eq fun _ => rfl).symm⟩
  | @complete session hcontext =>
    have hnew : i ∉ order := by
      rw [h.mem_order, hturns.stands_before.handshake_eq]
      decide
    have hopen : (after.connections i).openSession? = some session :=
      hturns.stands.openSession?_eq
    refine ⟨hwired, ?_, ?_, ?_⟩
    · refine List.nodup_append.2 ⟨h.nodup, by simp, fun j hj k hk hjk => hnew ?_⟩
      rwa [← List.mem_singleton.1 hk, ← hjk]
    · refine hturns.forall_connections
        (P := fun j d => j ∈ order ++ [i] ↔ d.handshake = .complete) ?_ fun j hj => ?_
      · exact iff_of_true (by simp) hturns.stands.handshake_eq
      · simp [hj, h.mem_order]
    · calc after.sessions
          = hub.openSessions order ++ [session] := hsessions
        _ = after.openSessions order ++ [session] := by
            rw [hturns.openSessions_eq (absurd · hnew)]
        _ = after.openSessions (order ++ [i]) := by
            simp [openSessions, hopen]
  | fail cause notice hterminal =>
    exact ⟨hwired, h.nodup, h.mem_order_of_turns hturns (by simp [Stage.handshake]),
      hsessions.trans (hturns.openSessions_eq fun _ => rfl).symm⟩
  | finish session notice hterminal =>
    exact ⟨hwired, h.nodup, h.mem_order_of_turns hturns .rfl,
      hsessions.trans (h.unregister_openSessions hturns)⟩

end Turns

theorem wired_new (handshakers : ι → σ) {contexts : ι → ConnectionContext}
    (hdistinct : Function.Injective fun i => (contexts i).id) :
    (ofContexts handshakers contexts).Wired :=
  ⟨fun i => ⟨.pending, stands_new (handshakers i) (contexts i) true⟩, fun _ => rfl, hdistinct⟩

theorem reports_new (handshakers : ι → σ) {contexts : ι → ConnectionContext}
    (hdistinct : Function.Injective fun i => (contexts i).id) :
    (ofContexts handshakers contexts).Reports [] :=
  ⟨wired_new handshakers hdistinct, List.nodup_nil,
    fun i => iff_of_false List.not_mem_nil (by simp [ofContexts]), rfl⟩

theorem Reports.nodup_ids {hub : Hub ι σ} {order : List ι} (h : hub.Reports order) :
    (hub.sessions.map Session.id).Nodup := by
  rw [h.sessions_eq]
  refine List.pairwise_map.2 (List.Pairwise.filterMap _ ?_ h.nodup)
  intro i j hij session hopen other hopen' hid
  refine hij (h.wired.distinct ?_)
  change (hub.connections i).context.id = (hub.connections j).context.id
  rw [← h.wired.id_of_openSession? hopen, hid, h.wired.id_of_openSession? hopen']

theorem Reports.mem_sessions {hub : Hub ι σ} {order : List ι} (h : hub.Reports order)
    (session : Session) : session ∈ hub.sessions ↔ ∃ i, (hub.connections i).handshake = .complete ∧
      (hub.connections i).terminated = false ∧ (hub.connections i).session = some session := by
  rw [h.sessions_eq, openSessions, List.mem_filterMap]
  refine exists_congr fun i => ?_
  obtain ⟨stage, hstage⟩ := h.wired.stands i
  rw [h.mem_order, hstage.openSession?_eq_some_iff]
  tauto

theorem Reports.ne_id_of_mem {hub : Hub ι σ} {order : List ι} (h : hub.Reports order) {i : ι}
    (hclosed : (hub.connections i).openSession? = none) {session : Session}
    (hmem : session ∈ hub.sessions) : session.id ≠ (hub.connections i).context.id := by
  rw [h.sessions_eq] at hmem
  obtain ⟨j, -, hopen⟩ := List.mem_filterMap.1 hmem
  rw [h.wired.id_of_openSession? hopen]
  intro hsame
  rw [h.wired.distinct hsame, hclosed] at hopen
  nomatch hopen

variable [DecidableEq ι] [Handshaker σ]

/-- Whatever is called on one of the connections, the hub makes one turn. -/
theorem Wired.exists_turns_step {hub : Hub ι σ} (h : hub.Wired) (i : ι) (call : Call) :
    ∃ stage next,
      hub.Turns (hub.step i call).1 i stage next (milestones (hub.step i call).2) := by
  obtain ⟨stage, hstage⟩ := h.stands i
  obtain ⟨next, hmoves⟩ := hstage.exists_moves_step call
  refine ⟨stage, next, hstage, ?_, ?_, ?_, hmoves.move,
    fun j hj => connections_step_of_ne hub hj call, ?_⟩
  · rw [connections_step_self]
    exact hmoves.stands
  · rw [connections_step_self]
    exact hmoves.context_eq
  · rw [connections_step_self]
    exact hmoves.registers_eq
  · exact (SessionSet.applyAll_milestones ..).symm

theorem Reports.step {hub : Hub ι σ} {order : List ι} (h : hub.Reports order) (i : ι)
    (call : Call) :
    (hub.step i call).1.Reports (if hub.completes i call then order ++ [i] else order) := by
  obtain ⟨stage, next, hturns⟩ := h.wired.exists_turns_step i call
  have horder : (if hub.completes i call then order ++ [i] else order) =
      orderAfter order i stage next := by
    simp [completes, orderAfter, hturns.stands_before.handshake_eq, ← hturns.stands.handshake_eq]
  rw [horder]
  exact h.of_turns hturns

/-! ### The set after any calls -/

theorem Reports.run {hub : Hub ι σ} {order : List ι} (h : hub.Reports order)
    (calls : List (ι × Call)) : (hub.run calls).Reports (order ++ hub.completions calls) := by
  induction calls generalizing hub order with
  | nil => simpa [Hub.run, completions] using h
  | cons call calls ih =>
    obtain ⟨i, call⟩ := call
    have hrun := ih (h.step i call)
    cases hcompletes : hub.completes i call with
    | true => simpa [Hub.run, completions, hcompletes] using hrun
    | false => simpa [Hub.run, completions, hcompletes] using hrun

theorem Wired.applyAll_before_resolve {hub : Hub ι σ} (h : hub.Wired) {i : ι} {call : Call}
    {first last : List Effect}
    (heffects : (hub.step i call).2 = first ++ .resolve (.ok ()) :: last) :
    ∃ session, ((hub.step i call).1.connections i).session = some session ∧
      hub.sessions.applyAll first = hub.sessions ++ [session] := by
  obtain ⟨stage, next, hturns⟩ := h.exists_turns_step i call
  have hmove := hturns.move
  rw [h.registers i, heffects, milestones_append] at hmove
  obtain ⟨session, rfl, hfirst⟩ := Move.before_resolve hmove
  refine ⟨session, hturns.stands.session_eq, ?_⟩
  rw [← SessionSet.applyAll_milestones, hfirst]
  rfl

theorem Wired.applyAll_before_notify {hub : Hub ι σ} (h : hub.Wired) {i : ι} {call : Call}
    {first last : List Effect} {notice : Notice} (hterminal : notice.isTerminal = true)
    (heffects : (hub.step i call).2 = first ++ .notify notice :: last) :
    ((hub.step i call).1.connections i).openSession? = none ∧
      hub.sessions.applyAll first = (hub.step i call).1.sessions := by
  obtain ⟨stage, next, hturns⟩ := h.exists_turns_step i call
  have hpassed : milestones (hub.step i call).2 =
      milestones first ++ .notify notice :: milestones last := by
    have hmilestone : (Effect.notify notice).isMilestone = true := hterminal
    rw [heffects, milestones_append, milestones_cons_of_isMilestone hmilestone]
  have hmove := hturns.move
  rw [hpassed] at hmove
  obtain ⟨hended, hlast⟩ := hmove.behind_notify
  constructor
  · rw [hturns.stands.openSession?_eq]
    exact Stage.openSession?_of_hasEnded hended
  · rw [hturns.sessions_eq, hpassed, hlast, SessionSet.applyAll_append,
      SessionSet.applyAll_milestones]
    rfl

/-- **The open sessions.** Any number of connections with numbers of their own report to one set.
Whatever is called on any of them, in whatever order, and whichever writes the channels refuse,
after every call the set holds the sessions of the connections whose handshake is complete and which
have not ended: each once, in the order in which the handshakes completed. In the middle of a call,
a session is in the set when it is told that its handshake has succeeded, and out of it when the
observer hears of the end of its connection. -/
theorem sessions_eq_openSessions (handshakers : ι → σ) (contexts : ι → ConnectionContext)
    (hdistinct : Function.Injective fun i => (contexts i).id) (calls : List (ι × Call)) :
    let start := ofContexts handshakers contexts
    let hub := start.run calls
    let order := start.completions calls
    (order.Nodup ∧ ∀ i, i ∈ order ↔ (hub.connections i).handshake = .complete) ∧
      hub.sessions = hub.openSessions order ∧
      (hub.sessions.map Session.id).Nodup ∧
      (∀ session, session ∈ hub.sessions ↔ ∃ i, (hub.connections i).handshake = .complete ∧
        (hub.connections i).terminated = false ∧
        (hub.connections i).session = some session) ∧
      (∀ i call first last, (hub.step i call).2 = first ++ .resolve (.ok ()) :: last →
        ∃ session, ((hub.step i call).1.connections i).session = some session ∧
          hub.sessions.applyAll first = hub.sessions ++ [session]) ∧
      (∀ i call first notice last, (hub.step i call).2 = first ++ .notify notice :: last →
        notice.isTerminal = true → ∀ session ∈ hub.sessions.applyAll first,
          session.id ≠ ((hub.step i call).1.connections i).context.id) := by
  intro start hub order
  have hreports : hub.Reports order := (reports_new handshakers hdistinct).run calls
  refine ⟨⟨hreports.nodup, hreports.mem_order⟩, hreports.sessions_eq, hreports.nodup_ids,
    hreports.mem_sessions, ?_, ?_⟩
  · intro i call first last heffects
    exact hreports.wired.applyAll_before_resolve heffects
  · intro i call first notice last heffects hterminal session hmem
    obtain ⟨hclosed, hset⟩ := hreports.wired.applyAll_before_notify hterminal heffects
    rw [hset] at hmem
    exact (hreports.step i call).ne_id_of_mem hclosed hmem

/-! ### Two connections -/

/-- A handshake that every response with status 101 completes. -/
inductive PlainHandshake where
  | mk

instance : Handshaker PlainHandshake where
  request h _ := (h, { method := .get, path := "/" })
  complete h r := if r.status = 101 then .ok h else .error (.unexpectedStatus r.status "")
  subprotocol _ := none

def twoContexts (i : Fin 2) : ConnectionContext :=
  { id := ⟨i⟩, localAddress := ⟨.v4 127 0 0 1, 5000⟩, localName := "localhost"
    secure := false, uri := "ws://h/chat" }

/-- The context of a connection that no other one stands beside. -/
def oneContext : ConnectionContext :=
  twoContexts 0

def repeatedNonce (b : UInt8) : Nonce :=
  ⟨List.replicate 16 b, List.length_replicate⟩

/-- Both handshakes complete, the second one first; then its connection is lost. -/
def twoCalls : List (Fin 2 × Call) :=
  [(1, .receive (.response { status := 101 }) none),
    (0, .receive (.response { status := 101 }) none), (1, .connectionClosed)]

/-- The second connection completed its handshake first, and the first is the one still open. -/
theorem sessions_twoCalls :
    let start := ofContexts (fun _ => PlainHandshake.mk) twoContexts
    let hub := start.run twoCalls
    (Function.Injective fun i => (twoContexts i).id) ∧ start.completions twoCalls = [1, 0] ∧
      hub.sessions.map Session.id = [⟨0⟩] ∧ hub.sessions = hub.openSessions [1, 0] := by
  intro start hub
  have hdistinct : Function.Injective fun i => (twoContexts i).id := by
    intro i j hij
    exact Fin.ext (congrArg ConnectionId.number hij)
  have horder : start.completions twoCalls = [1, 0] := by decide
  refine ⟨hdistinct, horder, by decide, ?_⟩
  rw [← horder]
  exact (sessions_eq_openSessions (fun _ => PlainHandshake.mk) twoContexts hdistinct twoCalls).2.1

end Hub

end WebClient.WebSocket
