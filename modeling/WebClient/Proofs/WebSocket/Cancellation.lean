import WebClient.Proofs.WebSocket.Registry
import WebClient.WebSocket.Roster

/-!
# What a dropped connection leaves behind

The session of a connection leaves the set in the handlers that end the connection, and a connection
that is given up runs none of them. So its handshake, if it is pending, is settled, nothing is done
to the other connections, and a session that is open stays in the set (`Sound.mem_sessions`), for
good. The set is that of the live connections as long as none has been given up with an open session
(`sessions_live_iff_of_drop`).

What those who wait for a handshake have been told is read off the state at any time (`told`), which
`Sound` ties to what has been done; the invariants of the connections themselves are those of a
client that gives up none.
-/

namespace WebClient.WebSocket.Roster

open Dispatcher

variable {ι σ : Type} [DecidableEq ι]

/-! ### What one connection has done -/

@[simp] theorem effectsOf_append (i : ι) (done later : List (ι × Effect)) :
    effectsOf i (done ++ later) = effectsOf i done ++ effectsOf i later :=
  List.filterMap_append

theorem effectsOf_self (i : ι) (effects : List Effect) :
    effectsOf i (effects.map (i, ·)) = effects := by
  simp [effectsOf, List.filterMap_map]

theorem effectsOf_of_ne {i j : ι} (h : j ≠ i) (effects : List Effect) :
    effectsOf i (effects.map (j, ·)) = [] := by
  simp [effectsOf, List.filterMap_map, h]

def told (r : Roster ι σ) (i : ι) : List (Except Error Unit) :=
  if i ∈ r.dropped then [(r.hub.connections i).outcome.getD (.error .connectionClosed)]
  else (r.hub.connections i).outcome.toList

/-- The connections report to the set, and those who wait have been told what the state says. -/
structure Sound (r : Roster ι σ) (done : List (ι × Effect)) : Prop where
  reports : ∃ order, r.hub.Reports order
  told_eq : ∀ i, resolutions (effectsOf i done) = r.told i

variable [Handshaker σ]

/-! ### One event -/

theorem step_of_dropped {r : Roster ι σ} {event : Event ι} (h : event.connection ∈ r.dropped) :
    r.step event = (r, []) :=
  if_pos h

theorem step_call {r : Roster ι σ} {i : ι} (h : i ∉ r.dropped) (call : Call) :
    r.step (.call i call) = ({ r with hub := (r.hub.step i call).1 }, (r.hub.step i call).2) :=
  if_neg h

/-- Giving up a connection does nothing but settle its handshake. -/
theorem step_drop {r : Roster ι σ} {i : ι} (h : i ∉ r.dropped) :
    r.step (.drop i) = ({ r with dropped := i :: r.dropped }, (r.hub.connections i).drop) := by
  have hset : r.hub.sessions.applyAll (r.hub.connections i).drop = r.hub.sessions := by
    unfold Dispatcher.drop
    split <;> rfl
  have hstep : r.step (.drop i) =
      ({ hub := { r.hub with
            sessions := r.hub.sessions.applyAll (r.hub.connections i).drop }
         dropped := i :: r.dropped }, (r.hub.connections i).drop) := if_neg h
  rw [hstep, hset]

theorem Sound.call {r : Roster ι σ} {done : List (ι × Effect)} (h : r.Sound done) {i : ι}
    (hi : i ∉ r.dropped) (call : Call) :
    Sound { r with hub := (r.hub.step i call).1 }
      (done ++ (r.hub.step i call).2.map (i, ·)) := by
  obtain ⟨order, hreports⟩ := h.reports
  obtain ⟨stage, next, hturns⟩ := hreports.wired.exists_turns_step i call
  refine ⟨⟨_, hreports.step i call⟩, fun j => ?_⟩
  rw [effectsOf_append, resolutions_append, h.told_eq]
  by_cases hj : j = i
  · subst hj
    rw [effectsOf_self, told, told, if_neg hi, if_neg hi, hturns.stands.outcome_eq,
      hturns.stands_before.outcome_eq, hturns.move.outcome, resolutions_milestones]
  · rw [effectsOf_of_ne (Ne.symm hj)]
    simp only [told, hturns.others j hj]
    exact List.append_nil _

omit [Handshaker σ] in
theorem Sound.drop {r : Roster ι σ} {done : List (ι × Effect)} (h : r.Sound done) {i : ι}
    (hi : i ∉ r.dropped) :
    Sound { r with dropped := i :: r.dropped }
      (done ++ (r.hub.connections i).drop.map (i, ·)) := by
  refine ⟨h.reports, fun j => ?_⟩
  rw [effectsOf_append, resolutions_append, h.told_eq]
  by_cases hj : j = i
  · subst hj
    rw [effectsOf_self, told, told, if_neg hi, if_pos List.mem_cons_self]
    unfold Dispatcher.drop
    cases hout : (r.hub.connections j).outcome <;> simp [resolutions]
  · rw [effectsOf_of_ne (Ne.symm hj)]
    simp [told, hj, resolutions]

/-- **One event.** -/
theorem Sound.step {r : Roster ι σ} {done : List (ι × Effect)} (h : r.Sound done)
    (event : Event ι) :
    (r.step event).1.Sound (done ++ (r.step event).2.map (event.connection, ·)) := by
  by_cases hdropped : event.connection ∈ r.dropped
  · rw [step_of_dropped hdropped, List.map_nil, List.append_nil]
    exact h
  · cases event with
    | call i call =>
      have hi : i ∉ r.dropped := hdropped
      rw [step_call hi]
      exact h.call hi call
    | drop i =>
      have hi : i ∉ r.dropped := hdropped
      rw [step_drop hi]
      exact h.drop hi

/-- Nothing happens to a connection that has been given up. -/
theorem frozen_step {r : Roster ι σ} {i : ι} (hi : i ∈ r.dropped) (event : Event ι) :
    i ∈ (r.step event).1.dropped ∧
      (r.step event).1.hub.connections i = r.hub.connections i ∧
      effectsOf i ((r.step event).2.map (event.connection, ·)) = [] := by
  by_cases hdropped : event.connection ∈ r.dropped
  · rw [step_of_dropped hdropped]
    exact ⟨hi, rfl, rfl⟩
  · have hother : event.connection ≠ i := fun heq => hdropped (heq ▸ hi)
    cases event with
    | call j call =>
      have hj : j ∉ r.dropped := hdropped
      rw [step_call hj]
      exact ⟨hi, Hub.connections_step_of_ne r.hub (Ne.symm hother) call, effectsOf_of_ne hother _⟩
    | drop j =>
      have hj : j ∉ r.dropped := hdropped
      rw [step_drop hj]
      exact ⟨List.mem_cons_of_mem j hi, rfl, effectsOf_of_ne hother _⟩

/-! ### Any events -/

theorem run_cons (r : Roster ι σ) (event : Event ι) (events : List (Event ι)) :
    r.run (event :: events) = (((r.step event).1.run events).1,
      (r.step event).2.map (event.connection, ·) ++ ((r.step event).1.run events).2) :=
  rfl

theorem Sound.run {r : Roster ι σ} {done : List (ι × Effect)} (h : r.Sound done)
    (events : List (Event ι)) : (r.run events).1.Sound (done ++ (r.run events).2) := by
  induction events generalizing r done with
  | nil => simpa [Roster.run] using h
  | cons event events ih =>
    rw [run_cons, ← List.append_assoc]
    exact ih (h.step event)

theorem frozen_run {r : Roster ι σ} {i : ι} (hi : i ∈ r.dropped) (events : List (Event ι)) :
    i ∈ (r.run events).1.dropped ∧
      (r.run events).1.hub.connections i = r.hub.connections i ∧
      effectsOf i (r.run events).2 = [] := by
  induction events generalizing r with
  | nil => exact ⟨hi, rfl, rfl⟩
  | cons event events ih =>
    obtain ⟨hdropped, hconnection, hnothing⟩ := frozen_step hi event
    obtain ⟨hdropped', hconnection', hnothing'⟩ := ih hdropped
    refine ⟨hdropped', hconnection'.trans hconnection, ?_⟩
    rw [run_cons, effectsOf_append, hnothing, hnothing', List.append_nil]

omit [Handshaker σ] in
theorem sound_new (handshakers : ι → σ) {contexts : ι → ConnectionContext}
    (hdistinct : Function.Injective fun i => (contexts i).id) :
    (ofContexts handshakers contexts).Sound [] :=
  ⟨⟨[], Hub.reports_new handshakers hdistinct⟩, fun _ => rfl⟩

/-! ### The set -/

section Sessions

variable {r : Roster ι σ} {done : List (ι × Effect)}

omit [Handshaker σ]

/-- The set does not know which connections have been given up. -/
theorem Sound.mem_sessions (h : r.Sound done) (session : Session) :
    session ∈ r.hub.sessions ↔ ∃ i, (r.hub.connections i).openSession? = some session := by
  obtain ⟨order, hreports⟩ := h.reports
  rw [hreports.mem_sessions]
  refine exists_congr fun i => ?_
  obtain ⟨stage, hstage⟩ := hreports.wired.stands i
  exact (hstage.openSession?_eq_some_iff session).symm

theorem Sound.nodup_ids (h : r.Sound done) : (r.hub.sessions.map Session.id).Nodup :=
  let ⟨_, hreports⟩ := h.reports
  hreports.nodup_ids

theorem Sound.eq_of_openSession? (h : r.Sound done) {i j : ι} {session : Session}
    (hi : (r.hub.connections i).openSession? = some session)
    (hj : (r.hub.connections j).openSession? = some session) : i = j := by
  obtain ⟨order, hreports⟩ := h.reports
  refine hreports.wired.distinct ?_
  change (r.hub.connections i).context.id = (r.hub.connections j).context.id
  rw [← hreports.wired.id_of_openSession? hi, hreports.wired.id_of_openSession? hj]

/-- The set is that of the live connections when none has been given up with an open session, and
only then. -/
theorem Sound.sessions_live_iff (h : r.Sound done) :
    (∀ session, session ∈ r.hub.sessions ↔ ∃ i, r.liveSession? i = some session) ↔
      ∀ i ∈ r.dropped, (r.hub.connections i).openSession? = none := by
  constructor
  · intro hlive i hi
    by_contra hopen
    obtain ⟨session, hsession⟩ := Option.ne_none_iff_exists'.1 hopen
    obtain ⟨j, hj⟩ := (hlive session).1 ((h.mem_sessions session).2 ⟨i, hsession⟩)
    rw [liveSession?] at hj
    split at hj
    · nomatch hj
    · next hdropped => exact hdropped (h.eq_of_openSession? hsession hj ▸ hi)
  · intro hnone session
    rw [h.mem_sessions]
    refine exists_congr fun i => ?_
    rw [liveSession?]
    split
    · next hi => rw [hnone i hi]
    · rfl

end Sessions

/-- **Giving up a connection does not release its session.** After any calls on any number of
connections, some of which may have been given up already, one more is given up. Whoever waits for
its handshake and has been told nothing is told that the connection is closed, and nobody is told
anything else; no other connection changes, and neither does the set. It holds each open session
once, also those of the connections that have been given up: it is the set of the live connections
exactly if none of these had a session open, and otherwise never again, since no event reaches a
connection that has been given up. -/
theorem sessions_live_iff_of_drop (handshakers : ι → σ) (contexts : ι → ConnectionContext)
    (hdistinct : Function.Injective fun i => (contexts i).id) (events : List (Event ι)) (i : ι)
    (hi : i ∉ ((ofContexts handshakers contexts).run events).1.dropped) :
    let ran := (ofContexts handshakers contexts).run events
    let after := (ran.1.step (.drop i)).1
    ((ran.1.step (.drop i)).2 =
        if resolutions (effectsOf i ran.2) = [] then [.resolve (.error .connectionClosed)]
        else []) ∧
      (∀ j, after.hub.connections j = ran.1.hub.connections j) ∧
      (∀ j, j ∈ after.dropped ↔ j = i ∨ j ∈ ran.1.dropped) ∧
      after.hub.sessions = ran.1.hub.sessions ∧
      (after.hub.sessions.map Session.id).Nodup ∧
      (∀ session, session ∈ after.hub.sessions ↔
        ∃ j, (after.hub.connections j).openSession? = some session) ∧
      ((∀ session, session ∈ after.hub.sessions ↔ ∃ j, after.liveSession? j = some session) ↔
        ∀ j ∈ after.dropped, (after.hub.connections j).openSession? = none) ∧
      ∀ later, effectsOf i (after.run later).2 = [] ∧ (after.run later).1.liveSession? i = none ∧
        ∀ session, (ran.1.hub.connections i).openSession? = some session →
          session ∈ (after.run later).1.hub.sessions := by
  intro ran after
  have hsound : ran.1.Sound ran.2 := (sound_new handshakers hdistinct).run events
  have hdropped : i ∉ ran.1.dropped := hi
  have hstep := step_drop hdropped
  have hafter : after = { ran.1 with dropped := i :: ran.1.dropped } := congrArg Prod.fst hstep
  have hsound' : after.Sound _ := hsound.step (.drop i)
  refine ⟨?_, ?_, ?_, ?_, hsound'.nodup_ids, hsound'.mem_sessions, hsound'.sessions_live_iff, ?_⟩
  · have htold := hsound.told_eq i
    rw [told, if_neg hdropped] at htold
    rw [hstep, htold]
    unfold Dispatcher.drop
    cases (ran.1.hub.connections i).outcome <;> rfl
  · intro j
    rw [hafter]
  · intro j
    rw [hafter]
    exact List.mem_cons
  · rw [hafter]
  · intro later
    have hmem : i ∈ after.dropped := by
      rw [hafter]
      exact List.mem_cons_self
    obtain ⟨hdropped', hconnection, hnothing⟩ := frozen_run hmem later
    refine ⟨hnothing, if_pos hdropped', fun session hopen => ?_⟩
    refine ((hsound'.run later).mem_sessions session).2 ⟨i, ?_⟩
    rw [hconnection, hafter]
    exact hopen

/-! ### Two connections -/

def twoConnections : Roster (Fin 2) Hub.PlainHandshake :=
  ofContexts (fun _ => .mk) Hub.twoContexts

/-- Two connections open, and the first completes its handshake; that of the second stays
pending. -/
def openingEvents {ι : Type} (first second : ι) : List (Event ι) :=
  [.call first (.connectionOpen (Hub.repeatedNonce 0) none),
    .call second (.connectionOpen (Hub.repeatedNonce 0) none),
    .call first (.receive (.response { status := 101 }) none)]

/-- Giving up the second connection, whose handshake is pending, leaves a set of live sessions. -/
theorem drop_pending :
    let ran := twoConnections.run (openingEvents 0 1)
    let after := (ran.1.step (.drop 1)).1
    (ran.1.step (.drop 1)).2 = [.resolve (.error .connectionClosed)] ∧
      after.hub.sessions.map Session.id = [⟨0⟩] ∧
      ∀ session, session ∈ after.hub.sessions ↔ ∃ j, after.liveSession? j = some session := by
  intro ran after
  have hdistinct : Function.Injective fun i => (Hub.twoContexts i).id := by
    intro i j hij
    exact Fin.ext (congrArg ConnectionId.number hij)
  have hi : 1 ∉ ran.1.dropped := by decide
  obtain ⟨htold, -, -, -, -, -, hlive, -⟩ := sessions_live_iff_of_drop
    (fun _ => Hub.PlainHandshake.mk) Hub.twoContexts hdistinct (openingEvents 0 1) 1 hi
  refine ⟨htold.trans (if_pos (by decide)), by decide, hlive.2 ?_⟩
  decide

/-- When the first connection is given up instead, no session is left that is live, and the set
still holds the one of that connection. -/
theorem drop_live :
    let after := ((twoConnections.run (openingEvents 0 1)).1.step (.drop 0)).1
    (∀ j, after.liveSession? j = none) ∧ after.hub.sessions.map Session.id = [⟨0⟩] ∧
      ¬∀ session, session ∈ after.hub.sessions ↔ ∃ j, after.liveSession? j = some session := by
  intro after
  have hnone : ∀ j, after.liveSession? j = none := by decide
  have hids : after.hub.sessions.map Session.id = [⟨0⟩] := by decide
  refine ⟨hnone, hids, fun hlive => ?_⟩
  obtain ⟨session, hmem, -⟩ : ∃ session ∈ after.hub.sessions, session.id = ⟨0⟩ :=
    List.mem_map.1 (hids ▸ List.mem_cons_self)
  obtain ⟨j, hj⟩ := (hlive session).1 hmem
  rw [hnone j] at hj
  nomatch hj

end WebClient.WebSocket.Roster
