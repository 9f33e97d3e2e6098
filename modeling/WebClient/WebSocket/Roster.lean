import WebClient.WebSocket.Hub

/-!
# Connections that are given up

What drives a connection may be cancelled at any time. Its dispatcher is dropped then, wherever the
connection stands: no call reaches it any more, and whoever still waits for the handshake is told
that the connection is gone. The other connections of the client go on.
-/

namespace WebClient.WebSocket

/-- The connections of a client, and those of them that have been given up, latest first. -/
structure Roster (ι σ : Type) where
  hub : Hub ι σ
  dropped : List ι := []

namespace Roster

/-- What happens to the connections of a client: a call on one of them, or one is given up. -/
inductive Event (ι : Type) where
  | call (i : ι) (call : Dispatcher.Call)
  | drop (i : ι)

def Event.connection {ι : Type} : Event ι → ι
  | call i _ | drop i => i

variable {ι σ : Type} [DecidableEq ι] [Handshaker σ]

def ofContexts (handshakers : ι → σ) (contexts : ι → ConnectionContext) : Roster ι σ where
  hub := .ofContexts handshakers contexts

/-- One event, with everything done to the world outside. Nothing happens any more to a connection
that has been given up. -/
def step (r : Roster ι σ) (event : Event ι) : Roster ι σ × List Effect :=
  if event.connection ∈ r.dropped then (r, [])
  else match event with
    | .call i call =>
      let (hub, effects) := r.hub.step i call
      ({ r with hub }, effects)
    | .drop i =>
      let effects := (r.hub.connections i).drop
      ({ hub := { r.hub with sessions := r.hub.sessions.applyAll effects }
         dropped := i :: r.dropped }, effects)

/-- Events one after the other, with everything done to the world outside and the connection that
did it. -/
def run (r : Roster ι σ) : List (Event ι) → Roster ι σ × List (ι × Effect)
  | [] => (r, [])
  | event :: events =>
    let (r, effects) := r.step event
    let (r, later) := r.run events
    (r, effects.map (event.connection, ·) ++ later)

def effectsOf (i : ι) (done : List (ι × Effect)) : List Effect :=
  done.filterMap fun (j, effect) => if j = i then some effect else none

/-- The session of a connection that is open and has not been given up. -/
def liveSession? (r : Roster ι σ) (i : ι) : Option Session :=
  if i ∈ r.dropped then none else (r.hub.connections i).openSession?

end Roster

end WebClient.WebSocket
