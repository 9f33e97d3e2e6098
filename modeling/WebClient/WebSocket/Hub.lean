import WebClient.WebSocket.Dispatcher

/-!
# Connections that share a session set

A client may have any number of connections, each with a dispatcher of its own, and one set that all
of them report their sessions to. The calls on different connections come in any order; a call
changes its own dispatcher, and the set by what it reports.
-/

namespace WebClient.WebSocket

def SessionSet.applyAll (set : SessionSet) (effects : List Effect) : SessionSet :=
  effects.foldl SessionSet.apply set

/-- The session that is open: the one that has started and whose connection has not ended. -/
def Dispatcher.openSession? {σ : Type} (d : Dispatcher σ) : Option Session :=
  if d.terminated then none else d.session

structure Hub (ι σ : Type) where
  connections : ι → Dispatcher σ
  sessions : SessionSet := []

namespace Hub

variable {ι σ : Type} [DecidableEq ι] [Handshaker σ]

def ofContexts (handshakers : ι → σ) (contexts : ι → ConnectionContext) : Hub ι σ where
  connections i := { handshaker := handshakers i, context := contexts i, registers := true }

/-- A call on one connection, with everything it did to the world outside. -/
def step (hub : Hub ι σ) (i : ι) (call : Dispatcher.Call) : Hub ι σ × List Effect :=
  let (d, effects) := (hub.connections i).step call
  ({ connections := fun j => if j = i then d else hub.connections j
     sessions := hub.sessions.applyAll effects }, effects)

def run (hub : Hub ι σ) : List (ι × Dispatcher.Call) → Hub ι σ
  | [] => hub
  | (i, call) :: calls => (hub.step i call).1.run calls

def completes (hub : Hub ι σ) (i : ι) (call : Dispatcher.Call) : Bool :=
  (hub.connections i).handshake ≠ .complete &&
    ((hub.step i call).1.connections i).handshake = .complete

/-- The connections whose handshakes are completed by calls, in the order in which they are. -/
def completions (hub : Hub ι σ) : List (ι × Dispatcher.Call) → List ι
  | [] => []
  | (i, call) :: calls =>
    let later := (hub.step i call).1.completions calls
    if hub.completes i call then i :: later else later

@[simp] theorem connections_step_self (hub : Hub ι σ) (i : ι) (call : Dispatcher.Call) :
    (hub.step i call).1.connections i = ((hub.connections i).step call).1 := by
  simp [step]

theorem connections_step_of_ne (hub : Hub ι σ) {i j : ι} (h : j ≠ i) (call : Dispatcher.Call) :
    (hub.step i call).1.connections j = hub.connections j := by
  simp [step, h]

end Hub

end WebClient.WebSocket
