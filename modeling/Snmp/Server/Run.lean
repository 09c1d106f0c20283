/-
  Snmp/Server/Run.lean
  ====================
  **Runs of a server.**

  A server runs in small steps, which its receive loop, its workers and the reporting of faults
  take in any order (`Event`, `step?`).  The loop receives a datagram and waits for room in the
  queue; a worker takes a datagram, has it answered and settles the outcome.  Once the
  transport has handed out its last datagram the loop closes the queue; each worker stops when
  nothing is left in it, and the run is finished when all workers have stopped and all faults
  are reported.

  `serve` is one such run: of the steps that are possible it takes the one that brings some
  datagram furthest.  Every step makes `weight` smaller, which bounds the run.
-/
import Snmp.Server.Basic

namespace Snmp.Server

variable {σ : Type}

/-- What a worker is about. -/
inductive Worker where
  | idle
  /-- It has taken a datagram. -/
  | busy (datagram : Datagram)
  /-- It knows what answering a datagram came to. -/
  | answered (datagram : Datagram) (outcome : Outcome)
  | stopped
deriving DecidableEq, Inhabited

/-- A datagram that was answered, by which worker, and what that came to. -/
structure Record where
  worker : Nat
  datagram : Datagram
  outcome : Outcome
deriving DecidableEq, Inhabited

/-- A reply on its way. -/
structure Reply where
  target : Net.Endpoint
  octets : Octets
deriving DecidableEq, Inhabited

/-- A moment of a run. -/
structure State (σ : Type) where
  /-- The state that answering works on. -/
  host : σ
  /-- What the transport will yet hand out. -/
  incoming : List Datagram
  /-- A datagram that the receive loop has and the queue has no room for. -/
  held? : Option Datagram := none
  queue : List Datagram := []
  workers : List Worker
  /-- Whether the receive loop is over. -/
  isClosed : Bool := false
  /-- Faults that are not reported yet. -/
  pending : List Fault := []
  /-- Replies that were sent. -/
  sent : List Reply := []
  /-- Faults that were reported. -/
  reported : List Fault := []
  isFinished : Bool := false
  /-- All datagrams that were answered so far. -/
  history : List Record := []

namespace State

def initial (server : Server σ) (host : σ) (incoming : List Datagram) : State σ where
  host
  incoming
  workers := List.replicate server.workers .idle

def setWorker (state : State σ) (index : Nat) (worker : Worker) : State σ :=
  { state with workers := state.workers.set index worker }

def settle (state : State σ) (index : Nat) (datagram : Datagram) : Outcome → State σ
  | .reply octets => { state with sent := state.sent ++ [⟨datagram.source, octets⟩] }
  | .silence => state
  | .brokeDown cause =>
    { state with pending := state.pending ++ [⟨index, datagram.source, cause.message⟩] }

end State

/-! ### Steps -/

/-- The steps of a run; those of workers name the worker. -/
inductive Event where
  | receive
  | enqueue
  | take (worker : Nat)
  | answer (worker : Nat)
  | settle (worker : Nat)
  | report
  | close
  | stop (worker : Nat)
  | finish
deriving DecidableEq

def step? (server : Server σ) (state : State σ) : Event → Option (State σ)
  | .receive =>
    match state.held?, state.incoming with
    | none, datagram :: rest => some { state with held? := some datagram, incoming := rest }
    | _, _ => none
  | .enqueue =>
    match state.held? with
    | some datagram =>
      if state.queue.length < server.queueDepth then
        some { state with held? := none, queue := state.queue ++ [datagram] }
      else none
    | none => none
  | .take index =>
    match state.workers[index]?, state.queue with
    | some .idle, datagram :: rest =>
      some ({ state with queue := rest }.setWorker index (.busy datagram))
    | _, _ => none
  | .answer index =>
    match state.workers[index]? with
    | some (.busy datagram) =>
      let (outcome, host) := server.respond datagram state.host
      let history := state.history ++ [⟨index, datagram, outcome⟩]
      some ({ state with host, history }.setWorker index (.answered datagram outcome))
    | _ => none
  | .settle index =>
    match state.workers[index]? with
    | some (.answered datagram outcome) =>
      some ((state.settle index datagram outcome).setWorker index .idle)
    | _ => none
  | .report =>
    match state.held?, state.pending with
    | none, fault :: rest =>
      some { state with pending := rest, reported := state.reported ++ [fault] }
    | _, _ => none
  | .close =>
    match state.held?, state.incoming with
    | none, [] => if state.isClosed then none else some { state with isClosed := true }
    | _, _ => none
  | .stop index =>
    match state.workers[index]?, state.queue with
    | some .idle, [] => if state.isClosed then some (state.setWorker index .stopped) else none
    | _, _ => none
  | .finish =>
    if state.isClosed ∧ state.pending = [] ∧ state.workers.all (· == .stopped)
        ∧ state.isFinished = false then
      some { state with isFinished := true }
    else none

def Worker.weight : Worker → Nat
  | .idle => 1
  | .busy _ => 4
  | .answered _ _ => 3
  | .stopped => 0

def Worker.totalWeight : List Worker → Nat
  | [] => 0
  | worker :: rest => worker.weight + totalWeight rest

def State.weight (state : State σ) : Nat :=
  6 * state.incoming.length + (if state.held?.isSome then 5 else 0) + 4 * state.queue.length
    + Worker.totalWeight state.workers + state.pending.length
    + (if state.isClosed then 0 else 1) + (if state.isFinished then 0 else 1)

def events (server : Server σ) : List Event :=
  let workers := List.range server.workers
  [.report] ++ workers.map .settle ++ workers.map .answer ++ workers.map .take
    ++ [.enqueue, .receive, .close] ++ workers.map .stop ++ [.finish]

def advance? (server : Server σ) (state : State σ) : Option (State σ) :=
  (events server).findSome? (step? server state)

def advance (server : Server σ) : (steps : Nat) → State σ → State σ
  | 0, state => state
  | steps + 1, state =>
    match advance? server state with
    | some state => advance server steps state
    | none => state

def serve (server : Server σ) (host : σ) (incoming : List Datagram) : State σ :=
  let state := State.initial server host incoming
  advance server state.weight state

end Snmp.Server
