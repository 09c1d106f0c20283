/-
  Snmp/Server/Basic.lean
  ======================
  **Servers: workers that answer datagrams.**

  A server hands each datagram to one of its workers, which has it answered and sends the reply
  to where the datagram came from.  If answering breaks down, the worker reports a fault and
  goes on with the next datagram.
-/
import Snmp.Agent.Respond

namespace Snmp

/-- A datagram and where it came from. -/
structure Datagram where
  octets : Octets
  source : Net.Endpoint
deriving DecidableEq, Inhabited

namespace Server

/-- What answering a datagram may come to. -/
inductive Outcome where
  | reply (octets : Octets)
  /-- No reply is due, or the datagram is dropped. -/
  | silence
  | brokeDown (cause : Mib.Breakdown)
deriving DecidableEq, Inhabited

abbrev Responder (σ : Type) := Datagram → StateM σ Outcome

def Responder.ofAgent {σ : Type} (agent : Agent σ) : Responder (Agent.State σ) := fun datagram => do
  match ← (agent.respond datagram.octets datagram.source).run with
  | .ok (some octets) => return .reply octets
  | .ok none => return .silence
  | .error _ => return .silence

/-- The report that answering a datagram broke down. -/
structure Fault where
  worker : Nat
  source : Net.Endpoint
  message : String
deriving DecidableEq, Inhabited

def Fault.text (fault : Fault) : String :=
  s!"worker {fault.worker} failed on request from {fault.source.text}: {fault.message}"

/-- What a server is to be. -/
structure Config where
  workers : Nat
  /-- How many datagrams may wait for a worker. -/
  queueDepth : Nat := 1024

end Server

/-- A server. -/
structure Server (σ : Type) where
  respond : Server.Responder σ
  workers : Nat
  queueDepth : Nat
  workers_pos : 0 < workers
  queueDepth_pos : 0 < queueDepth

def Server.Config.build {σ : Type} (config : Server.Config) (respond : Server.Responder σ) :
    Except Error (Server σ) :=
  if hw : 0 < config.workers then
    if hq : 0 < config.queueDepth then
      .ok ⟨respond, config.workers, config.queueDepth, hw, hq⟩
    else .error (.config (.zeroCapacity "queue depth"))
  else .error (.config (.zeroCapacity "worker count"))

end Snmp
