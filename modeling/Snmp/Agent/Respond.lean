/-
  Snmp/Agent/Respond.lean
  =======================
  **From a datagram to its answer.**

  A datagram that negotiation refuses is dropped with an error.  A probe is answered by a
  report that tells the identity of the engine and counts the probes.  Every other request is
  routed and served; what goes wrong there is answered with the request's own bindings and an
  error status.  A trap is never answered once it has been decoded as a request.
-/
import Snmp.Agent.Reply

namespace Snmp.Agent

variable {σ : Type}

/-! ### Probes -/

/-- usmStatsUnknownEngineIDs.0, the counter that a report carries. -/
def unknownEngineIds : Oid := ⟨[1, 3, 6, 1, 6, 3, 15, 1, 1, 4, 0]⟩

/-- Counts a probe.  The addition wraps, as it does in a release build; a build that checks its
    arithmetic breaks down at probe 2^32. -/
def countProbe : StateM (State σ) UInt32 := fun state =>
  let probes := state.probes + 1
  (probes, { state with probes })

/-- The report that answers the probe with a number. -/
def reportMessage (agent : Agent σ) (probe : Message) (number : UInt32)
    (security : Usm.Parameters) : Message where
  version := .v3
  header? := some ⟨(probe.header?.map (·.msgId)).getD 0, maxMessageSize,
    .ofLevel .noAuthNoPriv false⟩
  security? := some security
  contextEngineId := agent.engineId.octets
  contextName := probe.contextName
  pdu := {
    type := .report
    requestId := probe.pdu.requestId
    bindings := [⟨unknownEngineIds, .counter32 number⟩] }

def report (agent : Agent σ) (probe : Message) : Action σ Octets := do
  let number ← ExceptT.lift countProbe
  let security ← agent.freshParameters []
  MonadExcept.ofExcept ((agent.reportMessage probe number security).encode agent.suite none)

/-! ### Requests -/

/-- What the callbacks of a request are told about it. -/
def context (message : Message) (source : Net.Endpoint) : Mib.RequestContext where
  source
  version := message.version
  pduType := message.pdu.type
  requestId := message.pdu.requestId
  scope := message.routingKey
  userName := message.userName
  securityLevel := message.securityLevel

def serve (agent : Agent σ) (message : Message) (source : Net.Endpoint) :
    StateM (State σ) (Except Error (Option Pdu)) :=
  match agent.route message.routingKey with
  | .error error => return .error error
  | .ok scope => onHost (scope.serve (context message source) message.pdu)

def failureResponse (request : Pdu) (error : Error) : Pdu :=
  (request.toResponse request.bindings).withError error.status 0

/-- The PDU that answers a request with what serving it came to. -/
def responsePdu? (request : Pdu) (served : Except Error (Option Pdu)) : Option Pdu :=
  match served with
  | .ok pdu? => pdu?
  | .error error => if request.type.isTrap then none else some (failureResponse request error)

def answer (agent : Agent σ) (message : Message) (user? : Option Usm.User)
    (source : Net.Endpoint) : Action σ (Option Octets) := do
  let served ← ExceptT.lift (agent.serve message source)
  match responsePdu? message.pdu served with
  | none => return none
  | some pdu => return some (← agent.encodeReply message user? pdu)

/-- Answers a datagram.  There is no answer where none is due, and an error where the datagram
    is dropped. -/
def respond (agent : Agent σ) (datagram : Octets) (source : Net.Endpoint) :
    Action σ (Option Octets) := do
  match agent.negotiate datagram with
  | .error error => throw error
  | .ok (.probe message) => return some (← agent.report message)
  | .ok (.request message user?) => agent.answer message user? source

end Snmp.Agent
