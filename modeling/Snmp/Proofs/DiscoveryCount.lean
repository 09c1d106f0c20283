/-
  Snmp/Proofs/DiscoveryCount.lean
  ===============================
  **The counter of an agent.**

  Of its own an agent remembers one number, that of the probes it has answered.  Nothing that is
  done for a request touches it (`KeepsProbes`), whatever the callbacks, the clock and the source
  of salts do, and whether or not a reply comes of it.  So after a run the counter has gone up by
  the number of datagrams in it that were sent for discovery, modulo 2^32 (`probes_run`).
-/
import Snmp.Proofs.ReplySize
import Snmp.Server.Basic

namespace Snmp.Agent

variable {σ α β : Type}

/-! ### Actions that count nothing -/

/-- An action leaves the number of probes alone, whether it succeeds or fails. -/
def KeepsProbes (action : Action σ α) : Prop := ∀ state, (action state).2.probes = state.probes

namespace KeepsProbes

theorem pure (a : α) : KeepsProbes (Pure.pure a : Action σ α) := fun _ => rfl

theorem throw (error : Error) : KeepsProbes (MonadExcept.throw error : Action σ α) := fun _ => rfl

theorem host (action : StateM σ α) : KeepsProbes (ExceptT.lift (onHost action)) := fun _ => rfl

theorem bind {action : Action σ α} {next : α → Action σ β} (h : KeepsProbes action)
    (k : ∀ a, KeepsProbes (next a)) : KeepsProbes (action >>= next) := by
  intro state
  have hfirst := h state
  cases hrun : action state with
  | mk outcome middle =>
  rw [hrun] at hfirst
  cases outcome with
  | error error =>
    rw [bind_of_error hrun]
    exact hfirst
  | ok a =>
    rw [bind_of_ok hrun]
    exact (k a middle).trans hfirst

end KeepsProbes

section Requests

variable (agent : Agent σ) (request : Message) (user? : Option Usm.User) (pdu : Pdu)

theorem keepsProbes_freshParameters (userName : Octets) :
    KeepsProbes (agent.freshParameters userName) := by
  unfold freshParameters
  exact (KeepsProbes.host _).bind fun time => .pure _

theorem keepsProbes_replyMessage : KeepsProbes (agent.replyMessage request user? pdu) := by
  unfold replyMessage
  cases request.header? with
  | none => exact .pure _
  | some header =>
    refine KeepsProbes.bind ?_ fun security => .pure _
    unfold replyParameters
    apply (keepsProbes_freshParameters agent _).bind
    intro fresh
    split
    · unfold drawSalt
      refine ((KeepsProbes.host _).bind ?_).bind fun salt => .pure _
      intro salt?
      split
      · exact .pure _
      · exact .throw _
    · exact .pure _

theorem keepsProbes_encodePdu : KeepsProbes (agent.encodePdu request user? pdu) := by
  unfold encodePdu
  apply (keepsProbes_replyMessage agent request user? pdu).bind
  intro message
  cases message.encode agent.suite user? with
  | error error => exact .throw error
  | ok octets => exact .pure octets

theorem keepsProbes_fit (limit fits excess : Nat) :
    KeepsProbes (agent.fit request user? pdu limit fits excess none) := by
  apply agent.fit_induction request user? pdu limit (P := KeepsProbes) (Q := fun _ => True)
  · exact fun best _ => .pure best
  · exact fun shorter next hnext => (keepsProbes_encodePdu agent request user? shorter).bind hnext
  · exact fun _ _ => trivial
  · exact trivial

theorem keepsProbes_encodeReply : KeepsProbes (agent.encodeReply request user? pdu) := by
  have htooBig : KeepsProbes (agent.encodeTooBig request user? request.replySizeLimit) := by
    unfold encodeTooBig
    apply (keepsProbes_encodePdu agent request user? _).bind
    intro encoded
    split
    · exact .pure encoded
    · exact .throw _
  unfold encodeReply
  apply (keepsProbes_encodePdu agent request user? pdu).bind
  intro encoded
  split
  · exact .pure encoded
  split
  · apply (keepsProbes_fit agent request user? pdu _ _ _).bind
    intro fitted
    cases fitted with
    | some encoded => exact .pure encoded
    | none => exact htooBig
  · exact htooBig

theorem keepsProbes_answer (source : Net.Endpoint) :
    KeepsProbes (agent.answer request user? source) := by
  have hserve : KeepsProbes (ExceptT.lift (agent.serve request source)) := by
    unfold serve
    split
    · exact .pure _
    · exact .host _
  unfold answer
  apply hserve.bind
  intro served
  split
  · exact .pure none
  · exact (keepsProbes_encodeReply agent request user? _).bind fun octets => .pure _

end Requests

/-! ### Datagrams -/

variable {agent : Agent σ}

/-- Whether a datagram is sent for discovery: without keys it is decoded to a message of version 3
    that has no bindings. -/
def isDiscovery (agent : Agent σ) (datagram : Octets) : Bool :=
  match Message.decode agent.suite datagram none with
  | .ok message => isProbe message
  | .error _ => false

theorem negotiate_of_isDiscovery {datagram : Octets} (h : agent.isDiscovery datagram = true) :
    ∃ probe, Message.decode agent.suite datagram none = .ok probe ∧ isProbe probe = true ∧
      agent.negotiate datagram = .ok (.probe probe) := by
  unfold isDiscovery at h
  split at h
  · rename_i probe hdecode
    refine ⟨probe, hdecode, h, ?_⟩
    simp only [negotiate, hdecode, if_pos h]
  · cases h

/-- Nothing else is taken for a probe. -/
theorem isDiscovery_of_negotiate {datagram : Octets} {probe : Message}
    (h : agent.negotiate datagram = .ok (.probe probe)) : agent.isDiscovery datagram = true := by
  unfold negotiate at h
  split at h
  · rename_i message hdecode
    split at h
    · rename_i hprobe
      simp only [isDiscovery, hdecode, hprobe]
    · cases h
  · split at h
    · cases h
    split at h
    · cases h
    split at h
    · cases h
    · cases h

theorem isDiscovery_eq_false {datagram : Octets}
    (h : ∀ probe, agent.negotiate datagram ≠ .ok (.probe probe)) :
    agent.isDiscovery datagram = false := by
  cases hdiscovery : agent.isDiscovery datagram with
  | false => rfl
  | true =>
    obtain ⟨probe, _, _, hnegotiate⟩ := negotiate_of_isDiscovery hdiscovery
    exact absurd hnegotiate (h probe)

theorem probes_report (agent : Agent σ) (probe : Message) (state : State σ) :
    (agent.report probe state).2.probes = state.probes + 1 := by
  have hcount : (ExceptT.lift countProbe : Action σ UInt32) state =
      (.ok (state.probes + 1), { state with probes := state.probes + 1 }) := rfl
  rw [report, bind_of_ok hcount]
  refine KeepsProbes.bind (keepsProbes_freshParameters agent []) ?_
    { state with probes := state.probes + 1 }
  intro security
  cases (agent.reportMessage probe (state.probes + 1) security).encode agent.suite none with
  | error error => exact .throw error
  | ok octets => exact .pure octets

/-- One datagram counts if it is sent for discovery, and not otherwise. -/
theorem probes_respond (agent : Agent σ) (datagram : Octets) (source : Net.Endpoint)
    (state : State σ) :
    (agent.respond datagram source state).2.probes =
      state.probes + UInt32.ofNat (agent.isDiscovery datagram).toNat := by
  cases hnegotiate : agent.negotiate datagram with
  | error error =>
    have hnot : agent.isDiscovery datagram = false :=
      isDiscovery_eq_false fun probe hprobe => by cases hnegotiate.symm.trans hprobe
    simp only [respond, hnegotiate, hnot]
    exact (UInt32.add_zero state.probes).symm
  | ok negotiated =>
    cases negotiated with
    | request request user? =>
      have hnot : agent.isDiscovery datagram = false :=
        isDiscovery_eq_false fun probe hprobe => by cases hnegotiate.symm.trans hprobe
      simp only [respond, hnegotiate, hnot]
      rw [keepsProbes_answer agent request user? source state]
      exact (UInt32.add_zero state.probes).symm
    | probe probe =>
      simp only [respond, hnegotiate, isDiscovery_of_negotiate hnegotiate]
      have hreport := agent.probes_report probe state
      cases hrun : agent.report probe state with
      | mk outcome after =>
      rw [hrun] at hreport
      cases outcome with
      | error error =>
        rw [bind_of_error hrun]
        exact hreport
      | ok octets =>
        rw [bind_of_ok hrun]
        exact hreport

/-! ### Runs -/

/-- Answers datagrams one after the other. -/
def run (agent : Agent σ) (datagrams : List Datagram) :
    StateM (State σ) (List (Except Error (Option Octets))) :=
  datagrams.mapM fun datagram => (agent.respond datagram.octets datagram.source).run

theorem run_cons (agent : Agent σ) (datagram : Datagram) (later : List Datagram)
    (state : State σ) :
    agent.run (datagram :: later) state =
      ((agent.respond datagram.octets datagram.source state).1 ::
          (agent.run later (agent.respond datagram.octets datagram.source state).2).1,
        (agent.run later (agent.respond datagram.octets datagram.source state).2).2) := by
  rw [run, List.mapM_cons]
  rfl

/-- An answer in a run is that of the state in which the datagrams before it have left the
    agent. -/
theorem getElem?_run (agent : Agent σ) (datagram : Datagram) (later : List Datagram)
    (earlier : List Datagram) : ∀ state,
    (agent.run (earlier ++ datagram :: later) state).1[earlier.length]? =
      some (agent.respond datagram.octets datagram.source (agent.run earlier state).2).1 := by
  induction earlier with
  | nil =>
    intro state
    rw [List.nil_append, run_cons]
    rfl
  | cons first rest ih =>
    intro state
    rw [List.cons_append, run_cons, run_cons]
    exact ih _

/-- The number of datagrams that were sent for discovery. -/
def discoveries (agent : Agent σ) (datagrams : List Datagram) : Nat :=
  datagrams.countP (agent.isDiscovery ·.octets)

theorem discoveries_concat {datagram : Datagram} (h : agent.isDiscovery datagram.octets = false)
    (earlier : List Datagram) :
    agent.discoveries (earlier ++ [datagram]) = agent.discoveries earlier := by
  rw [discoveries, discoveries, List.countP_append, List.countP_cons_of_neg]
  · rfl
  · rw [h]
    exact Bool.false_ne_true

/-- A run counts the datagrams in it that were sent for discovery, by induction on the run. -/
theorem probes_run (agent : Agent σ) (datagrams : List Datagram) : ∀ state,
    (agent.run datagrams state).2.probes =
      state.probes + UInt32.ofNat (agent.discoveries datagrams) := by
  induction datagrams with
  | nil => exact fun state => (UInt32.add_zero state.probes).symm
  | cons first rest ih =>
    intro state
    have hcount : agent.discoveries (first :: rest) =
        (agent.isDiscovery first.octets).toNat + agent.discoveries rest := by
      rw [discoveries, List.countP_cons, Nat.add_comm]
      cases agent.isDiscovery first.octets <;> rfl
    rw [run_cons, hcount, UInt32.ofNat_add, ← UInt32.add_assoc, ← probes_respond]
    exact ih _

end Snmp.Agent
