/-
  Snmp/Proofs/ServerConservation.lean
  ===================================
  **A server loses no datagram and answers none twice.**

  At every moment of a run the datagrams that the transport hands out are the ones that were
  answered, those that workers have in hand, and those that still wait: in the queue, in the
  hands of the receive loop or in the transport (`Conserved.taken`).  The answers are those of
  the responder, asked once for each of them (`Conserved.answers`), and each answer has been
  settled once, or is in the hands of the worker that gave it (`Conserved.settled`).  Steps of
  the loop, of the workers and of the reporting of faults move a datagram or its answer from
  one place to the next and touch nothing else, so this holds under every schedule.

  Nothing is assumed of the responder.  It works on a state of any kind, so what an answer comes
  to, a breakdown too, may depend on anything that has happened before.
-/
import Snmp.Proofs.ServerSteps

namespace Snmp.Server

variable {σ : Type} {server : Server σ} {state next : State σ} {event : Event}

/-! ### Where a datagram is -/

/-- The datagrams that no worker has taken yet, in the order in which they will be taken. -/
def State.waiting (state : State σ) : List Datagram :=
  state.queue ++ state.held?.toList ++ state.incoming

/-- What there is with each worker, all together; `index` is the number of the first one. -/
def Worker.gather {α : Type} (part : Nat → Worker → List α) (index : Nat) : List Worker → List α
  | [] => []
  | worker :: rest => part index worker ++ gather part (index + 1) rest

/-- The datagram that a worker has taken and not had answered. -/
def Worker.inHand (_index : Nat) : Worker → List Datagram
  | .busy datagram => [datagram]
  | .idle | .answered _ _ | .stopped => []

/-- The answer that a worker has and has not settled. -/
def Worker.unsettled (index : Nat) : Worker → List Record
  | .answered datagram outcome => [⟨index, datagram, outcome⟩]
  | .idle | .busy _ | .stopped => []

def State.inHand (state : State σ) : List Datagram := Worker.gather Worker.inHand 0 state.workers

def State.unsettled (state : State σ) : List Record :=
  Worker.gather Worker.unsettled 0 state.workers

/-- A worker that turns to something else changes its own part and no other. -/
theorem gather_set {α : Type} (part : Nat → Worker → List α) (start : Nat) (new : Worker)
    {workers : List Worker} {index : Nat} {old : Worker} (h : workers[index]? = some old) :
    (Worker.gather part start (workers.set index new) ++ part (start + index) old).Perm
      (Worker.gather part start workers ++ part (start + index) new) := by
  induction workers generalizing start index with
  | nil => simp at h
  | cons worker rest ih =>
    cases index with
    | zero =>
      cases Option.some.inj h
      have hturned : (Worker.gather part (start + 1) rest ++ part start old).Perm
          (part start old ++ Worker.gather part (start + 1) rest) := List.perm_append_comm
      have hswap := List.perm_append_comm.trans (hturned.append_right (part start new))
      simpa only [List.set_cons_zero, Worker.gather, Nat.add_zero, List.append_assoc] using hswap
    | succ index =>
      have hrest := ih (start + 1) h
      rw [Nat.add_assoc, Nat.add_comm 1] at hrest
      simpa only [List.set_cons_succ, Worker.gather, List.append_assoc] using
        hrest.append_left (part start worker)

theorem gather_eq_nil {α : Type} {part : Nat → Worker → List α} {workers : List Worker}
    {start : Nat} (h : ∀ worker ∈ workers, ∀ index, part index worker = []) :
    Worker.gather part start workers = [] := by
  induction workers generalizing start with
  | nil => rfl
  | cons worker rest ih =>
    rw [Worker.gather, h worker (List.mem_cons_self ..), List.nil_append]
    exact ih fun other hother => h other (List.mem_cons_of_mem worker hother)

/-! ### What every moment of a run conserves -/

/-- A moment of a run that began with `host` and with a transport that hands out the datagrams
    `handedOut` accounts for all of them. -/
structure Conserved (server : Server σ) (host : σ) (handedOut : List Datagram)
    (state : State σ) : Prop where
  /-- Workers have taken datagrams in the order in which these were handed out, and each of them
      was answered or is still in hand. -/
  taken : ∃ taken, handedOut = taken ++ state.waiting ∧
    taken.Perm (state.history.map (·.datagram) ++ state.inHand)
  /-- The responder was asked for each answered datagram once, and for nothing else. -/
  answers : (state.history.map (·.datagram)).mapM server.respond host =
    (state.history.map (·.outcome), state.host)
  /-- Each answer is settled once, as the reply or the fault that it comes to, or not yet. -/
  settled : ∃ settled : List Record, (settled ++ state.unsettled).Perm state.history ∧
    state.sent = settled.filterMap (·.reply?) ∧
    state.reported ++ state.pending = settled.filterMap (·.fault?)
  byWorker : ∀ record ∈ state.history, record.worker < server.workers

namespace Conserved

variable {host : σ} {handedOut : List Datagram}

theorem initial (server : Server σ) (host : σ) (handedOut : List Datagram) :
    Conserved server host handedOut (.initial server host handedOut) := by
  have hhand : (State.initial server host handedOut).inHand = [] := gather_eq_nil
    fun worker hworker index => by rw [List.eq_of_mem_replicate hworker, Worker.inHand]
  have hkept : (State.initial server host handedOut).unsettled = [] := gather_eq_nil
    fun worker hworker index => by rw [List.eq_of_mem_replicate hworker, Worker.unsettled]
  refine ⟨⟨[], rfl, ?_⟩, rfl, ⟨[], ?_, rfl, rfl⟩, fun record hrecord => by contradiction⟩
  · rw [hhand]
    exact .refl _
  · rw [hkept]
    exact .refl _

/-- A worker takes the first datagram that waits. -/
theorem take (h : Conserved server host handedOut state) {index : Nat} {datagram : Datagram}
    {rest : List Datagram} (worker : state.workers[index]? = some .idle)
    (queue : state.queue = datagram :: rest) :
    Conserved server host handedOut
      { state with queue := rest, workers := state.workers.set index (.busy datagram) } := by
  obtain ⟨⟨taken, hwaiting, htaken⟩, hanswers, ⟨settled, hsettled, hreplies⟩, hworker⟩ := h
  refine ⟨⟨taken ++ [datagram], ?_, ?_⟩, hanswers, ⟨settled, ?_, hreplies⟩, hworker⟩
  · simpa [State.waiting, queue] using hwaiting
  · have hhand := gather_set Worker.inHand 0 (.busy datagram) worker
    rw [Worker.inHand, Worker.inHand, List.append_nil] at hhand
    have hmoved := htaken.append_right [datagram]
    rw [List.append_assoc] at hmoved
    exact hmoved.trans (hhand.symm.append_left _)
  · have hkept := gather_set Worker.unsettled 0 (.busy datagram) worker
    rw [Worker.unsettled, Worker.unsettled, List.append_nil, List.append_nil] at hkept
    exact (hkept.append_left settled).trans hsettled

/-- The answer of the responder goes to the history and into the hands of the worker. -/
theorem answer (h : Conserved server host handedOut state)
    (hworkers : state.workers.length = server.workers) {index : Nat} {datagram : Datagram}
    {outcome : Outcome} {after : σ} (worker : state.workers[index]? = some (.busy datagram))
    (respond : server.respond datagram state.host = (outcome, after)) :
    Conserved server host handedOut
      { state with
        host := after
        history := state.history ++ [⟨index, datagram, outcome⟩]
        workers := state.workers.set index (.answered datagram outcome) } := by
  obtain ⟨⟨taken, hwaiting, htaken⟩, hanswers, ⟨settled, hsettled, hreplies⟩, hworker⟩ := h
  refine ⟨⟨taken, hwaiting, ?_⟩, ?_, ⟨settled, ?_, hreplies⟩, ?_⟩
  · have hhand := gather_set Worker.inHand 0 (.answered datagram outcome) worker
    rw [Worker.inHand, Worker.inHand, List.append_nil] at hhand
    have hmoved := htaken.trans (hhand.symm.append_left _)
    rw [List.map_append, List.map_singleton, List.append_assoc]
    exact hmoved.trans (List.perm_append_comm.append_left _)
  · simp only [List.map_append, List.map_singleton, List.mapM_append, List.mapM_cons, List.mapM_nil,
      bind, StateT.bind, hanswers, respond]
    rfl
  · have hkept := gather_set Worker.unsettled 0 (.answered datagram outcome) worker
    rw [Worker.unsettled, Worker.unsettled, List.append_nil, Nat.zero_add] at hkept
    have hmoved := hkept.append_left settled
    rw [← List.append_assoc] at hmoved
    exact hmoved.trans (hsettled.append_right _)
  · intro record hrecord
    rcases List.mem_append.1 hrecord with hrecord | hrecord
    · exact hworker record hrecord
    · cases List.mem_singleton.1 hrecord
      rw [← hworkers]
      exact (List.getElem?_eq_some_iff.1 worker).1

/-- What the answer comes to is sent or left to be reported, and the worker is free again. -/
theorem settle (h : Conserved server host handedOut state) {index : Nat} {datagram : Datagram}
    {outcome : Outcome} (worker : state.workers[index]? = some (.answered datagram outcome)) :
    Conserved server host handedOut
      { state with
        sent := state.sent ++ (Record.reply? ⟨index, datagram, outcome⟩).toList
        pending := state.pending ++ (Record.fault? ⟨index, datagram, outcome⟩).toList
        workers := state.workers.set index .idle } := by
  obtain ⟨⟨taken, hwaiting, htaken⟩, hanswers, ⟨settled, hsettled, hsent, hfaults⟩, hworker⟩ := h
  refine ⟨⟨taken, hwaiting, ?_⟩, hanswers,
    ⟨settled ++ [⟨index, datagram, outcome⟩], ?_, ?_, ?_⟩, hworker⟩
  · have hhand := gather_set Worker.inHand 0 .idle worker
    rw [Worker.inHand, Worker.inHand, List.append_nil, List.append_nil] at hhand
    exact htaken.trans (hhand.symm.append_left _)
  · have hkept := gather_set Worker.unsettled 0 .idle worker
    rw [Worker.unsettled, Worker.unsettled, List.append_nil, Nat.zero_add] at hkept
    rw [List.append_assoc]
    exact ((List.perm_append_comm.trans hkept).append_left settled).trans hsettled
  · rw [List.filterMap_append, hsent]
    cases outcome <;> rfl
  · rw [List.filterMap_append, ← List.append_assoc, hfaults]
    cases outcome <;> rfl

theorem step (h : Conserved server host handedOut state) (horder : InOrder server state)
    (hstep : Step server state event next) : Conserved server host handedOut next := by
  cases hstep with
  | receive held incoming =>
    obtain ⟨taken, hwaiting, htaken⟩ := h.taken
    exact { h with
      taken := ⟨taken, by simpa [State.waiting, held, incoming] using hwaiting, htaken⟩ }
  | enqueue held room =>
    obtain ⟨taken, hwaiting, htaken⟩ := h.taken
    exact { h with taken := ⟨taken, by simpa [State.waiting, held] using hwaiting, htaken⟩ }
  | take worker queue => exact h.take worker queue
  | answer worker respond => exact h.answer horder.workers worker respond
  | settle worker => exact h.settle worker
  | report held pending =>
    obtain ⟨settled, hsettled, hsent, hfaults⟩ := h.settled
    exact { h with settled := ⟨settled, hsettled, hsent, by simpa [pending] using hfaults⟩ }
  | close held incoming opened => exact { h with }
  | stop worker queue closed =>
    obtain ⟨taken, hwaiting, htaken⟩ := h.taken
    obtain ⟨settled, hsettled, hreplies⟩ := h.settled
    have hhand := gather_set Worker.inHand 0 .stopped worker
    have hkept := gather_set Worker.unsettled 0 .stopped worker
    rw [Worker.inHand, Worker.inHand, List.append_nil, List.append_nil] at hhand
    rw [Worker.unsettled, Worker.unsettled, List.append_nil, List.append_nil] at hkept
    exact { h with
      taken := ⟨taken, hwaiting, htaken.trans (hhand.symm.append_left _)⟩
      settled := ⟨settled, (hkept.append_left settled).trans hsettled, hreplies⟩ }
  | finish closed pending workers unfinished => exact { h with }

end Conserved

/-! ### What a finished run leaves behind -/

end Snmp.Server
