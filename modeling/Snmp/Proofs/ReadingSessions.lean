/-
  Snmp/Proofs/ReadingSessions.lean
  ================================
  **Reading in any order of steps.**

  Whoever reads octets may take any steps, go on after one that failed, enter the content of a
  constructed element with a reader of its own and return to the reader outside (`Session`).
  Whatever the octets and the steps, no reader leaves the octets: each shows the octets of the
  data at its offset (`LiesIn`), and each ends where the reader outside goes on, the outermost
  one at the end of the data (`Nested`).  The offset never goes back, and every fault points
  into the data.  As offsets end with the data, they are machine words if the end of the data
  is one.
-/
import Snmp.Proofs.ReaderConfinement

namespace Snmp.Ber

/-! ### Parts of the data -/

/-- Octets stand at an offset of data whose first octet has the offset `base`. -/
structure LiesIn (data : Octets) (base offset : Nat) (octets : Octets) : Prop where
  base_le : base ≤ offset
  stop_le : offset + octets.length ≤ base + data.length
  octets_eq : octets = (data.drop (offset - base)).take octets.length

namespace LiesIn

variable {data octets : Octets} {base offset : Nat}

theorem all (data : Octets) (base : Nat) : LiesIn data base base data where
  base_le := Nat.le_refl _
  stop_le := Nat.le_refl _
  octets_eq := by rw [Nat.sub_self, List.drop_zero, List.take_length]

/-- What lies in octets of the data lies in the data. -/
theorem part (h : LiesIn data base offset octets) {before middle behind : Octets}
    (hoctets : octets = before ++ middle ++ behind) :
    LiesIn data base (offset + before.length) middle where
  base_le := Nat.le_trans h.base_le (Nat.le_add_right ..)
  stop_le := by
    have hstop := h.stop_le
    rw [hoctets, List.length_append, List.length_append] at hstop
    omega
  octets_eq := by
    have heq := congrArg (fun octets => (octets.drop before.length).take middle.length) h.octets_eq
    have hbase := h.base_le
    have hlength : middle.length ≤ octets.length - before.length := by
      rw [hoctets, List.length_append, List.length_append]
      omega
    rw [Nat.sub_add_comm hbase, ← List.drop_drop]
    simp only [List.drop_take, List.take_take, Nat.min_eq_left hlength] at heq
    rw [← heq, hoctets, List.append_assoc, List.drop_left, List.take_left]

theorem of_consumes (h : LiesIn data base offset octets) {used : Octets} {left : Reader}
    (hconsumes : Reader.Consumes ⟨offset, octets⟩ used left) :
    LiesIn data base offset used ∧ LiesIn data base left.offset left.rest := by
  have hrest : octets = used ++ left.rest := hconsumes.rest
  have hfirst : octets = [] ++ used ++ left.rest := hrest
  have hlast : octets = used ++ left.rest ++ [] := by rw [List.append_nil, hrest]
  refine ⟨h.part hfirst, ?_⟩
  rw [hconsumes.offset]
  exact h.part hlast

end LiesIn

/-! ### Sessions -/

/-- What may be read from a reader in one step; a `count` is given by whoever reads. -/
inductive Read where
  | peek
  | tag
  | length
  | octets (count : Nat)
  | expect (expected : Tag)
  | integer
  | integerContent (count : Nat)
  | unsigned32Content (count : Nat)
  | unsigned64Content (count : Nat)
  | octetString
  | octetStringAt
  | null
  | oid
  | oidContent (count : Nat)
  | ipAddress
  | timeTicks
  | value
  | binding
  | bindings
  | pdu

namespace Read

/-- What a read yields if it succeeds. -/
@[reducible] def Result : Read → Type
  | .peek => Option UInt8
  | .tag => Tag
  | .length => Nat
  | .octets _ | .octetString => Octets
  | .expect _ | .null => Unit
  | .integer | .integerContent _ => Int32
  | .unsigned32Content _ | .timeTicks => UInt32
  | .unsigned64Content _ => UInt64
  | .octetStringAt => Nat × Octets
  | .oid | .oidContent _ => Oid
  | .ipAddress => Vector UInt8 4
  | .value => Value
  | .binding => Binding
  | .bindings => List Binding
  | .pdu => Pdu × Option TrapHeader

def decoder : (read : Read) → Decoder read.Result
  | .peek => Decoder.peek?
  | .tag => Decoder.tag
  | .length => Decoder.length
  | .octets count => Decoder.octets count
  | .expect expected => Decoder.expect expected
  | .integer => Decoder.integer
  | .integerContent count => Decoder.integerContent count
  | .unsigned32Content count => Decoder.unsigned32Content count
  | .unsigned64Content count => Decoder.unsigned64Content count
  | .octetString => Decoder.octetString
  | .octetStringAt => Decoder.octetStringAt
  | .null => Decoder.null
  | .oid => Decoder.oid
  | .oidContent count => Decoder.oidContent count
  | .ipAddress => Decoder.ipAddress
  | .timeTicks => Decoder.timeTicks
  | .value => Value.decode
  | .binding => Binding.decode
  | .bindings => Binding.decodeList
  | .pdu => Pdu.decode

theorem confined (start : Nat) (read : Read) : Decoder.Confined start read.decoder := by
  cases read with
  | peek => exact Decoder.confined_peek?
  | tag => exact Decoder.confined_tag
  | length => exact Decoder.confined_length
  | octets count => exact Decoder.confined_octets count
  | expect expected => exact Decoder.confined_expect expected
  | integer => exact Decoder.confined_integer
  | integerContent count => exact Decoder.confined_integerContent count
  | unsigned32Content count => exact Decoder.confined_unsigned32Content count
  | unsigned64Content count => exact Decoder.confined_unsigned64Content count
  | octetString => exact Decoder.confined_octetString
  | octetStringAt => exact Decoder.confined_octetStringAt
  | null => exact Decoder.confined_null
  | oid => exact Decoder.confined_oid
  | oidContent count => exact Decoder.confined_oidContent count
  | ipAddress => exact Decoder.confined_ipAddress
  | timeTicks => exact Decoder.confined_timeTicks
  | value => exact Value.confined_decode
  | binding => exact Binding.confined_decode
  | bindings => exact Binding.confined_decodeList
  | pdu => exact Pdu.confined_decode

end Read

/-- A reader and those of the elements around it, the innermost first. -/
structure Session where
  current : Reader
  outer : List Reader

namespace Session

inductive Step where
  | read (read : Read)
  /-- Enters the content of a constructed element. -/
  | enter (tag : Tag)
  /-- Returns to the reader outside, if there is one. -/
  | leave

def start (data : Octets) (base : Nat) : Session := ⟨.ofOctets data base, []⟩

def readers (session : Session) : List Reader := session.current :: session.outer

/-- The reader that a result leaves behind. -/
def left {α : Type} : EStateM.Result Fault Reader α → Reader
  | .ok _ left => left
  | .error _ left => left

/-- The session after a step, whether or not the step succeeds. -/
def step (session : Session) : Step → Session
  | .read read => { session with current := left (read.decoder session.current) }
  | .enter tag =>
    match Decoder.constructed tag session.current with
    | .ok inner left => ⟨inner, left :: session.outer⟩
    | .error _ left => { session with current := left }
  | .leave =>
    match session.outer with
    | [] => session
    | reader :: rest => ⟨reader, rest⟩

/-- Why a step fails, if it does. -/
def fault? (session : Session) : Step → Option Fault
  | .read read =>
    match read.decoder session.current with
    | .ok _ _ => none
    | .error fault _ => some fault
  | .enter tag =>
    match Decoder.constructed tag session.current with
    | .ok _ _ => none
    | .error fault _ => some fault
  | .leave => none

def run (session : Session) (steps : List Step) : Session := steps.foldl step session

/-- Each reader ends where the one outside goes on, and the outermost one at `stop`. -/
inductive Nested (stop : Nat) : Reader → List Reader → Prop
  | outermost {reader : Reader} (ends : reader.stop = stop) : Nested stop reader []
  | within {reader outside : Reader} {rest : List Reader} (ends : reader.stop = outside.offset)
      (outer : Nested stop outside rest) : Nested stop reader (outside :: rest)

/-- The readers show parts of the data, one within the other. -/
structure Sound (data : Octets) (base : Nat) (session : Session) : Prop where
  lies : ∀ reader ∈ session.readers, LiesIn data base reader.offset reader.rest
  nested : Nested (base + data.length) session.current session.outer

variable {data : Octets} {base : Nat} {session : Session}

theorem Nested.of_stop {stop : Nat} {reader other : Reader} {rest : List Reader}
    (h : Nested stop reader rest) (hstop : other.stop = reader.stop) : Nested stop other rest := by
  cases h with
  | outermost ends => exact .outermost (hstop.trans ends)
  | within ends outer => exact .within (hstop.trans ends) outer

theorem advances_read (read : Read) (r : Reader) : r.Advances (left (read.decoder r)) := by
  cases hrun : read.decoder r with
  | ok result left => exact Decoder.Confined.of_ok (fun start => read.confined start) hrun
  | error fault left =>
    exact (Decoder.Confined.of_error (fun start => read.confined start) hrun).1

theorem sound_start (data : Octets) (base : Nat) : (start data base).Sound data base where
  lies reader hreader := by
    cases List.mem_singleton.1 hreader
    exact LiesIn.all data base
  nested := .outermost rfl

/-- Readers that stand outside are not touched. -/
theorem Sound.advance (h : session.Sound data base) {reader : Reader}
    (hadvances : session.current.Advances reader) :
    Sound data base { session with current := reader } := by
  obtain ⟨hcurrent, houter⟩ := List.forall_mem_cons.1 h.lies
  obtain ⟨used, hconsumes⟩ := hadvances
  refine ⟨List.forall_mem_cons.2 ⟨(hcurrent.of_consumes hconsumes).2, houter⟩, ?_⟩
  exact h.nested.of_stop (Reader.Advances.stop_eq ⟨used, hconsumes⟩)

/-- The reader of a content takes the octets behind the head, and the one outside what comes
    after them. -/
theorem Sound.enter (h : session.Sound data base) {tag : Tag} {inner outside : Reader}
    (hrun : Decoder.constructed tag session.current = .ok inner outside) :
    Sound data base ⟨inner, outside :: session.outer⟩ := by
  obtain ⟨hcurrent, -⟩ := List.forall_mem_cons.1 h.lies
  obtain ⟨head, -, hconsumes, hoffset⟩ := Decoder.constructed_eq_ok hrun
  have houtside := h.advance ⟨_, hconsumes⟩
  have hinner : LiesIn data base inner.offset inner.rest := by
    rw [hoffset]
    exact hcurrent.part hconsumes.rest
  have hends := Decoder.stop_of_constructed hrun
  exact ⟨List.forall_mem_cons.2 ⟨hinner, houtside.lies⟩, .within hends houtside.nested⟩

theorem Sound.leave (h : session.Sound data base) {reader : Reader} {rest : List Reader}
    (houter : session.outer = reader :: rest) : Sound data base ⟨reader, rest⟩ := by
  obtain ⟨-, hlies⟩ := List.forall_mem_cons.1 h.lies
  have hnested := h.nested
  rw [houter] at hlies hnested
  cases hnested with
  | within ends outer => exact ⟨hlies, outer⟩

theorem Sound.step (h : session.Sound data base) (step : Step) :
    (session.step step).Sound data base ∧
      session.current.offset ≤ (session.step step).current.offset := by
  cases step with
  | read read =>
    have hadvances := advances_read read session.current
    exact ⟨h.advance hadvances, hadvances.offset_le⟩
  | enter tag =>
    rw [Session.step]
    cases hrun : Decoder.constructed tag session.current with
    | ok inner outside =>
      obtain ⟨head, -, -, hoffset⟩ := Decoder.constructed_eq_ok hrun
      exact ⟨h.enter hrun, hoffset ▸ Nat.le_add_right ..⟩
    | error fault left =>
      obtain ⟨hadvances, -⟩ := Decoder.Confined.of_error
        (fun _ => Decoder.confined_constructed tag) hrun
      exact ⟨h.advance hadvances, hadvances.offset_le⟩
  | leave =>
    rw [Session.step]
    cases houter : session.outer with
    | nil => exact ⟨h, Nat.le_refl _⟩
    | cons reader rest =>
      -- The reader outside goes on where this one ends.
      have hnested := h.nested
      rw [houter] at hnested
      cases hnested with
      | within ends outer => exact ⟨h.leave houter, ends ▸ session.current.offset_le_stop⟩

theorem Sound.run (h : session.Sound data base) (steps : List Step) :
    (session.run steps).Sound data base ∧
      session.current.offset ≤ (session.run steps).current.offset := by
  induction steps generalizing session with
  | nil => exact ⟨h, Nat.le_refl _⟩
  | cons step rest ih =>
    obtain ⟨hstep, hoffset⟩ := h.step step
    obtain ⟨hrest, hlater⟩ := ih hstep
    exact ⟨hrest, Nat.le_trans hoffset hlater⟩

/-- A fault points between the offset of the reader and its end, so into the data. -/
theorem Sound.fault (h : session.Sound data base) {step : Step} {fault : Fault}
    (hfault : session.fault? step = some fault) :
    base ≤ fault.offset ∧ fault.offset ≤ base + data.length := by
  obtain ⟨hcurrent, -⟩ := List.forall_mem_cons.1 h.lies
  have hbounds : session.current.offset ≤ fault.offset ∧ fault.offset ≤ session.current.stop := by
    cases step with
    | read read =>
      rw [fault?] at hfault
      cases hrun : read.decoder session.current with
      | ok result left => simp [hrun] at hfault
      | error found left =>
        rw [hrun] at hfault
        cases hfault
        exact (Decoder.Confined.of_error (fun start => read.confined start) hrun).2
    | enter tag =>
      rw [fault?] at hfault
      cases hrun : Decoder.constructed tag session.current with
      | ok inner left => simp [hrun] at hfault
      | error found left =>
        rw [hrun] at hfault
        cases hfault
        exact (Decoder.Confined.of_error
          (fun _ => Decoder.confined_constructed tag) hrun).2
    | leave => contradiction
  exact ⟨Nat.le_trans hcurrent.base_le hbounds.1, Nat.le_trans hbounds.2 hcurrent.stop_le⟩

/-- **No reader leaves the data.**  After any steps the readers show parts of the data, each
    within the one outside; further steps, failed ones too, never take the offset back; a step
    that fails names a place in the data.  A reader that is entered covers the content of the
    element and nothing else, at its place, and the reader outside goes on right behind it; the
    octets that are read are those of the data at the place that comes with them. -/
theorem session_sound (data : Octets) (base : Nat) (steps : List Step) (session : Session)
    (hsession : (start data base).run steps = session) :
    session.Sound data base ∧
    (∀ more, session.current.offset ≤ (session.run more).current.offset) ∧
    (∀ step fault, session.fault? step = some fault →
      base ≤ fault.offset ∧ fault.offset ≤ base + data.length) ∧
    (∀ tag inner outside, Decoder.constructed tag session.current = .ok inner outside →
      session.step (.enter tag) = ⟨inner, outside :: session.outer⟩ ∧
      ∃ head, Announces tag inner.remaining head ∧
        session.current.rest = head ++ inner.rest ++ outside.rest ∧
        inner.offset = session.current.offset + head.length ∧ outside.offset = inner.stop) ∧
    (∀ count content left, Decoder.octets count session.current = .ok content left →
      content.length = count ∧ LiesIn data base session.current.offset content) ∧
    (∀ position content left,
      Decoder.octetStringAt session.current = .ok (position, content) left →
      LiesIn data base position content) := by
  have hsound : session.Sound data base := hsession ▸ ((sound_start data base).run steps).1
  obtain ⟨hcurrent, -⟩ := List.forall_mem_cons.1 hsound.lies
  refine ⟨hsound, fun more => (hsound.run more).2, fun _ _ => hsound.fault, ?_, ?_, ?_⟩
  · intro tag inner outside hrun
    obtain ⟨head, hhead, hconsumes, hoffset⟩ := Decoder.constructed_eq_ok hrun
    have hends := Decoder.stop_of_constructed hrun
    exact ⟨by rw [Session.step, hrun], head, hhead, hconsumes.rest, hoffset, hends.symm⟩
  · intro count content left hrun
    obtain ⟨hlength, hconsumes⟩ := Decoder.octets_eq_ok hrun
    exact ⟨hlength, (hcurrent.of_consumes hconsumes).1⟩
  · intro position content left hrun
    obtain ⟨head, -, hconsumes, hposition⟩ := Decoder.octetStringAt_eq_ok hrun
    rw [hposition]
    exact hcurrent.part hconsumes.rest

theorem session_sound_nestedElement :
    let data : Octets := [0x30, 7, 2, 1, 1, 4, 2, 97, 98]
    let inside : Session := ⟨⟨10, [4, 2, 97, 98]⟩, [⟨14, []⟩]⟩
    (start data 5).run [.enter Tag.sequence, .read .integer] = inside ∧ inside.Sound data 5 ∧
      10 ≤ (inside.run [.read .null, .leave]).current.offset ∧
      (∃ fault, inside.fault? (.read .null) = some fault ∧ fault.offset ≤ 14) ∧
      (∃ head, Announces Tag.sequence 7 head ∧ data = head ++ data.drop 2 ++ []) ∧
      LiesIn data 5 10 [4, 2] ∧ LiesIn data 5 12 [97, 98] := by
  have hrun : (start [0x30, 7, 2, 1, 1, 4, 2, 97, 98] 5).run
      [.enter Tag.sequence, .read .integer] = ⟨⟨10, [4, 2, 97, 98]⟩, [⟨14, []⟩]⟩ := rfl
  intro data inside
  have hstarted := session_sound data 5 [] (start data 5) rfl
  have hinside := session_sound data 5 [.enter Tag.sequence, .read .integer] inside hrun
  obtain ⟨-, -, -, henters, -⟩ := hstarted
  obtain ⟨hsound, hlater, hfaults, -, hoctets, hstring⟩ := hinside
  obtain ⟨-, head, hhead, hdata, -⟩ := henters Tag.sequence ⟨7, data.drop 2⟩ ⟨14, []⟩ rfl
  exact ⟨hrun, hsound, hlater _, ⟨_, rfl, (hfaults (.read .null) _ rfl).2⟩, ⟨head, hhead, hdata⟩,
    (hoctets 2 [4, 2] ⟨12, [97, 98]⟩ rfl).2, hstring 12 [97, 98] ⟨14, []⟩ rfl⟩

end Session

end Snmp.Ber
