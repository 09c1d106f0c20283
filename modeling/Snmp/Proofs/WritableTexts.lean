/-
  Snmp/Proofs/WritableTexts.lean
  ==============================
  **Reading what was written to the texts of the system group.**

  A run is any sequence of requests that a scope serves, with anything happening between them
  but to the texts (`Scope.Runs`).  What was written is what responses say was written: the
  strings of the Set bindings that they give back unchanged (`Turn.written`).  At every moment a
  text is what lossy reading makes of the last of these strings, and so it reads back as this
  string exactly if the string is UTF-8 (`texts_read_back`).  A string that is not comes back as
  another, which may be longer than a string may be that is written.
-/
import Snmp.Proofs.GroupScopes
import Snmp.Proofs.Utf8Text

namespace Snmp.Mib

open SystemGroup Text.Utf8

variable {σ : Type} {texts : Part σ SystemTexts} {which : SystemText}

/-! ### What was written -/

/-- What a text is once strings were written one after the other. -/
def latest (before : String) (strings : List Octets) : String :=
  (strings.getLast?.map decodeLossy).getD before

theorem latest_append (before : String) (first later : List Octets) :
    latest before (first ++ later) = latest (latest before first) later := by
  unfold latest
  rw [List.getLast?_append]
  cases later.getLast? <;> rfl

/-- The string that a Set binding has for a text, if the response gives the binding back. -/
def acknowledged (which : SystemText) (asked given : Binding) : Option Octets :=
  match asked.value with
  | .octetString octets => if asked.oid = which.oid ∧ given = asked then some octets else none
  | _ => none

def acknowledgedAll (which : SystemText) (asked given : List Binding) : List Octets :=
  (asked.zipWith (fun asked given => (acknowledged which asked given).toList) given).flatten

@[simp] theorem acknowledgedAll_cons (which : SystemText) (asked given : Binding)
    (others left : List Binding) : acknowledgedAll which (asked :: others) (given :: left) =
      (acknowledged which asked given).toList ++ acknowledgedAll which others left := rfl

/-- A request and what came of it. -/
structure Turn where
  request : Pdu
  outcome : Except Error (Option Pdu)

/-- The strings for a text that a Set request had and its response gave back. -/
def Turn.written (turn : Turn) (which : SystemText) : List Octets :=
  match turn.outcome with
  | .ok (some response) =>
    if turn.request.type = .setRequest then
      acknowledgedAll which turn.request.bindings response.bindings
    else []
  | _ => []

theorem acknowledged_of_ne {asked : Binding} (h : asked.oid ≠ which.oid) (given : Binding) :
    acknowledged which asked given = none := by
  unfold acknowledged
  split
  · rw [if_neg fun hboth => h hboth.1]
  · rfl

theorem acknowledged_eq_some {asked given : Binding} {octets : Octets}
    (h : acknowledged which asked given = some octets) :
    asked.oid = which.oid ∧ asked.value = .octetString octets := by
  unfold acknowledged at h
  split at h
  · split at h
    · next hvalue hboth => exact ⟨hboth.1, hvalue.trans (congrArg _ (Option.some.inj h))⟩
    · contradiction
  · contradiction

/-- What was acknowledged was so in some place. -/
theorem exists_of_mem_acknowledgedAll {asked given : List Binding} {octets : Octets}
    (h : octets ∈ acknowledgedAll which asked given) :
    ∃ (place : Nat) (a g : Binding), asked[place]? = some a ∧ given[place]? = some g ∧
      acknowledged which a g = some octets := by
  obtain ⟨strings, hstrings, hmem⟩ := List.mem_flatten.1 h
  obtain ⟨place, hplace⟩ := List.mem_iff_getElem?.1 hstrings
  obtain ⟨a, g, ha, hg, rfl⟩ := List.getElem?_zipWith_eq_some.1 hplace
  exact ⟨place, a, g, ha, hg, Option.mem_toList.1 hmem⟩

/-! ### One binding -/

/-- The error that refuses a string does not pass for the string, which is longer. -/
theorem toValue_tooLong_ne {octets : Octets} (h : SystemText.maxLength < octets.length) :
    (tooLong octets).toValue ≠ .octetString octets := by
  intro hsame
  have hlength := congrArg List.length (Value.octetString.inj hsame)
  simp only [tooLong, CallbackError.message, encode_append, List.length_append] at hlength
  generalize octets.length = n at h hlength
  -- A number has far fewer digits than it counts.
  have hdigits : (toString n).length ≤ n / 8 := by
    have hself : n / 8 - 1 < 10 ^ (n / 8 - 1) := Nat.lt_pow_self (by decide)
    have hpow : 10 ^ (n / 8) = 10 ^ (n / 8 - 1) * 10 := by
      rw [← Nat.pow_succ, Nat.succ_eq_add_one, Nat.sub_add_cancel]
      simp only [SystemText.maxLength] at h
      omega
    simp only [SystemText.maxLength] at h
    apply (Nat.length_repr_le_iff (by omega)).2
    omega
  have hnumber := length_encode_le (toString n)
  have herror : (encode "ERROR: ").length = 7 := by decide
  have hvalue : (encode (toString "value of ")).length = 9 := by decide
  have hoctets : (encode (toString " octets exceeds ")).length = 16 := by decide
  have hmax : (encode (toString SystemText.maxLength)).length = 3 := by decide
  simp only [SystemText.maxLength] at h hmax hlength
  omega

namespace Scope

variable {scope : Scope σ} {info : SystemInfo} {upTime : σ → Nat}

theorem acknowledged_tooLong (scope : Scope σ) (place : Nat) {named : SystemText}
    {octets : Octets} (h : SystemText.maxLength < octets.length) :
    acknowledged which ⟨named.oid, .octetString octets⟩
      (scope.substitute place named.oid (tooLong octets)).binding = none :=
  if_neg fun hboth => toValue_tooLong_ne h (congrArg Binding.value hboth.2)

theorem acknowledged_self (which : SystemText) (octets : Octets) :
    acknowledged which ⟨which.oid, .octetString octets⟩ ⟨which.oid, .octetString octets⟩ =
      some octets :=
  if_pos ⟨rfl, rfl⟩

/-- Whether a string is accepted for a text is decided by the value of the binding. -/
theorem HoldsGroup.exists_acknowledged_iff (h : scope.HoldsGroup info texts upTime)
    (context : RequestContext) (place : Nat) {asked : Binding} (hasked : asked.oid = which.oid)
    (state : σ) :
    (∃ octets, acknowledged which asked
      (scope.answerSet context place asked state).1.binding = some octets) ↔
      ∃ octets, asked.value = .octetString octets ∧ octets.length ≤ SystemText.maxLength := by
  obtain ⟨oid, value⟩ := asked
  obtain rfl : oid = which.oid := hasked
  rw [h.answerSet_text]
  cases value with
  | octetString octets =>
    by_cases hlong : SystemText.maxLength < octets.length
    · simp only [if_pos hlong, acknowledged_tooLong scope place hlong]
      constructor
      · rintro ⟨_, hnone⟩
        cases hnone
      · rintro ⟨_, ⟨⟩, hshort⟩
        omega
    · simp only [if_neg hlong, acknowledged_self]
      exact ⟨fun _ => ⟨octets, rfl, by omega⟩, fun _ => ⟨octets, rfl⟩⟩
  | _ => simp [acknowledged]

/-- A Set binding leaves of a text what its answer acknowledges. -/
theorem HoldsGroup.get_answerSet (h : scope.HoldsGroup info texts upTime)
    (which : SystemText) (context : RequestContext) (place : Nat) (asked : Binding) (state : σ) :
    (texts.get (scope.answerSet context place asked state).2).get which =
      latest ((texts.get state).get which)
        (acknowledged which asked
          (scope.answerSet context place asked state).1.binding).toList := by
  by_cases hnamed : ∃ named : SystemText, asked.oid = named.oid
  · obtain ⟨named, hoid⟩ := hnamed
    obtain ⟨oid, value⟩ := asked
    obtain rfl : oid = named.oid := hoid
    rw [h.answerSet_text]
    cases value with
    | octetString octets =>
      by_cases hlong : SystemText.maxLength < octets.length
      · simp only [if_pos hlong, acknowledged_tooLong scope place hlong]
        rfl
      · simp only [if_neg hlong, Part.modify, texts.get_set, SystemTexts.get_set]
        by_cases hsame : which = named
        · subst hsame
          rw [if_pos rfl, acknowledged_self]
          rfl
        · have hother : named.oid ≠ which.oid := fun hoid => hsame (oid_injective hoid).symm
          rw [if_neg hsame, acknowledged_of_ne hother]
          rfl
    | _ => rfl
  · have hne : ∀ named : SystemText, asked.oid ≠ named.oid := fun named hoid => hnamed ⟨named, hoid⟩
    rw [h.keeps_answerSet context place hne state, acknowledged_of_ne (hne which)]
    rfl

/-! ### One request -/

theorem HoldsGroup.get_answerAll (h : scope.HoldsGroup info texts upTime) (which : SystemText)
    (context : RequestContext) (bindings : List Binding) : ∀ place state,
    (texts.get (answerAll (scope.answerSet context) place bindings state).2).get which =
      latest ((texts.get state).get which)
        (acknowledgedAll which bindings
          ((answerAll (scope.answerSet context) place bindings state).1.map (·.binding))) := by
  induction bindings with
  | nil => exact fun _ _ => rfl
  | cons asked rest ih =>
    intro place state
    have hfirst := h.get_answerSet which context place asked state
    cases hanswer : scope.answerSet context place asked state with
    | mk answer after =>
    have hrest := ih (place + 1) after
    have hcons : answerAll (scope.answerSet context) place (asked :: rest) state =
        (answer :: (answerAll (scope.answerSet context) (place + 1) rest after).1,
          (answerAll (scope.answerSet context) (place + 1) rest after).2) := by
      simp only [answerAll, bind, StateT.bind, hanswer]
      rfl
    rw [hanswer] at hfirst
    rw [hcons, List.map_cons, acknowledgedAll_cons, latest_append, ← hfirst]
    exact hrest

/-- A request leaves of a text what its response acknowledges. -/
theorem HoldsGroup.get_serve (h : scope.HoldsGroup info texts upTime) (which : SystemText)
    (context : RequestContext) (pdu : Pdu) (state : σ) :
    (texts.get (scope.serve context pdu state).2).get which =
      latest ((texts.get state).get which)
        (Turn.written ⟨pdu, (scope.serve context pdu state).1⟩ which) := by
  by_cases hset : pdu.type = .setRequest
  · have hanswers := h.get_answerAll which context pdu.bindings 0 state
    rw [← Response.bindings_toPdu _ pdu] at hanswers
    simp only [serve, hset, Turn.written]
    exact hanswers
  · have hwritten : Turn.written ⟨pdu, (scope.serve context pdu state).1⟩ which = [] := by
      unfold Turn.written
      split
      · exact if_neg hset
      · rfl
    rw [h.keeps_serve context hset state, hwritten]
    rfl

/-- A Get or GetNext binding that is answered by a text. -/
def AsksFor (scope : Scope σ) (texts : Part σ SystemTexts) (which : SystemText) (type : PduType)
    (oid : Oid) : Prop :=
  type = .getRequest ∧ oid = which.oid ∨
    type = .getNextRequest ∧ scope.registry.nextVariable? oid = some (textVariable texts which)

/-- It is answered with the present text. -/
theorem HoldsGroup.serve_text (h : scope.HoldsGroup info texts upTime) (which : SystemText)
    {pdu : Pdu} {place : Nat} {asked : Binding} (hplace : pdu.bindings[place]? = some asked)
    (hasks : scope.AsksFor texts which pdu.type asked.oid) (context : RequestContext) (state : σ) :
    ∃ response after, scope.serve context pdu state = (.ok (some response), after) ∧
      response.bindings[place]? = some ⟨which.oid, .ofText ((texts.get state).get which)⟩ := by
  have htask : (scope.tasks pdu)[place]? = some (.ask place (textVariable texts which) .read) := by
    rcases hasks with ⟨htype, hoid⟩ | ⟨htype, hnext⟩
    · simp only [tasks, htype, List.getElem?_mapIdx, hplace, Option.map_some, getTask, hoid,
        h.find?_text which, Task.ofFound]
    · simp only [tasks, htype, List.getElem?_mapIdx, hplace, Option.map_some, nextTask, hnext,
        Task.ofFound]
  have hset : pdu.type ≠ .setRequest := by
    rcases hasks with ⟨htype, _⟩ | ⟨htype, _⟩ <;> rw [htype] <;> decide
  have hrequest : isRequest pdu.type = true := by
    rcases hasks with ⟨htype, _⟩ | ⟨htype, _⟩ <;> rw [htype] <;> rfl
  obtain ⟨response, after, hserve, hbindings, -⟩ := scope.serve_of_isRequest context hrequest state
  obtain ⟨before, hbefore, hanswer⟩ := getElem?_mapM
    (fun before => texts.get before = texts.get state)
    (fun task ht s hs => (h.keeps_perform context hset ht s).trans hs) htask state rfl
  refine ⟨response, after, hserve, ?_⟩
  rw [hbindings, List.getElem?_map, hanswer, ← hbefore]
  rfl

/-- A Set binding that names a text is answered with what is decided by its value alone. -/
theorem HoldsGroup.serve_set (h : scope.HoldsGroup info texts upTime) {pdu : Pdu}
    (htype : pdu.type = .setRequest) {place : Nat} {asked : Binding}
    (hplace : pdu.bindings[place]? = some asked) (hasked : asked.oid = which.oid)
    (context : RequestContext) (state : σ) :
    ∃ response after given, scope.serve context pdu state = (.ok (some response), after) ∧
      response.bindings[place]? = some given ∧
      ((∃ octets, acknowledged which asked given = some octets) ↔
        ∃ octets, asked.value = .octetString octets ∧ octets.length ≤ SystemText.maxLength) := by
  have htask : (scope.tasks pdu)[place]? = some (scope.setTask place asked) := by
    simp only [tasks, htype, List.getElem?_mapIdx, hplace, Option.map_some]
  have hrequest : isRequest pdu.type = true := by rw [htype]; rfl
  obtain ⟨response, after, hserve, hbindings, -⟩ := scope.serve_of_isRequest context hrequest state
  obtain ⟨before, -, hanswer⟩ := getElem?_mapM (f := scope.perform context) (fun _ => True)
    (fun _ _ _ _ => trivial) htask state trivial
  refine ⟨response, after, _, hserve, ?_, h.exists_acknowledged_iff context place hasked before⟩
  rw [hbindings, List.getElem?_map, hanswer, answerSet_eq]
  rfl

theorem HoldsGroup.state_answerSet (h : scope.HoldsGroup info texts upTime)
    (context : RequestContext) (place : Nat) (which : SystemText) (value : Value) (state : σ) :
    (scope.answerSet context place ⟨which.oid, value⟩ state).2 = state ∨
      ∃ text, (scope.answerSet context place ⟨which.oid, value⟩ state).2 =
        texts.modify (·.set which text) state := by
  rw [h.answerSet_text]
  cases value with
  | octetString octets =>
    simp only
    split
    · exact .inl rfl
    · exact .inr ⟨_, rfl⟩
  | _ => exact .inl rfl

theorem HoldsGroup.answerSet_refused (h : scope.HoldsGroup info texts upTime)
    (context : RequestContext) (place : Nat) (which : SystemText) {value : Value}
    (hvalue : ∀ octets, value = .octetString octets → SystemText.maxLength < octets.length)
    (state : σ) : (scope.answerSet context place ⟨which.oid, value⟩ state).2 = state := by
  rw [h.answerSet_text]
  cases value with
  | octetString octets => simp only [if_pos (hvalue octets rfl)]
  | _ => rfl

/-- A Set binding that names a variable of the group has no effect on the value of another
    variable. -/
theorem HoldsGroup.read_answerSet (h : scope.HoldsGroup info texts upTime)
    (context : RequestContext) (place : Nat) {asked : Binding} {named v : Variable σ}
    (hnamed : named ∈ entries info texts upTime) (hasked : asked.oid = named.oid)
    (hv : v ∈ scope.registry.entries) (hother : v.oid ≠ asked.oid) (state : σ) :
    (v.read (scope.answerSet context place asked state).2).1 = (v.read state).1 := by
  obtain ⟨oid, value⟩ := asked
  obtain rfl : oid = named.oid := hasked
  by_cases htext : ∃ which : SystemText, named.oid = which.oid
  · obtain ⟨which, hoid⟩ := htext
    rw [hoid] at hother ⊢
    rcases h.state_answerSet context place which value state with hsame | ⟨text, hchanged⟩
    · rw [hsame]
    · rw [hchanged]
      rcases h.text_or_apart hv with ⟨other, rfl⟩ | hapart
      · have hne : other ≠ which := fun hsame => hother (congrArg SystemText.oid hsame)
        simp only [read_textVariable, Part.modify, texts.get_set, SystemTexts.get_set, if_neg hne]
      · exact hapart.read_set _ state
  · have hne : ∀ which : SystemText, named.oid ≠ which.oid := fun which hoid => htext ⟨which, hoid⟩
    rw [h.answerSet_readOnly context place hnamed hne]

/-- A request that writes one text. -/
def writeRequest (which : SystemText) (octets : Octets) : Pdu where
  type := .setRequest
  requestId := 1
  bindings := [⟨which.oid, .octetString octets⟩]

/-- A request that reads one text. -/
def readRequest (which : SystemText) : Pdu where
  type := .getRequest
  requestId := 2
  bindings := [.unset which.oid]

/-- The response to a string that is not too long is the request over again. -/
theorem HoldsGroup.serve_writeRequest (h : scope.HoldsGroup info texts upTime)
    (which : SystemText) {octets : Octets} (hshort : octets.length ≤ SystemText.maxLength)
    (context : RequestContext) (state : σ) :
    scope.serve context (writeRequest which octets) state =
      (.ok (some { writeRequest which octets with type := .response }),
        texts.modify (·.set which (decodeLossy octets)) state) := by
  have hanswer := h.answerSet_text context 0 which (.octetString octets) state
  simp only [if_neg (Nat.not_lt.2 hshort)] at hanswer
  simp only [serve, writeRequest, answerAll, bind, StateT.bind, hanswer]
  rfl

/-! ### Runs -/

/-- A run that began in a state: requests are served one after the other, and between them
    anything may happen but to the texts. -/
inductive Runs (scope : Scope σ) (texts : Part σ SystemTexts) (start : σ) : List Turn → σ → Prop
  | start : Runs scope texts start [] start
  | elapse {turns : List Turn} {before after : σ} (run : Runs scope texts start turns before)
      (kept : texts.get after = texts.get before) : Runs scope texts start turns after
  | serve {turns : List Turn} {before : σ} (run : Runs scope texts start turns before)
      (context : RequestContext) (pdu : Pdu) :
      Runs scope texts start (turns ++ [⟨pdu, (scope.serve context pdu before).1⟩])
        (scope.serve context pdu before).2

/-- The strings that were written to a text in a run, the oldest first. -/
def writtenIn (turns : List Turn) (which : SystemText) : List Octets :=
  turns.flatMap (·.written which)

/-- A text is what was written last, by induction on the run. -/
theorem HoldsGroup.get_of_runs (h : scope.HoldsGroup info texts upTime) {start state : σ}
    {turns : List Turn} (hrun : scope.Runs texts start turns state) (which : SystemText) :
    (texts.get state).get which =
      latest ((texts.get start).get which) (writtenIn turns which) := by
  induction hrun with
  | start => rfl
  | elapse run kept ih => rw [kept, ih]
  | serve run context pdu ih =>
    rw [h.get_serve, ih, ← latest_append, writtenIn, writtenIn, List.flatMap_append,
      List.flatMap_singleton]

/-- No string that was written to a text is too long for it. -/
theorem HoldsGroup.length_le_of_written (h : scope.HoldsGroup info texts upTime) {start state : σ}
    {turns : List Turn} (hrun : scope.Runs texts start turns state) {octets : Octets}
    (hoctets : octets ∈ writtenIn turns which) : octets.length ≤ SystemText.maxLength := by
  induction hrun with
  | start => contradiction
  | elapse run kept ih => exact ih hoctets
  | @serve turns before run context pdu ih =>
    rw [writtenIn, List.flatMap_append, List.mem_append, List.flatMap_singleton] at hoctets
    rcases hoctets with hearlier | hlast
    · exact ih hearlier
    · unfold Turn.written at hlast
      split at hlast
      · next response hresponse =>
        split at hlast
        · next htype =>
          obtain ⟨place, asked, given, hasked, hgiven, hsome⟩ := exists_of_mem_acknowledgedAll hlast
          obtain ⟨hoid, hvalue⟩ := acknowledged_eq_some hsome
          obtain ⟨_, after, _, hserve, hplace, hiff⟩ := h.serve_set htype hasked hoid context before
          simp only [hserve] at hresponse
          cases hresponse
          cases hplace.symm.trans hgiven
          obtain ⟨_, hstring, hshort⟩ := hiff.1 ⟨octets, hsome⟩
          cases hvalue.symm.trans hstring
          exact hshort
        · contradiction
      · contradiction

/-! ### The texts of a run -/

/-- The octets of a text as they are read. -/
def textOctets (texts : Part σ SystemTexts) (which : SystemText) (state : σ) : Octets :=
  encode ((texts.get state).get which)

/-- What holds of the texts, and of a request for them, at some moment of a run. -/
structure ReadsBack (scope : Scope σ) (info : SystemInfo) (texts : Part σ SystemTexts)
    (upTime : σ → Nat) (start : σ) (turns : List Turn) (state : σ) : Prop where
  /-- A text is read as its present octets. -/
  read : ∀ (which : SystemText) (context : RequestContext) (pdu : Pdu) (place : Nat)
    (asked : Binding), pdu.bindings[place]? = some asked →
    scope.AsksFor texts which pdu.type asked.oid →
    ∃ response after, scope.serve context pdu state = (.ok (some response), after) ∧
      response.bindings[place]? = some ⟨which.oid, .octetString (textOctets texts which state)⟩
  initial : ∀ which, writtenIn turns which = [] →
    textOctets texts which state = textOctets texts which start
  /-- The string that was written last comes back exactly if it is text. -/
  written : ∀ which octets, (writtenIn turns which).getLast? = some octets →
    textOctets texts which state = encode (decodeLossy octets) ∧
      (textOctets texts which state = octets ↔ IsText octets)
  /-- A Set binding for a text is acknowledged exactly if its value is a string that is not too
      long. -/
  accepted : ∀ (which : SystemText) (context : RequestContext) (pdu : Pdu) (place : Nat)
    (asked : Binding), pdu.type = .setRequest → pdu.bindings[place]? = some asked →
    asked.oid = which.oid →
    ∃ response after given, scope.serve context pdu state = (.ok (some response), after) ∧
      response.bindings[place]? = some given ∧
      ((∃ octets, acknowledged which asked given = some octets) ↔
        ∃ octets, asked.value = .octetString octets ∧ octets.length ≤ SystemText.maxLength)
  /-- Any other value leaves everything as it is. -/
  refused : ∀ (which : SystemText) (context : RequestContext) (place : Nat) (value : Value),
    (∀ octets, value = .octetString octets → SystemText.maxLength < octets.length) →
    (scope.answerSet context place ⟨which.oid, value⟩ state).2 = state
  /-- A Set binding for a variable of the group has no effect on another variable. -/
  apart : ∀ (context : RequestContext) (place : Nat) (asked : Binding) (named v : Variable σ),
    named ∈ entries info texts upTime → asked.oid = named.oid → v ∈ scope.registry.entries →
    v.oid ≠ asked.oid →
    (v.read (scope.answerSet context place asked state).2).1 = (v.read state).1
  /-- Texts stay as short as strings have to be, if only text was written. -/
  bounded : ∀ which, (textOctets texts which start).length ≤ SystemText.maxLength →
    (∀ octets ∈ writtenIn turns which, IsText octets) →
    (textOctets texts which state).length ≤ SystemText.maxLength
  /-- They are never longer than three times as much. -/
  tripled : ∀ which, (textOctets texts which start).length ≤ 3 * SystemText.maxLength →
    (textOctets texts which state).length ≤ 3 * SystemText.maxLength

/-- **The texts read back what was written, as far as it is text.** -/
theorem texts_read_back (h : scope.HoldsGroup info texts upTime) {start state : σ}
    {turns : List Turn} (hrun : scope.Runs texts start turns state) :
    scope.ReadsBack info texts upTime start turns state := by
  have hget := h.get_of_runs hrun
  have hinitial (which : SystemText) (hnone : writtenIn turns which = []) :
      textOctets texts which state = textOctets texts which start := by
    rw [textOctets, hget, hnone]
    rfl
  have hwritten (which : SystemText) (octets : Octets)
      (hlast : (writtenIn turns which).getLast? = some octets) :
      textOctets texts which state = encode (decodeLossy octets) := by
    rw [textOctets, hget, latest, hlast]
    rfl
  have hcases (which : SystemText) (P : Octets → Prop) (hstart : P (textOctets texts which start))
      (hlast : ∀ octets ∈ writtenIn turns which, octets.length ≤ SystemText.maxLength →
        P (encode (decodeLossy octets))) : P (textOctets texts which state) := by
    cases hstrings : (writtenIn turns which).getLast? with
    | none =>
      rw [hinitial which (List.getLast?_eq_none_iff.1 hstrings)]
      exact hstart
    | some octets =>
      have hmem := List.mem_of_getLast? hstrings
      rw [hwritten which octets hstrings]
      exact hlast octets hmem (h.length_le_of_written hrun hmem)
  exact {
    read := fun which context pdu place asked hplace hasks =>
      h.serve_text which hplace hasks context state
    initial := hinitial
    written := fun which octets hlast => by
      rw [hwritten which octets hlast]
      exact ⟨rfl, encode_decodeLossy_iff octets⟩
    accepted := fun which context pdu place asked htype hplace hasked =>
      h.serve_set htype hplace hasked context state
    refused := fun which context place value hvalue =>
      h.answerSet_refused context place which hvalue state
    apart := fun context place asked named v hnamed hasked hv hother =>
      h.read_answerSet context place hnamed hasked hv hother state
    bounded := by
      intro which hstart htext
      apply hcases which (fun octets => octets.length ≤ SystemText.maxLength) hstart
      intro octets hmem hlength
      rwa [(encode_decodeLossy_iff octets).2 (htext octets hmem)]
    tripled := by
      intro which hstart
      apply hcases which (fun octets => octets.length ≤ 3 * SystemText.maxLength) hstart
      intro octets _ hlength
      have := length_encode_decodeLossy_le octets
      omega }

/-- Two letters that are written as the contact are read by whoever asks for it later. -/
theorem texts_read_back_letters :
    ∃ (scope : Scope CommandLine.Device) (turns : List Turn) (later : CommandLine.Device),
      ({} : CommandLine.Options).scope.build = .ok scope ∧
      scope.Runs CommandLine.Device.textsPart {} turns later ∧ later.upTime = 70 ∧
      writtenIn turns .contact = [[97, 98]] ∧
      ∃ response after,
        scope.serve default (readRequest .contact) later = (.ok (some response), after) ∧
        response.bindings[0]? = some ⟨SystemText.contact.oid, .octetString [97, 98]⟩ := by
  obtain ⟨scope, hbuild, hscope⟩ := CommandLine.Options.exists_build {}
  have hserve : scope.serve default (writeRequest .contact [97, 98]) {} = _ :=
    hscope.serve_writeRequest .contact (by decide) default {}
  let later : CommandLine.Device := { texts := { contact := "ab" }, upTime := 70 }
  let turn : Turn := ⟨writeRequest .contact [97, 98],
    (scope.serve default (writeRequest .contact [97, 98]) {}).1⟩
  have hrun : scope.Runs CommandLine.Device.textsPart {} [turn] later := by
    refine .elapse (.serve .start default (writeRequest .contact [97, 98])) ?_
    rw [hserve]
    decide
  have hwritten : writtenIn [turn] .contact = [[97, 98]] := by
    simp only [turn, hserve]
    decide
  have hreads := texts_read_back hscope hrun
  have htext : IsText [97, 98] := ⟨"ab", by decide⟩
  have hletters := (hreads.written .contact [97, 98] (by rw [hwritten]; rfl)).2.2 htext
  obtain ⟨response, after, hresponse, hplace⟩ :=
    hreads.read .contact default (readRequest .contact) 0 (.unset SystemText.contact.oid) rfl
      (.inl ⟨rfl, rfl⟩)
  rw [hletters] at hplace
  exact ⟨scope, _, later, hbuild, hrun, rfl, hwritten, response, after, hresponse, hplace⟩

/-- The octet FF is acknowledged as the contact and comes back as three others; 255 such octets
    come back as 765. -/
theorem contact_replaced :
    ∃ (scope : Scope CommandLine.Device) (after last : CommandLine.Device) (response : Pdu),
      ({} : CommandLine.Options).scope.build = .ok scope ∧
      scope.serve default (writeRequest .contact [0xFF]) {} =
        (.ok (some { writeRequest .contact [0xFF] with type := .response }), after) ∧
      scope.serve default (readRequest .contact) after = (.ok (some response), last) ∧
      response.bindings[0]? =
        some ⟨SystemText.contact.oid, .octetString [0xEF, 0xBF, 0xBD]⟩ ∧
      (textOctets CommandLine.Device.textsPart .contact
        (scope.serve default (writeRequest .contact (List.replicate 255 0xFF)) {}).2).length =
          765 := by
  obtain ⟨scope, hbuild, hscope⟩ := CommandLine.Options.exists_build {}
  have hserve : scope.serve default (writeRequest .contact [0xFF]) {} = _ :=
    hscope.serve_writeRequest .contact (by decide) default {}
  have hmany : scope.serve default (writeRequest .contact (List.replicate 255 0xFF)) {} = _ :=
    hscope.serve_writeRequest .contact (Nat.le_of_eq List.length_replicate) default {}
  have hplace : (readRequest .contact).bindings[0]? = some (.unset SystemText.contact.oid) := rfl
  obtain ⟨response, last, hresponse, hread⟩ :=
    hscope.serve_text .contact hplace (.inl ⟨rfl, rfl⟩) default
      (scope.serve default (writeRequest .contact [0xFF]) {}).2
  refine ⟨scope, _, last, response, hbuild, hserve, ?_, ?_, ?_⟩
  · rw [hserve] at hresponse
    exact hresponse
  · rw [hread, hserve]
    decide
  · rw [hmany]
    exact length_encode_decodeLossy_replicate 255

end Scope

end Snmp.Mib
