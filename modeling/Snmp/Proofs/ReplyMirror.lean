/-
  Snmp/Proofs/ReplyMirror.lean
  ============================
  **Replies mirror their requests.**

  Every request but a trap is answered: with the response that its scope has made, or, if there
  is no scope for it or the scope refuses it, with its own bindings and the status of the error
  (`Outcome`).  The response goes back whole, or in one of the forms that it takes if it is too
  large for the sender (`Limited`), and whichever it is, in the frame of the request.

  A reply shows the engine at the moment when it was encoded.  Encoding asks the host for the
  time and for a salt, and a response that is too large is encoded more than once, so the moments
  that count are those reached from the end of serving by such attempts (`Reached`).
-/
import Snmp.Proofs.ReplyFrame

namespace Snmp

open Ber Usm

namespace Agent

variable {σ : Type} {agent : Agent σ} {request : Message} {user? : Option User} {pdu form : Pdu}
  {start moment after : State σ}

/-! ### Attempts -/

/-- A state that is left by attempts to encode replies to a request. -/
inductive Reached (agent : Agent σ) (request : Message) (user? : Option User)
    (start : State σ) : State σ → Prop
  | refl : Reached agent request user? start start
  | again {moment : State σ} (pdu : Pdu) : Reached agent request user? start moment →
      Reached agent request user? start (agent.encodePdu request user? pdu moment).2

theorem Reached.encodePdu (h : agent.Reached request user? start moment)
    {result : Except Error Octets}
    (hrun : agent.encodePdu request user? pdu moment = (result, after)) :
    agent.Reached request user? start after := by
  have hafter := h.again pdu
  rw [hrun] at hafter
  exact hafter

/-- What an attempt has come out as. -/
def Encoded (agent : Agent σ) (request : Message) (user? : Option User) (start : State σ)
    (pdu : Pdu) (datagram : Octets) : Prop :=
  ∃ moment after, agent.Reached request user? start moment ∧
    agent.encodePdu request user? pdu moment = (.ok datagram, after)

/-- An attempt has shown that a response is larger than the sender takes. -/
def Exceeds (agent : Agent σ) (request : Message) (user? : Option User) (start : State σ)
    (pdu : Pdu) : Prop :=
  ∃ datagram, agent.Encoded request user? start pdu datagram ∧
    request.replySizeLimit < datagram.length

/-- An attempt to send a response comes to octets, or to an error of one kind. -/
def Attempts (agent : Agent σ) (request : Message) (user? : Option User) (E : Error → Prop)
    (pdu : Pdu) : Prop :=
  ∀ moment, (∃ datagram after, agent.encodePdu request user? pdu moment = (.ok datagram, after)) ∨
    ∃ error after, agent.encodePdu request user? pdu moment = (.error error, after) ∧ E error

/-- Why there is no reply: even a response without bindings is too large, or there is no salt. -/
inductive Undeliverable (request : Message) : Error → Prop
  | tooLarge {size : Nat} : request.replySizeLimit < size →
      Undeliverable request (.encode (.messageTooLarge size request.replySizeLimit))
  | lacksSalt {error : Error} : LacksSalt request error → Undeliverable request error

/-! ### Forms of a response -/

/-- The forms in which a response is sent.  One that is too large loses as few bindings as it
    can, if it answers a GetBulk request and may keep one; otherwise it says `tooBig`. -/
inductive Limited (agent : Agent σ) (request : Message) (user? : Option User) (start : State σ)
    (pdu : Pdu) : Pdu → Prop
  | whole : Limited agent request user? start pdu pdu
  | shortened {count : Nat} : request.pdu.type = .getBulkRequest → 0 < count →
      count < pdu.bindings.length → agent.Exceeds request user? start pdu →
      agent.Exceeds request user? start (pdu.cut (count + 1)) →
      Limited agent request user? start pdu (pdu.cut count)
  | refused : agent.Exceeds request user? start pdu →
      (request.pdu.type = .getBulkRequest → pdu.bindings ≠ [] →
        agent.Exceeds request user? start (pdu.cut 1)) →
      Limited agent request user? start pdu (tooBig request)

theorem Carries.cut (hready : agent.Ready request user?) (h : agent.Carries request user? pdu)
    (count : Nat) : agent.Carries request user? (pdu.cut count) := by
  have htype : pdu.type ≠ .trapV1 := by
    rw [h.answers.type]
    decide
  apply h.of_length_le hready _ (Pdu.length_wire_cut_le htype count)
  constructor
  · exact h.answers.type
  · exact h.answers.requestId
  · intro b hb
    exact h.answers.bindings b (List.mem_of_mem_take hb)

theorem Carries.tooBig (hready : agent.Ready request user?)
    (h : agent.Carries request user? pdu) : agent.Carries request user? (tooBig request) := by
  apply h.of_length_le hready _ (Pdu.length_wire_tooBig_le h.answers.type h.answers.requestId)
  constructor
  · rfl
  · rfl
  · exact fun b hb => absurd hb List.not_mem_nil

theorem Carries.limited (hready : agent.Ready request user?)
    (h : agent.Carries request user? pdu) (hform : agent.Limited request user? start pdu form) :
    agent.Carries request user? form := by
  cases hform with
  | whole => exact h
  | shortened => exact h.cut hready _
  | refused => exact h.tooBig hready

/-! ### The search for a prefix -/

/-- What is known when the search has come down to a gap: with `fits` bindings the response is
    small enough, and with `excess` it is not. -/
structure Narrowed (agent : Agent σ) (request : Message) (user? : Option User) (start : State σ)
    (pdu : Pdu) (fits excess : Nat) (best : Option Octets) : Prop where
  bound : excess ≤ pdu.bindings.length
  exceeds : pdu.bindings ≠ [] → fits < excess ∧ agent.Exceeds request user? start (pdu.cut excess)
  nothing : best = none → fits = 0
  kept : ∀ datagram, best = some datagram → 0 < fits ∧ fits < excess ∧
    agent.Encoded request user? start (pdu.cut fits) datagram ∧
    datagram.length ≤ request.replySizeLimit

/-- What the search comes to. -/
def Fitted (agent : Agent σ) (request : Message) (user? : Option User) (start : State σ)
    (pdu : Pdu) : Option Octets → Prop
  | none => pdu.bindings ≠ [] → agent.Exceeds request user? start (pdu.cut 1)
  | some datagram => ∃ count, 0 < count ∧ count < pdu.bindings.length ∧
      agent.Encoded request user? start (pdu.cut count) datagram ∧
      datagram.length ≤ request.replySizeLimit ∧
      agent.Exceeds request user? start (pdu.cut (count + 1))

/-- The search begins with all the bindings, which are too many. -/
theorem Narrowed.begin (h : agent.Exceeds request user? start pdu) :
    agent.Narrowed request user? start pdu 0 pdu.bindings.length none := by
  constructor
  · exact Nat.le_refl _
  · intro hsome
    refine ⟨List.length_pos_iff.2 hsome, ?_⟩
    rw [Pdu.cut_length]
    exact h
  · exact fun _ => rfl
  · intro datagram hnone
    cases hnone

theorem Narrowed.fitted {fits excess : Nat} {best : Option Octets}
    (h : agent.Narrowed request user? start pdu fits excess best) (hgap : excess - fits ≤ 1) :
    agent.Fitted request user? start pdu best := by
  cases best with
  | none =>
    intro hsome
    obtain ⟨hlt, hexceeds⟩ := h.exceeds hsome
    have hfits := h.nothing rfl
    have hone : excess = 1 := by omega
    rw [← hone]
    exact hexceeds
  | some datagram =>
    obtain ⟨hpos, hlt, hencoded, hle⟩ := h.kept datagram rfl
    have hbound := h.bound
    have hnext : excess = fits + 1 := by omega
    have hsome : pdu.bindings ≠ [] := List.ne_nil_of_length_pos (by omega)
    refine ⟨fits, hpos, by omega, hencoded, hle, ?_⟩
    rw [← hnext]
    exact (h.exceeds hsome).2

/-- One step of the search halves the gap, from whichever side the middle is on. -/
theorem Narrowed.step {fits excess : Nat} {best : Option Octets}
    (h : agent.Narrowed request user? start pdu fits excess best) (hgap : 1 < excess - fits)
    {datagram : Octets}
    (hencoded : agent.Encoded request user? start (pdu.cut (fits + (excess - fits) / 2)) datagram) :
    (datagram.length ≤ request.replySizeLimit →
      agent.Narrowed request user? start pdu (fits + (excess - fits) / 2) excess (some datagram)) ∧
    (¬datagram.length ≤ request.replySizeLimit →
      agent.Narrowed request user? start pdu fits (fits + (excess - fits) / 2) best) := by
  have hbound := h.bound
  constructor
  · intro hle
    constructor
    · exact hbound
    · intro hsome
      exact ⟨by omega, (h.exceeds hsome).2⟩
    · intro hnone
      cases hnone
    · intro kept hkept
      cases hkept
      exact ⟨by omega, by omega, hencoded, hle⟩
  · intro hlarge
    constructor
    · omega
    · exact fun _ => ⟨by omega, datagram, hencoded, Nat.not_le.1 hlarge⟩
    · exact h.nothing
    · intro kept hkept
      obtain ⟨hpos, _, hfits, hle⟩ := h.kept kept hkept
      exact ⟨hpos, by omega, hfits, hle⟩

theorem fit_of_gap (agent : Agent σ) (request : Message) (user? : Option User) (pdu : Pdu)
    (limit : Nat) {fits excess : Nat} (best : Option Octets) (hgap : 1 < excess - fits) :
    agent.fit request user? pdu limit fits excess best =
      (do
        let encoded ← agent.encodePdu request user? (pdu.cut (fits + (excess - fits) / 2))
        if encoded.length ≤ limit then
          agent.fit request user? pdu limit (fits + (excess - fits) / 2) excess (some encoded)
        else agent.fit request user? pdu limit fits (fits + (excess - fits) / 2) best) := by
  rw [fit, if_pos hgap]
  rfl

/-- The search ends, with what fits best or with the error of an attempt.  The induction is on
    the gap, and each state on the way is one that attempts have left. -/
theorem fit_cases {E : Error → Prop}
    (hcuts : ∀ count, agent.Attempts request user? E (pdu.cut count)) :
    ∀ (gap fits excess : Nat) (best : Option Octets) (moment : State σ), gap = excess - fits →
    agent.Narrowed request user? start pdu fits excess best →
    agent.Reached request user? start moment →
    (∃ fitted after, agent.fit request user? pdu request.replySizeLimit fits excess best moment =
        (.ok fitted, after) ∧
      agent.Reached request user? start after ∧ agent.Fitted request user? start pdu fitted) ∨
    ∃ error after, agent.fit request user? pdu request.replySizeLimit fits excess best moment =
      (.error error, after) ∧ E error := by
  intro gap
  induction gap using Nat.strongRecOn with
  | _ gap ih =>
    intro fits excess best moment hgap hnarrowed hreached
    by_cases hmore : 1 < excess - fits
    · rw [fit_of_gap agent request user? pdu _ best hmore]
      rcases hcuts (fits + (excess - fits) / 2) moment with
        ⟨datagram, after, hencode⟩ | ⟨error, after, hencode, herror⟩
      · have hafter := hreached.encodePdu hencode
        obtain ⟨hsmall, hlarge⟩ := hnarrowed.step hmore ⟨moment, after, hreached, hencode⟩
        rw [bind_of_ok hencode]
        by_cases hle : datagram.length ≤ request.replySizeLimit
        · simp only [if_pos hle]
          exact ih _ (by omega) _ _ _ after rfl (hsmall hle) hafter
        · simp only [if_neg hle]
          exact ih _ (by omega) _ _ _ after rfl (hlarge hle) hafter
      · rw [bind_of_error hencode]
        exact .inr ⟨error, after, rfl, herror⟩
    · rw [fit, if_neg hmore]
      exact .inl ⟨best, moment, rfl, hreached, hnarrowed.fitted (Nat.not_lt.1 hmore)⟩

/-! ### Replies -/

/-- A response has been sent in a form that the sender takes, as the outcome of an attempt. -/
def Sent (agent : Agent σ) (request : Message) (user? : Option User) (start : State σ)
    (pdu : Pdu) (datagram : Octets) : Prop :=
  ∃ form, agent.Limited request user? start pdu form ∧
    agent.Encoded request user? start form datagram ∧ datagram.length ≤ request.replySizeLimit

/-- What encoding a reply comes to: a form of the response that the sender takes, or an error. -/
inductive Replied (agent : Agent σ) (request : Message) (user? : Option User) (start : State σ)
    (pdu : Pdu) (E : Error → Prop) : Except Error Octets → Prop
  | sent {datagram : Octets} : agent.Sent request user? start pdu datagram →
      Replied agent request user? start pdu E (.ok datagram)
  | tooLarge {datagram : Octets} : agent.Exceeds request user? start pdu →
      (request.pdu.type = .getBulkRequest → pdu.bindings ≠ [] →
        agent.Exceeds request user? start (pdu.cut 1)) →
      agent.Encoded request user? start (tooBig request) datagram →
      request.replySizeLimit < datagram.length →
      Replied agent request user? start pdu E
        (.error (.encode (.messageTooLarge datagram.length request.replySizeLimit)))
  | failed {error : Error} : E error → Replied agent request user? start pdu E (.error error)

/-- A response that was found too large is sent in another form, or not at all. -/
theorem encodeTooBig_replied {E : Error → Prop}
    (htooBig : agent.Attempts request user? E (tooBig request))
    (hreached : agent.Reached request user? start moment)
    (hexceeds : agent.Exceeds request user? start pdu)
    (hbulk : request.pdu.type = .getBulkRequest → pdu.bindings ≠ [] →
      agent.Exceeds request user? start (pdu.cut 1)) :
    ∃ outcome after, agent.encodeTooBig request user? request.replySizeLimit moment =
      (outcome, after) ∧ agent.Replied request user? start pdu E outcome := by
  rw [encodeTooBig]
  rcases htooBig moment with ⟨datagram, after, hencode⟩ | ⟨error, after, hencode, herror⟩
  · have hencoded : agent.Encoded request user? start (tooBig request) datagram :=
      ⟨moment, after, hreached, hencode⟩
    rw [bind_of_ok hencode]
    by_cases hle : datagram.length ≤ request.replySizeLimit
    · simp only [if_pos hle]
      exact ⟨_, after, rfl, .sent ⟨_, .refused hexceeds hbulk, hencoded, hle⟩⟩
    · simp only [if_neg hle]
      exact ⟨_, after, rfl, .tooLarge hexceeds hbulk hencoded (Nat.not_le.1 hle)⟩
  · rw [bind_of_error hencode]
    exact ⟨_, after, rfl, .failed herror⟩

/-- If attempts fail only for one kind of reason, so does the reply, unless there is no form that
    the sender takes. -/
theorem encodeReply_replied {E : Error → Prop}
    (hcuts : ∀ count, agent.Attempts request user? E (pdu.cut count))
    (htooBig : agent.Attempts request user? E (tooBig request)) (start : State σ) :
    ∃ outcome after, agent.encodeReply request user? pdu start = (outcome, after) ∧
      agent.Replied request user? start pdu E outcome := by
  have hwhole := hcuts pdu.bindings.length
  rw [Pdu.cut_length] at hwhole
  rw [encodeReply]
  rcases hwhole start with ⟨datagram, after, hencode⟩ | ⟨error, after, hencode, herror⟩
  · have hreached : agent.Reached request user? start after := Reached.refl.encodePdu hencode
    have hencoded : agent.Encoded request user? start pdu datagram :=
      ⟨start, after, .refl, hencode⟩
    rw [bind_of_ok hencode]
    by_cases hle : datagram.length ≤ request.replySizeLimit
    · simp only [if_pos hle]
      exact ⟨_, after, rfl, .sent ⟨pdu, .whole, hencoded, hle⟩⟩
    have hexceeds : agent.Exceeds request user? start pdu := ⟨datagram, hencoded, Nat.not_le.1 hle⟩
    simp only [if_neg hle]
    by_cases hbulk : request.pdu.type = .getBulkRequest
    · simp only [if_pos hbulk]
      rcases fit_cases hcuts _ _ _ _ after rfl (.begin hexceeds) hreached with
        ⟨fitted, last, hfit, hlast, hfitted⟩ | ⟨error, last, hfit, herror⟩
      · rw [bind_of_ok hfit]
        cases fitted with
        | none => exact encodeTooBig_replied htooBig hlast hexceeds fun _ => hfitted
        | some found =>
          obtain ⟨count, hpos, hlt, hfound, hsmall, hnext⟩ := hfitted
          exact ⟨_, last, rfl, .sent ⟨pdu.cut count,
            .shortened hbulk hpos hlt hexceeds hnext, hfound, hsmall⟩⟩
      · rw [bind_of_error hfit]
        exact ⟨_, last, rfl, .failed herror⟩
    · simp only [if_neg hbulk]
      exact encodeTooBig_replied htooBig hreached hexceeds fun h => absurd h hbulk
  · rw [bind_of_error hencode]
    exact ⟨_, after, rfl, .failed herror⟩

theorem Carries.attempts (hready : agent.Ready request user?)
    (h : agent.Carries request user? pdu) :
    agent.Attempts request user? (LacksSalt request) pdu := by
  intro moment
  rcases encodePdu_cases hready h moment with ⟨datagram, after, hencode, _⟩ | hfailed
  · exact .inl ⟨datagram, after, hencode⟩
  · exact .inr hfailed

theorem encodeReply_cases (hready : agent.Ready request user?)
    (hpdu : agent.Carries request user? pdu) (start : State σ) :
    (∃ datagram after, agent.encodeReply request user? pdu start = (.ok datagram, after) ∧
      agent.Sent request user? start pdu datagram) ∨
    ∃ error after, agent.encodeReply request user? pdu start = (.error error, after) ∧
      Undeliverable request error := by
  obtain ⟨outcome, after, hreply, hreplied⟩ := encodeReply_replied
    (fun count => (hpdu.cut hready count).attempts hready) ((hpdu.tooBig hready).attempts hready)
    start
  cases hreplied with
  | sent hsent => exact .inl ⟨_, after, hreply, hsent⟩
  | tooLarge _ _ _ hlarge => exact .inr ⟨_, after, hreply, .tooLarge hlarge⟩
  | failed herror => exact .inr ⟨_, after, hreply, .lacksSalt herror⟩

/-- What is sent can be read by the user whose request it answers, and mirrors the request at the
    moment of the attempt. -/
theorem Sent.mirrors {datagram : Octets} (hready : agent.Ready request user?)
    (hpdu : agent.Carries request user? pdu)
    (h : agent.Sent request user? start pdu datagram) :
    ∃ form moment reply, agent.Limited request user? start pdu form ∧
      form.Answers request.pdu ∧ agent.Reached request user? start moment ∧
      Message.decode agent.suite datagram user? = .ok reply ∧
      agent.Mirrors request form (agent.host.engineTime moment.host).1 reply := by
  obtain ⟨form, hform, ⟨moment, after, hreached, hencode⟩, hle⟩ := h
  have hcarries := hpdu.limited hready hform
  have hfits : Fits datagram := by
    have hlimit := request.replySizeLimit_le
    rw [Fits, show UInt32.size = 4294967296 from rfl]
    omega
  rcases encodePdu_cases hready hcarries moment with ⟨_, _, hsame, hdecode⟩ | ⟨_, _, hsame, _⟩
  · rw [hencode] at hsame
    cases hsame
    obtain ⟨reply, hreply, hmirrors⟩ := hdecode hfits
    exact ⟨form, moment, reply, hform, hcarries.answers, hreached, hreply, hmirrors⟩
  · rw [hencode] at hsame
    cases hsame

/-! ### Serving -/

/-- What a request is answered with: what its scope has made, or its own bindings with the status
    of the error for which there is no scope, or with which the scope has refused it. -/
inductive Outcome (agent : Agent σ) (request : Message) (source : Net.Endpoint)
    (state : State σ) : Pdu → Prop
  | served {scope : Mib.Scope σ} {pdu : Pdu} : agent.route request.routingKey = .ok scope →
      (scope.serve (context request source) request.pdu state.host).1 = .ok (some pdu) →
      Outcome agent request source state pdu
  | unrouted {error : Error} : agent.route request.routingKey = .error error →
      Outcome agent request source state (failureResponse request.pdu error)
  | refused {scope : Mib.Scope σ} {error : Error} :
      agent.route request.routingKey = .ok scope →
      (scope.serve (context request source) request.pdu state.host).1 = .error error →
      Outcome agent request source state (failureResponse request.pdu error)

theorem answers_failureResponse {request : Pdu}
    (hbindings : ∀ b ∈ request.bindings, b.Transmissible) (error : Error) :
    (failureResponse request error).Answers request :=
  ⟨rfl, rfl, hbindings⟩

/-- Every request but a trap has an outcome. -/
theorem exists_outcome (hscopes : ∀ scope ∈ agent.scopes, scope.Faithful)
    (hbindings : ∀ b ∈ request.pdu.bindings, b.Transmissible)
    (htrap : request.pdu.type.isTrap = false) (source : Net.Endpoint) (state : State σ) :
    ∃ pdu, responsePdu? request.pdu (agent.serve request source state).1 = some pdu ∧
      agent.Outcome request source state pdu ∧ pdu.Answers request.pdu := by
  have hfailure (error : Error) : responsePdu? request.pdu (.error error) =
      some (failureResponse request.pdu error) := by
    simp [responsePdu?, htrap]
  cases hroute : agent.route request.routingKey with
  | error error =>
    refine ⟨_, ?_, .unrouted hroute, answers_failureResponse hbindings error⟩
    simp only [serve, hroute]
    exact hfailure error
  | ok scope =>
    have hserve : (agent.serve request source state).1 =
        (scope.serve (context request source) request.pdu state.host).1 := by
      simp only [serve, hroute]
      rfl
    rw [hserve]
    rcases Mib.Scope.always_serve (hscopes scope (mem_of_route hroute)) hbindings htrap
      state.host with ⟨pdu, hserved, hanswers⟩ | ⟨error, hserved⟩
    · exact ⟨pdu, by rw [hserved]; rfl, .served hroute hserved, hanswers⟩
    · exact ⟨_, by rw [hserved]; exact hfailure error, .refused hroute hserved,
        answers_failureResponse hbindings error⟩

/-! ### Requests -/

/-- A request other than a trap is answered with a reply that mirrors it, unless the reply cannot
    be delivered.  The user to whom negotiation has attributed the request reads in it the response
    that serving came to, whole or in a form that the sender takes, in the frame of the request and
    with the engine as it is when the reply is encoded.  A response that has to be signed is asked
    to be signable as a whole, also if it is cut down afterwards. -/
theorem respond_mirrors_request {suite : Suite} {config : Config σ} {host : Host σ}
    (hsuite : suite.Lawful) (hprepare : config.prepare suite host = .ok agent)
    (hboots : agent.engineBoots ≤ Parameters.maxCount)
    (htime : ∀ state, (host.engineTime state).1 ≤ Parameters.maxCount)
    (hentries : ∀ scope ∈ config.scopes, ∀ v ∈ scope.entries, v.Faithful) {datagram : Octets}
    (hnegotiate : agent.negotiate datagram = .ok (.request request user?))
    (htrap : request.pdu.type.isTrap = false) (source : Net.Endpoint) (state : State σ)
    (hsize : request.securityLevel ≠ .noAuthNoPriv → ∀ pdu,
      agent.Outcome request source state pdu → agent.Signable request user? pdu) :
    ∃ pdu, agent.Outcome request source state pdu ∧
      ((∃ reply after form moment message,
          agent.respond datagram source state = (.ok (some reply), after) ∧
          agent.Limited request user? (agent.serve request source state).2 pdu form ∧
          form.Answers request.pdu ∧
          agent.Reached request user? (agent.serve request source state).2 moment ∧
          Message.decode suite reply user? = .ok message ∧
          agent.Mirrors request form (agent.host.engineTime moment.host).1 message) ∨
        ∃ error after, agent.respond datagram source state = (.error error, after) ∧
          Undeliverable request error) := by
  have hscopes := faithful_of_prepare hprepare hentries
  obtain ⟨rfl, rfl⟩ : suite = agent.suite ∧ host = agent.host := by
    obtain ⟨_, _, _, _, _, _, hagent⟩ := Config.prepare_eq_ok hprepare
    rw [hagent]
    exact ⟨rfl, rfl⟩
  have hready : agent.Ready request user? :=
    ⟨hsuite, hboots, htime, Message.wellFormed_of_decode hsuite (decode_of_negotiate hnegotiate)⟩
  obtain ⟨pdu, hpdu, houtcome, hanswers⟩ :=
    exists_outcome hscopes hready.request.pdu.bindings htrap source state
  have hcarries : agent.Carries request user? pdu :=
    ⟨hanswers, fun hlevel => hsize hlevel pdu houtcome⟩
  have hserve : (ExceptT.lift (agent.serve request source) : Action σ _) state =
      (.ok (agent.serve request source state).1, (agent.serve request source state).2) := rfl
  refine ⟨pdu, houtcome, ?_⟩
  simp only [respond, hnegotiate, answer]
  rw [bind_of_ok hserve]
  simp only [hpdu]
  rcases encodeReply_cases hready hcarries (agent.serve request source state).2 with
    ⟨reply, after, hreply, hsent⟩ | ⟨error, after, hreply, herror⟩
  · obtain ⟨form, moment, message, hform, hformAnswers, hreached, hdecode, hmirrors⟩ :=
      hsent.mirrors hready hcarries
    rw [bind_of_ok hreply]
    exact .inl ⟨reply, after, form, moment, message, rfl, hform, hformAnswers, hreached, hdecode,
      hmirrors⟩
  · rw [bind_of_error hreply]
    exact .inr ⟨error, after, rfl, herror⟩

/-! ### A clock -/

/-- sysUpTime.0, which always says the same. -/
def clock : Mib.Variable Unit where
  oid := ⟨[1, 3, 6, 1, 2, 1, 1, 3, 0]⟩
  type := .timeTicks
  read? := some fun state => (.ok (.timeTicks 4200), state)

theorem clock_faithful : clock.Faithful := by
  constructor
  · decide
  · intro callback hread state value hvalue
    cases hread
    cases hvalue
    trivial
  · intro callback hnotify
    cases hnotify

def clockConfig : Config Unit where
  scopes := [{ entries := [clock] }]
  users := [Message.exampleUser]
  engineId := ⟨[128, 0, 0, 0, 1]⟩

def clockScope : Mib.Scope Unit where
  registry := ⟨#[clock], by simp⟩

def clockAgent : Agent Unit where
  scopes := [clockScope]
  routes := { default? := some 0 }
  users := [preparedUser]
  engineId := ⟨[128, 0, 0, 0, 1]⟩
  suite := .brief
  host := { engineTime := pure 300, salt := fun _ => pure (some (.replicate _ 7)) }

def clockResponse : Pdu := ⟨.response, -5, 0, 0, [⟨clock.oid, .timeTicks 4200⟩]⟩

theorem outcome_clockAgent {source : Net.Endpoint} {state : State Unit}
    (hkey : request.routingKey = [])
    (hpdu : request.pdu = ⟨.getRequest, -5, 0, 0, [.unset clock.oid]⟩)
    (h : clockAgent.Outcome request source state pdu) : pdu = clockResponse := by
  have hroute : clockAgent.route request.routingKey = .ok clockScope := by
    rw [hkey]
    rfl
  have hserve (context : Mib.RequestContext) :
      (clockScope.serve context request.pdu state.host).1 = .ok (some clockResponse) := by
    rw [hpdu]
    with_unfolding_all rfl
  cases h with
  | served hscope hserved =>
    cases hroute.symm.trans hscope
    cases (hserve _).symm.trans hserved
    rfl
  | unrouted herror => cases hroute.symm.trans herror
  | refused hscope hrefused =>
    cases hroute.symm.trans hscope
    cases (hserve _).symm.trans hrefused

theorem faithful_clockConfig :
    ∀ scope ∈ clockConfig.scopes, ∀ v ∈ scope.entries, v.Faithful := by
  intro scope hscope v hv
  cases List.mem_singleton.1 hscope
  cases List.mem_singleton.1 hv
  exact clock_faithful

theorem ready_clockAgent (hrequest : request.WellFormed user?) :
    clockAgent.Ready request user? := by
  have htime : (300 : UInt32) ≤ Parameters.maxCount := by decide
  constructor
  · exact Suite.brief_lawful
  · decide
  · exact fun _ => htime
  · exact hrequest

theorem answers_clockResponse {request : Pdu} (hid : request.requestId = -5) :
    clockResponse.Answers request := by
  constructor
  · rfl
  · exact hid.symm
  · intro b hb
    rw [List.mem_singleton.1 hb]
    exact ⟨⟨by decide +kernel, by decide⟩, trivial⟩

def Negotiated.request? : Negotiated → Option Message
  | .request message _ => some message
  | .probe _ => none

/-- The encrypted request for the clock is answered with an encrypted response, which its user can
    read. -/
theorem respond_mirrors_request_exampleDatagram :
    ∃ request user? reply after message,
      clockAgent.negotiate exampleDatagram = .ok (.request request user?) ∧
      clockAgent.respond exampleDatagram default ⟨0, ()⟩ = (.ok (some reply), after) ∧
      Message.decode .brief reply user? = .ok message ∧ message.securityLevel = .authPriv ∧
      message.pdu.type = .response ∧ message.pdu.requestId = -5 := by
  have hprepare : clockConfig.prepare .brief clockAgent.host = .ok clockAgent := by
    with_unfolding_all rfl
  have hrequest : (clockAgent.negotiate exampleDatagram).toOption.map (fun negotiated =>
      negotiated.request?.map fun request => (request.securityLevel, request.pdu,
        request.routingKey, request.userName.length + request.contextEngineId.length
          + request.contextName.length)) =
      some (some (.authPriv, ⟨.getRequest, -5, 0, 0, [.unset clock.oid]⟩, [], 7)) := by
    decide +kernel
  have hreplied : (clockAgent.respond exampleDatagram default ⟨0, ()⟩).1.toOption.map
      Option.isSome = some true := by
    decide +kernel
  obtain ⟨negotiated, hnegotiate, hfacts⟩ := Except.eq_ok_of_toOption_map hrequest
  cases negotiated with
  | probe message => cases hfacts
  | request request user? =>
    simp only [Negotiated.request?, Option.map_some, Option.some.injEq, Prod.mk.injEq] at hfacts
    obtain ⟨hlevel, hpdu, hkey, hlengths⟩ := hfacts
    have hlawful : clockAgent.suite.Lawful := Suite.brief_lawful
    have hready : clockAgent.Ready request user? :=
      ready_clockAgent (Message.wellFormed_of_decode hlawful (decode_of_negotiate hnegotiate))
    have hsize : request.securityLevel ≠ .noAuthNoPriv → ∀ pdu,
        clockAgent.Outcome request default ⟨0, ()⟩ pdu → clockAgent.Signable request user? pdu := by
      intro hsigned pdu houtcome
      cases outcome_clockAgent hkey hpdu houtcome
      apply signable_of_length_le hready (answers_clockResponse (by rw [hpdu])) hsigned
      have hwire : (clockResponse.wire none).length = 29 := by decide +kernel
      have hengineId : clockAgent.engineId.octets.length = 5 := rfl
      omega
    obtain ⟨pdu, _, hreply | ⟨error, after, hrespond, _⟩⟩ :=
      respond_mirrors_request hlawful hprepare hready.boots hready.time faithful_clockConfig
        hnegotiate (by rw [hpdu]; rfl) default ⟨0, ()⟩ hsize
    · obtain ⟨reply, after, form, moment, message, hrespond, _, hanswers, _, hdecode, hmirrors⟩ :=
        hreply
      refine ⟨request, user?, reply, after, message, hnegotiate, hrespond, hdecode, ?_, ?_, ?_⟩
      · rw [hmirrors.securityLevel, hlevel]
      · rw [hmirrors.pdu, hanswers.type]
      · rw [hmirrors.pdu, hanswers.requestId, hpdu]
    · rw [hrespond] at hreplied
      cases hreplied

end Agent

end Snmp
