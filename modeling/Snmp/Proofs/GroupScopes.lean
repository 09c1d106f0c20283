/-
  Snmp/Proofs/GroupScopes.lean
  ============================
  **Scopes that hold the system group.**

  The texts of the group live in a part of the state of the host.  Other variables of the scope
  may do to that state what they like, as long as they stay apart from the texts, which is what a
  part of one's own means (`Variable.Apart`).  Then whatever a scope is asked, one thing alone
  changes a text: a Set binding that names it, with a string that is not too long
  (`answerSet_text`, `keeps_serve`, `keeps_answerSet`).  The scope that the command line builds
  is of this kind, whatever the options (`CommandLine.Options.exists_build`).
-/
import Snmp.CommandLine.Service
import Snmp.Proofs.ConsistentConfigs
import Snmp.Proofs.RegistryWalk
import Snmp.Proofs.ServingPlan

namespace Snmp

namespace Mib

variable {σ α β : Type} {texts : Part σ SystemTexts}

/-! ### Actions that keep the texts -/

/-- Each of several actions runs in a state of which holds what all of them keep. -/
theorem getElem?_mapM {f : β → StateM σ α} (Inv : σ → Prop) {members : List β}
    (h : ∀ b ∈ members, ∀ state, Inv state → Inv (f b state).2) {place : Nat} {b : β}
    (hplace : members[place]? = some b) (state : σ) (hstate : Inv state) :
    ∃ before, Inv before ∧ (members.mapM f state).1[place]? = some (f b before).1 := by
  induction members generalizing place state with
  | nil => simp at hplace
  | cons first rest ih =>
    rw [List.mapM_cons]
    cases place with
    | zero =>
      cases Option.some.inj hplace
      exact ⟨state, hstate, rfl⟩
    | succ place =>
      exact ih (fun b hb => h b (List.mem_cons_of_mem _ hb)) hplace _
        (h first List.mem_cons_self state hstate)

/-- An action that leaves the texts as they are. -/
def Keeps (texts : Part σ SystemTexts) (action : StateM σ α) : Prop :=
  ∀ state, texts.get (action state).2 = texts.get state

namespace Keeps

theorem pure (a : α) : Keeps texts (Pure.pure a : StateM σ α) := fun _ => rfl

theorem bind {action : StateM σ α} {next : α → StateM σ β} (h : Keeps texts action)
    (k : ∀ a, Keeps texts (next a)) : Keeps texts (action >>= next) :=
  fun state => (k (action state).1 (action state).2).trans (h state)

theorem mapM {f : β → StateM σ α} {members : List β} (h : ∀ b ∈ members, Keeps texts (f b)) :
    Keeps texts (members.mapM f) := by
  induction members with
  | nil => exact Keeps.pure []
  | cons first rest ih =>
    rw [List.mapM_cons]
    apply (h first List.mem_cons_self).bind
    intro result
    exact (ih fun b hb => h b (List.mem_cons_of_mem _ hb)).bind fun results => Keeps.pure _

end Keeps

/-! ### Variables apart from the texts -/

/-- A callback that neither changes the texts nor looks at them. -/
structure Callback.Apart (texts : Part σ SystemTexts) (callback : Callback σ α) : Prop where
  keeps : ∀ state, texts.get (callback state).2 = texts.get state
  ignores : ∀ changed state, (callback (texts.set changed state)).1 = (callback state).1

structure Variable.Apart (texts : Part σ SystemTexts) (v : Variable σ) : Prop where
  read : ∀ callback, v.read? = some callback → callback.Apart texts
  write : ∀ callback, v.write? = some callback → ∀ value, (callback value).Apart texts
  permission : ∀ check, v.permission? = some check → ∀ context, (check context).Apart texts
  notify : ∀ callback, v.notify? = some callback →
    ∀ isInform binding, (callback isInform binding).Apart texts

theorem Callback.Apart.run {callback : Callback σ α} (h : callback.Apart texts) :
    Keeps texts (Variable.run callback) := h.keeps

namespace Variable.Apart

variable {v : Variable σ} (h : v.Apart texts)

include h

theorem keeps_permit (context : RequestContext) : Keeps texts (v.permit context) := by
  unfold Variable.permit
  cases hcheck : v.permission? with
  | none => exact Keeps.pure _
  | some check => exact (h.permission check hcheck context).run

theorem keeps_read : Keeps texts v.read := by
  unfold Variable.read
  cases hcallback : v.read? with
  | none => exact Keeps.pure none
  | some callback => exact (h.read callback hcallback).run.bind fun outcome => Keeps.pure _

theorem keeps_write (value : Value) : Keeps texts (v.write value) := by
  unfold Variable.write
  cases hcallback : v.write? with
  | none => exact Keeps.pure none
  | some callback => exact (h.write callback hcallback value).run.bind fun outcome => Keeps.pure _

theorem keeps_notify (isInform : Bool) (binding : Binding) :
    Keeps texts (v.notify isInform binding) := by
  unfold Variable.notify
  cases hcallback : v.notify? with
  | none => exact Keeps.pure none
  | some callback =>
    exact (h.notify callback hcallback isInform binding).run.bind fun outcome => Keeps.pure _

/-- The value of the variable does not depend on the texts. -/
theorem read_set (changed : SystemTexts) (state : σ) :
    (v.read (texts.set changed state)).1 = (v.read state).1 := by
  unfold Variable.read
  cases hcallback : v.read? with
  | none => rfl
  | some callback =>
    have hsame := (h.read callback hcallback).ignores changed state
    simp only [bind, StateT.bind, Variable.run, hsame]
    rfl

end Variable.Apart

/-! ### The variables of the group -/

namespace SystemGroup

theorem apart_constant (oid : Oid) (type : ValueType) (document : String) (value : Value) :
    (constant oid type document value : Variable σ).Apart texts where
  read := by
    rintro callback ⟨⟩
    exact ⟨fun _ => rfl, fun _ _ => rfl⟩
  write := by
    rintro callback ⟨⟩
  permission := by
    rintro check ⟨⟩
  notify := by
    rintro callback ⟨⟩

theorem apart_upTimeVariable {upTime : σ → Nat}
    (h : ∀ changed state, upTime (texts.set changed state) = upTime state) :
    (upTimeVariable upTime).Apart texts where
  read := by
    rintro callback ⟨⟩
    refine ⟨fun _ => rfl, fun changed state => ?_⟩
    rw [h]
  write := by
    rintro callback ⟨⟩
  permission := by
    rintro check ⟨⟩
  notify := by
    rintro callback ⟨⟩

theorem oid_injective {which other : SystemText} (h : which.oid = other.oid) : which = other := by
  cases which <;> cases other <;> first | rfl | (revert h; decide)

end SystemGroup

open SystemGroup

/-- The error of a string that is too long for a text. -/
def tooLong (octets : Octets) : CallbackError :=
  .failed s!"value of {octets.length} octets exceeds {SystemText.maxLength}"

theorem read_textVariable (which : SystemText) (state : σ) :
    (textVariable texts which).read state =
      (some (.ok (.ofText ((texts.get state).get which))), state) := rfl

theorem write_textVariable (which : SystemText) (octets : Octets) (state : σ) :
    (textVariable texts which).write (.octetString octets) state =
      if SystemText.maxLength < octets.length then (some (.error (tooLong octets)), state)
      else (some (.ok ()),
        texts.modify (·.set which (Text.Utf8.decodeLossy octets)) state) := by
  simp only [Variable.write, textVariable, bind, StateT.bind, Variable.run, writeText,
    Value.octets?]
  split <;> rfl

/-! ### Scopes -/

/-- A scope that holds the variables of the group, beside others that stay apart from the
    texts.  Time passes whether or not a text is written. -/
structure Scope.HoldsGroup (scope : Scope σ) (info : SystemInfo) (texts : Part σ SystemTexts)
    (upTime : σ → Nat) : Prop where
  holds : ∀ v ∈ entries info texts upTime, v ∈ scope.registry.entries
  others : ∀ v ∈ scope.registry.entries, v ∈ entries info texts upTime ∨ v.Apart texts
  upTime_set : ∀ changed state, upTime (texts.set changed state) = upTime state

namespace Scope

variable {scope : Scope σ} {info : SystemInfo} {upTime : σ → Nat} {v : Variable σ}

theorem HoldsGroup.text_or_apart (h : scope.HoldsGroup info texts upTime)
    (hv : v ∈ scope.registry.entries) :
    (∃ which, v = textVariable texts which) ∨ v.Apart texts := by
  rcases h.others v hv with hgroup | hapart
  · simp only [entries, List.mem_cons, List.not_mem_nil, or_false] at hgroup
    rcases hgroup with rfl | rfl | rfl | rfl | rfl | rfl | rfl
    · exact .inr (apart_constant ..)
    · exact .inr (apart_constant ..)
    · exact .inr (apart_upTimeVariable h.upTime_set)
    · exact .inl ⟨.contact, rfl⟩
    · exact .inl ⟨.name, rfl⟩
    · exact .inl ⟨.location, rfl⟩
    · exact .inr (apart_constant ..)
  · exact .inr hapart

theorem HoldsGroup.find?_text (h : scope.HoldsGroup info texts upTime) (which : SystemText) :
    scope.registry.find? which.oid = some (textVariable texts which) := by
  have hentry : textVariable texts which ∈ entries info texts upTime := by
    cases which <;> simp [entries]
  obtain ⟨index, hindex⟩ := Array.mem_iff_getElem?.1 (h.holds _ hentry)
  exact Registry.find?_oid scope.registry hindex

variable (context : RequestContext) (place : Nat)

theorem keeps_ifPermitted {action : StateM σ Answer} (hpermit : Keeps texts (v.permit context))
    (haction : Keeps texts action) : Keeps texts (scope.ifPermitted context place v action) := by
  unfold ifPermitted
  apply hpermit.bind
  rintro (error | _ | _)
  · exact Keeps.pure _
  · exact haction
  · exact Keeps.pure _

/-- What is asked of a variable leaves the texts as they are, unless a text is written. -/
theorem HoldsGroup.keeps_ask (h : scope.HoldsGroup info texts upTime)
    (hv : v ∈ scope.registry.entries) (demand : Demand)
    (hwrite : ∀ value, demand = .write value → ∀ which : SystemText, v.oid ≠ which.oid) :
    Keeps texts (scope.perform context (.ask place v demand)) := by
  have hpermit : Keeps texts (v.permit context) := by
    rcases h.text_or_apart hv with ⟨which, rfl⟩ | hapart
    · exact Keeps.pure _
    · exact hapart.keeps_permit context
  apply keeps_ifPermitted context place hpermit
  cases demand with
  | read =>
    have hread : Keeps texts v.read := by
      rcases h.text_or_apart hv with ⟨which, rfl⟩ | hapart
      · exact fun _ => rfl
      · exact hapart.keeps_read
    apply hread.bind
    rintro (_ | error | value) <;> exact Keeps.pure _
  | write value =>
    have hapart : v.Apart texts := by
      rcases h.text_or_apart hv with ⟨which, rfl⟩ | hapart
      · exact absurd rfl (hwrite value rfl which)
      · exact hapart
    simp only [fulfil]
    split
    · exact Keeps.pure _
    split
    · exact Keeps.pure _
    apply (hapart.keeps_write value).bind
    rintro (_ | error | _) <;> exact Keeps.pure _
  | notify isInform value =>
    have hnotify : Keeps texts (v.notify isInform ⟨v.oid, value⟩) := by
      rcases h.text_or_apart hv with ⟨which, rfl⟩ | hapart
      · exact Keeps.pure _
      · exact hapart.keeps_notify isInform _
    apply hnotify.bind
    rintro (_ | error | _ | given) <;> exact Keeps.pure _

/-- Variables are written on behalf of Set requests only. -/
theorem type_of_write {pdu : Pdu} {value : Value}
    (h : Task.ask place v (.write value) ∈ scope.tasks pdu) : pdu.type = .setRequest := by
  have hdemand {index : Nat} {demand : Demand} {otherwise : Answer} {found? : Option (Variable σ)}
      (hask : .ofFound index demand otherwise found? = Task.ask place v (.write value)) :
      demand = .write value := by
    cases found? with
    | none => contradiction
    | some found => exact (Task.ask.inj hask).2.2
  rw [tasks] at h
  split at h
  · obtain ⟨index, hindex, hask⟩ := List.mem_mapIdx.1 h
    cases hdemand hask
  · obtain ⟨index, hindex, hask⟩ := List.mem_mapIdx.1 h
    cases hdemand hask
  · obtain ⟨slot, hslot, hask⟩ := List.mem_map.1 h
    cases slot <;> cases hask
  · assumption
  · obtain ⟨index, hindex, hask⟩ := List.mem_mapIdx.1 h
    cases hdemand hask
  · obtain ⟨index, hindex, hask⟩ := List.mem_mapIdx.1 h
    cases hdemand hask
  · obtain ⟨index, hindex, hask⟩ := List.mem_mapIdx.1 h
    cases hdemand hask
  · contradiction
  · contradiction

theorem HoldsGroup.keeps_perform (h : scope.HoldsGroup info texts upTime) {pdu : Pdu}
    (hset : pdu.type ≠ .setRequest) {task : Task σ} (htask : task ∈ scope.tasks pdu) :
    Keeps texts (scope.perform context task) := by
  cases task with
  | ready answer => exact Keeps.pure answer
  | ask place v demand =>
    apply h.keeps_ask context place (mem_of_asked? htask rfl)
    rintro value rfl
    exact absurd (type_of_write place htask) hset

/-- Nothing but a Set request changes a text. -/
theorem HoldsGroup.keeps_serve (h : scope.HoldsGroup info texts upTime) {pdu : Pdu}
    (hset : pdu.type ≠ .setRequest) : Keeps texts (scope.serve context pdu) := by
  rw [serve_eq]
  apply (Keeps.mapM fun task htask => h.keeps_perform context hset htask).bind
  intro answers
  exact Keeps.pure _

/-! ### Set bindings -/

/-- A Set binding that names no text leaves the texts as they are. -/
theorem HoldsGroup.keeps_answerSet (h : scope.HoldsGroup info texts upTime) {asked : Binding}
    (hasked : ∀ which : SystemText, asked.oid ≠ which.oid) :
    Keeps texts (scope.answerSet context place asked) := by
  rw [answerSet_eq, setTask]
  cases hfind : scope.registry.find? asked.oid with
  | none => exact Keeps.pure _
  | some v =>
    apply h.keeps_ask context place (Registry.mem_of_find? hfind)
    intro _ _ which
    rw [Registry.oid_of_find? hfind]
    exact hasked which

/-- A Set binding that names a variable of the group other than a text changes nothing. -/
theorem HoldsGroup.answerSet_readOnly (h : scope.HoldsGroup info texts upTime)
    (hv : v ∈ entries info texts upTime) (hnamed : ∀ which : SystemText, v.oid ≠ which.oid)
    (value : Value) (state : σ) :
    (scope.answerSet context place ⟨v.oid, value⟩ state).2 = state := by
  obtain ⟨index, hindex⟩ := Array.mem_iff_getElem?.1 (h.holds v hv)
  rw [answerSet, Registry.find?_oid scope.registry hindex]
  simp only [entries, List.mem_cons, List.not_mem_nil, or_false] at hv
  rcases hv with rfl | rfl | rfl | rfl | rfl | rfl | rfl
  · rfl
  · rfl
  · rfl
  · exact absurd rfl (hnamed .contact)
  · exact absurd rfl (hnamed .name)
  · exact absurd rfl (hnamed .location)
  · rfl

/-- A Set binding that names a text is refused, unless its value is a string that is not too
    long; then the text becomes what lossy reading makes of the string. -/
theorem HoldsGroup.answerSet_text (h : scope.HoldsGroup info texts upTime) (which : SystemText)
    (value : Value) (state : σ) :
    scope.answerSet context place ⟨which.oid, value⟩ state =
      match value with
      | .octetString octets =>
        if SystemText.maxLength < octets.length then
          (scope.substitute place which.oid (tooLong octets), state)
        else
          (⟨place, ⟨which.oid, value⟩, none⟩,
            texts.modify (·.set which (Text.Utf8.decodeLossy octets)) state)
      | _ => (refuse place which.oid .wrongType, state) := by
  rw [answerSet_eq, setTask, h.find?_text which]
  -- The variable asks for no permission.
  show scope.fulfil place (textVariable texts which) (.write value) state = _
  cases value with
  | octetString octets =>
    have hwritable : (textVariable texts which).isWritable = true := rfl
    have htype : (Value.octetString octets).type? = some (textVariable texts which).type := rfl
    simp only [fulfil, hwritable, htype, Bool.not_true, Bool.false_eq_true, if_false, ne_eq,
      not_true_eq_false, bind, StateT.bind, write_textVariable]
    split <;> rfl
  | _ => rfl

end Scope

/-! ### The scope of the command line -/

/-- All variables that were registered are entries of the registry. -/
theorem Registry.mem_of_ofVariables {entries : List (Variable σ)} {r : Registry σ}
    (h : Registry.ofVariables entries = .ok r) {v : Variable σ} (hv : v ∈ entries) :
    v ∈ r.entries := by
  rw [ofVariables] at h
  split at h
  · contradiction
  simp only at h
  split at h
  · contradiction
  cases h
  exact List.mem_toArray.2 (List.mem_mergeSort.2 hv)

end Mib

namespace CommandLine.Options

open Mib

variable (options : Options)

theorem holdsGroup_of_build {scope : Scope Device} (h : options.scope.build = .ok scope) :
    scope.HoldsGroup { descr := options.descr } Device.textsPart Device.upTime := by
  rcases Except.bind_eq_ok h with ⟨registry, hregistry, h⟩
  cases h
  exact ⟨fun v hv => Registry.mem_of_ofVariables hregistry hv,
    fun v hv => .inl (Registry.ofVariables_eq_ok hregistry v hv).1, fun _ _ => rfl⟩

/-- Whatever the options, their scope is built and holds the group. -/
theorem exists_build : ∃ scope, options.scope.build = .ok scope ∧
    scope.HoldsGroup { descr := options.descr } Device.textsPart Device.upTime := by
  have hconsistent : options.scope.Consistent := by
    have hoids : options.scope.entries.map (·.oid) = [1, 2, 3, 4, 5, 6, 7].map systemOid := rfl
    have hencodable : ∀ oid ∈ [1, 2, 3, 4, 5, 6, 7].map systemOid, oid.isEncodable = true := by
      decide
    refine ⟨fun v hv => ?_, ?_⟩
    · have hoid := hencodable v.oid (hoids ▸ List.mem_map_of_mem hv)
      rw [Oid.checkEncodable, if_pos hoid]
    · rw [hoids]
      decide
  obtain ⟨scope, hscope⟩ := (ScopeConfig.exists_build_iff _).2 hconsistent
  exact ⟨scope, hscope, options.holdsGroup_of_build hscope⟩

end CommandLine.Options

end Snmp
