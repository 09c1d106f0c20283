/-
  Snmp/Proofs/BulkLoop.lean
  =========================
  **The repetitions of a GetBulk request.**

  A step of the walks and a pass of the reference over the repeaters do the same to the answers
  so far, as long as the walks hold what is still ahead and the remembered identifiers are those
  whose end was told (`foldl_emit`).  Stepping drops one variable from each walk, so the same is
  true of the next repetition, and of all that were asked for (`foldl_repetitions`).

  That many are never made: once the longest walk has run out, one more step tells the last
  ends, and from then on a step adds nothing (`repeatWalks_of_longest`).  This is also what
  bounds the response.
-/
import Snmp.Proofs.BulkWalk

namespace Snmp.Mib.Scope

variable {σ : Type}

/-! ### One repetition -/

def Walk.tail (walk : Walk σ) : Walk σ := { walk with ahead := walk.ahead.drop 1 }

theorem repeatWalks_succ (finished : List Oid) (count : Nat) (walks : List (Walk σ)) :
    repeatWalks finished (count + 1) walks =
      (stepWalks finished walks).1
        ++ repeatWalks (stepWalks finished walks).2 count (walks.map Walk.tail) := rfl

/-- The walk of a repeater after `repetition` steps, out of `count` variables computed ahead. -/
def walkAt (scope : Scope σ) (count repetition : Nat) (repeater : Nat × Oid) : Walk σ where
  place := repeater.1
  start := repeater.2
  ahead := (scope.registry.ahead count (scope.registry.next repeater.2)).drop repetition

theorem walks_eq (scope : Scope σ) (count : Nat) (bindings : List Binding) : ∀ place,
    scope.walks count place bindings = (placed place bindings).map (scope.walkAt count 0) := by
  induction bindings with
  | nil => exact fun _ => rfl
  | cons binding rest ih =>
    intro place
    rw [walks, placed, List.map_cons, ih]
    rfl

theorem map_tail_walkAt (scope : Scope σ) (count repetition : Nat)
    (repeaters : List (Nat × Oid)) :
    (repeaters.map (scope.walkAt count repetition)).map Walk.tail =
      repeaters.map (scope.walkAt count (repetition + 1)) := by
  rw [List.map_map]
  apply List.map_congr_left
  intro repeater _
  simp only [Function.comp_def, Walk.tail, walkAt, List.drop_drop]

/-- The first variable that is still ahead is the one that stepping comes to. -/
theorem head?_walkAt (scope : Scope σ) (context : RequestContext) (state : σ)
    {count repetition : Nat} (h : repetition < count) (repeater : Nat × Oid) :
    (scope.walkAt count repetition repeater).ahead.head? =
      scope.reached context state repetition repeater.2 := by
  rw [walkAt, List.head?_drop, reached_eq_stepIndex]
  exact scope.registry.getElem?_ahead _ _ _ (fun i hi => Registry.lt_size_of_next hi) h

/-- What a step does with the first walk: it visits the next variable, or the walk has ended and
    its end was told before, or it tells the end. -/
theorem stepWalks_cons (finished : List Oid) (walk : Walk σ) (rest : List (Walk σ)) :
    (∃ v more, walk.ahead = v :: more ∧ stepWalks finished (walk :: rest) =
      (.visit walk.place v :: (stepWalks finished rest).1, (stepWalks finished rest).2)) ∨
    (walk.ahead = [] ∧ walk.start ∈ finished ∧
      stepWalks finished (walk :: rest) = stepWalks finished rest) ∨
    (walk.ahead = [] ∧ walk.start ∉ finished ∧ stepWalks finished (walk :: rest) =
      (.ended walk.place walk.start :: (stepWalks (walk.start :: finished) rest).1,
        (stepWalks (walk.start :: finished) rest).2)) := by
  obtain ⟨place, start, ahead⟩ := walk
  cases ahead with
  | cons v more => exact .inl ⟨v, more, rfl, rfl⟩
  | nil =>
    by_cases htold : start ∈ finished
    · exact .inr (.inl ⟨rfl, htold, if_pos htold⟩)
    · exact .inr (.inr ⟨rfl, htold, if_neg htold⟩)

/-- A repetition of the reference adds what a step of the walks adds, by induction on the
    repeaters; what is remembered stays in agreement with the answers. -/
theorem foldl_emit (scope : Scope σ) (context : RequestContext) (state : σ)
    {count repetition : Nat} (hcount : repetition < count) (repeaters : List (Nat × Oid)) :
    ∀ finished answers, Remembers finished answers →
      let stepped := stepWalks finished (repeaters.map (scope.walkAt count repetition))
      let after := answers ++ stepped.1.map (scope.slotAnswer context state)
      repeaters.foldl (scope.emit context state repetition) answers = after ∧
        Remembers stepped.2 after := by
  induction repeaters with
  | nil =>
    intro finished answers h
    refine ⟨(List.append_nil _).symm, ?_⟩
    rwa [List.map_nil, stepWalks, List.map_nil, List.append_nil]
  | cons repeater rest ih =>
    intro finished answers h
    have hhead := scope.head?_walkAt context state hcount repeater
    simp only [List.map_cons, List.foldl_cons, emit, repetitionAnswer?_eq, ← hhead]
    rcases stepWalks_cons finished (scope.walkAt count repetition repeater)
      (rest.map (scope.walkAt count repetition)) with
      ⟨v, more, hahead, hstep⟩ | ⟨hended, htold, hstep⟩ | ⟨hended, hnew, hstep⟩
    · have hnames := scope.names_answerRead context repeater.1 v state
      rcases ih finished _ (h.visit hnames) with ⟨hfold, hremembers⟩
      rw [hstep]
      simp only [hahead, List.append_assoc] at hfold hremembers ⊢
      exact ⟨hfold, hremembers⟩
    · rw [hstep]
      simp only [hended, List.head?_nil, Option.map_none, if_pos ((h repeater.2).1 htold)]
      exact ih finished answers h
    · rw [hstep]
      rcases ih _ _ (h.ended repeater.1 repeater.2) with ⟨hfold, hremembers⟩
      simp only [hended, List.head?_nil, Option.map_none, if_neg (mt (h repeater.2).2 hnew)]
      simp only [List.append_assoc] at hfold hremembers
      exact ⟨hfold, hremembers⟩

/-! ### All repetitions -/

/-- The repetitions from `repetition` on add what repeated steps add, by induction on how many
    there are. -/
theorem foldl_repetitions (scope : Scope σ) (context : RequestContext) (state : σ)
    (repeaters : List (Nat × Oid)) {count : Nat} : ∀ more repetition finished answers,
    repetition + more ≤ count → Remembers finished answers →
    (List.range' repetition more).foldl
        (fun answers repetition => repeaters.foldl (scope.emit context state repetition) answers)
        answers =
      answers ++ (repeatWalks finished more
        (repeaters.map (scope.walkAt count repetition))).map (scope.slotAnswer context state) := by
  intro more
  induction more with
  | zero =>
    intro repetition finished answers _ _
    exact (List.append_nil _).symm
  | succ more ih =>
    intro repetition finished answers hcount h
    obtain ⟨hfold, hremembers⟩ :=
      scope.foldl_emit context state (show repetition < count by omega) repeaters finished answers h
    rw [List.range'_succ, List.foldl_cons, hfold, ih _ _ _ (by omega) hremembers, repeatWalks_succ,
      map_tail_walkAt, List.map_append, List.append_assoc]

/-! ### Stopping early -/

/-- What was remembered stays remembered, and the start of every walk that has ended is. -/
theorem mem_stepWalks (walks : List (Walk σ)) : ∀ finished,
    (∀ oid ∈ finished, oid ∈ (stepWalks finished walks).2) ∧
      ∀ walk ∈ walks, walk.ahead = [] → walk.start ∈ (stepWalks finished walks).2 := by
  induction walks with
  | nil => exact fun _ => ⟨fun _ h => h, fun _ h => absurd h List.not_mem_nil⟩
  | cons first rest ih =>
    intro finished
    rcases stepWalks_cons finished first rest with
      ⟨v, more, hahead, hstep⟩ | ⟨_, htold, hstep⟩ | ⟨_, _, hstep⟩
    · rcases ih finished with ⟨hkeep, hended⟩
      rw [hstep]
      refine ⟨hkeep, fun walk hwalk hnil => ?_⟩
      rcases List.mem_cons.1 hwalk with rfl | hwalk
      · rw [hnil] at hahead
        contradiction
      · exact hended walk hwalk hnil
    · rcases ih finished with ⟨hkeep, hended⟩
      rw [hstep]
      refine ⟨hkeep, fun walk hwalk hnil => ?_⟩
      rcases List.mem_cons.1 hwalk with rfl | hwalk
      · exact hkeep _ htold
      · exact hended walk hwalk hnil
    · rcases ih (first.start :: finished) with ⟨hkeep, hended⟩
      rw [hstep]
      refine ⟨fun oid hoid => hkeep oid (List.mem_cons_of_mem _ hoid), fun walk hwalk hnil => ?_⟩
      rcases List.mem_cons.1 hwalk with rfl | hwalk
      · exact hkeep _ List.mem_cons_self
      · exact hended walk hwalk hnil

def Exhausted (finished : List Oid) (walks : List (Walk σ)) : Prop :=
  ∀ walk ∈ walks, walk.ahead = [] ∧ walk.start ∈ finished

theorem stepWalks_of_exhausted {finished : List Oid} {walks : List (Walk σ)}
    (h : Exhausted finished walks) : stepWalks finished walks = ([], finished) := by
  induction walks with
  | nil => rfl
  | cons first rest ih =>
    rcases h first List.mem_cons_self with ⟨hended, htold⟩
    rcases stepWalks_cons finished first rest with
      ⟨v, more, hahead, _⟩ | ⟨_, _, hstep⟩ | ⟨_, hnew, _⟩
    · rw [hended] at hahead
      contradiction
    · rw [hstep]
      exact ih fun walk hwalk => h walk (List.mem_cons_of_mem _ hwalk)
    · exact absurd htold hnew

theorem repeatWalks_of_exhausted : ∀ (count : Nat) {finished : List Oid} {walks : List (Walk σ)},
    Exhausted finished walks → repeatWalks finished count walks = [] := by
  intro count
  induction count with
  | zero => exact fun _ => rfl
  | succ count ih =>
    intro finished walks h
    rw [repeatWalks_succ, stepWalks_of_exhausted h]
    apply ih
    intro walk hwalk
    rcases List.mem_map.1 hwalk with ⟨before, hbefore, rfl⟩
    rcases h before hbefore with ⟨hended, htold⟩
    exact ⟨by simp only [Walk.tail, hended, List.drop_nil], htold⟩

/-- One step more than the longest walk has variables says all there is to be said, by induction
    on the length of the longest walk. -/
theorem repeatWalks_of_longest : ∀ (longest : Nat) {count : Nat} {finished : List Oid}
    {walks : List (Walk σ)}, (∀ walk ∈ walks, walk.ahead.length ≤ longest) → longest + 1 ≤ count →
    repeatWalks finished count walks = repeatWalks finished (longest + 1) walks := by
  intro longest
  induction longest with
  | zero =>
    intro count finished walks hlength hcount
    obtain ⟨more, rfl⟩ := Nat.exists_eq_add_of_le' hcount
    -- Every walk has ended, and after one step every end has been told.
    have hexhausted : Exhausted (stepWalks finished walks).2 (walks.map Walk.tail) := by
      intro walk hwalk
      rcases List.mem_map.1 hwalk with ⟨before, hbefore, rfl⟩
      have hended := List.eq_nil_of_length_eq_zero (Nat.le_zero.1 (hlength before hbefore))
      exact ⟨by simp only [Walk.tail, hended, List.drop_nil],
        (mem_stepWalks walks finished).2 before hbefore hended⟩
    rw [repeatWalks_succ, repeatWalks_succ, repeatWalks_of_exhausted _ hexhausted]
    rfl
  | succ longest ih =>
    intro count finished walks hlength hcount
    obtain ⟨more, rfl⟩ := Nat.exists_eq_add_of_le' hcount
    have htails : ∀ walk ∈ walks.map Walk.tail, walk.ahead.length ≤ longest := by
      intro walk hwalk
      rcases List.mem_map.1 hwalk with ⟨before, hbefore, rfl⟩
      have hle := hlength before hbefore
      simp only [Walk.tail, List.length_drop]
      omega
    rw [show more + (longest + 1 + 1) = more + (longest + 1) + 1 from rfl, repeatWalks_succ,
      repeatWalks_succ finished (longest + 1), ih htails (Nat.le_add_left _ _)]

/-- As many steps as are made say what all that were asked for would say. -/
theorem repeatWalks_needed (finished : List Oid) (count : Nat) (walks : List (Walk σ)) :
    repeatWalks finished (repetitionsNeeded count walks) walks =
      repeatWalks finished count walks := by
  rw [repetitionsNeeded]
  cases hmax : (walks.map (·.ahead.length)).max? with
  | none =>
    have hnil : walks = [] := List.map_eq_nil_iff.1 (List.max?_eq_none_iff.1 hmax)
    rw [hnil]
    exact (repeatWalks_of_exhausted count fun _ hwalk => absurd hwalk List.not_mem_nil).symm
  | some longest =>
    have hlongest := (List.max?_eq_some_iff.1 hmax).2
    by_cases hcount : longest + 1 ≤ count
    · simp only [Nat.min_eq_right hcount]
      exact (repeatWalks_of_longest longest
        (fun walk hwalk => hlongest _ (List.mem_map_of_mem hwalk)) hcount).symm
    · simp only [Nat.min_eq_left (Nat.le_of_not_le hcount)]

theorem repetitionsNeeded_le {count bound : Nat} {walks : List (Walk σ)}
    (h : ∀ walk ∈ walks, walk.ahead.length ≤ bound) :
    repetitionsNeeded count walks ≤ bound + 1 := by
  rw [repetitionsNeeded]
  cases hmax : (walks.map (·.ahead.length)).max? with
  | none => exact Nat.zero_le _
  | some longest =>
    rcases List.mem_map.1 (List.max?_eq_some_iff.1 hmax).1 with ⟨walk, hwalk, rfl⟩
    exact Nat.le_trans (Nat.min_le_right _ _) (Nat.succ_le_succ (h walk hwalk))

/-! ### The slots that are made -/

/-- What a step would say of a walk if nothing were remembered. -/
def Walk.slot (walk : Walk σ) : Slot σ :=
  match walk.ahead with
  | v :: _ => .visit walk.place v
  | [] => .ended walk.place walk.start

/-- A step says no more than one thing of each walk, in their order. -/
theorem sublist_stepWalks (walks : List (Walk σ)) : ∀ finished,
    List.Sublist (stepWalks finished walks).1 (walks.map Walk.slot) := by
  induction walks with
  | nil => exact fun _ => .slnil
  | cons first rest ih =>
    intro finished
    rw [List.map_cons, Walk.slot]
    rcases stepWalks_cons finished first rest with
      ⟨v, more, hahead, hstep⟩ | ⟨hended, _, hstep⟩ | ⟨hended, _, hstep⟩
    · rw [hstep, hahead]
      exact (ih finished).cons_cons _
    · rw [hstep, hended]
      exact (ih finished).cons _
    · rw [hstep, hended]
      exact (ih _).cons_cons _

theorem length_repeatWalks_le : ∀ (count : Nat) (finished : List Oid) (walks : List (Walk σ)),
    (repeatWalks finished count walks).length ≤ walks.length * count := by
  intro count
  induction count with
  | zero => exact fun _ _ => Nat.zero_le _
  | succ count ih =>
    intro finished walks
    have hstep := (sublist_stepWalks walks finished).length_le
    have hrest := ih (stepWalks finished walks).2 (walks.map Walk.tail)
    rw [List.length_map] at hstep hrest
    rw [repeatWalks_succ, List.length_append, Nat.mul_succ]
    omega

def Slot.Pure : Slot σ → Prop
  | .visit _ v => v.Pure
  | .ended _ _ => True

theorem pure_slot {walk : Walk σ} (h : ∀ v ∈ walk.ahead, v.Pure) : walk.slot.Pure := by
  obtain ⟨place, start, ahead⟩ := walk
  cases ahead with
  | nil => trivial
  | cons v more => exact h v List.mem_cons_self

theorem pure_repeatWalks : ∀ (count : Nat) (finished : List Oid) (walks : List (Walk σ)),
    (∀ walk ∈ walks, ∀ v ∈ walk.ahead, v.Pure) →
    ∀ slot ∈ repeatWalks finished count walks, slot.Pure := by
  intro count
  induction count with
  | zero => exact fun _ _ _ _ hslot => absurd hslot List.not_mem_nil
  | succ count ih =>
    intro finished walks h slot hslot
    rw [repeatWalks_succ] at hslot
    rcases List.mem_append.1 hslot with hslot | hslot
    · obtain ⟨walk, hwalk, rfl⟩ := List.mem_map.1 ((sublist_stepWalks walks finished).subset hslot)
      exact pure_slot (h walk hwalk)
    · apply ih _ _ _ slot hslot
      intro walk hwalk v hv
      rcases List.mem_map.1 hwalk with ⟨before, hbefore, rfl⟩
      exact h before hbefore v (List.mem_of_mem_drop hv)

theorem pure_singleSlots {scope : Scope σ} (hpure : scope.Pure) (bindings : List Binding) :
    ∀ place, ∀ slot ∈ scope.singleSlots place bindings, slot.Pure := by
  induction bindings with
  | nil => exact fun _ _ hslot => absurd hslot List.not_mem_nil
  | cons binding rest ih =>
    intro place slot hslot
    rcases List.mem_cons.1 hslot with rfl | hslot
    · rw [nextSlot]
      cases hnext : scope.registry.nextVariable? binding.oid with
      | none => trivial
      | some v =>
        rcases Option.bind_eq_some_iff.1 hnext with ⟨index, _, hindex⟩
        exact hpure v (Array.mem_of_getElem? hindex)
    · exact ih _ slot hslot

theorem answerSlot_state {slot : Slot σ} (h : slot.Pure) (scope : Scope σ)
    (context : RequestContext) (state : σ) : (scope.answerSlot context slot state).2 = state := by
  cases slot with
  | visit place v => exact answerRead_state h context place state
  | ended place oid => rfl

end Snmp.Mib.Scope
