/-
  Snmp/Proofs/ExchangedCallbacks.lean
  ===================================
  **Callbacks do not decide which variable is asked.**

  Finding a name looks at names, and walking looks at whether variables can be walked.  So if the
  variables of a scope are exchanged for others of the same names that can be walked alike
  (`Recast`), even for variables on another state, then each request is planned as before: the
  plan asks the exchanged variables for the same things in the same places (`tasks_recast`).
-/
import Snmp.Proofs.ServingPlan

namespace Snmp.Mib

variable {σ τ : Type}

/-- An exchange of variables that finding and walking do not notice. -/
structure Recast (σ τ : Type) where
  apply : Variable σ → Variable τ
  oid_apply : ∀ v, (apply v).oid = v.oid
  isWalkable_apply : ∀ v, (apply v).isWalkable = v.isWalkable

/-! ### Registries -/

namespace Registry

variable (r : Registry σ) (f : Recast σ τ)

def recast : Registry τ where
  entries := r.entries.map f.apply
  ascending := by
    rw [Array.toList_map, List.pairwise_map]
    simpa only [f.oid_apply] using r.ascending

theorem getElem?_recast (index : Nat) :
    (r.recast f).entries[index]? = r.entries[index]?.map f.apply :=
  Array.getElem?_map

theorem size_recast : (r.recast f).size = r.size := Array.size_map

theorem any_oid_recast (index : Nat) (p : Oid → Bool) :
    (r.recast f).entries[index]?.any (fun v => p v.oid) =
      r.entries[index]?.any fun v => p v.oid := by
  rw [getElem?_recast, Option.any_map]
  simp only [f.oid_apply]

theorem lowerBound_recast (oid : Oid) (low high : Nat) :
    (r.recast f).lowerBound oid low high = r.lowerBound oid low high := by
  fun_induction r.lowerBound oid low high with
  | case1 low high h middle hany ih =>
    rw [← r.any_oid_recast f middle (· < oid)] at hany
    rw [lowerBound, if_pos h]
    exact (if_pos hany).trans ih
  | case2 low high h middle hany ih =>
    rw [← r.any_oid_recast f middle (· < oid)] at hany
    rw [lowerBound, if_pos h]
    exact (if_neg hany).trans ih
  | case3 low high h => rw [lowerBound, if_neg h]

theorem position_recast (oid : Oid) : (r.recast f).position oid = r.position oid := by
  simp only [position, size_recast, lowerBound_recast, r.any_oid_recast f _ (· = oid)]

theorem find?_recast (oid : Oid) : (r.recast f).find? oid = (r.find? oid).map f.apply := by
  rw [find?, find?, position_recast]
  cases r.position oid with
  | found index => exact r.getElem?_recast f index
  | absent index => rfl

theorem walkableFrom_recast (index : Nat) :
    (r.recast f).walkableFrom index = r.walkableFrom index := by
  have hsize : (r.recast f).entries.size = r.entries.size := r.size_recast f
  fun_induction r.walkableFrom index with
  | case1 index h hwalkable =>
    rw [walkableFrom, dif_pos (by omega), if_pos]
    simpa [recast, f.isWalkable_apply] using hwalkable
  | case2 index h hwalkable ih =>
    rw [walkableFrom, dif_pos (by omega), if_neg, ih]
    simpa [recast, f.isWalkable_apply] using hwalkable
  | case3 index h => rw [walkableFrom, dif_neg (by omega)]

theorem next_recast (oid : Oid) : (r.recast f).next oid = r.next oid := by
  simp only [next, position_recast, walkableFrom_recast]

theorem nextVariable?_recast (oid : Oid) :
    (r.recast f).nextVariable? oid = (r.nextVariable? oid).map f.apply := by
  rw [nextVariable?, nextVariable?, next_recast, Option.map_bind]
  congr 1
  funext index
  exact r.getElem?_recast f index

theorem walk_recast (count : Nat) (first : Option Nat) :
    (r.recast f).walk count first = r.walk count first := by
  fun_induction r.walk count first with
  | case1 first => rfl
  | case2 count => rfl
  | case3 count index ih => rw [walk, nextAfter, walkableFrom_recast, ← nextAfter, ih]

theorem bulkNext_recast (oid : Oid) (count : Nat) :
    (r.recast f).bulkNext oid count = r.bulkNext oid count := by
  rw [bulkNext, bulkNext, next_recast, walk_recast]

end Registry

/-! ### Plans -/

def Task.recast (f : Recast σ τ) : Task σ → Task τ
  | .ask place v demand => .ask place (f.apply v) demand
  | .ready answer => .ready answer

theorem Task.ofFound_map (f : Recast σ τ) (place : Nat) (demand : Demand) (otherwise : Answer)
    (found : Option (Variable σ)) :
    ofFound place demand otherwise (found.map f.apply) =
      (ofFound place demand otherwise found).recast f := by
  cases found <;> rfl

theorem Task.oid_recast (f : Recast σ τ) (task : Task σ) : (task.recast f).oid = task.oid := by
  cases task with
  | ask place v demand => exact f.oid_apply v
  | ready answer => rfl

namespace Scope

variable (scope : Scope σ) (f : Recast σ τ)

def recast : Scope τ where
  routingKeys := scope.routingKeys
  registry := scope.registry.recast f
  escalates := scope.escalates

def Slot.recast : Slot σ → Slot τ
  | .visit place v => .visit place (f.apply v)
  | .ended place oid => .ended place oid

def Walk.recast (walk : Walk σ) : Walk τ := ⟨walk.place, walk.start, walk.ahead.map f.apply⟩

theorem nextSlot_recast (place : Nat) (oid : Oid) :
    (scope.recast f).nextSlot place oid = (scope.nextSlot place oid).recast f := by
  rw [nextSlot, nextSlot, recast, Registry.nextVariable?_recast]
  cases scope.registry.nextVariable? oid <;> rfl

theorem singleSlots_recast (bindings : List Binding) : ∀ place,
    (scope.recast f).singleSlots place bindings =
      (scope.singleSlots place bindings).map (Slot.recast f) := by
  induction bindings with
  | nil => exact fun _ => rfl
  | cons binding rest ih =>
    intro place
    rw [singleSlots, singleSlots, nextSlot_recast, ih, List.map_cons]

theorem walks_recast (count : Nat) (bindings : List Binding) : ∀ place,
    (scope.recast f).walks count place bindings =
      (scope.walks count place bindings).map (Walk.recast f) := by
  induction bindings with
  | nil => exact fun _ => rfl
  | cons binding rest ih =>
    intro place
    have hahead : ((scope.registry.recast f).bulkNext binding.oid count).filterMap
          ((scope.registry.recast f).entries[·]?) =
        ((scope.registry.bulkNext binding.oid count).filterMap
          (scope.registry.entries[·]?)).map f.apply := by
      rw [Registry.bulkNext_recast, List.map_filterMap]
      simp only [Registry.getElem?_recast]
    rw [walks, walks, ih, List.map_cons, Walk.recast, ← hahead]
    rfl

theorem stepWalks_recast (walks : List (Walk σ)) : ∀ finished,
    stepWalks finished (walks.map (Walk.recast f)) =
      ((stepWalks finished walks).1.map (Slot.recast f), (stepWalks finished walks).2) := by
  induction walks with
  | nil => exact fun _ => rfl
  | cons walk rest ih =>
    intro finished
    obtain ⟨place, start, ahead⟩ := walk
    cases ahead with
    | cons v more =>
      simp only [List.map_cons, Walk.recast, stepWalks, ih]
      rfl
    | nil =>
      simp only [List.map_cons, Walk.recast, List.map_nil, stepWalks, ih]
      split <;> rfl

theorem repeatWalks_recast (count : Nat) : ∀ (finished : List Oid) (walks : List (Walk σ)),
    repeatWalks finished count (walks.map (Walk.recast f)) =
      (repeatWalks finished count walks).map (Slot.recast f) := by
  induction count with
  | zero => exact fun _ _ => rfl
  | succ count ih =>
    intro finished walks
    have hdrop : (walks.map (Walk.recast f)).map
          (fun walk => { walk with ahead := walk.ahead.drop 1 }) =
        (walks.map fun walk => { walk with ahead := walk.ahead.drop 1 }).map (Walk.recast f) := by
      simp only [List.map_map, Function.comp_def, Walk.recast, List.map_drop]
    rw [repeatWalks, repeatWalks, stepWalks_recast, List.map_append, ← ih, ← hdrop]

theorem repetitionsNeeded_recast (count : Nat) (walks : List (Walk σ)) :
    repetitionsNeeded count (walks.map (Walk.recast f)) = repetitionsNeeded count walks := by
  simp only [repetitionsNeeded, List.map_map, Function.comp_def, Walk.recast, List.length_map]

theorem bulkPlan_recast (pdu : Pdu) :
    (scope.recast f).bulkPlan pdu = (scope.bulkPlan pdu).map (Slot.recast f) := by
  have hnext (oid : Oid) : (scope.recast f).registry.next oid = scope.registry.next oid :=
    scope.registry.next_recast f oid
  simp only [bulkPlan, hnext, walks_recast, repetitionsNeeded_recast, repeatWalks_recast,
    singleSlots_recast, List.map_append]

theorem task_recast (slot : Slot σ) : (slot.recast f).task = slot.task.recast f := by
  cases slot <;> rfl

theorem mapIdx_recast {task : Nat → Binding → Task σ} {other : Nat → Binding → Task τ}
    (h : ∀ place binding, other place binding = (task place binding).recast f)
    (bindings : List Binding) :
    bindings.mapIdx other = (bindings.mapIdx task).map (Task.recast f) := by
  rw [List.mapIdx_eq_iff]
  intro index
  rw [List.getElem?_map, List.getElem?_mapIdx, Option.map_map]
  exact congrArg (Option.map · bindings[index]?) (funext fun binding => (h index binding).symm)

variable (place : Nat) (binding : Binding)

theorem getTask_recast :
    (scope.recast f).getTask place binding = (scope.getTask place binding).recast f := by
  rw [getTask, getTask, recast, Registry.find?_recast, Task.ofFound_map]

theorem nextTask_recast :
    (scope.recast f).nextTask place binding = (scope.nextTask place binding).recast f := by
  rw [nextTask, nextTask, recast, Registry.nextVariable?_recast, Task.ofFound_map]

theorem setTask_recast :
    (scope.recast f).setTask place binding = (scope.setTask place binding).recast f := by
  rw [setTask, setTask, recast, Registry.find?_recast, Task.ofFound_map]

theorem notifyTask_recast (isInform : Bool) :
    (scope.recast f).notifyTask isInform place binding =
      (scope.notifyTask isInform place binding).recast f := by
  rw [notifyTask, notifyTask, recast, Registry.find?_recast, Task.ofFound_map]

/-- Each request is planned as before, for the exchanged variables. -/
theorem tasks_recast (pdu : Pdu) :
    (scope.recast f).tasks pdu = (scope.tasks pdu).map (Task.recast f) := by
  have hnotify (isInform : Bool) := mapIdx_recast f
    (fun place binding => scope.notifyTask_recast f place binding isInform) pdu.bindings
  cases htype : pdu.type with
  | getRequest => simpa only [tasks, htype] using mapIdx_recast f (scope.getTask_recast f) _
  | getNextRequest => simpa only [tasks, htype] using mapIdx_recast f (scope.nextTask_recast f) _
  | getBulkRequest =>
    simp only [tasks, htype, bulkPlan_recast, List.map_map]
    exact List.map_congr_left fun slot _ => task_recast f slot
  | setRequest => simpa only [tasks, htype] using mapIdx_recast f (scope.setTask_recast f) _
  | informRequest => simpa only [tasks, htype] using hnotify true
  | trapV1 => simpa only [tasks, htype] using hnotify false
  | trapV2 => simpa only [tasks, htype] using hnotify false
  | response => simp only [tasks, htype, List.map_nil]
  | report => simp only [tasks, htype, List.map_nil]

end Scope

end Snmp.Mib
