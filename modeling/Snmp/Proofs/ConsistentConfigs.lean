/-
  Snmp/Proofs/ConsistentConfigs.lean
  ==================================
  **Which configurations become agents, and where an agent sends a request.**

  The checks of a configuration run in an order and remember what they have seen: the variables
  of each scope after they were sorted, the routing keys and the default scope found so far, the
  names of the users before.  What they come to has no order (`Config.Consistent`): a
  configuration becomes an agent exactly if it is consistent.

  The routes that the checks leave behind say of each scope where it is (`Routes.Describes`):
  adding a scope keeps this true of the scopes so far.  So looking a routing key up yields the
  place that the configuration leads it to (`Config.Leads`), and there is one such place at
  most.
-/
import Mathlib.Data.List.Forall2
import Mathlib.Data.List.Nodup
import Snmp.Proofs.Authentication
import Snmp.Proofs.FaithfulScopes
import Snmp.Proofs.ReplySize

namespace Snmp

open Usm

/-! ### Lists of steps -/

namespace Except

variable {ε α β : Type} {members : List α}

/-- All members were checked if and only if each of them passes. -/
theorem forM_eq_ok_iff {f : α → Except ε PUnit} :
    members.forM f = .ok () ↔ ∀ a ∈ members, f a = .ok () := by
  constructor
  · exact eq_ok_of_forM
  · intro h
    induction members with
    | nil => rfl
    | cons first rest ih =>
      obtain ⟨hfirst, hrest⟩ := List.forall_mem_cons.1 h
      simp only [List.forM, hfirst]
      exact ih hrest

theorem mapM_eq_ok_iff {f : α → Except ε β} : ∀ {results : List β},
    members.mapM f = .ok results ↔ List.Forall₂ (fun a b => f a = .ok b) members results := by
  induction members with
  | nil =>
    intro results
    constructor
    · rintro ⟨⟩
      exact .nil
    · rintro ⟨⟩
      rfl
  | cons first rest ih =>
    intro results
    rw [List.mapM_cons]
    constructor
    · intro h
      rcases bind_eq_ok h with ⟨result, hfirst, h⟩
      rcases bind_eq_ok h with ⟨others, hrest, h⟩
      cases h
      exact .cons hfirst (ih.1 hrest)
    · intro h
      cases h with
      | cons hfirst hrest =>
        rw [hfirst]
        simp only [ih.2 hrest, bind, Except.bind]
        rfl

theorem exists_mapM_iff {f : α → Except ε β} :
    (∃ results, members.mapM f = .ok results) ↔ ∀ a ∈ members, ∃ b, f a = .ok b := by
  induction members with
  | nil => exact ⟨fun _ => List.forall_mem_nil _, fun _ => ⟨[], rfl⟩⟩
  | cons first rest ih =>
    rw [List.forall_mem_cons, ← ih]
    constructor
    · rintro ⟨results, h⟩
      cases mapM_eq_ok_iff.1 h with
      | cons hfirst hrest => exact ⟨⟨_, hfirst⟩, ⟨_, mapM_eq_ok_iff.2 hrest⟩⟩
    · rintro ⟨⟨result, hfirst⟩, ⟨others, hrest⟩⟩
      exact ⟨result :: others, mapM_eq_ok_iff.2 (.cons hfirst (mapM_eq_ok_iff.1 hrest))⟩

end Except

/-! ### Scopes -/

namespace Mib

variable {σ : Type}

/-- In ascending order, names are distinct if neighbours are. -/
theorem sharedOid?_eq_none_iff {entries : List (Variable σ)}
    (sorted : entries.Pairwise fun a b => a.oid ≤ b.oid) :
    sharedOid? entries = none ↔ (entries.map (·.oid)).Nodup := by
  constructor
  · intro h
    rw [List.Nodup, List.pairwise_map]
    refine (pairwise_lt_of_sharedOid?_eq_none sorted h).imp ?_
    intro a b hlt hsame
    rw [hsame] at hlt
    exact Oid.lt_irrefl _ hlt
  · intro h
    induction entries with
    | nil => rfl
    | cons a rest ih =>
      cases rest with
      | nil => rfl
      | cons b rest =>
        have hapart := (List.nodup_cons.1 h).1
        have hne : a.oid ≠ b.oid := by
          intro hsame
          exact hapart (List.mem_map.2 ⟨b, List.mem_cons_self, hsame.symm⟩)
        rw [sharedOid?, if_neg hne]
        exact ih (List.pairwise_cons.1 sorted).2 (List.nodup_cons.1 h).2

theorem Registry.exists_ofVariables_iff (entries : List (Variable σ)) :
    (∃ r, ofVariables entries = .ok r) ↔
      (∀ v ∈ entries, v.oid.checkEncodable = .ok ()) ∧ (entries.map (·.oid)).Nodup := by
  have hperm : (sortByOid entries).Perm entries := List.mergeSort_perm entries _
  rw [← (hperm.map _).nodup_iff, ← sharedOid?_eq_none_iff (pairwise_sortByOid entries),
    ← Except.forM_eq_ok_iff]
  constructor
  · rintro ⟨r, h⟩
    rw [ofVariables] at h
    split at h
    · contradiction
    · rename_i hchecked
      simp only at h
      split at h
      · contradiction
      · rename_i hshared
        exact ⟨hchecked, hshared⟩
  · rintro ⟨hchecked, hshared⟩
    simp only [ofVariables, hchecked]
    split
    · rename_i oid hsame
      rw [hshared] at hsame
      contradiction
    · exact ⟨_, rfl⟩

/-- What makes the description of a scope consistent. -/
structure ScopeConfig.Consistent (config : ScopeConfig σ) : Prop where
  encodable : ∀ v ∈ config.entries, v.oid.checkEncodable = .ok ()
  /-- No name is registered twice. -/
  distinct : (config.entries.map (·.oid)).Nodup

theorem ScopeConfig.exists_build_iff (config : ScopeConfig σ) :
    (∃ scope, config.build = .ok scope) ↔ config.Consistent := by
  constructor
  · rintro ⟨scope, h⟩
    rcases Except.bind_eq_ok h with ⟨registry, hregistry, _⟩
    obtain ⟨hencodable, hdistinct⟩ :=
      (Registry.exists_ofVariables_iff config.entries).1 ⟨registry, hregistry⟩
    exact ⟨hencodable, hdistinct⟩
  · rintro ⟨hencodable, hdistinct⟩
    obtain ⟨registry, hregistry⟩ :=
      (Registry.exists_ofVariables_iff config.entries).2 ⟨hencodable, hdistinct⟩
    rw [build, hregistry]
    exact ⟨_, rfl⟩

theorem ScopeConfig.routingKeys_of_build {config : ScopeConfig σ} {scope : Scope σ}
    (h : config.build = .ok scope) : scope.routingKeys = config.routingKeys := by
  rcases Except.bind_eq_ok h with ⟨registry, _, h⟩
  cases h
  rfl

end Mib

/-! ### Users -/

/-- What makes the description of a user consistent. -/
structure Usm.User.Consistent (user : User) : Prop where
  /-- Nothing is encrypted that is not authenticated. -/
  authenticated : user.privacy?.isSome → user.auth?.isSome
  authPassphrase : ∀ auth, user.auth? = some auth → auth.passphrase ≠ []
  privPassphrase : ∀ privacy, user.privacy? = some privacy → privacy.passphrase ≠ []

theorem Usm.User.exists_prepare_iff (suite : Suite) (user : User) :
    (∃ prepared, user.prepare suite = .ok prepared) ↔ user.Consistent := by
  obtain ⟨name, auth?, privacy?⟩ := user
  cases auth? with
  | none =>
    cases privacy? with
    | none => exact ⟨fun _ => ⟨nofun, nofun, nofun⟩, fun _ => ⟨_, rfl⟩⟩
    | some privacy =>
      constructor
      · rintro ⟨prepared, h⟩
        contradiction
      · intro h
        exact absurd (h.authenticated rfl) Bool.false_ne_true
  | some auth =>
    simp only [prepare]
    split
    · rename_i hempty
      constructor
      · rintro ⟨prepared, h⟩
        contradiction
      · intro h
        rw [Bool.or_eq_true, List.isEmpty_iff, Option.any_eq_true] at hempty
        rcases hempty with hempty | ⟨privacy, hprivacy, hempty⟩
        · exact absurd hempty (h.authPassphrase auth rfl)
        · exact absurd (List.isEmpty_iff.1 hempty) (h.privPassphrase privacy hprivacy)
    · rename_i hfilled
      rw [Bool.or_eq_true, List.isEmpty_iff, Option.any_eq_true, not_or] at hfilled
      refine ⟨fun _ => ⟨fun _ => rfl, ?_, ?_⟩, fun _ => ⟨_, rfl⟩⟩
      · rintro _ ⟨⟩
        exact hfilled.1
      · intro privacy hprivacy hempty
        exact hfilled.2 ⟨privacy, hprivacy, List.isEmpty_iff.2 hempty⟩

namespace Agent

variable {σ : Type} {suite : Suite}

/-- Users are prepared one after the other, and each has to have a name that is not taken: by
    induction on the users that are left. -/
theorem exists_prepareUsers_iff {users : List User} : ∀ {taken : List Octets},
    (∃ prepared, prepareUsers suite taken users = .ok prepared) ↔
      (∀ user ∈ users, user.Consistent) ∧ (users.map (·.name)).Nodup ∧
        ∀ user ∈ users, user.name ∉ taken := by
  induction users with
  | nil =>
    intro taken
    exact ⟨fun _ => ⟨List.forall_mem_nil _, .nil, List.forall_mem_nil _⟩, fun _ => ⟨[], rfl⟩⟩
  | cons first rest ih =>
    intro taken
    rw [List.forall_mem_cons, List.forall_mem_cons, List.map_cons, List.nodup_cons]
    constructor
    · rintro ⟨prepared, h⟩
      rcases Except.bind_eq_ok h with ⟨user, huser, h⟩
      have hname : user.name = first.name := (User.prepare_eq_ok huser).1
      rw [hname] at h
      split at h
      · contradiction
      rename_i hfree
      rcases Except.bind_eq_ok h with ⟨others, hrest, _⟩
      obtain ⟨hconsistent, hdistinct, hfreeRest⟩ := ih.1 ⟨others, hrest⟩
      refine ⟨⟨(User.exists_prepare_iff suite first).1 ⟨user, huser⟩, hconsistent⟩,
        ⟨?_, hdistinct⟩, ?_, ?_⟩
      · intro hmem
        rcases List.mem_map.1 hmem with ⟨other, hother, hsame⟩
        exact hfreeRest other hother (hsame ▸ List.mem_cons_self)
      · intro hmem
        exact hfree (List.contains_iff_mem.2 hmem)
      · intro other hother hmem
        exact hfreeRest other hother (List.mem_cons_of_mem _ hmem)
    · rintro ⟨⟨hfirst, hconsistent⟩, ⟨hapart, hdistinct⟩, hfree, hfreeRest⟩
      obtain ⟨user, huser⟩ := (User.exists_prepare_iff suite first).2 hfirst
      have hname : user.name = first.name := (User.prepare_eq_ok huser).1
      have htaken : ∀ other ∈ rest, other.name ∉ first.name :: taken := by
        intro other hother hmem
        rcases List.mem_cons.1 hmem with hsame | hmem
        · exact hapart (List.mem_map.2 ⟨other, hother, hsame⟩)
        · exact hfreeRest other hother hmem
      obtain ⟨others, hothers⟩ := ih.2 ⟨hconsistent, hdistinct, htaken⟩
      have hnot : ¬taken.contains first.name = true := by
        rw [List.contains_iff_mem]
        exact hfree
      refine ⟨user :: others, ?_⟩
      simp only [prepareUsers, huser, hname, if_neg hnot, hothers, bind, Except.bind]
      rfl

end Agent

/-! ### Routes -/

namespace Routes

variable {σ : Type} {routes after : Routes}

theorem lookup_map_append (keys : List Octets) (place : Nat) (table : List (Octets × Nat))
    (key : Octets) :
    (keys.map (·, place) ++ table).lookup key =
      if key ∈ keys then some place else table.lookup key := by
  induction keys with
  | nil => rfl
  | cons first rest ih =>
    rw [List.map_cons, List.cons_append, List.lookup_cons, ih]
    by_cases hfirst : key = first
    · simp [hfirst]
    · have hnot : (key == first) = false := beq_false_of_ne hfirst
      simp [hfirst, hnot]

theorem lookup_map_append_eq_none {keys : List Octets} {place : Nat}
    {table : List (Octets × Nat)} {key : Octets} :
    (keys.map (·, place) ++ table).lookup key = none ↔ key ∉ keys ∧ table.lookup key = none := by
  rw [lookup_map_append]
  by_cases hkey : key ∈ keys
  · simp [hkey]
  · simp [hkey]

theorem addKey_eq_ok_iff {place : Nat} {key : Octets} :
    addKey place routes key = .ok after ↔ routes.table.lookup key = none ∧
      after = { routes with table := [key].map (·, place) ++ routes.table } := by
  rw [addKey]
  cases routes.table.lookup key with
  | none => simp [eq_comm]
  | some other => simp

/-- Keys are added if none of them leads anywhere before, and then all of them are: by induction
    on the keys. -/
theorem foldlM_addKey_iff {keys : List Octets} {place : Nat} : ∀ {routes after : Routes},
    keys.foldlM (addKey place) routes = .ok after ↔
      keys.Nodup ∧ (∀ key ∈ keys, routes.table.lookup key = none) ∧
        after = { routes with table := keys.reverse.map (·, place) ++ routes.table } := by
  induction keys with
  | nil =>
    intro routes after
    constructor
    · rintro ⟨⟩
      exact ⟨.nil, List.forall_mem_nil _, rfl⟩
    · rintro ⟨_, _, rfl⟩
      rfl
  | cons first rest ih =>
    intro routes after
    rw [List.foldlM_cons, List.nodup_cons, List.forall_mem_cons, List.reverse_cons,
      List.map_append, List.append_assoc]
    constructor
    · intro h
      rcases Except.bind_eq_ok h with ⟨middle, hfirst, hrest⟩
      obtain ⟨hfree, rfl⟩ := addKey_eq_ok_iff.1 hfirst
      obtain ⟨hdistinct, hfreeRest, hafter⟩ := ih.1 hrest
      simp only [lookup_map_append_eq_none, List.mem_singleton] at hfreeRest
      exact ⟨⟨fun hmem => (hfreeRest first hmem).1 rfl, hdistinct⟩,
        ⟨hfree, fun key hkey => (hfreeRest key hkey).2⟩, hafter⟩
    · rintro ⟨⟨hapart, hdistinct⟩, ⟨hfree, hfreeRest⟩, hafter⟩
      rw [addKey_eq_ok_iff.2 ⟨hfree, rfl⟩]
      refine ih.2 ⟨hdistinct, ?_, hafter⟩
      intro key hkey
      rw [lookup_map_append_eq_none, List.mem_singleton]
      refine ⟨?_, hfreeRest key hkey⟩
      rintro rfl
      exact hapart hkey

theorem addScope_default {scope : Mib.Scope σ} (h : scope.routingKeys = []) (routes : Routes)
    (place : Nat) : routes.addScope (scope, place) =
      if routes.default?.isSome then .error .duplicateDefaultScope
      else .ok { routes with default? := some place } := by
  have hdefault : scope.isDefault = true := by rw [Mib.Scope.isDefault, h]; rfl
  rw [addScope, if_pos hdefault]

theorem addScope_listed {scope : Mib.Scope σ} (h : scope.routingKeys ≠ []) (routes : Routes)
    (place : Nat) : routes.addScope (scope, place) =
      scope.routingKeys.foldlM (addKey place) routes := by
  have hdefault : ¬scope.isDefault = true := by
    rw [Mib.Scope.isDefault, List.isEmpty_iff]
    exact h
  rw [addScope, if_neg hdefault]

/-- Scopes are added if there is one default scope at most, those before included, and if no key
    is listed twice: by induction on the scopes. -/
theorem exists_foldlM_addScope_iff {scopes : List (Mib.Scope σ)} :
    ∀ {place : Nat} {routes : Routes},
      (∃ after, (scopes.zipIdx place).foldlM addScope routes = .ok after) ↔
        routes.default?.isSome.toNat + (scopes.map (·.routingKeys)).count [] ≤ 1 ∧
          (scopes.map (·.routingKeys)).flatten.Nodup ∧
          ∀ key ∈ (scopes.map (·.routingKeys)).flatten, routes.table.lookup key = none := by
  induction scopes with
  | nil =>
    intro place routes
    exact ⟨fun _ => ⟨Bool.toNat_le _, .nil, List.forall_mem_nil _⟩, fun _ => ⟨routes, rfl⟩⟩
  | cons first rest ih =>
    intro place routes
    rw [List.zipIdx_cons, List.foldlM_cons, List.map_cons, List.flatten_cons]
    by_cases hkeys : first.routingKeys = []
    · rw [addScope_default hkeys, hkeys, List.count_cons_self, List.nil_append]
      cases hclaimed : routes.default?.isSome with
      | true =>
        constructor
        · rintro ⟨after, h⟩
          contradiction
        · rintro ⟨hcount, _⟩
          simp only [Bool.toNat_true] at hcount
          omega
      | false =>
        have hnext := @ih (place + 1) { routes with default? := some place }
        rw [Option.isSome_some, Bool.toNat_true] at hnext
        rw [Bool.toNat_false, Nat.zero_add, Nat.add_comm (List.count _ _), ← hnext]
        rfl
    · have hcount : List.count [] (first.routingKeys :: rest.map (·.routingKeys)) =
          List.count [] (rest.map (·.routingKeys)) := List.count_cons_of_ne hkeys
      rw [addScope_listed hkeys, hcount, List.nodup_append']
      constructor
      · rintro ⟨after, h⟩
        rcases Except.bind_eq_ok h with ⟨middle, hfirst, hrest⟩
        obtain ⟨hdistinct, hfree, rfl⟩ := foldlM_addKey_iff.1 hfirst
        obtain ⟨hcount, hdistinctRest, hfreeRest⟩ := ih.1 ⟨after, hrest⟩
        simp only [lookup_map_append_eq_none, List.mem_reverse] at hfreeRest
        refine ⟨hcount, ⟨hdistinct, hdistinctRest, ?_⟩, ?_⟩
        · intro key hmem hother
          exact (hfreeRest key hother).1 hmem
        · intro key hkey
          rcases List.mem_append.1 hkey with hmem | hother
          · exact hfree key hmem
          · exact (hfreeRest key hother).2
      · rintro ⟨hcount, ⟨hdistinct, hdistinctRest, hapart⟩, hfree⟩
        have hfirst := (@foldlM_addKey_iff first.routingKeys place routes _).2 ⟨hdistinct,
          fun key hkey => hfree key (List.mem_append_left _ hkey), rfl⟩
        rw [hfirst]
        refine ih.2 ⟨hcount, hdistinctRest, ?_⟩
        intro key hother
        rw [lookup_map_append_eq_none, List.mem_reverse]
        exact ⟨fun hmem => hapart hmem hother, hfree key (List.mem_append_right _ hother)⟩

theorem exists_ofScopes_iff (scopes : List (Mib.Scope σ)) :
    (∃ routes, ofScopes scopes = .ok routes) ↔
      (scopes.map (·.routingKeys)).count [] ≤ 1 ∧ (scopes.map (·.routingKeys)).flatten.Nodup := by
  rw [ofScopes, exists_foldlM_addScope_iff]
  simp

/-- Routes say of scopes where each key is listed, and where the scope without keys is. -/
structure Describes (routes : Routes) (scopes : List (Mib.Scope σ)) : Prop where
  listed : ∀ key place, routes.table.lookup key = some place ↔
    ∃ scope, scopes[place]? = some scope ∧ key ∈ scope.routingKeys
  default : ∀ place, routes.default? = some place ↔
    ∃ scope, scopes[place]? = some scope ∧ scope.routingKeys = []

/-- What holds of the scope in a place, if there is one more scope. -/
theorem exists_getElem?_concat_iff {scopes : List (Mib.Scope σ)} {scope : Mib.Scope σ}
    {p : Mib.Scope σ → Prop} {place : Nat} :
    (∃ found, (scopes ++ [scope])[place]? = some found ∧ p found) ↔
      (∃ found, scopes[place]? = some found ∧ p found) ∨ place = scopes.length ∧ p scope := by
  rcases Nat.lt_trichotomy place scopes.length with hlt | hsame | hgt
  · rw [List.getElem?_append_left hlt, or_iff_left fun h => by omega]
  · simp [hsame]
  · have hnone : scopes[place]? = none := List.getElem?_eq_none (Nat.le_of_lt hgt)
    have hbehind : (scopes ++ [scope])[place]? = none := by
      apply List.getElem?_eq_none
      rw [List.length_append, List.length_singleton]
      exact hgt
    rw [hnone, hbehind]
    simp [Nat.ne_of_gt hgt]

/-- Adding a scope that stands behind the others, one way for each kind of scope. -/
theorem Describes.addScope {scopes : List (Mib.Scope σ)} {scope : Mib.Scope σ}
    (h : routes.Describes scopes)
    (hadded : routes.addScope (scope, scopes.length) = .ok after) :
    after.Describes (scopes ++ [scope]) := by
  by_cases hkeys : scope.routingKeys = []
  · rw [addScope_default hkeys] at hadded
    split at hadded
    · contradiction
    rename_i hnone
    cases hadded
    constructor
    · intro key place
      rw [exists_getElem?_concat_iff, hkeys, h.listed]
      simp
    · intro place
      have hfree := Option.not_isSome_iff_eq_none.1 hnone
      have hbefore := h.default place
      rw [hfree] at hbefore
      rw [exists_getElem?_concat_iff, ← hbefore]
      simp [hkeys, eq_comm]
  · rw [addScope_listed hkeys] at hadded
    obtain ⟨_, hfree, rfl⟩ := foldlM_addKey_iff.1 hadded
    constructor
    · intro key place
      rw [exists_getElem?_concat_iff, ← h.listed, lookup_map_append]
      simp only [List.mem_reverse]
      by_cases hkey : key ∈ scope.routingKeys
      · rw [if_pos hkey, hfree key hkey]
        simp [hkey, eq_comm]
      · rw [if_neg hkey]
        simp [hkey]
    · intro place
      rw [exists_getElem?_concat_iff, ← h.default]
      simp [hkeys]

theorem Describes.foldlM_addScope {rest : List (Mib.Scope σ)} :
    ∀ {scopes : List (Mib.Scope σ)} {routes : Routes}, routes.Describes scopes →
      (rest.zipIdx scopes.length).foldlM Routes.addScope routes = .ok after →
      after.Describes (scopes ++ rest) := by
  induction rest with
  | nil =>
    intro scopes routes h hfold
    cases hfold
    rwa [List.append_nil]
  | cons scope rest ih =>
    intro scopes routes h hfold
    rw [List.zipIdx_cons, List.foldlM_cons] at hfold
    rcases Except.bind_eq_ok hfold with ⟨middle, hadded, hrest⟩
    have hnext := h.addScope hadded
    rw [List.append_cons]
    apply ih hnext
    rw [List.length_append, List.length_singleton]
    exact hrest

theorem describes_of_ofScopes {scopes : List (Mib.Scope σ)} (h : ofScopes scopes = .ok routes) :
    routes.Describes scopes := by
  have hnone : Describes {} ([] : List (Mib.Scope σ)) := by
    constructor <;> simp
  exact hnone.foldlM_addScope h

end Routes

namespace Agent

variable {σ : Type} {suite : Suite}

/-! ### Configurations -/

namespace Config

/-- The routing keys of each scope, in the order of the scopes. -/
def keys (config : Config σ) : List (List Octets) := config.scopes.map (·.routingKeys)

/-- What makes a configuration consistent. -/
structure Consistent (config : Config σ) : Prop where
  nonempty : config.scopes ≠ []
  /-- If keys are ignored, there is nothing to choose from. -/
  single : config.ignoresKeys = true → config.scopes.length = 1
  scopes : ∀ scope ∈ config.scopes, scope.Consistent
  /-- At most one scope has no routing keys. -/
  oneDefault : config.keys.count [] ≤ 1
  /-- No routing key occurs twice, be it in two scopes or in one. -/
  distinctKeys : config.keys.flatten.Nodup
  users : ∀ user ∈ config.users, user.Consistent
  distinctUsers : (config.users.map (·.name)).Nodup

/-- The scopes that are built list the keys that the configuration gives them. -/
theorem map_routingKeys {described : List (Mib.ScopeConfig σ)} {scopes : List (Mib.Scope σ)}
    (h : List.Forall₂ (fun config scope => config.build = .ok scope) described scopes) :
    scopes.map (·.routingKeys) = described.map (·.routingKeys) := by
  induction h with
  | nil => rfl
  | cons hbuild _ ih =>
    rw [List.map_cons, List.map_cons, Mib.ScopeConfig.routingKeys_of_build hbuild, ih]

/-- The checks, whatever their order, let a configuration pass if and only if it is
    consistent. -/
theorem exists_prepare_iff (config : Config σ) (suite : Suite) (host : Host σ) :
    (∃ agent, config.prepare suite host = .ok agent) ↔ config.Consistent := by
  constructor
  · rintro ⟨agent, h⟩
    simp only [prepare] at h
    split at h
    · contradiction
    rename_i hnonempty
    split at h
    · contradiction
    rename_i hsingle
    rcases Except.bind_eq_ok h with ⟨scopes, hscopes, h⟩
    rcases Except.bind_eq_ok h with ⟨routes, hroutes, h⟩
    rcases Except.bind_eq_ok h with ⟨users, husers, _⟩
    have hbuilds := Except.exists_mapM_iff.1 ⟨scopes, hscopes⟩
    obtain ⟨hdefault, hkeys⟩ :=
      (Routes.exists_ofScopes_iff scopes).1 ⟨routes, Except.eq_ok_of_mapError hroutes⟩
    rw [map_routingKeys (Except.mapM_eq_ok_iff.1 hscopes)] at hdefault hkeys
    obtain ⟨husers, hnames, _⟩ := exists_prepareUsers_iff.1 ⟨users, Except.eq_ok_of_mapError husers⟩
    refine ⟨fun hempty => hnonempty (List.isEmpty_iff.2 hempty), ?_, ?_, hdefault, hkeys, husers,
      hnames⟩
    · intro hignores
      by_contra hcount
      exact hsingle ⟨hignores, hcount⟩
    · intro scope hscope
      exact scope.exists_build_iff.1 (hbuilds scope hscope)
  · intro h
    obtain ⟨scopes, hscopes⟩ := Except.exists_mapM_iff.2 fun scope hscope =>
      (Mib.ScopeConfig.exists_build_iff scope).2 (h.scopes scope hscope)
    have hkeys := map_routingKeys (Except.mapM_eq_ok_iff.1 hscopes)
    obtain ⟨routes, hroutes⟩ : ∃ routes, Routes.ofScopes scopes = .ok routes := by
      rw [Routes.exists_ofScopes_iff, hkeys]
      exact ⟨h.oneDefault, h.distinctKeys⟩
    obtain ⟨users, husers⟩ : ∃ users, prepareUsers suite [] config.users = .ok users :=
      exists_prepareUsers_iff.2 ⟨h.users, h.distinctUsers, fun _ _ => List.not_mem_nil⟩
    have hnonempty : ¬config.scopes.isEmpty = true := by
      rw [List.isEmpty_iff]
      exact h.nonempty
    have hsingle : ¬(config.ignoresKeys = true ∧ config.scopes.length ≠ 1) := by
      rintro ⟨hignores, hcount⟩
      exact hcount (h.single hignores)
    simp only [prepare, if_neg hnonempty, if_neg hsingle, hscopes, hroutes, husers, bind,
      Except.bind, Except.mapError]
    exact ⟨_, rfl⟩

/-! ### Routing -/

/-- The place of the scope that a routing key leads to. -/
inductive Leads (config : Config σ) (key : Octets) : (place : Nat) → Prop
  /-- If keys are ignored, the only scope. -/
  | only : config.ignoresKeys = true → Leads config key 0
  /-- The scope that lists the key. -/
  | listed {place : Nat} {keys : List Octets} : config.ignoresKeys = false →
      config.keys[place]? = some keys → key ∈ keys → Leads config key place
  /-- The default scope, if no scope lists the key. -/
  | default {place : Nat} : config.ignoresKeys = false → key ∉ config.keys.flatten →
      config.keys[place]? = some [] → Leads config key place

end Config

section Routing

variable {config : Config σ} {agent : Agent σ}
  (hkeys : agent.scopes.map (·.routingKeys) = config.keys)
  (hignores : agent.ignoresKeys = config.ignoresKeys)

include hkeys

theorem getElem?_keys_iff {place : Nat} {keys : List Octets} :
    config.keys[place]? = some keys ↔
      ∃ scope, agent.scopes[place]? = some scope ∧ scope.routingKeys = keys := by
  rw [← hkeys, List.getElem?_map, Option.map_eq_some_iff]

theorem mem_flatten_keys_iff {key : Octets} :
    key ∈ config.keys.flatten ↔
      ∃ (place : Nat) (scope : Mib.Scope σ),
        agent.scopes[place]? = some scope ∧ key ∈ scope.routingKeys := by
  rw [← hkeys, List.mem_flatten]
  constructor
  · rintro ⟨keys, hmem, hkey⟩
    obtain ⟨scope, hscope, rfl⟩ := List.mem_map.1 hmem
    obtain ⟨place, hplace⟩ := List.mem_iff_getElem?.1 hscope
    exact ⟨place, scope, hplace, hkey⟩
  · rintro ⟨place, scope, hplace, hkey⟩
    exact ⟨_, List.mem_map_of_mem (List.mem_of_getElem? hplace), hkey⟩

/-- There is a scope wherever a key leads. -/
theorem exists_scope_of_leads (hnonempty : agent.scopes ≠ []) {key : Octets} {place : Nat}
    (h : config.Leads key place) : ∃ scope, agent.scopes[place]? = some scope := by
  cases h with
  | only _ =>
    obtain ⟨first, rest, hscopes⟩ := List.exists_cons_of_ne_nil hnonempty
    exact ⟨first, by rw [hscopes]; rfl⟩
  | listed _ hplace _ =>
    obtain ⟨scope, hscope, -⟩ := (getElem?_keys_iff hkeys).1 hplace
    exact ⟨scope, hscope⟩
  | default _ _ hplace =>
    obtain ⟨scope, hscope, -⟩ := (getElem?_keys_iff hkeys).1 hplace
    exact ⟨scope, hscope⟩

include hignores

/-- What an agent finds in its table is where the configuration leads. -/
theorem place?_eq_some_iff (hroutes : agent.routes.Describes agent.scopes) (key : Octets)
    (place : Nat) : agent.place? key = some place ↔ config.Leads key place := by
  rw [place?, hignores]
  constructor
  · intro h
    cases hset : config.ignoresKeys with
    | true =>
      rw [hset, if_pos rfl] at h
      cases h
      exact .only hset
    | false =>
      rw [hset, if_neg Bool.false_ne_true] at h
      rcases Option.or_eq_some_iff.1 h with hlisted | ⟨hnone, hdefault⟩
      · obtain ⟨scope, hscope, hkey⟩ := (hroutes.listed key place).1 hlisted
        exact .listed hset ((getElem?_keys_iff hkeys).2 ⟨scope, hscope, rfl⟩) hkey
      · refine .default hset ?_ ((getElem?_keys_iff hkeys).2 ((hroutes.default place).1 hdefault))
        rw [mem_flatten_keys_iff hkeys]
        rintro ⟨other, hother⟩
        rw [(hroutes.listed key other).2 hother] at hnone
        contradiction
  · intro h
    cases h with
    | only hset => rw [if_pos hset]
    | @listed _ keys hset hplace hkey =>
      obtain ⟨scope, hscope, rfl⟩ := (getElem?_keys_iff hkeys).1 hplace
      have hlookup := (hroutes.listed key place).2 ⟨scope, hscope, hkey⟩
      rw [hset, if_neg Bool.false_ne_true, hlookup, Option.some_or]
    | default hset hunlisted hplace =>
      have hlookup : agent.routes.table.lookup key = none := by
        apply Option.eq_none_iff_forall_ne_some.2
        intro other hother
        exact hunlisted ((mem_flatten_keys_iff hkeys).2
          ⟨other, (hroutes.listed key other).1 hother⟩)
      have hdefault := (hroutes.default place).2 ((getElem?_keys_iff hkeys).1 hplace)
      rw [hset, if_neg Bool.false_ne_true, hlookup, Option.none_or, hdefault]

end Routing

/-- **A configuration becomes an agent exactly if it is consistent, and the agent sends each
    request to the scope of the place where its routing key leads.**  The agent has one scope for
    each that is described, in the same order; there is no agent instance for a key exactly if it
    leads nowhere. -/
theorem prepare_iff_consistent (config : Config σ) (suite : Suite) (host : Host σ) :
    ((∃ agent, config.prepare suite host = .ok agent) ↔ config.Consistent) ∧
    ∀ agent, config.prepare suite host = .ok agent →
      List.Forall₂ (fun described scope => described.build = .ok scope) config.scopes
        agent.scopes ∧
      ∀ message : Message,
        (∀ place other, config.Leads message.routingKey place →
          config.Leads message.routingKey other → place = other) ∧
        (∀ scope, agent.route message.routingKey = .ok scope ↔
          ∃ place, config.Leads message.routingKey place ∧ agent.scopes[place]? = some scope) ∧
        (agent.route message.routingKey =
            .error (.noAgentInstance (Text.Utf8.decodeLossy message.routingKey)) ↔
          ∀ place, ¬config.Leads message.routingKey place) := by
  refine ⟨config.exists_prepare_iff suite host, ?_⟩
  intro agent hprepare
  have hconsistent := (config.exists_prepare_iff suite host).1 ⟨agent, hprepare⟩
  obtain ⟨scopes, routes, users, hscopes, hroutes, _, hagent⟩ := Config.prepare_eq_ok hprepare
  have hbuilt : List.Forall₂ (fun described scope => described.build = .ok scope) config.scopes
      agent.scopes := by
    rw [hagent]
    exact Except.mapM_eq_ok_iff.1 hscopes
  have hkeys : agent.scopes.map (·.routingKeys) = config.keys := Config.map_routingKeys hbuilt
  have hignores : agent.ignoresKeys = config.ignoresKeys := by rw [hagent]
  have hdescribes : agent.routes.Describes agent.scopes := by
    rw [hagent]
    exact Routes.describes_of_ofScopes hroutes
  have hnonempty : agent.scopes ≠ [] := by
    intro hempty
    rw [hempty] at hbuilt
    exact hconsistent.nonempty (List.forall₂_nil_right_iff.1 hbuilt)
  refine ⟨hbuilt, ?_⟩
  intro message
  have hplace := place?_eq_some_iff hkeys hignores hdescribes message.routingKey
  have hscope (scope : Mib.Scope σ) : agent.scope? message.routingKey = some scope ↔
      ∃ place, config.Leads message.routingKey place ∧ agent.scopes[place]? = some scope := by
    rw [scope?, Option.bind_eq_some_iff]
    simp only [hplace]
  refine ⟨?_, ?_, ?_⟩
  · intro place other hleads hother
    exact Option.some.inj (((hplace place).2 hleads).symm.trans ((hplace other).2 hother))
  · intro scope
    rw [← hscope, route]
    cases agent.scope? message.routingKey with
    | none =>
      constructor
      · intro hrouted
        contradiction
      · intro hfound
        contradiction
    | some found => rw [Except.ok.injEq, Option.some.injEq]
  · constructor
    · intro hroute place hleads
      obtain ⟨scope, hfound⟩ := exists_scope_of_leads hkeys hnonempty hleads
      rw [route, (hscope scope).2 ⟨place, hleads, hfound⟩] at hroute
      contradiction
    · intro hnowhere
      rw [route]
      split
      · rename_i found hfound
        obtain ⟨place, hleads, _⟩ := (hscope found).1 hfound
        exact absurd hleads (hnowhere place)
      · rfl

/-- A configuration with a scope for the community `public` and a default scope. -/
def splitConfig : Config Unit where
  scopes := [{ routingKeys := [[112, 117, 98, 108, 105, 99]] }, {}]
  engineId := ⟨[128, 0, 0, 0, 1]⟩

def splitAgent : Agent Unit where
  scopes := [{ routingKeys := [[112, 117, 98, 108, 105, 99]], registry := .empty },
    { registry := .empty }]
  routes := { table := [([112, 117, 98, 108, 105, 99], 0)], default? := some 1 }
  engineId := ⟨[128, 0, 0, 0, 1]⟩
  suite := .standard
  host := bareAgent.host

def publicRequest : Message where
  version := .v2c
  community := [112, 117, 98, 108, 105, 99]
  pdu := { type := .getRequest, requestId := 1, bindings := [] }

def strangeRequest : Message := { publicRequest with community := [120] }

/-- The configuration is consistent; its first scope gets what is `public`, and its second the
    rest. -/
theorem prepare_iff_consistent_splitConfig :
    splitConfig.prepare .standard bareAgent.host = .ok splitAgent ∧ splitConfig.Consistent ∧
      (∃ scope, splitAgent.route publicRequest.routingKey = .ok scope ∧
        splitAgent.scopes[0]? = some scope) ∧
      ∃ scope, splitAgent.route strangeRequest.routingKey = .ok scope ∧
        splitAgent.scopes[1]? = some scope := by
  have hprepare : splitConfig.prepare .standard bareAgent.host = .ok splitAgent := by
    with_unfolding_all rfl
  obtain ⟨hconsistent, hroutes⟩ := prepare_iff_consistent splitConfig .standard bareAgent.host
  obtain ⟨_, hroute⟩ := hroutes splitAgent hprepare
  have hpublic : splitConfig.Leads publicRequest.routingKey 0 :=
    .listed rfl rfl List.mem_cons_self
  have hstrange : splitConfig.Leads strangeRequest.routingKey 1 := .default rfl (by decide) rfl
  refine ⟨hprepare, hconsistent.1 ⟨splitAgent, hprepare⟩, ⟨_, ?_, rfl⟩, ⟨_, ?_, rfl⟩⟩
  · exact ((hroute publicRequest).2.1 _).2 ⟨0, hpublic, rfl⟩
  · exact ((hroute strangeRequest).2.1 _).2 ⟨1, hstrange, rfl⟩

end Agent

end Snmp
