import Mathlib.Data.Finset.Lattice.Basic
import Mathlib.Data.Finset.Union
import DeltaLLM.CallableTargets
import DeltaLLM.RuntimeScopes

/-! # The targets a caller is granted

The snapshot of bindings, access-group bindings and scope policies, and the allowlist that a request
is checked against: what the organization is granted, narrowed by the scopes below it that restrict.
-/
namespace CallableTargetGrants

open JsonValues PythonText CallableTargets RuntimeScopes

structure CallableTargetBinding where
  callableKey : String
  scope : Scope
  enabled : Bool
  metadata : Option JsonObject

structure AccessGroupBinding where
  groupKey : String
  scope : Scope
  enabled : Bool
  metadata : Option JsonObject

structure ScopePolicy where
  scope : Scope
  mode : String

/-- What the tables and the runtime hold; a scope has one policy, and targets and access groups have
a name. -/
structure Governance where
  bindings : List CallableTargetBinding
  groupBindings : List AccessGroupBinding
  policies : List ScopePolicy
  onePolicy : (policies.map (·.scope)).Nodup
  catalog : Catalog
  named : catalog.Named

structure Snapshot where
  enabledByScope : Scope → Finset String
  bindingCountsByScope : Scope → ℕ
  scopeModesByScope : Scope → Option String
  enabledGroupsByScope : Scope → Finset String
  groupBindingCountsByScope : Scope → ℕ

def Snapshot.empty : Snapshot := ⟨fun _ => ∅, fun _ => 0, fun _ => none, fun _ => ∅, fun _ => 0⟩

def Snapshot.addBinding (snapshot : Snapshot) (binding : CallableTargetBinding) : Snapshot :=
  { snapshot with
    bindingCountsByScope := Function.update snapshot.bindingCountsByScope binding.scope
      (snapshot.bindingCountsByScope binding.scope + 1)
    enabledByScope :=
      if binding.enabled then
        Function.update snapshot.enabledByScope binding.scope
          (insert binding.callableKey (snapshot.enabledByScope binding.scope))
      else snapshot.enabledByScope }

def Snapshot.addGroupBinding (snapshot : Snapshot) (binding : AccessGroupBinding) : Snapshot :=
  { snapshot with
    groupBindingCountsByScope := Function.update snapshot.groupBindingCountsByScope binding.scope
      (snapshot.groupBindingCountsByScope binding.scope + 1)
    enabledGroupsByScope :=
      if binding.enabled then
        Function.update snapshot.enabledGroupsByScope binding.scope
          (insert binding.groupKey (snapshot.enabledGroupsByScope binding.scope))
      else snapshot.enabledGroupsByScope }

def Snapshot.addPolicy (snapshot : Snapshot) (policy : ScopePolicy) : Snapshot :=
  { snapshot with
    scopeModesByScope :=
      Function.update snapshot.scopeModesByScope policy.scope (some policy.mode) }

/-- `reload`: the tables page by page, then the targets of the enabled access groups. -/
def reload (g : Governance) : Snapshot :=
  let bound := g.bindings.foldl Snapshot.addBinding .empty
  let grouped := g.groupBindings.foldl Snapshot.addGroupBinding bound
  let governed := g.policies.foldl Snapshot.addPolicy grouped
  { governed with
    enabledByScope := fun scope =>
      governed.enabledByScope scope ∪
        (governed.enabledGroupsByScope scope).biUnion (callableKeysByAccessGroup g.catalog) }

/-- `_has_scope_access_configuration`. -/
def Snapshot.hasScopeAccessConfiguration (snapshot : Snapshot) (scope : Scope) : Bool :=
  0 < snapshot.bindingCountsByScope scope + snapshot.groupBindingCountsByScope scope

/-- `_get_scope_mode`. -/
def Snapshot.getScopeMode (snapshot : Snapshot) (scopeType : ScopeType) (scopeId : String) :
    Option String :=
  if strip scopeId = "" then none else snapshot.scopeModesByScope (scopeType, strip scopeId)

/-- `_should_restrict_user_scope`. -/
def Snapshot.shouldRestrictUserScope (snapshot : Snapshot) (userScope : Scope) : Bool :=
  match snapshot.scopeModesByScope userScope with
  | some mode => mode = "restrict"
  | none => snapshot.hasScopeAccessConfiguration userScope

/-- `_resolve_base_allowlist`. -/
def resolveBaseAllowlist (context : RuntimeScopeContext) (snapshot : Snapshot) :
    Option (Finset String) :=
  match context.organizationId with
  | some organizationId =>
      if snapshot.hasScopeAccessConfiguration (.organization, organizationId) then
        some (snapshot.enabledByScope (.organization, organizationId))
      else some ∅
  | none =>
      match (context.scopeChain.filter snapshot.hasScopeAccessConfiguration).map
        snapshot.enabledByScope with
      | [] => none
      | first :: others => some (others.foldl (· ∩ ·) first)

/-- What a scope of the caller leaves of the targets. -/
def narrow (scopeId : Option String) (restricts : String → Bool) (granted : String → Finset String)
    (effective : Finset String) : Finset String :=
  match scopeId with
  | some id => if restricts id then effective ∩ granted id else effective
  | none => effective

/-- `resolve_policy_allowlist`; `none` is no restriction. -/
def resolvePolicyAllowlist (context : RuntimeScopeContext) (snapshot : Snapshot) :
    Option (Finset String) :=
  if context.isMasterKey then none
  else
    match resolveBaseAllowlist context snapshot with
    | none => some ∅
    | some effective =>
        let granted (scopeType : ScopeType) (id : String) := snapshot.enabledByScope (scopeType, id)
        let effective := narrow context.teamId
          (fun id => snapshot.getScopeMode .team id = some "restrict") (granted .team) effective
        let effective := narrow context.apiKeyScopeId
          (fun id => snapshot.getScopeMode .apiKey id = some "restrict") (granted .apiKey) effective
        some (narrow context.userId (fun id => snapshot.shouldRestrictUserScope (.user, id))
          (granted .user) effective)

/-! ## What the snapshot says -/

/-- An enabled binding or access group of the scope grants the target. -/
def Granted (g : Governance) (scope : Scope) (callableKey : String) : Prop :=
  (∃ binding ∈ g.bindings, binding.scope = scope ∧ binding.enabled = true ∧
      binding.callableKey = callableKey) ∨
    ∃ binding ∈ g.groupBindings, binding.scope = scope ∧ binding.enabled = true ∧
      callableKey ∈ callableKeysByAccessGroup g.catalog binding.groupKey

/-- The scope has a binding of either kind, enabled or not. -/
def Configured (g : Governance) (scope : Scope) : Prop :=
  (∃ binding ∈ g.bindings, binding.scope = scope) ∨
    ∃ binding ∈ g.groupBindings, binding.scope = scope

/-- The mode of the scope's policy, if there is one. -/
def modeOf (g : Governance) (scope : Scope) : Option String :=
  (g.policies.find? (·.scope = scope)).map (·.mode)

variable {g : Governance} {snapshot : Snapshot} {scope : Scope} {callableKey : String}

/-- What a fold reaches when every element of the list may reach it. -/
theorem foldl_iff {σ β : Type} {f : σ → β → σ} {P : σ → Prop} {Q : β → Prop}
    (h : ∀ s b, P (f s b) ↔ P s ∨ Q b) (bs : List β) (s : σ) :
    P (bs.foldl f s) ↔ P s ∨ ∃ b ∈ bs, Q b := by
  induction bs generalizing s with
  | nil => simp
  | cons b bs ih => rw [List.foldl_cons, ih, h, List.exists_mem_cons_iff, or_assoc]

theorem addBinding_enabled (bindings : List CallableTargetBinding) :
    callableKey ∈ (bindings.foldl Snapshot.addBinding snapshot).enabledByScope scope ↔
      callableKey ∈ snapshot.enabledByScope scope ∨
        ∃ binding ∈ bindings, binding.scope = scope ∧ binding.enabled = true ∧
          binding.callableKey = callableKey := by
  refine foldl_iff (P := fun s => callableKey ∈ s.enabledByScope scope) ?_ bindings snapshot
  intro snapshot binding
  simp only [Snapshot.addBinding]
  by_cases henabled : binding.enabled = true
  · by_cases hscope : scope = binding.scope
    · subst hscope
      simp [henabled, or_comm, eq_comm]
    · simp [henabled, hscope, Ne.symm hscope]
  · simp [henabled]

theorem addBinding_counts (bindings : List CallableTargetBinding) :
    0 < (bindings.foldl Snapshot.addBinding snapshot).bindingCountsByScope scope ↔
      0 < snapshot.bindingCountsByScope scope ∨ ∃ binding ∈ bindings, binding.scope = scope := by
  refine foldl_iff (P := fun s => 0 < s.bindingCountsByScope scope) ?_ bindings snapshot
  intro snapshot binding
  simp only [Snapshot.addBinding]
  by_cases hscope : scope = binding.scope
  · subst hscope
    simp
  · simp [hscope, Ne.symm hscope]

theorem addGroupBinding_enabled (bindings : List AccessGroupBinding) {groupKey : String} :
    groupKey ∈ (bindings.foldl Snapshot.addGroupBinding snapshot).enabledGroupsByScope scope ↔
      groupKey ∈ snapshot.enabledGroupsByScope scope ∨
        ∃ binding ∈ bindings, binding.scope = scope ∧ binding.enabled = true ∧
          binding.groupKey = groupKey := by
  refine foldl_iff (P := fun s => groupKey ∈ s.enabledGroupsByScope scope) ?_ bindings snapshot
  intro snapshot binding
  simp only [Snapshot.addGroupBinding]
  by_cases henabled : binding.enabled = true
  · by_cases hscope : scope = binding.scope
    · subst hscope
      simp [henabled, or_comm, eq_comm]
    · simp [henabled, hscope, Ne.symm hscope]
  · simp [henabled]

theorem addGroupBinding_counts (bindings : List AccessGroupBinding) :
    0 < (bindings.foldl Snapshot.addGroupBinding snapshot).groupBindingCountsByScope scope ↔
      0 < snapshot.groupBindingCountsByScope scope ∨
        ∃ binding ∈ bindings, binding.scope = scope := by
  refine foldl_iff (P := fun s => 0 < s.groupBindingCountsByScope scope) ?_ bindings snapshot
  intro snapshot binding
  simp only [Snapshot.addGroupBinding]
  by_cases hscope : scope = binding.scope
  · subst hscope
    simp
  · simp [hscope, Ne.symm hscope]

theorem addGroupBinding_frame (bindings : List AccessGroupBinding) :
    (bindings.foldl Snapshot.addGroupBinding snapshot).enabledByScope = snapshot.enabledByScope ∧
      (bindings.foldl Snapshot.addGroupBinding snapshot).bindingCountsByScope =
        snapshot.bindingCountsByScope ∧
      (bindings.foldl Snapshot.addGroupBinding snapshot).scopeModesByScope =
        snapshot.scopeModesByScope := by
  induction bindings generalizing snapshot with
  | nil => exact ⟨rfl, rfl, rfl⟩
  | cons binding bindings ih => exact ih

theorem addBinding_frame (bindings : List CallableTargetBinding) :
    (bindings.foldl Snapshot.addBinding snapshot).enabledGroupsByScope =
        snapshot.enabledGroupsByScope ∧
      (bindings.foldl Snapshot.addBinding snapshot).groupBindingCountsByScope =
        snapshot.groupBindingCountsByScope ∧
      (bindings.foldl Snapshot.addBinding snapshot).scopeModesByScope =
        snapshot.scopeModesByScope := by
  induction bindings generalizing snapshot with
  | nil => exact ⟨rfl, rfl, rfl⟩
  | cons binding bindings ih => exact ih

theorem addPolicy_frame (policies : List ScopePolicy) :
    (policies.foldl Snapshot.addPolicy snapshot).enabledByScope = snapshot.enabledByScope ∧
      (policies.foldl Snapshot.addPolicy snapshot).enabledGroupsByScope =
        snapshot.enabledGroupsByScope ∧
      (policies.foldl Snapshot.addPolicy snapshot).bindingCountsByScope =
        snapshot.bindingCountsByScope ∧
      (policies.foldl Snapshot.addPolicy snapshot).groupBindingCountsByScope =
        snapshot.groupBindingCountsByScope := by
  induction policies generalizing snapshot with
  | nil => exact ⟨rfl, rfl, rfl, rfl⟩
  | cons policy policies ih => exact ih

/-- The mode of a scope is that of its one policy. -/
theorem addPolicy_mode {policies : List ScopePolicy} (h : (policies.map (·.scope)).Nodup) :
    (policies.foldl Snapshot.addPolicy snapshot).scopeModesByScope scope =
      ((policies.find? (·.scope = scope)).map (·.mode)).or (snapshot.scopeModesByScope scope) := by
  induction policies generalizing snapshot with
  | nil => rfl
  | cons policy policies ih =>
      rw [List.map_cons, List.nodup_cons] at h
      rw [List.foldl_cons, ih h.2, List.find?_cons]
      simp only [Snapshot.addPolicy]
      by_cases hscope : policy.scope = scope
      · subst hscope
        have hnone : policies.find? (·.scope = policy.scope) = none := by
          rw [List.find?_eq_none]
          intro other hother
          simp only [decide_eq_true_eq]
          intro heq
          exact h.1 (heq ▸ List.mem_map_of_mem hother)
        simp [hnone]
      · simp [hscope, Function.update_of_ne (Ne.symm hscope)]

theorem reload_enabled :
    callableKey ∈ (reload g).enabledByScope scope ↔ Granted g scope callableKey := by
  unfold reload Granted
  rw [Finset.mem_union, Finset.mem_biUnion, (addPolicy_frame g.policies).1,
    (addPolicy_frame g.policies).2.1, (addGroupBinding_frame g.groupBindings).1, addBinding_enabled]
  simp only [addGroupBinding_enabled, (addBinding_frame g.bindings).1]
  constructor
  · rintro ((hempty | hbound) | ⟨groupKey, hempty | ⟨binding, hmem, hscope, henabled, rfl⟩, hkey⟩)
    · cases hempty
    · exact .inl hbound
    · cases hempty
    · exact .inr ⟨binding, hmem, hscope, henabled, hkey⟩
  · rintro (hbound | ⟨binding, hmem, hscope, henabled, hkey⟩)
    · exact .inl (.inr hbound)
    · exact .inr ⟨binding.groupKey, .inr ⟨binding, hmem, hscope, henabled, rfl⟩, hkey⟩

theorem reload_configured :
    (reload g).hasScopeAccessConfiguration scope = true ↔ Configured g scope := by
  unfold Snapshot.hasScopeAccessConfiguration reload Configured
  rw [decide_eq_true_eq, Nat.add_pos_iff_pos_or_pos, (addPolicy_frame g.policies).2.2.1,
    (addPolicy_frame g.policies).2.2.2, (addGroupBinding_frame g.groupBindings).2.1,
    addBinding_counts, addGroupBinding_counts, (addBinding_frame g.bindings).2.1]
  simp [Snapshot.empty]

theorem reload_mode : (reload g).scopeModesByScope scope = modeOf g scope := by
  simp only [reload, addPolicy_mode g.onePolicy, (addGroupBinding_frame g.groupBindings).2.2,
    (addBinding_frame g.bindings).2.2, Snapshot.empty, Option.or_none, modeOf]

theorem Granted.configured (h : Granted g scope callableKey) : Configured g scope := by
  rcases h with ⟨binding, hmem, hscope, -, -⟩ | ⟨binding, hmem, hscope, -, -⟩
  · exact .inl ⟨binding, hmem, hscope⟩
  · exact .inr ⟨binding, hmem, hscope⟩

/-! ## What is allowed -/

/-- Whether a scope narrows the targets: by its policy, or for a user without one by having a
binding. -/
def Restricts (g : Governance) : Scope → Prop
  | (.user, userId) =>
      modeOf g (.user, userId) = some "restrict" ∨
        modeOf g (.user, userId) = none ∧ Configured g (.user, userId)
  | scope => modeOf g scope = some "restrict"

theorem mem_narrow {scopeId : Option String} {restricts : String → Bool}
    {granted : String → Finset String} {effective : Finset String} :
    callableKey ∈ narrow scopeId restricts granted effective ↔
      callableKey ∈ effective ∧
        ∀ id, scopeId = some id → restricts id = true → callableKey ∈ granted id := by
  unfold narrow
  cases scopeId with
  | none => simp
  | some id => by_cases hrestricts : restricts id <;> simp [hrestricts]

theorem getScopeMode_restrict {scopeType : ScopeType} {scopeId : String}
    (h : strip scopeId = scopeId ∧ scopeId ≠ "") :
    (reload g).getScopeMode scopeType scopeId = modeOf g (scopeType, scopeId) := by
  unfold Snapshot.getScopeMode
  rw [h.1, if_neg h.2, reload_mode]

theorem shouldRestrictUserScope_iff {userId : String} :
    (reload g).shouldRestrictUserScope (.user, userId) = true ↔ Restricts g (.user, userId) := by
  unfold Snapshot.shouldRestrictUserScope Restricts
  rw [reload_mode]
  cases hmode : modeOf g (.user, userId) with
  | none => simp [hmode, reload_configured]
  | some mode => simp [hmode]

/-- For a caller of an organization the allowlist holds what the organization grants and every
restricting scope of the caller grants too. -/
theorem resolvePolicyAllowlist_iff {context : RuntimeScopeContext} (hnorm : context.Normalized)
    (hkey : context.isMasterKey = false) {organizationId : String}
    (horg : context.organizationId = some organizationId) :
    ∃ allowlist, resolvePolicyAllowlist context (reload g) = some allowlist ∧
      ∀ callableKey, callableKey ∈ allowlist ↔
        Granted g (.organization, organizationId) callableKey ∧
          (∀ id, context.teamId = some id → Restricts g (.team, id) →
            Granted g (.team, id) callableKey) ∧
          (∀ id, context.apiKeyScopeId = some id → Restricts g (.apiKey, id) →
            Granted g (.apiKey, id) callableKey) ∧
          (∀ id, context.userId = some id → Restricts g (.user, id) →
            Granted g (.user, id) callableKey) := by
  have hbase : ∃ base, resolveBaseAllowlist context (reload g) = some base ∧
      ∀ callableKey, callableKey ∈ base ↔
        Granted g (.organization, organizationId) callableKey := by
    unfold resolveBaseAllowlist
    simp only [horg]
    by_cases hconfigured : (reload g).hasScopeAccessConfiguration (.organization, organizationId)
    · rw [if_pos hconfigured]
      exact ⟨_, rfl, fun _ => reload_enabled⟩
    · rw [if_neg hconfigured]
      refine ⟨∅, rfl, fun callableKey => ?_⟩
      simp only [Finset.notMem_empty, false_iff]
      exact fun hgranted => hconfigured (reload_configured.mpr hgranted.configured)
  obtain ⟨base, hbase, hmem⟩ := hbase
  unfold resolvePolicyAllowlist
  simp only [hkey, Bool.false_eq_true, if_false, hbase]
  refine ⟨_, rfl, fun callableKey => ?_⟩
  simp only [mem_narrow, hmem, reload_enabled, shouldRestrictUserScope_iff, decide_eq_true_eq,
    and_assoc]
  refine and_congr_right fun _ => and_congr ?_ (and_congr_left fun _ => ?_)
  · refine forall_congr' fun id => forall_congr' fun hid => ?_
    rw [getScopeMode_restrict (hnorm.teamId id hid)]
    rfl
  · refine forall_congr' fun id => forall_congr' fun hid => ?_
    rw [getScopeMode_restrict (hnorm.apiKeyScopeId id hid)]
    rfl

end CallableTargetGrants
