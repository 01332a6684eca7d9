import DeltaLLM.AssetAccessWrites

/-! # Asset access as it is written and as it is read

What a scope reaches is read from scratch through the chain of the scopes above it. After an
accepted request it is what the request asked for: the parent's targets, and in a scope that
restricts those of them that are selected.
-/
namespace AssetAccessAgreement

open JsonValues PythonText Dictionaries CallableTargets RuntimeScopes CallableTargetGrants
open AssetVisibility SelectedRows CheckedResults ScopedAssetAccess AssetAccessWrites

variable {textOf : JsonValue → String} {t after : AccessTables} {request : AccessRequest}
  {plan : AccessPlan} {scopeType : ScopeType}

/-! ## What a request asks for -/

section Requests

variable (textOf : JsonValue → String) (t : AccessTables) (request : AccessRequest)

def requestedMode : String := lower (trimmed textOf request.mode)

/-- A target is selected by the request's list, or with `select_all_selectable` by being within the
parent's reach. -/
def RequestedKey (scopeType : ScopeType) (callableKey : String) : Prop :=
  if request.selectAllSelectable then
    callableKey ∈ parentEffectiveCallableKeys t request scopeType
  else
    callableKey ≠ "" ∧ ∃ items, request.selectedCallableKeys = .list items ∧
      ∃ item ∈ items, trimmed textOf item = callableKey

def RequestedGroup (groupKey : String) : Prop :=
  ∃ items, request.selectedAccessGroupKeys = some (.list items) ∧
    ∃ item ∈ items, normalizeAccessGroupKey item = some groupKey

/-- The identifiers as the endpoints pass them: none is empty, and the scope's own is the one of its
type. -/
structure Addressed (scopeType : ScopeType) : Prop where
  scopeId : request.scopeId ≠ ""
  organizationId : request.organizationId ≠ ""
  teamId : request.teamId ≠ some ""
  apiKeyId : request.apiKeyId ≠ some ""
  own : match scopeType with
    | .organization => request.organizationId = request.scopeId
    | .team => request.teamId = some request.scopeId
    | .apiKey => request.apiKeyId = some request.scopeId
    | .user => request.userId = some request.scopeId

end Requests

theorem mem_normalizeSelectedCallableKeys {value : JsonValue} {keys : List String}
    (h : normalizeSelectedCallableKeys textOf value = .ok keys) (callableKey : String) :
    callableKey ∈ keys ↔ callableKey ≠ "" ∧ ∃ items, value = .list items ∧
      ∃ item ∈ items, trimmed textOf item = callableKey := by
  cases value with
  | null =>
      cases h
      simp
  | list items =>
      cases h
      simp [List.mem_eraseDups, and_comm]
  | _ => cases h

theorem strictAccessGroupKey_ok {value : JsonValue} {groupKey : String} :
    strictAccessGroupKey value = .ok groupKey ↔ normalizeAccessGroupKey value = some groupKey := by
  cases value with
  | str text =>
      simp only [strictAccessGroupKey, normalizeAccessGroupKey]
      by_cases hempty : lower (strip text) = ""
      · have hpattern : accessGroupPattern "" = false := by decide
        simp [hempty, hpattern]
      · by_cases hpattern : accessGroupPattern (lower (strip text)) = true
        · simp [hempty, hpattern]
        · simp [hempty, hpattern]
  | _ => simp [strictAccessGroupKey, normalizeAccessGroupKey]

theorem mem_normalizeSelectedAccessGroupKeys {value : JsonValue} {keys : List String}
    (h : normalizeSelectedAccessGroupKeys value = .ok keys) (groupKey : String) :
    groupKey ∈ keys ↔ ∃ items, value = .list items ∧
      ∃ item ∈ items, normalizeAccessGroupKey item = some groupKey := by
  cases value with
  | list items =>
      simp only [normalizeSelectedAccessGroupKeys] at h
      obtain ⟨normalized, hkeys, rfl⟩ := map_ok_iff.mp h
      rw [List.mem_eraseDups, mem_mapM_ok hkeys]
      simp only [strictAccessGroupKey_ok, JsonValue.list.injEq, exists_eq_left']
  | _ => cases h

theorem reject_ok {condition : Prop} [Decidable condition] {detail : String}
    (h : reject condition detail = .ok ()) : ¬condition := by
  unfold reject at h
  split at h
  · cases h
  · assumption

theorem mem_selectedKeys {mode : AccessMode} {requested keys : List String}
    (h : selectedKeys t request scopeType mode requested = .ok keys) (callableKey : String) :
    callableKey ∈ keys ↔
      if request.selectAllSelectable then callableKey ∈ selectableCallableKeys t request scopeType
      else callableKey ∈ requested := by
  unfold selectedKeys at h
  split at h
  next hall =>
    obtain ⟨-, -, hkeys⟩ := bind_ok_iff.mp h
    cases hkeys
    simp [hall, mem_sorted]
  next hall =>
    cases h
    simp [hall]

/-- What the checks of an accepted request leave to be written. -/
structure Accepts (textOf : JsonValue → String) (t : AccessTables) (request : AccessRequest)
    (plan : AccessPlan) : Prop where
  scopeType : normalizeScopeType request.scopeType = .ok plan.scopeType
  scopeId : plan.scopeId = request.scopeId
  mode : normalizeMode textOf plan.scopeType request.mode = .ok plan.mode
  callableKeys : plan.scopeType ≠ .organization →
    ∀ key, key ∈ plan.callableKeys ↔ RequestedKey textOf t request plan.scopeType key
  groupKeys : ∀ groupKey, groupKey ∈ plan.groupKeys ↔ RequestedGroup request groupKey
  inherit : plan.mode = .inherit → plan.callableKeys = [] ∧ plan.groupKeys = []
  syncAccessGroups : request.selectedAccessGroupKeys.isSome = true → plan.syncAccessGroups = true

theorem mem_groupKeys {keys : List String}
    (h : request.selectedAccessGroupKeys.elim (.ok []) normalizeSelectedAccessGroupKeys = .ok keys)
    (groupKey : String) : groupKey ∈ keys ↔ RequestedGroup request groupKey := by
  unfold RequestedGroup
  cases hgroups : request.selectedAccessGroupKeys with
  | none =>
      rw [hgroups] at h
      cases h
      simp
  | some value =>
      rw [hgroups] at h
      rw [mem_normalizeSelectedAccessGroupKeys h]
      simp

theorem checkScopeAssetAccess_ok (h : checkScopeAssetAccess textOf t request = .ok plan) :
    Accepts textOf t request plan := by
  unfold checkScopeAssetAccess at h
  obtain ⟨scopeType, htype, h⟩ := bind_ok_iff.mp h
  obtain ⟨mode, hmode, h⟩ := bind_ok_iff.mp h
  obtain ⟨requested, hrequested, h⟩ := bind_ok_iff.mp h
  obtain ⟨groupKeys, hgroups, h⟩ := bind_ok_iff.mp h
  obtain ⟨callableKeys, hkeys, h⟩ := bind_ok_iff.mp h
  obtain ⟨⟨⟩, -, h⟩ := bind_ok_iff.mp h
  obtain ⟨⟨⟩, -, h⟩ := bind_ok_iff.mp h
  obtain ⟨⟨⟩, -, h⟩ := bind_ok_iff.mp h
  obtain ⟨⟨⟩, hempty, h⟩ := bind_ok_iff.mp h
  cases h
  refine ⟨htype, rfl, hmode, ?_, mem_groupKeys hgroups, ?_, ?_⟩
  · intro hbelow key
    have hselectable : selectableCallableKeys t request scopeType =
        parentEffectiveCallableKeys t request scopeType := if_neg hbelow
    rw [mem_selectedKeys hkeys, RequestedKey, hselectable,
      mem_normalizeSelectedCallableKeys hrequested]
  · intro hinherit
    by_contra hnot
    refine reject_ok hempty ⟨hinherit, ?_⟩
    by_contra hnone
    rw [not_or, not_not, not_not] at hnone
    exact hnot hnone
  · intro hsome
    simp [hsome]

theorem normalizeMode_ok {mode : AccessMode} (hbelow : scopeType ≠ .organization)
    (h : normalizeMode textOf scopeType request.mode = .ok mode) :
    requestedMode textOf request = "inherit" ∧ mode = .inherit ∨
      requestedMode textOf request = "restrict" ∧ mode = .restrict := by
  unfold normalizeMode at h
  rw [if_neg hbelow] at h
  change (if requestedMode textOf request = "inherit" then _ else _) = _ at h
  split at h
  next hinherit =>
    cases h
    exact .inl ⟨hinherit, rfl⟩
  next =>
    split at h
    next hrestrict =>
      cases h
      exact .inr ⟨hrestrict, rfl⟩
    next => cases h

/-! ## What is read -/

/-- The scopes above a scope. -/
def parentScopes (request : AccessRequest) : ScopeType → List Scope
  | .organization => []
  | .team => previewScopes request.organizationId none none none
  | .apiKey => previewScopes request.organizationId request.teamId none none
  | .user => previewScopes request.organizationId request.teamId request.apiKeyId none

theorem parentScopes_type (request : AccessRequest) (scopeType : ScopeType) :
    ∀ scope ∈ parentScopes request scopeType, scope.1 ≠ scopeType := by
  rintro ⟨type, id⟩ hscope rfl
  cases type with
  | organization => cases hscope
  | team => cases mem_previewScopes.mp hscope
  | apiKey => cases mem_previewScopes.mp hscope
  | user => cases mem_previewScopes.mp hscope

theorem mem_previewEffectiveCallableKeys {organizationId : String}
    {teamId apiKeyId userId : Option String}
    (hids : ∀ scope ∈ previewScopes organizationId teamId apiKeyId userId, scope.2 ≠ "")
    {callableKey : String} :
    callableKey ∈ previewEffectiveCallableKeys t organizationId teamId apiKeyId userId ↔
      callableKey ≠ "" ∧ ∃ key, strip key = callableKey ∧
        Reaches t.toGovernance (previewScopes organizationId teamId apiKeyId userId) key := by
  have hvisible := callableTarget_visible_iff (g := t.toGovernance) t.routeGroups hids
  simp only [previewEffectiveCallableKeys, List.mem_toFinset, List.mem_map, List.mem_filter,
    decide_eq_true_eq]
  constructor
  · rintro ⟨item, ⟨hitem, hkey, hshown⟩, rfl⟩
    exact ⟨hkey, item.key, rfl, ((hvisible item.key).mp ⟨item, hitem, rfl, hshown⟩).2⟩
  · rintro ⟨hkey, key, rfl, hreaches⟩
    have hne : key ≠ "" := by
      rintro rfl
      exact hkey rfl
    obtain ⟨item, hitem, rfl, hshown⟩ := (hvisible key).mpr ⟨hne, hreaches⟩
    exact ⟨item, ⟨hitem, hkey, hshown⟩, rfl⟩

theorem Addressed.parentScopes_ne (h : Addressed request scopeType) :
    ∀ scope ∈ parentScopes request scopeType, scope.2 ≠ "" := by
  have hteam : ∀ id, request.teamId = some id → id ≠ "" := by
    rintro id hid rfl
    exact h.teamId hid
  have hapiKey : ∀ id, request.apiKeyId = some id → id ≠ "" := by
    rintro id hid rfl
    exact h.apiKeyId hid
  rintro ⟨type, id⟩ hscope
  cases scopeType with
  | organization => cases hscope
  | team =>
      cases type with
      | organization => exact mem_previewScopes.mp hscope ▸ h.organizationId
      | _ => cases mem_previewScopes.mp hscope
  | apiKey =>
      cases type with
      | organization => exact mem_previewScopes.mp hscope ▸ h.organizationId
      | team => exact hteam id (mem_previewScopes.mp hscope)
      | _ => cases mem_previewScopes.mp hscope
  | user =>
      cases type with
      | organization => exact mem_previewScopes.mp hscope ▸ h.organizationId
      | team => exact hteam id (mem_previewScopes.mp hscope)
      | apiKey => exact hapiKey id (mem_previewScopes.mp hscope)
      | user => cases mem_previewScopes.mp hscope

theorem mem_parentEffectiveCallableKeys (h : Addressed request scopeType)
    (hbelow : scopeType ≠ .organization) {callableKey : String} :
    callableKey ∈ parentEffectiveCallableKeys t request scopeType ↔
      callableKey ≠ "" ∧ ∃ key, strip key = callableKey ∧
        Reaches t.toGovernance (parentScopes request scopeType) key := by
  have hids := h.parentScopes_ne
  cases scopeType with
  | organization => exact absurd rfl hbelow
  | team => exact mem_previewEffectiveCallableKeys hids
  | apiKey => exact mem_previewEffectiveCallableKeys hids
  | user => exact mem_previewEffectiveCallableKeys hids

/-- A scope reaches what its parent reaches, and where it narrows that, grants. -/
theorem mem_effectiveCallableKeys (h : Addressed request scopeType)
    (hbelow : scopeType ≠ .organization) {callableKey : String} :
    callableKey ∈ effectiveCallableKeys t request scopeType ↔
      callableKey ≠ "" ∧ ∃ key, strip key = callableKey ∧
        Reaches t.toGovernance (parentScopes request scopeType) key ∧
        (Narrows t.toGovernance (scopeType, request.scopeId) →
          ScopeGrants t.toGovernance (scopeType, request.scopeId) key) := by
  have hids : ∀ scope ∈ parentScopes request scopeType ++ [(scopeType, request.scopeId)],
      scope.2 ≠ "" := by
    rw [List.forall_mem_append]
    exact ⟨h.parentScopes_ne, by simpa using h.scopeId⟩
  have happend : ∀ key, Reaches t.toGovernance
      (parentScopes request scopeType ++ [(scopeType, request.scopeId)]) key ↔
        Reaches t.toGovernance (parentScopes request scopeType) key ∧
          (Narrows t.toGovernance (scopeType, request.scopeId) →
            ScopeGrants t.toGovernance (scopeType, request.scopeId) key) := by
    intro key
    simp only [Reaches, List.forall_mem_append, List.mem_singleton, forall_eq]
  simp only [← happend]
  have hown := h.own
  cases scopeType with
  | organization => exact absurd rfl hbelow
  | team =>
      have hscopes : parentScopes request .team ++ [(.team, request.scopeId)] =
          previewScopes request.organizationId request.teamId none none := by
        simp [parentScopes, previewScopes, hown]
      rw [hscopes] at hids ⊢
      exact mem_previewEffectiveCallableKeys hids
  | apiKey =>
      have hscopes : parentScopes request .apiKey ++ [(.apiKey, request.scopeId)] =
          previewScopes request.organizationId request.teamId request.apiKeyId none := by
        simp [parentScopes, previewScopes, hown]
      rw [hscopes] at hids ⊢
      exact mem_previewEffectiveCallableKeys hids
  | user =>
      have hscopes : parentScopes request .user ++ [(.user, request.scopeId)] =
          previewScopes request.organizationId request.teamId request.apiKeyId request.userId := by
        simp [parentScopes, previewScopes, hown]
      rw [hscopes] at hids ⊢
      exact mem_previewEffectiveCallableKeys hids

/-- Writing a scope leaves what its parent reaches. -/
theorem parentEffectiveCallableKeys_kept (h : Addressed request plan.scopeType) {u : AccessTables}
    (hkept : KeepsOthers plan t u) :
    parentEffectiveCallableKeys u request plan.scopeType =
      parentEffectiveCallableKeys t request plan.scopeType := by
  by_cases hbelow : plan.scopeType = .organization
  · rw [hbelow]
    rfl
  · ext callableKey
    simp only [mem_parentEffectiveCallableKeys h hbelow,
      hkept.reaches (parentScopes_type request plan.scopeType)]

/-- The checks read the catalog and what the parent reaches. -/
theorem checkScopeAssetAccess_congr {u : AccessTables} (hcatalog : u.catalog = t.catalog)
    (hparent : ∀ scopeType, normalizeScopeType request.scopeType = .ok scopeType →
      parentEffectiveCallableKeys u request scopeType =
        parentEffectiveCallableKeys t request scopeType) :
    checkScopeAssetAccess textOf u request = checkScopeAssetAccess textOf t request := by
  unfold checkScopeAssetAccess
  refine bind_congr_ok fun scopeType htype => ?_
  have hsame := hparent scopeType htype
  have hselectable : selectableCallableKeys u request scopeType =
      selectableCallableKeys t request scopeType := by
    simp only [selectableCallableKeys, hcatalog, hsame]
  have hgroup : isSelectableGroup u request scopeType =
      isSelectableGroup t request scopeType := by
    funext groupKey
    simp only [isSelectableGroup, hcatalog, hsame]
  have hkeys : selectedKeys u request scopeType = selectedKeys t request scopeType := by
    funext mode requested
    simp only [selectedKeys, hselectable]
  simp only [hselectable, hgroup, hkeys, hcatalog]

/-! ## The scope after a request -/

theorem modeOf_restricted (hmode : plan.mode = .restrict) :
    modeOf (written plan t).toGovernance plan.scope = some "restrict" := by
  rw [modeOf_eq_some, written_policies]
  simp only [scopePolicies, hmode]
  exact ⟨_, mem_put.mpr (.inl rfl), rfl, rfl⟩

theorem narrows_restricted (hmode : plan.mode = .restrict) :
    Narrows (written plan t).toGovernance plan.scope := by
  have hmodeOf := modeOf_restricted (t := t) hmode
  unfold AccessPlan.scope at hmodeOf ⊢
  cases hscope : plan.scopeType with
  | organization => trivial
  | team => rwa [hscope] at hmodeOf
  | apiKey => rwa [hscope] at hmodeOf
  | user =>
      rw [hscope] at hmodeOf
      exact .inl hmodeOf

section Own

variable (hid : plan.scopeId ≠ "")
include hid

theorem mem_scopeBindings_written {binding : CallableTargetBinding} :
    binding ∈ scopeBindings (written plan t) plan.scopeType plan.scopeId ↔
      ∃ key ∈ plan.selectedCallableKeys,
        binding = plan.bindingRow key (plan.existingBinding t key) := by
  unfold scopeBindings
  rw [written_bindings]
  exact mem_listed_syncSelection (selects_bindings hid)

theorem mem_scopeGroupBindings_written (hsync : plan.syncAccessGroups = true)
    {binding : AccessGroupBinding} :
    binding ∈ scopeGroupBindings (written plan t) plan.scopeType plan.scopeId ↔
      ∃ key ∈ plan.selectedGroupKeys, binding = plan.groupBindingRow key
        ((t.groupBindings.filter (plan.isGroupListed ·.scope)).find? (·.groupKey = key)) := by
  unfold scopeGroupBindings
  rw [written_groupBindings, if_pos hsync]
  exact mem_listed_syncSelection (selects_groupBindings hid)

/-- The scope grants the selected targets and the members of the selected access groups. -/
theorem scopeGrants_written (hsync : plan.syncAccessGroups = true) (callableKey : String) :
    ScopeGrants (written plan t).toGovernance plan.scope callableKey ↔
      callableKey ∈ plan.selectedCallableKeys ∨ ∃ groupKey ∈ plan.selectedGroupKeys,
        callableKey ∈ callableKeysByAccessGroup t.catalog groupKey := by
  have hlisted (binding : CallableTargetBinding) :
      binding ∈ scopeBindings (written plan t) plan.scopeType plan.scopeId ↔ _ :=
    mem_scopeBindings_written hid
  have hgroups (binding : AccessGroupBinding) :
      binding ∈ scopeGroupBindings (written plan t) plan.scopeType plan.scopeId ↔ _ :=
    mem_scopeGroupBindings_written hid hsync
  simp only [scopeBindings, scopeGroupBindings, List.mem_filter, isListed_iff hid,
    isGroupListed_iff hid] at hlisted hgroups
  unfold ScopeGrants
  rw [written_catalog]
  constructor
  · rintro (⟨binding, hmem, hscope, -, rfl⟩ | ⟨binding, hmem, hscope, -, hkey⟩)
    · obtain ⟨key, hkey, rfl⟩ := (hlisted binding).mp ⟨hmem, hscope⟩
      exact .inl hkey
    · obtain ⟨groupKey, hgroup, rfl⟩ := (hgroups binding).mp ⟨hmem, hscope⟩
      exact .inr ⟨groupKey, hgroup, hkey⟩
  · rintro (hkey | ⟨groupKey, hgroup, hkey⟩)
    · obtain ⟨hmem, hscope⟩ := (hlisted _).mpr ⟨callableKey, hkey, rfl⟩
      exact .inl ⟨_, hmem, hscope, rfl, rfl⟩
    · obtain ⟨hmem, hscope⟩ := (hgroups _).mpr ⟨groupKey, hgroup, rfl⟩
      exact .inr ⟨_, hmem, hscope, rfl, hkey⟩

theorem modeOf_inherited (hmode : plan.mode = .inherit) :
    modeOf (written plan t).toGovernance plan.scope = none := by
  apply Option.eq_none_iff_forall_ne_some.mpr
  intro mode hsome
  rw [modeOf_eq_some, written_policies] at hsome
  simp only [scopePolicies, hmode] at hsome
  obtain ⟨policy, hpolicy, hscope, -⟩ := hsome
  have hkept := (List.mem_filter.mp hpolicy).2
  have hlisted : plan.isListed policy.scope = true := (isListed_iff hid _).mpr hscope
  simp [hlisted] at hkept

/-- A scope that inherits has no binding left. -/
theorem scopeBindings_inherited (hmode : plan.mode = .inherit)
    (hsync : plan.syncAccessGroups = true) :
    scopeBindings (written plan t) plan.scopeType plan.scopeId = [] ∧
      scopeGroupBindings (written plan t) plan.scopeType plan.scopeId = [] := by
  constructor
  · rw [List.eq_nil_iff_forall_not_mem]
    intro binding hbinding
    obtain ⟨key, hkey, -⟩ := (mem_scopeBindings_written hid).mp hbinding
    simp [AccessPlan.selectedCallableKeys, hmode] at hkey
  · rw [List.eq_nil_iff_forall_not_mem]
    intro binding hbinding
    obtain ⟨key, hkey, -⟩ := (mem_scopeGroupBindings_written hid hsync).mp hbinding
    simp [AccessPlan.selectedGroupKeys, hmode] at hkey

theorem not_scopeConfigured_inherited (hmode : plan.mode = .inherit)
    (hsync : plan.syncAccessGroups = true) :
    ¬ScopeConfigured (written plan t).toGovernance plan.scope := by
  obtain ⟨hbindings, hgroups⟩ := scopeBindings_inherited (t := t) hid hmode hsync
  unfold scopeBindings at hbindings
  unfold scopeGroupBindings at hgroups
  rw [List.filter_eq_nil_iff] at hbindings hgroups
  rintro (⟨binding, hmem, hscope⟩ | ⟨binding, hmem, hscope⟩)
  · exact hbindings binding hmem ((isListed_iff hid _).mpr hscope)
  · exact hgroups binding hmem ((isGroupListed_iff hid _).mpr hscope)

theorem not_narrows_inherited (hbelow : plan.scopeType ≠ .organization)
    (hmode : plan.mode = .inherit) (hsync : plan.syncAccessGroups = true) :
    ¬Narrows (written plan t).toGovernance plan.scope := by
  have hmodeOf := modeOf_inherited (t := t) hid hmode
  have hconfigured := not_scopeConfigured_inherited (t := t) hid hmode hsync
  unfold AccessPlan.scope at hmodeOf hconfigured ⊢
  cases hscope : plan.scopeType with
  | organization => exact absurd hscope hbelow
  | user =>
      rw [hscope] at hmodeOf hconfigured
      rintro (hrestrict | ⟨-, hbound⟩)
      · rw [hmodeOf] at hrestrict
        cases hrestrict
      · exact hconfigured hbound
  | _ =>
      rw [hscope] at hmodeOf
      intro hrestrict
      change modeOf _ _ = some "restrict" at hrestrict
      rw [hmodeOf] at hrestrict
      cases hrestrict

theorem resolvedMode_written (hbelow : plan.scopeType ≠ .organization)
    (hsync : plan.syncAccessGroups = true) (hmode : plan.mode = .inherit ∨ plan.mode = .restrict) :
    resolvedMode (written plan t) plan.scopeType plan.scopeId =
      if plan.mode = .restrict then "restrict" else "inherit" := by
  have hfind : (written plan t).policies.find?
      (AssetVisibility.isListed plan.scopeType plan.scopeId ·.scope) =
        (written plan t).policies.find? (·.scope = plan.scope) := by
    congr 1
    funext policy
    rw [Bool.eq_iff_iff, isListed_iff hid, decide_eq_true_eq]
    rfl
  unfold resolvedMode
  rw [if_neg hbelow, hfind]
  rcases hmode with hinherit | hrestrict
  · have hnone := modeOf_inherited (t := t) hid hinherit
    obtain ⟨hbindings, hgroups⟩ := scopeBindings_inherited (t := t) hid hinherit hsync
    rw [modeOf, Option.map_eq_none_iff] at hnone
    simp [hnone, hbindings, hgroups, hinherit]
  · obtain ⟨policy, hpolicy, hpolicyMode⟩ :=
      Option.map_eq_some_iff.mp (modeOf_restricted (t := t) hrestrict)
    simp [hpolicy, hpolicyMode, hrestrict]

end Own

/-- What a scope reads after an accepted request: the mode that was asked for, an enabled binding of
each target and access group that was selected and no other, and of the parent's targets all, or
where the scope restricts those it is granted. -/
structure Resolves (textOf : JsonValue → String) (t : AccessTables) (request : AccessRequest)
    (scopeType : ScopeType) (after : AccessTables) : Prop where
  mode : resolvedMode after scopeType request.scopeId = requestedMode textOf request
  bindings : ∀ callableKey,
    (∃ binding ∈ scopeBindings after scopeType request.scopeId,
      binding.callableKey = callableKey) ↔ RequestedKey textOf t request scopeType callableKey
  groupBindings : ∀ groupKey,
    (∃ binding ∈ scopeGroupBindings after scopeType request.scopeId,
      binding.groupKey = groupKey) ↔ RequestedGroup request groupKey
  bindingsEnabled : ∀ binding ∈ scopeBindings after scopeType request.scopeId,
    binding.enabled = true
  groupBindingsEnabled : ∀ binding ∈ scopeGroupBindings after scopeType request.scopeId,
    binding.enabled = true
  parent : parentEffectiveCallableKeys after request scopeType =
    parentEffectiveCallableKeys t request scopeType
  inherits : requestedMode textOf request = "inherit" →
    effectiveCallableKeys after request scopeType = parentEffectiveCallableKeys t request scopeType
  restricts : requestedMode textOf request = "restrict" → ∀ callableKey,
    callableKey ∈ effectiveCallableKeys after request scopeType ↔
      callableKey ∈ parentEffectiveCallableKeys t request scopeType ∧
        (RequestedKey textOf t request scopeType callableKey ∨ ∃ groupKey,
          RequestedGroup request groupKey ∧
            callableKey ∈ callableKeysByAccessGroup t.catalog groupKey)
  known : requestedMode textOf request = "inherit" ∨ requestedMode textOf request = "restrict"

/-- Below an organization only stripped keys are reached. -/
theorem strip_of_reaches (hkeys : StrippedKeys t) (hbelow : scopeType ≠ .organization)
    {key : String} (h : Reaches t.toGovernance (parentScopes request scopeType) key) :
    strip key = key := by
  have horganization : (ScopeType.organization, request.organizationId) ∈
      parentScopes request scopeType := by
    cases scopeType with
    | organization => exact absurd rfl hbelow
    | _ => exact mem_previewScopes.mpr rfl
  rcases h _ horganization trivial with ⟨binding, hmem, -, -, rfl⟩ | ⟨binding, -, -, -, hkey⟩
  · exact hkeys binding hmem
  · simp only [callableKeysByAccessGroup, List.mem_toFinset, List.mem_map] at hkey
    obtain ⟨entry, -, rfl⟩ := hkey
    exact strip_strip entry.1

theorem resolves_written (h : Accepts textOf t request plan)
    (haddr : Addressed request plan.scopeType) (hbelow : plan.scopeType ≠ .organization)
    (hkeys : StrippedKeys t) (hgroups : request.selectedAccessGroupKeys.isSome = true) :
    Resolves textOf t request plan.scopeType (written plan t) := by
  have hid : plan.scopeId ≠ "" := h.scopeId ▸ haddr.scopeId
  have hsync := h.syncAccessGroups hgroups
  have hscope : (plan.scopeType, request.scopeId) = plan.scope := by
    rw [← h.scopeId]
    rfl
  have hkept : KeepsOthers plan t (written plan t) := written_keeps hid
  have hreaches := hkept.reaches (parentScopes_type request plan.scopeType)
  have hmode := normalizeMode_ok hbelow h.mode
  have hselected : plan.selectedCallableKeys = plan.callableKeys ∧
      plan.selectedGroupKeys = plan.groupKeys := by
    unfold AccessPlan.selectedCallableKeys AccessPlan.selectedGroupKeys
    by_cases hinherit : plan.mode = .inherit
    · obtain ⟨hnone, hnoGroup⟩ := h.inherit hinherit
      simp [hinherit, hnone, hnoGroup]
    · simp [hinherit]
  obtain ⟨hselected, hselectedGroups⟩ := hselected
  constructor
  case mode =>
    rw [← h.scopeId, resolvedMode_written hid hbelow hsync (hmode.imp And.right And.right)]
    rcases hmode with ⟨hrequested, hplan⟩ | ⟨hrequested, hplan⟩
    · simp [hrequested, hplan]
    · simp [hrequested, hplan]
  case bindings =>
    intro callableKey
    rw [← h.callableKeys hbelow, ← hselected, ← h.scopeId]
    simp only [mem_scopeBindings_written hid]
    constructor
    · rintro ⟨_, ⟨key, hkey, rfl⟩, rfl⟩
      exact hkey
    · intro hkey
      exact ⟨_, ⟨callableKey, hkey, rfl⟩, rfl⟩
  case groupBindings =>
    intro groupKey
    rw [← h.groupKeys, ← hselectedGroups, ← h.scopeId]
    simp only [mem_scopeGroupBindings_written hid hsync]
    constructor
    · rintro ⟨_, ⟨key, hkey, rfl⟩, rfl⟩
      exact hkey
    · intro hkey
      exact ⟨_, ⟨groupKey, hkey, rfl⟩, rfl⟩
  case bindingsEnabled =>
    intro binding hbinding
    rw [← h.scopeId] at hbinding
    obtain ⟨key, -, rfl⟩ := (mem_scopeBindings_written hid).mp hbinding
    rfl
  case groupBindingsEnabled =>
    intro binding hbinding
    rw [← h.scopeId] at hbinding
    obtain ⟨key, -, rfl⟩ := (mem_scopeGroupBindings_written hid hsync).mp hbinding
    rfl
  case parent => exact parentEffectiveCallableKeys_kept haddr hkept
  case inherits =>
    intro hrequested
    have hinherit : plan.mode = .inherit := by
      rcases hmode with ⟨-, hplan⟩ | ⟨hrestrict, -⟩
      · exact hplan
      · rw [hrequested] at hrestrict
        exact absurd hrestrict (by decide)
    have hopen := not_narrows_inherited (t := t) hid hbelow hinherit hsync
    ext callableKey
    rw [mem_effectiveCallableKeys haddr hbelow, mem_parentEffectiveCallableKeys haddr hbelow]
    simp only [hscope, hreaches, hopen, false_imp_iff, and_true]
  case restricts =>
    intro hrequested callableKey
    have hrestrict : plan.mode = .restrict := by
      rcases hmode with ⟨hinherit, -⟩ | ⟨-, hplan⟩
      · rw [hrequested] at hinherit
        exact absurd hinherit (by decide)
      · exact hplan
    have hnarrow := narrows_restricted (t := t) hrestrict
    rw [mem_effectiveCallableKeys haddr hbelow, mem_parentEffectiveCallableKeys haddr hbelow]
    simp only [hscope, hreaches, hnarrow, true_imp_iff, scopeGrants_written hid hsync, hselected,
      hselectedGroups, h.callableKeys hbelow, h.groupKeys]
    constructor
    · rintro ⟨hkey, key, rfl, hparent, hgranted⟩
      have hstrip := strip_of_reaches hkeys hbelow hparent
      refine ⟨⟨hkey, key, rfl, hparent⟩, ?_⟩
      rwa [hstrip]
    · rintro ⟨⟨hkey, key, rfl, hparent⟩, hgranted⟩
      have hstrip := strip_of_reaches hkeys hbelow hparent
      rw [hstrip] at hgranted
      exact ⟨hkey, key, rfl, hparent, hgranted⟩
  case known => exact hmode.imp And.left And.left

/-- What is selected below an organization is stripped, so that the stored keys stay so. -/
theorem strippedKeys_written (h : Accepts textOf t request plan)
    (haddr : Addressed request plan.scopeType) (hbelow : plan.scopeType ≠ .organization)
    (hkeys : StrippedKeys t) : StrippedKeys (written plan t) := by
  have hid : plan.scopeId ≠ "" := h.scopeId ▸ haddr.scopeId
  intro binding hbinding
  rw [written_bindings, mem_syncScopeBindings hid] at hbinding
  rcases hbinding with ⟨key, hkey, rfl⟩ | ⟨hbinding, -⟩
  · have hselected : key ∈ plan.callableKeys := by
      unfold AccessPlan.selectedCallableKeys at hkey
      split at hkey
      · cases hkey
      · exact hkey
    have hrequested := (h.callableKeys hbelow key).mp hselected
    change strip key = key
    unfold RequestedKey at hrequested
    split at hrequested
    · obtain ⟨-, raw, rfl, -⟩ := (mem_parentEffectiveCallableKeys haddr hbelow).mp hrequested
      exact strip_strip raw
    · obtain ⟨-, items, -, item, -, rfl⟩ := hrequested
      exact strip_strip _
  · exact hkeys binding hbinding

/-- After an accepted request for a team, an API key or a user, with its access groups listed, the
scope resolves to what was asked for. A request that is rejected changes nothing, and a request that
is applied again changes nothing. -/
theorem scope_resolves_as_requested (textOf : JsonValue → String) (t : AccessTables)
    (request : AccessRequest) (hkeys : StrippedKeys t)
    (haddr : ∀ scopeType, normalizeScopeType request.scopeType = .ok scopeType →
      Addressed request scopeType)
    (hgroups : request.selectedAccessGroupKeys.isSome = true) :
    let result := syncScopeAssetAccessState textOf t request
    (result.1 = .ok () → ∀ scopeType, normalizeScopeType request.scopeType = .ok scopeType →
      scopeType ≠ .organization → Resolves textOf t request scopeType result.2) ∧
    (∀ statusCode detail, result.1 = .error (.http statusCode detail) → result.2 = t) ∧
    syncScopeAssetAccessState textOf result.2 request = result := by
  intro result
  cases hcheck : checkScopeAssetAccess textOf t request with
  | error error =>
      have hresult : result = (.error error, t) := by
        simp only [result, syncScopeAssetAccessState, hcheck]
      refine ⟨?_, ?_, ?_⟩
      · intro haccepted
        rw [hresult] at haccepted
        cases haccepted
      · intro statusCode detail _
        rw [hresult]
      · rw [hresult]
        simp only [syncScopeAssetAccessState, hcheck]
  | ok plan =>
      have haccepts := checkScopeAssetAccess_ok hcheck
      have hplan := haddr plan.scopeType haccepts.scopeType
      have hid : plan.scopeId ≠ "" := haccepts.scopeId ▸ hplan.scopeId
      have hresult : result = writeScopeAssetAccess plan t := by
        simp only [result, syncScopeAssetAccessState, hcheck]
      refine ⟨?_, ?_, ?_⟩
      · intro haccepted scopeType htype hbelow
        obtain rfl : plan.scopeType = scopeType :=
          Except.ok.inj (haccepts.scopeType.symm.trans htype)
        rw [hresult, writeScopeAssetAccess_eq] at haccepted ⊢
        by_cases hblank : Blank plan
        · rw [if_pos hblank] at haccepted
          cases haccepted
        · rw [if_neg hblank]
          exact resolves_written haccepts hplan hbelow hkeys hgroups
      · intro statusCode detail hrejected
        rw [hresult, writeScopeAssetAccess_eq] at hrejected
        by_cases hblank : Blank plan
        · rw [if_pos hblank] at hrejected
          cases hrejected
        · rw [if_neg hblank] at hrejected
          cases hrejected
      · have hkept : KeepsOthers plan t (writeScopeAssetAccess plan t).2 :=
          writeScopeAssetAccess_keeps hid
        have hagain : checkScopeAssetAccess textOf (writeScopeAssetAccess plan t).2 request =
            checkScopeAssetAccess textOf t request := by
          apply checkScopeAssetAccess_congr hkept.catalog
          intro scopeType htype
          obtain rfl : plan.scopeType = scopeType :=
            Except.ok.inj (haccepts.scopeType.symm.trans htype)
          exact parentEffectiveCallableKeys_kept hplan hkept
        rw [hresult]
        simp only [syncScopeAssetAccessState, hagain, hcheck]
        exact writeScopeAssetAccess_again hid

namespace RestrictedTeam

/-- The organization is granted two targets; the team has a stale binding and no policy. -/
def tables : AccessTables where
  bindings := [⟨"gpt", (.organization, "acme"), true, none⟩,
    ⟨"claude", (.organization, "acme"), true, none⟩, ⟨"claude", (.team, "core"), true, none⟩]
  groupBindings := []
  policies := []
  onePolicy := List.nodup_nil
  catalog := [("gpt", ⟨"gpt", .model, ∅⟩), ("claude", ⟨"claude", .model, ∅⟩)]
  named := by simp [Catalog.Named]
  routeGroups := []
  routeGroupBindings := []
  oneBinding := by decide
  oneGroupBinding := List.nodup_nil
  oneRouteGroupBinding := List.nodup_nil

def coreRequest : AccessRequest where
  scopeType := "team"
  scopeId := "core"
  organizationId := "acme"
  teamId := some "core"
  apiKeyId := none
  userId := none
  mode := .str "restrict"
  selectedCallableKeys := .list [.str "gpt"]
  selectedAccessGroupKeys := some (.list [])
  selectAllSelectable := false

def plainText : JsonValue → String
  | .str s => s
  | _ => ""

theorem request_addressed :
    ∀ scopeType, normalizeScopeType coreRequest.scopeType = .ok scopeType →
      Addressed coreRequest scopeType := by
  intro scopeType htype
  obtain rfl : ScopeType.team = scopeType := Except.ok.inj htype
  exact ⟨by decide, by decide, by decide, by decide, rfl⟩

theorem gpt_selectable : "gpt" ∈ parentEffectiveCallableKeys tables coreRequest .team := by
  refine (mem_parentEffectiveCallableKeys (request_addressed .team rfl) (by decide)).mpr
    ⟨by decide, "gpt", by decide, ?_⟩
  intro scope hscope _
  obtain rfl : scope = (.organization, "acme") := List.mem_singleton.mp hscope
  exact .inl ⟨_, List.mem_cons_self, rfl, rfl, rfl⟩

/-- The check of the parent's reach lets the target pass. -/
theorem gpt_within_parent :
    ["gpt"].filter (· ∉ selectableCallableKeys tables coreRequest .team) = [] := by
  have hselectable : "gpt" ∈ selectableCallableKeys tables coreRequest .team := gpt_selectable
  simp [hselectable]

theorem request_accepted : (syncScopeAssetAccessState plainText tables coreRequest).1 = .ok () := by
  have hcheck : checkScopeAssetAccess plainText tables coreRequest =
      .ok ⟨.team, "core", .restrict, ["gpt"], [], true⟩ := by
    refine bind_ok_iff.mpr ⟨.team, rfl, bind_ok_iff.mpr ⟨.restrict, by decide, ?_⟩⟩
    refine bind_ok_iff.mpr ⟨["gpt"], by decide, bind_ok_iff.mpr ⟨[], rfl, ?_⟩⟩
    refine bind_ok_iff.mpr ⟨["gpt"], rfl, bind_ok_iff.mpr ⟨(), by decide, ?_⟩⟩
    rw [gpt_within_parent]
    rfl
  simp only [syncScopeAssetAccessState, hcheck, writeScopeAssetAccess_eq]
  rfl

theorem tables_stripped : StrippedKeys tables := by
  unfold StrippedKeys
  decide

end RestrictedTeam

open RestrictedTeam in
theorem restrictedTeam_resolves : Resolves plainText tables coreRequest .team
    (syncScopeAssetAccessState plainText tables coreRequest).2 :=
  (scope_resolves_as_requested plainText tables coreRequest tables_stripped request_addressed
    rfl).1 request_accepted .team rfl (by decide)

end AssetAccessAgreement
