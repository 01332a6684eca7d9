import DeltaLLM.AssetVisibility
import DeltaLLM.CheckedResults
import DeltaLLM.SelectedRows

/-! # Writing the asset access of a scope

An administrator sets what a scope may call: its mode, its targets and its access groups. The
request is checked against what the scopes above it reach, then written as a difference from the
rows that are there; what the scope reaches is read from the rows alone.
-/
namespace ScopedAssetAccess

open JsonValues PythonText Dictionaries CallableTargets RuntimeScopes CallableTargetGrants
open AssetVisibility SelectedRows

/-! ## The tables -/

structure RouteGroupBinding where
  groupKey : String
  scope : Scope
  enabled : Bool
  metadata : Option JsonObject

/-- The rows that a request reads and writes, under the unique keys of their tables. -/
@[ext] structure AccessTables extends Governance where
  routeGroups : List RouteGroupRecord
  routeGroupBindings : List RouteGroupBinding
  oneBinding : (bindings.map
    (placedName CallableTargetBinding.callableKey CallableTargetBinding.scope)).Nodup
  oneGroupBinding :
    (groupBindings.map (placedName AccessGroupBinding.groupKey AccessGroupBinding.scope)).Nodup
  oneRouteGroupBinding :
    (routeGroupBindings.map (placedName RouteGroupBinding.groupKey RouteGroupBinding.scope)).Nodup

/-- Keys are stored stripped, as the catalog and the route groups have them. -/
def StrippedKeys (t : AccessTables) : Prop :=
  ∀ binding ∈ t.bindings, strip binding.callableKey = binding.callableKey

/-! ## Reading a request -/

/-- The ValueError comes from the repository of the access groups. -/
inductive AccessError where
  | http (statusCode : ℕ) (detail : String)
  | valueError (detail : String)
  deriving DecidableEq, Repr

abbrev Checked := Except AccessError

def badRequest (detail : String) : AccessError := .http 400 detail

/-- The argument of `apply_scope_asset_access`; without access groups they are left alone. -/
structure AccessRequest where
  scopeType : String
  scopeId : String
  organizationId : String
  teamId : Option String
  apiKeyId : Option String
  userId : Option String
  mode : JsonValue
  selectedCallableKeys : JsonValue
  selectedAccessGroupKeys : Option JsonValue
  selectAllSelectable : Bool

def scopeTypes : List ScopeType := [.organization, .team, .apiKey, .user]

/-- `_normalize_scope_type`. -/
def normalizeScopeType (scopeType : String) : Checked ScopeType :=
  match scopeTypes.find? (scopeText · = lower (strip scopeType)) with
  | some scopeType => .ok scopeType
  | none => .error (badRequest "scope_type must be one of: api_key, organization, team, user")

inductive AccessMode where
  | grant | inherit | restrict
  deriving DecidableEq, Repr

section Normalizing

variable (textOf : JsonValue → String)

/-- `str(value or "").strip()`. -/
def trimmed (value : JsonValue) : String := strip (if value.truthy then textOf value else "")

/-- `_normalize_mode`. -/
def normalizeMode (scopeType : ScopeType) (mode : JsonValue) : Checked AccessMode :=
  let normalized := lower (trimmed textOf mode)
  if scopeType = .organization then
    if normalized = "" ∨ normalized = "grant" then .ok .grant
    else .error (badRequest "organization asset access mode must be 'grant'")
  else if normalized = "inherit" then .ok .inherit
  else if normalized = "restrict" then .ok .restrict
  else .error (badRequest "mode must be one of: inherit, restrict")

/-- `_normalize_selected_callable_keys`. -/
def normalizeSelectedCallableKeys : JsonValue → Checked (List String)
  | .null => .ok []
  | .list items => .ok ((items.map (trimmed textOf)).filter (· ≠ "")).eraseDups
  | _ => .error (badRequest "selected_callable_keys must be an array")

/-- `normalize_access_group_key` with `strict`. -/
def strictAccessGroupKey : JsonValue → Checked String
  | .str value =>
      let normalized := lower (strip value)
      if normalized = "" then .error (badRequest "access group key must be non-empty")
      else if accessGroupPattern normalized then .ok normalized
      else .error (badRequest ("access group key must start with a lowercase letter or digit " ++
        "and contain only lowercase letters, digits, '.', '_' or '-'"))
  | _ => .error (badRequest "access group key must be a string")

/-- `_normalize_selected_access_group_keys`. -/
def normalizeSelectedAccessGroupKeys : JsonValue → Checked (List String)
  | .list items => (items.mapM strictAccessGroupKey).map List.eraseDups
  | _ => .error (badRequest "selected_access_group_keys must be an array")

end Normalizing

/-! ## Reading the tables -/

section Reading

variable (t : AccessTables) (request : AccessRequest)

/-- `_preview_effective_callable_keys`. -/
def previewEffectiveCallableKeys (organizationId : String)
    (teamId apiKeyId userId : Option String) : Finset String :=
  let preview := buildAssetVisibilityPreview t.toGovernance t.routeGroups organizationId teamId
    apiKeyId userId
  ((preview.callableTargets.filter fun item => strip item.key ≠ "" ∧ item.effectiveVisible).map
    fun item => strip item.key).toFinset

/-- `_parent_effective_callable_keys`; an organization has no parent. -/
def parentEffectiveCallableKeys : ScopeType → Finset String
  | .organization => ∅
  | .team => previewEffectiveCallableKeys t request.organizationId none none none
  | .apiKey => previewEffectiveCallableKeys t request.organizationId request.teamId none none
  | .user =>
      previewEffectiveCallableKeys t request.organizationId request.teamId request.apiKeyId none

/-- `_effective_callable_keys`. -/
def effectiveCallableKeys : ScopeType → Finset String
  | .organization => previewEffectiveCallableKeys t request.organizationId none none none
  | .team => previewEffectiveCallableKeys t request.organizationId request.teamId none none
  | .apiKey =>
      previewEffectiveCallableKeys t request.organizationId request.teamId request.apiKeyId none
  | .user =>
      previewEffectiveCallableKeys t request.organizationId request.teamId request.apiKeyId
        request.userId

/-- `_selectable_callable_keys`. -/
def selectableCallableKeys (scopeType : ScopeType) : Finset String :=
  if scopeType = .organization then (t.catalog.map Prod.fst).toFinset
  else parentEffectiveCallableKeys t request scopeType

/-- An organization may bind any access group, a scope below it one of
`_selectable_access_group_keys`. -/
def isSelectableGroup (scopeType : ScopeType) (groupKey : String) : Bool :=
  scopeType = .organization ∨
    callableKeysByAccessGroup t.catalog groupKey ∩ parentEffectiveCallableKeys t request scopeType ≠
      ∅

/-- `_list_scope_bindings`. -/
def scopeBindings (scopeType : ScopeType) (scopeId : String) : List CallableTargetBinding :=
  t.bindings.filter (isListed scopeType scopeId ·.scope)

/-- `_list_scope_access_group_bindings`. -/
def scopeGroupBindings (scopeType : ScopeType) (scopeId : String) : List AccessGroupBinding :=
  t.groupBindings.filter (isGroupListed scopeType scopeId ·.scope)

/-- `_resolved_mode`. -/
def resolvedMode (scopeType : ScopeType) (scopeId : String) : String :=
  if scopeType = .organization then "grant"
  else
    match t.policies.find? (isListed scopeType scopeId ·.scope) with
    | some policy => if policy.mode = "" then "inherit" else policy.mode
    | none =>
        if scopeType = .user ∧ (scopeBindings t scopeType scopeId ≠ [] ∨
            scopeGroupBindings t scopeType scopeId ≠ []) then "restrict"
        else "inherit"

end Reading

/-! ## Checking a request -/

/-- What an accepted request writes. -/
structure AccessPlan where
  scopeType : ScopeType
  scopeId : String
  mode : AccessMode
  callableKeys : List String
  groupKeys : List String
  syncAccessGroups : Bool

def reject (condition : Prop) [Decidable condition] (detail : String) : Checked Unit :=
  if condition then .error (badRequest detail) else .ok ()

/-- An error that lists keys. -/
def rejectKeys (message : String) (keys : List String) : Checked Unit :=
  reject (keys ≠ []) (message ++ ", ".intercalate (sorted keys.toFinset))

/-- `select_all_selectable` takes the place of the selected keys. -/
def selectedKeys (t : AccessTables) (request : AccessRequest) (scopeType : ScopeType)
    (mode : AccessMode) (requested : List String) : Checked (List String) :=
  if request.selectAllSelectable then do
    reject (mode = .inherit) "select_all_selectable cannot be used when mode is inherit"
    .ok (sorted (selectableCallableKeys t request scopeType))
  else .ok requested

/-- `sync_scope_asset_access_state` up to its first write. -/
def checkScopeAssetAccess (textOf : JsonValue → String) (t : AccessTables)
    (request : AccessRequest) : Checked AccessPlan := do
  let scopeType ← normalizeScopeType request.scopeType
  let mode ← normalizeMode textOf scopeType request.mode
  let requested ← normalizeSelectedCallableKeys textOf request.selectedCallableKeys
  let groupKeys ← (request.selectedAccessGroupKeys.elim (.ok []) normalizeSelectedAccessGroupKeys)
  let callableKeys ← selectedKeys t request scopeType mode requested
  rejectKeys "Unknown callable targets: "
    (callableKeys.filter fun key => (t.catalog.get? key).isNone)
  rejectKeys "Selected callable targets are outside the parent scope: "
    (callableKeys.filter (· ∉ selectableCallableKeys t request scopeType))
  rejectKeys "Selected access groups are outside the parent scope: "
    (groupKeys.filter fun groupKey => !isSelectableGroup t request scopeType groupKey)
  reject (mode = .inherit ∧ (callableKeys ≠ [] ∨ groupKeys ≠ []))
    ("selected_callable_keys and selected_access_group_keys must be empty when mode is inherit")
  .ok ⟨scopeType, request.scopeId, mode, callableKeys, groupKeys,
    request.selectedAccessGroupKeys.isSome || decide (mode = .inherit)⟩

/-! ## Writing a plan -/

namespace AccessPlan

variable (plan : AccessPlan)

def scope : Scope := (plan.scopeType, plan.scopeId)

/-- Access groups are stored under the stripped identifier. -/
def groupScope : Scope := (plan.scopeType, strip plan.scopeId)

def isListed (scope : Scope) : Bool := AssetVisibility.isListed plan.scopeType plan.scopeId scope

def isGroupListed (scope : Scope) : Bool :=
  AssetVisibility.isGroupListed plan.scopeType plan.scopeId scope

/-- Nothing is selected in a scope that inherits. -/
def selectedCallableKeys : List String := if plan.mode = .inherit then [] else plan.callableKeys

def selectedGroupKeys : List String := if plan.mode = .inherit then [] else plan.groupKeys

/-- A selected target is enabled and keeps its metadata. -/
def bindingRow (callableKey : String) (old : Option CallableTargetBinding) :
    CallableTargetBinding :=
  ⟨callableKey, plan.scope, true, old.bind (·.metadata)⟩

def groupBindingRow (groupKey : String) (old : Option AccessGroupBinding) : AccessGroupBinding :=
  ⟨groupKey, plan.groupScope, true, old.bind (·.metadata)⟩

def existingBinding (t : AccessTables) (callableKey : String) : Option CallableTargetBinding :=
  (t.bindings.filter (plan.isListed ·.scope)).find? (·.callableKey = callableKey)

/-- The binding of a route group as the target's binding is written. -/
def mirrorRow (t : AccessTables) (groupKey : String) : RouteGroupBinding :=
  ⟨groupKey, plan.scope, true, (plan.existingBinding t groupKey).bind (·.metadata)⟩

end AccessPlan

def isRouteGroup (catalog : Catalog) (callableKey : String) : Bool :=
  (catalog.get? callableKey).any fun target => target.targetType = .routeGroup

/-- What `_sync_scope_bindings` does to the bindings of route groups. -/
def mirrorScopeBindings (plan : AccessPlan) (t : AccessTables) : List RouteGroupBinding :=
  let mirrored := plan.selectedCallableKeys.filter fun key =>
    isRouteGroup t.catalog key ∧ (t.routeGroups.any fun group => group.groupKey = key)
  let dropped := ((t.bindings.filter (plan.isListed ·.scope)).map (·.callableKey)).filter fun key =>
    key ∉ plan.selectedCallableKeys ∧ isRouteGroup t.catalog key
  (putAll (placedName RouteGroupBinding.groupKey RouteGroupBinding.scope) (plan.mirrorRow t)
    mirrored t.routeGroupBindings).filter fun binding =>
      ¬(plan.isListed binding.scope ∧ binding.groupKey ∈ dropped)

/-- `_sync_scope_bindings`. -/
def syncScopeBindings (plan : AccessPlan) (t : AccessTables) : AccessTables :=
  { t with
    bindings := syncSelection CallableTargetBinding.callableKey CallableTargetBinding.scope
      (plan.isListed ·.scope) plan.bindingRow plan.selectedCallableKeys t.bindings
    routeGroupBindings := mirrorScopeBindings plan t
    oneBinding := nodup_syncSelection _ _ _ t.oneBinding
    oneRouteGroupBinding :=
      (nodup_putAll _ _ t.oneRouteGroupBinding).sublist (List.filter_sublist.map _) }

/-- `_sync_scope_access_group_bindings`. -/
def syncScopeAccessGroupBindings (plan : AccessPlan) (t : AccessTables) : AccessTables :=
  { t with
    groupBindings := syncSelection AccessGroupBinding.groupKey AccessGroupBinding.scope
      (plan.isGroupListed ·.scope) plan.groupBindingRow plan.selectedGroupKeys t.groupBindings
    oneGroupBinding := nodup_syncSelection _ _ _ t.oneGroupBinding }

/-- What `_sync_scope_policy` leaves of the policies; an organization has none. -/
def scopePolicies (plan : AccessPlan) (policies : List ScopePolicy) : List ScopePolicy :=
  match plan.mode with
  | .grant => policies
  | .restrict => put ScopePolicy.scope ⟨plan.scope, "restrict"⟩ policies
  | .inherit => policies.filter fun policy => !plan.isListed policy.scope

theorem nodup_scopePolicies (plan : AccessPlan) {policies : List ScopePolicy}
    (h : (policies.map (·.scope)).Nodup) : ((scopePolicies plan policies).map (·.scope)).Nodup := by
  unfold scopePolicies
  split
  · exact h
  · exact nodup_put h
  · exact h.sublist (List.filter_sublist.map _)

/-- `_sync_scope_policy`. -/
def syncScopePolicy (plan : AccessPlan) (t : AccessTables) : AccessTables :=
  { t with
    policies := scopePolicies plan t.policies
    onePolicy := nodup_scopePolicies plan t.onePolicy }

/-- `sync_scope_asset_access_state` from its first write. The repository of the access groups raises
for a blank identifier, after the targets are written. -/
def writeScopeAssetAccess (plan : AccessPlan) (t : AccessTables) : Checked Unit × AccessTables :=
  let bound := syncScopeBindings plan t
  let current := t.groupBindings.filter (plan.isGroupListed ·.scope)
  if plan.syncAccessGroups ∧ (plan.groupKeys ≠ [] ∨ current ≠ []) then
    if plan.selectedGroupKeys ≠ [] ∧ strip plan.scopeId = "" then
      (.error (.valueError "scope_id is required"), bound)
    else (.ok (), syncScopePolicy plan (syncScopeAccessGroupBindings plan bound))
  else (.ok (), syncScopePolicy plan bound)

/-- `sync_scope_asset_access_state`. -/
def syncScopeAssetAccessState (textOf : JsonValue → String) (t : AccessTables)
    (request : AccessRequest) : Checked Unit × AccessTables :=
  match checkScopeAssetAccess textOf t request with
  | .error error => (.error error, t)
  | .ok plan => writeScopeAssetAccess plan t

end ScopedAssetAccess
