import DeltaLLM.JsonValues
import DeltaLLM.PythonText

/-! # The scopes of a caller

Which organization, team, API key and user a request is made for. Identifiers are stripped, and an
empty one is none.
-/
namespace RuntimeScopes

open JsonValues PythonText

inductive ScopeType where
  | organization | team | apiKey | user
  deriving DecidableEq, Repr

abbrev Scope := ScopeType × String

inductive AuthSource where
  | apiKey | jwt | custom | masterKey | unknown
  deriving DecidableEq, Repr

structure UserAPIKeyAuth where
  apiKey : Option String
  userId : Option String
  teamId : Option String
  organizationId : Option String
  metadata : JsonObject

structure RuntimeScopeContext where
  authSource : AuthSource
  isMasterKey : Bool
  apiKeyScopeId : Option String
  userId : Option String
  teamId : Option String
  organizationId : Option String
  deriving DecidableEq, Repr

/-- `_normalize_optional` of a text. -/
def normalizeOptional (value : Option String) : Option String :=
  (value.map strip).filter (· ≠ "")

/-- `_normalize_auth_source`. -/
def normalizeAuthSource (text : String) : AuthSource :=
  match lower (strip text) with
  | "api_key" => .apiKey
  | "jwt" => .jwt
  | "custom" => .custom
  | "master_key" => .masterKey
  | _ => .unknown

/-- `_infer_auth_source`. -/
def inferAuthSource (apiKey : Option String) (metadata : JsonObject) (isMasterKey : Bool) :
    AuthSource :=
  if isMasterKey then .masterKey
  else if (metadata.get? "jwt_claims").isSome ∨ startsWith (apiKey.getD "") "jwt:" then .jwt
  else .apiKey

/-- The declared scope of the API key, else the key itself where the request came with one. -/
def apiKeyScopeIdOf (declared apiKey : Option String) (authSource : AuthSource) : Option String :=
  match declared with
  | some scopeId => some scopeId
  | none => if authSource = .apiKey then apiKey else none

/-- `resolve_runtime_scope_context`; `textOf` is `str`. -/
def resolveRuntimeScopeContext (textOf : JsonValue → String) (auth : UserAPIKeyAuth) :
    RuntimeScopeContext :=
  let apiKey := normalizeOptional auth.apiKey
  let isMasterKey := (auth.metadata.get "is_master_key").truthy || apiKey = some "master_key"
  let declared := auth.metadata.get "auth_source"
  let authSource :=
    if declared.truthy then normalizeAuthSource (textOf declared)
    else inferAuthSource apiKey auth.metadata isMasterKey
  let scopeId := auth.metadata.get "api_key_scope_id"
  { authSource
    isMasterKey
    apiKeyScopeId :=
      apiKeyScopeIdOf (normalizeOptional (if scopeId matches .null then none else textOf scopeId))
        apiKey authSource
    userId := normalizeOptional auth.userId
    teamId := normalizeOptional auth.teamId
    organizationId := normalizeOptional auth.organizationId }

/-- `scope_chain`: from the user up to the organization. -/
def RuntimeScopeContext.scopeChain (context : RuntimeScopeContext) : List Scope :=
  if context.isMasterKey then []
  else
    (context.userId.map (ScopeType.user, ·)).toList ++
      (context.apiKeyScopeId.map (ScopeType.apiKey, ·)).toList ++
        (context.teamId.map (ScopeType.team, ·)).toList ++
          (context.organizationId.map (ScopeType.organization, ·)).toList

theorem normalizeOptional_some {value : Option String} {id : String}
    (h : normalizeOptional value = some id) : strip id = id ∧ id ≠ "" := by
  obtain ⟨hmap, hne⟩ := Option.filter_eq_some_iff.mp h
  obtain ⟨text, -, rfl⟩ := Option.map_eq_some_iff.mp hmap
  exact ⟨strip_strip text, by simpa using hne⟩

/-- The identifiers of a context are stripped and not empty. -/
structure RuntimeScopeContext.Normalized (context : RuntimeScopeContext) : Prop where
  apiKeyScopeId : ∀ id, context.apiKeyScopeId = some id → strip id = id ∧ id ≠ ""
  userId : ∀ id, context.userId = some id → strip id = id ∧ id ≠ ""
  teamId : ∀ id, context.teamId = some id → strip id = id ∧ id ≠ ""
  organizationId : ∀ id, context.organizationId = some id → strip id = id ∧ id ≠ ""

theorem apiKeyScopeIdOf_some {declared apiKey : Option String} {authSource : AuthSource}
    {id : String}
    (h : apiKeyScopeIdOf declared apiKey authSource = some id) :
    declared = some id ∨ apiKey = some id := by
  cases declared with
  | some scopeId => exact .inl h
  | none =>
      simp only [apiKeyScopeIdOf] at h
      split at h
      · exact .inr h
      · cases h

section

variable (textOf : JsonValue → String) (auth : UserAPIKeyAuth)

theorem resolve_userId :
    (resolveRuntimeScopeContext textOf auth).userId = normalizeOptional auth.userId := rfl

theorem resolve_teamId :
    (resolveRuntimeScopeContext textOf auth).teamId = normalizeOptional auth.teamId := rfl

theorem resolve_organizationId :
    (resolveRuntimeScopeContext textOf auth).organizationId =
      normalizeOptional auth.organizationId := rfl

theorem resolve_apiKeyScopeId :
    ∃ declared authSource, (resolveRuntimeScopeContext textOf auth).apiKeyScopeId =
      apiKeyScopeIdOf (normalizeOptional declared) (normalizeOptional auth.apiKey) authSource :=
  ⟨_, _, rfl⟩

theorem resolve_normalized : (resolveRuntimeScopeContext textOf auth).Normalized := by
  constructor
  · intro id hid
    obtain ⟨declared, authSource, hresolve⟩ := resolve_apiKeyScopeId textOf auth
    rw [hresolve] at hid
    rcases apiKeyScopeIdOf_some hid with hdeclared | hapiKey
    · exact normalizeOptional_some hdeclared
    · exact normalizeOptional_some hapiKey
  · intro id hid
    rw [resolve_userId] at hid
    exact normalizeOptional_some hid
  · intro id hid
    rw [resolve_teamId] at hid
    exact normalizeOptional_some hid
  · intro id hid
    rw [resolve_organizationId] at hid
    exact normalizeOptional_some hid

end

end RuntimeScopes
