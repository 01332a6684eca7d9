import DeltaLLM.PlatformIdentity

/-! # Guards of the admin endpoints

Three guards stand before the admin endpoints. Each takes the master key from a header or the
context of the session that the cookie names.
-/
namespace AdminGuards

open PlatformIdentity
open PlatformRoles
open PythonText (strip startsWith lower)

/-- The master keys of the app config and of the settings. -/
structure MasterKeys where
  appConfig : Option String
  settings : Option String

def MasterKeys.configured (keys : MasterKeys) : Option String :=
  ((keys.appConfig.filter (· ≠ "")).or keys.settings).filter (· ≠ "")

/-- A request with its headers, its cookie's session, and the scope of its query. -/
structure GuardedRequest where
  authorization : Option String
  xMasterKey : Option String
  sessionTokenHash : Option String
  organizationId : Option String
  teamId : Option String

inductive GuardError where
  | http (statusCode : ℕ) (detail : String)
  | typeError
  deriving DecidableEq, Repr

def unauthorized (detail : String) : GuardError := .http 401 detail

def forbidden (detail : String) : GuardError := .http 403 detail

/-- What follows `bearer ` in the header, stripped. -/
def bearerText (authorization : Option String) : Option String :=
  (authorization.filter fun header => startsWith (lower header) "bearer ").map fun header =>
    strip (String.ofList (header.toList.drop 7))

/-- `_extract_bearer_token`. -/
def extractBearerToken (authorization : Option String) : Option String :=
  (bearerText authorization).filter (· ≠ "")

/-- `hmac.compare_digest` on texts, which takes ASCII only. -/
def compareDigest (provided configured : String) : Except GuardError Bool :=
  if provided.toList.all (·.toNat < 128) && configured.toList.all (·.toNat < 128) then
    .ok (provided = configured)
  else .error .typeError

/-- `configured and provided and compare_digest(provided, configured)`. -/
def matchesMasterKey (keys : MasterKeys) (provided : Option String) : Except GuardError Bool :=
  match keys.configured, provided.filter (· ≠ "") with
  | some configured, some provided => compareDigest provided configured
  | _, _ => .ok false

/-- `x_master_key or _extract_bearer_token(authorization)`. -/
def GuardedRequest.providedKey (request : GuardedRequest) : Option String :=
  (request.xMasterKey.filter (· ≠ "")).or (extractBearerToken request.authorization)

/-- `get_auth_scope` prefers the other header. -/
def GuardedRequest.scopeKey (request : GuardedRequest) : Option String :=
  (bearerText request.authorization).or request.xMasterKey

/-- `requires_mfa_verification`. -/
def requiresMfaVerification (context : AuthContext) : Bool :=
  context.mfaEnabled && !context.mfaVerified

/-- `has_platform_admin_session`. -/
def hasPlatformAdminSession (context : Option AuthContext) : Bool :=
  context.any fun context => hasPlatformPermission context.role .platformAdmin

/-- `has_scoped_permission`. -/
def hasScopedPermission (context : AuthContext) (permission : Permission)
    (organizationId teamId : Option String) : Bool :=
  let organizationId := organizationId.filter (· ≠ "")
  let teamId := teamId.filter (· ≠ "")
  let byOrganization (row : OrganizationMembershipRow) : Bool :=
    permission ∈ orgRolePermissions row.role
  let byTeam (row : TeamMembershipRow) : Bool := permission ∈ teamRolePermissions row.role
  hasPlatformPermission context.role .platformAdmin ||
    (organizationId.isNone && teamId.isNone &&
      (context.organizationMemberships.any byOrganization ||
        context.teamMemberships.any byTeam)) ||
    (organizationId.any fun id => context.organizationMemberships.any fun row =>
      row.organizationId = id && byOrganization row) ||
    teamId.any fun id => context.teamMemberships.any fun row => row.teamId = id && byTeam row

/-- `AuthScope`. -/
structure AuthScope where
  isPlatformAdmin : Bool
  accountId : Option String
  orgPermissionsById : String → List Permission
  teamPermissionsById : String → List Permission

/-- What a guard lets a request in as. -/
inductive Entry where
  | masterKey
  | platformSession
  | scope (scope : AuthScope)

/-- The scope of a session: the permissions of its memberships, by stripped id. -/
def memberScope (context : AuthContext) : AuthScope :=
  { isPlatformAdmin := false, accountId := some context.accountId
    orgPermissionsById := fun id =>
      (context.organizationMemberships.filter fun row =>
        id ≠ "" ∧ strip row.organizationId = id).flatMap fun row => orgRolePermissions row.role
    teamPermissionsById := fun id =>
      (context.teamMemberships.filter fun row =>
        id ≠ "" ∧ strip row.teamId = id).flatMap fun row => teamRolePermissions row.role }

section Guards

variable (keys : MasterKeys) (request : GuardedRequest) (context : Option AuthContext)

/-- `require_master_key`. -/
def requireMasterKey : Except GuardError Entry := do
  if hasPlatformAdminSession context then return .platformSession
  match keys.configured with
  | none => throw (.http 503 "Master key not configured")
  | some configured =>
      match request.providedKey with
      | none => throw (unauthorized "Invalid master key")
      | some provided =>
          if ← compareDigest provided configured then return .masterKey
          else throw (unauthorized "Invalid master key")

/-- `require_admin_permission`. -/
def requireAdminPermission (permission : Permission) : Except GuardError Entry := do
  if ← matchesMasterKey keys request.providedKey then return .masterKey
  match context with
  | none => throw (unauthorized "Authentication required")
  | some context =>
      if requiresMfaVerification context then throw (forbidden "MFA verification required")
      else if permission = .platformAdmin ∧ hasPlatformAdminSession (some context) then
        return .platformSession
      else if hasScopedPermission context permission request.organizationId request.teamId then
        return .platformSession
      else throw (forbidden "Insufficient permissions")

/-- `get_auth_scope`. -/
def getAuthScope : Except GuardError Entry := do
  if ← matchesMasterKey keys request.scopeKey then
    return .scope ⟨true, none, fun _ => [], fun _ => []⟩
  match context with
  | none => throw (unauthorized "Authentication required")
  | some context =>
      if requiresMfaVerification context then throw (forbidden "MFA verification required")
      else if hasPlatformPermission context.role .platformAdmin then
        return .scope ⟨true, some context.accountId, fun _ => [], fun _ => []⟩
      else return .scope (memberScope context)

inductive Guard where
  | masterKey
  | adminPermission (permission : Permission)
  | authScope

def Guard.run : Guard → Except GuardError Entry
  | .masterKey => requireMasterKey keys request context
  | .adminPermission permission => requireAdminPermission keys request context permission
  | .authScope => getAuthScope keys request context

end Guards

/-! ## Requests without the key -/

section Rejections

variable {keys : MasterKeys} {request : GuardedRequest} {context : Option AuthContext}

/-- One of the two headers holds the configured key. -/
def CarriesMasterKey (keys : MasterKeys) (request : GuardedRequest) : Prop :=
  ∃ key, keys.configured = some key ∧
    (request.xMasterKey = some key ∨ bearerText request.authorization = some key)

theorem compareDigest_true {provided configured : String}
    (h : compareDigest provided configured = .ok true) : provided = configured := by
  unfold compareDigest at h
  split_ifs at h
  exact of_decide_eq_true (Except.ok.inj h)

theorem matchesMasterKey_true {provided : Option String}
    (h : matchesMasterKey keys provided = .ok true) : ∃ key, keys.configured = some key ∧
      provided = some key := by
  unfold matchesMasterKey at h
  split at h
  case h_1 configured key hconfigured hprovided =>
    obtain rfl := compareDigest_true h
    exact ⟨key, hconfigured, (Option.filter_eq_some_iff.mp hprovided).1⟩
  case h_2 => cases h

theorem providedKey_some {key : String} (h : request.providedKey = some key) :
    request.xMasterKey = some key ∨ bearerText request.authorization = some key := by
  rcases Option.or_eq_some_iff.mp h with hheader | ⟨-, hbearer⟩
  · exact Or.inl (Option.filter_eq_some_iff.mp hheader).1
  · exact Or.inr (Option.filter_eq_some_iff.mp hbearer).1

theorem scopeKey_some {key : String} (h : request.scopeKey = some key) :
    request.xMasterKey = some key ∨ bearerText request.authorization = some key := by
  rcases Option.or_eq_some_iff.mp h with hbearer | ⟨-, hheader⟩
  · exact Or.inr hbearer
  · exact Or.inl hheader

/-- Without the key and with a session that still needs its second factor, a guard other than
`require_master_key` rejects, and that one does unless the session is a platform admin's. -/
theorem guard_rejects (guard : Guard) (hkey : ¬CarriesMasterKey keys request)
    (hmfa : ∀ attached, context = some attached → requiresMfaVerification attached = true)
    (hmaster : guard = .masterKey → hasPlatformAdminSession context = false) :
    ∃ error, guard.run keys request context = .error error := by
  cases guard with
  | masterKey =>
      simp only [Guard.run, requireMasterKey, hmaster rfl]
      cases hconfigured : keys.configured with
      | none => exact ⟨_, rfl⟩
      | some configured =>
          cases hprovided : request.providedKey with
          | none => exact ⟨_, rfl⟩
          | some provided =>
              cases hcompared : compareDigest provided configured with
              | error error =>
                  simp only [Bool.false_eq_true, if_false, hcompared]
                  exact ⟨error, rfl⟩
              | ok same =>
                  cases same with
                  | false =>
                      simp only [Bool.false_eq_true, if_false, hcompared]
                      exact ⟨_, rfl⟩
                  | true =>
                      obtain rfl := compareDigest_true hcompared
                      exact absurd ⟨provided, hconfigured, providedKey_some hprovided⟩ hkey
  | adminPermission permission =>
      simp only [Guard.run, requireAdminPermission]
      cases hmatched : matchesMasterKey keys request.providedKey with
      | error error => exact ⟨error, rfl⟩
      | ok same =>
          cases same with
          | true =>
              obtain ⟨key, hconfigured, hprovided⟩ := matchesMasterKey_true hmatched
              exact absurd ⟨key, hconfigured, providedKey_some hprovided⟩ hkey
          | false =>
              cases context with
              | none => exact ⟨_, rfl⟩
              | some attached =>
                  simp only [hmfa attached rfl]
                  exact ⟨_, rfl⟩
  | authScope =>
      simp only [Guard.run, getAuthScope]
      cases hmatched : matchesMasterKey keys request.scopeKey with
      | error error => exact ⟨error, rfl⟩
      | ok same =>
          cases same with
          | true =>
              obtain ⟨key, hconfigured, hprovided⟩ := matchesMasterKey_true hmatched
              exact absurd ⟨key, hconfigured, scopeKey_some hprovided⟩ hkey
          | false =>
              cases context with
              | none => exact ⟨_, rfl⟩
              | some attached =>
                  simp only [hmfa attached rfl]
                  exact ⟨_, rfl⟩

end Rejections

end AdminGuards
