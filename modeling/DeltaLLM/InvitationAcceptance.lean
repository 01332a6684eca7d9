import DeltaLLM.AssignedColumns
import DeltaLLM.PlatformIdentity
import DeltaLLM.StreamingCache

/-! # Acceptance of invitations

An account that holds a token takes up the memberships of its invitation. The statements run in one
transaction: a call that raises leaves nothing behind, and one that returns early keeps what it
wrote up to there.
-/
namespace InvitationAcceptance

open AssignedColumns
open CommittedScripts
open JsonValues
open PlatformIdentity
open PlatformRoles
open PythonText (strip)
open StreamingCache (Python orElse)
open TableStatements

/-! ## Tables -/

inductive InvitationStatus where
  | pending | sent | accepted | cancelled | expired
  deriving DecidableEq, Repr

/-- `status IN ('pending', 'sent')`. -/
def InvitationStatus.isOpen : InvitationStatus → Bool
  | .pending | .sent => true
  | .accepted | .cancelled | .expired => false

/-- A row of `deltallm_platforminvitation`, with its metadata as it is parsed. -/
structure InvitationRow where
  invitationId : String
  accountId : String
  email : String
  status : InvitationStatus
  expiresAt : ℤ
  metadata : Option JsonObject
  createdAt : ℤ

/-- A row of `deltallm_emailtoken`. -/
structure EmailTokenRow where
  tokenId : String
  purpose : String
  tokenHash : String
  accountId : String
  invitationId : Option String
  expiresAt : ℤ
  consumedAt : Option ℤ
  deriving DecidableEq

structure InvitationTables where
  identity : Tables
  invitations : List InvitationRow
  tokens : List EmailTokenRow

/-! ## Calls -/

/-- The identity service, the hash of a token for a purpose, and what is taken from Python. -/
structure InvitationService where
  identity : IdentityService
  hashToken : (purpose rawToken : String) → String
  python : Python

inductive InvitationError where
  | service (error : ServiceError)
  | typeError
  deriving DecidableEq, Repr

/-- The statements beside those of the identity service. -/
inductive InvitationStatement where
  | activeToken | invitation | expire | invalidate | authState | claim | accept | account
  deriving DecidableEq

/-- What an acceptance meets: the clock of the process beside that of the database, and the
statements that the database fails. -/
structure AcceptCircumstances extends Circumstances where
  processNow : ℤ
  failsInvitation : InvitationStatement → Bool

abbrev InvitationCall := Script InvitationTables InvitationError

/-- A statement reads, writes or does both; it may fail. -/
def AcceptCircumstances.statement {α : Type} (c : AcceptCircumstances)
    (statement : InvitationStatement) (f : InvitationTables → α × InvitationTables) :
    InvitationCall α := fun s =>
  if c.failsInvitation statement then (.error (.service .databaseError), s)
  else (.ok (f s).1, (f s).2)

/-- A call of the identity service on its part of the tables. -/
def onIdentity {α : Type} (call : Call α) : InvitationCall α := fun s =>
  match call s.identity with
  | (.ok a, identity) => (.ok a, { s with identity })
  | (.error e, identity) => (.error (.service e), { s with identity })

/-- `async with self.db.tx()`: an exception rolls everything back. -/
def inTransaction {α : Type} (call : InvitationCall α) : InvitationCall α := fun s =>
  match call s with
  | (.ok a, t) => (.ok a, t)
  | (.error e, _) => (.error e, s)

/-! ## Memberships -/

/-- The role in a row of `deltallm_organizationmembership`, under its unique key. -/
def organizationRole : Column OrganizationMembershipRow (String × String) String where
  key := OrganizationMembershipRow.key
  read := OrganizationMembershipRow.role
  assign role row := { row with role }
  fresh key role := ⟨key.1, key.2, role⟩
  key_assign _ _ := rfl
  read_assign _ _ := rfl
  key_fresh _ _ := rfl
  read_fresh _ _ := rfl

/-- The role in a row of `deltallm_teammembership`, under its unique key. -/
def teamRole : Column TeamMembershipRow (String × String) String where
  key := TeamMembershipRow.key
  read := TeamMembershipRow.role
  assign role row := { row with role }
  fresh key role := ⟨key.1, key.2, role⟩
  key_assign _ _ := rfl
  read_assign _ _ := rfl
  key_fresh _ _ := rfl
  read_fresh _ _ := rfl

/-- `upsert_organization_membership`. -/
def upsertOrganizationMembership (c : Circumstances) (accountId organizationId role : String) :
    Call Unit :=
  c.run .organizationMembership fun t => .ok
    { t with
      organizationMemberships :=
        organizationRole.upsert (accountId, organizationId) role t.organizationMemberships }

/-- `upsert_team_membership`. -/
def upsertTeamMembership (c : Circumstances) (accountId teamId role : String) : Call Unit :=
  c.run .teamMembership fun t => .ok
    { t with teamMemberships := teamRole.upsert (accountId, teamId) role t.teamMemberships }

/-- `validate_organization_role`. -/
def validateOrganizationRole (role : String) : Except InvitationError String :=
  if strip role ∈ organizationRoles then .ok (strip role)
  else .error (.service (.valueError "invalid organization role"))

/-- `validate_team_role`. -/
def validateTeamRole (role : String) : Except InvitationError String :=
  if strip role ∈ teamRoles then .ok (strip role)
  else .error (.service (.valueError "invalid team role"))

section Invites

variable (py : Python)

/-- `str(item.get(name) or default).strip()`. -/
def strippedField (item : JsonObject) (name default : String) : String :=
  strip (py.text (orElse (JsonObject.get item name) (.str default)))

/-- A role that is blank after stripping is the default. -/
def roleField (item : JsonObject) (default : String) : String :=
  if strippedField py item "role" default = "" then default
  else strippedField py item "role" default

/-- What an entry of `organization_invites` gives. -/
structure OrganizationInvite where
  organizationId : String
  role : String
  deriving DecidableEq

/-- What an entry of `team_invites` gives. -/
structure TeamInvite where
  teamId : String
  role : String
  organizationId : String
  deriving DecidableEq

def readOrganizationInvite (item : JsonObject) : Except InvitationError OrganizationInvite := do
  let organizationId := strippedField py item "organization_id" ""
  let role ← validateOrganizationRole (roleField py item "org_member")
  return ⟨organizationId, role⟩

def readTeamInvite (item : JsonObject) : Except InvitationError TeamInvite := do
  let teamId := strippedField py item "team_id" ""
  let role ← validateTeamRole (roleField py item "team_viewer")
  return ⟨teamId, role, strippedField py item "organization_id" ""⟩

/-- `list(metadata.get(name) or [])`, of which the entries that are no objects are skipped. The
elements of a text and the keys of an object are texts, and no other value can be iterated. -/
def invites (metadata : JsonObject) (name : String) : Except InvitationError (List JsonObject) :=
  match orElse (JsonObject.get metadata name) (.list []) with
  | .list items => .ok (items.filterMap fun
      | .dict item => some item
      | _ => none)
  | .str _ | .dict _ => .ok []
  | .null | .bool _ | .int _ | .float _ => .error .typeError

section Apply

variable (c : Circumstances) (accountId : String)

/-- One entry of `organization_invites`, with the organizations in `explicit_org_roles` before and
after it. -/
def applyOrganizationInvite (explicit : List String) (item : JsonObject) :
    InvitationCall (List String) :=
  match readOrganizationInvite py item with
  | .error e => Script.raise e
  | .ok invite =>
      if invite.organizationId = "" then return explicit
      else do
        onIdentity (upsertOrganizationMembership c accountId invite.organizationId invite.role)
        return invite.organizationId :: explicit

/-- The loop over `organization_invites`. -/
def applyOrganizationInvites (explicit : List String) :
    List JsonObject → InvitationCall (List String)
  | [] => return explicit
  | item :: items => do
      let explicit ← applyOrganizationInvite py c accountId explicit item
      applyOrganizationInvites explicit items

/-- `if organization_id and organization_id not in explicit_org_roles`. -/
def joinOrganizationOfTeam (explicit : List String) (invite : TeamInvite) : InvitationCall Unit :=
  if invite.organizationId ≠ "" ∧ invite.organizationId ∉ explicit then
    onIdentity (upsertOrganizationMembership c accountId invite.organizationId "org_member")
  else return ()

/-- `if team_id`. -/
def joinInvitedTeam (invite : TeamInvite) : InvitationCall Unit :=
  if invite.teamId ≠ "" then
    onIdentity (upsertTeamMembership c accountId invite.teamId invite.role)
  else return ()

/-- One entry of `team_invites`. -/
def applyTeamInvite (explicit : List String) (item : JsonObject) : InvitationCall Unit :=
  match readTeamInvite py item with
  | .error e => Script.raise e
  | .ok invite => do
      joinOrganizationOfTeam c accountId explicit invite
      joinInvitedTeam c accountId invite

/-- The loop over `team_invites`. -/
def applyTeamInvites (explicit : List String) : List JsonObject → InvitationCall Unit
  | [] => return ()
  | item :: items => do
      applyTeamInvite py c accountId explicit item
      applyTeamInvites explicit items

/-- A part of the metadata that cannot be read raises. -/
def ofExcept {α : Type} : Except InvitationError α → InvitationCall α
  | .ok a => pure a
  | .error e => Script.raise e

/-- `_apply_invitation_memberships`. -/
def applyInvitationMemberships (metadata : Option JsonObject) : InvitationCall Unit := do
  let organizationItems ← ofExcept (invites (metadata.getD []) "organization_invites")
  let explicit ← applyOrganizationInvites py c accountId [] organizationItems
  let teamItems ← ofExcept (invites (metadata.getD []) "team_invites")
  applyTeamInvites py c accountId explicit teamItems

end Apply

end Invites

/-! ## Tokens and invitations -/

/-- A token of the purpose with the hash that is neither consumed nor expired. -/
def EmailTokenRow.Active (now : ℤ) (purpose tokenHash : String) (token : EmailTokenRow) : Prop :=
  token.purpose = purpose ∧ token.tokenHash = tokenHash ∧ token.consumedAt = none ∧
    now < token.expiresAt

instance (now : ℤ) (purpose tokenHash : String) :
    DecidablePred (EmailTokenRow.Active now purpose tokenHash) := by
  intro token
  unfold EmailTokenRow.Active
  exact inferInstance

/-- What `invalidate_active` consumes: a blank account or invitation id is not asked for. -/
def EmailTokenRow.Invalidated (now : ℤ) (purpose accountId invitationId : String)
    (token : EmailTokenRow) : Prop :=
  token.purpose = purpose ∧ token.consumedAt = none ∧ now < token.expiresAt ∧
    (accountId = "" ∨ token.accountId = accountId) ∧
      (invitationId = "" ∨ token.invitationId = some invitationId)

instance (now : ℤ) (purpose accountId invitationId : String) :
    DecidablePred (EmailTokenRow.Invalidated now purpose accountId invitationId) := by
  intro token
  unfold EmailTokenRow.Invalidated
  exact inferInstance

section Statements

variable (w : InvitationService) (c : AcceptCircumstances)

/-- `validate_token` for `invite_accept`. -/
def validateToken (rawToken : String) : InvitationCall (Option EmailTokenRow) :=
  c.statement .activeToken fun s =>
    (s.tokens.find? fun token =>
      token.Active c.now "invite_accept" (w.hashToken "invite_accept" rawToken), s)

/-- `claim_token` for `invite_accept`, with the row that RETURNING gives. -/
def claimToken (rawToken : String) : InvitationCall (Option EmailTokenRow) :=
  c.statement .claim fun s =>
    let active := EmailTokenRow.Active c.now "invite_accept" (w.hashToken "invite_accept" rawToken)
    ((s.tokens.find? fun token => active token).map fun token =>
        { token with consumedAt := some c.now },
      { s with
        tokens := updateWhere active (fun token => { token with consumedAt := some c.now })
          s.tokens })

/-- `invalidate_active_tokens` for `invite_accept`. -/
def invalidateActiveTokens (accountId invitationId : String) : InvitationCall Unit :=
  c.statement .invalidate fun s =>
    ((), { s with
      tokens := updateWhere
        (EmailTokenRow.Invalidated c.now "invite_accept" accountId invitationId)
        (fun token => { token with consumedAt := some c.now }) s.tokens })

/-- `get_by_id`. -/
def getInvitationById (invitationId : String) : InvitationCall (Option InvitationRow) :=
  c.statement .invitation fun s =>
    (rowWithKey InvitationRow.invitationId invitationId s.invitations, s)

/-- An open invitation with the id. -/
def InvitationRow.OpenWithId (invitationId : String) (row : InvitationRow) : Prop :=
  row.invitationId = invitationId ∧ row.status.isOpen = true

instance (invitationId : String) : DecidablePred (InvitationRow.OpenWithId invitationId) := by
  intro row
  unfold InvitationRow.OpenWithId
  exact inferInstance

/-- `UPDATE … WHERE invitation_id = $1 AND status IN ('pending', 'sent')`. -/
def closeInvitation (invitationId : String) (status : InvitationStatus)
    (rows : List InvitationRow) : List InvitationRow :=
  updateWhere (InvitationRow.OpenWithId invitationId) (fun row => { row with status }) rows

/-- `mark_expired`. -/
def markExpired (invitationId : String) : InvitationCall Unit :=
  c.statement .expire fun s =>
    ((), { s with invitations := closeInvitation invitationId .expired s.invitations })

/-- `mark_accepted`, with whether a row came back. -/
def markAccepted (invitationId : String) : InvitationCall Bool :=
  c.statement .accept fun s =>
    (s.invitations.any fun row => row.OpenWithId invitationId,
      { s with invitations := closeInvitation invitationId .accepted s.invitations })

/-- `_expire_if_needed`. -/
def expireIfNeeded (invitation : InvitationRow) : InvitationCall InvitationRow := do
  if invitation.status.isOpen = true ∧ invitation.expiresAt ≤ c.processNow then
    markExpired c invitation.invitationId
    invalidateActiveTokens c invitation.accountId invitation.invitationId
    let refreshed ← getInvitationById c invitation.invitationId
    return refreshed.getD invitation
  else return invitation

/-- `AccountAuthState`, of which the acceptance reads two fields. -/
structure AccountAuthState where
  hasLocalPassword : Bool
  hasSsoIdentity : Bool
  deriving DecidableEq

/-- The row that `get_account_auth_state` selects. -/
def authStateOf (t : Tables) (accountId : String) : Option AccountAuthState :=
  (rowWithKey AccountRow.accountId accountId t.accounts).map fun account =>
    { hasLocalPassword := account.passwordHash.any (· ≠ "")
      hasSsoIdentity := t.identities.any fun row => row.accountId = account.accountId }

/-- `get_account_auth_state`. -/
def getAccountAuthState (accountId : String) : InvitationCall (Option AccountAuthState) :=
  c.statement .authState fun s => (authStateOf s.identity accountId, s)

/-- `get_account_by_id`. -/
def getAccountById (accountId : String) : InvitationCall (Option AccountRow) :=
  c.statement .account fun s =>
    (rowWithKey AccountRow.accountId accountId s.identity.accounts, s)

/-- `mark_last_login`, which sets columns that nothing here reads. -/
def markLastLogin : InvitationCall Unit :=
  onIdentity (c.run .lastLogin fun t => .ok t)

/-! ## Accepting -/

/-- `InvitationAcceptResult`. -/
structure AcceptResult where
  accountId : String
  email : String
  role : String
  mfaEnabled : Bool
  forcePasswordChange : Bool
  sessionEstablished : Bool
  nextStep : String
  sessionTokenHash : Option String
  mfaRequired : Bool
  mfaPrompt : Bool
  deriving DecidableEq

/-- `str(value or default)` of a text. -/
def textOr (value default : String) : String := if value = "" then default else value

/-- The result for an account with a second factor, which has to log in. -/
def mfaResult (invitation : InvitationRow) (account : AccountRow) : AcceptResult :=
  { accountId := invitation.accountId, email := textOr account.email invitation.email
    role := textOr account.role "org_user", mfaEnabled := true
    forcePasswordChange := account.forcePasswordChange, sessionEstablished := false
    nextStep := "login", sessionTokenHash := none, mfaRequired := true, mfaPrompt := false }

/-- `_to_accept_result`. -/
def toAcceptResult (login : LoginResult) : AcceptResult :=
  { accountId := login.context.accountId, email := login.context.email
    role := login.context.role, mfaEnabled := login.context.mfaEnabled
    forcePasswordChange := login.context.forcePasswordChange, sessionEstablished := true
    nextStep := "session_established", sessionTokenHash := some login.sessionTokenHash
    mfaRequired := login.mfaRequired, mfaPrompt := login.mfaPrompt }

def AccountAuthState.passwordRequired (authState : AccountAuthState) : Bool :=
  !authState.hasLocalPassword && !authState.hasSsoIdentity

/-- A password is needed where there is neither a password nor an SSO identity, and refused
elsewhere. -/
def checkPassword (authState : AccountAuthState) (password : String) :
    Except InvitationError Unit :=
  if authState.passwordRequired then
    if password = "" then .error (.service (.valueError "password is required"))
    else if password.length < 12 then
      .error (.service (.valueError "password must be at least 12 characters"))
    else .ok ()
  else if password = "" then .ok ()
  else .error
    (.service (.valueError "password cannot be changed when accepting this invitation"))

/-- `raise RuntimeError(text)`. -/
def raiseRuntimeError {α : Type} (text : String) : InvitationCall α :=
  Script.raise (.service (.runtimeError text))

/-- The session of an account without a second factor. -/
def logIn (accountId : String) : InvitationCall AcceptResult := do
  match ← onIdentity (createLoginResultForAccount w.identity c.toCircumstances accountId) with
  | none => raiseRuntimeError "failed to create login session after invitation acceptance"
  | some login =>
      markLastLogin c
      return toAcceptResult login

/-- `if password_required`. -/
def setFirstPassword (accountId : String) (passwordRequired : Bool) (password : String) :
    InvitationCall Unit :=
  if passwordRequired then onIdentity (setPassword c.toCircumstances accountId password)
  else return ()

/-- What follows once the token is claimed. -/
def acceptClaimed (invitation : InvitationRow) (passwordRequired : Bool) (password : String) :
    InvitationCall AcceptResult := do
  setFirstPassword c invitation.accountId passwordRequired password
  applyInvitationMemberships w.python c.toCircumstances invitation.accountId invitation.metadata
  onIdentity (setAccountActive c.toCircumstances invitation.accountId true)
  invalidateActiveTokens c invitation.accountId invitation.invitationId
  if ← markAccepted c invitation.invitationId then
    match ← getAccountById c invitation.accountId with
    | none => raiseRuntimeError "failed to load account after invitation acceptance"
    | some account =>
        if account.mfaEnabled then return mfaResult invitation account
        else logIn w c invitation.accountId
  else raiseRuntimeError "failed to mark invitation accepted"

/-- What follows once the invitation of the token is read. -/
def acceptOpen (rawToken : String) (invitation : InvitationRow) (password : String) :
    InvitationCall (Option AcceptResult) := do
  match ← getAccountAuthState c invitation.accountId with
  | none => return none
  | some authState =>
      ofExcept (checkPassword authState password)
      match ← claimToken w c rawToken with
      | none => return none
      | some claimed =>
          if claimed.invitationId = some invitation.invitationId then
            let result ← acceptClaimed w c invitation authState.passwordRequired password
            return some result
          else return none

/-- `_accept_invitation_with_dependencies`; no password is the empty one, which is refused where one
is needed and accepted where none is. -/
def acceptWithDependencies (rawToken password : String) :
    InvitationCall (Option AcceptResult) := do
  match ((← validateToken w c rawToken).bind EmailTokenRow.invitationId).filter (· ≠ "") with
  | none => return none
  | some invitationId =>
      match ← getInvitationById c invitationId with
      | none => return none
      | some row =>
          let invitation ← expireIfNeeded c row
          if invitation.status.isOpen then acceptOpen w c rawToken invitation password
          else return none

/-- `accept_invitation`. -/
def acceptInvitation (rawToken password : String) : InvitationCall (Option AcceptResult) :=
  inTransaction (acceptWithDependencies w c rawToken password)

end Statements

end InvitationAcceptance
