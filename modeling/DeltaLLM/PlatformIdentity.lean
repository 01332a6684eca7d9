import DeltaLLM.CommittedScripts
import DeltaLLM.PlatformRoles
import DeltaLLM.PythonText
import DeltaLLM.TableStatements

/-! # Platform accounts and their sessions

The identity service logs accounts in by password or SSO, enrols and verifies second factors and
opens and revokes sessions. Each statement commits by itself; a call that raises leaves what its
earlier statements wrote.
-/
namespace PlatformIdentity

open CommittedScripts
open PlatformRoles
open PythonText (strip)
open TableStatements

/-! ## Tables -/

/-- A row of `deltallm_platformaccount`. -/
structure AccountRow where
  accountId : String
  email : String
  role : String
  isActive : Bool
  forcePasswordChange : Bool
  passwordHash : Option String
  mfaEnabled : Bool
  mfaSecret : Option String
  mfaPendingSecret : Option String
  deriving DecidableEq

/-- A row of `deltallm_platformidentity`. -/
structure IdentityRow where
  identityId : String
  accountId : String
  provider : String
  subject : String
  email : String
  deriving DecidableEq

/-- The unique key of an identity. -/
def IdentityRow.key (row : IdentityRow) : String × String := (row.provider, row.subject)

/-- A row of `deltallm_teammembership`. -/
structure TeamMembershipRow where
  accountId : String
  teamId : String
  role : String
  deriving DecidableEq

def TeamMembershipRow.key (row : TeamMembershipRow) : String × String := (row.accountId, row.teamId)

/-- A row of `deltallm_organizationmembership`. -/
structure OrganizationMembershipRow where
  accountId : String
  organizationId : String
  role : String
  deriving DecidableEq

def OrganizationMembershipRow.key (row : OrganizationMembershipRow) : String × String :=
  (row.accountId, row.organizationId)

/-- A row of `deltallm_platformsession`. -/
structure SessionRow where
  accountId : String
  sessionTokenHash : String
  mfaVerified : Bool
  expiresAt : ℤ
  revokedAt : Option ℤ
  deriving DecidableEq

/-- A row of `deltallm_teamtable`. -/
structure TeamRow where
  teamId : String
  organizationId : Option String
  deriving DecidableEq

structure Tables where
  accounts : List AccountRow
  identities : List IdentityRow
  teamMemberships : List TeamMembershipRow
  organizationMemberships : List OrganizationMembershipRow
  sessions : List SessionRow
  teams : List TeamRow

/-! ## Calls -/

/-- The service: `str.lower` of Python and `lower` of the database, the password and TOTP checks,
and how long a session lives. -/
structure IdentityService where
  pythonLower : String → String
  databaseLower : String → String
  verifyPassword : (password passwordHash : String) → Bool
  verifyTotp : (now : ℤ) → (secret code : String) → Bool
  sessionTtl : ℤ

inductive ServiceError where
  | databaseError
  | valueError (text : String)
  | runtimeError (text : String)
  | http (statusCode : ℕ) (detail : String)
  deriving DecidableEq, Repr

/-- The statements of the service. -/
inductive ServiceStatement where
  | account
  | identity
  | teamMembership
  | team
  | organizationMembership
  | accountOfEmail
  | accountById
  | session
  | context
  | lastLogin
  | credentials
  | pendingSecret
  | startEnrolment
  | confirmEnrolment
  | sessionSecret
  | markVerified
  | password
  | revoke
  | active
  deriving DecidableEq

/-- What one call meets: fresh ids and secrets, the clock, and the statements that the database
fails. -/
structure Circumstances where
  accountId : String
  identityId : String
  sessionTokenHash : String
  passwordHash : String
  mfaSecret : String
  now : ℤ
  fails : ServiceStatement → Bool

abbrev Call := Script Tables ServiceError

/-- A statement that the circumstances may fail. -/
def Circumstances.run (c : Circumstances) (statement : ServiceStatement)
    (f : Tables → Except ServiceError Tables) : Call Unit :=
  Script.write fun t => if c.fails statement then .error .databaseError else f t

/-- A SELECT that the circumstances may fail. -/
def Circumstances.select {α : Type} (c : Circumstances) (statement : ServiceStatement)
    (f : Tables → α) : Call α :=
  if c.fails statement then Script.raise .databaseError else Script.read f

/-! ## Sessions -/

/-- `PlatformAuthContext`. -/
structure AuthContext where
  accountId : String
  email : String
  role : String
  mfaEnabled : Bool
  mfaVerified : Bool
  forcePasswordChange : Bool
  permissions : List Permission
  organizationMemberships : List OrganizationMembershipRow
  teamMemberships : List TeamMembershipRow
  sessionExpiresAt : ℤ

structure LoginResult where
  context : AuthContext
  sessionTokenHash : String
  mfaRequired : Bool
  mfaPrompt : Bool

/-- A session that is neither revoked nor expired. -/
def SessionRow.Live (now : ℤ) (session : SessionRow) : Prop :=
  session.revokedAt = none ∧ now < session.expiresAt

instance (now : ℤ) : DecidablePred (SessionRow.Live now) := by
  intro session
  unfold SessionRow.Live
  exact inferInstance

/-- `get_context_for_session`, by the hash of the token. -/
def getContextForSession (now : ℤ) (t : Tables) (sessionTokenHash : String) :
    Option AuthContext := do
  let session ← t.sessions.find? fun session =>
    session.sessionTokenHash = sessionTokenHash ∧ session.Live now
  let account ← rowWithKey AccountRow.accountId session.accountId t.accounts
  if account.isActive then
    let role := canonicalRole account.role
    some
      { accountId := session.accountId, email := account.email, role
        mfaEnabled := account.mfaEnabled, mfaVerified := session.mfaVerified
        forcePasswordChange := account.forcePasswordChange
        permissions := platformRolePermissions role
        organizationMemberships :=
          t.organizationMemberships.filter fun row => row.accountId = session.accountId
        teamMemberships := t.teamMemberships.filter fun row => row.accountId = session.accountId
        sessionExpiresAt := session.expiresAt }
  else none

section Service

variable (w : IdentityService) (c : Circumstances)

/-- `normalize_email`. -/
def IdentityService.normalizeEmail (email : String) : String := w.pythonLower (strip email)

/-- `WHERE lower(email) = lower($1)`. -/
def accountsOf (t : Tables) (email : String) : List AccountRow :=
  t.accounts.filter fun account => w.databaseLower account.email = w.databaseLower email

/-- The row of a new session. -/
def newSession (accountId : String) (mfaVerified : Bool) : SessionRow :=
  ⟨accountId, c.sessionTokenHash, mfaVerified, c.now + w.sessionTtl, none⟩

/-- The hash of the token is unique. -/
def insertSession (session : SessionRow) (t : Tables) : Except ServiceError Tables :=
  match insertNew SessionRow.sessionTokenHash session t.sessions with
  | some sessions => .ok { t with sessions }
  | none => .error .databaseError

/-- `_create_session`. -/
def createSession (accountId : String) (mfaVerified : Bool) : Call Unit :=
  c.run .session (insertSession (newSession w c accountId mfaVerified))

/-- The context of the session that was opened, if it is found again. -/
def openedContext : Call (Option AuthContext) :=
  c.select .context fun t => getContextForSession c.now t c.sessionTokenHash

/-- A login that asks for no second factor. -/
def Circumstances.loginResult (context : AuthContext) : LoginResult :=
  { context, sessionTokenHash := c.sessionTokenHash, mfaRequired := false
    mfaPrompt := !context.mfaEnabled }

/-- `_create_session_from_email`. -/
def createSessionFromEmail (email : String) (mfaVerified : Bool) : Call Unit := do
  match ← c.select .accountOfEmail fun t => (accountsOf w t email).head? with
  | none => Script.raise (.valueError "account not found")
  | some account => createSession w c account.accountId mfaVerified

/-- `create_login_result_for_account`. -/
def createLoginResultForAccount (accountId : String) : Call (Option LoginResult) := do
  createSession w c accountId false
  let context ← openedContext c
  return context.map c.loginResult

/-- `revoke_session`. -/
def revokeSession (sessionTokenHash : String) : Call Unit :=
  c.run .revoke fun t => .ok
    { t with
      sessions := updateWhere (fun session => session.sessionTokenHash = sessionTokenHash)
        (fun session => { session with revokedAt := some c.now }) t.sessions }

/-- `revoke_all_sessions_for_account`. -/
def revokeAllSessionsForAccount (accountId : String) : Call Unit :=
  c.run .revoke fun t => .ok
    { t with
      sessions := updateWhere
        (fun session => session.accountId = accountId ∧ session.revokedAt = none)
        (fun session => { session with revokedAt := some c.now }) t.sessions }

/-! ## Accounts -/

/-- An UPDATE by account id. -/
def updateAccount (statement : ServiceStatement) (accountId : String)
    (f : AccountRow → AccountRow) :
    Call Unit :=
  c.run statement fun t => .ok
    { t with accounts := updateWhere (fun account => account.accountId = accountId) f t.accounts }

/-- `set_account_active`. -/
def setAccountActive (accountId : String) (isActive : Bool) : Call Unit :=
  updateAccount c .active accountId fun account => { account with isActive }

/-- `set_password`, which checks `validate_password_policy` first. -/
def setPassword (accountId newPassword : String) : Call Unit :=
  if newPassword.length < 12 then
    Script.raise (.valueError "password must be at least 12 characters")
  else updateAccount c .password accountId fun account =>
    { account with passwordHash := some c.passwordHash, forcePasswordChange := false }

/-- The password and the code that `login_internal` asks for. -/
def acceptsCredentials (account : AccountRow) (password : String) (mfaCode : Option String) :
    Bool :=
  account.isActive && account.passwordHash.any (w.verifyPassword password) &&
    (!account.mfaEnabled || mfaCode.any fun code =>
      code ≠ "" && account.mfaSecret.any fun secret => w.verifyTotp c.now secret code)

/-- `login_internal`. -/
def loginInternal (email password : String) (mfaCode : Option String) :
    Call (Option LoginResult) := do
  match ← c.select .credentials fun t => (accountsOf w t (w.normalizeEmail email)).head? with
  | none => return none
  | some account =>
      if acceptsCredentials w c account password mfaCode then
        createSession w c account.accountId account.mfaEnabled
        match ← openedContext c with
        | none => return none
        | some context =>
            c.run .lastLogin fun t => .ok t
            return some
              { context, sessionTokenHash := c.sessionTokenHash, mfaRequired := account.mfaEnabled
                mfaPrompt := !account.mfaEnabled }
      else return none

/-! ## The second factor -/

/-- `start_mfa_enrollment`. -/
def startMfaEnrollment (accountId : String) : Call String := do
  updateAccount c .startEnrolment accountId fun account =>
    { account with mfaPendingSecret := some c.mfaSecret }
  return c.mfaSecret

/-- `confirm_mfa_enrollment`. -/
def confirmMfaEnrollment (accountId code : String) : Call Bool := do
  match ← c.select .pendingSecret fun t =>
      (rowWithKey AccountRow.accountId accountId t.accounts).bind AccountRow.mfaPendingSecret with
  | none => return false
  | some secret =>
      if w.verifyTotp c.now secret code then
        updateAccount c .confirmEnrolment accountId fun account =>
          { account with mfaSecret := some secret, mfaEnabled := true, mfaPendingSecret := none }
        return true
      else return false

/-- `mark_session_mfa_verified`. -/
def markSessionMfaVerified (sessionTokenHash : String) : Call Unit :=
  c.run .markVerified fun t => .ok
    { t with
      sessions := updateWhere
        (fun session => session.sessionTokenHash = sessionTokenHash ∧ session.Live c.now)
        (fun session => { session with mfaVerified := true }) t.sessions }

/-- The secret that a live session of an active account with a second factor is verified against. -/
def secretOfSession (now : ℤ) (t : Tables) (sessionTokenHash : String) : Option String := do
  let session ← t.sessions.find? fun session =>
    session.sessionTokenHash = sessionTokenHash ∧ session.Live now
  let account ← rowWithKey AccountRow.accountId session.accountId t.accounts
  if account.isActive ∧ account.mfaEnabled then account.mfaSecret else none

/-- `verify_mfa_for_session`. -/
def verifyMfaForSession (sessionTokenHash code : String) : Call Bool := do
  match ← c.select .sessionSecret fun t => secretOfSession c.now t sessionTokenHash with
  | none => return false
  | some secret =>
      if w.verifyTotp c.now secret code then
        markSessionMfaVerified c sessionTokenHash
        return true
      else return false

/-! ## Memberships -/

/-- INSERT … SELECT over the accounts with an e-mail, ON CONFLICT DO UPDATE of the role. -/
def upsertTeamMemberships (t : Tables) (accounts : List AccountRow) (teamId role : String) :
    Tables :=
  { t with
    teamMemberships := accounts.foldl
      (fun rows account => insertOrUpdate TeamMembershipRow.key (fun row => { row with role })
        ⟨account.accountId, teamId, role⟩ rows) t.teamMemberships }

def upsertOrganizationMemberships (t : Tables) (accounts : List AccountRow)
    (organizationId role : String) : Tables :=
  { t with
    organizationMemberships := accounts.foldl
      (fun rows account => insertOrUpdate OrganizationMembershipRow.key
        (fun row => { row with role }) ⟨account.accountId, organizationId, role⟩ rows)
      t.organizationMemberships }

/-! ## SSO -/

/-- The arguments of `upsert_sso_account`. -/
structure SsoRequest where
  email : String
  isPlatformAdmin : Bool
  provider : String
  subject : Option String
  teamId : Option String
  defaultTeamRole : String

/-- `subject or normalized_email`. -/
def SsoRequest.identitySubject (request : SsoRequest) : String :=
  match request.subject with
  | some subject => if subject = "" then w.normalizeEmail request.email else subject
  | none => w.normalizeEmail request.email

def SsoRequest.role (request : SsoRequest) : String :=
  if request.isPlatformAdmin then "platform_admin" else "org_user"

/-- The first statement: an account by e-mail, with the role and active. A new one has a new id. -/
def upsertAccount (t : Tables) (accountId email role : String) : Except ServiceError Tables :=
  if (∃ account ∈ t.accounts, account.email = email) ∨
      ∀ account ∈ t.accounts, account.accountId ≠ accountId then
    .ok { t with
      accounts := insertOrUpdate AccountRow.email
        (fun account => { account with role, isActive := true })
        ⟨accountId, email, role, true, false, none, false, none, none⟩ t.accounts }
  else .error .databaseError

/-- A row for each account with the e-mail. Two rows with the key of one statement raise. -/
def upsertIdentity (t : Tables) (identityId provider subject email : String) :
    Except ServiceError Tables :=
  match accountsOf w t email with
  | [] => .ok t
  | [account] =>
      .ok { t with
        identities := insertOrUpdate IdentityRow.key (fun row => { row with email })
          ⟨identityId, account.accountId, provider, subject, email⟩ t.identities }
  | _ :: _ :: _ => .error .databaseError

/-- The memberships of the team and of its organization. -/
def upsertMemberships (email teamId defaultTeamRole : String) : Call Unit := do
  c.run .teamMembership fun t =>
    .ok (upsertTeamMemberships t (accountsOf w t email) teamId defaultTeamRole)
  let team ← c.select .team fun t => rowWithKey TeamRow.teamId teamId t.teams
  match (team.bind TeamRow.organizationId).filter (· ≠ "") with
  | none => pure ()
  | some organizationId =>
      c.run .organizationMembership fun t =>
        .ok (upsertOrganizationMemberships t (accountsOf w t email) organizationId "org_member")

/-- `if not is_platform_admin and team_id`. -/
def joinTeam (email : String) (request : SsoRequest) : Call Unit :=
  match request.teamId.filter (· ≠ "") with
  | some teamId =>
      if request.isPlatformAdmin then pure ()
      else upsertMemberships w c email teamId request.defaultTeamRole
  | none => pure ()

/-- `upsert_sso_account`. -/
def upsertSsoAccount (request : SsoRequest) : Call (Option LoginResult) := do
  let email := w.normalizeEmail request.email
  c.run .account fun t => upsertAccount t c.accountId email request.role
  c.run .identity fun t =>
    upsertIdentity w t c.identityId request.provider (request.identitySubject w) email
  joinTeam w c email request
  createSessionFromEmail w c email false
  let context ← openedContext c
  return context.map c.loginResult

end Service

/-! ## Statements that keep a property, and returns -/

section Calls

variable {c : Circumstances} {t u : Tables} {P : Tables → Prop}

theorem run_keeps (statement : ServiceStatement) {f : Tables → Except ServiceError Tables}
    (h : ∀ s t, P s → f s = .ok t → P t) : Keeps P (c.run statement f) := by
  refine keeps_write fun s t hs hwrite => ?_
  split_ifs at hwrite
  exact h s t hs hwrite

theorem select_keeps {α : Type} (statement : ServiceStatement) (f : Tables → α) :
    Keeps P (c.select statement f) := by
  unfold Circumstances.select
  split_ifs
  · exact keeps_raise _
  · exact keeps_read f

theorem run_returns {statement : ServiceStatement} {f : Tables → Except ServiceError Tables}
    (h : c.run statement f t = (.ok (), u)) : f t = .ok u := by
  have hwrite := write_returns.mp h
  split_ifs at hwrite
  exact hwrite

theorem select_returns {α : Type} {statement : ServiceStatement} {f : Tables → α} {a : α}
    (h : c.select statement f t = (.ok a, u)) : f t = a ∧ t = u := by
  unfold Circumstances.select at h
  split_ifs at h
  · cases h
  · exact read_returns.mp h

/-- A SELECT leaves the tables as they are. -/
theorem select_ends {α : Type} {Q : α → Tables → Prop} {E : Tables → Prop}
    (statement : ServiceStatement) {f : Tables → α} (h : ∀ s, P s → Q (f s) s)
    (hfailed : ∀ s, P s → E s) : Ends P (c.select statement f) Q E := by
  unfold Circumstances.select
  split_ifs
  · exact ends_raise hfailed
  · exact fun s hs => h s hs

/-- A statement that fails leaves the tables as they are. -/
theorem run_ends {Q E : Tables → Prop} (statement : ServiceStatement)
    {f : Tables → Except ServiceError Tables} (h : ∀ s t, P s → f s = .ok t → Q t)
    (hfailed : ∀ s, P s → E s) : Ends P (c.run statement f) (fun _ => Q) E := by
  intro s hs
  by_cases hfails : c.fails statement = true
  · have hrun : c.run statement f s = (.error .databaseError, s) := by
      simp [Circumstances.run, Script.write, hfails]
    rw [hrun]
    exact hfailed s hs
  · cases hf : f s with
    | error e =>
        have hrun : c.run statement f s = (.error e, s) := by
          simp [Circumstances.run, Script.write, hfails, hf]
        rw [hrun]
        exact hfailed s hs
    | ok t =>
        have hrun : c.run statement f s = (.ok (), t) := by
          simp [Circumstances.run, Script.write, hfails, hf]
        rw [hrun]
        exact h s t hs hf

end Calls

/-! ## What the statements write -/

section Effects

variable {w : IdentityService} {c : Circumstances} {t u : Tables}

theorem insertSession_ok {session : SessionRow} (h : insertSession session t = .ok u) :
    (∀ other ∈ t.sessions, other.sessionTokenHash ≠ session.sessionTokenHash) ∧
      u = { t with sessions := t.sessions ++ [session] } := by
  unfold insertSession at h
  split at h
  case h_1 sessions hsome =>
    obtain ⟨hfree, rfl⟩ := insertNew_some hsome
    exact ⟨hfree, (Except.ok.inj h).symm⟩
  case h_2 => cases h

theorem upsertAccount_ok {accountId email role : String}
    (h : upsertAccount t accountId email role = .ok u) :
    ((∃ account ∈ t.accounts, account.email = email) ∨
        ∀ account ∈ t.accounts, account.accountId ≠ accountId) ∧
      u = { t with
        accounts := insertOrUpdate AccountRow.email
          (fun account => { account with role, isActive := true })
          ⟨accountId, email, role, true, false, none, false, none, none⟩ t.accounts } := by
  unfold upsertAccount at h
  split_ifs at h with hfree
  exact ⟨hfree, (Except.ok.inj h).symm⟩

theorem upsertIdentity_ok {identityId provider subject email : String}
    (h : upsertIdentity w t identityId provider subject email = .ok u) :
    (accountsOf w t email = [] ∧ u = t) ∨
      ∃ account, accountsOf w t email = [account] ∧ u = { t with
        identities := insertOrUpdate IdentityRow.key (fun row => { row with email })
          ⟨identityId, account.accountId, provider, subject, email⟩ t.identities } := by
  unfold upsertIdentity at h
  split at h
  case h_1 hnone =>
    cases h
    exact Or.inl ⟨hnone, rfl⟩
  case h_2 account hone =>
    cases h
    exact Or.inr ⟨account, hone, rfl⟩
  case h_3 => cases h

/-- The session and the account that a context was read from. -/
theorem getContextForSession_some {now : ℤ} {sessionTokenHash : String} {context : AuthContext}
    (h : getContextForSession now t sessionTokenHash = some context) :
    ∃ session ∈ t.sessions, session.sessionTokenHash = sessionTokenHash ∧ session.Live now ∧
      context.accountId = session.accountId ∧ context.mfaVerified = session.mfaVerified ∧
        ∃ account ∈ t.accounts, account.accountId = session.accountId ∧
          context.mfaEnabled = account.mfaEnabled := by
  obtain ⟨session, hsession, h⟩ := Option.bind_eq_some_iff.mp h
  obtain ⟨account, haccount, hcontext⟩ := Option.bind_eq_some_iff.mp h
  have hfound := List.find?_some hsession
  simp only [decide_eq_true_eq] at hfound
  obtain ⟨hmem, hid⟩ := rowWithKey_some haccount
  by_cases hactive : account.isActive = true
  · rw [if_pos hactive] at hcontext
    obtain rfl := Option.some.inj hcontext
    exact ⟨session, List.mem_of_find?_eq_some hsession, hfound.1, hfound.2, rfl, rfl, account, hmem,
      hid, rfl⟩
  · rw [if_neg hactive] at hcontext
    cases hcontext

/-- The tables that memberships do not touch. -/
structure SameCore (t u : Tables) : Prop where
  accounts : u.accounts = t.accounts
  identities : u.identities = t.identities
  sessions : u.sessions = t.sessions

theorem joinTeam_keeps (t : Tables) (email : String) (request : SsoRequest) :
    Keeps (SameCore t) (joinTeam w c email request) := by
  unfold joinTeam
  split
  · split_ifs
    · exact keeps_pure ()
    · refine (run_keeps _ ?_).bind fun _ => (select_keeps _ _).bind fun team => ?_
      · rintro s u hs ⟨⟩
        exact ⟨hs.accounts, hs.identities, hs.sessions⟩
      · split
        · exact keeps_pure ()
        · refine run_keeps _ ?_
          rintro s u hs ⟨⟩
          exact ⟨hs.accounts, hs.identities, hs.sessions⟩
  · exact keeps_pure ()

/-- An SSO login keeps what each of its writes keeps. -/
theorem upsertSsoAccount_keeps {P : Tables → Prop} (request : SsoRequest)
    (haccount : ∀ s u, P s →
      upsertAccount s c.accountId (w.normalizeEmail request.email) request.role = .ok u → P u)
    (hidentity : ∀ s u, P s → upsertIdentity w s c.identityId request.provider
      (request.identitySubject w) (w.normalizeEmail request.email) = .ok u → P u)
    (hcore : ∀ s u, P s → SameCore s u → P u)
    (hsession : ∀ accountId s u, P s →
      insertSession (newSession w c accountId false) s = .ok u → P u) :
    Keeps P (upsertSsoAccount w c request) := by
  refine (run_keeps _ haccount).bind fun _ => (run_keeps _ hidentity).bind fun _ =>
    Keeps.bind ?_ fun _ => Keeps.bind ?_ fun _ => (select_keeps _ _).bind fun _ => keeps_pure _
  · exact fun s hs => hcore s _ hs (joinTeam_keeps s _ request s ⟨rfl, rfl, rfl⟩)
  · refine (select_keeps _ _).bind fun account => ?_
    cases account with
    | none => exact keeps_raise _
    | some account => exact run_keeps _ (hsession account.accountId)

end Effects

/-- A service on ASCII texts, with codes that are the secret and passwords that are their hash. -/
def asciiService : IdentityService :=
  { pythonLower := PythonText.lower, databaseLower := PythonText.lower
    verifyPassword := fun password passwordHash => password = passwordHash
    verifyTotp := fun _ secret code => secret = code, sessionTtl := 12 }

end PlatformIdentity
