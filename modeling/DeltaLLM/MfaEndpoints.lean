import DeltaLLM.AdminGuards
import DeltaLLM.SsoAccounts
import DeltaLLM.TransitionRuns

/-! # Endpoints around the second factor

Logins, enrolment, verification, password changes and requests to guarded endpoints, one after the
other. A session carries whether it is verified, its account the secret and whether there is one.
-/
namespace MfaEndpoints

open AdminGuards
open CommittedScripts
open PlatformIdentity
open SsoAccounts
open TableStatements
open TransitionRuns

section Endpoints

variable (w : IdentityService) (c : Circumstances)

/-- The context that the middleware attached for the cookie, or a 401. -/
def authenticated (sessionTokenHash : String) : Call AuthContext := do
  match ← c.select .context fun t => getContextForSession c.now t sessionTokenHash with
  | none => Script.raise (.http 401 "Authentication required")
  | some context => return context

/-- `mfa_enroll_start`. -/
def mfaEnrollStart (sessionTokenHash : String) : Call Unit := do
  let context ← authenticated c sessionTokenHash
  let _ ← startMfaEnrollment c context.accountId
  return ()

/-- `mfa_enroll_confirm`. -/
def mfaEnrollConfirm (sessionTokenHash code : String) : Call Unit := do
  let context ← authenticated c sessionTokenHash
  let ok ← confirmMfaEnrollment w c context.accountId code
  if ok then markSessionMfaVerified c sessionTokenHash
  else Script.raise (.http 400 "Invalid MFA code")

/-- `mfa_verify`. -/
def mfaVerify (sessionTokenHash code : String) : Call Unit := do
  let context ← authenticated c sessionTokenHash
  if context.mfaEnabled = false then
    Script.raise (.http 400 "MFA is not enabled for this account")
  else if context.mfaVerified then return ()
  else
    let ok ← verifyMfaForSession w c sessionTokenHash code
    if ok then return () else Script.raise (.http 400 "Invalid MFA code")

/-- The check of the current password in `change_password`. -/
def acceptsCurrentPassword (account : AccountRow) (current : Option String) : Bool :=
  (account.passwordHash.filter (· ≠ "")).all fun passwordHash =>
    current.any fun current => current ≠ "" && w.verifyPassword current passwordHash

/-- `internal_change_password`. -/
def internalChangePassword (sessionTokenHash : String) (current : Option String)
    (newPassword : String) : Call Unit := do
  let context ← authenticated c sessionTokenHash
  if newPassword.length < 12 then
    Script.raise (.http 400 "password must be at least 12 characters")
  else
    let account ← c.select .accountById fun t =>
      rowWithKey AccountRow.accountId context.accountId t.accounts
    if account.any fun account => acceptsCurrentPassword w account current then
      setPassword c context.accountId newPassword
    else Script.raise (.http 400 "Invalid current password")

/-- A reset with an e-mail token, and `admin_set_password`: both revoke the sessions. -/
def resetPassword (accountId newPassword : String) : Call Unit := do
  setPassword c accountId newPassword
  revokeAllSessionsForAccount c accountId

/-- The account that an accepted invitation activates, and its session unless it has a second
factor. -/
def sessionAfterAcceptance (accountId : String) : Call Unit := do
  setAccountActive c accountId true
  let account ← c.select .accountById fun t => rowWithKey AccountRow.accountId accountId t.accounts
  match account with
  | none => Script.raise (.runtimeError "failed to load account after invitation acceptance")
  | some account =>
      if account.mfaEnabled then return ()
      else
        let login ← createLoginResultForAccount w c accountId
        if login.isSome then return ()
        else
          Script.raise
            (.runtimeError "failed to create login session after invitation acceptance")

/-- The parts of `accept_invitation` that concern the account, with the password if it had none. -/
def acceptInvitation (accountId : String) (password : Option String) : Call Unit :=
  match password with
  | none => sessionAfterAcceptance w c accountId
  | some password => do
      setPassword c accountId password
      sessionAfterAcceptance w c accountId

/-- An account without a second factor, under a fresh id. -/
def createAccount (accountId email role : String) (passwordHash : Option String) : Call Unit :=
  c.run .account fun t =>
    match insertNew AccountRow.accountId
        ⟨accountId, email, role, true, false, passwordHash, false, none, none⟩ t.accounts with
    | some accounts => .ok { t with accounts }
    | none => .error .databaseError

/-- `auth_callback`, after the handler's answer. -/
def ssoSignIn (settings : SsoSettings) (response : SsoResponse) : Call Unit :=
  match callbackRequest settings response with
  | .error error => Script.raise error
  | .ok request => do
      let _ ← authCallback w c request
      return ()

end Endpoints

/-! ## The system -/

inductive MfaCall where
  | login (email password : String) (mfaCode : Option String)
  | sso (settings : SsoSettings) (response : SsoResponse)
  | acceptance (accountId : String) (password : Option String)
  | enrollStart (sessionTokenHash : String)
  | enrollConfirm (sessionTokenHash code : String)
  | verify (sessionTokenHash code : String)
  | changePassword (sessionTokenHash : String) (current : Option String) (newPassword : String)
  | passwordReset (accountId newPassword : String)
  | logout (sessionTokenHash : String)
  | newAccount (accountId email role : String) (passwordHash : Option String)
  | guarded (guard : Guard) (request : GuardedRequest)

/-- The code that a call presents. -/
def MfaCall.code : MfaCall → Option String
  | .login _ _ mfaCode => mfaCode
  | .enrollConfirm _ code | .verify _ code => some code
  | _ => none

/-- What a call does to the tables. A guard only reads. -/
def MfaCall.run (w : IdentityService) (c : Circumstances) : MfaCall → Call Unit
  | .login email password mfaCode => do
      let _ ← loginInternal w c email password mfaCode
      return ()
  | .sso settings response => ssoSignIn w c settings response
  | .acceptance accountId password => acceptInvitation w c accountId password
  | .enrollStart sessionTokenHash => mfaEnrollStart c sessionTokenHash
  | .enrollConfirm sessionTokenHash code => mfaEnrollConfirm w c sessionTokenHash code
  | .verify sessionTokenHash code => mfaVerify w c sessionTokenHash code
  | .changePassword sessionTokenHash current newPassword =>
      internalChangePassword w c sessionTokenHash current newPassword
  | .passwordReset accountId newPassword => resetPassword c accountId newPassword
  | .logout sessionTokenHash => revokeSession c sessionTokenHash
  | .newAccount accountId email role passwordHash =>
      createAccount c accountId email role passwordHash
  | .guarded _ _ => pure ()

structure MfaEvent where
  call : MfaCall
  c : Circumstances

/-- An event with the tables before and after it. -/
structure MfaStep where
  before : Tables
  event : MfaEvent
  after : Tables

structure MfaState where
  tables : Tables
  history : List MfaStep

def mfaNext (w : IdentityService) (s : MfaState) (e : MfaEvent) : MfaState :=
  let after := (e.call.run w e.c s.tables).2
  { tables := after, history := s.history ++ [⟨s.tables, e, after⟩] }

/-- Any accounts and sessions may be there at the start. -/
def mfaSystem (w : IdentityService) : TransitionSystem MfaState MfaEvent where
  initial s := (s.tables.sessions.map SessionRow.sessionTokenHash).Nodup ∧
    (s.tables.accounts.map AccountRow.accountId).Nodup ∧ s.history = []
  enabled _ _ := True
  next := mfaNext w

end MfaEndpoints
