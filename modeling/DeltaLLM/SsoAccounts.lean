import DeltaLLM.JsonValues
import DeltaLLM.PlatformIdentity
import DeltaLLM.TransitionRuns

/-! # Accounts of an SSO sign-in

The callback of the identity provider creates or updates an account by e-mail, stores the identity
of provider and subject, and opens a session for the account with the e-mail. E-mails of accounts
may change, and other calls create accounts.
-/
namespace SsoAccounts

open CommittedScripts
open JsonValues (JsonValue)
open PlatformIdentity
open TableStatements
open TransitionRuns

/-- The settings `sso_provider` and `sso_admin_email_list`. -/
structure SsoSettings where
  provider : String
  adminEmails : List String

/-- The answer of the handler, with the e-mail as the provider gave it. -/
structure SsoResponse where
  userId : Option String
  email : JsonValue
  teamId : Option String

/-- The request that `auth_callback` makes of the answer. -/
def callbackRequest (settings : SsoSettings) (response : SsoResponse) :
    Except ServiceError SsoRequest :=
  match response.email with
  | .str email =>
      if email = "" then .error (.http 400 "Invalid SSO email")
      else .ok
        { email, isPlatformAdmin := email ∈ settings.adminEmails, provider := settings.provider
          subject := some ((response.userId.filter (· ≠ "")).getD email)
          teamId := response.teamId, defaultTeamRole := "team_viewer" }
  | _ => .error (.http 400 "Invalid SSO email")

/-- The part of `auth_callback` after the handler's answer. -/
def authCallback (w : IdentityService) (c : Circumstances) (request : SsoRequest) :
    Call LoginResult := do
  match ← upsertSsoAccount w c request with
  | none => Script.raise (.http 500 "Failed to establish session")
  | some login => return login

/-! ## The system -/

/-- A successful sign-in and the account of its session. -/
structure SignInRecord where
  provider : String
  subject : String
  accountId : String
  deriving DecidableEq

structure SsoState where
  tables : Tables
  signIns : List SignInRecord

inductive SsoEvent where
  | callback (settings : SsoSettings) (response : SsoResponse) (c : Circumstances)
  | changeEmail (accountId email : String)
  | createAccount (account : AccountRow)

/-- E-mails and account ids are unique. -/
def ssoEnabled (s : SsoState) : SsoEvent → Prop
  | .callback _ _ _ => True
  | .changeEmail _ email => ∀ account ∈ s.tables.accounts, account.email ≠ email
  | .createAccount account => ∀ other ∈ s.tables.accounts,
      other.accountId ≠ account.accountId ∧ other.email ≠ account.email

section System

variable (w : IdentityService)

def SsoState.signIn (s : SsoState) (c : Circumstances) (request : SsoRequest) : SsoState :=
  match authCallback w c request s.tables with
  | (.error _, tables) => { s with tables }
  | (.ok login, tables) =>
      { tables
        signIns := s.signIns ++
          [⟨request.provider, request.identitySubject w, login.context.accountId⟩] }

def ssoNext (s : SsoState) : SsoEvent → SsoState
  | .callback settings response c =>
      match callbackRequest settings response with
      | .error _ => s
      | .ok request => s.signIn w c request
  | .changeEmail accountId email =>
      { s with tables := { s.tables with
          accounts := updateWhere (fun account => account.accountId = accountId)
            (fun account => { account with email }) s.tables.accounts } }
  | .createAccount account =>
      { s with tables := { s.tables with accounts := s.tables.accounts ++ [account] } }

/-- Any accounts and identities may be there at the start. -/
def ssoSystem : TransitionSystem SsoState SsoEvent where
  initial s := (s.tables.identities.map IdentityRow.key).Nodup ∧ s.signIns = []
  enabled := ssoEnabled
  next := ssoNext w

end System

end SsoAccounts
