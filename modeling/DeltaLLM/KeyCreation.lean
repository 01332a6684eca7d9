import DeltaLLM.CalendarDates
import DeltaLLM.CheckedResults
import DeltaLLM.JsonValues
import DeltaLLM.PlatformRoles
import DeltaLLM.PythonText
import DeltaLLM.TableStatements
import DeltaLLM.TransitionRuns

/-! # Creation of API keys

`create_key` reads the team, the self-service policy, the number of keys of the caller and the
limits of the team in one statement each, and inserts the key in another. The statements of any
number of requests interleave. Moments are microseconds from the start of year 1.
-/
namespace KeyCreation

open CalendarDates (microsecondsPerDay daysBeforeYear maxYear)
open JsonValues (JsonFloat JsonValue JsonObject)
open PlatformRoles (Permission)
open PythonText
open TableStatements
open TransitionRuns

/-- What a request ends with: an HTTPException, an OverflowError or an error of the database. -/
inductive KeyError where
  | http (statusCode : ℕ) (detail : String)
  | overflowError
  | databaseError
  deriving DecidableEq, Repr

def badRequest (detail : String) : KeyError := .http 400 detail

def forbidden (detail : String) : KeyError := .http 403 detail

/-! ## Values of the payload -/

/-- What `fromisoformat` reads: the time on the clock and the offset from UTC, if the text has
one. -/
structure IsoDateTime where
  wallClock : ℤ
  utcOffset : Option ℤ

/-- A time without an offset is taken as UTC. -/
def IsoDateTime.instant (value : IsoDateTime) : ℤ := value.wallClock - value.utcOffset.getD 0

/-- Python's `float` on integers and texts, none where it raises OverflowError or ValueError, `str`
on values that are no text, and `datetime.fromisoformat`. -/
structure Builtins where
  floatOfInt : ℤ → Option JsonFloat
  floatOfText : String → Option JsonFloat
  textOfOther : JsonValue → String
  fromIsoformat : String → Option IsoDateTime

inductive ConversionFault where
  | typeOrValueError
  | overflowError

/-- `except (TypeError, ValueError)`, which an OverflowError passes. -/
def ConversionFault.caught (detail : String) : ConversionFault → KeyError
  | .typeOrValueError => badRequest detail
  | .overflowError => .overflowError

/-- `float(value)`. -/
def floatOf (builtins : Builtins) : JsonValue → Except ConversionFault JsonFloat
  | .bool b => .ok (.finite (if b then 1 else 0))
  | .int n =>
      match builtins.floatOfInt n with
      | some x => .ok x
      | none => .error .overflowError
  | .float x => .ok x
  | .str text =>
      match builtins.floatOfText text with
      | some x => .ok x
      | none => .error .typeOrValueError
  | _ => .error .typeOrValueError

/-- `int(value)`. -/
def intOf : JsonValue → Except ConversionFault ℤ
  | .bool b => .ok (if b then 1 else 0)
  | .int n => .ok n
  | .float (.finite q) => .ok (q.num.tdiv q.den)
  | .float (.infinity _) => .error .overflowError
  | .str text =>
      match intOfText text with
      | some n => .ok n
      | none => .error .typeOrValueError
  | _ => .error .typeOrValueError

/-- `str(value)`. -/
def textOf (builtins : Builtins) : JsonValue → String
  | .str text => text
  | value => builtins.textOfOther value

/-- `a < b` of floats, which no NaN satisfies. -/
def floatLt : JsonFloat → JsonFloat → Bool
  | .finite a, .finite b => a < b
  | .finite _, .infinity negative => !negative
  | .infinity negative, .finite _ => negative
  | .infinity a, .infinity b => a && !b
  | .nan, _ => false
  | _, .nan => false

/-- `a <= b` of floats. -/
def floatLe (a b : JsonFloat) : Bool := a ≠ .nan && b ≠ .nan && !floatLt b a

/-- `str(value or "").strip()`. -/
def trimmed (builtins : Builtins) (value : JsonValue) : String :=
  if value.truthy then strip (textOf builtins value) else ""

/-- `text or None`. -/
def orNone (text : String) : Option String := if text = "" then none else some text

/-- `expires.replace("Z", "+00:00")`. -/
def withOffset (expires : String) : String :=
  String.ofList (expires.toList.flatMap fun c => if c = 'Z' then "+00:00".toList else [c])

/-! ## Tables -/

structure RateLimits (α : Type) where
  rpm : α
  tpm : α
  rph : α
  rpd : α
  tpd : α

def RateLimits.named {α : Type} (limits : RateLimits α) : List (String × α) :=
  [("rpm_limit", limits.rpm), ("tpm_limit", limits.tpm), ("rph_limit", limits.rph),
    ("rpd_limit", limits.rpd), ("tpd_limit", limits.tpd)]

/-- The columns `self_service_…` of a team. -/
structure SelfServicePolicy where
  enabled : Bool
  maxKeysPerUser : Option ℤ
  budgetCeiling : Option JsonFloat
  requireExpiry : Bool
  maxExpiryDays : Option ℤ

/-- A row of `deltallm_teamtable`. -/
structure TeamRow where
  teamId : String
  organizationId : Option String
  policy : SelfServicePolicy
  limits : RateLimits (Option ℤ)

/-- A row of `deltallm_serviceaccount`. -/
structure ServiceAccountRow where
  serviceAccountId : String
  teamId : String
  isActive : Bool

/-- A row of `deltallm_usertable`. -/
structure RuntimeUserRow where
  userId : String
  teamId : Option String

/-- A row of `deltallm_verificationtoken`. -/
structure KeyRow where
  token : String
  keyName : String
  userId : Option String
  teamId : Option String
  ownerAccountId : Option String
  ownerServiceAccountId : Option String
  maxBudget : Option JsonFloat
  limits : RateLimits (Option ℤ)
  expires : Option ℤ
  createdAt : ℤ

/-- How the database reads a parameter for a column, none where the statement fails. It reads a
number as Python does; a timestamp without time zone drops the offset of its text. -/
structure Columns (builtins : Builtins) where
  double : JsonValue → Option JsonFloat
  integer : JsonValue → Option ℤ
  timestamp : String → Option ℤ
  double_floatOf : ∀ {value stored read}, double value = some stored →
    floatOf builtins value = .ok read → stored = read

/-- The tables that no key creation changes, and how values are read. -/
structure Gateway where
  builtins : Builtins
  columns : Columns builtins
  teams : List TeamRow
  accountIds : List String
  serviceAccounts : List ServiceAccountRow
  users : List RuntimeUserRow

/-- `COUNT(*)` over the keys of an account in a team; nothing equals NULL. -/
def countOwned (teamId : String) (accountId : Option String) (keys : List KeyRow) : ℕ :=
  keys.countP fun row =>
    row.teamId = some teamId ∧ accountId.isSome ∧ row.ownerAccountId = accountId

/-! ## Requests -/

/-- `AuthScope`, as `get_auth_scope` returns it. -/
structure AuthScope where
  isPlatformAdmin : Bool
  accountId : Option String
  orgPermissionsById : String → List Permission
  teamPermissionsById : String → List Permission

/-- The locals of `create_key`, with the account of the session. -/
structure KeyRequest where
  scope : AuthScope
  contextAccountId : Option String
  keyName : String
  userId : Option String
  teamId : String
  ownerAccountId : Option String
  ownerServiceAccountId : Option String
  maxBudget : JsonValue
  limits : RateLimits JsonValue
  expires : Option String

/-- The part of `create_key` before its first statement. -/
def readPayload (builtins : Builtins) (scope : AuthScope) (contextAccountId : Option String)
    (payload : JsonObject) : Except KeyError KeyRequest := do
  if (payload.get? "models").isSome then
    throw (badRequest "models is no longer supported; use callable-target bindings instead")
  let expires ← match payload.get "expires" with
    | .null => pure none
    | .str text => pure (some text)
    | _ => throw (badRequest "expires must be a string datetime")
  let keyName := trimmed builtins (payload.get "key_name")
  let teamId := trimmed builtins (payload.get "team_id")
  if keyName = "" then throw (badRequest "key_name is required")
  if teamId = "" then throw (badRequest "team_id is required")
  return { scope, contextAccountId, keyName, teamId, expires
           userId := orNone (trimmed builtins (payload.get "user_id"))
           ownerAccountId := orNone (trimmed builtins (payload.get "owner_account_id"))
           ownerServiceAccountId :=
             orNone (trimmed builtins (payload.get "owner_service_account_id"))
           maxBudget := payload.get "max_budget"
           limits := ⟨payload.get "rpm_limit", payload.get "tpm_limit", payload.get "rph_limit",
             payload.get "rpd_limit", payload.get "tpd_limit"⟩ }

/-- `_scope_has_permission`. -/
def scopeHasPermission (scope : AuthScope) (organizationId : Option String) (teamId : String)
    (permission : Permission) : Bool :=
  scope.isPlatformAdmin || (teamId ≠ "" && permission ∈ scope.teamPermissionsById teamId) ||
    organizationId.any fun id => permission ∈ scope.orgPermissionsById id

inductive AccessMode where
  | admin
  | selfService

/-- `_resolve_key_access_mode`. -/
def resolveKeyAccessMode (scope : AuthScope) (organizationId : Option String) (teamId : String) :
    Except KeyError AccessMode :=
  if scopeHasPermission scope organizationId teamId .keyUpdate then .ok .admin
  else if scopeHasPermission scope organizationId teamId .keyCreateSelf then .ok .selfService
  else .error (forbidden "Insufficient permissions")

/-- The owner of a self-service key is the caller. -/
def KeyRequest.forCaller (request : KeyRequest) : KeyRequest :=
  { request with
    ownerAccountId := request.scope.accountId, ownerServiceAccountId := none, userId := none }

/-! ## The self-service policy -/

/-- `_get_self_service_policy`. -/
def getSelfServicePolicy (teams : List TeamRow) (teamId : String) : SelfServicePolicy :=
  match rowWithKey TeamRow.teamId teamId teams with
  | some team => team.policy
  | none => ⟨false, none, none, false, none⟩

section Checks

variable (builtins : Builtins) (policy : SelfServicePolicy)

def checkEnabled : Except KeyError Unit :=
  if policy.enabled then .ok ()
  else .error (forbidden "Self-service key creation is not enabled for this team")

def checkCount (currentCount : ℕ) : Except KeyError Unit :=
  match policy.maxKeysPerUser with
  | none => .ok ()
  | some maxKeys =>
      if maxKeys ≤ currentCount then
        .error (forbidden
          s!"You have reached the maximum of {maxKeys} self-service keys for this team")
      else .ok ()

def checkBudget (maxBudget : JsonValue) : Except KeyError Unit :=
  match policy.budgetCeiling, maxBudget with
  | none, _ => .ok ()
  | some ceiling, .null =>
      .error (badRequest ("A budget (max_budget) is required for self-service keys on this team " ++
        s!"(ceiling: ${textOf builtins (.float ceiling)})"))
  | some ceiling, value => do
      let budget ← (floatOf builtins value).mapError
        (ConversionFault.caught "max_budget must be a valid number")
      if floatLt budget (.finite 0) || floatLt ceiling budget then
        throw (badRequest s!"Budget must be between $0 and ${textOf builtins (.float ceiling)}")

/-- `not expires`. -/
def NotGiven (expires : Option String) : Prop := expires.getD "" = ""

instance (expires : Option String) : Decidable (NotGiven expires) := by
  unfold NotGiven
  exact inferInstance

def checkExpiryGiven (expires : Option String) : Except KeyError Unit :=
  if policy.requireExpiry ∧ NotGiven expires then
    .error (badRequest "An expiry date is required for self-service keys on this team")
  else .ok ()

/-- One round of the loop over the limit fields. -/
def checkTeamLimit (field : String) (fromPayload : JsonValue) (teamLimit : Option ℤ) :
    Except KeyError Unit :=
  match teamLimit, fromPayload with
  | none, _ | _, .null => .ok ()
  | some teamLimit, value => do
      let asked ← (intOf value).mapError
        (ConversionFault.caught s!"{field} must be a valid integer")
      if teamLimit < asked then
        throw (badRequest
          s!"{field} ({textOf builtins value}) cannot exceed team limit ({teamLimit})")

def checkTeamLimits (payload : RateLimits JsonValue) (team : Option TeamRow) :
    Except KeyError Unit :=
  match team with
  | none => .ok ()
  | some team => (payload.named.zip team.limits.named).forM fun (asked, limit) =>
      checkTeamLimit builtins asked.1 asked.2 limit.2

/-- `now + timedelta(days=days)`, none where it raises OverflowError. -/
def addDays (now days : ℤ) : Option ℤ :=
  let moment := now + days * microsecondsPerDay
  if 0 ≤ moment ∧ moment < daysBeforeYear (maxYear + 1) * microsecondsPerDay then some moment
  else none

def checkExpiry (now : ℤ) (expires : Option String) : Except KeyError Unit :=
  match policy.maxExpiryDays, expires with
  | none, _ | _, none => .ok ()
  | some days, some text =>
      if text = "" then .ok ()
      else
        match builtins.fromIsoformat (withOffset text), addDays now days with
        | none, _ => .error (badRequest "expires must be a valid ISO 8601 datetime string")
        | some _, none => .error .overflowError
        | some read, some maxAllowed =>
            if maxAllowed < read.instant then
              .error (badRequest s!"Expiry date cannot be more than {days} days from now")
            else .ok ()

end Checks

/-! ## Owners of other keys -/

section Owners

variable (g : Gateway)

/-- `_get_team_row`. -/
def getTeamRow (teamId : String) : Except KeyError TeamRow :=
  match rowWithKey TeamRow.teamId teamId g.teams with
  | some team => .ok team
  | none => .error (.http 404 "Team not found")

/-- `_validate_runtime_user`. -/
def validateRuntimeUser (userId teamId : String) : Except KeyError Unit :=
  match rowWithKey RuntimeUserRow.userId userId g.users with
  | none => .error (badRequest "user_id not found")
  | some user =>
      if orNone (stripOrEmpty user.teamId) = some teamId then .ok ()
      else .error (badRequest "user_id does not belong to team_id")

/-- `_validate_owner_references`, which requires an owner. -/
def validateOwnerReferences (request : KeyRequest) : Except KeyError KeyRequest :=
  match request.ownerAccountId, request.ownerServiceAccountId with
  | some _, some _ => .error (badRequest "Select either 'You' or a service account, not both")
  | some accountId, none =>
      if accountId ∉ g.accountIds then .error (badRequest "owner_account_id not found")
      else if request.contextAccountId.any (· ≠ accountId) then
        .error (badRequest "owner_account_id must match the current account")
      else .ok request
  | none, some serviceAccountId =>
      match rowWithKey ServiceAccountRow.serviceAccountId serviceAccountId g.serviceAccounts with
      | none => .error (badRequest "owner_service_account_id not found")
      | some row =>
          if row.teamId ≠ request.teamId then
            .error (badRequest "Service account must belong to the selected team")
          else if row.isActive = false then
            .error (badRequest "Selected service account is inactive")
          else .ok request
  | none, none =>
      match request.contextAccountId with
      | some accountId => .ok { request with ownerAccountId := some accountId }
      | none => .error (badRequest "owner is required")

end Owners

/-! ## The insertion -/

/-- NULL for None. -/
def nullable {α : Type} (column : JsonValue → Option α) : JsonValue → Option (Option α)
  | .null => some none
  | value => (column value).map some

def storedLimits (column : JsonValue → Option ℤ) (limits : RateLimits JsonValue) :
    Option (RateLimits (Option ℤ)) := do
  let rpm ← nullable column limits.rpm
  let tpm ← nullable column limits.tpm
  let rph ← nullable column limits.rph
  let rpd ← nullable column limits.rpd
  let tpd ← nullable column limits.tpd
  return ⟨rpm, tpm, rph, rpd, tpd⟩

def storedExpires (column : String → Option ℤ) : Option String → Option (Option ℤ)
  | none => some none
  | some text => (column text).map some

/-- The row of the INSERT, none where the database rejects a value. -/
def insertedRow {builtins : Builtins} (columns : Columns builtins) (now : ℤ) (token : String)
    (request : KeyRequest) : Option KeyRow := do
  let maxBudget ← nullable columns.double request.maxBudget
  let limits ← storedLimits columns.integer request.limits
  let expires ← storedExpires columns.timestamp request.expires
  return { token, maxBudget, limits, expires
           keyName := request.keyName, userId := request.userId, teamId := some request.teamId
           ownerAccountId := request.ownerAccountId
           ownerServiceAccountId := request.ownerServiceAccountId, createdAt := now }

/-! ## Statement by statement -/

/-- What the checks of a self-service request have read. -/
structure Grant where
  policy : SelfServicePolicy
  counted : Option ℕ

/-- The statement that a request sends next. -/
inductive Phase where
  | idle
  | readingTeam (request : KeyRequest)
  | readingPolicy (request : KeyRequest)
  | counting (request : KeyRequest) (policy : SelfServicePolicy)
  | readingLimits (request : KeyRequest) (grant : Grant)
  | validatingUser (request : KeyRequest) (userId : String)
  | validatingOwner (request : KeyRequest)
  | inserting (request : KeyRequest) (grant : Option Grant)
  | created
  | rejected (error : KeyError)

def settle : Except KeyError Phase → Phase
  | .ok phase => phase
  | .error error => .rejected error

section Statements

variable (g : Gateway) (keys : List KeyRow) (now : ℤ)

def afterTeam (request : KeyRequest) : Except KeyError Phase := do
  let team ← getTeamRow g request.teamId
  let organizationId := orNone (stripOrEmpty team.organizationId)
  match ← resolveKeyAccessMode request.scope organizationId request.teamId with
  | .selfService => return .readingPolicy request.forCaller
  | .admin =>
      match request.userId with
      | some userId => return .validatingUser request userId
      | none => return .validatingOwner request

def afterCount (request : KeyRequest) (grant : Grant) : Except KeyError Phase := do
  checkBudget g.builtins grant.policy request.maxBudget
  checkExpiryGiven grant.policy request.expires
  return .readingLimits request grant

def afterPolicy (request : KeyRequest) : Except KeyError Phase := do
  let policy := getSelfServicePolicy g.teams request.teamId
  checkEnabled policy
  if policy.maxKeysPerUser.isSome then return .counting request policy
  else afterCount g request ⟨policy, none⟩

def afterCounting (request : KeyRequest) (policy : SelfServicePolicy) : Except KeyError Phase := do
  let currentCount := countOwned request.teamId request.scope.accountId keys
  checkCount policy currentCount
  afterCount g request ⟨policy, some currentCount⟩

def afterLimits (request : KeyRequest) (grant : Grant) : Except KeyError Phase := do
  let team := rowWithKey TeamRow.teamId request.teamId g.teams
  checkTeamLimits g.builtins request.limits team
  checkExpiry g.builtins grant.policy now request.expires
  return .inserting request (some grant)

/-- What follows a SELECT. -/
def afterSelect : Phase → Phase
  | .readingTeam request => settle (afterTeam g request)
  | .readingPolicy request => settle (afterPolicy g request)
  | .counting request policy => settle (afterCounting g keys request policy)
  | .readingLimits request grant => settle (afterLimits g now request grant)
  | .validatingUser request userId =>
      settle (do validateRuntimeUser g userId request.teamId; return .validatingOwner request)
  | .validatingOwner request =>
      settle (do return .inserting (← validateOwnerReferences g request) none)
  | phase => phase

end Statements

/-! ## The system -/

/-- A key that self-service created, and the keys that its owner then had in the team. -/
structure Creation where
  request : KeyRequest
  row : KeyRow
  ownedAfter : ℕ

structure KeyState where
  keys : List KeyRow
  requests : ℕ → Phase
  clock : ℤ
  selfCreations : List Creation

inductive KeyEvent where
  | start (pid : ℕ) (scope : AuthScope) (contextAccountId : Option String) (payload : JsonObject)
  /-- The request's next statement, at a time of the clock; an INSERT stores a fresh token. -/
  | statement (pid : ℕ) (now : ℤ) (token : String)
  /-- The statement fails, or the request dies. -/
  | lost (pid : ℕ)

section System

variable (g : Gateway) (s : KeyState)

def KeyState.moveTo (pid : ℕ) (phase : Phase) : KeyState :=
  { s with requests := Function.update s.requests pid phase }

def KeyState.insert (now : ℤ) (token : String) (request : KeyRequest) (grant : Option Grant)
    (pid : ℕ) : KeyState :=
  match insertedRow g.columns now token request with
  | none => s.moveTo pid (.rejected .databaseError)
  | some row =>
      let keys := s.keys ++ [row]
      let ownedAfter := countOwned request.teamId request.ownerAccountId keys
      { s.moveTo pid .created with
        keys
        selfCreations :=
          if grant.isSome then s.selfCreations ++ [⟨request, row, ownedAfter⟩]
          else s.selfCreations }

def keyEnabled : KeyEvent → Prop
  | .start pid _ _ _ => s.requests pid = .idle
  | .statement _ now token => s.clock ≤ now ∧ ∀ row ∈ s.keys, row.token ≠ token
  | .lost _ => True

def keyNext : KeyEvent → KeyState
  | .start pid scope contextAccountId payload =>
      s.moveTo pid (settle
        ((readPayload g.builtins scope contextAccountId payload).map .readingTeam))
  | .statement pid now token =>
      match s.requests pid with
      | .inserting request grant =>
          { s with clock := now }.insert g now token request grant pid
      | phase => { s with clock := now }.moveTo pid (afterSelect g s.keys now phase)
  | .lost pid => s.moveTo pid (.rejected .databaseError)

end System

/-- Any keys may be there at the start. -/
def keySystem (g : Gateway) : TransitionSystem KeyState KeyEvent where
  initial s := (∀ pid, s.requests pid = .idle) ∧ s.selfCreations = []
  enabled := keyEnabled
  next := keyNext g

end KeyCreation
