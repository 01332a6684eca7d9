import DeltaLLM.AcceptedMemberships
import DeltaLLM.RowVersions
import DeltaLLM.TransitionRuns
import Mathlib.Data.List.Sort

/-! # The life of invitations

Invitations are created, sent again, accepted, cancelled and expired by any number of processes on
one database, statement by statement. Creating and accepting are transactions; the other calls
commit each of their statements, and a process may stop between any two of them.
-/
namespace InvitationLifecycle

open AcceptedMemberships
open InvitationAcceptance
open JsonValues
open RowVersions
open TransitionRuns

/-! ## Statements -/

/-- `WHERE account_id = $1 AND status IN ('pending', 'sent')`. -/
def pendingOf (accountId : String) (_ : String) (row : InvitationRow) : Bool :=
  decide (row.accountId = accountId) && row.status.isOpen

/-- `WHERE invitation_id = $1`. -/
def byId (invitationId key : String) (_ : InvitationRow) : Bool := decide (key = invitationId)

/-- `WHERE invitation_id = $1 AND status IN ('pending', 'sent')`. -/
def openById (invitationId key : String) (row : InvitationRow) : Bool :=
  decide (key = invitationId) && row.status.isOpen

/-- `status IN ('pending', 'sent', 'expired')`. -/
def InvitationStatus.isCancellable : InvitationStatus → Bool
  | .pending | .sent | .expired => true
  | .accepted | .cancelled => false

/-- `WHERE invitation_id = $1 AND status IN ('pending', 'sent', 'expired')`. -/
def cancellableById (invitationId key : String) (row : InvitationRow) : Bool :=
  decide (key = invitationId) && InvitationStatus.isCancellable row.status

/-- The WHERE clause of `get_active_by_hash` and `claim_active_by_hash` for `invite_accept`. -/
def activeHash (now : ℤ) (tokenHash : String) (_ : String) (token : EmailTokenRow) : Bool :=
  decide (token.Active now "invite_accept" tokenHash)

/-- The WHERE clause of `invalidate_active` for `invite_accept`. -/
def invalidated (now : ℤ) (accountId invitationId : String) (excluded : Option String)
    (key : String) (token : EmailTokenRow) : Bool :=
  decide (token.Invalidated now "invite_accept" accountId invitationId) &&
    decide (excluded ≠ some key)

def consume (now : ℤ) (token : EmailTokenRow) : EmailTokenRow :=
  { token with consumedAt := some now }

def withStatus (status : InvitationStatus) (row : InvitationRow) : InvitationRow :=
  { row with status }

/-! ## Processes -/

/-- What `create_invitation` writes: the account and the metadata are made from its arguments. -/
structure Creation where
  accountId : String
  email : String
  metadata : JsonObject
  expiresAt : ℤ

inductive CreateStage where
  | started
  | listed (existing : Option String)
  | written (invitationId : String)
  | issued (invitationId tokenId : String) (expiresAt : ℤ)
  | marked (invitationId tokenId : String)
  | finished

/-- A membership that the acceptance writes. -/
inductive Grant where
  | organization (key : String × String) (role : String)
  | team (key : String × String) (role : String)
  deriving DecidableEq

inductive AcceptStage where
  | started
  | validated (invitationId : String)
  | expiring (row : InvitationRow)
  | expired (row : InvitationRow)
  | reread (row : InvitationRow)
  | opened (row : InvitationRow)
  | claimed (row : InvitationRow)
  | granting (row : InvitationRow) (rest : List Grant)
  | invalidated (row : InvitationRow)
  | accepted (row : InvitationRow)
  | ended

/-- The calls outside transactions: all of them expire an invitation whose time has come. -/
inductive Goal where
  | describe | cancel | resend
  deriving DecidableEq

inductive ManageStage where
  | started (invitationId : String)
  | expiring (row : InvitationRow)
  | expired (row : InvitationRow)
  | reread (row : InvitationRow)
  | manageable (row : InvitationRow)
  | invalidated (row : InvitationRow)

inductive Phase where
  | idle
  | create (creation : Creation) (stage : CreateStage)
  | accept (tokenHash : String) (stage : AcceptStage)
  | manage (goal : Goal) (stage : ManageStage)

structure State where
  invitations : List (Cell String InvitationRow)
  tokens : List (Cell String EmailTokenRow)
  organizations : List (Cell (String × String) String)
  teams : List (Cell (String × String) String)
  phase : ℕ → Phase

def State.setPhase (s : State) (pid : ℕ) (phase : Phase) : State :=
  { s with phase := Function.update s.phase pid phase }

def State.commit (s : State) (pid : ℕ) : State :=
  { s with
    invitations := RowVersions.commit pid s.invitations, tokens := RowVersions.commit pid s.tokens
    organizations := RowVersions.commit pid s.organizations
    teams := RowVersions.commit pid s.teams }

def State.rollback (s : State) (pid : ℕ) : State :=
  { s with
    invitations := RowVersions.rollback pid s.invitations
    tokens := RowVersions.rollback pid s.tokens
    organizations := RowVersions.rollback pid s.organizations
    teams := RowVersions.rollback pid s.teams }

/-- UPDATE of invitations, none where it has to wait. -/
def State.updateInvitations (s : State) (pid : ℕ) (about : String → InvitationRow → Bool)
    (set : InvitationRow → InvitationRow) : Option State :=
  if waits pid about s.invitations then none
  else some { s with invitations := update pid about set s.invitations }

/-- UPDATE of tokens, none where it has to wait. -/
def State.consumeTokens (s : State) (pid : ℕ) (now : ℤ) (about : String → EmailTokenRow → Bool) :
    Option State :=
  if waits pid about s.tokens then none
  else some { s with tokens := update pid about (consume now) s.tokens }

/-- The upsert of a membership, none where it has to wait. -/
def State.grant (s : State) (pid : ℕ) : Grant → Option State
  | .organization key role =>
      if waitsAt pid key s.organizations then none
      else some { s with organizations := upsert pid key role s.organizations }
  | .team key role =>
      if waitsAt pid key s.teams then none
      else some { s with teams := upsert pid key role s.teams }

/-! ## The service -/

/-- The service and `_scope_fingerprint`. -/
structure LifecycleService extends InvitationService where
  fingerprint : Option JsonObject → String

/-- What a statement meets: the clocks of the database and of the process, and what is made up for
a new row. -/
structure Given where
  now : ℤ
  processNow : ℤ
  newId : String
  newHash : String
  newExpiry : ℤ

section Service

variable (w : LifecycleService)

/-- The rows that the process sees. -/
def visible (pid : ℕ) (invitations : List (Cell String InvitationRow)) :
    List (String × InvitationRow) :=
  invitations.filterMap fun cell => (cell.view pid).map fun row => (cell.key, row)

/-- The newest pending invitation of the account with the same scope. -/
def existingInvitation (pid : ℕ) (creation : Creation)
    (invitations : List (Cell String InvitationRow)) : Option String :=
  ((((visible pid invitations).filter fun entry => pendingOf creation.accountId entry.1 entry.2)
    |>.insertionSort fun first second => second.2.createdAt ≤ first.2.createdAt).find? fun entry =>
      w.fingerprint entry.2.metadata = w.fingerprint (some creation.metadata)).map Prod.fst

/-- The columns that `update_pending` sets. -/
def pendingAgain (creation : Creation) (row : InvitationRow) : InvitationRow :=
  { row with status := .pending, expiresAt := creation.expiresAt
             metadata := some creation.metadata }

/-- The columns that `mark_sent` sets. -/
def markSent (creation : Creation) (expiresAt : ℤ) (row : InvitationRow) : InvitationRow :=
  { row with status := .sent, expiresAt, metadata := some creation.metadata }

def newInvitation (creation : Creation) (given : Given) : InvitationRow :=
  ⟨given.newId, creation.accountId, creation.email, .pending, creation.expiresAt,
    some creation.metadata, given.now⟩

def newToken (creation : Creation) (invitationId : String) (given : Given) : EmailTokenRow :=
  ⟨given.newId, "invite_accept", given.newHash, creation.accountId, some invitationId,
    given.newExpiry, none⟩

/-- The next statement of `_create_invitation_with_dependencies`. A new row has a new id. -/
def createStep (s : State) (pid : ℕ) (given : Given) (creation : Creation) :
    CreateStage → Option State
  | .started => some (s.setPhase pid
      (.create creation (.listed (existingInvitation w pid creation s.invitations))))
  | .listed (some existing) =>
      if affects pid (byId existing) s.invitations then
        (s.updateInvitations pid (byId existing) (pendingAgain creation)).map fun s =>
          s.setPhase pid (.create creation (.written existing))
      else if waits pid (byId existing) s.invitations then none
      else some ((s.rollback pid).setPhase pid .idle)
  | .listed none =>
      if s.invitations.any fun cell => cell.key = given.newId then none
      else some ({ s with
        invitations :=
          insert pid given.newId (newInvitation creation given) s.invitations }.setPhase
            pid (.create creation (.written given.newId)))
  | .written invitationId =>
      if s.tokens.any fun cell => cell.key = given.newId then none
      else some ({ s with
        tokens := insert pid given.newId (newToken creation invitationId given) s.tokens }.setPhase
          pid (.create creation (.issued invitationId given.newId given.newExpiry)))
  | .issued invitationId tokenId expiresAt =>
      (s.updateInvitations pid (byId invitationId) (markSent creation expiresAt)).map fun s =>
        s.setPhase pid (.create creation (.marked invitationId tokenId))
  | .marked invitationId tokenId =>
      (s.consumeTokens pid given.now
        (invalidated given.now creation.accountId invitationId (some tokenId))).map fun s =>
          s.setPhase pid (.create creation .finished)
  | .finished => none

/-- The memberships of an invitation in the order in which they are written. -/
def grantsOf (accountId : String) (named : Named) : List Grant :=
  (namedOrganizations named.organizations).map (fun invite =>
      .organization (accountId, invite.organizationId) invite.role) ++
    named.teams.flatMap fun invite =>
      (impliedOrganizations
          ((namedOrganizations named.organizations).map OrganizationInvite.organizationId)
          [invite]).map (fun invite =>
        .organization (accountId, invite.organizationId) "org_member") ++
      (namedTeams [invite]).map fun invite => .team (accountId, invite.teamId) invite.role

/-- Where an acceptance is once it has read the row. -/
def afterRead (processNow : ℤ) (row : InvitationRow) : AcceptStage :=
  if row.status.isOpen = true ∧ row.expiresAt ≤ processNow then .expiring row
  else if row.status.isOpen then .opened row
  else .ended

/-- The next statement of `_accept_invitation_with_dependencies`. Statements on accounts and
sessions are left to stop the process. Metadata that cannot be read raises, so that only a stop is
left. -/
def acceptStep (s : State) (pid : ℕ) (given : Given) (tokenHash : String) :
    AcceptStage → Option State
  | .started =>
      let token := (s.tokens.filterMap fun cell => cell.view pid).find? fun token =>
        token.Active given.now "invite_accept" tokenHash
      match (token.bind EmailTokenRow.invitationId).filter (· ≠ "") with
      | none => some (s.setPhase pid (.accept tokenHash .ended))
      | some invitationId => some (s.setPhase pid (.accept tokenHash (.validated invitationId)))
  | .validated invitationId =>
      match viewAt pid invitationId s.invitations with
      | none => some (s.setPhase pid (.accept tokenHash .ended))
      | some row => some (s.setPhase pid (.accept tokenHash (afterRead given.processNow row)))
  | .expiring row =>
      (s.updateInvitations pid (openById row.invitationId) (withStatus .expired)).map fun s =>
        s.setPhase pid (.accept tokenHash (.expired row))
  | .expired row =>
      (s.consumeTokens pid given.now
        (invalidated given.now row.accountId row.invitationId none)).map fun s =>
          s.setPhase pid (.accept tokenHash (.reread row))
  | .reread row =>
      let refreshed := (viewAt pid row.invitationId s.invitations).getD row
      some (s.setPhase pid (.accept tokenHash
        (if refreshed.status.isOpen then .opened refreshed else .ended)))
  | .opened row =>
      (s.consumeTokens pid given.now (activeHash given.now tokenHash)).map fun t =>
        let claimed := (s.tokens.filterMap fun cell => cell.view pid).find? fun token =>
          token.Active given.now "invite_accept" tokenHash
        if claimed.bind EmailTokenRow.invitationId = some row.invitationId then
          t.setPhase pid (.accept tokenHash (.claimed row))
        else t.setPhase pid (.accept tokenHash .ended)
  | .claimed row =>
      match readInvitation w.python row.metadata with
      | .error _ => none
      | .ok named => some (s.setPhase pid
          (.accept tokenHash (.granting row (grantsOf row.accountId named))))
  | .granting row (grant :: rest) =>
      (s.grant pid grant).map fun s => s.setPhase pid (.accept tokenHash (.granting row rest))
  | .granting row [] =>
      (s.consumeTokens pid given.now
        (invalidated given.now row.accountId row.invitationId none)).map fun s =>
          s.setPhase pid (.accept tokenHash (.invalidated row))
  | .invalidated row =>
      if affects pid (openById row.invitationId) s.invitations then
        (s.updateInvitations pid (openById row.invitationId) (withStatus .accepted)).map fun s =>
          s.setPhase pid (.accept tokenHash (.accepted row))
      else some ((s.rollback pid).setPhase pid .idle)
  | .accepted _ => none
  | .ended => none

/-- What a call does with the row that it manages. -/
def settle (goal : Goal) (row : InvitationRow) : Phase :=
  match goal with
  | .describe => .idle
  | .cancel | .resend =>
      if row.status = .accepted ∨ row.status = .cancelled then .idle
      else .manage goal (.manageable row)

/-- The next statement of the calls outside transactions, each committed by itself. -/
def manageStep (s : State) (pid : ℕ) (given : Given) (goal : Goal) : ManageStage → Option State
  | .started invitationId =>
      match viewAt pid invitationId s.invitations with
      | none => some (s.setPhase pid .idle)
      | some row => some (s.setPhase pid
          (if row.status.isOpen = true ∧ row.expiresAt ≤ given.processNow then
            .manage goal (.expiring row)
          else settle goal row))
  | .expiring row =>
      (s.updateInvitations pid (openById row.invitationId) (withStatus .expired)).map fun s =>
        (s.commit pid).setPhase pid (.manage goal (.expired row))
  | .expired row =>
      (s.consumeTokens pid given.now
        (invalidated given.now row.accountId row.invitationId none)).map fun s =>
          (s.commit pid).setPhase pid (.manage goal (.reread row))
  | .reread row => some (s.setPhase pid
      (settle goal ((viewAt pid row.invitationId s.invitations).getD row)))
  | .manageable row =>
      if goal = .cancel then
        (s.consumeTokens pid given.now
          (invalidated given.now row.accountId row.invitationId none)).map fun s =>
            (s.commit pid).setPhase pid (.manage goal (.invalidated row))
      else none
  | .invalidated row =>
      (s.updateInvitations pid (cancellableById row.invitationId) (withStatus .cancelled)).map
        fun s => (s.commit pid).setPhase pid .idle

/-- The ends of the two transactions. -/
def commits : Phase → Bool
  | .create _ .finished | .accept _ (.accepted _) | .accept _ .ended => true
  | _ => false

inductive Call where
  | create (creation : Creation)
  | accept (tokenHash : String)
  | manage (goal : Goal) (invitationId : String)

def Call.phase : Call → Phase
  | .create creation => .create creation .started
  | .accept tokenHash => .accept tokenHash .started
  | .manage goal invitationId => .manage goal (.started invitationId)

/-- The steps of a process. It stops when a statement fails, at an exception and in a crash. -/
inductive Statement where
  | start (call : Call)
  | run (given : Given)
  | resend (creation : Creation)
  | commit
  | stop

def processStep (s : State) (pid : ℕ) : Phase → Statement → Option State
  | .idle, .start call => some (s.setPhase pid call.phase)
  | .create creation stage, .run given => createStep w s pid given creation stage
  | .accept tokenHash stage, .run given => acceptStep w s pid given tokenHash stage
  | .manage goal stage, .run given => manageStep s pid given goal stage
  | .manage .resend (.manageable _), .resend creation =>
      some (s.setPhase pid (.create creation .started))
  | phase, .commit =>
      if commits phase then some ((s.commit pid).setPhase pid .idle) else none
  | _, .stop => some ((s.rollback pid).setPhase pid .idle)
  | _, _ => none

def step (s : State) (e : ℕ × Statement) : Option State := processStep w s e.1 (s.phase e.1) e.2

/-- Nothing is under way, and rows have unique keys. -/
structure Initial (s : State) : Prop where
  invitations : ∀ cell ∈ s.invitations, cell.pending = none
  tokens : ∀ cell ∈ s.tokens, cell.pending = none
  organizations : ∀ cell ∈ s.organizations, cell.pending = none
  teams : ∀ cell ∈ s.teams, cell.pending = none
  invitationIds : (s.invitations.map Cell.key).Nodup
  tokenIds : (s.tokens.map Cell.key).Nodup
  organizationKeys : (s.organizations.map Cell.key).Nodup
  teamKeys : (s.teams.map Cell.key).Nodup
  ids : EveryVersion (fun key row => row.invitationId = key) s.invitations
  idle : ∀ pid, s.phase pid = .idle

def lifecycleSystem : TransitionSystem State (ℕ × Statement) where
  initial := Initial
  enabled s e := (step w s e).isSome = true
  next s e := (step w s e).getD s

end Service

end InvitationLifecycle
