import DeltaLLM.FlowSnapshots

/-! # Create sessions

The rows of `deltallm_batch_create_session`, the statements on them, and the statements by which a
promotion counts, creates and fills a batch job. The model-group resolver, the work-unit estimator
and the hashes are parameters.
-/
namespace CreateSessions

open BatchRecords
open FlowSnapshots (stableTenantScopeId apiKeyTenantScopePrefix)
open JsonValues
open PythonText
open TableStatements

/-! ## Rows -/

inductive SessionStatus where
  | staged | completed | failedRetryable | failedPermanent | expired
  deriving DecidableEq, Repr

/-- `_PROMOTABLE_SESSION_STATUSES`. -/
def promotableStatuses : List SessionStatus := [.staged, .failedRetryable]

/-- The columns of a session that no statement updates. -/
structure SessionContract where
  sessionId : String
  targetBatchId : String
  endpoint : String
  stagedStorageBackend : String
  stagedStorageKey : String
  expectedItemCount : ℕ
  inferredModel : Option String
  effectiveServiceTier : Option String
  createdByApiKey : Option String
  createdByUserId : Option String
  createdByTeamId : Option String
  createdByOrganizationId : Option String
  createdAt : Timestamp
  deriving DecidableEq, Repr

structure SessionRow where
  contract : SessionContract
  status : SessionStatus
  lastErrorCode : Option String
  lastErrorMessage : Option String
  promotionAttemptCount : ℕ
  completedAt : Option Timestamp
  lastAttemptAt : Option Timestamp
  expiresAt : Option Timestamp
  deriving DecidableEq, Repr

/-- A line of the staged artifact. -/
structure StagedRequest where
  lineNumber : ℕ
  customId : String
  requestBody : JsonObject
  schedulingModel : Option String
  schedulingModelGroup : Option String
  estimatedWorkUnits : Option ℕ
  notBeforeAt : Option Timestamp

/-! ## Session statements -/

def sessionById (sessionId : String) (sessions : List SessionRow) : Option SessionRow :=
  rowWithKey (fun row => row.contract.sessionId) sessionId sessions

/-- `_update_session` with `from_statuses`. -/
def updateSession (sessionId : String) (fromStatuses : List SessionStatus)
    (set : SessionRow → SessionRow) (sessions : List SessionRow) : List SessionRow :=
  updateWhere (fun row => row.contract.sessionId = sessionId ∧ row.status ∈ fromStatuses) set
    sessions

def completedSession (completedAt : Timestamp) (row : SessionRow) : SessionRow :=
  { row with
    status := .completed, promotionAttemptCount := row.promotionAttemptCount + 1,
    completedAt := some completedAt, lastAttemptAt := some completedAt, expiresAt := none,
    lastErrorCode := none, lastErrorMessage := none }

def markSessionCompleted (sessionId : String) (completedAt : Timestamp)
    (sessions : List SessionRow) : List SessionRow :=
  updateSession sessionId promotableStatuses (completedSession completedAt) sessions

/-- `BatchCreatePromotionError`. -/
structure PromotionError where
  message : String
  code : String
  retryable : Bool
  deriving DecidableEq, Repr

def failedSession (error : PromotionError) (attemptedAt : Timestamp) (row : SessionRow) :
    SessionRow :=
  { row with
    status := if error.retryable then .failedRetryable else .failedPermanent
    promotionAttemptCount := row.promotionAttemptCount + 1
    lastAttemptAt := some attemptedAt, expiresAt := none
    lastErrorCode := some error.code, lastErrorMessage := some error.message }

/-- `mark_session_failed_retryable` and `mark_session_failed_permanent`. -/
def markSessionFailed (sessionId : String) (error : PromotionError) (attemptedAt : Timestamp)
    (sessions : List SessionRow) : List SessionRow :=
  updateSession sessionId promotableStatuses (failedSession error attemptedAt) sessions

structure CleanupCutoffs where
  now : Timestamp
  completedBefore : Timestamp
  retryableBefore : Timestamp
  failedBefore : Timestamp
  limit : ℕ

/-- The WHERE clause of `list_cleanup_candidates`. -/
def CleanupCandidate (cutoffs : CleanupCutoffs) (row : SessionRow) : Prop :=
  match row.expiresAt with
  | some expiresAt => expiresAt < cutoffs.now
  | none =>
      match row.status with
      | .completed => row.completedAt.getD row.contract.createdAt < cutoffs.completedBefore
      | .failedRetryable => row.lastAttemptAt.getD row.contract.createdAt < cutoffs.retryableBefore
      | .failedPermanent => row.lastAttemptAt.getD row.contract.createdAt < cutoffs.failedBefore
      | _ => False

instance (cutoffs : CleanupCutoffs) : DecidablePred (CleanupCandidate cutoffs) := by
  intro row
  unfold CleanupCandidate
  split
  · infer_instance
  · split <;> infer_instance

/-- `COALESCE(expires_at, completed_at, last_attempt_at, created_at)`. -/
def cleanupInstant (row : SessionRow) : Timestamp :=
  ((row.expiresAt.or row.completedAt).or row.lastAttemptAt).getD row.contract.createdAt

def listCleanupCandidates (cutoffs : CleanupCutoffs) (sessions : List SessionRow) :
    List SessionRow :=
  selectFirst (CleanupCandidate cutoffs)
    (fun row other => cleanupInstant row ≤ cleanupInstant other)
    (max 1 (min cutoffs.limit 1000)) sessions

/-- The WHERE clause of `delete_cleanup_candidate`. -/
def SameCandidate (candidate row : SessionRow) : Prop :=
  row.contract.sessionId = candidate.contract.sessionId ∧ row.status = candidate.status ∧
    row.contract.stagedStorageBackend = candidate.contract.stagedStorageBackend ∧
    row.contract.stagedStorageKey = candidate.contract.stagedStorageKey ∧
    row.expiresAt = candidate.expiresAt ∧ row.completedAt = candidate.completedAt ∧
    row.lastAttemptAt = candidate.lastAttemptAt

instance (candidate : SessionRow) : DecidablePred (SameCandidate candidate) :=
  fun _ => inferInstanceAs (Decidable (_ ∧ _))

def deleteCleanupCandidate (candidate : SessionRow) (sessions : List SessionRow) :
    List SessionRow :=
  sessions.filter fun row => ¬SameCandidate candidate row

/-! ## Scopes -/

/-- `batch_pending_scope_target_for_session`: type, id, API key and team. -/
structure PendingScopeTarget where
  scopeType : String
  scopeId : String
  createdByApiKey : Option String
  createdByTeamId : Option String
  deriving DecidableEq, Repr

def batchPendingScopeTarget (createdByTeamId createdByApiKey : Option String) :
    Option PendingScopeTarget :=
  match nonBlankText createdByTeamId with
  | some team => some ⟨"team", team, none, some team⟩
  | none => (nonBlankText createdByApiKey).map fun key => ⟨"api_key", key, some key, none⟩

def SessionContract.pendingScope (contract : SessionContract) : Option PendingScopeTarget :=
  batchPendingScopeTarget contract.createdByTeamId contract.createdByApiKey

/-- `count_active_jobs_for_scope`. -/
def countActiveJobsForScope (createdByApiKey createdByTeamId : Option String)
    (jobs : List BatchJobRow) : ℕ :=
  match nonBlankText createdByTeamId, nonBlankText createdByApiKey with
  | some team, _ =>
      jobs.countP fun job => job.createdByTeamId = some team ∧ job.status.terminal = false
  | none, some key =>
      jobs.countP fun job => job.createdByApiKey = some key ∧ job.status.terminal = false
  | none, none => 0

def PendingScopeTarget.activeJobs (scope : PendingScopeTarget) (jobs : List BatchJobRow) : ℕ :=
  countActiveJobsForScope scope.createdByApiKey scope.createdByTeamId jobs

structure TenantScope where
  scopeType : String
  scopeId : String
  deriving DecidableEq, Repr

def defaultTenantScopePreference : List String := ["organization", "team", "api_key", "user"]

/-- `_normalize_optional`. -/
def normalizeOptional (value : Option String) : Option String :=
  if stripOrEmpty value = "" then none else some (stripOrEmpty value)

/-- `scope_values.get(scope_type)` on the creator's columns. -/
def SessionContract.scopeValue (contract : SessionContract) (scopeType : String) : Option String :=
  if scopeType = "organization" then contract.createdByOrganizationId
  else if scopeType = "team" then contract.createdByTeamId
  else if scopeType = "api_key" then contract.createdByApiKey
  else if scopeType = "user" then contract.createdByUserId
  else none

/-- `resolve_tenant_scope`. -/
def resolveTenantScope (sha256 : String → String) (preference : List String)
    (contract : SessionContract) : TenantScope :=
  let preference := if preference = [] then defaultTenantScopePreference else preference
  let found := preference.findSome? fun scopeType =>
    (normalizeOptional (contract.scopeValue (lower (strip scopeType)))).map fun scopeId =>
      TenantScope.mk (lower (strip scopeType))
        (stableTenantScopeId sha256 (lower (strip scopeType)) scopeId)
  found.getD ⟨"anonymous", "anonymous"⟩

/-- The tenant columns that `create_job` stores for a scope. -/
def storedTenantScope (sha256 : String → String) (tenant : TenantScope) : TenantScope :=
  if tenant.scopeType = "api_key" then
    ⟨tenant.scopeType, stableTenantScopeId sha256 tenant.scopeType tenant.scopeId⟩
  else tenant

/-- What `get_tenant_queued_work_units` counts of a tenant. -/
structure TenantQuery where
  scopeType : String
  scopeId : String
  apiKey : String
  team : String
  organization : String
  user : String
  deriving DecidableEq

/-- The arguments of the query, none where an API key is missing. -/
def tenantQuery (sha256 : String → String) (tenant : TenantScope) (contract : SessionContract) :
    Option TenantQuery :=
  let scopeType := strip tenant.scopeType
  let scopeId := strip tenant.scopeId
  let apiKey := stripOrEmpty contract.createdByApiKey
  let query : TenantQuery :=
    ⟨scopeType, scopeId, apiKey, stripOrEmpty contract.createdByTeamId,
      stripOrEmpty contract.createdByOrganizationId, stripOrEmpty contract.createdByUserId⟩
  if scopeType = "api_key" then
    if apiKey = "" then
      if startsWith scopeId apiKeyTenantScopePrefix then none
      else some { query with
        apiKey := scopeId, scopeId := stableTenantScopeId sha256 scopeType scopeId }
    else some { query with scopeId := stableTenantScopeId sha256 scopeType scopeId }
  else some query

/-- The jobs of the query. -/
def TenantQuery.CountsJob (query : TenantQuery) (job : BatchJobRow) : Prop :=
  (job.status = .queued ∨ job.status = .inProgress) ∧
    ((job.tenantScopeType = some query.scopeType ∧ job.tenantScopeId = some query.scopeId) ∨
      (query.scopeType = "api_key" ∧ query.apiKey ≠ "" ∧
        (job.tenantScopeId = some query.apiKey ∨ job.createdByApiKey = some query.apiKey)) ∨
      (query.scopeType = "team" ∧ query.team ≠ "" ∧ job.createdByTeamId = some query.team) ∨
      (query.scopeType = "organization" ∧ query.organization ≠ "" ∧
        job.createdByOrganizationId = some query.organization) ∨
      (query.scopeType = "user" ∧ query.user ≠ "" ∧ job.createdByUserId = some query.user))

instance (query : TenantQuery) : DecidablePred query.CountsJob :=
  fun _ => inferInstanceAs (Decidable (_ ∧ _))

/-- `i.status = 'pending' OR (i.status = 'in_progress' AND i.lease_expires_at < NOW())`. -/
def QueuedItem (now : Timestamp) (item : BatchItemRow) : Prop :=
  item.status = .pending ∨ (item.status = .inProgress ∧ leaseExpired item.leaseExpiresAt now)

instance (now : Timestamp) : DecidablePred (QueuedItem now) :=
  fun _ => inferInstanceAs (Decidable (_ ∨ _))

/-- The units of the queued items of some jobs. -/
def queuedUnits (counts : BatchJobRow → Prop) [DecidablePred counts] (now : Timestamp)
    (jobs : List BatchJobRow) (items : List BatchItemRow) : ℕ :=
  ((items.filter fun item => QueuedItem now item ∧
    ∃ job ∈ jobs, job.batchId = item.batchId ∧ counts job).map BatchItemRow.workUnits).sum

/-- `get_tenant_queued_work_units`. -/
def getTenantQueuedWorkUnits (query : TenantQuery) (now : Timestamp) (jobs : List BatchJobRow)
    (items : List BatchItemRow) : ℕ :=
  queuedUnits query.CountsJob now jobs items

end CreateSessions
