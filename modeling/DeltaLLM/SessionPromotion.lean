import DeltaLLM.CreateSessions
import DeltaLLM.TransitionRuns

/-! # Promotion of create sessions

`BatchCreateSessionPromoter.promote_session` statement by statement, its failure recorder and the
cleanup worker, run by any number of processes on one database. What a transaction wrote is seen by
the others when it commits; row locks and advisory locks are held to the end of the transaction.
-/
namespace SessionPromotion

open BatchRecords
open CreateSessions
open FlowSnapshots (stableTenantScopeId)
open JsonValues
open PythonText
open TransitionRuns

/-! ## Settings -/

/-- The promoter's settings and the code it calls. -/
structure Promoter where
  metadataRetention : ℕ
  maxPendingBatchesPerScope : ℕ
  insertChunkSize : ℕ
  softPrecheckEnabled : Bool
  schedulerVersion : String
  strictModelHomogeneityEnabled : Bool
  defaultServiceTier : String
  tenantScopePreference : List String
  tenantMaxQueuedWorkUnits : ℕ
  /-- `resolve_model_group` with the configured resolver. -/
  resolveModelGroup : Option String → Option String
  /-- `estimate_request_work_units`. -/
  estimateRequestWorkUnits : String → JsonObject → ℕ
  /-- `str(value)`. -/
  text : JsonValue → String
  sha256 : String → String
  digest_spaceFree : FlowSnapshots.SpaceFree sha256
  /-- `advisory_lock_key` of a scope type and id. -/
  lockKey : String → String → ℤ
  /-- The lines of a staged artifact, by storage backend and key. -/
  staged : String → String → List StagedRequest

/-! ## The spool -/

structure SpooledRequest where
  lineNumber : ℕ
  customId : String
  requestBody : JsonObject
  schedulingModel : Option String
  schedulingModelGroup : Option String
  estimatedWorkUnits : ℕ
  notBeforeAt : Option Timestamp

/-- `record.scheduling_model or str((record.request_body or {}).get("model") or "").strip()`. -/
def schedulingModelOf (w : Promoter) (record : StagedRequest) : Option String :=
  match nonBlankText record.schedulingModel with
  | some model => some model
  | none =>
      let value := JsonObject.get record.requestBody "model"
      let model := if value.truthy then strip (w.text value) else ""
      if model = "" then none else some model

/-- One line as it goes to the spool. -/
def spoolLine (w : Promoter) (endpoint : String) (record : StagedRequest) : SpooledRequest where
  lineNumber := record.lineNumber
  customId := record.customId
  requestBody := record.requestBody
  schedulingModel := schedulingModelOf w record
  schedulingModelGroup := (nonBlankText record.schedulingModelGroup).or
    (w.resolveModelGroup (schedulingModelOf w record))
  estimatedWorkUnits := max 1
    (record.estimatedWorkUnits.getD (w.estimateRequestWorkUnits endpoint record.requestBody))
  notBeforeAt := record.notBeforeAt

/-- The first model dimensions of a stream and whether another line has others. -/
structure SpoolSummary where
  firstModel : Option String
  firstModelGroup : Option String
  mixedModel : Bool

def SpoolSummary.add (summary : SpoolSummary) (line : SpooledRequest) : SpoolSummary :=
  match summary.firstModel with
  | none => { summary with
      firstModel := line.schedulingModel, firstModelGroup := line.schedulingModelGroup }
  | some model =>
      if line.schedulingModel ≠ some model ∨
        line.schedulingModelGroup ≠ summary.firstModelGroup then
        { summary with mixedModel := true }
      else summary

/-- The spool and `BatchCreatePromotionSchedulingSummary`. -/
structure Spool where
  lines : List SpooledRequest
  schedulingModelGroup : Option String
  mixedModel : Bool

def spoolUnits (lines : List SpooledRequest) : ℕ :=
  (lines.map SpooledRequest.estimatedWorkUnits).sum

/-- `remaining_work_units` of the summary. -/
def Spool.remainingWorkUnits (spool : Spool) : ℕ := max 1 (spoolUnits spool.lines)

/-- `size_class_for_work_units`. -/
def sizeClassForWorkUnits (units : ℕ) : String :=
  if units ≤ 10 then "xs"
  else if units ≤ 100 then "s"
  else if units ≤ 1000 then "m"
  else if units ≤ 10000 then "l"
  else "xl"

/-! ## Errors -/

def sessionNotFound (sessionId : String) : PromotionError :=
  ⟨"Batch create session '" ++ sessionId ++ "' was not found", "session_not_found", false⟩

def statusText : SessionStatus → String
  | .staged => "staged"
  | .completed => "completed"
  | .failedRetryable => "failed_retryable"
  | .failedPermanent => "failed_permanent"
  | .expired => "expired"

def sessionNotPromotable (session : SessionRow) : PromotionError :=
  ⟨"Batch create session '" ++ session.contract.sessionId ++ "' is not promotable from status '" ++
    statusText session.status ++ "'", "session_not_promotable", false⟩

def completedSessionMissingBatch (contract : SessionContract) : PromotionError :=
  ⟨"Completed batch create session '" ++ contract.sessionId ++ "' is missing job '" ++
    contract.targetBatchId ++ "'", "completed_session_missing_batch", false⟩

def mixedModelBatch : PromotionError :=
  ⟨"Staged batch create artifact contains multiple scheduler model dimensions", "mixed_model_batch",
    false⟩

def stagedItemCountMismatch (expected read : ℕ) : PromotionError :=
  ⟨"Staged batch create artifact item count does not match the session contract (expected " ++
    toString expected ++ ", read " ++ toString read ++ ")", "item_count_mismatch", false⟩

def insertedItemCountMismatch (sessionId : String) (inserted expected : ℕ) : PromotionError :=
  ⟨"Inserted " ++ toString inserted ++ " batch items but expected " ++ toString expected ++
    " for session '" ++ sessionId ++ "'", "item_count_mismatch", false⟩

def pendingLimitExceeded (limit : ℕ) : PromotionError :=
  ⟨"Active batch count exceeds embeddings_batch_max_pending_batches_per_scope (" ++
    toString limit ++ ")", "pending_limit_exceeded", true⟩

def tenantQueuedWorkLimitExceeded (limit : ℕ) : PromotionError :=
  ⟨"Tenant queued batch work exceeds embeddings_batch_tenant_max_queued_work_units (" ++
    toString limit ++ ")", "tenant_queued_work_limit_exceeded", true⟩

def sessionUpdateFailed (message : String) : PromotionError :=
  ⟨message, "session_update_failed", true⟩

def reconcileFailed (contract : SessionContract) : PromotionError :=
  sessionUpdateFailed ("Failed to reconcile existing batch '" ++ contract.targetBatchId ++
    "' with session '" ++ contract.sessionId ++ "'")

def completionFailed (contract : SessionContract) : PromotionError :=
  sessionUpdateFailed ("Failed to mark batch create session '" ++ contract.sessionId ++
    "' completed")

/-- The wrapper around any other exception. -/
def promotionFailed (sessionId exc : String) : PromotionError :=
  ⟨"Failed to promote batch create session '" ++ sessionId ++ "': " ++ exc,
    "promotion_failed", true⟩

/-- How reading the staged artifact ends: after some of its lines, or with an exception. -/
inductive ReadOutcome where
  | lines (count : ℕ)
  | lineTooLong (lineNumber : ℕ)
  | invalid (exc : String)
  | unavailable (exc : String)
  deriving DecidableEq, Repr

/-- `_spool_staged_items`. -/
def spoolStagedItems (w : Promoter) (contract : SessionContract) :
    ReadOutcome → Except PromotionError Spool
  | .lineTooLong lineNumber =>
      .error ⟨"Staged batch create artifact line " ++ toString lineNumber ++
      " exceeds the configured limit", "staged_artifact_invalid", false⟩
  | .invalid exc => .error ⟨"Staged batch create artifact is invalid: " ++ exc,
      "staged_artifact_invalid", false⟩
  | .unavailable exc => .error ⟨"Failed to read staged batch create artifact: " ++ exc,
      "staged_artifact_unavailable", true⟩
  | .lines count =>
      let records := (w.staged contract.stagedStorageBackend contract.stagedStorageKey).take count
      let lines := records.map (spoolLine w contract.endpoint)
      let summary := lines.foldl SpoolSummary.add ⟨none, none, false⟩
      if summary.mixedModel ∧ w.strictModelHomogeneityEnabled then .error mixedModelBatch
      else if lines.length = 0 ∨ lines.length ≠ contract.expectedItemCount then
        .error (stagedItemCountMismatch contract.expectedItemCount lines.length)
      else .ok
        { lines
          schedulingModelGroup :=
            if summary.mixedModel then some "mixed"
            else summary.firstModelGroup.or (w.resolveModelGroup contract.inferredModel)
          mixedModel := summary.mixedModel }

/-! ## The job and its items -/

def Promoter.tenantScope (w : Promoter) (contract : SessionContract) : TenantScope :=
  resolveTenantScope w.sha256 w.tenantScopePreference contract

/-- The row that `create_job` inserts for a promotion. -/
def promotedJob (w : Promoter) (contract : SessionContract) (spool : Spool) (now : Timestamp) :
    BatchJobRow :=
  let tenant := storedTenantScope w.sha256 (w.tenantScope contract)
  { createdJob contract.targetBatchId contract.endpoint now with
    status := .queued
    totalItems := spool.lines.length
    createdByApiKey := contract.createdByApiKey
    createdByUserId := contract.createdByUserId
    createdByTeamId := contract.createdByTeamId
    createdByOrganizationId := contract.createdByOrganizationId
    expiresAt := some (now + w.metadataRetention)
    schedulerVersion := some w.schedulerVersion
    schedulingModelGroup := spool.schedulingModelGroup
    tenantScopeType := some tenant.scopeType
    tenantScopeId := some tenant.scopeId
    serviceTier := (normalizeOptional ((nonBlankText contract.effectiveServiceTier).or
      (some w.defaultServiceTier))).getD "standard"
    estimatedWorkUnits := spool.remainingWorkUnits
    remainingWorkUnits := spool.remainingWorkUnits
    sizeClass := sizeClassForWorkUnits (spoolUnits spool.lines)
    queueEnteredAt := some now }

/-- The row that `create_items` builds for a spooled line. -/
def promotedItem (batchId itemId : String) (line : SpooledRequest) : BatchItemRow :=
  { createdItem itemId batchId line.lineNumber line.customId line.requestBody
      line.estimatedWorkUnits with
    schedulingModelGroup := (line.schedulingModelGroup.or line.schedulingModel).filter (· ≠ "")
    notBeforeAt := line.notBeforeAt }

/-- One row of the INSERT: a line number that the batch has is skipped, a custom id that it has is
an error. -/
def insertItem (committed own : List BatchItemRow) (row : BatchItemRow) :
    Option (List BatchItemRow) :=
  if ∃ item ∈ committed ++ own, item.batchId = row.batchId ∧ item.lineNumber = row.lineNumber then
    some own
  else if ∃ item ∈ committed ++ own, item.batchId = row.batchId ∧ item.customId = row.customId then
    none
  else some (own ++ [row])

/-- `create_items` in a transaction that sees the committed items and its own. -/
def createItems (committed own rows : List BatchItemRow) : Option (List BatchItemRow) :=
  rows.foldlM (insertItem committed) own

/-! ## Processes -/

structure PromotionResult where
  sessionId : String
  batchId : String
  promoted : Bool
  deriving DecidableEq, Repr

/-- Where a transaction is, after the row lock. -/
inductive Stage where
  | locked
  | jobRead
  | scopeLocked
  | pendingChecked
  | tenantLocked
  | admitted
  | inserting (remaining : List SpooledRequest)
  | inserted
  | reconciling
  | marked (completedAt : Timestamp) (promoted : Bool)

/-- A transaction: its `NOW()`, the session row it locked, and the rows it inserted. -/
structure Transaction where
  now : Timestamp
  row : SessionRow
  stage : Stage
  newJobs : List BatchJobRow
  newItems : List BatchItemRow

inductive Phase where
  | idle
  | completedRead (session : SessionRow)
  | read (session : SessionRow)
  | prechecked (session : SessionRow)
  | spooled (session : SessionRow) (spool : Spool)
  | transaction (session : SessionRow) (spool : Spool) (tx : Transaction)
  | failing (session : SessionRow) (error : PromotionError)
  | finished (result : Except PromotionError PromotionResult)

structure State where
  sessions : List SessionRow
  jobs : List BatchJobRow
  items : List BatchItemRow
  /-- The staged artifacts that storage has, by backend and key. -/
  artifacts : List (String × String)
  /-- Rows that a cleanup pass has listed. -/
  listed : List SessionRow
  /-- Artifacts of rows that a cleanup pass has deleted. -/
  dropped : List (String × String)
  phase : ℕ → Phase
  rowLock : String → Option ℕ
  advisoryLock : ℤ → Option ℕ
  /-- The batch ids of all jobs that promotions committed; no step reads it. -/
  created : List String

def State.setPhase (s : State) (pid : ℕ) (phase : Phase) : State :=
  { s with phase := Function.update s.phase pid phase }

/-- The locks of a process are released. -/
def State.release (s : State) (pid : ℕ) : State :=
  { s with
    rowLock := fun sessionId =>
      if s.rowLock sessionId = some pid then none else s.rowLock sessionId
    advisoryLock := fun key => if s.advisoryLock key = some pid then none else s.advisoryLock key }

/-- A transaction that ends without its writes. -/
def State.rollback (s : State) (pid : ℕ) (phase : Phase) : State :=
  (s.release pid).setPhase pid phase

def State.commit (s : State) (pid : ℕ) (tx : Transaction) (completedAt : Timestamp)
    (phase : Phase) : State :=
  { s.rollback pid phase with
    sessions := markSessionCompleted tx.row.contract.sessionId completedAt s.sessions
    jobs := s.jobs ++ tx.newJobs
    items := s.items ++ tx.newItems
    created := s.created ++ tx.newJobs.map BatchJobRow.batchId }

/-- A failure record; `pid` is done. -/
def State.recordFailure (s : State) (pid : ℕ) (sessionId : String) (error : PromotionError)
    (now : Timestamp) : State :=
  { s with sessions := markSessionFailed sessionId error now s.sessions }.setPhase pid
    (.finished (.error error))

def State.advance (s : State) (pid : ℕ) (session : SessionRow) (spool : Spool) (tx : Transaction)
    (stage : Stage) : State :=
  s.setPhase pid (.transaction session spool { tx with stage })

def PromotionResult.of (contract : SessionContract) (promoted : Bool) : PromotionResult :=
  ⟨contract.sessionId, contract.targetBatchId, promoted⟩

/-! ## Statements of a process -/

inductive Statement where
  | getSession (sessionId : String)
  | getCompletedJob
  | precheck
  | spool (outcome : ReadOutcome)
  | lockSession (now : Timestamp)
  | readJob
  | lockScope
  | countActive
  | lockTenant
  | sumQueued
  | createJob (now : Timestamp)
  | createItems (itemId : SpooledRequest → String)
  | markCompleted (now : Timestamp)
  | commit
  | commitUnseen (exc : String)
  | abort (exc : String)
  | recordFailure (now : Timestamp)
  | recordNothing
  | crash

def canStart : Phase → Bool
  | .idle => true
  | .finished _ => true
  | _ => false

/-- `get_session` and the checks on its row. -/
def getSession (s : State) (pid : ℕ) (sessionId : String) : State :=
  match sessionById sessionId s.sessions with
  | none => s.setPhase pid (.finished (.error (sessionNotFound sessionId)))
  | some session =>
      if session.status = .completed then s.setPhase pid (.completedRead session)
      else if session.status ∈ promotableStatuses then s.setPhase pid (.read session)
      else s.setPhase pid (.finished (.error (sessionNotPromotable session)))

/-- `get_job` of a completed session. -/
def completedResult (contract : SessionContract) (jobs : List BatchJobRow) :
    Except PromotionError PromotionResult :=
  match jobById contract.targetBatchId jobs with
  | none => .error (completedSessionMissingBatch contract)
  | some _ => .ok (.of contract false)

def activeJobsExceeded (w : Promoter) (contract : SessionContract) (jobs : List BatchJobRow) :
    Bool :=
  match contract.pendingScope with
  | none => false
  | some scope => 0 < w.maxPendingBatchesPerScope ∧
      w.maxPendingBatchesPerScope ≤ scope.activeJobs jobs

/-- What follows `get_job` under the row lock. -/
def afterJobRead (s : State) (pid : ℕ) (session : SessionRow) (spool : Spool) (tx : Transaction) :
    State :=
  match tx.row.status, jobById tx.row.contract.targetBatchId s.jobs with
  | .completed, none =>
      s.rollback pid (.failing session (completedSessionMissingBatch tx.row.contract))
  | .completed, some _ => s.rollback pid (.finished (.ok (.of tx.row.contract false)))
  | _, some _ => s.advance pid session spool tx .reconciling
  | status, none =>
      if status ∈ promotableStatuses then s.advance pid session spool tx .jobRead
      else s.rollback pid (.failing session (sessionNotPromotable tx.row))

/-- The lock key of the pending limit, none where there is no limit to check. -/
def pendingLockKey (w : Promoter) (contract : SessionContract) : Option ℤ :=
  if w.maxPendingBatchesPerScope = 0 then none
  else contract.pendingScope.map fun scope => w.lockKey scope.scopeType scope.scopeId

def tenantLockKey (w : Promoter) (contract : SessionContract) : Option ℤ :=
  if w.tenantMaxQueuedWorkUnits = 0 then none
  else some (w.lockKey (w.tenantScope contract).scopeType (w.tenantScope contract).scopeId)

/-- `pg_advisory_xact_lock`: granted unless another process holds the key. -/
def lockAdvisory (s : State) (pid : ℕ) (key : ℤ) : Option State :=
  if s.advisoryLock key = none ∨ s.advisoryLock key = some pid then
    some { s with advisoryLock := Function.update s.advisoryLock key (some pid) }
  else none

/-- The check of the tenant's queued work, none where the query raises. -/
def tenantWorkAllowed (w : Promoter) (contract : SessionContract) (spool : Spool) (now : Timestamp)
    (s : State) : Option Bool :=
  (tenantQuery w.sha256 (w.tenantScope contract) contract).map fun query =>
    getTenantQueuedWorkUnits query now s.jobs s.items + spool.remainingWorkUnits ≤
      w.tenantMaxQueuedWorkUnits

def missingApiKey : String := "created_by_api_key is required when counting api_key tenant backlog"

/-- The statements of an open transaction, none where one is not next. -/
def txStep (w : Promoter) (s : State) (pid : ℕ) (session : SessionRow) (spool : Spool)
    (tx : Transaction) : Stage → Statement → Option State
  | .locked, .readJob => some (afterJobRead s pid session spool tx)
  | .jobRead, .lockScope =>
      (pendingLockKey w tx.row.contract).bind fun key =>
        (lockAdvisory s pid key).map fun s => s.advance pid session spool tx .scopeLocked
  | .jobRead, .countActive =>
      if pendingLockKey w tx.row.contract = none then
        some (s.advance pid session spool tx .pendingChecked)
      else none
  | .scopeLocked, .countActive =>
      if activeJobsExceeded w tx.row.contract s.jobs then
        some (s.rollback pid (.failing session (pendingLimitExceeded w.maxPendingBatchesPerScope)))
      else some (s.advance pid session spool tx .pendingChecked)
  | .pendingChecked, .lockTenant =>
      (tenantLockKey w tx.row.contract).bind fun key =>
        (lockAdvisory s pid key).map fun s => s.advance pid session spool tx .tenantLocked
  | .pendingChecked, .sumQueued =>
      if tenantLockKey w tx.row.contract = none then some (s.advance pid session spool tx .admitted)
      else none
  | .tenantLocked, .sumQueued =>
      match tenantWorkAllowed w tx.row.contract spool tx.now s with
      | none => some (s.rollback pid (.failing session
          (promotionFailed session.contract.sessionId missingApiKey)))
      | some true => some (s.advance pid session spool tx .admitted)
      | some false => some (s.rollback pid (.failing session
          (tenantQueuedWorkLimitExceeded w.tenantMaxQueuedWorkUnits)))
  | .admitted, .createJob now =>
      if (jobById tx.row.contract.targetBatchId s.jobs).isSome then none
      else some (s.advance pid session spool
        { tx with newJobs := [promotedJob w tx.row.contract spool now] } (.inserting spool.lines))
  | .inserting (line :: lines), .createItems itemId =>
      let chunk := (line :: lines).take (max 1 w.insertChunkSize)
      (createItems s.items tx.newItems
        (chunk.map fun line => promotedItem tx.row.contract.targetBatchId (itemId line) line)).map
        fun own => s.advance pid session spool { tx with newItems := own }
          (.inserting ((line :: lines).drop (max 1 w.insertChunkSize)))
  | .inserting [], .createItems _ =>
      if tx.newItems.length = spool.lines.length then
        some (s.advance pid session spool tx .inserted)
      else some (s.rollback pid (.failing session (insertedItemCountMismatch
        session.contract.sessionId tx.newItems.length spool.lines.length)))
  | .inserted, .markCompleted now =>
      if tx.row.status ∈ promotableStatuses then
        some (s.advance pid session spool tx (.marked now true))
      else some (s.rollback pid (.failing session (completionFailed tx.row.contract)))
  | .reconciling, .markCompleted now =>
      if tx.row.status ∈ promotableStatuses then
        some (s.advance pid session spool tx (.marked now false))
      else some (s.rollback pid (.failing session (reconcileFailed tx.row.contract)))
  | .marked completedAt promoted, .commit =>
      some (s.commit pid tx completedAt (.finished (.ok (.of tx.row.contract promoted))))
  | .marked completedAt _, .commitUnseen exc =>
      some (s.commit pid tx completedAt
        (.failing session (promotionFailed session.contract.sessionId exc)))
  | _, .abort exc =>
      some (s.rollback pid (.failing session (promotionFailed session.contract.sessionId exc)))
  | _, .crash => some (s.rollback pid .idle)
  | _, _ => none

/-- The statements of a process, none where one is not next or has to wait. -/
def processStep (w : Promoter) (s : State) (pid : ℕ) : Phase → Statement → Option State
  | .transaction session spool tx, statement => txStep w s pid session spool tx tx.stage statement
  | phase, .getSession sessionId =>
      if canStart phase then some (getSession s pid sessionId) else none
  | .completedRead session, .getCompletedJob =>
      some (s.setPhase pid (.finished (completedResult session.contract s.jobs)))
  | .read session, .precheck =>
      if w.softPrecheckEnabled ∧ activeJobsExceeded w session.contract s.jobs then
        some (s.setPhase pid
          (.finished (.error (pendingLimitExceeded w.maxPendingBatchesPerScope))))
      else some (s.setPhase pid (.prechecked session))
  | .prechecked session, .spool outcome =>
      match outcome, spoolStagedItems w session.contract outcome with
      | .lines _, result =>
          if (session.contract.stagedStorageBackend, session.contract.stagedStorageKey) ∈
              s.artifacts then
            match result with
            | .error error => some (s.setPhase pid (.failing session error))
            | .ok spool => some (s.setPhase pid (.spooled session spool))
          else none
      | _, .error error => some (s.setPhase pid (.failing session error))
      | _, .ok _ => none
  | .spooled session spool, .lockSession now =>
      if s.rowLock session.contract.sessionId = none then
        match sessionById session.contract.sessionId s.sessions with
        | none => some (s.setPhase pid
            (.failing session (sessionNotFound session.contract.sessionId)))
        | some row => some ({ s with
            rowLock := Function.update s.rowLock session.contract.sessionId
              (some pid) }.setPhase pid
              (.transaction session spool ⟨now, row, .locked, [], []⟩))
      else none
  | .spooled session _, .abort exc =>
      some (s.setPhase pid (.failing session (promotionFailed session.contract.sessionId exc)))
  | .failing session error, .recordFailure now =>
      if session.status ∈ promotableStatuses then
        if s.rowLock session.contract.sessionId = none then
          some (s.recordFailure pid session.contract.sessionId error now)
        else none
      else some (s.setPhase pid (.finished (.error error)))
  | .failing _ error, .recordNothing => some (s.setPhase pid (.finished (.error error)))
  | _, .crash => some (s.setPhase pid .idle)
  | _, _ => none

/-! ## The system -/

inductive Event where
  | process (pid : ℕ) (statement : Statement)
  | listCandidates (cutoffs : CleanupCutoffs)
  | deleteCandidate (candidate : SessionRow)
  | deleteArtifact (backend key : String)
  | endJob (batchId : String) (status : BatchJobStatus)

/-- Another operation that only ends jobs. -/
def endJob (batchId : String) (status : BatchJobStatus) (jobs : List BatchJobRow) :
    List BatchJobRow :=
  TableStatements.updateWhere (fun job => job.batchId = batchId ∧ job.status.terminal = false)
    (fun job => { job with status }) jobs

/-- The artifact of a session that no row refers to. -/
def Unreferenced (s : State) (artifact : String × String) : Prop :=
  ∀ row ∈ s.sessions,
    (row.contract.stagedStorageBackend, row.contract.stagedStorageKey) ≠ artifact

instance (s : State) (artifact : String × String) : Decidable (Unreferenced s artifact) :=
  inferInstanceAs (Decidable (∀ _ ∈ _, _))

def deleteCandidate (candidate : SessionRow) (s : State) : State :=
  { s with
    sessions := deleteCleanupCandidate candidate s.sessions
    dropped := s.dropped ++
      (s.sessions.filter fun row => SameCandidate candidate row).map fun row =>
      (row.contract.stagedStorageBackend, row.contract.stagedStorageKey) }

def step (w : Promoter) (s : State) : Event → Option State
  | .process pid statement => processStep w s pid (s.phase pid) statement
  | .listCandidates cutoffs =>
      some { s with listed := s.listed ++ listCleanupCandidates cutoffs s.sessions }
  | .deleteCandidate candidate =>
      if candidate ∈ s.listed ∧ s.rowLock candidate.contract.sessionId = none then
        some (deleteCandidate candidate s)
      else none
  | .deleteArtifact backend key =>
      if (backend, key) ∈ s.dropped ∨ Unreferenced s (backend, key) then
        some { s with artifacts := s.artifacts.filter (· ≠ (backend, key)) }
      else none
  | .endJob batchId status =>
      if status.terminal then some { s with jobs := endJob batchId status s.jobs } else none

/-- Staged sessions of these contracts, whose artifacts hold as many lines as each contract expects,
before any of their jobs or items exist. -/
structure Initial (w : Promoter) (contracts : List SessionContract) (s : State) : Prop where
  sessionIds : (contracts.map SessionContract.sessionId).Nodup
  batchIds : (contracts.map SessionContract.targetBatchId).Nodup
  rows : s.sessions.map SessionRow.contract = contracts
  staged : ∀ row ∈ s.sessions, row.status = .staged
  counts : ∀ contract ∈ contracts, contract.expectedItemCount =
    (w.staged contract.stagedStorageBackend contract.stagedStorageKey).length
  noJobs : ∀ contract ∈ contracts, ∀ job ∈ s.jobs, job.batchId ≠ contract.targetBatchId
  noItems : ∀ contract ∈ contracts, ∀ item ∈ s.items, item.batchId ≠ contract.targetBatchId
  phases : ∀ pid, s.phase pid = .idle
  rowLocks : ∀ sessionId, s.rowLock sessionId = none
  advisoryLocks : ∀ key, s.advisoryLock key = none
  listed : s.listed = []
  dropped : s.dropped = []
  created : s.created = []

def promotionSystem (w : Promoter) (contracts : List SessionContract) :
    TransitionSystem State Event where
  initial := Initial w contracts
  enabled s e := (step w s e).isSome = true
  next s e := (step w s e).getD s

end SessionPromotion
