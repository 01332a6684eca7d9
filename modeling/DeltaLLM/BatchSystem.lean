import DeltaLLM.TransitionRuns
import DeltaLLM.BatchWorkClaim
import DeltaLLM.BatchCompletionOutbox

/-! # The batch system as one transition system

The database tables, together with what the processes hold between two statements: claimed
slices, loaded item records, outbox records under delivery, progress snapshots and started
finalizations. Every statement or transaction is one event. A process that crashes takes no
further event, and a slow one takes its next event in any later state.
-/
namespace BatchSystem

open BatchRecords
open BatchItemStatements
open BatchJobStatements
open BatchWorkClaim (WorkClaimRequest RowLocks WorkClaim claimNextWork)
open BatchCompletionOutbox
open JsonValues (JsonObject)
open TableStatements
open TransitionRuns

/-- A claim statement gave this item to this worker at this epoch. -/
structure ClaimEvent where
  itemId : String
  workerId : String
  claimEpoch : ℕ
  deriving DecidableEq, Repr

/-- A work claim as the worker holds it. The claim itself carries item ids only; the epochs
are kept here to say which claim a later statement acts for. -/
structure WorkSlice where
  workerId : String
  batchId : String
  claims : List ClaimEvent
  deriving DecidableEq

/-- An item record that a worker executes. `claimedEpoch` is the epoch its claim statement
gave; `claimEpoch` and `attempts` are the columns the record was read with. -/
structure HeldItem where
  itemId : String
  workerId : String
  claimedEpoch : ℕ
  claimEpoch : ℕ
  attempts : ℕ
  deriving DecidableEq

structure OutboxHold where
  workerId : String
  record : BatchCompletionOutboxRow

structure ProgressRead where
  batchId : String
  stats : ProgressStats

inductive FinalizationPhase where
  | writing | attached | rejected
  deriving DecidableEq

/-- One run of `finalize_artifacts`: the file rows it created and the status it resolved. -/
structure FinalizationRun where
  runId : String
  batchId : String
  workerId : String
  outputFileId : Option String
  errorFileId : Option String
  finalStatus : BatchJobStatus
  phase : FinalizationPhase

structure BatchState where
  jobs : List BatchJobRow
  items : List BatchItemRow
  outbox : List BatchCompletionOutboxRow
  spending : Spending
  claimEvents : List ClaimEvent
  slices : List WorkSlice
  held : List HeldItem
  outboxHolds : List OutboxHold
  progressReads : List ProgressRead
  finalizations : List FinalizationRun

def initialState : BatchState :=
  ⟨[], [], [], ⟨[], []⟩, [], [], [], [], [], []⟩

inductive Event where
  /-- `claim_items`. -/
  | claimItems (now : Timestamp) (batchId workerId : String) (limit leaseSeconds : ℕ)
      (skip : String → Bool)
  /-- `claim_next_work` in any of its modes. -/
  | claimWork (now : Timestamp) (request : WorkClaimRequest) (locks : RowLocks)
  /-- `load_claim_items` after a work claim. -/
  | loadClaimItems (slice : WorkSlice)
  | renewItemLease (now : Timestamp) (held : HeldItem) (leaseSeconds : ℕ)
  /-- `mark_item_completed`, without the outbox. -/
  | markItemCompleted (now : Timestamp) (workerId : String) (completed : CompletedItem)
  /-- `mark_items_completed_bulk`, without the outbox. -/
  | markItemsCompletedBulk (now : Timestamp) (workerId : String) (payload : List CompletedItem)
      (skip : String → Bool)
  | completeItemsWithOutboxBulk (now : Timestamp) (workerId : String)
      (entries : List OutboxCompletion) (skip : String → Bool)
  /-- `_mark_item_failed` with its retry decision. -/
  | markItemFailed (now : Timestamp) (held : HeldItem) (errorBody : JsonObject)
      (lastError : String) (retryable : Bool) (retryDelaySeconds : ℕ)
  /-- `_release_failed_microbatch_for_retry`. -/
  | releaseFailedMicrobatch (now : Timestamp) (workerId : String) (chunk : List HeldItem)
      (retryDelaySeconds : ℕ) (errorBody : JsonObject) (lastError : String)
  /-- The requeue of `_persist_completion_rows_with_outbox`. -/
  | requeueAfterPersistenceFailure (now : Timestamp) (workerId : String) (chunk : List HeldItem)
  | releaseClaimItems (slice : WorkSlice)
  | markPendingItemsCancelled (now : Timestamp) (batchId : String)
  | requeueExpiredInProgressItems (now : Timestamp) (batchId : String)
  | failNonterminalItems (now : Timestamp) (batchId reason : String)
  | sweepExpiredItems (now : Timestamp) (limit : ℕ) (skip : String → Bool)
  | sweepExpiredJobs (now : Timestamp) (limit : ℕ) (skip : String → Bool)
  | sweepRefreshJobs (now : Timestamp) (limit : ℕ) (batchIds : List String)
      (skip : String → Bool)
  /-- `refresh_job_progress` takes its snapshot … -/
  | readProgress (batchId : String)
  /-- … and updates the job row it may have waited for. -/
  | applyProgress (now : Timestamp) (read : ProgressRead)
  | requestCancel (now : Timestamp) (batchId : String)
  | claimNextJob (now : Timestamp) (workerId : String) (leaseSeconds : ℕ)
      (skip : String → Bool)
  | claimNextFinalization (now : Timestamp) (workerId : String) (leaseSeconds : ℕ)
      (skip : String → Bool)
  | renewJobLease (now : Timestamp) (batchId workerId : String) (leaseSeconds : ℕ)
  | releaseJobLease (batchId workerId : String)
  | rescheduleFinalization (now : Timestamp) (batchId workerId : String)
      (retryDelaySeconds : ℕ)
  | retryFinalizationNow (batchId : String)
  | setProviderError (batchId : String) (providerError : Option String)
  /-- `finalize_artifacts` up to its file rows, for any record of the job it holds. -/
  | writeArtifacts (runId workerId : String) (job : BatchJobRow)
      (outputFileId errorFileId : Option String)
  | attachArtifacts (now : Timestamp) (run : FinalizationRun)
  /-- `_cleanup_unattached_artifacts`: the deleted file rows clear the columns that name them. -/
  | cleanupArtifacts (run : FinalizationRun)
  /-- `_persist_permanent_finalization_failure`. -/
  | persistPermanentFailure (now : Timestamp) (batchId workerId : String)
  /-- The promotion transaction of a create session. -/
  | promoteSession (job : BatchJobRow) (items : List BatchItemRow)
  | claimOutboxDue (now : Timestamp) (workerId : String) (leaseSeconds limit : ℕ)
      (skip : String → Bool)
  | deliverCompletion (now : Timestamp) (hold : OutboxHold)
  | failDelivery (hold : OutboxHold) (error : String) (nextAttemptAt : Timestamp)
  | renewOutboxLease (now : Timestamp) (hold : OutboxHold) (leaseSeconds : ℕ)

/-- Claim events for the rows a claim statement returned. -/
def claimEventsOf (workerId : String) (rows : List BatchItemRow) : List ClaimEvent :=
  rows.map fun row => ⟨row.itemId, workerId, row.claimEpoch⟩

/-- The records that `claim_items` returns. -/
def heldRows (workerId : String) (rows : List BatchItemRow) : List HeldItem :=
  rows.map fun row => ⟨row.itemId, workerId, row.claimEpoch, row.claimEpoch, row.attempts⟩

/-- The records that `load_claim_items` reads for a slice. -/
def loadedItems (slice : WorkSlice) (items : List BatchItemRow) : List HeldItem :=
  slice.claims.filterMap fun claim =>
    (rowWithKey BatchItemRow.itemId claim.itemId items).map fun row =>
      ⟨claim.itemId, slice.workerId, claim.claimEpoch, row.claimEpoch, row.attempts⟩

/-- The slice that a work claim hands over. -/
def sliceOf (claim : WorkClaim) (items : List BatchItemRow) : WorkSlice :=
  ⟨claim.workerId, claim.batchId,
    claimEventsOf claim.workerId (items.filter fun item => item.itemId ∈ claim.itemIds)⟩

/-- `item_claim_epochs` for a chunk of records. -/
def chunkPayload (chunk : List HeldItem) : List (String × ℕ) :=
  chunk.map fun held => (held.itemId, held.claimEpoch)

/-- ON DELETE SET NULL on the two file columns of a job. -/
def clearFiles (fileIds : List String) (job : BatchJobRow) : BatchJobRow :=
  { job with
    outputFileId := job.outputFileId.filter fun fileId => fileId ∉ fileIds
    errorFileId := job.errorFileId.filter fun fileId => fileId ∉ fileIds }

def FinalizationRun.fileIds (run : FinalizationRun) : List String :=
  run.outputFileId.toList ++ run.errorFileId.toList

def setPhase (runId : String) (phase : FinalizationPhase) (runs : List FinalizationRun) :
    List FinalizationRun :=
  updateWhere (fun run => run.runId = runId) (fun run => { run with phase := phase }) runs

/-- A worker completes only items it holds a record of. -/
def HoldsAll (s : BatchState) (workerId : String) (payload : List CompletedItem) : Prop :=
  ∀ completed ∈ payload, ∃ held ∈ s.held, held.workerId = workerId ∧
    held.itemId = completed.itemId ∧ held.claimEpoch = completed.claimEpoch

/-- A new job with fresh ids, queued, and with pending items that were never claimed. -/
structure Promotable (s : BatchState) (job : BatchJobRow) (items : List BatchItemRow) : Prop where
  freshJob : ∀ other ∈ s.jobs, other.batchId ≠ job.batchId
  queued : job.status = .queued
  noFiles : job.outputFileId = none ∧ job.errorFileId = none
  nonempty : items ≠ []
  ownItems : ∀ item ∈ items, item.batchId = job.batchId
  freshItems : ∀ item ∈ items, ∀ other ∈ s.items, other.itemId ≠ item.itemId
  distinctItems : (items.map BatchItemRow.itemId).Nodup
  pendingItems : ∀ item ∈ items, item.status = .pending ∧ item.attempts = 0 ∧
    item.claimEpoch = 0 ∧ item.lockedBy = none

/-- What the process that takes an event has read or decided before it. `maxAttempts` is the
worker's `max_attempts`. -/
def Enabled (maxAttempts : ℕ) (s : BatchState) : Event → Prop
  | .loadClaimItems slice => slice ∈ s.slices
  | .renewItemLease _ held _ => held ∈ s.held
  | .markItemCompleted _ workerId completed => HoldsAll s workerId [completed]
  | .markItemsCompletedBulk _ workerId payload _ =>
      HoldsAll s workerId payload ∧ (payload.map CompletedItem.itemId).Nodup
  | .completeItemsWithOutboxBulk _ workerId entries _ =>
      HoldsAll s workerId (entries.map OutboxCompletion.completed) ∧
        (entries.map fun entry => entry.completed.itemId).Nodup ∧
        (entries.map OutboxCompletion.completionId).Nodup ∧
        ∀ entry ∈ entries, ∀ row ∈ s.outbox, row.completionId ≠ entry.completionId
  | .markItemFailed _ held _ _ retryable _ =>
      held ∈ s.held ∧ (retryable = true → held.attempts < maxAttempts)
  | .releaseFailedMicrobatch _ workerId chunk _ _ _ =>
      (chunk.map HeldItem.itemId).Nodup ∧
        ∀ held ∈ chunk, held ∈ s.held ∧ held.workerId = workerId ∧ held.attempts < maxAttempts
  | .requeueAfterPersistenceFailure _ workerId chunk =>
      (chunk.map HeldItem.itemId).Nodup ∧
        ∀ held ∈ chunk, held ∈ s.held ∧ held.workerId = workerId
  | .releaseClaimItems slice => slice ∈ s.slices
  | .readProgress batchId => ∃ job ∈ s.jobs, job.batchId = batchId
  | .applyProgress _ read => read ∈ s.progressReads
  | .writeArtifacts runId _ _ outputFileId errorFileId =>
      (∀ run ∈ s.finalizations, run.runId ≠ runId) ∧
        ∀ fileId ∈ outputFileId.toList ++ errorFileId.toList,
          ∀ run ∈ s.finalizations, fileId ∉ run.fileIds
  | .attachArtifacts _ run => run ∈ s.finalizations ∧ run.phase = .writing
  | .cleanupArtifacts run => run ∈ s.finalizations ∧ run.phase ≠ .attached
  | .promoteSession job items => Promotable s job items
  | .deliverCompletion _ hold => hold ∈ s.outboxHolds
  | .failDelivery hold _ _ => hold ∈ s.outboxHolds
  | .renewOutboxLease _ hold _ => hold ∈ s.outboxHolds
  | _ => True

/-- The state after a work claim. -/
def afterWorkClaim (s : BatchState) (now : Timestamp) (request : WorkClaimRequest)
    (locks : RowLocks) : BatchState :=
  let result := claimNextWork request now locks s.jobs s.items
  match result.claim with
  | none => { s with jobs := result.jobs, items := result.items }
  | some claim =>
      let slice := sliceOf claim result.items
      { s with
        jobs := result.jobs
        items := result.items
        claimEvents := slice.claims ++ s.claimEvents
        slices := slice :: s.slices }

def next (s : BatchState) : Event → BatchState
  | .claimItems now batchId workerId limit leaseSeconds skip =>
      let claimed := BatchItemStatements.claimItems now batchId workerId limit leaseSeconds skip
        s.items
      { s with
        items := claimed.1
        claimEvents := claimEventsOf workerId claimed.2 ++ s.claimEvents
        held := heldRows workerId claimed.2 ++ s.held }
  | .claimWork now request locks => afterWorkClaim s now request locks
  | .loadClaimItems slice => { s with held := loadedItems slice s.items ++ s.held }
  | .renewItemLease now held leaseSeconds =>
      { s with
        items := BatchItemStatements.renewItemLease now held.itemId held.workerId
          leaseSeconds held.claimEpoch s.items }
  | .markItemCompleted now workerId completed =>
      { s with items := BatchItemStatements.markItemCompleted now completed workerId s.items }
  | .markItemsCompletedBulk now workerId payload skip =>
      { s with
        items := (BatchItemStatements.markItemsCompletedBulk now payload workerId skip s.items).1 }
  | .completeItemsWithOutboxBulk now workerId entries skip =>
      let completion := BatchCompletionOutbox.completeItemsWithOutboxBulk now entries workerId
        skip s.items s.outbox
      { s with items := completion.items, outbox := completion.outbox }
  | .markItemFailed now held errorBody lastError retryable retryDelaySeconds =>
      { s with
        items := BatchItemStatements.markItemFailed now held.itemId held.workerId errorBody
          lastError retryable retryDelaySeconds held.claimEpoch s.jobs s.items }
  | .releaseFailedMicrobatch now workerId chunk retryDelaySeconds errorBody lastError =>
      { s with
        items := releaseItemsForRetry now (chunkPayload chunk) workerId retryDelaySeconds
          (some errorBody) (some lastError) s.jobs s.items }
  | .requeueAfterPersistenceFailure now workerId chunk =>
      { s with
        items := releaseItemsForRetry now (chunkPayload chunk) workerId 0 none none
          s.jobs s.items }
  | .releaseClaimItems slice =>
      { s with
        items := BatchItemStatements.releaseClaimItems
          (slice.claims.map ClaimEvent.itemId) slice.workerId s.items }
  | .markPendingItemsCancelled now batchId =>
      { s with items := BatchItemStatements.markPendingItemsCancelled now batchId s.items }
  | .requeueExpiredInProgressItems now batchId =>
      { s with items := BatchItemStatements.requeueExpiredInProgressItems now batchId s.items }
  | .failNonterminalItems now batchId reason =>
      { s with items := BatchItemStatements.failNonterminalItems now batchId reason s.items }
  | .sweepExpiredItems now limit skip =>
      { s with items := (requeueExpiredItemLeases now limit skip s.jobs s.items).1 }
  | .sweepExpiredJobs now limit skip =>
      { s with jobs := releaseExpiredJobLeases now limit skip s.jobs }
  | .sweepRefreshJobs now limit batchIds skip =>
      { s with jobs := refreshJobProgressForBatches now limit batchIds skip s.jobs s.items }
  | .readProgress batchId =>
      { s with progressReads := ⟨batchId, progressStats batchId s.items⟩ :: s.progressReads }
  | .applyProgress now read =>
      { s with jobs := refreshJobProgress now read.batchId read.stats s.jobs }
  | .requestCancel now batchId =>
      { s with jobs := BatchJobStatements.requestCancel now batchId s.jobs }
  | .claimNextJob now workerId leaseSeconds skip =>
      { s with jobs := BatchJobStatements.claimNextJob now workerId leaseSeconds skip s.jobs }
  | .claimNextFinalization now workerId leaseSeconds skip =>
      { s with
        jobs := BatchJobStatements.claimNextFinalization now workerId leaseSeconds skip s.jobs }
  | .renewJobLease now batchId workerId leaseSeconds =>
      { s with jobs := BatchJobStatements.renewJobLease now batchId workerId leaseSeconds s.jobs }
  | .releaseJobLease batchId workerId =>
      { s with jobs := BatchJobStatements.releaseJobLease batchId workerId s.jobs }
  | .rescheduleFinalization now batchId workerId retryDelaySeconds =>
      { s with
        jobs := BatchJobStatements.rescheduleFinalization now batchId workerId
          retryDelaySeconds s.jobs }
  | .retryFinalizationNow batchId =>
      { s with jobs := BatchJobStatements.retryFinalizationNow batchId s.jobs }
  | .setProviderError batchId providerError =>
      { s with jobs := BatchJobStatements.setProviderError batchId providerError s.jobs }
  | .writeArtifacts runId workerId job outputFileId errorFileId =>
      { s with
        finalizations :=
          ⟨runId, job.batchId, workerId, outputFileId, errorFileId, resolveFinalStatus job,
            .writing⟩ :: s.finalizations }
  | .attachArtifacts now run =>
      { s with
        jobs := attachArtifactsAndFinalize now run.batchId run.workerId run.outputFileId
          run.errorFileId run.finalStatus s.jobs
        finalizations := setPhase run.runId
          (if ∃ job ∈ s.jobs, FinalizableBy run.batchId run.workerId job then .attached
            else .rejected) s.finalizations }
  | .cleanupArtifacts run =>
      { s with
        jobs := s.jobs.map (clearFiles run.fileIds)
        finalizations := setPhase run.runId .rejected s.finalizations }
  | .persistPermanentFailure now batchId workerId =>
      { s with jobs := attachArtifactsAndFinalize now batchId workerId none none .failed s.jobs }
  | .promoteSession job items => { s with jobs := s.jobs ++ [job], items := s.items ++ items }
  | .claimOutboxDue now workerId leaseSeconds limit skip =>
      let claimed := claimDue now workerId leaseSeconds limit skip s.outbox
      { s with
        outbox := claimed.1
        outboxHolds := claimed.2.map (OutboxHold.mk workerId) ++ s.outboxHolds }
  | .deliverCompletion now hold =>
      let delivery := recordDurableSuccess now hold.record hold.workerId s.outbox s.spending
      { s with outbox := delivery.outbox, spending := delivery.spending }
  | .failDelivery hold error nextAttemptAt =>
      { s with
        outbox := recordDeliveryFailure hold.record hold.workerId error nextAttemptAt
          s.outbox }
  | .renewOutboxLease now hold leaseSeconds =>
      { s with
        outbox := renewLease now hold.record.completionId hold.workerId leaseSeconds
          s.outbox }

/-- The batch system of workers configured with `maxAttempts`. -/
def batchSystem (maxAttempts : ℕ) : TransitionSystem BatchState Event where
  initial s := s = initialState
  enabled := Enabled maxAttempts
  next := next

/-- An empty database takes any session of one row. -/
theorem promotable_created (batchId endpoint itemId customId : String) (createdAt : Timestamp)
    (lineNumber estimatedWorkUnits : ℕ) (requestBody : JsonObject) :
    Promotable initialState (createdJob batchId endpoint createdAt)
      [createdItem itemId batchId lineNumber customId requestBody estimatedWorkUnits] where
  freshJob := by simp [initialState]
  queued := rfl
  noFiles := ⟨rfl, rfl⟩
  nonempty := by simp
  ownItems := by simp [createdItem, createdJob]
  freshItems := by simp [initialState]
  distinctItems := by simp
  pendingItems := by simp [createdItem]

end BatchSystem
