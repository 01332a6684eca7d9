import DeltaLLM.BatchRecords

/-! # Statements on the job table

Every writer of the status column of a batch job, and the lease statements around them.
`ProgressStats` is the snapshot that a progress refresh takes of the item table; the UPDATE
that follows it in the same statement may see a newer job row.
-/
namespace BatchJobStatements

open BatchRecords
open TableStatements

/-- `request_cancel`. -/
def requestCancelRow (now : Timestamp) (job : BatchJobRow) : BatchJobRow :=
  { job with
    cancelRequestedAt := some now
    status :=
      if job.status.terminal then job.status
      else if job.status = .finalizing then job.status
      else .inProgress }

def requestCancel (now : Timestamp) (batchId : String) (jobs : List BatchJobRow) :
    List BatchJobRow :=
  updateWhere (fun job => job.batchId = batchId) (requestCancelRow now) jobs

/-- `CASE WHEN j.status = 'queued' THEN 'in_progress' ELSE j.status END`. -/
def startQueued (status : BatchJobStatus) : BatchJobStatus :=
  if status = .queued then .inProgress else status

def claimJobRow (now : Timestamp) (workerId : String) (leaseSeconds : ℕ) (job : BatchJobRow) :
    BatchJobRow :=
  { job with
    lockedBy := some workerId
    leaseExpiresAt := some (now + seconds leaseSeconds)
    status := startQueued job.status
    startedAt := job.startedAt <|> some now
    firstClaimedAt := job.firstClaimedAt <|> some now
    lastClaimedAt := some now
    lastScheduledAt := some now }

/-- `ORDER BY CASE WHEN status = 'finalizing' THEN 1 ELSE 0 END, created_at ASC`. -/
def jobClaimOrder (a b : BatchJobRow) : Prop :=
  let late (job : BatchJobRow) : ℕ := if job.status = .finalizing then 1 else 0
  late a < late b ∨ (late a = late b ∧ a.createdAt ≤ b.createdAt)

instance : DecidableRel jobClaimOrder := by
  intro a b
  unfold jobClaimOrder
  exact inferInstance

/-- `claim_next_job`. -/
def claimNextJob (now : Timestamp) (workerId : String) (leaseSeconds : ℕ)
    (skip : String → Bool) (jobs : List BatchJobRow) : List BatchJobRow :=
  let candidate := selectFirst
    (fun job => job.status.terminal = false ∧ leaseFree job.leaseExpiresAt now ∧
      skip job.batchId = false) jobClaimOrder 1 jobs
  updateWhere (fun job => job.batchId ∈ candidate.map BatchJobRow.batchId)
    (claimJobRow now workerId leaseSeconds) jobs

/-- `COALESCE(queue_entered_at, created_at)`. -/
def BatchJobRow.queuedSince (job : BatchJobRow) : Timestamp :=
  job.queueEnteredAt.getD job.createdAt

def finalizationOrder (a b : BatchJobRow) : Prop :=
  BatchJobRow.queuedSince a < BatchJobRow.queuedSince b ∨
    (BatchJobRow.queuedSince a = BatchJobRow.queuedSince b ∧ a.createdAt ≤ b.createdAt)

instance : DecidableRel finalizationOrder := by
  intro a b
  unfold finalizationOrder
  exact inferInstance

def claimFinalizationRow (now : Timestamp) (workerId : String) (leaseSeconds : ℕ)
    (job : BatchJobRow) : BatchJobRow :=
  { job with
    lockedBy := some workerId
    leaseExpiresAt := some (now + seconds leaseSeconds)
    lastClaimedAt := some now
    lastScheduledAt := some now }

/-- `claim_next_finalization`. -/
def claimNextFinalization (now : Timestamp) (workerId : String) (leaseSeconds : ℕ)
    (skip : String → Bool) (jobs : List BatchJobRow) : List BatchJobRow :=
  let candidate := selectFirst
    (fun job => job.status = .finalizing ∧ leaseFree job.leaseExpiresAt now ∧
      skip job.batchId = false) finalizationOrder 1 jobs
  updateWhere (fun job => job.batchId ∈ candidate.map BatchJobRow.batchId)
    (claimFinalizationRow now workerId leaseSeconds) jobs

/-- The `updated_job` CTE of a work claim. -/
def workClaimJobRow (now : Timestamp) (job : BatchJobRow) : BatchJobRow :=
  { job with
    status := startQueued job.status
    startedAt := job.startedAt <|> some now
    firstClaimedAt := job.firstClaimedAt <|> some now
    lastClaimedAt := some now
    lastScheduledAt := some now
    lockedBy := none
    leaseExpiresAt := none }

/-- The job predicate of a work claim: queued or running, and not leased. -/
def WorkClaimable (now : Timestamp) (job : BatchJobRow) : Prop :=
  (job.status = .queued ∨ job.status = .inProgress) ∧
    (job.lockedBy = none ∨ leaseFree job.leaseExpiresAt now)

instance (now : Timestamp) (job : BatchJobRow) : Decidable (WorkClaimable now job) := by
  unfold WorkClaimable
  exact inferInstance

structure ProgressStats where
  totalItems : ℕ
  pendingItems : ℕ
  inProgressItems : ℕ
  completedItems : ℕ
  failedItems : ℕ
  cancelledItems : ℕ
  remainingWorkUnits : ℕ
  deriving DecidableEq

/-- The `stats` CTE of a progress refresh. -/
def progressStats (batchId : String) (items : List BatchItemRow) : ProgressStats :=
  let own := items.filter fun item => item.batchId = batchId
  { totalItems := own.length
    pendingItems := own.countP fun item => item.status = .pending
    inProgressItems := own.countP fun item => item.status = .inProgress
    completedItems := own.countP fun item => item.status = .completed
    failedItems := own.countP fun item => item.status = .failed
    cancelledItems := own.countP fun item => item.status = .cancelled
    remainingWorkUnits :=
      ((own.filter fun item => item.status.terminal = false).map
        BatchItemRow.estimatedWorkUnits).sum }

/-- The status CASE that both progress refreshes share. -/
def refreshedStatus (stats : ProgressStats) (status : BatchJobStatus) : BatchJobStatus :=
  if status.terminal then status
  else if stats.pendingItems = 0 ∧ stats.inProgressItems = 0 then .finalizing
  else if 0 < stats.inProgressItems ∨ 0 < stats.completedItems ∨ 0 < stats.failedItems ∨
      0 < stats.cancelledItems then .inProgress
  else status

def refreshRow (now : Timestamp) (stats : ProgressStats) (job : BatchJobRow) : BatchJobRow :=
  { job with
    totalItems := stats.totalItems
    inProgressItems := stats.inProgressItems
    completedItems := stats.completedItems
    failedItems := stats.failedItems
    cancelledItems := stats.cancelledItems
    remainingWorkUnits := stats.remainingWorkUnits
    status := refreshedStatus stats job.status
    completedAt := if job.status.terminal then job.completedAt <|> some now else none }

/-- The UPDATE of `refresh_job_progress`, with the stats its snapshot counted. -/
def refreshJobProgress (now : Timestamp) (batchId : String) (stats : ProgressStats)
    (jobs : List BatchJobRow) : List BatchJobRow :=
  updateWhere (fun job => job.batchId = batchId) (refreshRow now stats) jobs

/-- `sorted(batch_ids)[: max(0, limit)]`, blank ids left out. -/
def boundedBatchIds (limit : ℕ) (batchIds : List String) : List String :=
  ((batchIds.dedup.filter fun batchId => batchId ≠ "").insertionSort (· ≤ ·)).take limit

/-- `_refresh_job_progress_for_batches`: the job rows are locked before the items are counted,
and a batch without items has no stats row. -/
def refreshJobProgressForBatches (now : Timestamp) (limit : ℕ) (batchIds : List String)
    (skip : String → Bool) (jobs : List BatchJobRow) (items : List BatchItemRow) :
    List BatchJobRow :=
  jobs.map fun job =>
    if job.batchId ∈ boundedBatchIds limit batchIds ∧ skip job.batchId = false ∧
        ∃ item ∈ items, item.batchId = job.batchId then
      refreshRow now (progressStats job.batchId items) job
    else job

def releaseLeaseRow (job : BatchJobRow) : BatchJobRow :=
  { job with lockedBy := none, leaseExpiresAt := none }

/-- `ORDER BY lease_expires_at ASC, batch_id ASC`. -/
def jobLeaseOrder (a b : BatchJobRow) : Prop :=
  a.leaseExpiresAt.getD 0 < b.leaseExpiresAt.getD 0 ∨
    (a.leaseExpiresAt.getD 0 = b.leaseExpiresAt.getD 0 ∧ a.batchId ≤ b.batchId)

instance : DecidableRel jobLeaseOrder := by
  intro a b
  unfold jobLeaseOrder
  exact inferInstance

/-- `_release_expired_job_leases`. -/
def releaseExpiredJobLeases (now : Timestamp) (limit : ℕ) (skip : String → Bool)
    (jobs : List BatchJobRow) : List BatchJobRow :=
  let candidates := selectFirst
    (fun job => job.status.terminal = false ∧ job.lockedBy ≠ none ∧
      leaseExpired job.leaseExpiresAt now ∧ skip job.batchId = false) jobLeaseOrder limit jobs
  updateWhere (fun job => job.batchId ∈ candidates.map BatchJobRow.batchId) releaseLeaseRow jobs

def attachRow (now : Timestamp) (outputFileId errorFileId : Option String)
    (finalStatus : BatchJobStatus) (job : BatchJobRow) : BatchJobRow :=
  { job with
    outputFileId := outputFileId
    errorFileId := errorFileId
    status := finalStatus
    completedAt := job.completedAt <|> some now
    leaseExpiresAt := none
    lockedBy := none }

/-- The finalizer's fence: the job is finalizing and locked by this worker. -/
def FinalizableBy (batchId workerId : String) (job : BatchJobRow) : Prop :=
  job.batchId = batchId ∧ job.lockedBy = some workerId ∧ job.status = .finalizing

instance (batchId workerId : String) (job : BatchJobRow) :
    Decidable (FinalizableBy batchId workerId job) := by
  unfold FinalizableBy
  exact inferInstance

/-- `attach_artifacts_and_finalize` with a worker id, as every caller gives one. -/
def attachArtifactsAndFinalize (now : Timestamp) (batchId workerId : String)
    (outputFileId errorFileId : Option String) (finalStatus : BatchJobStatus)
    (jobs : List BatchJobRow) : List BatchJobRow :=
  updateWhere (FinalizableBy batchId workerId)
    (attachRow now outputFileId errorFileId finalStatus) jobs

/-- `reschedule_finalization`. -/
def rescheduleFinalization (now : Timestamp) (batchId workerId : String)
    (retryDelaySeconds : ℕ) (jobs : List BatchJobRow) : List BatchJobRow :=
  updateWhere (FinalizableBy batchId workerId)
    (fun job => { job with
      leaseExpiresAt := some (now + seconds (max 1 retryDelaySeconds)), lockedBy := none }) jobs

/-- `retry_finalization_now`. -/
def retryFinalizationNow (batchId : String) (jobs : List BatchJobRow) : List BatchJobRow :=
  updateWhere (fun job => job.batchId = batchId ∧ job.status = .finalizing) releaseLeaseRow jobs

/-- `renew_job_lease`. -/
def renewJobLease (now : Timestamp) (batchId workerId : String) (leaseSeconds : ℕ)
    (jobs : List BatchJobRow) : List BatchJobRow :=
  updateWhere
    (fun job => job.batchId = batchId ∧ job.lockedBy = some workerId ∧
      (job.status = .inProgress ∨ job.status = .finalizing))
    (fun job => { job with leaseExpiresAt := some (now + seconds leaseSeconds) }) jobs

/-- `release_job_lease`. -/
def releaseJobLease (batchId workerId : String) (jobs : List BatchJobRow) : List BatchJobRow :=
  updateWhere (fun job => job.batchId = batchId ∧ job.lockedBy = some workerId)
    releaseLeaseRow jobs

/-- `set_provider_error`. -/
def setProviderError (batchId : String) (providerError : Option String)
    (jobs : List BatchJobRow) : List BatchJobRow :=
  updateWhere (fun job => job.batchId = batchId)
    (fun job => { job with providerError := providerError }) jobs

/-- `is_operator_failed_reason`. -/
def isOperatorFailedReason (value : Option String) : Bool :=
  "__operator_failed__:".toList.isPrefixOf (value.getD "").toList

/-- `resolve_final_status`. -/
def resolveFinalStatus (job : BatchJobRow) : BatchJobStatus :=
  if job.cancelRequestedAt.isSome then .cancelled
  else if isOperatorFailedReason job.providerError then .failed
  else if job.completedItems = 0 ∧ 0 < job.failedItems then .failed
  else .completed

theorem resolveFinalStatus_terminal (job : BatchJobRow) :
    (resolveFinalStatus job).terminal = true := by
  unfold resolveFinalStatus
  split_ifs <;> rfl

theorem refreshedStatus_of_terminal (stats : ProgressStats) {status : BatchJobStatus}
    (h : status.terminal = true) : refreshedStatus stats status = status := by
  simp [refreshedStatus, h]

theorem startQueued_of_ne_queued {status : BatchJobStatus} (h : status ≠ .queued) :
    startQueued status = status := by
  simp [startQueued, h]

/-- The refresh says finalizing only for a job that was, or when its snapshot counted no item
that is pending or in progress. -/
theorem refreshedStatus_finalizing {stats : ProgressStats} {status : BatchJobStatus}
    (h : refreshedStatus stats status = .finalizing) :
    status = .finalizing ∨ (stats.pendingItems = 0 ∧ stats.inProgressItems = 0) := by
  unfold refreshedStatus at h
  split_ifs at h with hterminal hdone
  · exact Or.inl h
  · exact Or.inr hdone
  · exact Or.inl h

/-- A snapshot without pending or in-progress items counted only terminal ones. -/
theorem progressStats_done {batchId : String} {items : List BatchItemRow}
    (h : (progressStats batchId items).pendingItems = 0 ∧
      (progressStats batchId items).inProgressItems = 0) :
    ∀ item ∈ items, item.batchId = batchId → item.status.terminal = true := by
  intro item hitem hbatch
  simp only [progressStats, List.countP_eq_zero, List.mem_filter] at h
  have hpending := h.1 item ⟨hitem, by simpa using hbatch⟩
  have hrunning := h.2 item ⟨hitem, by simpa using hbatch⟩
  cases hstatus : item.status <;> simp_all [BatchItemStatus.terminal]

end BatchJobStatements
