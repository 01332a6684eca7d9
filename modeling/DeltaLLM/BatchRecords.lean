import DeltaLLM.JsonValues
import DeltaLLM.TableStatements

/-! # Rows of the batch tables

Columns that the batch worker, the schedulers and the completion outbox read or write.
A timestamp counts microseconds from the smallest datetime; ids are the stored texts.
-/
namespace BatchRecords

open JsonValues (JsonValue JsonObject)
open TableStatements (rowWithKey)

abbrev Timestamp := ℕ

/-- `n || ' seconds'` as an interval. -/
def seconds (n : ℕ) : ℕ := n * 1000000

inductive BatchJobStatus where
  | queued | inProgress | finalizing | completed | failed | cancelled | expired
  deriving DecidableEq, Repr

/-- `status IN ('completed', 'failed', 'cancelled', 'expired')`. -/
def BatchJobStatus.terminal : BatchJobStatus → Bool
  | .completed | .failed | .cancelled | .expired => true
  | .queued | .inProgress | .finalizing => false

inductive BatchItemStatus where
  | pending | inProgress | completed | failed | cancelled
  deriving DecidableEq, Repr

def BatchItemStatus.terminal : BatchItemStatus → Bool
  | .completed | .failed | .cancelled => true
  | .pending | .inProgress => false

inductive BatchCompletionOutboxStatus where
  | queued | processing | retrying | sent | failed
  deriving DecidableEq, Repr

structure BatchJobRow where
  batchId : String
  endpoint : String
  status : BatchJobStatus
  outputFileId : Option String
  errorFileId : Option String
  providerError : Option String
  totalItems : ℕ
  inProgressItems : ℕ
  completedItems : ℕ
  failedItems : ℕ
  cancelledItems : ℕ
  lockedBy : Option String
  leaseExpiresAt : Option Timestamp
  cancelRequestedAt : Option Timestamp
  createdByApiKey : Option String
  createdByUserId : Option String
  createdByTeamId : Option String
  createdByOrganizationId : Option String
  createdAt : Timestamp
  startedAt : Option Timestamp
  completedAt : Option Timestamp
  expiresAt : Option Timestamp
  schedulerVersion : Option String
  schedulingModelGroup : Option String
  tenantScopeType : Option String
  tenantScopeId : Option String
  serviceTier : String
  estimatedWorkUnits : ℕ
  remainingWorkUnits : ℕ
  sizeClass : String
  queueEnteredAt : Option Timestamp
  firstClaimedAt : Option Timestamp
  lastClaimedAt : Option Timestamp
  lastScheduledAt : Option Timestamp

structure BatchItemRow where
  itemId : String
  batchId : String
  lineNumber : ℕ
  customId : String
  status : BatchItemStatus
  requestBody : JsonObject
  responseBody : Option JsonObject
  errorBody : Option JsonObject
  usage : Option JsonObject
  providerCost : ℚ
  billedCost : ℚ
  attempts : ℕ
  claimEpoch : ℕ
  lastError : Option String
  lockedBy : Option String
  leaseExpiresAt : Option Timestamp
  schedulingModelGroup : Option String
  estimatedWorkUnits : ℕ
  notBeforeAt : Option Timestamp
  startedAt : Option Timestamp
  completedAt : Option Timestamp

/-- A queued job row with the column defaults. -/
def createdJob (batchId endpoint : String) (createdAt : Timestamp) : BatchJobRow :=
  { batchId, endpoint, createdAt, status := .queued, outputFileId := none, errorFileId := none,
    providerError := none, totalItems := 0, inProgressItems := 0, completedItems := 0,
    failedItems := 0, cancelledItems := 0, lockedBy := none, leaseExpiresAt := none,
    cancelRequestedAt := none, createdByApiKey := none, createdByUserId := none,
    createdByTeamId := none, createdByOrganizationId := none, startedAt := none,
    completedAt := none, expiresAt := none, schedulerVersion := none,
    schedulingModelGroup := none, tenantScopeType := none, tenantScopeId := none,
    serviceTier := "standard", estimatedWorkUnits := 0, remainingWorkUnits := 0,
    sizeClass := "xs", queueEnteredAt := none, firstClaimedAt := none, lastClaimedAt := none,
    lastScheduledAt := none }

/-- The row that `create_items` inserts, with the column defaults. -/
def createdItem (itemId batchId : String) (lineNumber : ℕ) (customId : String)
    (requestBody : JsonObject) (estimatedWorkUnits : ℕ) : BatchItemRow :=
  { itemId, batchId, lineNumber, customId, requestBody, estimatedWorkUnits, status := .pending,
    responseBody := none, errorBody := none, usage := none, providerCost := 0, billedCost := 0,
    attempts := 0, claimEpoch := 0, lastError := none, lockedBy := none,
    leaseExpiresAt := none, schedulingModelGroup := none, notBeforeAt := none,
    startedAt := none, completedAt := none }

/-- The payload fields that delivery reads. -/
structure CompletionOutboxPayload where
  requestId : String
  batchId : String
  itemId : String
  apiKey : Option String
  userId : Option String
  teamId : Option String
  organizationId : Option String
  model : String
  callType : String
  usage : JsonObject
  billedCost : ℚ
  providerCost : ℚ

structure BatchCompletionOutboxRow where
  completionId : String
  batchId : String
  itemId : String
  payloadJson : CompletionOutboxPayload
  status : BatchCompletionOutboxStatus
  attemptCount : ℕ
  maxAttempts : ℕ
  nextAttemptAt : Timestamp
  lastError : Option String
  lockedBy : Option String
  leaseExpiresAt : Option Timestamp
  createdAt : Timestamp
  processedAt : Option Timestamp

/-- A row of `deltallm_spendlog_events`; `id` is its primary key. -/
structure SpendEvent where
  id : String
  requestId : String
  apiKey : String
  userId : Option String
  teamId : Option String
  organizationId : Option String
  model : String
  callType : String
  usage : JsonObject
  cost : ℚ

/-- One call of `increment_spend` that moved the counters. -/
structure LedgerIncrement where
  eventId : String
  apiKey : String
  userId : Option String
  teamId : Option String
  organizationId : Option String
  model : String
  cost : ℚ

/-- `COALESCE(NULLIF(value, ''), fallback)` on a nullable text column. -/
def nonBlankText (value : Option String) : Option String :=
  match value with
  | some text => if text = "" then none else some text
  | none => none

def jobById (batchId : String) (jobs : List BatchJobRow) : Option BatchJobRow :=
  rowWithKey BatchJobRow.batchId batchId jobs

/-- `lease_expires_at < NOW()`, false on NULL. -/
def leaseExpired (lease : Option Timestamp) (now : Timestamp) : Prop :=
  ∃ expiry ∈ lease, expiry < now

/-- `lease_expires_at IS NULL OR lease_expires_at < NOW()`. -/
def leaseFree (lease : Option Timestamp) (now : Timestamp) : Prop :=
  ∀ expiry ∈ lease, expiry < now

/-- `not_before_at IS NULL OR not_before_at <= NOW()`. -/
def due (notBefore : Option Timestamp) (now : Timestamp) : Prop :=
  ∀ instant ∈ notBefore, instant ≤ now

instance (lease : Option Timestamp) (now : Timestamp) : Decidable (leaseExpired lease now) := by
  unfold leaseExpired
  exact inferInstance

instance (lease : Option Timestamp) (now : Timestamp) : Decidable (leaseFree lease now) := by
  unfold leaseFree
  exact inferInstance

instance (notBefore : Option Timestamp) (now : Timestamp) : Decidable (due notBefore now) := by
  unfold due
  exact inferInstance

@[simp] theorem leaseExpired_none (now : Timestamp) : ¬leaseExpired none now := by
  simp [leaseExpired]

@[simp] theorem leaseExpired_some (expiry now : Timestamp) :
    leaseExpired (some expiry) now ↔ expiry < now := by
  simp [leaseExpired]

@[simp] theorem leaseFree_none (now : Timestamp) : leaseFree none now := by
  simp [leaseFree]

@[simp] theorem leaseFree_some (expiry now : Timestamp) :
    leaseFree (some expiry) now ↔ expiry < now := by
  simp [leaseFree]

/-- The runnable-item predicate shared by both claim statements and the flow snapshots. -/
def BatchItemRow.Runnable (item : BatchItemRow) (now : Timestamp) : Prop :=
  (item.status = .pending ∧ leaseFree item.leaseExpiresAt now ∧ due item.notBeforeAt now) ∨
    (item.status = .inProgress ∧ leaseExpired item.leaseExpiresAt now)

instance (item : BatchItemRow) (now : Timestamp) : Decidable (item.Runnable now) := by
  unfold BatchItemRow.Runnable
  exact inferInstance

/-- `GREATEST(COALESCE(i.estimated_work_units, 1), 1)`. -/
def BatchItemRow.workUnits (item : BatchItemRow) : ℕ := max item.estimatedWorkUnits 1

theorem BatchItemRow.one_le_workUnits (item : BatchItemRow) : 1 ≤ item.workUnits :=
  le_max_right _ _

theorem BatchItemRow.Runnable.not_terminal {item : BatchItemRow} {now : Timestamp}
    (h : item.Runnable now) : item.status.terminal = false := by
  rcases h with ⟨hs, _⟩ | ⟨hs, _⟩ <;> simp [hs, BatchItemStatus.terminal]

end BatchRecords
