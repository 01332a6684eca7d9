import DeltaLLM.BatchCompletionOutbox
import DeltaLLM.EmbeddingPlanner
import DeltaLLM.TransitionRuns

/-! # Runners of embedding work units

The runner tasks of `_process_embedding_items` at their awaits: planning, single executions, chunks
with their policy leases, provider call, group retry and isolation. What the provider and the
database answer is read by the step. An exception that leaves a work unit cancels all runners.
-/
namespace EmbeddingWorkUnits

open BatchCompletionOutbox (BulkCompletionResult)
open BatchRecords
open EmbeddingPlanner
open JsonValues (JsonValue JsonObject)
open PythonText (intOfText)
open TransitionRuns

/-- The worker configuration that the runners read. -/
structure EmbeddingWorker where
  workerConcurrency : ℕ
  maxAttempts : ℕ
  microbatchRetryEnabled : Bool
  microbatchMaxGroupRetries : ℕ
  microbatchMinReducedSize : ℕ
  /-- `ceil(chunk_size * factor)` with the factor clipped to [0, 1]. -/
  scaledSize : ℕ → ℕ
  /-- `EmbeddingRequest.model_validate`. -/
  validate : JsonObject → Except BatchError EmbeddingRequest

/-- What a work unit makes of an item. A left item keeps its lease until the lease runs out. -/
inductive ItemOutcome where
  | completed | failed | requeued | left
  deriving DecidableEq, Repr

/-! ## Failures -/

/-- Whether each of the two `mark_item_failed` statements updated the row. -/
structure FailureWrites where
  first : Bool
  second : Bool

/-- `_can_retry_item`. -/
def canRetryItem (w : EmbeddingWorker) (item : BatchItemRow) (error : BatchError) : Bool :=
  (classifyBatchRetry error.kind).retryable ∧ item.attempts < w.maxAttempts

/-- `_mark_item_failed`: a retry that the row refuses becomes a terminal failure. -/
def markItemFailed (w : EmbeddingWorker) (item : BatchItemRow) (error : BatchError)
    (writes : FailureWrites) : ItemOutcome :=
  if writes.first then
    if canRetryItem w item error then .requeued else .failed
  else if canRetryItem w item error ∧ writes.second then .failed
  else .left

/-! ## Single execution -/

/-- The answers to both completion attempts and to the release that follows them. -/
structure PersistWrites where
  first : BulkCompletionResult
  second : BulkCompletionResult
  /-- The ids that `release_items_for_retry` returns, none where it raises. -/
  released : Option (List String)

/-- What a completion attempt makes of an item, where the next one follows an exception. -/
def settle (next : ItemOutcome) : BulkCompletionResult → ItemOutcome
  | .completed => .completed
  | .alreadyCompleted => .completed
  | .notOwned => .left
  | .raised => next

def releasedOutcome (released : List String) (itemId : String) : ItemOutcome :=
  if itemId ∈ released then .requeued else .left

/-- `_persist_completion_rows_with_outbox`, for one of the rows. -/
def persistCompletionRows (writes : PersistWrites) (itemId : String) : ItemOutcome :=
  settle (settle (releasedOutcome (writes.released.getD []) itemId) writes.second) writes.first

inductive ProviderCall where
  | served
  | raised (error : BatchError)
  | leaseLost

/-- What one execution of an item reads. -/
structure ItemRun where
  /-- The exception of the policy lease, where it is refused. -/
  policy : Option BatchError
  call : ProviderCall
  renewed : Bool
  persist : PersistWrites
  failure : FailureWrites

/-- `_execute_prepared_item`. -/
def executePreparedItem (w : EmbeddingWorker) (item : BatchItemRow) (run : ItemRun) : ItemOutcome :=
  match run.policy with
  | some error => markItemFailed w item error run.failure
  | none =>
      match run.call with
      | .leaseLost => .left
      | .raised error => markItemFailed w item error run.failure
      | .served => if run.renewed then persistCompletionRows run.persist item.itemId else .left

/-- `process_item`, which prepares the item again. -/
def processItem (w : EmbeddingWorker) (item : BatchItemRow) (route : Except BatchError Route)
    (run : ItemRun) : ItemOutcome :=
  match prepareEmbeddingItem item route with
  | .error error => markItemFailed w item error run.failure
  | .ok prepared => executePreparedItem w prepared.item run

/-! ## Group retries -/

/-- `int(value)`, none where it raises. A jsonb column holds no infinite number. -/
def intOf : JsonValue → Option ℤ
  | .bool b => some (if b then 1 else 0)
  | .int n => some n
  | .float (.finite q) => some (q.num.tdiv q.den)
  | .str text => intOfText text
  | _ => none

/-- `_microbatch_retry_count`. -/
def microbatchRetryCount (errorBody : Option JsonObject) : ℕ :=
  let value := (microbatchMetadata errorBody).get "retry_count"
  if value.truthy then ((intOf value).getD 0).toNat else 0

/-- `_microbatch_original_size`. -/
def microbatchOriginalSize (errorBody : Option JsonObject) (fallback : ℕ) : ℕ :=
  let value := (microbatchMetadata errorBody).get "original_size"
  max 1 (if value.truthy then ((intOf value).getD fallback).toNat else fallback)

/-- `_next_reduced_microbatch_size`. -/
def nextReducedMicrobatchSize (w : EmbeddingWorker) (chunkSize : ℕ) : Option ℕ :=
  let reducedSize := max (max 1 w.microbatchMinReducedSize) (w.scaledSize chunkSize)
  if chunkSize ≤ reducedSize then none else some reducedSize

/-- The numbers of a group retry. -/
structure MicrobatchRetry where
  retryCount : ℕ
  originalSize : ℕ
  failedSize : ℕ
  nextMaxInputs : ℕ
  result : String
  deriving DecidableEq, Repr

/-- `_build_microbatch_retry_error_payload`. -/
def microbatchRetryErrorPayload (error : BatchError) (retryDelaySeconds : ℕ)
    (retry : MicrobatchRetry) : JsonObject :=
  [("message", .str error.message), ("type", .str error.typeName), ("retryable", .bool true),
    ("retry_category", .str (classifyBatchRetry error.kind).category),
    ("retry_delay_seconds", .int retryDelaySeconds),
    ("microbatch", .dict [("retry_count", .int retry.retryCount),
      ("original_size", .int retry.originalSize), ("failed_size", .int retry.failedSize),
      ("next_max_inputs", .int retry.nextMaxInputs), ("last_result", .str retry.result)])]

def maximum (values : List ℕ) : ℕ := values.foldr max 0

/-- The size of the next attempt, none where the chunk cannot get smaller. -/
def nextMicrobatchRetry (w : EmbeddingWorker) (chunk : List PreparedEmbeddingItem) :
    Option MicrobatchRetry :=
  let chunkSize := chunk.length
  let retryCount :=
    maximum (chunk.map fun prepared => microbatchRetryCount prepared.item.errorBody) + 1
  let originalSize :=
    maximum (chunk.map fun prepared => microbatchOriginalSize prepared.item.errorBody chunkSize)
  if w.microbatchMaxGroupRetries < retryCount then
    (nextReducedMicrobatchSize w chunkSize).map fun reducedSize =>
      ⟨retryCount, originalSize, chunkSize, reducedSize, "reduced"⟩
  else some ⟨retryCount, originalSize, chunkSize, chunkSize, "scheduled"⟩

theorem nextReducedMicrobatchSize_some {w : EmbeddingWorker} {chunkSize reducedSize : ℕ}
    (h : nextReducedMicrobatchSize w chunkSize = some reducedSize) :
    1 ≤ reducedSize ∧ reducedSize < chunkSize := by
  unfold nextReducedMicrobatchSize at h
  simp only at h
  split at h
  next => cases h
  next hless =>
    obtain rfl := Option.some.inj h
    omega

/-- A retry never asks for more inputs than the chunk that failed, and a reduced one for fewer. -/
theorem nextMicrobatchRetry_some {w : EmbeddingWorker} {chunk : List PreparedEmbeddingItem}
    {retry : MicrobatchRetry} (hchunk : chunk ≠ []) (h : nextMicrobatchRetry w chunk = some retry) :
    1 ≤ retry.nextMaxInputs ∧ retry.nextMaxInputs ≤ chunk.length ∧
      (w.microbatchMaxGroupRetries < retry.retryCount → retry.nextMaxInputs < chunk.length) := by
  have hpos := List.length_pos_of_ne_nil hchunk
  simp only [nextMicrobatchRetry] at h
  split at h
  next =>
    obtain ⟨reducedSize, hreduced, rfl⟩ := Option.map_eq_some_iff.mp h
    obtain ⟨hone, hless⟩ := nextReducedMicrobatchSize_some hreduced
    exact ⟨hone, hless.le, fun _ => hless⟩
  next hcount =>
    obtain rfl := Option.some.inj h
    exact ⟨hpos, le_rfl, fun hmore => absurd hmore hcount⟩

/-- The next preparation of a retried item keeps to the size of the retry. -/
theorem retried_limit (modelInfo : JsonObject) (error : BatchError) (retryDelaySeconds : ℕ)
    {retry : MicrobatchRetry} (hpos : 1 ≤ retry.nextMaxInputs) {limit : ℕ}
    (h : effectiveUpstreamMaxBatchInputs modelInfo
      (some (microbatchRetryErrorPayload error retryDelaySeconds retry)) = .ok limit) :
    1 ≤ limit ∧ limit ≤ retry.nextMaxInputs := by
  have hnext : (microbatchMetadata (some (microbatchRetryErrorPayload error retryDelaySeconds
      retry))).get "next_max_inputs" = .int retry.nextMaxInputs := rfl
  unfold effectiveUpstreamMaxBatchInputs at h
  rw [hnext] at h
  cases hlimit : EmbeddingUsage.coerceNonNegativeInt
    (modelInfo.get "upstream_max_batch_inputs") with
  | error error =>
      rw [hlimit] at h
      cases h
  | ok upstream =>
      have hcount : EmbeddingUsage.coerceNonNegativeInt (.int retry.nextMaxInputs) =
          .ok retry.nextMaxInputs := rfl
      rw [hlimit, hcount] at h
      have hvalue := Except.ok.inj h
      rw [if_neg (by omega)] at hvalue
      omega

structure ReleaseReadings where
  retryDelaySeconds : ℕ
  /-- `_microbatch_retry_fits_job_deadline`. -/
  fitsJobDeadline : Bool
  /-- The ids that `release_items_for_retry` returns, none where it raises. -/
  released : Option (List String)

/-- `_release_failed_microbatch_for_retry`: the error body and the ids that it is written to, none
where the chunk has to be isolated. -/
def releaseFailedMicrobatchForRetry (w : EmbeddingWorker) (chunk : List PreparedEmbeddingItem)
    (error : BatchError) (readings : ReleaseReadings) : Option (JsonObject × List String) :=
  if (classifyBatchRetry error.kind).retryable = false ∨ w.microbatchRetryEnabled = false ∨
      readings.fitsJobDeadline = false ∨
      ∃ prepared ∈ chunk, canRetryItem w prepared.item error = false then none
  else
    (nextMicrobatchRetry w chunk).bind fun retry =>
      match readings.released with
      | none => none
      | some [] => none
      | some released =>
          some (microbatchRetryErrorPayload error readings.retryDelaySeconds retry, released)

/-! ## Chunks -/

inductive ChunkCall where
  | served (renewed : String → Bool) (persist : PersistWrites)
  | raised (error : BatchError) (release : ReleaseReadings)
  | leaseLost

/-- How the call of a chunk ends: with an outcome for each item, or with an isolation. -/
inductive ChunkEnd where
  | settled (outcome : String → ItemOutcome)
  | isolated

def executeChunk (w : EmbeddingWorker) (chunk : List PreparedEmbeddingItem) : ChunkCall → ChunkEnd
  | .leaseLost => .settled fun _ => .left
  | .raised error release =>
      if error.kind = .responseShape then .isolated
      else
        match releaseFailedMicrobatchForRetry w chunk error release with
        | some (_, released) => .settled (releasedOutcome released)
        | none => .isolated
  | .served renewed persist =>
      if ∀ prepared ∈ chunk, renewed prepared.item.itemId = true then
        .settled (persistCompletionRows persist)
      else .settled fun _ => .left

/-! ## Runners -/

inductive Runner where
  | planning
  | waiting
  | failing (failure : PreparationFailure)
  | single (prepared : PreparedEmbeddingItem)
  | acquiring (todo allowed : List PreparedEmbeddingItem)
  | lone (prepared : PreparedEmbeddingItem)
  | calling (chunk : List PreparedEmbeddingItem)
  | isolating (todo : List PreparedEmbeddingItem)
  | closing
  | returned
  | cancelled (items : List BatchItemRow)

/-- `_acquire_embedding_policy_leases_for_chunk` and what follows its last item. -/
def Runner.acquire : List PreparedEmbeddingItem → List PreparedEmbeddingItem → Runner
  | [], [] => .closing
  | [], [prepared] => .lone prepared
  | [], allowed => .calling allowed
  | todo, allowed => .acquiring todo allowed

def Runner.isolate : List PreparedEmbeddingItem → Runner
  | [] => .closing
  | todo => .isolating todo

def Runner.start : WorkUnit → Runner
  | .preparationFailure failure => .failing failure
  | .single prepared => .single prepared
  | .groupedChunk chunk => .acquire chunk []
  | .waitForGroupedChunkSlot => .waiting

/-- The items that a runner has and that have no outcome yet. -/
def Runner.items : Runner → List BatchItemRow
  | .failing failure => [failure.item]
  | .single prepared => [prepared.item]
  | .acquiring todo allowed => (todo ++ allowed).map PreparedEmbeddingItem.item
  | .lone prepared => [prepared.item]
  | .calling chunk => chunk.map PreparedEmbeddingItem.item
  | .isolating todo => todo.map PreparedEmbeddingItem.item
  | .cancelled items => items
  | _ => []

/-- `grouped_chunk_available.set()` wakes every waiting runner. -/
def Runner.wake : Runner → Runner
  | .waiting => .planning
  | runner => runner

def Runner.cancel : Runner → Runner
  | .returned => .returned
  | runner => .cancelled runner.items

/-- A runner that still runs. -/
def Runner.active : Runner → Bool
  | .returned => false
  | .cancelled _ => false
  | _ => true

/-- A runner between the start and the end of a grouped chunk. -/
def Runner.chunked : Runner → Bool
  | .acquiring _ _ | .lone _ | .calling _ | .isolating _ | .closing => true
  | _ => false

structure State where
  queues : Queues
  runner : ℕ → Runner
  /-- The work units handed out so far; no step reads them. -/
  handed : List WorkUnit
  /-- The outcomes so far; no step reads them. -/
  outcomes : List (BatchItemRow × ItemOutcome)

def State.setRunner (s : State) (pid : ℕ) (runner : Runner) : State :=
  { s with runner := Function.update s.runner pid runner }

def State.record (s : State) (item : BatchItemRow) (outcome : ItemOutcome) : State :=
  { s with outcomes := s.outcomes ++ [(item, outcome)] }

def State.recordChunk (s : State) (chunk : List PreparedEmbeddingItem)
    (outcome : String → ItemOutcome) : State :=
  { s with
    outcomes := s.outcomes ++ chunk.map fun prepared =>
      (prepared.item, outcome prepared.item.itemId) }

/-- `_plan_next_work_unit` and the start of the unit. -/
def State.plan (s : State) (w : EmbeddingWorker) (pid : ℕ)
    (route : BatchItemRow → Except BatchError Route) : State :=
  match planNextWorkUnit ⟨w.validate, route⟩ s.queues with
  | (none, queues) => { s with queues }.setRunner pid .returned
  | (some unit, queues) =>
      { s with queues, handed := s.handed ++ [unit] }.setRunner pid (.start unit)

/-- The end of `_run_grouped_chunk`. -/
def State.closeChunk (s : State) (pid : ℕ) : State :=
  { s with
    queues := { s.queues with groupedChunkInFlight := false }
    runner := Function.update (fun other => (s.runner other).wake) pid .planning }

inductive Event where
  | plan (pid : ℕ) (route : BatchItemRow → Except BatchError Route)
  | markFailed (pid : ℕ) (writes : FailureWrites)
  | runItem (pid : ℕ) (run : ItemRun)
  | acquireLease (pid : ℕ) (policy : Option BatchError) (writes : FailureWrites)
  | callProvider (pid : ℕ) (call : ChunkCall)
  | isolateItem (pid : ℕ) (route : Except BatchError Route) (run : ItemRun)
  | closeChunk (pid : ℕ)
  | raise (pid : ℕ)

/-- A step of a runner, none where another one is next. -/
def step (w : EmbeddingWorker) (s : State) : Event → Option State
  | .plan pid route =>
      match s.runner pid with
      | .planning => some (s.plan w pid route)
      | _ => none
  | .markFailed pid writes =>
      match s.runner pid with
      | .failing failure => some ((s.record failure.item
          (markItemFailed w failure.item failure.error writes)).setRunner pid .planning)
      | _ => none
  | .runItem pid run =>
      match s.runner pid with
      | .single prepared => some ((s.record prepared.item
          (executePreparedItem w prepared.item run)).setRunner pid .planning)
      | .lone prepared => some ((s.record prepared.item
          (executePreparedItem w prepared.item run)).setRunner pid .closing)
      | _ => none
  | .acquireLease pid policy writes =>
      match s.runner pid, policy with
      | .acquiring (prepared :: todo) allowed, none =>
          some (s.setRunner pid (.acquire todo (allowed ++ [prepared])))
      | .acquiring (prepared :: todo) allowed, some error =>
          some ((s.record prepared.item (markItemFailed w prepared.item error writes)).setRunner pid
            (.acquire todo allowed))
      | _, _ => none
  | .callProvider pid call =>
      match s.runner pid with
      | .calling chunk =>
          match executeChunk w chunk call with
          | .settled outcome => some ((s.recordChunk chunk outcome).setRunner pid .closing)
          | .isolated => some (s.setRunner pid (.isolate chunk))
      | _ => none
  | .isolateItem pid route run =>
      match s.runner pid with
      | .isolating (prepared :: todo) => some ((s.record prepared.item
          (processItem w prepared.item route run)).setRunner pid (.isolate todo))
      | _ => none
  | .closeChunk pid =>
      match s.runner pid with
      | .closing => some (s.closeChunk pid)
      | _ => none
  | .raise pid =>
      if (s.runner pid).active then some { s with runner := fun other => (s.runner other).cancel }
      else none

def runnerCount (w : EmbeddingWorker) (items : List BatchItemRow) : ℕ :=
  min (max 1 w.workerConcurrency) items.length

/-- The start of the loop. -/
def initialState (w : EmbeddingWorker) (items : List BatchItemRow) : State where
  queues := ⟨items, [], [], [], false⟩
  runner := fun pid => if pid < runnerCount w items then .planning else .returned
  handed := []
  outcomes := []

def plannerSystem (w : EmbeddingWorker) (items : List BatchItemRow) :
    TransitionSystem State Event where
  initial := fun s => s = initialState w items
  enabled s e := (step w s e).isSome = true
  next s e := (step w s e).getD s

end EmbeddingWorkUnits
