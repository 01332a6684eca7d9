import DeltaLLM.AwaitedPrograms
import DeltaLLM.EmbeddingWorkUnits

/-! # Chunks of prepared batch items

The programs of `_execute_prepared_chat_microbatch_chunk` and `_execute_prepared_microbatch_chunk`
with the policy leases and the heartbeat tasks of their items. The items of a chunk are distinct
rows, so an item id names its lease and its heartbeat.
-/
namespace BatchChunks

open AwaitedPrograms AwaitedPrograms.Task
open BatchCompletionOutbox (BulkCompletionResult)
open BatchRecords
open EmbeddingPlanner (BatchError PreparedEmbeddingItem classifyBatchRetry)
open EmbeddingWorkUnits (EmbeddingWorker canRetryItem nextMicrobatchRetry)

/-- An exception of a work unit; the first carries `CHAT_MICROBATCH_UNSUPPORTED_CODE`. -/
inductive WorkerError where
  | unsupported
  | failed (error : BatchError)
  deriving DecidableEq

def WorkerError.error : WorkerError → BatchError
  | .unsupported => ⟨.invalidRequest, "InvalidRequestError", "chat microbatch unsupported"⟩
  | .failed error => error

/-- What one `renew()` of a heartbeat does. -/
inductive Renewal where
  | renewed | raised | lost
  deriving DecidableEq

/-- Why the worker looks at its heartbeats: to read the event or to stop one. -/
inductive Moment where
  | check | stop
  deriving DecidableEq

/-- The errors of the attempts in their order and the exception that `execute_with_failover` ends
with, none where it returns or is cancelled after a lease loss. -/
structure ProviderReply where
  attemptErrors : List WorkerError
  error : Option WorkerError

/-- What the chunk response says of one item, in item order. -/
inductive ItemResult where
  | failed (error : BatchError)
  | incomplete
  | complete

inductive Call where
  | acquirePolicyLease (itemId : String)
  | releasePolicyLease (lease : ℕ)
  | heartbeats (moment : Moment)
  | executeWithFailover (itemIds : List String)
  | readResponse (itemIds : List String)
  | buildRows (itemIds : List String)
  | recordUpstreamSuccess (reference : List String)
  | recordUpstreamFailure (reference : List String)
  | recordFailure (itemId : String)
  | deferModelGroup
  | markItemFailed (itemId : String) (retryable : Bool)
  | refreshJobProgress
  | fitsJobDeadline
  | releaseItemsForRetry (itemIds : List String)
  | renewItemLease (itemId : String) (claimEpoch : ℕ)
  | completeItemsWithOutbox (itemIds : List String)
  | processItem (itemId : String)
  | startTask (itemId : String)

@[reducible] def Call.Reply : Call → Type
  | .acquirePolicyLease _ | .markItemFailed _ _ | .fitsJobDeadline | .renewItemLease _ _ => Bool
  | .heartbeats _ => List (String × Renewal)
  | .executeWithFailover _ => ProviderReply
  | .readResponse _ => List ItemResult
  | .releaseItemsForRetry _ => List String
  | .completeItemsWithOutbox _ => BulkCompletionResult
  | _ => Unit

/-- What hands back the leases and heartbeats if the work ends at the next call: nothing, a
`finally` block of the chunk, or the task of each item. -/
inductive Cover where
  | nothing | finalBlock | itemTask
  deriving DecidableEq

/-- The policy leases, numbered as they are acquired: how often each was released, and the
`policy_lease` of each prepared item. -/
structure PolicyLeases where
  acquired : ℕ
  releases : ℕ → ℕ
  held : String → Option ℕ

def PolicyLeases.acquire (leases : PolicyLeases) (itemId : String) : PolicyLeases :=
  { leases with
    acquired := leases.acquired + 1
    held := Function.update leases.held itemId (some leases.acquired) }

def PolicyLeases.release (leases : PolicyLeases) (itemId : String) : PolicyLeases :=
  match leases.held itemId with
  | none => leases
  | some lease =>
      { leases with
        releases := Function.update leases.releases lease (leases.releases lease + 1)
        held := Function.update leases.held itemId none }

/-- The leases, the heartbeat tasks that run, and the variables of the chunk. -/
structure State where
  leases : PolicyLeases
  running : List String
  itemHeartbeats : List String
  leaseLost : Bool
  lastRetryable : Option BatchError
  cover : Cover

def start : State where
  leases := ⟨0, fun _ => 0, fun _ => none⟩
  running := []
  itemHeartbeats := []
  leaseLost := false
  lastRetryable := none
  cover := .nothing

/-- A prepared item, with the request that it was prepared for. -/
structure Prepared (π : Type) where
  item : BatchItemRow
  request : π
  policyAuth : Bool

def Prepared.id {π : Type} (prepared : Prepared π) : String := prepared.item.itemId

structure ChunkWorker where
  worker : EmbeddingWorker
  affectsDeploymentHealth : BatchError → Bool

abbrev Work (α : Type) : Type := Task State Call.Reply WorkerError α

def call (call : Call) : Work call.Reply := await call

variable {π : Type}

def itemIds (items : List (Prepared π)) : List String := items.map Prepared.id

/-! ## Policy leases -/

def acquirePreparedPolicyLease (prepared : Prepared π) : Work Unit := do
  let s ← read
  if (s.leases.held prepared.id).isSome || !prepared.policyAuth then pure ()
  else
    let leased ← call (.acquirePolicyLease prepared.id)
    if leased then modify fun s => { s with leases := s.leases.acquire prepared.id } else pure ()

/-- The variable is cleared first; an exception of the limiter is logged. -/
def releasePreparedPolicyLease (prepared : Prepared π) : Work Unit := do
  let s ← read
  modify fun s => { s with leases := s.leases.release prepared.id }
  match s.leases.held prepared.id with
  | none => pure ()
  | some lease => ignoring (call (.releasePolicyLease lease))

def releasePreparedPolicyLeases (items : List (Prepared π)) : Work Unit :=
  forEach releasePreparedPolicyLease items

/-! ## Heartbeats -/

/-- One round of `_run_heartbeat`: a heartbeat that lost its item sets the event and returns. -/
def State.beat (s : State) : String × Renewal → State
  | (itemId, .lost) =>
      if itemId ∈ s.running then
        { s with running := s.running.filter (· ≠ itemId), leaseLost := true }
      else s
  | (_, .renewed) | (_, .raised) => s

def State.beats (s : State) (rounds : List (String × Renewal)) : State := rounds.foldl State.beat s

/-- The rounds of the heartbeats since the worker last looked; they never raise to it. -/
def runHeartbeats (moment : Moment) : Work Unit :=
  (call (.heartbeats moment)).followedBy fun
    | .returned rounds => modify fun s => s.beats rounds
    | _ => pure ()

/-- `item_lease_lost.is_set()`. -/
def leaseLostIsSet : Work Bool := do
  runHeartbeats .check
  let s ← read
  pure s.leaseLost

def startHeartbeat (prepared : Prepared π) : Work Unit :=
  modify fun s =>
    { s with
      running := prepared.id :: s.running
      itemHeartbeats := prepared.id :: s.itemHeartbeats }

/-- `_stop_heartbeat`: the cancelled task is awaited and its cancellation suppressed. -/
def stopHeartbeat (itemId : String) : Work Unit := do
  runHeartbeats .stop
  modify fun s => { s with running := s.running.filter (· ≠ itemId) }

def stopHeartbeatTasks : Work Unit := do
  let s ← read
  forEach stopHeartbeat s.itemHeartbeats

/-- The dict is cleared after its heartbeats have stopped. -/
def stopAndClearHeartbeats : Work Unit := do
  stopHeartbeatTasks
  modify fun s => { s with itemHeartbeats := [] }

/-- `item_heartbeats.pop(item_id, None)`, and the stop of what it returns. -/
def popHeartbeat (itemId : String) : Work Unit := do
  let s ← read
  modify fun s => { s with itemHeartbeats := s.itemHeartbeats.filter (· ≠ itemId) }
  if itemId ∈ s.itemHeartbeats then stopHeartbeat itemId else pure ()

/-! ## Failures -/

/-- `_maybe_defer_model_group_for_retry`. -/
def maybeDeferModelGroupForRetry (error : BatchError) : Work Unit :=
  if (classifyBatchRetry error.kind).category = "no_healthy_deployments" ∧
      error.kind ≠ .modelGroupDeferred then
    ignoring (call .deferModelGroup)
  else pure ()

/-- The one or two updates of the row: a retry that it refuses becomes a terminal failure. -/
def failRow (w : ChunkWorker) (item : BatchItemRow) (error : BatchError) : Work Bool := do
  let retryable := canRetryItem w.worker item error
  let updated ← call (.markItemFailed item.itemId retryable)
  if !updated && retryable then call (.markItemFailed item.itemId false) else pure updated

/-- `_mark_item_failed`. -/
def markItemFailed (w : ChunkWorker) (item : BatchItemRow) (error : BatchError) : Work Unit := do
  maybeDeferModelGroupForRetry error
  let updated ← failRow w item error
  if updated then do
    call .refreshJobProgress
    ignoring (call (.recordFailure item.itemId))
  else pure ()

/-- `_acquire_chat_policy_leases_for_chunk` and `_acquire_embedding_policy_leases_for_chunk`: the
items that got their lease. -/
def acquirePolicyLeasesForChunk (w : ChunkWorker) :
    List (Prepared π) → Work (List (Prepared π))
  | [] => pure []
  | prepared :: rest => do
      let leased ← ((fun _ => true) <$> acquirePreparedPolicyLease prepared).handle fun error => do
        markItemFailed w prepared.item error.error
        pure false
      let allowed ← acquirePolicyLeasesForChunk w rest
      pure (if leased then prepared :: allowed else allowed)

/-- The ids that `release_items_for_retry` returns, none of them where it raises. -/
def releaseItemsForRetry (ids : List String) : Work (List String) :=
  (call (.releaseItemsForRetry ids)).handle fun _ => pure []

/-- `set(released_item_ids) != expected_item_ids`. -/
def releasedAll (ids released : List String) : Bool :=
  ids.all (· ∈ released) && released.all (· ∈ ids)

/-- `_release_failed_chat_microbatch_for_retry`. -/
def releaseFailedChatMicrobatchForRetry (w : ChunkWorker) (items : List (Prepared π))
    (error : BatchError) : Work Bool :=
  if !(classifyBatchRetry error.kind).retryable || !w.worker.microbatchRetryEnabled then pure false
  else do
    maybeDeferModelGroupForRetry error
    let fits ← call .fitsJobDeadline
    if !fits || items.any
      (fun prepared => !canRetryItem w.worker prepared.item error) then pure false
    else
      let released ← releaseItemsForRetry (itemIds items)
      if !releasedAll (itemIds items) released && released.isEmpty then pure false
      else do
        call .refreshJobProgress
        pure true

/-- `_release_failed_microbatch_for_retry`, which stops the heartbeats of a chunk that it
released. -/
def releaseFailedMicrobatchForRetry (w : ChunkWorker)
    (items : List (Prepared PreparedEmbeddingItem))
    (error : BatchError) : Work Bool :=
  if !(classifyBatchRetry error.kind).retryable || !w.worker.microbatchRetryEnabled then pure false
  else do
    maybeDeferModelGroupForRetry error
    let fits ← call .fitsJobDeadline
    let chunk := items.map fun prepared => { prepared.request with item := prepared.item }
    if !fits || items.any (fun prepared => !canRetryItem w.worker prepared.item error) ||
        (nextMicrobatchRetry w.worker chunk).isNone then pure false
    else
      let released ← releaseItemsForRetry (itemIds items)
      if !releasedAll (itemIds items) released && released.isEmpty then pure false
      else do
        stopAndClearHeartbeats
        call .refreshJobProgress
        pure true

/-! ## Provider calls and completions -/

/-- The last error of an attempt that may be retried and counts against its deployment. -/
def State.noteAttempts (s : State) (w : ChunkWorker) (errors : List WorkerError) : State :=
  { s with
    lastRetryable := errors.foldl (fun last error =>
      match error with
      | .unsupported => last
      | .failed error =>
          if (classifyBatchRetry error.kind).retryable && w.affectsDeploymentHealth error then some error
          else last) s.lastRetryable }

/-- `_await_with_lease_loss_cancellation` on the failover: false stands for
`BatchItemLeaseLostError`, which each caller handles by itself. A provider task that has raised
raises after a loss too. -/
def awaitProvider (w : ChunkWorker) (ids : List String) : Work Bool := do
  let lost ← leaseLostIsSet
  if lost then pure false
  else
    let reply ← call (.executeWithFailover ids)
    modify fun s => s.noteAttempts w reply.attemptErrors
    match reply.error with
    | some error => raise error
    | none => (! ·) <$> leaseLostIsSet

/-- `_renew_item_lease_once`. -/
def renewItemLeaseOnce (prepared : Prepared π) : Work Bool :=
  (call (.renewItemLease prepared.id prepared.item.claimEpoch)).handle fun _ => pure false

/-- The event is not set and the lease can be renewed, or else the event is set now. -/
def keepsItemLease (prepared : Prepared π) : Work Bool := do
  let lost ← leaseLostIsSet
  if lost then pure false
  else
    let renewed ← renewItemLeaseOnce prepared
    if renewed then pure true
    else do
      modify fun s => { s with leaseLost := true }
      pure false

/-- The attempts to complete the rows, none where all of them raised. -/
def completeRows (ids : List String) : ℕ → Work (Option Bool)
  | 0 => pure none
  | attempts + 1 => do
      let result ← (call (.completeItemsWithOutbox ids)).handle fun _ =>
        pure BulkCompletionResult.raised
      match result with
      | .completed | .alreadyCompleted => pure (some true)
      | .notOwned => pure (some false)
      | .raised => completeRows ids attempts

/-- `_persist_completion_rows_with_outbox`. -/
def persistCompletionRows (ids : List String) : Work Bool := do
  let completed ← completeRows ids 2
  match completed with
  | some persisted => pure persisted
  | none => do
      let _ ← releaseItemsForRetry ids
      pure false

/-! ## Single items -/

def buildRowsWhen (due : Bool) (ids : List String) : Work Unit :=
  if due then call (.buildRows ids) else pure ()

/-- The `try` block of a single item; chat builds its row last, an embedding before the hooks. -/
def completePreparedItem (w : ChunkWorker) (rowFirst : Bool) (prepared : Prepared π) :
    Work Unit := do
  startHeartbeat prepared
  let served ← awaitProvider w [prepared.id]
  if !served then pure ()
  else do
    let _ ← call (.readResponse [prepared.id])
    buildRowsWhen rowFirst [prepared.id]
    ignoring (call (.recordUpstreamSuccess [prepared.id]))
    let kept ← keepsItemLease prepared
    if !kept then pure ()
    else do
      popHeartbeat prepared.id
      buildRowsWhen (!rowFirst) [prepared.id]
      let _ ← persistCompletionRows [prepared.id]
      pure ()

/-- The body of `_execute_prepared_chat_item` and `_execute_prepared_item`, with an event of its
own. -/
def executePrepared (w : ChunkWorker) (rowFirst : Bool) (prepared : Prepared π) : Work Unit := do
  modify fun s => { s with cover := .itemTask, leaseLost := false }
  let leased ← ((fun _ => true) <$> acquirePreparedPolicyLease prepared).handle fun error => do
    markItemFailed w prepared.item error.error
    pure false
  if leased then
    ((completePreparedItem w rowFirst prepared).handle fun error =>
      markItemFailed w prepared.item error.error).lastly do
        popHeartbeat prepared.id
        releasePreparedPolicyLease prepared
  else pure ()

def executePreparedChatItem (w : ChunkWorker) (prepared : Prepared Unit) : Work Unit :=
  executePrepared w false prepared

def executePreparedItem (w : ChunkWorker) (prepared : Prepared PreparedEmbeddingItem) : Work Unit :=
  executePrepared w true prepared

/-- What follows the acquisitions: nothing is left to do, a single item, or a chunk. -/
def executeAllowed (single : Prepared π → Work Unit) (many : List (Prepared π) → Work Unit) :
    List (Prepared π) → Work Unit
  | [] => pure ()
  | [prepared] => single prepared
  | allowed => many allowed

/-! ## Chat chunks -/

/-- `_execute_chat_microbatch_fallback_items`: a task that is cancelled while it waits for the
semaphore never gets to its item. -/
def executeChatMicrobatchFallbackItems (w : ChunkWorker) (items : List (Prepared Unit)) :
    Work Unit := do
  modify fun s => { s with cover := .itemTask }
  group (fun prepared => do
    call (.startTask prepared.id)
    executePreparedChatItem w prepared) items

/-- The call of the chunk, none where a lease was lost. -/
def callChatProvider (w : ChunkWorker) (items : List (Prepared Unit)) :
    Work (Option (List ItemResult)) := do
  forEach startHeartbeat items
  let served ← awaitProvider w (itemIds items)
  if served then some <$> call (.readResponse (itemIds items)) else pure none

/-- A failed call that is no matter of support: the chunk is released for a retry, or its items
fail. -/
def failChatChunk (w : ChunkWorker) (items : List (Prepared Unit)) (error : BatchError) :
    Work Unit := do
  ignoring (call (.recordUpstreamFailure (itemIds items)))
  let requeued ← releaseFailedChatMicrobatchForRetry w items error
  if requeued then releasePreparedPolicyLeases items
  else do
    forEach (fun prepared : Prepared Unit => markItemFailed w prepared.item error) items
    releasePreparedPolicyLeases items

/-- `except Exception` of the chunk. -/
def handleChatFailure (w : ChunkWorker) (items : List (Prepared Unit)) (error : WorkerError) :
    Work Unit := do
  stopAndClearHeartbeats
  let s ← read
  match error, s.lastRetryable with
  | .unsupported, none => executeChatMicrobatchFallbackItems w items
  | .unsupported, some retryable => failChatChunk w items retryable
  | .failed error, _ => failChatChunk w items error

/-- The error of an item that has no response or no usage. -/
def incompleteResult : BatchError :=
  ⟨.responseShape, "BatchResponseShapeError",
    "chat microbatch result is missing response body or per-item usage"⟩

/-- The items with a row, none where the function returns after a lease loss. -/
def handleChatResults (w : ChunkWorker) :
    List (Prepared Unit × ItemResult) → Work (Option (List (Prepared Unit)))
  | [] => pure (some [])
  | (prepared, result) :: rest => do
      let lost ← leaseLostIsSet
      if lost then do
        stopAndClearHeartbeats
        pure none
      else
        match result with
        | .failed error => do
            popHeartbeat prepared.id
            markItemFailed w prepared.item error
            handleChatResults w rest
        | .incomplete => do
            popHeartbeat prepared.id
            markItemFailed w prepared.item incompleteResult
            handleChatResults w rest
        | .complete => do
            call (.buildRows [prepared.id])
            Option.map (prepared :: ·) <$> handleChatResults w rest

/-- The hooks and the renewals before persistence, false where the function returns. -/
def confirmChatItems : List (Prepared Unit) → Work Bool
  | [] => pure true
  | prepared :: rest => do
      ignoring (call (.recordUpstreamSuccess [prepared.id]))
      let kept ← keepsItemLease prepared
      if kept then do
        popHeartbeat prepared.id
        confirmChatItems rest
      else do
        stopAndClearHeartbeats
        pure false

/-- The last `try` block with its `finally`. -/
def persistChatRows (items successes : List (Prepared Unit)) : Work Unit := do
  modify fun s => { s with cover := .finalBlock }
  let persist : Work Unit :=
    if successes.isEmpty then pure ()
      else (fun _ => ()) <$> persistCompletionRows (itemIds successes)
  persist.lastly do
    stopHeartbeatTasks
    releasePreparedPolicyLeases items

/-- What follows the call, for the results in item order. -/
def settleChatResults (w : ChunkWorker) (items : List (Prepared Unit)) (results : List ItemResult) :
    Work Unit := do
  let handled ← handleChatResults w (items.zip results)
  match handled with
  | none => pure ()
  | some successes => do
      let confirmed ← confirmChatItems successes
      if confirmed then persistChatRows items successes else pure ()

def executeChatChunk (w : ChunkWorker) (items : List (Prepared Unit)) : Work Unit :=
  (callChatProvider w items).followedBy fun
    | .returned none => stopAndClearHeartbeats
    | .returned (some results) => settleChatResults w items results
    | .raised error => handleChatFailure w items error
    | .timedOut => finish .timedOut
    | .cancelled => finish .cancelled

/-- `_execute_prepared_chat_microbatch_chunk`. -/
def executePreparedChatMicrobatchChunk (w : ChunkWorker) (items : List (Prepared Unit)) :
    Work Unit := do
  let allowed ← acquirePolicyLeasesForChunk w items
  executeAllowed (executePreparedChatItem w) (executeChatChunk w) allowed

/-! ## Embedding chunks -/

/-- The call of the chunk, false where a lease was lost. -/
def callEmbeddingProvider (w : ChunkWorker) (items : List (Prepared PreparedEmbeddingItem)) :
    Work Bool := do
  forEach startHeartbeat items
  let served ← awaitProvider w (itemIds items)
  if served then (fun _ => true) <$> call (.readResponse (itemIds items)) else pure false

/-- Each item on its own, after its heartbeat and its lease have been handed back. -/
def isolateItems (items : List (Prepared PreparedEmbeddingItem)) : Work Unit :=
  forEach (fun prepared : Prepared PreparedEmbeddingItem => do
    popHeartbeat prepared.id
    releasePreparedPolicyLease prepared
    call (.processItem prepared.id)) items

/-- A response of the wrong shape is no matter for a retry. -/
def requeueEmbeddingChunk (w : ChunkWorker) (items : List (Prepared PreparedEmbeddingItem))
    (error : BatchError) : Work Bool :=
  if error.kind = .responseShape then pure false else releaseFailedMicrobatchForRetry w items error

/-- `except Exception` of the chunk. -/
def handleEmbeddingFailure (w : ChunkWorker) (items : List (Prepared PreparedEmbeddingItem))
    (error : BatchError) : Work Unit := do
  ignoring (call (.recordUpstreamFailure (itemIds items)))
  let requeued ← requeueEmbeddingChunk w items error
  if requeued then releasePreparedPolicyLeases items else isolateItems items

/-- The renewals before persistence. -/
def renewEmbeddingItems : List (Prepared PreparedEmbeddingItem) → Work Bool
  | [] => pure true
  | prepared :: rest => do
      let kept ← keepsItemLease prepared
      if kept then renewEmbeddingItems rest else pure false

/-- The last `try` block with its `finally`. -/
def persistEmbeddingRows (items : List (Prepared PreparedEmbeddingItem)) : Work Unit := do
  modify fun s => { s with cover := .finalBlock }
  let persist : Work Unit := do
    ignoring (call (.recordUpstreamSuccess (itemIds items)))
    call (.buildRows (itemIds items))
    let kept ← renewEmbeddingItems items
    stopAndClearHeartbeats
    if kept then (fun _ => ()) <$> persistCompletionRows (itemIds items) else pure ()
  persist.lastly do
    stopHeartbeatTasks
    releasePreparedPolicyLeases items

def executeEmbeddingChunk (w : ChunkWorker) (items : List (Prepared PreparedEmbeddingItem)) :
    Work Unit :=
  (callEmbeddingProvider w items).followedBy fun
    | .returned false => stopAndClearHeartbeats
    | .returned true => persistEmbeddingRows items
    | .raised error => handleEmbeddingFailure w items error.error
    | .timedOut => finish .timedOut
    | .cancelled => finish .cancelled

/-- `_execute_prepared_microbatch_chunk`. -/
def executePreparedMicrobatchChunk (w : ChunkWorker)
    (items : List (Prepared PreparedEmbeddingItem)) : Work Unit := do
  let allowed ← acquirePolicyLeasesForChunk w items
  executeAllowed (executePreparedItem w) (executeEmbeddingChunk w) allowed

end BatchChunks
