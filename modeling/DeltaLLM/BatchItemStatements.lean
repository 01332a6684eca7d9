import DeltaLLM.BatchRecords

/-! # Statements on the item table

Each definition is one UPDATE of the item repository or of the lease sweeper: the rows its
WHERE clause admits, and the columns its SET list writes. Rows that another transaction has
locked are the ones `skip` names; statements with SKIP LOCKED pass over them.
-/
namespace BatchItemStatements

open BatchRecords
open JsonValues (JsonValue JsonObject)
open TableStatements

/-- The SET list shared by both claim statements. -/
def claimRow (now : Timestamp) (workerId : String) (leaseSeconds : ℕ)
    (item : BatchItemRow) : BatchItemRow :=
  { item with
    status := .inProgress
    lockedBy := some workerId
    leaseExpiresAt := some (now + seconds leaseSeconds)
    attempts := item.attempts + 1
    claimEpoch := item.claimEpoch + 1
    startedAt := item.startedAt <|> some now
    notBeforeAt := none }

/-- The candidate CTE of `claim_items`. -/
def claimCandidates (now : Timestamp) (batchId : String) (limit : ℕ) (skip : String → Bool)
    (items : List BatchItemRow) : List BatchItemRow :=
  selectFirst
    (fun item => item.batchId = batchId ∧ item.Runnable now ∧ skip item.itemId = false)
    (fun a b => a.lineNumber ≤ b.lineNumber) (max 1 (min limit 200)) items

def updateClaimed (now : Timestamp) (workerId : String) (leaseSeconds : ℕ)
    (itemIds : List String) (items : List BatchItemRow) : List BatchItemRow :=
  updateWhere (fun item => item.itemId ∈ itemIds) (claimRow now workerId leaseSeconds) items

/-- `claim_items`: the new table and the returned rows. -/
def claimItems (now : Timestamp) (batchId workerId : String) (limit leaseSeconds : ℕ)
    (skip : String → Bool) (items : List BatchItemRow) :
    List BatchItemRow × List BatchItemRow :=
  let itemIds := (claimCandidates now batchId limit skip items).map BatchItemRow.itemId
  let updated := updateClaimed now workerId leaseSeconds itemIds items
  (updated, updated.filter fun item => item.itemId ∈ itemIds)

/-- The fence that every operation on behalf of one claim is meant to carry. -/
def OwnedBy (workerId : String) (claimEpoch : ℕ) (item : BatchItemRow) : Prop :=
  item.status = .inProgress ∧ item.lockedBy = some workerId ∧ item.claimEpoch = claimEpoch

instance (workerId : String) (claimEpoch : ℕ) (item : BatchItemRow) :
    Decidable (OwnedBy workerId claimEpoch item) := by
  unfold OwnedBy
  exact inferInstance

/-- One entry of a bulk completion. -/
structure CompletedItem where
  itemId : String
  responseBody : JsonObject
  usage : JsonObject
  providerCost : ℚ
  billedCost : ℚ
  claimEpoch : ℕ

def completeRow (now : Timestamp) (completed : CompletedItem) (item : BatchItemRow) :
    BatchItemRow :=
  { item with
    status := .completed
    responseBody := some completed.responseBody
    usage := some completed.usage
    providerCost := completed.providerCost
    billedCost := completed.billedCost
    leaseExpiresAt := none
    notBeforeAt := none
    lockedBy := none
    completedAt := some now }

/-- `mark_item_completed`. -/
def markItemCompleted (now : Timestamp) (completed : CompletedItem) (workerId : String)
    (items : List BatchItemRow) : List BatchItemRow :=
  updateWhere
    (fun item => item.itemId = completed.itemId ∧ OwnedBy workerId completed.claimEpoch item)
    (completeRow now completed) items

/-- `JOIN payload p ON i.item_id = p.item_id` with the ownership fence and SKIP LOCKED. -/
def bulkMatch (workerId : String) (skip : String → Bool) (payload : List CompletedItem)
    (item : BatchItemRow) : Option CompletedItem :=
  payload.find? fun completed =>
    completed.itemId = item.itemId ∧ OwnedBy workerId completed.claimEpoch item ∧
      skip item.itemId = false

/-- The row after the UPDATE when every entry is eligible. -/
def completeMatched (now : Timestamp) (workerId : String) (skip : String → Bool)
    (payload : List CompletedItem) (item : BatchItemRow) : BatchItemRow :=
  match bulkMatch workerId skip payload item with
  | some completed => completeRow now completed item
  | none => item

/-- `eligible_count`: the joined rows, one for each payload entry that meets its fence. -/
def eligibleCount (workerId : String) (skip : String → Bool) (payload : List CompletedItem)
    (items : List BatchItemRow) : ℕ :=
  payload.countP fun completed => ∃ item ∈ items, completed.itemId = item.itemId ∧
    OwnedBy workerId completed.claimEpoch item ∧ skip item.itemId = false

/-- `mark_items_completed_bulk`: nothing is updated unless every entry is eligible. The flag
says whether as many rows were returned as entries given. -/
def markItemsCompletedBulk (now : Timestamp) (payload : List CompletedItem) (workerId : String)
    (skip : String → Bool) (items : List BatchItemRow) : List BatchItemRow × Bool :=
  if payload = [] then (items, true)
  else if eligibleCount workerId skip payload items = payload.length then
    (items.map (completeMatched now workerId skip payload),
      items.countP (fun item => (bulkMatch workerId skip payload item).isSome) = payload.length)
  else (items, false)

/-- `j.expires_at IS NULL OR NOW() + delay < j.expires_at` for the item's job. -/
def retryWithinExpiry (now : Timestamp) (delaySeconds : ℕ) (jobs : List BatchJobRow)
    (item : BatchItemRow) : Prop :=
  ∃ job ∈ jobs, job.batchId = item.batchId ∧
    ∀ expiry ∈ job.expiresAt, now + seconds delaySeconds < expiry

instance (now : Timestamp) (delaySeconds : ℕ) (jobs : List BatchJobRow) (item : BatchItemRow) :
    Decidable (retryWithinExpiry now delaySeconds jobs item) := by
  unfold retryWithinExpiry
  exact inferInstance

def releaseForRetryRow (now : Timestamp) (retryDelaySeconds : ℕ) (errorBody : Option JsonObject)
    (lastError : Option String) (item : BatchItemRow) : BatchItemRow :=
  let instant := if 0 < retryDelaySeconds then some (now + seconds retryDelaySeconds) else none
  { item with
    status := .pending
    leaseExpiresAt := instant
    notBeforeAt := instant
    lockedBy := none
    errorBody := errorBody <|> item.errorBody
    lastError := lastError <|> item.lastError }

/-- `release_items_for_retry`; the payload pairs item ids with claim epochs. -/
def releaseItemsForRetry (now : Timestamp) (payload : List (String × ℕ)) (workerId : String)
    (retryDelaySeconds : ℕ) (errorBody : Option JsonObject) (lastError : Option String)
    (jobs : List BatchJobRow) (items : List BatchItemRow) : List BatchItemRow :=
  updateWhere
    (fun item => (item.itemId, item.claimEpoch) ∈ payload ∧
      OwnedBy workerId item.claimEpoch item ∧ retryWithinExpiry now retryDelaySeconds jobs item)
    (releaseForRetryRow now retryDelaySeconds errorBody lastError) items

def failForRetryRow (now : Timestamp) (retryDelaySeconds : ℕ) (errorBody : JsonObject)
    (lastError : String) (item : BatchItemRow) : BatchItemRow :=
  { item with
    status := .pending
    errorBody := some errorBody
    lastError := some lastError
    leaseExpiresAt := some (now + seconds retryDelaySeconds)
    notBeforeAt := some (now + seconds retryDelaySeconds)
    lockedBy := none }

def failRow (now : Timestamp) (errorBody : JsonObject) (lastError : String)
    (item : BatchItemRow) : BatchItemRow :=
  { item with
    status := .failed
    errorBody := some errorBody
    lastError := some lastError
    leaseExpiresAt := none
    notBeforeAt := none
    lockedBy := none
    completedAt := some now }

/-- `mark_item_failed`. -/
def markItemFailed (now : Timestamp) (itemId workerId : String) (errorBody : JsonObject)
    (lastError : String) (retryable : Bool) (retryDelaySeconds claimEpoch : ℕ)
    (jobs : List BatchJobRow) (items : List BatchItemRow) : List BatchItemRow :=
  if retryable then
    updateWhere
      (fun item => item.itemId = itemId ∧ OwnedBy workerId claimEpoch item ∧
        retryWithinExpiry now retryDelaySeconds jobs item)
      (failForRetryRow now retryDelaySeconds errorBody lastError) items
  else
    updateWhere (fun item => item.itemId = itemId ∧ OwnedBy workerId claimEpoch item)
      (failRow now errorBody lastError) items

def renewRow (now : Timestamp) (leaseSeconds : ℕ) (item : BatchItemRow) : BatchItemRow :=
  { item with leaseExpiresAt := some (now + seconds leaseSeconds) }

/-- `renew_item_lease`. -/
def renewItemLease (now : Timestamp) (itemId workerId : String) (leaseSeconds claimEpoch : ℕ)
    (items : List BatchItemRow) : List BatchItemRow :=
  updateWhere (fun item => item.itemId = itemId ∧ OwnedBy workerId claimEpoch item)
    (renewRow now leaseSeconds) items

def cancelRow (now : Timestamp) (item : BatchItemRow) : BatchItemRow :=
  { item with
    status := .cancelled
    leaseExpiresAt := none
    notBeforeAt := none
    lockedBy := none
    completedAt := some now }

/-- `mark_pending_items_cancelled`. -/
def markPendingItemsCancelled (now : Timestamp) (batchId : String)
    (items : List BatchItemRow) : List BatchItemRow :=
  updateWhere (fun item => item.batchId = batchId ∧ item.status = .pending) (cancelRow now) items

/-- Back to pending with no owner and no lease. -/
def requeueRow (item : BatchItemRow) : BatchItemRow :=
  { item with
    status := .pending
    lockedBy := none
    leaseExpiresAt := none
    notBeforeAt := none }

/-- `release_claim_items`: fenced by the worker id and the status, not by the claim epoch. -/
def releaseClaimItems (itemIds : List String) (workerId : String) (items : List BatchItemRow) :
    List BatchItemRow :=
  updateWhere
    (fun item => item.itemId ∈ itemIds ∧ item.lockedBy = some workerId ∧
      item.status = .inProgress)
    requeueRow items

/-- `requeue_expired_in_progress_items`, the operator's repair of one batch. -/
def requeueExpiredInProgressItems (now : Timestamp) (batchId : String)
    (items : List BatchItemRow) : List BatchItemRow :=
  updateWhere
    (fun item => item.batchId = batchId ∧ item.status = .inProgress ∧
      leaseExpired item.leaseExpiresAt now)
    requeueRow items

/-- `fail_nonterminal_items`, the operator's mark-failed of one batch. -/
def failNonterminalItems (now : Timestamp) (batchId reason : String)
    (items : List BatchItemRow) : List BatchItemRow :=
  updateWhere
    (fun item => item.batchId = batchId ∧
      (item.status = .pending ∨ item.status = .inProgress))
    (failRow now [("message", .str reason), ("type", .str "OperatorFailed")] reason) items

/-- The sweeper's predicate on an item whose lease ran out under a live job. -/
def SweepableItem (now : Timestamp) (jobs : List BatchJobRow) (item : BatchItemRow) : Prop :=
  (∃ job ∈ jobs, job.batchId = item.batchId ∧ job.status.terminal = false) ∧
    item.status = .inProgress ∧ item.lockedBy ≠ none ∧ leaseExpired item.leaseExpiresAt now

instance (now : Timestamp) (jobs : List BatchJobRow) (item : BatchItemRow) :
    Decidable (SweepableItem now jobs item) := by
  unfold SweepableItem
  exact inferInstance

/-- `ORDER BY lease_expires_at ASC, item_id ASC`. -/
def leaseOrder (a b : BatchItemRow) : Prop :=
  a.leaseExpiresAt.getD 0 < b.leaseExpiresAt.getD 0 ∨
    (a.leaseExpiresAt.getD 0 = b.leaseExpiresAt.getD 0 ∧ a.itemId ≤ b.itemId)

instance : DecidableRel leaseOrder := by
  intro a b
  unfold leaseOrder
  exact inferInstance

/-- The rows that one sweep requeues, at most `limit` of them. -/
def sweepCandidates (now : Timestamp) (limit : ℕ) (skip : String → Bool)
    (jobs : List BatchJobRow) (items : List BatchItemRow) : List BatchItemRow :=
  selectFirst (fun item => SweepableItem now jobs item ∧ skip item.itemId = false) leaseOrder
    limit items

/-- `_requeue_expired_item_leases`: the new table and the batches of the requeued rows. -/
def requeueExpiredItemLeases (now : Timestamp) (limit : ℕ) (skip : String → Bool)
    (jobs : List BatchJobRow) (items : List BatchItemRow) : List BatchItemRow × List String :=
  let candidates := sweepCandidates now limit skip jobs items
  (updateWhere (fun item => item.itemId ∈ candidates.map BatchItemRow.itemId) requeueRow items,
    candidates.map BatchItemRow.batchId)

theorem mem_claimCandidates {now : Timestamp} {batchId : String} {limit : ℕ}
    {skip : String → Bool} {items : List BatchItemRow} {item : BatchItemRow}
    (h : item ∈ claimCandidates now batchId limit skip items) :
    item ∈ items ∧ item.batchId = batchId ∧ item.Runnable now := by
  obtain ⟨hitem, hbatch, hrunnable, _⟩ := mem_of_mem_selectFirst h
  exact ⟨hitem, hbatch, hrunnable⟩

/-- Under distinct item ids at most one row joins a payload entry, so a full eligible count
means that every entry meets its fence. -/
theorem eligibleCount_eq_length {workerId : String} {skip : String → Bool}
    {payload : List CompletedItem} {items : List BatchItemRow} :
    eligibleCount workerId skip payload items = payload.length ↔
      ∀ completed ∈ payload, ∃ item ∈ items, completed.itemId = item.itemId ∧
        OwnedBy workerId completed.claimEpoch item ∧ skip item.itemId = false := by
  unfold eligibleCount
  rw [List.countP_eq_length]
  simp

theorem bulkMatch_some {workerId : String} {skip : String → Bool} {payload : List CompletedItem}
    {item : BatchItemRow} {completed : CompletedItem}
    (h : bulkMatch workerId skip payload item = some completed) :
    completed ∈ payload ∧ completed.itemId = item.itemId ∧
      OwnedBy workerId completed.claimEpoch item := by
  have hfound := List.find?_some h
  simp only [decide_eq_true_eq] at hfound
  exact ⟨List.mem_of_find?_eq_some h, hfound.1, hfound.2.1⟩

/-- When every entry meets its fence, the updated rows are as many as the entries. -/
theorem countP_bulkMatch {workerId : String} {skip : String → Bool} {payload : List CompletedItem}
    {items : List BatchItemRow} (hkeys : (items.map BatchItemRow.itemId).Nodup)
    (hdistinct : (payload.map CompletedItem.itemId).Nodup)
    (hall : ∀ completed ∈ payload, ∃ item ∈ items, completed.itemId = item.itemId ∧
      OwnedBy workerId completed.claimEpoch item ∧ skip item.itemId = false) :
    items.countP (fun item => (bulkMatch workerId skip payload item).isSome) = payload.length := by
  have hperm : ((items.filter fun item => (bulkMatch workerId skip payload item).isSome).map
      BatchItemRow.itemId).Perm (payload.map CompletedItem.itemId) := by
    refine (List.perm_ext_iff_of_nodup (hkeys.sublist (List.filter_sublist.map _)) hdistinct).mpr ?_
    intro itemId
    simp only [List.mem_map, List.mem_filter]
    constructor
    · rintro ⟨item, ⟨hitem, hmatch⟩, rfl⟩
      obtain ⟨completed, hcompleted⟩ := Option.isSome_iff_exists.mp hmatch
      obtain ⟨hmem, hid, _⟩ := bulkMatch_some hcompleted
      exact ⟨completed, hmem, hid⟩
    · rintro ⟨completed, hmem, rfl⟩
      obtain ⟨item, hitem, hid, hown, hskip⟩ := hall completed hmem
      refine ⟨item, ⟨hitem, ?_⟩, hid.symm⟩
      rw [bulkMatch, List.find?_isSome]
      exact ⟨completed, hmem, by simpa using ⟨hid, hown, hskip⟩⟩
  rw [List.countP_eq_length_filter]
  simpa using hperm.length_eq

theorem markItemsCompletedBulk_items (now : Timestamp) (payload : List CompletedItem)
    (workerId : String) (skip : String → Bool) (items : List BatchItemRow) :
    (markItemsCompletedBulk now payload workerId skip items).1 = items ∨
      (markItemsCompletedBulk now payload workerId skip items).1 =
        items.map (completeMatched now workerId skip payload) := by
  unfold markItemsCompletedBulk
  split_ifs
  · exact Or.inl rfl
  · exact Or.inr rfl
  · exact Or.inl rfl

end BatchItemStatements
