import DeltaLLM.PythonText
import DeltaLLM.BatchItemStatements

/-! # Completion outbox and spend events

A bulk completion and its outbox rows are written in one transaction. Delivery writes the
spend event, the counters and the sent mark in another one, and the primary key of the spend
event is the completion id.
-/
namespace BatchCompletionOutbox

open BatchRecords
open BatchItemStatements
open JsonValues (JsonObject)
open PythonText (stripOrEmpty)
open TableStatements

/-- One entry given to `complete_items_with_outbox_bulk`, with the uuid its outbox row draws. -/
structure OutboxCompletion where
  completed : CompletedItem
  outboxPayload : CompletionOutboxPayload
  outboxMaxAttempts : ℕ
  completionId : String

/-- The row that `enqueue_many` inserts for one entry. -/
def queuedRow (now : Timestamp) (entry : OutboxCompletion) : BatchCompletionOutboxRow :=
  { completionId := entry.completionId
    batchId := entry.outboxPayload.batchId
    itemId := entry.completed.itemId
    payloadJson := entry.outboxPayload
    status := .queued
    attemptCount := 0
    maxAttempts := if entry.outboxMaxAttempts = 0 then 5 else entry.outboxMaxAttempts
    nextAttemptAt := now
    lastError := none
    lockedBy := none
    leaseExpiresAt := none
    createdAt := now
    processedAt := none }

/-- `enqueue_many`: ON CONFLICT (item_id) DO NOTHING, row by row. -/
def enqueueMany (now : Timestamp) (entries : List OutboxCompletion)
    (outbox : List BatchCompletionOutboxRow) : List BatchCompletionOutboxRow :=
  entries.foldl
    (fun rows entry => insertOrIgnore BatchCompletionOutboxRow.itemId (queuedRow now entry) rows)
    outbox

inductive BulkCompletionResult where
  | completed | alreadyCompleted | notOwned
  | raised
  deriving DecidableEq, Repr

structure BulkCompletion where
  items : List BatchItemRow
  outbox : List BatchCompletionOutboxRow
  result : BulkCompletionResult

/-- `complete_items_with_outbox_bulk`. The transaction rolls back when fewer outbox rows were
inserted than entries given. -/
def completeItemsWithOutboxBulk (now : Timestamp) (entries : List OutboxCompletion)
    (workerId : String) (skip : String → Bool) (items : List BatchItemRow)
    (outbox : List BatchCompletionOutboxRow) : BulkCompletion :=
  if entries = [] then ⟨items, outbox, .completed⟩
  else
    let payload := entries.map OutboxCompletion.completed
    let marked := markItemsCompletedBulk now payload workerId skip items
    if marked.2 then
      let enqueued := enqueueMany now entries outbox
      if enqueued.length = outbox.length + entries.length then ⟨marked.1, enqueued, .completed⟩
      else ⟨items, outbox, .raised⟩
    else
      let itemIds := payload.map CompletedItem.itemId
      if (∀ itemId ∈ itemIds, (∃ item ∈ marked.1, item.itemId = itemId ∧ item.status = .completed) ∧
          ∃ row ∈ outbox, row.itemId = itemId) then ⟨marked.1, outbox, .alreadyCompleted⟩
      else ⟨marked.1, outbox, .notOwned⟩

theorem completeItemsWithOutboxBulk_items (now : Timestamp) (entries : List OutboxCompletion)
    (workerId : String) (skip : String → Bool) (items : List BatchItemRow)
    (outbox : List BatchCompletionOutboxRow) :
    (completeItemsWithOutboxBulk now entries workerId skip items outbox).items = items ∨
      (completeItemsWithOutboxBulk now entries workerId skip items outbox).items =
        items.map (completeMatched now workerId skip (entries.map OutboxCompletion.completed)) := by
  have hmarked := markItemsCompletedBulk_items now (entries.map OutboxCompletion.completed)
    workerId skip items
  simp only [completeItemsWithOutboxBulk]
  split_ifs
  · exact Or.inl rfl
  · exact hmarked
  · exact Or.inl rfl
  · exact hmarked
  · exact hmarked

/-- A record is due when its retry time came or its delivery lease ran out. -/
def DueRow (now : Timestamp) (row : BatchCompletionOutboxRow) : Prop :=
  ((row.status = .queued ∨ row.status = .retrying) ∧ row.nextAttemptAt ≤ now) ∨
    (row.status = .processing ∧ leaseExpired row.leaseExpiresAt now)

instance (now : Timestamp) (row : BatchCompletionOutboxRow) : Decidable (DueRow now row) := by
  unfold DueRow
  exact inferInstance

def claimDueRow (now : Timestamp) (workerId : String) (leaseSeconds : ℕ)
    (row : BatchCompletionOutboxRow) : BatchCompletionOutboxRow :=
  { row with
    status := .processing
    attemptCount := row.attemptCount + 1
    lockedBy := some workerId
    leaseExpiresAt := some (now + seconds (max 1 leaseSeconds)) }

/-- `claim_due`: the new table and the returned rows. -/
def claimDue (now : Timestamp) (workerId : String) (leaseSeconds limit : ℕ)
    (skip : String → Bool) (outbox : List BatchCompletionOutboxRow) :
    List BatchCompletionOutboxRow × List BatchCompletionOutboxRow :=
  let dueIds := (selectFirst (fun row => DueRow now row ∧ skip row.completionId = false)
    (fun a b => a.createdAt ≤ b.createdAt) (max 1 (min limit 500)) outbox).map
      BatchCompletionOutboxRow.completionId
  let updated := updateWhere (fun row => row.completionId ∈ dueIds)
    (claimDueRow now workerId leaseSeconds) outbox
  (updated, updated.filter fun row => row.completionId ∈ dueIds)

/-- The fence of `mark_sent`, `mark_retry`, `mark_failed` and `renew_lease`. -/
def ProcessedBy (completionId workerId : String) (row : BatchCompletionOutboxRow) : Prop :=
  row.completionId = completionId ∧ row.status = .processing ∧ row.lockedBy = some workerId

instance (completionId workerId : String) (row : BatchCompletionOutboxRow) :
    Decidable (ProcessedBy completionId workerId row) := by
  unfold ProcessedBy
  exact inferInstance

def sentRow (now : Timestamp) (row : BatchCompletionOutboxRow) : BatchCompletionOutboxRow :=
  { row with
    status := .sent
    lastError := none
    lockedBy := none
    leaseExpiresAt := none
    processedAt := some now }

/-- `mark_sent`. -/
def markSent (now : Timestamp) (completionId workerId : String)
    (outbox : List BatchCompletionOutboxRow) : List BatchCompletionOutboxRow :=
  updateWhere (ProcessedBy completionId workerId) (sentRow now) outbox

/-- `error[:4000]`. -/
def cutError (error : String) : String := String.ofList (error.toList.take 4000)

def retryingRow (error : String) (nextAttemptAt : Timestamp) (row : BatchCompletionOutboxRow) :
    BatchCompletionOutboxRow :=
  { row with
    status := .retrying
    lastError := some (cutError error)
    nextAttemptAt := nextAttemptAt
    lockedBy := none
    leaseExpiresAt := none }

/-- `mark_retry`. -/
def markRetry (completionId workerId error : String) (nextAttemptAt : Timestamp)
    (outbox : List BatchCompletionOutboxRow) : List BatchCompletionOutboxRow :=
  updateWhere (ProcessedBy completionId workerId) (retryingRow error nextAttemptAt) outbox

def undeliveredRow (error : String) (row : BatchCompletionOutboxRow) :
    BatchCompletionOutboxRow :=
  { row with
    status := .failed
    lastError := some (cutError error)
    lockedBy := none
    leaseExpiresAt := none }

/-- `mark_failed`. -/
def markFailed (completionId workerId error : String)
    (outbox : List BatchCompletionOutboxRow) : List BatchCompletionOutboxRow :=
  updateWhere (ProcessedBy completionId workerId) (undeliveredRow error) outbox

/-- `renew_lease`. -/
def renewLease (now : Timestamp) (completionId workerId : String) (leaseSeconds : ℕ)
    (outbox : List BatchCompletionOutboxRow) : List BatchCompletionOutboxRow :=
  updateWhere (ProcessedBy completionId workerId)
    (fun row => { row with leaseExpiresAt := some (now + seconds (max 1 leaseSeconds)) }) outbox

structure Spending where
  events : List SpendEvent
  ledger : List LedgerIncrement

/-- The spend event of a delivered record. -/
def spendEvent (row : BatchCompletionOutboxRow) : SpendEvent :=
  { id := row.completionId
    requestId := row.payloadJson.requestId
    apiKey := stripOrEmpty row.payloadJson.apiKey
    userId := row.payloadJson.userId
    teamId := row.payloadJson.teamId
    organizationId := row.payloadJson.organizationId
    model := row.payloadJson.model
    callType := row.payloadJson.callType
    usage := row.payloadJson.usage
    cost := row.payloadJson.billedCost }

/-- `increment_spend`: counters move only for a positive cost. -/
def incrementSpend (event : SpendEvent) (ledger : List LedgerIncrement) : List LedgerIncrement :=
  if event.cost ≤ 0 then ledger
  else
    ledger ++ [{ eventId := event.id, apiKey := event.apiKey, userId := event.userId,
                 teamId := event.teamId, organizationId := event.organizationId,
                 model := event.model, cost := event.cost }]

/-- `log_spend_once`: a duplicate event id moves no counter. -/
def logSpendOnce (event : SpendEvent) (spending : Spending) : Spending :=
  if ∃ logged ∈ spending.events, logged.id = event.id then spending
  else ⟨spending.events ++ [event], incrementSpend event spending.ledger⟩

structure Delivery where
  outbox : List BatchCompletionOutboxRow
  spending : Spending

/-- `_record_durable_success_with_dependencies` in its transaction: a record without an API key
logs no spend and is marked sent all the same. -/
def recordDurableSuccess (now : Timestamp) (record : BatchCompletionOutboxRow)
    (workerId : String) (outbox : List BatchCompletionOutboxRow) (spending : Spending) :
    Delivery :=
  let logged := if stripOrEmpty record.payloadJson.apiKey = "" then spending
    else logSpendOnce (spendEvent record) spending
  ⟨markSent now record.completionId workerId outbox, logged⟩

/-- The failure branch of `_process_record`. -/
def recordDeliveryFailure (record : BatchCompletionOutboxRow) (workerId error : String)
    (nextAttemptAt : Timestamp) (outbox : List BatchCompletionOutboxRow) :
    List BatchCompletionOutboxRow :=
  if record.maxAttempts ≤ record.attemptCount then
    markFailed record.completionId workerId error outbox
  else markRetry record.completionId workerId error nextAttemptAt outbox

/-- With distinct items that have no row yet, every entry gets its row. -/
theorem enqueueMany_fresh (now : Timestamp) {entries : List OutboxCompletion}
    (hdistinct : (entries.map fun entry => entry.completed.itemId).Nodup)
    {outbox : List BatchCompletionOutboxRow}
    (hfresh : ∀ entry ∈ entries, ∀ row ∈ outbox, row.itemId ≠ entry.completed.itemId) :
    enqueueMany now entries outbox = outbox ++ entries.map (queuedRow now) := by
  induction entries generalizing outbox with
  | nil => simp [enqueueMany]
  | cons entry entries ih =>
      rw [List.map_cons, List.nodup_cons] at hdistinct
      have hinsert : insertOrIgnore BatchCompletionOutboxRow.itemId (queuedRow now entry) outbox =
          outbox ++ [queuedRow now entry] := by
        have hnone : ¬∃ row ∈ outbox, row.itemId = (queuedRow now entry).itemId := by
          rintro ⟨row, hrow, hid⟩
          exact hfresh entry List.mem_cons_self row hrow hid
        simp only [insertOrIgnore, hnone, if_false]
      have hrest : ∀ other ∈ entries, ∀ row ∈ outbox ++ [queuedRow now entry],
          row.itemId ≠ other.completed.itemId := by
        intro other hother row hrow hid
        rcases List.mem_append.mp hrow with hold | hnew
        · exact hfresh other (List.mem_cons_of_mem _ hother) row hold hid
        · rw [List.mem_singleton] at hnew
          subst hnew
          exact hdistinct.1 (List.mem_map.mpr ⟨other, hother, hid.symm⟩)
      have htail := ih hdistinct.2 hrest
      simp only [enqueueMany, List.foldl_cons] at htail ⊢
      rw [hinsert, htail, List.map_cons, List.append_assoc]
      rfl

theorem logSpendOnce_ids (event : SpendEvent) {spending : Spending}
    (hids : (spending.events.map SpendEvent.id).Nodup) :
    ((logSpendOnce event spending).events.map SpendEvent.id).Nodup := by
  unfold logSpendOnce
  split
  · exact hids
  · next hnew =>
      rw [List.map_append, List.nodup_append]
      refine ⟨hids, List.nodup_singleton _, ?_⟩
      intro a ha b hb hab
      obtain ⟨logged, hlogged, rfl⟩ := List.mem_map.mp ha
      simp only [List.map_cons, List.map_nil, List.mem_singleton] at hb
      exact hnew ⟨logged, hlogged, hab.trans hb⟩

theorem logSpendOnce_mem (event : SpendEvent) (spending : Spending) :
    ∃ logged ∈ (logSpendOnce event spending).events, logged.id = event.id := by
  unfold logSpendOnce
  split
  · next hlogged => exact hlogged
  · exact ⟨event, by simp, rfl⟩

theorem logSpendOnce_keeps {event logged : SpendEvent} {spending : Spending}
    (h : logged ∈ spending.events) : logged ∈ (logSpendOnce event spending).events := by
  unfold logSpendOnce
  split
  · exact h
  · exact List.mem_append_left _ h

/-- Counters only ever move for a logged event, and once for each. -/
structure LedgerInvariant (spending : Spending) : Prop where
  eventIds : (spending.events.map SpendEvent.id).Nodup
  ledgerIds : (spending.ledger.map LedgerIncrement.eventId).Nodup
  logged : ∀ increment ∈ spending.ledger, ∃ event ∈ spending.events,
    event.id = increment.eventId

theorem logSpendOnce_ledger (event : SpendEvent) {spending : Spending}
    (hinv : LedgerInvariant spending) : LedgerInvariant (logSpendOnce event spending) := by
  refine ⟨logSpendOnce_ids event hinv.eventIds, ?_, ?_⟩
  · unfold logSpendOnce incrementSpend
    split_ifs with hduplicate hfree
    · exact hinv.ledgerIds
    · exact hinv.ledgerIds
    · rw [List.map_append, List.nodup_append]
      refine ⟨hinv.ledgerIds, List.nodup_singleton _, ?_⟩
      intro a ha b hb hab
      obtain ⟨increment, hincrement, rfl⟩ := List.mem_map.mp ha
      obtain ⟨logged, hlogged, hid⟩ := hinv.logged increment hincrement
      simp only [List.map_cons, List.map_nil, List.mem_singleton] at hb
      exact hduplicate ⟨logged, hlogged, hid.trans (hab.trans hb)⟩
  · intro increment hincrement
    by_cases hold : increment ∈ spending.ledger
    · obtain ⟨logged, hlogged, hid⟩ := hinv.logged increment hold
      exact ⟨logged, logSpendOnce_keeps hlogged, hid⟩
    · have hid : increment.eventId = event.id := by
        unfold logSpendOnce incrementSpend at hincrement
        split_ifs at hincrement with hduplicate hfree
        · exact absurd hincrement hold
        · exact absurd hincrement hold
        · rcases List.mem_append.mp hincrement with h | h
          · exact absurd h hold
          · rw [List.mem_singleton] at h
            rw [h]
      rw [hid]
      exact logSpendOnce_mem event spending

end BatchCompletionOutbox
