import DeltaLLM.BatchSystem

/-! # What one event does to one item row

`ItemStep` lists every change that an event makes to a row of the item table, with what the
event had to read for it. The invariants of item ownership, attempts and completion are all
derived from this list.
-/
namespace BatchItemSteps

open BatchRecords
open BatchItemStatements
open BatchWorkClaim (WorkClaimRequest RowLocks claimNextWork claimNextWork_none
  claimNextWork_some mem_eligibleItems)
open BatchCompletionOutbox
open BatchSystem
open JsonValues (JsonObject)
open TableStatements

/-- The item rows that a claim event writes. -/
structure ClaimWrite where
  now : Timestamp
  workerId : String
  leaseSeconds : ℕ
  itemIds : List String

def claimWrite (s : BatchState) : Event → Option ClaimWrite
  | .claimItems now batchId workerId limit leaseSeconds skip =>
      some ⟨now, workerId, leaseSeconds,
        (claimCandidates now batchId limit skip s.items).map BatchItemRow.itemId⟩
  | .claimWork now request locks =>
      (claimNextWork request now locks s.jobs s.items).claim.map fun claim =>
        ⟨now, request.workerId, request.leaseSeconds, claim.itemIds⟩
  | _ => none

/-- Rows that the event inserts into the item table. -/
def created : Event → List BatchItemRow
  | .promoteSession _ items => items
  | _ => []

/-- One row before and after one event. -/
inductive ItemStep (maxAttempts : ℕ) (s : BatchState) :
    Event → BatchItemRow → BatchItemRow → Prop where
  | unchanged {e : Event} {item : BatchItemRow}
      (hw : ∀ w, claimWrite s e = some w → item.itemId ∉ w.itemIds) :
      ItemStep maxAttempts s e item item
  | claimed {e : Event} {item : BatchItemRow} (w : ClaimWrite) (hw : claimWrite s e = some w)
      (hid : item.itemId ∈ w.itemIds) (hrun : item.Runnable w.now) :
      ItemStep maxAttempts s e item (claimRow w.now w.workerId w.leaseSeconds item)
  | renewed {now : Timestamp} {held : HeldItem} {leaseSeconds : ℕ} {item : BatchItemRow}
      (hheld : held ∈ s.held) (hid : item.itemId = held.itemId)
      (hown : OwnedBy held.workerId held.claimEpoch item) :
      ItemStep maxAttempts s (.renewItemLease now held leaseSeconds) item
        (renewRow now leaseSeconds item)
  | completed {now : Timestamp} {workerId : String} {payload : CompletedItem}
      {item : BatchItemRow} (hheld : HoldsAll s workerId [payload])
      (hid : payload.itemId = item.itemId) (hown : OwnedBy workerId payload.claimEpoch item) :
      ItemStep maxAttempts s (.markItemCompleted now workerId payload) item
        (completeRow now payload item)
  | completedBulk {now : Timestamp} {workerId : String} {payload : List CompletedItem}
      {skip : String → Bool} {item : BatchItemRow} (entry : CompletedItem)
      (hheld : HoldsAll s workerId payload) (hentry : entry ∈ payload)
      (hid : entry.itemId = item.itemId) (hown : OwnedBy workerId entry.claimEpoch item) :
      ItemStep maxAttempts s (.markItemsCompletedBulk now workerId payload skip) item
        (completeRow now entry item)
  | completedWithOutbox {now : Timestamp} {workerId : String} {entries : List OutboxCompletion}
      {skip : String → Bool} {item : BatchItemRow} (entry : OutboxCompletion)
      (hheld : HoldsAll s workerId (entries.map OutboxCompletion.completed))
      (hentry : entry ∈ entries) (hid : entry.completed.itemId = item.itemId)
      (hown : OwnedBy workerId entry.completed.claimEpoch item) :
      ItemStep maxAttempts s (.completeItemsWithOutboxBulk now workerId entries skip) item
        (completeRow now entry.completed item)
  | failedForRetry {now : Timestamp} {held : HeldItem} {errorBody : JsonObject}
      {lastError : String} {retryDelaySeconds : ℕ} {item : BatchItemRow}
      (hheld : held ∈ s.held) (hattempts : held.attempts < maxAttempts)
      (hid : item.itemId = held.itemId) (hown : OwnedBy held.workerId held.claimEpoch item) :
      ItemStep maxAttempts s
        (.markItemFailed now held errorBody lastError true retryDelaySeconds) item
        (failForRetryRow now retryDelaySeconds errorBody lastError item)
  | failed {now : Timestamp} {held : HeldItem} {errorBody : JsonObject} {lastError : String}
      {retryDelaySeconds : ℕ} {item : BatchItemRow} (hheld : held ∈ s.held)
      (hid : item.itemId = held.itemId) (hown : OwnedBy held.workerId held.claimEpoch item) :
      ItemStep maxAttempts s
        (.markItemFailed now held errorBody lastError false retryDelaySeconds) item
        (failRow now errorBody lastError item)
  | releasedForRetry {now : Timestamp} {workerId : String} {chunk : List HeldItem}
      {retryDelaySeconds : ℕ} {errorBody : JsonObject} {lastError : String}
      {item : BatchItemRow} (held : HeldItem) (hheld : held ∈ s.held) (hchunk : held ∈ chunk)
      (hworker : held.workerId = workerId) (hattempts : held.attempts < maxAttempts)
      (hid : item.itemId = held.itemId) (hown : OwnedBy workerId held.claimEpoch item) :
      ItemStep maxAttempts s
        (.releaseFailedMicrobatch now workerId chunk retryDelaySeconds errorBody lastError) item
        (releaseForRetryRow now retryDelaySeconds (some errorBody) (some lastError) item)
  | requeuedAfterPersistenceFailure {now : Timestamp} {workerId : String}
      {chunk : List HeldItem} {item : BatchItemRow} (held : HeldItem) (hheld : held ∈ s.held)
      (hchunk : held ∈ chunk) (hworker : held.workerId = workerId)
      (hid : item.itemId = held.itemId) (hown : OwnedBy workerId held.claimEpoch item) :
      ItemStep maxAttempts s (.requeueAfterPersistenceFailure now workerId chunk) item
        (releaseForRetryRow now 0 none none item)
  | released {slice : WorkSlice} {item : BatchItemRow} (claim : ClaimEvent)
      (hslice : slice ∈ s.slices) (hclaim : claim ∈ slice.claims)
      (hid : item.itemId = claim.itemId) (hlocked : item.lockedBy = some slice.workerId)
      (hrunning : item.status = .inProgress) :
      ItemStep maxAttempts s (.releaseClaimItems slice) item (requeueRow item)
  | cancelled {now : Timestamp} {batchId : String} {item : BatchItemRow}
      (hpending : item.status = .pending) :
      ItemStep maxAttempts s (.markPendingItemsCancelled now batchId) item (cancelRow now item)
  | requeuedExpired {now : Timestamp} {batchId : String} {item : BatchItemRow}
      (hbatch : item.batchId = batchId) (hrunning : item.status = .inProgress)
      (hexpired : leaseExpired item.leaseExpiresAt now) :
      ItemStep maxAttempts s (.requeueExpiredInProgressItems now batchId) item (requeueRow item)
  | failedByOperator {now : Timestamp} {batchId reason : String} {errorBody : JsonObject}
      {item : BatchItemRow} (hlive : item.status.terminal = false) :
      ItemStep maxAttempts s (.failNonterminalItems now batchId reason) item
        (failRow now errorBody reason item)
  | swept {now : Timestamp} {limit : ℕ} {skip : String → Bool} {item : BatchItemRow}
      (hcandidate : item ∈ sweepCandidates now limit skip s.jobs s.items)
      (hsweep : SweepableItem now s.jobs item) :
      ItemStep maxAttempts s (.sweepExpiredItems now limit skip) item (requeueRow item)

/-- The columns that identify an item never change, and a terminal row never changes at all. -/
theorem ItemStep.frame {maxAttempts : ℕ} {s : BatchState} {e : Event}
    {item item' : BatchItemRow} (h : ItemStep maxAttempts s e item item') :
    item'.itemId = item.itemId ∧ item'.batchId = item.batchId ∧
      item'.lineNumber = item.lineNumber ∧ item'.customId = item.customId ∧
      (item.status.terminal = true → item' = item) := by
  cases h with
  | unchanged => exact ⟨rfl, rfl, rfl, rfl, fun _ => rfl⟩
  | claimed w hw hid hrun =>
      refine ⟨rfl, rfl, rfl, rfl, fun ht => ?_⟩
      rw [hrun.not_terminal] at ht
      cases ht
  | failedByOperator hlive =>
      refine ⟨rfl, rfl, rfl, rfl, fun ht => ?_⟩
      rw [hlive] at ht
      cases ht
  | swept _ hsweep =>
      refine ⟨rfl, rfl, rfl, rfl, fun ht => ?_⟩
      simp [hsweep.2.1, BatchItemStatus.terminal] at ht
  | cancelled hpending =>
      refine ⟨rfl, rfl, rfl, rfl, fun ht => ?_⟩
      simp [hpending, BatchItemStatus.terminal] at ht
  | released _ _ _ _ _ hrunning | requeuedExpired _ hrunning =>
      refine ⟨rfl, rfl, rfl, rfl, fun ht => ?_⟩
      simp [hrunning, BatchItemStatus.terminal] at ht
  | renewed _ _ hown | completed _ _ hown | completedBulk _ _ _ _ hown
  | completedWithOutbox _ _ _ _ hown | failedForRetry _ _ _ hown | failed _ _ hown
  | releasedForRetry _ _ _ _ _ _ hown | requeuedAfterPersistenceFailure _ _ _ _ _ hown =>
      refine ⟨rfl, rfl, rfl, rfl, fun ht => ?_⟩
      simp [hown.1, BatchItemStatus.terminal] at ht

section Inversion

variable {maxAttempts : ℕ} {s : BatchState} {e : Event}

/-- The rows after the event are the old rows, each changed by an item step, then the new ones. -/
def ItemsFollow (maxAttempts : ℕ) (s : BatchState) (e : Event) : Prop :=
  ∃ f : BatchItemRow → BatchItemRow, (next s e).items = s.items.map f ++ created e ∧
    ∀ item ∈ s.items, ItemStep maxAttempts s e item (f item)

private theorem follow_of_unchanged (hitems : (next s e).items = s.items ++ created e)
    (hw : claimWrite s e = none) : ItemsFollow maxAttempts s e := by
  refine ⟨id, by simpa using hitems, fun item _ => .unchanged ?_⟩
  intro w h
  rw [hw] at h
  cases h

private theorem follow_of_update (p : BatchItemRow → Prop) [DecidablePred p]
    (f : BatchItemRow → BatchItemRow) (hitems : (next s e).items = updateWhere p f s.items)
    (hcreated : created e = []) (hw : claimWrite s e = none)
    (hstep : ∀ item ∈ s.items, p item → ItemStep maxAttempts s e item (f item)) :
    ItemsFollow maxAttempts s e := by
  refine ⟨fun item => if p item then f item else item, ?_, fun item hitem => ?_⟩
  · rw [hitems, hcreated, List.append_nil]
    rfl
  · by_cases hp : p item
    · simpa [hp] using hstep item hitem hp
    · simp only [hp, if_false]
      refine .unchanged fun w h => ?_
      rw [hw] at h
      cases h

private theorem follow_of_claim (w : ClaimWrite) (hw : claimWrite s e = some w)
    (hcreated : created e = [])
    (hitems : (next s e).items =
      updateClaimed w.now w.workerId w.leaseSeconds w.itemIds s.items)
    (hrun : ∀ item ∈ s.items, item.itemId ∈ w.itemIds → item.Runnable w.now) :
    ItemsFollow maxAttempts s e := by
  refine ⟨fun item => if item.itemId ∈ w.itemIds then
    claimRow w.now w.workerId w.leaseSeconds item else item, ?_, fun item hitem => ?_⟩
  · rw [hitems, hcreated, List.append_nil]
    rfl
  · by_cases hid : item.itemId ∈ w.itemIds
    · simpa [hid] using ItemStep.claimed w hw hid (hrun item hitem hid)
    · simp only [hid, if_false]
      refine .unchanged fun w' hw' => ?_
      rw [hw] at hw'
      cases hw'
      exact hid

/-- Item ids of runnable rows name runnable rows only, since ids are distinct. -/
private theorem runnable_of_mem_ids (hkeys : (s.items.map BatchItemRow.itemId).Nodup)
    {now : Timestamp} {rows : List BatchItemRow}
    (hrows : ∀ row ∈ rows, row ∈ s.items ∧ row.Runnable now) {item : BatchItemRow}
    (hitem : item ∈ s.items) (hid : item.itemId ∈ rows.map BatchItemRow.itemId) :
    item.Runnable now := by
  obtain ⟨row, hrow, hsame⟩ := List.mem_map.mp hid
  obtain ⟨hmem, hrunnable⟩ := hrows row hrow
  have : row = item := List.inj_on_of_nodup_map hkeys hmem hitem hsame
  exact this ▸ hrunnable

private theorem follow_claimItems (hkeys : (s.items.map BatchItemRow.itemId).Nodup)
    (now : Timestamp) (batchId workerId : String) (limit leaseSeconds : ℕ)
    (skip : String → Bool) :
    ItemsFollow maxAttempts s (.claimItems now batchId workerId limit leaseSeconds skip) := by
  refine follow_of_claim _ rfl rfl rfl fun item hitem hid => ?_
  refine runnable_of_mem_ids hkeys (fun row hrow => ?_) hitem hid
  obtain ⟨hmem, _, hrunnable⟩ := mem_claimCandidates hrow
  exact ⟨hmem, hrunnable⟩

private theorem follow_claimWork (hkeys : (s.items.map BatchItemRow.itemId).Nodup)
    (now : Timestamp) (request : WorkClaimRequest) (locks : RowLocks) :
    ItemsFollow maxAttempts s (.claimWork now request locks) := by
  cases hclaim : (claimNextWork request now locks s.jobs s.items).claim with
  | none =>
      refine follow_of_unchanged ?_ (by simp [claimWrite, hclaim])
      simp [next, afterWorkClaim, hclaim, created, (claimNextWork_none hclaim).2]
  | some claim =>
      obtain ⟨job, _, _, _, _, hids, _, _, hitems⟩ := claimNextWork_some hclaim
      refine follow_of_claim ⟨now, request.workerId, request.leaseSeconds, claim.itemIds⟩
        (by simp [claimWrite, hclaim]) rfl ?_ fun item hitem hid => ?_
      · simp [next, afterWorkClaim, hclaim, hitems]
      · simp only [hids] at hid
        refine runnable_of_mem_ids hkeys (fun row hrow => ?_) hitem hid
        obtain ⟨hmem, _, hrunnable⟩ := mem_eligibleItems hrow
        exact ⟨hmem, hrunnable⟩

/-- Releases for retry act for the record of the chunk that names the row. -/
private theorem mem_chunkPayload {chunk : List HeldItem} {itemId : String} {claimEpoch : ℕ}
    (h : (itemId, claimEpoch) ∈ chunkPayload chunk) :
    ∃ held ∈ chunk, held.itemId = itemId ∧ held.claimEpoch = claimEpoch := by
  obtain ⟨held, hheld, hpair⟩ := List.mem_map.mp h
  simp only [Prod.mk.injEq] at hpair
  exact ⟨held, hheld, hpair⟩

private theorem follow_markItemFailed (now : Timestamp) (held : HeldItem)
    (errorBody : JsonObject) (lastError : String) (retryable : Bool) (retryDelaySeconds : ℕ)
    (he : Enabled maxAttempts s
      (.markItemFailed now held errorBody lastError retryable retryDelaySeconds)) :
    ItemsFollow maxAttempts s
      (.markItemFailed now held errorBody lastError retryable retryDelaySeconds) := by
  obtain ⟨hheld, hattempts⟩ := he
  cases retryable with
  | true =>
      refine follow_of_update _ _
        (by simp [next, BatchItemStatements.markItemFailed]; rfl) rfl rfl ?_
      rintro item _ ⟨hid, hown, _⟩
      exact .failedForRetry hheld (hattempts rfl) hid hown
  | false =>
      refine follow_of_update _ _
        (by simp [next, BatchItemStatements.markItemFailed]; rfl) rfl rfl ?_
      rintro item _ ⟨hid, hown⟩
      exact .failed hheld hid hown

private theorem follow_of_bulk {now : Timestamp} {workerId : String} {skip : String → Bool}
    {payload : List CompletedItem} (hw : claimWrite s e = none) (hcreated : created e = [])
    (hitems : (next s e).items = s.items ∨
      (next s e).items = s.items.map (completeMatched now workerId skip payload))
    (hstep : ∀ item ∈ s.items, ∀ entry ∈ payload, entry.itemId = item.itemId →
      OwnedBy workerId entry.claimEpoch item →
      ItemStep maxAttempts s e item (completeRow now entry item)) :
    ItemsFollow maxAttempts s e := by
  rcases hitems with hsame | hmap
  · exact follow_of_unchanged (by rw [hsame, hcreated, List.append_nil]) hw
  · refine ⟨_, by rw [hmap, hcreated, List.append_nil], fun item hitem => ?_⟩
    unfold completeMatched
    cases hmatch : bulkMatch workerId skip payload item with
    | none =>
        refine .unchanged fun w h => ?_
        rw [hw] at h
        cases h
    | some entry =>
        obtain ⟨hentry, hid, hown⟩ := bulkMatch_some hmatch
        exact hstep item hitem entry hentry hid hown

/-- Every event changes every row by one item step. -/
theorem items_follow (hkeys : (s.items.map BatchItemRow.itemId).Nodup)
    (he : Enabled maxAttempts s e) : ItemsFollow maxAttempts s e := by
  cases e with
  | claimItems now batchId workerId limit leaseSeconds skip =>
      exact follow_claimItems hkeys now batchId workerId limit leaseSeconds skip
  | claimWork now request locks => exact follow_claimWork hkeys now request locks
  | renewItemLease now held leaseSeconds =>
      refine follow_of_update _ _ rfl rfl rfl ?_
      rintro item _ ⟨hid, hown⟩
      exact .renewed he hid hown
  | markItemCompleted now workerId completed =>
      refine follow_of_update _ _ rfl rfl rfl ?_
      rintro item _ ⟨hid, hown⟩
      exact .completed he hid.symm hown
  | markItemsCompletedBulk now workerId payload skip =>
      refine follow_of_bulk rfl rfl (markItemsCompletedBulk_items now payload workerId skip s.items)
        fun item _ entry hentry hid hown => ?_
      exact .completedBulk entry he.1 hentry hid hown
  | completeItemsWithOutboxBulk now workerId entries skip =>
      refine follow_of_bulk rfl rfl
        (completeItemsWithOutboxBulk_items now entries workerId skip s.items s.outbox)
        fun item _ payload hpayload hid hown => ?_
      obtain ⟨entry, hentry, rfl⟩ := List.mem_map.mp hpayload
      exact .completedWithOutbox entry he.1 hentry hid hown
  | markItemFailed now held errorBody lastError retryable retryDelaySeconds =>
      exact follow_markItemFailed now held errorBody lastError retryable retryDelaySeconds he
  | releaseFailedMicrobatch now workerId chunk retryDelaySeconds errorBody lastError =>
      refine follow_of_update _ _ rfl rfl rfl ?_
      rintro item _ ⟨hpayload, hown, _⟩
      obtain ⟨held, hchunk, hid, hepoch⟩ := mem_chunkPayload hpayload
      obtain ⟨hheld, hworker, hattempts⟩ := he.2 held hchunk
      exact .releasedForRetry held hheld hchunk hworker hattempts hid.symm (hepoch ▸ hown)
  | requeueAfterPersistenceFailure now workerId chunk =>
      refine follow_of_update _ _ rfl rfl rfl ?_
      rintro item _ ⟨hpayload, hown, _⟩
      obtain ⟨held, hchunk, hid, hepoch⟩ := mem_chunkPayload hpayload
      obtain ⟨hheld, hworker⟩ := he.2 held hchunk
      exact .requeuedAfterPersistenceFailure held hheld hchunk hworker hid.symm (hepoch ▸ hown)
  | releaseClaimItems slice =>
      refine follow_of_update _ _ rfl rfl rfl ?_
      rintro item _ ⟨hid, hlocked, hrunning⟩
      obtain ⟨claim, hclaim, hsame⟩ := List.mem_map.mp hid
      exact .released claim he hclaim hsame.symm hlocked hrunning
  | markPendingItemsCancelled now batchId =>
      refine follow_of_update _ _ rfl rfl rfl ?_
      rintro item _ ⟨_, hpending⟩
      exact .cancelled hpending
  | requeueExpiredInProgressItems now batchId =>
      refine follow_of_update _ _ rfl rfl rfl ?_
      rintro item _ ⟨hbatch, hrunning, hexpired⟩
      exact .requeuedExpired hbatch hrunning hexpired
  | failNonterminalItems now batchId reason =>
      refine follow_of_update _ _ rfl rfl rfl ?_
      rintro item _ ⟨_, hlive⟩
      refine .failedByOperator ?_
      rcases hlive with h | h <;> simp [h, BatchItemStatus.terminal]
  | sweepExpiredItems now limit skip =>
      refine follow_of_update _ _ rfl rfl rfl ?_
      rintro item hitem hid
      obtain ⟨row, hrow, hsame⟩ := List.mem_map.mp hid
      obtain ⟨hmem, hsweep, _⟩ := mem_of_mem_selectFirst hrow
      have : row = item := List.inj_on_of_nodup_map hkeys hmem hitem hsame
      subst this
      exact .swept hrow hsweep
  | promoteSession job items => exact follow_of_unchanged rfl rfl
  | _ => exact follow_of_unchanged (List.append_nil _).symm rfl

end Inversion

section ClaimHistory

variable {s : BatchState} {e : Event}

/-- The claim events that one event adds to the history. -/
def newClaims (s : BatchState) (e : Event) : List ClaimEvent :=
  match claimWrite s e with
  | none => []
  | some w => claimEventsOf w.workerId
      ((updateClaimed w.now w.workerId w.leaseSeconds w.itemIds s.items).filter fun item =>
        item.itemId ∈ w.itemIds)

theorem mem_newClaims {claim : ClaimEvent} :
    claim ∈ newClaims s e ↔ ∃ w, claimWrite s e = some w ∧ ∃ item ∈ s.items,
      item.itemId ∈ w.itemIds ∧ claim = ⟨item.itemId, w.workerId, item.claimEpoch + 1⟩ := by
  unfold newClaims
  cases hw : claimWrite s e with
  | none => simp
  | some w =>
      simp only [claimEventsOf, updateClaimed, List.mem_map, List.mem_filter, mem_updateWhere,
        decide_eq_true_eq, Option.some.injEq, exists_eq_left']
      constructor
      · rintro ⟨row, ⟨⟨item, hitem, rfl⟩, hid⟩, rfl⟩
        by_cases hmem : item.itemId ∈ w.itemIds
        · exact ⟨item, hitem, hmem, by simp [hmem, claimRow]⟩
        · simp [hmem] at hid
      · rintro ⟨item, hitem, hmem, rfl⟩
        refine ⟨_, ⟨⟨item, hitem, rfl⟩, ?_⟩, ?_⟩ <;> simp [hmem, claimRow]

theorem claimEvents_next (s : BatchState) (e : Event) :
    (next s e).claimEvents = newClaims s e ++ s.claimEvents := by
  cases e with
  | claimItems now batchId workerId limit leaseSeconds skip => rfl
  | claimWork now request locks =>
      cases hclaim : (claimNextWork request now locks s.jobs s.items).claim with
      | none => simp [next, afterWorkClaim, newClaims, claimWrite, hclaim]
      | some claim =>
          obtain ⟨job, _, _, _, hworker, _, _, _, hitems⟩ := claimNextWork_some hclaim
          simp [next, afterWorkClaim, newClaims, claimWrite, hclaim, sliceOf, hitems, hworker]
  | _ => rfl

theorem mem_slices_next {slice : WorkSlice} (h : slice ∈ (next s e).slices) :
    slice ∈ s.slices ∨ (slice.claims = newClaims s e ∧
      ∀ claim ∈ slice.claims, claim.workerId = slice.workerId) := by
  cases e with
  | claimWork now request locks =>
      cases hclaim : (claimNextWork request now locks s.jobs s.items).claim with
      | none => exact Or.inl (by simpa [next, afterWorkClaim, hclaim] using h)
      | some claim =>
          obtain ⟨job, _, _, _, hworker, _, _, _, hitems⟩ := claimNextWork_some hclaim
          simp only [next, afterWorkClaim, hclaim, List.mem_cons] at h
          rcases h with rfl | h
          · refine Or.inr ⟨?_, ?_⟩
            · simp [newClaims, claimWrite, hclaim, sliceOf, hitems, hworker]
            · intro event hevent
              obtain ⟨row, _, rfl⟩ := List.mem_map.mp hevent
              rfl
          · exact Or.inl h
  | _ => exact Or.inl h

/-- Where a record that a worker holds comes from: it was there, a claim statement returned it
just now, or a slice was loaded just now. -/
theorem mem_held_next {held : HeldItem} (h : held ∈ (next s e).held) :
    held ∈ s.held ∨
      (∃ w, claimWrite s e = some w ∧ ∃ item ∈ s.items, item.itemId ∈ w.itemIds ∧
        held = ⟨item.itemId, w.workerId, item.claimEpoch + 1, item.claimEpoch + 1,
          item.attempts + 1⟩) ∨
      ∃ slice, e = .loadClaimItems slice ∧ ∃ claim ∈ slice.claims, ∃ item ∈ s.items,
        item.itemId = claim.itemId ∧
          held = ⟨claim.itemId, slice.workerId, claim.claimEpoch, item.claimEpoch,
            item.attempts⟩ := by
  cases e with
  | claimItems now batchId workerId limit leaseSeconds skip =>
      simp only [next, List.mem_append] at h
      rcases h with h | h
      · refine Or.inr (Or.inl ⟨_, rfl, ?_⟩)
        obtain ⟨row, hrow, rfl⟩ := List.mem_map.mp h
        simp only [BatchItemStatements.claimItems, updateClaimed, List.mem_filter,
          mem_updateWhere, decide_eq_true_eq] at hrow
        obtain ⟨⟨item, hitem, rfl⟩, hid⟩ := hrow
        by_cases hmem : item.itemId ∈
            (claimCandidates now batchId limit skip s.items).map BatchItemRow.itemId
        · exact ⟨item, hitem, hmem, by simp only [hmem, if_true]; rfl⟩
        · simp only [hmem, if_false] at hid
      · exact Or.inl h
  | claimWork now request locks =>
      cases hclaim : (claimNextWork request now locks s.jobs s.items).claim with
      | none => exact Or.inl (by simpa [next, afterWorkClaim, hclaim] using h)
      | some claim => exact Or.inl (by simpa [next, afterWorkClaim, hclaim] using h)
  | loadClaimItems slice =>
      simp only [next, List.mem_append] at h
      rcases h with h | h
      · refine Or.inr (Or.inr ⟨slice, rfl, ?_⟩)
        obtain ⟨claim, hclaim, hrow⟩ := List.mem_filterMap.mp h
        obtain ⟨item, hitem, rfl⟩ := Option.map_eq_some_iff.mp hrow
        obtain ⟨hmem, hid⟩ := rowWithKey_some hitem
        exact ⟨claim, hclaim, item, hmem, hid, rfl⟩
      · exact Or.inl h
  | _ => exact Or.inl h

end ClaimHistory

section ReachableRows

open TransitionRuns

variable {maxAttempts : ℕ} {s : BatchState} {e : Event}

theorem mem_items_next (hkeys : (s.items.map BatchItemRow.itemId).Nodup)
    (he : Enabled maxAttempts s e) {item' : BatchItemRow} (h : item' ∈ (next s e).items) :
    item' ∈ created e ∨ ∃ item ∈ s.items, ItemStep maxAttempts s e item item' := by
  obtain ⟨f, hitems, hstep⟩ := items_follow hkeys he
  rw [hitems, List.mem_append, List.mem_map] at h
  rcases h with ⟨item, hitem, rfl⟩ | h
  · exact Or.inr ⟨item, hitem, hstep item hitem⟩
  · exact Or.inl h

theorem exists_item_next (hkeys : (s.items.map BatchItemRow.itemId).Nodup)
    (he : Enabled maxAttempts s e) {item : BatchItemRow} (h : item ∈ s.items) :
    ∃ item' ∈ (next s e).items, ItemStep maxAttempts s e item item' := by
  obtain ⟨f, hitems, hstep⟩ := items_follow hkeys he
  refine ⟨f item, ?_, hstep item h⟩
  rw [hitems]
  exact List.mem_append_left _ (List.mem_map_of_mem h)

theorem created_fresh (he : Enabled maxAttempts s e) {item : BatchItemRow}
    (h : item ∈ created e) : ∀ other ∈ s.items, other.itemId ≠ item.itemId := by
  cases e with
  | promoteSession job items => exact (he : Promotable s job items).freshItems item h
  | _ => simp [created] at h

theorem created_pending (he : Enabled maxAttempts s e) {item : BatchItemRow}
    (h : item ∈ created e) : item.status = .pending ∧ item.attempts = 0 ∧
      item.claimEpoch = 0 ∧ item.lockedBy = none := by
  cases e with
  | promoteSession job items => exact (he : Promotable s job items).pendingItems item h
  | _ => simp [created] at h

theorem itemKeys_next (hkeys : (s.items.map BatchItemRow.itemId).Nodup)
    (he : Enabled maxAttempts s e) : ((next s e).items.map BatchItemRow.itemId).Nodup := by
  obtain ⟨f, hitems, hstep⟩ := items_follow hkeys he
  have hids : (s.items.map f).map BatchItemRow.itemId = s.items.map BatchItemRow.itemId := by
    rw [List.map_map]
    exact List.map_congr_left fun item hitem => (hstep item hitem).frame.1
  rw [hitems, List.map_append, hids, List.nodup_append]
  refine ⟨hkeys, ?_, ?_⟩
  · cases e with
    | promoteSession job items => exact (he : Promotable s job items).distinctItems
    | _ => exact List.nodup_nil
  · intro a ha b hb hab
    obtain ⟨old, hold, rfl⟩ := List.mem_map.mp ha
    obtain ⟨new, hnew, rfl⟩ := List.mem_map.mp hb
    exact created_fresh he hnew old hold hab

/-- Item ids stay a primary key along every run. -/
theorem reachable_itemKeys (hs : Reachable (batchSystem maxAttempts) s) :
    (s.items.map BatchItemRow.itemId).Nodup := by
  refine Reachable.invariant (P := fun s => (s.items.map BatchItemRow.itemId).Nodup) ?_ ?_ hs
  · rintro s rfl
    exact List.nodup_nil
  · intro s e hkeys he
    exact itemKeys_next hkeys he

/-- An item id names one row before and one row after an event, related by an item step. -/
theorem itemStep_of_same_id (hkeys : (s.items.map BatchItemRow.itemId).Nodup)
    (he : Enabled maxAttempts s e) {item item' : BatchItemRow} (hitem : item ∈ s.items)
    (hitem' : item' ∈ (next s e).items) (hid : item'.itemId = item.itemId) :
    ItemStep maxAttempts s e item item' := by
  rcases mem_items_next hkeys he hitem' with hnew | ⟨old, hold, hstep⟩
  · exact absurd hid.symm (created_fresh he hnew item hitem)
  · have hsame : old.itemId = item.itemId := hstep.frame.1.symm.trans hid
    rw [List.inj_on_of_nodup_map hkeys hold hitem hsame] at hstep
    exact hstep

end ReachableRows

end BatchItemSteps
