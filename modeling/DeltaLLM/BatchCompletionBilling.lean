import DeltaLLM.BatchItemSteps

/-! # Completion and billing records

Along every run that completes items through the outbox, a completed item has exactly one outbox
row, a bulk completion is all or nothing, and a completion id is billed at most once. A row can
be sent without a spend event, namely when its payload names no API key.
-/
namespace BatchCompletionBilling

open BatchRecords
open BatchItemStatements
open BatchCompletionOutbox
open BatchWorkClaim (claimNextWork)
open BatchSystem
open BatchItemSteps
open PythonText (stripOrEmpty)
open TableStatements
open TransitionRuns

/-- Items are completed together with their outbox rows. -/
def ThroughOutbox (_ : BatchState) : Event → Prop
  | .markItemCompleted .. | .markItemsCompletedBulk .. => False
  | _ => True

variable {maxAttempts : ℕ} {s : BatchState} {e : Event}

structure OutboxInvariant (s : BatchState) : Prop where
  itemKeys : (s.items.map BatchItemRow.itemId).Nodup
  rowItems : (s.outbox.map BatchCompletionOutboxRow.itemId).Nodup
  rowIds : (s.outbox.map BatchCompletionOutboxRow.completionId).Nodup
  rowCompleted : ∀ row ∈ s.outbox, ∃ item ∈ s.items, item.itemId = row.itemId ∧
    item.status = .completed
  completedRow : ∀ item ∈ s.items, item.status = .completed →
    ∃ row ∈ s.outbox, row.itemId = item.itemId

section BulkCompletion

variable {now : Timestamp} {workerId : String} {entries : List OutboxCompletion}
  {skip : String → Bool}

/-- Every entry completes an item of its own claim and enqueues its row, or nothing is written. -/
def AllOrNothing (now : Timestamp) (workerId : String) (entries : List OutboxCompletion)
    (skip : String → Bool) (s : BatchState) : Prop :=
  let completion := completeItemsWithOutboxBulk now entries workerId skip s.items s.outbox
  (completion.result = .completed ∧
    completion.outbox = s.outbox ++ entries.map (queuedRow now) ∧
    ∀ entry ∈ entries, ∃ item ∈ s.items, item.itemId = entry.completed.itemId ∧
      OwnedBy workerId entry.completed.claimEpoch item ∧
      completeRow now entry.completed item ∈ completion.items) ∨
  (completion.result ≠ .completed ∧ completion.items = s.items ∧
    completion.outbox = s.outbox)

/-- The entry that matches a row under distinct item ids. -/
private theorem bulkMatch_of_entry {payload : List CompletedItem}
    (hdistinct : (payload.map CompletedItem.itemId).Nodup) {completed : CompletedItem}
    (hmem : completed ∈ payload) {item : BatchItemRow} (hid : completed.itemId = item.itemId)
    (hown : OwnedBy workerId completed.claimEpoch item) (hskip : skip item.itemId = false) :
    bulkMatch workerId skip payload item = some completed := by
  cases hmatch : bulkMatch workerId skip payload item with
  | none =>
      rw [bulkMatch, List.find?_eq_none] at hmatch
      have hnone := hmatch completed hmem
      simp [hid, hown, hskip] at hnone
  | some other =>
      obtain ⟨hother, hotherId, _⟩ := bulkMatch_some hmatch
      rw [List.inj_on_of_nodup_map hdistinct hother hmem (hotherId.trans hid.symm)]

/-- An item that a claim still owns has no outbox row. -/
private theorem owned_without_row (hinv : OutboxInvariant s) {epoch : ℕ} {item : BatchItemRow}
    (hitem : item ∈ s.items) (hown : OwnedBy workerId epoch item) :
    ∀ row ∈ s.outbox, row.itemId ≠ item.itemId := by
  intro row hrow hid
  obtain ⟨done, hdone, hdoneId, hstatus⟩ := hinv.rowCompleted row hrow
  obtain rfl : done = item :=
    List.inj_on_of_nodup_map hinv.itemKeys hdone hitem (hdoneId.trans hid)
  rw [hown.1] at hstatus
  cases hstatus

theorem bulk_all_or_nothing (hinv : OutboxInvariant s)
    (hdistinct : (entries.map fun entry => entry.completed.itemId).Nodup) :
    AllOrNothing now workerId entries skip s := by
  have hpayload : ((entries.map OutboxCompletion.completed).map CompletedItem.itemId).Nodup := by
    rw [List.map_map]
    exact hdistinct
  unfold AllOrNothing completeItemsWithOutboxBulk
  by_cases hempty : entries = []
  · subst hempty
    exact Or.inl ⟨rfl, by simp, by simp⟩
  have hne : entries.map OutboxCompletion.completed ≠ [] := by simpa using hempty
  by_cases heligible : eligibleCount workerId skip (entries.map OutboxCompletion.completed)
      s.items = (entries.map OutboxCompletion.completed).length
  · have hall := eligibleCount_eq_length.mp heligible
    have hflag := countP_bulkMatch hinv.itemKeys hpayload hall
    have hfresh : ∀ entry ∈ entries, ∀ row ∈ s.outbox, row.itemId ≠ entry.completed.itemId := by
      intro entry hentry row hrow
      obtain ⟨item, hitem, hid, hown, _⟩ := hall _ (List.mem_map_of_mem hentry)
      rw [hid]
      exact owned_without_row hinv hitem hown row hrow
    have hrows := enqueueMany_fresh now hdistinct hfresh
    have hcount : (enqueueMany now entries s.outbox).length = s.outbox.length + entries.length := by
      rw [hrows, List.length_append, List.length_map]
    refine Or.inl ?_
    simp only [hempty, if_false, markItemsCompletedBulk, hne, heligible, if_true, hflag,
      decide_true, hcount]
    refine ⟨trivial, hrows, ?_⟩
    intro entry hentry
    obtain ⟨item, hitem, hid, hown, hskip⟩ := hall _ (List.mem_map_of_mem hentry)
    refine ⟨item, hitem, hid.symm, hown, List.mem_map.mpr ⟨item, hitem, ?_⟩⟩
    rw [completeMatched, bulkMatch_of_entry hpayload (List.mem_map_of_mem hentry) hid hown hskip]
  · refine Or.inr ?_
    simp only [hempty, if_false, markItemsCompletedBulk, hne, heligible, Bool.false_eq_true]
    split_ifs <;> simp

end BulkCompletion

section OutboxSteps

/-- Rows that the event inserts into the outbox. -/
def enqueued (s : BatchState) : Event → List BatchCompletionOutboxRow
  | .completeItemsWithOutboxBulk now workerId entries skip =>
      if (completeItemsWithOutboxBulk now entries workerId skip s.items s.outbox).result =
        .completed then entries.map (queuedRow now) else []
  | _ => []

/-- Delivery statements keep the identity and the payload of a record. -/
def SameRecord (row row' : BatchCompletionOutboxRow) : Prop :=
  row'.completionId = row.completionId ∧ row'.itemId = row.itemId ∧
    row'.payloadJson = row.payloadJson

/-- One outbox row before and after one event; it becomes sent only by its own delivery. -/
def OutboxStep (s : BatchState) (e : Event) (row row' : BatchCompletionOutboxRow) : Prop :=
  SameRecord row row' ∧ (row'.status = .sent → row.status = .sent ∨
    ∃ now hold, e = .deliverCompletion now hold ∧ hold ∈ s.outboxHolds ∧
      row.completionId = hold.record.completionId)

def OutboxFollows (s : BatchState) (e : Event) : Prop :=
  ∃ f : BatchCompletionOutboxRow → BatchCompletionOutboxRow,
    (next s e).outbox = s.outbox.map f ++ enqueued s e ∧
      ∀ row ∈ s.outbox, OutboxStep s e row (f row)

private theorem outboxStep_refl (row : BatchCompletionOutboxRow) : OutboxStep s e row row :=
  ⟨⟨rfl, rfl, rfl⟩, Or.inl⟩

private theorem outbox_follow_same (h : (next s e).outbox = s.outbox ++ enqueued s e) :
    OutboxFollows s e :=
  ⟨id, by simpa using h, fun row _ => outboxStep_refl row⟩

private theorem outbox_follow_update (p : BatchCompletionOutboxRow → Prop) [DecidablePred p]
    (f : BatchCompletionOutboxRow → BatchCompletionOutboxRow)
    (h : (next s e).outbox = updateWhere p f s.outbox) (hnone : enqueued s e = [])
    (hstep : ∀ row ∈ s.outbox, p row → OutboxStep s e row (f row)) : OutboxFollows s e := by
  refine ⟨fun row => if p row then f row else row, ?_, fun row hrow => ?_⟩
  · rw [h, hnone, List.append_nil]
    rfl
  · by_cases hp : p row
    · simpa [hp] using hstep row hrow hp
    · simpa [hp] using outboxStep_refl row

private theorem outbox_follow_failDelivery (hold : OutboxHold) (error : String)
    (nextAttemptAt : Timestamp) : OutboxFollows s (.failDelivery hold error nextAttemptAt) := by
  by_cases hexhausted : hold.record.maxAttempts ≤ hold.record.attemptCount
  · refine outbox_follow_update (ProcessedBy hold.record.completionId hold.workerId)
      (undeliveredRow error) ?_ rfl ?_
    · simp only [next, recordDeliveryFailure, hexhausted, if_true]
      rfl
    · intro row _ _
      exact ⟨⟨rfl, rfl, rfl⟩, by rintro ⟨⟩⟩
  · refine outbox_follow_update (ProcessedBy hold.record.completionId hold.workerId)
      (retryingRow error nextAttemptAt) ?_ rfl ?_
    · simp only [next, recordDeliveryFailure, hexhausted, if_false]
      rfl
    · intro row _ _
      exact ⟨⟨rfl, rfl, rfl⟩, by rintro ⟨⟩⟩

theorem outbox_follow (hinv : OutboxInvariant s) (he : Enabled maxAttempts s e) :
    OutboxFollows s e := by
  cases e with
  | claimWork now request locks =>
      refine outbox_follow_same ?_
      cases hclaim : (claimNextWork request now locks s.jobs s.items).claim with
      | none => simp [next, afterWorkClaim, hclaim, enqueued]
      | some claim => simp [next, afterWorkClaim, hclaim, enqueued]
  | completeItemsWithOutboxBulk now workerId entries skip =>
      refine outbox_follow_same ?_
      have hatomic : AllOrNothing now workerId entries skip s := bulk_all_or_nothing hinv he.2.1
      rcases hatomic with ⟨hresult, hrows, _⟩ | ⟨hresult, _, hrows⟩
      · simp only [next, enqueued, hresult, if_true]
        exact hrows
      · simp only [next, enqueued, hresult, if_false, List.append_nil]
        exact hrows
  | claimOutboxDue now workerId leaseSeconds limit skip =>
      refine outbox_follow_update _ _ rfl rfl fun row _ _ => ?_
      exact ⟨⟨rfl, rfl, rfl⟩, by rintro ⟨⟩⟩
  | deliverCompletion now hold =>
      refine outbox_follow_update _ _ rfl rfl fun row _ hp => ?_
      exact ⟨⟨rfl, rfl, rfl⟩, fun _ => Or.inr ⟨now, hold, rfl, he, hp.1⟩⟩
  | failDelivery hold error nextAttemptAt =>
      exact outbox_follow_failDelivery hold error nextAttemptAt
  | renewOutboxLease now hold leaseSeconds =>
      refine outbox_follow_update _ _ rfl rfl fun row _ _ => ?_
      exact ⟨⟨rfl, rfl, rfl⟩, Or.inl⟩
  | _ => exact outbox_follow_same (List.append_nil _).symm

theorem mem_outbox_next (hinv : OutboxInvariant s) (he : Enabled maxAttempts s e)
    {row' : BatchCompletionOutboxRow} (h : row' ∈ (next s e).outbox) :
    row' ∈ enqueued s e ∨ ∃ row ∈ s.outbox, OutboxStep s e row row' := by
  obtain ⟨f, hrows, hstep⟩ := outbox_follow hinv he
  rw [hrows, List.mem_append, List.mem_map] at h
  rcases h with ⟨row, hrow, rfl⟩ | h
  · exact Or.inr ⟨row, hrow, hstep row hrow⟩
  · exact Or.inl h

theorem exists_row_next (hinv : OutboxInvariant s) (he : Enabled maxAttempts s e)
    {row : BatchCompletionOutboxRow} (h : row ∈ s.outbox) :
    ∃ row' ∈ (next s e).outbox, SameRecord row row' := by
  obtain ⟨f, hrows, hstep⟩ := outbox_follow hinv he
  refine ⟨f row, ?_, (hstep row h).1⟩
  rw [hrows]
  exact List.mem_append_left _ (List.mem_map_of_mem h)

/-- An inserted row comes from an entry of a bulk completion that went through. -/
theorem mem_enqueued (hinv : OutboxInvariant s) (he : Enabled maxAttempts s e)
    {row : BatchCompletionOutboxRow} (h : row ∈ enqueued s e) :
    row.status = .queued ∧ (∀ old ∈ s.outbox, old.completionId ≠ row.completionId ∧
      old.itemId ≠ row.itemId) ∧
    ∃ item ∈ (next s e).items, item.itemId = row.itemId ∧ item.status = .completed := by
  cases e with
  | completeItemsWithOutboxBulk now workerId entries skip =>
      have hatomic : AllOrNothing now workerId entries skip s := bulk_all_or_nothing hinv he.2.1
      rcases hatomic with ⟨hresult, _, hitems⟩ | ⟨hresult, _, _⟩
      · simp only [enqueued, hresult, if_true] at h
        obtain ⟨entry, hentry, rfl⟩ := List.mem_map.mp h
        obtain ⟨item, hitem, hid, hown, hcompleted⟩ := hitems entry hentry
        refine ⟨rfl, fun old hold => ⟨he.2.2.2 entry hentry old hold, ?_⟩, ?_⟩
        · have hother := owned_without_row hinv hitem hown old hold
          rw [hid] at hother
          exact hother
        · exact ⟨_, hcompleted, hid, rfl⟩
      · simp [enqueued, hresult] at h
  | _ => simp [enqueued] at h

end OutboxSteps

section Invariants

private theorem enqueued_nodup (he : Enabled maxAttempts s e) :
    ((enqueued s e).map BatchCompletionOutboxRow.itemId).Nodup ∧
      ((enqueued s e).map BatchCompletionOutboxRow.completionId).Nodup := by
  cases e with
  | completeItemsWithOutboxBulk now workerId entries skip =>
      simp only [enqueued]
      split
      · simp only [List.map_map]
        exact ⟨he.2.1, he.2.2.1⟩
      · exact ⟨List.nodup_nil, List.nodup_nil⟩
  | _ => exact ⟨List.nodup_nil, List.nodup_nil⟩

/-- A key that every record keeps stays distinct when inserted rows bring new values of it. -/
private theorem keys_next {key : BatchCompletionOutboxRow → String}
    (hkey : ∀ row row', SameRecord row row' → key row' = key row) (hinv : OutboxInvariant s)
    (he : Enabled maxAttempts s e) (hold : (s.outbox.map key).Nodup)
    (hnew : ((enqueued s e).map key).Nodup)
    (hfresh : ∀ row ∈ enqueued s e, ∀ old ∈ s.outbox, key old ≠ key row) :
    ((next s e).outbox.map key).Nodup := by
  obtain ⟨f, hrows, hstep⟩ := outbox_follow hinv he
  have hsame : (s.outbox.map f).map key = s.outbox.map key := by
    rw [List.map_map]
    exact List.map_congr_left fun row hrow => hkey row (f row) (hstep row hrow).1
  rw [hrows, List.map_append, hsame, List.nodup_append]
  refine ⟨hold, hnew, ?_⟩
  intro a ha b hb hab
  obtain ⟨old, hmem, rfl⟩ := List.mem_map.mp ha
  obtain ⟨row, hrow, rfl⟩ := List.mem_map.mp hb
  exact hfresh row hrow old hmem hab

private theorem rowCompleted_next (hinv : OutboxInvariant s) (he : Enabled maxAttempts s e) :
    ∀ row' ∈ (next s e).outbox, ∃ item ∈ (next s e).items, item.itemId = row'.itemId ∧
      item.status = .completed := by
  intro row' hrow'
  rcases mem_outbox_next hinv he hrow' with hnew | ⟨row, hrow, hstep⟩
  · exact (mem_enqueued hinv he hnew).2.2
  · obtain ⟨item, hitem, hid, hstatus⟩ := hinv.rowCompleted row hrow
    obtain ⟨item', hitem', hitemStep⟩ := exists_item_next hinv.itemKeys he hitem
    have hsame : item' = item := hitemStep.frame.2.2.2.2 (by rw [hstatus]; rfl)
    subst hsame
    exact ⟨item', hitem', hid.trans hstep.1.2.1.symm, hstatus⟩

/-- A bulk completion that completed a row enqueued the row's entry. -/
private theorem row_of_completed {now : Timestamp} {workerId : String}
    {entries : List OutboxCompletion} {skip : String → Bool} (hinv : OutboxInvariant s)
    (he : Enabled maxAttempts s (.completeItemsWithOutboxBulk now workerId entries skip))
    {item : BatchItemRow} (hitem : item ∈ s.items) {entry : OutboxCompletion}
    (hentry : entry ∈ entries) (hid : entry.completed.itemId = item.itemId)
    (hown : OwnedBy workerId entry.completed.claimEpoch item)
    (hitem' : completeRow now entry.completed item ∈
      (next s (.completeItemsWithOutboxBulk now workerId entries skip)).items) :
    ∃ row ∈ (next s (.completeItemsWithOutboxBulk now workerId entries skip)).outbox,
      row.itemId = item.itemId := by
  have hatomic : AllOrNothing now workerId entries skip s := bulk_all_or_nothing hinv he.2.1
  rcases hatomic with ⟨_, hrows, _⟩ | ⟨_, hitems, _⟩
  · refine ⟨queuedRow now entry, ?_, hid⟩
    simp only [next]
    rw [hrows]
    exact List.mem_append_right _ (List.mem_map_of_mem hentry)
  · simp only [next] at hitem'
    rw [hitems] at hitem'
    -- Nothing was written, so the completed row would be the row in progress.
    have hsame : completeRow now entry.completed item = item :=
      List.inj_on_of_nodup_map hinv.itemKeys hitem' hitem rfl
    have hstatus := hown.1
    rw [← hsame] at hstatus
    cases hstatus

private theorem completedRow_next (hinv : OutboxInvariant s) (he : Enabled maxAttempts s e)
    (ha : ThroughOutbox s e) :
    ∀ item' ∈ (next s e).items, item'.status = .completed →
      ∃ row ∈ (next s e).outbox, row.itemId = item'.itemId := by
  intro item' hitem' hstatus
  rcases mem_items_next hinv.itemKeys he hitem' with hnew | ⟨item, hitem, hstep⟩
  · rw [(created_pending he hnew).1] at hstatus
    cases hstatus
  cases hstep with
  | unchanged =>
      obtain ⟨row, hrow, hid⟩ := hinv.completedRow item' hitem hstatus
      obtain ⟨row', hrow', hsame⟩ := exists_row_next hinv he hrow
      exact ⟨row', hrow', hsame.2.1.trans hid⟩
  | completedWithOutbox entry _ hentry hid hown =>
      obtain ⟨row, hrow, hrowId⟩ := row_of_completed hinv he hitem hentry hid hown hitem'
      exact ⟨row, hrow, hrowId⟩
  | completed | completedBulk => cases ha
  | renewed _ _ hown =>
      rw [show (renewRow _ _ item).status = item.status from rfl, hown.1] at hstatus
      cases hstatus
  | claimed | failedForRetry | failed | releasedForRetry | requeuedAfterPersistenceFailure
  | released | cancelled | requeuedExpired | failedByOperator | swept => cases hstatus

theorem reachable_outbox (hs : ReachableBy (batchSystem maxAttempts) ThroughOutbox s) :
    OutboxInvariant s := by
  refine ReachableBy.invariant (P := OutboxInvariant) ?_ ?_ hs
  · rintro s rfl
    constructor <;> simp [initialState]
  · intro s e hinv he ha
    have hfresh : ∀ row ∈ enqueued s e, ∀ old ∈ s.outbox,
        old.completionId ≠ row.completionId ∧ old.itemId ≠ row.itemId :=
      fun row hrow => (mem_enqueued hinv he hrow).2.1
    exact
      { itemKeys := itemKeys_next hinv.itemKeys he
        rowItems := keys_next (fun _ _ h => h.2.1) hinv he hinv.rowItems (enqueued_nodup he).1
          fun row hrow old hold => (hfresh row hrow old hold).2
        rowIds := keys_next (fun _ _ h => h.1) hinv he hinv.rowIds (enqueued_nodup he).2
          fun row hrow old hold => (hfresh row hrow old hold).1
        rowCompleted := rowCompleted_next hinv he
        completedRow := completedRow_next hinv he ha }

end Invariants

section Delivery

/-- The record under delivery still names the row's payload. -/
def HoldsTellPayload (s : BatchState) : Prop :=
  ∀ hold ∈ s.outboxHolds, ∃ row ∈ s.outbox, row.completionId = hold.record.completionId ∧
    row.payloadJson = hold.record.payloadJson

/-- The spend event of the row is logged. -/
def SpendLogged (s : BatchState) (row : BatchCompletionOutboxRow) : Prop :=
  ∃ event ∈ s.spending.events, event.id = row.completionId

/-- The spend event of the row is logged, or its payload names no API key to bill. -/
def SpendSettled (s : BatchState) (row : BatchCompletionOutboxRow) : Prop :=
  SpendLogged s row ∨ stripOrEmpty row.payloadJson.apiKey = ""

structure BillingInvariant (s : BatchState) : Prop where
  holds : HoldsTellPayload s
  sent : ∀ row ∈ s.outbox, row.status = .sent → SpendSettled s row
  ledger : LedgerInvariant s.spending

private theorem mem_outboxHolds_next {hold : OutboxHold} (h : hold ∈ (next s e).outboxHolds) :
    hold ∈ s.outboxHolds ∨ ∃ row ∈ s.outbox, hold.record.completionId = row.completionId ∧
      hold.record.payloadJson = row.payloadJson := by
  cases e with
  | claimOutboxDue now workerId leaseSeconds limit skip =>
      simp only [next, List.mem_append, List.mem_map] at h
      rcases h with ⟨record, hrecord, rfl⟩ | h
      · obtain ⟨row, hrow, rfl⟩ := (mem_updateWhere _ _).mp (List.mem_filter.mp hrecord).1
        refine Or.inr ⟨row, hrow, ?_⟩
        split
        · exact ⟨rfl, rfl⟩
        · exact ⟨rfl, rfl⟩
      · exact Or.inl h
  | claimWork now request locks =>
      refine Or.inl ?_
      cases hclaim : (claimNextWork request now locks s.jobs s.items).claim with
      | none => simpa [next, afterWorkClaim, hclaim] using h
      | some claim => simpa [next, afterWorkClaim, hclaim] using h
  | _ => exact Or.inl h

private theorem holds_next (hrows : OutboxInvariant s) (hinv : BillingInvariant s)
    (he : Enabled maxAttempts s e) : HoldsTellPayload (next s e) := by
  intro hold hhold
  have hbefore : ∃ row ∈ s.outbox, row.completionId = hold.record.completionId ∧
      row.payloadJson = hold.record.payloadJson := by
    rcases mem_outboxHolds_next hhold with hold' | ⟨row, hrow, hid, hpayload⟩
    · exact hinv.holds hold hold'
    · exact ⟨row, hrow, hid.symm, hpayload.symm⟩
  obtain ⟨row, hrow, hid, hpayload⟩ := hbefore
  obtain ⟨row', hrow', hsame⟩ := exists_row_next hrows he hrow
  exact ⟨row', hrow', hsame.1.trans hid, hsame.2.2.trans hpayload⟩

/-- Only a delivery touches the spend log. -/
private theorem spending_next : (next s e).spending = s.spending ∨
    ∃ now hold, e = .deliverCompletion now hold ∧ (next s e).spending =
      (recordDurableSuccess now hold.record hold.workerId s.outbox s.spending).spending := by
  cases e with
  | deliverCompletion now hold => exact Or.inr ⟨now, hold, rfl, rfl⟩
  | claimWork now request locks =>
      refine Or.inl ?_
      cases hclaim : (claimNextWork request now locks s.jobs s.items).claim with
      | none => simp [next, afterWorkClaim, hclaim]
      | some claim => simp [next, afterWorkClaim, hclaim]
  | _ => exact Or.inl rfl

private theorem spendLogged_next {row row' : BatchCompletionOutboxRow}
    (hid : row'.completionId = row.completionId) (h : SpendLogged s row) :
    SpendLogged (next s e) row' := by
  obtain ⟨event, hevent, heventId⟩ := h
  refine ⟨event, ?_, heventId.trans hid.symm⟩
  rcases spending_next (s := s) (e := e) with hsame | ⟨now, hold, rfl, hdelivered⟩
  · rw [hsame]
    exact hevent
  · rw [hdelivered]
    simp only [recordDurableSuccess]
    split
    · exact hevent
    · exact logSpendOnce_keeps hevent

/-- Delivery logs the spend event, unless the record names no API key. -/
private theorem delivered_settled {now : Timestamp} {hold : OutboxHold}
    {row : BatchCompletionOutboxRow} (hid : row.completionId = hold.record.completionId)
    (hpayload : row.payloadJson = hold.record.payloadJson) :
    SpendSettled (next s (.deliverCompletion now hold)) row := by
  by_cases hkey : stripOrEmpty hold.record.payloadJson.apiKey = ""
  · exact Or.inr (by rw [hpayload, hkey])
  · refine Or.inl ?_
    obtain ⟨event, hevent, heventId⟩ := logSpendOnce_mem (spendEvent hold.record) s.spending
    refine ⟨event, ?_, heventId.trans hid.symm⟩
    simpa [next, recordDurableSuccess, hkey] using hevent

private theorem sent_next (hrows : OutboxInvariant s) (hinv : BillingInvariant s)
    (he : Enabled maxAttempts s e) :
    ∀ row' ∈ (next s e).outbox, row'.status = .sent → SpendSettled (next s e) row' := by
  intro row' hrow' hsent
  rcases mem_outbox_next hrows he hrow' with hnew | ⟨row, hrow, ⟨hid, _, hpayload⟩, hstep⟩
  · rw [(mem_enqueued hrows he hnew).1] at hsent
    cases hsent
  rcases hstep hsent with hbefore | ⟨now, hold, rfl, hhold, hrecord⟩
  · rcases hinv.sent row hrow hbefore with hlogged | hblank
    · exact Or.inl (spendLogged_next hid hlogged)
    · exact Or.inr (by rw [hpayload, hblank])
  · obtain ⟨other, hother, hotherId, hotherPayload⟩ := hinv.holds hold hhold
    obtain rfl : other = row := List.inj_on_of_nodup_map hrows.rowIds hother hrow
      (hotherId.trans hrecord.symm)
    exact delivered_settled (hid.trans hotherId) (hpayload.trans hotherPayload)

private theorem ledger_next (hinv : LedgerInvariant s.spending) :
    LedgerInvariant (next s e).spending := by
  rcases spending_next (s := s) (e := e) with hsame | ⟨now, hold, _, hdelivered⟩
  · rw [hsame]
    exact hinv
  · rw [hdelivered]
    simp only [recordDurableSuccess]
    split
    · exact hinv
    · exact logSpendOnce_ledger _ hinv

theorem reachable_billing (hs : ReachableBy (batchSystem maxAttempts) ThroughOutbox s) :
    BillingInvariant s := by
  refine ReachableBy.invariant_under (P := BillingInvariant) (fun _ hr => reachable_outbox hr)
    ?_ ?_ hs
  · rintro s rfl
    refine ⟨?_, ?_, ⟨List.nodup_nil, List.nodup_nil, ?_⟩⟩ <;>
      simp [HoldsTellPayload, initialState]
  · intro s e hrows hinv he _
    exact
      { holds := holds_next hrows hinv he
        sent := sent_next hrows hinv he
        ledger := ledger_next hinv.ledger }

end Delivery

/-- The completion and billing record of a state; `settled` says what sending a row takes. -/
structure RecordedOnce (settled : BatchState → BatchCompletionOutboxRow → Prop)
    (s : BatchState) : Prop where
  oneRow : ∀ item ∈ s.items, item.status = .completed ↔
    (s.outbox.filter fun row => row.itemId = item.itemId).length = 1
  atomic : ∀ now workerId entries skip,
    (entries.map fun entry : OutboxCompletion => entry.completed.itemId).Nodup →
      AllOrNothing now workerId entries skip s
  sent : ∀ row ∈ s.outbox, row.status = .sent → settled s row
  eventOnce : (s.spending.events.map SpendEvent.id).Nodup
  billedOnce : (s.spending.ledger.map LedgerIncrement.eventId).Nodup

/-- Under distinct item ids in the outbox, an item has one row as soon as it has any. -/
private theorem one_row_iff (hrows : (s.outbox.map BatchCompletionOutboxRow.itemId).Nodup)
    (itemId : String) :
    (s.outbox.filter fun row => row.itemId = itemId).length = 1 ↔
      ∃ row ∈ s.outbox, row.itemId = itemId := by
  constructor
  · intro hone
    obtain ⟨row, hrow⟩ := List.length_eq_one_iff.mp hone
    have hmem : row ∈ s.outbox.filter fun row => row.itemId = itemId := by
      rw [hrow]
      exact List.mem_cons_self
    simp only [List.mem_filter, decide_eq_true_eq] at hmem
    exact ⟨row, hmem⟩
  · rintro ⟨row, hrow, hid⟩
    have hcount := List.count_eq_one_of_mem hrows (List.mem_map_of_mem hrow)
    rw [List.count_eq_length_filter, List.filter_map, List.length_map] at hcount
    rw [← hcount, hid]
    rfl

/-- Along every run through the outbox each completed item is recorded once and billed at most
once, and a row is sent only when its spend is logged or there is no API key to bill. -/
theorem completions_recorded_once (hs : ReachableBy (batchSystem maxAttempts) ThroughOutbox s) :
    RecordedOnce SpendSettled s := by
  have hrows := reachable_outbox hs
  have hbilling := reachable_billing hs
  refine ⟨?_, ?_, hbilling.sent, hbilling.ledger.eventIds, hbilling.ledger.ledgerIds⟩
  · intro item hitem
    rw [one_row_iff hrows.rowItems]
    constructor
    · exact hrows.completedRow item hitem
    · rintro ⟨row, hrow, hid⟩
      obtain ⟨done, hdone, hdoneId, hstatus⟩ := hrows.rowCompleted row hrow
      rwa [List.inj_on_of_nodup_map hrows.itemKeys hdone hitem (hdoneId.trans hid)] at hstatus
  · intro now workerId entries skip hdistinct
    exact bulk_all_or_nothing hrows hdistinct

namespace DeliveryRun

/-- One completed item; its job was created with or without an API key. -/
def entry (withKey : Bool) : OutboxCompletion where
  completed :=
    { itemId := "item-1", responseBody := [], usage := [], providerCost := 1, billedCost := 2,
      claimEpoch := 1 }
  outboxPayload :=
    { requestId := "batch:batch-1:item-1", batchId := "batch-1", itemId := "item-1",
      apiKey := if withKey then some "key-1" else none, userId := none, teamId := none,
      organizationId := none, model := "m", callType := "embedding_batch", usage := [],
      billedCost := 2, providerCost := 1 }
  outboxMaxAttempts := 5
  completionId := "completion-1"

def promotion : Event :=
  .promoteSession (createdJob "batch-1" "/v1/embeddings" 0)
    [createdItem "item-1" "batch-1" 1 "row-1" [] 1]

def claim : Event := .claimItems 0 "batch-1" "worker-a" 1 30 fun _ => false

def claimed : BatchState := next (next initialState promotion) claim

def completion (withKey : Bool) : Event :=
  .completeItemsWithOutboxBulk 1 "worker-a" [entry withKey] fun _ => false

def completed (withKey : Bool) : BatchState := next claimed (completion withKey)

def outboxClaim : Event := .claimOutboxDue 2 "outbox-a" 30 10 fun _ => false

def processing (withKey : Bool) : BatchState := next (completed withKey) outboxClaim

theorem processing_holds (withKey : Bool) : (processing withKey).outboxHolds ≠ [] := by
  have hsome : (processing withKey).outboxHolds.length = 1 := by
    cases withKey <;> decide +kernel
  exact List.ne_nil_of_length_pos (by omega)

def hold (withKey : Bool) : OutboxHold :=
  (processing withKey).outboxHolds.head (processing_holds withKey)

def delivered (withKey : Bool) : BatchState :=
  next (processing withKey) (.deliverCompletion 3 (hold withKey))

theorem delivered_reachable (withKey : Bool) :
    ReachableBy (batchSystem 3) ThroughOutbox (delivered withKey) := by
  have hpromoted : ReachableBy (batchSystem 3) ThroughOutbox (next initialState promotion) :=
    .step (e := promotion) (.initial rfl) (promotable_created _ _ _ _ _ _ _ _) trivial
  have hclaimed : ReachableBy (batchSystem 3) ThroughOutbox claimed :=
    .step (e := claim) hpromoted trivial trivial
  have hcompleted : ReachableBy (batchSystem 3) ThroughOutbox (completed withKey) := by
    refine .step (e := completion withKey) hclaimed ⟨?_, by simp, by simp, ?_⟩ trivial
    · intro payload hpayload
      rw [List.map_singleton, List.mem_singleton] at hpayload
      subst hpayload
      cases withKey <;> decide +kernel
    · intro _ _ row hrow
      have hnone : claimed.outbox = [] := rfl
      rw [hnone] at hrow
      cases hrow
  have hprocessing : ReachableBy (batchSystem 3) ThroughOutbox (processing withKey) :=
    .step (e := outboxClaim) hcompleted trivial trivial
  exact .step (e := Event.deliverCompletion 3 (hold withKey)) hprocessing (List.head_mem _) trivial

end DeliveryRun

open DeliveryRun in
/-- A completion without an API key is marked sent and has no spend event. -/
theorem sent_without_spend_event :
    ¬∀ maxAttempts s, ReachableBy (batchSystem maxAttempts) ThroughOutbox s →
      RecordedOnce SpendLogged s := by
  intro hall
  have hrecorded := hall 3 (delivered false) (delivered_reachable false)
  have hsent : ∃ row ∈ (delivered false).outbox, row.status = .sent ∧
      ¬∃ event ∈ (delivered false).spending.events, event.id = row.completionId := by
    decide +kernel
  obtain ⟨row, hrow, hstatus, hnone⟩ := hsent
  exact hnone (hrecorded.sent row hrow hstatus)

open DeliveryRun in
theorem completions_recorded_once_delivered : RecordedOnce SpendSettled (delivered true) :=
  completions_recorded_once (delivered_reachable true)

end BatchCompletionBilling
