import DeltaLLM.BatchItemSteps

/-! # Item ownership

An operation on behalf of a claim must change an item only while that claim is current. Every
statement carries the whole fence except `release_claim_items`, which has no epoch, and the
worker reads the epoch of a slice's item only after the claim. Both are harmless as long as the
worker has not claimed the item again in between.
-/
namespace BatchItemOwnership

open BatchRecords
open BatchItemStatements
open BatchWorkClaim (WorkClaimRequest RowLocks)
open BatchCompletionOutbox
open BatchSystem
open BatchItemSteps
open TransitionRuns

/-- The claim that a held record stands for. -/
def claimOf (held : HeldItem) : ClaimEvent := ⟨held.itemId, held.workerId, held.claimedEpoch⟩

/-- A bulk entry is issued with the record that carries its item id and epoch. -/
def RecordFor (workerId : String) (entry : CompletedItem) (held : HeldItem) : Prop :=
  held.workerId = workerId ∧ held.itemId = entry.itemId ∧ held.claimEpoch = entry.claimEpoch

/-- The event issues an operation on behalf of this claim. -/
inductive ActsFor (s : BatchState) : Event → ClaimEvent → Prop where
  | renew {now : Timestamp} {held : HeldItem} {leaseSeconds : ℕ} :
      ActsFor s (.renewItemLease now held leaseSeconds) (claimOf held)
  | complete {now : Timestamp} {workerId : String} {entry : CompletedItem} {held : HeldItem} :
      held ∈ s.held → RecordFor workerId entry held →
      ActsFor s (.markItemCompleted now workerId entry) (claimOf held)
  | completeBulk {now : Timestamp} {workerId : String} {payload : List CompletedItem}
      {skip : String → Bool} {entry : CompletedItem} {held : HeldItem} :
      held ∈ s.held → entry ∈ payload → RecordFor workerId entry held →
      ActsFor s (.markItemsCompletedBulk now workerId payload skip) (claimOf held)
  | completeWithOutbox {now : Timestamp} {workerId : String} {entries : List OutboxCompletion}
      {skip : String → Bool} {entry : OutboxCompletion} {held : HeldItem} :
      held ∈ s.held → entry ∈ entries → RecordFor workerId entry.completed held →
      ActsFor s (.completeItemsWithOutboxBulk now workerId entries skip) (claimOf held)
  | fail {now : Timestamp} {held : HeldItem} {errorBody lastError retryable delay} :
      ActsFor s (.markItemFailed now held errorBody lastError retryable delay) (claimOf held)
  | releaseForRetry {now : Timestamp} {workerId : String} {chunk : List HeldItem}
      {delay errorBody lastError} {held : HeldItem} : held ∈ chunk →
      ActsFor s (.releaseFailedMicrobatch now workerId chunk delay errorBody lastError)
        (claimOf held)
  | requeue {now : Timestamp} {workerId : String} {chunk : List HeldItem} {held : HeldItem} :
      held ∈ chunk →
      ActsFor s (.requeueAfterPersistenceFailure now workerId chunk) (claimOf held)
  | release {slice : WorkSlice} {claim : ClaimEvent} : claim ∈ slice.claims →
      ActsFor s (.releaseClaimItems slice) claim

/-- Operations that a worker issues on behalf of claims. -/
def IsClaimOperation : Event → Bool
  | .renewItemLease .. | .markItemCompleted .. | .markItemsCompletedBulk ..
  | .completeItemsWithOutboxBulk .. | .markItemFailed .. | .releaseFailedMicrobatch ..
  | .requeueAfterPersistenceFailure .. | .releaseClaimItems .. => true
  | _ => false

/-- Every item that the operation changes is one it acts for, and is in progress, locked by the
claim's worker and at the claim's epoch. -/
def Fenced (s : BatchState) (e : Event) : Prop :=
  IsClaimOperation e = true → ∀ item ∈ s.items, ∀ item' ∈ (next s e).items,
    item'.itemId = item.itemId → item' ≠ item →
      (∃ claim, ActsFor s e claim ∧ claim.itemId = item.itemId) ∧
      ∀ claim, ActsFor s e claim → claim.itemId = item.itemId →
        OwnedBy claim.workerId claim.claimEpoch item

/-- The worker of this claim has not claimed the item again since. -/
def NotReclaimed (s : BatchState) (claim : ClaimEvent) : Prop :=
  ∀ later ∈ s.claimEvents, later.itemId = claim.itemId → later.workerId = claim.workerId →
    later.claimEpoch ≤ claim.claimEpoch

/-- A worker releases or loads a slice only while it has claimed none of its items again. -/
def SliceCurrent (s : BatchState) : Event → Prop
  | .releaseClaimItems slice => ∀ claim ∈ slice.claims, NotReclaimed s claim
  | .loadClaimItems slice => ∀ claim ∈ slice.claims, NotReclaimed s claim
  | _ => True

/-- What the claim history says about the rows, in every reachable state. -/
structure HistoryInvariant (s : BatchState) : Prop where
  known : ∀ claim ∈ s.claimEvents, ∃ item ∈ s.items, item.itemId = claim.itemId
  bounded : ∀ item ∈ s.items, ∀ claim ∈ s.claimEvents, claim.itemId = item.itemId →
    1 ≤ claim.claimEpoch ∧ claim.claimEpoch ≤ item.claimEpoch
  current : ∀ item ∈ s.items, 0 < item.claimEpoch →
    ∃ workerId, ⟨item.itemId, workerId, item.claimEpoch⟩ ∈ s.claimEvents
  owner : ∀ item ∈ s.items, item.status = .inProgress → ∀ workerId,
    item.lockedBy = some workerId → ⟨item.itemId, workerId, item.claimEpoch⟩ ∈ s.claimEvents
  unique : ∀ claim ∈ s.claimEvents, ∀ other ∈ s.claimEvents, claim.itemId = other.itemId →
    claim.claimEpoch = other.claimEpoch → claim = other
  slices : ∀ slice ∈ s.slices, ∀ claim ∈ slice.claims,
    claim ∈ s.claimEvents ∧ claim.workerId = slice.workerId

variable {maxAttempts : ℕ} {s : BatchState} {e : Event}

/-- A step that is not a claim keeps the epoch, and keeps the owner of a row it leaves in
progress. -/
theorem itemStep_epoch {item item' : BatchItemRow} (h : ItemStep maxAttempts s e item item') :
    (∃ w, claimWrite s e = some w ∧ item.itemId ∈ w.itemIds ∧
      item' = claimRow w.now w.workerId w.leaseSeconds item) ∨
    ((∀ w, claimWrite s e = some w → item.itemId ∉ w.itemIds) ∧
      item'.claimEpoch = item.claimEpoch ∧ item'.attempts = item.attempts ∧
      (item'.status = .inProgress → item.status = .inProgress ∧
        item'.lockedBy = item.lockedBy)) := by
  cases h with
  | unchanged hw => exact Or.inr ⟨hw, rfl, rfl, fun h => ⟨h, rfl⟩⟩
  | claimed w hw hid _ => exact Or.inl ⟨w, hw, hid, rfl⟩
  | renewed _ _ hown => exact Or.inr ⟨by rintro w ⟨⟩, rfl, rfl, fun h => ⟨hown.1, rfl⟩⟩
  | completed | completedBulk | completedWithOutbox | failedForRetry | failed
  | releasedForRetry | requeuedAfterPersistenceFailure | released | cancelled
  | requeuedExpired | failedByOperator | swept =>
      exact Or.inr ⟨by rintro w ⟨⟩, rfl, rfl, fun h => by cases h⟩

private theorem newClaim_of_id (hkeys : (s.items.map BatchItemRow.itemId).Nodup)
    {item : BatchItemRow} (hitem : item ∈ s.items) {claim : ClaimEvent}
    (hclaim : claim ∈ newClaims s e) (hid : claim.itemId = item.itemId) :
    ∃ w, claimWrite s e = some w ∧ item.itemId ∈ w.itemIds ∧
      claim = ⟨item.itemId, w.workerId, item.claimEpoch + 1⟩ := by
  obtain ⟨w, hw, row, hrow, hmem, rfl⟩ := mem_newClaims.mp hclaim
  have : row = item := List.inj_on_of_nodup_map hkeys hrow hitem hid
  subst this
  exact ⟨w, hw, hmem, rfl⟩

private theorem known_next (hkeys : (s.items.map BatchItemRow.itemId).Nodup)
    (he : Enabled maxAttempts s e) (hinv : HistoryInvariant s) :
    ∀ claim ∈ (next s e).claimEvents, ∃ item ∈ (next s e).items,
      item.itemId = claim.itemId := by
  intro claim hclaim
  have hold : ∃ item ∈ s.items, item.itemId = claim.itemId := by
    rw [claimEvents_next, List.mem_append] at hclaim
    rcases hclaim with hnew | hclaim
    · obtain ⟨w, _, item, hitem, _, rfl⟩ := mem_newClaims.mp hnew
      exact ⟨item, hitem, rfl⟩
    · exact hinv.known claim hclaim
  obtain ⟨item, hitem, hid⟩ := hold
  obtain ⟨item', hitem', hstep⟩ := exists_item_next hkeys he hitem
  exact ⟨item', hitem', hstep.frame.1.trans hid⟩

/-- A row inserted just now has no claim in the history. -/
private theorem created_unclaimed (he : Enabled maxAttempts s e) (hinv : HistoryInvariant s)
    {item : BatchItemRow} (hitem : item ∈ created e) {claim : ClaimEvent}
    (hclaim : claim ∈ (next s e).claimEvents) : claim.itemId ≠ item.itemId := by
  have hold : ∃ old ∈ s.items, old.itemId = claim.itemId := by
    rw [claimEvents_next, List.mem_append] at hclaim
    rcases hclaim with hnew | hclaim
    · obtain ⟨w, _, old, hold, _, rfl⟩ := mem_newClaims.mp hnew
      exact ⟨old, hold, rfl⟩
    · exact hinv.known claim hclaim
  obtain ⟨old, hold, hid⟩ := hold
  intro hsame
  exact created_fresh he hitem old hold (hid.trans hsame)

private theorem bounded_next (hkeys : (s.items.map BatchItemRow.itemId).Nodup)
    (he : Enabled maxAttempts s e) (hinv : HistoryInvariant s) :
    ∀ item' ∈ (next s e).items, ∀ claim ∈ (next s e).claimEvents,
      claim.itemId = item'.itemId →
        1 ≤ claim.claimEpoch ∧ claim.claimEpoch ≤ item'.claimEpoch := by
  intro item' hitem' claim hclaim hid
  rcases mem_items_next hkeys he hitem' with hnew | ⟨item, hitem, hstep⟩
  · exact absurd hid (created_unclaimed he hinv hnew hclaim)
  · rw [hstep.frame.1] at hid
    rw [claimEvents_next, List.mem_append] at hclaim
    rcases itemStep_epoch hstep with ⟨w, hw, hmem, rfl⟩ | ⟨hnone, hepoch, _, _⟩
    · rcases hclaim with hnew | hold
      · obtain ⟨w', _, _, rfl⟩ := newClaim_of_id hkeys hitem hnew hid
        exact ⟨by simp, by simp [claimRow]⟩
      · obtain ⟨hone, hle⟩ := hinv.bounded item hitem claim hold hid
        exact ⟨hone, by simp only [claimRow]; omega⟩
    · rcases hclaim with hnew | hold
      · obtain ⟨w', hw', hmem, _⟩ := newClaim_of_id hkeys hitem hnew hid
        exact absurd hmem (hnone w' hw')
      · rw [hepoch]
        exact hinv.bounded item hitem claim hold hid

private theorem claimed_mem_history {item : BatchItemRow} (hitem : item ∈ s.items)
    {w : ClaimWrite} (hw : claimWrite s e = some w) (hmem : item.itemId ∈ w.itemIds) :
    ⟨item.itemId, w.workerId, item.claimEpoch + 1⟩ ∈ (next s e).claimEvents := by
  rw [claimEvents_next, List.mem_append]
  exact Or.inl (mem_newClaims.mpr ⟨w, hw, item, hitem, hmem, rfl⟩)

private theorem current_next (hkeys : (s.items.map BatchItemRow.itemId).Nodup)
    (he : Enabled maxAttempts s e) (hinv : HistoryInvariant s) :
    ∀ item' ∈ (next s e).items, 0 < item'.claimEpoch →
      ∃ workerId, ⟨item'.itemId, workerId, item'.claimEpoch⟩ ∈ (next s e).claimEvents := by
  intro item' hitem' hpos
  rcases mem_items_next hkeys he hitem' with hnew | ⟨item, hitem, hstep⟩
  · have hzero := (created_pending he hnew).2.2.1
    omega
  · rcases itemStep_epoch hstep with ⟨w, hw, hmem, rfl⟩ | ⟨_, hepoch, _, _⟩
    · exact ⟨w.workerId, claimed_mem_history hitem hw hmem⟩
    · rw [hepoch] at hpos ⊢
      rw [hstep.frame.1, claimEvents_next]
      obtain ⟨workerId, hclaim⟩ := hinv.current item hitem hpos
      exact ⟨workerId, List.mem_append_right _ hclaim⟩

private theorem owner_next (hkeys : (s.items.map BatchItemRow.itemId).Nodup)
    (he : Enabled maxAttempts s e) (hinv : HistoryInvariant s) :
    ∀ item' ∈ (next s e).items, item'.status = .inProgress → ∀ workerId,
      item'.lockedBy = some workerId →
        ⟨item'.itemId, workerId, item'.claimEpoch⟩ ∈ (next s e).claimEvents := by
  intro item' hitem' hrunning workerId hlocked
  rcases mem_items_next hkeys he hitem' with hnew | ⟨item, hitem, hstep⟩
  · rw [(created_pending he hnew).1] at hrunning
    cases hrunning
  · rcases itemStep_epoch hstep with ⟨w, hw, hmem, rfl⟩ | ⟨_, hepoch, _, howner⟩
    · have hworker : w.workerId = workerId := by simpa [claimRow] using hlocked
      exact hworker ▸ claimed_mem_history hitem hw hmem
    · obtain ⟨hbefore, hsame⟩ := howner hrunning
      rw [hepoch, hstep.frame.1, claimEvents_next]
      exact List.mem_append_right _ (hinv.owner item hitem hbefore workerId (hsame ▸ hlocked))

private theorem unique_next (hkeys : (s.items.map BatchItemRow.itemId).Nodup)
    (hinv : HistoryInvariant s) :
    ∀ claim ∈ (next s e).claimEvents, ∀ other ∈ (next s e).claimEvents,
      claim.itemId = other.itemId → claim.claimEpoch = other.claimEpoch → claim = other := by
  -- A new claim has an epoch above every older one of its item.
  have hfresh : ∀ claim ∈ newClaims s e, ∀ other ∈ s.claimEvents,
      claim.itemId = other.itemId → claim.claimEpoch ≠ other.claimEpoch := by
    intro claim hclaim other hother hid
    obtain ⟨w, _, item, hitem, _, rfl⟩ := mem_newClaims.mp hclaim
    have hle := (hinv.bounded item hitem other hother hid.symm).2
    simp only
    omega
  intro claim hclaim other hother hid hepoch
  rw [claimEvents_next, List.mem_append] at hclaim hother
  rcases hclaim with hnew | hold <;> rcases hother with hnew' | hold'
  · obtain ⟨w, hw, item, hitem, _, rfl⟩ := mem_newClaims.mp hnew
    obtain ⟨w', hw', _, rfl⟩ := newClaim_of_id hkeys hitem hnew' hid.symm
    rw [hw] at hw'
    cases hw'
    rfl
  · exact absurd hepoch (hfresh claim hnew other hold' hid)
  · exact absurd hepoch.symm (hfresh other hnew' claim hold hid.symm)
  · exact hinv.unique claim hold other hold' hid hepoch

private theorem slices_next (hinv : HistoryInvariant s) :
    ∀ slice ∈ (next s e).slices, ∀ claim ∈ slice.claims,
      claim ∈ (next s e).claimEvents ∧ claim.workerId = slice.workerId := by
  intro slice hslice claim hclaim
  rw [claimEvents_next, List.mem_append]
  rcases mem_slices_next hslice with hold | ⟨hnew, hworker⟩
  · obtain ⟨hmem, hworker⟩ := hinv.slices slice hold claim hclaim
    exact ⟨Or.inr hmem, hworker⟩
  · exact ⟨Or.inl (hnew ▸ hclaim), hworker claim hclaim⟩

theorem reachable_history (hs : Reachable (batchSystem maxAttempts) s) : HistoryInvariant s := by
  refine ReachableBy.invariant_under (P := HistoryInvariant)
    (fun _ hr => reachable_itemKeys hr) ?_ ?_ hs
  · rintro s rfl
    constructor <;> simp [initialState]
  · intro s e hkeys hinv he _
    exact
      { known := known_next hkeys he hinv
        bounded := bounded_next hkeys he hinv
        current := current_next hkeys he hinv
        owner := owner_next hkeys he hinv
        unique := unique_next hkeys hinv
        slices := slices_next hinv }

/-- A record that was read at another epoch than its claim's belongs to another worker's claim. -/
def RecordsMatchClaims (s : BatchState) : Prop :=
  ∀ held ∈ s.held, claimOf held ∈ s.claimEvents ∧ (held.claimEpoch ≠ held.claimedEpoch →
    ∃ workerId ≠ held.workerId, ⟨held.itemId, workerId, held.claimEpoch⟩ ∈ s.claimEvents)

private theorem recordsMatchClaims_next (hinv : HistoryInvariant s)
    (hrecords : RecordsMatchClaims s) (he : Enabled maxAttempts s e) (ha : SliceCurrent s e) :
    RecordsMatchClaims (next s e) := by
  intro held hheld
  rw [claimEvents_next]
  rcases mem_held_next hheld with hold | ⟨w, hw, item, hitem, hmem, rfl⟩ |
    ⟨slice, rfl, claim, hclaim, item, hitem, hid, rfl⟩
  · obtain ⟨hclaim, hother⟩ := hrecords held hold
    refine ⟨List.mem_append_right _ hclaim, fun hne => ?_⟩
    obtain ⟨workerId, hworker, hevent⟩ := hother hne
    exact ⟨workerId, hworker, List.mem_append_right _ hevent⟩
  · refine ⟨List.mem_append_left _ (mem_newClaims.mpr ⟨w, hw, item, hitem, hmem, rfl⟩), ?_⟩
    intro hne
    exact absurd rfl hne
  · obtain ⟨hevent, hworker⟩ := hinv.slices slice he claim hclaim
    have hclaimOf : (⟨claim.itemId, slice.workerId, claim.claimEpoch⟩ : ClaimEvent) = claim := by
      rw [← hworker]
    refine ⟨List.mem_append_right _ (by simpa [claimOf, hclaimOf] using hevent), fun hne => ?_⟩
    have hbound := hinv.bounded item hitem claim hevent hid.symm
    obtain ⟨owner, howner⟩ := hinv.current item hitem (by omega)
    refine ⟨owner, ?_, List.mem_append_right _ (hid ▸ howner)⟩
    -- The worker itself did not claim the item again, so its epoch could not have moved.
    intro hsame
    have hle := ha claim hclaim _ howner hid (hsame.trans hworker.symm)
    simp only at hle hne
    omega

theorem reachable_recordsMatchClaims
    (hs : ReachableBy (batchSystem maxAttempts) SliceCurrent s) : RecordsMatchClaims s := by
  refine ReachableBy.invariant_under (P := RecordsMatchClaims)
    (fun _ hr => reachable_history hr.reachable) ?_ ?_ hs
  · rintro s rfl held hheld
    cases hheld
  · intro s e hinv hrecords he ha
    exact recordsMatchClaims_next hinv hrecords he ha

/-- A record whose fence holds of a row was read at the epoch of its own claim. -/
private theorem owned_by_claim (hinv : HistoryInvariant s) (hrecords : RecordsMatchClaims s)
    {held : HeldItem} (hheld : held ∈ s.held) {item : BatchItemRow} (hitem : item ∈ s.items)
    (hid : item.itemId = held.itemId) (hown : OwnedBy held.workerId held.claimEpoch item) :
    OwnedBy (claimOf held).workerId (claimOf held).claimEpoch item := by
  have howner := hinv.owner item hitem hown.1 held.workerId hown.2.1
  have hepoch : held.claimEpoch = held.claimedEpoch := by
    by_contra hne
    obtain ⟨workerId, hworker, hevent⟩ := (hrecords held hheld).2 hne
    have hsame := hinv.unique _ howner _ hevent hid hown.2.2
    simp only [ClaimEvent.mk.injEq] at hsame
    exact hworker hsame.2.1.symm
  rw [claimOf, ← hepoch]
  exact hown

private theorem fenced_bulk (hinv : HistoryInvariant s) (hrecords : RecordsMatchClaims s)
    {workerId : String} {payload : List CompletedItem}
    (hdistinct : (payload.map CompletedItem.itemId).Nodup) {entry : CompletedItem}
    (hentry : entry ∈ payload) {item : BatchItemRow} (hitem : item ∈ s.items)
    (hid : entry.itemId = item.itemId) (hown : OwnedBy workerId entry.claimEpoch item)
    {other : CompletedItem} (hother : other ∈ payload) {held : HeldItem} (hheld : held ∈ s.held)
    (hrecord : RecordFor workerId other held) (hsame : (claimOf held).itemId = item.itemId) :
    OwnedBy (claimOf held).workerId (claimOf held).claimEpoch item := by
  obtain ⟨hworker, hrecordId, hepoch⟩ := hrecord
  have hentryId : other.itemId = entry.itemId := by
    rw [← hrecordId, hid]
    exact hsame
  obtain rfl : other = entry := List.inj_on_of_nodup_map hdistinct hother hentry hentryId
  refine owned_by_claim hinv hrecords hheld hitem hsame.symm ?_
  rw [hworker, hepoch]
  exact hown

private theorem fenced_chunk (hinv : HistoryInvariant s) (hrecords : RecordsMatchClaims s)
    {chunk : List HeldItem} (hdistinct : (chunk.map HeldItem.itemId).Nodup) {held : HeldItem}
    (hchunk : held ∈ chunk) (hheld : held ∈ s.held) {item : BatchItemRow}
    (hitem : item ∈ s.items) (hid : item.itemId = held.itemId)
    (hown : OwnedBy held.workerId held.claimEpoch item) {other : HeldItem}
    (hother : other ∈ chunk) (hsame : (claimOf other).itemId = item.itemId) :
    OwnedBy (claimOf other).workerId (claimOf other).claimEpoch item := by
  obtain rfl : other = held :=
    List.inj_on_of_nodup_map hdistinct hother hchunk (hsame.trans hid)
  exact owned_by_claim hinv hrecords hheld hitem hid hown

/-- A release frees only current rows when the worker has not claimed them again. -/
private theorem fenced_release (hinv : HistoryInvariant s) {slice : WorkSlice}
    (hslice : slice ∈ s.slices) {item : BatchItemRow} (hitem : item ∈ s.items)
    (hlocked : item.lockedBy = some slice.workerId) (hrunning : item.status = .inProgress)
    {claim : ClaimEvent} (hclaim : claim ∈ slice.claims) (hid : claim.itemId = item.itemId)
    (hcurrent : NotReclaimed s claim) : OwnedBy claim.workerId claim.claimEpoch item := by
  obtain ⟨hevent, hworker⟩ := hinv.slices slice hslice claim hclaim
  have howner := hinv.owner item hitem hrunning slice.workerId hlocked
  have hle := hcurrent _ howner hid.symm hworker.symm
  have hbound := hinv.bounded item hitem claim hevent hid
  refine ⟨hrunning, hworker ▸ hlocked, ?_⟩
  simp only at hle
  omega

/-- In a run where no worker releases or loads a slice after claiming one of its items again,
every operation changes only items whose current claim it acts for. -/
theorem operations_fenced (hs : ReachableBy (batchSystem maxAttempts) SliceCurrent s)
    (he : Enabled maxAttempts s e) (ha : SliceCurrent s e) : Fenced s e := by
  intro hoperation item hitem item' hitem' hid hchanged
  have hinv := reachable_history hs.reachable
  have hrecords := reachable_recordsMatchClaims hs
  have hstep := itemStep_of_same_id (reachable_itemKeys hs.reachable) he hitem hitem' hid
  cases hstep with
  | unchanged => exact absurd rfl hchanged
  | claimed w hw =>
      cases e <;> simp [claimWrite] at hw <;> cases hoperation
  | renewed hheld hitemId hown =>
      refine ⟨⟨_, .renew, hitemId.symm⟩, ?_⟩
      rintro claim ⟨⟩ _
      exact owned_by_claim hinv hrecords hheld hitem hitemId hown
  | @completed _ _ payload _ hholds hitemId hown =>
      obtain ⟨held, hheld, hrecord⟩ := hholds _ List.mem_cons_self
      refine ⟨⟨_, .complete hheld hrecord, hrecord.2.1.trans hitemId⟩, ?_⟩
      rintro claim hacts hsame
      cases hacts with
      | complete hheld' hrecord' =>
          have hdistinct : ([payload].map CompletedItem.itemId).Nodup := List.nodup_singleton _
          exact fenced_bulk hinv hrecords hdistinct List.mem_cons_self hitem hitemId hown
            List.mem_cons_self hheld' hrecord' hsame
  | completedBulk entry hholds hentry hitemId hown =>
      obtain ⟨held, hheld, hrecord⟩ := hholds entry hentry
      refine ⟨⟨_, .completeBulk hheld hentry hrecord, hrecord.2.1.trans hitemId⟩, ?_⟩
      rintro claim hacts hsame
      cases hacts with
      | completeBulk hheld' hentry' hrecord' =>
          exact fenced_bulk hinv hrecords he.2 hentry hitem hitemId hown hentry' hheld' hrecord'
            hsame
  | @completedWithOutbox _ _ entries _ _ entry hholds hentry hitemId hown =>
      have hmem := List.mem_map_of_mem hentry (f := OutboxCompletion.completed)
      obtain ⟨held, hheld, hrecord⟩ := hholds _ hmem
      refine ⟨⟨_, .completeWithOutbox hheld hentry hrecord, hrecord.2.1.trans hitemId⟩, ?_⟩
      rintro claim hacts hsame
      cases hacts with
      | completeWithOutbox hheld' hentry' hrecord' =>
          have hdistinct :
              ((entries.map OutboxCompletion.completed).map CompletedItem.itemId).Nodup := by
            rw [List.map_map]
            exact he.2.1
          exact fenced_bulk hinv hrecords hdistinct hmem hitem hitemId hown
            (List.mem_map_of_mem hentry') hheld' hrecord' hsame
  | failedForRetry hheld _ hitemId hown =>
      refine ⟨⟨_, .fail, hitemId.symm⟩, ?_⟩
      rintro claim ⟨⟩ _
      exact owned_by_claim hinv hrecords hheld hitem hitemId hown
  | failed hheld hitemId hown =>
      refine ⟨⟨_, .fail, hitemId.symm⟩, ?_⟩
      rintro claim ⟨⟩ _
      exact owned_by_claim hinv hrecords hheld hitem hitemId hown
  | releasedForRetry held hheld hchunk hworker _ hitemId hown =>
      refine ⟨⟨_, .releaseForRetry hchunk, hitemId.symm⟩, ?_⟩
      rintro claim hacts hsame
      cases hacts with
      | releaseForRetry hother =>
          exact fenced_chunk hinv hrecords he.1 hchunk hheld hitem hitemId (hworker ▸ hown)
            hother hsame
  | requeuedAfterPersistenceFailure held hheld hchunk hworker hitemId hown =>
      refine ⟨⟨_, .requeue hchunk, hitemId.symm⟩, ?_⟩
      rintro claim hacts hsame
      cases hacts with
      | requeue hother =>
          exact fenced_chunk hinv hrecords he.1 hchunk hheld hitem hitemId (hworker ▸ hown)
            hother hsame
  | released claim hslice hclaim hitemId hlocked hrunning =>
      refine ⟨⟨claim, .release hclaim, hitemId.symm⟩, ?_⟩
      intro other hacts hsame
      cases hacts with
      | release hother =>
          exact fenced_release hinv hslice hitem hlocked hrunning hother hsame (ha other hother)
  | cancelled | requeuedExpired | failedByOperator | swept => cases hoperation

namespace Counterexample

/-- One worker, one item, a lease of one second. -/
def request : WorkClaimRequest :=
  { workerId := "worker-a", maxItems := 1, maxWorkUnits := 10, leaseSeconds := 1 }

def item : BatchItemRow := createdItem "item-1" "batch-1" 1 "row-1" [] 1

def promotion : Event := .promoteSession (createdJob "batch-1" "/v1/embeddings" 0) [item]

def promoted : BatchState := next initialState promotion

def claimedOnce : BatchState := next promoted (.claimWork 0 request RowLocks.free)

/-- The lease of the first claim is over and the same worker claims the item again. -/
def claimedTwice : BatchState := next claimedOnce (.claimWork 2000000 request RowLocks.free)

def firstSlice : WorkSlice := ⟨"worker-a", "batch-1", [⟨"item-1", "worker-a", 1⟩]⟩

theorem promoted_reachable : ReachableBy (batchSystem 3) SliceCurrent promoted :=
  .step (e := promotion) (.initial rfl) (promotable_created _ _ _ _ _ _ _ _) trivial

theorem claimedOnce_reachable : ReachableBy (batchSystem 3) SliceCurrent claimedOnce :=
  .step (e := Event.claimWork 0 request RowLocks.free) promoted_reachable trivial trivial

theorem claimedTwice_reachable : ReachableBy (batchSystem 3) SliceCurrent claimedTwice :=
  .step (e := Event.claimWork 2000000 request RowLocks.free) claimedOnce_reachable trivial trivial

theorem firstSlice_current : SliceCurrent claimedOnce (.releaseClaimItems firstSlice) := by
  have hevents : claimedOnce.claimEvents = [⟨"item-1", "worker-a", 1⟩] := by decide +kernel
  intro claim hclaim later hlater _ _
  rw [hevents, List.mem_singleton] at hlater
  rw [firstSlice, List.mem_singleton] at hclaim
  rw [hlater, hclaim]

end Counterexample

open Counterexample in
/-- The claim at epoch one is released while the item runs under the claim at epoch two. -/
theorem release_changes_reclaimed_item :
    ¬∀ maxAttempts s e, Reachable (batchSystem maxAttempts) s → Enabled maxAttempts s e →
      Fenced s e := by
  intro hall
  have hslice : firstSlice ∈ claimedTwice.slices := by decide +kernel
  have hchange : ∃ item ∈ claimedTwice.items,
      ∃ item' ∈ (next claimedTwice (.releaseClaimItems firstSlice)).items,
        item'.itemId = item.itemId ∧ item.itemId = "item-1" ∧ item'.status ≠ item.status ∧
          ¬OwnedBy "worker-a" 1 item := by decide +kernel
  obtain ⟨item, hitem, item', hitem', hid, hname, hstatus, hstale⟩ := hchange
  have hfenced := hall 3 claimedTwice (.releaseClaimItems firstSlice)
    claimedTwice_reachable.reachable hslice
  have hne : item' ≠ item := fun h => hstatus (h ▸ rfl)
  exact hstale ((hfenced rfl item hitem item' hitem' hid hne).2 ⟨"item-1", "worker-a", 1⟩
    (.release List.mem_cons_self) hname.symm)

open Counterexample in
theorem operations_fenced_first_release : Fenced claimedOnce (.releaseClaimItems firstSlice) :=
  operations_fenced claimedOnce_reachable (show firstSlice ∈ claimedOnce.slices by decide +kernel)
    firstSlice_current

end BatchItemOwnership
