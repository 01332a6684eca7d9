import DeltaLLM.BatchItemSteps

/-! # The attempts bound

Both claim statements count an attempt and neither compares it with the configured maximum.
The failure handler does, so the bound holds along every run in which the other routes back to
a claim only meet items with attempts left.
-/
namespace BatchAttemptsBound

open BatchRecords
open BatchItemStatements
open BatchSystem
open BatchItemSteps
open TransitionRuns

/-- No claim hands out an item above the bound, and an item that has used its attempts is not
claimed again: it stays as it is or becomes terminal. -/
structure BoundKept (maxAttempts : ℕ) (s : BatchState) (e : Event) : Prop where
  executed : ∀ w, claimWrite s e = some w → ∀ item' ∈ (next s e).items,
    item'.itemId ∈ w.itemIds → item'.attempts ≤ maxAttempts
  spent : ∀ item ∈ s.items, maxAttempts ≤ item.attempts → item.status ≠ .pending ∧
    (∀ w, claimWrite s e = some w → item.itemId ∉ w.itemIds) ∧
    ∀ item' ∈ (next s e).items, item'.itemId = item.itemId →
      item'.status = item.status ∨ item'.status.terminal = true

/-- The routes that do not look at the attempts only meet items that have some left: a claim
that takes over an expired item, a slice release, a persistence requeue, an operator requeue
and a sweep. -/
def AttemptsLeft (maxAttempts : ℕ) (s : BatchState) : Event → Prop
  | .releaseClaimItems slice => ∀ item ∈ s.items,
      item.itemId ∈ slice.claims.map ClaimEvent.itemId → item.lockedBy = some slice.workerId →
        item.status = .inProgress → item.attempts < maxAttempts
  | .requeueAfterPersistenceFailure _ _ chunk => ∀ held ∈ chunk, held.attempts < maxAttempts
  | .requeueExpiredInProgressItems now batchId => ∀ item ∈ s.items, item.batchId = batchId →
      item.status = .inProgress → leaseExpired item.leaseExpiresAt now →
        item.attempts < maxAttempts
  | .sweepExpiredItems now limit skip =>
      ∀ item ∈ sweepCandidates now limit skip s.jobs s.items, item.attempts < maxAttempts
  | e => ∀ w, claimWrite s e = some w → ∀ item ∈ s.items, item.itemId ∈ w.itemIds →
      item.status = .inProgress → item.attempts < maxAttempts

variable {maxAttempts : ℕ} {s : BatchState} {e : Event}

/-- A record tells the attempts of its row as long as the row is at the record's epoch. -/
def RecordsTellAttempts (s : BatchState) : Prop :=
  ∀ held ∈ s.held, ∃ item ∈ s.items, item.itemId = held.itemId ∧
    held.claimEpoch ≤ item.claimEpoch ∧
    (item.claimEpoch = held.claimEpoch → item.attempts = held.attempts)

/-- Epoch and attempts move together. -/
private theorem epoch_and_attempts {item item' : BatchItemRow}
    (h : ItemStep maxAttempts s e item item') :
    (item'.claimEpoch = item.claimEpoch ∧ item'.attempts = item.attempts) ∨
      item'.claimEpoch = item.claimEpoch + 1 := by
  cases h with
  | claimed w => exact Or.inr rfl
  | _ => exact Or.inl ⟨rfl, rfl⟩

private theorem recordsTellAttempts_next (hkeys : (s.items.map BatchItemRow.itemId).Nodup)
    (hrecords : RecordsTellAttempts s) (he : Enabled maxAttempts s e) :
    RecordsTellAttempts (next s e) := by
  intro held hheld
  rcases mem_held_next hheld with hold | ⟨w, hw, item, hitem, hmem, rfl⟩ |
    ⟨slice, rfl, claim, hclaim, item, hitem, hid, rfl⟩
  · obtain ⟨item, hitem, hid, hle, hattempts⟩ := hrecords held hold
    obtain ⟨item', hitem', hstep⟩ := exists_item_next hkeys he hitem
    refine ⟨item', hitem', hstep.frame.1.trans hid, ?_⟩
    rcases epoch_and_attempts hstep with ⟨hepoch, hsame⟩ | hepoch
    · rw [hepoch, hsame]
      exact ⟨hle, hattempts⟩
    · exact ⟨by omega, by omega⟩
  · obtain ⟨item', hitem', hstep⟩ := exists_item_next hkeys he hitem
    refine ⟨item', hitem', hstep.frame.1, ?_⟩
    have hclaimed : item' = claimRow w.now w.workerId w.leaseSeconds item := by
      cases hstep with
      | claimed w' hw' =>
          rw [hw] at hw'
          cases hw'
          rfl
      | unchanged hnone => exact absurd hmem (hnone w hw)
      | _ => cases hw
    subst hclaimed
    exact ⟨le_refl _, fun _ => rfl⟩
  · exact ⟨item, hitem, hid, le_refl _, fun _ => rfl⟩

theorem reachable_recordsTellAttempts (hs : Reachable (batchSystem maxAttempts) s) :
    RecordsTellAttempts s := by
  refine ReachableBy.invariant_under (P := RecordsTellAttempts)
    (fun _ hr => reachable_itemKeys hr) ?_ ?_ hs
  · rintro s rfl held hheld
    cases hheld
  · intro s e hkeys hrecords he _
    exact recordsTellAttempts_next hkeys hrecords he

/-- A record whose fence holds of a row has the row's attempts. -/
private theorem attempts_of_record (hkeys : (s.items.map BatchItemRow.itemId).Nodup)
    (hrecords : RecordsTellAttempts s) {held : HeldItem} (hheld : held ∈ s.held)
    {item : BatchItemRow} (hitem : item ∈ s.items) (hid : item.itemId = held.itemId)
    {workerId : String} (hown : OwnedBy workerId held.claimEpoch item) :
    item.attempts = held.attempts := by
  obtain ⟨row, hrow, hrowId, _, hattempts⟩ := hrecords held hheld
  obtain rfl : row = item := List.inj_on_of_nodup_map hkeys hrow hitem (hrowId.trans hid.symm)
  exact hattempts hown.2.2

/-- Attempts never pass the bound, and a pending item has one left. -/
def AttemptsInvariant (maxAttempts : ℕ) (s : BatchState) : Prop :=
  ∀ item ∈ s.items, item.attempts ≤ maxAttempts ∧
    (item.status = .pending → item.attempts < maxAttempts)

/-- An item that a claim takes has an attempt left. -/
private theorem claimed_attempts_left (hattempts : AttemptsInvariant maxAttempts s)
    (ha : AttemptsLeft maxAttempts s e) {w : ClaimWrite} (hw : claimWrite s e = some w)
    {item : BatchItemRow} (hitem : item ∈ s.items) (hmem : item.itemId ∈ w.itemIds)
    (hrun : item.Runnable w.now) : item.attempts < maxAttempts := by
  rcases hrun with ⟨hpending, _⟩ | ⟨hrunning, _⟩
  · exact (hattempts item hitem).2 hpending
  · cases e with
    | claimItems => exact ha w hw item hitem hmem hrunning
    | claimWork => exact ha w hw item hitem hmem hrunning
    | _ => cases hw

private theorem attempts_next (hpos : 1 ≤ maxAttempts)
    (hkeys : (s.items.map BatchItemRow.itemId).Nodup) (hrecords : RecordsTellAttempts s)
    (hattempts : AttemptsInvariant maxAttempts s) (he : Enabled maxAttempts s e)
    (ha : AttemptsLeft maxAttempts s e) : AttemptsInvariant maxAttempts (next s e) := by
  intro item' hitem'
  rcases mem_items_next hkeys he hitem' with hnew | ⟨item, hitem, hstep⟩
  · have hzero := (created_pending he hnew).2.1
    exact ⟨by omega, fun _ => by omega⟩
  obtain ⟨hle, hpending⟩ := hattempts item hitem
  cases hstep with
  | unchanged => exact ⟨hle, hpending⟩
  | claimed w hw hmem hrun =>
      have hleft := claimed_attempts_left hattempts ha hw hitem hmem hrun
      exact ⟨hleft, by rintro ⟨⟩⟩
  | renewed _ _ hown => exact ⟨hle, fun h => hpending h⟩
  | failedForRetry hheld hleft hid hown =>
      have hsame := attempts_of_record hkeys hrecords hheld hitem hid hown
      exact ⟨hle, fun _ => hsame.trans_lt hleft⟩
  | releasedForRetry held hheld _ _ hleft hid hown =>
      have hsame := attempts_of_record hkeys hrecords hheld hitem hid hown
      exact ⟨hle, fun _ => hsame.trans_lt hleft⟩
  | requeuedAfterPersistenceFailure held hheld hchunk _ hid hown =>
      have hsame := attempts_of_record hkeys hrecords hheld hitem hid hown
      exact ⟨hle, fun _ => hsame.trans_lt (ha held hchunk)⟩
  | released claim _ hclaim hid hlocked hrunning =>
      have hmem := List.mem_map_of_mem hclaim (f := ClaimEvent.itemId)
      exact ⟨hle, fun _ => ha item hitem (hid ▸ hmem) hlocked hrunning⟩
  | requeuedExpired hbatch hrunning hexpired =>
      exact ⟨hle, fun _ => ha item hitem hbatch hrunning hexpired⟩
  | swept hcandidate _ => exact ⟨hle, fun _ => ha item hcandidate⟩
  | completed | completedBulk | completedWithOutbox | failed | cancelled | failedByOperator =>
      exact ⟨hle, by rintro ⟨⟩⟩

theorem reachable_attempts (hpos : 1 ≤ maxAttempts)
    (hs : ReachableBy (batchSystem maxAttempts) (AttemptsLeft maxAttempts) s) :
    AttemptsInvariant maxAttempts s := by
  refine ReachableBy.invariant_under (P := AttemptsInvariant maxAttempts)
    (Q := fun s => (s.items.map BatchItemRow.itemId).Nodup ∧ RecordsTellAttempts s)
    (fun _ hr => ⟨reachable_itemKeys hr.reachable,
      reachable_recordsTellAttempts hr.reachable⟩) ?_ ?_ hs
  · rintro s rfl item hitem
    cases hitem
  · intro s e hknown hattempts he ha
    exact attempts_next hpos hknown.1 hknown.2 hattempts he ha

/-- A row in progress that does not become pending and is not claimed stays or ends. -/
private theorem spent_row (hkeys : (s.items.map BatchItemRow.itemId).Nodup)
    (he : Enabled maxAttempts s e) {item item' : BatchItemRow} (hitem : item ∈ s.items)
    (hitem' : item' ∈ (next s e).items) (hid : item'.itemId = item.itemId)
    (hlive : item.status ≠ .pending) (hkept : item'.status ≠ .pending) :
    item'.status = item.status ∨ item'.status.terminal = true := by
  have hstep := itemStep_of_same_id hkeys he hitem hitem' hid
  cases hterminal : item.status.terminal with
  | true => exact Or.inl (by rw [hstep.frame.2.2.2.2 hterminal])
  | false =>
      cases hstatus : item'.status <;> cases hbefore : item.status <;>
        simp_all [BatchItemStatus.terminal]

/-- Along every run whose steps leave attempts to the unguarded routes, the bound holds. -/
theorem attempts_bounded (hpos : 1 ≤ maxAttempts)
    (hs : ReachableBy (batchSystem maxAttempts) (AttemptsLeft maxAttempts) s)
    (he : Enabled maxAttempts s e) (ha : AttemptsLeft maxAttempts s e) :
    BoundKept maxAttempts s e := by
  have hkeys := reachable_itemKeys hs.reachable
  have hattempts := reachable_attempts hpos hs
  have hafter : AttemptsInvariant maxAttempts (next s e) :=
    reachable_attempts hpos (.step hs he ha)
  refine ⟨fun w _ item' hitem' _ => (hafter item' hitem').1, ?_⟩
  intro item hitem hspent
  have hlive : item.status ≠ .pending := fun h => by
    have := (hattempts item hitem).2 h
    omega
  refine ⟨hlive, ?_, ?_⟩
  · intro w hw hmem
    obtain ⟨item', hitem', hstep⟩ := exists_item_next hkeys he hitem
    cases hstep with
    | claimed w' hw' hmem' hrun =>
        have := claimed_attempts_left hattempts ha hw' hitem hmem' hrun
        omega
    | unchanged hnone => exact hnone w hw hmem
    | _ => cases hw
  · intro item' hitem' hid
    refine spent_row hkeys he hitem hitem' hid hlive fun hpending => ?_
    -- A row that became pending kept its attempts, and they were all used.
    have hleft := (hafter item' hitem').2 hpending
    have hstep := itemStep_of_same_id hkeys he hitem hitem' hid
    cases hstep with
    | claimed => cases hpending
    | _ => exact absurd hleft (by simp only [not_lt]; exact hspent)

namespace Counterexample

def promotion : Event :=
  .promoteSession (createdJob "batch-1" "/v1/embeddings" 0)
    [createdItem "item-1" "batch-1" 1 "row-1" [] 1]

def claimAt (now : Timestamp) : Event :=
  .claimItems now "batch-1" "worker-a" 1 1 fun _ => false

def promoted : BatchState := next initialState promotion

/-- The item uses its only attempt, and its lease of one second runs out. -/
def claimed : BatchState := next promoted (claimAt 0)

theorem promoted_reachable : ReachableBy (batchSystem 1) (AttemptsLeft 1) promoted :=
  .step (e := promotion) (.initial rfl) (promotable_created _ _ _ _ _ _ _ _) (by rintro w ⟨⟩)

theorem claim_takes_pending : AttemptsLeft 1 promoted (claimAt 0) := by
  intro w _ item hitem _ hrunning
  have hpending : ∀ item ∈ promoted.items, item.status = .pending := by decide +kernel
  rw [hpending item hitem] at hrunning
  cases hrunning

theorem claimed_reachable : ReachableBy (batchSystem 1) (AttemptsLeft 1) claimed :=
  .step (e := claimAt 0) promoted_reachable trivial claim_takes_pending

end Counterexample

open Counterexample in
/-- With one attempt allowed, a second claim after the lease ran out executes attempt two. -/
theorem expired_item_claimed_above_bound :
    ¬∀ maxAttempts, 1 ≤ maxAttempts → ∀ s e, Reachable (batchSystem maxAttempts) s →
      Enabled maxAttempts s e → BoundKept maxAttempts s e := by
  intro hall
  have hkept := hall 1 (le_refl 1) claimed (claimAt 2000000) claimed_reachable.reachable trivial
  have hsecond : ∃ item' ∈ (next claimed (claimAt 2000000)).items,
      item'.itemId ∈ (claimCandidates 2000000 "batch-1" 1 (fun _ => false) claimed.items).map
        BatchItemRow.itemId ∧ item'.attempts = 2 := by decide +kernel
  obtain ⟨item', hitem', hmem, hattempts⟩ := hsecond
  have hle := hkept.executed _ rfl item' hitem' hmem
  omega

open Counterexample in
theorem attempts_bounded_first_claim : BoundKept 1 promoted (claimAt 0) :=
  attempts_bounded (le_refl 1) promoted_reachable trivial claim_takes_pending

end BatchAttemptsBound
