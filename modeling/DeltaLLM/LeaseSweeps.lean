import DeltaLLM.BatchItemStatements
import DeltaLLM.BatchJobStatements
import DeltaLLM.TableDrains
import Mathlib.Data.List.Dedup

/-! # The sweep of expired leases

Bounded updates of items and of jobs take turns under one row budget until both kinds are drained
or the budget is spent. Then the jobs of the requeued items are counted again.
-/
namespace LeaseSweeps

open BatchRecords
open BatchItemStatements
open BatchJobStatements
open TableDrains
open TableStatements

def leaseSweepMaxPageSize : ℕ := 1000

def leaseSweepMaxRowsPerRun : ℕ := 5000

/-- Nothing is locked by another transaction. -/
def unlocked : String → Bool := fun _ => false

/-- The predicate of the job statement: a lease that ran out on a live job. -/
def ExpiredJob (now : Timestamp) (job : BatchJobRow) : Prop :=
  job.status.terminal = false ∧ job.lockedBy ≠ none ∧ leaseExpired job.leaseExpiresAt now

instance (now : Timestamp) (job : BatchJobRow) : Decidable (ExpiredJob now job) := by
  unfold ExpiredJob
  exact inferInstance

/-- The rows that `_release_expired_job_leases` returns. -/
def releaseCandidates (now : Timestamp) (limit : ℕ) (jobs : List BatchJobRow) :
    List BatchJobRow :=
  selectFirst (ExpiredJob now) jobLeaseOrder limit jobs

/-- The variables of the loop. -/
structure SweepState where
  jobs : List BatchJobRow
  items : List BatchItemRow
  remaining : ℕ
  itemCount : ℕ := 0
  jobCount : ℕ := 0
  affectedBatchIds : List String := []
  itemExhausted : Bool
  jobExhausted : Bool

section Passes

variable (now : Timestamp) (pageSize : ℕ) (s : SweepState)

def itemLimit : ℕ :=
  min pageSize (if s.jobExhausted then s.remaining else max 1 ((s.remaining + 1) / 2))

/-- The items' turn, with the rows it swept. -/
def itemPass : SweepState × ℕ :=
  if s.itemExhausted then (s, 0)
  else
    let limit := itemLimit pageSize s
    let count := (sweepCandidates now limit unlocked s.jobs s.items).length
    let requeue := requeueExpiredItemLeases now limit unlocked s.jobs s.items
    ({ s with
        items := requeue.1
        affectedBatchIds := s.affectedBatchIds ++ requeue.2.filter (· ≠ "")
        itemCount := s.itemCount + count
        remaining := s.remaining - count
        itemExhausted := decide (count < limit) }, count)

/-- The jobs' turn, with the rows it swept. -/
def jobPass : SweepState × ℕ :=
  if s.jobExhausted ∨ s.remaining = 0 then (s, 0)
  else
    let limit := min pageSize s.remaining
    let count := (releaseCandidates now limit s.jobs).length
    ({ s with
        jobs := releaseExpiredJobLeases now limit unlocked s.jobs
        jobCount := s.jobCount + count
        remaining := s.remaining - count
        jobExhausted := decide (count < limit) }, count)

end Passes

/-- The while loop, none when the fuel runs out. -/
def sweepLoop (now : Timestamp) (pageSize : ℕ) : ℕ → SweepState → Option SweepState
  | 0, _ => none
  | fuel + 1, s =>
      if s.remaining = 0 ∨ (s.itemExhausted ∧ s.jobExhausted) then some s
      else
        let (afterItems, items) := itemPass now pageSize s
        let (afterJobs, jobs) := jobPass now pageSize afterItems
        if items + jobs = 0 then some afterJobs else sweepLoop now pageSize fuel afterJobs

/-- `_count_active_item_leases`. -/
def countActiveItemLeases (now : Timestamp) (limit : ℕ) (items : List BatchItemRow) : ℕ :=
  min limit (items.countP fun item => item.status = .inProgress ∧ item.lockedBy ≠ none ∧
    ∃ expiry ∈ item.leaseExpiresAt, now ≤ expiry)

/-- `_count_active_job_leases`. -/
def countActiveJobLeases (now : Timestamp) (limit : ℕ) (jobs : List BatchJobRow) : ℕ :=
  min limit (jobs.countP fun job => job.status.terminal = false ∧ job.lockedBy ≠ none ∧
    ∃ expiry ∈ job.leaseExpiresAt, now ≤ expiry)

/-- The tables after a sweep and the counts that it returns. -/
structure SweepResult where
  jobs : List BatchJobRow
  items : List BatchItemRow
  itemCount : ℕ
  jobCount : ℕ
  refreshedJobs : ℕ
  skippedActiveItems : ℕ
  skippedActiveJobs : ℕ

def boundedPageSize (pageSize : ℕ) : ℕ := max 1 (min pageSize leaseSweepMaxPageSize)

def boundedRows (maxRowsPerRun : ℕ) : ℕ := min maxRowsPerRun leaseSweepMaxRowsPerRun

def initialSweep (maxRowsPerRun : ℕ) (jobs : List BatchJobRow) (items : List BatchItemRow) :
    SweepState :=
  { jobs, items, remaining := boundedRows maxRowsPerRun
    itemExhausted := boundedRows maxRowsPerRun = 0
    jobExhausted := boundedRows maxRowsPerRun = 0 }

/-- The jobs that the refresh counts again. -/
def refreshedBatchIds (s : SweepState) : List String :=
  boundedBatchIds (min leaseSweepMaxRowsPerRun s.affectedBatchIds.dedup.length) s.affectedBatchIds

/-- `sweep_expired_batch_leases`. -/
def sweepExpiredBatchLeases (now : Timestamp) (pageSize maxRowsPerRun fuel : ℕ)
    (jobs : List BatchJobRow) (items : List BatchItemRow) : Option SweepResult :=
  (sweepLoop now (boundedPageSize pageSize) fuel (initialSweep maxRowsPerRun jobs items)).map
    fun s =>
      let limit := min leaseSweepMaxRowsPerRun s.affectedBatchIds.dedup.length
      let jobs := refreshJobProgressForBatches now limit s.affectedBatchIds unlocked s.jobs s.items
      { jobs := jobs
        items := s.items
        itemCount := s.itemCount
        jobCount := s.jobCount
        refreshedJobs := s.jobs.countP fun job => job.batchId ∈ refreshedBatchIds s ∧
          ∃ item ∈ s.items, item.batchId = job.batchId
        skippedActiveItems := countActiveItemLeases now (boundedPageSize pageSize) s.items
        skippedActiveJobs := countActiveJobLeases now (boundedPageSize pageSize) jobs }

section Invariant

variable (now : Timestamp) (jobs : List BatchJobRow) (items : List BatchItemRow) (budget : ℕ)

/-- Items and jobs that a sweep may still take. -/
def itemsLeft (s : SweepState) : ℕ := s.items.countP fun item => SweepableItem now jobs item

def jobsLeft (s : SweepState) : ℕ := s.jobs.countP fun job => ExpiredJob now job

/-- The tables after some turns: these items are requeued, these jobs are released, and every other
row is as it was. -/
structure SweptBy (s : SweepState) (requeued released : List String) : Prop where
  itemTable : s.items = rewritten BatchItemRow.itemId requeueRow requeued items
  jobTable : s.jobs = rewritten BatchJobRow.batchId releaseLeaseRow released jobs
  drainedItems : Drained BatchItemRow.itemId (SweepableItem now jobs) items requeued
  drainedJobs : Drained BatchJobRow.batchId (ExpiredJob now) jobs released
  itemCount : s.itemCount = requeued.length
  jobCount : s.jobCount = released.length
  budget : s.itemCount + s.jobCount + s.remaining = budget
  affected : ∀ batchId, batchId ∈ s.affectedBatchIds ↔
    batchId ≠ "" ∧ ∃ item ∈ items, item.itemId ∈ requeued ∧ item.batchId = batchId
  affected_length : s.affectedBatchIds.length ≤ s.itemCount
  itemExhausted : s.itemExhausted = true → s.remaining = 0 ∨ itemsLeft now jobs s = 0
  jobExhausted : s.jobExhausted = true → s.remaining = 0 ∨ jobsLeft now s = 0

/-- Primary keys. -/
structure Keyed : Prop where
  items : (items.map BatchItemRow.itemId).Nodup
  jobs : (jobs.map BatchJobRow.batchId).Nodup

variable {now jobs items budget} {s : SweepState} {requeued released : List String}
  {pageSize : ℕ}

theorem sweepableItem_requeueRow (item : BatchItemRow) :
    ¬SweepableItem now jobs (requeueRow item) := by
  rintro ⟨-, hstatus, -⟩
  cases hstatus

theorem expiredJob_releaseLeaseRow (job : BatchJobRow) : ¬ExpiredJob now (releaseLeaseRow job) := by
  rintro ⟨-, hlocked, -⟩
  exact hlocked rfl

/-- Releasing leases changes no job's status. -/
theorem sweepableItem_released (item : BatchItemRow) :
    SweepableItem now (rewritten BatchJobRow.batchId releaseLeaseRow released jobs) item ↔
      SweepableItem now jobs item := by
  have hjob : (∃ job ∈ rewritten BatchJobRow.batchId releaseLeaseRow released jobs,
      job.batchId = item.batchId ∧ job.status.terminal = false) ↔
        ∃ job ∈ jobs, job.batchId = item.batchId ∧ job.status.terminal = false := by
    constructor
    · rintro ⟨job, hjob, hid, hstatus⟩
      obtain ⟨old, hold, rfl⟩ := List.mem_map.mp hjob
      refine ⟨old, hold, ?_, ?_⟩
      · split_ifs at hid <;> exact hid
      · split_ifs at hstatus <;> exact hstatus
    · rintro ⟨job, hjob, hid, hstatus⟩
      refine ⟨_, List.mem_map_of_mem hjob, ?_, ?_⟩
      · split_ifs <;> exact hid
      · split_ifs <;> exact hstatus
  unfold SweepableItem
  rw [hjob]

theorem SweptBy.counts (h : SweptBy now jobs items budget s requeued released)
    (hkeyed : Keyed jobs items) :
    itemsLeft now jobs s + s.itemCount = items.countP (fun item => SweepableItem now jobs item) ∧
      jobsLeft now s + s.jobCount = jobs.countP fun job => ExpiredJob now job := by
  rw [itemsLeft, jobsLeft, h.itemTable, h.jobTable, h.itemCount, h.jobCount]
  exact ⟨countP_add_length sweepableItem_requeueRow hkeyed.items h.drainedItems,
    countP_add_length expiredJob_releaseLeaseRow hkeyed.jobs h.drainedJobs⟩

theorem sweptBy_initial (maxRowsPerRun : ℕ) :
    SweptBy now jobs items (boundedRows maxRowsPerRun) (initialSweep maxRowsPerRun jobs items)
      [] [] := by
  refine ⟨(rewritten_nil ..).symm, (rewritten_nil ..).symm, drained_nil _ _, drained_nil _ _, rfl,
    rfl, ?_, ?_, Nat.zero_le _, ?_, ?_⟩
  · simp [initialSweep]
  · simp [initialSweep]
  · exact fun hnone => Or.inl (of_decide_eq_true hnone)
  · exact fun hnone => Or.inl (of_decide_eq_true hnone)

/-- The items' turn requeues what it may and can. -/
theorem itemPass_swept (hkeyed : Keyed jobs items) (hpage : 0 < pageSize)
    (h : SweptBy now jobs items budget s requeued released) (hremaining : 0 < s.remaining) :
    ∃ requeued', SweptBy now jobs items budget (itemPass now pageSize s).1 requeued' released ∧
      (itemPass now pageSize s).1.remaining + (itemPass now pageSize s).2 = s.remaining ∧
      (itemPass now pageSize s).1.jobExhausted = s.jobExhausted ∧
      ((itemPass now pageSize s).2 = 0 → (itemPass now pageSize s).1.itemExhausted = true) := by
  by_cases hexhausted : s.itemExhausted = true
  · rw [itemPass, if_pos hexhausted]
    exact ⟨requeued, h, rfl, rfl, fun _ => hexhausted⟩
  rw [itemPass, if_neg hexhausted]
  have hcandidates : sweepCandidates now (itemLimit pageSize s) unlocked s.jobs s.items =
      selectFirst (SweepableItem now jobs) leaseOrder (itemLimit pageSize s)
        (rewritten BatchItemRow.itemId requeueRow requeued items) := by
    rw [sweepCandidates, h.itemTable, h.jobTable]
    refine selectFirst_congr (fun item _ => ?_) fun a b => Iff.rfl
    rw [sweepableItem_released]
    simp [unlocked]
  have hstep := Drained.step leaseOrder (itemLimit pageSize s) sweepableItem_requeueRow
    (fun _ => rfl) hkeyed.items h.drainedItems
  simp only [requeueExpiredItemLeases, hcandidates]
  generalize selectFirst (SweepableItem now jobs) leaseOrder (itemLimit pageSize s)
    (rewritten BatchItemRow.itemId requeueRow requeued items) = candidates at hstep ⊢
  obtain ⟨hdrained, htable, hlength, hsource⟩ := hstep
  have hcandidate : ∀ item ∈ items, item.itemId ∈ candidates.map BatchItemRow.itemId →
      item ∈ candidates := by
    intro item hitem hid
    obtain ⟨candidate, hmem, hsame⟩ := List.mem_map.mp hid
    obtain rfl := List.inj_on_of_nodup_map hkeyed.items hitem (hsource _ hmem).1 hsame.symm
    exact hmem
  have hlimit : itemLimit pageSize s ≤ s.remaining ∧ 0 < itemLimit pageSize s := by
    unfold itemLimit
    split_ifs <;> omega
  have hleft : itemsLeft now jobs s = (rewritten BatchItemRow.itemId requeueRow requeued
      items).countP fun item => SweepableItem now jobs item := by
    rw [itemsLeft, h.itemTable]
  have hbefore := countP_add_length sweepableItem_requeueRow hkeyed.items h.drainedItems
  have hafter := countP_add_length sweepableItem_requeueRow hkeyed.items hdrained
  refine ⟨requeued ++ candidates.map BatchItemRow.itemId,
    ⟨?_, h.jobTable, hdrained, h.drainedJobs, ?_,
    h.jobCount, ?_, fun batchId => ?_, ?_, fun hshort => ?_, fun hdone => ?_⟩, ?_, trivial, ?_⟩
  · rw [h.itemTable]
    exact htable
  · simp [h.itemCount]
  · have hbudget := h.budget
    simp only
    omega
  · rw [List.mem_append, h.affected]
    simp only [List.mem_filter, List.mem_map, decide_eq_true_eq, List.mem_append]
    constructor
    · rintro (⟨hblank, item, hitem, hid, hbatch⟩ | ⟨⟨item, hmem, hbatch⟩, hblank⟩)
      · exact ⟨hblank, item, hitem, Or.inl hid, hbatch⟩
      · exact ⟨hblank, item, (hsource item hmem).1, Or.inr ⟨item, hmem, rfl⟩, hbatch⟩
    · rintro ⟨hblank, item, hitem, hid | hid, hbatch⟩
      · exact Or.inl ⟨hblank, item, hitem, hid, hbatch⟩
      · have hmem := hcandidate item hitem (List.mem_map.mpr hid)
        exact Or.inr ⟨⟨item, hmem, hbatch⟩, hblank⟩
  · have hfilter := List.length_filter_le (fun batchId => decide (batchId ≠ ""))
      (candidates.map BatchItemRow.batchId)
    have hold := h.affected_length
    simp only [List.length_append, List.length_map] at hfilter ⊢
    omega
  · right
    have hshort' : candidates.length < itemLimit pageSize s := of_decide_eq_true hshort
    rw [List.length_append, List.length_map] at hafter
    simp only [itemsLeft, h.itemTable]
    rw [htable]
    omega
  · rcases h.jobExhausted hdone with hzero | hnone
    · omega
    · exact Or.inr hnone
  · omega
  · intro hzero
    simp only [hzero, decide_eq_true_eq]
    exact hlimit.2

/-- The jobs' turn releases what it may and can. -/
theorem jobPass_swept (hkeyed : Keyed jobs items) (hpage : 0 < pageSize)
    (h : SweptBy now jobs items budget s requeued released) :
    ∃ released', SweptBy now jobs items budget (jobPass now pageSize s).1 requeued released' ∧
      (jobPass now pageSize s).1.remaining + (jobPass now pageSize s).2 = s.remaining ∧
      (jobPass now pageSize s).1.itemExhausted = s.itemExhausted ∧
      ((jobPass now pageSize s).2 = 0 →
        s.remaining = 0 ∨ (jobPass now pageSize s).1.jobExhausted = true) := by
  by_cases hskip : s.jobExhausted = true ∨ s.remaining = 0
  · rw [jobPass, if_pos hskip]
    exact ⟨released, h, rfl, rfl, fun _ => hskip.symm⟩
  rw [jobPass, if_neg hskip]
  have hremaining : 0 < s.remaining := by
    rcases Nat.eq_zero_or_pos s.remaining with hzero | hpos
    · exact absurd (Or.inr hzero) hskip
    · exact hpos
  have hcandidates : selectFirst (fun job => job.status.terminal = false ∧ job.lockedBy ≠ none ∧
      leaseExpired job.leaseExpiresAt now ∧ unlocked job.batchId = false) jobLeaseOrder
        (min pageSize s.remaining) s.jobs =
      selectFirst (ExpiredJob now) jobLeaseOrder (min pageSize s.remaining) s.jobs :=
    selectFirst_congr (fun job _ => by simp [ExpiredJob, unlocked]) fun a b => Iff.rfl
  have hstep := Drained.step jobLeaseOrder (min pageSize s.remaining) expiredJob_releaseLeaseRow
    (fun _ => rfl) hkeyed.jobs h.drainedJobs
  simp only [releaseExpiredJobLeases, releaseCandidates, hcandidates]
  simp only [h.jobTable]
  generalize selectFirst (ExpiredJob now) jobLeaseOrder (min pageSize s.remaining)
    (rewritten BatchJobRow.batchId releaseLeaseRow released jobs) = candidates at hstep ⊢
  obtain ⟨hdrained, htable, hlength, -⟩ := hstep
  have hbefore := countP_add_length expiredJob_releaseLeaseRow hkeyed.jobs h.drainedJobs
  have hafter := countP_add_length expiredJob_releaseLeaseRow hkeyed.jobs hdrained
  refine ⟨released ++ candidates.map BatchJobRow.batchId, ⟨h.itemTable, htable, h.drainedItems,
    hdrained, h.itemCount, ?_, ?_, h.affected, h.affected_length, fun hdone => ?_,
    fun hshort => ?_⟩, ?_, trivial, ?_⟩
  · simp [h.jobCount]
  · have hbudget := h.budget
    simp only
    omega
  · rcases h.itemExhausted hdone with hzero | hnone
    · omega
    · exact Or.inr hnone
  · right
    have hshort' : candidates.length < min pageSize s.remaining := of_decide_eq_true hshort
    rw [List.length_append, List.length_map] at hafter
    simp only [jobsLeft]
    rw [htable]
    omega
  · omega
  · intro hzero
    right
    simp only [hzero, decide_eq_true_eq]
    omega

/-- Every round that does not stop takes rows from the budget, so the loop stops, and then either
the budget is spent or nothing is left. -/
theorem sweepLoop_swept (hkeyed : Keyed jobs items) (hpage : 0 < pageSize) (fuel : ℕ)
    (h : SweptBy now jobs items budget s requeued released) (hfuel : s.remaining < fuel) :
    ∃ s' requeued' released', sweepLoop now pageSize fuel s = some s' ∧
      SweptBy now jobs items budget s' requeued' released' ∧
      (s'.remaining = 0 ∨ (itemsLeft now jobs s' = 0 ∧ jobsLeft now s' = 0)) := by
  induction fuel generalizing s requeued released with
  | zero => omega
  | succ fuel ih =>
      rw [sweepLoop]
      by_cases hstop : s.remaining = 0 ∨ (s.itemExhausted ∧ s.jobExhausted)
      · rw [if_pos hstop]
        refine ⟨s, requeued, released, rfl, h, ?_⟩
        rcases hstop with hzero | ⟨hitems, hjobs⟩
        · exact Or.inl hzero
        · rcases h.itemExhausted hitems with hzero | hitemsLeft
          · exact Or.inl hzero
          · rcases h.jobExhausted hjobs with hzero | hjobsLeft
            · exact Or.inl hzero
            · exact Or.inr ⟨hitemsLeft, hjobsLeft⟩
      rw [if_neg hstop]
      have hremaining : 0 < s.remaining := by
        rcases Nat.eq_zero_or_pos s.remaining with hzero | hpos
        · exact absurd (Or.inl hzero) hstop
        · exact hpos
      obtain ⟨requeued', hitems, hitemRows, -, hitemsDone⟩ :=
        itemPass_swept hkeyed hpage h hremaining
      obtain ⟨released', hjobs, hjobRows, hkept, hjobsDone⟩ := jobPass_swept hkeyed hpage hitems
      simp only
      by_cases hnone : (itemPass now pageSize s).2 +
        (jobPass now pageSize (itemPass now pageSize s).1).2 = 0
      · rw [if_pos hnone]
        refine ⟨_, requeued', released', rfl, hjobs, ?_⟩
        have hitemsExhausted := hitemsDone (by omega)
        rw [← hkept] at hitemsExhausted
        rcases hjobsDone (by omega) with hzero | hjobsExhausted
        · omega
        · rcases hjobs.itemExhausted hitemsExhausted with hzero | hitemsLeft
          · exact Or.inl hzero
          · rcases hjobs.jobExhausted hjobsExhausted with hzero | hjobsLeft
            · exact Or.inl hzero
            · exact Or.inr ⟨hitemsLeft, hjobsLeft⟩
      · rw [if_neg hnone]
        exact ih hjobs (by omega)

end Invariant

section Outcome

/-- The rows that a sweep leaves: this item, when these items were requeued. -/
def sweptItem (requeued : List String) (item : BatchItemRow) : BatchItemRow :=
  if item.itemId ∈ requeued then requeueRow item else item

/-- An item of this job was requeued. -/
def Recounted (requeued : List String) (items : List BatchItemRow) (job : BatchJobRow) : Prop :=
  job.batchId ≠ "" ∧ ∃ item ∈ items, item.itemId ∈ requeued ∧ item.batchId = job.batchId

instance (requeued : List String) (items : List BatchItemRow) (job : BatchJobRow) :
    Decidable (Recounted requeued items job) := by
  unfold Recounted
  exact inferInstance

/-- And this job, when these jobs were released as well. -/
def sweptJob (now : Timestamp) (requeued released : List String) (items : List BatchItemRow)
    (job : BatchJobRow) : BatchJobRow :=
  let kept := if job.batchId ∈ released then releaseLeaseRow job else job
  if Recounted requeued items job then
    refreshRow now (progressStats job.batchId (items.map (sweptItem requeued))) kept
  else kept

structure JobCounters where
  totalItems : ℕ
  inProgressItems : ℕ
  completedItems : ℕ
  failedItems : ℕ
  cancelledItems : ℕ
  remainingWorkUnits : ℕ
  deriving DecidableEq

def jobCounters (job : BatchJobRow) : JobCounters :=
  { totalItems := job.totalItems
    inProgressItems := job.inProgressItems
    completedItems := job.completedItems
    failedItems := job.failedItems
    cancelledItems := job.cancelledItems
    remainingWorkUnits := job.remainingWorkUnits }

def recount (batchId : String) (items : List BatchItemRow) : JobCounters :=
  let stats := progressStats batchId items
  { totalItems := stats.totalItems
    inProgressItems := stats.inProgressItems
    completedItems := stats.completedItems
    failedItems := stats.failedItems
    cancelledItems := stats.cancelledItems
    remainingWorkUnits := stats.remainingWorkUnits }

/-- The counters of the job are a recount of its items. -/
def CountersMatch (items : List BatchItemRow) (job : BatchJobRow) : Prop :=
  jobCounters job = recount job.batchId items

instance (items : List BatchItemRow) (job : BatchJobRow) : Decidable (CountersMatch items job) :=
  inferInstanceAs (Decidable (jobCounters job = recount job.batchId items))

variable {now : Timestamp} {jobs : List BatchJobRow} {items : List BatchItemRow}
  {requeued released : List String}

/-- Within the limit every batch is refreshed. -/
theorem mem_boundedBatchIds {limit : ℕ} {batchIds : List String} {batchId : String}
    (hlimit : batchIds.dedup.length ≤ limit) :
    batchId ∈ boundedBatchIds limit batchIds ↔ batchId ∈ batchIds ∧ batchId ≠ "" := by
  have hfits : ((batchIds.dedup.filter fun batchId => batchId ≠ "").insertionSort
      (· ≤ ·)).length ≤ limit := by
    rw [List.length_insertionSort]
    exact (List.length_filter_le _ _).trans hlimit
  rw [boundedBatchIds, List.take_of_length_le hfits, List.mem_insertionSort, List.mem_filter,
    List.mem_dedup, decide_eq_true_eq]

theorem sweptItem_batchId (item : BatchItemRow) :
    (sweptItem requeued item).batchId = item.batchId := by
  unfold sweptItem
  split_ifs <;> rfl

theorem sweptJob_batchId (job : BatchJobRow) :
    (sweptJob now requeued released items job).batchId = job.batchId := by
  simp only [sweptJob]
  split_ifs <;> rfl

/-- The job refresh after the loop. -/
theorem refreshed_jobs {limit : ℕ} {affected : List String} (hlimit : affected.dedup.length ≤ limit)
    (haffected : ∀ batchId, batchId ∈ affected ↔
      batchId ≠ "" ∧ ∃ item ∈ items, item.itemId ∈ requeued ∧ item.batchId = batchId) :
    refreshJobProgressForBatches now limit affected unlocked
        (rewritten BatchJobRow.batchId releaseLeaseRow released jobs)
        (rewritten BatchItemRow.itemId requeueRow requeued items) =
      jobs.map (sweptJob now requeued released items) := by
  have hreleased : rewritten BatchJobRow.batchId releaseLeaseRow released jobs =
      jobs.map fun job => if job.batchId ∈ released then releaseLeaseRow job else job := rfl
  rw [refreshJobProgressForBatches, hreleased, List.map_map]
  refine List.map_congr_left fun job _ => ?_
  have hkept : (if job.batchId ∈ released then releaseLeaseRow job else job).batchId =
      job.batchId := by
    split_ifs <;> rfl
  have hrecounted : ((if job.batchId ∈ released then releaseLeaseRow job else job).batchId ∈
      boundedBatchIds limit affected ∧
        unlocked (if job.batchId ∈ released then releaseLeaseRow job else job).batchId = false ∧
        ∃ item ∈ rewritten BatchItemRow.itemId requeueRow requeued items, item.batchId =
          (if job.batchId ∈ released then releaseLeaseRow job else job).batchId) ↔
      Recounted requeued items job := by
    rw [hkept, mem_boundedBatchIds hlimit, haffected]
    constructor
    · rintro ⟨⟨⟨hblank, hitem⟩, -⟩, -, -⟩
      exact ⟨hblank, hitem⟩
    · rintro ⟨hblank, item, hitem, hid, hbatch⟩
      exact ⟨⟨⟨hblank, item, hitem, hid, hbatch⟩, hblank⟩, rfl, _,
        List.mem_map_of_mem hitem, (sweptItem_batchId item).trans hbatch⟩
  simp only [Function.comp_apply, sweptJob]
  by_cases h : Recounted requeued items job
  · rw [if_pos (hrecounted.mpr h), if_pos h, hkept]
    rfl
  · rw [if_neg fun hmem => h (hrecounted.mp hmem), if_neg h]

/-- A sweep that found nothing of this job leaves its recount as it was. -/
theorem progressStats_swept {batchId : String}
    (hnone : ∀ item ∈ items, item.batchId = batchId → item.itemId ∉ requeued) :
    progressStats batchId (items.map (sweptItem requeued)) = progressStats batchId items := by
  have hown : ((items.map (sweptItem requeued)).filter fun item => item.batchId = batchId) =
      items.filter fun item => item.batchId = batchId := by
    rw [List.filter_map]
    have hsame : (items.filter ((fun item => decide (item.batchId = batchId)) ∘
        sweptItem requeued)) = items.filter fun item => item.batchId = batchId :=
      List.filter_congr fun item _ => by simp [sweptItem_batchId]
    rw [hsame]
    refine (List.map_congr_left fun item hitem => ?_).trans (List.map_id _)
    obtain ⟨hmem, hbatch⟩ := List.mem_filter.mp hitem
    exact if_neg (hnone item hmem (of_decide_eq_true hbatch))
  unfold progressStats
  rw [hown]

/-- The refresh writes a recount, and a release writes no counter. -/
theorem sweptJob_countersMatch {job : BatchJobRow} (hnamed : job.batchId ≠ "")
    (h : Recounted requeued items job ∨ CountersMatch items job) :
    CountersMatch (items.map (sweptItem requeued)) (sweptJob now requeued released items job) := by
  by_cases hrecounted : Recounted requeued items job
  · rw [CountersMatch, sweptJob_batchId]
    simp only [sweptJob, if_pos hrecounted]
    rfl
  · have hnone : ∀ item ∈ items, item.batchId = job.batchId → item.itemId ∉ requeued :=
      fun item hitem hbatch hid => hrecounted ⟨hnamed, item, hitem, hid, hbatch⟩
    have hmatch := h.resolve_left hrecounted
    have hstats := progressStats_swept hnone
    have hkept : jobCounters (sweptJob now requeued released items job) = jobCounters job := by
      simp only [sweptJob, if_neg hrecounted]
      split_ifs <;> rfl
    rw [CountersMatch, sweptJob_batchId, hkept, h.resolve_left hrecounted, recount, recount, hstats]

/-- What a sweep does to the tables when it requeues these items and releases these jobs. -/
structure SweepOutcome (now : Timestamp) (maxRowsPerRun : ℕ) (jobs : List BatchJobRow)
    (items : List BatchItemRow) (result : SweepResult) (requeued released : List String) :
    Prop where
  requeuedItems : Drained BatchItemRow.itemId (SweepableItem now jobs) items requeued
  releasedJobs : Drained BatchJobRow.batchId (ExpiredJob now) jobs released
  counts : result.itemCount = requeued.length ∧ result.jobCount = released.length
  swept : result.itemCount + result.jobCount = min (boundedRows maxRowsPerRun)
    (items.countP (fun item => SweepableItem now jobs item) +
      jobs.countP fun job => ExpiredJob now job)
  itemRows : result.items = items.map (sweptItem requeued)
  jobRows : result.jobs = jobs.map (sweptJob now requeued released items)

theorem sweep_outcome (now : Timestamp) (hkeyed : Keyed jobs items) (pageSize maxRowsPerRun : ℕ)
    {fuel : ℕ} (hfuel : boundedRows maxRowsPerRun < fuel) :
    ∃ result requeued released,
      sweepExpiredBatchLeases now pageSize maxRowsPerRun fuel jobs items = some result ∧
        SweepOutcome now maxRowsPerRun jobs items result requeued released := by
  have hpage : 0 < boundedPageSize pageSize := Nat.lt_of_lt_of_le Nat.zero_lt_one (le_max_left _ _)
  have hinitial : SweptBy now jobs items (boundedRows maxRowsPerRun)
      (initialSweep maxRowsPerRun jobs items) [] [] := sweptBy_initial maxRowsPerRun
  obtain ⟨s, requeued, released, hloop, h, hdone⟩ :=
    sweepLoop_swept hkeyed hpage fuel hinitial hfuel
  obtain ⟨hitems, hjobs⟩ := h.counts hkeyed
  have hbudget := h.budget
  have hlimit : s.affectedBatchIds.dedup.length ≤
      min leaseSweepMaxRowsPerRun s.affectedBatchIds.dedup.length := by
    have hdedup := (List.dedup_sublist s.affectedBatchIds).length_le
    have haffected := h.affected_length
    have hcap : boundedRows maxRowsPerRun ≤ leaseSweepMaxRowsPerRun := min_le_right _ _
    omega
  refine ⟨_, requeued, released, by rw [sweepExpiredBatchLeases, hloop, Option.map_some],
    h.drainedItems, h.drainedJobs, ⟨h.itemCount, h.jobCount⟩, ?_, h.itemTable, ?_⟩
  · simp only
    rcases hdone with hzero | ⟨hitemsLeft, hjobsLeft⟩ <;> omega
  · simp only [h.jobTable, h.itemTable]
    exact refreshed_jobs hlimit h.affected

variable {maxRowsPerRun : ℕ} {result : SweepResult}

/-- A row whose key was swept is the row that qualified. -/
theorem qualified_of_mem {ρ : Type*} {key : ρ → String} {p : ρ → Prop} {rows : List ρ}
    {keys : List String} (hunique : (rows.map key).Nodup) (h : Drained key p rows keys) {row : ρ}
    (hrow : row ∈ rows) (hkey : key row ∈ keys) : p row := by
  obtain ⟨source, hsource, hsame, hp⟩ := h.source _ hkey
  obtain rfl := List.inj_on_of_nodup_map hunique hsource hrow hsame
  exact hp

/-- Only jobs with a swept item are counted again, and those are live. -/
theorem recounted_live (hkeyed : Keyed jobs items)
    (h : Drained BatchItemRow.itemId (SweepableItem now jobs) items requeued) {job : BatchJobRow}
    (hjob : job ∈ jobs) (hrecounted : Recounted requeued items job) :
    job.status.terminal = false := by
  obtain ⟨-, item, hitem, hid, hbatch⟩ := hrecounted
  obtain ⟨⟨live, hlive, hsame, hstatus⟩, -⟩ := qualified_of_mem hkeyed.items h hitem hid
  obtain rfl := List.inj_on_of_nodup_map hkeyed.jobs hlive hjob (hsame.trans hbatch)
  exact hstatus

namespace SweepOutcome

variable (h : SweepOutcome now maxRowsPerRun jobs items result requeued released)
include h

theorem other_item (hkeyed : Keyed jobs items) {item : BatchItemRow} (hitem : item ∈ items)
    (hother : item.status.terminal = true ∨ ¬leaseExpired item.leaseExpiresAt now) :
    sweptItem requeued item = item := by
  refine if_neg fun hid => ?_
  obtain ⟨-, hstatus, -, hexpired⟩ := qualified_of_mem hkeyed.items h.requeuedItems hitem hid
  rcases hother with hterminal | hlive
  · rw [hstatus] at hterminal
    cases hterminal
  · exact hlive hexpired

theorem terminal_job (hkeyed : Keyed jobs items) {job : BatchJobRow} (hjob : job ∈ jobs)
    (hterminal : job.status.terminal = true) :
    sweptJob now requeued released items job = job := by
  have hnot : job.batchId ∉ released := by
    intro hid
    have hstatus := (qualified_of_mem hkeyed.jobs h.releasedJobs hjob hid).1
    rw [hterminal] at hstatus
    cases hstatus
  have hnone : ¬Recounted requeued items job := by
    intro hrecounted
    have hstatus := recounted_live hkeyed h.requeuedItems hjob hrecounted
    rw [hterminal] at hstatus
    cases hstatus
  simp only [sweptJob, if_neg hnot, if_neg hnone]

theorem live_job (hkeyed : Keyed jobs items) {job : BatchJobRow} (hjob : job ∈ jobs)
    (hlive : ¬leaseExpired job.leaseExpiresAt now) :
    (sweptJob now requeued released items job).lockedBy = job.lockedBy ∧
      (sweptJob now requeued released items job).leaseExpiresAt = job.leaseExpiresAt := by
  have hnot : job.batchId ∉ released := fun hid =>
    hlive (qualified_of_mem hkeyed.jobs h.releasedJobs hjob hid).2.2
  simp only [sweptJob, if_neg hnot]
  split_ifs <;> exact ⟨rfl, rfl⟩

end SweepOutcome

end Outcome

/-- A sweep stops, takes exactly as many expired rows as its budget allows, leaves terminal rows
and live leases alone, and counts the jobs of the requeued items again. -/
theorem expired_leases_swept (now : Timestamp) (pageSize maxRowsPerRun : ℕ) {fuel : ℕ}
    {jobs : List BatchJobRow} {items : List BatchItemRow} (hkeyed : Keyed jobs items)
    (hfuel : boundedRows maxRowsPerRun < fuel) :
    ∃ result requeued released,
      sweepExpiredBatchLeases now pageSize maxRowsPerRun fuel jobs items = some result ∧
        SweepOutcome now maxRowsPerRun jobs items result requeued released ∧
        (∀ item ∈ items, item.status.terminal = true ∨ ¬leaseExpired item.leaseExpiresAt now →
          sweptItem requeued item = item) ∧
        (∀ job ∈ jobs, job.status.terminal = true →
          sweptJob now requeued released items job = job) ∧
        (∀ job ∈ jobs, ¬leaseExpired job.leaseExpiresAt now →
          (sweptJob now requeued released items job).lockedBy = job.lockedBy ∧
            (sweptJob now requeued released items job).leaseExpiresAt = job.leaseExpiresAt) ∧
        ∀ job ∈ jobs, job.batchId ≠ "" →
          Recounted requeued items job ∨ CountersMatch items job →
            CountersMatch result.items (sweptJob now requeued released items job) := by
  obtain ⟨result, requeued, released, hresult, h⟩ :=
    sweep_outcome now hkeyed pageSize maxRowsPerRun hfuel
  refine ⟨result, requeued, released, hresult, h, fun item => h.other_item hkeyed,
    fun job => h.terminal_job hkeyed, fun job => h.live_job hkeyed, fun job _ hnamed hcounted => ?_⟩
  rw [h.itemRows]
  exact sweptJob_countersMatch hnamed hcounted

namespace StaleTables

def runningItem : BatchItemRow :=
  { createdItem "item-1" "batch-1" 1 "a" [] 2 with
    status := .inProgress, lockedBy := some "worker-1", leaseExpiresAt := some 10 }

/-- A job whose own lease lives, with an item whose lease ran out. -/
def leasedJob : BatchJobRow :=
  { createdJob "batch-1" "/v1/embeddings" 0 with
    status := .inProgress, lockedBy := some "worker-2", leaseExpiresAt := some 90 }

/-- No item of this job is swept, and its counters are off. -/
def driftedJob : BatchJobRow :=
  { createdJob "batch-2" "/v1/embeddings" 0 with status := .inProgress, completedItems := 3 }

def lapsedJob (n : ℕ) : BatchJobRow :=
  { createdJob (String.ofList (List.replicate n 'b')) "/v1/embeddings" 0 with
    status := .inProgress, lockedBy := some "worker-1", leaseExpiresAt := some 10 }

theorem keyed_lapsedJobs (n : ℕ) : Keyed ((List.range n).map lapsedJob) [] := by
  refine ⟨List.nodup_nil, ?_⟩
  rw [List.map_map]
  refine List.nodup_range.map_on fun a _ b _ hsame => ?_
  have hlength := congrArg (fun text => text.toList.length) hsame
  simpa [lapsedJob, createdJob] using hlength

theorem countP_lapsedJobs (n : ℕ) :
    ((List.range n).map lapsedJob).countP (fun job => ExpiredJob 50 job) = n := by
  rw [List.countP_eq_length.mpr, List.length_map, List.length_range]
  intro job hjob
  obtain ⟨k, -, rfl⟩ := List.mem_map.mp hjob
  exact decide_eq_true ⟨rfl, by simp [lapsedJob], 10, rfl, by decide⟩

end StaleTables

open StaleTables in
theorem expired_leases_swept_two_jobs :
    Keyed [leasedJob, driftedJob] [runningItem] ∧ boundedRows 7 < 8 ∧
      ∃ result requeued released,
        sweepExpiredBatchLeases 50 1 7 8 [leasedJob, driftedJob] [runningItem] = some result ∧
          SweepOutcome 50 7 [leasedJob, driftedJob] [runningItem] result requeued released ∧
          (sweptJob 50 requeued released [runningItem] leasedJob).leaseExpiresAt = some 90 := by
  have hkeyed : Keyed [leasedJob, driftedJob] [runningItem] := ⟨by decide, by decide⟩
  obtain ⟨result, requeued, released, hresult, h, -, -, hlive, -⟩ :=
    expired_leases_swept 50 1 7 hkeyed (show boundedRows 7 < 8 by decide)
  exact ⟨hkeyed, by decide, result, requeued, released, hresult, h,
    (hlive leasedJob (List.mem_cons_self ..) (by decide)).2⟩

open StaleTables in
/-- The budget is capped, a job with no swept item is not counted again, and a counted job may hold
a live lease. -/
theorem sweep_not_as_asked :
    (∃ result, sweepExpiredBatchLeases 50 1000 6000 5001 ((List.range 5001).map lapsedJob) [] =
        some result ∧ result.itemCount + result.jobCount = 5000) ∧
      (((List.range 5001).map lapsedJob).countP fun job => ExpiredJob 50 job) = 5001 ∧
      ∃ result, sweepExpiredBatchLeases 50 1 7 8 [leasedJob, driftedJob] [runningItem] =
        some result ∧ leasedJob.totalItems = 0 ∧ ¬leaseExpired leasedJob.leaseExpiresAt 50 ∧
          result.jobs.map BatchJobRow.totalItems = [1, 0] ∧
          ∀ job ∈ result.jobs, job.batchId = driftedJob.batchId →
            ¬CountersMatch result.items job := by
  refine ⟨?_, countP_lapsedJobs 5001, ?_⟩
  · obtain ⟨result, requeued, released, hresult, h⟩ :=
      sweep_outcome 50 (keyed_lapsedJobs 5001) 1000 6000 (show boundedRows 6000 < 5001 by decide)
    have hswept := h.swept
    rw [countP_lapsedJobs, List.countP_nil] at hswept
    exact ⟨result, hresult, hswept⟩
  · refine ⟨_, rfl, rfl, by decide, by decide, by decide⟩

end LeaseSweeps
