import DeltaLLM.PythonText
import DeltaLLM.BatchItemStatements
import DeltaLLM.BatchJobStatements
import Mathlib.Data.Prod.Lex
import Mathlib.Data.String.Basic
import Mathlib.Algebra.Order.Ring.Unbundled.Rat

/-! # The work-claim statement

One statement picks a job, locks a slice of its runnable items in line order and hands the
slice to a worker. Its filters, its job order and its item limits depend on the request.
-/
namespace BatchWorkClaim

open BatchRecords
open BatchItemStatements
open BatchJobStatements
open PythonText (strip stripOrEmpty lower)
open TableStatements

inductive ClaimOrder where
  | roundRobin | fifo | sizeAging
  deriving DecidableEq, Repr

/-- The arguments of `_claim_next_work_with_client`. -/
structure WorkClaimRequest where
  workerId : String
  maxItems : ℕ
  maxWorkUnits : ℕ
  leaseSeconds : ℕ
  allowedModelGroups : List String := []
  serviceTier : Option String := none
  legacyOnly : Bool := false
  claimOrder : ClaimOrder := .roundRobin
  capacityModelGroup : Option String := none
  capacityServiceTier : Option String := none
  capacityMaxInFlightItems : Option ℕ := none
  capacityMaxInFlightWorkUnits : Option ℕ := none
  tenantScopeType : Option String := none
  tenantScopeId : Option String := none
  allowOversizedFirstItem : Bool := true
  sizeAwareSchedulingEnabled : Bool := false
  agingSecondsPerWorkUnit : ℕ := 30
  maxAgeCreditWorkUnits : ℕ := 1000
  minLargeJobClaimIntervalSeconds : ℕ := 30
  workClaimMinItemsForMicrobatch : ℕ := 4

/-- Rows that other transactions hold locked; the statement skips them. -/
structure RowLocks where
  jobs : String → Bool
  items : String → Bool

def RowLocks.free : RowLocks := ⟨fun _ => false, fun _ => false⟩

namespace WorkClaimRequest

variable (request : WorkClaimRequest)

def boundedMaxItems : ℕ := max 1 (min request.maxItems 200)

def boundedMaxWorkUnits : ℕ := max 1 request.maxWorkUnits

def sizeAware : Bool :=
  request.sizeAwareSchedulingEnabled || request.claimOrder = .sizeAging

def modelGroupAdmits (job : BatchJobRow) : Prop :=
  let groups := (request.allowedModelGroups.map strip).filter fun group => group ≠ ""
  groups = [] ∨ ∃ group ∈ groups, job.schedulingModelGroup = some group

def serviceTierAdmits (job : BatchJobRow) : Prop :=
  stripOrEmpty request.serviceTier = "" ∨ job.serviceTier = stripOrEmpty request.serviceTier

def tenantAdmits (job : BatchJobRow) : Prop :=
  stripOrEmpty request.tenantScopeType = "" ∨ stripOrEmpty request.tenantScopeId = "" ∨
    (job.tenantScopeType = some (stripOrEmpty request.tenantScopeType) ∧
      job.tenantScopeId = some (stripOrEmpty request.tenantScopeId))

def legacyAdmits (job : BatchJobRow) : Prop :=
  request.legacyOnly = false ∨
    ((nonBlankText job.schedulerVersion).getD "fifo_v1" = "fifo_v1" ∧
      nonBlankText job.schedulingModelGroup = none)

instance (job : BatchJobRow) : Decidable (request.modelGroupAdmits job) := by
  unfold modelGroupAdmits
  exact inferInstance

instance (job : BatchJobRow) : Decidable (request.serviceTierAdmits job) := by
  unfold serviceTierAdmits
  exact inferInstance

instance (job : BatchJobRow) : Decidable (request.tenantAdmits job) := by
  unfold tenantAdmits
  exact inferInstance

instance (job : BatchJobRow) : Decidable (request.legacyAdmits job) := by
  unfold legacyAdmits
  exact inferInstance

end WorkClaimRequest

/-- `lease_expires_at IS NULL OR lease_expires_at > NOW()`. -/
def leaseLive (lease : Option Timestamp) (now : Timestamp) : Prop :=
  ∀ expiry ∈ lease, now < expiry

instance (lease : Option Timestamp) (now : Timestamp) : Decidable (leaseLive lease now) := by
  unfold leaseLive
  exact inferInstance

/-- `COALESCE(NULLIF(i.scheduling_model_group, ''), NULLIF(j.scheduling_model_group, ''))`. -/
def effectiveModelGroup (job : BatchJobRow) (item : BatchItemRow) : Option String :=
  nonBlankText item.schedulingModelGroup <|> nonBlankText job.schedulingModelGroup

/-- `COALESCE(NULLIF(j.service_tier, ''), 'standard')`. -/
def effectiveServiceTier (job : BatchJobRow) : String :=
  if job.serviceTier = "" then "standard" else job.serviceTier

/-- An item counts as in flight while its lease lasts, or when it has none. -/
def InFlight (now : Timestamp) (item : BatchItemRow) : Prop :=
  item.status = .inProgress ∧ leaseLive item.leaseExpiresAt now

instance (now : Timestamp) (item : BatchItemRow) : Decidable (InFlight now item) := by
  unfold InFlight
  exact inferInstance

structure CapacityState where
  remainingSlots : ℕ
  remainingWorkUnits : ℕ

/-- The `capacity_usage` rows: items in flight of one model group and service tier. -/
def capacityItems (now : Timestamp) (modelGroup serviceTier : String) (jobs : List BatchJobRow)
    (items : List BatchItemRow) : List BatchItemRow :=
  items.filter fun item => InFlight now item ∧
    ∃ job ∈ jobs, job.batchId = item.batchId ∧
      effectiveModelGroup job item = some modelGroup ∧ effectiveServiceTier job = serviceTier

/-- The `capacity_state` CTE, absent unless the request limits a model group. -/
def capacityState (request : WorkClaimRequest) (now : Timestamp) (jobs : List BatchJobRow)
    (items : List BatchItemRow) : Option CapacityState :=
  let group := stripOrEmpty request.capacityModelGroup
  let tier :=
    let given := stripOrEmpty (nonBlankText request.capacityServiceTier <|>
      nonBlankText request.serviceTier <|> some "standard")
    if given = "" then "standard" else given
  match request.capacityMaxInFlightItems with
  | none => none
  | some maxInFlight =>
      if group = "" then none
      else
        let usage := capacityItems now group tier jobs items
        some
          { remainingSlots := maxInFlight - usage.length
            remainingWorkUnits :=
              match request.capacityMaxInFlightWorkUnits with
              | none => request.boundedMaxWorkUnits
              | some maxUnits => maxUnits - (usage.map BatchItemRow.workUnits).sum }

/-- `work_unit_claim_limit_sql`. -/
def workUnitClaimLimit (request : WorkClaimRequest) (capacity : Option CapacityState) : ℕ :=
  match capacity with
  | none => request.boundedMaxWorkUnits
  | some state => min request.boundedMaxWorkUnits state.remainingWorkUnits

/-- The runnable items of a job in line order. -/
def runnableItems (now : Timestamp) (batchId : String) (items : List BatchItemRow) :
    List BatchItemRow :=
  (items.filter fun item => item.batchId = batchId ∧ item.Runnable now).insertionSort
    fun a b => a.lineNumber ≤ b.lineNumber

/-- The `head_item` subquery: the first runnable item. -/
def headItem (now : Timestamp) (batchId : String) (items : List BatchItemRow) :
    Option BatchItemRow :=
  (runnableItems now batchId items).head?

/-- `selected_job_head_work_filter_sql`. -/
def headWorkAdmits (request : WorkClaimRequest) (limit : ℕ) (head : BatchItemRow) : Prop :=
  request.allowOversizedFirstItem = true ∨ head.workUnits ≤ limit

instance (request : WorkClaimRequest) (limit : ℕ) (head : BatchItemRow) :
    Decidable (headWorkAdmits request limit head) := by
  unfold headWorkAdmits
  exact inferInstance

/-- The WHERE clause of `selected_job`. -/
def JobAdmitted (request : WorkClaimRequest) (now : Timestamp) (locks : RowLocks)
    (capacity : Option CapacityState) (items : List BatchItemRow) (job : BatchJobRow) : Prop :=
  WorkClaimable now job ∧ request.modelGroupAdmits job ∧ request.serviceTierAdmits job ∧
    request.tenantAdmits job ∧ request.legacyAdmits job ∧
    (∀ state ∈ capacity, 0 < state.remainingSlots ∧ 0 < state.remainingWorkUnits) ∧
    (∃ head ∈ headItem now job.batchId items,
      headWorkAdmits request (workUnitClaimLimit request capacity) head) ∧
    locks.jobs job.batchId = false

instance (request : WorkClaimRequest) (now : Timestamp) (locks : RowLocks)
    (capacity : Option CapacityState) (items : List BatchItemRow) (job : BatchJobRow) :
    Decidable (JobAdmitted request now locks capacity items job) := by
  unfold JobAdmitted
  exact inferInstance

section JobOrder

variable (request : WorkClaimRequest) (now : Timestamp)

/-- `GREATEST(COALESCE(j.remaining_work_units, …), 1)`; the column is never NULL. -/
def remainingWork (job : BatchJobRow) : ℚ := max job.remainingWorkUnits 1

/-- `LEAST(max_age_credit, GREATEST(0.0, age in seconds / aging_seconds))`, in exact rationals
where the database uses doubles. -/
def ageCredit (job : BatchJobRow) : ℚ :=
  min (request.maxAgeCreditWorkUnits : ℚ)
    (((now - BatchJobRow.queuedSince job : ℕ) : ℚ) / 1000000 /
      (max 1 (if request.agingSecondsPerWorkUnit = 0 then 30
        else request.agingSecondsPerWorkUnit) : ℕ))

def schedulerRank (job : BatchJobRow) : ℚ :=
  max 0 (remainingWork job - ageCredit request now job)

/-- `LOWER(COALESCE(NULLIF(j.size_class, ''), 'unknown')) IN ('l', 'xl')`. -/
def isLargeJob (job : BatchJobRow) : Bool :=
  let size := lower (if job.sizeClass = "" then "unknown" else job.sizeClass)
  size = "l" || size = "xl"

/-- `large_job_progress_floor`: a large job that was not scheduled for the interval. -/
def largeJobProgressFloor (job : BatchJobRow) : Bool :=
  isLargeJob job && decide (0 < request.minLargeJobClaimIntervalSeconds) &&
    decide ((job.lastScheduledAt.getD (BatchJobRow.queuedSince job)) +
      seconds request.minLargeJobClaimIntervalSeconds ≤ now)

/-- `selected_max_items`: a large job gets about half a slice under size-aware order. -/
def selectedMaxItems (job : BatchJobRow) : ℕ :=
  if request.sizeAware && isLargeJob job then
    max (min request.boundedMaxItems (max 1 (if request.workClaimMinItemsForMicrobatch = 0 then 1
      else request.workClaimMinItemsForMicrobatch))) ((request.boundedMaxItems + 1) / 2)
  else request.boundedMaxItems

/-- `COALESCE(j.queue_entered_at, j.created_at), j.created_at, j.batch_id`. -/
def fifoOrder (a b : BatchJobRow) : Prop :=
  BatchJobRow.queuedSince a < BatchJobRow.queuedSince b ∨
    (BatchJobRow.queuedSince a = BatchJobRow.queuedSince b ∧
      (a.createdAt < b.createdAt ∨ (a.createdAt = b.createdAt ∧ a.batchId ≤ b.batchId)))

/-- `large_job_progress_floor DESC, scheduler_rank ASC`, then first in first out. -/
def sizeAgingOrder (a b : BatchJobRow) : Prop :=
  let fa := largeJobProgressFloor request now a
  let fb := largeJobProgressFloor request now b
  (fa = true ∧ fb = false) ∨
    (fa = fb ∧ (schedulerRank request now a < schedulerRank request now b ∨
      (schedulerRank request now a = schedulerRank request now b ∧ fifoOrder a b)))

/-- `last_scheduled_at ASC NULLS FIRST`, then the queue entry and the creation time. -/
def roundRobinOrder (a b : BatchJobRow) : Prop :=
  let la := a.lastScheduledAt.elim 0 (· + 1)
  let lb := b.lastScheduledAt.elim 0 (· + 1)
  la < lb ∨ (la = lb ∧ (BatchJobRow.queuedSince a < BatchJobRow.queuedSince b ∨
    (BatchJobRow.queuedSince a = BatchJobRow.queuedSince b ∧ a.createdAt ≤ b.createdAt)))

instance : DecidableRel fifoOrder := by
  intro a b
  unfold fifoOrder
  exact inferInstance

instance : DecidableRel (sizeAgingOrder request now) := by
  intro a b
  unfold sizeAgingOrder
  exact inferInstance

instance : DecidableRel roundRobinOrder := by
  intro a b
  unfold roundRobinOrder
  exact inferInstance

/-- `job_order_sql`. -/
def jobOrder (a b : BatchJobRow) : Prop :=
  if request.sizeAware then sizeAgingOrder request now a b
  else match request.claimOrder with
    | .fifo => fifoOrder a b
    | _ => roundRobinOrder a b

instance : DecidableRel (jobOrder request now) := by
  intro a b
  unfold jobOrder
  split
  · exact inferInstance
  · split <;> exact inferInstance

end JobOrder

section RankedOrder

variable {request : WorkClaimRequest} {now : Timestamp} {a b c : BatchJobRow}

def fifoKey (job : BatchJobRow) : Timestamp ×ₗ (Timestamp ×ₗ String) :=
  toLex (BatchJobRow.queuedSince job, toLex (job.createdAt, job.batchId))

theorem fifoOrder_iff : fifoOrder a b ↔ fifoKey a ≤ fifoKey b := by
  simp only [fifoOrder, fifoKey, Prod.Lex.toLex_le_toLex]

def sizeAgingKey (request : WorkClaimRequest) (now : Timestamp) (job : BatchJobRow) :
    Bool ×ₗ (ℚ ×ₗ (Timestamp ×ₗ (Timestamp ×ₗ String))) :=
  toLex (!largeJobProgressFloor request now job,
    toLex (schedulerRank request now job, fifoKey job))

theorem sizeAgingOrder_iff :
    sizeAgingOrder request now a b ↔ sizeAgingKey request now a ≤ sizeAgingKey request now b := by
  simp only [sizeAgingOrder, sizeAgingKey, Prod.Lex.toLex_le_toLex, fifoOrder_iff]
  cases largeJobProgressFloor request now a <;> cases largeJobProgressFloor request now b <;> simp

/-- A job that was never scheduled has the smallest key. -/
def roundRobinKey (job : BatchJobRow) : ℕ ×ₗ (Timestamp ×ₗ Timestamp) :=
  toLex (job.lastScheduledAt.elim 0 (· + 1),
    toLex (BatchJobRow.queuedSince job, job.createdAt))

theorem roundRobinOrder_iff : roundRobinOrder a b ↔ roundRobinKey a ≤ roundRobinKey b := by
  simp only [roundRobinOrder, roundRobinKey, Prod.Lex.toLex_le_toLex]

/-- The claim order is a ranking of jobs, not the rotation. -/
def WorkClaimRequest.Ranked (request : WorkClaimRequest) : Prop :=
  request.sizeAware = true ∨ request.claimOrder = .fifo

theorem jobOrder_fifo (hsize : ¬request.sizeAware = true) (hfifo : request.claimOrder = .fifo) :
    jobOrder request now a b ↔ fifoKey a ≤ fifoKey b := by
  simp only [jobOrder, hsize, hfifo, Bool.false_eq_true, if_false, fifoOrder_iff]

theorem jobOrder_sizeAging (hsize : request.sizeAware = true) :
    jobOrder request now a b ↔ sizeAgingKey request now a ≤ sizeAgingKey request now b := by
  simp only [jobOrder, hsize, if_true, sizeAgingOrder_iff]

theorem jobOrder_roundRobin (hranked : ¬request.Ranked) :
    jobOrder request now a b ↔ roundRobinKey a ≤ roundRobinKey b := by
  have hsize : ¬request.sizeAware = true := fun hsize => hranked (Or.inl hsize)
  have hfifo : request.claimOrder ≠ .fifo := fun hfifo => hranked (Or.inr hfifo)
  rw [← roundRobinOrder_iff, jobOrder, if_neg hsize]
  cases horder : request.claimOrder with
  | roundRobin => rfl
  | fifo => exact absurd horder hfifo
  | sizeAging => rfl

theorem jobOrder_total (request : WorkClaimRequest) (now : Timestamp) :
    Std.Total (jobOrder request now) := by
  refine ⟨fun a b => ?_⟩
  by_cases hranked : request.Ranked
  · by_cases hsize : request.sizeAware = true
    · rw [jobOrder_sizeAging hsize, jobOrder_sizeAging hsize]
      exact le_total _ _
    · have hfifo := hranked.resolve_left hsize
      rw [jobOrder_fifo hsize hfifo, jobOrder_fifo hsize hfifo]
      exact le_total _ _
  · rw [jobOrder_roundRobin hranked, jobOrder_roundRobin hranked]
    exact le_total _ _

theorem jobOrder_trans (request : WorkClaimRequest) (now : Timestamp) :
    IsTrans BatchJobRow (jobOrder request now) := by
  refine ⟨fun a b c hab hbc => ?_⟩
  by_cases hranked : request.Ranked
  · by_cases hsize : request.sizeAware = true
    · rw [jobOrder_sizeAging hsize] at hab hbc ⊢
      exact hab.trans hbc
    · have hfifo := hranked.resolve_left hsize
      rw [jobOrder_fifo hsize hfifo] at hab hbc ⊢
      exact hab.trans hbc
  · rw [jobOrder_roundRobin hranked] at hab hbc ⊢
    exact hab.trans hbc

/-- Jobs that rank the same are the same batch. -/
theorem jobOrder_antisymm (hranked : request.Ranked) (hab : jobOrder request now a b)
    (hba : jobOrder request now b a) : a.batchId = b.batchId := by
  have hkey : fifoKey a = fifoKey b := by
    by_cases hsize : request.sizeAware = true
    · rw [jobOrder_sizeAging hsize] at hab hba
      have hsame := congrArg ofLex (hab.antisymm hba)
      exact (Prod.mk.inj (congrArg ofLex (Prod.mk.inj hsame).2)).2
    · have hfifo := hranked.resolve_left hsize
      rw [jobOrder_fifo hsize hfifo] at hab hba
      exact hab.antisymm hba
  have hsame := congrArg ofLex hkey
  exact (Prod.mk.inj (congrArg ofLex (Prod.mk.inj hsame).2)).2

end RankedOrder

/-- The `selected_job` CTE. -/
def selectedJob (request : WorkClaimRequest) (now : Timestamp) (locks : RowLocks)
    (jobs : List BatchJobRow) (items : List BatchItemRow) : Option BatchJobRow :=
  let capacity := capacityState request now jobs items
  (selectFirst (JobAdmitted request now locks capacity items) (jobOrder request now) 1 jobs).head?

/-- `effective_locked_items_limit_sql`. -/
def lockedItemsLimit (request : WorkClaimRequest) (capacity : Option CapacityState)
    (job : BatchJobRow) : ℕ :=
  let slots := match capacity with
    | none => request.boundedMaxItems
    | some state => min request.boundedMaxItems state.remainingSlots
  if request.sizeAware then min slots (selectedMaxItems request job) else slots

/-- The `locked_items` CTE. -/
def lockedItems (request : WorkClaimRequest) (now : Timestamp) (locks : RowLocks)
    (capacity : Option CapacityState) (job : BatchJobRow) (items : List BatchItemRow) :
    List BatchItemRow :=
  ((runnableItems now job.batchId items).filter fun item => locks.items item.itemId = false).take
    (lockedItemsLimit request capacity job)

/-- The rows of `candidate_items` whose cumulative work units stay within the limit, or that
come first when the oversized first item is allowed. -/
def eligibleItemsFrom (limit : ℕ) (oversizedFirst : Bool) :
    ℕ → ℕ → List BatchItemRow → List BatchItemRow
  | _, _, [] => []
  | total, rank, item :: rest =>
      let cumulative := total + item.workUnits
      if cumulative ≤ limit ∨ (oversizedFirst = true ∧ rank = 1) then
        item :: eligibleItemsFrom limit oversizedFirst cumulative (rank + 1) rest
      else eligibleItemsFrom limit oversizedFirst cumulative (rank + 1) rest

/-- The `eligible_items` CTE for the selected job. -/
def eligibleItems (request : WorkClaimRequest) (now : Timestamp) (locks : RowLocks)
    (jobs : List BatchJobRow) (items : List BatchItemRow) (job : BatchJobRow) :
    List BatchItemRow :=
  let capacity := capacityState request now jobs items
  eligibleItemsFrom (workUnitClaimLimit request capacity) request.allowOversizedFirstItem 0 1
    (lockedItems request now locks capacity job items)

structure WorkClaim where
  workerId : String
  batchId : String
  endpoint : String
  modelGroup : Option String
  tenantScopeType : Option String
  tenantScopeId : Option String
  serviceTier : String
  itemIds : List String
  claimedWorkUnits : ℕ
  leaseExpiresAt : Timestamp

structure WorkClaimResult where
  jobs : List BatchJobRow
  items : List BatchItemRow
  claim : Option WorkClaim

/-- `_claim_next_work_with_client`. -/
def claimNextWork (request : WorkClaimRequest) (now : Timestamp) (locks : RowLocks)
    (jobs : List BatchJobRow) (items : List BatchItemRow) : WorkClaimResult :=
  match selectedJob request now locks jobs items with
  | none => ⟨jobs, items, none⟩
  | some job =>
      let eligible := eligibleItems request now locks jobs items job
      if eligible = [] then ⟨jobs, items, none⟩
      else
        let itemIds := eligible.map BatchItemRow.itemId
        { jobs := updateWhere (fun row => row.batchId = job.batchId) (workClaimJobRow now) jobs
          items := updateClaimed now request.workerId request.leaseSeconds itemIds items
          claim := some
            { workerId := request.workerId
              batchId := job.batchId
              endpoint := job.endpoint
              modelGroup := job.schedulingModelGroup
              tenantScopeType := job.tenantScopeType
              tenantScopeId := job.tenantScopeId
              serviceTier := if job.serviceTier = "" then "standard" else job.serviceTier
              itemIds := itemIds
              claimedWorkUnits := (eligible.map BatchItemRow.workUnits).sum
              leaseExpiresAt := now + seconds request.leaseSeconds } }

theorem mem_runnableItems {now : Timestamp} {batchId : String} {items : List BatchItemRow}
    {item : BatchItemRow} :
    item ∈ runnableItems now batchId items ↔
      item ∈ items ∧ item.batchId = batchId ∧ item.Runnable now := by
  simp [runnableItems, List.mem_insertionSort]

theorem eligibleItemsFrom_sublist (limit : ℕ) (oversizedFirst : Bool) (total rank : ℕ)
    (items : List BatchItemRow) :
    (eligibleItemsFrom limit oversizedFirst total rank items).Sublist items := by
  induction items generalizing total rank with
  | nil => exact List.Sublist.refl _
  | cons item rest ih =>
      simp only [eligibleItemsFrom]
      split
      · exact (ih _ _).cons_cons item
      · exact (ih _ _).cons item

/-- Without the oversized first item the claimed units stay within the limit. -/
theorem sum_eligibleItemsFrom_le {limit : ℕ} {items : List BatchItemRow} :
    ∀ {total rank : ℕ}, eligibleItemsFrom limit false total rank items ≠ [] →
      total + ((eligibleItemsFrom limit false total rank items).map
        BatchItemRow.workUnits).sum ≤ limit := by
  induction items with
  | nil =>
      intro total rank h
      exact absurd rfl h
  | cons item rest ih =>
      intro total rank h
      simp only [eligibleItemsFrom, Bool.false_eq_true, false_and, or_false] at h ⊢
      by_cases hfits : total + item.workUnits ≤ limit
      · rw [if_pos hfits]
        by_cases hrest : eligibleItemsFrom limit false (total + item.workUnits) (rank + 1) rest = []
        · simp [hrest, hfits]
        · have hsum := ih hrest
          simp only [List.map_cons, List.sum_cons]
          omega
      · rw [if_neg hfits] at h ⊢
        have hsum := ih h
        omega

/-- Claimed items are runnable items of the selected job. -/
theorem mem_eligibleItems {request : WorkClaimRequest} {now : Timestamp} {locks : RowLocks}
    {jobs : List BatchJobRow} {items : List BatchItemRow} {job : BatchJobRow}
    {item : BatchItemRow} (h : item ∈ eligibleItems request now locks jobs items job) :
    item ∈ items ∧ item.batchId = job.batchId ∧ item.Runnable now := by
  have hlocked := (eligibleItemsFrom_sublist _ _ _ _ _).subset h
  have hrunnable := (List.mem_filter.mp (List.mem_of_mem_take hlocked)).1
  exact mem_runnableItems.mp hrunnable

theorem selectedJob_admitted {request : WorkClaimRequest} {now : Timestamp} {locks : RowLocks}
    {jobs : List BatchJobRow} {items : List BatchItemRow} {job : BatchJobRow}
    (h : selectedJob request now locks jobs items = some job) :
    job ∈ jobs ∧
      JobAdmitted request now locks (capacityState request now jobs items) items job :=
  mem_of_mem_selectFirst (List.mem_of_mem_head? h)

/-- The selected job comes before every admitted job. -/
theorem selectedJob_first {request : WorkClaimRequest} {now : Timestamp} {locks : RowLocks}
    {jobs : List BatchJobRow} {items : List BatchItemRow} {job other : BatchJobRow}
    (h : selectedJob request now locks jobs items = some job) (hother : other ∈ jobs)
    (hadmitted : JobAdmitted request now locks (capacityState request now jobs items) items other) :
    jobOrder request now job other := by
  have : Std.Total (jobOrder request now) := jobOrder_total request now
  have : IsTrans BatchJobRow (jobOrder request now) := jobOrder_trans request now
  exact selectFirst_head_le h hother hadmitted

/-- Without a claim the statement writes nothing. -/
theorem claimNextWork_none {request : WorkClaimRequest} {now : Timestamp} {locks : RowLocks}
    {jobs : List BatchJobRow} {items : List BatchItemRow}
    (h : (claimNextWork request now locks jobs items).claim = none) :
    (claimNextWork request now locks jobs items).jobs = jobs ∧
      (claimNextWork request now locks jobs items).items = items := by
  unfold claimNextWork at h ⊢
  cases hselected : selectedJob request now locks jobs items with
  | none => exact ⟨rfl, rfl⟩
  | some job =>
      simp only [hselected] at h ⊢
      by_cases hempty : eligibleItems request now locks jobs items job = []
      · simp [hempty]
      · simp [hempty] at h

/-- What a successful claim writes: the selected job and exactly its eligible items. -/
theorem claimNextWork_some {request : WorkClaimRequest} {now : Timestamp} {locks : RowLocks}
    {jobs : List BatchJobRow} {items : List BatchItemRow} {claim : WorkClaim}
    (h : (claimNextWork request now locks jobs items).claim = some claim) :
    ∃ job, selectedJob request now locks jobs items = some job ∧
      eligibleItems request now locks jobs items job ≠ [] ∧
      claim.batchId = job.batchId ∧ claim.workerId = request.workerId ∧
      claim.itemIds =
        (eligibleItems request now locks jobs items job).map BatchItemRow.itemId ∧
      claim.claimedWorkUnits =
        ((eligibleItems request now locks jobs items job).map BatchItemRow.workUnits).sum ∧
      (claimNextWork request now locks jobs items).jobs =
        updateWhere (fun row => row.batchId = job.batchId) (workClaimJobRow now) jobs ∧
      (claimNextWork request now locks jobs items).items =
        updateClaimed now request.workerId request.leaseSeconds claim.itemIds items := by
  unfold claimNextWork at h ⊢
  cases hselected : selectedJob request now locks jobs items with
  | none => simp [hselected] at h
  | some job =>
      simp only [hselected] at h ⊢
      by_cases hempty : eligibleItems request now locks jobs items job = []
      · simp [hempty] at h
      · simp only [hempty, if_false, Option.some.injEq] at h ⊢
        subst h
        exact ⟨job, rfl, hempty, rfl, rfl, rfl, rfl, rfl, rfl⟩

end BatchWorkClaim
