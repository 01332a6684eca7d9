import DeltaLLM.BatchWorkClaim

/-! # The slice of a work claim and its recommendation

The claim's window functions cut the longest start of the runnable items that fits the limits. The
recommendation is a second query over the same tables that only counts.
-/
namespace WorkSlices

open BatchRecords
open BatchItemStatements
open BatchJobStatements
open BatchWorkClaim
open PythonText (stripOrEmpty)
open TableStatements

section LongestPrefixes

variable {α : Type*}

/-- The longest start of the list that is admitted. -/
structure LongestPrefix (admits : List α → Prop) (whole taken : List α) : Prop where
  start : taken <+: whole
  admitted : admits taken
  longest : ∀ other, other <+: whole → admits other → other.length ≤ taken.length

variable {admits : List α → Prop} {whole taken taken' : List α}

theorem LongestPrefix.unique (h : LongestPrefix admits whole taken)
    (h' : LongestPrefix admits whole taken') : taken = taken' := by
  have hle := h'.longest taken h.start h.admitted
  have hge := h.longest taken' h'.start h'.admitted
  have hlength : taken.length = taken'.length := by omega
  exact (List.prefix_of_prefix_length_le h.start h'.start hle).eq_of_length hlength

theorem longestPrefix_take {n : ℕ} :
    LongestPrefix admits (whole.take n) taken ↔
      LongestPrefix (fun other => other.length ≤ n ∧ admits other) whole taken := by
  constructor
  · rintro ⟨hstart, hadmits, hlongest⟩
    obtain ⟨hwhole, hlength⟩ := List.prefix_take_iff.mp hstart
    exact ⟨hwhole, ⟨hlength, hadmits⟩, fun other hother hboth =>
      hlongest other (List.prefix_take_iff.mpr ⟨hother, hboth.1⟩) hboth.2⟩
  · rintro ⟨hstart, ⟨hlength, hadmits⟩, hlongest⟩
    refine ⟨List.prefix_take_iff.mpr ⟨hstart, hlength⟩, hadmits, fun other hother hother' => ?_⟩
    obtain ⟨hwhole, hlength'⟩ := List.prefix_take_iff.mp hother
    exact hlongest other hwhole ⟨hlength', hother'⟩

end LongestPrefixes

/-- The work units of a list of items. -/
def unitsOf (items : List BatchItemRow) : ℕ := (items.map BatchItemRow.workUnits).sum

/-- What a slice of the runnable items is: the longest start within both limits, or the first item
alone where it exceeds the unit limit and may do so. -/
structure WorkSlice (itemLimit unitLimit : ℕ) (oversizedFirst : Bool)
    (runnable slice : List BatchItemRow) : Prop where
  oversized : oversizedFirst = true → ∀ head ∈ runnable.head?, unitLimit < head.workUnits →
    slice = [head]
  longest : (oversizedFirst = true → ∀ head ∈ runnable.head?, head.workUnits ≤ unitLimit) →
    LongestPrefix (fun items => items.length ≤ itemLimit ∧ unitsOf items ≤ unitLimit) runnable slice

section Windows

variable {limit total rank : ℕ} {items : List BatchItemRow}

/-- The exception is for rank one only. -/
theorem eligibleItemsFrom_later (hrank : 1 < rank) (rank' : ℕ) :
    eligibleItemsFrom limit true total rank items =
      eligibleItemsFrom limit false total rank' items := by
  induction items generalizing total rank rank' with
  | nil => rfl
  | cons item rest ih =>
      have hne : rank ≠ 1 := by omega
      simp only [eligibleItemsFrom, hne, and_false, or_false, Bool.false_eq_true, false_and,
        ih (Nat.lt_succ_of_lt hrank) (rank' + 1)]

/-- Cumulative units only grow: past the limit nothing more is eligible. -/
theorem eligibleItemsFrom_past (htotal : limit < total) :
    eligibleItemsFrom limit false total rank items = [] := by
  induction items generalizing total rank with
  | nil => rfl
  | cons item rest ih =>
      have hout : ¬(total + item.workUnits ≤ limit) := by omega
      simp only [eligibleItemsFrom, hout, Bool.false_eq_true, false_and, or_self, if_false]
      exact ih (by omega)

theorem unitsOf_cons (item : BatchItemRow) : unitsOf (item :: items) =
    item.workUnits + unitsOf items := by
  simp [unitsOf]

theorem eligibleItemsFrom_longest (htotal : total ≤ limit) :
    LongestPrefix (fun other => total + unitsOf other ≤ limit) items
      (eligibleItemsFrom limit false total rank items) := by
  induction items generalizing total rank with
  | nil =>
      refine ⟨List.prefix_refl _, by simpa [eligibleItemsFrom, unitsOf] using htotal, ?_⟩
      intro other hother _
      rw [List.prefix_nil.mp hother]
      exact Nat.zero_le _
  | cons item rest ih =>
      simp only [eligibleItemsFrom, Bool.false_eq_true, false_and, or_false]
      by_cases hfits : total + item.workUnits ≤ limit
      · rw [if_pos hfits]
        obtain ⟨hstart, hadmitted, hlongest⟩ := @ih _ (rank + 1) hfits
        refine ⟨(List.prefix_cons_inj item).mpr hstart, ?_, fun other hother hunits => ?_⟩
        · rw [unitsOf_cons]
          omega
        · rcases other with _ | ⟨first, other⟩
          · exact Nat.zero_le _
          · obtain ⟨rfl, htail⟩ := List.cons_prefix_cons.mp hother
            rw [unitsOf_cons] at hunits
            have hle := hlongest other htail (by omega)
            simpa using hle
      · rw [if_neg hfits, eligibleItemsFrom_past (by omega)]
        refine ⟨List.nil_prefix, by simpa [unitsOf] using htotal, fun other hother hunits => ?_⟩
        rcases other with _ | ⟨first, other⟩
        · exact Nat.le_refl _
        · obtain ⟨rfl, -⟩ := List.cons_prefix_cons.mp hother
          rw [unitsOf_cons] at hunits
          omega

/-- The eligible items of the first `itemLimit` runnable ones are the slice of them all. -/
theorem eligibleItemsFrom_slice {itemLimit : ℕ} (hlimit : 0 < itemLimit) (oversizedFirst : Bool) :
    WorkSlice itemLimit limit oversizedFirst items
      (eligibleItemsFrom limit oversizedFirst 0 1 (items.take itemLimit)) := by
  obtain ⟨limit', rfl⟩ : ∃ limit', itemLimit = limit' + 1 := ⟨itemLimit - 1, by omega⟩
  constructor
  · rintro rfl head hhead hunits
    rcases items with _ | ⟨first, rest⟩
    · cases hhead
    cases hhead
    rw [List.take_succ_cons]
    simp only [eligibleItemsFrom, and_self, or_true, if_true]
    rw [eligibleItemsFrom_later (by omega) 0, eligibleItemsFrom_past (by omega)]
  · intro hhead
    -- The first item fits, so the exception for it changes nothing.
    have hplain : eligibleItemsFrom limit oversizedFirst 0 1 (items.take (limit' + 1)) =
        eligibleItemsFrom limit false 0 1 (items.take (limit' + 1)) := by
      rcases items with _ | ⟨first, rest⟩
      · simp [eligibleItemsFrom]
      cases oversizedFirst with
      | false => rfl
      | true =>
          have hfits := hhead rfl first rfl
          rw [List.take_succ_cons]
          simp only [eligibleItemsFrom, Nat.zero_add, hfits, true_or, if_true]
          rw [eligibleItemsFrom_later (by omega) 2]
    have hlongest : LongestPrefix (fun other => 0 + unitsOf other ≤ limit)
        (items.take (limit' + 1))
        (eligibleItemsFrom limit false 0 1 (items.take (limit' + 1))) :=
      eligibleItemsFrom_longest (Nat.zero_le limit)
    rw [hplain]
    refine longestPrefix_take.mp ?_
    simpa using hlongest

end Windows

section Recommendation

/-- The recommendation reads a blank tier as the standard tier; the claim does not. -/
def recommendTierAdmits (request : WorkClaimRequest) (job : BatchJobRow) : Prop :=
  stripOrEmpty request.serviceTier = "" ∨
    effectiveServiceTier job = stripOrEmpty request.serviceTier

instance (request : WorkClaimRequest) (job : BatchJobRow) :
    Decidable (recommendTierAdmits request job) := by
  unfold recommendTierAdmits
  exact inferInstance

/-- The WHERE clause of the recommendation's `selected_job`. -/
def RecommendAdmitted (request : WorkClaimRequest) (now : Timestamp)
    (capacity : Option CapacityState) (items : List BatchItemRow) (job : BatchJobRow) : Prop :=
  WorkClaimable now job ∧ request.modelGroupAdmits job ∧ recommendTierAdmits request job ∧
    request.tenantAdmits job ∧ request.legacyAdmits job ∧
    (∀ state ∈ capacity, 0 < state.remainingSlots ∧ 0 < state.remainingWorkUnits) ∧
    ∃ head ∈ headItem now job.batchId items,
      headWorkAdmits request (workUnitClaimLimit request capacity) head

instance (request : WorkClaimRequest) (now : Timestamp) (capacity : Option CapacityState)
    (items : List BatchItemRow) (job : BatchJobRow) :
    Decidable (RecommendAdmitted request now capacity items job) := by
  unfold RecommendAdmitted
  exact inferInstance

/-- `last_scheduled_at ASC NULLS FIRST`, then first in first out. -/
def rotationOrder (a b : BatchJobRow) : Prop :=
  let la := a.lastScheduledAt.elim 0 (· + 1)
  let lb := b.lastScheduledAt.elim 0 (· + 1)
  la < lb ∨ (la = lb ∧ fifoOrder a b)

instance : DecidableRel rotationOrder := by
  intro a b
  unfold rotationOrder
  exact inferInstance

/-- The recommendation's `job_order_sql`; it has no size-aware order. -/
def recommendOrder (request : WorkClaimRequest) (a b : BatchJobRow) : Prop :=
  if request.claimOrder = .fifo then fifoOrder a b else rotationOrder a b

instance (request : WorkClaimRequest) : DecidableRel (recommendOrder request) := by
  intro a b
  unfold recommendOrder
  exact inferInstance

/-- `items_limit_sql`. -/
def itemsLimit (request : WorkClaimRequest) (capacity : Option CapacityState) : ℕ :=
  match capacity with
  | none => request.boundedMaxItems
  | some state => min request.boundedMaxItems state.remainingSlots

/-- The request limits a model group to nothing, where the query is not sent. -/
def closedCapacity (request : WorkClaimRequest) : Bool :=
  stripOrEmpty request.capacityModelGroup ≠ "" &&
    match request.capacityMaxInFlightItems with
    | none => false
    | some maxInFlight =>
        maxInFlight = 0 || decide (request.capacityMaxInFlightWorkUnits = some 0)

/-- `BatchWorkRecommendation`. -/
structure WorkRecommendation where
  batchId : String
  endpoint : String
  modelGroup : Option String
  tenantScopeType : Option String
  tenantScopeId : Option String
  serviceTier : String
  sizeClass : String
  itemCount : ℕ
  workUnits : ℕ
  reason : String

/-- `recommend_next_work`, which reads the request without its worker and its lease. -/
def recommendNextWork (request : WorkClaimRequest) (reason : String) (now : Timestamp)
    (jobs : List BatchJobRow) (items : List BatchItemRow) : Option WorkRecommendation :=
  if closedCapacity request then none
  else
    let capacity := capacityState request now jobs items
    match (selectFirst (RecommendAdmitted request now capacity items) (recommendOrder request) 1
        jobs).head? with
    | none => none
    | some job =>
        let candidates := (runnableItems now job.batchId items).take (itemsLimit request capacity)
        let eligible := eligibleItemsFrom (workUnitClaimLimit request capacity)
          request.allowOversizedFirstItem 0 1 candidates
        if eligible = [] then none
        else some
          { batchId := job.batchId
            endpoint := job.endpoint
            modelGroup := job.schedulingModelGroup
            tenantScopeType := job.tenantScopeType
            tenantScopeId := job.tenantScopeId
            serviceTier := effectiveServiceTier job
            sizeClass := job.sizeClass
            itemCount := eligible.length
            workUnits := unitsOf eligible
            reason := if reason = "" then "work_slice" else reason }

variable {request : WorkClaimRequest} {now : Timestamp} {jobs : List BatchJobRow}
  {items : List BatchItemRow}

/-- No job whose blank tier the recommendation would read as the requested one. -/
def NoBlankTier (request : WorkClaimRequest) (jobs : List BatchJobRow) : Prop :=
  stripOrEmpty request.serviceTier = "standard" → ∀ job ∈ jobs, job.serviceTier ≠ ""

theorem tierAdmits_iff (htier : NoBlankTier request jobs) {job : BatchJobRow} (hjob : job ∈ jobs) :
    recommendTierAdmits request job ↔ request.serviceTierAdmits job := by
  unfold recommendTierAdmits WorkClaimRequest.serviceTierAdmits effectiveServiceTier
  by_cases hblank : job.serviceTier = ""
  · have hstandard : stripOrEmpty request.serviceTier ≠ "standard" :=
      fun hstandard => htier hstandard job hjob hblank
    rw [if_pos hblank, hblank]
    constructor
    · rintro (hnone | hsame)
      · exact Or.inl hnone
      · exact absurd hsame.symm hstandard
    · rintro (hnone | hsame)
      · exact Or.inl hnone
      · exact Or.inl hsame.symm
  · rw [if_neg hblank]

theorem recommendAdmitted_iff (htier : NoBlankTier request jobs) {job : BatchJobRow}
    (hjob : job ∈ jobs) (capacity : Option CapacityState) :
    RecommendAdmitted request now capacity items job ↔
      JobAdmitted request now RowLocks.free capacity items job := by
  unfold RecommendAdmitted JobAdmitted
  simp only [tierAdmits_iff htier hjob, RowLocks.free, and_true]

theorem closedCapacity_none (h : closedCapacity request = true) (locks : RowLocks) :
    selectedJob request now locks jobs items = none := by
  cases hselected : selectedJob request now locks jobs items with
  | none => rfl
  | some job =>
      have hopen := (selectedJob_admitted hselected).2.2.2.2.2.2.1
      unfold closedCapacity at h
      unfold capacityState at hopen
      cases hitems : request.capacityMaxInFlightItems with
      | none => simp [hitems] at h
      | some maxInFlight =>
          rw [hitems] at h hopen
          obtain ⟨hgroup, hclosed⟩ : stripOrEmpty request.capacityModelGroup ≠ "" ∧
              (maxInFlight = 0 ∨ request.capacityMaxInFlightWorkUnits = some 0) := by
            simpa using h
          simp only [if_neg hgroup, Option.mem_def, Option.some.injEq, forall_eq'] at hopen
          obtain ⟨hslots, hunits⟩ := hopen
          rcases hclosed with rfl | hzero
          · omega
          · rw [hzero] at hunits
            simp at hunits

theorem lockedItems_free {capacity : Option CapacityState} {job : BatchJobRow}
    (hsize : request.sizeAware = false) :
    lockedItems request now RowLocks.free capacity job items =
      (runnableItems now job.batchId items).take (itemsLimit request capacity) := by
  cases capacity <;> simp [lockedItems, lockedItemsLimit, itemsLimit, hsize, RowLocks.free]

/-- In first-in-first-out order both statements pick the job and cut its items alike. -/
theorem recommendation_of_claim (hfifo : request.claimOrder = .fifo)
    (hsize : request.sizeAware = false) (htier : NoBlankTier request jobs) (reason : String) :
    (recommendNextWork request reason now jobs items).map
        (fun work => (work.batchId, work.itemCount, work.workUnits)) =
      (claimNextWork request now RowLocks.free jobs items).claim.map
        fun claim => (claim.batchId, claim.itemIds.length, claim.claimedWorkUnits) := by
  by_cases hclosed : closedCapacity request = true
  · simp [recommendNextWork, hclosed, claimNextWork, closedCapacity_none hclosed]
  · have hsame : (selectFirst (RecommendAdmitted request now (capacityState request now jobs items)
        items) (recommendOrder request) 1 jobs).head? =
          selectedJob request now RowLocks.free jobs items := by
      refine congrArg List.head? (selectFirst_congr (fun job hjob =>
        recommendAdmitted_iff htier hjob _) fun a b => ?_)
      rw [recommendOrder, if_pos hfifo, fifoOrder_iff, jobOrder_fifo (by simp [hsize]) hfifo]
    simp only [recommendNextWork, hclosed, hsame, claimNextWork, Bool.false_eq_true, if_false]
    cases selectedJob request now RowLocks.free jobs items with
    | none => rfl
    | some job =>
        simp only [eligibleItems, lockedItems_free hsize]
        generalize eligibleItemsFrom _ _ _ _ _ = eligible
        by_cases hempty : eligible = []
        · simp [hempty]
        · simp [hempty, unitsOf]

end Recommendation

section Claims

variable {request : WorkClaimRequest} {now : Timestamp} {locks : RowLocks}
  {jobs : List BatchJobRow} {items : List BatchItemRow}

theorem lockedItemsLimit_pos {job : BatchJobRow}
    (h : selectedJob request now locks jobs items = some job) :
    0 < lockedItemsLimit request (capacityState request now jobs items) job := by
  have hopen := (selectedJob_admitted h).2.2.2.2.2.2.1
  have hitems : 0 < request.boundedMaxItems := by
    unfold WorkClaimRequest.boundedMaxItems
    omega
  have hselected : 0 < selectedMaxItems request job := by
    unfold selectedMaxItems
    split_ifs <;> omega
  unfold lockedItemsLimit
  cases hcapacity : capacityState request now jobs items with
  | none =>
      by_cases hsize : request.sizeAware = true <;> simp [hsize, hitems, hselected]
  | some state =>
      have hslots := (hopen state hcapacity).1
      by_cases hsize : request.sizeAware = true <;> simp [hsize, hitems, hselected, hslots]

/-- The runnable items of a job that no other transaction holds. -/
def claimableItems (now : Timestamp) (locks : RowLocks) (batchId : String)
    (items : List BatchItemRow) : List BatchItemRow :=
  (runnableItems now batchId items).filter fun item => locks.items item.itemId = false

theorem eligibleItems_slice {job : BatchJobRow}
    (h : selectedJob request now locks jobs items = some job) :
    let capacity := capacityState request now jobs items
    WorkSlice (lockedItemsLimit request capacity job) (workUnitClaimLimit request capacity)
      request.allowOversizedFirstItem (claimableItems now locks job.batchId items)
      (eligibleItems request now locks jobs items job) :=
  eligibleItemsFrom_slice (lockedItemsLimit_pos h) request.allowOversizedFirstItem

end Claims

/-! One queued job of four items; the second item does not fit after the first. -/

def queuedJob : BatchJobRow :=
  { createdJob "batch-1" "/v1/embeddings" 5 with schedulingModelGroup := some "m" }

def queuedItem (itemId : String) (lineNumber workUnits : ℕ) : BatchItemRow :=
  createdItem itemId "batch-1" lineNumber itemId [] workUnits

def queuedItems : List BatchItemRow :=
  [queuedItem "item-1" 1 2, queuedItem "item-2" 2 3, queuedItem "item-3" 3 1,
    queuedItem "item-4" 4 1]

def sliceRequest (maxItems maxWorkUnits : ℕ) : WorkClaimRequest :=
  { workerId := "worker", maxItems, maxWorkUnits, leaseSeconds := 60, claimOrder := .fifo }

end WorkSlices
