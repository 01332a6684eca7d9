import DeltaLLM.FairShareClaim

/-! # The tenant in-flight cap

The selection checks the cap with the head item of its snapshot, and the claim ranks the jobs
again. The budget bounds the claim unless the oversized first item is allowed: then it claims the
head item of the job that comes first in its own order, whatever that item costs.
-/
namespace TenantInFlightCap

open BatchRecords
open BatchItemStatements
open BatchJobStatements
open BatchWorkClaim
open FairShareClaim
open FlowSelection
open FlowSnapshots
open PythonText (strip)
open SchedulerFlows
open TableStatements

/-- The work units in flight of one flow. -/
def flowInFlight (sha256 : String → String) (serviceTier modelGroup : String) (now : Timestamp)
    (db : SchedulerDatabase) (key : FlowKey) : ℕ :=
  workUnitsOf (inFlightFlowKey sha256 serviceTier modelGroup now db.jobs) db.items key

/-- The work units that the selection budgets for a flow it tries. -/
def selectionBudget (config : FairShareConfig) (attempt : FlowAttempt) : ℕ :=
  let units := flowClaimWorkUnits config attempt.flow attempt.selection.singleEligibleFlow
  if attempt.oversizedFirstItem then max units (nextItem attempt.flow) else units

section Budget

variable {config : FairShareConfig} {attempt : FlowAttempt}

theorem flowClaimWorkUnits_le {remaining : ℕ}
    (hremaining : tenantRemainingWorkUnits config attempt.flow = some remaining) (single : Bool) :
    flowClaimWorkUnits config attempt.flow single ≤ remaining := by
  simp only [flowClaimWorkUnits, hremaining]
  cases single
  · exact (min_le_left _ _).trans (min_le_right _ _)
  · exact min_le_right _ _

theorem one_le_flowClaimWorkUnits (hfits : FitsTenantCap config attempt.flow) (single : Bool) :
    1 ≤ flowClaimWorkUnits config attempt.flow single := by
  have hmax : 1 ≤ config.boundedMaxWorkUnits := le_max_left _ _
  simp only [flowClaimWorkUnits]
  cases hremaining : tenantRemainingWorkUnits config attempt.flow with
  | none => cases single <;> simp [hmax]
  | some remaining =>
      have hpositive := (hfits remaining hremaining).1
      cases single <;> simp [hmax] <;> omega

/-- The budget never exceeds what the cap leaves. -/
theorem selectionBudget_le {remaining : ℕ}
    (hremaining : tenantRemainingWorkUnits config attempt.flow = some remaining)
    (hfits : FitsTenantCap config attempt.flow) : selectionBudget config attempt ≤ remaining := by
  have hunits := flowClaimWorkUnits_le hremaining attempt.selection.singleEligibleFlow
  simp only [selectionBudget]
  split
  · exact max_le hunits (hfits remaining hremaining).2
  · exact hunits

end Budget

section Claim

variable {config : FairShareConfig} {workerId : String} {now : Timestamp} {locks : RowLocks}
  {jobs : List BatchJobRow} {items : List BatchItemRow} {attempt : FlowAttempt}

theorem claimRequest_ranked (config : FairShareConfig) (workerId : String)
    (attempt : FlowAttempt) : (claimRequest config workerId attempt).Ranked := by
  by_cases hsize : config.sizeAwareSchedulingEnabled = true
  · exact Or.inl (by simp [WorkClaimRequest.sizeAware, claimRequest, rankRequest, hsize])
  · exact Or.inr (by simp [claimRequest, rankRequest, hsize])

/-- Without the oversized first item the request bounds the claim. -/
theorem sum_eligibleItems_le {request : WorkClaimRequest} {job : BatchJobRow}
    (hoversized : request.allowOversizedFirstItem = false)
    (hnonempty : eligibleItems request now locks jobs items job ≠ []) :
    ((eligibleItems request now locks jobs items job).map BatchItemRow.workUnits).sum ≤
      request.boundedMaxWorkUnits := by
  simp only [eligibleItems, hoversized] at hnonempty ⊢
  have hsum := sum_eligibleItemsFrom_le hnonempty
  have hlimit : workUnitClaimLimit request (capacityState request now jobs items) ≤
      request.boundedMaxWorkUnits := by
    simp only [workUnitClaimLimit]
    split
    · exact le_rfl
    · exact min_le_left _ _
  omega

/-- A request for one item claims the head item of the selected job. -/
theorem eligibleItems_eq_head {request : WorkClaimRequest} {job : BatchJobRow}
    (hone : request.boundedMaxItems = 1)
    (hnonempty : eligibleItems request now RowLocks.free jobs items job ≠ []) :
    ∃ head, headItem now job.batchId items = some head ∧
      eligibleItems request now RowLocks.free jobs items job = [head] := by
  have hsublist : (eligibleItems request now RowLocks.free jobs items job).Sublist
      (lockedItems request now RowLocks.free (capacityState request now jobs items) job items) :=
    eligibleItemsFrom_sublist ..
  have hlimit : lockedItemsLimit request (capacityState request now jobs items) job ≤ 1 := by
    simp only [lockedItemsLimit, hone]
    split <;> split <;> omega
  have hlocked : lockedItems request now RowLocks.free (capacityState request now jobs items) job
      items = (runnableItems now job.batchId items).take
        (lockedItemsLimit request (capacityState request now jobs items) job) := by
    simp [lockedItems, RowLocks.free]
  rw [hlocked] at hsublist
  cases hrunnable : runnableItems now job.batchId items with
  | nil =>
      rw [hrunnable, List.take_nil] at hsublist
      exact absurd (List.sublist_nil.mp hsublist) hnonempty
  | cons head rest =>
      refine ⟨head, by rw [headItem, hrunnable]; rfl, ?_⟩
      have htake : ((head :: rest).take
          (lockedItemsLimit request (capacityState request now jobs items) job)).Sublist
            [head] := by
        refine (List.take_sublist_take_left hlimit).trans ?_
        exact List.Sublist.refl _
      rw [hrunnable] at hsublist
      exact (List.sublist_singleton.mp (hsublist.trans htake)).resolve_left hnonempty

end Claim

section InFlight

variable {sha256 : String → String} {workerId : String} {now : Timestamp} {db : SchedulerDatabase}

/-- A claim moves at most its own items into flight. -/
theorem flowInFlight_claim_le (serviceTier modelGroup : String) (key : FlowKey) {leaseSeconds : ℕ}
    {eligible : List BatchItemRow}
    {after : SchedulerDatabase} (hitems : (db.items.map BatchItemRow.itemId).Nodup)
    (heligible : ∀ item ∈ eligible, item ∈ db.items) (hjobs : SameFlows sha256 db.jobs after.jobs)
    (hafter : after.items = updateClaimed now workerId leaseSeconds
      (eligible.map BatchItemRow.itemId) db.items) :
    flowInFlight sha256 serviceTier modelGroup now after key ≤
      flowInFlight sha256 serviceTier modelGroup now db key +
        (eligible.map BatchItemRow.workUnits).sum := by
  have hkey : inFlightFlowKey sha256 serviceTier modelGroup now after.jobs =
      inFlightFlowKey sha256 serviceTier modelGroup now db.jobs :=
    funext fun item => hjobs.inFlightFlowKey_eq serviceTier modelGroup now item
  simp only [flowInFlight, workUnitsOf, hkey, hafter, updateClaimed]
  have hunits : ∀ item, (claimRow now workerId leaseSeconds item).workUnits = item.workUnits :=
    fun _ => rfl
  have hupdate := sum_filter_updateWhere_le BatchItemRow.workUnits
    (fun item => inFlightFlowKey sha256 serviceTier modelGroup now db.jobs item = some key)
    (fun item => item.itemId ∈ eligible.map BatchItemRow.itemId) hunits db.items
  have hclaimed := sum_filter_keys_le BatchItemRow.workUnits hitems heligible
  omega

end InFlight

section Cap

variable (sha256 : String → String) (config : FairShareConfig)
  (workerId serviceTier modelGroup : String) (snapshotAt now : Timestamp) (db : SchedulerDatabase)

/-- The claimed flow stays within the cap, and the claim within the budget of the selection. -/
def WithinCap (result : FairShareResult) : Prop :=
  let inFlight := flowInFlight sha256 (normalizeFlowPart serviceTier "standard") (strip modelGroup)
    now
  match result.outcome with
  | .claimed attempt claim =>
      (inFlight result.database attempt.flow.key ≤
          max config.tenantMaxInFlightWorkUnits (inFlight db attempt.flow.key) ∨
        (inFlight db attempt.flow.key = 0 ∧
          config.tenantMaxInFlightWorkUnits < nextItem attempt.flow)) ∧
      claim.claimedWorkUnits ≤ selectionBudget config attempt
  | _ => True

/-- Under the oversized first item, the head item of the job that comes first in the order of the
claim fits the budget. -/
def ClaimHeadFits (jobs : List BatchJobRow) (attempt : FlowAttempt) : Prop :=
  let request := claimRequest config workerId attempt
  let admitted := JobAdmitted request now RowLocks.free (capacityState request now jobs db.items)
    db.items
  attempt.oversizedFirstItem = true → ∀ job ∈ jobs, admitted job →
    (∀ other ∈ jobs, admitted other → jobOrder request now job other) →
      ∀ head ∈ headItem now job.batchId db.items, head.workUnits ≤ selectionBudget config attempt

instance (result : FairShareResult) :
    Decidable (WithinCap sha256 config serviceTier modelGroup now db result) := by
  unfold WithinCap
  split <;> exact inferInstance

variable {sha256 config workerId serviceTier modelGroup snapshotAt now db}

/-- The claim keeps its budget exactly when the condition on the head items holds. -/
theorem claimedWorkUnits_le_iff {jobs : List BatchJobRow} {attempt : FlowAttempt}
    {flowClaim : FlowClaim} (hfits : FitsTenantCap config attempt.flow)
    (h : claimSelectedFlow config workerId now RowLocks.free jobs db.items attempt =
      some flowClaim) :
    flowClaim.claim.claimedWorkUnits ≤ selectionBudget config attempt ↔
      ClaimHeadFits config workerId now db jobs attempt := by
  obtain ⟨job, hselected, hnonempty, hunits, _⟩ := claimSelectedFlow_some h
  obtain ⟨hjob, hadmitted⟩ := selectedJob_admitted hselected
  have hranked := claimRequest_ranked config workerId attempt
  rw [hunits]
  by_cases hoversized : attempt.oversizedFirstItem = true
  · have hone : (claimRequest config workerId attempt).boundedMaxItems = 1 := by
      simp [claimRequest, WorkClaimRequest.boundedMaxItems, hoversized]
    obtain ⟨head, hhead, heligible⟩ := eligibleItems_eq_head hone hnonempty
    rw [heligible, List.map_singleton, List.sum_singleton]
    constructor
    · intro hle _ other hother hotherAdmitted hfirst otherHead hotherHead
      have hsame := jobOrder_antisymm hranked (hfirst job hjob hadmitted)
        (selectedJob_first hselected hother hotherAdmitted)
      rw [hsame, hhead] at hotherHead
      obtain rfl := Option.some.inj hotherHead
      exact hle
    · intro hcondition
      refine hcondition hoversized job hjob hadmitted ?_ head hhead
      intro other hother hotherAdmitted
      exact selectedJob_first hselected hother hotherAdmitted
  · have hallowed : (claimRequest config workerId attempt).allowOversizedFirstItem = false := by
      simpa [claimRequest] using hoversized
    have hsum := sum_eligibleItems_le hallowed hnonempty
    have hone := one_le_flowClaimWorkUnits hfits attempt.selection.singleEligibleFlow
    have hbounded : (claimRequest config workerId attempt).boundedMaxWorkUnits =
        selectionBudget config attempt := by
      simp only [WorkClaimRequest.boundedMaxWorkUnits, claimRequest, selectionBudget, hoversized]
      exact max_eq_right hone
    rw [hbounded] at hsum
    exact ⟨fun _ hover => absurd hover hoversized, fun _ => hsum⟩

/-- Within its budget a claim keeps the flow within the cap. -/
theorem flowInFlight_le_cap (hcap : 0 < config.tenantMaxInFlightWorkUnits)
    (hdigest : SpaceFree sha256) (hitems : (db.items.map BatchItemRow.itemId).Nodup)
    {attempt : FlowAttempt} {claim : WorkClaim} {after : SchedulerDatabase}
    (hselected : SelectedFrom config
      (decisionRecords sha256 config serviceTier modelGroup snapshotAt now db) attempt)
    (h : claimSelectedFlow config workerId now RowLocks.free
      (repairedJobs sha256 serviceTier modelGroup snapshotAt now db) db.items attempt =
        some ⟨claim, after.jobs, after.items⟩)
    (hbudget : claim.claimedWorkUnits ≤ selectionBudget config attempt) :
    flowInFlight sha256 serviceTier modelGroup now after attempt.flow.key ≤
      config.tenantMaxInFlightWorkUnits := by
  obtain ⟨job, hjob, _, hunits, hjobs, hafter⟩ := claimSelectedFlow_some h
  simp only at hunits hjobs hafter
  have hrepaired : SameFlows sha256 db.jobs
      (repairedJobs sha256 serviceTier modelGroup snapshotAt now db) :=
    sameFlows_repairLegacyScopes hdigest serviceTier modelGroup legacyScopeRepairs_valid
  have hflows : SameFlows sha256 db.jobs after.jobs := by
    refine hrepaired.trans ?_
    rw [hjobs]
    exact sameFlows_updateWhere (fun _ => rfl) fun row _ => ⟨rfl, rfl, fun _ => rfl⟩
  have hmoved := flowInFlight_claim_le serviceTier modelGroup attempt.flow.key hitems
    (fun item hitem => (mem_eligibleItems hitem).1) hflows hafter
  have hrecorded : attempt.flow.inFlightWorkUnits =
      flowInFlight sha256 serviceTier modelGroup now db attempt.flow.key := by
    obtain ⟨original, horiginal, deficit, hflow⟩ := hselected.refilled
    have hunitsOf := decisionRecords_inFlight horiginal
    rw [hflow]
    exact hunitsOf
  have hremaining : tenantRemainingWorkUnits config attempt.flow =
      some (config.tenantMaxInFlightWorkUnits - attempt.flow.inFlightWorkUnits) := by
    rw [tenantRemainingWorkUnits, if_neg hcap.ne']
  have hpositive := (hselected.fits _ hremaining).1
  have hwithin := selectionBudget_le hremaining hselected.fits
  rw [← hunits] at hmoved
  omega

end Cap

def teamJob (batchId : String) (remainingWorkUnits : ℕ) : BatchJobRow :=
  { createdJob batchId "/v1/embeddings" 5 with
    schedulingModelGroup := some "m"
    tenantScopeType := some "team"
    tenantScopeId := some "a"
    estimatedWorkUnits := remainingWorkUnits
    remainingWorkUnits := remainingWorkUnits }

def pendingItem (itemId batchId : String) (lineNumber workUnits : ℕ) : BatchItemRow :=
  createdItem itemId batchId lineNumber itemId [] workUnits

def delayedQueue : SchedulerDatabase :=
  { jobs := [{ teamJob "job-run" 4 with status := .inProgress }, teamJob "job-a" 20,
      teamJob "job-b" 50]
    items := [
      { pendingItem "run-1" "job-run" 1 4 with
        status := .inProgress, lockedBy := some "other", leaseExpiresAt := some 1000 },
      pendingItem "a-1" "job-a" 1 20,
      pendingItem "b-1" "job-b" 1 5,
      { pendingItem "b-2" "job-b" 2 45 with notBeforeAt := some 1000 }]
    flows := [] }

def cappedConfig (maxWorkUnits : ℕ) : FairShareConfig :=
  { maxItems := 10
    maxWorkUnits := maxWorkUnits
    leaseSeconds := 60
    tenantMaxInFlightWorkUnits := 10
    sizeAwareSchedulingEnabled := true }

end TenantInFlightCap
