import DeltaLLM.FairShareClaim

/-! # Progress of fair-share decisions

A decision that scans every active flow selects a fitting one within its rounds. Above the scan
limit the first pass decides alone: the limit ends the decision before any refill.
-/
namespace FairShareProgress

open BatchRecords
open BatchWorkClaim (RowLocks)
open FairShareClaim
open FlowSelection
open FlowSnapshots
open PythonText (strip)
open SchedulerFlows
open TableStatements

section Refill

variable {tuning : FlowTuning} {flow : BatchSchedulerFlowRecord}

theorem activeFlow_simulatedRefill :
    ActiveFlow (simulatedRefill tuning flow) ↔ ActiveFlow flow := by
  obtain ⟨deficit, heq⟩ := simulatedRefill_eq tuning flow
  rw [heq]
  rfl

theorem fitsTenantCap_simulatedRefill {config : FairShareConfig} :
    FitsTenantCap config (simulatedRefill tuning flow) ↔ FitsTenantCap config flow := by
  obtain ⟨deficit, heq⟩ := simulatedRefill_eq tuning flow
  rw [heq]
  rfl

theorem activeFlows_simulate (flows : List BatchSchedulerFlowRecord) :
    activeFlows (simulateSchedulerFlowDeficitRefill tuning flows) =
      (activeFlows flows).map (simulatedRefill tuning) := by
  rw [activeFlows, simulateSchedulerFlowDeficitRefill, List.filter_map, activeFlows]
  congr 2
  funext flow
  simp [activeFlow_simulatedRefill]

end Refill

section Rounds

variable {γ : Type*} {config : FairShareConfig} {serviceTier modelGroup : String}
  {attempt : FlowAttempt → Option γ}

/-- Every active flow is scanned and one of them fits. -/
structure Selectable (config : FairShareConfig) (records : List BatchSchedulerFlowRecord) :
    Prop where
  limit : (activeFlows records).length ≤ config.boundedMaxActiveFlows
  fits : ∃ flow ∈ activeFlows records, FitsTenantCap config flow

theorem Selectable.refill {state : DecisionState} (h : Selectable config state.records) :
    Selectable config (state.refill config serviceTier modelGroup).records := by
  simp only [DecisionState.refill]
  split
  · refine ⟨?_, ?_⟩
    · rw [activeFlows_simulate, List.length_map]
      exact h.limit
    · obtain ⟨flow, hflow, hfits⟩ := h.fits
      rw [activeFlows_simulate]
      exact ⟨_, List.mem_map_of_mem hflow, fitsTenantCap_simulatedRefill.mpr hfits⟩
  · exact h

/-- Without empty flows the last pass selects a flow that fits. -/
theorem bypass_selects {records : List BatchSchedulerFlowRecord} (h : Selectable config records) :
    (selectSchedulerFlow config true [] records).selected ≠ none := by
  intro hnone
  obtain ⟨flow, hflow, hfits⟩ := h.fits
  have hscanned := (mem_scannedFlows h.limit).mpr hflow
  have hskipped := selected_eq_none.mp hnone flow hscanned
  rw [passVerdict, (isCandidate_iff hfits List.not_mem_nil).mpr (Or.inl rfl)] at hskipped
  cases hskipped

/-- The induction is over the rounds; a refill keeps the records selectable. -/
theorem attempts_ne_nil (n : ℕ) : ∀ {state : DecisionState}, state.emptyFlowIds = [] →
    Selectable config state.records →
      (fairShareRounds config serviceTier modelGroup attempt n state).attempts ≠ [] := by
  induction n with
  | zero =>
      intro state hempty h
      have hselects := bypass_selects h
      rw [fairShareRounds, bypassRound, hempty]
      cases hselected : (selectSchedulerFlow config true [] state.records).selected with
      | none => exact absurd hselected hselects
      | some flow =>
          simp only
          split <;> exact List.cons_ne_nil _ _
  | succ n ih =>
      intro state hempty h
      rw [fairShareRounds, hempty]
      cases hselected : (selectSchedulerFlow config false [] state.records).selected with
      | none =>
          obtain ⟨flow, hflow, hfits⟩ := h.fits
          have hterminal := terminal_none h.limit ((mem_scannedFlows h.limit).mpr hflow) hfits
            hselected
          simp only [hterminal]
          exact ih hempty h.refill
      | some flow =>
          simp only
          split <;> exact List.cons_ne_nil _ _

theorem exists_first_round (multiplier : ℕ) : ∃ n, max 1 multiplier = n + 1 :=
  ⟨max 1 multiplier - 1, by omega⟩

/-- Above the scan limit a first pass without a selection ends the decision. -/
theorem decision_scanLimit {records : List BatchSchedulerFlowRecord}
    {flows : List SchedulerFlowRow}
    (hlimit : config.boundedMaxActiveFlows < (activeFlows records).length)
    (hnone : (selectSchedulerFlow config false [] records).selected = none) :
    fairShareDecision config serviceTier modelGroup attempt records flows =
      ⟨[], .noWork .flowScanLimitReached, flows⟩ := by
  obtain ⟨n, hn⟩ := exists_first_round config.tuning.maxDeficitMultiplier
  simp only [fairShareDecision, hn, fairShareRounds, hnone, terminal_scanLimit hlimit]

/-- A first pass that selects a flow shows in the attempts, whatever the claim says. -/
theorem decision_attempts {records : List BatchSchedulerFlowRecord}
    {flows : List SchedulerFlowRow} {flow : BatchSchedulerFlowRecord}
    (hsome : (selectSchedulerFlow config false [] records).selected = some flow) :
    (fairShareDecision config serviceTier modelGroup attempt records flows).attempts ≠ [] := by
  obtain ⟨n, hn⟩ := exists_first_round config.tuning.maxDeficitMultiplier
  simp only [fairShareDecision, hn, fairShareRounds, hsome]
  split <;> exact List.cons_ne_nil _ _

/-- Above the scan limit more than one flow is active, so the deficits decide. -/
theorem selects_iff {records : List BatchSchedulerFlowRecord}
    (hlimit : config.boundedMaxActiveFlows < (activeFlows records).length) :
    (selectSchedulerFlow config false [] records).selected ≠ none ↔
      ∃ flow ∈ scannedFlows config records, FitsTenantCap config flow ∧
        DeficitCovers config flow := by
  have hone := one_le_boundedMaxActiveFlows config
  have hsingle : ¬(activeFlows records).length = 1 := by omega
  rw [Ne, selected_eq_none]
  constructor
  · intro h
    by_contra hall
    refine h fun flow hflow => ?_
    by_contra hcandidate
    rw [Bool.not_eq_false] at hcandidate
    have hfits := fits_of_isCandidate hcandidate
    have hcovers := (isCandidate_iff hfits List.not_mem_nil).mp hcandidate
    simp only [hsingle, decide_false, Bool.false_eq_true, false_or] at hcovers
    exact hall ⟨flow, hflow, hfits, hcovers⟩
  · rintro ⟨flow, hflow, hfits, hcovers⟩ h
    have hskipped := h flow hflow
    rw [passVerdict, (isCandidate_iff hfits List.not_mem_nil).mpr (Or.inr (Or.inr hcovers))]
      at hskipped
    cases hskipped

/-- The first pass can select a flow, or a later one will. -/
def CanProgress (config : FairShareConfig) (records : List BatchSchedulerFlowRecord) : Prop :=
  (activeFlows records).length ≤ config.boundedMaxActiveFlows ∨
    ∃ flow ∈ scannedFlows config records, FitsTenantCap config flow ∧ DeficitCovers config flow

theorem attempts_of_canProgress {records : List BatchSchedulerFlowRecord}
    {flows : List SchedulerFlowRow}
    (hfits : ∃ flow ∈ scannedFlows config records, FitsTenantCap config flow)
    (h : CanProgress config records) :
    (fairShareDecision config serviceTier modelGroup attempt records flows).attempts ≠ [] := by
  by_cases hlimit : (activeFlows records).length ≤ config.boundedMaxActiveFlows
  · obtain ⟨flow, hflow, hfit⟩ := hfits
    have hactive := (mem_scannedFlows hlimit).mp hflow
    exact attempts_ne_nil _ rfl ⟨hlimit, flow, hactive, hfit⟩
  · have hselects := (selects_iff (by omega)).mpr (h.resolve_left hlimit)
    obtain ⟨flow, hflow⟩ := Option.ne_none_iff_exists'.mp hselects
    exact decision_attempts hflow

theorem decision_of_not_canProgress {records : List BatchSchedulerFlowRecord}
    {flows : List SchedulerFlowRow} (h : ¬CanProgress config records) :
    fairShareDecision config serviceTier modelGroup attempt records flows =
      ⟨[], .noWork .flowScanLimitReached, flows⟩ := by
  rw [CanProgress, not_or, not_le] at h
  refine decision_scanLimit h.1 ?_
  by_contra hselects
  exact h.2 ((selects_iff h.1).mp hselects)

end Rounds

section Transaction

variable {sha256 : String → String} {config : FairShareConfig}
  {workerId serviceTier modelGroup : String} {snapshotAt now : Timestamp} {locks : RowLocks}
  {db : SchedulerDatabase}

theorem transaction_scanLimit
    (h : ¬CanProgress config
      (decisionRecords sha256 config serviceTier modelGroup snapshotAt now db)) :
    fairShareTransaction sha256 config serviceTier modelGroup snapshotAt now db workerId locks =
      ⟨[], .noWork .flowScanLimitReached,
        ⟨repairedJobs sha256 serviceTier modelGroup snapshotAt now db, db.items,
          refreshedFlows sha256 config serviceTier modelGroup snapshotAt now db⟩⟩ := by
  simp only [fairShareTransaction, decision_of_not_canProgress h]

/-- A refresh of flows that the same snapshots refreshed before reads the same records. -/
theorem decisionRecords_refreshed (db : SchedulerDatabase) :
    decisionRecords sha256 config serviceTier modelGroup snapshotAt now
        { db with flows := refreshedFlows sha256 config serviceTier modelGroup snapshotAt now db } =
      decisionRecords sha256 config serviceTier modelGroup snapshotAt now db :=
  refreshedRecords_refresh (decisionAggregates_nodup ..)

end Transaction

def storedDeficits (flows : List SchedulerFlowRow) : List (String × ℤ) :=
  flows.map fun row => (row.flowId, row.deficitWorkUnits)

section Progress

variable (sha256 : String → String) (config : FairShareConfig)
  (workerId serviceTier modelGroup : String) (snapshotAt now : Timestamp) (locks : RowLocks)
  (db : SchedulerDatabase)

/-- The records that `claim_next_fair_share_work` decides on. -/
def claimRecords : List BatchSchedulerFlowRecord :=
  decisionRecords sha256 config (normalizeFlowPart serviceTier "standard") (strip modelGroup)
    snapshotAt now db

/-- The decision selects a flow, or a refill changes a deficit that the refresh stored. -/
def Progress : Prop :=
  let result := claimNextFairShareWork sha256 config workerId serviceTier modelGroup snapshotAt now
    locks db
  result.attempts ≠ [] ∨
    storedDeficits result.database.flows ≠
      storedDeficits (refreshedFlows sha256 config (normalizeFlowPart serviceTier "standard")
        (strip modelGroup) snapshotAt now db)

/-- The tables after repeated decisions when nothing else changes the jobs and items. -/
def afterDecisions (n : ℕ) : SchedulerDatabase :=
  (fun db' => { db with
    flows := (claimNextFairShareWork sha256 config workerId serviceTier modelGroup snapshotAt now
      locks db').database.flows })^[n] db

variable {sha256 config workerId serviceTier modelGroup snapshotAt now locks db}

theorem claim_eq_transaction (hgroup : strip modelGroup ≠ "") :
    claimNextFairShareWork sha256 config workerId serviceTier modelGroup snapshotAt now locks db =
      fairShareTransaction sha256 config (normalizeFlowPart serviceTier "standard")
        (strip modelGroup) snapshotAt now db workerId locks := by
  rw [claimNextFairShareWork, if_neg hgroup]

/-- Every repetition starts from the same records. -/
theorem afterDecisions_records (workerId : String) (locks : RowLocks)
    (hgroup : strip modelGroup ≠ "")
    (h : ¬CanProgress config
      (claimRecords sha256 config serviceTier modelGroup snapshotAt now db)) (n : ℕ) :
    ∃ flows, afterDecisions sha256 config workerId serviceTier modelGroup snapshotAt now locks db n =
        { db with flows := flows } ∧
      claimRecords sha256 config serviceTier modelGroup snapshotAt now { db with flows := flows } =
        claimRecords sha256 config serviceTier modelGroup snapshotAt now db := by
  induction n with
  | zero => exact ⟨db.flows, rfl, rfl⟩
  | succ n ih =>
      obtain ⟨flows, hdb, hrecords⟩ := ih
      have hstuck : ¬CanProgress config
        (claimRecords sha256 config serviceTier modelGroup snapshotAt
          now { db with flows := flows }) := by
        rw [hrecords]
        exact h
      refine ⟨_, ?_, (decisionRecords_refreshed { db with flows := flows }).trans hrecords⟩
      rw [afterDecisions, Function.iterate_succ_apply', ← afterDecisions, hdb,
        claim_eq_transaction hgroup, transaction_scanLimit hstuck]

theorem afterDecisions_outcome (hgroup : strip modelGroup ≠ "")
    (h : ¬CanProgress config
      (claimRecords sha256 config serviceTier modelGroup snapshotAt now db)) (n : ℕ) :
    (claimNextFairShareWork sha256 config workerId serviceTier modelGroup snapshotAt now locks
      (afterDecisions sha256 config workerId serviceTier modelGroup snapshotAt now locks db
        n)).outcome = .noWork .flowScanLimitReached := by
  obtain ⟨flows, hdb, hrecords⟩ := afterDecisions_records workerId locks hgroup h n
  have hstuck : ¬CanProgress config (claimRecords sha256 config serviceTier modelGroup snapshotAt
      now { db with flows := flows }) := by
    rw [hrecords]
    exact h
  rw [hdb, claim_eq_transaction hgroup, transaction_scanLimit hstuck]

theorem progress_iff (hgroup : strip modelGroup ≠ "")
    (hfits : ∃ flow ∈ scannedFlows config
      (claimRecords sha256 config serviceTier modelGroup snapshotAt now db),
        FitsTenantCap config flow) :
    Progress sha256 config workerId serviceTier modelGroup snapshotAt now locks db ↔
      CanProgress config
        (claimRecords sha256 config serviceTier modelGroup snapshotAt now db) := by
  constructor
  · intro hprogress
    by_contra h
    rw [Progress, claim_eq_transaction hgroup, transaction_scanLimit h] at hprogress
    exact hprogress.elim (fun hattempts => hattempts rfl) (fun hdeficits => hdeficits rfl)
  · intro h
    refine Or.inl ?_
    rw [claim_eq_transaction hgroup, transaction_attempts]
    exact attempts_of_canProgress hfits h

end Progress

def tenantJob (batchId tenant : String) (queuedAt : Timestamp) : BatchJobRow :=
  { createdJob batchId "/v1/embeddings" queuedAt with
    schedulingModelGroup := some "m"
    tenantScopeType := some "team"
    tenantScopeId := some tenant
    totalItems := 1
    estimatedWorkUnits := 20
    remainingWorkUnits := 20 }

def twoTenants : SchedulerDatabase :=
  { jobs := [tenantJob "job-a" "a" 1, tenantJob "job-b" "b" 2]
    items := [createdItem "item-a" "job-a" 1 "request-a" [] 20,
      createdItem "item-b" "job-b" 1 "request-b" [] 20]
    flows := [] }

def oneFlowScans : FairShareConfig :=
  { maxItems := 10, maxWorkUnits := 100, leaseSeconds := 60, maxActiveFlowsPerDecision := 1 }

def allFlowScans : FairShareConfig := { oneFlowScans with maxActiveFlowsPerDecision := 2 }

end FairShareProgress
