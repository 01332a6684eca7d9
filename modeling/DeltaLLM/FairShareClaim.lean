import DeltaLLM.FlowSnapshots

/-! # The fair-share claim

One transaction under the lock of a model group and service tier: refresh the flows from the
snapshots, decide, claim work of the selected flow, and charge its deficit. The candidate snapshot
is read before the transaction, so it has a time of its own.
-/
namespace FairShareClaim

open BatchRecords
open BatchItemStatements (updateClaimed)
open BatchJobStatements (workClaimJobRow)
open BatchWorkClaim
open FlowSelection
open FlowSnapshots
open PythonText (strip)
open SchedulerFlows
open TableStatements

structure SchedulerDatabase where
  jobs : List BatchJobRow
  items : List BatchItemRow
  flows : List SchedulerFlowRow

/-- A claim together with the tables it leaves. -/
structure FlowClaim where
  claim : WorkClaim
  jobs : List BatchJobRow
  items : List BatchItemRow

inductive FairShareOutcome where
  | missingModelGroup
  | noWork (reason : NoWorkReason)
  | claimed (attempt : FlowAttempt) (claim : WorkClaim)

structure FairShareResult where
  attempts : List FlowAttempt
  outcome : FairShareOutcome
  database : SchedulerDatabase

section Claim

variable (config : FairShareConfig)

/-- The request that `_claim_scheduler_selected_flow` makes for a selected flow. -/
def claimRequest (workerId : String) (attempt : FlowAttempt) : WorkClaimRequest :=
  let key := attempt.flow.key
  let oversized := attempt.oversizedFirstItem
  { rankRequest config with
    workerId := workerId
    maxItems := if oversized then 1 else config.maxItems
    maxWorkUnits :=
      flowClaimWorkUnits config attempt.flow attempt.selection.singleEligibleFlow
    allowedModelGroups := [key.modelGroup]
    serviceTier := some key.serviceTier
    capacityModelGroup := some key.modelGroup
    capacityServiceTier := some key.serviceTier
    capacityMaxInFlightItems := config.capacityMaxInFlightItems
    capacityMaxInFlightWorkUnits := config.capacityMaxInFlightWorkUnits
    tenantScopeType := some key.tenantScopeType
    tenantScopeId := some key.tenantScopeId
    allowOversizedFirstItem := oversized
    workClaimMinItemsForMicrobatch := config.workClaimMinItemsForMicrobatch }

/-- `_claim_scheduler_selected_flow`, none for an empty flow. -/
def claimSelectedFlow (workerId : String) (now : Timestamp) (locks : RowLocks)
    (jobs : List BatchJobRow) (items : List BatchItemRow) (attempt : FlowAttempt) :
    Option FlowClaim :=
  let result := claimNextWork (claimRequest config workerId attempt) now locks jobs items
  result.claim.map fun claim => ⟨claim, result.jobs, result.items⟩

end Claim

section Transaction

variable (sha256 : String → String) (config : FairShareConfig) (serviceTier modelGroup : String)
  (snapshotAt now : Timestamp) (db : SchedulerDatabase)

/-- `refresh_snapshot`. -/
def decisionAggregates : List FlowAggregate :=
  mergeSchedulerFlowSnapshots
    (candidateAggregates config sha256 serviceTier modelGroup snapshotAt db.jobs db.items)
    (inFlightAggregates (inFlightFlowKey sha256 serviceTier modelGroup now db.jobs) db.items)

theorem decisionAggregates_nodup :
    ((decisionAggregates sha256 config serviceTier modelGroup snapshotAt now db).map
      FlowAggregate.key).Nodup :=
  mergeSchedulerFlowSnapshots_nodup (candidateAggregates_nodup ..) (inFlightAggregates_nodup ..)

def repairedJobs : List BatchJobRow :=
  repairLegacyScopes serviceTier modelGroup
    (legacyScopeRepairs sha256 serviceTier modelGroup snapshotAt now db.jobs db.items) db.jobs

/-- The stored flows that the decision starts from. -/
def refreshedFlows : List SchedulerFlowRow :=
  refreshSchedulerFlows sha256 config.tuning serviceTier modelGroup
    (decisionAggregates sha256 config serviceTier modelGroup snapshotAt now db) db.flows

/-- The flow records that the decision starts from. -/
def decisionRecords : List BatchSchedulerFlowRecord :=
  refreshedRecords sha256 config.tuning
    (decisionAggregates sha256 config serviceTier modelGroup snapshotAt now db) db.flows

/-- The transaction of `claim_next_fair_share_work` for normalized arguments. -/
def fairShareTransaction (workerId : String) (locks : RowLocks) : FairShareResult :=
  let jobs := repairedJobs sha256 serviceTier modelGroup snapshotAt now db
  let decision := fairShareDecision config serviceTier modelGroup
    (claimSelectedFlow config workerId now locks jobs db.items)
    (decisionRecords sha256 config serviceTier modelGroup snapshotAt now db)
    (refreshedFlows sha256 config serviceTier modelGroup snapshotAt now db)
  match decision.outcome with
  | .noWork reason => ⟨decision.attempts, .noWork reason, ⟨jobs, db.items, decision.flows⟩⟩
  | .claimed attempt claim =>
      { attempts := decision.attempts
        outcome := .claimed attempt claim.claim
        database :=
          { jobs := claim.jobs
            items := claim.items
            flows := chargeFlow config.tuning now attempt.flow.flowId attempt.flow.quantumWorkUnits
              claim.claim.claimedWorkUnits decision.flows } }

end Transaction

/-- `claim_next_fair_share_work`, once the flow lock is held. -/
def claimNextFairShareWork (sha256 : String → String) (config : FairShareConfig)
    (workerId serviceTier modelGroup : String) (snapshotAt now : Timestamp) (locks : RowLocks)
    (db : SchedulerDatabase) : FairShareResult :=
  if strip modelGroup = "" then ⟨[], .missingModelGroup, db⟩
  else
    fairShareTransaction sha256 config (normalizeFlowPart serviceTier "standard")
      (strip modelGroup) snapshotAt now db workerId locks

section Claimed

variable {sha256 : String → String} {config : FairShareConfig}
  {workerId serviceTier modelGroup : String} {snapshotAt now : Timestamp} {locks : RowLocks}
  {db : SchedulerDatabase} {attempt : FlowAttempt} {claim : WorkClaim}

/-- Every record counts the work in flight of its flow. -/
theorem decisionRecords_inFlight {flow : BatchSchedulerFlowRecord}
    (h : flow ∈ decisionRecords sha256 config serviceTier modelGroup snapshotAt now db) :
    flow.inFlightWorkUnits =
      workUnitsOf (inFlightFlowKey sha256 serviceTier modelGroup now db.jobs) db.items flow.key := by
  rw [decisionRecords, refreshedRecords_eq (decisionAggregates_nodup ..)] at h
  obtain ⟨aggregate, haggregate, rfl⟩ := List.mem_map.mp h
  have hunits := mergeSchedulerFlowSnapshots_units haggregate
  cases hfound : rowWithKey SchedulerFlowRow.key aggregate.key db.flows with
  | none => exact hunits
  | some row => exact hunits.trans (congrArg _ (rowWithKey_some hfound).2.symm)

theorem transaction_attempts :
    (fairShareTransaction sha256 config serviceTier modelGroup snapshotAt now db workerId
        locks).attempts =
      (fairShareDecision config serviceTier modelGroup
        (claimSelectedFlow config workerId now locks
          (repairedJobs sha256 serviceTier modelGroup snapshotAt now db) db.items)
        (decisionRecords sha256 config serviceTier modelGroup snapshotAt now db)
        (refreshedFlows sha256 config serviceTier modelGroup snapshotAt now db)).attempts := by
  simp only [fairShareTransaction]
  split <;> rfl

/-- What a claiming transaction did: it claimed from a flow that the selection admitted. -/
theorem fairShareTransaction_claimed
    (h : (fairShareTransaction sha256 config serviceTier modelGroup snapshotAt now db workerId
      locks).outcome = .claimed attempt claim) :
    let result := fairShareTransaction sha256 config serviceTier modelGroup snapshotAt now db
      workerId locks
    claimSelectedFlow config workerId now locks
        (repairedJobs sha256 serviceTier modelGroup snapshotAt now db) db.items attempt =
      some ⟨claim, result.database.jobs, result.database.items⟩ ∧
    SelectedFrom config (decisionRecords sha256 config serviceTier modelGroup snapshotAt now db)
      attempt := by
  simp only [fairShareTransaction] at h ⊢
  split at h
  · cases h
  · next tried flowClaim hdecision =>
      injection h with htried hclaim
      subst htried hclaim
      exact claimed_of_rounds _ hdecision

/-- The statement behind a claim from a selected flow. -/
theorem claimSelectedFlow_some {jobs : List BatchJobRow} {items : List BatchItemRow}
    {flowClaim : FlowClaim}
    (h : claimSelectedFlow config workerId now locks jobs items attempt = some flowClaim) :
    ∃ job, selectedJob (claimRequest config workerId attempt) now locks jobs items = some job ∧
      eligibleItems (claimRequest config workerId attempt) now locks jobs items job ≠ [] ∧
      flowClaim.claim.claimedWorkUnits = ((eligibleItems (claimRequest config workerId attempt) now
        locks jobs items job).map BatchItemRow.workUnits).sum ∧
      flowClaim.jobs =
        updateWhere (fun row => row.batchId = job.batchId) (workClaimJobRow now) jobs ∧
      flowClaim.items = updateClaimed now workerId config.leaseSeconds
        ((eligibleItems (claimRequest config workerId attempt) now locks jobs items job).map
          BatchItemRow.itemId) items := by
  obtain ⟨claim, hclaim, rfl⟩ := Option.map_eq_some_iff.mp h
  obtain ⟨job, hselected, hnonempty, _, _, hids, hunits, hjobs, hitems⟩ := claimNextWork_some hclaim
  rw [hids] at hitems
  exact ⟨job, hselected, hnonempty, hunits, hjobs, hitems⟩

end Claimed

end FairShareClaim
