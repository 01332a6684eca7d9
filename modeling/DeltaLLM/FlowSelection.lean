import DeltaLLM.SchedulerFlows
import Mathlib.Data.List.Induction

/-! # Flow selection

One pass over the flows of a model group. It skips the flows that may not run now and selects
the flow that waited longest among the rest. A decision repeats the pass and refills the deficits
between passes; the last pass ignores the deficits.
-/
namespace FlowSelection

open BatchRecords
open SchedulerFlows
open TableStatements

/-- The arguments of `claim_next_fair_share_work` that decisions depend on. -/
structure FairShareConfig where
  maxItems : ℕ
  maxWorkUnits : ℕ
  leaseSeconds : ℕ
  capacityMaxInFlightItems : Option ℕ := none
  capacityMaxInFlightWorkUnits : Option ℕ := none
  tuning : FlowTuning := {}
  tenantMaxInFlightWorkUnits : ℕ := 0
  sizeAwareSchedulingEnabled : Bool := false
  agingSecondsPerWorkUnit : ℕ := 30
  maxAgeCreditWorkUnits : ℕ := 1000
  minLargeJobClaimIntervalSeconds : ℕ := 30
  maxActiveFlowsPerDecision : ℕ := 100
  maxCandidateJobsPerFlow : ℕ := 50
  workClaimMinItemsForMicrobatch : ℕ := 4

inductive SkipReason where
  | emptyFlow | tenantInFlightFull | oversizedHeadItem | insufficientDeficit
  deriving DecidableEq, Repr

/-- Why a decision ends without a claim. -/
inductive NoWorkReason where
  | noActiveFlow | tenantInFlightFull | flowScanLimitReached | emptyFlow
  deriving DecidableEq, Repr

/-- The skip reason of each flow id, in insertion order. -/
abbrev SkipReasons := List (String × SkipReason)

/-- `skip_reasons[flow_id] = reason`. -/
def recordSkip (entry : String × SkipReason) : SkipReasons → SkipReasons
  | [] => [entry]
  | old :: rest => if old.1 = entry.1 then entry :: rest else old :: recordSkip entry rest

def skipReasonsOf (entries : List (String × SkipReason)) : SkipReasons :=
  entries.foldl (fun reasons entry => recordSkip entry reasons) []

/-- `datetime.max`. -/
def maxTimestamp : Timestamp := 315537897599999999

/-- The sort key of both passes: last selection, queue age, then the id. -/
def flowOrder (a b : BatchSchedulerFlowRecord) : Prop :=
  let selectedA := a.lastSelectedAt.getD 0
  let selectedB := b.lastSelectedAt.getD 0
  let oldestA := a.oldestQueueEnteredAt.getD maxTimestamp
  let oldestB := b.oldestQueueEnteredAt.getD maxTimestamp
  selectedA < selectedB ∨ (selectedA = selectedB ∧
    (oldestA < oldestB ∨ (oldestA = oldestB ∧ a.flowId ≤ b.flowId)))

instance : DecidableRel flowOrder := by
  intro a b
  unfold flowOrder
  exact inferInstance

def ActiveFlow (flow : BatchSchedulerFlowRecord) : Prop :=
  flow.active = true ∧ 0 < flow.queuedJobs ∧ 0 < flow.queuedWorkUnits

instance (flow : BatchSchedulerFlowRecord) : Decidable (ActiveFlow flow) := by
  unfold ActiveFlow
  exact inferInstance

/-- What one pass says about one scanned flow. -/
inductive FlowVerdict where
  | skipped (reason : SkipReason)
  | candidate (oversized : Bool)
  deriving DecidableEq, Repr

namespace FlowVerdict

def isCandidate : FlowVerdict → Bool
  | candidate _ => true
  | skipped _ => false

/-- A flow that only lacks deficit counts as eligible unless its head item is oversized. -/
def eligible : FlowVerdict → Bool
  | candidate _ => true
  | skipped reason => reason = .insufficientDeficit

def skipReason : FlowVerdict → Option SkipReason
  | candidate _ => none
  | skipped reason => some reason

end FlowVerdict

/-- `_SchedulerFlowSelection`. -/
structure SchedulerFlowSelection where
  selected : Option BatchSchedulerFlowRecord
  skipReasons : SkipReasons
  activeFlowCount : ℕ
  eligibleFlowCount : ℕ
  selectedUsesOversizedFirstItem : Bool
  scannedFlowCount : ℕ
  scanLimitReached : Bool

def SchedulerFlowSelection.singleEligibleFlow (selection : SchedulerFlowSelection) : Bool :=
  selection.eligibleFlowCount = 1 && !selection.scanLimitReached

section Selection

variable (config : FairShareConfig)

def FairShareConfig.boundedMaxWorkUnits : ℕ := max 1 config.maxWorkUnits

def FairShareConfig.boundedMaxActiveFlows : ℕ :=
  max 1 (min (if config.maxActiveFlowsPerDecision = 0 then 100
    else config.maxActiveFlowsPerDecision) 1000)

/-- `_tenant_remaining_work_units`. -/
def tenantRemainingWorkUnits (flow : BatchSchedulerFlowRecord) : Option ℕ :=
  if config.tenantMaxInFlightWorkUnits = 0 then none
  else some (config.tenantMaxInFlightWorkUnits - flow.inFlightWorkUnits)

/-- The head item as the pass reads it. -/
def nextItem (flow : BatchSchedulerFlowRecord) : ℕ := max 1 flow.nextItemWorkUnits

/-- The head item fits what the tenant cap leaves. -/
def FitsTenantCap (flow : BatchSchedulerFlowRecord) : Prop :=
  ∀ remaining ∈ tenantRemainingWorkUnits config flow, 0 < remaining ∧ nextItem flow ≤ remaining

instance (flow : BatchSchedulerFlowRecord) : Decidable (FitsTenantCap config flow) := by
  unfold FitsTenantCap
  exact inferInstance

def Oversized (flow : BatchSchedulerFlowRecord) : Prop :=
  config.boundedMaxWorkUnits < nextItem flow

instance (flow : BatchSchedulerFlowRecord) : Decidable (Oversized config flow) := by
  unfold Oversized
  exact inferInstance

/-- The deficit pays for the head item; an oversized one needs the maximum deficit at most. -/
def DeficitCovers (flow : BatchSchedulerFlowRecord) : Prop :=
  if Oversized config flow then
    (min (nextItem flow)
      (maxDeficitForFlow flow.quantumWorkUnits config.tuning.maxDeficitMultiplier) : ℤ) ≤
        flow.deficitWorkUnits
  else (nextItem flow : ℤ) ≤ flow.deficitWorkUnits

instance (flow : BatchSchedulerFlowRecord) : Decidable (DeficitCovers config flow) := by
  unfold DeficitCovers
  exact inferInstance

/-- The body of the loop in `_select_scheduler_flow`. -/
def flowVerdict (allowDeficitBypass : Bool) (excludedFlowIds : List String)
    (singleActiveFlow : Bool) (flow : BatchSchedulerFlowRecord) : FlowVerdict :=
  if flow.flowId ∈ excludedFlowIds then .skipped .emptyFlow
  else if ¬FitsTenantCap config flow then .skipped .tenantInFlightFull
  else if allowDeficitBypass then .candidate (decide (Oversized config flow))
  else if singleActiveFlow = true ∨ DeficitCovers config flow then
    .candidate (decide (Oversized config flow))
  else if Oversized config flow then .skipped .oversizedHeadItem
  else .skipped .insufficientDeficit

def activeFlows (flows : List BatchSchedulerFlowRecord) : List BatchSchedulerFlowRecord :=
  flows.filter fun flow => ActiveFlow flow

/-- The flows that one pass looks at. -/
def scannedFlows (flows : List BatchSchedulerFlowRecord) : List BatchSchedulerFlowRecord :=
  selectFirst ActiveFlow flowOrder config.boundedMaxActiveFlows flows

/-- `_select_scheduler_flow`. -/
def selectSchedulerFlow (allowDeficitBypass : Bool) (excludedFlowIds : List String)
    (flows : List BatchSchedulerFlowRecord) : SchedulerFlowSelection :=
  let total := (activeFlows flows).length
  let scanned := scannedFlows config flows
  let verdict := flowVerdict config allowDeficitBypass excludedFlowIds (decide (total = 1))
  let candidates := scanned.filter fun flow => (verdict flow).isCandidate
  let oversizedIds :=
    (scanned.filter fun flow => verdict flow = .candidate true).map fun flow => flow.flowId
  let selected := (candidates.insertionSort flowOrder).head?
  { selected := selected
    skipReasons := skipReasonsOf (scanned.filterMap fun flow =>
      (verdict flow).skipReason.map fun reason => (flow.flowId, reason))
    activeFlowCount := total
    eligibleFlowCount := (scanned.filter fun flow => (verdict flow).eligible).length
    selectedUsesOversizedFirstItem := selected.any fun flow => flow.flowId ∈ oversizedIds
    scannedFlowCount := scanned.length
    scanLimitReached := decide (scanned.length < total) }

/-- `_terminal_empty_scheduler_flow_result`. -/
def terminalEmptyResult (selection : SchedulerFlowSelection) : Option NoWorkReason :=
  if selection.activeFlowCount = 0 then some .noActiveFlow
  else if selection.skipReasons.length = selection.activeFlowCount ∧
      selection.skipReasons ≠ [] ∧
      ∀ entry ∈ selection.skipReasons, entry.2 = .tenantInFlightFull then
    some .tenantInFlightFull
  else if selection.scanLimitReached then some .flowScanLimitReached
  else none

/-- `_flow_claim_work_units`. -/
def flowClaimWorkUnits (flow : BatchSchedulerFlowRecord) (singleEligibleFlow : Bool) : ℕ :=
  let bounded := match tenantRemainingWorkUnits config flow with
    | none => config.boundedMaxWorkUnits
    | some remaining => min config.boundedMaxWorkUnits remaining
  if singleEligibleFlow then bounded else min bounded (max 1 flow.deficitWorkUnits.toNat)

end Selection

/-- One selected flow that a decision tries to claim from. -/
structure FlowAttempt where
  flow : BatchSchedulerFlowRecord
  selection : SchedulerFlowSelection
  deficitBypass : Bool

/-- The claim may take one first item of any cost. -/
def FlowAttempt.oversizedFirstItem (attempt : FlowAttempt) : Bool :=
  attempt.deficitBypass || attempt.selection.selectedUsesOversizedFirstItem

inductive DecisionOutcome (γ : Type*) where
  | noWork (reason : NoWorkReason)
  | claimed (attempt : FlowAttempt) (claim : γ)

/-- What a decision did: the flows it selected, how it ended, and the stored flows. -/
structure Decision (γ : Type*) where
  attempts : List FlowAttempt
  outcome : DecisionOutcome γ
  flows : List SchedulerFlowRow

structure DecisionState where
  records : List BatchSchedulerFlowRecord
  flows : List SchedulerFlowRow
  emptyFlowIds : List String

section Decision

variable {γ : Type*} (config : FairShareConfig) (serviceTier modelGroup : String)
  (attempt : FlowAttempt → Option γ)

/-- Refill the stored deficits, and the records when a stored flow was refilled. -/
def DecisionState.refill (state : DecisionState) : DecisionState :=
  { state with
    flows := refillSchedulerFlowDeficits config.tuning serviceTier modelGroup state.flows
    records :=
      if ∃ row ∈ state.flows, Refillable serviceTier modelGroup row then
        simulateSchedulerFlowDeficitRefill config.tuning state.records
      else state.records }

/-- The last pass, which ignores the deficits. -/
def bypassRound (state : DecisionState) : Decision γ :=
  let selection := selectSchedulerFlow config true state.emptyFlowIds state.records
  match selection.selected with
  | none =>
      let reason := (terminalEmptyResult selection).getD
        (if state.emptyFlowIds = [] then .noActiveFlow else .emptyFlow)
      ⟨[], .noWork reason, state.flows⟩
  | some flow =>
      let tried : FlowAttempt := ⟨flow, selection, true⟩
      match attempt tried with
      | some claim => ⟨[tried], .claimed tried claim, state.flows⟩
      | none => ⟨[tried], .noWork .emptyFlow, state.flows⟩

/-- The rounds of `claim_next_fair_share_work`, over the claim of one selected flow. -/
def fairShareRounds : ℕ → DecisionState → Decision γ
  | 0, state => bypassRound config attempt state
  | n + 1, state =>
      let selection := selectSchedulerFlow config false state.emptyFlowIds state.records
      match selection.selected with
      | some flow =>
          let tried : FlowAttempt := ⟨flow, selection, false⟩
          match attempt tried with
          | some claim => ⟨[tried], .claimed tried claim, state.flows⟩
          | none =>
              let later := fairShareRounds n
                { state with emptyFlowIds := state.emptyFlowIds ++ [flow.flowId] }
              { later with attempts := tried :: later.attempts }
      | none =>
          match terminalEmptyResult selection with
          | some reason => ⟨[], .noWork reason, state.flows⟩
          | none => fairShareRounds n (state.refill config serviceTier modelGroup)

/-- The decision after the refresh of the flows. -/
def fairShareDecision (records : List BatchSchedulerFlowRecord) (flows : List SchedulerFlowRow) :
    Decision γ :=
  fairShareRounds config serviceTier modelGroup attempt (max 1 config.tuning.maxDeficitMultiplier)
    ⟨records, flows, []⟩

end Decision

section SkipReasons

theorem length_recordSkip (entry : String × SkipReason) (reasons : SkipReasons) :
    (recordSkip entry reasons).length ≤ reasons.length + 1 ∧
      ((recordSkip entry reasons).length = reasons.length + 1 →
        recordSkip entry reasons = reasons ++ [entry]) := by
  induction reasons with
  | nil => simp [recordSkip]
  | cons old rest ih =>
      by_cases hid : old.1 = entry.1
      · simp [recordSkip, hid]
      · simp only [recordSkip, hid, if_false, List.length_cons, List.cons_append]
        refine ⟨by omega, fun hlength => ?_⟩
        rw [ih.2 (by omega)]

theorem skipReasonsOf_append (entries : List (String × SkipReason)) (entry : String × SkipReason) :
    skipReasonsOf (entries ++ [entry]) = recordSkip entry (skipReasonsOf entries) := by
  simp [skipReasonsOf]

/-- A flow id seen twice makes the table of reasons shorter than the list of skipped flows. -/
theorem length_skipReasonsOf (entries : List (String × SkipReason)) :
    (skipReasonsOf entries).length ≤ entries.length ∧
      ((skipReasonsOf entries).length = entries.length → skipReasonsOf entries = entries) := by
  induction entries using List.reverseRecOn with
  | nil => simp [skipReasonsOf]
  | append_singleton entries entry ih =>
      have hrecord := length_recordSkip entry (skipReasonsOf entries)
      rw [skipReasonsOf_append, List.length_append, List.length_singleton]
      refine ⟨by omega, fun hlength => ?_⟩
      have hentries := ih.2 (by omega)
      rw [hrecord.2 (by omega), hentries]

end SkipReasons

section SelectionFacts

variable {config : FairShareConfig} {flows : List BatchSchedulerFlowRecord}
  {flow : BatchSchedulerFlowRecord}

theorem one_le_boundedMaxActiveFlows
    (config : FairShareConfig) : 1 ≤ config.boundedMaxActiveFlows := le_max_left _ _

theorem length_scannedFlows (config : FairShareConfig) (flows : List BatchSchedulerFlowRecord) :
    (scannedFlows config flows).length =
      min config.boundedMaxActiveFlows (activeFlows flows).length := by
  simp [scannedFlows, selectFirst, activeFlows]

theorem mem_activeFlows : flow ∈ activeFlows flows ↔ flow ∈ flows ∧ ActiveFlow flow := by
  simp [activeFlows]

theorem mem_of_mem_scannedFlows (h : flow ∈ scannedFlows config flows) :
    flow ∈ flows ∧ ActiveFlow flow := mem_of_mem_selectFirst h

/-- Below the scan limit every active flow is scanned. -/
theorem mem_scannedFlows (hlimit : (activeFlows flows).length ≤ config.boundedMaxActiveFlows) :
    flow ∈ scannedFlows config flows ↔ flow ∈ activeFlows flows := by
  have hall : scannedFlows config flows = (activeFlows flows).insertionSort flowOrder := by
    refine List.take_of_length_le ?_
    rw [List.length_insertionSort]
    exact hlimit
  rw [hall, List.mem_insertionSort]

section Pass

variable {bypass : Bool} {excluded : List String}

/-- The verdict of the pass on one flow. -/
def passVerdict (config : FairShareConfig) (bypass : Bool) (excluded : List String)
    (flows : List BatchSchedulerFlowRecord) (flow : BatchSchedulerFlowRecord) : FlowVerdict :=
  flowVerdict config bypass excluded (decide ((activeFlows flows).length = 1)) flow

theorem selected_mem (h : (selectSchedulerFlow config bypass excluded flows).selected = some flow) :
    flow ∈ scannedFlows config flows ∧
      (passVerdict config bypass excluded flows flow).isCandidate = true := by
  have hmem := List.mem_of_mem_head? (Option.mem_def.mpr h)
  rw [List.mem_insertionSort, List.mem_filter] at hmem
  exact hmem

theorem selected_eq_none :
    (selectSchedulerFlow config bypass excluded flows).selected = none ↔
      ∀ flow ∈ scannedFlows config flows,
        (passVerdict config bypass excluded flows flow).isCandidate = false := by
  have hsort : ∀ candidates : List BatchSchedulerFlowRecord,
      (candidates.insertionSort flowOrder).head? = none ↔ candidates = [] := by
    intro candidates
    rw [List.head?_eq_none_iff, ← List.length_eq_zero_iff, List.length_insertionSort,
      List.length_eq_zero_iff]
  refine (hsort _).trans ?_
  rw [List.filter_eq_nil_iff]
  simp [passVerdict]

/-- A candidate is a flow that the tenant cap admits. -/
theorem fits_of_isCandidate {single : Bool}
    (h : (flowVerdict config bypass excluded single flow).isCandidate = true) :
    FitsTenantCap config flow := by
  by_contra hfits
  by_cases hexcluded : flow.flowId ∈ excluded
  · simp [flowVerdict, hexcluded, FlowVerdict.isCandidate] at h
  · simp [flowVerdict, hexcluded, hfits, FlowVerdict.isCandidate] at h

theorem isCandidate_iff {single : Bool} (hfits : FitsTenantCap config flow)
    (hexcluded : flow.flowId ∉ excluded) :
    (flowVerdict config bypass excluded single flow).isCandidate = true ↔
      bypass = true ∨ single = true ∨ DeficitCovers config flow := by
  rw [flowVerdict, if_neg hexcluded, if_neg (not_not.mpr hfits)]
  by_cases hbypass : bypass = true
  · simp [hbypass, FlowVerdict.isCandidate]
  · by_cases hpays : single = true ∨ DeficitCovers config flow
    · simp [hbypass, hpays, FlowVerdict.isCandidate]
    · by_cases hover : Oversized config flow <;>
        simp [hbypass, hpays, hover, FlowVerdict.isCandidate]

theorem terminal_scanLimit (h : config.boundedMaxActiveFlows < (activeFlows flows).length) :
    terminalEmptyResult (selectSchedulerFlow config bypass excluded flows) =
      some .flowScanLimitReached := by
  have hscanned := length_scannedFlows config flows
  have hone := one_le_boundedMaxActiveFlows config
  have hreasons : (selectSchedulerFlow config bypass excluded flows).skipReasons.length <
      (activeFlows flows).length := by
    have hlength := (length_skipReasonsOf ((scannedFlows config flows).filterMap fun flow =>
      (passVerdict config bypass excluded flows flow).skipReason.map fun reason =>
        (flow.flowId, reason))).1
    have hfilter := List.length_filterMap_le (fun flow =>
      (passVerdict config bypass excluded flows flow).skipReason.map fun reason =>
        (flow.flowId, reason)) (scannedFlows config flows)
    exact lt_of_le_of_lt (hlength.trans hfilter) (by omega)
  have hlimit : (selectSchedulerFlow config bypass excluded flows).scanLimitReached = true := by
    simp only [selectSchedulerFlow, decide_eq_true_eq]
    omega
  have hactive : (selectSchedulerFlow config bypass excluded flows).activeFlowCount =
      (activeFlows flows).length := rfl
  rw [terminalEmptyResult, hactive, if_neg (by omega), if_neg (by omega), if_pos hlimit]

/-- Below the scan limit a fitting flow that was not tried keeps the decision going. -/
theorem terminal_none (hlimit : (activeFlows flows).length ≤ config.boundedMaxActiveFlows)
    (hflow : flow ∈ scannedFlows config flows) (hfits : FitsTenantCap config flow)
    (hnone : (selectSchedulerFlow config bypass [] flows).selected = none) :
    terminalEmptyResult (selectSchedulerFlow config bypass [] flows) = none := by
  have hscanned := length_scannedFlows config flows
  have hactive : (selectSchedulerFlow config bypass [] flows).activeFlowCount =
      (activeFlows flows).length := rfl
  have hunlimited : ¬(selectSchedulerFlow config bypass [] flows).scanLimitReached = true := by
    simp only [selectSchedulerFlow, decide_eq_true_eq]
    omega
  have hpositive : (activeFlows flows).length ≠ 0 := by
    have := List.length_pos_of_mem hflow
    omega
  have hskipped : ∃ reason, passVerdict config bypass [] flows flow = .skipped reason ∧
      reason ≠ .tenantInFlightFull := by
    have hnot := selected_eq_none.mp hnone flow hflow
    simp only [passVerdict, flowVerdict, List.not_mem_nil, if_false, not_not.mpr hfits] at hnot ⊢
    split_ifs at hnot ⊢ <;> simp [FlowVerdict.isCandidate] at hnot ⊢
  have hfull : ¬((selectSchedulerFlow config bypass [] flows).skipReasons.length =
        (activeFlows flows).length ∧
      (selectSchedulerFlow config bypass [] flows).skipReasons ≠ [] ∧
      ∀ entry ∈ (selectSchedulerFlow config bypass [] flows).skipReasons,
        entry.2 = .tenantInFlightFull) := by
    rintro ⟨hlength, _, hall⟩
    set entries := (scannedFlows config flows).filterMap fun flow =>
      (passVerdict config bypass [] flows flow).skipReason.map fun reason =>
        (flow.flowId, reason) with hentries
    have hfilter : entries.length ≤ (scannedFlows config flows).length :=
      List.length_filterMap_le _ _
    have hreasons := length_skipReasonsOf entries
    have hsame : (selectSchedulerFlow config bypass [] flows).skipReasons = skipReasonsOf entries :=
      rfl
    rw [hsame] at hlength hall
    rw [hreasons.2 (by omega)] at hall
    obtain ⟨reason, hverdict, hreason⟩ := hskipped
    refine hreason (hall (flow.flowId, reason) ?_)
    rw [hentries, List.mem_filterMap]
    exact ⟨flow, hflow, by simp [hverdict, FlowVerdict.skipReason]⟩
  rw [terminalEmptyResult, hactive, if_neg hpositive, if_neg hfull, if_neg hunlimited]

end Pass

end SelectionFacts

section Claimed

variable {γ : Type*} {config : FairShareConfig} {serviceTier modelGroup : String}
  {attempt : FlowAttempt → Option γ}

/-- A record of the list, whatever its deficit. -/
def RefilledFrom (records : List BatchSchedulerFlowRecord) (flow : BatchSchedulerFlowRecord) :
    Prop :=
  ∃ original ∈ records, ∃ deficit, flow = { original with deficitWorkUnits := deficit }

theorem refilledFrom_of_mem {records : List BatchSchedulerFlowRecord}
    {flow : BatchSchedulerFlowRecord} (h : flow ∈ records) : RefilledFrom records flow :=
  ⟨flow, h, flow.deficitWorkUnits, rfl⟩

theorem refilledFrom_refill {state : DecisionState} {flow : BatchSchedulerFlowRecord}
    (h : RefilledFrom (state.refill config serviceTier modelGroup).records flow) :
    RefilledFrom state.records flow := by
  obtain ⟨original, hmem, deficit, rfl⟩ := h
  simp only [DecisionState.refill] at hmem
  split at hmem
  · obtain ⟨record, hrecord, rfl⟩ := List.mem_map.mp hmem
    obtain ⟨refilled, heq⟩ := simulatedRefill_eq config.tuning record
    exact ⟨record, hrecord, deficit, by rw [heq]⟩
  · exact ⟨original, hmem, deficit, rfl⟩

/-- What selection says about a flow that a decision tries. -/
structure SelectedFrom (config : FairShareConfig) (records : List BatchSchedulerFlowRecord)
    (tried : FlowAttempt) : Prop where
  refilled : RefilledFrom records tried.flow
  fits : FitsTenantCap config tried.flow

theorem selectedFrom_of_selected {bypass bypassed : Bool} {excluded : List String}
    {records : List BatchSchedulerFlowRecord} {flow : BatchSchedulerFlowRecord}
    (h : (selectSchedulerFlow config bypass excluded records).selected = some flow) :
    SelectedFrom config records
      ⟨flow, selectSchedulerFlow config bypass excluded records, bypassed⟩ := by
  obtain ⟨hscanned, hcandidate⟩ := selected_mem h
  exact ⟨refilledFrom_of_mem (mem_of_mem_scannedFlows hscanned).1, fits_of_isCandidate hcandidate⟩

/-- A claimed flow was selected from the records of the decision, after some refills. -/
theorem claimed_of_rounds {tried : FlowAttempt} {claim : γ} (n : ℕ) : ∀ {state : DecisionState},
    (fairShareRounds config serviceTier modelGroup attempt n state).outcome =
        .claimed tried claim →
      attempt tried = some claim ∧ SelectedFrom config state.records tried := by
  induction n with
  | zero =>
      intro state h
      rw [fairShareRounds, bypassRound] at h
      cases hselected :
          (selectSchedulerFlow config true state.emptyFlowIds state.records).selected with
      | none => simp [hselected] at h
      | some flow =>
          simp only [hselected] at h
          split at h
          · next hattempt =>
              injection h with htried hclaim
              subst htried hclaim
              exact ⟨hattempt, selectedFrom_of_selected hselected⟩
          · cases h
  | succ n ih =>
      intro state h
      rw [fairShareRounds] at h
      cases hselected :
          (selectSchedulerFlow config false state.emptyFlowIds state.records).selected with
      | none =>
          simp only [hselected] at h
          split at h
          · cases h
          · obtain ⟨hattempt, hfrom⟩ := ih h
            exact ⟨hattempt, refilledFrom_refill hfrom.refilled, hfrom.fits⟩
      | some flow =>
          simp only [hselected] at h
          split at h
          · next hattempt =>
              injection h with htried hclaim
              subst htried hclaim
              exact ⟨hattempt, selectedFrom_of_selected hselected⟩
          · exact @ih { state with emptyFlowIds := state.emptyFlowIds ++ [flow.flowId] } h

end Claimed

end FlowSelection
