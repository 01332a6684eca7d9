import DeltaLLM.FairShareProgress
import DeltaLLM.FlowDeficits
import Mathlib.Algebra.Order.Floor.Div
import Mathlib.Tactic.Ring

/-! # Flows that wait

What the rounds of one decision do to a flow that could be selected and is not. Until it is
selected, each refill brings its deficit closer to what its head item costs, and every claim of
another flow uses up deficit or goes to a flow that was last selected no later.
-/
namespace WaitingFlows

open BatchRecords
open FairShareProgress
open FlowDeficits
open FlowSelection
open SchedulerFlows
open TableStatements

/-! ## Passes -/

instance : Std.Total flowOrder := by
  refine ⟨fun a b => ?_⟩
  have hid := le_total a.flowId b.flowId
  unfold flowOrder
  rcases lt_trichotomy (a.lastSelectedAt.getD 0) (b.lastSelectedAt.getD 0) with h | h | h
  · exact Or.inl (Or.inl h)
  · rcases lt_trichotomy (a.oldestQueueEnteredAt.getD maxTimestamp)
      (b.oldestQueueEnteredAt.getD maxTimestamp) with h' | h' | h'
    · exact Or.inl (Or.inr ⟨h, Or.inl h'⟩)
    · rcases hid with hid | hid
      · exact Or.inl (Or.inr ⟨h, Or.inr ⟨h', hid⟩⟩)
      · exact Or.inr (Or.inr ⟨h.symm, Or.inr ⟨h'.symm, hid⟩⟩)
    · exact Or.inr (Or.inr ⟨h.symm, Or.inl h'⟩)
  · exact Or.inr (Or.inl h)

instance : IsTrans BatchSchedulerFlowRecord flowOrder := by
  refine ⟨fun a b c hab hbc => ?_⟩
  unfold flowOrder at *
  rcases hab with hab | ⟨hab, hab'⟩
  · rcases hbc with hbc | ⟨hbc, -⟩
    · exact Or.inl (hab.trans hbc)
    · exact Or.inl (hbc ▸ hab)
  · rcases hbc with hbc | ⟨hbc, hbc'⟩
    · exact Or.inl (hab ▸ hbc)
    · refine Or.inr ⟨hab.trans hbc, ?_⟩
      rcases hab' with hab' | ⟨hab', hid⟩
      · rcases hbc' with hbc' | ⟨hbc', -⟩
        · exact Or.inl (hab'.trans hbc')
        · exact Or.inl (hbc' ▸ hab')
      · rcases hbc' with hbc' | ⟨hbc', hid'⟩
        · exact Or.inl (hab' ▸ hbc')
        · exact Or.inr ⟨hab'.trans hbc', hid.trans hid'⟩

/-- The head item fits a decision only within what the deficit of the flow can reach. -/
def Payable (config : FairShareConfig) (flow : BatchSchedulerFlowRecord) : Prop :=
  ¬Oversized config flow →
    nextItem flow ≤ maxDeficitForFlow flow.quantumWorkUnits config.tuning.maxDeficitMultiplier

/-- A flow that a decision could select, now or after refills. -/
structure Eligible (config : FairShareConfig) (records : List BatchSchedulerFlowRecord)
    (flow : BatchSchedulerFlowRecord) : Prop where
  scanned : flow ∈ scannedFlows config records
  fits : FitsTenantCap config flow
  payable : Payable config flow

section Pass

variable {config : FairShareConfig} {records : List BatchSchedulerFlowRecord}
  {flow other : BatchSchedulerFlowRecord} {excluded : List String}

/-- A deficit at its maximum covers the head item of an eligible flow. -/
theorem Payable.covers (h : Payable config flow)
    (hmax : (maxDeficitForFlow flow.quantumWorkUnits config.tuning.maxDeficitMultiplier : ℤ) ≤
      flow.deficitWorkUnits) : DeficitCovers config flow := by
  unfold DeficitCovers
  by_cases hover : Oversized config flow
  · rw [if_pos hover]
    exact le_trans (min_le_right _ _) hmax
  · rw [if_neg hover]
    have hpays := h hover
    omega

theorem one_le_of_covers (h : DeficitCovers config flow) : 1 ≤ flow.deficitWorkUnits := by
  have hitem : 1 ≤ nextItem flow := le_max_left _ _
  have hmax : 1 ≤ maxDeficitForFlow flow.quantumWorkUnits config.tuning.maxDeficitMultiplier :=
    Nat.mul_pos (by omega) (by omega)
  unfold DeficitCovers at h
  split at h <;> omega

/-- A pass that selects nothing found the deficit of the flow too small. -/
theorem Eligible.deficit_lt (h : Eligible config records flow) (hexcluded : flow.flowId ∉ excluded)
    (hnone : (selectSchedulerFlow config false excluded records).selected = none) :
    flow.deficitWorkUnits <
      maxDeficitForFlow flow.quantumWorkUnits config.tuning.maxDeficitMultiplier := by
  by_contra hmax
  have hcovers := h.payable.covers (not_lt.mp hmax)
  have hskipped := selected_eq_none.mp hnone flow h.scanned
  rw [passVerdict, (isCandidate_iff h.fits hexcluded).mpr (Or.inr (Or.inr hcovers))] at hskipped
  cases hskipped

/-- Two flows are active, so the selected one pays with its deficit. -/
theorem Eligible.selected_pays (h : Eligible config records flow)
    (hselected : (selectSchedulerFlow config false excluded records).selected = some other)
    (hother : other.flowId ≠ flow.flowId) : 1 ≤ other.deficitWorkUnits := by
  obtain ⟨hscanned, hcandidate⟩ := selected_mem hselected
  have hactive := mem_activeFlows.mpr (mem_of_mem_scannedFlows hscanned)
  have hflow := mem_activeFlows.mpr (mem_of_mem_scannedFlows h.scanned)
  have hsingle : (activeFlows records).length ≠ 1 := by
    intro hlength
    obtain ⟨only, honly⟩ := List.length_eq_one_iff.mp hlength
    rw [honly, List.mem_singleton] at hactive hflow
    exact hother (by rw [hactive, hflow])
  have hexcluded : other.flowId ∉ excluded := by
    intro hmem
    simp [passVerdict, flowVerdict, hmem, FlowVerdict.isCandidate] at hcandidate
  rw [passVerdict, isCandidate_iff (fits_of_isCandidate hcandidate) hexcluded] at hcandidate
  rcases hcandidate with hbypass | honly | hcovers
  · cases hbypass
  · simp [hsingle] at honly
  · exact one_le_of_covers hcovers

/-- The last pass selects a flow that was last selected no later. -/
theorem Eligible.bypass_order (h : Eligible config records flow)
    (hexcluded : flow.flowId ∉ excluded)
    (hselected : (selectSchedulerFlow config true excluded records).selected = some other) :
    other.lastSelectedAt.getD 0 ≤ flow.lastSelectedAt.getD 0 := by
  have hfirst : (selectFirst
      (fun flow => (passVerdict config true excluded records flow).isCandidate) flowOrder 1
      (scannedFlows config records)).head? = some other := by
    rw [selectFirst, List.head?_take, if_neg (by decide), ← hselected]
    refine congrArg (fun candidates : List BatchSchedulerFlowRecord =>
      (candidates.insertionSort flowOrder).head?) ?_
    exact List.filter_congr fun _ _ => Bool.decide_eq_true
  have hcandidate : (passVerdict config true excluded records flow).isCandidate = true :=
    (isCandidate_iff h.fits hexcluded).mpr (Or.inl rfl)
  have horder : flowOrder other flow := selectFirst_head_le hfirst h.scanned hcandidate
  rcases horder with hlt | ⟨heq, -⟩
  · exact le_of_lt hlt
  · exact le_of_eq heq

end Pass

/-! ## Refills -/

section Refill

variable {config : FairShareConfig} {serviceTier modelGroup : String}
  {records : List BatchSchedulerFlowRecord} {flow : BatchSchedulerFlowRecord}
  {flows : List SchedulerFlowRow} {state : DecisionState}

/-- The record was read from a stored flow of the group, whatever its queue. -/
def Mirrors (serviceTier modelGroup : String) (flows : List SchedulerFlowRow)
    (record : BatchSchedulerFlowRecord) : Prop :=
  ∃ row ∈ flows, InGroup serviceTier modelGroup row.key ∧
    ∃ oldest nextUnits, record = flowFromRow oldest nextUnits row

theorem refill_flows (state : DecisionState) :
    (state.refill config serviceTier modelGroup).flows =
      refillSchedulerFlowDeficits config.tuning serviceTier modelGroup state.flows := rfl

/-- The records follow the stored flows over a refill. -/
theorem mirrors_refill (hquantum : ∀ row ∈ state.flows, 1 ≤ row.quantumWorkUnits)
    (h : ∀ record ∈ state.records, Mirrors serviceTier modelGroup state.flows record) :
    ∀ record ∈ (state.refill config serviceTier modelGroup).records,
      Mirrors serviceTier modelGroup (state.refill config serviceTier modelGroup).flows record := by
  intro record hrecord
  rw [refill_flows]
  simp only [DecisionState.refill] at hrecord
  by_cases hrefillable : ∃ row ∈ state.flows, Refillable serviceTier modelGroup row
  · rw [if_pos hrefillable] at hrecord
    obtain ⟨original, horiginal, rfl⟩ := List.mem_map.mp hrecord
    obtain ⟨row, hrow, hgroup, oldest, nextUnits, rfl⟩ := h original horiginal
    refine ⟨_, (mem_updateWhere _ _).mpr ⟨row, hrow, rfl⟩, ?_, oldest, nextUnits, ?_⟩
    · split
      · exact hgroup
      · exact hgroup
    · exact (flowFromRow_refill config.tuning hgroup (hquantum row hrow) oldest nextUnits).symm
  · rw [if_neg hrefillable] at hrecord
    obtain ⟨row, hrow, hgroup, hmirror⟩ := h record hrecord
    refine ⟨row, (mem_updateWhere _ _).mpr ⟨row, hrow, ?_⟩, hgroup, hmirror⟩
    rw [if_neg fun hrefill => hrefillable ⟨row, hrow, hrefill⟩]

theorem scannedFlows_simulate (records : List BatchSchedulerFlowRecord) :
    scannedFlows config (simulateSchedulerFlowDeficitRefill config.tuning records) =
      (scannedFlows config records).map (simulatedRefill config.tuning) := by
  have horder : ∀ a b : BatchSchedulerFlowRecord,
      flowOrder a b ↔ flowOrder (simulatedRefill config.tuning a)
        (simulatedRefill config.tuning b) := by
    intro a b
    obtain ⟨deficit, ha⟩ := simulatedRefill_eq config.tuning a
    obtain ⟨deficit', hb⟩ := simulatedRefill_eq config.tuning b
    rw [ha, hb]
    rfl
  have hactive : activeFlows (simulateSchedulerFlowDeficitRefill config.tuning records) =
      (activeFlows records).map (simulatedRefill config.tuning) := activeFlows_simulate records
  have hscanned : ∀ records, scannedFlows config records =
      ((activeFlows records).insertionSort flowOrder).take config.boundedMaxActiveFlows :=
    fun _ => rfl
  rw [hscanned, hscanned, hactive, List.map_take,
    List.map_insertionSort _ _ _ _ fun a _ b _ => horder a b]

theorem eligible_simulatedRefill (h : Eligible config records flow) :
    Eligible config (simulateSchedulerFlowDeficitRefill config.tuning records)
      (simulatedRefill config.tuning flow) := by
  constructor
  · rw [scannedFlows_simulate]
    exact List.mem_map_of_mem h.scanned
  · exact fitsTenantCap_simulatedRefill.mpr h.fits
  · obtain ⟨deficit, heq⟩ := simulatedRefill_eq config.tuning flow
    rw [heq]
    exact h.payable

/-- A refill leaves the flow eligible and changes no more than its deficit. -/
theorem Eligible.refill (serviceTier modelGroup : String)
    (h : Eligible config state.records flow) :
    ∃ deficit, Eligible config (state.refill config serviceTier modelGroup).records
      { flow with deficitWorkUnits := deficit } := by
  simp only [DecisionState.refill]
  split
  · obtain ⟨deficit, heq⟩ := simulatedRefill_eq config.tuning flow
    exact ⟨deficit, heq ▸ eligible_simulatedRefill h⟩
  · exact ⟨flow.deficitWorkUnits, h⟩

end Refill

/-! ## Rounds -/

section Rounds

variable {γ : Type*} (config : FairShareConfig) (serviceTier modelGroup : String)
  (attempt : FlowAttempt → Option γ)

/-- How the rounds of a decision go from a state: a flow without work is left out from then on, a
pass without a selection is followed by a refill. -/
inductive Rounds : DecisionState → Decision γ → Prop where
  | claimed {state : DecisionState} {flow : BatchSchedulerFlowRecord} {claim : γ} (bypass : Bool) :
      (selectSchedulerFlow config bypass state.emptyFlowIds state.records).selected = some flow →
      attempt ⟨flow, selectSchedulerFlow config bypass state.emptyFlowIds state.records, bypass⟩ =
        some claim →
      Rounds state
        ⟨[⟨flow, selectSchedulerFlow config bypass state.emptyFlowIds state.records, bypass⟩],
          .claimed
            ⟨flow, selectSchedulerFlow config bypass state.emptyFlowIds state.records, bypass⟩
            claim, state.flows⟩
  | ended {state : DecisionState} (attempts : List FlowAttempt) (reason : NoWorkReason) :
      Rounds state ⟨attempts, .noWork reason, state.flows⟩
  | empty {state : DecisionState} {flow : BatchSchedulerFlowRecord} {later : Decision γ}
      (tried : FlowAttempt) :
      tried.flow = flow →
      Rounds { state with emptyFlowIds := state.emptyFlowIds ++ [flow.flowId] } later →
      Rounds state { later with attempts := tried :: later.attempts }
  | refilled {state : DecisionState} {later : Decision γ} :
      (selectSchedulerFlow config false state.emptyFlowIds state.records).selected = none →
      Rounds (state.refill config serviceTier modelGroup) later → Rounds state later

variable {config serviceTier modelGroup attempt}

theorem bypassRound_rounds (state : DecisionState) :
    Rounds config serviceTier modelGroup attempt state (bypassRound config attempt state) := by
  cases hselected : (selectSchedulerFlow config true state.emptyFlowIds state.records).selected with
  | none =>
      simp only [bypassRound, hselected]
      exact .ended _ _
  | some flow =>
      simp only [bypassRound, hselected]
      split
      · next hattempt => exact .claimed true hselected hattempt
      · exact .ended _ _

theorem fairShareRounds_rounds (n : ℕ) : ∀ state : DecisionState,
    Rounds config serviceTier modelGroup attempt state
      (fairShareRounds config serviceTier modelGroup attempt n state) := by
  induction n with
  | zero => exact bypassRound_rounds
  | succ n ih =>
      intro state
      cases hselected :
          (selectSchedulerFlow config false state.emptyFlowIds state.records).selected with
      | none =>
          simp only [fairShareRounds, hselected]
          split
          · exact .ended _ _
          · exact .refilled hselected (ih _)
      | some flow =>
          simp only [fairShareRounds, hselected]
          split
          · next hattempt => exact .claimed false hselected hattempt
          · exact .empty _ rfl (ih _)

variable {state : DecisionState} {decision : Decision γ}

/-- The stored flows change by refills only. -/
theorem Rounds.flows (h : Rounds config serviceTier modelGroup attempt state decision) :
    ∃ n, decision.flows =
      (refillSchedulerFlowDeficits config.tuning serviceTier modelGroup)^[n] state.flows := by
  induction h with
  | claimed bypass hselected hattempt => exact ⟨0, rfl⟩
  | ended attempts reason => exact ⟨0, rfl⟩
  | empty tried htried hlater ih => exact ih
  | refilled hnone hlater ih =>
      obtain ⟨n, hn⟩ := ih
      exact ⟨n + 1, hn⟩

theorem one_le_refilled {flows : List SchedulerFlowRow}
    (h : ∀ row ∈ flows, 1 ≤ row.quantumWorkUnits) :
    ∀ row ∈ refillSchedulerFlowDeficits config.tuning serviceTier modelGroup flows,
      1 ≤ row.quantumWorkUnits := by
  intro row' hrow'
  obtain ⟨row, hrow, rfl⟩ := (mem_updateWhere _ _).mp hrow'
  split
  · exact h row hrow
  · exact h row hrow

theorem Rounds.claimed_mem (h : Rounds config serviceTier modelGroup attempt state decision)
    {tried : FlowAttempt} {claim : γ} (hclaimed : decision.outcome = .claimed tried claim) :
    tried ∈ decision.attempts := by
  induction h with
  | claimed bypass hselected hattempt =>
      injection hclaimed with htried _
      rw [← htried]
      exact List.mem_cons_self
  | ended attempts reason => cases hclaimed
  | empty first hfirst hlater ih => exact List.mem_cons_of_mem _ (ih hclaimed)
  | refilled hnone hlater ih => exact ih hclaimed

/-- What is claimed from is a stored flow of the group, as the decision leaves it. -/
theorem Rounds.claimed_mirrors (h : Rounds config serviceTier modelGroup attempt state decision)
    (hquantum : ∀ row ∈ state.flows, 1 ≤ row.quantumWorkUnits)
    (hrecords : ∀ record ∈ state.records, Mirrors serviceTier modelGroup state.flows record)
    {tried : FlowAttempt} {claim : γ} (hclaimed : decision.outcome = .claimed tried claim) :
    Mirrors serviceTier modelGroup decision.flows tried.flow := by
  induction h with
  | claimed bypass hselected hattempt =>
      injection hclaimed with htried _
      subst htried
      exact hrecords _ (mem_of_mem_scannedFlows (selected_mem hselected).1).1
  | ended attempts reason => cases hclaimed
  | empty tried htried hlater ih => exact ih hquantum hrecords hclaimed
  | refilled hnone hlater ih =>
      exact ih (one_le_refilled hquantum) (mirrors_refill hquantum hrecords) hclaimed

end Rounds

/-! ## The measure -/

def groupFlows (serviceTier modelGroup : String) (flows : List SchedulerFlowRow) :
    List SchedulerFlowRow :=
  flows.filter fun row => InGroup serviceTier modelGroup row.key

/-- The work units that the flows of a group can still pay for. -/
def spendable (serviceTier modelGroup : String) (flows : List SchedulerFlowRow) : ℕ :=
  ((groupFlows serviceTier modelGroup flows).map fun row => row.deficitWorkUnits.toNat).sum

/-- The refills that bring the deficit of a flow to its maximum. A flow that is not stored yet will
start from zero. -/
def refillsLeft (tuning : FlowTuning) : Option SchedulerFlowRow → ℕ
  | none => tuning.boundedMaxDeficitMultiplier
  | some row =>
      (((row.quantumWorkUnits * tuning.boundedMaxDeficitMultiplier : ℕ) : ℤ) -
        row.deficitWorkUnits).toNat ⌈/⌉ row.quantumWorkUnits

def largestDeficit (tuning : FlowTuning) : ℕ :=
  maxQuantumWorkUnits * tuning.boundedMaxDeficitMultiplier

/-- Bounds the claims that pay with their deficits while the flow waits, in a group of at most
`size` flows. -/
def waitingMeasure (tuning : FlowTuning) (key : FlowKey) (size : ℕ)
    (flows : List SchedulerFlowRow) : ℕ :=
  refillsLeft tuning (rowWithKey SchedulerFlowRow.key key flows) *
      (size * largestDeficit tuning + 1) +
    spendable key.serviceTier key.modelGroup flows

section Measure

variable {tuning : FlowTuning} {row : SchedulerFlowRow} {flows : List SchedulerFlowRow}

theorem one_le_quantum (h : Bounded tuning row) : 1 ≤ row.quantumWorkUnits := by
  rw [h.quantum]
  exact one_le_quantumForWeight _ _

theorem one_le_multiplier (tuning : FlowTuning) : 1 ≤ tuning.boundedMaxDeficitMultiplier :=
  le_max_left _ _

theorem refillsLeft_le (h : Bounded tuning row) :
    refillsLeft tuning (some row) ≤ 2 * tuning.boundedMaxDeficitMultiplier := by
  have hquantum := one_le_quantum h
  have hlower := h.lower
  rw [maxDeficit_eq h.quantum] at hlower
  rw [refillsLeft, ceilDiv_le_iff_le_mul (by omega)]
  have hdouble : row.quantumWorkUnits * (2 * tuning.boundedMaxDeficitMultiplier) =
      2 * (row.quantumWorkUnits * tuning.boundedMaxDeficitMultiplier) := by ring
  omega

/-- At zero the deficit needs the whole multiplier. -/
theorem refillsLeft_zero (hquantum : 1 ≤ row.quantumWorkUnits)
    (hdeficit : row.deficitWorkUnits = 0) :
    refillsLeft tuning (some row) ≤ refillsLeft tuning none := by
  rw [refillsLeft, refillsLeft, ceilDiv_le_iff_le_mul (by omega), hdeficit]
  omega

/-- A refill below the maximum counts. -/
theorem refillsLeft_refillRow (h : Bounded tuning row)
    (hbelow : row.deficitWorkUnits < maxDeficit tuning row) :
    refillsLeft tuning (some (refillRow tuning row)) + 1 ≤ refillsLeft tuning (some row) := by
  have hquantum : 0 < row.quantumWorkUnits := one_le_quantum h
  rw [maxDeficit_eq h.quantum] at hbelow
  set left := refillsLeft tuning (some row) with hleft
  have hcovers : ((row.quantumWorkUnits * tuning.boundedMaxDeficitMultiplier : ℕ) -
      row.deficitWorkUnits).toNat ≤ row.quantumWorkUnits * left :=
    (ceilDiv_le_iff_le_mul hquantum).mp le_rfl
  have hpositive : 1 ≤ left := by
    by_contra hzero
    have hnone : left = 0 := by omega
    rw [hnone, Nat.mul_zero] at hcovers
    omega
  have hrest : row.quantumWorkUnits * left =
      row.quantumWorkUnits * (left - 1) + row.quantumWorkUnits := by
    rw [← Nat.mul_succ, Nat.succ_eq_add_one, Nat.sub_add_cancel hpositive]
  have hfewer : refillsLeft tuning (some (refillRow tuning row)) ≤ left - 1 := by
    refine (ceilDiv_le_iff_le_mul hquantum).mpr ?_
    simp only [refillRow]
    omega
  omega

/-- What is spendable in a group of flows within their bounds. -/
theorem spendable_le (serviceTier modelGroup : String) (h : ∀ row ∈ flows, Bounded tuning row) :
    spendable serviceTier modelGroup flows ≤
      (groupFlows serviceTier modelGroup flows).length * largestDeficit tuning := by
  have hrow : ∀ units ∈ (groupFlows serviceTier modelGroup flows).map
      (fun row => row.deficitWorkUnits.toNat), units ≤ largestDeficit tuning := by
    intro units hunits
    obtain ⟨row, hrow, rfl⟩ := List.mem_map.mp hunits
    have hbounded := h row (List.mem_filter.mp hrow).1
    have hupper := hbounded.upper
    have hquantum : row.quantumWorkUnits ≤ maxQuantumWorkUnits := by
      rw [hbounded.quantum]
      exact max_le (by decide) (min_le_left _ _)
    rw [maxDeficit_eq hbounded.quantum] at hupper
    have hlargest := Nat.mul_le_mul_right tuning.boundedMaxDeficitMultiplier hquantum
    unfold largestDeficit
    omega
  have hsum := List.sum_le_card_nsmul _ _ hrow
  rwa [List.length_map, smul_eq_mul] at hsum

theorem rowWithKey_of_mem (hkeys : (flows.map SchedulerFlowRow.key).Nodup) (hrow : row ∈ flows) :
    rowWithKey SchedulerFlowRow.key row.key flows = some row := by
  cases hfound : rowWithKey SchedulerFlowRow.key row.key flows with
  | none => exact absurd rfl (rowWithKey_eq_none.mp hfound row hrow)
  | some found =>
      obtain ⟨hmem, hkey⟩ := rowWithKey_some hfound
      rw [List.inj_on_of_nodup_map hkeys hmem hrow hkey]

theorem groupFlows_refill {serviceTier modelGroup : String} :
    (groupFlows serviceTier modelGroup
      (refillSchedulerFlowDeficits tuning serviceTier modelGroup flows)).length =
        (groupFlows serviceTier modelGroup flows).length := by
  have hgroup : ∀ row : SchedulerFlowRow, InGroup serviceTier modelGroup
      (if Refillable serviceTier modelGroup row then refillRow tuning row else row).key ↔
        InGroup serviceTier modelGroup row.key := by
    intro row
    split <;> rfl
  simp only [groupFlows, refillSchedulerFlowDeficits, updateWhere, List.filter_map,
    List.length_map, Function.comp_def, hgroup]

/-- A refill writes no column but the deficit. -/
theorem refill_columns {α : Type*} {serviceTier modelGroup : String} {column : SchedulerFlowRow → α}
    (h : ∀ row, column (refillRow tuning row) = column row) :
    (refillSchedulerFlowDeficits tuning serviceTier modelGroup flows).map column =
      flows.map column :=
  map_updateWhere _ _ _ (fun row _ => h row) _

theorem bounded_refill {serviceTier modelGroup : String}
    (h : ∀ row ∈ flows, Bounded tuning row) :
    ∀ row ∈ refillSchedulerFlowDeficits tuning serviceTier modelGroup flows,
      Bounded tuning row := by
  intro row' hrow'
  obtain ⟨row, hrow, rfl⟩ := (mem_updateWhere _ _).mp hrow'
  split
  · exact bounded_refillRow (h row hrow)
  · exact h row hrow

/-- A refill that reaches the flow below its maximum does not raise the measure. -/
theorem waitingMeasure_refill {size : ℕ} (hbounded : ∀ row ∈ flows, Bounded tuning row)
    (hkeys : (flows.map SchedulerFlowRow.key).Nodup) (hrow : row ∈ flows)
    (hsize : (groupFlows row.key.serviceTier row.key.modelGroup flows).length ≤ size)
    (hactive : row.active = true) (hjobs : 0 < row.queuedJobs)
    (hbelow : row.deficitWorkUnits < maxDeficit tuning row) :
    waitingMeasure tuning row.key size
        (refillSchedulerFlowDeficits tuning row.key.serviceTier row.key.modelGroup flows) ≤
      waitingMeasure tuning row.key size flows := by
  have hrefillable : Refillable row.key.serviceTier row.key.modelGroup row :=
    ⟨⟨rfl, rfl⟩, hactive, hjobs⟩
  have hfound : rowWithKey SchedulerFlowRow.key row.key
      (refillSchedulerFlowDeficits tuning row.key.serviceTier row.key.modelGroup flows) =
        some (refillRow tuning row) := by
    rw [refillSchedulerFlowDeficits, rowWithKey_updateWhere _ _ _ fun other _ =>
      (rfl : (refillRow tuning other).key = other.key), rowWithKey_of_mem hkeys hrow,
      Option.map_some, if_pos hrefillable]
  have hfewer := refillsLeft_refillRow (hbounded row hrow) hbelow
  have hspendable : spendable row.key.serviceTier row.key.modelGroup (refillSchedulerFlowDeficits
      tuning row.key.serviceTier row.key.modelGroup flows) ≤ _ :=
    spendable_le _ _ (bounded_refill hbounded)
  rw [groupFlows_refill] at hspendable
  have hlargest := Nat.mul_le_mul_right (largestDeficit tuning) hsize
  rw [waitingMeasure, waitingMeasure, hfound, rowWithKey_of_mem hkeys hrow]
  have hgap := Nat.mul_le_mul_right (size * largestDeficit tuning + 1) hfewer
  rw [Nat.add_mul, Nat.one_mul] at hgap
  omega

end Measure

/-! ## A decision that passes a flow over -/

section Waiting

variable {γ : Type*} {config : FairShareConfig} {key : FlowKey} {attempt : FlowAttempt → Option γ}
  {state : DecisionState} {decision : Decision γ} {flow : BatchSchedulerFlowRecord}

theorem maxDeficit_flowFromRow {row : SchedulerFlowRow} {oldest : Option Timestamp}
    {nextUnits : ℕ} (h : Bounded config.tuning row) :
    maxDeficitForFlow (flowFromRow oldest nextUnits row).quantumWorkUnits
        config.tuning.maxDeficitMultiplier = maxDeficit config.tuning row := by
  rw [maxDeficit, ← h.quantum]
  simp [flowFromRow, maxDeficitForFlow]

/-- A pass that selects nothing although the flow is eligible is followed by a refill that brings
the flow closer. -/
theorem waitingMeasure_refilled {size : ℕ}
    (hbounded : ∀ row ∈ state.flows, Bounded config.tuning row)
    (hkeys : (state.flows.map SchedulerFlowRow.key).Nodup)
    (hsize : (groupFlows key.serviceTier key.modelGroup state.flows).length ≤ size)
    (hrecords : ∀ record ∈ state.records,
      Mirrors key.serviceTier key.modelGroup state.flows record)
    (heligible : Eligible config state.records flow) (hkey : flow.key = key)
    (hexcluded : flow.flowId ∉ state.emptyFlowIds)
    (hnone : (selectSchedulerFlow config false state.emptyFlowIds state.records).selected = none) :
    waitingMeasure config.tuning key size
        (state.refill config key.serviceTier key.modelGroup).flows ≤
      waitingMeasure config.tuning key size state.flows := by
  have hdeficit := heligible.deficit_lt hexcluded hnone
  obtain ⟨hmem, hactive, hjobs, -⟩ := mem_of_mem_scannedFlows heligible.scanned
  obtain ⟨row, hrow, -, oldest, nextUnits, rfl⟩ := hrecords flow hmem
  rw [maxDeficit_flowFromRow (hbounded row hrow)] at hdeficit
  subst hkey
  exact waitingMeasure_refill hbounded hkeys hrow hsize hactive hjobs hdeficit

/-- While a flow waits, the rounds do not raise the measure, and the flow that is claimed from pays
with its deficit or was last selected no later. -/
theorem Rounds.waiting (size : ℕ)
    (h : Rounds config key.serviceTier key.modelGroup attempt state decision)
    (hbounded : ∀ row ∈ state.flows, Bounded config.tuning row)
    (hkeys : (state.flows.map SchedulerFlowRow.key).Nodup)
    (hsize : (groupFlows key.serviceTier key.modelGroup state.flows).length ≤ size)
    (hrecords : ∀ record ∈ state.records,
      Mirrors key.serviceTier key.modelGroup state.flows record)
    (heligible : Eligible config state.records flow) (hkey : flow.key = key)
    (hexcluded : flow.flowId ∉ state.emptyFlowIds)
    (htried : ∀ tried ∈ decision.attempts, tried.flow.flowId ≠ flow.flowId) :
    waitingMeasure config.tuning key size decision.flows ≤
        waitingMeasure config.tuning key size state.flows ∧
      ∀ tried claim, decision.outcome = .claimed tried claim →
        1 ≤ tried.flow.deficitWorkUnits ∨
          tried.flow.lastSelectedAt.getD 0 ≤ flow.lastSelectedAt.getD 0 := by
  induction h generalizing flow with
  | claimed bypass hselected hattempt =>
      refine ⟨le_rfl, fun tried claim hclaimed => ?_⟩
      injection hclaimed with hsame _
      subst hsame
      have hother := htried _ List.mem_cons_self
      cases bypass with
      | false => exact Or.inl (heligible.selected_pays hselected hother)
      | true => exact Or.inr (heligible.bypass_order hexcluded hselected)
  | ended attempts reason =>
      refine ⟨le_rfl, fun tried claim hclaimed => ?_⟩
      cases hclaimed
  | empty tried hflow hlater ih =>
      have hother := htried tried List.mem_cons_self
      rw [hflow] at hother
      refine ih hbounded hkeys hsize hrecords heligible hkey ?_ ?_
      · rw [List.mem_append, List.mem_singleton, not_or]
        exact ⟨hexcluded, Ne.symm hother⟩
      · exact fun later hlater => htried later (List.mem_cons_of_mem _ hlater)
  | @refilled state later hnone hlater ih =>
      obtain ⟨deficit, hrefilled⟩ := heligible.refill key.serviceTier key.modelGroup
      have hquantum := fun row hrow => one_le_quantum (hbounded row hrow)
      have hlower := waitingMeasure_refilled hbounded hkeys hsize hrecords heligible hkey hexcluded
        hnone
      have hkeys' : ((refillSchedulerFlowDeficits config.tuning key.serviceTier key.modelGroup
          state.flows).map SchedulerFlowRow.key).Nodup := by
        rw [refill_columns fun _ => rfl]
        exact hkeys
      obtain ⟨hmeasure, hclaimed⟩ := ih (bounded_refill hbounded) hkeys'
        (groupFlows_refill.trans_le hsize) (mirrors_refill hquantum hrecords) hrefilled hkey
        hexcluded htried
      exact ⟨hmeasure.trans hlower, hclaimed⟩

end Waiting

end WaitingFlows
