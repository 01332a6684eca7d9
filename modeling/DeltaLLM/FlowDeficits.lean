import DeltaLLM.SchedulerFlows
import DeltaLLM.TransitionRuns

/-! # Deficit bounds

Four statements write the deficit of a flow, each with its own clamp. Under fixed settings every
stored deficit stays within the maximum deficit of its flow, on both sides of zero.
-/
namespace FlowDeficits

open BatchRecords
open SchedulerFlows
open TableStatements
open TransitionRuns

inductive Event where
  /-- `upsert_scheduler_flow_for_job`. -/
  | upsertForJob (job : BatchJobRow)
  /-- `_refresh_scheduler_flows_from_snapshot`, for any snapshot. -/
  | refresh (serviceTier modelGroup : String) (aggregates : List FlowAggregate)
  /-- `_refill_scheduler_flow_deficits`. -/
  | refill (serviceTier modelGroup : String)
  /-- The charge after a claim. -/
  | charge (now : Timestamp) (flowId : String) (quantumWorkUnits claimedWorkUnits : ℕ)

/-- The quantum of a charge comes from a record of the charged flow. -/
def Enabled (flows : List SchedulerFlowRow) : Event → Prop
  | .charge _ flowId quantumWorkUnits _ =>
      ∀ row ∈ flows, row.flowId = flowId → quantumWorkUnits = max 1 row.quantumWorkUnits
  | _ => True

def next (sha256 : String → String) (tuning : FlowTuning) (flows : List SchedulerFlowRow) :
    Event → List SchedulerFlowRow
  | .upsertForJob job => upsertSchedulerFlowForJob sha256 tuning job flows
  | .refresh serviceTier modelGroup aggregates =>
      refreshSchedulerFlows sha256 tuning serviceTier modelGroup aggregates flows
  | .refill serviceTier modelGroup =>
      refillSchedulerFlowDeficits tuning serviceTier modelGroup flows
  | .charge now flowId quantumWorkUnits claimedWorkUnits =>
      chargeFlow tuning now flowId quantumWorkUnits claimedWorkUnits flows

/-- A flow as an insert leaves it, for any weight. -/
def Fresh (tuning : FlowTuning) (row : SchedulerFlowRow) : Prop :=
  row.deficitWorkUnits = 0 ∧
    row.quantumWorkUnits = quantumForWeight tuning.baseQuantumWorkUnits row.weight

/-- The flow table under fixed settings. -/
def flowSystem (sha256 : String → String) (tuning : FlowTuning) :
    TransitionSystem (List SchedulerFlowRow) Event where
  initial flows := ∀ row ∈ flows, Fresh tuning row
  enabled := Enabled
  next := next sha256 tuning

/-- The flow's maximum deficit, from its weight. -/
def maxDeficit (tuning : FlowTuning) (row : SchedulerFlowRow) : ℕ :=
  maxDeficitForFlow (quantumForWeight tuning.baseQuantumWorkUnits row.weight)
    tuning.maxDeficitMultiplier

structure Bounded (tuning : FlowTuning) (row : SchedulerFlowRow) : Prop where
  quantum : row.quantumWorkUnits = quantumForWeight tuning.baseQuantumWorkUnits row.weight
  lower : -(maxDeficit tuning row : ℤ) ≤ row.deficitWorkUnits
  upper : row.deficitWorkUnits ≤ maxDeficit tuning row

section Statements

variable {tuning : FlowTuning} {row : SchedulerFlowRow}

theorem bounded_of_fresh (h : Fresh tuning row) : Bounded tuning row := by
  obtain ⟨hdeficit, hquantum⟩ := h
  refine ⟨hquantum, ?_, ?_⟩ <;> rw [hdeficit] <;> omega

theorem maxDeficit_eq (h : row.quantumWorkUnits =
    quantumForWeight tuning.baseQuantumWorkUnits row.weight) :
    maxDeficit tuning row = row.quantumWorkUnits * tuning.boundedMaxDeficitMultiplier := by
  have hone : 1 ≤ row.quantumWorkUnits := by
    rw [h]
    exact one_le_quantumForWeight _ _
  rw [maxDeficit, maxDeficitForFlow, ← h, max_eq_right hone]
  rfl

/-- The LEAST of both upserts. -/
theorem bounded_clampRow (hbase : 1 ≤ tuning.baseQuantumWorkUnits) (h : Bounded tuning row) :
    Bounded tuning (tuning.clampRow row) := by
  have hquantum : (tuning.clampRow row).quantumWorkUnits =
      quantumForWeight tuning.baseQuantumWorkUnits (tuning.clampRow row).weight := by
    change tuning.conflictQuantum row.weight =
      quantumForWeight tuning.baseQuantumWorkUnits (max row.weight 1)
    rw [conflictQuantum_eq hbase, quantumForWeight_max_one]
  have hsame : maxDeficit tuning (tuning.clampRow row) = maxDeficit tuning row := by
    simp only [maxDeficit, FlowTuning.clampRow, quantumForWeight_max_one]
  have hdeficit : (tuning.clampRow row).deficitWorkUnits =
      min row.deficitWorkUnits (maxDeficit tuning row : ℤ) := by
    rw [maxDeficit_eq h.quantum, h.quantum, ← conflictQuantum_eq hbase]
    rfl
  have hlower := h.lower
  have hupper := h.upper
  refine ⟨hquantum, ?_, ?_⟩
  · rw [hsame, hdeficit, min_eq_left hupper]
    exact hlower
  · rw [hsame, hdeficit]
    exact min_le_right _ _

theorem bounded_refillRow (h : Bounded tuning row) : Bounded tuning (refillRow tuning row) := by
  have hlower := h.lower
  have hmax := maxDeficit_eq h.quantum
  refine ⟨h.quantum, ?_, ?_⟩
  · change -(maxDeficit tuning row : ℤ) ≤ min _ _
    rw [← hmax]
    omega
  · change min _ _ ≤ (maxDeficit tuning row : ℤ)
    rw [← hmax]
    exact min_le_right _ _

theorem bounded_charged (h : Bounded tuning row) (now : Timestamp) {quantumWorkUnits : ℕ}
    (hquantum : quantumWorkUnits = max 1 row.quantumWorkUnits) (claimed : ℕ) :
    Bounded tuning { row with
      deficitWorkUnits := max (row.deficitWorkUnits - (max 1 claimed : ℕ))
        (-(maxDeficitForFlow quantumWorkUnits tuning.maxDeficitMultiplier : ℤ))
      lastSelectedAt := some now } := by
  have hmax : maxDeficitForFlow quantumWorkUnits tuning.maxDeficitMultiplier =
      maxDeficit tuning row := by
    rw [hquantum, maxDeficit, ← h.quantum]
    simp [maxDeficitForFlow]
  have hlower := h.lower
  have hupper := h.upper
  rw [hmax]
  refine ⟨h.quantum, ?_, ?_⟩
  · exact le_max_right _ _
  · change max _ _ ≤ (maxDeficit tuning row : ℤ)
    omega

theorem bounded_upsertFlow {inserted : SchedulerFlowRow}
    {update : SchedulerFlowRow → SchedulerFlowRow} {flows : List SchedulerFlowRow}
    (hinserted : Bounded tuning inserted)
    (hupdate : ∀ row, Bounded tuning row → Bounded tuning (update row))
    (h : ∀ row ∈ flows, Bounded tuning row) :
    ∀ row ∈ upsertFlow inserted update flows, Bounded tuning row := by
  intro row' hrow'
  rcases mem_upsertFlow hrow' with rfl | ⟨row, hrow, rfl⟩
  · exact hinserted
  · by_cases hkey : row.key = inserted.key
    · rw [if_pos hkey]
      exact hupdate row (h row hrow)
    · rw [if_neg hkey]
      exact h row hrow

theorem bounded_insertedRow (sha256 : String → String) (key : FlowKey) (active : Bool)
    (queuedJobs queuedWorkUnits inFlightWorkUnits : ℕ) :
    Bounded tuning (tuning.insertedRow sha256 key active queuedJobs queuedWorkUnits
      inFlightWorkUnits) :=
  bounded_of_fresh ⟨rfl, rfl⟩

/-- Only the queue columns differ. -/
theorem Bounded.of_queue {row' : SchedulerFlowRow} (h : Bounded tuning row)
    (hweight : row'.weight = row.weight) (hquantum : row'.quantumWorkUnits = row.quantumWorkUnits)
    (hdeficit : row'.deficitWorkUnits = row.deficitWorkUnits) : Bounded tuning row' := by
  have hmax : maxDeficit tuning row' = maxDeficit tuning row := by
    rw [maxDeficit, maxDeficit, hweight]
  refine ⟨?_, ?_, ?_⟩
  · rw [hquantum, hweight]
    exact h.quantum
  · rw [hmax, hdeficit]
    exact h.lower
  · rw [hmax, hdeficit]
    exact h.upper

theorem bounded_upsertAggregates {sha256 : String → String}
    (hbase : 1 ≤ tuning.baseQuantumWorkUnits) {aggregates : List FlowAggregate} :
    ∀ {flows : List SchedulerFlowRow}, (∀ row ∈ flows, Bounded tuning row) →
      ∀ row ∈ upsertAggregates sha256 tuning aggregates flows, Bounded tuning row := by
  induction aggregates with
  | nil =>
      intro flows h
      exact h
  | cons aggregate aggregates ih =>
      intro flows h
      refine ih (bounded_upsertFlow (bounded_insertedRow ..) (fun row hrow => ?_) h)
      exact (bounded_clampRow hbase hrow).of_queue rfl rfl rfl

end Statements

theorem bounded_next {sha256 : String → String} {tuning : FlowTuning}
    (hbase : 1 ≤ tuning.baseQuantumWorkUnits) {flows : List SchedulerFlowRow} {e : Event}
    (h : ∀ row ∈ flows, Bounded tuning row) (he : Enabled flows e) :
    ∀ row ∈ next sha256 tuning flows e, Bounded tuning row := by
  cases e with
  | upsertForJob job =>
      simp only [next, upsertSchedulerFlowForJob]
      split
      · exact h
      · refine bounded_upsertFlow (bounded_insertedRow ..) (fun row hrow => ?_) h
        exact (bounded_clampRow hbase hrow).of_queue rfl rfl rfl
  | refresh serviceTier modelGroup aggregates =>
      intro row' hrow'
      obtain ⟨row, hrow, rfl⟩ := (mem_updateWhere _ _).mp hrow'
      have hbounded := bounded_upsertAggregates hbase h row hrow
      split
      · exact hbounded.of_queue rfl rfl rfl
      · exact hbounded
  | refill serviceTier modelGroup =>
      intro row' hrow'
      obtain ⟨row, hrow, rfl⟩ := (mem_updateWhere _ _).mp hrow'
      split
      · exact bounded_refillRow (h row hrow)
      · exact h row hrow
  | charge now flowId quantumWorkUnits claimedWorkUnits =>
      intro row' hrow'
      obtain ⟨row, hrow, rfl⟩ := (mem_updateWhere _ _).mp hrow'
      split
      · next hid => exact bounded_charged (h row hrow) now (he row hrow hid) claimedWorkUnits
      · exact h row hrow

theorem reachable_bounded {sha256 : String → String} {tuning : FlowTuning}
    (hbase : 1 ≤ tuning.baseQuantumWorkUnits) {flows : List SchedulerFlowRow}
    (hs : Reachable (flowSystem sha256 tuning) flows) : ∀ row ∈ flows, Bounded tuning row := by
  refine Reachable.invariant (P := fun flows => ∀ row ∈ flows, Bounded tuning row) ?_ ?_ hs
  · intro flows hinitial row hrow
    exact bounded_of_fresh (hinitial row hrow)
  · intro flows e h he
    exact bounded_next hbase h he

section Simulation

variable {tuning : FlowTuning} {serviceTier modelGroup : String}

/-- The records of a group's flows, with any queue data. -/
def groupRecords (serviceTier modelGroup : String)
    (oldest : FlowKey → Option Timestamp) (nextUnits : FlowKey → ℕ)
    (flows : List SchedulerFlowRow) : List BatchSchedulerFlowRecord :=
  (flows.filter fun row => InGroup serviceTier modelGroup row.key).map fun row =>
    flowFromRow (oldest row.key) (nextUnits row.key) row

/-- One row: the SQL refill and the refill in memory agree. -/
theorem flowFromRow_refill (tuning : FlowTuning) {row : SchedulerFlowRow}
    (hgroup : InGroup serviceTier modelGroup row.key)
    (hquantum : 1 ≤ row.quantumWorkUnits) (oldest : Option Timestamp) (nextUnits : ℕ) :
    flowFromRow oldest nextUnits
        (if Refillable serviceTier modelGroup row then refillRow tuning row else row) =
      simulatedRefill tuning (flowFromRow oldest nextUnits row) := by
  by_cases hidle : row.active = false ∨ row.queuedJobs = 0
  · have hnot : ¬Refillable serviceTier modelGroup row := by
      rintro ⟨_, hactive, hjobs⟩
      rcases hidle with hinactive | hzero
      · rw [hactive] at hinactive
        cases hinactive
      · omega
    simp [hnot, simulatedRefill, flowFromRow, hidle]
  · have hrefill : Refillable serviceTier modelGroup row := by
      rw [not_or] at hidle
      exact ⟨hgroup, by simpa using hidle.1, Nat.pos_of_ne_zero hidle.2⟩
    simp [hrefill, simulatedRefill, flowFromRow, hidle, refillRow, max_eq_right hquantum]

theorem groupRecords_refill (oldest : FlowKey → Option Timestamp) (nextUnits : FlowKey → ℕ)
    {flows : List SchedulerFlowRow} (hquantum : ∀ row ∈ flows, 1 ≤ row.quantumWorkUnits) :
    groupRecords serviceTier modelGroup oldest nextUnits
        (refillSchedulerFlowDeficits tuning serviceTier modelGroup flows) =
      simulateSchedulerFlowDeficitRefill tuning
        (groupRecords serviceTier modelGroup oldest nextUnits flows) := by
  induction flows with
  | nil => rfl
  | cons row flows ih =>
      have htail := ih fun other hother => hquantum other (List.mem_cons_of_mem _ hother)
      have hkey : (if Refillable serviceTier modelGroup row then refillRow tuning row
          else row).key = row.key := by
        split <;> rfl
      simp only [groupRecords, refillSchedulerFlowDeficits, updateWhere,
        simulateSchedulerFlowDeficitRefill, List.map_cons, List.filter_cons, hkey] at htail ⊢
      by_cases hgroup : InGroup serviceTier modelGroup row.key
      · have hrow := flowFromRow_refill tuning hgroup
          (hquantum row List.mem_cons_self) (oldest row.key) (nextUnits row.key)
        simp only [hgroup, decide_true, if_true, List.map_cons, htail, hkey]
        rw [hrow]
      · simp only [hgroup, decide_false, Bool.false_eq_true, if_false, htail]

/-- Any number of refill rounds. -/
theorem groupRecords_refills (oldest : FlowKey → Option Timestamp) (nextUnits : FlowKey → ℕ)
    (n : ℕ) : ∀ {flows : List SchedulerFlowRow},
      (∀ row ∈ flows, 1 ≤ row.quantumWorkUnits) →
        (simulateSchedulerFlowDeficitRefill tuning)^[n]
            (groupRecords serviceTier modelGroup oldest nextUnits flows) =
          groupRecords serviceTier modelGroup oldest nextUnits
            ((refillSchedulerFlowDeficits tuning serviceTier modelGroup)^[n] flows) := by
  induction n with
  | zero =>
      intro flows _
      rfl
  | succ n ih =>
      intro flows hquantum
      have hrefilled : ∀ row ∈ refillSchedulerFlowDeficits tuning serviceTier modelGroup flows,
          1 ≤ row.quantumWorkUnits := by
        intro row' hrow'
        obtain ⟨row, hrow, rfl⟩ := (mem_updateWhere _ _).mp hrow'
        split
        · exact hquantum row hrow
        · exact hquantum row hrow
      rw [Function.iterate_succ_apply, Function.iterate_succ_apply,
        ← groupRecords_refill oldest nextUnits hquantum, ih hrefilled]

end Simulation

theorem deficits_bounded_and_simulated (sha256 : String → String) {tuning : FlowTuning}
    (hbase : 1 ≤ tuning.baseQuantumWorkUnits) {flows : List SchedulerFlowRow}
    (hs : Reachable (flowSystem sha256 tuning) flows) :
    (∀ row ∈ flows, -(maxDeficit tuning row : ℤ) ≤ row.deficitWorkUnits ∧
      row.deficitWorkUnits ≤ maxDeficit tuning row) ∧
    ∀ (serviceTier modelGroup : String) (oldest : FlowKey → Option Timestamp)
      (nextUnits : FlowKey → ℕ) (n : ℕ),
      (simulateSchedulerFlowDeficitRefill tuning)^[n]
          (groupRecords serviceTier modelGroup oldest nextUnits flows) =
        groupRecords serviceTier modelGroup oldest nextUnits
          ((refillSchedulerFlowDeficits tuning serviceTier modelGroup)^[n] flows) := by
  have hbounded := reachable_bounded hbase hs
  constructor
  · intro row hrow
    exact ⟨(hbounded row hrow).lower, (hbounded row hrow).upper⟩
  · intro serviceTier modelGroup oldest nextUnits n
    refine groupRecords_refills oldest nextUnits n fun row hrow => ?_
    rw [(hbounded row hrow).quantum]
    exact one_le_quantumForWeight _ _

/-! A flow is refilled once and then charged for more than its deficit. -/

def overdrawnKey : FlowKey := ⟨"standard", "m", "team", "a"⟩

def overdraft : List Event :=
  [.refresh "standard" "m" [{ key := overdrawnKey, queuedJobs := 1, queuedWorkUnits := 500 }],
    .refill "standard" "m", .charge 7 (buildFlowId teamDigests overdrawnKey) 16 500]

def overdrawnFlows : List SchedulerFlowRow := overdraft.foldl (next teamDigests {}) []

theorem overdrawnFlows_reachable : Reachable (flowSystem teamDigests {}) overdrawnFlows := by
  have hempty : Reachable (flowSystem teamDigests {}) [] := .initial (by simp [flowSystem])
  have hrefreshed := hempty.step (e := overdraft[0]) trivial
  have hrefilled := hrefreshed.step (e := overdraft[1]) trivial
  have hquantum : ∀ row ∈ next teamDigests {} (next teamDigests {} [] overdraft[0]) overdraft[1],
      row.flowId = buildFlowId teamDigests overdrawnKey → 16 = max 1 row.quantumWorkUnits := by
    decide +kernel
  exact hrefilled.step (e := overdraft[2]) hquantum

theorem deficits_bounded_after_overdraft :
    overdrawnFlows.map SchedulerFlowRow.deficitWorkUnits = [-128] ∧
    (∀ row ∈ overdrawnFlows, -(maxDeficit {} row : ℤ) ≤ row.deficitWorkUnits ∧
      row.deficitWorkUnits ≤ maxDeficit {} row) ∧
    (simulateSchedulerFlowDeficitRefill {})^[3]
        (groupRecords "standard" "m" (fun _ => none) (fun _ => 1) overdrawnFlows) =
      groupRecords "standard" "m" (fun _ => none) (fun _ => 1)
        ((refillSchedulerFlowDeficits {} "standard" "m")^[3] overdrawnFlows) := by
  have hbase : 1 ≤ ({} : FlowTuning).baseQuantumWorkUnits := by decide
  have hbounds := deficits_bounded_and_simulated teamDigests hbase overdrawnFlows_reachable
  exact ⟨by decide +kernel, hbounds.1, hbounds.2 "standard" "m" _ _ 3⟩

end FlowDeficits
