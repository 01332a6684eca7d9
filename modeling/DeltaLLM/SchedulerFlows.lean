import DeltaLLM.BatchRecords
import DeltaLLM.PythonText

/-! # Scheduler flows

One flow for each tenant of a model group and service tier, with a deficit of work units. This
file has the statements on the flow table, and the refill that a decision simulates in memory.
-/
namespace SchedulerFlows

open BatchRecords
open PythonText (strip stripOrEmpty)
open TableStatements

/-- The unique columns of a flow. -/
structure FlowKey where
  serviceTier : String
  modelGroup : String
  tenantScopeType : String
  tenantScopeId : String
  deriving DecidableEq, Repr

structure SchedulerFlowRow where
  flowId : String
  key : FlowKey
  weight : ℕ
  quantumWorkUnits : ℕ
  deficitWorkUnits : ℤ
  active : Bool
  queuedJobs : ℕ
  queuedWorkUnits : ℕ
  inFlightWorkUnits : ℕ
  lastSelectedAt : Option Timestamp
  deriving DecidableEq

/-- A flow as a decision holds it, with the head item of its queue. -/
structure BatchSchedulerFlowRecord where
  flowId : String
  key : FlowKey
  weight : ℕ
  quantumWorkUnits : ℕ
  deficitWorkUnits : ℤ
  active : Bool
  queuedJobs : ℕ
  queuedWorkUnits : ℕ
  inFlightWorkUnits : ℕ
  lastSelectedAt : Option Timestamp
  oldestQueueEnteredAt : Option Timestamp
  nextItemWorkUnits : ℕ
  deriving DecidableEq

/-- What a snapshot of the job and item tables says about one flow. -/
structure FlowAggregate where
  key : FlowKey
  queuedJobs : ℕ := 0
  queuedWorkUnits : ℕ := 0
  inFlightWorkUnits : ℕ := 0
  oldestQueueEnteredAt : Option Timestamp := none
  nextItemWorkUnits : ℕ := 1

/-- The fair-share settings that the deficits depend on. -/
structure FlowTuning where
  baseQuantumWorkUnits : ℕ := 16
  maxDeficitMultiplier : ℕ := 8

def maxQuantumWorkUnits : ℕ := 256

def defaultFlowWeight : ℕ := 1

def quantumForWeight (baseQuantumWorkUnits weight : ℕ) : ℕ :=
  max 1 (min maxQuantumWorkUnits (baseQuantumWorkUnits * max 1 weight))

def maxDeficitForFlow (quantumWorkUnits maxDeficitMultiplier : ℕ) : ℕ :=
  max 1 quantumWorkUnits * max 1 maxDeficitMultiplier

def normalizeFlowPart (value default : String) : String :=
  if strip value = "" then default else strip value

/-- `build_flow_id`, over the digest function. -/
def buildFlowId (sha256 : String → String) (key : FlowKey) : String :=
  let digest := sha256 ("\x1f".intercalate
    [normalizeFlowPart key.serviceTier "standard", normalizeFlowPart key.modelGroup "unknown",
      normalizeFlowPart key.tenantScopeType "anonymous",
      normalizeFlowPart key.tenantScopeId "anonymous"])
  "flow_" ++ String.ofList (digest.toList.take 32)

/-- SHA-256 of the flow ids that team `a` and team `b` build in group `m`. -/
def teamDigests (text : String) : String :=
  if text = "standard\x1fm\x1fteam\x1fa" then
    "1663a9a8664f4e027c8871eede2af686de0bc7b61963f4fe02db85395421be34"
  else if text = "standard\x1fm\x1fteam\x1fb" then
    "d767fb33eeb25d4d88757053120f66df6b5d1ace899676b2dd64ca9439a5cd71"
  else ""

/-- `flow_from_row`, with what its SELECT adds about the queue. -/
def flowFromRow (oldestQueueEnteredAt : Option Timestamp) (nextItemWorkUnits : ℕ)
    (row : SchedulerFlowRow) : BatchSchedulerFlowRecord :=
  { flowId := row.flowId
    key := row.key
    weight := max 1 row.weight
    quantumWorkUnits := max 1 row.quantumWorkUnits
    deficitWorkUnits := row.deficitWorkUnits
    active := row.active
    queuedJobs := row.queuedJobs
    queuedWorkUnits := row.queuedWorkUnits
    inFlightWorkUnits := row.inFlightWorkUnits
    lastSelectedAt := row.lastSelectedAt
    oldestQueueEnteredAt := oldestQueueEnteredAt
    nextItemWorkUnits := max 1 nextItemWorkUnits }

namespace FlowTuning

variable (tuning : FlowTuning)

def boundedBaseQuantum : ℕ := max 1 tuning.baseQuantumWorkUnits

def boundedMaxDeficitMultiplier : ℕ := max 1 tuning.maxDeficitMultiplier

/-- `LEAST(256, GREATEST(1, base * GREATEST(weight, 1)))`. -/
def conflictQuantum (weight : ℕ) : ℕ :=
  min maxQuantumWorkUnits (max 1 (tuning.boundedBaseQuantum * max weight 1))

/-- The columns that both upserts write over an existing flow. -/
def clampRow (row : SchedulerFlowRow) : SchedulerFlowRow :=
  { row with
    weight := max row.weight 1
    quantumWorkUnits := tuning.conflictQuantum row.weight
    deficitWorkUnits := min row.deficitWorkUnits
      (tuning.conflictQuantum row.weight * tuning.boundedMaxDeficitMultiplier : ℕ) }

/-- The flow row that both upserts insert. -/
def insertedRow (sha256 : String → String) (key : FlowKey) (active : Bool)
    (queuedJobs queuedWorkUnits inFlightWorkUnits : ℕ) : SchedulerFlowRow :=
  { flowId := buildFlowId sha256 key
    key := key
    weight := defaultFlowWeight
    quantumWorkUnits := quantumForWeight tuning.baseQuantumWorkUnits defaultFlowWeight
    deficitWorkUnits := 0
    active := active
    queuedJobs := queuedJobs
    queuedWorkUnits := queuedWorkUnits
    inFlightWorkUnits := inFlightWorkUnits
    lastSelectedAt := none }

end FlowTuning

/-- INSERT with ON CONFLICT (key) DO UPDATE. -/
def upsertFlow (inserted : SchedulerFlowRow) (update : SchedulerFlowRow → SchedulerFlowRow)
    (flows : List SchedulerFlowRow) : List SchedulerFlowRow :=
  if ∃ row ∈ flows, row.key = inserted.key then
    updateWhere (fun row => row.key = inserted.key) update flows
  else flows ++ [inserted]

/-- `upsert_scheduler_flow_for_job`. -/
def upsertSchedulerFlowForJob (sha256 : String → String) (tuning : FlowTuning)
    (job : BatchJobRow) (flows : List SchedulerFlowRow) : List SchedulerFlowRow :=
  let modelGroup := stripOrEmpty job.schedulingModelGroup
  if modelGroup = "" then flows
  else
    let key : FlowKey :=
      ⟨normalizeFlowPart job.serviceTier "standard", modelGroup,
        normalizeFlowPart (job.tenantScopeType.getD "") "anonymous",
        normalizeFlowPart (job.tenantScopeId.getD "") "anonymous"⟩
    let active := job.status = .queued || job.status = .inProgress
    let queuedJobs := if active then 1 else 0
    let queuedWorkUnits :=
      if job.remainingWorkUnits ≠ 0 then job.remainingWorkUnits
      else if job.estimatedWorkUnits ≠ 0 then job.estimatedWorkUnits
      else job.totalItems
    upsertFlow (tuning.insertedRow sha256 key active queuedJobs queuedWorkUnits 0)
      (fun row => { tuning.clampRow row with
        active := active
        queuedJobs := max row.queuedJobs queuedJobs
        queuedWorkUnits := max row.queuedWorkUnits queuedWorkUnits }) flows

def aggregateRow (sha256 : String → String) (tuning : FlowTuning) (aggregate : FlowAggregate) :
    SchedulerFlowRow :=
  tuning.insertedRow sha256 aggregate.key (decide (0 < aggregate.queuedJobs))
    aggregate.queuedJobs aggregate.queuedWorkUnits aggregate.inFlightWorkUnits

def refreshedRow (tuning : FlowTuning) (aggregate : FlowAggregate) (row : SchedulerFlowRow) :
    SchedulerFlowRow :=
  { tuning.clampRow row with
    active := decide (0 < aggregate.queuedJobs)
    queuedJobs := aggregate.queuedJobs
    queuedWorkUnits := aggregate.queuedWorkUnits
    inFlightWorkUnits := aggregate.inFlightWorkUnits }

/-- The upsert of one aggregate in `_refresh_scheduler_flows_from_snapshot`. -/
def upsertAggregate (sha256 : String → String) (tuning : FlowTuning) (aggregate : FlowAggregate)
    (flows : List SchedulerFlowRow) : List SchedulerFlowRow :=
  upsertFlow (aggregateRow sha256 tuning aggregate) (refreshedRow tuning aggregate) flows

def upsertAggregates (sha256 : String → String) (tuning : FlowTuning)
    (aggregates : List FlowAggregate) (flows : List SchedulerFlowRow) : List SchedulerFlowRow :=
  aggregates.foldl (fun rows aggregate => upsertAggregate sha256 tuning aggregate rows) flows

def InGroup (serviceTier modelGroup : String) (key : FlowKey) : Prop :=
  key.serviceTier = serviceTier ∧ key.modelGroup = modelGroup

instance (serviceTier modelGroup : String) (key : FlowKey) :
    Decidable (InGroup serviceTier modelGroup key) := by
  unfold InGroup
  exact inferInstance

/-- `_deactivate_stale_scheduler_flows`, for one service tier and model group. -/
def deactivateStaleFlows (serviceTier modelGroup : String) (activeFlowIds : List String)
    (flows : List SchedulerFlowRow) : List SchedulerFlowRow :=
  updateWhere
    (fun row => row.flowId ∉ activeFlowIds ∧ (row.active = true ∨ row.queuedJobs ≠ 0 ∨
      row.queuedWorkUnits ≠ 0 ∨ row.inFlightWorkUnits ≠ 0) ∧ InGroup serviceTier modelGroup row.key)
    (fun row => { row with
      active := false, queuedJobs := 0, queuedWorkUnits := 0, inFlightWorkUnits := 0 }) flows

/-- The flow table after `_refresh_scheduler_flows_from_snapshot`. -/
def refreshSchedulerFlows (sha256 : String → String) (tuning : FlowTuning)
    (serviceTier modelGroup : String) (aggregates : List FlowAggregate)
    (flows : List SchedulerFlowRow) : List SchedulerFlowRow :=
  deactivateStaleFlows serviceTier modelGroup
    (aggregates.map fun aggregate => buildFlowId sha256 aggregate.key)
    (upsertAggregates sha256 tuning aggregates flows)

/-- The records that the refresh returns, one for each aggregate. -/
def refreshedRecords (sha256 : String → String) (tuning : FlowTuning)
    (aggregates : List FlowAggregate) (flows : List SchedulerFlowRow) :
    List BatchSchedulerFlowRecord :=
  aggregates.filterMap fun aggregate =>
    (rowWithKey SchedulerFlowRow.key aggregate.key
      (upsertAggregates sha256 tuning aggregates flows)).map
        (flowFromRow aggregate.oldestQueueEnteredAt aggregate.nextItemWorkUnits)

def Refillable (serviceTier modelGroup : String) (row : SchedulerFlowRow) : Prop :=
  InGroup serviceTier modelGroup row.key ∧ row.active = true ∧ 0 < row.queuedJobs

instance (serviceTier modelGroup : String) (row : SchedulerFlowRow) :
    Decidable (Refillable serviceTier modelGroup row) := by
  unfold Refillable
  exact inferInstance

def refillRow (tuning : FlowTuning) (row : SchedulerFlowRow) : SchedulerFlowRow :=
  { row with
    deficitWorkUnits := min (row.deficitWorkUnits + row.quantumWorkUnits)
      (row.quantumWorkUnits * tuning.boundedMaxDeficitMultiplier : ℕ) }

/-- `_refill_scheduler_flow_deficits`. -/
def refillSchedulerFlowDeficits (tuning : FlowTuning) (serviceTier modelGroup : String)
    (flows : List SchedulerFlowRow) : List SchedulerFlowRow :=
  updateWhere (Refillable serviceTier modelGroup) (refillRow tuning) flows

/-- The refill of one record in memory. -/
def simulatedRefill (tuning : FlowTuning) (flow : BatchSchedulerFlowRecord) :
    BatchSchedulerFlowRecord :=
  if flow.active = false ∨ flow.queuedJobs = 0 then flow
  else
    { flow with
      deficitWorkUnits := min (flow.deficitWorkUnits + (max 1 flow.quantumWorkUnits : ℕ))
        (max 1 flow.quantumWorkUnits * tuning.boundedMaxDeficitMultiplier : ℕ) }

/-- `_simulate_scheduler_flow_deficit_refill`. -/
def simulateSchedulerFlowDeficitRefill (tuning : FlowTuning)
    (flows : List BatchSchedulerFlowRecord) : List BatchSchedulerFlowRecord :=
  flows.map (simulatedRefill tuning)

/-- The charge of `_claim_scheduler_flow_with_client` after a claim. -/
def chargeFlow (tuning : FlowTuning) (now : Timestamp) (flowId : String)
    (quantumWorkUnits claimedWorkUnits : ℕ) (flows : List SchedulerFlowRow) :
    List SchedulerFlowRow :=
  updateWhere (fun row => row.flowId = flowId)
    (fun row => { row with
      deficitWorkUnits := max (row.deficitWorkUnits - (max 1 claimedWorkUnits : ℕ))
        (-(maxDeficitForFlow quantumWorkUnits tuning.maxDeficitMultiplier : ℤ))
      lastSelectedAt := some now }) flows

theorem buildFlowId_ne_empty {sha256 : String → String} (key : FlowKey) :
    buildFlowId sha256 key ≠ "" := by
  intro h
  have hlength := congrArg String.length h
  rw [buildFlowId, String.length_append] at hlength
  simp at hlength

theorem one_le_quantumForWeight (base weight : ℕ) : 1 ≤ quantumForWeight base weight :=
  le_max_left _ _

theorem simulatedRefill_eq (tuning : FlowTuning) (flow : BatchSchedulerFlowRecord) :
    ∃ deficit, simulatedRefill tuning flow = { flow with deficitWorkUnits := deficit } := by
  unfold simulatedRefill
  split
  · exact ⟨flow.deficitWorkUnits, rfl⟩
  · exact ⟨_, rfl⟩

/-- Both spellings of the quantum agree from a base of one on. -/
theorem conflictQuantum_eq {tuning : FlowTuning} (h : 1 ≤ tuning.baseQuantumWorkUnits)
    (weight : ℕ) :
    tuning.conflictQuantum weight = quantumForWeight tuning.baseQuantumWorkUnits weight := by
  have hweight : 1 ≤ max 1 weight := le_max_left _ _
  have hproduct : 1 ≤ tuning.baseQuantumWorkUnits * max 1 weight := Nat.mul_pos h hweight
  simp only [FlowTuning.conflictQuantum, FlowTuning.boundedBaseQuantum, quantumForWeight,
    maxQuantumWorkUnits]
  rw [max_eq_right h, max_comm weight 1]
  omega

theorem quantumForWeight_max_one (base weight : ℕ) :
    quantumForWeight base (max weight 1) = quantumForWeight base weight := by
  simp [quantumForWeight, max_comm weight 1]

/-- An upsert either touches the rows of its key or appends its row. -/
theorem mem_upsertFlow {inserted row' : SchedulerFlowRow}
    {update : SchedulerFlowRow → SchedulerFlowRow} {flows : List SchedulerFlowRow}
    (h : row' ∈ upsertFlow inserted update flows) :
    row' = inserted ∨ ∃ row ∈ flows, row' = if row.key = inserted.key then update row else row := by
  unfold upsertFlow at h
  split at h
  · exact Or.inr ((mem_updateWhere _ _).mp h)
  · rcases List.mem_append.mp h with hold | hnew
    · next hnone =>
        refine Or.inr ⟨row', hold, ?_⟩
        rw [if_neg fun hkey => hnone ⟨row', hold, hkey⟩]
    · exact Or.inl (List.mem_singleton.mp hnew)

section Refresh

variable {sha256 : String → String} {tuning : FlowTuning}

theorem rowWithKey_upsertFlow {inserted : SchedulerFlowRow}
    {update : SchedulerFlowRow → SchedulerFlowRow} (hupdate : ∀ row, (update row).key = row.key)
    (key : FlowKey) (flows : List SchedulerFlowRow) :
    rowWithKey SchedulerFlowRow.key key (upsertFlow inserted update flows) =
      if inserted.key = key then
        some ((rowWithKey SchedulerFlowRow.key key flows).elim inserted update)
      else rowWithKey SchedulerFlowRow.key key flows := by
  by_cases hexists : ∃ row ∈ flows, row.key = inserted.key
  · rw [upsertFlow, if_pos hexists, rowWithKey_updateWhere _ _ _ fun row _ => hupdate row]
    by_cases hkey : inserted.key = key
    · subst hkey
      cases hfound : rowWithKey SchedulerFlowRow.key inserted.key flows with
      | none =>
          obtain ⟨row, hrow, hsame⟩ := hexists
          exact absurd hsame (rowWithKey_eq_none.mp hfound row hrow)
      | some row => simp [(rowWithKey_some hfound).2]
    · cases hfound : rowWithKey SchedulerFlowRow.key key flows with
      | none => simp [hkey]
      | some row =>
          have hother : row.key ≠ inserted.key := fun h =>
            hkey (h.symm.trans (rowWithKey_some hfound).2)
          simp [hkey, hother]
  · rw [upsertFlow, if_neg hexists, rowWithKey_append]
    by_cases hkey : inserted.key = key
    · have hnone : rowWithKey SchedulerFlowRow.key key flows = none :=
        rowWithKey_eq_none.mpr fun row hrow h => hexists ⟨row, hrow, h.trans hkey.symm⟩
      have hnew : rowWithKey SchedulerFlowRow.key key [inserted] = some inserted := by
        simp [rowWithKey, hkey]
      simp [hnone, hnew, hkey]
    · simp [hkey, rowWithKey]

/-- The row that an upsert of the aggregate leaves under its key. -/
def upsertedRow (sha256 : String → String) (tuning : FlowTuning) (aggregate : FlowAggregate)
    (existing : Option SchedulerFlowRow) : SchedulerFlowRow :=
  existing.elim (aggregateRow sha256 tuning aggregate) (refreshedRow tuning aggregate)

theorem rowWithKey_upsertAggregate (aggregate : FlowAggregate) (key : FlowKey)
    (flows : List SchedulerFlowRow) :
    rowWithKey SchedulerFlowRow.key key (upsertAggregate sha256 tuning aggregate flows) =
      if aggregate.key = key then
        some (upsertedRow sha256 tuning aggregate (rowWithKey SchedulerFlowRow.key key flows))
      else rowWithKey SchedulerFlowRow.key key flows :=
  rowWithKey_upsertFlow (fun row => (rfl : (refreshedRow tuning aggregate row).key = row.key)) key
    flows

theorem rowWithKey_upsertAggregates_of_notMem {key : FlowKey} {aggregates : List FlowAggregate} :
    ∀ {flows : List SchedulerFlowRow}, key ∉ aggregates.map FlowAggregate.key →
      rowWithKey SchedulerFlowRow.key key (upsertAggregates sha256 tuning aggregates flows) =
        rowWithKey SchedulerFlowRow.key key flows := by
  induction aggregates with
  | nil =>
      intro flows _
      rfl
  | cons aggregate aggregates ih =>
      intro flows hkey
      rw [List.map_cons, List.mem_cons, not_or] at hkey
      rw [upsertAggregates, List.foldl_cons]
      refine (ih hkey.2).trans ?_
      rw [rowWithKey_upsertAggregate, if_neg (Ne.symm hkey.1)]

theorem rowWithKey_upsertAggregates {aggregate : FlowAggregate} {aggregates : List FlowAggregate} :
    ∀ {flows : List SchedulerFlowRow}, (aggregates.map FlowAggregate.key).Nodup →
      aggregate ∈ aggregates →
      rowWithKey SchedulerFlowRow.key aggregate.key
          (upsertAggregates sha256 tuning aggregates flows) =
        some (upsertedRow sha256 tuning aggregate
          (rowWithKey SchedulerFlowRow.key aggregate.key flows)) := by
  induction aggregates with
  | nil =>
      intro flows _ h
      cases h
  | cons head aggregates ih =>
      intro flows hnodup h
      rw [List.map_cons, List.nodup_cons] at hnodup
      rw [upsertAggregates, List.foldl_cons]
      rcases List.mem_cons.mp h with rfl | htail
      · refine (rowWithKey_upsertAggregates_of_notMem hnodup.1).trans ?_
        rw [rowWithKey_upsertAggregate, if_pos rfl]
      · have hother : head.key ≠ aggregate.key := fun hsame =>
          hnodup.1 (hsame ▸ List.mem_map_of_mem htail)
        refine (ih hnodup.2 htail).trans ?_
        rw [rowWithKey_upsertAggregate, if_neg hother]

/-- The records of a refresh, one for each aggregate in order. -/
theorem refreshedRecords_eq {aggregates : List FlowAggregate} {flows : List SchedulerFlowRow}
    (hnodup : (aggregates.map FlowAggregate.key).Nodup) :
    refreshedRecords sha256 tuning aggregates flows = aggregates.map fun aggregate =>
      flowFromRow aggregate.oldestQueueEnteredAt aggregate.nextItemWorkUnits
        (upsertedRow sha256 tuning aggregate
          (rowWithKey SchedulerFlowRow.key aggregate.key flows)) := by
  rw [refreshedRecords, ← List.filterMap_eq_map]
  refine List.filterMap_congr fun aggregate haggregate => ?_
  rw [rowWithKey_upsertAggregates hnodup haggregate]
  rfl

theorem conflictQuantum_max_one (weight : ℕ) :
    tuning.conflictQuantum (max weight 1) = tuning.conflictQuantum weight := by
  simp [FlowTuning.conflictQuantum]

theorem conflictQuantum_defaultFlowWeight (tuning : FlowTuning) :
    tuning.conflictQuantum defaultFlowWeight =
      quantumForWeight tuning.baseQuantumWorkUnits defaultFlowWeight := by
  simp only [FlowTuning.conflictQuantum, FlowTuning.boundedBaseQuantum, quantumForWeight,
    defaultFlowWeight, maxQuantumWorkUnits, max_self]
  omega

/-- A second refresh from the same aggregate writes the same row again. -/
theorem refreshedRow_upsertedRow (aggregate : FlowAggregate) (existing : Option SchedulerFlowRow) :
    refreshedRow tuning aggregate (upsertedRow sha256 tuning aggregate existing) =
      upsertedRow sha256 tuning aggregate existing := by
  cases existing with
  | none =>
      have hquantum := conflictQuantum_defaultFlowWeight tuning
      have hdeficit : (0 : ℤ) ≤ (quantumForWeight tuning.baseQuantumWorkUnits defaultFlowWeight *
          tuning.boundedMaxDeficitMultiplier : ℕ) := Int.natCast_nonneg _
      have hweight : max defaultFlowWeight 1 = defaultFlowWeight := rfl
      simp only [upsertedRow, Option.elim_none, refreshedRow, aggregateRow, FlowTuning.clampRow,
        FlowTuning.insertedRow, hquantum, hweight, min_eq_left hdeficit]
  | some row =>
      simp [upsertedRow, refreshedRow, FlowTuning.clampRow, conflictQuantum_max_one]

/-- The refresh reads back what an earlier refresh from the same aggregates stored. -/
theorem refreshedRecords_refresh {serviceTier modelGroup : String}
    {aggregates : List FlowAggregate} {flows : List SchedulerFlowRow}
    (hnodup : (aggregates.map FlowAggregate.key).Nodup) :
    refreshedRecords sha256 tuning aggregates
        (refreshSchedulerFlows sha256 tuning serviceTier modelGroup aggregates flows) =
      refreshedRecords sha256 tuning aggregates flows := by
  rw [refreshedRecords_eq hnodup, refreshedRecords_eq hnodup]
  refine List.map_congr_left fun aggregate haggregate => ?_
  rw [refreshSchedulerFlows, deactivateStaleFlows, rowWithKey_updateWhere,
    rowWithKey_upsertAggregates hnodup haggregate, Option.map_some]
  · set stored := upsertedRow sha256 tuning aggregate
      (rowWithKey SchedulerFlowRow.key aggregate.key flows)
    have hagain : refreshedRow tuning aggregate stored = stored := refreshedRow_upsertedRow _ _
    change flowFromRow _ _ (refreshedRow tuning aggregate (if _ then _ else stored)) = _
    split
    · exact congrArg _ hagain
    · exact congrArg _ hagain
  · intro row _
    rfl

end Refresh

end SchedulerFlows
