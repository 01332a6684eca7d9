import DeltaLLM.WaitingRuns

/-! # Flows that wait forever

A head item may cost more than the deficit of its flow can reach and still no more than a decision
may claim. Such a flow is not oversized, so only a last pass selects it, and no decision comes to
its last pass while another flow of the group has cheap work.
-/
namespace OverlookedFlows

open BatchRecords
open DecisionRuns
open FairShareClaim
open FlowDeficits
open FlowSelection
open SchedulerFlows
open TableStatements
open TransitionRuns
open WaitingFlows
open WaitingRuns

theorem not_covers {config : FairShareConfig} {flow : BatchSchedulerFlowRecord}
    (h : ¬Payable config flow) (hdeficit : flow.deficitWorkUnits ≤
      maxDeficitForFlow flow.quantumWorkUnits config.tuning.maxDeficitMultiplier) :
    ¬DeficitCovers config flow := by
  rw [Payable, Classical.not_imp] at h
  rw [DeficitCovers, if_neg h.1]
  have hcost := h.2
  omega

/-! ## Two tenants -/

/-- Two flows of a group under settings with at least two rounds; the head item of the second costs
more than its deficit reaches. -/
structure Rivals where
  sha256 : String → String
  tuning : FlowTuning
  cheap : FlowKey
  costly : FlowKey
  cost : ℕ
  base : 1 ≤ tuning.baseQuantumWorkUnits
  rounds : 2 ≤ tuning.maxDeficitMultiplier
  group : InGroup cheap.serviceTier cheap.modelGroup costly
  ids : buildFlowId sha256 cheap ≠ buildFlowId sha256 costly
  unpayable : quantumForWeight tuning.baseQuantumWorkUnits defaultFlowWeight *
    tuning.boundedMaxDeficitMultiplier < cost

namespace Rivals

variable (r : Rivals)

def quantum : ℕ := quantumForWeight r.tuning.baseQuantumWorkUnits defaultFlowWeight

/-- The maximum deficit of both flows. -/
def limit : ℕ := r.quantum * r.tuning.boundedMaxDeficitMultiplier

def config : FairShareConfig :=
  { maxItems := 1, maxWorkUnits := r.cost, leaseSeconds := 60, tuning := r.tuning }

def cheapRow (deficit : ℤ) (selectedAt : Option Timestamp) : SchedulerFlowRow :=
  { r.tuning.insertedRow r.sha256 r.cheap true 1 1 0 with
    deficitWorkUnits := deficit, lastSelectedAt := selectedAt }

def costlyRow (deficit : ℤ) : SchedulerFlowRow :=
  { r.tuning.insertedRow r.sha256 r.costly true 1 r.cost 0 with deficitWorkUnits := deficit }

def cheapQueue : FlowAggregate := { key := r.cheap, queuedJobs := 1, queuedWorkUnits := 1 }

def costlyQueue : FlowAggregate :=
  { key := r.costly, queuedJobs := 1, queuedWorkUnits := r.cost, nextItemWorkUnits := r.cost }

def aggregates : List FlowAggregate := [r.cheapQueue, r.costlyQueue]

/-- Every claim finds an item of one work unit. -/
def oneItem : FlowClaim where
  claim := ⟨"worker", "job", "/v1/embeddings", none, none, none, "standard", ["item"], 1, 0⟩
  jobs := []
  items := []

def decision (now : Timestamp) : GroupDecision where
  config := r.config
  serviceTier := r.cheap.serviceTier
  modelGroup := r.cheap.modelGroup
  aggregates := r.aggregates
  attempt := fun _ => some oneItem
  now := now

/-- Both flows are stored; the cheap one has paid with its deficit so far. -/
def Stored (flows : List SchedulerFlowRow) (now : Timestamp) : Prop :=
  ∃ deficit costlyDeficit selectedAt,
    flows = [r.cheapRow deficit selectedAt, r.costlyRow costlyDeficit] ∧
      0 ≤ deficit ∧ deficit ≤ r.limit ∧ costlyDeficit ≤ r.limit ∧ selectedAt.getD 0 < now

section Refresh

variable {deficit costlyDeficit : ℤ} {selectedAt : Option Timestamp}

theorem keys_ne : r.cheap ≠ r.costly := fun h => r.ids (congrArg (buildFlowId r.sha256) h)

theorem conflictQuantum_one : r.tuning.conflictQuantum defaultFlowWeight = r.quantum :=
  conflictQuantum_eq r.base _

theorem refreshedRow_cheap (hdeficit : deficit ≤ r.limit) :
    refreshedRow r.tuning r.cheapQueue (r.cheapRow deficit selectedAt) =
      r.cheapRow deficit selectedAt := by
  have hweight : max defaultFlowWeight 1 = defaultFlowWeight := rfl
  have hclamped : min deficit (r.quantum * r.tuning.boundedMaxDeficitMultiplier : ℕ) = deficit :=
    min_eq_left hdeficit
  simp only [refreshedRow, FlowTuning.clampRow, cheapRow, FlowTuning.insertedRow, cheapQueue,
    r.conflictQuantum_one, hweight, hclamped]
  rfl

theorem refreshedRow_costly (hdeficit : costlyDeficit ≤ r.limit) :
    refreshedRow r.tuning r.costlyQueue (r.costlyRow costlyDeficit) =
      r.costlyRow costlyDeficit := by
  have hweight : max defaultFlowWeight 1 = defaultFlowWeight := rfl
  have hclamped : min costlyDeficit (r.quantum * r.tuning.boundedMaxDeficitMultiplier : ℕ) =
      costlyDeficit := min_eq_left hdeficit
  simp only [refreshedRow, FlowTuning.clampRow, costlyRow, FlowTuning.insertedRow, costlyQueue,
    r.conflictQuantum_one, hweight, hclamped]
  rfl

/-- A statement on the first flow of two. -/
theorem updateWhere_first {p : SchedulerFlowRow → Prop} [DecidablePred p]
    {f : SchedulerFlowRow → SchedulerFlowRow} {first second : SchedulerFlowRow} (hfirst : p first)
    (hsecond : ¬p second) : updateWhere p f [first, second] = [f first, second] := by
  simp [updateWhere, hfirst, hsecond]

theorem updateWhere_second {p : SchedulerFlowRow → Prop} [DecidablePred p]
    {f : SchedulerFlowRow → SchedulerFlowRow} {first second : SchedulerFlowRow} (hfirst : ¬p first)
    (hsecond : p second) : updateWhere p f [first, second] = [first, f second] := by
  simp [updateWhere, hfirst, hsecond]

theorem upserted_eq (hdeficit : deficit ≤ r.limit)
    (hcostly : costlyDeficit ≤ r.limit) :
    upsertAggregates r.sha256 r.tuning r.aggregates
        [r.cheapRow deficit selectedAt, r.costlyRow costlyDeficit] =
      [r.cheapRow deficit selectedAt, r.costlyRow costlyDeficit] := by
  have hfirst : upsertAggregate r.sha256 r.tuning r.cheapQueue
        [r.cheapRow deficit selectedAt, r.costlyRow costlyDeficit] =
      [r.cheapRow deficit selectedAt, r.costlyRow costlyDeficit] := by
    have hcheap : (r.cheapRow deficit selectedAt).key = r.cheap := rfl
    have hother : (r.costlyRow costlyDeficit).key ≠ r.cheap := Ne.symm r.keys_ne
    rw [upsertAggregate, upsertFlow, if_pos ⟨_, List.mem_cons_self, hcheap⟩]
    exact (updateWhere_first hcheap hother).trans (by rw [r.refreshedRow_cheap hdeficit])
  have hsecond : upsertAggregate r.sha256 r.tuning r.costlyQueue
        [r.cheapRow deficit selectedAt, r.costlyRow costlyDeficit] =
      [r.cheapRow deficit selectedAt, r.costlyRow costlyDeficit] := by
    have hcostlyKey : (r.costlyRow costlyDeficit).key = r.costly := rfl
    have hother : (r.cheapRow deficit selectedAt).key ≠ r.costly := r.keys_ne
    rw [upsertAggregate, upsertFlow,
      if_pos ⟨_, List.mem_cons_of_mem _ List.mem_cons_self, hcostlyKey⟩]
    exact (updateWhere_second hother hcostlyKey).trans (by rw [r.refreshedRow_costly hcostly])
  rw [upsertAggregates, aggregates, List.foldl_cons, hfirst, List.foldl_cons, hsecond]
  rfl

/-- A refresh from the same queues writes the stored flows again. -/
theorem refreshed_eq (hdeficit : deficit ≤ r.limit)
    (hcostly : costlyDeficit ≤ r.limit)
    (now : Timestamp) :
    (r.decision now).refreshed r.sha256 [r.cheapRow deficit selectedAt, r.costlyRow costlyDeficit] =
      [r.cheapRow deficit selectedAt, r.costlyRow costlyDeficit] := by
  have hfresh : ∀ row ∈ [r.cheapRow deficit selectedAt, r.costlyRow costlyDeficit],
      row.flowId ∈ r.aggregates.map fun aggregate => buildFlowId r.sha256 aggregate.key := by
    intro row hrow
    simp only [List.mem_cons, List.not_mem_nil, or_false] at hrow
    rcases hrow with rfl | rfl
    · exact List.mem_cons_self
    · exact List.mem_cons_of_mem _ List.mem_cons_self
  have hrefreshed : (r.decision now).refreshed r.sha256
      [r.cheapRow deficit selectedAt, r.costlyRow costlyDeficit] =
        deactivateStaleFlows r.cheap.serviceTier r.cheap.modelGroup
          (r.aggregates.map fun aggregate => buildFlowId r.sha256 aggregate.key)
          (upsertAggregates r.sha256 r.tuning r.aggregates
            [r.cheapRow deficit selectedAt, r.costlyRow costlyDeficit]) := rfl
  rw [hrefreshed, r.upserted_eq hdeficit hcostly, deactivateStaleFlows, updateWhere]
  conv_rhs => rw [← List.map_id [r.cheapRow deficit selectedAt, r.costlyRow costlyDeficit]]
  refine List.map_congr_left fun row hrow => ?_
  rw [if_neg fun hstale => hstale.1 (hfresh row hrow)]
  rfl

/-- The records of the two flows. -/
def cheapRecord (deficit : ℤ) (selectedAt : Option Timestamp) : BatchSchedulerFlowRecord :=
  flowFromRow none 1 (r.cheapRow deficit selectedAt)

def costlyRecord (deficit : ℤ) : BatchSchedulerFlowRecord :=
  flowFromRow none r.cost (r.costlyRow deficit)

theorem records_eq (hdeficit : deficit ≤ r.limit)
    (hcostly : costlyDeficit ≤ r.limit)
    (now : Timestamp) :
    (r.decision now).records r.sha256 [r.cheapRow deficit selectedAt, r.costlyRow costlyDeficit] =
      [r.cheapRecord deficit selectedAt, r.costlyRecord costlyDeficit] := by
  have hrecords : (r.decision now).records r.sha256
      [r.cheapRow deficit selectedAt, r.costlyRow costlyDeficit] =
        refreshedRecords r.sha256 r.tuning r.aggregates
          [r.cheapRow deficit selectedAt, r.costlyRow costlyDeficit] := rfl
  have hcheap : rowWithKey SchedulerFlowRow.key r.cheapQueue.key
      [r.cheapRow deficit selectedAt, r.costlyRow costlyDeficit] =
        some (r.cheapRow deficit selectedAt) := by
    simp [rowWithKey, cheapRow, cheapQueue, FlowTuning.insertedRow]
  have hrow : rowWithKey SchedulerFlowRow.key r.costlyQueue.key
      [r.cheapRow deficit selectedAt, r.costlyRow costlyDeficit] =
        some (r.costlyRow costlyDeficit) := by
    simp [rowWithKey, cheapRow, costlyRow, costlyQueue, FlowTuning.insertedRow, r.keys_ne]
  rw [hrecords, refreshedRecords, r.upserted_eq hdeficit hcostly, aggregates]
  simp only [List.filterMap_cons, hcheap, hrow, Option.map_some, List.filterMap_nil]
  rfl

end Refresh

/-! ## Passes -/

section Pass

variable {deficit costlyDeficit : ℤ} {selectedAt : Option Timestamp}

theorem cost_pos : 0 < r.cost := Nat.zero_lt_of_lt r.unpayable

theorem one_le_quantum : 1 ≤ r.quantum := one_le_quantumForWeight _ _

theorem activeFlows_eq :
    activeFlows [r.cheapRecord deficit selectedAt, r.costlyRecord costlyDeficit] =
    [r.cheapRecord deficit selectedAt, r.costlyRecord costlyDeficit] := by
  have hcheap : ActiveFlow (r.cheapRecord deficit selectedAt) :=
    ⟨rfl, Nat.one_pos, Nat.one_pos⟩
  have hcostly : ActiveFlow (r.costlyRecord costlyDeficit) := ⟨rfl, Nat.one_pos, r.cost_pos⟩
  simp [activeFlows, hcheap, hcostly]

/-- Every active flow is scanned. -/
theorem scans_all : (activeFlows [r.cheapRecord deficit selectedAt,
    r.costlyRecord costlyDeficit]).length ≤ r.config.boundedMaxActiveFlows := by
  have hscans : r.config.boundedMaxActiveFlows = 100 := rfl
  rw [activeFlows_eq, hscans]
  simp

theorem mem_scanned {flow : BatchSchedulerFlowRecord} :
    flow ∈ scannedFlows r.config [r.cheapRecord deficit selectedAt, r.costlyRecord costlyDeficit] ↔
      flow = r.cheapRecord deficit selectedAt ∨ flow = r.costlyRecord costlyDeficit := by
  rw [mem_scannedFlows r.scans_all, activeFlows_eq]
  simp

theorem fits (flow : BatchSchedulerFlowRecord) : FitsTenantCap r.config flow := by
  intro remaining hremaining
  cases hremaining

theorem cheap_covers : DeficitCovers r.config (r.cheapRecord deficit selectedAt) ↔ 1 ≤ deficit := by
  have hfits : ¬Oversized r.config (r.cheapRecord deficit selectedAt) := by
    have hitem : nextItem (r.cheapRecord deficit selectedAt) = 1 := rfl
    have hmax : r.config.boundedMaxWorkUnits = max 1 r.cost := rfl
    rw [Oversized, hitem, hmax]
    omega
  rw [DeficitCovers, if_neg hfits]
  rfl

theorem costly_limit : maxDeficitForFlow (r.costlyRecord costlyDeficit).quantumWorkUnits
    r.config.tuning.maxDeficitMultiplier = r.limit := by
  have hflow : (r.costlyRecord costlyDeficit).quantumWorkUnits = max 1 r.quantum := rfl
  rw [hflow, maxDeficitForFlow, max_eq_right r.one_le_quantum, max_eq_right r.one_le_quantum]
  rfl

/-- The head item of the costly flow fits, yet costs more than its deficit reaches. -/
theorem costly_unpayable : ¬Payable r.config (r.costlyRecord costlyDeficit) := by
  have hcost := r.cost_pos
  have hunpayable := r.unpayable
  have hitem : nextItem (r.costlyRecord costlyDeficit) = max 1 (max 1 r.cost) := rfl
  have hmax : r.config.boundedMaxWorkUnits = max 1 r.cost := rfl
  have hfits : ¬Oversized r.config (r.costlyRecord costlyDeficit) := by
    rw [Oversized, hitem, hmax]
    omega
  rw [Payable, Classical.not_imp, costly_limit, hitem]
  refine ⟨hfits, ?_⟩
  have hreach : r.limit < r.cost := hunpayable
  omega

theorem costly_skipped (hcostly : costlyDeficit ≤ r.limit) :
    (passVerdict r.config false [] [r.cheapRecord deficit selectedAt, r.costlyRecord costlyDeficit]
      (r.costlyRecord costlyDeficit)).isCandidate = false := by
  have huncovered : ¬DeficitCovers r.config (r.costlyRecord costlyDeficit) := by
    apply not_covers r.costly_unpayable
    rw [costly_limit]
    exact hcostly
  rw [Bool.eq_false_iff, passVerdict, activeFlows_eq, ne_eq,
    isCandidate_iff (r.fits _) List.not_mem_nil]
  rintro (hbypass | hsingle | hcovers)
  · cases hbypass
  · simp at hsingle
  · exact huncovered hcovers

theorem cheap_candidate :
    (passVerdict r.config false [] [r.cheapRecord deficit selectedAt, r.costlyRecord costlyDeficit]
      (r.cheapRecord deficit selectedAt)).isCandidate = true ↔ 1 ≤ deficit := by
  rw [passVerdict, activeFlows_eq, isCandidate_iff (r.fits _) List.not_mem_nil, cheap_covers]
  simp

/-- A pass selects the cheap flow if its deficit pays, and nothing otherwise. -/
theorem pass_selects (deficit : ℤ) (selectedAt : Option Timestamp)
    (hcostly : costlyDeficit ≤ r.limit) :
    (selectSchedulerFlow r.config false []
        [r.cheapRecord deficit selectedAt, r.costlyRecord costlyDeficit]).selected =
      if 1 ≤ deficit then some (r.cheapRecord deficit selectedAt) else none := by
  cases hselected : (selectSchedulerFlow r.config false []
      [r.cheapRecord deficit selectedAt, r.costlyRecord costlyDeficit]).selected with
  | none =>
      have hskipped := selected_eq_none.mp hselected _ (r.mem_scanned.mpr (Or.inl rfl))
      rw [Bool.eq_false_iff, ne_eq, cheap_candidate] at hskipped
      rw [if_neg hskipped]
  | some flow =>
      obtain ⟨hscanned, hcandidate⟩ := selected_mem hselected
      rcases r.mem_scanned.mp hscanned with rfl | rfl
      · rw [if_pos (r.cheap_candidate.mp hcandidate)]
      · rw [r.costly_skipped hcostly] at hcandidate
        cases hcandidate

/-- A pass that selects nothing does not end the decision. -/
theorem pass_goes_on (hnone : (selectSchedulerFlow r.config false []
      [r.cheapRecord deficit selectedAt, r.costlyRecord costlyDeficit]).selected = none) :
    terminalEmptyResult (selectSchedulerFlow r.config false []
      [r.cheapRecord deficit selectedAt, r.costlyRecord costlyDeficit]) = none := by
  exact terminal_none r.scans_all (r.mem_scanned.mpr (Or.inl rfl)) (r.fits _) hnone

end Pass

/-! ## Decisions -/

section Decision

variable {deficit costlyDeficit : ℤ} {selectedAt : Option Timestamp}

/-- What is left of a decision that claims from the cheap flow. -/
def ClaimsCheap (decided : Decision FlowClaim) (deficit costlyDeficit : ℤ)
    (selectedAt : Option Timestamp) : Prop :=
  ∃ tried, tried.flow = r.cheapRecord deficit selectedAt ∧
    decided = ⟨[tried], .claimed tried oneItem,
      [r.cheapRow deficit selectedAt, r.costlyRow costlyDeficit]⟩

theorem round_claims (selectedAt : Option Timestamp) (hdeficit : 1 ≤ deficit)
    (hcostly : costlyDeficit ≤ r.limit) (n : ℕ) :
    r.ClaimsCheap (fairShareRounds r.config r.cheap.serviceTier r.cheap.modelGroup
      (fun _ => some oneItem) (n + 1)
      ⟨[r.cheapRecord deficit selectedAt, r.costlyRecord costlyDeficit],
        [r.cheapRow deficit selectedAt, r.costlyRow costlyDeficit], []⟩)
      deficit costlyDeficit selectedAt := by
  have hselected := r.pass_selects deficit selectedAt hcostly
  rw [if_pos hdeficit] at hselected
  simp only [fairShareRounds, hselected]
  exact ⟨_, rfl, rfl⟩

/-- The deficit after a refill. -/
def refilled (deficit : ℤ) : ℤ := min (deficit + r.quantum) r.limit

theorem refilled_le (deficit : ℤ) : r.refilled deficit ≤ r.limit := min_le_right _ _

theorem refillable_cheap : Refillable r.cheap.serviceTier r.cheap.modelGroup
    (r.cheapRow deficit selectedAt) := ⟨⟨rfl, rfl⟩, rfl, Nat.one_pos⟩

theorem refillable_costly : Refillable r.cheap.serviceTier r.cheap.modelGroup
    (r.costlyRow costlyDeficit) := ⟨r.group, rfl, Nat.one_pos⟩

theorem simulatedRefill_cheap : simulatedRefill r.tuning (r.cheapRecord deficit selectedAt) =
    r.cheapRecord (r.refilled deficit) selectedAt := by
  have hrefillable : Refillable r.cheap.serviceTier r.cheap.modelGroup
    (r.cheapRow deficit selectedAt) := r.refillable_cheap
  have hrefill := flowFromRow_refill r.tuning hrefillable.1 r.one_le_quantum none 1
  rw [if_pos hrefillable] at hrefill
  exact hrefill.symm

theorem simulatedRefill_costly : simulatedRefill r.tuning (r.costlyRecord costlyDeficit) =
    r.costlyRecord (r.refilled costlyDeficit) := by
  have hrefillable : Refillable r.cheap.serviceTier r.cheap.modelGroup
    (r.costlyRow costlyDeficit) := r.refillable_costly
  have hrefill := flowFromRow_refill r.tuning hrefillable.1 r.one_le_quantum none r.cost
  rw [if_pos hrefillable] at hrefill
  exact hrefill.symm

theorem refill_eq :
    DecisionState.refill r.config r.cheap.serviceTier r.cheap.modelGroup
        ⟨[r.cheapRecord deficit selectedAt, r.costlyRecord costlyDeficit],
          [r.cheapRow deficit selectedAt, r.costlyRow costlyDeficit], []⟩ =
      ⟨[r.cheapRecord (r.refilled deficit) selectedAt, r.costlyRecord (r.refilled costlyDeficit)],
        [r.cheapRow (r.refilled deficit) selectedAt, r.costlyRow (r.refilled costlyDeficit)],
        []⟩ := by
  have hrefilled : refillSchedulerFlowDeficits r.tuning r.cheap.serviceTier r.cheap.modelGroup
      [r.cheapRow deficit selectedAt, r.costlyRow costlyDeficit] =
        [r.cheapRow (r.refilled deficit) selectedAt, r.costlyRow (r.refilled costlyDeficit)] := by
    simp only [refillSchedulerFlowDeficits, updateWhere, List.map_cons, List.map_nil,
      if_pos r.refillable_cheap, if_pos r.refillable_costly]
    rfl
  have hsimulated : simulateSchedulerFlowDeficitRefill r.tuning
      [r.cheapRecord deficit selectedAt, r.costlyRecord costlyDeficit] =
        [r.cheapRecord (r.refilled deficit) selectedAt,
          r.costlyRecord (r.refilled costlyDeficit)] := by
    simp only [simulateSchedulerFlowDeficitRefill, List.map_cons, List.map_nil,
      simulatedRefill_cheap, simulatedRefill_costly]
  have hrefillable : ∃ row ∈ [r.cheapRow deficit selectedAt, r.costlyRow costlyDeficit],
      Refillable r.cheap.serviceTier r.cheap.modelGroup row :=
    ⟨_, List.mem_cons_self, r.refillable_cheap⟩
  have htuning : r.config.tuning = r.tuning := rfl
  simp only [DecisionState.refill, if_pos hrefillable, htuning, hrefilled, hsimulated]

theorem one_le_refilled (h : 0 ≤ deficit) : 1 ≤ r.refilled deficit := by
  have hquantum := r.one_le_quantum
  have hlimit : 1 ≤ r.limit := Nat.mul_pos hquantum (one_le_multiplier r.tuning)
  unfold refilled
  omega

/-- Within two rounds a decision claims from the cheap flow. -/
theorem decided_claims {flows : List SchedulerFlowRow} {now : Timestamp} (h : r.Stored flows now) :
    ∃ (deficit costlyDeficit : ℤ) (selectedAt : Option Timestamp),
      1 ≤ deficit ∧ deficit ≤ r.limit ∧ costlyDeficit ≤ r.limit ∧
      r.ClaimsCheap ((r.decision now).decided r.sha256 flows) deficit costlyDeficit selectedAt := by
  obtain ⟨deficit, costlyDeficit, selectedAt, rfl, hpaid, hdeficit, hcostly, -⟩ := h
  obtain ⟨n, hn⟩ : ∃ n, max 1 r.tuning.maxDeficitMultiplier = n + 2 :=
    ⟨max 1 r.tuning.maxDeficitMultiplier - 2, by have hrounds := r.rounds; omega⟩
  have hdecided : (r.decision now).decided r.sha256
      [r.cheapRow deficit selectedAt, r.costlyRow costlyDeficit] =
        fairShareRounds r.config r.cheap.serviceTier r.cheap.modelGroup (fun _ => some oneItem)
          (n + 2) ⟨[r.cheapRecord deficit selectedAt, r.costlyRecord costlyDeficit],
            [r.cheapRow deficit selectedAt, r.costlyRow costlyDeficit], []⟩ := by
    rw [GroupDecision.decided, r.refreshed_eq hdeficit hcostly, r.records_eq hdeficit hcostly,
      ← hn]
    rfl
  rw [hdecided]
  by_cases hpays : 1 ≤ deficit
  · exact ⟨deficit, costlyDeficit, selectedAt, hpays, hdeficit, hcostly,
      r.round_claims selectedAt hpays hcostly _⟩
  · have hselected := r.pass_selects deficit selectedAt hcostly
    rw [if_neg hpays] at hselected
    refine ⟨r.refilled deficit, r.refilled costlyDeficit, selectedAt, r.one_le_refilled hpaid,
      r.refilled_le _, r.refilled_le _, ?_⟩
    have hround := r.round_claims selectedAt (r.one_le_refilled hpaid)
      (r.refilled_le costlyDeficit) n
    rw [← refill_eq] at hround
    simpa only [fairShareRounds, hselected, r.pass_goes_on hselected] using hround

end Decision

/-! ## The run -/

section Run

theorem charge_eq {deficit costlyDeficit : ℤ} {selectedAt : Option Timestamp}
    (hdeficit : 1 ≤ deficit)
    (now : Timestamp) :
    chargeFlow r.tuning now (r.cheapRecord deficit selectedAt).flowId
        (r.cheapRecord deficit selectedAt).quantumWorkUnits 1
        [r.cheapRow deficit selectedAt, r.costlyRow costlyDeficit] =
      [r.cheapRow (deficit - 1) (some now), r.costlyRow costlyDeficit] := by
  have hcheap : (r.cheapRow deficit selectedAt).flowId =
      (r.cheapRecord deficit selectedAt).flowId := rfl
  have hother : (r.costlyRow costlyDeficit).flowId ≠ (r.cheapRecord deficit selectedAt).flowId :=
    Ne.symm r.ids
  have hcharged : max (deficit - (max 1 1 : ℕ))
      (-(maxDeficitForFlow (r.cheapRecord deficit selectedAt).quantumWorkUnits
        r.tuning.maxDeficitMultiplier : ℤ)) = deficit - 1 := by omega
  refine (updateWhere_first hcheap hother).trans ?_
  simp only [cheapRow, hcharged]

/-- A claim from the cheap flow leaves it able to pay again after a refill. -/
theorem Stored.next {flows : List SchedulerFlowRow} {now : Timestamp} (h : r.Stored flows now) :
    r.Stored ((r.decision now).charged r.sha256 flows) (now + 1) := by
  obtain ⟨deficit, costlyDeficit, selectedAt, hpays, hdeficit, hcostly, tried, hflow, hdecided⟩ :=
    r.decided_claims h
  have hcharged : (r.decision now).charged r.sha256 flows =
      [r.cheapRow (deficit - 1) (some now), r.costlyRow costlyDeficit] := by
    rw [GroupDecision.charged, hdecided]
    simp only [hflow]
    exact r.charge_eq hpays now
  refine ⟨deficit - 1, costlyDeficit, some now, hcharged, by omega, by omega, hcostly, ?_⟩
  exact Nat.lt_succ_self now

theorem Stored.passes_over {flows : List SchedulerFlowRow} {now : Timestamp}
    (h : r.Stored flows now) :
    PassedOver r.sha256 (fun config flow => ¬Payable config flow) (r.decision now) flows r.costly ∧
      (r.decision now).claims r.sha256 flows = 1 := by
  obtain ⟨deficit', costlyDeficit', selectedAt', -, -, -, tried, hflow, hdecided⟩ :=
    r.decided_claims h
  obtain ⟨deficit, costlyDeficit, selectedAt, rfl, -, hdeficit, hcostly, -⟩ := h
  refine ⟨⟨r.costlyRecord costlyDeficit, ?_, rfl, r.fits _, r.costly_unpayable, ?_⟩, ?_⟩
  · rw [r.records_eq hdeficit hcostly]
    exact r.mem_scanned.mpr (Or.inr rfl)
  · intro attempt hattempt
    rw [hdecided] at hattempt
    rw [List.mem_singleton.mp hattempt, hflow]
    exact r.ids
  · rw [GroupDecision.claims, hdecided]

theorem Stored.permitted {flows : List SchedulerFlowRow} {now : Timestamp}
    (h : r.Stored flows now) : Permitted r.sha256 r.tuning flows (.decide (r.decision now)) := by
  obtain ⟨deficit, costlyDeficit, selectedAt, hflows, -⟩ := Stored.next r h
  constructor
  · rw [nextFlows, hflows]
    simpa [cheapRow, costlyRow, FlowTuning.insertedRow] using r.ids
  · intro d hd
    obtain rfl : r.decision now = d := FlowEvent.decide.inj hd
    refine ⟨rfl, fun aggregate haggregate => ?_⟩
    rcases List.mem_cons.mp haggregate with rfl | hcostly
    · exact ⟨rfl, rfl⟩
    · rw [List.mem_singleton.mp hcostly]
      exact r.group

theorem Stored.inOrder {flows : List SchedulerFlowRow} {now : Timestamp} (h : r.Stored flows now) :
    InOrder (r.decision now) flows := by
  obtain ⟨deficit, costlyDeficit, selectedAt, rfl, -, -, -, hbefore⟩ := h
  refine ⟨Nat.zero_lt_of_lt hbefore, fun row hrow _ => ?_⟩
  rcases List.mem_cons.mp hrow with rfl | hcostly
  · exact hbefore
  · rw [List.mem_singleton.mp hcostly]
    exact Nat.zero_lt_of_lt hbefore

/-- Both flows as an upsert inserts them. -/
def stored : List SchedulerFlowRow := [r.cheapRow 0 none, r.costlyRow 0]

theorem stored_reachable : Reachable (schedulerSystem r.sha256 r.tuning) r.stored := by
  refine .initial ⟨?_, fun row hrow => ?_⟩
  · simpa [stored, cheapRow, costlyRow, FlowTuning.insertedRow] using r.ids
  · rcases List.mem_cons.mp hrow with rfl | hcostly
    · exact ⟨⟨rfl, rfl⟩, rfl⟩
    · rw [List.mem_singleton.mp hcostly]
      exact ⟨⟨rfl, rfl⟩, rfl⟩

/-- By induction on the claims: each leaves both flows stored for the next. -/
theorem waits (n : ℕ) : ∃ flows, r.Stored flows (n + 1) ∧
    Waiting r.sha256 r.tuning (fun config flow => ¬Payable config flow) r.costly r.stored n
      flows := by
  induction n with
  | zero =>
      refine ⟨r.stored, ⟨0, 0, none, rfl, le_rfl, ?_, ?_, Nat.one_pos⟩, .start⟩
      · exact Int.natCast_nonneg _
      · exact Int.natCast_nonneg _
  | succ n ih =>
      obtain ⟨flows, hstored, hwaiting⟩ := ih
      obtain ⟨hpassed, hclaims⟩ := Stored.passes_over r hstored
      have hnext := hwaiting.passedOver (Stored.permitted r hstored) r.group hpassed
        (Stored.inOrder r hstored)
      rw [hclaims] at hnext
      exact ⟨_, Stored.next r hstored, hnext⟩

end Run

end Rivals

/-- A flow that fits every decision but costs more than its deficit reaches waits for any number of
claims. -/
theorem overlooked_forever (r : Rivals) (n : ℕ) :
    ∃ start flows, Reachable (schedulerSystem r.sha256 r.tuning) start ∧
      Waiting r.sha256 r.tuning (fun config flow => ¬Payable config flow) r.costly start n
        flows := by
  obtain ⟨flows, -, hwaiting⟩ := r.waits n
  exact ⟨r.stored, flows, r.stored_reachable, hwaiting⟩

/-- Two teams under the default settings; an item of the second costs 200 work units. -/
def teams : Rivals where
  sha256 := teamDigests
  tuning := {}
  cheap := ⟨"standard", "m", "team", "a"⟩
  costly := ⟨"standard", "m", "team", "b"⟩
  cost := 200
  base := by decide
  rounds := by decide
  group := by decide
  ids := by decide +kernel
  unpayable := by decide

theorem overlooked_forever_teams :
    ∃ start flows, Reachable (schedulerSystem teamDigests {}) start ∧
      Waiting teamDigests {} (fun config flow => ¬Payable config flow)
        ⟨"standard", "m", "team", "b"⟩ start 1000000 flows :=
  overlooked_forever teams 1000000

end OverlookedFlows
