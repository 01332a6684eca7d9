import DeltaLLM.DecisionRuns
import DeltaLLM.FairSharePreview

/-! # Bounded waiting

However the others behave, a flow that every decision of its group could select waits for a bounded
number of claims: each claim of another flow uses up deficit that only refills bring back, or goes
to a flow that was last selected no later and is behind from then on.
-/
namespace WaitingRuns

open BatchRecords
open DecisionRuns
open FairShareClaim
open FairSharePreview (NormalizedGroup)
open FlowDeficits
open FlowSelection
open FlowSnapshots
open SchedulerFlows
open TableStatements
open TransitionRuns
open WaitingFlows

/-! ## Waiting -/

section Waiting

variable (sha256 : String → String) (tuning : FlowTuning)
  (pays : FairShareConfig → BatchSchedulerFlowRecord → Prop)

/-- The decision scans the flow, the tenant cap admits it, and none of the attempts is the flow. -/
def PassedOver (d : GroupDecision) (flows : List SchedulerFlowRow) (key : FlowKey) : Prop :=
  ∃ flow ∈ scannedFlows d.config (d.records sha256 flows), flow.key = key ∧
    FitsTenantCap d.config flow ∧ pays d.config flow ∧
    ∀ tried ∈ (d.decided sha256 flows).attempts, tried.flow.flowId ≠ flow.flowId

/-- The transaction began after the last selections of its group. -/
def InOrder (d : GroupDecision) (flows : List SchedulerFlowRow) : Prop :=
  0 < d.now ∧ ∀ row ∈ flows, InGroup d.serviceTier d.modelGroup row.key →
    row.lastSelectedAt.getD 0 < d.now

/-- A run in which every decision of the group passes the flow over, with the number of claims that
these decisions made. -/
inductive Waiting (key : FlowKey) (start : List SchedulerFlowRow) :
    ℕ → List SchedulerFlowRow → Prop where
  | start : Waiting key start 0 start
  | elsewhere {n : ℕ} {flows : List SchedulerFlowRow} {e : FlowEvent} :
      Waiting key start n flows → Permitted sha256 tuning flows e →
      (∀ d, e = .decide d → ¬InGroup d.serviceTier d.modelGroup key) →
      Waiting key start n (nextFlows sha256 tuning flows e)
  | passedOver {n : ℕ} {flows : List SchedulerFlowRow} {d : GroupDecision} :
      Waiting key start n flows → Permitted sha256 tuning flows (.decide d) →
      InGroup d.serviceTier d.modelGroup key → PassedOver sha256 pays d flows key →
      InOrder d flows →
      Waiting key start (n + d.claims sha256 flows) (nextFlows sha256 tuning flows (.decide d))

end Waiting

/-- Each flow of the group can overtake once by the order of the last pass, and the deficits pay
for the other claims. -/
def waitingBound (tuning : FlowTuning) (size : ℕ) : ℕ :=
  size + size * largestDeficit tuning +
    2 * tuning.boundedMaxDeficitMultiplier * (size * largestDeficit tuning + 1)

/-! ## The measure over a run -/

section Measure

variable {sha256 : String → String} {tuning : FlowTuning} {row : SchedulerFlowRow}
  {flows flows' : List SchedulerFlowRow} {key : FlowKey} {size : ℕ}

/-- What a row adds to the spendable work units of a group. -/
def spendableUnits (serviceTier modelGroup : String) (row : SchedulerFlowRow) : ℕ :=
  if InGroup serviceTier modelGroup row.key then row.deficitWorkUnits.toNat else 0

theorem spendable_eq (serviceTier modelGroup : String) (flows : List SchedulerFlowRow) :
    spendable serviceTier modelGroup flows =
      (flows.map (spendableUnits serviceTier modelGroup)).sum := by
  induction flows with
  | nil => rfl
  | cons row flows ih =>
      rw [spendable, groupFlows] at ih
      by_cases hgroup : InGroup serviceTier modelGroup row.key
      · simp [spendable, groupFlows, spendableUnits, hgroup, ih]
      · simp [spendable, groupFlows, spendableUnits, hgroup, ih]

theorem spendable_extends (h : Extends sha256 flows flows') (serviceTier modelGroup : String) :
    spendable serviceTier modelGroup flows' = spendable serviceTier modelGroup flows := by
  obtain ⟨f, new, rfl, hf, hnew⟩ := h
  have hold : ∀ row ∈ flows, spendableUnits serviceTier modelGroup (f row) =
      spendableUnits serviceTier modelGroup row := by
    intro row hrow
    simp [spendableUnits, (hf row hrow).key, (hf row hrow).deficit]
  have hadded : ∀ units ∈ new.map (spendableUnits serviceTier modelGroup), units = 0 := by
    intro units hunits
    obtain ⟨row, hrow, rfl⟩ := List.mem_map.mp hunits
    simp [spendableUnits, (hnew row hrow).deficit]
  rw [spendable_eq, spendable_eq, List.map_append, List.sum_append, List.sum_eq_zero hadded,
    List.map_map, Nat.add_zero]
  exact congrArg List.sum (List.map_congr_left hold)

/-- New flows do not raise the measure, not even the flow itself. -/
theorem measure_extends (h : Extends sha256 flows flows')
    (hkeys : (flows'.map SchedulerFlowRow.key).Nodup) :
    waitingMeasure tuning key size flows' ≤ waitingMeasure tuning key size flows := by
  have hleft : refillsLeft tuning (rowWithKey SchedulerFlowRow.key key flows') ≤
      refillsLeft tuning (rowWithKey SchedulerFlowRow.key key flows) := by
    rcases h.row_cases hkeys key with ⟨row, row', hrow, hrow', hsame⟩ | ⟨hnone, hnew⟩
    · rw [hrow, hrow', refillsLeft, refillsLeft, hsame.quantum, hsame.deficit]
    · rw [hnone]
      cases hfound : rowWithKey SchedulerFlowRow.key key flows' with
      | none => exact le_rfl
      | some row' => exact refillsLeft_zero (hnew row' hfound).quantum (hnew row' hfound).deficit
  have hproduct := Nat.mul_le_mul_right (size * largestDeficit tuning + 1) hleft
  rw [waitingMeasure, waitingMeasure, spendable_extends h]
  omega

/-- A refill of another group is no concern of the flow. -/
theorem measure_refill_elsewhere {serviceTier modelGroup : String}
    (haway : ¬InGroup serviceTier modelGroup key) :
    waitingMeasure tuning key size
        (refillSchedulerFlowDeficits tuning serviceTier modelGroup flows) =
      waitingMeasure tuning key size flows := by
  have hunits : ∀ row ∈ flows, spendableUnits key.serviceTier key.modelGroup
      (if Refillable serviceTier modelGroup row then refillRow tuning row else row) =
        spendableUnits key.serviceTier key.modelGroup row := by
    intro row _
    split
    · next hrefillable =>
        have hother : ¬InGroup key.serviceTier key.modelGroup row.key := by
          rintro ⟨htier, hgroup⟩
          apply haway
          rw [InGroup, ← htier, ← hgroup]
          exact hrefillable.1
        have hrefilled : ¬InGroup key.serviceTier key.modelGroup (refillRow tuning row).key :=
          hother
        rw [spendableUnits, spendableUnits, if_neg hother, if_neg hrefilled]
    · rfl
  have hrow : rowWithKey SchedulerFlowRow.key key
      (refillSchedulerFlowDeficits tuning serviceTier modelGroup flows) =
        rowWithKey SchedulerFlowRow.key key flows := by
    rw [refillSchedulerFlowDeficits, rowWithKey_updateWhere _ _ _ fun other _ =>
      (rfl : (refillRow tuning other).key = other.key)]
    cases hfound : rowWithKey SchedulerFlowRow.key key flows with
    | none => rfl
    | some row =>
        obtain ⟨-, rfl⟩ := rowWithKey_some hfound
        rw [Option.map_some, if_neg fun hrefillable => haway hrefillable.1]
  rw [waitingMeasure, waitingMeasure, hrow, spendable_eq, spendable_eq, refillSchedulerFlowDeficits,
    updateWhere, List.map_map]
  exact congrArg _ (congrArg List.sum (List.map_congr_left hunits))

variable {now : Timestamp} {quantumWorkUnits claimedWorkUnits : ℕ}

theorem spendableUnits_charged (serviceTier modelGroup : String) (row : SchedulerFlowRow) :
    spendableUnits serviceTier modelGroup
        (chargedRow tuning now quantumWorkUnits claimedWorkUnits row) =
      if InGroup serviceTier modelGroup row.key then
        (row.deficitWorkUnits - (max 1 claimedWorkUnits : ℕ)).toNat else 0 := by
  have hkey : (chargedRow tuning now quantumWorkUnits claimedWorkUnits row).key = row.key := rfl
  rw [spendableUnits, hkey]
  by_cases hgroup : InGroup serviceTier modelGroup row.key
  · rw [if_pos hgroup, if_pos hgroup]
    simp only [chargedRow]
    omega
  · rw [if_neg hgroup, if_neg hgroup]

theorem spendableUnits_charged_le (serviceTier modelGroup : String) (row : SchedulerFlowRow) :
    spendableUnits serviceTier modelGroup
        (chargedRow tuning now quantumWorkUnits claimedWorkUnits row) ≤
      spendableUnits serviceTier modelGroup row := by
  rw [spendableUnits_charged, spendableUnits]
  split <;> omega

/-- A claim pays at least one work unit. -/
theorem spendableUnits_charged_lt {serviceTier modelGroup : String}
    (hdeficit : 1 ≤ row.deficitWorkUnits) (hgroup : InGroup serviceTier modelGroup row.key) :
    spendableUnits serviceTier modelGroup
        (chargedRow tuning now quantumWorkUnits claimedWorkUnits row) <
      spendableUnits serviceTier modelGroup row := by
  rw [spendableUnits_charged, spendableUnits, if_pos hgroup, if_pos hgroup]
  omega

/-- The charge of another flow does not raise the measure, and lowers it where the deficit pays. -/
theorem measure_charge (h : FlowsSound sha256 tuning flows) (hrow : row ∈ flows)
    (hother : row.key ≠ key) (size : ℕ) (now : Timestamp) (quantumWorkUnits claimedWorkUnits : ℕ) :
    waitingMeasure tuning key size
          (chargeFlow tuning now row.flowId quantumWorkUnits claimedWorkUnits flows) ≤
        waitingMeasure tuning key size flows ∧
      (1 ≤ row.deficitWorkUnits → InGroup key.serviceTier key.modelGroup row.key →
        waitingMeasure tuning key size
            (chargeFlow tuning now row.flowId quantumWorkUnits claimedWorkUnits flows) + 1 ≤
          waitingMeasure tuning key size flows) := by
  have hfound : rowWithKey SchedulerFlowRow.key key
      (chargeFlow tuning now row.flowId quantumWorkUnits claimedWorkUnits flows) =
        rowWithKey SchedulerFlowRow.key key flows := by
    rw [rowWithKey_charge]
    cases hkey : rowWithKey SchedulerFlowRow.key key flows with
    | none => rfl
    | some own =>
        obtain ⟨hown, rfl⟩ := rowWithKey_some hkey
        rw [Option.map_some, if_neg fun hid =>
          hother (congrArg SchedulerFlowRow.key (h.eq_of_flowId hown hrow hid)).symm]
  have hunits : ∀ other ∈ flows, spendableUnits key.serviceTier key.modelGroup
      (if other.flowId = row.flowId then
        chargedRow tuning now quantumWorkUnits claimedWorkUnits other else other) ≤
        spendableUnits key.serviceTier key.modelGroup other := by
    intro other _
    split
    · exact spendableUnits_charged_le ..
    · exact le_rfl
  have hspendable : spendable key.serviceTier key.modelGroup
      (chargeFlow tuning now row.flowId quantumWorkUnits claimedWorkUnits flows) =
        (flows.map fun other => spendableUnits key.serviceTier key.modelGroup
          (if other.flowId = row.flowId then
            chargedRow tuning now quantumWorkUnits claimedWorkUnits other else other)).sum := by
    rw [spendable_eq, chargeFlow, updateWhere, List.map_map]
    rfl
  rw [waitingMeasure, waitingMeasure, hfound, hspendable, spendable_eq]
  refine ⟨Nat.add_le_add_left (List.sum_le_sum hunits) _, fun hdeficit hgroup => ?_⟩
  have hpays : spendableUnits key.serviceTier key.modelGroup
      (if row.flowId = row.flowId then
        chargedRow tuning now quantumWorkUnits claimedWorkUnits row else row) <
        spendableUnits key.serviceTier key.modelGroup row := by
    rw [if_pos rfl]
    exact spendableUnits_charged_lt hdeficit hgroup
  exact Nat.add_lt_add_left (List.sum_lt_sum _ _ hunits ⟨row, hrow, hpays⟩) _

end Measure

/-! ## Flows that went ahead -/

/-- Flows of the group that were selected later than the waiting flow. -/
structure Ahead (key : FlowKey) (flows : List SchedulerFlowRow) (ahead : List FlowKey) : Prop where
  nodup : ahead.Nodup
  stored : ∀ other ∈ ahead, other ∈ flows.map SchedulerFlowRow.key
  group : ∀ other ∈ ahead, InGroup key.serviceTier key.modelGroup other
  later : ∀ other ∈ ahead, lastSelected flows key < lastSelected flows other

section Ahead

variable {sha256 : String → String} {tuning : FlowTuning} {row : SchedulerFlowRow}
  {flows flows' : List SchedulerFlowRow} {key : FlowKey} {ahead : List FlowKey} {now : Timestamp}
  {quantumWorkUnits claimedWorkUnits : ℕ}

theorem Ahead.length_le (h : Ahead key flows ahead) :
    ahead.length ≤ (groupFlows key.serviceTier key.modelGroup flows).length := by
  rw [length_groupFlows]
  refine (List.subperm_of_subset h.nodup fun other hother => ?_).length_le
  exact List.mem_filter.mpr ⟨h.stored other hother, decide_eq_true (h.group other hother)⟩

theorem Ahead.inPlace (h : Ahead key flows ahead) (hplace : InPlace flows flows') :
    Ahead key flows' ahead where
  nodup := h.nodup
  stored other hother := hplace.stored other (h.stored other hother)
  group := h.group
  later other hother := by
    rw [hplace.selected, hplace.selected]
    exact h.later other hother

/-- Another flow is charged: one that is ahead already stays ahead. -/
theorem Ahead.charge (h : Ahead key flows ahead) (hsound : FlowsSound sha256 tuning flows)
    (hrow : row ∈ flows) (hother : row.key ≠ key)
    (hnow : row.key ∈ ahead → lastSelected flows key < now) :
    Ahead key (chargeFlow tuning now row.flowId quantumWorkUnits claimedWorkUnits flows) ahead where
  nodup := h.nodup
  stored := by
    rw [charge_columns _ fun _ _ _ => rfl]
    exact h.stored
  group := h.group
  later := by
    intro other hmem
    rw [hsound.lastSelected_charge hrow, hsound.lastSelected_charge hrow, if_neg (Ne.symm hother)]
    by_cases hcharged : other = row.key
    · rw [if_pos hcharged]
      exact hnow (hcharged ▸ hmem)
    · rw [if_neg hcharged]
      exact h.later other hmem

/-- A charged flow of the group is ahead from then on. -/
theorem Ahead.overtaken (h : Ahead key flows ahead) (hsound : FlowsSound sha256 tuning flows)
    (hrow : row ∈ flows) (hother : row.key ≠ key)
    (hgroup : InGroup key.serviceTier key.modelGroup row.key)
    (hnow : lastSelected flows key < now) (hbehind : row.key ∉ ahead) :
    Ahead key (chargeFlow tuning now row.flowId quantumWorkUnits claimedWorkUnits flows)
      (row.key :: ahead) := by
  have hcharged : Ahead key
      (chargeFlow tuning now row.flowId quantumWorkUnits claimedWorkUnits flows) ahead :=
    h.charge hsound hrow hother fun _ => hnow
  refine ⟨List.nodup_cons.mpr ⟨hbehind, h.nodup⟩, ?_, ?_, ?_⟩
  · refine List.forall_mem_cons.mpr ⟨?_, hcharged.stored⟩
    rw [charge_columns _ fun _ _ _ => rfl]
    exact List.mem_map_of_mem hrow
  · exact List.forall_mem_cons.mpr ⟨hgroup, h.group⟩
  · refine List.forall_mem_cons.mpr ⟨?_, hcharged.later⟩
    rw [hsound.lastSelected_charge hrow, hsound.lastSelected_charge hrow, if_neg (Ne.symm hother),
      if_pos rfl]
    exact hnow

end Ahead

/-! ## The bound -/

section Bound

variable {sha256 : String → String} {tuning : FlowTuning} {key : FlowKey} {d : GroupDecision}
  {start flows flows' : List SchedulerFlowRow}

/-- So far `n` claims went to others: those that are ahead, and those that paid. -/
def Accounted (tuning : FlowTuning) (key : FlowKey) (start : List SchedulerFlowRow) (n : ℕ)
    (flows : List SchedulerFlowRow) : Prop :=
  (groupFlows key.serviceTier key.modelGroup start).length ≤
    (groupFlows key.serviceTier key.modelGroup flows).length ∧
  ∃ ahead paid, n = ahead.length + paid ∧ Ahead key flows ahead ∧
    ∀ size, (groupFlows key.serviceTier key.modelGroup flows).length ≤ size →
      paid + waitingMeasure tuning key size flows ≤ waitingMeasure tuning key size start

theorem accounted_start : Accounted tuning key start 0 start := by
  refine ⟨le_rfl, [], 0, rfl, ⟨List.nodup_nil, ?_, ?_, ?_⟩, fun size _ => by omega⟩
  · exact fun _ hmem => absurd hmem List.not_mem_nil
  · exact fun _ hmem => absurd hmem List.not_mem_nil
  · exact fun _ hmem => absurd hmem List.not_mem_nil

/-- Where no claim of the group happens, the account goes on. -/
theorem Accounted.keep {n : ℕ} (h : Accounted tuning key start n flows)
    (hahead : ∀ ahead, Ahead key flows ahead → Ahead key flows' ahead)
    (hsize : (groupFlows key.serviceTier key.modelGroup flows).length ≤
      (groupFlows key.serviceTier key.modelGroup flows').length)
    (hmeasure : ∀ size,
      waitingMeasure tuning key size flows' ≤ waitingMeasure tuning key size flows) :
    Accounted tuning key start n flows' := by
  obtain ⟨hgrown, ahead, paid, hn, hbefore, hpaid⟩ := h
  refine ⟨hgrown.trans hsize, ahead, paid, hn, hahead ahead hbefore, fun size hfits => ?_⟩
  have hlower := hmeasure size
  have hbound := hpaid size (hsize.trans hfits)
  omega

theorem accounted_extends {n : ℕ} (h : Extends sha256 flows flows')
    (hkeys : (flows'.map SchedulerFlowRow.key).Nodup)
    (haccounted : Accounted tuning key start n flows) : Accounted tuning key start n flows' :=
  haccounted.keep (fun _ hahead => hahead.inPlace (h.inPlace hkeys)) ((h.inPlace hkeys).size _ _)
    fun _ => measure_extends h hkeys

theorem length_groupFlows_charge (tuning : FlowTuning) (flows : List SchedulerFlowRow)
    (serviceTier modelGroup : String) (now : Timestamp) (flowId : String)
    (quantumWorkUnits claimedWorkUnits : ℕ) :
    (groupFlows serviceTier modelGroup
      (chargeFlow tuning now flowId quantumWorkUnits claimedWorkUnits flows)).length =
        (groupFlows serviceTier modelGroup flows).length := by
  rw [length_groupFlows, length_groupFlows, charge_columns _ fun _ _ _ => rfl]

/-- The refills of another group. -/
theorem accounted_refills_elsewhere {n : ℕ} {serviceTier modelGroup : String}
    (haway : ¬InGroup serviceTier modelGroup key) (m : ℕ)
    (h : Accounted tuning key start n flows) :
    Accounted tuning key start n
      ((refillSchedulerFlowDeficits tuning serviceTier modelGroup)^[m] flows) := by
  have hplace := inPlace_refills tuning serviceTier modelGroup flows m
  refine h.keep (fun _ hahead => hahead.inPlace hplace) (hplace.size _ _) fun size => ?_
  clear hplace h
  induction m with
  | zero => exact le_rfl
  | succ m ih =>
      rw [Function.iterate_succ_apply', measure_refill_elsewhere haway]
      exact ih

/-- A decision of another group. -/
theorem Accounted.elsewhere {n : ℕ} (hbase : 1 ≤ tuning.baseQuantumWorkUnits)
    (hsound : FlowsSound sha256 tuning flows)
    (hpermitted : Permitted sha256 tuning flows (.decide d))
    (haway : ¬InGroup d.serviceTier d.modelGroup key)
    (h : Accounted tuning key start n flows) :
    Accounted tuning key start n (d.charged sha256 flows) := by
  have hsteps := hsound.decision hbase hpermitted
  obtain ⟨m, hm⟩ := hsteps.refills
  have hrefilled : Accounted tuning key start n (d.decided sha256 flows).flows := by
    rw [hm]
    exact accounted_refills_elsewhere haway m
      (accounted_extends hsteps.extended hsteps.refreshed.keys h)
  have hdecided : FlowsSound sha256 tuning (d.decided sha256 flows).flows := by
    rw [hm]
    exact hsteps.refreshed.refills _ _ m
  cases houtcome : (d.decided sha256 flows).outcome with
  | noWork reason =>
      rw [hsteps.ended reason houtcome]
      exact hrefilled
  | claimed tried claim =>
      obtain ⟨row, hrow, hgroup, -, hcharged⟩ := hsteps.claimed tried claim houtcome
      rw [hcharged]
      have hother : row.key ≠ key := fun hsame => haway (hsame ▸ hgroup)
      refine hrefilled.keep (fun ahead hahead => ?_) ?_ fun size => ?_
      · refine hahead.charge hdecided hrow hother fun hmem => ?_
        -- what is ahead is of the group of the flow
        obtain ⟨htier, hmodel⟩ := hahead.group _ hmem
        obtain ⟨htier', hmodel'⟩ := hgroup
        exact absurd ⟨htier.symm.trans htier', hmodel.symm.trans hmodel'⟩ haway
      · rw [length_groupFlows_charge]
      · exact (measure_charge hdecided hrow hother size _ _ _).1

/-- What a claim of a decision that passes the flow over says about the flow claimed from, where
the decision leaves the flows before the charge. -/
structure ClaimedAhead (tuning : FlowTuning) (key : FlowKey) (flows : List SchedulerFlowRow)
    (row : SchedulerFlowRow) : Prop where
  stored : row ∈ flows
  group : InGroup key.serviceTier key.modelGroup row.key
  other : row.key ≠ key
  entitled : 1 ≤ row.deficitWorkUnits ∨ lastSelected flows row.key ≤ lastSelected flows key

theorem Accounted.charge {n : ℕ} {row : SchedulerFlowRow} {now : Timestamp} {claimedWorkUnits : ℕ}
    (hsound : FlowsSound sha256 tuning flows) (hclaimed : ClaimedAhead tuning key flows row)
    (hnow : lastSelected flows key < now) (h : Accounted tuning key start n flows) :
    Accounted tuning key start (n + 1)
      (chargeFlow tuning now row.flowId (max 1 row.quantumWorkUnits) claimedWorkUnits flows) := by
  obtain ⟨hrow, hgroup, hother, hentitled⟩ := hclaimed
  obtain ⟨hgrown, ahead, paid, rfl, hahead, hpaid⟩ := h
  rw [← length_groupFlows_charge tuning flows key.serviceTier key.modelGroup now row.flowId
    (max 1 row.quantumWorkUnits) claimedWorkUnits] at hgrown
  by_cases hpays : 1 ≤ row.deficitWorkUnits
  · -- the deficit pays for the claim
    refine ⟨hgrown, ahead, paid + 1, by omega, hahead.charge hsound hrow hother fun _ => hnow, ?_⟩
    intro size hsize
    rw [length_groupFlows_charge] at hsize
    have hbound := hpaid size hsize
    have hlower := (measure_charge hsound hrow hother size now (max 1 row.quantumWorkUnits)
      claimedWorkUnits).2 hpays hgroup
    omega
  · have horder : lastSelected flows row.key ≤ lastSelected flows key := by
      rcases hentitled with hdeficit | horder
      · exact absurd hdeficit hpays
      · exact horder
    have hbehind : row.key ∉ ahead := fun hmem => absurd (hahead.later _ hmem) (not_lt.mpr horder)
    refine ⟨hgrown, row.key :: ahead, paid, by simp only [List.length_cons]; omega,
      hahead.overtaken hsound hrow hother hgroup hnow hbehind, ?_⟩
    intro size hsize
    rw [length_groupFlows_charge] at hsize
    have hbound := hpaid size hsize
    have hlower := (measure_charge hsound hrow hother size now (max 1 row.quantumWorkUnits)
      claimedWorkUnits).1
    omega

/-- A decision of the group that passes the flow over. -/
theorem Accounted.passedOver {n : ℕ} (hbase : 1 ≤ tuning.baseQuantumWorkUnits)
    (hsound : FlowsSound sha256 tuning flows)
    (hpermitted : Permitted sha256 tuning flows (.decide d))
    (hgroup : InGroup d.serviceTier d.modelGroup key)
    (hpassed : PassedOver sha256 Payable d flows key)
    (horder : InOrder d flows) (h : Accounted tuning key start n flows) :
    Accounted tuning key start (n + d.claims sha256 flows) (d.charged sha256 flows) := by
  have hsteps := hsound.decision hbase hpermitted
  have htuning : d.config.tuning = tuning := (hpermitted.2 d rfl).tuning
  subst htuning
  obtain ⟨htier, hmodel⟩ := hgroup
  obtain ⟨m, hm⟩ := hsteps.refills
  have hplace : InPlace (d.refreshed sha256 flows) (d.decided sha256 flows).flows := by
    rw [hm]
    exact inPlace_refills ..
  have hdecided : FlowsSound sha256 d.config.tuning (d.decided sha256 flows).flows := by
    rw [hm]
    exact hsteps.refreshed.refills _ _ m
  obtain ⟨flow, hscanned, hkey, hfits, hpays, htried⟩ := hpassed
  have heligible : Eligible d.config (d.records sha256 flows) flow := ⟨hscanned, hfits, hpays⟩
  obtain ⟨own, hown, -, oldest, nextUnits, hflow⟩ :=
    hsteps.mirrors flow (mem_of_mem_scannedFlows hscanned).1
  have hmirrors := hsteps.mirrors
  have hrounds := decided_rounds sha256 d flows
  rw [← htier, ← hmodel] at hrounds hmirrors
  have hwaiting := fun size hsize => hrounds.waiting size hsteps.refreshed.bounded
    hsteps.refreshed.keys hsize hmirrors heligible hkey List.not_mem_nil htried
  have hrefreshed := accounted_extends hsteps.extended hsteps.refreshed.keys h
  have hrefilled : Accounted d.config.tuning key start n (d.decided sha256 flows).flows := by
    obtain ⟨hgrown, ahead, paid, hn, hahead, hpaid⟩ := hrefreshed
    have hsizes := hplace.size key.serviceTier key.modelGroup
    refine ⟨hgrown.trans hsizes, ahead, paid, hn, hahead.inPlace hplace, fun size hsize => ?_⟩
    have hbound := hpaid size (hsizes.trans hsize)
    have hlower : _ ≤ waitingMeasure d.config.tuning key size (d.refreshed sha256 flows) :=
      (hwaiting size (hsizes.trans hsize)).1
    omega
  cases houtcome : (d.decided sha256 flows).outcome with
  | noWork reason =>
      rw [GroupDecision.claims, houtcome, hsteps.ended reason houtcome]
      exact hrefilled
  | claimed tried claim =>
      obtain ⟨row, hrow, hrowGroup, ⟨oldest', nextUnits', hclaimedFlow⟩, hcharged⟩ :=
        hsteps.claimed tried claim houtcome
      rw [GroupDecision.claims, houtcome, hcharged]
      have hselected : lastSelected (d.decided sha256 flows).flows key =
          flow.lastSelectedAt.getD 0 := by
        rw [hplace.selected, ← hkey, hflow]
        exact lastSelected_of_mem hsteps.refreshed.keys hown
      have hother : row.key ≠ key := by
        intro hsame
        have hid := htried tried (hrounds.claimed_mem houtcome)
        rw [hclaimedFlow, hflow] at hid
        apply hid
        change row.flowId = own.flowId
        have hownKey : own.key = key := by
          rw [← hkey, hflow]
          rfl
        rw [hdecided.ids row hrow, hsteps.refreshed.ids own hown, hsame, hownKey]
      refine hrefilled.charge hdecided ⟨hrow, ?_, hother, ?_⟩ ?_
      · rw [htier, hmodel]
        exact hrowGroup
      · have hentitled := (hwaiting _ le_rfl).2 tried claim houtcome
        rw [← hselected, hclaimedFlow] at hentitled
        rcases hentitled with hdeficit | horder
        · exact Or.inl hdeficit
        · right
          rw [lastSelected_of_mem hdecided.keys hrow]
          exact horder
      · rw [hplace.selected, (hsteps.extended.inPlace hsteps.refreshed.keys).selected, lastSelected]
        cases hfound : rowWithKey SchedulerFlowRow.key key flows with
        | none => exact horder.1
        | some stored =>
            obtain ⟨hstored, hstoredKey⟩ := rowWithKey_some hfound
            exact horder.2 stored hstored (hstoredKey ▸ ⟨htier, hmodel⟩)

theorem Waiting.accounted {n : ℕ} (hbase : 1 ≤ tuning.baseQuantumWorkUnits)
    (hsound : FlowsSound sha256 tuning start)
    (h : Waiting sha256 tuning Payable key start n flows) :
    FlowsSound sha256 tuning flows ∧ Accounted tuning key start n flows := by
  induction h with
  | start => exact ⟨hsound, accounted_start⟩
  | @elsewhere n flows e hrun hpermitted haway ih =>
      obtain ⟨hsound, haccounted⟩ := ih
      have hnext := hsound.next hbase hpermitted
      refine ⟨hnext, ?_⟩
      cases e with
      | upsertForJob job =>
          exact accounted_extends (extends_upsertForJob hbase hsound.bounded job) hnext.keys
            haccounted
      | refresh serviceTier modelGroup aggregates =>
          exact accounted_extends (extends_refresh hbase hsound.bounded _ _ _) hnext.keys haccounted
      | decide d => exact haccounted.elsewhere hbase hsound hpermitted (haway d rfl)
  | passedOver hrun hpermitted hgroup hpassed horder ih =>
      obtain ⟨hsound, haccounted⟩ := ih
      exact ⟨hsound.next hbase hpermitted,
        haccounted.passedOver hbase hsound hpermitted hgroup hpassed horder⟩

theorem waitingMeasure_le (h : ∀ row ∈ flows, Bounded tuning row) {size : ℕ}
    (hsize : (groupFlows key.serviceTier key.modelGroup flows).length ≤ size) :
    waitingMeasure tuning key size flows ≤ size * largestDeficit tuning +
      2 * tuning.boundedMaxDeficitMultiplier * (size * largestDeficit tuning + 1) := by
  have hleft : refillsLeft tuning (rowWithKey SchedulerFlowRow.key key flows) ≤
      2 * tuning.boundedMaxDeficitMultiplier := by
    cases hfound : rowWithKey SchedulerFlowRow.key key flows with
    | none =>
        simp only [refillsLeft]
        omega
    | some row => exact refillsLeft_le (h row (rowWithKey_some hfound).1)
  have hproduct := Nat.mul_le_mul_right (size * largestDeficit tuning + 1) hleft
  have hspendable := spendable_le key.serviceTier key.modelGroup h
  have hlargest := Nat.mul_le_mul_right (largestDeficit tuning) hsize
  rw [waitingMeasure]
  omega

end Bound

/-- A flow that every decision of its group could select waits for a bounded number of claims. -/
theorem waits_bounded (sha256 : String → String) (tuning : FlowTuning) (key : FlowKey)
    (start flows : List SchedulerFlowRow) (n : ℕ) (hbase : 1 ≤ tuning.baseQuantumWorkUnits)
    (hstart : Reachable (schedulerSystem sha256 tuning) start)
    (hwaiting : Waiting sha256 tuning Payable key start n flows) :
    n ≤ waitingBound tuning (groupFlows key.serviceTier key.modelGroup flows).length := by
  have hsound := sound_of_reachable hbase hstart
  obtain ⟨-, hgrown, ahead, paid, hn, hahead, hpaid⟩ := hwaiting.accounted hbase hsound
  have hlength := hahead.length_le
  have hbound := hpaid _ le_rfl
  have hmeasure := waitingMeasure_le hsound.bounded hgrown
  rw [waitingBound]
  omega

/-! ## The transaction -/

section Transaction

variable {sha256 : String → String} {config : FairShareConfig} {serviceTier modelGroup : String}
  {snapshotAt now : Timestamp} {tables db : SchedulerDatabase}

/-- The snapshots of a transaction; the candidates were read before it from other tables. -/
def snapshotAggregates (sha256 : String → String) (config : FairShareConfig)
    (serviceTier modelGroup : String) (snapshotAt now : Timestamp) (tables db : SchedulerDatabase) :
    List FlowAggregate :=
  mergeSchedulerFlowSnapshots
    (candidateAggregates config sha256 serviceTier modelGroup snapshotAt tables.jobs tables.items)
    (inFlightAggregates (inFlightFlowKey sha256 serviceTier modelGroup now db.jobs) db.items)

/-- The decision of `claim_next_fair_share_work`. -/
def transactionDecision (sha256 : String → String) (config : FairShareConfig)
    (serviceTier modelGroup : String) (snapshotAt now : Timestamp) (tables db : SchedulerDatabase)
    (workerId : String) (locks : BatchWorkClaim.RowLocks) : GroupDecision where
  config := config
  serviceTier := serviceTier
  modelGroup := modelGroup
  aggregates := snapshotAggregates sha256 config serviceTier modelGroup snapshotAt now tables db
  attempt := claimSelectedFlow config workerId now locks
    (repairedJobs sha256 serviceTier modelGroup snapshotAt now db) db.items
  now := now

/-- What the transaction leaves in the flow table. -/
theorem transaction_flows (workerId : String) (locks : BatchWorkClaim.RowLocks) :
    (fairShareTransaction sha256 config serviceTier modelGroup snapshotAt now db workerId
        locks).database.flows =
      (transactionDecision sha256 config serviceTier modelGroup snapshotAt now db db workerId
        locks).charged sha256 db.flows := by
  simp only [fairShareTransaction]
  unfold GroupDecision.charged
  split
  · next reason houtcome =>
      have hsame : ((transactionDecision sha256 config serviceTier modelGroup snapshotAt now db db
        workerId locks).decided sha256 db.flows).outcome = .noWork reason := houtcome
      rw [hsame]
      rfl
  · next tried claim houtcome =>
      have hsame : ((transactionDecision sha256 config serviceTier modelGroup snapshotAt now db db
        workerId locks).decided sha256 db.flows).outcome = .claimed tried claim := houtcome
      rw [hsame]
      rfl

/-- The key of an aggregate is normalized from columns of the group. -/
theorem snapshotAggregates_key {aggregate : FlowAggregate} (h : aggregate ∈
      snapshotAggregates sha256 config serviceTier modelGroup snapshotAt now tables db) :
    ∃ raw : FlowKey, aggregate.key = normalizeFlowKey sha256 raw ∧
      raw.serviceTier = serviceTier ∧ raw.modelGroup = modelGroup := by
  rw [snapshotAggregates, mergeSchedulerFlowSnapshots, List.mem_insertionSort,
    List.mem_append] at h
  rcases h with hmerged | halone
  · obtain ⟨candidate, hcandidate, rfl⟩ := List.mem_map.mp hmerged
    obtain ⟨key, hkey, rfl⟩ := List.mem_map.mp hcandidate
    obtain ⟨job, hjob, rfl⟩ := List.mem_map.mp (List.mem_dedup.mp hkey)
    obtain ⟨stored, hstored, rfl⟩ := List.mem_map.mp hjob
    have hbase := (of_decide_eq_true (List.mem_filter.mp hstored).2).1
    refine ⟨_, rfl, hbase.2.2.2.2.2, ?_⟩
    simp [rawJobKey, rawFlowKey, hbase.2.1]
  · obtain ⟨key, hkey, rfl⟩ := List.mem_map.mp (List.mem_filter.mp halone).1
    obtain ⟨item, _, hitem⟩ := List.mem_filterMap.mp (List.mem_dedup.mp hkey)
    obtain ⟨job, _, hjob⟩ := Option.bind_eq_some_iff.mp hitem
    rw [Option.ite_none_right_eq_some, Option.some.injEq] at hjob
    exact ⟨_, hjob.2.symm, hjob.1.2.2, rfl⟩

/-- Snapshots read flows of the group, whenever the candidates were read. -/
theorem transaction_snapshot (hnormal : NormalizedGroup serviceTier modelGroup) (workerId : String)
    (locks : BatchWorkClaim.RowLocks) :
    GroupSnapshot config.tuning (transactionDecision sha256 config serviceTier modelGroup snapshotAt
      now tables db workerId locks) where
  tuning := rfl
  group := by
    intro aggregate haggregate
    obtain ⟨raw, hraw, htier, hgroup⟩ := snapshotAggregates_key haggregate
    rw [hraw]
    refine ⟨?_, ?_⟩
    · rw [normalizeFlowKey, htier]
      exact hnormal.tier
    · rw [normalizeFlowKey, hgroup]
      exact hnormal.group

end Transaction

/-! Two tenants with a job each: the older job is claimed first. -/

open FairShareProgress (allFlowScans twoTenants) in
def firstDecision : GroupDecision :=
  transactionDecision teamDigests allFlowScans "standard" "m" 5 5 twoTenants twoTenants "worker"
    BatchWorkClaim.RowLocks.free

def teamB : FlowKey := ⟨"standard", "m", "team", "b"⟩

/-- The other tenant as the decision holds it. -/
def teamBFlow : BatchSchedulerFlowRecord :=
  flowFromRow (some 2) 20
    (({} : FlowTuning).insertedRow teamDigests teamB true 1 20 0)

theorem firstDecision_passes_over : PassedOver teamDigests Payable firstDecision [] teamB := by
  refine ⟨teamBFlow, by decide +kernel, rfl, by decide +kernel, ?_, by decide +kernel⟩
  unfold Payable
  decide +kernel

theorem firstDecision_permitted : Permitted teamDigests {} [] (.decide firstDecision) := by
  have hnormal : NormalizedGroup "standard" "m" := ⟨by decide +kernel, by decide +kernel⟩
  have hsnapshot : GroupSnapshot FairShareProgress.allFlowScans.tuning firstDecision :=
    transaction_snapshot hnormal _ _
  refine ⟨by decide +kernel, fun d hd => ?_⟩
  obtain rfl : firstDecision = d := FlowEvent.decide.inj hd
  exact hsnapshot

def claimedFlows : List SchedulerFlowRow := nextFlows teamDigests {} [] (.decide firstDecision)

theorem waits_bounded_for_one_claim :
    firstDecision.claims teamDigests [] = 1 ∧
      0 + firstDecision.claims teamDigests [] ≤
        waitingBound {} (groupFlows "standard" "m" claimedFlows).length := by
  have hstart : Reachable (schedulerSystem teamDigests {}) [] := by
    refine .initial ⟨List.nodup_nil, fun row hrow => ?_⟩
    cases hrow
  have hwaiting : Waiting teamDigests {} Payable teamB [] (0 + firstDecision.claims teamDigests [])
      claimedFlows := by
    refine Waiting.start.passedOver firstDecision_permitted ⟨rfl, rfl⟩ firstDecision_passes_over ?_
    exact ⟨by decide, fun row hrow => by cases hrow⟩
  exact ⟨by decide +kernel, waits_bounded teamDigests {} teamB [] claimedFlows _ (by decide) hstart
    hwaiting⟩

end WaitingRuns
