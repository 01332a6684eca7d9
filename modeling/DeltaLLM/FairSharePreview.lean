import DeltaLLM.FairShareClaim

/-! # The fair-share preview

The shadow recommendation rebuilds the flows in memory from the stored rows and a full snapshot,
and repeats the selection without writing. It agrees with the claim when it rebuilds the records
that the refresh would have stored.
-/
namespace FairSharePreview

open BatchRecords
open BatchWorkClaim (RowLocks effectiveModelGroup InFlight effectiveServiceTier)
open FairShareClaim
open FlowSelection
open FlowSnapshots
open PythonText (strip strip_strip)
open SchedulerFlows
open TableStatements

/-- The order of `list_scheduler_flows`. -/
def listOrder (a b : SchedulerFlowRow) : Prop :=
  let idleA := !a.active
  let idleB := !b.active
  let selectedA := a.lastSelectedAt.elim 0 (· + 1)
  let selectedB := b.lastSelectedAt.elim 0 (· + 1)
  idleA < idleB ∨ (idleA = idleB ∧ (selectedA < selectedB ∨ (selectedA = selectedB ∧
    (a.key.tenantScopeType < b.key.tenantScopeType ∨
      (a.key.tenantScopeType = b.key.tenantScopeType ∧
        a.key.tenantScopeId ≤ b.key.tenantScopeId)))))

instance : DecidableRel listOrder := by
  intro a b
  unfold listOrder
  exact inferInstance

/-- `list_scheduler_flows` of one service tier and model group. -/
def listSchedulerFlows (serviceTier modelGroup : String) (flows : List SchedulerFlowRow) :
    List BatchSchedulerFlowRecord :=
  (selectFirst (fun row => InGroup serviceTier modelGroup row.key) listOrder flows.length
    flows).map (flowFromRow none 1)

/-- The key of a stored flow in `existing_by_key`. -/
def existingKey (sha256 : String → String) (key : FlowKey) : FlowKey :=
  let scope := normalizeSchedulerTenantScope sha256 key.tenantScopeType key.tenantScopeId
  ⟨key.serviceTier, key.modelGroup, scope.1, scope.2⟩

/-- `existing_by_key.get(key)`: a flow stored under the normalized scope replaces one stored under
a raw scope. -/
def existingByKey (sha256 : String → String) (key : FlowKey)
    (flows : List BatchSchedulerFlowRecord) : Option BatchSchedulerFlowRecord :=
  flows.foldl (fun found flow =>
    if existingKey sha256 flow.key = key ∧
        (found = none ∨ flow.key.tenantScopeId = key.tenantScopeId) then some flow
    else found) none

/-- `_preview_flow_from_refresh_aggregate`. -/
def previewFlow (sha256 : String → String) (tuning : FlowTuning) (aggregate : FlowAggregate)
    (existing : Option BatchSchedulerFlowRecord) : BatchSchedulerFlowRecord :=
  let weight := existing.elim defaultFlowWeight fun flow => max 1 flow.weight
  let quantum := quantumForWeight tuning.baseQuantumWorkUnits weight
  { flowId := existing.elim (buildFlowId sha256 aggregate.key) fun flow =>
      if flow.flowId = "" then buildFlowId sha256 aggregate.key else flow.flowId
    key := aggregate.key
    weight := weight
    quantumWorkUnits := quantum
    deficitWorkUnits := min (max 0 (existing.elim 0 BatchSchedulerFlowRecord.deficitWorkUnits))
      (maxDeficitForFlow quantum tuning.maxDeficitMultiplier)
    active := decide (0 < aggregate.queuedJobs)
    queuedJobs := aggregate.queuedJobs
    queuedWorkUnits := aggregate.queuedWorkUnits
    inFlightWorkUnits := aggregate.inFlightWorkUnits
    lastSelectedAt := existing.bind BatchSchedulerFlowRecord.lastSelectedAt
    oldestQueueEnteredAt := aggregate.oldestQueueEnteredAt
    nextItemWorkUnits := aggregate.nextItemWorkUnits }

section Preview

variable (sha256 : String → String) (config : FairShareConfig) (serviceTier modelGroup : String)
  (now : Timestamp) (db : SchedulerDatabase)

/-- The full snapshot, which reads the work in flight in the same statement. -/
def previewAggregates : List FlowAggregate :=
  mergeSchedulerFlowSnapshots
    (candidateAggregates config sha256 serviceTier modelGroup now db.jobs db.items)
    (inFlightAggregates (fullInFlightFlowKey sha256 serviceTier modelGroup now db.jobs) db.items)

/-- `preview_scheduler_flows`. -/
def previewSchedulerFlows : List BatchSchedulerFlowRecord :=
  (previewAggregates sha256 config serviceTier modelGroup now db).map fun aggregate =>
    previewFlow sha256 config.tuning aggregate
      (existingByKey sha256 aggregate.key (listSchedulerFlows serviceTier modelGroup db.flows))

end Preview

/-- The rounds of `recommend_next_fair_share_flow`. -/
def recommendRounds (config : FairShareConfig) :
    ℕ → List BatchSchedulerFlowRecord → Except NoWorkReason BatchSchedulerFlowRecord
  | 0, records =>
      let selection := selectSchedulerFlow config true [] records
      match selection.selected with
      | some flow => .ok flow
      | none => .error ((terminalEmptyResult selection).getD .noActiveFlow)
  | n + 1, records =>
      let selection := selectSchedulerFlow config false [] records
      match selection.selected with
      | some flow => .ok flow
      | none =>
          match terminalEmptyResult selection with
          | some reason => .error reason
          | none =>
              recommendRounds config n (simulateSchedulerFlowDeficitRefill config.tuning records)

/-- `recommend_next_fair_share_flow`, none for a missing model group. -/
def recommendNextFairShareFlow (sha256 : String → String) (config : FairShareConfig)
    (serviceTier modelGroup : String) (now : Timestamp) (db : SchedulerDatabase) :
    Option (Except NoWorkReason BatchSchedulerFlowRecord) :=
  if strip modelGroup = "" then none
  else
    some (recommendRounds config (max 1 config.tuning.maxDeficitMultiplier)
      (previewSchedulerFlows sha256 config (normalizeFlowPart serviceTier "standard")
        (strip modelGroup) now db))

/-- What both paths say about the flow they select. -/
structure FlowDecision where
  serviceTier : String
  tenantScopeType : String
  tenantScopeId : String
  deficitBefore : ℤ
  deficitAfter : ℤ
  deriving DecidableEq

/-- The decision for a selected flow, given the records before any refill. -/
def flowDecision (records : List BatchSchedulerFlowRecord) (flow : BatchSchedulerFlowRecord) :
    FlowDecision :=
  { serviceTier := flow.key.serviceTier
    tenantScopeType := flow.key.tenantScopeType
    tenantScopeId := flow.key.tenantScopeId
    deficitBefore := (rowWithKey BatchSchedulerFlowRecord.key flow.key records).elim
      flow.deficitWorkUnits BatchSchedulerFlowRecord.deficitWorkUnits
    deficitAfter := flow.deficitWorkUnits }

section Decisions

variable (sha256 : String → String) (config : FairShareConfig)
  (workerId serviceTier modelGroup : String) (now : Timestamp) (locks : RowLocks)
  (db : SchedulerDatabase)

/-- The flow that the claim selects first. -/
def activeDecision : Option FlowDecision :=
  (claimNextFairShareWork sha256 config workerId serviceTier modelGroup now now locks
    db).attempts.head?.map fun attempt =>
      flowDecision (decisionRecords sha256 config (normalizeFlowPart serviceTier "standard")
        (strip modelGroup) now now db) attempt.flow

/-- The flow that the preview recommends. -/
def shadowDecision : Option FlowDecision :=
  (recommendNextFairShareFlow sha256 config serviceTier modelGroup now db).bind fun result =>
    result.toOption.map (flowDecision (previewSchedulerFlows sha256 config
      (normalizeFlowPart serviceTier "standard") (strip modelGroup) now db))

end Decisions

section Rounds

variable {γ : Type*} {config : FairShareConfig} {serviceTier modelGroup : String}
  {attempt : FlowAttempt → Option γ}

/-- While a flow is active, the SQL refill reaches a stored flow. -/
def RefillReaches (serviceTier modelGroup : String) (state : DecisionState) : Prop :=
  activeFlows state.records ≠ [] → ∃ row ∈ state.flows, Refillable serviceTier modelGroup row

theorem RefillReaches.refill {state : DecisionState}
    (hreaches : ∃ row ∈ state.flows, Refillable serviceTier modelGroup row) :
    RefillReaches serviceTier modelGroup (state.refill config serviceTier modelGroup) := by
  intro _
  obtain ⟨row, hrow, hrefillable⟩ := hreaches
  refine ⟨refillRow config.tuning row, ?_, hrefillable⟩
  exact (mem_updateWhere _ _).mpr ⟨row, hrow, by rw [if_pos hrefillable]⟩

/-- Both paths select the same flow first: the induction is over the rounds. -/
theorem rounds_agree (config : FairShareConfig) (attempt : FlowAttempt → Option γ) (n : ℕ) :
    ∀ {state : DecisionState}, state.emptyFlowIds = [] →
    RefillReaches serviceTier modelGroup state →
      (fairShareRounds config serviceTier modelGroup attempt n state).attempts.head?.map
          FlowAttempt.flow = (recommendRounds config n state.records).toOption := by
  induction n with
  | zero =>
      intro state hempty _
      rw [fairShareRounds, bypassRound, recommendRounds, hempty]
      cases hselected : (selectSchedulerFlow config true [] state.records).selected with
      | none => rfl
      | some flow =>
          simp only
          split <;> rfl
  | succ n ih =>
      intro state hempty hreaches
      rw [fairShareRounds, recommendRounds, hempty]
      cases hselected : (selectSchedulerFlow config false [] state.records).selected with
      | some flow =>
          simp only
          split <;> rfl
      | none =>
          simp only
          cases hterminal : terminalEmptyResult (selectSchedulerFlow config false [] state.records)
            with
          | some reason => rfl
          | none =>
              have hactive : activeFlows state.records ≠ [] := by
                intro hnone
                simp [terminalEmptyResult, selectSchedulerFlow, hnone] at hterminal
              have hrow := hreaches hactive
              have hnext := @ih (state.refill config serviceTier modelGroup) hempty
                (RefillReaches.refill hrow)
              have hrecords : (state.refill config serviceTier modelGroup).records =
                  simulateSchedulerFlowDeficitRefill config.tuning state.records := by
                simp only [DecisionState.refill, if_pos hrow]
              rw [hrecords] at hnext
              exact hnext

/-- A recommended flow is a previewed one, after some refills. -/
theorem recommended_refilledFrom (n : ℕ) :
    ∀ {records : List BatchSchedulerFlowRecord} {flow : BatchSchedulerFlowRecord},
      recommendRounds config n records = .ok flow → RefilledFrom records flow := by
  induction n with
  | zero =>
      intro records flow h
      rw [recommendRounds] at h
      cases hselected : (selectSchedulerFlow config true [] records).selected with
      | none => simp [hselected] at h
      | some selected =>
          simp only [hselected, Except.ok.injEq] at h
          subst h
          exact refilledFrom_of_mem (mem_of_mem_scannedFlows (selected_mem hselected).1).1
  | succ n ih =>
      intro records flow h
      rw [recommendRounds] at h
      cases hselected : (selectSchedulerFlow config false [] records).selected with
      | some selected =>
          simp only [hselected, Except.ok.injEq] at h
          subst h
          exact refilledFrom_of_mem (mem_of_mem_scannedFlows (selected_mem hselected).1).1
      | none =>
          simp only [hselected] at h
          split at h
          · cases h
          · obtain ⟨refilled, hrefilled, deficit, rfl⟩ := ih h
            obtain ⟨record, hrecord, rfl⟩ := List.mem_map.mp hrefilled
            obtain ⟨_, heq⟩ := simulatedRefill_eq config.tuning record
            exact ⟨record, hrecord, deficit, by rw [heq]⟩

end Rounds

section Existing

variable {sha256 : String → String} {key : FlowKey}

theorem existingByKey_of_none {flows : List BatchSchedulerFlowRecord} :
    ∀ {found : Option BatchSchedulerFlowRecord},
      (∀ flow ∈ flows, existingKey sha256 flow.key ≠ key) →
        flows.foldl (fun found flow =>
          if existingKey sha256 flow.key = key ∧
              (found = none ∨ flow.key.tenantScopeId = key.tenantScopeId) then some flow
          else found) found = found := by
  induction flows with
  | nil =>
      intro found _
      rfl
  | cons flow flows ih =>
      intro found h
      rw [List.foldl_cons, if_neg fun hmatch => h flow List.mem_cons_self hmatch.1]
      exact ih fun other hother => h other (List.mem_cons_of_mem _ hother)

/-- With distinct keys, and only exact ones, the lookup finds the flow stored under the key. -/
theorem existingByKey_eq {flows : List BatchSchedulerFlowRecord}
    (hnodup : (flows.map BatchSchedulerFlowRecord.key).Nodup)
    (hexact : ∀ flow ∈ flows, existingKey sha256 flow.key = key ↔ flow.key = key) :
    existingByKey sha256 key flows = rowWithKey BatchSchedulerFlowRecord.key key flows := by
  induction flows with
  | nil => rfl
  | cons flow flows ih =>
      rw [List.map_cons, List.nodup_cons] at hnodup
      have htail := fun other hother => hexact other (List.mem_cons_of_mem flow hother)
      rw [existingByKey, List.foldl_cons]
      by_cases hkey : flow.key = key
      · have hothers : ∀ other ∈ flows, existingKey sha256 other.key ≠ key := by
          intro other hother hsame
          have hsameKey := ((htail other hother).mp hsame).trans hkey.symm
          exact hnodup.1 (hsameKey ▸ List.mem_map_of_mem hother)
        rw [if_pos ⟨(hexact flow List.mem_cons_self).mpr hkey, Or.inl rfl⟩,
          existingByKey_of_none hothers]
        simp [rowWithKey, hkey]
      · rw [if_neg fun hmatch => hkey ((hexact flow List.mem_cons_self).mp hmatch.1)]
        have hskip : rowWithKey BatchSchedulerFlowRecord.key key (flow :: flows) =
            rowWithKey BatchSchedulerFlowRecord.key key flows := by
          simp [rowWithKey, hkey]
        rw [hskip]
        exact ih hnodup.2 htail

/-- The listed flows hold the stored rows of the group. -/
theorem rowWithKey_listSchedulerFlows {serviceTier modelGroup : String}
    {flows : List SchedulerFlowRow} (hnodup : (flows.map SchedulerFlowRow.key).Nodup)
    (hgroup : InGroup serviceTier modelGroup key) :
    rowWithKey BatchSchedulerFlowRecord.key key (listSchedulerFlows serviceTier modelGroup flows) =
      (rowWithKey SchedulerFlowRow.key key flows).map (flowFromRow none 1) := by
  have hlisted : ∀ row, row ∈ selectFirst (fun row => InGroup serviceTier modelGroup row.key)
      listOrder flows.length flows ↔ row ∈ flows ∧ InGroup serviceTier modelGroup row.key := by
    intro row
    rw [selectFirst, List.take_of_length_le, List.mem_insertionSort, List.mem_filter]
    · simp
    · rw [List.length_insertionSort]
      exact List.length_filter_le _ _
  have hlookup : rowWithKey SchedulerFlowRow.key key
      (selectFirst (fun row => InGroup serviceTier modelGroup row.key) listOrder flows.length
        flows) = rowWithKey SchedulerFlowRow.key key flows := by
    cases hfound : rowWithKey SchedulerFlowRow.key key flows with
    | none =>
        rw [rowWithKey_eq_none] at hfound ⊢
        exact fun row hrow => hfound row ((hlisted row).mp hrow).1
    | some row =>
        obtain ⟨hrow, hkey⟩ := rowWithKey_some hfound
        have hmem := (hlisted row).mpr ⟨hrow, hkey ▸ hgroup⟩
        cases hagain : rowWithKey SchedulerFlowRow.key key (selectFirst
          (fun row => InGroup serviceTier modelGroup row.key) listOrder flows.length flows) with
        | none => exact absurd hkey (rowWithKey_eq_none.mp hagain row hmem)
        | some other =>
            obtain ⟨hother, hotherKey⟩ := rowWithKey_some hagain
            rw [List.inj_on_of_nodup_map hnodup ((hlisted other).mp hother).1 hrow
              (hotherKey.trans hkey.symm)]
  rw [listSchedulerFlows, rowWithKey, List.find?_map]
  exact congrArg (Option.map _) hlookup

theorem nodup_listSchedulerFlows {serviceTier modelGroup : String}
    {flows : List SchedulerFlowRow} (hnodup : (flows.map SchedulerFlowRow.key).Nodup) :
    ((listSchedulerFlows serviceTier modelGroup flows).map
      BatchSchedulerFlowRecord.key).Nodup := by
  have hkeys : (listSchedulerFlows serviceTier modelGroup flows).map
      BatchSchedulerFlowRecord.key = (selectFirst
        (fun row => InGroup serviceTier modelGroup row.key) listOrder flows.length flows).map
          SchedulerFlowRow.key := by
    rw [listSchedulerFlows, List.map_map]
    rfl
  rw [hkeys, selectFirst]
  refine ((List.take_sublist _ _).map _).nodup ?_
  refine ((List.perm_insertionSort _ _).map _).nodup_iff.mpr ?_
  exact (List.filter_sublist.map _).nodup hnodup

end Existing

section Keys

variable {sha256 : String → String}

theorem normalizeFlowPart_stripped (value : String) {default : String}
    (hdefault : strip default = default) :
    strip (normalizeFlowPart value default) = normalizeFlowPart value default := by
  rw [normalizeFlowPart]
  split
  · exact hdefault
  · exact strip_strip value

theorem normalizeFlowPart_ne_empty (value : String) {default : String} (hdefault : default ≠ "") :
    normalizeFlowPart value default ≠ "" := by
  rw [normalizeFlowPart]
  split
  · exact hdefault
  · next h => exact h

theorem normalizeFlowPart_of_stripped {value default : String} (hstrip : strip value = value)
    (hvalue : value ≠ "") : normalizeFlowPart value default = value := by
  rw [normalizeFlowPart, hstrip, if_neg hvalue]

/-- A stable scope id is one that the stable form leaves alone. -/
structure StableScope (scopeId : String) : Prop where
  stripped : strip scopeId = scopeId
  nonempty : scopeId ≠ ""
  start : PythonText.startsWith scopeId apiKeyTenantScopePrefix = true

theorem stableScope_apiKey (hdigest : SpaceFree sha256) {scopeId : String}
    (hstrip : strip scopeId = scopeId) (hnonempty : scopeId ≠ "") :
    StableScope (stableTenantScopeId sha256 "api_key" scopeId) := by
  by_cases hstart : PythonText.startsWith scopeId apiKeyTenantScopePrefix = true
  · rw [stableTenantScopeId, hstrip, if_neg hnonempty, strip_api_key, if_pos rfl, if_pos hstart]
    exact ⟨hstrip, hnonempty, hstart⟩
  · rw [Bool.not_eq_true] at hstart
    rw [stableTenantScopeId_raw sha256 hstrip hnonempty hstart]
    have hnew := startsWith_stableScope sha256 scopeId
    exact ⟨strip_stableScope hdigest scopeId, stableScope_ne_empty sha256 scopeId, hnew⟩

theorem StableScope.fixed {scopeId : String} (h : StableScope scopeId) :
    stableTenantScopeId sha256 "api_key" scopeId = scopeId := by
  rw [stableTenantScopeId, h.stripped, if_neg h.nonempty, strip_api_key, if_pos rfl,
    if_pos h.start]

/-- Normalizing a scope twice changes nothing. -/
theorem existingKey_normalizeFlowKey (hdigest : SpaceFree sha256) (raw : FlowKey) :
    existingKey sha256 (normalizeFlowKey sha256 raw) = normalizeFlowKey sha256 raw := by
  have hstrip : strip "anonymous" = "anonymous" := by decide +kernel
  have hne : "anonymous" ≠ "" := by decide
  have htypeStrip := normalizeFlowPart_stripped raw.tenantScopeType hstrip
  have htype := normalizeFlowPart_ne_empty raw.tenantScopeType hne
  have hidStrip := normalizeFlowPart_stripped raw.tenantScopeId hstrip
  have hid := normalizeFlowPart_ne_empty raw.tenantScopeId hne
  simp only [existingKey, normalizeFlowKey, normalizeSchedulerTenantScope,
    normalizeFlowPart_of_stripped htypeStrip htype]
  by_cases happi : normalizeFlowPart raw.tenantScopeType "anonymous" = "api_key"
  · have hstable := stableScope_apiKey hdigest hidStrip hid
    simp only [happi, if_true, normalizeFlowPart_of_stripped hstable.stripped hstable.nonempty,
      hstable.fixed]
  · simp only [happi, if_false, normalizeFlowPart_of_stripped hidStrip hid]

variable {config : FairShareConfig} {serviceTier modelGroup : String} {snapshotAt now : Timestamp}
  {db : SchedulerDatabase} {aggregate : FlowAggregate}

/-- The key of an aggregate is normalized from columns of the group. -/
theorem decisionAggregates_key
    (h : aggregate ∈ decisionAggregates sha256 config serviceTier modelGroup snapshotAt now db) :
    ∃ raw : FlowKey, aggregate.key = normalizeFlowKey sha256 raw ∧
      raw.serviceTier = serviceTier ∧ raw.modelGroup = modelGroup := by
  rw [decisionAggregates, mergeSchedulerFlowSnapshots, List.mem_insertionSort,
    List.mem_append] at h
  rcases h with hmerged | halone
  · obtain ⟨candidate, hcandidate, rfl⟩ := List.mem_map.mp hmerged
    obtain ⟨key, hkey, rfl⟩ := List.mem_map.mp hcandidate
    obtain ⟨job, hjob, rfl⟩ := List.mem_map.mp (List.mem_dedup.mp hkey)
    obtain ⟨stored, hstored, rfl⟩ := List.mem_map.mp hjob
    have hbase := (of_decide_eq_true (List.mem_filter.mp hstored).2).1
    refine ⟨_, rfl, hbase.2.2.2.2.2, ?_⟩
    simp [rawJobKey, rawFlowKey, hbase.2.1]
  · obtain ⟨key, hkey, rfl⟩ := List.mem_map.mp (List.mem_filter.mp halone).1
    obtain ⟨item, _, hitem⟩ := List.mem_filterMap.mp (List.mem_dedup.mp hkey)
    obtain ⟨job, _, hjob⟩ := Option.bind_eq_some_iff.mp hitem
    rw [Option.ite_none_right_eq_some, Option.some.injEq] at hjob
    exact ⟨_, hjob.2.symm, hjob.1.2.2, rfl⟩

theorem decisionAggregates_nextItem
    (h : aggregate ∈ decisionAggregates sha256 config serviceTier modelGroup snapshotAt now db) :
    1 ≤ aggregate.nextItemWorkUnits := by
  rw [decisionAggregates, mergeSchedulerFlowSnapshots, List.mem_insertionSort,
    List.mem_append] at h
  rcases h with hmerged | halone
  · obtain ⟨candidate, hcandidate, rfl⟩ := List.mem_map.mp hmerged
    obtain ⟨key, _, rfl⟩ := List.mem_map.mp hcandidate
    simp only [candidateAggregate]
    cases (nextFlowJob config snapshotAt _).bind fun job =>
        BatchWorkClaim.headItem snapshotAt job.batchId db.items with
    | none => exact le_rfl
    | some item => exact item.one_le_workUnits
  · obtain ⟨key, _, rfl⟩ := List.mem_map.mp (List.mem_filter.mp halone).1
    exact le_rfl

end Keys

section Agreement

variable {sha256 : String → String} {config : FairShareConfig} {serviceTier modelGroup : String}
  {now : Timestamp} {db : SchedulerDatabase}

/-- The stored rows and items from which the preview rebuilds the stored records. -/
structure PreviewFaithful (sha256 : String → String) (config : FairShareConfig)
    (serviceTier modelGroup : String) (now : Timestamp) (db : SchedulerDatabase) : Prop where
  base : 1 ≤ config.tuning.baseQuantumWorkUnits
  stored : ∀ row ∈ db.flows, InGroup serviceTier modelGroup row.key →
    ∀ aggregate ∈ decisionAggregates sha256 config serviceTier modelGroup now now db,
      existingKey sha256 row.key = aggregate.key →
        row.key = aggregate.key ∧ row.flowId = buildFlowId sha256 row.key ∧
          0 ≤ row.deficitWorkUnits
  inFlight : ∀ item ∈ db.items, ∀ job ∈ jobById item.batchId db.jobs, InFlight now item →
    effectiveServiceTier job = serviceTier →
      (effectiveModelGroup job item = some modelGroup ↔ job.schedulingModelGroup = some modelGroup)

theorem previewAggregates_eq (hgroup : strip modelGroup ≠ "")
    (h : PreviewFaithful sha256 config serviceTier modelGroup now db) :
    previewAggregates sha256 config serviceTier modelGroup now db =
      decisionAggregates sha256 config serviceTier modelGroup now now db := by
  have hkeys : ∀ item ∈ db.items,
    fullInFlightFlowKey sha256 serviceTier modelGroup now db.jobs item =
      inFlightFlowKey sha256 serviceTier modelGroup now db.jobs item := by
    intro item hitem
    rw [fullInFlightFlowKey, inFlightFlowKey]
    cases hjob : jobById item.batchId db.jobs with
    | none => rfl
    | some job =>
        have hagree := h.inFlight item hitem job hjob
        rw [Option.bind_some, Option.bind_some]
        by_cases hcounted : InFlight now item ∧ effectiveServiceTier job = serviceTier
        · have hiff := hagree hcounted.1 hcounted.2
          cases heffective : effectiveModelGroup job item with
          | none => simp
          | some group =>
              rw [heffective, Option.some.injEq] at hiff
              rw [Option.bind_some]
              by_cases hsame : group = modelGroup
              · subst hsame
                simp [hcounted.1, hcounted.2, hiff.mp rfl, hgroup]
              · have hjobGroup : ¬job.schedulingModelGroup = some modelGroup :=
                  fun hstored => hsame (hiff.mpr hstored)
                simp [hsame, hjobGroup]
        · have hnone : ∀ group, ¬(InFlight now item ∧ job.schedulingModelGroup = some modelGroup ∧
              effectiveServiceTier job = serviceTier ∧ strip group ≠ "") :=
            fun _ hall => hcounted ⟨hall.1, hall.2.2.1⟩
          have hnone' : ¬(InFlight now item ∧ effectiveModelGroup job item = some modelGroup ∧
              effectiveServiceTier job = serviceTier) := fun hall => hcounted ⟨hall.1, hall.2.2⟩
          rw [if_neg hnone']
          cases effectiveModelGroup job item with
          | none => rfl
          | some group => rw [Option.bind_some, if_neg (hnone group)]
  rw [previewAggregates, decisionAggregates, inFlightAggregates_congr hkeys]

/-- The preview rebuilds each record as the refresh would have stored it. -/
theorem previewFlow_eq {tuning : FlowTuning} (hbase : 1 ≤ tuning.baseQuantumWorkUnits)
    {aggregate : FlowAggregate} (hnext : 1 ≤ aggregate.nextItemWorkUnits)
    {existing : Option SchedulerFlowRow} (hexisting : ∀ row ∈ existing, row.key = aggregate.key ∧
      row.flowId = buildFlowId sha256 row.key ∧ 0 ≤ row.deficitWorkUnits) :
    previewFlow sha256 tuning aggregate (existing.map (flowFromRow none 1)) =
      flowFromRow aggregate.oldestQueueEnteredAt aggregate.nextItemWorkUnits
        (upsertedRow sha256 tuning aggregate existing) := by
  have hpositive := one_le_quantumForWeight tuning.baseQuantumWorkUnits
  cases existing with
  | none =>
      have hquantum := hpositive defaultFlowWeight
      have hcap : (0 : ℤ) ≤ maxDeficitForFlow (quantumForWeight tuning.baseQuantumWorkUnits
          defaultFlowWeight) tuning.maxDeficitMultiplier := Int.natCast_nonneg _
      simp only [previewFlow, Option.map_none, Option.elim_none, Option.bind_none, flowFromRow,
        upsertedRow, aggregateRow, FlowTuning.insertedRow, max_self, min_eq_left hcap,
        max_eq_right hquantum, max_eq_right hnext]
      rfl
  | some row =>
      obtain ⟨hkey, hid, hdeficit⟩ := hexisting row rfl
      have hquantum := hpositive row.weight
      have hweight : max 1 (max 1 row.weight) = max 1 row.weight :=
        max_eq_right (le_max_left _ _)
      have hconflict : tuning.conflictQuantum row.weight =
          quantumForWeight tuning.baseQuantumWorkUnits row.weight := conflictQuantum_eq hbase _
      have hsame : quantumForWeight tuning.baseQuantumWorkUnits (max 1 row.weight) =
          quantumForWeight tuning.baseQuantumWorkUnits row.weight := by
        rw [max_comm, quantumForWeight_max_one]
      have hflowId : row.flowId ≠ "" := by
        rw [hid]
        exact buildFlowId_ne_empty _
      have hcap : maxDeficitForFlow (quantumForWeight tuning.baseQuantumWorkUnits row.weight)
          tuning.maxDeficitMultiplier = quantumForWeight tuning.baseQuantumWorkUnits row.weight *
            tuning.boundedMaxDeficitMultiplier := by
        rw [maxDeficitForFlow, max_eq_right hquantum]
        rfl
      simp only [previewFlow, Option.map_some, Option.elim_some, Option.bind_some, flowFromRow,
        upsertedRow, refreshedRow, FlowTuning.clampRow, hconflict, hweight, hsame, hcap,
        if_neg hflowId, hkey, max_eq_right hquantum, max_eq_right hnext, max_eq_right hdeficit,
        max_comm row.weight 1]

/-- The normalized arguments of both paths. -/
structure NormalizedGroup (serviceTier modelGroup : String) : Prop where
  tier : normalizeFlowPart serviceTier "standard" = serviceTier
  group : strip modelGroup = modelGroup

theorem normalizedGroup (serviceTier modelGroup : String) :
    NormalizedGroup (normalizeFlowPart serviceTier "standard") (strip modelGroup) :=
  ⟨normalizeFlowPart_of_stripped (normalizeFlowPart_stripped serviceTier (by decide +kernel))
    (normalizeFlowPart_ne_empty serviceTier (by decide)), strip_strip modelGroup⟩

theorem decisionAggregates_inGroup (hnormal : NormalizedGroup serviceTier modelGroup)
    {aggregate : FlowAggregate} (h : aggregate ∈
      decisionAggregates sha256 config serviceTier modelGroup now now db) :
    InGroup serviceTier modelGroup aggregate.key := by
  obtain ⟨raw, hkey, htier, hgroup⟩ := decisionAggregates_key h
  rw [hkey]
  refine ⟨?_, ?_⟩
  · rw [normalizeFlowKey, htier]
    exact hnormal.tier
  · rw [normalizeFlowKey, hgroup]
    exact hnormal.group

theorem existingKey_aggregate (hdigest : SpaceFree sha256) {aggregate : FlowAggregate}
    (h : aggregate ∈ decisionAggregates sha256 config serviceTier modelGroup now now db) :
    existingKey sha256 aggregate.key = aggregate.key := by
  obtain ⟨raw, hkey, _⟩ := decisionAggregates_key h
  rw [hkey]
  exact existingKey_normalizeFlowKey hdigest raw

/-- What the condition says about the stored row of a snapshot flow. -/
theorem PreviewFaithful.storedRow (h : PreviewFaithful sha256 config serviceTier modelGroup now db)
    (hdigest : SpaceFree sha256) (hnormal : NormalizedGroup serviceTier modelGroup)
    {aggregate : FlowAggregate} (haggregate : aggregate ∈
      decisionAggregates sha256 config serviceTier modelGroup now now db) :
    ∀ row ∈ rowWithKey SchedulerFlowRow.key aggregate.key db.flows, row.key = aggregate.key ∧
      row.flowId = buildFlowId sha256 row.key ∧ 0 ≤ row.deficitWorkUnits := by
  intro row hrow
  obtain ⟨hmem, hkey⟩ := rowWithKey_some hrow
  have hgroup := decisionAggregates_inGroup hnormal haggregate
  have hexisting := existingKey_aggregate hdigest haggregate
  rw [← hkey] at hgroup
  exact h.stored row hmem hgroup aggregate haggregate (by rw [hkey]; exact hexisting)

theorem previewSchedulerFlows_eq (hdigest : SpaceFree sha256)
    (hnodup : (db.flows.map SchedulerFlowRow.key).Nodup)
    (hnormal : NormalizedGroup serviceTier modelGroup) (hgroup : modelGroup ≠ "")
    (h : PreviewFaithful sha256 config serviceTier modelGroup now db) :
    previewSchedulerFlows sha256 config serviceTier modelGroup now db =
      decisionRecords sha256 config serviceTier modelGroup now now db := by
  have hstrip : strip modelGroup ≠ "" := by
    rw [hnormal.group]
    exact hgroup
  rw [previewSchedulerFlows, previewAggregates_eq hstrip h, decisionRecords,
    refreshedRecords_eq (decisionAggregates_nodup ..)]
  refine List.map_congr_left fun aggregate haggregate => ?_
  have hinGroup := decisionAggregates_inGroup hnormal haggregate
  have hexact : ∀ flow ∈ listSchedulerFlows serviceTier modelGroup db.flows,
      existingKey sha256 flow.key = aggregate.key ↔ flow.key = aggregate.key := by
    intro flow hflow
    obtain ⟨row, hrow, rfl⟩ := List.mem_map.mp hflow
    obtain ⟨hmem, hrowGroup⟩ := mem_of_mem_selectFirst hrow
    constructor
    · intro hsame
      exact (h.stored row hmem hrowGroup aggregate haggregate hsame).1
    · intro hsame
      rw [hsame]
      exact existingKey_aggregate hdigest haggregate
  rw [existingByKey_eq (nodup_listSchedulerFlows hnodup) hexact,
    rowWithKey_listSchedulerFlows hnodup hinGroup]
  exact previewFlow_eq h.base (decisionAggregates_nextItem haggregate)
    (h.storedRow hdigest hnormal haggregate)

/-- After the refresh every active record has a stored row that the SQL refill reaches. -/
theorem refillReaches_refreshed (hdigest : SpaceFree sha256)
    (hnormal : NormalizedGroup serviceTier modelGroup)
    (h : PreviewFaithful sha256 config serviceTier modelGroup now db) :
    RefillReaches serviceTier modelGroup
      ⟨decisionRecords sha256 config serviceTier modelGroup now now db,
        refreshedFlows sha256 config serviceTier modelGroup now now db, []⟩ := by
  intro hactive
  obtain ⟨flow, hflow⟩ := List.exists_mem_of_ne_nil _ hactive
  obtain ⟨hrecord, hqueued⟩ := mem_activeFlows.mp hflow
  have hnodup := decisionAggregates_nodup sha256 config serviceTier modelGroup now now db
  simp only [decisionRecords, refreshedRecords_eq hnodup] at hrecord
  obtain ⟨aggregate, haggregate, rfl⟩ := List.mem_map.mp hrecord
  have hlookup : rowWithKey SchedulerFlowRow.key aggregate.key
      (upsertAggregates sha256 config.tuning
        (decisionAggregates sha256 config serviceTier modelGroup now now db) db.flows) =
      some (upsertedRow sha256 config.tuning aggregate
        (rowWithKey SchedulerFlowRow.key aggregate.key db.flows)) :=
    rowWithKey_upsertAggregates hnodup haggregate
  obtain ⟨hstored, hkey⟩ := rowWithKey_some hlookup
  have hrow := h.storedRow hdigest hnormal haggregate
  have hinGroup := decisionAggregates_inGroup hnormal haggregate
  generalize hexisting : rowWithKey SchedulerFlowRow.key aggregate.key db.flows = existing
    at hstored hkey hrow hqueued
  have hid : (upsertedRow sha256 config.tuning aggregate existing).flowId =
      buildFlowId sha256 aggregate.key := by
    cases existing with
    | none => rfl
    | some row =>
        obtain ⟨hsame, hflowId, _⟩ := hrow row rfl
        exact hflowId.trans (congrArg _ hsame)
  refine ⟨upsertedRow sha256 config.tuning aggregate existing, ?_, ?_, hqueued.1, hqueued.2.1⟩
  · refine (mem_updateWhere _ _).mpr ⟨_, hstored, ?_⟩
    rw [if_neg]
    intro hstale
    refine hstale.1 ?_
    rw [hid]
    exact List.mem_map_of_mem haggregate
  · rw [hkey]
    exact hinGroup

end Agreement

section Decisions

variable {sha256 : String → String} {config : FairShareConfig}
  {workerId serviceTier modelGroup : String} {now : Timestamp} {locks : RowLocks}
  {db : SchedulerDatabase}

theorem decisions_agree (hdigest : SpaceFree sha256)
    (hnodup : (db.flows.map SchedulerFlowRow.key).Nodup)
    (h : PreviewFaithful sha256 config (normalizeFlowPart serviceTier "standard")
      (strip modelGroup) now db) :
    activeDecision sha256 config workerId serviceTier modelGroup now locks db =
      shadowDecision sha256 config serviceTier modelGroup now db := by
  by_cases hgroup : strip modelGroup = ""
  · simp [activeDecision, shadowDecision, claimNextFairShareWork, recommendNextFairShareFlow,
      hgroup]
  · have hnormal := normalizedGroup serviceTier modelGroup
    have hreaches := refillReaches_refreshed hdigest hnormal h
    have hrecords := previewSchedulerFlows_eq hdigest hnodup hnormal hgroup h
    have hrounds := rounds_agree config (claimSelectedFlow config workerId now locks
      (repairedJobs sha256 (normalizeFlowPart serviceTier "standard") (strip modelGroup) now now db)
      db.items) (max 1 config.tuning.maxDeficitMultiplier) rfl hreaches
    rw [activeDecision, shadowDecision, claimNextFairShareWork, if_neg hgroup,
      recommendNextFairShareFlow, if_neg hgroup, transaction_attempts, Option.bind_some,
      hrecords, ← hrounds, Option.map_map]
    rfl

/-- The preview never shows a debt. -/
theorem shadowDecision_nonneg {decision : FlowDecision}
    (h : shadowDecision sha256 config serviceTier modelGroup now db = some decision) :
    0 ≤ decision.deficitBefore := by
  obtain ⟨result, hresult, hdecision⟩ := Option.bind_eq_some_iff.mp h
  obtain ⟨flow, hflow, rfl⟩ := Option.map_eq_some_iff.mp hdecision
  have hrounds : recommendRounds config (max 1 config.tuning.maxDeficitMultiplier)
      (previewSchedulerFlows sha256 config (normalizeFlowPart serviceTier "standard")
        (strip modelGroup) now db) = .ok flow := by
    rw [recommendNextFairShareFlow, Option.ite_none_left_eq_some, Option.some.injEq] at hresult
    rw [hresult.2]
    cases result with
    | error reason => cases hflow
    | ok selected => exact congrArg _ (Option.some.inj hflow)
  obtain ⟨record, hrecord, deficit, hsame⟩ := recommended_refilledFrom _ hrounds
  simp only [flowDecision]
  cases hfound : rowWithKey BatchSchedulerFlowRecord.key flow.key
      (previewSchedulerFlows sha256 config (normalizeFlowPart serviceTier "standard")
        (strip modelGroup) now db) with
  | none => exact absurd (by rw [hsame]) (rowWithKey_eq_none.mp hfound record hrecord)
  | some found =>
      obtain ⟨aggregate, _, rfl⟩ := List.mem_map.mp (rowWithKey_some hfound).1
      exact le_min (le_max_left _ _) (Int.natCast_nonneg _)

end Decisions

def teamKey (tenantScopeId : String) : FlowKey := ⟨"standard", "m", "team", tenantScopeId⟩

def freshFlows : List SchedulerFlowRow :=
  refreshSchedulerFlows teamDigests {} "standard" "m"
    [{ key := teamKey "a", queuedJobs := 1, queuedWorkUnits := 10 },
      { key := teamKey "b", queuedJobs := 1, queuedWorkUnits := 10 }] []

def debtFlows : List SchedulerFlowRow :=
  chargeFlow {} 2 (buildFlowId teamDigests (teamKey "b")) 16 16
    (refillSchedulerFlowDeficits {} "standard" "m"
      (chargeFlow {} 1 (buildFlowId teamDigests (teamKey "a")) 16 36 freshFlows))

def queuedJob (batchId tenantScopeId : String) : BatchJobRow :=
  { createdJob batchId "/v1/embeddings" 5 with
    schedulingModelGroup := some "m"
    tenantScopeType := some "team"
    tenantScopeId := some tenantScopeId
    estimatedWorkUnits := 10
    remainingWorkUnits := 10 }

def queuedTeams (flows : List SchedulerFlowRow) : SchedulerDatabase :=
  { jobs := [queuedJob "job-a" "a", queuedJob "job-b" "b"]
    items := [createdItem "a-1" "job-a" 1 "a-1" [] 10, createdItem "b-1" "job-b" 1 "b-1" [] 10]
    flows := flows }

def previewConfig : FairShareConfig := { maxItems := 10, maxWorkUnits := 100, leaseSeconds := 60 }

end FairSharePreview
