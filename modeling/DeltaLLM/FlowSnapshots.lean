import DeltaLLM.BatchWorkClaim
import DeltaLLM.FlowSelection
import Mathlib.Data.List.Dedup

/-! # Flow snapshots

What the job and item tables say about the flows of one model group and service tier: the queued
jobs of each tenant with the head item that should run next, and the work in flight. Tenants are
merged under normalized scopes, and the jobs that still carry a raw API key are repaired.
-/
namespace FlowSnapshots

open BatchRecords
open BatchItemStatements
open BatchJobStatements
open BatchWorkClaim
open FlowSelection
open PythonText (strip startsWith)
open SchedulerFlows
open TableStatements

def apiKeyTenantScopePrefix : String := "api_key_sha256:"

/-- `stable_tenant_scope_id`. -/
def stableTenantScopeId (sha256 : String → String) (scopeType scopeId : String) : String :=
  if strip scopeId = "" then "anonymous"
  else if strip scopeType = "api_key" then
    if startsWith (strip scopeId) apiKeyTenantScopePrefix then strip scopeId
    else apiKeyTenantScopePrefix ++ sha256 (strip scopeId)
  else strip scopeId

/-- `_normalize_scheduler_tenant_scope`. -/
def normalizeSchedulerTenantScope (sha256 : String → String) (scopeType scopeId : String) :
    String × String :=
  let normalizedType := normalizeFlowPart scopeType "anonymous"
  let normalizedId := normalizeFlowPart scopeId "anonymous"
  (normalizedType,
    if normalizedType = "api_key" then stableTenantScopeId sha256 normalizedType normalizedId
    else normalizedId)

def normalizeFlowKey (sha256 : String → String) (key : FlowKey) : FlowKey :=
  let scope := normalizeSchedulerTenantScope sha256 key.tenantScopeType key.tenantScopeId
  ⟨normalizeFlowPart key.serviceTier "standard", strip key.modelGroup, scope.1, scope.2⟩

/-- The columns that the snapshots group by. -/
def rawFlowKey (modelGroup : String) (job : BatchJobRow) : FlowKey :=
  ⟨effectiveServiceTier job, modelGroup, (nonBlankText job.tenantScopeType).getD "anonymous",
    (nonBlankText job.tenantScopeId).getD "anonymous"⟩

def rawJobKey (job : BatchJobRow) : FlowKey :=
  rawFlowKey (job.schedulingModelGroup.getD "") job

def jobFlowKey (sha256 : String → String) (job : BatchJobRow) : FlowKey :=
  normalizeFlowKey sha256 (rawJobKey job)

/-- The WHERE clause of `base_jobs`. -/
def BaseJob (serviceTier modelGroup : String) (now : Timestamp) (job : BatchJobRow) : Prop :=
  WorkClaimable now job ∧ job.schedulingModelGroup = some modelGroup ∧ modelGroup ≠ "" ∧
    nonBlankText job.tenantScopeType ≠ none ∧ nonBlankText job.tenantScopeId ≠ none ∧
    effectiveServiceTier job = serviceTier

instance (serviceTier modelGroup : String) (now : Timestamp) (job : BatchJobRow) :
    Decidable (BaseJob serviceTier modelGroup now job) := by
  unfold BaseJob
  exact inferInstance

/-- `runnable_work_units`. -/
def runnableWorkUnits (now : Timestamp) (items : List BatchItemRow) (job : BatchJobRow) : ℕ :=
  ((runnableItems now job.batchId items).map BatchItemRow.workUnits).sum

/-- The `flow_jobs` CTE: the remaining work of a job is counted over its runnable items, whatever
its stored column says. -/
def flowJobs (serviceTier modelGroup : String) (now : Timestamp) (jobs : List BatchJobRow)
    (items : List BatchItemRow) : List BatchJobRow :=
  (jobs.filter fun job => BaseJob serviceTier modelGroup now job ∧
    runnableItems now job.batchId items ≠ []).map fun job =>
      { job with remainingWorkUnits := max (runnableWorkUnits now items job) 1 }

section Candidates

variable (config : FairShareConfig)

def boundedMaxCandidateJobs : ℕ :=
  max 1 (min (if config.maxCandidateJobsPerFlow = 0 then 50
    else config.maxCandidateJobsPerFlow) 1000)

/-- The settings that rank jobs, as a claim request carries them. -/
def rankRequest : WorkClaimRequest :=
  { workerId := ""
    maxItems := config.maxItems
    maxWorkUnits := config.maxWorkUnits
    leaseSeconds := config.leaseSeconds
    claimOrder := if config.sizeAwareSchedulingEnabled then .sizeAging else .fifo
    sizeAwareSchedulingEnabled := config.sizeAwareSchedulingEnabled
    agingSecondsPerWorkUnit := config.agingSecondsPerWorkUnit
    maxAgeCreditWorkUnits := config.maxAgeCreditWorkUnits
    minLargeJobClaimIntervalSeconds := config.minLargeJobClaimIntervalSeconds }

/-- `candidate_order_sql`; the merge in memory compares the same columns. -/
def candidateOrder (now : Timestamp) (a b : BatchJobRow) : Prop :=
  jobOrder (rankRequest config) now a b

instance (now : Timestamp) : DecidableRel (candidateOrder config now) :=
  fun a b => inferInstanceAs (Decidable (jobOrder _ now a b))

/-- The first candidate job of one raw group, among its oldest jobs. -/
def rawFlowCandidate (now : Timestamp) (jobs : List BatchJobRow) (rawKey : FlowKey) :
    Option BatchJobRow :=
  let seeds := selectFirst (fun job => rawJobKey job = rawKey) fifoOrder
    (boundedMaxCandidateJobs config) jobs
  (seeds.insertionSort (candidateOrder config now)).head?

/-- The first candidate over the raw groups of one flow. -/
def nextFlowJob (now : Timestamp) (jobs : List BatchJobRow) : Option BatchJobRow :=
  let candidates := (jobs.map rawJobKey).dedup.filterMap (rawFlowCandidate config now jobs)
  (candidates.insertionSort (candidateOrder config now)).head?

/-- One aggregate of `_load_scheduler_flow_refresh_snapshot`, without work in flight. -/
def candidateAggregate (sha256 : String → String) (now : Timestamp) (jobs : List BatchJobRow)
    (items : List BatchItemRow) (key : FlowKey) : FlowAggregate :=
  let queued := jobs.filter fun job => jobFlowKey sha256 job = key
  let head := (nextFlowJob config now queued).bind fun job => headItem now job.batchId items
  { key := key
    queuedJobs := queued.length
    queuedWorkUnits := (queued.map BatchJobRow.remainingWorkUnits).sum
    oldestQueueEnteredAt := (queued.map BatchJobRow.queuedSince).min?
    nextItemWorkUnits := head.elim 1 BatchItemRow.workUnits }

/-- The queued side of the snapshot. -/
def candidateAggregates (sha256 : String → String) (serviceTier modelGroup : String)
    (now : Timestamp) (jobs : List BatchJobRow) (items : List BatchItemRow) :
    List FlowAggregate :=
  let queued := flowJobs serviceTier modelGroup now jobs items
  (queued.map (jobFlowKey sha256)).dedup.map (candidateAggregate config sha256 now queued items)

end Candidates

/-- The flow that `_load_scheduler_flow_in_flight_snapshot` counts an item for. -/
def inFlightFlowKey (sha256 : String → String) (serviceTier modelGroup : String) (now : Timestamp)
    (jobs : List BatchJobRow) (item : BatchItemRow) : Option FlowKey :=
  (jobById item.batchId jobs).bind fun job =>
    if InFlight now item ∧ effectiveModelGroup job item = some modelGroup ∧
        effectiveServiceTier job = serviceTier then
      some (normalizeFlowKey sha256 (rawFlowKey modelGroup job))
    else none

/-- The flow that the `in_flight` CTE of the full snapshot counts an item for: here the model
group filter reads the job, and the item's own group names the flow. -/
def fullInFlightFlowKey (sha256 : String → String) (serviceTier modelGroup : String)
    (now : Timestamp) (jobs : List BatchJobRow) (item : BatchItemRow) : Option FlowKey :=
  (jobById item.batchId jobs).bind fun job =>
    (effectiveModelGroup job item).bind fun group =>
      if InFlight now item ∧ job.schedulingModelGroup = some modelGroup ∧
          effectiveServiceTier job = serviceTier ∧ strip group ≠ "" then
        some (normalizeFlowKey sha256 (rawFlowKey group job))
      else none

def workUnitsOf (keyOf : BatchItemRow → Option FlowKey) (items : List BatchItemRow)
    (key : FlowKey) : ℕ :=
  ((items.filter fun item => keyOf item = some key).map BatchItemRow.workUnits).sum

/-- Work in flight, one aggregate for each flow that has any. -/
def inFlightAggregates (keyOf : BatchItemRow → Option FlowKey) (items : List BatchItemRow) :
    List FlowAggregate :=
  (items.filterMap keyOf).dedup.map fun key =>
    { key := key, inFlightWorkUnits := workUnitsOf keyOf items key }

/-- The order of merged aggregates: queue age, then the key columns. -/
def aggregateOrder (a b : FlowAggregate) : Prop :=
  let oldestA := a.oldestQueueEnteredAt.getD maxTimestamp
  let oldestB := b.oldestQueueEnteredAt.getD maxTimestamp
  oldestA < oldestB ∨ (oldestA = oldestB ∧
    (a.key.modelGroup < b.key.modelGroup ∨ (a.key.modelGroup = b.key.modelGroup ∧
      (a.key.tenantScopeType < b.key.tenantScopeType ∨
        (a.key.tenantScopeType = b.key.tenantScopeType ∧
          a.key.tenantScopeId ≤ b.key.tenantScopeId)))))

instance : DecidableRel aggregateOrder := by
  intro a b
  unfold aggregateOrder
  exact inferInstance

/-- `_merge_scheduler_flow_snapshots`; the full snapshot joins its two sides the same way. -/
def mergeSchedulerFlowSnapshots (candidates inFlight : List FlowAggregate) : List FlowAggregate :=
  let merged := candidates.map fun aggregate =>
    { aggregate with
      inFlightWorkUnits := (rowWithKey FlowAggregate.key aggregate.key inFlight).elim 0
        FlowAggregate.inFlightWorkUnits }
  let alone := inFlight.filter fun aggregate =>
    ∀ candidate ∈ candidates, candidate.key ≠ aggregate.key
  (merged ++ alone).insertionSort aggregateOrder

/-- The pair of one row in `legacy_api_key_scope_repairs`. -/
def legacyScopeRepair (sha256 : String → String) (job : BatchJobRow) : Option (String × String) :=
  let rawKey := rawJobKey job
  let rawId := strip rawKey.tenantScopeId
  if strip rawKey.tenantScopeType = "api_key" ∧ rawId ≠ "" ∧ rawId ≠ "anonymous" ∧
      startsWith rawId apiKeyTenantScopePrefix = false then
    some (rawId,
      (normalizeSchedulerTenantScope sha256 rawKey.tenantScopeType rawKey.tenantScopeId).2)
  else none

/-- The repairs of both snapshots. -/
def legacyScopeRepairs (sha256 : String → String) (serviceTier modelGroup : String)
    (snapshotAt now : Timestamp) (jobs : List BatchJobRow) (items : List BatchItemRow) :
    List (String × String) :=
  let queued := flowJobs serviceTier modelGroup snapshotAt jobs items
  let running := (items.filter fun item =>
    (inFlightFlowKey sha256 serviceTier modelGroup now jobs item).isSome).filterMap fun item =>
      jobById item.batchId jobs
  (queued ++ running).filterMap (legacyScopeRepair sha256)

/-- `text LIKE pattern || '%'`, where an underscore in the pattern stands for any character. -/
def likeStart : List Char → List Char → Bool
  | [], _ => true
  | _ :: _, [] => false
  | p :: pattern, c :: text => (p = '_' || p = c) && likeStart pattern text

/-- The WHERE clause of one repair. -/
def RepairApplies (serviceTier modelGroup rawScope : String) (job : BatchJobRow) : Prop :=
  job.tenantScopeType = some "api_key" ∧ job.tenantScopeId = some rawScope ∧
    likeStart apiKeyTenantScopePrefix.toList rawScope.toList = false ∧
    (job.status = .queued ∨ job.status = .inProgress) ∧
    job.schedulingModelGroup = some modelGroup ∧ effectiveServiceTier job = serviceTier

instance (serviceTier modelGroup rawScope : String) (job : BatchJobRow) :
    Decidable (RepairApplies serviceTier modelGroup rawScope job) := by
  unfold RepairApplies
  exact inferInstance

def repairLegacyScope (serviceTier modelGroup : String) (repair : String × String)
    (jobs : List BatchJobRow) : List BatchJobRow :=
  let rawScope := strip repair.1
  let stableScope := strip repair.2
  if rawScope = "" ∨ rawScope = "anonymous" ∨
      startsWith rawScope apiKeyTenantScopePrefix = true ∨ stableScope = "" then jobs
  else
    updateWhere (RepairApplies serviceTier modelGroup rawScope)
      (fun job => { job with tenantScopeId := some stableScope }) jobs

/-- `_repair_legacy_api_key_scope_ids_for_scheduler_refresh`. -/
def repairLegacyScopes (serviceTier modelGroup : String) (repairs : List (String × String))
    (jobs : List BatchJobRow) : List BatchJobRow :=
  repairs.foldl (fun rows repair => repairLegacyScope serviceTier modelGroup repair rows) jobs

section Repair

variable {sha256 : String → String} {jobs jobs' jobs'' : List BatchJobRow}

/-- Two versions of a job that belong to the same flow. -/
structure SameFlow (sha256 : String → String) (job job' : BatchJobRow) : Prop where
  serviceTier : effectiveServiceTier job' = effectiveServiceTier job
  modelGroup : job'.schedulingModelGroup = job.schedulingModelGroup
  flowKey : ∀ modelGroup, normalizeFlowKey sha256 (rawFlowKey modelGroup job') =
    normalizeFlowKey sha256 (rawFlowKey modelGroup job)

theorem SameFlow.refl (job : BatchJobRow) : SameFlow sha256 job job := ⟨rfl, rfl, fun _ => rfl⟩

theorem SameFlow.trans {a b c : BatchJobRow} (hab : SameFlow sha256 a b)
    (hbc : SameFlow sha256 b c) : SameFlow sha256 a c :=
  ⟨hbc.serviceTier.trans hab.serviceTier, hbc.modelGroup.trans hab.modelGroup,
    fun modelGroup => (hbc.flowKey modelGroup).trans (hab.flowKey modelGroup)⟩

/-- Every lookup finds a job of the same flow in both tables. -/
def SameFlows (sha256 : String → String) (jobs jobs' : List BatchJobRow) : Prop :=
  ∃ f, (∀ job, SameFlow sha256 job (f job)) ∧
    ∀ batchId, jobById batchId jobs' = (jobById batchId jobs).map f

theorem SameFlows.refl (jobs : List BatchJobRow) : SameFlows sha256 jobs jobs :=
  ⟨id, SameFlow.refl, fun _ => Option.map_id.symm ▸ rfl⟩

theorem SameFlows.trans (h : SameFlows sha256 jobs jobs') (h' : SameFlows sha256 jobs' jobs'') :
    SameFlows sha256 jobs jobs'' := by
  obtain ⟨f, hf, hlookup⟩ := h
  obtain ⟨g, hg, hlookup'⟩ := h'
  refine ⟨g ∘ f, fun job => (hf job).trans (hg (f job)), fun batchId => ?_⟩
  rw [hlookup', hlookup, Option.map_map]

theorem sameFlows_updateWhere {p : BatchJobRow → Prop} [DecidablePred p]
    {f : BatchJobRow → BatchJobRow} (hid : ∀ job, (f job).batchId = job.batchId)
    (hf : ∀ job, p job → SameFlow sha256 job (f job)) :
    SameFlows sha256 jobs (updateWhere p f jobs) := by
  refine ⟨fun job => if p job then f job else job, fun job => ?_, fun batchId =>
    rowWithKey_updateWhere p batchId jobs fun job _ => hid job⟩
  by_cases hp : p job
  · simp only [hp, if_true]
    exact hf job hp
  · simp only [hp, if_false]
    exact SameFlow.refl job

theorem SameFlows.inFlightFlowKey_eq (h : SameFlows sha256 jobs jobs')
    (serviceTier modelGroup : String) (now : Timestamp) (item : BatchItemRow) :
    inFlightFlowKey sha256 serviceTier modelGroup now jobs' item =
      inFlightFlowKey sha256 serviceTier modelGroup now jobs item := by
  obtain ⟨f, hf, hlookup⟩ := h
  rw [inFlightFlowKey, inFlightFlowKey, hlookup]
  cases jobById item.batchId jobs with
  | none => rfl
  | some job =>
      have hjob := hf job
      have hgroup : effectiveModelGroup (f job) item = effectiveModelGroup job item := by
        rw [effectiveModelGroup, hjob.modelGroup, effectiveModelGroup]
      rw [Option.map_some, Option.bind_some, Option.bind_some]
      refine if_congr ?_ ?_ rfl
      · rw [hgroup, hjob.serviceTier]
      · rw [hjob.flowKey]

/-- Digests are printed without spaces. -/
def SpaceFree (sha256 : String → String) : Prop :=
  ∀ text, ∀ c ∈ (sha256 text).toList, PythonText.isSpace c = false

theorem teamDigests_spaceFree : SpaceFree teamDigests := by
  intro text
  rw [teamDigests]
  by_cases ha : text = "standard\x1fm\x1fteam\x1fa"
  · rw [if_pos ha]
    exact PythonText.no_space_of_all (by decide +kernel)
  · rw [if_neg ha]
    by_cases hb : text = "standard\x1fm\x1fteam\x1fb"
    · rw [if_pos hb]
      exact PythonText.no_space_of_all (by decide +kernel)
    · rw [if_neg hb]
      simp

/-- What a repair pair says: a stripped raw key and its stable form. -/
structure ValidRepair (sha256 : String → String) (repair : String × String) : Prop where
  raw : strip repair.1 = repair.1
  stable : repair.2 = apiKeyTenantScopePrefix ++ sha256 repair.1

theorem strip_api_key : strip "api_key" = "api_key" := by decide +kernel

theorem stableTenantScopeId_raw (sha256 : String → String) {rawScope : String}
    (hraw : strip rawScope = rawScope)
    (hnonempty : rawScope ≠ "") (hlegacy : startsWith rawScope apiKeyTenantScopePrefix = false) :
    stableTenantScopeId sha256 "api_key" rawScope =
      apiKeyTenantScopePrefix ++ sha256 rawScope := by
  simp [stableTenantScopeId, hraw, hnonempty, hlegacy, strip_api_key]

theorem normalizeTenantScope_apiKey {scopeType scopeId : String}
    (htype : strip scopeType = "api_key") (hid : strip scopeId ≠ "") :
    normalizeSchedulerTenantScope sha256 scopeType scopeId =
      ("api_key", stableTenantScopeId sha256 "api_key" (strip scopeId)) := by
  simp [normalizeSchedulerTenantScope, normalizeFlowPart, htype, hid]

theorem legacyScopeRepair_valid {job : BatchJobRow} {repair : String × String}
    (h : legacyScopeRepair sha256 job = some repair) : ValidRepair sha256 repair := by
  simp only [legacyScopeRepair, Option.ite_none_right_eq_some, Option.some.injEq] at h
  obtain ⟨⟨htype, hid, _, hstart⟩, hrepair⟩ := h
  have hraw := PythonText.strip_strip (rawJobKey job).tenantScopeId
  have hstable := stableTenantScopeId_raw sha256 hraw hid hstart
  rw [normalizeTenantScope_apiKey htype hid, hstable] at hrepair
  subst hrepair
  constructor
  · exact hraw
  · rfl

theorem strip_stableScope (hdigest : SpaceFree sha256) (text : String) :
    strip (apiKeyTenantScopePrefix ++ sha256 text) = apiKeyTenantScopePrefix ++ sha256 text := by
  refine PythonText.strip_of_no_space fun c hc => ?_
  rw [String.toList_append, List.mem_append] at hc
  rcases hc with hstart | hrest
  · exact PythonText.no_space_of_all (by decide +kernel) c hstart
  · exact hdigest text c hrest

theorem startsWith_stableScope (sha256 : String → String) (text : String) :
    startsWith (apiKeyTenantScopePrefix ++ sha256 text) apiKeyTenantScopePrefix = true := by
  rw [startsWith, String.toList_append, List.isPrefixOf_iff_prefix]
  exact List.prefix_append _ _

theorem stableScope_ne_empty (sha256 : String → String) (text : String) :
    apiKeyTenantScopePrefix ++ sha256 text ≠ "" := by
  intro hempty
  have hstart := startsWith_stableScope sha256 text
  rw [hempty] at hstart
  revert hstart
  decide +kernel

/-- A repaired job stays in its flow: the stable scope is what the raw key normalizes to. -/
theorem sameFlow_repair (hdigest : SpaceFree sha256) {job : BatchJobRow} {rawScope : String}
    (hraw : strip rawScope = rawScope) (hnonempty : rawScope ≠ "")
    (hlegacy : startsWith rawScope apiKeyTenantScopePrefix = false)
    (htype : job.tenantScopeType = some "api_key") (hid : job.tenantScopeId = some rawScope) :
    SameFlow sha256 job
      { job with tenantScopeId := some (apiKeyTenantScopePrefix ++ sha256 rawScope) } := by
  refine ⟨rfl, rfl, fun modelGroup => ?_⟩
  have hstart := startsWith_stableScope sha256 rawScope
  have hstable := stableScope_ne_empty sha256 rawScope
  have hstrip := strip_stableScope hdigest rawScope
  have hold : normalizeSchedulerTenantScope sha256 "api_key" rawScope =
      ("api_key", apiKeyTenantScopePrefix ++ sha256 rawScope) := by
    rw [normalizeTenantScope_apiKey strip_api_key (by rw [hraw]; exact hnonempty), hraw,
      stableTenantScopeId_raw sha256 hraw hnonempty hlegacy]
  have hnew : normalizeSchedulerTenantScope sha256 "api_key"
      (apiKeyTenantScopePrefix ++ sha256 rawScope) =
        ("api_key", apiKeyTenantScopePrefix ++ sha256 rawScope) := by
    rw [normalizeTenantScope_apiKey strip_api_key (by rw [hstrip]; exact hstable), hstrip,
      stableTenantScopeId, hstrip, strip_api_key, if_neg hstable, if_pos rfl, if_pos hstart]
  simp only [normalizeFlowKey, rawFlowKey, htype, hid, nonBlankText, hnonempty, hstable, if_false,
    Option.getD_some, hold, hnew, effectiveServiceTier, show ("api_key" = "") = False by decide]

theorem sameFlows_repairLegacyScope (hdigest : SpaceFree sha256) {repair : String × String}
    (hvalid : ValidRepair sha256 repair) (serviceTier modelGroup : String) :
    SameFlows sha256 jobs (repairLegacyScope serviceTier modelGroup repair jobs) := by
  have hstable : strip repair.2 = apiKeyTenantScopePrefix ++ sha256 repair.1 := by
    rw [hvalid.stable, strip_stableScope hdigest]
  simp only [repairLegacyScope, hvalid.raw, hstable]
  split
  · exact SameFlows.refl jobs
  · next hskip =>
      simp only [not_or, Bool.not_eq_true] at hskip
      refine sameFlows_updateWhere (fun _ => rfl) fun job hjob => ?_
      exact sameFlow_repair hdigest hvalid.raw hskip.1 hskip.2.2.1 hjob.1 hjob.2.1

theorem sameFlows_repairLegacyScopes (hdigest : SpaceFree sha256)
    (serviceTier modelGroup : String) {repairs : List (String × String)} :
    ∀ {jobs : List BatchJobRow}, (∀ repair ∈ repairs, ValidRepair sha256 repair) →
      SameFlows sha256 jobs (repairLegacyScopes serviceTier modelGroup repairs jobs) := by
  induction repairs with
  | nil =>
      intro jobs _
      exact SameFlows.refl jobs
  | cons repair repairs ih =>
      intro jobs h
      have hfirst : SameFlows sha256 jobs (repairLegacyScope serviceTier modelGroup repair jobs) :=
        sameFlows_repairLegacyScope hdigest (h repair List.mem_cons_self) serviceTier modelGroup
      exact hfirst.trans (ih fun other hother => h other (List.mem_cons_of_mem _ hother))

theorem legacyScopeRepairs_valid {serviceTier modelGroup : String} {snapshotAt now : Timestamp}
    {items : List BatchItemRow} : ∀ repair ∈
      legacyScopeRepairs sha256 serviceTier modelGroup snapshotAt now jobs items,
        ValidRepair sha256 repair := by
  intro repair hrepair
  obtain ⟨job, _, hjob⟩ := List.mem_filterMap.mp hrepair
  exact legacyScopeRepair_valid hjob

end Repair

theorem candidateAggregates_nodup (config : FairShareConfig) (sha256 : String → String)
    (serviceTier modelGroup : String) (now : Timestamp) (jobs : List BatchJobRow)
    (items : List BatchItemRow) :
    ((candidateAggregates config sha256 serviceTier modelGroup now jobs items).map
      FlowAggregate.key).Nodup := by
  rw [candidateAggregates, List.map_map]
  exact (List.nodup_dedup _).map fun _ _ h => h

theorem inFlightAggregates_nodup (keyOf : BatchItemRow → Option FlowKey)
    (items : List BatchItemRow) :
    ((inFlightAggregates keyOf items).map FlowAggregate.key).Nodup := by
  rw [inFlightAggregates, List.map_map]
  exact (List.nodup_dedup _).map fun _ _ h => h

/-- One aggregate for each flow. -/
theorem mergeSchedulerFlowSnapshots_nodup {candidates inFlight : List FlowAggregate}
    (hcandidates : (candidates.map FlowAggregate.key).Nodup)
    (hinFlight : (inFlight.map FlowAggregate.key).Nodup) :
    ((mergeSchedulerFlowSnapshots candidates inFlight).map FlowAggregate.key).Nodup := by
  rw [mergeSchedulerFlowSnapshots]
  refine ((List.perm_insertionSort _ _).map FlowAggregate.key).nodup_iff.mpr ?_
  rw [List.map_append, List.map_map, List.nodup_append]
  refine ⟨hcandidates, hinFlight.sublist (List.filter_sublist.map _), ?_⟩
  intro key hkey key' halone heq
  obtain ⟨candidate, hcandidate, rfl⟩ := List.mem_map.mp hkey
  obtain ⟨aggregate, haggregate, rfl⟩ := List.mem_map.mp halone
  have hnone := (List.mem_filter.mp haggregate).2
  exact of_decide_eq_true hnone candidate hcandidate heq

theorem inFlightAggregates_units {keyOf : BatchItemRow → Option FlowKey}
    {items : List BatchItemRow} {aggregate : FlowAggregate}
    (h : aggregate ∈ inFlightAggregates keyOf items) :
    aggregate.inFlightWorkUnits = workUnitsOf keyOf items aggregate.key := by
  obtain ⟨key, _, rfl⟩ := List.mem_map.mp h
  rfl

theorem inFlightAggregates_congr {keyOf keyOf' : BatchItemRow → Option FlowKey}
    {items : List BatchItemRow} (h : ∀ item ∈ items, keyOf item = keyOf' item) :
    inFlightAggregates keyOf items = inFlightAggregates keyOf' items := by
  have hunits : ∀ key, workUnitsOf keyOf items key = workUnitsOf keyOf' items key := by
    intro key
    rw [workUnitsOf, workUnitsOf, List.filter_congr fun item hitem => by rw [h item hitem]]
  rw [inFlightAggregates, inFlightAggregates, List.filterMap_congr h]
  simp only [hunits]

/-- A flow without an aggregate has no work in flight. -/
theorem workUnitsOf_eq_zero {keyOf : BatchItemRow → Option FlowKey} {items : List BatchItemRow}
    {key : FlowKey} (h : ∀ aggregate ∈ inFlightAggregates keyOf items, aggregate.key ≠ key) :
    workUnitsOf keyOf items key = 0 := by
  have hnone : (items.filter fun item => keyOf item = some key) = [] := by
    rw [List.filter_eq_nil_iff]
    intro item hitem hkey
    have hmem : key ∈ (items.filterMap keyOf).dedup :=
      List.mem_dedup.mpr (List.mem_filterMap.mpr ⟨item, hitem, of_decide_eq_true hkey⟩)
    exact h _ (List.mem_map_of_mem hmem) rfl
  rw [workUnitsOf, hnone]
  rfl

/-- Every merged aggregate counts the work in flight of its flow. -/
theorem mergeSchedulerFlowSnapshots_units {keyOf : BatchItemRow → Option FlowKey}
    {items : List BatchItemRow} {candidates : List FlowAggregate} {aggregate : FlowAggregate}
    (h : aggregate ∈ mergeSchedulerFlowSnapshots candidates (inFlightAggregates keyOf items)) :
    aggregate.inFlightWorkUnits = workUnitsOf keyOf items aggregate.key := by
  rw [mergeSchedulerFlowSnapshots, List.mem_insertionSort, List.mem_append] at h
  rcases h with hmerged | halone
  · obtain ⟨candidate, _, rfl⟩ := List.mem_map.mp hmerged
    cases hfound : rowWithKey FlowAggregate.key candidate.key (inFlightAggregates keyOf items) with
    | none => exact (workUnitsOf_eq_zero (rowWithKey_eq_none.mp hfound)).symm
    | some row =>
        obtain ⟨hrow, hkey⟩ := rowWithKey_some hfound
        exact (inFlightAggregates_units hrow).trans (congrArg _ hkey)
  · exact inFlightAggregates_units (List.mem_filter.mp halone).1

end FlowSnapshots
