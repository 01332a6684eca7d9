import DeltaLLM.FairSharePreview
import DeltaLLM.WorkSlices

/-! # The job that a flow snapshot previews and the job that is claimed

The snapshot ranks the runnable jobs of a flow and reports the head item of the first. The claim
that follows reads the job table again, with filters and a ranking of its own.
-/
namespace PreviewedClaims

open BatchRecords
open BatchJobStatements (WorkClaimable)
open BatchWorkClaim
open FairShareClaim
open FairSharePreview
open FlowSelection
open FlowSnapshots
open PythonText (strip stripOrEmpty)
open SchedulerFlows
open TableStatements
open WorkSlices

section Rescoping

variable {sha256 : String → String}

/-- A repair writes the scope id only, of a job that has one, and keeps the flow. -/
structure Rescoped (sha256 : String → String) (job job' : BatchJobRow) : Prop where
  same : job' = { job with tenantScopeId := job'.tenantScopeId }
  flow : SameFlow sha256 job job'
  blank : nonBlankText job.tenantScopeId = none → job' = job

theorem Rescoped.refl (job : BatchJobRow) : Rescoped sha256 job job :=
  ⟨rfl, SameFlow.refl job, fun _ => rfl⟩

theorem Rescoped.trans {a b c : BatchJobRow} (hab : Rescoped sha256 a b)
    (hbc : Rescoped sha256 b c) : Rescoped sha256 a c := by
  refine ⟨?_, hab.flow.trans hbc.flow, fun hblank => ?_⟩
  · rw [hbc.same, hab.same]
  · have hb := hab.blank hblank
    rw [hb] at hbc
    exact hbc.blank hblank

theorem repairLegacyScope_map (hdigest : SpaceFree sha256) {repair : String × String}
    (hvalid : ValidRepair sha256 repair) (serviceTier modelGroup : String) :
    ∃ rescope : BatchJobRow → BatchJobRow, (∀ job, Rescoped sha256 job (rescope job)) ∧
      ∀ jobs, repairLegacyScope serviceTier modelGroup repair jobs = jobs.map rescope := by
  have hstable : strip repair.2 = apiKeyTenantScopePrefix ++ sha256 repair.1 := by
    rw [hvalid.stable, strip_stableScope hdigest]
  simp only [repairLegacyScope, hvalid.raw, hstable]
  split
  · exact ⟨id, Rescoped.refl, fun jobs => by simp⟩
  · next hskip =>
      simp only [not_or, Bool.not_eq_true] at hskip
      refine ⟨_, fun job => ?_, fun jobs => rfl⟩
      by_cases happlies : RepairApplies serviceTier modelGroup repair.1 job
      · rw [if_pos happlies]
        refine ⟨rfl, sameFlow_repair hdigest hvalid.raw hskip.1 hskip.2.2.1 happlies.1
          happlies.2.1, fun hblank => ?_⟩
        rw [happlies.2.1, nonBlankText] at hblank
        simp [hskip.1] at hblank
      · rw [if_neg happlies]
        exact Rescoped.refl job

theorem repairLegacyScopes_map (hdigest : SpaceFree sha256) (serviceTier modelGroup : String)
    {repairs : List (String × String)} (hvalid : ∀ repair ∈ repairs, ValidRepair sha256 repair) :
    ∃ rescope : BatchJobRow → BatchJobRow, (∀ job, Rescoped sha256 job (rescope job)) ∧
      ∀ jobs, repairLegacyScopes serviceTier modelGroup repairs jobs = jobs.map rescope := by
  induction repairs with
  | nil => exact ⟨id, Rescoped.refl, fun jobs => by simp [repairLegacyScopes]⟩
  | cons repair repairs ih =>
      obtain ⟨first, hfirst, hfirstMap⟩ :=
        repairLegacyScope_map hdigest (hvalid repair List.mem_cons_self) serviceTier modelGroup
      obtain ⟨rest, hrest, hrestMap⟩ := ih fun other hother =>
        hvalid other (List.mem_cons_of_mem _ hother)
      refine ⟨rest ∘ first, fun job => (hfirst job).trans (hrest (first job)), fun jobs => ?_⟩
      have hsteps : repairLegacyScopes serviceTier modelGroup (repair :: repairs) jobs =
          repairLegacyScopes serviceTier modelGroup repairs
            (repairLegacyScope serviceTier modelGroup repair jobs) := rfl
      rw [hsteps, hfirstMap, hrestMap, List.map_map]

end Rescoping

section Preview

variable (sha256 : String → String) (config : FairShareConfig) (serviceTier modelGroup : String)
  (now : Timestamp) (db : SchedulerDatabase)

/-- The runnable jobs of one flow as the snapshot counts them. -/
def flowQueue (key : FlowKey) : List BatchJobRow :=
  (flowJobs serviceTier modelGroup now db.jobs db.items).filter fun job =>
    jobFlowKey sha256 job = key

/-- `next_batch_id` and `next_item_work_units` as the snapshot reports them for a flow. -/
def reportedWork (key : FlowKey) : Option (String × ℕ) :=
  (nextFlowJob config now (flowQueue sha256 serviceTier modelGroup now db key)).bind fun job =>
    (headItem now job.batchId db.items).map fun head => (job.batchId, head.workUnits)

/-- The claim for the selected flow takes items of this job, first one of this cost. -/
def ClaimsAsReported (workerId : String) (attempt : FlowAttempt) (batchId : String) (cost : ℕ) :
    Prop :=
  ∃ flowClaim, claimSelectedFlow config workerId now RowLocks.free
      (repairedJobs sha256 serviceTier modelGroup now now db) db.items attempt = some flowClaim ∧
    flowClaim.claim.batchId = batchId ∧ ∃ item ∈ db.items, item.batchId = batchId ∧
      flowClaim.claim.itemIds.head? = some item.itemId ∧ item.workUnits = cost

/-- The reported job under the claim's filters and, in size-aware order, its ranking: tier and
tenant columns spell the flow's key, capacity is left, the head item fits or may be oversized,
and no admitted job ranks before it by its stored remaining work. -/
structure Claimable (workerId : String) (attempt : FlowAttempt) (batchId : String) (cost : ℕ) :
    Prop where
  spelled : ∀ job ∈ repairedJobs sha256 serviceTier modelGroup now now db, job.batchId = batchId →
    job.serviceTier = attempt.flow.key.serviceTier ∧
      job.tenantScopeType = some attempt.flow.key.tenantScopeType ∧
        job.tenantScopeId = some attempt.flow.key.tenantScopeId
  capacity : ∀ state ∈ capacityState (claimRequest config workerId attempt) now
    (repairedJobs sha256 serviceTier modelGroup now now db) db.items,
      0 < state.remainingSlots ∧ 0 < state.remainingWorkUnits
  head : attempt.oversizedFirstItem = true ∨
    cost ≤ workUnitClaimLimit (claimRequest config workerId attempt)
      (capacityState (claimRequest config workerId attempt) now
        (repairedJobs sha256 serviceTier modelGroup now now db) db.items)
  first : config.sizeAwareSchedulingEnabled = true →
    ∀ job ∈ repairedJobs sha256 serviceTier modelGroup now now db, job.batchId = batchId →
      ∀ other ∈ repairedJobs sha256 serviceTier modelGroup now now db,
        JobAdmitted (claimRequest config workerId attempt) now RowLocks.free
          (capacityState (claimRequest config workerId attempt) now
            (repairedJobs sha256 serviceTier modelGroup now now db) db.items) db.items other →
        sizeAgingOrder (claimRequest config workerId attempt) now job other

end Preview

section Keys

variable {sha256 : String → String} {key : FlowKey} {job : BatchJobRow}

/-- A key as the normalization leaves it: no part is blank or padded. -/
structure NormalKey (sha256 : String → String) (key : FlowKey) : Prop where
  tier : strip key.serviceTier = key.serviceTier ∧ key.serviceTier ≠ ""
  group : strip key.modelGroup = key.modelGroup ∧ key.modelGroup ≠ ""
  scopeType : strip key.tenantScopeType = key.tenantScopeType ∧ key.tenantScopeType ≠ ""
  scopeId : strip key.tenantScopeId = key.tenantScopeId ∧ key.tenantScopeId ≠ ""
  fixed : normalizeFlowKey sha256 key = key

theorem strip_standard : strip "standard" = "standard" := by decide +kernel

theorem strip_anonymous : strip "anonymous" = "anonymous" := by decide +kernel

theorem normalizeScope_stripped (hdigest : SpaceFree sha256) (scopeType scopeId : String) :
    strip (normalizeSchedulerTenantScope sha256 scopeType scopeId).2 =
        (normalizeSchedulerTenantScope sha256 scopeType scopeId).2 ∧
      (normalizeSchedulerTenantScope sha256 scopeType scopeId).2 ≠ "" := by
  have hidStrip := normalizeFlowPart_stripped scopeId strip_anonymous
  have hid := normalizeFlowPart_ne_empty scopeId (show "anonymous" ≠ "" by decide)
  simp only [normalizeSchedulerTenantScope]
  by_cases happi : normalizeFlowPart scopeType "anonymous" = "api_key"
  · have hstable := stableScope_apiKey hdigest hidStrip hid
    simp only [happi, if_true]
    exact ⟨hstable.stripped, hstable.nonempty⟩
  · simp only [happi, if_false]
    exact ⟨hidStrip, hid⟩

theorem normalKey_parts {serviceTier modelGroup scopeType scopeId : String}
    (htier : strip serviceTier = serviceTier ∧ serviceTier ≠ "")
    (hgroup : strip modelGroup = modelGroup ∧ modelGroup ≠ "")
    (htype : strip scopeType = scopeType ∧ scopeType ≠ "")
    (hid : strip scopeId = scopeId ∧ scopeId ≠ "")
    (hfixed : existingKey sha256 ⟨serviceTier, modelGroup, scopeType, scopeId⟩ =
      ⟨serviceTier, modelGroup, scopeType, scopeId⟩) :
    NormalKey sha256 ⟨serviceTier, modelGroup, scopeType, scopeId⟩ := by
  have hpart : normalizeFlowPart serviceTier "standard" = serviceTier :=
    normalizeFlowPart_of_stripped htier.1 htier.2
  refine ⟨htier, hgroup, htype, hid, ?_⟩
  simp only [normalizeFlowKey, existingKey, hpart, hgroup.1] at hfixed ⊢
  exact hfixed

theorem normalKey_normalizeFlowKey (hdigest : SpaceFree sha256) {raw : FlowKey}
    (hgroup : strip raw.modelGroup ≠ "") : NormalKey sha256 (normalizeFlowKey sha256 raw) := by
  have htier := normalizeFlowPart_stripped raw.serviceTier strip_standard
  have htierNe := normalizeFlowPart_ne_empty raw.serviceTier (show "standard" ≠ "" by decide)
  have htype := normalizeFlowPart_stripped raw.tenantScopeType strip_anonymous
  have htypeNe := normalizeFlowPart_ne_empty raw.tenantScopeType (show "anonymous" ≠ "" by decide)
  have hid := normalizeScope_stripped hdigest raw.tenantScopeType raw.tenantScopeId
  have hparts : normalizeFlowKey sha256 raw =
      ⟨normalizeFlowPart raw.serviceTier "standard", strip raw.modelGroup,
        normalizeFlowPart raw.tenantScopeType "anonymous",
        (normalizeSchedulerTenantScope sha256 raw.tenantScopeType raw.tenantScopeId).2⟩ := by
    simp only [normalizeFlowKey, normalizeSchedulerTenantScope]
  have hfixed := existingKey_normalizeFlowKey hdigest raw
  rw [hparts] at hfixed ⊢
  exact normalKey_parts ⟨htier, htierNe⟩ ⟨PythonText.strip_strip raw.modelGroup, hgroup⟩
    ⟨htype, htypeNe⟩ hid hfixed

/-- The job's columns are the parts of the key. -/
structure Spells (key : FlowKey) (job : BatchJobRow) : Prop where
  tier : job.serviceTier = key.serviceTier
  group : job.schedulingModelGroup = some key.modelGroup
  scopeType : job.tenantScopeType = some key.tenantScopeType
  scopeId : job.tenantScopeId = some key.tenantScopeId

theorem Spells.flowKey (h : Spells key job) (hkey : NormalKey sha256 key) :
    jobFlowKey sha256 job = key := by
  have hraw : rawJobKey job = key := by
    simp only [rawJobKey, rawFlowKey, effectiveServiceTier, nonBlankText, h.tier, h.group,
      h.scopeType, h.scopeId, if_neg hkey.tier.2, if_neg hkey.scopeType.2, if_neg hkey.scopeId.2,
      Option.getD_some]
  rw [jobFlowKey, hraw]
  exact hkey.fixed

variable {attempt : FlowAttempt}

/-- The claim admits by literal columns. -/
theorem claimFilters_iff (config : FairShareConfig) (workerId : String)
    (hkey : NormalKey sha256 attempt.flow.key) :
    ((claimRequest config workerId attempt).modelGroupAdmits job ∧
      (claimRequest config workerId attempt).serviceTierAdmits job ∧
      (claimRequest config workerId attempt).tenantAdmits job ∧
      (claimRequest config workerId attempt).legacyAdmits job) ↔ Spells attempt.flow.key job := by
  have htier : stripOrEmpty (some attempt.flow.key.serviceTier) = attempt.flow.key.serviceTier :=
    hkey.tier.1
  have hscopeType : stripOrEmpty (some attempt.flow.key.tenantScopeType) =
      attempt.flow.key.tenantScopeType := hkey.scopeType.1
  have hscopeId : stripOrEmpty (some attempt.flow.key.tenantScopeId) =
      attempt.flow.key.tenantScopeId := hkey.scopeId.1
  simp only [WorkClaimRequest.modelGroupAdmits, WorkClaimRequest.serviceTierAdmits,
    WorkClaimRequest.tenantAdmits, WorkClaimRequest.legacyAdmits, claimRequest, rankRequest, htier,
    hscopeType, hscopeId, hkey.tier.2, hkey.scopeType.2, hkey.scopeId.2, List.map_cons,
    List.map_nil, hkey.group.1]
  constructor
  · rintro ⟨hgroup, htier', hscope, -⟩
    have hscope' := (hscope.resolve_left (by simp)).resolve_left (by simp)
    refine ⟨htier'.resolve_left (by simp), ?_, hscope'.1, hscope'.2⟩
    simpa [hkey.group.2] using hgroup
  · rintro ⟨htier', hgroup, htype, hid⟩
    exact ⟨Or.inr ⟨_, by simp [hkey.group.2], hgroup⟩, Or.inr htier', Or.inr (Or.inr ⟨htype, hid⟩),
      Or.inl trivial⟩

end Keys

section Ranking

variable {config : FairShareConfig} {now : Timestamp} {queued : List BatchJobRow}
  {job other : BatchJobRow}

theorem insertionSort_head_le {ρ : Type*} {le : ρ → ρ → Prop} [DecidableRel le] [Std.Total le]
    [IsTrans ρ le] {rows : List ρ} {first row : ρ}
    (h : (rows.insertionSort le).head? = some first) (hrow : row ∈ rows) : le first row := by
  refine selectFirst_head_le (p := fun _ => True) (n := 1) ?_ hrow trivial
  rw [selectFirst, List.head?_take]
  simpa using h

theorem mem_nextFlowJob (h : nextFlowJob config now queued = some job) : job ∈ queued := by
  have hsorted := List.mem_of_mem_head? h
  rw [List.mem_insertionSort] at hsorted
  obtain ⟨rawKey, -, hcandidate⟩ := List.mem_filterMap.mp hsorted
  have hseed := List.mem_of_mem_head? hcandidate
  rw [List.mem_insertionSort] at hseed
  exact (mem_of_mem_selectFirst hseed).1

theorem fifoOrder_total : Std.Total fifoOrder := by
  refine ⟨fun a b => ?_⟩
  rw [fifoOrder_iff, fifoOrder_iff]
  exact le_total _ _

theorem fifoOrder_trans : IsTrans BatchJobRow fifoOrder := by
  refine ⟨fun a b c hab hbc => ?_⟩
  rw [fifoOrder_iff] at hab hbc ⊢
  exact hab.trans hbc

theorem candidateOrder_fifo (hfifo : config.sizeAwareSchedulingEnabled = false) :
    candidateOrder config now job other ↔ fifoOrder job other := by
  have hsize : ¬(rankRequest config).sizeAware = true := by
    simp [WorkClaimRequest.sizeAware, rankRequest, hfifo]
  have horder : (rankRequest config).claimOrder = .fifo := by simp [rankRequest, hfifo]
  rw [candidateOrder, jobOrder_fifo hsize horder, ← fifoOrder_iff]

theorem exists_head {ρ : Type*} {rows : List ρ} (h : rows ≠ []) :
    ∃ first, rows.head? = some first := by
  rcases rows with _ | ⟨first, rest⟩
  · exact absurd rfl h
  · exact ⟨first, rfl⟩

/-- In first-in-first-out order the previewed job is the oldest of the flow, whatever the candidate
limit: each raw group's oldest job is among its candidates. -/
theorem nextFlowJob_oldest (hfifo : config.sizeAwareSchedulingEnabled = false)
    (h : nextFlowJob config now queued = some job) (hother : other ∈ queued) :
    fifoOrder job other := by
  have htotal : Std.Total fifoOrder := fifoOrder_total
  have htrans : IsTrans BatchJobRow fifoOrder := fifoOrder_trans
  have htotal' : Std.Total (candidateOrder config now) := jobOrder_total _ now
  have htrans' : IsTrans BatchJobRow (candidateOrder config now) := jobOrder_trans _ now
  let seeds := selectFirst (fun row => rawJobKey row = rawJobKey other) fifoOrder
    (boundedMaxCandidateJobs config) queued
  have hseeds : seeds ≠ [] := by
    have hmem : other ∈ (queued.filter fun row => rawJobKey row = rawJobKey other).insertionSort
        fifoOrder := by
      rw [List.mem_insertionSort, List.mem_filter]
      exact ⟨hother, decide_eq_true rfl⟩
    have hlimit : boundedMaxCandidateJobs config ≠ 0 := by
      unfold boundedMaxCandidateJobs
      omega
    intro hnil
    rcases List.take_eq_nil_iff.mp hnil with hzero | hnone
    · exact hlimit hzero
    · rw [hnone] at hmem
      cases hmem
  obtain ⟨oldest, holdest⟩ := exists_head hseeds
  have hsorted : seeds.insertionSort (candidateOrder config now) ≠ [] := by
    intro hnil
    have hmem := (List.mem_insertionSort (candidateOrder config now)).mpr
      (List.mem_of_mem_head? holdest)
    rw [hnil] at hmem
    cases hmem
  obtain ⟨candidate, hcandidate⟩ := exists_head hsorted
  have hcandidates : candidate ∈ (queued.map rawJobKey).dedup.filterMap
      (rawFlowCandidate config now queued) :=
    List.mem_filterMap.mpr ⟨rawJobKey other,
      List.mem_dedup.mpr (List.mem_map_of_mem hother), hcandidate⟩
  have hjob : fifoOrder job candidate :=
    (candidateOrder_fifo hfifo).mp (insertionSort_head_le h hcandidates)
  have hfirst : fifoOrder candidate oldest :=
    (candidateOrder_fifo hfifo).mp
      (insertionSort_head_le hcandidate (List.mem_of_mem_head? holdest))
  have hother' : fifoOrder oldest other := selectFirst_head_le holdest hother rfl
  exact htrans.trans _ _ _ hjob (htrans.trans _ _ _ hfirst hother')

end Ranking

section Slices

variable {request : WorkClaimRequest} {now : Timestamp} {locks : RowLocks}
  {jobs : List BatchJobRow} {items : List BatchItemRow} {job : BatchJobRow}

/-- A slice starts with the first runnable item where that item is admitted. -/
theorem workSlice_head {itemLimit unitLimit : ℕ} {oversizedFirst : Bool}
    {runnable slice : List BatchItemRow} {head : BatchItemRow}
    (h : WorkSlice itemLimit unitLimit oversizedFirst runnable slice) (hlimit : 0 < itemLimit)
    (hhead : runnable.head? = some head)
    (hadmits : oversizedFirst = true ∨ head.workUnits ≤ unitLimit) : slice.head? = some head := by
  rcases runnable with _ | ⟨first, rest⟩
  · cases hhead
  cases hhead
  by_cases hfits : head.workUnits ≤ unitLimit
  · have hlongest := h.longest fun _ first hfirst => by
      cases hfirst
      exact hfits
    have hone := hlongest.longest [head] (by simp) ⟨hlimit, by simpa [unitsOf] using hfits⟩
    obtain ⟨tail, htail⟩ := hlongest.start
    rcases slice with _ | ⟨first, slice⟩
    · simp at hone
    · rw [List.cons_append] at htail
      injection htail with hfirst _
      rw [hfirst]
      rfl
  · rw [h.oversized (hadmits.resolve_right hfits) head rfl (by omega)]
    rfl

theorem exists_selectedJob (hjob : job ∈ jobs)
    (hadmitted : JobAdmitted request now locks (capacityState request now jobs items) items job) :
    ∃ selected, selectedJob request now locks jobs items = some selected := by
  apply exists_head
  intro hnil
  have hmem : job ∈ (jobs.filter fun row => JobAdmitted request now locks
      (capacityState request now jobs items) items row).insertionSort (jobOrder request now) := by
    rw [List.mem_insertionSort, List.mem_filter]
    exact ⟨hjob, decide_eq_true hadmitted⟩
  rcases List.take_eq_nil_iff.mp hnil with hzero | hnone
  · cases hzero
  · rw [hnone] at hmem
    cases hmem

theorem claimableItems_free (batchId : String) :
    claimableItems now RowLocks.free batchId items = runnableItems now batchId items := by
  simp [claimableItems, RowLocks.free]

/-- The first item that a selected job hands out. -/
theorem claim_of_selected {head : BatchItemRow}
    (hselected : selectedJob request now RowLocks.free jobs items = some job)
    (hhead : headItem now job.batchId items = some head) :
    ∃ claim, (claimNextWork request now RowLocks.free jobs items).claim = some claim ∧
      claim.batchId = job.batchId ∧ claim.itemIds.head? = some head.itemId := by
  obtain ⟨-, hadmitted⟩ := selectedJob_admitted hselected
  obtain ⟨head', hhead', hadmits⟩ := hadmitted.2.2.2.2.2.2.1
  rw [hhead, Option.mem_def, Option.some.injEq] at hhead'
  subst hhead'
  have hslice := eligibleItems_slice hselected
  rw [claimableItems_free] at hslice
  have hfirst := workSlice_head hslice (lockedItemsLimit_pos hselected) hhead hadmits
  have hnonempty : eligibleItems request now RowLocks.free jobs items job ≠ [] := by
    intro hnil
    rw [hnil] at hfirst
    cases hfirst
  obtain ⟨claim, hclaim⟩ : ∃ claim,
      (claimNextWork request now RowLocks.free jobs items).claim = some claim := by
    simp [claimNextWork, hselected, hnonempty]
  obtain ⟨job', hselected', -, hbatch, -, hids, -⟩ := claimNextWork_some hclaim
  cases hselected.symm.trans hselected'
  exact ⟨claim, hclaim, hbatch, by rw [hids, List.head?_map, hfirst, Option.map_some]⟩

end Slices

section Agreement

variable {sha256 : String → String} {config : FairShareConfig} {serviceTier modelGroup : String}
  {now : Timestamp} {db : SchedulerDatabase} {workerId : String} {attempt : FlowAttempt}
  {batchId : String} {cost : ℕ}

/-- A stored job that the snapshot counts for a flow. -/
structure QueuedIn (sha256 : String → String) (serviceTier modelGroup : String) (now : Timestamp)
    (db : SchedulerDatabase) (key : FlowKey) (job : BatchJobRow) : Prop where
  stored : job ∈ db.jobs
  base : BaseJob serviceTier modelGroup now job
  runnable : runnableItems now job.batchId db.items ≠ []
  flow : jobFlowKey sha256 job = key

theorem mem_flowQueue {key : FlowKey} {job : BatchJobRow} :
    job ∈ flowQueue sha256 serviceTier modelGroup now db key ↔
      ∃ stored, QueuedIn sha256 serviceTier modelGroup now db key stored ∧
        job = { stored with
          remainingWorkUnits := max (runnableWorkUnits now db.items stored) 1 } := by
  constructor
  · intro h
    obtain ⟨hjob, hflow⟩ := List.mem_filter.mp h
    obtain ⟨stored, hstored, rfl⟩ := List.mem_map.mp hjob
    obtain ⟨hmem, hbase⟩ := List.mem_filter.mp hstored
    obtain ⟨hbase, hrunnable⟩ := of_decide_eq_true hbase
    exact ⟨stored, ⟨hmem, hbase, hrunnable, of_decide_eq_true hflow⟩, rfl⟩
  · rintro ⟨stored, ⟨hmem, hbase, hrunnable, hflow⟩, rfl⟩
    refine List.mem_filter.mpr ⟨List.mem_map.mpr ⟨stored, ?_, rfl⟩, decide_eq_true hflow⟩
    exact List.mem_filter.mpr ⟨hmem, decide_eq_true ⟨hbase, hrunnable⟩⟩

/-- The reported job: queued in the flow, and the oldest there unless sizes rank. -/
theorem reported_job {key : FlowKey}
    (h : reportedWork sha256 config serviceTier modelGroup now db key = some (batchId, cost)) :
    ∃ stored, QueuedIn sha256 serviceTier modelGroup now db key stored ∧
      stored.batchId = batchId ∧
      (∃ head ∈ headItem now batchId db.items, head.workUnits = cost) ∧
      (config.sizeAwareSchedulingEnabled = false → ∀ other,
        QueuedIn sha256 serviceTier modelGroup now db key other → fifoOrder stored other) := by
  obtain ⟨job, hjob, hreport⟩ := Option.bind_eq_some_iff.mp h
  obtain ⟨head, hhead, hwork⟩ := Option.map_eq_some_iff.mp hreport
  obtain ⟨hbatch, hcost⟩ := Prod.mk.inj hwork
  rw [hbatch] at hhead
  obtain ⟨stored, hstored, rfl⟩ := mem_flowQueue.mp (mem_nextFlowJob hjob)
  refine ⟨stored, hstored, hbatch, ⟨head, hhead, hcost⟩, fun hfifo other hother => ?_⟩
  have hmem := mem_flowQueue.mpr ⟨other, hother, rfl⟩
  have holdest := nextFlowJob_oldest hfifo hjob hmem
  exact holdest

theorem QueuedIn.normalKey (hdigest : SpaceFree sha256)
    (hnormal : NormalizedGroup serviceTier modelGroup)
    {key : FlowKey} {job : BatchJobRow}
    (h : QueuedIn sha256 serviceTier modelGroup now db key job) :
    NormalKey sha256 key ∧ key.serviceTier = serviceTier ∧ key.modelGroup = modelGroup := by
  have hgroup : (rawJobKey job).modelGroup = modelGroup := by
    simp [rawJobKey, rawFlowKey, h.base.2.1]
  have htier : (rawJobKey job).serviceTier = serviceTier := h.base.2.2.2.2.2
  rw [← h.flow]
  refine ⟨normalKey_normalizeFlowKey hdigest ?_, ?_, ?_⟩
  · rw [hgroup, hnormal.group]
    exact h.base.2.2.1
  · rw [jobFlowKey, normalizeFlowKey, htier]
    exact hnormal.tier
  · rw [jobFlowKey, normalizeFlowKey, hgroup]
    exact hnormal.group

theorem repairedJobs_map (hdigest : SpaceFree sha256) :
    ∃ rescope : BatchJobRow → BatchJobRow, (∀ job, Rescoped sha256 job (rescope job)) ∧
      repairedJobs sha256 serviceTier modelGroup now now db = db.jobs.map rescope := by
  have hvalid : ∀ repair ∈
    legacyScopeRepairs sha256 serviceTier modelGroup now now db.jobs db.items,
      ValidRepair sha256 repair := legacyScopeRepairs_valid
  obtain ⟨rescope, hrescope, hmap⟩ := repairLegacyScopes_map hdigest serviceTier modelGroup hvalid
  exact ⟨rescope, hrescope, hmap db.jobs⟩

theorem jobAdmitted_iff (hkey : NormalKey sha256 attempt.flow.key) {capacity : Option CapacityState}
    {job : BatchJobRow} :
    JobAdmitted (claimRequest config workerId attempt) now RowLocks.free capacity db.items job ↔
      WorkClaimable now job ∧ Spells attempt.flow.key job ∧
        (∀ state ∈ capacity, 0 < state.remainingSlots ∧ 0 < state.remainingWorkUnits) ∧
        ∃ head ∈ headItem now job.batchId db.items, attempt.oversizedFirstItem = true ∨
          head.workUnits ≤ workUnitClaimLimit (claimRequest config workerId attempt) capacity := by
  rw [← claimFilters_iff config workerId hkey]
  simp only [JobAdmitted, RowLocks.free, and_true, and_assoc]
  rfl

/-- A job that the claim admits is queued in the flow, seen before the repair. -/
theorem queuedIn_of_admitted (hkey : NormalKey sha256 attempt.flow.key)
    (htier : attempt.flow.key.serviceTier = serviceTier)
    (hgroup : attempt.flow.key.modelGroup = modelGroup) {rescope : BatchJobRow → BatchJobRow}
    (hrescope : ∀ job, Rescoped sha256 job (rescope job)) {capacity : Option CapacityState}
    {job : BatchJobRow} (hjob : job ∈ db.jobs)
    (h : JobAdmitted (claimRequest config workerId attempt) now RowLocks.free capacity db.items
      (rescope job)) :
    QueuedIn sha256 serviceTier modelGroup now db attempt.flow.key job := by
  obtain ⟨hclaimable, hspells, -, head, hhead, -⟩ := (jobAdmitted_iff hkey).mp h
  have hsame := (hrescope job).same
  have hflow := (hrescope job).flow
  have hgroupJob : job.schedulingModelGroup = some modelGroup := by
    rw [← hflow.modelGroup, hspells.group, hgroup]
  have htierJob : effectiveServiceTier job = serviceTier := by
    rw [← hflow.serviceTier, effectiveServiceTier, hspells.tier, if_neg hkey.tier.2, htier]
  have hscopeId : nonBlankText job.tenantScopeId ≠ none := by
    intro hblank
    have hunchanged := (hrescope job).blank hblank
    rw [← hunchanged, hspells.scopeId, nonBlankText] at hblank
    simp [hkey.scopeId.2] at hblank
  have hscopeType : job.tenantScopeType = some attempt.flow.key.tenantScopeType := by
    rw [← hspells.scopeType, hsame]
  rw [hsame] at hclaimable hhead
  refine ⟨hjob, ⟨hclaimable, hgroupJob, ?_, ?_, hscopeId, htierJob⟩, ?_, ?_⟩
  · rw [← hgroup]
    exact hkey.group.2
  · simp [hscopeType, nonBlankText, hkey.scopeType.2]
  · intro hnil
    rw [headItem, Option.mem_def] at hhead
    simp only [hnil] at hhead
    cases hhead
  · have hrawKey := hflow.flowKey modelGroup
    have hspelled := hspells.flowKey hkey
    rw [jobFlowKey, rawJobKey, hspells.group, Option.getD_some, hgroup, hrawKey] at hspelled
    rw [jobFlowKey, rawJobKey, hgroupJob, Option.getD_some, hspelled]

theorem eq_of_batchId {jobs : List BatchJobRow} (hunique : (jobs.map BatchJobRow.batchId).Nodup)
    {a b : BatchJobRow} (ha : a ∈ jobs) (hb : b ∈ jobs) (hid : a.batchId = b.batchId) : a = b :=
  List.inj_on_of_nodup_map hunique ha hb hid

theorem claimRequest_sizeAware :
    (claimRequest config workerId attempt).sizeAware = config.sizeAwareSchedulingEnabled := by
  simp [WorkClaimRequest.sizeAware, claimRequest, rankRequest]

theorem jobOrder_sized (hsize : config.sizeAwareSchedulingEnabled = true) {a b : BatchJobRow} :
    jobOrder (claimRequest config workerId attempt) now a b ↔
      sizeAgingOrder (claimRequest config workerId attempt) now a b := by
  rw [jobOrder, if_pos (claimRequest_sizeAware.trans hsize)]

theorem claimRequest_fifo (hfifo : config.sizeAwareSchedulingEnabled = false) :
    (claimRequest config workerId attempt).claimOrder = .fifo := by
  simp [claimRequest, rankRequest, hfifo]

theorem jobOrder_aged (hfifo : config.sizeAwareSchedulingEnabled = false) {a b : BatchJobRow} :
    jobOrder (claimRequest config workerId attempt) now a b ↔ fifoOrder a b := by
  have hsize : ¬(claimRequest config workerId attempt).sizeAware = true := by
    simp [claimRequest_sizeAware, hfifo]
  rw [jobOrder_fifo hsize (claimRequest_fifo hfifo), fifoOrder_iff]

theorem claimRequest_ranked : (claimRequest config workerId attempt).Ranked := by
  cases hsize : config.sizeAwareSchedulingEnabled with
  | true => exact Or.inl (claimRequest_sizeAware.trans hsize)
  | false => exact Or.inr (claimRequest_fifo hsize)

/-- The claim follows the report exactly when the reported job is claimable as the claim reads the
tables: in first-in-first-out order no ranking is asked, the reported job is the oldest. -/
theorem claimed_as_reported_iff (hdigest : SpaceFree sha256)
    (hnormal : NormalizedGroup serviceTier modelGroup)
    (hunique : (db.jobs.map BatchJobRow.batchId).Nodup)
    (hreports : reportedWork sha256 config serviceTier modelGroup now db attempt.flow.key =
      some (batchId, cost)) :
    ClaimsAsReported sha256 config serviceTier modelGroup now db workerId attempt batchId cost ↔
      Claimable sha256 config serviceTier modelGroup now db workerId attempt batchId cost := by
  obtain ⟨stored, hstored, hbatch, ⟨head, hhead, hcost⟩, holdest⟩ := reported_job hreports
  obtain ⟨hkey, htier, hgroup⟩ := hstored.normalKey hdigest hnormal
  obtain ⟨rescope, hrescope, hmap⟩ : ∃ rescope : BatchJobRow → BatchJobRow,
      (∀ job, Rescoped sha256 job (rescope job)) ∧
        repairedJobs sha256 serviceTier modelGroup now now db = db.jobs.map rescope :=
    repairedJobs_map hdigest
  have hids : ∀ job, (rescope job).batchId = job.batchId := fun job => by rw [(hrescope job).same]
  have hunique' : ((repairedJobs sha256 serviceTier modelGroup now now db).map
      BatchJobRow.batchId).Nodup := by
    rw [hmap, List.map_map]
    simpa [Function.comp_def, hids] using hunique
  constructor
  · rintro ⟨flowClaim, hclaim, hclaimed, -⟩
    obtain ⟨claim, hclaim', rfl⟩ := Option.map_eq_some_iff.mp hclaim
    obtain ⟨job, hselected, -, hjobId, -⟩ := claimNextWork_some hclaim'
    obtain ⟨hjob, hadmitted⟩ := selectedJob_admitted hselected
    have hjobBatch : job.batchId = batchId := hjobId.symm.trans hclaimed
    obtain ⟨-, hspells, hcapacity, head', hhead', hadmits⟩ := (jobAdmitted_iff hkey).mp hadmitted
    rw [hjobBatch] at hhead'
    cases hhead.symm.trans hhead'
    have hsame : ∀ other ∈ repairedJobs sha256 serviceTier modelGroup now now db,
        other.batchId = batchId → other = job := fun other hother hid =>
      eq_of_batchId hunique' hother hjob (hid.trans hjobBatch.symm)
    refine ⟨fun other hother hid => ?_, hcapacity, ?_,
      fun hsize other hother hid third hthird hthird' =>
      ?_⟩
    · obtain rfl := hsame other hother hid
      exact ⟨hspells.tier, hspells.scopeType, hspells.scopeId⟩
    · rw [← hcost]
      exact hadmits
    · obtain rfl := hsame other hother hid
      exact (jobOrder_sized hsize).mp (selectedJob_first hselected hthird hthird')
  · intro h
    have hrow : rescope stored ∈ repairedJobs sha256 serviceTier modelGroup now now db := by
      rw [hmap]
      exact List.mem_map_of_mem hstored.stored
    have hrowId : (rescope stored).batchId = batchId := (hids stored).trans hbatch
    have hspelled := h.spelled _ hrow hrowId
    have hspells : Spells attempt.flow.key (rescope stored) := by
      refine ⟨hspelled.1, ?_, hspelled.2.1, hspelled.2.2⟩
      rw [(hrescope stored).flow.modelGroup, hstored.base.2.1, hgroup]
    have hclaimable : WorkClaimable now (rescope stored) := by
      rw [(hrescope stored).same]
      exact hstored.base.1
    have hadmitted : JobAdmitted (claimRequest config workerId attempt) now RowLocks.free
        (capacityState (claimRequest config workerId attempt) now
          (repairedJobs sha256 serviceTier modelGroup now now db) db.items) db.items
        (rescope stored) := by
      refine (jobAdmitted_iff hkey).mpr ⟨hclaimable, hspells, h.capacity, head, ?_, ?_⟩
      · rw [hrowId]
        exact hhead
      · rw [hcost]
        exact h.head
    obtain ⟨job, hselected⟩ := exists_selectedJob hrow hadmitted
    obtain ⟨hjob, hjobAdmitted⟩ := selectedJob_admitted hselected
    have hbefore := selectedJob_first hselected hrow hadmitted
    have hafter : jobOrder (claimRequest config workerId attempt) now (rescope stored) job := by
      cases hsize : config.sizeAwareSchedulingEnabled with
      | true => exact (jobOrder_sized hsize).mpr (h.first hsize _ hrow hrowId job hjob hjobAdmitted)
      | false =>
          -- What the claim admits was queued in the flow, where the reported job is the oldest.
          rw [hmap] at hjob
          obtain ⟨other, hother, rfl⟩ := List.mem_map.mp hjob
          have hqueued := queuedIn_of_admitted hkey htier hgroup hrescope hother hjobAdmitted
          have hfifo := holdest hsize other hqueued
          rw [jobOrder_aged hsize, (hrescope stored).same, (hrescope other).same]
          exact hfifo
    have hjobId : job.batchId = batchId :=
      (jobOrder_antisymm claimRequest_ranked hbefore hafter).trans hrowId
    have hjobHead : headItem now job.batchId db.items = some head := by
      rw [hjobId]
      exact hhead
    obtain ⟨claim, hclaim, hclaimId, hfirst⟩ := claim_of_selected hselected hjobHead
    have hitem := mem_runnableItems.mp (List.mem_of_mem_head? hhead)
    exact ⟨_, by rw [claimSelectedFlow, hclaim]; rfl, hclaimId.trans hjobId, head, hitem.1,
      hitem.2.1, hfirst, hcost⟩

/-- The reported cost is the one that the flow's aggregate carries. -/
theorem reportedWork_aggregate {key : FlowKey}
    (h : reportedWork sha256 config serviceTier modelGroup now db key = some (batchId, cost)) :
    ∃ aggregate ∈ candidateAggregates config sha256 serviceTier modelGroup now db.jobs db.items,
      aggregate.key = key ∧ aggregate.nextItemWorkUnits = cost := by
  obtain ⟨stored, hstored, -⟩ := reported_job h
  have hqueued := mem_flowQueue.mpr ⟨stored, hstored, rfl⟩
  obtain ⟨hjob, hflow⟩ := List.mem_filter.mp hqueued
  refine ⟨_, List.mem_map.mpr ⟨key, List.mem_dedup.mpr (List.mem_map.mpr ⟨_, hjob,
    of_decide_eq_true hflow⟩), rfl⟩, rfl, ?_⟩
  obtain ⟨job, hnext, hreport⟩ := Option.bind_eq_some_iff.mp h
  obtain ⟨head, hhead, hwork⟩ := Option.map_eq_some_iff.mp hreport
  rw [flowQueue] at hnext
  simp only [candidateAggregate, hnext, Option.bind_some, hhead, Option.elim_some]
  exact (Prod.mk.inj hwork).2

end Agreement

/-- The claim after the refresh of any tier and model group hands out the reported job and its head
item exactly when that job is claimable under the claim's own filters and ranking. -/
theorem previewed_work_claimed {sha256 : String → String} (hdigest : SpaceFree sha256)
    (config : FairShareConfig) (serviceTier modelGroup : String) (now : Timestamp)
    (db : SchedulerDatabase) (hunique : (db.jobs.map BatchJobRow.batchId).Nodup)
    (workerId : String) (attempt : FlowAttempt) (batchId : String) (cost : ℕ)
    (hreports : reportedWork sha256 config (normalizeFlowPart serviceTier "standard")
      (strip modelGroup) now db attempt.flow.key = some (batchId, cost)) :
    ClaimsAsReported sha256 config (normalizeFlowPart serviceTier "standard") (strip modelGroup) now
        db workerId attempt batchId cost ↔
      Claimable sha256 config (normalizeFlowPart serviceTier "standard") (strip modelGroup) now db
        workerId attempt batchId cost :=
  claimed_as_reported_iff hdigest (normalizedGroup serviceTier modelGroup) hunique hreports

/-! Two queued jobs of one team. `job-b` has less runnable work, but its stored remaining work counts
an item that is not due. -/

def teamJob (batchId : String) (remainingWorkUnits : ℕ) : BatchJobRow :=
  { createdJob batchId "/v1/embeddings" 5 with
    schedulingModelGroup := some "m"
    tenantScopeType := some "team"
    tenantScopeId := some "a"
    remainingWorkUnits := remainingWorkUnits }

def teamItem (itemId batchId : String) (lineNumber workUnits : ℕ) : BatchItemRow :=
  createdItem itemId batchId lineNumber itemId [] workUnits

def teamQueue : SchedulerDatabase :=
  { jobs := [teamJob "job-a" 20, teamJob "job-b" 50]
    items := [teamItem "a-1" "job-a" 1 20, teamItem "b-1" "job-b" 1 5,
      { teamItem "b-2" "job-b" 2 45 with notBeforeAt := some 1000 }]
    flows := [] }

def teamFlow : BatchSchedulerFlowRecord :=
  { flowId := "flow-a", key := ⟨"standard", "m", "team", "a"⟩, weight := 1, quantumWorkUnits := 100,
    deficitWorkUnits := 100, active := true, queuedJobs := 2, queuedWorkUnits := 25,
    inFlightWorkUnits := 0, lastSelectedAt := none, oldestQueueEnteredAt := none,
    nextItemWorkUnits := 5 }

def teamAttempt : FlowAttempt :=
  { flow := teamFlow
    selection := ⟨some teamFlow, [], 1, 1, false, 1, false⟩
    deficitBypass := false }

def teamConfig (sizeAware : Bool) : FairShareConfig :=
  { maxItems := 10, maxWorkUnits := 100, leaseSeconds := 60,
    sizeAwareSchedulingEnabled := sizeAware }

theorem previewed_work_claimed_oldest_job :
    ∃ flowClaim, claimSelectedFlow (teamConfig false) "worker" 10 RowLocks.free
        (repairedJobs teamDigests "standard" "m" 10 10 teamQueue) teamQueue.items teamAttempt =
          some flowClaim ∧ flowClaim.claim.batchId = "job-a" := by
  have hclaims := (previewed_work_claimed teamDigests_spaceFree (teamConfig false) "standard" "m" 10
    teamQueue (by decide) "worker" teamAttempt "job-a" 20 (by decide +kernel)).mpr
      ⟨by decide +kernel,
      by decide +kernel, by decide +kernel, by decide⟩
  obtain ⟨flowClaim, hclaim, hbatch, -⟩ := hclaims
  have htier : normalizeFlowPart "standard" "standard" = "standard" := by decide +kernel
  have hgroup : strip "m" = "m" := by decide +kernel
  rw [htier, hgroup] at hclaim
  exact ⟨flowClaim, hclaim, hbatch⟩

/-- The report ranks by runnable work, the claim by the stored column. -/
theorem previewed_work_not_claimed :
    reportedWork teamDigests (teamConfig true) "standard" "m" 10 teamQueue teamAttempt.flow.key =
      some ("job-b", 5) ∧
    ¬ClaimsAsReported teamDigests (teamConfig true) "standard" "m" 10 teamQueue "worker" teamAttempt
      "job-b" 5 := by
  refine ⟨by decide +kernel, ?_⟩
  rintro ⟨flowClaim, hclaim, hbatch, -⟩
  have htaken : (claimSelectedFlow (teamConfig true) "worker" 10 RowLocks.free
      (repairedJobs teamDigests "standard" "m" 10 10 teamQueue) teamQueue.items teamAttempt).map
        (fun flowClaim => flowClaim.claim.batchId) = some "job-a" := by decide +kernel
  rw [hclaim, Option.map_some, hbatch] at htaken
  revert htaken
  decide

end PreviewedClaims
