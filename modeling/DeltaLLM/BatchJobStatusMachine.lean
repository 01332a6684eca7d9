import DeltaLLM.BatchItemSteps

/-! # The job status machine

`JobStep` lists what an event does to one job row. A terminal job keeps its status and its file
ids, and a finalizing job has only terminal items, in every reachable state.
-/
namespace BatchJobStatusMachine

open BatchRecords
open BatchJobStatements
open BatchWorkClaim (WorkClaimRequest RowLocks claimNextWork claimNextWork_none
  claimNextWork_some)
open BatchSystem
open BatchItemSteps
open TableStatements
open TransitionRuns

/-- Columns of the status machine that a lease or counter statement leaves alone. -/
def SameStanding (job job' : BatchJobRow) : Prop :=
  job'.batchId = job.batchId ∧ job'.status = job.status ∧
    job'.outputFileId = job.outputFileId ∧ job'.errorFileId = job.errorFileId

inductive JobStep (s : BatchState) : Event → BatchJobRow → BatchJobRow → Prop where
  | kept {e : Event} {job job' : BatchJobRow} (h : SameStanding job job') : JobStep s e job job'
  | started {e : Event} {job job' : BatchJobRow} (hid : job'.batchId = job.batchId)
      (hlive : job.status = .queued ∨ job.status = .inProgress)
      (hstarted : job'.status = .inProgress) (houtput : job'.outputFileId = job.outputFileId)
      (herror : job'.errorFileId = job.errorFileId) : JobStep s e job job'
  /-- A snapshot of the item table, possibly an old one. -/
  | refreshed {e : Event} {job : BatchJobRow} (now : Timestamp) (stats : ProgressStats)
      (hstats : ⟨job.batchId, stats⟩ ∈ s.progressReads ∨
        stats = progressStats job.batchId s.items) :
      JobStep s e job (refreshRow now stats job)
  | attached {now : Timestamp} {run : FinalizationRun} {job : BatchJobRow}
      (hrun : run ∈ s.finalizations) (hwriting : run.phase = .writing)
      (hfinal : FinalizableBy run.batchId run.workerId job) :
      JobStep s (.attachArtifacts now run) job
        (attachRow now run.outputFileId run.errorFileId run.finalStatus job)
  | failedPermanently {now : Timestamp} {batchId workerId : String} {job : BatchJobRow}
      (hfinal : FinalizableBy batchId workerId job) :
      JobStep s (.persistPermanentFailure now batchId workerId) job
        (attachRow now none none .failed job)
  | filesCleared {run : FinalizationRun} {job : BatchJobRow} (hrun : run ∈ s.finalizations)
      (hloose : run.phase ≠ .attached) :
      JobStep s (.cleanupArtifacts run) job (clearFiles run.fileIds job)

def createdJobs : Event → List BatchJobRow
  | .promoteSession job _ => [job]
  | _ => []

theorem SameStanding.refl (job : BatchJobRow) : SameStanding job job := ⟨rfl, rfl, rfl, rfl⟩

theorem JobStep.batchId_eq {s : BatchState} {e : Event} {job job' : BatchJobRow}
    (h : JobStep s e job job') : job'.batchId = job.batchId := by
  cases h with
  | kept h => exact h.1
  | started hid => exact hid
  | refreshed | attached | failedPermanently | filesCleared => rfl

section Inversion

variable {maxAttempts : ℕ} {s : BatchState} {e : Event}

def JobsFollow (s : BatchState) (e : Event) : Prop :=
  ∃ f : BatchJobRow → BatchJobRow, (next s e).jobs = s.jobs.map f ++ createdJobs e ∧
    ∀ job ∈ s.jobs, JobStep s e job (f job)

private theorem follow_of_same (hjobs : (next s e).jobs = s.jobs ++ createdJobs e) :
    JobsFollow s e :=
  ⟨id, by simpa using hjobs, fun job _ => .kept (.refl job)⟩

private theorem follow_of_jobUpdate (p : BatchJobRow → Prop) [DecidablePred p]
    (f : BatchJobRow → BatchJobRow) (hjobs : (next s e).jobs = updateWhere p f s.jobs)
    (hcreated : createdJobs e = []) (hstep : ∀ job ∈ s.jobs, p job → JobStep s e job (f job)) :
    JobsFollow s e := by
  refine ⟨fun job => if p job then f job else job, ?_, fun job hjob => ?_⟩
  · rw [hjobs, hcreated, List.append_nil]
    rfl
  · by_cases hp : p job
    · simpa [hp] using hstep job hjob hp
    · simpa [hp] using JobStep.kept (SameStanding.refl job)

/-- Queued becomes in progress and any other status stays. -/
private theorem jobStep_startQueued {job job' : BatchJobRow} (hid : job'.batchId = job.batchId)
    (hstatus : job'.status = startQueued job.status)
    (houtput : job'.outputFileId = job.outputFileId)
    (herror : job'.errorFileId = job.errorFileId) : JobStep s e job job' := by
  by_cases hqueued : job.status = .queued
  · refine .started hid (Or.inl hqueued) ?_ houtput herror
    rw [hstatus, hqueued]
    rfl
  · rw [startQueued_of_ne_queued hqueued] at hstatus
    exact .kept ⟨hid, hstatus, houtput, herror⟩

private theorem jobStep_requestCancel (now : Timestamp) (job : BatchJobRow) :
    JobStep s e job (requestCancelRow now job) := by
  cases hstatus : job.status with
  | queued => exact .started rfl (Or.inl hstatus) (by simp [requestCancelRow, hstatus,
      BatchJobStatus.terminal]) rfl rfl
  | inProgress => exact .started rfl (Or.inr hstatus) (by simp [requestCancelRow, hstatus,
      BatchJobStatus.terminal]) rfl rfl
  | finalizing | completed | failed | cancelled | expired =>
      exact .kept ⟨rfl, by simp [requestCancelRow, hstatus, BatchJobStatus.terminal], rfl, rfl⟩

private theorem jobs_follow_claimWork (now : Timestamp) (request : WorkClaimRequest)
    (locks : RowLocks) : JobsFollow s (.claimWork now request locks) := by
  cases hclaim : (claimNextWork request now locks s.jobs s.items).claim with
  | none =>
      refine follow_of_same ?_
      simp [next, afterWorkClaim, hclaim, createdJobs, (claimNextWork_none hclaim).1]
  | some claim =>
      obtain ⟨job, _, _, _, _, _, _, hjobs, _⟩ := claimNextWork_some hclaim
      refine follow_of_jobUpdate (fun row => row.batchId = job.batchId) (workClaimJobRow now)
        ?_ rfl fun row _ _ => jobStep_startQueued rfl rfl rfl rfl
      simp [next, afterWorkClaim, hclaim, hjobs]

private theorem jobs_follow_sweepRefresh (now : Timestamp) (limit : ℕ) (batchIds : List String)
    (skip : String → Bool) : JobsFollow s (.sweepRefreshJobs now limit batchIds skip) := by
  refine ⟨_, (List.append_nil _).symm, fun job _ => ?_⟩
  split
  · exact .refreshed now _ (Or.inr rfl)
  · exact .kept (.refl job)

theorem jobs_follow (he : Enabled maxAttempts s e) : JobsFollow s e := by
  cases e with
  | claimWork now request locks => exact jobs_follow_claimWork now request locks
  | sweepExpiredJobs now limit skip =>
      exact follow_of_jobUpdate _ _ rfl rfl fun job _ _ => .kept ⟨rfl, rfl, rfl, rfl⟩
  | sweepRefreshJobs now limit batchIds skip =>
      exact jobs_follow_sweepRefresh now limit batchIds skip
  | applyProgress now read =>
      refine follow_of_jobUpdate _ _ rfl rfl fun job _ hid => ?_
      refine .refreshed now read.stats (Or.inl ?_)
      rw [hid]
      exact he
  | requestCancel now batchId =>
      exact follow_of_jobUpdate _ _ rfl rfl fun job _ _ => jobStep_requestCancel now job
  | claimNextJob now workerId leaseSeconds skip =>
      exact follow_of_jobUpdate _ _ rfl rfl fun job _ _ => jobStep_startQueued rfl rfl rfl rfl
  | claimNextFinalization now workerId leaseSeconds skip =>
      exact follow_of_jobUpdate _ _ rfl rfl fun job _ _ => .kept ⟨rfl, rfl, rfl, rfl⟩
  | renewJobLease now batchId workerId leaseSeconds =>
      exact follow_of_jobUpdate _ _ rfl rfl fun job _ _ => .kept ⟨rfl, rfl, rfl, rfl⟩
  | releaseJobLease batchId workerId =>
      exact follow_of_jobUpdate _ _ rfl rfl fun job _ _ => .kept ⟨rfl, rfl, rfl, rfl⟩
  | rescheduleFinalization now batchId workerId delay =>
      exact follow_of_jobUpdate _ _ rfl rfl fun job _ _ => .kept ⟨rfl, rfl, rfl, rfl⟩
  | retryFinalizationNow batchId =>
      exact follow_of_jobUpdate _ _ rfl rfl fun job _ _ => .kept ⟨rfl, rfl, rfl, rfl⟩
  | setProviderError batchId providerError =>
      exact follow_of_jobUpdate _ _ rfl rfl fun job _ _ => .kept ⟨rfl, rfl, rfl, rfl⟩
  | attachArtifacts now run =>
      exact follow_of_jobUpdate _ _ rfl rfl fun job _ hfinal => .attached he.1 he.2 hfinal
  | cleanupArtifacts run =>
      exact ⟨_, (List.append_nil _).symm, fun job _ => .filesCleared he.1 he.2⟩
  | persistPermanentFailure now batchId workerId =>
      exact follow_of_jobUpdate _ _ rfl rfl fun job _ hfinal => .failedPermanently hfinal
  | promoteSession job items => exact follow_of_same rfl
  | _ => exact follow_of_same (List.append_nil _).symm

theorem mem_jobs_next (he : Enabled maxAttempts s e) {job' : BatchJobRow}
    (h : job' ∈ (next s e).jobs) :
    job' ∈ createdJobs e ∨ ∃ job ∈ s.jobs, JobStep s e job job' := by
  obtain ⟨f, hjobs, hstep⟩ := jobs_follow he
  rw [hjobs, List.mem_append, List.mem_map] at h
  rcases h with ⟨job, hjob, rfl⟩ | h
  · exact Or.inr ⟨job, hjob, hstep job hjob⟩
  · exact Or.inl h

theorem exists_job_next (he : Enabled maxAttempts s e) {job : BatchJobRow} (h : job ∈ s.jobs) :
    ∃ job' ∈ (next s e).jobs, JobStep s e job job' := by
  obtain ⟨f, hjobs, hstep⟩ := jobs_follow he
  refine ⟨f job, ?_, hstep job h⟩
  rw [hjobs]
  exact List.mem_append_left _ (List.mem_map_of_mem h)

end Inversion

/-- All items of a batch are terminal. -/
def BatchDone (s : BatchState) (batchId : String) : Prop :=
  ∀ item ∈ s.items, item.batchId = batchId → item.status.terminal = true

structure ProgressInvariant (s : BatchState) : Prop where
  itemKeys : (s.items.map BatchItemRow.itemId).Nodup
  reads : ∀ read ∈ s.progressReads, (∃ job ∈ s.jobs, job.batchId = read.batchId) ∧
    (read.stats.pendingItems = 0 ∧ read.stats.inProgressItems = 0 → BatchDone s read.batchId)
  finalizing : ∀ job ∈ s.jobs, job.status = .finalizing → BatchDone s job.batchId

section Progress

variable {maxAttempts : ℕ} {s : BatchState} {e : Event}

/-- Terminal items stay, and rows are only inserted under a fresh batch id. -/
private theorem batchDone_next (hkeys : (s.items.map BatchItemRow.itemId).Nodup)
    (he : Enabled maxAttempts s e) {batchId : String}
    (hjob : ∃ job ∈ s.jobs, job.batchId = batchId) (hdone : BatchDone s batchId) :
    BatchDone (next s e) batchId := by
  intro item' hitem' hbatch
  rcases mem_items_next hkeys he hitem' with hnew | ⟨item, hitem, hstep⟩
  · cases e with
    | promoteSession job items =>
        have hpromotable : Promotable s job items := he
        obtain ⟨old, hold, hid⟩ := hjob
        have hown := hpromotable.ownItems item' hnew
        exact absurd (hid.trans (hbatch.symm.trans hown)) (hpromotable.freshJob old hold)
    | _ => simp [created] at hnew
  · have hterminal := hdone item hitem (hstep.frame.2.1.symm.trans hbatch)
    rw [hstep.frame.2.2.2.2 hterminal]
    exact hterminal

private theorem mem_progressReads_next {read : ProgressRead}
    (h : read ∈ (next s e).progressReads) : read ∈ s.progressReads ∨
      ∃ batchId, e = .readProgress batchId ∧ read = ⟨batchId, progressStats batchId s.items⟩ := by
  cases e with
  | readProgress batchId =>
      rcases List.mem_cons.mp h with rfl | h
      · exact Or.inr ⟨batchId, rfl, rfl⟩
      · exact Or.inl h
  | claimWork now request locks =>
      refine Or.inl ?_
      cases hclaim : (claimNextWork request now locks s.jobs s.items).claim with
      | none => simpa [next, afterWorkClaim, hclaim] using h
      | some claim => simpa [next, afterWorkClaim, hclaim] using h
  | _ => exact Or.inl h

private theorem reads_next (hinv : ProgressInvariant s) (he : Enabled maxAttempts s e) :
    ∀ read ∈ (next s e).progressReads, (∃ job ∈ (next s e).jobs, job.batchId = read.batchId) ∧
      (read.stats.pendingItems = 0 ∧ read.stats.inProgressItems = 0 →
        BatchDone (next s e) read.batchId) := by
  intro read hread
  have hbefore : (∃ job ∈ s.jobs, job.batchId = read.batchId) ∧
      (read.stats.pendingItems = 0 ∧ read.stats.inProgressItems = 0 →
        BatchDone s read.batchId) := by
    rcases mem_progressReads_next hread with hold | ⟨batchId, rfl, rfl⟩
    · exact hinv.reads read hold
    · exact ⟨he, progressStats_done⟩
  obtain ⟨hjob, hdone⟩ := hbefore
  refine ⟨?_, fun hzero => batchDone_next hinv.itemKeys he hjob (hdone hzero)⟩
  obtain ⟨job, hmem, hid⟩ := hjob
  obtain ⟨job', hmem', hstep⟩ := exists_job_next he hmem
  exact ⟨job', hmem', hstep.batchId_eq.trans hid⟩

/-- A row that is finalizing after the event belongs to a batch that was done before it. -/
private theorem finalizing_step (hinv : ProgressInvariant s) {job job' : BatchJobRow}
    (hjob : job ∈ s.jobs) (hstep : JobStep s e job job') (hfinal : job'.status = .finalizing) :
    BatchDone s job.batchId := by
  cases hstep with
  | kept h => exact hinv.finalizing job hjob (h.2.1.symm.trans hfinal)
  | started _ _ hstarted =>
      rw [hstarted] at hfinal
      cases hfinal
  | refreshed now stats hstats =>
      rcases refreshedStatus_finalizing hfinal with hbefore | hzero
      · exact hinv.finalizing job hjob hbefore
      · rcases hstats with hread | rfl
        · exact (hinv.reads _ hread).2 hzero
        · exact progressStats_done hzero
  | attached hrun _ hfinalizable => exact hinv.finalizing job hjob hfinalizable.2.2
  | failedPermanently hfinalizable => exact hinv.finalizing job hjob hfinalizable.2.2
  | filesCleared => exact hinv.finalizing job hjob hfinal

end Progress

theorem reachable_progress {maxAttempts : ℕ} {s : BatchState}
    (hs : Reachable (batchSystem maxAttempts) s) : ProgressInvariant s := by
  refine ReachableBy.invariant (P := ProgressInvariant) ?_ ?_ hs
  · rintro s rfl
    constructor <;> simp [initialState]
  · intro s e hinv he _
    refine ⟨itemKeys_next hinv.itemKeys he, reads_next hinv he, ?_⟩
    intro job' hjob' hfinal
    rcases mem_jobs_next he hjob' with hnew | ⟨job, hjob, hstep⟩
    · cases e with
      | promoteSession job items =>
          rw [createdJobs, List.mem_singleton] at hnew
          subst hnew
          rw [(he : Promotable s job' items).queued] at hfinal
          cases hfinal
      | _ => simp [createdJobs] at hnew
    · rw [hstep.batchId_eq]
      exact batchDone_next hinv.itemKeys he ⟨job, hjob, rfl⟩
        (finalizing_step hinv hjob hstep hfinal)

/-- Every file id in a job row was created by one attached finalization run. -/
structure FilesInvariant (s : BatchState) : Prop where
  jobKeys : (s.jobs.map BatchJobRow.batchId).Nodup
  runKeys : (s.finalizations.map FinalizationRun.runId).Nodup
  disjoint : ∀ run ∈ s.finalizations, ∀ other ∈ s.finalizations, ∀ fileId ∈ run.fileIds,
    fileId ∈ other.fileIds → run.runId = other.runId
  attachedFiles : ∀ job ∈ s.jobs, ∀ fileId,
    job.outputFileId = some fileId ∨ job.errorFileId = some fileId →
      ∃ run ∈ s.finalizations, run.phase = .attached ∧ fileId ∈ run.fileIds

section Files

variable {maxAttempts : ℕ} {s : BatchState} {e : Event}

private theorem jobKeys_next (hkeys : (s.jobs.map BatchJobRow.batchId).Nodup)
    (he : Enabled maxAttempts s e) : ((next s e).jobs.map BatchJobRow.batchId).Nodup := by
  obtain ⟨f, hjobs, hstep⟩ := jobs_follow he
  have hids : (s.jobs.map f).map BatchJobRow.batchId = s.jobs.map BatchJobRow.batchId := by
    rw [List.map_map]
    exact List.map_congr_left fun job hjob => (hstep job hjob).batchId_eq
  rw [hjobs, List.map_append, hids, List.nodup_append]
  refine ⟨hkeys, ?_, ?_⟩
  · cases e with
    | promoteSession job items => exact List.nodup_singleton _
    | _ => exact List.nodup_nil
  · intro a ha b hb hab
    obtain ⟨old, hold, rfl⟩ := List.mem_map.mp ha
    obtain ⟨new, hnew, rfl⟩ := List.mem_map.mp hb
    cases e with
    | promoteSession job items =>
        rw [createdJobs, List.mem_singleton] at hnew
        subst hnew
        exact (he : Promotable s new items).freshJob old hold hab
    | _ => simp [createdJobs] at hnew

/-- What an event does to the finalization runs: it sets the phase of a run that is not
attached, it adds a run with fresh ids, or it leaves them alone. -/
private theorem finalizations_next (he : Enabled maxAttempts s e) :
    (next s e).finalizations = s.finalizations ∨
    (∃ run phase, run ∈ s.finalizations ∧ run.phase ≠ .attached ∧
      (next s e).finalizations = setPhase run.runId phase s.finalizations) ∨
    ∃ run, (next s e).finalizations = run :: s.finalizations ∧
      (∀ other ∈ s.finalizations, other.runId ≠ run.runId) ∧
      ∀ fileId ∈ run.fileIds, ∀ other ∈ s.finalizations, fileId ∉ other.fileIds := by
  cases e with
  | claimWork now request locks =>
      refine Or.inl ?_
      cases hclaim : (claimNextWork request now locks s.jobs s.items).claim with
      | none => simp [next, afterWorkClaim, hclaim]
      | some claim => simp [next, afterWorkClaim, hclaim]
  | attachArtifacts now run =>
      refine Or.inr (Or.inl ⟨run, _, he.1, ?_, rfl⟩)
      rw [he.2]
      simp
  | cleanupArtifacts run => exact Or.inr (Or.inl ⟨run, _, he.1, he.2, rfl⟩)
  | writeArtifacts runId workerId job outputFileId errorFileId =>
      exact Or.inr (Or.inr ⟨_, rfl, he.1, he.2⟩)
  | _ => exact Or.inl rfl

private theorem mem_setPhase {runId : String} {phase : FinalizationPhase}
    {runs : List FinalizationRun} {run : FinalizationRun} (h : run ∈ setPhase runId phase runs) :
    ∃ old ∈ runs, run.runId = old.runId ∧ run.fileIds = old.fileIds := by
  obtain ⟨old, hold, rfl⟩ := (mem_updateWhere _ _).mp h
  refine ⟨old, hold, ?_⟩
  split
  · exact ⟨rfl, rfl⟩
  · exact ⟨rfl, rfl⟩

private theorem runKeys_next (hinv : FilesInvariant s) (he : Enabled maxAttempts s e) :
    ((next s e).finalizations.map FinalizationRun.runId).Nodup := by
  rcases finalizations_next he with h | ⟨run, phase, _, _, h⟩ | ⟨run, h, hfresh, _⟩
  · rw [h]
    exact hinv.runKeys
  · have hids : (setPhase run.runId phase s.finalizations).map FinalizationRun.runId =
        s.finalizations.map FinalizationRun.runId := by
      apply map_updateWhere
      intro _ _
      rfl
    rw [h, hids]
    exact hinv.runKeys
  · rw [h, List.map_cons, List.nodup_cons]
    refine ⟨?_, hinv.runKeys⟩
    intro hmem
    obtain ⟨other, hother, hid⟩ := List.mem_map.mp hmem
    exact hfresh other hother hid

private theorem disjoint_next (hinv : FilesInvariant s) (he : Enabled maxAttempts s e) :
    ∀ run ∈ (next s e).finalizations, ∀ other ∈ (next s e).finalizations,
      ∀ fileId ∈ run.fileIds, fileId ∈ other.fileIds → run.runId = other.runId := by
  intro run hrun other hother fileId hfile hfile'
  rcases finalizations_next he with h | ⟨changed, phase, _, _, h⟩ | ⟨added, h, _, hfresh⟩
  · rw [h] at hrun hother
    exact hinv.disjoint run hrun other hother fileId hfile hfile'
  · rw [h] at hrun hother
    obtain ⟨old, hold, hid, hfiles⟩ := mem_setPhase hrun
    obtain ⟨old', hold', hid', hfiles'⟩ := mem_setPhase hother
    rw [hid, hid']
    exact hinv.disjoint old hold old' hold' fileId (hfiles ▸ hfile) (hfiles' ▸ hfile')
  · rw [h, List.mem_cons] at hrun hother
    rcases hrun with rfl | hrun <;> rcases hother with rfl | hother
    · rfl
    · exact absurd hfile' (hfresh fileId hfile other hother)
    · exact absurd hfile (hfresh fileId hfile' run hrun)
    · exact hinv.disjoint run hrun other hother fileId hfile hfile'

private theorem attached_stays (hinv : FilesInvariant s) (he : Enabled maxAttempts s e)
    {run : FinalizationRun} (hrun : run ∈ s.finalizations) (hattached : run.phase = .attached) :
    run ∈ (next s e).finalizations := by
  rcases finalizations_next he with h | ⟨changed, phase, hchanged, hloose, h⟩ | ⟨added, h, _⟩
  · rw [h]
    exact hrun
  · have hne : run.runId ≠ changed.runId := by
      intro hid
      rw [List.inj_on_of_nodup_map hinv.runKeys hrun hchanged hid] at hattached
      exact hloose hattached
    rw [h, setPhase, mem_updateWhere]
    exact ⟨run, hrun, by simp [hne]⟩
  · rw [h]
    exact List.mem_cons_of_mem _ hrun

/-- The file columns of a row that the event may have changed. -/
private theorem attachedFiles_step (hinv : FilesInvariant s) (he : Enabled maxAttempts s e)
    {job job' : BatchJobRow} (hjob : job ∈ s.jobs) (hstep : JobStep s e job job')
    {fileId : String} (hfile : job'.outputFileId = some fileId ∨ job'.errorFileId = some fileId) :
    ∃ run ∈ (next s e).finalizations, run.phase = .attached ∧ fileId ∈ run.fileIds := by
  have hold : job.outputFileId = some fileId ∨ job.errorFileId = some fileId →
      ∃ run ∈ (next s e).finalizations, run.phase = .attached ∧ fileId ∈ run.fileIds := by
    intro hbefore
    obtain ⟨run, hrun, hattached, hmem⟩ := hinv.attachedFiles job hjob fileId hbefore
    exact ⟨run, attached_stays hinv he hrun hattached, hattached, hmem⟩
  cases hstep with
  | kept h => exact hold (by rwa [h.2.2.1, h.2.2.2] at hfile)
  | started _ _ _ houtput herror => exact hold (by rwa [houtput, herror] at hfile)
  | refreshed => exact hold hfile
  | @attached now run _ hrun hwriting hfinal =>
      have hexists : ∃ job ∈ s.jobs, FinalizableBy run.batchId run.workerId job :=
        ⟨job, hjob, hfinal⟩
      refine ⟨{ run with phase := .attached }, ?_, rfl, ?_⟩
      · simp only [next, setPhase, hexists, if_true, mem_updateWhere]
        exact ⟨run, hrun, by simp⟩
      · simpa [FinalizationRun.fileIds, attachRow, eq_comm] using hfile
  | failedPermanently => simp [attachRow] at hfile
  | filesCleared =>
      refine hold (hfile.imp ?_ ?_) <;>
      · intro h
        simp only [clearFiles, Option.filter_eq_some_iff] at h
        exact h.1

theorem reachable_files (hs : Reachable (batchSystem maxAttempts) s) : FilesInvariant s := by
  refine ReachableBy.invariant (P := FilesInvariant) ?_ ?_ hs
  · rintro s rfl
    constructor <;> simp [initialState]
  · intro s e hinv he _
    refine ⟨jobKeys_next hinv.jobKeys he, runKeys_next hinv he, disjoint_next hinv he, ?_⟩
    intro job' hjob' fileId hfile
    rcases mem_jobs_next he hjob' with hnew | ⟨job, hjob, hstep⟩
    · cases e with
      | promoteSession job items =>
          rw [createdJobs, List.mem_singleton] at hnew
          subst hnew
          have hnone := (he : Promotable s job' items).noFiles
          rw [hnone.1, hnone.2] at hfile
          rcases hfile with h | h <;> cases h
      | _ => simp [createdJobs] at hnew
    · exact attachedFiles_step hinv he hjob hstep hfile

/-- Deleting the files of a run that is not attached clears no column of any job. -/
private theorem clearFiles_eq_self (hinv : FilesInvariant s) {run : FinalizationRun}
    (hrun : run ∈ s.finalizations) (hloose : run.phase ≠ .attached) {job : BatchJobRow}
    (hjob : job ∈ s.jobs) : clearFiles run.fileIds job = job := by
  have hkept : ∀ fileId, job.outputFileId = some fileId ∨ job.errorFileId = some fileId →
      fileId ∉ run.fileIds := by
    intro fileId hfile hmem
    obtain ⟨owner, howner, hattached, hown⟩ := hinv.attachedFiles job hjob fileId hfile
    have hid := hinv.disjoint run hrun owner howner fileId hmem hown
    rw [List.inj_on_of_nodup_map hinv.runKeys hrun howner hid] at hloose
    exact hloose hattached
  have houtput : job.outputFileId.filter (fun fileId => fileId ∉ run.fileIds) =
      job.outputFileId := by
    cases hfile : job.outputFileId with
    | none => rfl
    | some fileId => simp [hkept fileId (Or.inl hfile)]
  have herror : job.errorFileId.filter (fun fileId => fileId ∉ run.fileIds) =
      job.errorFileId := by
    cases hfile : job.errorFileId with
    | none => rfl
    | some fileId => simp [hkept fileId (Or.inr hfile)]
  rw [clearFiles, houtput, herror]

/-- No event changes the standing of a terminal job. -/
theorem terminal_step (hinv : FilesInvariant s) {job job' : BatchJobRow} (hjob : job ∈ s.jobs)
    (hterminal : job.status.terminal = true) (hstep : JobStep s e job job') :
    SameStanding job job' := by
  cases hstep with
  | kept h => exact h
  | started _ hlive =>
      rcases hlive with h | h <;> rw [h] at hterminal <;> cases hterminal
  | refreshed now stats => exact ⟨rfl, refreshedStatus_of_terminal stats hterminal, rfl, rfl⟩
  | attached _ _ hfinal =>
      rw [hfinal.2.2] at hterminal
      cases hterminal
  | failedPermanently hfinal =>
      rw [hfinal.2.2] at hterminal
      cases hterminal
  | filesCleared hrun hloose =>
      rw [clearFiles_eq_self hinv hrun hloose hjob]
      exact SameStanding.refl job

/-- The one row of a batch has this standing. -/
def StandingIs (job : BatchJobRow) (s : BatchState) : Prop :=
  (∃ row ∈ s.jobs, row.batchId = job.batchId) ∧
    ∀ row ∈ s.jobs, row.batchId = job.batchId → SameStanding job row

private theorem standing_next (hinv : FilesInvariant s) (he : Enabled maxAttempts s e)
    {job : BatchJobRow} (hterminal : job.status.terminal = true) (hstands : StandingIs job s) :
    StandingIs job (next s e) := by
  obtain ⟨⟨row, hrow, hid⟩, hall⟩ := hstands
  refine ⟨?_, ?_⟩
  · obtain ⟨row', hrow', hstep⟩ := exists_job_next he hrow
    exact ⟨row', hrow', hstep.batchId_eq.trans hid⟩
  · intro row' hrow' hid'
    rcases mem_jobs_next he hrow' with hnew | ⟨old, hold, hstep⟩
    · cases e with
      | promoteSession promoted items =>
          rw [createdJobs, List.mem_singleton] at hnew
          subst hnew
          exact absurd (hid.trans hid'.symm) ((he : Promotable s row' items).freshJob row hrow)
      | _ => simp [createdJobs] at hnew
    · have hsame := hall old hold (hstep.batchId_eq.symm.trans hid')
      have hstays := terminal_step hinv hold (hsame.2.1 ▸ hterminal) hstep
      exact ⟨hstays.1.trans hsame.1, hstays.2.1.trans hsame.2.1,
        hstays.2.2.1.trans hsame.2.2.1, hstays.2.2.2.trans hsame.2.2.2⟩

end Files

namespace FinalizedRun

def promoted : BatchState :=
  next initialState (.promoteSession (createdJob "batch-1" "/v1/embeddings" 0)
    [createdItem "item-1" "batch-1" 1 "row-1" [] 1])

def cancelled : BatchState := next promoted (.markPendingItemsCancelled 1 "batch-1")

def progressRead : ProgressRead := ⟨"batch-1", progressStats "batch-1" cancelled.items⟩

def refreshed : BatchState :=
  next (next cancelled (.readProgress "batch-1")) (.applyProgress 2 progressRead)

def leased : BatchState :=
  next refreshed (.claimNextFinalization 3 "worker-a" 30 fun _ => false)

def written : BatchState :=
  next leased (.writeArtifacts "run-1" "worker-a" (createdJob "batch-1" "/v1/embeddings" 0) none
    (some "file-1"))

def run : FinalizationRun :=
  ⟨"run-1", "batch-1", "worker-a", none, some "file-1", .completed, .writing⟩

/-- The cancelled row is in the error file, and the job is completed. -/
def finalized : BatchState := next written (.attachArtifacts 4 run)

theorem finalized_reachable : Reachable (batchSystem 3) finalized := by
  have hpromoted : Reachable (batchSystem 3) promoted :=
    Reachable.step (e := Event.promoteSession _ _) (.initial rfl)
      (promotable_created _ _ _ _ _ _ _ _)
  have hcancelled : Reachable (batchSystem 3) cancelled :=
    hpromoted.step (e := Event.markPendingItemsCancelled 1 "batch-1") trivial
  have hread : Reachable (batchSystem 3) (next cancelled (.readProgress "batch-1")) := by
    refine hcancelled.step (e := Event.readProgress "batch-1") ?_
    change ∃ job ∈ cancelled.jobs, job.batchId = "batch-1"
    decide +kernel
  have hrefreshed : Reachable (batchSystem 3) refreshed :=
    hread.step (e := Event.applyProgress 2 progressRead) List.mem_cons_self
  have hleased : Reachable (batchSystem 3) leased :=
    hrefreshed.step (e := Event.claimNextFinalization 3 "worker-a" 30 fun _ => false) trivial
  have hwritten : Reachable (batchSystem 3) written := by
    refine hleased.step (e := Event.writeArtifacts "run-1" "worker-a" _ none (some "file-1")) ?_
    have hnone : leased.finalizations = [] := rfl
    refine ⟨?_, ?_⟩ <;> simp [hnone]
  exact hwritten.step (e := Event.attachArtifacts 4 run) ⟨List.mem_cons_self, rfl⟩

end FinalizedRun

end BatchJobStatusMachine
