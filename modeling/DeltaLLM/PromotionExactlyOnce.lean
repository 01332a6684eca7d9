import DeltaLLM.PromotionSteps

/-! # Promotion happens exactly once

The row lock is held from the read of the session to the commit, so a transaction commits against
the session row it read. Job, items and the completed status appear in one commit.
-/
namespace PromotionExactlyOnce

open BatchRecords
open CreateSessions
open PromotionSteps
open SessionPromotion
open TableStatements
open TransitionRuns

/-- The line numbers of the staged artifact. -/
def stagedLines (w : Promoter) (contract : SessionContract) : List ℕ :=
  (w.staged contract.stagedStorageBackend contract.stagedStorageKey).map StagedRequest.lineNumber

def batchItems (s : State) (contract : SessionContract) : List BatchItemRow :=
  s.items.filter fun item => item.batchId = contract.targetBatchId

/-- The job exists with the expected number of items, and they carry the staged line numbers. -/
structure JobComplete (w : Promoter) (s : State) (contract : SessionContract) : Prop where
  job : ∃ job ∈ s.jobs, job.batchId = contract.targetBatchId
  count : (batchItems s contract).length = contract.expectedItemCount
  lines : (batchItems s contract).map BatchItemRow.lineNumber = stagedLines w contract

/-- Nothing of the target batch exists or ever did. -/
structure Untouched (s : State) (contract : SessionContract) : Prop where
  jobs : ∀ job ∈ s.jobs, job.batchId ≠ contract.targetBatchId
  items : ∀ item ∈ s.items, item.batchId ≠ contract.targetBatchId
  created : contract.targetBatchId ∉ s.created

/-! ## The invariant -/

/-- The spool of a session holds its staged lines. -/
structure SpoolOf (w : Promoter) (contract : SessionContract) (spool : Spool) : Prop where
  count : spool.lines.length = contract.expectedItemCount
  lines : spool.lines.map SpooledRequest.lineNumber = stagedLines w contract

/-- The transaction has inserted the job and only items of its batch. -/
structure OwnRows (tx : Transaction) : Prop where
  promotable : tx.row.status ∈ promotableStatuses
  job : ∃ job, tx.newJobs = [job] ∧ job.batchId = tx.row.contract.targetBatchId
  items : ∀ item ∈ tx.newItems, item.batchId = tx.row.contract.targetBatchId

def itemLines (tx : Transaction) : List ℕ := tx.newItems.map BatchItemRow.lineNumber

def spoolLines (lines : List SpooledRequest) : List ℕ := lines.map SpooledRequest.lineNumber

/-- What a transaction has inserted at its stage. The reconciling branch is never taken. -/
def StageInv (spool : Spool) (tx : Transaction) : Prop :=
  match tx.stage with
  | .locked => tx.newJobs = [] ∧ tx.newItems = []
  | .inserting lines => OwnRows tx ∧ ∃ done, done ++ lines = spool.lines ∧
      (itemLines tx).Sublist (spoolLines done)
  | .inserted => OwnRows tx ∧ itemLines tx = spoolLines spool.lines
  | .marked _ true => OwnRows tx ∧ itemLines tx = spoolLines spool.lines
  | .reconciling => False
  | .marked _ false => False
  | _ => tx.row.status ∈ promotableStatuses ∧ tx.newJobs = [] ∧ tx.newItems = []

def PhaseInv (w : Promoter) (contracts : List SessionContract) (s : State) (pid : ℕ) :
    Phase → Prop
  | .read session => session.contract ∈ contracts
  | .prechecked session => session.contract ∈ contracts
  | .spooled session spool => session.contract ∈ contracts ∧ SpoolOf w session.contract spool
  | .transaction session spool tx =>
      SpoolOf w session.contract spool ∧ tx.row.contract = session.contract ∧
        tx.row ∈ s.sessions ∧ s.rowLock tx.row.contract.sessionId = some pid ∧ StageInv spool tx
  | _ => True

structure Inv (w : Promoter) (contracts : List SessionContract) (s : State) : Prop where
  sessionIds : (contracts.map SessionContract.sessionId).Nodup
  batchIds : (contracts.map SessionContract.targetBatchId).Nodup
  counts : ∀ contract ∈ contracts, contract.expectedItemCount = (stagedLines w contract).length
  rowIds : (s.sessions.map fun row => row.contract.sessionId).Nodup
  known : ∀ row ∈ s.sessions, row.contract ∈ contracts
  completed : ∀ row ∈ s.sessions, row.status = .completed → JobComplete w s row.contract
  untouched : ∀ row ∈ s.sessions, row.status ≠ .completed → Untouched s row.contract
  once : ∀ contract ∈ contracts, s.created.count contract.targetBatchId ≤ 1
  phases : ∀ pid, PhaseInv w contracts s pid (s.phase pid)

variable {w : Promoter} {contracts : List SessionContract} {s s' : State} {pid : ℕ}

theorem not_completed_of_promotable {status : SessionStatus} (h : status ∈ promotableStatuses) :
    status ≠ .completed := by
  rintro rfl
  exact absurd h (by decide)

theorem inv_initial (h : Initial w contracts s) : Inv w contracts s where
  sessionIds := h.sessionIds
  batchIds := h.batchIds
  counts := by
    intro contract hcontract
    rw [stagedLines, List.length_map]
    exact h.counts contract hcontract
  rowIds := by
    have hids := h.sessionIds
    rwa [← h.rows, List.map_map] at hids
  known := by
    intro row hrow
    rw [← h.rows]
    exact List.mem_map_of_mem hrow
  completed := by
    intro row hrow hstatus
    rw [h.staged row hrow] at hstatus
    cases hstatus
  untouched := by
    intro row hrow _
    have hcontract : row.contract ∈ contracts := h.rows ▸ List.mem_map_of_mem hrow
    exact ⟨h.noJobs _ hcontract, h.noItems _ hcontract, by simp [h.created]⟩
  once := by
    intro contract _
    simp [h.created]
  phases := by
    intro pid
    rw [h.phases pid]
    trivial

/-! ## Inserting -/

theorem insertItem_some {committed own own' : List BatchItemRow} {row : BatchItemRow}
    (h : insertItem committed own row = some own') :
    ∃ added, own' = own ++ added ∧ added.Sublist [row] := by
  unfold insertItem at h
  split at h
  next =>
    obtain rfl := Option.some.inj h
    exact ⟨[], by simp, List.nil_sublist _⟩
  next =>
    split at h
    next => cases h
    next =>
      obtain rfl := Option.some.inj h
      exact ⟨[row], rfl, List.Sublist.refl _⟩

/-- An INSERT adds some of its rows in their order. -/
theorem createItems_some {committed own own' rows : List BatchItemRow}
    (h : createItems committed own rows = some own') :
    ∃ added, own' = own ++ added ∧ added.Sublist rows := by
  induction rows generalizing own with
  | nil =>
      obtain rfl : own = own' := Option.some.inj h
      exact ⟨[], by simp, List.nil_sublist _⟩
  | cons row rows ih =>
      rw [createItems, List.foldlM_cons] at h
      obtain ⟨middle, hfirst, hrest⟩ := Option.bind_eq_some_iff.mp h
      obtain ⟨added, rfl, hadded⟩ := insertItem_some hfirst
      obtain ⟨more, rfl, hmore⟩ := ih hrest
      exact ⟨added ++ more, by simp, hadded.append hmore⟩

theorem spoolStagedItems_ok {contract : SessionContract} {outcome : ReadOutcome} {spool : Spool}
    (hcount : contract.expectedItemCount = (stagedLines w contract).length)
    (h : spoolStagedItems w contract outcome = .ok spool) : SpoolOf w contract spool := by
  cases outcome with
  | lines count =>
      simp only [spoolStagedItems] at h
      split at h
      next => cases h
      next =>
        split at h
        next => cases h
        next hmatch =>
          obtain rfl := Except.ok.inj h
          have hlength := of_not_not (not_or.mp hmatch).2
          have hall : (w.staged contract.stagedStorageBackend contract.stagedStorageKey).take count =
              w.staged contract.stagedStorageBackend contract.stagedStorageKey := by
            refine List.take_of_length_le ?_
            rw [stagedLines, List.length_map] at hcount
            rw [List.length_map, List.length_take, hcount] at hlength
            omega
          refine ⟨hlength, ?_⟩
          rw [hall, List.map_map]
          rfl
  | _ => cases h

theorem stageMove_inv {spool : Spool} {tx tx' : Transaction} {locks : ℤ → Option ℕ}
    (hmove : StageMove w s pid spool tx tx' locks)
    (huntouched : tx.row.status ≠ .completed → Untouched s tx.row.contract)
    (h : StageInv spool tx) : StageInv spool tx' := by
  cases hmove with
  | readJob hstage _ hpromotable =>
      rw [StageInv, hstage] at h
      exact ⟨hpromotable, h⟩
  | reconcile hstage hjob hopen =>
      have hnone : jobById tx.row.contract.targetBatchId s.jobs = none :=
        rowWithKey_eq_none.mpr (huntouched hopen).jobs
      exact absurd hnone hjob
  | lockScope key hstage =>
      rw [StageInv, hstage] at h
      exact h
  | noPendingLimit hstage =>
      rw [StageInv, hstage] at h
      exact h
  | countActive hstage =>
      rw [StageInv, hstage] at h
      exact h
  | lockTenant key hstage =>
      rw [StageInv, hstage] at h
      exact h
  | noWorkLimit hstage =>
      rw [StageInv, hstage] at h
      exact h
  | sumQueued hstage =>
      rw [StageInv, hstage] at h
      exact h
  | createJob now hstage =>
      rw [StageInv, hstage] at h
      obtain ⟨hpromotable, -, hitems⟩ := h
      refine ⟨⟨hpromotable, ⟨_, rfl, rfl⟩, ?_⟩, [], rfl, ?_⟩
      · simp [hitems]
      · simp [itemLines, hitems]
  | createItems count itemId lines own hstage hown =>
      rw [StageInv, hstage] at h
      obtain ⟨hrows, done, hdone, hlines⟩ := h
      obtain ⟨added, rfl, hadded⟩ := createItems_some hown
      refine ⟨⟨hrows.promotable, hrows.job, ?_⟩, done ++ lines.take count, ?_, ?_⟩
      · intro item hitem
        rcases List.mem_append.mp hitem with hold | hnew
        · exact hrows.items item hold
        · obtain ⟨line, -, rfl⟩ := List.mem_map.mp (hadded.mem hnew)
          rfl
      · rw [List.append_assoc, List.take_append_drop, hdone]
      · have hnew : (added.map BatchItemRow.lineNumber).Sublist
          (spoolLines (lines.take count)) := by
          have hmapped := hadded.map BatchItemRow.lineNumber
          rw [List.map_map] at hmapped
          exact hmapped
        rw [itemLines, spoolLines, List.map_append, List.map_append]
        exact hlines.append hnew
  | inserted hstage hlength =>
      rw [StageInv, hstage] at h
      obtain ⟨hrows, done, hdone, hlines⟩ := h
      rw [List.append_nil] at hdone
      refine ⟨⟨hrows.promotable, hrows.job, hrows.items⟩, ?_⟩
      rw [hdone] at hlines
      refine hlines.eq_of_length ?_
      rw [itemLines, spoolLines, List.length_map, List.length_map, hlength]
  | mark now hstage =>
      rw [StageInv, hstage] at h
      exact ⟨⟨h.1.promotable, h.1.job, h.1.items⟩, h.2⟩
  | markReconciled now hstage =>
      rw [StageInv, hstage] at h
      exact h

/-! ## What a step leaves to the other processes -/

/-- Another process finds its phase, its locks and the rows it locked as they were. -/
structure KeepsOthers (pid : ℕ) (s s' : State) : Prop where
  phase : ∀ q, q ≠ pid → s'.phase q = s.phase q
  rowLock : ∀ q, q ≠ pid → ∀ sessionId, s.rowLock sessionId = some q →
    s'.rowLock sessionId = some q
  rows : ∀ q, q ≠ pid → ∀ row ∈ s.sessions, s.rowLock row.contract.sessionId = some q →
    row ∈ s'.sessions

theorem PhaseInv.keep {q : ℕ} {phase : Phase}
    (hlock : ∀ sessionId, s.rowLock sessionId = some q → s'.rowLock sessionId = some q)
    (hrows : ∀ row ∈ s.sessions, s.rowLock row.contract.sessionId = some q → row ∈ s'.sessions)
    (h : PhaseInv w contracts s q phase) : PhaseInv w contracts s' q phase := by
  cases phase with
  | transaction session spool tx =>
      obtain ⟨hspool, hcontract, hrow, hlocked, hstage⟩ := h
      exact ⟨hspool, hcontract, hrows tx.row hrow hlocked, hlock _ hlocked, hstage⟩
  | _ => exact h

/-- A step of one process keeps the phases of all, if its own phase is in order. -/
theorem phases_of_keeps (hinv : Inv w contracts s) (hkeep : KeepsOthers pid s s')
    (hown : PhaseInv w contracts s' pid (s'.phase pid)) :
    ∀ q, PhaseInv w contracts s' q (s'.phase q) := by
  intro q
  by_cases hq : q = pid
  · rw [hq]
    exact hown
  · rw [hkeep.phase q hq]
    exact (hinv.phases q).keep (hkeep.rowLock q hq) (hkeep.rows q hq)

theorem setPhase_phase_self (s : State) (pid : ℕ) (phase : Phase) :
    (s.setPhase pid phase).phase pid = phase := Function.update_self ..

theorem setPhase_phase_other (s : State) {pid q : ℕ} (phase : Phase) (h : q ≠ pid) :
    (s.setPhase pid phase).phase q = s.phase q := Function.update_of_ne h ..

/-- Locks taken by one process are no locks of another. -/
theorem update_keeps_other {κ : Type*} [DecidableEq κ] {locks : κ → Option ℕ} {key key' : κ}
    {q : ℕ} (hfree : locks key = none ∨ locks key = some pid) (hq : q ≠ pid)
    (h : locks key' = some q) : Function.update locks key (some pid) key' = some q := by
  by_cases hkey : key' = key
  · subst hkey
    rcases hfree with hfree | hfree
    · rw [hfree] at h
      cases h
    · rw [hfree] at h
      exact absurd (Option.some.inj h).symm hq
  · rwa [Function.update_of_ne hkey]

theorem release_rowLock {q : ℕ} {sessionId : String} (hq : q ≠ pid)
    (h : s.rowLock sessionId = some q) : (s.release pid).rowLock sessionId = some q := by
  have hne : s.rowLock sessionId ≠ some pid := by
    rw [h]
    exact fun heq => hq (Option.some.inj heq)
  exact (if_neg hne).trans h

/-! ## The invariant along a run -/

/-- The batch tables are as they were. -/
structure SameBatches (s s' : State) : Prop where
  jobs : s'.jobs = s.jobs
  items : s'.items = s.items
  created : s'.created = s.created

theorem Untouched.same {contract : SessionContract} (hsame : SameBatches s s')
    (h : Untouched s contract) : Untouched s' contract := by
  refine ⟨?_, ?_, ?_⟩
  · rw [hsame.jobs]
    exact h.jobs
  · rw [hsame.items]
    exact h.items
  · rw [hsame.created]
    exact h.created

theorem JobComplete.same {contract : SessionContract} (hsame : SameBatches s s')
    (h : JobComplete w s contract) : JobComplete w s' contract := by
  have hitems : batchItems s' contract = batchItems s contract := by
    rw [batchItems, hsame.items, batchItems]
  refine ⟨?_, ?_, ?_⟩
  · rw [hsame.jobs]
    exact h.job
  · rw [hitems]
    exact h.count
  · rw [hitems]
    exact h.lines

theorem inv_of_sameTables (hinv : Inv w contracts s) (hsessions : s'.sessions = s.sessions)
    (hsame : SameBatches s s')
    (hphases : ∀ q, PhaseInv w contracts s' q (s'.phase q)) : Inv w contracts s' where
  sessionIds := hinv.sessionIds
  batchIds := hinv.batchIds
  counts := hinv.counts
  rowIds := hsessions ▸ hinv.rowIds
  known := hsessions ▸ hinv.known
  completed := by
    rw [hsessions]
    exact fun row hrow hstatus => (hinv.completed row hrow hstatus).same hsame
  untouched := by
    rw [hsessions]
    exact fun row hrow hstatus => (hinv.untouched row hrow hstatus).same hsame
  once := hsame.created ▸ hinv.once
  phases := hphases

theorem setPhase_keeps (s : State) (pid : ℕ) (phase : Phase) :
    KeepsOthers pid s (s.setPhase pid phase) where
  phase := fun _ hq => setPhase_phase_other s phase hq
  rowLock := fun _ _ _ h => h
  rows := fun _ _ _ hrow _ => hrow

theorem rollback_keeps (s : State) (pid : ℕ) (phase : Phase) :
    KeepsOthers pid s (s.rollback pid phase) where
  phase := fun _ hq => setPhase_phase_other (s.release pid) phase hq
  rowLock := fun _ hq _ h => release_rowLock hq h
  rows := fun _ _ _ hrow _ => hrow

theorem phaseMove_inv (hinv : Inv w contracts s) {phase phase' : Phase}
    (hmove : PhaseMove w s phase phase') (h : PhaseInv w contracts s pid phase) :
    PhaseInv w contracts (s.setPhase pid phase') pid phase' := by
  cases hmove with
  | read _ hsession _ => exact hinv.known _ hsession
  | precheck session => exact h
  | spool hspool => exact ⟨h, spoolStagedItems_ok (hinv.counts _ h) hspool⟩
  | _ => trivial

/-- A row under a lock is the row of its session. -/
theorem row_eq (hinv : Inv w contracts s) {row row' : SessionRow} (hrow : row ∈ s.sessions)
    (hrow' : row' ∈ s.sessions) (hid : row.contract.sessionId = row'.contract.sessionId) :
    row = row' :=
  List.inj_on_of_nodup_map hinv.rowIds hrow hrow' hid

theorem contract_eq_of_sessionId (hinv : Inv w contracts s) {c c' : SessionContract}
    (hc : c ∈ contracts) (hc' : c' ∈ contracts) (hid : c.sessionId = c'.sessionId) : c = c' :=
  List.inj_on_of_nodup_map hinv.sessionIds hc hc' hid

theorem contract_eq_of_batchId (hinv : Inv w contracts s) {c c' : SessionContract}
    (hc : c ∈ contracts) (hc' : c' ∈ contracts) (hid : c.targetBatchId = c'.targetBatchId) :
    c = c' :=
  List.inj_on_of_nodup_map hinv.batchIds hc hc' hid

theorem ended_inv {session : SessionRow} {phase : Phase} (h : Ended session phase) :
    PhaseInv w contracts s' pid phase := by
  cases h <;> trivial

/-- An UPDATE on one session that leaves the contract alone. -/
theorem mem_updateSession {sessionId : String} {statuses : List SessionStatus}
    {set : SessionRow → SessionRow} {rows : List SessionRow} {row' : SessionRow}
    (h : row' ∈ updateSession sessionId statuses set rows) :
    (row' ∈ rows ∧ ¬(row'.contract.sessionId = sessionId ∧ row'.status ∈ statuses)) ∨
      ∃ row ∈ rows, row.contract.sessionId = sessionId ∧ row.status ∈ statuses ∧
        row' = set row := by
  obtain ⟨row, hrow, rfl⟩ := (mem_updateWhere _ _).mp h
  by_cases hmatch : row.contract.sessionId = sessionId ∧ row.status ∈ statuses
  · rw [if_pos hmatch]
    exact .inr ⟨row, hrow, hmatch.1, hmatch.2, rfl⟩
  · rw [if_neg hmatch]
    exact .inl ⟨hrow, hmatch⟩

theorem mem_updateSession_other {sessionId : String} {statuses : List SessionStatus}
    {set : SessionRow → SessionRow} {rows : List SessionRow} {row : SessionRow} (hrow : row ∈ rows)
    (h : ¬(row.contract.sessionId = sessionId ∧ row.status ∈ statuses)) :
    row ∈ updateSession sessionId statuses set rows :=
  (mem_updateWhere _ _).mpr ⟨row, hrow, (if_neg h).symm⟩

theorem nodup_updateSession {sessionId : String} {statuses : List SessionStatus}
    {set : SessionRow → SessionRow} (hset : ∀ row, (set row).contract = row.contract)
    {rows : List SessionRow} (h : (rows.map fun row => row.contract.sessionId).Nodup) :
    ((updateSession sessionId statuses set rows).map fun row => row.contract.sessionId).Nodup := by
  rw [updateSession, map_updateWhere _ _ _ fun row _ => by rw [hset row]]
  exact h

/-! ### Commits -/

section Commit

variable {spool : Spool} {tx : Transaction} {completedAt : Timestamp} {phase : Phase}

theorem commit_keeps (hlock : s.rowLock tx.row.contract.sessionId = some pid) :
    KeepsOthers pid s (s.commit pid tx completedAt phase) where
  phase := fun q hq => (rollback_keeps s pid phase).phase q hq
  rowLock := fun q hq => (rollback_keeps s pid phase).rowLock q hq
  rows := by
    intro q hq row hrow hlocked
    refine mem_updateSession_other hrow fun hmatch => ?_
    rw [hmatch.1, hlock] at hlocked
    exact hq (Option.some.inj hlocked).symm

/-- The batch of a session that the transaction does not promote stays as it was. -/
theorem commit_other {contract : SessionContract} (hrows : OwnRows tx)
    (hne : contract.targetBatchId ≠ tx.row.contract.targetBatchId) :
    batchItems (s.commit pid tx completedAt phase) contract = batchItems s contract ∧
      ∀ job ∈ tx.newJobs, job.batchId ≠ contract.targetBatchId := by
  constructor
  · have hnone : tx.newItems.filter (fun item => item.batchId = contract.targetBatchId) = [] := by
      rw [List.filter_eq_nil_iff]
      intro item hitem
      rw [hrows.items item hitem]
      simpa using hne.symm
    rw [batchItems, State.commit, List.filter_append, hnone, List.append_nil, batchItems]
  · obtain ⟨job, hjobs, hbatch⟩ := hrows.job
    intro other hother
    rw [hjobs, List.mem_singleton] at hother
    rw [hother, hbatch]
    exact hne.symm

theorem commit_jobComplete_other {contract : SessionContract} (hrows : OwnRows tx)
    (hne : contract.targetBatchId ≠ tx.row.contract.targetBatchId)
    (h : JobComplete w s contract) :
      JobComplete w (s.commit pid tx completedAt phase) contract := by
  obtain ⟨hitems, -⟩ := @commit_other s pid tx completedAt phase contract hrows hne
  obtain ⟨job, hjob, hbatch⟩ := h.job
  refine ⟨⟨job, List.mem_append_left _ hjob, hbatch⟩, ?_, ?_⟩
  · rw [hitems]
    exact h.count
  · rw [hitems]
    exact h.lines

theorem commit_untouched_other {contract : SessionContract} (hrows : OwnRows tx)
    (hne : contract.targetBatchId ≠ tx.row.contract.targetBatchId) (h : Untouched s contract) :
    Untouched (s.commit pid tx completedAt phase) contract := by
  obtain ⟨-, hjobs⟩ := @commit_other s pid tx completedAt phase contract hrows hne
  refine ⟨?_, ?_, ?_⟩
  · intro job hjob
    rcases List.mem_append.mp hjob with hold | hnew
    · exact h.jobs job hold
    · exact hjobs job hnew
  · intro item hitem
    rcases List.mem_append.mp hitem with hold | hnew
    · exact h.items item hold
    · rw [hrows.items item hnew]
      exact hne.symm
  · intro hmem
    rcases List.mem_append.mp hmem with hold | hnew
    · exact h.created hold
    · obtain ⟨job, hjob, hbatch⟩ := List.mem_map.mp hnew
      exact hjobs job hjob hbatch

/-- The commit completes the job of an untouched session. -/
theorem commit_jobComplete (hspool : SpoolOf w tx.row.contract spool) (hrows : OwnRows tx)
    (hlines : itemLines tx = spoolLines spool.lines) (h : Untouched s tx.row.contract) :
    JobComplete w (s.commit pid tx completedAt phase) tx.row.contract := by
  have hold : s.items.filter (fun item => item.batchId = tx.row.contract.targetBatchId) = [] := by
    rw [List.filter_eq_nil_iff]
    intro item hitem
    simpa using h.items item hitem
  have hnew : tx.newItems.filter (fun item => item.batchId = tx.row.contract.targetBatchId) =
      tx.newItems := by
    rw [List.filter_eq_self]
    intro item hitem
    simpa using hrows.items item hitem
  have hitems : batchItems (s.commit pid tx completedAt phase) tx.row.contract = tx.newItems := by
    rw [batchItems, State.commit, List.filter_append, hold, hnew, List.nil_append]
  obtain ⟨job, hjobs, hbatch⟩ := hrows.job
  refine ⟨⟨job, ?_, hbatch⟩, ?_, ?_⟩
  · exact List.mem_append_right _ (hjobs ▸ List.mem_singleton_self job)
  · have hlength := congrArg List.length hlines
    rw [itemLines, spoolLines, List.length_map, List.length_map] at hlength
    rw [hitems, hlength]
    exact hspool.count
  · rw [hitems]
    exact hlines.trans hspool.lines

theorem commit_inv (hinv : Inv w contracts s) {session : SessionRow}
    (hphase : PhaseInv w contracts s pid (.transaction session spool tx)) {promoted : Bool}
    (hstage : tx.stage = .marked completedAt promoted) (hended : Ended session phase) :
    Inv w contracts (s.commit pid tx completedAt phase) := by
  obtain ⟨hspool, hcontract, hrow, hlock, hinserted⟩ := hphase
  rw [StageInv, hstage] at hinserted
  cases promoted with
  | false => exact hinserted.elim
  | true =>
      obtain ⟨hrows, hlines⟩ := hinserted
      rw [← hcontract] at hspool
      have hopen := hinv.untouched tx.row hrow (not_completed_of_promotable hrows.promotable)
      have hother : ∀ row ∈ s.sessions, row.contract.sessionId ≠ tx.row.contract.sessionId →
          row.contract.targetBatchId ≠ tx.row.contract.targetBatchId := by
        intro row hmem hne hbatch
        have hsame := contract_eq_of_batchId hinv (hinv.known row hmem) (hinv.known _ hrow) hbatch
        exact hne (by rw [hsame])
      have hset : ∀ row, (completedSession completedAt row).contract = row.contract := fun _ => rfl
      refine ⟨hinv.sessionIds, hinv.batchIds, hinv.counts, nodup_updateSession hset hinv.rowIds,
        ?_, ?_, ?_, ?_, ?_⟩
      · intro row hmem
        rcases mem_updateSession hmem with ⟨hold, -⟩ | ⟨old, hold, -, -, rfl⟩
        · exact hinv.known row hold
        · exact hinv.known old hold
      · intro row hmem hstatus
        rcases mem_updateSession hmem with ⟨hold, hkept⟩ | ⟨old, hold, hid, -, rfl⟩
        · have hne : row.contract.sessionId ≠ tx.row.contract.sessionId := by
            intro hid
            obtain rfl := row_eq hinv hold hrow hid
            exact hkept ⟨rfl, hrows.promotable⟩
          exact commit_jobComplete_other hrows (hother row hold hne)
            (hinv.completed row hold hstatus)
        · obtain rfl := row_eq hinv hold hrow hid
          exact commit_jobComplete hspool hrows hlines hopen
      · intro row hmem hstatus
        rcases mem_updateSession hmem with ⟨hold, hkept⟩ | ⟨old, hold, hid, -, rfl⟩
        · have hne : row.contract.sessionId ≠ tx.row.contract.sessionId := by
            intro hid
            obtain rfl := row_eq hinv hold hrow hid
            exact hkept ⟨rfl, hrows.promotable⟩
          exact commit_untouched_other hrows (hother row hold hne)
            (hinv.untouched row hold hstatus)
        · exact absurd rfl hstatus
      · intro contract hmem
        obtain ⟨job, hjobs, hbatch⟩ := hrows.job
        rw [State.commit, List.count_append, hjobs, List.map_singleton, hbatch]
        by_cases hsame : tx.row.contract.targetBatchId = contract.targetBatchId
        · rw [← hsame, List.count_eq_zero_of_not_mem hopen.created, List.count_singleton_self]
        · rw [List.count_singleton, if_neg (by simpa using hsame)]
          exact hinv.once contract hmem
      · refine phases_of_keeps hinv (commit_keeps hlock) ?_
        have hnow : (s.commit pid tx completedAt phase).phase pid = phase :=
          setPhase_phase_self (s.release pid) pid phase
        rw [hnow]
        exact ended_inv hended

end Commit

/-! ### The other steps -/

theorem failed_not_completed (error : PromotionError) (now : Timestamp) (row : SessionRow) :
    (failedSession error now row).status ≠ .completed := by
  cases hretryable : error.retryable <;> simp [failedSession, hretryable]

section Record

variable {sessionId : String} {error : PromotionError} {now : Timestamp}

theorem record_keeps (hfree : s.rowLock sessionId = none) :
    KeepsOthers pid s (s.recordFailure pid sessionId error now) where
  phase := fun _ hq => setPhase_phase_other _ _ hq
  rowLock := fun _ _ _ h => h
  rows := by
    intro q _ row hrow hlocked
    refine mem_updateSession_other hrow fun hmatch => ?_
    rw [hmatch.1, hfree] at hlocked
    cases hlocked

theorem record_inv (hinv : Inv w contracts s) (hfree : s.rowLock sessionId = none) :
    Inv w contracts (s.recordFailure pid sessionId error now) := by
  have hsame : SameBatches s (s.recordFailure pid sessionId error now) := ⟨rfl, rfl, rfl⟩
  have hset : ∀ row, (failedSession error now row).contract = row.contract := fun _ => rfl
  refine ⟨hinv.sessionIds, hinv.batchIds, hinv.counts, nodup_updateSession hset hinv.rowIds,
    ?_, ?_, ?_, hinv.once, ?_⟩
  · intro row hmem
    rcases mem_updateSession hmem with ⟨hold, -⟩ | ⟨old, hold, -, -, rfl⟩
    · exact hinv.known row hold
    · exact hinv.known old hold
  · intro row hmem hstatus
    rcases mem_updateSession hmem with ⟨hold, -⟩ | ⟨old, -, -, -, rfl⟩
    · exact (hinv.completed row hold hstatus).same hsame
    · exact absurd hstatus (failed_not_completed error now old)
  · intro row hmem hstatus
    rcases mem_updateSession hmem with ⟨hold, -⟩ | ⟨old, hold, -, hpromotable, rfl⟩
    · exact (hinv.untouched row hold hstatus).same hsame
    · exact (hinv.untouched old hold (not_completed_of_promotable hpromotable)).same hsame
  · refine phases_of_keeps hinv (record_keeps hfree) ?_
    rw [State.recordFailure, setPhase_phase_self]
    trivial

end Record

theorem delete_inv (hinv : Inv w contracts s) {candidate : SessionRow}
    (hfree : s.rowLock candidate.contract.sessionId = none) :
    Inv w contracts (deleteCandidate candidate s) := by
  have hsame : SameBatches s (deleteCandidate candidate s) := ⟨rfl, rfl, rfl⟩
  have hold : ∀ row ∈ (deleteCandidate candidate s).sessions, row ∈ s.sessions :=
    fun row hrow => (List.mem_filter.mp hrow).1
  refine ⟨hinv.sessionIds, hinv.batchIds, hinv.counts, ?_, ?_, ?_, ?_, hinv.once, ?_⟩
  · exact (List.filter_sublist.map _).nodup hinv.rowIds
  · exact fun row hrow => hinv.known row (hold row hrow)
  · exact fun row hrow hstatus => (hinv.completed row (hold row hrow) hstatus).same hsame
  · exact fun row hrow hstatus => (hinv.untouched row (hold row hrow) hstatus).same hsame
  · intro q
    have hrows : ∀ row ∈ s.sessions, s.rowLock row.contract.sessionId = some q →
        row ∈ (deleteCandidate candidate s).sessions := by
      intro row hrow hlocked
      refine List.mem_filter.mpr ⟨hrow, decide_eq_true fun hmatch => ?_⟩
      rw [hmatch.1, hfree] at hlocked
      cases hlocked
    exact PhaseInv.keep (s := s) (fun _ h => h) hrows (hinv.phases q)

/-- Ending jobs removes none. -/
theorem mem_endJob {batchId : String} {status : BatchJobStatus} {jobs : List BatchJobRow}
    {target : String} :
    (∃ job ∈ endJob batchId status jobs, job.batchId = target) ↔
      ∃ job ∈ jobs, job.batchId = target := by
  have hids : (endJob batchId status jobs).map BatchJobRow.batchId =
      jobs.map BatchJobRow.batchId :=
    map_updateWhere _ (fun job => { job with status }) _ (fun _ _ => rfl) jobs
  have hmem : target ∈ (endJob batchId status jobs).map BatchJobRow.batchId ↔
      target ∈ jobs.map BatchJobRow.batchId := by rw [hids]
  simpa using hmem

theorem endJob_inv (hinv : Inv w contracts s) (batchId : String) (status : BatchJobStatus) :
    Inv w contracts { s with jobs := endJob batchId status s.jobs } := by
  have hphases : ∀ q, PhaseInv w contracts { s with jobs := endJob batchId status s.jobs } q
      (s.phase q) := fun q => (hinv.phases q).keep (fun _ h => h) fun _ hrow _ => hrow
  refine ⟨hinv.sessionIds, hinv.batchIds, hinv.counts, hinv.rowIds, hinv.known, ?_, ?_, hinv.once,
    hphases⟩
  · intro row hrow hstatus
    have h := hinv.completed row hrow hstatus
    exact ⟨mem_endJob.mpr h.job, h.count, h.lines⟩
  · intro row hrow hstatus
    have h := hinv.untouched row hrow hstatus
    refine ⟨fun job hjob hbatch => ?_, h.items, h.created⟩
    obtain ⟨old, hold, hsame⟩ := mem_endJob.mp ⟨job, hjob, hbatch⟩
    exact h.jobs old hold hsame

theorem process_inv (hinv : Inv w contracts s) {phase : Phase} (hphase : s.phase pid = phase)
    (h : ProcessEffect w s pid phase s') : Inv w contracts s' := by
  have hown := hinv.phases pid
  rw [hphase] at hown
  cases h with
  | move hmove =>
      refine inv_of_sameTables hinv rfl ⟨rfl, rfl, rfl⟩
        (phases_of_keeps hinv (setPhase_keeps _ _ _) ?_)
      rw [setPhase_phase_self]
      exact phaseMove_inv hinv hmove hown
  | lockSession now hfree hrow =>
      obtain ⟨hcontract, hspool⟩ := hown
      obtain ⟨hmem, hid⟩ := rowWithKey_some hrow
      have hsame := contract_eq_of_sessionId hinv (hinv.known _ hmem) hcontract hid
      refine inv_of_sameTables hinv rfl ⟨rfl, rfl, rfl⟩
        (phases_of_keeps hinv (?_ : KeepsOthers pid _ _) ?_)
      · refine ⟨fun q hq => setPhase_phase_other _ _ hq, ?_, fun _ _ _ hrow _ => hrow⟩
        exact fun q hq sessionId h => update_keeps_other (.inl hfree) hq h
      · rw [setPhase_phase_self]
        refine ⟨hspool, hsame, hmem, ?_, rfl, rfl⟩
        rw [hid]
        exact Function.update_self ..
  | record now hfree => exact record_inv hinv hfree
  | transaction heffect =>
      cases heffect with
      | advance hmove =>
          obtain ⟨hspool, hcontract, hrow, hlock, hstage⟩ := hown
          refine inv_of_sameTables hinv rfl ⟨rfl, rfl, rfl⟩
            (phases_of_keeps hinv (?_ : KeepsOthers pid _ _) ?_)
          · exact ⟨fun q hq =>
              setPhase_phase_other _ _ hq, fun _ _ _ h => h, fun _ _ _ hrow _ => hrow⟩
          · rw [setPhase_phase_self]
            have hnext := stageMove_inv hmove (hinv.untouched _ hrow) hstage
            rw [← hmove.fixed.1] at hcontract hrow hlock
            exact ⟨hspool, hcontract, hrow, hlock, hnext⟩
      | rollback hended =>
          refine inv_of_sameTables hinv rfl ⟨rfl, rfl, rfl⟩
            (phases_of_keeps hinv (rollback_keeps s pid _) ?_)
          rw [State.rollback, setPhase_phase_self]
          exact ended_inv hended
      | commit completedAt promoted hstage hended => exact commit_inv hinv hown hstage hended

theorem step_inv (hinv : Inv w contracts s) {e : Event} (h : step w s e = some s') :
    Inv w contracts s' := by
  cases e with
  | process pid statement => exact process_inv hinv rfl (processStep_effect h)
  | listCandidates cutoffs =>
      obtain rfl := Option.some.inj h
      exact inv_of_sameTables hinv rfl ⟨rfl, rfl, rfl⟩ hinv.phases
  | deleteCandidate candidate =>
      rw [step] at h
      split at h
      next hguard =>
        obtain rfl := Option.some.inj h
        exact delete_inv hinv hguard.2
      next => cases h
  | deleteArtifact backend key =>
      rw [step] at h
      split at h
      next =>
        obtain rfl := Option.some.inj h
        exact inv_of_sameTables hinv rfl ⟨rfl, rfl, rfl⟩ hinv.phases
      next => cases h
  | endJob batchId status =>
      rw [step] at h
      split at h
      next =>
        obtain rfl := Option.some.inj h
        exact endJob_inv hinv batchId status
      next => cases h

theorem reachable_inv (hs : Reachable (promotionSystem w contracts) s) : Inv w contracts s :=
  Reachable.invariant (P := Inv w contracts) (fun _ h => inv_initial h) (fun s e hinv he => by
    obtain ⟨s', hs'⟩ := Option.isSome_iff_exists.mp he
    have hnext : (promotionSystem w contracts).next s e = s' := by
      simp [promotionSystem, hs']
    rw [hnext]
    exact step_inv hinv hs') hs

/-! ## Final sessions -/

/-- A step leaves completed and permanently failed rows alone, except that cleanup deletes them. -/
theorem final_row_kept {e : Event} (h : step w s e = some s')
    {row : SessionRow} (hrow : row ∈ s.sessions) (hfinal : row.status ∉ promotableStatuses) :
    row ∈ s'.sessions ∨ ∃ candidate, e = .deleteCandidate candidate := by
  have hupdated : ∀ sessionId set,
    row ∈ updateSession sessionId promotableStatuses set s.sessions :=
    fun sessionId set => mem_updateSession_other hrow fun hmatch => hfinal hmatch.2
  cases e with
  | process pid statement =>
      left
      have heffect := processStep_effect h
      generalize s.phase pid = phase at heffect
      cases heffect with
      | move _ => exact hrow
      | lockSession now _ _ => exact hrow
      | record now _ => exact hupdated _ _
      | transaction heffect =>
          cases heffect with
          | advance _ => exact hrow
          | rollback _ => exact hrow
          | commit completedAt promoted _ _ => exact hupdated _ _
  | deleteCandidate candidate => exact .inr ⟨candidate, rfl⟩
  | listCandidates cutoffs =>
      obtain rfl := Option.some.inj h
      exact .inl hrow
  | deleteArtifact backend key =>
      rw [step] at h
      split at h
      next =>
        obtain rfl := Option.some.inj h
        exact .inl hrow
      next => cases h
  | endJob batchId status =>
      rw [step] at h
      split at h
      next =>
        obtain rfl := Option.some.inj h
        exact .inl hrow
      next => cases h

theorem step_of_enabled {e : Event} (h : (promotionSystem w contracts).enabled s e) :
    step w s e = some ((promotionSystem w contracts).next s e) := by
  obtain ⟨s', hs'⟩ := Option.isSome_iff_exists.mp h
  simp [promotionSystem, hs']

theorem completed_iff (hinv : Inv w contracts s) {row : SessionRow} (hrow : row ∈ s.sessions) :
    row.status = .completed ↔ JobComplete w s row.contract := by
  constructor
  · exact hinv.completed row hrow
  · intro hjob
    by_contra hopen
    obtain ⟨job, hmem, hbatch⟩ := hjob.job
    exact (hinv.untouched row hrow hopen).jobs job hmem hbatch

namespace Counterexample

/-- Two staged lines, no limits. -/
def promoter : Promoter where
  metadataRetention := 30
  maxPendingBatchesPerScope := 1
  insertChunkSize := 500
  softPrecheckEnabled := true
  schedulerVersion := "fifo_v1"
  strictModelHomogeneityEnabled := false
  defaultServiceTier := "standard"
  tenantScopePreference := []
  tenantMaxQueuedWorkUnits := 0
  resolveModelGroup := id
  estimateRequestWorkUnits := fun _ _ => 1
  text := fun _ => "text-embedding-3-small"
  sha256 := fun _ => ""
  digest_spaceFree := fun _ _ hc => absurd hc List.not_mem_nil
  lockKey := fun _ _ => 7
  staged := fun _ _ =>
    [⟨1, "a", [], none, none, some 3, none⟩, ⟨2, "b", [], none, none, some 2, none⟩]

def contract : SessionContract where
  sessionId := "session-1"
  targetBatchId := "batch-1"
  endpoint := "/v1/embeddings"
  stagedStorageBackend := "local"
  stagedStorageKey := "stage-1"
  expectedItemCount := 2
  inferredModel := none
  effectiveServiceTier := none
  createdByApiKey := some "key-1"
  createdByUserId := none
  createdByTeamId := some "team-1"
  createdByOrganizationId := none
  createdAt := 0

/-- One staged session and nothing else. -/
def stagedState : State where
  sessions := [⟨contract, .staged, none, none, 0, none, none, none⟩]
  jobs := []
  items := []
  artifacts := [("local", "stage-1")]
  listed := []
  dropped := []
  phase := fun _ => .idle
  rowLock := fun _ => none
  advisoryLock := fun _ => none
  created := []

/-- A promotion that reads an invalid artifact and records the failure. -/
def invalidPromotion : List Event :=
  [.process 0 (.getSession "session-1"), .process 0 .precheck,
    .process 0 (.spool (.invalid "line 1")), .process 0 (.recordFailure 10),
    .listCandidates ⟨100, 50, 50, 50, 200⟩]

/-- A promotion from the first read to the commit. -/
def promotion : List Event :=
  [.process 0 (.getSession "session-1"), .process 0 .precheck, .process 0 (.spool (.lines 2)),
    .process 0 (.lockSession 5), .process 0 .readJob, .process 0 .lockScope,
      .process 0 .countActive,
    .process 0 .sumQueued, .process 0 (.createJob 6),
      .process 0 (.createItems fun line => line.customId),
    .process 0 (.createItems fun line => line.customId), .process 0 (.markCompleted 7),
    .process 0 .commit]

/-- The failed row that the pass has listed. -/
def failedRow : SessionRow where
  contract := contract
  status := .failedPermanent
  lastErrorCode := some "staged_artifact_invalid"
  lastErrorMessage := some "Staged batch create artifact is invalid: line 1"
  promotionAttemptCount := 1
  completedAt := none
  lastAttemptAt := some 10
  expiresAt := none

instance (s : State) (e : Event) : Decidable ((promotionSystem promoter [contract]).enabled s e) :=
  inferInstanceAs (Decidable (_ = true))

theorem staged_reachable : Reachable (promotionSystem promoter [contract]) stagedState := by
  refine .initial ⟨by simp, by simp, rfl, ?_, ?_, ?_, ?_, ?_, ?_, ?_, rfl, rfl, rfl⟩
  · simp [stagedState]
  · simp [contract, promoter]
  · simp [stagedState]
  · simp [stagedState]
  · exact fun _ => rfl
  · exact fun _ => rfl
  · exact fun _ => rfl

def failedState : State :=
  invalidPromotion.foldl (promotionSystem promoter [contract]).next stagedState

def promotedState : State := promotion.foldl (promotionSystem promoter [contract]).next stagedState

theorem failed_reachable : Reachable (promotionSystem promoter [contract]) failedState :=
  staged_reachable.fires (by decide +kernel)

theorem promoted_reachable : Reachable (promotionSystem promoter [contract]) promotedState :=
  staged_reachable.fires (by decide +kernel)

end Counterexample

open Counterexample in
/-- Cleanup removes a permanently failed session although it has no job. -/
theorem failed_session_removed_without_job :
    Reachable (promotionSystem promoter [contract]) failedState ∧
      failedRow ∈ failedState.sessions ∧ failedRow.status = .failedPermanent ∧
      (promotionSystem promoter [contract]).enabled failedState (.deleteCandidate failedRow) ∧
      failedRow ∉ ((promotionSystem promoter [contract]).next failedState
        (.deleteCandidate failedRow)).sessions ∧
      ∀ job ∈ ((promotionSystem promoter [contract]).next failedState
        (.deleteCandidate failedRow)).jobs, job.batchId ≠ failedRow.contract.targetBatchId :=
  ⟨failed_reachable, by decide +kernel, rfl, by decide +kernel, by decide +kernel,
    by decide +kernel⟩

/-- At most one job is ever created for a session, a session is completed exactly when that job
exists with the staged lines, and a completed or permanently failed row stays as it is until cleanup
removes it: a completed one with its job in place, a failed one that never had a job. -/
theorem promotion_exactly_once (hs : Reachable (promotionSystem w contracts) s) :
    (∀ contract ∈ contracts, s.created.count contract.targetBatchId ≤ 1) ∧
      (∀ row ∈ s.sessions, row.status = .completed ↔ JobComplete w s row.contract) ∧
      ∀ e, (promotionSystem w contracts).enabled s e → ∀ row ∈ s.sessions,
        row.status = .completed ∨ row.status = .failedPermanent →
        row ∈ ((promotionSystem w contracts).next s e).sessions ∨
          (∃ candidate, e = .deleteCandidate candidate) ∧
            (row.status = .completed →
              JobComplete w ((promotionSystem w contracts).next s e) row.contract) ∧
            (row.status = .failedPermanent →
              Untouched ((promotionSystem w contracts).next s e) row.contract) := by
  have hinv := reachable_inv hs
  refine ⟨hinv.once, fun row hrow => completed_iff hinv hrow, ?_⟩
  intro e henabled row hrow hfinal
  have hnot : row.status ∉ promotableStatuses := by
    rcases hfinal with hstatus | hstatus <;> rw [hstatus] <;> decide
  have hstep := step_of_enabled henabled
  rcases final_row_kept hstep hrow hnot with hkept | ⟨candidate, rfl⟩
  · exact .inl hkept
  · rw [step] at hstep
    split at hstep
    next =>
      have hnext := Option.some.inj hstep
      have hsame : SameBatches s (deleteCandidate candidate s) := ⟨rfl, rfl, rfl⟩
      rw [hnext] at hsame
      refine .inr ⟨⟨candidate, rfl⟩, fun hstatus => ?_, fun hstatus => ?_⟩
      · exact (hinv.completed row hrow hstatus).same hsame
      · exact (hinv.untouched row hrow (by simp [hstatus])).same hsame
    next => cases hstep

open Counterexample in
theorem promotion_exactly_once_run :
    promotedState.created.count contract.targetBatchId ≤ 1 ∧
      ∀ row ∈ promotedState.sessions,
        row.status = .completed ↔ JobComplete promoter promotedState row.contract :=
  have h := promotion_exactly_once promoted_reachable
  ⟨h.1 contract (List.mem_singleton_self _), h.2.1⟩

end PromotionExactlyOnce
