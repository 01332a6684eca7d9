import DeltaLLM.SessionPromotion

/-! # What a promotion step can do

Every step of a process moves its own phase, commits its transaction or records a failure. The
relations below say which moves there are and under which guard, so that no later proof unfolds the
step functions.
-/
namespace PromotionSteps

open BatchRecords
open CreateSessions
open SessionPromotion

/-- How the transaction of a process goes on, with the advisory locks after the step. -/
inductive StageMove (w : Promoter) (s : State) (pid : ℕ) (spool : Spool) (tx : Transaction) :
    Transaction → (ℤ → Option ℕ) → Prop where
  | readJob : tx.stage = .locked → jobById tx.row.contract.targetBatchId s.jobs = none →
      tx.row.status ∈ promotableStatuses →
      StageMove w s pid spool tx { tx with stage := .jobRead } s.advisoryLock
  | reconcile : tx.stage = .locked → jobById tx.row.contract.targetBatchId s.jobs ≠ none →
      tx.row.status ≠ .completed →
      StageMove w s pid spool tx { tx with stage := .reconciling } s.advisoryLock
  | lockScope (key : ℤ) : tx.stage = .jobRead → pendingLockKey w tx.row.contract = some key →
      (s.advisoryLock key = none ∨ s.advisoryLock key = some pid) →
      StageMove w s pid spool tx { tx with stage := .scopeLocked }
        (Function.update s.advisoryLock key (some pid))
  | noPendingLimit : tx.stage = .jobRead → pendingLockKey w tx.row.contract = none →
      StageMove w s pid spool tx { tx with stage := .pendingChecked } s.advisoryLock
  | countActive : tx.stage = .scopeLocked → activeJobsExceeded w tx.row.contract s.jobs = false →
      StageMove w s pid spool tx { tx with stage := .pendingChecked } s.advisoryLock
  | lockTenant (key : ℤ) : tx.stage = .pendingChecked → tenantLockKey w tx.row.contract = some key →
      (s.advisoryLock key = none ∨ s.advisoryLock key = some pid) →
      StageMove w s pid spool tx { tx with stage := .tenantLocked }
        (Function.update s.advisoryLock key (some pid))
  | noWorkLimit : tx.stage = .pendingChecked → tenantLockKey w tx.row.contract = none →
      StageMove w s pid spool tx { tx with stage := .admitted } s.advisoryLock
  | sumQueued : tx.stage = .tenantLocked →
      tenantWorkAllowed w tx.row.contract spool tx.now s = some true →
      StageMove w s pid spool tx { tx with stage := .admitted } s.advisoryLock
  | createJob (now : Timestamp) : tx.stage = .admitted →
      StageMove w s pid spool tx
        { tx with
          newJobs := [promotedJob w tx.row.contract spool now], stage := .inserting spool.lines }
        s.advisoryLock
  | createItems (count : ℕ) (itemId : SpooledRequest → String) (lines : List SpooledRequest)
      (own : List BatchItemRow) : tx.stage = .inserting lines →
      createItems s.items tx.newItems ((lines.take count).map fun line =>
        promotedItem tx.row.contract.targetBatchId (itemId line) line) = some own →
      StageMove w s pid spool tx
        { tx with newItems := own, stage := .inserting (lines.drop count) } s.advisoryLock
  | inserted : tx.stage = .inserting [] → tx.newItems.length = spool.lines.length →
      StageMove w s pid spool tx { tx with stage := .inserted } s.advisoryLock
  | mark (now : Timestamp) : tx.stage = .inserted → tx.row.status ∈ promotableStatuses →
      StageMove w s pid spool tx { tx with stage := .marked now true } s.advisoryLock
  | markReconciled (now : Timestamp) : tx.stage = .reconciling →
      StageMove w s pid spool tx { tx with stage := .marked now false } s.advisoryLock

/-- The row and the start of a transaction stay. -/
theorem StageMove.fixed {w : Promoter} {s : State} {pid : ℕ} {spool : Spool}
    {tx tx' : Transaction} {locks : ℤ → Option ℕ} (h : StageMove w s pid spool tx tx' locks) :
    tx'.row = tx.row ∧ tx'.now = tx.now := by
  cases h <;> exact ⟨rfl, rfl⟩

/-- The phases in which a process is once its transaction has ended. -/
inductive Ended (session : SessionRow) : Phase → Prop where
  | idle : Ended session .idle
  | finished (result : Except PromotionError PromotionResult) : Ended session (.finished result)
  | failing (error : PromotionError) : Ended session (.failing session error)

inductive TxEffect (w : Promoter) (s : State) (pid : ℕ) (session : SessionRow) (spool : Spool)
    (tx : Transaction) : State → Prop where
  | advance {tx' : Transaction} {locks : ℤ → Option ℕ} :
      StageMove w s pid spool tx tx' locks →
      TxEffect w s pid session spool tx
        ({ s with advisoryLock := locks }.setPhase pid (.transaction session spool tx'))
  | rollback {phase : Phase} : Ended session phase →
      TxEffect w s pid session spool tx (s.rollback pid phase)
  | commit {phase : Phase} (completedAt : Timestamp) (promoted : Bool) :
      tx.stage = .marked completedAt promoted → Ended session phase →
      TxEffect w s pid session spool tx (s.commit pid tx completedAt phase)

/-- How a process goes on outside its transaction. -/
inductive PhaseMove (w : Promoter) (s : State) : Phase → Phase → Prop where
  | idle (phase : Phase) : PhaseMove w s phase .idle
  | finish (phase : Phase) (result : Except PromotionError PromotionResult) :
      PhaseMove w s phase (.finished result)
  | completedRead (phase : Phase) (session : SessionRow) :
      PhaseMove w s phase (.completedRead session)
  | read (phase : Phase) {session : SessionRow} : session ∈ s.sessions →
      session.status ∈ promotableStatuses → PhaseMove w s phase (.read session)
  | precheck (session : SessionRow) : PhaseMove w s (.read session) (.prechecked session)
  | spool {session : SessionRow} {outcome : ReadOutcome} {spool : Spool} :
      spoolStagedItems w session.contract outcome = .ok spool →
      PhaseMove w s (.prechecked session) (.spooled session spool)
  | spoolFailed (session : SessionRow) (error : PromotionError) :
      PhaseMove w s (.prechecked session) (.failing session error)
  | lockFailed (session : SessionRow) (spool : Spool) (error : PromotionError) :
      PhaseMove w s (.spooled session spool) (.failing session error)

inductive ProcessEffect (w : Promoter) (s : State) (pid : ℕ) : Phase → State → Prop where
  | move {phase phase' : Phase} : PhaseMove w s phase phase' →
      ProcessEffect w s pid phase (s.setPhase pid phase')
  | lockSession {session row : SessionRow} {spool : Spool} (now : Timestamp) :
      s.rowLock session.contract.sessionId = none →
      sessionById session.contract.sessionId s.sessions = some row →
      ProcessEffect w s pid (.spooled session spool) ({ s with
        rowLock := Function.update s.rowLock session.contract.sessionId (some pid) }.setPhase pid
          (.transaction session spool ⟨now, row, .locked, [], []⟩))
  | record {session : SessionRow} {error : PromotionError} (now : Timestamp) :
      s.rowLock session.contract.sessionId = none →
      ProcessEffect w s pid (.failing session error)
        (s.recordFailure pid session.contract.sessionId error now)
  | transaction {session : SessionRow} {spool : Spool} {tx : Transaction} {s' : State} :
      TxEffect w s pid session spool tx s' →
      ProcessEffect w s pid (.transaction session spool tx) s'

theorem lockAdvisory_some {s s' : State} {pid : ℕ} {key : ℤ}
    (h : lockAdvisory s pid key = some s') :
    (s.advisoryLock key = none ∨ s.advisoryLock key = some pid) ∧
      s' = { s with advisoryLock := Function.update s.advisoryLock key (some pid) } := by
  unfold lockAdvisory at h
  split at h
  next hfree => exact ⟨hfree, (Option.some.inj h).symm⟩
  next => cases h

theorem afterJobRead_effect (w : Promoter) (s : State) (pid : ℕ) (session : SessionRow)
    (spool : Spool) {tx : Transaction} (hstage : tx.stage = .locked) :
    TxEffect w s pid session spool tx (afterJobRead s pid session spool tx) := by
  unfold afterJobRead
  split
  next => exact .rollback (.failing _)
  next => exact .rollback (.finished _)
  next hjob hopen => exact .advance (.reconcile hstage (by simp [hjob]) hopen)
  next hjob hopen =>
    split
    next hpromotable => exact .advance (.readJob hstage hjob hpromotable)
    next => exact .rollback (.failing _)

theorem txStep_effect {w : Promoter} {s s' : State} {pid : ℕ} {session : SessionRow}
    {spool : Spool} {tx : Transaction} {statement : Statement}
    (h : txStep w s pid session spool tx tx.stage statement = some s') :
    TxEffect w s pid session spool tx s' := by
  generalize hstage : tx.stage = stage at h
  unfold txStep at h
  split at h
  case h_1 =>
    obtain rfl := Option.some.inj h
    exact afterJobRead_effect w s pid session spool hstage
  case h_2 =>
    obtain ⟨key, hkey, h⟩ := Option.bind_eq_some_iff.mp h
    obtain ⟨locked, hlocked, rfl⟩ := Option.map_eq_some_iff.mp h
    obtain ⟨hfree, rfl⟩ := lockAdvisory_some hlocked
    exact .advance (.lockScope key hstage hkey hfree)
  case h_3 =>
    split at h
    next hkey =>
      obtain rfl := Option.some.inj h
      exact .advance (.noPendingLimit hstage hkey)
    next => cases h
  case h_4 =>
    split at h
    next =>
      obtain rfl := Option.some.inj h
      exact .rollback (.failing _)
    next hcount =>
      obtain rfl := Option.some.inj h
      exact .advance (.countActive hstage (Bool.not_eq_true _ ▸ hcount))
  case h_5 =>
    obtain ⟨key, hkey, h⟩ := Option.bind_eq_some_iff.mp h
    obtain ⟨locked, hlocked, rfl⟩ := Option.map_eq_some_iff.mp h
    obtain ⟨hfree, rfl⟩ := lockAdvisory_some hlocked
    exact .advance (.lockTenant key hstage hkey hfree)
  case h_6 =>
    split at h
    next hkey =>
      obtain rfl := Option.some.inj h
      exact .advance (.noWorkLimit hstage hkey)
    next => cases h
  case h_7 =>
    split at h
    next =>
      obtain rfl := Option.some.inj h
      exact .rollback (.failing _)
    next hallowed =>
      obtain rfl := Option.some.inj h
      exact .advance (.sumQueued hstage hallowed)
    next =>
      obtain rfl := Option.some.inj h
      exact .rollback (.failing _)
  case h_8 now =>
    split at h
    next => cases h
    next =>
      obtain rfl := Option.some.inj h
      exact .advance (.createJob now hstage)
  case h_9 line lines itemId =>
    obtain ⟨own, hown, rfl⟩ := Option.map_eq_some_iff.mp h
    exact .advance (.createItems _ itemId _ own hstage hown)
  case h_10 =>
    split at h
    next hlength =>
      obtain rfl := Option.some.inj h
      exact .advance (.inserted hstage hlength)
    next =>
      obtain rfl := Option.some.inj h
      exact .rollback (.failing _)
  case h_11 now =>
    split at h
    next hpromotable =>
      obtain rfl := Option.some.inj h
      exact .advance (.mark now hstage hpromotable)
    next =>
      obtain rfl := Option.some.inj h
      exact .rollback (.failing _)
  case h_12 now =>
    split at h
    next =>
      obtain rfl := Option.some.inj h
      exact .advance (.markReconciled now hstage)
    next =>
      obtain rfl := Option.some.inj h
      exact .rollback (.failing _)
  case h_13 completedAt promoted =>
    obtain rfl := Option.some.inj h
    exact .commit completedAt promoted hstage (.finished _)
  case h_14 completedAt promoted exc =>
    obtain rfl := Option.some.inj h
    exact .commit completedAt promoted hstage (.failing _)
  case h_15 =>
    obtain rfl := Option.some.inj h
    exact .rollback (.failing _)
  case h_16 =>
    obtain rfl := Option.some.inj h
    exact .rollback .idle
  case h_17 => cases h

theorem getSession_effect (w : Promoter) (s : State) (pid : ℕ) (phase : Phase)
    (sessionId : String) : ProcessEffect w s pid phase (getSession s pid sessionId) := by
  unfold getSession
  split
  next => exact .move (.finish _ _)
  next session hfound =>
    split
    next => exact .move (.completedRead _ _)
    next =>
      split
      next hpromotable =>
        exact .move (.read _ (TableStatements.rowWithKey_some hfound).1 hpromotable)
      next => exact .move (.finish _ _)

theorem processStep_effect {w : Promoter} {s s' : State} {pid : ℕ} {phase : Phase}
    {statement : Statement} (h : processStep w s pid phase statement = some s') :
    ProcessEffect w s pid phase s' := by
  unfold processStep at h
  split at h
  case h_1 => exact .transaction (txStep_effect h)
  case h_2 =>
    split at h
    next =>
      obtain rfl := Option.some.inj h
      exact getSession_effect w s pid _ _
    next => cases h
  case h_3 =>
    obtain rfl := Option.some.inj h
    exact .move (.finish _ _)
  case h_4 =>
    split at h
    next =>
      obtain rfl := Option.some.inj h
      exact .move (.finish _ _)
    next =>
      obtain rfl := Option.some.inj h
      exact .move (.precheck _)
  case h_5 =>
    split at h
    next =>
      split at h
      next =>
        split at h
        next =>
          obtain rfl := Option.some.inj h
          exact .move (.spoolFailed _ _)
        next hspool =>
          obtain rfl := Option.some.inj h
          exact .move (.spool hspool)
      next => cases h
    next =>
      obtain rfl := Option.some.inj h
      exact .move (.spoolFailed _ _)
    next => cases h
  case h_6 now =>
    split at h
    next hfree =>
      split at h
      next =>
        obtain rfl := Option.some.inj h
        exact .move (.lockFailed _ _ _)
      next row hrow =>
        obtain rfl := Option.some.inj h
        exact .lockSession now hfree hrow
    next => cases h
  case h_7 =>
    obtain rfl := Option.some.inj h
    exact .move (.lockFailed _ _ _)
  case h_8 now =>
    split at h
    next =>
      split at h
      next hfree =>
        obtain rfl := Option.some.inj h
        exact .record now hfree
      next => cases h
    next =>
      obtain rfl := Option.some.inj h
      exact .move (.finish _ _)
  case h_9 =>
    obtain rfl := Option.some.inj h
    exact .move (.finish _ _)
  case h_10 =>
    obtain rfl := Option.some.inj h
    exact .move (.idle _)
  case h_11 => cases h

end PromotionSteps
