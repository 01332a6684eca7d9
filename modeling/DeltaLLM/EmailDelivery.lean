import DeltaLLM.EmailOutbox
import Mathlib.Data.List.Count

/-! # What the e-mail outbox keeps

A sending record belongs to the one task at work on it, so its status moves only as that task goes
on, unless somebody cancels it.
-/
namespace EmailDelivery

open EmailOutbox
open PythonText (strip)
open TableStatements
open TransitionRuns

/-! ## Suppressed recipients -/

section Suppressions

variable {text : Lowering} {suppressions addresses : List String} {address : String}

theorem normalizeAddress_idem (address : String) :
    normalizeAddress text (normalizeAddress text address) = normalizeAddress text address :=
  text.lower_strip address

theorem mem_suppressedAddresses (hmem : address ∈ addresses)
    (hsuppressed : normalizeAddress text address ∈ suppressions)
    (hnamed : normalizeAddress text address ≠ "") :
    normalizeAddress text address ∈ suppressedAddresses text suppressions addresses := by
  have hblank : strip address ≠ "" := by
    intro hblank
    rw [normalizeAddress, hblank, text.lower_empty] at hnamed
    exact hnamed rfl
  have hasked : normalizeAddress text address ∈
      (addresses.filter fun address => strip address ≠ "").map (normalizeAddress text) :=
    List.mem_map_of_mem (List.mem_filter.mpr ⟨hmem, decide_eq_true hblank⟩)
  have hanswered : normalizeAddress text address ∈
      getSuppressedAddresses text suppressions addresses := by
    refine List.mem_map.mpr
      ⟨_, List.mem_filter.mpr ⟨hsuppressed, ?_⟩, normalizeAddress_idem address⟩
    exact decide_eq_true ⟨hasked, hnamed⟩
  refine List.mem_filter.mpr ⟨List.mem_map.mpr ⟨_, hanswered, normalizeAddress_idem address⟩, ?_⟩
  exact decide_eq_true hnamed

theorem applySuppressed_all (suppressed : List String) (recipients : Recipients) :
    (applySuppressed text suppressed recipients).all =
      recipients.all.filter fun address => normalizeAddress text address ∉ suppressed := by
  simp [applySuppressed, Recipients.all, List.filter_append]

/-- None of these recipients is in the table. -/
def Unsuppressed (text : Lowering) (suppressions : List String) (recipients : Recipients) : Prop :=
  ∀ address ∈ recipients.all, normalizeAddress text address ∉ suppressions

theorem unsuppressed_filtered (hnamed : ∀ address ∈ suppressions, address ≠ "")
    (recipients : Recipients) :
    Unsuppressed text suppressions
      (applySuppressed text (suppressedAddresses text suppressions recipients.all) recipients) := by
  intro address haddress hsuppressed
  rw [applySuppressed_all] at haddress
  obtain ⟨hmem, hallowed⟩ := List.mem_filter.mp haddress
  exact of_decide_eq_true hallowed
    (mem_suppressedAddresses hmem hsuppressed (hnamed _ hsuppressed))

theorem unsuppressed_of_none (hnamed : ∀ address ∈ suppressions, address ≠ "")
    {recipients : Recipients} (hnone : suppressedAddresses text suppressions recipients.all = []) :
    Unsuppressed text suppressions recipients := by
  intro address hmem hsuppressed
  have hfound := mem_suppressedAddresses hmem hsuppressed (hnamed _ hsuppressed)
  rw [hnone] at hfound
  cases hfound

theorem normalizeEmailAddress_ne_empty {normalized : String}
    (h : normalizeEmailAddress text address = some normalized) : normalized ≠ "" := by
  simp only [normalizeEmailAddress] at h
  split_ifs at h with hskip
  obtain rfl := Option.some.inj h
  exact fun hblank => hskip (Or.inl hblank)

end Suppressions

/-! ## The invariant -/

/-- The claims of a record, one task each. -/
def attemptsOf (s : OutboxState) (emailId : String) : ℕ :=
  s.tasks.countP fun task => task.record.emailId = emailId

structure RecordInv (s : OutboxState) (record : EmailOutboxRecord) : Prop where
  queued : record.status = .queued → record.attemptCount = 0
  retrying : record.status = .retrying → record.attemptCount < record.maxAttempts
  bounded : record.attemptCount ≤ max 1 record.maxAttempts
  counted : attemptsOf s record.emailId = record.attemptCount

/-- The status of the own record has been written, and the audit is left. -/
def Written : DeliveryPhase → Prop
  | .auditing => True
  | .auditingFailed => True
  | _ => False

/-- The row of a task that is still at work. -/
structure OwnRow (task : DeliveryTask) (row : EmailOutboxRecord) : Prop where
  id : row.emailId = task.record.emailId
  attemptCount : row.attemptCount = task.record.attemptCount
  maxAttempts : row.maxAttempts = task.record.maxAttempts
  not_queued : row.status ≠ .queued
  not_retrying : row.status ≠ .retrying
  written : Written task.phase → row.status ≠ .sending

/-- What a task knows in its phase. -/
def PhaseInv (text : Lowering) (task : DeliveryTask) : Prop :=
  match task.phase with
  | .rewriting filtered => Unsuppressed text task.suppressions filtered
  | .delivering prepared => Unsuppressed text task.suppressions prepared
  | .markingRetry _ => task.record.attemptCount < task.record.maxAttempts
  | _ => True

structure OutboxInv (text : Lowering) (s : OutboxState) : Prop where
  ids : (s.records.map EmailOutboxRecord.emailId).Nodup
  records : ∀ record ∈ s.records, RecordInv s record
  known : ∀ task ∈ s.tasks, ∃ record ∈ s.records, record.emailId = task.record.emailId
  tasks : ∀ i task, LiveTask s i task → (∃ row ∈ s.records, OwnRow task row) ∧ PhaseInv text task
  alone : ∀ i j task other, LiveTask s i task → LiveTask s j other →
    task.record.emailId = other.record.emailId → i = j
  suppressions : ∀ address ∈ s.suppressions, address ≠ ""
  calls : ∀ call ∈ s.calls, Unsuppressed text call.suppressions call.recipients

/-- A sending record is in the hands of a live task. -/
def Owned (s : OutboxState) : Prop :=
  ∀ record ∈ s.records, record.status = .sending →
    ∃ i task, LiveTask s i task ∧ task.record.emailId = record.emailId

/-- No final status was left for sending, retrying or sent. -/
def Final (s : OutboxState) : Prop :=
  ∀ change ∈ s.changes, change.before.terminal = true →
    change.after ≠ .sending ∧ change.after ≠ .retrying ∧ change.after ≠ .sent

section Rows

variable {s : OutboxState} {emailId : String} {f : EmailOutboxRecord → EmailOutboxRecord}

/-- A row update that keeps the key and the attempts. -/
structure KeepsAttempts (f : EmailOutboxRecord → EmailOutboxRecord) : Prop where
  id : ∀ row, (f row).emailId = row.emailId
  attemptCount : ∀ row, (f row).attemptCount = row.attemptCount
  maxAttempts : ∀ row, (f row).maxAttempts = row.maxAttempts

theorem keepsAttempts_id : KeepsAttempts id := ⟨fun _ => rfl, fun _ => rfl, fun _ => rfl⟩

theorem updateById_id (records : List EmailOutboxRecord) :
    updateById emailId records id = records := by
  rw [updateById, updateWhere]
  exact (List.map_congr_left fun row _ => by split_ifs <;> rfl).trans (List.map_id _)

theorem mem_updateById {records : List EmailOutboxRecord} {row : EmailOutboxRecord} :
    row ∈ updateById emailId records f ↔
      ∃ old ∈ records, row = if old.emailId = emailId then f old else old :=
  mem_updateWhere _ _

theorem ids_updateById (hf : KeepsAttempts f) (records : List EmailOutboxRecord) :
    (updateById emailId records f).map EmailOutboxRecord.emailId =
      records.map EmailOutboxRecord.emailId :=
  map_updateWhere _ _ _ (fun row _ => hf.id row) _

end Rows

section Tasks

variable {s : OutboxState} {i j : ℕ} {task task' other : DeliveryTask}

theorem liveTask_set (hlive : LiveTask s i task) :
    LiveTask (s.setTask i task') j other ↔
      (j = i ∧ other = task' ∧ task'.phase ≠ .ended) ∨ (j ≠ i ∧ LiveTask s j other) := by
  have hlt : i < s.tasks.length := (List.getElem?_eq_some_iff.mp hlive.1).1
  unfold LiveTask
  simp only [OutboxState.setTask]
  by_cases hsame : j = i
  · subst hsame
    rw [List.getElem?_set_self hlt]
    constructor
    · rintro ⟨hother, hphase⟩
      obtain rfl := Option.some.inj hother
      exact Or.inl ⟨rfl, rfl, hphase⟩
    · rintro (⟨-, rfl, hphase⟩ | ⟨hne, -⟩)
      · exact ⟨rfl, hphase⟩
      · exact absurd rfl hne
  · rw [List.getElem?_set_ne (Ne.symm hsame)]
    constructor
    · exact fun hother => Or.inr ⟨hsame, hother⟩
    · rintro (⟨heq, -⟩ | ⟨-, hother⟩)
      · exact absurd heq hsame
      · exact hother

/-- The e-mails of the tasks after one of them went on. -/
theorem map_set_record (hlive : LiveTask s i task) (hrecord : task'.record = task.record) :
    (s.tasks.set i task').map DeliveryTask.record = s.tasks.map DeliveryTask.record := by
  have hlt : i < s.tasks.length := (List.getElem?_eq_some_iff.mp hlive.1).1
  apply List.ext_getElem?
  intro j
  rw [List.getElem?_map, List.getElem?_map]
  by_cases hsame : i = j
  · subst hsame
    rw [List.getElem?_set_self hlt, hlive.1, Option.map_some, Option.map_some, hrecord]
  · rw [List.getElem?_set_ne hsame]

theorem attemptsOf_congr {s' : OutboxState}
    (h : s'.tasks.map DeliveryTask.record = s.tasks.map DeliveryTask.record) (emailId : String) :
    attemptsOf s' emailId = attemptsOf s emailId := by
  have hcount : ∀ tasks : List DeliveryTask,
      tasks.countP (fun task => task.record.emailId = emailId) =
        (tasks.map DeliveryTask.record).countP fun record => record.emailId = emailId := by
    intro tasks
    rw [List.countP_map]
    rfl
  rw [attemptsOf, attemptsOf, hcount, hcount, h]

end Tasks

/-! ## A task goes on -/

/-- The task moves to a new phase, and its row is updated by primary key. -/
structure Moved (s s' : OutboxState) (i : ℕ) (task task' : DeliveryTask)
    (f : EmailOutboxRecord → EmailOutboxRecord) : Prop where
  live : LiveTask s i task
  records : s'.records = updateById task.record.emailId s.records f
  tasks : s'.tasks = s.tasks.set i task'
  suppressions : s'.suppressions = s.suppressions
  keeps : KeepsAttempts f
  record : task'.record = task.record

namespace Moved

variable {text : Lowering} {s s' : OutboxState} {i : ℕ} {task task' : DeliveryTask}
  {f : EmailOutboxRecord → EmailOutboxRecord}

theorem liveTask (h : Moved s s' i task task' f) {j : ℕ} {other : DeliveryTask} :
    LiveTask s' j other ↔
      (j = i ∧ other = task' ∧ task'.phase ≠ .ended) ∨ (j ≠ i ∧ LiveTask s j other) := by
  have hset : LiveTask s' j other ↔ LiveTask (s.setTask i task') j other := by
    rw [LiveTask, LiveTask, h.tasks]
    rfl
  rw [hset, liveTask_set h.live]

theorem attempts (h : Moved s s' i task task' f) (emailId : String) :
    attemptsOf s' emailId = attemptsOf s emailId :=
  attemptsOf_congr (by rw [h.tasks, map_set_record h.live h.record]) emailId

/-- Only the task's own row changes. -/
theorem row_cases (h : Moved s s' i task task' f) (hinv : OutboxInv text s)
    {row : EmailOutboxRecord} (hrow : row ∈ s'.records) :
    (∃ old ∈ s.records, OwnRow task old ∧ row = f old) ∨
      (row ∈ s.records ∧ row.emailId ≠ task.record.emailId) := by
  rw [h.records] at hrow
  obtain ⟨old, hold, rfl⟩ := mem_updateById.mp hrow
  by_cases hid : old.emailId = task.record.emailId
  · obtain ⟨own, hown, hOwn⟩ := (hinv.tasks i task h.live).1
    obtain rfl := List.inj_on_of_nodup_map hinv.ids hown hold (hOwn.id.trans hid.symm)
    rw [if_pos hid]
    exact Or.inl ⟨own, hown, hOwn, rfl⟩
  · rw [if_neg hid]
    exact Or.inr ⟨hold, hid⟩

theorem own_row (h : Moved s s' i task task' f) {old : EmailOutboxRecord} (hold : old ∈ s.records)
    (hown : OwnRow task old) : f old ∈ s'.records := by
  rw [h.records]
  exact mem_updateById.mpr ⟨old, hold, by rw [if_pos hown.id]⟩

/-- What the update may write, by the phase that follows. -/
structure Admitted (task task' : DeliveryTask) (f : EmailOutboxRecord → EmailOutboxRecord)
    (old : EmailOutboxRecord) : Prop where
  not_queued : (f old).status ≠ .queued
  retrying : (f old).status = .retrying →
    task'.phase = .ended ∧ task.record.attemptCount < task.record.maxAttempts
  written : Written task'.phase → (f old).status ≠ .sending

theorem inv (h : Moved s s' i task task' f) (hinv : OutboxInv text s)
    (hadmitted : ∀ old, OwnRow task old → Admitted task task' f old)
    (hphase : PhaseInv text task')
    (hcalls : ∀ call ∈ s'.calls, Unsuppressed text call.suppressions call.recipients) :
    OutboxInv text s' := by
  obtain ⟨own, hown, hOwn⟩ := (hinv.tasks i task h.live).1
  have hadm := hadmitted own hOwn
  refine ⟨?_, fun row hrow => ?_, fun other hother => ?_, fun j other hother => ?_,
    fun j k other third hother hthird hsame => ?_, by rw [h.suppressions]; exact hinv.suppressions,
    hcalls⟩
  · rw [h.records, ids_updateById h.keeps]
    exact hinv.ids
  · rcases h.row_cases hinv hrow with ⟨old, hold, hOld, rfl⟩ | ⟨hold, -⟩
    · have hrecord := hinv.records old hold
      have hadm := hadmitted old hOld
      refine ⟨fun hqueued => absurd hqueued hadm.not_queued, fun hretrying => ?_, ?_, ?_⟩
      · rw [h.keeps.attemptCount, h.keeps.maxAttempts, hOld.attemptCount, hOld.maxAttempts]
        exact (hadm.retrying hretrying).2
      · rw [h.keeps.attemptCount, h.keeps.maxAttempts]
        exact hrecord.bounded
      · rw [h.keeps.id, h.keeps.attemptCount, h.attempts]
        exact hrecord.counted
    · have hrecord := hinv.records row hold
      exact ⟨hrecord.queued, hrecord.retrying, hrecord.bounded, by rw [h.attempts, hrecord.counted]⟩
  · have hrecord : other.record ∈ s.tasks.map DeliveryTask.record := by
      rw [← map_set_record h.live h.record, ← h.tasks]
      exact List.mem_map_of_mem hother
    obtain ⟨before, hbefore, hsame⟩ := List.mem_map.mp hrecord
    obtain ⟨row, hrow, hid⟩ := hinv.known before hbefore
    have hids : row.emailId ∈ s'.records.map EmailOutboxRecord.emailId := by
      rw [h.records, ids_updateById h.keeps]
      exact List.mem_map_of_mem hrow
    obtain ⟨row', hrow', hid'⟩ := List.mem_map.mp hids
    exact ⟨row', hrow', by rw [hid', hid, hsame]⟩
  · rcases h.liveTask.mp hother with ⟨rfl, rfl, hlive⟩ | ⟨hne, hlive⟩
    · refine ⟨⟨f own, h.own_row hown hOwn, ?_⟩, hphase⟩
      refine ⟨?_, ?_, ?_, hadm.not_queued, fun hretrying => hlive (hadm.retrying hretrying).1,
        hadm.written⟩
      · rw [h.keeps.id, h.record, hOwn.id]
      · rw [h.keeps.attemptCount, h.record, hOwn.attemptCount]
      · rw [h.keeps.maxAttempts, h.record, hOwn.maxAttempts]
    · obtain ⟨⟨row, hrow, hOther⟩, hknows⟩ := hinv.tasks j other hlive
      refine ⟨⟨row, ?_, hOther⟩, hknows⟩
      rw [h.records]
      refine mem_updateById.mpr ⟨row, hrow, (if_neg fun hid => hne ?_).symm⟩
      exact hinv.alone j i other task hlive h.live (hOther.id.symm.trans hid)
  · rcases h.liveTask.mp hother with ⟨rfl, rfl, -⟩ | ⟨hj, hjlive⟩ <;>
      rcases h.liveTask.mp hthird with ⟨rfl, rfl, -⟩ | ⟨hk, hklive⟩
    · rfl
    · rw [h.record] at hsame
      exact absurd (hinv.alone _ _ _ _ h.live hklive hsame).symm hk
    · rw [h.record] at hsame
      exact absurd (hinv.alone _ _ _ _ hjlive h.live hsame) hj
    · exact hinv.alone _ _ _ _ hjlive hklive hsame

/-- A task that ends leaves no sending record behind. -/
theorem owned (h : Moved s s' i task task' f) (hinv : OutboxInv text s) (howned : Owned s)
    (hsending : ∀ old ∈ s.records, OwnRow task old → (f old).status = .sending →
      task'.phase ≠ .ended) : Owned s' := by
  intro row hrow hstatus
  rcases h.row_cases hinv hrow with ⟨old, hold, hOld, rfl⟩ | ⟨hold, hother⟩
  · refine ⟨i, task', h.liveTask.mpr (Or.inl ⟨rfl, rfl, hsending old hold hOld hstatus⟩), ?_⟩
    rw [h.record, h.keeps.id, hOld.id]
  · obtain ⟨j, other, hlive, hid⟩ := howned row hold hstatus
    refine ⟨j, other, h.liveTask.mpr (Or.inr ⟨?_, hlive⟩), hid⟩
    rintro rfl
    obtain rfl : other = task := Option.some.inj (hlive.1.symm.trans h.live.1)
    exact hother hid.symm

end Moved

/-! ## One call -/

/-- How far a task is from its end. -/
def rank : DeliveryPhase → ℕ
  | .checking => 7
  | .rewriting _ => 6
  | .cancelling => 5
  | .delivering _ => 5
  | .markingSent _ => 4
  | .auditing => 3
  | .markingFailed _ => 2
  | .markingRetry _ => 2
  | .auditingFailed => 1
  | .ended => 0

/-- The task's record is still sending. -/
def Sending (s : OutboxState) (task : DeliveryTask) : Prop :=
  ∃ record ∈ s.records, record.emailId = task.record.emailId ∧ record.status = .sending

/-- What a call does, whatever it answers; a task that ends while its record is sending abandons
it. -/
structure CallEffect (text : Lowering) (s s' : OutboxState) (i : ℕ) (task task' : DeliveryTask)
    (f : EmailOutboxRecord → EmailOutboxRecord) (abandons : Prop) : Prop where
  moved : Moved s s' i task task' f
  admitted : ∀ old, OwnRow task old → Moved.Admitted task task' f old
  knows : PhaseInv text task'
  calls : ∀ call ∈ s'.calls, Unsuppressed text call.suppressions call.recipients
  nearer : rank task'.phase < rank task.phase
  ends : task'.phase = .ended → ∀ old ∈ s.records, OwnRow task old → (f old).status = .sending →
    abandons ∧ Sending s task

section Calls

variable {text : Lowering} {config : RetryConfig} {s : OutboxState} {i : ℕ}
  {task task' : DeliveryTask} {now : Timestamp}

theorem admitted_id (hnext : ¬Written task'.phase) {old : EmailOutboxRecord}
    (hown : OwnRow task old) : Moved.Admitted task task' id old :=
  ⟨hown.not_queued, fun hretrying => absurd hretrying hown.not_retrying,
    fun hwritten => absurd hwritten hnext⟩

/-- A final status, whatever comes next. -/
theorem admitted_terminal {f : EmailOutboxRecord → EmailOutboxRecord} {old : EmailOutboxRecord}
    (hterminal : (f old).status.terminal = true) : Moved.Admitted task task' f old := by
  refine ⟨fun hqueued => ?_, fun hretrying => ?_, fun _ hsending => ?_⟩
  · rw [hqueued] at hterminal
    cases hterminal
  · rw [hretrying] at hterminal
    cases hterminal
  · rw [hsending] at hterminal
    cases hterminal

/-- The task goes on and no row changes. -/
theorem moved_id {s' : OutboxState} (hlive : LiveTask s i task) (hrecords : s'.records = s.records)
    (htasks : s'.tasks = s.tasks.set i task') (hsuppressions : s'.suppressions = s.suppressions)
    (hrecord : task'.record = task.record) : Moved s s' i task task' id :=
  ⟨hlive, hrecords.trans (updateById_id s.records).symm, htasks, hsuppressions, keepsAttempts_id,
    hrecord⟩

theorem phaseInv_afterFilter {record : EmailOutboxRecord} {suppressions : List String}
    {prepared : Recipients} (h : Unsuppressed text suppressions prepared) :
    PhaseInv text ⟨record, afterFilter prepared, suppressions⟩ := by
  unfold afterFilter
  split_ifs
  · trivial
  · exact h

theorem rank_afterFilter (prepared : Recipients) : rank (afterFilter prepared) = 5 := by
  unfold afterFilter
  split_ifs <;> rfl

theorem not_written_afterFilter (prepared : Recipients) : ¬Written (afterFilter prepared) := by
  unfold afterFilter
  split_ifs <;> exact id

theorem phaseInv_handlerPhase (fault : DeliveryFault) :
    PhaseInv text { task with phase := handlerPhase task.record fault } := by
  unfold handlerPhase
  by_cases hretry : shouldRetry task.record fault = true
  · rw [if_pos hretry]
    cases fault with
    | configuration error => cases hretry
    | delivery error retriable =>
        cases retriable with
        | false => cases hretry
        | true =>
            have hleft : task.record.attemptCount < task.record.maxAttempts :=
              of_decide_eq_true hretry
            exact hleft
    | other error =>
        have hleft : task.record.attemptCount < task.record.maxAttempts := of_decide_eq_true hretry
        exact hleft
  · rw [if_neg hretry]
    trivial

theorem rank_handlerPhase (record : EmailOutboxRecord) (fault : DeliveryFault) :
    rank (handlerPhase record fault) = 2 := by
  unfold handlerPhase
  split_ifs <;> rfl

theorem not_written_handlerPhase (record : EmailOutboxRecord) (fault : DeliveryFault) :
    ¬Written (handlerPhase record fault) := by
  unfold handlerPhase
  split_ifs <;> exact id

theorem calls_append (hinv : OutboxInv text s) {prepared : Recipients}
    (h : Unsuppressed text task.suppressions prepared) :
    ∀ call ∈ s.calls ++ [⟨prepared, task.suppressions⟩],
      Unsuppressed text call.suppressions call.recipients := by
  intro call hcall
  rcases List.mem_append.mp hcall with hold | hnew
  · exact hinv.calls call hold
  · obtain rfl := List.mem_singleton.mp hnew
    exact h

theorem afterFilter_ne_ended (prepared : Recipients) : afterFilter prepared ≠ .ended := by
  unfold afterFilter
  split_ifs <;> exact DeliveryPhase.noConfusion

theorem handlerPhase_ne_ended (record : EmailOutboxRecord) (fault : DeliveryFault) :
    handlerPhase record fault ≠ .ended := by
  unfold handlerPhase
  split_ifs <;> exact DeliveryPhase.noConfusion

theorem checking_effect (hinv : OutboxInv text s) (hlive : LiveTask s i task)
    (hphase : task.phase = .checking) (providerMessageId : Option String) :
    ∃ task' f, CallEffect text s (s.stepDone text config i now providerMessageId task) i task task'
      f False := by
  simp only [OutboxState.stepDone, hphase]
  refine ⟨_, id, moved_id hlive rfl rfl rfl rfl, fun old => admitted_id ?_, ?_, hinv.calls, ?_,
    fun hended => ?_⟩
  · split_ifs
    · exact not_written_afterFilter _
    · exact id
  · split_ifs with hnone
    · exact phaseInv_afterFilter (unsuppressed_of_none hinv.suppressions hnone)
    · exact unsuppressed_filtered hinv.suppressions task.record.recipients
  · rw [hphase]
    split_ifs
    · rw [rank_afterFilter]
      decide
    · exact Nat.lt_succ_self 6
  · simp only at hended
    split_ifs at hended
    exact absurd hended (afterFilter_ne_ended _)

/-- A call that writes a final status. -/
theorem write_effect (hinv : OutboxInv text s) (hlive : LiveTask s i task) {phase : DeliveryPhase}
    {f : EmailOutboxRecord → EmailOutboxRecord} (status : EmailStatus) (hkeeps : KeepsAttempts f)
    (hterminal : ∀ old, (f old).status.terminal = true)
    (hknows : PhaseInv text { task with phase := phase }) (hrank : rank phase < rank task.phase) :
    CallEffect text s ((s.write task.record.emailId status f).setTask i
      { task with phase := phase })
      i task { task with phase := phase } f False := by
  refine ⟨⟨hlive, rfl, rfl, rfl, hkeeps, rfl⟩, fun old _ =>
    admitted_terminal (hterminal old), hknows,
    hinv.calls, hrank, fun _ old _ _ hsending => ?_⟩
  have hfinal := hterminal old
  rw [hsending] at hfinal
  cases hfinal

/-- The last audit: the status is written. -/
theorem audited_effect (hinv : OutboxInv text s) (hlive : LiveTask s i task)
    (hwritten : Written task.phase) (hrank : 0 < rank task.phase) :
    CallEffect text s (s.setTask i { task with phase := .ended }) i task
      { task with phase := .ended } id False :=
  ⟨moved_id hlive rfl rfl rfl rfl, fun _ => admitted_id id, trivial, hinv.calls, hrank,
    fun _ _ _ hown hsending => absurd hsending (hown.written hwritten)⟩

theorem stepDone_effect (config : RetryConfig) (hinv : OutboxInv text s) (hlive : LiveTask s i task)
    (providerMessageId : Option String) :
    ∃ task' f, CallEffect text s (s.stepDone text config i now providerMessageId task) i task task'
      f False := by
  have hknows := (hinv.tasks i task hlive).2
  unfold PhaseInv at hknows
  cases hphase : task.phase with
  | checking => exact checking_effect hinv hlive hphase providerMessageId
  | rewriting filtered =>
      rw [hphase] at hknows
      simp only [OutboxState.stepDone, hphase]
      refine ⟨_, _, ⟨hlive, rfl, rfl, rfl, ⟨fun _ => rfl, fun _ => rfl, fun _ => rfl⟩, rfl⟩,
        fun old hown => ?_, phaseInv_afterFilter hknows, hinv.calls, ?_,
        fun hended => absurd hended (afterFilter_ne_ended filtered)⟩
      · exact ⟨hown.not_queued, fun hretrying => absurd hretrying hown.not_retrying,
          fun hwritten => absurd hwritten (not_written_afterFilter filtered)⟩
      · rw [rank_afterFilter, hphase]
        exact Nat.lt_succ_self 5
  | cancelling =>
      simp only [OutboxState.stepDone, hphase]
      refine ⟨_, _, write_effect hinv hlive _ ⟨fun _ => rfl, fun _ => rfl, fun _ => rfl⟩
        (fun _ => rfl) trivial ?_⟩
      rw [hphase, rank, rank]
      omega
  | delivering prepared =>
      rw [hphase] at hknows
      simp only [OutboxState.stepDone, hphase]
      refine ⟨_, id, moved_id hlive rfl rfl rfl rfl, fun old => admitted_id (by exact id), trivial,
        calls_append hinv hknows, ?_, fun hended => DeliveryPhase.noConfusion hended⟩
      rw [hphase]
      exact Nat.lt_succ_self 4
  | markingSent providerMessageId =>
      simp only [OutboxState.stepDone, hphase]
      refine ⟨_, _, write_effect hinv hlive _ ⟨fun _ => rfl, fun _ => rfl, fun _ => rfl⟩
        (fun _ => rfl) trivial ?_⟩
      rw [hphase]
      exact Nat.lt_succ_self 3
  | auditing =>
      simp only [OutboxState.stepDone, hphase]
      refine ⟨_, _, audited_effect hinv hlive ?_ ?_⟩
      · rw [hphase]
        trivial
      · rw [hphase]
        exact Nat.succ_pos 2
  | markingFailed error =>
      simp only [OutboxState.stepDone, hphase]
      refine ⟨_, _, write_effect hinv hlive _ ⟨fun _ => rfl, fun _ => rfl, fun _ => rfl⟩
        (fun _ => rfl) trivial ?_⟩
      rw [hphase]
      exact Nat.lt_succ_self 1
  | markingRetry error =>
      rw [hphase] at hknows
      simp only [OutboxState.stepDone, hphase]
      refine ⟨_, _, ⟨hlive, rfl, rfl, rfl, ⟨fun _ => rfl, fun _ => rfl, fun _ => rfl⟩, rfl⟩,
        fun old _ => ⟨?_, fun _ => ⟨rfl, hknows⟩, fun hwritten => hwritten.elim⟩, trivial,
          hinv.calls,
        ?_, fun _ _ _ _ hsending => EmailStatus.noConfusion hsending⟩
      · exact EmailStatus.noConfusion
      · rw [hphase]
        exact Nat.succ_pos 1
  | auditingFailed =>
      simp only [OutboxState.stepDone, hphase]
      refine ⟨_, _, audited_effect hinv hlive ?_ ?_⟩
      · rw [hphase]
        trivial
      · rw [hphase]
        exact Nat.succ_pos 0
  | ended => exact absurd hphase hlive.2

/-- A call in the `try` that raises, whatever it was. -/
theorem handler_effect {s' : OutboxState} (hlive : LiveTask s i task)
    (fault : DeliveryFault) (hrank : 2 < rank task.phase) (hrecords : s'.records = s.records)
    (htasks : s'.tasks = s.tasks.set i { task with phase := handlerPhase task.record fault })
    (hsuppressions : s'.suppressions = s.suppressions)
    (hcalls : ∀ call ∈ s'.calls, Unsuppressed text call.suppressions call.recipients)
    (abandons : Prop) :
    CallEffect text s s' i task { task with phase := handlerPhase task.record fault } id
      abandons := by
  refine ⟨moved_id hlive hrecords htasks hsuppressions rfl, fun old => admitted_id ?_,
    phaseInv_handlerPhase fault, hcalls, ?_,
    fun hended => absurd hended (handlerPhase_ne_ended task.record fault)⟩
  · exact not_written_handlerPhase task.record fault
  · rw [rank_handlerPhase]
    exact hrank

/-- A task that ends in the middle of its work. -/
theorem lost_effect (hinv : OutboxInv text s) (hlive : LiveTask s i task) :
    CallEffect text s (s.setTask i { task with phase := .ended }) i task
      { task with phase := .ended } id True := by
  refine ⟨moved_id hlive rfl rfl rfl rfl, fun _ => admitted_id id, trivial, hinv.calls, ?_,
    fun _ old hold hown hsending => ⟨trivial, old, hold, hown.id, hsending⟩⟩
  cases hphase : task.phase with
  | ended => exact absurd hphase hlive.2
  | _ =>
      rw [rank, rank]
      omega

/-- The handler writes its status. -/
def InHandler : DeliveryPhase → Prop
  | .markingFailed _ => True
  | .markingRetry _ => True
  | _ => False

theorem stepRaised_effect (hinv : OutboxInv text s) (hlive : LiveTask s i task)
    (fault : DeliveryFault) :
    ∃ task' f, CallEffect text s (s.stepRaised i fault task) i task task' f
      (InHandler task.phase) := by
  have hknows := (hinv.tasks i task hlive).2
  unfold PhaseInv at hknows
  have hlost := lost_effect hinv hlive
  cases hphase : task.phase with
  | checking | rewriting | cancelling | markingSent | auditing =>
      simp only [OutboxState.stepRaised, hphase]
      refine ⟨{ task with phase := handlerPhase task.record fault }, id, ?_⟩
      apply handler_effect hlive fault
      · rw [hphase, rank]
        omega
      · rfl
      · rfl
      · rfl
      · exact hinv.calls
  | delivering prepared =>
      rw [hphase] at hknows
      simp only [OutboxState.stepRaised, hphase]
      refine ⟨{ task with phase := handlerPhase task.record fault }, id, ?_⟩
      apply handler_effect hlive fault
      · rw [hphase, rank]
        omega
      · rfl
      · rfl
      · rfl
      · exact calls_append hinv hknows
  | markingFailed | markingRetry =>
      simp only [OutboxState.stepRaised, hphase]
      exact ⟨_, _, hlost.moved, hlost.admitted, hlost.knows, hlost.calls, hlost.nearer,
        fun hended old hold hown hsending =>
          ⟨trivial, (hlost.ends hended old hold hown hsending).2⟩⟩
  | auditingFailed =>
      simp only [OutboxState.stepRaised, hphase]
      have haudited := audited_effect hinv hlive (by rw [hphase]; trivial)
        (by rw [hphase]; exact Nat.succ_pos 0)
      exact ⟨_, _, haudited.moved, haudited.admitted, haudited.knows, haudited.calls,
        haudited.nearer,
        fun hended old hold hown hsending => (haudited.ends hended old hold hown hsending).1.elim⟩
  | ended => exact absurd hphase hlive.2

theorem CallEffect.inv {s' : OutboxState} {f : EmailOutboxRecord → EmailOutboxRecord}
    {abandons : Prop} (h : CallEffect text s s' i task task' f abandons)
    (hinv : OutboxInv text s) : OutboxInv text s' :=
  h.moved.inv hinv h.admitted h.knows h.calls

theorem CallEffect.owned {s' : OutboxState} {f : EmailOutboxRecord → EmailOutboxRecord}
    {abandons : Prop} (h : CallEffect text s s' i task task' f abandons)
    (hinv : OutboxInv text s) (howned : Owned s) (hclean : abandons → ¬Sending s task) :
    Owned s' := by
  refine h.moved.owned hinv howned fun old hold hown hsending hended => ?_
  obtain ⟨habandons, hstill⟩ := h.ends hended old hold hown hsending
  exact hclean habandons hstill

end Calls

/-! ## The other events -/

section Others

variable {text : Lowering} {s : OutboxState}

/-- What a claim takes. -/
structure Claimed (s : OutboxState) (now : Timestamp) (due : List EmailOutboxRecord) : Prop where
  rows : ∀ record ∈ due, record ∈ s.records ∧ Due now record
  ids : (due.map EmailOutboxRecord.emailId).Nodup

theorem claimed_dueRecords (hids : (s.records.map EmailOutboxRecord.emailId).Nodup)
    (now : Timestamp) (limit : ℕ) (skip : String → Bool) :
    Claimed s now (dueRecords now s.records limit skip) := by
  refine ⟨fun record hrecord => ?_, nodup_map_selectFirst hids⟩
  obtain ⟨hmem, hdue, -⟩ := mem_of_mem_selectFirst hrecord
  exact ⟨hmem, hdue⟩

variable {now : Timestamp} {due : List EmailOutboxRecord}

theorem Claimed.mem (h : Claimed s now due) (hids : (s.records.map EmailOutboxRecord.emailId).Nodup)
    {record : EmailOutboxRecord} (hrecord : record ∈ s.records)
    (hid : record.emailId ∈ due.map EmailOutboxRecord.emailId) : record ∈ due := by
  obtain ⟨claimed, hclaimed, hsame⟩ := List.mem_map.mp hid
  obtain rfl := List.inj_on_of_nodup_map hids (h.rows claimed hclaimed).1 hrecord hsame
  exact hclaimed

/-- A claimed record is counted once more. -/
theorem Claimed.countP (h : Claimed s now due) (emailId : String) :
    due.countP (fun record => record.emailId = emailId) =
      if emailId ∈ due.map EmailOutboxRecord.emailId then 1 else 0 := by
  have hcount : due.countP (fun record => record.emailId = emailId) =
      (due.map EmailOutboxRecord.emailId).count emailId := by
    rw [List.count, List.countP_map]
    refine List.countP_congr fun record _ => ?_
    simp
  rw [hcount]
  split_ifs with hmem
  · exact List.count_eq_one_of_mem h.ids hmem
  · exact List.count_eq_zero_of_not_mem hmem

def claimTask (record : EmailOutboxRecord) : DeliveryTask := ⟨claimRow record, .checking, []⟩

/-- The state after a claim of these records. -/
structure AfterClaim (s s' : OutboxState) (due : List EmailOutboxRecord) : Prop where
  records : s'.records =
    updateWhere (fun record =>
      record.emailId ∈ due.map EmailOutboxRecord.emailId) claimRow s.records
  tasks : s'.tasks = s.tasks ++ due.map claimTask
  suppressions : s'.suppressions = s.suppressions
  calls : s'.calls = s.calls

namespace AfterClaim

variable {s' : OutboxState}

theorem attempts (h : AfterClaim s s' due) (hclaimed : Claimed s now due) (emailId : String) :
    attemptsOf s' emailId =
      attemptsOf s emailId + if emailId ∈ due.map EmailOutboxRecord.emailId then 1 else 0 := by
  rw [attemptsOf, h.tasks, List.countP_append, List.countP_map, ← hclaimed.countP]
  rfl

theorem liveTask (h : AfterClaim s s' due) {j : ℕ} {task : DeliveryTask} :
    LiveTask s' j task ↔ LiveTask s j task ∨
      ∃ k record, due[k]? = some record ∧ j = s.tasks.length + k ∧ task = claimTask record := by
  rw [LiveTask, h.tasks]
  rcases lt_or_ge j s.tasks.length with hlt | hge
  · rw [List.getElem?_append_left hlt]
    constructor
    · exact Or.inl
    · rintro (hlive | ⟨k, record, -, hj, -⟩)
      · exact hlive
      · omega
  · rw [List.getElem?_append_right hge, List.getElem?_map]
    constructor
    · rintro ⟨hfound, -⟩
      obtain ⟨record, hrecord, rfl⟩ := Option.map_eq_some_iff.mp hfound
      exact Or.inr ⟨_, record, hrecord, by omega, rfl⟩
    · rintro (⟨hfound, -⟩ | ⟨k, record, hrecord, rfl, rfl⟩)
      · obtain ⟨hlt, -⟩ := List.getElem?_eq_some_iff.mp hfound
        omega
      · rw [Nat.add_sub_cancel_left, hrecord]
        exact ⟨rfl, DeliveryPhase.noConfusion⟩

theorem ids (h : AfterClaim s s' due) :
    s'.records.map EmailOutboxRecord.emailId = s.records.map EmailOutboxRecord.emailId := by
  rw [h.records]
  exact map_updateWhere _ claimRow EmailOutboxRecord.emailId (fun _ _ => rfl) _

theorem claimed_row (h : AfterClaim s s' due) (hclaimed : Claimed s now due)
    {record : EmailOutboxRecord} (hrecord : record ∈ due) : claimRow record ∈ s'.records := by
  rw [h.records]
  refine (mem_updateWhere _ _).mpr ⟨record, (hclaimed.rows record hrecord).1, ?_⟩
  rw [if_pos (List.mem_map_of_mem hrecord)]

theorem other_row (h : AfterClaim s s' due) {record : EmailOutboxRecord}
    (hrecord : record ∈ s.records) (hid : record.emailId ∉ due.map EmailOutboxRecord.emailId) :
    record ∈ s'.records := by
  rw [h.records]
  exact (mem_updateWhere _ _).mpr ⟨record, hrecord, (if_neg hid).symm⟩

/-- No live task works on a due record. -/
theorem apart (hinv : OutboxInv text s) (hclaimed : Claimed s now due) {j : ℕ}
    {task : DeliveryTask} (hlive : LiveTask s j task) {record : EmailOutboxRecord}
    (hrecord : record ∈ due) : task.record.emailId ≠ record.emailId := by
  intro hsame
  obtain ⟨row, hrow, hown⟩ := (hinv.tasks j task hlive).1
  obtain ⟨hmem, hstatus, -⟩ := hclaimed.rows record hrecord
  obtain rfl := List.inj_on_of_nodup_map hinv.ids hrow hmem (hown.id.trans hsame)
  rcases hstatus with hqueued | hretrying
  · exact hown.not_queued hqueued
  · exact hown.not_retrying hretrying

theorem inv (h : AfterClaim s s' due) (hclaimed : Claimed s now due) (hinv : OutboxInv text s) :
    OutboxInv text s' := by
  refine ⟨?_, fun row hrow => ?_, fun task htask => ?_, fun j task htask => ?_,
    fun j k task other htask hother hsame => ?_, by rw [h.suppressions]; exact hinv.suppressions,
    by rw [h.calls]; exact hinv.calls⟩
  · rw [h.ids]
    exact hinv.ids
  · rw [h.records] at hrow
    obtain ⟨old, hold, rfl⟩ := (mem_updateWhere _ _).mp hrow
    have hrecord := hinv.records old hold
    by_cases hid : old.emailId ∈ due.map EmailOutboxRecord.emailId
    · rw [if_pos hid]
      have hstatus := (hclaimed.rows old (hclaimed.mem hinv.ids hold hid)).2.1
      refine ⟨EmailStatus.noConfusion, EmailStatus.noConfusion, ?_, ?_⟩
      · simp only [claimRow]
        rcases hstatus with hqueued | hretrying
        · have hzero := hrecord.queued hqueued
          omega
        · have hleft := hrecord.retrying hretrying
          omega
      · simp only [claimRow]
        rw [h.attempts hclaimed, if_pos hid, hrecord.counted]
    · rw [if_neg hid]
      refine ⟨hrecord.queued, hrecord.retrying, hrecord.bounded, ?_⟩
      rw [h.attempts hclaimed, if_neg hid, hrecord.counted, Nat.add_zero]
  · have hknown : task.record.emailId ∈ s.records.map EmailOutboxRecord.emailId := by
      rw [h.tasks] at htask
      rcases List.mem_append.mp htask with hold | hnew
      · obtain ⟨row, hrow, hid⟩ := hinv.known task hold
        exact List.mem_map.mpr ⟨row, hrow, hid⟩
      · obtain ⟨record, hrecord, rfl⟩ := List.mem_map.mp hnew
        show record.emailId ∈ s.records.map EmailOutboxRecord.emailId
        exact List.mem_map_of_mem (hclaimed.rows record hrecord).1
    rw [← h.ids] at hknown
    exact List.mem_map.mp hknown
  · rcases h.liveTask.mp htask with hold | ⟨k, record, hrecord, -, rfl⟩
    · obtain ⟨⟨row, hrow, hown⟩, hknows⟩ := hinv.tasks j task hold
      refine ⟨⟨row, h.other_row hrow fun hid => ?_, hown⟩, hknows⟩
      exact apart hinv hclaimed hold (hclaimed.mem hinv.ids hrow hid) hown.id.symm
    · have hmem := List.mem_of_getElem? hrecord
      refine ⟨⟨claimRow record, h.claimed_row hclaimed hmem, rfl, rfl, rfl, ?_, ?_, ?_⟩, trivial⟩
      · exact EmailStatus.noConfusion
      · exact EmailStatus.noConfusion
      · exact fun hwritten => hwritten.elim
  · rcases h.liveTask.mp htask with hold | ⟨m, record, hrecord, rfl, rfl⟩ <;>
      rcases h.liveTask.mp hother with hold' | ⟨n, record', hrecord', rfl, rfl⟩
    · exact hinv.alone j k task other hold hold' hsame
    · have hapart := apart hinv hclaimed hold (List.mem_of_getElem? hrecord')
      exact absurd hsame hapart
    · have hapart := apart hinv hclaimed hold' (List.mem_of_getElem? hrecord)
      exact absurd hsame.symm hapart
    · have hm : m < (due.map EmailOutboxRecord.emailId).length := by
        rw [List.length_map]
        exact (List.getElem?_eq_some_iff.mp hrecord).1
      have hsameId : (due.map EmailOutboxRecord.emailId)[m]? =
          (due.map EmailOutboxRecord.emailId)[n]? := by
        rw [List.getElem?_map, List.getElem?_map, hrecord, hrecord']
        exact congrArg some hsame
      rw [(List.getElem?_inj hm hclaimed.ids).mp hsameId]

theorem owned (h : AfterClaim s s' due) (howned : Owned s) : Owned s' := by
  intro row hrow hstatus
  rw [h.records] at hrow
  obtain ⟨old, hold, rfl⟩ := (mem_updateWhere _ _).mp hrow
  by_cases hid : old.emailId ∈ due.map EmailOutboxRecord.emailId
  · rw [if_pos hid]
    obtain ⟨record, hrecord, hsame⟩ := List.mem_map.mp hid
    obtain ⟨k, hk⟩ := List.mem_iff_getElem?.mp hrecord
    exact ⟨_, claimTask record, h.liveTask.mpr (Or.inr ⟨k, record, hk, rfl, rfl⟩), hsame⟩
  · rw [if_neg hid] at hstatus ⊢
    obtain ⟨j, task, hlive, hsame⟩ := howned old hold hstatus
    exact ⟨j, task, h.liveTask.mpr (Or.inl hlive), hsame⟩

end AfterClaim

/-- A new record has no task. -/
theorem enqueue_inv (hinv : OutboxInv text s) {record : EmailOutboxRecord} (hnew : NewRecord record)
    (hfresh : ∀ other ∈ s.records, other.emailId ≠ record.emailId) :
    OutboxInv text { s with records := s.records ++ [record] } := by
  refine ⟨?_, fun row hrow => ?_, fun task htask => ?_, fun j task htask => ?_, hinv.alone,
    hinv.suppressions, hinv.calls⟩
  · rw [List.map_append]
    refine List.nodup_append.mpr ⟨hinv.ids, List.nodup_singleton _, ?_⟩
    rintro id hold id' hid' rfl
    obtain ⟨old, hmem, rfl⟩ := List.mem_map.mp hold
    rw [List.map_singleton, List.mem_singleton] at hid'
    exact hfresh old hmem hid'
  · rcases List.mem_append.mp hrow with hold | hlast
    · exact ⟨(hinv.records row hold).queued, (hinv.records row hold).retrying,
        (hinv.records row hold).bounded, (hinv.records row hold).counted⟩
    · obtain rfl := List.mem_singleton.mp hlast
      obtain ⟨hzero, hstatus⟩ := hnew
      refine ⟨fun _ => hzero, fun hretrying => ?_, by omega, ?_⟩
      · rw [hretrying] at hstatus
        split_ifs at hstatus
      · rw [hzero]
        refine List.countP_eq_zero.mpr fun task htask hid => ?_
        obtain ⟨other, hother, hsame⟩ := hinv.known task htask
        exact hfresh other hother (hsame.trans (of_decide_eq_true hid))
  · obtain ⟨row, hrow, hid⟩ := hinv.known task htask
    exact ⟨row, List.mem_append_left _ hrow, hid⟩
  · obtain ⟨⟨row, hrow, hown⟩, hknows⟩ := hinv.tasks j task htask
    exact ⟨⟨row, List.mem_append_left _ hrow, hown⟩, hknows⟩

theorem enqueue_owned (howned : Owned s) {record : EmailOutboxRecord} (hnew : NewRecord record) :
    Owned { s with records := s.records ++ [record] } := by
  intro row hrow hstatus
  rcases List.mem_append.mp hrow with hold | hlast
  · exact howned row hold hstatus
  · obtain rfl := List.mem_singleton.mp hlast
    have hwritten := hnew.2
    rw [hstatus] at hwritten
    split_ifs at hwritten

/-- A cancellation leaves the tasks, the attempts and the other rows alone. -/
theorem cancel_inv (hinv : OutboxInv text s) (emailId : String) (reason : Option String) :
    OutboxInv text (s.write emailId .cancelled (cancelledRow reason)) := by
  have hkeeps : KeepsAttempts (cancelledRow reason) := ⟨fun _ => rfl, fun _ => rfl, fun _ => rfl⟩
  refine ⟨?_, fun row hrow => ?_, fun task htask => ?_, fun j task htask => ?_, hinv.alone,
    hinv.suppressions, hinv.calls⟩
  · rw [OutboxState.write, ids_updateById hkeeps]
    exact hinv.ids
  · obtain ⟨old, hold, rfl⟩ := mem_updateById.mp hrow
    have hrecord := hinv.records old hold
    split_ifs
    · exact ⟨EmailStatus.noConfusion, EmailStatus.noConfusion, hrecord.bounded, hrecord.counted⟩
    · exact ⟨hrecord.queued, hrecord.retrying, hrecord.bounded, hrecord.counted⟩
  · obtain ⟨row, hrow, hid⟩ := hinv.known task htask
    refine ⟨_, mem_updateById.mpr ⟨row, hrow, rfl⟩, ?_⟩
    split_ifs <;> exact hid
  · obtain ⟨⟨row, hrow, hown⟩, hknows⟩ := hinv.tasks j task htask
    refine ⟨⟨_, mem_updateById.mpr ⟨row, hrow, rfl⟩, ?_⟩, hknows⟩
    split_ifs
    · exact ⟨hown.id, hown.attemptCount, hown.maxAttempts, EmailStatus.noConfusion,
        EmailStatus.noConfusion, fun _ => EmailStatus.noConfusion⟩
    · exact hown

theorem cancel_owned (howned : Owned s) (emailId : String) (reason : Option String) :
    Owned (s.write emailId .cancelled (cancelledRow reason)) := by
  intro row hrow hstatus
  obtain ⟨old, hold, rfl⟩ := mem_updateById.mp hrow
  split_ifs at hstatus with hid
  · cases hstatus
  · rw [if_neg hid]
    exact howned old hold hstatus

theorem suppress_inv (hinv : OutboxInv text s) {normalized : String} (hnamed : normalized ≠ "") :
    OutboxInv text { s with suppressions := normalized :: s.suppressions } := by
  refine ⟨hinv.ids, fun row hrow => ?_, hinv.known, hinv.tasks, hinv.alone, fun address hmem => ?_,
    hinv.calls⟩
  · exact ⟨(hinv.records row hrow).queued, (hinv.records row hrow).retrying,
      (hinv.records row hrow).bounded, (hinv.records row hrow).counted⟩
  · rcases List.mem_cons.mp hmem with rfl | hold
    · exact hnamed
    · exact hinv.suppressions address hold

end Others

/-! ## Final statuses -/

section Statuses

variable {s : OutboxState} {text : Lowering} {config : RetryConfig} {now : Timestamp}

/-- The task's record has a final status already. -/
def Settled (s : OutboxState) (task : DeliveryTask) : Prop :=
  ∃ record ∈ s.records, record.emailId = task.record.emailId ∧ record.status.terminal = true

/-- The statuses that a final one is not to be left for. -/
def Reopens (status : EmailStatus) : Prop :=
  status = .sending ∨ status = .retrying ∨ status = .sent

/-- The phases that write such a status. -/
def Marking : DeliveryPhase → Prop
  | .markingSent _ => True
  | .markingRetry _ => True
  | _ => False

theorem final_append {changes : List StatusChange} {s' : OutboxState} (hfinal : Final s)
    (hs' : s'.changes = s.changes ++ changes)
    (hnew : ∀ change ∈ changes, change.before.terminal = true → ¬Reopens change.after) :
    Final s' := by
  intro change hchange hterminal
  rw [hs'] at hchange
  rcases List.mem_append.mp hchange with hold | hadded
  · exact hfinal change hold hterminal
  · have hkept := hnew change hadded hterminal
    exact ⟨fun h => hkept (Or.inl h), fun h => hkept (Or.inr (Or.inl h)),
      fun h => hkept (Or.inr (Or.inr h))⟩

theorem write_final (hfinal : Final s) {emailId : String} {status : EmailStatus}
    (f : EmailOutboxRecord → EmailOutboxRecord)
    (hclean : Reopens status → ∀ record ∈ s.records, record.emailId = emailId →
      record.status.terminal = false) :
    Final (s.write emailId status f) := by
  refine final_append hfinal rfl fun change hchange hterminal hreopens => ?_
  obtain ⟨record, hrecord, rfl⟩ := List.mem_map.mp hchange
  obtain ⟨hmem, hid⟩ := List.mem_filter.mp hrecord
  have hopen := hclean hreopens record hmem (of_decide_eq_true hid)
  rw [hopen] at hterminal
  cases hterminal

theorem stepDone_final (hfinal : Final s) (i : ℕ) (providerMessageId : Option String)
    {task : DeliveryTask} (hclean : Marking task.phase → ¬Settled s task) :
    Final (s.stepDone text config i now providerMessageId task) := by
  have hopen : Marking task.phase → ∀ record ∈ s.records,
      record.emailId = task.record.emailId → record.status.terminal = false := by
    intro hmarking record hrecord hid
    by_contra hterminal
    exact hclean hmarking ⟨record, hrecord, hid, by simpa using hterminal⟩
  cases hphase : task.phase with
  | checking | rewriting | delivering | auditing | auditingFailed | ended =>
      simp only [OutboxState.stepDone, hphase]
      exact hfinal
  | cancelling =>
      simp only [OutboxState.stepDone, hphase]
      refine write_final hfinal (cancelledRow (some "all recipients are suppressed"))
        fun hreopens => ?_
      rcases hreopens with h | h | h <;> cases h
  | markingFailed error =>
      simp only [OutboxState.stepDone, hphase]
      refine write_final hfinal (failedRow error) fun hreopens => ?_
      rcases hreopens with h | h | h <;> cases h
  | markingSent providerMessageId =>
      rw [hphase] at hopen
      simp only [OutboxState.stepDone, hphase]
      exact write_final hfinal (sentRow now providerMessageId) fun _ => hopen trivial
  | markingRetry error =>
      rw [hphase] at hopen
      simp only [OutboxState.stepDone, hphase]
      let delay := retryDelaySeconds config task.record.attemptCount
      exact write_final hfinal (retryRow error (now + seconds delay)) fun _ => hopen trivial

theorem stepRaised_final (hfinal : Final s) (i : ℕ) (fault : DeliveryFault) (task : DeliveryTask) :
    Final (s.stepRaised i fault task) := by
  cases hphase : task.phase <;> simp only [OutboxState.stepRaised, hphase] <;> exact hfinal

theorem cancel_final (hfinal : Final s) (emailId : String) (reason : Option String) :
    Final (s.write emailId .cancelled (cancelledRow reason)) := by
  refine write_final hfinal _ fun hreopens => ?_
  rcases hreopens with h | h | h <;> cases h

theorem claimDue_final (hfinal : Final s) (now : Timestamp) (limit : ℕ) (skip : String → Bool) :
    Final (s.claimDue now limit skip) := by
  refine final_append hfinal rfl fun change hchange hterminal => ?_
  obtain ⟨record, hrecord, rfl⟩ := List.mem_map.mp hchange
  obtain ⟨-, ⟨hstatus, -⟩, -⟩ := mem_of_mem_selectFirst hrecord
  rcases hstatus with hqueued | hretrying
  · rw [hqueued] at hterminal
    cases hterminal
  · rw [hretrying] at hterminal
    cases hterminal

end Statuses

/-! ## Runs -/

section Runs

variable {text : Lowering} {config : RetryConfig} {s : OutboxState}

/-- A worker that marks its record sent or for retry finds it open, and its handler can write. -/
def CleanCall (s : OutboxState) (task : DeliveryTask) : CallResult → Prop
  | .done _ => Marking task.phase → ¬Settled s task
  | .raised _ => InHandler task.phase → ¬Sending s task

/-- And no worker dies while its record is sending. -/
def CleanStep (s : OutboxState) : OutboxEvent → Prop
  | .step i _ result => ∀ task, s.tasks[i]? = some task → CleanCall s task result
  | .lost i => ∀ task, s.tasks[i]? = some task → ¬Sending s task
  | _ => True

/-- What the outbox is to keep: final statuses, a worker for every sending record, the bound on the
attempts, and suppressions. -/
structure OutboxKept (text : Lowering) (s : OutboxState) : Prop where
  final : Final s
  owned : Owned s
  attempts : ∀ record ∈ s.records, attemptsOf s record.emailId ≤ max 1 record.maxAttempts
  suppressed : ∀ call ∈ s.calls, Unsuppressed text call.suppressions call.recipients

structure CleanInv (text : Lowering) (s : OutboxState) : Prop where
  inv : OutboxInv text s
  owned : Owned s
  final : Final s

theorem CleanInv.kept (h : CleanInv text s) : OutboxKept text s := by
  refine ⟨h.final, h.owned, fun record hrecord => ?_, h.inv.calls⟩
  rw [(h.inv.records record hrecord).counted]
  exact (h.inv.records record hrecord).bounded

theorem step_clean (h : CleanInv text s) {i : ℕ} {task : DeliveryTask} (hlive : LiveTask s i task)
    (now : Timestamp) {result : CallResult} (hclean : CleanCall s task result) :
    CleanInv text (s.step text config i now task result) := by
  cases result with
  | done providerMessageId =>
      obtain ⟨task', f, heffect⟩ := stepDone_effect config h.inv hlive providerMessageId
      exact ⟨heffect.inv h.inv, heffect.owned h.inv h.owned False.elim,
        stepDone_final h.final i providerMessageId hclean⟩
  | raised fault =>
      obtain ⟨task', f, heffect⟩ := stepRaised_effect h.inv hlive fault
      exact ⟨heffect.inv h.inv, heffect.owned h.inv h.owned hclean,
        stepRaised_final h.final i fault task⟩

theorem next_clean (h : CleanInv text s) (e : OutboxEvent) (henabled : outboxEnabled s e)
    (hclean : CleanStep s e) : CleanInv text (outboxNext text config s e) := by
  cases e with
  | enqueue record =>
      exact ⟨enqueue_inv h.inv henabled.1 henabled.2, enqueue_owned h.owned henabled.1, h.final⟩
  | claimDue now limit skip =>
      have hclaimed := claimed_dueRecords h.inv.ids now limit skip
      have hafter : AfterClaim s (s.claimDue now limit skip)
        (dueRecords now s.records limit skip) :=
        ⟨rfl, rfl, rfl, rfl⟩
      exact ⟨hafter.inv hclaimed h.inv, hafter.owned h.owned, claimDue_final h.final now limit skip⟩
  | suppress address =>
      simp only [outboxNext]
      cases hnormalized : normalizeEmailAddress text address with
      | none => exact h
      | some normalized =>
          exact ⟨suppress_inv h.inv (normalizeEmailAddress_ne_empty hnormalized), h.owned, h.final⟩
  | cancel emailId reason =>
      exact ⟨cancel_inv h.inv emailId reason, cancel_owned h.owned emailId reason,
        cancel_final h.final emailId reason⟩
  | step i now result =>
      obtain ⟨task, hlive, -⟩ := henabled
      simp only [outboxNext, hlive.1]
      exact step_clean h hlive now (hclean task hlive.1)
  | lost i =>
      obtain ⟨task, hlive⟩ := henabled
      simp only [outboxNext, hlive.1]
      have heffect := lost_effect h.inv hlive
      exact ⟨heffect.inv h.inv, heffect.owned h.inv h.owned fun _ => hclean task hlive.1, h.final⟩

theorem initial_clean (h : (outboxSystem text config).initial s) : CleanInv text s := by
  obtain rfl : s = ⟨[], [], [], [], []⟩ := h
  refine ⟨⟨List.nodup_nil, ?_, ?_, ?_, ?_, ?_, ?_⟩, ?_, ?_⟩
  all_goals simp [LiveTask, Owned, Final]

end Runs

/-- In every run whose steps are clean, final statuses stay, every sending record is in the hands of
a task that each of its calls brings nearer to the end, and attempts and recipients are bounded. -/
theorem email_outbox_kept {text : Lowering} {config : RetryConfig} {s : OutboxState}
    (h : ReachableBy (outboxSystem text config) CleanStep s) :
    OutboxKept text s ∧ ∀ i task, LiveTask s i task → ∀ now result,
      ∃ task', (s.step text config i now task result).tasks[i]? = some task' ∧
        rank task'.phase < rank task.phase := by
  have hinv : CleanInv text s := ReachableBy.invariant (fun _ => initial_clean)
    (fun _ e hinv => next_clean hinv e) h
  refine ⟨hinv.kept, fun i task hlive now result => ?_⟩
  have hmoves : ∀ {s' : OutboxState} {task' : DeliveryTask} {f abandons},
      CallEffect text s s' i task task' f abandons →
        ∃ task', s'.tasks[i]? = some task' ∧ rank task'.phase < rank task.phase := by
    intro s' task' f abandons heffect
    refine ⟨task', ?_, heffect.nearer⟩
    rw [heffect.moved.tasks, List.getElem?_set_self (List.getElem?_eq_some_iff.mp hlive.1).1]
  cases result with
  | done providerMessageId =>
      obtain ⟨task', f, heffect⟩ := stepDone_effect config hinv.inv hlive providerMessageId
      exact hmoves heffect
  | raised fault =>
      obtain ⟨task', f, heffect⟩ := stepRaised_effect hinv.inv hlive fault
      exact hmoves heffect

/-! ## One test e-mail -/

def asciiLowering : Lowering where
  lower := PythonText.lower
  lower_empty := rfl
  lower_strip text := by
    rw [PythonText.strip_lower, PythonText.strip_strip, PythonText.lower_lower]

def testEmail : EmailOutboxRecord :=
  { emailId := "email-1", kind := "test", recipients := ⟨["ops@example.com"], [], []⟩,
    status := .queued, attemptCount := 0, maxAttempts := 5, nextAttemptAt := 0, lastError := none,
    lastProviderMessageId := none, createdAt := 0, sentAt := none }

def emptyOutbox : OutboxState := ⟨[], [], [], [], []⟩

def claimed : List OutboxEvent := [.enqueue testEmail, .claimDue 1 10 fun _ => false]

def sentOnce : List OutboxEvent :=
  claimed ++ List.replicate 3 (.step 0 2 (.done (some "message-1")))

def afterRun (es : List OutboxEvent) : OutboxState :=
  es.foldl (outboxNext asciiLowering {}) emptyOutbox

theorem email_outbox_kept_once :
    ReachableBy (outboxSystem asciiLowering {}) CleanStep (afterRun sentOnce) ∧
      OutboxKept asciiLowering (afterRun sentOnce) := by
  have hfires : Fires (outboxSystem asciiLowering {}) CleanStep emptyOutbox sentOnce := by
    refine ⟨⟨⟨rfl, rfl⟩, by simp [emptyOutbox]⟩, trivial, trivial, trivial,
      ⟨_, ⟨rfl, DeliveryPhase.noConfusion⟩, trivial⟩, ?_,
      ⟨_, ⟨rfl, DeliveryPhase.noConfusion⟩, trivial⟩, ?_,
      ⟨_, ⟨rfl, DeliveryPhase.noConfusion⟩, trivial⟩, ?_, trivial⟩
    · rintro task ⟨⟩ hmarking
      exact hmarking.elim
    · rintro task ⟨⟩ hmarking
      exact hmarking.elim
    · rintro task ⟨⟩ - ⟨record, hrecord, -, hterminal⟩
      obtain rfl : record = claimRow testEmail := List.mem_singleton.mp hrecord
      cases hterminal
  have hreach : ReachableBy (outboxSystem asciiLowering {}) CleanStep (afterRun sentOnce) :=
    (ReachableBy.initial rfl).fires hfires
  exact ⟨hreach, (email_outbox_kept hreach).1⟩

/-- The worker dies after its claim; the audit of a sent e-mail raises, and the handler puts the
e-mail up for another attempt. -/
theorem email_outbox_broken :
    (∃ s, Reachable (outboxSystem asciiLowering {}) s ∧ ∃ record ∈ s.records,
      record.status = .sending ∧ ∀ task ∈ s.tasks, task.phase = .ended) ∧
    ∃ s, Reachable (outboxSystem asciiLowering {}) s ∧ ∃ change ∈ s.changes,
      change.before = .sent ∧ change.after = .retrying := by
  have hstart : Reachable (outboxSystem asciiLowering {}) emptyOutbox := ReachableBy.initial rfl
  refine ⟨⟨afterRun (claimed ++ [.lost 0]), hstart.fires ?_, claimRow testEmail, ?_, rfl, ?_⟩,
    afterRun (sentOnce ++
      [.step 0 3 (.raised (.other "audit queue closed")), .step 0 4 (.done none)]),
    hstart.fires ?_, ⟨"email-1", .sent, .retrying⟩, ?_, rfl, rfl⟩
  · exact ⟨⟨⟨rfl, rfl⟩, by simp [emptyOutbox]⟩, trivial, trivial, trivial,
      ⟨_, rfl, DeliveryPhase.noConfusion⟩, trivial, trivial⟩
  · exact List.mem_singleton.mpr rfl
  · intro task htask
    obtain rfl := List.mem_singleton.mp htask
    rfl
  · exact ⟨⟨⟨rfl, rfl⟩, by simp [emptyOutbox]⟩, trivial, trivial, trivial,
      ⟨_, ⟨rfl, DeliveryPhase.noConfusion⟩, trivial⟩, trivial,
      ⟨_, ⟨rfl, DeliveryPhase.noConfusion⟩, trivial⟩, trivial,
      ⟨_, ⟨rfl, DeliveryPhase.noConfusion⟩, trivial⟩, trivial,
      ⟨_, ⟨rfl, DeliveryPhase.noConfusion⟩, fun _ => rfl⟩, trivial,
      ⟨_, ⟨rfl, DeliveryPhase.noConfusion⟩, trivial⟩, trivial, trivial⟩
  · exact List.mem_of_mem_tail (List.mem_of_mem_tail (List.mem_singleton.mpr rfl))

end EmailDelivery
