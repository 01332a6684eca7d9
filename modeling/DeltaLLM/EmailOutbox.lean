import DeltaLLM.PythonText
import DeltaLLM.TableStatements
import DeltaLLM.TransitionRuns

/-! # The e-mail outbox

A worker claims due records and then works on each alone: it drops suppressed recipients, sends,
writes the status and an audit event. One handler takes every exception on the way. Subjects, bodies
and the payload are left out.
-/
namespace EmailOutbox

open PythonText (strip)
open TableStatements
open TransitionRuns

/-- Milliseconds. -/
abbrev Timestamp := ℕ

def seconds (n : ℕ) : Timestamp := 1000 * n

inductive EmailStatus where
  | queued
  | sending
  | retrying
  | sent
  | failed
  | cancelled
  deriving DecidableEq

def EmailStatus.terminal : EmailStatus → Bool
  | .sent | .failed | .cancelled => true
  | _ => false

structure Recipients where
  toAddresses : List String
  ccAddresses : List String
  bccAddresses : List String
  deriving DecidableEq

def Recipients.all (recipients : Recipients) : List String :=
  recipients.toAddresses ++ recipients.ccAddresses ++ recipients.bccAddresses

structure EmailOutboxRecord where
  emailId : String
  kind : String
  recipients : Recipients
  status : EmailStatus
  attemptCount : ℕ
  maxAttempts : ℕ
  nextAttemptAt : Timestamp
  lastError : Option String
  lastProviderMessageId : Option String
  createdAt : Timestamp
  sentAt : Option Timestamp

/-! ## Suppressions -/

/-- `str.lower`, with what normalising an address twice relies on. -/
structure Lowering where
  lower : String → String
  lower_empty : lower "" = ""
  lower_strip : ∀ text, lower (strip (lower (strip text))) = lower (strip text)

section Suppressions

variable (text : Lowering)

/-- `_normalize_address`. -/
def normalizeAddress (address : String) : String := text.lower (strip address)

/-- `_normalize_email_address` of the webhook service. -/
def normalizeEmailAddress (address : String) : Option String :=
  let normalized := normalizeAddress text address
  if normalized = "" ∨ PythonText.contains normalized "@" = false then none else some normalized

/-- `get_suppressed_addresses`. -/
def getSuppressedAddresses (suppressions addresses : List String) : List String :=
  let normalized := (addresses.filter fun address => strip address ≠ "").map (normalizeAddress text)
  (suppressions.filter fun address => address ∈ normalized ∧ address ≠ "").map
    (normalizeAddress text)

/-- The caller normalises the answer again. -/
def suppressedAddresses (suppressions addresses : List String) : List String :=
  ((getSuppressedAddresses text suppressions addresses).map (normalizeAddress text)).filter (· ≠ "")

/-- `_apply_suppressed_recipients`. -/
def applySuppressed (suppressed : List String) (recipients : Recipients) : Recipients :=
  let allowed := fun addresses : List String =>
    addresses.filter fun address => normalizeAddress text address ∉ suppressed
  { toAddresses := allowed recipients.toAddresses
    ccAddresses := allowed recipients.ccAddresses
    bccAddresses := allowed recipients.bccAddresses }

end Suppressions

/-! ## Statements -/

section Statements

variable (now : Timestamp) (emailId : String) (records : List EmailOutboxRecord)

def Due (record : EmailOutboxRecord) : Prop :=
  (record.status = .queued ∨ record.status = .retrying) ∧ record.nextAttemptAt ≤ now

instance (record : EmailOutboxRecord) : Decidable (Due now record) := by
  unfold Due
  exact inferInstance

def oldestFirst (a b : EmailOutboxRecord) : Prop := a.createdAt ≤ b.createdAt

instance : DecidableRel oldestFirst :=
  fun a b => inferInstanceAs (Decidable (a.createdAt ≤ b.createdAt))

/-- The `due` CTE; SKIP LOCKED passes over the rows that `skip` names. -/
def dueRecords (limit : ℕ) (skip : String → Bool) : List EmailOutboxRecord :=
  selectFirst (fun record => Due now record ∧ skip record.emailId = false) oldestFirst limit records

def claimRow (record : EmailOutboxRecord) : EmailOutboxRecord :=
  { record with status := .sending, attemptCount := record.attemptCount + 1 }

def updateById (f : EmailOutboxRecord → EmailOutboxRecord) : List EmailOutboxRecord :=
  updateWhere (fun record => record.emailId = emailId) f records

/-- `error[:4000]`. -/
def shortError (error : String) : String := String.ofList (error.toList.take 4000)

def sentRow (providerMessageId : Option String) (record : EmailOutboxRecord) : EmailOutboxRecord :=
  { record with
    status := .sent
    sentAt := some now
    lastProviderMessageId := providerMessageId
    lastError := none }

def retryRow (error : String) (nextAttemptAt : Timestamp) (record : EmailOutboxRecord) :
    EmailOutboxRecord :=
  { record with status := .retrying, lastError := some (shortError error), nextAttemptAt }

def failedRow (error : String) (record : EmailOutboxRecord) : EmailOutboxRecord :=
  { record with status := .failed, lastError := some (shortError error) }

def cancelledRow (reason : Option String) (record : EmailOutboxRecord) : EmailOutboxRecord :=
  { record with status := .cancelled, lastError := reason.map shortError }

end Statements

/-! ## Processing one record -/

/-- What a call raises. -/
inductive DeliveryFault where
  | configuration (error : String)
  | delivery (error : String) (retriable : Bool)
  | other (error : String)

def DeliveryFault.error : DeliveryFault → String
  | .configuration error => error
  | .delivery error _ => error
  | .other error => error

/-- `_should_retry`. -/
def shouldRetry (record : EmailOutboxRecord) : DeliveryFault → Bool
  | .configuration _ => false
  | .delivery _ false => false
  | _ => record.attemptCount < record.maxAttempts

structure RetryConfig where
  initialSeconds : ℕ := 60
  maxSeconds : ℕ := 3600

/-- `_retry_delay_seconds`. -/
def retryDelaySeconds (config : RetryConfig) (attemptCount : ℕ) : ℕ :=
  min (config.initialSeconds * max 1 (2 ^ (attemptCount - 1))) config.maxSeconds

/-- The next call of `_process_record`, with the variables that it uses. -/
inductive DeliveryPhase where
  | checking
  | rewriting (filtered : Recipients)
  | cancelling
  | delivering (prepared : Recipients)
  | markingSent (providerMessageId : Option String)
  | auditing
  | markingFailed (error : String)
  | markingRetry (error : String)
  | auditingFailed
  | ended
  deriving DecidableEq

/-- A claimed record in the hands of a worker. `suppressions` is the table at its check. -/
structure DeliveryTask where
  record : EmailOutboxRecord
  phase : DeliveryPhase
  suppressions : List String

/-- `_has_any_recipients` decides between the two branches. -/
def afterFilter (prepared : Recipients) : DeliveryPhase :=
  if prepared.all = [] then .cancelling else .delivering prepared

/-- The handler picks its status before it writes it. -/
def handlerPhase (record : EmailOutboxRecord) (fault : DeliveryFault) : DeliveryPhase :=
  if shouldRetry record fault then .markingRetry fault.error else .markingFailed fault.error

/-! ## The system -/

/-- A write of the status column. -/
structure StatusChange where
  emailId : String
  before : EmailStatus
  after : EmailStatus

/-- A call of the provider, with the suppressions at the attempt's check. -/
structure ProviderCall where
  recipients : Recipients
  suppressions : List String

/-- `changes` and `calls` record what happened. -/
structure OutboxState where
  records : List EmailOutboxRecord
  suppressions : List String
  tasks : List DeliveryTask
  changes : List StatusChange
  calls : List ProviderCall

/-- How a call ends. -/
inductive CallResult where
  | done (providerMessageId : Option String)
  | raised (fault : DeliveryFault)

inductive OutboxEvent where
  | enqueue (record : EmailOutboxRecord)
  | claimDue (now : Timestamp) (limit : ℕ) (skip : String → Bool)
  | suppress (address : String)
  | cancel (emailId : String) (reason : Option String)
  | step (task : ℕ) (now : Timestamp) (result : CallResult)
  | lost (task : ℕ)

namespace OutboxState

variable (text : Lowering) (config : RetryConfig) (s : OutboxState)

/-- An UPDATE by primary key that writes a status. -/
def write (emailId : String) (status : EmailStatus)
    (f : EmailOutboxRecord → EmailOutboxRecord) : OutboxState :=
  { s with
    records := updateById emailId s.records f
    changes := s.changes ++ (s.records.filter fun record => record.emailId = emailId).map
      fun record => ⟨emailId, record.status, status⟩ }

def setTask (i : ℕ) (task : DeliveryTask) : OutboxState := { s with tasks := s.tasks.set i task }

def claimDue (now : Timestamp) (limit : ℕ) (skip : String → Bool) : OutboxState :=
  let due := dueRecords now s.records limit skip
  { s with
    records := updateWhere (fun record => record.emailId ∈ due.map EmailOutboxRecord.emailId)
      claimRow s.records
    tasks := s.tasks ++ due.map fun record => ⟨claimRow record, .checking, []⟩
    changes := s.changes ++ due.map fun record => ⟨record.emailId, record.status, .sending⟩ }

/-- A call that succeeds. -/
def stepDone (i : ℕ) (now : Timestamp) (providerMessageId : Option String) (task : DeliveryTask) :
    OutboxState :=
  let emailId := task.record.emailId
  let goto := fun phase => { task with phase := phase }
  match task.phase with
  | .checking =>
      let suppressed := suppressedAddresses text s.suppressions task.record.recipients.all
      let filtered := applySuppressed text suppressed task.record.recipients
      let phase := if suppressed = [] then afterFilter task.record.recipients
        else .rewriting filtered
      s.setTask i { task with phase := phase, suppressions := s.suppressions }
  | .rewriting filtered =>
      { s.setTask i (goto (afterFilter filtered)) with
        records := updateById emailId s.records fun record =>
          { record with recipients := filtered } }
  | .cancelling => (s.write emailId .cancelled
      (cancelledRow (some "all recipients are suppressed"))).setTask i (goto .auditing)
  | .delivering prepared =>
      { s.setTask i (goto (.markingSent providerMessageId)) with
        calls := s.calls ++ [⟨prepared, task.suppressions⟩] }
  | .markingSent providerMessageId =>
      (s.write emailId .sent (sentRow now providerMessageId)).setTask i (goto .auditing)
  | .auditing => s.setTask i (goto .ended)
  | .markingFailed error =>
      (s.write emailId .failed (failedRow error)).setTask i (goto .auditingFailed)
  | .markingRetry error =>
      let delay := retryDelaySeconds config task.record.attemptCount
      (s.write emailId .retrying (retryRow error (now + seconds delay))).setTask i (goto .ended)
  | .auditingFailed => s.setTask i (goto .ended)
  | .ended => s

/-- A call that raises: inside the `try` the handler follows, and in the handler nothing does. -/
def stepRaised (i : ℕ) (fault : DeliveryFault) (task : DeliveryTask) : OutboxState :=
  match task.phase with
  | .delivering prepared =>
      { s.setTask i { task with phase := handlerPhase task.record fault } with
        calls := s.calls ++ [⟨prepared, task.suppressions⟩] }
  | .checking | .rewriting _ | .cancelling | .markingSent _ | .auditing =>
      s.setTask i { task with phase := handlerPhase task.record fault }
  | .markingFailed _ | .markingRetry _ | .auditingFailed | .ended =>
      s.setTask i { task with phase := .ended }

def step (i : ℕ) (now : Timestamp) (task : DeliveryTask) : CallResult → OutboxState
  | .done providerMessageId => s.stepDone text config i now providerMessageId task
  | .raised fault => s.stepRaised i fault task

end OutboxState

section System

variable (text : Lowering) (config : RetryConfig) (s : OutboxState)

/-- The rows that `enqueue_template_email` writes. -/
def NewRecord (record : EmailOutboxRecord) : Prop :=
  record.attemptCount = 0 ∧
    record.status = if record.recipients.toAddresses = [] then .cancelled else .queued

def LiveTask (i : ℕ) (task : DeliveryTask) : Prop := s.tasks[i]? = some task ∧ task.phase ≠ .ended

/-- Audit events are written for test e-mails alone, so no other audit raises. -/
def CanEnd (task : DeliveryTask) : CallResult → Prop
  | .done _ => True
  | .raised _ => task.phase = .auditing ∨ task.phase = .auditingFailed → task.record.kind = "test"

def outboxEnabled : OutboxEvent → Prop
  | .enqueue record => NewRecord record ∧ ∀ other ∈ s.records, other.emailId ≠ record.emailId
  | .claimDue _ _ _ => True
  | .suppress _ => True
  | .cancel _ _ => True
  | .step i _ result => ∃ task, LiveTask s i task ∧ CanEnd task result
  | .lost i => ∃ task, LiveTask s i task

def outboxNext : OutboxEvent → OutboxState
  | .enqueue record => { s with records := s.records ++ [record] }
  | .claimDue now limit skip => s.claimDue now limit skip
  | .suppress address => match normalizeEmailAddress text address with
      | some normalized => { s with suppressions := normalized :: s.suppressions }
      | none => s
  | .cancel emailId reason => s.write emailId .cancelled (cancelledRow reason)
  | .step i now result => match s.tasks[i]? with
      | some task => s.step text config i now task result
      | none => s
  | .lost i => match s.tasks[i]? with
      | some task => s.setTask i { task with phase := .ended }
      | none => s

def outboxSystem : TransitionSystem OutboxState OutboxEvent where
  initial s := s = ⟨[], [], [], [], []⟩
  enabled := outboxEnabled
  next := outboxNext text config

end System

end EmailOutbox
