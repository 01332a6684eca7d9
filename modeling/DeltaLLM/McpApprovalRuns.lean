import DeltaLLM.McpApprovals
import DeltaLLM.TransitionRuns

/-! # Runs of approvals and calls

Every statement on the approval requests is one event, so the statements of different calls and the
decisions come in any order; the clock of the database and the clocks of the gateways are free.
-/
namespace McpApprovalRuns

open JsonValues
open McpApprovals
open RuntimeScopes
open TableStatements
open TransitionRuns

/-! ## The statements -/

inductive ApprovalStatus where
  | pending | approved | rejected | expired
  deriving DecidableEq, Repr

structure MCPApprovalRequestRecord where
  mcpApprovalRequestId : String
  mcpServerId : String
  toolName : String
  scopeType : String
  scopeId : String
  status : ApprovalStatus
  requestFingerprint : String
  requestedByApiKey : Option String
  requestedByUser : Option String
  organizationId : Option String
  requestId : Option String
  correlationId : Option String
  argumentsJson : JsonObject
  decisionComment : Option String
  decidedByAccountId : Option String
  decidedAt : Option Timestamp
  expiresAt : Option Timestamp
  createdAt : Timestamp
  updatedAt : Timestamp

namespace MCPApprovalRequestRecord

variable (row other : MCPApprovalRequestRecord)

/-- `expires_at IS NULL OR expires_at > NOW()`. -/
def Live (now : Timestamp) : Prop := ∀ expiry ∈ row.expiresAt, now < expiry

instance (now : Timestamp) : Decidable (row.Live now) :=
  inferInstanceAs (Decidable (∀ expiry ∈ row.expiresAt, now < expiry))

/-- `COALESCE(decided_at, created_at)`. -/
def activeAt : Timestamp := row.decidedAt.getD row.createdAt

/-- `ORDER BY COALESCE(decided_at, created_at) DESC, updated_at DESC`. -/
def ActiveFirst : Prop :=
  other.activeAt < row.activeAt ∨
    (other.activeAt = row.activeAt ∧ other.updatedAt ≤ row.updatedAt)

instance : DecidableRel ActiveFirst := fun row other =>
  inferInstanceAs (Decidable (other.activeAt < row.activeAt ∨
    (other.activeAt = row.activeAt ∧ other.updatedAt ≤ row.updatedAt)))

instance : Std.Total ActiveFirst := by
  refine ⟨fun row other => ?_⟩
  rcases lt_trichotomy other.activeAt row.activeAt with hlt | heq | hlt
  · exact Or.inl (Or.inl hlt)
  · rcases le_total other.updatedAt row.updatedAt with hle | hle
    · exact Or.inl (Or.inr ⟨heq, hle⟩)
    · exact Or.inr (Or.inr ⟨heq.symm, hle⟩)
  · exact Or.inr (Or.inl hlt)

instance : IsTrans MCPApprovalRequestRecord ActiveFirst := by
  refine ⟨fun first second third h h' => ?_⟩
  rcases h with hlt | ⟨heq, hle⟩
  · rcases h' with hlt' | ⟨heq', _⟩
    · exact Or.inl (hlt'.trans hlt)
    · exact Or.inl (heq'.trans_lt hlt)
  · rcases h' with hlt' | ⟨heq', hle'⟩
    · exact Or.inl (hlt'.trans_eq heq)
    · exact Or.inr ⟨heq'.trans heq, hle'.trans hle⟩

end MCPApprovalRequestRecord

/-- `expire_stale_approval_requests`. -/
def expireStaleApprovalRequests (now : Timestamp) (requestFingerprint : String)
    (rows : List MCPApprovalRequestRecord) : List MCPApprovalRequestRecord :=
  updateWhere
    (fun row => row.requestFingerprint = requestFingerprint ∧ row.status ≠ .expired ∧
      ∃ expiry ∈ row.expiresAt, expiry ≤ now)
    (fun row => { row with status := .expired, updatedAt := now }) rows

/-- `find_active_approval_request`. -/
def findActiveApprovalRequest (now : Timestamp) (requestFingerprint : String)
    (rows : List MCPApprovalRequestRecord) : Option MCPApprovalRequestRecord :=
  (selectFirst
    (fun row => row.requestFingerprint = requestFingerprint ∧ row.status ≠ .expired ∧ row.Live now)
    MCPApprovalRequestRecord.ActiveFirst 1 rows).head?

/-- The row that `create_approval_request` inserts for a call. -/
def requestedRow (sha256 : String → String) (now : Timestamp) (requestId : String)
    (expiresAt : Timestamp) (target : ApprovalTarget) (call : ToolCall) :
    MCPApprovalRequestRecord where
  mcpApprovalRequestId := requestId
  mcpServerId := target.server.serverId
  toolName := target.toolName
  scopeType := target.policy.scopeType
  scopeId := target.policy.scopeId
  status := .pending
  requestFingerprint := fingerprint sha256 target call
  requestedByApiKey := call.auth.apiKey
  requestedByUser := call.auth.userId
  organizationId := call.auth.organizationId
  requestId := call.requestId
  correlationId := call.correlationId
  argumentsJson := call.arguments
  decisionComment := none
  decidedByAccountId := none
  decidedAt := none
  expiresAt := some expiresAt
  createdAt := now
  updatedAt := now

/-- `create_approval_request`: a pending request of the same fingerprint is returned instead. -/
def createApprovalRequest (row : MCPApprovalRequestRecord) (rows : List MCPApprovalRequestRecord) :
    List MCPApprovalRequestRecord × MCPApprovalRequestRecord :=
  match rows.find? fun old =>
      old.requestFingerprint = row.requestFingerprint ∧ old.status = .pending with
  | some old => (rows, old)
  | none => (rows ++ [row], row)

/-- `decide_approval_request`. -/
def decideApprovalRequest (now : Timestamp) (approvalRequestId : String) (status : ApprovalStatus)
    (decidedByAccountId decisionComment : Option String) (expiresAt : Option Timestamp)
    (rows : List MCPApprovalRequestRecord) : List MCPApprovalRequestRecord :=
  updateWhere (fun row => row.mcpApprovalRequestId = approvalRequestId ∧ row.status = .pending)
    (fun row =>
      { row with
        status, decidedByAccountId, decisionComment, expiresAt
        decidedAt := some now
        updatedAt := now }) rows

/-- The lifetimes of `MCPApprovalService`, in milliseconds. -/
structure MCPApprovalService where
  pendingTtl : ℕ := 24 * 3600000
  approvedTtl : ℕ := 15 * 60000
  rejectedTtl : ℕ := 15 * 60000

/-- `decision_expiry_for_status`; `clock` is the clock of the process. -/
def MCPApprovalService.decisionExpiryForStatus (service : MCPApprovalService) (clock : Timestamp) :
    ApprovalStatus → Option Timestamp
  | .approved => some (clock + service.approvedTtl)
  | .rejected => some (clock + service.rejectedTtl)
  | _ => none

/-! ## The system -/

/-- The table and the clock when a call was authorised. -/
structure Clearance where
  rows : List MCPApprovalRequestRecord
  seenAt : Timestamp

/-- Where an open call stands: before the statements of `authorize_execution`, or past the gate. -/
inductive CallPhase where
  | expiring (target : ApprovalTarget)
  | finding (target : ApprovalTarget)
  | creating (target : ApprovalTarget)
  | cleared (clearance : Option Clearance)

def CallPhase.isExpiring : CallPhase → Bool
  | .expiring _ => true
  | _ => false

def CallPhase.isFinding : CallPhase → Bool
  | .finding _ => true
  | _ => false

def CallPhase.isCreating : CallPhase → Bool
  | .creating _ => true
  | _ => false

def CallPhase.isCleared : CallPhase → Bool
  | .cleared _ => true
  | _ => false

/-- The call that a request was created for. -/
structure RequestOrigin where
  requestId : String
  target : ApprovalTarget
  call : ToolCall

/-- A decision and the request that it met. -/
structure ApprovalDecision where
  request : MCPApprovalRequestRecord
  status : ApprovalStatus
  decidedAt : Timestamp

structure ForwardedCall where
  call : ToolCall
  clearance : Option Clearance

/-- `origins`, `decisions` and `forwarded` record what happened. -/
structure ApprovalState where
  now : Timestamp
  rows : List MCPApprovalRequestRecord
  calls : ℕ → Option (ToolCall × CallPhase)
  origins : List RequestOrigin
  decisions : List ApprovalDecision
  forwarded : List ForwardedCall

inductive ApprovalEvent where
  | setClock (now : Timestamp)
  | call (pid : ℕ) (call : ToolCall)
  | expireStale (pid : ℕ)
  | findActive (pid : ℕ)
  | createRequest (pid : ℕ) (requestId : String) (clock : Timestamp)
  | forward (pid : ℕ)
  | abandon (pid : ℕ)
  | decide (approvalRequestId : String) (status : ApprovalStatus)
      (decidedByAccountId decisionComment : Option String) (clock : Timestamp)

section System

variable (sha256 : String → String) (textOf : JsonValue → String) (service : MCPApprovalService)

namespace ApprovalState

variable (s : ApprovalState)

def setCall (pid : ℕ) (call : Option (ToolCall × CallPhase)) : ApprovalState :=
  { s with calls := Function.update s.calls pid call }

/-- The phase that follows the gate; a refused call ends. -/
def afterGate (call : ToolCall) : Option (ToolCall × CallPhase) :=
  match gate textOf call with
  | .manual target => some (call, .expiring target)
  | .unguarded => some (call, .cleared none)
  | _ => none

/-- The phase that follows the lookup: a pending or rejected request ends the call. -/
def afterFind (target : ApprovalTarget) (call : ToolCall) : Option (ToolCall × CallPhase) :=
  match findActiveApprovalRequest s.now (fingerprint sha256 target call) s.rows with
  | none => some (call, .creating target)
  | some active =>
      if active.status = .approved then some (call, .cleared (some ⟨s.rows, s.now⟩)) else none

/-- A created request is pending, so its call ends. -/
def create (pid : ℕ) (requestId : String) (clock : Timestamp) (target : ApprovalTarget)
    (call : ToolCall) : ApprovalState :=
  let row := requestedRow sha256 s.now requestId (clock + service.pendingTtl) target call
  let created := createApprovalRequest row s.rows
  let cleared := if created.2.status = .approved then
      some (call, CallPhase.cleared (some ⟨created.1, s.now⟩))
    else none
  { s.setCall pid cleared with
    rows := created.1
    origins := if created.2.mcpApprovalRequestId = requestId then
        ⟨requestId, target, call⟩ :: s.origins
      else s.origins }

/-- The update and the decisions that it makes. -/
def decide (approvalRequestId : String) (status : ApprovalStatus)
    (decidedByAccountId decisionComment : Option String) (clock : Timestamp) : ApprovalState :=
  { s with
    rows := decideApprovalRequest s.now approvalRequestId status decidedByAccountId decisionComment
      (service.decisionExpiryForStatus clock status) s.rows
    decisions := s.decisions ++ (s.rows.filter fun row =>
      row.mcpApprovalRequestId = approvalRequestId ∧ row.status = .pending).map fun row =>
        ⟨row, status, s.now⟩ }

end ApprovalState

def approvalEnabled (s : ApprovalState) : ApprovalEvent → Prop
  | .setClock _ => True
  | .call pid _ => s.calls pid = none
  | .expireStale pid => ∃ entry ∈ s.calls pid, entry.2.isExpiring = true
  | .findActive pid => ∃ entry ∈ s.calls pid, entry.2.isFinding = true
  | .createRequest pid requestId _ => (∃ entry ∈ s.calls pid, entry.2.isCreating = true) ∧
      ∀ row ∈ s.rows, row.mcpApprovalRequestId ≠ requestId
  | .forward pid => ∃ entry ∈ s.calls pid, entry.2.isCleared = true
  | .abandon pid => s.calls pid ≠ none
  | .decide _ status _ _ _ => status = .approved ∨ status = .rejected

def approvalNext (s : ApprovalState) : ApprovalEvent → ApprovalState
  | .setClock now => { s with now := now }
  | .call pid call => s.setCall pid (ApprovalState.afterGate textOf call)
  | .expireStale pid => match s.calls pid with
      | some (call, .expiring target) =>
          { s.setCall pid (some (call, .finding target)) with
            rows := expireStaleApprovalRequests s.now (fingerprint sha256 target call) s.rows }
      | _ => s
  | .findActive pid => match s.calls pid with
      | some (call, .finding target) => s.setCall pid (s.afterFind sha256 target call)
      | _ => s
  | .createRequest pid requestId clock => match s.calls pid with
      | some (call, .creating target) => s.create sha256 service pid requestId clock target call
      | _ => s
  | .forward pid => match s.calls pid with
      | some (call, .cleared clearance) =>
          { s.setCall pid none with forwarded := ⟨call, clearance⟩ :: s.forwarded }
      | _ => s
  | .abandon pid => s.setCall pid none
  | .decide approvalRequestId status account comment clock =>
      s.decide service approvalRequestId status account comment clock

/-- A deployment without approval requests, calls or records of them. -/
def approvalSystem : TransitionSystem ApprovalState ApprovalEvent where
  initial s := s.rows = [] ∧ s.calls = (fun _ => none) ∧ s.origins = [] ∧ s.decisions = [] ∧
    s.forwarded = []
  enabled := approvalEnabled
  next := approvalNext sha256 textOf service

end System

/-! ## What an approval is for -/

section Safety

variable (sha256 : String → String) (textOf : JsonValue → String)

/-- The request was approved while it was pending and not past its own expiry. -/
def Decided (s : ApprovalState) (row : MCPApprovalRequestRecord) : Prop :=
  ∃ decision ∈ s.decisions, decision.status = .approved ∧
    decision.request.mcpApprovalRequestId = row.mcpApprovalRequestId ∧
    decision.request.requestFingerprint = row.requestFingerprint ∧
    row.decidedAt = some decision.decidedAt ∧ decision.request.status = .pending ∧
    decision.request.Live decision.decidedAt

/-- The request that authorised a call, among those there were when it did. -/
structure Authorises (s : ApprovalState) (seen : Clearance) (target : ApprovalTarget)
    (call : ToolCall) (row : MCPApprovalRequestRecord) : Prop where
  found : row ∈ seen.rows
  approved : row.status = .approved
  fingerprint : row.requestFingerprint = fingerprint sha256 target call
  live : row.Live seen.seenAt
  decided : Decided s row
  unopposed : ∀ other ∈ seen.rows, other.requestFingerprint = row.requestFingerprint →
    other.status = .rejected → other.Live seen.seenAt → other.activeAt ≤ row.activeAt
  origin : ∃ origin ∈ s.origins, origin.requestId = row.mcpApprovalRequestId ∧
    SameRequest origin.target origin.call target call

/-- A call under a manual policy has an authorising request. -/
def Cleared (s : ApprovalState) (call : ToolCall) (clearance : Option Clearance) : Prop :=
  ∀ target, gate textOf call = .manual target →
    ∃ seen row, clearance = some seen ∧ Authorises sha256 s seen target call row

/-- An approving decision meets no request that is past its expiry. -/
def ApprovesInTime (s : ApprovalState) : ApprovalEvent → Prop
  | .decide approvalRequestId status _ _ _ => status = .approved →
      ∀ row ∈ s.rows, row.mcpApprovalRequestId = approvalRequestId → row.status = .pending →
        row.Live s.now
  | _ => True

def PhaseSound (s : ApprovalState) (call : ToolCall) : CallPhase → Prop
  | .expiring target | .finding target | .creating target => gate textOf call = .manual target
  | .cleared clearance => Cleared sha256 textOf s call clearance

structure ApprovalsSound (s : ApprovalState) : Prop where
  origin : ∀ row ∈ s.rows, ∃ origin ∈ s.origins,
    origin.requestId = row.mcpApprovalRequestId ∧
      row.requestFingerprint = fingerprint sha256 origin.target origin.call
  decided : ∀ row ∈ s.rows, row.status = .approved → Decided s row
  calls : ∀ pid call phase, s.calls pid = some (call, phase) → PhaseSound sha256 textOf s call phase
  forwarded : ∀ sent ∈ s.forwarded, Cleared sha256 textOf s sent.call sent.clearance

/-- The records only grow. -/
structure Extends (s s' : ApprovalState) : Prop where
  origins : ∀ origin ∈ s.origins, origin ∈ s'.origins
  decisions : ∀ decision ∈ s.decisions, decision ∈ s'.decisions

end Safety

section Steps

variable {sha256 : String → String} {textOf : JsonValue → String} {service : MCPApprovalService}
  {s s' : ApprovalState} {call : ToolCall} {target : ApprovalTarget}

theorem Decided.mono {row : MCPApprovalRequestRecord} (hext : Extends s s') (h : Decided s row) :
    Decided s' row := by
  obtain ⟨decision, hdecision, hrest⟩ := h
  exact ⟨decision, hext.decisions decision hdecision, hrest⟩

theorem Authorises.mono {seen : Clearance} {row : MCPApprovalRequestRecord} (hext : Extends s s')
    (h : Authorises sha256 s seen target call row) : Authorises sha256 s' seen target call row := by
  obtain ⟨origin, horigin, hrest⟩ := h.origin
  exact { h with
    decided := h.decided.mono hext
    origin := ⟨origin, hext.origins origin horigin, hrest⟩ }

theorem Cleared.mono {clearance : Option Clearance} (hext : Extends s s')
    (h : Cleared sha256 textOf s call clearance) : Cleared sha256 textOf s' call clearance := by
  intro target hgate
  obtain ⟨seen, row, hseen, hrow⟩ := h target hgate
  exact ⟨seen, row, hseen, hrow.mono hext⟩

theorem PhaseSound.mono {phase : CallPhase} (hext : Extends s s')
    (h : PhaseSound sha256 textOf s call phase) : PhaseSound sha256 textOf s' call phase := by
  cases phase with
  | expiring target => exact h
  | finding target => exact h
  | creating target => exact h
  | cleared clearance => exact Cleared.mono hext h

/-- What a step has to show: its rows, and what it adds to the calls and to the record. -/
theorem ApprovalsSound.next (h : ApprovalsSound sha256 textOf s) (hext : Extends s s')
    (horigin : ∀ row ∈ s'.rows, ∃ origin ∈ s'.origins,
      origin.requestId = row.mcpApprovalRequestId ∧
        row.requestFingerprint = McpApprovals.fingerprint sha256 origin.target origin.call)
    (hdecided : ∀ row ∈ s'.rows, row.status = .approved → Decided s' row)
    (hcalls : ∀ pid call phase, s'.calls pid = some (call, phase) →
      s.calls pid = some (call, phase) ∨ PhaseSound sha256 textOf s' call phase)
    (hforwarded : ∀ sent ∈ s'.forwarded, sent ∈ s.forwarded ∨
      Cleared sha256 textOf s' sent.call sent.clearance) : ApprovalsSound sha256 textOf s' where
  origin := horigin
  decided := hdecided
  calls := by
    intro pid call phase hcall
    rcases hcalls pid call phase hcall with hold | hnew
    · exact (h.calls pid call phase hold).mono hext
    · exact hnew
  forwarded := by
    intro sent hsent
    rcases hforwarded sent hsent with hold | hnew
    · exact (h.forwarded sent hold).mono hext
    · exact hnew

theorem setCall_calls {pid : ℕ} {next : Option (ToolCall × CallPhase)} {other : ℕ}
    {entry : ToolCall × CallPhase} (h : (s.setCall pid next).calls other = some entry) :
    next = some entry ∨ s.calls other = some entry := by
  simp only [ApprovalState.setCall] at h
  by_cases hother : other = pid
  · rw [hother, Function.update_self] at h
    exact Or.inl h
  · rw [Function.update_of_ne hother] at h
    exact Or.inr h

/-- A step that only moves one call on. -/
theorem ApprovalsSound.setCall (h : ApprovalsSound sha256 textOf s) (pid : ℕ)
    {next : Option (ToolCall × CallPhase)}
    (hnext : ∀ call phase, next = some (call, phase) → PhaseSound sha256 textOf s call phase) :
    ApprovalsSound sha256 textOf (s.setCall pid next) := by
  have hext : Extends s (s.setCall pid next) := ⟨fun _ h => h, fun _ h => h⟩
  refine h.next hext h.origin h.decided ?_ fun sent hsent => Or.inl hsent
  intro other call phase hcall
  rcases setCall_calls hcall with hmoved | hold
  · exact Or.inr ((hnext call phase hmoved).mono hext)
  · exact Or.inl hold

theorem ApprovalsSound.endCall (h : ApprovalsSound sha256 textOf s) (pid : ℕ) :
    ApprovalsSound sha256 textOf (s.setCall pid none) := by
  refine h.setCall pid fun call phase hnext => ?_
  cases hnext

theorem afterGate_sound {phase : CallPhase} {call' : ToolCall}
    (h : ApprovalState.afterGate textOf call = some (call', phase)) :
    PhaseSound sha256 textOf s call' phase := by
  simp only [ApprovalState.afterGate] at h
  split at h
  · next target hgate =>
      obtain ⟨rfl, rfl⟩ := Prod.mk.inj (Option.some.inj h)
      exact hgate
  · next hgate =>
      obtain ⟨rfl, rfl⟩ := Prod.mk.inj (Option.some.inj h)
      intro target hmanual
      rw [hgate] at hmanual
      cases hmanual
  · cases h

/-- The lookup finds a live request, and none that was decided later. -/
theorem findActive_some {now : Timestamp} {requestFingerprint : String}
    {rows : List MCPApprovalRequestRecord} {active : MCPApprovalRequestRecord}
    (h : findActiveApprovalRequest now requestFingerprint rows = some active) :
    active ∈ rows ∧ active.requestFingerprint = requestFingerprint ∧ active.Live now ∧
      ∀ other ∈ rows, other.requestFingerprint = requestFingerprint → other.status ≠ .expired →
        other.Live now → other.activeAt ≤ active.activeAt := by
  obtain ⟨hmem, hfingerprint, _, hlive⟩ := mem_of_mem_selectFirst (List.mem_of_mem_head? h)
  refine ⟨hmem, hfingerprint, hlive, fun other hother hsame hstatus hotherLive => ?_⟩
  rcases selectFirst_head_le h hother ⟨hsame, hstatus, hotherLive⟩ with hlt | ⟨heq, _⟩
  · exact le_of_lt hlt
  · exact le_of_eq heq

theorem afterFind_sound (hsha256 : Function.Injective sha256) (h : ApprovalsSound sha256 textOf s)
    (hgate : gate textOf call = .manual target) {call' : ToolCall} {phase : CallPhase}
    (hphase : s.afterFind sha256 target call = some (call', phase)) :
    PhaseSound sha256 textOf s call' phase := by
  simp only [ApprovalState.afterFind] at hphase
  split at hphase
  · obtain ⟨rfl, rfl⟩ := Prod.mk.inj (Option.some.inj hphase)
    exact hgate
  · next active hactive =>
      split at hphase
      · next happroved =>
          obtain ⟨rfl, rfl⟩ := Prod.mk.inj (Option.some.inj hphase)
          intro other hother
          obtain rfl := GateResult.manual.inj (hgate.symm.trans hother)
          obtain ⟨hmem, hfingerprint, hlive, hlatest⟩ := findActive_some hactive
          obtain ⟨origin, horigin, hid, hprint⟩ := h.origin active hmem
          have htexts := hsha256 (hprint.symm.trans hfingerprint)
          refine ⟨_, active, rfl, ?_⟩
          exact
            { found := hmem
              approved := happroved
              fingerprint := hfingerprint
              live := hlive
              decided := h.decided active hmem happroved
              unopposed := fun other hother hsame hrejected hotherLive =>
                hlatest other hother (hsame.trans hfingerprint) (by simp [hrejected]) hotherLive
              origin := ⟨origin, horigin, hid, sameRequest_of_dumps htexts⟩ }
      · cases hphase

theorem createApprovalRequest_cases (row : MCPApprovalRequestRecord)
    (rows : List MCPApprovalRequestRecord) :
    (∃ old ∈ rows, old.status = .pending ∧ createApprovalRequest row rows = (rows, old)) ∨
      createApprovalRequest row rows = (rows ++ [row], row) := by
  unfold createApprovalRequest
  split
  · next old hold =>
      have hfound := List.find?_some hold
      simp only [decide_eq_true_eq] at hfound
      exact Or.inl ⟨old, List.mem_of_find?_eq_some hold, hfound.2, rfl⟩
  · exact Or.inr rfl

/-- Creating a request authorises nothing: whatever is returned is pending. -/
theorem create_sound (h : ApprovalsSound sha256 textOf s) (pid : ℕ) {requestId : String}
    (clock : Timestamp) (hfresh : ∀ row ∈ s.rows, row.mcpApprovalRequestId ≠ requestId) :
    ApprovalsSound sha256 textOf (s.create sha256 service pid requestId clock target call) := by
  have hcases := createApprovalRequest_cases
    (requestedRow sha256 s.now requestId (clock + service.pendingTtl) target call) s.rows
  rcases hcases with ⟨old, hold, hpending, hcreated⟩ | hcreated
  · have hnot : ¬old.status = .approved := by simp [hpending]
    have hsame : s.create sha256 service pid requestId clock target call = s.setCall pid none := by
      simp only [ApprovalState.create, hcreated, hnot, hfresh old hold, if_false]
      rfl
    rw [hsame]
    exact h.endCall pid
  · have hstate : s.create sha256 service pid requestId clock target call =
        { s.setCall pid none with
          rows := s.rows ++
            [requestedRow sha256 s.now requestId (clock + service.pendingTtl) target call]
          origins := ⟨requestId, target, call⟩ :: s.origins } := by
      have hpending : ¬(requestedRow sha256 s.now requestId (clock + service.pendingTtl) target
          call).status = .approved := nofun
      have hid : (requestedRow sha256 s.now requestId (clock + service.pendingTtl) target
          call).mcpApprovalRequestId = requestId := rfl
      simp only [ApprovalState.create, hcreated, if_neg hpending, if_pos hid]
    rw [hstate]
    refine h.next ⟨fun _ horigin => List.mem_cons_of_mem _ horigin, fun _ hdecision => hdecision⟩
      ?_ ?_ ?_ fun sent hsent => Or.inl hsent
    · intro row hrow
      rcases List.mem_append.mp hrow with hold | hnew
      · obtain ⟨origin, horigin, hrest⟩ := h.origin row hold
        exact ⟨origin, List.mem_cons_of_mem _ horigin, hrest⟩
      · rw [List.mem_singleton.mp hnew]
        exact ⟨_, List.mem_cons_self, rfl, rfl⟩
    · intro row hrow happroved
      rcases List.mem_append.mp hrow with hold | hnew
      · exact h.decided row hold happroved
      · rw [List.mem_singleton.mp hnew] at happroved
        cases happroved
    · intro other call phase hcall
      rcases setCall_calls hcall with hmoved | hold
      · cases hmoved
      · exact Or.inl hold

/-- A row that keeps its id and its fingerprint keeps where it came from. -/
theorem ApprovalsSound.origin_updateWhere (h : ApprovalsSound sha256 textOf s)
    (p : MCPApprovalRequestRecord → Prop) [DecidablePred p]
    {f : MCPApprovalRequestRecord → MCPApprovalRequestRecord}
    (hkeeps : ∀ row, (f row).mcpApprovalRequestId = row.mcpApprovalRequestId ∧
      (f row).requestFingerprint = row.requestFingerprint) :
    ∀ row ∈ updateWhere p f s.rows, ∃ origin ∈ s.origins,
      origin.requestId = row.mcpApprovalRequestId ∧
        row.requestFingerprint = fingerprint sha256 origin.target origin.call := by
  intro row hrow
  obtain ⟨old, hold, rfl⟩ := (mem_updateWhere _ _).mp hrow
  have horigin := h.origin old hold
  split
  · rw [(hkeeps old).1, (hkeeps old).2]
    exact horigin
  · exact horigin

theorem decide_sound (h : ApprovalsSound sha256 textOf s) {approvalRequestId : String}
    {status : ApprovalStatus} {account comment : Option String} {clock : Timestamp}
    (hintime : ApprovesInTime s (.decide approvalRequestId status account comment clock)) :
    ApprovalsSound sha256 textOf
      (s.decide service approvalRequestId status account comment clock) := by
  have hext : Extends s (s.decide service approvalRequestId status account comment clock) :=
    ⟨fun _ horigin => horigin, fun _ hdecision => List.mem_append_left _ hdecision⟩
  refine h.next hext ?_ ?_ (fun _ _ _ hcall => Or.inl hcall) fun sent hsent => Or.inl hsent
  · exact h.origin_updateWhere _ fun _ => ⟨rfl, rfl⟩
  · intro row hrow happroved
    obtain ⟨old, hold, rfl⟩ := (mem_updateWhere _ _).mp hrow
    by_cases hmatched : old.mcpApprovalRequestId = approvalRequestId ∧ old.status = .pending
    · rw [if_pos hmatched] at happroved ⊢
      have hstatus : status = .approved := happroved
      refine ⟨⟨old, status, s.now⟩, List.mem_append_right _ ?_, hstatus, rfl, rfl, rfl,
        hmatched.2, hintime hstatus old hold hmatched.1 hmatched.2⟩
      refine List.mem_map.mpr ⟨old, List.mem_filter.mpr ⟨hold, ?_⟩, rfl⟩
      exact decide_eq_true hmatched
    · rw [if_neg hmatched] at happroved ⊢
      exact (h.decided old hold happroved).mono hext

theorem expireStale_sound (h : ApprovalsSound sha256 textOf s) (pid : ℕ)
    {requestFingerprint : String}
    (hgate : gate textOf call = .manual target) :
    ApprovalsSound sha256 textOf
      { s.setCall pid (some (call, .finding target)) with
        rows := expireStaleApprovalRequests s.now requestFingerprint s.rows } := by
  refine h.next ⟨fun _ horigin => horigin, fun _ hdecision => hdecision⟩ ?_ ?_ ?_
    fun sent hsent => Or.inl hsent
  · exact h.origin_updateWhere _ fun _ => ⟨rfl, rfl⟩
  · intro row hrow happroved
    obtain ⟨old, hold, rfl⟩ := (mem_updateWhere _ _).mp hrow
    by_cases hstale : old.requestFingerprint = requestFingerprint ∧ old.status ≠ .expired ∧
        ∃ expiry ∈ old.expiresAt, expiry ≤ s.now
    · rw [if_pos hstale] at happroved
      cases happroved
    · rw [if_neg hstale] at happroved ⊢
      exact h.decided old hold happroved
  · intro other call' phase hcall
    rcases setCall_calls hcall with hmoved | hold
    · obtain ⟨rfl, rfl⟩ := Prod.mk.inj (Option.some.inj hmoved)
      exact Or.inr hgate
    · exact Or.inl hold

theorem forward_sound (h : ApprovalsSound sha256 textOf s) (pid : ℕ) {clearance : Option Clearance}
    (hcleared : Cleared sha256 textOf s call clearance) :
    ApprovalsSound sha256 textOf
      { s.setCall pid none with forwarded := ⟨call, clearance⟩ :: s.forwarded } := by
  have hext : Extends s
      { s.setCall pid none with forwarded := ⟨call, clearance⟩ :: s.forwarded } :=
    ⟨fun _ horigin => horigin, fun _ hdecision => hdecision⟩
  refine h.next hext h.origin h.decided ?_ ?_
  · intro other call' phase hother
    rcases setCall_calls hother with hmoved | hold
    · cases hmoved
    · exact Or.inl hold
  · intro sent hsent
    rcases List.mem_cons.mp hsent with rfl | hold
    · exact Or.inr (hcleared.mono hext)
    · exact Or.inl hold

/-- One enabled event, when an approving decision comes in time. -/
theorem approvalNext_sound (hsha256 : Function.Injective sha256) {e : ApprovalEvent}
    (h : ApprovalsSound sha256 textOf s) (henabled : approvalEnabled s e)
    (hintime : ApprovesInTime s e) :
    ApprovalsSound sha256 textOf (approvalNext sha256 textOf service s e) := by
  cases e with
  | setClock now =>
      exact h.next ⟨fun _ horigin => horigin, fun _ hdecision => hdecision⟩ h.origin h.decided
        (fun _ _ _ hcall => Or.inl hcall) fun _ hsent => Or.inl hsent
  | call pid call => exact h.setCall pid fun _ _ => afterGate_sound
  | expireStale pid =>
      obtain ⟨⟨call, phase⟩, hcall, hphase⟩ := henabled
      cases phase with
      | expiring target =>
          simp only [approvalNext, Option.mem_def.mp hcall]
          exact expireStale_sound h pid (h.calls pid call _ hcall)
      | _ => cases hphase
  | findActive pid =>
      obtain ⟨⟨call, phase⟩, hcall, hphase⟩ := henabled
      cases phase with
      | finding target =>
          simp only [approvalNext, Option.mem_def.mp hcall]
          exact h.setCall pid fun _ _ => afterFind_sound hsha256 h (h.calls pid call _ hcall)
      | _ => cases hphase
  | createRequest pid requestId clock =>
      obtain ⟨⟨⟨call, phase⟩, hcall, hphase⟩, hfresh⟩ := henabled
      cases phase with
      | creating target =>
          simp only [approvalNext, Option.mem_def.mp hcall]
          exact create_sound h pid clock hfresh
      | _ => cases hphase
  | forward pid =>
      obtain ⟨⟨call, phase⟩, hcall, hphase⟩ := henabled
      cases phase with
      | cleared clearance =>
          simp only [approvalNext, Option.mem_def.mp hcall]
          exact forward_sound h pid (h.calls pid call _ hcall)
      | _ => cases hphase
  | abandon pid => exact h.endCall pid
  | decide approvalRequestId status account comment clock => exact decide_sound h hintime

theorem approvals_sound (hsha256 : Function.Injective sha256)
    (hs : ReachableBy (approvalSystem sha256 textOf service) ApprovesInTime s) :
    ApprovalsSound sha256 textOf s := by
  refine hs.invariant ?_ fun _ _ => approvalNext_sound hsha256
  rintro s ⟨hrows, hcalls, _, _, hforwarded⟩
  constructor
  · intro row hrow
    rw [hrows] at hrow
    cases hrow
  · intro row hrow
    rw [hrows] at hrow
    cases hrow
  · intro pid call phase hcall
    rw [hcalls] at hcall
    cases hcall
  · intro sent hsent
    rw [hforwarded] at hsent
    cases hsent

end Steps

/-- A forwarded call under a manual policy was approved in time, and for the same request. -/
theorem forwarded_approved {sha256 : String → String} {textOf : JsonValue → String}
    {service : MCPApprovalService} {s : ApprovalState} (hsha256 : Function.Injective sha256)
    (hs : ReachableBy (approvalSystem sha256 textOf service) ApprovesInTime s)
    {sent : ForwardedCall} (hsent : sent ∈ s.forwarded) {target : ApprovalTarget}
    (hgate : gate textOf sent.call = .manual target) :
    ∃ seen row, sent.clearance = some seen ∧ Authorises sha256 s seen target sent.call row :=
  (approvals_sound hsha256 hs).forwarded sent hsent target hgate

/-! ## A call that is made again once it is approved -/

section SecondCall

variable {sha256 : String → String} {textOf : JsonValue → String} {service : MCPApprovalService}
  {allowed : ApprovalState → ApprovalEvent → Prop} {call : ToolCall} {target : ApprovalTarget}

theorem findActive_singleton {row : MCPApprovalRequestRecord} {now : Timestamp}
    (hstatus : row.status ≠ .expired) (hlive : row.Live now) :
    findActiveApprovalRequest now row.requestFingerprint [row] = some row := by
  simp [findActiveApprovalRequest, selectFirst, hstatus, hlive]

theorem expireStale_singleton {row : MCPApprovalRequestRecord} {now : Timestamp}
    (hlive : row.Live now) :
    expireStaleApprovalRequests now row.requestFingerprint [row] = [row] := by
  have hnot : ¬(row.requestFingerprint = row.requestFingerprint ∧ row.status ≠ .expired ∧
      ∃ expiry ∈ row.expiresAt, expiry ≤ now) := by
    rintro ⟨-, -, expiry, hexpiry, hle⟩
    exact absurd (hlive expiry hexpiry) (Nat.not_lt.mpr hle)
  exact congrArg (fun kept => [kept]) (if_neg hnot)

/-- A first call has asked for approval, at time zero. -/
def askedState (sha256 : String → String) (service : MCPApprovalService) (requestId : String)
    (target : ApprovalTarget) (call : ToolCall) : ApprovalState where
  now := 0
  rows := [requestedRow sha256 0 requestId (0 + service.pendingTtl) target call]
  calls := fun _ => none
  origins := [⟨requestId, target, call⟩]
  decisions := []
  forwarded := []

/-- Its request at `decidedAt`, with the approval. -/
def approvedRow (sha256 : String → String) (service : MCPApprovalService) (requestId : String)
    (decidedAt : Timestamp) (target : ApprovalTarget) (call : ToolCall) :
    MCPApprovalRequestRecord :=
  { requestedRow sha256 0 requestId (0 + service.pendingTtl) target call with
    status := .approved
    decidedAt := some decidedAt
    expiresAt := some (decidedAt + service.approvedTtl)
    updatedAt := decidedAt }

def approvedState (sha256 : String → String) (service : MCPApprovalService) (requestId : String)
    (decidedAt : Timestamp) (target : ApprovalTarget) (call : ToolCall) : ApprovalState :=
  let row := requestedRow sha256 0 requestId (0 + service.pendingTtl) target call
  { askedState sha256 service requestId target call with
    now := decidedAt
    rows := [approvedRow sha256 service requestId decidedAt target call]
    decisions := [⟨row, .approved, decidedAt⟩] }

/-- The same call has been made again and forwarded. -/
def againState (sha256 : String → String) (service : MCPApprovalService) (requestId : String)
    (decidedAt : Timestamp) (target : ApprovalTarget) (call : ToolCall) : ApprovalState :=
  let s := approvedState sha256 service requestId decidedAt target call
  { s with forwarded := [⟨call, some ⟨s.rows, decidedAt⟩⟩] }

theorem asked_reachable (hgate : gate textOf call = .manual target) (requestId : String) :
    ReachableBy (approvalSystem sha256 textOf service) ApprovesInTime
      (askedState sha256 service requestId target call) := by
  have hstart : ReachableBy (approvalSystem sha256 textOf service) ApprovesInTime
      ⟨0, [], fun _ => none, [], [], []⟩ :=
    .initial ⟨rfl, rfl, rfl, rfl, rfl⟩
  have hfires : Fires (approvalSystem sha256 textOf service) ApprovesInTime
      ⟨0, [], fun _ => none, [], [], []⟩
      [.call 0 call, .expireStale 0, .findActive 0, .createRequest 0 requestId 0] := by
    simp [Fires, approvalSystem, approvalEnabled, approvalNext, ApprovesInTime,
      ApprovalState.afterGate, hgate, ApprovalState.setCall, CallPhase.isExpiring,
      CallPhase.isFinding, CallPhase.isCreating, expireStaleApprovalRequests, updateWhere,
      ApprovalState.afterFind, findActiveApprovalRequest, selectFirst]
  have hasked := hstart.fires hfires
  simpa [approvalSystem, approvalNext, ApprovalState.afterGate, hgate, ApprovalState.setCall,
    expireStaleApprovalRequests, updateWhere, ApprovalState.afterFind, findActiveApprovalRequest,
    selectFirst, ApprovalState.create, createApprovalRequest, requestedRow, askedState] using hasked

theorem approved_reachable (hgate : gate textOf call = .manual target) (requestId : String)
    {decidedAt : Timestamp} (hallowed : ∀ s e, ApprovesInTime s e → allowed s e)
    (hdecide : allowed { askedState sha256 service requestId target call with now := decidedAt }
      (.decide requestId .approved none none decidedAt)) :
    ReachableBy (approvalSystem sha256 textOf service) allowed
      (approvedState sha256 service requestId decidedAt target call) := by
  have hasked : ReachableBy (approvalSystem sha256 textOf service) allowed
      (askedState sha256 service requestId target call) :=
    (asked_reachable hgate requestId).mono hallowed
  have hclock := hasked.step (e := ApprovalEvent.setClock decidedAt) trivial (hallowed _ _ trivial)
  have happroved := hclock.step
    (e := ApprovalEvent.decide requestId .approved none none decidedAt) (Or.inl rfl) hdecide
  simpa [approvalSystem, approvalNext, ApprovalState.decide, decideApprovalRequest, updateWhere,
    requestedRow, askedState, approvedState, approvedRow,
    MCPApprovalService.decisionExpiryForStatus] using happroved

theorem again_reachable (hgate : gate textOf call = .manual target)
    (hlifetime : 0 < service.approvedTtl) (requestId : String) {decidedAt : Timestamp}
    (hallowed : ∀ s e, ApprovesInTime s e → allowed s e)
    (hdecide : allowed { askedState sha256 service requestId target call with now := decidedAt }
      (.decide requestId .approved none none decidedAt)) :
    ReachableBy (approvalSystem sha256 textOf service) allowed
      (againState sha256 service requestId decidedAt target call) := by
  have happroved := approved_reachable hgate requestId hallowed hdecide
  have hlive : (approvedRow sha256 service requestId decidedAt target call).Live decidedAt := by
    intro expiry hexpiry
    obtain rfl := Option.some.inj hexpiry
    exact Nat.lt_add_of_pos_right hlifetime
  have hfind : findActiveApprovalRequest decidedAt (fingerprint sha256 target call)
      [approvedRow sha256 service requestId decidedAt target call] =
        some (approvedRow sha256 service requestId decidedAt target call) :=
    findActive_singleton nofun hlive
  have hexpire : expireStaleApprovalRequests decidedAt (fingerprint sha256 target call)
      [approvedRow sha256 service requestId decidedAt target call] =
        [approvedRow sha256 service requestId decidedAt target call] :=
    expireStale_singleton hlive
  have hstatus : (approvedRow sha256 service requestId decidedAt target call).status = .approved :=
    rfl
  have hfires : Fires (approvalSystem sha256 textOf service) ApprovesInTime
      (approvedState sha256 service requestId decidedAt target call)
      [.call 1 call, .expireStale 1, .findActive 1, .forward 1] := by
    simp [Fires, approvalSystem, approvalEnabled, approvalNext, ApprovesInTime,
      ApprovalState.afterGate, hgate, ApprovalState.setCall, CallPhase.isExpiring,
      CallPhase.isFinding, CallPhase.isCleared, ApprovalState.afterFind, approvedState, askedState,
      hexpire, hfind, hstatus]
  have hagain := happroved.fires (hfires.mono hallowed)
  simpa [approvalSystem, approvalNext, ApprovalState.afterGate, hgate, ApprovalState.setCall,
    ApprovalState.afterFind, hexpire, hfind, hstatus, approvedState, askedState, againState]
    using hagain

end SecondCall

namespace PushCall

def policy : MCPToolPolicyRecord where
  toolName := "push"
  scopeType := "api_key"
  scopeId := "sk-1"
  enabled := true
  requireApproval := some "manual"

def server : MCPServerConfig := ⟨"srv-1", "git", []⟩

def target : ApprovalTarget := ⟨server, "push", policy⟩

def push : ToolCall where
  auth := ⟨some "sk-1", none, none, none, []⟩
  namespacedToolName := "git.push"
  arguments := [("branch", .str "main")]
  requestHeaders := []
  requestId := none
  correlationId := none
  visibleServers := [⟨server, ["push"]⟩]
  policies := [policy]
  arguments_decimal := .dict _ fun field hfield => by
    rw [List.mem_singleton.mp hfield]
    exact .str "main"

def payloadText : String :=
  "\x7b\"api_key\":\"sk-1\",\"arguments\":\x7b\"branch\":\"main\"\x7d,\"forwarded_headers\":\x7b\x7d," ++
    "\"scope_id\":\"sk-1\",\"scope_type\":\"api_key\",\"server_id\":\"srv-1\",\"server_key\":\"git\"," ++
    "\"tool_name\":\"push\"\x7d"

/-- The SHA-256 digest of the payload, and no digest twice. -/
def digest (text : String) : String :=
  if text = payloadText then "a28dcd018c92c82a72a53a8d7c9d0e41aa5917fcba6336cbffc09db294a000ee"
  else "other:" ++ text

theorem digest_injective : Function.Injective digest := by
  have hapart : ∀ text,
      "a28dcd018c92c82a72a53a8d7c9d0e41aa5917fcba6336cbffc09db294a000ee" ≠ "other:" ++ text := by
    intro text heq
    have hlists := congrArg String.toList heq
    rw [String.toList_append] at hlists
    exact absurd (List.cons.inj hlists).1 (by decide)
  intro text text' heq
  unfold digest at heq
  split_ifs at heq with htext htext' htext'
  · exact htext.trans htext'.symm
  · exact absurd heq (hapart _)
  · exact absurd heq.symm (hapart _)
  · have hlists := congrArg String.toList heq
    rw [String.toList_append, String.toList_append] at hlists
    exact String.toList_inj.mp (List.append_cancel_left hlists)

/-- The caller of these calls has no metadata to read. -/
def textOf : JsonValue → String := fun _ => ""

def runOf (decidedAt : Timestamp) : ApprovalState :=
  againState digest {} "r-1" decidedAt target push

theorem push_gate : gate textOf push = .manual target := by decide +kernel

end PushCall

open PushCall in
theorem forwarded_approved_within_the_hour :
    ReachableBy (approvalSystem digest textOf {}) ApprovesInTime (runOf 3600000) ∧
      ∀ sent ∈ (runOf 3600000).forwarded, ∃ seen row, sent.clearance = some seen ∧
        Authorises digest (runOf 3600000) seen target sent.call row := by
  have hrun : ReachableBy (approvalSystem digest textOf {}) ApprovesInTime (runOf 3600000) := by
    refine again_reachable push_gate (by decide) "r-1" (fun _ _ h => h) ?_
    intro _ row hrow _ _
    rw [List.mem_singleton.mp hrow]
    decide +kernel
  refine ⟨hrun, fun sent hsent => ?_⟩
  have hpush : sent.call = push := by rw [List.mem_singleton.mp hsent]
  exact forwarded_approved digest_injective hrun hsent (hpush ▸ push_gate)

open PushCall in
/-- The request expires after a day; a day and a millisecond later it is approved all the same. -/
theorem expired_request_approved :
    Reachable (approvalSystem digest textOf {}) (runOf 86400001) ∧
      ∃ sent ∈ (runOf 86400001).forwarded, gate textOf sent.call = .manual target ∧
        ¬∃ seen row, sent.clearance = some seen ∧
          Authorises digest (runOf 86400001) seen target sent.call row := by
  refine ⟨again_reachable push_gate (by decide) "r-1" (fun _ _ _ => trivial) trivial,
    _, List.mem_singleton.mpr rfl, push_gate, ?_⟩
  rintro ⟨seen, row, -, hrow⟩
  obtain ⟨decision, hdecision, -, -, -, -, -, hlive⟩ := hrow.decided
  rw [List.mem_singleton.mp hdecision] at hlive
  exact absurd hlive (by decide +kernel)

end McpApprovalRuns
