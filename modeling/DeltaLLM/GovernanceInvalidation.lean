import DeltaLLM.PythonText
import DeltaLLM.TransitionRuns
import Mathlib.Data.Finset.Basic

/-! # Governance invalidation across instances

Each process keeps a snapshot of the governance tables. A request that writes them reloads the
snapshot of its own process and publishes the target; the other processes collect what they hear
and reload a moment later. The version of a target counts the writes to its tables.
-/
namespace GovernanceInvalidation

open PythonText
open TransitionRuns

inductive Target where
  | callableTarget
  | mcp
  deriving DecidableEq, Repr

def Target.name : Target → String
  | .callableTarget => "callable_target"
  | .mcp => "mcp"

/-- The target of a name in `_ALLOWED_TARGETS`. -/
def Target.ofName (name : String) : Option Target :=
  if name = "callable_target" then some .callableTarget
  else if name = "mcp" then some .mcp else none

/-- `_normalize_targets`. -/
def normalizeTargets (targets : List String) : List Target :=
  targets.foldl (fun normalized item =>
    match Target.ofName (lower (strip item)) with
    | none => normalized
    | some target => if target ∈ normalized then normalized else normalized ++ [target]) []

/-- The order in which `_apply_targets` takes the targets. -/
def applyOrder (targets : List Target) : List Target :=
  [Target.callableTarget, Target.mcp].filter (· ∈ targets)

/-- A running `_apply_targets`: the targets left and the version of the first of them that its
reload has read. -/
structure Apply where
  todo : List Target
  read : Option ℕ

/-- A call of `_apply_targets` under `_apply_lock`. -/
inductive Job where
  | idle
  | waiting (targets : List Target)
  | applying (apply : Apply)

def Job.isIdle : Job → Bool
  | .idle => true
  | .waiting _ | .applying _ => false

structure Message where
  sourceInstance : ℕ
  targets : List String

/-- Where a request that writes governance is. -/
inductive Stage where
  | idle
  | reloading
  | notifying
  | returned
  | raised
  deriving DecidableEq, Repr

/-- `version` is that of the request's write. -/
structure Request where
  target : Target
  version : ℕ
  stage : Stage

/-- Who runs `_apply_targets` in a process: the flush of remote targets or a request. -/
inductive Applier where
  | flush
  | request (id : ℕ)
  deriving DecidableEq, Repr

/-- One gateway process; `sleeping` is the delay at the start of `_flush_remote_targets` and `lock`
the holder of `_apply_lock`. `notified` is the newest version that another process published to this
one, `lost` the newest that was current when a flush raised. -/
structure Gateway where
  listening : Bool
  inbox : List Message
  remoteTargets : Finset Target
  sleeping : Bool
  lock : Option Applier
  jobs : Applier → Job
  requests : ℕ → Request
  loaded : Target → ℕ
  notified : Target → ℕ
  lost : Target → ℕ

structure GovernanceState where
  database : Target → ℕ
  gateways : ℕ → Gateway

/-- `acquire`, `read`, `install` and `raise` are steps of a reload under `_apply_lock`, `hear` is a
turn of `_listen`, `wake` the end of the delay in `_flush_remote_targets`. -/
inductive GatewayEvent where
  | write (id : ℕ) (target : Target)
  | acquire (applier : Applier)
  | read (applier : Applier)
  | install (applier : Applier)
  | raise (applier : Applier)
  | publish (id : ℕ) (published : Bool)
  | hear
  | wake
  | stopListening
  deriving DecidableEq

/-! ## Steps of one process -/

def Gateway.setJob (g : Gateway) (applier : Applier) (job : Job) : Gateway :=
  { g with jobs := Function.update g.jobs applier job }

def Gateway.setRequest (g : Gateway) (id : ℕ) (request : Request) : Gateway :=
  { g with requests := Function.update g.requests id request }

def Gateway.setStage (g : Gateway) (id : ℕ) (stage : Stage) : Gateway :=
  g.setRequest id { g.requests id with stage := stage }

/-- The applier is done and releases the lock; a request goes on to the stage. -/
def Gateway.release (g : Gateway) (applier : Applier) (stage : Stage) : Gateway :=
  let g := { g.setJob applier .idle with lock := none }
  match applier with
  | .flush => g
  | .request id => g.setStage id stage

/-- A request has written the tables of the target and waits to reload them. -/
def Gateway.write (g : Gateway) (id : ℕ) (target : Target) (version : ℕ) : Gateway :=
  (g.setRequest id ⟨target, version, .reloading⟩).setJob (.request id) (.waiting [target])

/-- The applier takes the lock. -/
def Gateway.acquire (g : Gateway) (applier : Applier) (targets : List Target) : Gateway :=
  { g.setJob applier (.applying ⟨applyOrder targets, none⟩) with lock := some applier }

/-- The first reload installs its snapshot. -/
def Gateway.load (g : Gateway) (target : Target) (version : ℕ) : Gateway :=
  { g with loaded := Function.update g.loaded target version }

/-- After the last reload the lock is released. -/
def Gateway.goOn (g : Gateway) (applier : Applier) (rest : List Target) : Gateway :=
  match rest with
  | [] => g.release applier .notifying
  | _ :: _ => g.setJob applier (.applying ⟨rest, none⟩)

/-- What a flush that raises had taken is lost. -/
def Gateway.drop (g : Gateway) (database : Target → ℕ) (applier : Applier) (apply : Apply) :
    Gateway :=
  { g with
    lost := fun target =>
      if target ∈ apply.todo ∧ applier = .flush then database target else g.lost target }

/-- `_queue_remote_targets`: a task is made when there is none or it is done. -/
def Gateway.queueRemoteTargets (g : Gateway) (targets : List Target) : Gateway :=
  { g with
    remoteTargets := g.remoteTargets ∪ targets.toFinset
    sleeping := g.sleeping || (g.jobs .flush).isIdle }

/-- `_listen` of the process `i` takes a message. -/
def Gateway.receive (g : Gateway) (i : ℕ) (message : Message) : Gateway :=
  if message.sourceInstance = i then g
  else if normalizeTargets message.targets = [] then g
  else g.queueRemoteTargets (normalizeTargets message.targets)

def Gateway.queuedTargets (g : Gateway) : List Target :=
  [Target.callableTarget, Target.mcp].filter (· ∈ g.remoteTargets)

/-- `_flush_remote_targets` after its delay. -/
def Gateway.wake (g : Gateway) : Gateway :=
  { g with remoteTargets := ∅, sleeping := false }.setJob .flush
    (if g.queuedTargets = [] then .idle else .waiting g.queuedTargets)

def gatewayStep (i : ℕ) (database : Target → ℕ) (g : Gateway) : GatewayEvent → Option Gateway
  | .write id target =>
      match (g.requests id).stage with
      | .idle => some (g.write id target (database target + 1))
      | _ => none
  | .acquire applier =>
      match g.jobs applier, g.lock with
      | .waiting targets, none => some (g.acquire applier targets)
      | _, _ => none
  | .read applier =>
      match g.jobs applier with
      | .applying ⟨target :: rest, none⟩ =>
          some (g.setJob applier (.applying ⟨target :: rest, some (database target)⟩))
      | _ => none
  | .install applier =>
      match g.jobs applier with
      | .applying ⟨target :: rest, some version⟩ =>
          some ((g.load target version).goOn applier rest)
      | _ => none
  | .raise applier =>
      match g.jobs applier with
      | .applying apply => some ((g.drop database applier apply).release applier .raised)
      | _ => none
  | .publish id _ =>
      match (g.requests id).stage with
      | .notifying => some (g.setStage id .returned)
      | _ => none
  | .hear =>
      match g.listening, g.inbox with
      | true, message :: inbox => some ({ g with inbox := inbox }.receive i message)
      | _, _ => none
  | .wake => if g.sleeping = true then some g.wake else none
  | .stopListening => some { g with listening := false, inbox := [] }

/-! ## The system of all processes -/

/-- The tables after an event of a process. -/
def writtenBy (database : Target → ℕ) : GatewayEvent → Target → ℕ
  | .write _ target => Function.update database target (database target + 1)
  | _ => database

/-- What an event publishes. -/
def publishedBy (g : Gateway) : GatewayEvent → Option Request
  | .publish id true => some (g.requests id)
  | _ => none

/-- A message of the process `i` reaches the process `j`, which may be `i`, if it listens. -/
def Gateway.deliver (g : Gateway) (i j : ℕ) : Option Request → Gateway
  | none => g
  | some request =>
      if g.listening = true then
        { g with
          inbox := g.inbox ++ [⟨i, [request.target.name]⟩]
          notified :=
            if i = j then g.notified
            else Function.update g.notified request.target
              (max (g.notified request.target) request.version) }
      else g

/-- The process `i` goes on as `g`. -/
def GovernanceState.commit (s : GovernanceState) (i : ℕ) (event : GatewayEvent) (g : Gateway) :
    GovernanceState where
  database := writtenBy s.database event
  gateways j :=
    (if j = i then g else s.gateways j).deliver i j (publishedBy (s.gateways i) event)

def governanceStep (s : GovernanceState) (e : ℕ × GatewayEvent) : Option GovernanceState :=
  (gatewayStep e.1 s.database (s.gateways e.1) e.2).map (s.commit e.1 e.2)

/-- The processes have loaded the tables at their start and listen. -/
def startedGateway (database : Target → ℕ) : Gateway where
  listening := true
  inbox := []
  remoteTargets := ∅
  sleeping := false
  lock := none
  jobs := fun _ => .idle
  requests := fun _ => ⟨.callableTarget, 0, .idle⟩
  loaded := database
  notified := fun _ => 0
  lost := fun _ => 0

def governanceSystem : TransitionSystem GovernanceState (ℕ × GatewayEvent) where
  initial s := ∀ i, s.gateways i = startedGateway s.database
  enabled s e := (governanceStep s e).isSome = true
  next s e := (governanceStep s e).getD s

/-! ## What a step finds and leaves -/

/-- The steps of a process, each with what it finds. -/
inductive Move (i : ℕ) (database : Target → ℕ) (g : Gateway) : GatewayEvent → Gateway → Prop where
  | write {id : ℕ} (target : Target) : (g.requests id).stage = .idle →
      Move i database g (.write id target) (g.write id target (database target + 1))
  | acquire {a : Applier} {targets : List Target} : g.jobs a = .waiting targets → g.lock = none →
      Move i database g (.acquire a) (g.acquire a targets)
  | read {a : Applier} {target : Target} {rest : List Target} :
      g.jobs a = .applying ⟨target :: rest, none⟩ →
      Move i database g (.read a)
        (g.setJob a (.applying ⟨target :: rest, some (database target)⟩))
  | last {a : Applier} {target : Target} {version : ℕ} :
      g.jobs a = .applying ⟨[target], some version⟩ →
      Move i database g (.install a) ((g.load target version).release a .notifying)
  | install {a : Applier} {target following : Target} {rest : List Target} {version : ℕ} :
      g.jobs a = .applying ⟨target :: following :: rest, some version⟩ →
      Move i database g (.install a)
        ((g.load target version).setJob a (.applying ⟨following :: rest, none⟩))
  | raise {a : Applier} {apply : Apply} : g.jobs a = .applying apply →
      Move i database g (.raise a) ((g.drop database a apply).release a .raised)
  | publish {id : ℕ} (published : Bool) : (g.requests id).stage = .notifying →
      Move i database g (.publish id published) (g.setStage id .returned)
  | hear {message : Message} {inbox : List Message} :
      g.listening = true → g.inbox = message :: inbox →
      Move i database g .hear ({ g with inbox := inbox }.receive i message)
  | wake : g.sleeping = true → Move i database g .wake g.wake
  | stopListening : Move i database g .stopListening { g with listening := false, inbox := [] }

theorem gatewayStep_move {i : ℕ} {database : Target → ℕ} {g g' : Gateway} {e : GatewayEvent}
    (h : gatewayStep i database g e = some g') : Move i database g e g' := by
  cases e with
  | write id target =>
      simp only [gatewayStep] at h
      split at h
      · next hstage =>
        cases h
        exact .write target hstage
      · cases h
  | acquire a =>
      simp only [gatewayStep] at h
      split at h
      · next targets hjob hlock =>
        cases h
        exact .acquire hjob hlock
      · cases h
  | read a =>
      simp only [gatewayStep] at h
      split at h
      · next target rest hjob =>
        cases h
        exact .read hjob
      · cases h
  | install a =>
      simp only [gatewayStep] at h
      split at h
      · next target rest version hjob =>
        cases h
        cases rest with
        | nil => exact .last hjob
        | cons following rest => exact .install hjob
      · cases h
  | raise a =>
      simp only [gatewayStep] at h
      split at h
      · next apply hjob =>
        cases h
        exact .raise hjob
      · cases h
  | publish id published =>
      simp only [gatewayStep] at h
      split at h
      · next hstage =>
        cases h
        exact .publish published hstage
      · cases h
  | hear =>
      simp only [gatewayStep] at h
      split at h
      · next message inbox hlistening hinbox =>
        cases h
        exact .hear hlistening hinbox
      · cases h
  | wake =>
      simp only [gatewayStep] at h
      split at h
      · next hsleeping =>
        cases h
        exact .wake hsleeping
      · cases h
  | stopListening =>
      cases h
      exact .stopListening

/-- An event that fires is a move of its process. -/
theorem next_commit {s : GovernanceState} {e : ℕ × GatewayEvent}
    (he : governanceSystem.enabled s e) :
    ∃ g, Move e.1 s.database (s.gateways e.1) e.2 g ∧
      governanceSystem.next s e = s.commit e.1 e.2 g := by
  obtain ⟨t, ht⟩ := Option.isSome_iff_exists.mp he
  obtain ⟨g, hg, rfl⟩ := Option.map_eq_some_iff.mp ht
  refine ⟨g, gatewayStep_move hg, ?_⟩
  show (governanceStep s e).getD s = s.commit e.1 e.2 g
  rw [ht, Option.getD_some]

theorem normalizeTargets_name (target : Target) : normalizeTargets [target.name] = [target] := by
  cases target <;> decide

theorem mem_applyOrder {targets : List Target} {target : Target} :
    target ∈ applyOrder targets ↔ target ∈ targets := by
  unfold applyOrder
  cases target <;> simp

theorem mem_queuedTargets {g : Gateway} {target : Target} :
    target ∈ g.queuedTargets ↔ target ∈ g.remoteTargets := by
  unfold Gateway.queuedTargets
  cases target <;> simp

section Fields

variable (g : Gateway) (a b : Applier) (job : Job) (stage : Stage) (id : ℕ)

@[simp] theorem setJob_jobs : (g.setJob a job).jobs b = if b = a then job else g.jobs b :=
  Function.update_apply _ _ _ _

@[simp] theorem setRequest_requests (request : Request) (other : ℕ) :
    (g.setRequest id request).requests other =
      if other = id then request else g.requests other :=
  Function.update_apply _ _ _ _

@[simp] theorem setStage_requests (other : ℕ) :
    (g.setStage id stage).requests other =
      if other = id then { g.requests id with stage := stage } else g.requests other :=
  setRequest_requests _ _ _ _

@[simp] theorem write_jobs (target : Target) (version : ℕ) :
    (g.write id target version).jobs b =
      if b = .request id then .waiting [target] else g.jobs b :=
  setJob_jobs _ _ _ _

@[simp] theorem write_requests (target : Target) (version other : ℕ) :
    (g.write id target version).requests other =
      if other = id then ⟨target, version, .reloading⟩ else g.requests other :=
  setRequest_requests _ _ _ _

@[simp] theorem acquire_jobs (targets : List Target) :
    (g.acquire a targets).jobs b =
      if b = a then .applying ⟨applyOrder targets, none⟩ else g.jobs b :=
  setJob_jobs _ _ _ _

/-- What a release leaves of a process. -/
theorem release_eq : g.release a stage =
    { g with
      lock := none
      jobs := (g.release a stage).jobs
      requests := (g.release a stage).requests } := by
  cases a <;> rfl

@[simp] theorem release_jobs :
    (g.release a stage).jobs b = if b = a then .idle else g.jobs b := by
  cases a <;> exact Function.update_apply _ _ _ _

@[simp] theorem release_requests :
    (g.release a stage).requests id =
      if a = .request id then { g.requests id with stage := stage } else g.requests id := by
  cases a with
  | flush => simp [Gateway.release, Gateway.setJob]
  | request other =>
      simp only [Gateway.release, setStage_requests, Applier.request.injEq, eq_comm]
      split
      · next heq => subst heq; rfl
      · rfl

/-- A message that is heard changes what is queued and whether a flush is due, nothing else. -/
theorem receive_eq (i : ℕ) (message : Message) : g.receive i message =
    { g with
      remoteTargets := (g.receive i message).remoteTargets
      sleeping := (g.receive i message).sleeping } := by
  unfold Gateway.receive
  split
  · rfl
  · split <;> rfl

theorem receive_sleeping {i : ℕ} {message : Message} (h : (g.receive i message).sleeping = true) :
    g.sleeping = true ∨ g.jobs .flush = .idle := by
  have hidle : (g.jobs .flush).isIdle = true → g.jobs .flush = .idle := by
    cases g.jobs .flush <;> simp [Job.isIdle]
  unfold Gateway.receive at h
  split at h
  · exact .inl h
  · split at h
    · exact .inl h
    · exact ((Bool.or_eq_true _ _).mp h).imp_right hidle

theorem receive_kept (i : ℕ) (message : Message) :
    g.remoteTargets ⊆ (g.receive i message).remoteTargets := by
  unfold Gateway.receive
  split
  · exact subset_rfl
  · split
    · exact subset_rfl
    · exact Finset.subset_union_left

theorem receive_queued {i : ℕ} {message : Message} (h : message.sourceInstance ≠ i)
    {target : Target} (htarget : target ∈ normalizeTargets message.targets) :
    target ∈ (g.receive i message).remoteTargets := by
  unfold Gateway.receive
  rw [if_neg h, if_neg (List.ne_nil_of_mem htarget)]
  exact Finset.mem_union_right _ (List.mem_toFinset.mpr htarget)

/-- A delivery changes the inbox and what is notified. -/
theorem deliver_eq (i j : ℕ) (message : Option Request) : g.deliver i j message =
    { g with
      inbox := (g.deliver i j message).inbox
      notified := (g.deliver i j message).notified } := by
  cases message with
  | none => rfl
  | some request =>
      unfold Gateway.deliver
      dsimp only
      split <;> rfl

end Fields

end GovernanceInvalidation
