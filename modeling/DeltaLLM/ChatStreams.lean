import DeltaLLM.AnthropicStream
import DeltaLLM.AwaitedPrograms
import DeltaLLM.CacheKeys
import DeltaLLM.ChatBilling
import DeltaLLM.FailoverAttempts
import DeltaLLM.StreamIsolation

/-! # Streaming chat requests

From the attempts to open a provider's stream to the end of the client's stream, as the program that
the generator of the response runs. Each await is a call that may return, raise or be cancelled; a
line sent to the client is a call too, cancelled where the client has gone.
-/
namespace ChatStreams

open AnthropicStream (StreamStep)
open AwaitedPrograms AwaitedPrograms.Task
open CacheKeys (CacheControl)
open ChatBilling (trackLine)
open DeploymentRouting (Deployment)
open FailoverAttempts
open JsonValues StreamingCache
open StreamIsolation (CacheEntry StreamWriteContext cacheEntry)

/-- What a provider answers; the lines are all that it sends until its stream ends. -/
structure Response where
  statusCode : ℕ
  lines : List String

/-- `context` numbers the stream contexts of the request that were entered. -/
inductive Call where
  | isCooledDown (deploymentId : String)
  | getHealth (deploymentId : String)
  | incrementActive (deploymentId : String)
  | decrementActive (deploymentId : String)
  | recordLatency (deploymentId : String)
  | recordSuccess (deploymentId : String)
  | recordFailure (deploymentId error : String)
  | sleep (attempt : ℕ)
  | translateRequest (deploymentId : String)
  | enter (deploymentId : String)
  | readLine (context : ℕ)
  | exit (context : ℕ) (failed : Bool)
  | send (line : String)
  | store (entry : CacheEntry)
  | recordUsage (deploymentId : String) (usage : JsonObject)
  | emitSuccess (deploymentId : String)
  | emitFailure

@[reducible] def Call.Reply : Call → Type
  | .isCooledDown _ | .getHealth _ => Bool
  | .enter _ => Response
  | _ => Unit

structure Opened where
  context : ℕ
  firstLine : String
  deployment : Deployment

/-- The contexts with what their streams do next, the generator's variables, and this request's
accumulator and entries in the cache. -/
structure State where
  entered : ℕ
  exits : ℕ → ℕ
  streams : ℕ → List StreamStep
  lines : ℕ → List String
  opened : Option Opened
  streamId : Option String
  failed : Bool
  usage : JsonObject
  registered : Option Accumulator
  stored : List CacheEntry

def start : State where
  entered := 0
  exits _ := 0
  streams _ := []
  lines _ := []
  opened := none
  streamId := none
  failed := false
  usage := []
  registered := none
  stored := []

def State.enter (s : State) (stream : List StreamStep) (lines : List String) : State :=
  { s with
    entered := s.entered + 1
    streams := Function.update s.streams s.entered stream
    lines := Function.update s.lines s.entered lines }

def State.exit (s : State) (context : ℕ) : State :=
  { s with exits := Function.update s.exits context (s.exits context + 1) }

def State.setStream (s : State) (context : ℕ) (stream : List StreamStep) : State :=
  { s with streams := Function.update s.streams context stream }

structure CacheContext where
  cacheKey : String
  control : CacheControl
  ttl : Option ℤ

/-- The request, its adapters and what the finished response of a stream takes from the clock. -/
structure Gateway where
  execution : Execution
  primary : Deployment
  translateStream : Deployment → List String → List StreamStep
  mapError : Deployment → ℕ → UpstreamError
  py : Python
  limits : Limits
  model : String
  enableStreamCache : Bool
  path : String
  cacheContext : Option CacheContext
  hasStreamHandler : Bool
  cacheTtl : ℤ
  modelInfo : Deployment → JsonObject
  provider : Deployment → String
  deploymentModel : Deployment → Option String
  lineTransform : Option (String → Option String)
  uuid : String
  now : ℤ

abbrev Chat (α : Type) : Type := Task State Call.Reply UpstreamError α

def call (call : Call) : Chat call.Reply := await call

/-! ## Opening a stream -/

/-- `OpenedStream.close`, and the exit after an exception while opening. -/
def exitContext (context : ℕ) (failed : Bool) : Chat Unit := do
  modify fun s => s.exit context
  call (.exit context failed)

/-- Reads up to the first line that is not empty. -/
def firstLine (context : ℕ) : List StreamStep → Chat (Option String)
  | [] => pure none
  | .read _ :: steps => do
      call (.readLine context)
      modify fun s => s.setStream context steps
      firstLine context steps
  | .yield line :: steps => do
      modify fun s => s.setStream context steps
      if line = "" then firstLine context steps else pure (some line)
  | .fail message :: _ => raise (.other message)

section

variable (g : Gateway)

def firstChunk (d : Deployment) (context : ℕ) (response : Response) : Chat Opened :=
  if 400 ≤ response.statusCode then raise (g.mapError d response.statusCode)
  else do
    match ← firstLine context (g.translateStream d response.lines) with
    | none =>
        raise (.proxy (proxyError .serviceUnavailable "Provider stream ended before first chunk"
          (some true)))
    | some line => pure ⟨context, line, d⟩

/-- An exception exits the context; a cancellation is no exception. -/
def openStreamWithFirstChunk (d : Deployment) : Chat Opened := do
  call (.translateRequest d.deploymentId)
  let response : Response ← call (.enter d.deploymentId)
  let context := (← read).entered
  modify fun s => s.enter (g.translateStream d response.lines) response.lines
  (firstChunk g d context response).handle fun error => do
    exitContext context true
    raise error

/-! ## Failover -/

/-- The body of an attempt: the deadline is that of opening the stream alone. -/
def attemptBody (d : Deployment) : Chat Opened := do
  call (.incrementActive d.deploymentId)
  let opened ← (openStreamWithFirstChunk g d).withDeadline .timedOut
  call (.recordLatency d.deploymentId)
  call (.recordSuccess d.deploymentId)
  pure opened

def isAvailable (d : Deployment) : Chat Bool := do
  let cooledDown : Bool ← call (.isCooledDown d.deploymentId)
  if cooledDown then pure false else call (.getHealth d.deploymentId)

def classifiedFailure (d : Deployment) (error : UpstreamError) : Chat (Option Opened) := do
  let (e, classification, allowed) := normalizeExecutionError error d
  call (.recordFailure d.deploymentId e.message)
  if !allowed then raise (.proxy e)
  else if !affectsDeploymentHealth e ∧ classification ≠ .contextWindow ∧
      classification ≠ .contentPolicy then
    raise (.proxy e)
  else pure none

/-- `_try_classified_fallbacks`. -/
def tryClassifiedFallbacks : List Deployment → Chat (Option Opened)
  | [] => pure none
  | d :: ds => do
      if !(← isAvailable d) then tryClassifiedFallbacks ds
      else
        let served ← ((some <$> attemptBody g d).handle (classifiedFailure d)).lastly
          (call (.decrementActive d.deploymentId))
        match served with
        | some opened => pure (some opened)
        | none => tryClassifiedFallbacks ds

/-- How one attempt of the main chain ends when it does not raise. -/
inductive AttemptEnd where
  | served (opened : Opened)
  | retry
  | exhausted (e : ProxyError)

def classifiedAttempts (classification : Classification) (allowed : Bool) : Chat (Option Opened) :=
  if allowed then tryClassifiedFallbacks g (g.execution.classified classification) else pure none

def attemptFailure (d : Deployment) (attempt : ℕ) (error : UpstreamError) : Chat AttemptEnd := do
  let (e, classification, allowed) := normalizeExecutionError error d
  call (.recordFailure d.deploymentId e.message)
  match ← classifiedAttempts g classification allowed with
  | some opened => pure (.served opened)
  | none =>
      if !affectsDeploymentHealth e then raise (.proxy e)
      else if shouldRetry classification e g.execution.retryClasses ∧
          attempt < g.execution.retries then do
        call (.sleep attempt)
        pure .retry
      else pure (.exhausted e)

/-- The attempts on one deployment: on the left the request is served, on the right the chain goes
on with this as the last error. -/
def attemptDeployment (d : Deployment) (last : ProxyError) : ℕ → Chat (Opened ⊕ ProxyError)
  | 0 => pure (.inr last)
  | remaining + 1 => do
      let result ← ((.served <$> attemptBody g d).handle
        (attemptFailure g d (g.execution.retries - remaining))).lastly
          (call (.decrementActive d.deploymentId))
      match result with
      | .served opened => pure (.inl opened)
      | .retry => attemptDeployment d last remaining
      | .exhausted e => pure (.inr e)

def runChain : List Deployment → Option ProxyError → Chat Opened
  | [], lastError => raise (.proxy (lastError.getD noHealthyDeployments))
  | d :: ds, lastError => do
      if !(← isAvailable d) then runChain ds lastError
      else
        match ← attemptDeployment g d (lastError.getD noHealthyDeployments)
          (g.execution.retries + 1) with
        | .inl opened => pure opened
        | .inr e => runChain ds (some e)

def executeWithFailover : Chat Opened :=
  runChain g (buildFallbackChain g.execution.config g.execution.registry g.primary
    g.execution.group) none

/-! ## The client's stream -/

/-- The request's stream is cached under this key. -/
def Gateway.streamKey : Option String :=
  match g.cacheContext with
  | none => none
  | some context =>
      if g.enableStreamCache ∧ g.path = "/v1/chat/completions" ∧ g.hasStreamHandler ∧
          context.control ≠ .noStore then some context.cacheKey
      else none

def Gateway.writeContext (key : String) (d : Deployment) : StreamWriteContext where
  cacheKey := key
  ttl := ((g.cacheContext.bind CacheContext.ttl).filter (· ≠ 0)).getD g.cacheTtl
  model := g.model
  pricing := some (g.modelInfo d)
  deploymentId := some d.deploymentId
  provider := some (g.provider d)
  deploymentModel := g.deploymentModel d

def startStream : Chat Unit :=
  modify fun s =>
    match g.streamKey with
    | none => s
    | some key => { s with streamId := some key, registered := some .fresh }

/-- `add_chunk_from_line` under the request's key. -/
def addChunkFromLine (line : String) : Chat Unit := do
  match (← read).registered with
  | none => pure ()
  | some acc =>
      match acc.addLine g.py g.limits line with
      | none => raise (.other "invalid chunk")
      | some acc => modify fun s => { s with registered := some acc }

/-- A write that raises is passed over; one that is cut short may have been made. -/
def writeEntry (entry : CacheEntry) : Chat Unit :=
  (call (.store entry)).followedBy fun
    | .raised _ => pure ()
    | ending => do
        modify fun s => { s with stored := s.stored ++ [entry] }
        finish ending

def finalizeAndStore (key : String) (d : Deployment) : Chat Unit := do
  let s ← read
  modify fun s => { s with registered := none }
  match s.registered with
  | none => pure ()
  | some acc =>
      match acc.buildResponse g.model g.uuid g.now with
      | none => pure ()
      | some response => writeEntry (cacheEntry (g.writeContext key d) acc response g.now)

def sendLine (line : String) : Chat Unit :=
  match g.lineTransform with
  | none => call (.send line)
  | some transform =>
      match transform line with
      | none => pure ()
      | some out => call (.send out)

def relayInitial (line : String) : Chat Unit := do
  modify fun s => { s with usage := trackLine g.py s.usage line }
  addChunkFromLine g line
  sendLine g line

/-- The end mark finishes the stream of a cached request. -/
def finishLine (d : Deployment) (line : String) : Chat Unit := do
  match (← read).streamId with
  | none => pure ()
  | some key => if doneLine line then finalizeAndStore g key d else pure ()

def relayLine (d : Deployment) (line : String) : Chat Unit := do
  modify fun s => { s with usage := trackLine g.py s.usage line }
  addChunkFromLine g line
  finishLine g d line
  sendLine g line

/-- The loop over the translated stream. -/
def relay (opened : Opened) : List StreamStep → Chat Unit
  | [] => pure ()
  | .read _ :: steps => do
      call (.readLine opened.context)
      modify fun s => s.setStream opened.context steps
      relay opened steps
  | .yield line :: steps => do
      modify fun s => s.setStream opened.context steps
      if line = "" then relay opened steps
      else do
        relayLine g opened.deployment line
        relay opened steps
  | .fail message :: _ => raise (.other message)

def serve (opened : Opened) : Chat Unit := do
  startStream g
  relayInitial g opened.firstLine
  relay g opened ((← read).streams opened.context)
  call (.recordUsage opened.deployment.deploymentId (← read).usage)
  call (.emitSuccess opened.deployment.deploymentId)

/-- The `except Exception` block: the accumulator is dropped before the failure is reported. -/
def streamFailed (error : UpstreamError) : Chat Unit := do
  modify fun s => { s with failed := true, registered := none }
  call .emitFailure
  raise error

/-- The `finally` block. -/
def closeOpened : Chat Unit := do
  let s ← read
  match s.opened with
  | none => pure ()
  | some opened => exitContext opened.context s.failed

def streamBody : Chat Unit := do
  let opened ← executeWithFailover g
  modify fun s => { s with opened := some opened }
  serve g opened

/-- `stream_sse`. -/
def streamSse : Chat Unit := ((streamBody g).handle streamFailed).lastly closeOpened

end

/-! ## Rules for the request's program -/

section Failover

variable {g : Gateway} {allowed : Answer State Call.Reply UpstreamError → Prop}
  {idle : State → Prop} {holds : Opened → State → Prop}

/-- What the failover needs to know: its calls keep `idle`, and an opened stream is held over the
calls that follow it. -/
structure Attempts (g : Gateway) (allowed : Answer State Call.Reply UpstreamError → Prop)
    (idle : State → Prop) (holds : Opened → State → Prop) : Prop where
  call : ∀ c, Preserves allowed idle (call c)
  opening : ∀ d, Triple allowed idle (openStreamWithFirstChunk g d) holds idle idle
  held : ∀ opened c, (∀ context, c ≠ .readLine context) →
    Triple allowed (holds opened) (ChatStreams.call c) (fun _ => holds opened) idle idle

/-- The stream that a result hands on is held, or nothing is. -/
def handed (idle : State → Prop) (holds : Opened → State → Prop) : Option Opened → State → Prop
  | none => idle
  | some opened => holds opened

variable (h : Attempts g allowed idle holds)
include h

theorem Attempts.attemptBody (d : Deployment) :
    Triple allowed idle (attemptBody g d) holds idle idle := by
  refine triple_bind (h.call _) fun _ => ?_
  apply triple_bind (triple_withDeadline (h.opening d) fun s hs => hs)
  intro opened
  apply triple_bind (h.held opened _ (by nofun))
  intro _
  apply triple_bind (h.held opened _ (by nofun))
  exact fun _ => triple_pure fun s hs => hs

theorem Attempts.isAvailable (d : Deployment) : Preserves allowed idle (isAvailable d) := by
  refine (h.call _).bind fun cooledDown => ?_
  split
  · exact preserves_pure false
  · exact h.call _

/-- The `finally` block of an attempt. -/
theorem Attempts.decrement (d : Deployment) (opened : Option Opened) :
    Triple allowed (handed idle holds opened) (ChatStreams.call (.decrementActive d.deploymentId))
      (fun _ => handed idle holds opened) idle idle := by
  cases opened with
  | none => exact h.call _
  | some opened => exact h.held opened _ (by nofun)

theorem Attempts.classifiedFailure (d : Deployment) (error : UpstreamError) :
    Triple allowed idle (classifiedFailure d error) (handed idle holds) idle idle := by
  unfold ChatStreams.classifiedFailure
  rcases normalizeExecutionError error d with ⟨e, classification, permitted⟩
  refine triple_bind (h.call _) fun _ => ?_
  split
  · exact triple_raise fun s hs => hs
  · split
    · exact triple_raise fun s hs => hs
    · exact triple_pure fun s hs => hs

theorem Attempts.attempted (d : Deployment) :
    Triple allowed idle (some <$> ChatStreams.attemptBody g d) (handed idle holds) idle idle :=
  triple_map (h.attemptBody d) fun _ _ hs => hs

theorem Attempts.tryClassifiedFallbacks (ds : List Deployment) :
    Triple allowed idle (tryClassifiedFallbacks g ds) (handed idle holds) idle idle := by
  induction ds with
  | nil => exact triple_pure fun s hs => hs
  | cons d ds ih =>
      refine triple_bind (h.isAvailable d) fun available => ?_
      split
      · exact ih
      · apply triple_bind (Q := handed idle holds)
        · apply triple_lastly
          · exact triple_handle (h.attempted d) (h.classifiedFailure d)
          · exact h.decrement d
          · exact h.call _
          · exact h.call _
        · intro served
          cases served with
          | none => exact ih
          | some opened => exact triple_pure fun s hs => hs

theorem Attempts.classifiedAttempts (classification : Classification) (permitted : Bool) :
    Triple allowed idle (classifiedAttempts g classification permitted) (handed idle holds) idle
      idle := by
  unfold ChatStreams.classifiedAttempts
  split
  · exact h.tryClassifiedFallbacks _
  · exact triple_pure fun s hs => hs

omit h in
/-- What an attempt of the main chain hands on. -/
def AttemptEnd.opened : AttemptEnd → Option Opened
  | .served opened => some opened
  | .retry | .exhausted _ => none

theorem Attempts.attemptFailure (d : Deployment) (attempt : ℕ) (error : UpstreamError) :
    Triple allowed idle (attemptFailure g d attempt error)
      (fun result => handed idle holds result.opened) idle idle := by
  unfold ChatStreams.attemptFailure
  rcases normalizeExecutionError error d with ⟨e, classification, permitted⟩
  refine triple_bind (h.call _) fun _ => ?_
  refine triple_bind (h.classifiedAttempts classification permitted) fun extra => ?_
  cases extra with
  | some opened => exact triple_pure fun s hs => hs
  | none =>
      dsimp only
      split
      · exact triple_raise fun s hs => hs
      · split
        · exact triple_bind (h.call _) fun _ => triple_pure fun s hs => hs
        · exact triple_pure fun s hs => hs

theorem Attempts.attemptDeployment (d : Deployment) (last : ProxyError) (remaining : ℕ) :
    Triple allowed idle (attemptDeployment g d last remaining)
      (fun result => handed idle holds result.getLeft?) idle idle := by
  induction remaining with
  | zero => exact triple_pure fun s hs => hs
  | succ remaining ih =>
      apply triple_bind (Q := fun result => handed idle holds result.opened)
      · apply triple_lastly
        · exact triple_handle (triple_map (h.attemptBody d) fun _ _ hs => hs)
            (h.attemptFailure d _)
        · exact fun result => h.decrement d result.opened
        · exact h.call _
        · exact h.call _
      · intro result
        cases result with
        | served opened => exact triple_pure fun s hs => hs
        | retry => exact ih
        | exhausted e => exact triple_pure fun s hs => hs

theorem Attempts.runChain (ds : List Deployment) (lastError : Option ProxyError) :
    Triple allowed idle (runChain g ds lastError) holds idle idle := by
  induction ds generalizing lastError with
  | nil => exact triple_raise fun s hs => hs
  | cons d ds ih =>
      refine triple_bind (h.isAvailable d) fun available => ?_
      split
      · exact ih lastError
      · refine triple_bind (h.attemptDeployment d _ _) fun result => ?_
        cases result with
        | inl opened => exact triple_pure fun s hs => hs
        | inr e => exact ih (some e)

/-- A served request holds the stream that its last attempt opened. -/
theorem Attempts.executeWithFailover :
    Triple allowed idle (executeWithFailover g) holds idle idle :=
  h.runChain _ none

end Failover

section Serving

/-- The contexts and the generator's stream are the same. -/
structure SameContexts (s t : State) : Prop where
  entered : t.entered = s.entered
  exits : t.exits = s.exits
  lines : t.lines = s.lines
  opened : t.opened = s.opened

variable {g : Gateway} {allowed : Answer State Call.Reply UpstreamError → Prop} {I : State → Prop}
  (hI : ∀ s t, I s → SameContexts s t → I t)
include hI

theorem preserves_modify_sameContexts {f : State → State}
    (h : ∀ s, SameContexts s (f s) := by intro s; exact ⟨rfl, rfl, rfl, rfl⟩) :
    Preserves allowed I (modify f : Chat Unit) :=
  preserves_modify fun s hs => hI s (f s) hs (h s)

theorem preserves_addChunkFromLine (line : String) :
    Preserves allowed I (addChunkFromLine g line) := by
  refine preserves_read.bind fun s => ?_
  split
  · exact preserves_pure ()
  · split
    · exact preserves_raise _
    · exact preserves_modify_sameContexts hI

omit hI in
theorem preserves_sendLine (line : String) : Preserves allowed I (sendLine g line) := by
  unfold sendLine
  split
  · exact preserves_await _
  · split
    · exact preserves_pure ()
    · exact preserves_await _

theorem preserves_writeEntry (entry : CacheEntry) : Preserves allowed I (writeEntry entry) := by
  refine Preserves.followedBy (preserves_await _) fun ending => ?_
  split
  · exact preserves_pure ()
  · exact Preserves.bind (preserves_modify_sameContexts hI) fun _ => preserves_finish _

theorem preserves_finishLine (d : Deployment) (line : String) :
    Preserves allowed I (finishLine g d line) := by
  refine preserves_read.bind fun s => ?_
  split
  · exact preserves_pure ()
  · split
    · refine preserves_read.bind fun s => ?_
      refine Preserves.bind (preserves_modify_sameContexts hI) fun _ => ?_
      split
      · exact preserves_pure ()
      · split
        · exact preserves_pure ()
        · exact preserves_writeEntry hI _
    · exact preserves_pure ()

theorem preserves_relayLine (d : Deployment) (line : String) :
    Preserves allowed I (relayLine g d line) := by
  refine Preserves.bind (preserves_modify_sameContexts hI) fun _ => ?_
  refine (preserves_addChunkFromLine hI line).bind fun _ => ?_
  exact (preserves_finishLine hI d line).bind fun _ => preserves_sendLine line

theorem preserves_relay (opened : Opened) (steps : List StreamStep) :
    Preserves allowed I (relay g opened steps) := by
  induction steps with
  | nil => exact preserves_pure ()
  | cons step steps ih =>
      cases step with
      | read line =>
          refine (preserves_await _).bind fun _ => ?_
          exact Preserves.bind (preserves_modify_sameContexts hI) fun _ => ih
      | yield line =>
          refine Preserves.bind (preserves_modify_sameContexts hI) fun _ => ?_
          split
          · exact ih
          · exact (preserves_relayLine hI _ line).bind fun _ => ih
      | fail message => exact preserves_raise _

theorem preserves_startStream : Preserves allowed I (startStream g) := by
  refine preserves_modify_sameContexts hI fun s => ?_
  cases g.streamKey <;> exact ⟨rfl, rfl, rfl, rfl⟩

/-- Serving the stream keeps what is known of the contexts. -/
theorem preserves_serve (opened : Opened) : Preserves allowed I (serve g opened) := by
  refine (preserves_startStream hI).bind fun _ => Preserves.bind ?_ fun _ => ?_
  · refine Preserves.bind (preserves_modify_sameContexts hI) fun _ => ?_
    exact (preserves_addChunkFromLine hI _).bind fun _ => preserves_sendLine _
  · refine preserves_read.bind fun s => (preserves_relay hI opened _).bind fun _ => ?_
    exact preserves_read.bind fun _ => (preserves_await _).bind fun _ => preserves_await _

end Serving

end ChatStreams
