import DeltaLLM.BatchRecords
import DeltaLLM.Dictionaries
import DeltaLLM.JsonText
import DeltaLLM.PythonText

/-! # Planning of chat work units

`_process_chat_items` sorts the prepared items of a claim into work units: items of one deployment
that a provider may get in one call are grouped by what they share and each group is cut into
chunks, the others are called alone. Which deployment an item got is decided when it is prepared.
-/
namespace ChatPlanner

open BatchRecords (BatchItemRow)
open Dictionaries (Dict)
open JsonText (dumps)
open JsonValues (JsonObject)
open PythonText (strip lower)

/-! ## Settings -/

inductive ChatBatchingMode where
  | disabled
  | concurrent
  | syncMicrobatch
  deriving DecidableEq, Repr

def ChatBatchingMode.text : ChatBatchingMode → String
  | .disabled => "disabled"
  | .concurrent => "concurrent"
  | .syncMicrobatch => "sync_microbatch"

/-- The fields of a `chat_batching` object once their types are validated. -/
structure ChatBatchingFields where
  mode : ChatBatchingMode := .concurrent
  maxInFlight : Option ℕ := none
  upstreamMaxBatchSize : Option ℕ := none
  maxTotalInputTokens : Option ℕ := none
  requireHomogeneousParams : Bool := true
  deriving DecidableEq, Repr

/-- The bounds of the fields and `validate_sync_microbatch_limits`. -/
structure ValidLimits (fields : ChatBatchingFields) : Prop where
  inFlight_pos : ∀ limit ∈ fields.maxInFlight, 1 ≤ limit
  size_pos : ∀ limit ∈ fields.upstreamMaxBatchSize, 1 ≤ limit
  tokens_pos : ∀ limit ∈ fields.maxTotalInputTokens, 1 ≤ limit
  sync_size : fields.mode = .syncMicrobatch → 2 ≤ fields.upstreamMaxBatchSize.getD 0
  sync_homogeneous : fields.mode = .syncMicrobatch → fields.requireHomogeneousParams = true

abbrev ChatBatchingConfig := { fields : ChatBatchingFields // ValidLimits fields }

def atLeastOne (limit : Option ℕ) : Bool := limit.all (1 ≤ ·)

theorem atLeastOne_iff {limit : Option ℕ} : atLeastOne limit = true ↔ ∀ n ∈ limit, 1 ≤ n := by
  cases limit <;> simp [atLeastOne]

/-- `ChatBatchingConfig.model_validate` on fields of the right types. -/
def validateConfig (fields : ChatBatchingFields) : Except String ChatBatchingConfig :=
  if hbounds : atLeastOne fields.maxInFlight = true ∧
    atLeastOne fields.upstreamMaxBatchSize = true ∧
      atLeastOne fields.maxTotalInputTokens = true then
    if hsync : fields.mode ≠ .syncMicrobatch then
      .ok ⟨fields, atLeastOne_iff.mp hbounds.1, atLeastOne_iff.mp hbounds.2.1,
        atLeastOne_iff.mp hbounds.2.2, fun h => absurd h hsync, fun h => absurd h hsync⟩
    else if hsize : fields.upstreamMaxBatchSize.getD 0 < 2 then
      .error ("chat_batching.upstream_max_batch_size must be at least 2 when mode is " ++
        "sync_microbatch")
    else if hsame : fields.requireHomogeneousParams = true then
      .ok ⟨fields, atLeastOne_iff.mp hbounds.1, atLeastOne_iff.mp hbounds.2.1,
        atLeastOne_iff.mp hbounds.2.2, fun _ => Nat.not_lt.mp hsize, fun _ => hsame⟩
    else
      .error ("chat_batching.require_homogeneous_params=false is not supported for " ++
        "sync_microbatch")
  else .error "Input should be greater than or equal to 1"

/-- `chat_batching` of a deployment: absent, a config, fields of the right types, or a value whose
types are refused. -/
inductive RawConfig where
  | absent
  | config (config : ChatBatchingConfig)
  | fields (fields : ChatBatchingFields)
  | malformed

structure ChatBatchingSettings where
  mode : ChatBatchingMode := .concurrent
  maxInFlight : Option ℕ := none
  upstreamMaxBatchSize : ℕ := 1
  maxTotalInputTokens : Option ℕ := none
  requireHomogeneousParams : Bool := true
  deriving DecidableEq, Repr

def settingsOf (config : ChatBatchingConfig) : ChatBatchingSettings where
  mode := config.1.mode
  maxInFlight := config.1.maxInFlight
  upstreamMaxBatchSize := max 1 (config.1.upstreamMaxBatchSize.getD 1)
  maxTotalInputTokens := config.1.maxTotalInputTokens
  requireHomogeneousParams := config.1.requireHomogeneousParams

/-- `resolve_chat_batching_settings`: what is not valid counts as absent. -/
def resolveChatBatchingSettings : RawConfig → ChatBatchingSettings
  | .absent | .malformed => {}
  | .config config => settingsOf config
  | .fields fields =>
      match validateConfig fields with
      | .ok config => settingsOf config
      | .error _ => {}

theorem settingsOf_size {config : ChatBatchingConfig}
    (h : (settingsOf config).mode = .syncMicrobatch) :
    2 ≤ (settingsOf config).upstreamMaxBatchSize := by
  have hsize := config.2.sync_size h
  cases hlimit : config.1.upstreamMaxBatchSize with
  | none =>
      rw [hlimit] at hsize
      cases hsize
  | some limit =>
      rw [hlimit] at hsize
      simp only [settingsOf, hlimit, Option.getD_some] at hsize ⊢
      omega

/-- A microbatch may always have two items. -/
theorem resolve_size {raw : RawConfig}
    (h : (resolveChatBatchingSettings raw).mode = .syncMicrobatch) :
    2 ≤ (resolveChatBatchingSettings raw).upstreamMaxBatchSize := by
  cases raw with
  | absent => cases h
  | malformed => cases h
  | config config => exact settingsOf_size h
  | fields fields =>
      simp only [resolveChatBatchingSettings] at h ⊢
      split at h
      · exact settingsOf_size h
      · cases h

/-! ## Prepared items -/

/-- The parameters of a deployment that the planner reads. -/
structure DeltaLLMParams where
  model : Option String
  provider : Option String
  apiBase : Option String
  chatBatching : RawConfig

structure Deployment where
  /-- `id(deployment)`. -/
  objectId : ℕ
  deploymentId : String
  deltallmParams : DeltaLLMParams

inductive MessageContent where
  | text (content : String)
  | parts (content : List JsonObject)

structure ChatMessage where
  role : String
  content : MessageContent

inductive ToolDefinition where
  | function
  | mcp
  deriving DecidableEq, Repr

/-- The fields of a request that are read, and its dump without the messages. -/
structure ChatCompletionRequest where
  messages : List ChatMessage
  stream : Option Bool
  tools : List ToolDefinition
  responseFormat : Option JsonObject
  n : Option ℕ
  dumpWithoutMessages : JsonObject

structure PreparedChatItem where
  item : BatchItemRow
  payload : ChatCompletionRequest
  modelGroup : String
  primaryDeployment : Deployment
  failoverKwargs : JsonObject

/-- `sanitize_label`. -/
def sanitizeLabel (label : String) : String :=
  let text := strip label
  if text = "" then "unknown"
  else String.ofList ((text.toList.map fun c => if c = '\n' ∨ c = '\r' then ' ' else c).take 128)

/-- `provider_from_model`. -/
def providerFromModel (model : String) : String :=
  let value := strip model
  if '/' ∈ value.toList then
    lower (sanitizeLabel (String.ofList (value.toList.takeWhile (· ≠ '/'))))
  else "unknown"

/-- `resolve_provider`. -/
def resolveProvider (params : DeltaLLMParams) : String :=
  match params.provider with
  | some explicit =>
      if strip explicit = "" then providerFromModel (params.model.getD "")
      else lower (sanitizeLabel explicit)
  | none => providerFromModel (params.model.getD "")

def messageChars (message : ChatMessage) : ℕ :=
  message.role.length +
    match message.content with
    | .text content => content.length
    | .parts content => (dumps (.list (content.map .dict))).length

/-- `estimate_chat_input_tokens`. -/
def estimateChatInputTokens (payload : ChatCompletionRequest) : ℕ :=
  max 1 (((payload.messages.map messageChars).sum + 3) / 4)

/-- What the items of a microbatch share. -/
structure GroupKey where
  deploymentId : String
  modelGroup : String
  provider : String
  apiBase : String
  model : String
  requestShape : String
  failoverKwargs : String
  deriving DecidableEq, Repr

structure ChatMicrobatchEligibility where
  eligible : Bool
  reason : Option String
  groupKey : Option GroupKey
  inputTokens : ℕ

/-- `str(deployment_id or id(deployment))`. -/
def deploymentKey (deployment : Deployment) : String :=
  if deployment.deploymentId = "" then toString deployment.objectId else deployment.deploymentId

/-- `_chat_deployment_key`. -/
def chatDeploymentKey (prepared : PreparedChatItem) : String :=
  deploymentKey prepared.primaryDeployment

def groupKeyOf (payload : ChatCompletionRequest) (deployment : Deployment) (modelGroup : String)
    (failoverKwargs : JsonObject) : GroupKey where
  deploymentId := deploymentKey deployment
  modelGroup
  provider := resolveProvider deployment.deltallmParams
  apiBase := deployment.deltallmParams.apiBase.getD ""
  model := deployment.deltallmParams.model.getD ""
  requestShape := dumps (.dict payload.dumpWithoutMessages)
  failoverKwargs := dumps (.dict failoverKwargs)

/-- `classify_chat_microbatch_request`. -/
def classifyChatMicrobatchRequest (payload : ChatCompletionRequest) (deployment : Deployment)
    (modelGroup : String) (failoverKwargs : JsonObject) : ChatMicrobatchEligibility :=
  let inputTokens := estimateChatInputTokens payload
  let refused (reason : String) : ChatMicrobatchEligibility :=
    ⟨false, some reason, none, inputTokens⟩
  if payload.stream = some true then refused "streaming"
  else if ToolDefinition.mcp ∈ payload.tools then refused "mcp_tools"
  else if payload.tools ≠ [] then refused "tools"
  else if payload.responseFormat.isSome then refused "response_format"
  else if payload.n ≠ none ∧ payload.n ≠ some 1 then refused "multiple_choices"
  else ⟨true, none, some (groupKeyOf payload deployment modelGroup failoverKwargs), inputTokens⟩

/-- The classification of a prepared item on its own primary deployment. -/
def PreparedChatItem.eligibility (prepared : PreparedChatItem) : ChatMicrobatchEligibility :=
  classifyChatMicrobatchRequest prepared.payload prepared.primaryDeployment prepared.modelGroup
    prepared.failoverKwargs

def PreparedChatItem.settings (prepared : PreparedChatItem) : ChatBatchingSettings :=
  resolveChatBatchingSettings prepared.primaryDeployment.deltallmParams.chatBatching

def PreparedChatItem.inputTokens (prepared : PreparedChatItem) : ℕ :=
  estimateChatInputTokens prepared.payload

theorem eligibility_inputTokens (prepared : PreparedChatItem) :
    prepared.eligibility.inputTokens = prepared.inputTokens := by
  simp only [PreparedChatItem.eligibility, classifyChatMicrobatchRequest]
  split_ifs <;> rfl

/-! ## Cutting a group into chunks -/

section Splitting

variable {α : Type}

/-- The chunk that is being filled, the chunks before it, and the items that are called alone. -/
structure Splitting (α : Type) where
  chunks : List (List α) := []
  fallbacks : List (α × String) := []
  currentChunk : List α := []
  currentTokens : ℕ := 0

/-- `flush_current`. -/
def Splitting.flushCurrent (state : Splitting α) : Splitting α :=
  match state.currentChunk with
  | [] => { state with currentTokens := 0 }
  | [lone] =>
      { state with
        fallbacks := state.fallbacks ++ [(lone, "single_candidate")]
        currentChunk := []
        currentTokens := 0 }
  | chunk =>
      { state with chunks := state.chunks ++ [chunk], currentChunk := [], currentTokens := 0 }

def maxBatchSize (settings : ChatBatchingSettings) : ℕ := max 2 settings.upstreamMaxBatchSize

/-- `token_cap is not None and tokens > token_cap`. -/
def OverCap (settings : ChatBatchingSettings) (tokens : ℕ) : Prop :=
  ∃ cap ∈ settings.maxTotalInputTokens, cap < tokens

instance (settings : ChatBatchingSettings) (tokens : ℕ) : Decidable (OverCap settings tokens) :=
  inferInstanceAs (Decidable (∃ cap ∈ settings.maxTotalInputTokens, cap < tokens))

def Splitting.add (settings : ChatBatchingSettings) (state : Splitting α) (candidate : α × ℕ) :
    Splitting α :=
  if OverCap settings candidate.2 then
    let flushed := state.flushCurrent
    { flushed with fallbacks := flushed.fallbacks ++ [(candidate.1, "token_limit")] }
  else
    let exceedsCount := maxBatchSize settings ≤ state.currentChunk.length
    let exceedsTokens := state.currentChunk ≠ [] ∧
      OverCap settings (state.currentTokens + candidate.2)
    let state := if exceedsCount ∨ exceedsTokens then state.flushCurrent else state
    { state with
      currentChunk := state.currentChunk ++ [candidate.1]
      currentTokens := state.currentTokens + candidate.2 }

/-- `_split_chat_microbatch_candidates`. -/
def splitChatMicrobatchCandidates (candidates : List (α × ℕ)) (settings : ChatBatchingSettings) :
    List (List α) × List (α × String) :=
  let state := (candidates.foldl (Splitting.add settings) {}).flushCurrent
  (state.chunks, state.fallbacks)

end Splitting

/-! ## Work units -/

inductive WorkUnit where
  | single (prepared : PreparedChatItem) (mode : String)
  | microbatch (chunk : List PreparedChatItem)

structure QueuedUnit where
  deploymentKey : String
  settings : ChatBatchingSettings
  unit : WorkUnit

def WorkUnit.items : WorkUnit → List PreparedChatItem
  | .single prepared _ => [prepared]
  | .microbatch chunk => chunk

def QueuedUnit.items (queued : QueuedUnit) : List PreparedChatItem := queued.unit.items

/-- The worker's settings; `executor` says whether a microbatch executor is found for a
deployment. -/
structure ChatWorker where
  workerConcurrency : ℕ
  executor : Deployment → Bool

/-- `_queue_single`. -/
def queueSingle (settings : ChatBatchingSettings) (mode : String) (prepared : PreparedChatItem) :
    QueuedUnit :=
  ⟨chatDeploymentKey prepared, settings, .single prepared mode⟩

def fallbackMode : String := "sync_microbatch_fallback"

/-- The units of a group of eligible items. -/
def planGroup (key : String) (settings : ChatBatchingSettings)
    (candidates : List (PreparedChatItem × ℕ)) : List QueuedUnit :=
  let (chunks, fallbacks) := splitChatMicrobatchCandidates candidates settings
  fallbacks.map (fun fallback => queueSingle settings fallbackMode fallback.1) ++
    chunks.map fun chunk => ⟨key, settings, .microbatch chunk⟩

/-- The key and the tokens of an item that may share a call. -/
def candidateOf (prepared : PreparedChatItem) : Option (GroupKey × PreparedChatItem × ℕ) :=
  let eligibility := prepared.eligibility
  if eligibility.eligible then
    eligibility.groupKey.map fun key => (key, prepared, eligibility.inputTokens)
  else none

/-- The units of the items of one deployment, whose settings are those of the first of them. -/
def planDeployment (w : ChatWorker) (key : String) (items : List PreparedChatItem) :
    List QueuedUnit :=
  match items with
  | [] => []
  | first :: _ =>
      let settings := first.settings
      if settings.mode = .disabled ∨ settings.mode = .concurrent then
        items.map (queueSingle settings settings.mode.text)
      else if ¬w.executor first.primaryDeployment then items.map (queueSingle settings fallbackMode)
      else
        let ineligible := items.filter fun prepared => (candidateOf prepared).isNone
        let grouped := Dict.groupRecords Prod.fst (items.filterMap candidateOf)
        ineligible.map (queueSingle settings fallbackMode) ++
          grouped.flatMap fun group => planGroup key settings (group.2.map Prod.snd)

/-- The work units of the prepared items. -/
def planWorkUnits (w : ChatWorker) (prepared : List PreparedChatItem) : List QueuedUnit :=
  (Dict.groupRecords chatDeploymentKey prepared).flatMap fun entry =>
    planDeployment w entry.1 entry.2

/-! ## The capability check -/

/-- `_resolve_chat_microbatch_capable_executor`: the reason of a refusal. -/
def microbatchRefusal (w : ChatWorker) (deployment : Deployment) (chunkSize inputTokens : ℕ) :
    Option String :=
  let settings := resolveChatBatchingSettings deployment.deltallmParams.chatBatching
  if settings.mode ≠ .syncMicrobatch then some ("mode=" ++ settings.mode.text)
  else if settings.upstreamMaxBatchSize < chunkSize then some "upstream_max_batch_size"
  else if OverCap settings inputTokens then some "max_total_input_tokens"
  else if ¬w.executor deployment then some "executor_unavailable"
  else none

end ChatPlanner
