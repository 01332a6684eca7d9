import DeltaLLM.CompletionCost
import DeltaLLM.SpendLedger

/-! # The bill of a chat request

What the gateway does once a deployment has answered a chat request, as a stream or as one JSON
response, and what that leaves in the spend log and the spend counters.
-/
namespace ChatBilling

open CompletionCost JsonValues PythonText SpendLedger StreamingCache

/-- The prices of the deployment that served the request. -/
structure ServedDeployment where
  modelInfo : ModelInfo
  inputCostPerToken : ℚ
  outputCostPerToken : ℚ

def ServedDeployment.pricing (deployment : ServedDeployment) : Option ModelPricing :=
  pricingFromModelInfo deployment.modelInfo (some deployment.inputCostPerToken)
    (some deployment.outputCostPerToken)

structure ChatRequest where
  requestId : String
  account : Account
  model : String
  deployment : ServedDeployment

/-- `completion_cost` of the request, which no cache has answered. -/
def ChatRequest.cost (request : ChatRequest) (usage : JsonObject) : Option ℚ :=
  completionCost request.model usage false request.deployment.pricing

/-! ## Usage -/

/-- `_StreamUsageTracker.add_line`: the last chunk with a usage counts. -/
def trackLine (py : Python) (usage : JsonObject) (line : String) : JsonObject :=
  match linePayload line with
  | none => usage
  | some payload =>
      if contains payload "\"usage\"" then
        match py.loads payload with
        | some (.dict chunk) =>
            match JsonObject.get chunk "usage" with
            | .dict reported => reported
            | _ => usage
        | _ => usage
      else usage

def trackedUsage (py : Python) (lines : List String) : JsonObject := lines.foldl (trackLine py) []

/-- The usage of a response as `model_dump` writes it. -/
def usageDump (usage : Usage) : JsonObject :=
  [("prompt_tokens", .int usage.promptTokens), ("completion_tokens", .int usage.completionTokens),
    ("total_tokens", .int usage.totalTokens)]

/-- What the provider answered: the lines of a stream, or the usage of one response. -/
inductive Answer where
  | stream (lines : List String)
  | json (usage : Usage)

def Answer.isStream : Answer → Bool
  | .stream _ => true
  | .json _ => false

def Answer.usage (py : Python) : Answer → JsonObject
  | .stream lines => trackedUsage py lines
  | .json usage => usageDump usage

/-! ## The end of a request -/

/-- What the end of a request does, in its order, with the data about usage and cost. -/
inductive Effect where
  | recordRouterUsage (usage : JsonObject)
  | recordRequestOutcome (success : Bool)
  | incrementRequest (statusCode : ℕ)
  | incrementUsage (promptTokens completionTokens : ℤ)
  | incrementSpend (spend : ℚ)
  | logSpend (usage : JsonObject) (cost : ℚ)
  | observeRequestLatency
  | observeApiLatency
  | dispatchSuccessCallbacks (responseCost : Option ℚ)
  | executePostCallSuccessHooks
  | runPostCallSuccess
  | emitTextAuditEvent (inputTokens outputTokens : Option ℤ)

/-- `emit_stream_success`. -/
def emitStreamSuccess : List Effect :=
  [.recordRequestOutcome true, .dispatchSuccessCallbacks none, .executePostCallSuccessHooks,
    .runPostCallSuccess, .emitTextAuditEvent none none]

/-- `emit_nonstream_success`; none where a count of the usage is no number. -/
def emitNonstreamSuccess (request : ChatRequest) (usage : JsonObject) : Option (List Effect) := do
  let requestCost ← request.cost usage
  let promptTokens ← tokenCount usage "prompt_tokens"
  let completionTokens ← tokenCount usage "completion_tokens"
  return [.recordRequestOutcome true, .incrementRequest 200,
    .incrementUsage promptTokens completionTokens, .incrementSpend requestCost,
    .logSpend usage requestCost, .observeRequestLatency, .observeApiLatency,
    .dispatchSuccessCallbacks (some requestCost), .executePostCallSuccessHooks, .runPostCallSuccess,
    .emitTextAuditEvent (some promptTokens) (some completionTokens)]

/-- `stream_sse` after its last line, or the rest of `handle_chat_like_request`. -/
def finish (py : Python) (request : ChatRequest) : Answer → Option (List Effect)
  | .stream lines => some (.recordRouterUsage (trackedUsage py lines) :: emitStreamSuccess)
  | .json usage =>
      (emitNonstreamSuccess request (usageDump usage)).map
        (.recordRouterUsage (usageDump usage) :: ·)

/-- Only `log_spend` touches the spend log and its counters. -/
def applyEffect (request : ChatRequest) (outcome : Outcome) (db : Database) : Effect → Database
  | .logSpend _ cost => db.logSpend outcome request.requestId request.account request.model cost
  | _ => db

def applyEffects (request : ChatRequest) (outcome : Outcome) (db : Database)
    (effects : List Effect) :
    Database :=
  effects.foldl (applyEffect request outcome) db

/-! ## Billing -/

variable {py : Python} {request : ChatRequest} {outcome : Outcome} {db : Database}

/-- A stream changes neither. -/
theorem finish_stream {lines : List String} {effects : List Effect}
    (h : finish py request (.stream lines) = some effects) :
    applyEffects request outcome db effects = db := by
  obtain rfl := Option.some.inj h
  rfl

/-- One response is logged with the cost of its usage. -/
theorem finish_json {usage : Usage} {effects : List Effect} {cost : ℚ}
    (h : finish py request (.json usage) = some effects)
    (hcost : request.cost (usageDump usage) = some cost) :
    applyEffects request outcome db effects =
      db.logSpend outcome request.requestId request.account request.model cost := by
  obtain ⟨emitted, hemitted, rfl⟩ := Option.map_eq_some_iff.mp h
  unfold emitNonstreamSuccess at hemitted
  rw [hcost] at hemitted
  simp only [Option.bind_eq_bind, Option.bind_some, Option.bind_eq_some_iff, Option.pure_def,
    Option.some.injEq] at hemitted
  obtain ⟨promptTokens, -, completionTokens, -, rfl⟩ := hemitted
  rfl

namespace Requests

def account : Account := ⟨"sk-team", some "ada", some "research", none⟩

/-- A cent for a thousand prompt tokens, two for a thousand of the completion. -/
def chat : ChatRequest :=
  ⟨"req-1", account, "gpt-4o", ⟨⟨some (1 / 100000), some (2 / 100000), none, none⟩, 0, 0⟩⟩

def usage : Usage := ⟨100, 50, 150⟩

def usageText : String :=
  "\x7b\"usage\": \x7b\"prompt_tokens\": 100, \"completion_tokens\": 50, \"total_tokens\": 150\x7d\x7d"

def python : Python where
  loads text := if text = usageText then some (.dict [("usage", .dict (usageDump usage))]) else none
  reprText _ := ""

def streamed : Answer := .stream ["data: " ++ usageText, "data: [DONE]"]

/-- Every entity of the account has spent a dollar so far. -/
def database : Database := ⟨[], fun _ _ => some 1, fun _ _ => none⟩

def taken : Outcome := ⟨true, fun _ => true, true⟩

theorem chat_finished : (finish python chat (.json usage)).isSome = true := by decide +kernel

theorem chat_cost : chat.cost (usageDump usage) = some (1 / 500) := by decide +kernel

end Requests

/-- A request is billed exactly where its usage costs nothing or where it is answered in one
response whose cost the ledger takes. -/
theorem billed_iff {answer : Answer} {effects : List Effect} {cost : ℚ}
    (h : finish py request answer = some effects)
    (hcost : request.cost (answer.usage py) = some cost) :
    Billed db (applyEffects request outcome db effects) request.account cost ↔
      cost = 0 ∨ (answer.isStream = false ∧ Billable db outcome request.account cost) := by
  cases answer with
  | stream lines =>
      rw [finish_stream h, billed_self_iff]
      simp [Answer.isStream]
  | json usage =>
      rw [finish_json h hcost, logSpend_billed_iff]
      simp [Answer.isStream]

open Requests in
theorem billed_iff_json :
    Billed database
      (applyEffects chat taken database ((finish python chat (.json usage)).get chat_finished))
      account (1 / 500) := by
  have hbillable : Billable database taken account (1 / 500) :=
    ⟨rfl, fun _ _ _ _ => ⟨by norm_num, rfl⟩⟩
  exact (billed_iff (Option.some_get chat_finished).symm chat_cost).mpr (.inr ⟨rfl, hbillable⟩)

open Requests in
/-- The same usage at the end of a stream is never billed. -/
theorem streamed_not_billed :
    chat.cost (streamed.usage python) = some (1 / 500) ∧
      ∃ effects, finish python chat streamed = some effects ∧
        ¬Billed database (applyEffects chat taken database effects) account (1 / 500) := by
  constructor
  · decide +kernel
  · have hfinished : finish python chat streamed =
        some (.recordRouterUsage (streamed.usage python) :: emitStreamSuccess) := rfl
    refine ⟨_, hfinished, ?_⟩
    rw [finish_stream hfinished, billed_self_iff]
    norm_num

end ChatBilling
