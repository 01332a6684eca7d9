import DeltaLLM.ChatBilling
import DeltaLLM.CheckedResults

/-! # Chat requests that call tools

The loop that runs the tools a model asks for and sends it their results, until it answers without
them. The model's answers are a list that the loop takes one by one; guardrails and the tool gateway
see the conversation so far.
-/
namespace McpToolLoop

open JsonValues PythonText StreamingCache ChatBilling

structure ChatMessage where
  role : String
  content : JsonValue
  name : JsonValue
  toolCalls : Option (List JsonObject)
  toolCallId : Option String

/-- A chat completion as the adapters leave it. -/
structure ChatResponse where
  choices : List JsonObject
  usage : Usage

inductive ChatError where
  | invalidRequest (message : String)
  | permissionDenied (message : String)
  | rateLimit (message : String) (retryAfter : Option ℕ)
  | serviceUnavailable (message : String)
  | other (message : String)

/-- What the tool gateway raises. -/
inductive McpError where
  | toolNotFound (message : String)
  | approvalRequired (message : String)
  | accessDenied (message : String)
  | policyDenied (message : String)
  | rateLimit (message : String) (retryAfter : Option ℕ)
  | transport (message : String)
  | invalidResponse (message : String)
  | toolTimeout (message : String)
  | other (message : String)

def manualApprovalMessage : String :=
  "MCP tools that require manual approval are not supported on chat/responses yet. " ++
    "Use the /mcp tools/call flow and retry after approval."

/-- The handlers around `call_tool`. -/
def McpError.chatError : McpError → ChatError
  | .toolNotFound message => .invalidRequest message
  | .approvalRequired _ => .invalidRequest manualApprovalMessage
  | .accessDenied message | .policyDenied message => .permissionDenied message
  | .rateLimit message retryAfter => .rateLimit message retryAfter
  | .transport message | .invalidResponse message | .toolTimeout message | .other message =>
      .serviceUnavailable message

structure VisibleTool where
  serverKey : String
  originalName : String
  namespacedName : String

/-- An MCP tool of the request. -/
structure MCPToolDefinition where
  server : String
  allowedTools : Option (List String)

structure ToolResult where
  content : List JsonValue
  structuredContent : JsonValue
  isError : Bool
  metadata : JsonObject

/-- What one orchestration works with. -/
structure Environment where
  python : Python
  dumps : JsonValue → String
  maxMcpToolHops : ℤ
  maxMcpToolsPerTurn : ℤ
  visibleTools : List VisibleTool
  requiresManualApproval : String → String → Bool
  runPreCall : List ChatMessage → String → JsonObject → Except ChatError JsonValue
  callTool : List ChatMessage → String → JsonObject → Except McpError ToolResult

def Environment.hops (env : Environment) : ℕ := (max 1 env.maxMcpToolHops).toNat

def Environment.toolsPerTurn (env : Environment) : ℕ := (max 1 env.maxMcpToolsPerTurn).toNat

/-! ## Tools -/

/-- The matched tools of one definition, less those that are there already. -/
def resolveMatched (env : Environment) :
    List VisibleTool → List VisibleTool → Except ChatError (List VisibleTool)
  | resolved, [] => .ok resolved
  | resolved, tool :: tools =>
      if resolved.any (·.namespacedName =
        tool.namespacedName) then resolveMatched env resolved tools
      else if env.requiresManualApproval tool.serverKey tool.originalName then
        .error (.invalidRequest manualApprovalMessage)
      else resolveMatched env (resolved ++ [tool]) tools

/-- `prepare_payload`. -/
def preparePayload (env : Environment) (definitions : List MCPToolDefinition) :
    Except ChatError (List VisibleTool) :=
  definitions.foldlM (fun resolved definition =>
    let matched := env.visibleTools.filter fun tool =>
      tool.serverKey = definition.server ∧ ∀ names ∈ definition.allowedTools,
        tool.originalName ∈ names
    if matched = [] then
      .error (.invalidRequest
        ("No visible MCP tools are available for server '" ++ definition.server ++ "'"))
    else resolveMatched env resolved matched) []

/-! ## Tool calls -/

/-- `_extract_tool_calls`. -/
def extractToolCalls (response : ChatResponse) : List JsonObject :=
  match response.choices with
  | [] => []
  | choice :: _ =>
      match JsonObject.get choice "message" with
      | .dict message =>
          match JsonObject.get message "tool_calls" with
          | .list items => items.filterMap asDict
          | _ => []
      | _ => []

/-- `_assistant_message_from_response`. -/
def assistantMessage (py : Python) (response : ChatResponse) : ChatMessage :=
  let message := (asDict (JsonObject.get (response.choices.headD []) "message")).getD []
  let content := match JsonObject.get message "content" with
    | .list parts => .list parts
    | value => .str (py.text (orElse value (.str "")))
  let toolCalls := match JsonObject.get message "tool_calls" with
    | .list items => some (items.filterMap asDict)
    | _ => none
  ⟨"assistant", content, JsonObject.get message "name", toolCalls, none⟩

/-- `_tool_name_from_call`. -/
def toolNameFromCall (py : Python) (toolCall : JsonObject) : Except ChatError String :=
  match JsonObject.get toolCall "function" with
  | .dict function =>
      let name := strip (py.text (orElse (JsonObject.get function "name") (.str "")))
      if name = "" then
        .error (.invalidRequest "Provider returned a tool call without a function name")
      else .ok name
  | _ => .error (.invalidRequest "Provider returned an invalid tool call payload")

/-- `_arguments_from_tool_call`. -/
def argumentsFromToolCall (py : Python) (toolCall : JsonObject) : Except ChatError JsonObject :=
  match JsonObject.get toolCall "function" with
  | .dict function =>
      match JsonObject.get function "arguments" with
      | .null => .ok []
      | .dict arguments => .ok arguments
      | .str text =>
          match py.loads text with
          | none => .error (.invalidRequest "Provider returned invalid JSON tool arguments")
          | some (.dict arguments) => .ok arguments
          | some _ => .error (.invalidRequest "Provider returned non-object tool arguments")
      | _ => .error (.invalidRequest "Provider returned unsupported tool arguments")
  | _ => .error (.invalidRequest "Provider returned an invalid tool call payload")

/-- Whether a tool call is for somebody else; the names after it are not looked at. -/
def anyUnresolved (py : Python) (resolved : List VisibleTool) :
    List JsonObject → Except ChatError Bool
  | [] => .ok false
  | toolCall :: toolCalls => do
      let name ← toolNameFromCall py toolCall
      if resolved.any (·.namespacedName = name) then anyUnresolved py resolved toolCalls
      else return true

/-- `_run_tool_input_guardrails`. -/
def runToolInputGuardrails (env : Environment) (messages : List ChatMessage) (tool : VisibleTool)
    (arguments : JsonObject) : Except ChatError JsonObject := do
  let payload ← env.runPreCall messages "mcp_tool"
    [("server", .str tool.serverKey), ("tool_name", .str tool.originalName),
      ("arguments", .dict arguments)]
  match JsonObject.get ((asDict payload).getD []) "arguments" with
  | .null => return []
  | .dict guarded => return guarded
  | _ => throw (.invalidRequest "Guardrail mutated MCP tool arguments into an invalid shape")

/-- `_run_tool_output_guardrails`. -/
def runToolOutputGuardrails (env : Environment) (messages : List ChatMessage) (tool : VisibleTool)
    (result : ToolResult) : Except ChatError JsonObject := do
  let payload ← env.runPreCall messages "mcp_tool_output"
    [("server", .str tool.serverKey), ("tool_name", .str tool.originalName),
      ("content", .list result.content), ("structured_content", result.structuredContent),
      ("is_error", .bool result.isError), ("metadata", .dict result.metadata)]
  match payload with
  | .dict guarded => return guarded
  | _ => throw (.invalidRequest "Guardrail mutated MCP tool output into an invalid shape")

/-- `_tool_message_content`. -/
def toolMessageContent (dumps : JsonValue → String) (payload : JsonObject) : String :=
  match JsonObject.get payload "structured_content", JsonObject.get payload "content" with
  | .dict structured, _ => dumps (.dict structured)
  | _, .list [.dict part] =>
      match JsonObject.get part "text" with
      | .str text => text
      | _ => dumps (.list [.dict part])
  | _, .list parts => dumps (.list parts)
  | _, _ => dumps (.dict payload)

/-- One tool call: its result goes to the end of the conversation. -/
def runTool (env : Environment) (resolved : List VisibleTool) (messages : List ChatMessage)
    (toolCall : JsonObject) : Except ChatError (List ChatMessage) := do
  let name ← toolNameFromCall env.python toolCall
  match resolved.find? (·.namespacedName = name) with
  | none => throw (.other name)
  | some tool =>
      let arguments ← argumentsFromToolCall env.python toolCall
      let guardedArguments ← runToolInputGuardrails env messages tool arguments
      match env.callTool messages name guardedArguments with
      | .error e => throw e.chatError
      | .ok result =>
          let guardedResult ← runToolOutputGuardrails env messages tool result
          let id := env.python.text (orElse (JsonObject.get toolCall "id") (.str name))
          let content := JsonValue.str (toolMessageContent env.dumps guardedResult)
          return messages ++ [⟨"tool", content, .null, none, some id⟩]

/-! ## The loop -/

/-- The conversation for the next call, none where the response is returned as it is. -/
def nextMessages (env : Environment) (resolved : List VisibleTool) (messages : List ChatMessage)
    (response : ChatResponse) : Except ChatError (Option (List ChatMessage)) := do
  let toolCalls := extractToolCalls response
  if toolCalls = [] then return none
  if env.toolsPerTurn < toolCalls.length then
    throw (.invalidRequest ("MCP tool execution limit exceeded: received " ++
      toString toolCalls.length ++ " tool calls, limit is " ++ toString env.toolsPerTurn))
  if ← anyUnresolved env.python resolved toolCalls then return none
  let messages ← toolCalls.foldlM (runTool env resolved)
    (messages ++ [assistantMessage env.python response])
  return some messages

/-- What the provider answers to a call, with the latency of it. -/
abbrev Reply := Except ChatError (ChatResponse × ℚ)

/-- The rounds that are left; none while a call is not answered. -/
def rounds (env : Environment) (resolved : List VisibleTool) :
    ℕ → List ChatMessage → ℚ → List Reply → Option (Reply × List Reply)
  | 0, _, _, replies =>
      some (.error (.invalidRequest "MCP tool execution exceeded the configured hop limit"),
        replies)
  | _ + 1, _, _, [] => none
  | _ + 1, _, _, .error e :: replies => some (.error e, replies)
  | n + 1, messages, totalApiLatencyMs, .ok (response, apiLatencyMs) :: replies =>
      match nextMessages env resolved messages response with
      | .error e => some (.error e, replies)
      | .ok none => some (.ok (response, totalApiLatencyMs + apiLatencyMs), replies)
      | .ok (some messages) =>
          rounds env resolved n messages (totalApiLatencyMs + apiLatencyMs) replies

/-- `execute`. -/
def execute (env : Environment) (definitions : List MCPToolDefinition) (messages : List ChatMessage)
    (replies : List Reply) : Option (Reply × List Reply) :=
  match preparePayload env definitions with
  | .error e => some (.error e, replies)
  | .ok [] =>
      match replies with
      | [] => none
      | reply :: replies => some (reply, replies)
  | .ok resolved => rounds env resolved (env.hops + 1) messages 0 replies

variable {env : Environment} {resolved : List VisibleTool} {definitions : List MCPToolDefinition}
  {messages : List ChatMessage} {replies rest : List Reply} {reply : Reply}

/-- A round takes one reply. It ends the loop, with that reply if it returns a response, or another
round follows. -/
theorem rounds_step {n : ℕ} {latency : ℚ}
    (h : rounds env resolved (n + 1) messages latency replies = some (reply, rest)) :
    ∃ first more, replies = first :: more ∧
      ((rest = more ∧ ∀ response total, reply = .ok (response, total) →
          ∃ apiLatencyMs, first = .ok (response, apiLatencyMs)) ∨
        ∃ next latency, rounds env resolved n next latency more = some (reply, rest)) := by
  rcases replies with _ | ⟨_ | ⟨answer, apiLatencyMs⟩, replies⟩
  · cases h
  · cases h
    exact ⟨_, _, rfl, .inl ⟨rfl, fun _ _ hreply => by cases hreply⟩⟩
  · refine ⟨_, _, rfl, ?_⟩
    unfold rounds at h
    cases hnext : nextMessages env resolved messages answer with
    | error e =>
        rw [hnext] at h
        cases h
        exact .inl ⟨rfl, fun _ _ hreply => by cases hreply⟩
    | ok next =>
        rw [hnext] at h
        cases next with
        | some next => exact .inr ⟨next, _, h⟩
        | none =>
            cases h
            refine .inl ⟨rfl, ?_⟩
            intro response total hreply
            cases hreply
            exact ⟨apiLatencyMs, rfl⟩

theorem rounds_calls_le {n : ℕ} {latency : ℚ}
    (h : rounds env resolved n messages latency replies = some (reply, rest)) :
    replies.length ≤ rest.length + n := by
  induction n generalizing messages latency replies with
  | zero =>
      cases h
      omega
  | succ n ih =>
      obtain ⟨first, more, rfl, ⟨rfl, -⟩ | ⟨next, later, hmore⟩⟩ := rounds_step h
      · rw [List.length_cons]
        omega
      · have hrest := ih hmore
        rw [List.length_cons]
        omega

/-- An orchestration calls the model once more than it may run tools. -/
theorem execute_calls_le (h : execute env definitions messages replies = some (reply, rest)) :
    replies.length ≤ rest.length + (env.hops + 1) := by
  unfold execute at h
  cases hprepared : preparePayload env definitions with
  | error e =>
      rw [hprepared] at h
      cases h
      omega
  | ok resolved =>
      rw [hprepared] at h
      cases resolved with
      | cons tool tools => exact rounds_calls_le h
      | nil =>
          cases replies with
          | nil => cases h
          | cons first replies =>
              cases h
              rw [List.length_cons]
              omega

/-- `_execute_for_deployment` on the deployments that the failover tries, until one answers. -/
def executeAttempts (definitions : List MCPToolDefinition) (messages : List ChatMessage) :
    List Environment → List Reply → Option (Reply × List Reply)
  | [], replies => some (.error (.serviceUnavailable "No healthy deployments available"), replies)
  | env :: envs, replies =>
      match execute env definitions messages replies with
      | none => none
      | some (.ok served, replies) => some (.ok served, replies)
      | some (.error e, replies) =>
          if envs = [] then some (.error e, replies)
          else executeAttempts definitions messages envs replies

end McpToolLoop
