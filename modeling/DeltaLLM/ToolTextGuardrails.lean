import DeltaLLM.McpToolLoop
import DeltaLLM.PresidioGuardrail

/-! # Guardrails on the text of MCP tools

The orchestrator runs the caller's guardrails over a payload of its own shape, with the arguments or
the result of a tool and no messages.
-/
namespace ToolTextGuardrails

open JsonValues GuardrailRegistry PresidioGuardrail McpToolLoop

/-! ## The middleware -/

/-- What the service answers to a text is given. -/
structure Lakera where
  name : String
  action : GuardrailAction
  apiKey : Option String
  inspect : String → Except GuardrailViolation Unit

/-- `_extract_text`. -/
def extractText : JsonValue → String
  | .list messages => "\n".intercalate (messages.filterMap fun
      | .dict message =>
          match JsonObject.get message "content" with
          | .str content => some content
          | _ => none
      | _ => none)
  | _ => ""

def Lakera.asyncPreCallHook (g : Lakera) (data : JsonObject) :
    Except GuardrailViolation (Option JsonObject) :=
  let text := extractText ((JsonObject.get? data "messages").getD (.list []))
  if text = "" ∨ g.apiKey.getD "" = "" then .ok none
  else (g.inspect text).map fun _ => none

/-- The guardrails that come with the gateway. -/
inductive BuiltIn where
  | presidio (g : Presidio)
  | lakera (g : Lakera)

def BuiltIn.action : BuiltIn → GuardrailAction
  | .presidio g => g.action
  | .lakera g => g.action

def BuiltIn.hook (m : Matcher) :
    BuiltIn → JsonObject → Except GuardrailViolation (Option JsonObject)
  | .presidio g => asyncPreCallHook m g
  | .lakera g => g.asyncPreCallHook

/-- The loop of `run_pre_call` over the active guardrails of that mode. -/
def runPreCall (m : Matcher) : List BuiltIn → JsonObject → Except GuardrailViolation JsonObject
  | [], modified => .ok modified
  | guardrail :: guardrails, modified =>
      match guardrail.hook m modified with
      | .ok (some result) => runPreCall m guardrails result
      | .ok none => runPreCall m guardrails modified
      | .error violation =>
          if guardrail.action = .log then runPreCall m guardrails modified else .error violation

/-- The orchestrator with the middleware; a violation leaves it as it is. -/
def guarded (env : Environment) (m : Matcher) (active : List BuiltIn) : Environment :=
  { env with
    runPreCall := fun _ _ data =>
      match runPreCall m active data with
      | .ok modified => .ok (.dict modified)
      | .error violation => .error (.other violation.message) }

/-! ## What the model sees of a result -/

/-- The payload for the result's guardrails. -/
def resultPayload (tool : VisibleTool) (result : ToolResult) : JsonObject :=
  [("server", .str tool.serverKey), ("tool_name", .str tool.originalName),
    ("content", .list result.content), ("structured_content", result.structuredContent),
    ("is_error", .bool result.isError), ("metadata", .dict result.metadata)]

/-- The part of a payload that the tool message shows. -/
def shownPart (payload : JsonObject) : JsonValue :=
  match JsonObject.get payload "structured_content", JsonObject.get payload "content" with
  | .dict structured, _ => .dict structured
  | _, .list [.dict part] =>
      match JsonObject.get part "text" with
      | .str text => .str text
      | _ => .list [.dict part]
  | _, .list parts => .list parts
  | _, _ => .dict payload

/-- A text is shown as it is, anything else as JSON. -/
theorem toolMessageContent_shown (dumps : JsonValue → String) (payload : JsonObject) :
    toolMessageContent dumps payload =
      match shownPart payload with
      | .str text => text
      | value => dumps value := by
  fun_cases shownPart payload with
  | case1 structured hstructured => simp only [toolMessageContent, hstructured]
  | case2 part hcontent text htext hstructured => simp [toolMessageContent, hcontent, htext]
  | case3 part hcontent hstructured htext => simp [toolMessageContent, hcontent]
  | case4 parts hsingle hcontent hstructured => simp [toolMessageContent, hcontent]
  | case5 hstructured hparts => simp [toolMessageContent]

/-! ## Coverage -/

/-- The guardrail blocks or anonymises. -/
def Enforcing (g : Presidio) : Prop := g.anonymize = true ∨ g.action = .block

/-- Nothing unclean goes to the tool's server or to the model. -/
structure Covered (env : Environment) (m : Matcher) (active : List BuiltIn)
    (messages : List ChatMessage) (tool : VisibleTool) (arguments : JsonObject)
    (result : ToolResult) : Prop where
  input : ∀ g, .presidio g ∈ active → Enforcing g → ∀ forwarded,
    runToolInputGuardrails (guarded env m active) messages tool arguments = .ok forwarded →
      Clean m g (.dict forwarded)
  output : ∀ g, .presidio g ∈ active → Enforcing g → ∀ payload,
    runToolOutputGuardrails (guarded env m active) messages tool result = .ok payload →
      Clean m g (shownPart payload)

section Passing

variable {m : Matcher}

theorem hook_of_no_messages (guardrail : BuiltIn) {data : JsonObject}
    (h : JsonObject.get? data "messages" = none) : guardrail.hook m data = .ok none := by
  cases guardrail with
  | presidio g => exact hook_without_messages h
  | lakera g =>
      rw [BuiltIn.hook, Lakera.asyncPreCallHook, h]
      rfl

/-- A payload without messages goes through every guardrail as it is. -/
theorem runPreCall_of_no_messages (active : List BuiltIn) {data : JsonObject}
    (h : JsonObject.get? data "messages" = none) : runPreCall m active data = .ok data := by
  induction active with
  | nil => rfl
  | cons guardrail active ih => rw [runPreCall, hook_of_no_messages guardrail h, ih]

variable (env : Environment) (active : List BuiltIn) (messages : List ChatMessage)
  (tool : VisibleTool)

theorem guarded_of_no_messages (callType : String) {data : JsonObject}
    (h : JsonObject.get? data "messages" = none) :
    (guarded env m active).runPreCall messages callType data = .ok (.dict data) := by
  simp only [guarded, runPreCall_of_no_messages active h]

theorem input_unchanged (arguments : JsonObject) :
    runToolInputGuardrails (guarded env m active) messages tool arguments = .ok arguments := by
  rw [runToolInputGuardrails, guarded_of_no_messages env active messages "mcp_tool" rfl]
  rfl

theorem output_unchanged (result : ToolResult) :
    runToolOutputGuardrails (guarded env m active) messages tool result =
      .ok (resultPayload tool result) := by
  rw [runToolOutputGuardrails, guarded_of_no_messages env active messages "mcp_tool_output" rfl]
  rfl

end Passing

/-- Tool text is covered exactly where it needs no guardrail. -/
theorem tool_text_covered_iff (env : Environment) (m : Matcher) (active : List BuiltIn)
    (messages : List ChatMessage) (tool : VisibleTool) (arguments : JsonObject)
    (result : ToolResult) :
    Covered env m active messages tool arguments result ↔
      ∀ g, .presidio g ∈ active → Enforcing g →
        Clean m g (.dict arguments) ∧ Clean m g (shownPart (resultPayload tool result)) := by
  constructor
  · intro hcovered g hg henforcing
    exact ⟨hcovered.input g hg henforcing _ (input_unchanged env active messages tool arguments),
      hcovered.output g hg henforcing _ (output_unchanged env active messages tool result)⟩
  · intro hclean
    constructor
    · intro g hg henforcing forwarded hforwarded
      rw [input_unchanged] at hforwarded
      cases hforwarded
      exact (hclean g hg henforcing).1
    · intro g hg henforcing payload hpayload
      rw [output_unchanged] at hpayload
      cases hpayload
      exact (hclean g hg henforcing).2

namespace Counterexample

/-- The address is found as such, and nothing else is. -/
def matcher : Matcher where
  search entity text := entity = "EMAIL_ADDRESS" ∧ text = "alice@example.com"
  sub entity text :=
    if entity = "EMAIL_ADDRESS" ∧ text = "alice@example.com" then "<EMAIL_ADDRESS>" else text

def blocking : Presidio := ⟨"presidio-pii", .block, false, some ["EMAIL_ADDRESS"]⟩

def anonymizing : Presidio := ⟨"presidio-pii", .block, true, some ["EMAIL_ADDRESS"]⟩

def arguments : JsonObject := [("to", .str "alice@example.com")]

def tool : VisibleTool := ⟨"mail", "send", "mail.send"⟩

def sent : ToolResult := ⟨[.dict [("type", .str "text"), ("text", .str "sent")]], .null, false, []⟩

/-- The same text in a message. -/
def messageData : JsonObject :=
  [("messages", .list [.dict [("role", .str "user"), ("content", .str "alice@example.com")]])]

theorem arguments_unclean (g : Presidio) (h : "EMAIL_ADDRESS" ∈ g.entities) :
    ¬Clean matcher g (.dict arguments) := by
  intro hclean
  have hfound : matcher.finds "alice@example.com" "EMAIL_ADDRESS" = true := by decide
  rw [hclean "alice@example.com" List.mem_cons_self "EMAIL_ADDRESS" h] at hfound
  cases hfound

def environment : Environment where
  python := ⟨fun _ => none, fun _ => ""⟩
  dumps _ := "[]"
  maxMcpToolHops := 1
  maxMcpToolsPerTurn := 8
  visibleTools := [tool]
  requiresManualApproval _ _ := false
  runPreCall _ _ data := .ok (.dict data)
  callTool _ _ _ := .ok sent

/-- The address goes to the tool's server, whether the guardrail blocks or anonymises; in a message
it is blocked. -/
theorem address_forwarded :
    ¬Covered environment matcher [.presidio blocking] [] tool arguments sent ∧
      ¬Covered environment matcher [.presidio anonymizing] [] tool arguments sent ∧
      asyncPreCallHook matcher blocking messageData ≠ .ok none := by
  have hforwarded : ∀ g : Presidio, "EMAIL_ADDRESS" ∈ g.entities → Enforcing g →
      ¬Covered environment matcher [.presidio g] [] tool arguments sent := by
    intro g hg henforcing hcovered
    exact arguments_unclean g hg (hcovered.input g List.mem_cons_self henforcing arguments
      (input_unchanged environment _ [] tool arguments))
  refine ⟨hforwarded blocking (by decide) (.inr rfl),
    hforwarded anonymizing (by decide) (.inl rfl), ?_⟩
  intro hpassed
  have hmessages : JsonObject.get? messageData "messages" = some (.list
      [.dict [("role", .str "user"), ("content", .str "alice@example.com")]]) := rfl
  have hclean := (hook_passes_iff rfl rfl hmessages).mp hpassed _ List.mem_cons_self
  have hfound : matcher.finds "alice@example.com" "EMAIL_ADDRESS" = true := by decide
  rw [hclean "alice@example.com" (by decide) "EMAIL_ADDRESS" (by decide)] at hfound
  cases hfound

end Counterexample

end ToolTextGuardrails
