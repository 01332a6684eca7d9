import DeltaLLM.Dictionaries
import DeltaLLM.JsonReading
import DeltaLLM.RuntimeScopes
import DeltaLLM.TableStatements

/-! # The manual approval of tool calls

The gate of `call_tool`, the fingerprint of a call, and the statements on the approval requests. The
digest of SHA-256 and `str` of a value are parameters; timestamps count milliseconds.
-/
namespace McpApprovals

open Dictionaries
open JsonReading
open JsonText
open JsonValues
open PythonText
open RuntimeScopes
open TableStatements

abbrev Timestamp := ℕ

/-! ## Forwarded headers -/

/-- `PROTECTED_MCP_REQUEST_HEADERS`. -/
def protectedHeaders : List String :=
  ["accept", "content-type", "mcp-protocol-version", "mcp-session-id"]

/-- `_normalize_header_name`: without the empty parts between dashes. -/
def normalizeHeaderName (value : String) : String :=
  String.ofList (['-'].intercalate
    (((lower (strip value)).toList.splitOn '-').filter fun part => part ≠ []))

/-- `build_forwarded_headers`. -/
def buildForwardedHeaders (requestHeaders : List (String × String)) (serverKey : String)
    (allowlist : List String) : Dict String String :=
  let allowed := (allowlist.filter fun item => strip item ≠ "").map normalizeHeaderName
  let start := "x-deltallm-mcp-" ++ lower (strip serverKey) ++ "-"
  if allowed = [] then []
  else
    requestHeaders.foldl (fun out header =>
      let key := lower (strip header.1)
      let name := normalizeHeaderName (String.ofList (key.toList.drop start.toList.length))
      if startsWith key start ∧ name ∈ allowed then out.set name header.2 else out) []

/-- `build_effective_mcp_forwarded_headers`. -/
def buildEffectiveMcpForwardedHeaders (requestHeaders : List (String × String))
    (serverKey : String) (allowlist : List String) : Dict String String :=
  (buildForwardedHeaders requestHeaders serverKey allowlist).filter fun header =>
    lower (strip header.1) ∉ protectedHeaders

/-! ## The gate -/

structure MCPServerConfig where
  serverId : String
  serverKey : String
  forwardedHeadersAllowlist : List String
  deriving DecidableEq

structure MCPToolPolicyRecord where
  toolName : String
  scopeType : String
  scopeId : String
  enabled : Bool
  requireApproval : Option String
  deriving DecidableEq

structure VisibleMCPServer where
  server : MCPServerConfig
  toolNames : List String

/-- A call of `call_tool` with what the registry answers it: the servers that its caller sees and
the policies of its scopes for the server. -/
structure ToolCall where
  auth : UserAPIKeyAuth
  namespacedToolName : String
  arguments : JsonObject
  requestHeaders : List (String × String)
  requestId : Option String
  correlationId : Option String
  visibleServers : List VisibleMCPServer
  policies : List MCPToolPolicyRecord
  /-- Python writes a float with finitely many decimals. -/
  arguments_decimal : Decimal (.dict arguments)

/-- `parse_namespaced_tool_name`. -/
def parseNamespacedToolName (value : String) : Option (String × String) :=
  let serverKey := strip (String.ofList (value.toList.takeWhile (· ≠ '.')))
  match value.toList.dropWhile (· ≠ '.') with
  | [] => none
  | _ :: rest =>
      let toolName := strip (String.ofList rest)
      if serverKey = "" ∨ toolName = "" then none else some (serverKey, toolName)

def scopeTypeText : ScopeType → String
  | .organization => "organization"
  | .team => "team"
  | .apiKey => "api_key"
  | .user => "user"

/-- `_select_record_for_scope_order`; of two policies of one scope the later counts. -/
def selectPolicy (policies : List MCPToolPolicyRecord) (scopeOrder : List Scope) :
    Option MCPToolPolicyRecord :=
  let byScope := Dict.ofRecords (fun policy : MCPToolPolicyRecord =>
    (policy.scopeType, policy.scopeId)) id policies
  (scopeOrder.findSome? fun scope => byScope.get? (scopeTypeText scope.1, scope.2)).or
    policies.head?

/-- `_effective_tool_policy`. -/
def effectiveToolPolicy (textOf : JsonValue → String) (call : ToolCall) (toolName : String) :
    Option MCPToolPolicyRecord :=
  let context := resolveRuntimeScopeContext textOf call.auth
  if context.isMasterKey then none
  else
    selectPolicy (call.policies.filter fun policy => policy.toolName = toolName) context.scopeChain

/-- The tool of a server under the policy that asks for approval. -/
structure ApprovalTarget where
  server : MCPServerConfig
  toolName : String
  policy : MCPToolPolicyRecord
  deriving DecidableEq

inductive GateResult where
  | toolNotFound
  | policyDenied
  | unguarded
  | manual (target : ApprovalTarget)
  deriving DecidableEq

/-- `call_tool` up to the approval service, which the deployment has. -/
def gate (textOf : JsonValue → String) (call : ToolCall) : GateResult :=
  match parseNamespacedToolName call.namespacedToolName with
  | none => .toolNotFound
  | some (serverKey, toolName) =>
      match call.visibleServers.find? fun visible => visible.server.serverKey = serverKey with
      | none => .toolNotFound
      | some visible =>
          if toolName ∉ visible.toolNames then .toolNotFound
          else
            match effectiveToolPolicy textOf call toolName with
            | none => .unguarded
            | some policy =>
                let mode := policy.requireApproval.getD ""
                if policy.enabled = false then .policyDenied
                else if mode = "" ∨ mode = "never" then .unguarded
                else if mode = "manual" then .manual ⟨visible.server, toolName, policy⟩
                else .policyDenied

/-! ## The fingerprint -/

def optionalText : Option String → JsonValue
  | none => .null
  | some text => .str text

def ApprovalTarget.forwardedHeaders (target : ApprovalTarget) (call : ToolCall) :
    Dict String String :=
  buildEffectiveMcpForwardedHeaders call.requestHeaders target.server.serverKey
    target.server.forwardedHeadersAllowlist

def headersObject (headers : Dict String String) : JsonObject :=
  headers.map fun header => (header.1, .str header.2)

def fingerprintPayload (target : ApprovalTarget) (call : ToolCall) : JsonObject :=
  [("server_id", .str target.server.serverId),
    ("server_key", .str target.server.serverKey),
    ("tool_name", .str target.toolName),
    ("scope_type", .str target.policy.scopeType),
    ("scope_id", .str target.policy.scopeId),
    ("api_key", optionalText call.auth.apiKey),
    ("forwarded_headers", .dict (headersObject (target.forwardedHeaders call))),
    ("arguments", .dict call.arguments)]

/-- `_fingerprint`. -/
def fingerprint (sha256 : String → String) (target : ApprovalTarget) (call : ToolCall) : String :=
  sha256 (dumps (.dict (fingerprintPayload target call)))

/-- The calls ask for the same: server, tool, policy scope, API key, argument object and forwarded
headers. The order of the fields of an object does not matter. -/
structure SameRequest (target : ApprovalTarget) (call : ToolCall) (target' : ApprovalTarget)
    (call' : ToolCall) : Prop where
  serverId : target.server.serverId = target'.server.serverId
  serverKey : target.server.serverKey = target'.server.serverKey
  toolName : target.toolName = target'.toolName
  scopeType : target.policy.scopeType = target'.policy.scopeType
  scopeId : target.policy.scopeId = target'.policy.scopeId
  apiKey : call.auth.apiKey = call'.auth.apiKey
  forwardedHeaders : (target.forwardedHeaders call).Perm (target'.forwardedHeaders call')
  arguments : sortKeys (.dict call.arguments) = sortKeys (.dict call'.arguments)

section Fingerprint

variable {target target' : ApprovalTarget} {call call' : ToolCall}

theorem decimal_headers (headers : Dict String String) :
    Decimal (.dict (headersObject headers)) := by
  refine .dict _ fun field hfield => ?_
  obtain ⟨header, -, rfl⟩ := List.mem_map.mp hfield
  exact .str header.2

theorem decimal_payload (target : ApprovalTarget) (call : ToolCall) :
    Decimal (.dict (fingerprintPayload target call)) := by
  refine .dict _ fun field hfield => ?_
  have hkey : Decimal (optionalText call.auth.apiKey) := by
    cases call.auth.apiKey with
    | none => exact .null
    | some key => exact .str key
  simp only [fingerprintPayload, List.mem_cons, List.not_mem_nil, or_false] at hfield
  rcases hfield with rfl | rfl | rfl | rfl | rfl | rfl | rfl | rfl
  · exact .str _
  · exact .str _
  · exact .str _
  · exact .str _
  · exact .str _
  · exact hkey
  · exact decimal_headers _
  · exact call.arguments_decimal

/-- Objects that are equal up to the order of their fields have the same fields. -/
theorem perm_of_sortKeys {fields fields' : JsonObject}
    (h : sortKeys (.dict fields) = sortKeys (.dict fields')) :
    (fields.map fun field => (field.1, sortKeys field.2)).Perm
      (fields'.map fun field => (field.1, sortKeys field.2)) := by
  rw [sortKeys, sortKeys, JsonValue.dict.injEq, sortKeysFields_eq, sortKeysFields_eq] at h
  exact (List.mergeSort_perm _ _).symm.trans ((List.Perm.of_eq h).trans (List.mergeSort_perm _ _))

theorem optionalText_inj {text text' : Option String}
    (h : sortKeys (optionalText text) = sortKeys (optionalText text')) : text = text' := by
  cases text <;> cases text' <;> simp_all [optionalText, sortKeys]

theorem headers_perm {headers headers' : Dict String String}
    (h : sortKeys (.dict (headersObject headers)) = sortKeys (.dict (headersObject headers'))) :
    headers.Perm headers' := by
  have hperm := perm_of_sortKeys h
  simp only [headersObject, List.map_map] at hperm
  refine (List.map_perm_map_iff ?_).mp hperm
  intro header other hsame
  simp only [Function.comp_apply, sortKeys, Prod.mk.injEq, JsonValue.str.injEq] at hsame
  exact Prod.ext hsame.1 hsame.2

/-- Calls with one payload ask for the same. -/
theorem sameRequest_of_dumps (h : dumps (.dict (fingerprintPayload target call)) =
    dumps (.dict (fingerprintPayload target' call'))) : SameRequest target call target' call' := by
  have hsorted := sortKeys_eq_of_dumps (decimal_payload target call)
    (decimal_payload target' call') h
  have hperm := perm_of_sortKeys hsorted
  have hfield : ∀ name value, (name, value) ∈ fingerprintPayload target call →
      ∃ value', (name, value') ∈ fingerprintPayload target' call' ∧
        sortKeys value = sortKeys value' := by
    intro name value hmem
    have hmapped := hperm.mem_iff.mp (List.mem_map_of_mem hmem)
    obtain ⟨field, hfield, hsame⟩ := List.mem_map.mp hmapped
    obtain ⟨hname, hvalue⟩ := Prod.mk.inj hsame
    rw [show field = (name, field.2) from Prod.ext hname rfl] at hfield
    exact ⟨field.2, hfield, hvalue.symm⟩
  have htext : ∀ name text, (name, JsonValue.str text) ∈ fingerprintPayload target call →
      ∀ text', (∀ value, (name, value) ∈ fingerprintPayload target' call' → value = .str text') →
        text = text' := by
    intro name text hmem text' honly
    obtain ⟨value, hvalue, hsame⟩ := hfield name _ hmem
    rw [honly value hvalue, sortKeys, sortKeys] at hsame
    exact JsonValue.str.inj hsame
  have hkey : call.auth.apiKey = call'.auth.apiKey := by
    obtain ⟨value, hvalue, hsame⟩ := hfield "api_key" (optionalText call.auth.apiKey)
      (by simp [fingerprintPayload])
    obtain rfl : value = optionalText call'.auth.apiKey := by
      simpa [fingerprintPayload] using hvalue
    exact optionalText_inj hsame
  have hheaders : (target.forwardedHeaders call).Perm (target'.forwardedHeaders call') := by
    obtain ⟨value, hvalue, hsame⟩ := hfield "forwarded_headers"
      (.dict (headersObject (target.forwardedHeaders call))) (by simp [fingerprintPayload])
    obtain rfl : value = .dict (headersObject (target'.forwardedHeaders call')) := by
      simpa [fingerprintPayload] using hvalue
    exact headers_perm hsame
  have harguments : sortKeys (.dict call.arguments) = sortKeys (.dict call'.arguments) := by
    obtain ⟨value, hvalue, hsame⟩ := hfield "arguments" (.dict call.arguments)
      (by simp [fingerprintPayload])
    obtain rfl : value = .dict call'.arguments := by
      simpa [fingerprintPayload] using hvalue
    exact hsame
  exact
    { serverId := htext "server_id" _ (by simp [fingerprintPayload]) _
        (by simp [fingerprintPayload])
      serverKey := htext "server_key" _ (by simp [fingerprintPayload]) _
        (by simp [fingerprintPayload])
      toolName := htext "tool_name" _ (by simp [fingerprintPayload]) _
        (by simp [fingerprintPayload])
      scopeType := htext "scope_type" _ (by simp [fingerprintPayload]) _
        (by simp [fingerprintPayload])
      scopeId := htext "scope_id" _ (by simp [fingerprintPayload]) _ (by simp [fingerprintPayload])
      apiKey := hkey
      forwardedHeaders := hheaders
      arguments := harguments }

end Fingerprint

end McpApprovals
