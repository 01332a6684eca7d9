import DeltaLLM.McpToolLoop

/-! # The usage of a request that calls tools

A request with tools makes many calls of the model, and the response that it returns is the answer
to the last one.
-/
namespace ToolLoopUsage

open McpToolLoop JsonValues StreamingCache ChatBilling

/-- The usages of the calls that were answered. -/
def usages (replies : List Reply) : List Usage :=
  replies.filterMap fun
    | .ok (response, _) => some response.usage
    | .error _ => none

/-- The usage of all calls. -/
def totalUsage (replies : List Reply) : Usage where
  promptTokens := ((usages replies).map (·.promptTokens)).sum
  completionTokens := ((usages replies).map (·.completionTokens)).sum
  totalTokens := ((usages replies).map (·.totalTokens)).sum

def NoUsage (usage : Usage) : Prop :=
  usage.promptTokens = 0 ∧ usage.completionTokens = 0 ∧ usage.totalTokens = 0

/-- The replies up to `rest` were taken, and a response that is returned is the last of them. -/
def Took (replies rest : List Reply) (reply : Reply) : Prop :=
  ∃ taken, replies = taken ++ rest ∧
    ∀ response total, reply = .ok (response, total) →
      ∃ earlier apiLatencyMs, taken = earlier ++ [.ok (response, apiLatencyMs)]

theorem took_nothing (replies : List Reply) (e : ChatError) : Took replies replies (.error e) :=
  ⟨[], rfl, fun _ _ h => by cases h⟩

theorem took_one (reply : Reply) (replies : List Reply) :
    Took (reply :: replies) replies reply := by
  refine ⟨[reply], rfl, ?_⟩
  rintro response total rfl
  exact ⟨[], total, rfl⟩

theorem Took.after {replies rest : List Reply} {reply : Reply} (h : Took replies rest reply)
    (before : List Reply) : Took (before ++ replies) rest reply := by
  obtain ⟨taken, rfl, hlast⟩ := h
  refine ⟨before ++ taken, (List.append_assoc before taken rest).symm, ?_⟩
  intro response total hreply
  obtain ⟨earlier, apiLatencyMs, rfl⟩ := hlast response total hreply
  exact ⟨before ++ earlier, apiLatencyMs, (List.append_assoc before earlier _).symm⟩

variable {env : Environment} {resolved : List VisibleTool} {definitions : List MCPToolDefinition}
  {messages : List ChatMessage} {replies rest : List Reply} {reply : Reply}

/-- Round after round the loop takes one reply, and returns the last. -/
theorem rounds_took {n : ℕ} {latency : ℚ}
    (h : rounds env resolved n messages latency replies = some (reply, rest)) :
    Took replies rest reply := by
  induction n generalizing messages latency replies with
  | zero =>
      cases h
      exact took_nothing _ _
  | succ n ih =>
      obtain ⟨first, more, rfl, ⟨rfl, hfirst⟩ | ⟨next, later, hmore⟩⟩ := rounds_step h
      · refine ⟨[first], rfl, ?_⟩
        intro response total hreply
        obtain ⟨apiLatencyMs, rfl⟩ := hfirst response total hreply
        exact ⟨[], apiLatencyMs, rfl⟩
      · exact (ih hmore).after [first]

theorem execute_took (h : execute env definitions messages replies = some (reply, rest)) :
    Took replies rest reply := by
  unfold execute at h
  cases hprepared : preparePayload env definitions with
  | error e =>
      rw [hprepared] at h
      cases h
      exact took_nothing _ _
  | ok resolved =>
      rw [hprepared] at h
      cases resolved with
      | cons tool tools => exact rounds_took h
      | nil =>
          cases replies with
          | nil => cases h
          | cons first replies =>
              cases h
              exact took_one _ _

theorem executeAttempts_took {envs : List Environment}
    (h : executeAttempts definitions messages envs replies = some (reply, rest)) :
    Took replies rest reply := by
  induction envs generalizing replies with
  | nil =>
      cases h
      exact took_nothing _ _
  | cons env envs ih =>
      unfold executeAttempts at h
      cases hexecute : execute env definitions messages replies with
      | none =>
          rw [hexecute] at h
          cases h
      | some answered =>
          obtain ⟨answer, left⟩ := answered
          rw [hexecute] at h
          have htook := execute_took hexecute
          cases answer with
          | ok served =>
              cases h
              exact htook
          | error e =>
              by_cases hlast : envs = []
              · simp only [if_pos hlast] at h
                cases h
                exact htook
              · simp only [if_neg hlast] at h
                obtain ⟨taken, rfl, -⟩ := htook
                exact (ih h).after taken

/-! ## Usage -/

theorem usages_append (earlier later : List Reply) :
    usages (earlier ++ later) = usages earlier ++ usages later :=
  List.filterMap_append

theorem totalUsage_append_ok (earlier : List Reply) (response : ChatResponse) (latency : ℚ) :
    totalUsage (earlier ++ [.ok (response, latency)]) =
      ⟨(totalUsage earlier).promptTokens + response.usage.promptTokens,
        (totalUsage earlier).completionTokens + response.usage.completionTokens,
        (totalUsage earlier).totalTokens + response.usage.totalTokens⟩ := by
  have hlast : usages [.ok (response, latency)] = [response.usage] := rfl
  unfold totalUsage
  rw [usages_append, hlast]
  simp

theorem usage_eq_total_iff (earlier : List Reply) (response : ChatResponse) (latency : ℚ) :
    response.usage = totalUsage (earlier ++ [.ok (response, latency)]) ↔
      NoUsage (totalUsage earlier) := by
  rw [totalUsage_append_ok]
  unfold NoUsage
  obtain ⟨choices, promptTokens, completionTokens, totalTokens⟩ := response
  simp only [Usage.mk.injEq]
  omega

namespace Conversations

def python : Python := ⟨fun _ => none, fun _ => ""⟩

def chat : ChatRequest :=
  ⟨"req-1", ⟨"sk-team", none, none, none⟩, "gpt-4o",
    ⟨⟨none, none, none, none⟩, 1 / 100000, 1 / 50000⟩⟩

/-- One search tool, which finds nothing. -/
def environment : Environment where
  python := python
  dumps _ := "[]"
  maxMcpToolHops := 4
  maxMcpToolsPerTurn := 8
  visibleTools := [⟨"docs", "search", "docs.search"⟩]
  requiresManualApproval _ _ := false
  runPreCall _ _ data := .ok (.dict data)
  callTool _ _ _ := .ok ⟨[], .null, false, []⟩

def searchTools : List MCPToolDefinition := [⟨"docs", none⟩]

def answer : ChatResponse := ⟨[], ⟨30, 10, 40⟩⟩

def toolCall : JsonObject :=
  [("id", .str "call-1"),
    ("function", .dict [("name", .str "docs.search"), ("arguments", .dict [])])]

def question : ChatResponse :=
  ⟨[[("message", .dict [("content", .str ""), ("tool_calls", .list [.dict toolCall])])]],
    ⟨20, 5, 25⟩⟩

theorem answered_at_once :
    executeAttempts searchTools [] [environment] [.ok (answer, 0)] =
      some (.ok (answer, 0 + 0), []) := by
  rfl

theorem answered_after_search :
    executeAttempts searchTools [] [environment] [.ok (question, 0), .ok (answer, 0)] =
      some (.ok (answer, 0 + 0 + 0), []) := by
  rfl

end Conversations

/-- The response of a request whose calls were all answered has the usage of all of them, and is
billed so, exactly where the calls before the last one have used nothing. -/
theorem usage_complete_iff {py : Python} {request : ChatRequest} {envs : List Environment}
    {response : ChatResponse} {latency : ℚ}
    (h : executeAttempts definitions messages envs replies = some (.ok (response, latency), [])) :
    (response.usage = totalUsage replies ∧
        finish py request (.json response.usage) = finish py request (.json (totalUsage replies))) ↔
      NoUsage (totalUsage replies.dropLast) := by
  obtain ⟨taken, hreplies, hlast⟩ := executeAttempts_took h
  obtain ⟨earlier, apiLatencyMs, rfl⟩ := hlast response latency rfl
  rw [List.append_nil] at hreplies
  subst hreplies
  rw [List.dropLast_concat, ← usage_eq_total_iff earlier response apiLatencyMs]
  constructor
  · exact fun hcomplete => hcomplete.1
  · exact fun husage => ⟨husage, congrArg (fun usage => finish py request (.json usage)) husage⟩

open Conversations in
theorem usage_complete_at_once :
    answer.usage = totalUsage [.ok (answer, 0)] ∧
      finish python chat (.json answer.usage) =
        finish python chat (.json (totalUsage [.ok (answer, 0)])) :=
  (usage_complete_iff answered_at_once).mpr ⟨rfl, rfl, rfl⟩

open Conversations in
/-- The call that asked for the search is not in the usage of the response. -/
theorem search_usage_lost :
    executeAttempts searchTools [] [environment] [.ok (question, 0), .ok (answer, 0)] =
        some (.ok (answer, 0 + 0 + 0), []) ∧
      answer.usage ≠ totalUsage [.ok (question, 0), .ok (answer, 0)] := by
  constructor
  · exact answered_after_search
  · decide

end ToolLoopUsage
