import DeltaLLM.McpToolLoop

/-! # The rounds of the tool loop

Tools have side effects, so a tool whose result the model never sees has been run for nothing. The
loop is run here once more, with a record of every call to the model and of every tool it executed.
-/
namespace ToolRounds

open JsonValues McpToolLoop
open StreamingCache (orElse)

/-- A call of the tool gateway, and the message with its result; none where the result was lost. -/
structure Execution where
  toolCall : JsonObject
  name : String
  arguments : JsonObject
  message : Option ChatMessage

/-- A call to the model: the conversation it was sent, its reply, and the tools executed for it. -/
structure Round where
  sent : List ChatMessage
  reply : Option Reply
  executed : List Execution

section Recording

variable (env : Environment) (resolved : List VisibleTool)

/-- The part of a tool call before the gateway is called. -/
def prepareCall (messages : List ChatMessage) (toolCall : JsonObject) :
    Except ChatError (VisibleTool × String × JsonObject) := do
  let name ← toolNameFromCall env.python toolCall
  match resolved.find? (·.namespacedName = name) with
  | none => throw (.other name)
  | some tool =>
      let arguments ← argumentsFromToolCall env.python toolCall
      let guardedArguments ← runToolInputGuardrails env messages tool arguments
      return (tool, name, guardedArguments)

/-- The part from the call of the gateway on, with the message it leads to. -/
def callGateway (messages : List ChatMessage) (toolCall : JsonObject) (tool : VisibleTool)
    (name : String) (arguments : JsonObject) : Except ChatError ChatMessage :=
  match env.callTool messages name arguments with
  | .error e => .error e.chatError
  | .ok result =>
      match runToolOutputGuardrails env messages tool result with
      | .error e => .error e
      | .ok guardedResult =>
          .ok ⟨"tool", .str (toolMessageContent env.dumps guardedResult), .null, none,
            some (env.python.text (orElse (JsonObject.get toolCall "id") (.str name)))⟩

def recordTool (messages : List ChatMessage) (toolCall : JsonObject) :
    List Execution × Except ChatError (List ChatMessage) :=
  match prepareCall env resolved messages toolCall with
  | .error e => ([], .error e)
  | .ok (tool, name, arguments) =>
      match callGateway env messages toolCall tool name arguments with
      | .error e => ([⟨toolCall, name, arguments, none⟩], .error e)
      | .ok message => ([⟨toolCall, name, arguments, some message⟩], .ok (messages ++ [message]))

def recordTools : List ChatMessage → List JsonObject →
    List Execution × Except ChatError (List ChatMessage)
  | messages, [] => ([], .ok messages)
  | messages, toolCall :: toolCalls =>
      match recordTool env resolved messages toolCall with
      | (executed, .error e) => (executed, .error e)
      | (executed, .ok next) =>
          let rest := recordTools next toolCalls
          (executed ++ rest.1, rest.2)

def recordNext (messages : List ChatMessage) (response : ChatResponse) :
    List Execution × Except ChatError (Option (List ChatMessage)) :=
  let toolCalls := extractToolCalls response
  if toolCalls = [] then ([], .ok none)
  else if env.toolsPerTurn < toolCalls.length then
    ([], .error (.invalidRequest ("MCP tool execution limit exceeded: received " ++
      toString toolCalls.length ++ " tool calls, limit is " ++ toString env.toolsPerTurn)))
  else
    match anyUnresolved env.python resolved toolCalls with
    | .error e => ([], .error e)
    | .ok true => ([], .ok none)
    | .ok false =>
        let run := recordTools env resolved (messages ++ [assistantMessage env.python response])
          toolCalls
        (run.1, run.2.map some)

def recordRounds : ℕ → List ChatMessage → ℚ → List Reply →
    List Round × Option (Reply × List Reply)
  | 0, _, _, replies => ([], some (.error (.invalidRequest
      "MCP tool execution exceeded the configured hop limit"), replies))
  | _ + 1, messages, _, [] => ([⟨messages, none, []⟩], none)
  | _ + 1, messages, _, .error e :: replies =>
      ([⟨messages, some (.error e), []⟩], some (.error e, replies))
  | n + 1, messages, totalApiLatencyMs, .ok (response, apiLatencyMs) :: replies =>
      let next := recordNext env resolved messages response
      let round : Round := ⟨messages, some (.ok (response, apiLatencyMs)), next.1⟩
      match next.2 with
      | .error e => ([round], some (.error e, replies))
      | .ok none => ([round], some (.ok (response, totalApiLatencyMs + apiLatencyMs), replies))
      | .ok (some messages) =>
          let rest := recordRounds n messages (totalApiLatencyMs + apiLatencyMs) replies
          (round :: rest.1, rest.2)

end Recording

/-- The tools that a request resolves. -/
def resolvedTools (env : Environment) (definitions : List MCPToolDefinition) : List VisibleTool :=
  match preparePayload env definitions with
  | .error _ => []
  | .ok resolved => resolved

def recordExecute (env : Environment) (definitions : List MCPToolDefinition)
    (messages : List ChatMessage) (replies : List Reply) :
    List Round × Option (Reply × List Reply) :=
  match preparePayload env definitions with
  | .error e => ([], some (.error e, replies))
  | .ok [] =>
      match replies with
      | [] => ([⟨messages, none, []⟩], none)
      | reply :: replies => ([⟨messages, some reply, []⟩], some (reply, replies))
  | .ok resolved => recordRounds env resolved (env.hops + 1) messages 0 replies

/-! ## The recorded run is the run -/

section Agreement

variable {env : Environment} {resolved : List VisibleTool}

theorem recordTool_snd (messages : List ChatMessage) (toolCall : JsonObject) :
    (recordTool env resolved messages toolCall).2 = runTool env resolved messages toolCall := by
  unfold recordTool prepareCall runTool
  cases toolNameFromCall env.python toolCall with
  | error e => rfl
  | ok name =>
      simp only [bind, Except.bind]
      cases resolved.find? (·.namespacedName = name) with
      | none => rfl
      | some tool =>
          cases argumentsFromToolCall env.python toolCall with
          | error e => rfl
          | ok arguments =>
              cases hguarded : runToolInputGuardrails env messages tool arguments with
              | error e => simp [hguarded]
              | ok guardedArguments =>
                  simp only [hguarded, pure, Except.pure, callGateway]
                  cases env.callTool messages name guardedArguments with
                  | error e => rfl
                  | ok result =>
                      cases hresult : runToolOutputGuardrails env messages tool result <;>
                        simp [hresult]

theorem recordTools_snd (messages : List ChatMessage) (toolCalls : List JsonObject) :
    (recordTools env resolved messages toolCalls).2 =
      toolCalls.foldlM (runTool env resolved) messages := by
  induction toolCalls generalizing messages with
  | nil => rfl
  | cons toolCall toolCalls ih =>
      rw [List.foldlM_cons, ← recordTool_snd, recordTools]
      obtain ⟨executed, e | next⟩ := recordTool env resolved messages toolCall
      · rfl
      · exact ih next

theorem recordNext_snd (messages : List ChatMessage) (response : ChatResponse) :
    (recordNext env resolved messages response).2 =
      nextMessages env resolved messages response := by
  unfold recordNext nextMessages
  by_cases hnone : extractToolCalls response = []
  · rw [if_pos hnone, if_pos hnone]
    rfl
  · rw [if_neg hnone, if_neg hnone]
    by_cases hmany : env.toolsPerTurn < (extractToolCalls response).length
    · rw [if_pos hmany, if_pos hmany]
      rfl
    · rw [if_neg hmany, if_neg hmany]
      rw [← recordTools_snd]
      cases anyUnresolved env.python resolved (extractToolCalls response) with
      | error e => rfl
      | ok unresolved =>
          cases unresolved with
          | true => rfl
          | false =>
              generalize recordTools env resolved _ _ = run
              obtain ⟨executed, e | next⟩ := run <;> rfl

/-- The record changes nothing. -/
theorem recordRounds_snd (n : ℕ) (messages : List ChatMessage) (totalApiLatencyMs : ℚ)
    (replies : List Reply) :
    (recordRounds env resolved n messages totalApiLatencyMs replies).2 =
      rounds env resolved n messages totalApiLatencyMs replies := by
  induction n generalizing messages totalApiLatencyMs replies with
  | zero => rfl
  | succ n ih =>
      rcases replies with _ | ⟨_ | ⟨response, apiLatencyMs⟩, replies⟩
      · rfl
      · rfl
      · rw [recordRounds, rounds, ← recordNext_snd]
        cases (recordNext env resolved messages response).2 with
        | error e => rfl
        | ok next =>
            cases next with
            | none => rfl
            | some next => exact ih next _ replies

theorem recordExecute_snd (definitions : List MCPToolDefinition) (messages : List ChatMessage)
    (replies : List Reply) :
    (recordExecute env definitions messages replies).2 =
      execute env definitions messages replies := by
  unfold recordExecute execute
  cases preparePayload env definitions with
  | error e => rfl
  | ok resolved =>
      cases resolved with
      | nil => cases replies <;> rfl
      | cons tool tools => exact recordRounds_snd _ messages 0 replies

end Agreement

/-! ## Bounded rounds, and no tool for nothing -/

section Bounds

variable (env : Environment) (resolved : List VisibleTool)

/-- The loop runs the tool calls of a response: there are some, not too many, and all are its
own. -/
def RunsTools (response : ChatResponse) : Prop :=
  extractToolCalls response ≠ [] ∧ (extractToolCalls response).length ≤ env.toolsPerTurn ∧
    anyUnresolved env.python resolved (extractToolCalls response) = .ok false

/-- At most so many rounds of tools, each within its limit; every tool call of a round is executed,
in order and once; and the result of every tool executed is in a later call to the model. -/
structure WellUsed (maxRounds : ℕ) (trace : List Round) : Prop where
  rounds_le : (trace.filter fun round => round.executed ≠ []).length ≤ maxRounds
  tools_le : ∀ round ∈ trace, round.executed.length ≤ env.toolsPerTurn
  executes_all : ∀ round ∈ trace, ∀ response apiLatencyMs,
    round.reply = some (.ok (response, apiLatencyMs)) → RunsTools env resolved response →
      round.executed.map (·.toolCall) = extractToolCalls response
  sent_back : ∀ before round after, trace = before ++ round :: after →
    ∀ execution ∈ round.executed, ∃ message, execution.message = some message ∧
      ∃ later ∈ after, message ∈ later.sent

/-- At every step: tools are asked for only while another call to the model is left, and no call of
the round raises. -/
def Sustained : ℕ → List ChatMessage → List Reply → Prop
  | 0, _, _ | _, _, [] | _ + 1, _, .error _ :: _ => True
  | n + 1, messages, .ok (response, _) :: replies =>
      RunsTools env resolved response → 0 < n ∧ ∃ next,
        (extractToolCalls response).foldlM (runTool env resolved)
            (messages ++ [assistantMessage env.python response]) = .ok next ∧
          Sustained n next replies

end Bounds

section Tools

variable {env : Environment} {resolved : List VisibleTool} {messages last : List ChatMessage}
  {toolCalls : List JsonObject}

/-- A tool call raises before the tool, or loses the tool's result, or adds its message. -/
theorem recordTool_cases (env : Environment) (resolved : List VisibleTool)
    (messages : List ChatMessage) (toolCall : JsonObject) :
    (∃ e, recordTool env resolved messages toolCall = ([], .error e)) ∨
    (∃ execution e, execution.message = none ∧
      recordTool env resolved messages toolCall = ([execution], .error e)) ∨
    ∃ execution message, execution.toolCall = toolCall ∧ execution.message = some message ∧
      recordTool env resolved messages toolCall = ([execution], .ok (messages ++ [message])) := by
  cases hprepared : prepareCall env resolved messages toolCall with
  | error e => exact .inl ⟨e, by simp [recordTool, hprepared]⟩
  | ok prepared =>
      obtain ⟨tool, name, arguments⟩ := prepared
      cases hcalled : callGateway env messages toolCall tool name arguments with
      | error e =>
          exact .inr (.inl ⟨⟨toolCall, name, arguments, none⟩, e, rfl,
            by simp [recordTool, hprepared, hcalled]⟩)
      | ok message =>
          exact .inr (.inr ⟨⟨toolCall, name, arguments, some message⟩, message, rfl, rfl,
            by simp [recordTool, hprepared, hcalled]⟩)

/-- Where no call raises, all have been executed, and the conversation has all the messages. -/
theorem recordTools_ok (h : (recordTools env resolved messages toolCalls).2 = .ok last) :
    messages ⊆ last ∧
      (recordTools env resolved messages toolCalls).1.map (·.toolCall) = toolCalls ∧
      ∀ execution ∈ (recordTools env resolved messages toolCalls).1,
        ∃ message, execution.message = some message ∧ message ∈ last := by
  induction toolCalls generalizing messages with
  | nil =>
      cases h
      refine ⟨List.Subset.refl _, rfl, ?_⟩
      intro execution hexecution
      cases hexecution
  | cons toolCall toolCalls ih =>
      obtain ⟨e, hrecord⟩ | ⟨execution, e, -, hrecord⟩ | ⟨execution, message, hcall,
        hmessage, hrecord⟩ :=
        recordTool_cases env resolved messages toolCall
      · simp [recordTools, hrecord] at h
      · simp [recordTools, hrecord] at h
      · simp only [recordTools, hrecord] at h ⊢
        obtain ⟨hsubset, hall, hmessages⟩ := ih h
        have hkept : message ∈ last := hsubset (by simp)
        refine ⟨?_, ?_, ?_⟩
        · exact fun _ hmem => hsubset (List.mem_append_left _ hmem)
        · rw [List.map_append, hall, List.map_singleton, hcall, List.singleton_append]
        · intro other hother
          rcases List.mem_append.mp hother with hhere | hlater
          · rw [List.mem_singleton.mp hhere]
            exact ⟨message, hmessage, hkept⟩
          · exact hmessages other hlater

/-- A response without tools for the loop ends it, and no tool is executed. -/
theorem recordNext_of_not_runs (messages : List ChatMessage) {response : ChatResponse}
    (h : ¬RunsTools env resolved response) :
    (recordNext env resolved messages response).1 = [] ∧
      ∀ next, (recordNext env resolved messages response).2 ≠ .ok (some next) := by
  unfold recordNext
  by_cases hnone : extractToolCalls response = []
  · simp [hnone]
  · by_cases hmany : env.toolsPerTurn < (extractToolCalls response).length
    · simp [hnone, hmany]
    · simp only [hnone, hmany, if_false]
      cases hunresolved : anyUnresolved env.python resolved (extractToolCalls response) with
      | error e => simp
      | ok unresolved =>
          cases unresolved with
          | true => simp
          | false => exact absurd ⟨hnone, Nat.le_of_not_lt hmany, hunresolved⟩ h

theorem recordNext_of_runs {response : ChatResponse} (h : RunsTools env resolved response) :
    recordNext env resolved messages response =
      let run := recordTools env resolved (messages ++ [assistantMessage env.python response])
        (extractToolCalls response)
      (run.1, run.2.map some) := by
  obtain ⟨hsome, hfew, hresolved⟩ := h
  simp only [recordNext, hsome, Nat.not_lt.mpr hfew, hresolved, if_false]

end Tools

section Runs

variable {env : Environment} {resolved : List VisibleTool} {messages : List ChatMessage}
  {replies : List Reply} {totalApiLatencyMs : ℚ} {n : ℕ}

/-- While calls to the model are left, the next one is sent the conversation. -/
theorem exists_recordRounds_cons :
    ∃ round rest, (recordRounds env resolved (n + 1) messages totalApiLatencyMs replies).1 =
      round :: rest ∧ round.sent = messages := by
  rcases replies with _ | ⟨_ | ⟨response, apiLatencyMs⟩, replies⟩
  · exact ⟨_, _, rfl, rfl⟩
  · exact ⟨_, _, rfl, rfl⟩
  · unfold recordRounds
    obtain ⟨executed, e | next⟩ := recordNext env resolved messages response
    · exact ⟨⟨messages, _, executed⟩, _, rfl, rfl⟩
    · cases next <;> exact ⟨⟨messages, _, executed⟩, _, rfl, rfl⟩

/-- A last call to the model for which no tool is executed. -/
theorem wellUsed_idle {round : Round} (hexecuted : round.executed = [])
    (hruns : ∀ response apiLatencyMs, round.reply = some (.ok (response, apiLatencyMs)) →
      ¬RunsTools env resolved response) :
    WellUsed env resolved n [round] := by
  refine ⟨by simp [hexecuted], by simp [hexecuted], ?_, ?_⟩
  · intro other hother response apiLatencyMs hreply hrun
    rw [List.mem_singleton.mp hother] at hreply
    exact absurd hrun (hruns response apiLatencyMs hreply)
  · intro before other after hsplit execution hexecution
    have hother : other ∈ [round] := hsplit ▸ by simp
    rw [List.mem_singleton.mp hother, hexecuted] at hexecution
    cases hexecution

/-- A round whose tools all answered, in front of the rest of the run. -/
theorem wellUsed_cons_iff {round : Round} {response : ChatResponse} {apiLatencyMs : ℚ}
    {trace : List Round} (hreply : round.reply = some (.ok (response, apiLatencyMs)))
    (hruns : RunsTools env resolved response)
    (hall : round.executed.map (·.toolCall) = extractToolCalls response)
    (hback : ∀ execution ∈ round.executed, ∃ message, execution.message = some message ∧
      ∃ later ∈ trace, message ∈ later.sent) :
    WellUsed env resolved (n + 1) (round :: trace) ↔ WellUsed env resolved n trace := by
  have hlength : round.executed.length = (extractToolCalls response).length := by
    rw [← hall, List.length_map]
  have hexecuted : round.executed ≠ [] := by
    intro hnil
    rw [hnil] at hall
    exact hruns.1 hall.symm
  have hcount : ((round :: trace).filter fun round => round.executed ≠ []).length =
      (trace.filter fun round => round.executed ≠ []).length + 1 := by
    rw [List.filter_cons_of_pos (by simpa using hexecuted), List.length_cons]
  constructor
  · intro h
    refine ⟨?_, fun other hother => h.tools_le other (List.mem_cons_of_mem _ hother),
      fun other hother => h.executes_all other (List.mem_cons_of_mem _ hother), ?_⟩
    · have hrounds := h.rounds_le
      rw [hcount] at hrounds
      omega
    · intro before other after hsplit
      exact h.sent_back (round :: before) other after (by rw [hsplit, List.cons_append])
  · intro h
    refine ⟨?_, ?_, ?_, ?_⟩
    · have hrounds := h.rounds_le
      rw [hcount]
      omega
    · intro other hother
      rcases List.mem_cons.mp hother with rfl | hother
      · exact hlength ▸ hruns.2.1
      · exact h.tools_le other hother
    · intro other hother answer latency hanswer hrun
      rcases List.mem_cons.mp hother with rfl | hother
      · rw [hreply] at hanswer
        cases hanswer
        exact hall
      · exact h.executes_all other hother answer latency hanswer hrun
    · intro before other after hsplit
      cases before with
      | nil =>
          cases hsplit
          exact hback
      | cons first before =>
          cases hsplit
          exact h.sent_back before other after rfl

/-- A round that ends the run without being followed by another call to the model wastes its
tools. -/
theorem not_wellUsed_last {round : Round} {response : ChatResponse} {apiLatencyMs : ℚ}
    (hreply : round.reply = some (.ok (response, apiLatencyMs)))
    (hruns : RunsTools env resolved response) : ¬WellUsed env resolved n [round] := by
  intro h
  have hall := h.executes_all round List.mem_cons_self response apiLatencyMs hreply hruns
  cases hexecuted : round.executed with
  | nil =>
      rw [hexecuted] at hall
      exact hruns.1 hall.symm
  | cons execution executions =>
      obtain ⟨_, _, later, hlater, _⟩ :=
        h.sent_back [] round [] rfl execution (by simp [hexecuted])
      cases hlater

theorem recordRounds_of_not_runs {response : ChatResponse} {apiLatencyMs : ℚ}
    (hruns : ¬RunsTools env resolved response) :
    (recordRounds env resolved (n + 1) messages totalApiLatencyMs
      (.ok (response, apiLatencyMs) :: replies)).1 =
        [⟨messages, some (.ok (response, apiLatencyMs)), []⟩] := by
  obtain ⟨hidle, hends⟩ := recordNext_of_not_runs messages hruns
  rw [recordRounds]
  cases hnext : recordNext env resolved messages response with
  | mk executed next =>
      rw [hnext] at hidle hends
      cases next with
      | error e => simpa using hidle
      | ok next =>
          cases next with
          | none => simpa using hidle
          | some next => exact absurd rfl (hends next)

theorem recordRounds_of_runs {response : ChatResponse} {apiLatencyMs : ℚ}
    (hruns : RunsTools env resolved response) :
    (recordRounds env resolved (n + 1) messages totalApiLatencyMs
      (.ok (response, apiLatencyMs) :: replies)).1 =
        ⟨messages, some (.ok (response, apiLatencyMs)),
          (recordTools env resolved (messages ++ [assistantMessage env.python response])
            (extractToolCalls response)).1⟩ ::
          match (recordTools env resolved (messages ++ [assistantMessage env.python response])
            (extractToolCalls response)).2 with
          | .error _ => []
          | .ok next =>
              (recordRounds env resolved n next (totalApiLatencyMs + apiLatencyMs) replies).1 := by
  rw [recordRounds, recordNext_of_runs hruns]
  obtain ⟨executed, e | next⟩ := recordTools env resolved _ (extractToolCalls response) <;> rfl

/-- A first reply without tools for the loop ends the run, and nothing is asked of it. -/
theorem wellUsed_of_no_tools (totalApiLatencyMs : ℚ)
    (h : ¬∃ response apiLatencyMs more, replies = .ok (response, apiLatencyMs) :: more ∧
      RunsTools env resolved response) :
    WellUsed env resolved n
        (recordRounds env resolved (n + 1) messages totalApiLatencyMs replies).1 ∧
      Sustained env resolved (n + 1) messages replies := by
  rcases replies with _ | ⟨_ | ⟨response, apiLatencyMs⟩, replies⟩
  · exact ⟨wellUsed_idle rfl (by simp), trivial⟩
  · exact ⟨wellUsed_idle rfl (by simp), trivial⟩
  · have hruns : ¬RunsTools env resolved response :=
      fun hruns => h ⟨response, apiLatencyMs, replies, rfl, hruns⟩
    rw [recordRounds_of_not_runs hruns]
    refine ⟨wellUsed_idle rfl ?_, fun hruns' => absurd hruns' hruns⟩
    intro answer latency hanswer
    cases hanswer
    exact hruns

/-- By induction on the calls to the model that are left. -/
theorem wellUsed_recordRounds_iff :
    WellUsed env resolved n
        (recordRounds env resolved (n + 1) messages totalApiLatencyMs replies).1 ↔
      Sustained env resolved (n + 1) messages replies := by
  induction n generalizing messages totalApiLatencyMs replies with
  | zero =>
      by_cases htools : ∃ response apiLatencyMs more,
          replies = .ok (response, apiLatencyMs) :: more ∧ RunsTools env resolved response
      · obtain ⟨response, apiLatencyMs, replies, rfl, hruns⟩ := htools
        refine iff_of_false ?_ fun h => Nat.lt_irrefl 0 (h hruns).1
        rw [recordRounds_of_runs hruns]
        split
        · exact not_wellUsed_last rfl hruns
        · exact not_wellUsed_last rfl hruns
      · obtain ⟨hused, hsustained⟩ := wellUsed_of_no_tools totalApiLatencyMs htools
        exact iff_of_true hused hsustained
  | succ n ih =>
      by_cases htools : ∃ response apiLatencyMs more,
          replies = .ok (response, apiLatencyMs) :: more ∧ RunsTools env resolved response
      · obtain ⟨response, apiLatencyMs, replies, rfl, hruns⟩ := htools
        rw [recordRounds_of_runs hruns, Sustained, ← recordTools_snd]
        generalize hrun : recordTools env resolved
          (messages ++ [assistantMessage env.python response]) (extractToolCalls response) = run
        obtain ⟨executed, e | next⟩ := run
        · refine iff_of_false (not_wellUsed_last rfl hruns) fun h => ?_
          obtain ⟨_, next, hnext, _⟩ := h hruns
          cases hnext
        · obtain ⟨_, hall, hmessages⟩ := recordTools_ok (congrArg Prod.snd hrun)
          rw [hrun] at hall hmessages
          obtain ⟨following, rest, htrace, hsent⟩ : ∃ following rest,
              (recordRounds env resolved (n + 1) next (totalApiLatencyMs + apiLatencyMs)
                replies).1 = following :: rest ∧ following.sent = next :=
            exists_recordRounds_cons
          -- The next call to the model is sent the whole conversation.
          have hback : ∀ execution ∈ executed, ∃ message, execution.message = some message ∧
              ∃ later ∈ (recordRounds env resolved (n + 1) next
                (totalApiLatencyMs + apiLatencyMs) replies).1, message ∈ later.sent := by
            intro execution hexecution
            obtain ⟨message, hmessage, hkept⟩ := hmessages execution hexecution
            exact ⟨message, hmessage, following, by simp [htrace], hsent ▸ hkept⟩
          refine (wellUsed_cons_iff rfl hruns hall hback).trans (ih.trans ⟨?_, ?_⟩)
          · exact fun h _ => ⟨Nat.succ_pos n, next, rfl, h⟩
          · intro h
            obtain ⟨_, other, hother, hrest⟩ := h hruns
            cases hother
            exact hrest
      · obtain ⟨hused, hsustained⟩ := wellUsed_of_no_tools totalApiLatencyMs htools
        exact iff_of_true hused hsustained

end Runs

/-- The calls of a run: bounded, well used, and finished once the model has replied often enough. -/
structure BoundedAndUsed (env : Environment) (definitions : List MCPToolDefinition)
    (messages : List ChatMessage) (replies : List Reply) : Prop where
  used : WellUsed env (resolvedTools env definitions) env.hops
    (recordExecute env definitions messages replies).1
  ends : env.hops < replies.length → (recordExecute env definitions messages replies).2.isSome

/-- No call is for the loop when no tool is resolved. -/
theorem not_runsTools_nil {env : Environment} {response : ChatResponse} :
    ¬RunsTools env [] response := by
  rintro ⟨hsome, _, hresolved⟩
  cases hcalls : extractToolCalls response with
  | nil => exact hsome hcalls
  | cons toolCall toolCalls =>
      rw [hcalls, anyUnresolved] at hresolved
      cases hname : toolNameFromCall env.python toolCall with
      | error e =>
          rw [hname] at hresolved
          cases hresolved
      | ok name =>
          rw [hname] at hresolved
          cases hresolved

theorem sustained_nil {env : Environment} (n : ℕ) (messages : List ChatMessage)
    (replies : List Reply) : Sustained env [] (n + 1) messages replies := by
  rcases replies with _ | ⟨_ | ⟨response, apiLatencyMs⟩, replies⟩
  · trivial
  · trivial
  · exact fun hruns => absurd hruns not_runsTools_nil

theorem rounds_isSome {env : Environment} {resolved : List VisibleTool}
    {messages : List ChatMessage} {latency : ℚ} {n : ℕ} {replies : List Reply}
    (h : n ≤ replies.length) : (rounds env resolved n messages latency replies).isSome := by
  induction n generalizing messages latency replies with
  | zero => rfl
  | succ n ih =>
      rcases replies with _ | ⟨_ | ⟨response, apiLatencyMs⟩, replies⟩
      · cases h
      · rfl
      · rw [rounds]
        rw [List.length_cons] at h
        cases nextMessages env resolved messages response with
        | error e => rfl
        | ok next =>
            cases next with
            | none => rfl
            | some next => exact ih (by omega)

theorem execute_isSome {env : Environment} {definitions : List MCPToolDefinition}
    {messages : List ChatMessage} {replies : List Reply} (h : env.hops < replies.length) :
    (execute env definitions messages replies).isSome := by
  unfold execute
  cases preparePayload env definitions with
  | error e => rfl
  | ok resolved =>
      cases resolved with
      | nil =>
          cases replies with
          | nil => cases h
          | cons reply replies => rfl
      | cons tool tools => exact rounds_isSome h

/-- The tools of every run are bounded and never for nothing exactly when tools are asked for only
while another call to the model is left, and no tool call of a round raises. -/
theorem bounded_and_used_iff (env : Environment) (definitions : List MCPToolDefinition)
    (messages : List ChatMessage) (replies : List Reply) :
    BoundedAndUsed env definitions messages replies ↔
      Sustained env (resolvedTools env definitions) (env.hops + 1) messages replies := by
  have hends : env.hops < replies.length →
      (recordExecute env definitions messages replies).2.isSome := by
    intro h
    rw [recordExecute_snd]
    exact execute_isSome h
  refine Iff.trans ⟨fun h => h.used, fun h => ⟨h, hends⟩⟩ ?_
  unfold recordExecute resolvedTools
  cases preparePayload env definitions with
  | error e =>
      exact iff_of_true ⟨Nat.zero_le _, by simp, by simp, by simp⟩
        (sustained_nil _ messages replies)
  | ok resolved =>
      cases resolved with
      | cons tool tools => exact wellUsed_recordRounds_iff
      | nil =>
          refine iff_of_true ?_ (sustained_nil _ messages replies)
          cases replies with
          | nil => exact wellUsed_idle rfl fun _ _ _ => not_runsTools_nil
          | cons reply replies => exact wellUsed_idle rfl fun _ _ _ => not_runsTools_nil

/-- One search tool, for which one round is allowed. -/
def oneHop : Environment where
  python := ⟨fun _ => none, fun _ => ""⟩
  dumps _ := "[]"
  maxMcpToolHops := 1
  maxMcpToolsPerTurn := 8
  visibleTools := [⟨"docs", "search", "docs.search"⟩]
  requiresManualApproval _ _ := false
  runPreCall _ _ data := .ok (.dict data)
  callTool _ _ _ := .ok ⟨[], .null, false, []⟩

def searchCall : JsonObject :=
  [("id", .str "call-1"),
    ("function", .dict [("name", .str "docs.search"), ("arguments", .dict [])])]

def searchAgain : Reply :=
  .ok (⟨[[("message", .dict [("content", .str ""), ("tool_calls", .list [.dict searchCall])])]],
    ⟨20, 5, 25⟩⟩, 0)

/-- The model asks for the tool twice: the second round runs, and then the limit is noticed. -/
theorem second_round_wasted :
    oneHop.hops = 1 ∧
      ((recordExecute oneHop [⟨"docs", none⟩] [] [searchAgain, searchAgain]).1.map
        fun round => round.executed.length) = [1, 1] ∧
      ¬BoundedAndUsed oneHop [⟨"docs", none⟩] [] [searchAgain, searchAgain] := by
  have hrounds : ((recordExecute oneHop [⟨"docs", none⟩] [] [searchAgain, searchAgain]).1.filter
      fun round => round.executed ≠ []).length = 2 := by
    decide +kernel
  refine ⟨by decide, by decide +kernel, fun h => ?_⟩
  have hle := h.used.rounds_le
  rw [hrounds] at hle
  exact absurd hle (by decide)

end ToolRounds
