import DeltaLLM.JsonValues
import DeltaLLM.PythonText
import Mathlib.Data.Rat.Floor

/-! # The streaming cache

What the handler keeps of a chat stream, the response it builds from it and the replay of a stored
response. `none` stands for an exception that leaves the handler.
-/
namespace StreamingCache

open JsonValues
open PythonText

/-- `json.loads`, none where the text is no JSON, and `str` of a value that is no text. -/
structure Python where
  loads : String → Option JsonValue
  reprText : JsonValue → String

def Python.text (py : Python) : JsonValue → String
  | .str s => s
  | value => py.reprText value

/-- What `int(value)` does; only the first two kinds of exception are handled somewhere. -/
inductive IntResult where
  | value (n : ℤ)
  | invalid
  | overflow

def toInt : JsonValue → IntResult
  | .bool b => .value (if b then 1 else 0)
  | .int n => .value n
  | .float (.finite q) => .value (if 0 ≤ q then ⌊q⌋ else ⌈q⌉)
  | .float (.infinity _) => .overflow
  | .float .nan => .invalid
  | .str s => match intOfText s with
      | some n => .value n
      | none => .invalid
  | .null | .list _ | .dict _ => .invalid

/-- `value or other`. -/
def orElse (value other : JsonValue) : JsonValue := if value.truthy then value else other

/-! ## The accumulator -/

structure Usage where
  promptTokens : ℤ
  completionTokens : ℤ
  totalTokens : ℤ
  deriving DecidableEq, Repr

structure Accumulator where
  responseId : Option String
  created : Option ℤ
  model : Option String
  finishReason : String
  contentParts : List String
  usage : Usage
  bufferedBytes : ℕ
  fragmentCount : ℕ
  disabledReason : Option String
  sawChunk : Bool

structure Limits where
  maxBufferBytes : ℤ
  maxFragments : ℤ

def Accumulator.fresh : Accumulator where
  responseId := none
  created := none
  model := none
  finishReason := "stop"
  contentParts := []
  usage := ⟨0, 0, 0⟩
  bufferedBytes := 0
  fragmentCount := 0
  disabledReason := none
  sawChunk := false

def Accumulator.disable (acc : Accumulator) (reason : String) : Accumulator :=
  if acc.disabledReason.isSome then acc
  else
    { acc with
      disabledReason := some reason, contentParts := [], bufferedBytes := 0, fragmentCount := 0 }

def tokenCount (usage : JsonObject) (name : String) : Option ℤ :=
  match toInt (orElse (usage.get name) (.int 0)) with
  | .value n => some n
  | .invalid | .overflow => none

/-- Usage that is no object leaves the earlier counts. -/
def readUsage (counts : Usage) : JsonValue → Option Usage
  | .dict usage => do
      let promptTokens ← tokenCount usage "prompt_tokens"
      let completionTokens ← tokenCount usage "completion_tokens"
      let totalTokens ← tokenCount usage "total_tokens"
      return ⟨promptTokens, completionTokens, totalTokens⟩
  | _ => some counts

/-- The first creation time that is a number stays. -/
def readCreated : Option ℤ → JsonValue → Option (Option ℤ)
  | some created, _ => some (some created)
  | none, .null => some none
  | none, value =>
      match toInt value with
      | .value n => some (some n)
      | .invalid => some none
      | .overflow => none

/-- The fields of a chunk that do not depend on its choices. -/
def Accumulator.addHeader (py : Python) (acc : Accumulator) (chunk : JsonObject) :
    Option Accumulator := do
  let responseId :=
    if acc.responseId.isNone ∧ (chunk.get "id").truthy then some (py.text (chunk.get "id"))
    else acc.responseId
  let created ← readCreated acc.created (chunk.get "created")
  let model :=
    if acc.model.isNone ∧ (chunk.get "model").truthy then some (py.text (chunk.get "model"))
    else acc.model
  let usage ← readUsage acc.usage (chunk.get "usage")
  return { acc with sawChunk := true, responseId, created, model, usage }

/-- `(chunk.get("choices") or [])[0] or {}`; the inner none is a chunk without choices. -/
def firstChoice (chunk : JsonObject) : Option (Option JsonObject) :=
  let choices := chunk.get "choices"
  if !choices.truthy then some none
  else
    match choices with
    | .list (choice :: _) =>
        if !choice.truthy then some (some [])
        else
          match choice with
          | .dict fields => some (some fields)
          | _ => none
    | _ => none

/-- The content of `choice.get("delta") or {}`, empty where the delta has none. -/
def deltaContent (py : Python) (choice : JsonObject) : Option String :=
  let delta := choice.get "delta"
  if !delta.truthy then some ""
  else
    match delta with
    | .dict fields => some (py.text (orElse (JsonObject.get fields "content") (.str "")))
    | .str s => if contains s "content" then none else some ""
    | .list xs => if xs.any fun | .str s => s = "content" | _ => false then none else some ""
    | _ => none

def Accumulator.addContent (limits : Limits) (acc : Accumulator) (content : String) :
    Accumulator × Option String :=
  if content = "" then (acc, none)
  else if limits.maxFragments < acc.fragmentCount + 1 then (acc, some "fragment_limit_exceeded")
  else if limits.maxBufferBytes < acc.bufferedBytes + content.utf8ByteSize then
    (acc, some "buffer_limit_exceeded")
  else
    ({ acc with
        contentParts := acc.contentParts ++ [content]
        fragmentCount := acc.fragmentCount + 1
        bufferedBytes := acc.bufferedBytes + content.utf8ByteSize }, none)

def Accumulator.addChunk (py : Python) (limits : Limits) (acc : Accumulator) (chunk : JsonObject) :
    Option (Accumulator × Option String) :=
  if acc.disabledReason.isSome then some (acc, acc.disabledReason)
  else do
    let acc ← acc.addHeader py chunk
    match ← firstChoice chunk with
    | none => return (acc, none)
    | some choice =>
        let reason := choice.get "finish_reason"
        let acc := if reason.truthy then { acc with finishReason := py.text reason } else acc
        let content ← deltaContent py choice
        return acc.addContent limits content

def Accumulator.buildResponse (acc : Accumulator) (fallbackModel uuid : String) (now : ℤ) :
    Option JsonObject :=
  if !acc.sawChunk ∨ acc.disabledReason.isSome then none
  else some
    [("id", .str ((acc.responseId.filter (· ≠ "")).getD ("chatcmpl-" ++ uuid))),
      ("object", .str "chat.completion"),
      ("created", .int ((acc.created.filter (· ≠ 0)).getD now)),
      ("model", .str ((acc.model.filter (· ≠ "")).getD
        (if fallbackModel = "" then "unknown" else fallbackModel))),
      ("choices", .list [.dict
        [("index", .int 0),
          ("message", .dict [("role", .str "assistant"),
            ("content", .str (String.join acc.contentParts))]),
          ("finish_reason", .str acc.finishReason)]]),
      ("usage", .dict [("prompt_tokens", .int acc.usage.promptTokens),
        ("completion_tokens", .int acc.usage.completionTokens),
        ("total_tokens", .int acc.usage.totalTokens)])]

/-! ## Lines -/

def doneLine (line : String) : Bool := strip line = "data: [DONE]"

/-- What follows `data:`, unless it is blank or the end mark. -/
def linePayload (line : String) : Option String :=
  if !startsWith line "data:" then none
  else
    let payload := strip (String.ofList (line.toList.drop 5))
    if payload = "" ∨ payload = "[DONE]" then none else some payload

/-- A JSON object is the payload of the data line that holds it. -/
theorem linePayload_object (inner : String) :
    linePayload ("data: " ++ ("\x7b" ++ inner ++ "\x7d")) = some ("\x7b" ++ inner ++ "\x7d") := by
  have hstart : startsWith ("data: " ++ ("\x7b" ++ inner ++ "\x7d")) "data:" = true := by
    simp [startsWith, String.toList_append]
  have hstrip : strip (String.ofList (("data: " ++ ("\x7b" ++ inner ++ "\x7d")).toList.drop 5)) =
      "\x7b" ++ inner ++ "\x7d" := by
    have hblank : isSpace ' ' = true := rfl
    have hopening : isSpace '{' = false := rfl
    have hclosing : isSpace '}' = false := rfl
    simp [strip, String.toList_append, hblank, hopening, hclosing, String.append_assoc]
  have hhead : ∀ text, "\x7b" ++ inner ++ "\x7d" = text → text.toList.head? = some '{' := by
    rintro _ rfl
    simp [String.toList_append]
  have hempty : "\x7b" ++ inner ++ "\x7d" ≠ "" := fun h => absurd (hhead _ h) (by decide)
  have hdone : "\x7b" ++ inner ++ "\x7d" ≠ "[DONE]" := fun h => absurd (hhead _ h) (by decide)
  simp only [linePayload, hstart, hstrip, hempty, hdone, Bool.not_true, Bool.false_eq_true,
    if_false,
    or_self]

/-- `add_chunk`, and `_disable_stream` when it names a reason. -/
def Accumulator.takeChunk (py : Python) (limits : Limits) (acc : Accumulator) (chunk : JsonObject) :
    Option Accumulator :=
  (acc.addChunk py limits chunk).map fun (acc, reason) =>
    match reason with
    | none => acc
    | some reason => acc.disable reason

/-- `add_chunk_from_line` on the accumulator of the stream. -/
def Accumulator.addLine (py : Python) (limits : Limits) (acc : Accumulator) (line : String) :
    Option Accumulator :=
  match linePayload line with
  | none => some acc
  | some payload =>
      if acc.disabledReason.isSome then some acc
      else
        match py.loads payload with
        | none => some (acc.disable "invalid_json")
        | some (.dict chunk) => acc.takeChunk py limits chunk
        | some _ => some (acc.disable "invalid_payload")

/-- The accumulator after the lines of one stream alone. -/
def feed (py : Python) (limits : Limits) (acc : Accumulator) (lines : List String) :
    Option Accumulator :=
  lines.foldlM (fun acc line => acc.addLine py limits line) acc

/-! ## Replay -/

/-- `" "` goes after every word but the last. -/
def withTails : List String → List String
  | [] => []
  | [word] => [word]
  | word :: words => (word ++ " ") :: withTails words

def splitWords (content : String) : List String :=
  (content.toList.splitOn ' ').map String.ofList

def replayChunk (baseId : String) (created : ℤ) (model content : String)
    (finishReason : JsonValue) : JsonObject :=
  [("id", .str baseId), ("object", .str "chat.completion.chunk"), ("created", .int created),
    ("model", .str model),
    ("choices", .list [.dict
      [("index", .int 0), ("delta", .dict [("content", .str content)]),
        ("finish_reason", finishReason)]])]

/-- The finish reason goes to the last chunk. -/
def replayChunks (baseId : String) (created : ℤ) (model : String) (finishReason : JsonValue) :
    List String → List JsonObject
  | [] => []
  | [content] => [replayChunk baseId created model content finishReason]
  | content :: contents =>
      replayChunk baseId created model content .null ::
        replayChunks baseId created model finishReason contents

/-- `(value or {})` before a `.get`. -/
def asDict (value : JsonValue) : Option JsonObject :=
  if !value.truthy then some []
  else
    match value with
    | .dict fields => some fields
    | _ => none

/-- `_response_to_chunks`; the response may also be one that a request without streaming stored. -/
def responseToChunks (py : Python) (response : JsonObject) (uuid : String) (now : ℤ) :
    Option (List JsonObject) := do
  if !(response.get "choices").truthy then return []
  let choice ← match response.get "choices" with
    | .list (.dict fields :: _) => some fields
    | _ => none
  let message ← asDict (JsonObject.get choice "message")
  let content := orElse (JsonObject.get message "content") (.str "")
  let words := if content.truthy then splitWords (py.text content) else [""]
  let baseId := orElse (response.get "id") (.str ("chatcmpl-" ++ uuid))
  let created ← match toInt (orElse (response.get "created") (.int now)) with
    | .value n => some n
    | .invalid | .overflow => none
  let model := py.text (orElse (response.get "model") (.str "unknown"))
  return replayChunks (py.text baseId) created model
    (orElse (JsonObject.get choice "finish_reason") (.str "stop")) (withTails words)

end StreamingCache
