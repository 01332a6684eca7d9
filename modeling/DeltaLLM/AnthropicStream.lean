import DeltaLLM.JsonText
import DeltaLLM.StreamingCache

/-! # The translated stream of the Anthropic adapter

The provider's lines become chat completion chunks. The generator is what it does in order: it asks
for the next line of the provider, yields a line of its own, or raises.
-/
namespace AnthropicStream

open JsonText JsonValues PythonText StreamingCache

/-- `none` asks for a line where the provider has ended its stream. -/
inductive StreamStep where
  | read (line : Option String)
  | yield (line : String)
  | fail (message : String)
  deriving DecidableEq, Repr

def endMark : String := "data: [DONE]"

structure Position where
  streamId : String
  model : String
  sentRole : Bool
  finishReason : Option String

def chunk (p : Position) (created : ℤ) (delta : JsonObject) (finishReason : JsonValue) :
    JsonObject :=
  [("id", .str p.streamId), ("object", .str "chat.completion.chunk"), ("created", .int created),
    ("model", .str p.model),
    ("choices", .list [.dict [("index", .int 0), ("delta", .dict delta),
      ("finish_reason", finishReason)]])]

/-- `json.dumps(out, separators=(",", ":"))` behind `data: `. -/
def dataLine (fields : JsonObject) : String :=
  "data: " ++ String.ofList (valueText (.dict fields))

def finishMap (stopReason : String) : Option String :=
  if stopReason = "end_turn" ∨ stopReason = "stop_sequence" then some "stop"
  else if stopReason = "max_tokens" then some "length"
  else if stopReason = "tool_use" then some "tool_calls"
  else none

/-- What an event adds to the stream; no position where the generator returns. -/
structure Translated where
  lines : List String
  next : Option Position

def eventType (py : Python) (event : JsonObject) : String :=
  py.text (orElse (event.get "type") (.str ""))

section

variable (py : Python) (created : ℤ)

def messageStart (p : Position) (message : JsonObject) : Translated :=
  let p : Position :=
    { p with
      streamId := py.text (orElse (message.get "id") (.str p.streamId))
      model := py.text (orElse (message.get "model") (.str p.model)) }
  if p.sentRole then ⟨[], some p⟩
  else ⟨[dataLine (chunk p created [("role", .str "assistant")] .null)],
    some { p with sentRole := true }⟩

def contentBlockDelta (p : Position) (delta : JsonObject) : Translated :=
  match delta.get "text" with
  | .str text =>
      if text = "" then ⟨[], some p⟩
      else ⟨[dataLine (chunk p created [("content", .str text)] .null)], some p⟩
  | _ => ⟨[], some p⟩

def messageDelta (p : Position) (delta : JsonObject) : Translated :=
  ⟨[], some { p with
    finishReason := finishMap (py.text (orElse (delta.get "stop_reason") (.str ""))) }⟩

def messageStop (p : Position) : Translated :=
  ⟨[dataLine (chunk p created [] (.str (p.finishReason.getD "stop"))), endMark], none⟩

/-- Events of other kinds, errors among them, are passed over; none is an `AttributeError`. -/
def translateEvent (p : Position) (event : JsonObject) : Option Translated :=
  let kind := eventType py event
  if kind = "message_start" then
    (asDict (event.get "message")).map (messageStart py created p)
  else if kind = "content_block_delta" then
    (asDict (event.get "delta")).map (contentBlockDelta created p)
  else if kind = "message_delta" then (asDict (event.get "delta")).map (messageDelta py p)
  else if kind = "message_stop" then some (messageStop created p)
  else some ⟨[], some p⟩

/-- What a line of the provider says. -/
inductive LineKind where
  | ignored
  | done
  | event (event : JsonObject)
  | noObject

def lineKind (line : String) : LineKind :=
  if !startsWith line "data:" then .ignored
  else
    let payload := strip (String.ofList (line.toList.drop 5))
    if payload = "" then .ignored
    else if payload = "[DONE]" then .done
    else
      match py.loads payload with
      | none => .ignored
      | some (.dict event) => .event event
      | some _ => .noObject

/-- `translate_stream`; a stream that ends gets an end mark all the same. -/
def translateLines : Position → List String → List StreamStep
  | _, [] => [.read none, .yield endMark]
  | p, line :: lines =>
      .read (some line) ::
        match lineKind py line with
        | .ignored => translateLines p lines
        | .done => [.yield endMark]
        | .noObject => [.fail "object has no attribute 'get'"]
        | .event event =>
            match translateEvent py created p event with
            | none => [.fail "object has no attribute 'get'"]
            | some ⟨out, none⟩ => out.map .yield
            | some ⟨out, some p'⟩ => out.map .yield ++ translateLines p' lines

def translateStream (nowMs : ℤ) (lines : List String) : List StreamStep :=
  translateLines py created
    ⟨"chatcmpl-anthropic-" ++ String.ofList (intText nowMs), "anthropic", false, none⟩ lines

/-- The lines have a `message_stop` with no error event before it. -/
def Complete : List String → Prop
  | [] => False
  | line :: lines =>
      match lineKind py line with
      | .done => False
      | .event event =>
          eventType py event ≠ "error" ∧ (eventType py event = "message_stop" ∨ Complete lines)
      | .ignored | .noObject => Complete lines

def Complete.decide : (lines : List String) → Decidable (Complete py lines)
  | [] => .isFalse id
  | line :: lines =>
      have := Complete.decide lines
      match h : lineKind py line with
      | .done => .isFalse (by simp [Complete, h])
      | .event event => decidable_of_iff (eventType py event ≠ "error" ∧
          (eventType py event = "message_stop" ∨ Complete py lines)) (by simp [Complete, h])
      | .ignored => decidable_of_iff (Complete py lines) (by simp [Complete, h])
      | .noObject => decidable_of_iff (Complete py lines) (by simp [Complete, h])

instance (lines : List String) : Decidable (Complete py lines) := Complete.decide py lines

end

/-! ## The shape of the translated stream -/

/-- Up to its last step the stream yields chunks; at the end it yields the end mark or raises. -/
inductive Shaped : List StreamStep → Prop where
  | mark : Shaped [.yield endMark]
  | fail (message : String) : Shaped [.fail message]
  | read (line : Option String) {steps : List StreamStep} :
      Shaped steps → Shaped (.read line :: steps)
  | chunk (fields : JsonObject) {steps : List StreamStep} :
      Shaped steps → Shaped (.yield (dataLine fields) :: steps)

/-- The first line of the stream is a chunk. -/
def StartsWithChunk : List StreamStep → Prop
  | .read _ :: steps => StartsWithChunk steps
  | .yield line :: _ => ∃ fields, line = dataLine fields
  | _ => True

/-- The text of a chunk is in braces. -/
theorem dataLine_object (fields : JsonObject) :
    ∃ inner : String, dataLine fields = "data: " ++ ("\x7b" ++ inner ++ "\x7d") := by
  refine ⟨String.ofList ([','].intercalate (fieldTexts fields)), ?_⟩
  apply String.toList_injective
  simp [dataLine, valueText]

/-- A chunk is no end mark. -/
theorem dataLine_not_done (fields : JsonObject) : doneLine (dataLine fields) = false := by
  obtain ⟨inner, hinner⟩ := dataLine_object fields
  have hd : isSpace 'd' = false := rfl
  have hclosing : isSpace '}' = false := rfl
  have hstrip : strip (dataLine fields) = dataLine fields := by
    apply String.toList_injective
    rw [hinner]
    simp [strip, hd, hclosing]
  rw [doneLine, hstrip, hinner, decide_eq_false_iff_not]
  intro h
  have hlist := congrArg String.toList h
  simp [String.toList_append] at hlist

theorem endMark_done : doneLine endMark = true := by decide +kernel

theorem dataLine_ne_empty (fields : JsonObject) : dataLine fields ≠ "" := by
  intro h
  have hlist := congrArg String.toList h
  simp [dataLine] at hlist

/-- What an event yields: chunks, and an end mark only where the generator returns. -/
theorem translateEvent_lines {py : Python} {created : ℤ} {p : Position} {event : JsonObject}
    {translated : Translated} (h : translateEvent py created p event = some translated) :
    (∃ chunks : List JsonObject, ∃ p', translated = ⟨chunks.map dataLine, some p'⟩) ∨
      eventType py event = "message_stop" ∧ ∃ fields,
        translated = ⟨[dataLine fields, endMark], none⟩ := by
  simp only [translateEvent] at h
  split at h
  · left
    obtain ⟨message, -, rfl⟩ := Option.map_eq_some_iff.mp h
    simp only [messageStart]
    split
    · exact ⟨[], _, rfl⟩
    · exact ⟨[_], _, rfl⟩
  · split at h
    · left
      obtain ⟨delta, -, rfl⟩ := Option.map_eq_some_iff.mp h
      unfold contentBlockDelta
      split
      · split
        · exact ⟨[], _, rfl⟩
        · exact ⟨[_], _, rfl⟩
      · exact ⟨[], _, rfl⟩
    · split at h
      · left
        obtain ⟨delta, -, rfl⟩ := Option.map_eq_some_iff.mp h
        exact ⟨[], _, rfl⟩
      · split at h
        next hstop =>
          right
          cases h
          exact ⟨hstop, _, rfl⟩
        next =>
          left
          cases h
          exact ⟨[], _, rfl⟩

theorem Shaped.chunks (chunks : List JsonObject) {steps : List StreamStep} (h : Shaped steps) :
    Shaped ((chunks.map dataLine).map .yield ++ steps) := by
  induction chunks with
  | nil => exact h
  | cons fields chunks ih => exact .chunk fields ih

theorem translateLines_shaped (py : Python) (created : ℤ) (p : Position) (lines : List String) :
    Shaped (translateLines py created p lines) := by
  induction lines generalizing p with
  | nil => exact .read _ .mark
  | cons line lines ih =>
      simp only [translateLines]
      apply Shaped.read
      split
      · exact ih p
      · exact .mark
      · exact .fail _
      next event _ =>
        split
        · exact .fail _
        next out htranslated =>
          rcases translateEvent_lines htranslated with ⟨_, _, heq⟩ | ⟨-, fields, heq⟩
          · cases heq
          · cases heq
            exact .chunk fields .mark
        next out p' htranslated =>
          rcases translateEvent_lines htranslated with ⟨chunks, _, heq⟩ | ⟨-, fields, heq⟩
          · cases heq
            exact (ih p').chunks chunks
          · cases heq

/-- A complete stream begins with a chunk: its `message_stop` yields one before the end mark. -/
theorem translateLines_startsWithChunk {py : Python} (created : ℤ) (p : Position)
    {lines : List String} (h : Complete py lines) :
    StartsWithChunk (translateLines py created p lines) := by
  induction lines generalizing p with
  | nil => exact h.elim
  | cons line lines ih =>
      simp only [Complete] at h
      simp only [translateLines, StartsWithChunk]
      cases hkind : lineKind py line with
      | ignored =>
          rw [hkind] at h
          exact ih p h
      | done =>
          rw [hkind] at h
          exact h.elim
      | noObject => trivial
      | event event =>
          simp only [hkind] at h ⊢
          cases htranslated : translateEvent py created p event with
          | none => trivial
          | some translated =>
              rcases translateEvent_lines htranslated with ⟨chunks, p', rfl⟩ | ⟨-, fields, rfl⟩
              · cases chunks with
                | nil =>
                    refine ih p' (h.2.resolve_left fun hstop => ?_)
                    simp [translateEvent, hstop, messageStop] at htranslated
                | cons fields chunks => exact ⟨fields, rfl⟩
              · exact ⟨fields, rfl⟩

end AnthropicStream
