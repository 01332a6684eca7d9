import DeltaLLM.AnthropicStream
import DeltaLLM.ChatBilling

/-! # The stream and the body of the Anthropic adapter

One answer of the provider can come as a body or as a stream of events, and each has a translator of
its own. The same answer should mean the same text, finish reason and usage either way.
-/
namespace AnthropicAgreement

open AnthropicStream JsonText JsonValues PythonText StreamingCache
open ChatBilling (usageDump)

/-! ## The body -/

structure ChatCompletion where
  id : String
  created : ℤ
  model : String
  content : String
  finishReason : String
  usage : Usage
  deriving DecidableEq

/-- The text of a text block. -/
def blockText : JsonValue → Option String
  | .dict block =>
      match JsonObject.get block "type", JsonObject.get block "text" with
      | .str "text", .str text => some text
      | _, _ => none
  | _ => none

/-- `data.get("content") or []`, as far as its blocks can be texts; none is a `TypeError`. -/
def contentBlocks (data : JsonObject) : Option (List JsonValue) :=
  if !(data.get "content").truthy then some []
  else
    match data.get "content" with
    | .list blocks => some blocks
    | .str _ | .dict _ => some []
    | _ => none

/-- `int(usage.get(name) or 0)`, none where it raises. -/
def tokenCount (usage : JsonObject) (name : String) : Option ℤ :=
  match toInt (orElse (usage.get name) (.int 0)) with
  | .value n => some n
  | _ => none

/-- A field that the response model wants to be a text. -/
def textField : JsonValue → Option String
  | .str text => some text
  | _ => none

/-- `translate_response`, none where it raises. -/
def translateResponse (py : Python) (now : ℤ) (modelName : String) (data : JsonObject) :
    Option ChatCompletion := do
  let blocks ← contentBlocks data
  let usage ← asDict (data.get "usage")
  let promptTokens ← tokenCount usage "input_tokens"
  let completionTokens ← tokenCount usage "output_tokens"
  let stopReason := py.text (orElse (data.get "stop_reason") (.str "end_turn"))
  let id ← textField
    (orElse (data.get "id") (.str ("chatcmpl-anthropic-" ++ String.ofList (intText now))))
  let model ← textField (orElse (data.get "model") (.str modelName))
  return {
    id := id
    created := now
    model := model
    content := String.join (blocks.filterMap blockText)
    finishReason := (finishMap stopReason).getD "stop"
    usage := ⟨promptTokens, completionTokens, promptTokens + completionTokens⟩ }

/-! ## The chunks of the stream -/

section Chunks

variable (py : Python) (created : ℤ)

/-- What an event adds: its chunks, and the position behind it; none where the generator returns. -/
abbrev Added := List JsonObject × Option Position

def startChunks (p : Position) (message : JsonObject) : Added :=
  let p : Position :=
    { p with
      streamId := py.text (orElse (message.get "id") (.str p.streamId))
      model := py.text (orElse (message.get "model") (.str p.model)) }
  if p.sentRole then ([], some p)
  else ([chunk p created [("role", .str "assistant")] .null], some { p with sentRole := true })

def deltaChunks (p : Position) (delta : JsonObject) : Added :=
  match delta.get "text" with
  | .str text =>
      if text = "" then ([], some p)
      else ([chunk p created [("content", .str text)] .null], some p)
  | _ => ([], some p)

def stopChunks (p : Position) : Added :=
  ([chunk p created [] (.str (p.finishReason.getD "stop"))], none)

def eventChunks (p : Position) (event : JsonObject) : Option Added :=
  let kind := eventType py event
  if kind = "message_start" then
    (asDict (event.get "message")).map (startChunks py created p)
  else if kind = "content_block_delta" then
    (asDict (event.get "delta")).map (deltaChunks created p)
  else if kind = "message_delta" then
    (asDict (event.get "delta")).map fun delta => ([], (messageDelta py p delta).next)
  else if kind = "message_stop" then some (stopChunks created p)
  else some ([], some p)

/-- The chunks of the lines, before they are written out. -/
def lineChunks : Position → List String → List JsonObject
  | _, [] => []
  | p, line :: lines =>
      match lineKind py line with
      | .ignored => lineChunks p lines
      | .done | .noObject => []
      | .event event =>
          match eventChunks py created p event with
          | none => []
          | some (chunks, none) => chunks
          | some (chunks, some p') => chunks ++ lineChunks p' lines

def startPosition (nowMs : ℤ) : Position :=
  ⟨"chatcmpl-anthropic-" ++ String.ofList (intText nowMs), "anthropic", false, none⟩

/-- The chunks of `translate_stream`. -/
def streamChunks (nowMs : ℤ) (lines : List String) : List JsonObject :=
  lineChunks py created (startPosition nowMs) lines

/-- The lines that a stream yields. -/
def yielded : List StreamStep → List String
  | [] => []
  | .yield line :: steps => line :: yielded steps
  | _ :: steps => yielded steps

/-- How the chunks are written out: the end mark follows where the generator returns. -/
def written (added : Added) : Translated :=
  ⟨added.1.map dataLine ++ if added.2.isNone then [endMark] else [], added.2⟩

theorem messageStart_eq (p : Position) (message : JsonObject) :
    messageStart py created p message = written (startChunks py created p message) := by
  unfold messageStart startChunks
  cases hrole : p.sentRole <;> simp [written]

theorem contentBlockDelta_eq (p : Position) (delta : JsonObject) :
    contentBlockDelta created p delta = written (deltaChunks created p delta) := by
  unfold contentBlockDelta deltaChunks
  cases delta.get "text" with
  | str text => by_cases htext : text = "" <;> simp [htext, written]
  | _ => rfl

theorem translateEvent_eq (p : Position) (event : JsonObject) :
    translateEvent py created p event = (eventChunks py created p event).map written := by
  have hstart : messageStart py created p = written ∘ startChunks py created p :=
    funext (messageStart_eq py created p)
  have hdelta : contentBlockDelta created p = written ∘ deltaChunks created p :=
    funext (contentBlockDelta_eq created p)
  simp only [translateEvent, eventChunks, hstart, hdelta]
  by_cases hkind : eventType py event = "message_start"
  · rw [if_pos hkind, if_pos hkind, Option.map_map]
  rw [if_neg hkind, if_neg hkind]
  by_cases hkind : eventType py event = "content_block_delta"
  · rw [if_pos hkind, if_pos hkind, Option.map_map]
  rw [if_neg hkind, if_neg hkind]
  by_cases hkind : eventType py event = "message_delta"
  · rw [if_pos hkind, if_pos hkind, Option.map_map]
    rfl
  rw [if_neg hkind, if_neg hkind]
  by_cases hkind : eventType py event = "message_stop"
  · rw [if_pos hkind, if_pos hkind]
    rfl
  · rw [if_neg hkind, if_neg hkind]
    rfl

theorem yielded_map_yield (lines : List String) (steps : List StreamStep) :
    yielded (lines.map .yield ++ steps) = lines ++ yielded steps := by
  induction lines with
  | nil => rfl
  | cons line lines ih => exact congrArg (line :: ·) ih

theorem yielded_translateLines (p : Position) (lines : List String) :
    ∃ last, (last = [] ∨ last = [endMark]) ∧
      yielded (translateLines py created p lines) =
        (lineChunks py created p lines).map dataLine ++ last := by
  induction lines generalizing p with
  | nil => exact ⟨[endMark], .inr rfl, rfl⟩
  | cons line lines ih =>
      simp only [translateLines, lineChunks, yielded]
      cases lineKind py line with
      | ignored => exact ih p
      | done => exact ⟨[endMark], .inr rfl, rfl⟩
      | noObject => exact ⟨[], .inl rfl, rfl⟩
      | event event =>
          simp only [translateEvent_eq]
          obtain _ | ⟨chunks, _ | p'⟩ := eventChunks py created p event
          · exact ⟨[], .inl rfl, rfl⟩
          · refine ⟨[endMark], .inr rfl, ?_⟩
            have hlines := yielded_map_yield (chunks.map dataLine ++ [endMark]) []
            simpa [written, yielded] using hlines
          · obtain ⟨last, hlast, hrest⟩ := ih p'
            refine ⟨last, hlast, ?_⟩
            have hlines := yielded_map_yield (chunks.map dataLine)
              (translateLines py created p' lines)
            simpa [written, hrest] using hlines

/-- What a stream yields are its chunks, written out, and an end mark unless it raises. -/
theorem yielded_translateStream (nowMs : ℤ) (lines : List String) :
    ∃ last, (last = [] ∨ last = [endMark]) ∧
      yielded (translateStream py created nowMs lines) =
        (streamChunks py created nowMs lines).map dataLine ++ last :=
  yielded_translateLines py created (startPosition nowMs) lines

end Chunks

/-! ## One message, as a body and as events -/

/-- The events of the lines; none where a line ends or breaks the stream. -/
def carriedEvents (py : Python) : List String → Option (List JsonObject)
  | [] => some []
  | line :: lines =>
      match lineKind py line with
      | .ignored => carriedEvents py lines
      | .event event => (carriedEvents py lines).map (event :: ·)
      | .done | .noObject => none

/-- The events of a message; pings and events of unknown kinds may stand anywhere between them. -/
def isKnown (py : Python) (event : JsonObject) : Bool :=
  eventType py event ∈ ["message_start", "content_block_delta", "message_delta", "message_stop"]

/-- The text of a delta; the deltas of other blocks have none. -/
def deltaText (delta : JsonObject) : String :=
  match delta.get "text" with
  | .str text => text
  | _ => ""

/-- The deltas of a block: a text block is cut into texts, and no other block sends any. -/
def SplitBlock (block : JsonValue) (deltas : List JsonObject) : Prop :=
  String.join (deltas.map deltaText) = (blockText block).getD ""

/-- The events of a message: its start with the input tokens, the deltas of its blocks, its end with
the stop reason and the output tokens, and the stop. -/
structure Splits (py : Python) (data : JsonObject) (blocks : List JsonValue)
    (usage : JsonObject) (events : List JsonObject) : Prop where
  hasContent : data.get "content" = .list blocks
  hasUsage : data.get "usage" = .dict usage
  split : ∃ (start message startUsage : JsonObject) (deltas : List (JsonObject × JsonObject))
    (pieces : List (List JsonObject)) (last lastDelta lastUsage stop : JsonObject),
    events.filter (isKnown py) = start :: (deltas.map Prod.fst ++ [last, stop]) ∧
    (eventType py start = "message_start" ∧ start.get "message" = .dict message ∧
      message.get "usage" = .dict startUsage ∧
      startUsage.get "input_tokens" = usage.get "input_tokens") ∧
    (∀ delta ∈ deltas, eventType py delta.1 = "content_block_delta" ∧
      delta.1.get "delta" = .dict delta.2) ∧
    (deltas.map Prod.snd = pieces.flatten ∧ List.Forall₂ SplitBlock blocks pieces) ∧
    (eventType py last = "message_delta" ∧ last.get "delta" = .dict lastDelta ∧
      lastDelta.get "stop_reason" = data.get "stop_reason" ∧ last.get "usage" = .dict lastUsage ∧
      lastUsage.get "output_tokens" = usage.get "output_tokens") ∧
    eventType py stop = "message_stop"

/-! ## What a client reads from the chunks -/

def firstChoice (chunk : JsonObject) : JsonObject :=
  match chunk.get "choices" with
  | .list (.dict choice :: _) => choice
  | _ => []

def chunkText (chunk : JsonObject) : String :=
  match (firstChoice chunk).get "delta" with
  | .dict delta =>
      match JsonObject.get delta "content" with
      | .str text => text
      | _ => ""
  | _ => ""

def chunkFinish (chunk : JsonObject) : Option String :=
  match (firstChoice chunk).get "finish_reason" with
  | .str reason => some reason
  | _ => none

def chunkUsage (chunk : JsonObject) : Option JsonObject :=
  match chunk.get "usage" with
  | .dict usage => some usage
  | _ => none

/-- The chunks say what the body says: the text, the last finish reason and the last usage. -/
structure Agrees (chunks : List JsonObject) (response : ChatCompletion) : Prop where
  text : String.join (chunks.map chunkText) = response.content
  finish : (chunks.filterMap chunkFinish).getLast? = some response.finishReason
  usage : (chunks.filterMap chunkUsage).getLast? = some (usageDump response.usage)

@[simp] theorem chunkText_chunk (p : Position) (created : ℤ) (delta : JsonObject)
    (finishReason : JsonValue) :
    chunkText (chunk p created delta finishReason) =
      match JsonObject.get delta "content" with
      | .str text => text
      | _ => "" := rfl

@[simp] theorem chunkFinish_chunk (p : Position) (created : ℤ) (delta : JsonObject)
    (finishReason : JsonValue) :
    chunkFinish (chunk p created delta finishReason) =
      match finishReason with
      | .str reason => some reason
      | _ => none := rfl

@[simp] theorem chunkUsage_chunk (p : Position) (created : ℤ) (delta : JsonObject)
    (finishReason : JsonValue) : chunkUsage (chunk p created delta finishReason) = none := rfl

section Events

variable (py : Python) (created : ℤ)

/-- The chunks of the events of the lines. -/
def runEvents : Position → List JsonObject → List JsonObject
  | _, [] => []
  | p, event :: events =>
      match eventChunks py created p event with
      | none => []
      | some (chunks, none) => chunks
      | some (chunks, some p') => chunks ++ runEvents p' events

theorem lineChunks_eq {lines : List String} {events : List JsonObject} (p : Position)
    (h : carriedEvents py lines = some events) :
    lineChunks py created p lines = runEvents py created p events := by
  induction lines generalizing p events with
  | nil =>
      cases h
      rfl
  | cons line lines ih =>
      rw [lineChunks]
      rw [carriedEvents] at h
      cases hkind : lineKind py line with
      | ignored =>
          rw [hkind] at h
          exact ih p h
      | done =>
          rw [hkind] at h
          cases h
      | noObject =>
          rw [hkind] at h
          cases h
      | event event =>
          rw [hkind] at h
          obtain ⟨rest, hrest, rfl⟩ := Option.map_eq_some_iff.mp h
          simp only [runEvents]
          obtain _ | ⟨chunks, _ | p'⟩ := eventChunks py created p event
          · rfl
          · rfl
          · exact congrArg (chunks ++ ·) (ih p' hrest)

theorem eventChunks_unknown {event : JsonObject} (p : Position) (h : isKnown py event = false) :
    eventChunks py created p event = some ([], some p) := by
  simp only [isKnown, List.mem_cons, List.not_mem_nil, or_false, decide_eq_false_iff_not,
    not_or] at h
  obtain ⟨hstart, hdelta, hlast, hstop⟩ := h
  simp only [eventChunks, hstart, hdelta, hlast, hstop, if_false]

/-- Pings and unknown events add nothing. -/
theorem runEvents_filter (p : Position) (events : List JsonObject) :
    runEvents py created p (events.filter (isKnown py)) = runEvents py created p events := by
  induction events generalizing p with
  | nil => rfl
  | cons event events ih =>
      cases hknown : isKnown py event with
      | false =>
          rw [List.filter_cons_of_neg (by simp [hknown]), ih, runEvents,
            eventChunks_unknown py created p hknown]
          rfl
      | true =>
          rw [List.filter_cons_of_pos hknown, runEvents, runEvents]
          obtain _ | ⟨chunks, _ | p'⟩ := eventChunks py created p event
          · rfl
          · rfl
          · exact congrArg (chunks ++ ·) (ih p')

@[simp] theorem asDict_dict (fields : JsonObject) : asDict (.dict fields) = some fields := by
  unfold asDict
  by_cases hfields : fields = []
  · subst hfields
    rfl
  · simp [JsonValue.truthy, hfields]

/-- Chunks that carry a text, but neither a finish reason nor a usage. -/
structure CarriesText (chunks : List JsonObject) (text : String) : Prop where
  text : String.join (chunks.map chunkText) = text
  finish : chunks.filterMap chunkFinish = []
  usage : chunks.filterMap chunkUsage = []

theorem CarriesText.append {chunks more : List JsonObject} {text moreText : String}
    (h : CarriesText chunks text) (hmore : CarriesText more moreText) :
    CarriesText (chunks ++ more) (text ++ moreText) := by
  refine ⟨?_, ?_, ?_⟩
  · rw [List.map_append, String.join_append, h.text, hmore.text]
  · rw [List.filterMap_append, h.finish, hmore.finish, List.append_nil]
  · rw [List.filterMap_append, h.usage, hmore.usage, List.append_nil]

theorem CarriesText.nil : CarriesText [] "" := ⟨rfl, rfl, rfl⟩

theorem startChunks_carries (p : Position) (message : JsonObject) :
    ∃ chunks p', startChunks py created p message = (chunks, some p') ∧ CarriesText chunks "" := by
  unfold startChunks
  cases hrole : p.sentRole with
  | true => exact ⟨_, _, rfl, .nil⟩
  | false => exact ⟨_, _, rfl, ⟨rfl, rfl, rfl⟩⟩

theorem deltaChunks_carries (p : Position) (delta : JsonObject) :
    ∃ chunks, deltaChunks created p delta = (chunks, some p) ∧
      CarriesText chunks (deltaText delta) := by
  unfold deltaChunks deltaText
  cases delta.get "text" with
  | str text =>
      by_cases htext : text = ""
      · subst htext
        exact ⟨[], rfl, .nil⟩
      · refine ⟨_, if_neg htext, ?_, rfl, rfl⟩
        simp [JsonObject.get, JsonObject.get?, String.join_cons]
  | _ => exact ⟨[], rfl, .nil⟩

/-- The deltas carry their texts one after the other. -/
theorem runEvents_deltas (p : Position) {deltas : List (JsonObject × JsonObject)}
    (h : ∀ delta ∈ deltas, eventType py delta.1 = "content_block_delta" ∧
      delta.1.get "delta" = .dict delta.2) (rest : List JsonObject) :
    ∃ chunks, runEvents py created p (deltas.map Prod.fst ++ rest) =
        chunks ++ runEvents py created p rest ∧
      CarriesText chunks (String.join (deltas.map fun delta => deltaText delta.2)) := by
  induction deltas with
  | nil => exact ⟨[], rfl, .nil⟩
  | cons delta deltas ih =>
      obtain ⟨hkind, hdelta⟩ := h delta List.mem_cons_self
      obtain ⟨more, hmore, htexts⟩ := ih fun other hother => h other (List.mem_cons_of_mem _ hother)
      obtain ⟨chunks, hchunks, htext⟩ := deltaChunks_carries created p delta.2
      refine ⟨chunks ++ more, ?_, ?_⟩
      · rw [List.map_cons, List.cons_append, runEvents]
        simp only [eventChunks, hkind, hdelta, asDict_dict, hchunks, Option.map_some]
        simp [hmore]
      · rw [List.map_cons, String.join_cons]
        exact htext.append htexts

end Events

/-- The texts of the pieces are the texts of the text blocks. -/
theorem join_pieces {blocks : List JsonValue} {pieces : List (List JsonObject)}
    (h : List.Forall₂ SplitBlock blocks pieces) :
    String.join (pieces.flatten.map deltaText) = String.join (blocks.filterMap blockText) := by
  induction h with
  | nil => rfl
  | @cons block piece blocks pieces hblock _ ih =>
      rw [List.flatten_cons, List.map_append, String.join_append, ih, hblock]
      cases htext : blockText block with
      | none => rw [List.filterMap_cons_none htext, Option.getD_none, String.empty_append]
      | some text => rw [List.filterMap_cons_some htext, Option.getD_some, String.join_cons]

/-- The finish reason that `translate_stream` makes of a stop reason. -/
def streamFinish (py : Python) (stopReason : JsonValue) : String :=
  (finishMap (py.text (orElse stopReason (.str "")))).getD "stop"

/-- The two maps and the two defaults of the finish reason agree. -/
theorem streamFinish_eq (py : Python) (stopReason : JsonValue) :
    streamFinish py stopReason =
      (finishMap (py.text (orElse stopReason (.str "end_turn")))).getD "stop" := by
  unfold streamFinish orElse
  cases stopReason.truthy with
  | true => rfl
  | false => rfl

theorem translateResponse_fields {py : Python} {now : ℤ} {modelName : String} {data : JsonObject}
    {blocks : List JsonValue} {response : ChatCompletion}
    (hcontent : data.get "content" = .list blocks)
    (h : translateResponse py now modelName data = some response) :
    response.content = String.join (blocks.filterMap blockText) ∧
      response.finishReason =
        (finishMap (py.text (orElse (data.get "stop_reason") (.str "end_turn")))).getD "stop" := by
  have hblocks : contentBlocks data = some blocks := by
    unfold contentBlocks
    rw [hcontent]
    by_cases hnil : blocks = []
    · subst hnil
      rfl
    · simp [JsonValue.truthy, hnil]
  simp only [translateResponse, hblocks, Option.bind_eq_bind, Option.bind_some,
    Option.bind_eq_some_iff, Option.pure_def] at h
  obtain ⟨_, -, _, -, _, -, _, -, _, -, h⟩ := h
  cases h
  exact ⟨rfl, rfl⟩

/-- The chunks of a message: its texts, then one chunk with the finish reason. -/
theorem runEvents_split {py : Python} (created : ℤ) (p : Position) {data usage : JsonObject}
    {blocks : List JsonValue} {events : List JsonObject} (h : Splits py data blocks usage events) :
    ∃ chunks p', runEvents py created p events =
        chunks ++ [chunk p' created [] (.str (streamFinish py (data.get "stop_reason")))] ∧
      CarriesText chunks (String.join (blocks.filterMap blockText)) := by
  obtain ⟨start, message, _, deltas, pieces, last, lastDelta, _, stop, hknown,
    ⟨hstart, hmessage, -⟩, hdeltas, ⟨hpieces, hblocks⟩, ⟨hlast, hlastDelta, hreason, -⟩, hstop⟩ :=
    h.split
  obtain ⟨first, p₁, hfirst, hrole⟩ := startChunks_carries py created p message
  obtain ⟨texts, htexts, htext⟩ := runEvents_deltas py created p₁ hdeltas [last, stop]
  have hjoin : String.join (deltas.map fun delta => deltaText delta.2) =
      String.join (blocks.filterMap blockText) := by
    rw [← join_pieces hblocks, ← hpieces, List.map_map]
    rfl
  obtain ⟨p₂, hend⟩ : ∃ p₂, runEvents py created p₁ [last, stop] =
      [chunk p₂ created [] (.str (streamFinish py (data.get "stop_reason")))] := by
    refine ⟨⟨p₁.streamId, p₁.model, p₁.sentRole,
      finishMap (py.text (orElse (data.get "stop_reason") (.str "")))⟩, ?_⟩
    simp [runEvents, eventChunks, hlast, hlastDelta, hstop, messageDelta, stopChunks, hreason,
      streamFinish]
  refine ⟨first ++ texts, p₂, ?_, ?_⟩
  · rw [← runEvents_filter, hknown, runEvents]
    simp only [eventChunks, hstart, hmessage, asDict_dict, hfirst, Option.map_some, if_true]
    rw [htexts, hend, List.append_assoc]
  · have hall := hrole.append htext
    rwa [String.empty_append, hjoin] at hall

theorem streamChunks_split {py : Python} (created nowMs : ℤ) {data usage : JsonObject}
    {blocks : List JsonValue} {lines : List String} {events : List JsonObject}
    (hevents : carriedEvents py lines = some events) (hsplit : Splits py data blocks usage events) :
    ∃ chunks p, streamChunks py created nowMs lines =
        chunks ++ [chunk p created [] (.str (streamFinish py (data.get "stop_reason")))] ∧
      CarriesText chunks (String.join (blocks.filterMap blockText)) := by
  obtain ⟨chunks, p, hrun, hcarries⟩ := runEvents_split created (startPosition nowMs) hsplit
  exact ⟨chunks, p, (lineChunks_eq py created (startPosition nowMs) hevents).trans hrun, hcarries⟩

theorem streamChunks_usage {py : Python} (created nowMs : ℤ) {data usage : JsonObject}
    {blocks : List JsonValue} {lines : List String} {events : List JsonObject}
    (hevents : carriedEvents py lines = some events) (hsplit : Splits py data blocks usage events) :
    (streamChunks py created nowMs lines).filterMap chunkUsage = [] := by
  obtain ⟨chunks, p, hchunks, hcarries⟩ := streamChunks_split created nowMs hevents hsplit
  rw [hchunks, List.filterMap_append, hcarries.usage]
  rfl

/-- For every message and every splitting the stream has the text and the finish reason of the body,
and never its usage. -/
theorem text_agrees_usage_lost {py : Python} {now created nowMs : ℤ} {modelName : String}
    {data usage : JsonObject} {blocks : List JsonValue} {response : ChatCompletion}
    {lines : List String} {events : List JsonObject}
    (hbody : translateResponse py now modelName data = some response)
    (hevents : carriedEvents py lines = some events) (hsplit : Splits py data blocks usage events) :
    String.join ((streamChunks py created nowMs lines).map chunkText) = response.content ∧
      ((streamChunks py created nowMs lines).filterMap chunkFinish).getLast? =
        some response.finishReason ∧
      ¬Agrees (streamChunks py created nowMs lines) response := by
  obtain ⟨hcontent, hfinish⟩ := translateResponse_fields hsplit.hasContent hbody
  obtain ⟨texts, p, hchunks, htexts⟩ := streamChunks_split created nowMs hevents hsplit
  refine ⟨?_, ?_, fun h => ?_⟩
  · rw [hchunks, List.map_append, String.join_append, htexts.text, hcontent]
    simp [JsonObject.get, JsonObject.get?, String.join_cons]
  · rw [hchunks, List.filterMap_append, htexts.finish, hfinish, ← streamFinish_eq]
    rfl
  · have hlast := h.usage
    rw [streamChunks_usage created nowMs hevents hsplit] at hlast
    cases hlast

/-! ## A greeting -/

def greeting : JsonObject :=
  [("id", .str "msg_1"), ("model", .str "claude"),
    ("content", .list [.dict [("type", .str "text"), ("text", .str "Hello")]]),
    ("stop_reason", .str "end_turn"),
    ("usage", .dict [("input_tokens", .int 3), ("output_tokens", .int 2)])]

def greetingStart : JsonObject :=
  [("type", .str "message_start"), ("message", .dict [("id", .str "msg_1"),
    ("model", .str "claude"),
      ("usage", .dict [("input_tokens", .int 3), ("output_tokens", .int 1)])])]

def greetingDelta (text : String) : JsonObject :=
  [("type", .str "content_block_delta"),
    ("delta", .dict [("type", .str "text_delta"), ("text", .str text)])]

def greetingEnd : JsonObject :=
  [("type", .str "message_delta"), ("delta", .dict [("stop_reason", .str "end_turn")]),
    ("usage", .dict [("output_tokens", .int 2)])]

def greetingEvents : List JsonObject :=
  [greetingStart, [("type", .str "ping")], greetingDelta "Hel", greetingDelta "lo", greetingEnd,
    [("type", .str "message_stop")]]

def greetingLines : List String := greetingEvents.map dataLine

def objectText (fields : JsonObject) : String := String.ofList (valueText (.dict fields))

theorem objectText_eq (fields : JsonObject) :
    ∃ inner : List Char, (objectText fields).toList = '{' :: (inner ++ ['}']) :=
  ⟨[','].intercalate (fieldTexts fields), by simp [objectText, valueText]⟩

/-- A line that is a readable object says its event. -/
theorem lineKind_dataLine {py : Python} {event : JsonObject}
    (h : py.loads (objectText event) = some (.dict event)) :
    lineKind py (dataLine event) = .event event := by
  obtain ⟨inner, hinner⟩ := objectText_eq event
  have hline : (dataLine event).toList =
      'd' :: 'a' :: 't' :: 'a' :: ':' :: ' ' :: (objectText event).toList := by
    simp [dataLine, objectText]
  have hdata : startsWith (dataLine event) "data:" = true := by
    simp [startsWith, hline]
  have hspace : isSpace ' ' = true := rfl
  have hopening : isSpace '{' = false := rfl
  have hclosing : isSpace '}' = false := rfl
  have hpayload : strip (String.ofList ((dataLine event).toList.drop 5)) = objectText event := by
    apply String.toList_injective
    simp [strip, hline, hinner, hspace, hopening, hclosing]
  have hobject : objectText event ≠ "" ∧ objectText event ≠ "[DONE]" := by
    refine ⟨fun hempty => ?_, fun hdone => ?_⟩
    · rw [hempty] at hinner
      simp at hinner
    · rw [hdone] at hinner
      simp at hinner
  unfold lineKind
  simp only [hdata, hpayload, hobject.1, hobject.2, h, Bool.not_true, Bool.false_eq_true, if_false]

/-- Reads the texts of the greeting. -/
def python : Python where
  loads text :=
    ((greetingEvents.map objectText).idxOf? text).bind fun i => greetingEvents[i]?.map .dict
  reprText _ := ""

def greetingResponse : ChatCompletion := ⟨"msg_1", 0, "claude", "Hello", "stop", ⟨3, 2, 5⟩⟩

theorem translateResponse_greeting :
    translateResponse python 0 "anthropic" greeting = some greetingResponse := by
  decide +kernel

theorem carriedEvents_greeting : carriedEvents python greetingLines = some greetingEvents := by
  have hindices : greetingEvents.map (fun event =>
      (greetingEvents.map objectText).idxOf? (objectText event)) = (List.range 6).map some := by
    decide +kernel
  have hkinds : ∀ (i : ℕ) event, greetingEvents[i]? = some event →
      lineKind python (dataLine event) = .event event := by
    intro i event hevent
    apply lineKind_dataLine
    have hlt : i < 6 := (List.getElem?_eq_some_iff.mp hevent).1
    have hindex := congrArg (·[i]?) hindices
    simp only [List.getElem?_map, hevent, List.getElem?_range hlt, Option.map_some] at hindex
    simp [python, Option.some.inj hindex, hevent]
  have hcarried : ∀ events : List JsonObject, (∀ event ∈ events,
      lineKind python (dataLine event) = .event event) →
        carriedEvents python (events.map dataLine) = some events := by
    intro events h
    induction events with
    | nil => rfl
    | cons event events ih =>
        rw [List.map_cons, carriedEvents, h event List.mem_cons_self]
        simp only [ih fun other hother => h other (List.mem_cons_of_mem _ hother), Option.map_some]
  refine hcarried greetingEvents fun event hevent => ?_
  obtain ⟨i, hi⟩ := List.getElem?_of_mem hevent
  exact hkinds i event hi

theorem splits_greeting :
    Splits python greeting [.dict [("type", .str "text"), ("text", .str "Hello")]]
      [("input_tokens", .int 3), ("output_tokens", .int 2)] greetingEvents := by
  refine ⟨rfl, rfl, greetingStart, _, _,
    [(greetingDelta "Hel", [("type", .str "text_delta"), ("text", .str "Hel")]),
      (greetingDelta "lo", [("type", .str "text_delta"), ("text", .str "lo")])],
    [[[("type", .str "text_delta"), ("text", .str "Hel")],
      [("type", .str "text_delta"), ("text", .str "lo")]]],
    greetingEnd, _, _, [("type", .str "message_stop")], rfl, ⟨rfl, rfl, rfl, rfl⟩, ?_, ⟨rfl, ?_⟩,
    ⟨rfl, rfl, rfl, rfl, rfl⟩, rfl⟩
  · intro delta hdelta
    rcases List.mem_pair.mp hdelta with rfl | rfl
    · exact ⟨rfl, rfl⟩
    · exact ⟨rfl, rfl⟩
  · exact .cons rfl .nil

theorem text_agrees_usage_lost_greeting :
    String.join ((streamChunks python 0 0 greetingLines).map chunkText) = "Hello" ∧
      ((streamChunks python 0 0 greetingLines).filterMap chunkFinish).getLast? = some "stop" ∧
      ¬Agrees (streamChunks python 0 0 greetingLines) greetingResponse :=
  text_agrees_usage_lost translateResponse_greeting carriedEvents_greeting splits_greeting

/-- The body reports five tokens, and no chunk of the stream any. -/
theorem greeting_without_usage :
    translateResponse python 0 "anthropic" greeting = some greetingResponse ∧
      Splits python greeting [.dict [("type", .str "text"), ("text", .str "Hello")]]
        [("input_tokens", .int 3), ("output_tokens", .int 2)] greetingEvents ∧
      ¬Agrees (streamChunks python 0 0 greetingLines) greetingResponse := by
  refine ⟨translateResponse_greeting, splits_greeting, fun h => ?_⟩
  have hlast := h.usage
  rw [streamChunks_usage 0 0 carriedEvents_greeting splits_greeting] at hlast
  cases hlast

end AnthropicAgreement
