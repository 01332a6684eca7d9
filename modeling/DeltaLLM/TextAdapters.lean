import DeltaLLM.StreamFidelity

/-! # Chat answers as completions and as Responses output

The adapters translate a chat response in one piece, or the lines of a chat stream one at a time.
`none` stands for an exception.
-/
namespace TextAdapters

open JsonValues PythonText
open StreamingCache (Python toInt orElse asDict firstChoice Usage readUsage)
open StreamFidelity

/-! ## Bodies -/

def zeroUsage : JsonObject :=
  [("prompt_tokens", .int 0), ("completion_tokens", .int 0), ("total_tokens", .int 0)]

/-- `int(choice.get("index", 0) or 0)`. -/
def indexOf (choice : JsonObject) : Option ℤ :=
  match toInt (orElse (choice.get "index") (.int 0)) with
  | .value n => some n
  | .invalid | .overflow => none

/-- The text of a message's content, whose parts are joined. -/
def contentText (py : Python) : JsonValue → String
  | .list parts => String.join (parts.map fun
      | .dict part => py.text ((JsonObject.get? part "text").getD (.str ""))
      | part => py.text part)
  | content => py.text (orElse content (.str ""))

/-- The values of a list; of what else can be iterated over, only what is empty has no element
that the loops over choices fail at. -/
def iterated : JsonValue → Option (List JsonValue)
  | .list values => some values
  | .str "" | .dict [] => some []
  | _ => none

def bodyChoice (py : Python) : JsonValue → Option JsonValue
  | .dict choice => do
      let message ← asDict (JsonObject.get choice "message")
      let index ← indexOf choice
      return .dict [("text", .str (contentText py (JsonObject.get message "content"))),
        ("index", .int index), ("logprobs", .null),
        ("finish_reason", JsonObject.get choice "finish_reason")]
  | _ => none

def chatResponseToCompletionsResponse (py : Python) (chatPayload : JsonObject) :
    Option JsonObject := do
  let choices ← iterated ((JsonObject.get? chatPayload "choices").getD (.list []))
  let choicesOut ← choices.mapM (bodyChoice py)
  return [("id", chatPayload.get "id"), ("object", .str "text_completion"),
    ("created", chatPayload.get "created"), ("model", chatPayload.get "model"),
    ("choices", .list choicesOut), ("usage", orElse (chatPayload.get "usage") (.dict zeroUsage))]

def chatResponseToResponsesResponse (py : Python) (chatPayload : JsonObject) :
    Option JsonObject := do
  let choice ← firstChoice chatPayload
  let message ← asDict (JsonObject.get (choice.getD []) "message")
  let text := contentText py (JsonObject.get message "content")
  let responseId := py.text (orElse (chatPayload.get "id") (.str ""))
  return [("id", .str responseId), ("object", .str "response"),
    ("created_at", chatPayload.get "created"), ("model", chatPayload.get "model"),
    ("output", .list [.dict [
      ("id", .str (if responseId = "" then "msg_0" else "msg_" ++ responseId)),
      ("type", .str "message"), ("role", .str "assistant"),
      ("content", .list [.dict [("type", .str "output_text"), ("text", .str text)]])]]),
    ("usage", orElse (chatPayload.get "usage") (.dict zeroUsage)), ("status", .str "completed")]

/-! ## Lines -/

def streamChoice : JsonValue → Option JsonValue
  | .dict choice => do
      let delta ← asDict (JsonObject.get choice "delta")
      let index ← indexOf choice
      return .dict [("text", (JsonObject.get? delta "content").getD (.str "")),
        ("index", .int index), ("logprobs", .null),
        ("finish_reason", JsonObject.get choice "finish_reason")]
  | _ => none

def completionsChunk (chunk : JsonObject) : Option JsonObject := do
  let choices ← iterated (orElse (chunk.get "choices") (.list []))
  let outChoices ← choices.mapM streamChoice
  return [("id", chunk.get "id"), ("object", .str "text_completion"),
    ("created", chunk.get "created"), ("model", chunk.get "model"), ("choices", .list outChoices)]

def responsesChunk (py : Python) (chunk : JsonObject) : Option JsonObject := do
  let choice ← firstChoice chunk
  let delta ← asDict (JsonObject.get (choice.getD []) "delta")
  let text := py.text (orElse (JsonObject.get delta "content") (.str ""))
  return [("id", chunk.get "id"), ("object", .str "response.output_text.delta"),
    ("created_at", chunk.get "created"), ("model", chunk.get "model"), ("delta", .str text)]

/-- What is sent for a line: a line as it is, or a data line with the JSON text of an object. -/
inductive SentLine where
  | text (line : String)
  | object (fields : JsonObject)

/-- `line[len("data:"):].strip()`, unless the line starts otherwise. -/
def dataPayload (line : String) : Option String :=
  if startsWith line "data:" then some (strip (String.ofList (line.toList.drop 5))) else none

/-- A payload without spaces is read back from its line. -/
theorem dataPayload_data {payload : String} (h : ∀ c ∈ payload.toList, isSpace c = false) :
    dataPayload ("data: " ++ payload) = some payload := by
  have hline : ("data: " ++ payload).toList = "data: ".toList ++ payload.toList :=
    String.toList_append
  have hstart : startsWith ("data: " ++ payload) "data:" = true := by
    rw [startsWith, hline]
    rfl
  have hdrop : ("data: " ++ payload).toList.drop 5 = ' ' :: payload.toList := by
    rw [hline]
    rfl
  have hspace : isSpace ' ' = true := by decide
  rw [dataPayload, if_pos hstart, hdrop, strip_eq, String.toList_ofList,
    List.dropWhile_cons_of_pos hspace, ← strip_eq, strip_of_no_space h]

/-- The frame of both line adapters. -/
def translateLine (py : Python) (translate : JsonObject → Option JsonObject) (line : String) :
    Option SentLine :=
  match dataPayload line with
  | none => some (.text line)
  | some payload =>
      if payload = "[DONE]" then some (.text "data: [DONE]")
      else
        match py.loads payload with
        | none => some (.text line)
        | some (.dict chunk) => (translate chunk).map .object
        | some _ => none

def streamChatToCompletionsLine (py : Python) (line : String) : Option SentLine :=
  translateLine py completionsChunk line

def streamChatToResponsesLine (py : Python) (line : String) : Option SentLine :=
  translateLine py (responsesChunk py) line

/-! ## What a client reads -/

def SentLine.object? : SentLine → Option JsonObject
  | .text _ => none
  | .object fields => some fields

def choiceText (choice : JsonObject) : Option String :=
  match JsonObject.get choice "text" with
  | .str text => some text
  | _ => none

/-- The texts for one index, joined; none where one of them is no text. -/
def spokenText (choices : List JsonObject) (i : ℤ) : Option String :=
  ((choices.filter fun choice => choiceIndex choice = i).mapM choiceText).map String.join

def lastFinish (choices : List JsonObject) (i : ℤ) : Option String :=
  ((choices.filter fun choice => choiceIndex choice = i).filterMap finishOf).getLast?

/-- The last usage that is there. -/
def lastUsage (objects : List JsonObject) : JsonValue :=
  ((objects.map fun fields => JsonObject.get fields "usage").filter fun usage =>
    usage.truthy).getLast?.getD .null

/-- The token counts of a usage, all zero where there is none. -/
def usageCounts (usage : JsonValue) : Option Usage := readUsage ⟨0, 0, 0⟩ usage

def deltaText (fields : JsonObject) : String :=
  match JsonObject.get fields "delta" with
  | .str text => text
  | _ => ""

/-- `output[0].content[0].text`. -/
def outputText (response : JsonObject) : Option String :=
  match JsonObject.get response "output" with
  | .list (.dict item :: _) =>
      match JsonObject.get item "content" with
      | .list (.dict part :: _) =>
          match JsonObject.get part "text" with
          | .str text => some text
          | _ => none
      | _ => none
  | _ => none

/-- The stream and the body say the same for every choice, and count the same tokens. -/
structure CompletionsAgree (sent : List JsonObject) (body : JsonObject) : Prop where
  text : ∀ i, spokenText (sent.flatMap choicesOf) i = spokenText (choicesOf body) i
  finish : ∀ i, lastFinish (sent.flatMap choicesOf) i = lastFinish (choicesOf body) i
  usage : usageCounts (lastUsage sent) = usageCounts (body.get "usage")

structure ResponsesAgree (sent : List JsonObject) (body : JsonObject) : Prop where
  text : some (String.join (sent.map deltaText)) = outputText body
  usage : usageCounts (lastUsage sent) = usageCounts (body.get "usage")

/-! ## Assembled responses -/

structure AssembledChoice (choice : JsonObject) : Prop where
  index : ∃ n, choice.get "index" = .int n
  message : ∃ message, choice.get "message" = .dict message ∧
    TextOrNull (JsonObject.get message "content")
  finishReason : choice.get "finish_reason" = .null ∨
    ∃ reason, choice.get "finish_reason" = .str reason

/-- The response has a choice for each index of the chunks, in order, with what the chunks carry for
it, and their last usage. -/
structure Assembled (chunks : List JsonObject) (response : JsonObject) : Prop where
  choices : ∃ choices : List JsonObject, response.get "choices" = .list (choices.map .dict) ∧
    ∀ choice ∈ choices, AssembledChoice choice
  ordered : ((choicesOf response).map choiceIndex).Pairwise (· < ·)
  indices : ∀ i, i ∈ (choicesOf response).map choiceIndex ↔
    i ∈ (chunks.flatMap choicesOf).map choiceIndex
  carried : ∀ i, carriedByResponse response i = carriedByStream chunks i
  usage : response.get "usage" = lastUsage chunks

/-! ## Streams -/

def lineChunk (py : Python) (line : String) : Option JsonObject :=
  match dataPayload line with
  | none => none
  | some payload =>
      if payload = "[DONE]" then none
      else
        match py.loads payload with
        | some (.dict chunk) => some chunk
        | _ => none

def chunksOf (py : Python) (lines : List String) : List JsonObject := lines.filterMap (lineChunk py)

/-- The JSON value of a data line is a well-formed chunk. -/
def ChunkLine (py : Python) (line : String) : Prop :=
  ∀ payload, dataPayload line = some payload → payload ≠ "[DONE]" → ∀ value,
    py.loads payload = some value → ∃ chunk, value = .dict chunk ∧ WellFormedChunk chunk

/-- No content is given as null. -/
def NoNullContent (chunks : List JsonObject) : Prop :=
  ∀ choice ∈ chunks.flatMap choicesOf,
    JsonObject.get? (partOf "delta" choice) "content" ≠ some .null

/-- Only the lowest index has text, and only where its choice is listed first. -/
structure OneOutput (chunks : List JsonObject) (response : JsonObject) : Prop where
  first : ∀ chunk ∈ chunks, ∀ choice ∈ (choicesOf chunk).head?,
    contentOf (partOf "delta" choice) ≠ "" →
      (choicesOf response).head?.map choiceIndex = some (choiceIndex choice)
  behind : ∀ chunk ∈ chunks, ∀ choice ∈ (choicesOf chunk).tail,
    (choicesOf response).head?.map choiceIndex = some (choiceIndex choice) →
      contentOf (partOf "delta" choice) = ""

/-- The chunks list their choices by index. -/
def InOrder (chunks : List JsonObject) : Prop :=
  ∀ chunk ∈ chunks, ((choicesOf chunk).map choiceIndex).Pairwise (· < ·)

def CountsNothing (chunks : List JsonObject) : Prop :=
  usageCounts (lastUsage chunks) = some ⟨0, 0, 0⟩

/-! ## Well-formed chunks are translated -/

theorem mapM_eq_some {α β : Type*} {f : α → Option β} {g : α → β} {values : List α}
    (h : ∀ value ∈ values, f value = some (g value)) : values.mapM f = some (values.map g) := by
  induction values with
  | nil => rfl
  | cons value values ih =>
      obtain ⟨hvalue, hvalues⟩ := List.forall_mem_cons.mp h
      rw [List.mapM_cons, hvalue, ih hvalues]
      rfl

theorem exists_of_mapM_eq_some {α β : Type*} {f : α → Option β} {values : List α} {results : List β}
    (h : values.mapM f = some results) : ∀ value ∈ values, ∃ result, f value = some result := by
  induction values generalizing results with
  | nil => exact List.forall_mem_nil _
  | cons value values ih =>
      rw [List.mapM_cons] at h
      obtain ⟨result, hresult, h⟩ := Option.bind_eq_some_iff.mp h
      obtain ⟨rest, hrest, -⟩ := Option.bind_eq_some_iff.mp h
      exact List.forall_mem_cons.mpr ⟨⟨result, hresult⟩, ih hrest⟩

/-- A choice of a completions stream. -/
def outChoice (choice : JsonObject) : JsonObject :=
  [("text", (JsonObject.get? (partOf "delta" choice) "content").getD (.str "")),
    ("index", .int (choiceIndex choice)), ("logprobs", .null),
    ("finish_reason", JsonObject.get choice "finish_reason")]

def completionsOut (chunk : JsonObject) : JsonObject :=
  [("id", chunk.get "id"), ("object", .str "text_completion"),
    ("created", chunk.get "created"), ("model", chunk.get "model"),
    ("choices", .list ((choicesOf chunk).map fun choice => .dict (outChoice choice)))]

def responsesOut (chunk : JsonObject) : JsonObject :=
  [("id", chunk.get "id"), ("object", .str "response.output_text.delta"),
    ("created_at", chunk.get "created"), ("model", chunk.get "model"),
    ("delta", .str (firstContent chunk))]

section Chunks

variable {py : Python}

theorem indexOf_int {choice : JsonObject} (h : ∃ n, choice.get "index" = .int n) :
    indexOf choice = some (choiceIndex choice) := by
  obtain ⟨n, hn⟩ := h
  by_cases hzero : n = 0
  · simp [indexOf, choiceIndex, hn, hzero, orElse, JsonValue.truthy, toInt]
  · simp [indexOf, choiceIndex, hn, hzero, orElse, JsonValue.truthy, toInt]

theorem asDict_partOf {choice : JsonObject} {name : String}
    (h : choice.get name = .null ∨ ∃ fields, choice.get name = .dict fields) :
    asDict (choice.get name) = some (partOf name choice) := by
  rcases h with hnull | ⟨fields, hfields⟩
  · rw [partOf, hnull]
    rfl
  · rw [partOf, hfields]
    cases fields with
    | nil => rfl
    | cons field fields => rfl

theorem text_content (py : Python) {part : JsonObject} (h : TextOrNull (part.get "content")) :
    py.text (orElse (part.get "content") (.str "")) = contentOf part := by
  rcases h with hnull | ⟨text, htext⟩
  · rw [contentOf, hnull]
    rfl
  · rw [contentOf, htext]
    by_cases hempty : text = ""
    · rw [hempty]
      rfl
    · simp [orElse, JsonValue.truthy, hempty, Python.text]

theorem WellFormedChoice.deltaDict {choice : JsonObject} (h : WellFormedChoice choice) :
    asDict (choice.get "delta") = some (partOf "delta" choice) := by
  apply asDict_partOf
  rcases h.delta with hnull | ⟨delta, hdelta, -⟩
  · exact .inl hnull
  · exact .inr ⟨delta, hdelta⟩

theorem WellFormedChoice.deltaContent {choice : JsonObject} (h : WellFormedChoice choice) :
    TextOrNull (JsonObject.get (partOf "delta" choice) "content") := by
  rcases h.delta with hnull | ⟨delta, hdelta, hform⟩
  · rw [partOf, hnull]
    exact .inl rfl
  · rw [partOf, hdelta]
    exact hform.content

theorem streamChoice_wellFormed {choice : JsonObject} (h : WellFormedChoice choice) :
    streamChoice (.dict choice) = some (.dict (outChoice choice)) := by
  simp only [streamChoice, WellFormedChoice.deltaDict h, indexOf_int h.index]
  rfl

theorem completionsChunk_wellFormed {chunk : JsonObject} (h : WellFormedChunk chunk) :
    completionsChunk chunk = some (completionsOut chunk) := by
  rcases h.choices with hnull | ⟨choices, hlist, hform⟩
  · have hchoices : choicesOf chunk = [] := by rw [choicesOf, hnull]
    rw [completionsChunk, completionsOut, hnull, hchoices]
    rfl
  · have hiterated : iterated (orElse (chunk.get "choices") (.list [])) =
        some (choices.map .dict) := by
      rw [hlist]
      cases choices with
      | nil => rfl
      | cons choice choices => rfl
    have hmap : (choices.map JsonValue.dict).mapM streamChoice =
        some (choices.map fun choice => .dict (outChoice choice)) := by
      rw [List.mapM_map]
      exact mapM_eq_some fun choice hchoice => streamChoice_wellFormed (hform choice hchoice)
    rw [completionsChunk, completionsOut, hiterated, choicesOf_wellFormed hlist]
    simp only [Option.bind_eq_bind, Option.bind_some, hmap]
    rfl

theorem responsesChunk_wellFormed (py : Python) {chunk : JsonObject} (h : WellFormedChunk chunk) :
    responsesChunk py chunk = some (responsesOut chunk) := by
  rw [responsesChunk, responsesOut, firstChoice_wellFormed h, firstContent]
  cases hhead : (choicesOf chunk).head? with
  | none => rfl
  | some choice =>
      have hchoice := h.choice_of_mem (List.mem_of_mem_head? hhead)
      have hdelta := WellFormedChoice.deltaDict hchoice
      have htext := text_content py (WellFormedChoice.deltaContent hchoice)
      simp only [Option.bind_eq_bind, Option.bind_some, Option.getD_some, Option.map_some, hdelta,
        htext]
      rfl

theorem completionsOut_choices (chunk : JsonObject) :
    choicesOf (completionsOut chunk) = (choicesOf chunk).map outChoice := by
  have hlist : (completionsOut chunk).get "choices" =
      .list (((choicesOf chunk).map outChoice).map .dict) := by
    rw [List.map_map]
    rfl
  exact choicesOf_wellFormed hlist

theorem lineChunk_wellFormed {line : String} (hform : ChunkLine py line) {chunk : JsonObject}
    (h : lineChunk py line = some chunk) : WellFormedChunk chunk := by
  unfold lineChunk at h
  split at h
  · cases h
  next payload hpayload =>
    split at h
    · cases h
    next hdone =>
      split at h
      next value hloads =>
        obtain ⟨found, heq, hfound⟩ := hform payload hpayload hdone _ hloads
        cases heq
        cases h
        exact hfound
      · cases h

theorem translateLine_sent {translate : JsonObject → Option JsonObject}
    {out : JsonObject → JsonObject}
    (htotal : ∀ chunk, WellFormedChunk chunk → translate chunk = some (out chunk))
    {line : String} (hform : ChunkLine py line) :
    ∃ sent, translateLine py translate line = some sent ∧
      sent.object? = (lineChunk py line).map out := by
  cases hpayload : dataPayload line with
  | none => exact ⟨.text line, by simp [translateLine, hpayload], by simp [lineChunk, hpayload,
      SentLine.object?]⟩
  | some payload =>
      by_cases hdone : payload = "[DONE]"
      · exact ⟨.text "data: [DONE]", by simp [translateLine, hpayload, hdone],
          by simp [lineChunk, hpayload, hdone, SentLine.object?]⟩
      · cases hloads : py.loads payload with
        | none => exact ⟨.text line, by simp [translateLine, hpayload, hdone, hloads],
            by simp [lineChunk, hpayload, hdone, hloads, SentLine.object?]⟩
        | some value =>
            obtain ⟨chunk, rfl, hchunk⟩ := hform payload hpayload hdone value hloads
            exact ⟨.object (out chunk),
              by simp [translateLine, hpayload, hdone, hloads, htotal chunk hchunk],
              by simp [lineChunk, hpayload, hdone, hloads, SentLine.object?]⟩

/-- A stream of well-formed chunks is translated chunk by chunk. -/
theorem translateLines_sent {translate : JsonObject → Option JsonObject}
    {out : JsonObject → JsonObject}
    (htotal : ∀ chunk, WellFormedChunk chunk → translate chunk = some (out chunk))
    {lines : List String} (hform : ∀ line ∈ lines, ChunkLine py line) :
    ∃ sent, lines.mapM (translateLine py translate) = some sent ∧
      sent.filterMap SentLine.object? = (chunksOf py lines).map out := by
  induction lines with
  | nil => exact ⟨[], rfl, rfl⟩
  | cons line lines ih =>
      obtain ⟨hline, hlines⟩ := List.forall_mem_cons.mp hform
      obtain ⟨first, hfirst, hobject⟩ := translateLine_sent htotal hline
      obtain ⟨sent, hsent, hobjects⟩ := ih hlines
      refine ⟨first :: sent, by rw [List.mapM_cons, hfirst, hsent]; rfl, ?_⟩
      rw [List.filterMap_cons, hobject, hobjects, chunksOf, chunksOf, List.filterMap_cons]
      cases lineChunk py line with
      | none => rfl
      | some chunk => rfl

theorem chunksOf_wellFormed {lines : List String} (hform : ∀ line ∈ lines, ChunkLine py line) :
    ∀ chunk ∈ chunksOf py lines, WellFormedChunk chunk := by
  intro chunk hchunk
  obtain ⟨line, hline, hcarried⟩ := List.mem_filterMap.mp hchunk
  exact lineChunk_wellFormed (hform line hline) hcarried

end Chunks

/-! ## Completions -/

/-- The choices of the output are those of the input, one by one. -/
structure Renames (out : JsonObject → JsonObject) : Prop where
  index : ∀ choice, choiceIndex (out choice) = choiceIndex choice
  finish : ∀ choice, finishOf (out choice) = finishOf choice

section Renaming

variable {name : String} {out : JsonObject → JsonObject}

theorem filter_index_map (h : Renames out) (choices : List JsonObject) (i : ℤ) :
    (choices.map out).filter (fun choice => choiceIndex choice = i) =
      (choices.filter fun choice => choiceIndex choice = i).map out := by
  rw [List.filter_map]
  congr 1
  apply List.filter_congr
  intro choice _
  rw [Function.comp_apply, h.index]

theorem lastFinish_map (name : String) (h : Renames out) (choices : List JsonObject) (i : ℤ) :
    lastFinish (choices.map out) i = (carriedBy name choices i).finishReason := by
  rw [lastFinish, filter_index_map h, List.filterMap_map, carriedBy]
  congr 2
  funext choice
  exact h.finish choice

/-- The texts are those of the input exactly where each is a text. -/
theorem spokenText_map (h : Renames out) {choices : List JsonObject} {i : ℤ}
    (htext : ∀ choice ∈ choices, choiceText (out choice) = none ∨
      choiceText (out choice) = some (contentOf (partOf name choice))) :
    spokenText (choices.map out) i = some (carriedBy name choices i).content ↔
      ∀ choice ∈ choices, choiceIndex choice = i → choiceText (out choice) ≠ none := by
  rw [spokenText, filter_index_map h, List.mapM_map]
  constructor
  · intro heq choice hchoice hindex hnone
    obtain ⟨texts, htexts, -⟩ := Option.map_eq_some_iff.mp heq
    have hmine : choice ∈ choices.filter fun choice => choiceIndex choice = i := by
      simp [hchoice, hindex]
    obtain ⟨text, hsome⟩ := exists_of_mapM_eq_some htexts choice hmine
    rw [Function.comp_apply, hnone] at hsome
    cases hsome
  · intro hall
    have hmap : (choices.filter fun choice => choiceIndex choice = i).mapM (choiceText ∘ out) =
        some ((choices.filter fun choice => choiceIndex choice = i).map fun choice =>
          contentOf (partOf name choice)) := by
      apply mapM_eq_some
      intro choice hmine
      obtain ⟨hchoice, hindex⟩ := List.mem_filter.mp hmine
      exact (htext choice hchoice).resolve_left (hall choice hchoice (of_decide_eq_true hindex))
    rw [hmap]
    rfl

end Renaming

/-- A choice of a completions body. -/
def bodyOut (choice : JsonObject) : JsonObject :=
  [("text", .str (contentOf (partOf "message" choice))), ("index", .int (choiceIndex choice)),
    ("logprobs", .null), ("finish_reason", JsonObject.get choice "finish_reason")]

def completionsBody (response : JsonObject) : JsonObject :=
  [("id", response.get "id"), ("object", .str "text_completion"),
    ("created", response.get "created"), ("model", response.get "model"),
    ("choices", .list ((choicesOf response).map fun choice => .dict (bodyOut choice))),
    ("usage", orElse (response.get "usage") (.dict zeroUsage))]

theorem outChoice_renames : Renames outChoice := ⟨fun _ => rfl, fun _ => rfl⟩

theorem bodyOut_renames : Renames bodyOut := ⟨fun _ => rfl, fun _ => rfl⟩

theorem choiceText_outChoice {choice : JsonObject}
    (h : TextOrNull (JsonObject.get (partOf "delta" choice) "content")) :
    (choiceText (outChoice choice) = none ∧
        JsonObject.get? (partOf "delta" choice) "content" = some .null) ∨
      (choiceText (outChoice choice) = some (contentOf (partOf "delta" choice)) ∧
        JsonObject.get? (partOf "delta" choice) "content" ≠ some .null) := by
  have htext : JsonObject.get (outChoice choice) "text" =
      (JsonObject.get? (partOf "delta" choice) "content").getD (.str "") := rfl
  rw [JsonObject.get] at h
  rw [choiceText, htext, contentOf, JsonObject.get]
  cases hcontent : JsonObject.get? (partOf "delta" choice) "content" with
  | none => exact .inr ⟨rfl, (Option.some_ne_none _).symm⟩
  | some content =>
      rw [hcontent] at h
      rcases h with hnull | ⟨text, hstr⟩
      · cases hnull
        exact .inl ⟨rfl, rfl⟩
      · cases hstr
        exact .inr ⟨rfl, by simp⟩

section Completions

variable {py : Python} {chunks : List JsonObject} {response : JsonObject}

theorem contentText_message (py : Python) {part : JsonObject}
    (h : TextOrNull (part.get "content")) :
    contentText py (part.get "content") = contentOf part := by
  rw [← text_content py h]
  rcases h with hnull | ⟨text, htext⟩
  · rw [hnull]
    rfl
  · rw [htext]
    rfl

theorem AssembledChoice.messageDict {choice : JsonObject} (h : AssembledChoice choice) :
    asDict (choice.get "message") = some (partOf "message" choice) ∧
      TextOrNull (JsonObject.get (partOf "message" choice) "content") := by
  obtain ⟨message, hmessage, hcontent⟩ := h.message
  refine ⟨asDict_partOf (.inr ⟨message, hmessage⟩), ?_⟩
  rw [partOf, hmessage]
  exact hcontent

theorem bodyChoice_assembled {choice : JsonObject} (h : AssembledChoice choice) :
    bodyChoice py (.dict choice) = some (.dict (bodyOut choice)) := by
  obtain ⟨hmessage, hcontent⟩ := h.messageDict
  simp only [bodyChoice, hmessage, indexOf_int h.index]
  rw [bodyOut, ← contentText_message py hcontent]
  rfl

theorem completionsBody_assembled (h : Assembled chunks response) :
    chatResponseToCompletionsResponse py response = some (completionsBody response) := by
  obtain ⟨choices, hlist, hform⟩ := h.choices
  have hiterated : iterated ((JsonObject.get? response "choices").getD (.list [])) =
      some (choices.map .dict) := by
    rw [JsonObject.get] at hlist
    cases hget : JsonObject.get? response "choices" with
    | none =>
        rw [hget] at hlist
        cases hlist
    | some value =>
        rw [hget, Option.getD_some] at hlist
        rw [Option.getD_some, hlist]
        rfl
  have hmap : (choices.map JsonValue.dict).mapM (bodyChoice py) =
      some (choices.map fun choice => .dict (bodyOut choice)) := by
    rw [List.mapM_map]
    exact mapM_eq_some fun choice hchoice => bodyChoice_assembled (hform choice hchoice)
  rw [chatResponseToCompletionsResponse, completionsBody, hiterated, choicesOf_wellFormed hlist]
  simp only [Option.bind_eq_bind, Option.bind_some, hmap]
  rfl

theorem completionsBody_choices (response : JsonObject) :
    choicesOf (completionsBody response) = (choicesOf response).map bodyOut := by
  have hlist : (completionsBody response).get "choices" =
      .list (((choicesOf response).map bodyOut).map .dict) := by
    rw [List.map_map]
    rfl
  exact choicesOf_wellFormed hlist

theorem sent_choices (chunks : List JsonObject) :
    (chunks.map completionsOut).flatMap choicesOf = (chunks.flatMap choicesOf).map outChoice := by
  rw [List.flatMap_map, List.map_flatMap]
  congr 1
  funext chunk
  exact completionsOut_choices chunk

/-- Nothing that is sent has a usage. -/
theorem lastUsage_sent {out : JsonObject → JsonObject}
    (h : ∀ chunk, JsonObject.get (out chunk) "usage" = .null) (chunks : List JsonObject) :
    lastUsage (chunks.map out) = .null := by
  have hnone : ((chunks.map out).map fun fields => JsonObject.get fields "usage").filter
      (fun usage => usage.truthy) = [] := by
    rw [List.filter_eq_nil_iff]
    intro usage husage
    obtain ⟨fields, hfields, rfl⟩ := List.mem_map.mp husage
    obtain ⟨chunk, -, rfl⟩ := List.mem_map.mp hfields
    rw [h]
    exact Bool.false_ne_true
  rw [lastUsage, hnone]
  rfl

theorem usageCounts_orElse {usage : JsonValue} (h : usage = .null ∨ usage.truthy = true) :
    usageCounts (orElse usage (.dict zeroUsage)) = usageCounts usage := by
  rcases h with rfl | htruthy
  · rfl
  · rw [orElse, if_pos htruthy]

theorem lastUsage_cases (chunks : List JsonObject) :
    lastUsage chunks = .null ∨ (lastUsage chunks).truthy = true := by
  rw [lastUsage]
  cases hlast : ((chunks.map fun fields => JsonObject.get fields "usage").filter
      fun usage => usage.truthy).getLast? with
  | none => exact .inl rfl
  | some usage => exact .inr (List.mem_filter.mp (List.mem_of_getLast? hlast)).2

theorem usage_agrees_iff {out : JsonObject → JsonObject}
    (hsent : ∀ chunk, JsonObject.get (out chunk) "usage" = .null) {body : JsonObject}
    (h : Assembled chunks response)
    (hbody : body.get "usage" = orElse (response.get "usage") (.dict zeroUsage)) :
    usageCounts (lastUsage (chunks.map out)) = usageCounts (body.get "usage") ↔
      CountsNothing chunks := by
  rw [lastUsage_sent hsent, hbody, h.usage, usageCounts_orElse (lastUsage_cases chunks),
    CountsNothing, eq_comm]
  exact Iff.rfl

theorem spokenText_body (h : Assembled chunks response) (i : ℤ) :
    spokenText (choicesOf (completionsBody response)) i =
      some (carriedByStream chunks i).content := by
  have htext : ∀ choice ∈ choicesOf response, choiceText (bodyOut choice) =
      some (contentOf (partOf "message" choice)) := fun _ _ => rfl
  rw [completionsBody_choices, ← h.carried]
  apply (spokenText_map bodyOut_renames fun choice hchoice => .inr (htext choice hchoice)).mpr
  intro choice hchoice _ hnone
  rw [htext choice hchoice] at hnone
  cases hnone

theorem spokenText_stream (hform : ∀ chunk ∈ chunks, WellFormedChunk chunk) (i : ℤ) :
    spokenText ((chunks.map completionsOut).flatMap choicesOf) i =
        some (carriedByStream chunks i).content ↔
      ∀ choice ∈ chunks.flatMap choicesOf, choiceIndex choice = i →
        JsonObject.get? (partOf "delta" choice) "content" ≠ some .null := by
  have hcases : ∀ choice ∈ chunks.flatMap choicesOf,
      (choiceText (outChoice choice) = none ∧
        JsonObject.get? (partOf "delta" choice) "content" = some .null) ∨
      (choiceText (outChoice choice) = some (contentOf (partOf "delta" choice)) ∧
        JsonObject.get? (partOf "delta" choice) "content" ≠ some .null) := by
    intro choice hchoice
    obtain ⟨chunk, hchunk, hchoice⟩ := List.mem_flatMap.mp hchoice
    exact choiceText_outChoice
      (WellFormedChoice.deltaContent ((hform chunk hchunk).choice_of_mem hchoice))
  rw [sent_choices, carriedByStream, spokenText_map outChoice_renames fun choice hchoice =>
    (hcases choice hchoice).imp And.left And.left]
  apply forall₂_congr
  intro choice hchoice
  apply imp_congr_right
  intro _
  rcases hcases choice hchoice with ⟨hnone, hnull⟩ | ⟨hsome, hnull⟩
  · exact iff_of_false (fun hne => hne hnone) (fun hne => hne hnull)
  · refine iff_of_true ?_ hnull
    rw [hsome]
    exact Option.some_ne_none _

theorem lastFinish_agrees (h : Assembled chunks response) (i : ℤ) :
    lastFinish ((chunks.map completionsOut).flatMap choicesOf) i =
      lastFinish (choicesOf (completionsBody response)) i := by
  rw [sent_choices, lastFinish_map "delta" outChoice_renames, completionsBody_choices,
    lastFinish_map "message" bodyOut_renames]
  exact (congrArg Carried.finishReason (h.carried i)).symm

theorem completions_agree_iff (hform : ∀ chunk ∈ chunks, WellFormedChunk chunk)
    (h : Assembled chunks response) :
    CompletionsAgree (chunks.map completionsOut) (completionsBody response) ↔
      NoNullContent chunks ∧ CountsNothing chunks := by
  have husage : usageCounts (lastUsage (chunks.map completionsOut)) =
      usageCounts ((completionsBody response).get "usage") ↔ CountsNothing chunks :=
    usage_agrees_iff (fun _ => rfl) h rfl
  constructor
  · intro hagree
    refine ⟨?_, husage.mp hagree.usage⟩
    intro choice hchoice
    have htext := (hagree.text (choiceIndex choice)).trans (spokenText_body h _)
    exact (spokenText_stream hform _).mp htext choice hchoice rfl
  · rintro ⟨hnull, hzero⟩
    refine ⟨?_, ?_, husage.mpr hzero⟩
    · intro i
      rw [spokenText_body h, spokenText_stream hform]
      exact fun choice hchoice _ => hnull choice hchoice
    · exact lastFinish_agrees h

end Completions

/-! ## Responses -/

section Responses

variable {py : Python} {chunks : List JsonObject} {response : JsonObject}

/-- The text of the response's first choice. -/
def firstText (response : JsonObject) : String :=
  ((choicesOf response).head?.map fun choice => contentOf (partOf "message" choice)).getD ""

theorem responsesBody_assembled (py : Python) (h : Assembled chunks response) :
    ∃ body, chatResponseToResponsesResponse py response = some body ∧
      outputText body = some (firstText response) ∧
      body.get "usage" = orElse (response.get "usage") (.dict zeroUsage) := by
  obtain ⟨choices, hlist, hform⟩ := h.choices
  have hfirst : firstChoice response = some choices.head? := by
    cases choices with
    | nil => simp [firstChoice, hlist, JsonValue.truthy]
    | cons choice choices =>
        have hne : choice ≠ [] := by
          rintro rfl
          obtain ⟨n, hn⟩ := (hform [] List.mem_cons_self).index
          simp [JsonObject.get, JsonObject.get?] at hn
        simp [firstChoice, hlist, JsonValue.truthy, hne]
  rw [chatResponseToResponsesResponse, hfirst, firstText, choicesOf_wellFormed hlist]
  cases hhead : choices.head? with
  | none => exact ⟨_, rfl, rfl, rfl⟩
  | some choice =>
      obtain ⟨hmessage, hcontent⟩ := (hform choice (List.mem_of_mem_head? hhead)).messageDict
      simp only [Option.bind_eq_bind, Option.bind_some, Option.getD_some, Option.map_some, hmessage,
        contentText_message py hcontent]
      exact ⟨_, rfl, rfl, rfl⟩

/-- The chunk's text for one index. -/
def ownText (i : ℤ) (chunk : JsonObject) : String := (carriedBy "delta" (choicesOf chunk) i).content

theorem carriedByStream_content (chunks : List JsonObject) (i : ℤ) :
    (carriedByStream chunks i).content = String.join (chunks.map (ownText i)) := by
  induction chunks with
  | nil => rfl
  | cons chunk chunks ih =>
      rw [List.map_cons, String.join_cons, ← ih]
      simp only [carriedByStream, carriedBy, ownText, List.flatMap_cons, List.filter_append,
        List.map_append, String.join_append]

theorem firstText_eq (h : Assembled chunks response) {choice : JsonObject}
    (hhead : (choicesOf response).head? = some choice) :
    firstText response = String.join (chunks.map (ownText (choiceIndex choice))) := by
  rw [← carriedByStream_content, ← h.carried, firstText, hhead]
  have hordered := h.ordered
  rw [carriedByResponse, carriedBy]
  cases hlist : choicesOf response with
  | nil =>
      rw [hlist] at hhead
      cases hhead
  | cons first rest =>
      rw [hlist] at hhead hordered
      cases hhead
      have hrest : rest.filter (fun other => choiceIndex other = choiceIndex choice) = [] := by
        rw [List.filter_eq_nil_iff]
        intro other hother heq
        have hlt := List.rel_of_pairwise_cons hordered (List.mem_map_of_mem hother)
        have hindex := of_decide_eq_true heq
        omega
      simp [hrest, String.join_cons]

/-- Texts of which some are left out join to the same text exactly when those are empty. -/
theorem join_kept_iff {α : Type*} {kept whole : α → String} {values : List α}
    (h : ∀ value ∈ values, kept value = whole value ∨ kept value = "") :
    String.join (values.map whole) = String.join (values.map kept) ↔
      ∀ value ∈ values, kept value = whole value := by
  have hlength : ∀ values : List α,
      (∀ value ∈ values, kept value = whole value ∨ kept value = "") →
      (String.join (values.map kept)).length ≤ (String.join (values.map whole)).length := by
    intro values h
    induction values with
    | nil => exact Nat.le_refl _
    | cons value values ih =>
        obtain ⟨hvalue, hvalues⟩ := List.forall_mem_cons.mp h
        have hrest := ih hvalues
        rw [List.map_cons, List.map_cons, String.join_cons, String.join_cons, String.length_append,
          String.length_append]
        rcases hvalue with heq | hempty
        · rw [heq]
          omega
        · rw [hempty, String.length_empty]
          omega
  induction values with
  | nil => simp
  | cons value values ih =>
      obtain ⟨hvalue, hvalues⟩ := List.forall_mem_cons.mp h
      rw [List.map_cons, List.map_cons, String.join_cons, String.join_cons]
      refine Iff.trans ?_ (Iff.trans (and_congr_right fun _ => ih hvalues)
        List.forall_mem_cons.symm)
      constructor
      · intro heq
        rcases hvalue with hsame | hempty
        · rw [hsame] at heq
          exact ⟨hsame, String.append_right_inj _ |>.mp heq⟩
        · have hlengths := congrArg String.length heq
          rw [String.length_append, String.length_append, hempty, String.length_empty] at hlengths
          have hrest := hlength values hvalues
          have hwhole : whole value = "" := by
            rw [← String.length_eq_zero_iff]
            omega
          rw [hempty, hwhole] at heq ⊢
          exact ⟨rfl, by simpa using heq⟩
      · rintro ⟨hsame, hrest⟩
        rw [hsame, hrest]

theorem ownText_of_tail {chunk : JsonObject} {i : ℤ}
    (htail : ∀ choice ∈ (choicesOf chunk).tail, choiceIndex choice = i →
      contentOf (partOf "delta" choice) = "") :
    ownText i chunk =
      if (choicesOf chunk).head?.map choiceIndex = some i then firstContent chunk else "" := by
  rw [ownText, firstContent]
  cases hlist : choicesOf chunk with
  | nil => simp [carriedBy_nil]
  | cons first rest =>
      rw [hlist] at htail
      have hrest : (carriedBy "delta" rest i).content = "" := by
        apply join_eq_empty.mpr
        intro text htext
        obtain ⟨choice, hmine, rfl⟩ := List.mem_map.mp htext
        obtain ⟨hchoice, hindex⟩ := List.mem_filter.mp hmine
        exact htail choice hchoice (of_decide_eq_true hindex)
      rw [carriedBy_cons]
      by_cases hindex : choiceIndex first = i
      · simp [hindex, hrest]
      · simp [hindex, hrest]

theorem deltas_eq (chunks : List JsonObject) :
    String.join ((chunks.map responsesOut).map deltaText) =
      String.join (chunks.map firstContent) := by
  rw [List.map_map]
  rfl

/-- Without a choice in the response there is none in the chunks. -/
theorem firstContent_of_no_choice (h : Assembled chunks response)
    (hnone : choicesOf response = []) : ∀ chunk ∈ chunks, firstContent chunk = "" := by
  intro chunk hchunk
  rw [firstContent]
  cases hlist : choicesOf chunk with
  | nil => rfl
  | cons choice rest =>
      have hmem : choiceIndex choice ∈ (choicesOf response).map choiceIndex := by
        rw [h.indices]
        apply List.mem_map_of_mem
        exact List.mem_flatMap.mpr ⟨chunk, hchunk, hlist ▸ List.mem_cons_self⟩
      rw [hnone] at hmem
      cases hmem

theorem lowest_index (h : Assembled chunks response) {first choice : JsonObject}
    (hhead : (choicesOf response).head? = some first)
    (hchoice : choice ∈ chunks.flatMap choicesOf) :
    choiceIndex first ≤ choiceIndex choice := by
  have hmem := (h.indices _).mpr (List.mem_map_of_mem hchoice)
  have hordered := h.ordered
  cases hlist : choicesOf response with
  | nil =>
      rw [hlist] at hhead
      cases hhead
  | cons other rest =>
      rw [hlist] at hhead hmem hordered
      cases hhead
      rcases List.mem_cons.mp hmem with heq | hrest
      · exact heq.ge
      · exact (List.rel_of_pairwise_cons hordered hrest).le

theorem responses_text_of_oneOutput (h : Assembled chunks response)
    (hone : OneOutput chunks response) :
    String.join (chunks.map firstContent) = firstText response := by
  cases hhead : (choicesOf response).head? with
  | none =>
      have hnone := List.head?_eq_none_iff.mp hhead
      rw [firstText, hhead]
      apply join_eq_empty.mpr
      intro text htext
      obtain ⟨chunk, hchunk, rfl⟩ := List.mem_map.mp htext
      exact firstContent_of_no_choice h hnone chunk hchunk
  | some first =>
      rw [firstText_eq h hhead]
      congr 1
      apply List.map_congr_left
      intro chunk hchunk
      have htail : ∀ choice ∈ (choicesOf chunk).tail, choiceIndex choice = choiceIndex first →
          contentOf (partOf "delta" choice) = "" := by
        intro choice hchoice hindex
        apply hone.behind chunk hchunk choice hchoice
        rw [hhead, hindex]
        rfl
      rw [ownText_of_tail htail]
      split
      · rfl
      next hother =>
        rw [firstContent]
        cases hlist : (choicesOf chunk).head? with
        | none => rfl
        | some choice =>
            by_contra hne
            apply hother
            have hindex := hone.first chunk hchunk choice hlist hne
            rw [hhead] at hindex
            rw [hlist]
            exact hindex.symm

theorem responses_text_iff (h : Assembled chunks response) (horder : InOrder chunks) :
    String.join (chunks.map firstContent) = firstText response ↔ OneOutput chunks response := by
  refine ⟨?_, responses_text_of_oneOutput h⟩
  intro heq
  cases hhead : (choicesOf response).head? with
  | none =>
      have hnone := List.head?_eq_none_iff.mp hhead
      have hempty := firstContent_of_no_choice h hnone
      constructor
      · intro chunk hchunk choice hchoice hne
        have hfirst := hempty chunk hchunk
        rw [firstContent, show (choicesOf chunk).head? = some choice from hchoice] at hfirst
        exact absurd hfirst hne
      · intro chunk hchunk choice hchoice hindex
        rw [hhead] at hindex
        cases hindex
  | some first =>
      -- the lowest index is listed first in a chunk or not at all
      have hbehind : ∀ chunk ∈ chunks, ∀ choice ∈ (choicesOf chunk).tail,
          choiceIndex choice ≠ choiceIndex first := by
        intro chunk hchunk choice hchoice hindex
        have hpairwise := horder chunk hchunk
        cases hlist : choicesOf chunk with
        | nil =>
            rw [hlist] at hchoice
            cases hchoice
        | cons listed rest =>
            rw [hlist] at hchoice hpairwise
            have hlt := List.rel_of_pairwise_cons hpairwise (List.mem_map_of_mem hchoice)
            have hlowest := lowest_index h hhead
              (List.mem_flatMap.mpr ⟨chunk, hchunk, hlist ▸ List.mem_cons_self⟩)
            omega
      have hown : ∀ chunk ∈ chunks, ownText (choiceIndex first) chunk =
          if (choicesOf chunk).head?.map choiceIndex = some (choiceIndex first) then
            firstContent chunk else "" := by
        intro chunk hchunk
        apply ownText_of_tail
        intro choice hchoice hindex
        exact absurd hindex (hbehind chunk hchunk choice hchoice)
      rw [firstText_eq h hhead] at heq
      have hsplit : ∀ chunk ∈ chunks, ownText (choiceIndex first) chunk = firstContent chunk ∨
          ownText (choiceIndex first) chunk = "" := by
        intro chunk hchunk
        rw [hown chunk hchunk]
        split
        · exact .inl rfl
        · exact .inr rfl
      have hkept := (join_kept_iff hsplit).mp heq
      constructor
      · intro chunk hchunk choice hchoice hne
        have hhere : (choicesOf chunk).head? = some choice := hchoice
        have hsame := hkept chunk hchunk
        rw [hown chunk hchunk, firstContent, hhere] at hsame
        rw [hhead]
        by_contra hother
        rw [if_neg (fun heq => hother heq.symm)] at hsame
        exact hne hsame.symm
      · intro chunk hchunk choice hchoice hindex
        rw [hhead] at hindex
        exact absurd (Option.some.inj hindex).symm (hbehind chunk hchunk choice hchoice)

theorem responses_agree_iff (h : Assembled chunks response) {body : JsonObject}
    (houtput : outputText body = some (firstText response))
    (husage : body.get "usage" = orElse (response.get "usage") (.dict zeroUsage)) :
    ResponsesAgree (chunks.map responsesOut) body ↔
      String.join (chunks.map firstContent) = firstText response ∧ CountsNothing chunks := by
  have hcounts : usageCounts (lastUsage (chunks.map responsesOut)) =
      usageCounts (body.get "usage") ↔ CountsNothing chunks :=
    usage_agrees_iff (fun _ => rfl) h husage
  constructor
  · intro hagree
    have htext := hagree.text
    rw [deltas_eq, houtput] at htext
    exact ⟨Option.some.inj htext, hcounts.mp hagree.usage⟩
  · rintro ⟨htext, hzero⟩
    refine ⟨?_, hcounts.mpr hzero⟩
    rw [deltas_eq, houtput, htext]

end Responses

/-! ## Every stream has an assembled response -/

section Assembling

variable (chunks : List JsonObject)

def indices : List ℤ :=
  ((chunks.flatMap choicesOf).map choiceIndex).dedup.mergeSort fun i j => i ≤ j

def assembledChoice (i : ℤ) : JsonObject :=
  [("index", .int i),
    ("message", .dict [("role", .str "assistant"),
      ("content", .str (carriedByStream chunks i).content),
      ("tool_calls", .list (carriedByStream chunks i).toolCalls)]),
    ("finish_reason", match (carriedByStream chunks i).finishReason with
      | some reason => .str reason
      | none => .null)]

def assemble : JsonObject :=
  let first := chunks.headD []
  [("id", first.get "id"), ("object", .str "chat.completion"), ("created", first.get "created"),
    ("model", first.get "model"),
    ("choices", .list ((indices chunks).map fun i => .dict (assembledChoice chunks i))),
    ("usage", lastUsage chunks)]

theorem mem_indices (i : ℤ) :
    i ∈ indices chunks ↔ i ∈ (chunks.flatMap choicesOf).map choiceIndex := by
  rw [indices, List.mem_mergeSort, List.mem_dedup]

theorem indices_pairwise : (indices chunks).Pairwise (· < ·) := by
  have hle : (indices chunks).Pairwise fun i j => decide (i ≤ j) = true := by
    apply List.pairwise_mergeSort
    · intro i j k hij hjk
      simp only [decide_eq_true_eq] at hij hjk ⊢
      exact hij.trans hjk
    · intro i j
      simp only [Bool.or_eq_true, decide_eq_true_eq]
      exact le_total i j
  have hnodup : (indices chunks).Nodup :=
    (List.mergeSort_perm _ _).nodup_iff.mpr (List.nodup_dedup _)
  refine (hle.and hnodup).imp ?_
  rintro i j ⟨hij, hne⟩
  exact lt_of_le_of_ne (of_decide_eq_true hij) hne

theorem assemble_list : (assemble chunks).get "choices" =
    .list (((indices chunks).map (assembledChoice chunks)).map .dict) := by
  rw [List.map_map]
  rfl

theorem assemble_choices : choicesOf (assemble chunks) =
    (indices chunks).map (assembledChoice chunks) := choicesOf_wellFormed (assemble_list chunks)

theorem assembledChoice_index (i : ℤ) : choiceIndex (assembledChoice chunks i) = i := rfl

theorem assembledChoice_finish (i : ℤ) :
    finishOf (assembledChoice chunks i) = (carriedByStream chunks i).finishReason := by
  cases hreason : (carriedByStream chunks i).finishReason with
  | none => simp [finishOf, assembledChoice, hreason, JsonObject.get, JsonObject.get?]
  | some reason => simp [finishOf, assembledChoice, hreason, JsonObject.get, JsonObject.get?]

theorem carried_assembledChoice (i : ℤ) :
    carriedBy "message" [assembledChoice chunks i] i = carriedByStream chunks i := by
  rw [carriedBy_cons, carriedBy_nil, assembledChoice_index, if_pos rfl]
  apply Carried.ext
  · exact String.append_empty
  · exact List.append_nil _
  · exact (Option.none_or).trans (assembledChoice_finish chunks i)

theorem filter_assembled (i : ℤ) :
    ((indices chunks).map (assembledChoice chunks)).filter (fun choice => choiceIndex choice = i) =
      if i ∈ indices chunks then [assembledChoice chunks i] else [] := by
  rw [List.filter_map]
  have hfilter : (indices chunks).filter
      ((fun choice => decide (choiceIndex choice = i)) ∘ assembledChoice chunks) =
      List.replicate ((indices chunks).count i) i := List.filter_eq i
  rw [hfilter]
  split
  next hmem =>
    have hnodup : (indices chunks).Nodup := (indices_pairwise chunks).imp fun hlt => hlt.ne
    rw [List.count_eq_one_of_mem hnodup hmem]
    rfl
  next hmem =>
    rw [List.count_eq_zero_of_not_mem hmem]
    rfl

theorem assembled_assemble : Assembled chunks (assemble chunks) where
  choices := by
    refine ⟨_, assemble_list chunks, ?_⟩
    intro choice hchoice
    obtain ⟨i, -, rfl⟩ := List.mem_map.mp hchoice
    refine ⟨⟨i, rfl⟩, ⟨_, rfl, .inr ⟨_, rfl⟩⟩, ?_⟩
    cases hreason : (carriedByStream chunks i).finishReason with
    | none => exact .inl (by simp [assembledChoice, hreason, JsonObject.get, JsonObject.get?])
    | some reason =>
        exact .inr ⟨reason, by simp [assembledChoice, hreason, JsonObject.get, JsonObject.get?]⟩
  ordered := by
    rw [assemble_choices, List.map_map]
    exact (indices_pairwise chunks).map _ fun _ _ hlt => hlt
  indices := by
    intro i
    rw [assemble_choices, List.map_map, ← mem_indices]
    simp [choiceIndex, assembledChoice, JsonObject.get, JsonObject.get?]
  carried := by
    intro i
    by_cases hmem : i ∈ indices chunks
    · rw [← carried_assembledChoice, carriedByResponse, assemble_choices]
      have hmine := filter_assembled chunks i
      rw [if_pos hmem] at hmine
      have hself : [assembledChoice chunks i].filter (fun choice => choiceIndex choice = i) =
          [assembledChoice chunks i] := by simp [assembledChoice_index]
      simp only [carriedBy, hmine, hself]
    · have hmine := filter_assembled chunks i
      rw [if_neg hmem] at hmine
      have hnone :
          (chunks.flatMap choicesOf).filter (fun choice => choiceIndex choice = i) = [] := by
        rw [List.filter_eq_nil_iff]
        intro choice hchoice hindex
        apply hmem
        rw [mem_indices]
        exact List.mem_map.mpr ⟨choice, hchoice, of_decide_eq_true hindex⟩
      rw [carriedByResponse, assemble_choices, carriedByStream]
      simp only [carriedBy, hmine, hnone]
      rfl
  usage := rfl

end Assembling

/-- The line adapters say what the body adapters say of the assembled response where no content is
null, only the lowest index has text for Responses, and no token is counted. Finish reasons agree in
any case. -/
theorem adapters_agree_iff {py : Python} {lines : List String} {response : JsonObject}
    (hform : ∀ line ∈ lines, ChunkLine py line)
    (hassembled : Assembled (chunksOf py lines) response) :
    ∃ sent sent' body body',
      lines.mapM (streamChatToCompletionsLine py) = some sent ∧
      chatResponseToCompletionsResponse py response = some body ∧
      lines.mapM (streamChatToResponsesLine py) = some sent' ∧
      chatResponseToResponsesResponse py response = some body' ∧
      (CompletionsAgree (sent.filterMap SentLine.object?) body ↔
        NoNullContent (chunksOf py lines) ∧ CountsNothing (chunksOf py lines)) ∧
      (∀ i, lastFinish ((sent.filterMap SentLine.object?).flatMap choicesOf) i =
        lastFinish (choicesOf body) i) ∧
      (OneOutput (chunksOf py lines) response → CountsNothing (chunksOf py lines) →
        ResponsesAgree (sent'.filterMap SentLine.object?) body') ∧
      (InOrder (chunksOf py lines) →
        (ResponsesAgree (sent'.filterMap SentLine.object?) body' ↔
          OneOutput (chunksOf py lines) response ∧ CountsNothing (chunksOf py lines))) := by
  have hchunks := chunksOf_wellFormed hform
  obtain ⟨sent, hsent, hobjects⟩ :=
    translateLines_sent (fun _ => completionsChunk_wellFormed) hform
  obtain ⟨sent', hsent', hobjects'⟩ :=
    translateLines_sent (fun _ => responsesChunk_wellFormed py) hform
  obtain ⟨body', hbody', houtput, husage⟩ := responsesBody_assembled py hassembled
  have hresponses := responses_agree_iff hassembled houtput husage
  refine ⟨sent, sent', completionsBody response, body', hsent,
    completionsBody_assembled hassembled, hsent', hbody', ?_, ?_, ?_, ?_⟩
  · rw [hobjects]
    exact completions_agree_iff hchunks hassembled
  · intro i
    rw [hobjects]
    exact lastFinish_agrees hassembled i
  · intro hone hzero
    rw [hobjects']
    exact hresponses.mpr ⟨responses_text_of_oneOutput hassembled hone, hzero⟩
  · intro horder
    rw [hobjects', hresponses, responses_text_iff hassembled horder]

namespace Counterexample

def choice (index : ℤ) (content finishReason : JsonValue) : JsonObject :=
  [("index", .int index), ("delta", .dict [("content", content)]), ("finish_reason", finishReason)]

def chunk (choices : List JsonObject) (usage : JsonValue) : JsonObject :=
  [("id", .str "chatcmpl-1"), ("created", .int 1700000000), ("model", .str "gpt"),
    ("choices", .list (choices.map .dict)), ("usage", usage)]

def countedUsage : JsonObject :=
  [("prompt_tokens", .int 3), ("completion_tokens", .int 1), ("total_tokens", .int 4)]

def role : JsonObject := chunk [choice 0 .null .null] .null

def greeting : JsonObject := chunk [choice 0 (.str "hi") (.str "stop")] .null

def counted : JsonObject := chunk [] (.dict countedUsage)

/-- The JSON text of a chunk, from those of its choices and its usage. -/
def chunkText (choices usage : String) : String :=
  "\x7b\"id\":\"chatcmpl-1\",\"created\":1700000000,\"model\":\"gpt\",\"choices\":[" ++ choices ++
    "],\"usage\":" ++ usage ++ "\x7d"

def choiceJson (content finishReason : String) : String :=
  "\x7b\"index\":0,\"delta\":\x7b\"content\":" ++ content ++ "\x7d,\"finish_reason\":" ++
    finishReason ++ "\x7d"

def roleText : String := chunkText (choiceJson "null" "null") "null"

def greetingText : String := chunkText (choiceJson "\"hi\"" "\"stop\"") "null"

def countedText : String :=
  chunkText "" "\x7b\"prompt_tokens\":3,\"completion_tokens\":1,\"total_tokens\":4\x7d"

def python : Python where
  loads text :=
    if text = roleText then some (.dict role)
    else if text = greetingText then some (.dict greeting)
    else if text = countedText then some (.dict counted) else none
  reprText _ := ""

def lines : List String :=
  ["data: " ++ roleText, "data: " ++ greetingText, "data: " ++ countedText, "data: [DONE]"]

theorem choice_wellFormed (index : ℤ) {content finishReason : JsonValue}
    (hcontent : TextOrNull content)
    (hfinish : finishReason = .null ∨ ∃ reason, finishReason = .str reason ∧ reason ≠ "") :
    WellFormedChoice (choice index content finishReason) where
  index := ⟨index, rfl⟩
  delta := .inr ⟨_, rfl, hcontent, .inl rfl⟩
  finishReason := hfinish

theorem chunk_wellFormed {choices : List JsonObject} {usage : JsonValue}
    (hchoices : ∀ choice ∈ choices, WellFormedChoice choice)
    (husage : usage = .null ∨ ∃ fields, usage = .dict fields ∧ WellFormedUsage fields) :
    WellFormedChunk (chunk choices usage) where
  id := .inr ⟨_, rfl⟩
  created := .inr ⟨_, rfl⟩
  model := .inr ⟨_, rfl⟩
  choices := .inr ⟨choices, rfl, hchoices⟩
  usage := husage

theorem role_wellFormed : WellFormedChunk role :=
  chunk_wellFormed (List.forall_mem_singleton.mpr (choice_wellFormed 0 (.inl rfl) (.inl rfl)))
    (.inl rfl)

theorem greeting_wellFormed : WellFormedChunk greeting :=
  chunk_wellFormed (List.forall_mem_singleton.mpr
    (choice_wellFormed 0 (.inr ⟨_, rfl⟩) (.inr ⟨_, rfl, by decide⟩))) (.inl rfl)

theorem counted_wellFormed : WellFormedChunk counted :=
  chunk_wellFormed (List.forall_mem_nil _)
    (.inr ⟨_, rfl, .inr ⟨3, rfl⟩, .inr ⟨1, rfl⟩, .inr ⟨4, rfl⟩⟩)

theorem python_wellFormed (line : String) : ChunkLine python line := by
  intro payload _ _ value hloads
  simp only [python] at hloads
  split at hloads
  · cases hloads
    exact ⟨role, rfl, role_wellFormed⟩
  · split at hloads
    · cases hloads
      exact ⟨greeting, rfl, greeting_wellFormed⟩
    · split at hloads
      · cases hloads
        exact ⟨counted, rfl, counted_wellFormed⟩
      · cases hloads

theorem loads_texts : python.loads roleText = some (.dict role) ∧
    python.loads greetingText = some (.dict greeting) ∧
    python.loads countedText = some (.dict counted) := by
  have hgreeting : greetingText ≠ roleText := by decide +kernel
  have hcounted : countedText ≠ roleText ∧ countedText ≠ greetingText := by decide +kernel
  simp [python, hgreeting, hcounted]

theorem lineChunk_of_payload {payload : String} {chunk : JsonObject}
    (hpayload : payload.toList.all (fun c => !isSpace c) = true) (hdone : payload ≠ "[DONE]")
    (hloads : python.loads payload = some (.dict chunk)) :
    lineChunk python ("data: " ++ payload) = some chunk := by
  simp only [lineChunk, dataPayload_data (no_space_of_all hpayload), hdone, if_false, hloads]

theorem lineChunk_greeting : lineChunk python ("data: " ++ greetingText) = some greeting :=
  lineChunk_of_payload (by decide +kernel) (by decide +kernel) loads_texts.2.1

theorem lineChunk_done : lineChunk python "data: [DONE]" = none := by
  have hpayload : dataPayload "data: [DONE]" = some "[DONE]" := by decide +kernel
  simp only [lineChunk, hpayload, if_true]

theorem chunksOf_lines : chunksOf python lines = [role, greeting, counted] := by
  have hrole : lineChunk python ("data: " ++ roleText) = some role :=
    lineChunk_of_payload (by decide +kernel) (by decide +kernel) loads_texts.1
  have hcounted : lineChunk python ("data: " ++ countedText) = some counted :=
    lineChunk_of_payload (by decide +kernel) (by decide +kernel) loads_texts.2.2
  simp [chunksOf, lines, hrole, lineChunk_greeting, hcounted, lineChunk_done]

/-- The bodies count four tokens and have a text for choice 0; the streams count none, and the first
text of the completions stream is null. -/
theorem counted_stream_disagrees :
    (∀ line ∈ lines, ChunkLine python line) ∧
    ∃ response sent sent' body body', Assembled (chunksOf python lines) response ∧
      lines.mapM (streamChatToCompletionsLine python) = some sent ∧
      chatResponseToCompletionsResponse python response = some body ∧
      lines.mapM (streamChatToResponsesLine python) = some sent' ∧
      chatResponseToResponsesResponse python response = some body' ∧
      ¬CompletionsAgree (sent.filterMap SentLine.object?) body ∧
      ¬ResponsesAgree (sent'.filterMap SentLine.object?) body' := by
  have hform : ∀ line ∈ lines, ChunkLine python line := fun line _ => python_wellFormed line
  have hassembled := assembled_assemble (chunksOf python lines)
  obtain ⟨sent, hsent, hobjects⟩ :=
    translateLines_sent (fun _ => completionsChunk_wellFormed) hform
  obtain ⟨sent', hsent', hobjects'⟩ :=
    translateLines_sent (fun _ => responsesChunk_wellFormed python) hform
  obtain ⟨body', hbody', houtput, husage⟩ := responsesBody_assembled python hassembled
  have hcounts : ¬CountsNothing (chunksOf python lines) := by
    rw [chunksOf_lines]
    intro hzero
    have hfour : usageCounts (lastUsage [role, greeting, counted]) = some ⟨3, 1, 4⟩ := rfl
    rw [CountsNothing, hfour] at hzero
    cases hzero
  refine ⟨hform, _, sent, sent', _, body', hassembled, hsent, completionsBody_assembled hassembled,
    hsent', hbody', ?_, ?_⟩
  · rw [hobjects]
    intro hagree
    exact hcounts ((completions_agree_iff (chunksOf_wellFormed hform) hassembled).mp hagree).2
  · rw [hobjects']
    intro hagree
    exact hcounts ((responses_agree_iff hassembled houtput husage).mp hagree).2

/-- A stream of one text without a usage. -/
theorem adapters_agree_greeting :
    ∃ sent sent' body body',
      ["data: " ++ greetingText, "data: [DONE]"].mapM (streamChatToCompletionsLine python) =
        some sent ∧
      chatResponseToCompletionsResponse python (assemble [greeting]) = some body ∧
      ["data: " ++ greetingText, "data: [DONE]"].mapM (streamChatToResponsesLine python) =
        some sent' ∧
      chatResponseToResponsesResponse python (assemble [greeting]) = some body' ∧
      CompletionsAgree (sent.filterMap SentLine.object?) body ∧
      ResponsesAgree (sent'.filterMap SentLine.object?) body' := by
  have hchunks : chunksOf python ["data: " ++ greetingText, "data: [DONE]"] = [greeting] := by
    simp [chunksOf, lineChunk_greeting, lineChunk_done]
  have hassembled := assembled_assemble [greeting]
  rw [← hchunks] at hassembled
  obtain ⟨sent, sent', body, body', hsent, hbody, hsent', hbody', hcompletions, -, hresponses, -⟩ :=
    adapters_agree_iff (fun line _ => python_wellFormed line) hassembled
  rw [hchunks] at hcompletions hresponses hbody hbody'
  have hzero : CountsNothing [greeting] := rfl
  refine ⟨sent, sent', body, body', hsent, hbody, hsent', hbody', hcompletions.mpr ⟨?_, hzero⟩,
    hresponses ⟨?_, ?_⟩ hzero⟩
  · intro choice hchoice
    have hone : choice = Counterexample.choice 0 (.str "hi") (.str "stop") :=
      List.mem_singleton.mp hchoice
    rw [hone]
    nofun
  · intro chunk hchunk choice hchoice _
    rw [List.mem_singleton.mp hchunk] at hchoice
    cases hchoice
    have hindices : indices [greeting] = [0] := List.mergeSort_singleton 0
    rw [assemble_choices, hindices]
    rfl
  · intro chunk hchunk choice hchoice
    rw [List.mem_singleton.mp hchunk] at hchoice
    cases hchoice

end Counterexample

end TextAdapters
