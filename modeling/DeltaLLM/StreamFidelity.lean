import DeltaLLM.StreamIsolation
import Mathlib.Algebra.BigOperators.Group.List.Lemmas

/-! # What a cached stream keeps

The text, the tool calls and the finish reason that a stream, a stored response and its replay
carry for each choice index, and when they are the same.
-/
namespace StreamFidelity

open JsonValues
open PythonText
open StreamingCache

/-! ## What a client reads -/

def choicesOf (fields : JsonObject) : List JsonObject :=
  match JsonObject.get fields "choices" with
  | .list choices => choices.filterMap fun
      | .dict choice => some choice
      | _ => none
  | _ => []

def choiceIndex (choice : JsonObject) : ℤ :=
  match JsonObject.get choice "index" with
  | .int n => n
  | _ => 0

/-- The delta of a chunk's choice, or the message of a response's. -/
def partOf (name : String) (choice : JsonObject) : JsonObject :=
  match JsonObject.get choice name with
  | .dict fields => fields
  | _ => []

def contentOf (part : JsonObject) : String :=
  match JsonObject.get part "content" with
  | .str content => content
  | _ => ""

def toolCallsOf (part : JsonObject) : List JsonValue :=
  match JsonObject.get part "tool_calls" with
  | .list calls => calls
  | _ => []

def finishOf (choice : JsonObject) : Option String :=
  match JsonObject.get choice "finish_reason" with
  | .str reason => some reason
  | _ => none

@[ext] structure Carried where
  content : String
  toolCalls : List JsonValue
  finishReason : Option String

/-- What a list of choices carries for one index: the texts and the tool calls in order and the last
finish reason. -/
def carriedBy (name : String) (choices : List JsonObject) (i : ℤ) : Carried :=
  let mine := choices.filter fun choice => choiceIndex choice = i
  { content := String.join (mine.map fun choice => contentOf (partOf name choice))
    toolCalls := mine.flatMap fun choice => toolCallsOf (partOf name choice)
    finishReason := (mine.filterMap finishOf).getLast? }

def carriedByStream (chunks : List JsonObject) (i : ℤ) : Carried :=
  carriedBy "delta" (chunks.flatMap choicesOf) i

def carriedByResponse (response : JsonObject) (i : ℤ) : Carried :=
  carriedBy "message" (choicesOf response) i

/-! ## Well-formed chunks -/

def TextOrNull (value : JsonValue) : Prop := value = .null ∨ ∃ text, value = .str text

def IntOrNull (value : JsonValue) : Prop := value = .null ∨ ∃ n, value = .int n

structure WellFormedDelta (delta : JsonObject) : Prop where
  content : TextOrNull (delta.get "content")
  toolCalls : delta.get "tool_calls" = .null ∨ ∃ calls, delta.get "tool_calls" = .list calls

structure WellFormedChoice (choice : JsonObject) : Prop where
  index : ∃ n, choice.get "index" = .int n
  delta : choice.get "delta" = .null ∨
    ∃ delta, choice.get "delta" = .dict delta ∧ WellFormedDelta delta
  finishReason : choice.get "finish_reason" = .null ∨
    ∃ reason, choice.get "finish_reason" = .str reason ∧ reason ≠ ""

structure WellFormedUsage (usage : JsonObject) : Prop where
  promptTokens : IntOrNull (usage.get "prompt_tokens")
  completionTokens : IntOrNull (usage.get "completion_tokens")
  totalTokens : IntOrNull (usage.get "total_tokens")

structure WellFormedChunk (chunk : JsonObject) : Prop where
  id : TextOrNull (chunk.get "id")
  created : IntOrNull (chunk.get "created")
  model : TextOrNull (chunk.get "model")
  choices : chunk.get "choices" = .null ∨
    ∃ choices : List JsonObject, chunk.get "choices" = .list (choices.map .dict) ∧
      ∀ choice ∈ choices, WellFormedChoice choice
  usage : chunk.get "usage" = .null ∨
    ∃ usage, chunk.get "usage" = .dict usage ∧ WellFormedUsage usage

/-- The chunks the first client reads from the lines. -/
def delivered (py : Python) (lines : List String) : List JsonObject :=
  (lines.filterMap linePayload).filterMap fun payload =>
    match py.loads payload with
    | some (.dict chunk) => some chunk
    | _ => none

/-- Every data line holds a well-formed chunk. -/
def WellFormedLines (py : Python) (lines : List String) : Prop :=
  ∀ payload ∈ lines.filterMap linePayload,
    ∃ chunk, py.loads payload = some (.dict chunk) ∧ WellFormedChunk chunk

/-! ## What the accumulator keeps -/

/-- The text of the first listed choice. -/
def firstContent (chunk : JsonObject) : String :=
  ((choicesOf chunk).head?.map fun choice => contentOf (partOf "delta" choice)).getD ""

def firstFinish (chunk : JsonObject) : Option String := (choicesOf chunk).head?.bind finishOf

variable {py : Python} {limits : Limits}

theorem choicesOf_wellFormed {chunk : JsonObject} {choices : List JsonObject}
    (h : chunk.get "choices" = .list (choices.map .dict)) : choicesOf chunk = choices := by
  simp only [choicesOf, h, List.filterMap_map]
  induction choices with
  | nil => rfl
  | cons choice choices ih => simp

theorem WellFormedChunk.choice_of_mem {chunk choice : JsonObject} (h : WellFormedChunk chunk)
    (hmem : choice ∈ choicesOf chunk) : WellFormedChoice choice := by
  rcases h.choices with hnull | ⟨choices, hlist, hform⟩
  · simp [choicesOf, hnull] at hmem
  · rw [choicesOf_wellFormed hlist] at hmem
    exact hform choice hmem

theorem tokenCount_wellFormed {usage : JsonObject} {name : String}
    (h : IntOrNull (usage.get name)) :
    ∃ n, tokenCount usage name = some n := by
  rcases h with h | ⟨n, h⟩
  · exact ⟨0, by simp [tokenCount, h, orElse, JsonValue.truthy, toInt]⟩
  · by_cases hn : n = 0
    · exact ⟨0, by simp [tokenCount, h, hn, orElse, JsonValue.truthy, toInt]⟩
    · exact ⟨n, by simp [tokenCount, h, hn, orElse, JsonValue.truthy, toInt]⟩

theorem readUsage_wellFormed (counts : Usage) {chunk : JsonObject} (h : WellFormedChunk chunk) :
    ∃ counts', readUsage counts (chunk.get "usage") = some counts' := by
  rcases h.usage with hnull | ⟨usage, hdict, hform⟩
  · exact ⟨counts, by simp [readUsage, hnull]⟩
  · obtain ⟨promptTokens, hprompt⟩ := tokenCount_wellFormed hform.promptTokens
    obtain ⟨completionTokens, hcompletion⟩ := tokenCount_wellFormed hform.completionTokens
    obtain ⟨totalTokens, htotal⟩ := tokenCount_wellFormed hform.totalTokens
    exact ⟨⟨promptTokens, completionTokens, totalTokens⟩, by
      simp [readUsage, hdict, hprompt, hcompletion, htotal]⟩

theorem readCreated_wellFormed (created : Option ℤ) {chunk : JsonObject}
    (h : WellFormedChunk chunk) :
    ∃ created', readCreated created (chunk.get "created") = some created' := by
  cases created with
  | some n => exact ⟨some n, rfl⟩
  | none =>
      rcases h.created with hnull | ⟨n, hint⟩
      · exact ⟨none, by simp [readCreated, hnull]⟩
      · exact ⟨some n, by simp [readCreated, hint, toInt]⟩

/-- Two accumulators that differ in the header fields only. -/
def SameBody (acc acc' : Accumulator) : Prop :=
  acc'.contentParts = acc.contentParts ∧ acc'.finishReason = acc.finishReason ∧
    acc'.disabledReason = acc.disabledReason

theorem addHeader_wellFormed (py : Python) (acc : Accumulator) {chunk : JsonObject}
    (h : WellFormedChunk chunk) :
    ∃ acc', acc.addHeader py chunk = some acc' ∧ SameBody acc acc' := by
  obtain ⟨created, hcreated⟩ := readCreated_wellFormed acc.created h
  obtain ⟨usage, husage⟩ := readUsage_wellFormed acc.usage h
  simp only [Accumulator.addHeader, hcreated, husage]
  exact ⟨_, rfl, rfl, rfl, rfl⟩

theorem firstChoice_wellFormed {chunk : JsonObject} (h : WellFormedChunk chunk) :
    firstChoice chunk = some (choicesOf chunk).head? := by
  rcases h.choices with hnull | ⟨choices, hlist, hform⟩
  · simp [firstChoice, choicesOf, hnull, JsonValue.truthy]
  · rw [choicesOf_wellFormed hlist]
    cases choices with
    | nil => simp [firstChoice, hlist, JsonValue.truthy]
    | cons choice choices =>
        have hne : choice ≠ [] := by
          rintro rfl
          obtain ⟨n, hn⟩ := (hform [] List.mem_cons_self).index
          simp [JsonObject.get, JsonObject.get?] at hn
        simp [firstChoice, hlist, JsonValue.truthy, hne]

theorem deltaContent_wellFormed {choice : JsonObject} (h : WellFormedChoice choice) :
    deltaContent py choice = some (contentOf (partOf "delta" choice)) := by
  have hempty : contentOf [] = "" := rfl
  rcases h.delta with hnull | ⟨delta, hdict, hform⟩
  · simp [deltaContent, hnull, JsonValue.truthy, partOf, hempty]
  · cases delta with
    | nil => simp [deltaContent, hdict, JsonValue.truthy, partOf, hempty]
    | cons field fields =>
        simp only [deltaContent, hdict, JsonValue.truthy, partOf, contentOf]
        rcases hform.content with hcontent | ⟨text, hcontent⟩
        · simp [hcontent, orElse, JsonValue.truthy, Python.text]
        · by_cases htext : text = ""
          · simp [hcontent, orElse, JsonValue.truthy, Python.text, htext]
          · simp [hcontent, orElse, JsonValue.truthy, Python.text, htext]

theorem finishReason_wellFormed (py : Python) {choice : JsonObject} (h : WellFormedChoice choice)
    (reason : String) :
    (if (choice.get "finish_reason").truthy then py.text (choice.get "finish_reason") else reason) =
      (finishOf choice).getD reason := by
  rcases h.finishReason with hnull | ⟨text, htext, hne⟩
  · simp [hnull, JsonValue.truthy, finishOf]
  · simp [htext, JsonValue.truthy, finishOf, hne, Python.text]

/-- What a chunk or a line does to the text and the finish reason, unless it disables the stream. -/
def Keeps (acc acc' : Accumulator) (content : String) (finish : Option String) : Prop :=
  acc'.disabledReason = none →
    String.join acc'.contentParts = String.join acc.contentParts ++ content ∧
      acc'.finishReason = finish.getD acc.finishReason

theorem disable_disabled (acc : Accumulator) (reason : String) :
    (acc.disable reason).disabledReason ≠ none := by
  unfold Accumulator.disable
  split
  next h => simpa [Option.isSome_iff_ne_none] using h
  next => simp

theorem addContent_keeps {acc acc' : Accumulator} {content : String}
    (h : acc.addContent limits content = (acc', none)) :
    acc'.finishReason = acc.finishReason ∧
      String.join acc'.contentParts = String.join acc.contentParts ++ content := by
  unfold Accumulator.addContent at h
  split at h
  next hempty =>
    cases h
    simp [hempty]
  next =>
    split at h
    · cases h
    · split at h
      · cases h
      · cases h
        simp [String.join_append, String.join_cons]

/-- A well-formed chunk adds what its first listed choice has. -/
theorem takeChunk_keeps (py : Python) (limits : Limits) {acc : Accumulator}
    (henabled : acc.disabledReason = none)
    {chunk : JsonObject} (h : WellFormedChunk chunk) :
    ∃ acc', acc.takeChunk py limits chunk = some acc' ∧
      Keeps acc acc' (firstContent chunk) (firstFinish chunk) := by
  obtain ⟨header, hheader, hparts, hfinish, hdisabled⟩ := addHeader_wellFormed py acc h
  simp only [Accumulator.takeChunk, Accumulator.addChunk, henabled, hheader,
    firstChoice_wellFormed h,
    firstContent, firstFinish]
  cases hfirst : (choicesOf chunk).head? with
  | none => exact ⟨header, rfl, fun _ => by simp [hparts, hfinish]⟩
  | some choice =>
      have hchoice : WellFormedChoice choice := h.choice_of_mem (List.mem_of_head? hfirst)
      have hreason : (if (choice.get "finish_reason").truthy then
          { header with finishReason := py.text (choice.get "finish_reason") } else header) =
          { header with finishReason := (finishOf choice).getD header.finishReason } := by
        rw [← finishReason_wellFormed py hchoice header.finishReason]
        split <;> rfl
      simp only [Option.bind_eq_bind, Option.bind_some, deltaContent_wellFormed hchoice, hreason]
      cases hadd : Accumulator.addContent limits
          { header with finishReason := (finishOf choice).getD header.finishReason }
          (contentOf (partOf "delta" choice)) with
      | mk acc' reason =>
          cases reason with
          | some reason =>
              exact ⟨_, rfl, fun hnone => absurd hnone (disable_disabled _ _)⟩
          | none =>
              obtain ⟨hkept, hjoined⟩ := addContent_keeps hadd
              refine ⟨acc', rfl, fun _ => ⟨?_, ?_⟩⟩
              · simpa [hparts] using hjoined
              · simpa [hfinish] using hkept

theorem addLine_disabled {acc : Accumulator} (h : acc.disabledReason ≠ none) (line : String) :
    acc.addLine py limits line = some acc := by
  unfold Accumulator.addLine
  split
  · rfl
  · simp [Option.isSome_iff_ne_none, h]

theorem feed_disabled {acc acc' : Accumulator} {lines : List String}
    (h : acc.disabledReason ≠ none) (hfeed : feed py limits acc lines = some acc') :
      acc' = acc := by
  induction lines with
  | nil => exact (Option.some.inj hfeed).symm
  | cons line lines ih =>
      rw [feed, List.foldlM_cons, addLine_disabled h] at hfeed
      exact ih hfeed

/-- What the lines of a stored stream left: the texts and the last finish reason of the first listed
choices. -/
theorem feed_keeps {acc acc' : Accumulator} {lines : List String} (hform : WellFormedLines py lines)
    (hfeed : feed py limits acc lines = some acc') (henabled : acc'.disabledReason = none) :
    String.join acc'.contentParts =
        String.join acc.contentParts ++ String.join ((delivered py lines).map firstContent) ∧
      acc'.finishReason =
        ((delivered py lines).filterMap firstFinish).getLast?.getD acc.finishReason := by
  induction lines generalizing acc with
  | nil =>
      cases hfeed
      simp [delivered]
  | cons line lines ih =>
      rw [feed, List.foldlM_cons] at hfeed
      cases hpayload : linePayload line with
      | none =>
          have hsame : acc.addLine py limits line = some acc := by
            simp [Accumulator.addLine, hpayload]
          rw [hsame] at hfeed
          simp only [WellFormedLines, List.filterMap_cons, hpayload] at hform
          simpa [delivered, hpayload] using ih hform hfeed
      | some payload =>
          simp only [WellFormedLines, List.filterMap_cons, hpayload, List.mem_cons,
            forall_eq_or_imp] at hform
          obtain ⟨⟨chunk, hloads, hchunk⟩, hrest⟩ := hform
          -- a disabled accumulator would have stayed disabled
          have hacc : acc.disabledReason = none := by
            by_contra hdisabled
            rw [addLine_disabled hdisabled] at hfeed
            exact hdisabled (feed_disabled hdisabled hfeed ▸ henabled)
          obtain ⟨acc₁, htake, hkeeps⟩ := takeChunk_keeps py limits hacc hchunk
          have hadd : acc.addLine py limits line = some acc₁ := by
            simpa [Accumulator.addLine, hpayload, hacc, hloads] using htake
          rw [hadd] at hfeed
          have henabled₁ : acc₁.disabledReason = none := by
            by_contra hdisabled
            exact hdisabled (feed_disabled hdisabled hfeed ▸ henabled)
          obtain ⟨hcontent₁, hfinish₁⟩ := hkeeps henabled₁
          obtain ⟨hcontent, hfinish⟩ := ih hrest hfeed
          have hdelivered : delivered py (line :: lines) = chunk :: delivered py lines := by
            simp [delivered, hpayload, hloads]
          rw [hdelivered, hcontent, hfinish, hcontent₁, hfinish₁]
          refine ⟨by simp [String.join_cons, String.append_assoc], ?_⟩
          rw [List.filterMap_cons]
          cases hfirst : firstFinish chunk with
          | none => rfl
          | some reason => simp [List.getLast?_cons]

theorem wellFormed_delivered {lines : List String} (hform : WellFormedLines py lines)
    {chunk : JsonObject} (hmem : chunk ∈ delivered py lines) : WellFormedChunk chunk := by
  obtain ⟨payload, hpayload, hchunk⟩ := List.mem_filterMap.mp hmem
  obtain ⟨loaded, hloads, hloaded⟩ := hform payload hpayload
  have heq : loaded = chunk := by simpa [hloads] using hchunk
  exact heq ▸ hloaded

theorem lastFinish_ne_empty {lines : List String} (hform : WellFormedLines py lines) :
    ((delivered py lines).filterMap firstFinish).getLast?.getD "stop" ≠ "" := by
  cases hlast : ((delivered py lines).filterMap firstFinish).getLast? with
  | none => decide
  | some reason =>
      obtain ⟨chunk, hchunk, hfirst⟩ := List.mem_filterMap.mp (List.mem_of_getLast? hlast)
      obtain ⟨choice, hchoice, hfinish⟩ := Option.bind_eq_some_iff.mp hfirst
      have hform' := (wellFormed_delivered hform hchunk).choice_of_mem (List.mem_of_head? hchoice)
      rcases hform'.finishReason with hnull | ⟨text, htext, hne⟩
      · simp [finishOf, hnull] at hfinish
      · have heq : text = reason := by simpa [finishOf, htext] using hfinish
        exact heq ▸ hne

/-! ## What a stored response and its replay carry -/

/-- Text and finish reason at index 0 and nothing anywhere else. -/
def carriedAtZero (content finishReason : String) (i : ℤ) : Carried :=
  if i = 0 then ⟨content, [], some finishReason⟩ else ⟨"", [], none⟩

theorem carriedBy_cons (name : String) (choice : JsonObject) (choices : List JsonObject) (i : ℤ) :
    carriedBy name (choice :: choices) i =
      if choiceIndex choice = i then
        { content := contentOf (partOf name choice) ++ (carriedBy name choices i).content
          toolCalls := toolCallsOf (partOf name choice) ++ (carriedBy name choices i).toolCalls
          finishReason := (carriedBy name choices i).finishReason.or (finishOf choice) }
      else carriedBy name choices i := by
  by_cases hi : choiceIndex choice = i
  · cases hfinish : finishOf choice with
    | none => simp [carriedBy, hi, hfinish, String.join_cons]
    | some reason =>
        simp only [carriedBy, hi, decide_true, List.filter_cons_of_pos, List.map_cons,
          String.join_cons, List.flatMap_cons, List.filterMap_cons_some hfinish, List.getLast?_cons,
          if_true]
        cases ((choices.filter fun choice =>
          choiceIndex choice = i).filterMap finishOf).getLast? <;>
          rfl
  · simp [carriedBy, hi]

theorem carriedBy_nil (name : String) (i : ℤ) : carriedBy name [] i = ⟨"", [], none⟩ := rfl

theorem carriedByResponse_stored {acc : Accumulator} {fallback uuid : String} {now : ℤ}
    {response : JsonObject} (h : acc.buildResponse fallback uuid now = some response) (i : ℤ) :
    carriedByResponse response i =
      carriedAtZero (String.join acc.contentParts) acc.finishReason i := by
  unfold Accumulator.buildResponse at h
  split at h
  · cases h
  · cases h
    change carriedBy "message" [[("index", .int 0),
        ("message", .dict [("role", .str "assistant"),
          ("content", .str (String.join acc.contentParts))]),
        ("finish_reason", .str acc.finishReason)]] i = _
    rw [carriedBy_cons, carriedBy_nil, carriedAtZero]
    by_cases hi : i = 0
    · subst hi
      simp [choiceIndex, partOf, contentOf, toolCallsOf, finishOf, JsonObject.get, JsonObject.get?]
    · simp [choiceIndex, JsonObject.get, JsonObject.get?, hi, Ne.symm hi]

theorem join_withTails (words : List (List Char)) :
    String.join (withTails (words.map String.ofList)) =
      String.ofList ([' '].intercalate words) := by
  induction words with
  | nil => rfl
  | cons word words ih =>
      cases words with
      | nil => simp [withTails, String.join_cons]
      | cons next words =>
          have hspace : " " = String.ofList [' '] := rfl
          have hrest := ih
          simp only [List.map_cons, withTails, String.join_cons,
            List.intercalate_cons_cons] at hrest ⊢
          rw [hrest, hspace, ← String.ofList_append, ← String.ofList_append, List.append_assoc]

/-- Splitting on blanks and putting them back gives the text. -/
theorem join_withTails_splitWords (content : String) :
    String.join (withTails (splitWords content)) = content := by
  rw [splitWords, join_withTails, List.intercalate_splitOn, String.ofList_toList]

/-- One word more in front; only the last chunk has a finish reason. -/
theorem carriedByStream_replayChunk (baseId model word : String) (created : ℤ)
    (finishReason : JsonValue) (chunks : List JsonObject) (i : ℤ) :
    carriedByStream (replayChunk baseId created model word finishReason :: chunks) i =
      if i = 0 then
        { content := word ++ (carriedByStream chunks i).content
          toolCalls := (carriedByStream chunks i).toolCalls
          finishReason := (carriedByStream chunks i).finishReason.or
            (finishOf [("finish_reason", finishReason)]) }
      else carriedByStream chunks i := by
  have hchoices : carriedByStream (replayChunk baseId created model word finishReason :: chunks) i =
      carriedBy "delta" ([("index", .int 0), ("delta", .dict [("content", .str word)]),
        ("finish_reason", finishReason)] :: chunks.flatMap choicesOf) i := rfl
  rw [hchoices, carriedBy_cons]
  by_cases hi : i = 0
  · subst hi
    simp [choiceIndex, partOf, contentOf, toolCallsOf, finishOf, JsonObject.get, JsonObject.get?,
      carriedByStream]
  · simp [choiceIndex, JsonObject.get, JsonObject.get?, hi, Ne.symm hi, carriedByStream]

theorem carriedByStream_replayChunks (baseId model finishReason : String) (created : ℤ)
    {words : List String} (hne : words ≠ []) (i : ℤ) :
    carriedByStream (replayChunks baseId created model (.str finishReason) words) i =
      carriedAtZero (String.join words) finishReason i := by
  induction words with
  | nil => exact absurd rfl hne
  | cons word words ih =>
      cases words with
      | nil =>
          have hnone : carriedByStream [] i = ⟨"", [], none⟩ := rfl
          have hfinish : finishOf [("finish_reason", .str finishReason)] = some finishReason := rfl
          rw [replayChunks, carriedByStream_replayChunk, hnone, hfinish]
          simp [carriedAtZero, String.join_cons]
      | cons next words =>
          rw [replayChunks, carriedByStream_replayChunk, ih (List.cons_ne_nil next words)]
          by_cases hi : i = 0
          · simp [carriedAtZero, hi, String.join_cons]
          · simp [carriedAtZero, hi]
          · exact List.cons_ne_nil next words

theorem withTails_ne_nil {words : List String} (h : words ≠ []) : withTails words ≠ [] := by
  cases words with
  | nil => exact absurd rfl h
  | cons word words => cases words <;> simp [withTails]

/-- The words a text is replayed in. -/
def replayWords (content : String) : List String :=
  if content = "" then [""] else splitWords content

theorem join_replayWords (content : String) :
    withTails (replayWords content) ≠ [] ∧
      String.join (withTails (replayWords content)) = content := by
  unfold replayWords
  split
  next h => simp [h, withTails]
  next => exact ⟨withTails_ne_nil (by simp [splitWords]), join_withTails_splitWords content⟩

theorem responseToChunks_text {response choice message : JsonObject} {choices : List JsonValue}
    {created : ℤ} {content finishReason uuid : String} {now : ℤ}
    (hchoices : response.get "choices" = .list (.dict choice :: choices))
    (hmessage : choice.get "message" = .dict message)
    (hcontent : message.get "content" = .str content)
    (hfinish : choice.get "finish_reason" = .str finishReason) (hne : finishReason ≠ "")
    (hcreated : response.get "created" = .int created) :
    ∃ baseId created model, responseToChunks py response uuid now =
      some (replayChunks baseId created model (.str finishReason)
        (withTails (replayWords content))) := by
  have hnonempty : message ≠ [] := by
    rintro rfl
    simp [JsonObject.get, JsonObject.get?] at hcontent
  have hdict : asDict (choice.get "message") = some message := by
    simp [asDict, hmessage, JsonValue.truthy, hnonempty]
  have htext : orElse (message.get "content") (.str "") = .str content := by
    by_cases h : content = ""
    · simp [orElse, hcontent, h]
    · simp [orElse, hcontent, h, JsonValue.truthy]
  have hreason : orElse (choice.get "finish_reason") (.str "stop") = .str finishReason := by
    simp [orElse, hfinish, JsonValue.truthy, hne]
  obtain ⟨n, hint⟩ : ∃ n, toInt (orElse (response.get "created") (.int now)) = .value n := by
    unfold orElse
    rw [hcreated]
    split
    · exact ⟨created, rfl⟩
    · exact ⟨now, rfl⟩
  have hwords : (if (JsonValue.str content).truthy then splitWords (py.text (.str content))
    else [""]) =
      replayWords content := by
    by_cases h : content = "" <;> simp [replayWords, JsonValue.truthy, Python.text, h]
  unfold responseToChunks
  simp only [hchoices, htext, hreason, hdict, hint, hwords, Option.bind_eq_bind, Option.bind_some]
  exact ⟨_, _, _, rfl⟩

/-- The replay of a stored response carries what the response does. -/
theorem carriedByStream_replay (py : Python) (uuid' : String) (now' : ℤ) {acc : Accumulator}
    {fallback uuid : String} {now : ℤ} {response : JsonObject}
    (h : acc.buildResponse fallback uuid now = some response)
    (hfinish : acc.finishReason ≠ "") :
    ∃ replay, responseToChunks py response uuid' now' = some replay ∧
      ∀ i, carriedByStream replay i =
        carriedAtZero (String.join acc.contentParts) acc.finishReason i := by
  obtain ⟨hne, hjoin⟩ := join_replayWords (String.join acc.contentParts)
  have hreplay : ∃ baseId created model, responseToChunks py response uuid' now' =
      some (replayChunks baseId created model (.str acc.finishReason)
        (withTails (replayWords (String.join acc.contentParts)))) := by
    unfold Accumulator.buildResponse at h
    split at h
    · cases h
    · cases h
      exact responseToChunks_text rfl rfl rfl rfl hfinish rfl
  obtain ⟨baseId, created, model, hreplay⟩ := hreplay
  refine ⟨_, hreplay, fun i => ?_⟩
  rw [carriedByStream_replayChunks _ _ _ _ hne, hjoin]

/-! ## When they are the same -/

/-- What the handler keeps is all there is: no tool calls, text only in first listed choices, text
and finish reasons only at index 0, and the last finish reason is the one kept. -/
structure Keepable (chunks : List JsonObject) : Prop where
  no_tool_calls : ∀ choice ∈ chunks.flatMap choicesOf, toolCallsOf (partOf "delta" choice) = []
  one_index : ∀ choice ∈ chunks.flatMap choicesOf, choiceIndex choice ≠ 0 →
    contentOf (partOf "delta" choice) = "" ∧ finishOf choice = none
  first_listed : ∀ chunk ∈ chunks, ∀ choice ∈ (choicesOf chunk).tail,
    contentOf (partOf "delta" choice) = ""
  last_finish : ((chunks.flatMap choicesOf).filterMap finishOf).getLast? =
    some ((chunks.filterMap firstFinish).getLast?.getD "stop")

theorem join_eq_empty {texts : List String} :
    String.join texts = "" ↔ ∀ text ∈ texts, text = "" := by
  induction texts with
  | nil => simp
  | cons text texts ih => simp [String.join_cons, ih]

theorem atZero_of_one_index {choices : List JsonObject}
    (h : ∀ choice ∈ choices, choiceIndex choice ≠ 0 →
      contentOf (partOf "delta" choice) = "" ∧ finishOf choice = none) :
    (carriedBy "delta" choices 0).content =
        String.join (choices.map fun choice => contentOf (partOf "delta" choice)) ∧
      (carriedBy "delta" choices 0).finishReason = (choices.filterMap finishOf).getLast? := by
  induction choices with
  | nil => exact ⟨rfl, rfl⟩
  | cons choice choices ih =>
      obtain ⟨hcontent, hfinish⟩ := ih fun other hmem => h other (List.mem_cons_of_mem _ hmem)
      rw [carriedBy_cons]
      by_cases hzero : choiceIndex choice = 0
      · cases hreason : finishOf choice with
        | none => simp [hzero, hreason, hcontent, hfinish, String.join_cons]
        | some reason =>
            simp only [hzero, if_true, hcontent, hfinish, List.map_cons, String.join_cons,
              List.filterMap_cons_some hreason, List.getLast?_cons, true_and]
            cases (choices.filterMap finishOf).getLast? <;> rfl
      · obtain ⟨hempty, hnone⟩ := h choice List.mem_cons_self hzero
        simp [hzero, hcontent, hfinish, hempty, hnone, String.join_cons]

theorem join_choices (chunk : JsonObject) :
    String.join ((choicesOf chunk).map fun choice => contentOf (partOf "delta" choice)) =
      firstContent chunk ++
        String.join ((choicesOf chunk).tail.map fun choice =>
          contentOf (partOf "delta" choice)) := by
  unfold firstContent
  cases choicesOf chunk with
  | nil => rfl
  | cons choice choices => simp [String.join_cons]

theorem length_join_first_le (chunks : List JsonObject) :
    (String.join (chunks.map firstContent)).length ≤
      (String.join ((chunks.flatMap choicesOf).map
        fun choice => contentOf (partOf "delta" choice))).length := by
  induction chunks with
  | nil => exact Nat.le_refl _
  | cons chunk chunks ih =>
      rw [List.flatMap_cons, List.map_append, String.join_append, join_choices, List.map_cons,
        String.join_cons]
      simp only [String.length_append]
      omega

/-- The first listed texts are all the text exactly when no other choice has any. -/
theorem join_first_eq_iff (chunks : List JsonObject) :
    String.join ((chunks.flatMap choicesOf).map fun choice => contentOf (partOf "delta" choice)) =
        String.join (chunks.map firstContent) ↔
      ∀ chunk ∈ chunks, ∀ choice ∈ (choicesOf chunk).tail,
        contentOf (partOf "delta" choice) = "" := by
  induction chunks with
  | nil => simp
  | cons chunk chunks ih =>
      rw [List.flatMap_cons, List.map_append, String.join_append, join_choices, List.map_cons,
        String.join_cons, List.forall_mem_cons, ← ih]
      have hlength := length_join_first_le chunks
      generalize String.join (chunks.map firstContent) = first at hlength ⊢
      generalize String.join ((chunks.flatMap choicesOf).map
        fun choice => contentOf (partOf "delta" choice)) = whole at hlength ⊢
      constructor
      · intro heq
        have htail : String.join ((choicesOf chunk).tail.map
            fun choice => contentOf (partOf "delta" choice)) = "" := by
          have hlengths := congrArg String.length heq
          simp only [String.length_append] at hlengths
          rw [← String.length_eq_zero_iff]
          omega
        refine ⟨fun choice hmem => ?_, ?_⟩
        · exact join_eq_empty.mp htail _ (List.mem_map_of_mem hmem)
        · rw [htail] at heq
          simpa using heq
      · rintro ⟨htail, rfl⟩
        have hempty : String.join ((choicesOf chunk).tail.map
            fun choice => contentOf (partOf "delta" choice)) = "" := by
          rw [join_eq_empty]
          intro text htext
          obtain ⟨choice, hmem, rfl⟩ := List.mem_map.mp htext
          exact htail choice hmem
        rw [hempty, String.append_empty]

theorem keepable_iff (chunks : List JsonObject) :
    (∀ i, carriedByStream chunks i = carriedAtZero (String.join (chunks.map firstContent))
      ((chunks.filterMap firstFinish).getLast?.getD "stop") i) ↔ Keepable chunks := by
  constructor
  · intro h
    have hone : ∀ choice ∈ chunks.flatMap choicesOf, choiceIndex choice ≠ 0 →
        contentOf (partOf "delta" choice) = "" ∧ finishOf choice = none := by
      intro choice hmem hne
      have hi := h (choiceIndex choice)
      have hmine : choice ∈ (chunks.flatMap choicesOf).filter
          fun other => choiceIndex other = choiceIndex choice := by simp [hmem]
      simp only [carriedByStream, carriedBy, carriedAtZero, hne, if_false, Carried.mk.injEq] at hi
      obtain ⟨hcontent, -, hfinish⟩ := hi
      refine ⟨join_eq_empty.mp hcontent _ (List.mem_map_of_mem hmine), ?_⟩
      exact List.filterMap_eq_nil_iff.mp (List.getLast?_eq_none_iff.mp hfinish) choice hmine
    obtain ⟨hcontent, hfinish⟩ := atZero_of_one_index hone
    have hzero := h 0
    simp only [carriedByStream, carriedAtZero, if_true] at hzero
    refine ⟨fun choice hmem => ?_, hone, ?_, ?_⟩
    · have hcalls : (carriedByStream chunks (choiceIndex choice)).toolCalls = [] := by
        rw [h, carriedAtZero]
        split <;> rfl
      exact List.flatMap_eq_nil_iff.mp hcalls choice (by simp [hmem])
    · rw [← join_first_eq_iff, ← hcontent, hzero]
    · rw [← hfinish, hzero]
  · rintro ⟨htools, hone, hfirst, hlast⟩ i
    obtain ⟨hcontent, hfinish⟩ := atZero_of_one_index hone
    have hcalls : (carriedByStream chunks i).toolCalls = [] := by
      refine List.flatMap_eq_nil_iff.mpr fun choice hmem => ?_
      exact htools choice (List.mem_of_mem_filter hmem)
    by_cases hi : i = 0
    · subst hi
      apply Carried.ext
      · exact hcontent.trans ((join_first_eq_iff chunks).mpr hfirst)
      · exact hcalls
      · exact hfinish.trans hlast
    · have hmine : ∀ choice ∈ (chunks.flatMap choicesOf).filter fun other => choiceIndex other = i,
          contentOf (partOf "delta" choice) = "" ∧ finishOf choice = none := by
        intro choice hmem
        obtain ⟨hchoice, hindex⟩ := List.mem_filter.mp hmem
        exact hone choice hchoice (of_decide_eq_true hindex ▸ hi)
      apply Carried.ext
      · rw [carriedAtZero, if_neg hi]
        refine join_eq_empty.mpr fun text htext => ?_
        obtain ⟨choice, hmem, rfl⟩ := List.mem_map.mp htext
        exact (hmine choice hmem).1
      · simpa [carriedAtZero, hi] using hcalls
      · rw [carriedAtZero, if_neg hi]
        refine List.getLast?_eq_none_iff.mpr (List.filterMap_eq_nil_iff.mpr fun choice hmem => ?_)
        exact (hmine choice hmem).2

/-- A stored stream and its replay carry for every choice index what the first client got exactly
when the stream has nothing that the handler does not keep. -/
theorem stream_replayed_iff {lines : List String} {acc : Accumulator}
    {fallback uuid uuid' : String} {now now' : ℤ} {response : JsonObject}
    (hform : WellFormedLines py lines) (hfeed : feed py limits .fresh lines = some acc)
    (hstored : acc.buildResponse fallback uuid now = some response) :
    (∃ replay, responseToChunks py response uuid' now' = some replay ∧
        ∀ i, carriedByResponse response i = carriedByStream (delivered py lines) i ∧
          carriedByStream replay i = carriedByStream (delivered py lines) i) ↔
      Keepable (delivered py lines) := by
  have henabled : acc.disabledReason = none := by
    unfold Accumulator.buildResponse at hstored
    split at hstored
    · cases hstored
    next h => simpa using fun hdisabled => h (.inr hdisabled)
  obtain ⟨hcontent, hfinish⟩ := feed_keeps hform hfeed henabled
  have hfresh : String.join Accumulator.fresh.contentParts = "" := rfl
  rw [hfresh, String.empty_append] at hcontent
  have hfinish' : acc.finishReason =
      ((delivered py lines).filterMap firstFinish).getLast?.getD "stop" := hfinish
  have hreason : acc.finishReason ≠ "" := hfinish' ▸ lastFinish_ne_empty hform
  obtain ⟨replay, hreplay, hcarried⟩ := carriedByStream_replay py uuid' now' hstored hreason
  rw [← keepable_iff, ← hcontent, ← hfinish']
  constructor
  · rintro ⟨replay', hreplay', hsame⟩ i
    rw [← (hsame i).1, carriedByResponse_stored hstored]
  · intro hsame
    refine ⟨replay, hreplay, fun i => ⟨?_, ?_⟩⟩
    · rw [hsame, carriedByResponse_stored hstored]
    · rw [hsame, hcarried]

namespace Counterexample

def choice (index : ℤ) (content : String) : JsonObject :=
  [("index", .int index), ("delta", .dict [("content", .str content)]),
    ("finish_reason", .str "stop")]

def chunk (choices : List JsonObject) : JsonObject :=
  [("id", .str "chatcmpl-1"), ("created", .int 1700000000), ("model", .str "gpt"),
    ("choices", .list (choices.map .dict))]

def choiceText (index content : String) : String :=
  "\x7b\"index\":" ++ index ++ ",\"delta\":\x7b\"content\":\"" ++ content ++
    "\"\x7d,\"finish_reason\":\"stop\"\x7d"

/-- The JSON text of a chunk, from the texts of its choices. -/
def chunkText (choices : String) : String :=
  "\x7b" ++ ("\"id\":\"chatcmpl-1\",\"created\":1700000000,\"model\":\"gpt\",\"choices\":[" ++
    choices ++ "]") ++ "\x7d"

def oneChoice : String := chunkText (choiceText "0" "a b")

def twoChoices : String := chunkText (choiceText "0" "a" ++ "," ++ choiceText "1" "b")

def python : Python where
  loads text :=
    if text = oneChoice then some (.dict (chunk [choice 0 "a b"]))
    else if text = twoChoices then some (.dict (chunk [choice 0 "a", choice 1 "b"])) else none
  reprText _ := ""

def linesOf (payload : String) : List String := ["data: " ++ payload, "data: [DONE]"]

def defaultLimits : Limits := ⟨262144, 2048⟩

def stored (payload : String) : Option JsonObject :=
  (feed python defaultLimits .fresh (linesOf payload)).bind fun acc => acc.buildResponse "gpt" "0" 0

theorem payloads_linesOf (choices : String) :
    (linesOf (chunkText choices)).filterMap linePayload = [chunkText choices] := by
  have hpayload : linePayload ("data: " ++ chunkText choices) = some (chunkText choices) :=
    linePayload_object _
  have hdone : linePayload "data: [DONE]" = none := by decide +kernel
  simp [linesOf, hpayload, hdone]

/-- A stream of one data line stores what that chunk alone leaves. -/
theorem stored_chunk {choices : String} {chunk : JsonObject}
    (hloads : python.loads (chunkText choices) = some (.dict chunk)) :
    stored (chunkText choices) = (Accumulator.fresh.takeChunk python defaultLimits chunk).bind
      fun acc => acc.buildResponse "gpt" "0" 0 := by
  have hpayload : linePayload ("data: " ++ chunkText choices) = some (chunkText choices) :=
    linePayload_object _
  have hdone : linePayload "data: [DONE]" = none := by decide +kernel
  have hfresh : Accumulator.fresh.disabledReason = none := rfl
  simp [stored, feed, linesOf, Accumulator.addLine, hpayload, hfresh, hloads, hdone]

theorem choice_wellFormed (index : ℤ) (content : String) :
    WellFormedChoice (choice index content) where
  index := ⟨index, rfl⟩
  delta := .inr ⟨_, rfl, .inr ⟨content, rfl⟩, .inl rfl⟩
  finishReason := .inr ⟨"stop", rfl, by decide⟩

theorem chunk_wellFormed (choices : List JsonObject)
    (h : ∀ choice ∈ choices, WellFormedChoice choice) : WellFormedChunk (chunk choices) where
  id := .inr ⟨_, rfl⟩
  created := .inr ⟨_, rfl⟩
  model := .inr ⟨_, rfl⟩
  choices := .inr ⟨choices, rfl, h⟩
  usage := .inl rfl

end Counterexample

open Counterexample in
theorem stream_replayed_one_choice :
    ∃ response replay, stored oneChoice = some response ∧
      responseToChunks python response "1" 0 = some replay ∧
        ∀ i, carriedByResponse response i =
          carriedByStream (delivered python (linesOf oneChoice)) i ∧
          carriedByStream replay i = carriedByStream (delivered python (linesOf oneChoice)) i := by
  have hpayloads : (linesOf oneChoice).filterMap linePayload = [oneChoice] := payloads_linesOf _
  have hdelivered : delivered python (linesOf oneChoice) = [chunk [choice 0 "a b"]] := by
    rw [delivered, hpayloads]
    simp [python]
  have hform : WellFormedLines python (linesOf oneChoice) := by
    rw [WellFormedLines, hpayloads]
    intro payload hmem
    rw [List.mem_singleton.mp hmem]
    refine ⟨chunk [choice 0 "a b"], by simp [python], chunk_wellFormed _ fun other hother => ?_⟩
    rw [List.mem_singleton.mp hother]
    exact choice_wellFormed 0 "a b"
  have hkeepable : Keepable (delivered python (linesOf oneChoice)) := by
    rw [hdelivered]
    have hchoices : [chunk [choice 0 "a b"]].flatMap choicesOf = [choice 0 "a b"] := rfl
    refine ⟨fun other hmem => ?_, fun other hmem hne => ?_, fun other hmem => ?_, rfl⟩
    · rw [hchoices] at hmem
      rw [List.mem_singleton.mp hmem]
      rfl
    · rw [hchoices] at hmem
      rw [List.mem_singleton.mp hmem] at hne
      exact absurd rfl hne
    · rw [List.mem_singleton.mp hmem]
      intro choice hchoice
      cases hchoice
  have hloads : python.loads oneChoice = some (.dict (chunk [choice 0 "a b"])) := by simp [python]
  have hstored : (stored oneChoice).isSome := by
    rw [oneChoice, stored_chunk hloads]
    rfl
  obtain ⟨response, hresponse⟩ := Option.isSome_iff_exists.mp hstored
  obtain ⟨acc, hfeed, hbuilt⟩ := Option.bind_eq_some_iff.mp hresponse
  obtain ⟨replay, hreplay, hsame⟩ := (stream_replayed_iff hform hfeed hbuilt).mpr hkeepable
  exact ⟨response, replay, hresponse, hreplay, hsame⟩

open Counterexample in
/-- A stream with two choices is stored and replayed without the second one. -/
theorem second_choice_not_replayed :
    WellFormedLines python (linesOf twoChoices) ∧ ∃ response, stored twoChoices = some response ∧
      (carriedByStream (delivered python (linesOf twoChoices)) 1).content = "b" ∧
      (carriedByResponse response 1).content = "" ∧
      ∃ replay, responseToChunks python response "1" 0 = some replay ∧
        (carriedByStream replay 1).content = "" := by
  have hpayloads : (linesOf twoChoices).filterMap linePayload = [twoChoices] := payloads_linesOf _
  have hne : twoChoices ≠ oneChoice := by decide
  have hloads : python.loads twoChoices =
      some (.dict (chunk [choice 0 "a", choice 1 "b"])) := by simp [python, hne]
  have hform : WellFormedLines python (linesOf twoChoices) := by
    rw [WellFormedLines, hpayloads]
    intro payload hmem
    rw [List.mem_singleton.mp hmem]
    refine ⟨chunk [choice 0 "a", choice 1 "b"], hloads, chunk_wellFormed _ fun other hother => ?_⟩
    rcases List.mem_cons.mp hother with rfl | hother
    · exact choice_wellFormed 0 "a"
    · rw [List.mem_singleton.mp hother]
      exact choice_wellFormed 1 "b"
  have hdelivered : delivered python (linesOf twoChoices) =
      [chunk [choice 0 "a", choice 1 "b"]] := by
    rw [delivered, hpayloads]
    simp [hloads]
  have hstored : (stored twoChoices).map (fun response => (carriedByResponse response 1).content) =
      some "" := by
    rw [twoChoices, stored_chunk hloads]
    rfl
  have hreplayed : ((stored twoChoices).bind fun response =>
      responseToChunks python response "1" 0).map
        (fun replay => (carriedByStream replay 1).content) = some "" := by
    rw [twoChoices, stored_chunk hloads]
    decide +kernel
  obtain ⟨response, hresponse, hempty⟩ := Option.map_eq_some_iff.mp hstored
  obtain ⟨replay, hreplay, hlost⟩ := Option.map_eq_some_iff.mp hreplayed
  rw [hresponse, Option.bind_some] at hreplay
  refine ⟨hform, response, hresponse, ?_, hempty, replay, hreplay, hlost⟩
  rw [hdelivered]
  rfl

end StreamFidelity
