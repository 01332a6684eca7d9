import DeltaLLM.BatchArtifacts
import DeltaLLM.BatchItemStatements
import DeltaLLM.EmbeddingUsage

/-! # From a provider response to a completed embedding item

The single path stores what the provider sent. The microbatch path checks the rows first and
stores one row for each item. Neither path asks the artifact sanitizer.
-/
namespace EmbeddingExecution

open BatchArtifactRows
open BatchItemStatements (CompletedItem completeRow)
open BatchRecords
open CheckedResults
open EmbeddingUsage
open JsonValues (JsonValue JsonFloat JsonObject)
open PythonText (strip stripOrEmpty)

/-- What the stored body takes from the served deployment. -/
structure ServedDeployment where
  apiProvider : String
  apiBase : String
  model : Option String

def optionalText (value : Option String) : JsonValue := (value.map JsonValue.str).getD .null

/-- `_execute_embedding`: any JSON object that comes with a status below 400. -/
def executeEmbedding (deployment : ServedDeployment) (apiLatencyMs : JsonFloat) :
    JsonValue → Except EmbeddingError JsonObject
  | .dict data =>
      let data := JsonObject.set data "_api_latency_ms" (.float apiLatencyMs)
      let data := data.set "_api_base" (.str deployment.apiBase)
      .ok (data.set "_deployment_model" (optionalText deployment.model))
  | _ => .error .typeError

/-- `_sanitize_embedding_response`, the body part. -/
def sanitizeEmbeddingResponse (data : JsonObject) : JsonObject :=
  ((data.pop "_api_latency_ms").pop "_api_base").pop "_deployment_model"

/-- `deployment_model or (str(params.get("model") or "") or None)`. -/
def deploymentModel (deployment : ServedDeployment) : Option String :=
  nonBlankText deployment.model

def normalizePersistedRow (rowNumber : ℕ) : JsonValue → JsonValue
  | .dict row =>
      let row := JsonObject.setDefault row "object" (.str "embedding")
      .dict (row.set "index" (.int rowNumber))
  | row => row

def normalizePersistedObject (body : JsonObject) : JsonObject :=
  match body.get "object" with
  | .null => body.set "object" (.str "list")
  | _ => body

def normalizePersistedData (body : JsonObject) : JsonObject :=
  match body.get "data" with
  | .list rows => body.set "data" (.list (rows.mapIdx normalizePersistedRow))
  | _ => body

def normalizePersistedModel (modelFallback : Option String) (body : JsonObject) : JsonObject :=
  if isNamed (body.get "model") then body
  else if stripOrEmpty modelFallback = "" then body
  else body.set "model" (.str (stripOrEmpty modelFallback))

/-- `normalize_persisted_embedding_response_body`. -/
def normalizePersistedEmbeddingResponseBody (responseBody usage : JsonObject)
    (apiProvider : String) (modelFallback : Option String) : JsonObject :=
  let normalized := normalizePersistedData (normalizePersistedObject responseBody)
  let normalized := normalized.set "usage" (.dict usage)
  let normalized := normalized.set "_provider" (.str apiProvider)
  normalizePersistedModel modelFallback normalized

/-- The response columns of a completion row. -/
structure StoredEmbedding where
  responseBody : JsonObject
  usage : JsonObject

/-- The single path of `_execute_prepared_item`. -/
def singleCompletion (deployment : ServedDeployment) (apiLatencyMs : JsonFloat)
    (response : JsonValue) : Except EmbeddingError StoredEmbedding := do
  let data ← executeEmbedding deployment apiLatencyMs response
  let responseBody := sanitizeEmbeddingResponse data
  let allocations ← allocateEmbeddingUsage (responseBody.get "usage") [1]
  let usage := allocations.headD []
  return ⟨normalizePersistedEmbeddingResponseBody responseBody usage deployment.apiProvider
    (deploymentModel deployment), usage⟩

/-- One response row goes to the place that its index names. -/
def placeRow (expectedCount rowNumber : ℕ) (placed : List (Option JsonObject)) :
    JsonValue → Except EmbeddingError (List (Option JsonObject))
  | .dict row =>
      if JsonObject.get? row "embedding" = none then
        .error (.responseShape s!"microbatch response item {rowNumber} is missing embedding")
      else
        match JsonObject.get row "index" with
        | .int index =>
            if index < 0 ∨ (expectedCount : ℤ) ≤ index then
              .error (.responseShape
                s!"microbatch response item {rowNumber} index out of range index={index}")
            else if placed.getD index.toNat none ≠ none then
              .error (.responseShape s!"microbatch response contains duplicate index={index}")
            else .ok (placed.set index.toNat (some row))
        | _ => .error (.responseShape s!"microbatch response item {rowNumber} has invalid index")
  | _ => .error (.responseShape s!"microbatch response item {rowNumber} is not an object")

def placeRows (expectedCount : ℕ) : ℕ → List JsonValue → List (Option JsonObject) →
    Except EmbeddingError (List (Option JsonObject))
  | _, [], placed => .ok placed
  | rowNumber, row :: rows, placed => do
      let placed ← placeRow expectedCount rowNumber placed row
      placeRows expectedCount (rowNumber + 1) rows placed

def takePlaced (placed : List (Option JsonObject)) : Except EmbeddingError (List JsonObject) :=
  if placed.any Option.isNone then
    .error (.responseShape "microbatch response is missing one or more expected indexes")
  else .ok (placed.filterMap id)

/-- `_validate_embedding_microbatch_response`: the rows in item order. -/
def validateEmbeddingMicrobatchResponse (responseBody : JsonObject) (expectedCount : ℕ) :
    Except EmbeddingError (List JsonObject) :=
  match responseBody.get "data" with
  | .list rows =>
      if rows.length ≠ expectedCount then
        .error (.responseShape
          s!"microbatch response length mismatch expected={expectedCount} actual={rows.length}")
      else do
        let placed ← placeRows expectedCount 0 rows (List.replicate expectedCount none)
        takePlaced placed
  | _ => .error (.responseShape "microbatch response data is not a list")

/-- `chunk_response.get("object") or "list"`. -/
def chunkObject (chunkResponse : JsonObject) : JsonValue :=
  if (chunkResponse.get "object").truthy then chunkResponse.get "object" else .str "list"

/-- `_build_single_item_embedding_response_body`. -/
def buildSingleItemEmbeddingResponseBody (chunkResponse itemResponse usage : JsonObject)
    (apiProvider : String) (modelFallback : Option String) : JsonObject :=
  normalizePersistedEmbeddingResponseBody
    [("object", chunkObject chunkResponse), ("data", .list [.dict itemResponse])]
    usage apiProvider modelFallback

/-- The microbatch path of `_execute_prepared_microbatch_chunk`, one completion an item. -/
def microbatchCompletions (deployment : ServedDeployment) (apiLatencyMs : JsonFloat)
    (response : JsonValue) (weights : List ℕ) : Except EmbeddingError (List StoredEmbedding) := do
  let data ← executeEmbedding deployment apiLatencyMs response
  let responseBody := sanitizeEmbeddingResponse data
  let itemResponses ← validateEmbeddingMicrobatchResponse responseBody weights.length
  let allocations ← allocateEmbeddingUsage (responseBody.get "usage") weights
  return List.zipWith (fun itemResponse usage =>
    ⟨buildSingleItemEmbeddingResponseBody responseBody itemResponse usage
      deployment.apiProvider (deploymentModel deployment), usage⟩) itemResponses allocations

section Normalized

variable {body usage : JsonObject} {apiProvider : String} {modelFallback : Option String}

private theorem get_normalizePersistedObject {key : String} (h : key ≠ "object") :
    (normalizePersistedObject body).get key = body.get key := by
  unfold normalizePersistedObject
  cases body.get "object" with
  | null => exact JsonObject.get_set_ne body _ (Ne.symm h)
  | _ => rfl

private theorem get_normalizePersistedData {key : String} (h : key ≠ "data") :
    (normalizePersistedData body).get key = body.get key := by
  unfold normalizePersistedData
  cases body.get "data" with
  | list rows => exact JsonObject.get_set_ne body _ (Ne.symm h)
  | _ => rfl

private theorem get_normalizePersistedModel {key : String} (h : key ≠ "model") :
    (normalizePersistedModel modelFallback body).get key = body.get key := by
  unfold normalizePersistedModel
  by_cases hnamed : isNamed (body.get "model") = true
  · rw [if_pos hnamed]
  · by_cases hblank : stripOrEmpty modelFallback = ""
    · rw [if_neg hnamed, if_pos hblank]
    · rw [if_neg hnamed, if_neg hblank]
      exact JsonObject.get_set_ne body _ (Ne.symm h)

theorem normalizedObject_public :
    PublicObject "list" ((normalizePersistedObject body).get "object") ↔
      PublicObject "list" (body.get "object") := by
  unfold normalizePersistedObject
  cases hobject : body.get "object" with
  | null => simp [PublicObject]
  | _ => simp only [hobject]

/-- A response row that the sanitizer accepts once its index is set. -/
def PublicResponseRow (value : JsonValue) : Prop :=
  ∃ row : JsonObject, value = .dict row ∧ row.get? "embedding" ≠ none ∧
    PublicObject "embedding" (row.get "object")

def PublicResponseData (value : JsonValue) : Prop :=
  ∃ rows, value = .list rows ∧ rows ≠ [] ∧ ∀ row ∈ rows, PublicResponseRow row

theorem normalizedRow_public (rowNumber : ℕ) (value : JsonValue) :
    PublicRow (normalizePersistedRow rowNumber value) ↔ PublicResponseRow value := by
  cases value with
  | dict row =>
      have hindex : PublicIndex ((JsonObject.set (JsonObject.setDefault row "object"
          (.str "embedding")) "index" (.int rowNumber)).get "index") := by
        rw [JsonObject.get_set_self]
        exact Or.inr ⟨_, rfl⟩
      have hembedding : (JsonObject.set (JsonObject.setDefault row "object"
          (.str "embedding")) "index" (.int rowNumber)).get? "embedding" =
            JsonObject.get? row "embedding" := by
        simp [JsonObject.get?_set, JsonObject.get?_setDefault]
      have hobject : PublicObject "embedding" ((JsonObject.set (JsonObject.setDefault row "object"
          (.str "embedding")) "index" (.int rowNumber)).get "object") ↔
            PublicObject "embedding" (JsonObject.get row "object") := by
        cases hget : JsonObject.get? row "object" <;>
          simp [JsonObject.get, JsonObject.get?_set, JsonObject.get?_setDefault, hget,
            PublicObject]
      constructor
      · rintro ⟨_, ⟨⟩, hsome, hname, _⟩
        exact ⟨row, rfl, hembedding ▸ hsome, hobject.mp hname⟩
      · rintro ⟨_, ⟨⟩, hsome, hname⟩
        exact ⟨_, rfl, hembedding ▸ hsome, hobject.mpr hname, hindex⟩
  | _ => simp [normalizePersistedRow, PublicRow, PublicResponseRow]

theorem normalizedData_public :
    PublicData ((normalizePersistedData body).get "data") ↔
      PublicResponseData (body.get "data") := by
  unfold normalizePersistedData
  cases hdata : body.get "data" with
  | list rows =>
      simp only [JsonObject.get_set_self, PublicData, PublicResponseData, JsonValue.list.injEq]
      constructor
      · rintro ⟨_, rfl, hne, hrows⟩
        refine ⟨rows, rfl, by simpa using hne, fun row hrow => ?_⟩
        obtain ⟨i, hi, rfl⟩ := List.getElem_of_mem hrow
        rw [← normalizedRow_public i]
        exact hrows _ (List.mem_mapIdx.mpr ⟨i, hi, rfl⟩)
      · rintro ⟨_, rfl, hne, hrows⟩
        refine ⟨_, rfl, by simpa using hne, fun row hrow => ?_⟩
        obtain ⟨i, hi, rfl⟩ := List.mem_mapIdx.mp hrow
        exact (normalizedRow_public i _).mpr (hrows _ (List.getElem_mem hi))
  | _ => simp [hdata, PublicData, PublicResponseData]

theorem normalizedModel_named :
    isNamed ((normalizePersistedModel modelFallback body).get "model") = true ↔
      isNamed (body.get "model") = true ∨ stripOrEmpty modelFallback ≠ "" := by
  unfold normalizePersistedModel
  by_cases hnamed : isNamed (body.get "model") = true
  · simp [hnamed]
  · by_cases hblank : stripOrEmpty modelFallback = ""
    · simp [hnamed, hblank]
    · have hstripped : isNamed (.str (stripOrEmpty modelFallback)) = true :=
        isNamed_str.mpr (PythonText.strip_strip_ne_empty.mpr hblank)
      simp [hnamed, hblank, hstripped]

/-- When the sanitizer accepts a body that went through the persistence normalizer. -/
theorem normalized_accepted {item : BatchItemRow}
    (hbody : item.responseBody =
      some (normalizePersistedEmbeddingResponseBody body usage apiProvider modelFallback))
    (husage : item.usage = some usage) :
    (∃ row, sanitizePublicEmbeddingBody item = .ok row) ↔
      PublicObject "list" (body.get "object") ∧ PublicResponseData (body.get "data") ∧
        (isNamed (body.get "model") = true ∨ stripOrEmpty modelFallback ≠ "" ∨
          publicEmbeddingModelFallback item ≠ none) ∧ PublicUsage (.dict usage) := by
  rw [sanitizePublicEmbeddingBody_accepts hbody, publicEmbeddingBody_iff]
  have hitem : itemUsage item = .dict usage := by simp [itemUsage, husage]
  have hframe : ∀ key, key ≠ "model" → key ≠ "_provider" → key ≠ "usage" →
      (normalizePersistedEmbeddingResponseBody body usage apiProvider modelFallback).get key =
        (normalizePersistedData (normalizePersistedObject body)).get key := by
    intro key hmodel hprovider husage
    simp only [normalizePersistedEmbeddingResponseBody]
    rw [get_normalizePersistedModel hmodel, JsonObject.get_set_ne _ _ (Ne.symm hprovider),
      JsonObject.get_set_ne _ _ (Ne.symm husage)]
  have hobject := hframe "object" (by decide) (by decide) (by decide)
  rw [get_normalizePersistedData (by decide)] at hobject
  have hdata : PublicData ((normalizePersistedEmbeddingResponseBody body usage apiProvider
      modelFallback).get "data") ↔ PublicResponseData (body.get "data") := by
    rw [hframe "data" (by decide) (by decide) (by decide), normalizedData_public,
      get_normalizePersistedObject (by decide)]
  have hmodel : isNamed ((normalizePersistedEmbeddingResponseBody body usage apiProvider
      modelFallback).get "model") = true ↔
        isNamed (body.get "model") = true ∨ stripOrEmpty modelFallback ≠ "" := by
    simp only [normalizePersistedEmbeddingResponseBody]
    rw [normalizedModel_named, JsonObject.get_set_ne _ _ (by decide),
      JsonObject.get_set_ne _ _ (by decide), get_normalizePersistedData (by decide),
      get_normalizePersistedObject (by decide)]
  have husage' : (normalizePersistedEmbeddingResponseBody body usage apiProvider
      modelFallback).get "usage" = .dict usage := by
    simp only [normalizePersistedEmbeddingResponseBody]
    rw [get_normalizePersistedModel (by decide), JsonObject.get_set_ne _ _ (by decide),
      JsonObject.get_set_self]
  rw [hitem, hobject, normalizedObject_public, hdata, hmodel, husage', or_self, or_assoc]

end Normalized

section Paths

variable {deployment : ServedDeployment} {apiLatencyMs : JsonFloat}

/-- The completion row that persists a stored embedding. -/
def completionRow (stored : StoredEmbedding) (item : BatchItemRow) (providerCost billedCost : ℚ) :
    CompletedItem :=
  ⟨item.itemId, stored.responseBody, stored.usage, providerCost, billedCost, item.claimEpoch⟩

/-- The provider's usage can be read and names its prompt tokens. -/
def NamesPromptTokens (usage : JsonValue) : Prop :=
  ∃ fields, dictOf usage = .ok fields ∧ fields.get? "prompt_tokens" ≠ none

theorem allocation_public {aggregateUsage : JsonValue} {weights : List ℕ}
    {allocations : List JsonObject}
    (h : allocateEmbeddingUsage aggregateUsage weights = .ok allocations) :
    ∀ allocation ∈ allocations,
      (PublicUsage (.dict allocation) ↔ NamesPromptTokens aggregateUsage) := by
  intro allocation hmem
  obtain ⟨usage, totals, i, husage, htotals, rfl⟩ := (allocateEmbeddingUsage_ok h).2 _ hmem
  have hprompt := (usageTotals_ok htotals).2
  constructor
  · rintro ⟨_, ⟨⟩, hcounts⟩
    refine ⟨usage, husage, hprompt.mp ?_⟩
    by_contra hnot
    obtain ⟨n, hn⟩ := hcounts "prompt_tokens" (by simp [tokenFields])
    rw [allocation_without_prompt hnot] at hn
    cases hn
  · rintro ⟨fields, hfields, hnamed⟩
    rw [husage] at hfields
    cases hfields
    exact ⟨_, rfl, allocation_counts (hprompt.mpr hnamed) weights i⟩

theorem get_executed {response data : JsonObject} {key : String}
    (h : executeEmbedding deployment apiLatencyMs (.dict response) = .ok data)
    (hlatency : key ≠ "_api_latency_ms") (hbase : key ≠ "_api_base")
    (hmodel : key ≠ "_deployment_model") :
    (sanitizeEmbeddingResponse data).get key = response.get key := by
  cases h
  simp [sanitizeEmbeddingResponse, JsonObject.get, JsonObject.get?_pop, JsonObject.get?_set,
    Ne.symm hlatency, Ne.symm hbase, Ne.symm hmodel]

/-- Some name for the model: in the response, of the deployment or in the request. -/
def ModelNamed (deployment : ServedDeployment) (item : BatchItemRow) (model : JsonValue) : Prop :=
  isNamed model = true ∨ stripOrEmpty (deploymentModel deployment) ≠ "" ∨
    publicEmbeddingModelFallback item ≠ none

/-- A provider response to one input that can be published. -/
structure PublicSingleResponse (deployment : ServedDeployment) (item : BatchItemRow)
    (response : JsonObject) : Prop where
  object : PublicObject "list" (response.get "object")
  data : PublicResponseData (response.get "data")
  model : ModelNamed deployment item (response.get "model")
  usage : NamesPromptTokens (response.get "usage")

/-- A row of a response that says it answers the input at this position. -/
def AnswersInput (response : JsonObject) (position : ℕ) (row : JsonObject) : Prop :=
  ∃ rows, response.get "data" = .list rows ∧ .dict row ∈ rows ∧ row.get "index" = .int position

/-- An answer to several inputs whose part for one position can be published. -/
structure PublicChunkResponse (deployment : ServedDeployment) (item : BatchItemRow)
    (response : JsonObject) (position : ℕ) : Prop where
  object : (response.get "object").truthy = false ∨ response.get "object" = .str "list"
  row : ∃ row, AnswersInput response position row ∧ PublicObject "embedding" (row.get "object")
  model : ModelNamed deployment item .null
  usage : NamesPromptTokens (response.get "usage")

theorem single_accepted {response : JsonObject} {stored : StoredEmbedding}
    (h : singleCompletion deployment apiLatencyMs (.dict response) = .ok stored)
    (now : Timestamp) (item : BatchItemRow) (providerCost billedCost : ℚ) :
    (∃ row, sanitizePublicEmbeddingBody
        (completeRow now (completionRow stored item providerCost billedCost) item) = .ok row) ↔
      PublicSingleResponse deployment item response := by
  obtain ⟨data, hdata, h⟩ := bind_ok_iff.mp h
  obtain ⟨allocations, hallocations, h⟩ := bind_ok_iff.mp h
  cases h
  have hget : ∀ key, key ≠ "_api_latency_ms" → key ≠ "_api_base" → key ≠ "_deployment_model" →
      (sanitizeEmbeddingResponse data).get key = response.get key :=
    fun _ => get_executed hdata
  have husage : PublicUsage (.dict (allocations.headD [])) ↔
      NamesPromptTokens (response.get "usage") := by
    have hlength := (allocateEmbeddingUsage_ok hallocations).1
    cases allocations with
    | nil => simp at hlength
    | cons allocation rest =>
        rw [← hget "usage" (by decide) (by decide) (by decide)]
        exact allocation_public hallocations allocation List.mem_cons_self
  rw [normalized_accepted rfl rfl, husage, hget "object" (by decide) (by decide) (by decide),
    hget "data" (by decide) (by decide) (by decide),
    hget "model" (by decide) (by decide) (by decide)]
  constructor
  · rintro ⟨hobject, hrows, hmodel, hnamed⟩
    exact ⟨hobject, hrows, hmodel, hnamed⟩
  · intro hpublic
    exact ⟨hpublic.object, hpublic.data, hpublic.model, hpublic.usage⟩

theorem chunkObject_public {response : JsonObject} :
    PublicObject "list" (chunkObject response) ↔
      (response.get "object").truthy = false ∨ response.get "object" = .str "list" := by
  unfold chunkObject PublicObject
  by_cases htruthy : (response.get "object").truthy = true
  · have hnull : response.get "object" ≠ .null := by
      intro hnull
      rw [hnull] at htruthy
      cases htruthy
    simp [htruthy, hnull]
  · simp [htruthy]

/-- What placing one row does: it fills the free place that the row's index names. -/
theorem placeRow_ok {expectedCount rowNumber : ℕ} {placed placed' : List (Option JsonObject)}
    {value : JsonValue} (h : placeRow expectedCount rowNumber placed value = .ok placed') :
    ∃ (row : JsonObject) (position : ℕ), value = .dict row ∧ row.get? "embedding" ≠ none ∧
      row.get "index" = .int position ∧ position < expectedCount ∧
      placed.getD position none = none ∧ placed' = placed.set position (some row) := by
  cases value with
  | dict row =>
      simp only [placeRow] at h
      by_cases hembedding : JsonObject.get? row "embedding" = none
      · simp [hembedding] at h
      rw [if_neg hembedding] at h
      cases hindex : JsonObject.get row "index" with
      | int index =>
          simp only [hindex] at h
          split_ifs at h with hrange hfree
          cases h
          have hposition : index = (index.toNat : ℤ) := by omega
          refine ⟨row, index.toNat, rfl, hembedding, ?_, by omega, by simpa using hfree, rfl⟩
          rw [hindex, ← hposition]
      | _ => simp [hindex] at h
  | _ => simp [placeRow] at h

/-- Each row is at the place it names, and each filled place was free or holds such a row. -/
structure PlacedFrom (rows : List JsonValue) (placed placed' : List (Option JsonObject)) :
    Prop where
  length : placed'.length = placed.length
  kept : ∀ (position : ℕ) (row : JsonObject),
    placed[position]? = some (some row) → placed'[position]? = some (some row)
  filled : ∀ value ∈ rows, ∃ (row : JsonObject) (position : ℕ), value = .dict row ∧
    row.get? "embedding" ≠ none ∧ row.get "index" = .int position ∧
      placed'[position]? = some (some row)
  source : ∀ (position : ℕ) (row : JsonObject), placed'[position]? = some (some row) →
    placed[position]? = some (some row) ∨
      (.dict row ∈ rows ∧ row.get "index" = .int position)

theorem placeRows_ok {expectedCount : ℕ} {rows : List JsonValue} :
    ∀ {rowNumber : ℕ} {placed placed' : List (Option JsonObject)},
      placed.length = expectedCount →
        placeRows expectedCount rowNumber rows placed = .ok placed' →
          PlacedFrom rows placed placed' := by
  induction rows with
  | nil =>
      intro rowNumber placed placed' _ h
      cases h
      exact ⟨rfl, fun _ _ h => h, by simp, fun _ _ h => Or.inl h⟩
  | cons value rows ih =>
      intro rowNumber placed placed' hlength h
      obtain ⟨middle, hrow, hrows⟩ := bind_ok_iff.mp h
      obtain ⟨row, position, rfl, hembedding, hindex, hbound, hfree, rfl⟩ := placeRow_ok hrow
      have hrest := ih (by simpa using hlength) hrows
      have hplace : (placed.set position (some row))[position]? = some (some row) := by
        rw [List.getElem?_set_self (by omega)]
      have hother : ∀ (other : ℕ) (held : JsonObject), placed[other]? = some (some held) →
          position ≠ other := by
        rintro other held hheld rfl
        rw [List.getD_eq_getElem?_getD, hheld] at hfree
        cases hfree
      refine ⟨hrest.length.trans List.length_set, ?_, ?_, ?_⟩
      · intro other held hheld
        refine hrest.kept other held ?_
        rw [List.getElem?_set_ne (hother other held hheld)]
        exact hheld
      · intro value' hvalue'
        rcases List.mem_cons.mp hvalue' with rfl | hvalue'
        · exact ⟨row, position, rfl, hembedding, hindex, hrest.kept _ _ hplace⟩
        · exact hrest.filled value' hvalue'
      · intro other held hheld
        rcases hrest.source other held hheld with hmiddle | ⟨hmem, hname⟩
        · by_cases hsame : position = other
          · subst hsame
            rw [hplace] at hmiddle
            cases hmiddle
            exact Or.inr ⟨List.mem_cons_self, hindex⟩
          · rw [List.getElem?_set_ne hsame] at hmiddle
            exact Or.inl hmiddle
        · exact Or.inr ⟨List.mem_cons_of_mem _ hmem, hname⟩

theorem takePlaced_ok {placed : List (Option JsonObject)} {rows : List JsonObject}
    (h : takePlaced placed = .ok rows) : placed = rows.map some := by
  unfold takePlaced at h
  by_cases hany : placed.any Option.isNone = true
  · rw [if_pos hany] at h
    cases h
  · rw [if_neg hany] at h
    cases h
    induction placed with
    | nil => rfl
    | cons place placed ih =>
        cases place with
        | none => simp at hany
        | some row => simpa using ih (by simpa using hany)

/-- The validated row at a position is the one row of the response that names it. -/
theorem validated_row {responseBody : JsonObject} {expectedCount : ℕ}
    {itemResponses : List JsonObject}
    (h : validateEmbeddingMicrobatchResponse responseBody expectedCount = .ok itemResponses)
    {position : ℕ} {row : JsonObject} (hrow : itemResponses[position]? = some row) :
    row.get? "embedding" ≠ none ∧
      ∀ other, AnswersInput responseBody position other ↔ other = row := by
  unfold validateEmbeddingMicrobatchResponse at h
  cases hdata : responseBody.get "data" with
  | list rows =>
      simp only [hdata] at h
      split_ifs at h
      obtain ⟨placed, hplaced, htaken⟩ := bind_ok_iff.mp h
      have hfrom := placeRows_ok List.length_replicate hplaced
      have hplace : placed[position]? = some (some row) := by
        rw [takePlaced_ok htaken, List.getElem?_map, hrow]
        rfl
      have hsource : .dict row ∈ rows ∧ row.get "index" = .int position := by
        rcases hfrom.source position row hplace with hinitial | hsource
        · have hnone := List.mem_of_getElem? hinitial
          cases (List.mem_replicate.mp hnone).2
        · exact hsource
      have hat : ∀ other : JsonObject, .dict other ∈ rows → other.get "index" = .int position →
          other.get? "embedding" ≠ none ∧ other = row := by
        intro other hmem hindex
        obtain ⟨_, position', ⟨⟩, hembedding, hindex', hplace'⟩ := hfrom.filled _ hmem
        rw [hindex, JsonValue.int.injEq] at hindex'
        have hposition : position = position' := by omega
        subst hposition
        rw [hplace] at hplace'
        cases hplace'
        exact ⟨hembedding, rfl⟩
      refine ⟨(hat row hsource.1 hsource.2).1, fun other => ?_⟩
      constructor
      · rintro ⟨_, hlist, hmem, hindex⟩
        rw [hdata] at hlist
        cases hlist
        exact (hat other hmem hindex).2
      · rintro rfl
        exact ⟨rows, hdata, hsource⟩
  | _ => simp [hdata] at h

theorem microbatch_accepted {response : JsonObject} {weights : List ℕ}
    {completions : List StoredEmbedding}
    (h : microbatchCompletions deployment apiLatencyMs (.dict response) weights =
      .ok completions)
    {position : ℕ} {stored : StoredEmbedding} (hstored : completions[position]? = some stored)
    (now : Timestamp) (item : BatchItemRow) (providerCost billedCost : ℚ) :
    (∃ row, sanitizePublicEmbeddingBody
        (completeRow now (completionRow stored item providerCost billedCost) item) = .ok row) ↔
      PublicChunkResponse deployment item response position := by
  obtain ⟨data, hdata, h⟩ := bind_ok_iff.mp h
  obtain ⟨itemResponses, hitems, h⟩ := bind_ok_iff.mp h
  obtain ⟨allocations, hallocations, h⟩ := bind_ok_iff.mp h
  cases h
  obtain ⟨itemResponse, usage, hitem, hallocation, rfl⟩ :=
    List.getElem?_zipWith_eq_some.mp hstored
  obtain ⟨hembedding, hanswers⟩ := validated_row hitems hitem
  have hget : ∀ key, key ≠ "_api_latency_ms" → key ≠ "_api_base" → key ≠ "_deployment_model" →
      (sanitizeEmbeddingResponse data).get key = response.get key :=
    fun _ => get_executed hdata
  have husage : PublicUsage (.dict usage) ↔ NamesPromptTokens (response.get "usage") := by
    rw [← hget "usage" (by decide) (by decide) (by decide)]
    exact allocation_public hallocations usage (List.mem_of_getElem? hallocation)
  have hobject : PublicObject "list" (chunkObject (sanitizeEmbeddingResponse data)) ↔
      (response.get "object").truthy = false ∨ response.get "object" = .str "list" := by
    rw [chunkObject_public, hget "object" (by decide) (by decide) (by decide)]
  have hrow : PublicResponseData (.list [.dict itemResponse]) ↔
      ∃ row, AnswersInput response position row ∧
        PublicObject "embedding" (row.get "object") := by
    have hsame : ∀ row, AnswersInput response position row ↔ row = itemResponse := by
      intro row
      rw [← hanswers row, AnswersInput, AnswersInput,
        hget "data" (by decide) (by decide) (by decide)]
    simp only [hsame, exists_eq_left]
    constructor
    · rintro ⟨_, ⟨⟩, _, hpublic⟩
      obtain ⟨_, ⟨⟩, _, hname⟩ := hpublic _ List.mem_cons_self
      exact hname
    · intro hname
      refine ⟨_, rfl, by simp, fun row hmem => ?_⟩
      rw [List.mem_singleton] at hmem
      subst hmem
      exact ⟨itemResponse, rfl, hembedding, hname⟩
  rw [normalized_accepted rfl rfl, husage]
  have hbody : ∀ object data : JsonValue,
      JsonObject.get [("object", object), ("data", data)] "object" = object ∧
        JsonObject.get [("object", object), ("data", data)] "data" = data ∧
        JsonObject.get [("object", object), ("data", data)] "model" = .null := by
    intro object data
    simp [JsonObject.get, JsonObject.get?]
  obtain ⟨hname, hrows, hmodel⟩ := hbody (chunkObject (sanitizeEmbeddingResponse data))
    (.list [.dict itemResponse])
  rw [hname, hrows, hmodel, hobject, hrow]
  constructor
  · rintro ⟨hobject, hrow, hmodel, hnamed⟩
    exact ⟨hobject, hrow, hmodel, hnamed⟩
  · intro hpublic
    exact ⟨hpublic.object, hpublic.row, hpublic.model, hpublic.usage⟩

end Paths

theorem executed_object {response : JsonValue} {data : JsonObject}
    {deployment : ServedDeployment} {apiLatencyMs : JsonFloat}
    (h : executeEmbedding deployment apiLatencyMs response = .ok data) :
    ∃ fields, response = .dict fields := by
  cases response with
  | dict fields => exact ⟨fields, rfl⟩
  | _ => cases h

/-- Which provider responses end in a completed item that finalization can publish. -/
theorem completed_embedding_publishable (deployment : ServedDeployment) (apiLatencyMs : JsonFloat)
    (now : Timestamp) (item : BatchItemRow) (providerCost billedCost : ℚ) :
    (∀ response stored, singleCompletion deployment apiLatencyMs response = .ok stored →
      ∃ fields, response = .dict fields ∧
        ((∃ row, sanitizePublicEmbeddingBody
            (completeRow now (completionRow stored item providerCost billedCost) item) = .ok row) ↔
          PublicSingleResponse deployment item fields)) ∧
    (∀ response weights completions,
      microbatchCompletions deployment apiLatencyMs response weights = .ok completions →
      ∃ fields, response = .dict fields ∧
        ∀ position stored, completions[position]? = some stored →
          ((∃ row, sanitizePublicEmbeddingBody
              (completeRow now (completionRow stored item providerCost billedCost) item) =
                .ok row) ↔
            PublicChunkResponse deployment item fields position)) := by
  constructor
  · intro response stored h
    obtain ⟨data, hdata, _⟩ := bind_ok_iff.mp h
    obtain ⟨fields, rfl⟩ := executed_object hdata
    exact ⟨fields, rfl, single_accepted h now item providerCost billedCost⟩
  · intro response weights completions h
    obtain ⟨data, hdata, _⟩ := bind_ok_iff.mp h
    obtain ⟨fields, rfl⟩ := executed_object hdata
    refine ⟨fields, rfl, fun position stored hstored => ?_⟩
    exact microbatch_accepted h hstored now item providerCost billedCost

namespace ProviderAnswers

def deployment : ServedDeployment := ⟨"openai", "https://api.example/v1", some "embed-1"⟩

def answer (usage : JsonObject) : JsonObject :=
  [("object", .str "list"),
    ("data", .list [.dict [("index", .int 0), ("embedding", .list [.int 1])]]),
    ("model", .str "embed-1"), ("usage", .dict usage)]

def item : BatchItemRow :=
  createdItem "item-1" "batch-1" 1 "a" [("model", .str "embed-1"), ("input", .str "x")] 1

def latency : JsonFloat := .finite 12

/-- The usage of a provider that counts total tokens only. -/
def totalOnly : JsonObject := [("total_tokens", .int 5)]

/-- What the single path stores for it. -/
def storedTotalOnly : StoredEmbedding :=
  ⟨[("object", .str "list"),
    ("data", .list [.dict [("index", .int 0), ("embedding", .list [.int 1]),
      ("object", .str "embedding")]]),
    ("model", .str "embed-1"),
    ("usage", .dict [("completion_tokens", .int 0), ("total_tokens", .int 5)]),
    ("_provider", .str "openai")], [("completion_tokens", .int 0), ("total_tokens", .int 5)]⟩

def poisoned : BatchItemRow := completeRow 2 (completionRow storedTotalOnly item 0 0) item

/-- The poisoned item and a good one. -/
def items : List BatchItemRow :=
  [poisoned, { BatchArtifacts.MixedBatch.created "item-2" 2 "b" with
    status := .completed, responseBody := some BatchArtifacts.MixedBatch.embeddingBody }]

def job : BatchJobRow :=
  BatchJobStatements.refreshRow 3 (BatchJobStatements.progressStats "batch-1" items)
    { createdJob "batch-1" batchEndpointEmbeddings 0 with status := .inProgress }

end ProviderAnswers

open ProviderAnswers in
/-- The accepted item is refused at finalization, and its batch gets no output file. -/
theorem total_tokens_only_poisons_batch :
    singleCompletion deployment latency (.dict (answer totalOnly)) = .ok storedTotalOnly ∧
      (∀ row, sanitizePublicEmbeddingBody poisoned ≠ .ok row) ∧
      ∃ error, BatchArtifacts.finalizeArtifacts BatchArtifacts.MixedBatch.services {} 3 4 job
        items = some (.error (.validation error)) := by
  have hstored : singleCompletion deployment latency (.dict (answer totalOnly)) =
      .ok storedTotalOnly := rfl
  have hrefused : ∀ row, sanitizePublicEmbeddingBody poisoned ≠ .ok row := by
    intro row hrow
    have hpublic := (single_accepted hstored 2 item 0 0).mp ⟨row, hrow⟩
    obtain ⟨_, ⟨⟩, hnamed⟩ := hpublic.usage
    exact hnamed rfl
  refine ⟨hstored, hrefused, ?_⟩
  exact BatchArtifacts.finalizeArtifacts_refused _ {} 4 (by decide +kernel) (by decide +kernel)
    (BatchArtifacts.recounted_refreshRow 3 _ items) List.mem_cons_self rfl hrefused

open ProviderAnswers in
theorem completed_embedding_publishable_named_usage :
    ∃ stored, singleCompletion deployment latency
        (.dict (answer [("prompt_tokens", .int 5)])) = .ok stored ∧
      ∃ row, sanitizePublicEmbeddingBody
        (completeRow 2 (completionRow stored item 0 0) item) = .ok row := by
  have hclaim := completed_embedding_publishable deployment latency 2 item 0 0
  refine ⟨_, rfl, ?_⟩
  obtain ⟨_, ⟨⟩, haccepted⟩ :=
    hclaim.1 (.dict (answer [("prompt_tokens", .int 5)])) _ rfl
  refine haccepted.mpr ⟨Or.inr rfl, ?_, Or.inl (by decide +kernel), ?_⟩
  · refine ⟨_, rfl, by simp, fun row hrow => ?_⟩
    rw [List.mem_singleton] at hrow
    subst hrow
    exact ⟨_, rfl, by simp [JsonObject.get?], Or.inl rfl⟩
  · exact ⟨_, rfl, by simp [JsonObject.get?]⟩

end EmbeddingExecution
