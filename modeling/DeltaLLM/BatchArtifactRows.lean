import DeltaLLM.BatchRecords
import DeltaLLM.CheckedResults
import DeltaLLM.PythonText

/-! # Public artifact rows

A completed item is published only if its stored body passes the sanitizer of its endpoint.
A failed or cancelled item always has a row.
-/
namespace BatchArtifactRows

open BatchRecords
open CheckedResults
open JsonValues (JsonValue JsonObject)
open PythonText (strip)

/-- A row that cannot be published. The message ends in the representation of `shown`. -/
structure BatchArtifactValidationError where
  text : String
  shown : Option JsonValue := none

def BatchArtifactValidationError.message (repr : JsonValue → String)
    (error : BatchArtifactValidationError) : String :=
  error.text ++ (error.shown.map repr).getD ""

abbrev Validated := Except BatchArtifactValidationError

def batchEndpointEmbeddings : String := "/v1/embeddings"
def batchEndpointChatCompletions : String := "/v1/chat/completions"

def publicBatchRowId (item : BatchItemRow) : String := "batch_req_" ++ item.itemId
def publicBatchRequestId (item : BatchItemRow) : String := "req_batch_" ++ item.itemId

/-- A text with a character that is not blank. -/
def isNamed : JsonValue → Bool
  | .str name => strip name ≠ ""
  | _ => false

theorem isNamed_str {name : String} : isNamed (.str name) = true ↔ strip name ≠ "" := by
  simp [isNamed]

def tokenFields : List String := ["prompt_tokens", "completion_tokens", "total_tokens"]

/-- One token count. A chat response may leave it out. -/
def validateTokenField (kind : String) (optional : Bool) (usage : JsonObject)
    (tokenField : String) : Validated Unit :=
  match usage.get tokenField with
  | .int n =>
      if n < 0 then
        .error ⟨s!"completed batch item {kind} response usage has negative {tokenField}=",
          some (.int n)⟩
      else .ok ()
  | value =>
      match value, optional with
      | .null, true => .ok ()
      | _, _ => .error ⟨s!"completed batch item {kind} response usage has invalid {tokenField}=",
          some value⟩

def validatePublicUsage (kind : String) (optional : Bool) : JsonValue → Validated JsonObject
  | .dict usage => do
      tokenFields.forM (validateTokenField kind optional usage)
      return usage
  | _ => .error { text := s!"completed batch item {kind} response usage is not an object" }

def normalizedUsageOrNone (optional : Bool) : JsonValue → Option JsonObject
  | .dict usage =>
      if tokenFields.all fun tokenField =>
        match JsonObject.get usage tokenField with
        | .int n => 0 ≤ n
        | .null => optional
        | _ => false
      then some usage else none
  | _ => none

def validatePublicEmbeddingUsage : JsonValue → Validated JsonObject :=
  validatePublicUsage "embedding" false

def normalizedEmbeddingUsageOrNone : JsonValue → Option JsonObject := normalizedUsageOrNone false

def validatePublicChatUsage : JsonValue → Validated JsonObject := validatePublicUsage "chat" true

def normalizedChatUsageOrNone : JsonValue → Option JsonObject := normalizedUsageOrNone true

def publicEmbeddingModelFallback (item : BatchItemRow) : Option String :=
  match item.requestBody.get "model" with
  | .str requestModel => if strip requestModel = "" then none else some (strip requestModel)
  | _ => none

def publicChatModelFallback (item : BatchItemRow) : Option String :=
  publicEmbeddingModelFallback item

/-- An object name that is missing is filled in, and another one is refused. -/
def checkObjectName (text expected : String) (body : JsonObject) : Validated JsonObject :=
  match body.get "object" with
  | .null => .ok (body.set "object" (.str expected))
  | .str objectType =>
      if objectType = expected then .ok body else .error ⟨text, some (.str objectType)⟩
  | objectType => .error ⟨text, some objectType⟩

def checkPublicObject (kind expected : String) : JsonObject → Validated JsonObject :=
  checkObjectName s!"completed batch item has invalid {kind} response object=" expected

def checkPublicModel (kind : String) (fallback : Option String) (body : JsonObject) :
    Validated JsonObject :=
  let named :=
    if isNamed (body.get "model") then body
    else match fallback with
      | some model => body.set "model" (.str model)
      | none => body
  if isNamed (named.get "model") then .ok named
  else .error { text := s!"completed batch item {kind} response is missing a valid model" }

/-- The usage of the body, or the usage of the item when the body's is not valid. -/
def checkPublicUsage (validate : JsonValue → Validated JsonObject)
    (fallback : JsonValue → Option JsonObject) (item : BatchItemRow) (body : JsonObject) :
    Validated JsonObject :=
  match validate (body.get "usage") with
  | .ok usage => .ok (body.set "usage" (.dict usage))
  | .error error =>
      match fallback ((item.usage.map JsonValue.dict).getD .null) with
      | some usage => .ok (body.set "usage" (.dict usage))
      | none => .error error

def checkRowObject (rowNumber : ℕ) : JsonObject → Validated JsonObject :=
  checkObjectName
    s!"completed batch item embedding response row {rowNumber} has invalid object=" "embedding"

def checkRowIndex (rowNumber : ℕ) (row : JsonObject) : Validated JsonObject :=
  match row.get "index" with
  | .null => .ok (row.set "index" (.int rowNumber))
  | .int _ => .ok row
  | responseIndex =>
      .error ⟨s!"completed batch item embedding response row {rowNumber} has invalid index=",
        some responseIndex⟩

def checkRowFields (rowNumber : ℕ) (row : JsonObject) : Validated JsonValue := do
  let row ← checkRowObject rowNumber row
  let row ← checkRowIndex rowNumber row
  return .dict row

def sanitizePublicEmbeddingRow (rowNumber : ℕ) : JsonValue → Validated JsonValue
  | .dict row =>
      if JsonObject.get? row "embedding" = none then
        .error { text :=
          s!"completed batch item embedding response row {rowNumber} is missing embedding" }
      else checkRowFields rowNumber row
  | _ => .error { text :=
      s!"completed batch item embedding response row {rowNumber} is not an object" }

def sanitizePublicEmbeddingRows (rowNumber : ℕ) : List JsonValue → Validated (List JsonValue)
  | [] => .ok []
  | row :: rows => do
      let row ← sanitizePublicEmbeddingRow rowNumber row
      let rows ← sanitizePublicEmbeddingRows (rowNumber + 1) rows
      return row :: rows

def sanitizePublicEmbeddingData (body : JsonObject) : Validated JsonObject :=
  match body.get "data" with
  | .list [] => .error { text := "completed batch item embedding response data is empty" }
  | .list rows => do
      let rows ← sanitizePublicEmbeddingRows 0 rows
      return body.set "data" (.list rows)
  | _ => .error { text := "completed batch item embedding response data is not a list" }

/-- `_sanitize_public_embedding_body`. -/
def sanitizePublicEmbeddingBody (item : BatchItemRow) : Validated JsonObject :=
  match item.responseBody with
  | none => .error { text := "completed batch item is missing an embedding response body" }
  | some responseBody => do
      let sanitized ← checkPublicObject "embedding" "list" (responseBody.pop "_provider")
      let sanitized ← sanitizePublicEmbeddingData sanitized
      let sanitized ← checkPublicModel "embedding" (publicEmbeddingModelFallback item) sanitized
      checkPublicUsage validatePublicEmbeddingUsage normalizedEmbeddingUsageOrNone item sanitized

def isObject : JsonValue → Bool
  | .dict _ => true
  | _ => false

def sanitizePublicChoices (body : JsonObject) : Validated JsonObject :=
  match body.get "choices" with
  | .list choices =>
      if choices.all isObject then .ok body
      else .error { text :=
        "completed batch item chat response contains a non-object choice" }
  | _ => .error { text := "completed batch item chat response choices is not a list" }

def checkPublicChatUsage (item : BatchItemRow) (body : JsonObject) : Validated JsonObject :=
  match body.get "usage" with
  | .null =>
      let usage := normalizedChatUsageOrNone ((item.usage.map JsonValue.dict).getD .null)
      .ok (body.set "usage" (.dict (usage.getD [])))
  | _ => checkPublicUsage validatePublicChatUsage normalizedChatUsageOrNone item body

/-- `_sanitize_public_chat_body`. -/
def sanitizePublicChatBody (item : BatchItemRow) : Validated JsonObject :=
  match item.responseBody with
  | none => .error { text := "completed batch item is missing a chat completion response body" }
  | some responseBody => do
      let visible := responseBody.filter fun field => field.1.toList.head? ≠ some '_'
      let sanitized ← checkPublicObject "chat" "chat.completion" visible
      let sanitized ← sanitizePublicChoices sanitized
      let sanitized ← checkPublicModel "chat" (publicChatModelFallback item) sanitized
      checkPublicChatUsage item sanitized

def publicBody (item : BatchItemRow) (endpoint : String) : Validated JsonObject :=
  if endpoint = batchEndpointChatCompletions then sanitizePublicChatBody item
  else sanitizePublicEmbeddingBody item

/-- `_serialize_completed_artifact_row`. -/
def serializeCompletedArtifactRow (item : BatchItemRow) (endpoint : String) :
    Validated JsonObject := do
  let body ← publicBody item endpoint
  return [("id", .str (publicBatchRowId item)), ("custom_id", .str item.customId),
    ("response", .dict [("status_code", .int 200),
      ("request_id", .str (publicBatchRequestId item)), ("body", .dict body)]),
    ("error", .null)]

/-- `value or fallback` for a text column. -/
def textOr (value : Option String) (fallback : String) : String :=
  (nonBlankText value).getD fallback

/-- `_serialize_failed_artifact_row`. -/
def serializeFailedArtifactRow (item : BatchItemRow) : JsonObject :=
  let cancelled := item.status = .cancelled
  let errorBody := item.errorBody.getD []
  let errorBody :=
    if (errorBody.get "message").truthy then errorBody
    else errorBody.set "message" (.str (textOr item.lastError
      (if cancelled then "Batch request cancelled" else "Batch request failed")))
  let errorBody :=
    if (errorBody.get "type").truthy then errorBody
    else errorBody.set "type" (.str (if cancelled then "BatchItemCancelled" else "BatchItemError"))
  [("id", .str (publicBatchRowId item)), ("custom_id", .str item.customId),
    ("response", .null), ("error", .dict errorBody)]

theorem serializeCompletedArtifactRow_ok {item : BatchItemRow} {endpoint : String}
    {row : JsonObject} (h : serializeCompletedArtifactRow item endpoint = .ok row) :
    (∃ body, publicBody item endpoint = .ok body) ∧ row.get "id" = .str (publicBatchRowId item) ∧
      row.get "custom_id" = .str item.customId := by
  obtain ⟨body, hbody, hrow⟩ := bind_ok_iff.mp h
  cases hrow
  exact ⟨⟨body, hbody⟩, rfl, rfl⟩

theorem exists_serializeCompletedArtifactRow {item : BatchItemRow} {endpoint : String}
    (h : ∃ body, publicBody item endpoint = .ok body) :
    ∃ row, serializeCompletedArtifactRow item endpoint = .ok row := by
  obtain ⟨body, hbody⟩ := h
  exact ⟨_, bind_ok_iff.mpr ⟨body, hbody, rfl⟩⟩

theorem serializeFailedArtifactRow_ids (item : BatchItemRow) :
    (serializeFailedArtifactRow item).get "id" = .str (publicBatchRowId item) ∧
      (serializeFailedArtifactRow item).get "custom_id" = .str item.customId := ⟨rfl, rfl⟩

section Usage

/-- A usage object whose three token counts are non-negative integers. -/
def PublicUsage (value : JsonValue) : Prop :=
  ∃ usage : JsonObject, value = .dict usage ∧
    ∀ tokenField ∈ tokenFields, ∃ n : ℕ, usage.get tokenField = .int n

private theorem validateTokenField_ok {kind : String} {usage : JsonObject} {tokenField : String} :
    validateTokenField kind false usage tokenField = .ok () ↔
      ∃ n : ℕ, usage.get tokenField = .int n := by
  unfold validateTokenField
  cases usage.get tokenField with
  | int n =>
      by_cases hn : n < 0
      · simp only [hn, if_true, reduceCtorEq, JsonValue.int.injEq, false_iff, not_exists]
        intro m
        omega
      · have hcast : n = (n.toNat : ℤ) := by omega
        simp only [hn, if_false, JsonValue.int.injEq, true_iff]
        exact ⟨n.toNat, hcast⟩
  | _ => simp

theorem validatePublicEmbeddingUsage_ok {value : JsonValue} {usage : JsonObject} :
    validatePublicEmbeddingUsage value = .ok usage ↔ value = .dict usage ∧ PublicUsage value := by
  cases value with
  | dict fields =>
      simp only [validatePublicEmbeddingUsage, validatePublicUsage, bind_ok_iff, PublicUsage,
        JsonValue.dict.injEq]
      constructor
      · rintro ⟨⟨⟩, hfields, hpure⟩
        cases hpure
        rw [forM_ok_iff] at hfields
        refine ⟨rfl, _, rfl, fun tokenField hmem => ?_⟩
        exact validateTokenField_ok.mp (hfields tokenField hmem)
      · rintro ⟨rfl, usage, rfl, hfields⟩
        refine ⟨(), forM_ok_iff.mpr fun tokenField hmem => ?_, rfl⟩
        exact validateTokenField_ok.mpr (hfields tokenField hmem)
  | _ => simp [validatePublicEmbeddingUsage, validatePublicUsage, PublicUsage]

theorem normalizedEmbeddingUsageOrNone_eq_some {value : JsonValue} {usage : JsonObject} :
    normalizedEmbeddingUsageOrNone value = some usage ↔
      value = .dict usage ∧ PublicUsage value := by
  cases value with
  | dict fields =>
      have hfield : ∀ v : JsonValue, (match v with
          | .int n => decide (0 ≤ n)
          | .null => false
          | _ => false) = true ↔ ∃ n : ℕ, v = .int n := by
        intro v
        cases v with
        | int n =>
            simp only [decide_eq_true_eq, JsonValue.int.injEq]
            exact ⟨fun hn => ⟨n.toNat, by omega⟩, fun ⟨m, hm⟩ => by omega⟩
        | _ => simp
      simp [normalizedEmbeddingUsageOrNone, normalizedUsageOrNone, PublicUsage, hfield]
      tauto
  | _ => simp [normalizedEmbeddingUsageOrNone, normalizedUsageOrNone, PublicUsage]

end Usage

section Acceptance

def itemUsage (item : BatchItemRow) : JsonValue := (item.usage.map JsonValue.dict).getD .null

/-- Missing, null or the expected name. -/
def PublicObject (expected : String) (value : JsonValue) : Prop :=
  value = .null ∨ value = .str expected

def PublicIndex (value : JsonValue) : Prop := value = .null ∨ ∃ n, value = .int n

def PublicRow (value : JsonValue) : Prop :=
  ∃ row : JsonObject, value = .dict row ∧ row.get? "embedding" ≠ none ∧
    PublicObject "embedding" (row.get "object") ∧ PublicIndex (row.get "index")

def PublicData (value : JsonValue) : Prop :=
  ∃ rows, value = .list rows ∧ rows ≠ [] ∧ ∀ row ∈ rows, PublicRow row

/-- A check that accepts exactly the bodies with `P`, and changes no key but `key`. -/
structure ChecksKey (key : String) (P : Prop) (body : JsonObject)
    (result : Validated JsonObject) : Prop where
  accepts : (∃ body', result = .ok body') ↔ P
  frame : ∀ body', result = .ok body' → ∀ key', key' ≠ key →
    body'.get? key' = body.get? key'

theorem ChecksKey.bind {key : String} {P Q : Prop} {body : JsonObject}
    {result : Validated JsonObject} {α : Type} {next : JsonObject → Validated α}
    (h : ChecksKey key P body result)
    (hnext : ∀ body', result = .ok body' → ((∃ a, next body' = .ok a) ↔ Q)) :
    (∃ a, result >>= next = .ok a) ↔ P ∧ Q := by
  constructor
  · rintro ⟨a, ha⟩
    obtain ⟨body', hbody', hlast⟩ := bind_ok_iff.mp ha
    exact ⟨h.accepts.mp ⟨body', hbody'⟩, (hnext body' hbody').mp ⟨a, hlast⟩⟩
  · rintro ⟨hP, hQ⟩
    obtain ⟨body', hbody'⟩ := h.accepts.mpr hP
    obtain ⟨a, ha⟩ := (hnext body' hbody').mpr hQ
    exact ⟨a, bind_ok_iff.mpr ⟨body', hbody', ha⟩⟩

theorem ChecksKey.get {key : String} {P : Prop} {body body' : JsonObject}
    {result : Validated JsonObject} (h : ChecksKey key P body result) (hok : result = .ok body')
    {key' : String} (hkey : key' ≠ key) : body'.get key' = body.get key' := by
  simp [JsonObject.get, h.frame body' hok key' hkey]

private theorem frame_set {key : String} {value : JsonValue} {body body' : JsonObject}
    (h : (Except.ok (body.set key value) : Validated JsonObject) = .ok body') (key' : String)
    (hkey : key' ≠ key) : body'.get? key' = body.get? key' := by
  cases h
  exact JsonObject.get?_set_ne body value (Ne.symm hkey)

theorem checks_objectName (text expected : String) (body : JsonObject) :
    ChecksKey "object" (PublicObject expected (body.get "object")) body
      (checkObjectName text expected body) := by
  unfold checkObjectName PublicObject
  cases hobject : body.get "object" with
  | null =>
      refine ⟨by simp, ?_⟩
      intro body' hok key' hkey
      exact frame_set hok key' hkey
  | str objectType =>
      by_cases hname : objectType = expected
      · refine ⟨by simp [hname], ?_⟩
        intro body' hok key' hkey
        simp only [hname, if_true, Except.ok.injEq] at hok
        rw [hok]
      · refine ⟨by simp [hname], ?_⟩
        intro body' hok
        simp [hname] at hok
  | _ => exact ⟨by simp, by simp⟩

theorem checks_rowIndex (rowNumber : ℕ) (row : JsonObject) :
    ChecksKey "index" (PublicIndex (row.get "index")) row (checkRowIndex rowNumber row) := by
  unfold checkRowIndex PublicIndex
  cases hindex : row.get "index" with
  | null =>
      refine ⟨by simp, ?_⟩
      intro row' hok key' hkey
      exact frame_set hok key' hkey
  | int n =>
      refine ⟨by simp, ?_⟩
      intro row' hok key' hkey
      cases hok
      rfl
  | _ => exact ⟨by simp, by simp⟩

theorem checkRowFields_accepts (rowNumber : ℕ) (row : JsonObject) :
    (∃ value, checkRowFields rowNumber row = .ok value) ↔
      PublicObject "embedding" (row.get "object") ∧ PublicIndex (row.get "index") := by
  have hobject : ChecksKey "object" (PublicObject "embedding" (row.get "object")) row
      (checkRowObject rowNumber row) := checks_objectName _ _ row
  refine hobject.bind fun named hnamed => ?_
  have hindex := checks_rowIndex rowNumber named
  rw [hobject.get hnamed (by decide)] at hindex
  have hlast : (∃ value, (do
        let indexed ← checkRowIndex rowNumber named
        return JsonValue.dict indexed) = Except.ok value) ↔
      PublicIndex (row.get "index") ∧ True :=
    hindex.bind fun indexed _ => iff_of_true ⟨_, rfl⟩ trivial
  exact hlast.trans (and_iff_left trivial)

theorem sanitizePublicEmbeddingRow_accepts (rowNumber : ℕ) (value : JsonValue) :
    (∃ row, sanitizePublicEmbeddingRow rowNumber value = .ok row) ↔ PublicRow value := by
  cases value with
  | dict row =>
      by_cases hembedding : JsonObject.get? row "embedding" = none
      · simp [sanitizePublicEmbeddingRow, PublicRow, hembedding]
      · simp only [sanitizePublicEmbeddingRow, hembedding, if_false, checkRowFields_accepts]
        constructor
        · rintro ⟨hname, hindex⟩
          exact ⟨row, rfl, hembedding, hname, hindex⟩
        · rintro ⟨_, ⟨⟩, _, hname, hindex⟩
          exact ⟨hname, hindex⟩
  | _ => simp [sanitizePublicEmbeddingRow, PublicRow]

theorem sanitizePublicEmbeddingRows_accepts (rows : List JsonValue) :
    ∀ rowNumber, (∃ rows', sanitizePublicEmbeddingRows rowNumber rows = .ok rows') ↔
      ∀ row ∈ rows, PublicRow row := by
  induction rows with
  | nil => simp [sanitizePublicEmbeddingRows]
  | cons row rows ih =>
      intro rowNumber
      rw [List.forall_mem_cons, ← sanitizePublicEmbeddingRow_accepts rowNumber,
        ← ih (rowNumber + 1)]
      simp only [sanitizePublicEmbeddingRows]
      constructor
      · rintro ⟨rows', hok⟩
        obtain ⟨row', hrow, hrest⟩ := bind_ok_iff.mp hok
        obtain ⟨tail', htail, _⟩ := bind_ok_iff.mp hrest
        exact ⟨⟨row', hrow⟩, ⟨tail', htail⟩⟩
      · rintro ⟨⟨row', hrow⟩, ⟨tail', htail⟩⟩
        exact ⟨row' :: tail', bind_ok_iff.mpr ⟨row', hrow, bind_ok_iff.mpr ⟨tail', htail, rfl⟩⟩⟩

theorem checks_data (body : JsonObject) :
    ChecksKey "data" (PublicData (body.get "data")) body (sanitizePublicEmbeddingData body) := by
  unfold sanitizePublicEmbeddingData PublicData
  cases hdata : body.get "data" with
  | list rows =>
      cases rows with
      | nil => exact ⟨by simp, by simp⟩
      | cons row rows =>
          have hrows := sanitizePublicEmbeddingRows_accepts (row :: rows) 0
          constructor
          · simp only [JsonValue.list.injEq]
            constructor
            · rintro ⟨body', hok⟩
              obtain ⟨rows', hrows', _⟩ := bind_ok_iff.mp hok
              exact ⟨_, rfl, by simp, hrows.mp ⟨rows', hrows'⟩⟩
            · rintro ⟨_, rfl, _, hpublic⟩
              obtain ⟨rows', hrows'⟩ := hrows.mpr hpublic
              exact ⟨_, bind_ok_iff.mpr ⟨rows', hrows', rfl⟩⟩
          · intro body' hok key' hkey
            obtain ⟨rows', _, hset⟩ := bind_ok_iff.mp hok
            exact frame_set hset key' hkey
  | _ => exact ⟨by simp, by simp⟩

theorem publicEmbeddingModelFallback_named {item : BatchItemRow} {model : String}
    (h : publicEmbeddingModelFallback item = some model) : isNamed (.str model) = true := by
  unfold publicEmbeddingModelFallback at h
  cases hmodel : item.requestBody.get "model" with
  | str requestModel =>
      simp only [hmodel] at h
      by_cases hblank : strip requestModel = ""
      · simp [hblank] at h
      · simp only [hblank, if_false, Option.some.injEq] at h
        subst h
        simpa [isNamed] using PythonText.strip_strip_ne_empty.mpr hblank
  | _ => simp [hmodel] at h

theorem checks_model (kind : String) {fallback : Option String}
    (hfallback : ∀ model, fallback = some model → isNamed (.str model) = true)
    (body : JsonObject) :
    ChecksKey "model" (isNamed (body.get "model") = true ∨ fallback ≠ none) body
      (checkPublicModel kind fallback body) := by
  unfold checkPublicModel
  by_cases hnamed : isNamed (body.get "model") = true
  · refine ⟨by simp [hnamed], ?_⟩
    intro body' hok key' hkey
    simp only [hnamed, if_true, Except.ok.injEq] at hok
    rw [hok]
  · cases hmodel : fallback with
    | none =>
        refine ⟨by simp [hnamed], ?_⟩
        intro body' hok
        simp [hnamed] at hok
    | some model =>
        have hset := hfallback model hmodel
        refine ⟨by simp [hnamed, hset], ?_⟩
        intro body' hok key' hkey
        have hset' : isNamed ((body.set "model" (.str model)).get "model") = true := by
          rw [JsonObject.get_set_self]
          exact hset
        simp only [hnamed, Bool.false_eq_true, if_false, hset', if_true] at hok
        exact frame_set hok key' hkey

theorem checks_embeddingUsage (item : BatchItemRow) (body : JsonObject) :
    ChecksKey "usage" (PublicUsage (body.get "usage") ∨ PublicUsage (itemUsage item)) body
      (checkPublicUsage validatePublicEmbeddingUsage normalizedEmbeddingUsageOrNone item body) := by
  unfold checkPublicUsage
  cases hvalid : validatePublicEmbeddingUsage (body.get "usage") with
  | ok usage =>
      have hpublic := (validatePublicEmbeddingUsage_ok.mp hvalid).2
      refine ⟨by simp [hpublic], ?_⟩
      intro body' hok key' hkey
      exact frame_set hok key' hkey
  | error error =>
      have hnot : ¬PublicUsage (body.get "usage") := by
        intro hpublic
        have hpublic' := hpublic
        obtain ⟨usage, husage, _⟩ := hpublic'
        rw [validatePublicEmbeddingUsage_ok.mpr ⟨husage, hpublic⟩] at hvalid
        cases hvalid
      cases hfallback : normalizedEmbeddingUsageOrNone (itemUsage item) with
      | none =>
          have hitem : ¬PublicUsage (itemUsage item) := by
            intro hpublic
            have hpublic' := hpublic
            obtain ⟨usage, husage, _⟩ := hpublic'
            rw [normalizedEmbeddingUsageOrNone_eq_some.mpr ⟨husage, hpublic⟩] at hfallback
            cases hfallback
          rw [itemUsage] at hfallback
          exact ⟨by simp [hfallback, hnot, hitem], by simp [hfallback]⟩
      | some usage =>
          have hitem := (normalizedEmbeddingUsageOrNone_eq_some.mp hfallback).2
          rw [itemUsage] at hfallback
          refine ⟨by simp [hfallback, hitem], ?_⟩
          intro body' hok key' hkey
          simp only [hfallback] at hok
          exact frame_set hok key' hkey

/-- What a stored body and its item need for the public embedding row. -/
structure PublicEmbeddingBody (item : BatchItemRow) (body : JsonObject) : Prop where
  object : PublicObject "list" (body.get "object")
  data : PublicData (body.get "data")
  model : isNamed (body.get "model") = true ∨ publicEmbeddingModelFallback item ≠ none
  usage : PublicUsage (body.get "usage") ∨ PublicUsage (itemUsage item)

theorem get_pop_provider (body : JsonObject) {key : String} (h : key ≠ "_provider") :
    (body.pop "_provider").get key = body.get key := by
  simp [JsonObject.get, JsonObject.get?_pop, Ne.symm h]

theorem publicEmbeddingBody_iff {item : BatchItemRow} {body : JsonObject} :
    PublicEmbeddingBody item body ↔ PublicObject "list" (body.get "object") ∧
      PublicData (body.get "data") ∧
      (isNamed (body.get "model") = true ∨ publicEmbeddingModelFallback item ≠ none) ∧
      (PublicUsage (body.get "usage") ∨ PublicUsage (itemUsage item)) := by
  constructor
  · intro h
    exact ⟨h.object, h.data, h.model, h.usage⟩
  · rintro ⟨hobject, hdata, hmodel, husage⟩
    exact ⟨hobject, hdata, hmodel, husage⟩

/-- The sanitizer accepts exactly the bodies that meet its four conditions. -/
theorem sanitizePublicEmbeddingBody_accepts {item : BatchItemRow} {body : JsonObject}
    (hbody : item.responseBody = some body) :
    (∃ row, sanitizePublicEmbeddingBody item = .ok row) ↔ PublicEmbeddingBody item body := by
  simp only [sanitizePublicEmbeddingBody, hbody]
  rw [publicEmbeddingBody_iff]
  have hobject : ChecksKey "object" (PublicObject "list" (body.get "object"))
      (body.pop "_provider")
      (checkPublicObject "embedding" "list" (body.pop "_provider")) := by
    rw [← get_pop_provider body (by decide)]
    exact checks_objectName _ _ _
  refine hobject.bind fun first hfirst => ?_
  have hget : ∀ key, key ≠ "_provider" → key ≠ "object" → first.get key = body.get key := by
    intro key hprovider hname
    rw [hobject.get hfirst hname, get_pop_provider body hprovider]
  have hdata := checks_data first
  rw [hget "data" (by decide) (by decide)] at hdata
  refine hdata.bind fun second hsecond => ?_
  have hfallback : ∀ model, publicEmbeddingModelFallback item = some model →
      isNamed (.str model) = true := fun _ => publicEmbeddingModelFallback_named
  have hmodel := checks_model "embedding" hfallback second
  rw [hdata.get hsecond (by decide), hget "model" (by decide) (by decide)] at hmodel
  refine hmodel.bind fun third hthird => ?_
  have husage := (checks_embeddingUsage item third).accepts
  rwa [hmodel.get hthird (by decide), hdata.get hsecond (by decide),
    hget "usage" (by decide) (by decide)] at husage

end Acceptance

end BatchArtifactRows
