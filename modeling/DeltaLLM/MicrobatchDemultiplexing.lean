import DeltaLLM.ChatMicrobatch
import DeltaLLM.EmbeddingExecution

/-! # Which row answers which request of a microbatch

Both microbatch paths take a response apart by the names that its rows give. No row reaches
a request that it does not name, and the order of the rows does not matter.
-/
namespace MicrobatchDemultiplexing

open ChatMicrobatch
open CheckedResults
open EmbeddingExecution
open EmbeddingUsage (EmbeddingError)
open JsonValues (JsonValue JsonObject)
open RowPlacement

section Chat

variable (builtins : Builtins) (customIds : List String)

def rawRows : RawResults → Option (List RawResult)
  | .rows rows => some rows
  | .notAResultList => none

/-- The row is an object whose names all name this request. -/
def NamesRequest (row : RawResult) (place : ℕ) : Prop :=
  ∃ fields, row = .fields fields ∧ IdentifiedBy builtins customIds fields place

/-- The result is what the loop makes of this row alone. -/
def ResultOfRow (rowNumber place : ℕ) (row : RawResult) (result : NormalizedResult) : Prop :=
  ∃ fields, row = .fields fields ∧ normalizeRow builtins rowNumber place fields = .ok result

def withoutRowNumber : ItemError → ItemError
  | .missingResponseBody _ => .missingResponseBody 0
  | .missingUsage _ => .missingUsage 0
  | error => error

/-- The result without the row numbers that its error text quotes. -/
def forgetRowNumber (result : NormalizedResult) : NormalizedResult :=
  { result with error := result.error.map withoutRowNumber }

variable {builtins customIds}

theorem fieldsOf_ok_iff {row : RawResult} {fields : RawFields} :
    resultMapping row = .ok fields ↔ row = .fields fields := by
  cases row <;> simp [resultMapping]

theorem normalizeRow_rowNumber {rowNumber : ℕ} (rowNumber' : ℕ) {index : ℤ} {fields : RawFields}
    {result : NormalizedResult} (h : normalizeRow builtins rowNumber index fields = .ok result) :
    ∃ result', normalizeRow builtins rowNumber' index fields = .ok result' ∧
      forgetRowNumber result' = forgetRowNumber result := by
  obtain ⟨latency, hlatency, h⟩ := bind_ok_iff.mp h
  obtain ⟨error, herror, h⟩ := bind_ok_iff.mp h
  refine ⟨_, bind_ok_iff.mpr ⟨latency, hlatency, bind_ok_iff.mpr ⟨error, herror, rfl⟩⟩, ?_⟩
  cases h
  simp only [forgetRowNumber, NormalizedResult.mk.injEq, true_and, and_true]
  split_ifs <;> simp_all [withoutRowNumber]

theorem chatReader_rowNumberFree :
    (chatReader builtins customIds).RowNumberFree forgetRowNumber where
  fieldsOf _ _ _ _ h := h
  indexOf _ _ _ _ h := h
  content _ rowNumber' _ _ _ h := normalizeRow_rowNumber rowNumber' h

theorem chat_demultiplexer (count : ℕ) :
    Demultiplexer (normalizeChatMicrobatchResults builtins · count customIds) rawRows
      (NamesRequest builtins customIds) (ResultOfRow builtins) forgetRowNumber count := by
  have hfree : (chatReader builtins customIds).RowNumberFree forgetRowNumber :=
    chatReader_rowNumberFree
  refine hfree.demultiplexer ?_ ?_ ?_ ?_
  · intro rowNumber row place
    simp only [NamesRequest, ← resultIndex_ok_iff, ← fieldsOf_ok_iff]
    rfl
  · rintro rowNumber place row result ⟨fields, hfields, -, hcontent⟩
    exact ⟨fields, fieldsOf_ok_iff.mp hfields, hcontent⟩
  · intro response rows hrows hlength
    cases response with
    | rows rows' =>
        cases hrows
        simp [normalizeChatMicrobatchResults, hlength]
    | notAResultList => cases hrows
  · intro response hlength
    cases response with
    | rows rows =>
        have hne := hlength rows rfl
        exact ⟨_, if_pos hne⟩
    | notAResultList => exact ⟨_, rfl⟩

end Chat

section Embedding

/-- `_validate_embedding_microbatch_response` read row by row. -/
def embeddingReader : RowReader JsonValue JsonObject JsonObject EmbeddingError where
  fieldsOf rowNumber
    | .dict row =>
        if JsonObject.get? row "embedding" = none then
          .error (.responseShape s!"microbatch response item {rowNumber} is missing embedding")
        else .ok row
    | _ => .error (.responseShape s!"microbatch response item {rowNumber} is not an object")
  indexOf rowNumber row :=
    match row.get "index" with
    | .int index => .ok index
    | _ => .error (.responseShape s!"microbatch response item {rowNumber} has invalid index")
  content _ _ row := .ok row
  outOfRange rowNumber index := .responseShape
    s!"microbatch response item {rowNumber} index out of range index={index}"
  duplicate index := .responseShape s!"microbatch response contains duplicate index={index}"
  missing := .responseShape "microbatch response is missing one or more expected indexes"

def dataRows (responseBody : JsonObject) : Option (List JsonValue) :=
  match responseBody.get "data" with
  | .list rows => some rows
  | _ => none

/-- An object with an embedding whose index is the integer of this input. -/
def NamesInput (row : JsonValue) (place : ℕ) : Prop :=
  ∃ fields : JsonObject, row = .dict fields ∧ fields.get? "embedding" ≠ none ∧
    fields.get "index" = .int place

theorem placeRow_eq (count rowNumber : ℕ) (placed : List (Option JsonObject)) (row : JsonValue) :
    placeRow count rowNumber placed row = embeddingReader.place count rowNumber placed row := by
  cases row with
  | dict fields =>
      simp only [placeRow, RowReader.place, embeddingReader]
      by_cases hembedding : JsonObject.get? fields "embedding" = none
      · simp [hembedding, bind, Except.bind]
      · cases hindex : JsonObject.get fields "index" <;>
          simp [hembedding, hindex, bind, Except.bind, pure, Except.pure,
            ← Option.isSome_iff_ne_none]
  | _ => rfl

theorem placeRows_eq (count : ℕ) (rows : List JsonValue) :
    ∀ (rowNumber : ℕ) (placed : List (Option JsonObject)),
      placeRows count rowNumber rows placed =
        embeddingReader.placeAll count rowNumber rows placed := by
  induction rows with
  | nil => exact fun _ _ => rfl
  | cons row rows ih =>
      intro rowNumber placed
      simp only [placeRows, RowReader.placeAll, placeRow_eq, ih]

theorem validate_eq {responseBody : JsonObject} {rows : List JsonValue} {count : ℕ}
    (hrows : dataRows responseBody = some rows) (hlength : rows.length = count) :
    validateEmbeddingMicrobatchResponse responseBody count =
      embeddingReader.demultiplex count rows := by
  have hdata : responseBody.get "data" = .list rows := by
    unfold dataRows at hrows
    split at hrows
    · cases hrows
      assumption
    · cases hrows
  simp only [validateEmbeddingMicrobatchResponse, hdata, hlength, ne_eq, not_true_eq_false,
    if_false, RowReader.demultiplex, placeRows_eq]
  rfl

theorem fieldsOf_ok {rowNumber : ℕ} {row : JsonValue} {fields : JsonObject} :
    embeddingReader.fieldsOf rowNumber row = .ok fields ↔
      row = .dict fields ∧ fields.get? "embedding" ≠ none := by
  cases row with
  | dict row =>
      by_cases hembedding : JsonObject.get? row "embedding" = none
      · simp only [embeddingReader, if_pos hembedding]
        constructor
        · rintro ⟨⟩
        · rintro ⟨⟨⟩, hsome⟩
          exact absurd hembedding hsome
      · simp only [embeddingReader, if_neg hembedding, Except.ok.injEq, JsonValue.dict.injEq]
        constructor
        · rintro rfl
          exact ⟨rfl, hembedding⟩
        · rintro ⟨rfl, -⟩
          rfl
  | _ => simp [embeddingReader]

theorem indexOf_ok {rowNumber : ℕ} {fields : JsonObject} {index : ℤ} :
    embeddingReader.indexOf rowNumber fields = .ok index ↔ fields.get "index" = .int index := by
  cases hindex : JsonObject.get fields "index" <;> simp [embeddingReader, hindex]

theorem embeddingReader_rowNumberFree : embeddingReader.RowNumberFree id where
  fieldsOf _ _ _ _ h := fieldsOf_ok.mpr (fieldsOf_ok.mp h)
  indexOf _ _ _ _ h := indexOf_ok.mpr (indexOf_ok.mp h)
  content _ _ _ _ entry h := ⟨entry, h, rfl⟩

theorem embedding_demultiplexer (count : ℕ) :
    Demultiplexer (validateEmbeddingMicrobatchResponse · count) dataRows NamesInput
      (fun _ _ row result => row = .dict result) id count := by
  refine embeddingReader_rowNumberFree.demultiplexer ?_ ?_ (fun _ _ => validate_eq) ?_
  · intro rowNumber row place
    simp only [NamesInput, fieldsOf_ok, indexOf_ok, and_assoc]
  · rintro rowNumber place row result ⟨fields, hfields, -, hcontent⟩
    cases hcontent
    exact (fieldsOf_ok.mp hfields).1
  · intro responseBody hlength
    simp only [validateEmbeddingMicrobatchResponse]
    cases hdata : JsonObject.get responseBody "data" with
    | list rows =>
        have hne := hlength rows (by simp [dataRows, hdata])
        exact ⟨_, if_pos hne⟩
    | _ => exact ⟨_, rfl⟩

end Embedding

/-- Neither path gives a request a result of a row that names another one. Chat rows may name
their request by an index text or by the custom id alone. -/
theorem microbatch_rows_by_name :
    (∀ (builtins : Builtins) (customIds : List String) (count : ℕ),
      Demultiplexer (normalizeChatMicrobatchResults builtins · count customIds) rawRows
        (NamesRequest builtins customIds) (ResultOfRow builtins) forgetRowNumber count) ∧
    ∀ count : ℕ, Demultiplexer (validateEmbeddingMicrobatchResponse · count) dataRows NamesInput
      (fun _ _ row result => row = .dict result) id count :=
  ⟨fun _ _ count => chat_demultiplexer count, embedding_demultiplexer⟩

namespace NamedRows

def builtins : Builtins := ⟨fun n => some (.finite n), fun _ => none, fun _ => ""⟩

def body : JsonObject := [("object", .str "chat.completion")]

def usage : JsonObject := [("total_tokens", .int 2)]

def answer (name : String) (value : JsonValue) : RawResult :=
  .fields [(name, .json value), ("response_body", .json (.dict body)),
    ("usage", .json (.dict usage))]

def answered : NormalizedResult := ⟨0, some body, some usage, none, none⟩

def empty (index : ℤ) : RawResult := .fields [("index", .json (.int index))]

def failed (index : ℤ) (rowNumber : ℕ) : NormalizedResult :=
  ⟨index, none, none, some (.missingResponseBody rowNumber), none⟩

end NamedRows

open NamedRows in
theorem microbatch_rows_without_integer_index :
    normalizeChatMicrobatchResults builtins (.rows [answer "custom_id" (.str "request-1")]) 1
        ["request-1"] = .ok [answered] ∧
      normalizeChatMicrobatchResults builtins (.rows [answer "index" (.str " 0 ")]) 1
        ["request-1"] = .ok [answered] ∧
      normalizeChatMicrobatchResults builtins (.rows [empty 0, empty 1]) 2 [] =
        .ok [failed 0 0, failed 1 1] ∧
      normalizeChatMicrobatchResults builtins (.rows [empty 1, empty 0]) 2 [] =
        .ok [failed 0 1, failed 1 0] ∧
      failed 0 0 ≠ failed 0 1 :=
  ⟨rfl, rfl, rfl, rfl, by simp [failed]⟩

end MicrobatchDemultiplexing
