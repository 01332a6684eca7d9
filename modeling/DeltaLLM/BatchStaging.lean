import DeltaLLM.CreateSessions
import DeltaLLM.JsonWidths
import DeltaLLM.StreamingCache

/-! # Staging a batch

Creating a batch reads the input file line by line, validates each line and writes one record for
it to a staging artifact, from which the promotion reads the records again. The lines of both files
have the same length limit, but the record of a line is another text than the line.
-/
namespace BatchStaging

open BatchArtifactRows (batchEndpointChatCompletions batchEndpointEmbeddings)
open BatchArtifacts (StoredLines)
open BatchLineReader
open BatchRecords (Timestamp)
open CreateSessions (StagedRequest)
open JsonText
open JsonValues
open JsonWidths
open PythonText
open StreamingCache (Python toInt orElse)

/-- What ends a creation or a promotion early: an HTTPException, a line that is too long, a
ValueError, or an exception of Python itself. -/
inductive StagingError where
  | http (statusCode : ℕ) (detail : String)
  | lineTooLong (lineNumber maxLineBytes : ℕ)
  | value (message : String)
  | python
  deriving DecidableEq, Repr

abbrev Staging := Except StagingError

/-- The two classes of `tools`. -/
inductive ToolDefinition where
  | function
  | mcp
  deriving DecidableEq, Repr

/-- A validated request: what `model_dump(exclude_none=True)` gives, and the fields that are
checked. -/
structure ValidatedRequest where
  dump : JsonObject
  model : String
  stream : Option Bool
  tools : List ToolDefinition

/-- The settings of the service and the code it calls. -/
structure Service where
  py : Python
  /-- `exc.msg` of a text that is no JSON. -/
  decodeMessage : String → String
  /-- `EmbeddingRequest.model_validate`, or the message of its first error. -/
  embeddingRequest : JsonObject → Except String ValidatedRequest
  /-- `ChatCompletionRequest.model_validate`, or the message of its first error. -/
  chatCompletionRequest : JsonObject → Except String ValidatedRequest
  /-- `ensure_batch_model_allowed` for the caller. -/
  ensureBatchModelAllowed : String → Staging Unit
  /-- `resolve_model_group` of the configured resolver, none where it raises. -/
  modelGroupResolver : Option (String → Option String)
  estimateRequestWorkUnits : String → JsonObject → ℤ
  /-- `datetime.fromisoformat` in UTC, and `isoformat`. -/
  fromIsoformat : String → Option Timestamp
  isoformat : Timestamp → String
  endpoint : String
  maxItemsPerBatch : ℕ
  maxLineBytes : ℕ
  storageChunkSize : ℕ
  strictModelHomogeneityEnabled : Bool
  chunkSize_pos : 0 < storageChunkSize

/-! ## Validation of an input line -/

def supportedBatchEndpoints : List String := [batchEndpointEmbeddings, batchEndpointChatCompletions]

def supportedBatchEndpointsDisplay : String := ", ".intercalate supportedBatchEndpoints

def badRequest (detail : String) : StagingError := .http 400 detail

def unsupportedEndpoint (endpoint : String) : StagingError :=
  badRequest ("Unsupported batch endpoint '" ++ endpoint ++ "'. Supported endpoints: " ++
    supportedBatchEndpointsDisplay)

/-- `str(value or default)`. -/
def textOr (py : Python) (value : JsonValue) (default : String) : String :=
  py.text (orElse value (.str default))

def validateBatchChatRequest (payload : ValidatedRequest) (lineNumber : ℕ) : Staging Unit :=
  if payload.stream = some true then
    .error (badRequest (s!"Line {lineNumber} chat batch requests support non-streaming requests only; " ++
      "stream must be false"))
  else if ToolDefinition.mcp ∈ payload.tools then
    .error (badRequest s!"Line {lineNumber} MCP tools are not supported in batch chat yet")
  else .ok ()

/-- `_validate_batch_request_body`. -/
def validateBatchRequestBody (svc : Service) (endpoint : String) (body : JsonObject)
    (lineNumber : ℕ) : Staging (JsonObject × String) :=
  let invalid (message : String) : StagingError :=
    badRequest s!"Invalid request body at line {lineNumber}: {message}"
  if endpoint = batchEndpointEmbeddings then
    match svc.embeddingRequest body with
    | .error message => .error (invalid message)
    | .ok validated => .ok (validated.dump, validated.model)
  else if endpoint = batchEndpointChatCompletions then
    match svc.chatCompletionRequest body with
    | .error message => .error (invalid message)
    | .ok validated => do
        validateBatchChatRequest validated lineNumber
        return (validated.dump, validated.model)
  else .error (unsupportedEndpoint endpoint)

structure ParsedBatchInputLine where
  lineNumber : ℕ
  customId : String
  requestBody : JsonObject
  model : String

/-- The checks on the object of a line. -/
def parseInputObject (svc : Service) (endpoint : String) (fields : JsonObject) (lineNumber : ℕ)
    (seenCustomIds : List String) : Staging ParsedBatchInputLine := do
  let method := upper (strip (textOr svc.py (fields.get "method") "POST"))
  if method ≠ "POST" then throw (badRequest s!"Line {lineNumber} method must be POST")
  let customId := strip (textOr svc.py (fields.get "custom_id") "")
  if customId = "" then throw (badRequest s!"Line {lineNumber} missing custom_id")
  if customId ∈ seenCustomIds then
    throw (badRequest s!"Duplicate custom_id at line {lineNumber}")
  if textOr svc.py (fields.get "url") endpoint ≠ endpoint then
    throw (badRequest s!"Line {lineNumber} must target {endpoint}")
  match fields.get "body" with
  | .dict body => do
      let (requestBody, model) ← validateBatchRequestBody svc endpoint body lineNumber
      svc.ensureBatchModelAllowed model
      return ⟨lineNumber, customId, requestBody, model⟩
  | _ => throw (badRequest s!"Line {lineNumber} missing body")

/-- `parse_batch_input_line`, none for a blank line. -/
def parseBatchInputLine (svc : Service) (rawLine : String) (lineNumber : ℕ)
    (seenCustomIds : List String) : Staging (Option ParsedBatchInputLine) :=
  let endpoint := strip svc.endpoint
  let line := strip rawLine
  if endpoint ∉ supportedBatchEndpoints then .error (unsupportedEndpoint endpoint)
  else if line = "" then .ok none
  else
    match svc.py.loads line with
    | none =>
        .error (badRequest s!"Invalid JSONL at line {lineNumber}: {svc.decodeMessage line}")
    | some (.dict fields) => some <$> parseInputObject svc endpoint fields lineNumber seenCustomIds
    | some _ => .error (badRequest s!"Line {lineNumber} must be an object")

/-! ## Staged records -/

/-- `str(value or "").strip() or None`. -/
def optionalText (py : Python) (value : JsonValue) : Option String :=
  let text := strip (textOr py value "")
  if text = "" then none else some text

/-- `value is None`, or a text without a character that is not blank. -/
def isUnset : JsonValue → Bool
  | .null => true
  | .str s => strip s = ""
  | _ => false

/-- `_parse_optional_work_units`. -/
def parseOptionalWorkUnits (value : JsonValue) : Staging (Option ℕ) :=
  if isUnset value then .ok none
  else
    match toInt value with
    | .value n => .ok (some (max 1 n.toNat))
    | .invalid => .error (.value "estimated_work_units must be an integer")
    | .overflow => .error .python

/-- `_parse_optional_datetime`. -/
def parseOptionalDatetime (svc : Service) (value : JsonValue) : Staging (Option Timestamp) :=
  let invalid : StagingError := .value "not_before_at must be an ISO datetime"
  if isUnset value then .ok none
  else
    match value with
    | .str s =>
        match svc.fromIsoformat (strip s) with
        | some instant => .ok (some instant)
        | none => .error invalid
    | _ => .error invalid

/-- The values a record is made of, before they are checked. -/
structure RecordArguments where
  lineNumber : ℤ
  customId : JsonValue
  requestBody : JsonValue
  schedulingModel : JsonValue := .null
  schedulingModelGroup : JsonValue := .null
  estimatedWorkUnits : JsonValue := .null
  notBeforeAt : JsonValue := .null

/-- `BatchCreateStagedRequest(...)` with its `__post_init__`. -/
def stagedRequest (svc : Service) (args : RecordArguments) : Staging StagedRequest :=
  if args.lineNumber ≤ 0 then .error (.value "line_number must be positive")
  else
    let customId := strip (textOr svc.py args.customId "")
    if customId = "" then .error (.value "custom_id is required")
    else
      match args.requestBody with
      | .dict requestBody => do
          let estimatedWorkUnits ← parseOptionalWorkUnits args.estimatedWorkUnits
          let notBeforeAt ← parseOptionalDatetime svc args.notBeforeAt
          return {
            lineNumber := args.lineNumber.toNat
            customId
            requestBody
            schedulingModel := optionalText svc.py args.schedulingModel
            schedulingModelGroup := optionalText svc.py args.schedulingModelGroup
            estimatedWorkUnits
            notBeforeAt }
      | _ => .error (.value "request_body must be an object")

/-- A field that is left out when it is None. -/
def optionalField (name : String) (value : Option JsonValue) : JsonObject :=
  value.toList.map fun value => (name, value)

/-- `to_jsonable`. -/
def toJsonable (svc : Service) (record : StagedRequest) : JsonObject :=
  [("line_number", .int record.lineNumber), ("custom_id", .str record.customId),
    ("request_body", .dict record.requestBody)] ++
  optionalField "scheduling_model" (record.schedulingModel.map .str) ++
  optionalField "scheduling_model_group" (record.schedulingModelGroup.map .str) ++
  optionalField "estimated_work_units"
    (record.estimatedWorkUnits.map fun units : ℕ => .int units) ++
  optionalField "not_before_at" (record.notBeforeAt.map fun instant => .str (svc.isoformat instant))

/-- The record of the fields of a line. -/
def fromFields (svc : Service) (fields : JsonObject) : Staging StagedRequest :=
  match toInt (orElse (fields.get "line_number") (.int 0)) with
  | .value lineNumber =>
      stagedRequest svc
        { lineNumber
          customId := .str (textOr svc.py (fields.get "custom_id") "")
          requestBody := fields.get "request_body"
          schedulingModel := fields.get "scheduling_model"
          schedulingModelGroup := fields.get "scheduling_model_group"
          estimatedWorkUnits := fields.get "estimated_work_units"
          notBeforeAt := fields.get "not_before_at" }
  | _ => .error .python

/-- `from_jsonable`. -/
def fromJsonable (svc : Service) : JsonValue → Staging StagedRequest
  | .dict fields => fromFields svc fields
  | _ => .error (.value "staged batch-create line must be an object")

/-- `json.dumps(record.to_jsonable(), separators=(",", ":"), ensure_ascii=True)`. -/
def recordText (svc : Service) (record : StagedRequest) : String :=
  String.ofList (valueText (.dict (toJsonable svc record)))

/-- `_serialize`: the record is checked against the limit of a line. -/
def serialize (svc : Service) (record : StagedRequest) : Staging String :=
  let line := recordText svc record
  if svc.maxLineBytes < (encodeText line).length then
    .error (.lineTooLong record.lineNumber svc.maxLineBytes)
  else .ok line

/-! ## The records of an input file -/

/-- What the record generator keeps from line to line. -/
structure Progress where
  seenCustomIds : List String := []
  expectedItemCount : ℕ := 0
  /-- The model and the model group of the first item. -/
  inferred : Option (String × Option String) := none

/-- `resolve_model_group`. -/
def resolveModelGroup (svc : Service) (model : String) : Option String :=
  let normalized := strip model
  if normalized = "" then none
  else
    match svc.modelGroupResolver with
    | none => some normalized
    | some resolver =>
        let resolved := strip ((resolver normalized).getD "")
        some (if resolved = "" then normalized else resolved)

def mixedModelDetail : String :=
  "Batch items must target one model while " ++
    "embeddings_batch_scheduler_strict_model_homogeneity_enabled=true"

/-- The record of an accepted line. -/
def stageParsed (svc : Service) (progress : Progress) (parsed : ParsedBatchInputLine) :
    Staging (StagedRequest × Progress) := do
  let item ← stagedRequest svc
    { lineNumber := parsed.lineNumber, customId := .str parsed.customId,
      requestBody := .dict parsed.requestBody }
  let expectedItemCount := progress.expectedItemCount + 1
  if svc.maxItemsPerBatch < expectedItemCount then
    throw (badRequest
      s!"Batch exceeds embeddings_batch_max_items_per_batch ({svc.maxItemsPerBatch})")
  let group := resolveModelGroup svc parsed.model
  let inferred := progress.inferred.getD (parsed.model, group)
  if inferred ≠ (parsed.model, group) ∧ svc.strictModelHomogeneityEnabled then
    throw (badRequest mixedModelDetail)
  let units := svc.estimateRequestWorkUnits svc.endpoint item.requestBody
  let record ← stagedRequest svc
    { lineNumber := item.lineNumber, customId := .str item.customId,
      requestBody := .dict item.requestBody, schedulingModel := .str parsed.model,
      schedulingModelGroup := (group.map JsonValue.str).getD .null,
      estimatedWorkUnits := .int units }
  return (record,
    { seenCustomIds := parsed.customId :: progress.seenCustomIds
      expectedItemCount
      inferred := some inferred })

/-- One line of the input, none for a blank one. -/
def stageLine (svc : Service) (progress : Progress) (lineNumber : ℕ) (rawLine : String) :
    Staging (Option (StagedRequest × Progress)) := do
  match ← parseBatchInputLine svc rawLine lineNumber progress.seenCustomIds with
  | none => return none
  | some parsed => some <$> stageParsed svc progress parsed

/-- The records of the lines up to the first that is refused, and its error. -/
def stageLines (svc : Service) (progress : Progress) (lineNumber : ℕ) :
    List String → List StagedRequest × Option StagingError
  | [] => ([], none)
  | rawLine :: rawLines =>
      match stageLine svc progress lineNumber rawLine with
      | .error error => ([], some error)
      | .ok none => stageLines svc progress (lineNumber + 1) rawLines
      | .ok (some (record, progress)) =>
          let (records, error) := stageLines svc progress (lineNumber + 1) rawLines
          (record :: records, error)

/-- What `_iter_storage_lines` makes of an error of the reader. -/
def inputError : LineError → StagingError
  | .tooLong lineNumber limit =>
      badRequest s!"Line {lineNumber} exceeds embeddings_batch_max_line_bytes ({limit})"
  | .undecodable _ => .python

/-- `_records` over what the reader of the input file yields. -/
def stagedRecords (svc : Service) (reading : Reading) : List StagedRequest × Option StagingError :=
  let (records, error) := stageLines svc {} 1 reading.lines
  (records, error.or (reading.error.map inputError))

/-! ## The staging artifact -/

section Artifact

variable (sha256 : Bytes → String)

/-- `write_records`: a record is serialized before the next line of the input is read. -/
def writeRecords (svc : Service) (key : StorageKey)
    (stream : List StagedRequest × Option StagingError) (store : ArtifactStore) :
    Staging (StoredLines × ArtifactStore) := do
  let lines ← stream.1.mapM (serialize svc)
  match stream.2 with
  | some error => throw error
  | none =>
      let (artifact, store) := writeLinesStream sha256 key lines store
      if artifact.bytesSize = 0 ∨ artifact.storageKey = "" then
        throw (.value "staged batch-create artifact is empty")
      return (artifact, store)

/-- The records of the lines that are not blank. -/
def decodeRecords (svc : Service) : List String → Staging (List StagedRequest)
  | [] => .ok []
  | rawLine :: rawLines =>
      let line := strip rawLine
      if line = "" then decodeRecords svc rawLines
      else
        match svc.py.loads line with
        | none =>
            .error (.value ("Invalid staged batch-create JSONL: " ++ svc.decodeMessage line))
        | some payload => do
            let record ← fromJsonable svc payload
            return record :: (← decodeRecords svc rawLines)

/-- What an error of the reader is to the promotion. -/
def stagedLineError : LineError → StagingError
  | .tooLong lineNumber limit => .lineTooLong lineNumber limit
  | .undecodable _ => .python

/-- `read_records`. -/
def readRecords (svc : Service) (storageKey : String) (store : ArtifactStore) :
    Staging (List StagedRequest) := do
  match readArtifact (some svc.maxLineBytes) svc.storageChunkSize storageKey store with
  | none => throw .python
  | some reading =>
      let records ← decodeRecords svc reading.lines
      match reading.error with
      | some error => throw (stagedLineError error)
      | none => return records

/-- The lines of the input file, read with the limit of a line. -/
def readInput (svc : Service) (inputKey : String) (inputStore : ArtifactStore) : Option Reading :=
  readArtifact (some svc.maxLineBytes) svc.storageChunkSize inputKey inputStore

/-- The way of an input file through the staging artifact to the promotion. -/
def stageAndRead (svc : Service) (inputKey : String) (inputStore : ArtifactStore)
    (key : StorageKey) (store : ArtifactStore) : Staging (List StagedRequest) := do
  match readInput svc inputKey inputStore with
  | none => throw .python
  | some reading =>
      let (artifact, store) ← writeRecords sha256 svc key (stagedRecords svc reading) store
      readRecords svc artifact.storageKey store

end Artifact

end BatchStaging
