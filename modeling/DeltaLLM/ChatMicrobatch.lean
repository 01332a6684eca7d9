import DeltaLLM.Dictionaries
import DeltaLLM.JsonValues
import DeltaLLM.PythonText
import DeltaLLM.RowPlacement

/-! # Results of one chat microbatch

The executor answers several requests with one list of rows. A row names its request by
`item_index`, `index` or `custom_id`, and the names it gives have to agree.
-/
namespace ChatMicrobatch

open CheckedResults
open Dictionaries (Dict)
open JsonValues (JsonValue JsonFloat JsonObject)
open PythonText (intOfText strip lower contains)
open RowPlacement (RowReader)

/-- An exception instance that the executor put into a row. -/
structure ProviderException where
  kind : String
  message : String
  deriving DecidableEq, Repr

inductive RawValue where
  | json (value : JsonValue)
  | exception (raised : ProviderException)

/-- The fields of a mapping, a dataclass or an object with attributes. -/
abbrev RawFields := Dict String RawValue

inductive RawResult where
  | fields (fields : RawFields)
  | notAnObject

inductive RawResults where
  | rows (rows : List RawResult)
  | notAResultList

/-- Python's `float` on integers and texts, none where it raises OverflowError or ValueError, and
`str` on floats, lists, objects and exceptions. -/
structure Builtins where
  floatOfInt : ℤ → Option JsonFloat
  floatOfText : String → Option JsonFloat
  repr : RawValue → String

inductive MicrobatchError where
  | responseShape (text : String)
  | overflowError
  deriving DecidableEq, Repr

/-- The error of one item. -/
inductive ItemError where
  | exception (raised : ProviderException)
  | missingResponseBody (rowNumber : ℕ)
  | missingUsage (rowNumber : ℕ)
  | rateLimit (message : String) (retryAfter : Option ℤ)
  | timeout (message : String)
  | serviceUnavailable (message : String)
  | invalidRequest (message : String)
  deriving DecidableEq, Repr

def ItemError.message : ItemError → String
  | .exception raised => raised.message
  | .missingResponseBody rowNumber =>
      s!"chat microbatch response item {rowNumber} is missing response body"
  | .missingUsage rowNumber =>
      s!"chat microbatch response item {rowNumber} is missing per-item usage"
  | .rateLimit message _ | .timeout message | .serviceUnavailable message
  | .invalidRequest message => message

/-- `NormalizedChatMicrobatchResult`. -/
structure NormalizedResult where
  index : ℤ
  responseBody : Option JsonObject
  usage : Option JsonObject
  error : Option ItemError
  apiLatencyMs : Option JsonFloat

def RawValue.truthy : RawValue → Bool
  | .json value => value.truthy
  | .exception _ => true

/-- `value or other`. -/
def RawValue.or (value other : RawValue) : RawValue := if value.truthy then value else other

def RawFields.get (fields : RawFields) (name : String) : RawValue :=
  (fields.get? name).getD (.json .null)

section Conversions

variable (builtins : Builtins)

/-- `str(value)`. -/
def textOf : RawValue → String
  | .json .null => "None"
  | .json (.bool b) => if b then "True" else "False"
  | .json (.int n) => toString n
  | .json (.str text) => text
  | value => builtins.repr value

/-- `_optional_float`: TypeError and ValueError read as None. -/
def optionalFloat : RawValue → Except MicrobatchError (Option JsonFloat)
  | .json (.bool b) => .ok (some (.finite (if b then 1 else 0)))
  | .json (.int n) =>
      match builtins.floatOfInt n with
      | some x => .ok (some x)
      | none => .error .overflowError
  | .json (.float x) => .ok (some x)
  | .json (.str text) => .ok (builtins.floatOfText text)
  | _ => .ok none

/-- `_optional_int`: the truncated float, and `int(nan)` raises ValueError. -/
def optionalInt (value : RawValue) : Except MicrobatchError (Option ℤ) := do
  match ← optionalFloat builtins value with
  | some (.finite q) => return some (q.num.tdiv q.den)
  | some (.infinity _) => .error .overflowError
  | some .nan | none => return none

/-- `_first_optional_int`. -/
def firstOptionalInt : List RawValue → Except MicrobatchError (Option ℤ)
  | [] => .ok none
  | value :: values => do
      match ← optionalInt builtins value with
      | some n => return some n
      | none => firstOptionalInt values

end Conversions

/-- `_nested_error_mapping`. -/
def nestedError (rawError : JsonObject) : Option JsonObject :=
  match rawError.get "error" with
  | .dict nested => some nested
  | _ => none

/-- The fields of an error and of the error nested in it, under these names. -/
def errorFields (rawError : JsonObject) (names : List String) : List RawValue :=
  names.map (fun name => .json (rawError.get name)) ++
    names.map fun name => .json (((nestedError rawError).map (JsonObject.get · name)).getD .null)

section Errors

variable (builtins : Builtins)

/-- `_error_message`. -/
def errorMessage (rawError : JsonObject) : String :=
  let message : RawValue :=
    match rawError.get "error" with
    | .dict nested => (RawValue.json (JsonObject.get nested "message")).or
        (.json (JsonObject.get nested "detail"))
    | nested => ((RawValue.json (rawError.get "message")).or
        (.json (rawError.get "detail"))).or (.json nested)
  textOf builtins (message.or (.json (.dict rawError)))

def isNone : JsonValue → Bool
  | .null => true
  | _ => false

/-- `_error_kind`. -/
def errorKind (rawError : JsonObject) : String :=
  let nestedValues := match nestedError rawError with
    | some nested => [nested.get "type", nested.get "code"]
    | none => []
  let values := [rawError.get "type", rawError.get "error_type", rawError.get "code",
    rawError.get "status"] ++ nestedValues
  let texts := (values.filter (!isNone ·)).map fun value => lower (textOf builtins (.json value))
  " ".intercalate texts

/-- `_normalize_result_error`. -/
def normalizeResultError : RawValue → Except MicrobatchError (Option ItemError)
  | .json .null => .ok none
  | .exception raised => .ok (some (.exception raised))
  | .json (.dict rawError) => do
      let message := errorMessage builtins rawError
      let statusCode ← firstOptionalInt builtins
        (errorFields rawError ["status_code", "status", "http_status", "code"])
      let kind := errorKind builtins rawError
      let retryAfter ← firstOptionalInt builtins
        (errorFields rawError ["retry_after", "retry_after_seconds"])
      if statusCode = some 429 ∨ contains kind "rate_limit" ∨ contains kind "rate limit" then
        return some (.rateLimit message retryAfter)
      else if statusCode = some 408 ∨ contains kind "timeout" ∨ contains kind "timed_out" then
        return some (.timeout message)
      else if (∃ code ∈ statusCode, 500 ≤ code) ∨
          ["service_unavailable", "server_error", "overload", "upstream_5xx"].any
            (contains kind ·) then
        return some (.serviceUnavailable message)
      else return some (.invalidRequest message)
  | value => .ok (some (.invalidRequest (textOf builtins value)))

end Errors

/-- `_result_response_body`: a later name counts only where the earlier key is absent. -/
def resultResponseBody (result : RawFields) : Option JsonObject :=
  let rawResponse := (result.get? "response_body").getD
    ((result.get? "response").getD (result.get "body"))
  match rawResponse with
  | .json (.dict body) => some body
  | _ => none

/-- `_result_usage`. -/
def resultUsage (result : RawFields) (responseBody : Option JsonObject) : Option JsonObject :=
  let rawUsage : RawValue := match result.get "usage", responseBody with
    | .json .null, some body => .json (body.get "usage")
    | usage, _ => usage
  match rawUsage with
  | .json (.dict usage) => some usage
  | _ => none

/-- `_coerce_result_index`. -/
def coerceResultIndex : RawValue → Except MicrobatchError ℤ
  | .json (.str text) =>
      if strip text = "" then
        .error (.responseShape "chat microbatch response item has invalid index")
      else match intOfText (strip text) with
        | some n => .ok n
        | none => .error (.responseShape "chat microbatch response item has invalid index")
  | .json (.int n) => .ok n
  | _ => .error (.responseShape "chat microbatch response item has invalid index")

/-- The field where it is there and not None. -/
def presentField (result : RawFields) (name : String) : Option RawValue :=
  match result.get name with
  | .json .null => none
  | value => some value

/-- `{custom_id: index for index, custom_id in enumerate(custom_ids)}`. -/
def customIdToIndex (customIds : List String) : Dict String ℕ :=
  Dict.ofRecords Prod.fst Prod.snd customIds.zipIdx

/-- `_custom_id_result_index`. -/
def customIdResultIndex (builtins : Builtins) (customId : RawValue) (index : Dict String ℕ) :
    Except MicrobatchError ℤ :=
  match index.get? (textOf builtins customId) with
  | some place => .ok place
  | none => .error (.responseShape "chat microbatch response item has unknown custom_id")

/-- The value of a present field, or this one. -/
def readPresent (read : RawValue → Except MicrobatchError ℤ) (absent : Option ℤ) :
    Option RawValue → Except MicrobatchError (Option ℤ)
  | some value => some <$> read value
  | none => .ok absent

/-- `_result_index`. -/
def resultIndex (builtins : Builtins) (customIdIndexes : Dict String ℕ) (result : RawFields) :
    Except MicrobatchError ℤ := do
  let itemIndex ← readPresent coerceResultIndex none (presentField result "item_index")
  let index ← readPresent coerceResultIndex itemIndex (presentField result "index")
  if itemIndex.isSome ∧ index.isSome ∧ itemIndex ≠ index then
    .error (.responseShape "chat microbatch response item has mismatched item_index and index")
  else do
    let customIdIndex ← readPresent (customIdResultIndex builtins · customIdIndexes) none
      (presentField result "custom_id")
    match index, customIdIndex with
    | some index, some customIdIndex =>
        if index ≠ customIdIndex then
          .error (.responseShape "chat microbatch response item has mismatched index and custom_id")
        else .ok index
    | some index, none => .ok index
    | none, some customIdIndex => .ok customIdIndex
    | none, none =>
        .error (.responseShape "chat microbatch response item is missing index or custom_id")

/-- `_result_mapping`. -/
def resultMapping : RawResult → Except MicrobatchError RawFields
  | .fields fields => .ok fields
  | .notAnObject => .error (.responseShape "chat microbatch response item is not an object")

/-- The loop body of `normalize_chat_microbatch_results` once the row's place is known. -/
def normalizeRow (builtins : Builtins) (rowNumber : ℕ) (index : ℤ) (result : RawFields) :
    Except MicrobatchError NormalizedResult := do
  let apiLatencyMs ← optionalFloat builtins
    ((result.get "api_latency_ms").or (result.get "latency_ms"))
  let error ← normalizeResultError builtins ((result.get "error").or (result.get "exception"))
  let responseBody := resultResponseBody result
  let usage := resultUsage result responseBody
  let error := if error = none ∧ responseBody.isNone then some (.missingResponseBody rowNumber)
    else error
  let error := if error = none ∧ (usage.getD []).isEmpty then some (.missingUsage rowNumber)
    else error
  return ⟨index, responseBody, usage, error, apiLatencyMs⟩

def chatReader (builtins : Builtins) (customIds : List String) :
    RowReader RawResult RawFields NormalizedResult MicrobatchError where
  fieldsOf _ := resultMapping
  indexOf _ := resultIndex builtins (customIdToIndex customIds)
  content := normalizeRow builtins
  outOfRange rowNumber index := .responseShape
    s!"chat microbatch response item {rowNumber} index out of range index={index}"
  duplicate index := .responseShape s!"chat microbatch response contains duplicate index={index}"
  missing := .responseShape "chat microbatch response is missing one or more expected indexes"

/-- `normalize_chat_microbatch_results`. -/
def normalizeChatMicrobatchResults (builtins : Builtins) (rawResults : RawResults)
    (expectedCount : ℕ) (customIds : List String) :
    Except MicrobatchError (List NormalizedResult) :=
  match rawResults with
  | .notAResultList => .error (.responseShape "chat microbatch response is not a result list")
  | .rows rows =>
      if rows.length ≠ expectedCount then
        .error (.responseShape
        s!"chat microbatch response length mismatch expected={expectedCount} actual={rows.length}")
      else (chatReader builtins customIds).demultiplex expectedCount rows

/-- The value reads as this place: an integer or a decimal text, and no truth value. -/
def NamesPlace (value : RawValue) (place : ℕ) : Prop :=
  value = .json (.int place) ∨ ∃ text, value = .json (.str text) ∧ intOfText text = some (place : ℤ)

/-- The last request with this custom id. -/
def LastRequest (customIds : List String) (customId : String) (place : ℕ) : Prop :=
  customIds[place]? = some customId ∧ ∀ later, place < later → customIds[later]? ≠ some customId

/-- Every name that the row gives is the name of this place, and there is one. -/
structure IdentifiedBy (builtins : Builtins) (customIds : List String) (result : RawFields)
    (place : ℕ) : Prop where
  named : ∃ name ∈ ["item_index", "index", "custom_id"], presentField result name ≠ none
  itemIndex : ∀ value, presentField result "item_index" = some value → NamesPlace value place
  index : ∀ value, presentField result "index" = some value → NamesPlace value place
  customId : ∀ value, presentField result "custom_id" = some value →
    LastRequest customIds (textOf builtins value) place

section Names

variable {builtins : Builtins} {customIds : List String} {result : RawFields} {place : ℕ}

theorem coerceResultIndex_ok_iff {value : RawValue} :
    coerceResultIndex value = .ok (place : ℤ) ↔ NamesPlace value place := by
  have hstrip : ∀ text, intOfText (strip text) = intOfText text := by
    intro text
    simp [intOfText, PythonText.strip_strip]
  rcases value with (_ | b | n | x | text | xs | fields) | raised
  all_goals try simp [coerceResultIndex, NamesPlace]
  case json.str =>
    by_cases hblank : strip text = ""
    · have hnone : intOfText text = none := by
        simp [intOfText, hblank, PythonText.digitsValue]
      simp [hblank, hnone]
    · rw [if_neg hblank, hstrip]
      cases intOfText text <;> simp

theorem lastRequest_snoc {last customId : String} :
    LastRequest (customIds ++ [last]) customId place ↔
      if last = customId then place = customIds.length
        else LastRequest customIds customId place := by
  have hlast : (customIds ++ [last])[customIds.length]? = some last := by simp
  have hbound : ∀ {i : ℕ}, (customIds ++ [last])[i]? = some customId → i ≤ customIds.length := by
    intro i hi
    have hlt := (List.getElem?_eq_some_iff.mp hi).1
    rw [List.length_append, List.length_singleton] at hlt
    omega
  by_cases heq : last = customId
  · subst heq
    rw [if_pos rfl]
    constructor
    · rintro ⟨hplace, hlater⟩
      rcases Nat.lt_or_ge place customIds.length with hlt | hge
      · exact absurd hlast (hlater _ hlt)
      · exact Nat.le_antisymm (hbound hplace) hge
    · rintro rfl
      refine ⟨hlast, fun later hlater hfound => ?_⟩
      have hle := hbound hfound
      omega
  · have hsame : ∀ i : ℕ, (customIds ++ [last])[i]? = some customId ↔
        customIds[i]? = some customId := by
      intro i
      rcases Nat.lt_trichotomy i customIds.length with hlt | rfl | hgt
      · rw [List.getElem?_append_left hlt]
      · simp [heq]
      · have hnone : customIds[i]? = none := List.getElem?_eq_none hgt.le
        refine ⟨fun hi => absurd (hbound hi) (by omega), fun hi => ?_⟩
        rw [hnone] at hi
        cases hi
    rw [if_neg heq, LastRequest, LastRequest, hsame]
    simp only [ne_eq, hsame]

theorem customIdToIndex_get? {customId : String} :
    (customIdToIndex customIds).get? customId = some place ↔
      LastRequest customIds customId place := by
  rw [customIdToIndex, Dict.get?_ofRecords]
  induction customIds using List.reverseRecOn with
  | nil => simp [LastRequest]
  | append_singleton customIds last ih =>
      rw [lastRequest_snoc, ← ih, List.zipIdx_append, List.reverse_append]
      by_cases heq : last = customId
      · simp [heq, eq_comm]
      · simp [heq]

theorem customIdResultIndex_ok_iff {value : RawValue} :
    customIdResultIndex builtins value (customIdToIndex customIds) = .ok (place : ℤ) ↔
      LastRequest customIds (textOf builtins value) place := by
  rw [← customIdToIndex_get?, customIdResultIndex]
  cases (customIdToIndex customIds).get? (textOf builtins value) with
  | none => simp
  | some other =>
      simp only [Except.ok.injEq, Option.some.injEq]
      omega

theorem identifiedBy_iff :
    IdentifiedBy builtins customIds result place ↔
      (presentField result "item_index" ≠ none ∨ presentField result "index" ≠ none ∨
        presentField result "custom_id" ≠ none) ∧
      (∀ value ∈ presentField result "item_index", coerceResultIndex value = .ok (place : ℤ)) ∧
      (∀ value ∈ presentField result "index", coerceResultIndex value = .ok (place : ℤ)) ∧
      ∀ value ∈ presentField result "custom_id",
        customIdResultIndex builtins value (customIdToIndex customIds) = .ok (place : ℤ) := by
  simp only [coerceResultIndex_ok_iff, customIdResultIndex_ok_iff, Option.mem_def]
  constructor
  · rintro ⟨hnamed, hitem, hindex, hcustom⟩
    exact ⟨by simpa using hnamed, hitem, hindex, hcustom⟩
  · rintro ⟨hnamed, hitem, hindex, hcustom⟩
    exact ⟨by simpa using hnamed, hitem, hindex, hcustom⟩

theorem readPresent_ok_iff {read : RawValue → Except MicrobatchError ℤ} {absent index : Option ℤ}
    {field : Option RawValue} :
    readPresent read absent field = .ok index ↔
      (field = none ∧ index = absent) ∨
        ∃ value n, field = some value ∧ read value = .ok n ∧ index = some n := by
  cases field with
  | none => simp [readPresent, eq_comm]
  | some value =>
      cases hvalue : read value <;>
        simp [readPresent, hvalue, Functor.map, Except.map, eq_comm]

theorem resultIndex_ok_iff :
    resultIndex builtins (customIdToIndex customIds) result = .ok (place : ℤ) ↔
      IdentifiedBy builtins customIds result place := by
  rw [identifiedBy_iff]
  constructor
  · intro h
    obtain ⟨itemIndex, hitem, h⟩ := bind_ok_iff.mp h
    obtain ⟨index, hindex, h⟩ := bind_ok_iff.mp h
    split_ifs at h with hmismatch
    obtain ⟨customIdIndex, hcustom, h⟩ := bind_ok_iff.mp h
    rcases readPresent_ok_iff.mp hitem with ⟨hfield, rfl⟩ | ⟨v, i, hfield, hv, rfl⟩ <;>
      rcases readPresent_ok_iff.mp hindex with ⟨hfield', rfl⟩ | ⟨w, j, hfield', hw, rfl⟩ <;>
      rcases readPresent_ok_iff.mp hcustom with ⟨hfield'', rfl⟩ | ⟨u, k, hfield'', hu, rfl⟩ <;>
      clear hitem hindex hcustom <;> simp_all
    -- Left are the rows that give a custom id and an index: both are the place.
    all_goals
      split_ifs at h with hagree
      simp_all
  · rintro ⟨hnamed, hitem, hindex, hcustom⟩
    cases hfield : presentField result "item_index" <;>
      cases hfield' : presentField result "index" <;>
      cases hfield'' : presentField result "custom_id" <;>
      simp_all [resultIndex, readPresent, Functor.map, Except.map, bind, Except.bind]

end Names

end ChatMicrobatch
