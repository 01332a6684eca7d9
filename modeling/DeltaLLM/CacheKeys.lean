import DeltaLLM.JsonReading
import DeltaLLM.PythonText

/-! # Cache keys

`CacheKeyBuilder`, `parse_cache_options` and the key that `CacheMiddleware` computes for a request.
The digest of SHA-256 is a parameter.
-/
namespace CacheKeys

open JsonReading
open JsonText
open JsonValues
open PythonText

/-! ## The key builder -/

/-- `DEFAULT_CACHE_KEY_FIELDS`. -/
def keyFields : List String :=
  ["model", "messages", "temperature", "top_p", "max_tokens", "n", "stop", "tools", "tool_choice",
    "response_format", "frequency_penalty", "presence_penalty", "logit_bias", "user", "seed",
    "input", "encoding_format", "dimensions"]

mutual

/-- `CacheKeyBuilder._normalize`: fields in the order of their names, floats with six decimals. -/
def normalize : JsonValue → JsonValue
  | .null => .null
  | .bool b => .bool b
  | .int n => .int n
  | .float x => .float (roundSix x)
  | .str s => .str s
  | .list xs => .list (normalizeAll xs)
  | .dict fields => .dict (sortFields (normalizeFields fields))

def normalizeAll : List JsonValue → List JsonValue
  | [] => []
  | x :: xs => normalize x :: normalizeAll xs

def normalizeFields : List (String × JsonValue) → List (String × JsonValue)
  | [] => []
  | (name, value) :: fields => (name, normalize value) :: normalizeFields fields

end

def components (requestData : JsonObject) : JsonObject :=
  keyFields.filterMap fun field => (requestData.get? field).map fun value => (field, value)

/-- The text that is hashed. -/
def keyText (salt : String) (requestData : JsonObject) : String :=
  let asString := dumps (normalize (.dict (components requestData)))
  if salt = "" then asString else salt ++ ":" ++ asString

/-- `CacheKeyBuilder.build_key_from_payload`. -/
def buildKeyFromPayload (sha256 : String → String) (salt : String) (requestData : JsonObject)
    (customKey : Option String) : String :=
  match customKey with
  | some key => if key = "" then sha256 (keyText salt requestData) else "custom:" ++ key
  | none => sha256 (keyText salt requestData)

/-! ## Cache controls -/

inductive CacheControl where
  | default | noCache | noStore | bypass
  deriving DecidableEq, Repr

structure CacheOptions where
  control : CacheControl
  ttl : Option ℤ
  customKey : Option String
  deriving DecidableEq, Repr

/-- `_normalized_headers(request).get(name)`. -/
def header (headers : List (String × String)) (name : String) : Option String :=
  ((headers.filter fun h => lower h.1 = name).getLast?).map Prod.snd

def headerControl (headers : List (String × String)) : CacheControl :=
  let cacheControl := lower ((header headers "cache-control").getD "")
  if contains cacheControl "no-store" then .noStore
  else if contains cacheControl "no-cache" then .noCache
  else .default

/-- `metadata = request_data.get("metadata") or {}`, empty when it is not an object. -/
def metadataOf (requestData : JsonObject) : JsonObject :=
  match requestData.get "metadata" with
  | .dict fields => fields
  | _ => []

def parseCacheOptions (requestData : JsonObject) (headers : List (String × String)) :
    CacheOptions where
  control :=
    match (metadataOf requestData).get "cache" with
    | .bool false => .bypass
    | .str "no-cache" => .noCache
    | .str "no-store" => .noStore
    | _ => headerControl headers
  ttl :=
    match (metadataOf requestData).get "cache_ttl" with
    | .int n => some n
    | .bool b => some (if b then 1 else 0)
    | _ => (header headers "cache-ttl").bind intOfText
  customKey :=
    match (metadataOf requestData).get "cache_key" with
    | .str key => if strip key = "" then none else some (strip key)
    | _ => none

/-! ## The middleware -/

structure CacheRequest where
  method : String
  path : String
  headers : List (String × String)
  /-- The parsed body, none when it is empty or not JSON. -/
  body : Option JsonValue
  /-- The key of the authenticated caller. -/
  apiKey : Option String

def enabledEndpoints : List String :=
  ["/v1/chat/completions", "/v1/completions", "/v1/responses", "/v1/embeddings"]

def shouldCache (request : CacheRequest) : Bool :=
  upper request.method = "POST" ∧ request.path ∈ enabledEndpoints

def CacheRequest.payload (request : CacheRequest) : JsonObject :=
  match request.body with
  | some (.dict requestData) => requestData
  | _ => []

def CacheRequest.options (request : CacheRequest) : CacheOptions :=
  parseCacheOptions request.payload request.headers

def scopedCacheKey (cacheKey : String) (apiKey : Option String) : String :=
  match apiKey with
  | none => "scope:anonymous:" ++ cacheKey
  | some key => "scope:key:" ++ (if key = "" then "anonymous" else key) ++ ":" ++ cacheKey

/-- A request that gets as far as its cache key. -/
def Cached (request : CacheRequest) : Prop :=
  shouldCache request = true ∧ request.payload.isEmpty = false ∧ request.options.control ≠ .bypass

instance (request : CacheRequest) : Decidable (Cached request) :=
  inferInstanceAs (Decidable (_ ∧ _ ∧ _))

/-- The key of the cache context that `CacheMiddleware.dispatch` sets, once the request has passed
authentication, rate limits and budgets. -/
def cacheKey (sha256 : String → String) (salt : String) (request : CacheRequest) : Option String :=
  if Cached request then
    some (scopedCacheKey
      (buildKeyFromPayload sha256 salt request.payload request.options.customKey) request.apiKey)
  else none

/-! ## What a key tells of a payload -/

/-- The payloads agree on the keyed fields as the key sees them. -/
def KeyedFieldsMatch (p p' : JsonObject) : Prop :=
  ∀ field ∈ keyFields, (p.get? field).map normalize = (p'.get? field).map normalize

theorem normalizeAll_eq (xs : List JsonValue) : normalizeAll xs = xs.map normalize := by
  induction xs with
  | nil => rw [normalizeAll, List.map_nil]
  | cons x xs ih => rw [normalizeAll, ih, List.map_cons]

theorem normalizeFields_eq (fields : JsonObject) :
    normalizeFields fields = fields.map fun field => (field.1, normalize field.2) := by
  induction fields with
  | nil => rw [normalizeFields, List.map_nil]
  | cons field fields ih => rw [normalizeFields, ih, List.map_cons]

theorem decimal_roundSix (x : JsonFloat) : Decimal (.float (roundSix x)) := by
  cases x with
  | finite q => exact .finite _ 6
  | infinity negative => exact .infinity negative
  | nan => exact .nan

theorem decimal_normalize (v : JsonValue) : Decimal (normalize v) := by
  induction v using JsonValue.partsInduction with
  | float x => exact decimal_roundSix x
  | list xs ih =>
      rw [normalize, normalizeAll_eq]
      refine .list _ fun x hx => ?_
      obtain ⟨y, hy, rfl⟩ := List.mem_map.mp hx
      exact ih y hy
  | dict fields ih =>
      rw [normalize, normalizeFields_eq]
      refine .dict _ fun field hfield => ?_
      obtain ⟨original, horiginal, rfl⟩ := List.mem_map.mp (List.mem_mergeSort.mp hfield)
      exact ih original horiginal
  | _ =>
      rw [normalize]
      constructor

theorem sortKeys_normalize (v : JsonValue) : sortKeys (normalize v) = normalize v := by
  induction v using JsonValue.partsInduction with
  | list xs ih =>
      rw [normalize, sortKeys, sortKeysAll_eq, normalizeAll_eq, List.map_map]
      exact congrArg _ (List.map_congr_left ih)
  | dict fields ih =>
      have hsorted : (sortFields (normalizeFields fields)).map
          (fun field => (field.1, sortKeys field.2)) = sortFields (normalizeFields fields) := by
        calc (sortFields (normalizeFields fields)).map (fun field => (field.1, sortKeys field.2))
            = (sortFields (normalizeFields fields)).map id := by
              refine List.map_congr_left fun field hfield => ?_
              rw [normalizeFields_eq] at hfield
              obtain ⟨original, horiginal, rfl⟩ := List.mem_map.mp (List.mem_mergeSort.mp hfield)
              exact Prod.ext rfl (ih original horiginal)
          _ = sortFields (normalizeFields fields) := List.map_id _
      rw [normalize, sortKeys, sortKeysFields_eq, hsorted, sortFields_idem]
  | _ => rw [normalize, sortKeys]

theorem normalized_components (requestData : JsonObject) :
    normalizeFields (components requestData) = keyFields.filterMap fun field =>
      ((requestData.get? field).map normalize).map fun value => (field, value) := by
  rw [normalizeFields_eq, components, List.map_filterMap]
  simp only [Option.map_map]
  rfl

/-- The normalized components tell the keyed fields apart as far as the key sees them. -/
theorem normalize_components_eq_iff {p p' : JsonObject} :
    normalize (.dict (components p)) = normalize (.dict (components p')) ↔
      KeyedFieldsMatch p p' := by
  rw [normalize, normalize, JsonValue.dict.injEq, normalized_components, normalized_components]
  constructor
  · intro heq field hfield
    have hperm := (List.mergeSort_perm _ _).symm.trans
      ((List.Perm.of_eq heq).trans (List.mergeSort_perm _ _))
    have hmem : ∀ value, (p.get? field).map normalize = some value ↔
        (p'.get? field).map normalize = some value := by
      intro value
      have hboth := hperm.mem_iff (a := (field, value))
      simpa [hfield] using hboth
    exact Option.ext hmem
  · intro hmatch
    congr 1
    exact List.filterMap_congr fun field hfield => by rw [hmatch field hfield]

theorem keyText_eq_iff {salt : String} {p p' : JsonObject} :
    keyText salt p = keyText salt p' ↔ KeyedFieldsMatch p p' := by
  rw [← normalize_components_eq_iff]
  constructor
  · intro htext
    have hdumps : dumps (normalize (.dict (components p))) =
        dumps (normalize (.dict (components p'))) := by
      simp only [keyText] at htext
      split at htext
      · exact htext
      · exact (String.append_right_inj _).mp htext
    have hsorted := sortKeys_eq_of_dumps (decimal_normalize _) (decimal_normalize _) hdumps
    rwa [sortKeys_normalize, sortKeys_normalize] at hsorted
  · intro heq
    rw [keyText, keyText, heq]

/-! ## Soundness -/

/-- The fields that determine the answer. -/
def Determines (field : String) : Prop := field ≠ "stream" ∧ field ≠ "user" ∧ field ≠ "metadata"

/-- The payloads agree on the field; the order of the fields of an object does not matter. -/
def AgreeAt (p p' : JsonObject) (field : String) : Prop :=
  (p.get? field).map sortKeys = (p'.get? field).map sortKeys

/-- One key for both requests means one endpoint and one determining payload. -/
def KeySound (sha256 : String → String) (salt : String) (r r' : CacheRequest) : Prop :=
  ∀ key, cacheKey sha256 salt r = some key → cacheKey sha256 salt r' = some key →
    r.path = r'.path ∧ ∀ field, Determines field → AgreeAt r.payload r'.payload field

/-- A difference between two requests that the key does not see: the endpoint, a field outside the
key, or what rounding takes from a keyed field. -/
structure Overlooked (r r' : CacheRequest) : Prop where
  cached : Cached r
  cached' : Cached r'
  keyed : KeyedFieldsMatch r.payload r'.payload
  differ : r.path ≠ r'.path ∨
    (∃ field, Determines field ∧ field ∉ keyFields ∧ ¬AgreeAt r.payload r'.payload field) ∨
    ∃ field ∈ keyFields, field ≠ "user" ∧ ¬AgreeAt r.payload r'.payload field

theorem cached_of_cacheKey {sha256 : String → String} {salt key : String} {r : CacheRequest}
    (h : cacheKey sha256 salt r = some key) : Cached r := by
  unfold cacheKey at h
  split at h
  · assumption
  · cases h

theorem scopedCacheKey_inj {k k' : String} {apiKey : Option String}
    (h : scopedCacheKey k apiKey = scopedCacheKey k' apiKey) : k = k' := by
  cases apiKey with
  | none => exact (String.append_right_inj _).mp h
  | some key => exact (String.append_right_inj _).mp h

theorem cacheKey_eq (sha256 : String → String) (salt : String) {r : CacheRequest}
    (hcached : Cached r) (hcustom : r.options.customKey = none) :
    cacheKey sha256 salt r =
      some (scopedCacheKey (sha256 (keyText salt r.payload)) r.apiKey) := by
  rw [cacheKey, if_pos hcached, hcustom, buildKeyFromPayload]

theorem determines_of_keyed {field : String} (hfield : field ∈ keyFields) (huser : field ≠ "user") :
    Determines field := by
  have hstream : "stream" ∉ keyFields := by decide +kernel
  have hmetadata : "metadata" ∉ keyFields := by decide +kernel
  refine ⟨?_, huser, ?_⟩
  · rintro rfl
    exact hstream hfield
  · rintro rfl
    exact hmetadata hfield

/-- Two requests of one caller have one key exactly when they match on the keyed fields. -/
theorem same_key_iff {sha256 : String → String} {salt : String} {r r' : CacheRequest}
    (hapiKey : r.apiKey = r'.apiKey) (hcustom : r.options.customKey = none)
    (hcustom' : r'.options.customKey = none)
    (hsha256 : sha256 (keyText salt r.payload) = sha256 (keyText salt r'.payload) →
      keyText salt r.payload = keyText salt r'.payload) :
    (∃ key, cacheKey sha256 salt r = some key ∧ cacheKey sha256 salt r' = some key) ↔
      Cached r ∧ Cached r' ∧ KeyedFieldsMatch r.payload r'.payload := by
  constructor
  · rintro ⟨key, hkey, hkey'⟩
    have hcached := cached_of_cacheKey hkey
    have hcached' := cached_of_cacheKey hkey'
    rw [cacheKey_eq sha256 salt hcached hcustom] at hkey
    rw [cacheKey_eq sha256 salt hcached' hcustom', ← hapiKey, ← hkey] at hkey'
    have hdigest := scopedCacheKey_inj (Option.some.inj hkey')
    exact ⟨hcached, hcached', keyText_eq_iff.mp (hsha256 hdigest.symm)⟩
  · rintro ⟨hcached, hcached', hmatch⟩
    refine ⟨_, cacheKey_eq sha256 salt hcached hcustom, ?_⟩
    rw [cacheKey_eq sha256 salt hcached' hcustom', hapiKey, (@keyText_eq_iff salt _ _).mpr hmatch]

namespace Counterexample

/-- A completion request with this prompt. -/
def completion (prompt : String) : CacheRequest where
  method := "POST"
  path := "/v1/completions"
  headers := [("content-type", "application/json")]
  body := some (.dict [("model", .str "gpt-4o-mini"), ("prompt", .str prompt)])
  apiKey := some "sk-team"

/-- A chat request, streamed or not. -/
def chat (stream : Bool) : CacheRequest where
  method := "POST"
  path := "/v1/chat/completions"
  headers := [("content-type", "application/json")]
  body := some (.dict [("model", .str "gpt-4o-mini"),
    ("messages", .list [.dict [("role", .str "user"), ("content", .str "Hello")]]),
    ("stream", .bool stream)])
  apiKey := some "sk-team"

theorem completions_match (prompt prompt' : String) :
    KeyedFieldsMatch (completion prompt).payload (completion prompt').payload := by
  have hprompt : "prompt" ∉ keyFields := by decide +kernel
  intro field hfield
  have hne : "prompt" ≠ field := by
    rintro rfl
    exact hprompt hfield
  simp [completion, CacheRequest.payload, JsonObject.get?, hne]

theorem chats_match : KeyedFieldsMatch (chat false).payload (chat true).payload := by
  have hstream : "stream" ∉ keyFields := by decide +kernel
  intro field hfield
  have hne : "stream" ≠ field := by
    rintro rfl
    exact hstream hfield
  simp [chat, CacheRequest.payload, JsonObject.get?, hne]

end Counterexample

end CacheKeys
