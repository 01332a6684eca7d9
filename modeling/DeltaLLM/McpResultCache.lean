import DeltaLLM.CacheKeys
import DeltaLLM.McpApprovals

/-! # The cache of tool results

`MCPToolResultCache` on the memory backend that it shares with the response cache. Times count
milliseconds; the digest of SHA-256 is a parameter.
-/
namespace McpResultCache

open Dictionaries
open JsonReading
open JsonText
open JsonValues
open McpApprovals

/-! ## The memory backend -/

structure CacheEntry where
  response : JsonObject
  model : String
  cachedAt : ℤ
  ttl : ℤ

/-- The entries from the least recently used on. -/
structure InMemoryBackend where
  maxSize : ℕ
  cache : Dict String CacheEntry

def CacheEntry.expired (now : ℤ) (entry : CacheEntry) : Bool :=
  decide (entry.cachedAt + 1000 * entry.ttl < now)

def InMemoryBackend.get (backend : InMemoryBackend) (now : ℤ) (key : String) :
    Option CacheEntry × InMemoryBackend :=
  match backend.cache.get? key with
  | none => (none, backend)
  | some entry =>
      if entry.expired now then (none, { backend with cache := backend.cache.pop key })
      else (some entry, { backend with cache := backend.cache.pop key ++ [(key, entry)] })

def InMemoryBackend.set (backend : InMemoryBackend) (key : String) (entry : CacheEntry)
    (ttl : Option ℤ) : InMemoryBackend :=
  let cache := backend.cache.pop key ++ [(key, { entry with ttl := ttl.getD entry.ttl })]
  { backend with cache := cache.drop (cache.length - backend.maxSize) }

section Backend

variable {backend : InMemoryBackend} {now : ℤ} {key : String} {entry : CacheEntry}

theorem pop_subset (entries : Dict String CacheEntry) (key : String) :
    entries.pop key ⊆ entries := by
  induction entries with
  | nil => exact List.Subset.refl _
  | cons first rest ih =>
      obtain ⟨name, value⟩ := first
      by_cases hname : name = key
      · rw [Dict.pop, if_pos hname]
        exact fun other hother => List.mem_cons_of_mem _ (ih hother)
      · rw [Dict.pop, if_neg hname]
        exact List.cons_subset_cons _ ih

/-- A hit is an entry that has not expired. -/
theorem get_some (h : (backend.get now key).1 = some entry) :
    (key, entry) ∈ backend.cache ∧ now ≤ entry.cachedAt + 1000 * entry.ttl := by
  unfold InMemoryBackend.get at h
  cases hfound : backend.cache.get? key with
  | none =>
      rw [hfound] at h
      cases h
  | some found =>
      rw [hfound] at h
      by_cases hexpired : found.expired now = true
      · simp [hexpired] at h
      · simp only [hexpired, Bool.false_eq_true, if_false, Option.some.injEq] at h
        subst h
        refine ⟨Dict.mem_of_get? hfound, ?_⟩
        simpa [CacheEntry.expired] using hexpired

theorem get_subset : (backend.get now key).2.cache ⊆ backend.cache := by
  unfold InMemoryBackend.get
  cases hfound : backend.cache.get? key with
  | none => exact List.Subset.refl _
  | some found =>
      have hmem := Dict.mem_of_get? hfound
      by_cases hexpired : found.expired now = true
      · simp only [hexpired, if_true]
        exact pop_subset _ _
      · simp only [hexpired, Bool.false_eq_true, if_false]
        refine List.append_subset.mpr ⟨pop_subset _ _, ?_⟩
        exact List.cons_subset.mpr ⟨hmem, List.nil_subset _⟩

theorem mem_set {ttl : Option ℤ} {cached : String × CacheEntry}
    (h : cached ∈ (backend.set key entry ttl).cache) :
    cached ∈ backend.cache ∨ cached = (key, { entry with ttl := ttl.getD entry.ttl }) := by
  have hmem := List.mem_of_mem_drop h
  rcases List.mem_append.mp hmem with hold | hnew
  · exact Or.inl (pop_subset _ _ hold)
  · exact Or.inr (List.mem_singleton.mp hnew)

end Backend

/-! ## Tool results -/

structure MCPToolCallResult where
  content : List JsonValue
  structuredContent : Option JsonObject
  isError : Bool
  metadata : JsonObject

/-- The object that is stored. -/
def MCPToolCallResult.response (result : MCPToolCallResult) : JsonObject :=
  [("content", .list result.content),
    ("structured_content", (result.structuredContent.map JsonValue.dict).getD .null),
    ("is_error", .bool result.isError),
    ("metadata", .dict result.metadata)]

/-- The result that `MCPToolResultCache.get` makes of an entry. -/
def resultOf (payload : JsonObject) : MCPToolCallResult where
  content :=
    match payload.get? "content" with
    | some (.list content) => content
    | _ => []
  structuredContent :=
    match payload.get? "structured_content" with
    | some (.dict fields) => some fields
    | _ => none
  isError := ((payload.get? "is_error").map JsonValue.truthy).getD false
  metadata :=
    match payload.get? "metadata" with
    | some (.dict fields) => fields
    | _ => []

/-- What is stored is read back. -/
theorem resultOf_response (result : MCPToolCallResult) : resultOf result.response = result := by
  obtain ⟨content, structured, isError, metadata⟩ := result
  cases structured with
  | none => simp [resultOf, MCPToolCallResult.response, JsonObject.get?, JsonValue.truthy]
  | some fields => simp [resultOf, MCPToolCallResult.response, JsonObject.get?, JsonValue.truthy]

/-! ## Keys -/

/-- The arguments of `get` and `set`, and the lifetime that the policy gives results. -/
structure CachedCall where
  server : MCPServerConfig
  toolName : String
  arguments : Option JsonObject
  requestHeaders : List (String × String)
  apiKey : Option String
  cacheTtl : ℤ
  /-- Python writes a float with finitely many decimals. -/
  arguments_decimal : Decimal (.dict (arguments.getD []))

def CachedCall.forwardedHeaders (call : CachedCall) : Dict String String :=
  buildEffectiveMcpForwardedHeaders call.requestHeaders call.server.serverKey
    call.server.forwardedHeadersAllowlist

def keyPayload (call : CachedCall) : JsonObject :=
  [("server_key", .str call.server.serverKey),
    ("tool_name", .str call.toolName),
    ("arguments", .dict (call.arguments.getD [])),
    ("api_key", .str (call.apiKey.getD "")),
    ("forwarded_headers", .dict (headersObject call.forwardedHeaders))]

/-- `_cache_key`. -/
def toolCacheKey (sha256 : String → String) (call : CachedCall) : String :=
  "mcp_tool:" ++ sha256 (dumps (.dict (keyPayload call)))

/-- The calls are for one tool of a server, by one API key, with the same arguments and forwarded
headers. The order of the fields of an object does not matter. -/
structure SameCall (call call' : CachedCall) : Prop where
  serverKey : call.server.serverKey = call'.server.serverKey
  toolName : call.toolName = call'.toolName
  arguments : sortKeys (.dict (call.arguments.getD [])) =
    sortKeys (.dict (call'.arguments.getD []))
  apiKey : call.apiKey.getD "" = call'.apiKey.getD ""
  forwardedHeaders : call.forwardedHeaders.Perm call'.forwardedHeaders

theorem decimal_keyPayload (call : CachedCall) : Decimal (.dict (keyPayload call)) := by
  refine .dict _ fun field hfield => ?_
  simp only [keyPayload, List.mem_cons, List.not_mem_nil, or_false] at hfield
  rcases hfield with rfl | rfl | rfl | rfl | rfl
  · exact .str _
  · exact .str _
  · exact call.arguments_decimal
  · exact .str _
  · exact decimal_headers _

/-- Objects with one text have the same fields. -/
theorem field_of_dumps {fields fields' : JsonObject} (hdecimal : Decimal (.dict fields))
    (hdecimal' : Decimal (.dict fields')) (h : dumps (.dict fields) = dumps (.dict fields'))
    {name : String} {value : JsonValue} (hmem : (name, value) ∈ fields) :
    ∃ value', (name, value') ∈ fields' ∧ sortKeys value = sortKeys value' := by
  have hperm := perm_of_sortKeys (sortKeys_eq_of_dumps hdecimal hdecimal' h)
  have hmapped := hperm.mem_iff.mp (List.mem_map_of_mem hmem)
  obtain ⟨field, hfield, hsame⟩ := List.mem_map.mp hmapped
  obtain ⟨rfl, hvalue⟩ := Prod.mk.inj hsame
  exact ⟨field.2, hfield, hvalue.symm⟩

theorem sameCall_of_dumps {call call' : CachedCall}
    (h : dumps (.dict (keyPayload call)) = dumps (.dict (keyPayload call'))) :
    SameCall call call' := by
  have hfield : ∀ name value, (name, value) ∈ keyPayload call →
      ∃ value', (name, value') ∈ keyPayload call' ∧ sortKeys value = sortKeys value' :=
    fun _ _ => field_of_dumps (decimal_keyPayload call) (decimal_keyPayload call') h
  constructor
  · obtain ⟨value, hvalue, hsame⟩ := hfield "server_key" (.str call.server.serverKey)
      (by simp [keyPayload])
    obtain rfl : value = .str call'.server.serverKey := by simpa [keyPayload] using hvalue
    simpa [sortKeys] using hsame
  · obtain ⟨value, hvalue, hsame⟩ := hfield "tool_name" (.str call.toolName)
      (by simp [keyPayload])
    obtain rfl : value = .str call'.toolName := by simpa [keyPayload] using hvalue
    simpa [sortKeys] using hsame
  · obtain ⟨value, hvalue, hsame⟩ := hfield "arguments" (.dict (call.arguments.getD []))
      (by simp [keyPayload])
    obtain rfl : value = .dict (call'.arguments.getD []) := by simpa [keyPayload] using hvalue
    exact hsame
  · obtain ⟨value, hvalue, hsame⟩ := hfield "api_key" (.str (call.apiKey.getD ""))
      (by simp [keyPayload])
    obtain rfl : value = .str (call'.apiKey.getD "") := by simpa [keyPayload] using hvalue
    simpa [sortKeys] using hsame
  · obtain ⟨value, hvalue, hsame⟩ := hfield "forwarded_headers"
      (.dict (headersObject call.forwardedHeaders)) (by simp [keyPayload])
    obtain rfl : value = .dict (headersObject call'.forwardedHeaders) := by
      simpa [keyPayload] using hvalue
    exact headers_perm hsame

/-- Two texts have one digest. -/
def Collides (sha256 : String → String) (call call' : CachedCall) : Prop :=
  dumps (.dict (keyPayload call)) ≠ dumps (.dict (keyPayload call')) ∧
    sha256 (dumps (.dict (keyPayload call))) = sha256 (dumps (.dict (keyPayload call')))

/-- Calls with one key are the same, but for a collision of the digest. -/
theorem sameCall_of_key {sha256 : String → String} {call call' : CachedCall}
    (h : toolCacheKey sha256 call = toolCacheKey sha256 call') :
    SameCall call call' ∨ Collides sha256 call call' := by
  have hdigest : sha256 (dumps (.dict (keyPayload call))) =
      sha256 (dumps (.dict (keyPayload call'))) := by
    simpa [toolCacheKey] using h
  by_cases htexts : dumps (.dict (keyPayload call)) = dumps (.dict (keyPayload call'))
  · exact Or.inl (sameCall_of_dumps htexts)
  · exact Or.inr ⟨htexts, hdigest⟩

/-- No response has the key of a tool result. -/
theorem toolCacheKey_ne_scoped (sha256 : String → String) (call : CachedCall) (key : String)
    (apiKey : Option String) : CacheKeys.scopedCacheKey key apiKey ≠ toolCacheKey sha256 call := by
  intro heq
  have hchars := congrArg (fun text : String => text.toList.head?) heq
  cases apiKey with
  | none => simp [CacheKeys.scopedCacheKey, toolCacheKey] at hchars
  | some key => simp [CacheKeys.scopedCacheKey, toolCacheKey] at hchars

end McpResultCache
