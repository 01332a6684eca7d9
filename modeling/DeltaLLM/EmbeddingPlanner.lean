import Mathlib.Algebra.Order.Group.Multiset
import Mathlib.Tactic.Abel
import DeltaLLM.BatchRecords
import DeltaLLM.EmbeddingUsage
import DeltaLLM.JsonText

/-! # Planning of embedding work units

The queues of `_process_embedding_items` and the plan of the next work unit. A plan runs under the
planning lock and is one step; how each item is prepared in it is a parameter of the plan.
-/
namespace EmbeddingPlanner

open BatchRecords
open EmbeddingUsage (coerceNonNegativeInt EmbeddingError)
open JsonText (intText floatText stringText sortKeys)
open JsonValues (JsonValue JsonObject)

/-! ## Prepared items -/

structure EmbeddingRequest where
  model : String
  input : JsonValue
  encodingFormat : Option String
  dimensions : Option ℕ
  user : Option String

inductive InputKind where
  | string | tokenIds | stringArray | tokenIdArray | emptyArray | unknown
  deriving DecidableEq, Repr

/-- `isinstance(value, int)`. -/
def isInt : JsonValue → Bool
  | .int _ | .bool _ => true
  | _ => false

def isText : JsonValue → Bool
  | .str _ => true
  | _ => false

def isIntList : JsonValue → Bool
  | .list xs => xs.all isInt
  | _ => false

/-- `classify_embedding_microbatch_request`: the kind, and why a request is not eligible. -/
def classifyEmbeddingMicrobatchRequest (payload : EmbeddingRequest) : InputKind × Option String :=
  match payload.input with
  | .str _ => (.string, none)
  | .list xs =>
      if xs.isEmpty then (.emptyArray, some "empty_input_array")
      else if xs.all isInt then (.tokenIds, none)
      else if xs.all isText then (.stringArray, some "multi_input_text_array")
      else if xs.all isIntList then (.tokenIdArray, some "multi_input_token_array")
      else (.unknown, some "unsupported_input_shape")
  | _ => (.unknown, some "unsupported_input_shape")

def microbatchEligible (payload : EmbeddingRequest) : Bool :=
  (classifyEmbeddingMicrobatchRequest payload).2 = none

structure ExecutionSignature where
  modelName : String
  modelGroup : String
  primaryDeploymentId : String
  encodingFormat : Option String
  dimensions : Option ℕ
  user : Option String
  inputKind : InputKind
  deriving DecidableEq, Repr

/-- `_microbatch_metadata`. -/
def microbatchMetadata (errorBody : Option JsonObject) : JsonObject :=
  match JsonObject.get (errorBody.getD []) "microbatch" with
  | .dict metadata => metadata
  | _ => []

/-- The limit of the deployment, lowered by the one that an earlier failure left on the item. -/
def effectiveUpstreamMaxBatchInputs (modelInfo : JsonObject) (errorBody : Option JsonObject) :
    Except EmbeddingError ℕ := do
  let limit ← coerceNonNegativeInt (modelInfo.get "upstream_max_batch_inputs")
  let nextMaxInputs ← coerceNonNegativeInt ((microbatchMetadata errorBody).get "next_max_inputs")
  return if nextMaxInputs = 0 then max 1 limit else min (max 1 limit) nextMaxInputs

structure PreparedEmbeddingItem where
  item : BatchItemRow
  payload : EmbeddingRequest
  failoverKwargs : JsonObject
  effectiveUpstreamMaxBatchInputs : ℕ
  executionSignature : ExecutionSignature

/-- What the preflight, the route and the deployment are at one preparation. -/
structure Route where
  payload : EmbeddingRequest
  modelGroup : String
  primaryDeploymentId : String
  modelInfo : JsonObject
  failoverKwargs : JsonObject

/-- The item that a preparation on a route makes. -/
def prepareOn (item : BatchItemRow) (route : Route) :
    Except EmbeddingError PreparedEmbeddingItem := do
  let limit ← effectiveUpstreamMaxBatchInputs route.modelInfo item.errorBody
  return {
    item
    payload := route.payload
    failoverKwargs := route.failoverKwargs
    effectiveUpstreamMaxBatchInputs := limit
    executionSignature :=
      { modelName := route.payload.model
        modelGroup := route.modelGroup
        primaryDeploymentId := route.primaryDeploymentId
        encodingFormat := route.payload.encodingFormat
        dimensions := route.payload.dimensions
        user := route.payload.user
        inputKind := (classifyEmbeddingMicrobatchRequest route.payload).1 } }

/-- An item that may share a provider call. -/
def PreparedEmbeddingItem.groupable (prepared : PreparedEmbeddingItem) : Bool :=
  microbatchEligible prepared.payload ∧ 1 < prepared.effectiveUpstreamMaxBatchInputs

mutual

/-- The text of a value with Python's default separators. -/
def spacedText : JsonValue → List Char
  | .null => "null".toList
  | .bool b => if b then "true".toList else "false".toList
  | .int n => intText n
  | .float x => floatText x
  | .str s => stringText s
  | .list xs => '[' :: ([',', ' '].intercalate (spacedTexts xs) ++ [']'])
  | .dict fields => '{' :: ([',', ' '].intercalate (spacedFields fields) ++ ['}'])

def spacedTexts : List JsonValue → List (List Char)
  | [] => []
  | x :: xs => spacedText x :: spacedTexts xs

def spacedFields : List (String × JsonValue) → List (List Char)
  | [] => []
  | (name, value) :: fields =>
      (stringText name ++ ':' :: ' ' :: spacedText value) :: spacedFields fields

end

/-- `_microbatch_group_key`. -/
def microbatchGroupKey (prepared : PreparedEmbeddingItem) : ExecutionSignature × String :=
  (prepared.executionSignature,
    String.ofList (spacedText (sortKeys (.dict prepared.failoverKwargs))))

/-! ## Failed preparations -/

/-- The exception classes that `classify_batch_retry` tells apart. -/
inductive ErrorKind where
  | modelGroupDeferred | rateLimit | timeout | transport
  | httpStatus (code : ℕ)
  | serviceUnavailable (noHealthyDeployments : Bool)
  | budgetExceeded | authentication | guardrailViolation | invalidRequest | permissionDenied
  | modelNotFound (noHealthyDeployments : Bool)
  | responseShape | other
  deriving DecidableEq, Repr

structure BatchError where
  kind : ErrorKind
  typeName : String
  message : String
  deriving DecidableEq, Repr

structure BatchRetryDecision where
  retryable : Bool
  category : String
  deriving DecidableEq, Repr

/-- `classify_batch_retry`; the delay that a provider asks for is read with the retry delay. -/
def classifyBatchRetry : ErrorKind → BatchRetryDecision
  | .modelGroupDeferred => ⟨true, "no_healthy_deployments"⟩
  | .rateLimit => ⟨true, "rate_limit"⟩
  | .timeout => ⟨true, "timeout"⟩
  | .transport => ⟨true, "transport"⟩
  | .httpStatus code =>
      if code = 429 then ⟨true, "rate_limit"⟩
      else if code = 408 then ⟨true, "timeout"⟩
      else if 500 ≤ code then ⟨true, "upstream_5xx"⟩
      else ⟨false, "invalid_request"⟩
  | .serviceUnavailable noHealthyDeployments =>
      ⟨true, if noHealthyDeployments then "no_healthy_deployments" else "service_unavailable"⟩
  | .budgetExceeded => ⟨false, "budget"⟩
  | .authentication => ⟨false, "authentication"⟩
  | .guardrailViolation => ⟨false, "invalid_request"⟩
  | .invalidRequest => ⟨false, "invalid_request"⟩
  | .permissionDenied => ⟨false, "permission"⟩
  | .modelNotFound noHealthyDeployments =>
      if noHealthyDeployments then ⟨true, "no_healthy_deployments"⟩ else ⟨false, "missing_model"⟩
  | .responseShape => ⟨false, "response_shape"⟩
  | .other => ⟨false, "unknown"⟩

/-- How an exception of a count conversion is classified. -/
def BatchError.ofConversion : EmbeddingError → BatchError
  | .typeError => ⟨.other, "TypeError", ""⟩
  | .valueError => ⟨.other, "ValueError", ""⟩
  | .overflowError => ⟨.other, "OverflowError", "cannot convert float infinity to integer"⟩
  | .responseShape text => ⟨.responseShape, "BatchResponseShapeError", text⟩

/-- `prepare_embedding_item_for_execution`, where finding a route may raise. -/
def prepareEmbeddingItem (item : BatchItemRow) :
    Except BatchError Route → Except BatchError PreparedEmbeddingItem
  | .error error => .error error
  | .ok route => (prepareOn item route).mapError BatchError.ofConversion

/-- An item whose preparation raised; a work unit that marks it failed is planned. -/
structure PreparationFailure where
  item : BatchItemRow
  error : BatchError

/-! ## Queues -/

structure Queues where
  rawItems : List BatchItemRow
  deferredGroupedRawItems : List BatchItemRow
  preparedBacklog : List PreparedEmbeddingItem
  plannedWorkUnits : List PreparationFailure
  groupedChunkInFlight : Bool

/-- The items that no work unit has yet. -/
def Queues.waiting (q : Queues) : Multiset BatchItemRow :=
  (q.rawItems : Multiset BatchItemRow) + q.deferredGroupedRawItems +
    q.preparedBacklog.map PreparedEmbeddingItem.item +
      q.plannedWorkUnits.map PreparationFailure.item

/-- How many candidates there are at most. -/
def Queues.candidates (q : Queues) : ℕ :=
  q.rawItems.length + q.deferredGroupedRawItems.length + q.preparedBacklog.length

def Queues.queueFailure (q : Queues) (item : BatchItemRow) (error : BatchError) : Queues :=
  { q with plannedWorkUnits := q.plannedWorkUnits ++ [⟨item, error⟩] }

/-- How items are prepared while one work unit is planned. -/
structure Preparation where
  /-- `EmbeddingRequest.model_validate`. -/
  validate : JsonObject → Except BatchError EmbeddingRequest
  route : BatchItemRow → Except BatchError Route

def Preparation.prepare (p : Preparation) (item : BatchItemRow) :
    Except BatchError PreparedEmbeddingItem :=
  prepareEmbeddingItem item (p.route item)

/-- `_raw_item_looks_groupable`. -/
def Preparation.rawItemLooksGroupable (p : Preparation) (item : BatchItemRow) :
    Except BatchError Bool :=
  (p.validate item.requestBody).map microbatchEligible

/-- The deferred items in their order until one can be prepared. -/
def popDeferred (p : Preparation) :
    List BatchItemRow → Queues → Option PreparedEmbeddingItem × Queues
  | [], q => (none, { q with deferredGroupedRawItems := [] })
  | item :: items, q =>
      match p.prepare item with
      | .error error => popDeferred p items (q.queueFailure item error)
      | .ok prepared => (some prepared, { q with deferredGroupedRawItems := items })

/-- A raw item beside a chunk in flight: what can be grouped is deferred. -/
def popRawBesideChunk (p : Preparation) :
    List BatchItemRow → Queues → Option PreparedEmbeddingItem × Queues
  | [], q => (none, { q with rawItems := [] })
  | item :: items, q =>
      let deferred :=
        { q with deferredGroupedRawItems := q.deferredGroupedRawItems ++ [item] }
      match p.rawItemLooksGroupable item with
      | .error error => popRawBesideChunk p items (q.queueFailure item error)
      | .ok true => popRawBesideChunk p items deferred
      | .ok false =>
          match p.prepare item with
          | .error error => popRawBesideChunk p items (q.queueFailure item error)
          | .ok prepared =>
              if prepared.groupable then popRawBesideChunk p items deferred
              else (some prepared, { q with rawItems := items })

def popRaw (p : Preparation) :
    List BatchItemRow → Queues → Option PreparedEmbeddingItem × Queues
  | [], q => (none, { q with rawItems := [] })
  | item :: items, q =>
      match p.prepare item with
      | .error error => popRaw p items (q.queueFailure item error)
      | .ok prepared => (some prepared, { q with rawItems := items })

inductive Candidate where
  | prepared (prepared : PreparedEmbeddingItem)
  | groupedChunkBlocked
  | exhausted

/-- `_pop_next_candidate`. -/
def popNextCandidate (p : Preparation) (allowGroupedChunks : Bool) (q : Queues) :
    Candidate × Queues :=
  match (if allowGroupedChunks then popDeferred p q.deferredGroupedRawItems q else (none, q)) with
  | (some prepared, q) => (.prepared prepared, q)
  | (none, q) =>
      match q.preparedBacklog with
      | prepared :: backlog => (.prepared prepared, { q with preparedBacklog := backlog })
      | [] =>
          match (if allowGroupedChunks then popRaw p q.rawItems q
            else popRawBesideChunk p q.rawItems q) with
          | (some prepared, q) => (.prepared prepared, q)
          | (none, q) =>
              if q.deferredGroupedRawItems ≠ [] ∧ allowGroupedChunks = false then
                (.groupedChunkBlocked, q)
              else (.exhausted, q)

/-! ## Work units -/

inductive WorkUnit where
  | preparationFailure (failure : PreparationFailure)
  | single (prepared : PreparedEmbeddingItem)
  | groupedChunk (chunk : List PreparedEmbeddingItem)
  | waitForGroupedChunkSlot

def WorkUnit.items : WorkUnit → List BatchItemRow
  | .preparationFailure failure => [failure.item]
  | .single prepared => [prepared.item]
  | .groupedChunk chunk => chunk.map PreparedEmbeddingItem.item
  | .waitForGroupedChunkSlot => []

def WorkUnit.grouped : WorkUnit → Bool
  | .groupedChunk _ => true
  | _ => false

/-- `candidate_matches_chunk`. -/
def matchesChunk (seed candidate : PreparedEmbeddingItem) : Bool :=
  candidate.groupable ∧
    candidate.effectiveUpstreamMaxBatchInputs = seed.effectiveUpstreamMaxBatchInputs ∧
    microbatchGroupKey candidate = microbatchGroupKey seed

/-- The loop that fills a chunk: the chunk, the candidates that do not match, the queues. Every
round takes a candidate from the queues, so their number bounds the rounds. -/
def fillChunk (p : Preparation) (seed : PreparedEmbeddingItem) :
    ℕ → List PreparedEmbeddingItem → List PreparedEmbeddingItem → Queues →
      List PreparedEmbeddingItem × List PreparedEmbeddingItem × Queues
  | 0, chunk, deferred, q => (chunk, deferred, q)
  | rounds + 1, chunk, deferred, q =>
      if chunk.length < seed.effectiveUpstreamMaxBatchInputs then
        match popNextCandidate p true q with
        | (.prepared candidate, q) =>
            if matchesChunk seed candidate then fillChunk p seed rounds
              (chunk ++ [candidate]) deferred q
            else fillChunk p seed rounds chunk (deferred ++ [candidate]) q
        | (_, q) => (chunk, deferred, q)
      else (chunk, deferred, q)

/-- `_requeue_deferred_candidates`. -/
def Queues.requeueDeferredCandidates (q : Queues) (candidates : List PreparedEmbeddingItem) :
    Queues :=
  { q with
    deferredGroupedRawItems :=
      (candidates.filter fun candidate => candidate.groupable).map PreparedEmbeddingItem.item ++
        q.deferredGroupedRawItems
    preparedBacklog := (candidates.filter fun candidate => !candidate.groupable) ++
      q.preparedBacklog }

def popPlanned (q : Queues) : Option (WorkUnit × Queues) :=
  match q.plannedWorkUnits with
  | failure :: planned => some (.preparationFailure failure, { q with plannedWorkUnits := planned })
  | [] => none

/-- The chunk that a seed starts. -/
def planGroupedChunk (p : Preparation) (seed : PreparedEmbeddingItem) (q : Queues) :
    WorkUnit × Queues :=
  match fillChunk p seed q.candidates [seed] [] q with
  | (chunk, deferred, q) =>
      (.groupedChunk chunk,
        { q.requeueDeferredCandidates deferred with groupedChunkInFlight := true })

/-- `_plan_next_work_unit`: none when the runner has nothing left to do. -/
def planNextWorkUnit (p : Preparation) (q : Queues) : Option WorkUnit × Queues :=
  match popPlanned q with
  | some (unit, q) => (some unit, q)
  | none =>
      match popNextCandidate p (!q.groupedChunkInFlight) q with
      | (.exhausted, q) =>
          match popPlanned q with
          | some (unit, q) => (some unit, q)
          | none => (none, q)
      | (.groupedChunkBlocked, q) => (some .waitForGroupedChunkSlot, q)
      | (.prepared seed, q) =>
          if seed.groupable then
            match planGroupedChunk p seed q with
            | (unit, q) => (some unit, q)
          else (some (.single seed), q)

/-! ## What a plan does -/

/-- Chunks hold items of one key and one limit, and no more than the limit. -/
def WorkUnit.WellFormed : WorkUnit → Prop
  | .groupedChunk chunk => chunk ≠ [] ∧ ∃ limit key, chunk.length ≤ limit ∧
      ∀ prepared ∈ chunk, prepared.groupable = true ∧
        prepared.effectiveUpstreamMaxBatchInputs = limit ∧ microbatchGroupKey prepared = key
  | _ => True

/-- Popping moves failures to the planned work units and otherwise only takes the candidate. -/
structure Popped (q : Queues) (taken : Option PreparedEmbeddingItem) (q' : Queues) : Prop where
  waiting : q'.waiting + taken.toList.map PreparedEmbeddingItem.item = q.waiting
  candidates : q'.candidates + taken.toList.length ≤ q.candidates
  backlog : q'.preparedBacklog.Sublist q.preparedBacklog
  inFlight : q'.groupedChunkInFlight = q.groupedChunkInFlight

theorem prepare_item {p : Preparation} {item : BatchItemRow} {prepared : PreparedEmbeddingItem}
    (h : p.prepare item = .ok prepared) : prepared.item = item := by
  unfold Preparation.prepare prepareEmbeddingItem at h
  split at h
  next => cases h
  next route hroute =>
    unfold prepareOn at h
    cases hlimit : effectiveUpstreamMaxBatchInputs route.modelInfo item.errorBody with
    | error error =>
        rw [hlimit] at h
        cases h
    | ok limit =>
        rw [hlimit] at h
        obtain rfl := Except.ok.inj h
        rfl

/-- A raw item whose preparation raised keeps waiting as a failure. -/
theorem failed_waiting (q : Queues) (item : BatchItemRow) (items : List BatchItemRow)
    (error : BatchError) :
    Queues.waiting { q.queueFailure item error with rawItems := items } =
      Queues.waiting { q with rawItems := item :: items } := by
  simp only [Queues.waiting, Queues.queueFailure, List.map_append, List.map_cons, List.map_nil,
    ← Multiset.coe_add, ← Multiset.cons_coe, ← Multiset.singleton_add, Multiset.coe_nil, add_zero]
  abel

theorem popped_raw (q : Queues) {item : BatchItemRow} (items : List BatchItemRow)
    {prepared : PreparedEmbeddingItem} (hitem : prepared.item = item) :
    Popped { q with rawItems := item :: items } (some prepared) { q with rawItems := items } := by
  refine ⟨?_, ?_, List.Sublist.refl _, rfl⟩
  · simp only [Queues.waiting, Option.toList_some, List.map_cons, List.map_nil, hitem,
      ← Multiset.cons_coe, ← Multiset.singleton_add, Multiset.coe_nil, add_zero]
    abel
  · simp only [Queues.candidates, Option.toList_some, List.length_cons, List.length_nil]
    omega

theorem popDeferred_popped (p : Preparation) (items : List BatchItemRow) (q : Queues) :
    Popped { q with deferredGroupedRawItems := items } (popDeferred p items q).1
      (popDeferred p items q).2 := by
  induction items generalizing q with
  | nil =>
      refine ⟨?_, le_rfl, List.Sublist.refl _, rfl⟩
      simp [popDeferred]
  | cons item items ih =>
      rw [popDeferred]
      split
      next error _ =>
        obtain ⟨hwaiting, hcandidates, hbacklog, hflight⟩ := ih (q.queueFailure item error)
        refine ⟨hwaiting.trans ?_, ?_, hbacklog, hflight⟩
        · simp only [Queues.waiting, Queues.queueFailure, List.map_append, List.map_cons,
            List.map_nil, ← Multiset.coe_add, ← Multiset.cons_coe, ← Multiset.singleton_add,
            Multiset.coe_nil, add_zero]
          abel
        · simp only [Queues.candidates, Queues.queueFailure, List.length_cons] at hcandidates ⊢
          omega
      next prepared hprepared =>
        refine ⟨?_, ?_, List.Sublist.refl _, rfl⟩
        · simp only [Queues.waiting, Option.toList_some, List.map_cons, List.map_nil,
            prepare_item hprepared, ← Multiset.cons_coe, ← Multiset.singleton_add,
            Multiset.coe_nil, add_zero]
          abel
        · simp only [Queues.candidates, Option.toList_some, List.length_cons, List.length_nil]
          omega

theorem popRaw_popped (p : Preparation) (items : List BatchItemRow) (q : Queues) :
    Popped { q with rawItems := items } (popRaw p items q).1 (popRaw p items q).2 := by
  induction items generalizing q with
  | nil =>
      refine ⟨?_, le_rfl, List.Sublist.refl _, rfl⟩
      simp [popRaw]
  | cons item items ih =>
      rw [popRaw]
      split
      next error _ =>
        obtain ⟨hwaiting, hcandidates, hbacklog, hflight⟩ := ih (q.queueFailure item error)
        refine ⟨hwaiting.trans (failed_waiting q item items error), ?_, hbacklog, hflight⟩
        simp only [Queues.candidates, Queues.queueFailure, List.length_cons] at hcandidates ⊢
        omega
      next prepared hprepared => exact popped_raw q items (prepare_item hprepared)

theorem popRawBesideChunk_popped (p : Preparation) (items : List BatchItemRow) (q : Queues) :
    Popped { q with rawItems := items } (popRawBesideChunk p items q).1
      (popRawBesideChunk p items q).2 := by
  induction items generalizing q with
  | nil =>
      refine ⟨?_, le_rfl, List.Sublist.refl _, rfl⟩
      simp [popRawBesideChunk]
  | cons item items ih =>
      have hfailed : ∀ error, Popped { q with rawItems := item :: items }
          (popRawBesideChunk p items (q.queueFailure item error)).1
          (popRawBesideChunk p items (q.queueFailure item error)).2 := by
        intro error
        obtain ⟨hwaiting, hcandidates, hbacklog, hflight⟩ := ih (q.queueFailure item error)
        refine ⟨hwaiting.trans (failed_waiting q item items error), ?_, hbacklog, hflight⟩
        simp only [Queues.candidates, Queues.queueFailure, List.length_cons] at hcandidates ⊢
        omega
      have hdeferred : Popped { q with rawItems := item :: items }
          (popRawBesideChunk p items
            { q with deferredGroupedRawItems := q.deferredGroupedRawItems ++ [item] }).1
          (popRawBesideChunk p items
            { q with deferredGroupedRawItems := q.deferredGroupedRawItems ++ [item] }).2 := by
        obtain ⟨hwaiting, hcandidates, hbacklog, hflight⟩ :=
          ih { q with deferredGroupedRawItems := q.deferredGroupedRawItems ++ [item] }
        refine ⟨hwaiting.trans ?_, ?_, hbacklog, hflight⟩
        · simp only [Queues.waiting, ← Multiset.coe_add, ← Multiset.cons_coe,
            ← Multiset.singleton_add, Multiset.coe_nil, add_zero]
          abel
        · simp only [Queues.candidates, List.length_cons, List.length_append,
            List.length_nil] at hcandidates ⊢
          omega
      rw [popRawBesideChunk]
      split
      next error _ => exact hfailed error
      next => exact hdeferred
      next =>
        split
        next error _ => exact hfailed error
        next prepared hprepared =>
          split
          next => exact hdeferred
          next => exact popped_raw q items (prepare_item hprepared)

theorem popDeferred_none (p : Preparation) (items : List BatchItemRow) (q : Queues)
    (h : (popDeferred p items q).1 = none) :
    (popDeferred p items q).2.deferredGroupedRawItems = [] := by
  induction items generalizing q with
  | nil => rfl
  | cons item items ih =>
      rw [popDeferred] at h ⊢
      split at h
      next error _ => exact ih _ h
      next => cases h

theorem popRaw_none (p : Preparation) (items : List BatchItemRow) (q : Queues)
    (h : (popRaw p items q).1 = none) :
    (popRaw p items q).2.rawItems = [] ∧
      (popRaw p items q).2.deferredGroupedRawItems = q.deferredGroupedRawItems := by
  induction items generalizing q with
  | nil => exact ⟨rfl, rfl⟩
  | cons item items ih =>
      rw [popRaw] at h ⊢
      split at h
      next error _ => exact ih _ h
      next => cases h

theorem popRawBesideChunk_none (p : Preparation) (items : List BatchItemRow) (q : Queues)
    (h : (popRawBesideChunk p items q).1 = none) :
    (popRawBesideChunk p items q).2.rawItems = [] := by
  induction items generalizing q with
  | nil => rfl
  | cons item items ih =>
      rw [popRawBesideChunk] at h ⊢
      split at h
      next error _ => exact ih _ h
      next => exact ih _ h
      next =>
        split at h
        next error _ => exact ih _ h
        next prepared _ =>
          split at h
          next hgroupable =>
            rw [if_pos hgroupable]
            exact ih _ h
          next => cases h

theorem popPlanned_some {q q' : Queues} {unit : WorkUnit} (h : popPlanned q = some (unit, q')) :
    (unit.items : Multiset BatchItemRow) + q'.waiting = q.waiting ∧ unit.WellFormed ∧
      unit.items ≠ [] ∧ q'.groupedChunkInFlight = (unit.grouped || q.groupedChunkInFlight) := by
  unfold popPlanned at h
  split at h
  next failure planned hplanned =>
    obtain ⟨rfl, rfl⟩ := Prod.mk.inj (Option.some.inj h)
    refine ⟨?_, trivial, List.cons_ne_nil _ _, rfl⟩
    simp only [WorkUnit.items, Queues.waiting, hplanned, List.map_cons, ← Multiset.cons_coe,
      ← Multiset.singleton_add, Multiset.coe_nil, add_zero]
    abel
  next => cases h

theorem popPlanned_none {q : Queues} (h : popPlanned q = none) : q.plannedWorkUnits = [] := by
  unfold popPlanned at h
  split at h
  next => cases h
  next hplanned => exact hplanned

/-- What popping a candidate says of the queues it leaves. -/
inductive PopEffect (allowGroupedChunks : Bool) (q : Queues) : Candidate → Queues → Prop where
  | prepared {prepared : PreparedEmbeddingItem} {q' : Queues} : Popped q (some prepared) q' →
      PopEffect allowGroupedChunks q (.prepared prepared) q'
  | blocked {q' : Queues} : Popped q none q' → allowGroupedChunks = false →
      PopEffect allowGroupedChunks q .groupedChunkBlocked q'
  | exhausted {q' : Queues} : Popped q none q' → q'.candidates = 0 →
      PopEffect allowGroupedChunks q .exhausted q'

theorem Popped.trans {q q' q'' : Queues} {taken : Option PreparedEmbeddingItem}
    (h : Popped q none q') (h' : Popped q' taken q'') : Popped q taken q'' := by
  have hwaiting := h.waiting
  have hcandidates := h.candidates
  have hcandidates' := h'.candidates
  simp only [Option.toList_none, List.map_nil, Multiset.coe_nil, add_zero, List.length_nil]
    at hwaiting hcandidates
  exact ⟨h'.waiting.trans hwaiting, hcandidates'.trans hcandidates, h'.backlog.trans h.backlog,
    h'.inFlight.trans h.inFlight⟩

theorem Popped.refl (q : Queues) : Popped q none q :=
  ⟨by simp, le_rfl, List.Sublist.refl _, rfl⟩

theorem popNextCandidate_effect (p : Preparation) (allowGroupedChunks : Bool) (q : Queues) :
    PopEffect allowGroupedChunks q (popNextCandidate p allowGroupedChunks q).1
      (popNextCandidate p allowGroupedChunks q).2 := by
  have hfirst : ∀ first, (if allowGroupedChunks then popDeferred p q.deferredGroupedRawItems q
      else (none, q)) = first → Popped q first.1 first.2 ∧
        (allowGroupedChunks = true → first.1 = none → first.2.deferredGroupedRawItems = []) := by
    rintro first rfl
    cases allowGroupedChunks with
    | true => exact ⟨popDeferred_popped p _ q, fun _ hnone => popDeferred_none p _ q hnone⟩
    | false => exact ⟨Popped.refl q, fun h => absurd h (by decide)⟩
  have hraw : ∀ (q' : Queues) last, (if allowGroupedChunks then popRaw p q'.rawItems q'
      else popRawBesideChunk p q'.rawItems q') = last → Popped q' last.1 last.2 ∧
        (last.1 = none → last.2.rawItems = [] ∧ (allowGroupedChunks = true →
          last.2.deferredGroupedRawItems = q'.deferredGroupedRawItems)) := by
    rintro q' last rfl
    cases allowGroupedChunks with
    | true =>
        refine ⟨popRaw_popped p _ q', fun hnone => ?_⟩
        exact ⟨(popRaw_none p _ q' hnone).1, fun _ => (popRaw_none p _ q' hnone).2⟩
    | false =>
        refine ⟨popRawBesideChunk_popped p _ q', fun hnone => ?_⟩
        exact ⟨popRawBesideChunk_none p _ q' hnone, fun h => absurd h (by decide)⟩
  unfold popNextCandidate
  split
  next prepared q' heq => exact .prepared (hfirst _ heq).1
  next q' heq =>
    obtain ⟨hpopped, hdeferred⟩ := hfirst _ heq
    split
    next prepared backlog hbacklog =>
      refine .prepared (hpopped.trans ⟨?_, ?_, ?_, rfl⟩)
      · simp only [Queues.waiting, hbacklog, Option.toList_some, List.map_cons, List.map_nil,
          ← Multiset.cons_coe, ← Multiset.singleton_add, Multiset.coe_nil, add_zero]
        abel
      · simp only [Queues.candidates, hbacklog, Option.toList_some, List.length_cons,
          List.length_nil]
        omega
      · rw [hbacklog]
        exact List.sublist_cons_self _ _
    next hbacklog =>
      split
      next prepared q'' heq' => exact .prepared (hpopped.trans (hraw q' _ heq').1)
      next q'' heq' =>
        obtain ⟨hlast, hempty⟩ := hraw q' _ heq'
        obtain ⟨hrawEmpty, hkept⟩ := hempty rfl
        split
        next hblocked => exact .blocked (hpopped.trans hlast) hblocked.2
        next hopen =>
          refine .exhausted (hpopped.trans hlast) ?_
          have hbacklogEmpty : q''.preparedBacklog = [] := by
            have hsub := hlast.backlog
            rw [hbacklog] at hsub
            exact List.sublist_nil.mp hsub
          have hdeferredEmpty : q''.deferredGroupedRawItems = [] := by
            cases hallow : allowGroupedChunks with
            | true => exact (hkept hallow).trans (hdeferred hallow rfl)
            | false =>
                by_contra hne
                exact hopen ⟨hne, hallow⟩
          simp only at hrawEmpty
          rw [Queues.candidates, hrawEmpty, hdeferredEmpty, hbacklogEmpty]
          rfl

/-! ## Chunks -/

/-- A chunk under way: everything in it matches the seed, and there is room for no more. -/
structure Filled (seed : PreparedEmbeddingItem) (chunk : List PreparedEmbeddingItem) : Prop where
  seeded : chunk ≠ []
  room : chunk.length ≤ seed.effectiveUpstreamMaxBatchInputs
  same : ∀ prepared ∈ chunk, matchesChunk seed prepared = true

theorem Filled.append {seed candidate : PreparedEmbeddingItem} {chunk : List PreparedEmbeddingItem}
    (h : Filled seed chunk) (hroom : chunk.length < seed.effectiveUpstreamMaxBatchInputs)
    (hmatch : matchesChunk seed candidate = true) : Filled seed (chunk ++ [candidate]) := by
  refine ⟨by simp, ?_, ?_⟩
  · rw [List.length_append, List.length_singleton]
    exact hroom
  · intro prepared hprepared
    rcases List.mem_append.mp hprepared with hold | hnew
    · exact h.same prepared hold
    · rw [List.mem_singleton.mp hnew]
      exact hmatch

theorem Filled.wellFormed {seed : PreparedEmbeddingItem} {chunk : List PreparedEmbeddingItem}
    (h : Filled seed chunk) : (WorkUnit.groupedChunk chunk).WellFormed := by
  refine ⟨h.seeded, seed.effectiveUpstreamMaxBatchInputs, microbatchGroupKey seed, h.room, ?_⟩
  intro prepared hprepared
  exact of_decide_eq_true (h.same prepared hprepared)

/-- What the loop makes of a chunk, the candidates that do not match, and the queues. -/
structure FillEffect (seed : PreparedEmbeddingItem) (rounds : ℕ)
    (chunk deferred : List PreparedEmbeddingItem) (q : Queues)
    (chunk' deferred' : List PreparedEmbeddingItem) (q' : Queues) : Prop where
  filled : Filled seed chunk'
  waiting : ((chunk' ++ deferred').map PreparedEmbeddingItem.item : Multiset BatchItemRow) +
    q'.waiting = (chunk ++ deferred).map PreparedEmbeddingItem.item + q.waiting
  ended : q.candidates ≤ rounds →
    chunk'.length = seed.effectiveUpstreamMaxBatchInputs ∨ q'.candidates = 0

theorem fillChunk_effect (p : Preparation) (seed : PreparedEmbeddingItem) (rounds : ℕ)
    (chunk deferred : List PreparedEmbeddingItem) (q : Queues) (hfilled : Filled seed chunk) :
    FillEffect seed rounds chunk deferred q (fillChunk p seed rounds chunk deferred q).1
      (fillChunk p seed rounds chunk deferred q).2.1
      (fillChunk p seed rounds chunk deferred q).2.2 := by
  induction rounds generalizing chunk deferred q with
  | zero => exact ⟨hfilled, rfl, fun h => .inr (Nat.le_zero.mp h)⟩
  | succ rounds ih =>
      rw [fillChunk]
      split
      next hroom =>
        have hpop := popNextCandidate_effect p true q
        generalize popNextCandidate p true q = popped at hpop
        obtain ⟨candidate, q'⟩ := popped
        cases hpop with
        | @prepared prepared _ hpopped =>
            have hwaiting := hpopped.waiting
            have hcandidates := hpopped.candidates
            simp only [Option.toList_some, List.map_cons, List.map_nil, List.length_singleton]
              at hwaiting hcandidates
            simp only
            split
            next hmatch =>
              obtain ⟨hfilled', hkept, hended⟩ :=
                ih (chunk ++ [prepared]) deferred q' (hfilled.append hroom hmatch)
              refine ⟨hfilled', hkept.trans ?_, fun h => hended (by omega)⟩
              rw [← hwaiting]
              simp only [List.map_append, List.map_cons, List.map_nil, ← Multiset.coe_add]
              abel
            next =>
              obtain ⟨hfilled', hkept, hended⟩ := ih chunk (deferred ++ [prepared]) q' hfilled
              refine ⟨hfilled', hkept.trans ?_, fun h => hended (by omega)⟩
              rw [← hwaiting]
              simp only [List.map_append, List.map_cons, List.map_nil, ← Multiset.coe_add]
              abel
        | blocked _ hallow => exact absurd hallow (by decide)
        | exhausted hpopped hnone =>
            refine ⟨hfilled, ?_, fun _ => .inr hnone⟩
            have hwaiting := hpopped.waiting
            simp only [Option.toList_none, List.map_nil, Multiset.coe_nil, add_zero] at hwaiting
            rw [hwaiting]
      next hfull =>
        exact ⟨hfilled, rfl, fun _ => .inl (le_antisymm hfilled.room (not_lt.mp hfull))⟩

/-- The bound on the rounds never cuts the loop off. -/
theorem fillChunk_ends (p : Preparation) {seed : PreparedEmbeddingItem} (q : Queues)
    (hfilled : Filled seed [seed]) :
    (fillChunk p seed q.candidates [seed] [] q).1.length = seed.effectiveUpstreamMaxBatchInputs ∨
      (fillChunk p seed q.candidates [seed] [] q).2.2.candidates = 0 :=
  (fillChunk_effect p seed q.candidates [seed] [] q hfilled).ended le_rfl

theorem requeue_waiting (q : Queues) (candidates : List PreparedEmbeddingItem) :
    (q.requeueDeferredCandidates candidates).waiting =
      (candidates.map PreparedEmbeddingItem.item : Multiset BatchItemRow) + q.waiting := by
  have hsplit : ((candidates.filter fun candidate => candidate.groupable).map
      PreparedEmbeddingItem.item : Multiset BatchItemRow) +
      (candidates.filter fun candidate => !candidate.groupable).map PreparedEmbeddingItem.item =
        candidates.map PreparedEmbeddingItem.item := by
    rw [Multiset.coe_add, ← List.map_append, Multiset.coe_eq_coe]
    exact (List.filter_append_perm _ candidates).map _
  rw [← hsplit]
  simp only [Queues.waiting, Queues.requeueDeferredCandidates, List.map_append,
    ← Multiset.coe_add]
  abel

/-- What a plan hands to its runner. -/
inductive PlanEffect (q : Queues) : Option WorkUnit → Queues → Prop where
  | unit {unit : WorkUnit} {q' : Queues} : unit.WellFormed → unit.items ≠ [] →
      (unit.items : Multiset BatchItemRow) + q'.waiting = q.waiting →
      q'.groupedChunkInFlight = (unit.grouped || q.groupedChunkInFlight) →
      PlanEffect q (some unit) q'
  | wait {q' : Queues} : q'.waiting = q.waiting → q.groupedChunkInFlight = true →
      q'.groupedChunkInFlight = true → PlanEffect q (some .waitForGroupedChunkSlot) q'
  | finish {q' : Queues} : q.waiting = 0 → q'.waiting = 0 →
      q'.groupedChunkInFlight = q.groupedChunkInFlight → PlanEffect q none q'

theorem waiting_eq_zero {q : Queues} (hcandidates : q.candidates = 0)
    (hplanned : q.plannedWorkUnits = []) : q.waiting = 0 := by
  rw [Queues.candidates] at hcandidates
  have hraw := List.length_eq_zero_iff.mp (show q.rawItems.length = 0 by omega)
  have hdeferred :=
    List.length_eq_zero_iff.mp (show q.deferredGroupedRawItems.length = 0 by omega)
  have hbacklog := List.length_eq_zero_iff.mp (show q.preparedBacklog.length = 0 by omega)
  rw [Queues.waiting, hraw, hdeferred, hbacklog, hplanned]
  rfl

theorem queues_empty {q : Queues} (h : q.waiting = 0) : q.rawItems = [] ∧
    q.deferredGroupedRawItems = [] ∧ q.preparedBacklog = [] ∧ q.plannedWorkUnits = [] := by
  have hcard := congrArg Multiset.card h
  simp only [Queues.waiting, Multiset.card_add, Multiset.coe_card, List.length_map,
    Multiset.card_zero] at hcard
  refine ⟨?_, ?_, ?_, ?_⟩ <;> refine List.length_eq_zero_iff.mp ?_ <;> omega

theorem Popped.waiting_none {q q' : Queues} (h : Popped q none q') : q'.waiting = q.waiting := by
  have hwaiting := h.waiting
  simp only [Option.toList_none, List.map_nil, Multiset.coe_nil, add_zero] at hwaiting
  exact hwaiting

theorem Popped.waiting_some {q q' : Queues} {prepared : PreparedEmbeddingItem}
    (h : Popped q (some prepared) q') : {prepared.item} + q'.waiting = q.waiting := by
  have hwaiting := h.waiting
  simp only [Option.toList_some, List.map_cons, List.map_nil, Multiset.coe_singleton] at hwaiting
  rw [add_comm]
  exact hwaiting

theorem planGroupedChunk_effect (p : Preparation) {seed : PreparedEmbeddingItem}
    (hseed : seed.groupable = true) {q q' : Queues} (hpopped : Popped q (some seed) q') :
    PlanEffect q (some (planGroupedChunk p seed q').1) (planGroupedChunk p seed q').2 := by
  have hmatch : matchesChunk seed seed = true := by simp [matchesChunk, hseed]
  have hlimit : 1 < seed.effectiveUpstreamMaxBatchInputs := (of_decide_eq_true hseed).2
  have hfilled : Filled seed [seed] :=
    ⟨List.cons_ne_nil _ _, hlimit.le, fun prepared h => List.mem_singleton.mp h ▸ hmatch⟩
  have heffect := fillChunk_effect p seed q'.candidates [seed] [] q' hfilled
  rw [planGroupedChunk]
  generalize fillChunk p seed q'.candidates [seed] [] q' = result at heffect
  obtain ⟨chunk, deferred, left⟩ := result
  refine .unit heffect.filled.wellFormed ?_ ?_ rfl
  · simpa [WorkUnit.items] using heffect.filled.seeded
  · have hkept := heffect.waiting
    simp only [List.append_nil, List.map_append, ← Multiset.coe_add, List.map_cons, List.map_nil,
      Multiset.coe_singleton] at hkept
    calc (WorkUnit.items (.groupedChunk chunk) : Multiset BatchItemRow) +
          (left.requeueDeferredCandidates deferred).waiting
        = chunk.map PreparedEmbeddingItem.item +
            (deferred.map PreparedEmbeddingItem.item + left.waiting) := by
          rw [requeue_waiting]
          rfl
      _ = {seed.item} + q'.waiting := by rw [← add_assoc, hkept]
      _ = q.waiting := hpopped.waiting_some

theorem planNextWorkUnit_effect (p : Preparation) (q : Queues) :
    PlanEffect q (planNextWorkUnit p q).1 (planNextWorkUnit p q).2 := by
  unfold planNextWorkUnit
  split
  next unit q' hplanned =>
    obtain ⟨hwaiting, hformed, hitems, hflight⟩ := popPlanned_some hplanned
    exact .unit hformed hitems hwaiting hflight
  next =>
    have hpop := popNextCandidate_effect p (!q.groupedChunkInFlight) q
    split
    next q' heq =>
      rw [heq] at hpop
      cases hpop with
      | exhausted hpopped hnone =>
          split
          next unit q'' hplanned =>
            obtain ⟨hwaiting, hformed, hitems, hflight⟩ := popPlanned_some hplanned
            refine .unit hformed hitems (hwaiting.trans hpopped.waiting_none) ?_
            rw [hflight, hpopped.inFlight]
          next hplanned =>
            have hempty := waiting_eq_zero hnone (popPlanned_none hplanned)
            exact .finish (hpopped.waiting_none.symm.trans hempty) hempty hpopped.inFlight
    next q' heq =>
      rw [heq] at hpop
      cases hpop with
      | blocked hpopped hallow =>
          have hflight : q.groupedChunkInFlight = true := by simpa using hallow
          exact .wait hpopped.waiting_none hflight (hpopped.inFlight.trans hflight)
    next seed q' heq =>
      rw [heq] at hpop
      cases hpop with
      | prepared hpopped =>
          split
          next hseed => exact planGroupedChunk_effect p hseed hpopped
          next =>
            refine .unit trivial (List.cons_ne_nil _ _) ?_ hpopped.inFlight
            exact hpopped.waiting_some

end EmbeddingPlanner
