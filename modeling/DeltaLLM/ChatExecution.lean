import DeltaLLM.ChatWorkUnits
import DeltaLLM.RunnerPools

/-! # Claimed chat items from preparation to execution

The items of a claim are prepared by several runners and planned into work units when all runners
have returned; then the units are executed by several runners under one semaphore for each
deployment. The prepared items stand in the order in which their preparations ended.
-/
namespace ChatExecution

open BatchRecords (BatchItemRow)
open Dictionaries (Dict)
open ChatPlanner
open ChatWorkUnits
open RunnerPools
open TransitionRuns

/-! ## Preparation -/

/-- How the preparation of an item ends: it is appended to the prepared items or marked failed. -/
inductive Preparation where
  | prepared (item : PreparedChatItem)
  | failed

/-- A prepared item is the item that was taken; its payload and its deployment may be any. -/
def Preparation.Of (item : BatchItemRow) (outcome : Preparation) : Prop :=
  match outcome with
  | .prepared found => found.item = item
  | .failed => True

/-- `_prepare_runner`. -/
def preparePool : Pool BatchItemRow Preparation Unit where
  key _ := ()
  permits _ := none
  ends item outcome := outcome.Of item

def prepareRunnerCount (w : ChatWorker) (items : List BatchItemRow) : ℕ :=
  min (max 1 w.workerConcurrency) items.length

abbrev PrepareState (w : ChatWorker) (items : List BatchItemRow) : Type :=
  State BatchItemRow Preparation (prepareRunnerCount w items)

def preparation (w : ChatWorker) (items : List BatchItemRow) :
    TransitionSystem (PrepareState w items) (Event Preparation (prepareRunnerCount w items)) :=
  system preparePool (prepareRunnerCount w items) items

def preparedOf (results : List (BatchItemRow × Preparation)) : List PreparedChatItem :=
  results.filterMap fun entry => match entry.2 with
    | .prepared prepared => some prepared
    | .failed => none

def failedOf (results : List (BatchItemRow × Preparation)) : List BatchItemRow :=
  results.filterMap fun entry => match entry.2 with
    | .prepared _ => none
    | .failed => some entry.1

/-! ## Execution -/

/-- The permits of a deployment's semaphore: the first unit of the deployment sets them. -/
def semaphorePermits (w : ChatWorker) (units : List QueuedUnit) (key : String) : Option ℕ :=
  (units.find? fun queued => queued.deploymentKey = key).map fun queued =>
    let limit := match queued.settings.maxInFlight with
      | some limit => if limit = 0 then w.workerConcurrency else limit
      | none => w.workerConcurrency
    max 1 (min limit (max 1 w.workerConcurrency))

/-- `_execution_runner`. -/
def executionPool (w : ChatWorker) (units : List QueuedUnit) : Pool QueuedUnit Unit String where
  key := QueuedUnit.deploymentKey
  permits := semaphorePermits w units
  ends _ _ := True

def runnerCount (w : ChatWorker) (units : List QueuedUnit) : ℕ :=
  min (max 1 w.workerConcurrency) units.length

abbrev ExecutionState (w : ChatWorker) (units : List QueuedUnit) : Type :=
  State QueuedUnit Unit (runnerCount w units)

def execution (w : ChatWorker) (units : List QueuedUnit) :
    TransitionSystem (ExecutionState w units) (Event Unit (runnerCount w units)) :=
  system (executionPool w units) (runnerCount w units) units

/-! ## Every item is failed or planned -/

variable {w : ChatWorker} {items : List BatchItemRow} {results : List (BatchItemRow × Preparation)}

theorem perm_results (h : ∀ entry ∈ results, entry.2.Of entry.1) :
    (failedOf results ++ (preparedOf results).map PreparedChatItem.item).Perm
      (results.map Prod.fst) := by
  induction results with
  | nil => exact List.Perm.refl _
  | cons entry results ih =>
      have hrest := ih fun other hother => h other (List.mem_cons_of_mem _ hother)
      obtain ⟨item, outcome⟩ := entry
      cases outcome with
      | failed => exact List.Perm.cons item hrest
      | prepared prepared =>
          have hitem : prepared.item = item := h _ List.mem_cons_self
          subst hitem
          exact List.perm_middle.trans (List.Perm.cons _ hrest)

theorem sublist_results (h : ∀ entry ∈ results, entry.2.Of entry.1) :
    ((preparedOf results).map PreparedChatItem.item).Sublist (results.map Prod.fst) := by
  induction results with
  | nil => exact List.Sublist.refl _
  | cons entry results ih =>
      have hrest := ih fun other hother => h other (List.mem_cons_of_mem _ hother)
      obtain ⟨item, outcome⟩ := entry
      cases outcome with
      | failed => exact hrest.cons item
      | prepared prepared =>
          have hitem : prepared.item = item := h _ List.mem_cons_self
          subst hitem
          exact hrest.cons_cons _

theorem live_preparePool : Live preparePool where
  total _ := ⟨.failed, trivial⟩
  permits_pos := by
    intro key limit hlimit
    cases hlimit

theorem live_executionPool (w : ChatWorker) (units : List QueuedUnit) :
    Live (executionPool w units) where
  total _ := ⟨(), trivial⟩
  permits_pos := by
    intro key limit hlimit
    obtain ⟨queued, _, rfl⟩ := Option.map_eq_some_iff.mp hlimit
    exact Nat.lt_of_lt_of_le Nat.one_pos (Nat.le_max_left 1 _)

/-- Work to do has a runner. -/
theorem enough_runners {α : Type} (concurrency : ℕ) (jobs : List α) :
    jobs = [] ∨ 0 < min (max 1 concurrency) jobs.length := by
  cases jobs with
  | nil => exact .inl rfl
  | cons job jobs =>
      right
      rw [List.length_cons]
      omega

/-- What the preparation of a claim leads to. -/
structure Planned (w : ChatWorker) (items : List BatchItemRow) (s : PrepareState w items) :
    Prop where
  partition : (failedOf s.results ++
    (plannedItems (planWorkUnits w (preparedOf s.results))).map PreparedChatItem.item).Perm items
  ordered : prepareRunnerCount w items = 1 →
    ((preparedOf s.results).map PreparedChatItem.item).Sublist items
  chunks : ∀ queued ∈ planWorkUnits w (preparedOf s.results), ∀ chunk,
    queued.unit = .microbatch chunk → ChunkOf (preparedOf s.results) queued chunk
  accepted : ∀ queued ∈ planWorkUnits w (preparedOf s.results), ∀ chunk,
    queued.unit = .microbatch chunk → ∀ first left, (first :: left).Sublist chunk →
      first.settings = queued.settings →
        microbatchRefusal w first.primaryDeployment (first :: left).length
            ((first :: left).map PreparedChatItem.inputTokens).sum =
          if w.executor first.primaryDeployment then none else some "executor_unavailable"

theorem ended_planned {s : PrepareState w items} (hs : Reachable (preparation w items) s)
    (hended : Ended s) : Planned w items s := by
  have hinv := reachable_inv hs
  obtain ⟨_, _, hresults, hone⟩ :=
    ended_complete hinv (enough_runners w.workerConcurrency items) hended
  have hchunks : ∀ queued ∈ planWorkUnits w (preparedOf s.results), ∀ chunk,
      queued.unit = .microbatch chunk → ChunkOf (preparedOf s.results) queued chunk :=
    fun queued hqueued chunk hchunk => chunkOf_planWorkUnits hqueued hchunk
  refine ⟨?_, ?_, hchunks, ?_⟩
  · have hplan := (planWorkUnits_perm w (preparedOf s.results)).map PreparedChatItem.item
    exact ((List.Perm.append_left _ hplan).trans (perm_results hinv.ended)).trans hresults
  · intro hcount
    have hordered := sublist_results hinv.ended
    rwa [hone hcount] at hordered
  · intro queued hqueued chunk hchunk first left hleft hsettings
    exact microbatchRefusal_chunk (hchunks queued hqueued chunk hchunk) hleft hsettings

/-- In every run of the preparation the runners drain the claimed items. When they have returned,
every item is failed or in one work unit, and every chunk has one group key, the order in which the
preparations ended and the limits of the first item that was prepared for its deployment; where
these are the limits of the chunk's own deployment, that does not refuse it for its size or tokens.
In every run of the execution the runners drain the work units. -/
theorem claimed_items_planned_once (w : ChatWorker) (items : List BatchItemRow)
    {s : PrepareState w items} (hs : Reachable (preparation w items) s) :
    Drains preparePool items s ∧
      (Ended s → Planned w items s ∧
        ∀ t, Reachable (execution w (planWorkUnits w (preparedOf s.results))) t →
          Drains (executionPool w (planWorkUnits w (preparedOf s.results)))
            (planWorkUnits w (preparedOf s.results)) t) := by
  refine ⟨reachable_drains live_preparePool (enough_runners w.workerConcurrency items) hs, ?_⟩
  intro hended
  refine ⟨ended_planned hs hended, fun t ht => ?_⟩
  exact reachable_drains (live_executionPool w _) (enough_runners w.workerConcurrency _) ht

/-! ## A late item and a reload of the settings -/

def worker : ChatWorker := ⟨2, fun _ => true⟩

def chatItem (itemId : String) (lineNumber : ℕ) : BatchItemRow :=
  { BatchRecords.createdItem itemId "batch-1" lineNumber itemId [("model", .str "m1")] 1 with
    status := .inProgress, attempts := 1, claimEpoch := 1, lockedBy := some "worker-1" }

def first : BatchItemRow := chatItem "item-1" 1

def second : BatchItemRow := chatItem "item-2" 2

def third : BatchItemRow := chatItem "item-3" 3

def claimed : List BatchItemRow := [first, second, third]

def syncMicrobatch (size : ℕ) (tokens : Option ℕ) : ChatBatchingFields :=
  { mode := .syncMicrobatch, upstreamMaxBatchSize := some size, maxTotalInputTokens := tokens }

def deployment (objectId : ℕ) (fields : ChatBatchingFields) : Deployment :=
  ⟨objectId, "dep-1", ⟨some "openai/gpt-4o", none, none, .fields fields⟩⟩

/-- The deployment before and after a reload of the registry. -/
def before : Deployment := deployment 1 (syncMicrobatch 8 none)

def after : Deployment := deployment 2 (syncMicrobatch 8 (some 5))

def request (tools : List ToolDefinition) : ChatCompletionRequest :=
  ⟨[⟨"user", .text "hello"⟩], none, tools, none, none, [("model", .str "m1")]⟩

def withTools : PreparedChatItem := ⟨first, request [.function], "m1", before, []⟩

def plain (item : BatchItemRow) : PreparedChatItem := ⟨item, request [], "m1", after, []⟩

def runnerA : Fin (prepareRunnerCount worker claimed) := ⟨0, by decide⟩

def runnerB : Fin (prepareRunnerCount worker claimed) := ⟨1, by decide⟩

/-- The third item is prepared before the second. -/
def lateSecond : List (Event Preparation (prepareRunnerCount worker claimed)) :=
  [.take runnerA, .enter runnerA, .finish runnerA (.prepared withTools),
    .take runnerA, .take runnerB, .enter runnerA, .enter runnerB,
    .finish runnerB (.prepared (plain third)), .finish runnerA (.prepared (plain second)),
    .take runnerA, .take runnerB]

/-- Marking the first item as failed raises. -/
def markRaises : List (Event Preparation (prepareRunnerCount worker claimed)) :=
  [.take runnerA, .enter runnerA, .raise runnerA]

def stateAfter (events : List (Event Preparation (prepareRunnerCount worker claimed))) :
    PrepareState worker claimed :=
  events.foldl (preparation worker claimed).next (initial claimed)

theorem noPermits (item : BatchItemRow) (s : PrepareState worker claimed) :
    ∀ limit ∈ preparePool.permits (preparePool.key item),
      s.occupied preparePool.key (preparePool.key item) < limit := by
  intro limit hlimit
  cases hlimit

theorem lateSecond_reachable : Reachable (preparation worker claimed) (stateAfter lateSecond) := by
  refine ReachableBy.fires (.initial rfl) ?_
  exact ⟨rfl, trivial, ⟨first, rfl, noPermits _ _⟩, trivial, ⟨first, rfl, rfl⟩, trivial,
    rfl, trivial,
    rfl, trivial, ⟨second, rfl, noPermits _ _⟩, trivial, ⟨third, rfl, noPermits _ _⟩, trivial,
    ⟨third, rfl, rfl⟩, trivial, ⟨second, rfl, rfl⟩, trivial, rfl, trivial, rfl, trivial, trivial⟩

theorem markRaises_reachable : Reachable (preparation worker claimed) (stateAfter markRaises) := by
  refine ReachableBy.fires (.initial rfl) ?_
  exact ⟨rfl, trivial, ⟨first, rfl, noPermits _ _⟩, trivial, ⟨first, rfl⟩, trivial, trivial⟩

theorem lateSecond_ended : Ended (stateAfter lateSecond) := by
  have hrunners : (stateAfter lateSecond).runner runnerA = .returned ∧
      (stateAfter lateSecond).runner runnerB = .returned := ⟨rfl, rfl⟩
  intro i
  have hcount : prepareRunnerCount worker claimed = 2 := rfl
  have hi : i = runnerA ∨ i = runnerB := by
    have hlt := i.isLt
    rcases Nat.lt_or_ge i.val 1 with hzero | hone
    · left
      apply Fin.ext
      change i.val = 0
      omega
    · right
      apply Fin.ext
      change i.val = 1
      omega
  rcases hi with rfl | rfl
  · exact hrunners.1
  · exact hrunners.2

def lateItems : List PreparedChatItem := [withTools, plain third, plain second]

theorem preparedOf_lateSecond : preparedOf (stateAfter lateSecond).results = lateItems := rfl

def lateChunk : QueuedUnit := ⟨"dep-1", withTools.settings, .microbatch [plain third, plain second]⟩

/-- What the plain items share. -/
def plainKey : GroupKey := groupKeyOf (request []) after "m1" []

theorem eligibility_plain (item : BatchItemRow) :
    (plain item).eligibility = ⟨true, none, some plainKey, 3⟩ := by
  have htokens : estimateChatInputTokens (request []) = 3 := by decide
  simp only [PreparedChatItem.eligibility, plain, classifyChatMicrobatchRequest, htokens]
  rfl

theorem candidateOf_plain (item : BatchItemRow) :
    candidateOf (plain item) = some (plainKey, plain item, 3) := by
  rw [candidateOf, eligibility_plain]
  rfl

theorem candidateOf_withTools : candidateOf withTools = none := by
  have hineligible : withTools.eligibility.eligible = false := rfl
  simp [candidateOf, hineligible]

theorem grouped_lateItems :
    Dict.groupRecords Prod.fst (lateItems.filterMap candidateOf) =
      [(plainKey, [(plainKey, plain third, 3), (plainKey, plain second, 3)])] := by
  have hcandidates : lateItems.filterMap candidateOf =
      [(plainKey, plain third, 3), (plainKey, plain second, 3)] := by
    rw [lateItems, List.filterMap_cons_none candidateOf_withTools,
      List.filterMap_cons_some (candidateOf_plain third),
      List.filterMap_cons_some (candidateOf_plain second), List.filterMap_nil]
  rw [hcandidates]
  apply Dict.groupRecords_same
  · intro record hrecord
    rcases List.mem_pair.mp hrecord with rfl | rfl
    · rfl
    · rfl
  · exact List.cons_ne_nil _ _

theorem lateChunk_planned : lateChunk ∈ planWorkUnits worker lateItems := by
  have hdeployments : Dict.groupRecords chatDeploymentKey lateItems = [("dep-1", lateItems)] := by
    apply Dict.groupRecords_same
    · intro prepared hprepared
      simp only [lateItems, List.mem_cons, List.not_mem_nil, or_false] at hprepared
      rcases hprepared with rfl | rfl | rfl
      · rfl
      · rfl
      · rfl
    · exact List.cons_ne_nil _ _
  have hsync : ¬(withTools.settings.mode = .disabled ∨ withTools.settings.mode = .concurrent) := by
    decide
  rw [planWorkUnits, hdeployments, List.flatMap_singleton]
  change lateChunk ∈ planDeployment worker "dep-1" (withTools :: [plain third, plain second])
  rw [planDeployment]
  simp only [if_neg hsync]
  apply List.mem_append_right
  have hgrouped := grouped_lateItems
  rw [lateItems] at hgrouped
  rw [hgrouped, List.flatMap_singleton]
  exact List.mem_singleton.mpr rfl

/-- All three items are planned, although in another order than they were claimed. -/
theorem claimed_items_planned_late :
    (failedOf (stateAfter lateSecond).results ++
      (plannedItems (planWorkUnits worker (preparedOf (stateAfter lateSecond).results))).map
        PreparedChatItem.item).Perm claimed :=
  ((claimed_items_planned_once worker claimed lateSecond_reachable).2 lateSecond_ended).1.partition

/-- The chunk of a finished preparation is not in the claimed order, and its own deployment, whose
limits were reloaded after the first item was prepared, refuses it for its tokens. When marking an
item as failed raises, the item is neither failed nor prepared. -/
theorem late_chunk_refused :
    (Reachable (preparation worker claimed) (stateAfter lateSecond) ∧
      Ended (stateAfter lateSecond) ∧
      lateChunk ∈ planWorkUnits worker (preparedOf (stateAfter lateSecond).results) ∧
      lateChunk.items = [plain third, plain second] ∧
      ¬(lateChunk.items.map PreparedChatItem.item).Sublist claimed ∧
      microbatchRefusal worker (plain third).primaryDeployment lateChunk.items.length
        (lateChunk.items.map PreparedChatItem.inputTokens).sum = some "max_total_input_tokens") ∧
    (Reachable (preparation worker claimed) (stateAfter markRaises) ∧
      Cancelled (stateAfter markRaises) ∧ failedOf (stateAfter markRaises).results = [] ∧
      preparedOf (stateAfter markRaises).results = []) := by
  have hnotOrdered : ¬[third, second].Sublist claimed := by
    intro hsublist
    have hlines := hsublist.map BatchItemRow.lineNumber
    change [3, 2].Sublist [1, 2, 3] at hlines
    exact absurd hlines (by decide)
  have htokens : (lateChunk.items.map PreparedChatItem.inputTokens).sum = 6 := by decide
  have hplanned : lateChunk ∈
    planWorkUnits worker (preparedOf (stateAfter lateSecond).results) := by
    rw [preparedOf_lateSecond]
    exact lateChunk_planned
  have hrefused : microbatchRefusal worker after 2 6 = some "max_total_input_tokens" := by decide
  refine ⟨⟨lateSecond_reachable, lateSecond_ended, hplanned, rfl, hnotOrdered, ?_⟩,
    markRaises_reachable, ⟨runnerA, some first, rfl⟩, rfl, rfl⟩
  rw [htokens]
  exact hrefused

end ChatExecution
