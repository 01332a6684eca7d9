import DeltaLLM.JsonValues
import DeltaLLM.PythonText
import Mathlib.Algebra.Order.Ring.Rat
import Mathlib.Data.List.Dedup
import Mathlib.Algebra.GroupWithZero.Nat

/-! # Choosing a deployment

The router's filters and its nine strategies. What a strategy reads from the state backend and the
random numbers it draws are one `Reading`; average latencies and synthetic unit costs are readings
too, with none where the code has an infinite one.
-/
namespace DeploymentRouting

open JsonValues
open PythonText

inductive RoutingStrategy where
  | simpleShuffle
  | leastBusy
  | latencyBased
  | costBased
  | usageBased
  | tagBased
  | priorityBased
  | weighted
  | rateLimitAware
  deriving DecidableEq, Repr

structure Deployment where
  deploymentId : String
  mode : String
  weight : ℤ
  priority : ℤ
  tags : List String
  rpmLimit : Option ℤ
  tpmLimit : Option ℤ
  imagePmLimit : Option ℤ
  audioSecondsPmLimit : Option ℤ
  charPmLimit : Option ℤ
  rerankUnitsPmLimit : Option ℤ
  deriving DecidableEq, Repr

/-- `deployment_registry.get(group, [])`. -/
abbrev Registry := String → List Deployment

structure Usage where
  rpm : ℕ
  tpm : ℕ
  imagePm : ℕ
  audioSecondsPm : ℕ
  charPm : ℕ
  rerankUnitsPm : ℕ

/-- The random numbers of one selection: an index and a point of the weight line. -/
structure Draw where
  index : ℕ
  pick : ℚ

structure Reading where
  isCooledDown : String → Bool
  health : String → Option String
  activeRequests : String → ℕ
  averageLatency : String → Option ℚ
  usage : String → Usage
  unitCost : Deployment → Option ℚ
  draw : Draw

structure RouterConfig where
  strategy : RoutingStrategy
  enablePreCallChecks : Bool
  groupStrategy : String → Option RoutingStrategy

/-! ## Filters -/

/-- The tags a request asks for, stripped, without the blank ones and what is no text. -/
def requestTags (metadata : JsonValue) : List String :=
  match metadata with
  | .dict fields =>
      match JsonObject.get fields "tags" with
      | .list tags => tags.filterMap fun
          | .str tag => if strip tag = "" then none else some (strip tag)
          | _ => none
      | _ => []
  | _ => []

def HasTags (tags : List String) (d : Deployment) : Prop := ∀ tag ∈ tags, tag ∈ d.tags

instance (tags : List String) (d : Deployment) : Decidable (HasTags tags d) :=
  inferInstanceAs (Decidable (∀ tag ∈ tags, tag ∈ d.tags))

def filterHealthy (r : Reading) (candidates : List Deployment) : List Deployment :=
  candidates.filter fun d =>
    !r.isCooledDown d.deploymentId && (r.health d.deploymentId).getD "true" ≠ "false"

def applyFilters (metadata : JsonValue) (deployments : List Deployment) : List Deployment :=
  let tags := requestTags metadata
  if tags = [] then deployments
  else deployments.filter fun d => d.tags ≠ [] ∧ HasTags tags d

def calcUtilization (current : ℕ) (limit : ℤ) : ℚ := if limit ≤ 0 then 0 else current / limit

/-- `str(mode or "chat").strip().lower() or "chat"`. -/
def usageMode (d : Deployment) : String :=
  let mode := lower (strip (if d.mode = "" then "chat" else d.mode))
  if mode = "" then "chat" else mode

def usageUtilizationForDeployment (d : Deployment) (usage : Usage) : ℚ :=
  let used (current : ℕ) (limit : Option ℤ) : List ℚ := (limit.map (calcUtilization current)).toList
  let mode := usageMode d
  let byMode :=
    if mode = "chat" ∨ mode = "embedding" then used usage.tpm d.tpmLimit
    else if mode = "image_generation" then used usage.imagePm d.imagePmLimit
    else if mode = "audio_speech" ∨ mode = "audio_transcription" then
      used usage.audioSecondsPm d.audioSecondsPmLimit ++ used usage.charPm d.charPmLimit
    else if mode = "rerank" then used usage.rerankUnitsPm d.rerankUnitsPmLimit
    else used usage.tpm d.tpmLimit
  (used usage.rpm d.rpmLimit ++ byMode).max?.getD 0

def usageWithinLimits (d : Deployment) (usage : Usage) : Bool :=
  usageUtilizationForDeployment d usage < 1

def applyPreCallChecks (r : Reading) (deployments : List Deployment) : List Deployment :=
  deployments.filter fun d => usageWithinLimits d (r.usage d.deploymentId)

/-! ## Strategies -/

def randomChoice (draw : Draw) (deployments : List Deployment) : Option Deployment :=
  deployments[draw.index % deployments.length]?

def pickByWeight (pick : ℚ) : ℕ → List Deployment → Option Deployment
  | _, [] => none
  | cumulative, d :: ds =>
      if pick ≤ (cumulative + d.weight.toNat : ℕ) then some d
      else pickByWeight pick (cumulative + d.weight.toNat) ds

def weightedRandomChoice (draw : Draw) (deployments : List Deployment) : Option Deployment :=
  if (deployments.map fun d => d.weight.toNat).sum = 0 then randomChoice draw deployments
  else (pickByWeight draw.pick 0 deployments).or deployments.getLast?

/-- The first deployment of the least score; a deployment without one never wins. -/
def leastScored (score : Deployment → Option ℚ) (best : Option (Deployment × ℚ)) :
    List Deployment → Option (Deployment × ℚ)
  | [] => best
  | d :: ds =>
      match score d, best with
      | none, _ => leastScored score best ds
      | some cost, none => leastScored score (some (d, cost)) ds
      | some cost, some (leader, least) =>
          leastScored score (if cost < least then some (d, cost) else some (leader, least)) ds

def selectLeastBusy (r : Reading) (deployments : List Deployment) : Option Deployment :=
  let counts := deployments.map fun d => r.activeRequests d.deploymentId
  weightedRandomChoice r.draw
    (deployments.filter fun d => some (r.activeRequests d.deploymentId) = counts.min?)

def selectLatencyBased (r : Reading) (deployments : List Deployment) : Option Deployment :=
  let score (d : Deployment) := r.averageLatency d.deploymentId
  match (deployments.filterMap score).min? with
  | none => weightedRandomChoice r.draw deployments
  | some best =>
      weightedRandomChoice r.draw
        (deployments.filter (fun d => score d = some best) ++ deployments.filter fun d =>
          (score d).isNone)

def selectCostBased (r : Reading) (deployments : List Deployment) : Option Deployment :=
  ((leastScored r.unitCost none deployments).map Prod.fst).or
    (weightedRandomChoice r.draw deployments)

def selectUsageBased (r : Reading) (deployments : List Deployment) : Option Deployment :=
  let score (d : Deployment) := some (usageUtilizationForDeployment d (r.usage d.deploymentId))
  ((leastScored score none deployments).map Prod.fst).or (weightedRandomChoice r.draw deployments)

def selectPriorityBased (r : Reading) (deployments : List Deployment) : Option Deployment :=
  ((deployments.map (·.priority)).dedup.mergeSort
    (fun p q => decide (p ≤ q))).findSome? fun priority =>
    weightedRandomChoice r.draw (deployments.filter fun d => d.priority = priority)

def selectRateLimitAware (r : Reading) (deployments : List Deployment) : Option Deployment :=
  weightedRandomChoice r.draw (deployments.filter fun d =>
    usageUtilizationForDeployment d (r.usage d.deploymentId) < 9 / 10)

def select (strategy : RoutingStrategy) (r : Reading) (deployments : List Deployment) :
    Option Deployment :=
  match strategy with
  | .simpleShuffle => randomChoice r.draw deployments
  | .leastBusy => selectLeastBusy r deployments
  | .latencyBased => selectLatencyBased r deployments
  | .costBased => selectCostBased r deployments
  | .usageBased => selectUsageBased r deployments
  -- the router has filtered by tags before, so the tag strategy is the weighted one
  | .tagBased => weightedRandomChoice r.draw deployments
  | .priorityBased => selectPriorityBased r deployments
  | .weighted => weightedRandomChoice r.draw deployments
  | .rateLimitAware => selectRateLimitAware r deployments

def resolveStrategyForGroup (config : RouterConfig) (group : String) : RoutingStrategy :=
  (config.groupStrategy group).getD config.strategy

def eligible (config : RouterConfig) (r : Reading) (metadata : JsonValue)
    (candidates : List Deployment) : List Deployment :=
  let filtered := applyFilters metadata (filterHealthy r candidates)
  if config.enablePreCallChecks then applyPreCallChecks r filtered else filtered

def selectDeployment (config : RouterConfig) (registry : Registry) (r : Reading) (group : String)
    (metadata : JsonValue) : Option Deployment :=
  select (resolveStrategyForGroup config group) r (eligible config r metadata (registry group))

/-! ## What is selected was eligible -/

variable {d : Deployment} {deployments : List Deployment}

theorem randomChoice_mem {draw : Draw} (h : randomChoice draw deployments = some d) :
    d ∈ deployments :=
  List.mem_of_getElem? h

theorem pickByWeight_mem {pick : ℚ} {cumulative : ℕ}
    (h : pickByWeight pick cumulative deployments = some d) : d ∈ deployments := by
  induction deployments generalizing cumulative with
  | nil => simp [pickByWeight] at h
  | cons head rest ih =>
      unfold pickByWeight at h
      split at h
      · cases h
        exact List.mem_cons_self
      · exact List.mem_cons_of_mem _ (ih h)

theorem weightedRandomChoice_mem {draw : Draw}
    (h : weightedRandomChoice draw deployments = some d) :
    d ∈ deployments := by
  unfold weightedRandomChoice at h
  split at h
  · exact randomChoice_mem h
  · rcases Option.or_eq_some_iff.mp h with hpick | ⟨_, hlast⟩
    · exact pickByWeight_mem hpick
    · exact List.mem_of_getLast? hlast

theorem leastScored_mem {score : Deployment → Option ℚ} {best : Option (Deployment × ℚ)}
    {cost : ℚ} (h : leastScored score best deployments = some (d, cost)) :
    d ∈ deployments ∨ best = some (d, cost) := by
  induction deployments generalizing best with
  | nil => exact .inr h
  | cons head rest ih =>
      unfold leastScored at h
      split at h
      · rcases ih h with hmem | hbest
        · exact .inl (List.mem_cons_of_mem _ hmem)
        · exact .inr hbest
      · rcases ih h with hmem | hbest
        · exact .inl (List.mem_cons_of_mem _ hmem)
        · cases hbest
          exact .inl List.mem_cons_self
      · rcases ih h with hmem | hbest
        · exact .inl (List.mem_cons_of_mem _ hmem)
        · split at hbest
          · cases hbest
            exact .inl List.mem_cons_self
          · exact .inr hbest

theorem leastScored_or_mem {score : Deployment → Option ℚ} {draw : Draw}
    (h : ((leastScored score none deployments).map Prod.fst).or
      (weightedRandomChoice draw deployments) = some d) : d ∈ deployments := by
  rcases Option.or_eq_some_iff.mp h with hbest | ⟨_, hchoice⟩
  · obtain ⟨⟨leader, cost⟩, hleast, rfl⟩ := Option.map_eq_some_iff.mp hbest
    rcases leastScored_mem hleast with hmem | hnone
    · exact hmem
    · cases hnone
  · exact weightedRandomChoice_mem hchoice

theorem select_mem {strategy : RoutingStrategy} {r : Reading}
    (h : select strategy r deployments = some d) : d ∈ deployments := by
  cases strategy with
  | simpleShuffle => exact randomChoice_mem h
  | leastBusy => exact List.mem_of_mem_filter (weightedRandomChoice_mem h)
  | latencyBased =>
      simp only [select, selectLatencyBased] at h
      split at h
      · exact weightedRandomChoice_mem h
      · rcases List.mem_append.mp (weightedRandomChoice_mem h) with hmem | hmem
        · exact List.mem_of_mem_filter hmem
        · exact List.mem_of_mem_filter hmem
  | costBased => exact leastScored_or_mem h
  | usageBased => exact leastScored_or_mem h
  | tagBased => exact weightedRandomChoice_mem h
  | priorityBased =>
      obtain ⟨priority, _, hchoice⟩ := List.exists_of_findSome?_eq_some h
      exact List.mem_of_mem_filter (weightedRandomChoice_mem hchoice)
  | weighted => exact weightedRandomChoice_mem h
  | rateLimitAware => exact List.mem_of_mem_filter (weightedRandomChoice_mem h)

theorem mem_eligible {config : RouterConfig} {r : Reading} {metadata : JsonValue}
    (h : d ∈ eligible config r metadata deployments) :
    d ∈ deployments ∧ HasTags (requestTags metadata) d := by
  have hfiltered : d ∈ applyFilters metadata (filterHealthy r deployments) := by
    unfold eligible at h
    split at h
    · exact List.mem_of_mem_filter h
    · exact h
  simp only [applyFilters] at hfiltered
  split at hfiltered
  next hnone =>
    refine ⟨List.mem_of_mem_filter hfiltered, ?_⟩
    rw [hnone]
    intro tag htag
    cases htag
  next =>
    obtain ⟨hhealthy, hkept⟩ := List.mem_filter.mp hfiltered
    exact ⟨List.mem_of_mem_filter hhealthy, (of_decide_eq_true hkept).2⟩

/-- Selection respects the tags: what a strategy returns is a deployment of the group and has
every tag the request asks for. -/
theorem selectDeployment_sound {config : RouterConfig} {registry : Registry} {r : Reading}
    {group : String} {metadata : JsonValue}
    (h : selectDeployment config registry r group metadata = some d) :
    d ∈ registry group ∧ HasTags (requestTags metadata) d :=
  mem_eligible (select_mem h)

end DeploymentRouting
