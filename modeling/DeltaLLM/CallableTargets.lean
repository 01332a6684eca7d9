import DeltaLLM.JsonValues
import DeltaLLM.PythonText
import DeltaLLM.Dictionaries
import Mathlib.Data.Finset.Dedup
import Mathlib.Data.Finset.Empty

/-! # Callable targets and their access groups

What a caller may name in a request: the models and the route groups with a live member. A target
may carry access groups, through which several targets are granted at once.
-/
namespace CallableTargets

open JsonValues PythonText Dictionaries

/-! ## Access groups -/

def isKeyStart (c : Char) : Bool := ('a' ≤ c ∧ c ≤ 'z') ∨ ('0' ≤ c ∧ c ≤ '9')

def isKeyChar (c : Char) : Bool := isKeyStart c ∨ c = '.' ∨ c = '_' ∨ c = '-'

/-- `_ACCESS_GROUP_PATTERN`: a letter or digit and at most 63 more characters. -/
def accessGroupPattern (text : String) : Bool :=
  match text.toList with
  | [] => false
  | c :: cs => isKeyStart c ∧ cs.all isKeyChar ∧ cs.length ≤ 63

/-- `normalize_access_group_key` without `strict`. -/
def normalizeAccessGroupKey : JsonValue → Option String
  | .str value =>
      let normalized := lower (strip value)
      if accessGroupPattern normalized then some normalized else none
  | _ => none

def maxAccessGroupsPerTarget : ℕ := 100

/-- `normalize_access_groups`: the first keys of the list that are well formed and new. -/
def normalizeAccessGroups : JsonValue → Finset String
  | .list items =>
      (((items.filterMap normalizeAccessGroupKey).eraseDups).take maxAccessGroupsPerTarget).toFinset
  | _ => ∅

/-- `access_groups_from_metadata`. -/
def accessGroupsFromMetadata (metadata : JsonObject) : Finset String :=
  normalizeAccessGroups (metadata.get "access_groups")

/-! ## The catalog -/

inductive TargetType where
  | model | routeGroup
  deriving DecidableEq, Repr

structure CallableTarget where
  key : String
  targetType : TargetType
  accessGroups : Finset String
  deriving DecidableEq

abbrev Catalog := Dict String CallableTarget

/-- One deployment of a model as the runtime holds it. -/
structure RegistryEntry where
  deploymentId : Option String
  namedCredentialId : Option String
  namedCredentialName : Option String
  deltallmParams : JsonObject
  modelInfo : JsonObject

abbrev ModelRegistry := Dict String (List RegistryEntry)

structure RouteGroupMember where
  deploymentId : String
  enabled : Bool
  weight : Option JsonValue
  priority : Option JsonValue

/-- A route group as the repository or the config file lists it. -/
structure RouteGroup where
  key : String
  enabled : Bool
  strategy : Option String
  policyVersion : Option ℤ
  timeouts : Option JsonObject
  retry : Option JsonObject
  accessGroups : JsonValue
  members : List RouteGroupMember

/-- `entry.get("deployment_id") or f"{model_name}-{index}"`. -/
def RegistryEntry.idOr (entry : RegistryEntry) (modelName : String) (index : ℕ) : String :=
  let deploymentId := entry.deploymentId.getD ""
  if deploymentId = "" then modelName ++ "-" ++ toString index else deploymentId

/-- `_collect_deployment_ids`. -/
def collectDeploymentIds (registry : ModelRegistry) : List String :=
  (registry.flatMap fun (modelName, entries) =>
    entries.mapIdx fun index entry => strip (entry.idOr modelName index)).filter (· ≠ "")

/-- `_model_access_groups`: entries that disagree have no access groups. -/
def modelAccessGroups (entries : List RegistryEntry) : Finset String :=
  match entries.map fun entry => accessGroupsFromMetadata entry.modelInfo with
  | [] => ∅
  | groups :: others => if others.all (· = groups) then groups else ∅

/-- `_route_group_has_live_members`. -/
def RouteGroup.hasLiveMembers (group : RouteGroup) (deploymentIds : List String) : Bool :=
  group.members.any fun member =>
    member.enabled ∧ strip member.deploymentId ≠ "" ∧ strip member.deploymentId ∈ deploymentIds

/-- The groups of `build_callable_target_catalog`; none is a key that is taken. -/
def addRouteGroups (deploymentIds : List String) : Catalog → List RouteGroup → Option Catalog
  | catalog, [] => some catalog
  | catalog, group :: groups =>
      let groupKey := strip group.key
      if groupKey = "" ∨ ¬group.enabled ∨ ¬group.hasLiveMembers deploymentIds then
        addRouteGroups deploymentIds catalog groups
      else if (catalog.get? groupKey).isSome then none
      else
        addRouteGroups deploymentIds
          (catalog.set groupKey
            ⟨groupKey, .routeGroup, normalizeAccessGroups group.accessGroups⟩) groups

/-- `build_callable_target_catalog`; none is the error about a key declared twice. -/
def buildCallableTargetCatalog (registry : ModelRegistry) (groups : List RouteGroup) :
    Option Catalog :=
  let models : Catalog := registry.foldl (fun catalog (modelName, entries) =>
    let key := strip modelName
    if key = "" then catalog
    else catalog.set key ⟨key, .model, modelAccessGroups entries⟩) []
  addRouteGroups (collectDeploymentIds registry) models groups

/-- `build_callable_keys_by_access_group`: the targets that an access group stands for. -/
def callableKeysByAccessGroup (catalog : Catalog) (groupKey : String) : Finset String :=
  ((catalog.filter fun entry => strip entry.1 ≠ "" ∧ groupKey ∈ entry.2.accessGroups).map
    fun entry => strip entry.1).toFinset

theorem callableKey_ne_empty {catalog : Catalog} {groupKey callableKey : String}
    (h : callableKey ∈ callableKeysByAccessGroup catalog groupKey) : callableKey ≠ "" := by
  simp only [callableKeysByAccessGroup, List.mem_toFinset, List.mem_map, List.mem_filter,
    decide_eq_true_eq] at h
  obtain ⟨entry, ⟨-, hne, -⟩, rfl⟩ := h
  exact hne

/-- Every target and every access group it carries has a name. -/
def Catalog.Named (catalog : Catalog) : Prop :=
  ∀ entry ∈ catalog, entry.1 ≠ "" ∧ "" ∉ entry.2.accessGroups

theorem normalizeAccessGroupKey_ne_empty {value : JsonValue} :
    normalizeAccessGroupKey value ≠ some "" := by
  intro h
  cases value with
  | str text =>
      simp only [normalizeAccessGroupKey] at h
      split at h
      next hpattern =>
        rw [Option.some.inj h] at hpattern
        exact absurd hpattern (by decide)
      next => cases h
  | _ => cases h

theorem normalizeAccessGroups_named (value : JsonValue) : "" ∉ normalizeAccessGroups value := by
  cases value with
  | list items =>
      simp only [normalizeAccessGroups, List.mem_toFinset]
      intro h
      obtain ⟨item, -, hitem⟩ :=
        List.mem_filterMap.mp (List.mem_eraseDups.mp (List.mem_of_mem_take h))
      exact normalizeAccessGroupKey_ne_empty hitem
  | _ => exact Finset.notMem_empty _

theorem modelAccessGroups_named (entries : List RegistryEntry) :
    "" ∉ modelAccessGroups entries := by
  unfold modelAccessGroups
  split
  next => exact Finset.notMem_empty _
  next groups others heq =>
    split
    · have hmem : groups ∈ entries.map fun entry => accessGroupsFromMetadata entry.modelInfo := by
        rw [heq]
        exact List.mem_cons_self
      obtain ⟨entry, -, rfl⟩ := List.mem_map.mp hmem
      exact normalizeAccessGroups_named _
    · exact Finset.notMem_empty _

theorem Catalog.Named.set {catalog : Catalog} (h : catalog.Named) {key : String} (hkey : key ≠ "")
    {target : CallableTarget} (htarget : "" ∉ target.accessGroups) :
    Catalog.Named (Dict.set catalog key target) := by
  induction catalog with
  | nil =>
      intro entry hentry
      rw [List.mem_singleton.mp hentry]
      exact ⟨hkey, htarget⟩
  | cons head catalog ih =>
      intro entry hentry
      have htail : Catalog.Named catalog := fun e he => h e (List.mem_cons_of_mem _ he)
      simp only [Dict.set] at hentry
      split at hentry
      next hname =>
        rcases List.mem_cons.mp hentry with rfl | hmem
        · exact ⟨hname ▸ hkey, htarget⟩
        · exact htail entry hmem
      next =>
        rcases List.mem_cons.mp hentry with rfl | hmem
        · exact h _ List.mem_cons_self
        · exact ih htail entry hmem

theorem addRouteGroups_named {deploymentIds : List String} {groups : List RouteGroup}
    {catalog built : Catalog} (h : catalog.Named)
    (hbuilt : addRouteGroups deploymentIds catalog groups = some built) : built.Named := by
  induction groups generalizing catalog with
  | nil => exact Option.some.inj hbuilt ▸ h
  | cons group groups ih =>
      simp only [addRouteGroups] at hbuilt
      split at hbuilt
      next => exact ih h hbuilt
      next hgroup =>
        rw [not_or] at hgroup
        split at hbuilt
        · cases hbuilt
        · exact ih (h.set hgroup.1 (normalizeAccessGroups_named _)) hbuilt

/-- The targets of a catalog and their access groups all have a name. -/
theorem buildCallableTargetCatalog_named {registry : ModelRegistry} {groups : List RouteGroup}
    {catalog : Catalog} (h : buildCallableTargetCatalog registry groups = some catalog) :
    catalog.Named := by
  refine addRouteGroups_named ?_ h
  suffices ∀ start : Catalog, start.Named →
      Catalog.Named (registry.foldl (fun catalog (modelName, entries) =>
        let key := strip modelName
        if key = "" then catalog
        else catalog.set key ⟨key, .model, modelAccessGroups entries⟩) start) from
    this [] fun _ hentry => nomatch hentry
  clear h
  induction registry with
  | nil => exact fun _ hstart => hstart
  | cons entry registry ih =>
      intro start hstart
      rw [List.foldl_cons]
      apply ih
      by_cases hkey : strip entry.1 = ""
      · simpa [hkey] using hstart
      · simpa [hkey] using hstart.set hkey (modelAccessGroups_named _)

end CallableTargets
