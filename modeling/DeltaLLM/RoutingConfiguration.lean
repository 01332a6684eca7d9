import DeltaLLM.CallableTargets
import DeltaLLM.DeploymentRouting
import DeltaLLM.EmbeddingWorkUnits

/-! # From a configuration to deployments and route-group policies

What start-up and hot reload both build: the model registry of the database or the config file, the
route groups, the deployment registry and the policies of the groups. `none` is an exception.
-/
namespace RoutingConfiguration

open JsonValues PythonText Dictionaries CallableTargets
open DeploymentRouting (RoutingStrategy)
open EmbeddingWorkUnits (intOf)

/-! ## The configuration -/

structure RouterSettings where
  routingStrategy : RoutingStrategy
  numRetries : ℤ
  retryAfter : JsonFloat
  timeout : JsonFloat
  cooldownTime : ℤ
  allowedFails : ℤ
  enablePreCallChecks : Bool
  modelGroupAlias : Dict String String
  routeGroups : List RouteGroup

structure GuardrailConfig where
  guardrailName : String
  deltallmParams : JsonObject

structure DeltaLLMSettings where
  fallbacks : List (Dict String (List String))
  contextWindowFallbacks : List (Dict String (List String))
  contentPolicyFallbacks : List (Dict String (List String))
  guardrails : List GuardrailConfig

inductive SourceMode where
  | hybrid | dbOnly | configOnly
  deriving DecidableEq, Repr

structure GeneralSettings where
  modelDeploymentSource : SourceMode
  failoverEventHistorySize : ℕ

/-- A model deployment as the config file or the table lists it. -/
structure ModelDeployment where
  modelName : String
  namedCredentialId : Option String
  deltallmParams : JsonObject
  modelInfo : JsonObject
  deploymentId : Option String

structure AppConfig where
  modelList : List ModelDeployment
  routerSettings : RouterSettings
  deltallmSettings : DeltaLLMSettings
  generalSettings : GeneralSettings

structure NamedCredential where
  credentialId : String
  name : String
  connectionConfig : JsonObject

/-- The environment of a process: settings, the secret resolver, and what Python reads and
imports. -/
structure Environment where
  openaiApiKey : Option String
  openaiBaseUrl : Option String
  /-- `resolve_tree`, which may raise. -/
  resolveTree : JsonObject → Option JsonObject
  /-- `float(text)`, none where it raises. -/
  floatOfText : String → Option JsonFloat
  /-- `str(value)` of a value that is no text. -/
  textOfOther : JsonValue → String
  /-- Whether the guardrail class imports, accepts its arguments and is a `CustomGuardrail`. -/
  instantiates : String → String → JsonObject → Bool

/-- What the process is configured with: the config and what the tables hold. A repository may be
missing. -/
structure World where
  config : AppConfig
  records : Option (List ModelDeployment)
  groups : Option (List RouteGroup)
  credentials : Option (List NamedCredential)

/-! ## The model registry -/

/-- `ensure_unique_model_names`. -/
def uniqueModelNames (names : List String) : Bool := (names.map strip).Nodup

/-- The credential with this id among those that `list_by_ids` finds; it asks for stripped ids. -/
def credentialById (credentials : Option (List NamedCredential)) (id : String) :
    Option NamedCredential :=
  if id = "" ∨ strip id ≠ id then none
  else (credentials.getD []).find? (·.credentialId = id)

/-- `resolve_named_credential_record`. -/
def resolveNamedCredentialRecord (env : Environment) (credential : NamedCredential) :
    Option NamedCredential :=
  if credential.connectionConfig = [] then some credential
  else
    (env.resolveTree credential.connectionConfig).map fun connectionConfig =>
      { credential with connectionConfig }

/-- A setting fills a key that is missing or empty. -/
def setMissing (params : JsonObject) (key : String) (value : Option String) :
    JsonObject :=
  match value with
  | some text => if (params.get key).truthy ∨ text = "" then params else params.set key (.str text)
  | none => params

/-- `resolve_runtime_deltallm_params`. -/
def resolveRuntimeDeltallmParams (env : Environment) (params : JsonObject)
    (credential : Option NamedCredential) : JsonObject :=
  let resolved := ((credential.map (·.connectionConfig)).getD []).foldl
    (fun merged field => merged.set field.1 field.2) params
  setMissing (setMissing resolved "api_key" env.openaiApiKey) "api_base"
    env.openaiBaseUrl

/-- The registry entry of one deployment. -/
def registryEntry (env : Environment) (credentials : Option (List NamedCredential))
    (deploymentId : String) (credentialId : Option String) (entry : ModelDeployment) :
    Option RegistryEntry := do
  let credential ← match credentialById credentials (credentialId.getD "") with
    | some found => (resolveNamedCredentialRecord env found).map some
    | none => some none
  return {
    deploymentId := some deploymentId
    namedCredentialId := credentialId
    namedCredentialName := credential.map (·.name)
    deltallmParams := resolveRuntimeDeltallmParams env entry.deltallmParams credential
    modelInfo := entry.modelInfo }

/-- `_deployment_id`. -/
def deploymentIdOr (entry : ModelDeployment) (index : ℕ) : String :=
  let deploymentId := entry.deploymentId.getD ""
  if deploymentId = "" then entry.modelName ++ "-" ++ toString index else deploymentId

/-- `registry.setdefault(model_name, []).append(entry)`. -/
def addEntry (registry : ModelRegistry) (modelName : String) (entry : RegistryEntry) :
    ModelRegistry :=
  registry.set modelName ((registry.get? modelName).getD [] ++ [entry])

def buildModelRegistry (entryOf : ModelDeployment → ℕ → Option RegistryEntry)
    (entries : List ModelDeployment) : Option ModelRegistry :=
  if uniqueModelNames (entries.map (·.modelName)) then
    entries.zipIdx.foldlM (fun registry (entry, index) =>
      (entryOf entry index).map (addEntry registry entry.modelName)) []
  else none

def buildModelRegistryFromConfig (env : Environment) (credentials : Option (List NamedCredential)) :
    List ModelDeployment → Option ModelRegistry :=
  buildModelRegistry fun entry index =>
    registryEntry env credentials (deploymentIdOr entry index)
      ((entry.namedCredentialId.map strip).filter (· ≠ "")) entry

def buildModelRegistryFromRecords (env : Environment)
    (credentials : Option (List NamedCredential)) :
    List ModelDeployment → Option ModelRegistry :=
  buildModelRegistry fun record _ =>
    registryEntry env credentials (record.deploymentId.getD "") record.namedCredentialId record

/-- `load_model_registry`. -/
def loadModelRegistry (env : Environment) (w : World) : Option ModelRegistry :=
  let fromConfig := buildModelRegistryFromConfig env w.credentials w.config.modelList
  match w.config.generalSettings.modelDeploymentSource, w.records with
  | .configOnly, _ => fromConfig
  | _, some (record :: records) =>
      buildModelRegistryFromRecords env w.credentials (record :: records)
  | .hybrid, _ => fromConfig
  | .dbOnly, _ => none

/-! ## Route groups -/

/-- `load_route_groups` behind the runtime cache: the groups and what the cache holds then. -/
def loadRouteGroups (w : World) (cache : Option (List RouteGroup)) :
    List RouteGroup × Option (List RouteGroup) :=
  let fromConfig := w.config.routerSettings.routeGroups
  match w.groups, cache with
  | none, _ => (fromConfig, cache)
  | some _, some groups => (if groups.isEmpty then fromConfig else groups, cache)
  | some [], none => (fromConfig, none)
  | some groups, none => (groups, some groups)

/-- What a strategy name of the database stands for. -/
def strategyOfName : String → Option RoutingStrategy
  | "simple-shuffle" => some .simpleShuffle
  | "least-busy" => some .leastBusy
  | "latency-based-routing" => some .latencyBased
  | "cost-based-routing" => some .costBased
  | "usage-based-routing" => some .usageBased
  | "tag-based-routing" => some .tagBased
  | "priority-based-routing" => some .priorityBased
  | "weighted" => some .weighted
  | "rate-limit-aware" => some .rateLimitAware
  | _ => none

structure RouteGroupPolicy where
  strategy : Option RoutingStrategy
  policyVersion : Option ℤ
  timeoutSeconds : Option JsonFloat
  retryMaxAttempts : Option ℤ
  retryableErrorClasses : Option (Finset String)

/-- `float(value)`, none where it raises. -/
def floatOf (env : Environment) : JsonValue → Option JsonFloat
  | .bool b => some (.finite (if b then 1 else 0))
  | .int n => some (.finite n)
  | .float x => some x
  | .str text => env.floatOfText text
  | _ => none

def isPositive : JsonFloat → Bool
  | .finite q => 0 < q
  | .infinity negative => !negative
  | .nan => false

def thousandth : JsonFloat → JsonFloat
  | .finite q => .finite (q / 1000)
  | x => x

/-- `_extract_timeout_seconds`. -/
def extractTimeoutSeconds (env : Environment) (timeouts : Option JsonObject) : Option JsonFloat :=
  match timeouts with
  | none => none
  | some timeouts =>
      match timeouts.get "global_seconds", timeouts.get "global_ms" with
      | .null, .null => none
      | .null, globalMs => ((floatOf env globalMs).filter isPositive).map thousandth
      | globalSeconds, _ => (floatOf env globalSeconds).filter isPositive

/-- `_extract_retry_max_attempts`. -/
def extractRetryMaxAttempts (retry : Option JsonObject) : Option ℤ :=
  (retry.bind fun retry => intOf (retry.get "max_attempts")).filter (0 ≤ ·)

/-- `str(value)`. -/
def textOf (env : Environment) : JsonValue → String
  | .str text => text
  | value => env.textOfOther value

/-- `_extract_retryable_error_classes`. -/
def extractRetryableErrorClasses (env : Environment) (retry : Option JsonObject) :
    Option (Finset String) :=
  match (retry.getD []).get "retryable_error_classes" with
  | .list classes =>
      let normalized := (classes.map fun item => strip (textOf env item)).filter (· ≠ "")
      if normalized.isEmpty then none else some normalized.toFinset
  | _ => none

/-- `build_route_group_policies`. -/
def buildRouteGroupPolicies (env : Environment) (groups : List RouteGroup) :
    Dict String RouteGroupPolicy :=
  groups.foldl (fun policies group =>
    let key := strip group.key
    if key = "" ∨ ¬group.enabled then policies
    else policies.set key {
      strategy := group.strategy.bind strategyOfName
      policyVersion := group.policyVersion
      timeoutSeconds := extractTimeoutSeconds env group.timeouts
      retryMaxAttempts := extractRetryMaxAttempts group.retry
      retryableErrorClasses := extractRetryableErrorClasses env group.retry }) []

/-! ## The deployment registry -/

structure Deployment where
  deploymentId : String
  modelName : String
  deltallmParams : JsonObject
  modelInfo : JsonObject
  weight : ℤ
  priority : ℤ
  tags : List JsonValue
  inputCostPerToken : JsonFloat
  outputCostPerToken : JsonFloat
  rpmLimit : JsonValue
  tpmLimit : JsonValue
  imagePmLimit : Option ℤ
  audioSecondsPmLimit : Option ℤ
  charPmLimit : Option ℤ
  rerankUnitsPmLimit : Option ℤ

abbrev DeploymentRegistry := Dict String (List Deployment)

/-- `value or fallback`. -/
def orElse (value fallback : JsonValue) : JsonValue := if value.truthy then value else fallback

/-- `list(value)`, none where it raises. -/
def listOf : JsonValue → Option (List JsonValue)
  | .list items => some items
  | .str text => some (text.toList.map fun c => .str (String.singleton c))
  | .dict fields => some (fields.map fun field => .str field.1)
  | _ => none

/-- A limit of `model_info`, or nothing where it is absent; none where `int` raises. -/
def limitOf (modelInfo : JsonObject) (key : String) : Option (Option ℤ) :=
  match modelInfo.get key with
  | .null => some none
  | value => (intOf value).map some

/-- A limit of `model_info`, else the raw one of the parameters. -/
def limitOr (modelInfo params : JsonObject) (key fallback : String) : Option JsonValue :=
  match modelInfo.get key with
  | .null => some (params.get fallback)
  | value => (intOf value).map .int

/-- `_deployment_from_entry`. -/
def deploymentFromEntry (env : Environment) (modelName : String) (entry : RegistryEntry)
    (index : ℕ) : Option Deployment := do
  let params := entry.deltallmParams
  let modelInfo := entry.modelInfo
  let rawWeight := (modelInfo.get? "weight").getD ((params.get? "weight").getD (.int 1))
  let weight ← intOf (orElse rawWeight (.int 1))
  let priority ← intOf (orElse (modelInfo.get "priority") (.int 0))
  let tags ← listOf (orElse (modelInfo.get "tags") (.list []))
  let inputCost ← floatOf env (orElse (modelInfo.get "input_cost_per_token") (.int 0))
  let outputCost ← floatOf env (orElse (modelInfo.get "output_cost_per_token") (.int 0))
  let rpmLimit ← limitOr modelInfo params "rpm_limit" "rpm"
  let tpmLimit ← limitOr modelInfo params "tpm_limit" "tpm"
  let imagePmLimit ← limitOf modelInfo "image_pm_limit"
  let audioSecondsPmLimit ← limitOf modelInfo "audio_seconds_pm_limit"
  let charPmLimit ← limitOf modelInfo "char_pm_limit"
  let rerankUnitsPmLimit ← limitOf modelInfo "rerank_units_pm_limit"
  return {
    deploymentId := entry.idOr modelName index
    modelName
    deltallmParams := params
    modelInfo
    weight, priority, tags
    inputCostPerToken := inputCost
    outputCostPerToken := outputCost
    rpmLimit, tpmLimit, imagePmLimit, audioSecondsPmLimit, charPmLimit, rerankUnitsPmLimit }

/-- The deployments of one model. -/
def modelDeployments (env : Environment) (modelName : String) (entries : List RegistryEntry) :
    Option (List Deployment) :=
  entries.zipIdx.mapM fun (entry, index) => deploymentFromEntry env modelName entry index

/-- A group member's deployment with the member's weight and priority. -/
def memberDeployment (byId : Dict String Deployment) (member : RouteGroupMember) :
    Option (Option Deployment) :=
  if ¬member.enabled ∨ strip member.deploymentId = "" then some none
  else
    match byId.get? (strip member.deploymentId) with
    | none => some none
    | some base => do
        let weight ← match member.weight with
          | some value => intOf value
          | none => some base.weight
        let priority ← match member.priority with
          | some value => intOf value
          | none => some base.priority
        return some { base with weight, priority }

/-- `build_deployment_registry`: the models, then the groups that have a deployment. -/
def buildDeploymentRegistry (env : Environment) (registry : ModelRegistry)
    (groups : List RouteGroup) : Option DeploymentRegistry := do
  let models ← registry.mapM fun (modelName, entries) =>
    (modelDeployments env modelName entries).map (modelName, ·)
  let byId : Dict String Deployment := (models.flatMap (·.2)).foldl
    (fun byId deployment => Dict.set byId deployment.deploymentId deployment) []
  groups.foldlM (fun registry group => do
    let groupKey := strip group.key
    if groupKey = "" ∨ ¬group.enabled then return registry
    else
      let grouped ← group.members.mapM (memberDeployment byId)
      match grouped.reduceOption with
      | [] => return registry
      | deployments => return registry.set groupKey deployments) models

end RoutingConfiguration
