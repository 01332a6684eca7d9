import DeltaLLM.GuardrailRegistry

/-! # Hot reload against a cold start

Start-up builds the router, the failover manager and the guardrails from a configuration; a hot
reload changes those of a running process. Both read the configuration through the same functions,
and an exception leaves a reload where it stands.
-/
namespace HotReload

open JsonValues PythonText Dictionaries CallableTargets RoutingConfiguration GuardrailRegistry
open DeploymentRouting (RoutingStrategy)

structure RouterConfig where
  numRetries : ℤ
  retryAfter : JsonFloat
  timeout : JsonFloat
  cooldownTime : ℤ
  allowedFails : ℤ
  enablePreCallChecks : Bool
  modelGroupAlias : Dict String String
  routeGroupPolicies : Dict String RouteGroupPolicy

structure FallbackConfig where
  numRetries : ℤ
  retryAfter : JsonFloat
  timeout : JsonFloat
  fallbacks : Dict String (List String)
  contextWindowFallbacks : Dict String (List String)
  contentPolicyFallbacks : Dict String (List String)
  eventHistorySize : ℕ

/-- What requests are served with. The router, the failover manager and the health checkers hold
one deployment registry. -/
structure Runtime where
  modelRegistry : ModelRegistry
  routeGroups : List RouteGroup
  catalog : Catalog
  deploymentRegistry : DeploymentRegistry
  strategy : RoutingStrategy
  strategyImpl : RoutingStrategy
  routerConfig : RouterConfig
  cooldownTime : ℤ
  allowedFails : ℤ
  failover : FallbackConfig
  guardrails : Registry

/-- `_normalize_fallbacks`. -/
def normalizeFallbacks (items : List (Dict String (List String))) : Dict String (List String) :=
  items.foldl Dict.update []

/-- The router's config, as start-up builds it and as `_build_router_config` does. -/
def buildRouterConfig (env : Environment) (settings : RouterSettings)
    (routeGroups : List RouteGroup) : RouterConfig where
  numRetries := settings.numRetries
  retryAfter := settings.retryAfter
  timeout := settings.timeout
  cooldownTime := settings.cooldownTime
  allowedFails := settings.allowedFails
  enablePreCallChecks := settings.enablePreCallChecks
  modelGroupAlias := settings.modelGroupAlias
  routeGroupPolicies := buildRouteGroupPolicies env routeGroups

/-- `load_from_config` where the list is not empty. -/
def loadGuardrails (env : Environment) (registry : Registry) (items : List GuardrailConfig) :
    Registry × Bool :=
  if items.isEmpty then (registry, true) else registry.loadFromConfig env items

/-- `init_routing_runtime` and `init_runtime_services`; `none` is a start that fails. -/
def coldStart (env : Environment) (w : World) : Option Runtime := do
  let modelRegistry ← loadModelRegistry env w
  let routeGroups := (loadRouteGroups w none).1
  let catalog ← buildCallableTargetCatalog modelRegistry routeGroups
  let deploymentRegistry ← buildDeploymentRegistry env modelRegistry routeGroups
  let settings := w.config.routerSettings
  let fallbacks := w.config.deltallmSettings
  let guardrails := loadGuardrails env .empty fallbacks.guardrails
  if guardrails.2 then
    return {
      modelRegistry, routeGroups, catalog, deploymentRegistry
      strategy := settings.routingStrategy
      strategyImpl := settings.routingStrategy
      routerConfig := buildRouterConfig env settings routeGroups
      cooldownTime := settings.cooldownTime
      allowedFails := settings.allowedFails
      failover :=
        { numRetries := settings.numRetries
          retryAfter := settings.retryAfter
          timeout := settings.timeout
          fallbacks := normalizeFallbacks fallbacks.fallbacks
          contextWindowFallbacks := normalizeFallbacks fallbacks.contextWindowFallbacks
          contentPolicyFallbacks := normalizeFallbacks fallbacks.contentPolicyFallbacks
          eventHistorySize := w.config.generalSettings.failoverEventHistorySize }
      guardrails := guardrails.1 }
  else none

/-- `_apply_runtime_config` on a running process; the cache is that of the route groups. -/
def applyRuntimeConfig (env : Environment) (w : World) (cache : Option (List RouteGroup))
    (rt : Runtime) : Runtime × Option (List RouteGroup) :=
  match loadModelRegistry env w with
  | none => (rt, cache)
  | some modelRegistry =>
      let (routeGroups, cache) := loadRouteGroups w cache
      let rt := { rt with modelRegistry, routeGroups }
      match buildCallableTargetCatalog modelRegistry routeGroups with
      | none => (rt, cache)
      | some catalog =>
          let rt := { rt with catalog }
          match buildDeploymentRegistry env modelRegistry routeGroups with
          | none => (rt, cache)
          | some deploymentRegistry =>
              let settings := w.config.routerSettings
              ({ rt with
                deploymentRegistry
                strategy := settings.routingStrategy
                strategyImpl := settings.routingStrategy
                routerConfig := buildRouterConfig env settings routeGroups
                cooldownTime := settings.cooldownTime
                allowedFails := settings.allowedFails
                failover :=
                  { rt.failover with
                    numRetries := settings.numRetries
                    retryAfter := settings.retryAfter
                    timeout := settings.timeout
                    fallbacks := normalizeFallbacks w.config.deltallmSettings.fallbacks }
                guardrails :=
                  (loadGuardrails env rt.guardrails w.config.deltallmSettings.guardrails).1 },
                cache)

/-! ## Changes -/

/-- The keys of a config. -/
def configKeys : List String :=
  ["model_list", "router_settings", "deltallm_settings", "general_settings"]

/-- The keys that `_has_runtime_changes` looks for. -/
def interestingKeys : List String :=
  ["model_list", "router_settings", "deltallm_settings", "litellm_settings", "general_settings"]

/-- The modified keys of a notification; there is none without a difference. -/
structure ModifiedKeys where
  keys : List String
  nonempty : keys ≠ []
  known : ∀ key ∈ keys, key ∈ configKeys

def hasRuntimeChanges (touched : List String) : Bool := touched.any (· ∈ interestingKeys)

theorem ModifiedKeys.hasRuntimeChanges (modified : ModifiedKeys) :
    hasRuntimeChanges modified.keys = true := by
  obtain ⟨key, hkey⟩ := List.exists_mem_of_ne_nil modified.keys modified.nonempty
  have hconfig := modified.known key hkey
  refine List.any_eq_true.mpr ⟨key, hkey, ?_⟩
  simp only [configKeys, interestingKeys, List.mem_cons, List.not_mem_nil, or_false] at hconfig ⊢
  rcases hconfig with rfl | rfl | rfl | rfl <;> simp

inductive Change where
  /-- A new config, of `update_config` or of a reload of the stored one. -/
  | config (newConfig : AppConfig) (modified : ModifiedKeys)
  /-- Another process has changed the tables and sent `model_updated`. -/
  | modelUpdated (records : List ModelDeployment) (groups : List RouteGroup)
      (credentials : List NamedCredential) (modified : ModifiedKeys)
  /-- `add_model`, `update_model` or `remove_model` has written the table of deployments. -/
  | models (records : List ModelDeployment)
  /-- A route group was written; the endpoint drops the cache before `reload_runtime`. -/
  | routeGroups (groups : List RouteGroup)
  /-- A credential in use was written before `reload_runtime`. -/
  | credentials (stored : List NamedCredential)
  /-- The cached route groups run out. -/
  | cacheLapses

/-- The configuration after a change; a table exists only where there is a repository. -/
def Change.world (w : World) : Change → World
  | .config newConfig _ => { w with config := newConfig }
  | .modelUpdated records groups stored _ =>
      { w with
        records := w.records.map fun _ => records
        groups := w.groups.map fun _ => groups
        credentials := w.credentials.map fun _ => stored }
  | .models records => { w with records := w.records.map fun _ => records }
  | .routeGroups groups => { w with groups := w.groups.map fun _ => groups }
  | .credentials stored => { w with credentials := w.credentials.map fun _ => stored }
  | .cacheLapses => w

structure Process where
  world : World
  cache : Option (List RouteGroup)
  runtime : Runtime

/-- `_apply_runtime_config` with the configuration of the process. -/
def Process.apply (env : Environment) (p : Process) : Process :=
  let applied := applyRuntimeConfig env p.world p.cache p.runtime
  { p with runtime := applied.1, cache := applied.2 }

def Process.next (env : Environment) (p : Process) (change : Change) : Process :=
  let changed := { p with world := change.world p.world }
  match change with
  | .config _ modified | .modelUpdated _ _ _ modified =>
      if HotReload.hasRuntimeChanges modified.keys then { changed with cache := none }.apply env
      else changed
  | .models _ | .routeGroups _ => { changed with cache := none }.apply env
  | .credentials _ => changed.apply env
  | .cacheLapses => { p with cache := none }

def Process.run (env : Environment) (p : Process) (changes : List Change) : Process :=
  changes.foldl (Process.next env) p

/-- The configuration after a sequence of changes. -/
def finalWorld (w : World) (changes : List Change) : World := changes.foldl Change.world w

/-- What an apply of this configuration registers: nothing where an earlier step raises. -/
def registeredBy (env : Environment) (w : World) : List Guardrail :=
  let routeGroups := (loadRouteGroups w none).1
  match loadModelRegistry env w with
  | none => []
  | some modelRegistry =>
      if (buildCallableTargetCatalog modelRegistry routeGroups).isSome ∧
          (buildDeploymentRegistry env modelRegistry routeGroups).isSome then
        loadable env w.config.deltallmSettings.guardrails
      else []

/-- What a change registers. -/
def Change.registered (env : Environment) (w : World) : Change → List Guardrail
  | .cacheLapses => []
  | change => registeredBy env (change.world w)

/-- What the changes register, one after the other. -/
def registeredAlong (env : Environment) : World → List Change → List Guardrail
  | _, [] => []
  | w, change :: changes =>
      change.registered env w ++ registeredAlong env (change.world w) changes

variable {env : Environment} {w w₀ : World} {p : Process}

/-! ## What a reload refreshes -/

/-- The settings that a reload writes, apart from the guardrails. -/
structure Refreshed (rt cold : Runtime) : Prop where
  deploymentRegistry : rt.deploymentRegistry = cold.deploymentRegistry
  strategy : rt.strategy = cold.strategy ∧ rt.strategyImpl = cold.strategyImpl
  routerConfig : rt.routerConfig = cold.routerConfig
  cooldown : rt.cooldownTime = cold.cooldownTime ∧ rt.allowedFails = cold.allowedFails
  retries : rt.failover.numRetries = cold.failover.numRetries ∧
    rt.failover.retryAfter = cold.failover.retryAfter ∧
      rt.failover.timeout = cold.failover.timeout
  fallbacks : rt.failover.fallbacks = cold.failover.fallbacks

theorem Refreshed.refl (rt : Runtime) : Refreshed rt rt :=
  ⟨rfl, ⟨rfl, rfl⟩, rfl, ⟨rfl, rfl⟩, ⟨rfl, rfl, rfl⟩, rfl⟩

/-- The cached groups are those of the table. -/
def CacheCurrent (w : World) (cache : Option (List RouteGroup)) : Prop :=
  ∀ groups, cache = some groups → w.groups = some groups

theorem cacheCurrent_none : CacheCurrent w none := by
  intro groups hcached
  cases hcached

theorem loadRouteGroups_fst {cache : Option (List RouteGroup)} (h : CacheCurrent w cache) :
    (loadRouteGroups w cache).1 = (loadRouteGroups w none).1 := by
  cases cache with
  | none => rfl
  | some groups =>
      have hgroups := h groups rfl
      simp only [loadRouteGroups, hgroups]
      cases groups <;> rfl

theorem loadRouteGroups_snd {cache : Option (List RouteGroup)} (h : CacheCurrent w cache) :
    CacheCurrent w (loadRouteGroups w cache).2 := by
  cases cache with
  | some groups =>
      have hgroups := h groups rfl
      simpa only [loadRouteGroups, hgroups] using h
  | none =>
      intro cached hcached
      cases hgroups : w.groups with
      | none => simp [loadRouteGroups, hgroups] at hcached
      | some groups =>
          cases groups with
          | nil => simp [loadRouteGroups, hgroups] at hcached
          | cons group groups => simpa [loadRouteGroups, hgroups] using hcached

theorem loadGuardrails_fst (r : Registry) (items : List GuardrailConfig) :
    (loadGuardrails env r items).1 = (loadable env items).foldl Registry.register r := by
  unfold loadGuardrails
  cases items with
  | nil => rfl
  | cons item items => exact loadFromConfig_fst (item :: items)

variable (env) in
/-- What an apply does to the cache, the guardrails and the two maps of special fallbacks. -/
theorem apply_frame {cache : Option (List RouteGroup)} (h : CacheCurrent w cache) (rt : Runtime) :
    CacheCurrent w (applyRuntimeConfig env w cache rt).2 ∧
      (applyRuntimeConfig env w cache rt).1.guardrails =
        (registeredBy env w).foldl Registry.register rt.guardrails ∧
      (applyRuntimeConfig env w cache rt).1.failover.contextWindowFallbacks =
        rt.failover.contextWindowFallbacks ∧
      (applyRuntimeConfig env w cache rt).1.failover.contentPolicyFallbacks =
        rt.failover.contentPolicyFallbacks := by
  unfold applyRuntimeConfig registeredBy
  rw [← loadRouteGroups_fst h]
  cases loadModelRegistry env w with
  | none => exact ⟨h, rfl, rfl, rfl⟩
  | some modelRegistry =>
      have hcache := loadRouteGroups_snd h
      generalize loadRouteGroups w cache = loaded at hcache ⊢
      obtain ⟨routeGroups, cache⟩ := loaded
      simp only
      cases buildCallableTargetCatalog modelRegistry routeGroups with
      | none => exact ⟨hcache, rfl, rfl, rfl⟩
      | some catalog =>
          cases buildDeploymentRegistry env modelRegistry routeGroups with
          | none => exact ⟨hcache, rfl, rfl, rfl⟩
          | some deploymentRegistry => exact ⟨hcache, loadGuardrails_fst .., rfl, rfl⟩

/-- An apply of a configuration that a start accepts comes to its end. -/
theorem apply_refreshed {cache : Option (List RouteGroup)} (h : CacheCurrent w cache)
    {cold : Runtime} (hcold : coldStart env w = some cold) (rt : Runtime) :
    Refreshed (applyRuntimeConfig env w cache rt).1 cold := by
  have hgroups := loadRouteGroups_fst h
  unfold applyRuntimeConfig
  simp only [coldStart, Option.bind_eq_bind, Option.bind_eq_some_iff] at hcold
  obtain ⟨modelRegistry, hmodels, catalog, hcatalog, deploymentRegistry, hdeployments, hcold⟩ :=
    hcold
  split at hcold
  next hloaded =>
    obtain rfl := Option.some.inj hcold
    rw [← hgroups] at hcatalog hdeployments
    simp only [hmodels, hcatalog, hdeployments, ← hgroups]
    exact ⟨rfl, ⟨rfl, rfl⟩, rfl, ⟨rfl, rfl⟩, ⟨rfl, rfl, rfl⟩, rfl⟩
  next => cases hcold

variable (env) in
/-- Every change but the lapse of the cache ends in an apply. -/
theorem next_eq_apply (hcache : CacheCurrent p.world p.cache) {change : Change}
    (h : change ≠ .cacheLapses) :
    ∃ cache, CacheCurrent (change.world p.world) cache ∧
      p.next env change = Process.apply env ⟨change.world p.world, cache, p.runtime⟩ := by
  cases change with
  | config newConfig modified =>
      exact ⟨none, cacheCurrent_none,
        by simp only [Process.next, modified.hasRuntimeChanges, if_pos]⟩
  | modelUpdated records groups stored modified =>
      exact ⟨none, cacheCurrent_none,
        by simp only [Process.next, modified.hasRuntimeChanges, if_pos]⟩
  | models records => exact ⟨none, cacheCurrent_none, rfl⟩
  | routeGroups groups => exact ⟨none, cacheCurrent_none, rfl⟩
  | credentials stored => exact ⟨p.cache, hcache, rfl⟩
  | cacheLapses => exact absurd rfl h

/-- How a process stands that was started with `w₀` and has registered `registered` since. -/
structure Current (env : Environment) (w₀ : World) (registered : List Guardrail) (p : Process) :
    Prop where
  cache : CacheCurrent p.world p.cache
  refreshed : ∀ cold, coldStart env p.world = some cold → Refreshed p.runtime cold
  guardrails : p.runtime.guardrails = registered.foldl Registry.register .empty
  contextWindow : p.runtime.failover.contextWindowFallbacks =
    normalizeFallbacks w₀.config.deltallmSettings.contextWindowFallbacks
  contentPolicy : p.runtime.failover.contentPolicyFallbacks =
    normalizeFallbacks w₀.config.deltallmSettings.contentPolicyFallbacks

theorem next_current {registered : List Guardrail} (h : Current env w₀ registered p)
    (change : Change) :
    Current env w₀ (registered ++ change.registered env p.world) (p.next env change) ∧
      (p.next env change).world = change.world p.world := by
  by_cases hlapse : change = .cacheLapses
  · subst hlapse
    refine ⟨⟨cacheCurrent_none, h.refreshed, ?_, h.contextWindow,
      h.contentPolicy⟩, rfl⟩
    rw [Change.registered, List.append_nil]
    exact h.guardrails
  · obtain ⟨cache, hcache, hnext⟩ := next_eq_apply env h.cache hlapse
    have hregistered : change.registered env p.world = registeredBy env (change.world p.world) := by
      cases change <;> first | rfl | exact absurd rfl hlapse
    obtain ⟨hcached, hguardrails, hcontext, hcontent⟩ :=
      apply_frame env hcache p.runtime
    rw [hnext, hregistered]
    refine ⟨⟨hcached, fun cold hcold => apply_refreshed hcache hcold p.runtime, ?_,
      hcontext.trans h.contextWindow, hcontent.trans h.contentPolicy⟩, rfl⟩
    rw [List.foldl_append, ← h.guardrails]
    exact hguardrails

theorem run_current {registered : List Guardrail} (h : Current env w₀ registered p)
    (changes : List Change) :
    Current env w₀ (registered ++ registeredAlong env p.world changes) (p.run env changes) ∧
      (p.run env changes).world = finalWorld p.world changes := by
  induction changes generalizing p registered with
  | nil =>
      refine ⟨?_, rfl⟩
      rw [registeredAlong, List.append_nil]
      exact h
  | cons change changes ih =>
      obtain ⟨hnext, hworld⟩ := next_current h change
      have hrun := ih hnext
      rw [hworld, List.append_assoc] at hrun
      exact hrun

/-- A start that succeeds has loaded all guardrails of its config. -/
theorem coldStart_guardrails {cold : Runtime} (h : coldStart env w = some cold) :
    cold.guardrails = (registeredBy env w).foldl Registry.register .empty ∧
      (registeredBy env w).map (·.name) =
        w.config.deltallmSettings.guardrails.map (·.guardrailName) := by
  simp only [coldStart, Option.bind_eq_bind, Option.bind_eq_some_iff] at h
  obtain ⟨modelRegistry, hmodels, catalog, hcatalog, deploymentRegistry, hdeployments, h⟩ := h
  have hregistered : registeredBy env w = loadable env w.config.deltallmSettings.guardrails := by
    simp [registeredBy, hmodels, hcatalog, hdeployments]
  rw [hregistered]
  split at h
  next hloaded =>
    obtain rfl := Option.some.inj h
    refine ⟨loadGuardrails_fst .., ?_⟩
    unfold loadGuardrails at hloaded
    cases hitems : w.config.deltallmSettings.guardrails with
    | nil => rfl
    | cons item items =>
        rw [hitems] at hloaded
        exact loadable_names hloaded
  next => cases h

theorem coldStart_fallbacks {cold : Runtime} (h : coldStart env w = some cold) :
    cold.failover.contextWindowFallbacks =
        normalizeFallbacks w.config.deltallmSettings.contextWindowFallbacks ∧
      cold.failover.contentPolicyFallbacks =
        normalizeFallbacks w.config.deltallmSettings.contentPolicyFallbacks := by
  simp only [coldStart, Option.bind_eq_bind, Option.bind_eq_some_iff] at h
  obtain ⟨modelRegistry, -, catalog, -, deploymentRegistry, -, h⟩ := h
  split at h
  next => exact (Option.some.inj h) ▸ ⟨rfl, rfl⟩
  next => cases h

variable (env w) in
/-- What the last configuration registers comes last. -/
theorem registered_suffix (earlier : List Guardrail) (changes : List Change) :
    ∃ before, earlier ++ registeredBy env w ++ registeredAlong env w changes =
      before ++ registeredBy env (finalWorld w changes) := by
  induction changes generalizing w earlier with
  | nil => exact ⟨earlier, by simp [registeredAlong, finalWorld]⟩
  | cons change changes ih =>
      by_cases hlapse : change = .cacheLapses
      · subst hlapse
        exact ih w earlier
      · have hregistered : change.registered env w = registeredBy env (change.world w) := by
          cases change <;> first | rfl | exact absurd rfl hlapse
        obtain ⟨before, hbefore⟩ := ih (change.world w) (earlier ++ registeredBy env w)
        refine ⟨before, ?_⟩
        rw [registeredAlong, hregistered, ← List.append_assoc]
        exact hbefore

/-! ## Hot reload and cold start -/

/-- The process that a start with this configuration leaves. -/
def started (w : World) (runtime : Runtime) : Process :=
  ⟨w, (loadRouteGroups w none).2, runtime⟩

/-- The settings of the router and the failover manager and the active guardrails are the same. -/
structure SameConfiguration (rt cold : Runtime) : Prop where
  refreshed : Refreshed rt cold
  contextWindow : Dict.Same rt.failover.contextWindowFallbacks cold.failover.contextWindowFallbacks
  contentPolicy : Dict.Same rt.failover.contentPolicyFallbacks cold.failover.contentPolicyFallbacks
  guardrails : SameActive rt.guardrails cold.guardrails

/-- Both configs have the same context-window and content-policy fallbacks. -/
def SpecialFallbacksKept (settings settings' : DeltaLLMSettings) : Prop :=
  Dict.Same (normalizeFallbacks settings.contextWindowFallbacks)
      (normalizeFallbacks settings'.contextWindowFallbacks) ∧
    Dict.Same (normalizeFallbacks settings.contentPolicyFallbacks)
      (normalizeFallbacks settings'.contentPolicyFallbacks)

/-- Every guardrail that was ever loaded is still listed at the end. -/
def NoGuardrailDropped (env : Environment) (w : World) (changes : List Change) : Prop :=
  ∀ guardrail ∈ registeredBy env w ++ registeredAlong env w changes,
    guardrail.name ∈ (finalWorld w changes).config.deltallmSettings.guardrails.map (·.guardrailName)

namespace Presidio

/-- Every guardrail class can be loaded; there are no credentials and no texts to convert. -/
def environment : Environment where
  openaiApiKey := none
  openaiBaseUrl := none
  resolveTree := some
  floatOfText := fun _ => none
  textOfOther := fun _ => ""
  instantiates := fun _ _ _ => true

def routerSettings : RouterSettings where
  routingStrategy := .simpleShuffle
  numRetries := 0
  retryAfter := .finite 0
  timeout := .finite 600
  cooldownTime := 60
  allowedFails := 2
  enablePreCallChecks := false
  modelGroupAlias := []
  routeGroups := []

def guardrail : GuardrailConfig where
  guardrailName := "presidio-pii"
  deltallmParams := [("guardrail", .str "deltallm.guardrails.presidio.PresidioGuardrail")]

/-- One guardrail and no fallbacks, with everything read from the config. -/
def config : AppConfig where
  modelList := []
  routerSettings := routerSettings
  deltallmSettings := ⟨[], [], [], [guardrail]⟩
  generalSettings := ⟨.configOnly, 1000⟩

/-- The guardrail is dropped and a context-window fallback added. -/
def changedConfig : AppConfig :=
  { config with deltallmSettings := ⟨[], [[("gpt-4", ["gpt-4-32k"])]], [], []⟩ }

def retryingConfig : AppConfig :=
  { config with routerSettings := { routerSettings with numRetries := 2 } }

def world : World := ⟨config, none, none, none⟩

def settingsModified : ModifiedKeys where
  keys := ["deltallm_settings", "router_settings"]
  nonempty := List.cons_ne_nil _ _
  known := by decide

def dropped : List Change := [.config changedConfig settingsModified]

def retrying : List Change := [.config retryingConfig settingsModified]

end Presidio

open Presidio in
/-- The dropped guardrail stays active and the new fallback is not used. -/
theorem dropped_guardrail_stays_active :
    ∃ rt cold, coldStart environment world = some rt ∧
      coldStart environment (finalWorld world dropped) = some cold ∧
        ((started world rt).run environment dropped).runtime.guardrails.guardrails.map Prod.fst =
          ["presidio-pii"] ∧
        cold.guardrails.guardrails.map Prod.fst = [] ∧
        ¬SameConfiguration ((started world rt).run environment dropped).runtime cold := by
  refine ⟨_, _, rfl, rfl, rfl, rfl, fun h => ?_⟩
  have hcontext := h.contextWindow "gpt-4"
  revert hcontext
  decide +kernel

/-- After any changes the process is configured like a fresh start with the last configuration, if
and only if the two special fallback maps are those it was started with and no guardrail was
dropped. -/
theorem hot_reload_eq_cold_start_iff {rt cold : Runtime} (changes : List Change)
    (hstart : coldStart env w = some rt)
    (hcold : coldStart env (finalWorld w changes) = some cold) :
    SameConfiguration ((started w rt).run env changes).runtime cold ↔
      SpecialFallbacksKept w.config.deltallmSettings
          (finalWorld w changes).config.deltallmSettings ∧
        NoGuardrailDropped env w changes := by
  have hstarted : Current env w (registeredBy env w) (started w rt) := by
    refine ⟨loadRouteGroups_snd cacheCurrent_none, ?_, (coldStart_guardrails hstart).1,
      (coldStart_fallbacks hstart).1, (coldStart_fallbacks hstart).2⟩
    intro other hother
    obtain rfl := Option.some.inj (hstart.symm.trans hother)
    exact .refl rt
  obtain ⟨hrun, hworld⟩ := run_current hstarted changes
  obtain ⟨hguardrails, hnames⟩ := coldStart_guardrails hcold
  obtain ⟨before, hbefore⟩ := registered_suffix env w [] changes
  rw [List.nil_append] at hbefore
  have hactive : SameActive ((started w rt).run env changes).runtime.guardrails cold.guardrails ↔
      NoGuardrailDropped env w changes := by
    have hiff := sameActive_registered_iff before (registeredBy env (finalWorld w changes))
    rw [hrun.guardrails, hguardrails]
    change SameActive ((registeredBy env w ++ registeredAlong env w changes).foldl _ _) _ ↔ _
    rw [hbefore, hiff]
    unfold NoGuardrailDropped
    rw [hbefore, ← hnames]
    constructor
    · intro h guardrail hmem
      rcases List.mem_append.mp hmem with hearlier | hlater
      · exact h guardrail hearlier
      · exact List.mem_map_of_mem hlater
    · exact fun h guardrail hmem => h guardrail (List.mem_append_left _ hmem)
  rw [← hactive]
  constructor
  · intro h
    have hcontext := h.contextWindow
    have hcontent := h.contentPolicy
    rw [hrun.contextWindow, (coldStart_fallbacks hcold).1] at hcontext
    rw [hrun.contentPolicy, (coldStart_fallbacks hcold).2] at hcontent
    exact ⟨⟨hcontext, hcontent⟩, h.guardrails⟩
  · rintro ⟨⟨hcontext, hcontent⟩, hguardrails'⟩
    constructor
    · exact hrun.refreshed cold (hworld ▸ hcold)
    · rw [hrun.contextWindow, (coldStart_fallbacks hcold).1]
      exact hcontext
    · rw [hrun.contentPolicy, (coldStart_fallbacks hcold).2]
      exact hcontent
    · exact hguardrails'

open Presidio in
theorem hot_reload_eq_cold_start_iff_retrying :
    ∃ rt cold, coldStart environment world = some rt ∧
      coldStart environment (finalWorld world retrying) = some cold ∧
        SameConfiguration ((started world rt).run environment retrying).runtime cold :=
  ⟨_, _, rfl, rfl, (hot_reload_eq_cold_start_iff retrying rfl rfl).mpr
    ⟨⟨fun _ => rfl, fun _ => rfl⟩, by unfold NoGuardrailDropped; decide +kernel⟩⟩

end HotReload
