import DeltaLLM.PromptReferences
import DeltaLLM.RuntimeScopes
import DeltaLLM.TableStatements

/-! # Which prompt a request gets

A request without a prompt of its own gets the prompt bound to one of its scopes, or the default of
its route group. The registry's tables are read here as they are; caches only repeat what they
answered.
-/
namespace PromptResolution

open JsonValues PythonText TableStatements PromptReferences
open RuntimeScopes (RuntimeScopeContext)
open StreamingCache (Python)

/-! ## Scope types -/

/-- `LEGACY_TO_CANONICAL_SCOPE`. -/
def legacyToCanonicalScope : String → Option String
  | "key" => some "api_key"
  | "api_key" => some "api_key"
  | "team" => some "team"
  | "org" => some "organization"
  | "organization" => some "organization"
  | "user" => some "user"
  | "group" => some "group"
  | _ => none

def normalizeScopeType (scopeType : String) : String :=
  let normalized := lower (strip scopeType)
  (legacyToCanonicalScope normalized).getD normalized

def scopeLookupCandidates (scopeType : String) : List String :=
  match normalizeScopeType scopeType with
  | "api_key" => ["api_key", "key"]
  | "organization" => ["organization", "org"]
  | canonical => [canonical]

/-! ## The tables -/

structure PromptTemplateRow where
  promptTemplateId : String
  templateKey : String

structure PromptVersionRow where
  promptVersionId : String
  promptTemplateId : String
  version : ℤ
  status : String
  templateBody : JsonObject

structure PromptLabelRow where
  promptTemplateId : String
  label : String
  promptVersionId : String

structure PromptBindingRow where
  promptBindingId : String
  scopeType : String
  scopeId : String
  promptTemplateId : String
  label : String
  priority : ℤ
  enabled : Bool
  createdAt : ℕ

structure RouteGroupRow where
  groupKey : String
  metadata : Option JsonObject

/-- The route groups are missing without their repository. -/
structure Registry where
  templates : List PromptTemplateRow
  versions : List PromptVersionRow
  labels : List PromptLabelRow
  bindings : List PromptBindingRow
  routeGroups : Option (List RouteGroupRow)

structure PromptResolvedRecord where
  promptTemplateId : String
  templateKey : String
  promptVersionId : String
  version : ℤ
  status : String
  label : Option String
  templateBody : JsonObject

structure PromptBindingRecord where
  promptBindingId : String
  scopeType : String
  scopeId : String
  templateKey : String
  label : String
  priority : ℤ

structure GroupDefaultPrompt where
  templateKey : String
  label : Option String

namespace Registry

variable (registry : Registry)

def resolvedRecord (template : PromptTemplateRow) (version : PromptVersionRow)
    (label : Option String) : PromptResolvedRecord where
  promptTemplateId := template.promptTemplateId
  templateKey := template.templateKey
  promptVersionId := version.promptVersionId
  version := version.version
  status := version.status
  label := label
  templateBody := version.templateBody

/-- The SELECT by version. -/
def promptOfVersion (templateKey : String) (version : ℤ) : Option PromptResolvedRecord :=
  (registry.templates.filter (·.templateKey = templateKey)).findSome? fun template =>
    (registry.versions.find? fun row =>
        row.promptTemplateId = template.promptTemplateId ∧ row.version = version).map fun row =>
      resolvedRecord template row none

/-- The SELECT by label. -/
def promptOfLabel (templateKey label : String) : Option PromptResolvedRecord :=
  (registry.templates.filter (·.templateKey = templateKey)).findSome? fun template =>
    (registry.labels.filter fun row =>
        row.promptTemplateId = template.promptTemplateId ∧ row.label = label).findSome? fun row =>
      (registry.versions.find? (·.promptVersionId = row.promptVersionId)).map fun version =>
        resolvedRecord template version (some row.label)

/-- `resolve_prompt`. -/
def resolvePrompt (templateKey : String) (label : Option String) (version : Option ℤ) :
    Option PromptResolvedRecord :=
  match version with
  | some version => registry.promptOfVersion templateKey version
  | none => registry.promptOfLabel templateKey (labelOrProduction label)

def templateOf (binding : PromptBindingRow) : Option PromptTemplateRow :=
  registry.templates.find? (·.promptTemplateId = binding.promptTemplateId)

/-- An enabled binding of the scope whose template is there. -/
def Bound (scopeType scopeId : String) (binding : PromptBindingRow) : Prop :=
  binding.scopeType = scopeType ∧ binding.scopeId = scopeId ∧ binding.enabled = true ∧
    (registry.templateOf binding).isSome = true

instance (scopeType scopeId : String) : DecidablePred (registry.Bound scopeType scopeId) :=
  fun _ => inferInstanceAs (Decidable (_ ∧ _ ∧ _ ∧ _))

/-- `ORDER BY priority ASC, created_at ASC`. -/
def Before (a b : PromptBindingRow) : Prop :=
  a.priority < b.priority ∨ (a.priority = b.priority ∧ a.createdAt ≤ b.createdAt)

instance : DecidableRel Before := fun _ _ => inferInstanceAs (Decidable (_ ∨ (_ ∧ _)))

/-- `resolve_binding` of the repository. -/
def bindingOf (scopeType scopeId : String) : Option PromptBindingRecord := do
  let binding ← (selectFirst (registry.Bound scopeType scopeId) Before 1 registry.bindings).head?
  let template ← registry.templateOf binding
  return {
    promptBindingId := binding.promptBindingId
    scopeType := binding.scopeType
    scopeId := binding.scopeId
    templateKey := template.templateKey
    label := binding.label
    priority := binding.priority }

/-- `_resolve_binding`: the names that a scope type has had are tried in turn. -/
def resolveBinding (scopeType scopeId : String) : Option PromptBindingRecord :=
  (scopeLookupCandidates (normalizeScopeType scopeType)).findSome? fun candidate =>
    registry.bindingOf candidate scopeId

/-- `_extract_default_prompt`. -/
def extractDefaultPrompt (py : Python) (metadata : Option JsonObject) :
    Option GroupDefaultPrompt :=
  match JsonObject.get (metadata.getD []) "default_prompt" with
  | .dict raw =>
      let templateKey := trimmed py (JsonObject.get raw "template_key")
      let label := trimmed py (JsonObject.get raw "label")
      if templateKey = "" then none
      else some ⟨templateKey, if label = "" then none else some label⟩
  | _ => none

/-- `_resolve_route_group_default`. -/
def resolveRouteGroupDefault (py : Python) (routeGroupKey : String) : Option GroupDefaultPrompt :=
  registry.routeGroups.bind fun groups =>
    (groups.find? (·.groupKey = routeGroupKey)).bind fun group =>
      extractDefaultPrompt py group.metadata

end Registry

/-! ## The scopes of a request -/

structure RequestScopes where
  scopeContext : Option RuntimeScopeContext
  apiKey : Option String
  userId : Option String
  teamId : Option String
  organizationId : Option String
  routeGroupKey : Option String

/-- `prompt_binding_resolution_chain`. -/
def promptBindingResolutionChain (request : RequestScopes) : List (String × String) :=
  let entry (scopeType : String) (scopeId : Option String) : List (String × String) :=
    (scopeId.filter (· ≠ "")).toList.map fun scopeId => (scopeType, scopeId)
  let chain := match request.scopeContext with
    | some context =>
        entry "user" context.userId ++ entry "api_key" context.apiKeyScopeId ++
          entry "team" context.teamId ++ entry "organization" context.organizationId
    | none =>
        entry "user" (request.userId.map strip) ++ entry "api_key" (request.apiKey.map strip) ++
          entry "team" (request.teamId.map strip) ++
          entry "organization" (request.organizationId.map strip)
  chain ++ entry "group" (request.routeGroupKey.map strip)

/-- `if route_group_key:`. -/
def groupDefaultOf (registry : Registry) (py : Python) (request : RequestScopes) :
    Option (String × GroupDefaultPrompt) :=
  (request.routeGroupKey.filter (· ≠ "")).bind fun routeGroupKey =>
    (registry.resolveRouteGroupDefault py routeGroupKey).map fun prompt => (routeGroupKey, prompt)

/-! ## Preview -/

structure Candidate where
  scopeType : String
  scopeId : String
  templateKey : String
  label : String
  priority : Option ℤ
  deriving DecidableEq, Repr

structure Preview where
  winner : Option Candidate
  candidates : List Candidate

def bindingCandidate (binding : PromptBindingRecord) : Candidate where
  scopeType := normalizeScopeType binding.scopeType
  scopeId := binding.scopeId
  templateKey := binding.templateKey
  label := binding.label
  priority := some binding.priority

def defaultCandidate (routeGroupKey : String) (prompt : GroupDefaultPrompt) : Candidate where
  scopeType := "group_default"
  scopeId := routeGroupKey
  templateKey := prompt.templateKey
  label := labelOrProduction prompt.label
  priority := none

/-- `resolve_binding_preview`: the first candidate wins. -/
def resolveBindingPreview (registry : Registry) (py : Python) (request : RequestScopes) :
    Preview :=
  let bound := (promptBindingResolutionChain request).filterMap fun scope =>
    (registry.resolveBinding scope.1 scope.2).map bindingCandidate
  let candidates := bound ++ (groupDefaultOf registry py request).toList.map fun default =>
    defaultCandidate default.1 default.2
  ⟨candidates.head?, candidates⟩

/-! ## Resolution -/

inductive PromptSource where
  | binding
  | groupDefault
  deriving DecidableEq, Repr

structure PromptProvenance where
  source : PromptSource
  templateKey : String
  version : ℤ
  label : Option String
  bindingScope : String
  bindingScopeId : String
  deriving DecidableEq, Repr

def bindingProvenance (binding : PromptBindingRecord) (resolved : PromptResolvedRecord) :
    PromptProvenance where
  source := .binding
  templateKey := resolved.templateKey
  version := resolved.version
  label := some binding.label
  bindingScope := normalizeScopeType binding.scopeType
  bindingScopeId := binding.scopeId

def defaultProvenance (routeGroupKey : String) (prompt : GroupDefaultPrompt)
    (resolved : PromptResolvedRecord) : PromptProvenance where
  source := .groupDefault
  templateKey := resolved.templateKey
  version := resolved.version
  label := (prompt.label.filter (· ≠ "")).or resolved.label
  bindingScope := "group"
  bindingScopeId := routeGroupKey

/-- A turn of the loop of `_resolve_from_bindings`: nothing where it goes on to the next scope. -/
def resolveScope (registry : Registry) (scope : String × String) :
    Option (PromptResolvedRecord × PromptProvenance) :=
  (registry.resolveBinding scope.1 scope.2).bind fun binding =>
    (registry.resolvePrompt binding.templateKey (some binding.label) none).map fun resolved =>
      (resolved, bindingProvenance binding resolved)

def resolveBound (registry : Registry) (precedence : List (String × String)) :
    Option (PromptResolvedRecord × PromptProvenance) :=
  precedence.findSome? (resolveScope registry)

def resolveDefault (registry : Registry) (py : Python) (request : RequestScopes) :
    Option (PromptResolvedRecord × PromptProvenance) := do
  let (routeGroupKey, prompt) ← groupDefaultOf registry py request
  let resolved ← registry.resolvePrompt prompt.templateKey prompt.label none
  return (resolved, defaultProvenance routeGroupKey prompt resolved)

/-- `_resolve_from_bindings`. -/
def resolveFromBindings (registry : Registry) (py : Python) (request : RequestScopes) :
    Option (PromptResolvedRecord × PromptProvenance) :=
  (resolveBound registry (promptBindingResolutionChain request)).or
    (resolveDefault registry py request)

/-! ## Agreement -/

/-- The name that a preview gives to the scope. -/
def PromptProvenance.scopeName (provenance : PromptProvenance) : String :=
  match provenance.source with
  | .binding => provenance.bindingScope
  | .groupDefault => "group_default"

structure SamePrompt (candidate : Candidate) (provenance : PromptProvenance) : Prop where
  scopeType : candidate.scopeType = provenance.scopeName
  scopeId : candidate.scopeId = provenance.bindingScopeId
  templateKey : candidate.templateKey = provenance.templateKey
  label : some candidate.label = provenance.label

/-- The winner names the applied prompt, and there is none exactly when none is applied. -/
def Agree : Option Candidate → Option (PromptResolvedRecord × PromptProvenance) → Prop
  | none, none => True
  | some candidate, some (_, provenance) => SamePrompt candidate provenance
  | _, _ => False

def Registry.resolves (registry : Registry) (templateKey : String) (label : Option String) :
    Prop := (registry.resolvePrompt templateKey label none).isSome = true

instance (registry : Registry) (templateKey : String) (label : Option String) :
    Decidable (registry.resolves templateKey label) := inferInstanceAs (Decidable (_ = true))

/-- The binding at the first scope that has one. -/
def firstBinding (registry : Registry) (scopes : List (String × String)) :
    Option PromptBindingRecord :=
  scopes.findSome? fun scope => registry.resolveBinding scope.1 scope.2

/-- The first binding on the way, or the group's default where no scope is bound, has a template
with that label. -/
def FirstResolves (registry : Registry) (py : Python) (request : RequestScopes) : Prop :=
  match firstBinding registry (promptBindingResolutionChain request),
      groupDefaultOf registry py request with
  | some binding, _ => registry.resolves binding.templateKey (some binding.label)
  | none, some (_, prompt) => registry.resolves prompt.templateKey prompt.label
  | none, none => True

/-! ## Lookups answer what they are asked -/

section Lookups

variable {registry : Registry}

theorem resolvePrompt_label {templateKey : String} {label : Option String}
    {resolved : PromptResolvedRecord}
    (h : registry.resolvePrompt templateKey label none = some resolved) :
    resolved.templateKey = templateKey ∧ resolved.label = some (labelOrProduction label) := by
  obtain ⟨template, htemplate, h⟩ := List.exists_of_findSome?_eq_some h
  obtain ⟨row, hrow, h⟩ := List.exists_of_findSome?_eq_some h
  obtain ⟨version, -, rfl⟩ := Option.map_eq_some_iff.mp h
  have hkey := (List.mem_filter.mp htemplate).2
  have hlabel := (List.mem_filter.mp hrow).2
  simp only [decide_eq_true_eq] at hkey hlabel
  exact ⟨hkey, congrArg some hlabel.2⟩

theorem resolvePrompt_version {templateKey : String} {label : Option String} {version : ℤ}
    {resolved : PromptResolvedRecord}
    (h : registry.resolvePrompt templateKey label (some version) = some resolved) :
    resolved.templateKey = templateKey ∧ resolved.version = version := by
  obtain ⟨template, htemplate, h⟩ := List.exists_of_findSome?_eq_some h
  obtain ⟨row, hrow, rfl⟩ := Option.map_eq_some_iff.mp h
  have hkey := (List.mem_filter.mp htemplate).2
  have hversion := List.find?_some hrow
  simp only [decide_eq_true_eq] at hkey hversion
  exact ⟨hkey, hversion.2⟩

theorem bindingOf_scope {scopeType scopeId : String} {binding : PromptBindingRecord}
    (h : registry.bindingOf scopeType scopeId = some binding) :
    binding.scopeType = scopeType ∧ binding.scopeId = scopeId := by
  obtain ⟨row, hrow, h⟩ := Option.bind_eq_some_iff.mp h
  obtain ⟨template, -, h⟩ := Option.bind_eq_some_iff.mp h
  cases h
  have hbound := (mem_of_mem_selectFirst (List.mem_of_mem_head? hrow)).2
  exact ⟨hbound.1, hbound.2.1⟩

/-- The scope types of the chain, in its order. -/
def chainTypes : List String := ["user", "api_key", "team", "organization", "group"]

theorem resolveBinding_scope {scopeType scopeId : String} {binding : PromptBindingRecord}
    (htype : scopeType ∈ chainTypes)
    (h : registry.resolveBinding scopeType scopeId = some binding) :
    normalizeScopeType binding.scopeType = scopeType ∧ binding.scopeId = scopeId := by
  obtain ⟨candidate, hcandidate, h⟩ := List.exists_of_findSome?_eq_some h
  obtain ⟨rfl, hid⟩ := bindingOf_scope h
  refine ⟨?_, hid⟩
  have hall : ∀ scopeType ∈ chainTypes,
      ∀ candidate ∈ scopeLookupCandidates (normalizeScopeType scopeType),
        normalizeScopeType candidate = scopeType := by decide +kernel
  exact hall scopeType htype _ hcandidate

end Lookups

theorem chain_types (request : RequestScopes) :
    ((promptBindingResolutionChain request).map Prod.fst).Sublist chainTypes := by
  have hentry : ∀ (scopeType : String) (scopeId : Option String),
      (((scopeId.filter (· ≠ "")).toList.map fun scopeId => (scopeType, scopeId)).map
        Prod.fst).Sublist [scopeType] := by
    intro scopeType scopeId
    cases scopeId.filter (· ≠ "") with
    | none => exact List.nil_sublist _
    | some scopeId => exact List.Sublist.refl _
  unfold promptBindingResolutionChain
  cases request.scopeContext with
  | none =>
      simp only [List.map_append]
      exact ((((hentry _ _).append (hentry _ _)).append (hentry _ _)).append (hentry _ _)).append
        (hentry _ _)
  | some context =>
      simp only [List.map_append]
      exact ((((hentry _ _).append (hentry _ _)).append (hentry _ _)).append (hentry _ _)).append
        (hentry _ _)

/-! ## The loop -/

section Loop

variable {registry : Registry} {scopes : List (String × String)}

theorem resolveScope_some {scope : String × String} {resolved : PromptResolvedRecord}
    {provenance : PromptProvenance}
    (h : resolveScope registry scope = some (resolved, provenance)) :
    ∃ binding, registry.resolveBinding scope.1 scope.2 = some binding ∧
      registry.resolvePrompt binding.templateKey (some binding.label) none = some resolved ∧
      provenance = bindingProvenance binding resolved := by
  obtain ⟨binding, hbinding, h⟩ := Option.bind_eq_some_iff.mp h
  obtain ⟨found, hfound, h⟩ := Option.map_eq_some_iff.mp h
  obtain ⟨rfl, rfl⟩ := Prod.mk.inj h
  exact ⟨binding, hbinding, hfound, rfl⟩

theorem resolveScope_bound {scope : String × String} {binding : PromptBindingRecord}
    (h : registry.resolveBinding scope.1 scope.2 = some binding) :
    resolveScope registry scope =
      (registry.resolvePrompt binding.templateKey (some binding.label) none).map fun resolved =>
        (resolved, bindingProvenance binding resolved) := by
  rw [resolveScope, h, Option.bind_some]

theorem resolveBound_none (h : firstBinding registry scopes = none) :
    resolveBound registry scopes = none := by
  rw [resolveBound, List.findSome?_eq_none_iff]
  intro scope hscope
  have hnone := List.findSome?_eq_none_iff.mp h scope hscope
  rw [resolveScope, hnone, Option.bind_none]

/-- The first binding is of the first scope that has one. -/
theorem firstBinding_some {binding : PromptBindingRecord}
    (h : firstBinding registry scopes = some binding) :
    ∃ before scope after, scopes = before ++ scope :: after ∧
      registry.resolveBinding scope.1 scope.2 = some binding ∧
      resolveBound registry scopes =
        (resolveScope registry scope).or (resolveBound registry after) := by
  obtain ⟨before, scope, after, rfl, hbinding, hbefore⟩ := List.findSome?_eq_some_iff.mp h
  refine ⟨before, scope, after, rfl, hbinding, ?_⟩
  have hnone : resolveBound registry before = none :=
    resolveBound_none (List.findSome?_eq_none_iff.mpr hbefore)
  rw [resolveBound, List.findSome?_append, ← resolveBound, hnone, Option.none_or,
    List.findSome?_cons]
  cases resolveScope registry scope with
  | none => rfl
  | some found => rfl

theorem resolveBound_first {binding : PromptBindingRecord} {resolved : PromptResolvedRecord}
    (h : firstBinding registry scopes = some binding)
    (hresolved : registry.resolvePrompt binding.templateKey (some binding.label) none =
      some resolved) :
    resolveBound registry scopes = some (resolved, bindingProvenance binding resolved) := by
  obtain ⟨before, scope, after, rfl, hbinding, hbound⟩ := firstBinding_some h
  rw [hbound, resolveScope_bound hbinding, hresolved]
  rfl

/-- What the loop answers carries the name of one of its scopes. -/
theorem resolveBound_scope {resolved : PromptResolvedRecord} {provenance : PromptProvenance}
    (htypes : ∀ scope ∈ scopes, scope.1 ∈ chainTypes)
    (h : resolveBound registry scopes = some (resolved, provenance)) :
    provenance.source = .binding ∧ provenance.bindingScope ∈ scopes.map Prod.fst := by
  obtain ⟨scope, hscope, h⟩ := List.exists_of_findSome?_eq_some h
  obtain ⟨binding, hbinding, -, rfl⟩ := resolveScope_some h
  refine ⟨rfl, ?_⟩
  have hname : normalizeScopeType binding.scopeType = scope.1 :=
    (resolveBinding_scope (htypes scope hscope) hbinding).1
  rw [bindingProvenance, hname]
  exact List.mem_map_of_mem hscope

/-- Where the first binding does not resolve, no answer of the loop is of its scope. -/
theorem resolveBound_other {binding : PromptBindingRecord} {resolved : PromptResolvedRecord}
    {provenance : PromptProvenance} (htypes : ∀ scope ∈ scopes, scope.1 ∈ chainTypes)
    (hnodup : (scopes.map Prod.fst).Nodup)
    (hfirst : firstBinding registry scopes = some binding)
    (hresolves : ¬registry.resolves binding.templateKey (some binding.label))
    (h : resolveBound registry scopes = some (resolved, provenance)) :
    provenance.bindingScope ≠ normalizeScopeType binding.scopeType := by
  obtain ⟨before, scope, after, rfl, hbinding, hbound⟩ := firstBinding_some hfirst
  rw [Registry.resolves, Option.not_isSome_iff_eq_none] at hresolves
  rw [hbound, resolveScope_bound hbinding, hresolves, Option.map_none, Option.none_or] at h
  have hscope : normalizeScopeType binding.scopeType = scope.1 :=
    (resolveBinding_scope (htypes scope (by simp)) hbinding).1
  have hafter : provenance.bindingScope ∈ after.map Prod.fst := by
    apply (resolveBound_scope _ h).2
    intro other hother
    exact htypes other (by simp [hother])
  rw [List.map_append, List.map_cons] at hnodup
  have hfresh : scope.1 ∉ after.map Prod.fst :=
    (List.nodup_cons.mp (List.nodup_append.mp hnodup).2.1).1
  rw [hscope]
  rintro heq
  exact hfresh (heq ▸ hafter)

end Loop

theorem resolveDefault_eq (registry : Registry) (py : Python) (request : RequestScopes) :
    resolveDefault registry py request =
      (groupDefaultOf registry py request).bind fun default =>
        (registry.resolvePrompt default.2.templateKey default.2.label none).map fun resolved =>
          (resolved, defaultProvenance default.1 default.2 resolved) := by
  rw [resolveDefault]
  cases groupDefaultOf registry py request with
  | none => rfl
  | some default =>
      obtain ⟨routeGroupKey, prompt⟩ := default
      cases h : registry.resolvePrompt prompt.templateKey prompt.label none with
      | none => simp [h]
      | some resolved => simp [h]

theorem winner_eq (registry : Registry) (py : Python) (request : RequestScopes) :
    (resolveBindingPreview registry py request).winner =
      ((firstBinding registry (promptBindingResolutionChain request)).map bindingCandidate).or
        ((groupDefaultOf registry py request).map fun default =>
          defaultCandidate default.1 default.2) := by
  rw [resolveBindingPreview, List.head?_append, List.head?_filterMap, firstBinding,
    List.map_findSome?, List.head?_map, Option.head?_toList]
  rfl

section Agreement

variable {registry : Registry} {py : Python} {request : RequestScopes}

theorem chain_mem {scope : String × String}
    (h : scope ∈ promptBindingResolutionChain request) : scope.1 ∈ chainTypes :=
  (chain_types request).subset (List.mem_map_of_mem h)

theorem chain_nodup : ((promptBindingResolutionChain request).map Prod.fst).Nodup := by
  apply (chain_types request).nodup
  decide

theorem firstBinding_scope {binding : PromptBindingRecord}
    (h : firstBinding registry (promptBindingResolutionChain request) = some binding) :
    normalizeScopeType binding.scopeType ∈ chainTypes := by
  obtain ⟨scope, hscope, hbinding⟩ := List.exists_of_findSome?_eq_some h
  rw [(resolveBinding_scope (chain_mem hscope) hbinding).1]
  exact chain_mem hscope

theorem label_default (label : Option String) :
    some (labelOrProduction label) =
      (label.filter (· ≠ "")).or (some (labelOrProduction label)) := by
  cases label with
  | none => rfl
  | some label =>
      by_cases hempty : label = ""
      · rw [hempty]
        rfl
      · rw [Option.filter_some, decide_eq_true hempty]
        simp [hempty, labelOrProduction]

theorem agree_some {candidate : Candidate} {resolved : PromptResolvedRecord}
    {provenance : PromptProvenance} :
    Agree (some candidate) (some (resolved, provenance)) ↔ SamePrompt candidate provenance :=
  Iff.rfl

/-- A binding that resolves is the one that is applied; one that does not is passed over for
another scope's, for the group's default, or for nothing. -/
theorem agree_binding {binding : PromptBindingRecord}
    (hfirst : firstBinding registry (promptBindingResolutionChain request) = some binding) :
    Agree (some (bindingCandidate binding)) (resolveFromBindings registry py request) ↔
      registry.resolves binding.templateKey (some binding.label) := by
  constructor
  · intro hagree
    by_contra hresolves
    rw [resolveFromBindings] at hagree
    cases hbound : resolveBound registry (promptBindingResolutionChain request) with
    | some found =>
        obtain ⟨resolved, provenance⟩ := found
        rw [hbound, Option.some_or] at hagree
        have hother := resolveBound_other (fun _ => chain_mem) chain_nodup hfirst hresolves hbound
        have hsource := (resolveBound_scope (fun _ => chain_mem) hbound).1
        have hscope := (agree_some.mp hagree).scopeType
        simp only [bindingCandidate, PromptProvenance.scopeName, hsource] at hscope
        exact hother hscope.symm
    | none =>
        rw [hbound, Option.none_or, resolveDefault_eq] at hagree
        cases hdefault : groupDefaultOf registry py request with
        | none =>
            rw [hdefault] at hagree
            exact hagree
        | some default =>
            rw [hdefault, Option.bind_some] at hagree
            cases hprompt : registry.resolvePrompt default.2.templateKey default.2.label none with
            | none =>
                rw [hprompt] at hagree
                exact hagree
            | some resolved =>
                rw [hprompt, Option.map_some] at hagree
                have hscope := (agree_some.mp hagree).scopeType
                simp only [bindingCandidate, defaultProvenance, PromptProvenance.scopeName]
                  at hscope
                have hmem := firstBinding_scope hfirst
                rw [hscope] at hmem
                revert hmem
                decide
  · intro hresolves
    obtain ⟨resolved, hresolved⟩ := Option.isSome_iff_exists.mp hresolves
    rw [resolveFromBindings, resolveBound_first hfirst hresolved, Option.some_or]
    exact ⟨rfl, rfl, (resolvePrompt_label hresolved).1.symm, rfl⟩

theorem agree_default {default : String × GroupDefaultPrompt}
    (hfirst : firstBinding registry (promptBindingResolutionChain request) = none)
    (hdefault : groupDefaultOf registry py request = some default) :
    Agree (some (defaultCandidate default.1 default.2)) (resolveFromBindings registry py request) ↔
      registry.resolves default.2.templateKey default.2.label := by
  rw [resolveFromBindings, resolveBound_none hfirst, Option.none_or, resolveDefault_eq, hdefault,
    Option.bind_some, Registry.resolves]
  cases hresolved : registry.resolvePrompt default.2.templateKey default.2.label none with
  | none => simp [Agree]
  | some resolved =>
      obtain ⟨hkey, hlabel⟩ := resolvePrompt_label hresolved
      simp only [Option.map_some, Option.isSome_some, iff_true]
      refine ⟨rfl, rfl, hkey.symm, ?_⟩
      rw [defaultProvenance, hlabel]
      exact label_default default.2.label

end Agreement

namespace Counterexample

/-- The team's binding carries a label that its template does not have; the organization's does
resolve. -/
def registry : Registry where
  templates := [⟨"t1", "welcome"⟩]
  versions := [⟨"v1", "t1", 1, "published", []⟩]
  labels := [⟨"t1", "production", "v1"⟩]
  bindings := [⟨"b1", "team", "team-1", "t1", "canary", 100, true, 0⟩,
    ⟨"b2", "organization", "org-1", "t1", "production", 100, true, 1⟩]
  routeGroups := some []

def request : RequestScopes where
  scopeContext := none
  apiKey := none
  userId := none
  teamId := some "team-1"
  organizationId := some "org-1"
  routeGroupKey := none

def python : Python := ⟨fun _ => none, fun _ => ""⟩

end Counterexample

end PromptResolution
