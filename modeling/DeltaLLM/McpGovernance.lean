import Mathlib.Logic.Function.Basic
import DeltaLLM.Dictionaries
import DeltaLLM.RuntimeScopes

/-! # Which tools of which servers a caller may use

The snapshot keeps the bindings of the enabled servers. An organization with bindings is a ceiling
that the scopes below it narrow; without one the bindings of all scopes are taken together.
-/
namespace McpGovernance

open JsonValues PythonText Dictionaries RuntimeScopes

structure MCPServerRecord where
  mcpServerId : String
  enabled : Bool
  deriving DecidableEq

structure MCPServerBindingRecord where
  mcpServerId : String
  scope : Scope
  enabled : Bool
  toolAllowlist : Option (List String)
  deriving DecidableEq

structure MCPScopePolicyRecord where
  scope : Scope
  mode : String
  deriving DecidableEq

/-- The tables; a scope has one binding to a server. -/
structure Governance where
  servers : List MCPServerRecord
  bindings : List MCPServerBindingRecord
  policies : List MCPScopePolicyRecord
  oneBinding : (bindings.map fun binding => (binding.mcpServerId, binding.scope)).Nodup

structure MCPGovernanceSnapshot where
  serversById : Dict String MCPServerRecord
  bindingsByScope : Scope → List MCPServerBindingRecord
  bindingCountsByScope : Scope → ℕ
  scopeModesByScope : Dict Scope String

structure MCPBindingResolution where
  serverId : String
  serverKey : String
  scope : Scope
  allowedToolNames : Option (List String)
  deriving DecidableEq

/-- A binding of a server that is not enabled is passed over before it is counted. -/
def MCPGovernanceSnapshot.addBinding (snapshot : MCPGovernanceSnapshot)
    (binding : MCPServerBindingRecord) : MCPGovernanceSnapshot :=
  if (snapshot.serversById.get? binding.mcpServerId).isSome then
    { snapshot with
      bindingCountsByScope := Function.update snapshot.bindingCountsByScope binding.scope
        (snapshot.bindingCountsByScope binding.scope + 1)
      bindingsByScope :=
        if binding.enabled then
          Function.update snapshot.bindingsByScope binding.scope
            (snapshot.bindingsByScope binding.scope ++ [binding])
        else snapshot.bindingsByScope }
  else snapshot

def enabledServersById (g : Governance) : Dict String MCPServerRecord :=
  Dict.ofRecords (·.mcpServerId) id (g.servers.filter (·.enabled))

/-- `reload`: the tables page by page. -/
def reload (g : Governance) : MCPGovernanceSnapshot :=
  g.bindings.foldl MCPGovernanceSnapshot.addBinding
    { serversById := enabledServersById g
      bindingsByScope := fun _ => []
      bindingCountsByScope := fun _ => 0
      scopeModesByScope := Dict.ofRecords (·.scope) (·.mode) g.policies }

/-- `_has_bindings`. -/
def MCPGovernanceSnapshot.hasBindings (snapshot : MCPGovernanceSnapshot) (scopeType : ScopeType)
    (scopeId : String) : Bool :=
  strip scopeId ≠ "" ∧ 0 < snapshot.bindingCountsByScope (scopeType, strip scopeId)

/-- No allowlist and an empty one allow every tool. -/
def MCPServerBindingRecord.allowedToolNames (binding : MCPServerBindingRecord) :
    Option (List String) :=
  let names := binding.toolAllowlist.getD []
  if names = [] then none else some names

def MCPServerBindingRecord.resolution (binding : MCPServerBindingRecord) : MCPBindingResolution :=
  ⟨binding.mcpServerId, "", binding.scope, binding.allowedToolNames⟩

/-- `_bindings_for_scope`. -/
def MCPGovernanceSnapshot.bindingsForScope (snapshot : MCPGovernanceSnapshot)
    (scopeType : ScopeType) (scopeId : String) : Dict String MCPBindingResolution :=
  if strip scopeId = "" then []
  else
    Dict.ofRecords (·.mcpServerId) (·.resolution)
      (snapshot.bindingsByScope (scopeType, strip scopeId))

/-- `_should_restrict_scope`. -/
def MCPGovernanceSnapshot.shouldRestrictScope (snapshot : MCPGovernanceSnapshot)
    (scopeType : ScopeType) (scopeId : String) : Bool :=
  if strip scopeId = "" then false
  else
    match snapshot.scopeModesByScope.get? (scopeType, strip scopeId) with
    | some "restrict" => true
    | some "inherit" => false
    | _ => 0 < snapshot.bindingCountsByScope (scopeType, strip scopeId)

/-- `_intersect_allowed_tool_names`; `none` is every tool. -/
def intersectAllowedToolNames : Option (List String) → Option (List String) → Option (List String)
  | none, right => right
  | left, none => left
  | some left, some right => some (sorted (left.toFinset ∩ right.toFinset))

/-- `_intersect_bindings`: a server without a common tool is dropped. -/
def intersectBindings (current narrowed : Dict String MCPBindingResolution) :
    Dict String MCPBindingResolution :=
  current.filterMap fun (serverId, currentBinding) =>
    match narrowed.get? serverId with
    | none => none
    | some nextBinding =>
        let allowedTools := intersectAllowedToolNames currentBinding.allowedToolNames
          nextBinding.allowedToolNames
        if allowedTools = some [] then none
        else some (serverId, ⟨serverId, "", nextBinding.scope, allowedTools⟩)

/-- What a scope of the caller leaves of the bindings. -/
def narrow (snapshot : MCPGovernanceSnapshot) (scopeType : ScopeType) (scopeId : Option String)
    (effective : Dict String MCPBindingResolution) : Dict String MCPBindingResolution :=
  match scopeId with
  | some id =>
      if snapshot.shouldRestrictScope scopeType id then
        intersectBindings effective (snapshot.bindingsForScope scopeType id)
      else effective
  | none => effective

/-- The organization's bindings, narrowed by the team, the key and the user. -/
def ceilingResolutions (context : RuntimeScopeContext) (snapshot : MCPGovernanceSnapshot)
    (organizationId : String) : List MCPBindingResolution :=
  let effective := snapshot.bindingsForScope .organization organizationId
  let effective := narrow snapshot .team context.teamId effective
  let effective := narrow snapshot .apiKey context.apiKeyScopeId effective
  let effective := narrow snapshot .user context.userId effective
  effective.map Prod.snd

/-- `_select_record_for_scope_order`: the record of the first scope that has one. -/
def selectRecordForScopeOrder (records : List MCPServerBindingRecord) (scopeOrder : List Scope) :
    Option MCPServerBindingRecord :=
  (scopeOrder.findSome? (Dict.ofRecords (·.scope) id records).get?).or records.head?

/-- Without a ceiling: of each server the binding that is closest to the caller. -/
def legacyResolutions (context : RuntimeScopeContext) (snapshot : MCPGovernanceSnapshot) :
    List MCPBindingResolution :=
  let scopedBindings := context.scopeChain.flatMap snapshot.bindingsByScope
  (Dict.groupRecords (·.mcpServerId) scopedBindings).filterMap fun (_, serverBindings) =>
    (selectRecordForScopeOrder serverBindings context.scopeChain).map (·.resolution)

/-- `resolve_binding_resolutions`. -/
def resolveBindingResolutions (context : RuntimeScopeContext) (snapshot : MCPGovernanceSnapshot) :
    List MCPBindingResolution :=
  if context.isMasterKey then []
  else
    match context.organizationId with
    | some organizationId =>
        if snapshot.hasBindings .organization organizationId then
          ceilingResolutions context snapshot organizationId
        else legacyResolutions context snapshot
    | none => legacyResolutions context snapshot

/-! ## What is allowed -/

def MCPBindingResolution.Permits (resolution : MCPBindingResolution) (tool : String) : Prop :=
  ∀ names, resolution.allowedToolNames = some names → tool ∈ names

/-- A resolution allows the tool of the server. -/
def Allowed (resolutions : List MCPBindingResolution) (serverId tool : String) : Prop :=
  ∃ resolution ∈ resolutions, resolution.serverId = serverId ∧ resolution.Permits tool

def ServerEnabled (g : Governance) (serverId : String) : Prop :=
  ∃ server ∈ g.servers, server.enabled = true ∧ server.mcpServerId = serverId

/-- An enabled binding of the scope to an enabled server grants the tool. -/
def Grants (g : Governance) (scope : Scope) (serverId tool : String) : Prop :=
  ∃ binding ∈ g.bindings, binding.scope = scope ∧ binding.enabled = true ∧
    ServerEnabled g binding.mcpServerId ∧ binding.mcpServerId = serverId ∧
      binding.resolution.Permits tool

/-- The scope has a binding, enabled or not, to an enabled server. -/
def Bound (g : Governance) (scope : Scope) : Prop :=
  ∃ binding ∈ g.bindings, binding.scope = scope ∧ ServerEnabled g binding.mcpServerId

def modeOf (g : Governance) (scope : Scope) : Option String :=
  (Dict.ofRecords (·.scope) (·.mode) g.policies).get? scope

/-- A scope narrows what its organization grants: by its policy, or else by being bound. -/
def Restricts (g : Governance) (scope : Scope) : Prop :=
  modeOf g scope = some "restrict" ∨ modeOf g scope ≠ some "inherit" ∧ Bound g scope

variable {g : Governance} {snapshot : MCPGovernanceSnapshot} {scope : Scope}

theorem foldl_addBinding (scope : Scope) (bindings : List MCPServerBindingRecord) :
    let loaded := bindings.foldl MCPGovernanceSnapshot.addBinding snapshot
    loaded.serversById = snapshot.serversById ∧
      loaded.scopeModesByScope = snapshot.scopeModesByScope ∧
      loaded.bindingsByScope scope = snapshot.bindingsByScope scope ++
        bindings.filter (fun binding => binding.scope = scope ∧ binding.enabled = true ∧
          (snapshot.serversById.get? binding.mcpServerId).isSome) ∧
      loaded.bindingCountsByScope scope = snapshot.bindingCountsByScope scope +
        bindings.countP fun binding => binding.scope = scope ∧
          (snapshot.serversById.get? binding.mcpServerId).isSome := by
  induction bindings generalizing snapshot with
  | nil => simp
  | cons binding bindings ih =>
      obtain ⟨hservers, hmodes, hbindings, hcounts⟩ := @ih (snapshot.addBinding binding)
      have hsame : (snapshot.addBinding binding).serversById = snapshot.serversById ∧
          (snapshot.addBinding binding).scopeModesByScope = snapshot.scopeModesByScope := by
        unfold MCPGovernanceSnapshot.addBinding
        split <;> exact ⟨rfl, rfl⟩
      rw [hsame.1] at hservers hbindings hcounts
      rw [hsame.2] at hmodes
      refine ⟨hservers, hmodes, ?_, ?_⟩
      · rw [List.foldl_cons, hbindings]
        by_cases hknown : (snapshot.serversById.get? binding.mcpServerId).isSome = true
        · rw [MCPGovernanceSnapshot.addBinding, if_pos hknown]
          by_cases henabled : binding.enabled = true
          · by_cases hscope : binding.scope = scope
            · subst hscope
              simp [hknown, henabled]
            · simp [henabled, hscope, Ne.symm hscope]
          · simp [henabled]
        · rw [MCPGovernanceSnapshot.addBinding, if_neg hknown]
          simp [hknown]
      · rw [List.foldl_cons, hcounts, List.countP_cons]
        by_cases hknown : (snapshot.serversById.get? binding.mcpServerId).isSome = true
        · rw [MCPGovernanceSnapshot.addBinding, if_pos hknown]
          by_cases hscope : binding.scope = scope
          · subst hscope
            simp only [Function.update_self, hknown, and_self, decide_true, if_true]
            omega
          · simp [hscope, Ne.symm hscope]
        · rw [MCPGovernanceSnapshot.addBinding, if_neg hknown]
          simp [hknown]

theorem known_iff {serverId : String} :
    ((enabledServersById g).get? serverId).isSome = true ↔ ServerEnabled g serverId := by
  rw [enabledServersById, Dict.get?_ofRecords, Option.isSome_map, List.find?_isSome]
  simp [ServerEnabled, and_assoc]

theorem mem_bindingsByScope {binding : MCPServerBindingRecord} :
    binding ∈ (reload g).bindingsByScope scope ↔
      binding ∈ g.bindings ∧ binding.scope = scope ∧ binding.enabled = true ∧
        ServerEnabled g binding.mcpServerId := by
  rw [reload, (foldl_addBinding scope g.bindings).2.2.1, List.nil_append, List.mem_filter,
    decide_eq_true_eq, ← known_iff]

theorem counted_iff : 0 < (reload g).bindingCountsByScope scope ↔ Bound g scope := by
  rw [reload, (foldl_addBinding scope g.bindings).2.2.2, Nat.zero_add, List.countP_pos_iff]
  simp only [decide_eq_true_eq, Bound, ← known_iff]

theorem reload_mode : (reload g).scopeModesByScope.get? scope = modeOf g scope := by
  rw [reload, (foldl_addBinding scope g.bindings).2.1, modeOf]

/-- Of one scope a server has one binding in the snapshot. -/
theorem nodup_bindingsByScope :
    (((reload g).bindingsByScope scope).map (·.mcpServerId)).Nodup := by
  rw [reload, (foldl_addBinding scope g.bindings).2.2.1, List.nil_append,
    List.nodup_map_iff_inj_on (List.Nodup.filter _ (List.Nodup.of_map _ g.oneBinding))]
  intro binding hbinding other hother hserver
  obtain ⟨hbinding, hscope⟩ := List.mem_filter.mp hbinding
  obtain ⟨hother, hscope'⟩ := List.mem_filter.mp hother
  rw [decide_eq_true_eq] at hscope hscope'
  apply List.inj_on_of_nodup_map g.oneBinding hbinding hother
  rw [hserver, hscope.1, hscope'.1]

/-! ## The ceiling and what narrows it -/

/-- The resolutions are stored under their servers. -/
def Keyed (effective : Dict String MCPBindingResolution) : Prop :=
  ∀ entry ∈ effective, entry.2.serverId = entry.1

theorem permits_intersect {left right : Option (List String)} {tool : String} :
    (∀ names, intersectAllowedToolNames left right = some names → tool ∈ names) ↔
      (∀ names, left = some names → tool ∈ names) ∧ ∀ names, right = some names → tool ∈ names := by
  cases left <;> cases right <;> simp [intersectAllowedToolNames]

theorem intersectBindings_keyed (current narrowed : Dict String MCPBindingResolution) :
    Keyed (intersectBindings current narrowed) := by
  intro entry hentry
  obtain ⟨⟨serverId, binding⟩, -, hsome⟩ := List.mem_filterMap.mp hentry
  simp only at hsome
  split at hsome
  · cases hsome
  · split at hsome
    · cases hsome
    · rw [← Option.some.inj hsome]

/-- The intersection allows what both sides allow. -/
theorem intersectBindings_allowed {current narrowed : Dict String MCPBindingResolution}
    (hcurrent : Keyed current) (hnarrowed : Keyed narrowed)
    (hnodup : (narrowed.map Prod.fst).Nodup) {serverId tool : String} :
    Allowed ((intersectBindings current narrowed).map Prod.snd) serverId tool ↔
      Allowed (current.map Prod.snd) serverId tool ∧
        Allowed (narrowed.map Prod.snd) serverId tool := by
  constructor
  · rintro ⟨resolution, hmem, rfl, hpermits⟩
    obtain ⟨entry, hentry, rfl⟩ := List.mem_map.mp hmem
    obtain ⟨⟨name, binding⟩, hbinding, hsome⟩ := List.mem_filterMap.mp hentry
    simp only at hsome
    split at hsome
    · cases hsome
    · rename_i next hnext
      split at hsome
      · cases hsome
      · rw [← Option.some.inj hsome] at hpermits ⊢
        have hnext := Dict.mem_of_get? hnext
        obtain ⟨hleft, hright⟩ := permits_intersect.mp hpermits
        exact ⟨⟨binding, List.mem_map_of_mem hbinding, hcurrent _ hbinding, hleft⟩,
          ⟨next, List.mem_map_of_mem hnext, hnarrowed _ hnext, hright⟩⟩
  · rintro ⟨⟨binding, hmem, rfl, hleft⟩, ⟨next, hmem', hserver, hright⟩⟩
    obtain ⟨⟨name, binding⟩, hbinding, rfl⟩ := List.mem_map.mp hmem
    obtain ⟨⟨name', next⟩, hnext, rfl⟩ := List.mem_map.mp hmem'
    obtain rfl : binding.serverId = name := hcurrent _ hbinding
    obtain rfl : next.serverId = name' := hnarrowed (name', next) hnext
    have hget := Dict.get?_of_mem hnodup hnext
    simp only at hserver hleft hright
    rw [hserver] at hget
    have hpermits := permits_intersect.mpr ⟨hleft, hright⟩
    have hsome : intersectAllowedToolNames binding.allowedToolNames next.allowedToolNames ≠
      some [] :=
      fun hnone => List.not_mem_nil (hpermits [] hnone)
    let common : MCPBindingResolution := ⟨binding.serverId, "", next.scope,
      intersectAllowedToolNames binding.allowedToolNames next.allowedToolNames⟩
    have hcommon : (binding.serverId, common) ∈ intersectBindings current narrowed := by
      refine List.mem_filterMap.mpr ⟨_, hbinding, ?_⟩
      simp only [hget, if_neg hsome, common]
    exact ⟨common, List.mem_map_of_mem hcommon, rfl, hpermits⟩

theorem bindingsForScope_keyed (scopeType : ScopeType) (id : String) :
    Keyed ((reload g).bindingsForScope scopeType id) ∧
      (((reload g).bindingsForScope scopeType id).map Prod.fst).Nodup := by
  unfold MCPGovernanceSnapshot.bindingsForScope
  split
  · exact ⟨fun _ hentry => absurd hentry List.not_mem_nil, List.nodup_nil⟩
  · refine ⟨fun entry hentry => ?_, Dict.nodup_ofRecords _ _ _⟩
    obtain ⟨binding, -, hkey, hvalue⟩ := (Dict.mem_ofRecords nodup_bindingsByScope).mp hentry
    rw [← hkey, ← hvalue]
    rfl

theorem bindingsForScope_allowed {scopeType : ScopeType} {id serverId tool : String}
    (hid : strip id = id ∧ id ≠ "") :
    Allowed (((reload g).bindingsForScope scopeType id).map Prod.snd) serverId tool ↔
      Grants g (scopeType, id) serverId tool := by
  unfold MCPGovernanceSnapshot.bindingsForScope
  rw [hid.1, if_neg hid.2]
  constructor
  · rintro ⟨resolution, hmem, rfl, hpermits⟩
    obtain ⟨entry, hentry, rfl⟩ := List.mem_map.mp hmem
    obtain ⟨binding, hbinding, -, hvalue⟩ := (Dict.mem_ofRecords nodup_bindingsByScope).mp hentry
    obtain ⟨hbinding, hscope, henabled, hserver⟩ := mem_bindingsByScope.mp hbinding
    rw [← hvalue] at hpermits ⊢
    exact ⟨binding, hbinding, hscope, henabled, hserver, rfl, hpermits⟩
  · rintro ⟨binding, hbinding, hscope, henabled, hserver, rfl, hpermits⟩
    have hmem := mem_bindingsByScope.mpr ⟨hbinding, hscope, henabled, hserver⟩
    exact ⟨binding.resolution, List.mem_map_of_mem
      ((Dict.mem_ofRecords nodup_bindingsByScope).mpr ⟨binding, hmem, rfl, rfl⟩), rfl, hpermits⟩

theorem shouldRestrictScope_iff {scopeType : ScopeType} {id : String}
    (hid : strip id = id ∧ id ≠ "") :
    (reload g).shouldRestrictScope scopeType id = true ↔ Restricts g (scopeType, id) := by
  unfold MCPGovernanceSnapshot.shouldRestrictScope Restricts
  rw [hid.1, if_neg hid.2, reload_mode]
  split
  · rename_i hmode
    simp [hmode]
  · rename_i hmode
    simp [hmode]
  · rename_i hrestrict hinherit
    rw [decide_eq_true_eq, counted_iff]
    constructor
    · exact fun hbound => .inr ⟨hinherit, hbound⟩
    · rintro (hmode | hbound)
      · exact absurd hmode hrestrict
      · exact hbound.2

theorem narrow_allowed (scopeType : ScopeType) {scopeId : Option String}
    {effective : Dict String MCPBindingResolution} (hkeyed : Keyed effective)
    (hid : ∀ id, scopeId = some id → strip id = id ∧ id ≠ "") :
    Keyed (narrow (reload g) scopeType scopeId effective) ∧ ∀ serverId tool,
      Allowed ((narrow (reload g) scopeType scopeId effective).map Prod.snd) serverId tool ↔
        Allowed (effective.map Prod.snd) serverId tool ∧
          ∀ id, scopeId = some id → Restricts g (scopeType, id) →
            Grants g (scopeType, id) serverId tool := by
  unfold narrow
  cases scopeId with
  | none => exact ⟨hkeyed, fun serverId tool => by simp⟩
  | some id =>
      have hid := hid id rfl
      by_cases hrestricts : (reload g).shouldRestrictScope scopeType id = true
      · simp only [if_pos hrestricts]
        refine ⟨intersectBindings_keyed _ _, fun serverId tool => ?_⟩
        rw [intersectBindings_allowed hkeyed (bindingsForScope_keyed _ _).1
            (bindingsForScope_keyed _ _).2,
          bindingsForScope_allowed hid]
        simp [(shouldRestrictScope_iff hid).mp hrestricts]
      · simp only [if_neg hrestricts]
        refine ⟨hkeyed, fun serverId tool => ?_⟩
        rw [shouldRestrictScope_iff hid] at hrestricts
        simp [hrestricts]

/-- The scopes of the caller below the organization. -/
def Below (context : RuntimeScopeContext) : Scope → Prop
  | (.organization, _) => False
  | (.team, id) => context.teamId = some id
  | (.apiKey, id) => context.apiKeyScopeId = some id
  | (.user, id) => context.userId = some id

/-- Under a ceiling a tool is allowed if the organization and every restricting scope below grant
it. -/
theorem ceilingResolutions_allowed {context : RuntimeScopeContext} (hnorm : context.Normalized)
    {organizationId : String} (horg : context.organizationId = some organizationId)
    {serverId tool : String} :
    Allowed (ceilingResolutions context (reload g) organizationId) serverId tool ↔
      Grants g (.organization, organizationId) serverId tool ∧
        ∀ scope, Below context scope → Restricts g scope → Grants g scope serverId tool := by
  unfold ceilingResolutions
  have hceiling := (bindingsForScope_keyed (g := g) .organization organizationId).1
  have hteam := narrow_allowed (g := g) .team hceiling hnorm.teamId
  have hkey := narrow_allowed (g := g) .apiKey hteam.1 hnorm.apiKeyScopeId
  have huser := narrow_allowed (g := g) .user hkey.1 hnorm.userId
  rw [huser.2, hkey.2, hteam.2, bindingsForScope_allowed (hnorm.organizationId _ horg), and_assoc,
    and_assoc]
  refine and_congr_right fun _ => ?_
  constructor
  · rintro ⟨hteam, hkey, huser⟩ ⟨scopeType, id⟩ hbelow
    cases scopeType with
    | organization => cases hbelow
    | team => exact hteam id hbelow
    | apiKey => exact hkey id hbelow
    | user => exact huser id hbelow
  · intro hbelow
    exact ⟨fun id => hbelow (.team, id), fun id => hbelow (.apiKey, id),
      fun id => hbelow (.user, id)⟩

/-! ## Without a ceiling -/

/-- The bindings of the caller's scopes to a server. -/
def serverBindings (context : RuntimeScopeContext) (g : Governance) (serverId : String) :
    List MCPServerBindingRecord :=
  (context.scopeChain.flatMap (reload g).bindingsByScope).filter (·.mcpServerId = serverId)

theorem selectRecordForScopeOrder_mem {records : List MCPServerBindingRecord}
    {scopeOrder : List Scope} {selected : MCPServerBindingRecord}
    (h : selectRecordForScopeOrder records scopeOrder = some selected) : selected ∈ records := by
  unfold selectRecordForScopeOrder at h
  rcases Option.or_eq_some_iff.mp h with hfound | ⟨-, hfirst⟩
  · obtain ⟨scope, -, hget⟩ := List.exists_of_findSome?_eq_some hfound
    rw [Dict.get?_ofRecords, Option.map_id, id] at hget
    exact List.mem_reverse.mp (List.mem_of_find?_eq_some hget)
  · exact List.mem_of_head? hfirst

theorem selectRecordForScopeOrder_isSome {records : List MCPServerBindingRecord}
    (h : records ≠ []) (scopeOrder : List Scope) :
    (selectRecordForScopeOrder records scopeOrder).isSome = true := by
  rw [selectRecordForScopeOrder, Option.isSome_or, List.head?_eq_some_head h]
  simp

/-- Without a ceiling the selected binding of a server decides. -/
theorem legacyResolutions_allowed {context : RuntimeScopeContext} {serverId tool : String} :
    Allowed (legacyResolutions context (reload g)) serverId tool ↔
      ∃ binding, selectRecordForScopeOrder (serverBindings context g serverId) context.scopeChain =
        some binding ∧ binding.resolution.Permits tool := by
  constructor
  · rintro ⟨resolution, hmem, rfl, hpermits⟩
    obtain ⟨⟨serverId, group⟩, hgroup, hselected⟩ := List.mem_filterMap.mp hmem
    obtain ⟨binding, hbinding, rfl⟩ := Option.map_eq_some_iff.mp hselected
    obtain ⟨rfl, -⟩ := Dict.mem_groupRecords.mp hgroup
    have hserver : binding.mcpServerId = serverId := by
      simpa using (List.mem_filter.mp (selectRecordForScopeOrder_mem hbinding)).2
    refine ⟨binding, ?_, hpermits⟩
    change selectRecordForScopeOrder (serverBindings context g binding.mcpServerId) _ = _
    rw [hserver]
    exact hbinding
  · rintro ⟨binding, hbinding, hpermits⟩
    have hmem := selectRecordForScopeOrder_mem hbinding
    have hserver : binding.mcpServerId = serverId := by simpa using (List.mem_filter.mp hmem).2
    refine ⟨binding.resolution,
      List.mem_filterMap.mpr ⟨(serverId, serverBindings context g serverId),
      ?_, ?_⟩, hserver, hpermits⟩
    · exact Dict.mem_groupRecords.mpr ⟨rfl, List.ne_nil_of_mem hmem⟩
    · simp only [hbinding, Option.map_some]

/-- Every binding leaves a tool to use. -/
theorem exists_permits (binding : MCPServerBindingRecord) :
    ∃ tool, binding.resolution.Permits tool := by
  cases hnames : binding.toolAllowlist.getD [] with
  | nil =>
      refine ⟨"", fun names hallowed => ?_⟩
      simp [MCPServerBindingRecord.resolution, MCPServerBindingRecord.allowedToolNames, hnames]
        at hallowed
  | cons name names =>
      refine ⟨name, fun allowed hallowed => ?_⟩
      simp only [MCPServerBindingRecord.resolution, MCPServerBindingRecord.allowedToolNames, hnames,
        reduceCtorEq, if_false, Option.some.injEq] at hallowed
      rw [← hallowed]
      exact List.mem_cons_self

theorem mem_serverBindings {context : RuntimeScopeContext} {serverId : String}
    {binding : MCPServerBindingRecord} :
    binding ∈ serverBindings context g serverId ↔
      binding ∈ g.bindings ∧ binding.scope ∈ context.scopeChain ∧ binding.enabled = true ∧
        ServerEnabled g binding.mcpServerId ∧ binding.mcpServerId = serverId := by
  rw [serverBindings, List.mem_filter, List.mem_flatMap, decide_eq_true_eq]
  simp only [mem_bindingsByScope]
  constructor
  · rintro ⟨⟨scope, hscope, hmem, rfl, henabled, hserver⟩, rfl⟩
    exact ⟨hmem, hscope, henabled, hserver, rfl⟩
  · rintro ⟨hmem, hscope, henabled, hserver, rfl⟩
    exact ⟨⟨_, hscope, hmem, rfl, henabled, hserver⟩, rfl⟩

/-- Without a ceiling a server is open to the caller if one of the caller's scopes is bound to
it. -/
theorem legacyResolutions_open {context : RuntimeScopeContext} {serverId : String} :
    (∃ tool, Allowed (legacyResolutions context (reload g)) serverId tool) ↔
      ∃ binding ∈ g.bindings, binding.scope ∈ context.scopeChain ∧ binding.enabled = true ∧
        ServerEnabled g binding.mcpServerId ∧ binding.mcpServerId = serverId := by
  simp only [legacyResolutions_allowed, ← mem_serverBindings]
  constructor
  · rintro ⟨tool, binding, hselected, -⟩
    exact ⟨binding, selectRecordForScopeOrder_mem hselected⟩
  · rintro ⟨binding, hmem⟩
    obtain ⟨selected, hselected⟩ := Option.isSome_iff_exists.mp
      (selectRecordForScopeOrder_isSome (List.ne_nil_of_mem hmem) context.scopeChain)
    obtain ⟨tool, hpermits⟩ := exists_permits selected
    exact ⟨tool, selected, hselected, hpermits⟩

/-! ## Disabling a server and adding a binding -/

def Governance.disableServer (g : Governance) (serverId : String) : Governance :=
  { g with
    servers := g.servers.map fun server =>
      if server.mcpServerId = serverId then { server with enabled := false } else server }

/-- `upsert_binding`: the binding of the scope to the server is replaced, or a new one comes
first. -/
def upserted (bindings : List MCPServerBindingRecord) (binding : MCPServerBindingRecord) :
    List MCPServerBindingRecord :=
  if ∃ old ∈ bindings, (old.mcpServerId, old.scope) = (binding.mcpServerId, binding.scope) then
    bindings.map fun old =>
      if (old.mcpServerId, old.scope) = (binding.mcpServerId, binding.scope) then binding else old
  else binding :: bindings

theorem upserted_oneBinding {bindings : List MCPServerBindingRecord}
    (h : (bindings.map fun binding => (binding.mcpServerId, binding.scope)).Nodup)
    (binding : MCPServerBindingRecord) :
    ((upserted bindings binding).map fun binding =>
      (binding.mcpServerId, binding.scope)).Nodup := by
  unfold upserted
  split
  · rw [List.map_map]
    convert h using 2
    funext old
    by_cases hkey : (old.mcpServerId, old.scope) = (binding.mcpServerId, binding.scope)
    · rw [Function.comp_apply, if_pos hkey, hkey]
    · rw [Function.comp_apply, if_neg hkey]
  · rename_i hnew
    rw [List.map_cons, List.nodup_cons]
    refine ⟨fun hmem => ?_, h⟩
    obtain ⟨old, hold, hkey⟩ := List.mem_map.mp hmem
    exact hnew ⟨old, hold, hkey⟩

def Governance.upsertBinding (g : Governance) (binding : MCPServerBindingRecord) : Governance :=
  { g with
    bindings := upserted g.bindings binding
    oneBinding := upserted_oneBinding g.oneBinding binding }

theorem disableServer_enabled (serverId other : String) :
    ServerEnabled (g.disableServer serverId) other ↔ ServerEnabled g other ∧ other ≠ serverId := by
  constructor
  · rintro ⟨server, hmem, henabled, rfl⟩
    obtain ⟨old, hold, rfl⟩ := List.mem_map.mp hmem
    by_cases hid : old.mcpServerId = serverId
    · simp [hid] at henabled
    · simp only [if_neg hid] at henabled ⊢
      exact ⟨⟨old, hold, henabled, rfl⟩, hid⟩
  · rintro ⟨⟨server, hmem, henabled, rfl⟩, hid⟩
    exact ⟨server, List.mem_map.mpr ⟨server, hmem, if_neg hid⟩, henabled, rfl⟩

theorem disableServer_grants {serverId other tool : String} :
    Grants (g.disableServer serverId) scope other tool ↔
      Grants g scope other tool ∧ other ≠ serverId := by
  constructor
  · rintro ⟨binding, hmem, hscope, henabled, hserver, rfl, hpermits⟩
    obtain ⟨hserver, hid⟩ := (disableServer_enabled _ _).mp hserver
    exact ⟨⟨binding, hmem, hscope, henabled, hserver, rfl, hpermits⟩, hid⟩
  · rintro ⟨⟨binding, hmem, hscope, henabled, hserver, rfl, hpermits⟩, hid⟩
    exact ⟨binding, hmem, hscope, henabled, (disableServer_enabled _ _).mpr ⟨hserver, hid⟩, rfl,
      hpermits⟩

theorem disableServer_bound {serverId : String} (h : Bound (g.disableServer serverId) scope) :
    Bound g scope := by
  obtain ⟨binding, hmem, hscope, hserver⟩ := h
  exact ⟨binding, hmem, hscope, ((disableServer_enabled _ _).mp hserver).1⟩

/-- A scope that restricts only until the server is disabled is bound to no other enabled server. -/
theorem grants_of_released {serverId other tool : String} (h : Restricts g scope)
    (hreleased : ¬Restricts (g.disableServer serverId) scope)
    (hgrants : Grants g scope other tool) :
    other = serverId := by
  by_contra hid
  obtain ⟨binding, hmem, hscope, -, hserver, rfl, -⟩ := hgrants
  have hbound : Bound (g.disableServer serverId) scope :=
    ⟨binding, hmem, hscope, (disableServer_enabled _ _).mpr ⟨hserver, hid⟩⟩
  apply hreleased
  rcases h with hmode | ⟨hmode, -⟩
  · exact .inl hmode
  · exact .inr ⟨hmode, hbound⟩

theorem disableServer_bindingsByScope {serverId : String} :
    (reload (g.disableServer serverId)).bindingsByScope scope =
      ((reload g).bindingsByScope scope).filter (·.mcpServerId ≠ serverId) := by
  simp only [reload, (foldl_addBinding scope _).2.2.1, List.nil_append, List.filter_filter,
    Governance.disableServer]
  apply List.filter_congr
  intro binding _
  have henabled := disableServer_enabled (g := g) serverId binding.mcpServerId
  rw [← known_iff, ← known_iff] at henabled
  rw [Governance.disableServer] at henabled
  simp only [henabled]
  by_cases hscope : binding.scope = scope
  · cases binding.enabled <;> simp [hscope, Bool.and_comm]
  · simp [hscope]

/-- Without a ceiling disabling a server only closes that server. -/
theorem disableServer_legacy {context : RuntimeScopeContext} {serverId other tool : String}
    (h : Allowed (legacyResolutions context (reload (g.disableServer serverId))) other tool) :
    Allowed (legacyResolutions context (reload g)) other tool := by
  rw [legacyResolutions_allowed] at h ⊢
  obtain ⟨binding, hselected, hpermits⟩ := h
  have hid : other ≠ serverId := by
    have hmem := mem_serverBindings.mp (selectRecordForScopeOrder_mem hselected)
    rw [← hmem.2.2.2.2]
    exact ((disableServer_enabled _ _).mp hmem.2.2.2.1).2
  have hsame : serverBindings context (g.disableServer serverId) other =
      serverBindings context g other := by
    unfold serverBindings
    rw [List.filter_flatMap, List.filter_flatMap]
    congr 1
    funext scope
    simp only [disableServer_bindingsByScope, List.filter_filter]
    apply List.filter_congr
    intro binding _
    by_cases hother : binding.mcpServerId = other <;> simp [hother, hid]
  exact ⟨binding, hsame ▸ hselected, hpermits⟩

/-- The limits of the caller outlive the server: a ceiling that goes away leaves nothing to a scope
below, and a scope that no longer restricts had nothing left to hold back. -/
structure DisablingKeepsLimits (g : Governance) (context : RuntimeScopeContext)
    (serverId : String) : Prop where
  ceiling : ∀ organizationId, context.organizationId = some organizationId →
    Bound g (.organization, organizationId) →
    ¬Bound (g.disableServer serverId) (.organization, organizationId) →
    ∀ binding ∈ g.bindings, Below context binding.scope → binding.enabled = true →
      ServerEnabled g binding.mcpServerId → binding.mcpServerId = serverId
  restriction : ∀ organizationId, context.organizationId = some organizationId →
    Bound (g.disableServer serverId) (.organization, organizationId) →
    ∀ scope, Below context scope → Restricts g scope →
      ¬Restricts (g.disableServer serverId) scope →
      ∀ other tool, other ≠ serverId → Grants g (.organization, organizationId) other tool →
        ∃ limit, Below context limit ∧ Restricts (g.disableServer serverId) limit ∧
          ¬Grants g limit other tool

/-- No scope of the caller below the organization is bound to an enabled server. -/
def NothingBelow (g : Governance) (context : RuntimeScopeContext) : Prop :=
  ∀ binding ∈ g.bindings, Below context binding.scope → binding.enabled = true →
    ¬ServerEnabled g binding.mcpServerId

theorem mem_scopeChain {context : RuntimeScopeContext} (h : context.isMasterKey = false) :
    scope ∈ context.scopeChain ↔
      Below context scope ∨ ∃ id, context.organizationId = some id ∧
        scope = (.organization, id) := by
  obtain ⟨scopeType, id⟩ := scope
  unfold RuntimeScopeContext.scopeChain
  cases scopeType <;> simp [h, Below, eq_comm]

theorem hasBindings_iff {organizationId : String}
    (hid : strip organizationId = organizationId ∧ organizationId ≠ "") :
    (reload g).hasBindings .organization organizationId = true ↔
      Bound g (.organization, organizationId) := by
  unfold MCPGovernanceSnapshot.hasBindings
  rw [decide_eq_true_eq, hid.1, counted_iff]
  exact and_iff_right hid.2

theorem resolve_ceiling {context : RuntimeScopeContext} (hnorm : context.Normalized)
    (hkey : context.isMasterKey = false) {organizationId : String}
    (horg : context.organizationId = some organizationId)
    (hbound : Bound g (.organization, organizationId)) :
    resolveBindingResolutions context (reload g) =
      ceilingResolutions context (reload g) organizationId := by
  have hhas := (hasBindings_iff (hnorm.organizationId _ horg)).mpr hbound
  simp [resolveBindingResolutions, hkey, horg, hhas]

theorem resolve_legacy {context : RuntimeScopeContext} (hnorm : context.Normalized)
    (hkey : context.isMasterKey = false)
    (hbound : ∀ organizationId, context.organizationId = some organizationId →
      ¬Bound g (.organization, organizationId)) :
    resolveBindingResolutions context (reload g) = legacyResolutions context (reload g) := by
  cases horg : context.organizationId with
  | none => simp [resolveBindingResolutions, hkey, horg]
  | some organizationId =>
      have hhas := mt (hasBindings_iff (hnorm.organizationId _ horg)).mp (hbound _ horg)
      simp [resolveBindingResolutions, hkey, horg, hhas]

/-- What the caller may use under a ceiling that stays is not widened exactly if the restrictions
that go away had nothing to hold back. -/
theorem ceiling_not_widened {context : RuntimeScopeContext} (hnorm : context.Normalized)
    {organizationId serverId : String} (horg : context.organizationId = some organizationId) :
    (∀ other tool,
        Allowed (ceilingResolutions context
          (reload (g.disableServer serverId)) organizationId) other
          tool →
        Allowed (ceilingResolutions context (reload g) organizationId) other tool) ↔
      ∀ scope, Below context scope → Restricts g scope →
        ¬Restricts (g.disableServer serverId) scope →
        ∀ other tool, other ≠ serverId → Grants g (.organization, organizationId) other tool →
          ∃ limit, Below context limit ∧ Restricts (g.disableServer serverId) limit ∧
            ¬Grants g limit other tool := by
  simp only [ceilingResolutions_allowed hnorm horg, disableServer_grants]
  constructor
  · intro hkept scope hbelow hrestricts hreleased other tool hid hgrants
    by_contra hopen
    simp only [not_exists, not_and, not_not] at hopen
    have hallowed := hkept other tool ⟨⟨hgrants, hid⟩, fun limit hlimit hstill =>
      ⟨hopen limit hlimit hstill, hid⟩⟩
    exact hid (grants_of_released hrestricts hreleased (hallowed.2 scope hbelow hrestricts))
  · rintro hkept other tool ⟨⟨hgrants, hid⟩, hbelow⟩
    refine ⟨hgrants, fun scope hscope hrestricts => ?_⟩
    by_cases hstill : Restricts (g.disableServer serverId) scope
    · exact (hbelow scope hscope hstill).1
    · obtain ⟨limit, hlimit, hlimits, hrefused⟩ :=
        hkept scope hscope hrestricts hstill other tool hid hgrants
      exact absurd (hbelow limit hlimit hlimits).1 hrefused

/-- A ceiling that goes away with its last server opens exactly what the scopes below are bound
to. -/
theorem lost_ceiling_not_widened {context : RuntimeScopeContext} (hnorm : context.Normalized)
    (hkey : context.isMasterKey = false) {organizationId serverId : String}
    (horg : context.organizationId = some organizationId)
    (hlost : ¬Bound (g.disableServer serverId) (.organization, organizationId)) :
    (∀ other tool,
        Allowed (legacyResolutions context (reload (g.disableServer serverId))) other tool →
        Allowed (ceilingResolutions context (reload g) organizationId) other tool) ↔
      ∀ binding ∈ g.bindings, Below context binding.scope → binding.enabled = true →
        ServerEnabled g binding.mcpServerId → binding.mcpServerId = serverId := by
  have honly : ∀ binding ∈ g.bindings, binding.scope = (.organization, organizationId) →
      ServerEnabled g binding.mcpServerId → binding.mcpServerId = serverId := by
    intro binding hmem hscope hserver
    by_contra hid
    exact hlost ⟨binding, hmem, hscope, (disableServer_enabled _ _).mpr ⟨hserver, hid⟩⟩
  constructor
  · intro hkept binding hmem hbelow henabled hserver
    by_contra hid
    obtain ⟨tool, hallowed⟩ := (legacyResolutions_open (g := g.disableServer serverId)).mpr
      ⟨binding, hmem, (mem_scopeChain hkey).mpr (.inl hbelow), henabled,
        (disableServer_enabled _ _).mpr ⟨hserver, hid⟩, rfl⟩
    have hwas := hkept _ tool hallowed
    rw [ceilingResolutions_allowed hnorm horg] at hwas
    obtain ⟨other, hother, hscope, -, hserver', heq, -⟩ := hwas.1
    exact hid (heq ▸ honly other hother hscope hserver')
  · intro hkept other tool hallowed
    obtain ⟨binding, hmem, hscope, henabled, hserver, rfl⟩ :=
      (legacyResolutions_open (g := g.disableServer serverId)).mp ⟨tool, hallowed⟩
    obtain ⟨hserver, hid⟩ := (disableServer_enabled _ _).mp hserver
    rcases (mem_scopeChain hkey).mp hscope with hbelow | ⟨id, hid', hscope⟩
    · exact absurd (hkept binding hmem hbelow henabled hserver) hid
    · rw [horg, Option.some.injEq] at hid'
      rw [← hid'] at hscope
      exact absurd (honly binding hmem hscope hserver) hid

theorem disabling_iff {context : RuntimeScopeContext} (hnorm : context.Normalized)
    (hkey : context.isMasterKey = false) (serverId : String) :
    (∀ other tool,
        Allowed (resolveBindingResolutions context (reload (g.disableServer serverId))) other tool →
        Allowed (resolveBindingResolutions context (reload g)) other tool) ↔
      DisablingKeepsLimits g context serverId := by
  by_cases hceiling : ∃ organizationId, context.organizationId = some organizationId ∧
      Bound g (.organization, organizationId)
  · obtain ⟨organizationId, horg, hbound⟩ := hceiling
    rw [resolve_ceiling hnorm hkey horg hbound]
    by_cases hstays : Bound (g.disableServer serverId) (.organization, organizationId)
    · rw [resolve_ceiling hnorm hkey horg hstays, ceiling_not_widened hnorm horg]
      constructor
      · intro hkept
        constructor
        · intro id hid _ hlost
          rw [horg, Option.some.injEq] at hid
          exact absurd (hid ▸ hstays) hlost
        · intro id hid _
          rw [horg, Option.some.injEq] at hid
          rw [← hid]
          exact hkept
      · intro hlimits
        exact hlimits.restriction organizationId horg hstays
    · have hlegacy : ∀ id, context.organizationId = some id →
          ¬Bound (g.disableServer serverId) (.organization, id) := by
        intro id hid
        rw [horg, Option.some.injEq] at hid
        rwa [← hid]
      rw [resolve_legacy hnorm hkey hlegacy, lost_ceiling_not_widened hnorm hkey horg hstays]
      constructor
      · intro hkept
        exact ⟨fun _ _ _ _ => hkept, fun id hid hstill => absurd hstill (hlegacy id hid)⟩
      · intro hlimits
        exact hlimits.ceiling organizationId horg hbound hstays
  · have hlegacy : ∀ id, context.organizationId = some id → ¬Bound g (.organization, id) :=
      fun id hid hbound => hceiling ⟨id, hid, hbound⟩
    have hlegacy' : ∀ id, context.organizationId = some id →
        ¬Bound (g.disableServer serverId) (.organization, id) :=
      fun id hid hbound => hlegacy id hid (disableServer_bound hbound)
    rw [resolve_legacy hnorm hkey hlegacy, resolve_legacy hnorm hkey hlegacy']
    constructor
    · intro _
      exact ⟨fun id hid hbound => absurd hbound (hlegacy id hid),
        fun id hid hbound => absurd hbound (hlegacy' id hid)⟩
    · intro _ other tool hallowed
      exact disableServer_legacy hallowed

/-- A new binding below an organization leaves the organization's own as they are. -/
theorem mem_upserted {bindings : List MCPServerBindingRecord}
    {binding other : MCPServerBindingRecord} (h : other.scope ≠ binding.scope) :
    other ∈ upserted bindings binding ↔ other ∈ bindings := by
  unfold upserted
  split
  · rw [List.mem_map]
    constructor
    · rintro ⟨old, hold, rfl⟩
      by_cases hkey : (old.mcpServerId, old.scope) = (binding.mcpServerId, binding.scope)
      · rw [if_pos hkey] at h
        exact absurd rfl h
      · rwa [if_neg hkey]
    · intro hmem
      refine ⟨other, hmem, if_neg fun hkey => h (Prod.mk.inj hkey).2⟩
  · rw [List.mem_cons]
    constructor
    · rintro (rfl | hmem)
      · exact absurd rfl h
      · exact hmem
    · exact .inr

theorem upsertBinding_bound {binding : MCPServerBindingRecord} (h : scope ≠ binding.scope) :
    Bound (g.upsertBinding binding) scope ↔ Bound g scope := by
  constructor
  · rintro ⟨other, hmem, rfl, hserver⟩
    exact ⟨other, (mem_upserted h).mp hmem, rfl, hserver⟩
  · rintro ⟨other, hmem, rfl, hserver⟩
    exact ⟨other, (mem_upserted h).mpr hmem, rfl, hserver⟩

theorem upsertBinding_grants {binding : MCPServerBindingRecord} {serverId tool : String}
    (h : scope ≠ binding.scope) (hgrants : Grants (g.upsertBinding binding) scope serverId tool) :
    Grants g scope serverId tool := by
  obtain ⟨other, hmem, rfl, hrest⟩ := hgrants
  exact ⟨other, (mem_upserted h).mp hmem, rfl, hrest⟩

theorem adding_iff {context : RuntimeScopeContext} (hnorm : context.Normalized)
    (hkey : context.isMasterKey = false) {organizationId : String}
    (horg : context.organizationId = some organizationId) {binding : MCPServerBindingRecord}
    (hscope : binding.scope.1 ≠ .organization) :
    (∀ serverId tool,
        Allowed (resolveBindingResolutions context
          (reload (g.upsertBinding binding))) serverId tool →
        Grants g (.organization, organizationId) serverId tool) ↔
      Bound g (.organization, organizationId) ∨ NothingBelow (g.upsertBinding binding) context := by
  have hother : (ScopeType.organization, organizationId) ≠ binding.scope :=
    fun heq => hscope (congrArg Prod.fst heq.symm)
  by_cases hbound : Bound g (.organization, organizationId)
  · rw [resolve_ceiling hnorm hkey horg ((upsertBinding_bound hother).mpr hbound)]
    refine iff_of_true (fun serverId tool hallowed => ?_) (.inl hbound)
    exact upsertBinding_grants hother ((ceilingResolutions_allowed hnorm horg).mp hallowed).1
  · have hlegacy : ∀ id, context.organizationId = some id →
        ¬Bound (g.upsertBinding binding) (.organization, id) := by
      intro id hid
      rw [horg, Option.some.injEq] at hid
      rwa [← hid, upsertBinding_bound hother]
    have hnone : ∀ serverId tool, ¬Grants g (.organization, organizationId) serverId tool := by
      rintro serverId tool ⟨other, hmem, heq, -, hserver, -⟩
      exact hbound ⟨other, hmem, heq, hserver⟩
    rw [resolve_legacy hnorm hkey hlegacy, or_iff_right hbound]
    constructor
    · intro hkept other hmem hbelow henabled hserver
      obtain ⟨tool, hallowed⟩ := (legacyResolutions_open (g := g.upsertBinding binding)).mpr
        ⟨other, hmem, (mem_scopeChain hkey).mpr (.inl hbelow), henabled, hserver, rfl⟩
      exact hnone _ _ (hkept _ tool hallowed)
    · intro hnothing serverId tool hallowed
      obtain ⟨other, hmem, hchain, henabled, hserver, -⟩ :=
        (legacyResolutions_open (g := g.upsertBinding binding)).mp ⟨tool, hallowed⟩
      rcases (mem_scopeChain hkey).mp hchain with hbelow | ⟨id, hid, heq⟩
      · exact absurd hserver (hnothing other hmem hbelow henabled)
      · exact absurd ⟨other, hmem, heq, hserver⟩ (hlegacy id hid)

theorem resolve_masterKey {context : RuntimeScopeContext} (hkey : context.isMasterKey = true) :
    resolveBindingResolutions context snapshot = [] := by
  simp [resolveBindingResolutions, hkey]

/-- Disabling a server widens nothing exactly where the limits outlive it, and a new binding below
the organization opens nothing else exactly where a binding of the organization is to an enabled
server, or the scopes below are bound to none. -/
theorem access_never_widened_iff (textOf : JsonValue → String) (auth : UserAPIKeyAuth)
    (g : Governance) :
    let context := resolveRuntimeScopeContext textOf auth
    (∀ serverId,
      (∀ other tool,
        Allowed (resolveBindingResolutions context (reload (g.disableServer serverId))) other tool →
          Allowed (resolveBindingResolutions context (reload g)) other tool) ↔
        context.isMasterKey = true ∨ DisablingKeepsLimits g context serverId) ∧
    ∀ organizationId binding, context.organizationId = some organizationId →
      (∃ ceiling ∈ g.bindings, ceiling.scope = (.organization, organizationId)) →
      binding.scope.1 ≠ .organization →
      ((∀ serverId tool,
        Allowed (resolveBindingResolutions context
          (reload (g.upsertBinding binding))) serverId tool →
          Grants g (.organization, organizationId) serverId tool) ↔
        context.isMasterKey = true ∨ Bound g (.organization, organizationId) ∨
          NothingBelow (g.upsertBinding binding) context) := by
  intro context
  have hnorm : context.Normalized := resolve_normalized textOf auth
  by_cases hkey : context.isMasterKey = true
  · have hnone : ∀ serverId tool, ¬Allowed [] serverId tool :=
      fun serverId tool ⟨_, hmem, _⟩ => absurd hmem List.not_mem_nil
    simp only [resolve_masterKey hkey, hkey, hnone, false_imp_iff, implies_true, true_or, and_self]
  · rw [Bool.not_eq_true] at hkey
    constructor
    · intro serverId
      rw [disabling_iff hnorm hkey]
      simp [hkey]
    · intro organizationId binding horg _ hscope
      rw [adding_iff hnorm hkey horg hscope]
      simp [hkey]

namespace OperationsTeam

/-- A key of a team of the organization. -/
def operator : UserAPIKeyAuth where
  apiKey := some "key-1"
  userId := none
  teamId := some "operations"
  organizationId := some "acme"
  metadata := []

def textOf : JsonValue → String := fun _ => ""

def git : MCPServerRecord := ⟨"git", true⟩

def shell : MCPServerRecord := ⟨"shell", true⟩

def organizationGit : MCPServerBindingRecord := ⟨"git", (.organization, "acme"), true, none⟩

def teamShell : MCPServerBindingRecord := ⟨"shell", (.team, "operations"), true, none⟩

/-- The organization may use git, and the team is bound to a shell that the organization is not. -/
def governed : Governance where
  servers := [git, shell]
  bindings := [organizationGit, teamShell]
  policies := []
  oneBinding := by decide

/-- The organization's only server is disabled. -/
def suspended : Governance where
  servers := [⟨"git", false⟩, shell]
  bindings := [organizationGit]
  policies := []
  oneBinding := by decide

def context : RuntimeScopeContext := resolveRuntimeScopeContext textOf operator

theorem governed_allows_nothing : resolveBindingResolutions context (reload governed) = [] := by
  decide

theorem disabled_allows_shell :
    resolveBindingResolutions context (reload (governed.disableServer "git")) =
      [teamShell.resolution] := by
  decide

theorem added_allows_shell :
    resolveBindingResolutions context (reload (suspended.upsertBinding teamShell)) =
      [teamShell.resolution] := by
  decide

theorem shell_allowed : Allowed [teamShell.resolution] "shell" "run" :=
  ⟨_, List.mem_singleton.mpr rfl, rfl, fun _ hnames => by cases hnames⟩

end OperationsTeam

open OperationsTeam in
theorem access_never_widened_suspended :
    (∀ serverId tool,
        Allowed (resolveBindingResolutions context (reload (suspended.upsertBinding teamShell)))
          serverId tool →
        Grants suspended (.organization, "acme") serverId tool) ↔
      context.isMasterKey = true ∨ Bound suspended (.organization, "acme") ∨
        NothingBelow (suspended.upsertBinding teamShell) context :=
  (access_never_widened_iff textOf operator suspended).2 "acme" teamShell (by decide)
    ⟨organizationGit, List.mem_singleton.mpr rfl, rfl⟩ (by decide)

open OperationsTeam in
/-- Disabling git opens the shell to the team, and so does binding the team to it while git, the
only server of the organization, is disabled. -/
theorem disabling_git_opens_shell :
    (¬∀ other tool,
        Allowed (resolveBindingResolutions context (reload (governed.disableServer "git"))) other
          tool →
        Allowed (resolveBindingResolutions context (reload governed)) other tool) ∧
      ¬∀ serverId tool,
        Allowed (resolveBindingResolutions context (reload (suspended.upsertBinding teamShell)))
          serverId tool →
        Grants suspended (.organization, "acme") serverId tool := by
  constructor
  · intro hkept
    have hallowed := hkept "shell" "run"
    rw [disabled_allows_shell, governed_allows_nothing] at hallowed
    obtain ⟨resolution, hmem, -⟩ := hallowed shell_allowed
    exact absurd hmem List.not_mem_nil
  · intro hkept
    have hallowed := hkept "shell" "run"
    rw [added_allows_shell] at hallowed
    obtain ⟨binding, hmem, -, -, -, hserver, -⟩ := hallowed shell_allowed
    rw [List.mem_singleton.mp hmem] at hserver
    exact absurd hserver (by decide)

end McpGovernance
