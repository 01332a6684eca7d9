import DeltaLLM.CallableTargetGrants

/-! # The asset visibility preview

What an administrator is shown of a caller's access: every target and route group that some scope
mentions, where it comes from, and whether it is visible in effect.
-/
namespace AssetVisibility

open JsonValues PythonText Dictionaries CallableTargets RuntimeScopes CallableTargetGrants

/-- A route group with the scope that owns it. -/
structure RouteGroupRecord where
  groupKey : String
  ownerScopeType : Option String
  ownerScopeId : Option String
  enabled : Bool

inductive SourceKind where
  | owned | grant
  deriving DecidableEq, Repr

structure Source where
  scope : Scope
  kind : SourceKind
  enabled : Bool
  metadata : Option JsonObject
  accessGroupKey : Option String

inductive VisibilitySource where
  | granted | owned | ownedAndGranted | inherited | inheritedAndGranted
  deriving DecidableEq, Repr

/-- An item of the preview; an owner is known of route groups only. -/
structure Item where
  key : String
  targetType : TargetType
  ownerScopeType : Option String
  ownerScopeId : Option String
  effectiveEnabled : Bool
  effectiveVisible : Bool
  visibilitySource : VisibilitySource
  sources : List Source

/-- One source to be added to the item of a key. -/
structure Addition where
  key : String
  targetType : TargetType
  ownerScopeType : Option String
  ownerScopeId : Option String
  source : Source

/-- `_add_route_group_source` and `_add_callable_target_source`: a new item starts without sources,
and a known owner is written over. -/
def addSource (items : Dict String Item) (addition : Addition) : Dict String Item :=
  let item := (items.get? addition.key).getD
    ⟨addition.key, addition.targetType, addition.ownerScopeType, addition.ownerScopeId, false,
      false, .granted, []⟩
  items.set addition.key
    { item with
      ownerScopeType := addition.ownerScopeType.or item.ownerScopeType
      ownerScopeId := addition.ownerScopeId.or item.ownerScopeId
      effectiveEnabled := item.effectiveEnabled || addition.source.enabled
      sources := item.sources ++ [addition.source] }

/-- `_has_source`. -/
def hasSource (item : Item) (scopeType : ScopeType) (kind : Option SourceKind) : Bool :=
  item.sources.any fun source =>
    source.scope.1 = scopeType ∧ (kind.all (· = source.kind)) ∧ source.enabled

/-- `_apply_effective_visibility`. -/
def effectiveVisibility (item : Item) (teamMode apiKeyMode userMode : Option String) : Bool :=
  let orgVisible := hasSource item .organization none
  let teamVisible :=
    if teamMode = some "restrict" then orgVisible && hasSource item .team (some .grant)
    else orgVisible
  let keyVisible :=
    if apiKeyMode = some "restrict" then teamVisible && hasSource item .apiKey (some .grant)
    else teamVisible
  let userVisible :=
    if userMode = some "restrict" then keyVisible && hasSource item .user (some .grant)
    else keyVisible
  if userMode.isSome then userVisible
  else if apiKeyMode.isSome then keyVisible
  else if teamMode.isSome then teamVisible
  else orgVisible

/-- `_summarize_route_group_visibility`; targets are never owned. -/
def summarizeVisibility (item : Item) (direct : ScopeType) : VisibilitySource :=
  let hasOwned := item.sources.any (·.kind = .owned)
  let hasGrant := item.sources.any (·.kind = .grant)
  let hasDirect := item.sources.any (·.scope.1 = direct)
  let hasInherited := item.sources.any (·.scope.1 ≠ direct)
  if direct = .organization then
    if hasOwned && hasGrant then .ownedAndGranted
    else if hasOwned then .owned
    else .granted
  else if hasDirect && hasInherited then .inheritedAndGranted
  else if hasInherited then .inherited
  else .granted

/-- The order in which a scope's text sorts. -/
def scopeText : ScopeType → String
  | .organization => "organization"
  | .team => "team"
  | .apiKey => "api_key"
  | .user => "user"

def kindText : SourceKind → String
  | .owned => "owned"
  | .grant => "grant"

def sourceBefore (a b : Source) : Bool :=
  [scopeText a.scope.1, a.scope.2, kindText a.kind] ≤
    [scopeText b.scope.1, b.scope.2, kindText b.kind]

variable (g : Governance) (routeGroups : List RouteGroupRecord)

/-- `list_bindings` of a scope; an empty identifier asks for every scope of the type. -/
def isListed (scopeType : ScopeType) (scopeId : String) (scope : Scope) : Bool :=
  scope.1 = scopeType ∧ (scopeId = "" ∨ scope.2 = scopeId)

/-- `list_bindings` of the access groups, which are stored under the stripped identifier. -/
def isGroupListed (scopeType : ScopeType) (scopeId : String) (scope : Scope) : Bool :=
  scope.1 = scopeType ∧ (scopeId = "" ∨ scope.2 = strip scopeId)

/-- `get_scope_callable_target_policy_mode`. -/
def policyMode (scopeType : ScopeType) (scopeId : Option String) : Option String :=
  match scopeId with
  | none => none
  | some id =>
      if id = "" then none
      else
        (g.policies.find? (isListed scopeType id ·.scope)).map fun policy =>
          if policy.mode = "" then "inherit" else policy.mode

/-- `_target_for_callable_key`. -/
def targetTypeOf (callableKey : String) : TargetType :=
  match g.catalog.get? callableKey with
  | some target => target.targetType
  | none =>
      if routeGroups.any fun group => strip group.groupKey ≠ "" ∧ group.groupKey = callableKey then
        .routeGroup
      else .model

/-- What one binding of a scope adds for a target. -/
def grantAddition (scope : Scope) (callableKey : String) (enabled : Bool)
    (metadata : Option JsonObject) (accessGroupKey : Option String) : Addition :=
  let group := routeGroups.reverse.find? fun group =>
    strip group.groupKey ≠ "" ∧ group.groupKey = callableKey
  { key := callableKey
    targetType := targetTypeOf g routeGroups callableKey
    ownerScopeType := group.bind (·.ownerScopeType)
    ownerScopeId := group.bind (·.ownerScopeId)
    source := ⟨scope, .grant, enabled, metadata, accessGroupKey⟩ }

/-- `_apply_scope_callable_target_bindings` and `_apply_scope_access_group_bindings` of one
scope. -/
def scopeAdditions (scopeType : ScopeType) (scopeId : String) : List Addition :=
  ((g.bindings.filter (isListed scopeType scopeId ·.scope)).filter (·.callableKey ≠ "")).map
      (fun binding => grantAddition g routeGroups (scopeType, scopeId) binding.callableKey
        binding.enabled binding.metadata none) ++
    ((g.groupBindings.filter (isGroupListed scopeType scopeId ·.scope)).filter
        (·.groupKey ≠ "")).flatMap
      fun binding =>
        (sorted (callableKeysByAccessGroup g.catalog binding.groupKey)).map fun callableKey =>
          grantAddition g routeGroups (scopeType, scopeId) callableKey binding.enabled
            binding.metadata (some binding.groupKey)

/-- The scopes that a preview covers. -/
def previewScopes (organizationId : String) (teamId apiKeyId userId : Option String) : List Scope :=
  [(.organization, organizationId)] ++ (teamId.map (ScopeType.team, ·)).toList ++
    (apiKeyId.map (ScopeType.apiKey, ·)).toList ++ (userId.map (ScopeType.user, ·)).toList

/-- What all scopes add. -/
def grantedAdditions (scopes : List Scope) : List Addition :=
  scopes.flatMap fun scope => scopeAdditions g routeGroups scope.1 scope.2

/-- A target's item knows no owner. -/
def callableAddition (addition : Addition) : Addition :=
  { addition with ownerScopeType := none, ownerScopeId := none }

/-- A route group's item does not say through which access group it was granted. -/
def routeGroupAddition (addition : Addition) : Addition :=
  { addition with source := { addition.source with accessGroupKey := none } }

/-- `list_owned_route_groups` as additions. -/
def ownedAdditions (organizationId : String) : List Addition :=
  (routeGroups.filter fun group =>
    group.ownerScopeType = some "organization" ∧ group.ownerScopeId = some organizationId).map
      fun group =>
        { key := group.groupKey
          targetType := .routeGroup
          ownerScopeType := group.ownerScopeType
          ownerScopeId := group.ownerScopeId
          source := ⟨(.organization, organizationId), .owned, group.enabled, none, none⟩ }

/-- An item once all sources are known. -/
def finishItem (direct : ScopeType) (teamMode apiKeyMode userMode : Option String) (item : Item) :
    Item :=
  { item with
    visibilitySource := summarizeVisibility item direct
    effectiveVisible := effectiveVisibility item teamMode apiKeyMode userMode
    sources := item.sources.mergeSort sourceBefore }

/-- The mode of the user's policy, else a restriction where the user has bindings. -/
def implicitMode (policyMode : Option String) (bound : Bool) : Option String :=
  policyMode.or (if bound then some "restrict" else none)

structure Preview where
  organizationId : String
  teamId : Option String
  apiKeyId : Option String
  userId : Option String
  directScope : Scope
  teamPolicy : String
  apiKeyPolicy : String
  userPolicy : String
  routeGroups : List Item
  callableTargets : List Item

/-- `build_asset_visibility_preview` without the page of access groups; a given identifier is not
empty. -/
def buildAssetVisibilityPreview (organizationId : String) (teamId apiKeyId userId : Option String) :
    Preview :=
  let scopes := previewScopes organizationId teamId apiKeyId userId
  let granted := grantedAdditions g routeGroups scopes
  let userBindings := g.bindings.filter fun binding =>
    userId.any fun id => isListed .user id binding.scope
  let userGroupBindings := g.groupBindings.filter fun binding =>
    userId.any fun id => isGroupListed .user id binding.scope
  let userRouteGroupBindings := userBindings.filter fun binding =>
    targetTypeOf g routeGroups binding.callableKey = .routeGroup
  let teamMode := policyMode g .team teamId
  let apiKeyMode := policyMode g .apiKey apiKeyId
  let userPolicyMode := policyMode g .user userId
  let userRouteGroupMode := implicitMode userPolicyMode
    (!userRouteGroupBindings.isEmpty || !userGroupBindings.isEmpty)
  let userCallableTargetMode := implicitMode userPolicyMode
    (!userBindings.isEmpty || !userGroupBindings.isEmpty)
  let direct := scopes.getLastD (.organization, organizationId)
  let routeGroupItems := (ownedAdditions routeGroups organizationId ++
    (granted.filter (·.targetType = .routeGroup)).map routeGroupAddition).foldl addSource []
  let callableItems := (granted.map callableAddition).foldl addSource []
  { organizationId, teamId, apiKeyId, userId
    directScope := direct
    teamPolicy := teamMode.getD "inherit"
    apiKeyPolicy := apiKeyMode.getD "inherit"
    userPolicy := userCallableTargetMode.getD "inherit"
    routeGroups :=
      (routeGroupItems.map fun entry =>
        finishItem direct.1 teamMode apiKeyMode userRouteGroupMode entry.2).mergeSort
          fun a b => a.key ≤ b.key
    callableTargets :=
      (callableItems.map fun entry =>
        finishItem direct.1 teamMode apiKeyMode userCallableTargetMode entry.2).mergeSort
          fun a b => a.key ≤ b.key }

variable {g : Governance} {routeGroups : List RouteGroupRecord}

/-! ## The sources of an item -/

/-- The sources that the item of a key has so far. -/
def sourcesOf (items : Dict String Item) (key : String) : List Source :=
  ((items.get? key).map (·.sources)).getD []

/-- Items are stored under their own key, each once. -/
structure Keyed (items : Dict String Item) : Prop where
  nodup : (items.map Prod.fst).Nodup
  key : ∀ key item, items.get? key = some item → item.key = key

theorem addSource_keyed {items : Dict String Item} (h : Keyed items) (addition : Addition) :
    Keyed (addSource items addition) := by
  constructor
  · exact Dict.nodup_set h.nodup _ _
  · intro key item hitem
    simp only [addSource, Dict.get?_set] at hitem
    by_cases hkey : addition.key = key
    · rw [if_pos hkey] at hitem
      obtain rfl := Option.some.inj hitem
      cases hold : items.get? addition.key with
      | none => simpa [hold] using hkey
      | some old => simpa [hold, hkey] using h.key _ old (hkey ▸ hold)
    · rw [if_neg hkey] at hitem
      exact h.key key item hitem

theorem sourcesOf_addSource (items : Dict String Item) (addition : Addition) (key : String) :
    sourcesOf (addSource items addition) key =
      sourcesOf items key ++ if addition.key = key then [addition.source] else [] := by
  simp only [sourcesOf, addSource, Dict.get?_set]
  by_cases hkey : addition.key = key
  · subst hkey
    cases items.get? addition.key <;> simp
  · simp [hkey]

theorem foldl_addSource (additions : List Addition) {items : Dict String Item} (h : Keyed items) :
    Keyed (additions.foldl addSource items) ∧
      ∀ key, sourcesOf (additions.foldl addSource items) key =
        sourcesOf items key ++ (additions.filter (·.key = key)).map (·.source) := by
  induction additions generalizing items with
  | nil => exact ⟨h, fun key => by simp⟩
  | cons addition additions ih =>
      obtain ⟨hkeyed, hsources⟩ := ih (addSource_keyed h addition)
      refine ⟨hkeyed, fun key => ?_⟩
      rw [List.foldl_cons, hsources, sourcesOf_addSource, List.append_assoc, List.filter_cons]
      by_cases hkey : addition.key = key <;> simp [hkey]

/-- Every item of a fold has the sources that were added under its key. -/
theorem item_sources {additions : List Addition} {entry : String × Item}
    (h : entry ∈ additions.foldl addSource []) :
    entry.2.sources = (additions.filter (·.key = entry.2.key)).map (·.source) := by
  have hempty : Keyed [] := ⟨List.nodup_nil, fun _ _ hitem => by cases hitem⟩
  obtain ⟨hkeyed, hsources⟩ := foldl_addSource additions hempty
  have hget := Dict.get?_of_mem hkeyed.nodup (show (entry.1, entry.2) ∈ _ from h)
  have hkey := hkeyed.key _ _ hget
  have hentry := hsources entry.1
  simpa [sourcesOf, hget, hkey, Dict.get?] using hentry

/-- An item has a source of a kind if an addition under its key brought one. -/
theorem hasSource_iff {additions : List Addition} {entry : String × Item}
    (h : entry ∈ additions.foldl addSource []) (scopeType : ScopeType) (kind : Option SourceKind) :
    hasSource entry.2 scopeType kind = true ↔
      ∃ addition ∈ additions, addition.key = entry.2.key ∧ addition.source.scope.1 = scopeType ∧
        (kind.all (· = addition.source.kind)) = true ∧ addition.source.enabled = true := by
  unfold hasSource
  rw [item_sources h, List.any_eq_true]
  constructor
  · rintro ⟨source, hsource, hholds⟩
    obtain ⟨addition, haddition, rfl⟩ := List.mem_map.mp hsource
    obtain ⟨hmem, hkey⟩ := List.mem_filter.mp haddition
    exact ⟨addition, hmem, by simpa using hkey, by simpa using hholds⟩
  · rintro ⟨addition, hmem, hkey, hholds⟩
    refine ⟨addition.source,
      List.mem_map_of_mem (List.mem_filter.mpr ⟨hmem, by simpa using hkey⟩), ?_⟩
    simpa using hholds

theorem effectiveVisibility_iff {item : Item} {teamMode apiKeyMode userMode : Option String} :
    effectiveVisibility item teamMode apiKeyMode userMode = true ↔
      hasSource item .organization none = true ∧
        (teamMode = some "restrict" → hasSource item .team (some .grant) = true) ∧
        (apiKeyMode = some "restrict" → hasSource item .apiKey (some .grant) = true) ∧
        (userMode = some "restrict" → hasSource item .user (some .grant) = true) := by
  unfold effectiveVisibility
  cases teamMode <;> cases apiKeyMode <;> cases userMode <;> grind

/-! ## What a scope adds -/

/-- What a scope grants as the preview looks it up, the access groups under the stripped
identifier. -/
def ScopeGrants (g : Governance) (scope : Scope) (callableKey : String) : Prop :=
  (∃ binding ∈ g.bindings, binding.scope = scope ∧ binding.enabled = true ∧
      binding.callableKey = callableKey) ∨
    ∃ binding ∈ g.groupBindings, binding.scope = (scope.1, strip scope.2) ∧
      binding.enabled = true ∧ callableKey ∈ callableKeysByAccessGroup g.catalog binding.groupKey

/-- Whether the preview finds a binding of the scope, enabled or not. -/
def ScopeConfigured (g : Governance) (scope : Scope) : Prop :=
  (∃ binding ∈ g.bindings, binding.scope = scope) ∨
    ∃ binding ∈ g.groupBindings, binding.scope = (scope.1, strip scope.2)

theorem scopeGrants_iff {scope : Scope} (h : strip scope.2 = scope.2) (callableKey : String) :
    ScopeGrants g scope callableKey ↔ Granted g scope callableKey := by
  unfold ScopeGrants Granted
  rw [h]

theorem scopeConfigured_iff {scope : Scope} (h : strip scope.2 = scope.2) :
    ScopeConfigured g scope ↔ Configured g scope := by
  unfold ScopeConfigured Configured
  rw [h]

theorem isListed_iff {scopeType : ScopeType} {scopeId : String} (h : scopeId ≠ "") (scope : Scope) :
    isListed scopeType scopeId scope = true ↔ scope = (scopeType, scopeId) := by
  simp [isListed, h, Prod.ext_iff]

theorem isGroupListed_iff {scopeType : ScopeType} {scopeId : String} (h : scopeId ≠ "")
    (scope : Scope) :
    isGroupListed scopeType scopeId scope = true ↔ scope = (scopeType, strip scopeId) := by
  simp [isGroupListed, h, Prod.ext_iff]

/-- Everything a scope adds is a grant of that scope. -/
theorem scopeAdditions_grant {scopeType : ScopeType} {scopeId : String} {addition : Addition}
    (h : addition ∈ scopeAdditions g routeGroups scopeType scopeId) :
    addition.source.scope = (scopeType, scopeId) ∧ addition.source.kind = .grant ∧
      addition.targetType = targetTypeOf g routeGroups addition.key ∧ addition.key ≠ "" := by
  rcases List.mem_append.mp h with hbound | hgrouped
  · obtain ⟨binding, hbinding, rfl⟩ := List.mem_map.mp hbound
    have hkey := (List.mem_filter.mp hbinding).2
    exact ⟨rfl, rfl, rfl, by simpa [grantAddition] using hkey⟩
  · obtain ⟨binding, -, hmem⟩ := List.mem_flatMap.mp hgrouped
    obtain ⟨callableKey, hcallable, rfl⟩ := List.mem_map.mp hmem
    exact ⟨rfl, rfl, rfl, callableKey_ne_empty (mem_sorted.mp hcallable)⟩

variable (routeGroups) in
/-- A scope adds an enabled source for a key exactly if it grants the key. -/
theorem scopeAdditions_iff {scopeType : ScopeType} {scopeId : String} (hid : scopeId ≠ "")
    (callableKey : String) :
    (∃ addition ∈ scopeAdditions g routeGroups scopeType scopeId,
        addition.key = callableKey ∧ addition.source.enabled = true) ↔
      callableKey ≠ "" ∧ ScopeGrants g (scopeType, scopeId) callableKey := by
  constructor
  · rintro ⟨addition, hmem, rfl, henabled⟩
    refine ⟨(scopeAdditions_grant hmem).2.2.2, ?_⟩
    rcases List.mem_append.mp hmem with hbound | hgrouped
    · obtain ⟨binding, hbinding, rfl⟩ := List.mem_map.mp hbound
      obtain ⟨hbinding, -⟩ := List.mem_filter.mp hbinding
      obtain ⟨hbinding, hlisted⟩ := List.mem_filter.mp hbinding
      exact .inl ⟨binding, hbinding, (isListed_iff hid _).mp hlisted, henabled, rfl⟩
    · obtain ⟨binding, hbinding, hmem⟩ := List.mem_flatMap.mp hgrouped
      obtain ⟨callableKey, hcallable, rfl⟩ := List.mem_map.mp hmem
      obtain ⟨hbinding, -⟩ := List.mem_filter.mp hbinding
      obtain ⟨hbinding, hlisted⟩ := List.mem_filter.mp hbinding
      exact .inr ⟨binding, hbinding, (isGroupListed_iff hid _).mp hlisted, henabled,
        mem_sorted.mp hcallable⟩
  · rintro ⟨hkey, ⟨binding, hbinding, hscope, henabled, rfl⟩ |
      ⟨binding, hbinding, hscope, henabled, hcallable⟩⟩
    · refine ⟨grantAddition g routeGroups (scopeType, scopeId) binding.callableKey binding.enabled
        binding.metadata none, List.mem_append_left _ (List.mem_map_of_mem ?_), rfl, henabled⟩
      simp [hbinding, hkey, (isListed_iff hid _).mpr hscope]
    · have hgroup : binding.groupKey ≠ "" := by
        intro hempty
        rw [hempty] at hcallable
        simp only [callableKeysByAccessGroup, List.mem_toFinset, List.mem_map, List.mem_filter,
          decide_eq_true_eq] at hcallable
        obtain ⟨entry, ⟨hentry, -, hnamed⟩, -⟩ := hcallable
        exact (g.named entry hentry).2 hnamed
      refine ⟨grantAddition g routeGroups (scopeType, scopeId) callableKey binding.enabled
        binding.metadata (some binding.groupKey), List.mem_append_right _
          (List.mem_flatMap.mpr ⟨binding, ?_, List.mem_map_of_mem (mem_sorted.mpr hcallable)⟩),
        rfl, henabled⟩
      simp [hbinding, hgroup, (isGroupListed_iff hid _).mpr hscope]

variable (routeGroups) in
/-- Among the additions of the caller's scopes a type of scope has one for a key exactly if the
caller's scope of that type grants it. -/
theorem grantedAdditions_iff {scopes : List Scope} (hid : ∀ scope ∈ scopes, scope.2 ≠ "")
    (scopeType : ScopeType) {callableKey : String} (hkey : callableKey ≠ "") :
    (∃ addition ∈ grantedAdditions g routeGroups scopes, addition.key = callableKey ∧
        addition.source.scope.1 = scopeType ∧ addition.source.enabled = true) ↔
      ∃ id, (scopeType, id) ∈ scopes ∧ ScopeGrants g (scopeType, id) callableKey := by
  constructor
  · rintro ⟨addition, hmem, rfl, rfl, henabled⟩
    obtain ⟨⟨type, id⟩, hscope, hadded⟩ := List.mem_flatMap.mp hmem
    rw [(scopeAdditions_grant hadded).1]
    exact ⟨id, hscope,
      ((scopeAdditions_iff routeGroups (hid _ hscope) _).mp ⟨addition, hadded, rfl, henabled⟩).2⟩
  · rintro ⟨id, hscope, hgranted⟩
    obtain ⟨addition, hadded, rfl, henabled⟩ :=
      (scopeAdditions_iff routeGroups (hid _ hscope) _).mpr ⟨hkey, hgranted⟩
    exact ⟨addition, List.mem_flatMap.mpr ⟨_, hscope, hadded⟩, rfl,
      by rw [(scopeAdditions_grant hadded).1], henabled⟩

theorem keys_addSource {additions : List Addition} {items : Dict String Item} {key : String}
    (h : key ∈ (additions.foldl addSource items).map Prod.fst) :
    key ∈ items.map Prod.fst ∨ ∃ addition ∈ additions, addition.key = key := by
  induction additions generalizing items with
  | nil => exact .inl h
  | cons addition additions ih =>
      rcases ih h with hkey | ⟨later, hlater, hkey⟩
      · rcases Dict.mem_keys_set.mp hkey with rfl | hkey
        · exact .inr ⟨addition, List.mem_cons_self, rfl⟩
        · exact .inl hkey
      · exact .inr ⟨later, List.mem_cons_of_mem _ hlater, hkey⟩

theorem item_added {additions : List Addition} {entry : String × Item}
    (h : entry ∈ additions.foldl addSource []) :
    ∃ addition ∈ additions, addition.key = entry.2.key := by
  have hempty : Keyed [] := ⟨List.nodup_nil, fun _ _ hitem => by cases hitem⟩
  have hkeyed := (foldl_addSource additions hempty).1
  have hkey := hkeyed.key _ _ (Dict.get?_of_mem hkeyed.nodup (show (entry.1, entry.2) ∈ _ from h))
  rcases keys_addSource (List.mem_map_of_mem h) with hnone | hadded
  · cases hnone
  · rwa [hkey]

theorem exists_item {additions : List Addition} {addition : Addition} (h : addition ∈ additions) :
    ∃ entry ∈ additions.foldl addSource [], entry.2.key = addition.key := by
  have hempty : Keyed [] := ⟨List.nodup_nil, fun _ _ hitem => by cases hitem⟩
  obtain ⟨hkeyed, hsources⟩ := foldl_addSource additions hempty
  cases hget : Dict.get? (additions.foldl addSource []) addition.key with
  | none =>
      have hadded : addition.source ∈
          (additions.filter (·.key = addition.key)).map (·.source) :=
        List.mem_map_of_mem (List.mem_filter.mpr ⟨h, by simp⟩)
      have hnone : (additions.filter (·.key = addition.key)).map (·.source) = [] := by
        simpa [sourcesOf, hget, Dict.get?] using (hsources addition.key).symm
      rw [hnone] at hadded
      cases hadded
  | some item => exact ⟨(addition.key, item), Dict.mem_of_get? hget, hkeyed.key _ _ hget⟩

/-! ## Preview and enforcement -/

section

variable {organizationId : String} {teamId apiKeyId userId : Option String}

theorem mem_previewScopes {scopeType : ScopeType} {id : String} :
    (scopeType, id) ∈ previewScopes organizationId teamId apiKeyId userId ↔
      match scopeType with
      | .organization => id = organizationId
      | .team => teamId = some id
      | .apiKey => apiKeyId = some id
      | .user => userId = some id := by
  unfold previewScopes
  cases scopeType <;> simp [eq_comm]

theorem policyMode_restrict (scopeType : ScopeType) {scopeId : Option String}
    (hid : ∀ id, scopeId = some id → id ≠ "") :
    policyMode g scopeType scopeId = some "restrict" ↔
      ∃ id, scopeId = some id ∧ modeOf g (scopeType, id) = some "restrict" := by
  unfold policyMode modeOf
  cases scopeId with
  | none => simp
  | some id =>
      have hne := hid id rfl
      have hfind : g.policies.find? (isListed scopeType id ·.scope) =
          g.policies.find? (·.scope = (scopeType, id)) := by
        congr 1
        funext policy
        exact Bool.eq_iff_iff.mpr (by rw [isListed_iff hne]; simp)
      simp only [if_neg hne, hfind, Option.some.injEq, exists_eq_left']
      cases g.policies.find? (·.scope = (scopeType, id)) with
      | none => simp
      | some policy =>
          by_cases hmode : policy.mode = ""
          · simp [hmode]
          · simp [hmode]

theorem policyMode_none (scopeType : ScopeType) {id : String} (hid : id ≠ "") :
    policyMode g scopeType (some id) = none ↔ modeOf g (scopeType, id) = none := by
  unfold policyMode modeOf
  have hfind : g.policies.find? (isListed scopeType id ·.scope) =
      g.policies.find? (·.scope = (scopeType, id)) := by
    congr 1
    funext policy
    exact Bool.eq_iff_iff.mpr (by rw [isListed_iff hid]; simp)
  simp only [if_neg hid, hfind, Option.map_eq_none_iff]

/-- A binding of the user narrows what the user sees only where there is no policy. -/
theorem implicitMode_restrict {bound : Bool} {id : String} (hid : id ≠ "") :
    implicitMode (policyMode g .user (some id)) bound = some "restrict" ↔
      modeOf g (.user, id) = some "restrict" ∨ modeOf g (.user, id) = none ∧ bound = true := by
  have hsome : ∀ userId, some id = some userId → userId ≠ "" :=
    fun _ heq => Option.some.inj heq ▸ hid
  have hrestrict := policyMode_restrict (g := g) .user hsome
  have hnone := policyMode_none (g := g) .user hid
  simp only [Option.some.injEq, exists_eq_left'] at hrestrict
  rw [← hrestrict, ← hnone]
  unfold implicitMode
  cases policyMode g .user (some id) with
  | none => cases bound <;> simp
  | some mode => simp

/-- An enabled route group of this key is owned by the organization. -/
def OwnedEnabled (routeGroups : List RouteGroupRecord) (organizationId groupKey : String) : Prop :=
  ∃ group ∈ routeGroups, group.ownerScopeType = some "organization" ∧
    group.ownerScopeId = some organizationId ∧ group.enabled = true ∧ group.groupKey = groupKey

variable {entry : String × Item}

/-- A target's item has an enabled source of a scope exactly if the caller's scope of that type
grants the target. -/
theorem callable_source {scopes : List Scope} (hid : ∀ scope ∈ scopes, scope.2 ≠ "")
    (h : entry ∈ ((grantedAdditions g routeGroups scopes).map callableAddition).foldl addSource [])
    (scopeType : ScopeType) {kind : Option SourceKind} (hkind : kind.all (· = .grant) = true) :
    hasSource entry.2 scopeType kind = true ↔
      ∃ id, (scopeType, id) ∈ scopes ∧ ScopeGrants g (scopeType, id) entry.2.key := by
  have hkey : entry.2.key ≠ "" := by
    obtain ⟨addition, hmem, hkey⟩ := item_added h
    obtain ⟨source, hsource, rfl⟩ := List.mem_map.mp hmem
    obtain ⟨scope, -, hadded⟩ := List.mem_flatMap.mp hsource
    exact hkey ▸ (scopeAdditions_grant hadded).2.2.2
  rw [hasSource_iff h, ← grantedAdditions_iff routeGroups hid scopeType hkey]
  constructor
  · rintro ⟨addition, hmem, hkey, hscope, -, henabled⟩
    obtain ⟨source, hsource, rfl⟩ := List.mem_map.mp hmem
    exact ⟨source, hsource, hkey, hscope, henabled⟩
  · rintro ⟨addition, hmem, hkey, hscope, henabled⟩
    obtain ⟨scope, -, hadded⟩ := List.mem_flatMap.mp hmem
    refine ⟨callableAddition addition, List.mem_map_of_mem hmem, hkey, hscope, ?_, henabled⟩
    change kind.all (· = addition.source.kind) = true
    rwa [(scopeAdditions_grant hadded).2.1]

/-- A published route group's item has an enabled grant of a scope exactly if the caller's scope of
that type grants the group. -/
theorem routeGroup_grant {scopes : List Scope} (hid : ∀ scope ∈ scopes, scope.2 ≠ "")
    (h : entry ∈ (ownedAdditions routeGroups organizationId ++
      ((grantedAdditions g routeGroups scopes).filter (·.targetType = .routeGroup)).map
        routeGroupAddition).foldl addSource [])
    (hkey : entry.2.key ≠ "") (htype : targetTypeOf g routeGroups entry.2.key = .routeGroup)
    (scopeType : ScopeType) :
    hasSource entry.2 scopeType (some .grant) = true ↔
      ∃ id, (scopeType, id) ∈ scopes ∧ ScopeGrants g (scopeType, id) entry.2.key := by
  rw [hasSource_iff h, ← grantedAdditions_iff routeGroups hid scopeType hkey]
  constructor
  · rintro ⟨addition, hmem, hkey, hscope, hkind, henabled⟩
    rcases List.mem_append.mp hmem with howned | hgranted
    · obtain ⟨group, -, rfl⟩ := List.mem_map.mp howned
      cases hkind
    · obtain ⟨source, hsource, rfl⟩ := List.mem_map.mp hgranted
      exact ⟨source, (List.mem_filter.mp hsource).1, hkey, hscope, henabled⟩
  · rintro ⟨addition, hmem, hkey, hscope, henabled⟩
    obtain ⟨scope, -, hadded⟩ := List.mem_flatMap.mp hmem
    obtain ⟨-, hkind, haddedType, -⟩ := scopeAdditions_grant hadded
    refine ⟨routeGroupAddition addition, List.mem_append_right _ (List.mem_map_of_mem
      (List.mem_filter.mpr ⟨hmem, ?_⟩)), hkey, hscope, ?_, henabled⟩
    · rw [haddedType, hkey, htype]
      rfl
    · simp [routeGroupAddition, hkind]

/-- At the organization a route group may also be owned. -/
theorem routeGroup_organization {scopes : List Scope}
    (h : entry ∈ (ownedAdditions routeGroups organizationId ++
      ((grantedAdditions g routeGroups scopes).filter (·.targetType = .routeGroup)).map
        routeGroupAddition).foldl addSource []) :
    hasSource entry.2 .organization none = true ↔
      OwnedEnabled routeGroups organizationId entry.2.key ∨
        hasSource entry.2 .organization (some .grant) = true := by
  rw [hasSource_iff h, hasSource_iff h]
  constructor
  · rintro ⟨addition, hmem, hkey, hscope, -, henabled⟩
    rcases List.mem_append.mp hmem with howned | hgranted
    · obtain ⟨group, hgroup, rfl⟩ := List.mem_map.mp howned
      obtain ⟨hgroup, howner⟩ := List.mem_filter.mp hgroup
      rw [decide_eq_true_eq] at howner
      exact .inl ⟨group, hgroup, howner.1, howner.2, henabled, hkey⟩
    · obtain ⟨source, hsource, rfl⟩ := List.mem_map.mp hgranted
      obtain ⟨scope, -, hadded⟩ := List.mem_flatMap.mp (List.mem_filter.mp hsource).1
      refine .inr ⟨_, hmem, hkey, hscope, ?_, henabled⟩
      simp [routeGroupAddition, (scopeAdditions_grant hadded).2.1]
  · rintro (⟨group, hgroup, htype, howner, henabled, hkey⟩ | ⟨addition, hmem, hkey, hscope, -,
      henabled⟩)
    · refine ⟨_, List.mem_append_left _
        (List.mem_map_of_mem (List.mem_filter.mpr ⟨hgroup, ?_⟩)), hkey,
        rfl, rfl, henabled⟩
      simp [htype, howner]
    · exact ⟨addition, hmem, hkey, hscope, rfl, henabled⟩

/-- Every scope of the caller below the organization that restricts grants the target. -/
def GrantedBelow (g : Governance) (context : RuntimeScopeContext) (callableKey : String) : Prop :=
  (∀ id, context.teamId = some id → Restricts g (.team, id) → Granted g (.team, id) callableKey) ∧
    (∀ id, context.apiKeyScopeId = some id → Restricts g (.apiKey, id) →
      Granted g (.apiKey, id) callableKey) ∧
    (∀ id, context.userId = some id → Restricts g (.user, id) → Granted g (.user, id) callableKey)

/-- The user has no policy and bindings, none of them for a route group or an access group: the
restriction they imply is left out for route groups. -/
def UserBoundToModelsOnly (g : Governance) (routeGroups : List RouteGroupRecord)
    (userId : Option String) : Prop :=
  ∃ id, userId = some id ∧ modeOf g (.user, id) = none ∧ Configured g (.user, id) ∧
    (∀ binding ∈ g.bindings, binding.scope = (.user, id) →
      targetTypeOf g routeGroups binding.callableKey ≠ .routeGroup) ∧
    ∀ binding ∈ g.groupBindings, binding.scope ≠ (.user, id)

theorem previewScopes_normalized {context : RuntimeScopeContext} (hnorm : context.Normalized)
    (horg : context.organizationId = some organizationId) :
    ∀ scope ∈ previewScopes organizationId context.teamId context.apiKeyScopeId context.userId,
      strip scope.2 = scope.2 ∧ scope.2 ≠ "" := by
  rintro ⟨scopeType, id⟩ hscope
  rw [mem_previewScopes] at hscope
  cases scopeType with
  | organization =>
      obtain rfl : id = organizationId := hscope
      exact hnorm.organizationId _ horg
  | team => exact hnorm.teamId id hscope
  | apiKey => exact hnorm.apiKeyScopeId id hscope
  | user => exact hnorm.userId id hscope

/-- Of scopes with stripped identifiers the preview looks up what they grant. -/
theorem exists_scopeGrants {scopes : List Scope} (h : ∀ scope ∈ scopes, strip scope.2 = scope.2)
    (scopeType : ScopeType) (callableKey : String) :
    (∃ id, (scopeType, id) ∈ scopes ∧ ScopeGrants g (scopeType, id) callableKey) ↔
      ∃ id, (scopeType, id) ∈ scopes ∧ Granted g (scopeType, id) callableKey := by
  refine exists_congr fun id => and_congr_right fun hscope => ?_
  exact scopeGrants_iff (h _ hscope) callableKey

/-- The three modes of a preview restrict exactly where the caller's scopes do. -/
theorem modes_grantedBelow {context : RuntimeScopeContext} (hnorm : context.Normalized)
    {userMode : Option String}
    (huser : userMode = some "restrict" ↔
      ∃ id, context.userId = some id ∧ Restricts g (.user, id)) (callableKey : String) :
    ((policyMode g .team context.teamId = some "restrict" →
        ∃ id, (ScopeType.team, id) ∈ previewScopes organizationId context.teamId
          context.apiKeyScopeId context.userId ∧ Granted g (.team, id) callableKey) ∧
      (policyMode g .apiKey context.apiKeyScopeId = some "restrict" →
        ∃ id, (ScopeType.apiKey, id) ∈ previewScopes organizationId context.teamId
          context.apiKeyScopeId context.userId ∧ Granted g (.apiKey, id) callableKey) ∧
      (userMode = some "restrict" →
        ∃ id, (ScopeType.user, id) ∈ previewScopes organizationId context.teamId
          context.apiKeyScopeId context.userId ∧ Granted g (.user, id) callableKey)) ↔
      GrantedBelow g context callableKey := by
  simp only [mem_previewScopes, huser, GrantedBelow,
    policyMode_restrict .team fun id hid => (hnorm.teamId id hid).2,
    policyMode_restrict .apiKey fun id hid => (hnorm.apiKeyScopeId id hid).2]
  refine and_congr ?_ (and_congr ?_ ?_)
  · cases context.teamId <;> simp [Restricts]
  · cases context.apiKeyScopeId <;> simp [Restricts]
  · cases context.userId <;> simp

/-- The user's mode is a restriction exactly if the user's scope restricts, where a missing policy
leaves it to the bindings. -/
theorem implicitMode_restricts {userId : Option String} (hid : ∀ id, userId = some id → id ≠ "")
    {bound : Bool} (hnone : userId = none → bound = false)
    (hbound : ∀ id, userId = some id → modeOf g (.user, id) = none →
      (bound = true ↔ Configured g (.user, id))) :
    implicitMode (policyMode g .user userId) bound = some "restrict" ↔
      ∃ id, userId = some id ∧ Restricts g (.user, id) := by
  cases userId with
  | none => simp [implicitMode, policyMode, hnone rfl]
  | some id =>
      rw [implicitMode_restrict (hid id rfl)]
      simp only [Option.some.injEq, exists_eq_left', Restricts]
      exact or_congr_right (and_congr_right (hbound id rfl))

theorem userBindings_nonempty {id : String} (hid : id ≠ "") :
    (!(g.bindings.filter fun binding => isListed .user id binding.scope).isEmpty ||
        !(g.groupBindings.filter fun binding =>
          isGroupListed .user id binding.scope).isEmpty) = true ↔
      ScopeConfigured g (.user, id) := by
  simp [ScopeConfigured, isListed, isGroupListed, hid, Prod.ext_iff]

/-- Whether a scope lets through only what it grants: an organization always, a scope below it by
its policy, and a user without a policy by having a binding. -/
def Narrows (g : Governance) : Scope → Prop
  | (.organization, _) => True
  | (.user, userId) =>
      modeOf g (.user, userId) = some "restrict" ∨
        modeOf g (.user, userId) = none ∧ ScopeConfigured g (.user, userId)
  | scope => modeOf g scope = some "restrict"

/-- Every scope of a chain that narrows the targets grants the target. -/
def Reaches (g : Governance) (scopes : List Scope) (callableKey : String) : Prop :=
  ∀ scope ∈ scopes, Narrows g scope → ScopeGrants g scope callableKey

theorem reaches_previewScopes (callableKey : String) :
    Reaches g (previewScopes organizationId teamId apiKeyId userId) callableKey ↔
      ScopeGrants g (.organization, organizationId) callableKey ∧
        (∀ id, teamId = some id → Narrows g (.team, id) → ScopeGrants g (.team, id) callableKey) ∧
        (∀ id, apiKeyId = some id → Narrows g (.apiKey, id) →
          ScopeGrants g (.apiKey, id) callableKey) ∧
        (∀ id, userId = some id → Narrows g (.user, id) →
          ScopeGrants g (.user, id) callableKey) := by
  constructor
  · intro h
    refine ⟨h _ (mem_previewScopes.mpr rfl) trivial, ?_, ?_, ?_⟩
    · intro id hid
      exact h _ (mem_previewScopes.mpr hid)
    · intro id hid
      exact h _ (mem_previewScopes.mpr hid)
    · intro id hid
      exact h _ (mem_previewScopes.mpr hid)
  · rintro ⟨horganization, hteam, hapiKey, huser⟩ ⟨scopeType, id⟩ hscope hnarrows
    rw [mem_previewScopes] at hscope
    cases scopeType with
    | organization =>
        obtain rfl : id = organizationId := hscope
        exact horganization
    | team => exact hteam id hscope hnarrows
    | apiKey => exact hapiKey id hscope hnarrows
    | user => exact huser id hscope hnarrows

/-- The user's mode is a restriction exactly if the user's scope narrows the targets. -/
theorem userMode_narrows {id : String} (hid : id ≠ "") :
    implicitMode (policyMode g .user (some id))
        (!(g.bindings.filter fun binding => isListed .user id binding.scope).isEmpty ||
          !(g.groupBindings.filter fun binding =>
            isGroupListed .user id binding.scope).isEmpty) = some "restrict" ↔
      Narrows g (.user, id) := by
  rw [implicitMode_restrict hid, userBindings_nonempty hid]
  rfl

/-- A target's item is visible exactly if every narrowing scope of the chain grants the target. -/
theorem item_visible_iff
    (hids : ∀ scope ∈ previewScopes organizationId teamId apiKeyId userId, scope.2 ≠ "")
    (h : entry ∈ ((grantedAdditions g routeGroups
      (previewScopes organizationId teamId apiKeyId userId)).map callableAddition).foldl
        addSource []) :
    effectiveVisibility entry.2 (policyMode g .team teamId) (policyMode g .apiKey apiKeyId)
        (implicitMode (policyMode g .user userId)
          (!(g.bindings.filter fun binding =>
              userId.any fun id => isListed .user id binding.scope).isEmpty ||
            !(g.groupBindings.filter fun binding =>
              userId.any fun id => isGroupListed .user id binding.scope).isEmpty)) = true ↔
      Reaches g (previewScopes organizationId teamId apiKeyId userId) entry.2.key := by
  have hteam := policyMode_restrict (g := g) .team fun id hid =>
    hids (.team, id) (mem_previewScopes.mpr hid)
  have hapiKey := policyMode_restrict (g := g) .apiKey fun id hid =>
    hids (.apiKey, id) (mem_previewScopes.mpr hid)
  rw [effectiveVisibility_iff, callable_source hids h .organization rfl,
    callable_source hids h .team rfl, callable_source hids h .apiKey rfl,
    callable_source hids h .user rfl, reaches_previewScopes, hteam, hapiKey]
  simp only [mem_previewScopes]
  refine and_congr (by simp) (and_congr ?_ (and_congr ?_ ?_))
  · cases teamId <;> simp [Narrows]
  · cases apiKeyId <;> simp [Narrows]
  · cases userId with
    | none => simp [implicitMode, policyMode]
    | some id =>
        have huser := userMode_narrows (g := g)
          (hids (.user, id) (mem_previewScopes.mpr (rfl : some id = some id)))
        simp only [Option.any_some, huser, Option.some.injEq, exists_eq_left', forall_eq']

variable (routeGroups) in
/-- The preview shows the targets that every narrowing scope of the chain grants. -/
theorem callableTarget_visible_iff
    (hids : ∀ scope ∈ previewScopes organizationId teamId apiKeyId userId, scope.2 ≠ "")
    (callableKey : String) :
    (∃ item ∈ (buildAssetVisibilityPreview g routeGroups organizationId teamId apiKeyId
        userId).callableTargets, item.key = callableKey ∧ item.effectiveVisible = true) ↔
      callableKey ≠ "" ∧
        Reaches g (previewScopes organizationId teamId apiKeyId userId) callableKey := by
  constructor
  · rintro ⟨item, hitem, rfl, hvisible⟩
    obtain ⟨entry, hentry, rfl⟩ := List.mem_map.mp (List.mem_mergeSort.mp hitem)
    refine ⟨?_, (item_visible_iff hids hentry).mp hvisible⟩
    obtain ⟨addition, hmem, hkey⟩ := item_added hentry
    obtain ⟨source, hsource, rfl⟩ := List.mem_map.mp hmem
    obtain ⟨scope, -, hadded⟩ := List.mem_flatMap.mp hsource
    change entry.2.key ≠ ""
    exact hkey ▸ (scopeAdditions_grant hadded).2.2.2
  · rintro ⟨hkey, hreaches⟩
    have hgranted := (reaches_previewScopes callableKey).mp hreaches
    obtain ⟨addition, hmem, hadded, -⟩ := (grantedAdditions_iff routeGroups hids .organization
      hkey).mpr ⟨organizationId, mem_previewScopes.mpr rfl, hgranted.1⟩
    obtain ⟨entry, hentry, hname⟩ := exists_item (List.mem_map_of_mem (f := callableAddition) hmem)
    have hname : entry.2.key = callableKey := hname.trans hadded
    refine ⟨_, List.mem_mergeSort.mpr (List.mem_map_of_mem hentry), hname, ?_⟩
    exact (item_visible_iff hids hentry).mpr (hname ▸ hreaches)

/-- Unless the user is bound to models only, what the preview takes for a restriction of the user's
route groups is one. -/
theorem userRouteGroupBindings_nonempty {userId : Option String} {id : String} (hid : id ≠ "")
    (hstrip : strip id = id) (huser : userId = some id) (hmode : modeOf g (.user, id) = none)
    (hmodels : ¬UserBoundToModelsOnly g routeGroups userId) :
    (!((g.bindings.filter fun binding => isListed .user id binding.scope).filter fun binding =>
          targetTypeOf g routeGroups binding.callableKey = .routeGroup).isEmpty ||
        !(g.groupBindings.filter fun binding =>
          isGroupListed .user id binding.scope).isEmpty) = true ↔
      Configured g (.user, id) := by
  have hconfigured : ScopeConfigured g (.user, id) ↔ Configured g (.user, id) :=
    scopeConfigured_iff hstrip
  constructor
  · intro hbound
    rw [← hconfigured, ← userBindings_nonempty hid]
    simp only [Bool.or_eq_true, Bool.not_eq_true', List.isEmpty_eq_false_iff] at hbound ⊢
    exact hbound.imp_left fun hroute hempty => hroute (by rw [hempty, List.filter_nil])
  · intro hbindings
    by_contra hbound
    simp only [Bool.or_eq_true, Bool.not_eq_true', List.isEmpty_eq_false_iff, not_or, not_not,
      List.filter_eq_nil_iff, List.mem_filter, isListed_iff hid, isGroupListed_iff hid, hstrip,
      decide_eq_true_eq] at hbound
    exact hmodels ⟨id, huser, hmode, hbindings,
      fun binding hmem hscope => hbound.1 binding ⟨hmem, hscope⟩, hbound.2⟩

theorem targetTypeOf_ne_empty {callableKey : String}
    (h : targetTypeOf g routeGroups callableKey = .routeGroup) : callableKey ≠ "" := by
  rintro rfl
  unfold targetTypeOf at h
  cases hget : g.catalog.get? "" with
  | some target => exact (g.named _ (Dict.mem_of_get? hget)).1 rfl
  | none =>
      simp only [hget] at h
      split at h
      · rename_i hany
        obtain ⟨group, -, hgroup⟩ := List.any_eq_true.mp hany
        rw [decide_eq_true_eq] at hgroup
        exact hgroup.1 (by rw [hgroup.2]; rfl)
      · cases h

end

namespace OwnedGroup

/-- A user of the organization, whose token came from a sign-in. -/
def member : UserAPIKeyAuth where
  apiKey := some "jwt:user-1"
  userId := some "user-1"
  teamId := none
  organizationId := some "acme"
  metadata := []

/-- Nothing is granted to anyone. -/
def ungoverned : Governance where
  bindings := []
  groupBindings := []
  policies := []
  onePolicy := List.nodup_nil
  catalog := [("support", ⟨"support", .routeGroup, ∅⟩)]
  named := by simp [Catalog.Named]

/-- The organization owns a route group. -/
def support : RouteGroupRecord := ⟨"support", some "organization", some "acme", true⟩

def owned : Item :=
  ⟨"support", .routeGroup, some "organization", some "acme", true, false, .granted,
    [⟨(.organization, "acme"), .owned, true, none, none⟩]⟩

def textOf : JsonValue → String := fun _ => ""

theorem member_isMasterKey : (resolveRuntimeScopeContext textOf member).isMasterKey = false := by
  decide

theorem member_organizationId :
    (resolveRuntimeScopeContext textOf member).organizationId = some "acme" := by decide

end OwnedGroup

end AssetVisibility
