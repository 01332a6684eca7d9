import DeltaLLM.ScopedAssetAccess

/-! # What writing the asset access of a scope leaves

The rows of the scope become the selection of the plan, and the scopes of other types keep theirs.
Writing a plan again changes nothing.
-/
namespace AssetAccessWrites

open PythonText Dictionaries CallableTargets RuntimeScopes CallableTargetGrants
open AssetVisibility SelectedRows ScopedAssetAccess

variable {t : AccessTables} {plan : AccessPlan}

/-! ## The selection of a plan -/

theorem selects_bindings (hid : plan.scopeId ≠ "") :
    Selects CallableTargetBinding.callableKey CallableTargetBinding.scope (plan.isListed ·.scope)
      plan.bindingRow plan.scope where
  listed_iff binding := isListed_iff hid binding.scope
  name_row _ _ := rfl
  place_row _ _ := rfl
  row_row _ _ := rfl

theorem selects_groupBindings (hid : plan.scopeId ≠ "") :
    Selects AccessGroupBinding.groupKey AccessGroupBinding.scope (plan.isGroupListed ·.scope)
      plan.groupBindingRow plan.groupScope where
  listed_iff binding := isGroupListed_iff hid binding.scope
  name_row _ _ := rfl
  place_row _ _ := rfl
  row_row _ _ := rfl

/-- The repository of the access groups is to store rows and raises. -/
def Blank (plan : AccessPlan) : Prop :=
  plan.syncAccessGroups = true ∧ plan.selectedGroupKeys ≠ [] ∧ strip plan.scopeId = ""

instance (plan : AccessPlan) : Decidable (Blank plan) :=
  inferInstanceAs (Decidable (_ = true ∧ _ ≠ [] ∧ _ = ""))

/-- The tables with all of a plan written. -/
def written (plan : AccessPlan) (t : AccessTables) : AccessTables :=
  let bound := syncScopeBindings plan t
  syncScopePolicy plan
    (if plan.syncAccessGroups then syncScopeAccessGroupBindings plan bound else bound)

/-- Without selected groups and without rows of the scope nothing is to be done. -/
theorem syncScopeAccessGroupBindings_idle (hkeys : plan.selectedGroupKeys = [])
    (hcurrent : t.groupBindings.filter (plan.isGroupListed ·.scope) = []) :
    syncScopeAccessGroupBindings plan t = t := by
  ext1
  case groupBindings =>
    change syncSelection _ _ _ _ plan.selectedGroupKeys t.groupBindings = t.groupBindings
    rw [hkeys]
    apply List.filter_eq_self.mpr
    intro binding hbinding
    rw [List.filter_eq_nil_iff] at hcurrent
    simpa using hcurrent binding hbinding
  all_goals rfl

theorem writeScopeAssetAccess_eq (plan : AccessPlan) (t : AccessTables) :
    writeScopeAssetAccess plan t =
      if Blank plan then (.error (.valueError "scope_id is required"), syncScopeBindings plan t)
      else (.ok (), written plan t) := by
  have hselected : plan.groupKeys = [] → plan.selectedGroupKeys = [] := by
    intro hkeys
    simp [AccessPlan.selectedGroupKeys, hkeys]
  unfold writeScopeAssetAccess written Blank
  by_cases hsync : plan.syncAccessGroups = true
  · by_cases hwork : plan.groupKeys ≠ [] ∨ t.groupBindings.filter (plan.isGroupListed ·.scope) ≠ []
    · simp only [hsync, hwork, and_self, if_true, true_and]
    · rw [not_or, not_not, not_not] at hwork
      have hkeys := hselected hwork.1
      have hidle := syncScopeAccessGroupBindings_idle (t := syncScopeBindings plan t) hkeys hwork.2
      simp [hsync, hwork, hkeys, hidle]
  · simp [hsync]

section Written

theorem written_catalog : (written plan t).catalog = t.catalog := by
  unfold written
  split <;> rfl

theorem written_routeGroups : (written plan t).routeGroups = t.routeGroups := by
  unfold written
  split <;> rfl

theorem written_bindings : (written plan t).bindings = (syncScopeBindings plan t).bindings := by
  unfold written
  split <;> rfl

theorem written_routeGroupBindings :
    (written plan t).routeGroupBindings = mirrorScopeBindings plan t := by
  unfold written
  split <;> rfl

theorem written_groupBindings :
    (written plan t).groupBindings =
      if plan.syncAccessGroups then (syncScopeAccessGroupBindings plan t).groupBindings
      else t.groupBindings := by
  unfold written
  split <;> rfl

theorem written_policies : (written plan t).policies = scopePolicies plan t.policies := by
  unfold written
  split <;> rfl

end Written

/-- The scope is left with an enabled binding of each selected target, and other scopes with what
they had. -/
theorem mem_syncScopeBindings (hid : plan.scopeId ≠ "") {binding : CallableTargetBinding} :
    binding ∈ (syncScopeBindings plan t).bindings ↔
      (∃ key ∈ plan.selectedCallableKeys,
        binding = plan.bindingRow key (plan.existingBinding t key)) ∨
        binding ∈ t.bindings ∧ binding.scope ≠ plan.scope :=
  mem_syncSelection (selects_bindings hid)

/-! ## Writing twice -/

theorem existingBinding_syncScopeBindings (hid : plan.scopeId ≠ "") {callableKey : String}
    (h : callableKey ∈ plan.selectedCallableKeys) :
    plan.existingBinding (syncScopeBindings plan t) callableKey =
      some (plan.bindingRow callableKey (plan.existingBinding t callableKey)) :=
  find?_syncSelection (selects_bindings hid) h

theorem mem_mirrorScopeBindings {t : AccessTables} {groupKey : String}
    (h : groupKey ∈ plan.selectedCallableKeys.filter fun key =>
      isRouteGroup t.catalog key ∧ (t.routeGroups.any fun group => group.groupKey = key)) :
    plan.mirrorRow t groupKey ∈ mirrorScopeBindings plan t := by
  have hkey : ∀ m n, placedName RouteGroupBinding.groupKey RouteGroupBinding.scope
      (plan.mirrorRow t m) = placedName RouteGroupBinding.groupKey RouteGroupBinding.scope
        (plan.mirrorRow t n) → m = n := fun _ _ heq => congrArg Prod.fst heq
  refine List.mem_filter.mpr ⟨(mem_putAll hkey).mpr (.inl ⟨groupKey, h, rfl⟩), ?_⟩
  have hselected := (List.mem_filter.mp h).1
  simp [AccessPlan.mirrorRow, hselected]

/-- Mirroring the bindings that are written finds every mirrored row in its place. -/
theorem mirrorScopeBindings_again (hid : plan.scopeId ≠ "") {t u : AccessTables}
    (hbindings : u.bindings = (syncScopeBindings plan t).bindings)
    (hcatalog : u.catalog = t.catalog) (hgroups : u.routeGroups = t.routeGroups)
    (hmirrored : u.routeGroupBindings = mirrorScopeBindings plan t) :
    mirrorScopeBindings plan u = mirrorScopeBindings plan t := by
  have hrow : ∀ key ∈ plan.selectedCallableKeys, plan.mirrorRow u key = plan.mirrorRow t key := by
    intro key hkey
    have hexisting : plan.existingBinding u key =
        some (plan.bindingRow key (plan.existingBinding t key)) := by
      rw [← existingBinding_syncScopeBindings hid hkey]
      simp only [AccessPlan.existingBinding, hbindings]
    simp only [AccessPlan.mirrorRow, hexisting]
    rfl
  have hdropped : ((u.bindings.filter (plan.isListed ·.scope)).map (·.callableKey)).filter
      (fun key => key ∉ plan.selectedCallableKeys ∧ isRouteGroup u.catalog key) = [] := by
    rw [List.filter_eq_nil_iff]
    intro key hkey
    obtain ⟨binding, hbinding, rfl⟩ := List.mem_map.mp hkey
    obtain ⟨hmem, hlisted⟩ := List.mem_filter.mp hbinding
    rw [hbindings, mem_syncScopeBindings hid] at hmem
    rcases hmem with ⟨key, hselected, rfl⟩ | ⟨-, haway⟩
    · simp [AccessPlan.bindingRow, hselected]
    · exact absurd ((isListed_iff hid _).mp hlisted) haway
  have hput : putAll (placedName RouteGroupBinding.groupKey RouteGroupBinding.scope)
      (plan.mirrorRow u) (plan.selectedCallableKeys.filter fun key =>
        isRouteGroup u.catalog key ∧ (u.routeGroups.any fun group => group.groupKey = key))
      u.routeGroupBindings = u.routeGroupBindings := by
    apply putAll_of_mem u.oneRouteGroupBinding
    intro key hkey
    rw [hcatalog, hgroups] at hkey
    rw [hrow key (List.mem_filter.mp hkey).1, hmirrored]
    exact mem_mirrorScopeBindings hkey
  unfold mirrorScopeBindings
  simp only [hdropped, hput]
  simp only [List.not_mem_nil, and_false, not_false_eq_true, decide_true, List.filter_true]
  exact hmirrored

theorem scopePolicies_scopePolicies (plan : AccessPlan) {policies : List ScopePolicy}
    (h : (policies.map (·.scope)).Nodup) :
    scopePolicies plan (scopePolicies plan policies) = scopePolicies plan policies := by
  have hnodup := nodup_scopePolicies plan h
  unfold scopePolicies at hnodup ⊢
  split
  · rfl
  next hmode =>
    simp only [hmode] at hnodup
    exact put_of_mem hnodup (mem_put.mpr (.inl rfl))
  · rw [List.filter_filter]
    simp

theorem syncScopeBindings_again (hid : plan.scopeId ≠ "") :
    syncScopeBindings plan (syncScopeBindings plan t) = syncScopeBindings plan t := by
  ext1
  case bindings => exact syncSelection_syncSelection (selects_bindings hid) t.oneBinding
  case routeGroupBindings => exact mirrorScopeBindings_again hid rfl rfl rfl rfl
  all_goals rfl

theorem written_again (hid : plan.scopeId ≠ "") :
    written plan (written plan t) = written plan t := by
  ext1
  case bindings =>
    rw [written_bindings]
    change syncSelection _ _ _ _ plan.selectedCallableKeys (written plan t).bindings = _
    rw [written_bindings]
    exact syncSelection_syncSelection (selects_bindings hid) t.oneBinding
  case groupBindings =>
    rw [written_groupBindings]
    change (if _ then syncSelection _ _ _ _ plan.selectedGroupKeys (written plan t).groupBindings
      else _) = _
    rw [written_groupBindings]
    by_cases hsync : plan.syncAccessGroups = true
    · simp only [hsync, if_true]
      exact syncSelection_syncSelection (selects_groupBindings hid) t.oneGroupBinding
    · simp only [hsync, if_false, Bool.false_eq_true]
  case policies =>
    rw [written_policies, written_policies]
    exact scopePolicies_scopePolicies plan t.onePolicy
  case catalog => rw [written_catalog]
  case routeGroups => rw [written_routeGroups]
  case routeGroupBindings =>
    rw [written_routeGroupBindings]
    exact (mirrorScopeBindings_again hid written_bindings written_catalog written_routeGroups
      written_routeGroupBindings).trans written_routeGroupBindings.symm

/-- Writing a plan again answers the same and leaves the tables as they are. -/
theorem writeScopeAssetAccess_again (hid : plan.scopeId ≠ "") :
    writeScopeAssetAccess plan (writeScopeAssetAccess plan t).2 = writeScopeAssetAccess plan t := by
  by_cases hblank : Blank plan
  · simp only [writeScopeAssetAccess_eq, if_pos hblank, syncScopeBindings_again hid]
  · simp only [writeScopeAssetAccess_eq, if_neg hblank, written_again hid]

/-! ## What other scopes keep -/

/-- Writing the scope leaves what is bound in scopes of other types. -/
structure KeepsOthers (plan : AccessPlan) (t u : AccessTables) : Prop where
  catalog : u.catalog = t.catalog
  bindings : ∀ binding : CallableTargetBinding, binding.scope.1 ≠ plan.scopeType →
    (binding ∈ u.bindings ↔ binding ∈ t.bindings)
  groupBindings : ∀ binding : AccessGroupBinding, binding.scope.1 ≠ plan.scopeType →
    (binding ∈ u.groupBindings ↔ binding ∈ t.groupBindings)
  policies : ∀ policy : ScopePolicy, policy.scope.1 ≠ plan.scopeType →
    (policy ∈ u.policies ↔ policy ∈ t.policies)

theorem ne_of_type {scope : Scope} {id : String} (h : scope.1 ≠ plan.scopeType) :
    scope ≠ (plan.scopeType, id) := fun heq => h (congrArg Prod.fst heq)

theorem syncScopeBindings_other (hid : plan.scopeId ≠ "") {binding : CallableTargetBinding}
    (h : binding.scope.1 ≠ plan.scopeType) :
    binding ∈ (syncScopeBindings plan t).bindings ↔ binding ∈ t.bindings :=
  mem_syncSelection_away (selects_bindings hid) (ne_of_type h)

theorem syncScopeAccessGroupBindings_other (hid : plan.scopeId ≠ "") {binding : AccessGroupBinding}
    (h : binding.scope.1 ≠ plan.scopeType) :
    binding ∈ (syncScopeAccessGroupBindings plan t).groupBindings ↔ binding ∈ t.groupBindings :=
  mem_syncSelection_away (selects_groupBindings hid) (ne_of_type h)

theorem scopePolicies_other (hid : plan.scopeId ≠ "") {policy : ScopePolicy}
    (h : policy.scope.1 ≠ plan.scopeType) :
    policy ∈ scopePolicies plan t.policies ↔ policy ∈ t.policies := by
  have haway : policy.scope ≠ plan.scope := ne_of_type h
  unfold scopePolicies
  split
  · rfl
  · rw [mem_put]
    constructor
    · rintro (rfl | ⟨hmem, -⟩)
      · exact absurd rfl haway
      · exact hmem
    · intro hmem
      exact .inr ⟨hmem, haway⟩
  · rw [List.mem_filter, Bool.not_eq_true', Bool.eq_false_iff]
    exact and_iff_left fun hlisted => haway ((isListed_iff hid _).mp hlisted)

theorem syncScopeBindings_keeps (hid : plan.scopeId ≠ "") :
    KeepsOthers plan t (syncScopeBindings plan t) where
  catalog := rfl
  bindings _ := syncScopeBindings_other hid
  groupBindings _ _ := Iff.rfl
  policies _ _ := Iff.rfl

theorem written_keeps (hid : plan.scopeId ≠ "") : KeepsOthers plan t (written plan t) where
  catalog := written_catalog
  bindings binding h := by
    rw [written_bindings]
    exact syncScopeBindings_other hid h
  groupBindings binding h := by
    rw [written_groupBindings]
    split
    · exact syncScopeAccessGroupBindings_other hid h
    · rfl
  policies policy h := by
    rw [written_policies]
    exact scopePolicies_other hid h

theorem writeScopeAssetAccess_keeps (hid : plan.scopeId ≠ "") :
    KeepsOthers plan t (writeScopeAssetAccess plan t).2 := by
  rw [writeScopeAssetAccess_eq]
  split
  · exact syncScopeBindings_keeps hid
  · exact written_keeps hid

theorem modeOf_eq_some {g : Governance} {scope : Scope} {mode : String} :
    modeOf g scope = some mode ↔
      ∃ policy ∈ g.policies, policy.scope = scope ∧ policy.mode = mode := by
  unfold modeOf
  rw [Option.map_eq_some_iff]
  constructor
  · rintro ⟨policy, hfind, hmode⟩
    have hscope := List.find?_some hfind
    exact ⟨policy, List.mem_of_find?_eq_some hfind, by simpa using hscope, hmode⟩
  · rintro ⟨policy, hpolicy, hscope, hmode⟩
    cases hfind : g.policies.find? (·.scope = scope) with
    | none =>
        rw [List.find?_eq_none] at hfind
        exact absurd (decide_eq_true hscope) (hfind policy hpolicy)
    | some found =>
        have hfound : found.scope = scope := by simpa using List.find?_some hfind
        have hsame := List.inj_on_of_nodup_map g.onePolicy (List.mem_of_find?_eq_some hfind) hpolicy
          (hfound.trans hscope.symm)
        exact ⟨found, rfl, hsame ▸ hmode⟩

section Others

variable {u : AccessTables} {scope : Scope}

theorem KeepsOthers.modeOf (h : KeepsOthers plan t u) (hscope : scope.1 ≠ plan.scopeType) :
    modeOf u.toGovernance scope = modeOf t.toGovernance scope := by
  apply Option.ext
  intro mode
  rw [modeOf_eq_some, modeOf_eq_some]
  constructor
  · rintro ⟨policy, hpolicy, rfl, hmode⟩
    exact ⟨policy, (h.policies policy hscope).mp hpolicy, rfl, hmode⟩
  · rintro ⟨policy, hpolicy, rfl, hmode⟩
    exact ⟨policy, (h.policies policy hscope).mpr hpolicy, rfl, hmode⟩

theorem KeepsOthers.configured (h : KeepsOthers plan t u) (hscope : scope.1 ≠ plan.scopeType) :
    ScopeConfigured u.toGovernance scope ↔ ScopeConfigured t.toGovernance scope := by
  unfold ScopeConfigured
  refine or_congr (exists_congr fun binding => and_congr_left ?_)
    (exists_congr fun binding => and_congr_left ?_)
  · rintro rfl
    exact h.bindings binding hscope
  · intro hbinding
    exact h.groupBindings binding (by rwa [hbinding])

theorem KeepsOthers.grants (h : KeepsOthers plan t u) (hscope : scope.1 ≠ plan.scopeType)
    (callableKey : String) :
    ScopeGrants u.toGovernance scope callableKey ↔
      ScopeGrants t.toGovernance scope callableKey := by
  unfold ScopeGrants
  rw [h.catalog]
  refine or_congr (exists_congr fun binding => and_congr_left ?_)
    (exists_congr fun binding => and_congr_left ?_)
  · rintro ⟨rfl, -⟩
    exact h.bindings binding hscope
  · rintro ⟨hbinding, -⟩
    exact h.groupBindings binding (by rwa [hbinding])

theorem KeepsOthers.narrows (h : KeepsOthers plan t u) (hscope : scope.1 ≠ plan.scopeType) :
    Narrows u.toGovernance scope ↔ Narrows t.toGovernance scope := by
  obtain ⟨type, id⟩ := scope
  cases type with
  | organization => rfl
  | team => simp only [Narrows, h.modeOf hscope]
  | apiKey => simp only [Narrows, h.modeOf hscope]
  | user => simp only [Narrows, h.modeOf hscope, h.configured hscope]

theorem KeepsOthers.reaches (h : KeepsOthers plan t u) {scopes : List Scope}
    (hscopes : ∀ scope ∈ scopes, scope.1 ≠ plan.scopeType) (callableKey : String) :
    Reaches u.toGovernance scopes callableKey ↔ Reaches t.toGovernance scopes callableKey := by
  refine forall_congr' fun scope => forall_congr' fun hmem => ?_
  rw [h.narrows (hscopes scope hmem), h.grants (hscopes scope hmem)]

end Others

end AssetAccessWrites
