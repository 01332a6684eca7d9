import DeltaLLM.RoutePolicyValidation
import DeltaLLM.TableStatements

/-! # The members of a route group under its policy

The members of a group are laid out as its published policy lists them. A member of the group is a
row as the repository builds it, a policy member an entry of the stored policy; none stands for an
OverflowError.
-/
namespace RoutePolicyMembers

open JsonValues PythonText CheckedResults Dictionaries TableStatements RoutePolicyValidation
open StreamingCache (toInt)

/-! ## Merging -/

section Merging

variable (py : Conversions)

/-- `str(member.get("deployment_id") or "")`. -/
def memberId (member : JsonObject) : String :=
  textOrEmpty py (JsonObject.get member "deployment_id")

/-- `bool(member.get("enabled", True))`. -/
def isEnabled (member : JsonObject) : Bool :=
  ((JsonObject.get? member "enabled").getD (.bool true)).truthy

/-- An integer that overrides the member's own; what `int` refuses is passed over. -/
def overrideInt (merged item : JsonObject) (key : String) : Option JsonObject :=
  match JsonObject.get item key with
  | .null => some merged
  | value =>
      match toInt value with
      | .value n => some (JsonObject.set merged key (.int n))
      | .invalid => some merged
      | .overflow => none

def overridden (base item : JsonObject) : Option JsonObject := do
  let merged := match JsonObject.get? item "enabled" with
    | none => base
    | some value => JsonObject.set base "enabled" (.bool value.truthy)
  let merged ← overrideInt merged item "weight"
  overrideInt merged item "priority"

def byId (base : List JsonObject) : Dict String JsonObject :=
  Dict.ofRecords (memberId py) id (base.filter (memberId py · ≠ ""))

/-- The loop over the policy's members: the merged ones with their ids. -/
def mergeListed (byId : Dict String JsonObject) :
    List JsonValue → Option (List (String × JsonObject))
  | [] => some []
  | .dict item :: items =>
      let deploymentId := trimmed py (JsonObject.get item "deployment_id")
      if deploymentId = "" then mergeListed byId items
      else
        match byId.get? deploymentId with
        | none => mergeListed byId items
        | some base => do
            let merged ← overridden base item
            return (deploymentId, merged) :: (← mergeListed byId items)
  | _ :: items => mergeListed byId items

/-- `_merge_policy_members`. -/
def mergePolicyMembers (base : List JsonObject) (policyMembers : JsonValue) :
    Option (List JsonObject) :=
  match policyMembers with
  | .list (item :: items) => do
      let ordered ← mergeListed py (byId py base) (item :: items)
      let seen := ordered.map Prod.fst
      return ordered.map Prod.snd ++ base.filter (memberId py · ∉ seen)
  | _ => some base

end Merging

/-! ## What merging is for -/

/-- A member of the group with the settings of a policy member over its own. -/
structure Overrides (member : PolicyMember) (base merged : JsonObject) : Prop where
  enabled : JsonObject.get? merged "enabled" = some (.bool member.enabled)
  weight : JsonObject.get? merged "weight" =
    (member.weight.map fun n => .int n).or (JsonObject.get? base "weight")
  priority : JsonObject.get? merged "priority" =
    (member.priority.map fun n => .int n).or (JsonObject.get? base "priority")
  others : ∀ key, key ≠ "enabled" → key ≠ "weight" → key ≠ "priority" →
    JsonObject.get? merged key = JsonObject.get? base key

section Purpose

variable (py : Conversions) (base : List JsonObject)

def memberIds : List String := base.map (memberId py)

/-- The row of a policy member: the group's own one under its overrides. -/
def RowOf (member : PolicyMember) (row : JsonObject) : Prop :=
  ∃ own ∈ base, memberId py own = member.deploymentId ∧ Overrides member own row

/-- The listed members first, in the order of the list, and the others behind them as they are. -/
def Ordered (members : List PolicyMember) (merged : List JsonObject) : Prop :=
  ∃ listed,
    merged = listed ++ base.filter (memberId py · ∉ members.map (·.deploymentId)) ∧
    List.Forall₂ (RowOf py base) (members.filter (·.deploymentId ∈ memberIds py base)) listed

structure MembersPermuted (members : List PolicyMember) (merged : List JsonObject) : Prop where
  permutation : (memberIds py merged).Perm (memberIds py base)
  ordered : Ordered py base members merged

/-- The id that an entry of a payload lists, with whether it is enabled. -/
def listedEntry : JsonValue → Option (String × Bool)
  | .dict member =>
      some (trimmed py (JsonObject.get member "deployment_id"), isEnabled member)
  | _ => none

def listedMembers (payload : JsonValue) : List (String × Bool) :=
  match payload with
  | .dict fields =>
      match JsonObject.get? fields "members" with
      | some (.list raw) => raw.filterMap (listedEntry py)
      | _ => []
  | _ => []

/-- No member of the group is listed twice. -/
def ListedOnce (payload : JsonValue) : Prop :=
  ∀ id ∈ memberIds py base, ((listedMembers py payload).map Prod.fst).count id ≤ 1

instance (payload : JsonValue) : Decidable (ListedOnce py base payload) :=
  inferInstanceAs (Decidable (∀ id ∈ memberIds py base, _ ≤ 1))

/-- The payload enables a member of the group, or leaves an enabled one unlisted. -/
def KeepsEnabled (payload : JsonValue) : Prop :=
  (∃ entry ∈ listedMembers py payload, entry.2 = true ∧ entry.1 ∈ memberIds py base) ∨
    ∃ own ∈ base, isEnabled own = true ∧
      memberId py own ∉ (listedMembers py payload).map Prod.fst

instance (payload : JsonValue) : Decidable (KeepsEnabled py base payload) :=
  inferInstanceAs (Decidable ((∃ entry ∈ listedMembers py payload, _) ∨ ∃ own ∈ base, _))

/-- The ids are as the admin API stores them. -/
def StoredIds : Prop := ∀ id ∈ memberIds py base, id ≠ "" ∧ strip id = id

end Purpose

/-! ## A stored member overrides its row -/

section Stored

variable (member : PolicyMember)

theorem get?_fieldsOf (key : String) :
    JsonObject.get? (fieldsOf member) key =
      if key = "deployment_id" then some (.str member.deploymentId)
      else if key = "enabled" then some (.bool member.enabled)
      else if key = "weight" then member.weight.map fun n => .int n
      else if key = "priority" then member.priority.map fun n => .int n
      else none := by
  have hpriority : JsonObject.get? (optionalInt "priority" member.priority) key =
      if "priority" = key then member.priority.map fun n => .int n else none := by
    have h := get?_optionalInt "priority" member.priority [] key
    simpa [JsonObject.get?] using h
  unfold fieldsOf
  rw [List.append_assoc]
  simp only [List.cons_append, List.nil_append, JsonObject.get?, get?_optionalInt, hpriority]
  grind

theorem trimmed_fieldsOf (py : Conversions) :
    trimmed py (JsonObject.get (fieldsOf member) "deployment_id") = member.deploymentId := by
  rw [JsonObject.get, get?_fieldsOf]
  simpa [trimmed, textOrEmpty] using member.stripped

theorem overrideInt_of_int {minimum : ℤ} (merged item : JsonObject) (key : String)
    (n : Option {n : ℤ // minimum ≤ n})
    (h : JsonObject.get? item key = n.map fun n => .int n) :
    ∃ merged', overrideInt merged item key = some merged' ∧
      ∀ key', JsonObject.get? merged' key' =
        if key = key' then (n.map fun n => .int n).or (JsonObject.get? merged key')
        else JsonObject.get? merged key' := by
  cases n with
  | none => exact ⟨merged, by simp [overrideInt, JsonObject.get, h], by simp⟩
  | some n =>
      refine ⟨JsonObject.set merged key (.int n), ?_, ?_⟩
      · simp [overrideInt, JsonObject.get, h, toInt]
      · intro key'
        simp [JsonObject.get?_set]

theorem overridden_fieldsOf (base : JsonObject) :
    ∃ merged, overridden base (fieldsOf member) = some merged ∧ Overrides member base merged := by
  have henabled : JsonObject.get? (fieldsOf member) "enabled" = some (.bool member.enabled) := by
    simp [get?_fieldsOf]
  obtain ⟨weighted, hweighted, hweight⟩ :=
    overrideInt_of_int (JsonObject.set base "enabled" (.bool member.enabled)) (fieldsOf member)
      "weight" member.weight (by simp [get?_fieldsOf])
  obtain ⟨merged, hmerged, hpriority⟩ :=
    overrideInt_of_int weighted (fieldsOf member) "priority" member.priority
      (by simp [get?_fieldsOf])
  refine ⟨merged, ?_, ?_⟩
  · simp [overridden, henabled, hweighted, hmerged, JsonValue.truthy]
  · constructor
    · simp [hpriority, hweight]
    · simp [hpriority, hweight, JsonObject.get?_set]
    · simp [hpriority, hweight, JsonObject.get?_set]
    · intro key hne hneWeight hnePriority
      simp [hpriority, hweight, JsonObject.get?_set, hne.symm, hneWeight.symm, hnePriority.symm]

end Stored

/-! ## What merging returns -/

/-- Among rows with distinct keys a key finds its row from either end. -/
theorem find?_iff_of_nodup {ρ κ : Type*} [DecidableEq κ] {key : ρ → κ} {rows : List ρ}
    (h : (rows.map key).Nodup) {k : κ} {row : ρ} :
    rows.find? (key · = k) = some row ↔ row ∈ rows ∧ key row = k := by
  constructor
  · intro hfind
    exact ⟨List.mem_of_find?_eq_some hfind, by simpa using List.find?_some hfind⟩
  · rintro ⟨hmem, hkey⟩
    cases hfind : rows.find? (key · = k) with
    | none =>
        have hnot := List.find?_eq_none.mp hfind row hmem
        exact absurd hkey (by simpa using hnot)
    | some other =>
        have hother : key other = k := by simpa using List.find?_some hfind
        have hin := List.mem_of_find?_eq_some hfind
        rw [List.inj_on_of_nodup_map h hin hmem (hother.trans hkey.symm)]

section Merged

variable {py : Conversions} {base merged : List JsonObject} {members : List PolicyMember}

theorem get?_byId (hdistinct : (memberIds py base).Nodup) {deploymentId : String}
    (hne : deploymentId ≠ "") {row : JsonObject} :
    (byId py base).get? deploymentId = some row ↔
      row ∈ base ∧ memberId py row = deploymentId := by
  have hfiltered : (((base.filter (memberId py · ≠ "")).reverse).map (memberId py)).Nodup := by
    rw [List.map_reverse, List.nodup_reverse]
    exact hdistinct.sublist (List.filter_sublist.map _)
  rw [byId, Dict.get?_ofRecords, Option.map_id_fun, id_eq, find?_iff_of_nodup hfiltered,
    List.mem_reverse, List.mem_filter]
  constructor
  · rintro ⟨⟨hmem, -⟩, hid⟩
    exact ⟨hmem, hid⟩
  · rintro ⟨hmem, hid⟩
    exact ⟨⟨hmem, by simpa [hid] using hne⟩, hid⟩

/-- One row for each listed member that the group has, in the order of the list. -/
theorem mergeListed_rows (hdistinct : (memberIds py base).Nodup) (members : List PolicyMember) :
    ∃ ordered,
      mergeListed py (byId py base) (members.map fun member => .dict (fieldsOf member)) =
        some ordered ∧
      List.Forall₂
        (fun member entry => entry.1 = member.deploymentId ∧ RowOf py base member entry.2)
        (members.filter (·.deploymentId ∈ memberIds py base)) ordered := by
  induction members with
  | nil => exact ⟨[], rfl, .nil⟩
  | cons member members ih =>
      obtain ⟨ordered, hordered, hrows⟩ := ih
      simp only [List.map_cons, mergeListed, trimmed_fieldsOf, if_neg member.nonempty]
      cases hfind : (byId py base).get? member.deploymentId with
      | none =>
          have hnot : member.deploymentId ∉ memberIds py base := by
            intro hmem
            obtain ⟨own, hown, hid⟩ := List.mem_map.mp hmem
            have hsome := (get?_byId hdistinct member.nonempty).mpr ⟨hown, hid⟩
            rw [hfind] at hsome
            cases hsome
          refine ⟨ordered, hordered, ?_⟩
          rw [List.filter_cons_of_neg (by simpa using hnot)]
          exact hrows
      | some own =>
          obtain ⟨hown, hid⟩ := (get?_byId hdistinct member.nonempty).mp hfind
          obtain ⟨row, hrow, hoverrides⟩ := overridden_fieldsOf member own
          have hmem : member.deploymentId ∈ memberIds py base := List.mem_map.mpr ⟨own, hown, hid⟩
          refine ⟨(member.deploymentId, row) :: ordered, ?_, ?_⟩
          · rw [hordered]
            simp [hrow]
          · rw [List.filter_cons_of_pos (by simpa using hmem)]
            exact .cons ⟨rfl, own, hown, hid, hoverrides⟩ hrows

theorem map_of_rows {β γ : Type*} {R : PolicyMember → β → Prop} {rows : List β}
    (h : List.Forall₂ R members rows) {f : PolicyMember → γ} {g : β → γ}
    (hread : ∀ {member row}, R member row → g row = f member) : rows.map g = members.map f := by
  induction h with
  | nil => rfl
  | cons hrow _ ih => rw [List.map_cons, List.map_cons, hread hrow, ih]

theorem mergePolicyMembers_ordered (hdistinct : (memberIds py base).Nodup)
    (members : List PolicyMember) :
    ∃ merged,
      mergePolicyMembers py base (.list (members.map fun member => .dict (fieldsOf member))) =
        some merged ∧ Ordered py base members merged := by
  cases members with
  | nil => exact ⟨base, rfl, [], by simp, .nil⟩
  | cons member members =>
      obtain ⟨ordered, hordered, hrows⟩ := mergeListed_rows hdistinct (member :: members)
      have hseen : ordered.map Prod.fst = ((member :: members).filter
          (·.deploymentId ∈ memberIds py base)).map (·.deploymentId) :=
        map_of_rows hrows fun h => h.1
      have hunlisted : base.filter (memberId py · ∉ ordered.map Prod.fst) =
          base.filter (memberId py · ∉ (member :: members).map (·.deploymentId)) := by
        refine List.filter_congr fun own hown => ?_
        have hmem : memberId py own ∈ memberIds py base := List.mem_map_of_mem hown
        have hiff : memberId py own ∈ ordered.map Prod.fst ↔
            memberId py own ∈ (member :: members).map (·.deploymentId) := by
          rw [hseen]
          constructor
          · intro h
            exact (List.filter_sublist.map _).subset h
          · intro h
            obtain ⟨listed, hlisted, hid⟩ := List.mem_map.mp h
            refine List.mem_map.mpr ⟨listed, List.mem_filter.mpr ⟨hlisted, ?_⟩, hid⟩
            simpa [hid] using hmem
        simp only [hiff]
      refine ⟨_, ?_, ordered.map Prod.snd, rfl, ?_⟩
      · rw [List.map_cons] at hordered ⊢
        rw [← hunlisted, mergePolicyMembers, hordered]
        rfl
      · rw [List.forall₂_map_right_iff]
        exact hrows.imp fun member entry h => h.2

theorem RowOf.memberId_eq {member : PolicyMember} {row : JsonObject}
    (h : RowOf py base member row) : memberId py row = member.deploymentId := by
  obtain ⟨own, -, hid, hoverrides⟩ := h
  rw [← hid, memberId, memberId, JsonObject.get, JsonObject.get,
    hoverrides.others "deployment_id" (by decide) (by decide) (by decide)]

theorem RowOf.isEnabled_eq {member : PolicyMember} {row : JsonObject}
    (h : RowOf py base member row) : isEnabled row = member.enabled := by
  obtain ⟨own, -, -, hoverrides⟩ := h
  rw [isEnabled, hoverrides.enabled]
  rfl

theorem Ordered.memberIds_eq (h : Ordered py base members merged) :
    memberIds py merged =
      (members.map (·.deploymentId)).filter (· ∈ memberIds py base) ++
        (memberIds py base).filter (· ∉ members.map (·.deploymentId)) := by
  obtain ⟨listed, rfl, hrows⟩ := h
  have hlisted := map_of_rows hrows fun hrow => hrow.memberId_eq
  rw [memberIds, List.map_append, hlisted, List.filter_map, memberIds, List.filter_map]
  rfl

/-- Listed ones first, the others behind them: each once exactly when none is listed twice. -/
theorem perm_listed_first {α : Type*} [DecidableEq α] {ids : List α} (h : ids.Nodup)
    (listed : List α) :
    (listed.filter (· ∈ ids) ++ ids.filter (· ∉ listed)).Perm ids ↔
      ∀ x ∈ ids, listed.count x ≤ 1 := by
  have hcount : ∀ x ∈ ids, (listed.filter (· ∈ ids)).count x = listed.count x :=
    fun x hx => List.count_filter (by simpa using hx)
  constructor
  · intro hperm x hx
    have hnodup := List.Nodup.of_append_left (hperm.nodup_iff.mpr h)
    rw [← hcount x hx]
    exact List.nodup_iff_count_le_one.mp hnodup x
  · intro honce
    have hlisted : (listed.filter (· ∈ ids)).Nodup := by
      refine List.nodup_iff_count_le_one.mpr fun x => ?_
      by_cases hx : x ∈ ids
      · rw [hcount x hx]
        exact honce x hx
      · have hnot : x ∉ listed.filter (· ∈ ids) := by
          intro hmem
          exact hx (by simpa using (List.mem_filter.mp hmem).2)
        rw [List.count_eq_zero_of_not_mem hnot]
        exact Nat.zero_le 1
    have hdisjoint : List.Disjoint (listed.filter (· ∈ ids)) (ids.filter (· ∉ listed)) := by
      intro x hx hx'
      have hnot := (List.mem_filter.mp hx').2
      exact absurd (List.mem_filter.mp hx).1 (by simpa using hnot)
    refine (List.perm_ext_iff_of_nodup (hlisted.append (h.filter _) hdisjoint) h).mpr fun x => ?_
    simp only [List.mem_append, List.mem_filter, decide_eq_true_eq]
    tauto

theorem Ordered.permuted_iff (hdistinct : (memberIds py base).Nodup)
    (h : Ordered py base members merged) :
    MembersPermuted py base members merged ↔
      ∀ id ∈ memberIds py base, (members.map (·.deploymentId)).count id ≤ 1 := by
  rw [← perm_listed_first hdistinct, ← h.memberIds_eq]
  exact ⟨fun hpermuted => hpermuted.permutation, fun hperm => ⟨hperm, h⟩⟩

theorem Ordered.exists_enabled_iff (h : Ordered py base members merged) :
    (∃ row ∈ merged, isEnabled row = true) ↔
      (∃ member ∈ members, member.enabled = true ∧ member.deploymentId ∈ memberIds py base) ∨
      ∃ own ∈ base, isEnabled own = true ∧ memberId py own ∉ members.map (·.deploymentId) := by
  obtain ⟨listed, rfl, hrows⟩ := h
  have henabled := map_of_rows hrows fun hrow => hrow.isEnabled_eq
  have hlisted : (∃ row ∈ listed, isEnabled row = true) ↔
      ∃ member ∈ members, member.enabled = true ∧ member.deploymentId ∈ memberIds py base := by
    have hmem : true ∈ listed.map isEnabled ↔ true ∈
        (members.filter (·.deploymentId ∈ memberIds py base)).map (·.enabled) := by
      rw [henabled]
    simp only [List.mem_map, List.mem_filter, decide_eq_true_eq] at hmem
    rw [hmem]
    constructor
    · rintro ⟨member, ⟨hmember, hid⟩, hon⟩
      exact ⟨member, hmember, hon, hid⟩
    · rintro ⟨member, hmember, hon, hid⟩
      exact ⟨member, ⟨hmember, hid⟩, hon⟩
  rw [← hlisted]
  constructor
  · rintro ⟨row, hrow, hon⟩
    rcases List.mem_append.mp hrow with hrow | hrow
    · exact .inl ⟨row, hrow, hon⟩
    · obtain ⟨hown, hunlisted⟩ := List.mem_filter.mp hrow
      exact .inr ⟨row, hown, hon, by simpa using hunlisted⟩
  · rintro (⟨row, hrow, hon⟩ | ⟨own, hown, hon, hunlisted⟩)
    · exact ⟨row, List.mem_append_left _ hrow, hon⟩
    · refine ⟨own, List.mem_append_right _ ?_, hon⟩
      exact List.mem_filter.mpr ⟨hown, by simpa using hunlisted⟩

end Merged

/-! ## Accepted policies -/

section Accepted

variable {py : Conversions}

/-- What a payload says of a member that passed. -/
def entryOf (member : PolicyMember) : String × Bool := (member.deploymentId, member.enabled)

theorem normalizeMember_ok {raw : JsonValue} {idx : ℕ} {member : PolicyMember}
    (h : normalizeMember py raw idx = .ok member) :
    ∃ fields, raw = .dict fields ∧
      entryOf member = (trimmed py (JsonObject.get fields "deployment_id"), isEnabled fields) := by
  unfold normalizeMember at h
  split at h
  next fields =>
    dsimp only at h
    split at h
    next => cases h
    next hid =>
      obtain ⟨weight, -, h⟩ := bind_ok_iff.mp h
      obtain ⟨priority, -, h⟩ := bind_ok_iff.mp h
      cases h
      exact ⟨fields, rfl, rfl⟩
  next => cases h

theorem normalizeMembers_ok {value : JsonValue} {members : List PolicyMember}
    (h : normalizeMembers py value = .ok (some members)) :
    ∃ raw, value = .list raw ∧
      List.Forall₂ (fun entry member => normalizeMember py entry.1 entry.2 = .ok member)
        raw.zipIdx members := by
  cases value with
  | list raw =>
      rw [normalizeMembers] at h
      obtain ⟨read, hread, hsome⟩ := map_ok_iff.mp h
      cases hsome
      exact ⟨raw, rfl, mapM_ok_iff.mp hread⟩
  | null | bool _ | int _ | float _ | str _ | dict _ => cases h

theorem entries_of_members {entries : List (JsonValue × ℕ)} {members : List PolicyMember}
    (h : List.Forall₂ (fun entry member => normalizeMember py entry.1 entry.2 = .ok member)
      entries members) :
    members.map entryOf = (entries.map Prod.fst).filterMap (listedEntry py) := by
  induction h with
  | nil => rfl
  | cons hmember _ ih =>
      obtain ⟨fields, hdict, hentry⟩ := normalizeMember_ok hmember
      rw [List.map_cons, List.map_cons, hdict, List.filterMap_cons, ih, hentry]
      rfl

theorem listedMembers_of_read {fields : JsonObject} {policy : RoutePolicy}
    (h : ReadFrom py fields policy) :
    (policy.members.getD []).map entryOf = listedMembers py (.dict fields) := by
  rcases optionMapM_ok h.members with ⟨hnone, hmembers⟩ | ⟨value, read, hvalue, hmembers, hread⟩
  · rw [Option.map_eq_none_iff] at hmembers
    simp [listedMembers, hnone, hmembers]
  · cases hlisted : policy.members with
    | none =>
        rw [hlisted] at hmembers
        cases hmembers
    | some members =>
        rw [hlisted] at hmembers
        cases hmembers
        obtain ⟨raw, rfl, hall⟩ := normalizeMembers_ok hread
        have hentries := entries_of_members hall
        rw [List.zipIdx_map_fst] at hentries
        simpa [listedMembers, hvalue] using hentries

theorem prioritized_entries (members : List PolicyMember) :
    (prioritized members).map entryOf = members.map entryOf := by
  apply List.ext_getElem
  · simp [prioritized]
  · intro i _ _
    simp [prioritized, entryOf]

theorem applyMode_entries (policy : RoutePolicy) :
    ((applyMode policy).1.members.getD []).map entryOf =
      (policy.members.getD []).map entryOf := by
  rcases applyMode_members policy with h | h
  · rw [h]
  · rw [h]
    cases policy.members with
    | none => rfl
    | some members => exact prioritized_entries members

/-- A policy that was accepted for stored ids, some of them there, enables one of them. -/
theorem some_listed_enabled {base : List JsonObject} {members : List PolicyMember}
    (hstored : StoredIds py base) (hbase : base ≠ [])
    (hreferences : checkReferences (validMemberIds (memberIds py base).toFinset) members = .ok ())
    (hactive : members.any (·.enabled) = true) :
    ∃ member ∈ members, member.enabled = true ∧ member.deploymentId ∈ memberIds py base := by
  have hvalid : ∀ {deploymentId : String},
      deploymentId ∈ validMemberIds (memberIds py base).toFinset ↔
        deploymentId ∈ memberIds py base := by
    intro deploymentId
    simp only [validMemberIds, Finset.mem_filter, Finset.mem_image, List.mem_toFinset]
    constructor
    · rintro ⟨⟨stored, hmem, rfl⟩, -⟩
      rwa [(hstored stored hmem).2]
    · intro hmem
      exact ⟨⟨deploymentId, hmem, (hstored deploymentId hmem).2⟩, (hstored deploymentId hmem).1⟩
  obtain ⟨own, hown⟩ := List.exists_mem_of_ne_nil base hbase
  have hnonempty : validMemberIds (memberIds py base).toFinset ≠ ∅ :=
    Finset.ne_empty_of_mem (hvalid.mpr (List.mem_map_of_mem hown))
  obtain ⟨member, hmember, hon⟩ := List.any_eq_true.mp hactive
  refine ⟨member, hmember, hon, ?_⟩
  by_contra hunknown
  have hmem : member.deploymentId ∈ (members.map (·.deploymentId)).filter
      (· ∉ validMemberIds (memberIds py base).toFinset) := by
    refine List.mem_filter.mpr ⟨List.mem_map_of_mem hmember, ?_⟩
    simpa [hvalid] using hunknown
  rw [checkReferences, if_neg] at hreferences
  · cases hreferences
  · rintro (hempty | hknown)
    · exact hnonempty hempty
    · rw [hknown] at hmem
      cases hmem

/-- Merging lays out every accepted policy in its order. Each member of the group is there once
exactly when the payload lists none of them twice, and one is enabled exactly when the payload
enables one or leaves an enabled one unlisted; over stored ids a list always does. -/
theorem members_permuted_iff (py : Conversions) {base : List JsonObject}
    (hdistinct : (memberIds py base).Nodup) {payload : JsonValue}
    {availableMemberIds : Finset String} {policy : RoutePolicy} {warnings : List String}
    (haccepted : validateRoutePolicy py payload availableMemberIds = .ok (policy, warnings)) :
    ∃ merged, mergePolicyMembers py base (membersJson policy) = some merged ∧
      (MembersPermuted py base (policy.members.getD []) merged ↔ ListedOnce py base payload) ∧
      (availableMemberIds = (memberIds py base).toFinset →
        ((∃ row ∈ merged, isEnabled row = true) ↔ KeepsEnabled py base payload) ∧
        (StoredIds py base → base ≠ [] → listedMembers py payload ≠ [] →
          KeepsEnabled py base payload)) := by
  obtain ⟨fields, read, rfl, hread, hreferences, hactive, happlied⟩ :=
    validateRoutePolicy_ok haccepted
  have hentries : (policy.members.getD []).map entryOf = listedMembers py (.dict fields) := by
    rw [← listedMembers_of_read hread, ← applyMode_entries read, ← happlied]
  have hids : (policy.members.getD []).map (·.deploymentId) =
      (listedMembers py (.dict fields)).map Prod.fst := by
    rw [← hentries, List.map_map]
    rfl
  have hmerged : ∃ merged, mergePolicyMembers py base (membersJson policy) = some merged ∧
      Ordered py base (policy.members.getD []) merged := by
    rw [membersJson]
    cases policy.members with
    | none => exact ⟨base, rfl, [], by simp, .nil⟩
    | some members => exact mergePolicyMembers_ordered hdistinct members
  obtain ⟨merged, hmerge, hordered⟩ := hmerged
  refine ⟨merged, hmerge, ?_, ?_⟩
  · rw [hordered.permuted_iff hdistinct, hids]
    rfl
  · rintro rfl
    constructor
    · rw [hordered.exists_enabled_iff, hids, KeepsEnabled, ← hentries]
      simp [entryOf]
    · intro hstored hbase hlisted
      left
      rw [← listedMembers_of_read hread] at hlisted ⊢
      cases hmembers : read.members with
      | none => simp [hmembers] at hlisted
      | some members =>
          rw [hmembers] at hreferences hactive
          obtain ⟨member, hmember, hon, hid⟩ :=
            some_listed_enabled hstored hbase hreferences hactive
          exact ⟨entryOf member, List.mem_map_of_mem hmember, hon, hid⟩

end Accepted

/-! ## A member listed twice -/

namespace Counterexample

def conversions : Conversions := ⟨fun n => some (.finite n), fun _ => none, fun _ => ""⟩

def group : List JsonObject :=
  [[("deployment_id", .str "a"), ("enabled", .bool true), ("weight", .int 1), ("priority", .null)],
    [("deployment_id", .str "b"), ("enabled", .bool true), ("weight", .int 1), ("priority", .null)]]

def twice : JsonValue :=
  .dict [("members", .list [.dict [("deployment_id", .str "a"), ("weight", .int 3)],
    .dict [("deployment_id", .str "a")]])]

def once : JsonValue :=
  .dict [("members", .list [.dict [("deployment_id", .str "b"), ("weight", .int 3)]])]

/-- Listing a member twice gives it two rows. -/
theorem listed_twice_doubled :
    (memberIds conversions group).Nodup ∧
    ∃ policy warnings merged,
      validateRoutePolicy conversions twice (memberIds conversions group).toFinset =
        .ok (policy, warnings) ∧
      mergePolicyMembers conversions group (membersJson policy) = some merged ∧
      memberIds conversions merged = ["a", "a", "b"] ∧
      ¬ MembersPermuted conversions group (policy.members.getD []) merged := by
  refine ⟨by decide +kernel, _, _, _, rfl, rfl, by decide +kernel, ?_⟩
  intro hpermuted
  have hlength := hpermuted.permutation.length_eq
  revert hlength
  decide +kernel

theorem listed_once_permuted :
    ∃ policy warnings merged,
      validateRoutePolicy conversions once (memberIds conversions group).toFinset =
        .ok (policy, warnings) ∧
      mergePolicyMembers conversions group (membersJson policy) = some merged ∧
      MembersPermuted conversions group (policy.members.getD []) merged ∧
      ∃ row ∈ merged, isEnabled row = true := by
  have haccepted : ∃ policy warnings,
      validateRoutePolicy conversions once (memberIds conversions group).toFinset =
        .ok (policy, warnings) := ⟨_, _, rfl⟩
  have hdistinct : (memberIds conversions group).Nodup := by decide +kernel
  obtain ⟨policy, warnings, haccepted⟩ := haccepted
  obtain ⟨merged, hmerged, hpermuted, henabled⟩ :=
    members_permuted_iff conversions hdistinct haccepted
  refine ⟨policy, warnings, merged, haccepted, hmerged, hpermuted.mpr (by decide +kernel), ?_⟩
  exact (henabled rfl).1.mpr (by decide +kernel)

end Counterexample

end RoutePolicyMembers
