import DeltaLLM.RoutePolicies
import Mathlib.Logic.Function.Basic

/-! # What publishing a route policy keeps

Between the archive and the write of a publishing operation the group may have no published policy.
The invariant says that such an operation is then still under way.
-/
namespace RoutePolicyPublication

open JsonValues (JsonObject)
open RoutePolicies
open TableStatements
open TransitionRuns

variable {groupId : String} {now : Timestamp} {newId : String} {policies : List RoutePolicyRecord}

/-! ## What the statements publish -/

def Publishes (groupId : String) (policies : List RoutePolicyRecord) (routePolicyId : String) :
    Prop :=
  ∃ row ∈ policies, Published groupId row ∧ row.routePolicyId = routePolicyId

section Statements

variable {routePolicyId draftId : String} {publishedBy : Option String} {policyJson : JsonObject}

theorem not_publishes_archivePublished :
    ¬Publishes groupId (archivePublished groupId now policies) routePolicyId := by
  rintro ⟨row, hrow, hpublished, -⟩
  obtain ⟨old, -, rfl⟩ := (mem_updateWhere _ _).mp hrow
  by_cases hold : Published groupId old
  · rw [if_pos hold] at hpublished
    exact PolicyStatus.noConfusion hpublished.2
  · rw [if_neg hold] at hpublished
    exact hold hpublished

theorem publishes_append {row : RoutePolicyRecord} :
    Publishes groupId (policies ++ [row]) routePolicyId ↔
      Publishes groupId policies routePolicyId ∨
        (Published groupId row ∧ row.routePolicyId = routePolicyId) := by
  constructor
  · rintro ⟨found, hfound, hpublished⟩
    rcases List.mem_append.mp hfound with hold | hnew
    · exact Or.inl ⟨found, hold, hpublished⟩
    · obtain rfl := List.mem_singleton.mp hnew
      exact Or.inr hpublished
  · rintro (⟨found, hfound, hpublished⟩ | hpublished)
    · exact ⟨found, List.mem_append_left _ hfound, hpublished⟩
    · exact ⟨row, List.mem_append_right _ (List.mem_singleton_self row), hpublished⟩

theorem publishes_rewriteById :
    Publishes groupId (rewriteById now policies draftId policyJson) routePolicyId ↔
      Publishes groupId policies routePolicyId := by
  constructor
  · rintro ⟨row, hrow, hpublished⟩
    obtain ⟨old, hold, rfl⟩ := (mem_updateWhere _ _).mp hrow
    refine ⟨old, hold, ?_⟩
    split_ifs at hpublished <;> exact hpublished
  · rintro ⟨old, hold, hpublished⟩
    refine ⟨_, (mem_updateWhere _ _).mpr ⟨old, hold, rfl⟩, ?_⟩
    split_ifs <;> exact hpublished

theorem publishes_publishById
    (hdraft : ∃ row ∈ policies, row.routePolicyId = draftId ∧ row.routeGroupId = groupId) :
    Publishes groupId (publishById now policies draftId publishedBy) draftId := by
  obtain ⟨row, hrow, hid, hgroup⟩ := hdraft
  refine ⟨_, (mem_updateWhere _ _).mpr ⟨row, hrow, rfl⟩, ?_⟩
  rw [if_pos hid]
  exact ⟨⟨hgroup, rfl⟩, hid⟩

theorem publishes_of_publishById
    (h : Publishes groupId (publishById now policies draftId publishedBy) routePolicyId) :
    Publishes groupId policies routePolicyId ∨ routePolicyId = draftId := by
  obtain ⟨row, hrow, hpublished, hid⟩ := h
  obtain ⟨old, hold, rfl⟩ := (mem_updateWhere _ _).mp hrow
  by_cases hdraft : old.routePolicyId = draftId
  · rw [if_pos hdraft] at hid
    exact Or.inr (hid.symm.trans hdraft)
  · rw [if_neg hdraft] at hpublished hid
    exact Or.inl ⟨old, hold, hpublished, hid⟩

theorem insertPolicy_cases (policies : List RoutePolicyRecord) (row : RoutePolicyRecord) :
    (VersionFree row.routeGroupId policies row.version ∧
        insertPolicy policies row = (policies ++ [row], .returned (some row))) ∨
      (¬VersionFree row.routeGroupId policies row.version ∧
        insertPolicy policies row = (policies, .uniqueViolation)) := by
  unfold insertPolicy
  by_cases hfree : VersionFree row.routeGroupId policies row.version
  · exact Or.inl ⟨hfree, if_pos hfree⟩
  · exact Or.inr ⟨hfree, if_neg hfree⟩

end Statements

/-- The draft that an operation has picked. -/
def picked : PolicyPhase → Option String
  | .archiving (.promote draftId _) => some draftId
  | .writing (.promote draftId _) => some draftId
  | .rewritingDraft draftId _ => some draftId
  | _ => none

/-- The phases that change what is published. -/
def Publishing : PolicyPhase → Prop
  | .archiving _ => True
  | .writing _ => True
  | _ => False

/-- The group has a row of this id. -/
def HasPolicy (groupId : String) (policies : List RoutePolicyRecord) (routePolicyId : String) :
    Prop :=
  ∃ row ∈ policies, row.routePolicyId = routePolicyId ∧ row.routeGroupId = groupId

theorem hasPolicy_latestDraft {draft : RoutePolicyRecord}
    (h : latestDraft groupId policies = some draft) :
    HasPolicy groupId policies draft.routePolicyId := by
  obtain ⟨hmem, hgroup, -⟩ := mem_of_mem_selectFirst (List.mem_of_mem_head? h)
  exact ⟨draft, hmem, rfl, hgroup⟩

/-- What a statement may do to the table: rows come with the new id, and no row goes or changes its
keys. -/
inductive TableChange (newId : String) (policies : List RoutePolicyRecord) :
    List RoutePolicyRecord → Prop where
  | unchanged : TableChange newId policies policies
  | inserted (row : RoutePolicyRecord) (hid : row.routePolicyId = newId) :
      TableChange newId policies (policies ++ [row])
  | rewritten (p : RoutePolicyRecord → Prop) [DecidablePred p]
      (f : RoutePolicyRecord → RoutePolicyRecord)
      (hid : ∀ row, (f row).routePolicyId = row.routePolicyId)
      (hgroup : ∀ row, (f row).routeGroupId = row.routeGroupId) :
      TableChange newId policies (updateWhere p f policies)

theorem TableChange.hasPolicy {policies' : List RoutePolicyRecord} {routePolicyId : String}
    (hchange : TableChange newId policies policies')
    (h : HasPolicy groupId policies routePolicyId) :
    HasPolicy groupId policies' routePolicyId := by
  obtain ⟨row, hrow, hkeys⟩ := h
  cases hchange with
  | unchanged => exact ⟨row, hrow, hkeys⟩
  | inserted new => exact ⟨row, List.mem_append_left _ hrow, hkeys⟩
  | rewritten p f hid hgroup =>
      refine ⟨_, (mem_updateWhere _ _).mpr ⟨row, hrow, rfl⟩, ?_⟩
      by_cases hp : p row
      · rw [if_pos hp, hid, hgroup]
        exact hkeys
      · rw [if_neg hp]
        exact hkeys

theorem TableChange.ids {policies' : List RoutePolicyRecord}
    (hchange : TableChange newId policies policies')
    (hfresh : ∀ row ∈ policies, row.routePolicyId ≠ newId)
    (hnodup : (policies.map RoutePolicyRecord.routePolicyId).Nodup) :
    (policies'.map RoutePolicyRecord.routePolicyId).Nodup := by
  cases hchange with
  | unchanged => exact hnodup
  | inserted new hid =>
      rw [List.map_append]
      refine List.nodup_append.mpr ⟨hnodup, List.nodup_singleton _, ?_⟩
      rintro id hold id' hnew rfl
      obtain ⟨old, hmem, rfl⟩ := List.mem_map.mp hold
      rw [List.map_singleton, List.mem_singleton, hid] at hnew
      exact hfresh old hmem hnew
  | rewritten p f hid =>
      rw [map_updateWhere p f _ (fun row _ => hid row)]
      exact hnodup

section Phases

variable {phase : PolicyPhase}

theorem runStatement_change :
    TableChange newId policies (runStatement groupId now newId policies phase).1 := by
  have hinsert : ∀ row : RoutePolicyRecord, row.routePolicyId = newId →
      TableChange newId policies (insertPolicy policies row).1 := by
    intro row hid
    rcases insertPolicy_cases policies row with ⟨-, hresult⟩ | ⟨-, hresult⟩
    · rw [hresult]
      exact .inserted row hid
    · rw [hresult]
      exact .unchanged
  cases phase with
  | readingVersion => exact .unchanged
  | archiving => exact .rewritten _ _ (fun _ => rfl) fun _ => rfl
  | writing write =>
      cases write with
      | insert => exact hinsert _ rfl
      | promote => exact .rewritten _ _ (fun _ => rfl) fun _ => rfl
  | findingDraft =>
      simp only [runStatement]
      cases latestDraft groupId policies <;> exact .unchanged
  | rewritingDraft => exact .rewritten _ _ (fun _ => rfl) fun _ => rfl
  | readingDraftVersion => exact .unchanged
  | insertingDraft => exact hinsert _ rfl
  | findingLatest =>
      simp only [runStatement]
      cases latestDraft groupId policies <;> exact .unchanged
  | findingTarget version =>
      simp only [runStatement]
      cases policyOfVersion groupId policies version with
      | none => exact .unchanged
      | some source =>
          simp only
          split_ifs <;> exact .unchanged

/-- A picked draft was picked before or is a row that the statement found. -/
theorem runStatement_picked {phase' : PolicyPhase} {draftId : String}
    (hnext : (runStatement groupId now newId policies phase).2.phase? = some phase')
    (hpicked : picked phase' = some draftId) :
    HasPolicy groupId policies draftId ∨ picked phase = some draftId := by
  have hinsert : ∀ row, (insertPolicy policies row).2.phase? = none := by
    intro row
    rcases insertPolicy_cases policies row with ⟨-, hresult⟩ | ⟨-, hresult⟩ <;>
      rw [hresult] <;> rfl
  cases phase with
  | readingVersion =>
      obtain rfl := Option.some.inj hnext
      cases hpicked
  | archiving write =>
      obtain rfl := Option.some.inj hnext
      cases write with
      | insert => cases hpicked
      | promote => exact Or.inr hpicked
  | writing write =>
      cases write with
      | insert =>
          simp only [runStatement, hinsert] at hnext
          cases hnext
      | promote => cases hnext
  | findingDraft =>
      simp only [runStatement] at hnext
      cases hdraft : latestDraft groupId policies with
      | none =>
          rw [hdraft] at hnext
          obtain rfl := Option.some.inj hnext
          cases hpicked
      | some draft =>
          rw [hdraft] at hnext
          obtain rfl := Option.some.inj hnext
          obtain rfl := Option.some.inj hpicked
          exact Or.inl (hasPolicy_latestDraft hdraft)
  | rewritingDraft => cases hnext
  | readingDraftVersion =>
      obtain rfl := Option.some.inj hnext
      cases hpicked
  | insertingDraft =>
      simp only [runStatement, hinsert] at hnext
      cases hnext
  | findingLatest =>
      simp only [runStatement] at hnext
      cases hdraft : latestDraft groupId policies with
      | none =>
          rw [hdraft] at hnext
          cases hnext
      | some draft =>
          rw [hdraft] at hnext
          obtain rfl := Option.some.inj hnext
          obtain rfl := Option.some.inj hpicked
          exact Or.inl (hasPolicy_latestDraft hdraft)
  | findingTarget version =>
      simp only [runStatement] at hnext
      cases hsource : policyOfVersion groupId policies version with
      | none =>
          rw [hsource] at hnext
          cases hnext
      | some source =>
          rw [hsource] at hnext
          by_cases hempty : source.policyJson = []
          · simp only [if_pos hempty] at hnext
            cases hnext
          · simp only [if_neg hempty] at hnext
            obtain rfl := Option.some.inj hnext
            cases hpicked

/-- Statements of the other phases leave what is published alone. -/
theorem runStatement_publishes (hquiet : ¬Publishing phase) {routePolicyId : String} :
    Publishes groupId (runStatement groupId now newId policies phase).1 routePolicyId ↔
      Publishes groupId policies routePolicyId := by
  cases phase with
  | readingVersion => exact Iff.rfl
  | archiving => exact absurd trivial hquiet
  | writing => exact absurd trivial hquiet
  | findingDraft =>
      simp only [runStatement]
      cases latestDraft groupId policies <;> exact Iff.rfl
  | rewritingDraft => exact publishes_rewriteById
  | readingDraftVersion => exact Iff.rfl
  | insertingDraft version policyJson =>
      simp only [runStatement]
      rcases insertPolicy_cases policies
        (draftRow groupId now newId version policyJson) with ⟨-, hresult⟩ | ⟨-, hresult⟩
      · rw [hresult, publishes_append]
        refine or_iff_left ?_
        rintro ⟨⟨-, hstatus⟩, -⟩
        cases hstatus
      · rw [hresult]
  | findingLatest =>
      simp only [runStatement]
      cases latestDraft groupId policies <;> exact Iff.rfl
  | findingTarget version =>
      simp only [runStatement]
      cases policyOfVersion groupId policies version with
      | none => exact Iff.rfl
      | some source =>
          simp only
          split_ifs <;> exact Iff.rfl

end Phases

/-! ## Runs -/

/-- The operation is between its archive and its write. -/
def Writing (s : PolicyState) (pid : ℕ) : Prop := ∃ write, s.operations pid = some (.writing write)

section Conditions

variable (groupId : String) (s : PolicyState)

/-- The group, once it had a published policy, has one, or another operation is about to write
one. -/
def CoveredWithout (pid : ℕ) : Prop :=
  s.hadPublished = true → (∃ id, Publishes groupId s.policies id) ∨ ∃ other ≠ pid, Writing s other

/-- The statement meets no trace of another operation since this one's own earlier statements: a
publishing write meets no other published policy, its version is not taken in the meantime, and a
draft that is rewritten has not been published. -/
def CleanStatement (pid : ℕ) : PolicyPhase → Prop
  | .writing (.insert _ _ version) =>
      (VersionFree groupId s.policies version → ∀ id, ¬Publishes groupId s.policies id) ∧
        (¬VersionFree groupId s.policies version → CoveredWithout groupId s pid)
  | .writing (.promote draftId _) => ∀ id, Publishes groupId s.policies id → id = draftId
  | .rewritingDraft draftId _ => ¬Publishes groupId s.policies draftId
  | _ => True

/-- No operation dies, and nobody looks, between an archive and its write. -/
def CleanStep : PolicyEvent → Prop
  | .start _ _ => True
  | .statement pid _ _ =>
      ∀ phase, s.operations pid = some phase → CleanStatement groupId s pid phase
  | .crash pid => Writing s pid → CoveredWithout groupId s pid
  | .observe => s.hadPublished = true →
      (∃ id, Publishes groupId s.policies id) ∨ ∀ pid, ¬Writing s pid

/-- What publication is to keep. -/
structure PublicationKept : Prop where
  single : (publishedPolicies groupId s).length ≤ 1
  observed : ∀ seen ∈ s.observations, seen.hadPublished = true → seen.found ≠ none
  drafts : ∀ save ∈ s.draftSaves, Published groupId save.before →
    save.policyJson = save.before.policyJson

structure PublicationInv : Prop where
  ids : (s.policies.map RoutePolicyRecord.routePolicyId).Nodup
  picks : ∀ pid phase, s.operations pid = some phase → ∀ draftId, picked phase = some draftId →
    HasPolicy groupId s.policies draftId
  single : ∀ id id', Publishes groupId s.policies id → Publishes groupId s.policies id' → id = id'
  covered : s.hadPublished = true →
    (∃ id, Publishes groupId s.policies id) ∨ ∃ pid, Writing s pid
  observed : ∀ seen ∈ s.observations, seen.hadPublished = true → seen.found ≠ none
  drafts : ∀ save ∈ s.draftSaves, ¬Published groupId save.before

end Conditions

section Safety

variable {s : PolicyState} {pid : ℕ}

theorem publishes_of_published {row : RoutePolicyRecord} (hrow : row ∈ s.policies)
    (hpublished : Published groupId row) : Publishes groupId s.policies row.routePolicyId :=
  ⟨row, hrow, hpublished, rfl⟩

/-- Published rows of one id are one row. -/
theorem publishedPolicies_length_le (hids : (s.policies.map RoutePolicyRecord.routePolicyId).Nodup)
    (hsingle : ∀ id id', Publishes groupId s.policies id → Publishes groupId s.policies id' →
      id = id') : (publishedPolicies groupId s).length ≤ 1 := by
  have hnodup : ((publishedPolicies groupId s).map RoutePolicyRecord.routePolicyId).Nodup :=
    hids.sublist (List.filter_sublist.map _)
  have hsame : ∀ a ∈ publishedPolicies groupId s, ∀ b ∈ publishedPolicies groupId s,
      a.routePolicyId = b.routePolicyId := by
    intro a ha b hb
    obtain ⟨ha, hpa⟩ := List.mem_filter.mp ha
    obtain ⟨hb, hpb⟩ := List.mem_filter.mp hb
    exact hsingle _ _ (publishes_of_published ha (of_decide_eq_true hpa))
      (publishes_of_published hb (of_decide_eq_true hpb))
  rcases hrows : publishedPolicies groupId s with _ | ⟨a, _ | ⟨b, rest⟩⟩
  · simp
  · simp
  · rw [hrows] at hnodup hsame
    have hab := hsame a (List.mem_cons_self ..) b (List.mem_cons_of_mem _ (List.mem_cons_self ..))
    simp [hab] at hnodup

theorem getPublishedPolicy_ne_none {id : String} (h : Publishes groupId policies id) :
    getPublishedPolicy groupId policies ≠ none := by
  obtain ⟨row, hrow, hpublished, -⟩ := h
  have hcount : 0 < policies.countP fun row => Published groupId row :=
    List.countP_pos_iff.mpr ⟨row, hrow, decide_eq_true hpublished⟩
  have hlength : (selectFirst (Published groupId) newestFirst 1 policies).length = 1 := by
    rw [length_selectFirst]
    omega
  rw [getPublishedPolicy, newest]
  cases hselected : selectFirst (Published groupId) newestFirst 1 policies with
  | nil =>
      rw [hselected] at hlength
      cases hlength
  | cons first rest => simp

theorem PublicationInv.kept (h : PublicationInv groupId s) : PublicationKept groupId s :=
  ⟨publishedPolicies_length_le h.ids h.single, h.observed,
    fun save hsave hpublished => absurd hpublished (h.drafts save hsave)⟩

theorem writing_update_of_ne {phase? : Option PolicyPhase} {other : ℕ} (hne : other ≠ pid)
    (h : Writing s other) :
    ∃ write, Function.update s.operations pid phase? other = some (.writing write) := by
  obtain ⟨write, hwrite⟩ := h
  exact ⟨write, by rw [Function.update_of_ne hne, hwrite]⟩

/-- What a published policy that the state has now adds to the record is no news. -/
theorem had_of_run {phase : PolicyPhase}
    (h : (s.run groupId pid now newId phase).hadPublished = true) :
    s.hadPublished = true ∨
      ∃ id, Publishes groupId (s.run groupId pid now newId phase).policies id := by
  rcases Bool.or_eq_true_iff.mp h with hold | hnew
  · exact Or.inl hold
  · obtain ⟨row, hrow, hpublished⟩ := List.any_eq_true.mp hnew
    exact Or.inr ⟨_, row, hrow, of_decide_eq_true hpublished, rfl⟩

/-- One statement keeps the invariant when it keeps what is published single and covered. -/
theorem run_inv {phase : PolicyPhase} (h : PublicationInv groupId s)
    (hphase : s.operations pid = some phase)
    (hfresh : ∀ row ∈ s.policies, row.routePolicyId ≠ newId)
    (hclean : CleanStatement groupId s pid phase)
    (hsingle : ∀ id id',
      Publishes groupId (runStatement groupId now newId s.policies phase).1 id →
        Publishes groupId (runStatement groupId now newId s.policies phase).1 id' → id = id')
    (hcovered : s.hadPublished = true →
      (∃ id, Publishes groupId (runStatement groupId now newId s.policies phase).1 id) ∨
        ∃ other, Writing (s.run groupId pid now newId phase) other) :
    PublicationInv groupId (s.run groupId pid now newId phase) := by
  refine ⟨runStatement_change.ids hfresh h.ids, fun other phase' hother draftId hpicked => ?_,
    hsingle, fun hhad => ?_, h.observed, fun save hsave => ?_⟩
  · refine runStatement_change.hasPolicy ?_
    by_cases hsame : other = pid
    · subst hsame
      simp only [PolicyState.run, Function.update_self] at hother
      rcases runStatement_picked hother hpicked with hfound | hbefore
      · exact hfound
      · exact h.picks other phase hphase draftId hbefore
    · simp only [PolicyState.run, Function.update_of_ne hsame] at hother
      exact h.picks other phase' hother draftId hpicked
  · rcases had_of_run hhad with hold | hnew
    · exact hcovered hold
    · exact Or.inl hnew
  · rcases List.mem_append.mp hsave with hold | hnew
    · exact h.drafts save hold
    · cases phase with
      | rewritingDraft draftId policyJson =>
          obtain ⟨row, hrow, rfl⟩ := List.mem_map.mp hnew
          obtain ⟨hmem, hid⟩ := List.mem_filter.mp hrow
          intro hpublished
          exact hclean ⟨row, hmem, hpublished, of_decide_eq_true hid⟩
      | _ => cases hnew

/-- The INSERT of `publish_policy`: it publishes the new row alone, or the unique index rejects
it. -/
theorem insert_inv {policyJson : JsonObject} {publishedBy : Option String} {version : ℕ}
    (h : PublicationInv groupId s)
    (hphase : s.operations pid = some (.writing (.insert policyJson publishedBy version)))
    (hfresh : ∀ row ∈ s.policies, row.routePolicyId ≠ newId)
    (hclean : CleanStatement groupId s pid (.writing (.insert policyJson publishedBy version))) :
    PublicationInv groupId
      (s.run groupId pid now newId (.writing (.insert policyJson publishedBy version))) := by
  rcases insertPolicy_cases s.policies
    (publishedRow groupId now newId version policyJson publishedBy) with
      ⟨hfree, hresult⟩ | ⟨htaken, hresult⟩
  · have hpublishes : ∀ id, Publishes groupId (runStatement groupId now newId s.policies
        (.writing (.insert policyJson publishedBy version))).1 id ↔ newId = id := by
      intro id
      rw [runStatement, hresult, publishes_append]
      constructor
      · rintro (hold | ⟨-, hid⟩)
        · exact absurd hold (hclean.1 hfree id)
        · exact hid
      · exact fun hid => Or.inr ⟨⟨rfl, rfl⟩, hid⟩
    refine run_inv h hphase hfresh hclean (fun id id' hid hid' => ?_) fun _ =>
      Or.inl ⟨newId, (hpublishes newId).mpr rfl⟩
    exact ((hpublishes id).mp hid).symm.trans ((hpublishes id').mp hid')
  · have htable : (runStatement groupId now newId s.policies
        (.writing (.insert policyJson publishedBy version))).1 = s.policies := by
      rw [runStatement, hresult]
    refine run_inv h hphase hfresh hclean ?_ fun hhad => ?_
    · rw [htable]
      exact h.single
    · rw [htable]
      rcases hclean.2 htaken hhad with hpublished | ⟨other, hne, hother⟩
      · exact Or.inl hpublished
      · exact Or.inr ⟨other, writing_update_of_ne hne hother⟩

/-- The UPDATE of `publish_latest_draft` publishes the draft that was picked, and nothing else is
published. -/
theorem promote_inv {draftId : String} {publishedBy : Option String} (h : PublicationInv groupId s)
    (hphase : s.operations pid = some (.writing (.promote draftId publishedBy)))
    (hfresh : ∀ row ∈ s.policies, row.routePolicyId ≠ newId)
    (hclean : CleanStatement groupId s pid (.writing (.promote draftId publishedBy))) :
    PublicationInv groupId
      (s.run groupId pid now newId (.writing (.promote draftId publishedBy))) := by
  have honly : ∀ id, Publishes groupId (publishById now s.policies draftId publishedBy) id →
      id = draftId := by
    intro id hid
    rcases publishes_of_publishById hid with hold | hnew
    · exact hclean id hold
    · exact hnew
  have hdraft := h.picks pid _ hphase draftId rfl
  refine run_inv h hphase hfresh hclean (fun id id' hid hid' => ?_) fun _ =>
    Or.inl ⟨draftId, publishes_publishById hdraft⟩
  exact (honly id hid).trans (honly id' hid').symm

theorem statement_inv {phase : PolicyPhase} (h : PublicationInv groupId s)
    (hphase : s.operations pid = some phase)
    (hfresh : ∀ row ∈ s.policies, row.routePolicyId ≠ newId)
    (hclean : CleanStatement groupId s pid phase) :
    PublicationInv groupId (s.run groupId pid now newId phase) := by
  by_cases hpublishing : Publishing phase
  · cases phase with
    | archiving write =>
        -- Nothing is published any more, and this operation is the one to write.
        refine run_inv h hphase hfresh hclean
          (fun id id' hid _ => absurd hid not_publishes_archivePublished) fun _ => Or.inr ?_
        exact ⟨pid, write, by simp only [PolicyState.run, Function.update_self]; rfl⟩
    | writing write =>
        cases write with
        | insert => exact insert_inv h hphase hfresh hclean
        | promote => exact promote_inv h hphase hfresh hclean
    | _ => exact hpublishing.elim
  · have hpublishes : ∀ id,
      Publishes groupId (runStatement groupId now newId s.policies phase).1 id ↔
        Publishes groupId s.policies id := fun id => runStatement_publishes hpublishing
    refine run_inv h hphase hfresh hclean (fun id id' hid hid' => ?_) fun hhad => ?_
    · exact h.single id id' ((hpublishes id).mp hid) ((hpublishes id').mp hid')
    · rcases h.covered hhad with ⟨id, hid⟩ | ⟨other, hother⟩
      · exact Or.inl ⟨id, (hpublishes id).mpr hid⟩
      · refine Or.inr ⟨other, writing_update_of_ne ?_ hother⟩
        rintro rfl
        obtain ⟨write, hwrite⟩ := hother
        obtain rfl := Option.some.inj (hphase.symm.trans hwrite)
        exact hpublishing trivial

theorem start_inv (h : PublicationInv groupId s) (request : PolicyRequest)
    (hfree : s.operations pid = none) :
    PublicationInv groupId (policyNext groupId s (.start pid request)) := by
  refine ⟨h.ids, fun other phase hother draftId hpicked => ?_, h.single, fun hhad => ?_, h.observed,
    h.drafts⟩
  · by_cases hsame : other = pid
    · subst hsame
      simp only [policyNext, Function.update_self, Option.some.injEq] at hother
      subst hother
      cases request <;> cases hpicked
    · simp only [policyNext, Function.update_of_ne hsame] at hother
      exact h.picks other phase hother draftId hpicked
  · rcases h.covered hhad with hpublished | ⟨other, hother⟩
    · exact Or.inl hpublished
    · refine Or.inr ⟨other, writing_update_of_ne ?_ hother⟩
      rintro rfl
      obtain ⟨write, hwrite⟩ := hother
      rw [hfree] at hwrite
      cases hwrite

theorem crash_inv (h : PublicationInv groupId s)
    (hclean : Writing s pid → CoveredWithout groupId s pid) :
    PublicationInv groupId (policyNext groupId s (.crash pid)) := by
  refine ⟨h.ids, fun other phase hother draftId hpicked => ?_, h.single, fun hhad => ?_, h.observed,
    h.drafts⟩
  · by_cases hsame : other = pid
    · subst hsame
      simp only [policyNext, Function.update_self] at hother
      cases hother
    · simp only [policyNext, Function.update_of_ne hsame] at hother
      exact h.picks other phase hother draftId hpicked
  · rcases h.covered hhad with hpublished | ⟨other, hother⟩
    · exact Or.inl hpublished
    · by_cases hsame : other = pid
      · subst hsame
        rcases hclean hother hhad with hpublished | ⟨third, hne, hthird⟩
        · exact Or.inl hpublished
        · exact Or.inr ⟨third, writing_update_of_ne hne hthird⟩
      · exact Or.inr ⟨other, writing_update_of_ne hsame hother⟩

theorem observe_inv (h : PublicationInv groupId s)
    (hclean : s.hadPublished = true →
      (∃ id, Publishes groupId s.policies id) ∨ ∀ pid, ¬Writing s pid) :
    PublicationInv groupId (policyNext groupId s .observe) := by
  refine ⟨h.ids, h.picks, h.single, h.covered, fun seen hseen hhad => ?_, h.drafts⟩
  rcases List.mem_append.mp hseen with hold | hnew
  · exact h.observed seen hold hhad
  · obtain rfl := List.mem_singleton.mp hnew
    rcases hclean hhad with ⟨id, hid⟩ | hnone
    · exact getPublishedPolicy_ne_none hid
    · rcases h.covered hhad with ⟨id, hid⟩ | ⟨pid, hpid⟩
      · exact getPublishedPolicy_ne_none hid
      · exact absurd hpid (hnone pid)

theorem next_inv (e : PolicyEvent) (h : PublicationInv groupId s) (henabled : policyEnabled s e)
    (hclean : CleanStep groupId s e) : PublicationInv groupId (policyNext groupId s e) := by
  cases e with
  | start pid request => exact start_inv h request henabled
  | statement pid now newId =>
      obtain ⟨hrunning, hfresh⟩ := henabled
      obtain ⟨phase, hphase⟩ := Option.ne_none_iff_exists'.mp hrunning
      simp only [policyNext, hphase]
      exact statement_inv h hphase hfresh (hclean phase hphase)
  | crash pid => exact crash_inv h hclean
  | observe => exact observe_inv h hclean

theorem initial_inv (h : (policySystem groupId).initial s) : PublicationInv groupId s := by
  obtain ⟨hids, hlength, hoperations, hhad, hobservations, hsaves⟩ := h
  have hmem : ∀ id, Publishes groupId s.policies id →
      ∃ row ∈ publishedPolicies groupId s, row.routePolicyId = id := by
    rintro id ⟨row, hrow, hpublished, hid⟩
    exact ⟨row, List.mem_filter.mpr ⟨hrow, decide_eq_true hpublished⟩, hid⟩
  refine ⟨hids, fun pid phase hphase => ?_, fun id id' hid hid' => ?_, fun hpublished => ?_, ?_, ?_⟩
  · rw [hoperations] at hphase
    cases hphase
  · obtain ⟨row, hrow, rfl⟩ := hmem id hid
    obtain ⟨row', hrow', rfl⟩ := hmem id' hid'
    rcases hrows : publishedPolicies groupId s with _ | ⟨only, _ | ⟨other, rest⟩⟩
    · rw [hrows] at hrow
      cases hrow
    · rw [hrows] at hrow hrow'
      rw [List.mem_singleton.mp hrow, List.mem_singleton.mp hrow']
    · rw [hrows, List.length_cons, List.length_cons] at hlength
      omega
  · obtain ⟨row, hrow⟩ := List.exists_mem_of_ne_nil _ (hhad hpublished)
    obtain ⟨hmem, hrowPublished⟩ := List.mem_filter.mp hrow
    exact Or.inl ⟨_, publishes_of_published hmem (of_decide_eq_true hrowPublished)⟩
  · simp [hobservations]
  · simp [hsaves]

end Safety

/-- In every run whose steps are clean, at most one policy of the group is published, nobody misses
a published policy that the group has had, and no draft save edits a published one. -/
theorem policy_publication_kept {groupId : String} {s : PolicyState}
    (h : ReachableBy (policySystem groupId) (CleanStep groupId) s) : PublicationKept groupId s :=
  (ReachableBy.invariant (fun _ => initial_inv) (fun _ e hinv => next_inv e hinv) h).kept

instance (s : PolicyState) (e : PolicyEvent) : Decidable (policyEnabled s e) := by
  cases e <;> (unfold policyEnabled; exact inferInstance)

instance (s : PolicyState) (e : PolicyEvent) :
    Decidable ((policySystem groupId).enabled s e) :=
  inferInstanceAs (Decidable (policyEnabled s e))

/-! A group without policies, and two policies to publish. -/

def emptyGroup : PolicyState :=
  { policies := [], operations := fun _ => none, hadPublished := false, observations := [],
    draftSaves := [] }

def weighted : JsonObject := [("strategy", .str "weighted")]

def leastBusy : JsonObject := [("strategy", .str "least-busy"), ("mode", .str "adaptive")]

def statements (pid n : ℕ) (newId : String) : List PolicyEvent :=
  List.replicate n (.statement pid 10 newId)

def publishOnce : List PolicyEvent :=
  .start 0 (.publishPolicy weighted none) :: statements 0 3 "policy-1"

theorem emptyGroup_initial : (policySystem "g").initial emptyGroup := by
  refine ⟨List.nodup_nil, Nat.zero_le _, rfl, fun h => ?_, rfl, rfl⟩
  cases h

def publishAndLook : List PolicyEvent := publishOnce ++ [.observe]

theorem policy_publication_kept_once :
    ReachableBy (policySystem "g") (CleanStep "g")
        (publishAndLook.foldl (policyNext "g") emptyGroup) ∧
      (publishedPolicies "g" (publishAndLook.foldl (policyNext "g") emptyGroup)).length ≤ 1 := by
  have hfires : Fires (policySystem "g") (CleanStep "g") emptyGroup publishAndLook := by
    refine ⟨rfl, trivial, by decide, ?_, by decide, ?_, by decide, ?_, trivial,
      fun _ => ?_, trivial⟩
    · rintro phase ⟨⟩
      trivial
    · rintro phase ⟨⟩
      trivial
    · rintro phase ⟨⟩
      refine ⟨fun _ id => ?_, fun htaken => ?_⟩
      · rintro ⟨row, hrow, -⟩
        cases hrow
      · exact absurd (by decide) htaken
    · exact Or.inl ⟨"policy-1", publishedRow "g" 10 "policy-1" 1 weighted none,
        List.mem_cons_self, ⟨rfl, rfl⟩, rfl⟩
  have hreach := (ReachableBy.initial emptyGroup_initial).fires hfires
  exact ⟨hreach, (policy_publication_kept hreach).single⟩

/-! One operation alone is seen between its two statements; two of them publish two policies; a
draft save edits the policy that another operation published. -/

def publishAgain : List PolicyEvent :=
  publishOnce ++ .start 1 (.publishPolicy leastBusy none) :: statements 1 2 "policy-2" ++ [.observe]

def draftSaved : List PolicyEvent :=
  publishOnce ++ .start 1 (.saveDraftPolicy leastBusy) :: statements 1 3 "policy-2"

def publishTwice : List PolicyEvent :=
  draftSaved ++ .start 2 (.publishPolicy weighted none) :: statements 2 2 "policy-3" ++
    .start 3 (.publishLatestDraft none) :: statements 3 2 "policy-4" ++ statements 2 1 "policy-3" ++
      statements 3 1 "policy-4"

def editPublished : List PolicyEvent :=
  draftSaved ++ .start 2 (.saveDraftPolicy weighted) :: statements 2 1 "policy-3" ++
    .start 3 (.publishLatestDraft none) :: statements 3 3 "policy-4" ++ statements 2 1 "policy-3"

theorem policy_publication_broken :
    (∃ s, Reachable (policySystem "g") s ∧ ∃ seen ∈ s.observations,
      seen.hadPublished = true ∧ seen.found = none) ∧
    (∃ s, Reachable (policySystem "g") s ∧ (publishedPolicies "g" s).length = 2) ∧
    ∃ s, Reachable (policySystem "g") s ∧ ∃ save ∈ s.draftSaves, Published "g" save.before ∧
      save.policyJson ≠ save.before.policyJson := by
  have hrun : ∀ es, Fires (policySystem "g") (fun _ _ => True) emptyGroup es →
      Reachable (policySystem "g") (es.foldl (policyNext "g") emptyGroup) := fun es hes =>
    (ReachableBy.initial emptyGroup_initial).fires hes
  refine ⟨⟨_, hrun publishAgain (by decide +kernel), _, List.mem_cons_self, rfl, rfl⟩,
    ⟨_, hrun publishTwice (by decide +kernel), by decide +kernel⟩,
    ⟨_, hrun editPublished (by decide +kernel), _, List.mem_cons_self, by decide +kernel,
      fun hsame => ?_⟩⟩
  exact absurd (congrArg List.length hsame) (by decide +kernel)

end RoutePolicyPublication
