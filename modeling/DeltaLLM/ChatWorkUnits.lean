import DeltaLLM.ChatPlanner

/-! # The plan of a claim is a partition

Cutting a group keeps its items and their order, and every chunk stays within the limits it was cut
for; so a plan holds every prepared item once, and a chunk that the limits of its own deployment
produced is not refused by that deployment for its size or its tokens.
-/
namespace ChatWorkUnits

open ChatPlanner
open Dictionaries (Dict)

/-! ## Cutting a group -/

section Splitting

variable {α : Type} {settings : ChatBatchingSettings} {candidates : List (α × ℕ)}
  {state : Splitting α}

/-- A part of the candidates in their order, within both limits. -/
def FitsChunk (settings : ChatBatchingSettings) (candidates : List (α × ℕ)) (chunk : List α) :
    Prop :=
  ∃ part : List (α × ℕ), part.Sublist candidates ∧ part.map Prod.fst = chunk ∧
    chunk.length ≤ maxBatchSize settings ∧ ¬OverCap settings (part.map Prod.snd).sum

theorem FitsChunk.snoc {chunk : List α} (h : FitsChunk settings candidates chunk)
    (candidate : α × ℕ) : FitsChunk settings (candidates ++ [candidate]) chunk := by
  obtain ⟨part, hpart, hchunk⟩ := h
  exact ⟨part, hpart.trans (List.sublist_append_left _ _), hchunk⟩

/-- What holds after the candidates were looked at. -/
structure SplitInv (settings : ChatBatchingSettings) (candidates : List (α × ℕ))
    (state : Splitting α) : Prop where
  partition : (state.chunks.flatten ++ state.fallbacks.map Prod.fst ++ state.currentChunk).Perm
    (candidates.map Prod.fst)
  chunks : ∀ chunk ∈ state.chunks, 2 ≤ chunk.length ∧ FitsChunk settings candidates chunk
  current : ∃ part : List (α × ℕ), part.Sublist candidates ∧
    part.map Prod.fst = state.currentChunk ∧
    (part.map Prod.snd).sum = state.currentTokens
  current_size : state.currentChunk.length ≤ maxBatchSize settings
  current_tokens : ¬OverCap settings state.currentTokens

theorem SplitInv.fits_current (h : SplitInv settings candidates state) :
    FitsChunk settings candidates state.currentChunk := by
  obtain ⟨part, hpart, hchunk, htokens⟩ := h.current
  refine ⟨part, hpart, hchunk, h.current_size, ?_⟩
  rw [htokens]
  exact h.current_tokens

theorem notOverCap_zero : ¬OverCap settings 0 := by
  rintro ⟨cap, _, hcap⟩
  exact absurd hcap (Nat.not_lt_zero cap)

theorem flushCurrent_currentChunk (state : Splitting α) :
    state.flushCurrent.currentChunk = [] ∧ state.flushCurrent.currentTokens = 0 := by
  unfold Splitting.flushCurrent
  split
  next hchunk => exact ⟨hchunk, rfl⟩
  next => exact ⟨rfl, rfl⟩
  next => exact ⟨rfl, rfl⟩

theorem SplitInv.flushCurrent (h : SplitInv settings candidates state) :
    SplitInv settings candidates state.flushCurrent := by
  obtain ⟨hempty, hzero⟩ := flushCurrent_currentChunk state
  have hcurrent : ∃ part : List (α × ℕ), part.Sublist candidates ∧
      part.map Prod.fst = state.flushCurrent.currentChunk ∧
        (part.map Prod.snd).sum = state.flushCurrent.currentTokens := by
    refine ⟨[], List.nil_sublist _, ?_, ?_⟩
    · rw [hempty]
      rfl
    · rw [hzero]
      rfl
  have hsize : state.flushCurrent.currentChunk.length ≤ maxBatchSize settings := by
    rw [hempty]
    exact Nat.zero_le _
  have htokens : ¬OverCap settings state.flushCurrent.currentTokens := by
    rw [hzero]
    exact notOverCap_zero
  have hpartition := h.partition
  have hchunks := h.chunks
  have hfits := h.fits_current
  refine ⟨?_, ?_, hcurrent, hsize, htokens⟩
  · rw [hempty, List.append_nil]
    unfold Splitting.flushCurrent
    split
    next hchunk =>
      rw [hchunk, List.append_nil] at hpartition
      exact hpartition
    next lone hchunk =>
      rw [hchunk] at hpartition
      simp only [List.map_append, List.map_cons, List.map_nil, ← List.append_assoc]
      exact hpartition
    next =>
      refine List.Perm.trans ?_ hpartition
      rw [List.flatten_append, List.flatten_singleton, List.append_assoc, List.append_assoc]
      exact List.Perm.append_left _ List.perm_append_comm
  · unfold Splitting.flushCurrent
    split
    next => exact hchunks
    next => exact hchunks
    next hne hlone =>
      intro chunk hchunk
      rcases List.mem_append.mp hchunk with hold | hnew
      · exact hchunks chunk hold
      · rw [List.mem_singleton.mp hnew]
        refine ⟨?_, hfits⟩
        match hcases : state.currentChunk with
        | [] => exact absurd hcases hne
        | [lone] => exact absurd hcases (hlone lone)
        | _ :: _ :: _ => simp

theorem SplitInv.snoc_fallback (h : SplitInv settings candidates state) (candidate : α × ℕ)
    (reason : String) (hempty : state.currentChunk = []) :
    SplitInv settings (candidates ++ [candidate])
      { state with fallbacks := state.fallbacks ++ [(candidate.1, reason)] } := by
  obtain ⟨part, hpart, hrest⟩ := h.current
  refine ⟨?_, fun chunk hchunk => ⟨(h.chunks chunk hchunk).1, (h.chunks chunk hchunk).2.snoc _⟩,
    ⟨part, hpart.trans (List.sublist_append_left _ _), hrest⟩, h.current_size, h.current_tokens⟩
  have hpartition := h.partition
  rw [hempty, List.append_nil] at hpartition
  simp only [hempty, List.append_nil, List.map_append, List.map_cons, List.map_nil,
    ← List.append_assoc]
  exact List.Perm.append_right _ hpartition

theorem SplitInv.snoc_current (h : SplitInv settings candidates state) (candidate : α × ℕ)
    (hsize : state.currentChunk.length < maxBatchSize settings)
    (htokens : ¬OverCap settings (state.currentTokens + candidate.2)) :
    SplitInv settings (candidates ++ [candidate])
      { state with
        currentChunk := state.currentChunk ++ [candidate.1]
        currentTokens := state.currentTokens + candidate.2 } := by
  obtain ⟨part, hpart, hchunk, hsum⟩ := h.current
  refine ⟨?_, fun chunk hchunk => ⟨(h.chunks chunk hchunk).1, (h.chunks chunk hchunk).2.snoc _⟩,
    ⟨part ++ [candidate], hpart.append_right _, ?_, ?_⟩, ?_, htokens⟩
  · rw [List.map_append, ← List.append_assoc]
    exact List.Perm.append_right _ h.partition
  · rw [List.map_append, hchunk]
    rfl
  · rw [List.map_append, List.sum_append, hsum, List.map_singleton, List.sum_singleton]
  · rw [List.length_append]
    exact hsize

theorem SplitInv.add (h : SplitInv settings candidates state) (candidate : α × ℕ) :
    SplitInv settings (candidates ++ [candidate]) (state.add settings candidate) := by
  have hflushed := flushCurrent_currentChunk state
  unfold Splitting.add
  split
  next hover => exact h.flushCurrent.snoc_fallback candidate "token_limit" hflushed.1
  next hfits =>
    simp only
    split
    next hexceeds =>
      refine h.flushCurrent.snoc_current candidate ?_ ?_
      · rw [hflushed.1]
        exact Nat.lt_of_lt_of_le Nat.two_pos (Nat.le_max_left 2 _)
      · rw [hflushed.2, Nat.zero_add]
        exact hfits
    next hexceeds =>
      push Not at hexceeds
      obtain ⟨hcount, htokens⟩ := hexceeds
      refine h.snoc_current candidate hcount ?_
      by_cases hempty : state.currentChunk = []
      · obtain ⟨part, _, hchunk, hsum⟩ := h.current
        rw [hempty, List.map_eq_nil_iff] at hchunk
        rw [hchunk] at hsum
        rw [← hsum, List.map_nil, List.sum_nil, Nat.zero_add]
        exact hfits
      · exact htokens hempty

/-- The state after a part of the candidates. -/
theorem splitInv_foldl (candidates : List (α × ℕ)) :
    SplitInv settings candidates (candidates.foldl (Splitting.add settings) {}) := by
  induction candidates using List.reverseRecOn with
  | nil =>
      refine ⟨List.Perm.refl _, ?_, ⟨[], List.nil_sublist _, rfl, rfl⟩, Nat.zero_le _,
        notOverCap_zero⟩
      intro chunk hchunk
      exact absurd hchunk List.not_mem_nil
  | append_singleton candidates candidate ih =>
      rw [List.foldl_append]
      exact ih.add candidate

/-- Every candidate is in one chunk or called alone; a chunk keeps the order of the candidates, has
two of them or more, and is within both limits. -/
theorem split_spec (candidates : List (α × ℕ)) (settings : ChatBatchingSettings) :
    ((splitChatMicrobatchCandidates candidates settings).1.flatten ++
        (splitChatMicrobatchCandidates candidates settings).2.map Prod.fst).Perm
      (candidates.map Prod.fst) ∧
    ∀ chunk ∈ (splitChatMicrobatchCandidates candidates settings).1,
      2 ≤ chunk.length ∧ FitsChunk settings candidates chunk := by
  have hinv := (@splitInv_foldl α settings candidates).flushCurrent
  have hempty := (flushCurrent_currentChunk (candidates.foldl (Splitting.add settings) {})).1
  have hpartition := hinv.partition
  rw [hempty, List.append_nil] at hpartition
  exact ⟨hpartition, hinv.chunks⟩

end Splitting

/-! ## Every item is planned once -/

section Plan

variable {w : ChatWorker} {key : String} {settings : ChatBatchingSettings}
  {items prepared : List PreparedChatItem}

/-- The items of work units, one unit after the other. -/
def plannedItems (units : List QueuedUnit) : List PreparedChatItem := units.flatMap QueuedUnit.items

theorem plannedItems_append (units more : List QueuedUnit) :
    plannedItems (units ++ more) = plannedItems units ++ plannedItems more :=
  List.flatMap_append

theorem plannedItems_singles (settings : ChatBatchingSettings) (mode : String)
    (items : List PreparedChatItem) :
    plannedItems (items.map (queueSingle settings mode)) = items := by
  induction items with
  | nil => rfl
  | cons item items ih =>
      rw [List.map_cons, plannedItems, List.flatMap_cons]
      exact congrArg (item :: ·) ih

theorem plannedItems_chunks (key : String) (settings : ChatBatchingSettings)
    (chunks : List (List PreparedChatItem)) :
    plannedItems (chunks.map fun chunk => ⟨key, settings, .microbatch chunk⟩) = chunks.flatten := by
  induction chunks with
  | nil => rfl
  | cons chunk chunks ih =>
      rw [List.map_cons, plannedItems, List.flatMap_cons, List.flatten_cons]
      exact congrArg (chunk ++ ·) ih

theorem plannedItems_flatMap {τ : Type} (plan : τ → List QueuedUnit) (groups : List τ) :
    plannedItems (groups.flatMap plan) = groups.flatMap fun group => plannedItems (plan group) :=
  List.flatMap_assoc

theorem planGroup_perm (key : String) (settings : ChatBatchingSettings)
    (candidates : List (PreparedChatItem × ℕ)) :
    (plannedItems (planGroup key settings candidates)).Perm (candidates.map Prod.fst) := by
  have hspec := (split_spec candidates settings).1
  rw [planGroup, plannedItems_append, plannedItems_chunks]
  have hsingles := plannedItems_singles settings fallbackMode
    ((splitChatMicrobatchCandidates candidates settings).2.map Prod.fst)
  rw [List.map_map] at hsingles
  refine List.Perm.trans ?_ hspec
  exact (List.Perm.of_eq (congrArg (· ++ _) hsingles)).trans List.perm_append_comm

theorem candidateOf_eq_some {prepared item : PreparedChatItem} {key : GroupKey} {tokens : ℕ}
    (h : candidateOf prepared = some (key, item, tokens)) :
    item = prepared ∧ tokens = prepared.inputTokens ∧ prepared.eligibility.eligible = true ∧
      prepared.eligibility.groupKey = some key := by
  simp only [candidateOf, Option.ite_none_right_eq_some, Option.map_eq_some_iff, Prod.mk.injEq] at h
  obtain ⟨heligible, found, hkey, rfl, rfl, rfl⟩ := h
  exact ⟨rfl, eligibility_inputTokens prepared, heligible, hkey⟩

/-- The items that are not eligible and those that are make up the whole. -/
theorem perm_candidates (items : List PreparedChatItem) :
    (items.filter (fun prepared => (candidateOf prepared).isNone) ++
      (items.filterMap candidateOf).map fun candidate => candidate.2.1).Perm items := by
  induction items with
  | nil => exact List.Perm.refl _
  | cons item items ih =>
      cases hcandidate : candidateOf item with
      | none =>
          rw [List.filter_cons_of_pos (by rw [hcandidate]; rfl),
            List.filterMap_cons_none hcandidate]
          exact List.Perm.cons item ih
      | some candidate =>
          obtain ⟨found, other, tokens⟩ := candidate
          obtain ⟨rfl, _⟩ := candidateOf_eq_some hcandidate
          rw [List.filter_cons_of_neg (by rw [hcandidate]; exact Bool.false_ne_true),
            List.filterMap_cons_some hcandidate, List.map_cons]
          exact List.perm_middle.trans (List.Perm.cons _ ih)

theorem planDeployment_perm (w : ChatWorker) (key : String) (items : List PreparedChatItem) :
    (plannedItems (planDeployment w key items)).Perm items := by
  cases items with
  | nil => exact List.Perm.refl _
  | cons first rest =>
      rw [planDeployment]
      split
      · rw [plannedItems_singles]
      split
      · rw [plannedItems_singles]
      · rw [plannedItems_append, plannedItems_singles, plannedItems_flatMap]
        refine List.Perm.trans (List.Perm.append_left _ ?_) (perm_candidates (first :: rest))
        have hgroups := @Dict.perm_groupRecords _ _ _ Prod.fst
          ((first :: rest).filterMap candidateOf)
        refine List.Perm.trans (List.Perm.flatMap_left _ fun group _ => planGroup_perm key _ _) ?_
        refine List.Perm.trans ?_ (hgroups.map fun candidate => candidate.2.1)
        rw [List.map_flatMap]
        simp only [List.map_map]
        exact List.Perm.refl _

/-- Every prepared item is in one work unit. -/
theorem planWorkUnits_perm (w : ChatWorker) (prepared : List PreparedChatItem) :
    (plannedItems (planWorkUnits w prepared)).Perm prepared := by
  rw [planWorkUnits, plannedItems_flatMap]
  exact (List.Perm.flatMap_left _ fun entry _ => planDeployment_perm w entry.1 entry.2).trans
    Dict.perm_groupRecords

/-! ## What a chunk is -/

/-- A chunk of a plan: its items share a group key and a deployment, stand in the order of their
preparation, and are within the limits of the first item that was prepared for the deployment. -/
structure ChunkOf (prepared : List PreparedChatItem) (queued : QueuedUnit)
    (chunk : List PreparedChatItem) : Prop where
  ordered : chunk.Sublist prepared
  two : 2 ≤ chunk.length
  size : chunk.length ≤ queued.settings.upstreamMaxBatchSize
  tokens : ¬OverCap queued.settings (chunk.map PreparedChatItem.inputTokens).sum
  mode : queued.settings.mode = .syncMicrobatch
  grouped : ∃ key, ∀ item ∈ chunk,
    item.eligibility.eligible = true ∧ item.eligibility.groupKey = some key
  deployment : ∀ item ∈ chunk, chatDeploymentKey item = queued.deploymentKey
  limits : ∃ first, prepared.find? (fun item => chatDeploymentKey item = queued.deploymentKey) =
    some first ∧ queued.settings = first.settings

theorem mem_planGroup {candidates : List (PreparedChatItem × ℕ)} {queued : QueuedUnit}
    {chunk : List PreparedChatItem} (h : queued ∈ planGroup key settings candidates)
    (hchunk : queued.unit = .microbatch chunk) :
    queued.deploymentKey = key ∧ queued.settings = settings ∧ 2 ≤ chunk.length ∧
      FitsChunk settings candidates chunk := by
  rw [planGroup] at h
  rcases List.mem_append.mp h with hsingle | hgrouped
  · obtain ⟨fallback, _, rfl⟩ := List.mem_map.mp hsingle
    cases hchunk
  · obtain ⟨planned, hplanned, rfl⟩ := List.mem_map.mp hgrouped
    cases hchunk
    exact ⟨rfl, rfl, (split_spec candidates settings).2 chunk hplanned⟩

theorem notMem_singles {mode : String} {queued : QueuedUnit} {chunk : List PreparedChatItem}
    (hchunk : queued.unit = .microbatch chunk) :
      queued ∉ items.map (queueSingle settings mode) := by
  intro h
  obtain ⟨item, _, rfl⟩ := List.mem_map.mp h
  cases hchunk

theorem candidates_items (items : List PreparedChatItem) :
    ((items.filterMap candidateOf).map Prod.snd).map Prod.fst =
      items.filter fun item => (candidateOf item).isSome := by
  induction items with
  | nil => rfl
  | cons item items ih =>
      cases hcandidate : candidateOf item with
      | none =>
          rw [List.filterMap_cons_none hcandidate,
            List.filter_cons_of_neg (by rw [hcandidate]; exact Bool.false_ne_true), ih]
      | some candidate =>
          obtain ⟨found, other, tokens⟩ := candidate
          obtain ⟨rfl, _⟩ := candidateOf_eq_some hcandidate
          rw [List.filterMap_cons_some hcandidate,
            List.filter_cons_of_pos (by rw [hcandidate]; rfl), List.map_cons, List.map_cons, ih]

/-- The candidates of a group carry the tokens of their items and stand in the items' order. -/
theorem group_candidates {group : GroupKey × List (GroupKey × PreparedChatItem × ℕ)}
    (h : group ∈ Dict.groupRecords Prod.fst (items.filterMap candidateOf)) :
    ((group.2.map Prod.snd).map Prod.fst).Sublist items ∧
      ∀ candidate ∈ group.2.map Prod.snd, candidate.2 = candidate.1.inputTokens ∧
        candidate.1.eligibility.eligible = true ∧
          candidate.1.eligibility.groupKey = some group.1 := by
  obtain ⟨groupKey, group⟩ := group
  obtain ⟨rfl, _⟩ := Dict.mem_groupRecords.mp h
  constructor
  · have hfilter := ((List.filter_sublist (p := fun candidate => candidate.1 = groupKey)
      (l := items.filterMap candidateOf)).map Prod.snd).map Prod.fst
    rw [candidates_items] at hfilter
    exact hfilter.trans List.filter_sublist
  · intro candidate hcandidate
    obtain ⟨found, hfound, rfl⟩ := List.mem_map.mp hcandidate
    obtain ⟨hmem, hkey⟩ := List.mem_filter.mp hfound
    obtain ⟨item, _, hitem⟩ := List.mem_filterMap.mp hmem
    obtain ⟨foundKey, other, tokens⟩ := found
    obtain ⟨rfl, htokens, heligible, hgroup⟩ := candidateOf_eq_some hitem
    have hkeys : foundKey = groupKey := by simpa using hkey
    exact ⟨htokens, heligible, hkeys ▸ hgroup⟩

theorem mem_planDeployment {queued : QueuedUnit} {chunk : List PreparedChatItem}
    (hall : ∀ item ∈ items, chatDeploymentKey item = key) (h : queued ∈ planDeployment w key items)
    (hchunk : queued.unit = .microbatch chunk) : ChunkOf items queued chunk := by
  cases items with
  | nil => cases h
  | cons first rest =>
      rw [planDeployment] at h
      split at h
      next => exact absurd h (notMem_singles hchunk)
      next hmode =>
        split at h
        next => exact absurd h (notMem_singles hchunk)
        next hexecutor =>
          rcases List.mem_append.mp h with hsingle | hgrouped
          · exact absurd hsingle (notMem_singles hchunk)
          · obtain ⟨group, hgroup, hplanned⟩ := List.mem_flatMap.mp hgrouped
            obtain ⟨hkey, hsettings, htwo, part, hpart, hitems, hsize, htokens⟩ :=
              mem_planGroup hplanned hchunk
            obtain ⟨hordered, hcandidates⟩ := group_candidates hgroup
            have hsync : first.settings.mode = .syncMicrobatch := by
              cases hcases : first.settings.mode with
              | disabled => exact absurd (.inl hcases) hmode
              | concurrent => exact absurd (.inr hcases) hmode
              | syncMicrobatch => rfl
            have hsublist : chunk.Sublist (first :: rest) := by
              rw [← hitems]
              exact (hpart.map Prod.fst).trans hordered
            have hsum : (chunk.map PreparedChatItem.inputTokens).sum = (part.map Prod.snd).sum := by
              rw [← hitems, List.map_map]
              refine congrArg List.sum (List.map_congr_left fun candidate hcandidate => ?_)
              exact (hcandidates candidate (hpart.subset hcandidate)).1.symm
            have hmax : maxBatchSize first.settings = first.settings.upstreamMaxBatchSize :=
              Nat.max_eq_right (resolve_size hsync)
            refine ⟨hsublist, htwo, ?_, ?_, ?_, ?_, ?_, ?_⟩
            · rw [hsettings, ← hmax]
              exact hsize
            · rw [hsettings, hsum]
              exact htokens
            · rw [hsettings]
              exact hsync
            · refine ⟨group.1, fun item hitem => ?_⟩
              rw [← hitems] at hitem
              obtain ⟨candidate, hcandidate, rfl⟩ := List.mem_map.mp hitem
              exact (hcandidates candidate (hpart.subset hcandidate)).2
            · intro item hitem
              rw [hkey]
              exact hall item (hsublist.subset hitem)
            · refine ⟨first, ?_, hsettings⟩
              rw [List.find?_cons_of_pos]
              rw [hkey]
              simpa using hall first List.mem_cons_self

/-- The microbatches of a plan are chunks of the prepared items. -/
theorem chunkOf_planWorkUnits {queued : QueuedUnit} {chunk : List PreparedChatItem}
    (h : queued ∈ planWorkUnits w prepared) (hchunk : queued.unit = .microbatch chunk) :
    ChunkOf prepared queued chunk := by
  obtain ⟨⟨key, group⟩, hgroup, hplanned⟩ := List.mem_flatMap.mp h
  obtain ⟨rfl, _⟩ := Dict.mem_groupRecords.mp hgroup
  have hall : ∀ item ∈ prepared.filter (fun item => chatDeploymentKey item = key),
      chatDeploymentKey item = key := by
    intro item hitem
    simpa using (List.mem_filter.mp hitem).2
  have hplan := mem_planDeployment hall hplanned hchunk
  obtain ⟨first, hfirst, hsettings⟩ := hplan.limits
  refine ⟨hplan.ordered.trans List.filter_sublist, hplan.two, hplan.size, hplan.tokens, hplan.mode,
    hplan.grouped, hplan.deployment, first, ?_, hsettings⟩
  have hkey : queued.deploymentKey = key := by
    obtain ⟨item, hitem⟩ := List.exists_mem_of_length_pos (Nat.lt_of_lt_of_le Nat.two_pos hplan.two)
    rw [← hplan.deployment item hitem]
    exact hall item (hplan.ordered.subset hitem)
  rw [List.find?_filter] at hfirst
  rw [hkey] at hfirst ⊢
  simpa using hfirst

/-! ## The capability check -/

theorem overCap_mono {tokens more : ℕ} (h : OverCap settings tokens) (hle : tokens ≤ more) :
    OverCap settings more := by
  obtain ⟨cap, hcap, hover⟩ := h
  exact ⟨cap, hcap, hover.trans_le hle⟩

/-- What is left of a chunk after some of its items lost their policy leases is not refused for its
size or tokens by the deployment of its first item, when that has the limits the chunk was cut
for. -/
theorem microbatchRefusal_chunk {queued : QueuedUnit} {chunk left : List PreparedChatItem}
    {first : PreparedChatItem} (h : ChunkOf prepared queued chunk) (hleft : left.Sublist chunk)
    (hsettings : first.settings = queued.settings) :
    microbatchRefusal w first.primaryDeployment left.length
        (left.map PreparedChatItem.inputTokens).sum =
      if w.executor first.primaryDeployment then none else some "executor_unavailable" := by
  have hsize : ¬first.settings.upstreamMaxBatchSize < left.length := by
    rw [hsettings]
    exact Nat.not_lt.mpr (hleft.length_le.trans h.size)
  have htokens : ¬OverCap first.settings (left.map PreparedChatItem.inputTokens).sum := by
    rw [hsettings]
    intro hover
    have hsum := (hleft.map PreparedChatItem.inputTokens).sum_le_sum fun _ _ => Nat.zero_le _
    exact h.tokens (overCap_mono hover hsum)
  have hmode : first.settings.mode = .syncMicrobatch := by
    rw [hsettings]
    exact h.mode
  unfold PreparedChatItem.settings at hsize htokens hmode
  simp only [microbatchRefusal, hmode, hsize, htokens, ne_eq, not_true, if_false]
  by_cases hexecutor : w.executor first.primaryDeployment = true
  · simp [hexecutor]
  · simp [hexecutor]

end Plan

end ChatWorkUnits
