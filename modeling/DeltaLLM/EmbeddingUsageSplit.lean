import DeltaLLM.EmbeddingUsage
import DeltaLLM.LargestRemainder

/-! # The usage of a call is split exactly and in proportion

`allocate_embedding_usage` rounds every field by largest remainders on its own, and takes the
cached tokens in proportion to the prompt tokens it has just given out. What the fields have to
do with each other survives the rounding.
-/
namespace EmbeddingUsageSplit

open EmbeddingUsage
open JsonValues (JsonValue JsonObject)
open LargestRemainder

theorem sum_range_getD (weights : List ℕ) :
    ∑ i ∈ Finset.range weights.length, weights.getD i 0 = weights.sum := by
  induction weights with
  | nil => rfl
  | cons weight weights ih =>
      rw [List.length_cons, Finset.sum_range_succ', List.sum_cons, add_comm]
      simpa using ih

section Allocation

variable {total : ℕ} {weights : List ℕ}

@[simp] theorem length_effectiveWeights :
    (effectiveWeights weights).length = weights.length := by
  unfold effectiveWeights
  split_ifs <;> simp

theorem effectiveWeights_of_pos (h : 0 < weights.sum) : effectiveWeights weights = weights := by
  rw [effectiveWeights, if_neg h.ne']

theorem sum_effectiveWeights_pos (h : weights ≠ []) : 0 < (effectiveWeights weights).sum := by
  unfold effectiveWeights
  split_ifs with hzero
  · simpa using List.length_pos_iff.mpr h
  · exact Nat.pos_of_ne_zero hzero

/-- The weight that the allocation uses for a position. -/
def weightAt (weights : List ℕ) (i : ℕ) : ℕ := (effectiveWeights weights).getD i 0

theorem sum_weightAt (weights : List ℕ) :
    ∑ i ∈ Finset.range weights.length, weightAt weights i = (effectiveWeights weights).sum := by
  rw [← sum_range_getD, length_effectiveWeights]
  rfl

theorem remainderOrder_total (total weightSum : ℕ) (weights : List ℕ) :
    Std.Total (remainderOrder total weightSum weights) := by
  refine ⟨fun i j => ?_⟩
  unfold remainderOrder
  omega

theorem remainderOrder_trans (total weightSum : ℕ) (weights : List ℕ) :
    IsTrans ℕ (remainderOrder total weightSum weights) := by
  refine ⟨fun i j k hij hjk => ?_⟩
  unfold remainderOrder at *
  omega

/-- The positions in the order of their remainders. -/
def rankedIndices (total : ℕ) (weights : List ℕ) : List ℕ :=
  (List.range weights.length).insertionSort
    (remainderOrder total (effectiveWeights weights).sum (effectiveWeights weights))

/-- The units that the whole parts leave. -/
def leftoverUnits (total : ℕ) (weights : List ℕ) : ℕ :=
  total - ((effectiveWeights weights).map fun weight =>
    total * weight / (effectiveWeights weights).sum).sum

def raisedIndices (total : ℕ) (weights : List ℕ) : List ℕ :=
  (rankedIndices total weights).take (leftoverUnits total weights)

theorem perm_rankedIndices (total : ℕ) (weights : List ℕ) :
    (rankedIndices total weights).Perm (List.range weights.length) :=
  List.perm_insertionSort _ _

theorem pairwise_rankedIndices (total : ℕ) (weights : List ℕ) :
    (rankedIndices total weights).Pairwise
      (remainderOrder total (effectiveWeights weights).sum (effectiveWeights weights)) := by
  have := remainderOrder_total total (effectiveWeights weights).sum (effectiveWeights weights)
  have := remainderOrder_trans total (effectiveWeights weights).sum (effectiveWeights weights)
  exact List.pairwise_insertionSort _ _

theorem leftoverUnits_eq (total : ℕ) (weights : List ℕ) :
    leftoverUnits total weights =
      total - ∑ i ∈ Finset.range weights.length,
        wholePart total (∑ j ∈ Finset.range weights.length, weightAt weights j)
          (weightAt weights i) := by
  rw [leftoverUnits, ← sum_range_getD, List.length_map, length_effectiveWeights, sum_weightAt]
  congr 1
  refine Finset.sum_congr rfl fun i hi => ?_
  have hlt : i < (effectiveWeights weights).length := by simpa using hi
  simp [weightAt, wholePart, List.getD_eq_getElem?_getD, List.getElem?_eq_getElem hlt]

theorem sum_weightAt_pos (h : weights ≠ []) :
    0 < ∑ j ∈ Finset.range weights.length, weightAt weights j := by
  rw [sum_weightAt]
  exact sum_effectiveWeights_pos h

theorem card_raisedIndices (h : weights ≠ []) :
    (raisedIndices total weights).toFinset.card = leftoverUnits total weights := by
  have hperm := perm_rankedIndices total weights
  have hnodup : (rankedIndices total weights).Nodup := hperm.nodup_iff.mpr List.nodup_range
  have hcard := sub_sum_wholePart_le_card total (sum_weightAt_pos h)
  rw [← leftoverUnits_eq, Finset.card_range] at hcard
  rw [raisedIndices, List.toFinset_card_of_nodup (hnodup.sublist (List.take_sublist _ _)),
    List.length_take, hperm.length_eq, List.length_range]
  omega

/-- The first positions of the ranking have the largest remainders. -/
theorem raises_raisedIndices (h : weights ≠ []) :
    Raises (Finset.range weights.length) (weightAt weights) total
      (raisedIndices total weights).toFinset := by
  constructor
  · intro i hi
    have hmem := List.mem_of_mem_take (List.mem_toFinset.mp hi)
    rw [(perm_rankedIndices total weights).mem_iff, List.mem_range] at hmem
    exact Finset.mem_range.mpr hmem
  · rw [card_raisedIndices h, leftoverUnits_eq]
  · intro i hi j hj hnot
    rw [List.mem_toFinset] at hi hnot
    have hsplit := List.take_append_drop (leftoverUnits total weights) (rankedIndices total weights)
    have hranked : j ∈ rankedIndices total weights :=
      (perm_rankedIndices total weights).mem_iff.mpr (by simpa using hj)
    have hsorted := pairwise_rankedIndices total weights
    rw [← hsplit, List.mem_append] at hranked
    rw [← hsplit, List.pairwise_append] at hsorted
    have hbefore := hsorted.2.2 i hi j (hranked.resolve_left hnot)
    rw [sum_weightAt]
    rcases hbefore with hless | ⟨hsame, _⟩
    · exact hless.le
    · exact hsame.ge

theorem raises_empty (weights : List ℕ) :
    Raises (Finset.range weights.length) (weightAt weights) 0 ∅ :=
  ⟨Finset.empty_subset _, by simp, by simp⟩

@[simp] theorem length_allocateProportionalInts :
    (allocateProportionalInts total weights).length = weights.length := by
  unfold allocateProportionalInts
  split_ifs <;> simp

theorem getD_allocateProportionalInts (hzero : total ≠ 0) {i : ℕ} (hi : i < weights.length) :
    (allocateProportionalInts total weights).getD i 0 =
      share total (effectiveWeights weights).sum (weightAt weights)
        (raisedIndices total weights).toFinset i := by
  have hlt : i < (effectiveWeights weights).length := by simpa using hi
  rw [allocateProportionalInts, if_neg hzero]
  change (List.mapIdx (fun i share => if i ∈ raisedIndices total weights then share + 1 else share)
    ((effectiveWeights weights).map fun weight =>
      total * weight / (effectiveWeights weights).sum)).getD i 0 = _
  rw [List.getD_eq_getElem?_getD, List.getElem?_mapIdx, List.getElem?_map,
    List.getElem?_eq_getElem hlt]
  by_cases hraised : i ∈ raisedIndices total weights <;>
    simp [share, wholePart, weightAt, hraised, List.getD_eq_getElem?_getD,
      List.getElem?_eq_getElem hlt]

/-- The allocation is a rounding by largest remainders. -/
theorem exists_raises (total : ℕ) (h : weights ≠ []) :
    ∃ raised, Raises (Finset.range weights.length) (weightAt weights) total raised ∧
      ∀ i < weights.length, (allocateProportionalInts total weights).getD i 0 =
        share total (∑ j ∈ Finset.range weights.length, weightAt weights j) (weightAt weights)
          raised i := by
  by_cases hzero : total = 0
  · subst hzero
    refine ⟨∅, raises_empty weights, fun i hi => ?_⟩
    simp [allocateProportionalInts, share, wholePart, List.getD_eq_getElem?_getD, hi]
  · refine ⟨_, raises_raisedIndices h, fun i hi => ?_⟩
    rw [sum_weightAt]
    exact getD_allocateProportionalInts hzero hi

theorem sum_allocateProportionalInts (total : ℕ) (h : weights ≠ []) :
    (allocateProportionalInts total weights).sum = total := by
  obtain ⟨raised, hraises, hshare⟩ := exists_raises total h
  rw [← sum_range_getD, length_allocateProportionalInts]
  rw [Finset.sum_congr rfl fun i hi => hshare i (Finset.mem_range.mp hi)]
  exact sum_share (sum_weightAt_pos h) hraises

theorem weightAt_of_pos (h : 0 < weights.sum) (i : ℕ) : weightAt weights i = weights.getD i 0 := by
  rw [weightAt, effectiveWeights_of_pos h]

/-- Weights that cover the total are never exceeded. -/
theorem allocateProportionalInts_le (h : 0 < weights.sum) (htotal : total ≤ weights.sum) {i : ℕ}
    (hi : i < weights.length) :
    (allocateProportionalInts total weights).getD i 0 ≤ weights.getD i 0 := by
  have hne : weights ≠ [] := by
    rintro rfl
    simp at h
  obtain ⟨raised, hraises, hshare⟩ := exists_raises total hne
  rw [hshare i hi, ← weightAt_of_pos h]
  refine share_le_weight (sum_weightAt_pos hne) hraises ?_ i
  rwa [sum_weightAt, effectiveWeights_of_pos h]

/-- A heavier item gets no less. -/
theorem allocateProportionalInts_mono {i j : ℕ} (hi : i < weights.length) (hj : j < weights.length)
    (hlight : weights.getD i 0 < weights.getD j 0) :
    (allocateProportionalInts total weights).getD i 0 ≤
      (allocateProportionalInts total weights).getD j 0 := by
  have hne : weights ≠ [] := List.ne_nil_of_length_pos (by omega)
  have hmem : weights.getD j 0 ∈ weights := by
    simp [List.getD_eq_getElem?_getD, hj]
  have hpos : 0 < weights.sum := by
    have hle := List.le_sum_of_mem hmem
    omega
  obtain ⟨raised, hraises, hshare⟩ := exists_raises total hne
  rw [hshare i hi, hshare j hj]
  refine share_mono (sum_weightAt_pos hne) hraises (Finset.mem_range.mpr hj) ?_
  rwa [weightAt_of_pos hpos, weightAt_of_pos hpos]

/-- The proportional part of a total, equal parts when no item weighs anything. -/
def exactQuota (total : ℕ) (weights : List ℕ) (i : ℕ) : ℚ :=
  if weights.sum = 0 then (total : ℚ) / weights.length
  else (total : ℚ) * weights.getD i 0 / weights.sum

theorem exactQuota_eq {i : ℕ} (hi : i < weights.length) :
    exactQuota total weights i = (total : ℚ) * weightAt weights i /
      (∑ j ∈ Finset.range weights.length, weightAt weights j : ℕ) := by
  rw [sum_weightAt, exactQuota]
  by_cases hzero : weights.sum = 0
  · simp [hzero, weightAt, effectiveWeights, List.getD_eq_getElem?_getD, hi]
  · rw [if_neg hzero, weightAt_of_pos (Nat.pos_of_ne_zero hzero),
      effectiveWeights_of_pos (Nat.pos_of_ne_zero hzero)]

theorem abs_allocateProportionalInts_sub_lt {i : ℕ} (hi : i < weights.length) :
    |((allocateProportionalInts total weights).getD i 0 : ℚ) - exactQuota total weights i| < 1 := by
  have hne : weights ≠ [] := List.ne_nil_of_length_pos (by omega)
  obtain ⟨raised, hraises, hshare⟩ := exists_raises total hne
  rw [exactQuota_eq hi, hshare i hi]
  exact abs_share_sub_quota_lt (sum_weightAt_pos hne) hraises i

end Allocation

/-- The fields that a usage object is split by. -/
def countFields : List String :=
  ["prompt_tokens", "prompt_tokens_cached", "completion_tokens", "total_tokens"]

/-- The fields that are rounded from the item weights alone. -/
def proportionalFields : List String := ["prompt_tokens", "completion_tokens"]

/-- The count under a key; what is not there counts nothing. -/
def count (usage : JsonObject) (key : String) : ℕ :=
  match usage.get? key with
  | some (.int n) => n.toNat
  | _ => 0

/-- Every field that the object has is a non-negative integer. -/
def NonnegativeCounts (usage : JsonObject) : Prop :=
  ∀ key ∈ countFields, ∀ value, usage.get? key = some value → ∃ n : ℕ, value = .int n

/-- What an exact and fair split of a usage object over weighted items is. -/
structure FairSplit (usage : JsonObject) (weights : List ℕ) (allocations : List JsonObject) :
    Prop where
  length : allocations.length = weights.length
  nonnegative : ∀ allocation ∈ allocations, NonnegativeCounts allocation
  named : ∀ key ∈ countFields, usage.get? key ≠ none →
    ∀ allocation ∈ allocations, allocation.get? key ≠ none
  sums : ∀ key ∈ countFields, usage.get? key ≠ none →
    (allocations.map (count · key)).sum = count usage key
  proportional : ∀ key ∈ proportionalFields, ∀ i (h : i < allocations.length),
    |(count allocations[i] key : ℚ) - exactQuota (count usage key) weights i| < 1
  heavier : ∀ key ∈ proportionalFields, ∀ i j (hi : i < allocations.length)
    (hj : j < allocations.length), weights.getD i 0 < weights.getD j 0 →
      count allocations[i] key ≤ count allocations[j] key
  total : count usage "prompt_tokens" + count usage "completion_tokens" =
      count usage "total_tokens" → ∀ allocation ∈ allocations,
    count allocation "prompt_tokens" + count allocation "completion_tokens" =
      count allocation "total_tokens"
  cached : count usage "prompt_tokens_cached" ≤ count usage "prompt_tokens" →
    ∀ allocation ∈ allocations,
      count allocation "prompt_tokens_cached" ≤ count allocation "prompt_tokens"

section Totals

variable {usage : JsonObject} {key : String}

theorem count_of_unnamed (h : usage.get? key = none) : count usage key = 0 := by
  simp [count, h]

theorem named_of_count_ne_zero (h : count usage key ≠ 0) : usage.get? key ≠ none :=
  fun hnone => h (count_of_unnamed hnone)

theorem coerce_count (h : NonnegativeCounts usage) (hkey : key ∈ countFields) :
    coerceNonNegativeInt (usage.get key) = .ok (count usage key) := by
  cases hget : usage.get? key with
  | none => simp [JsonObject.get, count, hget, coerceNonNegativeInt]
  | some value =>
      obtain ⟨n, rfl⟩ := h key hkey value hget
      simp [JsonObject.get, count, hget, coerceNonNegativeInt]

/-- The totals of an object whose fields are all counts. -/
def countedTotals (usage : JsonObject) : UsageTotals :=
  { usage
    promptTokens := count usage "prompt_tokens"
    cachedPromptTokens := count usage "prompt_tokens_cached"
    completionTokens := count usage "completion_tokens"
    totalTokens := count usage "total_tokens" }

theorem usageTotals_counted (h : NonnegativeCounts usage) :
    usageTotals usage = .ok (countedTotals usage) := by
  simp only [usageTotals, coerce_count h (List.mem_cons_self ..),
    coerce_count h (show "prompt_tokens_cached" ∈ countFields by decide),
    coerce_count h (show "completion_tokens" ∈ countFields by decide),
    coerce_count h (show "total_tokens" ∈ countFields by decide)]
  rfl

variable (usage) (weights : List ℕ) (i : ℕ)

theorem replicate_eq_allocate :
    List.replicate weights.length 0 = allocateProportionalInts 0 weights := by
  simp [allocateProportionalInts]

theorem promptShares_eq : (countedTotals usage).promptShares weights =
    allocateProportionalInts (count usage "prompt_tokens") weights := by
  unfold UsageTotals.promptShares
  split_ifs with hshown
  · rfl
  · have hzero : count usage "prompt_tokens" = 0 := by
      by_contra hpos
      exact hshown (Or.inl (named_of_count_ne_zero hpos))
    rw [hzero, replicate_eq_allocate]

theorem completionShares_eq : (countedTotals usage).completionShares weights =
    allocateProportionalInts (count usage "completion_tokens") weights := by
  unfold UsageTotals.completionShares
  split_ifs with hshown
  · rfl
  · have hzero : count usage "completion_tokens" = 0 := by
      by_contra hpos
      exact hshown (Or.inl (named_of_count_ne_zero hpos))
    rw [hzero, replicate_eq_allocate]

/-- The weights of the cached tokens: the prompt tokens, where there are any. -/
def cachedWeights : List ℕ :=
  if 0 < count usage "prompt_tokens" then
    allocateProportionalInts (count usage "prompt_tokens") weights
  else weights

variable {weights}

theorem cachedPromptShares_eq (h : weights ≠ []) :
    (countedTotals usage).cachedPromptShares weights =
      allocateProportionalInts (count usage "prompt_tokens_cached")
        (cachedWeights usage weights) := by
  have hlength : (cachedWeights usage weights).length = weights.length := by
    unfold cachedWeights
    split_ifs <;> simp
  by_cases hshown : (countedTotals usage).includeCachedPromptTokens
  · simp only [UsageTotals.cachedPromptShares, hshown, if_true, promptShares_eq,
      sum_allocateProportionalInts _ h]
    rfl
  · have hzero : count usage "prompt_tokens_cached" = 0 := by
      by_contra hpos
      exact hshown (Or.inl (named_of_count_ne_zero hpos))
    simp only [UsageTotals.cachedPromptShares, hshown, if_false]
    rw [hzero, ← replicate_eq_allocate, hlength]

theorem totalShares_eq (h : count usage "prompt_tokens" + count usage "completion_tokens" =
    count usage "total_tokens") : (countedTotals usage).totalShares weights =
      List.zipWith (· + ·) (allocateProportionalInts (count usage "prompt_tokens") weights)
        (allocateProportionalInts (count usage "completion_tokens") weights) := by
  have htotal : (countedTotals usage).totalTokens =
      (countedTotals usage).promptTokens + (countedTotals usage).completionTokens := h.symm
  by_cases hshown : (countedTotals usage).includeTotalTokens
  · simp only [UsageTotals.totalShares, promptShares_eq, completionShares_eq, hshown, not_true,
      if_false, htotal, if_true]
  · have hzero : count usage "total_tokens" = 0 := by
      by_contra hpos
      exact hshown (Or.inl (named_of_count_ne_zero hpos))
    have hprompt : count usage "prompt_tokens" = 0 := by omega
    have hcompletion : count usage "completion_tokens" = 0 := by omega
    simp only [UsageTotals.totalShares, hshown, not_false_eq_true, if_true]
    rw [hprompt, hcompletion, ← replicate_eq_allocate]
    simp

end Totals

section Items

variable {usage : JsonObject} {weights : List ℕ} {i : ℕ}

/-- An item has the fields that are shown, each with its share. -/
theorem get?_allocation (totals : UsageTotals) (weights : List ℕ) (i : ℕ) :
    (totals.allocation weights i).get? "prompt_tokens" =
        (if totals.includePromptTokens then
          some (.int ((totals.promptShares weights).getD i 0)) else none) ∧
      (totals.allocation weights i).get? "prompt_tokens_cached" =
        (if totals.includeCachedPromptTokens then
          some (.int ((totals.cachedPromptShares weights).getD i 0)) else none) ∧
      (totals.allocation weights i).get? "completion_tokens" =
        (if totals.includeCompletionTokens then
          some (.int ((totals.completionShares weights).getD i 0)) else none) ∧
      (totals.allocation weights i).get? "total_tokens" =
        (if totals.includeTotalTokens then
          some (.int ((totals.totalShares weights).getD i 0)) else none) := by
  by_cases hprompt : totals.includePromptTokens <;>
    by_cases hcached : totals.includeCachedPromptTokens <;>
    by_cases hcompletion : totals.includeCompletionTokens <;>
    by_cases htotal : totals.includeTotalTokens <;>
    simp [UsageTotals.allocation, hprompt, hcached, hcompletion, htotal, JsonObject.get?]

theorem count_of_shown {object : JsonObject} {key : String} {shown : Prop} [Decidable shown]
    {n : ℕ} (h : object.get? key = if shown then some (.int n) else none)
    (hhidden : ¬shown → n = 0) : count object key = n := by
  by_cases hshown : shown
  · simp [count, h, hshown]
  · simp [count, h, hshown, hhidden hshown]

theorem getD_replicate_zero (n i : ℕ) : (List.replicate n 0).getD i 0 = 0 := by
  rw [List.getD_eq_getElem?_getD, List.getElem?_replicate]
  split_ifs <;> rfl

theorem count_prompt : count ((countedTotals usage).allocation weights i) "prompt_tokens" =
    (allocateProportionalInts (count usage "prompt_tokens") weights).getD i 0 := by
  rw [← promptShares_eq]
  refine count_of_shown (get?_allocation _ weights i).1 fun hhidden => ?_
  simp only [UsageTotals.promptShares, hhidden, if_false, getD_replicate_zero]

theorem count_completion : count ((countedTotals usage).allocation weights i) "completion_tokens" =
    (allocateProportionalInts (count usage "completion_tokens") weights).getD i 0 := by
  rw [← completionShares_eq]
  refine count_of_shown (get?_allocation _ weights i).2.2.1 fun hhidden => ?_
  simp only [UsageTotals.completionShares, hhidden, if_false, getD_replicate_zero]

theorem count_cached (h : weights ≠ []) :
    count ((countedTotals usage).allocation weights i) "prompt_tokens_cached" =
      (allocateProportionalInts (count usage "prompt_tokens_cached")
        (cachedWeights usage weights)).getD i 0 := by
  rw [← cachedPromptShares_eq usage h]
  refine count_of_shown (get?_allocation _ weights i).2.1 fun hhidden => ?_
  simp only [UsageTotals.cachedPromptShares, hhidden, if_false, getD_replicate_zero]

theorem count_total : count ((countedTotals usage).allocation weights i) "total_tokens" =
    ((countedTotals usage).totalShares weights).getD i 0 := by
  refine count_of_shown (get?_allocation _ weights i).2.2.2 fun hhidden => ?_
  simp only [UsageTotals.totalShares, hhidden, not_false_eq_true, if_true, getD_replicate_zero]

theorem nonnegativeCounts_allocation (totals : UsageTotals) (weights : List ℕ) (i : ℕ) :
    NonnegativeCounts (totals.allocation weights i) := by
  obtain ⟨hprompt, hcached, hcompletion, htotal⟩ := get?_allocation totals weights i
  intro key hkey value hvalue
  simp only [countFields, List.mem_cons, List.not_mem_nil, or_false] at hkey
  rcases hkey with rfl | rfl | rfl | rfl
  · rw [hprompt, Option.ite_none_right_eq_some] at hvalue
    exact ⟨_, (Option.some.inj hvalue.2).symm⟩
  · rw [hcached, Option.ite_none_right_eq_some] at hvalue
    exact ⟨_, (Option.some.inj hvalue.2).symm⟩
  · rw [hcompletion, Option.ite_none_right_eq_some] at hvalue
    exact ⟨_, (Option.some.inj hvalue.2).symm⟩
  · rw [htotal, Option.ite_none_right_eq_some] at hvalue
    exact ⟨_, (Option.some.inj hvalue.2).symm⟩

/-- A field of the aggregate is a field of every item. -/
theorem allocation_named {key : String} (hkey : key ∈ countFields)
    (hnamed : usage.get? key ≠ none) (weights : List ℕ) (i : ℕ) :
    ((countedTotals usage).allocation weights i).get? key ≠ none := by
  obtain ⟨hprompt, hcached, hcompletion, htotal⟩ :=
    get?_allocation (countedTotals usage) weights i
  simp only [countFields, List.mem_cons, List.not_mem_nil, or_false] at hkey
  rcases hkey with rfl | rfl | rfl | rfl
  · have hshown : (countedTotals usage).includePromptTokens := Or.inl hnamed
    simp [hprompt, hshown]
  · have hshown : (countedTotals usage).includeCachedPromptTokens := Or.inl hnamed
    simp [hcached, hshown]
  · have hshown : (countedTotals usage).includeCompletionTokens := Or.inl hnamed
    simp [hcompletion, hshown]
  · have hshown : (countedTotals usage).includeTotalTokens := Or.inl hnamed
    simp [htotal, hshown]

theorem map_getD_range (shares : List ℕ) :
    (List.range shares.length).map (fun i => shares.getD i 0) = shares := by
  refine List.ext_getElem (by simp) fun i hi hi' => ?_
  simp [List.getD_eq_getElem?_getD, hi']

/-- The items of the aggregate's own order take up all of its total. -/
theorem sum_totalShares (h : weights ≠ []) (hnamed : usage.get? "total_tokens" ≠ none) :
    ((countedTotals usage).totalShares weights).sum = count usage "total_tokens" ∧
      ((countedTotals usage).totalShares weights).length = weights.length := by
  have hshown : (countedTotals usage).includeTotalTokens := Or.inl hnamed
  by_cases hboth : count usage "prompt_tokens" + count usage "completion_tokens" =
      count usage "total_tokens"
  · rw [totalShares_eq usage hboth, ← hboth]
    refine ⟨?_, by simp⟩
    rw [← List.sum_add_sum_eq_sum_zipWith_of_length_eq _ _ (by simp),
      sum_allocateProportionalInts _ h, sum_allocateProportionalInts _ h]
  · have hapart : ¬(countedTotals usage).totalTokens =
        (countedTotals usage).promptTokens + (countedTotals usage).completionTokens :=
      fun heq => hboth heq.symm
    have hsplit : (countedTotals usage).totalShares weights =
        allocateProportionalInts (count usage "total_tokens") weights := by
      simp only [UsageTotals.totalShares, hshown, not_true, if_false, hapart]
      exact if_pos (Or.inl hnamed)
    rw [hsplit]
    exact ⟨sum_allocateProportionalInts _ h, length_allocateProportionalInts⟩

/-- Every field of the aggregate is split without rest. -/
theorem sum_counts (h : weights ≠ []) {key : String} (hkey : key ∈ countFields)
    (hnamed : usage.get? key ≠ none) :
    ((List.range weights.length).map fun i =>
      count ((countedTotals usage).allocation weights i) key).sum = count usage key := by
  have hsum : ∀ shares : List ℕ, shares.length = weights.length →
      ((List.range weights.length).map fun i => shares.getD i 0).sum = shares.sum := by
    intro shares hlength
    rw [← hlength, map_getD_range]
  simp only [countFields, List.mem_cons, List.not_mem_nil, or_false] at hkey
  rcases hkey with rfl | rfl | rfl | rfl
  · simp only [count_prompt]
    rw [hsum _ length_allocateProportionalInts, sum_allocateProportionalInts _ h]
  · have hlength : (cachedWeights usage weights).length = weights.length := by
      unfold cachedWeights
      split_ifs <;> simp
    have hne : cachedWeights usage weights ≠ [] := by
      rw [← List.length_pos_iff, hlength]
      exact List.length_pos_iff.mpr h
    simp only [count_cached h]
    rw [hsum _ (length_allocateProportionalInts.trans hlength), sum_allocateProportionalInts _ hne]
  · simp only [count_completion]
    rw [hsum _ length_allocateProportionalInts, sum_allocateProportionalInts _ h]
  · obtain ⟨hwhole, hlength⟩ := sum_totalShares h hnamed
    simp only [count_total]
    rw [hsum _ hlength, hwhole]

/-- Counts that add up in the aggregate add up in every item: the total is then the sum of the
two shares and not a share of its own. -/
theorem count_sum_eq (hboth : count usage "prompt_tokens" + count usage "completion_tokens" =
    count usage "total_tokens") (hi : i < weights.length) :
    count ((countedTotals usage).allocation weights i) "prompt_tokens" +
        count ((countedTotals usage).allocation weights i) "completion_tokens" =
      count ((countedTotals usage).allocation weights i) "total_tokens" := by
  rw [count_prompt, count_completion, count_total, totalShares_eq usage hboth]
  simp [List.getD_eq_getElem?_getD, hi]

/-- The cached tokens are split by the prompt tokens given out, which cover them. -/
theorem count_cached_le (hle : count usage "prompt_tokens_cached" ≤ count usage "prompt_tokens")
    (hi : i < weights.length) :
    count ((countedTotals usage).allocation weights i) "prompt_tokens_cached" ≤
      count ((countedTotals usage).allocation weights i) "prompt_tokens" := by
  have h : weights ≠ [] := List.ne_nil_of_length_pos (by omega)
  rw [count_cached h, count_prompt, cachedWeights]
  by_cases hpos : 0 < count usage "prompt_tokens"
  · rw [if_pos hpos]
    have hsum := sum_allocateProportionalInts (count usage "prompt_tokens") h
    refine allocateProportionalInts_le ?_ ?_ (by simpa using hi)
    · rwa [hsum]
    · rwa [hsum]
  · have hzero : count usage "prompt_tokens_cached" = 0 := by omega
    rw [if_neg hpos, hzero, ← replicate_eq_allocate, getD_replicate_zero]
    exact Nat.zero_le _

/-- Prompt and completion tokens of an item, as shares of the item weights. -/
theorem count_proportional {key : String} (hkey : key ∈ proportionalFields) :
    count ((countedTotals usage).allocation weights i) key =
      (allocateProportionalInts (count usage key) weights).getD i 0 := by
  simp only [proportionalFields, List.mem_cons, List.not_mem_nil, or_false] at hkey
  rcases hkey with rfl | rfl
  · exact count_prompt
  · exact count_completion

end Items

/-- Every aggregate of counts is split exactly and fairly over every list of items. -/
theorem usage_split_fair (aggregateUsage : JsonValue) (usage : JsonObject) (weights : List ℕ)
    (husage : dictOf aggregateUsage = .ok usage) (hcounts : NonnegativeCounts usage)
    (hweights : weights ≠ []) :
    ∃ allocations, allocateEmbeddingUsage aggregateUsage weights = .ok allocations ∧
      FairSplit usage weights allocations := by
  refine ⟨(List.range weights.length).map ((countedTotals usage).allocation weights), ?_, ?_⟩
  · rw [allocateEmbeddingUsage, if_neg hweights, husage]
    simp only [bind, Except.bind, usageTotals_counted hcounts]
    rfl
  constructor
  · simp
  · intro allocation hmem
    obtain ⟨i, _, rfl⟩ := List.mem_map.mp hmem
    exact nonnegativeCounts_allocation _ _ _
  · intro key hkey hnamed allocation hmem
    obtain ⟨i, _, rfl⟩ := List.mem_map.mp hmem
    exact allocation_named hkey hnamed weights i
  · intro key hkey hnamed
    rw [List.map_map]
    exact sum_counts hweights hkey hnamed
  · intro key hkey i hi
    have hlt : i < weights.length := by simpa using hi
    simp only [List.getElem_map, List.getElem_range, count_proportional hkey]
    exact abs_allocateProportionalInts_sub_lt hlt
  · intro key hkey i j hi hj hlight
    simp only [List.getElem_map, List.getElem_range, count_proportional hkey]
    exact allocateProportionalInts_mono (by simpa using hi) (by simpa using hj) hlight
  · intro hboth allocation hmem
    obtain ⟨i, hi, rfl⟩ := List.mem_map.mp hmem
    exact count_sum_eq hboth (List.mem_range.mp hi)
  · intro hle allocation hmem
    obtain ⟨i, hi, rfl⟩ := List.mem_map.mp hmem
    exact count_cached_le hle (List.mem_range.mp hi)

/-- The usage of a call whose two items weigh one and two. -/
def sevenPromptTokens : JsonObject :=
  [("prompt_tokens", .int 7), ("prompt_tokens_cached", .int 3), ("total_tokens", .int 7)]

theorem usage_split_fair_two_items :
    ∃ allocations, allocateEmbeddingUsage (.dict sevenPromptTokens) [1, 2] = .ok allocations ∧
      FairSplit sevenPromptTokens [1, 2] allocations := by
  refine usage_split_fair _ _ _ rfl ?_ (by decide)
  intro key hkey value hvalue
  simp only [countFields, List.mem_cons, List.not_mem_nil, or_false] at hkey
  rcases hkey with rfl | rfl | rfl | rfl
  · exact ⟨7, (Option.some.inj hvalue).symm⟩
  · exact ⟨3, (Option.some.inj hvalue).symm⟩
  · cases hvalue
  · exact ⟨7, (Option.some.inj hvalue).symm⟩

end EmbeddingUsageSplit
