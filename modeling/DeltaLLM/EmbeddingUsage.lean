import Mathlib.Data.List.Sort
import DeltaLLM.CheckedResults
import DeltaLLM.JsonValues
import DeltaLLM.PythonText
import Mathlib.Algebra.GroupWithZero.Nat

/-! # Usage of one embedding call, split over its items

The usage object comes from the provider, in any JSON shape. What cannot be read as a count is
zero, and a count is split in proportion to the item weights.
-/
namespace EmbeddingUsage

open CheckedResults
open JsonValues (JsonValue JsonFloat JsonObject)
open PythonText (intOfText)

/-- Exceptions that fail an item instead of completing it. -/
inductive EmbeddingError where
  | typeError
  | valueError
  | overflowError
  | responseShape (text : String)
  deriving DecidableEq, Repr

/-- One element of the argument of `dict(…)`. Keys that are not texts are dropped: no lookup
names them. -/
def pairOf : JsonValue → Except EmbeddingError (Option (String × JsonValue))
  | .list [.str key, value] => .ok (some (key, value))
  | .list [.list _, _] | .list [.dict _, _] => .error .typeError
  | .list [_, _] => .ok none
  | .list _ => .error .valueError
  | .str text =>
      match text.toList with
      | [key, value] => .ok (some (String.ofList [key], .str (String.ofList [value])))
      | _ => .error .valueError
  | .dict [(key, _), (value, _)] => .ok (some (key, .str value))
  | .dict _ => .error .valueError
  | _ => .error .typeError

/-- `dict(value or {})`. -/
def dictOf (value : JsonValue) : Except EmbeddingError JsonObject :=
  if value.truthy then
    match value with
    | .dict fields => .ok fields
    | .list elements => do
        let pairs ← elements.mapM pairOf
        return (pairs.filterMap id).foldl
          (fun fields pair => JsonObject.set fields pair.1 pair.2) []
    | .str _ => .error .valueError
    | _ => .error .typeError
  else .ok []

/-- `_coerce_non_negative_int`. Only an infinite float gets past its except clause. -/
def coerceNonNegativeInt (value : JsonValue) : Except EmbeddingError ℕ :=
  match value with
  | .bool true => .ok 1
  | .int n => .ok n.toNat
  | .float (.finite q) => .ok (q.num.tdiv q.den).toNat
  | .float (.infinity _) => .error .overflowError
  | .str text => .ok ((intOfText text).getD 0).toNat
  | _ => .ok 0

/-- Larger remainders first, then smaller positions. -/
def remainderOrder (total weightSum : ℕ) (weights : List ℕ) (i j : ℕ) : Prop :=
  let left (k : ℕ) := (total * weights.getD k 0) % weightSum
  left j < left i ∨ (left i = left j ∧ i ≤ j)

instance (total weightSum : ℕ) (weights : List ℕ) :
    DecidableRel (remainderOrder total weightSum weights) := by
  intro i j
  unfold remainderOrder
  exact inferInstance

def effectiveWeights (weights : List ℕ) : List ℕ :=
  if weights.sum = 0 then List.replicate weights.length 1 else weights

/-- `_allocate_proportional_ints`: quotients, then one unit each to the largest remainders. -/
def allocateProportionalInts (total : ℕ) (weights : List ℕ) : List ℕ :=
  if total = 0 then List.replicate weights.length 0
  else
    let normalized := effectiveWeights weights
    let shares := normalized.map fun weight => total * weight / normalized.sum
    let ranked := (List.range weights.length).insertionSort
      (remainderOrder total normalized.sum normalized)
    let raised := ranked.take (total - shares.sum)
    shares.mapIdx fun i share => if i ∈ raised then share + 1 else share

/-- The counts of a usage object, and which of them it names. -/
structure UsageTotals where
  usage : JsonObject
  promptTokens : ℕ
  cachedPromptTokens : ℕ
  completionTokens : ℕ
  totalTokens : ℕ

namespace UsageTotals

variable (totals : UsageTotals)

def names (key : String) : Prop := totals.usage.get? key ≠ none

instance (key : String) : Decidable (totals.names key) := by
  unfold names
  exact inferInstance

def includePromptTokens : Prop := totals.names "prompt_tokens" ∨ 0 < totals.promptTokens

def includeCachedPromptTokens : Prop :=
  totals.names "prompt_tokens_cached" ∨ 0 < totals.cachedPromptTokens

def includeCompletionTokens : Prop :=
  totals.names "completion_tokens" ∨ 0 < totals.completionTokens ∨
    totals.includePromptTokens ∨ totals.names "total_tokens" ∨ 0 < totals.totalTokens

def includeTotalTokens : Prop :=
  totals.names "total_tokens" ∨ 0 < totals.totalTokens ∨ totals.includePromptTokens ∨
    totals.includeCompletionTokens

instance : Decidable totals.includePromptTokens := by
  unfold includePromptTokens
  exact inferInstance

instance : Decidable totals.includeCachedPromptTokens := by
  unfold includeCachedPromptTokens
  exact inferInstance

instance : Decidable totals.includeCompletionTokens := by
  unfold includeCompletionTokens
  exact inferInstance

instance : Decidable totals.includeTotalTokens := by
  unfold includeTotalTokens
  exact inferInstance

def promptShares (weights : List ℕ) : List ℕ :=
  if totals.includePromptTokens then allocateProportionalInts totals.promptTokens weights
  else List.replicate weights.length 0

def cachedPromptShares (weights : List ℕ) : List ℕ :=
  let cachedWeights :=
    if 0 < (totals.promptShares weights).sum then totals.promptShares weights else weights
  if totals.includeCachedPromptTokens then
    allocateProportionalInts totals.cachedPromptTokens cachedWeights
  else List.replicate weights.length 0

def completionShares (weights : List ℕ) : List ℕ :=
  if totals.includeCompletionTokens then
    allocateProportionalInts totals.completionTokens weights
  else List.replicate weights.length 0

def totalShares (weights : List ℕ) : List ℕ :=
  let sums := List.zipWith (· + ·) (totals.promptShares weights) (totals.completionShares weights)
  if ¬totals.includeTotalTokens then List.replicate weights.length 0
  else if totals.totalTokens = totals.promptTokens + totals.completionTokens then sums
  else if totals.names "total_tokens" ∨ 0 < totals.totalTokens then
    allocateProportionalInts totals.totalTokens weights
  else sums

/-- The usage of the item at position `i`. -/
def allocation (weights : List ℕ) (i : ℕ) : JsonObject :=
  let share (name : String) (shown : Prop) [Decidable shown] (shares : List ℕ) : JsonObject :=
    if shown then [(name, .int (shares.getD i 0))] else []
  share "prompt_tokens" totals.includePromptTokens (totals.promptShares weights) ++
    share "prompt_tokens_cached" totals.includeCachedPromptTokens
      (totals.cachedPromptShares weights) ++
    share "completion_tokens" totals.includeCompletionTokens (totals.completionShares weights) ++
    share "total_tokens" totals.includeTotalTokens (totals.totalShares weights)

end UsageTotals

def usageTotals (usage : JsonObject) : Except EmbeddingError UsageTotals := do
  let promptTokens ← coerceNonNegativeInt (usage.get "prompt_tokens")
  let cachedPromptTokens ← coerceNonNegativeInt (usage.get "prompt_tokens_cached")
  let completionTokens ← coerceNonNegativeInt (usage.get "completion_tokens")
  let totalTokens ← coerceNonNegativeInt (usage.get "total_tokens")
  return { usage, promptTokens, cachedPromptTokens, completionTokens, totalTokens }

/-- `allocate_embedding_usage`: one usage object for each weight. -/
def allocateEmbeddingUsage (aggregateUsage : JsonValue) (weights : List ℕ) :
    Except EmbeddingError (List JsonObject) :=
  if weights = [] then .ok []
  else do
    let usage ← dictOf aggregateUsage
    let totals ← usageTotals usage
    return (List.range weights.length).map (totals.allocation weights)

/-- A count above zero was named. -/
theorem names_of_pos {usage : JsonObject} {key : String} {n : ℕ}
    (h : coerceNonNegativeInt (usage.get key) = .ok n) (hpos : 0 < n) : usage.get? key ≠ none := by
  intro hnone
  have hnull : usage.get key = .null := by simp [JsonObject.get, hnone]
  rw [hnull] at h
  cases h
  exact absurd hpos (lt_irrefl 0)

theorem usageTotals_ok {usage : JsonObject} {totals : UsageTotals}
    (h : usageTotals usage = .ok totals) :
    totals.usage = usage ∧ (totals.includePromptTokens ↔ usage.get? "prompt_tokens" ≠ none) := by
  obtain ⟨promptTokens, hprompt, h⟩ := bind_ok_iff.mp h
  obtain ⟨cachedPromptTokens, _, h⟩ := bind_ok_iff.mp h
  obtain ⟨completionTokens, _, h⟩ := bind_ok_iff.mp h
  obtain ⟨totalTokens, _, h⟩ := bind_ok_iff.mp h
  cases h
  refine ⟨rfl, ?_⟩
  constructor
  · rintro (hnamed | hpos)
    · exact hnamed
    · exact names_of_pos hprompt hpos
  · intro hnamed
    exact Or.inl hnamed

/-- Prompt tokens bring the other two counts with them. -/
theorem allocation_counts {totals : UsageTotals} (h : totals.includePromptTokens)
    (weights : List ℕ) (i : ℕ) :
    ∀ key ∈ ["prompt_tokens", "completion_tokens", "total_tokens"],
      ∃ n : ℕ, (totals.allocation weights i).get key = .int n := by
  have hcompletion : totals.includeCompletionTokens := Or.inr (Or.inr (Or.inl h))
  have htotal : totals.includeTotalTokens := Or.inr (Or.inr (Or.inl h))
  intro key hkey
  simp only [List.mem_cons, List.not_mem_nil, or_false] at hkey
  by_cases hcached : totals.includeCachedPromptTokens <;>
    rcases hkey with rfl | rfl | rfl <;>
    simp [UsageTotals.allocation, h, hcompletion, htotal, hcached, JsonObject.get, JsonObject.get?]

theorem allocation_without_prompt {totals : UsageTotals} (h : ¬totals.includePromptTokens)
    (weights : List ℕ) (i : ℕ) : (totals.allocation weights i).get "prompt_tokens" = .null := by
  by_cases hcached : totals.includeCachedPromptTokens <;>
    by_cases hcompletion : totals.includeCompletionTokens <;>
    by_cases htotal : totals.includeTotalTokens <;>
    simp [UsageTotals.allocation, h, hcompletion, htotal, hcached, JsonObject.get, JsonObject.get?]

theorem allocateEmbeddingUsage_ok {aggregateUsage : JsonValue} {weights : List ℕ}
    {allocations : List JsonObject}
    (h : allocateEmbeddingUsage aggregateUsage weights = .ok allocations) :
    allocations.length = weights.length ∧ ∀ allocation ∈ allocations,
      ∃ usage totals i, dictOf aggregateUsage = .ok usage ∧ usageTotals usage = .ok totals ∧
        allocation = totals.allocation weights i := by
  unfold allocateEmbeddingUsage at h
  by_cases hweights : weights = []
  · rw [if_pos hweights] at h
    cases h
    simp [hweights]
  · rw [if_neg hweights] at h
    obtain ⟨usage, husage, h⟩ := bind_ok_iff.mp h
    obtain ⟨totals, htotals, h⟩ := bind_ok_iff.mp h
    cases h
    refine ⟨by simp, ?_⟩
    intro allocation hmem
    obtain ⟨i, _, rfl⟩ := List.mem_map.mp hmem
    exact ⟨usage, totals, i, husage, htotals, rfl⟩

end EmbeddingUsage
