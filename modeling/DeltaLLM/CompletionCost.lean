import DeltaLLM.JsonText
import DeltaLLM.StreamingCache

/-! # The cost of a completion

Prices of a deployment and what a usage costs at them. Prices and costs are exact numbers.
-/
namespace CompletionCost

open JsonText JsonValues PythonText StreamingCache

structure ModelPricing where
  inputCostPerToken : ℚ
  outputCostPerToken : ℚ
  inputCostPerTokenCacheHit : Option ℚ
  outputCostPerTokenCacheHit : Option ℚ
  costPerRequest : ℚ
  deriving DecidableEq

/-- A pricing of the table, in a thousandth of a millionth. -/
def pricing (input output : ℚ) (inputCacheHit : Option ℚ) : ModelPricing :=
  ⟨input / 10 ^ 9, output / 10 ^ 9, inputCacheHit.map (· / 10 ^ 9), none, 0⟩

/-- `DEFAULT_MODEL_COST_MAP`. -/
def defaultModelCostMap : List (String × ModelPricing) :=
  [("gpt-4", pricing 30000 60000 none),
    ("gpt-4-32k", pricing 60000 120000 none),
    ("gpt-4-turbo", pricing 10000 30000 (some 5000)),
    ("gpt-4o", pricing 5000 15000 (some 2500)),
    ("gpt-4o-mini", pricing 150 600 (some 75)),
    ("gpt-3.5-turbo", pricing 500 1500 none),
    ("text-embedding-3-small", pricing 20 0 none),
    ("text-embedding-3-large", pricing 130 0 none),
    ("claude-3-opus", pricing 15000 75000 none),
    ("claude-3-sonnet", pricing 3000 15000 none),
    ("claude-3-haiku", pricing 250 1250 none)]

/-- `get_model_pricing`: else the entry of the model, else that of its longest prefix. -/
def getModelPricing (model : String) (customPricing : Option ModelPricing) : Option ModelPricing :=
  match customPricing with
  | some pricing => some pricing
  | none =>
      match defaultModelCostMap.find? (·.1 = model) with
      | some entry => some entry.2
      | none =>
          let entries := defaultModelCostMap.mergeSort fun a b => b.1.length ≤ a.1.length
          (entries.find? fun entry => startsWith model entry.1).map (·.2)

/-- The prices in a deployment's `model_info`. -/
structure ModelInfo where
  inputCostPerToken : Option ℚ
  outputCostPerToken : Option ℚ
  inputCostPerTokenCacheHit : Option ℚ
  outputCostPerTokenCacheHit : Option ℚ

/-- `pricing_from_model_info`. -/
def pricingFromModelInfo (info : ModelInfo) (fallbackInput fallbackOutput : Option ℚ) :
    Option ModelPricing :=
  let inputCost := info.inputCostPerToken.or fallbackInput
  let outputCost := info.outputCostPerToken.or fallbackOutput
  if inputCost = none ∧ outputCost = none ∧ info.inputCostPerTokenCacheHit = none ∧
      info.outputCostPerTokenCacheHit = none then none
  else
    some ⟨inputCost.getD 0, outputCost.getD 0, info.inputCostPerTokenCacheHit,
      info.outputCostPerTokenCacheHit, 0⟩

/-- `round(x, 10)`. -/
def roundTen (x : ℚ) : ℚ := roundHalfEven (x * 10 ^ 10) / 10 ^ 10

/-- What the tokens cost at the prices; the cost of a request is always added. -/
def ModelPricing.tokensCost (pricing : ModelPricing) (cacheHit : Bool)
    (promptTokens completionTokens cachedPromptTokens : ℤ) : ℚ :=
  let uncachedPromptTokens := max 0 (promptTokens - cachedPromptTokens)
  let promptCost := match pricing.inputCostPerTokenCacheHit with
    | some cached =>
        if cacheHit ∨ 0 < cachedPromptTokens then
          cachedPromptTokens * cached + uncachedPromptTokens * pricing.inputCostPerToken
        else promptTokens * pricing.inputCostPerToken
    | none => promptTokens * pricing.inputCostPerToken
  let outputCost := match pricing.outputCostPerTokenCacheHit with
    | some cached =>
        if cacheHit then completionTokens * cached
          else completionTokens * pricing.outputCostPerToken
    | none => completionTokens * pricing.outputCostPerToken
  promptCost + outputCost + pricing.costPerRequest

/-- `completion_cost` at the ordinary tier; none where a count is no number. -/
def completionCost (model : String) (usage : JsonObject) (cacheHit : Bool)
    (customPricing : Option ModelPricing) : Option ℚ :=
  match getModelPricing model customPricing with
  | none => some 0
  | some pricing => do
      let promptTokens ← tokenCount usage "prompt_tokens"
      let completionTokens ← tokenCount usage "completion_tokens"
      let cachedPromptTokens ← tokenCount usage "prompt_tokens_cached"
      return roundTen (pricing.tokensCost cacheHit (max 0 promptTokens) (max 0 completionTokens)
        (max 0 cachedPromptTokens))

/-! ## Costs are not negative where prices are not -/

structure ModelPricing.Nonneg (pricing : ModelPricing) : Prop where
  input : 0 ≤ pricing.inputCostPerToken
  output : 0 ≤ pricing.outputCostPerToken
  inputCacheHit : ∀ cost ∈ pricing.inputCostPerTokenCacheHit, 0 ≤ cost
  outputCacheHit : ∀ cost ∈ pricing.outputCostPerTokenCacheHit, 0 ≤ cost
  request : 0 ≤ pricing.costPerRequest

theorem roundHalfEven_nonneg {q : ℚ} (h : 0 ≤ q) : 0 ≤ roundHalfEven q := by
  have hfloor : 0 ≤ ⌊q⌋ := Int.floor_nonneg.mpr h
  unfold roundHalfEven
  simp only
  split_ifs <;> omega

theorem roundTen_nonneg {x : ℚ} (h : 0 ≤ x) : 0 ≤ roundTen x := by
  have hrounded : 0 ≤ roundHalfEven (x * 10 ^ 10) := roundHalfEven_nonneg (by positivity)
  have hcast : (0 : ℚ) ≤ (roundHalfEven (x * 10 ^ 10) : ℚ) := Int.cast_nonneg hrounded
  unfold roundTen
  positivity

theorem ModelPricing.Nonneg.tokensCost {pricing : ModelPricing} (h : pricing.Nonneg)
    (cacheHit : Bool)
    {promptTokens completionTokens cachedPromptTokens : ℤ} (hprompt : 0 ≤ promptTokens)
    (hcompletion : 0 ≤ completionTokens) (hcached : 0 ≤ cachedPromptTokens) :
    0 ≤ pricing.tokensCost cacheHit promptTokens completionTokens cachedPromptTokens := by
  have huncached : 0 ≤ max 0 (promptTokens - cachedPromptTokens) := le_max_left _ _
  have hproduct : ∀ {tokens : ℤ} {price : ℚ}, 0 ≤ tokens → 0 ≤ price → 0 ≤ tokens * price :=
    fun htokens hprice => mul_nonneg (Int.cast_nonneg htokens) hprice
  unfold ModelPricing.tokensCost
  refine add_nonneg (add_nonneg ?_ ?_) h.request
  · cases hprice : pricing.inputCostPerTokenCacheHit with
    | none => exact hproduct hprompt h.input
    | some cached =>
        simp only
        split
        · exact add_nonneg (hproduct hcached (h.inputCacheHit cached hprice))
            (hproduct huncached h.input)
        · exact hproduct hprompt h.input
  · cases hprice : pricing.outputCostPerTokenCacheHit with
    | none => exact hproduct hcompletion h.output
    | some cached =>
        simp only
        split
        · exact hproduct hcompletion (h.outputCacheHit cached hprice)
        · exact hproduct hcompletion h.output

theorem pricing_nonneg {input output : ℚ} {inputCacheHit : Option ℚ} (hinput : 0 ≤ input)
    (houtput : 0 ≤ output) (hcacheHit : ∀ cost ∈ inputCacheHit, 0 ≤ cost) :
    (pricing input output inputCacheHit).Nonneg := by
  refine ⟨by unfold pricing; positivity, by unfold pricing; positivity, ?_, ?_, le_rfl⟩
  · intro cost hcost
    obtain ⟨listed, hlisted, rfl⟩ := Option.map_eq_some_iff.mp hcost
    have hprice := hcacheHit listed hlisted
    positivity
  · intro cost hcost
    cases hcost

/-- No price of the table is negative. -/
theorem defaultModelCostMap_nonneg : ∀ entry ∈ defaultModelCostMap, entry.2.Nonneg := by
  intro entry hentry
  simp only [defaultModelCostMap, List.mem_cons, List.not_mem_nil, or_false] at hentry
  rcases hentry with rfl | rfl | rfl | rfl | rfl | rfl | rfl | rfl | rfl | rfl | rfl
  all_goals exact pricing_nonneg (by norm_num) (by norm_num) (by simp)

theorem getModelPricing_nonneg {model : String} {customPricing : Option ModelPricing}
    (h : ∀ pricing ∈ customPricing, pricing.Nonneg) {pricing : ModelPricing}
    (hpricing : getModelPricing model customPricing = some pricing) : pricing.Nonneg := by
  unfold getModelPricing at hpricing
  cases customPricing with
  | some custom =>
      obtain rfl := Option.some.inj hpricing
      exact h custom rfl
  | none =>
      simp only at hpricing
      split at hpricing
      next entry hfound =>
        obtain rfl := Option.some.inj hpricing
        exact defaultModelCostMap_nonneg entry (List.mem_of_find?_eq_some hfound)
      next =>
        obtain ⟨entry, hfound, rfl⟩ := Option.map_eq_some_iff.mp hpricing
        exact defaultModelCostMap_nonneg entry
          (List.mem_mergeSort.mp (List.mem_of_find?_eq_some hfound))

/-- Where no price is negative no cost is. -/
theorem completionCost_nonneg {model : String} {usage : JsonObject} {cacheHit : Bool}
    {customPricing : Option ModelPricing} {cost : ℚ}
    (h : ∀ pricing ∈ customPricing, pricing.Nonneg)
    (hcost : completionCost model usage cacheHit customPricing = some cost) : 0 ≤ cost := by
  unfold completionCost at hcost
  cases hpricing : getModelPricing model customPricing with
  | none =>
      rw [hpricing] at hcost
      obtain rfl := Option.some.inj hcost
      exact le_rfl
  | some pricing =>
      rw [hpricing] at hcost
      simp only [Option.bind_eq_bind, Option.bind_eq_some_iff, Option.pure_def,
        Option.some.injEq] at hcost
      obtain ⟨promptTokens, -, completionTokens, -, cachedPromptTokens, -, rfl⟩ := hcost
      have hnonneg := getModelPricing_nonneg h hpricing
      exact roundTen_nonneg (hnonneg.tokensCost cacheHit (le_max_left _ _) (le_max_left _ _)
        (le_max_left _ _))

end CompletionCost
