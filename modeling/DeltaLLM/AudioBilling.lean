import DeltaLLM.CompletionCost
import Mathlib.Algebra.Order.BigOperators.Group.List

/-! # What speech and transcriptions cost

Audio is billed by tokens, else by characters, else by seconds: by the first unit of which there is
some usage and some price. Prices are exact numbers; none stands for an exception, or for a price or
a duration that is no number.
-/
namespace AudioBilling

open CompletionCost JsonValues StreamingCache

/-- A quantity of the usage and its price. -/
structure Charge where
  usageField : String
  quantity : ℚ
  priceField : String
  price : ℚ
  deriving DecidableEq, Repr

def Charge.cost (charge : Charge) : ℚ := charge.quantity * charge.price

/-- There is some usage and some price, not necessarily of one quantity. -/
def billable (charges : List Charge) : Bool :=
  (charges.any fun charge => 0 < charge.quantity) && charges.any fun charge => 0 < charge.price

def totalCost (charges : List Charge) : ℚ := (charges.map Charge.cost).sum

inductive BillingUnit where
  | token | character | second
  deriving DecidableEq, Repr

/-- `BillingResult`, with the cost before it is rounded. -/
structure BillingResult where
  unrounded : ℚ
  billingUnit : Option BillingUnit
  pricingFieldsUsed : List String
  usageSnapshot : List (String × ℚ)
  unpricedReason : Option String
  deriving DecidableEq, Repr

def BillingResult.cost (result : BillingResult) : ℚ := roundTen result.unrounded

def billed (unit : BillingUnit) (charges : List Charge) (usageSnapshot : List (String × ℚ)) :
    BillingResult :=
  ⟨totalCost charges, some unit, charges.map Charge.priceField, usageSnapshot, none⟩

/-- `_compact_usage_snapshot`. -/
def compactUsageSnapshot (values : List (String × ℚ)) : List (String × ℚ) :=
  values.filter (·.2 ≠ 0)

def unpriced (reason : String) (values : List (String × ℚ)) : BillingResult :=
  ⟨0, none, [], compactUsageSnapshot values, some reason⟩

def snapshot (charges : List Charge) : List (String × ℚ) :=
  charges.map fun charge => (charge.usageField, charge.quantity)

/-! ## Quantities and prices -/

/-- `max(0, int(value or 0))`. -/
def countOf (value : JsonValue) : Option ℤ :=
  match toInt (orElse value (.int 0)) with
  | .value n => some (max 0 n)
  | .invalid | .overflow => none

/-- `fields.get(name, fields.get(other))`. -/
def getEither (fields : JsonObject) (name other : String) : JsonValue :=
  (fields.get? name).getD (fields.get other)

section Billing

variable (floatOfText : String → Option JsonFloat)

/-- `float(value)`, none where it raises. -/
def floatOf : JsonValue → Option JsonFloat
  | .bool b => some (.finite (if b then 1 else 0))
  | .int n => some (.finite n)
  | .float x => some x
  | .str text => floatOfText text
  | _ => none

def exact : JsonFloat → Option ℚ
  | .finite q => some q
  | .infinity _ | .nan => none

/-- `_float_or_zero`. -/
def floatOrZero (value : JsonValue) : Option ℚ :=
  match floatOf floatOfText (orElse value (.int 0)) with
  | some x => exact x
  | none => some 0

/-- `max(0.0, float(value or 0))`. -/
def secondsOf (value : JsonValue) : Option ℚ :=
  ((floatOf floatOfText (orElse value (.int 0))).bind exact).map (max 0)

variable (usage modelInfo : JsonObject)

/-- A count of the usage at a price of the model. -/
def countCharge (usageField : String) (value : JsonValue) (priceField : String) :
    Option Charge := do
  let count ← countOf value
  let price ← floatOrZero floatOfText (modelInfo.get priceField)
  return ⟨usageField, count, priceField, price⟩

/-- Text tokens, and audio tokens of the input. -/
def inputTokenCharges : Option (List Charge) := do
  let promptTokens ←
    countCharge floatOfText modelInfo "prompt_tokens" (usage.get "prompt_tokens")
      "input_cost_per_token"
  let completionTokens ←
    countCharge floatOfText modelInfo "completion_tokens" (usage.get "completion_tokens")
      "output_cost_per_token"
  let inputAudioTokens ←
    countCharge floatOfText modelInfo "input_audio_tokens"
      (getEither usage "input_audio_tokens" "audio_tokens") "input_cost_per_audio_token"
  return [promptTokens, completionTokens, inputAudioTokens]

def outputAudioCharge : Option Charge :=
  countCharge floatOfText modelInfo "output_audio_tokens" (usage.get "output_audio_tokens")
    "output_cost_per_audio_token"

def tokenCharges : Option (List Charge) := do
  let charges ← inputTokenCharges floatOfText usage modelInfo
  let outputAudioTokens ← outputAudioCharge floatOfText usage modelInfo
  return charges ++ [outputAudioTokens]

def characterCharges : Option (List Charge) := do
  let inputCharacters ←
    countCharge floatOfText modelInfo "input_characters"
      (getEither usage "input_characters" "characters") "input_cost_per_character"
  let outputCharacters ←
    countCharge floatOfText modelInfo "output_characters" (usage.get "output_characters")
      "output_cost_per_character"
  return [inputCharacters, outputCharacters]

/-- Seconds are charged at the price of the input and at that of the output. -/
def secondCharges (durationSeconds : ℚ) : Option (List Charge) := do
  let inputCostPerSecond ← floatOrZero floatOfText (modelInfo.get "input_cost_per_second")
  let outputCostPerSecond ← floatOrZero floatOfText (modelInfo.get "output_cost_per_second")
  return [⟨"duration_seconds", durationSeconds, "input_cost_per_second", inputCostPerSecond⟩,
    ⟨"duration_seconds", durationSeconds, "output_cost_per_second", outputCostPerSecond⟩]

def durationSeconds : Option ℚ := secondsOf floatOfText (usage.get "duration_seconds")

/-- The billable duration, where it is given; `durationSeconds` else. -/
def billableSeconds : Option ℚ :=
  match usage.get? "billable_duration_seconds" with
  | some value => secondsOf floatOfText value
  | none => durationSeconds floatOfText usage

/-! ## The two modes -/

/-- `_compute_audio_speech_billing`, after the tokens. -/
def speechByCharacters (tokens : List Charge) : Option BillingResult := do
  let characters ← characterCharges floatOfText usage modelInfo
  if billable characters then return billed .character characters (snapshot characters)
  else
    let duration ← durationSeconds floatOfText usage
    let seconds ← secondCharges floatOfText modelInfo duration
    if billable seconds then return billed .second seconds [("duration_seconds", duration)]
    else
      return unpriced "missing_tts_pricing_or_usage"
        (snapshot tokens ++ snapshot characters ++ [("duration_seconds", duration)])

/-- `_compute_audio_speech_billing`. -/
def computeAudioSpeechBilling : Option BillingResult := do
  let tokens ← tokenCharges floatOfText usage modelInfo
  if billable tokens then return billed .token tokens (snapshot tokens)
  else speechByCharacters floatOfText usage modelInfo tokens

/-- The durations that a transcription shows, the billable one only where it differs. -/
def durationSnapshot (raw duration : ℚ) : List (String × ℚ) :=
  ("duration_seconds", if raw = 0 then duration else raw) ::
    if 0 < raw ∧ duration ≠ raw then [("billable_duration_seconds", duration)] else []

/-- `_compute_audio_transcription_billing`, after the tokens. -/
def transcriptionBySeconds (tokens : List Charge) : Option BillingResult := do
  let raw ← durationSeconds floatOfText usage
  let duration ← billableSeconds floatOfText usage
  let seconds ← secondCharges floatOfText modelInfo duration
  if billable seconds then return billed .second seconds (durationSnapshot raw duration)
  else
    return unpriced "missing_stt_pricing_or_usage"
      (snapshot tokens ++ [("duration_seconds", if raw = 0 then duration else raw)])

/-- `_compute_audio_transcription_billing`. -/
def computeAudioTranscriptionBilling : Option BillingResult := do
  let tokens ← inputTokenCharges floatOfText usage modelInfo
  if billable tokens then return billed .token tokens (snapshot tokens)
  else transcriptionBySeconds floatOfText usage modelInfo tokens

inductive AudioMode where
  | speech | transcription
  deriving DecidableEq, Repr

/-- `compute_billing_result` in the audio modes. -/
def computeBillingResult : AudioMode → Option BillingResult
  | .speech => computeAudioSpeechBilling floatOfText usage modelInfo
  | .transcription => computeAudioTranscriptionBilling floatOfText usage modelInfo

end Billing

/-! ## Costs and charges -/

theorem countOf_nonneg {value : JsonValue} {count : ℤ} (h : countOf value = some count) :
    0 ≤ count := by
  unfold countOf at h
  split at h
  · obtain rfl := Option.some.inj h
    exact le_max_left _ _
  · cases h
  · cases h

variable {charges : List Charge}

structure Charge.Nonneg (charge : Charge) : Prop where
  quantity : 0 ≤ charge.quantity
  price : 0 ≤ charge.price

def Charge.Priced (charge : Charge) : Prop := 0 < charge.quantity ∧ 0 < charge.price

theorem Charge.Nonneg.cost_nonneg {charge : Charge} (h : charge.Nonneg) : 0 ≤ charge.cost :=
  mul_nonneg h.quantity h.price

theorem Charge.Nonneg.cost_pos_iff {charge : Charge} (h : charge.Nonneg) :
    0 < charge.cost ↔ charge.Priced := by
  constructor
  · intro hpos
    refine ⟨lt_of_le_of_ne h.quantity fun hzero => ?_, lt_of_le_of_ne h.price fun hzero => ?_⟩
    · rw [Charge.cost, ← hzero, zero_mul] at hpos
      exact lt_irrefl _ hpos
    · rw [Charge.cost, ← hzero, mul_zero] at hpos
      exact lt_irrefl _ hpos
  · intro hpriced
    exact mul_pos hpriced.1 hpriced.2

theorem totalCost_nonneg (h : ∀ charge ∈ charges, charge.Nonneg) : 0 ≤ totalCost charges := by
  apply List.sum_nonneg
  intro cost hcost
  obtain ⟨charge, hcharge, rfl⟩ := List.mem_map.mp hcost
  exact (h charge hcharge).cost_nonneg

/-- The total is positive where one quantity has a price of its own. -/
theorem totalCost_pos_iff (h : ∀ charge ∈ charges, charge.Nonneg) :
    0 < totalCost charges ↔ ∃ charge ∈ charges, charge.Priced := by
  induction charges with
  | nil => simp [totalCost]
  | cons charge charges ih =>
      have hfirst := h charge List.mem_cons_self
      have hrest : ∀ other ∈ charges, other.Nonneg := fun other hother =>
        h other (List.mem_cons_of_mem _ hother)
      have hsum : totalCost (charge :: charges) = charge.cost + totalCost charges := by
        simp [totalCost]
      rw [hsum, List.exists_mem_cons_iff, ← ih hrest, ← hfirst.cost_pos_iff]
      have hcost := hfirst.cost_nonneg
      have htotal := totalCost_nonneg hrest
      constructor
      · intro hpos
        by_contra hnone
        rw [not_or, not_lt, not_lt] at hnone
        linarith [hnone.1, hnone.2]
      · rintro (hpos | hpos)
        · linarith
        · linarith

end AudioBilling
