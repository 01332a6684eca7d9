import DeltaLLM.AudioBilling

/-! # Audio usage that has a price

The unit that bills is chosen by some usage and some price in it. Where these belong to different
quantities the unit costs nothing, and the units after it are not looked at.
-/
namespace PricedAudioUsage

open AudioBilling JsonValues

variable (floatOfText : String → Option JsonFloat) (usage modelInfo : JsonObject)

def audioPriceFields : List String :=
  ["input_cost_per_token", "output_cost_per_token", "input_cost_per_audio_token",
    "output_cost_per_audio_token", "input_cost_per_character", "output_cost_per_character",
    "input_cost_per_second", "output_cost_per_second"]

def NonnegPrices : Prop :=
  ∀ field ∈ audioPriceFields, ∀ price ∈ floatOrZero floatOfText (modelInfo.get field), 0 ≤ price

instance : Decidable (NonnegPrices floatOfText modelInfo) :=
  inferInstanceAs (Decidable (∀ field ∈ audioPriceFields,
    ∀ price ∈ floatOrZero floatOfText (modelInfo.get field), 0 ≤ price))

/-- The seconds of a transcription are billable ones. -/
def secondsOfMode : AudioMode → Option ℚ
  | .speech => durationSeconds floatOfText usage
  | .transcription => billableSeconds floatOfText usage

def secondsCharges (mode : AudioMode) : Option (List Charge) := do
  let duration ← secondsOfMode floatOfText usage mode
  secondCharges floatOfText modelInfo duration

/-- Text tokens, audio tokens, characters and seconds, each with its price. -/
def usageCharges (mode : AudioMode) : List Charge :=
  (tokenCharges floatOfText usage modelInfo).getD [] ++
    (characterCharges floatOfText usage modelInfo).getD [] ++
      (secondsCharges floatOfText usage modelInfo mode).getD []

/-- The units of a mode, in the order in which they are tried. -/
def unitCharges : AudioMode → List (List Charge)
  | .speech =>
      [(tokenCharges floatOfText usage modelInfo).getD [],
        (characterCharges floatOfText usage modelInfo).getD [],
        (secondsCharges floatOfText usage modelInfo .speech).getD []]
  | .transcription =>
      [(inputTokenCharges floatOfText usage modelInfo).getD [],
        (secondsCharges floatOfText usage modelInfo .transcription).getD []]

def chosenCharges (mode : AudioMode) : Option (List Charge) :=
  (unitCharges floatOfText usage modelInfo mode).find? billable

def SomePriced (charges : List Charge) : Prop := ∃ charge ∈ charges, charge.Priced

instance (charge : Charge) : Decidable charge.Priced := inferInstanceAs (Decidable (_ ∧ _))

instance (charges : List Charge) : Decidable (SomePriced charges) :=
  inferInstanceAs (Decidable (∃ charge ∈ charges, charge.Priced))

/-! ## The chosen unit bills -/

variable {floatOfText usage modelInfo} {mode : AudioMode} {result : BillingResult}

def costOf (charges : Option (List Charge)) : ℚ := (charges.map totalCost).getD 0

/-- The seconds are tried last: they bill, or nothing does. -/
theorem seconds_unrounded {seconds : List Charge} {details others : List (String × ℚ)}
    {reason : String}
    (h : (if billable seconds = true then some (billed .second seconds details)
      else some (unpriced reason others)) = some result) :
    result.unrounded = costOf ([seconds].find? billable) := by
  rw [List.find?_singleton]
  by_cases hspoken : billable seconds = true
  · rw [if_pos hspoken] at h
    obtain rfl := Option.some.inj h
    simp [hspoken, costOf, billed]
  · rw [if_neg hspoken] at h
    obtain rfl := Option.some.inj h
    simp [hspoken, costOf, unpriced]

theorem speech_unrounded
    (h : computeAudioSpeechBilling floatOfText usage modelInfo = some result) :
    result.unrounded = costOf (chosenCharges floatOfText usage modelInfo .speech) := by
  simp only [computeAudioSpeechBilling, speechByCharacters, Option.bind_eq_bind,
    Option.bind_eq_some_iff, Option.pure_def] at h
  obtain ⟨tokens, htokens, h⟩ := h
  simp only [chosenCharges, unitCharges, htokens, Option.getD_some, List.find?_cons]
  by_cases hbillable : billable tokens = true
  · rw [if_pos hbillable] at h
    obtain rfl := Option.some.inj h
    simp [hbillable, costOf, billed]
  · rw [if_neg hbillable] at h
    obtain ⟨characters, hcharacters, h⟩ := Option.bind_eq_some_iff.mp h
    simp only [hbillable, hcharacters, Option.getD_some]
    by_cases hwritten : billable characters = true
    · rw [if_pos hwritten] at h
      obtain rfl := Option.some.inj h
      simp [hwritten, costOf, billed]
    · rw [if_neg hwritten] at h
      obtain ⟨duration, hduration, h⟩ := Option.bind_eq_some_iff.mp h
      obtain ⟨seconds, hseconds, h⟩ := Option.bind_eq_some_iff.mp h
      have hcharges : secondsCharges floatOfText usage modelInfo .speech = some seconds := by
        simp [secondsCharges, secondsOfMode, hduration, hseconds]
      simp only [hwritten, hcharges, Option.getD_some]
      exact seconds_unrounded h

theorem transcription_unrounded
    (h : computeAudioTranscriptionBilling floatOfText usage modelInfo = some result) :
    result.unrounded = costOf (chosenCharges floatOfText usage modelInfo .transcription) := by
  simp only [computeAudioTranscriptionBilling, transcriptionBySeconds, Option.bind_eq_bind,
    Option.bind_eq_some_iff, Option.pure_def] at h
  obtain ⟨tokens, htokens, h⟩ := h
  simp only [chosenCharges, unitCharges, htokens, Option.getD_some, List.find?_cons]
  by_cases hbillable : billable tokens = true
  · rw [if_pos hbillable] at h
    obtain rfl := Option.some.inj h
    simp [hbillable, costOf, billed]
  · rw [if_neg hbillable] at h
    obtain ⟨raw, -, h⟩ := Option.bind_eq_some_iff.mp h
    obtain ⟨duration, hduration, h⟩ := Option.bind_eq_some_iff.mp h
    obtain ⟨seconds, hseconds, h⟩ := Option.bind_eq_some_iff.mp h
    have hcharges : secondsCharges floatOfText usage modelInfo .transcription = some seconds := by
      simp [secondsCharges, secondsOfMode, hduration, hseconds]
    simp only [hbillable, hcharges, Option.getD_some]
    exact seconds_unrounded h

theorem computeBillingResult_unrounded
    (h : computeBillingResult floatOfText usage modelInfo mode = some result) :
    result.unrounded = costOf (chosenCharges floatOfText usage modelInfo mode) := by
  cases mode with
  | speech => exact speech_unrounded h
  | transcription => exact transcription_unrounded h

/-! ## No charge is negative -/

theorem secondsOf_nonneg {value : JsonValue} {duration : ℚ}
    (h : secondsOf floatOfText value = some duration) : 0 ≤ duration := by
  obtain ⟨seconds, -, rfl⟩ := Option.map_eq_some_iff.mp h
  exact le_max_left _ _

theorem getD_nonneg {charges : Option (List Charge)}
    (h : ∀ list, charges = some list → ∀ charge ∈ list, charge.Nonneg) :
    ∀ charge ∈ charges.getD [], charge.Nonneg := by
  cases charges with
  | none => exact fun charge hcharge => absurd hcharge List.not_mem_nil
  | some list => exact h list rfl

variable (hprices : NonnegPrices floatOfText modelInfo)
include hprices

theorem countCharge_nonneg {usageField priceField : String} {value : JsonValue} {charge : Charge}
    (hfield : priceField ∈ audioPriceFields)
    (h : countCharge floatOfText modelInfo usageField value priceField = some charge) :
    charge.Nonneg := by
  simp only [countCharge, Option.bind_eq_bind, Option.bind_eq_some_iff, Option.pure_def] at h
  obtain ⟨count, hcount, price, hprice, hcharge⟩ := h
  obtain rfl := Option.some.inj hcharge
  exact ⟨Int.cast_nonneg (countOf_nonneg hcount), hprices priceField hfield price hprice⟩

theorem inputTokenCharges_nonneg {charges : List Charge}
    (h : inputTokenCharges floatOfText usage modelInfo = some charges) :
    ∀ charge ∈ charges, charge.Nonneg := by
  simp only [inputTokenCharges, Option.bind_eq_bind, Option.bind_eq_some_iff, Option.pure_def] at h
  obtain ⟨prompt, hprompt, completion, hcompletion, audio, haudio, hcharges⟩ := h
  obtain rfl := Option.some.inj hcharges
  simp only [List.forall_mem_cons, List.not_mem_nil, false_implies, implies_true, and_true]
  exact ⟨countCharge_nonneg hprices (by decide) hprompt,
    countCharge_nonneg hprices (by decide) hcompletion,
      countCharge_nonneg hprices (by decide) haudio⟩

theorem tokenCharges_nonneg {charges : List Charge}
    (h : tokenCharges floatOfText usage modelInfo = some charges) :
    ∀ charge ∈ charges, charge.Nonneg := by
  simp only [tokenCharges, Option.bind_eq_bind, Option.bind_eq_some_iff, Option.pure_def] at h
  obtain ⟨input, hinput, output, houtput, hcharges⟩ := h
  obtain rfl := Option.some.inj hcharges
  intro charge hcharge
  rcases List.mem_append.mp hcharge with hmem | hmem
  · exact inputTokenCharges_nonneg hprices hinput charge hmem
  · obtain rfl := List.mem_singleton.mp hmem
    exact countCharge_nonneg hprices (by decide) houtput

theorem characterCharges_nonneg {charges : List Charge}
    (h : characterCharges floatOfText usage modelInfo = some charges) :
    ∀ charge ∈ charges, charge.Nonneg := by
  simp only [characterCharges, Option.bind_eq_bind, Option.bind_eq_some_iff, Option.pure_def] at h
  obtain ⟨input, hinput, output, houtput, hcharges⟩ := h
  obtain rfl := Option.some.inj hcharges
  simp only [List.forall_mem_cons, List.not_mem_nil, false_implies, implies_true, and_true]
  exact ⟨countCharge_nonneg hprices (by decide) hinput,
    countCharge_nonneg hprices (by decide) houtput⟩

theorem secondsCharges_nonneg {charges : List Charge}
    (h : secondsCharges floatOfText usage modelInfo mode = some charges) :
    ∀ charge ∈ charges, charge.Nonneg := by
  simp only [secondsCharges, secondCharges, Option.bind_eq_bind, Option.bind_eq_some_iff,
    Option.pure_def] at h
  obtain ⟨duration, hduration, input, hinput, output, houtput, hcharges⟩ := h
  obtain rfl := Option.some.inj hcharges
  have hnonneg : 0 ≤ duration := by
    cases mode with
    | speech => exact secondsOf_nonneg hduration
    | transcription =>
        simp only [secondsOfMode, billableSeconds] at hduration
        split at hduration
        · exact secondsOf_nonneg hduration
        · exact secondsOf_nonneg hduration
  simp only [List.forall_mem_cons, List.not_mem_nil, false_implies, implies_true, and_true]
  exact ⟨⟨hnonneg, hprices _ (by decide) input hinput⟩,
    ⟨hnonneg, hprices _ (by decide) output houtput⟩⟩

theorem unitCharges_nonneg {charges : List Charge}
    (h : charges ∈ unitCharges floatOfText usage modelInfo mode) :
    ∀ charge ∈ charges, charge.Nonneg := by
  cases mode with
  | speech =>
      simp only [unitCharges, List.mem_cons, List.not_mem_nil, or_false] at h
      rcases h with rfl | rfl | rfl
      · exact getD_nonneg fun _ => tokenCharges_nonneg hprices
      · exact getD_nonneg fun _ => characterCharges_nonneg hprices
      · exact getD_nonneg fun _ => secondsCharges_nonneg hprices
  | transcription =>
      simp only [unitCharges, List.mem_cons, List.not_mem_nil, or_false] at h
      rcases h with rfl | rfl
      · exact getD_nonneg fun _ => inputTokenCharges_nonneg hprices
      · exact getD_nonneg fun _ => secondsCharges_nonneg hprices

theorem costOf_chosen_pos_iff :
    0 < costOf (chosenCharges floatOfText usage modelInfo mode) ↔
      ∃ charges ∈ chosenCharges floatOfText usage modelInfo mode, SomePriced charges := by
  cases hchosen : chosenCharges floatOfText usage modelInfo mode with
  | none => simp [costOf]
  | some charges =>
      have hmem := List.mem_of_find?_eq_some hchosen
      simpa [costOf, SomePriced] using totalCost_pos_iff (unitCharges_nonneg hprices hmem)

omit hprices

/-- Priced usage costs something if and only if the first unit with some usage and some price has a
quantity with a price of its own. -/
theorem priced_usage_costs_iff (hprices : NonnegPrices floatOfText modelInfo)
    (h : computeBillingResult floatOfText usage modelInfo mode = some result) :
    (SomePriced (usageCharges floatOfText usage modelInfo mode) → 0 < result.unrounded) ↔
      (SomePriced (usageCharges floatOfText usage modelInfo mode) →
        ∃ charges ∈ chosenCharges floatOfText usage modelInfo mode, SomePriced charges) := by
  rw [computeBillingResult_unrounded h, costOf_chosen_pos_iff hprices]

/-! ## Speech with a price for its audio only -/

def noFloats : String → Option JsonFloat := fun _ => none

def spokenText : JsonObject := [("prompt_tokens", .int 10), ("input_characters", .int 100)]

def audioAndCharacterPrices : JsonObject :=
  [("output_cost_per_audio_token", .float (.finite (1 / 2))),
    ("input_cost_per_character", .float (.finite (1 / 500)))]

/-- The tokens have a price too. -/
def allPrices : JsonObject :=
  ("input_cost_per_token", .float (.finite (1 / 4))) :: audioAndCharacterPrices

theorem priced_usage_costs_iff_spoken :
    ∃ result, computeBillingResult noFloats spokenText allPrices .speech = some result ∧
      ((SomePriced (usageCharges noFloats spokenText allPrices .speech) → 0 < result.unrounded) ↔
        (SomePriced (usageCharges noFloats spokenText allPrices .speech) →
          ∃ charges ∈ chosenCharges noFloats spokenText allPrices .speech,
            SomePriced charges)) := by
  have hprices : NonnegPrices noFloats allPrices := by decide +kernel
  have hsome : (computeBillingResult noFloats spokenText allPrices .speech).isSome = true := by
    decide +kernel
  obtain ⟨result, hresult⟩ := Option.isSome_iff_exists.mp hsome
  exact ⟨result, hresult, priced_usage_costs_iff hprices hresult⟩

/-- Ten tokens without a price keep a hundred characters with a price from being billed. -/
theorem priced_usage_free :
    NonnegPrices noFloats audioAndCharacterPrices ∧
      SomePriced (usageCharges noFloats spokenText audioAndCharacterPrices .speech) ∧
      (computeBillingResult noFloats spokenText audioAndCharacterPrices .speech).map
        (fun result => (result.unrounded, result.billingUnit)) = some (0, some .token) := by
  refine ⟨?_, ?_, ?_⟩ <;> decide +kernel

end PricedAudioUsage
