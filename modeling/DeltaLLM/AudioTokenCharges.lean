import DeltaLLM.AudioUsage

/-! # Audio tokens are charged with the text

The report counts audio tokens among the tokens of the input or the output. They are billed at the
audio price and with all the others at the price of text.
-/
namespace AudioTokenCharges

open AudioBilling AudioUsage JsonValues

variable {floatOfText : String → Option JsonFloat} {usage modelInfo providerUsage : JsonObject}
  {tokens : TokenUsage} {prices : TokenPrices} {result : BillingResult} {mode : AudioMode}

/-! ## The charges of a report -/

theorem tokenPrices_some (h : tokenPrices floatOfText modelInfo = some prices) :
    floatOrZero floatOfText (modelInfo.get "input_cost_per_token") = some prices.input ∧
      floatOrZero floatOfText (modelInfo.get "output_cost_per_token") = some prices.output ∧
      floatOrZero floatOfText (modelInfo.get "input_cost_per_audio_token") =
        some prices.inputAudio ∧
      floatOrZero floatOfText (modelInfo.get "output_cost_per_audio_token") =
        some prices.outputAudio := by
  simp only [tokenPrices, Option.bind_eq_bind, Option.bind_eq_some_iff, Option.pure_def] at h
  obtain ⟨input, hinput, output, houtput, inputAudio, hinputAudio, outputAudio,
    houtputAudio, h⟩ := h
  obtain rfl := Option.some.inj h
  exact ⟨hinput, houtput, hinputAudio, houtputAudio⟩

/-- The three charges that both modes know. -/
def inputCharges (tokens : TokenUsage) (prices : TokenPrices) : List Charge :=
  [⟨"prompt_tokens", tokens.promptTokens, "input_cost_per_token", prices.input⟩,
    ⟨"completion_tokens", tokens.completionTokens, "output_cost_per_token", prices.output⟩,
    ⟨"input_audio_tokens", (tokens.inputAudioTokens.getD 0 : ℤ), "input_cost_per_audio_token",
      prices.inputAudio⟩]

def outputCharge (tokens : TokenUsage) (prices : TokenPrices) : Charge :=
  ⟨"output_audio_tokens", (tokens.outputAudioTokens.getD 0 : ℤ), "output_cost_per_audio_token",
    prices.outputAudio⟩

theorem inputTokenCharges_reads (hreads : ReadsTokens usage tokens)
    (hprices : tokenPrices floatOfText modelInfo = some prices) :
    inputTokenCharges floatOfText usage modelInfo = some (inputCharges tokens prices) := by
  obtain ⟨hinput, houtput, haudio, -⟩ := tokenPrices_some hprices
  simp [inputTokenCharges, countCharge, hreads.prompt, hreads.completion, hreads.inputAudio, hinput,
    houtput, haudio, inputCharges]

theorem tokenCharges_reads (hreads : ReadsTokens usage tokens)
    (hprices : tokenPrices floatOfText modelInfo = some prices) :
    tokenCharges floatOfText usage modelInfo =
      some (inputCharges tokens prices ++ [outputCharge tokens prices]) := by
  have hinput := inputTokenCharges_reads hreads hprices
  obtain ⟨-, -, -, haudio⟩ := tokenPrices_some hprices
  simp [tokenCharges, outputAudioCharge, countCharge, hinput, hreads.outputAudio, haudio,
    outputCharge]

def modeCharges (mode : AudioMode) (tokens : TokenUsage) (prices : TokenPrices) : List Charge :=
  inputCharges tokens prices ++
    match mode with
    | .speech => [outputCharge tokens prices]
    | .transcription => []

theorem speechByCharacters_unit {charges : List Charge}
    (h : speechByCharacters floatOfText usage modelInfo charges = some result) :
    result.billingUnit ≠ some .token := by
  simp only [speechByCharacters, Option.bind_eq_bind, Option.bind_eq_some_iff, Option.pure_def] at h
  obtain ⟨characters, -, h⟩ := h
  split at h
  · obtain rfl := Option.some.inj h
    simp [billed]
  · obtain ⟨duration, -, h⟩ := Option.bind_eq_some_iff.mp h
    obtain ⟨seconds, -, h⟩ := Option.bind_eq_some_iff.mp h
    split at h
    all_goals
      obtain rfl := Option.some.inj h
      simp [billed, unpriced]

theorem transcriptionBySeconds_unit {charges : List Charge}
    (h : transcriptionBySeconds floatOfText usage modelInfo charges = some result) :
    result.billingUnit ≠ some .token := by
  simp only [transcriptionBySeconds, Option.bind_eq_bind, Option.bind_eq_some_iff,
    Option.pure_def] at h
  obtain ⟨raw, -, duration, -, seconds, -, h⟩ := h
  split at h
  all_goals
    obtain rfl := Option.some.inj h
    simp [billed, unpriced]

/-- Tokens are billed where some of them and some price of them is positive, as the sum of the
charges. -/
theorem billed_by_tokens_iff (hreads : ReadsTokens usage tokens)
    (hprices : tokenPrices floatOfText modelInfo = some prices)
    (hresult : computeBillingResult floatOfText usage modelInfo mode = some result) :
    (result.billingUnit = some .token ↔ billable (modeCharges mode tokens prices) = true) ∧
      (result.billingUnit = some .token →
        result.unrounded = totalCost (modeCharges mode tokens prices)) := by
  cases mode with
  | speech =>
      have hcharges := tokenCharges_reads hreads hprices
      simp only [computeBillingResult, computeAudioSpeechBilling, hcharges, Option.bind_eq_bind,
        Option.bind_some, Option.pure_def] at hresult
      simp only [modeCharges]
      split at hresult
      next hbillable =>
        obtain rfl := Option.some.inj hresult
        exact ⟨⟨fun _ => hbillable, fun _ => rfl⟩, fun _ => rfl⟩
      next hbillable =>
        have hunit := speechByCharacters_unit hresult
        exact ⟨⟨fun h => absurd h hunit, fun h => absurd h hbillable⟩, fun h => absurd h hunit⟩
  | transcription =>
      have hcharges := inputTokenCharges_reads hreads hprices
      simp only [computeBillingResult, computeAudioTranscriptionBilling, hcharges,
        Option.bind_eq_bind, Option.bind_some, Option.pure_def] at hresult
      simp only [modeCharges, List.append_nil]
      split at hresult
      next hbillable =>
        obtain rfl := Option.some.inj hresult
        exact ⟨⟨fun _ => hbillable, fun _ => rfl⟩, fun _ => rfl⟩
      next hbillable =>
        have hunit := transcriptionBySeconds_unit hresult
        exact ⟨⟨fun h => absurd h hunit, fun h => absurd h hbillable⟩, fun h => absurd h hunit⟩

/-! ## The report that was normalized -/

/-- How a mode reads the report. -/
def extractOfMode : AudioMode → JsonObject → Option TokenUsage
  | .speech => extractSpeechTokenUsage
  | .transcription => extractTokenUsage

theorem normalizeUsage_reads {response : AudioResponse}
    (husage : normalizeUsage floatOfText response mode = some usage)
    (hprovider : mapping? (response.payload.get "usage") = some providerUsage) :
    ∃ tokens, extractOfMode mode providerUsage = some tokens ∧ ReadsTokens usage tokens := by
  cases mode with
  | speech =>
      simp only [normalizeUsage, normalizeSpeechUsage, tokenFields, hprovider, Option.bind_eq_bind,
        Option.bind_eq_some_iff, Option.map_eq_some_iff, Option.pure_def] at husage
      obtain ⟨fields, ⟨tokens, htokens, rfl⟩, husage⟩ := husage
      obtain rfl := Option.some.inj husage
      exact ⟨tokens, htokens, readsTokens [("input_characters", _)]
        (extractSpeechTokenUsage_some htokens).1 ⟨rfl, rfl, rfl, rfl, rfl⟩
          (speechDuration_noTokenFields floatOfText response.payload)⟩
  | transcription =>
      simp only [normalizeUsage, normalizeTranscriptionUsage, tokenFields, hprovider,
        Option.bind_eq_bind, Option.bind_eq_some_iff, Option.map_eq_some_iff,
        Option.pure_def] at husage
      obtain ⟨fields, ⟨tokens, htokens, rfl⟩, husage⟩ := husage
      obtain rfl := Option.some.inj husage
      exact ⟨tokens, htokens, readsTokens [("file_size_bytes", _)]
        (extractTokenUsage_nonneg htokens) ⟨rfl, rfl, rfl, rfl, rfl⟩
          (transcriptionDuration_noTokenFields floatOfText response.payload response.provider)⟩

/-- The report and the usage that is billed agree, but for the audio tokens of the output. -/
theorem reportedTokens_extract {reported : ReportedTokens} {billedAudio : ℤ}
    (hextract : extractOfMode mode providerUsage = some tokens)
    (hreported : reportedTokens mode providerUsage = some reported)
    (hbilled : billedOutputAudio mode providerUsage = some billedAudio) :
    tokens.promptTokens = reported.input ∧ tokens.completionTokens = reported.output ∧
      tokens.inputAudioTokens.getD 0 = reported.inputAudio ∧
      (mode = .speech → tokens.outputAudioTokens.getD 0 = billedAudio) ∧
      (mode = .transcription → billedAudio = 0) := by
  simp only [reportedTokens, Option.bind_eq_bind, Option.bind_eq_some_iff, Option.pure_def]
    at hreported
  obtain ⟨plain, hplain, outputAudio, -, hreported⟩ := hreported
  obtain rfl := Option.some.inj hreported
  cases mode with
  | speech =>
      obtain ⟨-, other, hother, htokens⟩ := extractSpeechTokenUsage_some hextract
      obtain rfl := Option.some.inj (hplain.symm.trans hother)
      have hextracted : extractSpeechTokenUsage providerUsage = some tokens := hextract
      simp only [billedOutputAudio, hextracted, Option.map_some, Option.some.injEq] at hbilled
      refine ⟨?_, ?_, ?_, fun _ => hbilled, fun h => nomatch h⟩
      all_goals rw [htokens]
  | transcription =>
      obtain rfl := Option.some.inj (hplain.symm.trans hextract)
      exact ⟨rfl, rfl, rfl, (fun h => nomatch h), fun _ => (Option.some.inj hbilled).symm⟩

variable {reported : ReportedTokens} {billedAudio : ℤ}

theorem modeCharges_billable (hinput : tokens.promptTokens = reported.input)
    (houtput : tokens.completionTokens = reported.output)
    (haudio : tokens.inputAudioTokens.getD 0 = reported.inputAudio)
    (hspeech : mode = .speech → tokens.outputAudioTokens.getD 0 = billedAudio) :
    billable (modeCharges mode tokens prices) = true ↔
      SomeTokensAndPrice (tokenProducts mode prices reported billedAudio) := by
  cases mode with
  | speech =>
      simp [billable, modeCharges, inputCharges, outputCharge, SomeTokensAndPrice, tokenProducts,
        hinput, houtput, haudio, hspeech rfl]
  | transcription =>
      simp [billable, modeCharges, inputCharges, SomeTokensAndPrice, tokenProducts, hinput, houtput,
        haudio]

/-- What the charges exceed the price of each token by. -/
theorem modeCharges_totalCost (hinput : tokens.promptTokens = reported.input)
    (houtput : tokens.completionTokens = reported.output)
    (haudio : tokens.inputAudioTokens.getD 0 = reported.inputAudio)
    (hspeech : mode = .speech → tokens.outputAudioTokens.getD 0 = billedAudio)
    (htranscription : mode = .transcription → billedAudio = 0) :
    totalCost (modeCharges mode tokens prices) =
      chargedOnce prices reported + overcharge prices reported billedAudio := by
  cases mode with
  | speech =>
      simp only [totalCost, modeCharges, inputCharges, outputCharge, Charge.cost, hinput, houtput,
        haudio, hspeech rfl, List.cons_append, List.nil_append, List.map_cons, List.map_nil,
        List.sum_cons, List.sum_nil, chargedOnce, overcharge]
      ring
  | transcription =>
      simp only [totalCost, modeCharges, inputCharges, Charge.cost, hinput, houtput, haudio,
        htranscription rfl, List.append_nil, List.map_cons, List.map_nil, List.sum_cons,
        List.sum_nil, chargedOnce, overcharge]
      push_cast
      ring

theorem chargedOnce_onePrice (price : ℚ) :
    chargedOnce ⟨price, price, price, price⟩ reported =
      (reported.input + reported.output) * price := by
  simp only [chargedOnce]
  ring

/-- Each token of the report is charged once if and only if the overcharge is nothing; and where no
tokens are billed, if their own prices come to nothing. -/
theorem audio_tokens_charged_once_iff {response : AudioResponse}
    (husage : normalizeUsage floatOfText response mode = some usage)
    (hprovider : mapping? (response.payload.get "usage") = some providerUsage)
    (hreported : reportedTokens mode providerUsage = some reported)
    (hbilled : billedOutputAudio mode providerUsage = some billedAudio)
    (hprices : tokenPrices floatOfText modelInfo = some prices)
    (hresult : computeBillingResult floatOfText usage modelInfo mode = some result) :
    TokensChargedOnce prices reported result ↔
      if SomeTokensAndPrice (tokenProducts mode prices reported billedAudio) then
        overcharge prices reported billedAudio = 0
      else chargedOnce prices reported = 0 := by
  obtain ⟨tokens, hextract, hreads⟩ := normalizeUsage_reads husage hprovider
  obtain ⟨hinput, houtput, haudio, hspeech, htranscription⟩ :=
    reportedTokens_extract hextract hreported hbilled
  obtain ⟨hunit, hcost⟩ := billed_by_tokens_iff hreads hprices hresult
  rw [modeCharges_billable hinput houtput haudio hspeech] at hunit
  rw [modeCharges_totalCost hinput houtput haudio hspeech htranscription] at hcost
  have honce : TokensChargedOnce prices reported result ↔
      tokenCost result = chargedOnce prices reported := by
    refine ⟨fun h => h.once, fun h => ⟨h, fun price hprice => ?_⟩⟩
    rw [h, hprice, chargedOnce_onePrice]
  rw [honce]
  split_ifs with hbillable
  · rw [tokenCost, if_pos (hunit.mpr hbillable), hcost (hunit.mpr hbillable)]
    constructor
    · intro h
      linarith
    · intro h
      linarith
  · rw [tokenCost, if_neg (mt hunit.mp hbillable)]
    exact eq_comm

/-! ## A transcription whose input is audio -/

def transcribed (details : JsonObject) : AudioResponse :=
  ⟨"", 16, some "openai",
    [("text", .str "hello"),
      ("usage", .dict (("input_tokens", .int 14) :: ("output_tokens", .int 45) :: details))]⟩

def allAudio : JsonObject := [("input_token_details", .dict [("audio_tokens", .int 14)])]

def transcriptionPrices : JsonObject :=
  [("input_cost_per_token", .int 2), ("output_cost_per_token", .int 10),
    ("input_cost_per_audio_token", .int 6)]

def noFloats : String → Option JsonFloat := fun _ => none

/-- The charge of a response, with the report it is made from. -/
def chargeOf (mode : AudioMode) (response : AudioResponse) (modelInfo : JsonObject) :
    Option (ReportedTokens × TokenPrices × BillingResult) := do
  let usage ← normalizeUsage noFloats response mode
  let providerUsage ← mapping? (response.payload.get "usage")
  let reported ← reportedTokens mode providerUsage
  let prices ← tokenPrices noFloats modelInfo
  let result ← computeBillingResult noFloats usage modelInfo mode
  return (reported, prices, result)

theorem audio_tokens_charged_once_iff_text :
    ∃ result, computeBillingResult noFloats
        [("file_size_bytes", .int 16), ("prompt_tokens", .int 14), ("completion_tokens", .int 45)]
          transcriptionPrices .transcription = some result ∧
      (TokensChargedOnce ⟨2, 10, 6, 0⟩ ⟨14, 0, 45, 0⟩ result ↔
        if SomeTokensAndPrice (tokenProducts .transcription ⟨2, 10, 6, 0⟩ ⟨14, 0, 45, 0⟩ 0) then
          overcharge ⟨2, 10, 6, 0⟩ ⟨14, 0, 45, 0⟩ 0 = 0
        else chargedOnce ⟨2, 10, 6, 0⟩ ⟨14, 0, 45, 0⟩ = 0) := by
  have hsome : (computeBillingResult noFloats
      [("file_size_bytes", .int 16), ("prompt_tokens", .int 14), ("completion_tokens", .int 45)]
        transcriptionPrices .transcription).isSome = true := by
    decide +kernel
  obtain ⟨result, hresult⟩ := Option.isSome_iff_exists.mp hsome
  have husage : normalizeUsage noFloats (transcribed []) .transcription = some _ := rfl
  exact ⟨result, hresult,
    audio_tokens_charged_once_iff husage rfl rfl rfl (by decide +kernel) hresult⟩

/-- Fourteen audio tokens, the whole input, are charged at both prices. -/
theorem audio_tokens_charged_twice :
    (chargeOf .transcription (transcribed allAudio) transcriptionPrices).map
        (fun charge => (decide charge.1.AudioIsPart, tokenCost charge.2.2,
          chargedOnce charge.2.1 charge.1)) =
      some (true, 562, 534) := by
  decide +kernel

end AudioTokenCharges
