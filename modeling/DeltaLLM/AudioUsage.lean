import DeltaLLM.AudioBilling

/-! # The usage of an audio response

What a provider reports becomes the usage that is billed. The audio tokens of the report are a part
of its input or output tokens; the billing adds them to these.
-/
namespace AudioUsage

open AudioBilling JsonValues PythonText

/-- `isinstance(value, Mapping)`. -/
def mapping? : JsonValue → Option JsonObject
  | .dict fields => some fields
  | _ => none

structure TokenUsage where
  promptTokens : ℤ
  completionTokens : ℤ
  inputAudioTokens : Option ℤ
  outputAudioTokens : Option ℤ
  deriving DecidableEq, Repr

/-- The audio tokens in the details, else in the usage itself. -/
def audioTokens (providerUsage : JsonObject) (details otherDetails field : String) :
    Option (Option ℤ) :=
  match (mapping? (providerUsage.get details)).or (mapping? (providerUsage.get otherDetails)) with
  | some details => (countOf (details.get "audio_tokens")).map some
  | none =>
      match providerUsage.get field with
      | .null => some none
      | value => (countOf value).map some

/-- `_extract_token_usage`. -/
def extractTokenUsage (providerUsage : JsonObject) : Option TokenUsage := do
  let promptTokens ← countOf (getEither providerUsage "prompt_tokens" "input_tokens")
  let completionTokens ← countOf (getEither providerUsage "completion_tokens" "output_tokens")
  let inputAudioTokens ←
    audioTokens providerUsage "prompt_tokens_details" "input_token_details" "input_audio_tokens"
  let outputAudioTokens ←
    audioTokens providerUsage "completion_tokens_details" "output_token_details"
      "output_audio_tokens"
  return ⟨promptTokens, completionTokens, inputAudioTokens, outputAudioTokens⟩

/-- The audio tokens of a speech: as given, else all tokens of the output. -/
def speechAudioTokens (providerUsage : JsonObject) : JsonValue :=
  match providerUsage.get "output_audio_tokens" with
  | .null => providerUsage.get "output_tokens"
  | value => value

/-- `_extract_speech_token_usage`. -/
def extractSpeechTokenUsage (providerUsage : JsonObject) : Option TokenUsage := do
  let tokens ← extractTokenUsage providerUsage
  match speechAudioTokens providerUsage with
  | .null => return tokens
  | value =>
      let outputAudioTokens ← countOf value
      return { tokens with outputAudioTokens := some outputAudioTokens }

def countField (name : String) : Option ℤ → JsonObject
  | some count => [(name, .int count)]
  | none => []

def TokenUsage.fields (tokens : TokenUsage) : JsonObject :=
  ("prompt_tokens", .int tokens.promptTokens) ::
    ("completion_tokens", .int tokens.completionTokens) ::
      (countField "input_audio_tokens" tokens.inputAudioTokens ++
        countField "output_audio_tokens" tokens.outputAudioTokens)

section Durations

variable (floatOfText : String → Option JsonFloat)

/-- `_first_float`. -/
def firstFloat (values : List JsonValue) : Option JsonFloat :=
  values.findSome? fun value =>
    match value with
    | .str "" => none
    | value => floatOf floatOfText value

/-- `_extract_duration_seconds`. -/
def extractDurationSeconds (response : JsonObject) : Option JsonFloat :=
  let nested (name : String) : Option JsonFloat :=
    (mapping? (response.get name)).bind fun fields =>
      firstFloat floatOfText
        [fields.get "duration", fields.get "duration_seconds", fields.get "seconds"]
  let reported : Option JsonFloat :=
    (mapping? (response.get "usage")).bind fun usage =>
      firstFloat floatOfText
        [usage.get "seconds", usage.get "duration_seconds", usage.get "duration"]
  (firstFloat floatOfText
    [response.get "_billing_duration_seconds", response.get "duration", response.get "seconds"]).or
      (reported.or ((nested "metadata").or (nested "x_groq")))

def isPositive : JsonFloat → Bool
  | .finite q => 0 < q
  | .infinity negative => !negative
  | .nan => false

/-- `_apply_stt_provider_billing_rules`, of a positive duration. -/
def applySttProviderBillingRules (duration : JsonFloat) (provider : Option String) : JsonFloat :=
  let minimum : ℚ := if lower (stripOrEmpty provider) = "groq" then 10 else 0
  match duration with
  | .finite seconds => .finite (max seconds minimum)
  | other => other

def speechDuration (response : JsonObject) : JsonObject :=
  match (extractDurationSeconds floatOfText response).filter isPositive with
  | some duration => [("duration_seconds", .float duration)]
  | none => []

def transcriptionDuration (response : JsonObject) (provider : Option String) : JsonObject :=
  match (extractDurationSeconds floatOfText response).filter isPositive with
  | some duration =>
      let billable := applySttProviderBillingRules duration provider
      ("duration_seconds", .float duration) ::
        if billable = duration then [] else [("billable_duration_seconds", .float billable)]
  | none => []

/-- What a response and its request say about the usage. -/
structure AudioResponse where
  requestText : String
  fileSizeBytes : ℕ
  provider : Option String
  payload : JsonObject

def tokenFields (extract : JsonObject → Option TokenUsage) (response : JsonObject) :
    Option JsonObject :=
  match mapping? (response.get "usage") with
  | some providerUsage => (extract providerUsage).map TokenUsage.fields
  | none => some []

/-- `normalize_transcription_usage`. -/
def normalizeTranscriptionUsage (response : AudioResponse) : Option JsonObject := do
  let tokens ← tokenFields extractTokenUsage response.payload
  return ("file_size_bytes", .int response.fileSizeBytes) ::
    (tokens ++ transcriptionDuration floatOfText response.payload response.provider)

/-- `normalize_speech_usage`. -/
def normalizeSpeechUsage (response : AudioResponse) : Option JsonObject := do
  let tokens ← tokenFields extractSpeechTokenUsage response.payload
  return ("input_characters", .int response.requestText.length) ::
    (tokens ++ speechDuration floatOfText response.payload)

def normalizeUsage (response : AudioResponse) : AudioMode → Option JsonObject
  | .speech => normalizeSpeechUsage floatOfText response
  | .transcription => normalizeTranscriptionUsage floatOfText response

end Durations

/-! ## What the report says -/

/-- The tokens of a report, and how many of them are audio. -/
structure ReportedTokens where
  input : ℤ
  inputAudio : ℤ
  output : ℤ
  outputAudio : ℤ
  deriving DecidableEq, Repr

/-- The output of a speech is audio where the report does not say how much of it is. -/
def reportedOutputAudio (mode : AudioMode) (providerUsage : JsonObject) (tokens : TokenUsage) :
    Option ℤ :=
  match mode, tokens.outputAudioTokens with
  | _, some audio => some audio
  | .speech, none => countOf (providerUsage.get "output_tokens")
  | .transcription, none => some 0

def reportedTokens (mode : AudioMode) (providerUsage : JsonObject) : Option ReportedTokens := do
  let tokens ← extractTokenUsage providerUsage
  let outputAudio ← reportedOutputAudio mode providerUsage tokens
  return ⟨tokens.promptTokens, tokens.inputAudioTokens.getD 0, tokens.completionTokens, outputAudio⟩

def ReportedTokens.AudioIsPart (reported : ReportedTokens) : Prop :=
  reported.inputAudio ≤ reported.input ∧ reported.outputAudio ≤ reported.output

instance (reported : ReportedTokens) : Decidable reported.AudioIsPart :=
  inferInstanceAs (Decidable (_ ∧ _))

structure TokenPrices where
  input : ℚ
  output : ℚ
  inputAudio : ℚ
  outputAudio : ℚ
  deriving DecidableEq, Repr

def tokenPrices (floatOfText : String → Option JsonFloat) (modelInfo : JsonObject) :
    Option TokenPrices := do
  let input ← floatOrZero floatOfText (modelInfo.get "input_cost_per_token")
  let output ← floatOrZero floatOfText (modelInfo.get "output_cost_per_token")
  let inputAudio ← floatOrZero floatOfText (modelInfo.get "input_cost_per_audio_token")
  let outputAudio ← floatOrZero floatOfText (modelInfo.get "output_cost_per_audio_token")
  return ⟨input, output, inputAudio, outputAudio⟩

/-- Each token once: the audio part at the audio price, the rest at the price of text. -/
def chargedOnce (prices : TokenPrices) (reported : ReportedTokens) : ℚ :=
  (reported.input - reported.inputAudio) * prices.input + reported.inputAudio * prices.inputAudio +
    ((reported.output - reported.outputAudio) * prices.output +
      reported.outputAudio * prices.outputAudio)

/-- What the tokens cost: nothing where another unit bills. -/
def tokenCost (result : BillingResult) : ℚ :=
  if result.billingUnit = some .token then result.unrounded else 0

/-- Each token is charged once, and if there is only one price then at this price. -/
structure TokensChargedOnce (prices : TokenPrices) (reported : ReportedTokens)
    (result : BillingResult) : Prop where
  once : tokenCost result = chargedOnce prices reported
  onePrice : ∀ price, prices = ⟨price, price, price, price⟩ →
    tokenCost result = (reported.input + reported.output) * price

/-- The audio tokens of the output that are billed; those of a transcription are not. -/
def billedOutputAudio (mode : AudioMode) (providerUsage : JsonObject) : Option ℤ :=
  match mode with
  | .speech => (extractSpeechTokenUsage providerUsage).map (·.outputAudioTokens.getD 0)
  | .transcription => some 0

/-- The text price of the audio tokens, and the audio price of tokens that are not counted as audio
less that of audio tokens that are not billed as such. -/
def overcharge (prices : TokenPrices) (reported : ReportedTokens) (billedAudio : ℤ) : ℚ :=
  reported.inputAudio * prices.input + reported.outputAudio * prices.output +
    (billedAudio - reported.outputAudio) * prices.outputAudio

/-- Counts and prices that the cost by tokens multiplies. -/
def tokenProducts (mode : AudioMode) (prices : TokenPrices) (reported : ReportedTokens)
    (billedAudio : ℤ) : List (ℤ × ℚ) :=
  [(reported.input, prices.input), (reported.output, prices.output),
    (reported.inputAudio, prices.inputAudio)] ++
      match mode with
      | .speech => [(billedAudio, prices.outputAudio)]
      | .transcription => []

/-- There are some tokens and there is some price of tokens. -/
def SomeTokensAndPrice (products : List (ℤ × ℚ)) : Prop :=
  (∃ product ∈ products, 0 < product.1) ∧ ∃ product ∈ products, 0 < product.2

instance (products : List (ℤ × ℚ)) : Decidable (SomeTokensAndPrice products) :=
  inferInstanceAs (Decidable (_ ∧ _))

/-! ## The usage that is billed -/

theorem get?_append (fields others : JsonObject) (key : String) :
    JsonObject.get? (fields ++ others) key = (fields.get? key).or (others.get? key) := by
  induction fields with
  | nil => rfl
  | cons field fields ih =>
      obtain ⟨name, value⟩ := field
      by_cases hname : name = key
      · simp [JsonObject.get?, hname]
      · simp [JsonObject.get?, hname, ih]

theorem countOf_int {n : ℤ} (h : 0 ≤ n) : countOf (.int n) = some n := by
  by_cases hzero : n = 0
  · subst hzero
    rfl
  · simp [countOf, StreamingCache.orElse, StreamingCache.toInt, JsonValue.truthy, hzero, h]

structure TokenUsage.Nonneg (tokens : TokenUsage) : Prop where
  prompt : 0 ≤ tokens.promptTokens
  completion : 0 ≤ tokens.completionTokens
  inputAudio : 0 ≤ tokens.inputAudioTokens.getD 0
  outputAudio : 0 ≤ tokens.outputAudioTokens.getD 0

theorem audioTokens_nonneg {providerUsage : JsonObject} {details otherDetails field : String}
    {audio : Option ℤ} (h : audioTokens providerUsage details otherDetails field = some audio) :
    0 ≤ audio.getD 0 := by
  unfold audioTokens at h
  split at h
  · obtain ⟨count, hcount, rfl⟩ := Option.map_eq_some_iff.mp h
    exact countOf_nonneg hcount
  · split at h
    · obtain rfl := Option.some.inj h
      exact le_refl _
    · obtain ⟨count, hcount, rfl⟩ := Option.map_eq_some_iff.mp h
      exact countOf_nonneg hcount

theorem extractTokenUsage_nonneg {providerUsage : JsonObject} {tokens : TokenUsage}
    (h : extractTokenUsage providerUsage = some tokens) : tokens.Nonneg := by
  simp only [extractTokenUsage, Option.bind_eq_bind, Option.bind_eq_some_iff, Option.pure_def] at h
  obtain ⟨prompt, hprompt, completion, hcompletion, input, hinput, output, houtput, htokens⟩ := h
  obtain rfl := Option.some.inj htokens
  exact ⟨countOf_nonneg hprompt, countOf_nonneg hcompletion, audioTokens_nonneg hinput,
    audioTokens_nonneg houtput⟩

/-- A speech's report differs from the report in the audio tokens of the output only. -/
theorem extractSpeechTokenUsage_some {providerUsage : JsonObject} {tokens : TokenUsage}
    (h : extractSpeechTokenUsage providerUsage = some tokens) :
    tokens.Nonneg ∧ ∃ plain, extractTokenUsage providerUsage = some plain ∧
      tokens = { plain with outputAudioTokens := tokens.outputAudioTokens } := by
  simp only [extractSpeechTokenUsage, Option.bind_eq_bind, Option.bind_eq_some_iff] at h
  obtain ⟨plain, hplain, h⟩ := h
  have hnonneg := extractTokenUsage_nonneg hplain
  split at h
  · obtain rfl := Option.some.inj h
    exact ⟨hnonneg, plain, hplain, rfl⟩
  · obtain ⟨count, hcount, h⟩ := Option.bind_eq_some_iff.mp h
    obtain rfl := Option.some.inj h
    exact ⟨⟨hnonneg.prompt, hnonneg.completion, hnonneg.inputAudio, countOf_nonneg hcount⟩, plain,
      hplain, rfl⟩

/-- The billing reads the tokens of the report. -/
structure ReadsTokens (usage : JsonObject) (tokens : TokenUsage) : Prop where
  prompt : countOf (usage.get "prompt_tokens") = some tokens.promptTokens
  completion : countOf (usage.get "completion_tokens") = some tokens.completionTokens
  inputAudio : countOf (getEither usage "input_audio_tokens" "audio_tokens") =
    some (tokens.inputAudioTokens.getD 0)
  outputAudio : countOf (usage.get "output_audio_tokens") =
    some (tokens.outputAudioTokens.getD 0)

/-- Nothing before or after the fields of the tokens is one of these. -/
structure NoTokenFields (fields : JsonObject) : Prop where
  prompt : fields.get? "prompt_tokens" = none
  completion : fields.get? "completion_tokens" = none
  inputAudio : fields.get? "input_audio_tokens" = none
  audio : fields.get? "audio_tokens" = none
  outputAudio : fields.get? "output_audio_tokens" = none

theorem readsTokens (front : JsonObject) {back : JsonObject} {tokens : TokenUsage}
    (hnonneg : tokens.Nonneg)
    (hfront : NoTokenFields front) (hback : NoTokenFields back) :
    ReadsTokens (front ++ (tokens.fields ++ back)) tokens := by
  obtain ⟨prompt, completion, input, output⟩ := tokens
  refine ⟨?_, ?_, ?_, ?_⟩
  · simpa [JsonObject.get, get?_append, hfront.prompt, TokenUsage.fields, JsonObject.get?]
      using countOf_int hnonneg.prompt
  · simpa [JsonObject.get, get?_append, hfront.completion, TokenUsage.fields, JsonObject.get?]
      using countOf_int hnonneg.completion
  · cases input with
    | none =>
        cases output <;>
          simp [getEither, JsonObject.get, get?_append, hfront.inputAudio, hfront.audio,
            hback.inputAudio, hback.audio, TokenUsage.fields, countField, JsonObject.get?] <;> rfl
    | some count =>
        simpa [getEither, get?_append, hfront.inputAudio, TokenUsage.fields, countField,
          JsonObject.get?] using countOf_int hnonneg.inputAudio
  · cases output with
    | none =>
        cases input <;>
          simp [JsonObject.get, get?_append, hfront.outputAudio, hback.outputAudio,
            TokenUsage.fields, countField, JsonObject.get?] <;> rfl
    | some count =>
        cases input <;>
          simpa [JsonObject.get, get?_append, hfront.outputAudio, TokenUsage.fields, countField,
            JsonObject.get?] using countOf_int hnonneg.outputAudio

theorem speechDuration_noTokenFields (floatOfText : String → Option JsonFloat)
    (response : JsonObject) : NoTokenFields (speechDuration floatOfText response) := by
  unfold speechDuration
  split <;> exact ⟨rfl, rfl, rfl, rfl, rfl⟩

theorem transcriptionDuration_noTokenFields (floatOfText : String → Option JsonFloat)
    (response : JsonObject) (provider : Option String) :
    NoTokenFields (transcriptionDuration floatOfText response provider) := by
  unfold transcriptionDuration
  split
  · simp only
    split <;> exact ⟨rfl, rfl, rfl, rfl, rfl⟩
  · exact ⟨rfl, rfl, rfl, rfl, rfl⟩

end AudioUsage
