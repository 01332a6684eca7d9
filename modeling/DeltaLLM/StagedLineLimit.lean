import DeltaLLM.BatchStaging

/-! # The line limit of the staging artifact

A record reads back as it was, so an accepted input passes the staging exactly when no record of it
is wider than the limit. The width counts what ASCII output makes of the texts of the request, and
the fields that the record has beside them.
-/
namespace StagedLineLimit

open BatchLineReader
open BatchStaging
open CreateSessions (StagedRequest)
open JsonText
open JsonValues
open JsonWidths
open PythonText
open StreamingCache (Python toInt orElse)

/-! ## Width of a record -/

/-- A field with its comma, its quoted name and its colon. -/
def optionalWidth (label : ℕ) (width : Option ℕ) : ℕ := (width.map (label + ·)).getD 0

/-- The characters of the text of a record: the names of its fields and what stands between them
are 45 characters, and the fields that can be missing bring 20, 26, 24 and 17 more. -/
def recordWidth (svc : Service) (record : StagedRequest) : ℕ :=
  45 + intWidth record.lineNumber + stringWidth record.customId +
    valueWidth (.dict record.requestBody) +
    optionalWidth 20 (record.schedulingModel.map stringWidth) +
    optionalWidth 26 (record.schedulingModelGroup.map stringWidth) +
    optionalWidth 24 (record.estimatedWorkUnits.map fun units : ℕ => intWidth units) +
    optionalWidth 17 (record.notBeforeAt.map fun instant => stringWidth (svc.isoformat instant))

variable {svc : Service} {record : StagedRequest}

theorem fieldWidths_append (fields more : JsonObject) :
    fieldWidths (fields ++ more) = fieldWidths fields ++ fieldWidths more := by
  induction fields with
  | nil => rfl
  | cons field fields ih => rw [List.cons_append, fieldWidths, fieldWidths, ih, List.cons_append]

theorem fieldWidths_optionalField (name : String) (value : Option JsonValue) :
    fieldWidths (optionalField name value) =
      (value.map fun value => stringWidth name + 1 + valueWidth value).toList := by
  cases value <;> rfl

theorem joinedWidth_append_option (widths : List ℕ) (width : Option ℕ) (h : widths ≠ []) :
    joinedWidth (widths ++ width.toList) = joinedWidth widths + optionalWidth 1 width := by
  have hpos := List.length_pos_iff.mpr h
  cases width with
  | none => simp [optionalWidth]
  | some width =>
      simp only [joinedWidth, optionalWidth, Option.toList_some, List.sum_append,
        List.sum_singleton,
        List.length_append, List.length_singleton, Option.map_some, Option.getD_some]
      omega

theorem optionalWidth_named {α : Type} (name : ℕ) (width : α → ℕ) (value : Option α) :
    optionalWidth 1 (value.map fun a => name + 1 + width a) =
      optionalWidth (name + 2) (value.map width) := by
  cases value with
  | none => rfl
  | some a =>
      simp only [optionalWidth, Option.map_some, Option.getD_some]
      omega

theorem valueWidth_toJsonable (svc : Service) (record : StagedRequest) :
    valueWidth (.dict (toJsonable svc record)) = recordWidth svc record := by
  have hnames : stringWidth "line_number" = 13 ∧ stringWidth "custom_id" = 11 ∧
      stringWidth "request_body" = 14 ∧ stringWidth "scheduling_model" = 18 ∧
      stringWidth "scheduling_model_group" = 24 ∧ stringWidth "estimated_work_units" = 22 ∧
      stringWidth "not_before_at" = 15 := by decide
  obtain ⟨h₁, h₂, h₃, h₄, h₅, h₆, h₇⟩ := hnames
  rw [valueWidth, toJsonable]
  simp only [fieldWidths_append, fieldWidths_optionalField]
  rw [joinedWidth_append_option _ _ (by simp [fieldWidths]),
    joinedWidth_append_option _ _ (by simp [fieldWidths]),
    joinedWidth_append_option _ _ (by simp [fieldWidths]),
    joinedWidth_append_option _ _ (by simp [fieldWidths])]
  simp only [h₄, h₅, h₆, h₇, Option.map_map, Function.comp_def, valueWidth, optionalWidth_named,
    Nat.reduceAdd, recordWidth, fieldWidths, joinedWidth, h₁, h₂, h₃, List.sum_cons, List.sum_nil,
    List.length_cons, List.length_nil]
  omega

theorem length_recordText (svc : Service) (record : StagedRequest) :
    (encodeText (recordText svc record)).length = recordWidth svc record := by
  rw [recordText, length_encodeText (printable_valueText _), length_valueText,
    valueWidth_toJsonable]

/-! ## A record reads back as it was -/

/-- What `__post_init__` makes sure of, for a record that may run at once. -/
structure Normalised (record : StagedRequest) : Prop where
  number_pos : 0 < record.lineNumber
  id_stripped : strip record.customId = record.customId
  id_ne : record.customId ≠ ""
  model : ∀ model ∈ record.schedulingModel, strip model = model ∧ model ≠ ""
  group : ∀ group ∈ record.schedulingModelGroup, strip group = group ∧ group ≠ ""
  units : ∀ units ∈ record.estimatedWorkUnits, 1 ≤ units
  notBefore : record.notBeforeAt = none

theorem textOr_str (py : Python) (s : String) : textOr py (.str s) "" = s := by
  by_cases hs : s = ""
  · subst hs
    rfl
  · simp [textOr, orElse, JsonValue.truthy, hs, Python.text]

theorem optionalText_stripped (py : Python) (value : JsonValue) :
    ∀ text ∈ optionalText py value, strip text = text ∧ text ≠ "" := by
  intro text htext
  simp only [optionalText, Option.mem_def, Option.ite_none_left_eq_some, Option.some.injEq] at htext
  obtain ⟨hne, rfl⟩ := htext
  exact ⟨strip_strip _, hne⟩

theorem optionalText_option (py : Python) {text : Option String}
    (h : ∀ s ∈ text, strip s = s ∧ s ≠ "") :
    optionalText py ((text.map JsonValue.str).getD .null) = text := by
  cases text with
  | none => rfl
  | some s =>
      obtain ⟨hstrip, hne⟩ := h s rfl
      simp [optionalText, textOr_str, hstrip, hne]

theorem parseOptionalWorkUnits_pos {value : JsonValue} {parsed : Option ℕ}
    (h : parseOptionalWorkUnits value = .ok parsed) : ∀ units ∈ parsed, 1 ≤ units := by
  intro units hunits
  unfold parseOptionalWorkUnits at h
  split at h
  · cases h
    cases hunits
  · split at h <;> cases h
    cases hunits
    exact Nat.le_max_left 1 _

theorem parseOptionalWorkUnits_option {parsed : Option ℕ} (h : ∀ units ∈ parsed, 1 ≤ units) :
    parseOptionalWorkUnits ((parsed.map fun units : ℕ => JsonValue.int units).getD .null) =
      .ok parsed := by
  cases parsed with
  | none => rfl
  | some units =>
      have hpos := h units rfl
      simpa [parseOptionalWorkUnits, isUnset, toInt] using hpos

theorem stagedRequest_normalised {args : RecordArguments} (hnow : args.notBeforeAt = .null)
    (h : stagedRequest svc args = .ok record) : Normalised record := by
  unfold stagedRequest at h
  split at h
  · cases h
  next hnumber =>
    simp only at h
    split at h
    · cases h
    next hid =>
      split at h
      next requestBody hbody =>
        cases hunits : parseOptionalWorkUnits args.estimatedWorkUnits with
        | error error => simp [hunits, bind, Except.bind] at h
        | ok units =>
            have hpos : 0 < args.lineNumber.toNat := by omega
            have hinstant : parseOptionalDatetime svc args.notBeforeAt = .ok none := by
              rw [hnow]
              rfl
            rw [hunits, hinstant] at h
            have hrecord := Except.ok.inj h
            have hmodel : record.schedulingModel = optionalText svc.py args.schedulingModel := by
              rw [← hrecord]
            have hgroup : record.schedulingModelGroup =
                optionalText svc.py args.schedulingModelGroup := by
              rw [← hrecord]
            constructor
            · rw [← hrecord]
              exact hpos
            · rw [← hrecord]
              exact strip_strip _
            · rw [← hrecord]
              exact hid
            · rw [hmodel]
              exact optionalText_stripped _ _
            · rw [hgroup]
              exact optionalText_stripped _ _
            · rw [← hrecord]
              exact parseOptionalWorkUnits_pos hunits
            · rw [← hrecord]
      · cases h

theorem get_toJsonable (svc : Service) (record : StagedRequest) :
    JsonObject.get (toJsonable svc record) "line_number" = .int record.lineNumber ∧
    JsonObject.get (toJsonable svc record) "custom_id" = .str record.customId ∧
    JsonObject.get (toJsonable svc record) "request_body" = .dict record.requestBody ∧
    JsonObject.get (toJsonable svc record) "scheduling_model" =
      (record.schedulingModel.map JsonValue.str).getD .null ∧
    JsonObject.get (toJsonable svc record) "scheduling_model_group" =
      (record.schedulingModelGroup.map JsonValue.str).getD .null ∧
    JsonObject.get (toJsonable svc record) "estimated_work_units" =
      (record.estimatedWorkUnits.map fun units : ℕ => JsonValue.int units).getD .null ∧
    JsonObject.get (toJsonable svc record) "not_before_at" =
      (record.notBeforeAt.map fun instant => JsonValue.str (svc.isoformat instant)).getD .null := by
  obtain ⟨_, _, _, model, group, units, notBefore⟩ := record
  cases model <;> cases group <;> cases units <;> cases notBefore <;>
    simp [toJsonable, optionalField, JsonObject.get, JsonObject.get?]

theorem stagedRequest_of_normalised (svc : Service) (h : Normalised record) :
    stagedRequest svc
      { lineNumber := record.lineNumber
        customId := .str record.customId
        requestBody := .dict record.requestBody
        schedulingModel := (record.schedulingModel.map JsonValue.str).getD .null
        schedulingModelGroup := (record.schedulingModelGroup.map JsonValue.str).getD .null
        estimatedWorkUnits :=
          (record.estimatedWorkUnits.map fun units : ℕ => JsonValue.int units).getD .null } =
      .ok record := by
  have hpos := h.number_pos
  have hpositive : ¬(record.lineNumber : ℤ) ≤ 0 := by omega
  simp only [stagedRequest, hpositive, textOr_str, h.id_stripped, h.id_ne, if_false,
    parseOptionalWorkUnits_option h.units, optionalText_option svc.py h.model,
    optionalText_option svc.py h.group, parseOptionalDatetime, isUnset, if_true, bind, Except.bind,
    pure, Except.pure, Int.toNat_natCast]
  rw [← h.notBefore]

theorem fromJsonable_toJsonable (svc : Service) (h : Normalised record) :
    fromJsonable svc (.dict (toJsonable svc record)) = .ok record := by
  obtain ⟨hnumber, hid, hbody, hmodel, hgroup, hunits, hnow⟩ := get_toJsonable svc record
  have hpos := h.number_pos
  have hint : toInt (orElse (.int record.lineNumber) (.int 0)) = .value record.lineNumber := by
    have hne : record.lineNumber ≠ 0 := by omega
    simp [orElse, JsonValue.truthy, toInt, hne]
  rw [fromJsonable, fromFields, hnumber, hint]
  simp only [hid, hbody, hmodel, hgroup, hunits, hnow, h.notBefore, textOr_str, Option.map_none,
    Option.getD_none]
  exact stagedRequest_of_normalised svc h

theorem stageParsed_normalised {progress after : Progress} {parsed : ParsedBatchInputLine}
    (h : stageParsed svc progress parsed = .ok (record, after)) : Normalised record := by
  unfold stageParsed at h
  simp only [bind, Except.bind, pure, Except.pure] at h
  split at h
  · cases h
  next item hitem =>
    split at h
    · cases h
    · split at h
      · cases h
      next hunmixed =>
        split at h
        · cases h
        next staged hstaged =>
          have hrecord : staged = record := (Prod.mk.inj (Except.ok.inj h)).1
          rw [hrecord] at hstaged
          exact stagedRequest_normalised rfl hstaged

theorem stageLine_normalised {progress after : Progress} {lineNumber : ℕ} {rawLine : String}
    (h : stageLine svc progress lineNumber rawLine = .ok (some (record, after))) :
    Normalised record := by
  unfold stageLine at h
  cases hparse : parseBatchInputLine svc rawLine lineNumber progress.seenCustomIds with
  | error error => simp [hparse, bind, Except.bind] at h
  | ok parsed =>
      cases parsed with
      | none => simp [hparse, bind, Except.bind, pure, Except.pure] at h
      | some parsed =>
          cases hstaged : stageParsed svc progress parsed with
          | error error =>
              simp [hparse, hstaged, bind, Except.bind, Functor.map, Except.map] at h
          | ok result =>
              simp only [hparse, hstaged, bind, Except.bind, Functor.map, Except.map,
                Except.ok.injEq, Option.some.injEq] at h
              exact stageParsed_normalised (h ▸ hstaged)

theorem stageLines_normalised (progress : Progress) (lineNumber : ℕ) (rawLines : List String) :
    ∀ record ∈ (stageLines svc progress lineNumber rawLines).1, Normalised record := by
  induction rawLines generalizing progress lineNumber with
  | nil => simp [stageLines]
  | cons rawLine rawLines ih =>
      rw [stageLines]
      split
      · simp
      · exact ih progress (lineNumber + 1)
      next staged after hline =>
        intro record hrecord
        rcases List.mem_cons.mp hrecord with rfl | hrecord
        · exact stageLine_normalised hline
        · exact ih after (lineNumber + 1) record hrecord

/-! ## The way through the artifact -/

theorem serialize_ok (h : recordWidth svc record ≤ svc.maxLineBytes) :
    serialize svc record = .ok (recordText svc record) := by
  simp only [serialize, length_recordText]
  exact if_neg (Nat.not_lt.mpr h)

theorem serialize_lineTooLong (h : svc.maxLineBytes < recordWidth svc record) :
    serialize svc record = .error (.lineTooLong record.lineNumber svc.maxLineBytes) := by
  simp only [serialize, length_recordText]
  exact if_pos h

/-- The first record that is too wide ends the stream. -/
theorem mapM_serialize_lineTooLong {records : List StagedRequest}
    (h : ∃ record ∈ records, svc.maxLineBytes < recordWidth svc record) :
    ∃ record ∈ records, svc.maxLineBytes < recordWidth svc record ∧
      records.mapM (serialize svc) =
        .error (.lineTooLong record.lineNumber svc.maxLineBytes) := by
  induction records with
  | nil => simp at h
  | cons record records ih =>
      rw [List.mapM_cons]
      by_cases hwide : svc.maxLineBytes < recordWidth svc record
      · refine ⟨record, List.mem_cons_self, hwide, ?_⟩
        rw [serialize_lineTooLong hwide]
        rfl
      · have hrest : ∃ other ∈ records, svc.maxLineBytes < recordWidth svc other := by
          obtain ⟨other, hother, hlong⟩ := h
          rcases List.mem_cons.mp hother with rfl | hother
          · exact absurd hlong hwide
          · exact ⟨other, hother, hlong⟩
        obtain ⟨other, hother, hlong, herror⟩ := ih hrest
        refine ⟨other, List.mem_cons_of_mem _ hother, hlong, ?_⟩
        rw [serialize_ok (Nat.not_lt.mp hwide), herror]
        rfl

theorem mapM_serialize {records : List StagedRequest}
    (h : ∀ record ∈ records, recordWidth svc record ≤ svc.maxLineBytes) :
    records.mapM (serialize svc) = .ok (records.map (recordText svc)) := by
  induction records with
  | nil => rfl
  | cons record records ih =>
      have hline := serialize_ok (h record List.mem_cons_self)
      have hlines := ih fun other hother => h other (List.mem_cons_of_mem _ hother)
      rw [List.mapM_cons, hline, hlines]
      rfl

/-- A text that starts and ends with a brace. -/
def InBraces (text : String) : Prop := ∃ inner : List Char, text.toList = '{' :: (inner ++ ['}'])

/-- No blank stands around the braces. -/
theorem InBraces.strip_eq {text : String} (h : InBraces text) : strip text = text := by
  obtain ⟨inner, hinner⟩ := h
  have hopening : isSpace '{' = false := rfl
  have hclosing : isSpace '}' = false := rfl
  apply String.toList_injective
  simp [strip, hinner, hopening, hclosing]

theorem InBraces.ne_empty {text : String} (h : InBraces text) : text ≠ "" := by
  rintro rfl
  obtain ⟨inner, hinner⟩ := h
  simp at hinner

theorem inBraces_recordText (svc : Service) (record : StagedRequest) :
    InBraces (recordText svc record) :=
  ⟨[','].intercalate (fieldTexts (toJsonable svc record)), by simp [recordText, valueText]⟩

theorem fitsLine_recordText (h : recordWidth svc record ≤ svc.maxLineBytes) :
    FitsLine (some svc.maxLineBytes) (recordText svc record) := by
  constructor
  · rw [recordText, String.toList_ofList]
    exact newline_notMem_printable (printable_valueText _)
  · intro limit hlimit
    cases hlimit
    rw [length_recordText]
    exact h

/-- `json.loads` gives back what `json.dumps` wrote for these records. -/
def LoadsBack (svc : Service) (records : List StagedRequest) : Prop :=
  ∀ record ∈ records, svc.py.loads (recordText svc record) = some (.dict (toJsonable svc record))

theorem decodeRecords_texts {records : List StagedRequest} (hloads : LoadsBack svc records)
    (hnormal : ∀ record ∈ records, Normalised record) :
    decodeRecords svc (records.map (recordText svc)) = .ok records := by
  induction records with
  | nil => rfl
  | cons record records ih =>
      have hbraces := inBraces_recordText svc record
      have hrest := ih (fun other hother => hloads other (List.mem_cons_of_mem _ hother))
        fun other hother => hnormal other (List.mem_cons_of_mem _ hother)
      rw [List.map_cons, decodeRecords, hbraces.strip_eq]
      simp only [hbraces.ne_empty, if_false, hloads record List.mem_cons_self,
        fromJsonable_toJsonable svc (hnormal record List.mem_cons_self), hrest, bind,
          Except.bind, pure,
        Except.pure]

section Artifact

variable (sha256 : Bytes → String) (key : StorageKey) (store : ArtifactStore)

theorem readArtifact_written {limit : Option ℕ} {chunkSize : ℕ} (hchunk : 0 < chunkSize)
    {lines : List String} (hfits : ∀ line ∈ lines, FitsLine limit line) :
    readArtifact limit chunkSize key.1 (store.put key (contentOf lines)) = some ⟨lines, none⟩ := by
  have hstored : (store.put key (contentOf lines)).files key.1 = some (contentOf lines) := by
    simp [ArtifactStore.put]
  simp only [readArtifact, iterBytes, hstored, Option.map_some]
  rw [iterLines_eq_wholeReading, flatten_readPieces hchunk, wholeReading_contentOf hfits]

/-- The error of the stream is not caught, and nothing is stored. -/
theorem writeRecords_lineTooLong {stream : List StagedRequest × Option StagingError}
    (h : ∃ record ∈ stream.1, svc.maxLineBytes < recordWidth svc record) :
    ∃ record ∈ stream.1, svc.maxLineBytes < recordWidth svc record ∧
      writeRecords sha256 svc key stream store =
        .error (.lineTooLong record.lineNumber svc.maxLineBytes) := by
  obtain ⟨record, hrecord, hwide, herror⟩ := mapM_serialize_lineTooLong h
  refine ⟨record, hrecord, hwide, ?_⟩
  rw [writeRecords, herror]
  rfl

theorem writeRecords_ok {records : List StagedRequest} (hne : records ≠ [])
    (h : ∀ record ∈ records, recordWidth svc record ≤ svc.maxLineBytes) :
    ∃ artifact, artifact.storageKey = key.1 ∧
      writeRecords sha256 svc key (records, none) store =
        .ok (artifact, store.put key (contentOf (records.map (recordText svc)))) := by
  have hlines : records.map (recordText svc) ≠ [] := by simpa using hne
  have hbytes : (contentOf (records.map (recordText svc))).length ≠ 0 := by
    obtain ⟨record, rest, rfl⟩ := List.exists_cons_of_ne_nil hne
    simp [contentOf]
  refine ⟨⟨key.1, (contentOf (records.map (recordText svc))).length,
    sha256 (contentOf (records.map (recordText svc)))⟩, rfl, ?_⟩
  simp only [writeRecords, mapM_serialize h, writeLinesStream_eq sha256 key hlines, bind,
    Except.bind, hbytes, key.2, or_self, if_false, pure, Except.pure]

end Artifact

/-- The lines of an input file that are all within the limit and valid pass the staging and come
back for the promotion exactly when the record of each of them, with the escapes of ASCII output
and the fields a record has beside its request, is no wider than the limit of a line. -/
theorem accepted_input_staged_iff (svc : Service) (sha256 : Bytes → String) (inputKey : String)
    (inputStore : ArtifactStore) (key : StorageKey) (store : ArtifactStore) {reading : Reading}
    {records : List StagedRequest} (hread : readInput svc inputKey inputStore = some reading)
    (haccepted : stagedRecords svc reading = (records, none)) (hne : records ≠ [])
    (hloads : LoadsBack svc records) :
    stageAndRead sha256 svc inputKey inputStore key store = .ok records ↔
      ∀ record ∈ records, recordWidth svc record ≤ svc.maxLineBytes := by
  have hnormal : ∀ record ∈ records, Normalised record := by
    have hall := @stageLines_normalised svc {} 1 reading.lines
    have hrecords : (stagedRecords svc reading).1 = records := by rw [haccepted]
    rwa [← hrecords]
  unfold stageAndRead
  simp only [hread, haccepted]
  constructor
  · intro h
    by_contra hwide
    push Not at hwide
    obtain ⟨record, _, _, herror⟩ :=
      @writeRecords_lineTooLong svc sha256 key store (records, none) hwide
    simp [herror, bind, Except.bind] at h
  · intro hfits
    obtain ⟨artifact, hkey, hwrite⟩ := writeRecords_ok sha256 key store hne hfits
    have hlines : ∀ line ∈ records.map (recordText svc),
        FitsLine (some svc.maxLineBytes) line := by
      intro line hline
      obtain ⟨record, hrecord, rfl⟩ := List.mem_map.mp hline
      exact fitsLine_recordText (hfits record hrecord)
    have hstored := readArtifact_written key store svc.chunkSize_pos hlines
    simp only [hwrite, bind, Except.bind, readRecords, hkey, hstored,
      decodeRecords_texts hloads hnormal, pure, Except.pure]

/-! ## A text that grows when it is escaped -/

def inputFields (text : String) : JsonObject :=
  [("custom_id", .str "a"), ("body", .dict [("model", .str "m"), ("input", .str text)])]

def inputOpening : String := "\"custom_id\":\"a\",\"body\":\x7b\"model\":\"m\",\"input\":\""

def inputLine (text : String) : String := "\x7b" ++ inputOpening ++ text ++ "\"\x7d\x7d"

/-- The body as `EmbeddingRequest` completes it. -/
def stagedBody (text : String) : JsonObject :=
  [("model", .str "m"), ("input", .str text), ("encoding_format", .str "float")]

def sampleRecord (text : String) : StagedRequest :=
  ⟨1, "a", stagedBody text, some "m", some "m", some 1, none⟩

def stagedFields (text : String) : JsonObject :=
  [("line_number", .int 1), ("custom_id", .str "a"), ("request_body", .dict (stagedBody text)),
    ("scheduling_model", .str "m"), ("scheduling_model_group", .str "m"),
    ("estimated_work_units", .int 1)]

def stagedText (text : String) : String := String.ofList (valueText (.dict (stagedFields text)))

/-- The smallest limit that the settings allow. -/
def service (text : String) : Service where
  py :=
    { loads := fun line =>
        if line = stagedText text then some (.dict (stagedFields text))
        else if line = inputLine text then some (.dict (inputFields text)) else none
      reprText := fun _ => "" }
  decodeMessage _ := "Expecting value"
  embeddingRequest body :=
    .ok ⟨body ++ [("encoding_format", .str "float")], "m", none, []⟩
  chatCompletionRequest _ := .error "Field required"
  ensureBatchModelAllowed _ := .ok ()
  modelGroupResolver := none
  estimateRequestWorkUnits _ _ := 1
  fromIsoformat _ := none
  isoformat _ := ""
  endpoint := "/v1/embeddings"
  maxItemsPerBatch := 10000
  maxLineBytes := 1024
  storageChunkSize := 65536
  strictModelHomogeneityEnabled := false
  chunkSize_pos := by decide

theorem inBraces_inputLine (text : String) : InBraces (inputLine text) := by
  have hopening : "\x7b".toList = ['{'] := by decide
  have hclosing : "\"\x7d\x7d".toList = ['"', '}'] ++ ['}'] := by decide
  refine ⟨inputOpening.toList ++ text.toList ++ ['"', '}'], ?_⟩
  simp only [inputLine, String.toList_append, hopening, hclosing, List.append_assoc,
    List.cons_append, List.nil_append]

theorem normalised_item (text : String) :
    Normalised ⟨1, "a", stagedBody text, none, none, none, none⟩ := by
  have hid : strip "a" = "a" ∧ "a" ≠ "" := by decide
  exact ⟨Nat.one_pos, hid.1, hid.2, by simp, by simp, by simp, rfl⟩

theorem normalised_sample (text : String) : Normalised (sampleRecord text) := by
  have hmodel : ∀ model ∈ some "m", strip model = model ∧ model ≠ "" := by
    intro model hmodel
    cases hmodel
    decide
  have hid : strip "a" = "a" ∧ "a" ≠ "" := by decide
  exact ⟨Nat.one_pos, hid.1, hid.2, hmodel, hmodel, by simp [sampleRecord], rfl⟩

theorem parseInputObject_sample (text : String) :
    parseInputObject (service text) "/v1/embeddings" (inputFields text) 1 [] =
      .ok ⟨1, "a", stagedBody text, "m"⟩ := by
  have hmethod : upper (strip (textOr (service text).py .null "POST")) = "POST" := by
    change upper (strip "POST") = "POST"
    decide
  have hid : strip (textOr (service text).py (.str "a") "") = "a" := by
    rw [textOr_str]
    decide
  have hurl : textOr (service text).py .null "/v1/embeddings" = "/v1/embeddings" := rfl
  have hbody : validateBatchRequestBody (service text) "/v1/embeddings"
      [("model", .str "m"), ("input", .str text)] 1 = .ok (stagedBody text, "m") := rfl
  have hallowed : (service text).ensureBatchModelAllowed "m" = .ok () := rfl
  simp [parseInputObject, inputFields, JsonObject.get, JsonObject.get?, hmethod, hid, hurl, hbody,
    hallowed, bind, Except.bind, pure, Except.pure]

theorem stageParsed_sample (text : String) :
    stageParsed (service text) {} ⟨1, "a", stagedBody text, "m"⟩ =
      .ok (sampleRecord text, ⟨["a"], 1, some ("m", some "m")⟩) := by
  have hitem := stagedRequest_of_normalised (service text) (normalised_item text)
  have hrecord := stagedRequest_of_normalised (service text) (normalised_sample text)
  have hgroup : resolveModelGroup (service text) "m" = some "m" := by
    have hstrip : strip "m" = "m" := by decide
    simp [resolveModelGroup, hstrip, service]
  have hitems : ¬(service text).maxItemsPerBatch < 0 + 1 := by
    change ¬10000 < 0 + 1
    decide
  have hunits : (service text).estimateRequestWorkUnits (service text).endpoint (stagedBody text) =
      1 := rfl
  simp only [sampleRecord, Option.map_some, Option.map_none, Option.getD_some, Option.getD_none,
    Nat.cast_one] at hitem hrecord
  simp only [stageParsed, Nat.cast_one, hitem, hgroup, hunits, hrecord, bind, Except.bind, pure,
    Except.pure, hitems, if_false, Option.getD_none, ne_eq, not_true, false_and, Option.map_some,
    Option.getD_some, sampleRecord]

/-- The two texts differ in the name of their first field. -/
theorem inputLine_ne_stagedText (text : String) : inputLine text ≠ stagedText text := by
  intro h
  have hinput : (inputLine text).toList[2]? = some 'c' := by
    have hopening : "\x7b".toList = ['{'] := by decide
    have hname : inputOpening.toList = '"' :: 'c' :: inputOpening.toList.drop 2 := by
      decide +kernel
    rw [inputLine, String.toList_append, String.toList_append, String.toList_append,
      hopening, hname]
    rfl
  have hstaged : (stagedText text).toList[2]? = some 'l' := by
    rw [stagedText, String.toList_ofList]
    rfl
  rw [h, hstaged] at hinput
  exact absurd hinput (by decide)

theorem stagedRecords_sample (text : String) :
    stagedRecords (service text) ⟨[inputLine text], none⟩ = ([sampleRecord text], none) := by
  have hbraces := inBraces_inputLine text
  have hloads : (service text).py.loads (inputLine text) = some (.dict (inputFields text)) := by
    simp [service, inputLine_ne_stagedText]
  have hendpoint : strip (service text).endpoint = "/v1/embeddings" := by
    change strip "/v1/embeddings" = "/v1/embeddings"
    decide +kernel
  have hsupported : "/v1/embeddings" ∈ supportedBatchEndpoints := by decide
  have hparse : parseBatchInputLine (service text) (inputLine text) 1 [] =
      .ok (some ⟨1, "a", stagedBody text, "m"⟩) := by
    simp only [parseBatchInputLine, hendpoint, hsupported, not_true, if_false, hbraces.strip_eq,
      hbraces.ne_empty, hloads, parseInputObject_sample]
    rfl
  simp only [stagedRecords, stageLines, stageLine, hparse, stageParsed_sample, bind, Except.bind,
    Functor.map, Except.map, Option.map_none, Option.or_none]

theorem loadsBack_sample (text : String) : LoadsBack (service text) [sampleRecord text] := by
  intro other hother
  rw [List.mem_singleton.mp hother]
  have htext : recordText (service text) (sampleRecord text) = stagedText text := rfl
  have hfields : toJsonable (service text) (sampleRecord text) = stagedFields text := rfl
  rw [htext, hfields]
  simp only [service, if_true]

/-- The storage with the input file. -/
def inputStore (text : String) : ArtifactStore :=
  emptyStore.put outputKey (contentOf [inputLine text])

theorem encodeText_append (s t : String) : encodeText (s ++ t) = encodeText s ++ encodeText t := by
  rw [encodeText, String.toList_append, List.flatMap_append]
  rfl

theorem length_encodeText_inputLine (text : String) :
    (encodeText (inputLine text)).length = 49 + (encodeText text).length := by
  have hopening : (encodeText ("\x7b" ++ inputOpening)).length = 46 := by decide +kernel
  have hclosing : (encodeText "\"\x7d\x7d").length = 3 := by decide +kernel
  rw [inputLine, encodeText_append, encodeText_append, List.length_append, List.length_append,
    hopening, hclosing]
  omega

theorem recordWidth_sample (text : String) :
    recordWidth (service text) (sampleRecord text) = 174 + stringWidth text := by
  have hwidths : stringWidth "a" = 3 ∧ stringWidth "m" = 3 ∧ stringWidth "model" = 7 ∧
      stringWidth "input" = 7 ∧ stringWidth "encoding_format" = 17 ∧ stringWidth "float" = 7 ∧
      intWidth 1 = 1 := by decide +kernel
  obtain ⟨h₁, h₂, h₃, h₄, h₅, h₆, h₇⟩ := hwidths
  simp only [recordWidth, sampleRecord, stagedBody, valueWidth, fieldWidths, joinedWidth,
    optionalWidth, Option.map_some, Option.map_none, Option.getD_some, Option.getD_none,
    Nat.cast_one, h₁, h₂, h₃, h₄, h₅, h₆, h₇, List.sum_cons, List.sum_nil, List.length_cons,
    List.length_nil]
  omega

theorem readInput_sample {text : String} (hlines : '\n' ∉ text.toList)
    (hfits : (encodeText text).length ≤ 900) :
    readInput (service text) outputKey.1 (inputStore text) = some ⟨[inputLine text], none⟩ := by
  refine readArtifact_written outputKey emptyStore (service text).chunkSize_pos ?_
  intro line hline
  rw [List.mem_singleton.mp hline]
  constructor
  · have hopening : '\n' ∉ ("\x7b" ++ inputOpening).toList := by decide +kernel
    have hclosing : '\n' ∉ "\"\x7d\x7d".toList := by decide +kernel
    rw [inputLine, String.toList_append, String.toList_append, List.mem_append, List.mem_append]
    rintro ((hmem | hmem) | hmem)
    · exact hopening hmem
    · exact hlines hmem
    · exact hclosing hmem
  · intro limit hlimit
    have hlimit' : 1024 = limit := Option.some.inj hlimit
    rw [length_encodeText_inputLine]
    omega

/-- A short text passes. -/
theorem accepted_input_staged_short :
    stageAndRead (fun _ => "") (service "hello") outputKey.1 (inputStore "hello") outputKey
      emptyStore = .ok [sampleRecord "hello"] := by
  have hread := @readInput_sample "hello" (by decide) (by decide)
  have hwidth : ∀ record ∈ [sampleRecord "hello"],
      recordWidth (service "hello") record ≤ (service "hello").maxLineBytes := by
    intro record hrecord
    rw [List.mem_singleton.mp hrecord, recordWidth_sample]
    decide
  exact (accepted_input_staged_iff (service "hello") (fun _ => "") outputKey.1 (inputStore "hello")
    outputKey emptyStore hread (stagedRecords_sample "hello") (List.cons_ne_nil _ _)
    (loadsBack_sample "hello")).mpr hwidth

theorem stageAndRead_wide {text : String} (hlines : '\n' ∉ text.toList)
    (hfits : (encodeText text).length ≤ 900) (hwide : 850 < stringWidth text) :
    stageAndRead (fun _ => "") (service text) outputKey.1 (inputStore text) outputKey emptyStore =
      .error (.lineTooLong 1 1024) := by
  have hlimit : (service text).maxLineBytes = 1024 := rfl
  have hlong : ∃ record ∈ [sampleRecord text],
      (service text).maxLineBytes < recordWidth (service text) record := by
    refine ⟨sampleRecord text, List.mem_singleton_self _, ?_⟩
    rw [recordWidth_sample, hlimit]
    omega
  obtain ⟨record, hrecord, _, herror⟩ := @writeRecords_lineTooLong (service text) (fun _ => "")
    outputKey emptyStore ([sampleRecord text], none) hlong
  rw [List.mem_singleton.mp hrecord] at herror
  have hnumber : (sampleRecord text).lineNumber = 1 := rfl
  simp only [stageAndRead, readInput_sample hlines hfits, stagedRecords_sample, herror, hnumber,
    hlimit, bind, Except.bind]

/-- Characters of two bytes each, which take six when they are escaped. -/
def accented (count : ℕ) : String := String.ofList (List.replicate count 'é')

theorem newline_notMem_accented (count : ℕ) : '\n' ∉ (accented count).toList := by
  rw [accented, String.toList_ofList]
  intro hmem
  exact absurd (List.eq_of_mem_replicate hmem) (by decide)

theorem length_encodeText_accented (count : ℕ) :
    (encodeText (accented count)).length = count * 2 := by
  have hchar : (String.utf8EncodeChar 'é').length = 2 := by decide
  rw [encodeText, accented, String.toList_ofList, List.length_flatMap, List.map_replicate, hchar,
    List.sum_replicate, smul_eq_mul]

theorem stringWidth_accented (count : ℕ) : stringWidth (accented count) = 2 + count * 6 := by
  have hchar : charWidth 'é' = 6 := by decide
  rw [stringWidth, accented, String.toList_ofList, List.map_replicate, hchar, List.sum_replicate,
    smul_eq_mul]

/-- A line of less than 400 bytes is accepted, but its record is longer than 1024 bytes. -/
theorem accented_input_refused :
    ¬∀ (svc : Service) (sha256 : Bytes → String) (inputKey : String) (inputStore : ArtifactStore)
      (key : StorageKey) (store : ArtifactStore) (reading : Reading) (records : List StagedRequest),
      1024 ≤ svc.maxLineBytes → readInput svc inputKey inputStore = some reading →
        stagedRecords svc reading = (records, none) → records ≠ [] → LoadsBack svc records →
          stageAndRead sha256 svc inputKey inputStore key store = .ok records := by
  intro h
  have hlines := newline_notMem_accented 170
  have hfits : (encodeText (accented 170)).length ≤ 900 := by
    rw [length_encodeText_accented]
    decide
  have hwide : 850 < stringWidth (accented 170) := by
    rw [stringWidth_accented]
    decide
  have hpassed := h (service (accented 170)) (fun _ => "") outputKey.1 (inputStore (accented 170))
    outputKey emptyStore _ _ (le_refl 1024) (readInput_sample hlines hfits)
    (stagedRecords_sample (accented 170)) (List.cons_ne_nil _ _) (loadsBack_sample (accented 170))
  rw [stageAndRead_wide hlines hfits hwide] at hpassed
  cases hpassed

end StagedLineLimit
