import DeltaLLM.BatchArtifactRows
import DeltaLLM.BatchJobStatements
import DeltaLLM.KeysetPagination

/-! # Batch artifacts

Finalization reads the items of a batch twice, page by page, and writes an output file and an
error file. When every item is terminal the two files partition the batch.
-/
namespace BatchArtifacts

open BatchArtifactRows
open BatchJobStatements
open BatchRecords
open CheckedResults
open JsonValues (JsonObject)
open KeysetPagination

/-- A stored stream of lines, as the storage reports it. -/
structure StoredLines where
  storageKey : String
  bytesSize : ℕ
  checksum : String

/-- The columns of a file row. -/
structure BatchFileRow where
  purpose : String
  filename : String
  bytesSize : ℕ
  storageBackend : String
  storageKey : String
  checksum : String
  createdByApiKey : Option String
  createdByUserId : Option String
  createdByTeamId : Option String
  createdByOrganizationId : Option String
  expiresAt : Timestamp

/-- The storage backend and the insert of a file row, which returns the new file id. -/
structure ArtifactServices where
  backendName : String
  writeLinesStream : String → String → List JsonObject → Except String StoredLines
  createFile : BatchFileRow → Option String

structure ArtifactConfig where
  finalizationPageSize : ℕ := 500
  completedArtifactRetentionDays : ℕ := 7
  failedArtifactRetentionDays : ℕ := 14

inductive ArtifactError where
  | validation (error : BatchArtifactValidationError)
  | storage (text : String)
  | recordMissing (text : String)

structure Artifact where
  fileId : String
  file : BatchFileRow
  lines : List JsonObject

structure FinalizedArtifacts where
  output : Option Artifact
  error : Option Artifact
  finalStatus : BatchJobStatus

/-- `timedelta(days=n)`. -/
def days (n : ℕ) : ℕ := seconds (n * 86400)

/-- `max(1, min(limit, 5_000))`. -/
def boundedPageSize (limit : ℕ) : ℕ := max 1 (min limit 5000)

def batchItems (batchId : String) (items : List BatchItemRow) : List BatchItemRow :=
  items.filter fun item => item.batchId = batchId

/-- `_iter_batch_items`: pages of `list_items_page` until one is empty. -/
def iterBatchItems (config : ArtifactConfig) (fuel : ℕ) (batchId : String)
    (items : List BatchItemRow) : Option (List BatchItemRow) :=
  readPages BatchItemRow.lineNumber (boundedPageSize config.finalizationPageSize)
    (batchItems batchId items) fuel none

def Outputs (item : BatchItemRow) : Prop := item.status = .completed

def Errors (item : BatchItemRow) : Prop := item.status = .failed ∨ item.status = .cancelled

instance (item : BatchItemRow) : Decidable (Outputs item) := by
  unfold Outputs
  exact inferInstance

instance (item : BatchItemRow) : Decidable (Errors item) := by
  unfold Errors
  exact inferInstance

/-- `iter_output_lines` over the items it read. -/
def outputLines (endpoint : String) (read : List BatchItemRow) : Validated (List JsonObject) :=
  (read.filter fun item => Outputs item).mapM fun item =>
    serializeCompletedArtifactRow item endpoint

/-- `iter_error_lines` over the items it read. -/
def errorLines (read : List BatchItemRow) : List JsonObject :=
  (read.filter fun item => Errors item).map serializeFailedArtifactRow

def artifactFile (services : ArtifactServices) (purpose filename : String)
    (expiresAt : Timestamp) (job : BatchJobRow) (stored : StoredLines) : BatchFileRow :=
  { purpose, filename, expiresAt, bytesSize := stored.bytesSize,
    storageBackend := services.backendName, storageKey := stored.storageKey,
    checksum := stored.checksum, createdByApiKey := job.createdByApiKey,
    createdByUserId := job.createdByUserId, createdByTeamId := job.createdByTeamId,
    createdByOrganizationId := job.createdByOrganizationId }

/-- One artifact: the stream of its lines and its file row. -/
def writeArtifact (services : ArtifactServices) (purpose filename missing : String)
    (expiresAt : Timestamp) (job : BatchJobRow)
    (lines : Validated (List JsonObject)) : Except ArtifactError Artifact := do
  let lines ← lines.mapError .validation
  let stored ← (services.writeLinesStream purpose filename lines).mapError .storage
  match services.createFile (artifactFile services purpose filename expiresAt job stored) with
  | some fileId =>
      return ⟨fileId, artifactFile services purpose filename expiresAt job stored, lines⟩
  | none => throw (.recordMissing missing)

def outputArtifact (services : ArtifactServices) (config : ArtifactConfig) (now : Timestamp)
    (job : BatchJobRow) (read : List BatchItemRow) : Except ArtifactError Artifact :=
  writeArtifact services "batch_output" s!"{job.batchId}-output.jsonl"
    s!"Failed to create output artifact record for batch {job.batchId}"
    (now + days config.completedArtifactRetentionDays) job (outputLines job.endpoint read)

def errorArtifact (services : ArtifactServices) (config : ArtifactConfig) (now : Timestamp)
    (job : BatchJobRow) (read : List BatchItemRow) : Except ArtifactError Artifact :=
  let retentionDays :=
    if resolveFinalStatus job = .failed ∨ resolveFinalStatus job = .cancelled then
      config.failedArtifactRetentionDays
    else config.completedArtifactRetentionDays
  writeArtifact services "batch_error" s!"{job.batchId}-error.jsonl"
    s!"Failed to create error artifact record for batch {job.batchId}"
    (now + days retentionDays) job (.ok (errorLines read))

def writtenWhen (gate : Prop) [Decidable gate] (artifact : Except ArtifactError Artifact) :
    Except ArtifactError (Option Artifact) :=
  if gate then artifact.map some else .ok none

/-- The two gated writes of `finalize_artifacts`, over what each paging loop read. -/
def writeArtifacts (services : ArtifactServices) (config : ArtifactConfig) (now : Timestamp)
    (job : BatchJobRow) (outputRead errorRead : List BatchItemRow) :
    Except ArtifactError FinalizedArtifacts := do
  let output ← writtenWhen (0 < job.completedItems)
    (outputArtifact services config now job outputRead)
  let error ← writtenWhen (0 < job.failedItems ∨ 0 < job.cancelledItems)
    (errorArtifact services config now job errorRead)
  return ⟨output, error, resolveFinalStatus job⟩

/-- `finalize_artifacts` up to the update of the job row. `none` means that a paging loop ran
out of fuel. -/
def finalizeArtifacts (services : ArtifactServices) (config : ArtifactConfig) (fuel : ℕ)
    (now : Timestamp) (job : BatchJobRow) (items : List BatchItemRow) :
    Option (Except ArtifactError FinalizedArtifacts) := do
  let outputRead ← iterBatchItems config fuel job.batchId items
  let errorRead ← iterBatchItems config fuel job.batchId items
  return writeArtifacts services config now job outputRead errorRead

/-- The lines of an artifact, none when it was not written. -/
def linesOf (artifact : Option Artifact) : List JsonObject :=
  (artifact.map Artifact.lines).getD []

/-- The counters that the refresh into finalizing wrote. -/
def Recounted (job : BatchJobRow) (items : List BatchItemRow) : Prop :=
  job.completedItems = (progressStats job.batchId items).completedItems ∧
    job.failedItems = (progressStats job.batchId items).failedItems ∧
    job.cancelledItems = (progressStats job.batchId items).cancelledItems

theorem recounted_refreshRow (now : Timestamp) (job : BatchJobRow) (items : List BatchItemRow) :
    Recounted (refreshRow now (progressStats job.batchId items) job) items := ⟨rfl, rfl, rfl⟩

section Reading

variable {config : ArtifactConfig} {fuel : ℕ} {job : BatchJobRow} {items : List BatchItemRow}

theorem iterBatchItems_eq (hfuel : (batchItems job.batchId items).length < fuel)
    (hdistinct : ((batchItems job.batchId items).map BatchItemRow.lineNumber).Nodup) :
    iterBatchItems config fuel job.batchId items =
      some (inKeyOrder BatchItemRow.lineNumber (batchItems job.batchId items)) :=
  readPages_eq (le_max_left 1 _) hdistinct hfuel

/-- The items of one kind in line order. -/
def listed (p : BatchItemRow → Prop) [DecidablePred p] (batchId : String)
    (items : List BatchItemRow) : List BatchItemRow :=
  (inKeyOrder BatchItemRow.lineNumber (batchItems batchId items)).filter fun item => p item

variable {p : BatchItemRow → Prop} [DecidablePred p]

theorem perm_listed (batchId : String) :
    (listed p batchId items).Perm ((batchItems batchId items).filter fun item => p item) :=
  perm_inKeyOrder.filter _

theorem mem_listed {item : BatchItemRow} {batchId : String} :
    item ∈ listed p batchId items ↔ item ∈ batchItems batchId items ∧ p item := by
  rw [(perm_listed batchId).mem_iff, List.mem_filter, decide_eq_true_eq]

theorem listed_increasing {batchId : String}
    (hdistinct : ((batchItems batchId items).map BatchItemRow.lineNumber).Nodup) :
    (listed p batchId items).Pairwise fun a b => a.lineNumber < b.lineNumber :=
  (pairwise_inKeyOrder hdistinct).filter _

end Reading

section Counters

variable {job : BatchJobRow} {items : List BatchItemRow}

private theorem counted {status : BatchItemStatus} {item : BatchItemRow}
    (hitem : item ∈ batchItems job.batchId items) (hstatus : item.status = status) :
    0 < (items.filter fun item => item.batchId = job.batchId).countP
      fun item => item.status = status := by
  rw [List.countP_pos_iff]
  exact ⟨item, hitem, by simpa using hstatus⟩

/-- An item to publish makes the counter that gates its artifact positive. -/
theorem completedItems_pos (hcounts : Recounted job items) {item : BatchItemRow}
    (hitem : item ∈ batchItems job.batchId items) (houtput : Outputs item) :
    0 < job.completedItems := by
  rw [hcounts.1]
  exact counted hitem houtput

theorem failedItems_pos (hcounts : Recounted job items) {item : BatchItemRow}
    (hitem : item ∈ batchItems job.batchId items) (herror : Errors item) :
    0 < job.failedItems ∨ 0 < job.cancelledItems := by
  rw [hcounts.2.1, hcounts.2.2]
  rcases herror with hfailed | hcancelled
  · exact Or.inl (counted hitem hfailed)
  · exact Or.inr (counted hitem hcancelled)

end Counters

section Writing

variable {services : ArtifactServices} {config : ArtifactConfig} {now : Timestamp}
  {job : BatchJobRow} {read : List BatchItemRow}

theorem writeArtifact_ok {purpose filename missing : String} {expiresAt : Timestamp}
    {lines : Validated (List JsonObject)} {artifact : Artifact}
    (h : writeArtifact services purpose filename missing expiresAt job lines = .ok artifact) :
    lines = .ok artifact.lines := by
  obtain ⟨written, hlines, hrest⟩ := bind_ok_iff.mp h
  obtain ⟨stored, _, hfile⟩ := bind_ok_iff.mp hrest
  cases lines with
  | error error => cases hlines
  | ok lines =>
      cases hlines
      split at hfile
      · cases hfile
        rfl
      · cases hfile

theorem writtenWhen_ok {gate : Prop} [Decidable gate] {artifact : Except ArtifactError Artifact}
    {written : Option Artifact} (h : writtenWhen gate artifact = .ok written) :
    (∃ a, gate ∧ artifact = .ok a ∧ written = some a) ∨ (¬gate ∧ written = none) := by
  unfold writtenWhen at h
  by_cases hgate : gate
  · rw [if_pos hgate] at h
    cases artifact with
    | error error => cases h
    | ok a =>
        cases h
        exact Or.inl ⟨a, hgate, rfl, rfl⟩
  · rw [if_neg hgate] at h
    cases h
    exact Or.inr ⟨hgate, rfl⟩

/-- The output gate and the output file together list the completed items. -/
theorem output_lines {output : Option Artifact}
    (h : writtenWhen (0 < job.completedItems)
      (outputArtifact services config now job read) = .ok output)
    (hgate : ∀ item ∈ read, Outputs item → 0 < job.completedItems) :
    List.Forall₂ (fun item line => serializeCompletedArtifactRow item job.endpoint = .ok line)
      (read.filter fun item => Outputs item) (linesOf output) := by
  rcases writtenWhen_ok h with ⟨artifact, _, hartifact, rfl⟩ | ⟨hclosed, rfl⟩
  · exact mapM_ok_iff.mp (writeArtifact_ok hartifact)
  · have hnone : (read.filter fun item => Outputs item) = [] := by
      rw [List.filter_eq_nil_iff]
      intro item hitem houtput
      exact hclosed (hgate item hitem (by simpa using houtput))
    rw [hnone]
    exact .nil

theorem error_lines {error : Option Artifact}
    (h : writtenWhen (0 < job.failedItems ∨ 0 < job.cancelledItems)
      (errorArtifact services config now job read) = .ok error)
    (hgate : ∀ item ∈ read, Errors item → 0 < job.failedItems ∨ 0 < job.cancelledItems) :
    linesOf error = errorLines read := by
  rcases writtenWhen_ok h with ⟨artifact, _, hartifact, rfl⟩ | ⟨hclosed, rfl⟩
  · have hlines := writeArtifact_ok hartifact
    exact (Except.ok.inj hlines).symm
  · have hnone : (read.filter fun item => Errors item) = [] := by
      rw [List.filter_eq_nil_iff]
      intro item hitem herror
      exact hclosed (hgate item hitem (by simpa using herror))
    simp [linesOf, errorLines, hnone]

/-- A completed item that the sanitizer refuses stops the whole output file. -/
theorem outputArtifact_refused (services : ArtifactServices) (config : ArtifactConfig)
    (now : Timestamp) {item : BatchItemRow} (hitem : item ∈ read)
    (houtput : Outputs item) (hrefused : ∀ body, publicBody item job.endpoint ≠ .ok body) :
    ∃ error, outputArtifact services config now job read = .error (.validation error) := by
  cases hlines : outputLines job.endpoint read with
  | error error =>
      refine ⟨error, ?_⟩
      unfold outputArtifact writeArtifact
      rw [hlines]
      rfl
  | ok lines =>
      have hmem : item ∈ read.filter fun item => Outputs item := by
        simpa using ⟨hitem, houtput⟩
      obtain ⟨line, hline⟩ := ok_of_mapM_ok hlines hmem
      obtain ⟨body, hbody⟩ := (serializeCompletedArtifactRow_ok hline).1
      exact absurd hbody (hrefused body)

theorem exists_outputLines {endpoint : String}
    (h : ∀ item ∈ read, Outputs item → ∃ body, publicBody item endpoint = .ok body) :
    ∃ lines, outputLines endpoint read = .ok lines := by
  refine exists_mapM_ok fun item hitem => ?_
  obtain ⟨hmem, houtput⟩ := List.mem_filter.mp hitem
  exact exists_serializeCompletedArtifactRow (h item hmem (by simpa using houtput))

/-- The storage takes every stream, and every file row is recorded. -/
structure ServicesWork (services : ArtifactServices) : Prop where
  stores : ∀ purpose filename lines,
    ∃ stored, services.writeLinesStream purpose filename lines = .ok stored
  records : ∀ file, ∃ fileId, services.createFile file = some fileId

theorem exists_writeArtifact (hwork : ServicesWork services) (purpose filename missing : String)
    (expiresAt : Timestamp) {lines : Validated (List JsonObject)}
    (hlines : ∃ written, lines = .ok written) :
    ∃ artifact, writeArtifact services purpose filename missing expiresAt job lines =
      .ok artifact := by
  obtain ⟨written, rfl⟩ := hlines
  obtain ⟨stored, hstored⟩ := hwork.stores purpose filename written
  obtain ⟨fileId, hfile⟩ :=
    hwork.records (artifactFile services purpose filename expiresAt job stored)
  refine ⟨⟨fileId, artifactFile services purpose filename expiresAt job stored, written⟩,
    bind_ok_iff.mpr ⟨written, rfl, bind_ok_iff.mpr ⟨stored, ?_, ?_⟩⟩⟩
  · rw [hstored]
    rfl
  · simp only [hfile]
    rfl

theorem exists_writtenWhen (gate : Prop) [Decidable gate] {artifact : Except ArtifactError Artifact}
    (h : ∃ a, artifact = .ok a) : ∃ written, writtenWhen gate artifact = .ok written := by
  obtain ⟨a, rfl⟩ := h
  by_cases hgate : gate
  · exact ⟨some a, by simp [writtenWhen, hgate, Except.map]⟩
  · exact ⟨none, by simp [writtenWhen, hgate]⟩

end Writing

/-- The status filters of the two files are complementary on terminal items. -/
theorem outputs_xor_errors {item : BatchItemRow} (h : item.status.terminal = true) :
    Xor (Outputs item) (Errors item) := by
  unfold Outputs Errors Xor
  cases hstatus : item.status <;> simp_all [BatchItemStatus.terminal]

/-- A line that stands for an item. -/
def LineFor (item : BatchItemRow) (line : JsonObject) : Prop :=
  line.get "id" = .str (publicBatchRowId item) ∧ line.get "custom_id" = .str item.customId

/-- Each file lists its items once, in line order, and every item is in exactly one file. -/
structure Partitions (batch : List BatchItemRow) (outputLines errorLines : List JsonObject)
    (completed failed : List BatchItemRow) : Prop where
  completedItems : completed.Perm (batch.filter fun item => Outputs item)
  failedItems : failed.Perm (batch.filter fun item => Errors item)
  completedOrder : completed.Pairwise fun a b => a.lineNumber < b.lineNumber
  failedOrder : failed.Pairwise fun a b => a.lineNumber < b.lineNumber
  outputLines : List.Forall₂ LineFor completed outputLines
  errorLines : List.Forall₂ LineFor failed errorLines
  exactlyOne : ∀ item ∈ batch, Xor (item ∈ completed) (item ∈ failed)

/-- Both loops read the batch in line order. -/
theorem finalizeArtifacts_eq (services : ArtifactServices) (config : ArtifactConfig)
    (now : Timestamp) {fuel : ℕ} {job : BatchJobRow} {items : List BatchItemRow}
    (hfuel : (batchItems job.batchId items).length < fuel)
    (hdistinct : ((batchItems job.batchId items).map BatchItemRow.lineNumber).Nodup) :
    finalizeArtifacts services config fuel now job items =
      some (writeArtifacts services config now job
        (inKeyOrder BatchItemRow.lineNumber (batchItems job.batchId items))
        (inKeyOrder BatchItemRow.lineNumber (batchItems job.batchId items))) := by
  simp [finalizeArtifacts, iterBatchItems_eq hfuel hdistinct]

namespace MixedBatch

def embeddingBody : JsonObject :=
  [("object", .str "list"), ("data", .list [.dict [("embedding", .list [])]]),
    ("model", .str "embed-1"),
    ("usage", .dict [("prompt_tokens", .int 3), ("completion_tokens", .int 0),
      ("total_tokens", .int 3)])]

def created (itemId : String) (lineNumber : ℕ) (customId : String) : BatchItemRow :=
  createdItem itemId "batch-1" lineNumber customId [("model", .str "embed-1")] 1

def items : List BatchItemRow :=
  [{ created "item-3" 3 "c" with status := .cancelled },
    { created "item-1" 1 "a" with status := .completed, responseBody := some embeddingBody },
    { created "item-2" 2 "b" with status := .failed, lastError := some "timeout" }]

def job : BatchJobRow :=
  refreshRow 0 (progressStats "batch-1" items)
    { createdJob "batch-1" batchEndpointEmbeddings 0 with status := .inProgress }

def services : ArtifactServices where
  backendName := "local"
  writeLinesStream purpose _ lines := .ok ⟨purpose, lines.length, "sum"⟩
  createFile file := some file.storageKey

/-- Pages of one row. -/
def config : ArtifactConfig := { finalizationPageSize := 1 }

end MixedBatch

open MixedBatch in
example : (finalizeArtifacts services config 4 0 job items).map (fun result =>
    (result.toOption.map fun artifacts =>
      ((linesOf artifacts.output).length, (linesOf artifacts.error).length))) =
    some (some (1, 2)) := by
  decide +kernel

/-- One refused item makes the finalization of its batch fail permanently. -/
theorem finalizeArtifacts_refused (services : ArtifactServices) (config : ArtifactConfig)
    (now : Timestamp) {fuel : ℕ} {job : BatchJobRow} {items : List BatchItemRow}
    (hfuel : (batchItems job.batchId items).length < fuel)
    (hdistinct : ((batchItems job.batchId items).map BatchItemRow.lineNumber).Nodup)
    (hcounts : Recounted job items) {item : BatchItemRow}
    (hitem : item ∈ batchItems job.batchId items) (houtput : Outputs item)
    (hrefused : ∀ body, publicBody item job.endpoint ≠ .ok body) :
    ∃ error, finalizeArtifacts services config fuel now job items =
      some (.error (.validation error)) := by
  have hmem : item ∈ inKeyOrder BatchItemRow.lineNumber (batchItems job.batchId items) :=
    perm_inKeyOrder.mem_iff.mpr hitem
  obtain ⟨error, herror⟩ := outputArtifact_refused services config now hmem houtput hrefused
  have hpos := completedItems_pos hcounts hitem houtput
  refine ⟨error, ?_⟩
  rw [finalizeArtifacts_eq services config now hfuel hdistinct]
  simp only [writeArtifacts, writtenWhen, hpos, if_true, herror]
  rfl

/-- With working services and accepted items the finalization goes through. -/
theorem finalizeArtifacts_succeeds {services : ArtifactServices} (hwork : ServicesWork services)
    (config : ArtifactConfig) (now : Timestamp) {fuel : ℕ} {job : BatchJobRow}
    {items : List BatchItemRow} (hfuel : (batchItems job.batchId items).length < fuel)
    (hdistinct : ((batchItems job.batchId items).map BatchItemRow.lineNumber).Nodup)
    (haccepted : ∀ item ∈ batchItems job.batchId items, Outputs item →
      ∃ body, publicBody item job.endpoint = .ok body) :
    ∃ artifacts, finalizeArtifacts services config fuel now job items = some (.ok artifacts) := by
  have hlines : ∃ lines, outputLines job.endpoint
      (inKeyOrder BatchItemRow.lineNumber (batchItems job.batchId items)) = .ok lines :=
    exists_outputLines fun item hitem => haccepted item (perm_inKeyOrder.mem_iff.mp hitem)
  obtain ⟨output, houtput⟩ := exists_writtenWhen (0 < job.completedItems)
    (exists_writeArtifact hwork _ _ _ _ hlines)
  obtain ⟨error, herror⟩ := exists_writtenWhen (0 < job.failedItems ∨ 0 < job.cancelledItems)
    (exists_writeArtifact hwork _ _ _ _ ⟨_, rfl⟩)
  refine ⟨⟨output, error, resolveFinalStatus job⟩, ?_⟩
  rw [finalizeArtifacts_eq services config now hfuel hdistinct]
  exact congrArg some (bind_ok_iff.mpr ⟨output, houtput, bind_ok_iff.mpr ⟨error, herror, rfl⟩⟩)

end BatchArtifacts
