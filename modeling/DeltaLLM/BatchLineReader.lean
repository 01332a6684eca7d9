import DeltaLLM.BatchArtifacts

/-! # Lines of a stored artifact

The storage hands out an artifact in chunks of bytes. The reader keeps what is left of a line in a
buffer, checks its length as early as it can, and decodes one line after the other.
-/
namespace BatchLineReader

open BatchArtifacts (StoredLines)

abbrev Bytes := List UInt8

def newline : UInt8 := 10

/-- `text.encode("utf-8")`. -/
def encodeText (text : String) : Bytes := text.toList.flatMap String.utf8EncodeChar

/-- `raw.decode("utf-8")`, none where it raises. -/
def decodeBytes (raw : Bytes) : Option String := String.fromUTF8? raw.toByteArray

inductive LineError where
  | tooLong (lineNumber maxLineBytes : ℕ)
  | undecodable (rawLine : Bytes)
  deriving DecidableEq, Repr

/-- The lines a reader yielded, and the error that ended it early. -/
structure Reading where
  lines : List String
  error : Option LineError
  deriving DecidableEq, Repr

structure ReaderState where
  yielded : List String
  lineNumber : ℕ
  buffer : Bytes
  error : Option LineError

/-- `max_line_bytes is not None and len(raw) > max_line_bytes`, as the error it raises. -/
def lengthError (maxLineBytes : Option ℕ) (lineNumber : ℕ) (raw : Bytes) : Option LineError :=
  maxLineBytes.bind fun limit =>
    if limit < raw.length then some (.tooLong lineNumber limit) else none

section Reader

variable (maxLineBytes : Option ℕ)

/-- One pass of the loop over the newlines of the buffer. -/
inductive LinePass where
  | noNewline
  | raised (after : ReaderState)
  | yielded (after : ReaderState)

def linePass (state : ReaderState) : LinePass :=
  match state.buffer.findIdx? (· = newline) with
  | none => .noNewline
  | some index =>
      let rawLine := state.buffer.take index
      match lengthError maxLineBytes state.lineNumber rawLine with
      | some error => .raised { state with error := some error }
      | none =>
          let rest := state.buffer.drop (index + 1)
          match decodeBytes rawLine with
          | none => .raised { state with buffer := rest, error := some (.undecodable rawLine) }
          | some line =>
              .yielded
                { state with
                  yielded := state.yielded ++ [line]
                  lineNumber := state.lineNumber + 1
                  buffer := rest }

/-- The first newline cuts the buffer into a line and what follows it. -/
theorem findNewline_some {buffer : Bytes} {index : ℕ}
    (h : buffer.findIdx? (· = newline) = some index) :
    newline ∉ buffer.take index ∧
      buffer = buffer.take index ++ newline :: buffer.drop (index + 1) := by
  obtain ⟨hlt, hfound, hbefore⟩ := List.findIdx?_eq_some_iff_getElem.mp h
  constructor
  · intro hmem
    obtain ⟨i, hi, hget⟩ := List.mem_iff_getElem.mp hmem
    have hiindex : i < index := by
      rw [List.length_take] at hi
      omega
    have hnot := hbefore i hiindex
    rw [List.getElem_take] at hget
    simp [hget] at hnot
  · have hbyte : buffer[index] = newline := by simpa using hfound
    rw [← hbyte, ← List.drop_eq_getElem_cons hlt, List.take_append_drop]

theorem linePass_noNewline {state : ReaderState}
    (h : linePass maxLineBytes state = .noNewline) : newline ∉ state.buffer := by
  cases hfind : state.buffer.findIdx? (· = newline) with
  | none =>
      intro hmem
      have hnone := List.findIdx?_eq_none_iff.mp hfind newline hmem
      simp at hnone
  | some index =>
      simp only [linePass, hfind] at h
      split at h
      · cases h
      · split at h <;> cases h

theorem linePass_raised {state after : ReaderState}
    (h : linePass maxLineBytes state = .raised after) :
    ∃ line rest error, newline ∉ line ∧ state.buffer = line ++ newline :: rest ∧
      after.yielded = state.yielded ∧ after.error = some error ∧
      (lengthError maxLineBytes state.lineNumber line = some error ∨
        lengthError maxLineBytes state.lineNumber line = none ∧ decodeBytes line = none ∧
          error = .undecodable line) := by
  cases hfind : state.buffer.findIdx? (· = newline) with
  | none => simp [linePass, hfind] at h
  | some index =>
      obtain ⟨hfree, hbuffer⟩ := findNewline_some hfind
      simp only [linePass, hfind] at h
      split at h
      · next error hlong =>
          cases h
          exact ⟨_, _, error, hfree, hbuffer, rfl, rfl, Or.inl hlong⟩
      · next hshort =>
          split at h
          · next hdecode =>
              cases h
              exact ⟨_, _, _, hfree, hbuffer, rfl, rfl, Or.inr ⟨hshort, hdecode, rfl⟩⟩
          · cases h

theorem linePass_yielded {state after : ReaderState}
    (h : linePass maxLineBytes state = .yielded after) :
    ∃ raw line, newline ∉ raw ∧ state.buffer = raw ++ newline :: after.buffer ∧
      lengthError maxLineBytes state.lineNumber raw = none ∧ decodeBytes raw = some line ∧
      after.yielded = state.yielded ++ [line] ∧ after.lineNumber = state.lineNumber + 1 ∧
      after.error = state.error := by
  cases hfind : state.buffer.findIdx? (· = newline) with
  | none => simp [linePass, hfind] at h
  | some index =>
      obtain ⟨hfree, hbuffer⟩ := findNewline_some hfind
      simp only [linePass, hfind] at h
      split at h
      · cases h
      · next hshort =>
          split at h
          · cases h
          · next line hdecode =>
              cases h
              exact ⟨_, line, hfree, hbuffer, hshort, hdecode, rfl, rfl, rfl⟩

/-- The loop over the newlines of the buffer. -/
def takeLines (state : ReaderState) : ReaderState :=
  match _hpass : linePass maxLineBytes state with
  | .noNewline => state
  | .raised after => after
  | .yielded after => takeLines after
termination_by state.buffer.length
decreasing_by
  obtain ⟨raw, line, _, hbuffer, _⟩ := linePass_yielded maxLineBytes _hpass
  rw [hbuffer, List.length_append, List.length_cons]
  omega

/-- Induction over the passes of the loop. -/
theorem takeLines_induction {P : ReaderState → ReaderState → Prop}
    (noNewline : ∀ state, linePass maxLineBytes state = .noNewline → P state state)
    (raised : ∀ state after, linePass maxLineBytes state = .raised after → P state after)
    (yielded : ∀ state after, linePass maxLineBytes state = .yielded after →
      P after (takeLines maxLineBytes after) → P state (takeLines maxLineBytes after))
    (state : ReaderState) : P state (takeLines maxLineBytes state) := by
  induction state using takeLines.induct maxLineBytes with
  | case1 state hpass =>
      rw [takeLines]
      split <;> simp_all
  | case2 state after hpass =>
      rw [takeLines]
      split <;> simp_all
  | case3 state after hpass ih =>
      rw [takeLines]
      split <;> simp_all

/-- The check of an unfinished line. -/
def checkBuffer (state : ReaderState) : ReaderState :=
  if state.error.isSome then state
  else { state with error := lengthError maxLineBytes state.lineNumber state.buffer }

/-- One chunk; nothing is read after an error. -/
def readChunk (state : ReaderState) (chunk : Bytes) : ReaderState :=
  if state.error.isSome then state
  else checkBuffer maxLineBytes
    (takeLines maxLineBytes { state with buffer := state.buffer ++ chunk })

def ReaderState.start : ReaderState := ⟨[], 1, [], none⟩

/-- What follows the last newline is yielded unless it is empty; its length was checked already. -/
def finish (state : ReaderState) : Reading :=
  if state.error.isSome ∨ state.buffer = [] then ⟨state.yielded, state.error⟩
  else
    match decodeBytes state.buffer with
    | none => ⟨state.yielded, some (.undecodable state.buffer)⟩
    | some line => ⟨state.yielded ++ [line], none⟩

/-- `iter_lines` over the chunks of `iter_bytes`. -/
def iterLines (chunks : List Bytes) : Reading :=
  finish (chunks.foldl (readChunk maxLineBytes) .start)

end Reader

section Whole

/-- The lines of a byte string: its pieces between newlines, without an empty last one. -/
def wholeLines (content : Bytes) : List Bytes :=
  let pieces := content.splitOn newline
  if pieces.getLast? = some [] then pieces.dropLast else pieces

/-- Check and decode one line after the other. -/
def checkLines (maxLineBytes : Option ℕ) (lineNumber : ℕ) : List Bytes → Reading
  | [] => ⟨[], none⟩
  | raw :: rest =>
      match lengthError maxLineBytes lineNumber raw with
      | some error => ⟨[], some error⟩
      | none =>
          match decodeBytes raw with
          | none => ⟨[], some (.undecodable raw)⟩
          | some line =>
              let reading := checkLines maxLineBytes (lineNumber + 1) rest
              ⟨line :: reading.lines, reading.error⟩

/-- Reading a byte string as a whole. -/
def wholeReading (maxLineBytes : Option ℕ) (content : Bytes) : Reading :=
  checkLines maxLineBytes 1 (wholeLines content)

variable {line rest : Bytes}

theorem wholeLines_cons (rest : Bytes) (h : newline ∉ line) :
    wholeLines (line ++ newline :: rest) = line :: wholeLines rest := by
  have hne : rest.splitOn newline ≠ [] := List.splitOn_ne_nil _ _
  simp only [wholeLines, List.splitOn_append_cons_self_of_not_mem h,
    List.getLast?_cons_of_ne_nil hne]
  split_ifs
  · rw [List.dropLast_cons_of_ne_nil hne]
  · rfl

theorem wholeLines_nil : wholeLines [] = [] := by
  simp [wholeLines]

theorem wholeLines_last (h : newline ∉ line) :
    wholeLines line = if line = [] then [] else [line] := by
  simp only [wholeLines, List.splitOn_eq_singleton h, List.getLast?_singleton, Option.some.injEq,
    List.dropLast_singleton]

/-- Every byte string is a last line, or a line, a newline and the rest. -/
theorem line_cases (content : Bytes) : newline ∉ content ∨
    ∃ line rest, newline ∉ line ∧ content = line ++ newline :: rest := by
  by_cases hmem : newline ∈ content
  · obtain ⟨line, rest, hcontent, hfree⟩ := List.eq_append_cons_of_mem hmem
    exact Or.inr ⟨line, rest, hfree, hcontent⟩
  · exact Or.inl hmem

end Whole

section Chunks

variable {maxLineBytes : Option ℕ} {state : ReaderState} {line rest : Bytes}

/-- What a reader yields in all when `rest` is still to come: what it has yielded, and then the
lines of its buffer and the rest. -/
def resumed (maxLineBytes : Option ℕ) (state : ReaderState) (rest : Bytes) : Reading :=
  match state.error with
  | some error => ⟨state.yielded, some error⟩
  | none =>
      let reading :=
        checkLines maxLineBytes state.lineNumber (wholeLines (state.buffer ++ rest))
      ⟨state.yielded ++ reading.lines, reading.error⟩

/-- The loop takes lines off the buffer that a whole reading would take next. -/
theorem resumed_takeLines (state : ReaderState) (rest : Bytes) (hrunning : state.error = none) :
    resumed maxLineBytes (takeLines maxLineBytes state) rest =
      resumed maxLineBytes state rest := by
  revert hrunning
  refine takeLines_induction maxLineBytes
    (P := fun state after => state.error = none →
      resumed maxLineBytes after rest = resumed maxLineBytes state rest) ?_ ?_ ?_ state
  · intro state _ _
    rfl
  · intro state after hpass hrunning
    obtain ⟨line, tail, error, hfree, hbuffer, hyielded, herror, hcause⟩ :=
      linePass_raised maxLineBytes hpass
    have hlines := wholeLines_cons (tail ++ rest) hfree
    simp only [resumed, hrunning, herror, hbuffer, List.append_assoc, List.cons_append, hlines,
      checkLines, hyielded]
    rcases hcause with hlong | ⟨hshort, hdecode, rfl⟩
    · simp [hlong]
    · simp [hshort, hdecode]
  · intro state after hpass ih hrunning
    obtain ⟨raw, line, hfree, hbuffer, hshort, hdecode, hyielded, hnumber, herror⟩ :=
      linePass_yielded maxLineBytes hpass
    have hlines := wholeLines_cons (after.buffer ++ rest) hfree
    rw [ih (herror.trans hrunning)]
    simp [resumed, hrunning, herror, hbuffer, hlines, checkLines, hshort, hdecode, hyielded,
      hnumber]

theorem newline_notMem_takeLines (state : ReaderState) :
    (takeLines maxLineBytes state).error = none →
      newline ∉ (takeLines maxLineBytes state).buffer := by
  refine takeLines_induction maxLineBytes
    (P := fun _ after => after.error = none → newline ∉ after.buffer) ?_ ?_ ?_ state
  · intro state hpass _
    exact linePass_noNewline maxLineBytes hpass
  · intro state after hpass hrunning
    obtain ⟨_, _, error, _, _, _, herror, _⟩ := linePass_raised maxLineBytes hpass
    simp [herror] at hrunning
  · intro state after _ ih
    exact ih

/-- A line that is too long stays too long, with the same error. -/
theorem lengthError_append {lineNumber : ℕ} {raw more : Bytes} {error : LineError}
    (h : lengthError maxLineBytes lineNumber raw = some error) :
    lengthError maxLineBytes lineNumber (raw ++ more) = some error := by
  cases maxLineBytes with
  | none => cases h
  | some limit =>
      simp only [lengthError, Option.bind_some, Option.ite_none_right_eq_some] at h ⊢
      refine ⟨?_, h.2⟩
      rw [List.length_append]
      omega

theorem ne_nil_of_lengthError {lineNumber : ℕ} {raw : Bytes} {error : LineError}
    (h : lengthError maxLineBytes lineNumber raw = some error) : raw ≠ [] := by
  rintro rfl
  cases maxLineBytes with
  | none => cases h
  | some limit => simp [lengthError] at h

/-- The early length check raises what the whole line would raise, however it goes on. -/
theorem checkLines_long {lineNumber : ℕ} {raw : Bytes} {error : LineError} (rest : Bytes)
    (hfree : newline ∉ raw) (hlong : lengthError maxLineBytes lineNumber raw = some error) :
    checkLines maxLineBytes lineNumber (wholeLines (raw ++ rest)) = ⟨[], some error⟩ := by
  have hne : raw ++ rest ≠ [] := by simp [ne_nil_of_lengthError hlong]
  rcases line_cases rest with hlast | ⟨line, tail, hline, rfl⟩
  · rw [wholeLines_last (by simp [hfree, hlast]), if_neg hne]
    simp [checkLines, lengthError_append hlong]
  · rw [← List.append_assoc, wholeLines_cons _ (by simp [hfree, hline])]
    simp [checkLines, lengthError_append hlong]

theorem resumed_checkBuffer (rest : Bytes) (hfree : state.error = none → newline ∉ state.buffer) :
    resumed maxLineBytes (checkBuffer maxLineBytes state) rest =
      resumed maxLineBytes state rest := by
  cases hrunning : state.error with
  | some error => simp [checkBuffer, hrunning]
  | none =>
      cases hlong : lengthError maxLineBytes state.lineNumber state.buffer with
      | none => simp [checkBuffer, resumed, hrunning, hlong]
      | some error =>
          simp [checkBuffer, resumed, hrunning, hlong,
            checkLines_long rest (hfree hrunning) hlong]

theorem readChunk_eq (chunk : Bytes) (hrunning : state.error = none) :
    readChunk maxLineBytes state chunk = checkBuffer maxLineBytes
      (takeLines maxLineBytes { state with buffer := state.buffer ++ chunk }) := by
  simp [readChunk, hrunning]

/-- A chunk is read as if it stood before the rest. -/
theorem resumed_readChunk (state : ReaderState) (chunk rest : Bytes) :
    resumed maxLineBytes (readChunk maxLineBytes state chunk) rest =
      resumed maxLineBytes state (chunk ++ rest) := by
  cases hrunning : state.error with
  | some error => simp [readChunk, resumed, hrunning]
  | none =>
      rw [readChunk_eq chunk hrunning, resumed_checkBuffer rest (newline_notMem_takeLines _),
        resumed_takeLines { state with buffer := state.buffer ++ chunk } rest hrunning]
      simp [resumed, hrunning]

theorem resumed_chunks (state : ReaderState) (chunks : List Bytes) (rest : Bytes) :
    resumed maxLineBytes (chunks.foldl (readChunk maxLineBytes) state) rest =
      resumed maxLineBytes state (chunks.flatten ++ rest) := by
  induction chunks generalizing state with
  | nil => rfl
  | cons chunk chunks ih =>
      rw [List.foldl_cons, ih, resumed_readChunk, List.flatten_cons, List.append_assoc]

/-- Between two chunks the buffer is the start of one line that is not too long yet. -/
def Settled (maxLineBytes : Option ℕ) (state : ReaderState) : Prop :=
  state.error = none → newline ∉ state.buffer ∧
    lengthError maxLineBytes state.lineNumber state.buffer = none

theorem settled_start : Settled maxLineBytes .start := by
  intro _
  cases maxLineBytes <;> simp [ReaderState.start, lengthError]

theorem settled_readChunk (chunk : Bytes) :
    Settled maxLineBytes (readChunk maxLineBytes state chunk) := by
  cases hrunning : state.error with
  | some error =>
      intro hnone
      simp [readChunk, hrunning] at hnone
  | none =>
      rw [readChunk_eq chunk hrunning]
      intro hnone
      cases htaken : (takeLines maxLineBytes
          { state with buffer := state.buffer ++ chunk }).error with
      | some error => simp [checkBuffer, htaken] at hnone
      | none =>
          simp only [checkBuffer, htaken, Option.isSome_none, Bool.false_eq_true, if_false]
            at hnone ⊢
          exact ⟨newline_notMem_takeLines _ htaken, hnone⟩

theorem settled_chunks (h : Settled maxLineBytes state) (chunks : List Bytes) :
    Settled maxLineBytes (chunks.foldl (readChunk maxLineBytes) state) := by
  induction chunks generalizing state with
  | nil => exact h
  | cons chunk chunks ih => exact ih (settled_readChunk chunk)

/-- Nothing follows: the buffer is the last line. -/
theorem finish_settled (h : Settled maxLineBytes state) :
    finish state = resumed maxLineBytes state [] := by
  cases hrunning : state.error with
  | some error => simp [finish, resumed, hrunning]
  | none =>
      obtain ⟨hfree, hshort⟩ := h hrunning
      by_cases hempty : state.buffer = []
      · simp [finish, resumed, hrunning, hempty, wholeLines_nil, checkLines]
      · cases hdecode : decodeBytes state.buffer <;>
          simp [finish, resumed, hrunning, hempty, wholeLines_last hfree, checkLines, hshort,
            hdecode]

/-- The reading does not depend on the cuts. -/
theorem iterLines_eq_wholeReading (maxLineBytes : Option ℕ) (chunks : List Bytes) :
    iterLines maxLineBytes chunks = wholeReading maxLineBytes chunks.flatten := by
  rw [iterLines, finish_settled (settled_chunks settled_start chunks), resumed_chunks,
    List.append_nil]
  simp [resumed, ReaderState.start, wholeReading]

end Chunks

section Storage

/-- Stored artifacts by their keys. The empty key names the storage directory, which is no file. -/
structure ArtifactStore where
  files : String → Option Bytes
  noRoot : files "" = none

/-- A key that the storage makes up: purpose, date and file name. -/
abbrev StorageKey := { key : String // key ≠ "" }

def ArtifactStore.put (store : ArtifactStore) (key : StorageKey) (content : Bytes) :
    ArtifactStore :=
  { files := Function.update store.files key.1 (some content)
    noRoot := by rw [Function.update_of_ne (Ne.symm key.2), store.noRoot] }

/-- `write_chunks`: empty chunks are skipped, and without bytes nothing is stored. -/
def writeChunks (sha256 : Bytes → String) (key : StorageKey) (chunks : List Bytes)
    (store : ArtifactStore) : StoredLines × ArtifactStore :=
  let written := chunks.filter fun chunk => chunk ≠ []
  if written = [] then (⟨"", 0, sha256 []⟩, store)
  else (⟨key.1, written.flatten.length, sha256 written.flatten⟩, store.put key written.flatten)

/-- `write_lines_stream`. -/
def writeLinesStream (sha256 : Bytes → String) (key : StorageKey) (lines : List String)
    (store : ArtifactStore) : StoredLines × ArtifactStore :=
  writeChunks sha256 key (lines.map fun line => encodeText (line ++ "\n")) store

/-- `handle.read(chunk_size)` until it gives nothing. -/
def readPieces (chunkSize : ℕ) (content : Bytes) : List Bytes :=
  if _h : chunkSize = 0 ∨ content = [] then []
  else content.take chunkSize :: readPieces chunkSize (content.drop chunkSize)
termination_by content.length
decreasing_by
  have hpos : 0 < content.length := List.length_pos_iff.mpr fun hnil => _h (Or.inr hnil)
  rw [List.length_drop]
  omega

/-- `iter_bytes`, none where opening the file raises. -/
def iterBytes (chunkSize : ℕ) (key : String) (store : ArtifactStore) : Option (List Bytes) :=
  (store.files key).map (readPieces chunkSize)

/-- `iter_lines` of a stored artifact. -/
def readArtifact (maxLineBytes : Option ℕ) (chunkSize : ℕ) (key : String)
    (store : ArtifactStore) : Option Reading :=
  (iterBytes chunkSize key store).map (iterLines maxLineBytes)

theorem flatten_readPieces {chunkSize : ℕ} (h : 0 < chunkSize) (content : Bytes) :
    (readPieces chunkSize content).flatten = content := by
  induction content using readPieces.induct chunkSize with
  | case1 content hend =>
      rw [readPieces, dif_pos hend]
      rcases hend with hzero | rfl
      · omega
      · rfl
  | case2 content hmore ih =>
      rw [readPieces, dif_neg hmore, List.flatten_cons, ih, List.take_append_drop]

@[simp] theorem encodeText_newline (line : String) :
    encodeText (line ++ "\n") = encodeText line ++ [newline] := by
  rw [encodeText, String.toList_append, List.flatMap_append]
  rfl

theorem decodeBytes_encodeText (text : String) : decodeBytes (encodeText text) = some text := by
  have hbytes : (encodeText text).toByteArray = text.toByteArray := by
    rw [← String.utf8Encode_toList]
    rfl
  rw [decodeBytes, hbytes, String.fromUTF8?, dif_pos text.isValidUTF8]
  rfl

/-- Only the newline character has a newline byte in its encoding. -/
theorem newline_notMem_utf8EncodeChar {c : Char} (h : c ≠ '\n') :
    newline ∉ String.utf8EncodeChar c := by
  have hvalue : c.val.toNat ≠ 10 := by
    intro heq
    apply h
    apply Char.ext
    apply UInt32.toNat_inj.mp
    simpa using heq
  have hbyte : ∀ n : ℕ, n < 256 → n ≠ 10 → newline ≠ UInt8.ofNat n := by
    intro n hlt hne heq
    apply hne
    have hnat := congrArg UInt8.toNat heq
    rw [UInt8.toNat_ofNat'] at hnat
    simp only [newline, UInt8.reduceToNat] at hnat
    omega
  simp only [String.utf8EncodeChar]
  split_ifs <;> simp only [List.mem_cons, List.not_mem_nil, or_false, not_or]
  · exact hbyte _ (by omega) hvalue
  · refine ⟨hbyte _ ?_ ?_, hbyte _ ?_ ?_⟩ <;> omega
  · refine ⟨hbyte _ ?_ ?_, hbyte _ ?_ ?_, hbyte _ ?_ ?_⟩ <;> omega
  · refine ⟨hbyte _ ?_ ?_, hbyte _ ?_ ?_, hbyte _ ?_ ?_, hbyte _ ?_ ?_⟩ <;> omega

theorem newline_notMem_encodeText {line : String} (h : '\n' ∉ line.toList) :
    newline ∉ encodeText line := by
  rw [encodeText, List.mem_flatMap]
  rintro ⟨c, hc, hbyte⟩
  refine newline_notMem_utf8EncodeChar ?_ hbyte
  rintro rfl
  exact h hc

/-- A text that one line of an artifact can hold. -/
def FitsLine (maxLineBytes : Option ℕ) (line : String) : Prop :=
  '\n' ∉ line.toList ∧ ∀ limit ∈ maxLineBytes, (encodeText line).length ≤ limit

def contentOf (lines : List String) : Bytes :=
  lines.flatMap fun line => encodeText (line ++ "\n")

theorem wholeLines_contentOf {maxLineBytes : Option ℕ} {lines : List String}
    (h : ∀ line ∈ lines, FitsLine maxLineBytes line) :
    wholeLines (contentOf lines) = lines.map encodeText := by
  induction lines with
  | nil => rfl
  | cons line lines ih =>
      obtain ⟨hfree, _⟩ := h line List.mem_cons_self
      have hrest := ih fun other hother => h other (List.mem_cons_of_mem _ hother)
      rw [contentOf, List.flatMap_cons, encodeText_newline, List.append_assoc,
        List.singleton_append, wholeLines_cons _ (newline_notMem_encodeText hfree), ← contentOf,
        hrest, List.map_cons]

theorem checkLines_encoded {maxLineBytes : Option ℕ} {lines : List String}
    (h : ∀ line ∈ lines, FitsLine maxLineBytes line) (lineNumber : ℕ) :
    checkLines maxLineBytes lineNumber (lines.map encodeText) = ⟨lines, none⟩ := by
  induction lines generalizing lineNumber with
  | nil => rfl
  | cons line lines ih =>
      have hfits := (h line List.mem_cons_self).2
      have hshort : lengthError maxLineBytes lineNumber (encodeText line) = none := by
        cases maxLineBytes with
        | none => rfl
        | some limit => simpa [lengthError] using hfits limit rfl
      have hrest := ih (fun other hother => h other (List.mem_cons_of_mem _ hother))
        (lineNumber + 1)
      simp [checkLines, hshort, decodeBytes_encodeText, hrest]

theorem wholeReading_contentOf {maxLineBytes : Option ℕ} {lines : List String}
    (h : ∀ line ∈ lines, FitsLine maxLineBytes line) :
    wholeReading maxLineBytes (contentOf lines) = ⟨lines, none⟩ := by
  rw [wholeReading, wholeLines_contentOf h, checkLines_encoded h]

/-- Every line is written with its newline, so no line is skipped. -/
theorem writeLinesStream_eq (sha256 : Bytes → String) (key : StorageKey) {lines : List String}
    (hlines : lines ≠ []) (store : ArtifactStore) :
    writeLinesStream sha256 key lines store =
      (⟨key.1, (contentOf lines).length, sha256 (contentOf lines)⟩,
        store.put key (contentOf lines)) := by
  have hwritten : ((lines.map fun line => encodeText (line ++ "\n")).filter
      fun chunk => chunk ≠ []) = lines.map fun line => encodeText (line ++ "\n") := by
    rw [List.filter_eq_self]
    intro chunk hchunk
    obtain ⟨line, _, rfl⟩ := List.mem_map.mp hchunk
    simp
  have hcontent : (lines.map fun line => encodeText (line ++ "\n")).flatten = contentOf lines :=
    (List.flatMap_def ..).symm
  simp only [writeLinesStream, writeChunks, hwritten, List.map_eq_nil_iff, hlines, if_false,
    hcontent]

end Storage

/-- A reader yields the same lines and the same first error for every cutting of a byte string as
for the whole string, and what was written comes back, however the storage cuts it. -/
theorem lines_read_back (maxLineBytes : Option ℕ) :
    (∀ chunks : List Bytes,
      iterLines maxLineBytes chunks = wholeReading maxLineBytes chunks.flatten) ∧
    ∀ (sha256 : Bytes → String) (key : StorageKey) (store : ArtifactStore) (lines : List String),
      lines ≠ [] → (∀ line ∈ lines, FitsLine maxLineBytes line) →
        ∃ content,
          (writeLinesStream sha256 key lines store).2.files
            (writeLinesStream sha256 key lines store).1.storageKey = some content ∧
          (∀ chunks : List Bytes, chunks.flatten = content →
            iterLines maxLineBytes chunks = ⟨lines, none⟩) ∧
          ∀ chunkSize, 0 < chunkSize →
            readArtifact maxLineBytes chunkSize
                (writeLinesStream sha256 key lines store).1.storageKey
                (writeLinesStream sha256 key lines store).2 = some ⟨lines, none⟩ := by
  refine ⟨iterLines_eq_wholeReading maxLineBytes, ?_⟩
  intro sha256 key store lines hlines hfits
  have hread : ∀ chunks : List Bytes, chunks.flatten = contentOf lines →
      iterLines maxLineBytes chunks = ⟨lines, none⟩ := by
    intro chunks hchunks
    rw [iterLines_eq_wholeReading, hchunks, wholeReading_contentOf hfits]
  rw [writeLinesStream_eq sha256 key hlines store]
  have hstored : (store.put key (contentOf lines)).files key.1 = some (contentOf lines) := by
    simp [ArtifactStore.put]
  refine ⟨contentOf lines, hstored, hread, fun chunkSize hpos => ?_⟩
  simp only [readArtifact, iterBytes, hstored, Option.map_some]
  rw [hread _ (flatten_readPieces hpos _)]

def emptyStore : ArtifactStore := ⟨fun _ => none, rfl⟩

def outputKey : StorageKey := ⟨"batch-output/output.jsonl", by decide⟩

theorem lines_read_back_two_lines :
    readArtifact (some 8) 3
        (writeLinesStream (fun _ => "") outputKey ["{}", ""] emptyStore).1.storageKey
        (writeLinesStream (fun _ => "") outputKey ["{}", ""] emptyStore).2 =
      some ⟨["{}", ""], none⟩ := by
  have hfits : ∀ line ∈ ["{}", ""], FitsLine (some 8) line := by
    intro line hline
    simp only [List.mem_cons, List.not_mem_nil, or_false] at hline
    rcases hline with rfl | rfl
    · exact ⟨by decide, by decide⟩
    · exact ⟨by decide, by decide⟩
  obtain ⟨_, _, _, hread⟩ := (lines_read_back (some 8)).2 (fun _ => "") outputKey emptyStore
    ["{}", ""] (by decide) hfits
  exact hread 3 (by decide)

/-- Without lines nothing is stored, so there is nothing to read back. -/
theorem empty_stream_not_read_back :
    ¬∀ (sha256 : Bytes → String) (key : StorageKey) (store : ArtifactStore) (lines : List String),
      (∀ line ∈ lines, FitsLine none line) →
        readArtifact none 65536 (writeLinesStream sha256 key lines store).1.storageKey
          (writeLinesStream sha256 key lines store).2 = some ⟨lines, none⟩ := by
  intro h
  have hread := h (fun _ => "") outputKey emptyStore [] (by simp)
  simp [writeLinesStream, writeChunks, readArtifact, iterBytes, emptyStore] at hread

end BatchLineReader
