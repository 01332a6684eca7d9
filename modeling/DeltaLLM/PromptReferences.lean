import DeltaLLM.JsonReading
import DeltaLLM.StreamingCache

/-! # Prompt references

How a request names a prompt, how a reference is read and the key under which its prompt is cached.
Where the text of an integer is none, `str` raises ValueError.
-/
namespace PromptReferences

open JsonValues JsonText JsonReading PythonText
open StreamingCache (Python orElse toInt)

structure PromptReference where
  templateKey : String
  label : Option String
  version : Option ℤ
  promptVariables : Option JsonObject
  deriving Repr

/-! ## What the admin API admits -/

/-- `str(value or "").strip()`. -/
def trimmed (py : Python) (value : JsonValue) : String := strip (py.text (orElse value (.str "")))

def isKeyChar (c : Char) : Bool := c.isAlphanum || c = '.' || c = '_' || c = ':' || c = '-'

/-- `_TEMPLATE_KEY_RE`. -/
def templateKeyMatches (templateKey : String) : Bool :=
  match templateKey.toList with
  | [] => false
  | c :: cs => c.isAlphanum && 1 ≤ cs.length && cs.length ≤ 127 && cs.all isKeyChar

/-- `_validate_template_key`; the error is the detail of a 400. -/
def validateTemplateKey (py : Python) (value : JsonValue) : Except String String :=
  let templateKey := trimmed py value
  if templateKey = "" then .error "template_key is required"
  else if templateKeyMatches templateKey then .ok templateKey
  else .error "template_key must match ^[a-zA-Z0-9][a-zA-Z0-9._:-]\x7b1,127\x7d$"

/-- `_validate_label`. -/
def validateLabel (py : Python) (value : JsonValue) : Except String String :=
  let label := trimmed py value
  if label = "" then .error "label is required" else .ok label

/-! ## Texts of references -/

/-- `str(n)`. -/
def integerText (n : ℤ) : Option String :=
  if (Nat.toDigits 10 n.natAbs).length ≤ 4300 then some (String.ofList (intText n)) else none

def promptCachePrefix : String := "deltallm:prompt:v1"

/-- `label or "production"`. -/
def labelOrProduction (label : Option String) : String :=
  let label := label.getD ""
  if label = "" then "production" else label

/-- `_prompt_cache_key`. -/
def promptCacheKey (templateKey : String) (label : Option String) (version : Option ℤ) :
    Option String :=
  match version with
  | some version => (integerText version).map fun version =>
      promptCachePrefix ++ ":" ++ templateKey ++ ":version:" ++ version
  | none => some (promptCachePrefix ++ ":" ++ templateKey ++ ":label:" ++ labelOrProduction label)

def PromptReference.cacheKey (r : PromptReference) : Option String :=
  promptCacheKey r.templateKey r.label r.version

/-- The string forms `key@version` and `key:label`. -/
def PromptReference.text (r : PromptReference) : Option String :=
  match r.version with
  | some version => (integerText version).map fun version => r.templateKey ++ "@" ++ version
  | none => r.label.map fun label => r.templateKey ++ ":" ++ label

/-! ## Reading references -/

/-- `text.split(mark, 1)` where the mark is in the text. -/
def splitOnce (mark : Char) (text : String) : String × String :=
  let (before, after) := splitAtMark mark text.toList
  (String.ofList before, String.ofList after)

/-- `parse_prompt_reference` on a text. -/
def parseToken (value : String) : Option PromptReference :=
  let token := strip value
  if token = "" then none
  else if '@' ∈ token.toList then
    let (key, rawVersion) := splitOnce '@' token
    if strip key = "" then none
    else some ⟨strip key, none, intOfText (strip rawVersion), none⟩
  else
    let (key, label) := splitOnce ':' token
    if ':' ∈ token.toList ∧ strip key ≠ "" ∧ strip label ≠ "" then
      some ⟨strip key, some (strip label), none, none⟩
    else some ⟨token, none, none, none⟩

/-- The version of an object, none outside where `int` raises OverflowError. -/
def parseVersion : JsonValue → Option (Option ℤ)
  | .null => some none
  | value =>
      match toInt value with
      | .value version => some (some version)
      | .invalid => some none
      | .overflow => none

/-- `parse_prompt_reference`, none outside where it raises. -/
def parsePromptReference (py : Python) : JsonValue → Option (Option PromptReference)
  | .str value => some (parseToken value)
  | .dict fields =>
      let templateKey := trimmed py
        (orElse (JsonObject.get fields "key") (JsonObject.get fields "template_key"))
      if templateKey = "" then some none
      else
        (parseVersion (JsonObject.get fields "version")).map fun version => some {
          templateKey
          label := match JsonObject.get fields "label" with
            | .str label => if strip label = "" then none else some (strip label)
            | _ => none
          version
          promptVariables := match JsonObject.get fields "variables" with
            | .dict values => some values
            | _ => none }
  | _ => some none

/-! ## Admitted references -/

/-- The key and the label are as the admin API stores them. -/
structure Admitted (r : PromptReference) : Prop where
  key : templateKeyMatches r.templateKey = true
  label : ∀ label ∈ r.label, label ≠ "" ∧ strip label = label

theorem isSpace_of_isKeyChar {c : Char} (h : isKeyChar c = true) : isSpace c = false := by
  have hrange : c.toNat = 46 ∨ c.toNat = 95 ∨ c.toNat = 58 ∨ c.toNat = 45 ∨
      (48 ≤ c.toNat ∧ c.toNat ≤ 57) ∨ (65 ≤ c.toNat ∧ c.toNat ≤ 90) ∨
      (97 ≤ c.toNat ∧ c.toNat ≤ 122) := by
    have halphanum : c.isAlphanum =
        ((decide (c.val ≥ 'A'.val ∧ c.val ≤ 'Z'.val) || (c.val ≥ 'a'.val && c.val ≤ 'z'.val)) ||
          (c.val ≥ '0'.val && c.val ≤ '9'.val)) := rfl
    simp only [isKeyChar, halphanum, Bool.or_eq_true, Bool.and_eq_true, decide_eq_true_eq,
      ge_iff_le, UInt32.le_iff_toNat_le] at h
    simp only [Char.toNat_val, Char.reduceToNat] at h
    rcases h with (((h | rfl) | rfl) | rfl) | rfl
    · omega
    all_goals decide
  simp only [isSpace, decide_eq_false_iff_not]
  omega

theorem ne_at_of_isKeyChar {c : Char} (h : isKeyChar c = true) : c ≠ '@' := by
  rintro rfl
  exact absurd h (by decide)

theorem templateKeyMatches_iff {templateKey : String} :
    templateKeyMatches templateKey = true ↔
      ∃ c cs, templateKey.toList = c :: cs ∧ c.isAlphanum = true ∧ 1 ≤ cs.length ∧
        cs.length ≤ 127 ∧ ∀ c ∈ cs, isKeyChar c = true := by
  unfold templateKeyMatches
  cases templateKey.toList with
  | nil => simp
  | cons c cs => simp [and_assoc]

section Keys

variable {templateKey : String} (h : templateKeyMatches templateKey = true)
include h

theorem keyChars : ∀ c ∈ templateKey.toList, isKeyChar c = true := by
  obtain ⟨c, cs, hkey, hfirst, -, -, hrest⟩ := templateKeyMatches_iff.mp h
  rw [hkey]
  intro c' hc'
  rcases List.mem_cons.mp hc' with rfl | hc'
  · simp [isKeyChar, hfirst]
  · exact hrest c' hc'

theorem strip_key : strip templateKey = templateKey :=
  strip_of_no_space fun c hc => isSpace_of_isKeyChar (keyChars h c hc)

theorem key_ne_empty : templateKey ≠ "" := by
  rintro rfl
  cases h

theorem at_notMem_key : '@' ∉ templateKey.toList :=
  fun hc => ne_at_of_isKeyChar (keyChars h _ hc) rfl

end Keys

/-- What the two checks let through is what they let through unchanged. -/
theorem validateTemplateKey_ok_iff (py : Python) {templateKey : String} :
    (∃ value, validateTemplateKey py value = .ok templateKey) ↔
      templateKeyMatches templateKey = true := by
  constructor
  · rintro ⟨value, h⟩
    unfold validateTemplateKey at h
    dsimp only at h
    split at h
    · cases h
    · split at h
      next hmatches =>
        cases h
        exact hmatches
      · cases h
  · intro h
    refine ⟨.str templateKey, ?_⟩
    have htrimmed : trimmed py (.str templateKey) = templateKey := by
      simp [trimmed, orElse, JsonValue.truthy, key_ne_empty h, Python.text, strip_key h]
    simp only [validateTemplateKey, htrimmed, key_ne_empty h, if_false, h, if_true]

theorem validateLabel_ok_iff (py : Python) {label : String} :
    (∃ value, validateLabel py value = .ok label) ↔ label ≠ "" ∧ strip label = label := by
  constructor
  · rintro ⟨value, h⟩
    unfold validateLabel at h
    dsimp only at h
    split at h
    · cases h
    next hne =>
      cases h
      exact ⟨hne, strip_strip _⟩
  · rintro ⟨hne, hstrip⟩
    refine ⟨.str label, ?_⟩
    have htrimmed : trimmed py (.str label) = label := by
      simp [trimmed, orElse, JsonValue.truthy, hne, Python.text, hstrip]
    simp only [validateLabel, htrimmed, hne, if_false]

/-! ## Integers are read back -/

theorem digitValue_isDigit {c : Char} (h : c.isDigit = true) :
    digitValue c = some (c.toNat - 48) := by
  have hrange : 48 ≤ c.toNat ∧ c.toNat < 58 := by
    simp only [Char.isDigit, Bool.and_eq_true, decide_eq_true_eq, ge_iff_le,
      UInt32.le_iff_toNat_le, Char.toNat_val, Char.reduceToNat] at h
    omega
  have hfind : decimalZeros.find? (fun start => start ≤ c.toNat ∧ c.toNat < start + 10) =
      some 48 := by
    rw [decimalZeros, List.find?_cons_of_pos]
    simpa using hrange
  rw [digitValue, hfind]
  rfl

theorem digitsValue_digits {digits : List Char} (h : AllDigits digits) (value count : ℕ) :
    PythonText.digitsValue value count digits =
      some (Nat.ofDigitChars 10 digits value, count + digits.length) := by
  induction digits generalizing value count with
  | nil => simp [PythonText.digitsValue]
  | cons c digits ih =>
      have hc : c.isDigit = true := h c List.mem_cons_self
      have hunderscore : c ≠ '_' := by
        rintro rfl
        exact absurd hc (by decide)
      have hrest : AllDigits digits := fun d hd => h d (List.mem_cons_of_mem _ hd)
      rw [PythonText.digitsValue]
      · rw [digitValue_isDigit hc, Option.bind_some, ih hrest, Nat.ofDigitChars_cons]
        rw [List.length_cons, Nat.add_assoc, Nat.add_comm 1]
        rfl
      · intro _ _ heq
        exact absurd heq hunderscore

theorem isSpace_of_isDigit {c : Char} (h : c.isDigit = true) : isSpace c = false :=
  isSpace_of_isKeyChar (by simp [isKeyChar, Char.isAlphanum, h])

theorem intText_chars {n : ℤ} {c : Char} (hc : c ∈ intText n) : c = '-' ∨ c.isDigit = true := by
  unfold intText at hc
  split at hc
  · exact (List.mem_cons.mp hc).imp id fun hc => AllDigits.toDigits _ c hc
  · exact .inr (AllDigits.toDigits _ c hc)

theorem intText_no_space {n : ℤ} : ∀ c ∈ intText n, isSpace c = false := by
  intro c hc
  rcases intText_chars hc with rfl | hdigit
  · decide
  · exact isSpace_of_isDigit hdigit

theorem intOfText_integerText {n : ℤ} {text : String} (h : integerText n = some text) :
    intOfText text = some n := by
  have hnegative : n < 0 → -(n.natAbs : ℤ) = n := by omega
  have hnonnegative : ¬ n < 0 → (n.natAbs : ℤ) = n := by omega
  unfold integerText at h
  split at h
  next hlength =>
    cases h
    have hstrip : (strip (String.ofList (intText n))).toList = intText n := by
      rw [strip_of_no_space (by simpa using intText_no_space), String.toList_ofList]
    obtain ⟨d, ds, hdigits⟩ := List.exists_cons_of_ne_nil (@Nat.toDigits_ne_nil n.natAbs 10)
    have hall : AllDigits (Nat.toDigits 10 n.natAbs) := AllDigits.toDigits _
    have hvalue := digitsValue_digits hall 0 0
    have hread : Nat.ofDigitChars 10 (Nat.toDigits 10 n.natAbs) 0 = n.natAbs :=
      digitsValue_toDigits n.natAbs
    have hd : d.isDigit = true := hall d (hdigits ▸ List.mem_cons_self)
    rw [hdigits] at hvalue hread hlength
    rw [hread, Nat.zero_add] at hvalue
    have hcount : ¬ ((d :: ds).length = 0 ∨ 4300 < (d :: ds).length) := by
      simp only [List.length_cons] at hlength ⊢
      omega
    unfold intOfText
    extract_lets unsigned
    have hunsigned : unsigned (d :: ds) = some (n.natAbs : ℤ) := by
      simp only [unsigned, hvalue, Option.bind_some, hcount, if_false]
    clear_value unsigned
    by_cases hn : n < 0
    · have htext : (strip (String.ofList (intText n))).toList = '-' :: d :: ds := by
        rw [hstrip, intText, if_pos hn, hdigits]
      rw [htext]
      simp only [hunsigned, Option.map_some, hnegative hn]
    · have htext : (strip (String.ofList (intText n))).toList = d :: ds := by
        rw [hstrip, intText, if_neg hn, hdigits]
      have hplus : d ≠ '+' := by
        rintro rfl
        exact absurd hd (by decide)
      have hminus : d ≠ '-' := by
        rintro rfl
        exact absurd hd (by decide)
      rw [htext]
      split
      next heq => exact absurd (List.cons.inj heq).1 hplus
      next heq => exact absurd (List.cons.inj heq).1 hminus
      next => rw [hunsigned, hnonnegative hn]
  next => cases h

/-! ## Round trips -/

/-- What a reference stands for: a template with a label or a version of it. -/
def PromptReference.denotes (r : PromptReference) : String × (String ⊕ ℤ) :=
  (r.templateKey, match r.version with
    | some version => .inr version
    | none => .inl (labelOrProduction r.label))

/-- The text of the reference is read back as a reference to the same prompt. -/
def RoundTrips (py : Python) (r : PromptReference) : Prop :=
  ∀ text, r.text = some text → ∃ read, parsePromptReference py (.str text) = some (some read) ∧
    read.denotes = r.denotes

/-- A label reference in which the separators stand where they are looked for. -/
def Separable (r : PromptReference) : Prop :=
  r.version = none → ∀ label ∈ r.label, ':' ∉ r.templateKey.toList ∧ '@' ∉ label.toList

theorem count_dropWhile {c : Char} (hc : isSpace c = false) (cs : List Char) :
    (cs.dropWhile isSpace).count c = cs.count c := by
  induction cs with
  | nil => rfl
  | cons d ds ih =>
      rw [List.dropWhile_cons]
      split
      next hd =>
        have hne : d ≠ c := by
          rintro rfl
          rw [hc] at hd
          cases hd
        rw [ih, List.count_cons_of_ne hne]
      · rfl

theorem count_strip {c : Char} (hc : isSpace c = false) (text : String) :
    (strip text).toList.count c = text.toList.count c := by
  rw [strip, String.toList_ofList, List.count_reverse, count_dropWhile hc, List.count_reverse,
    count_dropWhile hc]

theorem strip_of_ends {text : String} {c d : Char} {front back : List Char}
    (hfirst : text.toList = c :: front) (hc : isSpace c = false)
    (hlast : text.toList = back ++ [d]) (hd : isSpace d = false) : strip text = text := by
  have hdrop : text.toList.dropWhile isSpace = text.toList := by
    rw [hfirst, List.dropWhile_cons_of_neg (by simp [hc])]
  have hend : text.toList.rdropWhile isSpace = text.toList := by
    rw [hlast, List.rdropWhile_concat_neg _ _ _ (by simp [hd])]
  rw [strip_eq, hdrop, hend, String.ofList_toList]

theorem last_of_stripped {text : String} (h : strip text = text) (hne : text ≠ "") :
    ∃ back d, text.toList = back ++ [d] ∧ isSpace d = false := by
  have hlist : text.toList = (text.toList.dropWhile isSpace).rdropWhile isSpace := by
    conv_lhs => rw [← h]
    rw [strip_eq, String.toList_ofList]
  have hnonempty : (text.toList.dropWhile isSpace).rdropWhile isSpace ≠ [] := by
    rw [← hlist]
    exact fun hnil => hne (String.toList_eq_nil_iff.mp hnil)
  have hspace := List.rdropWhile_last_not isSpace _ hnonempty
  refine ⟨_, _, hlist.trans (List.dropLast_append_getLast hnonempty).symm, ?_⟩
  simpa using hspace

/-- A key with anything behind it that does not end in a space is stripped already. -/
theorem strip_key_append {templateKey : String} (hkey : templateKeyMatches templateKey = true)
    (mark : String) {text : String} {d : Char} {back : List Char}
    (hlast : text.toList = back ++ [d]) (hd : isSpace d = false) :
    strip (templateKey ++ mark ++ text) = templateKey ++ mark ++ text := by
  obtain ⟨c, cs, hlist, hfirst, -⟩ := templateKeyMatches_iff.mp hkey
  have hc : isSpace c = false := isSpace_of_isKeyChar (by simp [isKeyChar, hfirst])
  have hfront : (templateKey ++ mark ++ text).toList = c :: (cs ++ mark.toList ++ text.toList) := by
    simp [hlist]
  have hback : (templateKey ++ mark ++ text).toList =
      (templateKey.toList ++ mark.toList ++ back) ++ [d] := by
    simp [hlast]
  exact strip_of_ends hfront hc hback hd

theorem splitOnce_mark {mark : Char} {before after text : String}
    (htext : text.toList = before.toList ++ mark :: after.toList) (h : mark ∉ before.toList) :
    splitOnce mark text = (before, after) := by
  simp only [splitOnce, htext, splitAtMark_mark after.toList h, String.ofList_toList]

section Parsing

variable {templateKey : String} (hkey : templateKeyMatches templateKey = true)
include hkey

theorem parseToken_version {version : ℤ} {text : String} (htext : integerText version = some text) :
    parseToken (templateKey ++ "@" ++ text) = some ⟨templateKey, none, some version, none⟩ := by
  have hchars : text.toList = intText version := by
    unfold integerText at htext
    split at htext
    · cases htext
      rw [String.toList_ofList]
    · cases htext
  have hne : text.toList ≠ [] := by
    rw [hchars, intText]
    split
    · exact List.cons_ne_nil _ _
    · exact Nat.toDigits_ne_nil
  have hspaces : ∀ c ∈ text.toList, isSpace c = false := hchars ▸ intText_no_space
  have hlast := (List.dropLast_append_getLast hne).symm
  have hstrip := strip_key_append hkey "@" hlast (hspaces _ (List.getLast_mem hne))
  have hsplit : splitOnce '@' (templateKey ++ "@" ++ text) = (templateKey, text) :=
    splitOnce_mark (by simp) (at_notMem_key hkey)
  have hempty : templateKey ++ "@" ++ text ≠ "" := by
    intro h
    have hlist := congrArg String.toList h
    simp at hlist
  have hat : '@' ∈ (templateKey ++ "@" ++ text).toList := by simp
  simp only [parseToken, hstrip, hempty, hat, hsplit, strip_key hkey, key_ne_empty hkey, if_false,
    if_true, strip_of_no_space hspaces, intOfText_integerText htext]

variable {label : String} (hne : label ≠ "") (hstripped : strip label = label)
include hne hstripped

theorem strip_key_label : strip (templateKey ++ ":" ++ label) = templateKey ++ ":" ++ label := by
  obtain ⟨back, d, hlast, hd⟩ := last_of_stripped hstripped hne
  exact strip_key_append hkey ":" hlast hd

theorem parseToken_label (hcolon : ':' ∉ templateKey.toList) (hat : '@' ∉ label.toList) :
    parseToken (templateKey ++ ":" ++ label) = some ⟨templateKey, some label, none, none⟩ := by
  have hsplit : splitOnce ':' (templateKey ++ ":" ++ label) = (templateKey, label) :=
    splitOnce_mark (by simp) hcolon
  have hempty : templateKey ++ ":" ++ label ≠ "" := by
    intro h
    have hlist := congrArg String.toList h
    simp at hlist
  have hnoAt : '@' ∉ (templateKey ++ ":" ++ label).toList := by
    simp [at_notMem_key hkey, hat]
  have hmark : ':' ∈ (templateKey ++ ":" ++ label).toList := by simp
  simp only [parseToken, strip_key_label hkey hne hstripped, hempty, hnoAt, hsplit, hmark,
    strip_key hkey, key_ne_empty hkey, hstripped, hne, if_false, if_true, ne_eq, not_false_eq_true,
    and_self]

/-- Where a separator stands in the wrong place, the key that is read has another number of
colons. -/
theorem parseToken_other (hbad : ':' ∈ templateKey.toList ∨ '@' ∈ label.toList)
    {read : PromptReference} (h : parseToken (templateKey ++ ":" ++ label) = some read) :
    read.templateKey.toList.count ':' ≠ templateKey.toList.count ':' := by
  have hspace : isSpace ':' = false := by decide
  have htoken : (templateKey ++ ":" ++ label).toList =
      templateKey.toList ++ ':' :: label.toList := by simp
  rw [parseToken] at h
  simp only [strip_key_label hkey hne hstripped] at h
  split at h
  · cases h
  · split at h
    next hat =>
      -- the key goes as far as the first at sign, which is in the label
      split at h
      · cases h
      · rw [← congrArg PromptReference.templateKey (Option.some.inj h), count_strip hspace]
        have hpass : ∀ c ∈ templateKey.toList, decide (c ≠ '@') = true := by
          intro c hc
          simpa using ne_at_of_isKeyChar (keyChars hkey c hc)
        simp only [splitOnce, splitAtMark, htoken, String.toList_ofList,
          List.takeWhile_append_of_pos hpass]
        rw [List.takeWhile_cons_of_pos (by decide), List.count_append, List.count_cons_self]
        omega
    next hat =>
      have hcolon : ':' ∈ templateKey.toList := by
        refine hbad.resolve_right fun hlabel => hat ?_
        simp [htoken, hlabel]
      split at h
      · -- the key ends before the first colon
        rw [← congrArg PromptReference.templateKey (Option.some.inj h), count_strip hspace]
        have hnone : ':' ∉ (splitOnce ':' (templateKey ++ ":" ++ label)).1.toList := by
          intro hmem
          simp only [splitOnce, splitAtMark, String.toList_ofList] at hmem
          exact absurd (List.mem_takeWhile_imp hmem) (by decide)
        rw [List.count_eq_zero_of_not_mem hnone]
        exact (List.count_pos_iff.mpr hcolon).ne
      · rw [← congrArg PromptReference.templateKey (Option.some.inj h), htoken, List.count_append,
          List.count_cons_self]
        omega

end Parsing

theorem roundTrips_iff (py : Python) {r : PromptReference} (h : Admitted r) :
    RoundTrips py r ↔ Separable r := by
  obtain ⟨templateKey, label, version, promptVariables⟩ := r
  obtain ⟨hkey, hlabel⟩ := h
  cases version with
  | some version =>
      refine iff_of_true ?_ fun hnone => by cases hnone
      intro text htext
      obtain ⟨digits, hdigits, rfl⟩ := Option.map_eq_some_iff.mp htext
      exact ⟨_, congrArg some (parseToken_version hkey hdigits), rfl⟩
  | none =>
      cases label with
      | none =>
          refine iff_of_true ?_ fun _ label hlabel => by cases hlabel
          intro text htext
          cases htext
      | some label =>
          obtain ⟨hne, hstripped⟩ := hlabel label rfl
          constructor
          · intro hround _ label' hlabel'
            cases hlabel'
            obtain ⟨read, hread, hdenotes⟩ := hround _ rfl
            by_contra hbad
            have hsame : read.templateKey = templateKey := congrArg Prod.fst hdenotes
            refine parseToken_other hkey hne hstripped ?_ (Option.some.inj hread)
              (congrArg (fun key => key.toList.count ':') hsame)
            rw [not_and_or, not_not, not_not] at hbad
            exact hbad
          · intro hseparable text htext
            cases htext
            obtain ⟨hcolon, hat⟩ := hseparable rfl label rfl
            exact ⟨_, congrArg some (parseToken_label hkey hne hstripped hcolon hat), rfl⟩

/-! ## Cache keys -/

/-- The cache key behind the template's key. -/
def PromptReference.ending (r : PromptReference) : Option (List Char) :=
  match r.version with
  | some version => (integerText version).map fun version => ":version:".toList ++ version.toList
  | none => some (":label:".toList ++ (labelOrProduction r.label).toList)

/-- Equal cache keys name the same prompt. -/
def KeptApart (r s : PromptReference) : Prop :=
  ∀ key, r.cacheKey = some key → s.cacheKey = some key → r.denotes = s.denotes

/-- The key of `s` goes on where the key of `r` ends, with ":label" and with what the label of `r`
has before the ending of `s`. -/
def Overlaps (r s : PromptReference) : Prop :=
  r.version = none ∧ ∃ rest ending,
    s.templateKey.toList = r.templateKey.toList ++ ":label".toList ++ rest ∧
    s.ending = some ending ∧ ':' :: (labelOrProduction r.label).toList = rest ++ ending

theorem cacheKey_eq_some {r : PromptReference} {key : String} :
    r.cacheKey = some key ↔ ∃ ending, r.ending = some ending ∧
      key.toList = promptCachePrefix.toList ++ ':' :: (r.templateKey.toList ++ ending) := by
  obtain ⟨templateKey, label, version, promptVariables⟩ := r
  have hkey : ∀ text : String, text = key ↔ key.toList = text.toList := by
    intro text
    rw [eq_comm, String.toList_inj]
  cases version with
  | some version =>
      simp only [PromptReference.cacheKey, promptCacheKey, PromptReference.ending,
        Option.map_eq_some_iff]
      constructor
      · rintro ⟨digits, hdigits, rfl⟩
        exact ⟨_, ⟨digits, hdigits, rfl⟩, by simp⟩
      · rintro ⟨_, ⟨digits, hdigits, rfl⟩, hlist⟩
        exact ⟨digits, hdigits, (hkey _).mpr (by simpa using hlist)⟩
  | none =>
      simp only [PromptReference.cacheKey, promptCacheKey, PromptReference.ending,
        Option.some.injEq]
      constructor
      · rintro rfl
        exact ⟨_, rfl, by simp⟩
      · rintro ⟨_, rfl, hlist⟩
        exact (hkey _).mpr (by simpa using hlist)

theorem ending_cases {r : PromptReference} {ending : List Char} (h : r.ending = some ending) :
    (∃ version digits, r.version = some version ∧ integerText version = some digits ∧
      ending = ":version:".toList ++ digits.toList) ∨
    (r.version = none ∧ ending = ":label:".toList ++ (labelOrProduction r.label).toList) := by
  obtain ⟨templateKey, label, version, promptVariables⟩ := r
  cases version with
  | some version =>
      obtain ⟨digits, hdigits, rfl⟩ := Option.map_eq_some_iff.mp h
      exact .inl ⟨version, digits, rfl, hdigits, rfl⟩
  | none =>
      cases h
      exact .inr ⟨rfl, rfl⟩

theorem colon_notMem_integerText {n : ℤ} {text : String} (h : integerText n = some text) :
    ':' ∉ text.toList := by
  unfold integerText at h
  split at h
  · cases h
    rw [String.toList_ofList]
    intro hc
    rcases intText_chars hc with hminus | hdigit
    · exact absurd hminus (by decide)
    · exact absurd hdigit (by decide)
  · cases h

/-- An ending starts with a colon and has another one; that of a version has no third. -/
theorem ending_colons {r : PromptReference} {ending : List Char} (h : r.ending = some ending) :
    ending.head? = some ':' ∧ 2 ≤ ending.count ':' ∧
      (r.version ≠ none → ending.count ':' = 2) := by
  rcases ending_cases h with ⟨version, digits, hversion, hdigits, rfl⟩ | ⟨hversion, rfl⟩
  · have hmark : (":version:".toList).count ':' = 2 := by decide
    have hnone := List.count_eq_zero_of_not_mem (colon_notMem_integerText hdigits)
    refine ⟨rfl, ?_, fun _ => ?_⟩
    · rw [List.count_append]
      omega
    · rw [List.count_append]
      omega
  · have hmark : (":label:".toList).count ':' = 2 := by decide
    refine ⟨rfl, ?_, fun hne => absurd hversion hne⟩
    rw [List.count_append]
    omega

theorem denotes_of_ending {r s : PromptReference} {ending : List Char}
    (hkey : r.templateKey = s.templateKey) (hr : r.ending = some ending)
    (hs : s.ending = some ending) : r.denotes = s.denotes := by
  rcases ending_cases hr with ⟨version, digits, hversion, hdigits, hending⟩ | ⟨hversion, hending⟩
  · rcases ending_cases hs with ⟨version', digits', hversion', hdigits', heq⟩ | ⟨hversion', heq⟩
    · rw [hending, List.append_cancel_left_eq, String.toList_inj] at heq
      have hsame := (intOfText_integerText hdigits).symm.trans
        (heq ▸ intOfText_integerText hdigits')
      rw [PromptReference.denotes, PromptReference.denotes, hkey, hversion, hversion',
        Option.some.inj hsame]
    · rw [hending] at heq
      simp at heq
  · rcases ending_cases hs with ⟨version', digits', hversion', hdigits', heq⟩ | ⟨hversion', heq⟩
    · rw [hending] at heq
      simp at heq
    · rw [hending, List.append_cancel_left_eq, String.toList_inj] at heq
      rw [PromptReference.denotes, PromptReference.denotes, hkey, hversion, hversion', heq]

/-- Where the second key goes on behind the first, the references overlap. -/
theorem overlaps_of_longer {r s : PromptReference} {u e e' : List Char} (hne : u ≠ [])
    (hkey : s.templateKey.toList = r.templateKey.toList ++ u) (hr : r.ending = some e)
    (hs : s.ending = some e') (heq : e = u ++ e') : Overlaps r s := by
  obtain ⟨hfirst, -, htwo⟩ := ending_colons hr
  obtain ⟨hfirst', hmore, -⟩ := ending_colons hs
  have hu : 0 < u.count ':' := by
    cases u with
    | nil => exact absurd rfl hne
    | cons c u =>
        rw [heq] at hfirst
        cases hfirst
        exact List.count_pos_iff.mpr List.mem_cons_self
  rcases ending_cases hr with ⟨version, _, hversion, -, -⟩ | ⟨hversion, hending⟩
  · have hcount := htwo (by simp [hversion])
    rw [heq, List.count_append] at hcount
    omega
  · have hlabel : ":label".toList ++ ':' :: (labelOrProduction r.label).toList = u ++ e' := by
      rw [← heq, hending]
      simp
    rcases List.append_eq_append_iff.mp hlabel with ⟨rest, hrest, htail⟩ | ⟨w, hw, htail⟩
    · exact ⟨hversion, rest, e', by rw [hkey, hrest, List.append_assoc], hs, htail⟩
    · cases w with
      | nil =>
          rw [List.append_nil] at hw
          refine ⟨hversion, [], e', ?_, hs, by simpa using htail.symm⟩
          rw [hkey, ← hw, List.append_nil]
      | cons c w =>
          -- the marker would have a second colon
          rw [htail] at hfirst'
          cases hfirst'
          have hone : (":label".toList).count ':' = 1 := by decide
          rw [hw, List.count_append, List.count_cons_self] at hone
          omega

theorem keptApart_iff {r s : PromptReference} :
    KeptApart r s ↔ ¬ Overlaps r s ∧ ¬ Overlaps s r := by
  have hcollide : ∀ {r s : PromptReference}, Overlaps r s →
      (∃ key, r.cacheKey = some key ∧ s.cacheKey = some key) ∧ r.denotes ≠ s.denotes := by
    rintro r s ⟨hversion, rest, ending, hkey, hs, hlabel⟩
    have hr : r.ending = some (":label:".toList ++ (labelOrProduction r.label).toList) := by
      rw [PromptReference.ending, hversion]
    have hsame : r.templateKey.toList ++ (":label:".toList ++ (labelOrProduction r.label).toList) =
        s.templateKey.toList ++ ending := by
      rw [hkey, List.append_assoc, ← hlabel]
      simp
    refine ⟨⟨String.ofList (promptCachePrefix.toList ++ ':' :: (s.templateKey.toList ++ ending)),
      cacheKey_eq_some.mpr ⟨_, hr, ?_⟩, cacheKey_eq_some.mpr ⟨_, hs, ?_⟩⟩, ?_⟩
    · rw [String.toList_ofList, hsame]
    · rw [String.toList_ofList]
    · intro hdenotes
      have htemplate : r.templateKey = s.templateKey := congrArg Prod.fst hdenotes
      have hlength := congrArg List.length hkey
      rw [htemplate] at hlength
      simp at hlength
  constructor
  · intro hapart
    constructor
    · intro hoverlap
      obtain ⟨⟨key, hr, hs⟩, hne⟩ := hcollide hoverlap
      exact hne (hapart key hr hs)
    · intro hoverlap
      obtain ⟨⟨key, hs, hr⟩, hne⟩ := hcollide hoverlap
      exact hne (hapart key hr hs).symm
  · rintro ⟨hrs, hsr⟩ key hr hs
    obtain ⟨e, hr, hkey⟩ := cacheKey_eq_some.mp hr
    obtain ⟨e', hs, hkey'⟩ := cacheKey_eq_some.mp hs
    rw [hkey, List.append_cancel_left_eq, List.cons.injEq] at hkey'
    rcases List.append_eq_append_iff.mp hkey'.2 with ⟨u, hu, heq⟩ | ⟨u, hu, heq⟩
    · by_cases hnil : u = []
      · subst hnil
        rw [List.append_nil, String.toList_inj] at hu
        exact denotes_of_ending hu.symm hr (heq ▸ hs)
      · exact absurd (overlaps_of_longer hnil hu hr hs heq) hrs
    · by_cases hnil : u = []
      · subst hnil
        rw [List.append_nil, String.toList_inj] at hu
        exact denotes_of_ending hu hr (hs.trans (congrArg some heq))
      · exact absurd (overlaps_of_longer hnil hu hs hr heq) hsr

end PromptReferences
