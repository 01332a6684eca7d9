import Mathlib.Data.List.DropRight
import Mathlib.Data.List.TakeWhile
import Mathlib.Data.Int.Notation
import Mathlib.Data.List.Infix
import Mathlib.Data.Finset.Sort
import Mathlib.Data.String.Basic

/-! # Text operations with Python's meaning -/
namespace PythonText

/-- The characters that `str.strip` removes. -/
def isSpace (c : Char) : Bool :=
  let n := c.toNat
  (9 ≤ n ∧ n ≤ 13) ∨ (28 ≤ n ∧ n ≤ 32) ∨ n = 0x85 ∨ n = 0xA0 ∨ n = 0x1680 ∨
    (0x2000 ≤ n ∧ n ≤ 0x200A) ∨ n = 0x2028 ∨ n = 0x2029 ∨ n = 0x202F ∨ n = 0x205F ∨ n = 0x3000

/-- `text.strip()`. -/
def strip (text : String) : String :=
  String.ofList ((((text.toList.dropWhile isSpace).reverse).dropWhile isSpace).reverse)

/-- `str(value or "").strip()` on an optional text. -/
def stripOrEmpty (value : Option String) : String := strip (value.getD "")

/-- `text.startswith(start)`. -/
def startsWith (text start : String) : Bool := start.toList.isPrefixOf text.toList

/-- `pattern in text`. -/
def contains (text pattern : String) : Bool := decide (pattern.toList <:+: text.toList)

/-- `text.lower()` on the ASCII letters. -/
def lower (text : String) : String := String.ofList (text.toList.map Char.toLower)

/-- `text.upper()` on the ASCII letters. -/
def upper (text : String) : String := String.ofList (text.toList.map Char.toUpper)

/-- `sorted(set)`. -/
def sorted (texts : Finset String) : List String := texts.sort (· ≤ ·)

/-- The zeros of the decimal digit blocks of Unicode 14; each block holds ten digits in order. -/
def decimalZeros : List ℕ :=
  [0x30, 0x660, 0x6F0, 0x7C0, 0x966, 0x9E6, 0xA66, 0xAE6, 0xB66, 0xBE6, 0xC66, 0xCE6, 0xD66,
    0xDE6, 0xE50, 0xED0, 0xF20, 0x1040, 0x1090, 0x17E0, 0x1810, 0x1946, 0x19D0, 0x1A80, 0x1A90,
    0x1B50, 0x1BB0, 0x1C40, 0x1C50, 0xA620, 0xA8D0, 0xA900, 0xA9D0, 0xA9F0, 0xAA50, 0xABF0,
    0xFF10, 0x104A0, 0x10D30, 0x11066, 0x110F0, 0x11136, 0x111D0, 0x112F0, 0x11450, 0x114D0,
    0x11650, 0x116C0, 0x11730, 0x118E0, 0x11950, 0x11C50, 0x11D50, 0x11DA0, 0x16A60, 0x16AC0,
    0x16B50, 0x1D7CE, 0x1D7D8, 0x1D7E2, 0x1D7EC, 0x1D7F6, 0x1E140, 0x1E2F0, 0x1E950, 0x1FBF0]

def digitValue (c : Char) : Option ℕ :=
  (decimalZeros.find? fun start => start ≤ c.toNat ∧ c.toNat < start + 10).map (c.toNat - ·)

/-- Digits with single underscores between them, most significant first. -/
def digitsValue (value count : ℕ) : List Char → Option (ℕ × ℕ)
  | [] => some (value, count)
  | '_' :: c :: cs =>
      if count = 0 then none
      else (digitValue c).bind fun d => digitsValue (10 * value + d) (count + 1) cs
  | c :: cs => (digitValue c).bind fun d => digitsValue (10 * value + d) (count + 1) cs

/-- `int(text)`, none where it raises: not a decimal numeral, or over 4300 digits. -/
def intOfText (text : String) : Option ℤ :=
  let unsigned (cs : List Char) : Option ℤ :=
    (digitsValue 0 0 cs).bind fun (value, count) =>
      if count = 0 ∨ 4300 < count then none else some value
  match (strip text).toList with
  | '+' :: cs => unsigned cs
  | '-' :: cs => (unsigned cs).map (- ·)
  | cs => unsigned cs

@[simp] theorem mem_sorted {text : String} {texts : Finset String} :
    text ∈ sorted texts ↔ text ∈ texts := Finset.mem_sort _

theorem mem_dropWhile_isSpace {c : Char} {cs : List Char} (hc : isSpace c = false) :
    c ∈ cs.dropWhile isSpace ↔ c ∈ cs := by
  induction cs with
  | nil => simp
  | cons d cs ih =>
      by_cases hd : isSpace d = true
      · have hne : c ≠ d := by
          rintro rfl
          simp [hd] at hc
        simp [hd, ih, hne]
      · simp [hd]

theorem mem_strip {c : Char} {text : String} (hc : isSpace c = false) :
    c ∈ (strip text).toList ↔ c ∈ text.toList := by
  simp [strip, mem_dropWhile_isSpace hc]

/-- What a strip leaves starts with a character that is not a space. -/
theorem strip_ne_empty {text : String} :
    strip text ≠ "" ↔ ∃ c ∈ text.toList, isSpace c = false := by
  constructor
  · intro h
    by_contra hall
    have hdrop : text.toList.dropWhile isSpace = [] := by
      rw [List.dropWhile_eq_nil_iff]
      intro c hc
      by_contra hspace
      exact hall ⟨c, hc, by simpa using hspace⟩
    exact h (by simp [strip, hdrop])
  · rintro ⟨c, hc, hspace⟩ hempty
    have hmem := (mem_strip hspace).mpr hc
    simp [hempty] at hmem

theorem strip_strip_ne_empty {text : String} : strip (strip text) ≠ "" ↔ strip text ≠ "" := by
  rw [strip_ne_empty, strip_ne_empty]
  constructor
  · rintro ⟨c, hc, hspace⟩
    exact ⟨c, (mem_strip hspace).mp hc, hspace⟩
  · rintro ⟨c, hc, hspace⟩
    exact ⟨c, (mem_strip hspace).mpr hc, hspace⟩

theorem strip_eq (text : String) :
    strip text = String.ofList ((text.toList.dropWhile isSpace).rdropWhile isSpace) := rfl

/-- The right strip keeps the first character, which the left strip left no space. -/
theorem dropWhile_strip (cs : List Char) :
    ((cs.dropWhile isSpace).rdropWhile isSpace).dropWhile isSpace =
      (cs.dropWhile isSpace).rdropWhile isSpace := by
  rw [List.dropWhile_eq_self_iff]
  intro hpos hspace
  have hinitial := List.rdropWhile_prefix isSpace (cs.dropWhile isSpace)
  have hlong : 0 < (cs.dropWhile isSpace).length := hpos.trans_le hinitial.length_le
  refine List.dropWhile_get_zero_not isSpace cs hlong ?_
  rw [List.get_eq_getElem, ← hinitial.getElem hpos]
  exact hspace

theorem strip_strip (text : String) : strip (strip text) = strip text := by
  rw [strip_eq (strip text), strip_eq text, String.toList_ofList, dropWhile_strip,
    List.rdropWhile_idempotent]

theorem toLower_cases (c : Char) :
    (c.toLower = c ∧ ¬(65 ≤ c.toNat ∧ c.toNat ≤ 90)) ∨
      ((65 ≤ c.toNat ∧ c.toNat ≤ 90) ∧ c.toLower.toNat = c.toNat + 32) := by
  have hbounds : (c.val ≥ 'A'.val ∧ c.val ≤ 'Z'.val) ↔ 65 ≤ c.toNat ∧ c.toNat ≤ 90 := by
    simp [UInt32.le_iff_toNat_le]
  unfold Char.toLower
  by_cases hupper : c.val ≥ 'A'.val ∧ c.val ≤ 'Z'.val
  · right
    have hlow := hbounds.mp hupper
    rw [dif_pos hupper]
    refine ⟨hlow, ?_⟩
    have hadd : (c.val + ('a'.val - 'A'.val)).toNat = c.val.toNat + 32 := by
      rw [UInt32.toNat_add]
      have h32 : ('a'.val - 'A'.val).toNat = 32 := by decide
      rw [h32]
      have hval : c.val.toNat = c.toNat := rfl
      omega
    exact hadd
  · left
    rw [dif_neg hupper]
    exact ⟨rfl, fun h => hupper (hbounds.mpr h)⟩

theorem isSpace_toLower (c : Char) : isSpace c.toLower = isSpace c := by
  rcases toLower_cases c with ⟨hsame, -⟩ | ⟨hupper, hlower⟩
  · rw [hsame]
  · simp only [isSpace, hlower]
    rw [decide_eq_decide]
    omega

theorem toLower_toLower (c : Char) : c.toLower.toLower = c.toLower := by
  rcases toLower_cases c.toLower with ⟨hsame, -⟩ | ⟨hupper, -⟩
  · exact hsame
  · rcases toLower_cases c with ⟨hsame, hnot⟩ | ⟨hbounds, hlower⟩
    · rw [hsame] at hupper
      exact absurd hupper hnot
    · omega

theorem strip_lower (text : String) : strip (lower text) = lower (strip text) := by
  have hspace : isSpace ∘ Char.toLower = isSpace := funext isSpace_toLower
  simp only [strip, lower, String.toList_ofList, List.dropWhile_map, hspace, ← List.map_reverse]

theorem lower_lower (text : String) : lower (lower text) = lower text := by
  simp only [lower, String.toList_ofList, List.map_map]
  congr 1
  exact List.map_congr_left fun c _ => toLower_toLower c

theorem no_space_of_all {text : String} (h : text.toList.all (fun c => !isSpace c) = true) :
    ∀ c ∈ text.toList, isSpace c = false := by
  intro c hc
  have hspace := List.all_eq_true.mp h c hc
  rwa [Bool.not_eq_true'] at hspace

theorem strip_of_no_space {text : String} (h : ∀ c ∈ text.toList, isSpace c = false) :
    strip text = text := by
  have hdrop : ∀ cs : List Char, (∀ c ∈ cs, isSpace c = false) → cs.dropWhile isSpace = cs := by
    intro cs hcs
    rw [List.dropWhile_eq_self_iff]
    intro hpos
    simp [hcs _ (List.getElem_mem hpos)]
  rw [strip_eq, hdrop _ h, List.rdropWhile, hdrop _ fun c hc => h c (List.mem_reverse.mp hc),
    List.reverse_reverse, String.ofList_toList]

end PythonText
