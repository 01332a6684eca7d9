import DeltaLLM.BatchLineReader
import DeltaLLM.JsonReading

/-! # How long a JSON text gets

`json.dumps` with ASCII output writes printable ASCII characters only. How many it writes for a
value is counted along the value: a character of a text takes one, two, six or twelve of them.
-/
namespace JsonWidths

open BatchLineReader (encodeText)
open JsonReading
open JsonText
open JsonValues

/-! ## Counting -/

/-- Quotes, backslashes and five control characters have short escapes; what is left of the control
characters and what is not ASCII takes six characters for each of its code units. -/
def charWidth (c : Char) : ℕ :=
  if c.toNat ∈ [8, 9, 10, 12, 13, 34, 92] then 2
  else if 32 ≤ c.toNat ∧ c.toNat ≤ 126 then 1
  else if c.toNat < 65536 then 6
  else 12

def stringWidth (s : String) : ℕ := 2 + (s.toList.map charWidth).sum

def intWidth (n : ℤ) : ℕ := (intText n).length

/-- The parts and the commas between them. -/
def joinedWidth (widths : List ℕ) : ℕ := widths.sum + (widths.length - 1)

mutual

def valueWidth : JsonValue → ℕ
  | .null => 4
  | .bool b => if b then 4 else 5
  | .int n => intWidth n
  | .float x => (floatText x).length
  | .str s => stringWidth s
  | .list xs => 2 + joinedWidth (valueWidths xs)
  | .dict fields => 2 + joinedWidth (fieldWidths fields)

def valueWidths : List JsonValue → List ℕ
  | [] => []
  | x :: xs => valueWidth x :: valueWidths xs

def fieldWidths : List (String × JsonValue) → List ℕ
  | [] => []
  | (name, value) :: fields => (stringWidth name + 1 + valueWidth value) :: fieldWidths fields

end

example : valueWidth (.dict [("model", .str "m"), ("input", .str "é")]) = 30 := by decide

/-! ## The texts have these lengths -/

theorem length_unitText (u : Fin 65536) :
    (unitText u).length =
      if u.val ∈ [8, 9, 10, 12, 13, 34, 92] then 2
      else if 32 ≤ u.val ∧ u.val ≤ 126 then 1 else 6 := by
  unfold unitText shortEscape
  split
  · next c hshort =>
      split at hshort <;> simp_all
  · next hshort =>
      have hplain : u.val ∉ [8, 9, 10, 12, 13, 34, 92] := by
        split at hshort <;> simp_all
      rw [if_neg hplain]
      split_ifs <;> rfl

theorem length_charText (c : Char) : ((codeUnits c).flatMap unitText).length = charWidth c := by
  have hvalid : c.toNat < 0xD800 ∨ 0xDFFF < c.toNat ∧ c.toNat < 0x110000 := c.valid
  unfold codeUnits charWidth
  split
  · next hsmall =>
      have hvalue : (Fin.ofNat 65536 c.toNat).val = c.toNat := Nat.mod_eq_of_lt hsmall
      rw [List.flatMap_singleton, length_unitText, hvalue]
  · next hlarge =>
      have hhigh : (Fin.ofNat 65536 (0xD800 + (c.toNat - 65536) / 1024)).val =
          0xD800 + (c.toNat - 65536) / 1024 := Nat.mod_eq_of_lt (by omega)
      have hlow : (Fin.ofNat 65536 (0xDC00 + (c.toNat - 65536) % 1024)).val =
          0xDC00 + (c.toNat - 65536) % 1024 := Nat.mod_eq_of_lt (by omega)
      simp only [List.flatMap_cons, List.flatMap_nil, List.append_nil, List.length_append,
        length_unitText, hhigh, hlow, List.mem_cons, List.not_mem_nil, or_false]
      split_ifs <;> omega

theorem length_stringText (s : String) : (stringText s).length = stringWidth s := by
  have hchars : (s.toList.flatMap fun c => (codeUnits c).flatMap unitText).length =
      (s.toList.map charWidth).sum := by
    rw [List.length_flatMap]
    simp only [length_charText]
  simp only [stringText, stringWidth, List.length_cons, List.length_append, List.length_nil, hchars]
  omega

theorem length_joined (texts : List (List Char)) :
    ([','].intercalate texts).length = joinedWidth (texts.map List.length) := by
  induction texts with
  | nil => rfl
  | cons text texts ih =>
      cases texts with
      | nil => simp [joinedWidth, List.intercalate]
      | cons next texts =>
          rw [List.intercalate_cons_cons, List.length_append, List.length_append, ih]
          simp only [joinedWidth, List.map_cons, List.sum_cons, List.length_cons, List.length_nil]
          omega

mutual

theorem length_valueText : ∀ value : JsonValue, (valueText value).length = valueWidth value
  | .null => rfl
  | .bool true => rfl
  | .bool false => rfl
  | .int n => rfl
  | .float x => by rw [valueText, valueWidth]
  | .str s => by rw [valueText, valueWidth, length_stringText]
  | .list xs => by
      simp only [valueText, valueWidth, List.length_cons, List.length_append, List.length_nil,
        length_joined, length_valueTexts xs]
      omega
  | .dict fields => by
      simp only [valueText, valueWidth, List.length_cons, List.length_append, List.length_nil,
        length_joined, length_fieldTexts fields]
      omega

theorem length_valueTexts : ∀ xs : List JsonValue,
    (valueTexts xs).map List.length = valueWidths xs
  | [] => rfl
  | x :: xs => by rw [valueTexts, valueWidths, List.map_cons, length_valueText x,
      length_valueTexts xs]

theorem length_fieldTexts : ∀ fields : List (String × JsonValue),
    (fieldTexts fields).map List.length = fieldWidths fields
  | [] => rfl
  | (name, value) :: fields => by
      rw [fieldTexts, fieldWidths, List.map_cons, length_fieldTexts fields, List.length_append,
        List.length_cons, length_stringText, length_valueText value]
      congr 1
      omega

end

/-! ## The texts are printable ASCII -/

def Printable (text : List Char) : Prop := ∀ c ∈ text, 32 ≤ c.toNat ∧ c.toNat ≤ 126

instance (text : List Char) : Decidable (Printable text) :=
  List.decidableBAll (fun c : Char => 32 ≤ c.toNat ∧ c.toNat ≤ 126) text

theorem Printable.append {l m : List Char} (hl : Printable l) (hm : Printable m) :
    Printable (l ++ m) :=
  fun c hc => (List.mem_append.mp hc).elim (hl c) (hm c)

theorem Printable.cons {c : Char} {l : List Char} (hc : 32 ≤ c.toNat ∧ c.toNat ≤ 126)
    (hl : Printable l) : Printable (c :: l) := by
  intro d hd
  rcases List.mem_cons.mp hd with rfl | hd
  · exact hc
  · exact hl d hd

theorem printable_numberChars {text : List Char} (h : ∀ c ∈ text, isNumberChar c = true) :
    Printable text := by
  intro c hc
  have hchar := h c hc
  simp only [isNumberChar, Char.isDigit, Bool.or_eq_true, Bool.and_eq_true, decide_eq_true_eq,
    UInt32.le_iff_toNat_le] at hchar
  rcases hchar with (((⟨hlow, hhigh⟩ | rfl) | rfl) | rfl) | rfl
  · have hvalue : c.val.toNat = c.toNat := rfl
    rw [hvalue] at hlow hhigh
    have hlow' : 48 ≤ c.toNat := hlow
    have hhigh' : c.toNat ≤ 57 := hhigh
    omega
  all_goals decide

theorem printable_digits {digits : List Char} (h : AllDigits digits) : Printable digits :=
  printable_numberChars h.numberChars

theorem printable_intText (n : ℤ) : Printable (intText n) := by
  have hdigits := printable_digits (AllDigits.toDigits n.natAbs)
  unfold intText
  split
  · exact hdigits.cons (by decide)
  · exact hdigits

theorem printable_floatText (x : JsonFloat) : Printable (floatText x) := by
  cases x with
  | finite q =>
      have hdecimal := printable_numberChars
        (decimalText_shaped (decimalPlaces q) (q * 10 ^ decimalPlaces q).num.natAbs).chars
      simp only [floatText]
      split
      · exact hdecimal.cons (by decide)
      · exact hdecimal
  | infinity negative => cases negative <;> decide
  | nan => decide

theorem printable_hexDigit (n : ℕ) : 32 ≤ (hexDigit n).toNat ∧ (hexDigit n).toNat ≤ 126 := by
  have hdigits : ∀ i < 16, 32 ≤ (Nat.digitChar i).toNat ∧ (Nat.digitChar i).toNat ≤ 126 := by
    decide
  exact hdigits (n % 16) (Nat.mod_lt n (by decide))

theorem printable_unitText (u : Fin 65536) : Printable (unitText u) := by
  unfold unitText
  split
  · next c hshort =>
      have hescape : c ∈ ['"', '\\', 'n', 'r', 't', 'f', 'b'] := by
        unfold shortEscape at hshort
        split at hshort <;> cases hshort <;> simp
      have hprintable : Printable ['"', '\\', 'n', 'r', 't', 'f', 'b'] := by decide
      exact Printable.cons (by decide) (Printable.cons (hprintable c hescape) (by simp [Printable]))
  · split
    · next hrange =>
        have hchars : ∀ i < 127, 32 ≤ i →
          32 ≤ (Char.ofNat i).toNat ∧ (Char.ofNat i).toNat ≤ 126 := by
          decide
        exact Printable.cons (hchars u.val (by omega) hrange.1) (by simp [Printable])
    · refine Printable.cons (by decide) (Printable.cons (by decide) ?_)
      intro c hc
      simp only [List.mem_cons, List.not_mem_nil, or_false] at hc
      rcases hc with rfl | rfl | rfl | rfl <;> exact printable_hexDigit _

theorem printable_stringText (s : String) : Printable (stringText s) := by
  have hchars : Printable (s.toList.flatMap fun c => (codeUnits c).flatMap unitText) := by
    intro d hd
    obtain ⟨c, _, hd⟩ := List.mem_flatMap.mp hd
    obtain ⟨u, _, hd⟩ := List.mem_flatMap.mp hd
    exact printable_unitText u d hd
  exact Printable.cons (by decide) (hchars.append (by decide))

theorem printable_joined {texts : List (List Char)} (h : ∀ text ∈ texts, Printable text) :
    Printable ([','].intercalate texts) := by
  induction texts with
  | nil => simp [Printable, List.intercalate]
  | cons text texts ih =>
      have hhead := h text List.mem_cons_self
      have hrest := ih fun other hother => h other (List.mem_cons_of_mem _ hother)
      cases texts with
      | nil => simpa [List.intercalate] using hhead
      | cons next texts =>
          rw [List.intercalate_cons_cons]
          exact (hhead.append (by decide)).append hrest

mutual

theorem printable_valueText : ∀ value : JsonValue, Printable (valueText value)
  | .null => by decide
  | .bool true => by decide
  | .bool false => by decide
  | .int n => printable_intText n
  | .float x => printable_floatText x
  | .str s => printable_stringText s
  | .list xs =>
      Printable.cons (by decide) ((printable_joined (printable_valueTexts xs)).append (by decide))
  | .dict fields =>
      Printable.cons (by decide)
        ((printable_joined (printable_fieldTexts fields)).append (by decide))

theorem printable_valueTexts : ∀ xs : List JsonValue, ∀ text ∈ valueTexts xs, Printable text
  | [], _, htext => by simp [valueTexts] at htext
  | x :: xs, text, htext => by
      rcases List.mem_cons.mp htext with rfl | htext
      · exact printable_valueText x
      · exact printable_valueTexts xs text htext

theorem printable_fieldTexts : ∀ fields : List (String × JsonValue),
    ∀ text ∈ fieldTexts fields, Printable text
  | [], _, htext => by simp [fieldTexts] at htext
  | (name, value) :: fields, text, htext => by
      rcases List.mem_cons.mp htext with rfl | htext
      · exact (printable_stringText name).append
          (Printable.cons (by decide) (printable_valueText value))
      · exact printable_fieldTexts fields text htext

end

/-- Printable characters are encoded with one byte each. -/
theorem length_encodeText {text : List Char} (h : Printable text) :
    (encodeText (String.ofList text)).length = text.length := by
  have hbytes : ∀ c ∈ text, (String.utf8EncodeChar c).length = 1 := by
    intro c hc
    rw [String.length_utf8EncodeChar, Char.utf8Size_eq_one_iff, UInt32.le_iff_toNat_le]
    have hascii := (h c hc).2
    have hvalue : c.val.toNat = c.toNat := rfl
    rw [hvalue]
    exact hascii.trans (by decide)
  rw [encodeText, String.toList_ofList, List.length_flatMap, List.map_congr_left hbytes]
  simp

theorem newline_notMem_printable {text : List Char} (h : Printable text) : '\n' ∉ text := by
  intro hmem
  exact absurd (h _ hmem).1 (by decide)

end JsonWidths
