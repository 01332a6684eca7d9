import DeltaLLM.JsonText
import Mathlib.Data.Nat.Factorization.Basic
import Mathlib.Tactic.NormNum
import Mathlib.Tactic.Positivity
import Mathlib.Tactic.Ring

/-! # JSON texts can be read in one way

Two values have one text only when they are the same value, as long as their floats have finitely
many decimals, as every float of Python has.
-/
namespace JsonReading

open JsonText
open JsonValues
open UniqueReading

/-! ## Numbers can be read back -/

def digitsValue (digits : List Char) : ℕ := Nat.ofDigitChars 10 digits 0

theorem digitsValue_toDigits (n : ℕ) : digitsValue (Nat.toDigits 10 n) = n :=
  Nat.ofDigitChars_ten_toDigits

theorem digitsValue_append_zeros (digits : List Char) (k : ℕ) :
    digitsValue (digits ++ List.replicate k '0') = digitsValue digits * 10 ^ k := by
  simp [digitsValue, Nat.ofDigitChars_append, Nat.ofDigitChars_replicate_zero, Nat.mul_comm]

theorem digitsValue_zeros_append (k : ℕ) (digits : List Char) :
    digitsValue (List.replicate k '0' ++ digits) = digitsValue digits := by
  simp [digitsValue, Nat.ofDigitChars_append, Nat.ofDigitChars_replicate_zero]

theorem trimZeros_append (digits : List Char) :
    trimZeros digits ++ List.replicate
      (digits.length - (trimZeros digits).length) '0' = digits := by
  have hsplit : trimZeros digits ++ digits.rtakeWhile (· = '0') = digits :=
    List.rdropWhile_append_rtakeWhile
  have hzeros : digits.rtakeWhile (· = '0') =
      List.replicate (digits.length - (trimZeros digits).length) '0' := by
    refine List.eq_replicate_iff.mpr ⟨?_, fun c hc => by simpa using List.mem_rtakeWhile_imp hc⟩
    have := congrArg List.length hsplit
    rw [List.length_append] at this
    omega
  rw [← hzeros, hsplit]

theorem trimZeros_value (digits : List Char) :
    digitsValue (trimZeros digits) * 10 ^ (digits.length - (trimZeros digits).length) =
      digitsValue digits := by
  rw [← digitsValue_append_zeros, trimZeros_append]

theorem length_trimZeros_le (digits : List Char) : (trimZeros digits).length ≤ digits.length :=
  (List.rdropWhile_prefix _ _).length_le

theorem trimZeros_ne_nil {n : ℕ} (h : n ≠ 0) : trimZeros (Nat.toDigits 10 n) ≠ [] := by
  intro hnil
  have hvalue := trimZeros_value (Nat.toDigits 10 n)
  rw [hnil, digitsValue_toDigits] at hvalue
  exact h (by simpa [digitsValue] using hvalue.symm)

def AllDigits (text : List Char) : Prop := ∀ c ∈ text, c.isDigit = true

theorem AllDigits.toDigits (n : ℕ) : AllDigits (Nat.toDigits 10 n) :=
  fun _ => Nat.isDigit_of_mem_toDigits (by decide) (by decide)

theorem AllDigits.trimZeros {digits : List Char} (h : AllDigits digits) :
    AllDigits (trimZeros digits) :=
  fun c hc => h c ((List.rdropWhile_prefix _ _).mem hc)

theorem AllDigits.append {l m : List Char} (hl : AllDigits l) (hm : AllDigits m) :
    AllDigits (l ++ m) :=
  fun c hc => (List.mem_append.mp hc).elim (hl c) (hm c)

theorem AllDigits.zero : AllDigits ['0'] := by
  intro c hc
  rw [List.mem_singleton.mp hc]
  decide

theorem AllDigits.zeros (k : ℕ) : AllDigits (List.replicate k '0') := by
  intro c hc
  rw [List.eq_of_mem_replicate hc]
  decide

/-- The text before a mark, and the text behind it. -/
def splitAtMark (mark : Char) (text : List Char) : List Char × List Char :=
  (text.takeWhile (· ≠ mark), (text.dropWhile (· ≠ mark)).tail)

theorem splitAtMark_mark {mark : Char} {l : List Char} (m : List Char) (h : mark ∉ l) :
    splitAtMark mark (l ++ mark :: m) = (l, m) := by
  have hl : ∀ c ∈ l, decide (c ≠ mark) = true := by
    intro c hc
    simpa using fun heq : c = mark => h (heq ▸ hc)
  rw [splitAtMark, List.takeWhile_append_of_pos hl, List.dropWhile_append_of_pos hl]
  simp

theorem splitAtMark_none {mark : Char} {l : List Char} (h : mark ∉ l) :
    splitAtMark mark l = (l, []) := by
  have hl : ∀ c ∈ l, decide (c ≠ mark) = true := by
    intro c hc
    simpa using fun heq : c = mark => h (heq ▸ hc)
  simp only [splitAtMark, List.takeWhile_eq_self_iff.mpr hl, List.dropWhile_eq_nil_iff.mpr hl,
    List.tail_nil]

theorem AllDigits.notMem {digits : List Char} {c : Char} (h : AllDigits digits)
    (hc : c.isDigit = false) : c ∉ digits := by
  intro hmem
  rw [h c hmem] at hc
  exact Bool.noConfusion hc

def readDecimal (text : List Char) : ℚ :=
  let (mantissa, exponent) := splitAtMark 'e' text
  let (whole, decimals) := splitAtMark '.' mantissa
  let digits : ℚ := digitsValue (whole ++ decimals)
  match exponent with
  | [] => digits / 10 ^ decimals.length
  | '-' :: exponent => digits / 10 ^ (decimals.length + digitsValue exponent)
  | _ :: exponent => digits * 10 ^ digitsValue exponent / 10 ^ decimals.length

theorem readDecimal_point {whole decimals : List Char} (hwhole : AllDigits whole)
    (hdecimals : AllDigits decimals) :
    readDecimal (whole ++ '.' :: decimals) =
      digitsValue (whole ++ decimals) / 10 ^ decimals.length := by
  have hmark : 'e' ∉ whole ++ '.' :: decimals := by
    have hwhole' := hwhole.notMem (c := 'e') (by decide)
    have hdecimals' := hdecimals.notMem (c := 'e') (by decide)
    simp [hwhole', hdecimals']
  simp only [readDecimal, splitAtMark_none hmark,
    splitAtMark_mark decimals (hwhole.notMem (c := '.') (by decide))]

/-- The first digit before the point and the others behind it. -/
def mantissaText : List Char → List Char
  | [] => []
  | [d] => [d]
  | d :: ds => d :: '.' :: ds

theorem splitAtMark_mantissa {digits : List Char} (h : AllDigits digits) :
    splitAtMark '.' (mantissaText digits) = (digits.take 1, digits.drop 1) := by
  match digits with
  | [] => rfl
  | [d] => exact splitAtMark_none (h.notMem (by decide))
  | d :: e :: ds =>
      have hd : AllDigits [d] := fun c hc => h c (by simp_all)
      exact splitAtMark_mark (e :: ds) (hd.notMem (c := '.') (by decide))

theorem mantissa_notMem {digits : List Char} (h : AllDigits digits) :
    'e' ∉ mantissaText digits := by
  have he := h.notMem (c := 'e') (by decide)
  match digits with
  | [] => exact he
  | [d] => exact he
  | d :: e :: ds =>
      simp only [List.mem_cons, not_or] at he
      simp [mantissaText, he]

theorem exponentText_eq (digits : List Char) (sign : Char) (exponent : ℕ) :
    exponentText digits sign exponent = mantissaText digits ++ 'e' :: sign ::
      (if exponent < 10 then '0' :: Nat.toDigits 10 exponent else Nat.toDigits 10 exponent) := rfl

theorem exponent_value (exponent : ℕ) :
    digitsValue (if exponent < 10 then '0' :: Nat.toDigits 10 exponent
      else Nat.toDigits 10 exponent) = exponent := by
  split
  · exact (digitsValue_zeros_append 1 _).trans (digitsValue_toDigits exponent)
  · exact digitsValue_toDigits exponent

theorem readDecimal_exponent {digits : List Char} {sign : Char} (exponent : ℕ)
    (h : AllDigits digits) :
    readDecimal (exponentText digits sign exponent) =
      if sign = '-' then (digitsValue digits : ℚ) / 10 ^ (digits.length - 1 + exponent)
      else (digitsValue digits : ℚ) * 10 ^ exponent / 10 ^ (digits.length - 1) := by
  rw [exponentText_eq]
  simp only [readDecimal, splitAtMark_mark _ (mantissa_notMem h), splitAtMark_mantissa h,
    List.take_append_drop, List.length_drop]
  split
  next heq => simp at heq
  next heq =>
    obtain ⟨rfl, rfl⟩ := List.cons.inj heq
    simp [exponent_value]
  next hsign heq =>
    obtain ⟨rfl, rfl⟩ := List.cons.inj heq
    simp only [exponent_value, if_neg (show ¬sign = '-' from hsign)]

/-- Zeros at the end of the digits against decimals. -/
theorem div_ten_pow_sub {value zeros places : ℕ} (h : zeros ≤ places) :
    (value : ℚ) / 10 ^ (places - zeros) = ((value * 10 ^ zeros : ℕ) : ℚ) / 10 ^ places := by
  have hpow : (10 : ℚ) ^ places = 10 ^ zeros * 10 ^ (places - zeros) := by
    rw [← pow_add, Nat.add_sub_cancel' h]
  rw [div_eq_div_iff (by positivity) (by positivity), hpow]
  push_cast
  ring

/-- A number in the notation with a point, smaller than one. -/
theorem readDecimal_fraction {digits : List Char} {places : ℕ} (h : AllDigits digits)
    (hlength : digits.length ≤ places) :
    readDecimal ('0' :: '.' ::
      (List.replicate (places - digits.length) '0' ++ trimZeros digits)) =
        digitsValue digits / 10 ^ places := by
  have hzeros : AllDigits ['0'] := AllDigits.zero
  have hvalue : digitsValue (['0'] ++ (List.replicate (places - digits.length) '0' ++
      trimZeros digits)) = digitsValue (trimZeros digits) := by
    rw [show ['0'] = List.replicate 1 '0' from rfl, digitsValue_zeros_append,
      digitsValue_zeros_append]
  have hread := readDecimal_point hzeros
    ((AllDigits.zeros (places - digits.length)).append h.trimZeros)
  have htrim := length_trimZeros_le digits
  rw [hvalue, List.length_append, List.length_replicate, show places - digits.length +
    (trimZeros digits).length = places - (digits.length - (trimZeros digits).length) by omega,
    div_ten_pow_sub (by omega), trimZeros_value] at hread
  exact hread

theorem readDecimal_decimals {whole decimals : List Char} (hwhole : AllDigits whole)
    (hdecimals : AllDigits decimals) :
    readDecimal (whole ++ '.' :: (if trimZeros decimals = [] then ['0'] else trimZeros decimals)) =
      digitsValue (whole ++ decimals) / 10 ^ decimals.length := by
  have htrim := trimZeros_append decimals
  have hlength := length_trimZeros_le decimals
  have hwholeValue : digitsValue (whole ++ trimZeros decimals) *
      10 ^ (decimals.length - (trimZeros decimals).length) = digitsValue (whole ++ decimals) := by
    rw [← digitsValue_append_zeros, List.append_assoc, htrim]
  split
  next hnil =>
    rw [hnil, List.append_nil, List.length_nil, Nat.sub_zero] at hwholeValue
    rw [readDecimal_point hwhole AllDigits.zero, ← hwholeValue,
      show ['0'] = List.replicate 1 '0' from rfl, digitsValue_append_zeros, List.length_replicate]
    push_cast
    rw [pow_one, mul_div_cancel_right₀ _ (by norm_num), mul_div_cancel_right₀ _ (by positivity)]
  next =>
    rw [readDecimal_point hwhole hdecimals.trimZeros, ← hwholeValue, ← div_ten_pow_sub (by omega),
      Nat.sub_sub_self hlength]

theorem readDecimal_text (places n : ℕ) : readDecimal (decimalText places n) = n / 10 ^ places := by
  have hdigits := AllDigits.toDigits n
  have hvalue := digitsValue_toDigits n
  unfold decimalText
  by_cases hn : n = 0
  · rw [hn, if_pos rfl, show ['0', '.', '0'] = ['0'] ++ '.' :: ['0'] from rfl,
      readDecimal_point AllDigits.zero AllDigits.zero]
    have hzero : digitsValue (['0'] ++ ['0']) = 0 := by decide
    rw [hzero, Nat.cast_zero, zero_div, zero_div]
  have hpos := List.length_pos_iff.mpr (trimZeros_ne_nil hn)
  simp only [hn, if_false]
  generalize Nat.toDigits 10 n = digits at hdigits hvalue hpos ⊢
  have htrim := trimZeros_value digits
  have hlength := length_trimZeros_le digits
  rw [hvalue] at htrim
  split
  · rw [readDecimal_exponent _ hdigits.trimZeros, if_pos rfl, ← htrim, show
      (trimZeros digits).length - 1 + (places + 1 - digits.length) =
        places - (digits.length - (trimZeros digits).length) by omega, div_ten_pow_sub (by omega)]
  split
  · have hpow : (10 : ℚ) ^ (digits.length - places - 1) * 10 ^ places =
        10 ^ (digits.length - (trimZeros digits).length) *
          10 ^ ((trimZeros digits).length - 1) := by
      rw [← pow_add, ← pow_add]
      congr 1
      omega
    rw [readDecimal_exponent _ hdigits.trimZeros, if_neg (by decide), ← htrim,
      div_eq_div_iff (by positivity) (by positivity), mul_assoc, hpow]
    push_cast
    ring
  split
  · rw [readDecimal_fraction hdigits ‹_›, hvalue]
  · have hdrop : (digits.drop (digits.length - places)).length = places := by
      rw [List.length_drop]
      omega
    rw [readDecimal_decimals (fun c hc => hdigits c (List.mem_of_mem_take hc))
      (fun c hc => hdigits c (List.mem_of_mem_drop hc)), List.take_append_drop, hdrop, hvalue]

/-! ## Texts of numbers -/

def isNumberChar (c : Char) : Bool := c.isDigit || c = '-' || c = '+' || c = '.' || c = 'e'

/-- A text of digits, signs and marks that starts with a digit and has a point or an exponent. -/
structure FloatShaped (text : List Char) : Prop where
  chars : ∀ c ∈ text, isNumberChar c = true
  marked : ∃ c ∈ text, c = '.' ∨ c = 'e'
  head : ∃ d rest, text = d :: rest ∧ d.isDigit = true

theorem AllDigits.numberChars {digits : List Char} (h : AllDigits digits) :
    ∀ c ∈ digits, isNumberChar c = true := by
  intro c hc
  simp [isNumberChar, h c hc]

theorem floatShaped_point {whole decimals : List Char} (hwhole : AllDigits whole)
    (hne : whole ≠ []) (hdecimals : AllDigits decimals) :
    FloatShaped (whole ++ '.' :: decimals) where
  chars := by
    intro c hc
    rcases List.mem_append.mp hc with hc | hc
    · exact hwhole.numberChars c hc
    · rcases List.mem_cons.mp hc with rfl | hc
      · decide
      · exact hdecimals.numberChars c hc
  marked := ⟨'.', by simp, .inl rfl⟩
  head := by
    obtain ⟨d, rest, rfl⟩ := List.exists_cons_of_ne_nil hne
    exact ⟨d, rest ++ '.' :: decimals, rfl, hwhole d List.mem_cons_self⟩

theorem mantissaText_chars {digits : List Char} (h : AllDigits digits) :
    ∀ c ∈ mantissaText digits, isNumberChar c = true := by
  have hdigits := h.numberChars
  match digits with
  | [] => exact hdigits
  | [d] => exact hdigits
  | d :: e :: ds =>
      have hmark : isNumberChar '.' = true := by decide
      simp_all [mantissaText]

theorem floatShaped_exponent {digits : List Char} {sign : Char} (exponent : ℕ)
    (h : AllDigits digits) (hne : digits ≠ []) (hsign : isNumberChar sign = true) :
    FloatShaped (exponentText digits sign exponent) where
  chars := by
    have hexponent : AllDigits (if exponent < 10 then '0' :: Nat.toDigits 10 exponent
        else Nat.toDigits 10 exponent) := by
      split
      · exact AllDigits.zero.append (AllDigits.toDigits exponent)
      · exact AllDigits.toDigits exponent
    intro c hc
    rw [exponentText_eq] at hc
    simp only [List.mem_append, List.mem_cons] at hc
    rcases hc with hc | rfl | rfl | hc
    · exact mantissaText_chars h c hc
    · decide
    · exact hsign
    · exact hexponent.numberChars c hc
  marked := ⟨'e', by simp [exponentText_eq], .inr rfl⟩
  head := by
    rw [exponentText_eq]
    match digits with
    | [] => exact absurd rfl hne
    | [d] => exact ⟨d, _, rfl, h d List.mem_cons_self⟩
    | d :: e :: ds => exact ⟨d, _, rfl, h d List.mem_cons_self⟩

theorem decimalText_shaped (places n : ℕ) : FloatShaped (decimalText places n) := by
  have hdigits := AllDigits.toDigits n
  unfold decimalText
  by_cases hn : n = 0
  · rw [hn, if_pos rfl]
    exact floatShaped_point AllDigits.zero (List.cons_ne_nil _ _) AllDigits.zero
  have hne := trimZeros_ne_nil hn
  simp only [hn, if_false]
  generalize Nat.toDigits 10 n = digits at hdigits hne ⊢
  split
  · exact floatShaped_exponent _ hdigits.trimZeros hne (by decide)
  split
  · exact floatShaped_exponent _ hdigits.trimZeros hne (by decide)
  split
  · exact floatShaped_point AllDigits.zero (List.cons_ne_nil _ _)
      ((AllDigits.zeros _).append hdigits.trimZeros)
  · refine floatShaped_point (fun c hc => hdigits c (List.mem_of_mem_take hc)) ?_ ?_
    · rw [← List.length_pos_iff, List.length_take]
      omega
    · have hdrop : AllDigits (digits.drop (digits.length - places)) :=
        fun c hc => hdigits c (List.mem_of_mem_drop hc)
      split
      · exact AllDigits.zero
      · exact hdrop.trimZeros

/-! ## Atoms can be read back -/

def readSign : List Char → Bool × List Char
  | '-' :: text => (true, text)
  | text => (false, text)

def signed (negative : Bool) (n : ℕ) : ℤ := if negative then -n else n

theorem signed_natAbs (n : ℤ) : signed (decide (n < 0)) n.natAbs = n := by
  by_cases hn : n < 0
  · simp only [signed, hn, decide_true, if_true]
    omega
  · simp only [signed, hn, decide_false, Bool.false_eq_true, if_false]
    omega

theorem readSign_digit {d : Char} (rest : List Char) (h : d.isDigit = true) :
    readSign (d :: rest) = (false, d :: rest) := by
  unfold readSign
  split
  next heq =>
    obtain ⟨rfl, rfl⟩ := List.cons.inj heq
    exact absurd h (by decide)
  next => rfl

def readWord (text : List Char) : JsonValue :=
  if text = "true".toList then .bool true
  else if text = "false".toList then .bool false
  else if text = "Infinity".toList then .float (.infinity false)
  else if text = "-Infinity".toList then .float (.infinity true)
  else if text = "NaN".toList then .float .nan
  else .null

def readAtom (text : List Char) : JsonValue :=
  let (negative, number) := readSign text
  if text.all isNumberChar then
    if text.any fun c => c = '.' || c = 'e' then
      .float (.finite (if negative then -readDecimal number else readDecimal number))
    else .int (signed negative (digitsValue number))
  else readWord text

theorem readSign_signed {n : ℤ} {text : List Char}
    (h : ∃ d rest, text = d :: rest ∧ d.isDigit = true) :
    readSign (if n < 0 then '-' :: text else text) = (decide (n < 0), text) := by
  obtain ⟨d, rest, rfl, hd⟩ := h
  split
  next hn => simp [readSign, hn]
  next hn => rw [readSign_digit rest hd, decide_eq_false hn]

theorem signed_chars {n : ℤ} {text : List Char} (h : ∀ c ∈ text, isNumberChar c = true) :
    (if n < 0 then '-' :: text else text).all isNumberChar = true := by
  have hsign : isNumberChar '-' = true := by decide
  split
  · rw [List.all_cons, hsign, List.all_eq_true.mpr h]
    rfl
  · exact List.all_eq_true.mpr h

theorem signed_ne_nil {n : ℤ} {text : List Char} (h : text ≠ []) :
    (if n < 0 then '-' :: text else text) ≠ [] := by
  split
  · exact List.cons_ne_nil _ _
  · exact h

theorem readAtom_int (n : ℤ) : readAtom (intText n) = .int n := by
  have hdigits := AllDigits.toDigits n.natAbs
  obtain ⟨d, rest, hcons⟩ := List.exists_cons_of_ne_nil (@Nat.toDigits_ne_nil n.natAbs 10)
  have hhead : d.isDigit = true := hdigits d (hcons ▸ List.mem_cons_self)
  have hmarks : (intText n).any (fun c => c = '.' || c = 'e') = false := by
    rw [List.any_eq_false]
    intro c hc hmark
    have hc' : c = '-' ∨ c ∈ Nat.toDigits 10 n.natAbs := by
      unfold intText at hc
      split at hc
      · exact List.mem_cons.mp hc
      · exact .inr hc
    rcases hc' with rfl | hc'
    · exact absurd hmark (by decide)
    · have hdigit := hdigits c hc'
      simp only [Bool.or_eq_true, decide_eq_true_eq] at hmark
      rcases hmark with rfl | rfl
      · exact absurd hdigit (by decide)
      · exact absurd hdigit (by decide)
  have hsign : readSign (intText n) = (decide (n < 0), Nat.toDigits 10 n.natAbs) :=
    readSign_signed ⟨d, rest, hcons, hhead⟩
  have hall : (intText n).all isNumberChar = true := signed_chars hdigits.numberChars
  simp [readAtom, hsign, hall, hmarks, digitsValue_toDigits, signed_natAbs]

/-- The places that are written are enough for a number with finitely many decimals. -/
theorem decimalPlaces_spec {q : ℚ} {places : ℕ} (h : q.den ∣ 10 ^ places) :
    q.den ∣ 10 ^ decimalPlaces q := by
  have hbounded : q.den ∣ 10 ^ (q.den - 1) := by
    rw [← Nat.factorization_le_iff_dvd q.den_ne_zero (by positivity)] at h ⊢
    intro prime
    have hprime := h prime
    have hfew := Nat.factorization_lt prime q.den_ne_zero
    simp only [Nat.factorization_pow, Finsupp.smul_apply, smul_eq_mul] at hprime ⊢
    cases hten : (10 : ℕ).factorization prime with
    | zero =>
        rw [hten, Nat.mul_zero] at hprime
        omega
    | succ m =>
        have hle := Nat.le_mul_of_pos_right (q.den - 1) (show 0 < m + 1 by omega)
        omega
  have hden := q.den_pos
  cases hfound : (List.range q.den).find? fun p => 10 ^ p % q.den = 0 with
  | none =>
      have hnone := List.find?_eq_none.mp hfound (q.den - 1) (List.mem_range.mpr (by omega))
      exact absurd (decide_eq_true (Nat.dvd_iff_mod_eq_zero.mp hbounded)) hnone
  | some p =>
      have hp := List.find?_some hfound
      rw [decimalPlaces, hfound]
      exact Nat.dvd_of_mod_eq_zero (of_decide_eq_true hp)

theorem den_dvd_of_decimal (n : ℤ) (places : ℕ) : ((n / 10 ^ places : ℚ)).den ∣ 10 ^ places := by
  have hden := Rat.den_dvd n (10 ^ places)
  rw [Rat.divInt_eq_div] at hden
  exact_mod_cast hden

/-- A number with finitely many decimals is written as one over a power of ten. -/
theorem floatText_decimal (n : ℤ) (places : ℕ) : ∃ (m : ℤ) (places' : ℕ),
    (n / 10 ^ places : ℚ) = m / 10 ^ places' ∧ floatText (.finite (n / 10 ^ places)) =
      if m < 0 then '-' :: decimalText places' m.natAbs else decimalText places' m.natAbs := by
  generalize hq : (n / 10 ^ places : ℚ) = q
  obtain ⟨factor, hfactor⟩ := decimalPlaces_spec (hq ▸ den_dvd_of_decimal n places)
  refine ⟨(q * 10 ^ decimalPlaces q).num, decimalPlaces q, ?_, rfl⟩
  have hinteger : q * 10 ^ decimalPlaces q = ((q.num * factor : ℤ) : ℚ) := by
    have hcast : (10 : ℚ) ^ decimalPlaces q = q.den * factor := by exact_mod_cast hfactor
    rw [hcast, ← mul_assoc, Rat.mul_den_eq_num]
    push_cast
    ring
  rw [hinteger, Rat.num_intCast, ← hinteger, mul_div_cancel_right₀ _ (by positivity)]

theorem readAtom_decimal (n : ℤ) (places : ℕ) :
    readAtom (floatText (.finite (n / 10 ^ places))) = .float (.finite (n / 10 ^ places)) ∧
      floatText (.finite (n / 10 ^ places)) ≠ [] ∧
        (floatText (.finite (n / 10 ^ places))).all isNumberChar = true := by
  obtain ⟨m, places', hvalue, htext⟩ := floatText_decimal n places
  have hshape := decimalText_shaped places' m.natAbs
  have hmarks : (floatText (.finite (n / 10 ^ places))).any
    (fun c => c = '.' || c = 'e') = true := by
    obtain ⟨c, hc, hmark⟩ := hshape.marked
    rw [List.any_eq_true, htext]
    refine ⟨c, ?_, by simpa using hmark⟩
    split
    · exact List.mem_cons_of_mem _ hc
    · exact hc
  have hsign : readSign (floatText (.finite (n / 10 ^ places))) =
      (decide (m < 0), decimalText places' m.natAbs) := by
    rw [htext]
    exact readSign_signed hshape.head
  have hall : (floatText (.finite (n / 10 ^ places))).all isNumberChar = true := by
    rw [htext]
    exact signed_chars hshape.chars
  have hread : (if decide (m < 0) = true then -((m.natAbs : ℚ) / 10 ^ places')
      else (m.natAbs : ℚ) / 10 ^ places') = n / 10 ^ places := by
    rw [hvalue, Nat.cast_natAbs]
    by_cases hm : m < 0
    · rw [if_pos (decide_eq_true hm), abs_of_neg hm]
      push_cast
      ring
    · rw [if_neg (by simpa using hm), abs_of_nonneg (not_lt.mp hm)]
  refine ⟨?_, ?_, hall⟩
  · simp only [readAtom, hsign, hall, hmarks, if_true, readDecimal_text, hread]
  · obtain ⟨d, rest, hcons, -⟩ := hshape.head
    rw [htext]
    exact signed_ne_nil (by simp [hcons])

/-! ## Values can be read in one way -/

/-- Values whose floats have finitely many decimals. -/
inductive Decimal : JsonValue → Prop
  | null : Decimal .null
  | bool (b : Bool) : Decimal (.bool b)
  | int (n : ℤ) : Decimal (.int n)
  | finite (n : ℤ) (places : ℕ) : Decimal (.float (.finite (n / 10 ^ places)))
  | infinity (negative : Bool) : Decimal (.float (.infinity negative))
  | nan : Decimal (.float .nan)
  | str (s : String) : Decimal (.str s)
  | list (xs : List JsonValue) : (∀ x ∈ xs, Decimal x) → Decimal (.list xs)
  | dict (fields : JsonObject) : (∀ field ∈ fields, Decimal field.2) → Decimal (.dict fields)

/-- What the first character of a text says about its value. -/
inductive Kind where
  | atom | string | list | object | closing
  deriving DecidableEq

def Kind.ofChar : Char → Kind
  | '"' => .string
  | '[' => .list
  | '{' => .object
  | ']' => .closing
  | '}' => .closing
  | ',' => .closing
  | _ => .atom

def Kind.ofValue : JsonValue → Kind
  | .str _ => .string
  | .list _ => .list
  | .dict _ => .object
  | _ => .atom

def isAtomChar (c : Char) : Bool := c.isAlphanum || c = '-' || c = '+' || c = '.'

def Follows (s : List Char) : Prop := ∀ c ∈ s.head?, isAtomChar c = false

theorem Kind.ofChar_atom {c : Char} (h : isAtomChar c = true) : Kind.ofChar c = .atom := by
  unfold Kind.ofChar
  split <;> first | rfl | exact absurd h (by decide)

theorem isAtomChar_of_number {c : Char} (h : isNumberChar c = true) : isAtomChar c = true := by
  simp only [isNumberChar, Bool.or_eq_true, decide_eq_true_eq] at h
  rcases h with (((h | rfl) | rfl) | rfl) | rfl
  · simp [isAtomChar, Char.isAlphanum, h]
  all_goals decide

/-- The texts of the values that are not strings, lists or objects. -/
theorem atomText {v : JsonValue} (h : Decimal v) (hkind : Kind.ofValue v = .atom) :
    readAtom (valueText v) = v ∧ valueText v ≠ [] ∧
      ∀ c ∈ valueText v, isAtomChar c = true := by
  cases h with
  | null => exact ⟨rfl, by decide, List.all_eq_true.mp (by decide)⟩
  | bool b =>
      cases b
      · exact ⟨rfl, by decide, List.all_eq_true.mp (by decide)⟩
      · exact ⟨rfl, by decide, List.all_eq_true.mp (by decide)⟩
  | int n =>
      have hchars : (intText n).all isNumberChar = true :=
        signed_chars (AllDigits.toDigits n.natAbs).numberChars
      exact ⟨readAtom_int n, signed_ne_nil Nat.toDigits_ne_nil,
        fun c hc => isAtomChar_of_number (List.all_eq_true.mp hchars c hc)⟩
  | finite n places =>
      obtain ⟨hread, hne, hchars⟩ := readAtom_decimal n places
      exact ⟨hread, hne, fun c hc => isAtomChar_of_number (List.all_eq_true.mp hchars c hc)⟩
  | infinity negative =>
      cases negative
      · exact ⟨rfl, by decide, List.all_eq_true.mp (by decide)⟩
      · exact ⟨rfl, by decide, List.all_eq_true.mp (by decide)⟩
  | nan => exact ⟨rfl, by decide, List.all_eq_true.mp (by decide)⟩
  | str s => cases hkind
  | list xs _ => cases hkind
  | dict fields _ => cases hkind

theorem valueText_start {v : JsonValue} (h : Decimal v) :
    ∃ c rest, valueText v = c :: rest ∧ Kind.ofChar c = Kind.ofValue v := by
  have hatom : Kind.ofValue v = .atom →
      ∃ c rest, valueText v = c :: rest ∧ Kind.ofChar c = Kind.ofValue v := by
    intro hkind
    obtain ⟨-, hne, hchars⟩ := atomText h hkind
    obtain ⟨c, rest, hcons⟩ := List.exists_cons_of_ne_nil hne
    exact ⟨c, rest, hcons,
      (Kind.ofChar_atom (hchars c (hcons ▸ List.mem_cons_self))).trans hkind.symm⟩
  cases v with
  | str s => exact ⟨'"', _, rfl, rfl⟩
  | list xs => exact ⟨'[', _, by rw [valueText], rfl⟩
  | dict fields => exact ⟨'{', _, by rw [valueText], rfl⟩
  | _ => exact hatom rfl

theorem kind_eq {v w : JsonValue} {s t : List Char} (hv : Decimal v) (hw : Decimal w)
    (heq : valueText v ++ s = valueText w ++ t) : Kind.ofValue v = Kind.ofValue w := by
  obtain ⟨c, rest, hc, hkind⟩ := valueText_start hv
  obtain ⟨d, rest', hd, hkind'⟩ := valueText_start hw
  rw [hc, hd] at heq
  rw [← hkind, ← hkind', (List.cons.inj heq).1]

theorem valueTexts_eq (xs : List JsonValue) : valueTexts xs = xs.map valueText := by
  induction xs with
  | nil => rw [valueTexts, List.map_nil]
  | cons x xs ih => rw [valueTexts, ih, List.map_cons]

theorem fieldTexts_eq (fields : JsonObject) :
    fieldTexts fields = fields.map fun field => stringText field.1 ++ ':' :: valueText field.2 := by
  induction fields with
  | nil => rw [fieldTexts, List.map_nil]
  | cons field fields ih => rw [fieldTexts, ih, List.map_cons]

theorem atom_readable {v : JsonValue} (h : Decimal v) (hkind : Kind.ofValue v = .atom) :
    ReadableAt Decimal Follows valueText v := by
  intro w s t hw hs ht heq
  have hkind' : Kind.ofValue w = .atom := (kind_eq h hw heq).symm.trans hkind
  obtain ⟨hread, -, hchars⟩ := atomText h hkind
  obtain ⟨hread', -, hchars'⟩ := atomText hw hkind'
  obtain ⟨htext, hrest⟩ := append_eq_of_class hchars hchars' hs ht heq
  exact ⟨by rw [← hread, htext, hread'], hrest⟩

/-- The text of a value is the text of that value only. -/
theorem valueText_readable {v : JsonValue} (h : Decimal v) :
    ReadableAt Decimal Follows valueText v := by
  have hopen : ∀ c, c = ',' ∨ c = ']' ∨ c = '}' → ∀ s, Follows (c :: s) := by
    rintro c (rfl | rfl | rfl) s d hd
    all_goals
      obtain rfl : _ = d := Option.some.inj hd
      decide
  induction h with
  | str s =>
      intro w u t hw _ _ heq
      have hkind := kind_eq (.str s) hw heq
      cases hw with
      | str r =>
          obtain ⟨rfl, rfl⟩ := stringText_readable s r u t trivial trivial trivial heq
          exact ⟨rfl, rfl⟩
      | _ => cases hkind
  | list xs hxs ih =>
      intro w u t hw _ _ heq
      have hkind := kind_eq (.list xs hxs) hw heq
      cases hw with
      | list ys hys =>
          have hstart : ∀ v, Decimal v → ∃ c rest, valueText v = c :: rest ∧ c ≠ ']' := by
            intro v hv
            obtain ⟨c, rest, hcons, hkind⟩ := valueText_start hv
            refine ⟨c, rest, hcons, ?_⟩
            rintro rfl
            cases hv <;> cases hkind
          have hread := readableAt_separated (by decide) (hopen ',' (.inl rfl))
            (hopen ']' (.inr (.inl rfl))) hstart fun x hx => ⟨hxs x hx, ih x hx⟩
          simp only [valueText, valueTexts_eq] at heq
          obtain ⟨rfl, rfl⟩ := hread ys u t hys trivial trivial (List.cons.inj heq).2
          exact ⟨rfl, rfl⟩
      | _ => cases hkind
  | dict fields hfields ih =>
      intro w u t hw _ _ heq
      have hkind := kind_eq (.dict fields hfields) hw heq
      cases hw with
      | dict others hothers =>
          have hfield : ∀ field ∈ fields, ReadableAt (fun f => True ∧ Decimal f.2) Follows
              (fun f : String × JsonValue => stringText f.1 ++ ':' :: valueText f.2) field :=
            fun field hmem => (stringText_readable field.1).pair ':' (ih field hmem)
          have hread := readableAt_separated (by decide) (hopen ',' (.inl rfl))
            (hopen '\x7d' (.inr (.inr rfl)))
            (fun f _ => ⟨'"', _, by rw [stringText]; rfl, by decide⟩)
            fun field hmem => ⟨⟨trivial, hfields field hmem⟩, hfield field hmem⟩
          simp only [valueText, fieldTexts_eq] at heq
          obtain ⟨rfl, rfl⟩ :=
            hread others u t (fun f hf => ⟨trivial, hothers f hf⟩) trivial trivial
            (List.cons.inj heq).2
          exact ⟨rfl, rfl⟩
      | _ => cases hkind
  | _ => exact atom_readable (by constructor) rfl

/-! ## Texts of values -/

theorem sortKeysAll_eq (xs : List JsonValue) : sortKeysAll xs = xs.map sortKeys := by
  induction xs with
  | nil => rw [sortKeysAll, List.map_nil]
  | cons x xs ih => rw [sortKeysAll, ih, List.map_cons]

theorem sortKeysFields_eq (fields : JsonObject) :
    sortKeysFields fields = fields.map fun field => (field.1, sortKeys field.2) := by
  induction fields with
  | nil => rw [sortKeysFields, List.map_nil]
  | cons field fields ih => rw [sortKeysFields, ih, List.map_cons]

theorem decimal_sortKeys {v : JsonValue} (h : Decimal v) : Decimal (sortKeys v) := by
  induction h with
  | list xs _ ih =>
      rw [sortKeys, sortKeysAll_eq]
      refine .list _ fun x hx => ?_
      obtain ⟨y, hy, rfl⟩ := List.mem_map.mp hx
      exact ih y hy
  | dict fields _ ih =>
      rw [sortKeys, sortKeysFields_eq]
      refine .dict _ fun field hfield => ?_
      obtain ⟨original, horiginal, rfl⟩ := List.mem_map.mp (List.mem_mergeSort.mp hfield)
      exact ih original horiginal
  | _ =>
      rw [sortKeys]
      constructor

/-- Values with one text are the same value up to the order of the fields. -/
theorem sortKeys_eq_of_dumps {v w : JsonValue} (hv : Decimal v) (hw : Decimal w)
    (h : dumps v = dumps w) : sortKeys v = sortKeys w := by
  have hnil : Follows [] := fun c hc => absurd hc (by simp)
  exact (valueText_readable (decimal_sortKeys hv)).eq hnil (decimal_sortKeys hw)
    (String.ofList_injective h)

theorem sortFields_idem (fields : JsonObject) :
    sortFields (sortFields fields) = sortFields fields := by
  refine List.mergeSort_of_pairwise (List.pairwise_mergeSort ?_ ?_ fields)
  · intro a b c hab hbc
    simp only [decide_eq_true_eq] at hab hbc ⊢
    exact hab.trans hbc
  · intro a b
    simpa using le_total a.1 b.1

end JsonReading
