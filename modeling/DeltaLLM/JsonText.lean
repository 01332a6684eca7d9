import DeltaLLM.JsonValues
import DeltaLLM.UniqueReading
import Mathlib.Algebra.Order.Floor.Ring
import Mathlib.Data.List.DropRight
import Mathlib.Data.Rat.Floor
import Mathlib.Data.String.Basic

/-! # JSON texts as Python writes them

`json.dumps` with sorted keys, the separators `,` and `:` and ASCII output. A float is the decimal
number that `repr` writes for it; there is no negative zero. Different values have different texts.
-/
namespace JsonText

open JsonValues
open UniqueReading

/-! ## Rounding -/

/-- The nearest integer, the even one of two. -/
def roundHalfEven (q : ℚ) : ℤ :=
  let r := q - ⌊q⌋
  if r < 1 / 2 then ⌊q⌋
  else if 1 / 2 < r then ⌊q⌋ + 1
  else if Even ⌊q⌋ then ⌊q⌋ else ⌊q⌋ + 1

/-- `round(x, 6)`. -/
def roundSix : JsonFloat → JsonFloat
  | .finite q => .finite (roundHalfEven (q * 10 ^ 6) / 10 ^ 6)
  | x => x

/-! ## Numbers -/

def intText (n : ℤ) : List Char :=
  if n < 0 then '-' :: Nat.toDigits 10 n.natAbs else Nat.toDigits 10 n.natAbs

def trimZeros (digits : List Char) : List Char := digits.rdropWhile (· = '0')

/-- `d.ddd` with a two digit exponent. -/
def exponentText (digits : List Char) (sign : Char) (exponent : ℕ) : List Char :=
  let mantissa := match digits with
    | [] => []
    | [d] => [d]
    | d :: ds => d :: '.' :: ds
  mantissa ++ 'e' :: sign ::
    (if exponent < 10 then '0' :: Nat.toDigits 10 exponent else Nat.toDigits 10 exponent)

/-- `repr` of `n / 10 ^ places`: exponents are written below 1e-04 and from 1e16 on. -/
def decimalText (places n : ℕ) : List Char :=
  let digits := Nat.toDigits 10 n
  let k := digits.length
  if n = 0 then ['0', '.', '0']
  else if k + 3 < places then exponentText (trimZeros digits) '-' (places + 1 - k)
  else if places + 16 < k then exponentText (trimZeros digits) '+' (k - places - 1)
  else if k ≤ places then '0' :: '.' :: (List.replicate (places - k) '0' ++ trimZeros digits)
  else
    let decimals := trimZeros (digits.drop (k - places))
    digits.take (k - places) ++ '.' :: (if decimals = [] then ['0'] else decimals)

/-- The decimals that a number needs, when it has finitely many. -/
def decimalPlaces (q : ℚ) : ℕ := ((List.range q.den).find? fun p => 10 ^ p % q.den = 0).getD 0

def floatText : JsonFloat → List Char
  | .finite q =>
      let places := decimalPlaces q
      let n : ℤ := (q * 10 ^ places).num
      if n < 0 then '-' :: decimalText places n.natAbs else decimalText places n.natAbs
  | .infinity negative => if negative then "-Infinity".toList else "Infinity".toList
  | .nan => "NaN".toList

/-! ## Strings -/

/-- The UTF-16 code units of a character. -/
def codeUnits (c : Char) : List (Fin 65536) :=
  if c.toNat < 65536 then [Fin.ofNat 65536 c.toNat]
  else [Fin.ofNat 65536 (0xD800 + (c.toNat - 65536) / 1024),
    Fin.ofNat 65536 (0xDC00 + (c.toNat - 65536) % 1024)]

def shortEscape (u : Fin 65536) : Option Char :=
  match u.val with
  | 34 => some '"'
  | 92 => some '\\'
  | 10 => some 'n'
  | 13 => some 'r'
  | 9 => some 't'
  | 12 => some 'f'
  | 8 => some 'b'
  | _ => none

def hexDigit (n : ℕ) : Char := Nat.digitChar (n % 16)

def unitText (u : Fin 65536) : List Char :=
  match shortEscape u with
  | some c => ['\\', c]
  | none =>
      if 32 ≤ u.val ∧ u.val ≤ 126 then [Char.ofNat u.val]
      else ['\\', 'u', hexDigit (u.val / 4096), hexDigit (u.val / 256), hexDigit (u.val / 16),
        hexDigit u.val]

def stringText (s : String) : List Char :=
  '"' :: (s.toList.flatMap fun c => (codeUnits c).flatMap unitText) ++ ['"']

/-! ## Values -/

def sortFields (fields : JsonObject) : JsonObject :=
  fields.mergeSort fun field other => decide (field.1 ≤ other.1)

mutual

/-- Every object with its fields in the order of their names. -/
def sortKeys : JsonValue → JsonValue
  | .null => .null
  | .bool b => .bool b
  | .int n => .int n
  | .float x => .float x
  | .str s => .str s
  | .list xs => .list (sortKeysAll xs)
  | .dict fields => .dict (sortFields (sortKeysFields fields))

def sortKeysAll : List JsonValue → List JsonValue
  | [] => []
  | x :: xs => sortKeys x :: sortKeysAll xs

def sortKeysFields : List (String × JsonValue) → List (String × JsonValue)
  | [] => []
  | (name, value) :: fields => (name, sortKeys value) :: sortKeysFields fields

end

mutual

def valueText : JsonValue → List Char
  | .null => "null".toList
  | .bool b => if b then "true".toList else "false".toList
  | .int n => intText n
  | .float x => floatText x
  | .str s => stringText s
  | .list xs => '[' :: ([','].intercalate (valueTexts xs) ++ [']'])
  | .dict fields => '{' :: ([','].intercalate (fieldTexts fields) ++ ['}'])

def valueTexts : List JsonValue → List (List Char)
  | [] => []
  | x :: xs => valueText x :: valueTexts xs

def fieldTexts : List (String × JsonValue) → List (List Char)
  | [] => []
  | (name, value) :: fields => (stringText name ++ ':' :: valueText value) :: fieldTexts fields

end

/-- `json.dumps(value, sort_keys=True, separators=(",", ":"))`. -/
def dumps (value : JsonValue) : String := String.ofList (valueText (sortKeys value))

example : dumps (.list [.str "a\n☃", .float (.finite (7 / 10)), .float (.finite (1 / 100000)),
    .float (.finite 2), .int (-3), .null]) = "[\"a\\n\\u2603\",0.7,1e-05,2.0,-3,null]" := by
  decide +kernel

/-! ## Strings can be read in one way -/

/-- The unit behind a short escape. -/
def shortUnit : Char → ℕ
  | '"' => 34
  | '\\' => 92
  | 'n' => 10
  | 'r' => 13
  | 't' => 9
  | 'f' => 12
  | 'b' => 8
  | _ => 0

theorem shortEscape_some {u : Fin 65536} {c : Char} (h : shortEscape u = some c) :
    u.val = shortUnit c ∧ c ≠ 'u' := by
  unfold shortEscape at h
  split at h <;> cases h <;> simp_all [shortUnit]

theorem shortEscape_none {u : Fin 65536} (h : shortEscape u = none) : u.val ≠ 34 ∧ u.val ≠ 92 := by
  unfold shortEscape at h
  constructor
  · intro hu
    simp [hu] at h
  · intro hu
    simp [hu] at h

theorem hexDigit_inj {m n : ℕ} (h : hexDigit m = hexDigit n) : m % 16 = n % 16 := by
  have hdigits : ∀ i < 16, ∀ j < 16, Nat.digitChar i = Nat.digitChar j → i = j := by decide
  exact hdigits _ (Nat.mod_lt _ (by decide)) _ (Nat.mod_lt _ (by decide)) h

theorem ofNat_inj {m n : ℕ} (hm : m ≤ 126) (hn : n ≤ 126) (h : Char.ofNat m = Char.ofNat n) :
    m = n := by
  have hchars : ∀ i < 127, (Char.ofNat i).toNat = i := by decide
  rw [← hchars m (by omega), h, hchars n (by omega)]

/-- A short escape is the code of no other unit. -/
theorem unitText_of_shortEscape {u v : Fin 65536} {c : Char} {s t : List Char}
    (hu : shortEscape u = some c) (heq : '\\' :: c :: s = unitText v ++ t) : u = v ∧ s = t := by
  unfold unitText at heq
  cases hv : shortEscape v with
  | some d =>
      simp only [hv, List.cons_append, List.nil_append, List.cons.injEq, true_and] at heq
      obtain ⟨rfl, hrest⟩ := heq
      exact ⟨Fin.ext ((shortEscape_some hu).1.trans (shortEscape_some hv).1.symm), hrest⟩
  | none =>
      simp only [hv] at heq
      split at heq
      next hprintable =>
        have hchar : Char.ofNat 92 = Char.ofNat v.val := (List.cons.inj heq).1
        exact absurd (ofNat_inj (by decide) hprintable.2 hchar).symm (shortEscape_none hv).2
      next => exact absurd (List.cons.inj (List.cons.inj heq).2).1 (shortEscape_some hu).2

theorem unitText_readable (u : Fin 65536) : ReadableAt (fun _ => True) Anything unitText u := by
  intro v s t _ _ _ heq
  cases hu : shortEscape u with
  | some c =>
      have hcode : unitText u = ['\\', c] := by simp [unitText, hu]
      rw [hcode] at heq
      exact unitText_of_shortEscape hu heq
  | none =>
      cases hv : shortEscape v with
      | some d =>
          have hcode : unitText v = ['\\', d] := by simp [unitText, hv]
          rw [hcode] at heq
          obtain ⟨hvalue, hrest⟩ := unitText_of_shortEscape hv heq.symm
          exact ⟨hvalue.symm, hrest.symm⟩
      | none =>
          simp only [unitText, hu, hv] at heq
          split at heq
          next hprintable =>
            split at heq
            next hprintable' =>
              obtain ⟨hchar, hrest⟩ := List.cons.inj heq
              exact ⟨Fin.ext (ofNat_inj hprintable.2 hprintable'.2 hchar), hrest⟩
            next =>
              have hchar : Char.ofNat u.val = Char.ofNat 92 := (List.cons.inj heq).1
              exact absurd (ofNat_inj hprintable.2 (by decide) hchar) (shortEscape_none hu).2
          next =>
            split at heq
            next hprintable =>
              have hchar : Char.ofNat 92 = Char.ofNat v.val := (List.cons.inj heq).1
              exact absurd (ofNat_inj (by decide) hprintable.2 hchar).symm (shortEscape_none hv).2
            next =>
              simp only [List.cons_append, List.nil_append, List.cons.injEq, true_and] at heq
              obtain ⟨h₁, h₂, h₃, h₄, hrest⟩ := heq
              have hvalue : u.val = v.val := by
                have := hexDigit_inj h₁
                have := hexDigit_inj h₂
                have := hexDigit_inj h₃
                have := hexDigit_inj h₄
                omega
              exact ⟨Fin.ext hvalue, hrest⟩

theorem unitText_start (u : Fin 65536) : ∃ c rest, unitText u = c :: rest ∧ c ≠ '"' := by
  unfold unitText
  split
  next c hshort => exact ⟨'\\', [c], rfl, by decide⟩
  next hshort =>
    split
    next hprintable =>
      refine ⟨Char.ofNat u.val, [], rfl, fun hquote => ?_⟩
      have hchar : Char.ofNat u.val = Char.ofNat 34 := hquote
      exact (shortEscape_none hshort).1 (ofNat_inj hprintable.2 (by decide) hchar)
    next => exact ⟨'\\', _, rfl, by decide⟩

theorem codeUnits_readable (c : Char) : ReadableAt (fun _ => True) Anything codeUnits c := by
  intro d s t _ _ _ heq
  have hc : c.toNat < 0xD800 ∨ 0xDFFF < c.toNat ∧ c.toNat < 0x110000 := c.valid
  have hd : d.toNat < 0xD800 ∨ 0xDFFF < d.toNat ∧ d.toNat < 0x110000 := d.valid
  have hvalue : ∀ m n : ℕ, Fin.ofNat 65536 m = Fin.ofNat 65536 n → m % 65536 = n % 65536 :=
    fun m n h => congrArg Fin.val h
  unfold codeUnits at heq
  split at heq
  · split at heq
    · simp only [List.cons_append, List.nil_append, List.cons.injEq] at heq
      have := hvalue _ _ heq.1
      exact ⟨Char.toNat_inj.mp (by omega), heq.2⟩
    · simp only [List.cons_append, List.nil_append, List.cons.injEq] at heq
      have := hvalue _ _ heq.1
      omega
  · split at heq
    · simp only [List.cons_append, List.nil_append, List.cons.injEq] at heq
      have := hvalue _ _ heq.1
      omega
    · simp only [List.cons_append, List.nil_append, List.cons.injEq] at heq
      have := hvalue _ _ heq.1
      have := hvalue _ _ heq.2.1
      exact ⟨Char.toNat_inj.mp (by omega), heq.2.2⟩

/-- A string in quotes is read in one way before anything. -/
theorem stringText_readable (s : String) : ReadableAt (fun _ => True) Anything stringText s := by
  have hchar : ∀ c, ReadableAt (fun _ => True) Anything
      (fun c => (codeUnits c).flatMap unitText) c := fun c =>
    (codeUnits_readable c).spell unitText_readable
  have hstart : ∀ c : Char, True → ∃ x rest,
      (codeUnits c).flatMap unitText = x :: rest ∧ x ≠ '"' := by
    intro c _
    unfold codeUnits
    split
    · obtain ⟨x, rest, hcode, hne⟩ := unitText_start (Fin.ofNat 65536 c.toNat)
      exact ⟨x, _, by rw [List.flatMap_cons, hcode]; rfl, hne⟩
    · obtain ⟨x, rest, hcode, hne⟩ :=
        unitText_start (Fin.ofNat 65536 (0xD800 + (c.toNat - 65536) / 1024))
      exact ⟨x, _, by rw [List.flatMap_cons, hcode]; rfl, hne⟩
  intro r u t _ _ _ heq
  have hbody := @readableAt_terminated _ _ _ _ _ s.toList hstart fun c _ => ⟨trivial, hchar c⟩
  obtain ⟨hlist, hrest⟩ := hbody r.toList u t (fun _ _ => trivial) trivial trivial
    (List.cons.inj heq).2
  exact ⟨String.toList_injective hlist, hrest⟩

end JsonText
