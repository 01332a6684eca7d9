import Mathlib.Data.Rat.Defs

/-! # JSON values as Python reads them

Objects are association lists in insertion order, integers are exact and floats keep the
three non-finite values that Python's reader accepts.
-/
namespace JsonValues

inductive JsonFloat where
  | finite (q : ℚ)
  | infinity (negative : Bool)
  | nan
  deriving DecidableEq, Repr

inductive JsonValue where
  | null
  | bool (b : Bool)
  | int (n : ℤ)
  | float (x : JsonFloat)
  | str (s : String)
  | list (xs : List JsonValue)
  | dict (fields : List (String × JsonValue))
  deriving Repr

section

set_option linter.unusedSectionVars false

variable {P : JsonValue → Prop} (null : P .null) (bool : ∀ b, P (.bool b)) (int : ∀ n, P (.int n))
  (float : ∀ x, P (.float x)) (str : ∀ s, P (.str s)) (list : ∀ xs, (∀ x ∈ xs, P x) → P (.list xs))
  (dict : ∀ fields, (∀ field ∈ fields, P field.2) → P (.dict fields))
include null bool int float str list dict

mutual

/-- Induction over the parts of lists and objects. -/
@[elab_as_elim]
theorem JsonValue.partsInduction : ∀ v, P v
  | .null => null
  | .bool b => bool b
  | .int n => int n
  | .float x => float x
  | .str s => str s
  | .list xs => list xs (partsInductionList xs)
  | .dict fields => dict fields (partsInductionFields fields)

theorem JsonValue.partsInductionList : ∀ (xs : List JsonValue), ∀ x ∈ xs, P x
  | [], _, hx => absurd hx List.not_mem_nil
  | y :: ys, x, hx =>
      (List.mem_cons.mp hx).elim (fun heq => heq ▸ partsInduction y) (partsInductionList ys x)

theorem JsonValue.partsInductionFields :
    ∀ (fields : List (String × JsonValue)), ∀ field ∈ fields, P field.2
  | [], _, hfield => absurd hfield List.not_mem_nil
  | (_, value) :: fields, field, hfield =>
      (List.mem_cons.mp hfield).elim (fun heq => heq ▸ partsInduction value)
        (partsInductionFields fields field)

end

end

/-- A JSON object by itself. -/
abbrev JsonObject := List (String × JsonValue)

/-- Python's truth value: null, false, zeros and empty texts, lists and objects are false. -/
def JsonValue.truthy : JsonValue → Bool
  | .null => false
  | .bool b => b
  | .int n => n ≠ 0
  | .float x => x ≠ .finite 0
  | .str s => s ≠ ""
  | .list xs => xs ≠ []
  | .dict fields => fields ≠ []

namespace JsonObject

def get? : JsonObject → String → Option JsonValue
  | [], _ => none
  | (name, value) :: fields, key => if name = key then some value else get? fields key

/-- `fields.get(key)`: a missing key reads as null. -/
def get (fields : JsonObject) (key : String) : JsonValue := (get? fields key).getD .null

/-- `fields[key] = value`: an existing key keeps its place. -/
def set : JsonObject → String → JsonValue → JsonObject
  | [], key, value => [(key, value)]
  | (name, old) :: fields, key, value =>
      if name = key then (name, value) :: fields else (name, old) :: set fields key value

def pop : JsonObject → String → JsonObject
  | [], _ => []
  | (name, value) :: fields, key =>
      if name = key then pop fields key else (name, value) :: pop fields key

def setDefault (fields : JsonObject) (key : String) (value : JsonValue) : JsonObject :=
  if (get? fields key).isSome then fields else set fields key value

theorem get?_set (fields : JsonObject) (key key' : String) (value : JsonValue) :
    (fields.set key value).get? key' = if key = key' then some value else fields.get? key' := by
  induction fields with
  | nil => simp [set, get?]
  | cons field fields ih =>
      obtain ⟨name, old⟩ := field
      by_cases hname : name = key
      · subst hname
        by_cases hkey : name = key' <;> simp [set, get?, hkey]
      · by_cases hkey : name = key'
        · subst hkey
          simp [set, get?, hname, Ne.symm hname]
        · simp [set, get?, hname, hkey, ih]

@[simp] theorem get_set_self (fields : JsonObject) (key : String) (value : JsonValue) :
    (fields.set key value).get key = value := by
  simp [get, get?_set]

theorem get_set_ne (fields : JsonObject) {key key' : String} (value : JsonValue)
    (h : key ≠ key') : (fields.set key value).get key' = fields.get key' := by
  simp [get, get?_set, h]

@[simp] theorem get?_set_self (fields : JsonObject) (key : String) (value : JsonValue) :
    (fields.set key value).get? key = some value := by
  simp [get?_set]

theorem get?_set_ne (fields : JsonObject) {key key' : String} (value : JsonValue)
    (h : key ≠ key') : (fields.set key value).get? key' = fields.get? key' := by
  simp [get?_set, h]

theorem get?_pop (fields : JsonObject) (key key' : String) :
    (fields.pop key).get? key' = if key = key' then none else fields.get? key' := by
  induction fields with
  | nil => simp [pop, get?]
  | cons field fields ih =>
      obtain ⟨name, value⟩ := field
      by_cases hname : name = key
      · subst hname
        by_cases hkey : name = key'
        · simpa [pop, hkey] using ih
        · simpa [pop, get?, hkey] using ih
      · by_cases hkey : name = key'
        · subst hkey
          simp [pop, get?, hname, Ne.symm hname]
        · simp [pop, get?, hname, hkey, ih]

theorem get?_setDefault (fields : JsonObject) (key key' : String) (value : JsonValue) :
    (fields.setDefault key value).get? key' =
      if key = key' then some ((fields.get? key).getD value) else fields.get? key' := by
  unfold setDefault
  cases hget : fields.get? key with
  | none => simpa using get?_set fields key key' value
  | some old =>
      by_cases hkey : key = key'
      · subst hkey
        simp [hget]
      · simp [hkey]

end JsonObject

end JsonValues
