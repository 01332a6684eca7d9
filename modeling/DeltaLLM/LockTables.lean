import Mathlib.Data.Nat.Notation
import Mathlib.Logic.Function.Basic

/-! # Exclusive locks

A table from lock names to their holders. A holder takes names one after the other and gives all of
them back at once, so two holders that need a common name are never both done.
-/
namespace LockTables

/-- The holder of each name. -/
def Table (ν : Type) : Type := ν → Option ℕ

variable {ν : Type}

def Table.empty : Table ν := fun _ => none

def Table.release (table : Table ν) (holder : ℕ) : Table ν :=
  fun name => if table name = some holder then none else table name

/-- The holder has every name. -/
def Table.Holds (table : Table ν) (holder : ℕ) (names : List ν) : Prop :=
  ∀ name ∈ names, table name = some holder

section Held

variable {table : Table ν} {holder other : ℕ} {names names' : List ν}

/-- Holders with a name in common are the same. -/
theorem Table.Holds.unique {name : ν} (h : table.Holds holder names)
    (h' : table.Holds other names') (hmem : name ∈ names) (hmem' : name ∈ names') :
    holder = other :=
  Option.some.inj ((h name hmem).symm.trans (h' name hmem'))

theorem Table.Holds.append (h : table.Holds holder names) (h' : table.Holds holder names') :
    table.Holds holder (names ++ names') := by
  intro name hmem
  rcases List.mem_append.mp hmem with hfirst | hsecond
  · exact h name hfirst
  · exact h' name hsecond

/-- Names that are free are held by nobody. -/
theorem Table.Holds.not_mem_of_free {name : ν} (h : table.Holds other names)
    (hfree : table name = none) :
    name ∉ names := by
  intro hmem
  rw [h name hmem] at hfree
  cases hfree

/-- A release takes nothing from another holder. -/
theorem Table.Holds.release (h : table.Holds other names) (hne : other ≠ holder) :
    (table.release holder).Holds other names := by
  intro held hmem
  have hother : table held ≠ some holder := fun hsame =>
    hne (Option.some.inj ((h held hmem).symm.trans hsame))
  simp only [Table.release, hother, if_false]
  exact h held hmem

end Held

section Take

variable [DecidableEq ν]

def Table.take (table : Table ν) (holder : ℕ) (name : ν) : Table ν :=
  Function.update table name (some holder)

/-- Takes all the names. -/
def Table.takeAll (table : Table ν) (holder : ℕ) : List ν → Table ν
  | [] => table
  | name :: names => (table.take holder name).takeAll holder names

variable {table : Table ν} {holder other : ℕ} {name : ν} {names : List ν}

theorem Table.take_self (table : Table ν) (holder : ℕ) (name : ν) :
    table.take holder name name = some holder := Function.update_self ..

/-- A holder that takes a name keeps the names it has. -/
theorem Table.Holds.take_same (h : table.Holds holder names) :
    (table.take holder name).Holds holder names := by
  intro held hmem
  by_cases heq : held = name
  · rw [heq, Table.take_self]
  · exact (Function.update_of_ne heq _ _).trans (h held hmem)

/-- A name that is taken while it is free leaves every holder its names. -/
theorem Table.Holds.take (h : table.Holds other names) (hfree : table name = none) :
    (table.take holder name).Holds other names := by
  intro held hmem
  have hne : held ≠ name := by
    rintro rfl
    rw [h held hmem] at hfree
    cases hfree
  exact (Function.update_of_ne hne _ _).trans (h held hmem)

theorem Table.Holds.takeAll_same {taken : List ν} : ∀ {table : Table ν},
    table.Holds holder names → (table.takeAll holder taken).Holds holder names := by
  induction taken with
  | nil => exact fun h => h
  | cons first rest ih => exact fun h => ih h.take_same

/-- The holder of all the names it took. -/
theorem Table.takeAll_holds {names : List ν} : ∀ {table : Table ν},
    (table.takeAll holder names).Holds holder names := by
  induction names with
  | nil =>
      intro table name hmem
      cases hmem
  | cons first rest ih =>
      intro table
      have hfirst : (table.take holder first).Holds holder [first] := by
        intro name hmem
        rw [List.mem_singleton.mp hmem]
        exact Table.take_self table holder first
      exact hfirst.takeAll_same.append ih

theorem Table.Holds.takeAll {taken : List ν} : ∀ {table : Table ν}, table.Holds other names →
    (∀ name ∈ taken, name ∉ names) → (table.takeAll holder taken).Holds other names := by
  induction taken with
  | nil => exact fun h _ => h
  | cons first rest ih =>
      intro table h hapart
      refine ih ?_ fun name hmem => hapart name (List.mem_cons_of_mem _ hmem)
      intro held hmem
      have hne : held ≠ first := fun heq => hapart first List.mem_cons_self (heq ▸ hmem)
      exact (Function.update_of_ne hne _ _).trans (h held hmem)

end Take

end LockTables
