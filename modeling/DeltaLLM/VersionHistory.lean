import Mathlib.Data.List.Basic

/-! # What a store has held

The values of a cell, newest last. A value is held since a version if the cell had it in that
version or in a later one: what a reader may be given who must not see anything older.
-/
namespace VersionHistory

variable {α : Type*} {versions more : List α} {v v' : ℕ} {a : α}

def HeldSince (versions : List α) (v : ℕ) (a : α) : Prop :=
  ∃ version, v ≤ version ∧ versions[version]? = some a

theorem heldSince_version (h : versions[v]? = some a) : HeldSince versions v a :=
  ⟨v, Nat.le_refl v, h⟩

theorem HeldSince.mono (h : HeldSince versions v a) (hle : v' ≤ v) : HeldSince versions v' a := by
  obtain ⟨version, hv, hget⟩ := h
  exact ⟨version, Nat.le_trans hle hv, hget⟩

theorem getElem?_append_held (h : versions[v]? = some a) : (versions ++ more)[v]? = some a := by
  rw [List.getElem?_append_left (List.getElem?_eq_some_iff.mp h).1]
  exact h

/-- A new version takes nothing back. -/
theorem HeldSince.append (h : HeldSince versions v a) : HeldSince (versions ++ more) v a := by
  obtain ⟨version, hv, hget⟩ := h
  exact ⟨version, hv, getElem?_append_held hget⟩

/-- The version that the cell holds now. -/
theorem getElem?_newest (h : versions.getLast? = some a) :
    versions[versions.length - 1]? = some a := by
  rw [← List.getLast?_eq_getElem?]
  exact h

end VersionHistory
