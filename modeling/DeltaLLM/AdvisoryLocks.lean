import DeltaLLM.PythonText
import Mathlib.Data.String.Basic

/-! # Advisory locks

The names that the batch transactions lock. A mode says whether the legacy pair of texts is locked
before the canonical name.
-/
namespace AdvisoryLocks

open PythonText (strip)

inductive AdvisoryLockMode where
  | dual | canonical
  deriving DecidableEq, Repr

inductive LockName where
  | legacy (first second : String)
  | canonical (name : String)
  deriving DecidableEq, Repr

/-- One part of `advisory_lock_legacy_parts`. -/
def legacyLockPart (value : String) : String :=
  if strip value = "" then "unknown" else strip value

def escapeLockChar (c : Char) : List Char :=
  if c = '\\' then ['\\', '\\'] else if c = ':' then ['\\', ':'] else [c]

/-- `_normalize_lock_part`. -/
def normalizeLockPart (value : String) : String :=
  String.ofList ((legacyLockPart value).toList.flatMap escapeLockChar)

/-- `advisory_lock_name` of two parts, under a namespace that is not blank. -/
def advisoryLockName (lockNamespace first second : String) : String :=
  lockNamespace ++ ":" ++ normalizeLockPart first ++ ":" ++ normalizeLockPart second

/-- The names that `_acquire_dual_advisory_xact_lock` and its try form take. -/
def dualAdvisoryLocks (mode : AdvisoryLockMode) (legacyFirst legacySecond : String)
    (canonicalName : String) : List LockName :=
  match mode with
  | .dual => [.legacy (legacyLockPart legacyFirst) (legacyLockPart legacySecond),
      .canonical canonicalName]
  | .canonical => [.canonical canonicalName]

/-- `_acquire_model_capacity_lock`. -/
def modelCapacityLocks (mode : AdvisoryLockMode) (modelGroup serviceTier : String) :
    List LockName :=
  dualAdvisoryLocks mode modelGroup serviceTier
    (advisoryLockName "batch_model_capacity" serviceTier modelGroup)

/-- `_try_acquire_scheduler_flow_lock`. -/
def schedulerFlowLocks (mode : AdvisoryLockMode) (modelGroup serviceTier : String) :
    List LockName :=
  dualAdvisoryLocks mode modelGroup serviceTier
    (advisoryLockName "batch_scheduler_flow" serviceTier modelGroup)

section Names

variable {modelGroup serviceTier : String}

/-- In dual mode both kinds of claim take the legacy pair of their group and tier. -/
theorem legacy_shared : ∃ name, name ∈ modelCapacityLocks .dual modelGroup serviceTier ∧
    name ∈ schedulerFlowLocks .dual modelGroup serviceTier :=
  ⟨.legacy (legacyLockPart modelGroup) (legacyLockPart serviceTier), List.mem_cons_self,
    List.mem_cons_self⟩

theorem advisoryLockName_apart {first second first' second' : String} :
    advisoryLockName "batch_model_capacity" first second ≠
      advisoryLockName "batch_scheduler_flow" first' second' := by
  intro hsame
  have hchars := congrArg (fun name => name.toList.take 7) hsame
  simp [advisoryLockName, String.toList_append] at hchars

/-- In canonical mode they have no name in common. -/
theorem canonical_apart {name : LockName}
    (h : name ∈ modelCapacityLocks .canonical modelGroup serviceTier) :
    name ∉ schedulerFlowLocks .canonical modelGroup serviceTier := by
  intro h'
  rw [List.mem_singleton.mp h] at h'
  exact advisoryLockName_apart (LockName.canonical.inj (List.mem_singleton.mp h'))

end Names

end AdvisoryLocks
