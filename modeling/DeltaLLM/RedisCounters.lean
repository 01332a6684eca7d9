import Mathlib.Data.Int.Notation
import Mathlib.Data.Nat.Notation

/-! # Redis integer keys

A counter with its time to live, as `INCRBY`, `EXPIRE` and the passing of time change it. A
missing key counts as zero and the first increment creates it without an expiry.
-/
namespace RedisCounters

structure CounterKey where
  value : Option ℤ
  expiresAt : Option ℕ
  deriving DecidableEq, Repr

namespace CounterKey

def missing : CounterKey := ⟨none, none⟩

def count (key : CounterKey) : ℤ := key.value.getD 0

def incrBy (key : CounterKey) (amount : ℤ) : CounterKey :=
  { key with value := some (key.count + amount) }

def incr (key : CounterKey) : CounterKey := key.incrBy 1

def decr (key : CounterKey) : CounterKey := key.incrBy (-1)

/-- `EXPIRE` of a missing key does nothing. -/
def expire (key : CounterKey) (deadline : ℕ) : CounterKey :=
  if key.value.isSome then { key with expiresAt := some deadline } else key

def Expired (key : CounterKey) (now : ℕ) : Prop := ∃ deadline ∈ key.expiresAt, deadline ≤ now

instance (key : CounterKey) (now : ℕ) : Decidable (key.Expired now) :=
  inferInstanceAs (Decidable (∃ deadline, deadline ∈ key.expiresAt ∧ deadline ≤ now))

/-- The key as a command finds it. -/
def lapse (key : CounterKey) (now : ℕ) : CounterKey :=
  if key.Expired now then missing else key

@[simp] theorem count_missing : missing.count = 0 := rfl

@[simp] theorem count_incrBy (key : CounterKey) (amount : ℤ) :
    (key.incrBy amount).count = key.count + amount := rfl

@[simp] theorem count_incr (key : CounterKey) : key.incr.count = key.count + 1 := rfl

@[simp] theorem count_decr (key : CounterKey) : key.decr.count = key.count - 1 := rfl

@[simp] theorem count_expire (key : CounterKey) (deadline : ℕ) :
    (key.expire deadline).count = key.count := by
  unfold expire
  split <;> rfl

@[simp] theorem expiresAt_expire_incrBy (key : CounterKey) (amount : ℤ) (deadline : ℕ) :
    ((key.incrBy amount).expire deadline).expiresAt = some deadline := rfl

theorem lapse_of_not_expired {key : CounterKey} {now : ℕ} (h : ¬key.Expired now) :
    key.lapse now = key := if_neg h

theorem lapse_of_expired {key : CounterKey} {now : ℕ} (h : key.Expired now) :
    key.lapse now = missing := if_pos h

theorem not_expired_of_lt {key : CounterKey} {now deadline : ℕ}
    (h : key.expiresAt = some deadline) (hnow : now < deadline) : ¬key.Expired now := by
  rintro ⟨found, hfound, hle⟩
  rw [h, Option.mem_some_iff] at hfound
  omega

theorem not_expired_of_none {key : CounterKey} {now : ℕ} (h : key.expiresAt = none) :
    ¬key.Expired now := by
  rintro ⟨found, hfound, _⟩
  rw [h] at hfound
  cases hfound

/-- Before the deadline that it was given a key counts what it did. -/
theorem count_lapse_expire (key : CounterKey) {now deadline : ℕ} (hnow : now < deadline) :
    ((key.expire deadline).lapse now).count = key.count := by
  cases hvalue : key.value with
  | none =>
      have hexpire : key.expire deadline = key := if_neg (by simp [hvalue])
      rw [hexpire]
      unfold lapse
      split
      · simp [count, hvalue, missing]
      · rfl
  | some value =>
      have hexpire : key.expire deadline = { key with expiresAt := some deadline } :=
        if_pos (by simp [hvalue])
      rw [hexpire, lapse_of_not_expired (not_expired_of_lt rfl hnow)]
      rfl

end CounterKey

end RedisCounters
