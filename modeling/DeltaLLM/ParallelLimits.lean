import DeltaLLM.RedisCounters
import DeltaLLM.TransitionRuns
import Mathlib.Data.Int.Basic
import Mathlib.Logic.Function.Basic
import Mathlib.Order.Basic

/-! # The parallel-request limit

Every `acquire_parallel` and `release_parallel` of one key, each Redis command and each lock
section of the local fallback a step of its own. The instances share the Redis key and each keeps
its own fallback counter. `_handle_redis_degraded` does nothing in `fail_open` mode.
-/
namespace ParallelLimits

open RedisCounters
open TransitionRuns

variable {ι : Type*}

/-- What a caller sees of one Redis command; a lost one may still have been executed. -/
inductive RedisReply where
  | answered
  | lost (applied : Bool)
  deriving DecidableEq, Repr

def RedisReply.executed : RedisReply → Bool
  | .answered => true
  | .lost applied => applied

inductive Store where
  | redis
  | fallback
  deriving DecidableEq, Repr

/-- Where a call stands; `store` is where its slot was taken, which the code does not record. -/
inductive Stage where
  | entering
  | degraded
  | expiring
  | undoing
  | fallbackUndoing
  | rejected
  | granted (store : Store)
  | fallbackReleasing (store : Store)
  | released
  deriving DecidableEq, Repr

structure Call (ι : Type*) where
  home : ι
  stage : Stage

structure State (ι : Type*) where
  now : ℕ
  redis : CounterKey
  fallback : ι → Option ℕ
  calls : List (Call ι)

def initial : State ι := ⟨0, .missing, fun _ => none, []⟩

def State.fallbackCount (s : State ι) (home : ι) : ℕ := (s.fallback home).getD 0

def State.moveTo (s : State ι) (k : ℕ) (call : Call ι) (stage : Stage) : State ι :=
  { s with calls := s.calls.set k { call with stage } }

theorem countP_moveTo {s : State ι} {k : ℕ} {call : Call ι} (hcall : s.calls[k]? = some call)
    (stage : Stage) (p : Call ι → Bool) :
    (s.moveTo k call stage).calls.countP p + (p call).toNat =
      s.calls.countP p + (p { call with stage }).toNat := by
  obtain ⟨hk, hget⟩ := List.getElem?_eq_some_iff.mp hcall
  have hpositive : p call = true → 0 < s.calls.countP p := by
    intro hp
    exact List.countP_pos_iff.mpr ⟨call, hget ▸ List.getElem_mem hk, hp⟩
  simp only [State.moveTo, List.countP_set hk, hget]
  cases hp : p call <;> cases p { call with stage } <;> simp_all

variable [DecidableEq ι]

/-- What follows `redis.incr` and, on the first slot, `redis.expire`. -/
def afterIncr (limit : ℕ) (current : ℤ) : Stage :=
  if (limit : ℤ) < current then .undoing else .granted .redis

/-- The lock section of `_acquire_parallel_fallback`. -/
def acquireFallback (limit : ℕ) (s : State ι) (k : ℕ) (call : Call ι) : State ι :=
  let current := s.fallbackCount call.home + 1
  { s.moveTo k call (if limit < current then .fallbackUndoing else .granted .fallback) with
    fallback := Function.update s.fallback call.home (some current) }

/-- The lock section of `_acquire_parallel_fallback` that takes a refused slot back. -/
def undoFallback (s : State ι) (k : ℕ) (call : Call ι) : State ι :=
  { s.moveTo k call .rejected with
    fallback := Function.update s.fallback call.home
      (some ((s.fallback call.home).getD 1 - 1)) }

/-- The lock section of `_release_parallel_fallback`. -/
def releaseFallback (s : State ι) (k : ℕ) (call : Call ι) : State ι :=
  let current := s.fallbackCount call.home - 1
  { s.moveTo k call .released with
    fallback := Function.update s.fallback call.home (if current = 0 then none else some current) }

/-- The next step of one call; `reply` answers the Redis command it issues, if it issues one. -/
def proceed (connected : Bool) (limit : ℕ) (s : State ι) (k : ℕ) (call : Call ι)
    (reply : RedisReply) : State ι :=
  match call.stage with
  | .entering =>
      if connected then
        let redis := if reply.executed then s.redis.incr else s.redis
        match reply with
        | .answered =>
            { s.moveTo k call
                (if redis.count = 1 then .expiring else afterIncr limit redis.count) with redis }
        | .lost _ => { s.moveTo k call .degraded with redis }
      else acquireFallback limit s k call
  | .degraded => acquireFallback limit s k call
  | .expiring =>
      { s.moveTo k call (afterIncr limit 1) with
        redis := if reply.executed then s.redis.expire (s.now + 300) else s.redis }
  | .undoing =>
      { s.moveTo k call .rejected with
        redis := if reply.executed then s.redis.decr else s.redis }
  | .fallbackUndoing => undoFallback s k call
  | .granted store =>
      if connected then
        let redis := if reply.executed then s.redis.decr else s.redis
        match reply with
        | .answered => { s.moveTo k call .released with redis }
        | .lost _ => { s.moveTo k call (.fallbackReleasing store) with redis }
      else releaseFallback s k call
  | .fallbackReleasing _ => releaseFallback s k call
  | .rejected | .released => s

inductive Event (ι : Type*) where
  | arrive (home : ι)
  | proceed (k : ℕ) (reply : RedisReply)
  | elapse (seconds : ℕ)

def enabled (s : State ι) : Event ι → Prop
  | .arrive _ => True
  | .proceed k _ => ∃ call ∈ s.calls[k]?, call.stage ≠ .rejected ∧ call.stage ≠ .released
  | .elapse _ => True

instance (s : State ι) : DecidablePred (enabled s)
  | .arrive _ => .isTrue trivial
  | .proceed k _ => inferInstanceAs
      (Decidable (∃ call, call ∈ s.calls[k]? ∧ call.stage ≠ .rejected ∧ call.stage ≠ .released))
  | .elapse _ => .isTrue trivial

def next (connected : Bool) (limit : ℕ) (s : State ι) : Event ι → State ι
  | .arrive home => { s with calls := s.calls ++ [⟨home, .entering⟩] }
  | .proceed k reply =>
      match s.calls[k]? with
      | some call => proceed connected limit s k call reply
      | none => s
  | .elapse seconds =>
      { s with now := s.now + seconds, redis := s.redis.lapse (s.now + seconds) }

def parallelSystem (connected : Bool) (limit : ℕ) : TransitionSystem (State ι) (Event ι) where
  initial s := s = initial
  enabled := enabled
  next := next connected limit

instance (connected : Bool) (limit : ℕ) (s : State ι) (e : Event ι) :
    Decidable ((parallelSystem connected limit).enabled s e) :=
  inferInstanceAs (Decidable (enabled s e))

inductive Backend (ι : Type*) where
  | redis
  | fallback (home : ι)
  deriving DecidableEq

def counter (s : State ι) : Backend ι → ℤ
  | .redis => s.redis.count
  | .fallback home => s.fallbackCount home

/-- Granted and not yet released, with its slot in the given backend. -/
def Holds : Backend ι → Call ι → Bool
  | .redis, call => call.stage = .granted .redis
  | .fallback home, call => call.home = home ∧ call.stage = .granted .fallback

/-- Inside an acquisition or a release, with its slot in the given backend. -/
def Passing : Backend ι → Call ι → Bool
  | .redis, call => call.stage = .expiring ∨ call.stage = .undoing
  | .fallback home, call =>
      call.home = home ∧
        (call.stage = .fallbackUndoing ∨ call.stage = .fallbackReleasing .fallback)

def holders (s : State ι) (backend : Backend ι) : ℕ := s.calls.countP (Holds backend)

def passing (s : State ι) (backend : Backend ι) : ℕ := s.calls.countP (Passing backend)

/-- No call is under way and none holds a slot. -/
def Idle (s : State ι) : Prop :=
  ∀ call ∈ s.calls, call.stage = .rejected ∨ call.stage = .released

instance (s : State ι) : Decidable (Idle s) :=
  inferInstanceAs (Decidable (∀ call ∈ s.calls, call.stage = .rejected ∨ call.stage = .released))

structure SlotsSound (limit : ℕ) (s : State ι) : Prop where
  within_limit : ∀ backend, holders s backend ≤ limit
  no_slot_left : ∀ backend, counter s backend = holders s backend + passing s backend
  never_negative : ∀ backend, 0 ≤ counter s backend
  idle_zero : Idle s → ∀ backend, counter s backend = 0

/-- The step of this call loses no slot: no increment is executed whose caller sees an error, a
refused slot is taken back, and a slot is returned to the backend that granted it and to no
other. -/
def MoveKeepsSlots (connected : Bool) (s : State ι) (call : Call ι) (reply : RedisReply) : Prop :=
  (call.stage = .entering → connected = true → reply ≠ .lost true) ∧
  (call.stage = .undoing → reply.executed = true) ∧
  (call.stage = .granted .redis → reply.executed = true) ∧
  (call.stage = .granted .fallback → connected = true → reply = .lost false) ∧
  (call.stage = .fallbackReleasing .redis → s.fallbackCount call.home = 0)

/-- No step loses a slot, and the key outlives the slots that it counts. -/
def KeepsSlots (connected : Bool) (s : State ι) : Event ι → Prop
  | .arrive _ => True
  | .proceed k reply => ∀ call ∈ s.calls[k]?, MoveKeepsSlots connected s call reply
  | .elapse seconds =>
      s.redis.Expired (s.now + seconds) → holders s .redis = 0 ∧ passing s .redis = 0

instance (connected : Bool) (s : State ι) (call : Call ι) (reply : RedisReply) :
    Decidable (MoveKeepsSlots connected s call reply) :=
  inferInstanceAs (Decidable (_ ∧ _ ∧ _ ∧ _ ∧ _))

instance (connected : Bool) (s : State ι) : ∀ e, Decidable (KeepsSlots connected s e)
  | .arrive _ => .isTrue trivial
  | .proceed k reply => inferInstanceAs
      (Decidable (∀ call, call ∈ s.calls[k]? → MoveKeepsSlots connected s call reply))
  | .elapse seconds => inferInstanceAs
      (Decidable (s.redis.Expired (s.now + seconds) → holders s .redis = 0 ∧ passing s .redis = 0))

/-- Past the limit check of the Redis path. -/
def Admitted (call : Call ι) : Bool := call.stage = .expiring ∨ call.stage = .granted .redis

/-- What the counters and the calls agree on while no slot is lost. -/
structure Exact (connected : Bool) (limit : ℕ) (s : State ι) : Prop where
  counter_exact : ∀ backend, counter s backend = holders s backend + passing s backend
  redis_admitted : s.calls.countP Admitted ≤ limit
  fallback_admitted : ∀ home, holders s (.fallback home) ≤ limit
  redis_unused : connected = false → holders s .redis + passing s .redis = 0

/-- The slots that one call has in a backend. -/
def slot (backend : Backend ι) (call : Call ι) : ℕ :=
  (Holds backend call).toNat + (Passing backend call).toNat

section Moves

variable {connected : Bool} {limit k : ℕ} {s t : State ι} {call : Call ι} {stage : Stage}

theorem holders_moveTo (hcall : s.calls[k]? = some call)
    (ht : t.calls = (s.moveTo k call stage).calls) (backend : Backend ι) :
    holders t backend + (Holds backend call).toNat =
      holders s backend + (Holds backend { call with stage }).toNat := by
  simp only [holders, ht]
  exact countP_moveTo hcall stage _

theorem passing_moveTo (hcall : s.calls[k]? = some call)
    (ht : t.calls = (s.moveTo k call stage).calls) (backend : Backend ι) :
    passing t backend + (Passing backend call).toNat =
      passing s backend + (Passing backend { call with stage }).toNat := by
  simp only [passing, ht]
  exact countP_moveTo hcall stage _

theorem slot_le_slots (hcall : s.calls[k]? = some call) (backend : Backend ι) :
    slot backend call ≤ holders s backend + passing s backend := by
  have hmem : call ∈ s.calls := List.mem_of_getElem? hcall
  have hholds : (Holds backend call).toNat ≤ holders s backend := by
    cases hp : Holds backend call
    · exact Nat.zero_le _
    · exact List.countP_pos_iff.mpr ⟨call, hmem, hp⟩
  have hpassing : (Passing backend call).toNat ≤ passing s backend := by
    cases hp : Passing backend call
    · exact Nat.zero_le _
    · exact List.countP_pos_iff.mpr ⟨call, hmem, hp⟩
  exact Nat.add_le_add hholds hpassing

theorem holders_le_admitted (s : State ι) : holders s .redis ≤ s.calls.countP Admitted := by
  apply List.countP_mono_left
  intro call _ hholds
  simp_all [Holds, Admitted]

theorem admitted_le_slots (s : State ι) :
    s.calls.countP Admitted ≤ holders s .redis + passing s .redis := by
  unfold holders passing
  induction s.calls with
  | nil => exact Nat.zero_le _
  | cons call calls ih =>
      have hslot : (if Admitted call = true then 1 else 0) ≤
          (if Holds .redis call = true then 1 else 0) +
            (if Passing .redis call = true then 1 else 0) := by
        cases hstage : call.stage <;> simp [Admitted, Holds, Passing, hstage]
      simp only [List.countP_cons]
      omega

/-- A move keeps the counters exact when each counter changes by the slots that the call gains
and loses, and a slot is granted below the limit only. -/
theorem Exact.move (hs : Exact connected limit s) (hcall : s.calls[k]? = some call)
    (ht : t.calls = (s.moveTo k call stage).calls)
    (hcounter : ∀ backend,
      counter t backend + slot backend call =
        counter s backend + slot backend { call with stage })
    (hredis : Admitted { call with stage } = true → Admitted call = true ∨
      counter s .redis + 1 ≤ limit)
    (hfallback : ∀ home, Holds (.fallback home) { call with stage } = true →
      counter s (.fallback home) + 1 ≤ limit)
    (hunused : connected = false → slot .redis { call with stage } = 0) :
    Exact connected limit t := by
  constructor
  · intro backend
    have hexact := hs.counter_exact backend
    have hholders := holders_moveTo hcall ht backend
    have hpassing := passing_moveTo hcall ht backend
    have hmove := hcounter backend
    simp only [slot] at hmove
    omega
  · have hcount := countP_moveTo hcall stage Admitted
    have hbound := hs.redis_admitted
    rw [ht]
    cases hadmitted : Admitted { call with stage }
    · simp only [hadmitted, Bool.toNat_false] at hcount
      omega
    · rcases hredis hadmitted with hbefore | hroom
      · simp only [hadmitted, hbefore] at hcount
        omega
      · have hslots := admitted_le_slots s
        have hexact := hs.counter_exact .redis
        simp only [hadmitted, Bool.toNat_true] at hcount
        omega
  · intro home
    have hcount := holders_moveTo hcall ht (.fallback home)
    have hbound := hs.fallback_admitted home
    cases hholds : Holds (.fallback home) { call with stage }
    · simp only [hholds, Bool.toNat_false] at hcount
      omega
    · have hroom := hfallback home hholds
      have hexact := hs.counter_exact (.fallback home)
      simp only [hholds, Bool.toNat_true] at hcount
      omega
  · intro hconnected
    have hnone := hs.redis_unused hconnected
    have hslot := hunused hconnected
    have hholders := holders_moveTo hcall ht .redis
    have hpassing := passing_moveTo hcall ht .redis
    simp only [slot] at hslot
    omega

end Moves

section Steps

variable {connected : Bool} {limit k : ℕ} {s : State ι} {call : Call ι} {reply : RedisReply}

theorem Exact.acquireFallback (hs : Exact connected limit s) (hcall : s.calls[k]? = some call)
    (hstage : call.stage = .entering ∨ call.stage = .degraded) :
    Exact connected limit (acquireFallback limit s k call) := by
  have hslot : ∀ backend, slot backend call = 0 := by
    intro backend
    rcases hstage with h | h <;> cases backend <;> simp [slot, Holds, Passing, h]
  refine hs.move hcall rfl ?_ ?_ ?_ ?_
  · rintro (_ | home)
    · rw [hslot]
      split <;> simp [ParallelLimits.acquireFallback, counter, slot, Holds, Passing, State.moveTo]
    · rw [hslot]
      by_cases hhome : call.home = home
      · subst hhome
        split <;> simp [ParallelLimits.acquireFallback, counter, slot, Holds, Passing,
          State.moveTo, State.fallbackCount]
      · split <;> simp [ParallelLimits.acquireFallback, counter, slot, Holds, Passing,
          State.moveTo, State.fallbackCount, hhome, Ne.symm hhome]
  · split <;> simp [Admitted]
  · intro home hholds
    split at hholds
    · simp [Holds] at hholds
    · rename_i hroom
      simp only [Holds, decide_eq_true_eq] at hholds
      simp only [counter, ← hholds.1]
      omega
  · intro _
    split <;> simp [slot, Holds, Passing]

theorem Exact.undoFallback (hs : Exact connected limit s) (hcall : s.calls[k]? = some call)
    (hstage : call.stage = .fallbackUndoing) :
    Exact connected limit (undoFallback s k call) := by
  have hslots := slot_le_slots hcall (.fallback call.home)
  have hexact := hs.counter_exact (.fallback call.home)
  simp only [counter, State.fallbackCount, slot, Holds, Passing, hstage] at hslots hexact
  refine hs.move hcall rfl ?_ ?_ ?_ ?_
  · rintro (_ | home)
    · simp [ParallelLimits.undoFallback, counter, slot, Holds, Passing, State.moveTo, hstage]
    · by_cases hhome : call.home = home
      · subst hhome
        cases hvalue : s.fallback call.home with
        | none => simp [hvalue] at hslots hexact; omega
        | some value =>
            simp [hvalue] at hslots hexact
            simp [ParallelLimits.undoFallback, counter, slot, Holds, Passing, State.moveTo,
              State.fallbackCount, hstage, hvalue]
            omega
      · simp [ParallelLimits.undoFallback, counter, slot, Holds, Passing, State.moveTo,
          State.fallbackCount, hstage, hhome, Ne.symm hhome]
  · simp [Admitted]
  · simp [Holds]
  · simp [slot, Holds, Passing]

theorem fallbackCount_releaseFallback (s : State ι) (k : ℕ) (call : Call ι) (home : ι) :
    (releaseFallback s k call).fallbackCount home =
      if home = call.home then s.fallbackCount home - 1 else s.fallbackCount home := by
  by_cases hhome : home = call.home
  · subst hhome
    by_cases hzero : s.fallbackCount call.home - 1 = 0 <;>
      simp [releaseFallback, State.fallbackCount, State.moveTo] at hzero ⊢ <;> simp [hzero]
  · simp [releaseFallback, State.fallbackCount, State.moveTo, hhome]

theorem Exact.releaseFallback (hs : Exact connected limit s) (hcall : s.calls[k]? = some call)
    (hstage : call.stage = .granted .fallback ∨ call.stage = .fallbackReleasing .fallback ∨
      call.stage = .fallbackReleasing .redis ∧ s.fallbackCount call.home = 0) :
    Exact connected limit (releaseFallback s k call) := by
  have hslots := slot_le_slots hcall (.fallback call.home)
  have hexact := hs.counter_exact (.fallback call.home)
  refine hs.move hcall rfl ?_ ?_ ?_ ?_
  · rintro (_ | home)
    · rcases hstage with h | h | ⟨h, _⟩ <;>
        simp [ParallelLimits.releaseFallback, counter, slot, Holds, Passing, State.moveTo, h]
    · simp only [counter, fallbackCount_releaseFallback]
      by_cases hhome : home = call.home
      · subst hhome
        simp only [counter] at hexact
        rcases hstage with h | h | ⟨h, hzero⟩ <;>
          simp [slot, Holds, Passing, h] at hslots ⊢ <;> omega
      · rcases hstage with h | h | ⟨h, _⟩ <;>
          simp [slot, Holds, Passing, h, hhome, Ne.symm hhome]
  · simp [Admitted]
  · simp [Holds]
  · simp [slot, Holds, Passing]

/-- One Redis command that moves a call outside the fallback. -/
theorem Exact.command (hs : Exact true limit s) (hcall : s.calls[k]? = some call)
    {stage : Stage} {redis : CounterKey}
    (hfallback : ∀ home, slot (.fallback home) call = slot (.fallback home) { call with stage })
    (hholds : ∀ home, Holds (.fallback home) { call with stage } = false)
    (hcount : redis.count + slot .redis call = s.redis.count + slot .redis { call with stage })
    (hroom : Admitted { call with stage } = true → Admitted call = true ∨
      s.redis.count + 1 ≤ limit) :
    Exact true limit { s.moveTo k call stage with redis } := by
  refine hs.move hcall rfl ?_ hroom ?_ ?_
  · rintro (_ | home)
    · exact hcount
    · rw [hfallback]
      rfl
  · intro home hheld
    simp [hholds home] at hheld
  · simp

/-- Where `redis.incr` leaves a call, with what its answer says of the limit. -/
theorem entered_stage (limit : ℕ) (current : ℤ) :
    (if current = 1 then Stage.expiring else afterIncr limit current) = .expiring ∧ current = 1 ∨
      (if current = 1 then Stage.expiring else afterIncr limit current) = .undoing ∨
      (if current = 1 then Stage.expiring else afterIncr limit current) = .granted .redis ∧
        current ≤ limit := by
  by_cases hone : current = 1
  · simp [hone]
  · by_cases hover : (limit : ℤ) < current
    · simp [hone, afterIncr, hover]
    · simp [hone, afterIncr, hover]
      omega

theorem Exact.proceed_entering (hs : Exact connected limit s) (hpositive : 0 < limit)
    (hcall : s.calls[k]? = some call) (hstage : call.stage = .entering)
    (hkeeps : connected = true → reply ≠ .lost true) :
    Exact connected limit (proceed connected limit s k call reply) := by
  simp only [proceed, hstage]
  cases connected with
  | false => exact hs.acquireFallback hcall (.inl hstage)
  | true =>
      cases reply with
      | lost applied =>
          have hnot : applied = false := by
            cases applied
            · rfl
            · exact absurd rfl (hkeeps rfl)
          subst hnot
          apply hs.command hcall <;> simp [slot, Holds, Passing, Admitted, hstage,
            RedisReply.executed]
      | answered =>
          have hexact := hs.counter_exact .redis
          simp only [counter] at hexact
          simp only [RedisReply.executed, if_true, CounterKey.count_incr]
          rcases entered_stage limit (s.redis.count + 1) with ⟨h, hfirst⟩ | h | ⟨h, hwithin⟩
          all_goals
            rw [h]
            apply hs.command hcall
            · simp [slot, Holds, Passing, hstage]
            · simp [Holds]
            · simp [slot, Holds, Passing, hstage]
            · simp [Admitted]
              try omega

/-- A refused slot is taken back, the first slot's expiry changes no count. -/
theorem Exact.proceed_redis (hs : Exact connected limit s) (hpositive : 0 < limit)
    (hcall : s.calls[k]? = some call)
    (hstage : call.stage = .expiring ∨ call.stage = .undoing ∧ reply.executed = true) :
    Exact connected limit (proceed connected limit s k call reply) := by
  have hslots := slot_le_slots hcall .redis
  cases connected with
  | false =>
      have hnone := hs.redis_unused rfl
      rcases hstage with h | ⟨h, _⟩ <;> simp [slot, Holds, Passing, h] at hslots <;> omega
  | true =>
      rcases hstage with h | ⟨h, hreply⟩
      · have hadmitted : afterIncr limit 1 = .granted .redis := by
          simp only [afterIncr]
          split
          · omega
          · rfl
        simp only [proceed, h, hadmitted]
        apply hs.command hcall
        · simp [slot, Holds, Passing, h]
        · simp [Holds]
        · split <;> simp [slot, Holds, Passing, h]
        · simp [Admitted, h]
      · simp only [proceed, h, hreply, if_true]
        apply hs.command hcall <;> simp [slot, Holds, Passing, Admitted, h]

theorem Exact.proceed_granted (hs : Exact connected limit s) (hcall : s.calls[k]? = some call)
    (hstage : call.stage = .granted .redis ∧ reply.executed = true ∨
      call.stage = .granted .fallback ∧ (connected = true → reply = .lost false)) :
    Exact connected limit (proceed connected limit s k call reply) := by
  cases connected with
  | false =>
      rcases hstage with ⟨h, _⟩ | ⟨h, _⟩
      · have hnone := hs.redis_unused rfl
        have hslots := slot_le_slots hcall .redis
        simp [slot, Holds, Passing, h] at hslots
        omega
      · simp only [proceed, h, Bool.false_eq_true, if_false]
        exact hs.releaseFallback hcall (.inl h)
  | true =>
      rcases hstage with ⟨h, hreply⟩ | ⟨h, hreply⟩
      · cases reply with
        | answered =>
            simp only [proceed, h, RedisReply.executed, if_true]
            apply hs.command hcall <;> simp [slot, Holds, Passing, Admitted, h]
        | lost applied =>
            simp only [RedisReply.executed] at hreply
            simp only [proceed, h, RedisReply.executed, hreply, if_true]
            apply hs.command hcall <;> simp [slot, Holds, Passing, Admitted, h]
      · simp only [proceed, h, hreply rfl, RedisReply.executed, if_true]
        apply hs.command hcall <;> simp [slot, Holds, Passing, Admitted, h]

theorem Exact.proceed (hs : Exact connected limit s) (hpositive : 0 < limit)
    (hcall : s.calls[k]? = some call) (hkeeps : MoveKeepsSlots connected s call reply) :
    Exact connected limit (proceed connected limit s k call reply) := by
  obtain ⟨hentering, hundoing, hredis, hfallback, hreleasing⟩ := hkeeps
  cases hstage : call.stage with
  | entering => exact hs.proceed_entering hpositive hcall hstage (hentering hstage)
  | degraded =>
      simp only [ParallelLimits.proceed, hstage]
      exact hs.acquireFallback hcall (.inr hstage)
  | expiring => exact hs.proceed_redis hpositive hcall (.inl hstage)
  | undoing => exact hs.proceed_redis hpositive hcall (.inr ⟨hstage, hundoing hstage⟩)
  | fallbackUndoing =>
      simp only [ParallelLimits.proceed, hstage]
      exact hs.undoFallback hcall hstage
  | granted store =>
      cases store with
      | redis => exact hs.proceed_granted hcall (.inl ⟨hstage, hredis hstage⟩)
      | fallback => exact hs.proceed_granted hcall (.inr ⟨hstage, hfallback hstage⟩)
  | fallbackReleasing store =>
      simp only [ParallelLimits.proceed, hstage]
      cases store with
      | redis => exact hs.releaseFallback hcall (.inr (.inr ⟨hstage, hreleasing hstage⟩))
      | fallback => exact hs.releaseFallback hcall (.inr (.inl hstage))
  | rejected | released =>
      simp only [ParallelLimits.proceed, hstage]
      exact hs

theorem Exact.arrive (hs : Exact connected limit s) (home : ι) :
    Exact connected limit (next connected limit s (.arrive home)) := by
  have hholders : ∀ backend, holders (next connected limit s (.arrive home)) backend =
      holders s backend := by
    intro backend
    cases backend <;> simp [holders, next, Holds]
  have hpassing : ∀ backend, passing (next connected limit s (.arrive home)) backend =
      passing s backend := by
    intro backend
    cases backend <;> simp [passing, next, Passing]
  constructor
  · intro backend
    rw [hholders, hpassing, ← hs.counter_exact]
    cases backend <;> rfl
  · simpa [next, Admitted] using hs.redis_admitted
  · intro home'
    rw [hholders]
    exact hs.fallback_admitted home'
  · rw [hholders, hpassing]
    exact hs.redis_unused

theorem Exact.elapse (hs : Exact connected limit s) {seconds : ℕ}
    (hkeeps : KeepsSlots connected s (.elapse seconds)) :
    Exact connected limit (next connected limit s (.elapse seconds)) := by
  refine ⟨?_, hs.redis_admitted, hs.fallback_admitted, hs.redis_unused⟩
  rintro (_ | home)
  · by_cases hexpired : s.redis.Expired (s.now + seconds)
    · obtain ⟨hholders, hpassing⟩ := hkeeps hexpired
      simp only [holders, passing] at hholders hpassing
      simp [counter, next, CounterKey.lapse, hexpired, holders, passing,
        hholders, hpassing]
    · simpa [counter, next, CounterKey.lapse, hexpired, holders, passing] using
        hs.counter_exact .redis
  · exact hs.counter_exact (.fallback home)

theorem Exact.next (hs : Exact connected limit s) (hpositive : 0 < limit) {e : Event ι}
    (he : enabled s e) (hkeeps : KeepsSlots connected s e) :
    Exact connected limit (next connected limit s e) := by
  cases e with
  | arrive home => exact hs.arrive home
  | proceed k reply =>
      obtain ⟨call, hcall, _⟩ := he
      have hget : s.calls[k]? = some call := hcall
      simp only [ParallelLimits.next, hget]
      exact hs.proceed hpositive hget (hkeeps call hcall)
  | elapse seconds => exact hs.elapse hkeeps

end Steps

theorem initial_exact (connected : Bool) (limit : ℕ) :
    Exact connected limit (initial : State ι) := by
  constructor
  · rintro (_ | home) <;> rfl
  · exact Nat.zero_le _
  · intro home
    exact Nat.zero_le _
  · intro _
    rfl

theorem Exact.sound {connected : Bool} {limit : ℕ} {s : State ι} (hs : Exact connected limit s) :
    SlotsSound limit s := by
  constructor
  · rintro (_ | home)
    · exact (holders_le_admitted s).trans hs.redis_admitted
    · exact hs.fallback_admitted home
  · exact hs.counter_exact
  · intro backend
    rw [hs.counter_exact]
    omega
  · intro hidle backend
    have hnone : ∀ p : Call ι → Bool, (∀ call, p call = true →
        call.stage ≠ .rejected ∧ call.stage ≠ .released) → s.calls.countP p = 0 := by
      intro p hp
      rw [List.countP_eq_zero]
      intro call hmem htrue
      have hactive := hp call htrue
      rcases hidle call hmem with h | h
      · exact hactive.1 h
      · exact hactive.2 h
    have hholders : holders s backend = 0 := by
      apply hnone
      intro call hholds
      cases backend <;> simp_all [Holds]
    have hpassing : passing s backend = 0 := by
      apply hnone
      intro call hpasses
      cases backend with
      | redis =>
          simp only [Passing, decide_eq_true_eq] at hpasses
          rcases hpasses with h | h <;> simp [h]
      | fallback home =>
          simp only [Passing, decide_eq_true_eq] at hpasses
          rcases hpasses.2 with h | h <;> simp [h]
    rw [hs.counter_exact, hholders, hpassing]
    rfl

/-- While no step loses a slot, each backend grants at most `limit` slots at a time, counts
exactly the slots taken, and is back at zero when every call has ended. -/
theorem parallel_slots_sound {connected : Bool} {limit : ℕ} (hpositive : 0 < limit)
    {s : State ι}
    (hs : ReachableBy (parallelSystem connected limit) (KeepsSlots connected) s) :
    SlotsSound limit s := by
  have hexact : Exact connected limit s := by
    refine hs.invariant ?_ ?_
    · rintro _ rfl
      exact initial_exact connected limit
    · intro t e ht he hkeeps
      exact ht.next hpositive he hkeeps
  exact hexact.sound

namespace Counterexample

def respond (k : ℕ) : Event Unit := .proceed k .answered

/-- Request 0 outlives the key, so request 1 counts from one again. -/
def longRequest : List (Event Unit) :=
  [.arrive (), respond 0, respond 0, .elapse 300, .arrive (), respond 1, respond 1]

def releases : List (Event Unit) := [respond 0, respond 1]

def runOf (events : List (Event Unit)) : State Unit :=
  events.foldl (next true 1) initial

theorem runOf_reachable {events : List (Event Unit)}
    (h : Fires (parallelSystem true 1) (fun _ _ => True) initial events) :
    Reachable (parallelSystem true 1) (runOf events) :=
  ReachableBy.fires (.initial rfl) h

/-- One request ends within the expiry and gives its slot back. -/
def shortRequest : List (Event Unit) :=
  [.arrive (), respond 0, respond 0, .elapse 299, respond 0, .elapse 300]

end Counterexample

open Counterexample in
/-- With one slot, a request that runs for 300 seconds lets a second one in, and after both
releases the counter stands at minus one. -/
theorem long_request_exceeds_limit :
    ∃ s t : State Unit, Reachable (parallelSystem true 1) s ∧ holders s .redis = 2 ∧
      Reachable (parallelSystem true 1) t ∧ Idle t ∧ counter t .redis = -1 ∧
      ¬SlotsSound 1 s ∧ ¬SlotsSound 1 t := by
  refine ⟨runOf longRequest, runOf (longRequest ++ releases), ?_, ?_, ?_, ?_, ?_, ?_, ?_⟩
  · exact runOf_reachable (by decide)
  · decide
  · exact runOf_reachable (by decide)
  · decide
  · decide
  · intro hsound
    exact absurd (hsound.within_limit .redis) (by decide)
  · intro hsound
    exact absurd (hsound.never_negative .redis) (by decide)

open Counterexample in
theorem parallel_slots_sound_short_request :
    0 < 1 ∧ ReachableBy (parallelSystem true 1) (KeepsSlots true) (runOf shortRequest) ∧
      SlotsSound 1 (runOf shortRequest) := by
  have hrun : ReachableBy (parallelSystem true 1) (KeepsSlots true) (runOf shortRequest) :=
    ReachableBy.fires (.initial rfl) (by decide)
  exact ⟨Nat.one_pos, hrun, parallel_slots_sound Nat.one_pos hrun⟩

end ParallelLimits
