import DeltaLLM.RateLimitChecks
import DeltaLLM.RedisCounters
import DeltaLLM.TransitionRuns
import Mathlib.Algebra.BigOperators.Group.List.Basic
import Mathlib.Logic.Function.Basic
import Mathlib.Order.Monotone.Defs
import Mathlib.Algebra.Ring.Int.Defs

/-! # The window limits

`check_rate_limits_atomic` once over the Redis script and once over the in-memory fallback, on the
same sequence of calls. Clocks count milliseconds. Every `time.time()` of a call is a reading of
its own: the counter key of a check and the expiry of its fallback entry come from different ones.
-/
namespace WindowLimits

open RateLimitChecks
open RedisCounters
open TransitionRuns

def seconds (clock : ℕ) : ℕ := clock / 1000

/-- `_window_id`. -/
def windowId (clock windowSeconds : ℕ) : ℕ := seconds clock / windowSeconds

def windowReset (clock windowSeconds : ℕ) : ℕ := (windowId clock windowSeconds + 1) * windowSeconds

/-- The clock readings of one call: on entry, for the fallback's `now`, for the key of each check,
and of the Redis server when it runs the script. -/
structure Readings where
  entered : ℕ
  began : ℕ
  keyed : ℕ → ℕ
  ran : ℕ

/-- A check with the window its key names. -/
structure Charge where
  check : RateLimitCheck
  window : ℕ
  deriving DecidableEq, Repr

namespace Charge

def key (charge : Charge) : String :=
  charge.check.scope ++ ":" ++ charge.check.entityId ++ ":" ++ charge.window.repr

def redisKey (charge : Charge) : String := "ratelimit:" ++ charge.key

def windowEnd (charge : Charge) : ℕ := (charge.window + 1) * charge.check.windowSeconds

/-- The same scope, entity and window. -/
def SameWindow (charge other : Charge) : Prop :=
  charge.check.scope = other.check.scope ∧ charge.check.entityId = other.check.entityId ∧
    charge.window = other.window

instance (charge other : Charge) : Decidable (charge.SameWindow other) :=
  inferInstanceAs (Decidable (_ ∧ _ ∧ _))

end Charge

def normalized (checks : List RateLimitCheck) : List RateLimitCheck :=
  checks.filter fun check => 0 < check.limit ∧ 0 < check.amount

def charges (checks : List RateLimitCheck) (readings : Readings) : List Charge :=
  (normalized checks).mapIdx fun i check =>
    ⟨check, windowId (readings.keyed i) check.windowSeconds⟩

structure RateLimitResult where
  checks : List RateLimitCheck
  currentValues : List ℤ
  windowResetAt : ℕ
  windowResets : List ℕ
  deriving DecidableEq, Repr

structure RateLimitError where
  message : String
  param : String
  code : String
  retryAfter : ℕ
  deriving DecidableEq, Repr

def exceeded (check : RateLimitCheck) (retryAfter : ℕ) : RateLimitError :=
  ⟨"Rate limit exceeded for scope '" ++ check.scope ++ "'", check.scope,
    check.scope ++ "_exceeded", retryAfter⟩

/-- The result of an accepted call with its counters after the increments. -/
def accepted (checks : List RateLimitCheck) (readings : Readings) (values : List ℤ) :
    RateLimitResult :=
  let windows := (normalized checks).map (·.windowSeconds)
  ⟨normalized checks, values, windowReset readings.entered (windows.min?.getD 0),
    windows.map (windowReset readings.entered)⟩

def noChecks : RateLimitResult := ⟨[], [], 0, []⟩

/-! ## The Redis script -/

abbrev RedisKeys := String → CounterKey

def overRedisLimit (keys : RedisKeys) (ran : ℕ) (charge : Charge) : Bool :=
  charge.check.limit < ((keys charge.redisKey).lapse ran).count + charge.check.amount

def incremented (keys : RedisKeys) (ran : ℕ) (charge : Charge) : CounterKey :=
  (((keys charge.redisKey).lapse ran).incrBy charge.check.amount).expire
    (ran + charge.check.windowSeconds * 1000)

/-- The second loop of the script, with the values it collects. -/
def incrementAll (ran : ℕ) : List Charge → RedisKeys → RedisKeys × List ℤ
  | [], keys => (keys, [])
  | charge :: rest, keys =>
      let counter := incremented keys ran charge
      let (keys', values) :=
        incrementAll ran rest (Function.update keys charge.redisKey counter)
      (keys', counter.count :: values)

def checkRateLimitsRedis (keys : RedisKeys) (checks : List RateLimitCheck) (readings : Readings) :
    RedisKeys × Except RateLimitError RateLimitResult :=
  if normalized checks = [] then (keys, .ok noChecks)
  else
    let all := charges checks readings
    match all.find? (overRedisLimit keys readings.ran) with
    | some charge =>
        let window := charge.check.windowSeconds
        (keys, .error (exceeded charge.check (window - seconds readings.entered % window)))
    | none =>
        let (keys', values) := incrementAll readings.ran all keys
        (keys', .ok (accepted checks readings values))

/-! ## The in-memory fallback -/

abbrev FallbackCounters := String → Option (ℕ × ℤ)

/-- The entry of a key as the loop reads it: a missing or outdated one starts at zero. -/
def readEntry (counters : FallbackCounters) (now : ℕ) (charge : Charge) : ℕ × ℤ :=
  let fresh := (now + charge.check.windowSeconds, 0)
  let entry := (counters charge.key).getD fresh
  if entry.1 ≤ now then fresh else entry

def pendingUpdates (counters : FallbackCounters) (now : ℕ) :
    List Charge → Except RateLimitError (List (String × ℕ × ℤ))
  | [] => .ok []
  | charge :: rest =>
      let entry := readEntry counters now charge
      let nextValue := entry.2 + charge.check.amount
      if charge.check.limit < nextValue then
        .error (exceeded charge.check (max 1 (entry.1 - now)))
      else (pendingUpdates counters now rest).map ((charge.key, entry.1, nextValue) :: ·)

def storeAll (counters : FallbackCounters) (updates : List (String × ℕ × ℤ)) : FallbackCounters :=
  updates.foldl (fun stored update => Function.update stored update.1 (some update.2)) counters

def checkRateLimitsFallback (counters : FallbackCounters) (checks : List RateLimitCheck)
    (readings : Readings) : FallbackCounters × Except RateLimitError RateLimitResult :=
  if normalized checks = [] then (counters, .ok noChecks)
  else
    match pendingUpdates counters (seconds readings.began) (charges checks readings) with
    | .error refusal => (counters, .error refusal)
    | .ok updates =>
        (storeAll counters updates, .ok (accepted checks readings (updates.map (·.2.2))))

/-! ## Both counters over one sequence of calls -/

structure State where
  clock : ℕ
  redis : RedisKeys
  fallback : FallbackCounters
  redisLog : List Charge
  fallbackLog : List Charge

def initial : State := ⟨0, fun _ => .missing, fun _ => none, [], []⟩

/-- One call of any caller with any limits. -/
structure RateLimitCall where
  auth : UserAPIKeyAuth
  tokens : ℤ
  model : Option String
  readings : Readings

namespace RateLimitCall

def checks (call : RateLimitCall) : List RateLimitCheck :=
  buildRateLimitChecks call.auth call.tokens call.model

def charges (call : RateLimitCall) : List Charge :=
  WindowLimits.charges call.checks call.readings

def onRedis (call : RateLimitCall) (s : State) :
    RedisKeys × Except RateLimitError RateLimitResult :=
  checkRateLimitsRedis s.redis call.checks call.readings

def onFallback (call : RateLimitCall) (s : State) :
    FallbackCounters × Except RateLimitError RateLimitResult :=
  checkRateLimitsFallback s.fallback call.checks call.readings

end RateLimitCall

/-- The clocks never run backwards. -/
def enabled (s : State) (call : RateLimitCall) : Prop :=
  s.clock ≤ call.readings.ran ∧ call.readings.entered ≤ call.readings.began ∧
    Monotone call.readings.keyed ∧
    ∀ i, call.readings.began ≤ call.readings.keyed i ∧
      call.readings.keyed i ≤ call.readings.ran

def logged (log charged : List Charge) (outcome : Except RateLimitError RateLimitResult) :
    List Charge :=
  match outcome with
  | .ok _ => charged ++ log
  | .error _ => log

def next (s : State) (call : RateLimitCall) : State where
  clock := call.readings.ran
  redis := (call.onRedis s).1
  fallback := (call.onFallback s).1
  redisLog := logged s.redisLog call.charges (call.onRedis s).2
  fallbackLog := logged s.fallbackLog call.charges (call.onFallback s).2

def windowSystem : TransitionSystem State RateLimitCall where
  initial s := s = initial
  enabled := enabled
  next := next

/-- The amount admitted in the window of a charge. -/
def admitted (log : List Charge) (charge : Charge) : ℤ :=
  ((log.filter fun other => other.SameWindow charge).map (·.check.amount)).sum

/-- With one limit configured for a scope and entity, no window of it holds more. -/
def WithinLimits (log : List Charge) : Prop :=
  ∀ charge ∈ log,
    (∀ other ∈ log, other.SameWindow charge → other.check.limit = charge.check.limit) →
      admitted log charge ≤ charge.check.limit

structure LimitsKept (s : State) : Prop where
  same_calls_accepted : s.redisLog = s.fallbackLog
  redis_within : WithinLimits s.redisLog
  fallback_within : WithinLimits s.fallbackLog

def Refused (outcome : Except RateLimitError RateLimitResult) : Prop :=
  ∃ refusal, outcome = .error refusal

/-- What one call does in a given state. -/
structure CallKept (s : State) (call : RateLimitCall) : Prop where
  same_verdict : Refused (call.onRedis s).2 ↔ Refused (call.onFallback s).2
  redis_unchanged : Refused (call.onRedis s).2 → (call.onRedis s).1 = s.redis
  fallback_unchanged : Refused (call.onFallback s).2 → (call.onFallback s).1 = s.fallback
  refused_over_limit : Refused (call.onRedis s).2 →
    ∃ charge ∈ call.charges, charge.check.limit < admitted s.redisLog charge + charge.check.amount

/-- No counter of the call's own windows has expired where the call reads it, so neither the time
to live nor the reset of an outdated entry forgets an admitted amount. -/
def ReadsAlive (s : State) (call : RateLimitCall) : Prop :=
  ∀ charge ∈ call.charges,
    ¬(s.redis charge.redisKey).Expired call.readings.ran ∧
      ∀ entry ∈ s.fallback charge.key, seconds call.readings.began < entry.1

/-- Every reading of the call lies in the window that the key of each check names. -/
def OneWindow (_ : State) (call : RateLimitCall) : Prop :=
  ∀ charge ∈ call.charges,
    windowId call.readings.began charge.check.windowSeconds = charge.window ∧
      windowId call.readings.ran charge.check.windowSeconds = charge.window

/-! ## Keys name windows -/

theorem split_first {c : Char} : ∀ {xs xs' : List Char} {rest rest' : List Char},
    c ∉ xs → c ∉ xs' → xs ++ c :: rest = xs' ++ c :: rest' → xs = xs' ∧ rest = rest'
  | [], [], _, _, _, _, h => ⟨rfl, (List.cons.inj h).2⟩
  | [], x' :: xs', _, _, _, hxs', h => by
      obtain ⟨rfl, _⟩ := List.cons.inj h
      exact absurd List.mem_cons_self hxs'
  | x :: xs, [], _, _, hxs, _, h => by
      obtain ⟨rfl, _⟩ := List.cons.inj h
      exact absurd List.mem_cons_self hxs
  | x :: xs, x' :: xs', _, _, hxs, hxs', h => by
      obtain ⟨rfl, htail⟩ := List.cons.inj h
      obtain ⟨rfl, hrest⟩ := split_first (List.not_mem_of_not_mem_cons hxs)
        (List.not_mem_of_not_mem_cons hxs') htail
      exact ⟨rfl, hrest⟩

theorem split_last {c : Char} {xs xs' rest rest' : List Char} (h : c ∉ rest) (h' : c ∉ rest')
    (heq : xs ++ c :: rest = xs' ++ c :: rest') : xs = xs' ∧ rest = rest' := by
  have hreverse := congrArg List.reverse heq
  simp only [List.reverse_append, List.reverse_cons, List.append_assoc,
    List.singleton_append] at hreverse
  obtain ⟨hrest, hxs⟩ := split_first (by simpa using h) (by simpa using h') hreverse
  exact ⟨List.reverse_injective hxs, List.reverse_injective hrest⟩

theorem colon_notMem_repr (n : ℕ) : ':' ∉ n.repr.toList := by
  rw [Nat.toList_repr]
  intro hmem
  exact absurd (Nat.isDigit_of_mem_toDigits (by decide) (by decide) hmem) (by decide)

theorem repr_inj {m n : ℕ} (h : m.repr.toList = n.repr.toList) : m = n := by
  rw [Nat.toList_repr, Nat.toList_repr] at h
  rw [← @Nat.ofDigitChars_ten_toDigits m, h, Nat.ofDigitChars_ten_toDigits]

/-- A charge whose scope is one of the source's, with its window length. -/
def Charge.Known (charge : Charge) : Prop :=
  (charge.check.scope, charge.check.windowSeconds) ∈ scopeWindows

theorem key_eq_iff {charge other : Charge} (h : charge.Known) (h' : other.Known) :
    charge.key = other.key ↔ charge.SameWindow other := by
  constructor
  · intro hkey
    have hlist := congrArg String.toList hkey
    simp only [Charge.key, String.toList_append, List.append_assoc] at hlist
    obtain ⟨hscope, hrest⟩ := split_first (colon_notMem_scope h) (colon_notMem_scope h') hlist
    obtain ⟨hentity, hwindow⟩ := split_last (colon_notMem_repr _) (colon_notMem_repr _) hrest
    exact ⟨String.toList_injective hscope, String.toList_injective hentity, repr_inj hwindow⟩
  · rintro ⟨hscope, hentity, hwindow⟩
    simp only [Charge.key, hscope, hentity, hwindow]

theorem windowEnd_of_sameWindow {charge other : Charge} (h : charge.Known) (h' : other.Known)
    (hsame : charge.SameWindow other) : charge.windowEnd = other.windowEnd := by
  have hseconds : charge.check.windowSeconds = other.check.windowSeconds := by
    apply window_of_scope h
    rw [hsame.1]
    exact h'
  simp only [Charge.windowEnd, hsame.2.2, hseconds]

theorem Charge.SameWindow.refl (charge : Charge) : charge.SameWindow charge := ⟨rfl, rfl, rfl⟩

theorem Charge.SameWindow.symm {charge other : Charge} (h : charge.SameWindow other) :
    other.SameWindow charge := ⟨h.1.symm, h.2.1.symm, h.2.2.symm⟩

theorem Charge.SameWindow.trans {charge other third : Charge} (h : charge.SameWindow other)
    (h' : other.SameWindow third) : charge.SameWindow third :=
  ⟨h.1.trans h'.1, h.2.1.trans h'.2.1, h.2.2.trans h'.2.2⟩

theorem redisKey_eq_iff {charge other : Charge} (h : charge.Known) (h' : other.Known) :
    charge.redisKey = other.redisKey ↔ charge.SameWindow other := by
  rw [← key_eq_iff h h', Charge.redisKey, Charge.redisKey, String.append_right_inj]

/-! ## Amounts of a log -/

theorem admitted_append (log log' : List Charge) (charge : Charge) :
    admitted (log ++ log') charge = admitted log charge + admitted log' charge := by
  simp only [admitted, List.filter_append, List.map_append, List.sum_append]

theorem admitted_congr {log : List Charge} {charge other : Charge}
    (h : charge.SameWindow other) : admitted log charge = admitted log other := by
  have hfilter : (log.filter fun entry => entry.SameWindow charge) =
      log.filter fun entry => entry.SameWindow other := by
    apply List.filter_congr
    intro entry _
    rw [decide_eq_decide]
    exact ⟨fun h' => h'.trans h, fun h' => h'.trans h.symm⟩
  rw [admitted, hfilter, admitted]

theorem admitted_of_no_window {log : List Charge} {charge : Charge}
    (h : ∀ other ∈ log, ¬other.SameWindow charge) : admitted log charge = 0 := by
  have hfilter : (log.filter fun other => other.SameWindow charge) = [] := by
    rw [List.filter_eq_nil_iff]
    intro other hother
    simpa using h other hother
  rw [admitted, hfilter, List.map_nil, List.sum_nil]

/-- A call charges each of its windows once. -/
theorem admitted_of_distinct_scopes {charged : List Charge} {charge : Charge}
    (hdistinct : (charged.map (·.check.scope)).Nodup) (hmem : charge ∈ charged) :
    admitted charged charge = charge.check.amount := by
  induction charged with
  | nil => cases hmem
  | cons first rest ih =>
      rw [List.map_cons, List.nodup_cons] at hdistinct
      have happend := admitted_append [first] rest charge
      rw [List.singleton_append] at happend
      rcases List.mem_cons.mp hmem with rfl | hrest
      · have hnone : admitted rest charge = 0 := by
          apply admitted_of_no_window
          intro other hother hsame
          exact hdistinct.1 (List.mem_map.mpr ⟨other, hother, hsame.1⟩)
        have hone : admitted [charge] charge = charge.check.amount := by
          simp [admitted, Charge.SameWindow.refl]
        omega
      · have hzero : admitted [first] charge = 0 := by
          apply admitted_of_no_window
          intro other hother hsame
          rw [List.mem_singleton] at hother
          subst hother
          exact hdistinct.1 (List.mem_map.mpr ⟨charge, hrest, hsame.1.symm⟩)
        have htail := ih hdistinct.2 hrest
        omega

/-! ## The loops over distinct keys -/

theorem incrementAll_other (ran : ℕ) {charged : List Charge} {key : String} (keys : RedisKeys)
    (h : ∀ charge ∈ charged, charge.redisKey ≠ key) :
    (incrementAll ran charged keys).1 key = keys key := by
  induction charged generalizing keys with
  | nil => rfl
  | cons first rest ih =>
      have hfirst := h first List.mem_cons_self
      rw [incrementAll]
      rw [ih _ fun charge hcharge => h charge (List.mem_cons_of_mem _ hcharge)]
      exact Function.update_of_ne hfirst.symm _ _

theorem incrementAll_key (ran : ℕ) {charged : List Charge} {charge : Charge} (keys : RedisKeys)
    (hdistinct : (charged.map (·.redisKey)).Nodup) (hmem : charge ∈ charged) :
    (incrementAll ran charged keys).1 charge.redisKey = incremented keys ran charge := by
  induction charged generalizing keys with
  | nil => cases hmem
  | cons first rest ih =>
      rw [List.map_cons, List.nodup_cons] at hdistinct
      rw [incrementAll]
      rcases List.mem_cons.mp hmem with rfl | hrest
      · rw [incrementAll_other]
        · exact Function.update_self _ _ _
        · intro other hother heq
          exact hdistinct.1 (List.mem_map.mpr ⟨other, hother, heq⟩)
      · have hne : charge.redisKey ≠ first.redisKey := by
          intro heq
          exact hdistinct.1 (List.mem_map.mpr ⟨charge, hrest, heq⟩)
        rw [ih _ hdistinct.2 hrest, incremented, Function.update_of_ne hne]
        rfl

def update (counters : FallbackCounters) (now : ℕ) (charge : Charge) : String × ℕ × ℤ :=
  let entry := readEntry counters now charge
  (charge.key, entry.1, entry.2 + charge.check.amount)

def overFallbackLimit (counters : FallbackCounters) (now : ℕ) (charge : Charge) : Prop :=
  charge.check.limit < (readEntry counters now charge).2 + charge.check.amount

theorem pendingUpdates_eq (counters : FallbackCounters) (now : ℕ) (charged : List Charge) :
    pendingUpdates counters now charged = .ok (charged.map (update counters now)) ∧
        (∀ charge ∈ charged, ¬overFallbackLimit counters now charge) ∨
      (∃ refusal, pendingUpdates counters now charged = .error refusal) ∧
        ∃ charge ∈ charged, overFallbackLimit counters now charge := by
  induction charged with
  | nil => exact .inl ⟨rfl, by simp⟩
  | cons first rest ih =>
      by_cases hover : overFallbackLimit counters now first
      · right
        refine ⟨⟨exceeded first.check (max 1 ((readEntry counters now first).1 - now)), ?_⟩,
          first, List.mem_cons_self, hover⟩
        rw [pendingUpdates]
        exact if_pos hover
      · have hcons : pendingUpdates counters now (first :: rest) =
            (pendingUpdates counters now rest).map (update counters now first :: ·) := by
          rw [pendingUpdates]
          exact if_neg hover
        rcases ih with ⟨hok, hall⟩ | ⟨⟨refusal, herror⟩, charge, hcharge, hcover⟩
        · left
          refine ⟨?_, ?_⟩
          · rw [hcons, hok]
            rfl
          · intro charge hcharge
            rcases List.mem_cons.mp hcharge with rfl | hrest
            · exact hover
            · exact hall charge hrest
        · right
          refine ⟨⟨refusal, ?_⟩, charge, List.mem_cons_of_mem _ hcharge, hcover⟩
          rw [hcons, herror]
          rfl

theorem storeAll_other {updates : List (String × ℕ × ℤ)} {key : String}
    (counters : FallbackCounters) (h : ∀ entry ∈ updates, entry.1 ≠ key) :
    storeAll counters updates key = counters key := by
  induction updates generalizing counters with
  | nil => rfl
  | cons first rest ih =>
      have hfirst := h first List.mem_cons_self
      have htail := ih (Function.update counters first.1 (some first.2))
        fun entry hentry => h entry (List.mem_cons_of_mem _ hentry)
      rw [Function.update_of_ne hfirst.symm] at htail
      exact htail

theorem storeAll_key {updates : List (String × ℕ × ℤ)} {entry : String × ℕ × ℤ}
    (counters : FallbackCounters) (hdistinct : (updates.map (·.1)).Nodup)
    (hmem : entry ∈ updates) : storeAll counters updates entry.1 = some entry.2 := by
  induction updates generalizing counters with
  | nil => cases hmem
  | cons first rest ih =>
      rw [List.map_cons, List.nodup_cons] at hdistinct
      rcases List.mem_cons.mp hmem with rfl | hrest
      · have hother : storeAll (Function.update counters entry.1 (some entry.2)) rest entry.1 =
            Function.update counters entry.1 (some entry.2) entry.1 := by
          apply storeAll_other
          intro other hother heq
          exact hdistinct.1 (List.mem_map.mpr ⟨other, hother, heq⟩)
        rw [Function.update_self] at hother
        exact hother
      · exact ih _ hdistinct.2 hrest

/-! ## One call -/

section Calls

variable {s : State} {call : RateLimitCall} {charge : Charge}

theorem charges_scopes (call : RateLimitCall) :
    (call.charges.map (·.check.scope)).Sublist (call.checks.map (·.scope)) := by
  have hcharges : call.charges.map (·.check.scope) =
      (normalized call.checks).map (·.scope) := by
    apply List.ext_getElem
    · simp [RateLimitCall.charges, charges]
    · simp [RateLimitCall.charges, charges]
  rw [hcharges]
  exact List.filter_sublist.map _

theorem charges_distinct (call : RateLimitCall) :
    (call.charges.map (·.check.scope)).Nodup :=
  (buildRateLimitChecks_wellFormed _ _ _).distinct.sublist (charges_scopes call)

theorem mem_charges (h : charge ∈ call.charges) :
    charge.Known ∧ 0 < charge.check.amount ∧ 0 < charge.check.windowSeconds := by
  have hwell := buildRateLimitChecks_wellFormed call.auth call.tokens call.model
  have hcheck : charge.check ∈ call.checks := by
    simp only [RateLimitCall.charges, charges, List.mem_mapIdx] at h
    obtain ⟨i, hi, rfl⟩ := h
    exact List.mem_of_mem_filter (List.getElem_mem hi)
  have hknown := hwell.known _ hcheck
  exact ⟨hknown, (hwell.positive _ hcheck).2, window_pos hknown⟩

theorem charges_eq_nil (h : normalized call.checks = []) : call.charges = [] := by
  simp [RateLimitCall.charges, charges, h]

/-- Both keys of a charge are its own within the call. -/
theorem charges_keys (call : RateLimitCall) :
    (call.charges.map (·.redisKey)).Nodup ∧ (call.charges.map (·.key)).Nodup := by
  have hscopes := charges_distinct call
  have hsame : ∀ charge ∈ call.charges, ∀ other ∈ call.charges, charge.SameWindow other →
      charge = other := by
    intro charge hcharge other hother hwindow
    exact List.inj_on_of_nodup_map hscopes hcharge hother hwindow.1
  have hnodup : call.charges.Nodup := hscopes.of_map
  constructor
  · refine hnodup.map_on fun charge hcharge other hother hkey => ?_
    apply hsame charge hcharge other hother
    exact (redisKey_eq_iff (mem_charges hcharge).1 (mem_charges hother).1).mp hkey
  · refine hnodup.map_on fun charge hcharge other hother hkey => ?_
    apply hsame charge hcharge other hother
    exact (key_eq_iff (mem_charges hcharge).1 (mem_charges hother).1).mp hkey

theorem updates_distinct (s : State) (call : RateLimitCall) :
    ((call.charges.map (update s.fallback (seconds call.readings.began))).map (·.1)).Nodup := by
  have hkeys : (call.charges.map (update s.fallback (seconds call.readings.began))).map (·.1) =
      call.charges.map (·.key) := by
    rw [List.map_map]
    rfl
  rw [hkeys]
  exact (charges_keys call).2

/-- What the counters say of a log, while no counter has lost an amount. -/
structure Counts (s : State) : Prop where
  same_log : s.redisLog = s.fallbackLog
  known : ∀ charge ∈ s.redisLog, charge.Known
  redis_counts : ∀ charge, charge.Known →
    (s.redis charge.redisKey).count = admitted s.redisLog charge
  fallback_counts : ∀ charge, charge.Known →
    ((s.fallback charge.key).map (·.2)).getD 0 = admitted s.redisLog charge
  within : WithinLimits s.redisLog

def Over (s : State) (charge : Charge) : Prop :=
  charge.check.limit < admitted s.redisLog charge + charge.check.amount

theorem overRedisLimit_iff (hs : Counts s) (halive : ReadsAlive s call)
    (h : charge ∈ call.charges) :
    overRedisLimit s.redis call.readings.ran charge = true ↔ Over s charge := by
  have hlapse := CounterKey.lapse_of_not_expired (halive charge h).1
  have hcount := hs.redis_counts charge (mem_charges h).1
  rw [overRedisLimit, hlapse, hcount, decide_eq_true_iff, Over]

theorem readEntry_value (hs : Counts s) (halive : ReadsAlive s call)
    (h : charge ∈ call.charges) :
    (readEntry s.fallback (seconds call.readings.began) charge).2 =
      admitted s.redisLog charge := by
  have hcount := hs.fallback_counts charge (mem_charges h).1
  rw [← hcount]
  cases hentry : s.fallback charge.key with
  | none =>
      simp only [readEntry, hentry, Option.getD_none, Option.map_none]
      split <;> rfl
  | some entry =>
      have hfresh := (halive charge h).2 entry hentry
      simp only [readEntry, hentry, Option.getD_some, Option.map_some]
      rw [if_neg (by omega)]

theorem overFallbackLimit_iff (hs : Counts s) (halive : ReadsAlive s call)
    (h : charge ∈ call.charges) :
    overFallbackLimit s.fallback (seconds call.readings.began) charge ↔ Over s charge := by
  rw [overFallbackLimit, readEntry_value hs halive h, Over]

/-- The Redis script refuses over a limit and counts every charge otherwise. -/
theorem onRedis_cases (hs : Counts s) (halive : ReadsAlive s call) :
    (Refused (call.onRedis s).2 ∧ (call.onRedis s).1 = s.redis ∧
        ∃ charge ∈ call.charges, Over s charge) ∨
      ((∃ result, (call.onRedis s).2 = .ok result) ∧
        (call.onRedis s).1 = (incrementAll call.readings.ran call.charges s.redis).1 ∧
        ∀ charge ∈ call.charges, ¬Over s charge) := by
  by_cases hempty : normalized call.checks = []
  · right
    have hcharges := charges_eq_nil hempty
    simp only [RateLimitCall.onRedis, checkRateLimitsRedis, hempty, if_true, hcharges]
    refine ⟨⟨_, rfl⟩, rfl, ?_⟩
    simp
  · have hkeep : call.onRedis s =
        match call.charges.find? (overRedisLimit s.redis call.readings.ran) with
        | some charge =>
            let window := charge.check.windowSeconds
            (s.redis, .error (exceeded charge.check
              (window - seconds call.readings.entered % window)))
        | none =>
            let (keys', values) := incrementAll call.readings.ran call.charges s.redis
            (keys', .ok (accepted call.checks call.readings values)) := by
      rw [RateLimitCall.onRedis, checkRateLimitsRedis, if_neg hempty]
      rfl
    cases hfind : call.charges.find? (overRedisLimit s.redis call.readings.ran) with
    | some charge =>
        left
        rw [hkeep, hfind]
        have hmem := List.mem_of_find?_eq_some hfind
        have hover := (overRedisLimit_iff hs halive hmem).mp (List.find?_some hfind)
        exact ⟨⟨_, rfl⟩, rfl, charge, hmem, hover⟩
    | none =>
        right
        rw [hkeep, hfind]
        refine ⟨⟨_, rfl⟩, rfl, ?_⟩
        intro charge hcharge hover
        rw [List.find?_eq_none] at hfind
        exact hfind charge hcharge ((overRedisLimit_iff hs halive hcharge).mpr hover)

theorem onFallback_cases (hs : Counts s) (halive : ReadsAlive s call) :
    (Refused (call.onFallback s).2 ∧ (call.onFallback s).1 = s.fallback ∧
        ∃ charge ∈ call.charges, Over s charge) ∨
      ((∃ result, (call.onFallback s).2 = .ok result) ∧
        (call.onFallback s).1 = storeAll s.fallback
          (call.charges.map (update s.fallback (seconds call.readings.began))) ∧
        ∀ charge ∈ call.charges, ¬Over s charge) := by
  by_cases hempty : normalized call.checks = []
  · right
    have hcharges := charges_eq_nil hempty
    simp only [RateLimitCall.onFallback, checkRateLimitsFallback, hempty, if_true, hcharges]
    refine ⟨⟨_, rfl⟩, rfl, ?_⟩
    simp
  · have hkeep : call.onFallback s =
        match pendingUpdates s.fallback (seconds call.readings.began) call.charges with
        | .error refusal => (s.fallback, .error refusal)
        | .ok updates => (storeAll s.fallback updates,
            .ok (accepted call.checks call.readings (updates.map (·.2.2)))) := by
      rw [RateLimitCall.onFallback, checkRateLimitsFallback, if_neg hempty]
      rfl
    rcases pendingUpdates_eq s.fallback (seconds call.readings.began) call.charges with
      ⟨hok, hall⟩ | ⟨⟨refusal, herror⟩, charge, hcharge, hover⟩
    · right
      rw [hkeep, hok]
      refine ⟨⟨_, rfl⟩, rfl, ?_⟩
      intro charge hcharge hover
      exact hall charge hcharge ((overFallbackLimit_iff hs halive hcharge).mpr hover)
    · left
      rw [hkeep, herror]
      exact ⟨⟨_, rfl⟩, rfl, charge, hcharge, (overFallbackLimit_iff hs halive hcharge).mp hover⟩

theorem admitted_accepted (s : State) (call : RateLimitCall) (charge : Charge) :
    (∃ own ∈ call.charges, own.SameWindow charge ∧
        admitted (call.charges ++ s.redisLog) charge =
          admitted s.redisLog own + own.check.amount) ∨
      (∀ own ∈ call.charges, ¬own.SameWindow charge) ∧
        admitted (call.charges ++ s.redisLog) charge = admitted s.redisLog charge := by
  by_cases hown : ∃ own ∈ call.charges, own.SameWindow charge
  · left
    obtain ⟨own, hmem, hsame⟩ := hown
    refine ⟨own, hmem, hsame, ?_⟩
    rw [admitted_append, ← admitted_congr hsame,
      admitted_of_distinct_scopes (charges_distinct call) hmem, ← admitted_congr hsame]
    exact add_comm _ _
  · right
    simp only [not_exists, not_and] at hown
    refine ⟨hown, ?_⟩
    rw [admitted_append, admitted_of_no_window hown, zero_add]

theorem redis_counts_accepted (hs : Counts s) (halive : ReadsAlive s call)
    (hknown : charge.Known) :
    ((incrementAll call.readings.ran call.charges s.redis).1 charge.redisKey).count =
      admitted (call.charges ++ s.redisLog) charge := by
  rcases admitted_accepted s call charge with ⟨own, hmem, hsame, hsum⟩ | ⟨hnone, hsum⟩
  · have hkey := (redisKey_eq_iff (mem_charges hmem).1 hknown).mpr hsame
    have hlapse := CounterKey.lapse_of_not_expired (halive own hmem).1
    rw [hsum, ← hkey, incrementAll_key _ _ (charges_keys call).1 hmem, incremented,
      CounterKey.count_expire, CounterKey.count_incrBy, hlapse,
      hs.redis_counts own (mem_charges hmem).1]
  · rw [hsum, incrementAll_other, hs.redis_counts charge hknown]
    intro own hmem hkey
    exact hnone own hmem ((redisKey_eq_iff (mem_charges hmem).1 hknown).mp hkey)

theorem fallback_counts_accepted (hs : Counts s) (halive : ReadsAlive s call)
    (hknown : charge.Known) :
    ((storeAll s.fallback (call.charges.map
        (update s.fallback (seconds call.readings.began))) charge.key).map (·.2)).getD 0 =
      admitted (call.charges ++ s.redisLog) charge := by
  rcases admitted_accepted s call charge with ⟨own, hmem, hsame, hsum⟩ | ⟨hnone, hsum⟩
  · have hkey := (key_eq_iff (mem_charges hmem).1 hknown).mpr hsame
    have hstored := storeAll_key s.fallback (updates_distinct s call)
      (List.mem_map_of_mem hmem)
    have hread := readEntry_value hs halive hmem
    rw [hsum, ← hkey]
    simp only [update] at hstored hread ⊢
    rw [hstored, Option.map_some, Option.getD_some, hread]
  · rw [hsum, storeAll_other, hs.fallback_counts charge hknown]
    intro entry hentry hkey
    obtain ⟨own, hmem, rfl⟩ := List.mem_map.mp hentry
    exact hnone own hmem ((key_eq_iff (mem_charges hmem).1 hknown).mp hkey)

theorem within_accepted (hs : Counts s) (hroom : ∀ charge ∈ call.charges, ¬Over s charge) :
    WithinLimits (call.charges ++ s.redisLog) := by
  intro charge hcharge hsame
  rcases admitted_accepted s call charge with ⟨own, hmem, hown, hsum⟩ | ⟨hnone, hsum⟩
  · have hlimit := hsame own (List.mem_append_left _ hmem) hown
    have hfits := hroom own hmem
    rw [Over] at hfits
    omega
  · rw [hsum]
    rcases List.mem_append.mp hcharge with hnew | hold
    · exact absurd (Charge.SameWindow.refl charge) (hnone charge hnew)
    · apply hs.within charge hold
      intro other hother
      exact hsame other (List.mem_append_right _ hother)

theorem Counts.next (hs : Counts s) (halive : ReadsAlive s call) :
    Counts (WindowLimits.next s call) := by
  rcases onRedis_cases hs halive with ⟨⟨refusal, hredis⟩, hkeys, charge, hcharge, hover⟩ |
      ⟨⟨result, hredis⟩, hkeys, hroom⟩ <;>
    rcases onFallback_cases hs halive with ⟨⟨refusal', hfallback⟩, hentries, charge', hmem,
      hover'⟩ |
      ⟨⟨result', hfallback⟩, hentries, hroom'⟩
  · constructor
    · simpa only [WindowLimits.next, hredis, hfallback, logged] using hs.same_log
    · simpa only [WindowLimits.next, hredis, logged] using hs.known
    · simpa only [WindowLimits.next, hredis, hkeys, logged] using hs.redis_counts
    · simpa only [WindowLimits.next, hredis, hentries, logged] using hs.fallback_counts
    · simpa only [WindowLimits.next, hredis, logged] using hs.within
  · exact absurd hover (hroom' charge hcharge)
  · exact absurd hover' (hroom charge' hmem)
  · constructor
    · simp only [WindowLimits.next, hredis, hfallback, logged, hs.same_log]
    · simp only [WindowLimits.next, hredis, logged]
      intro charge hcharge
      rcases List.mem_append.mp hcharge with hnew | hold
      · exact (mem_charges hnew).1
      · exact hs.known charge hold
    · simp only [WindowLimits.next, hredis, hkeys, logged]
      intro charge hknown
      exact redis_counts_accepted hs halive hknown
    · simp only [WindowLimits.next, hredis, hentries, logged]
      intro charge hknown
      exact fallback_counts_accepted hs halive hknown
    · simp only [WindowLimits.next, hredis, logged]
      exact within_accepted hs hroom

theorem Counts.callKept (hs : Counts s) (halive : ReadsAlive s call) : CallKept s call := by
  rcases onRedis_cases hs halive with ⟨hrefused, hkeys, charge, hcharge, hover⟩ |
      ⟨⟨result, hredis⟩, hkeys, hroom⟩ <;>
    rcases onFallback_cases hs halive with ⟨hrefused', hentries, charge', hmem, hover'⟩ |
      ⟨⟨result', hfallback⟩, hentries, hroom'⟩
  · exact ⟨iff_of_true hrefused hrefused', fun _ => hkeys, fun _ => hentries,
      fun _ => ⟨charge, hcharge, hover⟩⟩
  · exact absurd hover (hroom' charge hcharge)
  · exact absurd hover' (hroom charge' hmem)
  · have hnot : ¬Refused (call.onRedis s).2 := by
      rintro ⟨refusal, herror⟩
      rw [hredis] at herror
      cases herror
    have hnot' : ¬Refused (call.onFallback s).2 := by
      rintro ⟨refusal, herror⟩
      rw [hfallback] at herror
      cases herror
    exact ⟨iff_of_false hnot hnot', fun h => absurd h hnot, fun h => absurd h hnot',
      fun h => absurd h hnot⟩

end Calls

theorem initial_counts : Counts initial where
  same_log := rfl
  known := by simp [initial]
  redis_counts := by simp [initial, admitted]
  fallback_counts := by simp [initial, admitted]
  within := by simp [initial, WithinLimits]

theorem reachable_counts {s : State} (hs : ReachableBy windowSystem ReadsAlive s) : Counts s := by
  refine hs.invariant ?_ ?_
  · rintro _ rfl
    exact initial_counts
  · intro t call ht _ halive
    exact ht.next halive

/-- While no call reads an expired counter of its own windows, every window stays within its
limit, a refused call changes no counter and was over a limit, and the Redis script and the
fallback give the same verdicts. -/
theorem window_limits_kept {s : State} (hs : ReachableBy windowSystem ReadsAlive s) :
    LimitsKept s ∧ ∀ call, enabled s call → ReadsAlive s call → CallKept s call := by
  have hcounts := reachable_counts hs
  refine ⟨⟨hcounts.same_log, hcounts.within, ?_⟩, ?_⟩
  · rw [← hcounts.same_log]
    exact hcounts.within
  · intro call _ halive
    exact hcounts.callKept halive

/-! ## Readings in one window -/

theorem lt_windowEnd {clock windowSeconds : ℕ} (h : 0 < windowSeconds) :
    seconds clock < (windowId clock windowSeconds + 1) * windowSeconds := by
  rw [← Nat.div_lt_iff_lt_mul h]
  exact Nat.lt_succ_self _

theorem windowEnd_le {clock windowSeconds : ℕ} :
    (windowId clock windowSeconds + 1) * windowSeconds ≤ seconds clock + windowSeconds := by
  rw [Nat.succ_mul]
  exact Nat.add_le_add_right (Nat.div_mul_le_self _ _) _

/-- No counter expires before the window of its key has ended. -/
structure Deadlines (s : State) : Prop where
  redis_deadline : ∀ charge : Charge, charge.Known →
    ∀ deadline ∈ (s.redis charge.redisKey).expiresAt, charge.windowEnd * 1000 ≤ deadline
  fallback_deadline : ∀ charge : Charge, charge.Known →
    ∀ entry ∈ s.fallback charge.key, charge.windowEnd ≤ entry.1

section Windows

variable {s : State} {call : RateLimitCall} {charge own : Charge}

theorem Deadlines.readsAlive (hs : Deadlines s) (hwindow : OneWindow s call) :
    ReadsAlive s call := by
  intro charge hcharge
  obtain ⟨hknown, _, hpositive⟩ := mem_charges hcharge
  obtain ⟨hbegan, hran⟩ := hwindow charge hcharge
  have hbefore := @lt_windowEnd call.readings.began _ hpositive
  have hrunning := @lt_windowEnd call.readings.ran _ hpositive
  rw [hbegan] at hbefore
  rw [hran] at hrunning
  constructor
  · rintro ⟨deadline, hdeadline, hle⟩
    have hend := hs.redis_deadline charge hknown deadline hdeadline
    simp only [Charge.windowEnd, seconds] at hend hrunning
    omega
  · intro entry hentry
    exact Nat.lt_of_lt_of_le hbefore (hs.fallback_deadline charge hknown entry hentry)

theorem redis_deadline_accepted (hwindow : OneWindow s call) (hmem : own ∈ call.charges) :
    own.windowEnd * 1000 ≤ call.readings.ran + own.check.windowSeconds * 1000 := by
  have hend := @windowEnd_le call.readings.ran own.check.windowSeconds
  rw [(hwindow own hmem).2] at hend
  simp only [Charge.windowEnd, seconds] at hend ⊢
  omega

theorem fallback_deadline_accepted (hs : Deadlines s) (hwindow : OneWindow s call)
    (hmem : own ∈ call.charges) :
    own.windowEnd ≤ (readEntry s.fallback (seconds call.readings.began) own).1 := by
  have hend := @windowEnd_le call.readings.began own.check.windowSeconds
  rw [(hwindow own hmem).1] at hend
  simp only [readEntry]
  split
  · exact hend
  · cases hentry : s.fallback own.key with
    | none => exact hend
    | some entry => exact hs.fallback_deadline own (mem_charges hmem).1 entry hentry

theorem Deadlines.next (hs : Deadlines s) (hcounts : Counts s) (hwindow : OneWindow s call) :
    Deadlines (WindowLimits.next s call) := by
  have halive := hs.readsAlive hwindow
  constructor
  · rcases onRedis_cases hcounts halive with ⟨_, hkeys, _⟩ | ⟨_, hkeys, _⟩
    · simpa only [WindowLimits.next, hkeys] using hs.redis_deadline
    · simp only [WindowLimits.next, hkeys]
      intro charge hknown deadline hdeadline
      by_cases hown : ∃ own ∈ call.charges, own.redisKey = charge.redisKey
      · obtain ⟨own, hmem, hkey⟩ := hown
        have hsame := (redisKey_eq_iff (mem_charges hmem).1 hknown).mp hkey
        rw [← hkey, incrementAll_key _ _ (charges_keys call).1 hmem, incremented,
          CounterKey.expiresAt_expire_incrBy, Option.mem_some_iff] at hdeadline
        rw [← windowEnd_of_sameWindow (mem_charges hmem).1 hknown hsame, ← hdeadline]
        exact redis_deadline_accepted hwindow hmem
      · rw [incrementAll_other] at hdeadline
        · exact hs.redis_deadline charge hknown deadline hdeadline
        · intro own hmem hkey
          exact hown ⟨own, hmem, hkey⟩
  · rcases onFallback_cases hcounts halive with ⟨_, hentries, _⟩ | ⟨_, hentries, _⟩
    · simpa only [WindowLimits.next, hentries] using hs.fallback_deadline
    · simp only [WindowLimits.next, hentries]
      intro charge hknown entry hentry
      by_cases hown : ∃ own ∈ call.charges, own.key = charge.key
      · obtain ⟨own, hmem, hkey⟩ := hown
        have hsame := (key_eq_iff (mem_charges hmem).1 hknown).mp hkey
        have hstored := storeAll_key s.fallback (updates_distinct s call)
          (List.mem_map_of_mem hmem)
        simp only [update] at hstored hentry
        rw [← hkey, hstored, Option.mem_some_iff] at hentry
        rw [← windowEnd_of_sameWindow (mem_charges hmem).1 hknown hsame, ← hentry]
        exact fallback_deadline_accepted hs hwindow hmem
      · rw [storeAll_other] at hentry
        · exact hs.fallback_deadline charge hknown entry hentry
        · intro update hupdate hkey
          obtain ⟨own, hmem, rfl⟩ := List.mem_map.mp hupdate
          exact hown ⟨own, hmem, hkey⟩

end Windows

/-- Calls whose readings stay in one window never read an expired counter of their own. -/
theorem readsAlive_of_oneWindow {s : State} (hs : ReachableBy windowSystem OneWindow s) :
    ReachableBy windowSystem ReadsAlive s ∧ Deadlines s := by
  induction hs with
  | initial hi =>
      refine ⟨.initial hi, ?_⟩
      cases hi
      constructor <;> simp [initial, CounterKey.missing]
  | step _ he hwindow ih =>
      obtain ⟨hreach, hdeadlines⟩ := ih
      exact ⟨hreach.step he (hdeadlines.readsAlive hwindow),
        hdeadlines.next (reachable_counts hreach) hwindow⟩

namespace Counterexample

/-- A key limited to one request a minute. -/
def auth : UserAPIKeyAuth where
  apiKey := "k"
  userId := none
  teamId := none
  organizationId := none
  tpmLimit := none
  rpmLimit := none
  keyTpmLimit := none
  keyRpmLimit := some 1
  userTpmLimit := none
  userRpmLimit := none
  teamTpmLimit := none
  teamRpmLimit := none
  orgTpmLimit := none
  orgRpmLimit := none
  teamModelRpmLimit := none
  teamModelTpmLimit := none
  orgModelRpmLimit := none
  orgModelTpmLimit := none
  keyRphLimit := none
  keyRpdLimit := none
  keyTpdLimit := none
  userRphLimit := none
  userRpdLimit := none
  userTpdLimit := none
  teamRphLimit := none
  teamRpdLimit := none
  teamTpdLimit := none
  orgRphLimit := none
  orgRpdLimit := none
  orgTpdLimit := none

def callAt (began keyed : ℕ) : RateLimitCall :=
  ⟨auth, 1, none, ⟨began, began, fun _ => keyed, keyed⟩⟩

/-- The minute ends between the two readings of the first call, so its fallback entry runs out
before the second minute does. -/
def afterStraddle : State := next initial (callAt 59999 60000)

def afterSecond : State := next afterStraddle (callAt 119500 119500)

theorem callAt_enabled {s : State} {began keyed : ℕ} (hclock : s.clock ≤ keyed)
    (hbegan : began ≤ keyed) : enabled s (callAt began keyed) :=
  ⟨hclock, le_refl began, monotone_const, fun _ => ⟨hbegan, le_refl keyed⟩⟩

end Counterexample

open Counterexample in
/-- The fallback admits two requests in the second minute, the script refuses the second one. -/
theorem straddling_call_exceeds_limit :
    ∃ s, Reachable windowSystem s ∧ ¬WithinLimits s.fallbackLog ∧ s.redisLog ≠ s.fallbackLog ∧
      ¬LimitsKept s := by
  have hfirst : Reachable windowSystem afterStraddle :=
    ReachableBy.step (e := callAt 59999 60000) (.initial rfl)
      (callAt_enabled (by decide +kernel) (by decide)) trivial
  have hsecond : Reachable windowSystem afterSecond :=
    ReachableBy.step (e := callAt 119500 119500) hfirst
      (callAt_enabled (by decide +kernel) (le_refl _)) trivial
  have hdisagree : afterSecond.redisLog ≠ afterSecond.fallbackLog := by decide +kernel
  refine ⟨afterSecond, hsecond, ?_, hdisagree, fun hkept => hdisagree hkept.same_calls_accepted⟩
  intro hwithin
  have hover := hwithin ⟨⟨"key_rpm", "k", 1, 1, 60⟩, 1⟩ (by decide +kernel) (by decide +kernel)
  exact absurd hover (by decide +kernel)

open Counterexample in
theorem window_limits_kept_first_call :
    LimitsKept (next initial (callAt 60000 60000)) ∧
      CallKept (next initial (callAt 60000 60000)) (callAt 61000 61000) := by
  have halive : ReadsAlive initial (callAt 60000 60000) := by
    intro charge _
    constructor
    · rintro ⟨_, hnone, _⟩
      cases hnone
    · intro entry hnone
      cases hnone
  have hfirst : ReachableBy windowSystem ReadsAlive (next initial (callAt 60000 60000)) :=
    ReachableBy.step (e := callAt 60000 60000) (.initial rfl)
      (callAt_enabled (by decide) (le_refl _)) halive
  have hsecond : ReadsAlive (next initial (callAt 60000 60000)) (callAt 61000 61000) := by
    unfold ReadsAlive
    decide +kernel
  obtain ⟨hkept, hcalls⟩ := window_limits_kept hfirst
  exact ⟨hkept, hcalls _ (callAt_enabled (by decide +kernel) (le_refl _)) hsecond⟩

end WindowLimits
