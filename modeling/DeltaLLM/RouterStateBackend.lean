import Mathlib.Logic.Function.Basic
import DeltaLLM.Dictionaries
import DeltaLLM.RedisCounters

/-! # The two implementations of router state

Every operation on a deployment runs a Redis command, or without Redis changes local dictionaries,
which are pruned on reads. Clocks count milliseconds, and no key outlives its time to live.
-/
namespace RouterStateBackend

open Dictionaries RedisCounters

inductive CounterName where
  | rpm | tpm | imagePm | audioSecondsPm | charPm | rerankUnitsPm
  deriving DecidableEq, Repr

/-- `USAGE_COUNTER_NAMES`. -/
def usageCounterNames : List CounterName :=
  [.rpm, .tpm, .imagePm, .audioSecondsPm, .charPm, .rerankUnitsPm]

/-- Counters of a request, by name. -/
abbrev Counters := CounterName → Option ℤ

/-- An operation on a deployment; a window is a minute. The reason of a cooldown is never read. -/
inductive Operation where
  | incrementActive
  | decrementActive
  | getActiveRequests
  | incrementUsage (tokens : ℤ) (window : Option ℕ)
  | incrementUsageCounters (counters : Counters) (window : Option ℕ)
  | getUsage
  | setCooldown (durationSec : ℤ)
  | clearCooldown
  | isCooledDown
  | recordSuccess
  | recordFailure (error : String)
  | setHealth (healthy : Bool)
  | getHealth

inductive Reply where
  | done
  | count (value : ℤ)
  | cooled (value : Bool)
  | usage (counts : List (CounterName × ℤ))
  | health (fields : Dict String String)
  deriving DecidableEq, Repr

/-- `_minute_window`. -/
def minuteOf (now : ℕ) : ℕ := now / 60000

/-- `_normalize_usage_counters`: a request and its tokens are always counted. -/
def normalizeUsageCounters (counters : Counters) : CounterName → Option ℕ
  | .rpm => some (max 1 ((counters .rpm).getD 1)).toNat
  | .tpm => some ((counters .tpm).getD 0).toNat
  | name => (counters name).map Int.toNat

/-- What a counter of the request grows by: requests are counted one by one. -/
def growth (name : CounterName) (value : ℕ) : ℕ := if name = .rpm then 1 else value

/-- The counters of `increment_usage`. -/
def tokenCounters (tokens : ℤ) : Counters
  | .rpm => some 1
  | .tpm => some (max 0 tokens)
  | _ => none

/-- `_materialize_usage_snapshot`: other counters than the first two are left out at zero. -/
def usageSnapshot (counts : CounterName → ℤ) : List (CounterName × ℤ) :=
  [(.rpm, counts .rpm), (.tpm, counts .tpm)] ++
    ((usageCounterNames.drop 2).filter (0 < counts ·)).map fun name => (name, counts name)

def durationMs (durationSec : ℤ) : ℕ := (max 1 durationSec).toNat * 1000

/-- `int(time.time())` as text. -/
def secondsText (now : ℕ) : String := toString (now / 1000)

def healthText (healthy : Bool) : String := if healthy then "true" else "false"

/-- The health of a deployment after a success. -/
def healthAfterSuccess (fields : Dict String String) (now : ℕ) : Dict String String :=
  ((((fields.set "healthy" "true").set "consecutive_failures" "0").set "last_success_at"
    (secondsText now)).pop "last_error").pop "last_error_at"

/-- The health of a deployment after a failure. -/
def healthAfterFailure (fields : Dict String String) (failureCount : ℤ) (error : String) (now : ℕ) :
    Dict String String :=
  ((fields.set "consecutive_failures" (toString failureCount)).set "last_error"
    (String.ofList (error.toList.take 200))).set "last_error_at" (secondsText now)

/-! ## Redis -/

/-- The keys of a deployment. -/
structure RedisEntry where
  activeRequests : CounterKey
  cooldown : Option ℕ
  failures : CounterKey
  health : Dict String String
  usage : CounterName → ℕ → CounterKey

def RedisEntry.empty : RedisEntry := ⟨.missing, none, .missing, [], fun _ _ => .missing⟩

/-- A deadline that is still to come. -/
def Alive (deadline : Option ℕ) (now : ℕ) : Prop := ∃ moment ∈ deadline, now < moment

instance (deadline : Option ℕ) (now : ℕ) : Decidable (Alive deadline now) :=
  inferInstanceAs (Decidable (∃ moment, moment ∈ deadline ∧ now < moment))

/-- A counter's key after a request: it grows, and lives for two more minutes. -/
def usageKey (key : CounterKey) (now : ℕ) (name : CounterName) (value : ℕ) : CounterKey :=
  let key := key.lapse now
  (if 0 < growth name value then key.incrBy (growth name value) else key).expire (now + 120000)

/-- The pipeline of `increment_usage_counters`. -/
def RedisEntry.addUsage (entry : RedisEntry) (now : ℕ) (counters : Counters) (window : Option ℕ) :
    RedisEntry :=
  { entry with
    usage := fun name minute =>
      match normalizeUsageCounters counters name with
      | none => entry.usage name minute
      | some value =>
          if minute = window.getD (minuteOf now) then usageKey
            (entry.usage name minute) now name value
          else entry.usage name minute }

/-- `decr`, and `set` to zero below it. -/
def decrToZero (key : CounterKey) : CounterKey :=
  if key.decr.count < 0 then ⟨some 0, none⟩ else key.decr

def RedisEntry.call (entry : RedisEntry) (now : ℕ) : Operation → RedisEntry × Reply
  | .incrementActive =>
      let key := (entry.activeRequests.lapse now).incr
      ({ entry with activeRequests := key }, .count key.count)
  | .decrementActive =>
      let key := decrToZero (entry.activeRequests.lapse now)
      ({ entry with activeRequests := key }, .count key.count)
  | .getActiveRequests => (entry, .count (entry.activeRequests.lapse now).count)
  | .incrementUsage tokens window => (entry.addUsage now (tokenCounters tokens) window, .done)
  | .incrementUsageCounters counters window => (entry.addUsage now counters window, .done)
  | .getUsage =>
      (entry, .usage (usageSnapshot fun name =>
        ((entry.usage name (minuteOf now)).lapse now).count))
  | .setCooldown durationSec =>
      ({ entry with cooldown := some (now + durationMs durationSec) }, .done)
  | .clearCooldown => ({ entry with cooldown := none }, .done)
  | .isCooledDown => (entry, .cooled (Alive entry.cooldown now))
  | .recordSuccess =>
      ({ entry with
          failures := .missing
          health := healthAfterSuccess entry.health now }, .done)
  | .recordFailure error =>
      let key := ((entry.failures.lapse now).incr).expire (now + 300000)
      ({ entry with
          failures := key
          health := healthAfterFailure entry.health key.count error now }, .count key.count)
  | .setHealth healthy =>
      ({ entry with health := entry.health.set "healthy" (healthText healthy) }, .done)
  | .getHealth => (entry, .health entry.health)

/-! ## The local dictionaries -/

structure LocalUsage where
  window : ℕ
  counts : CounterName → ℕ

/-- The entries of a deployment. -/
structure LocalEntry where
  active : ℕ
  usage : Option LocalUsage
  cooldownUntil : Option ℕ
  health : Option (Dict String String)
  failures : ℕ
  lastSeen : Option ℕ

def LocalEntry.empty : LocalEntry := ⟨0, none, none, none, 0, none⟩

/-- `_touch_local_state`. -/
def LocalEntry.touch (entry : LocalEntry) (now : ℕ) : LocalEntry :=
  { entry with lastSeen := some now }

/-- `_drop_local_state_if_unused`. -/
def LocalEntry.dropIfUnused (entry : LocalEntry) (now : ℕ) : LocalEntry :=
  if 0 < entry.active ∨ Alive entry.cooldownUntil now ∨ entry.usage.isSome ∨ entry.health.isSome ∨
      0 < entry.failures then entry
  else { entry with active := 0, cooldownUntil := none, failures := 0, lastSeen := none }

/-- What `_prune_local_state` takes away: not touched for longer than the time to live, with no
active request and not cooling down. -/
def LocalEntry.Stale (entry : LocalEntry) (ttlSec now : ℕ) : Prop :=
  (∃ seen ∈ entry.lastSeen, seen + ttlSec * 1000 < now) ∧ entry.active = 0 ∧
    ¬Alive entry.cooldownUntil now

instance (entry : LocalEntry) (ttlSec now : ℕ) : Decidable (entry.Stale ttlSec now) :=
  inferInstanceAs (Decidable
    ((∃ seen, seen ∈ entry.lastSeen ∧ seen + ttlSec * 1000 < now) ∧ _ ∧
      ¬Alive entry.cooldownUntil now))

/-- `increment_usage_counters`: one window is kept. -/
def LocalEntry.addUsage (entry : LocalEntry) (now : ℕ) (counters : Counters) (window : Option ℕ) :
    LocalEntry :=
  let minute := window.getD (minuteOf now)
  let usage := match entry.usage with
    | some usage => if usage.window = minute then usage else ⟨minute, fun _ => 0⟩
    | none => ⟨minute, fun _ => 0⟩
  let counts := fun name =>
    usage.counts name + ((normalizeUsageCounters counters name).map (growth name)).getD 0
  { entry with usage := some ⟨minute, counts⟩ }.touch now

/-- After a prune where the operation is a read. -/
def LocalEntry.call (entry : LocalEntry) (now : ℕ) : Operation → LocalEntry × Reply
  | .incrementActive =>
      ({ entry with active := entry.active + 1 }.touch now, .count (entry.active + 1 : ℕ))
  | .decrementActive =>
      let value := entry.active - 1
      if value = 0 then ({ entry with active := 0 }.dropIfUnused now, .count 0)
      else ({ entry with active := value }.touch now, .count value)
  | .getActiveRequests => (entry, .count entry.active)
  | .incrementUsage tokens window => (entry.addUsage now (tokenCounters tokens) window, .done)
  | .incrementUsageCounters counters window => (entry.addUsage now counters window, .done)
  | .getUsage =>
      match entry.usage with
      | some usage =>
          if usage.window = minuteOf now then
            (entry.touch now, .usage (usageSnapshot fun name => usage.counts name))
          else ({ entry with usage := none }.dropIfUnused now, .usage [(.rpm, 0), (.tpm, 0)])
      | none => (entry.dropIfUnused now, .usage [(.rpm, 0), (.tpm, 0)])
  | .setCooldown durationSec =>
      ({ entry with cooldownUntil := some (now + durationMs durationSec) }.touch now, .done)
  | .clearCooldown => ({ entry with cooldownUntil := none }.dropIfUnused now, .done)
  | .isCooledDown =>
      match entry.cooldownUntil with
      | none => (entry, .cooled false)
      | some moment =>
          if moment ≤ now then ({ entry with cooldownUntil := none }.dropIfUnused now,
            .cooled false)
          else (entry.touch now, .cooled true)
  | .recordSuccess =>
      ({ entry with
          failures := 0
          health := some (healthAfterSuccess (entry.health.getD []) now) }.touch now, .done)
  | .recordFailure error =>
      let failureCount := entry.failures + 1
      ({ entry with
          failures := failureCount
          health := some (healthAfterFailure
            (entry.health.getD []) failureCount error now) }.touch now,
        .count failureCount)
  | .setHealth healthy =>
      ({ entry with
          health := some ((entry.health.getD []).set "healthy" (healthText healthy)) }.touch now,
        .done)
  | .getHealth => (entry, .health (entry.health.getD []))

/-! ## All deployments -/

variable {δ : Type*}

/-- Usage and health of several deployments are read one by one, the others in one batch. -/
inductive Request (δ : Type*) where
  | one (deployment : δ) (operation : Operation)
  | activeRequestsBatch (deployments : List δ)
  | cooldownBatch (deployments : List δ)

def Operation.isRead : Operation → Bool
  | .getActiveRequests | .getUsage | .isCooledDown | .getHealth => true
  | _ => false

/-- Whether the local implementation prunes first. -/
def Request.isRead : Request δ → Bool
  | .one _ operation => operation.isRead
  | .activeRequestsBatch deployments | .cooldownBatch deployments => !deployments.isEmpty

def Request.deployments : Request δ → List δ
  | .one deployment _ => [deployment]
  | .activeRequestsBatch deployments | .cooldownBatch deployments => deployments

def Request.operation : Request δ → Operation
  | .one _ operation => operation
  | .activeRequestsBatch _ => .getActiveRequests
  | .cooldownBatch _ => .isCooledDown

structure LocalState (δ : Type*) where
  entries : δ → LocalEntry
  lastPruneAt : ℕ

/-- `_prune_local_state` has something to do: at most every 30 seconds. -/
def LocalState.PruneDue (s : LocalState δ) (now : ℕ) : Prop := s.lastPruneAt + 30000 ≤ now

instance (s : LocalState δ) (now : ℕ) : Decidable (s.PruneDue now) :=
  inferInstanceAs (Decidable (_ ≤ _))

def LocalState.Pruned (s : LocalState δ) (ttlSec now : ℕ) (d : δ) : Prop :=
  s.PruneDue now ∧ (s.entries d).Stale ttlSec now

instance (s : LocalState δ) (ttlSec now : ℕ) (d : δ) : Decidable (s.Pruned ttlSec now d) :=
  inferInstanceAs (Decidable (_ ∧ _))

/-- `_prune_local_state`. -/
def LocalState.prune (s : LocalState δ) (ttlSec now : ℕ) : LocalState δ where
  entries d := if s.Pruned ttlSec now d then .empty else s.entries d
  lastPruneAt := if s.PruneDue now then now else s.lastPruneAt

variable [DecidableEq δ]

/-- The operation on one deployment after the other. -/
def callEach {Entry : Type*} (call : Entry → Entry × Reply) :
    List δ → (δ → Entry) → (δ → Entry) × List Reply
  | [], entries => (entries, [])
  | d :: ds, entries =>
      let (entry, reply) := call (entries d)
      let (entries, replies) := callEach call ds (Function.update entries d entry)
      (entries, reply :: replies)

def redisCall (entries : δ → RedisEntry) (now : ℕ) (request : Request δ) :
    (δ → RedisEntry) × List Reply :=
  callEach (·.call now request.operation) request.deployments entries

def LocalState.call (s : LocalState δ) (ttlSec now : ℕ) (request : Request δ) :
    LocalState δ × List Reply :=
  let s := if request.isRead then s.prune ttlSec now else s
  let (entries, replies) := callEach (·.call now request.operation) request.deployments s.entries
  ({ s with entries }, replies)

end RouterStateBackend
