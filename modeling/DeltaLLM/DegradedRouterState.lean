import Mathlib.Tactic.Ring
import DeltaLLM.RouterStateBackend
import DeltaLLM.TransitionRuns

/-! # Router state without Redis

The local dictionaries against the Redis keys that the same requests would have left. Pruning makes
the local state forget deployments, so the keys of a pruned deployment are deleted too.
-/
namespace DegradedRouterState

open Dictionaries RedisCounters RouterStateBackend TransitionRuns

/-- What is counted locally in a minute. -/
def localCount (entry : LocalEntry) (minute : ℕ) (name : CounterName) : ℕ :=
  match entry.usage with
  | some usage => if usage.window = minute then usage.counts name else 0
  | none => 0

/-- The entries of a deployment and its keys answer alike from now on. -/
structure Agree (now : ℕ) (keys : RedisEntry) (entry : LocalEntry) : Prop where
  active : keys.activeRequests.count = entry.active
  persistent : keys.activeRequests.expiresAt = none
  cooldown : ∀ t, now ≤ t → (Alive keys.cooldown t ↔ Alive entry.cooldownUntil t)
  failures : keys.failures.Expired now ∨ keys.failures.count = entry.failures
  health : entry.health.getD [] = keys.health
  usage : ∀ t, now ≤ t → ∀ name,
    ((keys.usage name (minuteOf t)).lapse t).count = localCount entry (minuteOf t) name
  window : ∀ usage, entry.usage = some usage → usage.window ≤ minuteOf now

theorem minuteOf_le {now t : ℕ} (h : now ≤ t) : minuteOf now ≤ minuteOf t :=
  Nat.div_le_div_right h

theorem lt_of_minuteOf_eq {now t : ℕ} (h : minuteOf t = minuteOf now) : t < now + 120000 := by
  unfold minuteOf at h
  omega

theorem Agree.later {now t : ℕ} {keys : RedisEntry} {entry : LocalEntry} (h : Agree now keys entry)
    (hle : now ≤ t) : Agree t keys entry where
  active := h.active
  persistent := h.persistent
  cooldown t' ht' := h.cooldown t' (hle.trans ht')
  failures := by
    rcases h.failures with ⟨deadline, hdeadline, hpast⟩ | hcount
    · exact .inl ⟨deadline, hdeadline, hpast.trans hle⟩
    · exact .inr hcount
  health := h.health
  usage t' ht' := h.usage t' (hle.trans ht')
  window usage husage := (h.window usage husage).trans (minuteOf_le hle)

theorem agree_empty (now : ℕ) : Agree now .empty .empty where
  active := rfl
  persistent := rfl
  cooldown _ _ := Iff.rfl
  failures := .inr rfl
  health := rfl
  usage t _ name := by
    unfold CounterKey.lapse
    split <;> rfl
  window usage husage := by cases husage

/-! ## Entries -/

variable {now : ℕ} {keys : RedisEntry} {entry : LocalEntry}

theorem Agree.touch (h : Agree now keys entry) : Agree now keys (entry.touch now) :=
  ⟨h.active, h.persistent, h.cooldown, h.failures, h.health, h.usage, h.window⟩

theorem not_alive_later {deadline : Option ℕ} {t : ℕ} (h : ¬Alive deadline now) (hle : now ≤ t) :
    ¬Alive deadline t := by
  rintro ⟨moment, hmoment, hlt⟩
  exact h ⟨moment, hmoment, by omega⟩

theorem not_alive_none (t : ℕ) : ¬Alive none t := by
  rintro ⟨moment, hmoment, -⟩
  cases hmoment

/-- Dropping an entry without content changes no answer. -/
theorem Agree.dropIfUnused (h : Agree now keys entry) :
    Agree now keys (entry.dropIfUnused now) := by
  unfold LocalEntry.dropIfUnused
  split
  · exact h
  · rename_i hunused
    simp only [not_or, Nat.not_lt, Nat.le_zero_eq] at hunused
    obtain ⟨hactive, hcooldown, -, -, hfailures⟩ := hunused
    refine ⟨?_, h.persistent, ?_, ?_, h.health, h.usage, h.window⟩
    · rw [h.active, hactive]
    · intro t ht
      rw [h.cooldown t ht]
      exact iff_of_false (not_alive_later hcooldown ht) (not_alive_none t)
    · rw [← hfailures]
      exact h.failures

/-! ## Usage -/

/-- Nothing is counted yet in a minute to come. -/
theorem localCount_future (h : ∀ usage, entry.usage = some usage → usage.window ≤ minuteOf now)
    {minute : ℕ} (hlater : minuteOf now < minute) (name : CounterName) :
    localCount entry minute name = 0 := by
  unfold localCount
  cases husage : entry.usage with
  | none => rfl
  | some usage =>
      have hwindow := h usage husage
      exact if_neg (by omega)

theorem usageKey_count (key : CounterKey) (name : CounterName) (value : ℕ) {t : ℕ}
    (ht : t < now + 120000) :
    ((usageKey key now name value).lapse t).count = (key.lapse now).count + growth name value := by
  unfold usageKey
  rw [CounterKey.count_lapse_expire _ ht]
  by_cases hgrows : 0 < growth name value
  · simp [hgrows]
  · have hzero : growth name value = 0 := by omega
    simp [hzero]

theorem window_current {window : Option ℕ} (h : ∀ minute ∈ window, minute = minuteOf now) :
    window.getD (minuteOf now) = minuteOf now := by
  cases window with
  | none => rfl
  | some minute => exact h minute rfl

theorem localCount_addUsage (counters : Counters) {window : Option ℕ}
    (hwindow : ∀ minute ∈ window, minute = minuteOf now) (minute : ℕ)
    (name : CounterName) :
    localCount (entry.addUsage now counters window) minute name =
      if minute = minuteOf now then
        localCount entry minute name +
          ((normalizeUsageCounters counters name).map (growth name)).getD 0
      else 0 := by
  have hminute := window_current hwindow
  unfold LocalEntry.addUsage localCount
  rw [hminute]
  by_cases hsame : minute = minuteOf now
  · subst hsame
    cases entry.usage with
    | none => simp [LocalEntry.touch]
    | some usage =>
        by_cases hcurrent : usage.window = minuteOf now <;> simp [LocalEntry.touch, hcurrent]
  · simp [LocalEntry.touch, hsame, Ne.symm hsame]

theorem Agree.addUsage (h : Agree now keys entry) (counters : Counters) {window : Option ℕ}
    (hwindow : ∀ minute ∈ window, minute = minuteOf now) :
    Agree now (keys.addUsage now counters window) (entry.addUsage now counters window) := by
  have hminute := window_current hwindow
  refine ⟨h.active, h.persistent, h.cooldown, h.failures, h.health, ?_, ?_⟩
  · intro t ht name
    rw [localCount_addUsage counters hwindow]
    have hbefore := h.usage t ht name
    have hnow := h.usage now le_rfl name
    simp only [RedisEntry.addUsage, hminute]
    by_cases hsame : minuteOf t = minuteOf now
    · rw [if_pos hsame, hsame]
      rw [hsame] at hbefore
      cases hvalue : normalizeUsageCounters counters name with
      | none => simpa using hbefore
      | some value =>
          simp only [if_true]
          rw [usageKey_count _ _ _ (lt_of_minuteOf_eq hsame), hnow]
          simp
    · rw [if_neg hsame]
      have hle := minuteOf_le ht
      rw [localCount_future h.window (by omega)] at hbefore
      cases hvalue : normalizeUsageCounters counters name with
      | none => simpa using hbefore
      | some value => simpa [hsame] using hbefore
  · intro usage husage
    simp only [LocalEntry.addUsage, LocalEntry.touch, hminute, Option.some.injEq] at husage
    rw [← husage]

/-- Usage of a minute that is over can go. -/
theorem Agree.dropUsage (h : Agree now keys entry)
    (hother : ∀ usage, entry.usage = some usage → usage.window ≠ minuteOf now) :
    Agree now keys { entry with usage := none } := by
  refine ⟨h.active, h.persistent, h.cooldown, h.failures, h.health, ?_, ?_⟩
  · intro t ht name
    have hcount : localCount entry (minuteOf t) name = 0 := by
      unfold localCount
      cases husage : entry.usage with
      | none => rfl
      | some usage =>
          have hle := h.window usage husage
          have hne := hother usage husage
          have hlater := minuteOf_le ht
          exact if_neg (by omega)
    rw [h.usage t ht name, hcount]
    rfl
  · intro usage husage
    cases husage

/-! ## Operations -/

/-- What the agreement rests on: a failure is not counted on top of failures that Redis has let go,
and usage is counted for the current minute. -/
def KeepsAgreement (now : ℕ) (keys : RedisEntry) (entry : LocalEntry) : Operation → Prop
  | .recordFailure _ => keys.failures.Expired now → entry.failures = 0
  | .incrementUsage _ window | .incrementUsageCounters _ window =>
      ∀ minute ∈ window, minute = minuteOf now
  | _ => True

instance (now : ℕ) (keys : RedisEntry) (entry : LocalEntry) (operation : Operation) :
    Decidable (KeepsAgreement now keys entry operation) :=
  match operation with
  | .recordFailure _ => inferInstanceAs (Decidable (_ → _))
  | .incrementUsage _ window | .incrementUsageCounters _ window =>
      inferInstanceAs (Decidable (∀ minute ∈ window, minute = minuteOf now))
  | .incrementActive | .decrementActive | .getActiveRequests | .getUsage | .setCooldown _
  | .clearCooldown | .isCooledDown | .recordSuccess | .setHealth _ | .getHealth => .isTrue trivial

/-- The answers are the same and agreement is kept. -/
def AnswersAlike (now : ℕ) (keys : RedisEntry) (entry : LocalEntry) (operation : Operation) :
    Prop :=
  Agree now (keys.call now operation).1 (entry.call now operation).1 ∧
    (keys.call now operation).2 = (entry.call now operation).2

theorem Agree.lapse_active (h : Agree now keys entry) :
    keys.activeRequests.lapse now = keys.activeRequests :=
  CounterKey.lapse_of_not_expired (CounterKey.not_expired_of_none h.persistent)

theorem incrementActive_alike (h : Agree now keys entry) :
    AnswersAlike now keys entry .incrementActive := by
  have hcount : (keys.activeRequests.lapse now).incr.count = ((entry.active + 1 : ℕ) : ℤ) := by
    rw [h.lapse_active, CounterKey.count_incr, h.active]
    omega
  constructor
  · apply Agree.touch
    refine ⟨hcount, ?_, h.cooldown, h.failures, h.health, h.usage, h.window⟩
    change (keys.activeRequests.lapse now).expiresAt = none
    rw [h.lapse_active, h.persistent]
  · exact congrArg Reply.count hcount

theorem decrToZero_count {key : CounterKey} {active : ℕ} (h : key.count = active) :
    (decrToZero key).count = ((active - 1 : ℕ) : ℤ) := by
  unfold decrToZero
  rw [CounterKey.count_decr, h]
  by_cases hzero : active = 0
  · subst hzero
    rfl
  · rw [if_neg (by omega), CounterKey.count_decr, h]
    omega

theorem decrToZero_persistent {key : CounterKey} (h : key.expiresAt = none) :
    (decrToZero key).expiresAt = none := by
  unfold decrToZero
  split
  · rfl
  · exact h

theorem decrementActive_alike (h : Agree now keys entry) :
    AnswersAlike now keys entry .decrementActive := by
  have hcount := decrToZero_count h.active
  have hpersistent := decrToZero_persistent h.persistent
  have hagree : Agree now { keys with activeRequests := decrToZero keys.activeRequests }
      { entry with active := entry.active - 1 } :=
    ⟨hcount, hpersistent, h.cooldown, h.failures, h.health, h.usage, h.window⟩
  unfold AnswersAlike RedisEntry.call LocalEntry.call
  simp only [h.lapse_active]
  by_cases hzero : entry.active - 1 = 0
  · rw [hzero] at hagree hcount
    rw [if_pos hzero]
    exact ⟨hagree.dropIfUnused, congrArg Reply.count hcount⟩
  · rw [if_neg hzero]
    exact ⟨hagree.touch, congrArg Reply.count hcount⟩

theorem getUsage_alike (h : Agree now keys entry) : AnswersAlike now keys entry .getUsage := by
  have hsnapshot : usageSnapshot (fun name => ((keys.usage name (minuteOf now)).lapse now).count) =
      usageSnapshot fun name => localCount entry (minuteOf now) name := by
    congr 1
    funext name
    exact h.usage now le_rfl name
  unfold AnswersAlike RedisEntry.call LocalEntry.call
  simp only [hsnapshot]
  cases husage : entry.usage with
  | none =>
      refine ⟨h.dropIfUnused, ?_⟩
      simp [localCount, husage, usageSnapshot]
  | some usage =>
      by_cases hcurrent : usage.window = minuteOf now
      · simp only [if_pos hcurrent]
        refine ⟨h.touch, ?_⟩
        simp [localCount, husage, hcurrent]
      · simp only [if_neg hcurrent]
        have hother : ∀ other, entry.usage = some other → other.window ≠ minuteOf now := by
          intro other hsome
          obtain rfl : usage = other := Option.some.inj (husage.symm.trans hsome)
          exact hcurrent
        refine ⟨(h.dropUsage hother).dropIfUnused, ?_⟩
        simp [localCount, husage, hcurrent, usageSnapshot]

theorem Agree.dropCooldown (h : Agree now keys entry) (hpast : ¬Alive entry.cooldownUntil now) :
    Agree now keys { entry with cooldownUntil := none } := by
  refine ⟨h.active, h.persistent, ?_, h.failures, h.health, h.usage, h.window⟩
  intro t ht
  rw [h.cooldown t ht]
  exact iff_of_false (not_alive_later hpast ht) (not_alive_none t)

theorem isCooledDown_alike (h : Agree now keys entry) :
    AnswersAlike now keys entry .isCooledDown := by
  have hreply : decide (Alive keys.cooldown now) = decide (Alive entry.cooldownUntil now) :=
    decide_eq_decide.mpr (h.cooldown now le_rfl)
  unfold AnswersAlike RedisEntry.call LocalEntry.call
  simp only [hreply]
  cases huntil : entry.cooldownUntil with
  | none => exact ⟨h, by simp [not_alive_none]⟩
  | some moment =>
      by_cases hpast : moment ≤ now
      · simp only [if_pos hpast]
        have hover : ¬Alive entry.cooldownUntil now := by
          rw [huntil]
          rintro ⟨deadline, hdeadline, hlt⟩
          obtain rfl : moment = deadline := Option.some.inj hdeadline
          omega
        refine ⟨(h.dropCooldown hover).dropIfUnused, ?_⟩
        rw [← huntil, decide_eq_false hover]
      · simp only [if_neg hpast]
        have halive : Alive (some moment) now := ⟨moment, rfl, by omega⟩
        exact ⟨h.touch, by rw [decide_eq_true halive]⟩

theorem recordFailure_alike (h : Agree now keys entry) {error : String}
    (hkeeps : keys.failures.Expired now → entry.failures = 0) :
    AnswersAlike now keys entry (.recordFailure error) := by
  have hcount : (keys.failures.lapse now).count = entry.failures := by
    by_cases hexpired : keys.failures.Expired now
    · rw [CounterKey.lapse_of_expired hexpired, hkeeps hexpired]
      rfl
    · rw [CounterKey.lapse_of_not_expired hexpired]
      exact h.failures.resolve_left hexpired
  have hnext : ((keys.failures.lapse now).incr.expire (now + 300000)).count =
      ((entry.failures + 1 : ℕ) : ℤ) := by
    rw [CounterKey.count_expire, CounterKey.count_incr, hcount]
    omega
  constructor
  · apply Agree.touch
    refine ⟨h.active, h.persistent, h.cooldown, .inr hnext, ?_, h.usage, h.window⟩
    change healthAfterFailure (entry.health.getD []) _ error now =
      healthAfterFailure keys.health _ error now
    rw [hnext, h.health]
  · exact congrArg Reply.count hnext

/-- Every operation. -/
theorem Agree.call (h : Agree now keys entry) {operation : Operation}
    (hkeeps : KeepsAgreement now keys entry operation) :
    AnswersAlike now keys entry operation := by
  cases operation with
  | incrementActive => exact incrementActive_alike h
  | decrementActive => exact decrementActive_alike h
  | getActiveRequests =>
      refine ⟨h, congrArg Reply.count ?_⟩
      rw [h.lapse_active, h.active]
  | incrementUsage tokens window => exact ⟨h.addUsage _ hkeeps, rfl⟩
  | incrementUsageCounters counters window => exact ⟨h.addUsage _ hkeeps, rfl⟩
  | getUsage => exact getUsage_alike h
  | setCooldown durationSec =>
      have hagree : Agree now { keys with cooldown := some (now + durationMs durationSec) }
          { entry with cooldownUntil := some (now + durationMs durationSec) } :=
        ⟨h.active, h.persistent, fun _ _ => Iff.rfl, h.failures, h.health, h.usage, h.window⟩
      exact ⟨hagree.touch, rfl⟩
  | clearCooldown =>
      have hagree : Agree now { keys with cooldown := none } { entry with cooldownUntil := none } :=
        ⟨h.active, h.persistent, fun _ _ => Iff.rfl, h.failures, h.health, h.usage, h.window⟩
      exact ⟨hagree.dropIfUnused, rfl⟩
  | isCooledDown => exact isCooledDown_alike h
  | recordSuccess =>
      refine ⟨Agree.touch ?_, rfl⟩
      refine ⟨h.active, h.persistent, h.cooldown, .inr rfl, ?_, h.usage, h.window⟩
      exact congrArg (healthAfterSuccess · now) h.health
  | recordFailure error => exact recordFailure_alike h hkeeps
  | setHealth healthy =>
      refine ⟨Agree.touch ?_, rfl⟩
      refine ⟨h.active, h.persistent, h.cooldown, h.failures, ?_, h.usage, h.window⟩
      exact congrArg (Dict.set · "healthy" (healthText healthy)) h.health
  | getHealth => exact ⟨h, congrArg Reply.health h.health.symm⟩

/-! ## Pruned deployments -/

/-- A deployment whose failures, health and usage are deleted. -/
def forget (keys : RedisEntry) : RedisEntry :=
  { keys with failures := .missing, health := [], usage := fun _ _ => .missing }

/-- Pruning takes nothing else than what `forget` does. -/
theorem Agree.forget {ttlSec : ℕ} (h : Agree now keys entry) (hstale : entry.Stale ttlSec now) :
    Agree now (forget keys) .empty := by
  obtain ⟨-, hactive, hcooldown⟩ := hstale
  have hempty := agree_empty now
  refine ⟨?_, h.persistent, ?_, hempty.failures, rfl, hempty.usage, hempty.window⟩
  · change keys.activeRequests.count = 0
    rw [h.active, hactive]
    rfl
  · intro t ht
    change Alive keys.cooldown t ↔ Alive none t
    rw [h.cooldown t ht]
    exact iff_of_false (not_alive_later hcooldown ht) (not_alive_none t)

/-! ## States -/

variable {δ : Type*}

/-- Both implementations after the same requests, and their answers. -/
structure State (δ : Type*) where
  now : ℕ
  keys : δ → RedisEntry
  degraded : LocalState δ
  answers : List (List Reply × List Reply)

structure Event (δ : Type*) where
  time : ℕ
  request : Request δ

/-- The keys when the local implementation has pruned. -/
def State.keysAfterPrune (s : State δ) (onPrune : RedisEntry → RedisEntry) (ttlSec : ℕ)
    (event : Event δ) (d : δ) : RedisEntry :=
  if event.request.isRead ∧ s.degraded.Pruned ttlSec event.time d then onPrune (s.keys d)
    else s.keys d

def AnsweredAlike (s : State δ) : Prop := ∀ answers ∈ s.answers, answers.1 = answers.2

instance (s : State δ) : Decidable (AnsweredAlike s) :=
  inferInstanceAs (Decidable (∀ answers ∈ s.answers, _))

def KeepsAll (now : ℕ) (keys : δ → RedisEntry) (entries : δ → LocalEntry) : Request δ → Prop
  | .one d operation => KeepsAgreement now (keys d) (entries d) operation
  | _ => True

/-- No step leaves what agreement rests on. -/
def KeepsStep (s : State δ) (event : Event δ) : Prop :=
  KeepsAll event.time s.keys s.degraded.entries event.request

instance (s : State δ) (event : Event δ) : Decidable (KeepsStep s event) :=
  match hrequest : event.request with
  | .one d operation =>
      decidable_of_iff (KeepsAgreement event.time (s.keys d) (s.degraded.entries d) operation)
        (by rw [KeepsStep, hrequest, KeepsAll])
  | .activeRequestsBatch _ | .cooldownBatch _ => .isTrue (by rw [KeepsStep, hrequest]; trivial)

/-- The entries that the operation finds, after a prune where it reads. -/
def State.entriesAfterPrune (s : State δ) (ttlSec : ℕ) (event : Event δ) : δ → LocalEntry :=
  if event.request.isRead then (s.degraded.prune ttlSec event.time).entries else s.degraded.entries

variable (ttlSec : ℕ) in
theorem afterPrune_agree {s : State δ} {event : Event δ}
    (h : ∀ d, Agree event.time (s.keys d) (s.degraded.entries d)) (d : δ) :
    Agree event.time (s.keysAfterPrune forget ttlSec event d)
      (s.entriesAfterPrune ttlSec event d) := by
  unfold State.keysAfterPrune State.entriesAfterPrune
  by_cases hread : event.request.isRead = true
  · rw [if_pos hread]
    by_cases hpruned : s.degraded.Pruned ttlSec event.time d
    · have hentry : (s.degraded.prune ttlSec event.time).entries d = .empty := if_pos hpruned
      rw [if_pos ⟨hread, hpruned⟩, hentry]
      exact (h d).forget hpruned.2
    · have hentry : (s.degraded.prune ttlSec event.time).entries d = s.degraded.entries d :=
        if_neg hpruned
      rw [if_neg (fun hboth => hpruned hboth.2), hentry]
      exact h d
  · rw [if_neg hread, if_neg (fun hboth => hread hboth.1)]
    exact h d

variable (ttlSec : ℕ) in
/-- Only other requests than reads are restricted, and they are not preceded by a prune. -/
theorem afterPrune_keeps {s : State δ} {event : Event δ} (h : KeepsStep s event) :
    KeepsAll event.time (s.keysAfterPrune forget ttlSec event) (s.entriesAfterPrune ttlSec event)
      event.request := by
  unfold KeepsStep at h
  cases hrequest : event.request with
  | activeRequestsBatch deployments => trivial
  | cooldownBatch deployments => trivial
  | one d operation =>
      rw [hrequest] at h
      by_cases hread : operation.isRead = true
      · cases operation <;> trivial
      · have hrequestRead : ¬event.request.isRead = true := by
          rw [hrequest]
          exact hread
        have hkeys : s.keysAfterPrune forget ttlSec event d = s.keys d :=
          if_neg fun hboth => hrequestRead hboth.1
        have hentries : s.entriesAfterPrune ttlSec event = s.degraded.entries := if_neg hrequestRead
        change KeepsAgreement _ _ _ _
        rw [hkeys, hentries]
        exact h

/-! ## Requests to all deployments -/

variable [DecidableEq δ]

theorem update_agree {keys : δ → RedisEntry} {entries : δ → LocalEntry}
    (h : ∀ d, Agree now (keys d) (entries d)) {newKeys : RedisEntry} {newEntry : LocalEntry}
    (hnew : Agree now newKeys newEntry) (changed d : δ) :
    Agree now (Function.update keys changed newKeys d)
      (Function.update entries changed newEntry d) := by
  by_cases hsame : d = changed
  · subst hsame
    simpa using hnew
  · simpa [hsame] using h d

/-- An operation that always keeps agreement, on one deployment after the other. -/
theorem callEach_alike {operation : Operation}
    (hkeeps : ∀ keys entry, KeepsAgreement now keys entry operation) (deployments : List δ)
    {keys : δ → RedisEntry} {entries : δ → LocalEntry} (h : ∀ d, Agree now (keys d) (entries d)) :
    (∀ d, Agree now ((callEach (·.call now operation) deployments keys).1 d)
      ((callEach (·.call now operation) deployments entries).1 d)) ∧
    (callEach (·.call now operation) deployments keys).2 =
      (callEach (·.call now operation) deployments entries).2 := by
  induction deployments generalizing keys entries with
  | nil => exact ⟨h, rfl⟩
  | cons d ds ih =>
      obtain ⟨hagree, hreply⟩ := (h d).call (hkeeps (keys d) (entries d))
      obtain ⟨htables, hreplies⟩ := ih (update_agree h hagree d)
      exact ⟨htables, congrArg₂ List.cons hreply hreplies⟩

theorem request_alike {request : Request δ} {keys : δ → RedisEntry} {entries : δ → LocalEntry}
    (h : ∀ d, Agree now (keys d) (entries d)) (hkeeps : KeepsAll now keys entries request) :
    (∀ d, Agree now ((redisCall keys now request).1 d)
      ((callEach (·.call now request.operation) request.deployments entries).1 d)) ∧
    (redisCall keys now request).2 =
      (callEach (·.call now request.operation) request.deployments entries).2 := by
  cases request with
  | one d operation =>
      obtain ⟨hagree, hreply⟩ := (h d).call hkeeps
      exact ⟨update_agree h hagree d, congrArg ([·]) hreply⟩
  | activeRequestsBatch deployments =>
      have hread : ∀ keys entry, KeepsAgreement now keys entry .getActiveRequests :=
        fun _ _ => trivial
      exact callEach_alike hread deployments h
  | cooldownBatch deployments =>
      have hread : ∀ keys entry, KeepsAgreement now keys entry .isCooledDown := fun _ _ => trivial
      exact callEach_alike hread deployments h

/-! ## Runs -/

/-- The keys of a pruned deployment change by `onPrune`; with `id` Redis knows nothing of
pruning. -/
def routerStates (ttlSec : ℕ) (onPrune : RedisEntry → RedisEntry) :
    TransitionSystem (State δ) (Event δ) where
  initial s := s.keys = (fun _ => .empty) ∧ s.degraded = ⟨fun _ => .empty, 0⟩ ∧ s.answers = []
  enabled s event := s.now ≤ event.time
  next s event :=
    let (keys, redisReplies) :=
      redisCall (s.keysAfterPrune onPrune ttlSec event) event.time event.request
    let (degraded, localReplies) := s.degraded.call ttlSec event.time event.request
    ⟨event.time, keys, degraded, (redisReplies, localReplies) :: s.answers⟩

instance (ttlSec : ℕ) (onPrune : RedisEntry → RedisEntry) (s : State δ) (event : Event δ) :
    Decidable ((routerStates ttlSec onPrune).enabled s event) :=
  inferInstanceAs (Decidable (s.now ≤ event.time))

structure Simulates (s : State δ) : Prop where
  agree : ∀ d, Agree s.now (s.keys d) (s.degraded.entries d)
  answered : AnsweredAlike s

theorem degraded_call (s : State δ) (ttlSec : ℕ) (event : Event δ) :
    (s.degraded.call ttlSec event.time event.request).1.entries =
        (callEach (·.call event.time event.request.operation) event.request.deployments
          (s.entriesAfterPrune ttlSec event)).1 ∧
      (s.degraded.call ttlSec event.time event.request).2 =
        (callEach (·.call event.time event.request.operation) event.request.deployments
          (s.entriesAfterPrune ttlSec event)).2 := by
  unfold LocalState.call State.entriesAfterPrune
  by_cases hread : event.request.isRead = true
  · simp [hread]
  · simp [hread]

/-- One request. -/
theorem simulates_next {ttlSec : ℕ} {s : State δ} {event : Event δ} (h : Simulates s)
    (htime : s.now ≤ event.time) (hkeeps : KeepsStep s event) :
    Simulates ((routerStates ttlSec forget).next s event) := by
  have hagree := afterPrune_agree ttlSec fun d => (h.agree d).later htime
  obtain ⟨htables, hreplies⟩ := request_alike hagree (afterPrune_keeps ttlSec hkeeps)
  obtain ⟨hentries, hanswers⟩ := degraded_call s ttlSec event
  constructor
  · intro d
    change Agree event.time _ ((s.degraded.call ttlSec event.time event.request).1.entries d)
    rw [hentries]
    exact htables d
  · intro answers hmem
    rcases List.mem_cons.mp hmem with rfl | hold
    · exact hreplies.trans hanswers.symm
    · exact h.answered answers hold

/-! ## Outages -/

namespace Outages

def start : State String := ⟨0, fun _ => .empty, ⟨fun _ => .empty, 0⟩, []⟩

def ask (time : ℕ) (operation : Operation) : Event String := ⟨time, .one "primary" operation⟩

/-- A deployment found unhealthy, and nothing more for ten minutes. -/
def quiet : List (Event String) := [ask 0 (.setHealth false), ask 601000 .getHealth]

/-- A second failure five minutes after the first. -/
def lateFailure : List (Event String) :=
  [ask 0 (.recordFailure "timeout"), ask 300000 (.recordFailure "timeout")]

/-- Tokens that are counted for the minute before. -/
def earlierMinute : List (Event String) :=
  [ask 60000 (.incrementUsage 5 none), ask 60000 (.incrementUsage 7 (some 0)), ask 60000 .getUsage]

/-- Everything at once, with a prune. -/
def busy : List (Event String) :=
  [ask 1000 .incrementActive, ask 1000 (.incrementUsage 40 none),
    ask 2000 (.recordFailure "timeout"),
    ask 2000 (.setCooldown 60), ask 3000 .decrementActive, ask 4000 .getUsage,
      ask 5000 .isCooledDown,
    ask 70000 .isCooledDown, ask 80000 (.recordFailure "timeout"), ask 700000 .getHealth,
    ask 700000 (.recordFailure "timeout")]

/-- The outage leaves an answer that Redis would not have given. -/
def Shows (outage : List (Event String)) : Prop :=
  Reachable (routerStates 600 id) (outage.foldl (routerStates 600 id).next start) ∧
    ¬AnsweredAlike (outage.foldl (routerStates 600 id).next start)

theorem start_initial (onPrune : RedisEntry → RedisEntry) :
    (routerStates 600 onPrune).initial start := ⟨rfl, rfl, rfl⟩

end Outages

/-- Whatever is asked of the degraded router state, at whatever times, Redis would have answered. -/
theorem answered_alike {ttlSec : ℕ} {s : State δ}
    (h : ReachableBy (routerStates ttlSec forget) KeepsStep s) : AnsweredAlike s := by
  have hsimulates : Simulates s := by
    apply h.invariant
    · rintro s ⟨hkeys, hdegraded, hanswers⟩
      constructor
      · intro d
        rw [hkeys, hdegraded]
        exact agree_empty s.now
      · intro answers hmem
        rw [hanswers] at hmem
        cases hmem
    · intro s event hs htime hkeeps
      exact simulates_next hs htime hkeeps
  exact hsimulates.answered

open Outages in
theorem answered_alike_busy :
    AnsweredAlike (busy.foldl (routerStates 600 forget).next start) :=
  answered_alike ((ReachableBy.initial (start_initial forget)).fires (by decide +kernel))

open Outages in
/-- Pruned health, failures without a time to live and a single minute of usage each show. -/
theorem answers_differ : Shows quiet ∧ Shows lateFailure ∧ Shows earlierMinute := by
  have hshows : ∀ {outage}, Fires (routerStates 600 id) (fun _ _ => True) start outage →
      ¬AnsweredAlike (outage.foldl (routerStates 600 id).next start) → Shows outage := by
    intro outage hfires hdiffer
    exact ⟨(ReachableBy.initial (start_initial id)).fires hfires, hdiffer⟩
  refine ⟨?_, ?_, ?_⟩
  · exact hshows (by decide +kernel) (by decide +kernel)
  · exact hshows (by decide +kernel) (by decide +kernel)
  · exact hshows (by decide +kernel) (by decide +kernel)

end DegradedRouterState
