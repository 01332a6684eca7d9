import DeltaLLM.RedisCounters
import DeltaLLM.TransitionRuns
import Mathlib.Logic.Function.Basic

/-! # Cooldown and recovery

Deployment state as the cooldown manager, the failover chain and the passive health tracker write
it, with no probes. The backend is Redis when `connected` holds and the local dictionaries, which
are pruned on reads, otherwise. Clocks count milliseconds.
-/
namespace CooldownRecovery

open RedisCounters
open TransitionRuns

variable {δ : Type*}

structure RouterConfig where
  connected : Bool
  cooldownTime : ℕ
  allowedFails : ℕ
  failureThreshold : ℕ
  localStateTtlSec : ℕ

/-- What was last recorded of a deployment; the code keeps no such history. -/
inductive Mark where
  | success
  | unhealthy
  deriving DecidableEq, Repr

structure State (δ : Type*) where
  now : ℕ
  cooldownUntil : δ → Option ℕ
  healthy : δ → Option Bool
  failures : δ → CounterKey
  active : δ → ℕ
  lastSeen : δ → Option ℕ
  lastPruneAt : ℕ
  unreported : δ → ℕ
  lastMark : δ → Option Mark

def initial (δ : Type*) : State δ where
  now := 0
  cooldownUntil _ := none
  healthy _ := none
  failures _ := .missing
  active _ := 0
  lastSeen _ := none
  lastPruneAt := 0
  unreported _ := 0
  lastMark _ := none

def State.CooledDown (s : State δ) (d : δ) : Prop :=
  ∃ deadline ∈ s.cooldownUntil d, s.now < deadline

instance (s : State δ) (d : δ) : Decidable (s.CooledDown d) :=
  inferInstanceAs (Decidable (∃ deadline, deadline ∈ s.cooldownUntil d ∧ s.now < deadline))

/-- Unused for longer than the local time to live. -/
def State.Stale (s : State δ) (ttlSec : ℕ) (d : δ) : Prop :=
  (∃ seen ∈ s.lastSeen d, seen + ttlSec * 1000 < s.now) ∧ s.active d = 0 ∧ ¬s.CooledDown d

instance (s : State δ) (ttlSec : ℕ) (d : δ) : Decidable (s.Stale ttlSec d) :=
  inferInstanceAs (Decidable
    ((∃ seen, seen ∈ s.lastSeen d ∧ seen + ttlSec * 1000 < s.now) ∧ _ ∧ ¬s.CooledDown d))

/-- `_prune_local_state`, at most every 30 seconds. -/
def prune (ttlSec : ℕ) (s : State δ) : State δ :=
  if s.now < s.lastPruneAt + 30000 then s
  else
    { s with
      lastPruneAt := s.now
      cooldownUntil := fun d => if s.Stale ttlSec d then none else s.cooldownUntil d
      healthy := fun d => if s.Stale ttlSec d then none else s.healthy d
      failures := fun d => if s.Stale ttlSec d then .missing else s.failures d
      lastSeen := fun d => if s.Stale ttlSec d then none else s.lastSeen d }

/-- The state that a read sees. -/
def pruned (config : RouterConfig) (s : State δ) : State δ :=
  if config.connected then s else prune config.localStateTtlSec s

/-- `is_cooled_down` or a health flag of "false". -/
def Excluded (config : RouterConfig) (s : State δ) (d : δ) : Prop :=
  (pruned config s).CooledDown d ∨ (pruned config s).healthy d = some false

instance (config : RouterConfig) (s : State δ) (d : δ) : Decidable (Excluded config s d) :=
  inferInstanceAs (Decidable (_ ∨ _))

/-- `Router._filter_healthy`. -/
def filterHealthy (config : RouterConfig) (s : State δ) (candidates : List δ) : List δ :=
  candidates.filter fun d => ¬Excluded config s d

/-- The deployments of a chain that `execute_with_failover` attempts when each of them fails. -/
def attempted (config : RouterConfig) (s : State δ) : List δ → List δ
  | [] => []
  | d :: chain =>
      if Excluded config s d then attempted config s chain else d :: attempted config s chain

variable [DecidableEq δ]

/-- `_touch_local_state`; Redis keeps no such time. -/
def touch (config : RouterConfig) (s : State δ) (d : δ) : State δ :=
  if config.connected then s
  else { s with lastSeen := Function.update s.lastSeen d (some s.now) }

section Touch

variable (config : RouterConfig) (s : State δ) (d : δ)

@[simp] theorem touch_now : (touch config s d).now = s.now := by
  unfold touch
  split <;> rfl

@[simp] theorem touch_cooldownUntil : (touch config s d).cooldownUntil = s.cooldownUntil := by
  unfold touch
  split <;> rfl

@[simp] theorem touch_healthy : (touch config s d).healthy = s.healthy := by
  unfold touch
  split <;> rfl

@[simp] theorem touch_lastMark : (touch config s d).lastMark = s.lastMark := by
  unfold touch
  split <;> rfl

end Touch

/-- A read of one deployment: it prunes, and it touches a deployment in cooldown. -/
def read (config : RouterConfig) (s : State δ) (d : δ) : State δ :=
  let s := pruned config s
  if s.CooledDown d then touch config s d else s

def setHealth (config : RouterConfig) (s : State δ) (d : δ) (healthy : Bool) : State δ :=
  touch config { s with healthy := Function.update s.healthy d (some healthy) } d

def setCooldown (config : RouterConfig) (s : State δ) (d : δ) (durationSec : ℕ) : State δ :=
  touch config
    { s with
      cooldownUntil :=
        Function.update s.cooldownUntil d (some (s.now + max 1 durationSec * 1000)) } d

/-- `record_success` of the state backend. -/
def recordSuccess (config : RouterConfig) (s : State δ) (d : δ) : State δ :=
  touch config
    { s with
      failures := Function.update s.failures d .missing
      healthy := Function.update s.healthy d (some true) } d

/-- The failure counter after one more failure; only the Redis key expires. -/
def failedOnce (config : RouterConfig) (s : State δ) (d : δ) : CounterKey :=
  let counter := ((s.failures d).lapse s.now).incr
  if config.connected then counter.expire (s.now + 300000) else counter

def recordFailure (config : RouterConfig) (s : State δ) (d : δ) : State δ :=
  touch config
    { s with failures := Function.update s.failures d (failedOnce config s d) } d

/-- `_enter_cooldown`. -/
def enterCooldown (config : RouterConfig) (s : State δ) (d : δ) (durationSec : ℕ) : State δ :=
  let s := setHealth config (setCooldown config s d durationSec) d false
  { s with lastMark := Function.update s.lastMark d (some .unhealthy) }

/-- `CooldownManager.record_success`, and the successful branch of the passive tracker. -/
def managerSuccess (config : RouterConfig) (s : State δ) (d : δ) : State δ :=
  let s := setHealth config (recordSuccess config s d) d true
  { s with lastMark := Function.update s.lastMark d (some .success) }

/-- `CooldownManager.record_failure`. -/
def managerFailure (config : RouterConfig) (s : State δ) (d : δ) (affectsHealth : Bool) :
    State δ :=
  if affectsHealth then
    let failed := recordFailure config s d
    if config.allowedFails < (failedOnce config s d).count then
      enterCooldown config failed d config.cooldownTime
    else failed
  else s

/-- The failing branch of `PassiveHealthTracker.record_request_outcome`. -/
def passiveFailure (config : RouterConfig) (s : State δ) (d : δ) (affectsHealth : Bool) :
    State δ :=
  if affectsHealth then
    let failed := recordFailure config s d
    if config.failureThreshold ≤ (failedOnce config s d).count then
      let s := setHealth config failed d false
      { s with lastMark := Function.update s.lastMark d (some .unhealthy) }
    else failed
  else s

def startAttempt (config : RouterConfig) (s : State δ) (d : δ) : State δ :=
  let seen := read config s d
  if Excluded config s d then seen
  else touch config { seen with active := Function.update seen.active d (seen.active d + 1) } d

/-- The attempt is over and its outcome may still be reported to the passive tracker. -/
def endAttempt (s : State δ) (d : δ) : State δ :=
  { s with
    active := Function.update s.active d (s.active d - 1)
    unreported := Function.update s.unreported d (s.unreported d + 1) }

def reported (s : State δ) (d : δ) : State δ :=
  { s with unreported := Function.update s.unreported d (s.unreported d - 1) }

inductive Event (δ : Type*) where
  | route (candidates : List δ)
  | attempt (d : δ)
  | succeed (d : δ)
  | fail (d : δ) (affectsHealth : Bool)
  | reportSuccess (d : δ)
  | reportFailure (d : δ) (affectsHealth : Bool)
  | manualCooldown (d : δ) (durationSec : ℕ)
  | elapse (milliseconds : ℕ)

def enabled (s : State δ) : Event δ → Prop
  | .succeed d | .fail d _ => 0 < s.active d
  | .reportSuccess d | .reportFailure d _ => 0 < s.unreported d
  | _ => True

def next (config : RouterConfig) (s : State δ) : Event δ → State δ
  | .route candidates => candidates.foldl (read config) s
  | .attempt d => startAttempt config s d
  | .succeed d => endAttempt (managerSuccess config s d) d
  | .fail d affectsHealth => endAttempt (managerFailure config s d affectsHealth) d
  | .reportSuccess d => reported (managerSuccess config s d) d
  | .reportFailure d affectsHealth => reported (passiveFailure config s d affectsHealth) d
  | .manualCooldown d durationSec => enterCooldown config s d (max 1 durationSec)
  | .elapse milliseconds => { s with now := s.now + milliseconds }

def cooldownSystem (config : RouterConfig) : TransitionSystem (State δ) (Event δ) where
  initial s := s = initial δ
  enabled := enabled
  next := next config

/-- Outside its cooldown a deployment passes the router's filter and the failover chain's. -/
structure RoutedOutsideCooldown (config : RouterConfig) (s : State δ) : Prop where
  selectable : ∀ candidates, ∀ d ∈ candidates, ¬s.CooledDown d →
    d ∈ filterHealthy config s candidates
  tried : ∀ chain, ∀ d ∈ chain, ¬s.CooledDown d → d ∈ attempted config s chain

/-- No cooldown runs out before a success recorded since it was entered, and the passive tracker
marks no deployment that is not in cooldown. -/
def RecoversInTime (config : RouterConfig) (s : State δ) : Event δ → Prop
  | .elapse milliseconds => ∀ d, s.CooledDown d →
      (∃ deadline ∈ s.cooldownUntil d, deadline ≤ s.now + milliseconds) →
        s.lastMark d ≠ some .unhealthy
  | .reportFailure d affectsHealth => affectsHealth = true →
      config.failureThreshold ≤ (failedOnce config s d).count → s.CooledDown d
  | _ => True

/-- While cooldowns recover in time, a false flag is a mark, and a mark is in cooldown. -/
structure MarkedInCooldown (s : State δ) : Prop where
  flag_marked : ∀ d, s.healthy d = some false → s.lastMark d = some .unhealthy
  marked_cooled : ∀ d, s.lastMark d = some .unhealthy → s.CooledDown d

section Steps

variable {config : RouterConfig} {s t : State δ} {d : δ} {affectsHealth : Bool}

/-- The fields that decide who is excluded are the same. -/
structure SameStanding (s t : State δ) : Prop where
  now : t.now = s.now
  cooldown : t.cooldownUntil = s.cooldownUntil
  healthy : t.healthy = s.healthy
  mark : t.lastMark = s.lastMark

theorem sameStanding_touch (config : RouterConfig) (s : State δ) (d : δ) :
    SameStanding s (touch config s d) :=
  ⟨touch_now _ _ _, touch_cooldownUntil _ _ _, touch_healthy _ _ _, touch_lastMark _ _ _⟩

theorem sameStanding_recordFailure (config : RouterConfig) (s : State δ) (d : δ) :
    SameStanding s (recordFailure config s d) := by
  unfold recordFailure
  constructor <;> simp

omit [DecidableEq δ] in
theorem MarkedInCooldown.same (hs : MarkedInCooldown s) (h : SameStanding s t) :
    MarkedInCooldown t := by
  constructor
  · intro d hflag
    rw [h.healthy] at hflag
    rw [h.mark]
    exact hs.flag_marked d hflag
  · intro d hmark
    rw [h.mark] at hmark
    have hcooled := hs.marked_cooled d hmark
    simp only [State.CooledDown] at hcooled ⊢
    rwa [h.cooldown, h.now]

omit [DecidableEq δ] in
/-- A prune forgets nothing of a deployment in cooldown. -/
theorem cooledDown_prune (ttlSec : ℕ) (s : State δ) (d : δ) :
    (prune ttlSec s).CooledDown d ↔ s.CooledDown d := by
  unfold prune
  split
  · rfl
  · by_cases hstale : s.Stale ttlSec d
    · have hnot : ¬s.CooledDown d := hstale.2.2
      simp only [State.CooledDown] at hnot ⊢
      simp [hstale]
      simpa using hnot
    · simp [State.CooledDown, hstale]

omit [DecidableEq δ] in
theorem healthy_prune {ttlSec : ℕ} (h : (prune ttlSec s).healthy d = some false) :
    s.healthy d = some false := by
  unfold prune at h
  split at h
  · exact h
  · simp only at h
    split at h
    · cases h
    · exact h

omit [DecidableEq δ] in
theorem lastMark_prune (ttlSec : ℕ) (s : State δ) : (prune ttlSec s).lastMark = s.lastMark := by
  unfold prune
  split <;> rfl

omit [DecidableEq δ] in
theorem MarkedInCooldown.pruned (hs : MarkedInCooldown s) :
    MarkedInCooldown (pruned config s) := by
  unfold CooldownRecovery.pruned
  split
  · exact hs
  · constructor
    · intro d hflag
      rw [lastMark_prune]
      exact hs.flag_marked d (healthy_prune hflag)
    · intro d hmark
      rw [lastMark_prune] at hmark
      exact (cooledDown_prune _ _ _).mpr (hs.marked_cooled d hmark)

theorem MarkedInCooldown.read (hs : MarkedInCooldown s) :
    MarkedInCooldown (read config s d) := by
  have hpruned : MarkedInCooldown (CooldownRecovery.pruned config s) := hs.pruned
  simp only [CooldownRecovery.read]
  split
  · exact hpruned.same (sameStanding_touch _ _ _)
  · exact hpruned

/-- A flag and a mark set together, in cooldown when they say unhealthy. -/
theorem MarkedInCooldown.setMark (hs : MarkedInCooldown s) (d : δ) (mark : Mark) (flag : Bool)
    (hnow : t.now = s.now)
    (hcooldown : ∀ other, other ≠ d → t.cooldownUntil other = s.cooldownUntil other)
    (hhealthy : t.healthy = Function.update s.healthy d (some flag))
    (hmark : t.lastMark = Function.update s.lastMark d (some mark))
    (hflag : flag = false → mark = .unhealthy) (hcooled : mark = .unhealthy → t.CooledDown d) :
    MarkedInCooldown t := by
  constructor
  · intro other hother
    rw [hhealthy] at hother
    rw [hmark]
    by_cases hd : other = d
    · subst hd
      rw [Function.update_self, Option.some_inj] at hother
      rw [Function.update_self, hflag hother]
    · rw [Function.update_of_ne hd] at hother ⊢
      exact hs.flag_marked other hother
  · intro other hother
    rw [hmark] at hother
    by_cases hd : other = d
    · subst hd
      rw [Function.update_self, Option.some_inj] at hother
      exact hcooled hother
    · rw [Function.update_of_ne hd] at hother
      have hbefore := hs.marked_cooled other hother
      simp only [State.CooledDown] at hbefore ⊢
      rwa [hcooldown other hd, hnow]

theorem MarkedInCooldown.enterCooldown (hs : MarkedInCooldown s) (durationSec : ℕ) :
    MarkedInCooldown (enterCooldown config s d durationSec) := by
  apply hs.setMark d .unhealthy false
  · simp [CooldownRecovery.enterCooldown, setHealth, setCooldown]
  · intro other hd
    simp [CooldownRecovery.enterCooldown, setHealth, setCooldown, hd]
  · simp [CooldownRecovery.enterCooldown, setHealth, setCooldown]
  · simp [CooldownRecovery.enterCooldown, setHealth, setCooldown]
  · exact fun _ => rfl
  · intro _
    refine ⟨s.now + max 1 durationSec * 1000, ?_, ?_⟩
    · simp [CooldownRecovery.enterCooldown, setHealth, setCooldown]
    · simp only [CooldownRecovery.enterCooldown, setHealth, setCooldown, touch_now]
      omega

theorem MarkedInCooldown.managerSuccess (hs : MarkedInCooldown s) :
    MarkedInCooldown (managerSuccess config s d) := by
  apply hs.setMark d .success true
  · simp [CooldownRecovery.managerSuccess, setHealth, recordSuccess]
  · intro other _
    simp [CooldownRecovery.managerSuccess, setHealth, recordSuccess]
  · simp [CooldownRecovery.managerSuccess, setHealth, recordSuccess]
  · simp [CooldownRecovery.managerSuccess, setHealth, recordSuccess]
  · rintro ⟨⟩
  · rintro ⟨⟩

theorem MarkedInCooldown.managerFailure (hs : MarkedInCooldown s) :
    MarkedInCooldown (managerFailure config s d affectsHealth) := by
  have hfailed := hs.same (sameStanding_recordFailure config s d)
  simp only [CooldownRecovery.managerFailure]
  split
  · split
    · exact hfailed.enterCooldown _
    · exact hfailed
  · exact hs

theorem MarkedInCooldown.passiveFailure (hs : MarkedInCooldown s)
    (hcooled : affectsHealth = true →
      config.failureThreshold ≤ (failedOnce config s d).count → s.CooledDown d) :
    MarkedInCooldown (passiveFailure config s d affectsHealth) := by
  have hsame := sameStanding_recordFailure config s d
  have hfailed := hs.same hsame
  simp only [CooldownRecovery.passiveFailure]
  split
  · rename_i haffects
    split
    · rename_i hmany
      apply hfailed.setMark d .unhealthy false
      · simp [setHealth]
      · intro other _
        simp [setHealth]
      · simp [setHealth]
      · simp [setHealth]
      · exact fun _ => rfl
      · intro _
        have hbefore := hcooled haffects hmany
        simp only [State.CooledDown] at hbefore ⊢
        simpa [setHealth, hsame.cooldown, hsame.now] using hbefore
    · exact hfailed
  · exact hs

theorem MarkedInCooldown.startAttempt (hs : MarkedInCooldown s) :
    MarkedInCooldown (startAttempt config s d) := by
  have hread : MarkedInCooldown (CooldownRecovery.read config s d) := hs.read
  simp only [CooldownRecovery.startAttempt]
  split
  · exact hread
  · refine hread.same ?_
    constructor <;> simp

theorem MarkedInCooldown.next (hs : MarkedInCooldown s) {e : Event δ}
    (hrecovers : RecoversInTime config s e) : MarkedInCooldown (next config s e) := by
  cases e with
  | route candidates =>
      simp only [CooldownRecovery.next]
      clear hrecovers
      induction candidates generalizing s with
      | nil => exact hs
      | cons d candidates ih => exact ih hs.read
  | attempt d => exact hs.startAttempt
  | succeed d => exact hs.managerSuccess.same ⟨rfl, rfl, rfl, rfl⟩
  | fail d affectsHealth => exact hs.managerFailure.same ⟨rfl, rfl, rfl, rfl⟩
  | reportSuccess d => exact hs.managerSuccess.same ⟨rfl, rfl, rfl, rfl⟩
  | reportFailure d affectsHealth =>
      exact (hs.passiveFailure hrecovers).same ⟨rfl, rfl, rfl, rfl⟩
  | manualCooldown d durationSec => exact hs.enterCooldown _
  | elapse milliseconds =>
      refine ⟨hs.flag_marked, ?_⟩
      intro d hmark
      have hcooled := hs.marked_cooled d hmark
      obtain ⟨deadline, hdeadline, hlt⟩ := hcooled
      refine ⟨deadline, hdeadline, ?_⟩
      by_contra hover
      simp only [CooldownRecovery.next] at hover
      exact hrecovers d ⟨deadline, hdeadline, hlt⟩ ⟨deadline, hdeadline, by omega⟩ hmark

end Steps

omit [DecidableEq δ] in
theorem initial_marked : MarkedInCooldown (initial δ) := by
  constructor <;> intro d h <;> cases h

omit [DecidableEq δ] in
theorem mem_attempted {config : RouterConfig} {s : State δ} {d : δ} {chain : List δ}
    (hmem : d ∈ chain) (hrouted : ¬Excluded config s d) : d ∈ attempted config s chain := by
  induction chain with
  | nil => cases hmem
  | cons first chain ih =>
      rw [attempted]
      rcases List.mem_cons.mp hmem with rfl | htail
      · rw [if_neg hrouted]
        exact List.mem_cons_self
      · have hlater := ih htail
        split
        · exact hlater
        · exact List.mem_cons_of_mem _ hlater

omit [DecidableEq δ] in
theorem MarkedInCooldown.not_excluded {config : RouterConfig} {s : State δ} {d : δ}
    (hs : MarkedInCooldown s) (hcooled : ¬s.CooledDown d) : ¬Excluded config s d := by
  have hpruned : MarkedInCooldown (CooldownRecovery.pruned config s) := hs.pruned
  have hsame : (CooldownRecovery.pruned config s).CooledDown d ↔ s.CooledDown d := by
    unfold CooldownRecovery.pruned
    split
    · rfl
    · exact cooledDown_prune _ _ _
  rintro (h | h)
  · exact hcooled (hsame.mp h)
  · exact hcooled (hsame.mp (hpruned.marked_cooled d (hpruned.flag_marked d h)))

/-- In every run whose cooldowns recover in time, a deployment is excluded from routing only
while it is in cooldown. -/
theorem routed_outside_cooldown {config : RouterConfig} {s : State δ}
    (hs : ReachableBy (cooldownSystem config) (RecoversInTime config) s) :
    RoutedOutsideCooldown config s := by
  have hmarked : MarkedInCooldown s := by
    refine hs.invariant ?_ ?_
    · rintro _ rfl
      exact initial_marked
    · intro t e ht _ hrecovers
      exact ht.next hrecovers
  constructor
  · intro candidates d hmem hcooled
    have hrouted := @MarkedInCooldown.not_excluded _ config _ _ hmarked hcooled
    simpa [filterHealthy, hmem] using hrouted
  · intro chain d hmem hcooled
    exact mem_attempted hmem (hmarked.not_excluded hcooled)

/-! ## Without a request in flight nothing recovers -/

/-- Marked unhealthy with no attempt and no report left that could end the mark. -/
structure Stranded (d : δ) (s : State δ) : Prop where
  marked : s.healthy d = some false
  idle : s.active d = 0
  reported : s.unreported d = 0

omit [DecidableEq δ] in
theorem stranded_excluded {config : RouterConfig} (hconnected : config.connected = true)
    {s : State δ} {d : δ} (hs : Stranded d s) : Excluded config s d := by
  right
  simp only [pruned, hconnected, if_true]
  exact hs.marked

theorem foldl_read_connected {config : RouterConfig} (hconnected : config.connected = true)
    (s : State δ) (candidates : List δ) : candidates.foldl (read config) s = s := by
  induction candidates with
  | nil => rfl
  | cons d candidates ih =>
      have hread : read config s d = s := by simp [read, pruned, touch, hconnected]
      rw [List.foldl_cons, hread, ih]

theorem stranded_next {config : RouterConfig} (hconnected : config.connected = true)
    {s : State δ} {d : δ} {e : Event δ} (hs : Stranded d s) (he : enabled s e) :
    Stranded d (next config s e) := by
  have hexcluded := stranded_excluded hconnected hs
  obtain ⟨hmarked, hidle, hreported⟩ := hs
  cases e with
  | route candidates =>
      rw [next, foldl_read_connected hconnected]
      exact ⟨hmarked, hidle, hreported⟩
  | attempt other =>
      have hread : read config s other = s := by simp [read, pruned, touch, hconnected]
      simp only [next, startAttempt, hread]
      split
      · exact ⟨hmarked, hidle, hreported⟩
      · have hother : d ≠ other := by
          rintro rfl
          contradiction
        simp only [touch, hconnected, if_true]
        exact ⟨hmarked, by simpa [hother] using hidle, hreported⟩
  | succeed other =>
      have hother : d ≠ other := by
        rintro rfl
        simp only [enabled] at he
        omega
      simp only [next, endAttempt, managerSuccess, setHealth, recordSuccess, touch, hconnected,
        if_true]
      exact ⟨by simpa [hother] using hmarked, by simpa [hother] using hidle,
        by simpa [hother] using hreported⟩
  | fail other affectsHealth =>
      have hother : d ≠ other := by
        rintro rfl
        simp only [enabled] at he
        omega
      simp only [next, endAttempt, managerFailure, enterCooldown, setCooldown, setHealth,
        recordFailure, touch, hconnected, if_true]
      constructor <;> split <;> (try split) <;> simpa [hother]
  | reportSuccess other =>
      have hother : d ≠ other := by
        rintro rfl
        simp only [enabled] at he
        omega
      simp only [next, reported, managerSuccess, setHealth, recordSuccess, touch, hconnected,
        if_true]
      exact ⟨by simpa [hother] using hmarked, hidle, by simpa [hother] using hreported⟩
  | reportFailure other affectsHealth =>
      have hother : d ≠ other := by
        rintro rfl
        simp only [enabled] at he
        omega
      simp only [next, reported, passiveFailure, setHealth, recordFailure, touch, hconnected,
        if_true]
      constructor <;> split <;> (try split) <;> simpa [hother]
  | manualCooldown other durationSec =>
      simp only [next, enterCooldown, setCooldown, setHealth, touch, hconnected, if_true]
      refine ⟨?_, hidle, hreported⟩
      by_cases hother : d = other
      · subst hother
        exact Function.update_self _ _ _
      · simpa [hother] using hmarked
  | elapse milliseconds => exact ⟨hmarked, hidle, hreported⟩

/-- With Redis, a marked deployment with no request in flight is excluded in every later state. -/
theorem stranded_forever {config : RouterConfig} (hconnected : config.connected = true)
    {s t : State δ} {d : δ} (hs : Reachable (cooldownSystem config) s)
    (hst : Later (cooldownSystem config) s t) (hstranded : Stranded d s) :
    Excluded config t d := by
  have hlater : Stranded d t := by
    refine @Later.stable _ _ _ (Stranded d) (fun _ => True) (fun _ _ => trivial) ?_ _ _ hs hst
      hstranded
    intro u e _ hu he
    exact stranded_next hconnected hu he
  exact stranded_excluded hconnected hlater

namespace Counterexample

/-- One failure is enough for a cooldown of a minute. -/
def config : RouterConfig := ⟨true, 60, 0, 3, 600⟩

def cooledOnce : List (Event Unit) :=
  [.attempt (), .fail () true, .reportFailure () true, .elapse 60000]

/-- A second request succeeds while the first one's cooldown runs. -/
def recovered : List (Event Unit) :=
  [.attempt (), .attempt (), .fail () true, .succeed (), .elapse 60000]

def runOf (events : List (Event Unit)) : State Unit := events.foldl (next config) (initial Unit)

end Counterexample

open Counterexample in
/-- After the minute has passed the deployment is out of cooldown and excluded for good. -/
theorem expired_cooldown_still_excluded :
    ∃ s : State Unit, Reachable (cooldownSystem config) s ∧ ¬s.CooledDown () ∧
      ¬RoutedOutsideCooldown config s ∧
        ∀ t, Later (cooldownSystem config) s t → Excluded config t () := by
  have hreach : Reachable (cooldownSystem config) (runOf cooledOnce) := by
    refine ReachableBy.fires (.initial rfl) ?_
    simp [Fires, cooledOnce, cooldownSystem, enabled]
    decide
  have hcooled : ¬(runOf cooledOnce).CooledDown () := by decide
  refine ⟨runOf cooledOnce, hreach, hcooled, ?_, ?_⟩
  · intro hrouted
    have hselected := hrouted.selectable [()] () List.mem_cons_self hcooled
    exact absurd hselected (by decide)
  · intro t hlater
    exact stranded_forever rfl hreach hlater ⟨by decide, by decide, by decide⟩

open Counterexample in
theorem routed_outside_cooldown_recovered :
    ReachableBy (cooldownSystem config) (RecoversInTime config) (runOf recovered) ∧
      RoutedOutsideCooldown config (runOf recovered) := by
  have hrun : ReachableBy (cooldownSystem config) (RecoversInTime config) (runOf recovered) := by
    refine ReachableBy.fires (.initial rfl) ⟨trivial, trivial, trivial, trivial, ?_, trivial,
      ?_, trivial, trivial, ?_, trivial⟩
    · change 0 < (runOf [.attempt (), .attempt ()]).active ()
      decide
    · change 0 < (runOf [.attempt (), .attempt (), .fail () true]).active ()
      decide
    · rintro ⟨⟩ _ _
      change (runOf [.attempt (), .attempt (), .fail () true, .succeed ()]).lastMark () ≠ _
      decide
  exact ⟨hrun, routed_outside_cooldown hrun⟩

end CooldownRecovery
