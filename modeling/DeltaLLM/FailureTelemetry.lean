import DeltaLLM.CooldownRecovery
import DeltaLLM.FailoverAttempts

/-! # Failures of chat requests

Every attempt of a request is recorded by the cooldown manager, and at its end the request is
reported to the passive health tracker, which counts with the same counter. Requests go on side by
side.
-/
namespace FailureTelemetry

open CooldownRecovery FailoverAttempts RedisCounters TransitionRuns

/-- What a request does to the state of a deployment, one step after the other. -/
inductive Record where
  | read (d : String)
  | start (d : String)
  | succeed (d : String)
  | fail (d : String) (e : ProxyError)
  | reportSuccess (d : String)
  | reportFailure (d : String) (affectsHealth : Bool)

/-- How a served request ends: with the success telemetry, or with an exception before or after
it. -/
inductive ServedEnd where
  | completed
  | failedBefore (affectsHealth : Bool)
  | failedAfter (affectsHealth : Bool)

def ServedEnd.reports (d : String) : ServedEnd → List Record
  | .completed => [.reportSuccess d]
  | .failedBefore affectsHealth => [.reportFailure d affectsHealth]
  | .failedAfter affectsHealth => [.reportSuccess d, .reportFailure d affectsHealth]

/-- The records of the attempts of a history, of which `seen` is over. -/
def attemptRecords {ρ : Type*} (up : Upstream ρ) :
    List FailoverAttempts.Event → List FailoverAttempts.Event → List Record
  | _, [] => []
  | seen, .skipped d :: history =>
      .read d.deploymentId :: attemptRecords up (seen ++ [.skipped d]) history
  | seen, .attempted d :: history =>
      let result : Record := match up.execute seen d with
        | .ok _ => .succeed d.deploymentId
        | .error raised => .fail d.deploymentId (normalizeExecutionError raised d).1
      .start d.deploymentId :: result :: attemptRecords up (seen ++ [.attempted d]) history

/-- A chat request: the deployments that the router reads, the run of `execute_with_failover` and
the report of its end. A failure is reported of the deployment that was attempted last. -/
def requestRecords {ρ : Type*} (candidates : List String) (x : Execution) (up : Upstream ρ)
    (primary : DeploymentRouting.Deployment) (servedEnd : ServedEnd) : List Record :=
  let (outcome, history) := executeWithFailover x up primary
  let reports := match outcome with
    | .served _ d => servedEnd.reports d.deploymentId
    | .raised e =>
        let target := (attempts history).getLast?.getD primary
        [.reportFailure target.deploymentId (affectsDeploymentHealth e)]
  candidates.map .read ++ attemptRecords up [] history ++ reports

/-- With what the code does not keep: the failed attempts of each deployment since its last success
or the end of its counter, and whether it has entered cooldown since. -/
structure State where
  backend : CooldownRecovery.State String
  pending : List (List Record)
  failed : String → ℕ
  entered : String → Bool

/-- `CooldownManager.record_failure` returns true. -/
def entersCooldown (config : CooldownRecovery.RouterConfig) (s : CooldownRecovery.State String)
    (d : String) (affectsHealth : Bool) : Bool :=
  affectsHealth ∧ config.allowedFails < (failedOnce config s d).count

/-- An attempt starts. -/
def startRecorded (config : CooldownRecovery.RouterConfig) (s : CooldownRecovery.State String)
    (d : String) : CooldownRecovery.State String :=
  let seen := read config s d
  touch config { seen with active := Function.update seen.active d (seen.active d + 1) } d

/-- A counter that has expired or was pruned ends the count. -/
def State.observe (s : State) (backend : CooldownRecovery.State String) : State :=
  let gone := fun d => (backend.failures d).lapse backend.now = .missing
  { s with
    backend
    failed := fun d => if gone d then 0 else s.failed d
    entered := fun d => if gone d then false else s.entered d }

def State.process (config : CooldownRecovery.RouterConfig) (s : State) : Record → State
  | .read d => s.observe (read config s.backend d)
  | .start d => s.observe (startRecorded config s.backend d)
  | .succeed d =>
      { s with
        backend := endAttempt (managerSuccess config s.backend d) d
        failed := Function.update s.failed d 0
        entered := Function.update s.entered d false }
  | .fail d e =>
      let affectsHealth := affectsDeploymentHealth e
      { s with
        backend := endAttempt (managerFailure config s.backend d affectsHealth) d
        failed := if affectsHealth then Function.update s.failed d (s.failed d + 1) else s.failed
        entered :=
          if entersCooldown config s.backend d affectsHealth then Function.update s.entered d true
          else s.entered }
  | .reportSuccess d => { s with backend := managerSuccess config s.backend d }
  | .reportFailure d affectsHealth =>
      { s with backend := passiveFailure config s.backend d affectsHealth }

/-- A request begins, some request takes its next step, or time passes. -/
inductive Event where
  | begin (candidates : List String) (x : Execution) (up : Upstream Unit)
      (primary : DeploymentRouting.Deployment) (servedEnd : ServedEnd)
  | proceed (i : ℕ)
  | elapse (milliseconds : ℕ)

/-- The next step of a request. -/
def State.upcoming (s : State) (i : ℕ) : Option Record := (s.pending.getD i []).head?

def State.proceed (config : CooldownRecovery.RouterConfig) (s : State) (i : ℕ) : State :=
  match s.upcoming i with
  | none => s
  | some record => { s.process config record with pending := s.pending.modify i List.tail }

def next (config : CooldownRecovery.RouterConfig) (s : State) : Event → State
  | .begin candidates x up primary servedEnd =>
      { s with pending := s.pending ++ [requestRecords candidates x up primary servedEnd] }
  | .proceed i => s.proceed config i
  | .elapse milliseconds =>
      s.observe { s.backend with now := s.backend.now + milliseconds }

def chatRequests (config : CooldownRecovery.RouterConfig) : TransitionSystem State Event where
  initial s := s = ⟨CooldownRecovery.initial String, [], fun _ => 0, fun _ => false⟩
  enabled _ _ := True
  next := next config

instance (config : CooldownRecovery.RouterConfig) (s : State) (event : Event) :
    Decidable ((chatRequests config).enabled s event) := .isTrue trivial

/-- The counters are the failed attempts, and the deployments with more than the allowed ones have
entered cooldown. -/
structure CountedOnce (config : CooldownRecovery.RouterConfig) (s : State) : Prop where
  counted : ∀ d, ((s.backend.failures d).lapse s.backend.now).count = s.failed d
  cooled : ∀ d, s.entered d = true ↔ config.allowedFails < s.failed d

/-- No failure is reported of an error that affects health, and no success after a later failure. -/
def Record.Keeps (s : State) : Record → Prop
  | .reportSuccess d => s.failed d = 0
  | .reportFailure _ affectsHealth => affectsHealth = false
  | _ => True

instance (s : State) (record : Record) : Decidable (record.Keeps s) :=
  match record with
  | .reportSuccess d => inferInstanceAs (Decidable (s.failed d = 0))
  | .reportFailure _ affectsHealth => inferInstanceAs (Decidable (affectsHealth = false))
  | .read _ | .start _ | .succeed _ | .fail _ _ => .isTrue trivial

def KeepsCount (s : State) : Event → Prop
  | .proceed i => ∀ record ∈ s.upcoming i, record.Keeps s
  | _ => True

instance (s : State) (event : Event) : Decidable (KeepsCount s event) :=
  match event with
  | .proceed i => inferInstanceAs (Decidable (∀ record ∈ s.upcoming i, record.Keeps s))
  | .begin .. | .elapse _ => .isTrue trivial

/-! ## What the records leave of the counters -/

section

variable (config : CooldownRecovery.RouterConfig) (s : CooldownRecovery.State String) (d : String)

@[simp] theorem touch_failures : (touch config s d).failures = s.failures := by
  unfold touch
  split <;> rfl

/-- The counters are the same or gone. -/
def KeepsCounters (s t : CooldownRecovery.State String) : Prop :=
  ∀ d, (t.failures d).lapse t.now = (s.failures d).lapse s.now ∨
    (t.failures d).lapse t.now = .missing

theorem lapse_missing (now : ℕ) : CounterKey.missing.lapse now = .missing := by
  unfold CounterKey.lapse
  split <;> rfl

theorem pruned_keepsCounters : KeepsCounters s (pruned config s) := by
  intro d
  unfold pruned prune
  split
  · exact .inl rfl
  · split
    · exact .inl rfl
    · by_cases hstale : s.Stale config.localStateTtlSec d
      · right
        simp [hstale, lapse_missing]
      · left
        simp [hstale]

theorem read_keepsCounters : KeepsCounters s (read config s d) := by
  intro other
  unfold CooldownRecovery.read
  simp only
  split
  · simpa using pruned_keepsCounters config s other
  · exact pruned_keepsCounters config s other

theorem startRecorded_keepsCounters : KeepsCounters s (startRecorded config s d) := by
  intro other
  simpa [startRecorded] using read_keepsCounters config s d other

theorem elapse_keepsCounters (milliseconds : ℕ) :
    KeepsCounters s { s with now := s.now + milliseconds } := by
  intro other
  by_cases hexpired : (s.failures other).Expired (s.now + milliseconds)
  · exact .inr (CounterKey.lapse_of_expired hexpired)
  · left
    have hbefore : ¬(s.failures other).Expired s.now := by
      rintro ⟨deadline, hdeadline, hpast⟩
      exact hexpired ⟨deadline, hdeadline, by omega⟩
    rw [CounterKey.lapse_of_not_expired hbefore]
    exact CounterKey.lapse_of_not_expired hexpired

theorem managerSuccess_counters :
    (managerSuccess config s d).failures = Function.update s.failures d .missing ∧
      (managerSuccess config s d).now = s.now := by
  simp [managerSuccess, setHealth, recordSuccess]

theorem managerFailure_counters :
    (managerFailure config s d true).failures =
        Function.update s.failures d (failedOnce config s d) ∧
      (managerFailure config s d true).now = s.now := by
  unfold managerFailure
  simp only [if_true]
  split
  · simp [enterCooldown, setHealth, setCooldown, recordFailure]
  · simp [recordFailure]

theorem failedOnce_count :
    (failedOnce config s d).count = ((s.failures d).lapse s.now).count + 1 := by
  unfold failedOnce
  simp only
  split <;> simp

/-- A counter that has just grown has not expired. -/
theorem failedOnce_lapse : (failedOnce config s d).lapse s.now = failedOnce config s d := by
  have hfresh : ¬(failedOnce config s d).Expired s.now := by
    unfold failedOnce
    simp only
    split
    · exact CounterKey.not_expired_of_lt (CounterKey.expiresAt_expire_incrBy _ _ _) (by omega)
    · rintro ⟨deadline, hdeadline, hpast⟩
      change deadline ∈ ((s.failures d).lapse s.now).expiresAt at hdeadline
      by_cases hexpired : (s.failures d).Expired s.now
      · rw [CounterKey.lapse_of_expired hexpired] at hdeadline
        cases hdeadline
      · rw [CounterKey.lapse_of_not_expired hexpired] at hdeadline
        exact hexpired ⟨deadline, hdeadline, hpast⟩
  exact CounterKey.lapse_of_not_expired hfresh

end

/-! ## Steps -/

variable {config : CooldownRecovery.RouterConfig} {s : State}

theorem CountedOnce.observe (h : CountedOnce config s) {backend : CooldownRecovery.State String}
    (hkept : KeepsCounters s.backend backend) : CountedOnce config (s.observe backend) := by
  constructor
  · intro d
    simp only [State.observe]
    by_cases hgone : (backend.failures d).lapse backend.now = .missing
    · rw [hgone, if_pos rfl]
      rfl
    · rw [if_neg hgone, (hkept d).resolve_right hgone]
      exact h.counted d
  · intro d
    simp only [State.observe]
    by_cases hgone : (backend.failures d).lapse backend.now = .missing
    · simp [hgone]
    · simpa [hgone] using h.cooled d

theorem CountedOnce.restart (h : CountedOnce config s) (d : String)
    {backend : CooldownRecovery.State String}
    (hfailures : backend.failures = Function.update s.backend.failures d .missing)
    (hnow : backend.now = s.backend.now) :
    CountedOnce config
      { s with
        backend
        failed := Function.update s.failed d 0
        entered := Function.update s.entered d false } := by
  constructor
  · intro other
    simp only [hfailures, hnow]
    by_cases hsame : other = d
    · subst hsame
      simp [lapse_missing]
    · simpa [hsame] using h.counted other
  · intro other
    by_cases hsame : other = d
    · subst hsame
      simp
    · simpa [hsame] using h.cooled other

/-- A failed attempt that affects health counts one more. -/
theorem CountedOnce.fail (h : CountedOnce config s) (d : String) :
    CountedOnce config
      { s with
        backend := endAttempt (managerFailure config s.backend d true) d
        failed := Function.update s.failed d (s.failed d + 1)
        entered :=
          if entersCooldown config s.backend d true then Function.update s.entered d true
          else s.entered } := by
  obtain ⟨hfailures, hnow⟩ := managerFailure_counters config s.backend d
  have hcount : (failedOnce config s.backend d).count = (s.failed d + 1 : ℕ) := by
    rw [failedOnce_count, h.counted d]
    omega
  constructor
  · intro other
    simp only [endAttempt, hfailures, hnow]
    by_cases hsame : other = d
    · subst hsame
      simp only [Function.update_self]
      rw [failedOnce_lapse, hcount]
    · simpa [hsame] using h.counted other
  · intro other
    by_cases henters : entersCooldown config s.backend d true = true
    · have hover : config.allowedFails < s.failed d + 1 := by
        simp only [entersCooldown, true_and, decide_eq_true_eq, hcount] at henters
        omega
      by_cases hsame : other = d
      · subst hsame
        simpa [henters] using hover
      · simpa [henters, hsame] using h.cooled other
    · have hunder : ¬config.allowedFails < s.failed d + 1 := by
        simp only [entersCooldown, true_and, decide_eq_true_eq, hcount] at henters
        omega
      by_cases hsame : other = d
      · subst hsame
        have hbefore : s.entered other ≠ true := by
          rw [ne_eq, h.cooled other]
          omega
        simpa [henters, hbefore] using hunder
      · simpa [henters, hsame] using h.cooled other

theorem CountedOnce.process (h : CountedOnce config s) {record : Record} (hkeeps : record.Keeps s) :
    CountedOnce config (s.process config record) := by
  cases record with
  | read d => exact h.observe (read_keepsCounters config s.backend d)
  | start d => exact h.observe (startRecorded_keepsCounters config s.backend d)
  | succeed d =>
      obtain ⟨hfailures, hnow⟩ := managerSuccess_counters config s.backend d
      exact h.restart d hfailures hnow
  | fail d e =>
      by_cases haffects : affectsDeploymentHealth e = true
      · simpa [State.process, haffects] using h.fail d
      · simp only [Bool.not_eq_true] at haffects
        have hsame : s.process config (.fail d e) =
          { s with backend := endAttempt s.backend d } := by
          simp [State.process, haffects, managerFailure, entersCooldown]
        rw [hsame]
        exact ⟨h.counted, h.cooled⟩
  | reportSuccess d =>
      obtain ⟨hfailures, hnow⟩ := managerSuccess_counters config s.backend d
      have hzero : s.failed d = 0 := hkeeps
      have hnot : s.entered d = false := by
        have hcooled := h.cooled d
        rw [hzero] at hcooled
        simpa using hcooled
      have hrestart := h.restart d hfailures hnow
      rwa [← hzero, Function.update_eq_self, ← hnot, Function.update_eq_self] at hrestart
  | reportFailure d affectsHealth =>
      obtain rfl : affectsHealth = false := hkeeps
      exact ⟨h.counted, h.cooled⟩

theorem CountedOnce.next (h : CountedOnce config s) {event : Event} (hkeeps : KeepsCount s event) :
    CountedOnce config (next config s event) := by
  cases event with
  | begin candidates x up primary servedEnd => exact ⟨h.counted, h.cooled⟩
  | elapse milliseconds => exact h.observe (elapse_keepsCounters s.backend milliseconds)
  | proceed i =>
      change CountedOnce config (s.proceed config i)
      unfold State.proceed
      cases hupcoming : s.upcoming i with
      | none => exact h
      | some record =>
          have hprocess := h.process (hkeeps record hupcoming)
          exact ⟨hprocess.counted, hprocess.cooled⟩

/-! ## Two deployments -/

namespace Requests

def deployment (deploymentId : String) : DeploymentRouting.Deployment where
  deploymentId := deploymentId
  mode := "chat"
  weight := 1
  priority := 0
  tags := []
  rpmLimit := none
  tpmLimit := none
  imagePmLimit := none
  audioSecondsPmLimit := none
  charPmLimit := none
  rerankUnitsPmLimit := none

/-- No retries, and a group of the given deployments. -/
def execution (deploymentIds : List String) : Execution where
  config :=
    { numRetries := 0, fallbacks := fun _ => [], contextWindowFallbacks := fun _ => [],
      contentPolicyFallbacks := fun _ => [] }
  registry _ := deploymentIds.map deployment
  group := "gpt"
  retryMaxAttempts := none
  retryableErrorClasses := none

/-- Nothing connects to the first deployment. -/
def upstream : Upstream Unit where
  available _ _ := true
  execute _ d := if d.deploymentId = "gpt-eu" then .error unreachable else .ok ()

def standard : CooldownRecovery.RouterConfig := ⟨true, 60, 2, 3, 600⟩

def start : State := ⟨CooldownRecovery.initial String, [], fun _ => 0, fun _ => false⟩

def request (deploymentIds : List String) : Event :=
  .begin [] (execution deploymentIds) upstream (deployment "gpt-eu") .completed

/-- The second deployment answers for the first. -/
def fallback : List Event := request ["gpt-eu", "gpt-us"] :: List.replicate 5 (.proceed 0)

/-- Two requests for the first deployment alone, the second up to its attempt. -/
def twoFailures : List Event :=
  [request ["gpt-eu"], .proceed 0, .proceed 0, .proceed 0, request ["gpt-eu"], .proceed 1,
    .proceed 1]

end Requests

/-- Over every run whose reports keep the count, failures are counted once. -/
theorem counted_once (h : ReachableBy (chatRequests config) KeepsCount s) :
    CountedOnce config s := by
  apply h.invariant
  · rintro s rfl
    constructor
    · intro d
      exact congrArg CounterKey.count (lapse_missing 0)
    · intro d
      simp
  · intro s event hs _ hkeeps
    exact hs.next hkeeps

open Requests in
theorem counted_once_fallback : CountedOnce standard (fallback.foldl (next standard) start) := by
  have hfires : Fires (chatRequests standard) KeepsCount start fallback := by decide +kernel
  exact counted_once ((ReachableBy.initial rfl).fires hfires)

open Requests in
/-- The first failed request is counted twice, and the second failed attempt starts a cooldown that
the third should have started. -/
theorem failure_counted_twice :
    Reachable (chatRequests standard) (twoFailures.foldl (next standard) start) ∧
      ¬CountedOnce standard (twoFailures.foldl (next standard) start) := by
  have hfires : Fires (chatRequests standard)
    (fun _ _ => True) start twoFailures := by decide +kernel
  constructor
  · exact (ReachableBy.initial rfl).fires hfires
  · intro h
    have hentered : (twoFailures.foldl (next standard) start).entered "gpt-eu" = true := by
      decide +kernel
    have hfailed : ¬standard.allowedFails <
      (twoFailures.foldl (next standard) start).failed "gpt-eu" := by
      decide +kernel
    exact hfailed ((h.cooled "gpt-eu").mp hentered)

end FailureTelemetry
