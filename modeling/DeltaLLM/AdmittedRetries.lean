import DeltaLLM.FailoverOrder
import DeltaLLM.RoutePolicyValidation

/-! # Retries that a route policy admits

A published policy reaches the failover loop through the route groups and the request. Whether a
failed attempt is retried is then read off the history: what stands right behind it.
-/
namespace AdmittedRetries

open JsonValues PythonText CheckedResults
open DeploymentRouting FailoverAttempts FailoverOrder RoutePolicyValidation
open RoutingConfiguration (Environment extractRetryMaxAttempts extractRetryableErrorClasses)
open StreamingCache (toInt)

variable {ρ : Type*}

/-! ## From the policy to the loop -/

/-- `failover_overrides` and `route_failover_kwargs`: the classes sorted, stripped and not blank. -/
def classesKwarg (classes : Option (Finset String)) : Option (List String) :=
  let normalized := ((sorted (classes.getD ∅)).map strip).filter (· ≠ "")
  if normalized = [] then none else some normalized

/-- A request for the group whose published policy has these retry settings. -/
def executionUnder (env : Environment) (config : FallbackConfig) (registry : Registry)
    (group : String) (retry : Option JsonObject) : Execution where
  config := config
  registry := registry
  group := group
  retryMaxAttempts := (extractRetryMaxAttempts retry).filter (0 ≤ ·)
  retryableErrorClasses := classesKwarg (extractRetryableErrorClasses env retry)

/-! ## Retries in a history -/

/-- The failure lets the loop go on with the deployment while retries remain. -/
def GoesOn (x : Execution) (d : Deployment) (raised : UpstreamError) : Prop :=
  affectsDeploymentHealth (normalizeExecutionError raised d).1 = true ∧
    shouldRetry (normalizeExecutionError raised d).2.1 (normalizeExecutionError raised d).1
      x.retryClasses = true

def retriesUsed (before : List Event) (d : Deployment) : ℕ := (attempts before).count d

/-- What a failed attempt is followed by: the next attempt at once, or none on this deployment. -/
structure Followed (x : Execution) (before : List Event) (d : Deployment)
    (raised : UpstreamError) (after : List Event) : Prop where
  retried : GoesOn x d raised → retriesUsed before d < x.retries →
    after.head? = some (.attempted d)
  left : ¬ (GoesOn x d raised ∧ retriesUsed before d < x.retries) → d ∉ attempts after

def Follows (x : Execution) (up : Upstream ρ) : List Event → List Event → Prop
  | _, [] => True
  | before, .skipped d :: rest => Follows x up (before ++ [.skipped d]) rest
  | before, .attempted d :: rest =>
      (∀ raised, up.execute before d = .error raised → Followed x before d raised rest) ∧
        Follows x up (before ++ [.attempted d]) rest

section Histories

variable {x : Execution} {up : Upstream ρ}

/-- In a history that goes right each failed attempt is followed by what it calls for. -/
theorem Follows.followed {start before after : List Event} {d : Deployment}
    (h : Follows x up start (before ++ .attempted d :: after)) {raised : UpstreamError}
    (hfailed : up.execute (start ++ before) d = .error raised) :
    Followed x (start ++ before) d raised after := by
  induction before generalizing start with
  | nil =>
      rw [List.append_nil] at hfailed ⊢
      exact h.1 raised hfailed
  | cons event before ih =>
      rw [List.append_cons] at hfailed ⊢
      cases event with
      | skipped e => exact ih h hfailed
      | attempted e => exact ih h.2 hfailed

@[simp] theorem attempts_nil : attempts [] = [] := rfl

@[simp] theorem attempts_cons_attempted (d : Deployment) (rest : List Event) :
    attempts (.attempted d :: rest) = d :: attempts rest := rfl

@[simp] theorem attempts_cons_skipped (d : Deployment) (rest : List Event) :
    attempts (.skipped d :: rest) = attempts rest := rfl

/-- What one attempt does when no classified fallbacks are configured. -/
theorem attemptDeployment_step (hclassified : ∀ classification, x.classified classification = [])
    (d : Deployment) (remaining : ℕ) (history : List Event) :
    (∃ outcome, attemptDeployment x up d remaining history =
        (outcome, history ++ [.attempted d]) ∧
      ∀ raised, up.execute history d = .error raised → ¬ (GoesOn x d raised ∧ 0 < remaining)) ∨
    ∃ raised left, up.execute history d = .error raised ∧ remaining = left + 1 ∧
      GoesOn x d raised ∧
      attemptDeployment x up d remaining history =
        attemptDeployment x up d left (history ++ [.attempted d]) := by
  have hnone : ∀ classification allowed later,
      x.classifiedAttempts up classification allowed later = (none, later) := by
    intro classification allowed later
    rw [Execution.classifiedAttempts, hclassified, tryClassifiedFallbacks]
    split <;> rfl
  cases hexecute : up.execute history d with
  | ok result =>
      left
      rw [attemptDeployment.eq_def, hexecute]
      exact ⟨_, rfl, fun raised h => by cases h⟩
  | error raised =>
      by_cases hgoes : GoesOn x d raised ∧ 0 < remaining
      · right
        obtain ⟨⟨haffects, hretry⟩, hpositive⟩ := hgoes
        obtain ⟨left, rfl⟩ := Nat.exists_eq_succ_of_ne_zero hpositive.ne'
        refine ⟨raised, left, rfl, rfl, ⟨haffects, hretry⟩, ?_⟩
        rw [attemptDeployment.eq_def, hexecute]
        simp only [hnone, haffects, hretry, Bool.not_true, Bool.false_eq_true, if_false, if_true]
      · left
        have hstops : ∀ raised', (.error raised : Except UpstreamError ρ) = .error raised' →
            ¬ (GoesOn x d raised' ∧ 0 < remaining) := by
          intro raised' heq
          cases heq
          exact hgoes
        rw [attemptDeployment.eq_def, hexecute]
        simp only [hnone]
        split
        · exact ⟨_, rfl, hstops⟩
        next haffects =>
          split
          · exact ⟨_, rfl, hstops⟩
          next left =>
            split
            next hretry =>
              exact absurd ⟨⟨by simpa using haffects, hretry⟩, Nat.succ_pos left⟩ hgoes
            next => exact ⟨_, rfl, hstops⟩

/-- A failure that the loop does not go on from goes right in front of other deployments. -/
theorem follows_last {d : Deployment} {remaining : ℕ} {history rest : List Event}
    (hused : retriesUsed history d + remaining = x.retries)
    (hstops : ∀ raised, up.execute history d = .error raised →
      ¬ (GoesOn x d raised ∧ 0 < remaining))
    (hrest : d ∉ attempts rest) (h : Follows x up (history ++ [.attempted d]) rest) :
    Follows x up history (.attempted d :: rest) := by
  refine ⟨fun raised hfailed => ⟨?_, fun _ => hrest⟩, h⟩
  intro hgoes hlt
  exact absurd ⟨hgoes, by omega⟩ (hstops raised hfailed)

/-- The attempts on one deployment go right in front of anything that leaves it alone. -/
theorem attemptDeployment_follows
    (hclassified : ∀ classification, x.classified classification = []) (d : Deployment)
    {remaining : ℕ} {history : List Event}
    (hused : retriesUsed history d + remaining = x.retries) :
    ∃ more, (attemptDeployment x up d remaining history).2 = history ++ .attempted d :: more ∧
      (∀ e ∈ attempts more, e = d) ∧
      ∀ rest, d ∉ attempts rest → Follows x up (history ++ .attempted d :: more) rest →
        Follows x up history (.attempted d :: more ++ rest) := by
  induction remaining generalizing history with
  | zero =>
      rcases attemptDeployment_step hclassified d 0 history with
        ⟨outcome, hrun, hstops⟩ | ⟨_, _, _, hzero, _⟩
      · exact ⟨[], by rw [hrun], by simp, fun _ => follows_last hused hstops⟩
      · cases hzero
  | succ remaining ih =>
      rcases attemptDeployment_step hclassified d (remaining + 1) history with
        ⟨outcome, hrun, hstops⟩ | ⟨raised, left, hfailed, hleft, hgoes, hrun⟩
      · exact ⟨[], by rw [hrun], by simp, fun _ => follows_last hused hstops⟩
      · cases hleft
        have hused' : retriesUsed (history ++ [.attempted d]) d + remaining = x.retries := by
          rw [retriesUsed, attempts_append, List.count_append, attempts_attempted,
            List.count_singleton_self]
          rw [retriesUsed] at hused
          omega
        obtain ⟨more, hmore, hall, hfollows⟩ := ih hused'
        refine ⟨.attempted d :: more, ?_, ?_, ?_⟩
        · rw [hrun, hmore, List.append_assoc]
          rfl
        · intro e he
          rcases List.mem_cons.mp he with rfl | he
          · rfl
          · exact hall e he
        · intro rest hrest hlater
          rw [List.append_cons] at hlater
          refine ⟨?_, hfollows rest hrest hlater⟩
          intro raised' hfailed'
          rw [hfailed] at hfailed'
          cases hfailed'
          exact ⟨fun _ _ => rfl, fun hnot => absurd ⟨hgoes, by omega⟩ hnot⟩

/-- A run over a chain of distinct deployments, none of them attempted before, goes right. -/
theorem runChain_follows (hclassified : ∀ classification, x.classified classification = [])
    {ds : List Deployment} (hnodup : ds.Nodup) {lastError : Option ProxyError}
    {history : List Event} (hfresh : ∀ d ∈ ds, d ∉ attempts history) :
    ∃ later, (runChain x up ds lastError history).2 = history ++ later ∧
      Follows x up history later ∧ ∀ d ∈ attempts later, d ∈ ds := by
  induction ds generalizing lastError history with
  | nil => exact ⟨[], by rw [runChain, List.append_nil], trivial, by simp [attempts]⟩
  | cons d ds ih =>
      obtain ⟨hnot, hnodup⟩ := List.nodup_cons.mp hnodup
      rw [runChain]
      split
      · have hfresh' : ∀ e ∈ ds, e ∉ attempts (history ++ [.skipped d]) := by
          intro e he
          rw [attempts_append, attempts_skipped, List.append_nil]
          exact hfresh e (List.mem_cons_of_mem _ he)
        obtain ⟨later, hlater, hfollows, hin⟩ := ih hnodup hfresh'
        refine ⟨.skipped d :: later, ?_, hfollows, ?_⟩
        · rw [hlater, List.append_assoc]
          rfl
        · intro e he
          exact List.mem_cons_of_mem _ (hin e he)
      · have hused : retriesUsed history d + x.retries = x.retries := by
          rw [retriesUsed, List.count_eq_zero_of_not_mem (hfresh d List.mem_cons_self), zero_add]
        obtain ⟨more, hblock, hmore, hfollows⟩ := attemptDeployment_follows hclassified d hused
        have hall : ∀ e ∈ attempts (.attempted d :: more), e = d := by
          simpa using hmore
        split
        next outcome later hrun =>
          rw [hrun] at hblock
          have hone := hfollows [] (by simp) trivial
          rw [List.append_nil] at hone
          refine ⟨.attempted d :: more, hblock, hone, ?_⟩
          intro e he
          exact List.mem_cons.mpr (.inl (hall e he))
        next e later hrun =>
          rw [hrun] at hblock
          subst hblock
          have hfresh' : ∀ e ∈ ds, e ∉ attempts (history ++ .attempted d :: more) := by
            intro e he hattempted
            rcases List.mem_append.mp (attempts_append _ _ ▸ hattempted) with h | h
            · exact hfresh e (List.mem_cons_of_mem _ he) h
            · exact hnot (hall e h ▸ he)
          obtain ⟨later, hlater, hrest, hin⟩ := ih hnodup hfresh'
          refine ⟨.attempted d :: more ++ later, ?_, ?_, ?_⟩
          · rw [hlater, List.append_assoc]
          · exact hfollows later (fun h => hnot (hin d h)) hrest
          · intro e he
            rcases List.mem_append.mp (attempts_append _ _ ▸ he) with h | h
            · exact List.mem_cons.mpr (.inl (hall e h))
            · exact List.mem_cons_of_mem _ (hin e h)

theorem executeWithFailover_followed
    (hclassified : ∀ classification, x.classified classification = []) {primary d : Deployment}
    {before after : List Event} {raised : UpstreamError}
    (hsplit : (executeWithFailover x up primary).2 = before ++ .attempted d :: after)
    (hfailed : up.execute before d = .error raised) : Followed x before d raised after := by
  have hrun : ∃ later, (runChain x up (chainOf x primary) none []).2 = [] ++ later ∧
      Follows x up [] later ∧ ∀ d ∈ attempts later, d ∈ chainOf x primary :=
    runChain_follows hclassified (chainOf_nodup_self x primary) (fun _ _ h => by cases h)
  obtain ⟨later, hlater, hfollows, -⟩ := hrun
  have heq : later = before ++ .attempted d :: after := hlater.symm.trans hsplit
  rw [heq] at hfollows
  exact hfollows.followed hfailed

end Histories

/-! ## The settings that reach the loop -/

theorem allowed_class {name : String} (h : name ∈ allowedRetryableErrorClasses) :
    strip name = name ∧ lower name = name ∧ name ≠ "" := by
  revert name
  decide +kernel

section Settings

variable (env : Environment) (config : FallbackConfig) (registry : Registry) (group : String)
  {retry : PolicyRetry} {n : {n : ℤ // 0 ≤ n}}
  {classes : {classes : List String // ∀ name ∈ classes, name ∈ allowedRetryableErrorClasses}}

theorem retries_under (hcount : retry.maxAttempts = some n) :
    (executionUnder env config registry group (some (retryFields retry))).retries = n.1.toNat := by
  have hget : JsonObject.get (retryFields retry) "max_attempts" = .int n := by
    rw [JsonObject.get, retryFields, get?_optionalInt, hcount]
    rfl
  have hextract : extractRetryMaxAttempts (some (retryFields retry)) = some n.1 := by
    simp [extractRetryMaxAttempts, hget, EmbeddingWorkUnits.intOf, Option.filter, n.2]
  simp [Execution.retries, executionUnder, hextract, Option.filter, n.2]

/-- Allowed names pass through every normalization unchanged. -/
theorem filter_strip_allowed {names : List String}
    (h : ∀ name ∈ names, name ∈ allowedRetryableErrorClasses) :
    (names.map strip).filter (· ≠ "") = names := by
  have hstrip : names.map strip = names := by
    conv_rhs => rw [← List.map_id names]
    exact List.map_congr_left fun name hname => (allowed_class (h name hname)).1
  rw [hstrip, List.filter_eq_self]
  intro name hname
  simpa using (allowed_class (h name hname)).2.2

theorem retryClasses_under (hclasses : retry.retryableErrorClasses = some classes) :
    (executionUnder env config registry group (some (retryFields retry))).retryClasses =
      if classes.1 = [] then none else some (sorted classes.1.toFinset) := by
  have hget : JsonObject.get (retryFields retry) "retryable_error_classes" =
      .list (classes.1.map .str) := by
    rw [JsonObject.get, retryFields, get?_optionalInt, hclasses]
    rfl
  have hnames : ((classes.1.map JsonValue.str).map fun item =>
      strip (RoutingConfiguration.textOf env item)).filter (· ≠ "") = classes.1 := by
    rw [List.map_map]
    exact filter_strip_allowed classes.2
  have hextract : extractRetryableErrorClasses env (some (retryFields retry)) =
      if classes.1 = [] then none else some classes.1.toFinset := by
    rw [extractRetryableErrorClasses, Option.getD_some, hget]
    simp only [hnames, List.isEmpty_iff]
  have hsorted : ∀ name ∈ sorted classes.1.toFinset, name ∈ allowedRetryableErrorClasses := by
    intro name hname
    exact classes.2 name (List.mem_toFinset.mp (mem_sorted.mp hname))
  have hlower : (sorted classes.1.toFinset).map lower = sorted classes.1.toFinset := by
    conv_rhs => rw [← List.map_id (sorted classes.1.toFinset)]
    exact List.map_congr_left fun name hname => (allowed_class (hsorted name hname)).2.1
  rw [Execution.retryClasses, executionUnder, hextract, classesKwarg]
  by_cases hempty : classes.1 = []
  · simp [hempty, sorted, normalizeRetryableErrorClasses]
  · have hne : sorted classes.1.toFinset ≠ [] := by
      intro hnil
      obtain ⟨name, hname⟩ := List.exists_mem_of_ne_nil _ hempty
      have hmem : name ∈ sorted classes.1.toFinset := mem_sorted.mpr (List.mem_toFinset.mpr hname)
      rw [hnil] at hmem
      cases hmem
    rw [if_neg hempty, if_neg hempty, Option.getD_some]
    simp only [filter_strip_allowed hsorted, if_neg hne, normalizeRetryableErrorClasses, hlower]

theorem shouldRetry_under (hclasses : retry.retryableErrorClasses = some classes)
    (classification : Classification) (e : ProxyError) :
    shouldRetry classification e
        (executionUnder env config registry group (some (retryFields retry))).retryClasses = true ↔
      (classes.1 = [] ∧ isRetryable e = true) ∨ classification.text ∈ classes.1 := by
  have htext : lower classification.text = classification.text := by
    cases classification <;> decide +kernel
  rw [retryClasses_under env config registry group hclasses]
  by_cases hempty : classes.1 = []
  · simp [hempty, shouldRetry]
  · simp [hempty, shouldRetry, htext]

end Settings

/-! ## Admitted classes -/

/-- A failure of a listed class is retried at once while fewer than `n` retries are used, and after
one of another class the deployment is not attempted again. -/
structure TakesEffect (classes : List String) (n : ℕ) (before : List Event) (d : Deployment)
    (raised : UpstreamError) (after : List Event) : Prop where
  listed : (normalizeExecutionError raised d).2.1.text ∈ classes → retriesUsed before d < n →
    after.head? = some (.attempted d)
  unlisted : (normalizeExecutionError raised d).2.1.text ∉ classes → d ∉ attempts after

/-- Nothing that the loop looks at before the listed classes decides the failure: one of a listed
class counts against the deployment's health, and with an empty list, where the default policy
decides, it is no failure that this one retries. -/
structure Unhindered (classes : List String) (n : ℕ) (before : List Event) (d : Deployment)
    (raised : UpstreamError) : Prop where
  listed : (normalizeExecutionError raised d).2.1.text ∈ classes → retriesUsed before d < n →
    affectsDeploymentHealth (normalizeExecutionError raised d).1 = true
  noneListed : classes = [] → retriesUsed before d < n →
    affectsDeploymentHealth (normalizeExecutionError raised d).1 = true →
      isRetryable (normalizeExecutionError raised d).1 = false

theorem takesEffect_iff {x : Execution} {classes : List String} {n : ℕ} {before after : List Event}
    {d : Deployment} {raised : UpstreamError} (hn : x.retries = n)
    (hretry : ∀ classification e, shouldRetry classification e x.retryClasses = true ↔
      (classes = [] ∧ isRetryable e = true) ∨ classification.text ∈ classes)
    (h : Followed x before d raised after) :
    TakesEffect classes n before d raised after ↔ Unhindered classes n before d raised := by
  have hgoes : GoesOn x d raised ↔
      affectsDeploymentHealth (normalizeExecutionError raised d).1 = true ∧
      ((classes = [] ∧ isRetryable (normalizeExecutionError raised d).1 = true) ∨
        (normalizeExecutionError raised d).2.1.text ∈ classes) :=
    and_congr_right fun _ => hretry _ _
  have hnext : after.head? = some (.attempted d) → d ∈ attempts after := by
    intro hhead
    cases after with
    | nil => cases hhead
    | cons event after =>
        cases hhead
        exact List.mem_cons_self
  constructor
  · intro heffect
    constructor
    · intro hlisted hused
      by_contra haffects
      have hleft : d ∉ attempts after := h.left fun hgo => haffects (hgoes.mp hgo.1).1
      exact hleft (hnext (heffect.listed hlisted hused))
    · intro hempty hused haffects
      by_contra hretryable
      have hunlisted : (normalizeExecutionError raised d).2.1.text ∉ classes := by
        rw [hempty]
        exact List.not_mem_nil
      refine heffect.unlisted hunlisted (hnext (h.retried (hgoes.mpr ⟨haffects, .inl ?_⟩) ?_))
      · exact ⟨hempty, by simpa using hretryable⟩
      · rw [hn]
        exact hused
  · intro hfree
    constructor
    · intro hlisted hused
      apply h.retried
      · exact hgoes.mpr ⟨hfree.listed hlisted hused, .inr hlisted⟩
      · rw [hn]
        exact hused
    · intro hunlisted
      apply h.left
      rintro ⟨hgo, hused⟩
      obtain ⟨haffects, ⟨hempty, hretryable⟩ | hlisted⟩ := hgoes.mp hgo
      · have hnot := hfree.noneListed hempty (hn ▸ hused) haffects
        rw [hretryable] at hnot
        cases hnot
      · exact hunlisted hlisted

/-- In every run under an accepted policy with a retry count and listed classes the listed ones
take effect at a failed attempt exactly when nothing that the loop looks at first hinders them. -/
theorem admitted_classes_iff (py : Conversions) (env : Environment) {fields retry : JsonObject}
    {count : JsonValue} {listed : List JsonValue}
    (hretry : JsonObject.get? fields "retry" = some (.dict retry))
    (hcount : JsonObject.get? retry "max_attempts" = some count)
    (hlisted : JsonObject.get? retry "retryable_error_classes" = some (.list listed))
    {availableMemberIds : Finset String} {policy : RoutePolicy} {warnings : List String}
    (haccepted : validateRoutePolicy py (.dict fields) availableMemberIds = .ok (policy, warnings))
    (config : FallbackConfig) (registry : Registry) (group : String)
    (hclassified : ∀ classification,
      getClassifiedFallbacks config registry classification group = [])
    (up : Upstream ρ) (primary : Deployment) :
    ∃ n : ℕ, toInt count = .value n ∧
      ∀ before d after raised,
        (executeWithFailover (executionUnder env config registry group
            (policy.retry.map retryFields)) up primary).2 = before ++ .attempted d :: after →
        up.execute before d = .error raised →
        (TakesEffect (listed.map (trimmed py)) n before d raised after ↔
          Unhindered (listed.map (trimmed py)) n before d raised) := by
  obtain ⟨fields', read, hfields, hread, -, -, happlied⟩ := validateRoutePolicy_ok haccepted
  cases hfields
  obtain ⟨n, classes, hpolicy, hn, hclasses⟩ := retry_read hread hretry hcount hlisted
  have happly : policy.retry = read.retry := by
    rw [← applyMode_retry read, ← happlied]
  refine ⟨n.1.toNat, ?_, ?_⟩
  · rw [hn, Int.toNat_of_nonneg n.2]
  · intro before d after raised hsplit hfailed
    rw [happly, hpolicy] at hsplit
    rw [← hclasses]
    refine takesEffect_iff (retries_under env config registry group rfl) ?_
      (executeWithFailover_followed (by exact hclassified) hsplit hfailed)
    exact shouldRetry_under env config registry group rfl

/-! ## A listed class that is never retried -/

namespace Counterexample

def conversions : Conversions := ⟨fun n => some (.finite n), fun _ => none, fun _ => ""⟩

def environment : Environment where
  openaiApiKey := none
  openaiBaseUrl := none
  resolveTree := some
  floatOfText _ := none
  textOfOther _ := ""
  instantiates _ _ _ := false

def retrying (name : String) : JsonObject :=
  [("max_attempts", .int 1), ("retryable_error_classes", .list [.str name])]

def policyFields (name : String) : JsonObject :=
  [("members", .list [.dict [("deployment_id", .str "only")]]), ("retry", .dict (retrying name))]

def noFallbacks : FallbackConfig := ⟨0, fun _ => [], fun _ => [], fun _ => []⟩

def only : Deployment := FailoverAttempts.Counterexample.deployment "only" []

def refusing (raised : UpstreamError) : Upstream Unit := ⟨fun _ _ => true, fun _ _ => .error raised⟩

def requestUnder (policy : RoutePolicy) : Execution :=
  executionUnder environment noFallbacks (fun _ => [only]) "chat" (policy.retry.map retryFields)

def runUnder (policy : RoutePolicy) (raised : UpstreamError) : List Event :=
  (executeWithFailover (requestUnder policy) (refusing raised) only).2

/-- A request that the upstream refuses as too long for the context window is attempted once. -/
theorem context_window_not_retried :
    ∃ policy warnings,
      validateRoutePolicy conversions (.dict (policyFields "context_window_exceeded")) {"only"} =
        .ok (policy, warnings) ∧
      runUnder policy (refusal "context window") = [.attempted only] ∧
      ¬ TakesEffect ["context_window_exceeded"] 1 [] only (refusal "context window") [] := by
  refine ⟨_, _, rfl, by decide +kernel, ?_⟩
  intro heffect
  have hclass : (normalizeExecutionError (refusal "context window") only).2.1.text =
      "context_window_exceeded" := by rw [contextWindow_refusal]; rfl
  have hnext := heffect.listed (hclass ▸ List.mem_singleton_self _) (by decide)
  cases hnext

theorem runUnder_starts (policy : RoutePolicy) (raised : UpstreamError) :
    ∃ after, runUnder policy raised = .attempted only :: after := by
  have hclassified : ∀ classification, (requestUnder policy).classified classification = [] := by
    intro classification
    cases classification <;> rfl
  have hattempts : ∃ more, (attemptDeployment (requestUnder policy) (refusing raised) only
      (requestUnder policy).retries []).2 = .attempted only :: more := by
    have hused : retriesUsed [] only + (requestUnder policy).retries =
        (requestUnder policy).retries := Nat.zero_add _
    obtain ⟨more, hmore, -⟩ := attemptDeployment_follows hclassified only hused
    exact ⟨more, hmore⟩
  obtain ⟨more, hmore⟩ := hattempts
  refine ⟨more, ?_⟩
  have hchain : buildFallbackChain (requestUnder policy).config (requestUnder policy).registry only
      (requestUnder policy).group = [only] := by
    change buildFallbackChain noFallbacks (fun _ => [only]) only "chat" = [only]
    decide +kernel
  rw [runUnder, executeWithFailover, hchain, runChain, ← hmore]
  cases attemptDeployment (requestUnder policy) (refusing raised) only
      (requestUnder policy).retries [] with
  | mk result history => cases result <;> rfl

theorem timeout_retried :
    ∃ policy warnings after,
      validateRoutePolicy conversions (.dict (policyFields "timeout")) {"only"} =
        .ok (policy, warnings) ∧
      runUnder policy .timedOut = .attempted only :: after ∧
      after.head? = some (.attempted only) := by
  have haccepted : ∃ policy warnings,
      validateRoutePolicy conversions (.dict (policyFields "timeout")) {"only"} =
        .ok (policy, warnings) := ⟨_, _, rfl⟩
  obtain ⟨policy, warnings, haccepted⟩ := haccepted
  obtain ⟨after, hafter⟩ := runUnder_starts policy .timedOut
  refine ⟨policy, warnings, after, haccepted, hafter, ?_⟩
  have hclassified : ∀ classification,
      getClassifiedFallbacks noFallbacks (fun _ => [only]) classification "chat" = [] := by
    intro classification
    cases classification <;> rfl
  obtain ⟨n, hn, heffect⟩ := admitted_classes_iff conversions environment rfl rfl rfl haccepted
    noFallbacks (fun _ => [only]) "chat" hclassified (refusing .timedOut) only
  cases hn
  exact ((heffect [] only after .timedOut hafter rfl).mpr ⟨fun _ _ => rfl, by simp⟩).listed
    (by decide +kernel) (by decide)

end Counterexample

end AdmittedRetries
