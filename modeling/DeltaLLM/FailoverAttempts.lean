import DeltaLLM.DeploymentRouting

/-! # Failover attempts

How one request is executed over its fallback chain, with every attempt kept. Upstream answers and
the availability the chain reads are given by an `Upstream`, which may depend on all that happened
before; timeouts are among the answers.
-/
namespace FailoverAttempts

open JsonValues
open PythonText
open DeploymentRouting

/-! ## Errors -/

inductive ProxyErrorKind where
  | proxy
  | authentication
  | rateLimit
  | budgetExceeded
  | modelNotFound
  | timeout
  | invalidRequest
  | permissionDenied
  | approvalRequired
  | serviceUnavailable
  | gatewayCapacity
  | guardrailViolation (statusCode : ℕ)
  deriving DecidableEq, Repr

def ProxyErrorKind.statusCode : ProxyErrorKind → ℕ
  | .proxy => 500
  | .authentication => 401
  | .rateLimit => 429
  | .budgetExceeded => 429
  | .modelNotFound => 404
  | .timeout => 408
  | .invalidRequest => 400
  | .permissionDenied => 403
  | .approvalRequired => 409
  | .serviceUnavailable => 503
  | .gatewayCapacity => 503
  | .guardrailViolation code => code

def ProxyErrorKind.errorType : ProxyErrorKind → String
  | .proxy => "server_error"
  | .authentication => "authentication_error"
  | .rateLimit => "rate_limit_error"
  | .budgetExceeded => "budget_exceeded"
  | .modelNotFound => "model_not_found"
  | .timeout => "timeout_error"
  | .invalidRequest => "invalid_request_error"
  | .permissionDenied => "permission_denied"
  | .approvalRequired => "approval_required"
  | .serviceUnavailable => "service_unavailable"
  | .gatewayCapacity => "gateway_capacity_error"
  | .guardrailViolation _ => "guardrail_violation"

def ProxyErrorKind.defaultMessage : ProxyErrorKind → String
  | .proxy => "Internal server error"
  | .authentication => "Invalid API key"
  | .rateLimit => "Rate limit exceeded"
  | .budgetExceeded => "Budget exceeded"
  | .modelNotFound => "Model not found"
  | .timeout => "Request timeout"
  | .invalidRequest => "Invalid request"
  | .permissionDenied => "Permission denied"
  | .approvalRequired => "Approval required"
  | .serviceUnavailable => "Service unavailable"
  | .gatewayCapacity => "Gateway upstream connection pool exhausted"
  | .guardrailViolation _ => "Guardrail violation"

structure ProxyError where
  kind : ProxyErrorKind
  message : String
  affectsDeploymentHealth : Option Bool
  deriving DecidableEq, Repr

/-- The constructor: an empty message is replaced by the default one of its class. -/
def proxyError (kind : ProxyErrorKind) (message : String) (affects : Option Bool) : ProxyError :=
  ⟨kind, if message = "" then kind.defaultMessage else message, affects⟩

structure HttpResponse where
  statusCode : ℕ
  payload : Option JsonValue
  text : String

/-- The HTTP client's errors; `message` is `str(error)`. -/
inductive HttpError where
  | poolTimeout
  | timeout (message : String)
  | status (response : HttpResponse) (message : String)
  | request (message : String)

/-- What `execute` raises, a timeout of the attempt itself among it. -/
inductive UpstreamError where
  | timedOut
  | proxy (e : ProxyError)
  | http (e : HttpError)
  | other (message : String)

def nonblank (text : String) : Option String := if strip text = "" then none else some (strip text)

def messageIn (fields : JsonObject) : Option String :=
  ["message", "detail"].findSome? fun key =>
    match JsonObject.get fields key with
    | .str message => nonblank message
    | _ => none

def httpErrorMessage (response : HttpResponse) (message : String) : String :=
  let fromPayload : Option String :=
    match response.payload with
    | some (.dict payload) =>
        (match JsonObject.get payload "error" with
          | .dict nested => messageIn nested
          | .str nested => nonblank nested
          | _ => none).or (messageIn payload)
    | _ => none
  (fromPayload.or (nonblank response.text)).getD message

def isRequestSideClientError (statusCode : ℕ) : Bool :=
  400 ≤ statusCode ∧ statusCode < 500 ∧ statusCode ≠ 429

/-- `affects_deployment_health` on a proxy error: the explicit flag, else only a timeout does. -/
def affectsDeploymentHealth (e : ProxyError) : Bool :=
  e.affectsDeploymentHealth.getD (e.kind = .timeout)

/-! ## Classification and retries -/

inductive Classification where
  | contextWindow
  | contentPolicy
  | rateLimit
  | timeout
  | generic
  deriving DecidableEq, Repr

def Classification.text : Classification → String
  | .contextWindow => "context_window_exceeded"
  | .contentPolicy => "content_policy_violation"
  | .rateLimit => "rate_limit"
  | .timeout => "timeout"
  | .generic => "generic"

def contextWindowPatterns : List String :=
  ["context_length_exceeded", "context window", "maximum context length", "max_tokens",
    "token limit", "too many tokens", "input is too long", "maximum allowed length",
    "request too large"]

def contentPolicyPatterns : List String :=
  ["content_policy_violation", "content_filter", "content management policy", "safety system",
    "harmful content", "violates our usage policies", "flagged by our content filter",
    "responsible ai policy"]

/-- `ErrorClassification.classify` on a proxy error, which carries no response. -/
def classify (e : ProxyError) : Classification :=
  if e.kind = .timeout then .timeout
  else if e.kind.statusCode = 429 ∨ e.kind.errorType = "rate_limit_error" then .rateLimit
  else
    let text := lower e.message
    if contextWindowPatterns.any (contains text) then .contextWindow
    else if contentPolicyPatterns.any (contains text) then .contentPolicy
    else .generic

def isRetryable (e : ProxyError) : Bool :=
  e.kind = .timeout ∨ e.kind.statusCode ∈ [408, 429, 502, 503, 504] ∨
    e.kind.errorType ∈ ["timeout_error", "rate_limit_error", "service_unavailable"]

def normalizeRetryableErrorClasses (classes : Option (List String)) : Option (List String) :=
  match classes with
  | none => none
  | some names =>
      let normalized := (names.map strip).filter (· ≠ "") |>.map lower
      if normalized = [] then none else some normalized

def shouldRetry (classification : Classification) (e : ProxyError)
    (retryableErrorClasses : Option (List String)) : Bool :=
  match retryableErrorClasses with
  | none => isRetryable e
  | some classes => lower classification.text ∈ classes

def normalizeHttpError : HttpError → ProxyError
  | .poolTimeout => proxyError .gatewayCapacity "" (some false)
  | .timeout message => proxyError .timeout message (some true)
  | .status response message =>
      if response.statusCode = 429 then
        proxyError .rateLimit (httpErrorMessage response message) (some true)
      else if !isRequestSideClientError response.statusCode then
        proxyError .serviceUnavailable message (some true)
      else proxyError .invalidRequest (httpErrorMessage response message) (some false)
  | .request message => proxyError .serviceUnavailable message (some true)

/-- The normalized error, its classification and whether classified fallbacks may be tried. -/
def normalizeExecutionError (e : UpstreamError) (d : Deployment) :
    ProxyError × Classification × Bool :=
  match e with
  | .timedOut =>
      (proxyError .timeout ("Deployment '" ++ d.deploymentId ++ "' timed out") none, .timeout, true)
  | .proxy e => (e, classify e, true)
  | .http e => (normalizeHttpError e, classify (normalizeHttpError e), true)
  | .other message =>
      let normalized := proxyError .serviceUnavailable message none
      (normalized, classify normalized, false)

/-! ## Chains -/

structure FallbackConfig where
  numRetries : ℤ
  fallbacks : String → List String
  contextWindowFallbacks : String → List String
  contentPolicyFallbacks : String → List String

/-- Appends what has an id not seen before. -/
def addUnseen : List Deployment → List Deployment → List Deployment
  | chain, [] => chain
  | chain, d :: ds =>
      if d.deploymentId ∈ chain.map (·.deploymentId) then addUnseen chain ds
      else addUnseen (chain ++ [d]) ds

def buildFallbackChain (config : FallbackConfig) (registry : Registry) (primary : Deployment)
    (group : String) : List Deployment :=
  let chain := addUnseen (addUnseen [] [primary]) (registry group)
  (config.fallbacks group).foldl (fun chain name => addUnseen chain (registry name)) chain

def classifiedGroups (config : FallbackConfig) (classification : Classification) (group : String) :
    List String :=
  match classification with
  | .contextWindow => config.contextWindowFallbacks group
  | .contentPolicy => config.contentPolicyFallbacks group
  | _ => []

def getClassifiedFallbacks (config : FallbackConfig) (registry : Registry)
    (classification : Classification) (group : String) : List Deployment :=
  (classifiedGroups config classification group).foldl
    (fun chain name => addUnseen chain (registry name)) []

/-! ## Execution -/

/-- One entry of the history: a deployment passed over, or one the request was executed on. -/
inductive Event where
  | skipped (d : Deployment)
  | attempted (d : Deployment)
  deriving DecidableEq, Repr

variable {ρ : Type*}

structure Upstream (ρ : Type*) where
  available : List Event → Deployment → Bool
  execute : List Event → Deployment → Except UpstreamError ρ

inductive Outcome (ρ : Type*) where
  | served (result : ρ) (d : Deployment)
  | raised (e : ProxyError)

def attempts (history : List Event) : List Deployment :=
  history.filterMap fun
    | .attempted d => some d
    | .skipped _ => none

/-- No outcome when the chain is exhausted. -/
def tryClassifiedFallbacks (up : Upstream ρ) :
    List Deployment → List Event → Option (Outcome ρ) × List Event
  | [], history => (none, history)
  | d :: ds, history =>
      if !up.available history d then tryClassifiedFallbacks up ds (history ++ [.skipped d])
      else
        match up.execute history d with
        | .ok result => (some (.served result d), history ++ [.attempted d])
        | .error raised =>
            let (e, classification, allowed) := normalizeExecutionError raised d
            if !allowed then (some (.raised e), history ++ [.attempted d])
            else if !affectsDeploymentHealth e ∧ classification ≠ .contextWindow ∧
                classification ≠ .contentPolicy then
              (some (.raised e), history ++ [.attempted d])
            else tryClassifiedFallbacks up ds (history ++ [.attempted d])

structure Execution where
  config : FallbackConfig
  registry : Registry
  group : String
  retryMaxAttempts : Option ℤ
  retryableErrorClasses : Option (List String)

def Execution.retries (x : Execution) : ℕ := (x.retryMaxAttempts.getD x.config.numRetries).toNat

def Execution.retryClasses (x : Execution) : Option (List String) :=
  normalizeRetryableErrorClasses x.retryableErrorClasses

def Execution.classified (x : Execution) (classification : Classification) : List Deployment :=
  getClassifiedFallbacks x.config x.registry classification x.group

def Execution.classifiedAttempts (x : Execution) (up : Upstream ρ) (classification : Classification)
    (allowed : Bool) (history : List Event) : Option (Outcome ρ) × List Event :=
  if allowed then tryClassifiedFallbacks up (x.classified classification) history
  else (none, history)

/-- The attempts on one deployment, with the retries that remain. On the left the request is over,
on the right the chain goes on with this as the last error. -/
def attemptDeployment (x : Execution) (up : Upstream ρ) (d : Deployment) (remaining : ℕ)
    (history : List Event) : (Outcome ρ ⊕ ProxyError) × List Event :=
  match up.execute history d with
  | .ok result => (.inl (.served result d), history ++ [.attempted d])
  | .error raised =>
      let (e, classification, allowed) := normalizeExecutionError raised d
      match x.classifiedAttempts up classification allowed (history ++ [.attempted d]) with
      | (some outcome, history') => (.inl outcome, history')
      | (none, history') =>
          if !affectsDeploymentHealth e then (.inl (.raised e), history')
          else
            match remaining with
            | 0 => (.inr e, history')
            | left + 1 =>
                if shouldRetry classification e x.retryClasses then
                  attemptDeployment x up d left history'
                else (.inr e, history')

def noHealthyDeployments : ProxyError :=
  proxyError .serviceUnavailable "No healthy deployments available" none

def runChain (x : Execution) (up : Upstream ρ) :
    List Deployment → Option ProxyError → List Event → Outcome ρ × List Event
  | [], lastError, history => (.raised (lastError.getD noHealthyDeployments), history)
  | d :: ds, lastError, history =>
      if !up.available history d then runChain x up ds lastError (history ++ [.skipped d])
      else
        match attemptDeployment x up d x.retries history with
        | (.inl outcome, history') => (outcome, history')
        | (.inr e, history') => runChain x up ds (some e) history'

def executeWithFailover (x : Execution) (up : Upstream ρ) (primary : Deployment) :
    Outcome ρ × List Event :=
  runChain x up (buildFallbackChain x.config x.registry primary x.group) none []

/-! ## Which deployments a chain keeps -/

def sameId (d e : Deployment) : Bool := e.deploymentId = d.deploymentId

/-- `d` is the first deployment of the list with its id, so it is not dropped as a duplicate. -/
def FirstWithId (ds : List Deployment) (d : Deployment) : Prop := ds.find? (sameId d) = some d

instance (ds : List Deployment) (d : Deployment) : Decidable (FirstWithId ds d) :=
  inferInstanceAs (Decidable (_ = _))

theorem mem_addUnseen {chain ds : List Deployment} {d : Deployment} :
    d ∈ addUnseen chain ds ↔
      d ∈ chain ∨ d.deploymentId ∉ chain.map (·.deploymentId) ∧ FirstWithId ds d := by
  induction ds generalizing chain with
  | nil => simp [addUnseen, FirstWithId]
  | cons head ds ih =>
      have hfirst : FirstWithId (head :: ds) d ↔
          if head.deploymentId = d.deploymentId then head = d else FirstWithId ds d := by
        by_cases hid : head.deploymentId = d.deploymentId <;> simp [FirstWithId, sameId, hid]
      rw [hfirst]
      unfold addUnseen
      split
      next hseen =>
        rw [ih]
        by_cases hid : head.deploymentId = d.deploymentId
        · rw [hid] at hseen
          simp [hseen]
        · simp [hid]
      next hunseen =>
        rw [ih]
        by_cases hid : head.deploymentId = d.deploymentId
        · have hnew : d.deploymentId ∉ chain.map (·.deploymentId) := hid ▸ hunseen
          simp [hid, hnew, eq_comm]
        · have hne : d ≠ head := fun heq => hid (heq ▸ rfl)
          simp [hid, hne, Ne.symm hid]

theorem addUnseen_append (chain ds es : List Deployment) :
    addUnseen chain (ds ++ es) = addUnseen (addUnseen chain ds) es := by
  induction ds generalizing chain with
  | nil => rfl
  | cons d ds ih =>
      simp only [List.cons_append, addUnseen]
      split
      · exact ih chain
      · exact ih (chain ++ [d])

theorem foldl_addUnseen (registry : Registry) (chain : List Deployment) (names : List String) :
    names.foldl (fun chain name => addUnseen chain (registry name)) chain =
      addUnseen chain (names.flatMap registry) := by
  induction names generalizing chain with
  | nil => rfl
  | cons name names ih => rw [List.foldl_cons, ih, List.flatMap_cons, addUnseen_append]

theorem mem_buildFallbackChain {config : FallbackConfig} {registry : Registry}
    {primary d : Deployment} {group : String} :
    d ∈ buildFallbackChain config registry primary group ↔
      FirstWithId (primary :: registry group ++ (config.fallbacks group).flatMap registry) d := by
  rw [buildFallbackChain, foldl_addUnseen, ← addUnseen_append, ← addUnseen_append, mem_addUnseen]
  simp

theorem mem_getClassifiedFallbacks {config : FallbackConfig} {registry : Registry}
    {classification : Classification} {d : Deployment} {group : String} :
    d ∈ getClassifiedFallbacks config registry classification group ↔
      FirstWithId ((classifiedGroups config classification group).flatMap registry) d := by
  rw [getClassifiedFallbacks, foldl_addUnseen, mem_addUnseen]
  simp

/-- Whatever stands behind a list that holds `d`, the first with its id is found in the list. -/
theorem firstWithId_append_of_mem {ds es : List Deployment} {d : Deployment} (h : d ∈ ds) :
    FirstWithId (ds ++ es) d ↔ FirstWithId ds d := by
  have hfound : (ds.find? (sameId d)).isSome := by
    rw [List.find?_isSome]
    exact ⟨d, h, by simp [sameId]⟩
  obtain ⟨e, he⟩ := Option.isSome_iff_exists.mp hfound
  simp [FirstWithId, List.find?_append, he]

/-- The deployments of the group that some run may be executed on: the first with its id in the
main chain, or in a chain of classified fallbacks that leads back into the group. -/
def Execution.Attemptable (x : Execution) (primary d : Deployment) : Prop :=
  FirstWithId (primary :: x.registry x.group) d ∨
    ∃ classification : Classification,
      FirstWithId ((classifiedGroups x.config classification x.group).flatMap x.registry) d

theorem attemptable_iff {x : Execution} {primary d : Deployment} (hd : d ∈ x.registry x.group) :
    x.Attemptable primary d ↔
      d ∈ buildFallbackChain x.config x.registry primary x.group ∨
        ∃ classification, d ∈ x.classified classification := by
  rw [mem_buildFallbackChain, firstWithId_append_of_mem (List.mem_cons_of_mem _ hd)]
  simp only [Execution.Attemptable, Execution.classified, mem_getClassifiedFallbacks]

/-- With one deployment for each id in the group every deployment of the group may be attempted. -/
theorem attemptable_of_distinct_ids {x : Execution} {primary d : Deployment}
    (hids : ((x.registry x.group).map (·.deploymentId)).Nodup)
    (hprimary : primary ∈ x.registry x.group) (hd : d ∈ x.registry x.group) :
    x.Attemptable primary d := by
  left
  have hsame : ∀ e ∈ primary :: x.registry x.group, sameId d e = true → e = d := by
    intro e he hid
    have hmem : e ∈ x.registry x.group := by
      rcases List.mem_cons.mp he with rfl | he
      · exact hprimary
      · exact he
    exact List.inj_on_of_nodup_map hids hmem hd (of_decide_eq_true hid)
  have hfound : ((primary :: x.registry x.group).find? (sameId d)).isSome := by
    rw [List.find?_isSome]
    exact ⟨d, List.mem_cons_of_mem _ hd, by simp [sameId]⟩
  obtain ⟨e, he⟩ := Option.isSome_iff_exists.mp hfound
  have heq := hsame e (List.mem_of_find?_eq_some he) (List.find?_some he)
  rwa [heq] at he

/-! ## Every attempt comes from a chain -/

@[simp] theorem attempts_append (h h' : List Event) :
    attempts (h ++ h') = attempts h ++ attempts h' := List.filterMap_append

@[simp] theorem attempts_skipped (d : Deployment) : attempts [.skipped d] = [] := rfl

@[simp] theorem attempts_attempted (d : Deployment) : attempts [.attempted d] = [d] := rfl

theorem attempts_tryClassifiedFallbacks (up : Upstream ρ) {ds : List Deployment}
    {history : List Event} {d : Deployment}
    (hd : d ∈ attempts (tryClassifiedFallbacks up ds history).2) :
    d ∈ attempts history ∨ d ∈ ds := by
  induction ds generalizing history with
  | nil => exact .inl hd
  | cons head ds ih =>
      have hstop : d ∈ attempts (history ++ [.attempted head]) →
          d ∈ attempts history ∨ d ∈ head :: ds := by
        intro h
        rcases List.mem_append.mp (attempts_append _ _ ▸ h) with h | h
        · exact .inl h
        · exact .inr (List.mem_cons.mpr (.inl (List.mem_singleton.mp h)))
      simp only [tryClassifiedFallbacks] at hd
      split at hd
      · rcases ih hd with h | h
        · exact .inl (by simpa using h)
        · exact .inr (List.mem_cons_of_mem _ h)
      · split at hd
        · exact hstop hd
        · split at hd
          · exact hstop hd
          · split at hd
            · exact hstop hd
            · rcases ih hd with h | h
              · exact hstop h
              · exact .inr (List.mem_cons_of_mem _ h)

theorem attempts_classifiedAttempts {x : Execution} {up : Upstream ρ}
    {classification : Classification} {allowed : Bool} {history later : List Event}
    {outcome : Option (Outcome ρ)} {d : Deployment}
    (h : x.classifiedAttempts up classification allowed history = (outcome, later))
    (hd : d ∈ attempts later) : d ∈ attempts history ∨ d ∈ x.classified classification := by
  unfold Execution.classifiedAttempts at h
  split at h
  · have hlater : (tryClassifiedFallbacks up (x.classified classification) history).2 = later := by
      rw [h]
    exact attempts_tryClassifiedFallbacks up (hlater ▸ hd)
  · cases h
    exact .inl hd

/-- One attempt leaves a history of its own, perhaps with classified fallbacks, or is followed by
the next retry. -/
theorem attemptDeployment_cases (x : Execution) (up : Upstream ρ) (d : Deployment) (remaining : ℕ)
    (history : List Event) :
    (attemptDeployment x up d remaining history).2 = history ++ [.attempted d] ∨
      ∃ classification allowed outcome later,
        x.classifiedAttempts up classification allowed (history ++ [.attempted d]) =
            (outcome, later) ∧
          ((attemptDeployment x up d remaining history).2 = later ∨
            ∃ left, remaining = left + 1 ∧
              attemptDeployment x up d remaining history =
                attemptDeployment x up d left later) := by
  rw [attemptDeployment.eq_def x up d remaining history]
  split
  · exact .inl rfl
  · dsimp only
    split
    next htried => exact .inr ⟨_, _, _, _, htried, .inl rfl⟩
    next htried =>
      refine .inr ⟨_, _, _, _, htried, ?_⟩
      split
      · exact .inl rfl
      · split
        · exact .inl rfl
        · split
          · exact .inr ⟨_, rfl, rfl⟩
          · exact .inl rfl

theorem attempts_attemptDeployment (x : Execution) (up : Upstream ρ) {head d : Deployment}
    {remaining : ℕ} {history : List Event}
    (hd : d ∈ attempts (attemptDeployment x up head remaining history).2) :
    d ∈ attempts history ∨ d = head ∨ ∃ classification, d ∈ x.classified classification := by
  have hone : ∀ history, d ∈ attempts (history ++ [.attempted head]) →
      d ∈ attempts history ∨ d = head ∨ ∃ classification, d ∈ x.classified classification := by
    intro history h
    rcases List.mem_append.mp (attempts_append _ _ ▸ h) with h | h
    · exact .inl h
    · exact .inr (.inl (List.mem_singleton.mp h))
  induction remaining using Nat.strong_induction_on generalizing history with
  | _ remaining ih =>
      rcases attemptDeployment_cases x up head remaining history with
        hserved | ⟨classification, allowed, outcome, later, htried, hlater | ⟨left, rfl, hretry⟩⟩
      · exact hone history (hserved ▸ hd)
      · rcases attempts_classifiedAttempts htried (hlater ▸ hd) with h | h
        · exact hone history h
        · exact .inr (.inr ⟨classification, h⟩)
      · rcases ih left (Nat.lt_succ_self left) (hretry ▸ hd) with h | h
        · rcases attempts_classifiedAttempts htried h with h | h
          · exact hone history h
          · exact .inr (.inr ⟨classification, h⟩)
        · exact .inr h

theorem attempts_runChain (x : Execution) (up : Upstream ρ) {ds : List Deployment}
    {lastError : Option ProxyError} {history : List Event} {d : Deployment}
    (hd : d ∈ attempts (runChain x up ds lastError history).2) :
    d ∈ attempts history ∨ d ∈ ds ∨ ∃ classification, d ∈ x.classified classification := by
  induction ds generalizing lastError history with
  | nil => exact .inl hd
  | cons head ds ih =>
      simp only [runChain] at hd
      split at hd
      · rcases ih hd with h | h | h
        · exact .inl (by simpa using h)
        · exact .inr (.inl (List.mem_cons_of_mem _ h))
        · exact .inr (.inr h)
      · have hattempt : d ∈ attempts (attemptDeployment x up head x.retries history).2 →
            d ∈ attempts history ∨ d ∈ head :: ds ∨
              ∃ classification, d ∈ x.classified classification := by
          intro h
          rcases attempts_attemptDeployment x up h with h | rfl | h
          · exact .inl h
          · exact .inr (.inl List.mem_cons_self)
          · exact .inr (.inr h)
        split at hd
        next hdone => exact hattempt (hdone ▸ hd)
        next hfailed =>
          rcases ih hd with h | h | h
          · exact hattempt (hfailed ▸ h)
          · exact .inr (.inl (List.mem_cons_of_mem _ h))
          · exact .inr (.inr h)

/-! ## Upstreams that drive a run through a whole chain -/

def unreachable : UpstreamError := .http (.request "")

/-- From this history on everything looks available and every attempt fails to connect. -/
def DownFrom (up : Upstream ρ) (history : List Event) : Prop :=
  ∀ later d, history <+: later →
    up.available later d = true ∧ up.execute later d = .error unreachable

theorem DownFrom.mono {up : Upstream ρ} {history later : List Event} (h : DownFrom up history)
    (hlater : history <+: later) : DownFrom up later :=
  fun _ d hle => h _ d (hlater.trans hle)

theorem normalize_unreachable (d : Deployment) :
    normalizeExecutionError unreachable d =
      (⟨.serviceUnavailable, "Service unavailable", some true⟩, .generic, true) := by
  have hgeneric : classify (normalizeHttpError (.request "")) = .generic := by decide +kernel
  simp only [normalizeExecutionError, unreachable, hgeneric]
  rfl

theorem tryClassifiedFallbacks_down {up : Upstream ρ} (ds : List Deployment) {history : List Event}
    (h : DownFrom up history) :
    tryClassifiedFallbacks up ds history = (none, history ++ ds.map .attempted) := by
  induction ds generalizing history with
  | nil => simp [tryClassifiedFallbacks]
  | cons d ds ih =>
      obtain ⟨havailable, hexecute⟩ := h history d (List.prefix_refl _)
      simp only [tryClassifiedFallbacks, havailable, hexecute, normalize_unreachable]
      have hrest := ih (h.mono (List.prefix_append history [.attempted d]))
      rw [List.append_assoc] at hrest
      simpa [affectsDeploymentHealth] using hrest

theorem attemptDeployment_down (x : Execution) {up : Upstream ρ} (d : Deployment) (remaining : ℕ)
    {history : List Event} (h : DownFrom up history) :
    ∃ e later, attemptDeployment x up d remaining history = (.inr e, later) ∧
      history ++ [.attempted d] <+: later := by
  have hnone : ∀ history : List Event,
      x.classifiedAttempts up .generic true history = (none, history) := fun _ => rfl
  induction remaining generalizing history with
  | zero =>
      obtain ⟨-, hexecute⟩ := h history d (List.prefix_refl _)
      refine ⟨⟨.serviceUnavailable, "Service unavailable", some true⟩, _, ?_, List.prefix_refl _⟩
      simp [attemptDeployment, hexecute, normalize_unreachable, hnone, affectsDeploymentHealth]
  | succ left ih =>
      obtain ⟨-, hexecute⟩ := h history d (List.prefix_refl _)
      obtain ⟨e, later, hlater, hgrown⟩ := ih (h.mono (List.prefix_append history [.attempted d]))
      unfold attemptDeployment
      simp only [hexecute, normalize_unreachable, hnone, affectsDeploymentHealth,
        Option.getD_some, Bool.not_true, Bool.false_eq_true, if_false]
      split
      · exact ⟨e, later, hlater, (List.prefix_append _ _).trans hgrown⟩
      · exact ⟨_, _, rfl, List.prefix_refl _⟩

theorem runChain_down (x : Execution) {up : Upstream ρ} {ds : List Deployment}
    {lastError : Option ProxyError} {history : List Event} (h : DownFrom up history) :
    ∀ d, d ∈ attempts history ∨ d ∈ ds → d ∈ attempts (runChain x up ds lastError history).2 := by
  induction ds generalizing lastError history with
  | nil =>
      rintro d (hd | hd)
      · exact hd
      · cases hd
  | cons head ds ih =>
      obtain ⟨havailable, -⟩ := h history head (List.prefix_refl _)
      obtain ⟨e, later, hlater, grown, rfl⟩ := attemptDeployment_down x head x.retries h
      simp only [runChain, havailable, hlater, Bool.not_true, Bool.false_eq_true, if_false]
      intro d hd
      refine ih (h.mono ?_) d ?_
      · exact (List.prefix_append _ _).trans (List.prefix_append _ _)
      · rcases hd with hd | hd
        · exact .inl (by simp [hd])
        · rcases List.mem_cons.mp hd with rfl | hd
          · simp only [attempts_append, attempts_attempted, List.mem_append, List.mem_singleton]
            exact .inl (.inl (.inr trivial))
          · exact .inr hd

/-- The first attempt fails with `first`, every later one to connect. -/
def Upstream.failing (ρ : Type*) (first : UpstreamError) : Upstream ρ where
  available _ _ := true
  execute history _ := .error (if history = [] then first else unreachable)

theorem down_of_attempted (first : UpstreamError) (d : Deployment) :
    DownFrom (Upstream.failing ρ first) [.attempted d] := by
  intro later e hle
  have hne : later ≠ [] := by
    rintro rfl
    simp at hle
  simp [Upstream.failing, hne]

/-- A refusal by the upstream that is classified by its text. -/
def refusal (text : String) : UpstreamError := .http (.status ⟨400, none, text⟩ text)

theorem buildFallbackChain_head (config : FallbackConfig) (registry : Registry)
    (primary : Deployment) (group : String) :
    ∃ ds, buildFallbackChain config registry primary group = primary :: ds := by
  have hkeeps : ∀ ds chain, ∃ rest, addUnseen (primary :: chain) ds = primary :: rest := by
    intro ds
    induction ds with
    | nil => exact fun chain => ⟨chain, rfl⟩
    | cons d ds ih =>
        intro chain
        simp only [addUnseen]
        split
        · exact ih chain
        · exact ih (chain ++ [d])
  obtain ⟨rest, hrest⟩ := hkeeps (registry group ++ (config.fallbacks group).flatMap registry) []
  refine ⟨rest, ?_⟩
  rw [buildFallbackChain, foldl_addUnseen, ← addUnseen_append, ← hrest]
  rfl

theorem attempts_all_down (x : Execution) (primary : Deployment) :
    ∀ d ∈ buildFallbackChain x.config x.registry primary x.group,
      d ∈ attempts (executeWithFailover x (Upstream.failing ρ unreachable) primary).2 := by
  intro d hd
  exact runChain_down x (fun later e _ => by simp [Upstream.failing]) d (.inr hd)

/-- A first attempt refused with a classified text sends the request over the whole classified
chain. -/
theorem attempts_all_classified (x : Execution) (primary : Deployment) {text : String}
    {classification : Classification}
    (hrefusal : ∀ d, ∃ e, normalizeExecutionError (refusal text) d = (e, classification, true) ∧
      affectsDeploymentHealth e = false) :
    ∀ d ∈ x.classified classification,
      d ∈ attempts (executeWithFailover x (Upstream.failing ρ (refusal text)) primary).2 := by
  intro d hd
  obtain ⟨ds, hchain⟩ := buildFallbackChain_head x.config x.registry primary x.group
  obtain ⟨e, hnormal, haffects⟩ := hrefusal primary
  have hexecute : (Upstream.failing ρ (refusal text)).execute [] primary =
      .error (refusal text) := rfl
  have htried : x.classifiedAttempts (Upstream.failing ρ (refusal text)) classification true
      [.attempted primary] =
        (none, [.attempted primary] ++ (x.classified classification).map .attempted) :=
    tryClassifiedFallbacks_down _ (down_of_attempted _ _)
  have hattempt : attemptDeployment x (Upstream.failing ρ (refusal text)) primary x.retries [] =
      (.inl (.raised e),
        [.attempted primary] ++ (x.classified classification).map .attempted) := by
    unfold attemptDeployment
    simp only [hexecute, hnormal, List.nil_append, htried, haffects, Bool.not_false, if_true]
  have hmap : attempts ((x.classified classification).map .attempted) =
      x.classified classification := by
    simp [attempts, List.filterMap_map]
  simp only [executeWithFailover, hchain, runChain, Upstream.failing, Bool.not_true,
    Bool.false_eq_true, if_false]
  rw [Upstream.failing] at hattempt
  simp only [hattempt, attempts_append, hmap]
  exact List.mem_append_right _ hd

theorem contextWindow_refusal (d : Deployment) :
    normalizeExecutionError (refusal "context window") d =
      (⟨.invalidRequest, "context window", some false⟩, .contextWindow, true) := by
  have herror : normalizeHttpError (.status ⟨400, none, "context window"⟩ "context window") =
      ⟨.invalidRequest, "context window", some false⟩ := by decide +kernel
  have hclass : classify ⟨.invalidRequest, "context window", some false⟩ = .contextWindow := by
    decide +kernel
  simp only [normalizeExecutionError, refusal, herror, hclass]

theorem contentPolicy_refusal (d : Deployment) :
    normalizeExecutionError (refusal "safety system") d =
      (⟨.invalidRequest, "safety system", some false⟩, .contentPolicy, true) := by
  have herror : normalizeHttpError (.status ⟨400, none, "safety system"⟩ "safety system") =
      ⟨.invalidRequest, "safety system", some false⟩ := by decide +kernel
  have hclass : classify ⟨.invalidRequest, "safety system", some false⟩ = .contentPolicy := by
    decide +kernel
  simp only [normalizeExecutionError, refusal, herror, hclass]

theorem classified_mem_cases {x : Execution} {classification : Classification} {d : Deployment}
    (hd : d ∈ x.classified classification) :
    classification = .contextWindow ∨ classification = .contentPolicy := by
  cases classification with
  | contextWindow => exact .inl rfl
  | contentPolicy => exact .inr rfl
  | rateLimit | timeout | generic => cases hd

/-- What may be attempted is exactly what the chains keep: nothing else ever is, and some upstream
behaviour drives the request onto each of them. -/
theorem exists_attempt_iff (x : Execution) (primary d : Deployment) :
    (∃ up : Upstream ρ, d ∈ attempts (executeWithFailover x up primary).2) ↔
      d ∈ buildFallbackChain x.config x.registry primary x.group ∨
        ∃ classification, d ∈ x.classified classification := by
  constructor
  · rintro ⟨up, hd⟩
    rcases attempts_runChain x up hd with h | h
    · cases h
    · exact h
  · rintro (hd | ⟨classification, hd⟩)
    · exact ⟨_, attempts_all_down x primary d hd⟩
    · rcases classified_mem_cases hd with rfl | rfl
      · exact ⟨_, attempts_all_classified x primary
          (fun d => ⟨_, contextWindow_refusal d, rfl⟩) d hd⟩
      · exact ⟨_, attempts_all_classified x primary
          (fun d => ⟨_, contentPolicy_refusal d, rfl⟩) d hd⟩

/-! ## Tags -/

/-- Every attempt inside the group has the requested tags, whatever the upstreams do, exactly when
every deployment of the group that may be attempted has them. The first selection always does. -/
theorem tags_bind_attempts {router : RouterConfig} {x : Execution} {r : Reading}
    {metadata : JsonValue} {primary : Deployment}
    (h : selectDeployment router x.registry r x.group metadata = some primary) :
    (HasTags (requestTags metadata) primary ∧
      ∀ up : Upstream ρ, ∀ d ∈ attempts (executeWithFailover x up primary).2,
        d ∈ x.registry x.group → HasTags (requestTags metadata) d) ↔
      ∀ d ∈ x.registry x.group, x.Attemptable primary d → HasTags (requestTags metadata) d := by
  constructor
  · rintro ⟨-, hbound⟩ d hd hattemptable
    obtain ⟨up, hup⟩ := (exists_attempt_iff (ρ := ρ) x primary d).mpr
      ((attemptable_iff hd).mp hattemptable)
    exact hbound up d hup hd
  · intro htags
    refine ⟨(selectDeployment_sound h).2, ?_⟩
    intro up d hd hgroup
    exact htags d hgroup
      ((attemptable_iff hgroup).mpr ((exists_attempt_iff x primary d).mp ⟨up, hd⟩))

/-! ## An untagged sibling -/

namespace Counterexample

def deployment (deploymentId : String) (tags : List String) : Deployment where
  deploymentId := deploymentId
  mode := "chat"
  weight := 1
  priority := 0
  tags := tags
  rpmLimit := none
  tpmLimit := none
  imagePmLimit := none
  audioSecondsPmLimit := none
  charPmLimit := none
  rerankUnitsPmLimit := none

def europe : Deployment := deployment "gpt-eu" ["eu"]

def america : Deployment := deployment "gpt-us" ["us"]

def router : RouterConfig where
  strategy := .tagBased
  enablePreCallChecks := false
  groupStrategy _ := none

def execution (siblings : List Deployment) : Execution where
  config :=
    { numRetries := 0, fallbacks := fun _ => [], contextWindowFallbacks := fun _ => [],
      contentPolicyFallbacks := fun _ => [] }
  registry group := if group = "gpt" then europe :: siblings else []
  group := "gpt"
  retryMaxAttempts := none
  retryableErrorClasses := none

def idle : Reading where
  isCooledDown _ := false
  health _ := none
  activeRequests _ := 0
  averageLatency _ := none
  usage _ := ⟨0, 0, 0, 0, 0, 0⟩
  unitCost _ := none
  draw := ⟨0, 0⟩

def metadata : JsonValue := .dict [("tags", .list [.str "eu"])]

/-- The European deployment answers 503, every other one answers. -/
def upstream : Upstream Unit where
  available _ _ := true
  execute _ d :=
    if d = europe then .error (.http (.status ⟨503, none, ""⟩ "Server error '503'")) else .ok ()

end Counterexample

open Counterexample in
theorem tags_bind_attempts_europe :
    HasTags (requestTags metadata) europe ∧
      ∀ up : Upstream Unit, ∀ d ∈ attempts (executeWithFailover (execution []) up europe).2,
        d ∈ (execution []).registry (execution []).group → HasTags (requestTags metadata) d := by
  have hselected : selectDeployment router (execution []).registry idle (execution []).group
      metadata = some europe := by decide +kernel
  refine (tags_bind_attempts hselected).mpr fun d hd _ => ?_
  have heq : d = europe := List.mem_singleton.mp hd
  rw [heq]
  decide +kernel

open Counterexample in
/-- The request asks for Europe, is selected onto the European deployment and, when that fails, is
executed on the American one of the same group. -/
theorem untagged_sibling_attempted :
    selectDeployment router (execution [america]).registry idle (execution [america]).group
        metadata = some europe ∧
      attempts (executeWithFailover (execution [america]) upstream europe).2 = [europe, america] ∧
      america ∈ (execution [america]).registry (execution [america]).group ∧
      ¬HasTags (requestTags metadata) america := by
  decide +kernel

end FailoverAttempts
