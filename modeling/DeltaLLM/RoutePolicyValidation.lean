import DeltaLLM.CheckedResults
import DeltaLLM.RoutingConfiguration
import DeltaLLM.StreamingCache

/-! # Validation of route policies

What the admin API does to a route policy before it is stored. An accepted policy keeps its bounds:
the ids of its members are stripped and not empty, its numbers are within their limits and its
retryable error classes are the known ones.
-/
namespace RoutePolicyValidation

open JsonValues PythonText CheckedResults
open StreamingCache (toInt)

/-- Python's `float` on integers and texts, none where it raises OverflowError or ValueError, and
`str` of a value that is no text. -/
structure Conversions where
  floatOfInt : ℤ → Option JsonFloat
  floatOfText : String → Option JsonFloat
  textOfOther : JsonValue → String

/-- What validation raises; the admin API turns a ValueError into a 400. -/
inductive PolicyError where
  | valueError (detail : String)
  | typeError
  | overflowError
  deriving DecidableEq, Repr

abbrev Checked := Except PolicyError

/-! ## Allowed values, in the order in which errors list them -/

def allowedPolicyModes : List String := ["adaptive", "conditional", "fallback", "weighted"]

def allowedPolicyKeys : List String := ["mode", "strategy", "members", "timeouts", "retry"]

def allowedTimeoutKeys : List String := ["global_ms", "global_seconds"]

def allowedRetryKeys : List String := ["max_attempts", "retryable_error_classes"]

def allowedRetryableErrorClasses : List String :=
  ["content_policy_violation", "context_window_exceeded", "generic", "rate_limit", "timeout"]

def routingStrategies : List String :=
  ["simple-shuffle", "least-busy", "latency-based-routing", "cost-based-routing",
    "usage-based-routing", "tag-based-routing", "priority-based-routing", "weighted",
    "rate-limit-aware"]

def priorityBased : String := "priority-based-routing"

def weighted : String := "weighted"

/-! ## Reading values -/

section Reading

variable (py : Conversions)

/-- `str(value or "")`. -/
def textOrEmpty : JsonValue → String
  | .str text => text
  | value => if value.truthy then py.textOfOther value else ""

/-- `str(value or "").strip()`. -/
def trimmed (value : JsonValue) : String := strip (textOrEmpty py value)

/-- `_normalize_int`. -/
def normalizeInt (value : JsonValue) (fieldName : String) (minimum : ℤ) :
    Checked {n : ℤ // minimum ≤ n} :=
  match value with
  | .bool _ => .error (.valueError (fieldName ++ " must be an integer"))
  | value =>
      match toInt value with
      | .invalid => .error (.valueError (fieldName ++ " must be an integer"))
      | .overflow => .error .overflowError
      | .value n =>
          if h : n < minimum then
            .error (.valueError (fieldName ++ " must be >= " ++ toString minimum))
          else .ok ⟨n, not_lt.mp h⟩

/-- `float(value)`. -/
def toFloat : JsonValue → Checked (Option JsonFloat)
  | .bool b => .ok (some (.finite (if b then 1 else 0)))
  | .int n =>
      match py.floatOfInt n with
      | some x => .ok (some x)
      | none => .error .overflowError
  | .float x => .ok (some x)
  | .str text => .ok (py.floatOfText text)
  | .null | .list _ | .dict _ => .ok none

/-- `x < minimum`, which no NaN satisfies. -/
def isBelow (minimum : ℚ) : JsonFloat → Bool
  | .finite q => q < minimum
  | .infinity negative => negative
  | .nan => false

/-- `_normalize_float`; `shown` is how the minimum is written. -/
def normalizeFloat (value : JsonValue) (fieldName : String) (minimum : ℚ) (shown : String) :
    Checked {x : JsonFloat // isBelow minimum x = false} :=
  match value with
  | .bool _ => .error (.valueError (fieldName ++ " must be a number"))
  | value => do
      match ← toFloat py value with
      | none => .error (.valueError (fieldName ++ " must be a number"))
      | some x =>
          if h : isBelow minimum x = true then
            .error (.valueError (fieldName ++ " must be >= " ++ shown))
          else .ok ⟨x, Bool.eq_false_of_not_eq_true h⟩

/-- `_normalize_string_list`. -/
def normalizeStringList (value : JsonValue) (fieldName : String) : Checked (List String) :=
  match value with
  | .list items => items.zipIdx.mapM fun (item, idx) =>
      let entry := trimmed py item
      if entry = "" then
        .error (.valueError (fieldName ++ "[" ++ toString idx ++ "] must be a non-empty string"))
      else .ok entry
  | _ => .error (.valueError (fieldName ++ " must be a list"))

end Reading

/-- No field outside the allowed ones. -/
def checkKeys (fields : JsonObject) (allowed : List String) (what : String) : Checked Unit :=
  let unknown := (fields.map Prod.fst).filter (· ∉ allowed)
  if unknown = [] then .ok ()
  else
    .error (.valueError ("unknown " ++ what ++ " fields: " ++ ", ".intercalate unknown.mergeSort))

/-! ## Accepted policies -/

structure PolicyMember where
  deploymentId : String
  enabled : Bool
  weight : Option {n : ℤ // 1 ≤ n}
  priority : Option {n : ℤ // 0 ≤ n}
  nonempty : deploymentId ≠ ""
  stripped : strip deploymentId = deploymentId

structure PolicyTimeouts where
  globalMs : Option {n : ℤ // 1 ≤ n}
  globalSeconds : Option {x : JsonFloat // isBelow (1 / 1000) x = false}

structure PolicyRetry where
  maxAttempts : Option {n : ℤ // 0 ≤ n}
  retryableErrorClasses :
    Option {classes : List String // ∀ name ∈ classes, name ∈ allowedRetryableErrorClasses}

/-- The normalized payload. A field is there when it was sent or is derived from the mode; a blank
strategy is kept as null. -/
structure RoutePolicy where
  mode : Option String
  strategy : Option (Option String)
  members : Option (List PolicyMember)
  timeouts : Option PolicyTimeouts
  retry : Option PolicyRetry

/-! ## Fields -/

section Fields

variable (py : Conversions)

def unsupportedMode (mode : String) : PolicyError :=
  .valueError ("mode '" ++ mode ++
    "' is not supported by the runtime; use a concrete strategy instead")

def normalizeMode (value : JsonValue) : Checked String :=
  let mode := lower (trimmed py value)
  if mode ∉ allowedPolicyModes then
    .error (.valueError ("mode must be one of: " ++ ", ".intercalate allowedPolicyModes))
  else if mode = "conditional" ∨ mode = "adaptive" then .error (unsupportedMode mode)
  else .ok mode

def normalizeStrategy (value : JsonValue) : Checked (Option String) :=
  let strategy := trimmed py value
  if strategy = "" then .ok none
  else if strategy ∉ routingStrategies then
    .error (.valueError ("strategy must be one of: " ++ ", ".intercalate routingStrategies))
  else .ok (some strategy)

/-- A number of a member that may be missing or null. -/
def normalizeOptionalInt (value : JsonValue) (fieldName : String) (minimum : ℤ) :
    Checked (Option {n : ℤ // minimum ≤ n}) :=
  match value with
  | .null => .ok none
  | value => (normalizeInt value fieldName minimum).map some

def normalizeMember (raw : JsonValue) (idx : ℕ) : Checked PolicyMember := do
  let field := "members[" ++ toString idx ++ "]"
  let .dict fields := raw | .error (.valueError (field ++ " must be an object"))
  let deploymentId := trimmed py (JsonObject.get fields "deployment_id")
  if h : deploymentId = "" then .error (.valueError (field ++ ".deployment_id is required"))
  else
    let weight ← normalizeOptionalInt (JsonObject.get fields "weight") (field ++ ".weight") 1
    let priority ← normalizeOptionalInt (JsonObject.get fields "priority") (field ++ ".priority") 0
    .ok {
      deploymentId
      enabled := ((JsonObject.get? fields "enabled").getD (.bool true)).truthy
      weight
      priority
      nonempty := h
      stripped := strip_strip _ }

/-- The members, none for a null, which is not checked here. -/
def normalizeMembers : JsonValue → Checked (Option (List PolicyMember))
  | .null => .ok none
  | .list raw => (raw.zipIdx.mapM fun (member, idx) => normalizeMember py member idx).map some
  | _ => .error (.valueError "members must be a list")

def normalizeTimeouts (value : JsonValue) : Checked PolicyTimeouts := do
  let .dict fields := value | .error (.valueError "timeouts must be an object")
  checkKeys fields allowedTimeoutKeys "timeouts"
  let globalMs ← (JsonObject.get? fields "global_ms").mapM fun value =>
    normalizeInt value "timeouts.global_ms" 1
  let globalSeconds ← (JsonObject.get? fields "global_seconds").mapM fun value =>
    normalizeFloat py value "timeouts.global_seconds" (1 / 1000) "0.001"
  return ⟨globalMs, globalSeconds⟩

def normalizeErrorClasses (value : JsonValue) :
    Checked {classes : List String // ∀ name ∈ classes, name ∈ allowedRetryableErrorClasses} := do
  let values ← normalizeStringList py value "retry.retryable_error_classes"
  if h : ∀ name ∈ values, name ∈ allowedRetryableErrorClasses then .ok ⟨values, h⟩
  else
    .error (.valueError ("retry.retryable_error_classes values must be one of: " ++
      ", ".intercalate allowedRetryableErrorClasses))

def normalizeRetry (value : JsonValue) : Checked PolicyRetry := do
  let .dict fields := value | .error (.valueError "retry must be an object")
  checkKeys fields allowedRetryKeys "retry"
  let maxAttempts ← (JsonObject.get? fields "max_attempts").mapM fun value =>
    normalizeInt value "retry.max_attempts" 0
  let retryableErrorClasses ← (JsonObject.get? fields "retryable_error_classes").mapM
    (normalizeErrorClasses py)
  return ⟨maxAttempts, retryableErrorClasses⟩

end Fields

/-! ## The policy -/

/-- The available ids, stripped and without the blank ones. -/
def validMemberIds (availableMemberIds : Finset String) : Finset String :=
  (availableMemberIds.image strip).filter (· ≠ "")

/-- With available ids given, the members name no others. -/
def checkReferences (valid : Finset String) (members : List PolicyMember) : Checked Unit :=
  let unknown := (members.map (·.deploymentId)).filter (· ∉ valid)
  if valid = ∅ ∨ unknown = [] then .ok ()
  else
    .error (.valueError ("policy references unknown members: " ++
      ", ".intercalate (sorted unknown.toFinset)))

/-- Some member is active: an enabled one of the list, or any available one without a list. -/
def hasActiveMember (valid : Finset String) : Option (List PolicyMember) → Bool
  | some members => members.any (·.enabled)
  | none => valid ≠ ∅

/-- Some active member of the list has a weight. -/
def hasWeight (members : Option (List PolicyMember)) : Bool :=
  (members.getD []).any fun member => member.enabled && member.weight.isSome

/-- In fallback mode a member without a priority gets its position. -/
def prioritized (members : List PolicyMember) : List PolicyMember :=
  members.mapIdx fun index member =>
    { member with priority := member.priority.or (some ⟨index, Int.natCast_nonneg index⟩) }

/-- A mode's own strategy where none is set, and the warning where it is another one. -/
def modeStrategy (own warning : String) (strategy : Option (Option String)) :
    Option (Option String) × List String :=
  match strategy.join with
  | none => (some (some own), [])
  | some set => (strategy, if set = own then [] else [warning])

def applyMode (policy : RoutePolicy) : RoutePolicy × List String :=
  if policy.mode = some "fallback" then
    let (strategy, warnings) := modeStrategy priorityBased
      "Fallback mode is advisory when strategy is set explicitly; strategy takes precedence."
      policy.strategy
    ({ policy with strategy, members := policy.members.map prioritized }, warnings)
  else if policy.mode = some "weighted" then
    let (strategy, warnings) := modeStrategy weighted
      "Weighted mode is advisory when strategy is set explicitly; strategy takes precedence."
      policy.strategy
    ({ policy with strategy },
      warnings ++ if hasWeight policy.members then []
        else ["Weighted mode without explicit member weights will use deployment defaults."])
  else (policy, [])

/-- A null list is iterated without a check. -/
def iterated : Option (Option (List PolicyMember)) → Checked (Option (List PolicyMember))
  | none => .ok none
  | some none => .error .typeError
  | some (some members) => .ok (some members)

/-- `validate_route_policy`: the normalized policy and its warnings. -/
def validateRoutePolicy (py : Conversions) (payload : JsonValue)
    (availableMemberIds : Finset String) : Checked (RoutePolicy × List String) := do
  let .dict fields := payload | .error (.valueError "policy payload must be an object")
  checkKeys fields allowedPolicyKeys "policy"
  let mode ← (JsonObject.get? fields "mode").mapM (normalizeMode py)
  let strategy ← (JsonObject.get? fields "strategy").mapM (normalizeStrategy py)
  let members ← (JsonObject.get? fields "members").mapM (normalizeMembers py)
  let timeouts ← (JsonObject.get? fields "timeouts").mapM (normalizeTimeouts py)
  let retry ← (JsonObject.get? fields "retry").mapM (normalizeRetry py)
  let members ← iterated members
  let valid := validMemberIds availableMemberIds
  checkReferences valid (members.getD [])
  if hasActiveMember valid members then
    return applyMode ⟨mode, strategy, members, timeouts, retry⟩
  else .error (.valueError "policy results in empty active member pool")

/-! ## The stored policy -/

def optionalInt {minimum : ℤ} (key : String) : Option {n : ℤ // minimum ≤ n} → JsonObject
  | none => []
  | some n => [(key, .int n)]

theorem get?_optionalInt {minimum : ℤ} (key : String) (n : Option {n : ℤ // minimum ≤ n})
    (fields : JsonObject) (key' : String) :
    JsonObject.get? (optionalInt key n ++ fields) key' =
      if key = key' then (n.map fun n => .int n).or (JsonObject.get? fields key')
      else JsonObject.get? fields key' := by
  cases n with
  | none => simp [optionalInt]
  | some n =>
      by_cases hkey : key = key' <;> simp [optionalInt, JsonObject.get?, hkey]

def fieldsOf (member : PolicyMember) : JsonObject :=
  [("deployment_id", .str member.deploymentId), ("enabled", .bool member.enabled)] ++
    optionalInt "weight" member.weight ++ optionalInt "priority" member.priority

/-- `policy_json.get("members")`. -/
def membersJson (policy : RoutePolicy) : JsonValue :=
  match policy.members with
  | none => .null
  | some members => .list (members.map fun member => .dict (fieldsOf member))

def retryFields (retry : PolicyRetry) : JsonObject :=
  optionalInt "max_attempts" retry.maxAttempts ++
    match retry.retryableErrorClasses with
    | none => []
    | some classes => [("retryable_error_classes", .list (classes.val.map .str))]

/-! ## What an accepted policy was read from -/

section Accepted

variable {py : Conversions}

/-- The fields of a payload that the policy before its mode is applied was read from. -/
structure ReadFrom (py : Conversions) (fields : JsonObject) (policy : RoutePolicy) : Prop where
  mode : (JsonObject.get? fields "mode").mapM (normalizeMode py) = .ok policy.mode
  strategy : (JsonObject.get? fields "strategy").mapM (normalizeStrategy py) = .ok policy.strategy
  members : (JsonObject.get? fields "members").mapM (normalizeMembers py) =
    .ok (policy.members.map some)
  timeouts : (JsonObject.get? fields "timeouts").mapM (normalizeTimeouts py) = .ok policy.timeouts
  retry : (JsonObject.get? fields "retry").mapM (normalizeRetry py) = .ok policy.retry

theorem iterated_ok {members : Option (Option (List PolicyMember))}
    {listed : Option (List PolicyMember)} (h : iterated members = .ok listed) :
    members = listed.map some := by
  cases members with
  | none =>
      cases h
      rfl
  | some members =>
      cases members with
      | none => cases h
      | some members =>
          cases h
          rfl

theorem validateRoutePolicy_ok {payload : JsonValue} {availableMemberIds : Finset String}
    {result : RoutePolicy × List String}
    (h : validateRoutePolicy py payload availableMemberIds = .ok result) :
    ∃ fields policy, payload = .dict fields ∧ ReadFrom py fields policy ∧
      checkReferences (validMemberIds availableMemberIds) (policy.members.getD []) = .ok () ∧
      hasActiveMember (validMemberIds availableMemberIds) policy.members = true ∧
      result = applyMode policy := by
  unfold validateRoutePolicy at h
  split at h
  next fields =>
    obtain ⟨-, -, h⟩ := bind_ok_iff.mp h
    obtain ⟨mode, hmode, h⟩ := bind_ok_iff.mp h
    obtain ⟨strategy, hstrategy, h⟩ := bind_ok_iff.mp h
    obtain ⟨members, hmembers, h⟩ := bind_ok_iff.mp h
    obtain ⟨timeouts, htimeouts, h⟩ := bind_ok_iff.mp h
    obtain ⟨retry, hretry, h⟩ := bind_ok_iff.mp h
    obtain ⟨listed, hlisted, h⟩ := bind_ok_iff.mp h
    obtain ⟨⟨⟩, hreferences, h⟩ := bind_ok_iff.mp h
    rw [iterated_ok hlisted] at hmembers
    split at h
    next hactive =>
      refine ⟨fields, ⟨mode, strategy, listed, timeouts, retry⟩, rfl, ?_, hreferences, hactive, ?_⟩
      · exact ⟨hmode, hstrategy, hmembers, htimeouts, hretry⟩
      · cases h
        rfl
    next => cases h
  next => cases h

theorem applyMode_retry (policy : RoutePolicy) : (applyMode policy).1.retry = policy.retry := by
  unfold applyMode
  split
  · rfl
  · split <;> rfl

theorem applyMode_members (policy : RoutePolicy) :
    (applyMode policy).1.members = policy.members ∨
      (applyMode policy).1.members = policy.members.map prioritized := by
  unfold applyMode
  split
  · exact .inr rfl
  · split <;> exact .inl rfl

theorem normalizeInt_ok {value : JsonValue} {fieldName : String} {minimum : ℤ}
    {n : {n : ℤ // minimum ≤ n}} (h : normalizeInt value fieldName minimum = .ok n) :
    toInt value = .value n := by
  unfold normalizeInt at h
  split at h
  · cases h
  · split at h
    · cases h
    · cases h
    next m hm =>
      split at h
      · cases h
      · cases h
        exact hm

theorem normalizeStringList_ok {items : List JsonValue} {fieldName : String}
    {values : List String} (h : normalizeStringList py (.list items) fieldName = .ok values) :
    values = items.map (trimmed py) := by
  have hall := mapM_ok_iff.mp h
  have hread : ∀ {entries : List (JsonValue × ℕ)} {values : List String},
      List.Forall₂ (fun entry value => (if trimmed py entry.1 = "" then
          (.error (.valueError (fieldName ++ "[" ++ toString entry.2 ++
            "] must be a non-empty string")) : Checked String)
        else .ok (trimmed py entry.1)) = .ok value) entries values →
      values = (entries.map Prod.fst).map (trimmed py) := by
    intro entries values hforall
    induction hforall with
    | nil => rfl
    | cons hvalue _ ih =>
        split at hvalue
        · cases hvalue
        · cases hvalue
          rw [ih]
          rfl
  rw [hread hall, List.zipIdx_map_fst]

/-- An accepted policy with both retry settings has them as the payload lists them. -/
theorem retry_read {fields retry : JsonObject} {policy : RoutePolicy} {count : JsonValue}
    {listed : List JsonValue} (h : ReadFrom py fields policy)
    (hretry : JsonObject.get? fields "retry" = some (.dict retry))
    (hcount : JsonObject.get? retry "max_attempts" = some count)
    (hlisted : JsonObject.get? retry "retryable_error_classes" = some (.list listed)) :
    ∃ n classes, policy.retry = some ⟨some n, some classes⟩ ∧ toInt count = .value n.1 ∧
      classes.1 = listed.map (trimmed py) := by
  have hread := h.retry
  rw [hretry] at hread
  rcases optionMapM_ok hread with ⟨hnone, -⟩ | ⟨value, read, hvalue, hpolicy, hread⟩
  · cases hnone
  · cases hvalue
    obtain ⟨-, -, hread⟩ := bind_ok_iff.mp hread
    obtain ⟨attempts, hattempts, hread⟩ := bind_ok_iff.mp hread
    obtain ⟨names, hnames, hread⟩ := bind_ok_iff.mp hread
    cases hread
    rw [hcount] at hattempts
    rw [hlisted] at hnames
    rcases optionMapM_ok hattempts with ⟨hnone, -⟩ | ⟨_, n, hsome, rfl, hn⟩
    · cases hnone
    · cases hsome
      rcases optionMapM_ok hnames with ⟨hnone, -⟩ | ⟨_, classes, hsome, rfl, hclasses⟩
      · cases hnone
      · cases hsome
        refine ⟨n, classes, hpolicy, normalizeInt_ok hn, ?_⟩
        obtain ⟨values, hvalues, hclasses⟩ := bind_ok_iff.mp hclasses
        split at hclasses
        · cases hclasses
          exact normalizeStringList_ok hvalues
        · cases hclasses

end Accepted

end RoutePolicyValidation
