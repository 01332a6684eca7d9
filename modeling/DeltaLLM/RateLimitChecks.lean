import DeltaLLM.PythonText
import Mathlib.Data.List.Nodup

/-! # The checks of one request

`build_rate_limit_checks` turns the limits of a caller into checks over minute, hour and day
windows. No two checks of one request share a scope, a scope fixes its window length, and no scope
contains the separator of the counter keys.
-/
namespace RateLimitChecks

open PythonText

structure RateLimitCheck where
  scope : String
  entityId : String
  limit : ℤ
  amount : ℤ
  windowSeconds : ℕ
  deriving DecidableEq, Repr

/-- The limits that one caller's key, user, team and organization carry. -/
structure UserAPIKeyAuth where
  apiKey : String
  userId : Option String
  teamId : Option String
  organizationId : Option String
  tpmLimit : Option ℤ
  rpmLimit : Option ℤ
  keyTpmLimit : Option ℤ
  keyRpmLimit : Option ℤ
  userTpmLimit : Option ℤ
  userRpmLimit : Option ℤ
  teamTpmLimit : Option ℤ
  teamRpmLimit : Option ℤ
  orgTpmLimit : Option ℤ
  orgRpmLimit : Option ℤ
  teamModelRpmLimit : Option (List (String × ℤ))
  teamModelTpmLimit : Option (List (String × ℤ))
  orgModelRpmLimit : Option (List (String × ℤ))
  orgModelTpmLimit : Option (List (String × ℤ))
  keyRphLimit : Option ℤ
  keyRpdLimit : Option ℤ
  keyTpdLimit : Option ℤ
  userRphLimit : Option ℤ
  userRpdLimit : Option ℤ
  userTpdLimit : Option ℤ
  teamRphLimit : Option ℤ
  teamRpdLimit : Option ℤ
  teamTpdLimit : Option ℤ
  orgRphLimit : Option ℤ
  orgRpdLimit : Option ℤ
  orgTpdLimit : Option ℤ
  deriving Repr

def positive (limit : ℤ) : Option ℤ := if 0 < limit then some limit else none

/-- One pattern of the wildcard search; the longest matching prefix wins, the first of equals. -/
def betterMatch (model : String) (best : Option (ℕ × Option ℤ)) (entry : String × ℤ) :
    Option (ℕ × Option ℤ) :=
  let pattern := entry.1.toList
  if pattern.getLast? = some '*' then
    let start := pattern.dropLast
    let longer := match best with
      | none => true
      | some (length, _) => decide (length < start.length)
    if start.isPrefixOf model.toList && longer then some (start.length, positive entry.2) else best
  else best

def modelLimit (limits : Option (List (String × ℤ))) (model : String) : Option ℤ :=
  match limits with
  | none => none
  | some entries =>
      if model = "" then none
      else match entries.find? (·.1 = model) with
        | some exact => positive exact.2
        | none => (entries.foldl (betterMatch model) none).bind (·.2)

/-- One call of `_add`, `_add_h` or `_add_d` with its arguments. -/
structure CheckRow where
  windowSeconds : ℕ
  scope : String
  entityId : Option String
  limit : Option ℤ
  amount : ℤ

def minute : ℕ := 60
def hour : ℕ := 3600
def day : ℕ := 86400

def CheckRow.add (row : CheckRow) : Option RateLimitCheck :=
  match row.entityId, row.limit with
  | some entityId, some limit =>
      if entityId = "" ∨ limit ≤ 0 ∨ row.amount ≤ 0 then none
      else some ⟨row.scope, entityId, limit, row.amount, row.windowSeconds⟩
  | _, _ => none

def callerRows (auth : UserAPIKeyAuth) (tokens : ℤ) : List CheckRow :=
  let keyRpmLimit := auth.keyRpmLimit.or auth.rpmLimit
  let keyTpmLimit := auth.keyTpmLimit.or auth.tpmLimit
  [⟨minute, "org_rpm", auth.organizationId, auth.orgRpmLimit, 1⟩,
   ⟨minute, "team_rpm", auth.teamId, auth.teamRpmLimit, 1⟩,
   ⟨minute, "user_rpm", auth.userId, auth.userRpmLimit, 1⟩,
   ⟨minute, "key_rpm", some auth.apiKey, keyRpmLimit, 1⟩,
   ⟨minute, "org_tpm", auth.organizationId, auth.orgTpmLimit, tokens⟩,
   ⟨minute, "team_tpm", auth.teamId, auth.teamTpmLimit, tokens⟩,
   ⟨minute, "user_tpm", auth.userId, auth.userTpmLimit, tokens⟩,
   ⟨minute, "key_tpm", some auth.apiKey, keyTpmLimit, tokens⟩,
   ⟨hour, "org_rph", auth.organizationId, auth.orgRphLimit, 1⟩,
   ⟨hour, "team_rph", auth.teamId, auth.teamRphLimit, 1⟩,
   ⟨hour, "user_rph", auth.userId, auth.userRphLimit, 1⟩,
   ⟨hour, "key_rph", some auth.apiKey, auth.keyRphLimit, 1⟩,
   ⟨day, "org_rpd", auth.organizationId, auth.orgRpdLimit, 1⟩,
   ⟨day, "team_rpd", auth.teamId, auth.teamRpdLimit, 1⟩,
   ⟨day, "user_rpd", auth.userId, auth.userRpdLimit, 1⟩,
   ⟨day, "key_rpd", some auth.apiKey, auth.keyRpdLimit, 1⟩,
   ⟨day, "org_tpd", auth.organizationId, auth.orgTpdLimit, tokens⟩,
   ⟨day, "team_tpd", auth.teamId, auth.teamTpdLimit, tokens⟩,
   ⟨day, "user_tpd", auth.userId, auth.userTpdLimit, tokens⟩,
   ⟨day, "key_tpd", some auth.apiKey, auth.keyTpdLimit, tokens⟩]

/-- `f"{entity}:{model}" if entity else None`. -/
def modelEntity (entity : Option String) (model : String) : Option String :=
  entity.bind fun name => if name = "" then none else some (name ++ ":" ++ model)

def modelRows (auth : UserAPIKeyAuth) (tokens : ℤ) (model : String) : List CheckRow :=
  [⟨minute, "team_model_rpm", modelEntity auth.teamId model,
      modelLimit auth.teamModelRpmLimit model, 1⟩,
   ⟨minute, "team_model_tpm", modelEntity auth.teamId model,
      modelLimit auth.teamModelTpmLimit model, tokens⟩,
   ⟨minute, "org_model_rpm", modelEntity auth.organizationId model,
      modelLimit auth.orgModelRpmLimit model, 1⟩,
   ⟨minute, "org_model_tpm", modelEntity auth.organizationId model,
      modelLimit auth.orgModelTpmLimit model, tokens⟩]

def checkRows (auth : UserAPIKeyAuth) (tokens : ℤ) (model : Option String) : List CheckRow :=
  match model with
  | none => callerRows auth tokens
  | some name =>
      if name = "" then callerRows auth tokens
      else callerRows auth tokens ++ modelRows auth tokens name

def buildRateLimitChecks (auth : UserAPIKeyAuth) (tokens : ℤ) (model : Option String) :
    List RateLimitCheck :=
  (checkRows auth tokens model).filterMap CheckRow.add

/-- The scopes with their windows, in the order of the source. -/
def scopeWindows : List (String × ℕ) :=
  [("org_rpm", minute), ("team_rpm", minute), ("user_rpm", minute), ("key_rpm", minute),
   ("org_tpm", minute), ("team_tpm", minute), ("user_tpm", minute), ("key_tpm", minute),
   ("org_rph", hour), ("team_rph", hour), ("user_rph", hour), ("key_rph", hour),
   ("org_rpd", day), ("team_rpd", day), ("user_rpd", day), ("key_rpd", day),
   ("org_tpd", day), ("team_tpd", day), ("user_tpd", day), ("key_tpd", day),
   ("team_model_rpm", minute), ("team_model_tpm", minute), ("org_model_rpm", minute),
   ("org_model_tpm", minute)]

theorem scopeWindows_nodup : (scopeWindows.map (·.1)).Nodup := by decide +kernel

theorem checkRows_scopes (auth : UserAPIKeyAuth) (tokens : ℤ) (model : Option String) :
    ((checkRows auth tokens model).map fun row => (row.scope, row.windowSeconds)).Sublist
      scopeWindows := by
  have hcaller : ((callerRows auth tokens).map fun row => (row.scope, row.windowSeconds)) =
      scopeWindows.take 20 := rfl
  have hmodel : ∀ name, ((modelRows auth tokens name).map fun row =>
      (row.scope, row.windowSeconds)) = scopeWindows.drop 20 := fun _ => rfl
  have hcallerSublist := List.take_sublist 20 scopeWindows
  cases model with
  | none => simpa only [checkRows, hcaller] using hcallerSublist
  | some name =>
      by_cases hname : name = ""
      · simpa only [checkRows, hname, if_true, hcaller] using hcallerSublist
      · simp only [checkRows, hname, if_false, List.map_append, hcaller, hmodel,
          List.take_append_drop]
        exact List.Sublist.refl _

theorem add_scope {row : CheckRow} {check : RateLimitCheck} (h : row.add = some check) :
    check.scope = row.scope ∧ check.windowSeconds = row.windowSeconds ∧ 0 < check.limit ∧
      0 < check.amount := by
  unfold CheckRow.add at h
  split at h
  · split at h
    · cases h
    · rename_i hkeep
      cases h
      refine ⟨rfl, rfl, ?_, ?_⟩ <;> simp only <;> omega
  · cases h

theorem filterMap_add_scopes (rows : List CheckRow) :
    ((rows.filterMap CheckRow.add).map fun check => (check.scope, check.windowSeconds)).Sublist
      (rows.map fun row => (row.scope, row.windowSeconds)) := by
  induction rows with
  | nil => exact List.Sublist.refl _
  | cons row rows ih =>
      cases hadd : row.add with
      | none =>
          rw [List.filterMap_cons_none hadd, List.map_cons]
          exact ih.cons _
      | some check =>
          obtain ⟨hscope, hwindow, _⟩ := add_scope hadd
          rw [List.filterMap_cons_some hadd, List.map_cons, List.map_cons, hscope, hwindow]
          exact ih.cons_cons _

/-- What the counters rely on: distinct known scopes, each with its own window. -/
structure WellFormed (checks : List RateLimitCheck) : Prop where
  distinct : (checks.map (·.scope)).Nodup
  known : ∀ check ∈ checks, (check.scope, check.windowSeconds) ∈ scopeWindows
  positive : ∀ check ∈ checks, 0 < check.limit ∧ 0 < check.amount

theorem buildRateLimitChecks_wellFormed (auth : UserAPIKeyAuth) (tokens : ℤ)
    (model : Option String) : WellFormed (buildRateLimitChecks auth tokens model) := by
  have hsublist : ((buildRateLimitChecks auth tokens model).map fun check =>
      (check.scope, check.windowSeconds)).Sublist scopeWindows :=
    (filterMap_add_scopes _).trans (checkRows_scopes auth tokens model)
  constructor
  · have hscopes := hsublist.map Prod.fst
    rw [List.map_map] at hscopes
    exact scopeWindows_nodup.sublist hscopes
  · intro check hcheck
    exact hsublist.subset (List.mem_map.mpr ⟨check, hcheck, rfl⟩)
  · intro check hcheck
    obtain ⟨row, _, hadd⟩ := List.mem_filterMap.mp hcheck
    exact (add_scope hadd).2.2

theorem window_of_scope {scope : String} {window window' : ℕ}
    (h : (scope, window) ∈ scopeWindows) (h' : (scope, window') ∈ scopeWindows) :
    window = window' := by
  have hinj := List.inj_on_of_nodup_map scopeWindows_nodup h h' rfl
  exact congrArg Prod.snd hinj

theorem window_pos {scope : String} {window : ℕ} (h : (scope, window) ∈ scopeWindows) :
    0 < window := by
  have hall : ∀ entry ∈ scopeWindows, 0 < entry.2 := by decide +kernel
  exact hall _ h

theorem colon_notMem_scope {scope : String} {window : ℕ} (h : (scope, window) ∈ scopeWindows) :
    ':' ∉ scope.toList := by
  have hall : ∀ entry ∈ scopeWindows, ':' ∉ entry.1.toList := by decide +kernel
  exact hall _ h

end RateLimitChecks
