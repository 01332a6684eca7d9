import DeltaLLM.KeyCreation

/-! # Keys within the self-service policy

A key that self-service creates is counted, has a budget under the ceiling and expires in time,
unless other keys of its owner came in between the count and the insertion, or the request leaves
out what its policy limits.
-/
namespace SelfServiceKeys

open CalendarDates (microsecondsPerDay)
open CheckedResults
open JsonValues (JsonFloat JsonValue JsonObject)
open KeyCreation
open TransitionRuns

/-! ## What is asked of a self-service key -/

structure WithinPolicy (policy : SelfServicePolicy) (creation : Creation) : Prop where
  owned : ∀ maxKeys, policy.maxKeysPerUser = some maxKeys → (creation.ownedAfter : ℤ) ≤ maxKeys
  budget : ∀ ceiling, policy.budgetCeiling = some ceiling → ∃ budget,
    creation.row.maxBudget = some budget ∧ floatLe (.finite 0) budget = true ∧
      floatLe budget ceiling = true
  expiry : ∀ days, policy.maxExpiryDays = some days → ∃ expires,
    creation.row.expires = some expires ∧
      expires ≤ creation.row.createdAt + days * microsecondsPerDay

/-- Every key that self-service created met the policy of its team. -/
def PolicyKept (g : Gateway) (s : KeyState) : Prop :=
  ∀ creation ∈ s.selfCreations,
    WithinPolicy (getSelfServicePolicy g.teams creation.request.teamId) creation

/-- At a self-service INSERT the caller has no more keys in the team than were counted, a budget
under a ceiling is a number, and an expiry that is limited is given and read alike by Python and by
the database. -/
structure CleanInsert (g : Gateway) (s : KeyState) (request : KeyRequest) (grant : Grant) :
    Prop where
  counted : ∀ n, grant.counted = some n →
    countOwned request.teamId request.scope.accountId s.keys ≤ n
  budget : ∀ ceiling, grant.policy.budgetCeiling = some ceiling →
    ceiling ≠ .nan ∧ ∀ budget, floatOf g.builtins request.maxBudget = .ok budget → budget ≠ .nan
  expiry : ∀ days, grant.policy.maxExpiryDays = some days → ¬NotGiven request.expires
  offset : ∀ days, grant.policy.maxExpiryDays = some days → ∀ text, request.expires = some text →
    ∀ read stored, g.builtins.fromIsoformat (withOffset text) = some read →
      g.columns.timestamp text = some stored → stored ≤ read.instant

def CleanStep (g : Gateway) (s : KeyState) : KeyEvent → Prop
  | .statement pid _ _ => ∀ request grant, s.requests pid = .inserting request (some grant) →
      CleanInsert g s request grant
  | _ => True

/-! ## What the checks establish -/

section Checks

variable {builtins : Builtins} {policy : SelfServicePolicy}

theorem floatLe_of_not_lt {a b : JsonFloat} (ha : a ≠ .nan) (hb : b ≠ .nan)
    (h : floatLt b a = false) : floatLe a b = true := by
  simp [floatLe, ha, hb, h]

theorem checkCount_ok {n : ℕ} (h : checkCount policy n = .ok ()) {maxKeys : ℤ}
    (hmax : policy.maxKeysPerUser = some maxKeys) : (n : ℤ) < maxKeys := by
  simp only [checkCount, hmax] at h
  split_ifs at h with hreached
  omega

theorem checkBudget_ok {value : JsonValue} (h : checkBudget builtins policy value = .ok ())
    {ceiling : JsonFloat} (hceiling : policy.budgetCeiling = some ceiling) :
    value ≠ .null ∧ ∃ budget, floatOf builtins value = .ok budget ∧
      floatLt budget (.finite 0) = false ∧ floatLt ceiling budget = false := by
  have hgiven : value ≠ .null := by
    rintro rfl
    simp only [checkBudget, hceiling] at h
    cases h
  refine ⟨hgiven, ?_⟩
  simp only [checkBudget, hceiling] at h
  obtain ⟨budget, hread, hchecked⟩ := bind_ok_iff.mp h
  refine ⟨budget, ?_, ?_⟩
  · cases hfloat : floatOf builtins value with
    | error fault =>
        rw [hfloat] at hread
        cases hread
    | ok read =>
        rw [hfloat] at hread
        cases hread
        rfl
  · split_ifs at hchecked with hout
    simpa using hout

theorem addDays_some {now days moment : ℤ} (h : addDays now days = some moment) :
    moment = now + days * microsecondsPerDay := by
  simp only [addDays] at h
  split_ifs at h
  exact (Option.some.inj h).symm

theorem checkExpiry_ok {now : ℤ} {expires : Option String}
    (h : checkExpiry builtins policy now expires = .ok ()) {days : ℤ}
    (hdays : policy.maxExpiryDays = some days) {text : String} (hexpires : expires = some text)
    (hgiven : text ≠ "") :
    ∃ read, builtins.fromIsoformat (withOffset text) = some read ∧
      read.instant ≤ now + days * microsecondsPerDay := by
  simp only [checkExpiry, hdays, hexpires, if_neg hgiven] at h
  cases hread : builtins.fromIsoformat (withOffset text) with
  | none =>
      rw [hread] at h
      cases h
  | some read =>
      cases hallowed : addDays now days with
      | none =>
          rw [hread, hallowed] at h
          cases h
      | some maxAllowed =>
          rw [hread, hallowed] at h
          simp only at h
          split_ifs at h with hlate
          have hmoment := addDays_some hallowed
          exact ⟨read, rfl, by omega⟩

end Checks

/-! ## Phases -/

section Phases

variable {g : Gateway} {clock now : ℤ} {keys : List KeyRow} {request : KeyRequest} {grant : Grant}

/-- The checks before the team's limits have passed. -/
structure Admitted (g : Gateway) (request : KeyRequest) (grant : Grant) : Prop where
  policy : grant.policy = getSelfServicePolicy g.teams request.teamId
  owner : request.ownerAccountId = request.scope.accountId
  counted : ∀ maxKeys, grant.policy.maxKeysPerUser = some maxKeys →
    ∃ n, grant.counted = some n ∧ (n : ℤ) < maxKeys
  budget : ∀ ceiling, grant.policy.budgetCeiling = some ceiling →
    request.maxBudget ≠ .null ∧ ∃ budget, floatOf g.builtins request.maxBudget = .ok budget ∧
      floatLt budget (.finite 0) = false ∧ floatLt ceiling budget = false

/-- And so has the check of the expiry, some time ago. -/
def Timely (g : Gateway) (clock : ℤ) (request : KeyRequest) (grant : Grant) : Prop :=
  ∀ days, grant.policy.maxExpiryDays = some days → ∀ text, request.expires = some text →
    text ≠ "" → ∃ read, g.builtins.fromIsoformat (withOffset text) = some read ∧
      read.instant ≤ clock + days * microsecondsPerDay

def PhaseInv (g : Gateway) (clock : ℤ) : Phase → Prop
  | .readingPolicy request => request.ownerAccountId = request.scope.accountId
  | .counting request policy =>
      policy = getSelfServicePolicy g.teams request.teamId ∧
        request.ownerAccountId = request.scope.accountId
  | .readingLimits request grant => Admitted g request grant
  | .inserting request (some grant) => Admitted g request grant ∧ Timely g clock request grant
  | _ => True

theorem PhaseInv.later {phase : Phase} (h : PhaseInv g clock phase) (hle : clock ≤ now) :
    PhaseInv g now phase := by
  cases phase with
  | inserting request grant =>
      cases grant with
      | none => trivial
      | some grant =>
          refine ⟨h.1, fun days hdays text hexpires hgiven => ?_⟩
          obtain ⟨read, hread, hinstant⟩ := h.2 days hdays text hexpires hgiven
          exact ⟨read, hread, by omega⟩
  | _ => exact h

theorem settle_inv {result : Except KeyError Phase}
    (h : ∀ phase, result = .ok phase → PhaseInv g clock phase) :
    PhaseInv g clock (settle result) := by
  cases result with
  | error error => trivial
  | ok phase => exact h phase rfl

theorem afterTeam_inv {phase : Phase} (h : afterTeam g request = .ok phase) :
    PhaseInv g clock phase := by
  obtain ⟨team, -, hteam⟩ := bind_ok_iff.mp h
  obtain ⟨mode, -, hmode⟩ := bind_ok_iff.mp hteam
  cases mode with
  | selfService =>
      cases hmode
      exact rfl
  | admin =>
      cases huser : request.userId with
      | none =>
          simp only [huser] at hmode
          cases hmode
          trivial
      | some userId =>
          simp only [huser] at hmode
          cases hmode
          trivial

theorem afterCount_inv {phase : Phase}
    (hpolicy : grant.policy = getSelfServicePolicy g.teams request.teamId)
    (howner : request.ownerAccountId = request.scope.accountId)
    (hcounted : ∀ maxKeys, grant.policy.maxKeysPerUser = some maxKeys →
      ∃ n, grant.counted = some n ∧ (n : ℤ) < maxKeys)
    (h : afterCount g request grant = .ok phase) : PhaseInv g clock phase := by
  obtain ⟨_, hbudget, hrest⟩ := bind_ok_iff.mp h
  obtain ⟨_, -, hphase⟩ := bind_ok_iff.mp hrest
  cases hphase
  exact ⟨hpolicy, howner, hcounted, fun _ hceiling => checkBudget_ok hbudget hceiling⟩

theorem afterPolicy_inv {phase : Phase}
    (howner : request.ownerAccountId = request.scope.accountId)
    (h : afterPolicy g request = .ok phase) : PhaseInv g clock phase := by
  obtain ⟨_, -, hrest⟩ := bind_ok_iff.mp h
  split_ifs at hrest with hmax
  · cases hrest
    exact ⟨rfl, howner⟩
  · refine afterCount_inv rfl howner (fun maxKeys hmaxKeys => ?_) hrest
    rw [hmaxKeys] at hmax
    exact absurd rfl hmax

theorem afterCounting_inv {policy : SelfServicePolicy} {phase : Phase}
    (hpolicy : policy = getSelfServicePolicy g.teams request.teamId)
    (howner : request.ownerAccountId = request.scope.accountId)
    (h : afterCounting g keys request policy = .ok phase) : PhaseInv g clock phase := by
  obtain ⟨_, hcount, hrest⟩ := bind_ok_iff.mp h
  refine afterCount_inv hpolicy howner (fun maxKeys hmaxKeys => ?_) hrest
  exact ⟨_, rfl, checkCount_ok hcount hmaxKeys⟩

theorem afterLimits_inv {phase : Phase} (hadmitted : Admitted g request grant)
    (h : afterLimits g now request grant = .ok phase) : PhaseInv g now phase := by
  obtain ⟨_, -, hrest⟩ := bind_ok_iff.mp h
  obtain ⟨_, hexpiry, hphase⟩ := bind_ok_iff.mp hrest
  cases hphase
  exact ⟨hadmitted, fun _ hdays _ hexpires hgiven =>
    checkExpiry_ok hexpiry hdays hexpires hgiven⟩

theorem afterSelect_inv {phase : Phase} (h : PhaseInv g now phase) :
    PhaseInv g now (afterSelect g keys now phase) := by
  cases phase with
  | readingTeam request => exact settle_inv fun _ => afterTeam_inv
  | readingPolicy request => exact settle_inv fun _ => afterPolicy_inv h
  | counting request policy => exact settle_inv fun _ => afterCounting_inv h.1 h.2
  | readingLimits request grant => exact settle_inv fun _ => afterLimits_inv h
  | validatingUser request userId =>
      refine settle_inv fun phase hphase => ?_
      obtain ⟨_, -, howner⟩ := bind_ok_iff.mp hphase
      cases howner
      trivial
  | validatingOwner request =>
      refine settle_inv fun phase hphase => ?_
      obtain ⟨owned, -, hinsert⟩ := bind_ok_iff.mp hphase
      cases hinsert
      trivial
  | _ => exact h

end Phases

/-! ## The inserted row -/

section Insertion

variable {g : Gateway} {s : KeyState} {now : ℤ} {token : String} {request : KeyRequest}
  {grant : Grant} {row : KeyRow}

theorem nullable_some {α : Type} {column : JsonValue → Option α} {value : JsonValue}
    {stored : Option α} (h : nullable column value = some stored) (hgiven : value ≠ .null) :
    ∃ x, column value = some x ∧ stored = some x := by
  cases value with
  | null => exact absurd rfl hgiven
  | _ =>
      obtain ⟨x, hx, hstored⟩ := Option.map_eq_some_iff.mp h
      exact ⟨x, hx, hstored.symm⟩

theorem insertedRow_some (h : insertedRow g.columns now token request = some row) :
    nullable g.columns.double request.maxBudget = some row.maxBudget ∧
      storedExpires g.columns.timestamp request.expires = some row.expires ∧
      row.createdAt = now := by
  simp only [insertedRow, Option.bind_eq_bind, Option.bind_eq_some_iff] at h
  obtain ⟨maxBudget, hbudget, limits, -, expires, hexpires, hrow⟩ := h
  cases hrow
  exact ⟨hbudget, hexpires, rfl⟩

/-- One more key of the owner at most. -/
theorem countOwned_append (teamId : String) (accountId : Option String) (keys : List KeyRow)
    (row : KeyRow) :
    countOwned teamId accountId (keys ++ [row]) ≤ countOwned teamId accountId keys + 1 := by
  simp only [countOwned, List.countP_append]
  have hone := List.countP_le_length (l := [row]) (p := fun row =>
    decide (row.teamId = some teamId ∧ accountId.isSome ∧ row.ownerAccountId = accountId))
  rw [List.length_singleton] at hone
  omega

theorem insertedRow_withinPolicy (hadmitted : Admitted g request grant)
    (htimely : Timely g now request grant) (hclean : CleanInsert g s request grant)
    (hrow : insertedRow g.columns now token request = some row) :
    WithinPolicy grant.policy
      ⟨request, row, countOwned request.teamId request.ownerAccountId (s.keys ++ [row])⟩ := by
  obtain ⟨hstored, hexpires, hcreated⟩ := insertedRow_some hrow
  refine ⟨fun maxKeys hmaxKeys => ?_, fun ceiling hceiling => ?_, fun days hdays => ?_⟩
  · obtain ⟨n, hcounted, hbelow⟩ := hadmitted.counted maxKeys hmaxKeys
    have hkeys := hclean.counted n hcounted
    have hone := countOwned_append request.teamId request.scope.accountId s.keys row
    rw [hadmitted.owner]
    simp only
    omega
  · obtain ⟨hgiven, budget, hread, hpositive, hunder⟩ := hadmitted.budget ceiling hceiling
    obtain ⟨hceilingNumber, hnumber⟩ := hclean.budget ceiling hceiling
    obtain ⟨x, hx, hbudget⟩ := nullable_some hstored hgiven
    obtain rfl : x = budget := g.columns.double_floatOf hx hread
    have hbudgetNumber := hnumber x hread
    refine ⟨x, hbudget, ?_, ?_⟩
    · exact floatLe_of_not_lt JsonFloat.noConfusion hbudgetNumber hpositive
    · exact floatLe_of_not_lt hbudgetNumber hceilingNumber hunder
  · have hgiven := hclean.expiry days hdays
    cases htext : request.expires with
    | none =>
        rw [htext] at hgiven
        exact absurd rfl hgiven
    | some text =>
        rw [htext] at hgiven hexpires
        obtain ⟨read, hread, hinstant⟩ := htimely days hdays text htext hgiven
        obtain ⟨expires, hstamp, hrowExpires⟩ := Option.map_eq_some_iff.mp hexpires
        have hoffset := hclean.offset days hdays text htext read expires hread hstamp
        refine ⟨expires, hrowExpires.symm, ?_⟩
        simp only [hcreated]
        omega

end Insertion

/-! ## Runs -/

section Runs

variable {g : Gateway} {s : KeyState}

structure KeysInv (g : Gateway) (s : KeyState) : Prop where
  phases : ∀ pid, PhaseInv g s.clock (s.requests pid)
  kept : PolicyKept g s

theorem moveTo_inv (h : KeysInv g s) (pid : ℕ) {phase : Phase} (hphase : PhaseInv g s.clock phase) :
    KeysInv g (s.moveTo pid phase) := by
  refine ⟨fun other => ?_, h.kept⟩
  by_cases hsame : other = pid
  · subst hsame
    simp only [KeyState.moveTo, Function.update_self]
    exact hphase
  · simp only [KeyState.moveTo, Function.update_of_ne hsame]
    exact h.phases other

theorem tick_inv (h : KeysInv g s) {now : ℤ} (hle : s.clock ≤ now) :
    KeysInv g { s with clock := now } :=
  ⟨fun pid => (h.phases pid).later hle, h.kept⟩

theorem insert_inv (h : KeysInv g s) {pid : ℕ} {request : KeyRequest} {grant : Option Grant}
    (hphase : s.requests pid = .inserting request grant) (token : String)
    (hclean : ∀ granted, grant = some granted → CleanInsert g s request granted) :
    KeysInv g (s.insert g s.clock token request grant pid) := by
  cases hrow : insertedRow g.columns s.clock token request with
  | none =>
      simp only [KeyState.insert, hrow]
      exact moveTo_inv h pid trivial
  | some row =>
      simp only [KeyState.insert, hrow]
      have hmoved : KeysInv g (s.moveTo pid .created) := moveTo_inv h pid trivial
      refine ⟨hmoved.phases, ?_⟩
      have hinv := h.phases pid
      rw [hphase] at hinv
      cases grant with
      | none => exact h.kept
      | some granted =>
          intro creation hcreation
          rcases List.mem_append.mp hcreation with hold | hnew
          · exact h.kept creation hold
          · obtain rfl := List.mem_singleton.mp hnew
            rw [← hinv.1.policy]
            exact insertedRow_withinPolicy hinv.1 hinv.2 (hclean granted rfl) hrow

theorem next_inv (e : KeyEvent) (h : KeysInv g s) (henabled : keyEnabled s e)
    (hclean : CleanStep g s e) : KeysInv g (keyNext g s e) := by
  cases e with
  | start pid scope contextAccountId payload =>
      refine moveTo_inv h pid (settle_inv fun phase hphase => ?_)
      cases hread : readPayload g.builtins scope contextAccountId payload with
      | error error =>
          rw [hread] at hphase
          cases hphase
      | ok request =>
          rw [hread] at hphase
          cases hphase
          trivial
  | statement pid now token =>
      have hlater := tick_inv h henabled.1
      cases hphase : s.requests pid with
      | inserting request grant =>
          simp only [keyNext, hphase]
          refine insert_inv hlater hphase token fun granted hgranted => ?_
          have hinsert := hclean request granted (hgranted ▸ hphase)
          exact ⟨hinsert.counted, hinsert.budget, hinsert.expiry, hinsert.offset⟩
      | _ =>
          simp only [keyNext, hphase]
          refine moveTo_inv hlater pid (afterSelect_inv ?_)
          have hinv := hlater.phases pid
          rw [hphase] at hinv
          exact hinv
  | lost pid => exact moveTo_inv h pid trivial

theorem initial_inv (h : (keySystem g).initial s) : KeysInv g s := by
  obtain ⟨hidle, hnone⟩ := h
  refine ⟨fun pid => ?_, fun creation hcreation => ?_⟩
  · rw [hidle pid]
    trivial
  · rw [hnone] at hcreation
    cases hcreation

end Runs

/-- In every run whose insertions are clean, every key that self-service creates meets the policy of
its team. -/
theorem self_service_policy_kept {g : Gateway} {s : KeyState}
    (h : ReachableBy (keySystem g) (CleanStep g) s) : PolicyKept g s :=
  (ReachableBy.invariant (fun _ => initial_inv) (fun _ e hinv => next_inv e hinv) h).kept

/-! ## Keys in January -/

instance (phase : Phase) : Decidable (phase = .idle) := by
  cases phase
  case idle => exact isTrue rfl
  all_goals exact isFalse Phase.noConfusion

instance (s : KeyState) (e : KeyEvent) : Decidable (keyEnabled s e) := by
  cases e <;> (unfold keyEnabled; exact inferInstance)

instance {g : Gateway} (s : KeyState) (e : KeyEvent) : Decidable ((keySystem g).enabled s e) :=
  inferInstanceAs (Decidable (keyEnabled s e))

def Phase.inserts : Phase → Bool
  | .inserting _ _ => true
  | _ => false

/-- Steps without an INSERT. -/
def Selects (s : KeyState) : KeyEvent → Prop
  | .statement pid _ _ => Phase.inserts (s.requests pid) = false
  | _ => True

instance (s : KeyState) (e : KeyEvent) : Decidable (Selects s e) := by
  cases e <;> (unfold Selects; exact inferInstance)

theorem Selects.clean {g : Gateway} {s : KeyState} {e : KeyEvent} (h : Selects s e) :
    CleanStep g s e := by
  cases e with
  | statement pid now token =>
      intro request grant hphase
      simp [Selects, hphase, Phase.inserts] at h
  | _ => trivial

def newYear : ℤ := (CalendarDates.daysBeforeYear 2026 * microsecondsPerDay : ℕ)

/-- Five hours, the offset of one of the texts. -/
def ahead : ℤ := 5 * 3600 * 1000000

def january : Builtins where
  floatOfInt n := some (.finite n)
  floatOfText _ := none
  textOfOther _ := ""
  fromIsoformat
    | "2026-01-11T00:00:00+00:00" => some ⟨newYear + 10 * microsecondsPerDay, some 0⟩
    | "2026-01-31T05:00:00+05:00" => some ⟨newYear + 30 * microsecondsPerDay + ahead, some ahead⟩
    | _ => none

def januaryColumns : Columns january where
  double
    | .int n => some (.finite n)
    | _ => none
  integer
    | .int n => some n
    | _ => none
  timestamp
    | "2026-01-11T00:00:00Z" => some (newYear + 10 * microsecondsPerDay)
    | "2026-01-31T05:00:00+05:00" => some (newYear + 30 * microsecondsPerDay + ahead)
    | _ => none
  double_floatOf {value stored read} hstored hread := by
    cases value with
    | int n =>
        cases hstored
        cases hread
        rfl
    | _ => cases hstored

def policy : SelfServicePolicy := ⟨true, some 1, some (.finite 50), false, some 30⟩

def gateway : Gateway :=
  { builtins := january, columns := januaryColumns
    teams := [⟨"team-1", none, policy, ⟨none, none, none, none, none⟩⟩]
    accountIds := ["account-1"], serviceAccounts := [], users := [] }

def developer : AuthScope :=
  { isPlatformAdmin := false, accountId := some "account-1", orgPermissionsById := fun _ => []
    teamPermissionsById := fun teamId => if teamId = "team-1" then [.keyCreateSelf] else [] }

def lasting : JsonObject :=
  [("key_name", .str "laptop"), ("team_id", .str "team-1"), ("max_budget", .int 20)]

def expiring (expires : String) : JsonObject := lasting ++ [("expires", .str expires)]

def noKeys : KeyState :=
  { keys := [], requests := fun _ => .idle, clock := newYear, selfCreations := [] }

theorem noKeys_initial : (keySystem gateway).initial noKeys := ⟨fun _ => rfl, rfl⟩

/-- A request up to its INSERT. -/
def checked (pid : ℕ) (payload : JsonObject) : List KeyEvent :=
  .start pid developer (some "account-1") payload ::
    List.replicate 4 (.statement pid newYear "unused")

def store (pid : ℕ) (token : String) : KeyEvent := .statement pid newYear token

def afterRun (es : List KeyEvent) : KeyState := es.foldl (keyNext gateway) noKeys

def laptopRequest : KeyRequest :=
  { scope := developer, contextAccountId := some "account-1", keyName := "laptop", userId := none
    teamId := "team-1", ownerAccountId := some "account-1", ownerServiceAccountId := none
    maxBudget := .int 20, limits := ⟨.null, .null, .null, .null, .null⟩
    expires := some "2026-01-11T00:00:00Z" }

theorem checked_inserting :
    (afterRun (checked 0 (expiring "2026-01-11T00:00:00Z"))).requests 0 =
      .inserting laptopRequest (some ⟨policy, some 0⟩) := rfl

theorem laptopRequest_clean :
    CleanInsert gateway (afterRun (checked 0 (expiring "2026-01-11T00:00:00Z"))) laptopRequest
      ⟨policy, some 0⟩ := by
  refine ⟨?_, ?_, ?_, ?_⟩
  · rintro n ⟨⟩
    decide +kernel
  · rintro ceiling ⟨⟩
    refine ⟨JsonFloat.noConfusion, ?_⟩
    rintro budget ⟨⟩
    exact JsonFloat.noConfusion
  · rintro days -
    decide
  · rintro days - text ⟨⟩ read stored hread hstored
    obtain rfl : ⟨newYear + 10 * microsecondsPerDay, some 0⟩ = read := Option.some.inj hread
    obtain rfl : newYear + 10 * microsecondsPerDay = stored := Option.some.inj hstored
    decide +kernel

theorem self_service_policy_kept_once :
    ReachableBy (keySystem gateway) (CleanStep gateway)
        (keyNext gateway (afterRun (checked 0 (expiring "2026-01-11T00:00:00Z")))
          (store 0 "token-1")) ∧
      PolicyKept gateway
        (keyNext gateway (afterRun (checked 0 (expiring "2026-01-11T00:00:00Z")))
          (store 0 "token-1")) := by
  have hchecks : Fires (keySystem gateway) Selects noKeys
      (checked 0 (expiring "2026-01-11T00:00:00Z")) := by
    decide +kernel
  have hselected : ReachableBy (keySystem gateway) (CleanStep gateway)
      (afterRun (checked 0 (expiring "2026-01-11T00:00:00Z"))) :=
    (ReachableBy.initial noKeys_initial).fires (hchecks.mono fun _ _ => Selects.clean)
  have hreach := hselected.step (e := store 0 "token-1") ⟨by decide +kernel, by decide +kernel⟩ (by
    rintro request grant hphase
    cases checked_inserting.symm.trans hphase
    exact laptopRequest_clean)
  exact ⟨hreach, self_service_policy_kept hreach⟩

/-- Two requests that count before either inserts leave two keys under a maximum of one; a request
without an expiry, or with an offset, passes a limit of 30 days. -/
theorem self_service_policy_broken :
    policy.maxKeysPerUser = some 1 ∧ policy.maxExpiryDays = some 30 ∧
    (∃ s, Reachable (keySystem gateway) s ∧ ∃ creation ∈ s.selfCreations,
      creation.ownedAfter = 2) ∧
    (∃ s, Reachable (keySystem gateway) s ∧ ∃ creation ∈ s.selfCreations,
      creation.row.expires = none) ∧
    ∃ s, Reachable (keySystem gateway) s ∧ ∃ creation ∈ s.selfCreations, ∃ expires,
      creation.row.expires = some expires ∧
        creation.row.createdAt + 30 * microsecondsPerDay < expires := by
  have hrun : ∀ es, Fires (keySystem gateway) (fun _ _ => True) noKeys es →
      Reachable (keySystem gateway) (afterRun es) := fun es hes =>
    (ReachableBy.initial noKeys_initial).fires hes
  refine ⟨rfl, rfl,
    ⟨_, hrun (checked 0 lasting ++ checked 1 lasting ++ [store 0 "token-1", store 1 "token-2"])
      (by decide +kernel), _, List.mem_cons_of_mem _ List.mem_cons_self, by decide +kernel⟩,
    ⟨_, hrun (checked 0 lasting ++ [store 0 "token-1"]) (by decide +kernel), _,
      List.mem_cons_self, rfl⟩,
    _, hrun (checked 0 (expiring "2026-01-31T05:00:00+05:00") ++ [store 0 "token-1"])
      (by decide +kernel), _, List.mem_cons_self, _, rfl, by decide +kernel⟩

end SelfServiceKeys
