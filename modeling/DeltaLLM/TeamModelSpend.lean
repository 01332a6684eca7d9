import Mathlib.Algebra.BigOperators.Group.List.Basic
import Mathlib.Algebra.Order.BigOperators.Group.List
import Mathlib.Algebra.Order.Field.Rat
import Mathlib.Logic.Function.Basic
import Mathlib.Tactic.Linarith
import Mathlib.Tactic.Ring
import DeltaLLM.TransitionRuns

/-! # The spend of a team on a model

A request first writes its event and then adds its cost to the counter of the team and the model.
The budget check reads the counter, or the sum of the events where there is no counter yet.
-/
namespace TeamModelSpend

open TransitionRuns

inductive EventStatus where
  | success | error
  deriving DecidableEq, Repr

/-- A row of the spend log. -/
structure SpendEvent where
  teamId : Option String
  model : String
  spend : ℚ
  status : EventStatus
  deriving DecidableEq

/-- A request between its event and its counters; `written` is false where the event was not
stored. -/
structure Recording where
  teamId : Option String
  model : String
  cost : ℚ
  written : Bool
  deriving DecidableEq

structure State where
  events : List SpendEvent
  counters : String → String → Option ℚ
  started : List Recording

/-- `logSpend` and `logRequestFailure` write the event, `incrementSpend` the counter; a statement
that raises is logged and passed over. -/
inductive Event where
  | logSpend (teamId : Option String) (model : String) (cost : ℚ) (written : Bool)
  | logRequestFailure (teamId : Option String) (model : String) (written : Bool)
  | incrementSpend (recording : Recording) (applied : Bool)

/-- The counter's statement: a new row starts at the amount, an old one grows by it. -/
def upsertCounter (counters : String → String → Option ℚ) (teamId model : String) (amount : ℚ) :
    String → String → Option ℚ :=
  Function.update counters teamId
    (Function.update (counters teamId) model
      (some ((counters teamId model).elim amount (· + amount))))

/-- `_increment_team_model_counter` as `increment_spend` calls it. -/
def incrementTeamModelCounter (counters : String → String → Option ℚ) (teamId : Option String)
    (model : String) (cost : ℚ) : String → String → Option ℚ :=
  if cost ≤ 0 then counters
  else
    match teamId with
    | none => counters
    | some team => if team = "" ∨ model = "" then counters
        else upsertCounter counters team model cost

def writeEvent (events : List SpendEvent) (event : SpendEvent) (written : Bool) : List SpendEvent :=
  if written then events ++ [event] else events

def next (s : State) : Event → State
  | .logSpend teamId model cost written =>
      { s with
        events := writeEvent s.events ⟨teamId, model, cost, .success⟩ written
        started := ⟨teamId, model, cost, written⟩ :: s.started }
  | .logRequestFailure teamId model written =>
      { s with events := writeEvent s.events ⟨teamId, model, 0, .error⟩ written }
  | .incrementSpend recording applied =>
      { s with
        counters :=
          if applied then
            incrementTeamModelCounter s.counters recording.teamId recording.model recording.cost
          else s.counters
        started := s.started.erase recording }

def Enabled (s : State) : Event → Prop
  | .incrementSpend recording _ => recording ∈ s.started
  | _ => True

/-- Requests over a log whose events came before any counter. -/
def ledger : TransitionSystem State Event where
  initial s := (∀ teamId model, s.counters teamId model = none) ∧ s.started = [] ∧
    ∀ event ∈ s.events, 0 ≤ event.spend ∧ (event.status = .error → event.spend = 0)
  enabled := Enabled
  next := next

/-- `SUM(spend)` over the events of the team and the model. -/
def loggedSpend (events : List SpendEvent) (teamId model : String) : ℚ :=
  ((events.filter fun event => event.teamId = some teamId ∧ event.model = model).map (·.spend)).sum

/-- The spend that `_check_team_model_budget` compares. -/
def currentSpend (s : State) (teamId model : String) : ℚ :=
  match s.counters teamId model with
  | some spend => spend
  | none => loggedSpend s.events teamId model

/-- `_check_team_model_budget` raises. -/
def budgetExceeded (s : State) (teamId model : String) (maxBudget : Option ℚ) : Bool :=
  maxBudget.any (· ≤ currentSpend s teamId model)

/-- The successful spend recorded for the team and the model. -/
def recordedSpend (events : List SpendEvent) (teamId model : String) : ℚ :=
  ((events.filter fun event =>
    event.teamId = some teamId ∧ event.model = model ∧ event.status = .success).map (·.spend)).sum

/-- What was logged for the team and the model and is not counted yet. -/
def uncountedSpend (started : List Recording) (teamId model : String) : ℚ :=
  ((started.filter fun recording =>
    recording.teamId = some teamId ∧ recording.model = model ∧ recording.written = true).map
      (·.cost)).sum

/-- The recording adds to the counter of the team and the model. -/
def Recording.Counts (recording : Recording) (teamId model : String) : Prop :=
  recording.teamId = some teamId ∧ recording.model = model ∧ 0 < recording.cost ∧ teamId ≠ "" ∧
    model ≠ ""

/-- A step that loses no spend: costs are not negative, a counter takes the cost of a logged request
and of no other, and the first cost it takes is all that was logged. -/
def KeepsSpend (s : State) : Event → Prop
  | .logSpend _ _ cost _ => 0 ≤ cost
  | .logRequestFailure _ _ _ => True
  | .incrementSpend recording applied => ∀ teamId model, recording.Counts teamId model →
      (applied = true → recording.written = true) ∧
        if (s.counters teamId model).isSome then recording.written = true → applied = true
        else applied = true → loggedSpend s.events teamId model = recording.cost

/-! ## What a statement does to a counter -/

section

variable {counters : String → String → Option ℚ} {recording : Recording} {teamId model : String}

theorem incrementTeamModelCounter_of_counts (h : recording.Counts teamId model) :
    incrementTeamModelCounter counters recording.teamId recording.model recording.cost teamId model =
      some ((counters teamId model).elim recording.cost (· + recording.cost)) := by
  obtain ⟨hteam, hmodel, hcost, hteamId, hmodelName⟩ := h
  simp [incrementTeamModelCounter, upsertCounter, hteam, hmodel, hteamId, hmodelName,
    not_le.mpr hcost]

theorem incrementTeamModelCounter_of_not_counts (h : ¬recording.Counts teamId model) :
    incrementTeamModelCounter counters recording.teamId recording.model recording.cost teamId model =
      counters teamId model := by
  unfold incrementTeamModelCounter
  by_cases hcost : recording.cost ≤ 0
  · rw [if_pos hcost]
  · rw [if_neg hcost]
    cases hteam : recording.teamId with
    | none => rfl
    | some team =>
        simp only
        by_cases hnames : team = "" ∨ recording.model = ""
        · rw [if_pos hnames]
        · rw [if_neg hnames, upsertCounter]
          rw [not_or] at hnames
          by_cases hteamId : teamId = team
          · subst hteamId
            by_cases hmodel : model = recording.model
            · subst hmodel
              exact absurd ⟨hteam, rfl, not_le.mp hcost, hnames⟩ h
            · simp [hmodel]
          · simp [hteamId]

end

/-! ## The sums -/

section

variable {teamId model : String}

theorem loggedSpend_writeEvent (events : List SpendEvent) (event : SpendEvent) (written : Bool) :
    loggedSpend (writeEvent events event written) teamId model =
      loggedSpend events teamId model +
        if event.teamId = some teamId ∧ event.model = model ∧ written = true then event.spend
        else 0 := by
  unfold loggedSpend writeEvent
  cases written with
  | false => simp
  | true =>
      by_cases hmatch : event.teamId = some teamId ∧ event.model = model
      · simp [List.filter_append, hmatch]
      · have hnone : ¬(event.teamId = some teamId ∧ event.model = model ∧ true = true) :=
          fun h => hmatch ⟨h.1, h.2.1⟩
        rw [if_neg hnone]
        simp [List.filter_append, hmatch]

/-- Failed requests spend nothing, so the sum over all events is the successful spend. -/
theorem recordedSpend_eq {events : List SpendEvent}
    (h : ∀ event ∈ events, event.status = .error → event.spend = 0) :
    recordedSpend events teamId model = loggedSpend events teamId model := by
  unfold recordedSpend loggedSpend
  induction events with
  | nil => rfl
  | cons event events ih =>
      have ih := ih fun other hmem => h other (List.mem_cons_of_mem _ hmem)
      by_cases hmatch : event.teamId = some teamId ∧ event.model = model
      · cases hstatus : event.status with
        | success => simpa [List.filter_cons, hmatch, hstatus] using ih
        | error =>
            have hzero := h event List.mem_cons_self hstatus
            simpa [List.filter_cons, hmatch, hstatus, hzero] using ih
      · have hmatch' : ¬(event.teamId = some teamId ∧ event.model = model ∧
            event.status = .success) := fun h => hmatch ⟨h.1, h.2.1⟩
        simpa [List.filter_cons, hmatch, hmatch'] using ih

theorem uncountedSpend_cons (recording : Recording) (started : List Recording) :
    uncountedSpend (recording :: started) teamId model =
      (if recording.teamId = some teamId ∧ recording.model = model ∧ recording.written = true then
        recording.cost else 0) + uncountedSpend started teamId model := by
  unfold uncountedSpend
  rw [List.filter_cons]
  by_cases hmatch : recording.teamId = some teamId ∧ recording.model = model ∧
      recording.written = true
  · simp [hmatch]
  · rw [if_neg hmatch, if_neg (by simpa using hmatch), zero_add]

variable (teamId model) in
theorem uncountedSpend_erase {recording : Recording} {started : List Recording}
    (h : recording ∈ started) :
    uncountedSpend started teamId model =
      (if recording.teamId = some teamId ∧ recording.model = model ∧ recording.written = true then
        recording.cost else 0) + uncountedSpend (started.erase recording) teamId model := by
  rw [← uncountedSpend_cons]
  exact (((List.perm_cons_erase h).filter _).map _).sum_eq

variable (teamId model) in
theorem uncountedSpend_nonneg {started : List Recording}
    (h : ∀ recording ∈ started, 0 ≤ recording.cost) : 0 ≤ uncountedSpend started teamId model := by
  apply List.sum_nonneg
  intro cost hcost
  obtain ⟨recording, hmem, rfl⟩ := List.mem_map.mp hcost
  exact h recording (List.mem_filter.mp hmem).1

end

/-! ## Spend is kept -/

/-- The counters and the requests under way account for everything that was logged. -/
structure Accounted (s : State) : Prop where
  events : ∀ event ∈ s.events, event.status = .error → event.spend = 0
  costs : ∀ recording ∈ s.started, 0 ≤ recording.cost
  named : ∀ teamId model spend, s.counters teamId model = some spend → teamId ≠ "" ∧ model ≠ ""
  logged : ∀ teamId model, uncountedSpend s.started teamId model ≤ loggedSpend s.events teamId model
  counted : ∀ teamId model spend, s.counters teamId model = some spend →
    spend + uncountedSpend s.started teamId model = loggedSpend s.events teamId model

theorem writeEvent_events {events : List SpendEvent} {event : SpendEvent} {written : Bool}
    (h : ∀ event ∈ events, event.status = .error → event.spend = 0)
    (hevent : event.status = .error → event.spend = 0) :
    ∀ other ∈ writeEvent events event written, other.status = .error → other.spend = 0 := by
  intro other hmem
  cases written with
  | false => exact h other hmem
  | true =>
      rcases List.mem_append.mp hmem with hold | hnew
      · exact h other hold
      · rwa [List.mem_singleton.mp hnew]

theorem logRequestFailure_accounted {s : State} (h : Accounted s) (teamId : Option String)
    (model : String) (written : Bool) :
    Accounted (next s (.logRequestFailure teamId model written)) := by
  have hsame : ∀ team name,
    loggedSpend (writeEvent s.events ⟨teamId, model, 0, .error⟩ written) team
      name = loggedSpend s.events team name := by
    intro team name
    rw [loggedSpend_writeEvent]
    simp
  refine ⟨writeEvent_events h.events fun _ => rfl, h.costs, h.named, ?_, ?_⟩
  · intro team name
    exact (h.logged team name).trans_eq (hsame team name).symm
  · intro team name spend hspend
    exact (h.counted team name spend hspend).trans (hsame team name).symm

theorem logSpend_accounted {s : State} (h : Accounted s) {teamId : Option String} {model : String}
    {cost : ℚ} (hcost : 0 ≤ cost) (written : Bool) :
    Accounted (next s (.logSpend teamId model cost written)) := by
  have hsums : ∀ team name,
      loggedSpend (next s (.logSpend teamId model cost written)).events team name -
        uncountedSpend (next s (.logSpend teamId model cost written)).started team name =
      loggedSpend s.events team name - uncountedSpend s.started team name := by
    intro team name
    change loggedSpend (writeEvent s.events ⟨teamId, model, cost, .success⟩ written) team name -
      uncountedSpend (⟨teamId, model, cost, written⟩ :: s.started) team name = _
    rw [loggedSpend_writeEvent, uncountedSpend_cons]
    ring
  refine ⟨writeEvent_events h.events (by intro herror; cases herror), ?_, h.named, ?_, ?_⟩
  · intro recording hmem
    rcases List.mem_cons.mp hmem with rfl | hold
    · exact hcost
    · exact h.costs recording hold
  · intro team name
    have hsum := hsums team name
    have hlogged := h.logged team name
    linarith
  · intro team name spend hspend
    have hsum := hsums team name
    have hcounted := h.counted team name spend hspend
    linarith

theorem incrementSpend_accounted {s : State} (h : Accounted s) {recording : Recording}
    (hmem : recording ∈ s.started) {applied : Bool}
    (hkeeps : KeepsSpend s (.incrementSpend recording applied)) :
    Accounted (next s (.incrementSpend recording applied)) := by
  have hcost := h.costs recording hmem
  have hcosts : ∀ other ∈ s.started.erase recording, 0 ≤ other.cost :=
    fun other hother => h.costs other (List.mem_of_mem_erase hother)
  have hcounters : ∀ team name, ¬recording.Counts team name →
      (next s (.incrementSpend recording applied)).counters team name = s.counters team name := by
    intro team name hcounts
    cases applied with
    | false => rfl
    | true => exact incrementTeamModelCounter_of_not_counts hcounts
  refine ⟨h.events, hcosts, ?_, ?_, ?_⟩
  · intro team name spend hspend
    by_cases hcounts : recording.Counts team name
    · exact ⟨hcounts.2.2.2.1, hcounts.2.2.2.2⟩
    · exact h.named team name spend ((hcounters team name hcounts).symm.trans hspend)
  · intro team name
    have hlogged := h.logged team name
    rw [uncountedSpend_erase team name hmem] at hlogged
    change uncountedSpend (s.started.erase recording) team name ≤ loggedSpend s.events team name
    split at hlogged <;> linarith
  · intro team name spend hspend
    change spend + uncountedSpend (s.started.erase recording) team name =
      loggedSpend s.events team name
    have herase := uncountedSpend_erase team name hmem
    by_cases hcounts : recording.Counts team name
    · obtain ⟨hwritten, hrow⟩ := hkeeps team name hcounts
      cases hold : s.counters team name with
      | none =>
          cases applied with
          | false =>
              change s.counters team name = some spend at hspend
              rw [hold] at hspend
              cases hspend
          | true =>
              change incrementTeamModelCounter _ _ _ _ team name = some spend at hspend
              rw [incrementTeamModelCounter_of_counts hcounts, hold] at hspend
              obtain rfl : recording.cost = spend := Option.some.inj hspend
              have hfirst : loggedSpend s.events team name = recording.cost := by
                simpa [hold] using hrow
              -- nothing else is logged, so nothing else is under way
              have hlogged := h.logged team name
              have hnonneg := uncountedSpend_nonneg team name hcosts
              rw [if_pos ⟨hcounts.1, hcounts.2.1, hwritten rfl⟩] at herase
              linarith
      | some before =>
          have hcounted := h.counted team name before hold
          cases applied with
          | false =>
              have hunwritten : ¬recording.written = true := by
                intro hw
                simp [hold, hw] at hrow
              change s.counters team name = some spend at hspend
              rw [hold, Option.some.injEq] at hspend
              rw [if_neg fun hmatch => hunwritten hmatch.2.2] at herase
              linarith
          | true =>
              change incrementTeamModelCounter _ _ _ _ team name = some spend at hspend
              rw [incrementTeamModelCounter_of_counts hcounts, hold] at hspend
              obtain rfl : before + recording.cost = spend := Option.some.inj hspend
              rw [if_pos ⟨hcounts.1, hcounts.2.1, hwritten rfl⟩] at herase
              linarith
    · rw [hcounters team name hcounts] at hspend
      have hcounted := h.counted team name spend hspend
      have hnames := h.named team name spend hspend
      split at herase
      · rename_i hmatch
        have hzero : recording.cost = 0 := by
          by_contra hne
          exact hcounts ⟨hmatch.1, hmatch.2.1, lt_of_le_of_ne hcost (Ne.symm hne), hnames⟩
        linarith
      · linarith

theorem next_accounted {s : State} (h : Accounted s) {e : Event} (henabled : Enabled s e)
    (hkeeps : KeepsSpend s e) : Accounted (next s e) := by
  cases e with
  | logSpend teamId model cost written => exact logSpend_accounted h hkeeps written
  | logRequestFailure teamId model written =>
      exact logRequestFailure_accounted h teamId model written
  | incrementSpend recording applied => exact incrementSpend_accounted h henabled hkeeps

theorem reachable_accounted {s : State} (hs : ReachableBy ledger KeepsSpend s) : Accounted s := by
  refine ReachableBy.invariant (P := Accounted) ?_ (fun s e h henabled hkeeps =>
    next_accounted h henabled hkeeps) hs
  rintro s ⟨hcounters, hstarted, hevents⟩
  refine ⟨fun event hmem => (hevents event hmem).2, ?_, ?_, ?_, ?_⟩
  · simp [hstarted]
  · intro teamId model spend hspend
    rw [hcounters] at hspend
    cases hspend
  · intro teamId model
    rw [hstarted]
    apply List.sum_nonneg
    intro spend hspend
    obtain ⟨event, hmem, rfl⟩ := List.mem_map.mp hspend
    exact (hevents event (List.mem_filter.mp hmem).1).1
  · intro teamId model spend hspend
    rw [hcounters] at hspend
    cases hspend

/-- A step that keeps spend never lowers what the budget is compared with. -/
theorem currentSpend_next {s : State} {e : Event} (hkeeps : KeepsSpend s e)
    (teamId model : String) :
    currentSpend s teamId model ≤ currentSpend (next s e) teamId model := by
  unfold currentSpend
  cases e with
  | logRequestFailure team name written =>
      change _ ≤ match s.counters teamId model with
        | some spend => spend
        | none => loggedSpend (writeEvent s.events _ written) teamId model
      rw [loggedSpend_writeEvent]
      simp
  | logSpend team name cost written =>
      change _ ≤ match s.counters teamId model with
        | some spend => spend
        | none => loggedSpend (writeEvent s.events _ written) teamId model
      rw [loggedSpend_writeEvent]
      have hcost : 0 ≤ cost := hkeeps
      cases s.counters teamId model with
      | some spend => exact le_rfl
      | none =>
          simp only
          split <;> linarith
  | incrementSpend recording applied =>
      cases applied with
      | false => exact le_rfl
      | true =>
          change _ ≤ match incrementTeamModelCounter s.counters recording.teamId recording.model
              recording.cost teamId model with
            | some spend => spend
            | none => loggedSpend s.events teamId model
          by_cases hcounts : recording.Counts teamId model
          · rw [incrementTeamModelCounter_of_counts hcounts]
            have hrow := (hkeeps teamId model hcounts).2
            have hcost := hcounts.2.2.1
            cases hold : s.counters teamId model with
            | some before =>
                simp only [Option.elim_some]
                linarith
            | none =>
                rw [hold] at hrow
                exact le_of_eq (hrow rfl)
          · rw [incrementTeamModelCounter_of_not_counts hcounts]

/-- Where every step keeps spend, the spend compared with the budget is what was recorded, up to
requests whose cost is about to be counted, and it never falls: a budget that is exceeded stays
exceeded. -/
theorem team_model_spend_kept {s : State} (hs : ReachableBy ledger KeepsSpend s)
    (teamId model : String) :
    (currentSpend s teamId model + (if (s.counters teamId model).isSome then
        uncountedSpend s.started teamId model else 0) = recordedSpend s.events teamId model) ∧
      ((∀ recording ∈ s.started, recording.teamId = some teamId → recording.model ≠ model) →
        currentSpend s teamId model = recordedSpend s.events teamId model) ∧
      ∀ es, Fires ledger KeepsSpend s es →
        currentSpend s teamId model ≤ currentSpend (es.foldl next s) teamId model ∧
          ∀ maxBudget, budgetExceeded s teamId model maxBudget = true →
            budgetExceeded (es.foldl next s) teamId model maxBudget = true := by
  have h := reachable_accounted hs
  have hsum : currentSpend s teamId model + (if (s.counters teamId model).isSome then
      uncountedSpend s.started teamId model else 0) = recordedSpend s.events teamId model := by
    rw [recordedSpend_eq h.events]
    unfold currentSpend
    cases hrow : s.counters teamId model with
    | none => simp
    | some spend => simpa using h.counted teamId model spend hrow
  refine ⟨hsum, ?_, ?_⟩
  · intro hidle
    have hnone : uncountedSpend s.started teamId model = 0 := by
      unfold uncountedSpend
      rw [List.filter_eq_nil_iff.mpr]
      · rfl
      · intro recording hmem hmatch
        rw [decide_eq_true_eq] at hmatch
        exact hidle recording hmem hmatch.1 hmatch.2.1
    rw [hnone] at hsum
    simpa using hsum
  · intro es hfires
    have hle : currentSpend s teamId model ≤ currentSpend (es.foldl next s) teamId model := by
      clear h hsum hs
      induction es generalizing s with
      | nil => exact le_rfl
      | cons e es ih =>
          obtain ⟨-, hkeeps, hrest⟩ := hfires
          exact (currentSpend_next hkeeps teamId model).trans (ih hrest)
    refine ⟨hle, fun maxBudget hexceeded => ?_⟩
    unfold budgetExceeded at hexceeded ⊢
    cases maxBudget with
    | none => cases hexceeded
    | some budget =>
        simp only [Option.any_some, decide_eq_true_eq] at hexceeded ⊢
        exact hexceeded.trans hle

namespace EarlierEvents

/-- An event that was logged before there were counters. -/
def earlier : SpendEvent := ⟨some "research", "gpt", 5, .success⟩

def upgraded : State := ⟨[earlier], fun _ _ => none, []⟩

def fresh : State := ⟨[], fun _ _ => none, []⟩

def request : Recording := ⟨some "research", "gpt", 2, true⟩

def events : List Event :=
  [.logSpend (some "research") "gpt" 2 true, .incrementSpend request true]

theorem upgraded_initial : ledger.initial upgraded := by
  refine ⟨fun _ _ => rfl, rfl, fun event hmem => ?_⟩
  rw [List.mem_singleton.mp hmem]
  exact ⟨by decide, fun herror => by cases herror⟩

theorem fresh_initial : ledger.initial fresh := by
  refine ⟨fun _ _ => rfl, rfl, fun event hmem => ?_⟩
  cases hmem

theorem fresh_keeps : Fires ledger KeepsSpend fresh events := by
  refine ⟨trivial, (by decide : (0 : ℚ) ≤ 2), List.mem_singleton.mpr rfl, ?_, trivial⟩
  rintro teamId model ⟨hteam, rfl, -⟩
  rw [request, Option.some.injEq] at hteam
  subst hteam
  exact ⟨fun _ => rfl, by decide +kernel⟩

end EarlierEvents

open EarlierEvents in
theorem team_model_spend_kept_fresh :
    currentSpend (events.foldl next fresh) "research" "gpt" =
      recordedSpend (events.foldl next fresh).events "research" "gpt" :=
  (team_model_spend_kept (.fires (.initial fresh_initial) fresh_keeps) "research" "gpt").2.1
    fun _ hmem => absurd hmem List.not_mem_nil

open EarlierEvents in
/-- The first counted cost makes the check forget the earlier event: a budget of 6 that was exceeded
while the second event was only logged is not exceeded any more. -/
theorem earlier_event_forgotten :
    ledger.initial upgraded ∧ Fires ledger (fun _ _ => True) upgraded events ∧
      (events.foldl next upgraded).started = [] ∧
      currentSpend (events.foldl next upgraded) "research" "gpt" ≠
        recordedSpend (events.foldl next upgraded).events "research" "gpt" ∧
      budgetExceeded ((events.take 1).foldl next upgraded) "research" "gpt" (some 6) = true ∧
      budgetExceeded (events.foldl next upgraded) "research" "gpt" (some 6) = false := by
  refine ⟨upgraded_initial, ⟨trivial, trivial, List.mem_singleton.mpr rfl, trivial, trivial⟩,
    ?_, ?_, ?_,
    ?_⟩ <;> decide +kernel

end TeamModelSpend
