import Mathlib.Logic.Function.Basic
import DeltaLLM.BudgetPeriods
import DeltaLLM.TransitionRuns

/-! # Budget resets

Checks of any number of instances read an entity, compute its next reset and reset it if its reset
time is still the one they read, while spend is added to it at any moment.
-/
namespace BudgetResets

open JsonValues CalendarDates BudgetPeriods TransitionRuns

inductive EntityType where
  | key | user | team | org
  deriving DecidableEq, Repr

variable {Money CheckId : Type*}

/-- What a check reads of a row. -/
structure Entity (Money : Type*) where
  spend : Option Money
  budgetDuration : Option String
  budgetResetAt : Option DateTime
  metadata : Option JsonObject

/-- What a check is going to write. -/
structure PlannedReset where
  resetAt : DateTime
  nextReset : DateTime
  inferredMonthlyAnchorDay : Option ℕ

/-- The first part of `_check_budget_reset`: none where there is nothing to reset. -/
def plannedReset (entity : Entity Money) (now : DateTime) : Option PlannedReset :=
  match entity.budgetDuration, entity.budgetResetAt with
  | some duration, some resetAt =>
      if duration = "" ∨ now < resetAt then none
      else
        let anchorDay := monthlyAnchorDay entity.metadata
        let inferred :=
          if anchorDay = none ∧ durationUnit duration = some .month then some resetAt.date.day
          else none
        (nextResetAfter duration resetAt now (anchorDay.or inferred)).map
          (⟨resetAt, ·, inferred⟩)
  | _, _ => none

theorem plannedReset_lt {entity : Entity Money} {now : DateTime} {planned : PlannedReset}
    (h : plannedReset entity now = some planned) : planned.resetAt < planned.nextReset := by
  unfold plannedReset at h
  split at h
  · split at h
    · cases h
    · rename_i hdue
      rw [not_or, not_lt] at hdue
      obtain ⟨nextReset, hnext, rfl⟩ := Option.map_eq_some_iff.mp h
      exact (nextResetAfter_lt hdue.2 hnext).1
  · cases h

/-- The update of `_check_budget_reset`, which leaves a row with another reset time alone. -/
def PlannedReset.update [Zero Money] (planned : PlannedReset) (row : Entity Money) : Entity Money :=
  if row.budgetResetAt = some planned.resetAt then
    { row with
      spend := some 0
      budgetResetAt := some planned.nextReset
      metadata := match planned.inferredMonthlyAnchorDay with
        | none => row.metadata
        | some day => some (withMonthlyAnchorDay row.metadata day) }
  else row

/-- The update of `_increment_table`. -/
def incrementTable [Zero Money] [Add Money] (amount : Money) (row : Entity Money) : Entity Money :=
  { row with spend := some (row.spend.getD 0 + amount) }

/-! ## Interleavings -/

/-- What happened to the spend of an entity. -/
inductive Commit (Money : Type*) where
  | increment (amount : Money)
  | reset (boundary nextReset : DateTime)

/-- `committed` is the history of each entity; no step reads it. -/
structure State (Money CheckId : Type*) where
  rows : EntityType → String → Option (Entity Money)
  read : CheckId → Option (EntityType × String × Entity Money)
  committed : EntityType → String → List (Commit Money)

inductive Event (Money CheckId : Type*) where
  | getEntity (check : CheckId) (entityType : EntityType) (entityId : String)
  | checkBudgetReset (check : CheckId) (now : DateTime)
  | increment (entityType : EntityType) (entityId : String) (amount : Money)

/-- A statement on one row, with what it does to the row's spend. -/
def State.write (s : State Money CheckId) (entityType : EntityType) (entityId : String)
    (update : Entity Money → Entity Money) (commits : Entity Money → List (Commit Money)) :
    State Money CheckId :=
  match s.rows entityType entityId with
  | none => s
  | some row =>
      { s with
        rows := Function.update s.rows entityType
          (Function.update (s.rows entityType) entityId (some (update row)))
        committed := Function.update s.committed entityType
          (Function.update (s.committed entityType) entityId
            (s.committed entityType entityId ++ commits row)) }

theorem write_entity (s : State Money CheckId) (entityType entityType' : EntityType)
    (entityId entityId' : String) (update : Entity Money → Entity Money)
    (commits : Entity Money → List (Commit Money)) :
    ((s.write entityType entityId update commits).rows entityType' entityId' =
        s.rows entityType' entityId' ∧
      (s.write entityType entityId update commits).committed entityType' entityId' =
        s.committed entityType' entityId') ∨
    ∃ row, s.rows entityType' entityId' = some row ∧
      (s.write entityType entityId update commits).rows entityType' entityId' = some (update row) ∧
      (s.write entityType entityId update commits).committed entityType' entityId' =
        s.committed entityType' entityId' ++ commits row := by
  unfold State.write
  split
  · exact .inl ⟨rfl, rfl⟩
  · rename_i row hrow
    by_cases htype : entityType' = entityType
    · subst htype
      by_cases hid : entityId' = entityId
      · subst hid
        exact .inr ⟨row, hrow, by simp, by simp⟩
      · exact .inl ⟨by simp [hid], by simp [hid]⟩
    · exact .inl ⟨by simp [htype], by simp [htype]⟩

def PlannedReset.commits (planned : PlannedReset) (row : Entity Money) : List (Commit Money) :=
  if row.budgetResetAt =
    some planned.resetAt then [.reset planned.resetAt planned.nextReset] else []

variable [Zero Money] [Add Money] [DecidableEq CheckId]

def Enabled (s : State Money CheckId) : Event Money CheckId → Prop
  | .getEntity check _ _ => (s.read check).isNone
  | .checkBudgetReset check _ => (s.read check).isSome
  | .increment _ _ _ => True

def next (s : State Money CheckId) : Event Money CheckId → State Money CheckId
  | .getEntity check entityType entityId =>
      { s with
        read := Function.update s.read check
          ((s.rows entityType entityId).map (entityType, entityId, ·)) }
  | .checkBudgetReset check now =>
      match s.read check with
      | none => s
      | some (entityType, entityId, entity) =>
          let s := { s with read := Function.update s.read check none }
          match plannedReset entity now with
          | none => s
          | some planned => s.write entityType entityId planned.update planned.commits
  | .increment entityType entityId amount =>
      s.write entityType entityId (incrementTable amount) fun _ => [.increment amount]

/-- Checks and increments over these rows. -/
def budgets (rows : EntityType → String → Option (Entity Money)) :
    TransitionSystem (State Money CheckId) (Event Money CheckId) where
  initial s := s = ⟨rows, fun _ => none, fun _ _ => []⟩
  enabled := Enabled
  next := next

/-! ## What one step does to an entity -/

/-- A step leaves an entity alone, adds to its spend, or resets it at the reset time it has. -/
theorem next_entity (s : State Money CheckId) (e : Event Money CheckId) (entityType : EntityType)
    (entityId : String) :
    ((next s e).rows entityType entityId = s.rows entityType entityId ∧
      (next s e).committed entityType entityId = s.committed entityType entityId) ∨
    (∃ row amount, s.rows entityType entityId = some row ∧
      (next s e).rows entityType entityId = some (incrementTable amount row) ∧
      (next s e).committed entityType entityId =
        s.committed entityType entityId ++ [.increment amount]) ∨
    ∃ row, ∃ planned : PlannedReset, s.rows entityType entityId = some row ∧
      row.budgetResetAt = some planned.resetAt ∧ planned.resetAt < planned.nextReset ∧
      (next s e).rows entityType entityId = some (planned.update row) ∧
      (next s e).committed entityType entityId =
        s.committed entityType entityId ++ [.reset planned.resetAt planned.nextReset] := by
  cases e with
  | getEntity check entityType' entityId' => exact .inl ⟨rfl, rfl⟩
  | increment entityType' entityId' amount =>
      rcases write_entity s entityType' entityType entityId' entityId (incrementTable amount)
        (fun _ => [.increment amount]) with hsame | ⟨row, hrow, hwritten, hcommitted⟩
      · exact .inl hsame
      · exact .inr (.inl ⟨row, amount, hrow, hwritten, hcommitted⟩)
  | checkBudgetReset check now =>
      cases hread : s.read check with
      | none =>
          have hnext : next s (.checkBudgetReset check now) = s := by simp only [next, hread]
          rw [hnext]
          exact .inl ⟨rfl, rfl⟩
      | some found =>
          obtain ⟨entityType', entityId', entity⟩ := found
          let finished : State Money CheckId :=
            { s with read := Function.update s.read check none }
          cases hplanned : plannedReset entity now with
          | none =>
              have hnext : next s (.checkBudgetReset check now) = finished := by
                simp only [next, hread, hplanned, finished]
              rw [hnext]
              exact .inl ⟨rfl, rfl⟩
          | some planned =>
              have hnext : next s (.checkBudgetReset check now) =
                  finished.write entityType' entityId' planned.update planned.commits := by
                simp only [next, hread, hplanned, finished]
              rw [hnext]
              rcases write_entity finished entityType' entityType entityId' entityId planned.update
                planned.commits with hsame | ⟨row, hrow, hwritten, hcommitted⟩
              · exact .inl hsame
              · by_cases hcurrent : row.budgetResetAt = some planned.resetAt
                · rw [PlannedReset.commits, if_pos hcurrent] at hcommitted
                  exact .inr (.inr ⟨row, planned, hrow, hcurrent, plannedReset_lt hplanned,
                    hwritten,
                    hcommitted⟩)
                · rw [PlannedReset.update, if_neg hcurrent] at hwritten
                  rw [PlannedReset.commits, if_neg hcurrent, List.append_nil] at hcommitted
                  exact .inl ⟨hwritten.trans hrow.symm, hcommitted⟩

/-! ## The history of an entity -/

/-- The reset times that were passed, each at the reset that passed it. -/
def boundaries : List (Commit Money) → List DateTime
  | [] => []
  | .increment _ :: commits => boundaries commits
  | .reset boundary _ :: commits => boundary :: boundaries commits

/-- The spend that a history leaves of an opening spend. -/
def spendAfter (opening : Money) (commits : List (Commit Money)) : Money :=
  commits.foldl (fun spend commit =>
    match commit with
    | .increment amount => spend + amount
    | .reset _ _ => 0) opening

/-- The history of an entity explains its row: every reset time was passed once, and the one the row
has is later than all of them. -/
structure Explained (opening row : Entity Money) (commits : List (Commit Money)) : Prop where
  ordered : (boundaries commits).Pairwise (· < ·)
  later : ∀ boundary ∈ boundaries commits, ∃ resetAt, row.budgetResetAt = some resetAt ∧
    boundary < resetAt
  spend : row.spend.getD 0 = spendAfter (opening.spend.getD 0) commits

def Inv (rows : EntityType → String → Option (Entity Money)) (s : State Money CheckId) : Prop :=
  ∀ entityType entityId row, s.rows entityType entityId = some row →
    ∃ opening, rows entityType entityId = some opening ∧
      Explained opening row (s.committed entityType entityId)

omit [Zero Money] [Add Money] in
theorem boundaries_append (commits later : List (Commit Money)) :
    boundaries (commits ++ later) = boundaries commits ++ boundaries later := by
  induction commits with
  | nil => rfl
  | cons commit commits ih => cases commit <;> simp [boundaries, ih]

theorem spendAfter_append (opening : Money) (commits later : List (Commit Money)) :
    spendAfter opening (commits ++ later) = spendAfter (spendAfter opening commits) later :=
  List.foldl_append

theorem Explained.increment {opening row : Entity Money} {commits : List (Commit Money)}
    (h : Explained opening row commits) (amount : Money) :
    Explained opening (incrementTable amount row) (commits ++ [.increment amount]) := by
  constructor
  · rw [boundaries_append]
    simpa [boundaries] using h.ordered
  · intro boundary hmem
    rw [boundaries_append] at hmem
    apply h.later
    simpa [boundaries] using hmem
  · rw [spendAfter_append, ← h.spend]
    rfl

theorem Explained.reset {opening row : Entity Money} {commits : List (Commit Money)}
    (h : Explained opening row commits) {planned : PlannedReset}
    (hcurrent : row.budgetResetAt = some planned.resetAt)
    (hlater : planned.resetAt < planned.nextReset) :
    Explained opening (planned.update row)
      (commits ++ [.reset planned.resetAt planned.nextReset]) := by
  rw [PlannedReset.update, if_pos hcurrent]
  have hpassed : ∀ boundary ∈ boundaries commits, boundary < planned.resetAt := by
    intro boundary hmem
    obtain ⟨resetAt, hresetAt, hlt⟩ := h.later boundary hmem
    rw [hcurrent] at hresetAt
    exact Option.some.inj hresetAt ▸ hlt
  constructor
  · rw [boundaries_append, List.pairwise_append]
    refine ⟨h.ordered, List.pairwise_singleton _ _, ?_⟩
    intro boundary hmem last hlast
    rw [List.mem_singleton.mp hlast]
    exact hpassed boundary hmem
  · intro boundary hmem
    rw [boundaries_append, List.mem_append] at hmem
    refine ⟨planned.nextReset, rfl, ?_⟩
    rcases hmem with hearlier | hlast
    · exact (hpassed boundary hearlier).trans hlater
    · rw [List.mem_singleton.mp hlast]
      exact hlater
  · rw [spendAfter_append]
    rfl

variable {rows : EntityType → String → Option (Entity Money)} {s : State Money CheckId}

theorem next_inv (h : Inv rows s) (e : Event Money CheckId) : Inv rows (next s e) := by
  intro entityType entityId row' hrow'
  rcases next_entity s e entityType entityId with ⟨hrows, hcommitted⟩ |
    ⟨row, amount, hrow, hwritten, hcommitted⟩ |
    ⟨row, planned, hrow, hcurrent, hlater, hwritten, hcommitted⟩
  · rw [hrows] at hrow'
    rw [hcommitted]
    exact h entityType entityId row' hrow'
  · obtain ⟨opening, hopening, hexplained⟩ := h entityType entityId row hrow
    rw [hwritten, Option.some.injEq] at hrow'
    rw [← hrow', hcommitted]
    exact ⟨opening, hopening, hexplained.increment amount⟩
  · obtain ⟨opening, hopening, hexplained⟩ := h entityType entityId row hrow
    rw [hwritten, Option.some.injEq] at hrow'
    rw [← hrow', hcommitted]
    exact ⟨opening, hopening, hexplained.reset hcurrent hlater⟩

theorem reachable_inv (hs : Reachable (budgets rows) s) : Inv rows s := by
  refine Reachable.invariant (P := Inv rows) ?_ (fun s e h _ => next_inv h e) hs
  rintro s rfl entityType entityId row hrow
  exact ⟨row, hrow, List.Pairwise.nil, fun _ hmem => absurd hmem List.not_mem_nil, rfl⟩

/-- The reset time of the entity is this one or a later one. -/
def ResetFrom (entityType : EntityType) (entityId : String) (resetAt : DateTime)
    (s : State Money CheckId) : Prop :=
  ∃ row resetAt', s.rows entityType entityId = some row ∧ row.budgetResetAt = some resetAt' ∧
    resetAt ≤ resetAt'

theorem next_resetFrom {entityType : EntityType} {entityId : String} {resetAt : DateTime}
    (h : ResetFrom entityType entityId resetAt s) (e : Event Money CheckId) :
    ResetFrom entityType entityId resetAt (next s e) := by
  obtain ⟨row, resetAt', hrow, hresetAt, hle⟩ := h
  rcases next_entity s e entityType entityId with ⟨hrows, -⟩ |
    ⟨row', amount, hrow', hwritten, -⟩ |
    ⟨row', planned, hrow', hcurrent, hlater, hwritten, -⟩
  · exact ⟨row, resetAt', hrows.trans hrow, hresetAt, hle⟩
  · obtain rfl : row = row' := Option.some.inj (hrow.symm.trans hrow')
    exact ⟨_, resetAt', hwritten, hresetAt, hle⟩
  · obtain rfl : row = row' := Option.some.inj (hrow.symm.trans hrow')
    obtain rfl : resetAt' = planned.resetAt := Option.some.inj (hresetAt.symm.trans hcurrent)
    refine ⟨_, planned.nextReset, hwritten, ?_, hle.trans hlater.le⟩
    rw [PlannedReset.update, if_pos hcurrent]

theorem spendAfter_increments (opening : Money) (amounts : List Money) :
    spendAfter opening (amounts.map .increment) = amounts.foldl (· + ·) opening := by
  rw [spendAfter, List.foldl_map]

/-- In every run of checks and increments each reset time of an entity is passed at most once, the
reset time never moves back, and the spend is what was added since the last reset. -/
theorem budget_resets_once (hs : Reachable (budgets rows) s) {entityType : EntityType}
    {entityId : String} {row : Entity Money} (hrow : s.rows entityType entityId = some row) :
    (boundaries (s.committed entityType entityId)).Nodup ∧
      (∀ resetAt, row.budgetResetAt = some resetAt → ∀ s', Later (budgets rows) s s' →
        ResetFrom entityType entityId resetAt s') ∧
      (∀ earlier boundary nextReset, ∀ amounts : List Money, s.committed entityType entityId =
          earlier ++ .reset boundary nextReset :: amounts.map .increment →
        row.spend.getD 0 = amounts.foldl (· + ·) 0) ∧
      ∀ amounts : List Money, s.committed entityType entityId = amounts.map .increment →
        ∃ opening, rows entityType entityId = some opening ∧
          row.spend.getD 0 = amounts.foldl (· + ·) (opening.spend.getD 0) := by
  obtain ⟨opening, hopening, hexplained⟩ := reachable_inv hs entityType entityId row hrow
  refine ⟨hexplained.ordered.imp fun hlt => hlt.ne, ?_, ?_, ?_⟩
  · intro resetAt hresetAt s' hlater
    exact Later.stable (P := ResetFrom entityType entityId resetAt) (Q := fun _ => True)
      (fun _ _ => trivial) (fun s e _ h _ => next_resetFrom h e) hs hlater
      ⟨row, resetAt, hrow, hresetAt, le_rfl⟩
  · intro earlier boundary nextReset amounts hcommitted
    rw [hexplained.spend, hcommitted, spendAfter_append]
    exact spendAfter_increments 0 amounts
  · intro amounts hcommitted
    refine ⟨opening, hopening, ?_⟩
    rw [hexplained.spend, hcommitted, spendAfter_increments]

namespace TwoInstances

def midnight : DateTime := ⟨0, by decide⟩

def nextNoon : DateTime := ⟨36 * microsecondsPerHour, by decide⟩

def daily : Entity ℕ := ⟨some 7, some "1d", some midnight, none⟩

def oneKey : EntityType → String → Option (Entity ℕ)
  | .key, "key-1" => some daily
  | _, _ => none

def start : State ℕ Bool := ⟨oneKey, fun _ => none, fun _ _ => []⟩

/-- Both instances read the key before the first one resets it. -/
def events : List (Event ℕ Bool) :=
  [.getEntity false .key "key-1", .getEntity true .key "key-1", .increment .key "key-1" 2,
    .checkBudgetReset false nextNoon, .increment .key "key-1" 3, .checkBudgetReset true nextNoon]

def finish : State ℕ Bool := events.foldl next start

theorem finish_reachable : Reachable (budgets oneKey) finish := by
  refine ReachableBy.fires (.initial rfl) ⟨?_, trivial, ?_, trivial, trivial, trivial, ?_, trivial,
    trivial, trivial, ?_, trivial, trivial⟩
  · exact rfl
  · exact rfl
  · exact rfl
  · exact (by decide +kernel : (((events.take 5).foldl next start).read true).isSome = true)

theorem finish_committed : finish.committed .key "key-1" =
    [.increment 2, .reset midnight ⟨48 * microsecondsPerHour, by decide⟩, .increment 3] := by
  rfl

end TwoInstances

open TwoInstances in
theorem budget_resets_once_two_instances :
    ∃ row, finish.rows .key "key-1" = some row ∧ row.spend.getD 0 = 0 + 3 := by
  have hrow : (finish.rows .key "key-1").isSome = true := by decide +kernel
  obtain ⟨row, hrow⟩ := Option.isSome_iff_exists.mp hrow
  exact ⟨row, hrow, (budget_resets_once finish_reachable hrow).2.2.1 [.increment 2] midnight _ [3]
    finish_committed⟩

end BudgetResets
