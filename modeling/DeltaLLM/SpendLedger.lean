import Mathlib.Algebra.BigOperators.Group.List.Basic
import DeltaLLM.TeamModelSpend

/-! # The spend log and the spend counters

A successful request logs its cost in an event and then adds it to the counters of its key, user,
team and organization, one statement each. A statement that raises is logged and passed over.
-/
namespace SpendLedger

/-- The tables with a spend of their own. -/
inductive SpendTable where
  | verificationToken | user | team | organization
  deriving DecidableEq, Repr

/-- Who a request is billed to. -/
structure Account where
  apiKey : String
  userId : Option String
  teamId : Option String
  organizationId : Option String
  deriving DecidableEq, Repr

def Account.idIn (account : Account) : SpendTable → Option String
  | .verificationToken => some account.apiKey
  | .user => account.userId
  | .team => account.teamId
  | .organization => account.organizationId

structure SpendEvent where
  requestId : String
  account : Account
  model : String
  spend : ℚ
  deriving DecidableEq

structure Database where
  events : List SpendEvent
  spend : SpendTable → String → Option ℚ
  teamModelSpend : String → String → Option ℚ

/-- The statements that do not raise. -/
structure Outcome where
  event : Bool
  table : SpendTable → Bool
  teamModel : Bool

/-- `_increment_table`: only a row that exists. -/
def incrementTable (spend : String → Option ℚ) (entityId : Option String) (amount : ℚ) :
    String → Option ℚ :=
  match entityId with
  | none => spend
  | some id => if id = "" then spend else Function.update spend id ((spend id).map (· + amount))

/-- `increment_spend`. -/
def Database.incrementSpend (db : Database) (outcome : Outcome) (account : Account) (model : String)
    (cost : ℚ) : Database :=
  if cost ≤ 0 then db
  else
    { db with
      spend := fun table =>
        if outcome.table table then incrementTable (db.spend table) (account.idIn table) cost
        else db.spend table
      teamModelSpend :=
        if outcome.teamModel then
          TeamModelSpend.incrementTeamModelCounter db.teamModelSpend account.teamId model cost
        else db.teamModelSpend }

/-- `log_spend`. -/
def Database.logSpend (db : Database) (outcome : Outcome) (requestId : String) (account : Account)
    (model : String) (cost : ℚ) : Database :=
  let events := if outcome.event then db.events ++ [⟨requestId, account, model, cost⟩]
    else db.events
  { db with events }.incrementSpend outcome account model cost

def totalSpend (events : List SpendEvent) : ℚ := (events.map (·.spend)).sum

/-- The counter of the account in the table. -/
def Database.Counter (db : Database) (account : Account) (table : SpendTable) (id : String)
    (spend : ℚ) : Prop :=
  account.idIn table = some id ∧ id ≠ "" ∧ db.spend table id = some spend

/-- What is logged and every counter of the account have grown by the cost. -/
structure Billed (before after : Database) (account : Account) (cost : ℚ) : Prop where
  logged : totalSpend after.events = totalSpend before.events + cost
  counted : ∀ table id spend, before.Counter account table id spend →
    after.spend table id = some (spend + cost)

/-- A cost that the code bills: its event is stored and, where there is a counter, it is positive
and the counter's statement does not raise. -/
def Billable (db : Database) (outcome : Outcome) (account : Account) (cost : ℚ) : Prop :=
  outcome.event = true ∧
    ∀ table id spend, db.Counter account table id spend → 0 < cost ∧ outcome.table table = true

variable {db : Database} {outcome : Outcome} {account : Account} {model requestId : String}
  {cost : ℚ}

theorem incrementSpend_events :
    (db.incrementSpend outcome account model cost).events = db.events := by
  unfold Database.incrementSpend
  split <;> rfl

theorem incrementSpend_counter {table : SpendTable} {id : String} {spend : ℚ}
    (h : db.Counter account table id spend) :
    (db.incrementSpend outcome account model cost).spend table id =
      some (if 0 < cost ∧ outcome.table table = true then spend + cost else spend) := by
  obtain ⟨hid, hname, hspend⟩ := h
  unfold Database.incrementSpend
  by_cases hcost : cost ≤ 0
  · rw [if_pos hcost, if_neg (fun hboth => not_lt.mpr hcost hboth.1), hspend]
  · rw [if_neg hcost]
    have hpositive : 0 < cost := not_le.mp hcost
    by_cases htable : outcome.table table = true
    · simp [hpositive, htable, incrementTable, hid, hname, hspend]
    · simp [htable, hspend]

theorem logSpend_total :
    totalSpend (db.logSpend outcome requestId account model cost).events =
      totalSpend db.events + if outcome.event = true then cost else 0 := by
  unfold Database.logSpend
  rw [incrementSpend_events]
  by_cases hevent : outcome.event = true
  · simp [hevent, totalSpend]
  · simp [hevent]

theorem logSpend_counter {table : SpendTable} {id : String} {spend : ℚ}
    (h : db.Counter account table id spend) :
    (db.logSpend outcome requestId account model cost).spend table id =
      some (if 0 < cost ∧ outcome.table table = true then spend + cost else spend) :=
  incrementSpend_counter h

theorem billed_self_iff : Billed db db account cost ↔ cost = 0 := by
  constructor
  · intro h
    have hlogged := h.logged
    linarith
  · rintro rfl
    constructor
    · simp
    · rintro table id spend ⟨-, -, hspend⟩
      simpa using hspend

/-- `log_spend` bills a cost exactly where nothing is to be billed or the cost is billable. -/
theorem logSpend_billed_iff :
    Billed db (db.logSpend outcome requestId account model cost) account cost ↔
      cost = 0 ∨ Billable db outcome account cost := by
  constructor
  · intro h
    by_cases hzero : cost = 0
    · exact .inl hzero
    · refine .inr ⟨?_, ?_⟩
      · have hlogged := h.logged
        rw [logSpend_total] at hlogged
        by_contra hevent
        rw [if_neg hevent] at hlogged
        apply hzero
        linarith
      · intro table id spend hcounter
        have hcounted := h.counted table id spend hcounter
        rw [logSpend_counter hcounter] at hcounted
        by_contra hskipped
        rw [if_neg hskipped] at hcounted
        have hsame : spend = spend + cost := Option.some.inj hcounted
        apply hzero
        linarith
  · rintro (rfl | ⟨hevent, htaken⟩)
    · constructor
      · rw [logSpend_total]
        simp
      · intro table id spend hcounter
        rw [logSpend_counter hcounter]
        simp
    · constructor
      · rw [logSpend_total, if_pos hevent]
      · intro table id spend hcounter
        rw [logSpend_counter hcounter, if_pos (htaken table id spend hcounter)]

end SpendLedger
