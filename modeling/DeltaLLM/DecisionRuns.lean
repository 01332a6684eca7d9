import DeltaLLM.WaitingFlows

/-! # Runs of the flow table

Jobs are created and changed, flows are refreshed, and decisions of `claim_next_fair_share_work`
claim from them, each from a snapshot of its own.
-/
namespace DecisionRuns

open BatchRecords
open FairShareClaim
open FlowDeficits
open FlowSelection
open SchedulerFlows
open TableStatements
open TransitionRuns
open WaitingFlows

/-! ## Decisions -/

/-- A transaction that holds the lock of its group: the flows in its snapshots of the job and item
tables, and what claiming from a selected flow gives. -/
structure GroupDecision where
  config : FairShareConfig
  serviceTier : String
  modelGroup : String
  aggregates : List FlowAggregate
  attempt : FlowAttempt → Option FlowClaim
  now : Timestamp

inductive FlowEvent where
  | upsertForJob (job : BatchJobRow)
  | refresh (serviceTier modelGroup : String) (aggregates : List FlowAggregate)
  | decide (decision : GroupDecision)

section System

variable (sha256 : String → String) (tuning : FlowTuning)

namespace GroupDecision

variable (d : GroupDecision) (flows : List SchedulerFlowRow)

def refreshed : List SchedulerFlowRow :=
  refreshSchedulerFlows sha256 d.config.tuning d.serviceTier d.modelGroup d.aggregates flows

def records : List BatchSchedulerFlowRecord :=
  refreshedRecords sha256 d.config.tuning d.aggregates flows

def decided : Decision FlowClaim :=
  fairShareDecision d.config d.serviceTier d.modelGroup d.attempt (d.records sha256 flows)
    (d.refreshed sha256 flows)

/-- The flow that is claimed from is charged. -/
def charged : List SchedulerFlowRow :=
  match (d.decided sha256 flows).outcome with
  | .noWork _ => (d.decided sha256 flows).flows
  | .claimed tried claim =>
      chargeFlow d.config.tuning d.now tried.flow.flowId tried.flow.quantumWorkUnits
        claim.claim.claimedWorkUnits (d.decided sha256 flows).flows

/-- A claim counts once. -/
def claims : ℕ :=
  match (d.decided sha256 flows).outcome with
  | .noWork _ => 0
  | .claimed _ _ => 1

end GroupDecision

def nextFlows (flows : List SchedulerFlowRow) : FlowEvent → List SchedulerFlowRow
  | .upsertForJob job => upsertSchedulerFlowForJob sha256 tuning job flows
  | .refresh serviceTier modelGroup aggregates =>
      refreshSchedulerFlows sha256 tuning serviceTier modelGroup aggregates flows
  | .decide d => d.charged sha256 flows

/-- A decision reads flows of its group, under the common settings. -/
structure GroupSnapshot (d : GroupDecision) : Prop where
  tuning : d.config.tuning = tuning
  group : ∀ aggregate ∈ d.aggregates, InGroup d.serviceTier d.modelGroup aggregate.key

/-- The primary key of the table holds after the event; an INSERT that broke it would fail. -/
def Permitted (flows : List SchedulerFlowRow) (e : FlowEvent) : Prop :=
  ((nextFlows sha256 tuning flows e).map SchedulerFlowRow.flowId).Nodup ∧
    ∀ d, e = .decide d → GroupSnapshot tuning d

/-- A flow with any weight, as an insert leaves it. -/
structure NewFlow (row : SchedulerFlowRow) : Prop where
  fresh : Fresh tuning row
  flowId : row.flowId = buildFlowId sha256 row.key

def schedulerSystem : TransitionSystem (List SchedulerFlowRow) FlowEvent where
  initial flows := (flows.map SchedulerFlowRow.flowId).Nodup ∧
    ∀ row ∈ flows, NewFlow sha256 tuning row
  enabled := Permitted sha256 tuning
  next := nextFlows sha256 tuning

end System

/-! ## Statements that leave the accounts of the flows alone -/

/-- The columns that decide who goes first. -/
structure SameAccount (row row' : SchedulerFlowRow) : Prop where
  key : row'.key = row.key
  flowId : row'.flowId = row.flowId
  quantum : row'.quantumWorkUnits = row.quantumWorkUnits
  deficit : row'.deficitWorkUnits = row.deficitWorkUnits
  lastSelected : row'.lastSelectedAt = row.lastSelectedAt

theorem SameAccount.refl (row : SchedulerFlowRow) : SameAccount row row := ⟨rfl, rfl, rfl, rfl, rfl⟩

theorem SameAccount.trans {a b c : SchedulerFlowRow} (hab : SameAccount a b)
    (hbc : SameAccount b c) : SameAccount a c where
  key := hbc.key.trans hab.key
  flowId := hbc.flowId.trans hab.flowId
  quantum := hbc.quantum.trans hab.quantum
  deficit := hbc.deficit.trans hab.deficit
  lastSelected := hbc.lastSelected.trans hab.lastSelected

/-- A flow that was never refilled or selected. -/
structure Untouched (sha256 : String → String) (row : SchedulerFlowRow) : Prop where
  flowId : row.flowId = buildFlowId sha256 row.key
  quantum : 1 ≤ row.quantumWorkUnits
  deficit : row.deficitWorkUnits = 0
  lastSelected : row.lastSelectedAt = none

theorem Untouched.same {sha256 : String → String} {row row' : SchedulerFlowRow}
    (h : Untouched sha256 row) (hsame : SameAccount row row') : Untouched sha256 row' where
  flowId := by rw [hsame.flowId, hsame.key, h.flowId]
  quantum := by rw [hsame.quantum]; exact h.quantum
  deficit := by rw [hsame.deficit, h.deficit]
  lastSelected := by rw [hsame.lastSelected, h.lastSelected]

/-- The rows keep their accounts and new flows come after them. -/
def Extends (sha256 : String → String) (flows flows' : List SchedulerFlowRow) : Prop :=
  ∃ f new, flows' = flows.map f ++ new ∧ (∀ row ∈ flows, SameAccount row (f row)) ∧
    ∀ row ∈ new, Untouched sha256 row

section Extends

variable {sha256 : String → String} {tuning : FlowTuning} {row : SchedulerFlowRow}
  {flows flows' flows'' : List SchedulerFlowRow}

theorem Extends.refl (flows : List SchedulerFlowRow) : Extends sha256 flows flows := by
  refine ⟨id, [], by simp, fun row _ => .refl row, ?_⟩
  intro row hrow
  cases hrow

theorem Extends.trans (h : Extends sha256 flows flows') (h' : Extends sha256 flows' flows'') :
    Extends sha256 flows flows'' := by
  obtain ⟨f, new, rfl, hf, hnew⟩ := h
  obtain ⟨f', new', rfl, hf', hnew'⟩ := h'
  refine ⟨f' ∘ f, new.map f' ++ new', by simp, fun row hrow => ?_, fun row hrow => ?_⟩
  · exact (hf row hrow).trans (hf' _ (List.mem_append_left _ (List.mem_map_of_mem hrow)))
  · rcases List.mem_append.mp hrow with hold | hadded
    · obtain ⟨original, horiginal, rfl⟩ := List.mem_map.mp hold
      exact (hnew original horiginal).same (hf' _ (List.mem_append_right _ horiginal))
    · exact hnew' row hadded

theorem extends_updateWhere {p : SchedulerFlowRow → Prop} [DecidablePred p]
    {f : SchedulerFlowRow → SchedulerFlowRow} (hf : ∀ row ∈ flows, SameAccount row (f row)) :
    Extends sha256 flows (updateWhere p f flows) := by
  refine ⟨fun row => if p row then f row else row, [], by simp [updateWhere], ?_, ?_⟩
  · intro row hrow
    by_cases hp : p row
    · simpa only [if_pos hp] using hf row hrow
    · simpa only [if_neg hp] using SameAccount.refl row
  · intro row hrow
    cases hrow

theorem extends_upsertFlow {inserted : SchedulerFlowRow}
    {update : SchedulerFlowRow → SchedulerFlowRow} (hinserted : Untouched sha256 inserted)
    (hupdate : ∀ row ∈ flows, SameAccount row (update row)) :
    Extends sha256 flows (upsertFlow inserted update flows) := by
  by_cases hexists : ∃ row ∈ flows, row.key = inserted.key
  · rw [upsertFlow, if_pos hexists]
    exact extends_updateWhere hupdate
  · rw [upsertFlow, if_neg hexists]
    refine ⟨id, [inserted], by simp, fun row _ => .refl row, fun row hrow => ?_⟩
    rw [List.mem_singleton.mp hrow]
    exact hinserted

theorem untouched_insertedRow (key : FlowKey) (active : Bool)
    (queuedJobs queuedWorkUnits inFlightWorkUnits : ℕ) :
    Untouched sha256 (tuning.insertedRow sha256 key active queuedJobs queuedWorkUnits
      inFlightWorkUnits) :=
  ⟨rfl, one_le_quantumForWeight _ _, rfl, rfl⟩

/-- Within its bounds a flow is not clamped. -/
theorem sameAccount_clampRow (hbase : 1 ≤ tuning.baseQuantumWorkUnits) (h : Bounded tuning row) :
    SameAccount row (tuning.clampRow row) := by
  have hquantum : tuning.conflictQuantum row.weight = row.quantumWorkUnits := by
    rw [conflictQuantum_eq hbase, h.quantum]
  refine ⟨rfl, rfl, hquantum, ?_, rfl⟩
  have hupper := h.upper
  rw [maxDeficit_eq h.quantum] at hupper
  simp only [FlowTuning.clampRow, hquantum]
  exact min_eq_left hupper

theorem extends_upsertForJob (hbase : 1 ≤ tuning.baseQuantumWorkUnits)
    (h : ∀ row ∈ flows, Bounded tuning row) (job : BatchJobRow) :
    Extends sha256 flows (upsertSchedulerFlowForJob sha256 tuning job flows) := by
  simp only [upsertSchedulerFlowForJob]
  split
  · exact .refl flows
  · apply extends_upsertFlow (untouched_insertedRow ..)
    intro row hrow
    obtain ⟨hkey, hid, hquantum, hdeficit, hselected⟩ := sameAccount_clampRow hbase (h row hrow)
    exact ⟨hkey, hid, hquantum, hdeficit, hselected⟩

theorem bounded_upsertAggregate (hbase : 1 ≤ tuning.baseQuantumWorkUnits)
    (h : ∀ row ∈ flows, Bounded tuning row) (aggregate : FlowAggregate) :
    ∀ row ∈ upsertAggregate sha256 tuning aggregate flows, Bounded tuning row := by
  have hall : ∀ row ∈ upsertAggregates sha256 tuning [aggregate] flows, Bounded tuning row :=
    bounded_upsertAggregates hbase h
  exact hall

/-- The induction is over the aggregates; the bounds go with it. -/
theorem extends_upsertAggregates (hbase : 1 ≤ tuning.baseQuantumWorkUnits)
    (aggregates : List FlowAggregate) : ∀ {flows : List SchedulerFlowRow},
      (∀ row ∈ flows, Bounded tuning row) →
        Extends sha256 flows (upsertAggregates sha256 tuning aggregates flows) := by
  induction aggregates with
  | nil =>
      intro flows _
      exact .refl flows
  | cons aggregate aggregates ih =>
      intro flows h
      have hfirst : Extends sha256 flows (upsertAggregate sha256 tuning aggregate flows) := by
        apply extends_upsertFlow (untouched_insertedRow ..)
        intro row hrow
        obtain ⟨hkey, hid, hquantum, hdeficit, hselected⟩ := sameAccount_clampRow hbase (h row hrow)
        exact ⟨hkey, hid, hquantum, hdeficit, hselected⟩
      exact hfirst.trans (ih (bounded_upsertAggregate hbase h aggregate))

theorem extends_refresh (hbase : 1 ≤ tuning.baseQuantumWorkUnits)
    (h : ∀ row ∈ flows, Bounded tuning row) (serviceTier modelGroup : String)
    (aggregates : List FlowAggregate) :
    Extends sha256 flows
      (refreshSchedulerFlows sha256 tuning serviceTier modelGroup aggregates flows) :=
  (extends_upsertAggregates hbase aggregates h).trans
    (extends_updateWhere fun _ _ => ⟨rfl, rfl, rfl, rfl, rfl⟩)

end Extends

/-! ## What a run keeps -/

structure FlowsSound (sha256 : String → String) (tuning : FlowTuning)
    (flows : List SchedulerFlowRow) : Prop where
  bounded : ∀ row ∈ flows, Bounded tuning row
  ids : ∀ row ∈ flows, row.flowId = buildFlowId sha256 row.key
  unique : (flows.map SchedulerFlowRow.flowId).Nodup

section Sound

variable {sha256 : String → String} {tuning : FlowTuning} {row row' : SchedulerFlowRow}
  {flows flows' : List SchedulerFlowRow} {d : GroupDecision}

theorem FlowsSound.keys (h : FlowsSound sha256 tuning flows) :
    (flows.map SchedulerFlowRow.key).Nodup := by
  have hids : flows.map SchedulerFlowRow.flowId =
      (flows.map SchedulerFlowRow.key).map (buildFlowId sha256) := by
    rw [List.map_map]
    exact List.map_congr_left h.ids
  have hunique := h.unique
  rw [hids] at hunique
  exact hunique.of_map _

theorem FlowsSound.eq_of_flowId (h : FlowsSound sha256 tuning flows) (hrow : row ∈ flows)
    (hrow' : row' ∈ flows) (hid : row.flowId = row'.flowId) : row = row' :=
  List.inj_on_of_nodup_map h.unique hrow hrow' hid

theorem Extends.ids (h : Extends sha256 flows flows')
    (hids : ∀ row ∈ flows, row.flowId = buildFlowId sha256 row.key) :
    ∀ row ∈ flows', row.flowId = buildFlowId sha256 row.key := by
  obtain ⟨f, new, rfl, hf, hnew⟩ := h
  intro row hrow
  rcases List.mem_append.mp hrow with hold | hadded
  · obtain ⟨original, horiginal, rfl⟩ := List.mem_map.mp hold
    rw [(hf original horiginal).flowId, (hf original horiginal).key, hids original horiginal]
  · exact (hnew row hadded).flowId

/-- The charge leaves every column but the deficit and the selection time. -/
theorem charge_columns {α : Type*} {now : Timestamp} {flowId : String}
    {quantumWorkUnits claimedWorkUnits : ℕ} (column : SchedulerFlowRow → α)
    (h : ∀ row deficit selected, column { row with
      deficitWorkUnits := deficit, lastSelectedAt := selected } = column row) :
    (chargeFlow tuning now flowId quantumWorkUnits claimedWorkUnits flows).map column =
      flows.map column :=
  map_updateWhere _ _ _ (fun row _ => h row _ _) _

theorem FlowsSound.refill (h : FlowsSound sha256 tuning flows) (serviceTier modelGroup : String) :
    FlowsSound sha256 tuning (refillSchedulerFlowDeficits tuning serviceTier modelGroup flows) where
  bounded := bounded_refill h.bounded
  ids := by
    intro row' hrow'
    obtain ⟨row, hrow, rfl⟩ := (mem_updateWhere _ _).mp hrow'
    split
    · exact h.ids row hrow
    · exact h.ids row hrow
  unique := by
    rw [refill_columns fun _ => rfl]
    exact h.unique

theorem FlowsSound.refills (h : FlowsSound sha256 tuning flows) (serviceTier modelGroup : String)
    (n : ℕ) : FlowsSound sha256 tuning
      ((refillSchedulerFlowDeficits tuning serviceTier modelGroup)^[n] flows) := by
  induction n generalizing flows with
  | zero => exact h
  | succ n ih => exact ih (h.refill serviceTier modelGroup)

theorem FlowsSound.charge (h : FlowsSound sha256 tuning flows) (hrow : row ∈ flows)
    (now : Timestamp) (claimedWorkUnits : ℕ) :
    FlowsSound sha256 tuning (chargeFlow tuning now row.flowId (max 1 row.quantumWorkUnits)
      claimedWorkUnits flows) where
  bounded := by
    intro charged hcharged
    obtain ⟨other, hother, rfl⟩ := (mem_updateWhere _ _).mp hcharged
    split
    · next hid =>
        rw [h.eq_of_flowId hother hrow hid]
        exact bounded_charged (h.bounded row hrow) now rfl claimedWorkUnits
    · exact h.bounded other hother
  ids := by
    intro charged hcharged
    obtain ⟨other, hother, rfl⟩ := (mem_updateWhere _ _).mp hcharged
    split
    · exact h.ids other hother
    · exact h.ids other hother
  unique := by
    rw [charge_columns _ fun _ _ _ => rfl]
    exact h.unique

/-! ### Records -/

theorem refreshed_mirrors
    (hgroup : ∀ aggregate ∈ d.aggregates, InGroup d.serviceTier d.modelGroup aggregate.key)
    (hids : ∀ row ∈ upsertAggregates sha256 d.config.tuning d.aggregates flows,
      row.flowId = buildFlowId sha256 row.key) :
    ∀ record ∈ d.records sha256 flows,
      Mirrors d.serviceTier d.modelGroup (d.refreshed sha256 flows) record := by
  intro record hrecord
  obtain ⟨aggregate, haggregate, hfound⟩ := List.mem_filterMap.mp hrecord
  obtain ⟨row, hrow, rfl⟩ := Option.map_eq_some_iff.mp hfound
  obtain ⟨hmem, hkey⟩ := rowWithKey_some hrow
  refine ⟨row, (mem_updateWhere _ _).mpr ⟨row, hmem, ?_⟩, hkey ▸ hgroup aggregate haggregate,
    _, _, rfl⟩
  have hactive : row.flowId ∈ d.aggregates.map
      fun aggregate => buildFlowId sha256 aggregate.key := by
    rw [hids row hmem, hkey]
    exact List.mem_map_of_mem haggregate
  rw [if_neg fun hstale => hstale.1 hactive]

/-! ### Decisions -/

theorem decided_rounds (sha256 : String → String) (d : GroupDecision)
    (flows : List SchedulerFlowRow) :
    Rounds d.config d.serviceTier d.modelGroup d.attempt
      ⟨d.records sha256 flows, d.refreshed sha256 flows, []⟩ (d.decided sha256 flows) :=
  fairShareRounds_rounds _ _

theorem charged_flowIds (d : GroupDecision) (flows : List SchedulerFlowRow) :
    (d.charged sha256 flows).map SchedulerFlowRow.flowId =
      (d.refreshed sha256 flows).map SchedulerFlowRow.flowId := by
  obtain ⟨n, hn⟩ := (decided_rounds sha256 d flows).flows
  have hdecided : (d.decided sha256 flows).flows.map SchedulerFlowRow.flowId =
      (d.refreshed sha256 flows).map SchedulerFlowRow.flowId := by
    rw [hn]
    clear hn
    induction n with
    | zero => rfl
    | succ n ih =>
        rw [Function.iterate_succ_apply', refill_columns fun _ => rfl]
        exact ih
  unfold GroupDecision.charged
  split
  · exact hdecided
  · rw [charge_columns _ fun _ _ _ => rfl]
    exact hdecided

/-- What a permitted decision does to sound flows: a refresh, refills, and a charge of the stored
flow that is claimed from. -/
structure DecisionSteps (sha256 : String → String) (tuning : FlowTuning) (d : GroupDecision)
    (flows : List SchedulerFlowRow) : Prop where
  extended : Extends sha256 flows (d.refreshed sha256 flows)
  refreshed : FlowsSound sha256 tuning (d.refreshed sha256 flows)
  mirrors : ∀ record ∈ d.records sha256 flows,
    Mirrors d.serviceTier d.modelGroup (d.refreshed sha256 flows) record
  refills : ∃ n, (d.decided sha256 flows).flows =
    (refillSchedulerFlowDeficits tuning d.serviceTier d.modelGroup)^[n] (d.refreshed sha256 flows)
  claimed : ∀ tried claim, (d.decided sha256 flows).outcome = .claimed tried claim →
    ∃ row ∈ (d.decided sha256 flows).flows, InGroup d.serviceTier d.modelGroup row.key ∧
      (∃ oldest nextUnits, tried.flow = flowFromRow oldest nextUnits row) ∧
      d.charged sha256 flows = chargeFlow tuning d.now row.flowId (max 1 row.quantumWorkUnits)
        claim.claim.claimedWorkUnits (d.decided sha256 flows).flows
  ended : ∀ reason, (d.decided sha256 flows).outcome = .noWork reason →
    d.charged sha256 flows = (d.decided sha256 flows).flows

theorem FlowsSound.decision (hbase : 1 ≤ tuning.baseQuantumWorkUnits)
    (h : FlowsSound sha256 tuning flows) (hpermitted : Permitted sha256 tuning flows (.decide d)) :
    DecisionSteps sha256 tuning d flows := by
  obtain ⟨hunique, hsnapshot⟩ := hpermitted
  obtain ⟨htuning, hgroup⟩ := hsnapshot d rfl
  subst htuning
  have hextended : Extends sha256 flows (d.refreshed sha256 flows) :=
    extends_refresh hbase h.bounded _ _ _
  have hrefreshed : FlowsSound sha256 d.config.tuning (d.refreshed sha256 flows) := by
    refine ⟨?_, hextended.ids h.ids, ?_⟩
    · exact bounded_next (e := .refresh d.serviceTier d.modelGroup d.aggregates) hbase h.bounded
        trivial
    · rw [← charged_flowIds]
      exact hunique
  have hmirrors := refreshed_mirrors (d := d) hgroup
    ((extends_upsertAggregates hbase d.aggregates h.bounded).ids h.ids)
  have hrounds := decided_rounds sha256 d flows
  refine ⟨hextended, hrefreshed, hmirrors, hrounds.flows, ?_, ?_⟩
  · intro tried claim hclaimed
    have hquantum := fun row hrow => one_le_quantum (hrefreshed.bounded row hrow)
    obtain ⟨row, hrow, hrowGroup, oldest, nextUnits, hflow⟩ :=
      hrounds.claimed_mirrors hquantum hmirrors hclaimed
    refine ⟨row, hrow, hrowGroup, ⟨oldest, nextUnits, hflow⟩, ?_⟩
    rw [GroupDecision.charged, hclaimed]
    simp only [hflow]
    rfl
  · intro reason hended
    rw [GroupDecision.charged, hended]

/-- Every permitted event keeps the flows sound. -/
theorem FlowsSound.next {e : FlowEvent} (hbase : 1 ≤ tuning.baseQuantumWorkUnits)
    (h : FlowsSound sha256 tuning flows) (hpermitted : Permitted sha256 tuning flows e) :
    FlowsSound sha256 tuning (nextFlows sha256 tuning flows e) := by
  cases e with
  | upsertForJob job =>
      exact ⟨bounded_next (e := .upsertForJob job) hbase h.bounded trivial,
        (extends_upsertForJob hbase h.bounded job).ids h.ids, hpermitted.1⟩
  | refresh serviceTier modelGroup aggregates =>
      exact ⟨bounded_next (e := .refresh serviceTier modelGroup aggregates) hbase h.bounded trivial,
        (extends_refresh hbase h.bounded _ _ _).ids h.ids, hpermitted.1⟩
  | decide d =>
      have hsteps := h.decision hbase hpermitted
      obtain ⟨n, hn⟩ := hsteps.refills
      have hdecided : FlowsSound sha256 tuning (d.decided sha256 flows).flows := by
        rw [hn]
        exact hsteps.refreshed.refills _ _ n
      cases houtcome : (d.decided sha256 flows).outcome with
      | noWork reason =>
          rw [nextFlows, hsteps.ended reason houtcome]
          exact hdecided
      | claimed tried claim =>
          obtain ⟨row, hrow, -, -, hcharged⟩ := hsteps.claimed tried claim houtcome
          rw [nextFlows, hcharged]
          exact hdecided.charge hrow d.now claim.claim.claimedWorkUnits

theorem sound_of_reachable (hbase : 1 ≤ tuning.baseQuantumWorkUnits)
    (h : Reachable (schedulerSystem sha256 tuning) flows) : FlowsSound sha256 tuning flows := by
  refine h.invariant (fun flows hinitial => ?_) fun flows e hsound he => hsound.next hbase he
  obtain ⟨hunique, hnew⟩ := hinitial
  exact ⟨fun row hrow => bounded_of_fresh (hnew row hrow).fresh, fun row hrow =>
    (hnew row hrow).flowId, hunique⟩

end Sound

/-! ## Last selections -/

/-- When the flow was last selected, zero if never. -/
def lastSelected (flows : List SchedulerFlowRow) (key : FlowKey) : Timestamp :=
  ((rowWithKey SchedulerFlowRow.key key flows).bind SchedulerFlowRow.lastSelectedAt).getD 0

/-- No flow is selected or removed. -/
structure InPlace (flows flows' : List SchedulerFlowRow) : Prop where
  selected : ∀ key, lastSelected flows' key = lastSelected flows key
  stored : ∀ key ∈ flows.map SchedulerFlowRow.key, key ∈ flows'.map SchedulerFlowRow.key
  size : ∀ serviceTier modelGroup, (groupFlows serviceTier modelGroup flows).length ≤
    (groupFlows serviceTier modelGroup flows').length

theorem InPlace.trans {flows flows' flows'' : List SchedulerFlowRow} (h : InPlace flows flows')
    (h' : InPlace flows' flows'') : InPlace flows flows'' where
  selected key := (h'.selected key).trans (h.selected key)
  stored key hkey := h'.stored key (h.stored key hkey)
  size serviceTier modelGroup := (h.size serviceTier modelGroup).trans (h'.size ..)

section Selections

variable {sha256 : String → String} {tuning : FlowTuning} {row : SchedulerFlowRow}
  {flows flows' : List SchedulerFlowRow}

theorem lastSelected_of_mem (hkeys : (flows.map SchedulerFlowRow.key).Nodup) (hrow : row ∈ flows) :
    lastSelected flows row.key = row.lastSelectedAt.getD 0 := by
  rw [lastSelected, rowWithKey_of_mem hkeys hrow]
  rfl

/-- The row of a key after an extension: the one that was there, or a new one. -/
theorem Extends.row_cases (h : Extends sha256 flows flows')
    (hkeys : (flows'.map SchedulerFlowRow.key).Nodup) (key : FlowKey) :
    (∃ row row', rowWithKey SchedulerFlowRow.key key flows = some row ∧
        rowWithKey SchedulerFlowRow.key key flows' = some row' ∧ SameAccount row row') ∨
      rowWithKey SchedulerFlowRow.key key flows = none ∧
        ∀ row', rowWithKey SchedulerFlowRow.key key flows' = some row' → Untouched sha256 row' := by
  obtain ⟨f, new, rfl, hf, hnew⟩ := h
  cases hfound : rowWithKey SchedulerFlowRow.key key flows with
  | none =>
      right
      refine ⟨rfl, fun row' hrow' => ?_⟩
      obtain ⟨hmem, hkey⟩ := rowWithKey_some hrow'
      rcases List.mem_append.mp hmem with hold | hadded
      · obtain ⟨row, hrow, rfl⟩ := List.mem_map.mp hold
        exact absurd ((hf row hrow).key.symm.trans hkey) (rowWithKey_eq_none.mp hfound row hrow)
      · exact hnew row' hadded
  | some row =>
      left
      obtain ⟨hrow, hkey⟩ := rowWithKey_some hfound
      have hsame := hf row hrow
      have hmem : f row ∈ flows.map f ++ new :=
        List.mem_append_left _ (List.mem_map_of_mem hrow)
      refine ⟨row, f row, rfl, ?_, hsame⟩
      rw [← hkey, ← hsame.key]
      exact rowWithKey_of_mem hkeys hmem

theorem Extends.inPlace (h : Extends sha256 flows flows')
    (hkeys : (flows'.map SchedulerFlowRow.key).Nodup) : InPlace flows flows' where
  selected := by
    intro key
    rcases h.row_cases hkeys key with ⟨row, row', hrow, hrow', hsame⟩ | ⟨hnone, hnew⟩
    · simp [lastSelected, hrow, hrow', hsame.lastSelected]
    · cases hfound : rowWithKey SchedulerFlowRow.key key flows' with
      | none => simp [lastSelected, hnone, hfound]
      | some row' => simp [lastSelected, hnone, hfound, (hnew row' hfound).lastSelected]
  stored := by
    obtain ⟨f, new, rfl, hf, -⟩ := h
    intro key hkey
    obtain ⟨row, hrow, rfl⟩ := List.mem_map.mp hkey
    refine List.mem_map.mpr ⟨f row, ?_, (hf row hrow).key⟩
    exact List.mem_append_left _ (List.mem_map_of_mem hrow)
  size := by
    obtain ⟨f, new, rfl, hf, -⟩ := h
    intro serviceTier modelGroup
    have hsame : ∀ row ∈ flows, (decide (InGroup serviceTier modelGroup (f row).key)) =
        decide (InGroup serviceTier modelGroup row.key) := by
      intro row hrow
      rw [(hf row hrow).key]
    simp only [groupFlows, List.filter_append, List.filter_map, List.length_append,
      List.length_map, Function.comp_def, List.filter_congr hsame]
    omega

theorem length_groupFlows (serviceTier modelGroup : String) (flows : List SchedulerFlowRow) :
    (groupFlows serviceTier modelGroup flows).length = ((flows.map SchedulerFlowRow.key).filter
      fun key => InGroup serviceTier modelGroup key).length := by
  simp [groupFlows, List.filter_map, Function.comp_def]

theorem inPlace_refill (serviceTier modelGroup : String) (flows : List SchedulerFlowRow) :
    InPlace flows (refillSchedulerFlowDeficits tuning serviceTier modelGroup flows) where
  selected := by
    intro key
    rw [lastSelected, refillSchedulerFlowDeficits, rowWithKey_updateWhere _ _ _ fun other _ =>
      (rfl : (refillRow tuning other).key = other.key), lastSelected]
    cases hfound : rowWithKey SchedulerFlowRow.key key flows with
    | none => rfl
    | some row =>
        simp only [Option.map_some, Option.bind_some]
        split <;> rfl
  stored := by
    intro key hkey
    rwa [refill_columns fun _ => rfl]
  size := by
    intro tier group
    rw [length_groupFlows, length_groupFlows, refill_columns fun _ => rfl]

theorem inPlace_refills (tuning : FlowTuning) (serviceTier modelGroup : String)
    (flows : List SchedulerFlowRow) (n : ℕ) :
    InPlace flows ((refillSchedulerFlowDeficits tuning serviceTier modelGroup)^[n] flows) := by
  induction n with
  | zero => exact ⟨fun _ => rfl, fun _ hkey => hkey, fun _ _ => le_rfl⟩
  | succ n ih =>
      rw [Function.iterate_succ_apply']
      exact ih.trans (inPlace_refill ..)

/-- The row that a charge leaves. -/
def chargedRow (tuning : FlowTuning) (now : Timestamp) (quantumWorkUnits claimedWorkUnits : ℕ)
    (row : SchedulerFlowRow) : SchedulerFlowRow :=
  { row with
    deficitWorkUnits := max (row.deficitWorkUnits - (max 1 claimedWorkUnits : ℕ))
      (-(maxDeficitForFlow quantumWorkUnits tuning.maxDeficitMultiplier : ℤ))
    lastSelectedAt := some now }

variable {now : Timestamp} {quantumWorkUnits claimedWorkUnits : ℕ}

theorem rowWithKey_charge (flowId : String) (key : FlowKey) (flows : List SchedulerFlowRow) :
    rowWithKey SchedulerFlowRow.key key
        (chargeFlow tuning now flowId quantumWorkUnits claimedWorkUnits flows) =
      (rowWithKey SchedulerFlowRow.key key flows).map fun row =>
        if row.flowId = flowId then chargedRow tuning now quantumWorkUnits claimedWorkUnits row
        else row :=
  rowWithKey_updateWhere (fun row : SchedulerFlowRow => row.flowId = flowId) key flows fun row _ =>
    (rfl : (chargedRow tuning now quantumWorkUnits claimedWorkUnits row).key = row.key)

/-- A charge selects its flow and no other. -/
theorem FlowsSound.lastSelected_charge (h : FlowsSound sha256 tuning flows) (hrow : row ∈ flows)
    (key : FlowKey) :
    lastSelected (chargeFlow tuning now row.flowId quantumWorkUnits claimedWorkUnits flows) key =
      if key = row.key then now else lastSelected flows key := by
  rw [lastSelected, rowWithKey_charge, lastSelected]
  by_cases hkey : key = row.key
  · subst hkey
    simp [rowWithKey_of_mem h.keys hrow, chargedRow]
  · rw [if_neg hkey]
    cases hfound : rowWithKey SchedulerFlowRow.key key flows with
    | none => rfl
    | some other =>
        obtain ⟨hother, rfl⟩ := rowWithKey_some hfound
        have hid : other.flowId ≠ row.flowId := fun hsame =>
          hkey (congrArg SchedulerFlowRow.key (h.eq_of_flowId hother hrow hsame))
        simp [hid]

end Selections

end DecisionRuns
