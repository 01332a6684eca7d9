import DeltaLLM.AdvisoryLocks
import DeltaLLM.LockTables
import DeltaLLM.TenantInFlightCap
import DeltaLLM.TransitionRuns

/-! # The model in-flight cap

Two kinds of transaction claim work of a model group and tier under one cap: `claim_next_work` with
a capacity and `claim_next_fair_share_work`. Each takes its locks, counts and claims in one
statement on the committed tables, and holds the locks until its claim is committed.
-/
namespace CapacityClaims

open AdvisoryLocks
open BatchRecords
open BatchItemStatements
open BatchJobStatements
open BatchWorkClaim
open FairShareClaim
open FlowSelection
open FlowSnapshots
open LockTables
open PythonText (strip stripOrEmpty strip_strip)
open SchedulerFlows
open TableStatements
open TransitionRuns

/-- Item ids are the primary key of the item table. -/
structure BatchTables where
  jobs : List BatchJobRow
  items : List BatchItemRow
  itemIds_nodup : (items.map BatchItemRow.itemId).Nodup

/-- A model group and tier as both paths normalise them, with the caps of the claims. -/
structure CapacityCaps where
  modelGroup : String
  serviceTier : String
  maxInFlightItems : ℕ
  maxInFlightWorkUnits : Option ℕ := none
  modelGroup_stripped : strip modelGroup = modelGroup
  serviceTier_stripped : strip serviceTier = serviceTier
  modelGroup_named : modelGroup ≠ ""
  serviceTier_named : serviceTier ≠ ""

/-- The arguments of a claim transaction apart from the group, the tier and the caps. -/
inductive ClaimPath where
  | modelCapacity (request : WorkClaimRequest)
  | fairShare (config : FairShareConfig) (workerId : String)

def ClaimPath.isFairShare : ClaimPath → Bool
  | .modelCapacity _ => false
  | .fairShare _ _ => true

section Statement

variable (mode : AdvisoryLockMode) (caps : CapacityCaps)

/-- The locks of a transaction, in the order in which it takes them. -/
def pathLocks : ClaimPath → List LockName
  | .modelCapacity _ => modelCapacityLocks mode caps.modelGroup caps.serviceTier
  | .fairShare _ _ => schedulerFlowLocks mode caps.modelGroup caps.serviceTier

/-- `claim_next_work` opens no transaction under a cap of zero. -/
def Opens : ClaimPath → Prop
  | .modelCapacity _ => 0 < caps.maxInFlightItems ∧ ∀ units ∈ caps.maxInFlightWorkUnits, 0 < units
  | .fairShare _ _ => True

/-- The claim statement of `claim_next_work` under a capacity. -/
def capacityRequest (request : WorkClaimRequest) : WorkClaimRequest :=
  { request with
    capacityModelGroup := some caps.modelGroup
    capacityServiceTier := some caps.serviceTier
    capacityMaxInFlightItems := some caps.maxInFlightItems
    capacityMaxInFlightWorkUnits := caps.maxInFlightWorkUnits }

def cappedConfig (config : FairShareConfig) : FairShareConfig :=
  { config with
    capacityMaxInFlightItems := some caps.maxInFlightItems
    capacityMaxInFlightWorkUnits := caps.maxInFlightWorkUnits }

/-- The claim statements a transaction may run. A fair-share decision tries any flow of the group
and tier; which one follows from the snapshots that it read before. -/
def Asks (request : WorkClaimRequest) : ClaimPath → Prop
  | .modelCapacity given => request = capacityRequest caps given
  | .fairShare config workerId => ∃ attempt : FlowAttempt,
      attempt.flow.key.modelGroup = caps.modelGroup ∧
        attempt.flow.key.serviceTier = caps.serviceTier ∧
          request = claimRequest (cappedConfig caps config) workerId attempt

end Statement

/-- A claim whose rows are written and locked, but not committed. -/
structure PendingClaim where
  request : WorkClaimRequest
  claim : WorkClaim

/-- `now` is the start of the transaction; `wanted` are the locks it still has to take. -/
structure Transaction where
  path : ClaimPath
  now : Timestamp
  wanted : List LockName
  repairs : List (String × String) := []
  pending : Option PendingClaim := none

structure ClaimState where
  tables : BatchTables
  locks : Table LockName
  transactions : ℕ → Option Transaction

inductive ClaimEvent where
  | start (pid : ℕ) (path : ClaimPath) (now : Timestamp)
  | waitLock (pid : ℕ)
  | tryLocks (pid : ℕ)
  | repair (pid : ℕ) (repairs : List (String × String))
  | claim (pid : ℕ) (request : WorkClaimRequest) (rows : RowLocks)
  | commit (pid : ℕ)
  | rollback (pid : ℕ)

namespace Transaction

variable (caps : CapacityCaps) (tx : Transaction) (tables : BatchTables)

/-- The job rows as the transaction sees them, its own repairs included. -/
def seenJobs : List BatchJobRow :=
  repairLegacyScopes caps.serviceTier caps.modelGroup tx.repairs tables.jobs

/-- The claim statement on the committed tables. -/
def runClaim (request : WorkClaimRequest) (rows : RowLocks) : Transaction :=
  { tx with
    pending := (claimNextWork request tx.now rows (tx.seenJobs caps tables) tables.items).claim.map
      (PendingClaim.mk request) }

/-- What the commit of the pending claim writes to the job rows. -/
def committedJobs : List BatchJobRow :=
  match tx.pending with
  | none => tx.seenJobs caps tables
  | some pending => updateWhere (fun row => row.batchId = pending.claim.batchId)
      (workClaimJobRow tx.now) (tx.seenJobs caps tables)

/-- What the commit of the pending claim writes to the item rows. -/
def committedItems : List BatchItemRow :=
  match tx.pending with
  | none => tables.items
  | some pending => updateClaimed tx.now pending.request.workerId pending.request.leaseSeconds
      pending.claim.itemIds tables.items

theorem committedItems_nodup :
    ((tx.committedItems tables).map BatchItemRow.itemId).Nodup := by
  unfold committedItems
  split
  · exact tables.itemIds_nodup
  · next pending _ =>
      have hkept := map_updateWhere (fun item => item.itemId ∈ pending.claim.itemIds)
        (claimRow tx.now pending.request.workerId pending.request.leaseSeconds)
        BatchItemRow.itemId (fun _ _ => rfl) tables.items
      rw [updateClaimed, hkept]
      exact tables.itemIds_nodup

def committed : BatchTables :=
  { jobs := tx.committedJobs caps tables
    items := tx.committedItems tables
    itemIds_nodup := tx.committedItems_nodup tables }

end Transaction

section System

variable (mode : AdvisoryLockMode) (caps : CapacityCaps)

namespace ClaimState

variable (s : ClaimState)

def setTransaction (pid : ℕ) (tx : Transaction) : ClaimState :=
  { s with transactions := Function.update s.transactions pid (some tx) }

/-- A step of an open transaction. -/
def advance (pid : ℕ) (step : Transaction → ClaimState) : ClaimState :=
  match s.transactions pid with
  | none => s
  | some tx => step tx

/-- The end of a transaction gives its locks back. -/
def close (pid : ℕ) : ClaimState :=
  { s with
    locks := s.locks.release pid
    transactions := Function.update s.transactions pid none }

/-- The rows that other transactions have claimed are locked. -/
def RowsLocked (pid : ℕ) (rows : RowLocks) : Prop :=
  ∀ other tx, other ≠ pid → s.transactions other = some tx →
    ∀ pending ∈ tx.pending, ∀ itemId ∈ pending.claim.itemIds, rows.items itemId = true

end ClaimState

def claimEnabled (s : ClaimState) : ClaimEvent → Prop
  | .start pid path _ => s.transactions pid = none ∧ Opens caps path
  | .waitLock pid => ∃ tx name rest, s.transactions pid = some tx ∧ tx.path.isFairShare = false ∧
      tx.wanted = name :: rest ∧ s.locks name = none
  | .tryLocks pid => ∃ tx, s.transactions pid = some tx ∧ tx.path.isFairShare = true ∧
      ∀ name ∈ tx.wanted, s.locks name = none
  | .repair pid _ => ∃ tx, s.transactions pid = some tx ∧ tx.path.isFairShare = true ∧
      tx.wanted = [] ∧ tx.pending = none
  | .claim pid request rows => ∃ tx, s.transactions pid = some tx ∧ tx.wanted = [] ∧
      tx.pending = none ∧ Asks caps request tx.path ∧ s.RowsLocked pid rows
  | .commit pid => ∃ tx, s.transactions pid = some tx ∧ tx.wanted = []
  | .rollback pid => ∃ tx, s.transactions pid = some tx

def claimNext (s : ClaimState) : ClaimEvent → ClaimState
  | .start pid path now => s.setTransaction pid ⟨path, now, pathLocks mode caps path, [], none⟩
  | .waitLock pid => s.advance pid fun tx => match tx.wanted with
      | [] => s
      | name :: rest =>
          { s with locks := s.locks.take pid name }.setTransaction pid { tx with wanted := rest }
  | .tryLocks pid => s.advance pid fun tx =>
      { s with locks := s.locks.takeAll pid tx.wanted }.setTransaction pid { tx with wanted := [] }
  | .repair pid repairs => s.advance pid fun tx =>
      s.setTransaction pid { tx with repairs := tx.repairs ++ repairs }
  | .claim pid request rows => s.advance pid fun tx =>
      s.setTransaction pid (tx.runClaim caps s.tables request rows)
  | .commit pid => s.advance pid fun tx =>
      { s.close pid with tables := tx.committed caps s.tables }
  | .rollback pid => s.close pid

/-- Any number of workers on any tables; no transaction is open at the start. -/
def claimSystem : TransitionSystem ClaimState ClaimEvent where
  initial s := s.locks = Table.empty ∧ s.transactions = fun _ => none
  enabled := claimEnabled caps
  next := claimNext mode caps

end System

section Cap

variable (caps : CapacityCaps)

/-- The rows of the model group that are in flight at an instant. -/
def inFlight (instant : Timestamp) (tables : BatchTables) : List BatchItemRow :=
  capacityItems instant caps.modelGroup caps.serviceTier tables.jobs tables.items

def inFlightWorkUnits (instant : Timestamp) (tables : BatchTables) : ℕ :=
  ((inFlight caps instant tables).map BatchItemRow.workUnits).sum

/-- A claim keeps the caps, or what was in flight before it; one item may pass the cap of the work
units when the group was idle. -/
def WithinCaps (now : Timestamp) (before after : BatchTables) : Prop :=
  ∀ instant, now ≤ instant →
    (inFlight caps instant after).length ≤
        max caps.maxInFlightItems (inFlight caps instant before).length ∧
      ∀ cap ∈ caps.maxInFlightWorkUnits,
        inFlightWorkUnits caps instant after ≤ max cap (inFlightWorkUnits caps instant before) ∨
          (inFlight caps instant before = [] ∧ (inFlight caps instant after).length ≤ 1)

/-- The work units that the cap leaves. -/
def remainingUnits (now : Timestamp) (tables : BatchTables) (cap : ℕ) : ℕ :=
  cap - inFlightWorkUnits caps now tables

/-- The first item that a job has to offer. -/
def firstUnlocked (now : Timestamp) (rows : RowLocks) (job : BatchJobRow)
    (items : List BatchItemRow) : Option BatchItemRow :=
  ((runnableItems now job.batchId items).filter fun item => rows.items item.itemId = false).head?

/-- Under the oversized first item, the first item of the job that comes first fits what the cap
leaves, or the group is idle. -/
def FirstItemFits (tx : Transaction) (tables : BatchTables) (request : WorkClaimRequest)
    (rows : RowLocks) : Prop :=
  let jobs := tx.seenJobs caps tables
  let admitted := JobAdmitted request tx.now rows (capacityState request tx.now jobs tables.items)
    tables.items
  request.allowOversizedFirstItem = true → ∀ job ∈ jobs, admitted job →
    (∀ other ∈ jobs, admitted other → jobOrder request tx.now job other) →
      ∀ first ∈ firstUnlocked tx.now rows job tables.items, ∀ cap ∈ caps.maxInFlightWorkUnits,
        first.workUnits ≤ remainingUnits caps tx.now tables cap ∨ inFlight caps tx.now tables = []

/-- No transaction of the other path has a claim that is not committed. -/
def OtherPathIdle (s : ClaimState) (path : ClaimPath) : Prop :=
  ∀ pid tx, s.transactions pid = some tx → tx.path.isFairShare ≠ path.isFairShare →
    tx.pending = none

/-- The claim statement counts what the other path claims, and an oversized item meets an idle
group. -/
def ClaimsApart (mode : AdvisoryLockMode) (s : ClaimState) : ClaimEvent → Prop
  | .claim pid request rows => ∀ tx, s.transactions pid = some tx →
      (mode = .dual ∨ OtherPathIdle s tx.path) ∧ FirstItemFits caps tx s.tables request rows
  | _ => True

end Cap

section Counts

variable {modelGroup serviceTier : String} {now instant : Timestamp}
  {jobs jobs' : List BatchJobRow} {items eligible : List BatchItemRow}

/-- The columns of a job that the count reads. -/
def countedColumns (job : BatchJobRow) : String × Option String × String :=
  (job.batchId, job.schedulingModelGroup, job.serviceTier)

theorem countedColumns_repairLegacyScopes (repairs : List (String × String)) :
    ∀ jobs : List BatchJobRow,
      (repairLegacyScopes serviceTier modelGroup repairs jobs).map countedColumns =
        jobs.map countedColumns := by
  induction repairs with
  | nil => exact fun _ => rfl
  | cons repair repairs ih =>
      intro jobs
      have hfirst : (repairLegacyScope serviceTier modelGroup repair jobs).map countedColumns =
          jobs.map countedColumns := by
        simp only [repairLegacyScope]
        split
        · rfl
        · exact map_updateWhere (RepairApplies serviceTier modelGroup (strip repair.1))
            (fun job => { job with tenantScopeId := some (strip repair.2) }) countedColumns
            (fun _ _ => rfl) jobs
      exact (ih _).trans hfirst

theorem counted_mono (h : jobs.map countedColumns = jobs'.map countedColumns)
    {item : BatchItemRow} (hcounted : ∃ job ∈ jobs, job.batchId = item.batchId ∧
      effectiveModelGroup job item = some modelGroup ∧ effectiveServiceTier job = serviceTier) :
    ∃ job ∈ jobs', job.batchId = item.batchId ∧
      effectiveModelGroup job item = some modelGroup ∧ effectiveServiceTier job = serviceTier := by
  obtain ⟨job, hjob, hbatch, hgroup, htier⟩ := hcounted
  have hmem : countedColumns job ∈ jobs'.map countedColumns := h ▸ List.mem_map_of_mem hjob
  obtain ⟨job', hjob', hcolumns⟩ := List.mem_map.mp hmem
  simp only [countedColumns, Prod.mk.injEq] at hcolumns
  obtain ⟨hbatch', hgroup', htier'⟩ := hcolumns
  refine ⟨job', hjob', hbatch'.trans hbatch, ?_, ?_⟩
  · rw [effectiveModelGroup, hgroup']
    exact hgroup
  · rw [effectiveServiceTier, htier']
    exact htier

theorem capacityItems_congr (h : jobs.map countedColumns = jobs'.map countedColumns) :
    capacityItems now modelGroup serviceTier jobs items =
      capacityItems now modelGroup serviceTier jobs' items := by
  refine List.filter_congr fun item _ => decide_eq_decide.mpr ?_
  exact and_congr_right fun _ => ⟨counted_mono h, counted_mono h.symm⟩

/-- What is in flight later was in flight before. -/
theorem capacityItems_sublist (hlater : now ≤ instant) :
    (capacityItems instant modelGroup serviceTier jobs items).Sublist
      (capacityItems now modelGroup serviceTier jobs items) := by
  refine List.monotone_filter_right items fun item hitem => ?_
  rw [decide_eq_true_eq] at hitem ⊢
  refine ⟨⟨hitem.1.1, fun expiry hexpiry => ?_⟩, hitem.2⟩
  exact hlater.trans_lt (hitem.1.2 expiry hexpiry)

/-- A claim moves at most its own items into flight. -/
theorem sum_capacityItems_claim_le (units : BatchItemRow → ℕ) {workerId : String}
    {leaseSeconds : ℕ}
    (hunits : ∀ item, units (claimRow now workerId leaseSeconds item) = units item)
    (hnodup : (items.map BatchItemRow.itemId).Nodup) (hmem : ∀ item ∈ eligible, item ∈ items) :
    ((capacityItems instant modelGroup serviceTier jobs (updateClaimed now workerId leaseSeconds
        (eligible.map BatchItemRow.itemId) items)).map units).sum ≤
      ((capacityItems instant modelGroup serviceTier jobs items).map units).sum +
        (eligible.map units).sum := by
  have hupdate := sum_filter_updateWhere_le units
    (fun item => InFlight instant item ∧ ∃ job ∈ jobs, job.batchId = item.batchId ∧
      effectiveModelGroup job item = some modelGroup ∧ effectiveServiceTier job = serviceTier)
    (fun item => item.itemId ∈ eligible.map BatchItemRow.itemId) hunits items
  have hclaimed := sum_filter_keys_le units hnodup hmem
  exact hupdate.trans (Nat.add_le_add_left hclaimed _)

end Counts

section Eligible

variable {limit : ℕ}

/-- After the first row the oversized first item changes nothing. -/
theorem eligibleItemsFrom_later {rows : List BatchItemRow} : ∀ {total rank : ℕ}, 1 < rank →
    eligibleItemsFrom limit true total rank rows =
      eligibleItemsFrom limit false total rank rows := by
  induction rows with
  | nil => exact fun _ => rfl
  | cons row rows ih =>
      intro total rank hrank
      have hnot : ¬rank = 1 := by omega
      simp only [eligibleItemsFrom, hnot, and_false, or_false, ih (Nat.lt_succ_of_lt hrank)]

/-- The claimed units keep the limit, or the claim is one oversized first item. -/
theorem eligibleItemsFrom_first {oversizedFirst : Bool} {rows : List BatchItemRow}
    (hnonempty : eligibleItemsFrom limit oversizedFirst 0 1 rows ≠ []) :
    ((eligibleItemsFrom limit oversizedFirst 0 1 rows).map BatchItemRow.workUnits).sum ≤ limit ∨
      (oversizedFirst = true ∧ ∃ first, rows.head? = some first ∧
        eligibleItemsFrom limit oversizedFirst 0 1 rows = [first]) := by
  cases oversizedFirst with
  | false =>
      have hsum := sum_eligibleItemsFrom_le hnonempty
      exact Or.inl (by omega)
  | true =>
      cases rows with
      | nil => exact absurd rfl hnonempty
      | cons first rest =>
          have hclaimed : eligibleItemsFrom limit true 0 1 (first :: rest) =
              first :: eligibleItemsFrom limit false first.workUnits 2 rest := by
            simp only [eligibleItemsFrom, and_self, or_true, if_true, Nat.zero_add]
            rw [eligibleItemsFrom_later (by omega)]
          rw [hclaimed]
          by_cases hrest : eligibleItemsFrom limit false first.workUnits 2 rest = []
          · exact Or.inr ⟨rfl, first, rfl, by rw [hrest]⟩
          · have hsum := sum_eligibleItemsFrom_le hrest
            rw [List.map_cons, List.sum_cons]
            exact Or.inl hsum

end Eligible

section Claim

variable {caps : CapacityCaps} {tx : Transaction} {tables : BatchTables}
  {request : WorkClaimRequest} {rows : RowLocks}

theorem inFlight_congr {instant : Timestamp} {after : BatchTables}
    (h : after.jobs.map countedColumns = tables.jobs.map countedColumns)
    (hitems : after.items = tables.items) : inFlight caps instant after =
      inFlight caps instant tables := by
  rw [inFlight, hitems, capacityItems_congr h]
  rfl

theorem countedColumns_seenJobs :
    (tx.seenJobs caps tables).map countedColumns = tables.jobs.map countedColumns :=
  countedColumns_repairLegacyScopes tx.repairs tables.jobs

theorem countedColumns_committed :
    (tx.committed caps tables).jobs.map countedColumns = tables.jobs.map countedColumns := by
  have hseen := @countedColumns_seenJobs caps tx tables
  rw [← hseen]
  simp only [Transaction.committed, Transaction.committedJobs]
  split
  · rfl
  · next pending _ =>
      exact map_updateWhere (fun row => row.batchId = pending.claim.batchId)
        (workClaimJobRow tx.now) countedColumns (fun _ _ => rfl) _

/-- The statement of either path counts the group and the tier against the caps. -/
theorem capacityState_asked (tables : BatchTables) (h : Asks caps request tx.path) :
    capacityState request tx.now (tx.seenJobs caps tables) tables.items =
      some
        { remainingSlots := caps.maxInFlightItems - (inFlight caps tx.now tables).length
          remainingWorkUnits := match caps.maxInFlightWorkUnits with
            | none => request.boundedMaxWorkUnits
            | some cap => remainingUnits caps tx.now tables cap } := by
  have hgroup : request.capacityModelGroup = some caps.modelGroup ∧
      request.capacityServiceTier = some caps.serviceTier ∧
        request.capacityMaxInFlightItems = some caps.maxInFlightItems ∧
          request.capacityMaxInFlightWorkUnits = caps.maxInFlightWorkUnits := by
    cases hpath : tx.path with
    | modelCapacity given =>
        rw [hpath] at h
        rw [show request = capacityRequest caps given from h]
        exact ⟨rfl, rfl, rfl, rfl⟩
    | fairShare config workerId =>
        rw [hpath] at h
        obtain ⟨attempt, hmodel, htier, rfl⟩ := h
        exact ⟨congrArg some hmodel, congrArg some htier, rfl, rfl⟩
  obtain ⟨hmodel, htier, hitems, hunits⟩ := hgroup
  have husage : capacityItems tx.now caps.modelGroup caps.serviceTier (tx.seenJobs caps tables)
      tables.items = inFlight caps tx.now tables :=
    capacityItems_congr countedColumns_seenJobs
  have hfirst : ∀ other : Option String,
      (some caps.serviceTier <|> other) = some caps.serviceTier := fun _ => rfl
  simp only [capacityState, hmodel, htier, hitems, hunits, stripOrEmpty, nonBlankText,
    Option.getD_some, caps.modelGroup_stripped, caps.serviceTier_stripped, caps.modelGroup_named,
    caps.serviceTier_named, if_false, hfirst, husage]
  rfl

/-- What a pending claim adds to any count of the rows in flight. -/
theorem sum_inFlight_committed_le (caps : CapacityCaps) (units : BatchItemRow → ℕ)
    {pending : PendingClaim}
    {eligible : List BatchItemRow} (instant : Timestamp)
    (hunits : ∀ item, units (claimRow tx.now pending.request.workerId
      pending.request.leaseSeconds item) = units item)
    (hpending : tx.pending = some pending)
    (hids : pending.claim.itemIds = eligible.map BatchItemRow.itemId)
    (hmem : ∀ item ∈ eligible, item ∈ tables.items) :
    ((inFlight caps instant (tx.committed caps tables)).map units).sum ≤
      ((inFlight caps instant tables).map units).sum + (eligible.map units).sum := by
  have hitems : (tx.committed caps tables).items = updateClaimed tx.now pending.request.workerId
      pending.request.leaseSeconds (eligible.map BatchItemRow.itemId) tables.items := by
    simp only [Transaction.committed, Transaction.committedItems, hpending, hids]
  rw [inFlight, capacityItems_congr countedColumns_committed, hitems]
  exact sum_capacityItems_claim_le units hunits tables.itemIds_nodup hmem

theorem sum_inFlight_later_le (caps : CapacityCaps) (tables : BatchTables)
    (units : BatchItemRow → ℕ) {now instant : Timestamp}
    (hlater : now ≤ instant) : ((inFlight caps instant tables).map units).sum ≤
      ((inFlight caps now tables).map units).sum :=
  ((capacityItems_sublist hlater).map units).sum_le_sum fun _ _ => Nat.zero_le _

/-- The items that a statement claims fit the slots that the cap leaves, and there was one. -/
theorem length_eligibleItems_le {job : BatchJobRow} (hasks : Asks caps request tx.path)
    (hselected : selectedJob request tx.now rows (tx.seenJobs caps tables) tables.items =
      some job) :
    (inFlight caps tx.now tables).length + (eligibleItems request tx.now rows
      (tx.seenJobs caps tables) tables.items job).length ≤ caps.maxInFlightItems := by
  have hcapacity := capacityState_asked tables hasks
  obtain ⟨_, hadmitted⟩ := selectedJob_admitted hselected
  have hslots := (hadmitted.2.2.2.2.2.1 _ hcapacity).1
  have hsublist := eligibleItemsFrom_sublist
    (workUnitClaimLimit request (capacityState request tx.now (tx.seenJobs caps tables)
      tables.items)) request.allowOversizedFirstItem 0 1
    (lockedItems request tx.now rows (capacityState request tx.now (tx.seenJobs caps tables)
      tables.items) job tables.items)
  have hlocked : lockedItemsLimit request (capacityState request tx.now (tx.seenJobs caps tables)
      tables.items) job ≤ caps.maxInFlightItems - (inFlight caps tx.now tables).length := by
    simp only [lockedItemsLimit, hcapacity]
    split <;> omega
  have htaken := (hsublist.length_le.trans (List.length_take_le _ _)).trans hlocked
  simp only [eligibleItems]
  simp only at hslots
  omega

/-- The units that a statement claims fit the cap, or it claims one item of an idle group. -/
theorem units_eligibleItems_le {job : BatchJobRow} {cap : ℕ} (hasks : Asks caps request tx.path)
    (hcap : caps.maxInFlightWorkUnits = some cap)
    (hfits : FirstItemFits caps tx tables request rows)
    (hselected : selectedJob request tx.now rows (tx.seenJobs caps tables) tables.items = some job)
    (hnonempty : eligibleItems request tx.now rows
      (tx.seenJobs caps tables) tables.items job ≠ []) :
    inFlightWorkUnits caps tx.now tables + ((eligibleItems request tx.now rows
        (tx.seenJobs caps tables) tables.items job).map BatchItemRow.workUnits).sum ≤ cap ∨
      (inFlight caps tx.now tables = [] ∧ (eligibleItems request tx.now rows
        (tx.seenJobs caps tables) tables.items job).length ≤ 1) := by
  have hcapacity := capacityState_asked tables hasks
  obtain ⟨hjob, hadmitted⟩ := selectedJob_admitted hselected
  have hremaining := (hadmitted.2.2.2.2.2.1 _ hcapacity).2
  have hlimit : workUnitClaimLimit request (capacityState request tx.now (tx.seenJobs caps tables)
      tables.items) ≤ remainingUnits caps tx.now tables cap := by
    rw [hcapacity]
    simp only [workUnitClaimLimit, hcap]
    exact min_le_right _ _
  simp only [hcap, remainingUnits] at hremaining hlimit
  rcases eligibleItemsFrom_first hnonempty with hsum | ⟨hoversized, first, hfirst, hclaimed⟩
  · refine Or.inl ?_
    have hunits : ((eligibleItems request tx.now rows (tx.seenJobs caps tables) tables.items
        job).map BatchItemRow.workUnits).sum ≤ cap - inFlightWorkUnits caps tx.now tables :=
      hsum.trans hlimit
    omega
  · have hunlocked : firstUnlocked tx.now rows job tables.items = some first := by
      rw [firstUnlocked, ← hfirst, lockedItems]
      cases hzero : lockedItemsLimit request
          (capacityState request tx.now (tx.seenJobs caps tables) tables.items) job with
      | zero => simp [lockedItems, hzero] at hfirst
      | succ n => cases (runnableItems tx.now job.batchId tables.items).filter fun item =>
          rows.items item.itemId = false <;> rfl
    have heligible : eligibleItems request tx.now rows (tx.seenJobs caps tables) tables.items job =
        [first] := hclaimed
    rw [heligible]
    rcases hfits hoversized job hjob hadmitted (fun other hother hotherAdmitted =>
      selectedJob_first hselected hother hotherAdmitted) first hunlocked cap hcap with hfit | hidle
    · refine Or.inl ?_
      simp only [remainingUnits] at hfit
      rw [List.map_singleton, List.sum_singleton]
      omega
    · exact Or.inr ⟨hidle, Nat.le_refl 1⟩

/-- One claim on its own: committed to the tables that it counted, it keeps the caps. -/
theorem runClaim_withinCaps {pending : PendingClaim} (hasks : Asks caps request tx.path)
    (hfits : FirstItemFits caps tx tables request rows)
    (hpending : (tx.runClaim caps tables request rows).pending = some pending) :
    WithinCaps caps tx.now tables
      ((tx.runClaim caps tables request rows).committed caps tables) := by
  obtain ⟨claim, hclaim, hclaimed⟩ := Option.map_eq_some_iff.mp hpending
  obtain ⟨job, hselected, hnonempty, _, _, hids, _⟩ := claimNextWork_some hclaim
  have hids' : pending.claim.itemIds = (eligibleItems request tx.now rows
      (tx.seenJobs caps tables) tables.items job).map BatchItemRow.itemId := by
    rw [← hclaimed]
    exact hids
  have hmem : ∀ item ∈ eligibleItems request tx.now rows (tx.seenJobs caps tables) tables.items
      job, item ∈ tables.items := fun item hitem => (mem_eligibleItems hitem).1
  intro instant hlater
  have hlength := sum_inFlight_committed_le caps (fun _ => 1) instant (fun _ => rfl)
    hpending hids' hmem
  have hlengthLater := sum_inFlight_later_le caps tables (fun _ => 1) hlater
  simp only [List.map_const', List.sum_replicate_nat, Nat.mul_one] at hlength hlengthLater
  have hslots := length_eligibleItems_le hasks hselected
  refine ⟨by omega, fun cap hcap => ?_⟩
  have hunits := sum_inFlight_committed_le caps BatchItemRow.workUnits instant
    (fun _ => rfl) hpending hids' hmem
  have hunitsLater := sum_inFlight_later_le caps tables
    BatchItemRow.workUnits hlater
  rcases units_eligibleItems_le hasks hcap hfits hselected hnonempty with hfit | ⟨hidle, hone⟩
  · refine Or.inl ?_
    simp only [inFlightWorkUnits] at hfit ⊢
    omega
  · have hbefore : (inFlight caps instant tables).length = 0 := by
      rw [hidle, List.length_nil] at hlengthLater
      omega
    exact Or.inr ⟨List.length_eq_zero_iff.mp hbefore, by omega⟩

end Claim

section Runs

variable {mode : AdvisoryLockMode} {caps : CapacityCaps} {s : ClaimState}

/-- What every state of a run keeps: a transaction holds the locks it took, at most one claim is
pending, and its commit keeps the caps of the tables as they are. -/
structure ClaimsOrdered (mode : AdvisoryLockMode) (caps : CapacityCaps) (s : ClaimState) :
    Prop where
  held : ∀ pid tx, s.transactions pid = some tx →
    ∃ taken, pathLocks mode caps tx.path = taken ++ tx.wanted ∧ s.locks.Holds pid taken
  ready : ∀ pid tx, s.transactions pid = some tx → tx.pending ≠ none → tx.wanted = []
  alone : ∀ pid tx other tx', s.transactions pid = some tx → s.transactions other = some tx' →
    tx.pending ≠ none → tx'.pending ≠ none → pid = other
  within : ∀ pid tx, s.transactions pid = some tx → tx.pending ≠ none →
    WithinCaps caps tx.now s.tables (tx.committed caps s.tables)

theorem ClaimState.advance_some {pid : ℕ} {tx : Transaction} {step : Transaction → ClaimState}
    (h : s.transactions pid = some tx) : s.advance pid step = step tx := by
  rw [ClaimState.advance, h]

/-- A ready transaction holds all its locks. -/
theorem ClaimsOrdered.holds {pid : ℕ} {tx : Transaction} (h : ClaimsOrdered mode caps s)
    (htx : s.transactions pid = some tx) (hwanted : tx.wanted = []) :
    s.locks.Holds pid (pathLocks mode caps tx.path) := by
  obtain ⟨taken, htaken, hholds⟩ := h.held pid tx htx
  rw [hwanted, List.append_nil] at htaken
  exact htaken ▸ hholds

/-- Two paths have a lock in common when they are the same, or in dual mode. -/
theorem pathLocks_shared (caps : CapacityCaps) {path path' : ClaimPath}
    (h : mode = .dual ∨ path.isFairShare = path'.isFairShare) :
    ∃ name, name ∈ pathLocks mode caps path ∧ name ∈ pathLocks mode caps path' := by
  have hcapacity : ∃ name, name ∈ modelCapacityLocks mode caps.modelGroup caps.serviceTier := by
    cases mode <;> exact ⟨_, List.mem_cons_self⟩
  have hflow : ∃ name, name ∈ schedulerFlowLocks mode caps.modelGroup caps.serviceTier := by
    cases mode <;> exact ⟨_, List.mem_cons_self⟩
  have hshared : mode = .dual → ∃ name,
      name ∈ modelCapacityLocks mode caps.modelGroup caps.serviceTier ∧
        name ∈ schedulerFlowLocks mode caps.modelGroup caps.serviceTier := by
    rintro rfl
    exact legacy_shared
  cases path with
  | modelCapacity request =>
      cases path' with
      | modelCapacity request' =>
          obtain ⟨name, hname⟩ := hcapacity
          exact ⟨name, hname, hname⟩
      | fairShare config' workerId' => exact hshared (h.resolve_right Bool.false_ne_true)
  | fairShare config workerId =>
      cases path' with
      | modelCapacity request' =>
          obtain ⟨name, hname, hname'⟩ := hshared (h.resolve_right Bool.false_ne_true.symm)
          exact ⟨name, hname', hname⟩
      | fairShare config' workerId' =>
          obtain ⟨name, hname⟩ := hflow
          exact ⟨name, hname, hname⟩

/-- While a ready transaction may claim, no other claim is pending. -/
theorem ClaimsOrdered.no_other_pending {pid other : ℕ} {tx tx' : Transaction}
    (h : ClaimsOrdered mode caps s) (htx : s.transactions pid = some tx) (hwanted : tx.wanted = [])
    (hapart : mode = .dual ∨ OtherPathIdle s tx.path) (hother : s.transactions other = some tx')
    (hne : other ≠ pid) : tx'.pending = none := by
  by_contra hpending
  have hdifferent : ¬(mode = .dual ∨ tx'.path.isFairShare = tx.path.isFairShare) := by
    intro hsame
    obtain ⟨name, hname', hname⟩ := pathLocks_shared caps hsame
    have hholds' := h.holds hother (h.ready other tx' hother hpending)
    exact hne (hholds'.unique (h.holds htx hwanted) hname' hname)
  rw [not_or] at hdifferent
  have hidle := hapart.resolve_left hdifferent.1
  exact hpending (hidle other tx' hother hdifferent.2)

/-- A step of one transaction that leaves the tables and the locks of the others. -/
theorem ClaimsOrdered.set {pid : ℕ} {tx : Transaction} {locks : Table LockName}
    (h : ClaimsOrdered mode caps s)
    (hothers : ∀ other names, other ≠ pid → s.locks.Holds other names → locks.Holds other names)
    (hheld : ∃ taken, pathLocks mode caps tx.path = taken ++ tx.wanted ∧ locks.Holds pid taken)
    (hready : tx.pending ≠ none → tx.wanted = [])
    (halone : tx.pending ≠ none → ∀ other tx', other ≠ pid → s.transactions other = some tx' →
      tx'.pending = none)
    (hwithin : tx.pending ≠ none → WithinCaps caps tx.now s.tables (tx.committed caps s.tables)) :
    ClaimsOrdered mode caps ({ s with locks := locks }.setTransaction pid tx) := by
  have hset : ∀ other tx', Function.update s.transactions pid (some tx) other = some tx' →
      (other = pid ∧ tx' = tx) ∨ (other ≠ pid ∧ s.transactions other = some tx') := by
    intro other tx' htx'
    by_cases hother : other = pid
    · rw [hother, Function.update_self] at htx'
      exact Or.inl ⟨hother, (Option.some.inj htx').symm⟩
    · rw [Function.update_of_ne hother] at htx'
      exact Or.inr ⟨hother, htx'⟩
  refine ⟨?_, ?_, ?_, ?_⟩
  · intro other tx' htx'
    rcases hset other tx' htx' with ⟨rfl, rfl⟩ | ⟨hne, hold⟩
    · exact hheld
    · obtain ⟨taken, htaken, hholds⟩ := h.held other tx' hold
      exact ⟨taken, htaken, hothers other taken hne hholds⟩
  · intro other tx' htx' hpending
    rcases hset other tx' htx' with ⟨rfl, rfl⟩ | ⟨_, hold⟩
    · exact hready hpending
    · exact h.ready other tx' hold hpending
  · intro first tx₁ second tx₂ hfirst hsecond hpending₁ hpending₂
    rcases hset first tx₁ hfirst with ⟨rfl, rfl⟩ | ⟨hne₁, hold₁⟩
    · rcases hset second tx₂ hsecond with ⟨rfl, rfl⟩ | ⟨hne₂, hold₂⟩
      · rfl
      · exact absurd (halone hpending₁ second tx₂ hne₂ hold₂) hpending₂
    · rcases hset second tx₂ hsecond with ⟨rfl, rfl⟩ | ⟨_, hold₂⟩
      · exact absurd (halone hpending₂ first tx₁ hne₁ hold₁) hpending₁
      · exact h.alone first tx₁ second tx₂ hold₁ hold₂ hpending₁ hpending₂
  · intro other tx' htx' hpending
    rcases hset other tx' htx' with ⟨rfl, rfl⟩ | ⟨_, hold⟩
    · exact hwithin hpending
    · exact h.within other tx' hold hpending

/-- The end of a transaction, over tables on which every pending claim still keeps the caps. -/
theorem ClaimsOrdered.close {pid : ℕ} {tables : BatchTables} (h : ClaimsOrdered mode caps s)
    (hwithin : ∀ other tx, other ≠ pid → s.transactions other = some tx → tx.pending ≠ none →
      WithinCaps caps tx.now tables (tx.committed caps tables)) :
    ClaimsOrdered mode caps { s.close pid with tables := tables } := by
  have hclosed : ∀ other tx, Function.update s.transactions pid none other = some tx →
      other ≠ pid ∧ s.transactions other = some tx := by
    intro other tx htx
    by_cases hother : other = pid
    · rw [hother, Function.update_self] at htx
      cases htx
    · rw [Function.update_of_ne hother] at htx
      exact ⟨hother, htx⟩
  refine ⟨?_, ?_, ?_, ?_⟩
  · intro other tx htx
    obtain ⟨hne, hold⟩ := hclosed other tx htx
    obtain ⟨taken, htaken, hholds⟩ := h.held other tx hold
    exact ⟨taken, htaken, hholds.release hne⟩
  · exact fun other tx htx => h.ready other tx (hclosed other tx htx).2
  · exact fun first tx₁ second tx₂ hfirst hsecond =>
      h.alone first tx₁ second tx₂ (hclosed first tx₁ hfirst).2 (hclosed second tx₂ hsecond).2
  · intro other tx htx
    obtain ⟨hne, hold⟩ := hclosed other tx htx
    exact hwithin other tx hne hold

/-- The scope repairs of another transaction change no count. -/
theorem withinCaps_repaired {tx other : Transaction} {tables : BatchTables}
    (hpending : tx.pending = none)
    (h : WithinCaps caps other.now tables (other.committed caps tables)) :
    WithinCaps caps other.now (tx.committed caps tables)
      (other.committed caps (tx.committed caps tables)) := by
  have hitems : (tx.committed caps tables).items = tables.items := by
    simp only [Transaction.committed, Transaction.committedItems, hpending]
  have hotherItems : (other.committed caps (tx.committed caps tables)).items =
      (other.committed caps tables).items := by
    simp only [Transaction.committed, Transaction.committedItems] at hitems ⊢
    rw [hitems]
  have hjobs := @countedColumns_committed caps tx tables
  have hotherJobs : (other.committed caps (tx.committed caps tables)).jobs.map countedColumns =
      (other.committed caps tables).jobs.map countedColumns := by
    rw [countedColumns_committed, hjobs, countedColumns_committed]
  intro instant hlater
  simp only [inFlightWorkUnits, inFlight_congr hjobs hitems,
    inFlight_congr hotherJobs hotherItems]
  exact h instant hlater

/-- One enabled event, when its claim meets the condition. -/
theorem claimNext_ordered {e : ClaimEvent} (h : ClaimsOrdered mode caps s)
    (henabled : claimEnabled caps s e) (hapart : ClaimsApart caps mode s e) :
    ClaimsOrdered mode caps (claimNext mode caps s e) := by
  cases e with
  | start pid path now =>
      have hempty : s.locks.Holds pid [] := fun name hname => absurd hname List.not_mem_nil
      exact h.set (fun _ _ _ hholds => hholds) ⟨[], rfl, hempty⟩ (absurd rfl) (absurd rfl)
        (absurd rfl)
  | waitLock pid =>
      obtain ⟨tx, name, rest, htx, _, hwanted, hfree⟩ := henabled
      obtain ⟨taken, htaken, hholds⟩ := h.held pid tx htx
      have hnone : tx.pending = none := by
        by_contra hpending
        rw [h.ready pid tx htx hpending] at hwanted
        cases hwanted
      have hself : (s.locks.take pid name).Holds pid (taken ++ [name]) := by
        refine hholds.take_same.append fun other hother => ?_
        rw [List.mem_singleton.mp hother]
        exact Table.take_self s.locks pid name
      have hnames : pathLocks mode caps tx.path = taken ++ [name] ++ rest := by
        rw [htaken, hwanted, List.append_assoc, List.singleton_append]
      simp only [claimNext, ClaimState.advance_some htx, hwanted]
      exact h.set (fun _ _ _ hother => hother.take hfree) ⟨taken ++ [name], hnames, hself⟩
        (absurd hnone) (absurd hnone) (absurd hnone)
  | tryLocks pid =>
      obtain ⟨tx, htx, _, hfree⟩ := henabled
      obtain ⟨taken, htaken, hholds⟩ := h.held pid tx htx
      have hself : (s.locks.takeAll pid tx.wanted).Holds pid (taken ++ tx.wanted) :=
        hholds.takeAll_same.append Table.takeAll_holds
      simp only [claimNext, ClaimState.advance_some htx]
      refine h.set ?_ ⟨taken ++ tx.wanted, ?_, hself⟩
        (fun _ => rfl) ?_ (h.within pid tx htx)
      · intro other names hne hother
        exact hother.takeAll fun name hname => hother.not_mem_of_free (hfree name hname)
      · rw [List.append_nil]
        exact htaken
      · intro hpending other tx' hne hother
        by_contra hpending'
        exact hne (h.alone other tx' pid tx hother htx hpending' hpending)
  | repair pid repairs =>
      obtain ⟨tx, htx, _, hwanted, hnone⟩ := henabled
      simp only [claimNext, ClaimState.advance_some htx]
      exact h.set (fun _ _ _ hholds => hholds) (h.held pid tx htx) (absurd hnone) (absurd hnone)
        (absurd hnone)
  | claim pid request rows =>
      obtain ⟨tx, htx, hwanted, hnone, hasks, _⟩ := henabled
      obtain ⟨hserial, hfits⟩ := hapart tx htx
      simp only [claimNext, ClaimState.advance_some htx]
      refine h.set (fun _ _ _ hholds => hholds)
        (h.held pid tx htx) (fun _ => hwanted) ?_ ?_
      · intro _ other tx' hne hother
        exact h.no_other_pending htx hwanted hserial hother hne
      · intro hpending
        obtain ⟨pending, hsome⟩ := Option.ne_none_iff_exists'.mp hpending
        exact runClaim_withinCaps hasks hfits hsome
  | commit pid =>
      obtain ⟨tx, htx, _⟩ := henabled
      simp only [claimNext, ClaimState.advance_some htx]
      refine h.close fun other tx' hne hother hpending' => ?_
      by_cases hpending : tx.pending = none
      · exact withinCaps_repaired hpending (h.within other tx' hother hpending')
      · exact absurd (h.alone other tx' pid tx hother htx hpending' hpending) hne
  | rollback pid =>
      exact h.close fun other tx' _ hother => h.within other tx' hother

theorem claims_ordered (hs : ReachableBy (claimSystem mode caps) (ClaimsApart caps mode) s) :
    ClaimsOrdered mode caps s := by
  refine hs.invariant ?_ fun _ _ => claimNext_ordered
  rintro s ⟨_, hnone⟩
  have hclosed : ∀ pid tx, s.transactions pid ≠ some tx := by
    intro pid tx htx
    rw [hnone] at htx
    cases htx
  exact ⟨fun pid tx htx => absurd htx (hclosed pid tx), fun pid tx htx =>
    absurd htx (hclosed pid tx),
    fun pid tx _ _ htx => absurd htx (hclosed pid tx), fun pid tx htx =>
      absurd htx (hclosed pid tx)⟩

end Runs

/-- Each commit of a claim keeps the caps, in a run whose claims meet the condition. -/
theorem commits_within_caps {mode : AdvisoryLockMode} {caps : CapacityCaps} {s : ClaimState}
    (hs : ReachableBy (claimSystem mode caps) (ClaimsApart caps mode) s) {pid : ℕ}
    {tx : Transaction} (htx : s.transactions pid = some tx)
    (hpending : tx.pending ≠ none) :
    claimEnabled caps s (.commit pid) ∧
      WithinCaps caps tx.now s.tables (claimNext mode caps s (.commit pid)).tables := by
  have hordered := claims_ordered hs
  refine ⟨⟨tx, htx, hordered.ready pid tx htx hpending⟩, ?_⟩
  simp only [claimNext, ClaimState.advance_some htx]
  exact hordered.within pid tx htx hpending

/-! Two tenants with one pending item each, under a cap of one item. -/

def oneSlot : CapacityCaps where
  modelGroup := "m"
  serviceTier := "standard"
  maxInFlightItems := 1
  modelGroup_stripped := by decide +kernel
  serviceTier_stripped := by decide +kernel
  modelGroup_named := by decide
  serviceTier_named := by decide

def twoQueues : BatchTables where
  jobs := [TenantInFlightCap.teamJob "job-a" 1,
    { TenantInFlightCap.teamJob "job-b" 1 with tenantScopeId := some "b" }]
  items := [TenantInFlightCap.pendingItem "a-1" "job-a" 1 1,
    TenantInFlightCap.pendingItem "b-1" "job-b" 1 1]
  itemIds_nodup := by decide +kernel

def sliceRequest : WorkClaimRequest :=
  { workerId := "slice"
    maxItems := 1
    maxWorkUnits := 10
    leaseSeconds := 60
    allowedModelGroups := ["m"]
    serviceTier := some "standard"
    allowOversizedFirstItem := false }

def flowConfig : FairShareConfig := { maxItems := 1, maxWorkUnits := 10, leaseSeconds := 60 }

def firstRowLocked : RowLocks := ⟨fun _ => false, fun itemId => itemId == "a-1"⟩

/-- The decision of the fair-share transaction while `a-1` is locked: the flow of the first tenant
is empty, and it claims from the second. -/
def flowDecision : FairShareResult :=
  claimNextFairShareWork teamDigests (cappedConfig oneSlot flowConfig) "flows" "standard" "m" 10 10
    firstRowLocked ⟨twoQueues.jobs, twoQueues.items, []⟩

def claimedFlow : FlowAttempt := flowDecision.attempts.getLast (by decide +kernel)

def flowRequest : WorkClaimRequest :=
  claimRequest (cappedConfig oneSlot flowConfig) "flows" claimedFlow

/-- The transaction of the model-capacity path with its claim of `a-1`. -/
def sliceClaimed : Transaction :=
  Transaction.runClaim oneSlot ⟨.modelCapacity sliceRequest, 10, [], [], none⟩ twoQueues
    (capacityRequest oneSlot sliceRequest) RowLocks.free

def idleState : ClaimState := ⟨twoQueues, Table.empty, fun _ => none⟩

/-- In dual mode the slice takes both locks before it claims. -/
def dualSlice : List ClaimEvent :=
  [.start 0 (.modelCapacity sliceRequest) 10, .waitLock 0, .waitLock 0,
    .claim 0 (capacityRequest oneSlot sliceRequest) RowLocks.free]

theorem commits_within_caps_slice :
    ∃ s, ReachableBy (claimSystem .dual oneSlot) (ClaimsApart oneSlot .dual) s ∧
      (inFlight oneSlot 10 s.tables).length = 0 ∧
      (inFlight oneSlot 10 (claimNext .dual oneSlot s (.commit 0)).tables).length = 1 ∧
      WithinCaps oneSlot 10 s.tables (claimNext .dual oneSlot s (.commit 0)).tables := by
  have hfires : Fires (claimSystem .dual oneSlot) (ClaimsApart oneSlot .dual) idleState
      dualSlice := by
    refine ⟨⟨rfl, by decide, by decide⟩, trivial, ⟨_, _, _, rfl, rfl, rfl, rfl⟩, trivial,
      ⟨_, _, _, rfl, rfl, rfl, ?_⟩, trivial, ⟨_, rfl, rfl, rfl, rfl, ?_⟩, ?_, trivial⟩
    · have hne : LockName.canonical (advisoryLockName "batch_model_capacity" "standard" "m") ≠
          .legacy (legacyLockPart "m") (legacyLockPart "standard") := nofun
      exact Function.update_of_ne hne (some 0) Table.empty
    · intro other tx hne hother
      have hopened := (Function.update_of_ne hne _ _).symm.trans hother
      have hclosed := (Function.update_of_ne hne _ _).symm.trans hopened
      cases (Function.update_of_ne hne _ _).symm.trans hclosed
    · intro tx htx
      obtain rfl := Option.some.inj
        (show some ⟨.modelCapacity sliceRequest, 10, [], [], none⟩ = some tx from htx)
      exact ⟨Or.inl rfl, Bool.noConfusion⟩
  have hidle : ReachableBy (claimSystem .dual oneSlot) (ClaimsApart oneSlot .dual) idleState :=
    .initial ⟨rfl, rfl⟩
  have hs := hidle.fires hfires
  have hclaimed : sliceClaimed.pending.isSome = true := by decide +kernel
  have htx : (dualSlice.foldl (claimNext .dual oneSlot) idleState).transactions 0 =
      some sliceClaimed := rfl
  have hcommit := commits_within_caps hs htx (Option.isSome_iff_ne_none.mp hclaimed)
  exact ⟨_, hs, by decide +kernel, by decide +kernel, hcommit.2⟩

/-- Both transactions count before either commits; then the first commits. -/
def overlappingClaims : List ClaimEvent :=
  [.start 0 (.modelCapacity sliceRequest) 10, .waitLock 0,
    .claim 0 (capacityRequest oneSlot sliceRequest) RowLocks.free,
    .start 1 (.fairShare flowConfig "flows") 10, .tryLocks 1,
    .claim 1 flowRequest firstRowLocked, .commit 0]

theorem overlappingClaims_fire :
    Fires (claimSystem .canonical oneSlot) (fun _ _ => True) idleState overlappingClaims := by
  refine ⟨⟨rfl, by decide, by decide⟩, trivial, ⟨_, _, _, rfl, rfl, rfl, rfl⟩, trivial,
    ⟨_, rfl, rfl, rfl, rfl, ?_⟩, trivial, ⟨rfl, trivial⟩, trivial, ⟨_, rfl, rfl, ?_⟩, trivial,
    ⟨_, rfl, rfl, rfl, ⟨claimedFlow, by decide +kernel, by decide +kernel, rfl⟩, ?_⟩, trivial,
    ⟨_, rfl, rfl⟩, trivial, trivial⟩
  · intro other tx hne hother
    have hclosed := (Function.update_of_ne hne _ _).symm.trans hother
    cases (Function.update_of_ne hne _ _).symm.trans hclosed
  · intro name hname
    have hapart : ∀ held ∈ modelCapacityLocks .canonical "m" "standard", name ≠ held :=
      fun held hheld heq => canonical_apart hheld (heq ▸ hname)
    exact Function.update_of_ne (hapart _ List.mem_cons_self) _ _
  · intro other tx hne hother pending hpending
    have hslice : ∀ pending ∈ sliceClaimed.pending, ∀ itemId ∈ pending.claim.itemIds,
        firstRowLocked.items itemId = true := by
      decide +kernel
    have hopened := (Function.update_of_ne hne _ _).symm.trans hother
    have hstarted := (Function.update_of_ne hne _ _).symm.trans hopened
    by_cases hzero : other = 0
    · rw [hzero] at hstarted
      obtain rfl := Option.some.inj (show some sliceClaimed = some tx from hstarted)
      exact hslice pending hpending
    · have hfirst := (Function.update_of_ne hzero _ _).symm.trans hstarted
      have hsecond := (Function.update_of_ne hzero _ _).symm.trans hfirst
      cases (Function.update_of_ne hzero _ _).symm.trans hsecond

/-- Both paths count the group before the other commits, and each claims the one slot. -/
theorem canonical_claims_exceed_cap :
    ∃ s, Reachable (claimSystem .canonical oneSlot) s ∧
      ∃ tx, s.transactions 1 = some tx ∧ claimEnabled oneSlot s (.commit 1) ∧
        (inFlight oneSlot tx.now s.tables).length = 1 ∧
        (inFlight oneSlot tx.now
          (claimNext .canonical oneSlot s (.commit 1)).tables).length = 2 ∧
        ¬WithinCaps oneSlot tx.now s.tables
          (claimNext .canonical oneSlot s (.commit 1)).tables := by
  refine ⟨_, ReachableBy.fires (.initial ⟨rfl, rfl⟩) overlappingClaims_fire, _, rfl,
    ⟨_, rfl, rfl⟩, ?_, ?_, ?_⟩
  · decide +kernel
  · decide +kernel
  · intro hwithin
    have hlength := (hwithin 10 (le_refl _)).1
    revert hlength
    decide +kernel

end CapacityClaims
