import DeltaLLM.FairSharePreview
import DeltaLLM.PromotionExactlyOnce

/-! # The limits on pending batches and queued work

A promotion counts under an advisory lock of its scope and keeps the lock until it commits. A
scope's own jobs are those whose creators are limited under it; the counting queries see these and
may see more. No promotion takes a scope's own jobs, or a tenant's own queued work, over the limit.
-/
namespace PendingLimits

open BatchRecords
open CreateSessions
open FairSharePreview (StableScope stableScope_apiKey)
open FlowSnapshots (SpaceFree stableTenantScopeId strip_api_key)
open PromotionExactlyOnce
open PromotionSteps
open PythonText
open SessionPromotion
open TransitionRuns

/-! ## Own jobs and own work -/

/-- The scope under which the creator of a job is limited. -/
def ownScope (job : BatchJobRow) : Option PendingScopeTarget :=
  batchPendingScopeTarget job.createdByTeamId job.createdByApiKey

def ownActive (scope : PendingScopeTarget) (jobs : List BatchJobRow) : ℕ :=
  jobs.countP fun job => ownScope job = some scope ∧ job.status.terminal = false

/-- A job with queued items that is stored under the tenant. -/
def OwnTenantJob (tenant : TenantScope) (job : BatchJobRow) : Prop :=
  (job.status = .queued ∨ job.status = .inProgress) ∧
    job.tenantScopeType = some tenant.scopeType ∧ job.tenantScopeId = some tenant.scopeId

instance (tenant : TenantScope) : DecidablePred (OwnTenantJob tenant) :=
  fun _ => inferInstanceAs (Decidable (_ ∧ _))

def ownQueued (tenant : TenantScope) (now : Timestamp) (s : State) : ℕ :=
  queuedUnits (OwnTenantJob tenant) now s.jobs s.items

theorem nonBlankText_some {value : Option String} {text : String}
    (h : nonBlankText value = some text) : value = some text ∧ text ≠ "" := by
  unfold nonBlankText at h
  split at h
  next text' =>
    split at h
    next => cases h
    next hne =>
      obtain rfl := Option.some.inj h
      exact ⟨rfl, hne⟩
  next => cases h

theorem nonBlankText_of_ne {text : String} (h : text ≠ "") :
    nonBlankText (some text) = some text := if_neg h

/-- The counting query of a scope sees all its own jobs. -/
theorem ownActive_le_activeJobs {team apiKey : Option String} {scope : PendingScopeTarget}
    (hscope : batchPendingScopeTarget team apiKey = some scope) (jobs : List BatchJobRow) :
    ownActive scope jobs ≤ scope.activeJobs jobs := by
  unfold batchPendingScopeTarget at hscope
  split at hscope
  next team hteam =>
    obtain rfl := Option.some.inj hscope
    obtain ⟨-, hne⟩ := nonBlankText_some hteam
    rw [PendingScopeTarget.activeJobs, countActiveJobsForScope, nonBlankText_of_ne hne]
    refine List.countP_mono_left fun job _ hjob => ?_
    obtain ⟨hown, hactive⟩ := of_decide_eq_true hjob
    refine decide_eq_true ⟨?_, hactive⟩
    unfold ownScope batchPendingScopeTarget at hown
    split at hown
    next team' hteam' =>
      obtain ⟨hjobTeam, -⟩ := nonBlankText_some hteam'
      rw [hjobTeam, (PendingScopeTarget.mk.inj (Option.some.inj hown)).2.1]
    next =>
      obtain ⟨key, -, hkey⟩ := Option.map_eq_some_iff.mp hown
      exact absurd (PendingScopeTarget.mk.inj hkey).1 (by decide)
  next =>
    obtain ⟨key, hkey, rfl⟩ := Option.map_eq_some_iff.mp hscope
    obtain ⟨-, hne⟩ := nonBlankText_some hkey
    have hnone : nonBlankText none = none := rfl
    rw [PendingScopeTarget.activeJobs, countActiveJobsForScope, nonBlankText_of_ne hne, hnone]
    refine List.countP_mono_left fun job _ hjob => ?_
    obtain ⟨hown, hactive⟩ := of_decide_eq_true hjob
    refine decide_eq_true ⟨?_, hactive⟩
    unfold ownScope batchPendingScopeTarget at hown
    split at hown
    next =>
      exact absurd (PendingScopeTarget.mk.inj (Option.some.inj hown)).1 (by decide)
    next =>
      obtain ⟨key', hjobKey, hsame⟩ := Option.map_eq_some_iff.mp hown
      rw [(nonBlankText_some hjobKey).1, (PendingScopeTarget.mk.inj hsame).2.1]

/-- The counting query of a team sees nothing else. -/
theorem activeJobs_team {team : String} (hne : team ≠ "") (jobs : List BatchJobRow) :
    PendingScopeTarget.activeJobs ⟨"team", team, none, some team⟩ jobs =
      ownActive ⟨"team", team, none, some team⟩ jobs := by
  rw [PendingScopeTarget.activeJobs, countActiveJobsForScope, nonBlankText_of_ne hne, ownActive]
  refine List.countP_congr fun job _ => ?_
  simp only [decide_eq_true_eq]
  refine and_congr_left fun _ => ⟨fun hteam => ?_, fun hown => ?_⟩
  · rw [ownScope, batchPendingScopeTarget, hteam, nonBlankText_of_ne hne]
  · unfold ownScope batchPendingScopeTarget at hown
    split at hown
    next team' hteam' =>
      rw [(nonBlankText_some hteam').1, (PendingScopeTarget.mk.inj (Option.some.inj hown)).2.1]
    next =>
      obtain ⟨key, -, hkey⟩ := Option.map_eq_some_iff.mp hown
      exact absurd (PendingScopeTarget.mk.inj hkey).1 (by decide)

theorem queuedUnits_mono {p q : BatchJobRow → Prop} [DecidablePred p] [DecidablePred q]
    (h : ∀ job, p job → q job) (now : Timestamp) (jobs : List BatchJobRow)
    (items : List BatchItemRow) : queuedUnits p now jobs items ≤ queuedUnits q now jobs items := by
  have hsub : (items.filter fun item => QueuedItem now item ∧
      ∃ job ∈ jobs, job.batchId = item.batchId ∧ p job).Sublist
        (items.filter fun item => QueuedItem now item ∧
          ∃ job ∈ jobs, job.batchId = item.batchId ∧ q job) := by
    refine List.monotone_filter_right _ fun item hitem => ?_
    obtain ⟨hqueued, job, hjob, hbatch, hp⟩ := of_decide_eq_true hitem
    exact decide_eq_true ⟨hqueued, job, hjob, hbatch, h job hp⟩
  exact (hsub.map _).sum_le_sum fun _ _ => Nat.zero_le _

section QueuedUnits

variable {counts : BatchJobRow → Prop} [DecidablePred counts]

theorem queuedUnits_le_units (counts : BatchJobRow → Prop) [DecidablePred counts]
    (now : Timestamp) (jobs : List BatchJobRow) (items : List BatchItemRow) :
    queuedUnits counts now jobs items ≤ (items.map BatchItemRow.workUnits).sum :=
  (List.filter_sublist.map _).sum_le_sum fun _ _ => Nat.zero_le _

theorem queuedUnits_eq_zero {now : Timestamp} {jobs : List BatchJobRow} {items : List BatchItemRow}
    (h : ∀ item ∈ items, ∀ job ∈ jobs, job.batchId = item.batchId → ¬counts job) :
    queuedUnits counts now jobs items = 0 := by
  have hnone : items.filter (fun item => QueuedItem now item ∧
      ∃ job ∈ jobs, job.batchId = item.batchId ∧ counts job) = [] := by
    rw [List.filter_eq_nil_iff]
    intro item hitem hcounted
    obtain ⟨-, job, hjob, hbatch, hcounts⟩ := of_decide_eq_true hcounted
    exact h item hitem job hjob hbatch hcounts
  rw [queuedUnits, hnone]
  rfl

/-- Jobs that come with items of their own add only the units of these items. -/
theorem queuedUnits_append (now : Timestamp) {jobs added : List BatchJobRow}
    {items new : List BatchItemRow}
    (h : ∀ item ∈ items, ∀ job ∈ added, job.batchId ≠ item.batchId) :
    queuedUnits counts now (jobs ++ added) (items ++ new) =
      queuedUnits counts now jobs items + queuedUnits counts now (jobs ++ added) new := by
  have hold : items.filter (fun item => QueuedItem now item ∧
      ∃ job ∈ jobs ++ added, job.batchId = item.batchId ∧ counts job) =
      items.filter fun item => QueuedItem now item ∧
        ∃ job ∈ jobs, job.batchId = item.batchId ∧ counts job := by
    refine List.filter_congr fun item hitem => decide_eq_decide.mpr (and_congr_right fun _ => ?_)
    constructor
    · rintro ⟨job, hjob, hbatch, hcounts⟩
      rcases List.mem_append.mp hjob with hjob | hjob
      · exact ⟨job, hjob, hbatch, hcounts⟩
      · exact absurd hbatch (h item hitem job hjob)
    · rintro ⟨job, hjob, hbatch, hcounts⟩
      exact ⟨job, List.mem_append_left _ hjob, hbatch, hcounts⟩
  rw [queuedUnits, List.filter_append, hold, List.map_append, List.sum_append, queuedUnits,
    queuedUnits]

end QueuedUnits

/-! ## Tenant scopes -/

/-- A tenant scope that the stored form and the query leave alone. -/
structure StableTenant (sha256 : String → String) (tenant : TenantScope) : Prop where
  scopeType : strip tenant.scopeType = tenant.scopeType
  scopeId : strip tenant.scopeId = tenant.scopeId
  apiKey : tenant.scopeType = "api_key" →
    stableTenantScopeId sha256 tenant.scopeType tenant.scopeId = tenant.scopeId

theorem normalizeOptional_some {value : Option String} {text : String}
    (h : normalizeOptional value = some text) : strip text = text ∧ text ≠ "" := by
  unfold normalizeOptional at h
  split at h
  next => cases h
  next hne =>
    obtain rfl := Option.some.inj h
    exact ⟨strip_strip _, hne⟩

theorem scopeValue_type {contract : SessionContract} {scopeType value : String}
    (h : normalizeOptional (contract.scopeValue scopeType) = some value) :
    scopeType ∈ defaultTenantScopePreference := by
  have hnone : normalizeOptional none = none := by decide +kernel
  unfold SessionContract.scopeValue at h
  by_contra hnot
  simp only [defaultTenantScopePreference, List.mem_cons, List.not_mem_nil, or_false,
    not_or] at hnot
  simp only [hnot.1, hnot.2.1, hnot.2.2.1, hnot.2.2.2, if_false] at h
  rw [hnone] at h
  cases h

theorem stableTenant_of_value {sha256 : String → String} (hdigest : SpaceFree sha256)
    {scopeType value : String} (htype : strip scopeType = scopeType) (hstrip : strip value = value)
    (hne : value ≠ "") :
    StableTenant sha256 ⟨scopeType, stableTenantScopeId sha256 scopeType value⟩ := by
  by_cases hkey : scopeType = "api_key"
  · subst hkey
    have hstable := stableScope_apiKey hdigest hstrip hne
    have hfixed : stableTenantScopeId sha256 "api_key"
      (stableTenantScopeId sha256 "api_key" value) =
        stableTenantScopeId sha256 "api_key" value := hstable.fixed
    generalize stableTenantScopeId sha256 "api_key" value = scopeId at hstable hfixed ⊢
    exact ⟨htype, hstable.stripped, fun _ => hfixed⟩
  · have hid : stableTenantScopeId sha256 scopeType value = value := by
      rw [stableTenantScopeId, hstrip, htype, if_neg hne, if_neg hkey]
    refine ⟨htype, ?_, fun heq => absurd heq hkey⟩
    rw [hid]
    exact hstrip

theorem resolveTenantScope_stable {sha256 : String → String} (hdigest : SpaceFree sha256)
    (preference : List String) (contract : SessionContract) :
    StableTenant sha256 (resolveTenantScope sha256 preference contract) := by
  have hnames : ∀ name ∈ defaultTenantScopePreference, strip name = name := by
    have hspaces : ∀ name ∈ defaultTenantScopePreference,
        name.toList.all (fun c => !isSpace c) = true := by
      decide +kernel
    exact fun name hname => strip_of_no_space (no_space_of_all (hspaces name hname))
  unfold resolveTenantScope
  simp only
  cases hfound : (if preference = [] then defaultTenantScopePreference else preference).findSome?
      fun scopeType => (normalizeOptional (contract.scopeValue (lower (strip scopeType)))).map
        fun scopeId => TenantScope.mk (lower (strip scopeType))
          (stableTenantScopeId sha256 (lower (strip scopeType)) scopeId) with
  | none =>
      have hanonymous : strip "anonymous" = "anonymous" := by decide +kernel
      exact ⟨hanonymous, hanonymous, fun h => absurd h (by decide)⟩
  | some tenant =>
      obtain ⟨scopeType, -, hsome⟩ := List.exists_of_findSome?_eq_some hfound
      obtain ⟨value, hvalue, rfl⟩ := Option.map_eq_some_iff.mp hsome
      obtain ⟨hstrip, hne⟩ := normalizeOptional_some hvalue
      exact stableTenant_of_value hdigest (hnames _ (scopeValue_type hvalue)) hstrip hne

variable {w : Promoter} {contracts : List SessionContract} {s s' : State} {pid : ℕ}

theorem tenantScope_stable (w : Promoter) (contract : SessionContract) :
    StableTenant w.sha256 (w.tenantScope contract) :=
  resolveTenantScope_stable w.digest_spaceFree _ _

theorem storedTenantScope_eq (w : Promoter) (contract : SessionContract) :
    storedTenantScope w.sha256 (w.tenantScope contract) = w.tenantScope contract := by
  rw [storedTenantScope]
  split
  next hkey => rw [(tenantScope_stable w contract).apiKey hkey]
  next => rfl

/-- The query of a tenant asks for the columns that its jobs are stored with. -/
theorem tenantQuery_scope {contract : SessionContract} {query : TenantQuery}
    (h : tenantQuery w.sha256 (w.tenantScope contract) contract = some query) :
    query.scopeType = (w.tenantScope contract).scopeType ∧
      query.scopeId = (w.tenantScope contract).scopeId := by
  have hstable := tenantScope_stable w contract
  generalize w.tenantScope contract = tenant at h hstable
  simp only [tenantQuery, hstable.scopeType, hstable.scopeId] at h
  split at h
  next hkey =>
    rw [hstable.apiKey hkey] at h
    split at h
    next =>
      split at h
      next => cases h
      next =>
        obtain rfl := Option.some.inj h
        exact ⟨rfl, rfl⟩
    next =>
      obtain rfl := Option.some.inj h
      exact ⟨rfl, rfl⟩
  next =>
    obtain rfl := Option.some.inj h
    exact ⟨rfl, rfl⟩

/-- The queued-work query of a tenant sees all its own work. -/
theorem ownQueued_le {contract : SessionContract} {query : TenantQuery} (now : Timestamp)
    (h : tenantQuery w.sha256 (w.tenantScope contract) contract = some query) :
    ownQueued (w.tenantScope contract) now s ≤
      getTenantQueuedWorkUnits query now s.jobs s.items := by
  obtain ⟨htype, hid⟩ := tenantQuery_scope h
  refine queuedUnits_mono (fun job hown => ?_) now s.jobs s.items
  rw [OwnTenantJob, ← htype, ← hid] at hown
  exact ⟨hown.1, .inl hown.2⟩

/-! ## What a transaction knows -/

/-- How far the checks of a transaction are. -/
def rank : Stage → ℕ
  | .locked => 0
  | .jobRead => 1
  | .scopeLocked => 2
  | .pendingChecked => 3
  | .tenantLocked => 4
  | .admitted => 5
  | .inserting _ => 6
  | .inserted => 6
  | .marked _ true => 6
  | .reconciling => 0
  | .marked _ false => 0

/-- The units of the lines that are still to be inserted. -/
def unitsLeft : Stage → ℕ
  | .inserting lines => spoolUnits lines
  | _ => 0

def itemUnits (tx : Transaction) : ℕ := (tx.newItems.map BatchItemRow.workUnits).sum

/-- Every spooled line weighs at least one unit. -/
def Weighed (lines : List SpooledRequest) : Prop := ∀ line ∈ lines, 1 ≤ line.estimatedWorkUnits

/-- What a transaction knows once it has passed a check: it holds the lock of its scope, there is
room for its job, it holds the lock of its tenant, there is room for its work. -/
def Passed (w : Promoter) (s : State) (pid : ℕ) (spool : Spool) (tx : Transaction) : ℕ → Prop
  | 2 => ∀ key, pendingLockKey w tx.row.contract = some key → s.advisoryLock key = some pid
  | 3 => 0 < w.maxPendingBatchesPerScope → ∀ scope, tx.row.contract.pendingScope = some scope →
      ownActive scope s.jobs < w.maxPendingBatchesPerScope
  | 4 => ∀ key, tenantLockKey w tx.row.contract = some key → s.advisoryLock key = some pid
  | 5 => 0 < w.tenantMaxQueuedWorkUnits →
      ownQueued (w.tenantScope tx.row.contract) tx.now s + spool.remainingWorkUnits ≤
        w.tenantMaxQueuedWorkUnits
  | _ => True

/-- The job of a transaction and items that weigh no more than the spooled lines. -/
structure Weight (w : Promoter) (spool : Spool) (tx : Transaction) : Prop where
  job : ∃ now, tx.newJobs = [promotedJob w tx.row.contract spool now]
  units : itemUnits tx + unitsLeft tx.stage ≤ spoolUnits spool.lines

structure Checked (w : Promoter) (s : State) (pid : ℕ) (spool : Spool) (tx : Transaction) :
    Prop where
  passed : ∀ check ≤ rank tx.stage, Passed w s pid spool tx check
  weight : 6 ≤ rank tx.stage → Weight w spool tx

def PhaseChecked (w : Promoter) (s : State) (pid : ℕ) : Phase → Prop
  | .spooled _ spool => Weighed spool.lines
  | .transaction _ spool tx => Weighed spool.lines ∧ Checked w s pid spool tx
  | _ => True

theorem spoolStagedItems_weighed {contract : SessionContract} {outcome : ReadOutcome}
    {spool : Spool} (h : spoolStagedItems w contract outcome = .ok spool) :
    Weighed spool.lines := by
  cases outcome with
  | lines count =>
      simp only [spoolStagedItems] at h
      split at h
      next => cases h
      next =>
        split at h
        next => cases h
        next =>
          obtain rfl := Except.ok.inj h
          intro line hline
          obtain ⟨record, -, rfl⟩ := List.mem_map.mp hline
          exact le_max_left _ _
  | _ => cases h

theorem pendingLockKey_some {contract : SessionContract} {scope : PendingScopeTarget}
    (hlimit : 0 < w.maxPendingBatchesPerScope) (hscope : contract.pendingScope = some scope) :
    pendingLockKey w contract = some (w.lockKey scope.scopeType scope.scopeId) := by
  rw [pendingLockKey, if_neg (by omega), hscope]
  rfl

theorem tenantLockKey_some (hlimit : 0 < w.tenantMaxQueuedWorkUnits) (contract : SessionContract) :
    tenantLockKey w contract =
      some (w.lockKey (w.tenantScope contract).scopeType (w.tenantScope contract).scopeId) := by
  rw [tenantLockKey, if_neg (by omega)]

theorem room_of_count {contract : SessionContract}
    (hcount : activeJobsExceeded w contract s.jobs = false)
    (hlimit : 0 < w.maxPendingBatchesPerScope) {scope : PendingScopeTarget}
    (hscope : contract.pendingScope = some scope) :
    ownActive scope s.jobs < w.maxPendingBatchesPerScope := by
  have hown := ownActive_le_activeJobs hscope s.jobs
  rw [activeJobsExceeded, hscope] at hcount
  simp only [decide_eq_false_iff_not, not_and, not_le] at hcount
  exact hown.trans_lt (hcount hlimit)

theorem room_of_sum {contract : SessionContract} {spool : Spool} {now : Timestamp}
    (hsum : tenantWorkAllowed w contract spool now s = some true) :
    ownQueued (w.tenantScope contract) now s + spool.remainingWorkUnits ≤
      w.tenantMaxQueuedWorkUnits := by
  obtain ⟨query, hquery, hallowed⟩ := Option.map_eq_some_iff.mp hsum
  have hown := ownQueued_le (s := s) now hquery
  have htotal := of_decide_eq_true hallowed
  omega

theorem promotedItem_units (batchId itemId : String) {line : SpooledRequest}
    (h : 1 ≤ line.estimatedWorkUnits) :
    (promotedItem batchId itemId line).workUnits = line.estimatedWorkUnits :=
  max_eq_left h

/-- The rows of some lines weigh no more than the lines. -/
theorem units_le_of_sublist {added : List BatchItemRow} {lines : List SpooledRequest}
    {batchId : String} {itemId : SpooledRequest → String} (hlines : Weighed lines)
    (h : added.Sublist (lines.map fun line => promotedItem batchId (itemId line) line)) :
    (added.map BatchItemRow.workUnits).sum ≤ spoolUnits lines := by
  have hall : (lines.map fun line => promotedItem batchId (itemId line) line).map
      BatchItemRow.workUnits = lines.map SpooledRequest.estimatedWorkUnits := by
    rw [List.map_map]
    exact List.map_congr_left fun line hline => promotedItem_units _ _ (hlines line hline)
  rw [spoolUnits, ← hall]
  exact (h.map _).sum_le_sum fun _ _ => Nat.zero_le _

/-- A check that was passed stays passed while the locks stay and nothing of its own is added. -/
theorem Passed.keep {spool : Spool} {tx tx' : Transaction} {check : ℕ} (hrow : tx'.row = tx.row)
    (hnow : tx'.now = tx.now)
    (hlocks : ∀ key, s.advisoryLock key = some pid → s'.advisoryLock key = some pid)
    (hactive : check = 3 → 0 < w.maxPendingBatchesPerScope → ∀ scope,
      tx.row.contract.pendingScope = some scope → ownActive scope s'.jobs ≤ ownActive scope s.jobs)
    (hqueued : check = 5 → 0 < w.tenantMaxQueuedWorkUnits →
      ownQueued (w.tenantScope tx.row.contract) tx.now s' ≤
        ownQueued (w.tenantScope tx.row.contract) tx.now s)
    (h : Passed w s pid spool tx check) : Passed w s' pid spool tx' check := by
  match check, hactive, hqueued, h with
  | 0, _, _, _ => trivial
  | 1, _, _, _ => trivial
  | 2, _, _, h =>
      rw [Passed, hrow]
      exact fun key hkey => hlocks key (h key hkey)
  | 3, hactive, _, h =>
      rw [Passed, hrow]
      intro hlimit scope hscope
      exact (hactive rfl hlimit scope hscope).trans_lt (h hlimit scope hscope)
  | 4, _, _, h =>
      rw [Passed, hrow]
      exact fun key hkey => hlocks key (h key hkey)
  | 5, _, hqueued, h =>
      rw [Passed, hrow, hnow]
      intro hlimit
      have hbefore := h hlimit
      have hless := hqueued rfl hlimit
      omega
  | _ + 6, _, _, _ => trivial

/-- A stage further, with what the checks in between have established. -/
theorem Checked.raise {spool : Spool} {tx tx' : Transaction} {locks : ℤ → Option ℕ}
    (h : Checked w s pid spool tx) (hmove : StageMove w s pid spool tx tx' locks)
    (hlocks : ∀ key, s.advisoryLock key = some pid → locks key = some pid)
    (hnew : ∀ check ≤ rank tx'.stage, rank tx.stage < check →
      Passed w { s with advisoryLock := locks } pid spool tx' check)
    (hweight : 6 ≤ rank tx'.stage → Weight w spool tx') :
    Checked w { s with advisoryLock := locks } pid spool tx' := by
  obtain ⟨hrow, hnow⟩ := hmove.fixed
  refine ⟨fun check hcheck => ?_, hweight⟩
  by_cases hold : check ≤ rank tx.stage
  · exact (h.passed check hold).keep hrow hnow hlocks (fun _ _ _ _ => le_rfl) (fun _ _ => le_rfl)
  · exact hnew check hcheck (not_le.mp hold)

theorem stageMove_checked {spool : Spool} {tx tx' : Transaction} {locks : ℤ → Option ℕ}
    (hmove : StageMove w s pid spool tx tx' locks) (hweighed : Weighed spool.lines)
    (hstageInv : StageInv spool tx) (h : Checked w s pid spool tx) :
    Checked w { s with advisoryLock := locks } pid spool tx' := by
  have hsame : ∀ key, s.advisoryLock key = some pid → s.advisoryLock key = some pid :=
    fun _ hkey => hkey
  have htaken : ∀ key key', s.advisoryLock key' = some pid →
      Function.update s.advisoryLock key (some pid) key' = some pid := by
    intro key key' hkey
    by_cases heq : key' = key
    · rw [heq, Function.update_self]
    · rwa [Function.update_of_ne heq]
  have hmove' := hmove
  cases hmove with
  | readJob hstage =>
      refine h.raise hmove' hsame (fun check hcheck hnew => ?_) fun hrank => by simp [rank] at hrank
      rw [hstage] at hnew
      obtain rfl : check = 1 := by simp only [rank] at hcheck hnew; omega
      trivial
  | reconcile hstage =>
      refine h.raise hmove' hsame (fun check hcheck hnew => ?_) fun hrank => by simp [rank] at hrank
      rw [hstage] at hnew
      simp only [rank] at hcheck hnew
      omega
  | lockScope key hstage hkey _ =>
      refine h.raise hmove' (htaken key) (fun check hcheck hnew => ?_)
        fun hrank => by simp [rank] at hrank
      rw [hstage] at hnew
      obtain rfl : check = 2 := by simp only [rank] at hcheck hnew; omega
      intro key' hkey'
      obtain rfl : key = key' := Option.some.inj (hkey.symm.trans hkey')
      exact Function.update_self ..
  | noPendingLimit hstage hkey =>
      refine h.raise hmove' hsame (fun check hcheck hnew => ?_) fun hrank => by simp [rank] at hrank
      rw [hstage] at hnew
      obtain rfl | rfl : check = 2 ∨ check = 3 := by simp only [rank] at hcheck hnew; omega
      · intro key' hkey'
        rw [hkey] at hkey'
        cases hkey'
      · intro hlimit scope hscope
        rw [pendingLockKey_some hlimit hscope] at hkey
        cases hkey
  | countActive hstage hcount =>
      refine h.raise hmove' hsame (fun check hcheck hnew => ?_) fun hrank => by simp [rank] at hrank
      rw [hstage] at hnew
      obtain rfl : check = 3 := by simp only [rank] at hcheck hnew; omega
      exact fun hlimit scope hscope => room_of_count hcount hlimit hscope
  | lockTenant key hstage hkey _ =>
      refine h.raise hmove' (htaken key) (fun check hcheck hnew => ?_)
        fun hrank => by simp [rank] at hrank
      rw [hstage] at hnew
      obtain rfl : check = 4 := by simp only [rank] at hcheck hnew; omega
      intro key' hkey'
      obtain rfl : key = key' := Option.some.inj (hkey.symm.trans hkey')
      exact Function.update_self ..
  | noWorkLimit hstage hkey =>
      refine h.raise hmove' hsame (fun check hcheck hnew => ?_) fun hrank => by simp [rank] at hrank
      rw [hstage] at hnew
      obtain rfl | rfl : check = 4 ∨ check = 5 := by simp only [rank] at hcheck hnew; omega
      · intro key' hkey'
        rw [hkey] at hkey'
        cases hkey'
      · intro hlimit
        rw [tenantLockKey_some hlimit] at hkey
        cases hkey
  | sumQueued hstage hsum =>
      refine h.raise hmove' hsame (fun check hcheck hnew => ?_) fun hrank => by simp [rank] at hrank
      rw [hstage] at hnew
      obtain rfl : check = 5 := by simp only [rank] at hcheck hnew; omega
      exact fun _ => room_of_sum hsum
  | createJob now hstage =>
      refine h.raise hmove' hsame (fun check hcheck hnew => ?_) (fun _ => ?_)
      · rw [hstage] at hnew
        obtain rfl : check = 6 := by simp only [rank] at hcheck hnew; omega
        trivial
      · rw [StageInv, hstage] at hstageInv
        refine ⟨⟨now, rfl⟩, ?_⟩
        simp [itemUnits, hstageInv.2.2, unitsLeft]
  | createItems count itemId lines own hstage hown =>
      have hweight := h.weight (by rw [hstage]; exact le_rfl)
      refine h.raise hmove' hsame (fun check hcheck hnew => ?_) (fun _ => ⟨hweight.job, ?_⟩)
      · rw [hstage] at hnew
        simp only [rank] at hcheck hnew
        omega
      · obtain ⟨added, rfl, hadded⟩ := createItems_some hown
        rw [StageInv, hstage] at hstageInv
        obtain ⟨-, done, hdone, -⟩ := hstageInv
        have htaken : Weighed (lines.take count) := by
          intro line hline
          refine hweighed line ?_
          rw [← hdone]
          exact List.mem_append_right _ (List.mem_of_mem_take hline)
        have hunits := hweight.units
        rw [hstage, unitsLeft] at hunits
        have hsplit : spoolUnits (lines.take count) + spoolUnits (lines.drop count) =
            spoolUnits lines := by
          rw [spoolUnits, spoolUnits, ← List.sum_append, ← List.map_append, List.take_append_drop,
            spoolUnits]
        have hnewUnits := units_le_of_sublist htaken hadded
        simp only [itemUnits, unitsLeft, List.map_append, List.sum_append] at hunits ⊢
        omega
  | inserted hstage hlength =>
      have hweight := h.weight (by rw [hstage]; exact le_rfl)
      refine h.raise hmove' hsame (fun check hcheck hnew => ?_) (fun _ => ⟨hweight.job, ?_⟩)
      · rw [hstage] at hnew
        simp only [rank] at hcheck hnew
        omega
      · have hunits := hweight.units
        rw [hstage] at hunits
        exact hunits
  | mark now hstage =>
      have hweight := h.weight (by rw [hstage]; exact le_rfl)
      refine h.raise hmove' hsame (fun check hcheck hnew => ?_) (fun _ => ⟨hweight.job, ?_⟩)
      · rw [hstage] at hnew
        simp only [rank] at hcheck hnew
        omega
      · have hunits := hweight.units
        rw [hstage] at hunits
        exact hunits
  | markReconciled now hstage =>
      rw [StageInv, hstage] at hstageInv
      exact hstageInv.elim

/-! ## What the others find -/

/-- A step of another process takes no lock of `q` and adds nothing that a lock of `q` guards. -/
structure Harmless (w : Promoter) (s s' : State) (q : ℕ) (tx : Transaction) : Prop where
  locks : ∀ key, s.advisoryLock key = some q → s'.advisoryLock key = some q
  active : (∀ key, pendingLockKey w tx.row.contract = some key → s.advisoryLock key = some q) →
    0 < w.maxPendingBatchesPerScope → ∀ scope, tx.row.contract.pendingScope = some scope →
      ownActive scope s'.jobs ≤ ownActive scope s.jobs
  queued : (∀ key, tenantLockKey w tx.row.contract = some key → s.advisoryLock key = some q) →
    0 < w.tenantMaxQueuedWorkUnits →
      ownQueued (w.tenantScope tx.row.contract) tx.now s' ≤
        ownQueued (w.tenantScope tx.row.contract) tx.now s

theorem Checked.keep {q : ℕ} {spool : Spool} {tx : Transaction} (hkeep : Harmless w s s' q tx)
    (h : Checked w s q spool tx) : Checked w s' q spool tx := by
  refine ⟨fun check hcheck => ?_, h.weight⟩
  refine (h.passed check hcheck).keep rfl rfl hkeep.locks ?_ ?_
  · rintro rfl
    exact hkeep.active (h.passed 2 (by omega))
  · rintro rfl
    exact hkeep.queued (h.passed 4 (by omega))

theorem PhaseChecked.keep {q : ℕ} {phase : Phase}
    (hkeep : ∀ session spool tx, phase = .transaction session spool tx → Harmless w s s' q tx)
    (h : PhaseChecked w s q phase) : PhaseChecked w s' q phase := by
  cases phase with
  | transaction session spool tx => exact ⟨h.1, h.2.keep (hkeep session spool tx rfl)⟩
  | _ => exact h

/-- A step that leaves the batch tables and the locks of `q` alone. -/
theorem harmless_of_same {q : ℕ} (hsame : SameBatches s s')
    (hlocks : ∀ key, s.advisoryLock key = some q → s'.advisoryLock key = some q)
    (tx : Transaction) : Harmless w s s' q tx := by
  refine ⟨hlocks, fun _ _ _ _ => ?_, fun _ _ => ?_⟩
  · rw [hsame.jobs]
  · rw [ownQueued, hsame.jobs, hsame.items, ownQueued]

theorem ownActive_endJob (batchId : String) {status : BatchJobStatus} (hstatus : status.terminal)
    (scope : PendingScopeTarget) (jobs : List BatchJobRow) :
    ownActive scope (endJob batchId status jobs) ≤ ownActive scope jobs := by
  rw [ownActive, endJob, TableStatements.updateWhere, List.countP_map]
  refine List.countP_mono_left fun job _ hjob => ?_
  rw [Function.comp_apply] at hjob
  obtain ⟨hown, hactive⟩ := of_decide_eq_true hjob
  by_cases hended : job.batchId = batchId ∧ job.status.terminal = false
  · rw [if_pos hended] at hactive
    exact absurd hactive (by simp [hstatus])
  · rw [if_neg hended] at hown hactive
    exact decide_eq_true ⟨hown, hactive⟩

theorem ownQueued_endJob (batchId : String) {status : BatchJobStatus} (hstatus : status.terminal)
    (tenant : TenantScope) (now : Timestamp) (s : State) :
    ownQueued tenant now { s with jobs := endJob batchId status s.jobs } ≤
      ownQueued tenant now s := by
  have hsub : (s.items.filter fun item => QueuedItem now item ∧
      ∃ job ∈ endJob batchId status s.jobs, job.batchId = item.batchId ∧
        OwnTenantJob tenant job).Sublist
      (s.items.filter fun item => QueuedItem now item ∧
        ∃ job ∈ s.jobs, job.batchId = item.batchId ∧ OwnTenantJob tenant job) := by
    refine List.monotone_filter_right _ fun item hitem => ?_
    obtain ⟨hqueued, job, hjob, hbatch, hown⟩ := of_decide_eq_true hitem
    refine decide_eq_true ⟨hqueued, ?_⟩
    obtain ⟨old, hold, rfl⟩ := (TableStatements.mem_updateWhere _ _).mp hjob
    by_cases hended : old.batchId = batchId ∧ old.status.terminal = false
    · rw [if_pos hended] at hown
      rcases hown.1 with hopen | hopen
      · exact absurd hstatus (by rw [show status = .queued from hopen]; decide)
      · exact absurd hstatus (by rw [show status = .inProgress from hopen]; decide)
    · rw [if_neg hended] at hbatch hown
      exact ⟨old, hold, hbatch, hown⟩
  exact (hsub.map _).sum_le_sum fun _ _ => Nat.zero_le _

/-! ### Commits -/

section Commit

variable {spool : Spool} {tx : Transaction} {completedAt : Timestamp} {phase : Phase}
  {jobNow : Timestamp}

theorem ownActive_commit (hjobs : tx.newJobs = [promotedJob w tx.row.contract spool jobNow])
    (scope : PendingScopeTarget) :
    ownActive scope (s.commit pid tx completedAt phase).jobs =
      ownActive scope s.jobs + if tx.row.contract.pendingScope = some scope then 1 else 0 := by
  have howns : ownScope (promotedJob w tx.row.contract spool jobNow) =
      tx.row.contract.pendingScope := rfl
  have hactive : (promotedJob w tx.row.contract spool jobNow).status.terminal = false := rfl
  rw [State.commit, ownActive, hjobs, List.countP_append, List.countP_singleton, howns, hactive]
  simp [ownActive]

/-- The job of a promotion is stored under the tenant of its session. -/
theorem ownTenantJob_promoted {contract : SessionContract} {tenant : TenantScope}
    (h : OwnTenantJob tenant (promotedJob w contract spool jobNow)) :
    w.tenantScope contract = tenant := by
  obtain ⟨-, htype, hid⟩ := h
  simp only [promotedJob, storedTenantScope_eq, Option.some.injEq] at htype hid
  cases tenant
  cases hscope : w.tenantScope contract
  rw [hscope] at htype hid
  simp only at htype hid
  rw [htype, hid]

theorem ownQueued_commit (huntouched : Untouched s tx.row.contract) (hrows : OwnRows tx)
    (hjobs : tx.newJobs = [promotedJob w tx.row.contract spool jobNow]) (tenant : TenantScope)
    (now : Timestamp) :
    ownQueued tenant now (s.commit pid tx completedAt phase) ≤
      ownQueued tenant now s +
        if w.tenantScope tx.row.contract = tenant then itemUnits tx else 0 := by
  have hold : ∀ item ∈ s.items, ∀ job ∈ tx.newJobs, job.batchId ≠ item.batchId := by
    intro item hitem job hjob hbatch
    rw [hjobs, List.mem_singleton] at hjob
    refine huntouched.items item hitem ?_
    rw [← hbatch, hjob]
    rfl
  have hnew : queuedUnits (OwnTenantJob tenant) now (s.jobs ++ tx.newJobs) tx.newItems ≤
      if w.tenantScope tx.row.contract = tenant then itemUnits tx else 0 := by
    split
    next => exact queuedUnits_le_units _ _ _ _
    next htenant =>
      refine (queuedUnits_eq_zero fun item hitem job hjob hbatch hown => ?_).le
      rw [hrows.items item hitem] at hbatch
      rcases List.mem_append.mp hjob with hjob | hjob
      · exact huntouched.jobs job hjob hbatch
      · rw [hjobs, List.mem_singleton] at hjob
        rw [hjob] at hown
        exact htenant (ownTenantJob_promoted hown)
  calc ownQueued tenant now (s.commit pid tx completedAt phase)
      = queuedUnits (OwnTenantJob tenant) now s.jobs s.items +
          queuedUnits (OwnTenantJob tenant) now (s.jobs ++ tx.newJobs) tx.newItems :=
        queuedUnits_append now hold
    _ ≤ _ := Nat.add_le_add_left hnew _

theorem release_advisoryLock {q : ℕ} {key : ℤ} (hq : q ≠ pid)
    (h : s.advisoryLock key = some q) : (s.release pid).advisoryLock key = some q := by
  have hne : s.advisoryLock key ≠ some pid := by
    rw [h]
    exact fun heq => hq (Option.some.inj heq)
  exact (if_neg hne).trans h

/-- Two transactions cannot both hold the lock of one scope. -/
theorem commit_harmless {q : ℕ} {other : Transaction} (hq : q ≠ pid)
    (hchecked : Checked w s pid spool tx) (hrank : rank tx.stage = 6)
    (huntouched : Untouched s tx.row.contract) (hrows : OwnRows tx) :
    Harmless w s (s.commit pid tx completedAt phase) q other := by
  obtain ⟨⟨jobNow, hjobs⟩, -⟩ := hchecked.weight hrank.ge
  have hpending := hchecked.passed 2 (by omega)
  have htenant := hchecked.passed 4 (by omega)
  have hclash : ∀ key, s.advisoryLock key = some pid → s.advisoryLock key ≠ some q := by
    intro key hmine hother
    rw [hmine] at hother
    exact hq (Option.some.inj hother).symm
  refine ⟨fun key hkey => release_advisoryLock hq hkey, fun hlock hlimit scope hscope => ?_,
    fun hlock hlimit => ?_⟩
  · rw [ownActive_commit hjobs, if_neg, Nat.add_zero]
    intro hsame
    exact hclash _ (hpending _ (pendingLockKey_some hlimit hsame))
      (hlock _ (pendingLockKey_some hlimit hscope))
  · refine (ownQueued_commit huntouched hrows hjobs _ _).trans ?_
    rw [if_neg, Nat.add_zero]
    intro hsame
    have hmine := htenant _ (tenantLockKey_some hlimit _)
    rw [hsame] at hmine
    exact hclash _ hmine (hlock _ (tenantLockKey_some hlimit _))

end Commit

/-! ## The checks along a run -/

theorem stageMove_locks {spool : Spool} {tx tx' : Transaction} {locks : ℤ → Option ℕ}
    (hmove : StageMove w s pid spool tx tx' locks) {q : ℕ} (hq : q ≠ pid) {key : ℤ}
    (h : s.advisoryLock key = some q) : locks key = some q := by
  cases hmove with
  | lockScope key' _ _ hfree => exact update_keeps_other hfree hq h
  | lockTenant key' _ _ hfree => exact update_keeps_other hfree hq h
  | _ => exact h

/-- A step of one process keeps what the others know, if its own phase is in order. -/
theorem checked_of_harmless (hchecked : ∀ q, PhaseChecked w s q (s.phase q))
    (hphase : ∀ q, q ≠ pid → s'.phase q = s.phase q)
    (hharmless : ∀ q, q ≠ pid → ∀ tx, Harmless w s s' q tx)
    (hown : PhaseChecked w s' pid (s'.phase pid)) : ∀ q, PhaseChecked w s' q (s'.phase q) := by
  intro q
  by_cases hq : q = pid
  · rw [hq]
    exact hown
  · rw [hphase q hq]
    exact (hchecked q).keep fun _ _ tx _ => hharmless q hq tx

theorem checked_of_same (hchecked : ∀ q, PhaseChecked w s q (s.phase q))
    (hsame : SameBatches s s') (hphase : ∀ q, q ≠ pid → s'.phase q = s.phase q)
    (hlocks : ∀ q, q ≠ pid → ∀ key, s.advisoryLock key = some q → s'.advisoryLock key = some q)
    (hown : PhaseChecked w s' pid (s'.phase pid)) : ∀ q, PhaseChecked w s' q (s'.phase q) :=
  checked_of_harmless hchecked hphase (fun q hq tx => harmless_of_same hsame (hlocks q hq) tx) hown

theorem phaseMove_checked {phase phase' : Phase} (hmove : PhaseMove w s phase phase')
    (h : PhaseChecked w s pid phase) :
    PhaseChecked w (s.setPhase pid phase') pid phase' := by
  cases hmove with
  | spool hspool => exact spoolStagedItems_weighed hspool
  | _ => trivial

theorem ended_checked {session : SessionRow} {phase : Phase} (h : Ended session phase) :
    PhaseChecked w s' pid phase := by
  cases h <;> trivial

/-- A committing transaction has passed every check and has inserted its rows. -/
theorem commit_ready {spool : Spool} {tx : Transaction} {completedAt : Timestamp} {promoted : Bool}
    (hstage : tx.stage = .marked completedAt promoted) (h : StageInv spool tx) :
    rank tx.stage = 6 ∧ OwnRows tx := by
  rw [StageInv, hstage] at h
  cases promoted with
  | false => exact h.elim
  | true =>
      rw [hstage]
      exact ⟨rfl, h.1⟩

theorem process_checked (hinv : Inv w contracts s)
    (hchecked : ∀ q, PhaseChecked w s q (s.phase q)) {phase : Phase} (hphase : s.phase pid = phase)
    (h : ProcessEffect w s pid phase s') : ∀ q, PhaseChecked w s' q (s'.phase q) := by
  have hown := hchecked pid
  have hownInv := hinv.phases pid
  rw [hphase] at hown hownInv
  cases h with
  | move hmove =>
      refine checked_of_same hchecked ⟨rfl, rfl, rfl⟩ (fun q hq => setPhase_phase_other s _ hq)
        (fun _ _ _ hkey => hkey) ?_
      rw [setPhase_phase_self]
      exact phaseMove_checked hmove hown
  | lockSession now hfree hrow =>
      refine checked_of_same hchecked ⟨rfl, rfl, rfl⟩ (fun q hq => setPhase_phase_other _ _ hq)
        (fun _ _ _ hkey => hkey) ?_
      rw [setPhase_phase_self]
      refine ⟨hown, fun check hcheck => ?_, fun hrank => by simp [rank] at hrank⟩
      obtain rfl : check = 0 := Nat.le_zero.mp hcheck
      trivial
  | record now hfree =>
      refine checked_of_same hchecked ⟨rfl, rfl, rfl⟩ (fun q hq => setPhase_phase_other _ _ hq)
        (fun _ _ _ hkey => hkey) ?_
      rw [State.recordFailure, setPhase_phase_self]
      trivial
  | transaction heffect =>
      obtain ⟨hspool, hcontract, hrow, hlock, hstageInv⟩ := hownInv
      cases heffect with
      | advance hmove =>
          refine checked_of_same hchecked ⟨rfl, rfl, rfl⟩ (fun q hq => setPhase_phase_other _ _ hq)
            (fun q hq _ hkey => stageMove_locks hmove hq hkey) ?_
          rw [setPhase_phase_self]
          have hnext := stageMove_checked hmove hown.1 hstageInv hown.2
          refine ⟨hown.1, hnext.keep (harmless_of_same ?_ ?_ _)⟩
          · exact ⟨rfl, rfl, rfl⟩
          · exact fun _ hkey => hkey
      | rollback hended =>
          refine checked_of_same hchecked ⟨rfl, rfl, rfl⟩ (fun q hq => setPhase_phase_other _ _ hq)
            (fun q hq _ hkey => release_advisoryLock hq hkey) ?_
          rw [State.rollback, setPhase_phase_self]
          exact ended_checked hended
      | commit completedAt promoted hstage hended =>
          obtain ⟨hrank, hrows⟩ := commit_ready hstage hstageInv
          have huntouched := hinv.untouched _ hrow (not_completed_of_promotable hrows.promotable)
          refine checked_of_harmless hchecked
            (fun q hq => setPhase_phase_other (s.release pid) _ hq)
            (fun q hq other => commit_harmless hq hown.2 hrank huntouched hrows) ?_
          rw [show (s.commit pid _ completedAt _).phase pid = _ from
            setPhase_phase_self (s.release pid) pid _]
          exact ended_checked hended

theorem step_checked (hinv : Inv w contracts s) (hchecked : ∀ q, PhaseChecked w s q (s.phase q))
    {e : Event} (h : step w s e = some s') : ∀ q, PhaseChecked w s' q (s'.phase q) := by
  have hsame : ∀ s', SameBatches s s' → s'.phase = s.phase → s'.advisoryLock = s.advisoryLock →
      ∀ q, PhaseChecked w s' q (s'.phase q) := by
    intro s' hsame hphase hlocks q
    rw [hphase]
    refine (hchecked q).keep fun _ _ tx _ => harmless_of_same hsame (fun key hkey => ?_) tx
    rwa [hlocks]
  cases e with
  | process pid statement => exact process_checked hinv hchecked rfl (processStep_effect h)
  | listCandidates cutoffs =>
      obtain rfl := Option.some.inj h
      exact hsame _ ⟨rfl, rfl, rfl⟩ rfl rfl
  | deleteCandidate candidate =>
      rw [step] at h
      split at h
      next =>
        obtain rfl := Option.some.inj h
        exact hsame _ ⟨rfl, rfl, rfl⟩ rfl rfl
      next => cases h
  | deleteArtifact backend key =>
      rw [step] at h
      split at h
      next =>
        obtain rfl := Option.some.inj h
        exact hsame _ ⟨rfl, rfl, rfl⟩ rfl rfl
      next => cases h
  | endJob batchId status =>
      rw [step] at h
      split at h
      next hstatus =>
        obtain rfl := Option.some.inj h
        intro q
        refine PhaseChecked.keep (fun _ _ tx _ => ?_) (hchecked q)
        refine ⟨fun _ hkey => hkey, fun _ _ scope _ => ?_, fun _ _ => ?_⟩
        · exact ownActive_endJob batchId hstatus scope s.jobs
        · exact ownQueued_endJob batchId hstatus _ _ s
      next => cases h

theorem reachable_checked (hs : Reachable (promotionSystem w contracts) s) :
    ∀ q, PhaseChecked w s q (s.phase q) := by
  refine ReachableBy.invariant_under (P := fun s => ∀ q, PhaseChecked w s q (s.phase q))
    (fun _ h => reachable_inv h) (fun s h q => ?_) (fun s e hinv hchecked he _ => ?_) hs
  · rw [h.phases q]
    trivial
  · exact step_checked hinv hchecked (step_of_enabled he)

/-! ## The limits -/

section Limits

variable {spool : Spool} {tx : Transaction} {completedAt : Timestamp} {phase : Phase}

theorem commit_active_le (hchecked : Checked w s pid spool tx) (hrank : rank tx.stage = 6)
    (hlimit : 0 < w.maxPendingBatchesPerScope) (scope : PendingScopeTarget) :
    ownActive scope (s.commit pid tx completedAt phase).jobs ≤ ownActive scope s.jobs ∨
      ownActive scope (s.commit pid tx completedAt phase).jobs ≤ w.maxPendingBatchesPerScope := by
  obtain ⟨⟨jobNow, hjobs⟩, -⟩ := hchecked.weight hrank.ge
  rw [ownActive_commit hjobs]
  split
  next hscope => exact .inr (hchecked.passed 3 (by omega) hlimit scope hscope)
  next => exact .inl le_rfl

theorem commit_queued_le (hchecked : Checked w s pid spool tx) (hrank : rank tx.stage = 6)
    (huntouched : Untouched s tx.row.contract) (hrows : OwnRows tx)
    (hlimit : 0 < w.tenantMaxQueuedWorkUnits) (tenant : TenantScope) (now : Timestamp) :
    ownQueued tenant now (s.commit pid tx completedAt phase) ≤ ownQueued tenant now s ∨
      ownQueued tenant tx.now (s.commit pid tx completedAt phase) ≤ w.tenantMaxQueuedWorkUnits := by
  have hweight := hchecked.weight hrank.ge
  obtain ⟨jobNow, hjobs⟩ := hweight.job
  by_cases htenant : w.tenantScope tx.row.contract = tenant
  · right
    have hroom := hchecked.passed 5 (by omega) hlimit
    have hadded : ownQueued tenant tx.now (s.commit pid tx completedAt phase) ≤ _ :=
      ownQueued_commit huntouched hrows hjobs tenant tx.now
    rw [if_pos htenant] at hadded
    rw [htenant] at hroom
    have hunits : itemUnits tx ≤ spool.remainingWorkUnits :=
      (Nat.le_add_right _ _).trans (hweight.units.trans (le_max_right _ _))
    omega
  · left
    have hadded : ownQueued tenant now (s.commit pid tx completedAt phase) ≤ _ :=
      ownQueued_commit huntouched hrows hjobs tenant now
    rwa [if_neg htenant] at hadded

end Limits

/-- The commit of a transaction that has passed its checks. -/
structure Admitted (w : Promoter) (s s' : State) (tx : Transaction) : Prop where
  active : 0 < w.maxPendingBatchesPerScope → ∀ scope,
    ownActive scope s'.jobs ≤ ownActive scope s.jobs ∨
      ownActive scope s'.jobs ≤ w.maxPendingBatchesPerScope
  queued : 0 < w.tenantMaxQueuedWorkUnits → ∀ tenant now,
    ownQueued tenant now s' ≤ ownQueued tenant now s ∨
      ownQueued tenant tx.now s' ≤ w.tenantMaxQueuedWorkUnits

/-- Whatever does not commit adds nothing. -/
theorem step_adds (hinv : Inv w contracts s) (hchecked : ∀ q, PhaseChecked w s q (s.phase q))
    {e : Event} (h : step w s e = some s') :
    ((∀ scope, ownActive scope s'.jobs ≤ ownActive scope s.jobs) ∧
        ∀ tenant now, ownQueued tenant now s' ≤ ownQueued tenant now s) ∨
      ∃ pid statement session spool tx, e = .process pid statement ∧
        s.phase pid = .transaction session spool tx ∧ Admitted w s s' tx := by
  have hsame : ∀ {s' : State}, SameBatches s s' →
      (∀ scope, ownActive scope s'.jobs ≤ ownActive scope s.jobs) ∧
        ∀ tenant now, ownQueued tenant now s' ≤ ownQueued tenant now s := by
    intro s' hsame
    refine ⟨fun scope => ?_, fun tenant now => ?_⟩
    · rw [hsame.jobs]
    · rw [ownQueued, hsame.jobs, hsame.items, ownQueued]
  cases e with
  | process pid statement =>
      have heffect := processStep_effect h
      generalize hphase : s.phase pid = phase at heffect
      have hown := hchecked pid
      have hownInv := hinv.phases pid
      rw [hphase] at hown hownInv
      cases heffect with
      | move _ => exact .inl (hsame ⟨rfl, rfl, rfl⟩)
      | lockSession _ _ _ => exact .inl (hsame ⟨rfl, rfl, rfl⟩)
      | record _ _ => exact .inl (hsame ⟨rfl, rfl, rfl⟩)
      | transaction heffect =>
          obtain ⟨-, -, hrow, -, hstageInv⟩ := hownInv
          cases heffect with
          | advance _ => exact .inl (hsame ⟨rfl, rfl, rfl⟩)
          | rollback _ => exact .inl (hsame ⟨rfl, rfl, rfl⟩)
          | commit completedAt promoted hstage _ =>
              obtain ⟨hrank, hrows⟩ := commit_ready hstage hstageInv
              have huntouched := hinv.untouched _ hrow
                (not_completed_of_promotable hrows.promotable)
              refine .inr ⟨pid, statement, _, _, _, rfl, hphase, ?_, ?_⟩
              · exact commit_active_le hown.2 hrank
              · exact commit_queued_le hown.2 hrank huntouched hrows
  | listCandidates cutoffs =>
      obtain rfl := Option.some.inj h
      exact .inl (hsame ⟨rfl, rfl, rfl⟩)
  | deleteCandidate candidate =>
      rw [step] at h
      split at h
      next =>
        obtain rfl := Option.some.inj h
        exact .inl (hsame ⟨rfl, rfl, rfl⟩)
      next => cases h
  | deleteArtifact backend key =>
      rw [step] at h
      split at h
      next =>
        obtain rfl := Option.some.inj h
        exact .inl (hsame ⟨rfl, rfl, rfl⟩)
      next => cases h
  | endJob batchId status =>
      rw [step] at h
      split at h
      next hstatus =>
        obtain rfl := Option.some.inj h
        refine .inl ⟨fun scope => ?_, fun tenant now => ?_⟩
        · exact ownActive_endJob batchId hstatus scope s.jobs
        · exact ownQueued_endJob batchId hstatus tenant now s
      next => cases h

namespace KeyAndTeam

/-- One active batch and five queued units. The digest and the lock keys are those of `key-1` and
`team-1`. -/
def promoter : Promoter where
  metadataRetention := 30
  maxPendingBatchesPerScope := 1
  insertChunkSize := 500
  softPrecheckEnabled := true
  schedulerVersion := "fifo_v1"
  strictModelHomogeneityEnabled := false
  defaultServiceTier := "standard"
  tenantScopePreference := []
  tenantMaxQueuedWorkUnits := 5
  resolveModelGroup := id
  estimateRequestWorkUnits := fun _ _ => 1
  text := fun _ => "text-embedding-3-small"
  sha256 := fun _ => "be2974546978e3739e6d6da85c4be9f334ce32df2b9fd4b6ff1b55c0d57e9d44"
  digest_spaceFree := fun _ => by
    have hspace :
        "be2974546978e3739e6d6da85c4be9f334ce32df2b9fd4b6ff1b55c0d57e9d44".toList.all
          (fun c => !isSpace c) = true := by decide +kernel
    exact no_space_of_all hspace
  lockKey := fun scopeType scopeId =>
    if scopeType = "team" then 4683424966851696419
    else if scopeId = "key-1" then -6067826922145011586
    else -6648941699225742282
  staged := fun _ _ =>
    [⟨1, "a", [], none, none, some 3, none⟩, ⟨2, "b", [], none, none, some 2, none⟩]

/-- A session of the key alone. -/
def keyContract : SessionContract where
  sessionId := "session-1"
  targetBatchId := "batch-1"
  endpoint := "/v1/embeddings"
  stagedStorageBackend := "local"
  stagedStorageKey := "stage-1"
  expectedItemCount := 2
  inferredModel := none
  effectiveServiceTier := none
  createdByApiKey := some "key-1"
  createdByUserId := none
  createdByTeamId := none
  createdByOrganizationId := none
  createdAt := 0

/-- A session of the same key in a team. -/
def teamContract : SessionContract :=
  { keyContract with
    sessionId := "session-2", targetBatchId := "batch-2", stagedStorageKey := "stage-2",
    createdByTeamId := some "team-1" }

def bothContracts : List SessionContract := [keyContract, teamContract]

def stagedState : State where
  sessions := bothContracts.map fun contract => ⟨contract, .staged, none, none, 0, none, none, none⟩
  jobs := []
  items := []
  artifacts := [("local", "stage-1"), ("local", "stage-2")]
  listed := []
  dropped := []
  phase := fun _ => .idle
  rowLock := fun _ => none
  advisoryLock := fun _ => none
  created := []

/-- A promotion up to the commit. -/
def promotion (pid : ℕ) (sessionId : String) : List Event :=
  [.getSession sessionId, .precheck, .spool (.lines 2), .lockSession 5, .readJob, .lockScope,
    .countActive, .lockTenant, .sumQueued, .createJob 6, .createItems fun line => line.customId,
    .createItems fun line => line.customId, .markCompleted 7].map (.process pid)

instance (s : State) (e : Event) :
    Decidable ((promotionSystem promoter bothContracts).enabled s e) :=
  inferInstanceAs (Decidable (_ = true))

theorem staged_reachable : Reachable (promotionSystem promoter bothContracts) stagedState := by
  refine .initial ⟨by decide, by decide, rfl, by decide, ?_, ?_, ?_, ?_, ?_, ?_, rfl, rfl, rfl⟩
  · decide
  · simp [stagedState]
  · simp [stagedState]
  · exact fun _ => rfl
  · exact fun _ => rfl
  · exact fun _ => rfl

/-- The key's promotion is committed, that of the team is about to be. -/
def lastCommit : State :=
  (promotion 0 "session-1" ++ .process 0 .commit :: promotion 1 "session-2").foldl
    (promotionSystem promoter bothContracts).next stagedState

theorem lastCommit_reachable : Reachable (promotionSystem promoter bothContracts) lastCommit :=
  staged_reachable.fires (by decide +kernel)

/-- What the promotions of the key count. -/
def keyScope : PendingScopeTarget := ⟨"api_key", "key-1", some "key-1", none⟩

def keyQuery : TenantQuery where
  scopeType := "api_key"
  scopeId := "api_key_sha256:be2974546978e3739e6d6da85c4be9f334ce32df2b9fd4b6ff1b55c0d57e9d44"
  apiKey := "key-1"
  team := ""
  organization := ""
  user := ""

theorem lastCommit_enabled :
    (promotionSystem promoter bothContracts).enabled lastCommit (.process 1 .commit) := by
  decide +kernel

end KeyAndTeam

open KeyAndTeam in
/-- The commit of a team's promotion takes the key over its limits. -/
theorem team_promotion_exceeds_key_limits :
    Reachable (promotionSystem promoter bothContracts) lastCommit ∧
      (promotionSystem promoter bothContracts).enabled lastCommit (.process 1 .commit) ∧
      keyContract.pendingScope = some keyScope ∧
      keyScope.activeJobs lastCommit.jobs = promoter.maxPendingBatchesPerScope ∧
      promoter.maxPendingBatchesPerScope < keyScope.activeJobs
        ((promotionSystem promoter bothContracts).next lastCommit (.process 1 .commit)).jobs ∧
      tenantQuery promoter.sha256 (promoter.tenantScope keyContract) keyContract = some keyQuery ∧
      getTenantQueuedWorkUnits keyQuery 5 lastCommit.jobs lastCommit.items =
        promoter.tenantMaxQueuedWorkUnits ∧
      promoter.tenantMaxQueuedWorkUnits < getTenantQueuedWorkUnits keyQuery 5
        ((promotionSystem promoter bothContracts).next lastCommit (.process 1 .commit)).jobs
        ((promotionSystem promoter bothContracts).next lastCommit (.process 1 .commit)).items :=
  ⟨lastCommit_reachable, lastCommit_enabled, by decide +kernel, by decide +kernel,
    by decide +kernel, by decide +kernel, by decide +kernel, by decide +kernel⟩

/-- No step takes the jobs whose creators a scope limits over the limit of the scope, and these are
all that the counting query of a team sees. No step takes the queued work stored under a tenant over
the limit at the time of the transaction. -/
theorem promotions_keep_limits (hs : Reachable (promotionSystem w contracts) s) {e : Event}
    (he : (promotionSystem w contracts).enabled s e) :
    (0 < w.maxPendingBatchesPerScope → ∀ scope,
      ownActive scope ((promotionSystem w contracts).next s e).jobs ≤ ownActive scope s.jobs ∨
        ownActive scope ((promotionSystem w contracts).next s e).jobs ≤
          w.maxPendingBatchesPerScope) ∧
      (∀ team ≠ "", ∀ jobs, PendingScopeTarget.activeJobs ⟨"team", team, none, some team⟩ jobs =
        ownActive ⟨"team", team, none, some team⟩ jobs) ∧
      (0 < w.tenantMaxQueuedWorkUnits → ∀ tenant now,
        ownQueued tenant now ((promotionSystem w contracts).next s e) ≤ ownQueued tenant now s ∨
          ∃ pid statement session spool tx, e = .process pid statement ∧
            s.phase pid = .transaction session spool tx ∧
            ownQueued tenant tx.now ((promotionSystem w contracts).next s e) ≤
              w.tenantMaxQueuedWorkUnits) := by
  have hstep := step_of_enabled he
  refine ⟨fun hlimit scope => ?_, fun team hne jobs => activeJobs_team hne jobs,
    fun hlimit tenant now => ?_⟩
  · rcases step_adds (reachable_inv hs) (reachable_checked hs) hstep with
      ⟨hactive, -⟩ | ⟨_, _, _, _, _, _, _, hadmitted⟩
    · exact .inl (hactive scope)
    · exact hadmitted.active hlimit scope
  · rcases step_adds (reachable_inv hs) (reachable_checked hs) hstep with
      ⟨-, hqueued⟩ | ⟨pid, statement, session, spool, tx, rfl, hphase, hadmitted⟩
    · exact .inl (hqueued tenant now)
    · rcases hadmitted.queued hlimit tenant now with hless | hless
      · exact .inl hless
      · exact .inr ⟨pid, statement, session, spool, tx, rfl, hphase, hless⟩

open KeyAndTeam in
theorem promotions_keep_limits_commit :
    (promotionSystem promoter bothContracts).enabled lastCommit (.process 1 .commit) ∧
    ∀ scope, ownActive scope
        ((promotionSystem promoter bothContracts).next lastCommit (.process 1 .commit)).jobs ≤
        ownActive scope lastCommit.jobs ∨
      ownActive scope
        ((promotionSystem promoter bothContracts).next lastCommit (.process 1 .commit)).jobs ≤ 1 :=
  ⟨lastCommit_enabled,
    (promotions_keep_limits lastCommit_reachable lastCommit_enabled).1 (by decide)⟩

end PendingLimits
