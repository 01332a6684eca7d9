import Mathlib.Algebra.BigOperators.Group.Finset.Piecewise
import Mathlib.Algebra.Order.BigOperators.Group.Finset
import DeltaLLM.EmbeddingWorkUnits

/-! # Every claimed item is handed over once

Claimed items wait in the queues, belong to a runner or have an outcome, and every step keeps their
multiset. A runner returns only when nothing waits, and every step lowers a potential.
-/
namespace EmbeddingHandover

open BatchRecords
open EmbeddingPlanner
open EmbeddingWorkUnits
open TransitionRuns

variable {w : EmbeddingWorker} {items : List BatchItemRow} {s s' : State} {pid : ℕ}

/-! ## What a step can do -/

/-- How far a runner is from its next plan; a chunk that ends wakes all waiting runners. -/
def weight (runners : ℕ) : Runner → ℕ
  | .planning => 2
  | .waiting => 1
  | .failing _ => 3
  | .single _ => 3
  | .closing => runners + 3
  | .lone _ => runners + 4
  | .isolating todo => runners + 3 + todo.length
  | .calling chunk => runners + 4 + chunk.length
  | .acquiring todo allowed => runners + 5 + 2 * todo.length + allowed.length
  | .returned => 0
  | .cancelled _ => 0

/-- A runner whose next step depends on no other runner. -/
def ready : Runner → Bool
  | .acquiring [] _ | .isolating [] | .waiting | .returned | .cancelled _ => false
  | _ => true

/-- A runner goes on within its work unit. -/
structure Progress (r : Runner) (done : List (BatchItemRow × ItemOutcome)) (r' : Runner) :
    Prop where
  items : (done.map Prod.fst : Multiset BatchItemRow) + r'.items = r.items
  lighter : ∀ runners, weight runners r' < weight runners r
  chunked : r'.chunked = r.chunked
  ready : ready r' = true

inductive StepEffect (s : State) : State → Prop where
  | hand {pid : ℕ} {unit : WorkUnit} {q : Queues} : s.runner pid = .planning →
      PlanEffect s.queues (some unit) q →
      StepEffect s ({ s with queues := q, handed := s.handed ++ [unit] }.setRunner pid
        (.start unit))
  | finish {pid : ℕ} {q : Queues} : s.runner pid = .planning → PlanEffect s.queues none q →
      StepEffect s ({ s with queues := q }.setRunner pid .returned)
  | progress {pid : ℕ} {done : List (BatchItemRow × ItemOutcome)} {r : Runner} :
      (s.runner pid).active = true → Progress (s.runner pid) done r →
      StepEffect s ({ s with outcomes := s.outcomes ++ done }.setRunner pid r)
  | close {pid : ℕ} : s.runner pid = .closing → StepEffect s (s.closeChunk pid)
  | raise {pid : ℕ} : (s.runner pid).active = true →
      StepEffect s { s with runner := fun other => (s.runner other).cancel }

theorem acquire_items (todo allowed : List PreparedEmbeddingItem) :
    ((Runner.acquire todo allowed).items : Multiset BatchItemRow) =
      (todo ++ allowed).map PreparedEmbeddingItem.item := by
  unfold Runner.acquire
  split <;> rfl

theorem acquire_weight (todo allowed : List PreparedEmbeddingItem) (runners : ℕ) :
    weight runners (.acquire todo allowed) ≤ runners + 5 + 2 * todo.length + allowed.length := by
  unfold Runner.acquire
  split <;> simp only [weight, List.length_nil, List.length_cons] <;> omega

theorem acquire_chunked (todo allowed : List PreparedEmbeddingItem) :
    (Runner.acquire todo allowed).chunked = true ∧ ready (.acquire todo allowed) = true := by
  cases todo with
  | cons prepared todo => exact ⟨rfl, rfl⟩
  | nil =>
      match allowed with
      | [] => exact ⟨rfl, rfl⟩
      | [_] => exact ⟨rfl, rfl⟩
      | _ :: _ :: _ => exact ⟨rfl, rfl⟩

theorem isolate_items (todo : List PreparedEmbeddingItem) :
    ((Runner.isolate todo).items : Multiset BatchItemRow) =
      todo.map PreparedEmbeddingItem.item := by
  unfold Runner.isolate
  split <;> rfl

theorem isolate_weight (todo : List PreparedEmbeddingItem) (runners : ℕ) :
    weight runners (.isolate todo) ≤ runners + 3 + todo.length := by
  unfold Runner.isolate
  split <;> simp only [weight, List.length_nil] <;> omega

theorem isolate_chunked (todo : List PreparedEmbeddingItem) :
    (Runner.isolate todo).chunked = true ∧ ready (.isolate todo) = true := by
  cases todo <;> exact ⟨rfl, rfl⟩

/-- A leading item that got its outcome leaves the rest. -/
theorem done_items (item : BatchItemRow) (outcome : ItemOutcome) (r : Runner) :
    (([(item, outcome)].map Prod.fst : List BatchItemRow) : Multiset BatchItemRow) + r.items =
      item ::ₘ (r.items : Multiset BatchItemRow) := by
  rw [List.map_singleton, Multiset.coe_singleton, Multiset.singleton_add]

theorem progress_lease_granted (prepared : PreparedEmbeddingItem)
    (todo allowed : List PreparedEmbeddingItem) :
    Progress (.acquiring (prepared :: todo) allowed) []
      (.acquire todo (allowed ++ [prepared])) := by
  obtain ⟨hchunked, hready⟩ := acquire_chunked todo (allowed ++ [prepared])
  refine ⟨?_, fun runners => ?_, hchunked, hready⟩
  · rw [acquire_items]
    simp only [List.map_nil, Multiset.coe_nil, zero_add, Runner.items, List.map_append,
      List.map_cons, List.cons_append, ← Multiset.cons_coe, ← Multiset.coe_add,
      ← Multiset.singleton_add, add_zero]
    abel
  · have hle := acquire_weight todo (allowed ++ [prepared]) runners
    simp only [weight, List.length_append, List.length_cons, List.length_nil] at hle ⊢
    omega

theorem progress_lease_refused (prepared : PreparedEmbeddingItem)
    (todo allowed : List PreparedEmbeddingItem) (outcome : ItemOutcome) :
    Progress (.acquiring (prepared :: todo) allowed) [(prepared.item, outcome)]
      (.acquire todo allowed) := by
  obtain ⟨hchunked, hready⟩ := acquire_chunked todo allowed
  refine ⟨?_, fun runners => ?_, hchunked, hready⟩
  · rw [done_items, acquire_items]
    rfl
  · have hle := acquire_weight todo allowed runners
    simp only [weight, List.length_cons] at hle ⊢
    omega

theorem progress_isolated (prepared : PreparedEmbeddingItem) (todo : List PreparedEmbeddingItem)
    (outcome : ItemOutcome) :
    Progress (.isolating (prepared :: todo)) [(prepared.item, outcome)] (.isolate todo) := by
  obtain ⟨hchunked, hready⟩ := isolate_chunked todo
  refine ⟨?_, fun runners => ?_, hchunked, hready⟩
  · rw [done_items, isolate_items]
    rfl
  · have hle := isolate_weight todo runners
    simp only [weight, List.length_cons] at hle ⊢
    omega

theorem progress_isolate (chunk : List PreparedEmbeddingItem) :
    Progress (.calling chunk) [] (.isolate chunk) := by
  obtain ⟨hchunked, hready⟩ := isolate_chunked chunk
  refine ⟨?_, fun runners => ?_, hchunked, hready⟩
  · rw [isolate_items]
    simp [Runner.items]
  · have hle := isolate_weight chunk runners
    simp only [weight] at hle ⊢
    omega

theorem progress_settled (chunk : List PreparedEmbeddingItem) (outcome : String → ItemOutcome) :
    Progress (.calling chunk)
      (chunk.map fun prepared => (prepared.item, outcome prepared.item.itemId)) .closing := by
  refine ⟨?_, fun runners => ?_, rfl, rfl⟩
  · simp only [List.map_map, Runner.items, Multiset.coe_nil, add_zero]
    rfl
  · simp only [weight]
    omega

theorem progress_failed (failure : PreparationFailure) (outcome : ItemOutcome) :
    Progress (.failing failure) [(failure.item, outcome)] .planning :=
  ⟨by simp [Runner.items], fun _ => by simp only [weight]; omega, rfl, rfl⟩

theorem progress_single (prepared : PreparedEmbeddingItem) (outcome : ItemOutcome) :
    Progress (.single prepared) [(prepared.item, outcome)] .planning :=
  ⟨by simp [Runner.items], fun _ => by simp only [weight]; omega, rfl, rfl⟩

theorem progress_lone (prepared : PreparedEmbeddingItem) (outcome : ItemOutcome) :
    Progress (.lone prepared) [(prepared.item, outcome)] .closing :=
  ⟨by simp [Runner.items], fun _ => by simp only [weight]; omega, rfl, rfl⟩

theorem progress_effect {done : List (BatchItemRow × ItemOutcome)} {r r' : Runner}
    (hr : s.runner pid = r) (hactive : r.active = true) (h : Progress r done r') :
    StepEffect s ({ s with outcomes := s.outcomes ++ done }.setRunner pid r') := by
  subst hr
  exact .progress hactive h

theorem plan_effect (w : EmbeddingWorker) (route : BatchItemRow → Except BatchError Route)
    (hr : s.runner pid = .planning) : StepEffect s (s.plan w pid route) := by
  have heffect := planNextWorkUnit_effect ⟨w.validate, route⟩ s.queues
  rw [State.plan]
  generalize planNextWorkUnit ⟨w.validate, route⟩ s.queues = planned at heffect
  obtain ⟨unit | unit, q⟩ := planned
  · exact .finish hr heffect
  · exact .hand hr heffect

theorem step_effect {e : Event} (h : step w s e = some s') : StepEffect s s' := by
  cases e with
  | plan pid route =>
      rw [step] at h
      split at h
      next hr =>
        obtain rfl := Option.some.inj h
        exact plan_effect w route hr
      next => cases h
  | markFailed pid writes =>
      rw [step] at h
      split at h
      next failure hr =>
        obtain rfl := Option.some.inj h
        exact progress_effect hr rfl (progress_failed failure _)
      next => cases h
  | runItem pid run =>
      rw [step] at h
      split at h
      next prepared hr =>
        obtain rfl := Option.some.inj h
        exact progress_effect hr rfl (progress_single prepared _)
      next prepared hr =>
        obtain rfl := Option.some.inj h
        exact progress_effect hr rfl (progress_lone prepared _)
      next => cases h
  | acquireLease pid policy writes =>
      simp only [step] at h
      split at h
      next prepared todo allowed hr =>
        obtain rfl := Option.some.inj h
        have heffect := progress_effect hr rfl (progress_lease_granted prepared todo allowed)
        rwa [List.append_nil] at heffect
      next prepared todo allowed error hr =>
        obtain rfl := Option.some.inj h
        exact progress_effect hr rfl (progress_lease_refused prepared todo allowed _)
      next => cases h
  | callProvider pid call =>
      rw [step] at h
      split at h
      next chunk hr =>
        split at h
        next outcome _ =>
          obtain rfl := Option.some.inj h
          exact progress_effect hr rfl (progress_settled chunk outcome)
        next =>
          obtain rfl := Option.some.inj h
          have heffect := progress_effect hr rfl (progress_isolate chunk)
          rwa [List.append_nil] at heffect
      next => cases h
  | isolateItem pid route run =>
      rw [step] at h
      split at h
      next prepared todo hr =>
        obtain rfl := Option.some.inj h
        exact progress_effect hr rfl (progress_isolated prepared todo _)
      next => cases h
  | closeChunk pid =>
      rw [step] at h
      split at h
      next hr =>
        obtain rfl := Option.some.inj h
        exact .close hr
      next => cases h
  | raise pid =>
      rw [step] at h
      split at h
      next hactive =>
        obtain rfl := Option.some.inj h
        exact .raise hactive
      next => cases h

/-! ## Nothing is lost -/

/-- The items that the runners have. -/
def held (runners : ℕ) (runner : ℕ → Runner) : Multiset BatchItemRow :=
  ∑ pid ∈ Finset.range runners, ((runner pid).items : Multiset BatchItemRow)

theorem sum_update {ρ M : Type*} [AddCommMonoid M] (f : ρ → M) (r : ℕ → ρ) {pid runners : ℕ}
    (hpid : pid < runners) (x : ρ) :
    ∑ other ∈ Finset.range runners, f (Function.update r pid x other) + f (r pid) =
      ∑ other ∈ Finset.range runners, f (r other) + f x := by
  have hmem : pid ∈ Finset.range runners := Finset.mem_range.mpr hpid
  have hupdate : (fun other => f (Function.update r pid x other)) =
      Function.update (fun other => f (r other)) pid (f x) := by
    funext other
    exact Function.apply_update (fun _ => f) r pid x other
  rw [hupdate, Finset.sum_update_of_mem hmem,
    Finset.sum_eq_add_sum_sdiff_singleton_of_mem hmem fun other => f (r other)]
  abel

structure Inv (w : EmbeddingWorker) (items : List BatchItemRow) (s : State) : Prop where
  beyond : ∀ pid, runnerCount w items ≤ pid → s.runner pid = .returned
  conserved : (s.outcomes.map Prod.fst : Multiset BatchItemRow) +
    held (runnerCount w items) s.runner + s.queues.waiting = items
  handed : (s.handed.flatMap WorkUnit.items : Multiset BatchItemRow) + s.queues.waiting = items
  formed : ∀ unit ∈ s.handed, unit.WellFormed
  slot : ∀ pid, s.runner pid = .waiting → s.queues.groupedChunkInFlight = true
  chunk : s.queues.groupedChunkInFlight = true →
    ∃ pid, (s.runner pid).chunked = true ∨ ∃ items, s.runner pid = .cancelled items
  drained : ∀ pid < runnerCount w items, s.runner pid = .returned → s.queues.waiting = 0
  able : ∀ pid, (s.runner pid).active = true → s.runner pid = .waiting ∨ ready (s.runner pid) = true

theorem inv_initial (w : EmbeddingWorker) (items : List BatchItemRow) :
    Inv w items (initialState w items) where
  beyond := fun _ hpid => if_neg (not_lt.mpr hpid)
  conserved := by
    have hheld : held (runnerCount w items) (initialState w items).runner = 0 := by
      refine Finset.sum_eq_zero fun pid hpid => ?_
      have hplanning : (initialState w items).runner pid = .planning :=
        if_pos (Finset.mem_range.mp hpid)
      rw [hplanning]
      rfl
    rw [hheld]
    simp [initialState, Queues.waiting]
  handed := by simp [initialState, Queues.waiting]
  formed := fun _ h => absurd h List.not_mem_nil
  slot := by
    intro pid hpid
    simp only [initialState] at hpid
    split at hpid <;> cases hpid
  chunk := fun h => absurd h Bool.false_ne_true
  drained := by
    intro pid hlt hpid
    simp only [initialState, if_pos hlt] at hpid
    cases hpid
  able := by
    intro pid hactive
    simp only [initialState] at hactive ⊢
    split at hactive
    next hlt =>
      rw [if_pos hlt]
      exact .inr rfl
    next => cases hactive

theorem lt_of_active (hinv : Inv w items s) (h : (s.runner pid).active = true) :
    pid < runnerCount w items := by
  by_contra hle
  rw [hinv.beyond pid (not_lt.mp hle)] at h
  cases h

theorem start_items (unit : WorkUnit) :
    ((Runner.start unit).items : Multiset BatchItemRow) = unit.items := by
  cases unit with
  | groupedChunk chunk =>
      rw [Runner.start, acquire_items, List.append_nil]
      rfl
  | _ => rfl

theorem start_chunked (unit : WorkUnit) : (Runner.start unit).chunked = unit.grouped := by
  cases unit with
  | groupedChunk chunk => exact (acquire_chunked chunk []).1
  | _ => rfl

theorem start_not_returned (unit : WorkUnit) : Runner.start unit ≠ .returned := by
  cases unit with
  | groupedChunk chunk =>
      intro h
      have hready := (acquire_chunked chunk []).2
      rw [Runner.start] at h
      rw [h] at hready
      cases hready
  | _ => exact Runner.noConfusion

theorem start_waiting {unit : WorkUnit} (h : Runner.start unit = .waiting) :
    unit = .waitForGroupedChunkSlot := by
  cases unit with
  | waitForGroupedChunkSlot => rfl
  | groupedChunk chunk =>
      have hready := (acquire_chunked chunk []).2
      rw [Runner.start] at h
      rw [h] at hready
      cases hready
  | _ => cases h

theorem start_able (unit : WorkUnit) :
    Runner.start unit = .waiting ∨ ready (.start unit) = true := by
  cases unit with
  | waitForGroupedChunkSlot => exact .inl rfl
  | groupedChunk chunk => exact .inr (acquire_chunked chunk []).2
  | _ => exact .inr rfl

/-- The part of a plan's effect that the runner's accounts need. -/
theorem hand_waiting {unit : WorkUnit} {q q' : Queues} (h : PlanEffect q (some unit) q') :
    (unit.items : Multiset BatchItemRow) + q'.waiting = q.waiting ∧ unit.WellFormed ∧
      (q'.groupedChunkInFlight = (unit.grouped || q.groupedChunkInFlight)) ∧
      (unit = .waitForGroupedChunkSlot → q'.groupedChunkInFlight = true) := by
  cases h with
  | unit hformed hitems hwaiting hflight =>
      refine ⟨hwaiting, hformed, hflight, fun hwait => absurd ?_ hitems⟩
      rw [hwait]
      rfl
  | wait hwaiting hflight hflight' =>
      refine ⟨?_, trivial, ?_, fun _ => hflight'⟩
      · rw [WorkUnit.items, Multiset.coe_nil, zero_add, hwaiting]
      · rw [hflight', hflight]
        rfl

section Update

variable {runner : Runner}

/-- What leaves the queues or a runner goes to the runner or gets an outcome. -/
theorem update_conserved (hinv : Inv w items s) (hpid : pid < runnerCount w items)
    {done : List (BatchItemRow × ItemOutcome)} {q : Queues}
    (h : (done.map Prod.fst : Multiset BatchItemRow) + runner.items + q.waiting =
      (s.runner pid).items + s.queues.waiting) :
    ((s.outcomes ++ done).map Prod.fst : Multiset BatchItemRow) +
      held (runnerCount w items) (Function.update s.runner pid runner) + q.waiting = items := by
  have hheld := sum_update
    (fun r : Runner => (r.items : Multiset BatchItemRow)) s.runner hpid runner
  rw [← hinv.conserved]
  refine add_right_cancel (b := ((s.runner pid).items : Multiset BatchItemRow)) ?_
  calc ((s.outcomes ++ done).map Prod.fst : Multiset BatchItemRow) +
        held (runnerCount w items) (Function.update s.runner pid runner) + q.waiting +
        (s.runner pid).items
      = s.outcomes.map Prod.fst + done.map Prod.fst + q.waiting +
          (held (runnerCount w items) (Function.update s.runner pid runner) +
            (s.runner pid).items) := by
        rw [List.map_append, ← Multiset.coe_add]
        abel
    _ = s.outcomes.map Prod.fst + done.map Prod.fst + q.waiting +
          (held (runnerCount w items) s.runner + runner.items) := by rw [held, hheld, held]
    _ = s.outcomes.map Prod.fst + held (runnerCount w items) s.runner +
          (done.map Prod.fst + runner.items + q.waiting) := by abel
    _ = s.outcomes.map Prod.fst + held (runnerCount w items) s.runner + s.queues.waiting +
          (s.runner pid).items := by
        rw [h]
        abel

/-- A step that replaces one runner, with what it owes to the invariant. -/
structure Handed (items : List BatchItemRow) (s : State) (pid : ℕ) (runner : Runner) (q : Queues)
    (handed : List WorkUnit) (done : List (BatchItemRow × ItemOutcome)) : Prop where
  balance : (done.map Prod.fst : Multiset BatchItemRow) + runner.items + q.waiting =
    (s.runner pid).items + s.queues.waiting
  covered : (handed.flatMap WorkUnit.items : Multiset BatchItemRow) + q.waiting = items
  formed : ∀ unit ∈ handed, unit.WellFormed
  slot : runner = .waiting → q.groupedChunkInFlight = true
  flight : s.queues.groupedChunkInFlight = true → q.groupedChunkInFlight = true
  chunk : q.groupedChunkInFlight = true → runner.chunked = true ∨
    s.queues.groupedChunkInFlight = true ∧ (s.runner pid).chunked = false
  returned : runner = .returned → q.waiting = 0
  drained : s.queues.waiting = 0 → q.waiting = 0
  able : runner.active = true → runner = .waiting ∨ ready runner = true

theorem inv_of_handed (hinv : Inv w items s) (hactive : (s.runner pid).active = true) {q : Queues}
    {handed : List WorkUnit} {done : List (BatchItemRow × ItemOutcome)}
    (h : Handed items s pid runner q handed done) :
    Inv w items ⟨q, Function.update s.runner pid runner, handed, s.outcomes ++ done⟩ := by
  have hpid := lt_of_active hinv hactive
  refine ⟨?_, update_conserved hinv hpid h.balance, h.covered, h.formed, ?_, ?_, ?_, ?_⟩
  · intro other hother
    simp only
    rw [Function.update_of_ne (by omega)]
    exact hinv.beyond other hother
  · intro other hother
    by_cases hsame : other = pid
    · simp only [hsame, Function.update_self] at hother
      exact h.slot hother
    · simp only [Function.update_of_ne hsame] at hother
      exact h.flight (hinv.slot other hother)
  · intro hflight
    simp only at hflight ⊢
    rcases h.chunk hflight with hchunked | ⟨hold, hfree⟩
    · refine ⟨pid, .inl ?_⟩
      rw [Function.update_self]
      exact hchunked
    · obtain ⟨other, hother⟩ := hinv.chunk hold
      refine ⟨other, ?_⟩
      rw [Function.update_of_ne]
      · exact hother
      · rintro rfl
        rcases hother with hother | ⟨items, hother⟩
        · rw [hfree] at hother
          cases hother
        · rw [hother] at hactive
          cases hactive
  · intro other hlt hother
    by_cases hsame : other = pid
    · simp only [hsame, Function.update_self] at hother
      exact h.returned hother
    · simp only [Function.update_of_ne hsame] at hother
      exact h.drained (hinv.drained other hlt hother)
  · intro other hother
    by_cases hsame : other = pid
    · simp only [hsame, Function.update_self] at hother ⊢
      exact h.able hother
    · simp only [Function.update_of_ne hsame] at hother ⊢
      exact hinv.able other hother

end Update

theorem wake_items (r : Runner) : r.wake.items = r.items := by
  cases r <;> rfl

theorem cancel_items (r : Runner) : r.cancel.items = r.items := by
  cases r <;> rfl

theorem wake_returned {r : Runner} (h : r.wake = .returned) : r = .returned := by
  cases r <;> first | rfl | cases h

theorem cancel_returned {r : Runner} (h : r.cancel = .returned) : r = .returned := by
  cases r <;> first | rfl | cases h

theorem hand_inv (hinv : Inv w items s) {unit : WorkUnit} {q : Queues}
    (hr : s.runner pid = .planning) (h : PlanEffect s.queues (some unit) q) :
    Inv w items
      ({ s with queues := q, handed := s.handed ++ [unit] }.setRunner pid (.start unit)) := by
  obtain ⟨hwaiting, hformed, hflight, hwait⟩ := hand_waiting h
  have hhanded : Handed items s pid (.start unit) q (s.handed ++ [unit]) [] := by
    refine ⟨?_, ?_, ?_, fun h => hwait (start_waiting h), ?_, ?_, ?_, ?_, fun _ => start_able unit⟩
    · rw [start_items, hr, ← hwaiting]
      rfl
    · rw [← hinv.handed, ← hwaiting, List.flatMap_append, List.flatMap_singleton,
        ← Multiset.coe_add]
      abel
    · intro other hother
      rcases List.mem_append.mp hother with hold | hnew
      · exact hinv.formed other hold
      · rw [List.mem_singleton.mp hnew]
        exact hformed
    · intro hold
      rw [hflight, hold, Bool.or_true]
    · intro hnext
      rw [hflight] at hnext
      rcases (Bool.or_eq_true _ _).mp hnext with hgrouped | hold
      · exact .inl ((start_chunked unit).trans hgrouped)
      · refine .inr ⟨hold, ?_⟩
        rw [hr]
        rfl
    · exact fun hreturned => absurd hreturned (start_not_returned unit)
    · intro hzero
      rw [hzero] at hwaiting
      exact (add_eq_zero.mp hwaiting).2
  have hnext := inv_of_handed hinv (by rw [hr]; rfl) hhanded
  rwa [List.append_nil] at hnext

theorem finish_inv (hinv : Inv w items s) {q : Queues} (hr : s.runner pid = .planning)
    (h : PlanEffect s.queues none q) :
    Inv w items ({ s with queues := q }.setRunner pid .returned) := by
  cases h with
  | finish hzero hzero' hflight =>
      have hhanded : Handed items s pid .returned q s.handed [] := by
        refine ⟨?_, ?_, hinv.formed, Runner.noConfusion, ?_, ?_, fun _ => hzero', fun _ => hzero',
          fun h => by cases h⟩
        · rw [hr, hzero, hzero']
          rfl
        · rw [hzero', ← hzero]
          exact hinv.handed
        · exact fun hold => hflight.trans hold
        · intro hnext
          refine .inr ⟨hflight.symm.trans hnext, ?_⟩
          rw [hr]
          rfl
      have hnext := inv_of_handed hinv (by rw [hr]; rfl) hhanded
      rwa [List.append_nil] at hnext

theorem progress_inv (hinv : Inv w items s) {done : List (BatchItemRow × ItemOutcome)} {r : Runner}
    (hactive : (s.runner pid).active = true) (h : Progress (s.runner pid) done r) :
    Inv w items ({ s with outcomes := s.outcomes ++ done }.setRunner pid r) := by
  refine inv_of_handed hinv hactive ⟨?_, hinv.handed, hinv.formed, ?_, fun hold => hold, ?_, ?_,
    fun hzero => hzero, fun _ => .inr h.ready⟩
  · rw [h.items]
  · intro hwait
    have hready := h.ready
    rw [hwait] at hready
    cases hready
  · intro hold
    cases hchunked : (s.runner pid).chunked with
    | true => exact .inl (h.chunked.trans hchunked)
    | false => exact .inr ⟨hold, rfl⟩
  · intro hreturned
    have hready := h.ready
    rw [hreturned] at hready
    cases hready

theorem close_inv (hinv : Inv w items s) (hr : s.runner pid = .closing) :
    Inv w items (s.closeChunk pid) := by
  have hactive : (s.runner pid).active = true := by rw [hr]; rfl
  have hpid := lt_of_active hinv hactive
  have hrunner : ∀ other, ((s.closeChunk pid).runner other).items = (s.runner other).items ∧
      ((s.closeChunk pid).runner other = .returned → s.runner other = .returned) ∧
      (s.closeChunk pid).runner other ≠ .waiting ∧
      (((s.closeChunk pid).runner other).active = true →
        ready ((s.closeChunk pid).runner other) = true) := by
    intro other
    rw [State.closeChunk]
    by_cases hsame : other = pid
    · subst hsame
      simp only [Function.update_self, hr]
      exact ⟨rfl, Runner.noConfusion, Runner.noConfusion, fun _ => rfl⟩
    · simp only [Function.update_of_ne hsame]
      refine ⟨wake_items _, wake_returned, ?_, ?_⟩
      · cases s.runner other <;> exact Runner.noConfusion
      · intro hawake
        cases hwaiting : s.runner other with
        | waiting => rfl
        | _ =>
            have hable := hinv.able other
            rw [hwaiting] at hable hawake
            exact (hable hawake).resolve_left Runner.noConfusion
  refine ⟨?_, ?_, hinv.handed, hinv.formed, ?_, ?_, ?_, ?_⟩
  · intro other hother
    rw [State.closeChunk]
    simp only
    rw [Function.update_of_ne (by omega), hinv.beyond other hother]
    rfl
  · have hheld : held (runnerCount w items) (s.closeChunk pid).runner =
        held (runnerCount w items) s.runner :=
      Finset.sum_congr rfl fun other _ => by rw [(hrunner other).1]
    rw [hheld]
    exact hinv.conserved
  · exact fun other hother => absurd hother (hrunner other).2.2.1
  · exact fun hflight => absurd hflight Bool.false_ne_true
  · exact fun other hlt hother => hinv.drained other hlt ((hrunner other).2.1 hother)
  · exact fun other hother => .inr ((hrunner other).2.2.2 hother)

theorem raise_inv (hinv : Inv w items s) (hactive : (s.runner pid).active = true) :
    Inv w items { s with runner := fun other => (s.runner other).cancel } := by
  refine ⟨?_, ?_, hinv.handed, hinv.formed, ?_, ?_, ?_, ?_⟩
  · intro other hother
    simp only
    rw [hinv.beyond other hother]
    rfl
  · have hheld : held (runnerCount w items) (fun other => (s.runner other).cancel) =
        held (runnerCount w items) s.runner :=
      Finset.sum_congr rfl fun other _ => by rw [cancel_items]
    simp only
    rw [hheld]
    exact hinv.conserved
  · intro other hother
    simp only at hother
    cases hr : s.runner other <;> rw [hr] at hother <;> cases hother
  · intro _
    refine ⟨pid, .inr ⟨(s.runner pid).items, ?_⟩⟩
    simp only
    cases hr : s.runner pid <;> rw [hr] at hactive <;> first | rfl | cases hactive
  · exact fun other hlt hother => hinv.drained other hlt (cancel_returned hother)
  · intro other hother
    simp only at hother
    cases hr : s.runner other <;> rw [hr] at hother <;> cases hother

theorem effect_inv (hinv : Inv w items s) (h : StepEffect s s') : Inv w items s' := by
  cases h with
  | hand hr heffect => exact hand_inv hinv hr heffect
  | finish hr heffect => exact finish_inv hinv hr heffect
  | progress hactive hprogress => exact progress_inv hinv hactive hprogress
  | close hr => exact close_inv hinv hr
  | raise hactive => exact raise_inv hinv hactive

theorem step_of_enabled {e : Event} (h : (plannerSystem w items).enabled s e) :
    step w s e = some ((plannerSystem w items).next s e) := by
  obtain ⟨s', hs'⟩ := Option.isSome_iff_exists.mp h
  simp [plannerSystem, hs']

theorem reachable_inv (hs : Reachable (plannerSystem w items) s) : Inv w items s := by
  refine Reachable.invariant (P := Inv w items) (fun s hs => ?_) (fun s e hinv he => ?_) hs
  · rw [show s = initialState w items from hs]
    exact inv_initial w items
  · exact effect_inv hinv (step_effect (step_of_enabled he))

/-! ## The loop ends -/

def potential (w : EmbeddingWorker) (items : List BatchItemRow) (s : State) : ℕ :=
  (runnerCount w items + 6) * Multiset.card s.queues.waiting +
    ∑ pid ∈ Finset.range (runnerCount w items), weight (runnerCount w items) (s.runner pid)

/-- A work unit costs less than the items it takes from the queues. -/
theorem start_weight {unit : WorkUnit} (hitems : unit.items ≠ []) (runners : ℕ) :
    weight runners (.start unit) < 2 + (runners + 6) * unit.items.length := by
  have hpos := List.length_pos_of_ne_nil hitems
  cases unit with
  | groupedChunk chunk =>
      have hle := acquire_weight chunk [] runners
      have hmul : runners ≤ runners * chunk.length := by
        rw [WorkUnit.items, List.length_map] at hpos
        exact Nat.le_mul_of_pos_right runners hpos
      simp only [Runner.start, WorkUnit.items, List.length_map, List.length_nil,
        add_mul] at hle hpos ⊢
      omega
  | waitForGroupedChunkSlot => exact absurd rfl hitems
  | preparationFailure failure =>
      simp only [Runner.start, weight, WorkUnit.items, List.length_singleton]
      omega
  | single prepared =>
      simp only [Runner.start, weight, WorkUnit.items, List.length_singleton]
      omega

theorem weight_pos {r : Runner} (h : r.active = true) (runners : ℕ) : 0 < weight runners r := by
  cases r with
  | returned => cases h
  | cancelled _ => cases h
  | _ =>
      simp only [weight]
      omega

theorem weight_wake (r : Runner) (runners : ℕ) : weight runners r.wake ≤ weight runners r + 1 := by
  cases r <;> simp only [Runner.wake, weight] <;> omega

theorem hand_lowers (hinv : Inv w items s) {unit : WorkUnit} {q : Queues}
    (hr : s.runner pid = .planning) (h : PlanEffect s.queues (some unit) q) :
    potential w items
      ({ s with queues := q, handed := s.handed ++ [unit] }.setRunner pid (.start unit)) <
        potential w items s := by
  have hsum := sum_update (weight (runnerCount w items)) s.runner
    (lt_of_active hinv (by rw [hr]; rfl)) (.start unit)
  rw [hr] at hsum
  have htwo : weight (runnerCount w items) .planning = 2 := rfl
  rw [htwo] at hsum
  simp only [potential, State.setRunner]
  cases h with
  | unit _ hitems hwaiting _ =>
      have hless := start_weight hitems (runnerCount w items)
      have hcard := congrArg Multiset.card hwaiting
      rw [Multiset.card_add, Multiset.coe_card] at hcard
      rw [← hcard, mul_add]
      omega
  | wait hwaiting _ _ =>
      have hone : weight (runnerCount w items) (.start .waitForGroupedChunkSlot) = 1 := rfl
      rw [hone] at hsum
      rw [hwaiting]
      omega

theorem finish_lowers (hinv : Inv w items s) {q : Queues} (hr : s.runner pid = .planning)
    (h : PlanEffect s.queues none q) :
    potential w items ({ s with queues := q }.setRunner pid .returned) < potential w items s := by
  have hsum := sum_update (weight (runnerCount w items)) s.runner
    (lt_of_active hinv (by rw [hr]; rfl)) .returned
  have htwo : weight (runnerCount w items) .planning = 2 := rfl
  have hzero : weight (runnerCount w items) .returned = 0 := rfl
  rw [hr, htwo, hzero] at hsum
  cases h with
  | finish hempty hempty' _ =>
      simp only [potential, State.setRunner]
      rw [hempty, hempty']
      omega

theorem progress_lowers (hinv : Inv w items s) {done : List (BatchItemRow × ItemOutcome)}
    {r : Runner} (hactive : (s.runner pid).active = true) (h : Progress (s.runner pid) done r) :
    potential w items ({ s with outcomes := s.outcomes ++ done }.setRunner pid r) <
      potential w items s := by
  have hsum := sum_update (weight (runnerCount w items)) s.runner (lt_of_active hinv hactive) r
  have hless := h.lighter (runnerCount w items)
  simp only [potential, State.setRunner]
  omega

theorem close_lowers (hinv : Inv w items s) (hr : s.runner pid = .closing) :
    potential w items (s.closeChunk pid) < potential w items s := by
  have hpid := lt_of_active hinv (show (s.runner pid).active = true by rw [hr]; rfl)
  have hmem : pid ∈ Finset.range (runnerCount w items) := Finset.mem_range.mpr hpid
  have hothers : ∑ other ∈ Finset.range (runnerCount w items) \ {pid},
      weight (runnerCount w items) ((s.closeChunk pid).runner other) ≤
        ∑ other ∈ Finset.range (runnerCount w items) \ {pid},
          (weight (runnerCount w items) (s.runner other) + 1) := by
    refine Finset.sum_le_sum fun other hother => ?_
    have hne : other ≠ pid := by simpa using (Finset.mem_sdiff.mp hother).2
    rw [State.closeChunk]
    simp only
    rw [Function.update_of_ne hne]
    exact weight_wake _ _
  have hcard : (Finset.range (runnerCount w items) \ {pid}).card ≤ runnerCount w items := by
    calc (Finset.range (runnerCount w items) \ {pid}).card
        ≤ (Finset.range (runnerCount w items)).card := Finset.card_le_card Finset.sdiff_subset
      _ = runnerCount w items := Finset.card_range _
  rw [Finset.sum_add_distrib, Finset.sum_const, nsmul_one, Nat.cast_id] at hothers
  have hbefore := Finset.sum_eq_add_sum_sdiff_singleton_of_mem hmem fun other =>
    weight (runnerCount w items) (s.runner other)
  have hafter := Finset.sum_eq_add_sum_sdiff_singleton_of_mem hmem fun other =>
    weight (runnerCount w items) ((s.closeChunk pid).runner other)
  have hclosing : weight (runnerCount w items) (s.runner pid) = runnerCount w items + 3 := by
    rw [hr]
    rfl
  have hplanning : weight (runnerCount w items) ((s.closeChunk pid).runner pid) = 2 := by
    rw [State.closeChunk]
    simp only [Function.update_self]
    rfl
  have hwaiting : (s.closeChunk pid).queues.waiting = s.queues.waiting := rfl
  rw [potential, potential, hwaiting, hbefore, hafter, hclosing, hplanning]
  omega

theorem raise_lowers (hinv : Inv w items s) (hactive : (s.runner pid).active = true) :
    potential w items { s with runner := fun other => (s.runner other).cancel } <
      potential w items s := by
  have hpid := Finset.mem_range.mpr (lt_of_active hinv hactive)
  have hnone : ∑ other ∈ Finset.range (runnerCount w items),
      weight (runnerCount w items) (s.runner other).cancel = 0 := by
    refine Finset.sum_eq_zero fun other _ => ?_
    cases s.runner other <;> rfl
  have hsome := Finset.single_le_sum (f := fun other =>
    weight (runnerCount w items) (s.runner other)) (fun _ _ => Nat.zero_le _) hpid
  have hpos := weight_pos hactive (runnerCount w items)
  simp only [potential]
  rw [hnone]
  omega

theorem effect_lowers (hinv : Inv w items s) (h : StepEffect s s') :
    potential w items s' < potential w items s := by
  cases h with
  | hand hr heffect => exact hand_lowers hinv hr heffect
  | finish hr heffect => exact finish_lowers hinv hr heffect
  | progress hactive hprogress => exact progress_lowers hinv hactive hprogress
  | close hr => exact close_lowers hinv hr
  | raise hactive => exact raise_lowers hinv hactive

/-- No run is longer than the potential of the state it starts in. -/
theorem fires_length (hs : Reachable (plannerSystem w items) s) {es : List Event}
    (h : Fires (plannerSystem w items) (fun _ _ => True) s es) :
    es.length ≤ potential w items s := by
  induction es generalizing s with
  | nil => exact Nat.zero_le _
  | cons e es ih =>
      obtain ⟨he, -, hrest⟩ := h
      have hless := effect_lowers (reachable_inv hs) (step_effect (step_of_enabled he))
      have hlength := ih (hs.step he) hrest
      rw [List.length_cons]
      omega

/-- All runners have returned. -/
def Ended (s : State) : Prop := ∀ pid, s.runner pid = .returned

/-- An exception has left a work unit and the runners are cancelled. -/
def Cancelled (s : State) : Prop := ∃ pid items, s.runner pid = .cancelled items

/-- An exception that leaves a work unit. -/
def Event.isRaise : Event → Bool
  | .raise _ => true
  | _ => false

/-- Answers of one execution in which everything is lost. -/
def lostRun : ItemRun := ⟨none, .leaseLost, false, ⟨.notOwned, .notOwned, none⟩, ⟨false, false⟩⟩

theorem runner_steps (w : EmbeddingWorker) (h : ready (s.runner pid) = true) :
    ∃ e, Event.isRaise e = false ∧ (step w s e).isSome = true := by
  have hnoRoute : Except BatchError Route := .error ⟨.other, "", ""⟩
  cases hr : s.runner pid with
  | planning => exact ⟨.plan pid fun _ => hnoRoute, rfl, by simp [step, hr]⟩
  | failing failure => exact ⟨.markFailed pid ⟨true, true⟩, rfl, by simp [step, hr]⟩
  | single prepared => exact ⟨.runItem pid lostRun, rfl, by simp [step, hr]⟩
  | lone prepared => exact ⟨.runItem pid lostRun, rfl, by simp [step, hr]⟩
  | acquiring todo allowed =>
      cases todo with
      | nil =>
          rw [hr] at h
          cases h
      | cons prepared todo =>
          exact ⟨.acquireLease pid none ⟨true, true⟩, rfl, by simp [step, hr]⟩
  | calling chunk => exact ⟨.callProvider pid .leaseLost, rfl, by simp [step, hr, executeChunk]⟩
  | isolating todo =>
      cases todo with
      | nil =>
          rw [hr] at h
          cases h
      | cons prepared todo => exact ⟨.isolateItem pid hnoRoute lostRun, rfl, by simp [step, hr]⟩
  | closing => exact ⟨.closeChunk pid, rfl, by simp [step, hr]⟩
  | waiting =>
      rw [hr] at h
      cases h
  | returned =>
      rw [hr] at h
      cases h
  | cancelled items =>
      rw [hr] at h
      cases h

theorem ready_of_chunked (hinv : Inv w items s) (h : (s.runner pid).chunked = true) :
    ready (s.runner pid) = true := by
  have hable := hinv.able pid
  cases hr : s.runner pid with
  | waiting =>
      rw [hr] at h
      cases h
  | returned =>
      rw [hr] at h
      cases h
  | cancelled items =>
      rw [hr] at h
      cases h
  | _ =>
      rw [hr] at hable
      exact (hable rfl).resolve_left Runner.noConfusion

/-- While no work unit has raised, some runner can go on or all have returned. -/
theorem not_stuck (hinv : Inv w items s) (hended : ¬Ended s) (hcancelled : ¬Cancelled s) :
    ∃ e, Event.isRaise e = false ∧ (step w s e).isSome = true := by
  obtain ⟨pid, hpid⟩ := not_forall.mp hended
  have hactive : (s.runner pid).active = true := by
    cases hr : s.runner pid with
    | returned => exact absurd hr hpid
    | cancelled items => exact absurd ⟨pid, items, hr⟩ hcancelled
    | _ => rfl
  rcases hinv.able pid hactive with hwaiting | hready
  · obtain ⟨other, hother⟩ := hinv.chunk (hinv.slot pid hwaiting)
    rcases hother with hchunked | ⟨items, hitems⟩
    · exact runner_steps w (ready_of_chunked hinv hchunked)
    · exact absurd ⟨other, items, hitems⟩ hcancelled
  · exact runner_steps w hready

/-- When all runners have returned, nothing waits and nothing is held. -/
theorem ended_complete (hinv : Inv w items s) (hended : Ended s) :
    s.queues.waiting = 0 ∧ (s.outcomes.map Prod.fst : Multiset BatchItemRow) = items := by
  have hheld : held (runnerCount w items) s.runner = 0 := by
    refine Finset.sum_eq_zero fun pid _ => ?_
    rw [hended pid]
    rfl
  have hconserved := hinv.conserved
  rw [hheld, add_zero] at hconserved
  have hempty : s.queues.waiting = 0 := by
    by_cases hrunners : 0 < runnerCount w items
    · exact hinv.drained 0 hrunners (hended 0)
    · have hnone : items.length = 0 := by
        rw [runnerCount] at hrunners
        omega
      rw [List.length_eq_zero_iff.mp hnone, Multiset.coe_nil] at hconserved
      exact (add_eq_zero.mp hconserved).2
  rw [hempty, add_zero] at hconserved
  exact ⟨hempty, hconserved⟩

/-! ## Kept leases -/

/-- One of the failure statements updates the row. -/
def MarkApplied (w : EmbeddingWorker) (item : BatchItemRow) (error : BatchError)
    (writes : FailureWrites) : Prop :=
  writes.first = true ∨ canRetryItem w item error = true ∧ writes.second = true

/-- The item is completed by one of the attempts, or released after both raised. -/
def PersistApplied (writes : PersistWrites) (itemId : String) : Prop :=
  (writes.first = .completed ∨ writes.first = .alreadyCompleted) ∨
    writes.first = .raised ∧ ((writes.second = .completed ∨ writes.second = .alreadyCompleted) ∨
      writes.second = .raised ∧ ∃ released, writes.released = some released ∧ itemId ∈ released)

/-- The execution loses no lease and its writes are applied. -/
def RunApplied (w : EmbeddingWorker) (item : BatchItemRow) (run : ItemRun) : Prop :=
  match run.policy, run.call with
  | some error, _ => MarkApplied w item error run.failure
  | none, .leaseLost => False
  | none, .raised error => MarkApplied w item error run.failure
  | none, .served => run.renewed = true ∧ PersistApplied run.persist item.itemId

def ProcessApplied (w : EmbeddingWorker) (item : BatchItemRow) (route : Except BatchError Route)
    (run : ItemRun) : Prop :=
  match prepareEmbeddingItem item route with
  | .error error => MarkApplied w item error run.failure
  | .ok _ => RunApplied w item run

def CallApplied (chunk : List PreparedEmbeddingItem) : ChunkCall → Prop
  | .leaseLost => False
  | .raised _ release => ∀ released, release.released = some released → released ≠ [] →
      ∀ prepared ∈ chunk, prepared.item.itemId ∈ released
  | .served renewed persist => ∀ prepared ∈ chunk, renewed prepared.item.itemId = true ∧
      PersistApplied persist prepared.item.itemId

/-- The step loses no lease and its writes are applied. -/
def LeasesKept (w : EmbeddingWorker) (s : State) : Event → Prop
  | .markFailed pid writes => ∀ failure, s.runner pid = .failing failure →
      MarkApplied w failure.item failure.error writes
  | .runItem pid run =>
      ∀ prepared, s.runner pid = .single prepared ∨ s.runner pid = .lone prepared →
      RunApplied w prepared.item run
  | .acquireLease pid policy writes => ∀ prepared todo allowed,
      s.runner pid = .acquiring (prepared :: todo) allowed →
        ∀ error, policy = some error → MarkApplied w prepared.item error writes
  | .callProvider pid call => ∀ chunk, s.runner pid = .calling chunk → CallApplied chunk call
  | .isolateItem pid route run => ∀ prepared todo, s.runner pid = .isolating (prepared :: todo) →
      ProcessApplied w prepared.item route run
  | _ => True

theorem markItemFailed_ne_left {item : BatchItemRow} {error : BatchError} {writes : FailureWrites}
    (h : MarkApplied w item error writes) : markItemFailed w item error writes ≠ .left := by
  unfold markItemFailed
  rcases h with hfirst | hsecond
  · rw [if_pos hfirst]
    split <;> exact ItemOutcome.noConfusion
  · split
    next => split <;> exact ItemOutcome.noConfusion
    next => exact ItemOutcome.noConfusion

theorem persistCompletionRows_ne_left {writes : PersistWrites} {itemId : String}
    (h : PersistApplied writes itemId) : persistCompletionRows writes itemId ≠ .left := by
  unfold persistCompletionRows
  rcases h with hfirst | ⟨hfirst, hsecond | ⟨hsecond, released, hreleased, hmem⟩⟩
  · rcases hfirst with hfirst | hfirst <;> rw [hfirst] <;> exact ItemOutcome.noConfusion
  · rcases hsecond with hsecond | hsecond <;> rw [hfirst, hsecond] <;>
      exact ItemOutcome.noConfusion
  · rw [hfirst, hsecond, hreleased, settle, settle, Option.getD_some, releasedOutcome, if_pos hmem]
    exact ItemOutcome.noConfusion

theorem executePreparedItem_ne_left {item : BatchItemRow} {run : ItemRun}
    (h : RunApplied w item run) : executePreparedItem w item run ≠ .left := by
  obtain ⟨policy, call, renewed, persist, failure⟩ := run
  cases policy with
  | some error => exact markItemFailed_ne_left h
  | none =>
      cases call with
      | leaseLost => exact h.elim
      | raised error => exact markItemFailed_ne_left h
      | served =>
          obtain ⟨hrenewed, hpersist⟩ := h
          simp only at hrenewed
          simp only [executePreparedItem, hrenewed, if_true]
          exact persistCompletionRows_ne_left hpersist

theorem processItem_ne_left {item : BatchItemRow} {route : Except BatchError Route} {run : ItemRun}
    (h : ProcessApplied w item route run) : processItem w item route run ≠ .left := by
  unfold ProcessApplied at h
  unfold processItem
  cases hprepared : prepareEmbeddingItem item route with
  | error error =>
      rw [hprepared] at h
      exact markItemFailed_ne_left h
  | ok prepared =>
      rw [hprepared] at h
      have hitem : prepared.item = item :=
        prepare_item (p := ⟨fun _ => .error ⟨.other, "", ""⟩, fun _ => route⟩) hprepared
      simp only [hitem]
      exact executePreparedItem_ne_left h

theorem executeChunk_ne_left {chunk : List PreparedEmbeddingItem} {call : ChunkCall}
    (h : CallApplied chunk call) {outcome : String → ItemOutcome}
    (hend : executeChunk w chunk call = .settled outcome) :
    ∀ prepared ∈ chunk, outcome prepared.item.itemId ≠ .left := by
  intro prepared hprepared
  cases call with
  | leaseLost => exact h.elim
  | raised error release =>
      rw [executeChunk] at hend
      split at hend
      next => cases hend
      next =>
        split at hend
        next body released hrelease =>
          obtain rfl := ChunkEnd.settled.inj hend
          have hwritten : release.released = some released ∧ released ≠ [] := by
            unfold releaseFailedMicrobatchForRetry at hrelease
            split at hrelease
            next => cases hrelease
            next =>
              obtain ⟨retry, -, hretry⟩ := Option.bind_eq_some_iff.mp hrelease
              split at hretry
              next => cases hretry
              next => cases hretry
              next ids hne hids =>
                obtain ⟨-, rfl⟩ := Prod.mk.inj (Option.some.inj hretry)
                exact ⟨hids, hne⟩
          have hmem := h released hwritten.1 hwritten.2 prepared hprepared
          rw [releasedOutcome, if_pos hmem]
          exact ItemOutcome.noConfusion
        next => cases hend
  | served renewed persist =>
      rw [executeChunk, if_pos fun other hother => (h other hother).1] at hend
      obtain rfl := ChunkEnd.settled.inj hend
      exact persistCompletionRows_ne_left (h prepared hprepared).2

/-- No item is left with its lease. -/
def NoneLeft (outcomes : List (BatchItemRow × ItemOutcome)) : Prop :=
  ∀ entry ∈ outcomes, entry.2 ≠ .left

theorem NoneLeft.record {outcomes : List (BatchItemRow × ItemOutcome)} (h : NoneLeft outcomes)
    {item : BatchItemRow} {outcome : ItemOutcome} (houtcome : outcome ≠ .left) :
    NoneLeft (outcomes ++ [(item, outcome)]) := by
  intro entry hentry
  rcases List.mem_append.mp hentry with hold | hnew
  · exact h entry hold
  · rw [List.mem_singleton.mp hnew]
    exact houtcome

theorem step_noneLeft {e : Event} (h : step w s e = some s') (hkept : LeasesKept w s e)
    (hnone : NoneLeft s.outcomes) : NoneLeft s'.outcomes := by
  cases e with
  | plan pid route =>
      rw [step] at h
      split at h
      next =>
        obtain rfl := Option.some.inj h
        rw [State.plan]
        split <;> exact hnone
      next => cases h
  | markFailed pid writes =>
      rw [step] at h
      split at h
      next failure hr =>
        obtain rfl := Option.some.inj h
        exact hnone.record (markItemFailed_ne_left (hkept failure hr))
      next => cases h
  | runItem pid run =>
      rw [step] at h
      split at h
      next prepared hr =>
        obtain rfl := Option.some.inj h
        exact hnone.record (executePreparedItem_ne_left (hkept prepared (.inl hr)))
      next prepared hr =>
        obtain rfl := Option.some.inj h
        exact hnone.record (executePreparedItem_ne_left (hkept prepared (.inr hr)))
      next => cases h
  | acquireLease pid policy writes =>
      simp only [step] at h
      split at h
      next prepared todo allowed hr =>
        obtain rfl := Option.some.inj h
        exact hnone
      next prepared todo allowed error hr =>
        obtain rfl := Option.some.inj h
        exact hnone.record (markItemFailed_ne_left (hkept prepared todo allowed hr error rfl))
      next => cases h
  | callProvider pid call =>
      rw [step] at h
      split at h
      next chunk hr =>
        split at h
        next outcome hend =>
          obtain rfl := Option.some.inj h
          intro entry hentry
          rcases List.mem_append.mp hentry with hold | hnew
          · exact hnone entry hold
          · obtain ⟨prepared, hprepared, rfl⟩ := List.mem_map.mp hnew
            exact executeChunk_ne_left (hkept chunk hr) hend prepared hprepared
        next =>
          obtain rfl := Option.some.inj h
          exact hnone
      next => cases h
  | isolateItem pid route run =>
      rw [step] at h
      split at h
      next prepared todo hr =>
        obtain rfl := Option.some.inj h
        exact hnone.record (processItem_ne_left (hkept prepared todo hr))
      next => cases h
  | closeChunk pid =>
      rw [step] at h
      split at h
      next =>
        obtain rfl := Option.some.inj h
        exact hnone
      next => cases h
  | raise pid =>
      rw [step] at h
      split at h
      next =>
        obtain rfl := Option.some.inj h
        exact hnone
      next => cases h

theorem kept_noneLeft (hs : ReachableBy (plannerSystem w items) (LeasesKept w) s) :
    NoneLeft s.outcomes := by
  refine ReachableBy.invariant (P := fun s => NoneLeft s.outcomes) (fun s hs => ?_)
    (fun s e hnone he hkept => ?_) hs
  · rw [show s = initialState w items from hs]
    exact fun entry hentry => absurd hentry List.not_mem_nil
  · exact step_noneLeft (step_of_enabled he) hkept hnone

/-! ## Handing over -/

namespace LostLease

/-- One runner; every request is eligible. -/
def worker : EmbeddingWorker where
  workerConcurrency := 1
  maxAttempts := 3
  microbatchRetryEnabled := true
  microbatchMaxGroupRetries := 2
  microbatchMinReducedSize := 1
  scaledSize := fun size => (size + 1) / 2
  validate := fun body => .ok ⟨"m1", body.get "input", some "float", none, none⟩

def item (itemId : String) (lineNumber : ℕ) : BatchItemRow :=
  { createdItem itemId "batch-1" lineNumber itemId [("model", .str "m1"), ("input", .str "hello")] 1
    with status := .inProgress, attempts := 1, claimEpoch := 1, lockedBy := some "worker-1" }

def first : BatchItemRow := item "item-1" 1

def second : BatchItemRow := item "item-2" 2

def route (item : BatchItemRow) : Except BatchError Route :=
  .ok ⟨⟨"m1", item.requestBody.get "input", some "float", none, none⟩, "m1", "dep-1",
    [("upstream_max_batch_inputs", .int 8)], []⟩

/-- The provider serves the chunk, and only the lease of the first item is renewed. -/
def lostLease : List Event :=
  [.plan 0 route, .acquireLease 0 none ⟨true, true⟩, .acquireLease 0 none ⟨true, true⟩,
    .callProvider 0 (.served (· = "item-1") ⟨.completed, .completed, none⟩), .closeChunk 0,
    .plan 0 route]

/-- The provider serves the chunk and both items are completed. -/
def served : List Event :=
  [.plan 0 route, .acquireLease 0 none ⟨true, true⟩, .acquireLease 0 none ⟨true, true⟩,
    .callProvider 0 (.served (fun _ => true) ⟨.completed, .completed, none⟩), .closeChunk 0,
    .plan 0 route]

def stateAfter (events : List Event) : State :=
  events.foldl (plannerSystem worker [first, second]).next (initialState worker [first, second])

instance (s : State) (e : Event) : Decidable ((plannerSystem worker [first, second]).enabled s e) :=
  inferInstanceAs (Decidable (_ = true))

theorem lostLease_reachable :
    Reachable (plannerSystem worker [first, second]) (stateAfter lostLease) :=
  ReachableBy.fires (.initial rfl) (by decide +kernel)

theorem served_reachable : Reachable (plannerSystem worker [first, second]) (stateAfter served) :=
  ReachableBy.fires (.initial rfl) (by decide +kernel)

theorem ended_of_first {s : State} (hs : Reachable (plannerSystem worker [first, second]) s)
    (hfirst : s.runner 0 = .returned) : Ended s := by
  intro pid
  cases pid with
  | zero => exact hfirst
  | succ pid =>
      have hone : runnerCount worker [first, second] = 1 := rfl
      exact (reachable_inv hs).beyond _ (by omega)

def hasReturned : Runner → Bool
  | .returned => true
  | _ => false

theorem eq_returned {runner : Runner} (h : hasReturned runner = true) : runner = .returned := by
  cases runner <;> first | rfl | cases h

theorem served_ended : Ended (stateAfter served) :=
  ended_of_first served_reachable (eq_returned (by decide +kernel))

end LostLease

open LostLease in
/-- The lease of one item is renewed, that of the other is lost: both are left. -/
theorem renewed_item_left_with_its_lease :
    Reachable (plannerSystem worker [first, second]) (stateAfter lostLease) ∧
      Ended (stateAfter lostLease) ∧
      (stateAfter lostLease).outcomes.map (fun entry => (entry.1.itemId, entry.2)) =
        [("item-1", .left), ("item-2", .left)] :=
  ⟨lostLease_reachable, ended_of_first lostLease_reachable (eq_returned (by decide +kernel)),
    by decide +kernel⟩

/-- In every state each claimed item waits, is held by one runner or has one outcome, and it waits
or belongs to one work unit. Chunks are well formed. Unless a work unit raises, the loop ends with
all queues empty and every item handed out once and with one outcome. Where no lease is lost and
every write is applied, each of them is completed, failed or requeued. -/
theorem claimed_items_handed_over_once (hs : Reachable (plannerSystem w items) s) :
    (s.outcomes.map Prod.fst : Multiset BatchItemRow) + held (runnerCount w items) s.runner +
        s.queues.waiting = items ∧
      (s.handed.flatMap WorkUnit.items : Multiset BatchItemRow) + s.queues.waiting = items ∧
      (∀ unit ∈ s.handed, unit.WellFormed) ∧
      (Ended s → (s.queues.rawItems = [] ∧ s.queues.deferredGroupedRawItems = [] ∧
        s.queues.preparedBacklog = [] ∧ s.queues.plannedWorkUnits = []) ∧
          (s.handed.flatMap WorkUnit.items : Multiset BatchItemRow) = items ∧
          (s.outcomes.map Prod.fst : Multiset BatchItemRow) = items) ∧
      (¬Ended s → ¬Cancelled s →
        ∃ e, Event.isRaise e = false ∧ (plannerSystem w items).enabled s e) ∧
      (∀ es, Fires (plannerSystem w items) (fun _ _ => True) s es →
        es.length ≤ potential w items s) ∧
      (ReachableBy (plannerSystem w items) (LeasesKept w) s → NoneLeft s.outcomes) := by
  have hinv := reachable_inv hs
  refine ⟨hinv.conserved, hinv.handed, hinv.formed, fun hended => ?_, not_stuck hinv,
    fun es => fires_length hs, kept_noneLeft⟩
  obtain ⟨hempty, houtcomes⟩ := ended_complete hinv hended
  have hhanded := hinv.handed
  rw [hempty, add_zero] at hhanded
  exact ⟨queues_empty hempty, hhanded, houtcomes⟩

open LostLease in
theorem claimed_items_handed_over_once_served :
    (stateAfter served).queues.deferredGroupedRawItems = [] ∧
      ((stateAfter served).outcomes.map Prod.fst : Multiset BatchItemRow) = [first, second] :=
  have h := (claimed_items_handed_over_once served_reachable).2.2.2.1 served_ended
  ⟨h.1.2.1, h.2.2⟩

end EmbeddingHandover
