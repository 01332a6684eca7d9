import Mathlib.Algebra.BigOperators.Group.Finset.Basic
import Mathlib.Algebra.Order.BigOperators.Group.Finset
import Mathlib.Data.Fintype.Card
import DeltaLLM.TransitionRuns

/-! # Runners that drain a queue

A fixed number of runners take the jobs of one queue from its front until it is empty. A job may
have to wait for a permit of its key, and an exception of a job cancels all runners. Nothing is lost
or done twice, the runners never wait for each other for ever, and every run is finite.
-/
namespace RunnerPools

open TransitionRuns

inductive Runner (α : Type) where
  | idle
  | waiting (job : α)
  | running (job : α)
  | returned
  | cancelled (job : Option α)
  deriving DecidableEq

/-- What the runners of a pool do: the key of a job, the permits of a key, none where no permit is
needed, and the results that a job can end with. -/
structure Pool (α β κ : Type) where
  key : α → κ
  permits : κ → Option ℕ
  ends : α → β → Prop

/-- The queue, the runners, the jobs in the order in which they left the queue, and the results in
the order in which they came. -/
structure State (α β : Type) (n : ℕ) where
  queue : List α
  runner : Fin n → Runner α
  taken : List α
  results : List (α × β)

inductive Event (β : Type) (n : ℕ) where
  | take (i : Fin n)
  | enter (i : Fin n)
  | finish (i : Fin n) (result : β)
  | raise (i : Fin n)

variable {α β κ : Type} {n : ℕ}

def Event.isRaise : Event β n → Bool
  | .raise _ => true
  | _ => false

def Runner.jobs : Runner α → List α
  | .waiting job | .running job | .cancelled (some job) => [job]
  | .idle | .returned | .cancelled none => []

/-- A runner that has not returned stops where it is. -/
def Runner.cancel : Runner α → Runner α
  | .returned => .returned
  | .waiting job | .running job => .cancelled (some job)
  | .idle => .cancelled none
  | .cancelled job => .cancelled job

def State.setRunner (s : State α β n) (i : Fin n) (r : Runner α) : State α β n :=
  { s with runner := Function.update s.runner i r }

theorem runner_setRunner (s : State α β n) (i j : Fin n) (r : Runner α) :
    (s.setRunner i r).runner j = if j = i then r else s.runner j := by
  change Function.update s.runner i r j = _
  rw [Function.update_apply]

/-- A running job holds a permit of its key. -/
def Runner.holds [DecidableEq κ] (key : α → κ) (k : κ) : Runner α → Bool
  | .running job => key job = k
  | _ => false

def State.occupied [DecidableEq κ] (key : α → κ) (s : State α β n) (k : κ) : ℕ :=
  (Finset.univ.filter fun i => (s.runner i).holds key k = true).card

section System

variable [DecidableEq κ] (P : Pool α β κ)

def enabled (s : State α β n) : Event β n → Prop
  | .take i => s.runner i = .idle
  | .enter i => ∃ job, s.runner i = .waiting job ∧
      ∀ limit ∈ P.permits (P.key job), s.occupied P.key (P.key job) < limit
  | .finish i result => ∃ job, s.runner i = .running job ∧ P.ends job result
  | .raise i => ∃ job, s.runner i = .running job

def next (s : State α β n) : Event β n → State α β n
  | .take i =>
      match s.queue with
      | [] => s.setRunner i .returned
      | job :: queue => { s with queue, taken := s.taken ++ [job] }.setRunner i (.waiting job)
  | .enter i =>
      match s.runner i with
      | .waiting job => s.setRunner i (.running job)
      | _ => s
  | .finish i result =>
      match s.runner i with
      | .running job => { s with results := s.results ++ [(job, result)] }.setRunner i .idle
      | _ => s
  | .raise _ => { s with runner := fun i => (s.runner i).cancel }

def initial (jobs : List α) : State α β n := ⟨jobs, fun _ => .idle, [], []⟩

/-- `n` runners on the queue of the jobs. -/
def system (n : ℕ) (jobs : List α) : TransitionSystem (State α β n) (Event β n) where
  initial s := s = initial jobs
  enabled := enabled P
  next := next

end System

def Ended (s : State α β n) : Prop := ∀ i, s.runner i = .returned

def Cancelled (s : State α β n) : Prop := ∃ i job, s.runner i = .cancelled job

/-! ## What a step does -/

/-- The changes of a step: a job leaves the queue, or a runner goes on with what it holds. -/
inductive StepEffect [DecidableEq κ] (P : Pool α β κ) (s : State α β n) : State α β n → Prop where
  | take {i : Fin n} {job : α} {queue : List α} : s.runner i = .idle → s.queue = job :: queue →
      StepEffect P s ({ s with queue, taken := s.taken ++ [job] }.setRunner i (.waiting job))
  | leave {i : Fin n} : s.runner i = .idle → s.queue = [] → StepEffect P s (s.setRunner i .returned)
  | enter {i : Fin n} {job : α} : s.runner i = .waiting job →
      (∀ limit ∈ P.permits (P.key job), s.occupied P.key (P.key job) < limit) →
      StepEffect P s (s.setRunner i (.running job))
  | finish {i : Fin n} {job : α} {result : β} : s.runner i = .running job → P.ends job result →
      StepEffect P s ({ s with results := s.results ++ [(job, result)] }.setRunner i .idle)
  | raise {i : Fin n} {job : α} : s.runner i = .running job →
      StepEffect P s { s with runner := fun i => (s.runner i).cancel }

variable {P : Pool α β κ} {jobs : List α} {s : State α β n}

theorem step_effect [DecidableEq κ] {e : Event β n} (h : enabled P s e) :
    StepEffect P s (next s e) := by
  cases e with
  | take i =>
      rw [next]
      split
      · exact .leave h ‹_›
      · exact .take h ‹_›
  | enter i =>
      obtain ⟨job, hrunner, hfree⟩ := h
      simp only [next, hrunner]
      exact .enter hrunner hfree
  | finish i result =>
      obtain ⟨job, hrunner, hends⟩ := h
      simp only [next, hrunner]
      exact .finish hrunner hends
  | raise i =>
      obtain ⟨job, hrunner⟩ := h
      exact .raise hrunner

/-- The sum over the runners when one of them changes. -/
theorem sum_setRunner {M : Type} [AddCommMonoid M] (f : Runner α → M) (s : State α β n) (i : Fin n)
    (r : Runner α) :
    f (s.runner i) + ∑ j, f ((s.setRunner i r).runner j) = f r + ∑ j, f (s.runner j) := by
  have hold := Finset.add_sum_erase Finset.univ (fun j => f (s.runner j)) (Finset.mem_univ i)
  have hnew := Finset.add_sum_erase Finset.univ (fun j => f ((s.setRunner i r).runner j))
    (Finset.mem_univ i)
  have hrest : ∑ j ∈ Finset.univ.erase i, f ((s.setRunner i r).runner j) =
      ∑ j ∈ Finset.univ.erase i, f (s.runner j) := by
    apply Finset.sum_congr rfl
    intro j hj
    rw [runner_setRunner, if_neg (Finset.ne_of_mem_erase hj)]
  have hself : (s.setRunner i r).runner i = r := by rw [runner_setRunner, if_pos rfl]
  simp only [hself, hrest] at hnew
  rw [← hnew, ← hold]
  exact add_left_comm _ _ _

/-! ## Nothing is lost -/

/-- The jobs that the runners hold. -/
def State.held (s : State α β n) : Multiset α := ∑ i, ((s.runner i).jobs : Multiset α)

structure Inv (P : Pool α β κ) (jobs : List α) (s : State α β n) : Prop where
  drained : s.taken ++ s.queue = jobs
  conserved : (s.results.map Prod.fst : Multiset α) + s.held = s.taken
  ended : ∀ entry ∈ s.results, P.ends entry.1 entry.2
  returned : ∀ i, s.runner i = .returned → s.queue = []
  ordered : ∀ i : Fin n, n = 1 → s.results.map Prod.fst ++ (s.runner i).jobs = s.taken

theorem inv_initial : Inv P jobs (initial jobs : State α β n) where
  drained := rfl
  conserved := by simp [initial, State.held, Runner.jobs]
  ended := by simp [initial]
  returned := by simp [initial]
  ordered := by simp [initial, Runner.jobs]

theorem held_setRunner (s : State α β n) (i : Fin n) (r : Runner α) :
    ((s.runner i).jobs : Multiset α) + (s.setRunner i r).held = r.jobs + s.held :=
  sum_setRunner (fun r => (r.jobs : Multiset α)) s i r

theorem jobs_cancel (r : Runner α) : r.cancel.jobs = r.jobs := by
  cases r with
  | cancelled job => rfl
  | _ => rfl

/-- With one runner, what holds of the runner that steps holds of all. -/
theorem eq_of_one (h : n = 1) (i j : Fin n) : j = i := by
  subst h
  exact Subsingleton.elim j i

theorem inv_step [DecidableEq κ] {t : State α β n} (hinv : Inv P jobs s) (h : StepEffect P s t) :
    Inv P jobs t := by
  cases h with
  | @take i job queue hidle hqueue =>
      have hheld := held_setRunner s i (.waiting job)
      rw [hidle] at hheld
      simp only [Runner.jobs, Multiset.coe_nil, zero_add] at hheld
      refine ⟨?_, ?_, hinv.ended, ?_, ?_⟩
      · have hdrained := hinv.drained
        rw [hqueue] at hdrained
        rw [← hdrained]
        exact List.append_assoc s.taken [job] queue
      · change (s.results.map Prod.fst : Multiset α) + (s.setRunner i (.waiting job)).held =
          ((s.taken ++ [job] : List α) : Multiset α)
        rw [hheld, ← Multiset.coe_add, ← hinv.conserved]
        exact (add_left_comm _ _ _).trans (add_comm _ _)
      · intro j hj
        rw [runner_setRunner] at hj
        split at hj
        · cases hj
        · have hnone := hinv.returned j hj
          rw [hqueue] at hnone
          cases hnone
      · intro j hone
        have hji := eq_of_one hone i j
        subst hji
        have hordered := hinv.ordered j hone
        rw [hidle] at hordered
        simp only [Runner.jobs, List.append_nil] at hordered
        rw [runner_setRunner, if_pos rfl]
        exact congrArg (· ++ [job]) hordered
  | @leave i hidle hqueue =>
      have hheld := held_setRunner s i .returned
      rw [hidle] at hheld
      simp only [Runner.jobs, Multiset.coe_nil, zero_add] at hheld
      refine ⟨hinv.drained, ?_, hinv.ended, fun _ _ => hqueue, ?_⟩
      · rw [hheld]
        exact hinv.conserved
      · intro j hone
        have hji := eq_of_one hone i j
        subst hji
        have hordered := hinv.ordered j hone
        rw [hidle] at hordered
        rw [runner_setRunner, if_pos rfl]
        exact hordered
  | @enter i job hwaiting hfree =>
      have hheld := held_setRunner s i (.running job)
      rw [hwaiting] at hheld
      refine ⟨hinv.drained, ?_, hinv.ended, ?_, ?_⟩
      · rw [add_left_cancel hheld]
        exact hinv.conserved
      · intro j hj
        rw [runner_setRunner] at hj
        split at hj
        · cases hj
        · exact hinv.returned j hj
      · intro j hone
        have hji := eq_of_one hone i j
        subst hji
        have hordered := hinv.ordered j hone
        rw [hwaiting] at hordered
        rw [runner_setRunner, if_pos rfl]
        exact hordered
  | @finish i job result hrunning hends =>
      have hheld := held_setRunner s i .idle
      rw [hrunning] at hheld
      simp only [Runner.jobs, Multiset.coe_nil, zero_add] at hheld
      refine ⟨hinv.drained, ?_, ?_, ?_, ?_⟩
      · change ((s.results ++ [(job, result)]).map Prod.fst : Multiset α) +
          (s.setRunner i .idle).held = (s.taken : Multiset α)
        rw [← hinv.conserved, ← hheld, List.map_append, ← Multiset.coe_add, add_assoc]
        rfl
      · intro entry hentry
        rcases List.mem_append.mp hentry with hold | hnew
        · exact hinv.ended entry hold
        · rw [List.mem_singleton.mp hnew]
          exact hends
      · intro j hj
        rw [runner_setRunner] at hj
        split at hj
        · cases hj
        · exact hinv.returned j hj
      · intro j hone
        have hji := eq_of_one hone i j
        subst hji
        have hordered := hinv.ordered j hone
        rw [hrunning] at hordered
        rw [runner_setRunner, if_pos rfl]
        change (s.results ++ [(job, result)]).map Prod.fst ++ [] = s.taken
        rw [List.append_nil, List.map_append]
        exact hordered
  | @raise i job hrunning =>
      have hheld : State.held { s with runner := fun i => (s.runner i).cancel } = s.held := by
        simp only [State.held, jobs_cancel]
      refine ⟨hinv.drained, ?_, hinv.ended, ?_, ?_⟩
      · rw [hheld]
        exact hinv.conserved
      · intro j hj
        apply hinv.returned j
        simp only at hj
        cases hr : s.runner j with
        | returned => rfl
        | _ => simp [hr, Runner.cancel] at hj
      · intro j hone
        simp only [jobs_cancel]
        exact hinv.ordered j hone

theorem reachable_inv [DecidableEq κ] (hs : Reachable (system P n jobs) s) : Inv P jobs s := by
  refine Reachable.invariant (fun s hinit => ?_) (fun s e hinv he => ?_) hs
  · rw [show s = initial jobs from hinit]
    exact inv_initial
  · exact inv_step hinv (step_effect he)

/-- All runners have returned: the queue is empty and every job has one result. -/
theorem ended_complete (hinv : Inv P jobs s) (hn : jobs = [] ∨ 0 < n) (hended : Ended s) :
    s.queue = [] ∧ s.taken = jobs ∧ (s.results.map Prod.fst).Perm jobs ∧
      (n = 1 → s.results.map Prod.fst = jobs) := by
  have hqueue : s.queue = [] := by
    rcases hn with rfl | hpos
    · exact (List.append_eq_nil_iff.mp hinv.drained).2
    · exact hinv.returned ⟨0, hpos⟩ (hended ⟨0, hpos⟩)
  have htaken : s.taken = jobs := by
    have hdrained := hinv.drained
    rwa [hqueue, List.append_nil] at hdrained
  refine ⟨hqueue, htaken, ?_, ?_⟩
  · have hnone : s.held = 0 := by
      apply Finset.sum_eq_zero
      intro i _
      rw [hended i]
      rfl
    have hconserved := hinv.conserved
    rw [hnone, add_zero, htaken] at hconserved
    exact Multiset.coe_eq_coe.mp hconserved
  · intro hone
    have hordered := hinv.ordered ⟨0, by omega⟩ hone
    rw [hended ⟨0, by omega⟩, htaken] at hordered
    exact (List.append_nil _).symm.trans hordered

/-! ## The runners go on and come to an end -/

/-- Every job can end, and every semaphore has a permit. -/
structure Live (P : Pool α β κ) : Prop where
  total : ∀ job, ∃ result, P.ends job result
  permits_pos : ∀ k, ∀ limit ∈ P.permits k, 0 < limit

/-- When all permits of a key are taken, a runner that holds one can go on. -/
theorem exists_running [DecidableEq κ] {key : α → κ} {k : κ} (h : 0 < s.occupied key k) :
    ∃ i job, s.runner i = .running job := by
  obtain ⟨i, hi⟩ := Finset.card_pos.mp h
  have hholds := (Finset.mem_filter.mp hi).2
  refine ⟨i, ?_⟩
  cases hrunner : s.runner i with
  | running job => exact ⟨job, rfl⟩
  | _ => simp [hrunner, Runner.holds] at hholds

theorem not_stuck [DecidableEq κ] (hlive : Live P) (hended : ¬Ended s) (hcancelled : ¬Cancelled s) :
    ∃ e : Event β n, e.isRaise = false ∧ enabled P s e := by
  have hfinish : ∀ i job, s.runner i = .running job →
      ∃ e : Event β n, e.isRaise = false ∧ enabled P s e := by
    intro i job hrunner
    obtain ⟨result, hends⟩ := hlive.total job
    exact ⟨.finish i result, rfl, job, hrunner, hends⟩
  unfold Ended at hended
  push Not at hended
  obtain ⟨i, hi⟩ := hended
  cases hrunner : s.runner i with
  | idle => exact ⟨.take i, rfl, hrunner⟩
  | running job => exact hfinish i job hrunner
  | returned => exact absurd hrunner hi
  | cancelled job => exact absurd ⟨i, job, hrunner⟩ hcancelled
  | waiting job =>
      by_cases hfree : ∀ limit ∈ P.permits (P.key job), s.occupied P.key (P.key job) < limit
      · exact ⟨.enter i, rfl, job, hrunner, hfree⟩
      · push Not at hfree
        obtain ⟨limit, hlimit, hfull⟩ := hfree
        have hpos := hlive.permits_pos _ limit hlimit
        obtain ⟨j, other, hj⟩ := exists_running (hpos.trans_le hfull)
        exact hfinish j other hj

/-- How many steps a runner can still take with what it holds. -/
def Runner.steps : Runner α → ℕ
  | .waiting _ => 3
  | .running _ => 2
  | .idle => 1
  | .returned | .cancelled _ => 0

def State.potential (s : State α β n) : ℕ := 3 * s.queue.length + ∑ i, (s.runner i).steps

theorem steps_setRunner (s : State α β n) (i : Fin n) (r : Runner α) :
    (s.runner i).steps + ∑ j, ((s.setRunner i r).runner j).steps =
      r.steps + ∑ j, (s.runner j).steps :=
  sum_setRunner Runner.steps s i r

theorem steps_cancel_le (r : Runner α) : r.cancel.steps ≤ r.steps := by
  cases r <;> simp [Runner.cancel, Runner.steps]

theorem potential_step [DecidableEq κ] {t : State α β n} (h : StepEffect P s t) :
    t.potential < s.potential := by
  cases h with
  | @take i job queue hidle hqueue =>
      have hsteps := steps_setRunner s i (.waiting job)
      rw [hidle] at hsteps
      change 1 + _ = 3 + _ at hsteps
      change 3 * queue.length + ∑ j, ((s.setRunner i (.waiting job)).runner j).steps < _
      rw [State.potential, hqueue, List.length_cons]
      omega
  | @leave i hidle hqueue =>
      have hsteps := steps_setRunner s i .returned
      rw [hidle] at hsteps
      change 1 + _ = 0 + _ at hsteps
      change 3 * s.queue.length + ∑ j, ((s.setRunner i .returned).runner j).steps < _
      rw [State.potential]
      omega
  | @enter i job hwaiting hfree =>
      have hsteps := steps_setRunner s i (.running job)
      rw [hwaiting] at hsteps
      change 3 + _ = 2 + _ at hsteps
      change 3 * s.queue.length + ∑ j, ((s.setRunner i (.running job)).runner j).steps < _
      rw [State.potential]
      omega
  | @finish i job result hrunning hends =>
      have hsteps := steps_setRunner s i .idle
      rw [hrunning] at hsteps
      change 2 + _ = 1 + _ at hsteps
      change 3 * s.queue.length + ∑ j, ((s.setRunner i .idle).runner j).steps < _
      rw [State.potential]
      omega
  | @raise i job hrunning =>
      have hless : ∑ j, (s.runner j).cancel.steps < ∑ j, (s.runner j).steps := by
        apply Finset.sum_lt_sum
        · intro j _
          exact steps_cancel_le (s.runner j)
        · refine ⟨i, Finset.mem_univ i, ?_⟩
          rw [hrunning]
          exact Nat.two_pos
      change 3 * s.queue.length + ∑ j, (s.runner j).cancel.steps < _
      rw [State.potential]
      omega

theorem fires_length [DecidableEq κ] {es : List (Event β n)}
    (h : Fires (system P n jobs) (fun _ _ => True) s es) : es.length ≤ s.potential := by
  induction es generalizing s with
  | nil => exact Nat.zero_le _
  | cons e es ih =>
      have hless := potential_step (step_effect h.1)
      have hrest := ih h.2.2
      change es.length ≤ (next s e).potential at hrest
      rw [List.length_cons]
      omega

/-- The runners end with the queue empty and one result for every job, and until then one of them
can go on unless an exception left a job. -/
structure Drains [DecidableEq κ] (P : Pool α β κ) (jobs : List α) (s : State α β n) : Prop where
  complete : Ended s → s.queue = [] ∧ s.taken = jobs ∧ (s.results.map Prod.fst).Perm jobs
  going : ¬Ended s → ¬Cancelled s → ∃ e : Event β n, e.isRaise = false ∧ enabled P s e
  finite : ∀ es, Fires (system P n jobs) (fun _ _ => True) s es → es.length ≤ s.potential

theorem reachable_drains [DecidableEq κ] (hlive : Live P) (hn : jobs = [] ∨ 0 < n)
    (hs : Reachable (system P n jobs) s) : Drains P jobs s where
  complete hended := by
    obtain ⟨hqueue, htaken, hresults, _⟩ := ended_complete (reachable_inv hs) hn hended
    exact ⟨hqueue, htaken, hresults⟩
  going := not_stuck hlive
  finite _ := fires_length

end RunnerPools
