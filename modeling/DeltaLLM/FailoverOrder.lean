import DeltaLLM.FailoverAttempts

/-! # The order of a failover

A request goes first to the selected deployment and then along the chain that the registry gives.
With every retry kept in the history, the order of the attempts is the order of the chain.
-/
namespace FailoverOrder

open DeploymentRouting FailoverAttempts

variable {ρ : Type*}

/-! ## Histories -/

/-- Each entry of a history agrees with what came before it. -/
def Each (P : List Event → Event → Prop) (history : List Event) : Prop :=
  ∀ before event after, history = before ++ event :: after → P before event

section Entries

variable {P : List Event → Event → Prop} {history : List Event} {event : Event}

theorem each_nil : Each P [] := by
  intro before event after h
  exact absurd h.symm (by simp)

theorem each_concat : Each P (history ++ [event]) ↔ Each P history ∧ P history event := by
  constructor
  · intro h
    refine ⟨fun before other after hsplit => ?_, h history event [] rfl⟩
    exact h before other (after ++ [event]) (by rw [hsplit]; simp)
  · rintro ⟨h, hlast⟩ before other after hsplit
    rcases List.eq_nil_or_concat after with rfl | ⟨rest, final, rfl⟩
    · obtain ⟨rfl, heq⟩ := List.append_inj' hsplit rfl
      cases heq
      exact hlast
    · rw [List.concat_eq_append, ← List.cons_append, ← List.append_assoc] at hsplit
      obtain ⟨rfl, -⟩ := List.append_inj' hsplit rfl
      exact h before other rest rfl

theorem each_replicate {k : ℕ} (h : Each P history)
    (hmore : ∀ j < k, P (history ++ List.replicate j event) event) :
    Each P (history ++ List.replicate k event) := by
  induction k with
  | zero => simpa using h
  | succ k ih =>
      rw [List.replicate_succ', ← List.append_assoc, each_concat]
      exact ⟨ih fun j hj => hmore j (Nat.lt_succ_of_lt hj), hmore k (Nat.lt_succ_self k)⟩

end Entries

/-- A list in which each deployment stands at most so many times, in the order of another list. -/
inductive Expands (most : ℕ) : List Deployment → List Deployment → Prop where
  | nil : Expands most [] []
  | cons {d : Deployment} {ds attempted : List Deployment} (k : ℕ) (h : k ≤ most) :
      Expands most ds attempted → Expands most (d :: ds) (List.replicate k d ++ attempted)

namespace Expands

variable {most : ℕ} {ds es attempted more : List Deployment}

theorem append (h : Expands most ds attempted) (hmore : Expands most es more) :
    Expands most (ds ++ es) (attempted ++ more) := by
  induction h with
  | nil => exact hmore
  | cons k hk _ ih =>
      rw [List.append_assoc, List.cons_append]
      exact .cons k hk ih

theorem unreached (ds : List Deployment) : Expands most ds [] := by
  induction ds with
  | nil => exact .nil
  | cons d ds ih => exact .cons 0 (Nat.zero_le _) ih

theorem filter (p : Deployment → Bool) (h : Expands most ds attempted) :
    Expands most (ds.filter p) (attempted.filter p) := by
  induction h with
  | nil => exact .nil
  | @cons d ds attempted k hk _ ih =>
      rw [List.filter_append, List.filter_replicate]
      by_cases hp : p d = true
      · rw [List.filter_cons_of_pos hp, if_pos hp]
        exact .cons k hk ih
      · rw [List.filter_cons_of_neg hp, if_neg hp]
        exact ih

theorem mem (h : Expands most ds attempted) {d : Deployment} (hd : d ∈ attempted) : d ∈ ds := by
  induction h with
  | nil => exact hd
  | cons k _ _ ih =>
      rcases List.mem_append.mp hd with hd | hd
      · rw [List.eq_of_mem_replicate hd]
        exact List.mem_cons_self
      · exact List.mem_cons_of_mem _ (ih hd)

/-- Repeated deployments keep the order of their priorities. -/
theorem pairwise (h : Expands most ds attempted)
    (hds : ds.Pairwise fun d e => d.priority ≤ e.priority) :
    attempted.Pairwise fun d e => d.priority ≤ e.priority := by
  induction h with
  | nil => exact .nil
  | @cons d ds attempted k _ hrest ih =>
      obtain ⟨hfirst, hds⟩ := List.pairwise_cons.mp hds
      rw [List.pairwise_append]
      refine ⟨List.pairwise_replicate.mpr (.inr le_rfl), ih hds, ?_⟩
      intro a ha b hb
      rw [List.eq_of_mem_replicate ha]
      exact hfirst b (hrest.mem hb)

theorem length_le (h : Expands most ds attempted) : attempted.length ≤ most * ds.length := by
  induction h with
  | nil => simp
  | cons k hk _ ih =>
      rw [List.length_append, List.length_replicate, List.length_cons, Nat.mul_succ]
      omega

/-- Where each deployment has been reached, the list holds the other one in its order. -/
theorem sublist (h : Expands most ds attempted) (hnodup : ds.Nodup)
    (hall : ∀ d ∈ ds, d ∈ attempted) : ds.Sublist attempted := by
  induction h with
  | nil => exact List.Sublist.refl []
  | @cons d ds attempted k _ hrest ih =>
      obtain ⟨hnew, hnodup⟩ := List.nodup_cons.mp hnodup
      have hreached : k ≠ 0 := by
        rintro rfl
        have hd := hall d List.mem_cons_self
        simp only [List.replicate_zero, List.nil_append] at hd
        exact hnew (hrest.mem hd)
      obtain ⟨j, rfl⟩ := Nat.exists_eq_succ_of_ne_zero hreached
      rw [List.replicate_succ, List.cons_append]
      refine List.Sublist.cons_cons d ((ih hnodup fun e he => ?_).trans
        (List.sublist_append_right _ _))
      rcases List.mem_append.mp (hall e (List.mem_cons_of_mem _ he)) with hsame | hlater
      · rw [List.eq_of_mem_replicate hsame] at he
        exact absurd he hnew
      · exact hlater

end Expands

/-! ## The chain -/

/-- The deployments of the group as the chain has them, behind the selected one. -/
def others (x : Execution) (primary : Deployment) : List Deployment :=
  (addUnseen [primary] (x.registry x.group)).tail

def chainOf (x : Execution) (primary : Deployment) : List Deployment :=
  buildFallbackChain x.config x.registry primary x.group

theorem addUnseen_prefix (chain ds : List Deployment) : chain <+: addUnseen chain ds := by
  induction ds generalizing chain with
  | nil => exact List.prefix_refl chain
  | cons d ds ih =>
      rw [addUnseen]
      split
      · exact ih chain
      · exact (List.prefix_append chain [d]).trans (ih (chain ++ [d]))

theorem addUnseen_nodup {chain : List Deployment} (ds : List Deployment)
    (h : (chain.map (·.deploymentId)).Nodup) :
    ((addUnseen chain ds).map (·.deploymentId)).Nodup := by
  induction ds generalizing chain with
  | nil => exact h
  | cons d ds ih =>
      rw [addUnseen]
      split
      next => exact ih h
      next hnew =>
        refine ih ?_
        rw [List.map_append, List.nodup_append]
        refine ⟨h, List.nodup_singleton _, ?_⟩
        intro id hid other hother
        rintro rfl
        rw [List.mem_singleton.mp hother] at hid
        exact hnew hid

/-- The chain is the selected deployment, the others of its group and then the fallback groups. -/
theorem chainOf_eq (x : Execution) (primary : Deployment) :
    ∃ fallbacks, chainOf x primary = primary :: (others x primary ++ fallbacks) := by
  obtain ⟨rest, hgroup⟩ := addUnseen_prefix [primary] (x.registry x.group)
  obtain ⟨fallbacks, hchain⟩ := addUnseen_prefix (addUnseen [primary] (x.registry x.group))
    ((x.config.fallbacks x.group).flatMap x.registry)
  refine ⟨fallbacks, ?_⟩
  have hhead : addUnseen [] [primary] = [primary] := rfl
  rw [chainOf, buildFallbackChain, foldl_addUnseen, hhead, ← hchain, others, ← hgroup]
  rfl

theorem chainOf_nodup (x : Execution) (primary : Deployment) :
    ((chainOf x primary).map (·.deploymentId)).Nodup := by
  have hhead : addUnseen [] [primary] = [primary] := rfl
  rw [chainOf, buildFallbackChain, foldl_addUnseen, hhead]
  exact addUnseen_nodup _ (addUnseen_nodup _ (List.nodup_singleton _))

/-! ## Runs with retryable failures -/

/-- A failure of the deployment that the policy retries and that has no fallbacks of its own
class. -/
structure RetryableFailure (x : Execution) (d : Deployment) (raised : UpstreamError) : Prop where
  affects : affectsDeploymentHealth (normalizeExecutionError raised d).1 = true
  retries : shouldRetry (normalizeExecutionError raised d).2.1 (normalizeExecutionError raised d).1
    x.retryClasses = true
  unclassified : (normalizeExecutionError raised d).2.2 = true →
    x.classified (normalizeExecutionError raised d).2.1 = []

def RetryablePattern (x : Execution) (up : Upstream ρ) : Prop :=
  ∀ history d raised, up.execute history d = .error raised → RetryableFailure x d raised

def deploymentOf : Event → Deployment
  | .skipped d => d
  | .attempted d => d

/-- A deployment that was attempted or passed over. -/
def Visited (history : List Event) (d : Deployment) : Prop := d ∈ history.map deploymentOf

/-- A deployment is passed over only when it is not available. -/
def SkippedRightly (up : Upstream ρ) (before : List Event) : Event → Prop
  | .skipped d => up.available before d = false
  | .attempted _ => True

def Failed (up : Upstream ρ) (before : List Event) : Event → Prop
  | .skipped _ => True
  | .attempted d => ∃ raised, up.execute before d = .error raised

/-- All that stands before a deployment in the chain has been visited before it. -/
def AfterPredecessors (chain : List Deployment) (before : List Event) (event : Event) : Prop :=
  ∃ done rest, chain = done ++ deploymentOf event :: rest ∧ ∀ d ∈ done, Visited before d

/-- The error of the last attempt, none while there was no attempt. -/
def LastError (up : Upstream ρ) (history : List Event) : Option ProxyError → Prop
  | none => attempts history = []
  | some e => ∃ before d after raised, history = before ++ .attempted d :: after ∧
      attempts after = [] ∧ up.execute before d = .error raised ∧
        (normalizeExecutionError raised d).1 = e

section Runs

variable {x : Execution} {up : Upstream ρ}

/-- A failed attempt goes on to the next one, or to the next deployment when none remains. -/
theorem attemptDeployment_error (hpattern : RetryablePattern x up) {d : Deployment}
    {history : List Event} {raised : UpstreamError} (remaining : ℕ)
    (h : up.execute history d = .error raised) :
    attemptDeployment x up d remaining history =
      match remaining with
      | 0 => (.inr (normalizeExecutionError raised d).1, history ++ [.attempted d])
      | left + 1 => attemptDeployment x up d left (history ++ [.attempted d]) := by
  obtain ⟨haffects, hretry, hclassified⟩ := hpattern history d raised h
  have hnone : x.classifiedAttempts up (normalizeExecutionError raised d).2.1
      (normalizeExecutionError raised d).2.2 (history ++ [.attempted d]) =
        (none, history ++ [.attempted d]) := by
    unfold Execution.classifiedAttempts
    split
    next hallowed => rw [hclassified hallowed, tryClassifiedFallbacks]
    next => rfl
  rw [attemptDeployment.eq_def, h]
  cases remaining with
  | zero => simp only [hnone, haffects, Bool.not_true, Bool.false_eq_true, if_false]
  | succ left =>
      simp only [hnone, haffects, hretry, Bool.not_true, Bool.false_eq_true, if_false, if_true]

/-- The attempts on one deployment fail until one succeeds or none remains. -/
theorem attemptDeployment_run (hpattern : RetryablePattern x up) (d : Deployment) (remaining : ℕ)
    (history : List Event) :
    ∃ k ≤ remaining,
      (attemptDeployment x up d remaining history).2 =
          history ++ List.replicate k (.attempted d) ++ [.attempted d] ∧
      (∀ j < k, Failed up (history ++ List.replicate j (.attempted d)) (.attempted d)) ∧
      ((∃ result, up.execute (history ++ List.replicate k (.attempted d)) d = .ok result ∧
          (attemptDeployment x up d remaining history).1 = .inl (.served result d)) ∨
        ∃ raised, up.execute (history ++ List.replicate k (.attempted d)) d = .error raised ∧
          (attemptDeployment x up d remaining history).1 =
            .inr (normalizeExecutionError raised d).1) := by
  induction remaining generalizing history with
  | zero =>
      refine ⟨0, le_rfl, ?_⟩
      simp only [List.replicate_zero, List.append_nil]
      cases hexecute : up.execute history d with
      | ok result =>
          rw [attemptDeployment.eq_def, hexecute]
          exact ⟨rfl, fun j hj => absurd hj (Nat.not_lt_zero j), .inl ⟨result, rfl, rfl⟩⟩
      | error raised =>
          rw [attemptDeployment_error hpattern 0 hexecute]
          exact ⟨rfl, fun j hj => absurd hj (Nat.not_lt_zero j), .inr ⟨raised, rfl, rfl⟩⟩
  | succ left ih =>
      cases hexecute : up.execute history d with
      | ok result =>
          refine ⟨0, Nat.zero_le _, ?_⟩
          simp only [List.replicate_zero, List.append_nil]
          rw [attemptDeployment.eq_def, hexecute]
          exact ⟨rfl, fun j hj => absurd hj (Nat.not_lt_zero j), .inl ⟨result, rfl, rfl⟩⟩
      | error raised =>
          rw [attemptDeployment_error hpattern (left + 1) hexecute]
          obtain ⟨k, hk, hhistory, hfailed, hlast⟩ := ih (history ++ [.attempted d])
          have hshift : ∀ j, history ++ [Event.attempted d] ++ List.replicate j (.attempted d) =
              history ++ List.replicate (j + 1) (.attempted d) := by
            intro j
            rw [List.replicate_succ, List.append_assoc, List.singleton_append]
          simp only [hshift] at hhistory hfailed hlast
          refine ⟨k + 1, Nat.succ_le_succ hk, hhistory, ?_, hlast⟩
          intro j hj
          cases j with
          | zero => exact ⟨raised, by simpa using hexecute⟩
          | succ j => exact hfailed j (Nat.lt_of_succ_lt_succ hj)

/-- What holds when a part of the chain has been tried without success. -/
structure Progress (x : Execution) (up : Upstream ρ) (chain done : List Deployment)
    (history : List Event) (lastError : Option ProxyError) : Prop where
  skips : Each (SkippedRightly up) history
  order : Each (AfterPredecessors chain) history
  failed : Each (Failed up) history
  visited : ∀ d ∈ done, Visited history d
  expands : Expands (x.retries + 1) done (attempts history)
  last : LastError up history lastError

/-- What holds when the request has been served. -/
structure Served (x : Execution) (up : Upstream ρ) (chain : List Deployment) (before : List Event)
    (d : Deployment) (result : ρ) : Prop where
  answer : up.execute before d = .ok result
  skips : Each (SkippedRightly up) before
  order : Each (AfterPredecessors chain) (before ++ [.attempted d])
  failed : Each (Failed up) before
  expands : Expands (x.retries + 1) chain (attempts before ++ [d])

variable {chain done ds : List Deployment} {d : Deployment} {history : List Event}
  {lastError : Option ProxyError}

theorem Visited.append {more : List Event} (h : Visited history d) :
    Visited (history ++ more) d := by
  rw [Visited, List.map_append]
  exact List.mem_append_left _ h

theorem attempts_replicate (k : ℕ) (d : Deployment) :
    attempts (List.replicate k (.attempted d)) = List.replicate k d :=
  List.filterMap_replicate_of_some rfl

/-- A deployment that is not available is passed over. -/
theorem Progress.skip (h : Progress x up chain done history lastError)
    (hchain : chain = done ++ d :: ds) (hunavailable : up.available history d = false) :
    Progress x up chain (done ++ [d]) (history ++ [.skipped d]) lastError := by
  refine ⟨?_, ?_, ?_, ?_, ?_, ?_⟩
  · exact each_concat.mpr ⟨h.skips, hunavailable⟩
  · exact each_concat.mpr ⟨h.order, done, ds, hchain, h.visited⟩
  · exact each_concat.mpr ⟨h.failed, trivial⟩
  · intro e he
    rcases List.mem_append.mp he with he | he
    · exact (h.visited e he).append
    · rw [List.mem_singleton.mp he]
      simp [Visited, deploymentOf]
  · rw [attempts_append, attempts_skipped]
    exact h.expands.append (.cons 0 (Nat.zero_le _) .nil)
  · have hlast := h.last
    cases lastError with
    | none => simpa [LastError] using hlast
    | some e =>
        obtain ⟨before, other, after, raised, hsplit, hnone, hexecute, hnormal⟩ := hlast
        refine ⟨before, other, after ++ [.skipped d], raised, ?_, ?_, hexecute, hnormal⟩
        · rw [hsplit, List.append_assoc, List.cons_append]
        · rw [attempts_append, hnone]
          rfl

/-- The failed attempts on the next deployment of the chain. -/
theorem Progress.each_attempted {k : ℕ} (h : Progress x up chain done history lastError)
    (hchain : chain = done ++ d :: ds)
    (hfailed : ∀ j < k, Failed up (history ++ List.replicate j (.attempted d)) (.attempted d)) :
    Each (SkippedRightly up) (history ++ List.replicate k (.attempted d)) ∧
      Each (AfterPredecessors chain) (history ++ List.replicate (k + 1) (.attempted d)) ∧
      Each (Failed up) (history ++ List.replicate k (.attempted d)) := by
  refine ⟨?_, ?_, ?_⟩
  · exact each_replicate h.skips fun _ _ => trivial
  · exact each_replicate h.order fun _ _ =>
      ⟨done, ds, hchain, fun e he => (h.visited e he).append⟩
  · exact each_replicate h.failed hfailed

theorem runChain_run (hpattern : RetryablePattern x up) (hchain : chain = done ++ ds)
    (h : Progress x up chain done history lastError) :
    (∃ history' lastError', runChain x up ds lastError history =
        (.raised (lastError'.getD noHealthyDeployments), history') ∧
      Progress x up chain chain history' lastError') ∨
    ∃ before d result, runChain x up ds lastError history =
        (.served result d, before ++ [.attempted d]) ∧ Served x up chain before d result := by
  induction ds generalizing done history lastError with
  | nil =>
      rw [List.append_nil] at hchain
      subst hchain
      exact .inl ⟨history, lastError, rfl, h⟩
  | cons d ds ih =>
      have hrest : chain = (done ++ [d]) ++ ds := by rw [hchain]; simp
      cases havailable : up.available history d with
      | false =>
          have hrun : runChain x up (d :: ds) lastError history =
              runChain x up ds lastError (history ++ [.skipped d]) := by
            rw [runChain, havailable]
            rfl
          rw [hrun]
          exact ih hrest (h.skip hchain havailable)
      | true =>
          obtain ⟨k, hk, hhistory, hfailed, hlast⟩ :=
            attemptDeployment_run hpattern d x.retries history
          obtain ⟨hskips, horder, hfails⟩ := h.each_attempted hchain hfailed
          have hattempts : attempts (history ++ List.replicate (k + 1) (.attempted d)) =
              attempts history ++ List.replicate (k + 1) d := by
            rw [attempts_append, attempts_replicate]
          have hexpands : Expands (x.retries + 1) (done ++ [d])
              (attempts history ++ List.replicate (k + 1) d) := by
            have hone : Expands (x.retries + 1) [d] (List.replicate (k + 1) d ++ []) :=
              .cons (k + 1) (Nat.succ_le_succ hk) .nil
            rw [List.append_nil] at hone
            exact h.expands.append hone
          have hgrown : history ++ List.replicate (k + 1) (Event.attempted d) =
              history ++ List.replicate k (.attempted d) ++ [.attempted d] := by
            rw [List.replicate_succ', List.append_assoc]
          rw [runChain, havailable]
          generalize hresult : attemptDeployment x up d x.retries history =
            outcome at hhistory hlast
          obtain ⟨first, later⟩ := outcome
          obtain rfl : later = _ := hhistory
          rcases hlast with ⟨result, hexecute, rfl⟩ | ⟨raised, hexecute, rfl⟩
          · refine .inr ⟨_, d, result, rfl, hexecute, hskips, hgrown ▸ horder, hfails, ?_⟩
            have hall := hexpands.append (Expands.unreached ds)
            rw [List.append_nil, ← hattempts, hgrown, attempts_append, ← hrest] at hall
            exact hall
          · refine ih hrest ⟨?_, hgrown ▸ horder, ?_, ?_, ?_, ?_⟩
            · exact each_concat.mpr ⟨hskips, trivial⟩
            · exact each_concat.mpr ⟨hfails, raised, hexecute⟩
            · intro e he
              rcases List.mem_append.mp he with he | he
              · exact (h.visited e he).append.append
              · rw [List.mem_singleton.mp he]
                simp [Visited, deploymentOf]
            · rw [← hgrown, hattempts]
              exact hexpands
            · exact ⟨_, d, [], raised, rfl, rfl, hexecute, rfl⟩

end Runs

/-! ## Order and coverage -/

/-- The selected deployment and the others of its group. -/
def members (x : Execution) (primary : Deployment) : List Deployment := primary :: others x primary

/-- The first success is returned, or the error of the last attempt, once every member of the group
has been attempted or passed over. -/
def EndsRightly (x : Execution) (up : Upstream ρ) (primary : Deployment) (history : List Event) :
    Outcome ρ → Prop
  | .served result d => ∃ before, history = before ++ [.attempted d] ∧
      up.execute before d = .ok result ∧ Each (Failed up) before
  | .raised e => Each (Failed up) history ∧ (∀ d ∈ members x primary, Visited history d) ∧
      ∃ lastError, LastError up history lastError ∧ e = lastError.getD noHealthyDeployments

/-- The attempts of a run: by priority behind the selected deployment, with few retries, with no
available deployment passed over and with the fallback groups last. -/
structure InOrder (x : Execution) (up : Upstream ρ) (primary : Deployment) : Prop where
  ordered : ((attempts (executeWithFailover x up primary).2).filter (· ∈ others x primary)).Pairwise
    fun d e => d.priority ≤ e.priority
  few : ∀ d, ((attempts (executeWithFailover x up primary).2).filter (sameId d)).length ≤
    x.retries + 1
  skips : Each (SkippedRightly up) (executeWithFailover x up primary).2
  fallbackLast : ∀ before d after,
    (executeWithFailover x up primary).2 = before ++ .attempted d :: after → d ∉ members x primary →
      ∀ m ∈ members x primary, Visited before m
  ends : EndsRightly x up primary (executeWithFailover x up primary).2
    (executeWithFailover x up primary).1

section Order

variable {x : Execution} {up : Upstream ρ} {primary : Deployment}

theorem chainOf_nodup_self (x : Execution) (primary : Deployment) : (chainOf x primary).Nodup :=
  List.Nodup.of_map _ (chainOf_nodup x primary)

theorem filter_others (x : Execution) (primary : Deployment) :
    (chainOf x primary).filter (· ∈ others x primary) = others x primary := by
  obtain ⟨fallbacks, hchain⟩ := chainOf_eq x primary
  have hnodup := chainOf_nodup_self x primary
  rw [hchain] at hnodup ⊢
  obtain ⟨hprimary, hrest⟩ := List.nodup_cons.mp hnodup
  have hdisjoint := (List.nodup_append.mp hrest).2.2
  rw [List.filter_cons_of_neg (by simpa using fun h => hprimary (List.mem_append_left _ h)),
    List.filter_append, List.filter_eq_self.mpr (by simp), List.filter_eq_nil_iff.mpr ?_,
    List.append_nil]
  intro d hd
  simpa using fun h => hdisjoint d h d hd rfl

theorem length_filter_sameId_le {ds : List Deployment} (h : (ds.map (·.deploymentId)).Nodup)
    (d : Deployment) : (ds.filter (sameId d)).length ≤ 1 := by
  have hcount := List.nodup_iff_count_le_one.mp h d.deploymentId
  rw [List.count_eq_countP, List.countP_map, List.countP_eq_length_filter] at hcount
  refine le_trans (le_of_eq (congrArg List.length (List.filter_congr fun e _ => ?_))) hcount
  rw [Function.comp_apply, beq_eq_decide, sameId]

theorem progress_start (x : Execution) (up : Upstream ρ) (chain : List Deployment) :
    Progress x up chain [] [] none :=
  ⟨each_nil, each_nil, each_nil, fun _ h => absurd h List.not_mem_nil, .nil, rfl⟩

/-- What every run with retryable failures has, whatever the order of the registry. -/
theorem run_facts (hpattern : RetryablePattern x up) (primary : Deployment) :
    Expands (x.retries + 1) (chainOf x primary) (attempts (executeWithFailover x up primary).2) ∧
      Each (SkippedRightly up) (executeWithFailover x up primary).2 ∧
      Each (AfterPredecessors (chainOf x primary)) (executeWithFailover x up primary).2 ∧
      EndsRightly x up primary (executeWithFailover x up primary).2
        (executeWithFailover x up primary).1 := by
  have hmembers : members x primary ⊆ chainOf x primary := by
    obtain ⟨fallbacks, hchain⟩ := chainOf_eq x primary
    rw [hchain]
    exact List.cons_subset_cons primary (List.subset_append_left _ _)
  have hrun : executeWithFailover x up primary = runChain x up (chainOf x primary) none [] := rfl
  rw [hrun]
  rcases runChain_run hpattern (List.nil_append _).symm
    (progress_start x up (chainOf x primary)) with
    ⟨history, lastError, heq, hprogress⟩ | ⟨before, d, result, heq, hserved⟩
  · rw [heq]
    refine ⟨hprogress.expands, hprogress.skips, hprogress.order, hprogress.failed, ?_, ?_⟩
    · exact fun m hm => hprogress.visited m (hmembers hm)
    · exact ⟨lastError, hprogress.last, rfl⟩
  · rw [heq]
    refine ⟨?_, each_concat.mpr ⟨hserved.skips, trivial⟩, hserved.order, ?_⟩
    · rw [attempts_append]
      exact hserved.expands
    · exact ⟨before, rfl, hserved.answer, hserved.failed⟩

/-- The fallback groups come last: before one of their deployments stands the whole group. -/
theorem fallback_last {before : List Event} {d : Deployment}
    (h : AfterPredecessors (chainOf x primary) before (.attempted d)) (hd : d ∉ members x primary) :
    ∀ m ∈ members x primary, Visited before m := by
  obtain ⟨fallbacks, hchain⟩ := chainOf_eq x primary
  obtain ⟨done, rest, hsplit, hvisited⟩ := h
  have hboth : members x primary ++ fallbacks = done ++ d :: rest := hchain.symm.trans hsplit
  intro m hm
  rcases List.append_eq_append_iff.mp hboth with ⟨more, hdone, -⟩ | ⟨more, hgroup, htail⟩
  · exact hvisited m (hdone ▸ List.mem_append_left more hm)
  · cases more with
    | nil => exact hvisited m (by rwa [hgroup, List.append_nil] at hm)
    | cons first more =>
        cases htail
        exact absurd (hgroup ▸ by simp) hd

/-- All but the order needs nothing but retryable failures. -/
theorem inOrder_of_ordered (hpattern : RetryablePattern x up)
    (hordered : ((attempts (executeWithFailover x up primary).2).filter
      (· ∈ others x primary)).Pairwise fun d e => d.priority ≤ e.priority) :
    InOrder x up primary := by
  obtain ⟨hexpands, hskips, horder, hends⟩ := run_facts hpattern primary
  refine ⟨hordered, ?_, hskips, ?_, hends⟩
  · intro d
    have hle := (hexpands.filter (sameId d)).length_le
    have hone := length_filter_sameId_le (chainOf_nodup x primary) d
    have hmul := Nat.mul_le_mul_left (x.retries + 1) hone
    omega
  · intro before d after hsplit hd
    exact fallback_last (horder before (.attempted d) after hsplit) hd

/-- Without failures there is at most one attempt. -/
theorem attempts_of_no_failure (hpattern : RetryablePattern x up) (primary : Deployment)
    (hnone : ∀ d raised, ¬RetryableFailure x d raised) :
    (attempts (executeWithFailover x up primary).2).length ≤ 1 := by
  have hidle : ∀ history : List Event, Each (Failed up) history → attempts history = [] := by
    intro history hfailed
    rw [List.eq_nil_iff_forall_not_mem]
    intro d hd
    obtain ⟨event, hevent, hattempted⟩ := List.mem_filterMap.mp hd
    obtain ⟨before, after, hsplit⟩ := List.append_of_mem hevent
    cases event with
    | skipped e => cases hattempted
    | attempted e =>
        obtain ⟨raised, hexecute⟩ := hfailed before _ after hsplit
        exact hnone e raised (hpattern before e raised hexecute)
  have hends := (run_facts hpattern primary).2.2.2
  cases hresult : (executeWithFailover x up primary).1 with
  | served result d =>
      rw [hresult] at hends
      obtain ⟨before, hhistory, -, hfailed⟩ := hends
      rw [hhistory, attempts_append, hidle before hfailed]
      exact le_rfl
  | raised e =>
      rw [hresult] at hends
      rw [hidle _ hends.1]
      exact Nat.zero_le 1

/-- Whether a failure is retried depends on the failure alone. -/
theorem RetryableFailure.transfer {d : Deployment} {raised : UpstreamError}
    (h : RetryableFailure x d raised) (e : Deployment) : RetryableFailure x e raised := by
  cases raised with
  | timedOut => exact ⟨rfl, h.retries, h.unclassified⟩
  | proxy _ => exact ⟨h.affects, h.retries, h.unclassified⟩
  | http _ => exact ⟨h.affects, h.retries, h.unclassified⟩
  | other _ => exact ⟨h.affects, h.retries, h.unclassified⟩

end Order

/-- Every attempt fails in one way. -/
def Upstream.failingWith (ρ : Type*) (raised : UpstreamError) : Upstream ρ where
  available _ _ := true
  execute _ _ := .error raised

/-- When everything fails, every member of the chain is attempted. -/
theorem others_sublist {x : Execution} {d : Deployment} {raised : UpstreamError}
    (h : RetryableFailure x d raised) (primary : Deployment) :
    (others x primary).Sublist
      ((attempts (executeWithFailover x (Upstream.failingWith ρ raised) primary).2).filter
        (· ∈ others x primary)) := by
  have hpattern : RetryablePattern x (Upstream.failingWith ρ raised) := by
    intro history e other hexecute
    cases hexecute
    exact h.transfer e
  obtain ⟨hexpands, hskips, _, hends⟩ := run_facts hpattern primary
  have hvisited : ∀ e ∈ members x primary,
      Visited (executeWithFailover x (Upstream.failingWith ρ raised) primary).2 e := by
    cases hresult : (executeWithFailover x (Upstream.failingWith ρ raised) primary).1 with
    | served result e =>
        rw [hresult] at hends
        obtain ⟨before, _, hexecute, _⟩ := hends
        cases hexecute
    | raised e =>
        rw [hresult] at hends
        exact hends.2.1
  have hfiltered := hexpands.filter (· ∈ others x primary)
  rw [filter_others] at hfiltered
  refine hfiltered.sublist ?_ ?_
  · rw [← filter_others]
    exact (chainOf_nodup_self x primary).filter _
  · intro e he
    rw [List.mem_filter]
    refine ⟨?_, by simpa using he⟩
    obtain ⟨event, hevent, rfl⟩ := List.mem_map.mp (hvisited e (List.mem_cons_of_mem _ he))
    cases event with
    | attempted e => exact List.mem_filterMap.mpr ⟨_, hevent, rfl⟩
    | skipped e =>
        obtain ⟨before, after, hsplit⟩ := List.append_of_mem hevent
        have hunavailable := hskips before _ after hsplit
        cases hunavailable

/-- Every pattern of retryable failures runs through the group by priority exactly when the registry
lists it so, or when the policy retries nothing. -/
theorem failover_in_order_iff (ρ : Type*) (x : Execution) (primary : Deployment) :
    (∀ up : Upstream ρ, RetryablePattern x up → InOrder x up primary) ↔
      (others x primary).Pairwise (fun d e => d.priority ≤ e.priority) ∨
        ∀ d raised, ¬RetryableFailure x d raised := by
  constructor
  · intro h
    by_cases hnone : ∀ d raised, ¬RetryableFailure x d raised
    · exact .inr hnone
    · push Not at hnone
      obtain ⟨d, raised, hfailure⟩ := hnone
      left
      have hpattern : RetryablePattern x (Upstream.failingWith ρ raised) := by
        intro history e other hexecute
        cases hexecute
        exact hfailure.transfer e
      exact (h _ hpattern).ordered.sublist (others_sublist hfailure primary)
  · rintro (hsorted | hnone) up hpattern
    · refine inOrder_of_ordered hpattern ?_
      have hexpands := (run_facts hpattern primary).1.filter (· ∈ others x primary)
      rw [filter_others] at hexpands
      exact hexpands.pairwise hsorted
    · refine inOrder_of_ordered hpattern ?_
      have hfew := (List.length_filter_le (· ∈ others x primary)
        (attempts (executeWithFailover x up primary).2)).trans
          (attempts_of_no_failure hpattern primary hnone)
      match hattempts : (attempts (executeWithFailover x up primary).2).filter
          (· ∈ others x primary) with
      | [] => exact .nil
      | [d] => exact List.pairwise_singleton _ d
      | _ :: _ :: _ =>
          rw [hattempts] at hfew
          simp at hfew

/-! ## The selected deployment -/

theorem weightedRandomChoice_isSome {deployments : List Deployment} (draw : Draw)
    (h : deployments ≠ []) : (weightedRandomChoice draw deployments).isSome := by
  unfold weightedRandomChoice
  split
  · rw [randomChoice, List.getElem?_eq_getElem]
    · rfl
    · exact Nat.mod_lt _ (List.length_pos_iff.mpr h)
  · rw [Option.isSome_or, Bool.or_eq_true, List.getLast?_isSome]
    exact .inr h

theorem selectPriorityBased_least {r : Reading} {deployments : List Deployment} {d e : Deployment}
    (h : selectPriorityBased r deployments = some d) (he : e ∈ deployments) :
    d.priority ≤ e.priority := by
  obtain ⟨tried, priority, rest, hsplit, hchoice, hnone⟩ := List.findSome?_eq_some_iff.mp h
  have hpriority : d.priority = priority := by
    have hd := (List.mem_filter.mp (weightedRandomChoice_mem hchoice)).2
    simpa using hd
  have hsorted : ((deployments.map (·.priority)).dedup.mergeSort
      fun p q => decide (p ≤ q)).Pairwise fun p q => decide (p ≤ q) = true :=
    List.pairwise_mergeSort (by simpa using fun a b c => le_trans) (by simpa using le_total) _
  have hmem : e.priority ∈ (deployments.map (·.priority)).dedup.mergeSort
      (fun p q => decide (p ≤ q)) := by
    rw [List.mem_mergeSort, List.mem_dedup]
    exact List.mem_map_of_mem he
  rw [hsplit] at hsorted hmem
  rcases List.mem_append.mp hmem with hearlier | hlater
  · have hfilter : (deployments.filter fun d => d.priority = e.priority) ≠ [] :=
      List.ne_nil_of_mem (List.mem_filter.mpr ⟨he, by simp⟩)
    have hsome := weightedRandomChoice_isSome r.draw hfilter
    rw [hnone e.priority hearlier] at hsome
    cases hsome
  · rw [hpriority]
    rcases List.mem_cons.mp hlater with heq | hrest
    · exact heq.ge
    · have hpairwise := (List.pairwise_append.mp hsorted).2.1
      simpa using (List.pairwise_cons.mp hpairwise).1 e.priority hrest

/-- By priority the selected deployment comes before all that could be selected. -/
theorem selected_has_least_priority {router : RouterConfig} {registry : Registry} {r : Reading}
    {group : String} {metadata : JsonValues.JsonValue} {primary d : Deployment}
    (hstrategy : resolveStrategyForGroup router group = .priorityBased)
    (h : selectDeployment router registry r group metadata = some primary)
    (hd : d ∈ eligible router r metadata (registry group)) : primary.priority ≤ d.priority := by
  rw [selectDeployment, hstrategy] at h
  exact selectPriorityBased_least h hd

/-! ## A standby listed early -/

def first : Deployment := Counterexample.deployment "first" []

def standby : Deployment := { Counterexample.deployment "standby" [] with priority := 5 }

def second : Deployment := { Counterexample.deployment "second" [] with priority := 1 }

def byPriority : RouterConfig where
  strategy := .priorityBased
  enablePreCallChecks := false
  groupStrategy _ := none

/-- The standby is listed before the deployment of higher priority. -/
def listed : Execution where
  config :=
    { numRetries := 0, fallbacks := fun _ => [], contextWindowFallbacks := fun _ => [],
      contentPolicyFallbacks := fun _ => [] }
  registry group := if group = "gpt" then [first, standby, second] else []
  group := "gpt"
  retryMaxAttempts := none
  retryableErrorClasses := none

theorem standby_before_second :
    selectDeployment byPriority listed.registry Counterexample.idle "gpt" .null = some first ∧
      RetryablePattern listed (Upstream.failingWith Unit .timedOut) ∧
      attempts (executeWithFailover listed (Upstream.failingWith Unit .timedOut) first).2 =
        [first, standby, second] ∧
      ¬InOrder listed (Upstream.failingWith Unit .timedOut) first := by
  have hattempts : attempts
      (executeWithFailover listed (Upstream.failingWith Unit .timedOut) first).2 =
        [first, standby, second] := by decide +kernel
  refine ⟨?_, ?_, hattempts, fun h => ?_⟩
  · have heligible : eligible byPriority Counterexample.idle .null (listed.registry "gpt") =
        [first, standby, second] := by decide +kernel
    have hdedup : ([first, standby, second].map (·.priority)).dedup = [0, 5, 1] := by decide +kernel
    have hsorted : [0, 5, 1].mergeSort (fun p q : ℤ => decide (p ≤ q)) = [0, 1, 5] := by
      simp [List.mergeSort, List.MergeSort.Internal.splitInTwo]
    have hselect : selectDeployment byPriority listed.registry Counterexample.idle "gpt" .null =
        selectPriorityBased Counterexample.idle [first, standby, second] :=
      congrArg (selectPriorityBased Counterexample.idle) heligible
    rw [hselect, selectPriorityBased, hdedup, hsorted]
    decide +kernel
  · intro history d raised hexecute
    cases hexecute
    exact ⟨rfl, rfl, fun _ => rfl⟩
  · have hordered := h.ordered
    rw [hattempts] at hordered
    exact absurd hordered (by decide +kernel)

end FailoverOrder
