import Mathlib.Logic.Relation

/-! # Runs of a guarded transition system

States reached by enabled events, with a restriction on the events a run may take.
Every safety result about a whole run is proved through the invariant rules here.
-/
namespace TransitionRuns

variable {σ ε : Type*}

structure TransitionSystem (σ ε : Type*) where
  initial : σ → Prop
  enabled : σ → ε → Prop
  next : σ → ε → σ

/-- States reached when every event satisfies `allowed` in the state where it fires. -/
inductive ReachableBy (M : TransitionSystem σ ε) (allowed : σ → ε → Prop) : σ → Prop where
  | initial {s : σ} : M.initial s → ReachableBy M allowed s
  | step {s : σ} {e : ε} : ReachableBy M allowed s → M.enabled s e → allowed s e →
      ReachableBy M allowed (M.next s e)

/-- States of unrestricted runs. -/
def Reachable (M : TransitionSystem σ ε) : σ → Prop := ReachableBy M fun _ _ => True

/-- One enabled event, whatever it is. -/
def Step (M : TransitionSystem σ ε) (s t : σ) : Prop := ∃ e, M.enabled s e ∧ M.next s e = t

/-- `t` is reached from `s` by any number of enabled events. -/
def Later (M : TransitionSystem σ ε) : σ → σ → Prop := Relation.ReflTransGen (Step M)

variable {M : TransitionSystem σ ε} {allowed allowed' : σ → ε → Prop} {P Q : σ → Prop}

theorem ReachableBy.mono (h : ∀ s e, allowed s e → allowed' s e) {s : σ}
    (hs : ReachableBy M allowed s) : ReachableBy M allowed' s := by
  induction hs with
  | initial hi => exact .initial hi
  | step _ he ha ih => exact .step ih he (h _ _ ha)

theorem ReachableBy.reachable {s : σ} (hs : ReachableBy M allowed s) : Reachable M s :=
  hs.mono fun _ _ _ => trivial

theorem Reachable.step {s : σ} {e : ε} (hs : Reachable M s) (he : M.enabled s e) :
    Reachable M (M.next s e) :=
  ReachableBy.step hs he trivial

/-- A property that holds initially and is kept by each allowed event holds along the run. -/
theorem ReachableBy.invariant (hinit : ∀ s, M.initial s → P s)
    (hstep : ∀ s e, P s → M.enabled s e → allowed s e → P (M.next s e)) {s : σ}
    (hs : ReachableBy M allowed s) : P s := by
  induction hs with
  | initial hi => exact hinit _ hi
  | step _ he ha ih => exact hstep _ _ ih he ha

/-- The invariant rule when another invariant `Q` of the same runs is already known. -/
theorem ReachableBy.invariant_under (hQ : ∀ s, ReachableBy M allowed s → Q s)
    (hinit : ∀ s, M.initial s → P s)
    (hstep : ∀ s e, Q s → P s → M.enabled s e → allowed s e → P (M.next s e)) {s : σ}
    (hs : ReachableBy M allowed s) : P s := by
  induction hs with
  | initial hi => exact hinit _ hi
  | step hr he ha ih => exact hstep _ _ (hQ _ hr) ih he ha

theorem Reachable.invariant (hinit : ∀ s, M.initial s → P s)
    (hstep : ∀ s e, P s → M.enabled s e → P (M.next s e)) {s : σ}
    (hs : Reachable M s) : P s :=
  ReachableBy.invariant hinit (fun s e hP he _ => hstep s e hP he) hs

theorem Reachable.later {s t : σ} (hs : Reachable M s) (hst : Later M s t) : Reachable M t := by
  induction hst with
  | refl => exact hs
  | tail _ hstep ih =>
      obtain ⟨e, he, rfl⟩ := hstep
      exact ih.step he

/-- What one event keeps, every later state keeps. -/
theorem Later.stable (hQ : ∀ s, Reachable M s → Q s)
    (hstep : ∀ s e, Q s → P s → M.enabled s e → P (M.next s e)) {s t : σ}
    (hs : Reachable M s) (hst : Later M s t) (hP : P s) : P t := by
  induction hst with
  | refl => exact hP
  | tail hmid hlast ih =>
      obtain ⟨e, he, rfl⟩ := hlast
      exact hstep _ _ (hQ _ (hs.later hmid)) ih he

/-- The events of the list fire one after the other, each allowed where it does. -/
def Fires (M : TransitionSystem σ ε) (allowed : σ → ε → Prop) : σ → List ε → Prop
  | _, [] => True
  | s, e :: es => M.enabled s e ∧ allowed s e ∧ Fires M allowed (M.next s e) es

instance Fires.decidable (M : TransitionSystem σ ε) (allowed : σ → ε → Prop)
    [∀ s e, Decidable (M.enabled s e)] [∀ s e, Decidable (allowed s e)] :
    ∀ s es, Decidable (Fires M allowed s es)
  | _, [] => .isTrue trivial
  | s, e :: es =>
      have := Fires.decidable M allowed (M.next s e) es
      inferInstanceAs (Decidable (M.enabled s e ∧ allowed s e ∧ Fires M allowed (M.next s e) es))

theorem Fires.mono (h : ∀ s e, allowed s e → allowed' s e) {s : σ} {es : List ε}
    (hfires : Fires M allowed s es) : Fires M allowed' s es := by
  induction es generalizing s with
  | nil => trivial
  | cons e es ih => exact ⟨hfires.1, h s e hfires.2.1, ih hfires.2.2⟩

theorem ReachableBy.fires {s : σ} {es : List ε} (hs : ReachableBy M allowed s)
    (h : Fires M allowed s es) : ReachableBy M allowed (es.foldl M.next s) := by
  induction es generalizing s with
  | nil => exact hs
  | cons e es ih =>
      obtain ⟨he, ha, hrest⟩ := h
      exact ih (hs.step he ha) hrest

end TransitionRuns
