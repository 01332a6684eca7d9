import Mathlib.Logic.Relation
import Mathlib.Order.Bounds.Basic

/-! # Following a schedule lazily

Each time of a schedule has at most one next time, and it is later. Who looks at the schedule only
now and then moves to its first time after now, and meets no other times than who follows it period
by period.
-/
namespace LazySchedules

open Relation (ReflTransGen TransGen)

structure Schedule (τ : Type*) [LinearOrder τ] where
  next : τ → τ → Prop
  unique : Relator.RightUnique next
  later : ∀ {a b}, next a b → a < b

variable {τ : Type*} [LinearOrder τ] (s : Schedule τ)

/-- The times behind a start that are after now. -/
def Schedule.after (start now : τ) : Set τ := {t | TransGen s.next start t ∧ now < t}

/-- The times from a start on, met period by period, that are after all the checks. -/
def Schedule.met (start : τ) (checks : List τ) : Set τ :=
  {t | ReflTransGen s.next start t ∧ ∀ now ∈ checks, now < t}

/-- A check of a time with a way to leap over the periods that have passed. -/
def check (leap : τ → τ → Option τ) (start now : τ) : Option τ :=
  if start ≤ now then leap start now else some start

variable {s} {start now t u : τ} {checks : List τ}

theorem Schedule.le_of_met (h : ReflTransGen s.next start t) : start ≤ t := by
  induction h with
  | refl => exact le_refl start
  | tail _ hnext ih => exact ih.trans (s.later hnext).le

theorem Schedule.isLeast_met_nil : IsLeast (s.met start []) start := by
  refine ⟨⟨.refl, ?_⟩, ?_⟩
  · intro now hnow
    cases hnow
  · exact fun t ht => Schedule.le_of_met ht.1

/-- Past the first time after the first check the schedule goes on as from that time. -/
theorem Schedule.met_cons (h : IsLeast (s.met start [now]) u) :
    s.met start (now :: checks) = s.met u checks := by
  obtain ⟨⟨hreach, hafter⟩, hleast⟩ := h
  have hnow : now < u := hafter now List.mem_cons_self
  ext t
  constructor
  · rintro ⟨ht, hchecks⟩
    refine ⟨?_, fun other hother => hchecks other (List.mem_cons_of_mem _ hother)⟩
    have hle : u ≤ t := hleast ⟨ht, fun other hother =>
      List.mem_singleton.mp hother ▸ hchecks now List.mem_cons_self⟩
    obtain hforth | hback := ReflTransGen.total_of_right_unique s.unique hreach ht
    · exact hforth
    · rw [le_antisymm hle (Schedule.le_of_met hback)]
  · rintro ⟨ht, hchecks⟩
    refine ⟨hreach.trans ht, ?_⟩
    intro other hother
    rcases List.mem_cons.mp hother with rfl | hother
    · exact hnow.trans_le (Schedule.le_of_met ht)
    · exact hchecks other hother

/-- From a start that is over, the times after now are behind it. -/
theorem Schedule.met_singleton (h : start ≤ now) : s.met start [now] = s.after start now := by
  ext t
  constructor
  · rintro ⟨ht, hchecks⟩
    have hnow : now < t := hchecks now List.mem_cons_self
    rcases Relation.reflTransGen_iff_eq_or_transGen.mp ht with rfl | ht
    · exact absurd h (not_le.mpr hnow)
    · exact ⟨ht, hnow⟩
  · rintro ⟨ht, hnow⟩
    exact ⟨ht.to_reflTransGen, fun other hother => List.mem_singleton.mp hother ▸ hnow⟩

/-- A schedule that reaches a time after now has a first such time, by induction on its periods. -/
theorem Schedule.exists_isLeast_met (ht : ReflTransGen s.next start t) (hnow : now < t) :
    ∃ u, IsLeast (s.met start [now]) u := by
  induction ht using ReflTransGen.head_induction_on with
  | refl =>
      refine ⟨t, ⟨.refl, fun other hother => List.mem_singleton.mp hother ▸ hnow⟩, ?_⟩
      exact fun u hu => Schedule.le_of_met hu.1
  | @head first second hnext _ ih =>
      by_cases hover : first ≤ now
      · obtain ⟨u, ⟨hreach, hafter⟩, hleast⟩ := ih
        refine ⟨u, ⟨.head hnext hreach, hafter⟩, ?_⟩
        rintro v ⟨hv, hchecks⟩
        rcases Relation.ReflTransGen.cases_head hv with rfl | ⟨other, hother, hrest⟩
        · exact absurd hover (not_le.mpr (hchecks now List.mem_cons_self))
        · rw [s.unique hother hnext] at hrest
          exact hleast ⟨hrest, hchecks⟩
      · refine ⟨first, ⟨.refl, fun other hother =>
          List.mem_singleton.mp hother ▸ not_le.mp hover⟩, ?_⟩
        exact fun u hu => Schedule.le_of_met hu.1

section Checks

variable {leap : τ → τ → Option τ}

theorem check_eq_some_iff
    (hleap : ∀ start now t, start ≤ now →
      (leap start now = some t ↔ IsLeast (s.after start now) t)) :
    check leap start now = some t ↔ IsLeast (s.met start [now]) t := by
  unfold check
  by_cases hover : start ≤ now
  · rw [if_pos hover, hleap start now t hover, Schedule.met_singleton hover]
  · have hfirst : IsLeast (s.met start [now]) start :=
      ⟨⟨.refl, fun other hother => List.mem_singleton.mp hother ▸ not_le.mp hover⟩,
        fun u hu => Schedule.le_of_met hu.1⟩
    rw [if_neg hover, Option.some_inj]
    exact ⟨fun h => h ▸ hfirst, fun h => hfirst.unique h⟩

/-- Leaping at every check reaches the first time after all of them that the periods meet. -/
theorem foldlM_check_eq_some_iff
    (hleap : ∀ start now t, start ≤ now →
      (leap start now = some t ↔ IsLeast (s.after start now) t)) :
    checks.foldlM (check leap) start = some t ↔ IsLeast (s.met start checks) t := by
  induction checks generalizing start with
  | nil =>
      have hfirst : IsLeast (s.met start []) start := Schedule.isLeast_met_nil
      rw [List.foldlM_nil]
      constructor
      · intro h
        cases h
        exact hfirst
      · intro h
        rw [hfirst.unique h]
        rfl
  | cons now checks ih =>
      rw [List.foldlM_cons]
      constructor
      · intro h
        obtain ⟨u, hcheck, hrest⟩ := Option.bind_eq_some_iff.mp h
        rw [Schedule.met_cons ((check_eq_some_iff hleap).mp hcheck)]
        exact ih.mp hrest
      · intro h
        obtain ⟨u, hu⟩ := Schedule.exists_isLeast_met h.1.1 (h.1.2 now List.mem_cons_self)
        rw [Schedule.met_cons hu] at h
        exact Option.bind_eq_some_iff.mpr ⟨u, (check_eq_some_iff hleap).mpr hu, ih.mpr h⟩

end Checks

end LazySchedules
