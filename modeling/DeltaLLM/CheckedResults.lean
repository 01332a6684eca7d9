import Mathlib.Data.List.Forall2

/-! # Results of checks that raise

`Except` as the meaning of code that raises: when a sequence, a loop of checks and a loop that
collects results run to their end.
-/
namespace CheckedResults

variable {ε α β : Type}

theorem bind_ok_iff {x : Except ε α} {f : α → Except ε β} {b : β} :
    x >>= f = .ok b ↔ ∃ a, x = .ok a ∧ f a = .ok b := by
  cases x with
  | error e =>
      constructor
      · intro h
        cases h
      · rintro ⟨a, ha, _⟩
        cases ha
  | ok a =>
      constructor
      · intro h
        exact ⟨a, rfl, h⟩
      · rintro ⟨a', ha, h⟩
        cases ha
        exact h

theorem map_ok_iff {x : Except ε α} {f : α → β} {b : β} :
    x.map f = .ok b ↔ ∃ a, x = .ok a ∧ f a = b := by
  cases x with
  | error e => simp [Except.map]
  | ok a => simp [Except.map]

/-- What follows a check matters on its result alone. -/
theorem bind_congr_ok {x : Except ε α} {f g : α → Except ε β} (h : ∀ a, x = .ok a → f a = g a) :
    x >>= f = x >>= g := by
  cases x with
  | error e => rfl
  | ok a => exact h a rfl

theorem forM_ok_iff {f : α → Except ε Unit} {xs : List α} :
    xs.forM f = .ok () ↔ ∀ x ∈ xs, f x = .ok () := by
  induction xs with
  | nil => exact ⟨fun _ x hx => absurd hx List.not_mem_nil, fun _ => rfl⟩
  | cons x xs ih =>
      rw [List.forM_eq_forM] at ih
      rw [List.forM_eq_forM, List.forM_cons, bind_ok_iff]
      constructor
      · rintro ⟨_, hx, hxs⟩ y hy
        rcases List.mem_cons.mp hy with rfl | hy
        · exact hx
        · exact ih.mp hxs y hy
      · intro h
        refine ⟨(), h x List.mem_cons_self, ih.mpr fun y hy => ?_⟩
        exact h y (List.mem_cons_of_mem _ hy)

/-- A collecting loop ends when every element passes, with one result for each of them. -/
theorem mapM_ok_iff {f : α → Except ε β} {xs : List α} {ys : List β} :
    xs.mapM f = .ok ys ↔ List.Forall₂ (fun x y => f x = .ok y) xs ys := by
  induction xs generalizing ys with
  | nil =>
      rw [List.mapM_nil, List.forall₂_nil_left_iff]
      constructor
      · intro h
        cases h
        rfl
      · rintro rfl
        rfl
  | cons x xs ih =>
      rw [List.mapM_cons, bind_ok_iff, List.forall₂_cons_left_iff]
      constructor
      · rintro ⟨y, hy, h⟩
        obtain ⟨ys', hys, hpure⟩ := bind_ok_iff.mp h
        cases hpure
        exact ⟨y, ys', hy, ih.mp hys, rfl⟩
      · rintro ⟨y, ys', hy, hys, rfl⟩
        exact ⟨y, hy, bind_ok_iff.mpr ⟨ys', ih.mpr hys, rfl⟩⟩

/-- What is collected are the results of the elements. -/
theorem mem_mapM_ok {f : α → Except ε β} {xs : List α} {ys : List β} (h : xs.mapM f = .ok ys)
    {y : β} : y ∈ ys ↔ ∃ x ∈ xs, f x = .ok y := by
  have hall := mapM_ok_iff.mp h
  clear h
  induction hall with
  | nil => simp
  | cons hx _ ih =>
      simp only [List.mem_cons, ih, exists_eq_or_imp, hx, Except.ok.injEq, eq_comm (a := y)]

theorem ok_of_mapM_ok {f : α → Except ε β} {xs : List α} {ys : List β}
    (h : xs.mapM f = .ok ys) {x : α} (hx : x ∈ xs) : ∃ y, f x = .ok y := by
  have hall := mapM_ok_iff.mp h
  clear h
  induction hall with
  | nil => exact absurd hx List.not_mem_nil
  | cons hy _ ih =>
      rcases List.mem_cons.mp hx with rfl | hx
      · exact ⟨_, hy⟩
      · exact ih hx

theorem exists_mapM_ok {f : α → Except ε β} {xs : List α} (h : ∀ x ∈ xs, ∃ y, f x = .ok y) :
    ∃ ys, xs.mapM f = .ok ys := by
  induction xs with
  | nil => exact ⟨[], rfl⟩
  | cons x xs ih =>
      obtain ⟨y, hy⟩ := h x List.mem_cons_self
      obtain ⟨ys, hys⟩ := ih fun x' hx' => h x' (List.mem_cons_of_mem _ hx')
      refine ⟨y :: ys, mapM_ok_iff.mpr (.cons hy (mapM_ok_iff.mp hys))⟩

/-- A check of an optional value ends without one, or with the result of the value. -/
theorem optionMapM_ok {f : α → Except ε β} {x : Option α} {result : Option β}
    (h : x.mapM f = .ok result) :
    (x = none ∧ result = none) ∨ ∃ a b, x = some a ∧ result = some b ∧ f a = .ok b := by
  cases x with
  | none =>
      cases h
      exact .inl ⟨rfl, rfl⟩
  | some a =>
      cases ha : f a with
      | error e =>
          rw [Option.mapM_some, ha] at h
          cases h
      | ok b =>
          rw [Option.mapM_some, ha] at h
          cases h
          exact .inr ⟨a, b, rfl, rfl, ha⟩

end CheckedResults
