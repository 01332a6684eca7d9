/-! # Scripts of statements that commit one by one

A script runs one statement after the other on a state. One that raises ends the script, and what
the statements before it have written stays.
-/
namespace CommittedScripts

def Script (σ ε α : Type) : Type := σ → Except ε α × σ

variable {σ ε α β : Type}

namespace Script

def bind (x : Script σ ε α) (f : α → Script σ ε β) : Script σ ε β := fun s =>
  match x s with
  | (.ok a, t) => f a t
  | (.error e, t) => (.error e, t)

instance : Monad (Script σ ε) where
  pure a := fun s => (.ok a, s)
  bind := bind

def raise (e : ε) : Script σ ε α := fun s => (.error e, s)

def read (f : σ → α) : Script σ ε α := fun s => (.ok (f s), s)

/-- A statement that writes, or raises and writes nothing. -/
def write (f : σ → Except ε σ) : Script σ ε Unit := fun s =>
  match f s with
  | .ok t => (.ok (), t)
  | .error e => (.error e, s)

end Script

theorem bind_apply (x : Script σ ε α) (f : α → Script σ ε β) (s : σ) :
    (x >>= f) s = match x s with
      | (.ok a, t) => f a t
      | (.error e, t) => (.error e, t) := rfl

/-- A script returns when each of its parts does, on what the earlier parts left. -/
theorem bind_returns {x : Script σ ε α} {f : α → Script σ ε β} {s u : σ} {b : β} :
    (x >>= f) s = (.ok b, u) ↔ ∃ a t, x s = (.ok a, t) ∧ f a t = (.ok b, u) := by
  rw [bind_apply]
  constructor
  · intro h
    rcases hx : x s with ⟨_ | a, t⟩
    · rw [hx] at h
      cases h
    · rw [hx] at h
      exact ⟨a, t, rfl, h⟩
  · rintro ⟨a, t, hx, hf⟩
    rw [hx]
    exact hf

theorem pure_returns {a b : α} {s t : σ} :
    (pure a : Script σ ε α) s = (.ok b, t) ↔ a = b ∧ s = t := by
  constructor
  · intro h
    cases h
    exact ⟨rfl, rfl⟩
  · rintro ⟨rfl, rfl⟩
    rfl

theorem read_returns {f : σ → α} {s t : σ} {a : α} :
    (Script.read f : Script σ ε α) s = (.ok a, t) ↔ f s = a ∧ s = t := by
  constructor
  · intro h
    cases h
    exact ⟨rfl, rfl⟩
  · rintro ⟨rfl, rfl⟩
    rfl

theorem write_returns {f : σ → Except ε σ} {s t : σ} :
    Script.write f s = (.ok (), t) ↔ f s = .ok t := by
  unfold Script.write
  cases f s with
  | error e =>
      constructor
      · intro h
        cases h
      · intro h
        cases h
  | ok u =>
      constructor
      · intro h
        cases h
        rfl
      · intro h
        cases h
        rfl

/-- However the script ends, what held before it holds after it. -/
def Keeps (P : σ → Prop) (x : Script σ ε α) : Prop := ∀ s, P s → P (x s).2

variable {P : σ → Prop}

theorem keeps_pure (a : α) : Keeps P (pure a : Script σ ε α) := fun _ h => h

theorem keeps_raise (e : ε) : Keeps P (Script.raise e : Script σ ε α) := fun _ h => h

theorem keeps_read (f : σ → α) : Keeps P (Script.read f : Script σ ε α) := fun _ h => h

theorem keeps_write {f : σ → Except ε σ} (h : ∀ s t, P s → f s = .ok t → P t) :
    Keeps P (Script.write f) := by
  intro s hs
  unfold Script.write
  cases hf : f s with
  | error e => exact hs
  | ok t => exact h s t hs hf

theorem Keeps.bind {x : Script σ ε α} {f : α → Script σ ε β} (hx : Keeps P x)
    (hf : ∀ a, Keeps P (f a)) : Keeps P (x >>= f) := by
  intro s hs
  have hafter := hx s hs
  rw [bind_apply]
  rcases hresult : x s with ⟨_ | a, t⟩
  · rw [hresult] at hafter
    exact hafter
  · rw [hresult] at hafter
    exact hf a t hafter

/-! ## Judgements -/

/-- From `P`, the script ends in `Q` of what it returns, or in `E` if it raises. -/
def Ends (P : σ → Prop) (x : Script σ ε α) (Q : α → σ → Prop) (E : σ → Prop) : Prop :=
  ∀ s, P s → match x s with
    | (.ok a, t) => Q a t
    | (.error _, t) => E t

variable {Q : α → σ → Prop} {R : β → σ → Prop} {E : σ → Prop}

theorem Ends.state {x : Script σ ε α} (h : Ends P x (fun _ => E) E) {s : σ} (hs : P s) :
    E (x s).2 := by
  have hends := h s hs
  rcases hresult : x s with ⟨_ | a, t⟩
  · rw [hresult] at hends
    exact hends
  · rw [hresult] at hends
    exact hends

theorem Keeps.ends {x : Script σ ε α} (h : Keeps P x) : Ends P x (fun _ => P) P := by
  intro s hs
  have hafter := h s hs
  rcases hresult : x s with ⟨_ | a, t⟩
  · rw [hresult] at hafter
    exact hafter
  · rw [hresult] at hafter
    exact hafter

theorem ends_pure {a : α} (h : ∀ s, P s → Q a s) : Ends P (pure a : Script σ ε α) Q E := h

theorem ends_raise {e : ε} (h : ∀ s, P s → E s) : Ends P (Script.raise e : Script σ ε α) Q E := h

theorem Ends.bind {x : Script σ ε α} {f : α → Script σ ε β} (hx : Ends P x Q E)
    (hf : ∀ a, Ends (Q a) (f a) R E) : Ends P (x >>= f) R E := by
  intro s hs
  have hfirst := hx s hs
  rw [bind_apply]
  rcases hresult : x s with ⟨_ | a, t⟩
  · rw [hresult] at hfirst
    exact hfirst
  · rw [hresult] at hfirst
    exact hf a t hfirst

end CommittedScripts
