import Mathlib.Data.List.Nodup
import Mathlib.Data.Nat.Notation

/-! # Rows under read committed

A row has the version that is committed and the one that an open transaction has written. The
transaction sees its own version, everyone else the committed one, and a write waits while another
transaction has written the row. What every write respects, committed versions respect.
-/
namespace RowVersions

variable {κ ρ : Type}

structure Cell (κ ρ : Type) where
  key : κ
  committed : Option ρ
  /-- The transaction and its version. -/
  pending : Option (ℕ × ρ)

/-- What the transaction sees of the row. -/
def Cell.view (cell : Cell κ ρ) (tx : ℕ) : Option ρ :=
  match cell.pending with
  | some (owner, row) => if owner = tx then some row else cell.committed
  | none => cell.committed

/-- Another transaction has written the row. -/
def Cell.lockedFrom (cell : Cell κ ρ) (tx : ℕ) : Bool :=
  cell.pending.any fun version => version.1 ≠ tx

/-- Another transaction has written a row that a statement is about. -/
def waits (tx : ℕ) (about : κ → ρ → Bool) (table : List (Cell κ ρ)) : Bool :=
  table.any fun cell => cell.lockedFrom tx && cell.committed.any (about cell.key)

/-- A row that the transaction sees and the statement is about. -/
def affects (tx : ℕ) (about : κ → ρ → Bool) (table : List (Cell κ ρ)) : Bool :=
  table.any fun cell => (cell.view tx).any (about cell.key)

def Cell.update (tx : ℕ) (about : κ → ρ → Bool) (set : ρ → ρ) (cell : Cell κ ρ) : Cell κ ρ :=
  match cell.view tx with
  | some row => if about cell.key row then { cell with pending := some (tx, set row) } else cell
  | none => cell

/-- UPDATE of the rows that the statement is about. -/
def update (tx : ℕ) (about : κ → ρ → Bool) (set : ρ → ρ) (table : List (Cell κ ρ)) :
    List (Cell κ ρ) :=
  table.map (Cell.update tx about set)

/-- INSERT of a row with a new key. -/
def insert (tx : ℕ) (key : κ) (row : ρ) (table : List (Cell κ ρ)) : List (Cell κ ρ) :=
  table ++ [⟨key, none, some (tx, row)⟩]

section Upsert

variable [DecidableEq κ]

/-- Another transaction has written the row with the key, or is about to insert it. -/
def waitsAt (tx : ℕ) (key : κ) (table : List (Cell κ ρ)) : Bool :=
  table.any fun cell => decide (cell.key = key) && cell.lockedFrom tx

/-- INSERT … ON CONFLICT DO UPDATE of a whole row. -/
def upsert (tx : ℕ) (key : κ) (row : ρ) (table : List (Cell κ ρ)) : List (Cell κ ρ) :=
  if table.any fun cell => cell.key = key then
    table.map fun cell =>
      if cell.key = key then { cell with pending := some (tx, row) } else cell
  else insert tx key row table

/-- The row with the key, as the transaction sees it. -/
def viewAt (tx : ℕ) (key : κ) (table : List (Cell κ ρ)) : Option ρ :=
  (table.find? fun cell => cell.key = key).bind fun cell => cell.view tx

end Upsert

def Cell.commit (tx : ℕ) (cell : Cell κ ρ) : Cell κ ρ :=
  match cell.pending with
  | some (owner, row) => if owner = tx then ⟨cell.key, some row, none⟩ else cell
  | none => cell

def Cell.rollback (tx : ℕ) (cell : Cell κ ρ) : Cell κ ρ :=
  match cell.pending with
  | some (owner, _) => if owner = tx then { cell with pending := none } else cell
  | none => cell

def commit (tx : ℕ) (table : List (Cell κ ρ)) : List (Cell κ ρ) := table.map (Cell.commit tx)

def rollback (tx : ℕ) (table : List (Cell κ ρ)) : List (Cell κ ρ) := table.map (Cell.rollback tx)

/-- The versions that a transaction has written. -/
def Cell.OwnedBy (tx : ℕ) (cell : Cell κ ρ) : Prop := ∃ row, cell.pending = some (tx, row)

/-- No row is written by the transaction. -/
def Untouched (tx : ℕ) (table : List (Cell κ ρ)) : Prop := ∀ cell ∈ table, ¬cell.OwnedBy tx

/-! ## Cells -/

section Cells

variable {cell : Cell κ ρ} {tx other : ℕ} {about : κ → ρ → Bool} {set : ρ → ρ} {row : ρ}

theorem Cell.view_of_owned (h : cell.pending = some (tx, row)) : cell.view tx = some row := by
  simp [Cell.view, h]

theorem Cell.view_of_not_owned (h : ¬cell.OwnedBy tx) : cell.view tx = cell.committed := by
  unfold Cell.view
  split
  next owner row hpending =>
    have hother : owner ≠ tx := fun heq => h ⟨row, heq ▸ hpending⟩
    rw [if_neg hother]
  next => rfl

@[simp] theorem Cell.key_update : (cell.update tx about set).key = cell.key := by
  unfold Cell.update
  split
  · split_ifs <;> rfl
  · rfl

@[simp] theorem Cell.committed_update : (cell.update tx about set).committed = cell.committed := by
  unfold Cell.update
  split
  · split_ifs <;> rfl
  · rfl

@[simp] theorem Cell.key_commit : (cell.commit tx).key = cell.key := by
  unfold Cell.commit
  split
  · split_ifs <;> rfl
  · rfl

@[simp] theorem Cell.key_rollback : (cell.rollback tx).key = cell.key := by
  unfold Cell.rollback
  split
  · split_ifs <;> rfl
  · rfl

@[simp] theorem Cell.committed_rollback : (cell.rollback tx).committed = cell.committed := by
  unfold Cell.rollback
  split
  · split_ifs <;> rfl
  · rfl

/-- A row is written by the statement, or is what it was. -/
theorem Cell.update_cases (cell : Cell κ ρ) (tx : ℕ) (about : κ → ρ → Bool) (set : ρ → ρ) :
    cell.update tx about set = cell ∨ ∃ row, cell.view tx = some row ∧ about cell.key row = true ∧
      cell.update tx about set = { cell with pending := some (tx, set row) } := by
  unfold Cell.update
  split
  next row hview =>
    split_ifs with habout
    · exact Or.inr ⟨row, hview, habout, rfl⟩
    · exact Or.inl rfl
  next => exact Or.inl rfl

/-- A commit takes over what the transaction has written. -/
theorem Cell.commit_cases (cell : Cell κ ρ) (tx : ℕ) :
    (¬cell.OwnedBy tx ∧ cell.commit tx = cell) ∨
      ∃ row, cell.pending = some (tx, row) ∧ cell.commit tx = ⟨cell.key, some row, none⟩ := by
  unfold Cell.commit Cell.OwnedBy
  split
  next owner row hpending =>
    split_ifs with hown
    · subst hown
      exact Or.inr ⟨row, hpending, rfl⟩
    · left
      refine ⟨?_, rfl⟩
      rintro ⟨row', hrow'⟩
      rw [hpending] at hrow'
      exact hown (congrArg Prod.fst (Option.some.inj hrow'))
  next hpending =>
    left
    refine ⟨?_, rfl⟩
    rintro ⟨row', hrow'⟩
    rw [hpending] at hrow'
    cases hrow'

theorem Cell.rollback_cases (cell : Cell κ ρ) (tx : ℕ) :
    (¬cell.OwnedBy tx ∧ cell.rollback tx = cell) ∨
      (cell.OwnedBy tx ∧ cell.rollback tx = { cell with pending := none }) := by
  unfold Cell.rollback Cell.OwnedBy
  split
  next owner row hpending =>
    split_ifs with hown
    · subst hown
      exact Or.inr ⟨⟨row, hpending⟩, rfl⟩
    · left
      refine ⟨?_, rfl⟩
      rintro ⟨row', hrow'⟩
      rw [hpending] at hrow'
      exact hown (congrArg Prod.fst (Option.some.inj hrow'))
  next hpending =>
    left
    refine ⟨?_, rfl⟩
    rintro ⟨row', hrow'⟩
    rw [hpending] at hrow'
    cases hrow'

theorem Cell.not_ownedBy_commit : ¬(cell.commit tx).OwnedBy tx := by
  rcases cell.commit_cases tx with ⟨hnot, heq⟩ | ⟨row, -, heq⟩
  · rwa [heq]
  · rw [heq]
    rintro ⟨_, hrow⟩
    cases hrow

theorem Cell.not_ownedBy_rollback : ¬(cell.rollback tx).OwnedBy tx := by
  rcases cell.rollback_cases tx with ⟨hnot, heq⟩ | ⟨-, heq⟩
  · rwa [heq]
  · rw [heq]
    rintro ⟨_, hrow⟩
    cases hrow

/-- What another transaction has written stays its own. -/
theorem Cell.ownedBy_update_of_ne (hne : other ≠ tx)
    (h : (cell.update tx about set).OwnedBy other) : cell.OwnedBy other := by
  rcases cell.update_cases tx about set with heq | ⟨row, -, -, heq⟩
  · rwa [heq] at h
  · rw [heq] at h
    obtain ⟨_, hrow⟩ := h
    exact absurd (congrArg Prod.fst (Option.some.inj hrow)).symm hne

theorem Cell.ownedBy_commit_of_ne (h : (cell.commit tx).OwnedBy other) : cell.OwnedBy other := by
  rcases cell.commit_cases tx with ⟨-, heq⟩ | ⟨row, -, heq⟩
  · rwa [heq] at h
  · rw [heq] at h
    obtain ⟨_, hrow⟩ := h
    cases hrow

theorem Cell.ownedBy_rollback_of_ne (h : (cell.rollback tx).OwnedBy other) :
    cell.OwnedBy other := by
  rcases cell.rollback_cases tx with ⟨-, heq⟩ | ⟨-, heq⟩
  · rwa [heq] at h
  · rw [heq] at h
    obtain ⟨_, hrow⟩ := h
    cases hrow

end Cells

/-! ## What every write respects -/

/-- What is written for a row respects its committed version. -/
def Respects (R : ρ → ρ → Prop) (table : List (Cell κ ρ)) : Prop :=
  ∀ cell ∈ table, ∀ owner row old, cell.pending = some (owner, row) → cell.committed = some old →
    R old row

/-- Every committed row of one table is committed, or replaced by one that it allows, under the same
key in the other. -/
def Follows (R : ρ → ρ → Prop) (before after : List (Cell κ ρ)) : Prop :=
  ∀ cell ∈ before, ∃ cell' ∈ after, cell'.key = cell.key ∧
    ∀ old, cell.committed = some old → ∃ new, cell'.committed = some new ∧ R old new

section Respect

variable {R : ρ → ρ → Prop} {table before after last : List (Cell κ ρ)} {tx : ℕ}
  {about : κ → ρ → Bool} {set : ρ → ρ} {key : κ} {row : ρ}

theorem Follows.refl (hrefl : ∀ a, R a a) (table : List (Cell κ ρ)) : Follows R table table :=
  fun cell hcell => ⟨cell, hcell, rfl, fun old hold => ⟨old, hold, hrefl old⟩⟩

theorem Follows.trans (htrans : ∀ a b c, R a b → R b c → R a c) (h : Follows R before after)
    (h' : Follows R after last) : Follows R before last := by
  intro cell hcell
  obtain ⟨mid, hmid, hkey, hfirst⟩ := h cell hcell
  obtain ⟨final, hfinal, hkey', hsecond⟩ := h' mid hmid
  refine ⟨final, hfinal, hkey'.trans hkey, fun old hold => ?_⟩
  obtain ⟨new, hnew, hold'⟩ := hfirst old hold
  obtain ⟨newest, hnewest, hnew'⟩ := hsecond new hnew
  exact ⟨newest, hnewest, htrans _ _ _ hold' hnew'⟩

/-- A map of the cells that keeps keys and committed versions. -/
theorem follows_map (hrefl : ∀ a, R a a) {f : Cell κ ρ → Cell κ ρ}
    (hkey : ∀ cell, (f cell).key = cell.key)
    (hcommitted : ∀ cell, (f cell).committed = cell.committed) : Follows R table (table.map f) :=
  fun cell hcell => ⟨f cell, List.mem_map_of_mem hcell, hkey cell, fun old hold =>
    ⟨old, (hcommitted cell).trans hold, hrefl old⟩⟩

theorem follows_update (hrefl : ∀ a, R a a) : Follows R table (update tx about set table) :=
  follows_map hrefl (fun _ => Cell.key_update) fun _ => Cell.committed_update

theorem follows_rollback (hrefl : ∀ a, R a a) : Follows R table (rollback tx table) :=
  follows_map hrefl (fun _ => Cell.key_rollback) fun _ => Cell.committed_rollback

theorem follows_append (hrefl : ∀ a, R a a) (more : List (Cell κ ρ)) :
    Follows R table (table ++ more) :=
  fun cell hcell => ⟨cell, List.mem_append_left _ hcell, rfl, fun old hold =>
    ⟨old, hold, hrefl old⟩⟩

/-- A commit replaces rows by what they allow. -/
theorem Respects.follows_commit (h : Respects R table) (hrefl : ∀ a, R a a) :
    Follows R table (commit tx table) := by
  intro cell hcell
  refine ⟨cell.commit tx, List.mem_map_of_mem hcell, Cell.key_commit, fun old hold => ?_⟩
  rcases cell.commit_cases tx with ⟨-, heq⟩ | ⟨row, hpending, heq⟩
  · refine ⟨old, ?_, hrefl old⟩
    rw [heq]
    exact hold
  · refine ⟨row, ?_, h cell hcell tx row old hpending hold⟩
    rw [heq]

theorem Respects.update (h : Respects R table) (htrans : ∀ a b c, R a b → R b c → R a c)
    (hset : ∀ cell ∈ table, ∀ row, cell.view tx = some row → about cell.key row = true →
      R row (set row)) : Respects R (update tx about set table) := by
  intro cell' hcell'
  obtain ⟨cell, hcell, rfl⟩ := List.mem_map.mp hcell'
  intro owner row old hpending hold
  rw [Cell.committed_update] at hold
  rcases cell.update_cases tx about set with heq | ⟨seen, hview, habout, heq⟩
  · rw [heq] at hpending
    exact h cell hcell owner row old hpending hold
  · rw [heq] at hpending
    obtain ⟨-, rfl⟩ := Prod.mk.inj (Option.some.inj hpending)
    have hstep := hset cell hcell seen hview habout
    by_cases hown : cell.OwnedBy tx
    · obtain ⟨own, hpending'⟩ := hown
      obtain rfl := Option.some.inj ((Cell.view_of_owned hpending').symm.trans hview)
      exact htrans _ _ _ (h cell hcell tx own old hpending' hold) hstep
    · rw [Cell.view_of_not_owned hown, hold] at hview
      exact Option.some.inj hview ▸ hstep

theorem Respects.insert (h : Respects R table) : Respects R (insert tx key row table) := by
  intro cell hcell owner row' old hpending hold
  rcases List.mem_append.mp hcell with hcell | hcell
  · exact h cell hcell owner row' old hpending hold
  · rw [List.mem_singleton.mp hcell] at hold
    cases hold

theorem Respects.commit (h : Respects R table) : Respects R (commit tx table) := by
  intro cell' hcell' owner row old hpending hold
  obtain ⟨cell, hcell, rfl⟩ := List.mem_map.mp hcell'
  rcases cell.commit_cases tx with ⟨-, heq⟩ | ⟨own, -, heq⟩
  · rw [heq] at hpending hold
    exact h cell hcell owner row old hpending hold
  · rw [heq] at hpending
    cases hpending

theorem Respects.rollback (h : Respects R table) : Respects R (rollback tx table) := by
  intro cell' hcell' owner row old hpending hold
  obtain ⟨cell, hcell, rfl⟩ := List.mem_map.mp hcell'
  rcases cell.rollback_cases tx with ⟨-, heq⟩ | ⟨-, heq⟩
  · rw [heq] at hpending hold
    exact h cell hcell owner row old hpending hold
  · rw [heq] at hpending
    cases hpending

end Respect

/-! ## What is left to other transactions -/

/-- The rows that the transaction has written are the same in both tables. -/
def OwnedSame (tx : ℕ) (before after : List (Cell κ ρ)) : Prop :=
  ∀ cell, cell.OwnedBy tx → (cell ∈ after ↔ cell ∈ before)

section Owned

variable {table before after last : List (Cell κ ρ)} {tx other : ℕ} {about : κ → ρ → Bool}
  {set : ρ → ρ} {key : κ} {row : ρ}

theorem OwnedSame.refl (tx : ℕ) (table : List (Cell κ ρ)) : OwnedSame tx table table :=
  fun _ _ => Iff.rfl

theorem OwnedSame.trans (h : OwnedSame tx before after) (h' : OwnedSame tx after last) :
    OwnedSame tx before last :=
  fun cell hown => (h' cell hown).trans (h cell hown)

/-- A map of the cells that leaves the ones of another transaction alone, and gives it none. -/
theorem ownedSame_map {f : Cell κ ρ → Cell κ ρ} (hkept : ∀ cell ∈ table, cell.OwnedBy other →
      f cell = cell) (hnone : ∀ cell ∈ table, (f cell).OwnedBy other → cell.OwnedBy other) :
    OwnedSame other table (table.map f) := by
  intro cell hown
  constructor
  · intro hmem
    obtain ⟨old, hold, rfl⟩ := List.mem_map.mp hmem
    rwa [hkept old hold (hnone old hold hown)]
  · intro hmem
    exact List.mem_map.mpr ⟨cell, hmem, hkept cell hmem hown⟩

theorem Cell.OwnedBy.unique {cell : Cell κ ρ} (h : cell.OwnedBy tx) (h' : cell.OwnedBy other) :
    tx = other := by
  obtain ⟨row, hrow⟩ := h
  obtain ⟨row', hrow'⟩ := h'
  rw [hrow] at hrow'
  exact congrArg Prod.fst (Option.some.inj hrow')

theorem Cell.lockedFrom_of_owned {cell : Cell κ ρ} (h : cell.OwnedBy other) (hne : other ≠ tx) :
    cell.lockedFrom tx = true := by
  obtain ⟨row, hrow⟩ := h
  simp [Cell.lockedFrom, hrow, hne]

/-- An UPDATE that need not wait touches no row of another transaction. -/
theorem ownedSame_update (hwaits : waits tx about table = false) (hne : other ≠ tx) :
    OwnedSame other table (update tx about set table) := by
  refine ownedSame_map (fun cell hcell hown => ?_) fun cell _ => Cell.ownedBy_update_of_ne hne
  rcases cell.update_cases tx about set with heq | ⟨row, hview, habout, -⟩
  · exact heq
  · have hfree := List.any_eq_false.mp hwaits cell hcell
    rw [Cell.view_of_not_owned fun h => hne (hown.unique h)] at hview
    simp [Cell.lockedFrom_of_owned hown hne, hview, habout] at hfree

theorem ownedSame_insert (hne : other ≠ tx) : OwnedSame other table (insert tx key row table) := by
  intro cell hown
  unfold insert
  rw [List.mem_append, List.mem_singleton]
  constructor
  · rintro (hmem | rfl)
    · exact hmem
    · obtain ⟨row', hrow'⟩ := hown
      exact absurd (congrArg Prod.fst (Option.some.inj hrow')).symm hne
  · exact Or.inl

theorem ownedSame_upsert [DecidableEq κ] (hwaits : waitsAt tx key table = false)
    (hne : other ≠ tx) : OwnedSame other table (upsert tx key row table) := by
  unfold upsert
  split_ifs
  · refine ownedSame_map (fun cell hcell hown => ?_) fun cell _ hown => ?_
    · have hfree := List.any_eq_false.mp hwaits cell hcell
      by_cases hkey : cell.key = key
      · simp [Cell.lockedFrom_of_owned hown hne, hkey] at hfree
      · exact if_neg hkey
    · by_cases hkey : cell.key = key
      · rw [if_pos hkey] at hown
        obtain ⟨row', hrow'⟩ := hown
        exact absurd (congrArg Prod.fst (Option.some.inj hrow')).symm hne
      · rwa [if_neg hkey] at hown
  · exact ownedSame_insert hne

theorem ownedSame_commit (hne : other ≠ tx) : OwnedSame other table (commit tx table) := by
  refine ownedSame_map (fun cell _ hown => ?_) fun cell _ => Cell.ownedBy_commit_of_ne
  rcases cell.commit_cases tx with ⟨-, heq⟩ | ⟨row, hpending, -⟩
  · exact heq
  · exact absurd (hown.unique ⟨row, hpending⟩) hne

theorem ownedSame_rollback (hne : other ≠ tx) : OwnedSame other table (rollback tx table) := by
  refine ownedSame_map (fun cell _ hown => ?_) fun cell _ => Cell.ownedBy_rollback_of_ne
  rcases cell.rollback_cases tx with ⟨-, heq⟩ | ⟨howned, -⟩
  · exact heq
  · exact absurd (hown.unique howned) hne

end Owned

/-! ## Keys -/

section Keys

variable {table : List (Cell κ ρ)} {tx : ℕ} {about : κ → ρ → Bool} {set : ρ → ρ} {key : κ}
  {row : ρ}

@[simp] theorem map_key_update : (update tx about set table).map Cell.key = table.map Cell.key := by
  simp [update]

@[simp] theorem map_key_commit : (commit tx table).map Cell.key = table.map Cell.key := by
  simp [commit]

@[simp] theorem map_key_rollback : (rollback tx table).map Cell.key = table.map Cell.key := by
  simp [rollback]

theorem nodup_insert (h : (table.map Cell.key).Nodup) (hfresh : ∀ cell ∈ table, cell.key ≠ key) :
    ((insert tx key row table).map Cell.key).Nodup := by
  unfold insert
  rw [List.map_append, List.nodup_append]
  refine ⟨h, List.nodup_singleton _, ?_⟩
  rintro k hk k' hk' rfl
  obtain ⟨cell, hcell, rfl⟩ := List.mem_map.mp hk
  exact hfresh cell hcell (List.mem_singleton.mp hk')

theorem nodup_upsert [DecidableEq κ] (h : (table.map Cell.key).Nodup) :
    ((upsert tx key row table).map Cell.key).Nodup := by
  unfold upsert
  split_ifs with htaken
  · have hkeys : (table.map fun cell =>
        if cell.key = key then { cell with pending := some (tx, row) } else cell).map Cell.key =
          table.map Cell.key := by
      rw [List.map_map]
      refine List.map_congr_left fun cell _ => ?_
      by_cases hkey : cell.key = key
      · simp [hkey]
      · simp [hkey]
    rw [hkeys]
    exact h
  · refine nodup_insert h fun cell hcell hkey => htaken ?_
    exact List.any_eq_true.mpr ⟨cell, hcell, by simp [hkey]⟩

/-- The committed row with the key. -/
def committedAt [DecidableEq κ] (key : κ) (table : List (Cell κ ρ)) : Option ρ :=
  (table.find? fun cell => cell.key = key).bind Cell.committed

theorem find?_key [DecidableEq κ] (hnodup : (table.map Cell.key).Nodup) {cell : Cell κ ρ}
    (hcell : cell ∈ table) : (table.find? fun other => other.key = cell.key) = some cell := by
  cases hfind : table.find? fun other => other.key = cell.key with
  | none =>
      have hnone := List.find?_eq_none.mp hfind cell hcell
      simp at hnone
  | some found =>
      have hkey : found.key = cell.key := by simpa using List.find?_some hfind
      rw [List.inj_on_of_nodup_map hnodup (List.mem_of_find?_eq_some hfind) hcell hkey]

theorem committedAt_key [DecidableEq κ] (hnodup : (table.map Cell.key).Nodup) {cell : Cell κ ρ}
    (hcell : cell ∈ table) : committedAt cell.key table = cell.committed := by
  rw [committedAt, find?_key hnodup hcell, Option.bind_some]

theorem committedAt_some [DecidableEq κ] (h : committedAt key table = some row) :
    ∃ cell ∈ table, cell.key = key ∧ cell.committed = some row := by
  obtain ⟨cell, hfind, hrow⟩ := Option.bind_eq_some_iff.mp h
  exact ⟨cell, List.mem_of_find?_eq_some hfind, by simpa using List.find?_some hfind, hrow⟩

/-- A row that a transaction sees, among rows with different keys. -/
theorem viewAt_key [DecidableEq κ] (hnodup : (table.map Cell.key).Nodup) {cell : Cell κ ρ}
    (hcell : cell ∈ table) : viewAt tx cell.key table = cell.view tx := by
  rw [viewAt, find?_key hnodup hcell, Option.bind_some]

theorem viewAt_some [DecidableEq κ] (h : viewAt tx key table = some row) :
    ∃ cell ∈ table, cell.key = key ∧ cell.view tx = some row := by
  obtain ⟨cell, hfind, hrow⟩ := Option.bind_eq_some_iff.mp h
  exact ⟨cell, List.mem_of_find?_eq_some hfind, by simpa using List.find?_some hfind, hrow⟩

theorem eq_of_key (hnodup : (table.map Cell.key).Nodup) {cell cell' : Cell κ ρ}
    (hcell : cell ∈ table) (hcell' : cell' ∈ table) (hkey : cell.key = cell'.key) : cell = cell' :=
  List.inj_on_of_nodup_map hnodup hcell hcell' hkey

/-- A map of the cells that keeps keys and committed versions keeps the committed rows. -/
theorem committedAt_map [DecidableEq κ] {f : Cell κ ρ → Cell κ ρ}
    (hkey : ∀ cell, (f cell).key = cell.key)
    (hcommitted : ∀ cell, (f cell).committed = cell.committed) :
    committedAt key (table.map f) = committedAt key table := by
  unfold committedAt
  rw [List.find?_map]
  have hsame : ((fun cell : Cell κ ρ => decide (cell.key = key)) ∘ f) =
      fun cell => decide (cell.key = key) := by
    funext cell
    simp [hkey]
  rw [hsame]
  cases table.find? fun cell => decide (cell.key = key) with
  | none => rfl
  | some cell => simp [hcommitted]

@[simp] theorem committedAt_update [DecidableEq κ] :
    committedAt key (update tx about set table) = committedAt key table :=
  committedAt_map (fun _ => Cell.key_update) fun _ => Cell.committed_update

@[simp] theorem committedAt_rollback [DecidableEq κ] :
    committedAt key (rollback tx table) = committedAt key table :=
  committedAt_map (fun _ => Cell.key_rollback) fun _ => Cell.committed_rollback

@[simp] theorem committedAt_insert [DecidableEq κ] {newKey : κ} :
    committedAt key (insert tx newKey row table) = committedAt key table := by
  unfold committedAt insert
  rw [List.find?_append]
  cases table.find? fun cell => decide (cell.key = key) with
  | some cell => rfl
  | none =>
      by_cases hkey : newKey = key
      · simp [hkey]
      · simp [hkey]

@[simp] theorem committedAt_upsert [DecidableEq κ] {newKey : κ} :
    committedAt key (upsert tx newKey row table) = committedAt key table := by
  unfold upsert
  split_ifs
  · refine committedAt_map (fun cell => ?_) fun cell => ?_
    · split_ifs <;> rfl
    · split_ifs <;> rfl
  · exact committedAt_insert

/-- What a commit changes, its transaction has written. -/
theorem committedAt_commit [DecidableEq κ] (tx : ℕ) (key : κ) (table : List (Cell κ ρ)) :
    committedAt key (commit tx table) = committedAt key table ∨
      ∃ cell ∈ table, ∃ row, cell.key = key ∧ cell.pending = some (tx, row) ∧
        committedAt key table = cell.committed ∧
          committedAt key (commit tx table) = some row := by
  unfold committedAt commit
  rw [List.find?_map]
  have hsame : ((fun cell : Cell κ ρ => decide (cell.key = key)) ∘ Cell.commit tx) =
      fun cell => decide (cell.key = key) := by
    funext cell
    simp
  rw [hsame]
  cases hfind : table.find? fun cell => decide (cell.key = key) with
  | none => exact Or.inl rfl
  | some cell =>
      rcases cell.commit_cases tx with ⟨-, heq⟩ | ⟨row, hpending, heq⟩
      · left
        simp [heq]
      · right
        refine ⟨cell, List.mem_of_find?_eq_some hfind, row, ?_, hpending, rfl, ?_⟩
        · simpa using List.find?_some hfind
        · simp [heq]

/-- A commit makes a written row the committed one. -/
theorem committedAt_commit_of_written [DecidableEq κ] (hnodup : (table.map Cell.key).Nodup)
    {cell : Cell κ ρ} (hcell : cell ∈ table) (hpending : cell.pending = some (tx, row)) :
    committedAt cell.key (commit tx table) = some row := by
  have hmem : cell.commit tx ∈ commit tx table := List.mem_map_of_mem hcell
  have hnodup' : ((commit tx table).map Cell.key).Nodup := by rwa [map_key_commit]
  have hat := committedAt_key hnodup' hmem
  rw [Cell.key_commit] at hat
  rw [hat]
  simp [Cell.commit, hpending]

/-- Rows stay committed, or are replaced by what they allow. -/
theorem Follows.committedAt [DecidableEq κ] {R : ρ → ρ → Prop} {after : List (Cell κ ρ)}
    (h : Follows R table after) (hnodup : (after.map Cell.key).Nodup)
    (hrow : committedAt key table = some row) :
    ∃ new, RowVersions.committedAt key after = some new ∧ R row new := by
  obtain ⟨cell, hcell, rfl, hcommitted⟩ := committedAt_some hrow
  obtain ⟨cell', hcell', hkey, hafter⟩ := h cell hcell
  obtain ⟨new, hnew, hR⟩ := hafter row hcommitted
  exact ⟨new, by rw [← hkey, committedAt_key hnodup hcell', hnew], hR⟩

end Keys

/-! ## What holds of every version -/

/-- Of committed versions and of those being written. -/
def EveryVersion (P : κ → ρ → Prop) (table : List (Cell κ ρ)) : Prop :=
  ∀ cell ∈ table, (∀ row, cell.committed = some row → P cell.key row) ∧
    ∀ owner row, cell.pending = some (owner, row) → P cell.key row

section Versions

variable {P : κ → ρ → Prop} {table : List (Cell κ ρ)} {tx : ℕ} {about : κ → ρ → Bool}
  {set : ρ → ρ} {key : κ} {row : ρ}

theorem EveryVersion.view (h : EveryVersion P table) {cell : Cell κ ρ} (hcell : cell ∈ table)
    (hview : cell.view tx = some row) : P cell.key row := by
  by_cases hown : cell.OwnedBy tx
  · obtain ⟨own, hpending⟩ := hown
    obtain rfl := Option.some.inj ((Cell.view_of_owned hpending).symm.trans hview)
    exact (h cell hcell).2 tx own hpending
  · rw [Cell.view_of_not_owned hown] at hview
    exact (h cell hcell).1 row hview

theorem EveryVersion.update (h : EveryVersion P table)
    (hset : ∀ key row, P key row → P key (set row)) :
    EveryVersion P (update tx about set table) := by
  intro cell' hcell'
  obtain ⟨cell, hcell, rfl⟩ := List.mem_map.mp hcell'
  rcases cell.update_cases tx about set with heq | ⟨seen, hview, -, heq⟩
  · rw [heq]
    exact h cell hcell
  · rw [heq]
    refine ⟨(h cell hcell).1, fun owner row' hrow' => ?_⟩
    obtain ⟨-, rfl⟩ := Prod.mk.inj (Option.some.inj hrow')
    exact hset cell.key seen (h.view hcell hview)

theorem EveryVersion.insert (h : EveryVersion P table) (hnew : P key row) :
    EveryVersion P (insert tx key row table) := by
  intro cell hcell
  rcases List.mem_append.mp hcell with hcell | hcell
  · exact h cell hcell
  · rw [List.mem_singleton.mp hcell]
    refine ⟨fun row' hrow' => absurd hrow' (Option.some_ne_none row').symm, ?_⟩
    intro owner row' hrow'
    obtain ⟨-, rfl⟩ := Prod.mk.inj (Option.some.inj hrow')
    exact hnew

theorem EveryVersion.commit (h : EveryVersion P table) : EveryVersion P (commit tx table) := by
  intro cell' hcell'
  obtain ⟨cell, hcell, rfl⟩ := List.mem_map.mp hcell'
  rcases cell.commit_cases tx with ⟨-, heq⟩ | ⟨own, hpending, heq⟩
  · rw [heq]
    exact h cell hcell
  · rw [heq]
    refine ⟨fun row' hrow' => ?_, fun owner row' hrow' => ?_⟩
    · exact Option.some.inj hrow' ▸ (h cell hcell).2 tx own hpending
    · cases hrow'

theorem EveryVersion.rollback (h : EveryVersion P table) :
    EveryVersion P (rollback tx table) := by
  intro cell' hcell'
  obtain ⟨cell, hcell, rfl⟩ := List.mem_map.mp hcell'
  rcases cell.rollback_cases tx with ⟨-, heq⟩ | ⟨-, heq⟩
  · rw [heq]
    exact h cell hcell
  · rw [heq]
    refine ⟨(h cell hcell).1, fun owner row' hrow' => ?_⟩
    cases hrow'

end Versions

/-! ## Transactions that have written nothing -/

section Nothing

variable {table before after : List (Cell κ ρ)} {tx other : ℕ} {about : κ → ρ → Bool}
  {set : ρ → ρ} {key : κ} {row : ρ}

theorem untouched_commit : Untouched tx (commit tx table) := by
  intro cell' hcell'
  obtain ⟨cell, -, rfl⟩ := List.mem_map.mp hcell'
  exact Cell.not_ownedBy_commit

theorem untouched_rollback : Untouched tx (rollback tx table) := by
  intro cell' hcell'
  obtain ⟨cell, -, rfl⟩ := List.mem_map.mp hcell'
  exact Cell.not_ownedBy_rollback

theorem OwnedSame.untouched (h : OwnedSame tx before after) (hnone : Untouched tx before) :
    Untouched tx after :=
  fun cell hcell hown => hnone cell ((h cell hown).mp hcell) hown

theorem Untouched.view (h : Untouched tx table) {cell : Cell κ ρ} (hcell : cell ∈ table) :
    cell.view tx = cell.committed :=
  Cell.view_of_not_owned (h cell hcell)

theorem Untouched.commit_eq (h : Untouched tx table) : commit tx table = table := by
  refine (List.map_congr_left fun cell hcell => ?_).trans (List.map_id table)
  rcases cell.commit_cases tx with ⟨-, heq⟩ | ⟨row, hpending, -⟩
  · exact heq
  · exact absurd ⟨row, hpending⟩ (h cell hcell)

theorem affects_some (h : affects tx about table = true) :
    ∃ cell ∈ table, ∃ row, cell.view tx = some row ∧ about cell.key row = true := by
  obtain ⟨cell, hcell, hseen⟩ := List.any_eq_true.mp h
  cases hview : cell.view tx with
  | none => simp [hview] at hseen
  | some row => exact ⟨cell, hcell, row, hview, by simpa [hview] using hseen⟩

/-- What an UPDATE leaves to its transaction, which had written nothing. -/
theorem Untouched.written_update (h : Untouched tx table) {cell : Cell κ ρ}
    (hcell : cell ∈ update tx about set table) (hpending : cell.pending = some (tx, row)) :
    ∃ old, cell.committed = some old ∧ about cell.key old = true ∧ row = set old := by
  obtain ⟨before, hbefore, rfl⟩ := List.mem_map.mp hcell
  rcases before.update_cases tx about set with heq | ⟨seen, hview, habout, heq⟩
  · rw [heq] at hpending
    exact absurd ⟨row, hpending⟩ (h before hbefore)
  · rw [h.view hbefore] at hview
    rw [heq] at hpending ⊢
    obtain ⟨-, hrow⟩ := Prod.mk.inj (Option.some.inj hpending)
    exact ⟨seen, hview, habout, hrow.symm⟩

end Nothing

/-! ## What a transaction has written -/

/-- The transaction has written exactly the keys that `given` is about, with rows that it allows. -/
structure Wrote (tx : ℕ) (given : κ → ρ → Prop) (table : List (Cell κ ρ)) : Prop where
  allowed : ∀ cell ∈ table, ∀ row, cell.pending = some (tx, row) → given cell.key row
  all : ∀ key row, given key row → ∃ cell ∈ table, cell.key = key ∧ cell.OwnedBy tx

section Wrote

variable {given : κ → ρ → Prop} {table before after : List (Cell κ ρ)} {tx : ℕ} {key : κ} {row : ρ}

theorem Untouched.wrote (h : Untouched tx table) : Wrote tx (fun _ _ => False) table where
  allowed cell hcell row hpending := h cell hcell ⟨row, hpending⟩
  all _ _ hgiven := hgiven.elim

theorem OwnedSame.wrote (h : OwnedSame tx before after) (hwrote : Wrote tx given before) :
    Wrote tx given after where
  allowed cell hcell row hpending :=
    hwrote.allowed cell ((h cell ⟨row, hpending⟩).mp hcell) row hpending
  all key row hgiven := by
    obtain ⟨cell, hcell, hkey, hown⟩ := hwrote.all key row hgiven
    exact ⟨cell, (h cell hown).mpr hcell, hkey, hown⟩

theorem Wrote.congr {given' : κ → ρ → Prop} (h : Wrote tx given table)
    (hiff : ∀ key row, given key row ↔ given' key row) : Wrote tx given' table where
  allowed cell hcell row hpending := (hiff _ _).mp (h.allowed cell hcell row hpending)
  all key row hgiven := h.all key row ((hiff _ _).mpr hgiven)

theorem mem_insert {cell : Cell κ ρ} :
    cell ∈ insert tx key row table ↔ cell ∈ table ∨ cell = ⟨key, none, some (tx, row)⟩ := by
  rw [insert, List.mem_append, List.mem_singleton]

/-- The row of an upsert, and the others as they were. -/
theorem mem_upsert [DecidableEq κ] {cell : Cell κ ρ} (h : cell ∈ upsert tx key row table) :
    (cell ∈ table ∧ cell.key ≠ key) ∨ (cell.key = key ∧ cell.pending = some (tx, row)) := by
  unfold upsert at h
  split_ifs at h with htaken
  · obtain ⟨old, hold, rfl⟩ := List.mem_map.mp h
    by_cases hkey : old.key = key
    · exact Or.inr (by simp [hkey])
    · exact Or.inl (by simpa [hkey] using hold)
  · rcases mem_insert.mp h with hcell | rfl
    · refine Or.inl ⟨hcell, fun hkey => htaken ?_⟩
      exact List.any_eq_true.mpr ⟨cell, hcell, decide_eq_true hkey⟩
    · exact Or.inr ⟨rfl, rfl⟩

/-- The row with the key is written. -/
theorem upsert_mem [DecidableEq κ] (tx : ℕ) (key : κ) (row : ρ) (table : List (Cell κ ρ)) :
    ∃ cell ∈ upsert tx key row table, cell.key = key ∧ cell.OwnedBy tx := by
  unfold upsert
  split_ifs with htaken
  · obtain ⟨cell, hcell, hkey⟩ := List.any_eq_true.mp htaken
    have hkey : cell.key = key := of_decide_eq_true hkey
    refine ⟨{ cell with pending := some (tx, row) }, ?_, hkey, row, rfl⟩
    exact List.mem_map.mpr ⟨cell, hcell, if_pos hkey⟩
  · exact ⟨_, mem_insert.mpr (Or.inr rfl), rfl, row, rfl⟩

theorem mem_upsert_of_ne [DecidableEq κ] {cell : Cell κ ρ} (hcell : cell ∈ table)
    (hne : cell.key ≠ key) : cell ∈ upsert tx key row table := by
  unfold upsert
  split_ifs
  · exact List.mem_map.mpr ⟨cell, hcell, if_neg hne⟩
  · exact mem_insert.mpr (Or.inl hcell)

theorem Wrote.upsert [DecidableEq κ] (h : Wrote tx given table) :
    Wrote tx (fun key' row' => given key' row' ∨ (key' = key ∧ row' = row))
      (upsert tx key row table) where
  allowed cell hcell row' hpending := by
    rcases mem_upsert hcell with ⟨hold, -⟩ | ⟨hkey, hnew⟩
    · exact Or.inl (h.allowed cell hold row' hpending)
    · rw [hnew] at hpending
      exact Or.inr ⟨hkey, (Prod.mk.inj (Option.some.inj hpending)).2.symm⟩
  all key' row' hgiven := by
    by_cases hkey : key' = key
    · subst hkey
      exact upsert_mem tx key' row table
    · rcases hgiven with hgiven | ⟨hsame, -⟩
      · obtain ⟨cell, hcell, rfl, hown⟩ := h.all key' row' hgiven
        exact ⟨cell, mem_upsert_of_ne hcell hkey, rfl, hown⟩
      · exact absurd hsame hkey

end Wrote

end RowVersions
