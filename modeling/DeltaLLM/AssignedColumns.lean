import DeltaLLM.TableStatements

/-! # A column that upserts assign

Upserts under a key set one column of a row, one after the other, and leave the rest of the table.
What the column holds at the end is the last value written under the row's key, or what it held.
-/
namespace AssignedColumns

open TableStatements

variable {ρ κ α : Type*}

/-- A column that is set without touching the key, and the row that is inserted where none is. -/
structure Column (ρ κ α : Type*) where
  key : ρ → κ
  read : ρ → α
  assign : α → ρ → ρ
  fresh : κ → α → ρ
  key_assign : ∀ a r, key (assign a r) = key r
  read_assign : ∀ a r, read (assign a r) = a
  key_fresh : ∀ k a, key (fresh k a) = k
  read_fresh : ∀ k a, read (fresh k a) = a

variable (column : Column ρ κ α)

/-- Every row is still there, with a value of the column that is not worse than before. -/
def Column.NeverWorse (worse : α → α → Prop) (before after : List ρ) :
    Prop :=
  ∀ r ∈ before, ∃ r' ∈ after, column.key r' = column.key r ∧ ¬worse (column.read r') (column.read r)

variable {column} {worse : α → α → Prop}

theorem Column.neverWorse_self (hself : ∀ a, ¬worse a a) (rows : List ρ) :
    column.NeverWorse worse rows rows := fun r hr => ⟨r, hr, rfl, hself _⟩

variable [DecidableEq κ] (column)

def Column.upsert (k : κ) (a : α) (rows : List ρ) : List ρ :=
  insertOrUpdate column.key (column.assign a) (column.fresh k a) rows

def Column.upsertAll (writes : List (κ × α)) (rows : List ρ) : List ρ :=
  writes.foldl (fun rows write => column.upsert write.1 write.2 rows) rows

/-- The value of the last write under the key. -/
def lastWritten (k : κ) : List (κ × α) → Option α
  | [] => none
  | write :: writes =>
      (lastWritten k writes).or (if write.1 = k then some write.2 else none)

variable {column} {k : κ} {a : α} {writes : List (κ × α)} {rows : List ρ} {r : ρ}

theorem lastWritten_ne_none : lastWritten k writes ≠ none ↔ ∃ write ∈ writes, write.1 = k := by
  induction writes with
  | nil => simp [lastWritten]
  | cons write writes ih =>
      by_cases hkey : write.1 = k
      · simp [lastWritten, hkey]
      · simpa [lastWritten, hkey] using ih

/-! ## One upsert -/

theorem Column.nodup_upsert (column : Column ρ κ α) (h : (rows.map column.key).Nodup) :
    ((column.upsert k a rows).map column.key).Nodup :=
  nodup_keys_insertOrUpdate (column.key_assign a) h

theorem Column.exists_mem_upsert (column : Column ρ κ α) (hr : r ∈ rows) :
    ∃ r' ∈ column.upsert k a rows, column.key r' = column.key r ∧
      column.read r' = if k = column.key r then a else column.read r := by
  obtain ⟨r', hr', rfl⟩ := exists_mem_insertOrUpdate column.key (column.assign a)
    (column.fresh k a) hr
  refine ⟨_, hr', ?_⟩
  rw [column.key_fresh]
  by_cases hkey : column.key r = k
  · simp [hkey, column.key_assign, column.read_assign]
  · simp [hkey, Ne.symm hkey]

/-- The row under the key afterwards, whether it was there or not. -/
theorem Column.exists_key_upsert (column : Column ρ κ α) (k : κ) (a : α) (rows : List ρ) :
    ∃ r ∈ column.upsert k a rows, column.key r = k ∧ column.read r = a := by
  obtain ⟨r, hr, hkey, ⟨old, -, -, rfl⟩ | rfl⟩ := exists_key_insertOrUpdate column.key
    (column.assign a) (column.fresh k a) rows (column.key_assign a)
  · exact ⟨_, hr, hkey.trans (column.key_fresh k a), column.read_assign a old⟩
  · exact ⟨_, hr, column.key_fresh k a, column.read_fresh k a⟩

theorem Column.mem_upsert_away (column : Column ρ κ α) (haway : column.key r ≠ k) :
    r ∈ column.upsert k a rows ↔ r ∈ rows := by
  unfold Column.upsert insertOrUpdate
  rw [column.key_fresh]
  by_cases htaken : ∃ r ∈ rows, column.key r = k
  · rw [if_pos htaken, mem_updateWhere]
    constructor
    · rintro ⟨old, hold, rfl⟩
      by_cases hkey : column.key old = k
      · rw [if_pos hkey, column.key_assign] at haway
        exact absurd hkey haway
      · rwa [if_neg hkey]
    · intro hr
      exact ⟨r, hr, (if_neg haway).symm⟩
  · rw [if_neg htaken, List.mem_append, List.mem_singleton]
    constructor
    · rintro (hr | rfl)
      · exact hr
      · exact absurd (column.key_fresh k a) haway
    · exact Or.inl

/-! ## Many of them -/

theorem Column.upsertAll_append {later : List (κ × α)} :
    column.upsertAll (writes ++ later) rows =
      column.upsertAll later (column.upsertAll writes rows) := List.foldl_append

theorem Column.nodup_upsertAll (column : Column ρ κ α) (h : (rows.map column.key).Nodup) :
    ((column.upsertAll writes rows).map column.key).Nodup := by
  induction writes generalizing rows with
  | nil => exact h
  | cons write writes ih => exact ih (column.nodup_upsert h)

theorem Column.exists_mem_upsertAll (column : Column ρ κ α) (writes : List (κ × α))
    (hr : r ∈ rows) :
    ∃ r' ∈ column.upsertAll writes rows, column.key r' = column.key r ∧
      column.read r' = (lastWritten (column.key r) writes).getD (column.read r) := by
  induction writes generalizing rows r with
  | nil => exact ⟨r, hr, rfl, rfl⟩
  | cons write writes ih =>
      obtain ⟨first, hfirst, hkey, hread⟩ :=
        column.exists_mem_upsert (k := write.1) (a := write.2) hr
      obtain ⟨last, hlast, hkey', hread'⟩ := ih hfirst
      refine ⟨last, hlast, hkey'.trans hkey, hread'.trans ?_⟩
      rw [hkey, hread, lastWritten]
      cases lastWritten (column.key r) writes with
      | some a => rfl
      | none =>
          by_cases hwrite : write.1 = column.key r
          · simp [hwrite]
          · simp [hwrite]

/-- Rows under other keys are there before and after, and no others. -/
theorem Column.mem_upsertAll_away (column : Column ρ κ α)
    (haway : ∀ write ∈ writes, column.key r ≠ write.1) :
    r ∈ column.upsertAll writes rows ↔ r ∈ rows := by
  induction writes generalizing rows with
  | nil => exact Iff.rfl
  | cons write writes ih =>
      have hrest : r ∈ column.upsertAll writes (column.upsert write.1 write.2 rows) ↔
          r ∈ column.upsert write.1 write.2 rows :=
        ih fun other hother => haway other (List.mem_cons_of_mem _ hother)
      exact hrest.trans (column.mem_upsert_away (haway write List.mem_cons_self))

/-! ## Values that are never made worse -/

/-- Every write leaves a row under its key, and the last of them its value. -/
theorem Column.exists_written (column : Column ρ κ α) (rows : List ρ)
    (h : lastWritten k writes = some a) :
    ∃ r ∈ column.upsertAll writes rows, column.key r = k ∧ column.read r = a := by
  induction writes generalizing rows with
  | nil => cases h
  | cons write writes ih =>
      rw [lastWritten] at h
      cases hrest : lastWritten k writes with
      | some later =>
          rw [hrest, Option.some_or] at h
          exact ih _ (hrest.trans h)
      | none =>
          rw [hrest, Option.none_or] at h
          split_ifs at h with hkey
          obtain rfl := Option.some.inj h
          obtain ⟨r, hr, hfirst, hvalue⟩ := column.exists_key_upsert write.1 write.2 rows
          obtain ⟨last, hlast, hkey', hread'⟩ := column.exists_mem_upsertAll writes hr
          refine ⟨last, hlast, hkey'.trans (hfirst.trans hkey), ?_⟩
          rw [hread', hfirst, hkey, hrest]
          exact hvalue

/-- What the table holds after the writes: rows under other keys as before, every old row with the
last value written for it, and a row for every key that is written. -/
structure Column.AssignedBy (column : Column ρ κ α) (writes : List (κ × α))
    (before after : List ρ) : Prop where
  outside : ∀ r, lastWritten (column.key r) writes = none → (r ∈ after ↔ r ∈ before)
  kept : ∀ r ∈ before, ∃ r' ∈ after, column.key r' = column.key r ∧
    column.read r' = (lastWritten (column.key r) writes).getD (column.read r)
  written : ∀ k a, lastWritten k writes = some a →
    ∃ r ∈ after, column.key r = k ∧ column.read r = a

theorem Column.assignedBy_upsertAll (column : Column ρ κ α) (writes : List (κ × α))
    (rows : List ρ) :
    column.AssignedBy writes rows (column.upsertAll writes rows) where
  outside _ hnone := column.mem_upsertAll_away fun write hwrite hkey =>
    lastWritten_ne_none.mpr ⟨write, hwrite, hkey.symm⟩ hnone
  kept _ hr := column.exists_mem_upsertAll _ hr
  written _ _ hlast := column.exists_written rows hlast

/-- The writes make no value worse exactly when no last write is worse than what is there. -/
theorem Column.neverWorse_upsertAll (hself : ∀ a, ¬worse a a)
    (hnodup : (rows.map column.key).Nodup) :
    column.NeverWorse worse rows (column.upsertAll writes rows) ↔
      ¬∃ r ∈ rows, ∃ a, lastWritten (column.key r) writes = some a ∧ worse a (column.read r) := by
  constructor
  · rintro hkept ⟨r, hr, a, hlast, hworse⟩
    obtain ⟨after, hafter, hkey, hnot⟩ := hkept r hr
    obtain ⟨found, hfound, hkey', hread⟩ :=
      column.exists_mem_upsertAll writes hr
    obtain rfl : after = found := List.inj_on_of_nodup_map (column.nodup_upsertAll hnodup)
      hafter hfound (hkey.trans hkey'.symm)
    rw [hread, hlast] at hnot
    exact hnot hworse
  · intro hnone r hr
    obtain ⟨after, hafter, hkey, hread⟩ :=
      column.exists_mem_upsertAll writes hr
    refine ⟨after, hafter, hkey, fun hworse => ?_⟩
    rw [hread] at hworse
    cases hlast : lastWritten (column.key r) writes with
    | none =>
        rw [hlast] at hworse
        exact hself _ hworse
    | some a =>
        rw [hlast] at hworse
        exact hnone ⟨r, hr, a, hlast, hworse⟩

end AssignedColumns
