import DeltaLLM.TableStatements

/-! # Writing a selection into a table

The rows of one place of a table become a selection of names: for every selected name a row is put,
made from the one that is there, and the place's other rows are deleted. Rows of other places stay,
and writing the same selection again changes nothing.
-/
namespace SelectedRows

open TableStatements

variable {ρ κ ν σ : Type*} [DecidableEq κ]

/-! ## Putting rows -/

section Put

variable (key : ρ → κ)

/-- INSERT with ON CONFLICT (key) DO UPDATE of every other column. -/
def put (row : ρ) (rows : List ρ) : List ρ := insertOrUpdate key (fun _ => row) row rows

/-- A row for each name, one after the other. -/
def putAll (row : ν → ρ) (names : List ν) (rows : List ρ) : List ρ :=
  names.foldl (fun rows name => put key (row name) rows) rows

variable {key} {row r : ρ} {rows : List ρ}

theorem mem_put : r ∈ put key row rows ↔ r = row ∨ r ∈ rows ∧ key r ≠ key row := by
  unfold put insertOrUpdate
  by_cases htaken : ∃ r ∈ rows, key r = key row
  · rw [if_pos htaken, mem_updateWhere]
    constructor
    · rintro ⟨old, hold, rfl⟩
      by_cases hkey : key old = key row
      · exact .inl (if_pos hkey)
      · rw [if_neg hkey]
        exact .inr ⟨hold, hkey⟩
    · rintro (rfl | ⟨hr, hkey⟩)
      · obtain ⟨old, hold, hkey⟩ := htaken
        exact ⟨old, hold, (if_pos hkey).symm⟩
      · exact ⟨r, hr, (if_neg hkey).symm⟩
  · rw [if_neg htaken, List.mem_append, List.mem_singleton]
    constructor
    · rintro (hr | rfl)
      · exact .inr ⟨hr, fun hkey => htaken ⟨r, hr, hkey⟩⟩
      · exact .inl rfl
    · rintro (rfl | ⟨hr, -⟩)
      · exact .inr rfl
      · exact .inl hr

theorem nodup_put (h : (rows.map key).Nodup) : ((put key row rows).map key).Nodup := by
  unfold put insertOrUpdate
  by_cases htaken : ∃ r ∈ rows, key r = key row
  · rw [if_pos htaken, map_updateWhere _ _ _ fun r hkey => Eq.symm hkey]
    exact h
  · rw [if_neg htaken]
    exact nodup_keys_append h fun r hr hkey => htaken ⟨r, hr, hkey⟩

/-- A row that is there is put in its own place. -/
theorem put_of_mem (h : (rows.map key).Nodup) (hrow : row ∈ rows) : put key row rows = rows := by
  unfold put insertOrUpdate
  rw [if_pos ⟨row, hrow, rfl⟩, updateWhere]
  conv_rhs => rw [← List.map_id rows]
  apply List.map_congr_left
  intro r hr
  by_cases hkey : key r = key row
  · rw [if_pos hkey]
    exact (List.inj_on_of_nodup_map h hr hrow hkey).symm
  · rw [if_neg hkey]
    rfl

theorem mem_putAll {row : ν → ρ} {names : List ν}
    (hrow : ∀ m n, key (row m) = key (row n) → m = n) :
    r ∈ putAll key row names rows ↔
      (∃ n ∈ names, r = row n) ∨ r ∈ rows ∧ ∀ n ∈ names, key r ≠ key (row n) := by
  induction names generalizing rows with
  | nil => simp [putAll]
  | cons name names ih =>
      have hstep : putAll key row (name :: names) rows =
          putAll key row names (put key (row name) rows) := rfl
      rw [hstep, ih, mem_put]
      simp only [List.exists_mem_cons_iff, List.forall_mem_cons]
      constructor
      · rintro (hput | ⟨rfl | ⟨hr, hkey⟩, hrest⟩)
        · exact .inl (.inr hput)
        · exact .inl (.inl rfl)
        · exact .inr ⟨hr, hkey, hrest⟩
      · rintro ((rfl | hput) | ⟨hr, hkey, hrest⟩)
        · by_cases hagain : name ∈ names
          · exact .inl ⟨name, hagain, rfl⟩
          · refine .inr ⟨.inl rfl, ?_⟩
            intro n hn heq
            exact hagain (hrow _ _ heq ▸ hn)
        · exact .inl hput
        · exact .inr ⟨.inr ⟨hr, hkey⟩, hrest⟩

theorem nodup_putAll (row : ν → ρ) (names : List ν) (h : (rows.map key).Nodup) :
    ((putAll key row names rows).map key).Nodup := by
  induction names generalizing rows with
  | nil => exact h
  | cons name names ih => exact ih (nodup_put h)

theorem putAll_of_mem {row : ν → ρ} {names : List ν} (h : (rows.map key).Nodup)
    (hrow : ∀ n ∈ names, row n ∈ rows) : putAll key row names rows = rows := by
  induction names with
  | nil => rfl
  | cons name names ih =>
      have hhead := put_of_mem h (hrow name List.mem_cons_self)
      have htail := ih fun n hn => hrow n (List.mem_cons_of_mem _ hn)
      change putAll key row names (put key (row name) rows) = rows
      rw [hhead, htail]

end Put

/-! ## The selection of a place -/

section Selection

variable (name : ρ → ν) (place : ρ → σ) (listed : ρ → Bool) (row : ν → Option ρ → ρ)

/-- The key that keeps the names of a place apart. -/
def placedName (r : ρ) : ν × σ := (name r, place r)

/-- What is listed is one place, and the row made for a name is a row of that name and place, which
is made from itself again. -/
structure Selects (here : σ) : Prop where
  listed_iff : ∀ r, listed r = true ↔ place r = here
  name_row : ∀ n old, name (row n old) = n
  place_row : ∀ n old, place (row n old) = here
  row_row : ∀ n old, row n (some (row n old)) = row n old

variable {name place listed row} in
theorem Selects.key_injective {here : σ} (h : Selects name place listed row here)
    (old : ν → Option ρ) (m n : ν) (hkey : placedName name place (row m (old m)) =
      placedName name place (row n (old n))) : m = n := by
  have hname : name (row m (old m)) = name (row n (old n)) := congrArg Prod.fst hkey
  rwa [h.name_row, h.name_row] at hname

variable [DecidableEq ν] [DecidableEq σ]

/-- The rows as they are listed are read once; each selected name is put and every other listed row
is deleted. -/
def syncSelection (selected : List ν) (rows : List ρ) : List ρ :=
  (putAll (placedName name place) (fun n => row n ((rows.filter listed).find? (name · = n)))
    selected rows).filter fun r => !listed r || decide (name r ∈ selected)

variable {name place listed row} {here : σ} {selected : List ν} {rows : List ρ} {r : ρ}

/-- Afterwards the place holds the rows of the selection, and every other place what it held. -/
theorem mem_syncSelection (h : Selects name place listed row here) :
    r ∈ syncSelection name place listed row selected rows ↔
      (∃ n ∈ selected, r = row n ((rows.filter listed).find? (name · = n))) ∨
        r ∈ rows ∧ place r ≠ here := by
  unfold syncSelection
  rw [List.mem_filter, mem_putAll (h.key_injective _)]
  simp only [Bool.or_eq_true, Bool.not_eq_true', decide_eq_true_eq, Bool.eq_false_iff, ne_eq,
    h.listed_iff]
  constructor
  · rintro ⟨hput | ⟨hr, hkey⟩, hkept⟩
    · exact .inl hput
    · refine .inr ⟨hr, fun hplace => ?_⟩
      rcases hkept with haway | hselected
      · exact haway hplace
      · apply hkey _ hselected
        simp only [placedName, h.name_row, h.place_row, hplace]
  · rintro (⟨n, hn, rfl⟩ | ⟨hr, haway⟩)
    · refine ⟨.inl ⟨n, hn, rfl⟩, .inr ?_⟩
      rwa [h.name_row]
    · refine ⟨.inr ⟨hr, ?_⟩, .inl haway⟩
      intro n _ heq
      have hplace : place r = place (row n _) := congrArg Prod.snd heq
      exact haway (hplace.trans (h.place_row _ _))

theorem mem_syncSelection_away (h : Selects name place listed row here) (haway : place r ≠ here) :
    r ∈ syncSelection name place listed row selected rows ↔ r ∈ rows := by
  rw [mem_syncSelection h]
  constructor
  · rintro (⟨n, -, rfl⟩ | ⟨hr, -⟩)
    · exact absurd (h.place_row _ _) haway
    · exact hr
  · intro hr
    exact .inr ⟨hr, haway⟩

/-- What is listed afterwards is the selection. -/
theorem mem_listed_syncSelection (h : Selects name place listed row here) :
    r ∈ (syncSelection name place listed row selected rows).filter listed ↔
      ∃ n ∈ selected, r = row n ((rows.filter listed).find? (name · = n)) := by
  rw [List.mem_filter, mem_syncSelection h, h.listed_iff]
  constructor
  · rintro ⟨hselected | ⟨-, haway⟩, hplace⟩
    · exact hselected
    · exact absurd hplace haway
  · rintro ⟨n, hn, rfl⟩
    exact ⟨.inl ⟨n, hn, rfl⟩, h.place_row _ _⟩

theorem nodup_syncSelection (listed : ρ → Bool) (row : ν → Option ρ → ρ) (selected : List ν)
    (h : (rows.map (placedName name place)).Nodup) :
    ((syncSelection name place listed row selected rows).map (placedName name place)).Nodup :=
  (nodup_putAll _ _ h).sublist (List.filter_sublist.map _)

/-- A selected name is found with the row that was put for it. -/
theorem find?_syncSelection (h : Selects name place listed row here) {n : ν} (hn : n ∈ selected) :
    ((syncSelection name place listed row selected rows).filter listed).find? (name · = n) =
      some (row n ((rows.filter listed).find? (name · = n))) := by
  cases hfind : ((syncSelection name place listed row selected rows).filter listed).find?
      (name · = n) with
  | none =>
      rw [List.find?_eq_none] at hfind
      have hput := hfind (row n ((rows.filter listed).find? (name · = n)))
        (List.mem_filter.mpr ⟨(mem_syncSelection h).mpr (.inl ⟨n, hn, rfl⟩),
          (h.listed_iff _).mpr (h.place_row _ _)⟩)
      simp [h.name_row] at hput
  | some found =>
      have hname : name found = n := by simpa using List.find?_some hfind
      obtain ⟨hmem, hlisted⟩ := List.mem_filter.mp (List.mem_of_find?_eq_some hfind)
      rcases (mem_syncSelection h).mp hmem with ⟨m, -, rfl⟩ | ⟨-, haway⟩
      · rw [h.name_row] at hname
        rw [hname]
      · exact absurd ((h.listed_iff _).mp hlisted) haway

/-- Writing the same selection again changes nothing. -/
theorem syncSelection_syncSelection (h : Selects name place listed row here)
    (hnodup : (rows.map (placedName name place)).Nodup) :
    syncSelection name place listed row selected
        (syncSelection name place listed row selected rows) =
      syncSelection name place listed row selected rows := by
  have hput : ∀ n ∈ selected,
      row n (((syncSelection name place listed row selected rows).filter listed).find?
        (name · = n)) ∈ syncSelection name place listed row selected rows := by
    intro n hn
    rw [find?_syncSelection h hn, h.row_row]
    exact (mem_syncSelection h).mpr (.inl ⟨n, hn, rfl⟩)
  have hkept : ∀ r ∈ syncSelection name place listed row selected rows,
      (!listed r || decide (name r ∈ selected)) = true := by
    intro r hr
    rcases (mem_syncSelection h).mp hr with ⟨n, hn, rfl⟩ | ⟨-, haway⟩
    · simp [h.name_row, hn]
    · have hlisted : listed r = false :=
        Bool.eq_false_iff.mpr fun hl => haway ((h.listed_iff r).mp hl)
      simp [hlisted]
  have hnodup' := nodup_syncSelection listed row selected hnodup
  calc syncSelection name place listed row selected
        (syncSelection name place listed row selected rows)
      = (syncSelection name place listed row selected rows).filter
          fun r => !listed r || decide (name r ∈ selected) :=
        congrArg (List.filter _) (putAll_of_mem hnodup' hput)
    _ = syncSelection name place listed row selected rows := List.filter_eq_self.mpr hkept

end Selection

end SelectedRows
