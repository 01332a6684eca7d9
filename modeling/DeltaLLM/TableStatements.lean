import Mathlib.Algebra.Order.BigOperators.Group.List
import Mathlib.Algebra.Order.Group.Nat
import Mathlib.Data.List.Nodup
import Mathlib.Data.List.Perm.Subperm
import Mathlib.Data.List.Sort
import Mathlib.Algebra.GroupWithZero.Nat

/-! # Statements on a table of rows

A table is the list of its rows. `updateWhere` is an UPDATE with its WHERE clause, `insertOrIgnore`
an INSERT with ON CONFLICT DO NOTHING, `insertOrUpdate` one with ON CONFLICT DO UPDATE, `rowWithKey`
a lookup by primary key, and `selectFirst` a SELECT with its ORDER BY and LIMIT.
-/
namespace TableStatements

variable {ρ κ : Type*}

def updateWhere (p : ρ → Prop) [DecidablePred p] (f : ρ → ρ) (rows : List ρ) : List ρ :=
  rows.map fun r => if p r then f r else r

section Update

variable (p : ρ → Prop) [DecidablePred p] (f : ρ → ρ)

@[simp] theorem length_updateWhere (rows : List ρ) :
    (updateWhere p f rows).length = rows.length := by
  simp [updateWhere]

theorem mem_updateWhere {rows : List ρ} {r' : ρ} :
    r' ∈ updateWhere p f rows ↔ ∃ r ∈ rows, r' = if p r then f r else r := by
  simp only [updateWhere, List.mem_map]
  constructor
  · rintro ⟨r, hr, rfl⟩
    exact ⟨r, hr, rfl⟩
  · rintro ⟨r, hr, rfl⟩
    exact ⟨r, hr, rfl⟩

/-- Columns that the SET list leaves alone are unchanged in every row. -/
theorem map_updateWhere (g : ρ → κ) (hg : ∀ r, p r → g (f r) = g r) (rows : List ρ) :
    (updateWhere p f rows).map g = rows.map g := by
  simp only [updateWhere, List.map_map]
  refine List.map_congr_left fun r _ => ?_
  by_cases hp : p r
  · simp [hp, hg r hp]
  · simp [hp]

end Update

section Keys

variable [DecidableEq κ] (key : ρ → κ)

def rowWithKey (k : κ) (rows : List ρ) : Option ρ := rows.find? fun r => key r = k

variable {key}

theorem rowWithKey_some {k : κ} {rows : List ρ} {r : ρ} (h : rowWithKey key k rows = some r) :
    r ∈ rows ∧ key r = k := by
  have hkey := List.find?_some h
  exact ⟨List.mem_of_find?_eq_some h, by simpa using hkey⟩

theorem rowWithKey_eq_none {k : κ} {rows : List ρ} :
    rowWithKey key k rows = none ↔ ∀ r ∈ rows, key r ≠ k := by
  simp [rowWithKey]

theorem rowWithKey_append (k : κ) (rows rows' : List ρ) :
    rowWithKey key k (rows ++ rows') =
      (rowWithKey key k rows).or (rowWithKey key k rows') := by
  simp [rowWithKey]

/-- An UPDATE that leaves the key alone keeps every row where a lookup finds it. -/
theorem rowWithKey_updateWhere (p : ρ → Prop) [DecidablePred p] {f : ρ → ρ}
    (k : κ) (rows : List ρ) (hf : ∀ r, p r → key (f r) = key r) :
    rowWithKey key k (updateWhere p f rows) =
      (rowWithKey key k rows).map fun r => if p r then f r else r := by
  have hkey : ∀ r, key (if p r then f r else r) = key r := by
    intro r
    by_cases hp : p r
    · rw [if_pos hp, hf r hp]
    · rw [if_neg hp]
  simp only [rowWithKey, updateWhere, List.find?_map, Function.comp_def, hkey]

/-- INSERT with ON CONFLICT (key) DO NOTHING. -/
def insertOrIgnore (key : ρ → κ) (row : ρ) (rows : List ρ) : List ρ :=
  if ∃ r ∈ rows, key r = key row then rows else rows ++ [row]

theorem nodup_keys_updateWhere (p : ρ → Prop) [DecidablePred p] {f : ρ → ρ} {rows : List ρ}
    (hf : ∀ r, key (f r) = key r) (hnodup : (rows.map key).Nodup) :
    ((updateWhere p f rows).map key).Nodup := by
  rw [map_updateWhere p f key fun r _ => hf r]
  exact hnodup

/-- INSERT under a unique key, none where the key is taken. -/
def insertNew (key : ρ → κ) (row : ρ) (rows : List ρ) : Option (List ρ) :=
  if ∃ r ∈ rows, key r = key row then none else some (rows ++ [row])

theorem insertNew_some {row : ρ} {rows rows' : List ρ} (h : insertNew key row rows = some rows') :
    (∀ r ∈ rows, key r ≠ key row) ∧ rows' = rows ++ [row] := by
  unfold insertNew at h
  split_ifs at h with htaken
  cases h
  exact ⟨fun r hr hkey => htaken ⟨r, hr, hkey⟩, rfl⟩

theorem nodup_keys_append {row : ρ} {rows : List ρ} (hnodup : (rows.map key).Nodup)
    (hfree : ∀ r ∈ rows, key r ≠ key row) : ((rows ++ [row]).map key).Nodup := by
  rw [List.map_append, List.map_singleton, List.nodup_append]
  refine ⟨hnodup, List.nodup_singleton _, ?_⟩
  rintro k hk k' hk' rfl
  obtain rfl := List.mem_singleton.mp hk'
  obtain ⟨r, hr, hkey⟩ := List.mem_map.mp hk
  exact hfree r hr hkey

/-- INSERT with ON CONFLICT (key) DO UPDATE. -/
def insertOrUpdate (key : ρ → κ) (update : ρ → ρ) (row : ρ) (rows : List ρ) : List ρ :=
  if ∃ r ∈ rows, key r = key row then updateWhere (fun r => key r = key row) update rows
  else rows ++ [row]

section Upsert

variable {update : ρ → ρ} {row : ρ} {rows : List ρ}

theorem exists_mem_insertOrUpdate (key : ρ → κ) (update : ρ → ρ) (row : ρ) {r : ρ} (hr : r ∈ rows) :
    ∃ r' ∈ insertOrUpdate key update row rows, r' = if key r = key row then update r else r := by
  by_cases htaken : ∃ r ∈ rows, key r = key row
  · rw [insertOrUpdate, if_pos htaken]
    exact ⟨_, (mem_updateWhere _ _).mpr ⟨r, hr, rfl⟩, rfl⟩
  · rw [insertOrUpdate, if_neg htaken]
    have hkey : key r ≠ key row := fun heq => htaken ⟨r, hr, heq⟩
    exact ⟨r, List.mem_append_left _ hr, (if_neg hkey).symm⟩

/-- The statement leaves a row with its key: the one that was there, or the new one. -/
theorem exists_key_insertOrUpdate (key : ρ → κ) (update : ρ → ρ) (row : ρ) (rows : List ρ)
    (hupdate : ∀ r, key (update r) = key r) :
    ∃ r ∈ insertOrUpdate key update row rows, key r = key row ∧
      ((∃ r' ∈ rows, key r' = key row ∧ r = update r') ∨ r = row) := by
  by_cases htaken : ∃ r ∈ rows, key r = key row
  · obtain ⟨r, hr, hkey⟩ := htaken
    obtain ⟨r', hr', rfl⟩ := exists_mem_insertOrUpdate key update row hr
    rw [if_pos hkey] at hr'
    exact ⟨_, hr', (hupdate r).trans hkey, Or.inl ⟨r, hr, hkey, rfl⟩⟩
  · rw [insertOrUpdate, if_neg htaken]
    exact ⟨row, List.mem_append_right _ List.mem_cons_self, rfl, Or.inr rfl⟩

theorem nodup_keys_insertOrUpdate (hupdate : ∀ r, key (update r) = key r)
    (hnodup : (rows.map key).Nodup) : ((insertOrUpdate key update row rows).map key).Nodup := by
  by_cases htaken : ∃ r ∈ rows, key r = key row
  · rw [insertOrUpdate, if_pos htaken]
    exact nodup_keys_updateWhere _ hupdate hnodup
  · rw [insertOrUpdate, if_neg htaken]
    exact nodup_keys_append hnodup fun r hr hkey => htaken ⟨r, hr, hkey⟩

end Upsert

end Keys

section Select

/-- SELECT … WHERE p ORDER BY le LIMIT n. Insertion sort is stable, so rows the order does
not separate keep their table order. -/
def selectFirst (p : ρ → Prop) [DecidablePred p] (le : ρ → ρ → Prop) [DecidableRel le]
    (n : ℕ) (rows : List ρ) : List ρ :=
  ((rows.filter fun r => p r).insertionSort le).take n

variable {p : ρ → Prop} [DecidablePred p] {le : ρ → ρ → Prop} [DecidableRel le]

theorem mem_of_mem_selectFirst {n : ℕ} {rows : List ρ} {r : ρ}
    (h : r ∈ selectFirst p le n rows) : r ∈ rows ∧ p r := by
  have hsorted := List.mem_of_mem_take h
  rw [List.mem_insertionSort] at hsorted
  simpa using hsorted

theorem length_selectFirst {n : ℕ} {rows : List ρ} :
    (selectFirst p le n rows).length = min n (rows.countP fun r => p r) := by
  simp [selectFirst, List.countP_eq_length_filter]

theorem exists_sorted_selectFirst {n : ℕ} {rows : List ρ} :
    ∃ sorted, sorted.Perm (rows.filter fun r => p r) ∧ selectFirst p le n rows <+: sorted :=
  ⟨_, List.perm_insertionSort le _, List.take_prefix _ _⟩

theorem nodup_map_selectFirst {key : ρ → κ} {n : ℕ} {rows : List ρ}
    (hunique : (rows.map key).Nodup) : ((selectFirst p le n rows).map key).Nodup := by
  obtain ⟨sorted, hperm, hstart⟩ : ∃ sorted, sorted.Perm (rows.filter fun r => p r) ∧
      selectFirst p le n rows <+: sorted := exists_sorted_selectFirst
  have hsorted : (sorted.map key).Nodup :=
    (hperm.map key).nodup_iff.mpr (hunique.sublist (List.filter_sublist.map _))
  exact hsorted.sublist (hstart.sublist.map key)

/-- The same SELECT under a predicate and an order that say the same. -/
theorem selectFirst_congr {q : ρ → Prop} [DecidablePred q] {le' : ρ → ρ → Prop}
    [DecidableRel le'] {n : ℕ} {rows : List ρ} (hp : ∀ r ∈ rows, p r ↔ q r)
    (hle : ∀ a b, le a b ↔ le' a b) : selectFirst p le n rows = selectFirst q le' n rows := by
  have hfilter : (rows.filter fun r => p r) = rows.filter fun r => q r :=
    List.filter_congr fun r hr => by simp [hp r hr]
  obtain rfl : le = le' := funext fun a => funext fun b => propext (hle a b)
  unfold selectFirst
  rw [hfilter]
  congr 2

/-- Under a total order the first selected row comes before every row that qualifies. -/
theorem selectFirst_head_le [Std.Total le] [IsTrans ρ le] {n : ℕ} {rows : List ρ} {r r' : ρ}
    (h : (selectFirst p le n rows).head? = some r) (hr' : r' ∈ rows) (hp : p r') : le r r' := by
  have hpairwise := List.pairwise_insertionSort le (rows.filter fun r => p r)
  have hmem : r' ∈ (rows.filter fun r => p r).insertionSort le := by
    rw [List.mem_insertionSort, List.mem_filter]
    exact ⟨hr', decide_eq_true hp⟩
  cases hsorted : (rows.filter fun r => p r).insertionSort le with
  | nil =>
      rw [hsorted] at hmem
      cases hmem
  | cons first rest =>
      have hfirst : first = r := by
        cases n with
        | zero => simp [selectFirst] at h
        | succ n => simpa [selectFirst, hsorted] using h
      subst hfirst
      rw [hsorted] at hmem hpairwise
      rcases List.mem_cons.mp hmem with rfl | hrest
      · rcases Std.Total.total (r := le) r' r' with hself | hself <;> exact hself
      · exact (List.pairwise_cons.mp hpairwise).1 r' hrest

end Select

section Sums

variable (units : ρ → ℕ)

/-- An UPDATE adds no more to the total of some rows than the rows it touches count. -/
theorem sum_filter_updateWhere_le (q p : ρ → Prop) [DecidablePred q] [DecidablePred p]
    {f : ρ → ρ} (hf : ∀ r, units (f r) = units r) (rows : List ρ) :
    (((updateWhere p f rows).filter fun r => q r).map units).sum ≤
      ((rows.filter fun r => q r).map units).sum +
        ((rows.filter fun r => p r).map units).sum := by
  induction rows with
  | nil => exact Nat.zero_le _
  | cons r rows ih =>
      simp only [updateWhere, List.map_cons] at ih ⊢
      by_cases hp : p r
      · by_cases hq : q r <;> by_cases hqf : q (f r) <;> simp [hp, hq, hqf, hf] <;> omega
      · by_cases hq : q r <;> simp [hp, hq] <;> omega

/-- Rows found again by the keys of some rows of the table count no more than those rows. -/
theorem sum_filter_keys_le [DecidableEq κ] {key : ρ → κ} {rows selected : List ρ}
    (hnodup : (rows.map key).Nodup) (hsub : ∀ r ∈ selected, r ∈ rows) :
    ((rows.filter fun r => key r ∈ selected.map key).map units).sum ≤
      (selected.map units).sum := by
  have hfound : ∀ r ∈ rows.filter fun r => key r ∈ selected.map key, r ∈ selected := by
    intro r hr
    obtain ⟨hrows, hkey⟩ := List.mem_filter.mp hr
    obtain ⟨s, hs, hsame⟩ := List.mem_map.mp (of_decide_eq_true hkey)
    rw [← List.inj_on_of_nodup_map hnodup (hsub s hs) hrows hsame]
    exact hs
  have hrows : rows.Nodup := hnodup.of_map key
  obtain ⟨listed, hperm, hsublist⟩ := List.subperm_of_subset (hrows.filter _) hfound
  rw [← (hperm.map units).sum_eq]
  exact (hsublist.map units).sum_le_sum (fun _ _ => Nat.zero_le _)

end Sums

end TableStatements
