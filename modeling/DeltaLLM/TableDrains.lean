import DeltaLLM.TableStatements

/-! # Tables drained by bounded updates

A bounded update picks some rows that qualify and rewrites them so that they no longer do. Several
of them in a row rewrite a growing set of keys and leave every other row alone.
-/
namespace TableDrains

open TableStatements

variable {ρ κ : Type*}

variable (key : ρ → κ) (p : ρ → Prop) (rewrite : ρ → ρ) {rows : List ρ} {keys : List κ}

/-- Distinct keys of rows that qualified. -/
structure Drained (rows : List ρ) (keys : List κ) : Prop where
  nodup : keys.Nodup
  source : ∀ k ∈ keys, ∃ row ∈ rows, key row = k ∧ p row

theorem drained_nil : Drained key p rows [] := ⟨List.nodup_nil, by simp⟩

variable [DecidableEq κ]

/-- The rows of these keys rewritten. -/
def rewritten (keys : List κ) (rows : List ρ) : List ρ :=
  rows.map fun row => if key row ∈ keys then rewrite row else row

theorem rewritten_nil : rewritten key rewrite [] rows = rows := by
  simp [rewritten]

variable {key p rewrite}

/-- A rewritten row no longer qualifies, so the rows that still do are old ones. -/
theorem mem_rewritten_iff (hdone : ∀ row, ¬p (rewrite row)) {row : ρ} :
    row ∈ rewritten key rewrite keys rows ∧ p row ↔ row ∈ rows ∧ key row ∉ keys ∧ p row := by
  constructor
  · rintro ⟨hrow, hp⟩
    obtain ⟨old, hold, rfl⟩ := List.mem_map.mp hrow
    by_cases hkey : key old ∈ keys
    · rw [if_pos hkey] at hp
      exact absurd hp (hdone old)
    · rw [if_neg hkey] at hp ⊢
      exact ⟨hold, hkey, hp⟩
  · rintro ⟨hrow, hkey, hp⟩
    exact ⟨List.mem_map.mpr ⟨row, hrow, if_neg hkey⟩, hp⟩

variable [DecidablePred p]

theorem countP_rewritten (hdone : ∀ row, ¬p (rewrite row)) :
    (rewritten key rewrite keys rows).countP (fun row => p row) =
      rows.countP fun row => p row ∧ key row ∉ keys := by
  rw [rewritten, List.countP_map]
  refine List.countP_congr fun row _ => ?_
  by_cases hkey : key row ∈ keys <;> simp [hkey, hdone]

/-- The rows still to drain. -/
theorem countP_add_length (hdone : ∀ row, ¬p (rewrite row)) (hunique : (rows.map key).Nodup)
    (h : Drained key p rows keys) :
    (rewritten key rewrite keys rows).countP (fun row => p row) + keys.length =
      rows.countP fun row => p row := by
  have hperm : ((rows.filter fun row => p row ∧ key row ∈ keys).map key).Perm keys := by
    refine (List.perm_ext_iff_of_nodup (hunique.sublist (List.filter_sublist.map _)) h.nodup).mpr ?_
    intro k
    simp only [List.mem_map, List.mem_filter, decide_eq_true_eq]
    constructor
    · rintro ⟨row, ⟨-, -, hkey⟩, rfl⟩
      exact hkey
    · intro hk
      obtain ⟨row, hrow, rfl, hp⟩ := h.source k hk
      exact ⟨row, ⟨hrow, hp, hk⟩, rfl⟩
  have hlength := hperm.length_eq
  rw [List.length_map, ← List.countP_eq_length_filter] at hlength
  rw [countP_rewritten hdone, ← hlength]
  have hsplit := List.countP_eq_countP_filter_add rows (fun row => decide (p row))
    (fun row => decide (key row ∈ keys))
  rw [hsplit, List.countP_filter, List.countP_filter]
  simp [Nat.add_comm]

variable (le : ρ → ρ → Prop) [DecidableRel le]

/-- One bounded update after others: it takes as many rows as it may and as are left. -/
theorem Drained.step (n : ℕ) (hdone : ∀ row, ¬p (rewrite row))
    (hkey : ∀ row, key (rewrite row) = key row)
    (hunique : (rows.map key).Nodup) (h : Drained key p rows keys) :
    let candidates := selectFirst p le n (rewritten key rewrite keys rows)
    Drained key p rows (keys ++ candidates.map key) ∧
      updateWhere (fun row => key row ∈ candidates.map key) rewrite
          (rewritten key rewrite keys rows) =
        rewritten key rewrite (keys ++ candidates.map key) rows ∧
      candidates.length =
        min n ((rewritten key rewrite keys rows).countP fun row => p row) ∧
      ∀ row ∈ candidates, row ∈ rows ∧ key row ∉ keys ∧ p row := by
  intro candidates
  have hsource : ∀ row ∈ candidates, row ∈ rows ∧ key row ∉ keys ∧ p row := fun row hrow =>
    (mem_rewritten_iff hdone).mp (mem_of_mem_selectFirst hrow)
  have hkeys : (rewritten key rewrite keys rows).map key = rows.map key := by
    rw [rewritten, List.map_map]
    refine List.map_congr_left fun row _ => ?_
    by_cases hrow : key row ∈ keys <;> simp [hrow, hkey]
  have hcandidates : (candidates.map key).Nodup := nodup_map_selectFirst (hkeys ▸ hunique)
  have hdisjoint : ∀ k ∈ candidates.map key, k ∉ keys := by
    intro k hk
    obtain ⟨row, hrow, rfl⟩ := List.mem_map.mp hk
    exact (hsource row hrow).2.1
  refine ⟨⟨?_, ?_⟩, ?_, length_selectFirst, hsource⟩
  · refine List.nodup_append.mpr ⟨h.nodup, hcandidates, ?_⟩
    rintro k hk k' hk' rfl
    exact hdisjoint k hk' hk
  · intro k hk
    rcases List.mem_append.mp hk with hold | hnew
    · exact h.source k hold
    · obtain ⟨row, hrow, rfl⟩ := List.mem_map.mp hnew
      exact ⟨row, (hsource row hrow).1, rfl, (hsource row hrow).2.2⟩
  · rw [updateWhere, rewritten, rewritten, List.map_map]
    refine List.map_congr_left fun row _ => ?_
    by_cases hold : key row ∈ keys
    · have hnew : key row ∉ candidates.map key := fun hnew => hdisjoint _ hnew hold
      simp only [Function.comp_apply, hold, hkey, if_neg hnew, List.mem_append, true_or, if_true]
    · simp only [Function.comp_apply, List.mem_append, hold, false_or, if_false]

end TableDrains
