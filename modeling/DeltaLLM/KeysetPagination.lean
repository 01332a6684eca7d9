import Mathlib.Order.Defs.LinearOrder
import DeltaLLM.TableStatements

/-! # Keyset pagination

A reader asks for the next `limit` rows in key order after the last key it has read, and stops
at an empty page. Over a table with distinct keys it reads every row once, in key order.
-/
namespace KeysetPagination

open TableStatements

variable {ρ κ : Type*} [LinearOrder κ] (key : ρ → κ)

/-- `after IS NULL OR key > after`. -/
def Beyond (after : Option κ) (r : ρ) : Prop := ∀ k ∈ after, k < key r

instance (after : Option κ) (r : ρ) : Decidable (Beyond key after r) := by
  unfold Beyond
  exact inferInstance

@[simp] theorem beyond_none (r : ρ) : Beyond key none r := by
  simp [Beyond]

@[simp] theorem beyond_some (k : κ) (r : ρ) : Beyond key (some k) r ↔ k < key r := by
  simp [Beyond]

/-- The table in key order. -/
def inKeyOrder (rows : List ρ) : List ρ := rows.insertionSort fun a b => key a ≤ key b

def page (limit : ℕ) (after : Option κ) (rows : List ρ) : List ρ :=
  selectFirst (Beyond key after) (fun a b => key a ≤ key b) limit rows

/-- The reader's loop. `none` means that the fuel ran out before an empty page. -/
def readPages (limit : ℕ) (rows : List ρ) : ℕ → Option κ → Option (List ρ)
  | 0, _ => none
  | fuel + 1, after =>
      match (page key limit after rows).getLast? with
      | none => some []
      | some last =>
          (readPages limit rows fuel (some (key last))).map (page key limit after rows ++ ·)

/-- The rows that a reader has still to read. -/
def remaining (after : Option κ) (rows : List ρ) : List ρ :=
  inKeyOrder key (rows.filter fun r => Beyond key after r)

variable {key} {rows : List ρ}

theorem perm_inKeyOrder : (inKeyOrder key rows).Perm rows := List.perm_insertionSort _ _

theorem page_eq_take (limit : ℕ) (after : Option κ) :
    page key limit after rows = (remaining key after rows).take limit := rfl

theorem remaining_none : remaining key none rows = inKeyOrder key rows := by
  simp [remaining]

/-- Distinct keys make the order strict. -/
theorem pairwise_inKeyOrder (hn : (rows.map key).Nodup) :
    (inKeyOrder key rows).Pairwise fun a b => key a < key b := by
  have : Std.Total fun a b : ρ => key a ≤ key b := ⟨fun a b => le_total (key a) (key b)⟩
  have : IsTrans ρ fun a b => key a ≤ key b := ⟨fun _ _ _ hab hbc => le_trans hab hbc⟩
  have hsorted : (inKeyOrder key rows).Pairwise fun a b => key a ≤ key b :=
    List.pairwise_insertionSort _ _
  have hdistinct : (inKeyOrder key rows).Pairwise fun a b => key a ≠ key b := by
    rw [← List.pairwise_map]
    exact (perm_inKeyOrder.map key).nodup_iff.mpr hn
  exact (hsorted.and hdistinct).imp fun h => lt_of_le_of_ne h.1 h.2

/-- A strictly ordered list is determined by its rows. -/
theorem eq_of_perm_of_increasing {xs ys : List ρ} (hxs : xs.Pairwise fun a b => key a < key b)
    (hys : ys.Pairwise fun a b => key a < key b) (h : xs.Perm ys) : xs = ys :=
  h.eq_of_pairwise (fun _ _ _ _ hab hba => absurd hba (lt_asymm hab)) hxs hys

omit [LinearOrder κ] in
theorem nodup_filter (hn : (rows.map key).Nodup) (p : ρ → Bool) :
    ((rows.filter p).map key).Nodup :=
  hn.sublist (List.filter_sublist.map key)

/-- The filter commutes with the key order. -/
theorem inKeyOrder_filter (hn : (rows.map key).Nodup) (p : ρ → Bool) :
    inKeyOrder key (rows.filter p) = (inKeyOrder key rows).filter p := by
  refine eq_of_perm_of_increasing (pairwise_inKeyOrder (nodup_filter hn p))
    ((pairwise_inKeyOrder hn).filter p) ?_
  exact perm_inKeyOrder.trans (perm_inKeyOrder.symm.filter p)

/-- What is left after a page that ended in `last`. -/
theorem remaining_after {after : Option κ} (hn : (rows.map key).Nodup) {front back : List ρ}
    {last : ρ} (hsplit : remaining key after rows = front ++ last :: back) :
    remaining key (some (key last)) rows = back := by
  have hstrict : (front ++ last :: back).Pairwise fun a b => key a < key b := by
    rw [← hsplit]
    exact pairwise_inKeyOrder (nodup_filter hn _)
  obtain ⟨_, htail, hcross⟩ := List.pairwise_append.mp hstrict
  obtain ⟨hlast, hback⟩ := List.pairwise_cons.mp htail
  have hmem : last ∈ remaining key after rows := by
    rw [hsplit]
    simp
  have hbeyond : Beyond key after last := by
    rw [remaining, perm_inKeyOrder.mem_iff, List.mem_filter] at hmem
    simpa using hmem.2
  have hfilter : (remaining key after rows).filter (fun r => key last < key r) = back := by
    have hfront : front.filter (fun r => key last < key r) = [] := by
      rw [List.filter_eq_nil_iff]
      intro r hr
      have := hcross r hr last List.mem_cons_self
      simpa using this.le
    have hkeep : back.filter (fun r => key last < key r) = back := by
      rw [List.filter_eq_self]
      intro r hr
      simpa using hlast r hr
    rw [hsplit, List.filter_append, List.filter_cons, hfront, hkeep]
    simp
  rw [← hfilter, remaining, remaining, ← inKeyOrder_filter (nodup_filter hn _), List.filter_filter]
  congr 1
  refine List.filter_congr fun r _ => ?_
  -- a row beyond `last` is beyond everything `last` is beyond
  have himp : key last < key r → Beyond key after r := fun hr k hk => (hbeyond k hk).trans hr
  by_cases hr : key last < key r
  · simp [hr, himp hr]
  · simp [hr]

/-- The loop ends within one page for each remaining row and reads all of them. -/
theorem readPages_remaining {limit : ℕ} (hlimit : 0 < limit) (hn : (rows.map key).Nodup) :
    ∀ (fuel : ℕ) (after : Option κ), (remaining key after rows).length < fuel →
      readPages key limit rows fuel after = some (remaining key after rows) := by
  intro fuel
  induction fuel with
  | zero =>
      intro after h
      exact absurd h (Nat.not_lt_zero _)
  | succ fuel ih =>
      intro after hfuel
      cases hlast : (page key limit after rows).getLast? with
      | none =>
          have hempty : page key limit after rows = [] := List.getLast?_eq_none_iff.mp hlast
          rw [page_eq_take, List.take_eq_nil_iff] at hempty
          have hnone : remaining key after rows = [] := hempty.resolve_left hlimit.ne'
          simp [readPages, hlast, hnone]
      | some last =>
          obtain ⟨front, hpage⟩ := List.getLast?_eq_some_iff.mp hlast
          have hsplit : remaining key after rows =
              front ++ last :: (remaining key after rows).drop limit := by
            calc remaining key after rows
                = page key limit after rows ++ (remaining key after rows).drop limit :=
                  (List.take_append_drop limit _).symm
              _ = front ++ last :: (remaining key after rows).drop limit := by simp [hpage]
          have hrest := remaining_after hn hsplit
          have hshort : (remaining key (some (key last)) rows).length < fuel := by
            have hlen := congrArg List.length hsplit
            rw [List.length_append, List.length_cons] at hlen
            rw [hrest]
            omega
          have hread := ih (some (key last)) hshort
          have hjoin : page key limit after rows ++ (remaining key after rows).drop limit =
              remaining key after rows := List.take_append_drop limit _
          simp [readPages, hlast, hread, hrest, hjoin]

/-- With fuel for one page a row the reader returns the table in key order. -/
theorem readPages_eq {limit fuel : ℕ} (hlimit : 0 < limit) (hn : (rows.map key).Nodup)
    (hfuel : rows.length < fuel) :
    readPages key limit rows fuel none = some (inKeyOrder key rows) := by
  rw [← remaining_none]
  refine readPages_remaining hlimit hn fuel none ?_
  rw [remaining_none, perm_inKeyOrder.length_eq]
  exact hfuel

end KeysetPagination
