import Mathlib.Algebra.BigOperators.Fin
import Mathlib.Algebra.Order.BigOperators.Group.Finset
import Mathlib.Algebra.Order.Field.Basic
import Mathlib.Data.Rat.Cast.Order
import Mathlib.Tactic.FieldSimp
import Mathlib.Tactic.Ring
import Mathlib.Tactic.Linarith

/-! # Largest-remainder rounding

A total is split over the items of a finite set in proportion to their weights. Every item first
gets the whole part of its quota; the units that are left go to items whose remainders no other
item's exceeds.
-/
namespace LargestRemainder

open Finset

variable {ι : Type*}

/-- The whole part of an item's quota, and what the division leaves of it. -/
def wholePart (total weightSum weight : ℕ) : ℕ := total * weight / weightSum

def remainder (total weightSum weight : ℕ) : ℕ := total * weight % weightSum

def share [DecidableEq ι] (total weightSum : ℕ) (weight : ι → ℕ) (raised : Finset ι) (i : ι) : ℕ :=
  wholePart total weightSum (weight i) + if i ∈ raised then 1 else 0

/-- One unit each goes to items with the largest remainders, as many as the whole parts leave. -/
structure Raises (items : Finset ι) (weight : ι → ℕ) (total : ℕ) (raised : Finset ι) : Prop where
  subset : raised ⊆ items
  card : raised.card = total - ∑ i ∈ items, wholePart total (∑ j ∈ items, weight j) (weight i)
  largest : ∀ i ∈ raised, ∀ j ∈ items, j ∉ raised →
    remainder total (∑ k ∈ items, weight k) (weight j) ≤
      remainder total (∑ k ∈ items, weight k) (weight i)

section Division

variable (total weightSum weight : ℕ)

theorem wholePart_add_remainder :
    weightSum * wholePart total weightSum weight + remainder total weightSum weight =
      total * weight :=
  Nat.div_add_mod _ _

theorem remainder_lt {weightSum : ℕ} (hpos : 0 < weightSum) :
    remainder total weightSum weight < weightSum :=
  Nat.mod_lt _ hpos

theorem wholePart_mono {lighter heavier : ℕ} (h : lighter ≤ heavier) :
    wholePart total weightSum lighter ≤ wholePart total weightSum heavier :=
  Nat.div_le_div_right (Nat.mul_le_mul_left total h)

end Division

section Rounding

variable {items raised : Finset ι} {weight : ι → ℕ} {total : ℕ}

theorem sum_parts (items : Finset ι) (weight : ι → ℕ) (total : ℕ) :
    (∑ j ∈ items, weight j) * ∑ i ∈ items, wholePart total (∑ j ∈ items, weight j) (weight i) +
        ∑ i ∈ items, remainder total (∑ j ∈ items, weight j) (weight i) =
      total * ∑ j ∈ items, weight j := by
  rw [mul_sum, ← sum_add_distrib, mul_sum]
  exact sum_congr rfl fun i _ => wholePart_add_remainder total _ (weight i)

section

variable (hpos : 0 < ∑ j ∈ items, weight j)
include hpos

variable (total) in
theorem sum_wholePart_le :
    ∑ i ∈ items, wholePart total (∑ j ∈ items, weight j) (weight i) ≤ total := by
  have hparts := sum_parts items weight total
  have hmul : (∑ j ∈ items, weight j) *
      ∑ i ∈ items, wholePart total (∑ j ∈ items, weight j) (weight i) ≤
        (∑ j ∈ items, weight j) * total := by
    rw [mul_comm _ total]
    omega
  exact Nat.le_of_mul_le_mul_left hmul hpos

/-- The remainders are worth exactly the units that the whole parts leave. -/
theorem sum_remainder (h : Raises items weight total raised) :
    ∑ i ∈ items, remainder total (∑ j ∈ items, weight j) (weight i) =
      (∑ j ∈ items, weight j) * raised.card := by
  have hparts := sum_parts items weight total
  have hle := sum_wholePart_le total hpos
  rw [h.card, Nat.mul_sub, mul_comm _ total]
  omega

variable (total) in
/-- There are enough items to raise. -/
theorem sub_sum_wholePart_le_card :
    total - ∑ i ∈ items, wholePart total (∑ j ∈ items, weight j) (weight i) ≤ items.card := by
  have hparts := sum_parts items weight total
  have hbound := sum_le_card_nsmul items
    (fun i => remainder total (∑ j ∈ items, weight j) (weight i)) (∑ j ∈ items, weight j)
    fun i _ => (remainder_lt total (weight i) hpos).le
  rw [smul_eq_mul, mul_comm] at hbound
  have hle := sum_wholePart_le total hpos
  have hmul : (∑ j ∈ items, weight j) *
      (total - ∑ i ∈ items, wholePart total (∑ j ∈ items, weight j) (weight i)) ≤
        (∑ j ∈ items, weight j) * items.card := by
    rw [Nat.mul_sub, mul_comm _ total]
    omega
  exact Nat.le_of_mul_le_mul_left hmul hpos

variable [DecidableEq ι]

theorem sum_share (h : Raises items weight total raised) :
    ∑ i ∈ items, share total (∑ j ∈ items, weight j) weight raised i = total := by
  have hle := sum_wholePart_le total hpos
  have hraised : ∑ i ∈ items, (if i ∈ raised then 1 else 0) = raised.card := by
    rw [sum_ite_mem, inter_eq_right.mpr h.subset, card_eq_sum_ones]
  simp only [share, sum_add_distrib]
  rw [hraised, h.card]
  omega

/-- A raised item has a remainder: otherwise the raised items alone would have to be worth more
than one unit each. -/
theorem remainder_pos_of_raised (h : Raises items weight total raised) {i : ι}
    (hi : i ∈ raised) : 0 < remainder total (∑ j ∈ items, weight j) (weight i) := by
  by_contra hzero
  have hzero : remainder total (∑ j ∈ items, weight j) (weight i) = 0 := by omega
  have hothers : ∀ j ∈ items, j ∉ raised.erase i →
      remainder total (∑ k ∈ items, weight k) (weight j) = 0 := by
    intro j hj hnot
    by_cases hji : j = i
    · rw [hji, hzero]
    · have hle := h.largest i hi j hj fun hmem => hnot (mem_erase.mpr ⟨hji, hmem⟩)
      omega
  have hsum := sum_remainder hpos h
  rw [← sum_subset ((erase_subset i raised).trans h.subset) hothers] at hsum
  have hbound := sum_le_card_nsmul (raised.erase i)
    (fun j => remainder total (∑ k ∈ items, weight k) (weight j)) (∑ k ∈ items, weight k)
    fun j _ => (remainder_lt total (weight j) hpos).le
  rw [hsum, smul_eq_mul, card_erase_of_mem hi, mul_comm] at hbound
  have hcard : 0 < raised.card := card_pos.mpr ⟨i, hi⟩
  have hless := Nat.le_of_mul_le_mul_right hbound hpos
  omega

/-- Both bounds of a share, multiplied out. -/
theorem share_mul_bounds (h : Raises items weight total raised) (i : ι) :
    share total (∑ j ∈ items, weight j) weight raised i * (∑ j ∈ items, weight j) <
        total * weight i + ∑ j ∈ items, weight j ∧
      total * weight i <
        share total (∑ j ∈ items, weight j) weight raised i * (∑ j ∈ items, weight j) +
          ∑ j ∈ items, weight j := by
  have hparts := wholePart_add_remainder total (∑ j ∈ items, weight j) (weight i)
  have hlt := remainder_lt total (weight i) hpos
  rw [mul_comm] at hparts
  by_cases hi : i ∈ raised
  · have hrem := remainder_pos_of_raised hpos h hi
    simp only [share, hi, if_true, Nat.add_mul, Nat.one_mul]
    omega
  · simp only [share, hi, if_false, Nat.add_zero]
    omega

/-- A share is less than one unit away from its quota. -/
theorem abs_share_sub_quota_lt (h : Raises items weight total raised) (i : ι) :
    |(share total (∑ j ∈ items, weight j) weight raised i : ℚ) -
      (total : ℚ) * weight i / (∑ j ∈ items, weight j : ℕ)| < 1 := by
  obtain ⟨hupper, hlower⟩ := share_mul_bounds hpos h i
  generalize (∑ j ∈ items, weight j) = weightSum at hpos hupper hlower ⊢
  have hsum : (0 : ℚ) < weightSum := by exact_mod_cast hpos
  have hupper' : (share total weightSum weight raised i : ℚ) * weightSum <
      total * weight i + weightSum := by exact_mod_cast hupper
  have hlower' : (total : ℚ) * weight i <
      share total weightSum weight raised i * weightSum + weightSum := by exact_mod_cast hlower
  rw [abs_sub_lt_iff, sub_lt_iff_lt_add, sub_lt_iff_lt_add, div_lt_iff₀ hsum, ← sub_lt_iff_lt_add',
    lt_div_iff₀ hsum]
  constructor
  · linarith
  · linarith

/-- A heavier item gets no less. -/
theorem share_mono (h : Raises items weight total raised) {i j : ι} (hj : j ∈ items)
    (hlight : weight i < weight j) :
    share total (∑ k ∈ items, weight k) weight raised i ≤
      share total (∑ k ∈ items, weight k) weight raised j := by
  have hwhole := wholePart_mono total (∑ k ∈ items, weight k) hlight.le
  by_cases hi : i ∈ raised
  · by_cases hraised : j ∈ raised
    · simp only [share, hi, hraised, if_true]
      omega
    · have hle := h.largest i hi j hj hraised
      have hpart := wholePart_add_remainder total (∑ k ∈ items, weight k) (weight i)
      have hpart' := wholePart_add_remainder total (∑ k ∈ items, weight k) (weight j)
      have hrem := remainder_pos_of_raised hpos h hi
      have htotal : 0 < total := by
        rcases Nat.eq_zero_or_pos total with rfl | htotal
        · simp [remainder] at hrem
        · exact htotal
      have hless := Nat.mul_lt_mul_of_pos_left hlight htotal
      have hstrict : wholePart total (∑ k ∈ items, weight k) (weight i) ≠
          wholePart total (∑ k ∈ items, weight k) (weight j) := by
        intro heq
        rw [heq] at hpart
        omega
      simp only [share, hi, hraised, if_true, if_false]
      omega
  · simp only [share, hi, if_false]
    omega

/-- A total that the weights cover gives no item more than its weight. -/
theorem share_le_weight (h : Raises items weight total raised)
    (htotal : total ≤ ∑ j ∈ items, weight j) (i : ι) :
    share total (∑ j ∈ items, weight j) weight raised i ≤ weight i := by
  have hbound := (share_mul_bounds hpos h i).1
  have hmul : total * weight i ≤ (∑ j ∈ items, weight j) * weight i :=
    Nat.mul_le_mul_right _ htotal
  have hless : share total (∑ j ∈ items, weight j) weight raised i * (∑ j ∈ items, weight j) <
      (weight i + 1) * (∑ j ∈ items, weight j) := by
    rw [Nat.add_mul, Nat.one_mul, mul_comm (weight i)]
    omega
  have hlt := Nat.lt_of_mul_lt_mul_right hless
  omega

end

end Rounding

end LargestRemainder
