import Mathlib.Algebra.Order.Ring.Pow
import Mathlib.Tactic.Linarith
import Mathlib.Tactic.Positivity

/-!
# Products that are kept below one

`clampedRun` cuts the product of the ratios off at one after each factor, `prodClamped` cuts each factor off.
-/

namespace VllmAscend

variable {α : Type*} [Field α] [LinearOrder α] [IsStrictOrderedRing α]

def clampedRun (r : Nat → α) : Nat → α
  | 0 => 1
  | k + 1 => min (clampedRun r k * r k) 1

/-- The `cumprod` of the ratios below `k`, each clamped. -/
def prodClamped (r : Nat → α) (k : Nat) : α := ((List.range k).map fun i => min (r i) 1).prod

/-- A ratio above one comes after ratios of at least one, or after the product is zero. -/
def RisesFirst (r : Nat → α) (n : Nat) : Prop := ∀ k < n, 1 < r k → (∀ j < k, 1 ≤ r j) ∨ ∃ j < k, r j = 0

section Products

variable {r : Nat → α}

omit [IsStrictOrderedRing α] in
theorem prodClamped_succ (r : Nat → α) (k : Nat) : prodClamped r (k + 1) = prodClamped r k * min (r k) 1 := by
  simp [prodClamped, List.range_succ]

omit [IsStrictOrderedRing α] in
theorem prodClamped_congr {r' : Nat → α} {k : Nat} (h : ∀ i < k, r i = r' i) : prodClamped r k = prodClamped r' k :=
  congrArg List.prod (List.map_congr_left fun i hi => by rw [h i (List.mem_range.mp hi)])

theorem prodClamped_nonneg (hr : ∀ k, 0 ≤ r k) (k : Nat) : 0 ≤ prodClamped r k := by
  induction k with
  | zero => exact zero_le_one
  | succ k ih =>
    rw [prodClamped_succ]
    exact mul_nonneg ih (le_min (hr k) zero_le_one)

theorem prodClamped_anti (hr : ∀ k, 0 ≤ r k) {j k : Nat} (h : j ≤ k) : prodClamped r k ≤ prodClamped r j := by
  induction k, h using Nat.le_induction with
  | base => exact le_refl _
  | succ k _ ih =>
    rw [prodClamped_succ]
    exact (mul_le_of_le_one_right (prodClamped_nonneg hr k) (min_le_right _ _)).trans ih

theorem prodClamped_le_one (hr : ∀ k, 0 ≤ r k) (k : Nat) : prodClamped r k ≤ 1 := prodClamped_anti hr (Nat.zero_le k)

theorem prodClamped_pos {k : Nat} (h : ∀ j < k, 0 < r j) : 0 < prodClamped r k := by
  induction k with
  | zero => exact zero_lt_one
  | succ k ih =>
    rw [prodClamped_succ]
    exact mul_pos (ih fun j hj => h j (hj.trans (Nat.lt_succ_self k))) (lt_min (h k (Nat.lt_succ_self k)) zero_lt_one)

omit [IsStrictOrderedRing α] in
theorem prodClamped_eq_one {k : Nat} (h : ∀ j < k, 1 ≤ r j) : prodClamped r k = 1 := by
  induction k with
  | zero => rfl
  | succ k ih =>
    rw [prodClamped_succ, ih fun j hj => h j (hj.trans (Nat.lt_succ_self k)), min_eq_right (h k (Nat.lt_succ_self k)),
      one_mul]

section

variable (hr : ∀ k, 0 ≤ r k)

include hr

theorem prodClamped_eq_zero {j k : Nat} (hj : j < k) (hzero : r j = 0) : prodClamped r k = 0 := by
  have hsucc : prodClamped r (j + 1) = 0 := by rw [prodClamped_succ, hzero, min_eq_left zero_le_one, mul_zero]
  exact le_antisymm ((prodClamped_anti hr hj).trans_eq hsucc) (prodClamped_nonneg hr k)

theorem prodClamped_lt_one {j k : Nat} (hj : j < k) (hless : r j < 1) : prodClamped r k < 1 := by
  have hsucc : prodClamped r (j + 1) ≤ r j := by
    rw [prodClamped_succ, min_eq_left hless.le]
    exact mul_le_of_le_one_left (hr j) (prodClamped_le_one hr j)
  exact ((prodClamped_anti hr hj).trans hsucc).trans_lt hless

theorem clampedRun_eq_prodClamped {n : Nat} (h : RisesFirst r n) {k : Nat} (hk : k ≤ n) :
    clampedRun r k = prodClamped r k := by
  induction k with
  | zero => rfl
  | succ k ih =>
    rw [clampedRun, ih (Nat.le_of_succ_le hk), prodClamped_succ]
    rcases le_or_gt (r k) 1 with hle | hgt
    · rw [min_eq_left hle]
      exact min_eq_left (mul_le_one₀ (prodClamped_le_one hr k) (hr k) hle)
    · rcases h k hk hgt with hones | ⟨j, hj, hzero⟩
      · rw [prodClamped_eq_one hones, one_mul, one_mul]
      · rw [prodClamped_eq_zero hr hj hzero, zero_mul, zero_mul]
        exact min_eq_left zero_le_one

theorem exists_late_rise {n : Nat} (h : ¬ RisesFirst r n) :
    ∃ k < n, 0 < prodClamped r k ∧ prodClamped r k < clampedRun r (k + 1) ∧
      prodClamped r (k + 1) = prodClamped r k := by
  classical
  have hlate : ∃ k, ¬ RisesFirst r k := ⟨n, h⟩
  obtain ⟨k, hk⟩ : ∃ k, Nat.find hlate = k + 1 := by
    refine Nat.exists_eq_add_one.mpr (Nat.pos_of_ne_zero fun hzero => ?_)
    have hspec := Nat.find_spec hlate
    rw [hzero] at hspec
    exact hspec fun k hk => absurd hk (Nat.not_lt_zero k)
  have hbefore : RisesFirst r k := by
    by_contra hnot
    exact Nat.find_min hlate (by omega) hnot
  have hspec := Nat.find_spec hlate
  rw [hk] at hspec
  have hrise : 1 < r k ∧ (∃ j < k, r j < 1) ∧ ∀ j < k, r j ≠ 0 := by
    by_contra hnot
    refine hspec fun i hi hgt => ?_
    rcases Nat.lt_succ_iff_lt_or_eq.mp hi with hi | rfl
    · exact hbefore i hi hgt
    · by_contra hcases
      rw [not_or] at hcases
      refine hnot ⟨hgt, ?_, fun j hj hzero => hcases.2 ⟨j, hj, hzero⟩⟩
      by_contra hnone
      exact hcases.1 fun j hj => le_of_not_gt fun hless => hnone ⟨j, hj, hless⟩
  obtain ⟨hgt, ⟨j, hj, hless⟩, hnonzero⟩ := hrise
  have hpos : 0 < prodClamped r k := prodClamped_pos fun j hj => lt_of_le_of_ne (hr j) (hnonzero j hj).symm
  refine ⟨k, ?_, hpos, ?_, ?_⟩
  · have hle := Nat.find_min' hlate h
    omega
  · rw [clampedRun, clampedRun_eq_prodClamped hr hbefore (le_refl k)]
    exact lt_min (lt_mul_of_one_lt_right hpos hgt) (prodClamped_lt_one hr hj hless)
  · rw [prodClamped_succ, min_eq_right hgt.le, mul_one]

end

end Products

theorem exists_factors_between {low high : α} (hlow : 0 ≤ low) (h : low < high) (n : Nat) :
    ∃ first later : α, low < first ∧ first < high ∧ 0 < later ∧ later < 1 ∧ low < first * later ^ n := by
  obtain ⟨first, hfirst, hhigh⟩ := exists_between h
  have hpos : 0 < first := hlow.trans_lt hfirst
  have hratio : low / first < 1 := (div_lt_one hpos).mpr hfirst
  have hratio0 : 0 ≤ low / first := div_nonneg hlow hpos.le
  have hn : (0 : α) ≤ n := Nat.cast_nonneg n
  -- Bernoulli's inequality with a step that `n` factors do not use up.
  obtain ⟨gap, hgap, hgapn⟩ : ∃ gap : α, (0 < gap ∧ gap < 1) ∧ n * gap < 1 - low / first := by
    refine ⟨(1 - low / first) / (n + 2), ⟨by apply div_pos <;> linarith, ?_⟩, ?_⟩
    · rw [div_lt_one (by linarith)]
      linarith
    · rw [mul_div_assoc', div_lt_iff₀ (by linarith)]
      nlinarith
  refine ⟨first, 1 - gap, hfirst, hhigh, by linarith, by linarith, ?_⟩
  have hbernoulli := one_add_mul_le_pow (a := -gap) (by linarith) n
  rw [← sub_eq_add_neg] at hbernoulli
  calc low = first * (low / first) := (mul_div_cancel₀ low hpos.ne').symm
    _ < first * (1 + n * -gap) := mul_lt_mul_of_pos_left (by linarith) hpos
    _ ≤ first * (1 - gap) ^ n := mul_le_mul_of_nonneg_left hbernoulli hpos.le

end VllmAscend
