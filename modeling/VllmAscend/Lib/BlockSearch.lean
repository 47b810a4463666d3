import Mathlib.Algebra.Order.BigOperators.Group.List
import VllmAscend.Lib.Pieces

/-!
# Searches block by block

A search that stops at the first block with something in it finds the whole sum where only one block has anything.
-/

namespace VllmAscend

open List

def cdiv (a b : Nat) : Nat := (a + b - 1) / b

section Sum

variable {M : Type*} [AddCommMonoid M]

theorem sum_blocks {size n : Nat} (hsize : 0 < size) (f : Nat → M) :
    ((range (cdiv n size)).map fun k => ((range size).map fun i =>
      if k * size + i < n then f (k * size + i) else 0).sum).sum = ((range n).map f).sum := by
  have hcover : n ≤ cdiv n size * size := by
    have hlt := Nat.lt_div_mul_add (a := n + size - 1) hsize
    unfold cdiv
    omega
  obtain ⟨d, hd⟩ := Nat.exists_eq_add_of_le hcover
  have hflat : ((range (cdiv n size)).map fun k => ((range size).map fun i =>
      if k * size + i < n then f (k * size + i) else 0).sum).sum =
      ((range (cdiv n size * size)).map fun j => if j < n then f j else 0).sum := by
    have hmap := flatMap_range_map (cdiv n size) size fun k i => if k * size + i < n then f (k * size + i) else 0
    simp only [Nat.div_add_mod'] at hmap
    rw [← hmap, flatMap_def, sum_flatten, map_map]
    rfl
  rw [hflat, hd, range_add, map_append, sum_append, map_map]
  have hzero : ((range d).map ((fun j => if j < n then f j else 0) ∘ (n + ·))).sum = 0 :=
    sum_eq_zero fun x hx => by
      obtain ⟨j, _, rfl⟩ := mem_map.mp hx
      exact if_neg (Nat.not_lt.mpr (Nat.le_add_right n j))
  rw [hzero, add_zero]
  congr 1
  exact map_congr_left fun j hj => if_pos (mem_range.mp hj)

end Sum

section Search

variable {M : Type*} [AddCommMonoid M] [LinearOrder M] [IsOrderedAddMonoid M]

theorem foldl_first_pos {sums : Nat → M} (hnonneg : ∀ k, 0 ≤ sums k)
    (honly : ∀ j k, 0 < sums j → 0 < sums k → j = k) (m : Nat) :
    (range m).foldl (fun (s : M × Bool) k =>
      if s.2 then s else if 0 < sums k then (sums k, true) else s) (0, false) =
      (((range m).map sums).sum, decide (0 < ((range m).map sums).sum)) := by
  induction m with
  | zero => simp
  | succ m ih =>
    rw [range_succ, foldl_append, ih, foldl_cons, foldl_nil, map_append, sum_append, map_singleton, sum_singleton]
    have hsum : 0 ≤ ((range m).map sums).sum := sum_nonneg fun x hx => by
      obtain ⟨k, _, rfl⟩ := mem_map.mp hx
      exact hnonneg k
    have hexcl : 0 < ((range m).map sums).sum → sums m = 0 := by
      intro hpos
      by_contra hne
      have hm : 0 < sums m := lt_of_le_of_ne (hnonneg m) (.symm hne)
      have hzero : ((range m).map sums).sum = 0 := sum_eq_zero fun x hx => by
        obtain ⟨k, hk, rfl⟩ := mem_map.mp hx
        by_contra hk0
        have := honly k m (lt_of_le_of_ne (hnonneg k) (.symm hk0)) hm
        exact absurd (mem_range.mp hk) (by omega)
      exact absurd hzero (ne_of_gt hpos)
    by_cases hpos : 0 < ((range m).map sums).sum
    · rw [hexcl hpos, add_zero, if_pos (decide_eq_true hpos)]
    · have hzero : ((range m).map sums).sum = 0 := le_antisymm (not_lt.mp hpos) hsum
      rw [hzero, zero_add, if_neg (by simp)]
      by_cases hm : 0 < sums m
      · rw [if_pos hm, decide_eq_true hm]
      · have hm0 : sums m = 0 := le_antisymm (not_lt.mp hm) (hnonneg m)
        rw [if_neg hm, hm0]

end Search

end VllmAscend
