import Mathlib.Data.List.GetD
import Mathlib.Tactic.Ring

/-!
# Ragged batches

A batch of rows of different lengths is kept as one flat list together with the lengths. `repeats`
writes a value of each row once for every element of the row.
-/

namespace VllmAscend.Ragged

open List Bool

variable {α : Type*}

/-- `np.repeat(xs, counts)` -/
def repeats (xs : List α) (counts : List Nat) : List α := (xs.zip counts).flatMap fun row => replicate row.2 row.1

/-- `np.diff(xs)` -/
def diff (xs : List Nat) : List Int := (xs.zip xs.tail).map fun pair => (pair.2 : Int) - pair.1

/-- `np.cumsum(xs)` -/
def cumsum (xs : List Nat) : List Nat := (range xs.length).map fun i => (xs.take (i + 1)).sum

/-- Where row `b` starts in the flat list. -/
def start (counts : List Nat) (b : Nat) : Nat := (counts.take b).sum

theorem length_diff (xs : List Nat) : (diff xs).length = xs.length - 1 := by
  simp [diff]

theorem length_repeats {xs : List α} {counts : List Nat} (h : xs.length = counts.length) :
    (repeats xs counts).length = counts.sum := by
  have hcounts : (xs.zip counts).map Prod.snd = counts := map_snd_zip (le_of_eq h.symm)
  unfold repeats
  rw [length_flatMap]
  simp only [length_replicate]
  exact congrArg sum hcounts

theorem mem_of_mem_repeats {xs : List α} {counts : List Nat} {x : α} (h : x ∈ repeats xs counts) : x ∈ xs := by
  obtain ⟨row, hrow, hx⟩ := mem_flatMap.mp h
  rw [eq_of_mem_replicate hx]
  exact (of_mem_zip hrow).1

theorem le_of_mem_zip_tail {xs : List Nat} (h : xs.Pairwise (· ≤ ·)) {a b : Nat}
    (hab : (a, b) ∈ xs.zip xs.tail) : a ≤ b := by
  induction xs with
  | nil => simp at hab
  | cons x rest ih =>
    obtain ⟨hx, hrest⟩ := pairwise_cons.mp h
    cases rest with
    | nil => simp at hab
    | cons y rest =>
      rw [tail_cons, zip_cons_cons, mem_cons] at hab
      rcases hab with heq | hab
      · cases heq
        exact hx b mem_cons_self
      · exact ih hrest hab

theorem nonneg_of_mem_diff {xs : List Nat} (h : xs.Pairwise (· ≤ ·)) {d : Int} (hd : d ∈ diff xs) : 0 ≤ d := by
  obtain ⟨⟨a, b⟩, hab, rfl⟩ := mem_map.mp hd
  have hle := le_of_mem_zip_tail h hab
  omega

theorem getD_map_of_lt {α β : Type*} (f : α → β) {l : List α} {i : Nat} (hi : i < l.length) (d : α) (e : β) :
    (l.map f).getD i e = f (l.getD i d) := by
  rw [getD_eq_getElem _ _ (by simpa using hi), getElem_map, getD_eq_getElem _ _ hi]

variable {l : List α} {i : Nat}

theorem getD_mem (h : i < l.length) (d : α) : l.getD i d ∈ l := by
  rw [getD_eq_getElem _ _ h]
  exact getElem_mem h

theorem getElem?_eq_getD (h : i < l.length) (d : α) : l[i]? = some (l.getD i d) := by
  rw [getD_eq_getElem _ _ h, getElem?_eq_getElem h]

theorem getD_of_forall_mem {P : α → Prop} {d : α} (hd : P d) (h : ∀ x ∈ l, P x) (i : Nat) : P (l.getD i d) := by
  by_cases hi : i < l.length
  · exact h _ (getD_mem hi d)
  · rwa [getD_eq_default _ _ (le_of_not_gt hi)]

theorem getD_map_range {n : Nat} (h : i < n) (f : Nat → α) (d : α) : ((range n).map f).getD i d = f i := by
  simp [getD_eq_getElem?_getD, h]

theorem getD_drop (k : Nat) (d : α) : (l.drop k).getD i d = l.getD (k + i) d := by
  simp [getD_eq_getElem?_getD]

theorem getD_map_of_zero {f : Nat → Nat} (hf : f 0 = 0) (l : List Nat) (i : Nat) :
    (l.map f).getD i 0 = f (l.getD i 0) := by
  conv_lhs => rw [← hf, getD_map]

theorem getD_zipWith_of_lt {α β γ : Type*} (f : α → β → γ) {xs : List α} {ys : List β} {i : Nat} (hx : i < xs.length)
    (hy : i < ys.length) (d : α) (e : β) (z : γ) : (zipWith f xs ys).getD i z = f (xs.getD i d) (ys.getD i e) := by
  rw [getD_eq_getElem _ _ (by rw [length_zipWith]; omega), getElem_zipWith, getD_eq_getElem _ _ hx, getD_eq_getElem _ _ hy]

/-! ## Rows in the flat list -/

section Rows

variable {counts : List Nat} {b p : Nat}

theorem lt_length_of_lt_getD (hp : p < counts.getD b 0) : b < counts.length := by
  by_contra hge
  rw [getD_eq_default _ _ (Nat.le_of_not_lt hge)] at hp
  exact absurd hp (Nat.not_lt_zero p)

theorem start_succ (counts : List Nat) (b : Nat) : start counts (b + 1) = start counts b + counts.getD b 0 := by
  unfold start
  rw [take_add_one, getD_eq_getElem?_getD]
  cases counts[b]? <;> simp

theorem start_cons_succ (n : Nat) : start (n :: counts) (b + 1) = n + start counts b := by
  simp [start]

theorem start_of_length_le (h : counts.length ≤ b) : start counts b = counts.sum := by
  rw [start, take_of_length_le h]

theorem start_mono (counts : List Nat) {a : Nat} (h : a ≤ b) : start counts a ≤ start counts b := by
  induction b, h using Nat.le_induction with
  | base => exact le_refl _
  | succ b _ ih => exact ih.trans (start_succ counts b ▸ Nat.le_add_right _ _)

theorem start_le_sum (counts : List Nat) (b : Nat) : start counts b ≤ counts.sum := by
  rcases Nat.le_total b counts.length with h | h
  · exact (start_mono counts h).trans_eq (start_of_length_le (le_refl _))
  · exact (start_of_length_le h).le

theorem start_add_lt (hp : p < counts.getD b 0) : start counts b + p < counts.sum := by
  have hend := start_le_sum counts (b + 1)
  rw [start_succ] at hend
  omega

theorem start_append_right (first second : List Nat) (b : Nat) :
    start (first ++ second) (first.length + b) = first.sum + start second b := by
  rw [start, take_length_add_append, sum_append, start]

theorem start_map_mul (k : Nat) : start (counts.map (· * k)) b = start counts b * k := by
  induction b with
  | zero => exact (Nat.zero_mul k).symm
  | succ b ih =>
    rw [start_succ, start_succ, ih, Nat.add_mul]
    rw [getD_map_of_zero (Nat.zero_mul k)]

theorem le_of_start_le {a : Nat} (hp : p < counts.getD b 0) (h : start counts a ≤ start counts b + p) : a ≤ b := by
  by_contra hlt
  have hle := start_mono counts (Nat.lt_of_not_le hlt)
  rw [start_succ] at hle
  omega

theorem getElem?_cumsum : (cumsum counts)[b]? =
    if b < counts.length then some (start counts (b + 1)) else none := by
  rw [cumsum, getElem?_map]
  by_cases h : b < counts.length
  · rw [if_pos h, getElem?_range h]
    rfl
  · rw [if_neg h, getElem?_eq_none (by simpa using h)]
    rfl

theorem length_cumsum : (cumsum counts).length = counts.length := by
  simp [cumsum]

theorem getD_cumsum (hb : b < counts.length) : (cumsum counts).getD b 0 = start counts (b + 1) := by
  rw [getD_eq_getElem?_getD, getElem?_cumsum, if_pos hb]
  rfl

theorem getD_zero_cons_cumsum (hb : b ≤ counts.length) : (0 :: cumsum counts).getD b 0 = start counts b := by
  cases b with
  | zero => rfl
  | succ b => rw [getD_cons_succ, getD_cumsum hb]

theorem getD_zero_cons_dropLast_cumsum (hb : b < counts.length) :
    (0 :: (cumsum counts).dropLast).getD b 0 = start counts b := by
  cases b with
  | zero => rfl
  | succ b =>
    rw [getD_cons_succ, getD_eq_getElem?_getD, getElem?_dropLast, length_cumsum, if_pos (by omega),
      getElem?_cumsum, if_pos (by omega)]
    rfl

theorem length_zero_cons_dropLast_cumsum (hne : counts ≠ []) : (0 :: (cumsum counts).dropLast).length = counts.length := by
  have hpos := length_pos_iff.mpr hne
  rw [length_cons, length_dropLast, length_cumsum]
  omega

theorem length_takeWhile_cumsum (hp : p < counts.getD b 0) :
    ((cumsum counts).takeWhile fun total => decide (total ≤ start counts b + p)).length = b := by
  have hb := lt_length_of_lt_getD hp
  rw [takeWhile_eq_take_findIdx_not, length_take, length_cumsum]
  suffices hfind : (cumsum counts).findIdx (fun total => !decide (total ≤ start counts b + p)) = b by omega
  have hlen : b < (cumsum counts).length := by rwa [length_cumsum]
  rw [findIdx_eq hlen]
  have htotal : ∀ a (ha : a < (cumsum counts).length), (cumsum counts)[a] = start counts (a + 1) := by
    intro a ha
    rw [getElem_eq_getD (h := ha) 0, getD_cumsum (by rwa [← length_cumsum])]
  refine ⟨?_, fun a ha => ?_⟩
  · rw [htotal, start_succ]
    simp only [not_eq_true', decide_eq_false_iff_not]
    omega
  · rw [htotal]
    have hle := start_mono counts (show a + 1 ≤ b from ha)
    simp only [not_eq_false', decide_eq_true_eq]
    omega

theorem cumsum_snoc {n : Nat} : cumsum (counts ++ [n]) = cumsum counts ++ [counts.sum + n] := by
  unfold cumsum
  rw [length_append, length_singleton, range_succ, map_append, map_singleton, take_of_length_le (by simp), sum_append]
  congr 1
  refine map_congr_left fun i hi => ?_
  rw [take_append_of_le_length (Nat.succ_le_of_lt (mem_range.mp hi))]

theorem exists_row {t : Nat} (h : t < counts.sum) : ∃ b p, p < counts.getD b 0 ∧ t = start counts b + p := by
  induction counts generalizing t with
  | nil => simp at h
  | cons n counts ih =>
    by_cases ht : t < n
    · exact ⟨0, t, ht, (Nat.zero_add t).symm⟩
    · rw [sum_cons] at h
      obtain ⟨b, p, hp, hrow⟩ := @ih (t - n) (by omega)
      refine ⟨b + 1, p, hp, ?_⟩
      rw [start_cons_succ]
      omega

theorem eq_of_start_add_eq {c q : Nat} (hp : p < counts.getD b 0) (hq : q < counts.getD c 0)
    (h : start counts b + p = start counts c + q) : b = c ∧ p = q := by
  have key : ∀ {b c p q : Nat}, p < counts.getD b 0 → start counts b + p = start counts c + q → ¬ b < c := by
    intro b c p q hp h hlt
    have hle := start_mono counts (Nat.succ_le_of_lt hlt)
    rw [start_succ] at hle
    omega
  have hbc : b = c := Nat.le_antisymm (Nat.le_of_not_lt (key hq h.symm)) (Nat.le_of_not_lt (key hp h))
  subst hbc
  exact ⟨rfl, by omega⟩

end Rows

end VllmAscend.Ragged
