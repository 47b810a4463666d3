import Mathlib.Order.Nat

/-!
# The first failure

A loop goes through the positions below `n` until one fails, or finds the first one that fails by a
mask over a wider range. `firstFailure` is where both stop, and `n` when nothing fails.
-/

namespace VllmAscend

open List Function Nat

variable {α : Type*}

def firstFailure (n : Nat) (ok : Nat → Bool) : Nat := (range n).findIdx fun i => !ok i

section FirstFailure

variable {n : Nat} {ok : Nat → Bool}

theorem firstFailure_le (n : Nat) (ok : Nat → Bool) : firstFailure n ok ≤ n := findIdx_le_length.trans_eq length_range

theorem ok_of_lt_firstFailure {i : Nat} (h : i < firstFailure n ok) : ok i = true := by
  have hnot := not_of_lt_findIdx h
  simpa using hnot

theorem not_ok_firstFailure (h : firstFailure n ok < n) : ok (firstFailure n ok) = false := by
  have hlen : (range n).findIdx (fun i => !ok i) < (range n).length := by rwa [length_range]
  have hfail := findIdx_getElem (w := hlen)
  rw [getElem_range] at hfail
  exact (Bool.not_eq_true' _).mp hfail

theorem firstFailure_le_of_not_ok {i : Nat} (h : ok i = false) : firstFailure n ok ≤ i := by
  by_contra hlt
  rw [ok_of_lt_firstFailure (Nat.lt_of_not_le hlt)] at h
  cases h

theorem firstFailure_eq_iff {k : Nat} :
    firstFailure n ok = k ↔ k ≤ n ∧ (∀ i < k, ok i = true) ∧ (k < n → ok k = false) := by
  constructor
  · rintro rfl
    exact ⟨firstFailure_le n ok, fun i hi => ok_of_lt_firstFailure hi, not_ok_firstFailure⟩
  · rintro ⟨hle, hbefore, hat⟩
    apply le_antisymm
    · rcases hle.lt_or_eq with hlt | rfl
      · exact firstFailure_le_of_not_ok (hat hlt)
      · exact firstFailure_le k ok
    · by_contra hlt
      have hlt : firstFailure n ok < k := Nat.lt_of_not_le hlt
      have hok := hbefore _ hlt
      rw [not_ok_firstFailure (hlt.trans_le hle)] at hok
      cases hok

theorem firstFailure_succ : firstFailure (n + 1) ok =
    if firstFailure n ok = n ∧ ok n = true then n + 1 else firstFailure n ok := by
  have hle := firstFailure_le n ok
  split
  next h =>
    refine firstFailure_eq_iff.mpr ⟨le_refl _, fun i hi => ?_, fun h => absurd h (lt_irrefl _)⟩
    rcases Nat.lt_succ_iff_lt_or_eq.mp hi with hi | rfl
    · exact ok_of_lt_firstFailure (h.1.symm ▸ hi)
    · exact h.2
  next h =>
    refine firstFailure_eq_iff.mpr ⟨hle.trans (le_succ n), fun i hi => ok_of_lt_firstFailure hi, fun _ => ?_⟩
    rcases lt_or_eq_of_le hle with hlt | heq
    · exact not_ok_firstFailure hlt
    · rw [heq]
      exact Bool.eq_false_iff.mpr fun hok => h ⟨heq, hok⟩

theorem firstFailure_congr {ok' : Nat → Bool} (h : ∀ i < n, ok i = ok' i) :
    firstFailure n ok = firstFailure n ok' := by
  refine firstFailure_eq_iff.mpr ⟨firstFailure_le n ok', fun i hi => ?_, fun hlt => ?_⟩
  · rw [h i (hi.trans_le (firstFailure_le n ok'))]
    exact ok_of_lt_firstFailure hi
  · rw [h _ hlt]
    exact not_ok_firstFailure hlt

end FirstFailure

/-! ## Loops that stop storing -/

/-- `for i in range(n): if not rejected: token, rejected = body(i); mem[base + i] = token` -/
def storeUntilRejected (base n : Nat) (body : Nat → α × Bool) (mem : Nat → α) : (Nat → α) × Bool :=
  (range n).foldl
    (fun s i => if s.2 then s else (update s.1 (base + i) (body i).1, (body i).2)) (mem, false)

theorem storeUntilRejected_eq (base n : Nat) (body : Nat → α × Bool) (mem : Nat → α) :
    storeUntilRejected base n body mem =
      (fun a => if base ≤ a ∧ a < base + min (firstFailure n (fun i => !(body i).2) + 1) n then (body (a - base)).1
        else mem a, decide (firstFailure n (fun i => !(body i).2) < n)) := by
  induction n with
  | zero =>
    refine Prod.ext (funext fun a => ?_) rfl
    dsimp only
    rw [if_neg (by omega)]
    rfl
  | succ n ih =>
    have hle := firstFailure_le n fun i => !(body i).2
    unfold storeUntilRejected at ih ⊢
    rw [range_succ, foldl_append, ih, foldl_cons, foldl_nil, firstFailure_succ]
    by_cases hlt : firstFailure n (fun i => !(body i).2) < n
    · -- The loop has stopped storing.
      rw [if_pos (decide_eq_true hlt), if_neg (by omega)]
      refine Prod.ext (funext fun a => ?_) (by simp only [decide_eq_decide]; omega)
      dsimp only
      congr 1
      simp only [eq_iff_iff]
      omega
    · have heq : firstFailure n (fun i => !(body i).2) = n := by omega
      rw [if_neg (by simpa using hlt), heq]
      refine Prod.ext (funext fun a => ?_) ?_
      · dsimp only
        by_cases ha : a = base + n
        · subst ha
          rw [update_self, if_pos (by split <;> omega), Nat.add_sub_cancel_left]
        · rw [update_of_ne ha]
          congr 1
          simp only [eq_iff_iff]
          split <;> omega
      · cases hbody : (body n).2 <;> simp

/-- `for i in range(n): mem[base + i] = token(i)` -/
def storeAll (base n : Nat) (token : Nat → α) (mem : Nat → α) : Nat → α :=
  (range n).foldl (fun mem i => update mem (base + i) (token i)) mem

theorem storeAll_eq (base n : Nat) (token : Nat → α) (mem : Nat → α) (a : Nat) :
    storeAll base n token mem a = if base ≤ a ∧ a < base + n then token (a - base) else mem a := by
  induction n with
  | zero => exact (if_neg (by omega)).symm
  | succ n ih =>
    unfold storeAll at ih ⊢
    rw [range_succ, foldl_append, foldl_cons, foldl_nil]
    by_cases ha : a = base + n
    · subst ha
      rw [update_self, if_pos (by omega), Nat.add_sub_cancel_left]
    · rw [update_of_ne ha, ih]
      congr 1
      simp only [eq_iff_iff]
      omega

/-! ## Masks -/

/-- Where the first entry of a row is set: `mask.float().argmax()`; an empty row raises. -/
def argmaxTrue (cols : Nat) (mask : Nat → Bool) : Option Nat :=
  if cols = 0 then none
  else if (range cols).any mask then some ((range cols).findIdx mask) else some 0

theorem findIdx_eq_firstFailure {cols : Nat} {mask : Nat → Bool} :
    (range cols).findIdx mask = firstFailure cols fun i => !mask i := by simp [firstFailure]

theorem any_iff_firstFailure {cols : Nat} {mask : Nat → Bool} :
    (range cols).any mask = true ↔ firstFailure cols (fun i => !mask i) < cols := by
  rw [← findIdx_eq_firstFailure, any_eq_true, ← findIdx_lt_length, length_range]

theorem argmaxTrue_eq {cols : Nat} (hcols : 0 < cols) (mask : Nat → Bool) :
    argmaxTrue cols mask = some (if firstFailure cols (fun i => !mask i) < cols
      then firstFailure cols (fun i => !mask i) else 0) := by
  rw [argmaxTrue, if_neg (ne_of_gt hcols), findIdx_eq_firstFailure]
  by_cases h : firstFailure cols (fun i => !mask i) < cols
  · rw [if_pos (any_iff_firstFailure.mpr h), if_pos h]
  · rw [if_neg (mt any_iff_firstFailure.mp h), if_neg h]

theorem min?_positions {n cols : Nat} (ok : Nat → Bool) {big : Int} (hn : n ≤ cols) (hcols : 0 < cols)
    (hbig : (cols : Int) ≤ big) :
    ((range cols).map fun p => if p < n ∧ ok p = false then (p : Int) else big).min? =
      some (if firstFailure n ok < n then (firstFailure n ok : Int) else big) := by
  rw [min?_eq_some_iff]
  constructor
  · rw [mem_map]
    split
    next hlt =>
      refine ⟨firstFailure n ok, mem_range.mpr (hlt.trans_le hn), if_pos ⟨hlt, ?_⟩⟩
      exact not_ok_firstFailure hlt
    next hge =>
      refine ⟨0, mem_range.mpr hcols, if_neg fun hfail => ?_⟩
      exact hge ((firstFailure_le_of_not_ok hfail.2).trans_lt hfail.1)
  · refine forall_mem_map.mpr fun p hp => ?_
    by_cases hfail : p < n ∧ ok p = false
    · have hle := firstFailure_le_of_not_ok (n := n) hfail.2
      rw [if_pos hfail]
      split <;> omega
    · rw [if_neg hfail]
      split <;> omega

/-! ## The last success -/

/-- The last position below `n` where the mask is set, or `-1`. -/
def lastTrue (mask : Nat → Bool) : Nat → Int
  | 0 => -1
  | n + 1 => if mask n then n else lastTrue mask n

section LastTrue

variable {mask : Nat → Bool} {n : Nat}

theorem neg_one_le_lastTrue (mask : Nat → Bool) (n : Nat) : -1 ≤ lastTrue mask n := by
  induction n with
  | zero => exact Int.le_refl _
  | succ n ih =>
    unfold lastTrue
    split <;> omega

theorem lastTrue_lt_iff {k : Nat} : lastTrue mask n < k ↔ ∀ i < n, k ≤ i → mask i = false := by
  induction n with
  | zero => exact ⟨fun _ i hi => absurd hi (not_lt_zero i), fun _ => by rw [lastTrue]; omega⟩
  | succ n ih =>
    rw [lastTrue, forall_lt_succ_right]
    cases hn : mask n with
    | true =>
      rw [if_pos rfl, Int.ofNat_lt]
      refine ⟨fun hlt => ⟨fun i hi hk => ?_, by omega⟩, fun hall => by simpa using hall.2⟩
      omega
    | false =>
      rw [if_neg Bool.false_ne_true, ih]
      exact (and_iff_left fun _ => rfl).symm

theorem lastTrue_lt (mask : Nat → Bool) (n : Nat) : lastTrue mask n < n :=
  lastTrue_lt_iff.mpr fun _ hi hk => absurd hi (not_lt.mpr hk)

theorem le_lastTrue {k : Nat} (hk : k < n) (h : mask k = true) : k ≤ lastTrue mask n := by
  by_contra hlt
  have hfalse := lastTrue_lt_iff.mp (Int.lt_of_not_ge hlt) k hk (le_refl k)
  rw [h] at hfalse
  cases hfalse

theorem mask_lastTrue {k : Nat} (h : (k : Int) = lastTrue mask n) : mask k = true := by
  have hnot : ¬ lastTrue mask n < k := by omega
  simp only [lastTrue_lt_iff, not_forall, Bool.not_eq_false] at hnot
  obtain ⟨i, hi, hki, htrue⟩ := hnot
  have hle := le_lastTrue hi htrue
  obtain rfl : i = k := by omega
  exact htrue

theorem lastTrue_congr {mask' : Nat → Bool} (h : ∀ i < n, mask i = mask' i) : lastTrue mask n = lastTrue mask' n := by
  induction n with
  | zero => rfl
  | succ n ih => rw [lastTrue, lastTrue, h n (lt_succ_self n), ih fun i hi => h i (hi.trans (lt_succ_self n))]

theorem lastTrue_of_false {m : Nat} (hnm : n ≤ m) (h : ∀ i, n ≤ i → mask i = false) :
    lastTrue mask m = lastTrue mask n := by
  induction m, hnm using le_induction with
  | base => rfl
  | succ m hm ih => rw [lastTrue, h m hm, if_neg Bool.false_ne_true, ih]

theorem lastTrue_eq_flip {cols : Nat} (mask : Nat → Bool) (hany : (range cols).any mask = true) :
    (firstFailure cols fun i => !mask (cols - 1 - i)) < cols ∧
      lastTrue mask cols = cols - (firstFailure cols fun i => !mask (cols - 1 - i)) - 1 := by
  obtain ⟨p, hp, hmask⟩ := any_eq_true.mp hany
  have hp := mem_range.mp hp
  have hfirst : firstFailure cols (fun i => !mask (cols - 1 - i)) < cols := by
    refine any_iff_firstFailure.mp (any_eq_true.mpr ⟨cols - 1 - p, mem_range.mpr (by omega), ?_⟩)
    rwa [show cols - 1 - (cols - 1 - p) = p by omega]
  have hat : mask (cols - 1 - firstFailure cols fun i => !mask (cols - 1 - i)) = true := by
    have hnot := not_ok_firstFailure hfirst
    simpa using hnot
  refine ⟨hfirst, Int.le_antisymm ?_ ?_⟩
  · have hafter : lastTrue mask cols < (cols - (firstFailure cols fun i => !mask (cols - 1 - i)) : Nat) := by
      refine lastTrue_lt_iff.mpr fun i hi hk => ?_
      have hok := ok_of_lt_firstFailure (show cols - 1 - i < firstFailure cols fun i => !mask (cols - 1 - i) by omega)
      rw [show cols - 1 - (cols - 1 - i) = i by omega] at hok
      simpa using hok
    omega
  · have hle := le_lastTrue (show cols - 1 - (firstFailure cols fun i => !mask (cols - 1 - i)) < cols by omega) hat
    omega

theorem lastTrue_eq_neg_one (hany : ¬ (range n).any mask = true) : lastTrue mask n = -1 := by
  have hlt : lastTrue mask n < (0 : Nat) := by
    refine lastTrue_lt_iff.mpr fun i hi _ => Bool.eq_false_iff.mpr fun htrue => hany ?_
    exact any_eq_true.mpr ⟨i, mem_range.mpr hi, htrue⟩
  have hge := neg_one_le_lastTrue mask n
  omega

end LastTrue

end VllmAscend
