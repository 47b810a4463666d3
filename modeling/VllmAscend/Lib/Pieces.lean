import VllmAscend.Lib.Argsort
import VllmAscend.Lib.RoundRobin

/-!
# Pieces of a list
-/

namespace VllmAscend

open List Function Nat RoundRobin

variable {α β : Type*}

/-- `[l[i * n : (i + 1) * n] for i in range(c)]` -/
def pieces (c n : Nat) (l : List α) : List (List α) := (range c).map fun i => (l.drop (i * n)).take n

/-- `[l[i : i + n] for i in range(0, len(l), n)]` -/
def chunks (n : Nat) (l : List α) : List (List α) := pieces ((l.length + n - 1) / n) n l

/-- `reshape(-1, n)` of an array with one axis; `none` when the sizes do not fit. -/
def reshape (n : Nat) (l : List α) : Option (List (List α)) :=
  if 0 < n ∧ l.length % n = 0 then some (pieces (l.length / n) n l) else none

variable (l : List α)

theorem length_pieces (c n : Nat) : (pieces c n l).length = c := by
  simp [pieces]

theorem pieces_map (f : α → β) (c n : Nat) : pieces c n (l.map f) = (pieces c n l).map (List.map f) := by
  simp only [pieces, map_map, ← map_drop, ← map_take]
  rfl

theorem chunks_map (f : α → β) (n : Nat) : chunks n (l.map f) = (chunks n l).map (List.map f) := by
  rw [chunks, chunks, length_map, pieces_map]

variable {n c i : Nat} {l : List α} {ls : List (List α)}

theorem chunks_eq_pieces (hn : 0 < n) (h : l.length = c * n) : chunks n l = pieces c n l := by
  have hc : (l.length + n - 1) / n = c := by
    rw [h, Nat.div_eq_of_lt_le]
    · omega
    · rw [add_mul]
      omega
  rw [chunks, hc]

theorem reshape_eq_pieces (hn : 0 < n) (h : l.length = c * n) : reshape n l = some (pieces c n l) := by
  rw [reshape, if_pos ⟨hn, by rw [h, mul_mod_left]⟩, h, Nat.mul_div_cancel c hn]

theorem pieces_succ : pieces (c + 1) n l = l.take n :: pieces c n (l.drop n) := by
  simp only [pieces, range_succ_eq_map, map_cons, zero_mul, drop_zero, map_map]
  congr 1
  apply map_congr_left
  intro i _
  simp only [comp_apply, drop_drop, succ_eq_add_one]
  rw [add_mul, one_mul, add_comm]

theorem flatten_pieces (h : l.length = c * n) : (pieces c n l).flatten = l := by
  induction c generalizing l with
  | zero =>
    have hl : l = [] := length_eq_zero_iff.mp (by simpa using h)
    simp [pieces, hl]
  | succ c ih =>
    rw [pieces_succ, flatten_cons, ih, take_append_drop]
    rw [length_drop, h, add_mul]
    omega

section

variable (h : ∀ l ∈ ls, l.length = n)

include h

theorem pieces_flatten : pieces ls.length n ls.flatten = ls := by
  induction ls with
  | nil => rfl
  | cons l ls ih =>
    obtain ⟨hl, hls⟩ := forall_mem_cons.mp h
    rw [length_cons, pieces_succ, flatten_cons, take_left' hl, drop_left' hl, ih hls]

theorem getElem?_flatten_mul {j : Nat} (hj : j < n) : ls.flatten[i * n + j]? = ls[i]?.bind (·[j]?) := by
  induction ls generalizing i with
  | nil => rfl
  | cons l ls ih =>
    obtain ⟨hl, hls⟩ := forall_mem_cons.mp h
    rw [flatten_cons]
    cases i with
    | zero =>
      rw [zero_mul, zero_add, getElem?_append_left (hl ▸ hj)]
      rfl
    | succ i =>
      have hle : l.length ≤ (i + 1) * n + j := by
        rw [hl, add_mul]
        omega
      rw [getElem?_append_right hle, hl, getElem?_cons_succ, ← ih hls]
      congr 1
      rw [add_mul]
      omega

theorem getD_flatten_mul {j : Nat}
    (hj : j < n) (d : α) : ls.flatten.getD (i * n + j) d = (ls.getD i []).getD j d := by
  simp only [getD_eq_getElem?_getD, getElem?_flatten_mul h hj]
  cases ls[i]? <;> rfl

end

theorem zip_eq_map_range {xs : List α} {ys : List β} (hx : xs.length = n) (hy : ys.length = n)
    (d : α) (e : β) : xs.zip ys = (range n).map fun i => (xs.getD i d, ys.getD i e) := by
  apply ext_getElem
  · simp [hx, hy]
  · intro i hi _
    rw [length_zip, hx, hy, min_self] at hi
    simp [getElem?_eq_getElem (hx.symm ▸ hi : i < xs.length), getElem?_eq_getElem (hy.symm ▸ hi : i < ys.length)]

theorem length_of_mem_pieces {p : List α} (h : l.length = c * n) (hp : p ∈ pieces c n l) : p.length = n := by
  obtain ⟨i, hi, rfl⟩ := mem_map.mp hp
  have hle : (i + 1) * n ≤ c * n := mul_le_mul_right n (mem_range.mp hi)
  rw [add_mul] at hle
  rw [length_take, length_drop]
  omega

theorem mem_of_mem_pieces {p : List α} (h : l.length = c * n)
    (hp : p ∈ pieces c n l) {x : α} (hx : x ∈ p) : x ∈ l := by
  rw [← flatten_pieces h]
  exact mem_flatten.mpr ⟨p, hp, hx⟩

theorem mem_iff_exists_piece (h : l.length = c * n) {x : α} : x ∈ l ↔ ∃ d < c, x ∈ (pieces c n l).getD d [] := by
  conv_lhs => rw [← flatten_pieces h]
  rw [mem_flatten]
  constructor
  · rintro ⟨p, hp, hx⟩
    obtain ⟨d, hd, rfl⟩ := getElem_of_mem hp
    refine ⟨d, length_pieces l c n ▸ hd, ?_⟩
    rwa [← getElem_eq_getD (h := hd)]
  · rintro ⟨d, hd, hx⟩
    exact ⟨_, Ragged.getD_mem (by rwa [length_pieces]) [], hx⟩

/-! ## Ranges -/

theorem pieces_map_range (c n : Nat) (f : Nat → α) : pieces c n ((range (c * n)).map f) =
    (range c).map fun d => (range n).map fun i => f (d * n + i) := by
  apply map_congr_left
  intro d hd
  have hle : (d + 1) * n ≤ c * n := mul_le_mul_right n (mem_range.mp hd)
  rw [add_mul] at hle
  apply ext_getElem
  · simp only [length_take, length_drop, length_map, length_range]
    omega
  · intro i _ _
    simp

theorem flatMap_range_map (a b : Nat) (f : Nat → Nat → α) : ((range a).flatMap fun i => (range b).map (f i)) =
      (range (a * b)).map fun j => f (j / b) (j % b) := by
  induction a with
  | zero => simp
  | succ a ih =>
    rw [range_succ, flatMap_append, ih, add_mul, one_mul, range_add, map_append, map_map]
    congr 1
    rw [flatMap_singleton]
    apply map_congr_left
    intro i hi
    have hlt : i < b := mem_range.mp hi
    simp only [comp_apply, mul_add_div_of_lt hlt, mul_add_mod_of_lt hlt]

theorem flatMap_range_filter (a b : Nat) (p : Nat → Nat → Bool) (f : Nat → Nat → α) :
    ((range a).flatMap fun i => ((range b).filter (p i)).map (f i)) =
      ((range (a * b)).filter fun j => p (j / b) (j % b)).map fun j => f (j / b) (j % b) := by
  have hrow : ∀ i, ((range b).filter (p i)).map (f i) =
      (((range b).map fun j => (i, j)).filter fun z => p z.1 z.2).map fun z => f z.1 z.2 := by
    intro i
    rw [filter_map, map_map]
    rfl
  simp only [hrow]
  rw [← map_flatMap, ← filter_flatMap, flatMap_range_map, filter_map, map_map]
  rfl

theorem flatMap_range_mul (a b k : Nat) : ((range k).flatMap fun i => (range b).map fun j => (a + i) * b + j) =
      (range (k * b)).map fun j => a * b + j := by
  rw [flatMap_range_map]
  apply map_congr_left
  intro j _
  rw [add_mul, add_assoc, div_add_mod']

/-! ## The entries below a bound -/

theorem takeWhile_lt_of_sorted {β : Type*} [LinearOrder β] {l : List β} (h : l.Pairwise (· ≤ ·)) (b : β) :
    l.takeWhile (· < b) = l.filter (· < b) := by
  induction l with
  | nil => rfl
  | cons a l ih =>
    obtain ⟨hle, hrest⟩ := pairwise_cons.mp h
    by_cases ha : a < b
    · rw [takeWhile_cons_of_pos (by simpa using ha), filter_cons_of_pos (by simpa using ha), ih hrest]
    · rw [takeWhile_cons_of_neg (by simpa using ha), filter_cons_of_neg (by simpa using ha)]
      refine (filter_eq_nil_iff.mpr fun c hc => ?_).symm
      simpa using (le_of_not_gt ha).trans (hle c hc)

theorem mem_takeWhile_iff {r : β → β → Prop} {l : List β} (hl : l.Pairwise r) {p : β → Bool}
    (hp : ∀ a b, r a b → p b = true → p a = true) {x : β} : x ∈ l.takeWhile p ↔ x ∈ l ∧ p x = true := by
  refine ⟨fun h => ⟨(takeWhile_sublist p).subset h, all_eq_true.mp all_takeWhile x h⟩, ?_⟩
  rintro ⟨hx, hpx⟩
  induction l with
  | nil => cases hx
  | cons a l ih =>
    obtain ⟨ha, hrest⟩ := pairwise_cons.mp hl
    rcases mem_cons.mp hx with rfl | hin
    · rw [takeWhile_cons_of_pos hpx]
      exact mem_cons_self
    · rw [takeWhile_cons_of_pos (hp a x (ha x hin) hpx)]
      exact mem_cons_of_mem a (ih hrest hin)

theorem pairwise_zipIdx (l : List α) : l.zipIdx.Pairwise fun a b => a.2 < b.2 := by
  rw [← pairwise_map (f := Prod.snd), zipIdx_map_snd]
  exact pairwise_lt_range'

theorem mem_takeWhile_range {p : Nat → Bool} : i ∈ (range n).takeWhile p ↔ i < n ∧ ∀ j ≤ i, p j = true := by
  induction n generalizing i p with
  | zero => simp
  | succ n ih =>
    rw [range_succ_eq_map, takeWhile_cons]
    by_cases h0 : p 0 = true
    · rw [if_pos h0, takeWhile_map]
      cases i with
      | zero => simp [h0]
      | succ i =>
        simp only [mem_cons, add_one_ne_zero, false_or, mem_map, succ_eq_add_one,
          add_right_cancel_iff, exists_eq_right, ih, comp_apply, add_lt_add_iff_right]
        refine and_congr_right fun _ => ⟨fun h j hj => ?_, fun h j hj => h (j + 1) (by omega)⟩
        cases j with
        | zero => exact h0
        | succ j => exact h j (by omega)
    · rw [if_neg h0]
      refine iff_of_false not_mem_nil fun h => h0 (h.2 0 (zero_le i))

theorem filter_range_lt {f : Nat → Nat} (hf : Monotone f) (b n : Nat) :
    ∃ k, (range n).filter (f · < b) = range k := by
  induction n with
  | zero => exact ⟨0, rfl⟩
  | succ n ih =>
    by_cases hn : f n < b
    · refine ⟨n + 1, filter_eq_self.mpr fun j hj => decide_eq_true ?_⟩
      exact lt_of_le_of_lt (hf (le_of_lt_succ (mem_range.mp hj))) hn
    · obtain ⟨k, hk⟩ := ih
      refine ⟨k, ?_⟩
      rw [range_succ, filter_append, hk, filter_cons_of_neg (by simpa using hn), filter_nil, append_nil]

/-! ## The same places in every block -/

/-- The places `l` in each of `c` blocks of length `n`. -/
def spread (c n : Nat) (l : List Nat) : List Nat := (range c).flatMap fun i => l.map (i * n + ·)

section Spread

variable {c n : Nat} {l : List Nat}

theorem spread_eq : spread c n l =
    (range (c * l.length)).map fun j => j / l.length * n + l.getD (j % l.length) 0 := by
  have hrow : ∀ b, l.map (b * n + ·) = (range l.length).map fun i => b * n + l.getD i 0 := by
    intro b
    conv_lhs => rw [← map_range_getD l 0, map_map]
    rfl
  simp only [spread, hrow]
  exact flatMap_range_map c l.length fun b i => b * n + l.getD i 0

theorem length_spread : (spread c n l).length = c * l.length := by
  rw [spread_eq, length_map, length_range]

variable {x : Nat}

theorem mem_spread (hlt : ∀ i ∈ l, i < n) : x ∈ spread c n l ↔ x / n < c ∧ x % n ∈ l := by
  simp only [spread, mem_flatMap, mem_range, mem_map]
  constructor
  · rintro ⟨b, hb, i, hi, rfl⟩
    rw [mul_add_div_of_lt (hlt i hi), mul_add_mod_of_lt (hlt i hi)]
    exact ⟨hb, hi⟩
  · rintro ⟨hb, hi⟩
    exact ⟨x / n, hb, x % n, hi, div_add_mod' x n⟩

theorem mem_flatten_map_spread {ls : List (List Nat)} (hlt : ∀ i ∈ ls.flatten, i < n) :
    x ∈ (ls.map (spread c n)).flatten ↔ x / n < c ∧ x % n ∈ ls.flatten := by
  have hmem : ∀ l ∈ ls, x ∈ spread c n l ↔ x / n < c ∧ x % n ∈ l := fun l hl =>
    mem_spread fun i hi => hlt i (mem_flatten.mpr ⟨l, hl, hi⟩)
  rw [mem_flatten, mem_flatten]
  constructor
  · rintro ⟨_, hls, hx⟩
    obtain ⟨l, hl, rfl⟩ := mem_map.mp hls
    obtain ⟨hc, hi⟩ := (hmem l hl).mp hx
    exact ⟨hc, l, hl, hi⟩
  · rintro ⟨hc, l, hl, hi⟩
    exact ⟨spread c n l, mem_map_of_mem hl, (hmem l hl).mpr ⟨hc, hi⟩⟩

theorem lt_of_mem_spread (hlt : ∀ i ∈ l, i < n) (hx : x ∈ spread c n l) : x < c * n := by
  obtain ⟨hb, hi⟩ := (mem_spread hlt).mp hx
  have hn : 0 < n := zero_lt_of_lt (hlt _ hi)
  exact (div_lt_iff_lt_mul hn).mp hb

theorem nodup_spread (hl : l.Nodup) (hlt : ∀ i ∈ l, i < n) : (spread c n l).Nodup := by
  refine nodup_flatMap.mpr ⟨fun b _ => ?_, ?_⟩
  · exact hl.map fun i j hij => add_left_cancel hij
  · refine nodup_range.pairwise_of_forall_ne fun a _ b _ hab => ?_
    intro x ha hb
    obtain ⟨i, hi, rfl⟩ := mem_map.mp ha
    obtain ⟨j, hj, hij⟩ := mem_map.mp hb
    apply hab
    rw [← mul_add_div_of_lt (k := a) (hlt i hi), ← hij, mul_add_div_of_lt (hlt j hj)]

end Spread

end VllmAscend
