import VllmAscend.Lib.Pieces

/-!
# Flat arrays

An array over the rows of a ragged batch is `flat counts f`: the entries `f b p` of row `b`, row after row.
-/

namespace VllmAscend.Ragged

open List Nat

variable {α β γ : Type*}

def flat (counts : List Nat) (f : Nat → Nat → α) : List α :=
  (range counts.length).flatMap fun b => (range (counts.getD b 0)).map (f b)

section Flat

variable {counts : List Nat} {f : Nat → Nat → α} {b : Nat}

theorem flat_snoc {n : Nat} : flat (counts ++ [n]) f = flat counts f ++ (range n).map (f counts.length) := by
  unfold flat
  rw [length_append, length_singleton, range_succ, flatMap_append, flatMap_singleton]
  congr 1
  · refine flatMap_congr fun b hb => ?_
    rw [getD_append _ _ _ _ (mem_range.mp hb)]
  · rw [getD_append_right _ _ _ _ le_rfl, Nat.sub_self, getD_cons_zero]

theorem length_flat : (flat counts f).length = counts.sum := by
  induction counts using reverseRecOn with
  | nil => rfl
  | append_singleton counts n ih => simp [flat_snoc, ih]

theorem getElem?_flat {p : Nat} (hp : p < counts.getD b 0) : (flat counts f)[start counts b + p]? = some (f b p) := by
  induction counts using reverseRecOn with
  | nil => simp at hp
  | append_singleton counts n ih =>
    rw [flat_snoc]
    rcases lt_trichotomy b counts.length with hlt | rfl | hgt
    · rw [getD_append _ _ _ _ hlt] at hp
      have hstart : start (counts ++ [n]) b = start counts b := by rw [start, start, take_append_of_le_length hlt.le]
      rw [hstart, getElem?_append_left (by rw [length_flat]; exact start_add_lt hp), ih hp]
    · rw [getD_append_right _ _ _ _ le_rfl, Nat.sub_self, getD_cons_zero] at hp
      have hstart : start (counts ++ [n]) counts.length = counts.sum := by rw [start, take_left]
      rw [hstart, getElem?_append_right (by rw [length_flat]; exact le_add_right _ _), length_flat,
        Nat.add_sub_cancel_left, getElem?_map, getElem?_range hp]
      rfl
    · have hlt := lt_length_of_lt_getD hp
      rw [length_append, length_singleton] at hlt
      omega

theorem eq_flat {l : List α} (hlen : l.length = counts.sum)
    (h : ∀ b p, p < counts.getD b 0 → l[start counts b + p]? = some (f b p)) : l = flat counts f := by
  refine ext_getElem? fun k => ?_
  by_cases hk : k < counts.sum
  · obtain ⟨b, p, hp, rfl⟩ := exists_row hk
    rw [h b p hp, getElem?_flat hp]
  · rw [getElem?_eq_none (by omega), getElem?_eq_none (by rw [length_flat]; omega)]

theorem mem_flat {x : α} : x ∈ flat counts f ↔ ∃ b p, p < counts.getD b 0 ∧ x = f b p := by
  constructor
  · intro hx
    obtain ⟨k, hk, rfl⟩ := mem_iff_getElem.mp hx
    obtain ⟨b, p, hp, rfl⟩ := exists_row (hk.trans_eq length_flat)
    refine ⟨b, p, hp, Option.some_inj.mp ?_⟩
    rw [← getElem?_eq_getElem hk, getElem?_flat hp]
  · rintro ⟨b, p, hp, rfl⟩
    exact mem_of_getElem? (getElem?_flat hp)

theorem flat_congr {g : Nat → Nat → α} (h : ∀ b p, p < counts.getD b 0 → f b p = g b p) :
    flat counts f = flat counts g :=
  eq_flat length_flat fun b p hp => by rw [getElem?_flat hp, h b p hp]

theorem map_flat (g : α → β) : (flat counts f).map g = flat counts fun b p => g (f b p) := by
  refine eq_flat (by rw [length_map, length_flat]) fun b p hp => ?_
  rw [getElem?_map, getElem?_flat hp, Option.map_some]

theorem zipWith_flat (op : α → β → γ) {g : Nat → Nat → β} :
    zipWith op (flat counts f) (flat counts g) = flat counts fun b p => op (f b p) (g b p) := by
  refine eq_flat (by rw [length_zipWith, length_flat, length_flat, min_self]) fun b p hp => ?_
  rw [getElem?_zipWith, getElem?_flat hp, getElem?_flat hp]

theorem repeats_eq_flat {xs : List α} (hlen : xs.length = counts.length) (d : α) :
    repeats xs counts = flat counts fun b _ => xs.getD b d := by
  simp only [repeats, flat, zip_eq_map_range hlen rfl d 0, flatMap_map, map_const', length_range]

theorem repeats_range {n : Nat} (hlen : n = counts.length) : repeats (range n) counts = flat counts fun b _ => b := by
  rw [repeats_eq_flat (length_range.trans hlen) 0]
  refine flat_congr fun b p hp => ?_
  simp [getD_eq_getElem?_getD, hlen, lt_length_of_lt_getD hp]

theorem flat_append (first second : List Nat) :
    flat (first ++ second) f = flat first f ++ flat second fun b => f (first.length + b) := by
  induction second using reverseRecOn with
  | nil => rw [append_nil]; exact (append_nil _).symm
  | append_singleton second n ih => rw [← append_assoc, flat_snoc, flat_snoc, ih, append_assoc, length_append]

theorem drop_flat (hb : b ≤ counts.length) :
    (flat counts f).drop (start counts b) = flat (counts.drop b) fun i => f (b + i) := by
  have hsplit := flat_append (f := f) (counts.take b) (counts.drop b)
  rw [take_append_drop, length_take, min_eq_left hb] at hsplit
  have hlen : (flat (counts.take b) f).length = start counts b := length_flat
  rw [hsplit, drop_left' hlen]

theorem slice_flat :
    ((flat counts f).drop (start counts b)).take (counts.getD b 0) = (range (counts.getD b 0)).map (f b) := by
  refine ext_getElem? fun p => ?_
  by_cases hp : p < counts.getD b 0
  · rw [getElem?_take_of_lt hp, getElem?_drop, getElem?_flat hp, getElem?_map, getElem?_range hp]
    rfl
  · rw [getElem?_eq_none (by rw [length_take]; omega), getElem?_eq_none (by simpa using hp)]

theorem range_eq_flat (counts : List Nat) : range counts.sum = flat counts fun b p => start counts b + p :=
  eq_flat length_range fun _ _ hp => getElem?_range (start_add_lt hp)

theorem nodup_flat (h : ∀ b p, p < counts.getD b 0 → ∀ c q, q < counts.getD c 0 →
    f b p = f c q → b = c ∧ p = q) : (flat counts f).Nodup := by
  apply nodup_flatMap.mpr
  constructor
  · intro b _
    refine .map_on (fun p hp q hq heq => ?_) nodup_range
    exact (h b p (mem_range.mp hp) b q (mem_range.mp hq) heq).2
  · refine nodup_range.imp fun {b c} hne => ?_
    rintro x hb hc
    obtain ⟨p, hp, rfl⟩ := mem_map.mp hb
    obtain ⟨q, hq, heq⟩ := mem_map.mp hc
    exact hne (h b p (mem_range.mp hp) c q (mem_range.mp hq) heq.symm).1

theorem indexSelect_flat {rows : List α} {index : Nat → Nat → Nat}
    (h : ∀ b p, p < counts.getD b 0 → rows[index b p]? = some (f b p)) :
    indexSelect rows (flat counts index) = some (flat counts f) := by
  have hindex : flat counts index = (flat counts Prod.mk).map fun place => index place.1 place.2 := by rw [map_flat]
  have hresult : flat counts f = (flat counts Prod.mk).map fun place => f place.1 place.2 := by rw [map_flat]
  rw [indexSelect, hindex, hresult, mapM_map]
  apply Loop.mapM_eq_map
  intro place hplace
  obtain ⟨b, p, hp, rfl⟩ := mem_flat.mp hplace
  exact h b p hp

end Flat

/-! ## Matrices -/

variable {k n : Nat} {array values : List α} {counts heads : List Nat} {f : Nat → Nat → α}

theorem flat_replicate (n k : Nat) :
    flat (replicate n k) f = (range n).flatMap fun b => (range k).map (f b) := by
  unfold flat
  rw [length_replicate]
  apply flatMap_congr
  intro b hb
  rw [getD_replicate _ (mem_range.mp hb)]

theorem flat_replicate_eq_map :
    flat (replicate n k) f = (range (n * k)).map fun i => f (i / k) (i % k) :=
  (flat_replicate n k).trans (flatMap_range_map n k f)

theorem getD_flat_replicate {i : Nat} (hi : i < n * k) (d : α) :
    (flat (replicate n k) f).getD i d = f (i / k) (i % k) := by
  rw [flat_replicate_eq_map, getD_eq_getElem _ _ (by simpa using hi), getElem_map, getElem_range]

theorem flatMap_eq_range (l : List Nat) (f : Nat → List α) :
    l.flatMap f = (range l.length).flatMap fun b => f (l.getD b 0) := by
  conv_lhs => rw [← map_range_getD l 0, flatMap_map]

theorem flat_flat_replicate (c : Nat → Nat → Nat) : flat (flat (replicate n k) c) f =
      (range n).flatMap fun b => flat ((range k).map (c b)) fun p => f (b * k + p) := by
  induction n with
  | zero => rfl
  | succ n ih =>
    have hlen : (flat (replicate n k) c).length = n * k := by rw [length_flat, sum_replicate_nat]
    rw [replicate_succ', flat_snoc, flat_append, ih, hlen, length_replicate, range_succ,
      flatMap_append, flatMap_singleton]

theorem getElem?_flatMap_range {f : Nat → List α} (hlen : ∀ b < n, (f b).length = k) {b p : Nat}
    (hb : b < n) (hp : p < k) : ((range n).flatMap f)[b * k + p]? = (f b)[p]? := by
  rw [flatMap_def, getElem?_flatten_mul (by simpa using hlen) hp, getElem?_map, getElem?_range hb]
  rfl

/-- `np.arange(total) - np.repeat(cu - counts, counts)` -/
def batchedArange (counts : List Nat) : List Nat :=
  zipWith (· - ·) (range counts.sum) (repeats (zipWith (· - ·) (cumsum counts) counts) counts)

theorem batchedArange_eq : batchedArange counts = flat counts fun _ p => p := by
  have hlen : (zipWith (· - ·) (cumsum counts) counts).length = counts.length := by
    rw [length_zipWith, length_cumsum, min_self]
  have hoffsets : repeats (zipWith (· - ·) (cumsum counts) counts) counts =
      flat counts fun b _ => start counts b := by
    rw [repeats_eq_flat hlen 0]
    refine flat_congr fun b p hp => ?_
    have hb := lt_length_of_lt_getD hp
    rw [getD_eq_getElem?_getD, getElem?_zipWith, getElem?_cumsum, if_pos hb, getElem?_eq_getElem hb,
      start_succ, ← getElem_eq_getD (h := hb)]
    exact Nat.add_sub_cancel _ _
  rw [batchedArange, hoffsets, range_eq_flat, zipWith_flat]
  exact flat_congr fun b p _ => Nat.add_sub_cancel_left _ _

/-- A range of numbers for each row. A row moves the offset by `scale`; its range begins `skip` after the
offset and has `count` numbers. -/
def ranges (rows : List Nat) (scale skip count : Nat → Nat) : List Nat :=
  flat (rows.map count) fun b p => start (rows.map scale) b + skip (rows.getD b 0) + p

variable {rows : List Nat} {scale skip count : Nat → Nat}

theorem ranges_snoc :
    ranges (rows ++ [n]) scale skip count =
      ranges rows scale skip count ++ range' ((rows.map scale).sum + skip n) (count n) := by
  have hlast : (rows ++ [n]).getD rows.length 0 = n := by
    rw [getD_append_right _ _ _ _ le_rfl, Nat.sub_self, getD_cons_zero]
  have hsum : start (rows.map scale ++ [scale n]) rows.length = (rows.map scale).sum := by
    rw [start, take_left' (length_map _)]
  unfold ranges
  rw [map_append, map_append, map_singleton, map_singleton, flat_snoc, length_map, hlast, hsum, range'_eq_map_range]
  congr 1
  refine flat_congr fun b p hp => ?_
  have hb : b < rows.length := by simpa using lt_length_of_lt_getD hp
  rw [start, start, take_append_of_le_length (by simpa using hb.le), getD_append _ _ _ _ hb]

theorem length_ranges : (ranges rows scale skip count).length = (rows.map count).sum := length_flat

/-- `array[:len(values)] = values` -/
def assignPrefix (array values : List α) : List α := values ++ array.drop values.length

theorem length_assignPrefix (h : values.length ≤ array.length) :
    (assignPrefix array values).length = array.length := by
  rw [assignPrefix, length_append, length_drop]
  omega

theorem getD_assignPrefix (i : Nat) (d : α) :
    (assignPrefix array values).getD i d = if i < values.length then values.getD i d else array.getD i d := by
  unfold assignPrefix
  split
  next h => rw [getD_append _ _ _ _ h]
  next h =>
    rw [getD_append_right _ _ _ _ (Nat.le_of_not_lt h), getD_drop, Nat.add_sub_of_le (Nat.le_of_not_lt h)]

theorem assignPrefix_flat (hk : k ≤ counts.length) {g : Nat → Nat → α} :
    assignPrefix (flat counts f) (flat (counts.take k) g) = flat counts fun b p => if b < k then g b p else f b p := by
  have hlen : (flat (counts.take k) g).length = start counts k := length_flat
  have htake : (counts.take k).length = k := by rw [length_take, min_eq_left hk]
  rw [assignPrefix, hlen, drop_flat hk]
  conv_rhs => rw [← take_append_drop k counts, flat_append, htake]
  congr 1
  · refine flat_congr fun b p hp => ?_
    rw [if_pos (htake ▸ lt_length_of_lt_getD hp)]
  · refine flat_congr fun b p _ => ?_
    rw [if_neg (not_lt.mpr (le_add_right k b))]

/-! ## Masked assignment -/

/-- `array[mask] = values`; the values have to be as many as the mask selects. -/
def assignMask : List α → List Bool → List α → Option (List α)
  | [], [], [] => some []
  | _ :: array, true :: mask, value :: values => (assignMask array mask values).map (value :: ·)
  | entry :: array, false :: mask, values => (assignMask array mask values).map (entry :: ·)
  | _, _, _ => none

theorem assignMask_append {array' values' result : List α} {mask mask' : List Bool}
    (h : assignMask array mask values = some result) :
    assignMask (array ++ array') (mask ++ mask') (values ++ values') =
      (assignMask array' mask' values').map (result ++ ·) := by
  induction array, mask, values using assignMask.induct generalizing result with
  | case1 =>
    cases h
    simp
  | case2 x array mask value values ih =>
    obtain ⟨rest, hrest, rfl⟩ := Option.map_eq_some_iff.mp h
    rw [cons_append, cons_append, cons_append, assignMask, ih hrest, Option.map_map]
    rfl
  | case3 entry array mask values ih =>
    obtain ⟨rest, hrest, rfl⟩ := Option.map_eq_some_iff.mp h
    rw [cons_append, cons_append, assignMask, ih hrest, Option.map_map]
    rfl
  | case4 array mask values h1 h2 h3 =>
    rw [assignMask] at h
    · cases h
    · exact h3
    · exact h1
    · exact h2

theorem assignMask_flatMap {ι : Type*} {rows : List ι} {array values result : ι → List α} {mask : ι → List Bool}
    (h : ∀ row ∈ rows, assignMask (array row) (mask row) (values row) = some (result row)) :
    assignMask (rows.flatMap array) (rows.flatMap mask) (rows.flatMap values) = some (rows.flatMap result) := by
  induction rows with
  | nil => rfl
  | cons row rows ih =>
    obtain ⟨hrow, hrows⟩ := forall_mem_cons.mp h
    simp only [flatMap_cons]
    rw [assignMask_append hrow, ih hrows]
    rfl

theorem assignMask_all (h : array.length = values.length) :
    assignMask array (array.map fun _ => true) values = some values := by
  induction array generalizing values with
  | nil =>
    cases values with
    | nil => rfl
    | cons => cases h
  | cons x array ih =>
    cases values with
    | nil => cases h
    | cons value values =>
      rw [map_cons, assignMask, ih (succ.inj h)]
      rfl

theorem assignMask_none (array : List α) : assignMask array (array.map fun _ => false) [] = some array := by
  induction array with
  | nil => rfl
  | cons x array ih =>
    rw [map_cons, assignMask, ih]
    rfl

section Row

variable {c : Nat} (k : Nat)

theorem map_decide_lt (array : Nat → α) (op : Bool → Bool) :
    ((range (c + k)).map fun p => op (decide (p < c))) = (((range c).map array).map fun _ => op true) ++
        (((range k).map fun p => array (c + p)).map fun _ => op false) := by
  rw [range_add, map_append, map_map, map_map, map_map]
  congr 1
  · exact map_congr_left fun p hp => congrArg op (decide_eq_true (mem_range.mp hp))
  · exact map_congr_left fun p _ => congrArg op (decide_eq_false (not_lt.mpr (le_add_right c p)))

theorem map_range_add (f : Nat → α) :
    (range (c + k)).map f = (range c).map f ++ (range k).map fun p => f (c + p) := by
  rw [range_add, map_append, map_map]
  rfl

theorem map_ite_lt (first second : Nat → α) :
    ((range (c + k)).map fun p => if p < c then first p else second p) =
      (range c).map first ++ (range k).map fun p => second (c + p) := by
  rw [map_range_add]
  congr 1
  · exact map_congr_left fun p hp => if_pos (mem_range.mp hp)
  · exact map_congr_left fun p _ => if_neg (not_lt.mpr (le_add_right c p))

theorem assignMask_range_lt (array values : Nat → α) :
    assignMask ((range (c + k)).map array) ((range (c + k)).map fun p => decide (p < c))
        ((range c).map values) =
      some ((range (c + k)).map fun p => if p < c then values p else array p) := by
  have hfirst : assignMask ((range c).map array) (((range c).map array).map fun _ => true)
      ((range c).map values) = some ((range c).map values) := assignMask_all (by simp)
  have hmask : (range (c + k)).map (fun p => decide (p < c)) = _ := map_decide_lt k array id
  rw [hmask, map_range_add, ← append_nil ((range c).map values), map_ite_lt]
  exact (assignMask_append hfirst).trans (congrArg (Option.map _) (assignMask_none _))

theorem assignMask_range_ge (array values : Nat → α) :
    assignMask ((range (c + k)).map array) ((range (c + k)).map fun p => !decide (p < c))
        ((range k).map values) =
      some ((range (c + k)).map fun p => if p < c then array p else values (p - c)) := by
  have hsecond : assignMask ((range k).map fun p => array (c + p))
      (((range k).map fun p => array (c + p)).map fun _ => true) ((range k).map values) =
      some ((range k).map values) := assignMask_all (by simp)
  rw [map_decide_lt k array not, map_range_add, map_ite_lt]
  refine (assignMask_append (assignMask_none _)).trans ((congrArg (Option.map _) hsecond).trans ?_)
  simp

end Row

theorem assignMask_heads (hlen : heads.length = counts.length)
    (hle : ∀ b, heads.getD b 0 ≤ counts.getD b 0) (array values : Nat → Nat → α) :
    assignMask (flat counts array) (flat counts fun b p => decide (p < heads.getD b 0)) (flat heads values) =
      some (flat counts fun b p => if p < heads.getD b 0 then values b p else array b p) := by
  unfold flat
  rw [hlen]
  refine assignMask_flatMap fun b _ => ?_
  obtain ⟨k, hk⟩ := Nat.exists_eq_add_of_le (hle b)
  rw [hk]
  exact assignMask_range_lt k (array b) (values b)

theorem assignMask_tails {tails : List Nat} (htails : tails.length = counts.length)
    (hsum : ∀ b, counts.getD b 0 = heads.getD b 0 + tails.getD b 0) (array values : Nat → Nat → α) :
    assignMask (flat counts array) (flat counts fun b p => !decide (p < heads.getD b 0)) (flat tails values) =
      some (flat counts fun b p => if p < heads.getD b 0 then array b p else values b (p - heads.getD b 0)) := by
  unfold flat
  rw [htails]
  refine assignMask_flatMap fun b _ => ?_
  rw [hsum b]
  exact assignMask_range_ge (tails.getD b 0) (array b) (values b)

/-! ## Masked selection -/

/-- `array[mask]` -/
def maskSelect : List α → List Bool → List α
  | entry :: array, keep :: mask => if keep then entry :: maskSelect array mask else maskSelect array mask
  | _, _ => []

theorem map_maskSelect (f : α → β) (array : List α) (mask : List Bool) :
    (maskSelect array mask).map f = maskSelect (array.map f) mask := by
  induction array generalizing mask with
  | nil => simp [maskSelect]
  | cons entry array ih =>
    cases mask with
    | nil => simp [maskSelect]
    | cons keep mask => cases keep <;> simp [maskSelect, ih]

theorem maskSelect_append {mask : List Bool} (h : array.length = mask.length) (array' : List α)
    (mask' : List Bool) : maskSelect (array ++ array') (mask ++ mask') = maskSelect array mask ++ maskSelect array' mask' := by
  induction array generalizing mask with
  | nil =>
    rw [length_nil, eq_comm, length_eq_zero_iff] at h
    rw [h]
    simp [maskSelect]
  | cons entry array ih =>
    cases mask with
    | nil => simp at h
    | cons keep mask => cases keep <;> simp_all [maskSelect]

theorem maskSelect_range_lt (c : Nat) (f : Nat → α) :
    maskSelect ((range (c + k)).map f) ((range (c + k)).map fun p => decide (p < c)) = (range c).map f := by
  have hall : ∀ keep (array : List α), maskSelect array (array.map fun _ => keep) = if keep then array else [] := by
    intro keep array
    induction array with
    | nil => cases keep <;> rfl
    | cons entry array ih => cases keep <;> simpa [maskSelect] using ih
  have hmask : (range (c + k)).map (fun p => decide (p < c)) = _ := map_decide_lt k f id
  rw [hmask, map_range_add, maskSelect_append (by simp)]
  exact (congrArg₂ (· ++ ·) (hall true _) (hall false _)).trans (append_nil _)

theorem maskSelect_heads (hlen : heads.length = counts.length)
    (hle : ∀ b, heads.getD b 0 ≤ counts.getD b 0) :
    maskSelect (flat counts f) (flat counts fun b p => decide (p < heads.getD b 0)) = flat heads f := by
  unfold flat
  rw [hlen]
  induction range counts.length with
  | nil => rfl
  | cons b rows ih =>
    obtain ⟨k, hk⟩ := Nat.exists_eq_add_of_le (hle b)
    rw [flatMap_cons, flatMap_cons, flatMap_cons, maskSelect_append (by simp), ih, hk, maskSelect_range_lt]

theorem indexSelect_maskSelect {rows selected : List α} {index : List Nat} (h : indexSelect rows index = some selected)
    (mask : List Bool) : indexSelect rows (maskSelect index mask) = some (maskSelect selected mask) := by
  rw [indexSelect_eq_some_iff] at *
  rw [map_maskSelect, h, map_maskSelect]

end VllmAscend.Ragged
