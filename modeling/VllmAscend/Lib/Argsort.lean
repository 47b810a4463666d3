import VllmAscend.Lib.Loop
import VllmAscend.Lib.Ragged

/-!
# Sorting by keys

Where the keys are the numbers below their count, in some order, selecting rows by `argsort` puts the row with key `k`
at place `k`.
-/

namespace VllmAscend

open List Loop

variable {α : Type*}

/-- `keys.argsort()` -/
def argsort (keys : List Nat) : List Nat :=
  (range keys.length).mergeSort fun i j => decide (keys.getD i 0 ≤ keys.getD j 0)

/-- `torch.index_select(rows, 0, index)` -/
def indexSelect (rows : List α) (index : List Nat) : Option (List α) := index.mapM (rows[·]?)

theorem argsort_perm (keys : List Nat) : (argsort keys).Perm (range keys.length) := mergeSort_perm _ _

theorem length_argsort (keys : List Nat) : (argsort keys).length = keys.length :=
  (argsort_perm keys).length_eq.trans length_range

variable {keys index : List Nat} {rows selected : List α}

theorem lt_of_mem_argsort {i : Nat} (h : i ∈ argsort keys) : i < keys.length :=
  mem_range.mp ((argsort_perm keys).mem_iff.mp h)

theorem pairwise_argsort (keys : List Nat) : (argsort keys).Pairwise fun i j => keys.getD i 0 ≤ keys.getD j 0 := by
  have hsorted := @pairwise_mergeSort _ (fun i j => decide (keys.getD i 0 ≤ keys.getD j 0))
    (fun i j k hij hjk => by simp only [decide_eq_true_eq] at hij hjk ⊢; exact hij.trans hjk)
    (fun i j => by simp only [Bool.or_eq_true, decide_eq_true_eq]; exact le_total _ _) (range keys.length)
  exact hsorted.imp fun h => of_decide_eq_true h

theorem map_range_getD (l : List α) (d : α) : (range l.length).map (l.getD · d) = l := by
  refine ext_getElem (by simp) fun i _ hi => ?_
  rw [getElem_map, getElem_range, ← getElem_eq_getD (h := hi)]

theorem map_argsort (h : keys.Perm (range keys.length)) : (argsort keys).map (keys.getD · 0) = range keys.length := by
  have hperm : ((argsort keys).map (keys.getD · 0)).Perm (range keys.length) := by
    have hmap := (argsort_perm keys).map (keys.getD · 0)
    rw [map_range_getD] at hmap
    exact hmap.trans h
  have hsorted : ((argsort keys).map (keys.getD · 0)).Pairwise (· ≤ ·) := pairwise_map.mpr (pairwise_argsort keys)
  exact hperm.eq_of_pairwise (fun _ _ _ _ => le_antisymm) hsorted (pairwise_le_range)

theorem indexSelect_eq (d : α) (h : ∀ i ∈ index, i < rows.length) :
    indexSelect rows index = some (index.map (rows.getD · d)) :=
  mapM_eq_map fun i hi => Ragged.getElem?_eq_getD (h i hi) d

theorem indexSelect_eq_some_iff :
    indexSelect rows index = some selected ↔ index.map (rows[·]?) = selected.map some := mapM_eq_some_iff

theorem indexSelect_append {first second : List α} {index' : List Nat}
    (h : indexSelect rows index = some first) (h' : indexSelect rows index' = some second) :
    indexSelect rows (index ++ index') = some (first ++ second) := by
  rw [indexSelect_eq_some_iff] at *
  simp [h, h']

theorem indexSelect_flatMap {ι : Type*} {blocks : List ι} {index : ι → List Nat} {selected : ι → List α}
    (h : ∀ block ∈ blocks, indexSelect rows (index block) = some (selected block)) :
    indexSelect rows (blocks.flatMap index) = some (blocks.flatMap selected) := by
  apply indexSelect_eq_some_iff.mpr
  rw [map_flatMap, map_flatMap]
  exact flatMap_congr fun block hblock => indexSelect_eq_some_iff.mp (h block hblock)

theorem indexSelect_comp {result : List α} {picks picked : List Nat}
    (h : indexSelect rows index = some selected) (hpicks : indexSelect index picks = some picked)
    (hresult : indexSelect selected picks = some result) : indexSelect rows picked = some result := by
  rw [indexSelect_eq_some_iff] at *
  have hentry : ∀ i : Nat, index[i]?.bind (rows[·]?) = selected[i]? := by
    intro i
    have hi := congrArg (·[i]?) h
    simp only [getElem?_map] at hi
    cases hk : index[i]? <;> cases hs : selected[i]? <;> simp_all
  calc picked.map (rows[·]?) = (picked.map some).map fun k => k.bind (rows[·]?) := by simp
    _ = picks.map fun i => index[i]?.bind (rows[·]?) := by rw [← hpicks, map_map]; rfl
    _ = result.map some := by simp only [hentry, hresult]

theorem perm_range_of_forall_mem (h : ∀ k < keys.length, k ∈ keys) : keys.Perm (range keys.length) := by
  have hsub : (range keys.length).Subperm keys := nodup_range.subperm fun k hk => h k (mem_range.mp hk)
  exact (hsub.perm_of_length_le (by rw [length_range])).symm

theorem indexSelect_perm (h : index.Perm (range rows.length)) :
    ∃ selected, indexSelect rows index = some selected ∧ selected.Perm rows := by
  cases rows with
  | nil =>
    have hnil : index = [] := perm_nil.mp h
    exact ⟨[], by rw [hnil]; rfl, .refl []⟩
  | cons d rest =>
    refine ⟨_, indexSelect_eq d fun i hi => mem_range.mp (h.mem_iff.mp hi), ?_⟩
    have hperm := h.map ((d :: rest).getD · d)
    rwa [map_range_getD] at hperm

theorem indexSelect_argsort {key : α → Nat} (h : (rows.map key).Perm (range rows.length)) :
    ∃ restored, indexSelect rows (argsort (rows.map key)) = some restored ∧
      restored.Perm rows ∧ restored.map key = range rows.length := by
  have hlen : (rows.map key).length = rows.length := length_map _
  have hargsort := argsort_perm (rows.map key)
  rw [hlen] at hargsort
  obtain ⟨restored, hselect, hperm⟩ := indexSelect_perm hargsort
  refine ⟨restored, hselect, hperm, ?_⟩
  cases rows with
  | nil =>
    rw [perm_nil.mp hperm]
    rfl
  | cons d rest =>
    generalize d :: rest = rows at *
    have hin : ∀ i ∈ argsort (rows.map key), i < rows.length := fun i hi => hlen ▸ lt_of_mem_argsort hi
    rw [indexSelect_eq d hin, Option.some_inj] at hselect
    rw [← hselect, map_map, ← hlen, ← map_argsort (hlen.symm ▸ h)]
    exact map_congr_left fun i hi => (Ragged.getD_map_of_lt key (hin i hi) d 0).symm

theorem indexSelect_self_argsort (h : keys.Perm (range keys.length)) :
    indexSelect keys (argsort keys) = some (range keys.length) := by
  rw [indexSelect_eq 0 fun i hi => lt_of_mem_argsort hi, map_argsort h]

theorem indexSelect_argsort_self (h : keys.Perm (range keys.length)) :
    indexSelect (argsort keys) keys = some (range keys.length) := by
  have hlen := length_argsort keys
  have hin : ∀ k ∈ keys, k < keys.length := fun k hk => mem_range.mp (h.mem_iff.mp hk)
  rw [indexSelect_eq 0 fun k hk => hlen.symm ▸ hin k hk]
  refine congrArg some (ext_getElem (by simp) fun i hi _ => ?_)
  have hi : i < keys.length := by simpa using hi
  have hki := hin _ (getElem_mem hi)
  have hplace : keys[i] < (argsort keys).length := hlen.symm ▸ hki
  have hback := lt_of_mem_argsort (getElem_mem hplace)
  -- The key at the place that `argsort` gives for `keys[i]` is `keys[i]` again, and keys do not repeat.
  have hkey := congrArg (·[keys[i]]?) (map_argsort h)
  rw [getElem?_map, getElem?_eq_getElem hplace, getElem?_range hki, Option.map_some, Option.some_inj,
    ← getElem_eq_getD (h := hback)] at hkey
  have hnodup : keys.Nodup := h.nodup_iff.mpr nodup_range
  rw [getElem_map, ← getElem_eq_getD (h := hplace), getElem_range]
  exact (hnodup.getElem_inj_iff).mp hkey

theorem indexSelect_range (rows : List α) : indexSelect rows (range rows.length) = some rows := by
  apply indexSelect_eq_some_iff.mpr
  apply ext_getElem
  · simp
  · intro i hi _
    simp

theorem indexSelect_argsort_of_select
    (hperm : keys.Perm (range rows.length)) (h : indexSelect rows keys = some selected) :
    indexSelect selected (argsort keys) = some rows := by
  have hkeys : keys.length = rows.length := by rw [hperm.length_eq, length_range]
  have hselected : keys.length = selected.length := by simpa using congrArg length (indexSelect_eq_some_iff.mp h)
  obtain ⟨result, hresult, -⟩ := indexSelect_perm (hselected ▸ argsort_perm keys)
  have hrows := indexSelect_comp h (indexSelect_self_argsort (hkeys.symm ▸ hperm)) hresult
  rw [hkeys, indexSelect_range] at hrows
  rw [hresult, hrows]

end VllmAscend
