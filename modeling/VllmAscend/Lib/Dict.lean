import Mathlib.Data.List.Nodup
import Mathlib.Algebra.BigOperators.Group.List.Basic
import Mathlib.Tactic.Ring

/-!
# Python dictionaries

Keys are unique and stay in the order of their first insertion.
-/

namespace VllmAscend

open List hiding beq_eq_decide

structure Dict (κ ν : Type*) where
  entries : List (κ × ν)
  nodup : (entries.map Prod.fst).Nodup

namespace Dict

variable {κ ν : Type*} [DecidableEq κ]

def empty : Dict κ ν := ⟨[], nodup_nil⟩

instance : EmptyCollection (Dict κ ν) := ⟨empty⟩

instance : Inhabited (Dict κ ν) := ⟨empty⟩

def keys (d : Dict κ ν) : List κ := d.entries.map Prod.fst

def values (d : Dict κ ν) : List ν := d.entries.map Prod.snd

/-! ## Lists of entries -/

def lookup (k : κ) : List (κ × ν) → Option ν
  | [] => none
  | (k', v) :: rest => if k' = k then some v else lookup k rest

def insert (k : κ) (v : ν) : List (κ × ν) → List (κ × ν)
  | [] => [(k, v)]
  | (k', v') :: rest => if k' = k then (k, v) :: rest else (k', v') :: insert k v rest

variable {k k' : κ} {l : List (κ × ν)} {d : Dict κ ν} {v : ν}

theorem keys_insert :
    (insert k v l).map Prod.fst =
      if k ∈ l.map Prod.fst then l.map Prod.fst else l.map Prod.fst ++ [k] := by
  induction l with
  | nil => simp [insert]
  | cons p rest ih =>
    obtain ⟨k', v'⟩ := p
    by_cases hk : k' = k
    · simp [insert, hk]
    · simp only [insert, hk, if_false, map_cons, ih, mem_cons, eq_comm (a := k),
        false_or]
      split <;> simp

theorem lookup_insert : lookup k' (insert k v l) = if k = k' then some v else lookup k' l := by
  induction l with
  | nil => simp [insert, lookup]
  | cons p rest ih =>
    obtain ⟨k₀, v₀⟩ := p
    by_cases hk : k₀ = k
    · subst hk
      by_cases hk' : k₀ = k' <;> simp [insert, lookup, hk']
    · by_cases hk' : k₀ = k'
      · subst hk'
        simp [insert, lookup, hk, Ne.symm hk]
      · simp [insert, lookup, hk, hk', ih]

theorem lookup_eq_none : lookup k l = none ↔ k ∉ l.map Prod.fst := by
  induction l with
  | nil => simp [lookup]
  | cons p rest ih =>
    obtain ⟨k', v⟩ := p
    by_cases hk : k' = k
    · simp [lookup, hk]
    · simp [lookup, hk, ih, eq_comm (a := k)]

/-! ## Operations -/

def get? (d : Dict κ ν) (k : κ) : Option ν := lookup k d.entries

/-- `d.get(k, default)` -/
def getD (d : Dict κ ν) (k : κ) (v : ν) : ν := (d.get? k).getD v

/-- `d[k] = v` -/
def set (d : Dict κ ν) (k : κ) (v : ν) : Dict κ ν where
  entries := insert k v d.entries
  nodup := by
    rw [keys_insert]
    split
    · exact d.nodup
    · rename_i hk
      exact List.Nodup.append d.nodup (nodup_singleton k) (disjoint_singleton.mpr hk)

/-- `d.setdefault(k, v)` -/
def setdefault (d : Dict κ ν) (k : κ) (v : ν) : Dict κ ν :=
  match d.get? k with
  | some _ => d
  | none => d.set k v

@[simp] theorem get?_empty (k : κ) : (∅ : Dict κ ν).get? k = none := rfl

theorem get?_set : (d.set k v).get? k' = if k = k' then some v else d.get? k' :=
  lookup_insert

theorem get?_setdefault : (d.setdefault k v).get? k' = if k = k' then some ((d.get? k).getD v) else d.get? k' := by
  unfold setdefault
  split
  · rename_i v' h
    by_cases hk : k = k'
    · subst hk
      simp [h]
    · simp [hk]
  · rename_i h
    simp [get?_set, h]

/-! ## Keys -/

theorem get?_eq_none : d.get? k = none ↔ k ∉ d.keys := lookup_eq_none

theorem exists_get?_of_mem_keys (h : k ∈ d.keys) : ∃ v, d.get? k = some v := by
  apply Option.ne_none_iff_exists'.mp
  intro hn
  exact get?_eq_none.mp hn h

theorem mem_entries_of_lookup (h : lookup k l = some v) : (k, v) ∈ l := by
  induction l with
  | nil => cases h
  | cons p rest ih =>
    obtain ⟨k', v'⟩ := p
    unfold lookup at h
    split at h
    · rename_i hk
      cases h
      simp [hk]
    · exact mem_cons_of_mem _ (ih h)

theorem mem_entries : (k, v) ∈ d.entries ↔ d.get? k = some v := by
  constructor
  · intro h
    have hkey : k ∈ d.keys := mem_map_of_mem h
    obtain ⟨v', hv'⟩ := exists_get?_of_mem_keys hkey
    have := inj_on_of_nodup_map d.nodup h (mem_entries_of_lookup hv') rfl
    cases this
    exact hv'
  · exact mem_entries_of_lookup

theorem map_get?_keys (d : Dict κ ν) : d.keys.map d.get? = d.values.map some := by
  unfold keys values
  rw [map_map, map_map]
  exact map_congr_left fun e he => mem_entries.mp he

theorem mem_values_of_get? (h : d.get? k = some v) : v ∈ d.values := mem_map_of_mem (mem_entries.mpr h)

omit [DecidableEq κ] in
@[simp] theorem keys_empty : (∅ : Dict κ ν).keys = [] := rfl

theorem keys_set : (d.set k v).keys = if k ∈ d.keys then d.keys else d.keys ++ [k] := keys_insert

theorem keys_set_new (h : k ∉ d.keys) (v : ν) : (d.set k v).keys = d.keys ++ [k] := by
  rw [keys_set, if_neg h]

theorem mem_keys_set : k' ∈ (d.set k v).keys ↔ k' = k ∨ k' ∈ d.keys := by
  rw [keys_set]
  split
  · rename_i hk
    refine ⟨.inr, ?_⟩
    rintro (rfl | h)
    · exact hk
    · exact h
  · simp [or_comm]

theorem get?_foldl_set (hmem : (k, v) ∈ l) (huniq : ∀ v', (k, v') ∈ l → v' = v) (d : Dict κ ν) :
    (l.foldl (fun d e => d.set e.1 e.2) d).get? k = some v := by
  have hkeep : ∀ (l : List (κ × ν)) (d : Dict κ ν), (∀ v', (k, v') ∈ l → v' = v) →
      d.get? k = some v → (l.foldl (fun d e => d.set e.1 e.2) d).get? k = some v := by
    intro l
    induction l with
    | nil => exact fun d _ hd => hd
    | cons e l ih =>
      intro d huniq hd
      refine ih _ (fun v' hv' => huniq v' (mem_cons_of_mem _ hv')) ?_
      rw [get?_set]
      split
      · rename_i hk
        rw [huniq e.2 (by simp [← hk])]
      · exact hd
  induction l generalizing d with
  | nil => cases hmem
  | cons e l ih =>
    rcases mem_cons.mp hmem with rfl | hmem
    · refine hkeep l _ (fun v' hv' => huniq v' (mem_cons_of_mem _ hv')) ?_
      rw [get?_set, if_pos rfl]
    · exact ih hmem (fun v' hv' => huniq v' (mem_cons_of_mem _ hv')) _

/-! ## Removal -/

def erase (d : Dict κ ν) (k : κ) : Dict κ ν where
  entries := d.entries.filter fun e => e.1 ≠ k
  nodup := d.nodup.sublist ((filter_sublist).map _)

/-- `d.pop(k)`, with `none` for the `KeyError`. -/
def pop (d : Dict κ ν) (k : κ) : Option (ν × Dict κ ν) := (d.get? k).map fun v => (v, d.erase k)

theorem keys_erase : (d.erase k).keys = d.keys.erase k := by
  have hkeys : d.keys.Nodup := d.nodup
  rw [hkeys.erase_eq_filter]
  unfold keys erase
  rw [filter_map]
  congr 1
  apply filter_congr
  simp [bne, beq_eq_decide]

theorem pop_of_mem_keys (h : k ∈ d.keys) : ∃ v, d.get? k = some v ∧ d.pop k = some (v, d.erase k) := by
  obtain ⟨v, hv⟩ := exists_get?_of_mem_keys h
  exact ⟨v, hv, by simp [pop, hv]⟩

theorem lookup_filter_ne :
    lookup k' (l.filter fun e => e.1 ≠ k) = if k = k' then none else lookup k' l := by
  induction l with
  | nil => simp [lookup]
  | cons p rest ih =>
    obtain ⟨k₀, v₀⟩ := p
    by_cases hk : k₀ = k
    · subst hk
      rw [filter_cons_of_neg (by simp), ih]
      by_cases hk' : k₀ = k' <;> simp [lookup, hk']
    · rw [filter_cons_of_pos (by simpa using hk), lookup, ih, lookup]
      by_cases hk' : k₀ = k'
      · subst hk'
        simp [Ne.symm hk]
      · simp [hk']

theorem get?_erase : (d.erase k).get? k' = if k = k' then none else d.get? k' :=
  lookup_filter_ne

theorem get?_foldl_erase {ks : List κ} :
    (ks.foldl Dict.erase d).get? k = if k ∈ ks then none else d.get? k := by
  induction ks generalizing d with
  | nil => simp
  | cons k' ks ih =>
    rw [foldl_cons, ih, get?_erase]
    by_cases hk : k' = k
    · simp [hk]
    · simp [hk, Ne.symm hk]

theorem mem_keys_iff : k ∈ d.keys ↔ (d.get? k).isSome = true := by
  rw [← not_iff_not, Bool.not_eq_true, Option.isSome_eq_false_iff, Option.isNone_iff_eq_none, get?_eq_none]

theorem mem_keys_foldl_erase {ks : List κ} : k ∈ (ks.foldl Dict.erase d).keys ↔ k ∈ d.keys ∧ k ∉ ks := by
  rw [mem_keys_iff, get?_foldl_erase, mem_keys_iff]
  split
  next h => simp [h]
  next h => simp [h]

theorem get?_of_get?_erase (h : (d.erase k).get? k' = some v) : d.get? k' = some v := by
  rw [get?_erase] at h
  split at h
  · cases h
  · exact h

theorem erase_of_not_mem (h : k ∉ d.keys) : d.erase k = d := by
  have hfilter : d.entries.filter (fun e => e.1 ≠ k) = d.entries := by
    apply filter_eq_self.mpr
    intro e he
    have : e.1 ≠ k := fun hek => h (hek ▸ mem_map_of_mem he)
    simpa using this
  unfold erase
  congr

theorem erase_set : (d.set k v).erase k = d.erase k := by
  have hlist : ∀ l : List (κ × ν), (insert k v l).filter (fun e => e.1 ≠ k) = l.filter fun e => e.1 ≠ k := by
    intro l
    induction l with
    | nil => simp [insert]
    | cons p rest ih =>
      unfold insert
      split
      · rename_i hk
        simp [hk]
      · simp only [filter_cons, ih]
  simp only [erase, set, hlist]

/-! ## Sums over the values -/

section Sum

variable {M : Type*} [AddCommMonoid M] (f : ν → M)

/-- `sum(f(v) for v in d.values())` -/
def sumBy (d : Dict κ ν) : M := (d.entries.map fun e => f e.2).sum

omit [DecidableEq κ] in
@[simp] theorem sumBy_empty : (∅ : Dict κ ν).sumBy f = 0 := rfl

theorem sum_insert_new (f : κ → ν → M) (v : ν) (h : k ∉ l.map Prod.fst) :
    ((insert k v l).map fun e => f e.1 e.2).sum = (l.map fun e => f e.1 e.2).sum + f k v := by
  induction l with
  | nil => simp [insert]
  | cons p rest ih =>
    simp only [map_cons, mem_cons, not_or] at h
    simp only [insert, if_neg (Ne.symm h.1), map_cons, sum_cons, ih h.2, add_assoc]

theorem sum_insert (v' : ν) (h : lookup k l = some v) :
    ((insert k v' l).map fun e => f e.2).sum + f v = (l.map fun e => f e.2).sum + f v' := by
  induction l with
  | nil => cases h
  | cons p rest ih =>
    unfold lookup at h
    unfold insert
    split at h
    · rename_i hk
      cases h
      simp only [hk, if_true, map_cons, sum_cons]
      ac_rfl
    · rename_i hk
      simp only [hk, if_false, map_cons, sum_cons, add_assoc, ih h]

theorem sum_filter_ne (f : κ → ν → M) (hl : (l.map Prod.fst).Nodup) (h : lookup k l = some v) :
    ((l.filter fun e => e.1 ≠ k).map fun e => f e.1 e.2).sum + f k v = (l.map fun e => f e.1 e.2).sum := by
  induction l with
  | nil => simp [lookup] at h
  | cons p rest ih =>
    obtain ⟨k', v'⟩ := p
    simp only [map_cons, nodup_cons] at hl
    unfold lookup at h
    split at h
    · rename_i hk
      subst hk
      cases h
      have hrest : (rest.filter fun e => e.1 ≠ k') = rest := by
        apply filter_eq_self.mpr
        intro e he
        have : e.1 ≠ k' := fun hek => hl.1 (hek ▸ mem_map_of_mem he)
        simpa using this
      simp only [ne_eq, not_true_eq_false, decide_false, Bool.false_eq_true, not_false_eq_true,
        filter_cons_of_neg, map_cons, sum_cons]
      rw [hrest, add_comm]
    · rename_i hk
      rw [filter_cons_of_pos (by simpa using hk), map_cons, sum_cons, add_assoc, ih hl.2 h, map_cons, sum_cons]

theorem sumBy_set_new (h : k ∉ d.keys) (v : ν) : (d.set k v).sumBy f = d.sumBy f + f v := sum_insert_new (fun _ => f) v h

theorem sumBy_set (h : d.get? k = some v) (v' : ν) :
    (d.set k v').sumBy f + f v = d.sumBy f + f v' := sum_insert f v' h

theorem sumBy_erase (h : d.get? k = some v) : (d.erase k).sumBy f + f v = d.sumBy f :=
  sum_filter_ne (fun _ => f) d.nodup h

theorem sumBy_eq_zero (h : ∀ k v, d.get? k = some v → f v = 0) : d.sumBy f = 0 := by
  apply sum_eq_zero
  refine forall_mem_map.mpr fun e he => ?_
  exact h e.1 e.2 (mem_entries.mp he)

theorem le_sumBy (f : ν → Nat) (h : d.get? k = some v) : f v ≤ d.sumBy f := by
  rw [← sumBy_erase f h]
  exact Nat.le_add_left _ _

theorem sum_set_new {d : Dict κ M} (h : k ∉ d.keys) (v : M) :
    (d.set k v).values.sum = d.values.sum + v := sumBy_set_new id h v

theorem sum_erase {d : Dict κ M} {v : M} (h : d.get? k = some v) :
    (d.erase k).values.sum + v = d.values.sum := sumBy_erase id h

end Sum

end Dict

end VllmAscend
