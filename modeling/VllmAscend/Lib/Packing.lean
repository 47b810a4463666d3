import Mathlib.Tactic.Ring

/-!
# Packing a stream into groups

Items of different sizes are packed in order into groups of a limited size.
-/

namespace VllmAscend.Packing

open List

variable {α β : Type*}

def total (size : α → Nat) (items : List α) : Nat := (items.map size).sum

variable (size : α → Nat)

@[simp]
theorem total_nil : total size [] = 0 := rfl

@[simp]
theorem total_cons (x : α) (items : List α) : total size (x :: items) = size x + total size items := by
  simp [total]

@[simp]
theorem total_append (items more : List α) :
    total size (items ++ more) = total size items + total size more := by
  simp [total]

variable {size : α → Nat} {items : List α}

theorem total_eq_zero : total size items = 0 ↔ ∀ x ∈ items, size x = 0 := by
  induction items with
  | nil => simp
  | cons x items ih => simp [ih]

/-- The items of a group with the place where each begins. -/
def placed (size : α → Nat) : Nat → List α → List (Nat × α)
  | _, [] => []
  | place, x :: rest => (place, x) :: placed size (place + size x) rest

theorem mem_of_placed {place : Nat} {entry : Nat × α} (h : entry ∈ placed size place items) : entry.2 ∈ items := by
  induction items generalizing place with
  | nil => cases h
  | cons x items ih =>
    rcases mem_cons.mp h with rfl | h
    · exact mem_cons_self
    · exact mem_cons_of_mem x (ih h)

theorem exists_placed (place : Nat) {x : α} (h : x ∈ items) : ∃ entry ∈ placed size place items, entry.2 = x := by
  induction items generalizing place with
  | nil => cases h
  | cons y items ih =>
    rcases mem_cons.mp h with rfl | h
    · exact ⟨(place, x), mem_cons_self, rfl⟩
    · obtain ⟨entry, hentry, heq⟩ := ih (place + size y) h
      exact ⟨entry, mem_cons_of_mem _ hentry, heq⟩

/-! ## Closed before the overflow -/

/-- Groups of at most `cap`, as long as the items are; `pending` is not closed yet. A group of no size
is dropped at the end. -/
def groupBefore (cap : Nat) (size : α → Nat) : List α → List α → List (List α)
  | pending, [] => if total size pending = 0 then [] else [pending]
  | pending, x :: rest =>
    if total size pending ≠ 0 ∧ cap < total size pending + size x then pending :: groupBefore cap size [x] rest
    else groupBefore cap size (pending ++ [x]) rest

section Before

variable {cap : Nat} {size : α → Nat} {pending items : List α}

theorem flatten_groupBefore (hpending : total size pending ≤ cap) (hfits : ∀ x ∈ items, size x ≤ cap) :
    (groupBefore cap size pending items).flatten =
      if total size (pending ++ items) = 0 then [] else pending ++ items := by
  fun_induction groupBefore cap size pending items with
  | case1 pending hzero => simp [hzero]
  | case2 pending hzero => simp [hzero]
  | case3 pending x rest hover ih =>
    obtain ⟨hx, hrest⟩ := forall_mem_cons.mp hfits
    have hsize : total size ([x] ++ rest) ≠ 0 := by simp; omega
    have hall : total size (pending ++ x :: rest) ≠ 0 := by simp; omega
    rw [flatten_cons, ih (by simpa using hx) hrest, if_neg hsize, if_neg hall]
    rfl
  | case4 pending x rest hover ih =>
    obtain ⟨hx, hrest⟩ := forall_mem_cons.mp hfits
    have hroom : total size (pending ++ [x]) ≤ cap := by simp; omega
    rw [ih hroom hrest, append_assoc]
    rfl

theorem total_le_of_mem_groupBefore (hpending : total size pending ≤ cap) (hfits : ∀ x ∈ items, size x ≤ cap)
    {group : List α} (hgroup : group ∈ groupBefore cap size pending items) : total size group ≤ cap := by
  fun_induction groupBefore cap size pending items with
  | case1 pending hzero => simp at hgroup
  | case2 pending hzero =>
    rw [mem_singleton.mp hgroup]
    exact hpending
  | case3 pending x rest hover ih =>
    obtain ⟨hx, hrest⟩ := forall_mem_cons.mp hfits
    rcases mem_cons.mp hgroup with rfl | hgroup
    · exact hpending
    · exact ih (by simpa using hx) hrest hgroup
  | case4 pending x rest hover ih =>
    obtain ⟨hx, hrest⟩ := forall_mem_cons.mp hfits
    exact ih (by simp; omega) hrest hgroup

end Before

/-! ## Closed after the overflow -/

/-- Groups that are closed once they exceed `cap`; `pending` is not closed yet. -/
def groupAfter (cap : Nat) (size : α → Nat) : List α → List α → List (List α)
  | pending, [] => if pending.isEmpty then [] else [pending]
  | pending, x :: rest =>
    if cap < total size (pending ++ [x]) then (pending ++ [x]) :: groupAfter cap size [] rest
    else groupAfter cap size (pending ++ [x]) rest

theorem flatten_groupAfter (cap : Nat) (size : α → Nat) (pending items : List α) :
    (groupAfter cap size pending items).flatten = pending ++ items := by
  fun_induction groupAfter cap size pending items with
  | case1 pending hempty => simp [isEmpty_iff.mp hempty]
  | case2 pending hempty => simp
  | case3 pending x rest hover ih => simp [ih]
  | case4 pending x rest hover ih => simp [ih]

theorem groupAfter_map (cap : Nat) (f : β → α) (size : α → Nat) (pending items : List β) :
    groupAfter cap size (pending.map f) (items.map f) =
      (groupAfter cap (fun x => size (f x)) pending items).map (List.map f) := by
  have htotal : ∀ items : List β, total size (items.map f) = total (fun x => size (f x)) items := by
    simp [total, Function.comp_def]
  fun_induction groupAfter cap (fun x => size (f x)) pending items with
  | case1 pending hempty => simp [groupAfter, isEmpty_iff.mp hempty]
  | case2 pending hempty => simp_all [groupAfter]
  | case3 pending x rest hover ih =>
    rw [← htotal, map_append, map_singleton] at hover
    rw [map_nil] at ih
    rw [map_cons, groupAfter, if_pos hover, ih, map_cons, map_append]
    rfl
  | case4 pending x rest hover ih =>
    rw [← htotal, map_append, map_singleton] at hover
    rw [map_append, map_singleton] at ih
    rw [map_cons, groupAfter, if_neg hover, ih]

end VllmAscend.Packing
