import Mathlib.Data.List.Basic

/-!
# Tensors with two axes

A tensor is a function of row and column. Indexing raises when an index is out of range, so `gather`
and `scatter` give `none` then; everything else is done cell by cell.
-/

namespace VllmAscend.Tensor

open List

variable {α : Type*}

def allCells (rows cols : Nat) (p : Nat → Nat → Bool) : Bool :=
  (range rows).all fun b => (range cols).all fun c => p b c

/-- `values[index]` -/
def gather (rows cols : Nat) (values : List α) (d : α) (index : Nat → Nat → Nat) : Option (Nat → Nat → α) :=
  if allCells rows cols fun b c => decide (index b c < values.length) then
    some fun b c => values.getD (index b c) d
  else none

/-- `table[index, column]` -/
def gatherCell (rows cols : Nat) (table : List (List α)) (d : α) (index : Nat → Nat → Nat)
    (column : Nat → Nat → Int) : Option (Nat → Nat → α) :=
  if allCells rows cols fun b c => decide (index b c < table.length) && decide (0 ≤ column b c) &&
      decide ((column b c).toNat < (table.getD (index b c) []).length) then
    some fun b c => (table.getD (index b c) []).getD (column b c).toNat d
  else none

/-- `tensor[mask] = values[index[mask]]` -/
def assignMasked (rows cols : Nat) (values : List α) (d : α) (mask : Nat → Nat → Bool)
    (index : Nat → Nat → Nat) (tensor : Nat → Nat → α) : Option (Nat → Nat → α) :=
  if allCells rows cols fun b c => !mask b c || decide (index b c < values.length) then
    some fun b c => if mask b c then values.getD (index b c) d else tensor b c
  else none

/-- `tensor[row_ids, column_ids] = values`, the entries one after another. -/
def scatter (rows cols : Nat) (entries : List ((Nat × Nat) × α)) (tensor : Nat → Nat → α) :
    Option (Nat → Nat → α) :=
  if entries.all fun entry => decide (entry.1.1 < rows) && decide (entry.1.2 < cols) then
    some <| entries.foldl
      (fun tensor entry b c => if (b, c) = entry.1 then entry.2 else tensor b c) tensor
  else none

section Cells

variable {rows cols : Nat} {p : Nat → Nat → Bool}

theorem allCells_iff : allCells rows cols p = true ↔ ∀ b < rows, ∀ c < cols, p b c = true := by
  simp [allCells]

variable {index : Nat → Nat → Nat}

theorem gather_eq {values : List α} (d : α) (h : ∀ b < rows, ∀ c < cols, index b c < values.length) :
    gather rows cols values d index = some fun b c => values.getD (index b c) d := by
  rw [gather, if_pos (allCells_iff.mpr fun b hb c hc => decide_eq_true (h b hb c hc))]

theorem gatherCell_eq {table : List (List α)} {column : Nat → Nat → Int} (d : α)
    (h : ∀ b < rows, ∀ c < cols, index b c < table.length ∧ 0 ≤ column b c ∧
      (column b c).toNat < (table.getD (index b c) []).length) : gatherCell rows cols table d index column =
      some fun b c => (table.getD (index b c) []).getD (column b c).toNat d := by
  rw [gatherCell, if_pos]
  refine allCells_iff.mpr fun b hb c hc => ?_
  obtain ⟨hrow, hnonneg, hcolumn⟩ := h b hb c hc
  rw [decide_eq_true hrow, decide_eq_true hnonneg, decide_eq_true hcolumn]
  rfl

theorem assignMasked_eq {values : List α} {mask : Nat → Nat → Bool} (d : α)
    (h : ∀ b < rows, ∀ c < cols, mask b c = true → index b c < values.length) (tensor : Nat → Nat → α) :
    assignMasked rows cols values d mask index tensor =
      some fun b c => if mask b c then values.getD (index b c) d else tensor b c := by
  rw [assignMasked, if_pos]
  refine allCells_iff.mpr fun b hb c hc => ?_
  cases hmask : mask b c with
  | false => rfl
  | true => simpa using h b hb c hc hmask

end Cells

section Scatter

variable {rows cols : Nat} {entries : List ((Nat × Nat) × α)}

theorem scatter_eq (h : ∀ entry ∈ entries, entry.1.1 < rows ∧ entry.1.2 < cols) (tensor : Nat → Nat → α) :
    scatter rows cols entries tensor = some (entries.foldl
      (fun tensor entry b c => if (b, c) = entry.1 then entry.2 else tensor b c) tensor) := by
  rw [scatter, if_pos]
  refine all_eq_true.mpr fun entry hentry => ?_
  obtain ⟨hrow, hcol⟩ := h entry hentry
  rw [decide_eq_true hrow, decide_eq_true hcol]
  rfl

theorem foldl_scatter_of_not_mem {b c : Nat} (h : ∀ entry ∈ entries, entry.1 ≠ (b, c)) (tensor : Nat → Nat → α) :
    entries.foldl (fun tensor entry b c => if (b, c) = entry.1 then entry.2 else tensor b c) tensor b c =
      tensor b c := by
  induction entries generalizing tensor with
  | nil => rfl
  | cons entry entries ih =>
    obtain ⟨hne, hrest⟩ := forall_mem_cons.mp h
    rw [foldl_cons, ih hrest, if_neg (Ne.symm hne)]

theorem foldl_scatter_of_mem {b c : Nat} {value : α} (hvalue : ∀ entry ∈ entries, entry.1 = (b, c) → entry.2 = value)
    (hmem : ∃ entry ∈ entries, entry.1 = (b, c)) (tensor : Nat → Nat → α) :
    entries.foldl (fun tensor entry b c => if (b, c) = entry.1 then entry.2 else tensor b c) tensor b c =
      value := by
  induction entries generalizing tensor with
  | nil =>
    obtain ⟨_, hin, _⟩ := hmem
    cases hin
  | cons entry entries ih =>
    obtain ⟨hhead, hrest⟩ := forall_mem_cons.mp hvalue
    rw [foldl_cons]
    by_cases hlater : ∃ entry ∈ entries, entry.1 = (b, c)
    · exact ih hrest hlater _
    · obtain ⟨e, hin, he⟩ := hmem
      have hself : entry.1 = (b, c) := by
        rcases mem_cons.mp hin with rfl | hin
        · exact he
        · exact absurd ⟨e, hin, he⟩ hlater
      rw [foldl_scatter_of_not_mem fun e hin he => hlater ⟨e, hin, he⟩, if_pos hself.symm, hhead hself]

end Scatter

end VllmAscend.Tensor
