import VllmAscend.Lib.RoundRobin

/-!
# Launches of a grid

A kernel runs one program for each block, in any order. When each lane reads and writes only its own part of the
memory, the launch leaves there what the lane alone would.
-/

namespace VllmAscend.Grid

open List RoundRobin

variable {α : Type*}

def launch (order : List Nat) (blockSize : Nat) (lane : Nat → (Nat → α) → Nat → α) (mem : Nat → α) : Nat → α :=
  order.foldl (fun mem block => (range blockSize).foldl (fun mem i => lane (block * blockSize + i) mem) mem) mem

structure Local (owner : Nat → Nat) (lane : Nat → (Nat → α) → Nat → α) : Prop where
  frame : ∀ pos mem a, owner a ≠ pos → lane pos mem a = mem a
  depends : ∀ pos mem mem' a, (∀ a, owner a = pos → mem a = mem' a) → owner a = pos →
    lane pos mem a = lane pos mem' a

variable {owner : Nat → Nat} {lane : Nat → (Nat → α) → Nat → α}

theorem Local.of_cell {cell : Nat → Nat → α → α}
    (h : ∀ pos mem a, lane pos mem a = if owner a = pos then cell pos a (mem a) else mem a) :
    Local owner lane where
  frame pos mem a ha := by rw [h, if_neg ha]
  depends pos mem mem' a hmem ha := by rw [h, h, if_pos ha, if_pos ha, hmem a ha]

theorem launch_eq_foldl (order : List Nat) (B : Nat) (mem : Nat → α) : launch order B lane mem =
      (order.flatMap fun block => (range B).map (block * B + ·)).foldl (fun mem pos => lane pos mem) mem := by
  rw [foldl_flatMap]
  simp only [foldl_map]
  rfl

theorem foldl_of_not_mem (h : Local owner lane) {ps : List Nat} {a : Nat} (ha : owner a ∉ ps)
    (mem : Nat → α) : ps.foldl (fun mem pos => lane pos mem) mem a = mem a := by
  induction ps generalizing mem with
  | nil => rfl
  | cons pos ps ih =>
    rw [mem_cons, not_or] at ha
    rw [foldl_cons, ih ha.2, h.frame pos mem a ha.1]

theorem foldl_of_mem (h : Local owner lane) {ps : List Nat} (hnodup : ps.Nodup) {a : Nat}
    (ha : owner a ∈ ps) (mem : Nat → α) : ps.foldl (fun mem pos => lane pos mem) mem a = lane (owner a) mem a := by
  induction ps generalizing mem with
  | nil => cases ha
  | cons pos ps ih =>
    obtain ⟨hnot, hrest⟩ := nodup_cons.mp hnodup
    rw [foldl_cons]
    rcases mem_cons.mp ha with heq | hin
    · rw [foldl_of_not_mem h (heq ▸ hnot), heq]
    · have hne : owner a ≠ pos := fun heq => hnot (heq ▸ hin)
      rw [ih hrest hin]
      refine h.depends _ _ _ a (fun b hb => ?_) rfl
      exact h.frame pos mem b (hb ▸ hne)

variable {order : List Nat} {grid : Nat}

variable (horder : order.Perm (range grid))

include horder

theorem mem_positions {blockSize pos : Nat} :
    pos ∈ (order.flatMap fun block => (range blockSize).map (block * blockSize + ·)) ↔ pos < grid * blockSize := by
  simp only [mem_flatMap, horder.mem_iff, mem_range, mem_map]
  constructor
  · rintro ⟨block, hblock, i, hi, rfl⟩
    have hle : (block + 1) * blockSize ≤ grid * blockSize := Nat.mul_le_mul_right _ hblock
    rw [Nat.add_mul] at hle
    omega
  · intro hpos
    have hblock : 0 < blockSize := Nat.pos_of_ne_zero fun h => by simp [h] at hpos
    exact ⟨pos / blockSize, (Nat.div_lt_iff_lt_mul hblock).mpr hpos, pos % blockSize,
      Nat.mod_lt _ hblock, Nat.div_add_mod' pos blockSize⟩

theorem nodup_positions (blockSize : Nat) :
    (order.flatMap fun block => (range blockSize).map (block * blockSize + ·)).Nodup := by
  refine nodup_flatMap.mpr ⟨fun block _ => ?_, ?_⟩
  · exact nodup_range.map fun i j hij => Nat.add_left_cancel hij
  · refine (horder.nodup_iff.mpr nodup_range).pairwise_of_forall_ne fun a _ b _ hab x ha hb => hab ?_
    obtain ⟨i, hi, rfl⟩ := mem_map.mp ha
    obtain ⟨j, hj, hij⟩ := mem_map.mp hb
    have hi := mem_range.mp hi
    have hj := mem_range.mp hj
    have hdiv : (b * blockSize + j) / blockSize = (a * blockSize + i) / blockSize := by rw [hij]
    rwa [mul_add_div_of_lt hi, mul_add_div_of_lt hj, eq_comm] at hdiv

theorem launch_apply (h : Local owner lane) (B : Nat) (mem : Nat → α) (a : Nat) :
    launch order B lane mem a =
      if owner a < grid * B then lane (owner a) mem a else mem a := by
  rw [launch_eq_foldl]
  split
  next hin => exact foldl_of_mem h (nodup_positions horder B) ((mem_positions horder).mpr hin) mem
  next hout => exact foldl_of_not_mem h (fun hin => hout ((mem_positions horder).mp hin)) mem

end VllmAscend.Grid
