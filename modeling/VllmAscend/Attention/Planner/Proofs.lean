import Mathlib.Algebra.BigOperators.Intervals
import Mathlib.Algebra.Order.BigOperators.Group.Finset
import Mathlib.Data.Prod.Lex
import VllmAscend.Attention.Planner.Model

/-!
# The planner loses no row

A cursor stands before a row of a `(batch, kv head)` pair.
-/

namespace VllmAscend.Attention.Planner

open Finset

variable {BC RC : Type} [Inhabited RC] (P : Planner BC RC)

/-! ## The cost of rows and batches -/

def rowAt (b r : Nat) : RowCache := P.row (P.calcS1GCache r (P.calcBatchCache b) default)

def rowCost (b r : Nat) : Int := (P.rowAt b r).s1GCost

def batchCost (b : Nat) : Int := ∑ r ∈ Finset.range (P.s1GBaseNum b), P.rowCost b r

structure Describes (c : RC) (b r : Nat) : Prop where
  block : (P.row c).s1GBlock = (P.rowAt b r).s1GBlock
  cost : (P.row c).s1GCost = P.rowCost b r
  last : (P.row c).s1GLastBlockCost = (P.rowAt b r).s1GLastBlockCost

structure RowsOk : Prop where
  kvHeadNum_pos : 0 < P.kvHeadNum
  describes : ∀ b r c, P.Describes (P.calcS1GCache r (P.calcBatchCache b) c) b r
  cost_pos : ∀ b r, r < P.s1GBaseNum b → 0 < (P.rowAt b r).s1GBlock → 0 < P.rowCost b r
  cost_zero : ∀ b r, r < P.s1GBaseNum b → (P.rowAt b r).s1GBlock = 0 → P.rowCost b r = 0
  last_nonneg : ∀ b r, r < P.s1GBaseNum b → 0 ≤ (P.rowAt b r).s1GLastBlockCost
  last_row : ∀ b r, r < P.s1GBaseNum b → 0 < (P.rowAt b r).s1GBlock →
    0 < (P.rowAt b (P.s1GBaseNum b - 1)).s1GBlock
  seqEmpty : ∀ b r, P.seqEmpty b = true → r < P.s1GBaseNum b → (P.rowAt b r).s1GBlock = 0

variable {P}

variable {b r : Nat} {ci : CostInfo} {a : AssignContext BC RC}

theorem RowsOk.cost_nonneg (h : P.RowsOk) (hr : r < P.s1GBaseNum b) : 0 ≤ P.rowCost b r := by
  rcases Nat.eq_zero_or_pos (P.rowAt b r).s1GBlock with h0 | h0
  · exact (h.cost_zero b r hr h0).ge
  · exact (h.cost_pos b r hr h0).le

theorem RowsOk.batchCost_nonneg (h : P.RowsOk) (b : Nat) : 0 ≤ P.batchCost b :=
  sum_nonneg fun _ hr => h.cost_nonneg (mem_range.mp hr)

theorem RowsOk.batchCost_of_seqEmpty (h : P.RowsOk) (hb : P.seqEmpty b = true) : P.batchCost b = 0 :=
  sum_eq_zero fun r hr => h.cost_zero b r (mem_range.mp hr) (h.seqEmpty b r hb (mem_range.mp hr))

theorem RowsOk.last_row_of_cost (h : P.RowsOk) (hc : 0 < ∑ i ∈ Finset.Ico r (P.s1GBaseNum b), P.rowCost b i) :
    r < P.s1GBaseNum b ∧ 0 < (P.rowAt b (P.s1GBaseNum b - 1)).s1GBlock := by
  obtain ⟨i, hi, hpos⟩ := exists_lt_of_sum_lt (s := Finset.Ico r (P.s1GBaseNum b))
    (f := fun _ => (0 : Int)) (g := P.rowCost b) (by simpa using hc)
  obtain ⟨hri, hin⟩ := mem_Ico.mp hi
  refine ⟨by omega, h.last_row b i hin ?_⟩
  by_contra h0
  have := h.cost_zero b i hin (by omega)
  omega

theorem RowsOk.batchCost_pos_of_rest (h : P.RowsOk)
    (hr : 0 < ∑ i ∈ Finset.Ico r (P.s1GBaseNum b), P.rowCost b i) : 0 < P.batchCost b := by
  refine lt_of_lt_of_le hr ?_
  rw [batchCost, range_eq_Ico]
  exact sum_le_sum_of_subset_of_nonneg (Finset.Ico_subset_Ico (Nat.zero_le _) le_rfl)
    (fun i hi _ => h.cost_nonneg (mem_Ico.mp hi).2)

/-! ## The cost table -/

def BatchDone (P : Planner BC RC) (ci : CostInfo) (b : Nat) : Prop :=
  ci.bN2CostOfEachBatch b = P.batchCost b ∧
  (0 < P.batchCost b → ci.bN2LastBlockCostOfEachBatch b = (P.rowAt b (P.s1GBaseNum b - 1)).s1GLastBlockCost)

structure OthersKept (b : Nat) (ci ci' : CostInfo) : Prop where
  cost : ∀ j, j ≠ b → ci'.bN2CostOfEachBatch j = ci.bN2CostOfEachBatch j
  last : ∀ j, j ≠ b → ci'.bN2LastBlockCostOfEachBatch j = ci.bN2LastBlockCostOfEachBatch j
  total : ci'.totalCost = ci.totalCost

theorem OthersKept.batchDone {j : Nat} {ci' : CostInfo} (h : OthersKept b ci ci') (hj : j ≠ b)
    (hd : BatchDone P ci j) : BatchDone P ci' j := by
  unfold BatchDone
  rw [h.cost j hj, h.last j hj]
  exact hd

structure RowLoopInv (P : Planner BC RC) (b : Nat) (ci : CostInfo) (k : Nat) (st : CostInfo × RC) :
    Prop where
  cost : st.1.bN2CostOfEachBatch b = ∑ r ∈ Finset.range k, P.rowCost b r
  last : ∀ r, r + 1 = k → 0 < (P.rowAt b r).s1GBlock →
    st.1.bN2LastBlockCostOfEachBatch b = (P.rowAt b r).s1GLastBlockCost
  kept : OthersKept b ci st.1

theorem calcBatchCostRow_inv (h : P.RowsOk) {k : Nat} {st : CostInfo × RC} (hst : RowLoopInv P b ci k st) :
    RowLoopInv P b ci (k + 1) (P.calcBatchCostRow b (P.calcBatchCache b) st k) := by
  have hrow := h.describes b k st.2
  refine ⟨?_, ?_, ⟨?_, ?_, hst.kept.total⟩⟩
  · simp only [calcBatchCostRow, Function.update_self, sum_range_succ, ← hst.cost, hrow.cost]
  · intro r hr hblock
    obtain rfl : r = k := by omega
    simp [calcBatchCostRow, hrow.block, hrow.last, hblock]
  · intro j hj
    simpa [calcBatchCostRow, hj] using hst.kept.cost j hj
  · intro j hj
    have := hst.kept.last j hj
    simp only [calcBatchCostRow]
    split <;> simpa [hj] using this

theorem clearBatch_kept (b : Nat) (ci : CostInfo) : OthersKept b ci (ci.clearBatch b) := by
  refine ⟨?_, ?_, rfl⟩ <;>
  · intro j hj
    simp [CostInfo.clearBatch, hj]

theorem calcBatchCost_spec (h : P.RowsOk) (b : Nat) (ci : CostInfo) :
    BatchDone P (P.calcBatchCost b ci) b ∧ OthersKept b ci (P.calcBatchCost b ci) := by
  unfold calcBatchCost
  split
  · rename_i hempty
    have h0 := h.batchCost_of_seqEmpty hempty
    exact ⟨⟨by simp [CostInfo.clearBatch, h0], by simp [h0]⟩, clearBatch_kept b ci⟩
  · have hloop := Loop.foldl_range_inv (RowLoopInv P b ci) (n := P.s1GBaseNum b)
      (s := (ci.clearBatch b, default))
      ⟨by simp [CostInfo.clearBatch], by omega, clearBatch_kept b ci⟩
      (fun k st _ => calcBatchCostRow_inv h)
    refine ⟨⟨hloop.cost, fun hpos => ?_⟩, hloop.kept⟩
    rw [batchCost, range_eq_Ico] at hpos
    obtain ⟨hn, hblock⟩ := h.last_row_of_cost hpos
    exact hloop.last _ (by omega) hblock

theorem calcCostInfo_spec (h : P.RowsOk) (hz : P.isKvSeqAllZero = false) :
    (∀ b < P.batchSize, BatchDone P P.calcCostInfo b) ∧
    P.calcCostInfo.totalCost = ∑ b ∈ range P.batchSize, P.batchCost b * P.kvHeadNum := by
  unfold calcCostInfo
  rw [if_neg (by simp [hz])]
  apply Loop.foldl_range_inv (fun k ci => (∀ b < k, BatchDone P ci b) ∧
    ci.totalCost = ∑ b ∈ range k, P.batchCost b * P.kvHeadNum)
  · simp
  · rintro k ci - ⟨hdone, htotal⟩
    obtain ⟨hk, hkept⟩ := calcBatchCost_spec h k ci
    refine ⟨fun b hb => ?_, ?_⟩
    · rcases Nat.lt_succ_iff_lt_or_eq.mp hb with hb | rfl
      · exact hkept.batchDone (by omega) (hdone b hb)
      · exact hk
    · rw [sum_range_succ, ← htotal, ← hkept.total, ← hk.1]

/-! ## The cursor -/

variable (P)

def restOfBatch (b r : Nat) : Int := ∑ i ∈ Finset.Ico r (P.s1GBaseNum b), P.rowCost b i

def remaining (a : AssignContext BC RC) : Int :=
  if a.isFinished then 0
  else P.restOfBatch (a.curBN2Idx / P.kvHeadNum) a.curS1GIdx +
    ∑ j ∈ Finset.Ico (a.curBN2Idx + 1) (P.batchSize * P.kvHeadNum), P.batchCost (j / P.kvHeadNum)

structure AtRow (a : AssignContext BC RC) : Prop where
  notFinished : a.isFinished = false
  bN2 : a.curBN2Idx < P.batchSize * P.kvHeadNum
  bIdx : a.curBIdx = a.curBN2Idx / P.kvHeadNum
  batch : a.batchCache = P.calcBatchCache a.curBIdx
  row : P.Describes a.s1GCache a.curBIdx a.curS1GIdx
  bN2Cost : a.bN2Cost = P.restOfBatch a.curBIdx a.curS1GIdx

structure AtEnd (a : AssignContext BC RC) : Prop where
  finished : a.isFinished = true
  bN2 : a.curBN2Idx = P.batchSize * P.kvHeadNum
  s1G : a.curS1GIdx = 0

def Overfull (ci : CostInfo) (a : AssignContext BC RC) : Prop :=
  0 < a.bN2Cost ∧
  a.coreCache.costLimit + (ci.bN2LastBlockCostOfEachBatch a.curBIdx).tdiv faToleranceRatio <
    a.coreCache.cost + a.bN2Cost

def pos (a : AssignContext BC RC) : ℕ ×ₗ ℕ := toLex (a.curBN2Idx, a.curS1GIdx)

/-- What every stage keeps: the cursor goes forward, what it passes is paid for by the core, and
no row is entered in the middle. -/
structure Moved (a a' : AssignContext BC RC) : Prop where
  pos_le : pos a ≤ pos a'
  balance : a'.coreCache.cost + P.remaining a' = a.coreCache.cost + P.remaining a
  cost_le : a.coreCache.cost ≤ a'.coreCache.cost
  limit : a'.coreCache.costLimit = a.coreCache.costLimit
  core : a'.curCoreIdx = a.curCoreIdx
  unassigned : a'.unassignedCost = a.unassignedCost
  splitPart : a'.curKvSplitPart = a.curKvSplitPart
  s2 : a.curS2Idx ≤ (P.row a.s1GCache).s2Start → a'.curS2Idx ≤ (P.row a'.s1GCache).s2Start

variable {P}

theorem Moved.refl (a : AssignContext BC RC) : P.Moved a a := ⟨le_rfl, rfl, le_rfl, rfl, rfl, rfl, rfl, id⟩

theorem Moved.trans {b c : AssignContext BC RC} (h : P.Moved a b) (h' : P.Moved b c) : P.Moved a c :=
  ⟨h.pos_le.trans h'.pos_le, h'.balance.trans h.balance, h.cost_le.trans h'.cost_le, h'.limit.trans h.limit,
    h'.core.trans h.core, h'.unassigned.trans h.unassigned, h'.splitPart.trans h.splitPart, h'.s2 ∘ h.s2⟩

omit [Inhabited RC] in
theorem pos_le_of_lt {a' : AssignContext BC RC} (h : a.curBN2Idx < a'.curBN2Idx) : pos a ≤ pos a' :=
  Prod.Lex.toLex_le_toLex.mpr (.inl h)

omit [Inhabited RC] in
theorem pos_le_of_eq {a' : AssignContext BC RC} (h : a'.curBN2Idx = a.curBN2Idx)
    (h' : a.curS1GIdx ≤ a'.curS1GIdx) : pos a ≤ pos a' :=
  Prod.Lex.toLex_le_toLex.mpr (.inr ⟨h.symm, h'⟩)

theorem AtRow.remaining_eq (ha : P.AtRow a) : P.remaining a = a.bN2Cost +
      ∑ j ∈ Finset.Ico (a.curBN2Idx + 1) (P.batchSize * P.kvHeadNum), P.batchCost (j / P.kvHeadNum) := by
  unfold remaining
  rw [ha.notFinished, ha.bN2Cost, ha.bIdx]
  rfl

variable (h : P.RowsOk)

include h

theorem RowsOk.sum_batchCost_nonneg (s : Finset Nat) : 0 ≤ ∑ j ∈ s, P.batchCost (j / P.kvHeadNum) :=
  sum_nonneg fun _ _ => h.batchCost_nonneg _

theorem AtRow.bN2Cost_nonneg (ha : P.AtRow a) : 0 ≤ a.bN2Cost := by
  rw [ha.bN2Cost]
  exact sum_nonneg fun i hi => h.cost_nonneg (mem_Ico.mp hi).2

theorem RowsOk.bIdx_lt (ha : P.AtRow a) : a.curBIdx < P.batchSize := by
  rw [ha.bIdx]
  exact (Nat.div_lt_iff_lt_mul h.kvHeadNum_pos).mpr ha.bN2

theorem RowsOk.remaining_nonneg (a : AssignContext BC RC) : 0 ≤ P.remaining a := by
  unfold remaining
  split
  · exact le_rfl
  · have h₁ : 0 ≤ P.restOfBatch (a.curBN2Idx / P.kvHeadNum) a.curS1GIdx :=
      sum_nonneg fun i hi => h.cost_nonneg (mem_Ico.mp hi).2
    have h₂ := h.sum_batchCost_nonneg (Finset.Ico (a.curBN2Idx + 1) (P.batchSize * P.kvHeadNum))
    omega

theorem skipEmptyRows_spec (hbatch : a.batchCache = P.calcBatchCache a.curBIdx)
    (hlt : a.curS1GIdx + 1 < P.s1GBaseNum a.curBIdx)
    (hlast : 0 < (P.rowAt a.curBIdx (P.s1GBaseNum a.curBIdx - 1)).s1GBlock) :
    ∃ r c, P.skipEmptyRows a = some { a with curS1GIdx := r, s1GCache := c } ∧
      a.curS1GIdx < r ∧ r < P.s1GBaseNum a.curBIdx ∧ P.Describes c a.curBIdx r ∧
      ∀ i, a.curS1GIdx < i → i < r → (P.rowAt a.curBIdx i).s1GBlock = 0 := by
  let I : AssignContext BC RC → Prop := fun s => ∃ r c,
    s = { a with curS1GIdx := r, s1GCache := c } ∧
    a.curS1GIdx < r ∧ r < P.s1GBaseNum a.curBIdx ∧ P.Describes c a.curBIdx r ∧
    ∀ i, a.curS1GIdx < i → i < r → (P.rowAt a.curBIdx i).s1GBlock = 0
  have hstep : ∀ s, I s → ((P.row s.s1GCache).s1GBlock == 0) = true →
      ∃ s', some (P.nextRow s) = some s' ∧ I s' ∧
        P.s1GBaseNum a.curBIdx - s'.curS1GIdx < P.s1GBaseNum a.curBIdx - s.curS1GIdx := by
    rintro _ ⟨r, c, rfl, har, hr, hc, hskip⟩ hempty
    have hblock : (P.rowAt a.curBIdx r).s1GBlock = 0 := by
      rw [← hc.block]
      simpa using hempty
    -- Row `r` is empty, so it is not the last row.
    have hne : r ≠ P.s1GBaseNum a.curBIdx - 1 := by
      rintro rfl
      omega
    refine ⟨_, rfl, ⟨r + 1, _, rfl, by omega, by omega, ?_, fun i hi hir => ?_⟩, by
      simp only [nextRow]; omega⟩
    · rw [hbatch]
      exact h.describes _ _ _
    · rcases Nat.lt_succ_iff_lt_or_eq.mp hir with hir | rfl
      · exact hskip i hi hir
      · exact hblock
  have h0 : I (P.nextRow a) := by
    refine ⟨a.curS1GIdx + 1, _, rfl, by omega, hlt, ?_, fun i hi hir => by omega⟩
    rw [hbatch]
    exact h.describes _ _ _
  obtain ⟨s', hrun, ⟨r, c, rfl, hI⟩, -⟩ := Loop.whileFuel_spec I _ hstep
    (P.s1GBaseNum a.curBIdx) _ h0 (Nat.sub_le _ _)
  exact ⟨r, c, hrun, hI⟩

theorem restOfBatch_skip {r' : Nat} (hr : r < r') (hn : r' < P.s1GBaseNum b)
    (hempty : ∀ i, r < i → i < r' → (P.rowAt b i).s1GBlock = 0) :
    P.restOfBatch b r = P.rowCost b r + P.restOfBatch b r' := by
  have hzero : ∑ i ∈ Finset.Ico (r + 1) r', P.rowCost b i = 0 := by
    apply sum_eq_zero
    intro i hi
    obtain ⟨hri, hir⟩ := mem_Ico.mp hi
    exact h.cost_zero b i (by omega) (hempty i (by omega) hir)
  rw [restOfBatch, sum_eq_sum_Ico_succ_bot (by omega),
    ← sum_Ico_consecutive _ (by omega : r + 1 ≤ r') hn.le, hzero, zero_add, restOfBatch]

theorem RowsOk.restOfBatch_pos (hr : r < P.s1GBaseNum b)
    (hlast : 0 < (P.rowAt b (P.s1GBaseNum b - 1)).s1GBlock) : 0 < P.restOfBatch b r := by
  have hmem : P.s1GBaseNum b - 1 ∈ Finset.Ico r (P.s1GBaseNum b) := mem_Ico.mpr ⟨by omega, by omega⟩
  have hle := single_le_sum (f := P.rowCost b) (fun i hi => h.cost_nonneg (mem_Ico.mp hi).2) hmem
  exact lt_of_lt_of_le (h.cost_pos _ _ (by omega) hlast) hle

variable (hci : ∀ b < P.batchSize, BatchDone P ci b) (ha : P.AtRow a)

include hci ha

theorem Overfull.limit_lt (hover : Overfull ci a) :
    a.coreCache.costLimit < a.coreCache.cost + P.remaining a := by
  obtain ⟨hpos, hlt⟩ := hover
  have hrest := h.sum_batchCost_nonneg (Finset.Ico (a.curBN2Idx + 1) (P.batchSize * P.kvHeadNum))
  have hn : a.curS1GIdx < P.s1GBaseNum a.curBIdx := by
    rw [ha.bN2Cost] at hpos
    exact (h.last_row_of_cost hpos).1
  have hlast : 0 ≤ ci.bN2LastBlockCostOfEachBatch a.curBIdx := by
    rw [(hci _ (h.bIdx_lt ha)).2 (h.batchCost_pos_of_rest (ha.bN2Cost ▸ hpos))]
    exact h.last_nonneg _ _ (by omega)
  have := Int.tdiv_nonneg hlast (by decide : 0 ≤ faToleranceRatio)
  rw [ha.remaining_eq]
  omega

/-! ## Whole batches -/

theorem assignBatch_spec : (P.AtEnd (P.assignBatch ci a) ∨ P.AtRow (P.assignBatch ci a)) ∧
    P.Moved a (P.assignBatch ci a) ∧ (P.assignBatch ci a).curBN2Idx = a.curBN2Idx + 1 := by
  have hbal := ha.remaining_eq
  have hnn := ha.bN2Cost_nonneg h
  by_cases hend : a.curBN2Idx + 1 = P.batchSize * P.kvHeadNum
  · have heq : P.assignBatch ci a = { a with
        coreCache := { a.coreCache with
          cost := a.coreCache.cost + a.bN2Cost, block := a.coreCache.block + a.bN2Block }
        curBN2Idx := a.curBN2Idx + 1, curS1GIdx := 0, curS2Idx := 0, isFinished := true } := by
      simp [assignBatch, hend]
    rw [heq]
    refine ⟨.inl ⟨rfl, hend, rfl⟩,
      ⟨pos_le_of_lt (by simp), ?_, by simpa using hnn, rfl, rfl, rfl, rfl, by simp⟩, rfl⟩
    rw [hbal, hend]
    simp [remaining]
  · have hlt : a.curBN2Idx + 1 < P.batchSize * P.kvHeadNum := by
      have := ha.bN2
      omega
    set b := (a.curBN2Idx + 1) / P.kvHeadNum with hb
    have hbn : b < P.batchSize := (Nat.div_lt_iff_lt_mul h.kvHeadNum_pos).mpr hlt
    have heq : P.assignBatch ci a = { a with
        coreCache := { a.coreCache with
          cost := a.coreCache.cost + a.bN2Cost, block := a.coreCache.block + a.bN2Block }
        curBN2Idx := a.curBN2Idx + 1
        curBIdx := b
        batchCache := P.calcBatchCache b
        bN2Cost := ci.bN2CostOfEachBatch b
        bN2Block := ci.bN2BlockOfEachBatch b
        curS1GIdx := 0
        s1GCache := P.calcS1GCache 0 (P.calcBatchCache b) a.s1GCache
        curS2Idx := (P.row (P.calcS1GCache 0 (P.calcBatchCache b) a.s1GCache)).s2Start } := by
      -- The batch cache is only recomputed when the batch changes.
      by_cases hbb : b = a.curBIdx
      · simp [assignBatch, hend, ← hb, hbb, ha.batch]
      · simp [assignBatch, hend, ← hb, hbb]
    have hrow : P.AtRow (P.assignBatch ci a) := by
      rw [heq]
      refine ⟨ha.notFinished, hlt, rfl, rfl, h.describes _ _ _, ?_⟩
      rw [(hci b hbn).1, batchCost, restOfBatch, range_eq_Ico]
    refine ⟨.inr hrow, ⟨?_, ?_, ?_, ?_, ?_, ?_, ?_, ?_⟩, ?_⟩
    · exact pos_le_of_lt (by rw [heq]; simp)
    · rw [hrow.remaining_eq, hbal, heq, (hci b hbn).1, sum_eq_sum_Ico_succ_bot hlt, ← hb]
      dsimp only
      omega
    all_goals rw [heq]
    · simpa using hnn
    · exact fun _ => le_rfl

theorem assignByBatch_spec :
    ∃ a', P.assignByBatch ci a = some a' ∧ P.Moved a a' ∧ (P.AtEnd a' ∨ (P.AtRow a' ∧ Overfull ci a')) := by
  have hstep : ∀ s, ((P.AtEnd s ∨ P.AtRow s) ∧ P.Moved a s) → batchFits ci s = true →
      ∃ s', some (P.assignBatch ci s) = some s' ∧
        ((P.AtEnd s' ∨ P.AtRow s') ∧ P.Moved a s') ∧
        P.batchSize * P.kvHeadNum - s'.curBN2Idx < P.batchSize * P.kvHeadNum - s.curBN2Idx := by
    rintro s ⟨hend | hrow, hmoved⟩ hcond
    · simp [batchFits, hend.finished] at hcond
    · obtain ⟨hat', hmoved', hidx⟩ := assignBatch_spec h hci hrow
      refine ⟨_, rfl, ⟨hat', hmoved.trans hmoved'⟩, ?_⟩
      have := hrow.bN2
      omega
  obtain ⟨a', hrun, ⟨hat, hmoved⟩, hcond⟩ := Loop.whileFuel_spec _ _ hstep
    (P.batchSize * P.kvHeadNum) a ⟨Or.inr ha, Moved.refl a⟩ (Nat.sub_le _ _)
  refine ⟨a', hrun, hmoved, hat.imp_right fun hrow => ⟨hrow, ?_⟩⟩
  have hnn := hrow.bN2Cost_nonneg h
  simp only [batchFits, hrow.notFinished, Bool.not_false, Bool.true_and, Bool.or_eq_false_iff,
    beq_eq_false_iff_ne, isWithinTolerance, decide_eq_false_iff_not, not_le] at hcond
  exact ⟨lt_of_le_of_ne hnn hcond.1.symm, hcond.2⟩

/-! ## Single rows -/

theorem AtRow.not_last_row (hover : Overfull ci a) (hfits : P.rowFits a = true) : a.curS1GIdx + 1 < P.s1GBaseNum a.curBIdx ∧
    0 < (P.rowAt a.curBIdx (P.s1GBaseNum a.curBIdx - 1)).s1GBlock := by
  obtain ⟨hpos, hexceeds⟩ := hover
  rw [ha.bN2Cost] at hpos
  obtain ⟨hlt, hlast⟩ := h.last_row_of_cost hpos
  by_contra hge
  have hn : P.s1GBaseNum a.curBIdx = a.curS1GIdx + 1 := by omega
  have hrest : a.bN2Cost = P.rowCost a.curBIdx a.curS1GIdx := by
    rw [ha.bN2Cost, restOfBatch, hn]
    simp
  have hlastCost := (hci _ (h.bIdx_lt ha)).2 (h.batchCost_pos_of_rest hpos)
  rw [hn, Nat.add_sub_cancel] at hlastCost
  simp only [rowFits, isWithinTolerance, decide_eq_true_eq, ha.row.cost, ha.row.last] at hfits
  rw [hlastCost, hrest] at hexceeds
  omega

theorem assignRow_spec (hover : Overfull ci a) (hfits : P.rowFits a = true) :
    ∃ a', P.assignRow a = some a' ∧ P.AtRow a' ∧ Overfull ci a' ∧ P.Moved a a' ∧
      a'.curBIdx = a.curBIdx ∧ a.curS1GIdx < a'.curS1GIdx ∧ a'.curS1GIdx < P.s1GBaseNum a'.curBIdx := by
  obtain ⟨hnext, hlast⟩ := ha.not_last_row h hci hover hfits
  obtain ⟨r, c, hskip, har, hr, hc, hempty⟩ := skipEmptyRows_spec h (a := P.takeRow a) ha.batch hnext hlast
  change r < P.s1GBaseNum a.curBIdx at hr
  have hsplit : a.bN2Cost = P.rowCost a.curBIdx a.curS1GIdx + P.restOfBatch a.curBIdx r := by
    rw [ha.bN2Cost]
    exact restOfBatch_skip h har hr hempty
  have hpos := h.restOfBatch_pos hr hlast
  have hcost : (P.takeRow a).bN2Cost = P.restOfBatch a.curBIdx r := by
    simp only [takeRow, ha.row.cost]
    omega
  have hcore : (P.takeRow a).coreCache.cost = a.coreCache.cost + P.rowCost a.curBIdx a.curS1GIdx := by
    simp only [takeRow, ha.row.cost]
  refine ⟨{ P.takeRow a with curS1GIdx := r, s1GCache := c, curS2Idx := (P.row c).s2Start },
    by rw [assignRow, hskip]; rfl, ⟨ha.notFinished, ha.bN2, ha.bIdx, ha.batch, hc, hcost⟩,
    ⟨by rw [hcost]; exact hpos, ?_⟩,
    ⟨pos_le_of_eq rfl har.le, ?_, ?_, rfl, rfl, rfl, rfl, fun _ => le_rfl⟩, rfl, har, hr⟩
  · have hexceeds := hover.2
    rw [hsplit] at hexceeds
    rw [hcost, hcore, add_assoc]
    exact hexceeds
  · rw [ha.remaining_eq]
    simp only [remaining, hcore]
    rw [show (P.takeRow a).isFinished = false from ha.notFinished,
      show (P.takeRow a).curBN2Idx = a.curBN2Idx from rfl, ← ha.bIdx]
    simp only [Bool.false_eq_true, if_false]
    omega
  · have := h.cost_nonneg (b := a.curBIdx) (r := a.curS1GIdx) (by omega)
    simp only [hcore]
    omega

theorem assignByRow_spec (hover : Overfull ci a) : ∃ a', P.assignByRow a = some a' ∧ P.Moved a a' ∧ P.AtRow a' ∧ Overfull ci a' := by
  have hstep : ∀ s, (P.AtRow s ∧ Overfull ci s ∧ P.Moved a s ∧ s.curBIdx = a.curBIdx) →
      P.rowFits s = true → ∃ s', P.assignRow s = some s' ∧
        (P.AtRow s' ∧ Overfull ci s' ∧ P.Moved a s' ∧ s'.curBIdx = a.curBIdx) ∧
        P.s1GBaseNum a.curBIdx - s'.curS1GIdx < P.s1GBaseNum a.curBIdx - s.curS1GIdx := by
    rintro s ⟨hs, hover, hmoved, hb⟩ hfits
    obtain ⟨s', hrun, hs', hover', hmoved', hb', hlt, hn⟩ := assignRow_spec h hci hs hover hfits
    rw [hb', hb] at hn
    exact ⟨s', hrun, ⟨hs', hover', hmoved.trans hmoved', hb'.trans hb⟩, by omega⟩
  obtain ⟨a', hrun, ⟨hrow, hover', hmoved, -⟩, -⟩ := Loop.whileFuel_spec _ _ hstep
    (P.s1GBaseNum a.curBIdx) a ⟨ha, hover, Moved.refl a, rfl⟩ (Nat.sub_le _ _)
  refine ⟨a', ?_, hmoved, hrow, hover'⟩
  rw [assignByRow, ha.notFinished]
  exact hrun

theorem assign_spec :
    ∃ a', (P.assignByBatch ci a).bind P.assignByRow = some a' ∧ P.Moved a a' ∧
      (P.AtEnd a' ∨ (P.AtRow a' ∧ Overfull ci a')) := by
  obtain ⟨a₁, hrun₁, hmoved₁, hat₁⟩ := assignByBatch_spec h hci ha
  rw [hrun₁]
  rcases hat₁ with hend | ⟨hrow, hover⟩
  · exact ⟨a₁, by simp [assignByRow, hend.finished], hmoved₁, .inl hend⟩
  · obtain ⟨a₂, hrun₂, hmoved₂, hat₂⟩ := assignByRow_spec h hci hrow hover
    exact ⟨a₂, hrun₂, hmoved₁.trans hmoved₂, .inr hat₂⟩

end VllmAscend.Attention.Planner
