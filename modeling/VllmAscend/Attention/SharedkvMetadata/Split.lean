import VllmAscend.Attention.SharedkvMetadata.Rows

/-!
# `BalanceSchedule` gives every row to exactly one core
-/

namespace VllmAscend.Attention.SharedkvMetadata

open Planner

variable {k : Kernel}

/-- Where core `i` starts; core `i` ends at `cut res (i + 1)`. -/
def cut (res : SplitResult) : Nat → ℕ ×ₗ ℕ
  | 0 => toLex (0, 0)
  | i + 1 => toLex (res.bN2End i, res.gS1End i)

def endOfWork (k : Kernel) : ℕ ×ₗ ℕ := toLex (u32 k.batchSize * u32 k.kvHeadNum, 0)

structure CoreInv (k : Kernel) (total : Int) (i : Nat) (a : Context) (res : SplitResult) :
    Prop where
  row : (planner k).AtRow a
  work : 0 < (planner k).remaining a
  unassigned : a.unassignedCost = (planner k).remaining a
  le_total : (planner k).remaining a ≤ total
  s2 : a.curS2Idx ≤ a.s1GCache.s2Start
  splitPart : a.curKvSplitPart = 1
  cut_eq : cut res i = pos a
  ordered : ∀ j < i, cut res j ≤ cut res (j + 1)
  maxCost : res.maxCost ≤ total
  noFd : res.numOfFdHead = 0 ∧ res.fdRes.fdUsedVecNum = 0

structure PlanOk (k : Kernel) (res : SplitResult) : Prop where
  used_pos : 1 ≤ res.usedCoreNum
  used_le : res.usedCoreNum ≤ k.aicCoreNum
  ordered : ∀ j < res.usedCoreNum, cut res j ≤ cut res (j + 1)
  reaches_end : cut res res.usedCoreNum = endOfWork k
  noFd : res.numOfFdHead = 0 ∧ res.fdRes.fdUsedVecNum = 0

/-! ## One core -/

variable {res : SplitResult} {a : Context} {ci : CostInfo} {costLimit : Int}

theorem finishCore_eq (hpart : a.curKvSplitPart = 1) (hs2 : a.curS2Idx ≤ a.s1GCache.s2Start) : finishCore k a res =
      ({ a with unassignedCost := a.unassignedCost - a.coreCache.cost }, recordCut a res) := by
  have hneed : isNeedRecordFDInfo { a with unassignedCost := a.unassignedCost - a.coreCache.cost }
      (recordCut a res) = false := by
    simp [isNeedRecordFDInfo, hpart]
  unfold finishCore
  dsimp only
  rw [hneed]
  simp only [Bool.false_eq_true, if_false]
  rw [if_neg (by omega)]

theorem cut_recordCut (a : Context) (res : SplitResult) : cut (recordCut a res) (a.curCoreIdx + 1) = pos a ∧
    ∀ j ≤ a.curCoreIdx, cut (recordCut a res) j = cut res j := by
  refine ⟨by simp [cut, recordCut, pos], ?_⟩
  intro j hj
  cases j with
  | zero => rfl
  | succ j => simp [cut, recordCut, Function.update_of_ne (by omega : j ≠ a.curCoreIdx)]

theorem assignBlocksToCore_spec (hk : KernelOk k)
    (hci : ∀ b < (planner k).batchSize, BatchDone (planner k) ci b) {total : Int} {i : Nat}
    (hi : i < k.aicCoreNum) (h : CoreInv k total i a res) :
    ∃ a' res', assignBlocksToCore k ci { a with curCoreIdx := i } res = some (a', res') ∧
      a'.curCoreIdx = i ∧ cut res' (i + 1) = pos a' ∧
      (∀ j < i + 1, cut res' j ≤ cut res' (j + 1)) ∧ res'.maxCost ≤ total ∧
      (res'.numOfFdHead = 0 ∧ res'.fdRes.fdUsedVecNum = 0) ∧
      ((planner k).AtEnd a' ∨ (i + 1 < k.aicCoreNum ∧ CoreInv k total (i + 1) a' res')) := by
  have hrows := rowsOk hk
  set a₀ := startCore k ci { a with curCoreIdx := i } with ha₀
  have hrow₀ : (planner k).AtRow a₀ :=
    ⟨h.row.notFinished, h.row.bN2, h.row.bIdx, h.row.batch, h.row.row, h.row.bN2Cost⟩
  have hrem₀ : (planner k).remaining a₀ = (planner k).remaining a := rfl
  obtain ⟨a₁, hrun, hmoved, hat⟩ := assign_spec hrows hci hrow₀
  have hcore : a₁.curCoreIdx = i := hmoved.core
  have hbal : a₁.coreCache.cost + (planner k).remaining a₁ = (planner k).remaining a := by
    have := hmoved.balance
    rw [show a₀.coreCache.cost = 0 from rfl] at this
    omega
  have hnn := hrows.remaining_nonneg a₁
  have hcut := cut_recordCut a₁ res
  rw [hcore] at hcut
  have hrun' : assignBlocksToCore k ci { a with curCoreIdx := i } res =
      some ({ a₁ with unassignedCost := a₁.unassignedCost - a₁.coreCache.cost }, recordCut a₁ res) := by
    have hblock : assignByBlock a₁ = some a₁ := by simp [assignByBlock, supportFd]
    simp only [assignBlocksToCore, ← ha₀, hrun, Option.bind_eq_bind, Option.bind_some, hblock,
      supportFd, Bool.false_eq_true, and_false, if_false]
    rw [finishCore_eq (hmoved.splitPart.trans h.splitPart) (hmoved.s2 h.s2)]
  have hordered : ∀ j < i + 1, cut (recordCut a₁ res) j ≤ cut (recordCut a₁ res) (j + 1) := by
    intro j hj
    rw [hcut.2 j (by omega)]
    rcases Nat.lt_succ_iff_lt_or_eq.mp hj with hj | rfl
    · rw [hcut.2 (j + 1) (by omega)]
      exact h.ordered j hj
    · rw [hcut.1, h.cut_eq]
      exact hmoved.pos_le
  have hmax : (recordCut a₁ res).maxCost ≤ total := by
    have := h.maxCost
    have := h.le_total
    simp only [recordCut]
    omega
  refine ⟨_, _, hrun', hcore, hcut.1, hordered, hmax, h.noFd, ?_⟩
  rcases hat with hend | ⟨hrow, hover⟩
  · exact .inl ⟨hend.finished, hend.bN2, hend.s1G⟩
  · right
    have hlimit := Overfull.limit_lt hrows hci hrow hover
    have hunassigned : a₁.unassignedCost = (planner k).remaining a := hmoved.unassigned.trans h.unassigned
    refine ⟨?_, ⟨⟨hrow.notFinished, hrow.bN2, hrow.bIdx, hrow.batch, hrow.row, hrow.bN2Cost⟩, ?_,
      ?_, ?_, hmoved.s2 h.s2, hmoved.splitPart.trans h.splitPart, hcut.1, hordered, hmax, h.noFd⟩⟩
    · -- The last core divides by one: its limit is all that is left.
      by_contra hlast
      have hone : k.aicCoreNum - i = 1 := by omega
      have hge : (planner k).remaining a ≤ a₁.coreCache.costLimit := by
        rw [hmoved.limit, ha₀]
        simp only [startCore, supportFd, Bool.false_eq_true, if_false, hone, Nat.cast_one, Int.tdiv_one, h.unassigned]
        exact le_max_left _ _
      omega
    · have := hover.1
      have := hrows.sum_batchCost_nonneg
        (Finset.Ico (a₁.curBN2Idx + 1) ((planner k).batchSize * (planner k).kvHeadNum))
      have := hrow.remaining_eq
      change 0 < (planner k).remaining a₁
      omega
    · change a₁.unassignedCost - a₁.coreCache.cost = (planner k).remaining a₁
      omega
    · change (planner k).remaining a₁ ≤ total
      have := h.le_total
      have := hmoved.cost_le
      rw [show a₀.coreCache.cost = 0 from rfl] at this
      omega

/-! ## All cores -/

theorem coreLoop_finished (cores : List Nat) (ha : a.isFinished = true) (hcost : res.maxCost ≤ costLimit) :
    coreLoop k ci costLimit cores a res = some { res with usedCoreNum := a.curCoreIdx + 1 } := by
  cases cores with
  | nil => rfl
  | cons i cores => simp [coreLoop, ha, not_lt.mpr hcost]

section

variable (hk : KernelOk k)

include hk

theorem coreLoop_spec (hci : ∀ b < (planner k).batchSize, BatchDone (planner k) ci b) {total : Int}
    (htotal : total ≤ costLimit) (m i : Nat) (him : i + m = k.aicCoreNum) (hm : 0 < m) (h : CoreInv k total i a res) :
    ∃ res', coreLoop k ci costLimit (List.range' i m) a res = some res' ∧ PlanOk k res' := by
  induction m generalizing i a res with
  | zero => omega
  | succ m ih =>
    obtain ⟨a', res', hrun, hcore, hcut, hordered, hmax, hfd, hat⟩ := assignBlocksToCore_spec hk hci (by omega) h
    have hstep : coreLoop k ci costLimit (List.range' i (m + 1)) a res =
        coreLoop k ci costLimit (List.range' (i + 1) m) a' res' := by
      have hmax := h.maxCost
      have hgo : (a.isFinished || decide (a.unassignedCost ≤ 0)) = false := by
        simp [h.row.notFinished, h.unassigned, h.work]
      rw [List.range'_succ, coreLoop, if_neg (by omega), hgo, hrun]
      rfl
    rw [hstep]
    rcases hat with hend | ⟨hlt, hinv⟩
    · refine ⟨_, coreLoop_finished _ hend.finished (hmax.trans htotal), ?_⟩
      rw [hcore]
      refine ⟨by simp, by simp; omega, hordered, ?_, hfd⟩
      change cut res' (i + 1) = endOfWork k
      rw [hcut, pos, hend.bN2, hend.s1G]
      rfl
    · exact ih (i + 1) (by omega) (by omega) hinv

section

variable (hz : (calcSplitInfo k).isKvSeqAllZero = false)

include hz

theorem totalCost_pos : 0 < ∑ b ∈ Finset.range (planner k).batchSize, (planner k).batchCost b := by
  have hrows := rowsOk hk
  simp only [calcSplitInfo, List.all_eq_false, List.mem_range, Bool.not_eq_true,
    Bool.not_eq_false', Bool.and_eq_true, bne_iff_ne] at hz
  obtain ⟨b, hb, hs1G, hs2⟩ := hz
  have hn : 0 < (planner k).s1GBaseNum b := Nat.pos_of_ne_zero hs1G
  have hs2pos : 0 < getS2SeqSize k b := by
    by_contra h0
    refine hs2 (Nat.div_eq_of_lt ?_)
    have := hk.s2BaseSize
    omega
  have hblock : 0 < ((planner k).rowAt b ((planner k).s1GBaseNum b - 1)).s1GBlock := by
    have := winPart_block_pos (blocks_of_nonempty hs2pos (lastRow_range hk (s1Size_pos hn) hs2pos hn)).1
    rw [rowAt_eq (by omega)]
    dsimp only
    omega
  have hcost : 0 < (planner k).batchCost b := by
    rw [batchCost, Finset.range_eq_Ico]
    exact hrows.restOfBatch_pos hn hblock
  exact lt_of_lt_of_le hcost (Finset.single_le_sum (f := (planner k).batchCost)
    (fun _ _ => hrows.batchCost_nonneg _) (Finset.mem_range.mpr hb))

theorem initContext_spec :
    (planner k).AtRow (initContext k (planner k).calcCostInfo) ∧ 0 < (planner k).calcCostInfo.totalCost ∧
    (planner k).remaining (initContext k (planner k).calcCostInfo) = (planner k).calcCostInfo.totalCost := by
  have hrows := rowsOk hk
  obtain ⟨hci, htotal⟩ := calcCostInfo_spec hrows hz
  have hpos := totalCost_pos hk hz
  have hkv : (planner k).kvHeadNum = 1 := by
    change u32 k.kvHeadNum = 1
    rw [hk.kvHeadNum]
    rfl
  have hB : 0 < (planner k).batchSize := by
    by_contra h0
    simp [show (planner k).batchSize = 0 by omega] at hpos
  rw [hkv] at htotal
  simp only [Nat.cast_one, mul_one] at htotal
  have hrow : (planner k).AtRow (initContext k (planner k).calcCostInfo) := by
    refine ⟨rfl, by simpa [hkv, initContext] using hB, by simp [initContext], rfl, hrows.describes 0 0 default, ?_⟩
    change (planner k).calcCostInfo.bN2CostOfEachBatch 0 = (planner k).restOfBatch 0 0
    rw [(hci 0 hB).1, batchCost, restOfBatch, Finset.range_eq_Ico]
  refine ⟨hrow, htotal ▸ hpos, ?_⟩
  rw [hrow.remaining_eq, htotal, Finset.range_eq_Ico, Finset.sum_eq_sum_Ico_succ_bot hB, hkv]
  simp only [initContext, (hci 0 hB).1, mul_one, Nat.div_one]

theorem calcSplitPlan_spec (hcost : (planner k).calcCostInfo.totalCost ≤ costLimit) (res : SplitResult)
    (hfd : res.numOfFdHead = 0 ∧ res.fdRes.fdUsedVecNum = 0) :
    ∃ res', calcSplitPlan k (planner k).calcCostInfo costLimit res = some res' ∧ PlanOk k res' := by
  obtain ⟨hrow, hpos, hrem⟩ := initContext_spec hk hz
  have hci := (calcCostInfo_spec (rowsOk hk) hz).1
  have hcores := hk.aicCoreNum
  unfold calcSplitPlan
  rw [if_neg (by omega), List.range_eq_range']
  refine coreLoop_spec hk hci hcost k.aicCoreNum 0 (by omega) hcores
    ⟨hrow, hrem ▸ hpos, hrem.symm, hrem.le, le_rfl, rfl, rfl, ?_, hpos.le, hfd⟩
  omega

end

theorem balanceSchedule_spec (hcost : (planner k).calcCostInfo.totalCost ≤ int64Max) :
    ∃ res, balanceSchedule k = some res ∧ PlanOk k res := by
  unfold balanceSchedule
  cases hz : (calcSplitInfo k).isKvSeqAllZero with
  | true =>
    refine ⟨_, rfl, ⟨le_rfl, hk.aicCoreNum, ?_, rfl, rfl, rfl⟩⟩
    intro j hj
    obtain rfl : j = 0 := by simpa using hj
    refine Prod.Lex.toLex_le_toLex.mpr ?_
    omega
  | false =>
    obtain ⟨res, hrun, hplan⟩ := calcSplitPlan_spec hk hz hcost
      { maxCost := int64Max, usedCoreNum := 1 } ⟨rfl, rfl⟩
    have hused : max res.usedCoreNum 1 = res.usedCoreNum := by
      have := hplan.used_pos
      omega
    refine ⟨res, ?_, hplan⟩
    have hfd : ¬ res.numOfFdHead > 0 := by simp [hplan.noFd.1]
    rw [if_neg (by simp), hrun]
    simp only [Option.map_some, hfd, if_false, hused]

end

/-! ## The table that the cores read -/

def FaMetadata.start (m : FaMetadata) : ℕ ×ₗ ℕ := toLex (m.bN2Start, m.mStart)

def FaMetadata.stop (m : FaMetadata) : ℕ ×ₗ ℕ := toLex (m.bN2End, m.mEnd)

/-- The ranges of the enabled cores are consecutive, go from `(0, 0)` to the end of the work, and
each row with a block is in exactly one of them. No core has FD work. -/
structure SplitsWork (k : Kernel) (res : SplitResult) : Prop where
  enabled : 1 ≤ res.usedCoreNum ∧ res.usedCoreNum ≤ k.aicCoreNum ∧
    ∀ i, (genFaMetadata res i).coreEnable = true ↔ i < res.usedCoreNum
  starts : (genFaMetadata res 0).start = toLex (0, 0)
  consecutive : ∀ i, i + 1 < res.usedCoreNum →
    (genFaMetadata res (i + 1)).start = (genFaMetadata res i).stop
  ordered : ∀ i < res.usedCoreNum, (genFaMetadata res i).start ≤ (genFaMetadata res i).stop
  ends : (genFaMetadata res (res.usedCoreNum - 1)).stop =
    toLex (u32 k.batchSize * u32 k.kvHeadNum, 0)
  covers : ∀ bN2 < u32 k.batchSize * u32 k.kvHeadNum,
    ∀ r < (calcSplitInfo k).s1GBaseNum (bN2 / u32 k.kvHeadNum),
    0 < ((planner k).rowAt (bN2 / u32 k.kvHeadNum) r).s1GBlock →
    ∃! i, i < res.usedCoreNum ∧ (genFaMetadata res i).start ≤ toLex (bN2, r) ∧
      toLex (bN2, r) < (genFaMetadata res i).stop
  noFd : res.numOfFdHead = 0 ∧ ∀ i, (genFdMetadata res i).coreEnable = false

theorem genFaMetadata_cut {i : Nat} (hi : i < res.usedCoreNum) :
    (genFaMetadata res i).start = cut res i ∧ (genFaMetadata res i).stop = cut res (i + 1) := by
  unfold genFaMetadata
  rw [if_neg (by omega)]
  cases i with
  | zero | succ i => exact ⟨rfl, rfl⟩

theorem PlanOk.splitsWork (h : PlanOk k res) : SplitsWork k res := by
  have hpos := h.used_pos
  have hsub : res.usedCoreNum - 1 + 1 = res.usedCoreNum := by omega
  refine ⟨⟨hpos, h.used_le, ?_⟩, ?_, ?_, ?_, ?_, ?_, h.noFd.1, ?_⟩
  · intro i
    unfold genFaMetadata
    split <;> simp <;> omega
  · exact (genFaMetadata_cut (by omega)).1
  · intro i hi
    rw [(genFaMetadata_cut hi).1, (genFaMetadata_cut (by omega : i < res.usedCoreNum)).2]
  · intro i hi
    rw [(genFaMetadata_cut hi).1, (genFaMetadata_cut hi).2]
    exact h.ordered i hi
  · rw [(genFaMetadata_cut (by omega)).2, hsub, h.reaches_end]
    rfl
  · intro bN2 hbN2 r _ _
    have hlo : cut res 0 ≤ toLex (bN2, r) := by
      rw [cut, Prod.Lex.toLex_le_toLex]
      omega
    have hhi : toLex (bN2, r) < cut res res.usedCoreNum := by
      rw [h.reaches_end]
      exact Prod.Lex.toLex_lt_toLex.mpr (.inl hbN2)
    obtain ⟨i, ⟨hi, hstart, hstop⟩, huniq⟩ := Loop.existsUnique_range _ _ h.ordered hlo hhi
    refine ⟨i, ⟨hi, ?_, ?_⟩, ?_⟩
    · rw [(genFaMetadata_cut hi).1]
      exact hstart
    · rw [(genFaMetadata_cut hi).2]
      exact hstop
    · rintro j ⟨hj, hjstart, hjstop⟩
      rw [(genFaMetadata_cut hj).1] at hjstart
      rw [(genFaMetadata_cut hj).2] at hjstop
      exact huniq j ⟨hj, hjstart, hjstop⟩
  · simp [genFdMetadata, h.noFd.2]

def sampleParams : Params :=
  { actSeqLenQ := some [0, 2, 2, 5], seqUsedKv := some [600, 8, 3], queryHeadNum := 64
    kvHeadNum := 1, layoutQuery := "TND", cmpRatio := 4, cmpTopK := 512, aicCoreNum := 3 }

end VllmAscend.Attention.SharedkvMetadata
