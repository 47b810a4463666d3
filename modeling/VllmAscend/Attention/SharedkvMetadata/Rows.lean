import VllmAscend.Attention.Planner.Proofs
import VllmAscend.Attention.SharedkvMetadata.Model

/-!
# The rows of the kernel

For parameters that pass `ParamsCheck`: a row has a cost exactly when it has a block, and the last
row of a batch has a block when any row has one.
-/

namespace VllmAscend.Attention.SharedkvMetadata

theorem u32_lt (x : Int) : u32 x < 2 ^ 32 := by
  unfold u32
  omega

structure KernelOk (k : Kernel) : Prop where
  kvHeadNum : k.kvHeadNum = 1
  aicCoreNum : 0 < k.aicCoreNum
  isS1G : k.isS1G = true
  s2BaseSize : 0 < k.s2BaseSize
  cmp : (k.hasCmpKv = true ∧ 1 < k.cmpRatio) ∨
    (k.hasCmpKv = false ∧ k.isCFA = false ∧ k.isSCFA = false)
  mask : k.attentionMode = 0 ∨
    (SparseMode.ofInt k.oriMaskMode = .rightDownCausal ∧ k.preToken = int64Max) ∨
    (SparseMode.ofInt k.oriMaskMode = .band ∧ k.preToken = 127 ∧ k.nextToken = 0)

theorem paramsInit_ok {p : Params} (h : paramsCheck p = true) : KernelOk (paramsInit p) := by
  simp only [paramsCheck, checkSingleParam, checkFeature, Bool.and_eq_true, Bool.or_eq_true,
    Bool.not_eq_true', Bool.or_eq_false_iff, beq_iff_eq, beq_eq_false_iff_ne] at h
  obtain ⟨⟨⟨⟨⟨⟨⟨⟨⟨⟨⟨-, haic, -⟩, -⟩, -⟩, -⟩, hkv⟩, hmode⟩, hwin⟩, hlayout⟩, -⟩, -⟩, -⟩ := h.1
  have hcmp := h.2
  refine ⟨hkv, Nat.pos_of_ne_zero haic, ?_, ?_, ?_, ?_⟩
  · rcases hlayout with hl | hl <;> simp [paramsInit, hl]
  · cases hsoc : processSocVersion p <;> simp [paramsInit, hsoc]
  · rcases hcmp with hc | ⟨-, hr⟩
    · exact .inr ⟨hc, by simp [paramsInit, hc], by simp [paramsInit, hc]⟩
    · cases hc : p.hasCmpKv with
      | false => exact .inr ⟨hc, by simp [paramsInit, hc], by simp [paramsInit, hc]⟩
      | true => exact .inl ⟨hc, by rcases hr with hr | hr <;> simp [paramsInit, hr]⟩
  · rcases hmode with (hm | hm) | hm
    · exact .inl (by simp [paramsInit, hm])
    · exact .inr (.inl ⟨hm, by simp [paramsInit, hm]⟩)
    · exact .inr (.inr ⟨hm, by simp [paramsInit, hm, hwin], by simp [paramsInit, hm]⟩)

/-! ## One part of a row -/

section PartCost

variable {s2Start s2End : Nat} {tail normalCost tailCost : Int}

theorem calcPartCost_zero (h : (calcPartCost s2Start s2End tail normalCost tailCost).block = 0) :
    (calcPartCost s2Start s2End tail normalCost tailCost).cost = 0 := by
  unfold calcPartCost at *
  split
  · rfl
  · rename_i hlt
    rw [if_neg hlt] at h
    simp only at h
    omega

theorem calcPartCost_pos (hn : 0 < normalCost) (ht : tail ≠ 0 → 0 < tailCost)
    (h : 0 < (calcPartCost s2Start s2End tail normalCost tailCost).block) :
    0 < (calcPartCost s2Start s2End tail normalCost tailCost).cost := by
  unfold calcPartCost at *
  split
  · rename_i hge
    simp [hge] at h
  · by_cases h0 : tail = 0
    · simp only [h0, ne_eq, not_true_eq_false, if_false]
      have : 0 < normalCost * ((s2End - s2Start : Nat) : Int) := by
        apply Int.mul_pos hn
        omega
      simpa using this
    · simp only [ne_eq, h0, not_false_eq_true, if_true]
      have : 0 ≤ normalCost * ((s2End - s2Start - 1 : Nat) : Int) := Int.mul_nonneg hn.le (by omega)
      omega

theorem calcPartCost_last_nonneg (hn : 0 ≤ normalCost) (ht : 0 ≤ tailCost) :
    0 ≤ (calcPartCost s2Start s2End tail normalCost tailCost).lastBlockCost := by
  unfold calcPartCost
  split_ifs
  · exact le_rfl
  all_goals assumption

end PartCost

theorem winCalcCost_pos {m s2 : Nat} (h : 0 < s2) : 0 < winCalcCost m s2 := by
  simp only [winCalcCost, Nat.shiftRight_eq_div_pow]
  omega

theorem cmpCalcCost_pos {m s2 : Nat} (h : 0 < s2) : 0 < cmpCalcCost m s2 := winCalcCost_pos h

theorem calcCostTable_nonneg (k : Kernel) (m s2 t w c : Nat) (x y : BlockType) :
    0 ≤ calcCostTable k m s2 t w c x y := by
  have hwin : ∀ m s2, 0 ≤ winCalcCost m s2 := fun m s2 => by
    simp only [winCalcCost]
    omega
  cases x <;> cases y <;> simp only [calcCostTable] <;> first
    | exact le_rfl
    | exact hwin _ _
    | (split_ifs <;> first | exact le_rfl | exact hwin _ _)

/-! ## The blocks of a token range -/

section Blocks

variable {k : Kernel} {range : Int × Int} {bc : BatchCache} {c : S1GCache}

def RangeEmpty (s2Size : Nat) (range : Int × Int) : Prop := range.1 ≥ s2Size ∨ range.2 < 0 ∨ range.2 < range.1

theorem blocks_of_empty (hk : KernelOk k) (h : RangeEmpty bc.s2Size range) :
    (calcBlockRangeAndTailSize k range bc c).winS2End = 0 ∧
    (calcBlockRangeAndTailSize k range bc c).cmpS2End = 0 := by
  unfold RangeEmpty at h
  simp only [calcBlockRangeAndTailSize]
  rw [if_pos h, if_pos h]
  rcases hk.cmp with ⟨hc, hr⟩ | ⟨hc, hcfa, hscfa⟩
  · have h1 : (1 : Int).tdiv k.cmpRatio = 0 := Int.tdiv_eq_zero_of_lt (by omega) (by omega)
    simp [hc, h1]
  · simp [hcfa, hscfa]

theorem blocks_of_nonempty (hs2 : 0 < bc.s2Size) (h : ¬ RangeEmpty bc.s2Size range) :
    0 < (calcBlockRangeAndTailSize k range bc c).winS2End ∧
    0 ≤ (calcBlockRangeAndTailSize k range bc c).winS2TailSize := by
  have hle : clip range.1 0 (bc.s2Size - 1) ≤ clip range.2 0 (bc.s2Size - 1) := by
    simp only [RangeEmpty, not_or, not_le, not_lt] at h
    unfold clip
    split_ifs <;> omega
  unfold RangeEmpty at h
  simp only [calcBlockRangeAndTailSize]
  rw [if_neg h, if_neg h, if_neg h, if_neg h]
  have := Int.tdiv_nonneg (sub_nonneg.mpr hle) (Int.natCast_nonneg k.s2BaseSize)
  exact ⟨by omega, Int.tmod_nonneg _ (by omega)⟩

theorem blocks_cmp (hk : KernelOk k) (hc : k.hasCmpKv = false) : (calcBlockRangeAndTailSize k range bc c).cmpS2End =
      (calcBlockRangeAndTailSize k range bc c).cmpS2Start := by
  rcases hk.cmp with ⟨hc', -⟩ | ⟨-, hcfa, hscfa⟩
  · simp [hc] at hc'
  · simp [calcBlockRangeAndTailSize, hcfa, hscfa]

theorem blocks_cmpTail : 0 ≤ (calcBlockRangeAndTailSize k range bc c).cmpS2TailSize := Int.natCast_nonneg _

end Blocks

/-! ## The two parts of a row -/

section Rows

variable (k : Kernel) (b r : Nat)

def blocks : S1GCache :=
  calcBlockRangeAndTailSize k (calcS2TokenRange k r (calcBatchCache k b)) (calcBatchCache k b)
    { bIdx := b, s1GIdx := r }

def costTable : BlockType → BlockType → Int :=
  calcCostTable k k.mBaseSize k.s2BaseSize ((calcSplitInfo k).s1GTailSize b)
    (blocks k b r).winS2TailSize.toNat (blocks k b r).cmpS2TailSize.toNat

def winPart : PartCost :=
  let row := if isTailRow (calcSplitInfo k) (blocks k b r) then .winTailBlock else .winNormalBlock
  calcPartCost (blocks k b r).winS2Start (blocks k b r).winS2End (blocks k b r).winS2TailSize
    (costTable k b r row .winNormalBlock) (costTable k b r row .winTailBlock)

def cmpPart : PartCost :=
  let row := if isTailRow (calcSplitInfo k) (blocks k b r) then .cmpTailBlock else .cmpNormalBlock
  calcPartCost (blocks k b r).cmpS2Start (blocks k b r).cmpS2End (blocks k b r).cmpS2TailSize
    (costTable k b r row .cmpNormalBlock) (costTable k b r row .cmpTailBlock)

theorem calcS1GCache_row (c : S1GCache) :
    (calcS1GCache k r (calcBatchCache k b) c).toRowCache = (planner k).rowAt b r := by
  simp only [Planner.rowAt, planner, calcS1GCache]
  split <;> rfl

variable {k b r}

theorem rowAt_eq (h : r < (planner k).s1GBaseNum b) :
    (planner k).rowAt b r =
      { s2Start := if (winPart k b r).block > 0 then 0 else (blocks k b r).cmpS2Start
        s2End := if (cmpPart k b r).block > 0 then (blocks k b r).cmpS2End else (blocks k b r).winS2End
        s1GBlock := (winPart k b r).block + (cmpPart k b r).block
        s1GCost := (winPart k b r).cost + (cmpPart k b r).cost
        s1GLastBlockCost :=
          if (cmpPart k b r).block > 0 then (cmpPart k b r).lastBlockCost
          else (winPart k b r).lastBlockCost } := by
  have hn : (calcSplitInfo k).s1GBaseNum (calcBatchCache k b).bIdx ≠ 0 := by
    change (planner k).s1GBaseNum b ≠ 0
    omega
  simp only [Planner.rowAt, planner, calcS1GCache]
  rw [if_neg hn]
  rfl

theorem tail_of_isTailRow (h : isTailRow (calcSplitInfo k) (blocks k b r) = true) :
    (calcSplitInfo k).s1GTailSize b ≠ 0 := by
  simp only [isTailRow, Bool.and_eq_true, bne_iff_ne] at h
  exact h.2

theorem winRow_cost_pos (hk : KernelOk k) :
    0 < costTable k b r
      (if isTailRow (calcSplitInfo k) (blocks k b r) then .winTailBlock else .winNormalBlock)
      .winNormalBlock := by
  split <;> rename_i hrow
  · simp only [costTable, calcCostTable, tail_of_isTailRow hrow, if_false]
    exact winCalcCost_pos hk.s2BaseSize
  · exact winCalcCost_pos hk.s2BaseSize

theorem winRow_tailCost_pos (h : 0 < (blocks k b r).winS2TailSize) :
    0 < costTable k b r
      (if isTailRow (calcSplitInfo k) (blocks k b r) then .winTailBlock else .winNormalBlock)
      .winTailBlock := by
  have h0 : (blocks k b r).winS2TailSize.toNat ≠ 0 := by omega
  split <;> rename_i hrow
  · simp only [costTable, calcCostTable, tail_of_isTailRow hrow, h0, or_self, if_false]
    exact winCalcCost_pos (by omega)
  · simp only [costTable, calcCostTable, h0, if_false]
    exact winCalcCost_pos (by omega)

theorem cmpRow_cost_pos (hk : KernelOk k) (hc : k.hasCmpKv = true) :
    0 < costTable k b r
      (if isTailRow (calcSplitInfo k) (blocks k b r) then .cmpTailBlock else .cmpNormalBlock)
      .cmpNormalBlock := by
  split <;> rename_i hrow
  · simp only [costTable, calcCostTable, hc, tail_of_isTailRow hrow, Bool.not_true,
      Bool.false_or, decide_false, Bool.false_eq_true, if_false]
    exact cmpCalcCost_pos hk.s2BaseSize
  · simp only [costTable, calcCostTable, hc, if_true]
    exact cmpCalcCost_pos hk.s2BaseSize

theorem cmpRow_tailCost_pos (hc : k.hasCmpKv = true) (h : 0 < (blocks k b r).cmpS2TailSize) :
    0 < costTable k b r
      (if isTailRow (calcSplitInfo k) (blocks k b r) then .cmpTailBlock else .cmpNormalBlock)
      .cmpTailBlock := by
  have h0 : (blocks k b r).cmpS2TailSize.toNat ≠ 0 := by omega
  split <;> rename_i hrow
  · simp only [costTable, calcCostTable, hc, tail_of_isTailRow hrow, h0, Bool.not_true,
      Bool.false_or, decide_false, Bool.false_eq_true, if_false]
    exact cmpCalcCost_pos (by omega)
  · simp only [costTable, calcCostTable, hc, h0, Bool.not_true, Bool.false_or, decide_false,
      Bool.false_eq_true, if_false]
    exact cmpCalcCost_pos (by omega)

theorem costTable_nonneg (x y : BlockType) : 0 ≤ costTable k b r x y := calcCostTable_nonneg ..

def CostMatchesBlock (part : PartCost) : Prop := (part.block = 0 → part.cost = 0) ∧ (0 < part.block → 0 < part.cost)

theorem winPart_cost (hk : KernelOk k) (hs2 : 0 < getS2SeqSize k b) : CostMatchesBlock (winPart k b r) := by
  unfold winPart
  by_cases hempty : RangeEmpty (getS2SeqSize k b) (calcS2TokenRange k r (calcBatchCache k b))
  · have hwin : (blocks k b r).winS2End = 0 := (blocks_of_empty hk hempty).1
    unfold CostMatchesBlock calcPartCost
    rw [hwin]
    simp
  · have htail : 0 ≤ (blocks k b r).winS2TailSize := (blocks_of_nonempty hs2 hempty).2
    exact ⟨calcPartCost_zero, calcPartCost_pos (winRow_cost_pos hk) fun h0 => winRow_tailCost_pos (by omega)⟩

theorem cmpPart_cost (hk : KernelOk k) : CostMatchesBlock (cmpPart k b r) := by
  unfold cmpPart
  cases hc : k.hasCmpKv with
  | false =>
    have hcmp : (blocks k b r).cmpS2End = (blocks k b r).cmpS2Start := blocks_cmp hk hc
    unfold CostMatchesBlock calcPartCost
    rw [hcmp]
    simp
  | true =>
    have htail : 0 ≤ (blocks k b r).cmpS2TailSize := blocks_cmpTail
    exact ⟨calcPartCost_zero, calcPartCost_pos (cmpRow_cost_pos hk hc) fun h0 => cmpRow_tailCost_pos hc (by omega)⟩

theorem winPart_block_pos (h : 0 < (blocks k b r).winS2End) : 0 < (winPart k b r).block := by
  have h0 : (blocks k b r).winS2Start = 0 := rfl
  unfold winPart calcPartCost
  rw [h0, if_neg (by omega)]
  exact h

/-! ## The last row -/

theorem calcSplitInfo_s1GBaseNum (b : Nat) :
    (planner k).s1GBaseNum b =
      (getS1SeqSize k b * k.groupSize + (k.mBaseSize - 1)) / k.mBaseSize := rfl

theorem lastRow_tokens {n g m : Nat} (hn : 0 < (n * g + (m - 1)) / m) :
    0 < g ∧ ((n * g + (m - 1)) / m - 1) * m < n * g ∧ n * g ≤ ((n * g + (m - 1)) / m - 1) * m + m := by
  have hm : 0 < m := by
    rcases Nat.eq_zero_or_pos m with rfl | hm
    · simp at hn
    · exact hm
  set q := (n * g + (m - 1)) / m with hq
  have hlo : q * m ≤ n * g + (m - 1) := Nat.div_mul_le_self _ _
  have hhi : n * g + (m - 1) < (q + 1) * m := by
    rw [Nat.mul_comm (q + 1)]
    exact Nat.lt_mul_div_succ _ hm
  have hqm : (q - 1) * m + m = q * m := by rw [← Nat.succ_mul, Nat.succ_eq_add_one, Nat.sub_add_cancel hn]
  rw [Nat.succ_mul] at hhi
  refine ⟨Nat.pos_of_ne_zero ?_, by omega, by omega⟩
  rintro rfl
  omega

theorem getS1SeqSize_lt (k : Kernel) (b : Nat) : getS1SeqSize k b < 2 ^ 32 := by
  unfold getS1SeqSize
  split
  · exact u32_lt _
  · split <;> exact u32_lt _

variable (hk : KernelOk k)

include hk

theorem calcS2TokenRange_masked (hmode : k.attentionMode ≠ 0) (r : Nat)
    (hs1 : 0 < getS1SeqSize k b) (hs2 : 0 < getS2SeqSize k b) : calcS2TokenRange k r (calcBatchCache k b) =
      (((r * k.mBaseSize / k.groupSize : Nat) : Int) - (calcBatchCache k b).preTokenLeftUp,
        (min ((r : Int) * k.mBaseSize + k.mBaseSize) (getS1SeqSize k b * k.groupSize) - 1).tdiv
          k.groupSize + (calcBatchCache k b).nextTokenLeftUp) := by
  have hlen : ¬ ((calcBatchCache k b).s1Size = 0 ∨ (calcBatchCache k b).s2Size = 0) := by
    simp only [calcBatchCache]
    omega
  unfold calcS2TokenRange
  rw [if_neg hlen, if_neg hmode, hk.isS1G]
  rfl

theorem lastRow_range (hs1 : 0 < getS1SeqSize k b) (hs2 : 0 < getS2SeqSize k b)
    (hn : 0 < (planner k).s1GBaseNum b) : ¬ RangeEmpty (getS2SeqSize k b)
      (calcS2TokenRange k ((planner k).s1GBaseNum b - 1) (calcBatchCache k b)) := by
  rw [calcSplitInfo_s1GBaseNum] at hn ⊢
  obtain ⟨hg, hfirst, hlast⟩ := lastRow_tokens hn
  set r := (getS1SeqSize k b * k.groupSize + (k.mBaseSize - 1)) / k.mBaseSize - 1
  have hlt := getS1SeqSize_lt k b
  by_cases hmode : k.attentionMode = 0
  · unfold calcS2TokenRange RangeEmpty
    simp only [calcBatchCache, hmode, if_true]
    rw [if_neg (by omega)]
    omega
  rw [calcS2TokenRange_masked hk hmode r hs1 hs2]
  -- The last row holds the last query token.
  have hmin : min ((r : Int) * k.mBaseSize + k.mBaseSize) (getS1SeqSize k b * k.groupSize) - 1 =
      ((k.groupSize * getS1SeqSize k b - (0 + 1) : Nat) : Int) := by
    rw [min_eq_right (by exact_mod_cast hlast), Nat.cast_sub (Nat.mul_pos hg hs1)]
    push_cast
    ring
  rw [hmin, ← Int.ofNat_tdiv, Nat.mul_sub_div _ _ _ (Nat.mul_pos hg hs1)]
  have hfirstTok : r * k.mBaseSize / k.groupSize < getS1SeqSize k b := (Nat.div_lt_iff_lt_mul hg).mpr hfirst
  rcases hk.mask with hm | ⟨hm, hpre⟩ | ⟨hm, hpre, hnext⟩
  · exact absurd hm hmode
  · simp only [RangeEmpty, calcBatchCache, calcPreTokenLeftUp, calcNextTokenLeftUp, hm, hpre, int64Max, Nat.zero_div]
    omega
  · simp only [RangeEmpty, calcBatchCache, calcPreTokenLeftUp, calcNextTokenLeftUp, hm, hpre,
      hnext, if_true, Nat.zero_div]
    omega

omit hk in
theorem s1Size_pos (hn : 0 < (planner k).s1GBaseNum b) : 0 < getS1SeqSize k b := by
  obtain ⟨-, hlt, -⟩ := lastRow_tokens hn
  exact Nat.pos_of_ne_zero fun h0 => by simp [h0] at hlt

theorem rowAt_block_of_s2Size (hr : r < (planner k).s1GBaseNum b)
    (hs2 : getS2SeqSize k b = 0) : ((planner k).rowAt b r).s1GBlock = 0 := by
  have hrange : calcS2TokenRange k r (calcBatchCache k b) = (0, 0) := by exact if_pos (.inr hs2)
  have hempty : RangeEmpty (calcBatchCache k b).s2Size (calcS2TokenRange k r (calcBatchCache k b)) := by
    rw [hrange]
    exact .inl (by simp [calcBatchCache, hs2])
  have hwin : (blocks k b r).winS2End = 0 := (blocks_of_empty hk hempty).1
  have hcmp : (blocks k b r).cmpS2End = 0 := (blocks_of_empty hk hempty).2
  rw [rowAt_eq hr]
  unfold winPart cmpPart calcPartCost
  rw [hwin, hcmp]
  rfl

theorem rowsOk : (planner k).RowsOk where
  kvHeadNum_pos := by
    change 0 < u32 k.kvHeadNum
    rw [hk.kvHeadNum]
    decide
  describes b r c := by
    have h := calcS1GCache_row k b r c
    exact ⟨by rw [← h]; rfl, by rw [Planner.rowCost, ← h]; rfl, by rw [← h]; rfl⟩
  cost_pos b r hr hpos := by
    have hs2 : 0 < getS2SeqSize k b := by
      by_contra h0
      have := rowAt_block_of_s2Size hk hr (by omega)
      omega
    obtain ⟨hwin0, hwin⟩ := winPart_cost (r := r) hk hs2
    obtain ⟨hcmp0, hcmp⟩ := cmpPart_cost (b := b) (r := r) hk
    rw [rowAt_eq hr] at hpos
    rw [Planner.rowCost, rowAt_eq hr]
    dsimp only at hpos ⊢
    rcases Nat.eq_zero_or_pos (winPart k b r).block with hw | hw <;>
    rcases Nat.eq_zero_or_pos (cmpPart k b r).block with hc | hc <;> omega
  cost_zero b r hr h0 := by
    rw [rowAt_eq hr] at h0
    rw [Planner.rowCost, rowAt_eq hr]
    dsimp only at h0 ⊢
    have hw : (winPart k b r).cost = 0 := calcPartCost_zero (show (winPart k b r).block = 0 by omega)
    have hc := (cmpPart_cost (b := b) (r := r) hk).1 (by omega)
    omega
  last_nonneg b r hr := by
    rw [rowAt_eq hr]
    dsimp only
    split <;> exact calcPartCost_last_nonneg (costTable_nonneg _ _) (costTable_nonneg _ _)
  last_row b r hr hpos := by
    have hs2 : 0 < getS2SeqSize k b := by
      by_contra h0
      have := rowAt_block_of_s2Size hk hr (by omega)
      omega
    have hn : 0 < (planner k).s1GBaseNum b := by omega
    have hlast := lastRow_range hk (s1Size_pos hn) hs2 hn
    rw [rowAt_eq (by omega)]
    dsimp only
    have := winPart_block_pos (blocks_of_nonempty hs2 hlast).1
    omega
  seqEmpty b r hb hr := by
    simp only [planner, Bool.or_eq_true, beq_iff_eq] at hb
    have := s1Size_pos (k := k) (b := b) (by omega)
    exact rowAt_block_of_s2Size hk hr (by omega)

end Rows

end VllmAscend.Attention.SharedkvMetadata
