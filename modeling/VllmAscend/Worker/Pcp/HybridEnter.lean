import VllmAscend.Worker.Pcp.Hybrid

/-!
# Entering full attention

The prefill rows of the linear parts are put back in the order of the requests. The decode rows are laid
out token by token, or rank by rank where there is a speculative config.
-/

namespace VllmAscend.Worker.Pcp

open Ragged List Function

namespace HybridBatch

variable {batch : HybridBatch} {W : Nat}

/-! ## The linear partition -/

def localCount (W len rank : Nat) : Nat := len / W + if rank < len % W then 1 else 0

def localCounts (W len : Nat) : List Nat := (range W).map (localCount W len)

theorem sum_localCount (W len k : Nat) : ((range k).map (localCount W len)).sum =
      k * (len / W) + min k (len % W) := by
  induction k with
  | zero => simp
  | succ k ih =>
    rw [range_succ, map_append, sum_append, ih, map_singleton, sum_singleton, localCount, Nat.add_mul]
    split <;> omega

theorem sum_localCounts (hW : 0 < W) (len : Nat) : (localCounts W len).sum = len := by
  have hmod := Nat.mod_lt len hW
  rw [localCounts, sum_localCount, Nat.min_eq_right hmod.le, Nat.mul_comm, Nat.div_add_mod']

theorem localCount_le (W len rank : Nat) : localCount W len rank ≤ localCount W len 0 := by
  unfold localCount
  split <;> split <;> omega

theorem numPrefillTokensAllranks_eq : batch.numPrefillTokensAllranks W = batch.prefillTokensTensor.map (localCounts W) := by
  unfold numPrefillTokensAllranks getCpLocalSeqLens
  rw [map_map]
  apply map_congr_left
  intro len _
  rw [comp_apply, map_map]
  apply map_congr_left
  intro rank _
  have hmod : len - len / W * W = len % W := by rw [Nat.mod_eq_sub_div_mul]
  simp only [comp_apply, Nat.mul_one, Nat.div_one, range_one, map_singleton, getD_cons_zero, Nat.add_zero, localCount]
  split <;> omega

variable {rank : Nat}

theorem numPrefillScheduledTokensLinear_eq (hrank : rank < W) : batch.numPrefillScheduledTokensLinear W rank =
      batch.prefillTokensTensor.map (localCount W · rank) := by
  rw [numPrefillScheduledTokensLinear, numPrefillTokensAllranks_eq, map_map]
  apply map_congr_left
  intro len _
  rw [comp_apply, localCounts, getD_map_range hrank]

theorem numPrefillTokensCuRanks_eq (hrank : rank < W) : batch.numPrefillTokensCuRanks W rank =
      batch.prefillTokensTensor.map fun len => start (localCounts W len) rank := by
  rw [numPrefillTokensCuRanks, numPrefillTokensAllranks_eq, map_map]
  apply map_congr_left
  intro len _
  rw [comp_apply, getD_zero_cons_cumsum (by simpa [localCounts] using hrank.le)]

def decodeTokens (batch : HybridBatch) : List Nat := batch.numScheduledTokens.take batch.numDecodeReqs

theorem length_decodeTokens (batch : HybridBatch) : batch.decodeTokens.length = batch.numDecodeReqs :=
  Batch.length_take_numScheduledTokens batch.toBatch

theorem sum_decodeTokens : batch.decodeTokens.sum = batch.numDecodeTokens := rfl

theorem length_prefillTokensTensor (batch : HybridBatch) :
    batch.prefillTokensTensor.length = batch.numReqs - batch.numDecodeReqs := by
  rw [prefillTokensTensor, length_drop]
  rfl

def linearTokens (batch : HybridBatch) (W rank : Nat) : List Nat :=
  batch.prefillTokensTensor.map (localCount W · rank)

theorem numLinearScheduledTokens_eq (hrank : rank < W) :
    batch.numLinearScheduledTokens W rank = batch.decodeTokens ++ batch.linearTokens W rank := by
  have htake := @Batch.take_pcpTokens batch.toBatch W (by omega)
  rw [Batch.pcpTokens, ← map_take] at htake
  rw [numLinearScheduledTokens, htake, numPrefillScheduledTokensLinear_eq hrank]
  rfl

def linearPosition (batch : HybridBatch) (W rank j p : Nat) : Nat :=
  start (localCounts W (batch.prefillTokensTensor.getD j 0)) rank + p

theorem positionsLinear_eq (hrank : rank < W) :
    batch.positionsLinear W rank = some ((flat batch.decodeTokens fun _ p => p) ++
      flat (batch.linearTokens W rank) (batch.linearPosition W rank)) := by
  have hdecodes : ∀ f : Nat → Nat → Nat, (flat batch.decodeTokens f).length = batch.numDecodeTokens :=
    fun f => length_flat
  have hne : batch.decodeTokens ++ batch.linearTokens W rank ≠ [] := by
    rw [← length_pos_iff, length_append, length_decodeTokens, linearTokens, length_map, length_prefillTokensTensor]
    have hpos : 0 < batch.numReqs := length_pos_iff.mpr batch.nonempty
    omega
  rw [positionsLinear, numLinearScheduledTokens_eq hrank, getCumsumAndArange_eq hne, Option.map_some]
  rw [flat_append, take_left' (hdecodes _), drop_left' (hdecodes _), numPrefillTokensCuRanks_eq hrank,
    numPrefillScheduledTokensLinear_eq hrank, repeats_eq_flat (by simp) 0, ← linearTokens, zipWith_flat]
  congr 2
  apply flat_congr
  intro j p hp
  have hj : j < batch.prefillTokensTensor.length := by simpa [linearTokens] using lt_length_of_lt_getD hp
  rw [getD_map_of_lt _ hj 0, linearPosition, Nat.add_comm]

/-! ## The rows of the ranks -/

def decodeRows (batch : HybridBatch) : List (Nat × Nat) := flat batch.decodeTokens Prod.mk

def linearRows (batch : HybridBatch) (W rank : Nat) : List (Nat × Nat) :=
  flat (batch.linearTokens W rank) fun j p => (batch.numDecodeReqs + j, batch.linearPosition W rank j p)

theorem length_decodeRows (batch : HybridBatch) : batch.decodeRows.length = batch.numDecodeTokens := length_flat

theorem length_linearRows : (batch.linearRows W rank).length = (batch.linearTokens W rank).sum := length_flat

theorem sum_linearTokens_le (batch : HybridBatch) (W rank : Nat) :
    (batch.linearTokens W rank).sum ≤ (batch.linearTokens W 0).sum := by
  exact sum_le_sum fun len _ => localCount_le W len rank

theorem maxScheduledTokens_eq (hW : 0 < W) :
    batch.maxScheduledTokens W = (batch.linearTokens W 0).sum + batch.numDecodeTokens := by
  rw [maxScheduledTokens, maxScheduledPrefillTokens, numPrefillScheduledTokensLinear_eq hW]
  rfl

structure IsSplit (batch : HybridBatch) (W rank : Nat) (split : HybridSplit) : Prop where
  counts : split.numPaddedScheduledTokens = batch.decodeTokens ++ batch.linearTokens W rank
  positions : split.positionsLinear = (flat batch.decodeTokens fun _ p => p) ++
    flat (batch.linearTokens W rank) (batch.linearPosition W rank)
  pcpTokens : split.pcpTokens = batch.pcpTokens W
  unpadMask : split.pcpUnpadMask = (batch.tokenSplit W rank).pcpUnpadMask
  enter : ∃ decode prefill, batch.enterFaDecodeRestoreIdx W = some decode ∧
    batch.enterFaPrefillRestoreIdx W = some prefill ∧ split.pcpEnterFaRestoreIdx = decode ++ prefill
  exit : batch.exitFaIdx W rank split.pcpUnpadMask split.positionsLinear =
    some (split.pcpExitFaScatterIdx, split.pcpFaQueryIdx)
  padded : split.pcpPaddedTokensFla =
    (batch.linearTokens W 0).sum - (batch.linearTokens W rank).sum
  max : split.maxNumTokensAcrossPcp = batch.maxScheduledTokens W
  total : split.totalNumScheduledTokens = batch.numDecodeTokens + (batch.linearTokens W rank).sum

theorem isSplit_of_update {split : HybridSplit} (hrank : rank < W)
    (h : batch.updateTokensForPcpHybrid W rank = some split) : batch.IsSplit W rank split := by
  have hW : 0 < W := by omega
  unfold updateTokensForPcpHybrid at h
  rw [Batch.updateTokensForPcp_eq hW, positionsLinear_eq hrank] at h
  simp only [Option.bind_eq_bind, Option.bind_eq_some_iff, Option.some_inj] at h
  obtain ⟨_, rfl, _, rfl, prefill, hprefill, decode, hdecode, _, hexit, rfl⟩ := h
  constructor
  case counts => exact numLinearScheduledTokens_eq hrank
  case positions => rfl
  case pcpTokens => rfl
  case unpadMask => rfl
  case enter => exact ⟨decode, prefill, hdecode, hprefill, rfl⟩
  case exit => exact hexit
  case padded =>
    rw [maxScheduledPrefillTokens, numPrefillScheduledTokensLinear_eq hrank, numPrefillScheduledTokensLinear_eq hW]
    rfl
  case max => rfl
  case total => rw [numLinearScheduledTokens_eq hrank, sum_append, sum_decodeTokens]

section Rows

variable {split : HybridSplit} {rank : Nat} (h : batch.IsSplit W rank split)

include h

theorem tokens_eq : split.tokens = batch.decodeRows ++ batch.linearRows W rank := by
  unfold HybridSplit.tokens
  rw [h.counts, h.positions, repeats_range rfl, flat_append, zip_append (by rw [length_flat, length_flat]),
    length_decodeTokens]
  unfold zip
  rw [zipWith_flat, zipWith_flat]
  rfl

theorem paddedRows_eq (hW : 0 < W) : split.paddedRows = (batch.decodeRows ++ batch.linearRows W rank).map some ++
      replicate ((batch.linearTokens W 0).sum - (batch.linearTokens W rank).sum) none := by
  have hle := batch.sum_linearTokens_le W rank
  have hlen : (batch.decodeRows ++ batch.linearRows W rank).length =
      batch.numDecodeTokens + (batch.linearTokens W rank).sum := by
    rw [length_append, length_decodeRows, length_linearRows]
  unfold HybridSplit.paddedRows
  rw [tokens_eq h, h.total, h.padded, h.max, maxScheduledTokens_eq hW, take_of_length_le hlen.le, take_of_length_le]
  rw [length_append, length_map, hlen, length_replicate]
  omega

theorem length_paddedRows (hW : 0 < W) : split.paddedRows.length = batch.maxScheduledTokens W := by
  have hle := batch.sum_linearTokens_le W rank
  rw [paddedRows_eq h hW, maxScheduledTokens_eq hW, length_append, length_map, length_append,
    length_decodeRows, length_linearRows, length_replicate]
  omega

end Rows

/-! ## The places of the rows -/

def rankCounts (batch : HybridBatch) (W : Nat) : List Nat :=
  flat (replicate batch.prefillTokensTensor.length W) fun j => localCount W (batch.prefillTokensTensor.getD j 0)

def prefillPlace (batch : HybridBatch) (W k p : Nat) : Nat :=
  k % W * batch.maxScheduledTokens W + (batch.numDecodeTokens + (start (batch.linearTokens W (k % W)) (k / W) + p))

theorem enterFaPrefillRestoreIdx_eq (hW : 0 < W) (hprefill : batch.numDecodeReqs < batch.numReqs) :
    batch.enterFaPrefillRestoreIdx W = some (flat (batch.rankCounts W) (batch.prefillPlace W)) := by
  have hn := length_prefillTokensTensor batch
  have hcounts : (batch.numPrefillTokensAllranks W).flatten = batch.rankCounts W := by
    rw [numPrefillTokensAllranks_eq, ← flatMap_def, flatMap_eq_range, rankCounts, flat_replicate]
    rfl
  have hlocal : (batch.prefillLocalStartLocal W).flatten =
      flat (replicate batch.prefillTokensTensor.length W) fun j rank => start (batch.linearTokens W rank) j := by
    unfold prefillLocalStartLocal
    rw [numPrefillTokensAllranks_eq, length_map, flat_replicate]
    apply flatMap_congr
    intro j _
    apply map_congr_left
    intro rank hrank
    rw [← map_take, map_map, start, linearTokens, ← map_take]
    congr 1
    apply map_congr_left
    intro len _
    rw [comp_apply, localCounts, getD_map_range (mem_range.mp hrank)]
  have hmatrix : ∀ f : Nat → Nat → Nat,
      (flat (replicate batch.prefillTokensTensor.length W) f).length =
        batch.prefillTokensTensor.length * W := by
    intro f
    rw [length_flat, sum_replicate_nat]
  have hne : ∀ f : Nat → Nat → Nat, flat (replicate batch.prefillTokensTensor.length W) f ≠ [] := by
    intro f
    rw [← length_pos_iff, hmatrix]
    exact Nat.mul_pos (by omega) hW
  unfold enterFaPrefillRestoreIdx
  rw [if_pos hprefill, hcounts, hlocal, ← hn, rankCounts, getCumsumAndArange_eq (hne _), Option.bind_some,
    getCumsumAndArange_eq (by rw [← length_pos_iff, length_replicate]; omega), Option.map_some]
  dsimp only
  rw [map_flat, repeats_eq_flat (by rw [hmatrix, hmatrix]) 0, repeats_eq_flat (by rw [hmatrix, hmatrix]) 0, map_flat,
    zipWith_flat, zipWith_flat]
  refine congrArg some (flat_congr fun k p hp => ?_)
  have hk : k < batch.prefillTokensTensor.length * W := hmatrix _ ▸ lt_length_of_lt_getD hp
  rw [getD_flat_replicate hk, getD_flat_replicate hk, prefillPlace]
  omega

def decodeAt (batch : HybridBatch) (W k : Nat) : Nat :=
  if batch.speculativeConfig then k % batch.numDecodeTokens else k / W

def decodeRank (batch : HybridBatch) (W k : Nat) : Nat :=
  if batch.speculativeConfig then k / batch.numDecodeTokens else k % W

abbrev decodeRow (batch : HybridBatch) (W k : Nat) : Option (Nat × Nat) :=
  some (batch.decodeRows.getD (batch.decodeAt W k) (0, 0))

theorem numDecodeTokens_of_single (hspec : batch.speculativeConfig = false) :
    batch.numDecodeTokens = batch.numDecodeReqs := by
  have hones : batch.decodeTokens = replicate batch.numDecodeReqs 1 :=
    eq_replicate_iff.mpr ⟨length_decodeTokens batch, batch.decode_single hspec⟩
  rw [← sum_decodeTokens, hones, sum_replicate_nat, Nat.mul_one]

theorem enterFaDecodeRestoreIdx_eq : batch.enterFaDecodeRestoreIdx W =
      some ((range (batch.numDecodeTokens * W)).map fun k =>
        batch.decodeRank W k * batch.maxScheduledTokens W + batch.decodeAt W k) := by
  unfold enterFaDecodeRestoreIdx decodeRank decodeAt
  have hrepeats : ∀ n k : Nat, repeats (range n) (replicate n k) = flat (replicate n k) fun b _ => b :=
    fun _ _ => repeats_range length_replicate.symm
  by_cases hpos : 0 < batch.numDecodeReqs
  · rw [if_pos hpos]
    by_cases hspec : batch.speculativeConfig = true
    · have htile : (replicate W (range batch.numDecodeTokens)).flatten =
          flat (replicate W batch.numDecodeTokens) fun _ p => p := by
        rw [flat_replicate, flatMap_def]
        simp
      simp only [if_pos hspec]
      rw [htile, hrepeats, map_flat, zipWith_flat, flat_replicate_eq_map, Nat.mul_comm]
      refine congrArg some (map_congr_left fun k _ => Nat.add_comm _ _)
    · have hsingle := numDecodeTokens_of_single (Bool.eq_false_of_not_eq_true hspec)
      simp only [if_neg hspec]
      rw [getCumsumAndArange_eq (by rw [← length_pos_iff, length_replicate]; exact hpos), Option.map_some,
        hrepeats, map_flat, zipWith_flat, flat_replicate_eq_map, hsingle]
      refine congrArg some (map_congr_left fun k _ => Nat.add_comm _ _)
  · have hnone : batch.numDecodeReqs = 0 := by omega
    have hzero : batch.numDecodeTokens = 0 := by
      rw [Batch.numDecodeTokens, hnone]
      rfl
    rw [if_neg hpos, hzero, Nat.zero_mul]
    rfl

theorem decodeAt_lt (hW : 0 < W) {k : Nat} (hk : k < batch.numDecodeTokens * W) :
    batch.decodeAt W k < batch.numDecodeTokens ∧ batch.decodeRank W k < W := by
  have hpos : 0 < batch.numDecodeTokens := Nat.pos_of_mul_pos_right (Nat.zero_lt_of_lt hk)
  unfold decodeAt decodeRank
  split
  · exact ⟨Nat.mod_lt k hpos, Nat.div_lt_of_lt_mul hk⟩
  · exact ⟨Nat.div_lt_of_lt_mul (Nat.mul_comm _ _ ▸ hk), Nat.mod_lt k hW⟩

/-! ## The restored rows -/

section Restored

variable {splits : Nat → HybridSplit}
  (hsplits : ∀ rank < W, batch.IsSplit W rank (splits rank))

include hsplits

theorem getElem?_gathered {rank i : Nat} (hrank : rank < W)
    (hi : i < (batch.decodeRows ++ batch.linearRows W rank).length) :
    ((range W).flatMap fun rank => (splits rank).paddedRows)[rank * batch.maxScheduledTokens W + i]? =
        ((batch.decodeRows ++ batch.linearRows W rank)[i]?).map some := by
  have hW : 0 < W := by omega
  have hlen := fun r (hr : r < W) => length_paddedRows (hsplits r hr) hW
  have hrows := paddedRows_eq (hsplits rank hrank) hW
  have hlt : i < batch.maxScheduledTokens W := by
    rw [← hlen rank hrank, hrows, length_append, length_map]
    omega
  rw [getElem?_flatMap_range hlen hrank hlt, hrows, getElem?_append_left (by rwa [length_map]), getElem?_map]

theorem indexSelect_decode (hW : 0 < W) : indexSelect ((range W).flatMap fun rank => (splits rank).paddedRows)
        ((range (batch.numDecodeTokens * W)).map fun k =>
          batch.decodeRank W k * batch.maxScheduledTokens W + batch.decodeAt W k) =
      some ((range (batch.numDecodeTokens * W)).map (batch.decodeRow W)) := by
  unfold indexSelect
  rw [mapM_map]
  apply Loop.mapM_eq_map
  intro k hk
  obtain ⟨htoken, hrank⟩ := decodeAt_lt hW (mem_range.mp hk)
  rw [← length_decodeRows] at htoken
  rw [comp_apply, getElem?_gathered hsplits hrank (by rw [length_append]; omega),
    getElem?_append_left htoken, getElem?_eq_getD htoken (0, 0)]
  rfl

theorem indexSelect_prefill (hW : 0 < W) : indexSelect ((range W).flatMap fun rank => (splits rank).paddedRows)
        (flat (batch.rankCounts W) (batch.prefillPlace W)) =
      some (flat batch.prefillTokensTensor fun j q => some (batch.numDecodeReqs + j, q)) := by
  have hrow : ∀ k p, p < (batch.rankCounts W).getD k 0 →
      ((range W).flatMap fun rank => (splits rank).paddedRows)[batch.prefillPlace W k p]? =
        some (some (batch.numDecodeReqs + k / W, batch.linearPosition W (k % W) (k / W) p)) := by
    intro k p hp
    have hk : k < batch.prefillTokensTensor.length * W := by
      simpa [rankCounts, length_flat] using lt_length_of_lt_getD hp
    have hj : k / W < batch.prefillTokensTensor.length := Nat.div_lt_of_lt_mul (Nat.mul_comm _ W ▸ hk)
    rw [rankCounts, getD_flat_replicate hk] at hp
    have hcount : p < (batch.linearTokens W (k % W)).getD (k / W) 0 := by rwa [linearTokens, getD_map_of_lt _ hj 0]
    have hlt := start_add_lt hcount
    have hdecodes := length_decodeRows batch
    rw [prefillPlace, getElem?_gathered hsplits (Nat.mod_lt k hW) (by rw [length_append, length_linearRows]; omega),
      getElem?_append_right (by omega), hdecodes, Nat.add_sub_cancel_left, linearRows, getElem?_flat hcount]
    rfl
  rw [indexSelect_flat hrow, rankCounts, flat_flat_replicate]
  refine congrArg some (flatMap_congr fun j _ => ?_)
  have hrange := range_eq_flat (localCounts W (batch.prefillTokensTensor.getD j 0))
  rw [sum_localCounts hW] at hrange
  rw [hrange, map_flat]
  apply flat_congr
  intro rank p hp
  have hrank : rank < W := by simpa using lt_length_of_lt_getD hp
  rw [RoundRobin.mul_add_div_of_lt hrank, Nat.mul_add_mod_of_lt hrank]
  rfl

theorem actualQkv_eq (hprefill : batch.numDecodeReqs < batch.numReqs) {rank : Nat} (hrank : rank < W) :
    actualQkv W splits rank = some ((range (batch.numDecodeTokens * W)).map (batch.decodeRow W) ++
        flat batch.prefillTokensTensor fun j q => some (batch.numDecodeReqs + j, q)) := by
  have hW : 0 < W := by omega
  obtain ⟨decode, prefill, hdecodeIdx, hprefillIdx, henter⟩ := (hsplits rank hrank).enter
  rw [enterFaDecodeRestoreIdx_eq, Option.some_inj] at hdecodeIdx
  rw [enterFaPrefillRestoreIdx_eq hW hprefill, Option.some_inj] at hprefillIdx
  rw [actualQkv, henter, ← hdecodeIdx, ← hprefillIdx]
  exact indexSelect_append (indexSelect_decode hsplits hW) (indexSelect_prefill hsplits hW)

end Restored

end HybridBatch

end VllmAscend.Worker.Pcp
