import VllmAscend.Worker.Pcp.Split

/-!
# The positions of a rank

Entry `p` of request `b` of each array is a closed expression in the number of tokens of the request and the size of
its chunks.
-/

namespace VllmAscend.Worker.Pcp

open Ragged List Nat

theorem getCumsumAndArange_eq {counts : List Nat} (h : counts ≠ []) :
    getCumsumAndArange counts = some (cumsum counts, flat counts fun _ p => p) := by
  rw [getCumsumAndArange, if_neg (by simpa using h), batchedArange_eq]

namespace Batch

variable {batch : Batch} {W : Nat}

/-! ## Counts -/

def numTokens (batch : Batch) (b : Nat) : Nat := batch.numScheduledTokens.getD b 0

def chunk (batch : Batch) (W b : Nat) : Nat :=
  if b < batch.numDecodeReqs then batch.numTokens b else cdiv (batch.numTokens b) (2 * W)

def rankTokens (batch : Batch) (W b : Nat) : Nat :=
  if b < batch.numDecodeReqs then batch.numTokens b else 2 * batch.chunk W b

variable {b : Nat}

variable (hb : b < batch.numReqs)

include hb

theorem numTokens_pos : 0 < batch.numTokens b := batch.tokens_pos _ (getD_mem hb 0)

theorem chunk_pos (hW : 0 < W) : 0 < batch.chunk W b := by
  have hpos := numTokens_pos hb
  unfold chunk
  split
  next => exact hpos
  next => exact div_pos (by omega) (by omega)

omit hb in
abbrev padded (batch : Batch) (W : Nat) : List Nat := batch.numPaddedScheduledTokens W

omit hb in
theorem length_padded (batch : Batch) (W : Nat) : (batch.padded W).length = batch.numReqs := by
  rw [padded, numPaddedScheduledTokens, length_assignPrefix (by simp), length_map]
  rfl

omit hb in
theorem length_pcpTokens (batch : Batch) (W : Nat) : (batch.pcpTokens W).length = batch.numReqs := by
  rw [pcpTokens, length_map, length_padded]

omit hb in
theorem length_pcpChunkSizes (batch : Batch) (W : Nat) : (batch.pcpChunkSizes W).length = batch.numReqs := by
  rw [pcpChunkSizes, length_assignPrefix (by simp), length_map, length_pcpTokens]

theorem getD_padded : (batch.padded W).getD b 0 = batch.rankTokens W b * W := by
  have hle := batch.decodes_le
  have hlen : ((batch.numScheduledTokens.take batch.numDecodeReqs).map (· * W)).length =
      batch.numDecodeReqs := by
    rw [length_map, length_take, min_eq_left hle]
  rw [padded, numPaddedScheduledTokens, getD_assignPrefix, hlen]
  unfold rankTokens chunk
  split
  next hdecode =>
    have htake : b < (batch.numScheduledTokens.take batch.numDecodeReqs).length := by
      rw [length_take]
      omega
    rw [getD_map_of_lt _ htake 0, getD_eq_getElem?_getD, getElem?_take_of_lt hdecode]
    rfl
  next =>
    rw [getD_map_of_lt _ hb 0]
    change cdiv (batch.numTokens b) (2 * W) * (2 * W) = _
    rw [mul_comm 2 W, ← mul_assoc, mul_right_comm, mul_comm _ 2]

theorem getD_pcpTokens (hW : 0 < W) : (batch.pcpTokens W).getD b 0 = batch.rankTokens W b := by
  have hlen : b < (batch.padded W).length := by rwa [length_padded]
  rw [pcpTokens, getD_map_of_lt _ hlen 0, getD_padded hb, Nat.mul_div_cancel _ hW]

theorem getD_pcpChunkSizes (hW : 0 < W) : (batch.pcpChunkSizes W).getD b 0 = batch.chunk W b := by
  have hle : batch.numDecodeReqs ≤ batch.numReqs := batch.decodes_le
  have hpos := chunk_pos hb hW
  have hlen : b < (batch.pcpTokens W).length := by rwa [length_pcpTokens]
  have htakelen : ((batch.pcpTokens W).take batch.numDecodeReqs).length = batch.numDecodeReqs := by
    rw [length_take, length_pcpTokens, min_eq_left hle]
  rw [pcpChunkSizes, getD_assignPrefix, htakelen]
  split
  next hdecode =>
    rw [getD_eq_getElem?_getD, getElem?_take_of_lt hdecode, ← getD_eq_getElem?_getD,
      getD_pcpTokens hb hW, rankTokens, chunk, if_pos hdecode, if_pos hdecode]
  next hdecode =>
    rw [getD_map_of_lt _ hlen 0, getD_pcpTokens hb hW, rankTokens, if_neg hdecode]
    omega

omit hb

theorem ne_nil_of_length {counts : List Nat} (hlen : counts.length = batch.numReqs) : counts ≠ [] := by
  rintro rfl
  exact batch.nonempty (length_eq_zero_iff.mp hlen.symm)

theorem lt_numReqs_of_lt_pcpTokens {p : Nat} (hp : p < (batch.pcpTokens W).getD b 0) :
    b < batch.numReqs := length_pcpTokens batch W ▸ lt_length_of_lt_getD hp

theorem length_take_numScheduledTokens (batch : Batch) :
    (batch.numScheduledTokens.take batch.numDecodeReqs).length = batch.numDecodeReqs := by
  rw [length_take, min_eq_left batch.decodes_le]

theorem take_pcpTokens (hW : 0 < W) : (batch.pcpTokens W).take batch.numDecodeReqs =
    batch.numScheduledTokens.take batch.numDecodeReqs := by
  have hlen : ((batch.numScheduledTokens.take batch.numDecodeReqs).map (· * W)).length =
      batch.numDecodeReqs := by
    rw [length_map, length_take_numScheduledTokens]
  rw [pcpTokens, ← map_take, numPaddedScheduledTokens, assignPrefix, take_left' hlen, map_map]
  exact map_id'' (fun n => Nat.mul_div_cancel n hW) _

theorem start_pcpChunkSizes (hW : 0 < W) :
    start (batch.pcpChunkSizes W) batch.numDecodeReqs = batch.numDecodeTokens := by
  have hlen : ((batch.pcpTokens W).take batch.numDecodeReqs).length = batch.numDecodeReqs := by
    rw [take_pcpTokens hW, length_take_numScheduledTokens]
  rw [start, pcpChunkSizes, assignPrefix, take_left' hlen, take_pcpTokens hW]
  rfl

/-! ## The positions of a rank -/

def rankPosition (batch : Batch) (W rank start b p : Nat) : Nat :=
  if p < batch.chunk W b then start + rank * batch.chunk W b + p
  else start + (2 * W - rank - 1) * batch.chunk W b + (p - batch.chunk W b)

theorem pcpHeadChunkMask_eq (batch : Batch) (W : Nat) :
    batch.pcpHeadChunkMask W (flat (batch.pcpTokens W) fun _ p => p) =
      flat (batch.pcpTokens W) fun b p => decide (p < (batch.pcpChunkSizes W).getD b 0) := by
  unfold pcpHeadChunkMask
  rw [repeats_eq_flat (by rw [length_pcpChunkSizes, length_pcpTokens]) 0, zipWith_flat]

theorem rankTokens_eq (b : Nat) : batch.rankTokens W b =
    batch.chunk W b + if b < batch.numDecodeReqs then 0 else batch.chunk W b := by
  unfold rankTokens chunk
  split <;> omega

theorem zipWith_chunk_eq {startLoc : List Nat} (hlen : startLoc.length = batch.numReqs) (factor : Nat) :
    zipWith (· + ·) (flat (batch.pcpChunkSizes W) fun _ p => p)
        (repeats (zipWith (fun start c => start + factor * c) startLoc (batch.pcpChunkSizes W))
          (batch.pcpChunkSizes W)) = flat (batch.pcpChunkSizes W) fun b p =>
        p + (startLoc.getD b 0 + factor * (batch.pcpChunkSizes W).getD b 0) := by
  have hchunks := length_pcpChunkSizes batch W
  rw [repeats_eq_flat (by rw [length_zipWith, hlen, hchunks, min_self]) 0, zipWith_flat]
  refine flat_congr fun b p hp => ?_
  have hb := lt_length_of_lt_getD hp
  rw [getD_zipWith_of_lt _ (by omega) hb 0 0]

def tailSizes (batch : Batch) (W : Nat) : List Nat :=
  replicate batch.numDecodeReqs 0 ++ (batch.pcpChunkSizes W).drop batch.numDecodeReqs

theorem flat_tailSizes {α : Type*} (hW : 0 < W) (f : Nat → Nat → α) :
    (flat (batch.pcpChunkSizes W) f).drop batch.numDecodeTokens = flat (batch.tailSizes W) f := by
  have hle : batch.numDecodeReqs ≤ (batch.pcpChunkSizes W).length := by
    rw [length_pcpChunkSizes]
    exact batch.decodes_le
  have hnone : flat (replicate batch.numDecodeReqs 0) f = [] := by
    rw [← length_eq_zero_iff, length_flat]
    simp
  rw [tailSizes, flat_append, hnone, nil_append, length_replicate, ← start_pcpChunkSizes hW, drop_flat hle]

theorem length_tailSizes (batch : Batch) (W : Nat) : (batch.tailSizes W).length = batch.numReqs := by
  have hle : batch.numDecodeReqs ≤ batch.numReqs := batch.decodes_le
  rw [tailSizes, length_append, length_replicate, length_drop, length_pcpChunkSizes]
  omega

theorem getD_tailSizes (b : Nat) : (batch.tailSizes W).getD b 0 =
    if b < batch.numDecodeReqs then 0 else (batch.pcpChunkSizes W).getD b 0 := by
  rw [tailSizes]
  split
  next hdecode => rw [getD_append _ _ _ _ (by simpa using hdecode), getD_replicate _ hdecode]
  next hdecode =>
    rw [getD_append_right _ _ _ _ (by simpa using hdecode), getD_drop, length_replicate,
      Nat.add_sub_cancel' (Nat.le_of_not_lt hdecode)]

theorem getD_pcpTokens_eq_add (hW : 0 < W) (b : Nat) : (batch.pcpTokens W).getD b 0 =
    (batch.pcpChunkSizes W).getD b 0 + (batch.tailSizes W).getD b 0 := by
  rw [getD_tailSizes]
  by_cases hb : b < batch.numReqs
  · rw [getD_pcpTokens hb hW, rankTokens_eq, getD_pcpChunkSizes hb hW]
  · have hnone : ∀ counts : List Nat, counts.length = batch.numReqs → counts.getD b 0 = 0 := by
      intro counts hlen
      rw [getD_eq_default _ _ (by omega)]
    rw [hnone _ (length_pcpTokens batch W), hnone _ (length_pcpChunkSizes batch W), ite_self]

theorem getCurrentRankPositions_eq (hW : 0 < W) {startLoc : List Nat} (hlen : startLoc.length = batch.numReqs)
    (rank : Nat) : batch.getCurrentRankPositions W (batch.pcpHeadChunkMask W (flat (batch.pcpTokens W) fun _ p => p))
        (flat (batch.pcpChunkSizes W) fun _ p => p) startLoc rank =
      some (flat (batch.pcpTokens W) fun b p => batch.rankPosition W rank (startLoc.getD b 0) b p) := by
  have hsizes : (batch.pcpChunkSizes W).length = (batch.pcpTokens W).length := by
    rw [length_pcpChunkSizes, length_pcpTokens]
  have hzeros : ∀ n, n = (batch.pcpTokens W).sum → replicate n 0 = flat (batch.pcpTokens W) fun _ _ => 0 := by
    rintro n rfl
    refine eq_flat length_replicate fun b p hp => ?_
    rw [getElem?_replicate, if_pos (start_add_lt hp)]
  have htails : (batch.tailSizes W).length = (batch.pcpTokens W).length := by rw [length_tailSizes, length_pcpTokens]
  unfold getCurrentRankPositions
  dsimp only
  rw [pcpHeadChunkMask_eq, zipWith_chunk_eq hlen, hzeros _ (length_flat),
    assignMask_heads hsizes fun b => by rw [getD_pcpTokens_eq_add hW b]; exact le_add_right _ _, Option.bind_eq_bind,
    Option.bind_some, map_flat, ← drop_zipWith, zipWith_chunk_eq hlen, flat_tailSizes hW,
    assignMask_tails htails (getD_pcpTokens_eq_add hW)]
  congr 1
  refine flat_congr fun b p hp => ?_
  rw [getD_pcpChunkSizes (lt_numReqs_of_lt_pcpTokens hp) hW]
  unfold rankPosition
  split <;> omega

def rowPosition (batch : Batch) (W rank b p : Nat) : Nat :=
  if b < batch.numDecodeReqs then p else batch.rankPosition W rank 0 b p

theorem getD_paddedPosStartLoc (hb : b < batch.numReqs) : (paddedPosStartLoc (cumsum (batch.padded W))).getD b 0 =
      start (batch.padded W) b := by
  apply getD_zero_cons_dropLast_cumsum
  rwa [length_padded]

theorem length_paddedPosStartLoc (batch : Batch) (W : Nat) :
    (paddedPosStartLoc (cumsum (batch.padded W))).length = batch.numReqs := by
  have hlen := length_padded batch W
  exact (length_zero_cons_dropLast_cumsum (ne_nil_of_length hlen)).trans hlen

theorem assignDecodePositions_eq (hW : 0 < W) (f : Nat → Nat → Nat) :
    batch.assignDecodePositions (flat (batch.pcpTokens W) f) =
      some (flat (batch.pcpTokens W) fun b p => if b < batch.numDecodeReqs then p else f b p) := by
  have hle : batch.numDecodeReqs ≤ (batch.pcpTokens W).length := by
    rw [length_pcpTokens]
    exact batch.decodes_le
  unfold assignDecodePositions
  split
  next hpos =>
    have hne : batch.numScheduledTokens.take batch.numDecodeReqs ≠ [] := by
      rw [← length_pos_iff, length_take]
      have := batch.decodes_le
      omega
    rw [getCumsumAndArange_eq hne, Option.map_some, ← take_pcpTokens hW, assignPrefix_flat hle]
  next hzero =>
    refine congrArg some (flat_congr fun b p _ => ?_)
    rw [if_neg (by omega)]

theorem mapM_getCurrentRankPositions (hW : 0 < W) : (range W).mapM (batch.getCurrentRankPositions W
        (batch.pcpHeadChunkMask W (flat (batch.pcpTokens W) fun _ p => p)) (flat (batch.pcpChunkSizes W) fun _ p => p)
        (paddedPosStartLoc (cumsum (batch.padded W)))) =
      some ((range W).map fun rank => flat (batch.pcpTokens W) fun b p =>
        batch.rankPosition W rank (start (batch.padded W) b) b p) := by
  refine Loop.mapM_eq_map fun rank _ => ?_
  rw [getCurrentRankPositions_eq hW (length_paddedPosStartLoc batch W)]
  refine congrArg some (flat_congr fun b p hp => ?_)
  rw [getD_paddedPosStartLoc (lt_numReqs_of_lt_pcpTokens hp)]

def allPositions (batch : Batch) (W : Nat) : List Nat :=
  (range W).flatMap fun rank => flat (batch.pcpTokens W) fun b p =>
    batch.rankPosition W rank (start (batch.numPaddedScheduledTokens W) b) b p

def tokenSplit (batch : Batch) (W rank : Nat) : TokenSplit where
  pcpTokens := batch.pcpTokens W
  positions := flat (batch.pcpTokens W) (batch.rowPosition W rank)
  numPcpPads := batch.numPcpPads W
  pcpUnpadMask := batch.pcpUnpadMask W (flat (batch.numPaddedScheduledTokens W) fun _ p => p)
  pcpAllgatherRestoreIdx := argsort (batch.allPositions W)

theorem updateTokensForPcp_eq (hW : 0 < W) (rank : Nat) :
    batch.updateTokensForPcp W rank = some (batch.tokenSplit W rank) := by
  have hzeros : (replicate batch.numReqs 0).length = batch.numReqs := length_replicate
  have hpositions : (flat (batch.pcpTokens W) fun b p => if b < batch.numDecodeReqs then p
      else batch.rankPosition W rank ((replicate batch.numReqs 0).getD b 0) b p) =
      flat (batch.pcpTokens W) (batch.rowPosition W rank) := by
    refine flat_congr fun b p hp => ?_
    have hb := lt_numReqs_of_lt_pcpTokens hp
    rw [getD_replicate _ hb]
    rfl
  unfold updateTokensForPcp
  rw [getCumsumAndArange_eq (ne_nil_of_length (length_padded batch W)), getCumsumAndArange_eq (ne_nil_of_length
    (length_pcpTokens batch W)), getCumsumAndArange_eq (ne_nil_of_length (length_pcpChunkSizes batch W))]
  simp only [Option.bind_eq_bind, Option.bind_some]
  rw [getCurrentRankPositions_eq hW hzeros, Option.bind_some, assignDecodePositions_eq hW, Option.bind_some,
    mapM_getCurrentRankPositions hW, Option.bind_some, hpositions]
  rfl

end Batch

end VllmAscend.Worker.Pcp
