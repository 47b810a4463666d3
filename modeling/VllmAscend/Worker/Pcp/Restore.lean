import Mathlib.Algebra.BigOperators.Ring.List
import VllmAscend.Worker.Pcp.Positions

/-!
# Restoring the gathered rows

The rows of all ranks, one rank after another, are put back in order by the places that their
positions have in the padded batch. Every place is taken by one row.
-/

namespace VllmAscend.Worker.Pcp

open Ragged List Nat

structure Row where
  rank : Nat
  request : Nat
  position : Nat

namespace TokenSplit

variable (split : TokenSplit)

def rows (numReqs rank : Nat) : List Row :=
  zipWith (fun request position => ⟨rank, request, position⟩)
    (repeats (range numReqs) split.pcpTokens) split.positions

def requestPositions (b : Nat) : List Nat :=
  (split.positions.drop (start split.pcpTokens b)).take (split.pcpTokens.getD b 0)

end TokenSplit

def gatheredRows (numReqs W : Nat) (splits : Nat → TokenSplit) : List Row :=
  (range W).flatMap fun rank => (splits rank).rows numReqs rank

namespace Batch

variable {batch : Batch} {W b q rank p : Nat} {row : Row}

/-! ## Every place is taken -/

def rowKey (batch : Batch) (W : Nat) (row : Row) : Nat :=
  start (batch.numPaddedScheduledTokens W) row.request +
    if row.request < batch.numDecodeReqs then row.rank * batch.numTokens row.request + row.position
    else row.position

theorem rankPosition_add (rank start b p : Nat) :
    batch.rankPosition W rank start b p = start + batch.rankPosition W rank 0 b p := by
  unfold rankPosition
  split <;> omega

theorem rankPosition_of_decode (hb : b < batch.numDecodeReqs) (hp : p < batch.numTokens b) :
    batch.rankPosition W rank 0 b p = rank * batch.numTokens b + p := by
  have hchunk : batch.chunk W b = batch.numTokens b := if_pos hb
  rw [rankPosition, hchunk, if_pos hp, zero_add]

theorem rows_tokenSplit (batch : Batch) (W rank : Nat) : (batch.tokenSplit W rank).rows batch.numReqs rank =
      flat (batch.pcpTokens W) fun b p => ⟨rank, b, batch.rowPosition W rank b p⟩ := by
  unfold TokenSplit.rows tokenSplit
  rw [repeats_range (length_pcpTokens batch W).symm, zipWith_flat]

abbrev gathered (batch : Batch) (W : Nat) : List Row := gatheredRows batch.numReqs W (batch.tokenSplit W)

theorem mem_gatheredRows : row ∈ batch.gathered W ↔ ∃ rank < W, ∃ b p,
      p < (batch.pcpTokens W).getD b 0 ∧ row = ⟨rank, b, batch.rowPosition W rank b p⟩ := by
  unfold gathered gatheredRows
  simp only [mem_flatMap, mem_range, rows_tokenSplit, mem_flat]

theorem rankPosition_lt (hrank : rank < W) (hp : p < batch.rankTokens W b) :
    batch.rankPosition W rank 0 b p < batch.rankTokens W b * W := by
  have htokens := @rankTokens_eq batch W b
  unfold rankPosition
  split
  next hhead =>
    have hle : (rank + 1) * batch.chunk W b ≤ W * batch.chunk W b := mul_le_mul_right _ hrank
    have htotal : W * batch.chunk W b ≤ batch.rankTokens W b * W := by
      rw [mul_comm]
      exact mul_le_mul_right _ (by omega)
    rw [add_mul] at hle
    omega
  next htail =>
    have hdouble : batch.rankTokens W b = 2 * batch.chunk W b := by split at htokens <;> omega
    have hle : (2 * W - rank - 1 + 1) * batch.chunk W b ≤
        2 * W * batch.chunk W b := mul_le_mul_right _ (by omega)
    rw [hdouble, mul_right_comm]
    rw [add_mul] at hle
    omega

variable (hW : 0 < W)

include hW

theorem exists_rankPosition (hb : b < batch.numReqs)
    (hq : q < batch.rankTokens W b * W) (start : Nat) : ∃ rank < W, ∃ p < batch.rankTokens W b,
      batch.rankPosition W rank start b p = start + q := by
  have hc := chunk_pos hb hW
  have hmod := mod_lt q hc
  have hdiv := div_add_mod' q (batch.chunk W b)
  have htokens := @rankTokens_eq batch W b
  by_cases hhead : q / batch.chunk W b < W
  · refine ⟨_, hhead, q % batch.chunk W b, by omega, ?_⟩
    rw [rankPosition, if_pos hmod, add_assoc, hdiv]
  · -- The mirrored chunk, which only a prefill request has.
    have hprefill : ¬ b < batch.numDecodeReqs := by
      intro hdecode
      rw [htokens, if_pos hdecode] at hq
      exact hhead (Nat.div_lt_of_lt_mul (Nat.mul_comm _ _ ▸ hq))
    have hchunks : q / batch.chunk W b < 2 * W := by
      rw [htokens, if_neg hprefill] at hq
      refine Nat.div_lt_of_lt_mul (hq.trans_eq ?_)
      ring
    rw [htokens, if_neg hprefill]
    refine ⟨2 * W - 1 - q / batch.chunk W b, by omega, batch.chunk W b + q % batch.chunk W b, by omega, ?_⟩
    rw [rankPosition, if_neg (by omega), Nat.add_sub_cancel_left, Nat.add_assoc,
      show 2 * W - (2 * W - 1 - q / batch.chunk W b) - 1 =
        q / batch.chunk W b by omega, hdiv]

theorem rowKey_eq (hp : p < (batch.pcpTokens W).getD b 0) :
    batch.rowKey W ⟨rank, b, batch.rowPosition W rank b p⟩ =
      batch.rankPosition W rank (start (batch.padded W) b) b p := by
  rw [getD_pcpTokens (lt_numReqs_of_lt_pcpTokens hp) hW] at hp
  rw [rankPosition_add]
  unfold rowKey rowPosition
  split
  next hdecode =>
    rw [rankTokens, if_pos hdecode] at hp
    rw [rankPosition_of_decode hdecode hp]
  next => rfl

theorem map_rowKey : (batch.gathered W).map (batch.rowKey W) = batch.allPositions W := by
  unfold gathered gatheredRows allPositions
  rw [map_flatMap]
  refine flatMap_congr fun rank _ => ?_
  rw [rows_tokenSplit, map_flat]
  exact flat_congr fun b p hp => rowKey_eq hW hp

theorem padded_eq : batch.padded W = (batch.pcpTokens W).map (· * W) := by
  have hpadded := length_padded batch W
  have htokens := length_pcpTokens batch W
  refine ext_getElem (by rw [length_map, hpadded, htokens]) fun b hb _ => ?_
  have hb' : b < batch.numReqs := by omega
  rw [getElem_eq_getD (h := hb) 0, getD_padded hb', getElem_map,
    getElem_eq_getD (h := by omega) 0, getD_pcpTokens hb' hW]

theorem length_gatheredRows : (batch.gathered W).length = (batch.padded W).sum := by
  have hranks : (range W).map (fun rank =>
      ((batch.tokenSplit W rank).rows batch.numReqs rank).length) =
      replicate W (batch.pcpTokens W).sum := by
    refine eq_replicate_iff.mpr ⟨by simp, forall_mem_map.mpr fun rank _ => ?_⟩
    rw [rows_tokenSplit, length_flat]
  rw [gathered, gatheredRows, length_flatMap, hranks, sum_replicate_nat, padded_eq hW,
    sum_map_mul_right, map_id', mul_comm]

theorem map_rowKey_perm : ((batch.gathered W).map (batch.rowKey W)).Perm
      (range (batch.gathered W).length) := by
  have hlen : ((batch.gathered W).map (batch.rowKey W)).length = (batch.gathered W).length := length_map _
  rw [← hlen]
  refine perm_range_of_forall_mem fun k hk => ?_
  rw [hlen, length_gatheredRows hW] at hk
  obtain ⟨b, q, hq, rfl⟩ := exists_row hk
  have hb : b < batch.numReqs := length_padded batch W ▸ lt_length_of_lt_getD hq
  rw [getD_padded hb] at hq
  obtain ⟨rank, hrank, p, hp, hposition⟩ := exists_rankPosition hW hb hq (start (batch.padded W) b)
  rw [← getD_pcpTokens hb hW] at hp
  exact mem_map.mpr ⟨_, mem_gatheredRows.mpr ⟨rank, hrank, b, p, hp, rfl⟩, (rowKey_eq hW hp).trans hposition⟩

theorem rowKey_of_mem (hrow : row ∈ batch.gathered W) :
    ∃ q < (batch.padded W).getD row.request 0,
      batch.rowKey W row = start (batch.padded W) row.request + q ∧
      q = if row.request < batch.numDecodeReqs then row.rank * batch.numTokens row.request + row.position
        else row.position := by
  obtain ⟨rank, hrank, b, p, hp, rfl⟩ := mem_gatheredRows.mp hrow
  have hkey := @rowKey_eq batch W b rank p hW hp
  have hb := lt_numReqs_of_lt_pcpTokens hp
  rw [getD_pcpTokens hb hW] at hp
  rw [rankPosition_add] at hkey
  refine ⟨_, ?_, hkey, Nat.add_left_cancel (n := start (batch.padded W) b) hkey.symm⟩
  rw [getD_padded hb]
  exact rankPosition_lt hrank hp

theorem request_of_rowKey (hrow : row ∈ batch.gathered W) (hq : q < (batch.padded W).getD b 0)
    (hkey : batch.rowKey W row = start (batch.padded W) b + q) :
    row.request = b ∧
      q = if b < batch.numDecodeReqs then row.rank * batch.numTokens b + row.position else row.position := by
  obtain ⟨q', hq', hkey', hplace⟩ := rowKey_of_mem hW hrow
  obtain ⟨hreq, rfl⟩ := eq_of_start_add_eq hq' hq (hkey'.symm.trans hkey)
  subst hreq
  exact ⟨rfl, hplace⟩

omit hW

/-! ## The restored order -/

def paddedLength (batch : Batch) (W b : Nat) : Nat := cdiv (batch.numTokens b) (2 * W) * (2 * W)

def overPrefills {α : Type*} (batch : Batch) (W : Nat) (f : Nat → Nat → α) : List α :=
  (range (batch.numReqs - batch.numDecodeReqs)).flatMap fun i =>
    (range (batch.paddedLength W (batch.numDecodeReqs + i))).map (f (batch.numDecodeReqs + i))

theorem getD_padded_of_prefill (hb : b < batch.numReqs) (hprefill : batch.numDecodeReqs ≤ b) :
    (batch.padded W).getD b 0 = batch.paddedLength W b := by
  rw [getD_padded hb, rankTokens, if_neg (not_lt.mpr hprefill), chunk,
    if_neg (not_lt.mpr hprefill), paddedLength]
  ring

theorem start_padded_numDecodeReqs (batch : Batch) (W : Nat) :
    start (batch.padded W) batch.numDecodeReqs = batch.numDecodeTokens * W := by
  have hlen : ((batch.numScheduledTokens.take batch.numDecodeReqs).map (· * W)).length =
      batch.numDecodeReqs := by
    rw [length_map, length_take_numScheduledTokens]
  rw [start, padded, numPaddedScheduledTokens, assignPrefix, take_left' hlen, sum_map_mul_right, map_id']
  rfl

theorem drop_flat_padded {α : Type*} (f : Nat → Nat → α) :
    (flat (batch.padded W) f).drop (batch.numDecodeTokens * W) = batch.overPrefills W f := by
  have hlen := length_padded batch W
  have hle : batch.numDecodeReqs ≤ (batch.padded W).length := by
    rw [hlen]
    exact batch.decodes_le
  rw [← start_padded_numDecodeReqs, drop_flat hle, flat, length_drop, hlen]
  refine flatMap_congr fun i hi => ?_
  have hi := mem_range.mp hi
  rw [getD_drop, getD_padded_of_prefill (by omega) (le_add_right _ _)]

theorem drop_pcpUnpadMask (rank : Nat) : (batch.tokenSplit W rank).pcpUnpadMask.drop (batch.numDecodeTokens * W) =
      batch.overPrefills W fun b q => decide (q < batch.numTokens b) := by
  have hdecodes : ((range (batch.numDecodeTokens * W)).map (· % W == 0)).length =
      batch.numDecodeTokens * W := by
    rw [length_map, length_range]
  have hlen : batch.numScheduledTokens.length = (batch.padded W).length := (length_padded batch W).symm
  unfold tokenSplit pcpUnpadMask
  rw [assignPrefix, drop_left' hdecodes, hdecodes, repeats_eq_flat hlen 0, zipWith_flat]
  exact drop_flat_padded _

include hW

theorem requestPositions_perm (hprefill : batch.numDecodeReqs ≤ b) (hb : b < batch.numReqs) :
    ((range W).flatMap fun rank => (batch.tokenSplit W rank).requestPositions b).Perm
      (range (batch.paddedLength W b)) := by
  have hrows : ∀ rank, (batch.tokenSplit W rank).requestPositions b =
      (range (batch.rankTokens W b)).map (batch.rankPosition W rank 0 b) := by
    intro rank
    unfold TokenSplit.requestPositions tokenSplit
    rw [slice_flat, getD_pcpTokens hb hW]
    exact map_congr_left fun p _ => if_neg (not_lt.mpr hprefill)
  have hlen : ((range W).flatMap fun rank =>
      (range (batch.rankTokens W b)).map (batch.rankPosition W rank 0 b)).length =
      batch.paddedLength W b := by
    have hranks : (range W).map (fun rank =>
        ((range (batch.rankTokens W b)).map (batch.rankPosition W rank 0 b)).length) =
        replicate W (batch.rankTokens W b) :=
      eq_replicate_iff.mpr ⟨by simp, fun n hn => by
        obtain ⟨rank, -, rfl⟩ := mem_map.mp hn
        rw [length_map, length_range]⟩
    rw [length_flatMap, hranks, sum_replicate_nat, ← getD_padded_of_prefill hb hprefill, getD_padded hb, mul_comm]
  simp only [hrows]
  rw [← hlen]
  refine perm_range_of_forall_mem fun q hq => ?_
  rw [hlen, ← getD_padded_of_prefill hb hprefill, getD_padded hb] at hq
  obtain ⟨rank, hrank, p, hp, hposition⟩ := exists_rankPosition hW hb hq 0
  rw [zero_add] at hposition
  exact mem_flatMap.mpr ⟨rank, mem_range.mpr hrank, mem_map.mpr ⟨p, mem_range.mpr hp, hposition⟩⟩

theorem numTokens_le_padded (hb : b < batch.numReqs) : batch.numTokens b ≤ (batch.padded W).getD b 0 := by
  by_cases hdecode : b < batch.numDecodeReqs
  · rw [getD_padded hb, rankTokens, if_pos hdecode]
    exact Nat.le_mul_of_pos_right _ hW
  · rw [getD_padded_of_prefill hb (Nat.le_of_not_lt hdecode), paddedLength, cdiv]
    have hcover := lt_div_mul_add (a := batch.numTokens b + 2 * W - 1) (show 0 < 2 * W by omega)
    omega

theorem getElem?_getLogitsIndices (hb : b < batch.numReqs) (rank : Nat) :
    (getLogitsIndices W (batch.tokenSplit W rank).numPcpPads (cumsum (batch.tokenSplit W rank).pcpTokens))[b]? =
      some ((start (batch.padded W) b + (batch.numTokens b - 1) : Nat) : Int) := by
  have hpos := numTokens_pos hb
  have hpadded := @numTokens_le_padded batch W b hW hb
  have hlen : (batch.numPaddedScheduledTokens W).length = batch.numReqs := length_padded batch W
  have hscheduled : b < batch.numScheduledTokens.length := hb
  have hcu : (cumsum (batch.pcpTokens W))[b]? = some (start (batch.pcpTokens W) (b + 1)) := by
    rw [getElem?_cumsum, if_pos (by rwa [length_pcpTokens])]
  have hpads : (batch.numPcpPads W)[b]? = some ((batch.padded W).getD b 0 - batch.numTokens b) := by
    rw [numPcpPads, getElem?_zipWith, getElem?_eq_getD (show b < _ by omega) 0, getElem?_eq_getD hscheduled 0]
    rfl
  have hend : start (batch.pcpTokens W) (b + 1) * W = start (batch.padded W) b + (batch.padded W).getD b 0 := by
    rw [← start_map_mul, ← padded_eq hW, start_succ]
  unfold getLogitsIndices tokenSplit
  rw [getElem?_zipWith, hcu, hpads]
  refine congrArg some ?_
  omega

section Restored

variable {restored : List Row}
  (hperm : restored.Perm (batch.gathered W))
  (hkeys : restored.map (batch.rowKey W) = range (batch.gathered W).length)

include hperm hkeys

theorem exists_row_at (hq : q < (batch.padded W).getD b 0) :
    ∃ row, restored[start (batch.padded W) b + q]? = some row ∧ row.request = b ∧
      q = if b < batch.numDecodeReqs then row.rank * batch.numTokens b + row.position else row.position := by
  have hlt := start_add_lt hq
  rw [← length_gatheredRows hW] at hlt
  have hplace : start (batch.padded W) b + q < restored.length := by rwa [hperm.length_eq]
  have hkey := congrArg (·[start (batch.padded W) b + q]?) hkeys
  rw [getElem?_map, getElem?_range hlt, getElem?_eq_getElem hplace, Option.map_some, Option.some_inj] at hkey
  refine ⟨_, getElem?_eq_getElem hplace, ?_⟩
  exact request_of_rowKey hW (hperm.mem_iff.mp (getElem_mem hplace)) hq hkey

theorem drop_restored :
    (restored.drop (batch.numDecodeTokens * W)).map (fun row => (row.request, row.position)) =
      batch.overPrefills W fun b q => (b, q) := by
  rw [← drop_flat_padded]
  refine ext_getElem? fun i => ?_
  rw [getElem?_map, getElem?_drop, getElem?_drop]
  by_cases hi : batch.numDecodeTokens * W + i < (batch.padded W).sum
  · obtain ⟨b, q, hq, hplace⟩ := exists_row hi
    have hprefill : batch.numDecodeReqs ≤ b := by
      refine le_of_start_le hq ?_
      rw [start_padded_numDecodeReqs, ← hplace]
      exact le_add_right _ _
    obtain ⟨row, hrow, rfl, hposition⟩ := exists_row_at hW hperm hkeys hq
    rw [if_neg (not_lt.mpr hprefill)] at hposition
    rw [hplace, hrow, getElem?_flat hq, Option.map_some, hposition]
  · have hlen : restored.length = (batch.padded W).sum :=
      hperm.length_eq.trans (length_gatheredRows hW)
    rw [getElem?_eq_none (by omega), getElem?_eq_none (by rw [length_flat]; omega), Option.map_none]

theorem exists_last_row (hb : b < batch.numReqs) (rank : Nat) :
    ∃ (index : Nat) (row : Row), (getLogitsIndices W (batch.tokenSplit W rank).numPcpPads
        (cumsum (batch.tokenSplit W rank).pcpTokens))[b]? = some (index : Int) ∧
      restored[index]? = some row ∧ row.request = b ∧ row.position = batch.numTokens b - 1 ∧
      (b < batch.numDecodeReqs → row.rank = 0) := by
  have hpos := numTokens_pos hb
  have hpadded := @numTokens_le_padded batch W b hW hb
  obtain ⟨row, hrow, hrequest, hposition⟩ := exists_row_at hW hperm hkeys
    (show batch.numTokens b - 1 < (batch.padded W).getD b 0 by omega)
  refine ⟨_, row, getElem?_getLogitsIndices hW hb rank, hrow, hrequest, ?_⟩
  split at hposition
  next hdecode =>
    -- The rows of the other ranks come after the tokens of the first one.
    have hrank : row.rank = 0 := by
      by_contra hne
      have hle := Nat.le_mul_of_pos_left (batch.numTokens b) (Nat.pos_of_ne_zero hne)
      omega
    rw [hrank, zero_mul, zero_add] at hposition
    exact ⟨hposition.symm, fun _ => hrank⟩
  next hprefill => exact ⟨hposition.symm, fun hdecode => absurd hdecode hprefill⟩

end Restored

omit hW

/-! ## Split and restore -/

/-- The ranks together have each padded position of a prefill request once, and what is gathered is
restored to the order of the requests. -/
structure Restores (batch : Batch) (W : Nat) (splits : Nat → TokenSplit) : Prop where
  covers : ∀ b, batch.numDecodeReqs ≤ b → b < batch.numReqs →
    ((range W).flatMap fun rank => (splits rank).requestPositions b).Perm
      (range (batch.paddedLength W b))
  restore_perm : ∀ rank < W, (splits rank).pcpAllgatherRestoreIdx.Perm
    (range (gatheredRows batch.numReqs W splits).length)
  mask : ∀ rank < W, (splits rank).pcpUnpadMask.drop (batch.numDecodeTokens * W) =
    batch.overPrefills W fun b q => decide (q < batch.numTokens b)
  restored : ∀ rank < W, ∃ restored,
    indexSelect (gatheredRows batch.numReqs W splits) (splits rank).pcpAllgatherRestoreIdx = some restored ∧
    (restored.drop (batch.numDecodeTokens * W)).map (fun row => (row.request, row.position)) =
      batch.overPrefills W (fun b q => (b, q)) ∧
    ∀ b < batch.numReqs, ∃ (index : Nat) (row : Row),
      (getLogitsIndices W (splits rank).numPcpPads (cumsum (splits rank).pcpTokens))[b]? =
        some (index : Int) ∧
      restored[index]? = some row ∧ row.request = b ∧ row.position = batch.numTokens b - 1 ∧
      (b < batch.numDecodeReqs → row.rank = 0)

/-- Splitting over the ranks and restoring the gathered rows are inverse. -/
theorem dualChunkSwap_restores (batch : Batch) {W : Nat} (hW : 0 < W) : ∃ splits : Nat → TokenSplit,
      (∀ rank < W, batch.updateTokensForPcp W rank = some (splits rank)) ∧ batch.Restores W splits := by
  have hkeys := @map_rowKey_perm batch W hW
  obtain ⟨restored, hselect, hperm, hsorted⟩ := indexSelect_argsort hkeys
  rw [map_rowKey hW] at hselect hkeys
  refine ⟨batch.tokenSplit W, fun rank _ => updateTokensForPcp_eq hW rank, ?_⟩
  refine ⟨fun b hprefill hb => requestPositions_perm hW hprefill hb, fun rank _ => ?_, fun rank _ => drop_pcpUnpadMask rank,
    fun rank _ => ⟨restored, hselect, drop_restored hW hperm hsorted,
      fun b hb => exists_last_row hW hperm hsorted hb rank⟩⟩
  have hargsort := argsort_perm (batch.allPositions W)
  rwa [hkeys.length_eq, length_range] at hargsort

def smallBatch : Batch := ⟨[1, 5, 8], 1, by decide, by decide, by decide⟩

theorem dualChunkSwap_restores_smallBatch :
    ∃ splits : Nat → TokenSplit, (∀ rank < 2, smallBatch.updateTokensForPcp 2 rank = some (splits rank)) ∧
      smallBatch.Restores 2 splits :=
  dualChunkSwap_restores smallBatch (by decide)

end Batch

end VllmAscend.Worker.Pcp
