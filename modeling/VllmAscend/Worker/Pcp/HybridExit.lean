import VllmAscend.Worker.Pcp.HybridEnter

/-!
# Leaving full attention

The outputs of all ranks are put back in the order of the requests, without the padding, and each rank takes its
linear part.
-/

namespace VllmAscend.Worker.Pcp

open Ragged List Nat Batch

theorem everyNth_map_range {α : Type*} {step : Nat} (hstep : 0 < step) (n : Nat) (f : Nat → α) :
    everyNth step ((range (n * step)).map f) = (range n).map fun i => f (i * step) := by
  have hrows : cdiv (n * step) step = n := by
    rw [cdiv, Nat.add_sub_assoc hstep, Nat.mul_comm, mul_add_div hstep, div_eq_of_lt (by omega), Nat.add_zero]
  unfold everyNth
  rw [length_map, length_range, hrows]
  conv_rhs => rw [← filterMap_eq_map]
  apply filterMap_congr
  intro i hi
  have hlt : i * step < n * step := mul_lt_mul_of_pos_right (mem_range.mp hi) hstep
  rw [getElem?_map, getElem?_range hlt]
  rfl

namespace HybridBatch

variable {batch : HybridBatch} {W rank : Nat} {splits : Nat → HybridSplit}

/-! ## The padded prefill tokens -/

def label (batch : HybridBatch) (j q : Nat) : Option (Nat × Nat) :=
  if q < batch.prefillTokensTensor.getD j 0 then some (batch.numDecodeReqs + j, q) else none

def paddedTokens (batch : HybridBatch) (W : Nat) : List Nat := (batch.prefillTokens W).map (· * W)

def rankPlaces (batch : HybridBatch) (W rank : Nat) : List Nat :=
  flat (batch.prefillTokens W) fun j p =>
    start (batch.paddedTokens W) j + batch.rankPosition W rank 0 (batch.numDecodeReqs + j) p

def rankLabels (batch : HybridBatch) (W rank : Nat) : List (Option (Nat × Nat)) :=
  flat (batch.prefillTokens W) fun j p => batch.label j (batch.rankPosition W rank 0 (batch.numDecodeReqs + j) p)

theorem getD_prefillTokensTensor (j : Nat) :
    batch.prefillTokensTensor.getD j 0 = batch.numTokens (batch.numDecodeReqs + j) :=
  getD_drop ..

theorem length_paddedTokens (batch : HybridBatch) (W : Nat) :
    (batch.paddedTokens W).length = batch.prefillTokensTensor.length := by
  rw [paddedTokens, length_map, prefillTokens, length_drop, length_pcpTokens, length_prefillTokensTensor]

theorem indexSelect_rankPlaces {α : Type*} (f : Nat → Nat → α) (hrank : rank < W) :
    indexSelect (flat (batch.paddedTokens W) f) (batch.rankPlaces W rank) =
      some (flat (batch.prefillTokens W) fun j p =>
        f j (batch.rankPosition W rank 0 (batch.numDecodeReqs + j) p)) := by
  have hW : 0 < W := by omega
  apply indexSelect_flat
  intro j p hp
  have hj := lt_numReqs_of_lt_prefillTokens hp
  have htokens : batch.rankTokens W (batch.numDecodeReqs + j) = (batch.prefillTokens W).getD j 0 := by
    rw [getD_prefillTokens hW hj, rankTokens, if_neg (by omega)]
  apply getElem?_flat
  rw [paddedTokens, getD_map_of_zero (by simp), ← htokens]
  rw [← htokens] at hp
  exact rankPosition_lt hrank hp

variable (hW : 0 < W)

include hW

theorem prefillTokensTensor_le (j : Nat) :
    batch.prefillTokensTensor.getD j 0 ≤ (batch.paddedTokens W).getD j 0 := by
  by_cases hj : batch.numDecodeReqs + j < batch.numReqs
  · have hle := @numTokens_le_padded batch.toBatch W _ hW hj
    rw [getD_padded hj, rankTokens, if_neg (by omega)] at hle
    rwa [getD_prefillTokensTensor, paddedTokens, getD_map_of_zero (by simp), getD_prefillTokens hW hj]
  · have hn := length_prefillTokensTensor batch
    rw [getD_eq_default _ _ (by omega)]
    exact zero_le _

theorem drop_unpadMask (rank : Nat) :
    (batch.tokenSplit W rank).pcpUnpadMask.drop (batch.numDecodeTokens * W) =
      flat (batch.paddedTokens W) fun j q => decide (q < batch.prefillTokensTensor.getD j 0) := by
  rw [drop_pcpUnpadMask, overPrefills_eq hW]
  apply flat_congr
  intro j q _
  rw [getD_prefillTokensTensor]

theorem start_pcpTokens (j : Nat) : start (batch.pcpTokens W) (batch.numDecodeReqs + j) =
      batch.numDecodeTokens + start (batch.prefillTokens W) j := by
  have htake := @take_pcpTokens batch.toBatch W hW
  have hlen : ((batch.pcpTokens W).take batch.numDecodeReqs).length = batch.numDecodeReqs := by
    rw [htake]
    exact length_take_numScheduledTokens batch.toBatch
  have hsplit := start_append_right ((batch.pcpTokens W).take batch.numDecodeReqs) (batch.prefillTokens W) j
  rw [prefillTokens, take_append_drop, hlen] at hsplit
  rw [hsplit, htake]
  rfl

theorem allPositionsPrefill_eq :
    batch.allPositionsPrefill W = some ((range W).map (batch.rankPlaces W)) := by
  have hle : batch.numDecodeReqs ≤ (batch.pcpTokens W).length := by
    rw [length_pcpTokens]
    exact batch.decodes_le
  have hstart : start (batch.pcpTokens W) batch.numDecodeReqs = batch.numDecodeTokens := start_pcpTokens hW 0
  unfold allPositionsPrefill
  rw [getCumsumAndArange_eq (ne_nil_of_length (length_padded _ W)),
    getCumsumAndArange_eq (ne_nil_of_length (length_pcpTokens _ W)),
    getCumsumAndArange_eq (ne_nil_of_length (length_pcpChunkSizes _ W))]
  simp only [Option.bind_eq_bind, Option.bind_some]
  rw [mapM_getCurrentRankPositions hW, Option.bind_some, map_map]
  refine congrArg some (map_congr_left fun rank _ => ?_)
  rw [Function.comp_apply, ← hstart, drop_flat hle, map_flat]
  apply flat_congr
  intro j p _
  rw [rankPosition_add, padded_eq hW, start_map_mul, start_pcpTokens hW, hstart,
    paddedTokens, start_map_mul, add_mul]
  omega

theorem rankPlaces_perm : ((range W).flatMap (batch.rankPlaces W)).Perm
      (range (batch.paddedTokens W).sum) := by
  have hperm := (@prefillRows_perm batch.toBatch W hW).map fun token =>
    start (batch.paddedTokens W) (token.1 - batch.numDecodeReqs) + token.2
  rw [overPrefills_eq hW, map_flatMap] at hperm
  simp only [prefillRows_eq hW, map_flat, Row.token, Nat.add_sub_cancel_left] at hperm
  rw [range_eq_flat]
  exact hperm

/-! ## The outputs -/

theorem indexSelect_exitRestore :
    indexSelect ((range W).flatMap (batch.rankLabels W))
      (maskSelect (argsort ((range W).flatMap (batch.rankPlaces W)))
        (flat (batch.paddedTokens W) fun j q => decide (q < batch.prefillTokensTensor.getD j 0))) =
      some (flat batch.prefillTokensTensor batch.label) := by
  have hplaces : ((range W).flatMap (batch.rankPlaces W)).Perm
      (range (flat (batch.paddedTokens W) batch.label).length) := by
    rw [length_flat]
    exact rankPlaces_perm hW
  have hrows : indexSelect (flat (batch.paddedTokens W) batch.label) ((range W).flatMap (batch.rankPlaces W)) =
      some ((range W).flatMap (batch.rankLabels W)) := by
    apply indexSelect_flatMap
    intro rank hrank
    exact indexSelect_rankPlaces _ (mem_range.mp hrank)
  rw [indexSelect_maskSelect (indexSelect_argsort_of_select hplaces hrows),
    maskSelect_heads (length_paddedTokens batch W).symm (prefillTokensTensor_le hW)]

theorem linearPosition_lt {j p : Nat} (hrank : rank < W) (hp : p < (batch.linearTokens W rank).getD j 0) :
    batch.linearPosition W rank j p < batch.prefillTokensTensor.getD j 0 := by
  have hj : j < batch.prefillTokensTensor.length := by simpa [linearTokens] using lt_length_of_lt_getD hp
  rw [linearTokens, getD_map_of_lt _ hj 0] at hp
  have hcount : p < (localCounts W (batch.prefillTokensTensor.getD j 0)).getD rank 0 := by
    rwa [localCounts, getD_map_range hrank]
  have hlt := start_add_lt hcount
  rwa [sum_localCounts hW] at hlt

/-- The decode queries are picked at every `W`-th place; rank by rank these are the tokens in order
only where the number of decode tokens divides `W - 1`. -/
theorem decodeAt_eq_iff : (∀ i < batch.numDecodeTokens, batch.decodeAt W (i * W) = i) ↔
      batch.speculativeConfig = false ∨ batch.numDecodeTokens = 0 ∨ batch.numDecodeTokens ∣ W - 1 := by
  unfold decodeAt
  cases hspec : batch.speculativeConfig with
  | false => simp [Nat.mul_div_cancel _ hW]
  | true =>
    simp only [if_true, Bool.true_eq_false, false_or]
    constructor
    · intro h
      rcases lt_or_ge 1 batch.numDecodeTokens with hmany | hone
      · have hmod := h 1 hmany
        rw [one_mul] at hmod
        exact .inr ((modEq_iff_dvd' hW).mp ((mod_eq_of_lt hmany).trans hmod.symm))
      · rcases le_one_iff_eq_zero_or_eq_one.mp hone with hzero | hone
        · exact .inl hzero
        · rw [hone]
          exact .inr (one_dvd _)
    · rintro (hzero | ⟨k, hk⟩) i hi
      · omega
      · have hsplit : i * W = i + batch.numDecodeTokens * (i * k) := by
          rw [show W = 1 + batch.numDecodeTokens * k by omega]
          ring
        rw [hsplit, add_mul_mod_self_left, mod_eq_of_lt hi]

theorem decodeRows_eq_iff : (range batch.numDecodeTokens).map (fun i => batch.decodeRow W (i * W)) =
      batch.decodeRows.map some ↔ ∀ i < batch.numDecodeTokens, batch.decodeAt W (i * W) = i := by
  have hlen := length_decodeRows batch
  have hnodup : batch.decodeRows.Nodup := by
    apply nodup_flat
    intro b p _ c q _ heq
    exact Prod.mk.inj heq
  have hrows : batch.decodeRows.map some =
      (range batch.numDecodeTokens).map fun i => some (batch.decodeRows.getD i (0, 0)) := by
    conv_lhs => rw [← map_range_getD batch.decodeRows (0, 0), hlen, map_map]
    rfl
  rw [hrows, map_inj_left]
  refine forall_congr' fun i => ⟨fun h hi => ?_, fun h hi => ?_⟩
  · have hplace : i * W < batch.numDecodeTokens * W := mul_lt_mul_of_pos_right hi hW
    have hat := (decodeAt_lt hW hplace).1
    have heq := Option.some_inj.mp (h (mem_range.mpr hi))
    rw [← hlen] at hat hi
    rw [← getElem_eq_getD (h := hat), ← getElem_eq_getD (h := hi)] at heq
    exact hnodup.getElem_inj_iff.mp heq
  · rw [decodeRow, h (mem_range.mp hi)]

theorem map_prefillRows (rank : Nat) : (batch.rows W rank).map (fun row =>
        if row.position < batch.numTokens row.request then some row.token else none) =
      batch.rankLabels W rank := by
  rw [prefillRows_eq hW, map_flat]
  apply flat_congr
  intro j p _
  rw [label, getD_prefillTokensTensor]
  rfl

omit hW

theorem exitFaScatterIndices_eq (hprefill : batch.numDecodeReqs < batch.numReqs) (hrank : rank < W) :
    batch.exitFaScatterIndices W rank ((flat batch.decodeTokens fun _ p => p) ++
        flat (batch.linearTokens W rank) (batch.linearPosition W rank)) = flat (batch.linearTokens W rank) fun j p =>
        start batch.prefillTokensTensor j + batch.linearPosition W rank j p := by
  have hn := length_prefillTokensTensor batch
  have hne : batch.prefillTokensTensor ≠ [] := by
    rw [← length_pos_iff]
    omega
  have hlen : (0 :: (cumsum batch.prefillTokensTensor).dropLast).length =
      (batch.linearTokens W rank).length := by
    rw [length_zero_cons_dropLast_cumsum hne, linearTokens, length_map]
  have hdecodes : (flat batch.decodeTokens fun _ p => p).length = batch.numDecodeTokens := length_flat
  unfold exitFaScatterIndices
  dsimp only
  rw [drop_left' hdecodes, numPrefillScheduledTokensLinear_eq hrank, ← linearTokens,
    repeats_eq_flat hlen 0, zipWith_flat]
  apply flat_congr
  intro j p hp
  have hj : j < batch.prefillTokensTensor.length := by simpa [linearTokens] using lt_length_of_lt_getD hp
  rw [getD_zero_cons_dropLast_cumsum hj, add_comm]

theorem indexSelect_scatter (hrank : rank < W) :
    indexSelect (flat batch.prefillTokensTensor batch.label) (flat (batch.linearTokens W rank) fun j p =>
        start batch.prefillTokensTensor j + batch.linearPosition W rank j p) =
      some ((batch.linearRows W rank).map some) := by
  rw [linearRows, map_flat]
  apply indexSelect_flat
  intro j p hp
  have hlt := linearPosition_lt (by omega) hrank hp
  rw [getElem?_flat hlt, label, if_pos hlt]

theorem exists_update (hrank : rank < W) : ∃ split, batch.updateTokensForPcpHybrid W rank = some split := by
  have hW : 0 < W := by omega
  have henter : ∃ prefill, batch.enterFaPrefillRestoreIdx W = some prefill := by
    by_cases hprefill : batch.numDecodeReqs < batch.numReqs
    · exact ⟨_, enterFaPrefillRestoreIdx_eq hW hprefill⟩
    · exact ⟨[], if_neg hprefill⟩
  have hexit : ∃ exit, batch.exitFaIdx W rank (batch.tokenSplit W rank).pcpUnpadMask
      ((flat batch.decodeTokens fun _ p => p) ++
        flat (batch.linearTokens W rank) (batch.linearPosition W rank)) = some exit := by
    unfold exitFaIdx
    by_cases hprefill : batch.numDecodeReqs < batch.numReqs
    · have hlen := congrArg length (indexSelect_eq_some_iff.mp (@indexSelect_exitRestore batch _ hW))
      rw [length_map, length_map, length_flat] at hlen
      rw [if_pos hprefill, allPositionsPrefill_eq hW, Option.bind_some]
      dsimp only
      rw [drop_unpadMask hW, exitFaScatterIndices_eq hprefill hrank, ← flatMap_def, indexSelect_eq 0]
      · exact ⟨_, rfl⟩
      · intro i hi
        obtain ⟨j, p, hp, rfl⟩ := mem_flat.mp hi
        rw [hlen]
        exact start_add_lt (linearPosition_lt hW hrank hp)
    · exact ⟨_, if_neg hprefill⟩
  obtain ⟨prefill, hprefill⟩ := henter
  obtain ⟨exit, hexit⟩ := hexit
  unfold updateTokensForPcpHybrid
  rw [updateTokensForPcp_eq hW, positionsLinear_eq hrank, hprefill, enterFaDecodeRestoreIdx_eq]
  simp only [Option.bind_eq_bind, Option.bind_some]
  rw [hexit]
  exact ⟨_, rfl⟩

/-! ## The round trip -/

def allTokens (batch : HybridBatch) : List (Nat × Nat) := flat batch.numScheduledTokens Prod.mk

/-- Full attention has the prefill tokens in their order and the queries of the rank, and gives the
outputs back for its linear part. -/
structure RoundTrip (batch : HybridBatch) (W : Nat) (splits : Nat → HybridSplit) (rank : Nat) : Prop where
  restored : ∃ rows, actualQkv W splits rank = some rows ∧
    rows.drop (batch.numDecodeTokens * W) = (batch.allTokens.drop batch.numDecodeTokens).map some
  queries : ∃ split, batch.updateTokensForPcp W rank = some split ∧
    qFa W batch.numDecodeTokens splits rank =
      some (((splits rank).tokens.take batch.numDecodeTokens).map some,
        (split.prefillRows batch.toBatch rank).map fun row =>
          if row.position < batch.numTokens row.request then some row.token else none)
  outputs : exitFa W batch.numDecodeTokens splits rank =
    some (((splits rank).tokens.drop batch.numDecodeTokens).map some)

theorem take_tokens {split : HybridSplit} (h : batch.IsSplit W rank split) :
    split.tokens.take batch.numDecodeTokens = batch.decodeRows ∧
      split.tokens.drop batch.numDecodeTokens = batch.linearRows W rank := by
  rw [tokens_eq h]
  exact ⟨take_left' (length_decodeRows batch), drop_left' (length_decodeRows batch)⟩

theorem drop_allTokens (batch : HybridBatch) : batch.allTokens.drop batch.numDecodeTokens =
    flat batch.prefillTokensTensor fun j q => (batch.numDecodeReqs + j, q) := drop_flat batch.decodes_le

section Splits

variable (hsplits : ∀ rank < W, batch.IsSplit W rank (splits rank)) (hprefill : batch.numDecodeReqs < batch.numReqs)
  (hrank : rank < W)

include hsplits hprefill hrank

theorem pcpFaQueryIdx_eq : (splits rank).pcpFaQueryIdx = batch.rankPlaces W rank := by
  have hexit := (hsplits rank hrank).exit
  unfold exitFaIdx at hexit
  rw [if_pos hprefill, allPositionsPrefill_eq (by omega)] at hexit
  obtain ⟨scatter, -, hpair⟩ := Option.map_eq_some_iff.mp hexit
  rw [← (Prod.mk.inj hpair).2, getD_map_range hrank]

theorem qkvFaPaddingWorkspace_eq : qkvFaPaddingWorkspace W batch.numDecodeTokens splits rank =
      some ((range (batch.numDecodeTokens * W)).map (batch.decodeRow W) ++ flat (batch.paddedTokens W) batch.label) := by
  have hW : 0 < W := by omega
  have hsum : (batch.pcpTokens W).sum * W - batch.numDecodeTokens * W = (batch.paddedTokens W).sum := by
    have hend := @start_pcpTokens batch W hW (batch.prefillTokens W).length
    have hlen : (batch.pcpTokens W).length ≤ batch.numDecodeReqs + (batch.prefillTokens W).length := by
      rw [prefillTokens, length_drop]
      omega
    rw [start_of_length_le hlen, start_of_length_le (le_refl _)] at hend
    rw [hend, paddedTokens, sum_map_mul_right, map_id', Nat.add_mul, Nat.add_sub_cancel_left]
  have hnone : replicate (batch.paddedTokens W).sum (none : Option (Nat × Nat)) =
      flat (batch.paddedTokens W) fun _ _ => none := by
    refine eq_flat length_replicate fun b p hp => ?_
    rw [getElem?_replicate, if_pos (start_add_lt hp)]
  unfold qkvFaPaddingWorkspace
  rw [actualQkv_eq hsplits hprefill hrank, Option.bind_some]
  dsimp only
  rw [drop_left' (by simp), take_left' (by simp), (hsplits rank hrank).pcpTokens, (hsplits rank hrank).unpadMask,
    drop_unpadMask hW, hsum, hnone, assignMask_heads (length_paddedTokens batch W).symm (prefillTokensTensor_le hW)]
  rfl

theorem qFa_eq : qFa W batch.numDecodeTokens splits rank =
      some ((range batch.numDecodeTokens).map fun i => batch.decodeRow W (i * W), batch.rankLabels W rank) := by
  have hW : 0 < W := by omega
  unfold qFa
  rw [qkvFaPaddingWorkspace_eq hsplits hprefill hrank, Option.bind_some]
  dsimp only
  rw [drop_left' (by simp), take_left' (by simp), pcpFaQueryIdx_eq hsplits hprefill hrank,
    indexSelect_rankPlaces _ hrank, Option.map_some, everyNth_map_range hW]
  rfl

theorem exitFa_eq :
    exitFa W batch.numDecodeTokens splits rank = some ((batch.linearRows W rank).map some) := by
  have hW : 0 < W := by omega
  have houtputs : (range W).mapM (fun rank =>
      (qFa W batch.numDecodeTokens splits rank).map (·.2)) =
      some ((range W).map (batch.rankLabels W)) := by
    apply Loop.mapM_eq_map
    intro rank hrank
    rw [qFa_eq hsplits hprefill (mem_range.mp hrank)]
    rfl
  have hexit := (hsplits rank hrank).exit
  unfold exitFaIdx at hexit
  rw [if_pos hprefill, allPositionsPrefill_eq hW, Option.bind_some, (hsplits rank hrank).positions,
    (hsplits rank hrank).unpadMask] at hexit
  rw [drop_unpadMask hW, exitFaScatterIndices_eq hprefill hrank] at hexit
  obtain ⟨scatter, hscatter, hpair⟩ := Option.map_eq_some_iff.mp hexit
  unfold exitFa
  rw [houtputs, Option.bind_some, ← (Prod.mk.inj hpair).1]
  exact indexSelect_comp (indexSelect_exitRestore hW) hscatter (indexSelect_scatter hrank)

theorem roundTrip_iff : batch.RoundTrip W splits rank ↔
      batch.speculativeConfig = false ∨ batch.numDecodeTokens = 0 ∨ batch.numDecodeTokens ∣ W - 1 := by
  have hW : 0 < W := by omega
  have htokens := take_tokens (hsplits rank hrank)
  have hqueries := qFa_eq hsplits hprefill hrank
  rw [← decodeAt_eq_iff hW, ← decodeRows_eq_iff hW]
  constructor
  · intro h
    obtain ⟨split, -, hq⟩ := h.queries
    rw [hqueries, htokens.1, Option.some_inj] at hq
    exact (Prod.mk.inj hq).1
  · intro hdecode
    constructor
    · refine ⟨_, actualQkv_eq hsplits hprefill hrank, ?_⟩
      rw [drop_left' (by rw [length_map, length_range]), drop_allTokens, map_flat]
    · refine ⟨_, updateTokensForPcp_eq hW rank, ?_⟩
      rw [hqueries, hdecode, htokens.1, map_prefillRows hW]
    · rw [exitFa_eq hsplits hprefill hrank, htokens.2]

end Splits

/-- Every batch is split; where it has prefills, every rank's trip through full attention is a round trip
just without a speculative config, without decode tokens, or where their number divides `W - 1`. -/
theorem hybridAttention_roundTrip_iff (batch : HybridBatch) {W : Nat} (hW : 0 < W) :
    (∃ splits : Nat → HybridSplit, (∀ rank < W, batch.updateTokensForPcpHybrid W rank = some (splits rank)) ∧
      (batch.numDecodeReqs < batch.numReqs → ∀ rank < W, batch.RoundTrip W splits rank)) ↔
    batch.numDecodeReqs = batch.numReqs ∨ batch.speculativeConfig = false ∨ batch.numDecodeTokens = 0 ∨
      batch.numDecodeTokens ∣ W - 1 := by
  have hle : batch.numDecodeReqs ≤ batch.numReqs := batch.decodes_le
  constructor
  · rintro ⟨splits, hupdate, htrip⟩
    rcases lt_or_eq_of_le hle with hprefill | hnone
    · have hsplits := fun rank hrank => isSplit_of_update hrank (hupdate rank hrank)
      exact .inr ((roundTrip_iff hsplits hprefill hW).mp (htrip hprefill 0 hW))
    · exact .inl hnone
  · intro hcondition
    obtain ⟨split, -⟩ := @exists_update batch _ _ hW
    have : Nonempty HybridSplit := ⟨split⟩
    choose! splits hupdate using fun rank (hrank : rank < W) => @exists_update batch _ _ hrank
    have hsplits := fun rank hrank => isSplit_of_update hrank (hupdate rank hrank)
    refine ⟨splits, hupdate, fun hprefill rank hrank => ?_⟩
    apply (roundTrip_iff hsplits hprefill hrank).mpr
    exact hcondition.resolve_left (by omega)

def draftBatch : HybridBatch where
  numScheduledTokens := [2, 3]
  numDecodeReqs := 1
  tokens_pos := by decide
  nonempty := by decide
  decodes_le := by decide
  speculativeConfig := true
  decode_single := by decide

theorem hybridAttention_roundTrip_iff_draftBatch : ∃ splits : Nat → HybridSplit,
      (∀ rank < 3, draftBatch.updateTokensForPcpHybrid 3 rank = some (splits rank)) ∧
      (draftBatch.numDecodeReqs < draftBatch.numReqs → ∀ rank < 3, draftBatch.RoundTrip 3 splits rank) :=
  (hybridAttention_roundTrip_iff draftBatch (by decide)).mpr (by decide)

theorem draftBatch_not_roundTrip : ¬ ∃ splits : Nat → HybridSplit,
      (∀ rank < 2, draftBatch.updateTokensForPcpHybrid 2 rank = some (splits rank)) ∧
      (draftBatch.numDecodeReqs < draftBatch.numReqs → ∀ rank < 2, draftBatch.RoundTrip 2 splits rank) := by
  rintro ⟨splits, hupdate, htrip⟩
  have hprefill : draftBatch.numDecodeReqs < draftBatch.numReqs := by decide
  have hsplits := fun rank hrank => isSplit_of_update hrank (hupdate rank hrank)
  have hcondition := (roundTrip_iff hsplits hprefill zero_lt_two).mp (htrip hprefill 0 zero_lt_two)
  revert hcondition
  decide

end HybridBatch

end VllmAscend.Worker.Pcp
