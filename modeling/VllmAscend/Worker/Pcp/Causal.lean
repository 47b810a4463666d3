import VllmAscend.Worker.Pcp.Metadata

/-!
# Prefill attention is causal and complete
-/

namespace VllmAscend.Worker.Pcp

open Ragged List Nat

def Row.token (row : Row) : Nat × Nat := (row.request, row.position)

def TokenSplit.prefillRows (split : TokenSplit) (batch : Batch) (rank : Nat) : List Row :=
  (split.rows batch.numReqs rank).drop batch.numDecodeTokens

def SeesPrefix (kv : List Row) (query : Row) (keys : List Nat) : Prop :=
  indexSelect (kv.map Row.token) keys = some ((range (query.position + 1)).map fun q => (query.request, q))

namespace PcpIndexLists

variable {W : Nat} {seqLens : List Nat} {b p : Nat}

/-! ## The keys of a chunk -/

def chunkKeys (W k : Nat) (seqLens : List Nat) (b p : Nat) : List Nat :=
  (range (seqLens.getD b 0 / 2 * k + (p + 1))).map (start (seqLens.map (· * W)) b + ·)

theorem attendedKeys_chunk (k : Nat) (hp : p < (seqLens.map (· / 2)).getD b 0) :
    attendedKeys (cumsum (seqLens.map (· / 2))) (cumsum (seqLens.map (· / 2 * k)))
        (ranges seqLens (· * W) (fun _ => 0) (· / 2 * k)) false (start (seqLens.map (· / 2)) b + p) ++
      attendedKeys (cumsum (seqLens.map (· / 2))) (cumsum (seqLens.map (· / 2)))
        (ranges seqLens (· * W) (· / 2 * k) (· / 2)) true (start (seqLens.map (· / 2)) b + p) =
      chunkKeys W k seqLens b p := by
  unfold Ragged.ranges
  rw [attendedKeys_flat (by simp) hp, attendedKeys_flat rfl hp, chunkKeys, map_range_add]
  rw [getD_map_of_zero (by simp)]
  simp only [Bool.false_eq_true, if_false, if_true, add_zero, ← add_assoc]
  congr 3
  omega

theorem attendedKeys_proj (k : Nat) (hp : p < (seqLens.map (· / 2)).getD b 0) :
    attendedKeys (cumsum (seqLens.map (· / 2))) (cumsum (seqLens.map (· / 2 * (k + 1))))
      (ranges seqLens (· * W) (fun _ => 0) (· / 2 * (k + 1))) true (start (seqLens.map (· / 2)) b + p) =
      chunkKeys W k seqLens b p := by
  unfold Ragged.ranges
  rw [attendedKeys_flat (by simp) hp]
  rw [getD_map_of_zero (by simp)] at hp ⊢
  rw [getD_map_of_zero (by simp), mul_add]
  simp only [if_true, add_zero]
  congr 2
  omega

theorem indexSelect_proj {k tail : Nat} (h : k ≤ tail) :
    indexSelect (ranges seqLens (· * W) (fun _ => 0) (· / 2 * (tail + 1)))
        (ranges seqLens (· / 2 * (tail + 1)) (fun _ => 0) (· / 2 * (k + 1))) =
      some (ranges seqLens (· * W) (fun _ => 0) (· / 2 * (k + 1))) := by
  apply indexSelect_flat
  intro b p hp
  rw [getD_map_of_zero (by simp)] at hp
  have hle : seqLens.getD b 0 / 2 * (k + 1) ≤ seqLens.getD b 0 / 2 * (tail + 1) := mul_le_mul_left _ (by omega)
  apply getElem?_flat
  rw [getD_map_of_zero (by simp)]
  omega

section Lists

variable {rank : Nat} (hp : p < (seqLens.map (· / 2)).getD b 0)

include hp

theorem headKeys_eq : (indexLists W rank seqLens).headKeys (start (seqLens.map (· / 2)) b + p) =
    chunkKeys W rank seqLens b p := attendedKeys_chunk rank hp

theorem tailKeys_eq : (indexLists W rank seqLens).tailKeys (start (seqLens.map (· / 2)) b + p) =
    chunkKeys W (W * 2 - 1 - rank) seqLens b p := attendedKeys_chunk _ hp

theorem headTailProjKeys_eq (hrank : rank < W) :
    (indexLists W rank seqLens).headTailProjKeys (start (seqLens.map (· / 2)) b + p) =
      some (chunkKeys W rank seqLens b p) := by
  unfold headTailProjKeys indexLists
  rw [indexSelect_proj (by omega)]
  exact congrArg some (attendedKeys_proj rank hp)

theorem tailTailProjKeys_eq : (indexLists W rank seqLens).tailTailProjKeys (start (seqLens.map (· / 2)) b + p) =
      some (chunkKeys W (W * 2 - 1 - rank) seqLens b p) := by
  unfold tailTailProjKeys indexLists
  rw [indexSelect_proj (le_refl _)]
  exact congrArg some (attendedKeys_proj _ hp)

theorem getElem?_qHeadIdx : (indexLists W rank seqLens).qHeadIdx[start (seqLens.map (· / 2)) b + p]? =
      some (start seqLens b + p) := by
  unfold indexLists Ragged.ranges
  rw [getElem?_flat hp, map_id', add_zero]

theorem getElem?_qTailIdx : (indexLists W rank seqLens).qTailIdx[start (seqLens.map (· / 2)) b + p]? =
      some (start seqLens b + (seqLens.getD b 0 / 2 + p)) := by
  unfold indexLists Ragged.ranges
  rw [getElem?_flat hp, map_id', add_assoc]

end Lists

/-! ## The queries of a rank -/

theorem length_qHeadIdx (rank : Nat) :
    (indexLists W rank seqLens).qHeadIdx.length = (seqLens.map (· / 2)).sum := length_flat

theorem length_qTailIdx (rank : Nat) :
    (indexLists W rank seqLens).qTailIdx.length = (seqLens.map (· / 2)).sum := length_flat

theorem queries_perm (heven : ∀ n ∈ seqLens, n = 2 * (n / 2)) (rank : Nat) :
    ((indexLists W rank seqLens).qHeadIdx ++ (indexLists W rank seqLens).qTailIdx).Perm (range seqLens.sum) := by
  have hsum : seqLens.sum = (seqLens.map (· / 2)).sum + (seqLens.map (· / 2)).sum := by
    rw [← two_mul, ← sum_map_mul_left]
    exact congrArg sum (((map_congr_left heven).symm.trans (map_id' _)).symm)
  have hlen : ((indexLists W rank seqLens).qHeadIdx ++
      (indexLists W rank seqLens).qTailIdx).length = seqLens.sum := by
    rw [length_append, length_qHeadIdx, length_qTailIdx, hsum]
  rw [← hlen]
  apply perm_range_of_forall_mem
  intro k hk
  rw [hlen] at hk
  obtain ⟨b, p, hp, rfl⟩ := exists_row hk
  have hb := lt_length_of_lt_getD hp
  have hhalf : seqLens.getD b 0 = 2 * (seqLens.getD b 0 / 2) := heven _ (getD_mem hb 0)
  apply mem_append.mpr
  by_cases hhead : p < seqLens.getD b 0 / 2
  · have hhead : p < (seqLens.map (· / 2)).getD b 0 := by rwa [getD_map_of_zero (by simp)]
    exact .inl (mem_of_getElem? (getElem?_qHeadIdx hhead))
  · have htail : p - seqLens.getD b 0 / 2 < (seqLens.map (· / 2)).getD b 0 := by
      rw [getD_map_of_zero (by simp)]
      omega
    have hmem := mem_of_getElem? (@getElem?_qTailIdx W _ _ _ rank htail)
    rw [Nat.add_sub_cancel' (Nat.le_of_not_lt hhead)] at hmem
    exact .inr hmem

end PcpIndexLists

namespace Batch

open PcpIndexLists

variable {batch : Batch} {W : Nat}

/-! ## The prefill rows -/

def prefillTokens (batch : Batch) (W : Nat) : List Nat := (batch.pcpTokens W).drop batch.numDecodeReqs

abbrev lists (batch : Batch) (W rank : Nat) : PcpIndexLists := indexLists W rank (batch.prefillTokens W)

abbrev rows (batch : Batch) (W rank : Nat) : List Row := (batch.tokenSplit W rank).prefillRows batch rank

variable {b p rank : Nat} {kv : List Row}

theorem lt_numReqs_of_lt_prefillTokens (hp : p < (batch.prefillTokens W).getD b 0) :
    batch.numDecodeReqs + b < batch.numReqs := by
  have hb := lt_length_of_lt_getD hp
  rw [prefillTokens, length_drop, length_pcpTokens] at hb
  omega

variable (hW : 0 < W)

include hW

theorem getD_prefillTokens (hb : batch.numDecodeReqs + b < batch.numReqs) :
    (batch.prefillTokens W).getD b 0 = 2 * batch.chunk W (batch.numDecodeReqs + b) := by
  rw [prefillTokens, getD_drop, getD_pcpTokens hb hW, rankTokens, if_neg (by omega)]

theorem half_prefillTokens (hp : p < (batch.prefillTokens W).getD b 0) :
    (batch.prefillTokens W).getD b 0 / 2 = batch.chunk W (batch.numDecodeReqs + b) := by
  rw [getD_prefillTokens hW (lt_numReqs_of_lt_prefillTokens hp), Nat.mul_div_cancel_left _ two_pos]

theorem even_of_mem_prefillTokens {n : Nat} (hn : n ∈ batch.prefillTokens W) : n = 2 * (n / 2) := by
  obtain ⟨b, hb, rfl⟩ := mem_iff_getElem.mp hn
  have hlt : batch.numDecodeReqs + b < batch.numReqs := by
    rw [prefillTokens, length_drop, length_pcpTokens] at hb
    omega
  rw [getElem_eq_getD (h := hb) 0, getD_prefillTokens hW hlt]
  omega

theorem prefillRows_eq (rank : Nat) : batch.rows W rank = flat (batch.prefillTokens W) fun b p =>
      ⟨rank, batch.numDecodeReqs + b, batch.rankPosition W rank 0 (batch.numDecodeReqs + b) p⟩ := by
  have hle : batch.numDecodeReqs ≤ (batch.pcpTokens W).length := by
    rw [length_pcpTokens]
    exact batch.decodes_le
  have hstart : start (batch.pcpTokens W) batch.numDecodeReqs = batch.numDecodeTokens := by
    rw [start, take_pcpTokens hW]
    rfl
  rw [rows, TokenSplit.prefillRows, rows_tokenSplit, ← hstart, drop_flat hle]
  apply flat_congr
  intro b p _
  rw [rowPosition, if_neg (by omega)]

theorem overPrefills_eq {α : Type*} (f : Nat → Nat → α) :
    batch.overPrefills W f = flat ((batch.prefillTokens W).map (· * W)) fun b => f (batch.numDecodeReqs + b) := by
  have hle : batch.numDecodeReqs ≤ (batch.padded W).length := by
    rw [length_padded]
    exact batch.decodes_le
  rw [← drop_flat_padded, ← start_padded_numDecodeReqs, drop_flat hle, padded_eq hW, ← map_drop]
  rfl

theorem nodup_overPrefills : (batch.overPrefills W fun b q => (b, q)).Nodup := by
  rw [overPrefills_eq hW]
  apply nodup_flat
  intro b p _ c q _ heq
  obtain ⟨hrequest, hposition⟩ := Prod.mk.inj heq
  exact ⟨by omega, hposition⟩

theorem prefillRows_perm : ((range W).flatMap fun rank => (batch.rows W rank).map Row.token).Perm
      (batch.overPrefills W fun b q => (b, q)) := by
  apply Perm.symm
  apply Subperm.perm_of_length_le
  · apply (nodup_overPrefills hW).subperm
    intro token htoken
    rw [overPrefills_eq hW] at htoken
    obtain ⟨b, q, hq, rfl⟩ := mem_flat.mp htoken
    rw [getD_map_of_zero (by simp)] at hq
    have hb := lt_numReqs_of_lt_prefillTokens (Nat.pos_of_mul_pos_right (Nat.zero_lt_of_lt hq))
    have htokens : batch.rankTokens W (batch.numDecodeReqs + b) = (batch.prefillTokens W).getD b 0 := by
      rw [getD_prefillTokens hW hb, rankTokens, if_neg (by omega)]
    rw [← htokens] at hq
    obtain ⟨rank, hrank, p, hp, hposition⟩ := exists_rankPosition hW hb hq 0
    apply mem_flatMap.mpr
    refine ⟨rank, mem_range.mpr hrank, ?_⟩
    rw [prefillRows_eq hW, map_flat]
    refine mem_flat.mpr ⟨b, p, htokens ▸ hp, ?_⟩
    rw [Row.token, hposition, zero_add]
  · have hranks : (range W).map (fun rank =>
        ((batch.rows W rank).map Row.token).length) =
        replicate W (batch.prefillTokens W).sum := by
      refine eq_replicate_iff.mpr ⟨by simp, forall_mem_map.mpr fun rank _ => ?_⟩
      rw [length_map, prefillRows_eq hW, length_flat]
    rw [length_flatMap, hranks, sum_replicate_nat, overPrefills_eq hW, length_flat, sum_map_mul_right,
      map_id', mul_comm]

theorem length_prefillRows (rank : Nat) : (batch.rows W rank).length = (batch.prefillTokens W).sum := by
  rw [prefillRows_eq hW, length_flat]

omit hW

/-! ## Attention -/

def pcpIndexLists (batch : Batch) (W rank : Nat) (split : TokenSplit) : PcpIndexLists :=
  generate W rank batch.numDecodeReqs split.pcpTokens

/-- Each padded position is a query of one rank, a query sees the positions of its request up to its
own, and `qFullIdx` undoes the selection of the queries. -/
structure CausalAndComplete (batch : Batch) (W : Nat) (splits : Nat → TokenSplit) (kv : List Row) : Prop where
  queries : ∃ queries : Nat → List (Nat × Nat),
    (∀ rank < W, indexSelect (((splits rank).prefillRows batch rank).map Row.token) ((batch.pcpIndexLists W rank
      (splits rank)).qHeadIdx ++ (batch.pcpIndexLists W rank (splits rank)).qTailIdx) = some (queries rank)) ∧
    ((range W).flatMap queries).Perm (batch.overPrefills W fun b q => (b, q))
  head : ∀ rank < W, ∀ i index,
    (batch.pcpIndexLists W rank (splits rank)).qHeadIdx[i]? = some index →
    ∃ query, ((splits rank).prefillRows batch rank)[index]? = some query ∧
      SeesPrefix kv query ((batch.pcpIndexLists W rank (splits rank)).headKeys i) ∧
      (batch.pcpIndexLists W rank (splits rank)).headTailProjKeys i =
        some ((batch.pcpIndexLists W rank (splits rank)).headKeys i)
  tail : ∀ rank < W, ∀ i index,
    (batch.pcpIndexLists W rank (splits rank)).qTailIdx[i]? = some index →
    ∃ query, ((splits rank).prefillRows batch rank)[index]? = some query ∧
      SeesPrefix kv query ((batch.pcpIndexLists W rank (splits rank)).tailKeys i) ∧
      (batch.pcpIndexLists W rank (splits rank)).tailTailProjKeys i =
        some ((batch.pcpIndexLists W rank (splits rank)).tailKeys i)
  inverse : ∀ rank < W,
    indexSelect ((batch.pcpIndexLists W rank (splits rank)).qHeadIdx ++
        (batch.pcpIndexLists W rank (splits rank)).qTailIdx)
      (batch.pcpIndexLists W rank (splits rank)).qFullIdx =
        some (range ((splits rank).prefillRows batch rank).length) ∧
    indexSelect (batch.pcpIndexLists W rank (splits rank)).qFullIdx
      ((batch.pcpIndexLists W rank (splits rank)).qHeadIdx ++ (batch.pcpIndexLists W rank (splits rank)).qTailIdx) =
        some (range ((splits rank).prefillRows batch rank).length)

theorem pcpIndexLists_eq (batch : Batch) (W rank : Nat) :
    batch.pcpIndexLists W rank (batch.tokenSplit W rank) =
      batch.lists W rank := generate_eq _ _ _ _

variable (hkv : kv.map Row.token = batch.overPrefills W fun b q => (b, q))

include hW hkv

/-- A row at offset `p` of chunk `k` sees the keys of the chunk. -/
theorem attention_chunk (rank k : Nat) {row : Nat} (hk : k < 2 * W) (hrow : row < (batch.prefillTokens W).getD b 0)
    (hp : p < (batch.prefillTokens W).getD b 0 / 2) (hposition : batch.rankPosition W rank 0
      (batch.numDecodeReqs + b) row = k * ((batch.prefillTokens W).getD b 0 / 2) + p) :
    ∃ query, (batch.rows W rank)[start (batch.prefillTokens W) b + row]? = some query ∧
      SeesPrefix kv query (chunkKeys W k (batch.prefillTokens W) b p) := by
  refine ⟨_, by rw [prefillRows_eq hW, getElem?_flat hrow, hposition], ?_⟩
  have hin : (k + 1) * ((batch.prefillTokens W).getD b 0 / 2) ≤ (batch.prefillTokens W).getD b 0 * W := by
    rw [getD_prefillTokens hW (lt_numReqs_of_lt_prefillTokens hrow), mul_right_comm, Nat.mul_div_cancel_left _ two_pos]
    exact mul_le_mul_right _ hk
  rw [add_mul] at hin
  unfold SeesPrefix chunkKeys indexSelect
  rw [hkv, overPrefills_eq hW, mapM_map, mul_comm _ k]
  apply Loop.mapM_eq_map
  intro q hq
  have hq := mem_range.mp hq
  apply getElem?_flat
  rw [getD_map_of_zero (by simp)]
  omega

theorem attention_head (hrank : rank < W) {i index : Nat} (hi : (batch.lists W rank).qHeadIdx[i]? = some index) :
    ∃ query, (batch.rows W rank)[index]? = some query ∧ SeesPrefix kv query ((batch.lists W rank).headKeys i) ∧
      (batch.lists W rank).headTailProjKeys i = some ((batch.lists W rank).headKeys i) := by
  obtain ⟨hlt, -⟩ := List.getElem?_eq_some_iff.mp hi
  rw [length_qHeadIdx] at hlt
  obtain ⟨b, p, hp, rfl⟩ := exists_row hlt
  rw [getElem?_qHeadIdx hp, Option.some_inj] at hi
  subst hi
  rw [headKeys_eq hp, headTailProjKeys_eq hp hrank]
  rw [getD_map_of_zero (by simp)] at hp
  have hrow : p < (batch.prefillTokens W).getD b 0 := by omega
  have hhalf := half_prefillTokens hW hrow
  obtain ⟨query, hquery, hsees⟩ := attention_chunk hW hkv rank rank (by omega) hrow hp (by
    rw [rankPosition, ← hhalf, if_pos hp, zero_add])
  exact ⟨query, hquery, hsees, rfl⟩

theorem attention_tail {i index : Nat} (hi : (batch.lists W rank).qTailIdx[i]? = some index) :
    ∃ query, (batch.rows W rank)[index]? = some query ∧
      SeesPrefix kv query ((batch.lists W rank).tailKeys i) ∧ (batch.lists W rank).tailTailProjKeys i =
        some ((batch.lists W rank).tailKeys i) := by
  obtain ⟨hlt, -⟩ := List.getElem?_eq_some_iff.mp hi
  rw [length_qTailIdx] at hlt
  obtain ⟨b, p, hp, rfl⟩ := exists_row hlt
  rw [getElem?_qTailIdx hp, Option.some_inj] at hi
  subst hi
  rw [tailKeys_eq hp, tailTailProjKeys_eq hp]
  rw [getD_map_of_zero (by simp)] at hp
  have hrow : (batch.prefillTokens W).getD b 0 / 2 + p < (batch.prefillTokens W).getD b 0 := by omega
  have hhalf := half_prefillTokens hW hrow
  obtain ⟨query, hquery, hsees⟩ := attention_chunk hW hkv rank (W * 2 - 1 - rank) (by omega) hrow hp (by
    rw [rankPosition, ← hhalf, if_neg (by omega), Nat.zero_add, Nat.add_sub_cancel_left]
    congr 2
    omega)
  exact ⟨query, hquery, hsees, rfl⟩

omit hW hkv

theorem prefillAttention_causalAndComplete (batch : Batch) {W : Nat} (hW : 0 < W) :
    ∃ (splits : Nat → TokenSplit) (restored : List Row),
      (∀ rank < W, batch.updateTokensForPcp W rank = some (splits rank) ∧ indexSelect (gatheredRows batch.numReqs W
        splits) (splits rank).pcpAllgatherRestoreIdx = some restored) ∧
      batch.CausalAndComplete W splits (restored.drop (batch.numDecodeTokens * W)) := by
  obtain ⟨restored, hselect, hperm, hsorted⟩ := indexSelect_argsort (@map_rowKey_perm batch W hW)
  rw [map_rowKey hW] at hselect
  have hkv : (restored.drop (batch.numDecodeTokens * W)).map Row.token =
      batch.overPrefills W fun b q => (b, q) := drop_restored hW hperm hsorted
  have hqueries := fun rank => @queries_perm W (batch.prefillTokens W)
    (fun n hn => even_of_mem_prefillTokens hW hn) rank
  refine ⟨batch.tokenSplit W, restored, fun rank _ => ⟨updateTokensForPcp_eq hW rank, hselect⟩, ?_⟩
  constructor
  case queries =>
    have hselected : ∀ rank, ∃ selected, indexSelect ((batch.rows W rank).map Row.token) ((batch.lists W
        rank).qHeadIdx ++ (batch.lists W rank).qTailIdx) = some selected ∧
        selected.Perm ((batch.rows W rank).map Row.token) := by
      intro rank
      apply indexSelect_perm
      rw [length_map, length_prefillRows hW]
      exact hqueries rank
    choose queries hqueries hrows using hselected
    refine ⟨queries, fun rank _ => ?_, ?_⟩
    · rw [pcpIndexLists_eq]
      exact hqueries rank
    · exact (Perm.flatMap_left _ fun rank _ => hrows rank).trans (prefillRows_perm hW)
  case head =>
    intro rank hrank i index hi
    rw [pcpIndexLists_eq] at hi ⊢
    exact attention_head hW hkv hrank hi
  case tail =>
    intro rank _ i index hi
    rw [pcpIndexLists_eq] at hi ⊢
    exact attention_tail hW hkv hi
  case inverse =>
    intro rank _
    have hlen := (hqueries rank).length_eq
    rw [length_range] at hlen
    have hperm := hqueries rank
    rw [pcpIndexLists_eq, length_prefillRows hW, ← hlen]
    rw [← hlen] at hperm
    exact ⟨indexSelect_self_argsort hperm, indexSelect_argsort_self hperm⟩

theorem prefillAttention_causalAndComplete_smallBatch : ∃ (splits : Nat → TokenSplit) (restored : List Row),
      (∀ rank < 2, smallBatch.updateTokensForPcp 2 rank = some (splits rank) ∧
        indexSelect (gatheredRows smallBatch.numReqs 2 splits) (splits rank).pcpAllgatherRestoreIdx = some restored) ∧
      smallBatch.CausalAndComplete 2 splits (restored.drop (smallBatch.numDecodeTokens * 2)) :=
  prefillAttention_causalAndComplete smallBatch (by decide)

end Batch

end VllmAscend.Worker.Pcp
