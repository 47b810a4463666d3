import VllmAscend.KvTransfer.Mooncake.CpTokens

/-!
# Blocks of the prefiller that span several blocks of the decoder

The places on the decoder are counted in tokens from the first block that is pulled, and the decoder's list starts
after the cached prefix.
-/

namespace VllmAscend.KvTransfer.Mooncake

open List Nat Loop

namespace CpPull

/-- The prefiller's blocks are several blocks of the decoder, which has no context parallelism, and the
prefix is made of whole blocks of the decoder. -/
structure Large (x : CpPull) : Prop where
  ratio : x.blockSize ∣ x.remoteBlockSize
  larger : x.blockSize < x.remoteBlockSize
  localCp : x.localCpSize = 1
  prefix_dvd : x.blockSize ∣ x.numPrefixTokens

section

variable (x : CpPull)

def offset (i q : Nat) : Nat := x.tok i q - x.numPrefixPBlocks * x.remoteBlockSize

def limit : Nat := x.localIds.length * x.blockSize

def largeId (off : Nat) : Nat :=
  x.localIds.getD (off / x.blockSize) 0 * x.group.blockSizeScale + off % x.blockSize / x.kernelSize

def kept (i : Nat) : List Nat := (range (x.num i * x.remoteScale)).filter (x.offset i · < x.limit)

def largeKernels (i : Nat) : List Nat × List Nat :=
  ((x.kept i).map fun q => x.largeId (x.offset i q), (x.kept i).map (x.remoteId i))

/-- Both kernel blocks of an entry are for the same tokens, and every token that is not cached is
written. -/
structure Faithful (t c : Nat) (out : SplitMetadata) : Prop where
  same_tokens : ∀ s q rid lid, out.Copies s q rid lid → ∃ tok,
    (∀ ports, out.remoteHandshakePortList[s]? = some ports →
      ∀ port ∈ ports, x.RemoteHolds (x.engines.prefill.cpRankOf port) rid tok) ∧
    x.LocalHolds (x.engines.decode.cpRank t c) lid tok
  covered : ∀ tok, x.numPrefixTokens ≤ tok → tok < x.numPromptTokens →
    ∃ s q rid lid start, out.Copies s q rid lid ∧
      x.LocalHolds (x.engines.decode.cpRank t c) lid start ∧
      start ≤ tok ∧ tok < start + x.kernelSize

end

variable {x : CpPull}

/-! ## One block -/

theorem pyIndex_offset {off : Nat} (h : off < x.limit) (t c : Nat) :
    (do
      let dBlock ← pyIndex x.localIds ((off : Int) / (x.worker.atRank t c).blockSize)
      some (dBlock * ((x.worker.atRank t c).blockSize / x.kernelSize) +
        ((off : Int) % (x.worker.atRank t c).blockSize).toNat / x.kernelSize)) =
      some (x.largeId off) := by
  have hlt : off / x.blockSize < x.localIds.length := (div_lt_iff_lt_mul x.blockSize_pos).mpr h
  have hindex : pyIndex x.localIds ((off / x.blockSize : Nat) : Int) =
      some (x.localIds.getD (off / x.blockSize) 0) := by
    rw [pyIndex, if_pos (Int.natCast_nonneg _), Int.toNat_natCast, Ragged.getElem?_eq_getD hlt]
  refine (bind_of_some hindex _).trans ?_
  unfold largeId
  rw [← kernelsPerDBlock_eq]
  rfl

theorem largeBlockKernelIds_eq {p : Nat} {off : Nat → Nat} (hp : x.numPrefixPBlocks ≤ p)
    (hoff : ∀ o < x.remoteScale,
      off o = p * x.remoteBlockSize + o * x.kernelSize - x.numPrefixPBlocks * x.remoteBlockSize) (t c : Nat) :
    (x.worker.atRank t c).largeBlockKernelIds (((p : Int) - x.numPrefixPBlocks) * x.remoteBlockSize)
      (x.remoteBlockSize / x.kernelSize) x.kernelSize x.localIds =
      some (((range x.remoteScale).filter (off · < x.limit)).map fun o => x.largeId (off o)) := by
  have hle := mul_le_mul_right x.remoteBlockSize hp
  generalize hstart : p * x.remoteBlockSize - x.numPrefixPBlocks * x.remoteBlockSize = start
  have hstep : ∀ o ∈ range x.remoteScale, off o = start + o * x.kernelSize := by
    intro o ho
    rw [hoff o (mem_range.mp ho)]
    omega
  have htoken : ((p : Int) - x.numPrefixPBlocks) * x.remoteBlockSize = (start : Nat) := by
    rw [← hstart, cast_sub hle]
    push_cast
    ring
  have hsorted : ((range x.remoteScale).map fun o =>
      (start : Int) + (o * x.kernelSize : Nat)).Pairwise (· ≤ ·) := by
    refine pairwise_map.mpr (pairwise_lt_range.imp fun hlt => ?_)
    exact_mod_cast Nat.add_le_add_left (Nat.mul_le_mul_right _ hlt.le) _
  have hkept : ∀ o, decide ((start : Int) + (o * x.kernelSize : Nat) <
      (x.localIds.length : Int) * ((x.worker.atRank t c).blockSize : Nat)) =
        decide (start + o * x.kernelSize < x.limit) := by
    intro o
    rw [decide_eq_decide]
    exact_mod_cast Iff.rfl
  have hscale : x.remoteBlockSize / x.kernelSize = x.remoteScale := rfl
  unfold SplitWorker.largeBlockKernelIds
  dsimp only
  rw [htoken, hscale, takeWhile_lt_of_sorted hsorted, filter_map, mapM_map]
  simp only [Function.comp_def, hkept]
  rw [filter_congr (p := (off · < x.limit)) fun o ho => by rw [hstep o ho]]
  apply mapM_eq_map
  intro o ho
  obtain ⟨ho, hroom⟩ := mem_filter.mp ho
  rw [hstep o ho, ← pyIndex_offset (of_decide_eq_true hroom) t c]
  rfl

/-! ## The shard of a prefill rank -/

theorem tok_mono (i : Nat) : Monotone (x.tok i) := by
  intro q q' hle
  unfold tok
  rcases lt_or_ge (q / x.remoteScale) (q' / x.remoteScale) with hlt | hge
  · have hblock : x.block i q + 1 ≤ x.block i q' := by
      have hmul : (x.share i x.numPrefixPBlocks + q / x.remoteScale + 1) * x.remoteCpSize ≤
          (x.share i x.numPrefixPBlocks + q' / x.remoteScale) * x.remoteCpSize :=
        mul_le_mul_right _ (by omega)
      have hpos := remoteCpSize_pos (x := x)
      rw [add_mul] at hmul
      unfold block
      omega
    have hoffset : q % x.remoteScale * x.kernelSize ≤ x.remoteBlockSize := by
      rw [← remoteScale_mul]
      exact mul_le_mul_right _ (mod_lt q remoteScale_pos).le
    have hnext := mul_le_mul_right x.remoteBlockSize hblock
    rw [add_mul] at hnext
    omega
  · have heq : q / x.remoteScale = q' / x.remoteScale :=
      Nat.le_antisymm (Nat.div_le_div_right hle) hge
    have hmod : q % x.remoteScale ≤ q' % x.remoteScale := by
      have hq := div_add_mod q x.remoteScale
      have hq' := div_add_mod q' x.remoteScale
      rw [heq] at hq
      omega
    unfold block
    rw [heq]
    exact Nat.add_le_add_left (Nat.mul_le_mul_right _ hmod) _

theorem exists_kept (x : CpPull) (i : Nat) : ∃ k, x.kept i = range k :=
  filter_range_lt (fun _ _ hle => Nat.sub_le_sub_right (tok_mono i hle) _) _ _

theorem mem_kept {i q : Nat} : q ∈ x.kept i ↔ q < x.num i * x.remoteScale ∧ x.offset i q < x.limit := by
  unfold kept
  rw [mem_filter, mem_range, decide_eq_true_eq]

theorem kernelSize_dvd_offset (i q : Nat) : x.kernelSize ∣ x.offset i q := by
  apply dvd_sub (kernelSize_dvd_tok i q)
  rw [← remoteScale_mul, ← mul_assoc]
  exact dvd_mul_left _ _

theorem offset_add {i q : Nat} (hi : i < x.remoteCpSize) (hq : q < x.num i * x.remoteScale) :
    x.numPrefixPBlocks * x.remoteBlockSize + x.offset i q = x.tok i q := by
  have hle := mul_le_mul_right x.remoteBlockSize (block_bounds hi hq).1
  apply Nat.add_sub_cancel'
  unfold tok
  omega

namespace Large

variable (h : x.Large)

include h

theorem localKernelIds_eq {i : Nat} (hi : i < x.remoteCpSize) (t c ℓ firstD : Nat) :
    (x.worker.atRank t c).localKernelIdsForShard (x.share i x.numPrefixPBlocks) (x.num i) i
      x.numPrefixPBlocks firstD (x.paramsAt ℓ) x.kernelSize x.localIds =
      some ((x.kept i).map fun q => x.largeId (x.offset i q)) := by
  have hlarge : (x.paramsAt ℓ).remoteBlockSize > (x.worker.atRank t c).blockSize := h.larger
  unfold SplitWorker.localKernelIdsForShard
  simp only [if_pos hlarge]
  rw [mapM_eq_map (g := fun j => ((range x.remoteScale).filter fun o =>
    x.offset i (j * x.remoteScale + o) < x.limit).map fun o => x.largeId (x.offset i (j * x.remoteScale + o)))]
  · rw [Option.map_some, ← flatMap_def, flatMap_range_filter]
    simp only [div_add_mod', kept]
  · intro j hj
    have hq : j * x.remoteScale < x.num i * x.remoteScale :=
      mul_lt_mul_of_pos_right (mem_range.mp hj) remoteScale_pos
    have hlo := (block_bounds hi hq).1
    rw [block, Nat.mul_div_cancel _ remoteScale_pos] at hlo
    refine largeBlockKernelIds_eq hlo (fun o ho => ?_) t c
    rw [offset, tok, block, RoundRobin.mul_add_div_of_lt ho, mul_add_mod_of_lt ho]

theorem shardGroup_eq_kept {i : Nat} (hi : i < x.remoteCpSize) (t c ℓ firstD : Nat) (final : Bool) :
    x.groupAt t c ℓ firstD i final = some (x.largeKernels i) := by
  obtain ⟨k, hk⟩ := x.exists_kept i
  have hle : k ≤ x.num i * x.remoteScale := by
    have hlen := length_filter_le (x.offset i · < x.limit) (range (x.num i * x.remoteScale))
    have hkept : ((range (x.num i * x.remoteScale)).filter (x.offset i · < x.limit)).length = k := by
      rw [← length_range (n := k), ← hk, kept]
    rwa [hkept, length_range] at hlen
  rw [shardGroup_eq hi (h.localKernelIds_eq hi t c ℓ firstD), largeKernels, hk]
  simp [hle, ← map_take, take_range]

/-! ## The rank -/

theorem rBlk_eq : x.rBlk = 1 := by
  exact if_neg (not_lt.mpr h.larger.le)

variable {t c : Nat}

theorem cpRank_eq (hc : c < x.engines.decode.pcpSize) : x.engines.decode.cpRank t c = 0 := by
  have hlt : x.engines.decode.cpRank t c < x.localCpSize := x.engines_accepted.decode.cpRank_lt hc
  rw [h.localCp] at hlt
  omega

theorem exists_large_shards (rand : Sampler) (ht : t < x.engines.decode.tpSize) (hc : c < x.engines.decode.pcpSize) :
    ∃ out ranks, x.splitAt rand t c = some out ∧ x.Shards t c x.largeKernels out ranks := by
  apply exists_shards rand ht hc
  · intro i hi _ isFinalShard
    exact h.shardGroup_eq_kept hi t c _ _ isFinalShard
  · intro hlt
    rw [h.rBlk_eq] at hlt
    omega

theorem external_le_limit : x.request.numExternalTokens ≤ x.limit := by
  have hlength : x.localIds.length =
      x.request.numExternalTokens ⌈/⌉ x.blockSize ⌈/⌉ x.localCpSize := x.local_length
  rw [limit, hlength, h.localCp, ceilDiv_one, mul_comm]
  exact le_smul_ceilDiv x.blockSize_pos

theorem localHolds_largeId {off : Nat} (hoff : off < x.limit) (hdvd : x.kernelSize ∣ off) :
    x.LocalHolds 0 (x.largeId off) (x.numPrefixTokens + off) := by
  have hlt : off / x.blockSize < x.localIds.length := (div_lt_iff_lt_mul x.blockSize_pos).mpr hoff
  have hmod : x.kernelSize ∣ off % x.blockSize := (dvd_mod_iff kernelSize_dvd).mpr hdvd
  refine ⟨off / x.blockSize, _, off % x.blockSize / x.kernelSize, ?_, ?_, rfl, ?_⟩
  · simp [hlt]
  · rw [div_lt_iff_lt_mul kernelSize_pos, scale_mul]
    exact mod_lt _ x.blockSize_pos
  · rw [h.localCp, Nat.mul_one, Nat.add_zero, Nat.div_mul_cancel hmod, Nat.add_assoc, div_add_mod']

end Large

namespace Shards

variable {t c : Nat} {out : SplitMetadata} {ranks : List Nat}
  (hs : x.Shards t c x.largeKernels out ranks)

include hs

theorem copies_iff_kept {s q rid lid : Nat} : out.Copies s q rid lid ↔
    ∃ i, ranks[s]? = some i ∧ (q < x.num i * x.remoteScale ∧ x.offset i q < x.limit) ∧
      lid = x.largeId (x.offset i q) ∧ rid = x.remoteId i q := by
  choose n hn using x.exists_kept
  rw [hs.copies_iff (n := n) fun i => by rw [largeKernels, hn]]
  simp only [← mem_kept, hn, mem_range]

theorem faithful_of_cached (hcached : x.numPrefixTokens = x.numPromptTokens) : x.Faithful t c out where
  same_tokens := by
    intro s q rid lid hcopies
    obtain ⟨i, -, ⟨hq, -⟩, -, -⟩ := hs.copies_iff_kept.mp hcopies
    have hall : x.numPrefixPBlocks = x.numPromptBlocks := by
      rw [numPrefixPBlocks, x.external_eq, hcached, Nat.sub_self, zero_ceilDiv]
      rfl
    rw [num, hall, Nat.sub_self, Nat.zero_mul] at hq
    exact absurd hq (not_lt_zero q)
  covered := by omega

end Shards

namespace Large

variable (h : x.Large)

include h

variable {t c : Nat} {out : SplitMetadata} {ranks : List Nat}

section

variable (hs : x.Shards t c x.largeKernels out ranks)

include hs

section

variable (hc : c < x.engines.decode.pcpSize)

include hc

theorem mem_ranks
    {i : Nat} (hi : i < x.remoteCpSize) : i ∈ ranks := by
  refine (hs.mem i).mpr ⟨hi, ?_⟩
  rw [h.localCp, mod_one, h.cpRank_eq hc]

theorem faithful_of_aligned
    (haligned : x.numPrefixPBlocks * x.remoteBlockSize = x.numPrefixTokens) : x.Faithful t c out where
  same_tokens := by
    intro s q rid lid hcopies
    obtain ⟨i, hi, ⟨hq, hroom⟩, rfl, rfl⟩ := hs.copies_iff_kept.mp hcopies
    have hlt := (hs.rank_of_get hi).1
    refine ⟨x.tok i q, hs.remoteHolds hi hq, ?_⟩
    rw [h.cpRank_eq hc, ← offset_add hlt hq, haligned]
    exact h.localHolds_largeId hroom (kernelSize_dvd_offset i q)
  covered := by
    intro tok hlo hhi
    -- the first token of the kernel block
    have hle : tok / x.kernelSize * x.kernelSize ≤ tok := div_mul_le_self _ _
    have hnext : tok < tok / x.kernelSize * x.kernelSize + x.kernelSize := by
      have hmod := mod_lt tok (kernelSize_pos (x := x))
      have hsplit := div_add_mod' tok x.kernelSize
      omega
    have hcached : x.numPrefixTokens ≤ tok / x.kernelSize * x.kernelSize := by
      obtain ⟨n, hn⟩ := kernelSize_dvd.trans h.prefix_dvd
      rw [hn, mul_comm] at hlo ⊢
      exact mul_le_mul_right _ ((le_div_iff_mul_le kernelSize_pos).mpr hlo)
    have hdvd : x.kernelSize ∣ tok / x.kernelSize * x.kernelSize := dvd_mul_left _ _
    generalize tok / x.kernelSize * x.kernelSize = start at *
    obtain ⟨i, hi, q, hq, rfl⟩ := exists_tok hdvd
      ((le_div_iff_mul_le remoteBlockSize_pos).mpr (haligned ▸ hcached))
      ((div_lt_iff_lt_mul remoteBlockSize_pos).mpr (by have := prompt_le (x := x); omega))
    obtain ⟨s, hget⟩ := mem_iff_getElem?.mp (h.mem_ranks hs hc hi)
    have hstart := offset_add hi hq
    rw [haligned] at hstart
    have hroom : x.offset i q < x.limit := by
      have hlimit := h.external_le_limit
      rw [x.external_eq] at hlimit
      omega
    refine ⟨s, q, _, _, x.tok i q, hs.copies_iff_kept.mpr ⟨i, hget, ⟨hq, hroom⟩, rfl, rfl⟩, ?_, hle, hnext⟩
    rw [h.cpRank_eq hc, ← hstart]
    exact h.localHolds_largeId hroom (kernelSize_dvd_offset i q)

theorem aligned_of_faithful (hfaithful : x.Faithful t c out)
    (hlt : x.numPrefixTokens < x.numPromptTokens) : x.numPrefixPBlocks * x.remoteBlockSize = x.numPrefixTokens := by
  have hexternal : 0 < x.request.numExternalTokens := by
    rw [x.external_eq]
    omega
  have hfirst : x.numPrefixPBlocks < x.numPromptBlocks := by
    have hpos : 0 < x.request.numExternalTokens ⌈/⌉ x.remoteBlockSize := by
      rw [lt_iff_lt_of_le_iff_le (ceilDiv_le_iff_le_mul remoteBlockSize_pos)]
      exact hexternal
    have hle := external_le (x := x)
    unfold numPrefixPBlocks numPromptBlocks at *
    omega
  have hdiv : x.numPrefixPBlocks * x.remoteBlockSize / x.remoteBlockSize = x.numPrefixPBlocks :=
    Nat.mul_div_cancel _ remoteBlockSize_pos
  obtain ⟨i, hi, q, hq, htok⟩ := exists_tok (x := x) (t := x.numPrefixPBlocks * x.remoteBlockSize)
    (Dvd.dvd.mul_left x.kernel_dvd _) hdiv.ge (lt_of_eq_of_lt hdiv hfirst)
  have hzero : x.offset i q = 0 := by
    unfold offset
    omega
  have hroom : x.offset i q < x.limit := by
    rw [hzero]
    exact hexternal.trans_le h.external_le_limit
  obtain ⟨s, hget⟩ := mem_iff_getElem?.mp (h.mem_ranks hs hc hi)
  obtain ⟨tok, hremote, hlocal⟩ := hfaithful.same_tokens s q _ _
    (hs.copies_iff_kept.mpr ⟨i, hget, ⟨hq, hroom⟩, rfl, rfl⟩)
  obtain ⟨ports, hports, hlen, -⟩ := hs.ports s i hget
  obtain ⟨port, hport⟩ := exists_mem_of_length_pos (hlen ▸ x.engines_accepted.numPulls_pos)
  have hfrom := hremote ports hports port hport
  rw [hs.cpRankOf_eq hget hports hport] at hfrom
  rw [h.cpRank_eq hc] at hlocal
  have hto := h.localHolds_largeId hroom (kernelSize_dvd_offset i q)
  rw [← htok, (remoteHolds_tok hi hq).unique hfrom, hlocal.unique hto, hzero, add_zero]

end

end

/-- The copied pairs are right for exactly the prefixes that end with a block of the prefiller, and when
nothing is left to copy. -/
theorem faithful_iff (rand : Sampler) (ht : t < x.engines.decode.tpSize)
    (hc : c < x.engines.decode.pcpSize) : ∃ out, x.splitAt rand t c = some out ∧ (x.Faithful t c out ↔
        x.remoteBlockSize ∣ x.numPrefixTokens ∨ x.numPrefixTokens = x.numPromptTokens) := by
  obtain ⟨out, ranks, hsplit, hs⟩ := h.exists_large_shards rand ht hc
  refine ⟨out, hsplit, ?_, ?_⟩
  · intro hfaithful
    rcases x.prefix_le.lt_or_eq with hlt | heq
    · left
      rw [← h.aligned_of_faithful hs hc hfaithful hlt]
      exact dvd_mul_left _ _
    · exact .inr heq
  · rintro (hdvd | hcached)
    · exact h.faithful_of_aligned hs hc (prefixPBlocks_mul hdvd)
    · exact hs.faithful_of_cached hcached

end Large

def firstCached : CpPull :=
  { worker :=
      { tpSize := 1
        prefillTpSize := 1
        decodeTpSize := 1
        prefillPpSize := 1
        numKeyValueHeads := 1
        isDeepseekMla := true
        useSparse := false
        blockSize := 1
        pcpSize := 1
        dcpSize := 1
        tpRank := 0
        pcpRank := 0
        sideChannelPort := 100
        isHmaRequired := false
        groups := [⟨false, 1, 1, 1⟩] }
    request :=
      { remotePtpSize := some 1
        remotePcpSize := 2
        remoteDcpSize := 1
        remotePort := 200
        remoteBlockSize := 2
        numExternalTokens := 3
        numComputedTokens := 1
        numPromptBlocks := 2
        localBlockIds := [[7, 8, 9]]
        remoteBlockIds := [[5]] }
    group := ⟨false, 1, 1, 1⟩
    localIds := [7, 8, 9]
    remoteIds := [5]
    numPromptTokens := 4
    numPrefixTokens := 1
    groups_eq := rfl
    attention := rfl
    notHybrid := rfl
    local_eq := rfl
    remote_eq := rfl
    accepted := ⟨⟨by decide, by decide, by decide, by decide, by decide, by decide⟩,
      ⟨by decide, by decide, by decide, by decide, by decide, by decide⟩, by decide⟩
    fits := by decide
    cp := by decide
    sparse_pulls := by decide
    blockSize_pos := by decide
    scale_dvd := by decide
    kernel_dvd := by decide
    prefix_le := by decide
    external_eq := rfl
    promptBlocks_eq := by decide
    local_nodup := by decide
    remote_nodup := by decide
    local_length := by decide
    remote_length := by decide }

/-- Tokens 0 and 1 are written to the places of tokens 1 and 2, token 2 to that of token 3, and token
3 is not copied. -/
theorem firstCached_not_faithful : firstCached.Large ∧ ∃ out, firstCached.splitAt firstRanks 0 0 = some out ∧
      out = ⟨[[200], [201]], [[[7, 8]], [[9]]], [[[10, 11]], [[10]]]⟩ ∧
      out.Copies 0 0 10 7 ∧ firstCached.RemoteHolds 0 10 0 ∧ firstCached.LocalHolds 0 7 1 ∧
      ¬ firstCached.Faithful 0 0 out := by
  have hlarge : firstCached.Large := ⟨by decide, by decide, by decide, by decide⟩
  have heq : firstCached.splitAt firstRanks 0 0 =
      some ⟨[[200], [201]], [[[7, 8]], [[9]]], [[[10, 11]], [[10]]]⟩ := by decide
  have hcopies : SplitMetadata.Copies ⟨[[200], [201]], [[[7, 8]], [[9]]], [[[10, 11]], [[10]]]⟩
      0 0 10 7 := ⟨[7, 8], [10, 11], rfl, rfl, rfl, rfl⟩
  have hremote : firstCached.RemoteHolds 0 10 0 := ⟨0, 5, 0, rfl, by decide, rfl, by decide⟩
  have hlocal : firstCached.LocalHolds 0 7 1 := ⟨0, 7, 0, rfl, by decide, rfl, by decide⟩
  refine ⟨hlarge, _, heq, rfl, hcopies, hremote, hlocal, fun hfaithful => ?_⟩
  obtain ⟨tok, hfrom, hto⟩ := hfaithful.same_tokens 0 0 10 7 hcopies
  have htok : tok = 0 := (hfrom [200] rfl 200 (by decide)).unique hremote
  have htok' : tok = 1 := LocalHolds.unique hto hlocal
  omega

theorem faithful_iff_first_cached : firstCached.Large ∧ ∃ out, firstCached.splitAt firstRanks 0 0 = some out ∧
      (firstCached.Faithful 0 0 out ↔ 2 ∣ 1 ∨ 1 = 4) := by
  have hlarge : firstCached.Large := ⟨by decide, by decide, by decide, by decide⟩
  exact ⟨hlarge, Large.faithful_iff hlarge firstRanks (by decide) (by decide)⟩

end CpPull

end VllmAscend.KvTransfer.Mooncake
