import VllmAscend.KvTransfer.Mooncake.CpTokens

/-!
# Every block where the decoder expects it
-/

namespace VllmAscend.KvTransfer.Mooncake

open List Nat Loop

theorem CpEngines.Accepted.flatMap_heads {e : CpEngines} (h : e.Accepted) {t : Nat} {ports : List Nat}
    (hlen : ports.length = e.numPulls) (hports : ∀ k port, ports[k]? = some port → headsOf e.heads e.prefill.tpSize
      (e.prefill.tpRankOf port) = headGroup e.heads e.prefill.tpSize (t / e.decode.span e.heads * e.numPulls + k)) :
    (ports.flatMap fun port => headsOf e.heads e.prefill.tpSize (e.prefill.tpRankOf port)) =
      headsOf e.heads e.decode.tpSize t := by
  have hmap : (ports.map fun port => headsOf e.heads e.prefill.tpSize (e.prefill.tpRankOf port)) =
      (range e.numPulls).map fun k =>
        headGroup e.heads e.prefill.tpSize (t / e.decode.span e.heads * e.numPulls + k) := by
    apply ext_getElem
    · simp [hlen]
    · intro k hk _
      have hk : k < ports.length := by simpa using hk
      simp [hports k _ (getElem?_eq_getElem hk)]
  rw [flatMap_def, hmap, ← flatMap_def, h.decode.headsOf_eq]
  unfold headGroup
  rw [flatMap_range_mul, mul_assoc, h.pulls_mul]

namespace CpPull

/-- The decoder's blocks are whole blocks of the prefiller, and the prefix is made of whole rounds. -/
structure Rounds (x : CpPull) : Prop where
  ratio : x.remoteBlockSize ∣ x.blockSize
  prefix_dvd : x.blockSize * x.localCpSize ∣ x.numPrefixTokens

def localId (x : CpPull) (i q : Nat) : Nat :=
  x.localIds.getD ((x.block i q / x.rBlk - x.numPrefixPBlocks / x.rBlk) / x.localCpSize) 0 *
    x.group.blockSizeScale + (x.block i q % x.rBlk * x.remoteScale + q % x.remoteScale)

namespace Rounds

variable {x : CpPull} (h : x.Rounds)

include h

theorem rBlk_mul : x.rBlk * x.remoteBlockSize = x.blockSize := by
  unfold CpPull.rBlk SplitWorker.rBlk
  split
  · exact Nat.div_mul_cancel h.ratio
  · have hlt := le_of_dvd x.blockSize_pos h.ratio
    unfold CpPull.remoteBlockSize CpPull.blockSize at *
    omega

theorem scale_eq : x.group.blockSizeScale = x.rBlk * x.remoteScale := by
  apply eq_of_mul_eq_mul_right (kernelSize_pos (x := x))
  rw [scale_mul, mul_assoc, remoteScale_mul, h.rBlk_mul]

theorem prefix_eq : x.numPrefixPBlocks * x.remoteBlockSize = x.numPrefixTokens :=
  prefixPBlocks_mul (h.ratio.trans (dvd_of_mul_right_dvd h.prefix_dvd))

theorem prefix_rounds : ∃ n, x.numPrefixPBlocks = x.rBlk * (x.localCpSize * n) := by
  obtain ⟨n, hn⟩ := h.prefix_dvd
  refine ⟨n, eq_of_mul_eq_mul_right (remoteBlockSize_pos (x := x)) ?_⟩
  rw [h.prefix_eq, hn, ← h.rBlk_mul]
  ring

theorem prefix_dBlocks : x.blockSize * (x.numPrefixPBlocks / x.rBlk) = x.numPrefixTokens := by
  obtain ⟨n, hn⟩ := h.prefix_rounds
  rw [← h.prefix_eq, ← h.rBlk_mul, hn, Nat.mul_div_cancel_left _ rBlk_pos]
  ring

omit h in
theorem owner_eq (k i : Nat) : (k * x.remoteCpSize + i) / x.rBlk % x.localCpSize = i / x.rBlk % x.localCpSize := by
  rcases lt_or_ge 1 x.localCpSize with hL | hL
  · obtain ⟨n, hn⟩ := rBlk_mul_dvd hL
    have hsplit : k * x.remoteCpSize + i = x.rBlk * (x.localCpSize * (n * k)) + i := by
      rw [hn]
      ring
    rw [hsplit, mul_add_div rBlk_pos, mul_add_mod]
  · have hone : x.localCpSize = 1 := le_antisymm hL localCpSize_pos
    rw [hone, mod_one, mod_one]

variable {ℓ p : Nat} (hp : x.numPrefixPBlocks ≤ p) (howner : p / x.rBlk % x.localCpSize = ℓ)

include hp howner

theorem dBlock_eq : p / x.rBlk = x.numPrefixPBlocks / x.rBlk + ℓ +
    x.localCpSize * ((p / x.rBlk - x.numPrefixPBlocks / x.rBlk) / x.localCpSize) := by
  obtain ⟨n, hn⟩ := h.prefix_rounds
  have hdiv : x.numPrefixPBlocks / x.rBlk = x.localCpSize * n := by rw [hn, Nat.mul_div_cancel_left _ rBlk_pos]
  have hle : x.localCpSize * n ≤ p / x.rBlk := by
    rw [← hdiv]
    exact Nat.div_le_div_right hp
  have hmod : (p / x.rBlk - x.localCpSize * n) % x.localCpSize = ℓ := by rw [← howner, sub_mul_mod hle]
  have hsplit := div_add_mod (p / x.rBlk - x.localCpSize * n) x.localCpSize
  rw [hdiv]
  omega

omit hp in
theorem firstD_eq : (x.paramsAt ℓ).firstD (x.numPrefixPBlocks / x.rBlk) = x.numPrefixPBlocks / x.rBlk + ℓ := by
  obtain ⟨n, hn⟩ := h.prefix_rounds
  have hℓ : ℓ < x.localCpSize := howner ▸ mod_lt _ localCpSize_pos
  have hmod : ((ℓ : Int) - (x.localCpSize * n : Nat)) % x.localCpSize = ℓ := by
    push_cast
    rw [Int.sub_mul_emod_self_left]
    exact Int.emod_eq_of_lt (Int.natCast_nonneg ℓ) (by exact_mod_cast hℓ)
  unfold CpParams.firstD
  rw [hn, Nat.mul_div_cancel_left _ rBlk_pos]
  exact congrArg (x.localCpSize * n + ·.toNat) hmod

variable (hlt : p < x.numPromptBlocks)

include hlt

omit howner in
theorem dBlock_lt : (p / x.rBlk - x.numPrefixPBlocks / x.rBlk) / x.localCpSize < x.localIds.length := by
  have hprompt : x.remoteBlockSize * p < x.numPromptTokens := by
    rw [← lt_iff_lt_of_le_iff_le (ceilDiv_le_iff_le_mul remoteBlockSize_pos)]
    exact lt_of_lt_of_eq hlt x.promptBlocks_eq
  have hblock : x.blockSize * (p / x.rBlk) ≤ x.remoteBlockSize * p := by
    rw [← h.rBlk_mul, mul_comm x.rBlk, mul_assoc]
    exact mul_le_mul_left _ (mul_div_le p x.rBlk)
  have hexternal : x.blockSize * (p / x.rBlk - x.numPrefixPBlocks / x.rBlk) < x.request.numExternalTokens := by
    have hcached := h.prefix_dBlocks
    rw [Nat.mul_sub, x.external_eq]
    have hle := Nat.mul_le_mul_left x.blockSize (Nat.div_le_div_right (c := x.rBlk) hp)
    omega
  have hlength : x.localIds.length =
      x.request.numExternalTokens ⌈/⌉ x.blockSize ⌈/⌉ x.localCpSize := x.local_length
  rw [hlength, lt_iff_lt_of_le_iff_le (ceilDiv_le_iff_le_mul localCpSize_pos)]
  refine lt_of_le_of_lt (mul_div_le _ x.localCpSize) ?_
  exact (lt_iff_lt_of_le_iff_le (ceilDiv_le_iff_le_mul x.blockSize_pos)).mpr hexternal

theorem smallBlockKernelIds_eq (t c : Nat) : (x.worker.atRank t c).smallBlockKernelIds p
      ((x.paramsAt ℓ).firstD (x.numPrefixPBlocks / x.rBlk)) x.rBlk x.localCpSize x.remoteBlockSize
      x.kernelSize x.localIds = some ((range x.remoteScale).map fun o =>
        x.localIds.getD ((p / x.rBlk - x.numPrefixPBlocks / x.rBlk) / x.localCpSize) 0 *
          x.group.blockSizeScale + (p % x.rBlk * x.remoteScale + o)) := by
  have hidx : ((p / x.rBlk : Nat) - ((x.paramsAt ℓ).firstD (x.numPrefixPBlocks / x.rBlk) : Int)) /
      (x.localCpSize : Int) =
        ((p / x.rBlk - x.numPrefixPBlocks / x.rBlk) / x.localCpSize : Nat) := by
    have hd := h.dBlock_eq hp howner
    generalize (p / x.rBlk - x.numPrefixPBlocks / x.rBlk) / x.localCpSize = m at hd
    rw [h.firstD_eq howner, hd, cast_add, add_sub_cancel_left, cast_mul]
    exact Int.mul_ediv_cancel_left _ (by exact_mod_cast (localCpSize_pos (x := x)).ne')
  have hget := h.dBlock_lt hp hlt
  have hkernel : p % x.rBlk * x.remoteBlockSize / x.kernelSize = p % x.rBlk * x.remoteScale := by
    rw [← remoteScale_mul, ← Nat.mul_assoc, Nat.mul_div_cancel _ kernelSize_pos]
  unfold SplitWorker.smallBlockKernelIds
  dsimp only
  rw [hidx, if_neg (by exact_mod_cast not_le.mpr hget), pyIndex, hkernel]
  refine (bind_of_some (Ragged.getElem?_eq_getD hget 0) _).trans ?_
  congr 1
  apply map_congr_left
  intro o _
  rw [← kernelsPerDBlock_eq, add_assoc]
  rfl

/-! ## The shard of a prefill rank -/

omit hp howner hlt

variable {i q : Nat} (hi : i < x.remoteCpSize) (hshard : i / x.rBlk % x.localCpSize = ℓ)

include hi hshard

theorem localKernelIds_eq (t c : Nat) :
    (x.worker.atRank t c).localKernelIdsForShard (x.share i x.numPrefixPBlocks) (x.num i) i
      x.numPrefixPBlocks ((x.paramsAt ℓ).firstD (x.numPrefixPBlocks / x.rBlk)) (x.paramsAt ℓ)
      x.kernelSize x.localIds = some ((range (x.num i * x.remoteScale)).map (x.localId i)) := by
  have hsmall : ¬ (x.paramsAt ℓ).remoteBlockSize > (x.worker.atRank t c).blockSize :=
    not_lt.mpr (le_of_dvd x.blockSize_pos h.ratio)
  unfold SplitWorker.localKernelIdsForShard
  simp only [if_neg hsmall]
  rw [mapM_eq_map (g := fun j => (range x.remoteScale).map fun o => x.localId i (j * x.remoteScale + o))]
  · rw [Option.map_some, ← flatMap_def, flatMap_range_map]
    simp only [div_add_mod']
  · intro j hj
    have hq : j * x.remoteScale < x.num i * x.remoteScale :=
      mul_lt_mul_of_pos_right (mem_range.mp hj) remoteScale_pos
    have hbounds := block_bounds hi hq
    have hblock : ∀ o < x.remoteScale, x.block i (j * x.remoteScale + o) =
        (x.share i x.numPrefixPBlocks + j) * x.remoteCpSize + i := by
      intro o ho
      rw [block, RoundRobin.mul_add_div_of_lt ho]
    have hzero := hblock 0 remoteScale_pos
    rw [add_zero] at hzero
    rw [hzero] at hbounds
    have hsmallIds := h.smallBlockKernelIds_eq hbounds.1 ((owner_eq _ i).trans hshard) hbounds.2 t c
    refine hsmallIds.trans (congrArg some ?_)
    apply map_congr_left
    intro o ho
    have ho := mem_range.mp ho
    rw [localId, hblock o ho, mul_add_mod_of_lt ho]

variable (hq : q < x.num i * x.remoteScale)

include hq

omit hshard in
theorem uncached_tok : x.Uncached (x.tok i q) := by
  obtain ⟨hlo, hhi⟩ := block_bounds hi hq
  refine ⟨kernelSize_dvd_tok i q, ?_, ?_⟩
  · rw [← h.prefix_eq]
    exact (mul_le_mul_right _ hlo).trans (le_add_right _ _)
  · rw [← div_lt_iff_lt_mul remoteBlockSize_pos, tok_digits.1]
    exact hhi

omit hi hshard hq in
theorem exists_entry {tok : Nat} (htok : x.Uncached tok) :
    ∃ i < x.remoteCpSize, ∃ q < x.num i * x.remoteScale, x.tok i q = tok := by
  obtain ⟨hdvd, hlo, hhi⟩ := htok
  apply exists_tok hdvd
  · rwa [le_div_iff_mul_le remoteBlockSize_pos, h.prefix_eq]
  · rwa [div_lt_iff_lt_mul remoteBlockSize_pos]

omit hi hq in
theorem owner_tok : x.tok i q / x.blockSize % x.localCpSize = ℓ := by
  rw [← h.rBlk_mul, Nat.mul_comm, ← Nat.div_div_eq_div_mul, tok_digits.1, block, owner_eq, hshard]

theorem localHolds_tok : x.LocalHolds ℓ (x.localId i q) (x.tok i q) := by
  obtain ⟨hlo, hhi⟩ := block_bounds hi hq
  have hlt := h.dBlock_lt hlo hhi
  have howner : x.block i q / x.rBlk % x.localCpSize = ℓ := (owner_eq _ i).trans hshard
  have hdBlock := h.dBlock_eq hlo howner
  have hmod : x.block i q % x.rBlk + 1 ≤ x.rBlk := mod_lt _ rBlk_pos
  have ho := mod_lt q (remoteScale_pos (x := x))
  refine ⟨(x.block i q / x.rBlk - x.numPrefixPBlocks / x.rBlk) / x.localCpSize, _,
    x.block i q % x.rBlk * x.remoteScale + q % x.remoteScale, ?_, ?_, rfl, ?_⟩
  · simp [hlt]
  · have hle := mul_le_mul_right x.remoteScale hmod
    rw [h.scale_eq]
    rw [add_mul] at hle
    omega
  · generalize (x.block i q / x.rBlk - x.numPrefixPBlocks / x.rBlk) / x.localCpSize = m at hdBlock
    have hsplit := div_add_mod (x.block i q) x.rBlk
    generalize x.block i q % x.rBlk = a at hsplit ⊢
    rw [hdBlock] at hsplit
    rw [tok, ← hsplit, ← h.prefix_dBlocks, ← h.rBlk_mul, ← remoteScale_mul]
    ring

end Rounds

/-! ## All decoder ranks -/

def Carries (x : CpPull) (out : SplitMetadata) (s q tok : Nat) : Prop :=
  ∃ rid lid ports, out.Copies s q rid lid ∧ out.remoteHandshakePortList[s]? = some ports ∧
    ports ≠ [] ∧ ∀ port ∈ ports, x.RemoteHolds (x.engines.prefill.cpRankOf port) rid tok

structure Placed (x : CpPull) (t c : Nat) (out : SplitMetadata) : Prop where
  ports_length : out.remoteHandshakePortList.length = out.localBlockIdsList.length
  aligned : Forall₂ (fun kernelLocal kernelRemote =>
    kernelLocal.map List.length = kernelRemote.map List.length)
    out.localBlockIdsList out.remoteBlockIdsList
  /-- each shard is read from ranks that have the heads of this one -/
  heads : ∀ ports ∈ out.remoteHandshakePortList,
    (ports.flatMap fun port =>
      headsOf x.engines.heads x.engines.prefill.tpSize (x.engines.prefill.tpRankOf port)) =
      headsOf x.engines.heads x.engines.decode.tpSize t
  /-- both kernel blocks are for the same tokens, which belong to this rank -/
  same_tokens : ∀ s q rid lid, out.Copies s q rid lid → ∃ tok, x.Uncached tok ∧
    (∀ ports, out.remoteHandshakePortList[s]? = some ports →
      ∀ port ∈ ports, x.RemoteHolds (x.engines.prefill.cpRankOf port) rid tok) ∧
    x.LocalHolds (x.engines.decode.cpRank t c) lid tok ∧
    tok / x.blockSize % x.localCpSize = x.engines.decode.cpRank t c
  /-- no kernel block is written twice -/
  once : ∀ s q rid s' q' rid' lid, out.Copies s q rid lid → out.Copies s' q' rid' lid →
    s = s' ∧ q = q'

def kernels (x : CpPull) (i : Nat) : List Nat × List Nat :=
  ((range (x.num i * x.remoteScale)).map (x.localId i), (range (x.num i * x.remoteScale)).map (x.remoteId i))

variable {x : CpPull} {t c : Nat}

theorem Rounds.exists_kernel_shards (h : x.Rounds) (rand : Sampler)
    (ht : t < x.engines.decode.tpSize) (hc : c < x.engines.decode.pcpSize) :
    ∃ out ranks, x.splitAt rand t c = some out ∧ x.Shards t c x.kernels out ranks := by
  apply exists_shards rand ht hc
  · intro i hi hshard isFinalShard
    refine (shardGroup_eq hi (h.localKernelIds_eq hi hshard t c)).trans ?_
    simp [kernels]
  · intro _
    obtain ⟨n, hn⟩ := h.prefix_rounds
    rw [hn, mul_mod_right]

namespace Shards

variable {out : SplitMetadata} {ranks : List Nat} (hs : x.Shards t c x.kernels out ranks)

include hs

theorem copies_iff_ids {s q rid lid : Nat} : out.Copies s q rid lid ↔
    ∃ i, ranks[s]? = some i ∧ q < x.num i * x.remoteScale ∧ lid = x.localId i q ∧ rid = x.remoteId i q :=
  hs.copies_iff fun _ => rfl

theorem carries_iff {s q tok : Nat} : x.Carries out s q tok ↔
    ∃ i, ranks[s]? = some i ∧ q < x.num i * x.remoteScale ∧ x.tok i q = tok := by
  constructor
  · rintro ⟨rid, lid, ports, hcopies, hports, hne, hholds⟩
    obtain ⟨i, hi, hq, rfl, rfl⟩ := hs.copies_iff_ids.mp hcopies
    obtain ⟨port, hport⟩ := exists_mem_of_ne_nil ports hne
    have hremote := hholds port hport
    rw [hs.cpRankOf_eq hi hports hport] at hremote
    exact ⟨i, hi, hq, (remoteHolds_tok (hs.rank_of_get hi).1 hq).unique hremote⟩
  · rintro ⟨i, hi, hq, rfl⟩
    obtain ⟨ports, hports, hlen, -⟩ := hs.ports s i hi
    refine ⟨_, _, ports, hs.copies_iff_ids.mpr ⟨i, hi, hq, rfl, rfl⟩, hports, ?_, ?_⟩
    · exact ne_nil_of_length_pos (hlen ▸ x.engines_accepted.numPulls_pos)
    · exact hs.remoteHolds hi hq ports hports

theorem placed (h : x.Rounds) : x.Placed t c out where
  ports_length := by rw [hs.ports_length, hs.local_eq, length_map]
  aligned := by
    rw [hs.local_eq, hs.remote_eq, forall₂_map_left_iff, forall₂_map_right_iff]
    exact forall₂_same.mpr fun i _ => by simp [kernels]
  heads := by
    intro ports hports
    obtain ⟨s, hs'⟩ := mem_iff_getElem?.mp hports
    have hlt : s < ranks.length := hs.ports_length ▸ (List.getElem?_eq_some_iff.mp hs').1
    obtain ⟨ports', hports', hlen, hall⟩ := hs.ports s _ (getElem?_eq_getElem hlt)
    obtain rfl := Option.some.inj (hports'.symm.trans hs')
    exact x.engines_accepted.flatMap_heads hlen fun k port hk => (hall k port hk).2
  same_tokens := by
    intro s q rid lid hcopies
    obtain ⟨i, hi, hq, rfl, rfl⟩ := hs.copies_iff_ids.mp hcopies
    obtain ⟨hlt, hshard⟩ := hs.rank_of_get hi
    refine ⟨x.tok i q, h.uncached_tok hlt hq, ?_, h.localHolds_tok hlt hshard hq, h.owner_tok hshard⟩
    exact hs.remoteHolds hi hq
  once := by
    intro s q rid s' q' rid' lid hcopies hcopies'
    obtain ⟨i, hi, hq, rfl, rfl⟩ := hs.copies_iff_ids.mp hcopies
    obtain ⟨i', hi', hq', hlid, rfl⟩ := hs.copies_iff_ids.mp hcopies'
    obtain ⟨hlt, hshard⟩ := hs.rank_of_get hi
    obtain ⟨hlt', hshard'⟩ := hs.rank_of_get hi'
    have hholds := h.localHolds_tok hlt' hshard' hq'
    rw [← hlid] at hholds
    obtain ⟨rfl, rfl⟩ := tok_inj hlt hlt' ((h.localHolds_tok hlt hshard hq).unique hholds)
    exact ⟨eq_of_getElem?_eq hs.nodup hi hi', rfl⟩

end Shards

structure Slot where
  tpRank : Nat
  pcpRank : Nat
  shard : Nat
  entry : Nat

/-- Every kernel block that is not cached is copied once for each group of decoder ranks that share the
context, from the prefill ranks that hold it and to the kernel block that is for it. -/
theorem Rounds.every_block_placed (h : x.Rounds) (rand : Sampler) :
    (∀ t < x.engines.decode.tpSize, ∀ c < x.engines.decode.pcpSize,
      ∃ out, x.splitAt rand t c = some out ∧ x.Placed t c out) ∧
    ∀ b < x.engines.decode.tpSize / x.engines.decode.dcpSize, ∀ tok, x.Uncached tok →
      ∃! slot : Slot, slot.tpRank < x.engines.decode.tpSize ∧
        slot.tpRank / x.engines.decode.dcpSize = b ∧ slot.pcpRank < x.engines.decode.pcpSize ∧
        ∃ out, x.splitAt rand slot.tpRank slot.pcpRank = some out ∧ x.Carries out slot.shard slot.entry tok := by
  refine ⟨fun t ht c hc => ?_, fun b hb tok htok => ?_⟩
  · obtain ⟨out, ranks, hsplit, hs⟩ := h.exists_kernel_shards rand ht hc
    exact ⟨out, hsplit, hs.placed h⟩
  · obtain ⟨i, hi, q, hq, rfl⟩ := h.exists_entry htok
    -- The prefill rank of the entry determines the decoder rank in the group.
    have hℓ : i / x.rBlk % x.localCpSize < x.localCpSize := mod_lt _ localCpSize_pos
    obtain ⟨t, c, ht, rfl, hc, hrank⟩ := x.engines_accepted.decode.exists_cpRank hb hℓ
    obtain ⟨out, ranks, hsplit, hs⟩ := h.exists_kernel_shards rand ht hc
    obtain ⟨s, hget⟩ := mem_iff_getElem?.mp ((hs.mem i).mpr ⟨hi, hrank.symm⟩)
    refine ⟨⟨t, c, s, q⟩, ⟨ht, rfl, hc, out, hsplit, hs.carries_iff.mpr ⟨i, hget, hq, rfl⟩⟩, ?_⟩
    rintro ⟨t', c', s', q'⟩ ⟨ht', hgroup, hc', out', hsplit', hcarries⟩
    dsimp only at ht' hgroup hc' hsplit' hcarries
    have hrank' : x.engines.decode.cpRank t' c' = x.engines.decode.cpRank t c := by
      obtain ⟨out₂, ranks', hsplit₂, hs'⟩ := h.exists_kernel_shards rand ht' hc'
      obtain rfl := Option.some.inj (hsplit₂.symm.trans hsplit')
      obtain ⟨i', hget', -, heq⟩ := hs'.carries_iff.mp hcarries
      obtain ⟨rfl, -⟩ := tok_inj (hs'.rank_of_get hget').1 hi heq
      rw [hrank, (hs'.rank_of_get hget').2]
    obtain ⟨rfl, rfl⟩ := x.engines_accepted.decode.cpRank_inj hgroup hrank'
    obtain rfl := Option.some.inj (hsplit.symm.trans hsplit')
    obtain ⟨i', hget', -, heq⟩ := hs.carries_iff.mp hcarries
    obtain ⟨rfl, rfl⟩ := tok_inj (hs.rank_of_get hget').1 hi heq
    rw [eq_of_getElem?_eq hs.nodup hget' hget]

def fourRanks : CpPull :=
  { worker :=
      { tpSize := 2
        prefillTpSize := 2
        decodeTpSize := 2
        prefillPpSize := 1
        numKeyValueHeads := 1
        isDeepseekMla := true
        useSparse := false
        blockSize := 2
        pcpSize := 1
        dcpSize := 2
        tpRank := 0
        pcpRank := 0
        sideChannelPort := 100
        isHmaRequired := false
        groups := [⟨false, 2, 1, 1⟩] }
    request :=
      { remotePtpSize := some 2
        remotePcpSize := 2
        remoteDcpSize := 2
        remotePort := 200
        remoteBlockSize := 1
        numExternalTokens := 4
        numComputedTokens := 4
        numPromptBlocks := 8
        localBlockIds := [[7]]
        remoteBlockIds := [[5, 3]] }
    group := ⟨false, 2, 1, 1⟩
    localIds := [7]
    remoteIds := [5, 3]
    numPromptTokens := 8
    numPrefixTokens := 4
    groups_eq := rfl
    attention := rfl
    notHybrid := rfl
    local_eq := rfl
    remote_eq := rfl
    accepted := ⟨⟨by decide, by decide, by decide, by decide, by decide, by decide⟩,
      ⟨by decide, by decide, by decide, by decide, by decide, by decide⟩, by decide⟩
    fits := by decide
    cp := by decide
    sparse_pulls := by decide
    blockSize_pos := by decide
    scale_dvd := by decide
    kernel_dvd := by decide
    prefix_le := by decide
    external_eq := rfl
    promptBlocks_eq := by decide
    local_nodup := by decide
    remote_nodup := by decide
    local_length := by decide
    remote_length := by decide }

theorem every_block_placed_four_ranks :
    fourRanks.splitAt firstRanks 1 0 = some ⟨[[202], [203]], [[[14]], [[15]]], [[[3]], [[3]]]⟩ ∧
    fourRanks.Placed 1 0 ⟨[[202], [203]], [[[14]], [[15]]], [[[3]], [[3]]]⟩ ∧
    ∃! slot : Slot, slot.tpRank < 2 ∧ slot.tpRank / 2 = 0 ∧ slot.pcpRank < 1 ∧
      ∃ out, fourRanks.splitAt firstRanks slot.tpRank slot.pcpRank = some out ∧
        fourRanks.Carries out slot.shard slot.entry 5 := by
  obtain ⟨hplaced, hunique⟩ := Rounds.every_block_placed (x := fourRanks) ⟨by decide, by decide⟩ firstRanks
  have heq : fourRanks.splitAt firstRanks 1 0 =
      some ⟨[[202], [203]], [[[14]], [[15]]], [[[3]], [[3]]]⟩ := by decide
  obtain ⟨out, hout, hplaced⟩ := hplaced 1 (by decide) 0 (by decide)
  obtain rfl := Option.some.inj (hout.symm.trans heq)
  exact ⟨heq, hplaced, hunique 0 (by decide) 5 ⟨by decide, by decide, by decide⟩⟩

end CpPull

end VllmAscend.KvTransfer.Mooncake
