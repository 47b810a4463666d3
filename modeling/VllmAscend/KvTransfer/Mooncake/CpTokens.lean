import VllmAscend.KvTransfer.Mooncake.CpShards

/-!
# The tokens in the kernel blocks

Entry `q` of the shard of prefill rank `i` is kernel block `q % remoteScale` of the `q / remoteScale`th block that
the rank has to give.
-/

namespace VllmAscend.KvTransfer.Mooncake

open Nat RoundRobin

namespace CpPull

variable (x : CpPull)

/-- Kernel block `id` of a prefill worker with context parallel rank `i` holds the tokens from `tok`
on. -/
def RemoteHolds (i id tok : Nat) : Prop :=
  ∃ k b o, x.remoteIds[k]? = some b ∧ o < x.remoteScale ∧ id = b * x.remoteScale + o ∧
    tok = (k * x.remoteCpSize + i) * x.remoteBlockSize + o * x.kernelSize

/-- Kernel block `id` of a decoder worker with context parallel rank `ℓ` is for the tokens from `tok`
on. Its list starts after the cached prefix. -/
def LocalHolds (ℓ id tok : Nat) : Prop :=
  ∃ k b o, x.localIds[k]? = some b ∧ o < x.group.blockSizeScale ∧
    id = b * x.group.blockSizeScale + o ∧
    tok = x.numPrefixTokens + (k * x.localCpSize + ℓ) * x.blockSize + o * x.kernelSize

def Uncached (tok : Nat) : Prop :=
  x.kernelSize ∣ tok ∧ x.numPrefixTokens ≤ tok ∧ tok < x.numPromptBlocks * x.remoteBlockSize

def block (i q : Nat) : Nat := (x.share i x.numPrefixPBlocks + q / x.remoteScale) * x.remoteCpSize + i

def tok (i q : Nat) : Nat := x.block i q * x.remoteBlockSize + q % x.remoteScale * x.kernelSize

def remoteId (i q : Nat) : Nat :=
  x.remoteIds.getD (x.share i x.numPrefixPBlocks + q / x.remoteScale) 0 * x.remoteScale +
    q % x.remoteScale

variable {x}

theorem eq_of_digits {scale b b' o o' : Nat} (ho : o < scale) (ho' : o' < scale)
    (h : b * scale + o = b' * scale + o') : b = b' ∧ o = o' := by
  refine ⟨?_, ?_⟩
  · rw [← mul_add_div_of_lt (k := b) ho, h, mul_add_div_of_lt ho']
  · rw [← mul_add_mod_of_lt (a := b) ho, h, mul_add_mod_of_lt ho']

theorem eq_of_getElem?_eq {ids : List Nat} (hids : ids.Nodup) {k k' b : Nat} (h : ids[k]? = some b)
    (h' : ids[k']? = some b) : k = k' := by
  obtain ⟨hk, hb⟩ := List.getElem?_eq_some_iff.mp h
  obtain ⟨hk', hb'⟩ := List.getElem?_eq_some_iff.mp h'
  exact (hids.getElem_inj_iff).mp (hb.trans hb'.symm)

variable {i q : Nat}

theorem RemoteHolds.unique {id tok tok' : Nat} (h : x.RemoteHolds i id tok)
    (h' : x.RemoteHolds i id tok') : tok = tok' := by
  obtain ⟨k, b, o, hk, ho, rfl, rfl⟩ := h
  obtain ⟨k', b', o', hk', ho', hid, rfl⟩ := h'
  obtain ⟨rfl, rfl⟩ := eq_of_digits ho ho' hid
  rw [eq_of_getElem?_eq x.remote_nodup hk hk']

theorem LocalHolds.unique {ℓ id tok tok' : Nat} (h : x.LocalHolds ℓ id tok)
    (h' : x.LocalHolds ℓ id tok') : tok = tok' := by
  obtain ⟨k, b, o, hk, ho, rfl, rfl⟩ := h
  obtain ⟨k', b', o', hk', ho', hid, rfl⟩ := h'
  obtain ⟨rfl, rfl⟩ := eq_of_digits ho ho' hid
  rw [eq_of_getElem?_eq x.local_nodup hk hk']

/-! ## Blocks of a rank -/

theorem share_mono {m n : Nat} (hi : i < x.remoteCpSize) (h : m ≤ n) : x.share i m ≤ x.share i n := by
  by_contra hlt
  have hlt := (lt_share_one hi).mp (Nat.lt_of_not_le hlt)
  have hge := mt (lt_share_one (k := x.share i n) (n := n) hi).mpr (lt_irrefl _)
  omega

theorem prompt_le : x.numPromptTokens ≤ x.numPromptBlocks * x.remoteBlockSize := by
  unfold numPromptBlocks
  rw [x.promptBlocks_eq, mul_comm]
  exact le_smul_ceilDiv remoteBlockSize_pos

theorem prefix_le_prompt : x.numPrefixPBlocks ≤ x.numPromptBlocks := sub_le _ _

theorem prefixPBlocks_mul (h : x.remoteBlockSize ∣ x.numPrefixTokens) :
    x.numPrefixPBlocks * x.remoteBlockSize = x.numPrefixTokens := by
  obtain ⟨u, hu⟩ := h
  have hle := x.prefix_le
  have hceil : (x.numPromptTokens - x.numPrefixTokens) ⌈/⌉ x.remoteBlockSize =
      x.numPromptTokens ⌈/⌉ x.remoteBlockSize - u := by
    apply eq_of_forall_ge_iff
    intro c
    rw [ceilDiv_le_iff_le_mul remoteBlockSize_pos, Nat.sub_le_iff_le_add, Nat.sub_le_iff_le_add,
      ceilDiv_le_iff_le_mul remoteBlockSize_pos, mul_add, ← hu]
  have hblocks : u ≤ x.numPromptTokens ⌈/⌉ x.remoteBlockSize := by
    rw [hu] at hle
    exact le_of_mul_le_mul_left (hle.trans (le_smul_ceilDiv remoteBlockSize_pos)) remoteBlockSize_pos
  have hprompt : x.request.numPromptBlocks = x.numPromptTokens ⌈/⌉ x.remoteBlockSize := x.promptBlocks_eq
  rw [numPrefixPBlocks, x.external_eq, hceil, hprompt, Nat.sub_sub_self hblocks, hu, Nat.mul_comm]

variable (hi : i < x.remoteCpSize)

include hi

theorem block_bounds (hq : q < x.num i * x.remoteScale) :
    x.numPrefixPBlocks ≤ x.block i q ∧ x.block i q < x.numPromptBlocks := by
  have hj : q / x.remoteScale < x.num i := (div_lt_iff_lt_mul remoteScale_pos).mpr hq
  refine ⟨?_, (lt_share_one hi).mp (add_lt_of_lt_sub' hj)⟩
  by_contra hlt
  have hbefore := (lt_share_one hi).mpr (Nat.lt_of_not_le hlt)
  exact absurd hbefore (not_lt.mpr (le_add_right _ _))

theorem share_le_length : x.share i x.numPromptBlocks ≤ x.remoteIds.length := by
  refine le_trans ?_ x.remote_length
  by_contra hlt
  have hbefore := (lt_share_one hi).mp (Nat.lt_of_not_le hlt)
  have hceil := le_smul_ceilDiv (b := x.numPromptBlocks) (remoteCpSize_pos (x := x))
  rw [smul_eq_mul, mul_comm] at hceil
  exact absurd hbefore (not_lt.mpr (le_trans hceil (le_add_right _ _)))

theorem index_lt (hq : q < x.num i * x.remoteScale) :
    x.share i x.numPrefixPBlocks + q / x.remoteScale < x.remoteIds.length := by
  have hj : q / x.remoteScale < x.num i := (div_lt_iff_lt_mul remoteScale_pos).mpr hq
  exact lt_of_lt_of_le (add_lt_of_lt_sub' hj) (share_le_length hi)

omit hi in
theorem kernelSize_dvd_tok (i q : Nat) : x.kernelSize ∣ x.tok i q := by
  unfold tok
  rw [← remoteScale_mul, ← mul_assoc, ← add_mul]
  exact dvd_mul_left _ _

omit hi in
theorem tok_digits : x.tok i q / x.remoteBlockSize = x.block i q ∧
    x.tok i q % x.remoteBlockSize / x.kernelSize = q % x.remoteScale := by
  have hlt : q % x.remoteScale * x.kernelSize < x.remoteBlockSize := by
    rw [← remoteScale_mul]
    exact mul_lt_mul_of_pos_right (mod_lt q remoteScale_pos) kernelSize_pos
  unfold tok
  rw [mul_add_div_of_lt hlt, Nat.mul_add_mod_of_lt hlt, Nat.mul_div_cancel _ kernelSize_pos]
  exact ⟨rfl, rfl⟩

theorem tok_inj {i' q' : Nat} (hi' : i' < x.remoteCpSize) (h : x.tok i q = x.tok i' q') : i = i' ∧ q = q' := by
  have hblock : x.block i q = x.block i' q' := by rw [← (tok_digits (x := x)).1, h, (tok_digits (x := x)).1]
  have hoffset : q % x.remoteScale = q' % x.remoteScale := by
    rw [← (tok_digits (x := x) (i := i)).2, h, (tok_digits (x := x)).2]
  obtain ⟨hindex, rfl⟩ := eq_of_digits hi hi' hblock
  refine ⟨rfl, ?_⟩
  rw [← div_add_mod q x.remoteScale, ← div_add_mod q' x.remoteScale, hoffset, add_left_cancel hindex]

omit hi in
theorem exists_tok {t : Nat} (hk : x.kernelSize ∣ t) (hlo : x.numPrefixPBlocks ≤ t / x.remoteBlockSize)
    (hhi : t / x.remoteBlockSize < x.numPromptBlocks) :
    ∃ i < x.remoteCpSize, ∃ q < x.num i * x.remoteScale, x.tok i q = t := by
  obtain ⟨u, rfl⟩ := hk
  have ho : u % x.remoteScale < x.remoteScale := mod_lt u remoteScale_pos
  -- The block of the kernel block, its rank, and its index there.
  have hdiv : x.kernelSize * u / x.remoteBlockSize = u / x.remoteScale := by
    rw [← remoteScale_mul, Nat.mul_comm x.remoteScale, Nat.mul_div_mul_left _ _ kernelSize_pos]
  generalize hp : u / x.remoteScale = p at hlo hhi
  have hi : p % x.remoteCpSize < x.remoteCpSize := mod_lt p remoteCpSize_pos
  have hindex : p / x.remoteCpSize * x.remoteCpSize + p % x.remoteCpSize = p := div_add_mod' p _
  have hfirst : x.share (p % x.remoteCpSize) x.numPrefixPBlocks ≤ p / x.remoteCpSize := by
    by_contra hlt
    have hbefore := (lt_share_one hi).mp (Nat.lt_of_not_le hlt)
    omega
  have hlast : p / x.remoteCpSize < x.share (p % x.remoteCpSize) x.numPromptBlocks :=
    (lt_share_one hi).mpr (by omega)
  refine ⟨p % x.remoteCpSize, hi, (p / x.remoteCpSize -
    x.share (p % x.remoteCpSize) x.numPrefixPBlocks) * x.remoteScale + u % x.remoteScale, ?_, ?_⟩
  · rw [← div_lt_iff_lt_mul remoteScale_pos, mul_add_div_of_lt ho]
    exact Nat.sub_lt_sub_right hfirst hlast
  · unfold tok block
    rw [mul_add_div_of_lt ho, Nat.mul_add_mod_of_lt ho, Nat.add_sub_cancel' hfirst, hindex,
      ← hp, ← remoteScale_mul, ← mul_assoc, ← add_mul, div_add_mod', mul_comm]

theorem remoteHolds_tok (hq : q < x.num i * x.remoteScale) : x.RemoteHolds i (x.remoteId i q) (x.tok i q) := by
  have hlt := index_lt hi hq
  refine ⟨x.share i x.numPrefixPBlocks + q / x.remoteScale, _, q % x.remoteScale, ?_,
    mod_lt q remoteScale_pos, rfl, rfl⟩
  simp [hlt]

/-! ## The remote kernel blocks of a shard -/

theorem expandBlockIds_remote :
    expandBlockIds ((x.remoteIds.drop (x.share i x.numPrefixPBlocks)).take (x.num i)) x.remoteScale =
      (List.range (x.num i * x.remoteScale)).map (x.remoteId i) := by
  have hslice : (x.remoteIds.drop (x.share i x.numPrefixPBlocks)).take (x.num i) =
      (List.range (x.num i)).map fun j => x.remoteIds.getD (x.share i x.numPrefixPBlocks + j) 0 := by
    have hle : x.share i x.numPrefixPBlocks + x.num i ≤ x.remoteIds.length := by
      rw [num, Nat.add_sub_cancel' (share_mono hi prefix_le_prompt)]
      exact share_le_length hi
    apply List.ext_getElem
    · simp
      omega
    · intro j hj _
      have hlt : x.share i x.numPrefixPBlocks + j < x.remoteIds.length := by
        simp at hj
        omega
      simp [hlt]
  rw [expandBlockIds, hslice, List.flatMap_map, flatMap_range_map]
  rfl

omit hi in
theorem Shards.remoteHolds {t c s : Nat} {kernels : Nat → List Nat × List Nat} {out : SplitMetadata}
    {ranks : List Nat} (hs : x.Shards t c kernels out ranks) (hi : ranks[s]? = some i)
    (hq : q < x.num i * x.remoteScale) (ports : List Nat) (hports : out.remoteHandshakePortList[s]? = some ports) :
    ∀ port ∈ ports, x.RemoteHolds (x.engines.prefill.cpRankOf port) (x.remoteId i q) (x.tok i q) := by
  intro port hport
  rw [hs.cpRankOf_eq hi hports hport]
  exact remoteHolds_tok (hs.rank_of_get hi).1 hq

theorem shardGroup_eq {t c ℓ firstD : Nat} {final : Bool} {kernelLocal : List Nat}
    (hlocal : (x.worker.atRank t c).localKernelIdsForShard (x.share i x.numPrefixPBlocks) (x.num i) i
      x.numPrefixPBlocks firstD (x.paramsAt ℓ) x.kernelSize x.localIds = some kernelLocal) :
    x.groupAt t c ℓ firstD i final =
      some (kernelLocal.take (min (x.num i * x.remoteScale) kernelLocal.length),
        ((List.range (x.num i * x.remoteScale)).map (x.remoteId i)).take
          (min (x.num i * x.remoteScale) kernelLocal.length)) := by
  have hfirst : (x.numPrefixPBlocks + (x.paramsAt ℓ).remoteCpSize - 1 - i) /
      (x.paramsAt ℓ).remoteCpSize = x.share i x.numPrefixPBlocks := (share_one_eq_div hi).symm
  unfold groupAt SplitWorker.shardGroup
  rw [if_neg (by simp [x.attention])]
  dsimp only
  rw [hfirst, expandBlockIds_remote hi, List.length_map, List.length_range]
  exact Loop.bind_of_some hlocal _

end CpPull

end VllmAscend.KvTransfer.Mooncake
