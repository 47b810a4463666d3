import VllmAscend.KvTransfer.Mooncake.CpLayout
import VllmAscend.KvTransfer.Mooncake.CpSplit

/-!
# The shards of a decoder rank

The shards of a decoder rank are the prefill ranks that hold its blocks. The shard with the last block of the prompt
is moved to the end, in all three lists at once.
-/

namespace VllmAscend.KvTransfer.Mooncake

open List Nat Bool Loop SplitWorker

/-! ## Moving one entry to the end -/

theorem moveLast_map {α β : Type*} (f : α → β) (i : Option Nat) (l : List α) :
    moveLast i (l.map f) = (moveLast i l).map (List.map f) := by
  cases i with
  | none => rfl
  | some i => simp [moveLast, eraseIdx_map, Function.comp_def]

theorem exists_moveLast {α : Type*} {i : Option Nat} {l : List α} (hi : ∀ k, i = some k → k < l.length) :
    ∃ l', moveLast i l = some l' ∧ l'.Perm l := by
  cases i with
  | none => exact ⟨l, rfl, .refl l⟩
  | some k =>
    have hk := hi k rfl
    refine ⟨l.eraseIdx k ++ [l[k]], by simp [moveLast, hk], ?_⟩
    have hcomm : (l.eraseIdx k ++ [l[k]]).Perm (l[k] :: l.eraseIdx k) := perm_append_comm
    exact hcomm.trans (getElem_cons_eraseIdx_perm hk)

def SplitMetadata.Copies (out : SplitMetadata) (s q rid lid : Nat) : Prop :=
  ∃ kernelLocal kernelRemote, out.localBlockIdsList[s]? = some [kernelLocal] ∧
    out.remoteBlockIdsList[s]? = some [kernelRemote] ∧ kernelLocal[q]? = some lid ∧
    kernelRemote[q]? = some rid

namespace SplitWorker

variable (w : SplitWorker)

def atRank (tpRank pcpRank : Nat) : SplitWorker := { w with tpRank := tpRank, pcpRank := pcpRank }

def rBlk (m : SplitMeta) : Nat :=
  if w.blockSize > w.remoteBlockSizeOf m then w.blockSize / w.remoteBlockSizeOf m else 1

end SplitWorker

structure CpPull where
  worker : SplitWorker
  request : SplitMeta
  group : SplitGroup
  localIds : List Nat
  remoteIds : List Nat
  numPromptTokens : Nat
  numPrefixTokens : Nat
  groups_eq : worker.groups = [group]
  attention : group.isMamba = false
  notHybrid : worker.isHmaRequired = false
  local_eq : request.localBlockIds = [localIds]
  remote_eq : request.remoteBlockIds = [remoteIds]
  accepted : (worker.engines request).Accepted
  fits : worker.blockSizesFit request = true
  cp : request.remotePcpSize * request.remoteDcpSize * worker.pcpSize * worker.dcpSize ≠ 1
  /-- the cache of a model with an indexer is one latent head, and is pulled from one rank -/
  sparse_pulls : worker.useSparse = true → worker.isDeepseekMla = true ∨
    numNeedPulls worker.numKeyValueHeads (worker.remoteTpSize request) worker.tpSize = 1
  blockSize_pos : 0 < worker.blockSize
  scale_dvd : group.blockSizeScale ∣ worker.blockSize
  kernel_dvd : worker.blockSize / group.blockSizeScale ∣ worker.remoteBlockSizeOf request
  prefix_le : numPrefixTokens ≤ numPromptTokens
  external_eq : request.numExternalTokens = numPromptTokens - numPrefixTokens
  promptBlocks_eq : request.numPromptBlocks = numPromptTokens ⌈/⌉ worker.remoteBlockSizeOf request
  local_nodup : localIds.Nodup
  remote_nodup : remoteIds.Nodup
  local_length : localIds.length =
    request.numExternalTokens ⌈/⌉ worker.blockSize ⌈/⌉ (worker.pcpSize * worker.dcpSize)
  remote_length : request.numPromptBlocks ⌈/⌉ (request.remotePcpSize * request.remoteDcpSize) ≤
    remoteIds.length

namespace CpPull

variable (x : CpPull)

def engines : CpEngines := x.worker.engines x.request

def blockSize : Nat := x.worker.blockSize

def remoteBlockSize : Nat := x.worker.remoteBlockSizeOf x.request

def kernelSize : Nat := x.worker.blockSize / x.group.blockSizeScale

def localCpSize : Nat := x.engines.decode.cpSize

def remoteCpSize : Nat := x.engines.prefill.cpSize

def rBlk : Nat := x.worker.rBlk x.request

def remoteScale : Nat := x.remoteBlockSize / x.kernelSize

def numPromptBlocks : Nat := x.request.numPromptBlocks

def numPrefixPBlocks : Nat := x.request.numPromptBlocks - x.request.numExternalTokens ⌈/⌉ x.remoteBlockSize

def paramsAt (ℓ : Nat) : CpParams :=
  { remoteBlockSize := x.remoteBlockSize
    localCpRank := ℓ
    localCpSize := x.localCpSize
    remoteCpSize := x.remoteCpSize
    rBlk := x.rBlk }

def share (i n : Nat) : Nat := RoundRobin.share 1 x.remoteCpSize i n

def num (i : Nat) : Nat := x.share i x.numPromptBlocks - x.share i x.numPrefixPBlocks

/-- The kernel blocks of the only group, for the shard on prefill rank `i`. -/
def groupAt (t c ℓ firstD i : Nat) (final : Bool) : Option (List Nat × List Nat) :=
  (x.worker.atRank t c).shardGroup (x.paramsAt ℓ) x.numPrefixPBlocks firstD (x.num i) i final x.group
    (x.remoteScale, x.kernelSize) x.localIds x.remoteIds

variable {x}

theorem engines_accepted (x : CpPull) : x.engines.Accepted := x.accepted

theorem remoteBlockSize_pos : 0 < x.remoteBlockSize := by
  unfold remoteBlockSize remoteBlockSizeOf
  split
  · exact x.blockSize_pos
  · exact pos_of_ne_zero ‹_›

theorem scale_pos : 0 < x.group.blockSizeScale := pos_of_dvd_of_pos x.scale_dvd x.blockSize_pos

theorem kernelSize_pos : 0 < x.kernelSize := Nat.div_pos (le_of_dvd x.blockSize_pos x.scale_dvd) scale_pos

theorem kernelSize_dvd : x.kernelSize ∣ x.blockSize := div_dvd_of_dvd x.scale_dvd

theorem scale_mul : x.group.blockSizeScale * x.kernelSize = x.blockSize := Nat.mul_div_cancel' x.scale_dvd

theorem kernelsPerDBlock_eq : x.blockSize / x.kernelSize = x.group.blockSizeScale :=
  Nat.div_eq_of_eq_mul_left kernelSize_pos scale_mul.symm

theorem remoteScale_mul : x.remoteScale * x.kernelSize = x.remoteBlockSize := Nat.div_mul_cancel x.kernel_dvd

theorem remoteScale_pos : 0 < x.remoteScale :=
  Nat.pos_of_mul_pos_right (remoteScale_mul (x := x) ▸ remoteBlockSize_pos)

theorem remoteCpSize_pos : 0 < x.remoteCpSize := Nat.mul_pos x.accepted.prefill.pcp_pos x.accepted.prefill.dcp_pos

theorem localCpSize_pos : 0 < x.localCpSize := Nat.mul_pos x.accepted.decode.pcp_pos x.accepted.decode.dcp_pos

theorem rBlk_pos : 0 < x.rBlk := by
  unfold rBlk SplitWorker.rBlk
  split
  · exact div_pos (by omega) remoteBlockSize_pos
  · exact one_pos

/-! ## The steps before the shards -/

variable {ℓ t c : Nat}

theorem getLocalRemoteCpParams_at (t c : Nat) : (x.worker.atRank t c).getLocalRemoteCpParams x.request =
      some (x.paramsAt (x.engines.decode.cpRank t c)) := by
  have hfits : (x.worker.atRank t c).blockSizesFit x.request = true := x.fits
  unfold getLocalRemoteCpParams
  rw [if_pos hfits]
  rw [add_comm, mul_comm (x.worker.atRank t c).dcpSize (x.worker.atRank t c).pcpSize]
  rfl

theorem groups_at : (x.worker.atRank t c).groups = [x.group] := x.groups_eq

theorem groupKernelParams_at (t c : Nat) : (x.worker.atRank t c).groups.mapM
      ((x.worker.atRank t c).groupKernelParams x.remoteBlockSize) = some [(x.remoteScale, x.kernelSize)] := by
  have hmod : x.remoteBlockSize % ((x.worker.atRank t c).blockSize / x.group.blockSizeScale) = 0 :=
    mod_eq_zero_of_dvd x.kernel_dvd
  rw [groups_at]
  simp only [mapM_cons, mapM_nil, groupKernelParams, x.attention, false_eq_true, if_false, if_pos hmod]
  rfl

theorem external_le : x.request.numExternalTokens ⌈/⌉ x.remoteBlockSize ≤ x.numPromptBlocks := by
  unfold numPromptBlocks
  rw [x.promptBlocks_eq, x.external_eq, ceilDiv_le_iff_le_mul remoteBlockSize_pos]
  exact (sub_le _ _).trans (le_smul_ceilDiv remoteBlockSize_pos)

theorem requestFits_at (t c ℓ : Nat) : (x.worker.atRank t c).requestFits x.request (x.paramsAt ℓ) = true := by
  unfold requestFits
  simp only [groups_at, findIdx?_cons, x.attention, x.local_eq]
  refine decide_eq_true ⟨?_, external_le⟩
  simp [x.local_length]
  rfl

theorem blockNums_eq : ((x.engines.shardRanks x.rBlk ℓ).mapM fun cpRank =>
      (remoteBlockNumsAll x.numPromptBlocks x.numPrefixPBlocks x.remoteCpSize)[cpRank]?) =
      some ((x.engines.shardRanks x.rBlk ℓ).map x.num) := by
  apply mapM_eq_map
  intro i hi
  have hlt : i < x.remoteCpSize := mem_range.mp (mem_of_mem_filter hi)
  simp only [remoteBlockNumsAll, getElem?_map, getElem?_range hlt, Option.map_some, num, share,
    RoundRobin.share_one, Nat.sub_sub]

theorem getTpNumNeedPulls_at : (x.worker.atRank t c).getTpNumNeedPulls
      (some ((x.worker.atRank t c).remoteTpSize x.request)) = x.engines.numPulls := by
  rw [x.engines_accepted.numPulls_eq]
  cases hmla : x.worker.isDeepseekMla with
  | true =>
    have hheads : x.engines.heads = 1 := if_pos (by simp [CpEngines.latent, engines, SplitWorker.engines, hmla])
    rw [hheads, numNeedPulls_one]
    simp [RankConfig.getTpNumNeedPulls, RankConfig.tpNumNeedPulls, atRank, hmla]
  | false =>
    have hpulls : (x.worker.atRank t c).getTpNumNeedPulls
        (some ((x.worker.atRank t c).remoteTpSize x.request)) =
          numNeedPulls x.worker.numKeyValueHeads x.engines.prefill.tpSize
            x.engines.decode.tpSize := by
      simp only [RankConfig.getTpNumNeedPulls, RankConfig.tpNumNeedPulls, atRank, hmla,
        Option.getD_some, false_eq_true, if_false]
      split
      · rename_i heq
        rw [← heq]
        rfl
      · rfl
    rw [hpulls]
    by_cases hsparse : x.worker.useSparse = true
    · have hheads : x.engines.heads = 1 := if_pos (by simp [CpEngines.latent, engines,
        SplitWorker.engines, hsparse])
      rw [hheads, numNeedPulls_one]
      exact (x.sparse_pulls hsparse).resolve_left (by simp [hmla])
    · have hheads : x.engines.heads = x.worker.numKeyValueHeads :=
        if_neg (by simp [CpEngines.latent, engines, SplitWorker.engines, hmla, hsparse])
      rw [hheads]

/-! ## Assembly -/

variable {mapping : List (List Nat)} {n : Nat}

theorem transpose_ports (h : ∀ l ∈ mapping, l.length = n) :
    ((range n).mapM fun idx => mapping.mapM fun l => l[idx]?) =
      some ((range n).map fun idx => mapping.map fun l => l.getD idx 0) := by
  apply mapM_eq_map
  intro idx hidx
  apply mapM_eq_map
  intro l hl
  have hlt : idx < l.length := by
    rw [h l hl]
    exact mem_range.mp hidx
  simp [hlt]

theorem moved_lists {i : Option Nat} {ranks ranks' : List Nat} {lists : List (List Nat)}
    {f : Nat → Nat → Nat → Nat} (hmove : moveLast i ranks = some ranks')
    (hlists : ∀ k l, lists[k]? = some l → ∃ ρ < n, l = ranks.map (f k ρ)) :
    ∃ lists', lists.mapM (moveLast i) = some lists' ∧ lists'.length = lists.length ∧
      ∀ k l, lists'[k]? = some l → ∃ ρ < n, l = ranks'.map (f k ρ) := by
  have hmoved : ∀ k l, lists[k]? = some l → ∃ ρ < n, moveLast i l = some (ranks'.map (f k ρ)) := by
    intro k l hl
    obtain ⟨ρ, hρ, rfl⟩ := hlists k l hl
    exact ⟨ρ, hρ, by rw [moveLast_map, hmove, Option.map_some]⟩
  refine ⟨lists.map fun l => (moveLast i l).getD [], ?_, by simp, fun k l' hl' => ?_⟩
  · apply mapM_eq_map
    intro l hl
    obtain ⟨k, hk, rfl⟩ := getElem_of_mem hl
    obtain ⟨ρ, -, heq⟩ := hmoved k _ (getElem?_eq_getElem hk)
    rw [heq, Option.getD_some]
  · rw [getElem?_map] at hl'
    obtain ⟨l, hl, rfl⟩ := Option.map_eq_some_iff.mp hl'
    obtain ⟨ρ, hρ, heq⟩ := hmoved k l hl
    exact ⟨ρ, hρ, by rw [heq, Option.getD_some]⟩

theorem shardGroups_at {firstD i : Nat} {final : Bool} {kernels : List Nat × List Nat}
    (h : x.groupAt t c ℓ firstD i final = some kernels) :
    (x.worker.atRank t c).shardGroups x.request (x.paramsAt ℓ) [(x.remoteScale, x.kernelSize)]
      x.numPrefixPBlocks firstD (x.num i) i final = some [kernels] := by
  unfold groupAt at h
  unfold shardGroups
  rw [groups_at, x.local_eq, x.remote_eq]
  simp [h]

variable (rand : Sampler)

theorem setHmaSharedPort_at (portList : List (List Nat)) :
    (x.worker.atRank t c).setHmaSharedPort rand x.request portList = some portList := by
  have hhma : (x.worker.atRank t c).isHmaRequired = false := x.notHybrid
  unfold setHmaSharedPort
  rw [hhma]
  simp

theorem rBlk_mul_dvd (hL : 1 < x.localCpSize) : x.rBlk * x.localCpSize ∣ x.remoteCpSize := by
  have hdvd : x.localCpSize ∣ x.remoteCpSize := CpEngines.Accepted.cpSize_dvd x.accepted
  rw [mul_comm]
  refine (dvd_div_iff_mul_dvd hdvd).mp ?_
  unfold rBlk SplitWorker.rBlk
  split
  · have hfits := x.fits
    have hmul : x.worker.dcpSize * x.worker.pcpSize = x.localCpSize := mul_comm _ _
    have hok := (of_decide_eq_true hfits (by omega)).2 (by rw [hmul]; exact hL)
    rw [hmul] at hok
    exact dvd_of_mod_eq_zero hok.2
  · exact one_dvd _

theorem shardRanks_ne_nil (hℓ : ℓ < x.localCpSize) : x.engines.shardRanks x.rBlk ℓ ≠ [] := by
  have hlt : x.rBlk * ℓ < x.remoteCpSize := by
    rcases lt_or_ge 1 x.localCpSize with hL | hL
    · have hle := le_of_dvd remoteCpSize_pos (rBlk_mul_dvd hL)
      exact lt_of_lt_of_le (mul_lt_mul_of_pos_left hℓ rBlk_pos) hle
    · obtain rfl : ℓ = 0 := by omega
      exact remoteCpSize_pos
  have hmem : x.rBlk * ℓ ∈ x.engines.shardRanks x.rBlk ℓ := by
    refine mem_filter.mpr ⟨mem_range.mpr hlt, decide_eq_true ?_⟩
    rw [Nat.mul_div_cancel_left ℓ rBlk_pos]
    exact mod_eq_of_lt hℓ
  exact ne_nil_of_mem hmem

variable {ranks : List Nat} {kernels : Nat → List Nat × List Nat}

theorem shards_mapM {firstD : Nat} (hn : n = ranks.length)
    (hkernels : ∀ i ∈ ranks, ∀ final, x.groupAt t c ℓ firstD i final = some (kernels i)) :
    ((range n).mapM fun idx => do
      let numBlocksToPull ← (ranks.map x.num)[idx]?
      let shardCpRank ← ranks[idx]?
      (x.worker.atRank t c).shardGroups x.request (x.paramsAt ℓ) [(x.remoteScale, x.kernelSize)]
        x.numPrefixPBlocks firstD numBlocksToPull shardCpRank (idx + 1 = n)) =
      some (ranks.map fun i => [kernels i]) := by
  have hvalues : ranks.map (fun i => [kernels i]) = (range n).map fun idx => [kernels (ranks.getD idx 0)] := by
    apply ext_getElem
    · simp [hn]
    · intro idx hidx _
      have hidx : idx < ranks.length := by simpa using hidx
      simp [hidx]
  rw [hvalues]
  apply mapM_eq_map
  intro idx hidx
  have hidx : idx < ranks.length := hn ▸ mem_range.mp hidx
  have hgroups := shardGroups_at (hkernels ranks[idx] (getElem_mem hidx) (idx + 1 = n))
  simp only [getElem?_map, getElem?_eq_getElem hidx, Option.map_some, Option.bind_eq_bind, Option.bind_some, hgroups]
  simp [hidx]

def shardsOf (ranks : List Nat) (mapping : List (List Nat)) (kernels : Nat → List Nat × List Nat) : SplitMetadata where
  remoteHandshakePortList := (range ranks.length).map fun idx => mapping.map fun l => l.getD idx 0
  localBlockIdsList := ranks.map fun i => [(kernels i).1]
  remoteBlockIdsList := ranks.map fun i => [(kernels i).2]

theorem collectShards_eq (hranks : ranks ≠ []) (hlen : mapping.length = x.engines.numPulls)
    (hmapping : ∀ l ∈ mapping, l.length = ranks.length)
    (hkernels : ∀ i ∈ ranks, ∀ final,
      x.groupAt t c ℓ ((x.paramsAt ℓ).firstD (x.numPrefixPBlocks / x.rBlk)) i final = some (kernels i)) :
    (x.worker.atRank t c).collectShards rand x.request (x.paramsAt ℓ) [(x.remoteScale, x.kernelSize)]
      x.numPrefixPBlocks ranks (ranks.map x.num) mapping = some (shardsOf ranks mapping kernels) := by
  obtain ⟨l₀, rest, hl₀⟩ : ∃ l rest, mapping = l :: rest := by
    apply exists_cons_of_length_pos
    rw [hlen]
    exact x.engines_accepted.numPulls_pos
  have hfirst : mapping.head? = some l₀ := by rw [hl₀, head?_cons]
  have hlen₀ : l₀.length = ranks.length := hmapping l₀ (by rw [hl₀]; exact mem_cons_self)
  have hshards := shards_mapM (n := ((range ranks.length).map fun idx =>
    mapping.map fun l => l.getD idx 0).length) (by simp) hkernels
  obtain ⟨n, hn⟩ : ∃ n, ranks.length = n + 1 := exists_eq_succ_of_ne_zero (mt length_eq_zero_iff.mp hranks)
  have hports : ((range ranks.length).map fun idx => mapping.map fun l => l.getD idx 0).head? =
      some (mapping.map fun l => l.getD 0 0) := by
    rw [hn, range_succ_eq_map]
    rfl
  have hhma : (x.worker.atRank t c).isHmaRequired = false := x.notHybrid
  have hpulls : (x.worker.atRank t c).getTpNumNeedPulls
      (some ((x.worker.atRank t c).remoteTpSize x.request)) =
        (mapping.map fun l => l.getD 0 0).length := by
    rw [getTpNumNeedPulls_at, length_map, hlen]
  unfold collectShards
  simp only [hfirst, Option.bind_eq_bind, Option.bind_some, hlen₀, transpose_ports hmapping, setHmaSharedPort_at]
  refine (bind_of_some hshards _).trans ?_
  simp only [Option.bind_some, hports, hhma, false_eq_true, if_false, if_pos hpulls, map_map]
  rfl

def finalBlockIdx (x : CpPull) (ℓ : Nat) : Option Nat :=
  (x.engines.shardRanks x.rBlk ℓ).findIdx? fun i =>
    i = (x.numPromptBlocks % x.remoteCpSize + x.remoteCpSize - 1) % x.remoteCpSize

theorem orderShards_eq {lists lists' : List (List Nat)}
    (hmove : moveLast (x.finalBlockIdx ℓ) (x.engines.shardRanks x.rBlk ℓ) = some ranks)
    (hlists : lists.mapM (moveLast (x.finalBlockIdx ℓ)) = some lists')
    (haligned : x.rBlk > 1 → x.numPrefixPBlocks % x.rBlk = 0) :
    (x.worker.atRank t c).orderShards rand x.request (x.paramsAt ℓ) [(x.remoteScale, x.kernelSize)]
      lists = (x.worker.atRank t c).collectShards rand x.request (x.paramsAt ℓ)
        [(x.remoteScale, x.kernelSize)] x.numPrefixPBlocks ranks (ranks.map x.num) lists' := by
  have hnums : moveLast (x.finalBlockIdx ℓ) ((x.engines.shardRanks x.rBlk ℓ).map x.num) = some (ranks.map x.num) := by
    rw [moveLast_map, hmove, Option.map_some]
  have hok : ¬ (x.rBlk > 1 ∧ x.numPrefixPBlocks % x.rBlk ≠ 0) := fun h => h.2 (haligned h.1)
  refine (bind_of_some blockNums_eq _).trans ?_
  refine (bind_of_some hmove _).trans ?_
  refine (bind_of_some hnums _).trans ?_
  refine (bind_of_some hlists _).trans ?_
  exact if_neg hok

def splitAt (x : CpPull) (rand : Sampler) (t c : Nat) : Option SplitMetadata :=
  (x.worker.atRank t c).getKvSplitMetadata rand x.request

/-- What a rank is given, by the prefill ranks in the order of the shards and the kernel blocks of
each of them. -/
structure Shards (x : CpPull) (t c : Nat) (kernels : Nat → List Nat × List Nat) (out : SplitMetadata)
    (ranks : List Nat) : Prop where
  nodup : ranks.Nodup
  mem : ∀ i, i ∈ ranks ↔ i < x.remoteCpSize ∧
    i / x.rBlk % x.localCpSize = x.engines.decode.cpRank t c
  local_eq : out.localBlockIdsList = ranks.map fun i => [(kernels i).1]
  remote_eq : out.remoteBlockIdsList = ranks.map fun i => [(kernels i).2]
  ports_length : out.remoteHandshakePortList.length = ranks.length
  ports : ∀ s i : Nat, ranks[s]? = some i → ∃ ports : List Nat,
    out.remoteHandshakePortList[s]? = some ports ∧ ports.length = x.engines.numPulls ∧
    ∀ k port, ports[k]? = some port → x.engines.prefill.cpRankOf port = i ∧
      headsOf x.engines.heads x.engines.prefill.tpSize (x.engines.prefill.tpRankOf port) =
        headGroup x.engines.heads x.engines.prefill.tpSize
          (t / x.engines.decode.span x.engines.heads * x.engines.numPulls + k)

theorem mem_shardRanks {i : Nat} : i ∈ x.engines.shardRanks x.rBlk ℓ ↔
    i < x.remoteCpSize ∧ i / x.rBlk % x.localCpSize = ℓ := by
  unfold CpEngines.shardRanks
  rw [mem_filter, mem_range, decide_eq_true_eq]
  rfl

theorem exists_shards (ht : t < x.engines.decode.tpSize) (hc : c < x.engines.decode.pcpSize)
    (hkernels : ∀ i < x.remoteCpSize, i / x.rBlk % x.localCpSize = x.engines.decode.cpRank t c → ∀ final,
      x.groupAt t c (x.engines.decode.cpRank t c) ((x.paramsAt (x.engines.decode.cpRank t c)).firstD
        (x.numPrefixPBlocks / x.rBlk)) i final = some (kernels i))
    (haligned : x.rBlk > 1 → x.numPrefixPBlocks % x.rBlk = 0) :
    ∃ out ranks, x.splitAt rand t c = some out ∧ x.Shards t c kernels out ranks := by
  obtain ⟨mappings, lists, hmappings, hget, hlen, hports⟩ := x.engines_accepted.mapping_at x.rBlk ht hc
  have hℓ : x.engines.decode.cpRank t c < x.localCpSize := x.engines_accepted.decode.cpRank_lt hc
  generalize hcpRank : x.engines.decode.cpRank t c = ℓ at *
  obtain ⟨ranks, hmove, hperm⟩ := exists_moveLast (i := x.finalBlockIdx ℓ)
    (l := x.engines.shardRanks x.rBlk ℓ) fun k hk => (findIdx?_eq_some_iff_getElem.mp hk).1
  obtain ⟨lists', hlists', hlen', hports'⟩ := moved_lists hmove hports
  have hlength : ∀ l ∈ lists', l.length = ranks.length := by
    intro l hl
    obtain ⟨k, hk, rfl⟩ := getElem_of_mem hl
    obtain ⟨ρ, -, heq⟩ := hports' k _ (getElem?_eq_getElem hk)
    rw [heq, length_map]
  have hranks : ranks ≠ [] := fun hnil => shardRanks_ne_nil hℓ (hnil ▸ hperm).nil_eq.symm
  have hcollect := collectShards_eq rand hranks (hlen'.trans hlen) hlength
    fun i hi => hkernels i (mem_shardRanks.mp (hperm.mem_iff.mp hi)).1
      (mem_shardRanks.mp (hperm.mem_iff.mp hi)).2
  refine ⟨shardsOf ranks lists' kernels, ranks, ?_,
    hperm.nodup_iff.mpr (nodup_range.filter _), fun i => hcpRank ▸ hperm.mem_iff.trans mem_shardRanks,
    rfl, rfl, by simp [shardsOf], fun s i hs => ?_⟩
  · have hcp : ¬ x.request.remotePcpSize * x.request.remoteDcpSize * (x.worker.atRank t c).pcpSize *
        (x.worker.atRank t c).dcpSize = 1 := x.cp
    have hparams := getLocalRemoteCpParams_at (x := x) t c
    rw [hcpRank] at hparams
    have hrequest := requestFits_at (x := x) t c ℓ
    rw [splitAt, getKvSplitMetadata, if_neg hcp, cpSplitMetadata, hparams]
    refine (bind_of_some (groupKernelParams_at t c) _).trans ?_
    refine (bind_of_some hmappings _).trans ?_
    refine (bind_of_some hget _).trans ?_
    refine (if_pos hrequest).trans ?_
    exact (orderShards_eq rand hmove hlists' haligned).trans hcollect
  · obtain ⟨hlt, rfl⟩ := List.getElem?_eq_some_iff.mp hs
    refine ⟨lists'.map fun l => l.getD s 0, by simp [shardsOf, hlt], ?_, ?_⟩
    · rw [length_map, hlen', hlen]
    · intro k port hport
      rw [getElem?_map] at hport
      obtain ⟨l, hl, rfl⟩ := Option.map_eq_some_iff.mp hport
      obtain ⟨ρ, hρ, rfl⟩ := hports' k l hl
      have hj : t / x.engines.decode.span x.engines.heads * x.engines.numPulls + k <
          min x.engines.heads x.engines.prefill.tpSize := by
        have hk : k < x.engines.numPulls := by
          rw [← hlen, ← hlen']
          exact (List.getElem?_eq_some_iff.mp hl).1
        have hle := x.engines_accepted.groups_le (x.engines_accepted.decode.headGroup_lt ht)
        omega
      have hdecode := x.engines_accepted.prefill.groupPort_decode hj hρ ranks[s]
      simpa [hlt] using hdecode

namespace Shards

variable {t c : Nat} {out : SplitMetadata} (hs : x.Shards t c kernels out ranks)

include hs

variable {s : Nat}

theorem copies_iff {n : Nat → Nat} {f g : Nat → Nat → Nat}
    (hk : ∀ i, kernels i = ((range (n i)).map (f i), (range (n i)).map (g i))) {q rid lid : Nat} :
    out.Copies s q rid lid ↔ ∃ i, ranks[s]? = some i ∧ q < n i ∧ lid = f i q ∧ rid = g i q := by
  unfold SplitMetadata.Copies
  rw [hs.local_eq, hs.remote_eq, getElem?_map, getElem?_map]
  constructor
  · rintro ⟨kernelLocal, kernelRemote, hl, hr, hlid, hrid⟩
    obtain ⟨i, hi, heq⟩ := Option.map_eq_some_iff.mp hl
    rw [hi] at hr
    obtain rfl := singleton_inj.mp heq
    obtain rfl := singleton_inj.mp (Option.some.inj hr)
    rw [hk] at hlid hrid
    obtain ⟨hq, rfl⟩ := List.getElem?_eq_some_iff.mp hlid
    obtain ⟨-, rfl⟩ := List.getElem?_eq_some_iff.mp hrid
    exact ⟨i, hi, by simpa using hq, by simp, by simp⟩
  · rintro ⟨i, hi, hq, rfl, rfl⟩
    exact ⟨_, _, by rw [hi]; rfl, by rw [hi]; rfl, by simp [hk, hq], by simp [hk, hq]⟩

theorem rank_of_get {i : Nat} (hi : ranks[s]? = some i) : i < x.remoteCpSize ∧
    i / x.rBlk % x.localCpSize = x.engines.decode.cpRank t c :=
  (hs.mem i).mp (mem_of_getElem? hi)

theorem cpRankOf_eq {i port : Nat} {ports : List Nat} (hi : ranks[s]? = some i)
    (hports : out.remoteHandshakePortList[s]? = some ports) (hport : port ∈ ports) :
    x.engines.prefill.cpRankOf port = i := by
  obtain ⟨ports', hports', -, hall⟩ := hs.ports s i hi
  obtain rfl := Option.some.inj (hports'.symm.trans hports)
  obtain ⟨k, hk⟩ := mem_iff_getElem?.mp hport
  exact (hall k port hk).1

end Shards

end CpPull

end VllmAscend.KvTransfer.Mooncake
