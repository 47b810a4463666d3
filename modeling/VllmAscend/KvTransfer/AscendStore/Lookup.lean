import VllmAscend.Lib.Text
import VllmAscend.KvTransfer.AscendStore.TokenDatabase

/-!
# The lookup of the scheduler

The worker of rank zero answers for the whole deployment: it writes the keys of its own chunks,
puts the ranks of the other workers in their place and asks the store for all of them.
-/

namespace VllmAscend.KvTransfer.AscendStore

open List Function Nat

/-! ## The workers of a deployment -/

/-- What the keys depend on, for one group of attention layers. `parallel_config` gives positive
sizes and a DCP size that divides the TP size; the block sizes are checked when a worker starts. -/
structure PoolConfig where
  modelName : String
  tpSize : Nat
  ppSize : Nat
  pcpSize : Nat
  dcpSize : Nat
  totalNumKvHeads : Nat
  useMla : Bool
  useSparse : Bool
  originalBlockSize : Nat
  requestedHashBlockSize : Option Nat
  cacheFamily : CacheFamily
  maxModelLen : Nat
  rehash : List String → String
  tp_pos : 0 < tpSize
  pp_pos : 0 < ppSize
  pcp_pos : 0 < pcpSize
  dcp_pos : 0 < dcpSize
  dcp_dvd : dcpSize ∣ tpSize
  heads_pos : 0 < totalNumKvHeads
  heads : totalNumKvHeads ∣ tpSize ∨ tpSize ∣ totalNumKvHeads
  block_pos : 0 < originalBlockSize
  hash_pos : 0 < requestedHashBlockSize.getD originalBlockSize
  hash_dvd : requestedHashBlockSize.getD originalBlockSize ∣ originalBlockSize
  ratio_pos : 0 < inferCacheFamilyRatio cacheFamily

/-- The place of a worker: ranks are counted by pipeline stage, then by PCP rank, then by TP rank. -/
structure WorkerRank (cfg : PoolConfig) where
  tpRank : Fin cfg.tpSize
  pcpRank : Fin cfg.pcpSize
  ppStage : Fin cfg.ppSize

namespace PoolConfig

variable (cfg : PoolConfig)

def cpScale : Nat := cfg.pcpSize * cfg.dcpSize

def groupedBlockSize : Nat := cfg.originalBlockSize * cfg.cpScale

def hashBlockSize : Nat := cfg.requestedHashBlockSize.getD cfg.originalBlockSize * cfg.cpScale

def numKvHead : Nat := if cfg.useMla then 1 else cfg.totalNumKvHeads

def headOrTpRank (tpRank : Nat) : Nat :=
  if cfg.numKvHead < cfg.tpSize then
    let putStep := cfg.tpSize / cfg.numKvHead
    tpRank / putStep
  else tpRank

def cacheFamilyGranularity : Nat := cfg.groupedBlockSize * inferCacheFamilyRatio cfg.cacheFamily

def cacheTransferGranularity : Nat := cfg.groupedBlockSize.lcm cfg.cacheFamilyGranularity

def getGroupNumKvHeads : Nat := if cfg.useMla || cfg.useSparse then 1 else cfg.numKvHead

def getGroupTpSize : Nat := min cfg.tpSize cfg.getGroupNumKvHeads

def rankZero : WorkerRank cfg := ⟨⟨0, cfg.tp_pos⟩, ⟨0, cfg.pcp_pos⟩, ⟨0, cfg.pp_pos⟩⟩

end PoolConfig

namespace WorkerRank

variable {cfg : PoolConfig} (worker : WorkerRank cfg)

def rank : Nat := (worker.ppStage * cfg.pcpSize + worker.pcpRank) * cfg.tpSize + worker.tpRank

def ppRank : Nat := worker.rank / cfg.tpSize % cfg.ppSize

def dcpRank : Nat := worker.tpRank % cfg.dcpSize

def keyMetadata : KeyMetadata where
  modelName := cfg.modelName
  headOrTpRank := cfg.headOrTpRank worker.tpRank
  pcpRank := worker.pcpRank
  dcpRank := worker.dcpRank
  ppRank := worker.ppRank

def tokenDatabase : ChunkedTokenDatabase where
  metadata := [worker.keyMetadata]
  blockSize := [cfg.groupedBlockSize]
  hashBlockSize := cfg.hashBlockSize
  groupCacheFamilies := [cfg.cacheFamily]
  rehash := cfg.rehash
  groups := rfl
  groups_pos := Nat.zero_lt_one
  hash_pos := Nat.mul_pos cfg.hash_pos (Nat.mul_pos cfg.pcp_pos cfg.dcp_pos)
  block_pos := forall_mem_singleton.mpr
    (Nat.mul_pos cfg.block_pos (Nat.mul_pos cfg.pcp_pos cfg.dcp_pos))
  hash_dvd := forall_mem_singleton.mpr (Nat.mul_dvd_mul_right cfg.hash_dvd cfg.cpScale)

theorem metadata_zero : worker.tokenDatabase.metadata[0]? = some worker.keyMetadata := rfl

def loadKeys (tokenLen : Nat) (blockHashes : List String) (blockIds : List Nat)
    (vllmCachedTokens : Nat) : Option (List String) :=
  let maskNum := vllmCachedTokens / cfg.groupedBlockSize * cfg.groupedBlockSize
  (worker.tokenDatabase.processTokensWithBlockIds tokenLen blockHashes blockIds maskNum).map
    (List.map fun placed => placed.1.key.toString)

end WorkerRank

/-! ## The lookup -/

inductive RankField
  | headOrTpRank
  | ppRank
  deriving DecidableEq, Repr

def RankField.marker (field : RankField) (rank : Nat) : String :=
  match field with
  | .headOrTpRank => s!"@head_or_tp_rank:{rank}"
  | .ppRank => s!"@pp_rank:{rank}"

def RankField.variant (field : RankField) (rank : Nat) (item : String) : String :=
  Text.replaceOnce item (field.marker 0) (field.marker rank)

def RankField.expand (field : RankField) (size : Nat) (keys : List String) : List String :=
  keys ++ (range' 1 (size - 1)).flatMap fun i => keys.map (field.variant i)

def findAllContinuousHitPositions (arr : List (List Nat)) (ends : List Nat)
    (numBlocks maxHitPosition cacheTransferGranularity : Nat) : List Nat :=
  let reached := (range numBlocks).takeWhile fun i =>
    decide (ends.getD i 0 ≤ maxHitPosition) && arr.all fun row => row.getD i 0 == 1
  (reached.map fun i => ends.getD i 0).filter fun hit => hit % cacheTransferGranularity == 0

def maxIntersectionHitPosition (hits : List (List Nat)) : Nat :=
  match hits with
  | [] => 0
  | first :: rest => (first.filter fun hit => rest.all fun other => other.contains hit).max?.getD 0

def exists? (store : String → Bool) (keys : List String) : List Nat := keys.map fun key => if store key then 1 else 0

namespace PoolConfig

variable (cfg : PoolConfig)

def multiTpKeys (keys : List String) : List String :=
  RankField.ppRank.expand cfg.ppSize (RankField.headOrTpRank.expand cfg.getGroupTpSize keys)

def multiTpValues (store : String → Bool) (keys : List String) : List (List Nat) :=
  pieces (cfg.getGroupTpSize * cfg.ppSize) keys.length (exists? store (cfg.multiTpKeys keys))

/-- `lookup_scheduler` for one group and without layers; an exception is a miss. -/
def lookupScheduler (store : String → Bool) (tokenLen : Nat) (blockHashes : List String) : Nat :=
  match cfg.rankZero.tokenDatabase.processTokens tokenLen blockHashes with
  | none => 0
  | some chunks =>
    let keys := chunks.map fun chunk => chunk.key.toString
    let ends := chunks.map fun chunk => chunk.endIdx
    if keys.isEmpty then 0
    else
      let groupHits := findAllContinuousHitPositions (cfg.multiTpValues store keys) ends keys.length
        cfg.maxModelLen cfg.cacheTransferGranularity
      if groupHits.isEmpty then 0 else maxIntersectionHitPosition [groupHits]

def HitsLoadable : Prop :=
  ∀ (store : String → Bool) (tokenLen : Nat) (blockHashes : List String),
    0 < cfg.lookupScheduler store tokenLen blockHashes →
    ∀ (worker : WorkerRank cfg) (blockIds : List Nat) (vllmCachedTokens : Nat),
      ∃ keys, worker.loadKeys (cfg.lookupScheduler store tokenLen blockHashes) blockHashes blockIds
          vllmCachedTokens = some keys ∧ ∀ key ∈ keys, store key = true

end PoolConfig

/-! ## What a lookup has asked for -/

theorem mem_findAllContinuousHitPositions {arr : List (List Nat)} {ends : List Nat}
    {n maxHitPosition cacheTransferGranularity hit : Nat} :
    hit ∈ findAllContinuousHitPositions arr ends n maxHitPosition cacheTransferGranularity ↔
      cacheTransferGranularity ∣ hit ∧ ∃ i < n, ends.getD i 0 = hit ∧
        ∀ j ≤ i, ends.getD j 0 ≤ maxHitPosition ∧ ∀ row ∈ arr, row.getD j 0 = 1 := by
  simp only [findAllContinuousHitPositions, mem_filter, mem_map, mem_takeWhile_range,
    Bool.and_eq_true, decide_eq_true_eq, all_eq_true, beq_iff_eq, dvd_iff_mod_eq_zero]
  constructor
  · rintro ⟨⟨i, ⟨hi, hbefore⟩, rfl⟩, hdvd⟩
    exact ⟨hdvd, i, hi, rfl, hbefore⟩
  · rintro ⟨hdvd, i, hi, rfl, hbefore⟩
    exact ⟨⟨i, ⟨hi, hbefore⟩, rfl⟩, hdvd⟩

theorem maxIntersectionHitPosition_singleton (hits : List Nat) :
    maxIntersectionHitPosition [hits] = hits.max?.getD 0 := by
  simp [maxIntersectionHitPosition]

theorem RankField.variant_zero (field : RankField) (item : String) : field.variant 0 item = item := by
  rw [variant, Text.replaceOnce, Text.replaceFirst_self, String.ofList_toList]

theorem RankField.expand_eq (field : RankField) {size : Nat} (hsize : 0 < size) (keys : List String) :
    field.expand size keys = ((range size).map fun i => keys.map (field.variant i)).flatten := by
  obtain ⟨n, rfl⟩ := Nat.exists_eq_add_of_lt hsize
  have hzero : keys.map (field.variant 0) = keys := by
    rw [map_congr_left fun item _ => field.variant_zero item, map_id'']
    exact fun _ => rfl
  rw [expand, range_eq_range', range'_succ, map_cons, hzero]
  rfl

namespace PoolConfig

variable (cfg : PoolConfig)

theorem numKvHead_pos : 0 < cfg.numKvHead := by
  unfold numKvHead
  split
  · exact zero_lt_one
  · exact cfg.heads_pos

theorem getGroupTpSize_pos : 0 < cfg.getGroupTpSize := by
  refine Nat.lt_min.mpr ⟨cfg.tp_pos, ?_⟩
  unfold getGroupNumKvHeads
  split
  · exact zero_lt_one
  · exact cfg.numKvHead_pos

theorem multiTpKeys_eq (keys : List String) : cfg.multiTpKeys keys =
    ((range (cfg.ppSize * cfg.getGroupTpSize)).map fun row => keys.map fun item =>
      RankField.ppRank.variant (row / cfg.getGroupTpSize)
        (RankField.headOrTpRank.variant (row % cfg.getGroupTpSize) item)).flatten := by
  rw [multiTpKeys, RankField.expand_eq _ cfg.pp_pos, RankField.expand_eq _ cfg.getGroupTpSize_pos]
  rw [← flatMap_range_map cfg.ppSize cfg.getGroupTpSize fun j i => keys.map fun item =>
    RankField.ppRank.variant j (RankField.headOrTpRank.variant i item)]
  rw [flatMap_def, flatten_flatten, map_map]
  congr 1
  apply map_congr_left
  intro j _
  rw [map_flatten]
  simp only [map_map, comp_def]

theorem multiTpValues_eq (store : String → Bool) (keys : List String) : cfg.multiTpValues store keys =
    (range (cfg.ppSize * cfg.getGroupTpSize)).map fun row => keys.map fun item =>
      if store (RankField.ppRank.variant (row / cfg.getGroupTpSize)
        (RankField.headOrTpRank.variant (row % cfg.getGroupTpSize) item)) then 1 else 0 := by
  rw [multiTpValues, exists?, multiTpKeys_eq, map_flatten]
  have hlen : ∀ l ∈ (range (cfg.ppSize * cfg.getGroupTpSize)).map fun row => keys.map fun item =>
      if store (RankField.ppRank.variant (row / cfg.getGroupTpSize)
        (RankField.headOrTpRank.variant (row % cfg.getGroupTpSize) item)) then 1 else 0,
      l.length = keys.length := by
    refine forall_mem_map.mpr fun row _ => ?_
    exact length_map _
  have hrows := pieces_flatten hlen
  rw [length_map, length_range] at hrows
  rw [mul_comm cfg.getGroupTpSize, ← hrows]
  simp only [map_map, comp_def]

def zeroKey (chunkHash : String) : PoolKey := cfg.rankZero.tokenDatabase.groupKey cfg.rankZero.keyMetadata 0 chunkHash

def Found (store : String → Bool) (chunkHash : String) : Prop :=
  ∀ j < cfg.ppSize, ∀ i < cfg.getGroupTpSize, store (RankField.ppRank.variant j
    (RankField.headOrTpRank.variant i (cfg.zeroKey chunkHash).toString)) = true

theorem forall_mem_multiTpValues {store : String → Bool} {spans : List (Nat × Nat × String)} {i : Nat}
    (hi : i < spans.length) :
    (∀ row ∈ cfg.multiTpValues store (spans.map fun span => (cfg.zeroKey span.2.2).toString),
      row.getD i 0 = 1) ↔ cfg.Found store spans[i].2.2 := by
  have hbit (b : Bool) : (if b = true then 1 else 0) = 1 ↔ b = true := by cases b <;> simp
  rw [multiTpValues_eq]
  simp only [forall_mem_map, mem_range, map_map, getD_eq_getElem?_getD, getElem?_map, getElem?_eq_getElem hi,
    Option.map_some, Option.getD_some, comp_apply, hbit]
  constructor
  · intro h j hj k hk
    have hle : (j + 1) * cfg.getGroupTpSize ≤ cfg.ppSize * cfg.getGroupTpSize := mul_le_mul_right _ hj
    rw [add_mul] at hle
    have hrow := h (j * cfg.getGroupTpSize + k) (by omega)
    rwa [RoundRobin.mul_add_div_of_lt hk, mul_add_mod_of_lt hk] at hrow
  · intro h row hrow
    exact h _ (Nat.div_lt_of_lt_mul (Nat.mul_comm _ _ ▸ hrow)) _ (mod_lt _ cfg.getGroupTpSize_pos)

theorem lookupScheduler_eq (store : String → Bool) (len : Nat) (hashes : List String) :
    ∃ hits : List Nat, cfg.lookupScheduler store len hashes = hits.max?.getD 0 ∧
    ∀ hit, hit ∈ hits ↔ cfg.cacheTransferGranularity ∣ hit ∧
      ∃ span ∈ cfg.rankZero.tokenDatabase.chunkSpans len hashes 0 0, span.2.1 = hit ∧
        ∀ earlier ∈ cfg.rankZero.tokenDatabase.chunkSpans len hashes 0 0,
          earlier.1 ≤ span.1 → earlier.2.1 ≤ cfg.maxModelLen ∧ cfg.Found store earlier.2.2 := by
  let spans := cfg.rankZero.tokenDatabase.chunkSpans len hashes 0 0
  let keys := spans.map fun span => (cfg.zeroKey span.2.2).toString
  let ends := spans.map fun span => span.2.1
  have hsorted := pairwise_iff_getElem.mp (cfg.rankZero.tokenDatabase.pairwise_chunkSpans len hashes 0 0)
  have hend : ∀ (i : Nat) (hi : i < spans.length), ends.getD i 0 = spans[i].2.1 := by
    intro i hi
    simp [ends, getD_eq_getElem?_getD, hi]
  refine ⟨findAllContinuousHitPositions (cfg.multiTpValues store keys) ends keys.length cfg.maxModelLen
    cfg.cacheTransferGranularity, ?_, fun hit => ?_⟩
  · rw [lookupScheduler, cfg.rankZero.tokenDatabase.processTokens_eq cfg.rankZero.metadata_zero]
    dsimp only
    rw [map_map, map_map, maxIntersectionHitPosition_singleton]
    change (if keys.isEmpty then 0 else _) = _
    split
    next hempty =>
      rw [isEmpty_iff.mp hempty]
      rfl
    next =>
      split
      next hempty => exact (congrArg (fun hits => hits.max?.getD 0) (isEmpty_iff.mp hempty)).symm
      next => rfl
  rw [mem_findAllContinuousHitPositions]
  refine and_congr_right fun _ => ?_
  constructor
  · rintro ⟨i, hi, hhit, hbefore⟩
    have hi : i < spans.length := by simpa [keys] using hi
    refine ⟨spans[i], getElem_mem hi, (hend i hi).symm.trans hhit, ?_⟩
    intro earlier hearlier hle
    obtain ⟨j, hj, rfl⟩ := getElem_of_mem hearlier
    have hji : j ≤ i := by
      by_contra hlt
      exact absurd (hsorted i j hi hj (Nat.lt_of_not_le hlt)) (Nat.not_lt.mpr hle)
    obtain ⟨hmax, hrows⟩ := hbefore j hji
    exact ⟨hend j hj ▸ hmax, (cfg.forall_mem_multiTpValues hj).mp hrows⟩
  · rintro ⟨span, hspan, hhit, hbefore⟩
    obtain ⟨i, hi, rfl⟩ := getElem_of_mem hspan
    refine ⟨i, by simpa [keys] using hi, (hend i hi).trans hhit, fun j hji => ?_⟩
    have hj : j < spans.length := lt_of_le_of_lt hji hi
    have hle : spans[j].1 ≤ spans[i].1 := by
      rcases eq_or_lt_of_le hji with rfl | hlt
      · exact le_refl _
      · exact le_of_lt (hsorted j i hj hi hlt)
    obtain ⟨hmax, hfound⟩ := hbefore spans[j] (getElem_mem hj) hle
    exact ⟨(hend j hj).symm ▸ hmax, (cfg.forall_mem_multiTpValues hj).mpr hfound⟩

end PoolConfig

end VllmAscend.KvTransfer.AscendStore
