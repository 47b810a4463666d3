import VllmAscend.Lib.Pieces

/-!
# Keys of the shared pool

A request is cut into chunks of one block each, and a chunk is stored under a key made of the rank of the worker and
the hash of the chunk.
-/

namespace VllmAscend.KvTransfer.AscendStore

open List Option Nat

inductive CacheRole
  | kv
  | state
  deriving DecidableEq, Repr

def CacheRole.name : CacheRole → String
  | .kv => "kv"
  | .state => "state"

inductive CacheFamily
  | default
  | mixed
  | compressed (ratio : Nat)
  deriving DecidableEq, Repr

def CacheFamily.name : CacheFamily → String
  | .default => "default"
  | .mixed => "mixed"
  | .compressed ratio => s!"c{ratio}"

def inferCacheFamilyFromRatio (compressRatio : Option Nat) : CacheFamily :=
  match compressRatio with
  | none => .default
  | some ratio => if ratio ≤ 1 then .compressed 1 else .compressed ratio

def inferCacheFamilyRatio : CacheFamily → Nat
  | .default => 1
  | .mixed => 1
  | .compressed ratio => ratio

structure KeyMetadata where
  modelName : String
  headOrTpRank : Nat
  pcpRank : Nat
  dcpRank : Nat
  ppRank : Nat
  kvCacheGroupId : Nat := 0
  cacheRole : CacheRole := .kv
  cacheFamily : CacheFamily := .default
  deriving DecidableEq, Repr

structure PoolKey where
  keyMetadata : KeyMetadata
  chunkHash : String
  deriving DecidableEq, Repr

structure LayerPoolKey extends PoolKey where
  layerId : Nat
  deriving DecidableEq, Repr

def PoolKey.toString (key : PoolKey) : String :=
  let m := key.keyMetadata
  s!"{m.modelName}@pcp{m.pcpRank}@dcp{m.dcpRank}@head_or_tp_rank:{m.headOrTpRank}" ++
  s!"@pp_rank:{m.ppRank}@group:{m.kvCacheGroupId}@cache_role:{m.cacheRole.name}" ++
  s!"@cache_family:{m.cacheFamily.name}@{key.chunkHash}"

def LayerPoolKey.toString (key : LayerPoolKey) : String :=
  let m := key.keyMetadata
  s!"{m.modelName}@pcp{m.pcpRank}@dcp{m.dcpRank}@head_or_tp_rank:{m.headOrTpRank}" ++
  s!"@group:{m.kvCacheGroupId}@cache_role:{m.cacheRole.name}" ++
  s!"@cache_family:{m.cacheFamily.name}@layer_id:{key.layerId}@{key.chunkHash}"

def PoolKey.splitLayers (key : PoolKey) (numLayers : Nat) : List LayerPoolKey :=
  (range numLayers).map (LayerPoolKey.mk key)

def getBlockHashes (rehash : List String → String) (blockHashes : List String)
    (groupBlockSize hashBlockSize : Nat) : List String :=
  if groupBlockSize = hashBlockSize then blockHashes
  else
    let scaleFactor := groupBlockSize / hashBlockSize
    (pieces (blockHashes.length / scaleFactor) scaleFactor blockHashes).map rehash

/-- The keys of one worker. The sizes are checked when the worker starts; hashing groups of blocks
is SHA-256 in the source and any function here. -/
structure ChunkedTokenDatabase where
  metadata : List KeyMetadata
  blockSize : List Nat
  hashBlockSize : Nat
  groupCacheFamilies : List CacheFamily := []
  rehash : List String → String
  groups : metadata.length = blockSize.length
  groups_pos : 0 < blockSize.length
  hash_pos : 0 < hashBlockSize
  block_pos : ∀ size ∈ blockSize, 0 < size
  hash_dvd : ∀ size ∈ blockSize, hashBlockSize ∣ size

structure Chunk where
  startIdx : Nat
  endIdx : Nat
  key : PoolKey
  deriving DecidableEq, Repr

namespace ChunkedTokenDatabase

variable (db : ChunkedTokenDatabase)

def getBlockSize (kvCacheGroupId : Nat) : Nat := db.blockSize.getD kvCacheGroupId (db.blockSize.headD 0)

def cacheFamily (kvCacheGroupId : Nat) : CacheFamily := db.groupCacheFamilies.getD kvCacheGroupId .default

def groupKey (groupMetadata : KeyMetadata) (kvCacheGroupId : Nat) (chunkHash : String) : PoolKey where
  keyMetadata :=
    { groupMetadata with
      kvCacheGroupId := kvCacheGroupId
      cacheRole := .kv
      cacheFamily := db.cacheFamily kvCacheGroupId }
  chunkHash := chunkHash

def makeKeyByHash (chunkHash : String) (kvCacheGroupId : Nat) : Option PoolKey :=
  db.metadata[kvCacheGroupId]?.map fun groupMetadata => db.groupKey groupMetadata kvCacheGroupId chunkHash

def familyRatio (kvCacheGroupId : Nat) : Nat := max (inferCacheFamilyRatio (db.cacheFamily kvCacheGroupId)) 1

def chunkSize (kvCacheGroupId : Nat) : Nat := db.getBlockSize kvCacheGroupId * db.familyRatio kvCacheGroupId

def chunkSpans (tokenLen : Nat) (blockHashes : List String) (maskNum kvCacheGroupId : Nat) :
    List (Nat × Nat × String) :=
  let ratio := db.familyRatio kvCacheGroupId
  let groupBlockSize := db.chunkSize kvCacheGroupId
  let hashes := getBlockHashes db.rehash blockHashes groupBlockSize db.hashBlockSize
  let started := hashes.zipIdx.takeWhile fun chunk => decide (chunk.2 * groupBlockSize < tokenLen)
  started.filterMap fun (hashVal, chunkId) =>
    let startIdx := chunkId * groupBlockSize
    let endIdx := min (startIdx + groupBlockSize) tokenLen
    if startIdx < maskNum then none
    else
      let startIdx := startIdx / ratio
      let endIdx := endIdx / ratio
      if endIdx ≤ startIdx then none else some (startIdx, endIdx, hashVal)

def processTokens (tokenLen : Nat) (blockHashes : List String) (maskNum : Nat := 0)
    (kvCacheGroupId : Nat := 0) : Option (List Chunk) :=
  (db.chunkSpans tokenLen blockHashes maskNum kvCacheGroupId).mapM fun span =>
    (db.makeKeyByHash span.2.2 kvCacheGroupId).map fun key => ⟨span.1, span.2.1, key⟩

/-- The last loop of `process_tokens_with_block_ids`: the block of each chunk. -/
def placeChunks (groupBlockSize blockIdOffset : Nat) (blockIds : List Nat) (skipNullBlocks : Bool)
    (chunks : List Chunk) : List (Chunk × Nat) :=
  chunks.filterMap fun chunk =>
    let logical := chunk.startIdx / groupBlockSize
    if logical < blockIdOffset then none
    else
      match blockIds[logical - blockIdOffset]? with
      | none => none
      | some blockId => if skipNullBlocks && blockId == 0 then none else some (chunk, blockId)

/-- `process_tokens_with_block_ids`: a group can be given only its last blocks. -/
def processTokensWithBlockIds (tokenLen : Nat) (blockHashes : List String) (blockIds : List Nat)
    (maskNum : Nat := 0) (kvCacheGroupId : Nat := 0) (skipNullBlocks : Bool := false) :
    Option (List (Chunk × Nat)) := do
  let allChunks ← db.processTokens tokenLen blockHashes 0 kvCacheGroupId
  match allChunks.getLast? with
  | none => some []
  | some lastChunk =>
    let groupBlockSize := db.getBlockSize kvCacheGroupId
    let numLogicalBlocks := lastChunk.startIdx / groupBlockSize + 1
    let blockIdOffset := numLogicalBlocks - blockIds.length
    let chunks :=
      if maskNum = 0 then some allChunks
      else db.processTokens tokenLen blockHashes maskNum kvCacheGroupId
    chunks.map (placeChunks groupBlockSize blockIdOffset blockIds skipNullBlocks)

def spanChunk (groupMetadata : KeyMetadata) (kvCacheGroupId : Nat) (span : Nat × Nat × String) : Chunk :=
  ⟨span.1, span.2.1, db.groupKey groupMetadata kvCacheGroupId span.2.2⟩

section Placed

variable {kvCacheGroupId : Nat} {groupMetadata : KeyMetadata} (h : db.metadata[kvCacheGroupId]? = some groupMetadata)
  (tokenLen : Nat) (blockHashes : List String) (blockIds : List Nat) (maskNum : Nat) (skipNullBlocks : Bool)
include h

theorem processTokens_eq : db.processTokens tokenLen blockHashes maskNum kvCacheGroupId =
    some ((db.chunkSpans tokenLen blockHashes maskNum kvCacheGroupId).map
      (db.spanChunk groupMetadata kvCacheGroupId)) := by
  refine Loop.mapM_eq_map fun span _ => ?_
  unfold makeKeyByHash
  rw [h]
  rfl

theorem processTokensWithBlockIds_eq :
    db.processTokensWithBlockIds tokenLen blockHashes blockIds maskNum kvCacheGroupId skipNullBlocks =
      some (match (db.chunkSpans tokenLen blockHashes 0 kvCacheGroupId).getLast? with
        | none => []
        | some last => placeChunks (db.getBlockSize kvCacheGroupId)
            (last.1 / db.getBlockSize kvCacheGroupId + 1 - blockIds.length) blockIds skipNullBlocks
            ((db.chunkSpans tokenLen blockHashes maskNum kvCacheGroupId).map
              (db.spanChunk groupMetadata kvCacheGroupId))) := by
  have hchunks : (if maskNum = 0 then some ((db.chunkSpans tokenLen blockHashes 0 kvCacheGroupId).map
      (db.spanChunk groupMetadata kvCacheGroupId)) else db.processTokens tokenLen blockHashes maskNum kvCacheGroupId) =
      some ((db.chunkSpans tokenLen blockHashes maskNum kvCacheGroupId).map
        (db.spanChunk groupMetadata kvCacheGroupId)) := by
    by_cases hmask : maskNum = 0
    · rw [if_pos hmask, hmask]
    · rw [if_neg hmask, db.processTokens_eq h]
  unfold processTokensWithBlockIds
  rw [db.processTokens_eq h, bind_eq_bind, bind_some, getLast?_map]
  cases (db.chunkSpans tokenLen blockHashes 0 kvCacheGroupId).getLast? with
  | none => rfl
  | some last =>
    rw [hchunks]
    rfl

theorem processTokensWithBlockIds_subset : ∃ placed,
    db.processTokensWithBlockIds tokenLen blockHashes blockIds maskNum kvCacheGroupId skipNullBlocks = some placed ∧
      ∀ x ∈ placed, ∃ span ∈ db.chunkSpans tokenLen blockHashes maskNum kvCacheGroupId,
        x.1 = db.spanChunk groupMetadata kvCacheGroupId span := by
  refine ⟨_, db.processTokensWithBlockIds_eq h tokenLen blockHashes blockIds maskNum skipNullBlocks, fun x hx => ?_⟩
  split at hx
  · cases hx
  · obtain ⟨chunk, hchunk, hkept⟩ := mem_filterMap.mp hx
    obtain ⟨span, hspan, rfl⟩ := mem_map.mp hchunk
    exact ⟨span, hspan, by grind⟩

end Placed

/-! ## The chunks of a prompt -/

theorem familyRatio_pos (kvCacheGroupId : Nat) : 0 < db.familyRatio kvCacheGroupId :=
  lt_of_lt_of_le zero_lt_one (le_max_right _ 1)

theorem getBlockSize_mem (gid : Nat) : db.getBlockSize gid ∈ db.blockSize := by
  unfold getBlockSize
  rw [getD_eq_getElem?_getD]
  cases hsize : db.blockSize[gid]? with
  | some size => exact mem_of_getElem? hsize
  | none =>
    have hpos := db.groups_pos
    cases hsizes : db.blockSize with
    | nil => simp [hsizes] at hpos
    | cons size sizes => exact mem_cons_self

theorem getBlockSize_pos (kvCacheGroupId : Nat) : 0 < db.getBlockSize kvCacheGroupId :=
  db.block_pos _ (db.getBlockSize_mem kvCacheGroupId)

theorem chunkSize_pos (kvCacheGroupId : Nat) : 0 < db.chunkSize kvCacheGroupId :=
  mul_pos (db.getBlockSize_pos kvCacheGroupId) (db.familyRatio_pos kvCacheGroupId)

theorem mul_chunkSize_div (kvCacheGroupId chunkId : Nat) :
    chunkId * db.chunkSize kvCacheGroupId / db.familyRatio kvCacheGroupId =
      chunkId * db.getBlockSize kvCacheGroupId := by
  unfold chunkSize
  rw [← Nat.mul_assoc, Nat.mul_div_cancel _ (db.familyRatio_pos kvCacheGroupId)]

def chunkHash? (blockHashes : List String) (kvCacheGroupId chunkId : Nat) : Option String :=
  (getBlockHashes db.rehash blockHashes (db.chunkSize kvCacheGroupId) db.hashBlockSize)[chunkId]?

theorem hashBlockSize_dvd_chunkSize (kvCacheGroupId : Nat) : db.hashBlockSize ∣ db.chunkSize kvCacheGroupId :=
  (db.hash_dvd _ (db.getBlockSize_mem kvCacheGroupId)).mul_right _

theorem exists_chunkHash?_eq (gid numChunks : Nat) : ∃ blockHashes chunkHash, ∀ chunkId,
    db.chunkHash? blockHashes gid chunkId = if chunkId < numChunks then some chunkHash else none := by
  let scaleFactor := db.chunkSize gid / db.hashBlockSize
  have hscale : 0 < scaleFactor := div_pos (le_of_dvd (db.chunkSize_pos gid)
    (db.hashBlockSize_dvd_chunkSize gid)) db.hash_pos
  unfold chunkHash? getBlockHashes
  split
  next =>
    refine ⟨replicate numChunks "", "", fun chunkId => ?_⟩
    exact getElem?_replicate
  next =>
    let group := replicate scaleFactor ""
    have hlen : ∀ l ∈ replicate numChunks group, l.length = scaleFactor := fun l hl =>
      eq_of_mem_replicate hl ▸ length_replicate
    have hpieces := pieces_flatten hlen
    refine ⟨(replicate numChunks group).flatten, db.rehash group, fun chunkId => ?_⟩
    rw [length_replicate] at hpieces
    have hlength : (replicate numChunks group).flatten.length / scaleFactor = numChunks := by
      rw [flatten_replicate_replicate, length_replicate, Nat.mul_div_cancel _ hscale]
    change (map db.rehash (pieces (_ / scaleFactor) scaleFactor _))[chunkId]? = _
    rw [hlength, hpieces, map_replicate, getElem?_replicate]

variable {hashes : List String} {span : Nat × Nat × String} {maskNum len gid : Nat}

theorem mem_chunkSpans : span ∈ db.chunkSpans len hashes maskNum gid ↔
      ∃ chunkId, db.chunkHash? hashes gid chunkId = some span.2.2 ∧
        chunkId * db.chunkSize gid < len ∧ maskNum ≤ chunkId * db.chunkSize gid ∧
        span.1 = chunkId * db.getBlockSize gid ∧ span.2.1 = min (chunkId * db.chunkSize gid + db.chunkSize gid) len /
          db.familyRatio gid ∧ span.1 < span.2.1 := by
  obtain ⟨startIdx, endIdx, hashVal⟩ := span
  simp only [chunkSpans, mem_filterMap, chunkHash?]
  constructor
  · rintro ⟨⟨hash, chunkId⟩, hin, hkept⟩
    obtain ⟨hmem, hlt⟩ := (mem_takeWhile_iff (pairwise_zipIdx _) fun a b hab hb => decide_eq_true <|
      lt_of_le_of_lt (mul_le_mul_right _ (le_of_lt hab)) (of_decide_eq_true hb)).mp hin
    rw [db.mul_chunkSize_div] at hkept
    split at hkept
    · cases hkept
    next hmask =>
      split at hkept
      · cases hkept
      next hne =>
        cases hkept
        exact ⟨chunkId, mem_zipIdx_iff_getElem?.mp hmem, of_decide_eq_true hlt,
          Nat.le_of_not_lt hmask, rfl, rfl, Nat.lt_of_not_le hne⟩
  · rintro ⟨chunkId, hhash, hlt, hmask, rfl, rfl, hne⟩
    refine ⟨(hashVal, chunkId), ?_, ?_⟩
    · exact (mem_takeWhile_iff (pairwise_zipIdx _) fun a b hab hb => decide_eq_true <|
        lt_of_le_of_lt (mul_le_mul_right _ (le_of_lt hab)) (of_decide_eq_true hb)).mpr
        ⟨mem_zipIdx_iff_getElem?.mpr hhash, decide_eq_true hlt⟩
    · rw [db.mul_chunkSize_div, if_neg (not_lt.mpr hmask), if_neg (not_le.mpr hne)]

theorem pairwise_chunkSpans (len : Nat) (hashes : List String) (maskNum gid : Nat) :
    (db.chunkSpans len hashes maskNum gid).Pairwise fun a b => a.1 < b.1 := by
  have hblock := db.getBlockSize_pos gid
  refine List.Pairwise.filterMap (R := fun a b => a.2 < b.2) _ ?_ ?_
  · rintro ⟨hash, a⟩ ⟨hash', b⟩ hab x hx y hy
    dsimp only at hx hy
    rw [db.mul_chunkSize_div] at hx hy
    split at hx
    · cases hx
    split at hx
    · cases hx
    split at hy
    · cases hy
    split at hy
    · cases hy
    cases hx
    cases hy
    exact mul_lt_mul_of_pos_right hab hblock
  · exact (pairwise_zipIdx _).sublist (takeWhile_sublist _)

theorem chunkSpans_subset {kvCacheGroupId : Nat} (h : span ∈ db.chunkSpans len hashes maskNum kvCacheGroupId) :
    span ∈ db.chunkSpans len hashes 0 kvCacheGroupId := by
  obtain ⟨chunkId, hhash, hlt, -, hspan⟩ := db.mem_chunkSpans.mp h
  exact db.mem_chunkSpans.mpr ⟨chunkId, hhash, hlt, zero_le _, hspan⟩

theorem block_lt_of_mem_chunkSpans {tokenLen : Nat} (h : span ∈ db.chunkSpans tokenLen hashes maskNum gid) :
    span.1 / db.getBlockSize gid < tokenLen := by
  obtain ⟨chunkId, -, hlt, -, hstart, -, -⟩ := db.mem_chunkSpans.mp h
  rw [hstart, Nat.mul_div_cancel _ (db.getBlockSize_pos gid)]
  exact Nat.lt_of_le_of_lt (Nat.le_mul_of_pos_right chunkId (db.chunkSize_pos gid)) hlt

theorem mem_processTokensWithBlockIds {groupMetadata : KeyMetadata} (h : db.metadata[gid]? = some groupMetadata)
    {ids : List Nat} (hblocks : ∀ span ∈ db.chunkSpans len hashes 0 gid,
      span.1 / db.getBlockSize gid < ids.length) (maskNum : Nat) :
    ∃ placed, db.processTokensWithBlockIds len hashes ids maskNum gid = some placed ∧
      ∀ x, x ∈ placed ↔ ∃ span ∈ db.chunkSpans len hashes maskNum gid,
        x.1 = db.spanChunk groupMetadata gid span ∧ ids[span.1 / db.getBlockSize gid]? = some x.2 := by
  refine ⟨_, db.processTokensWithBlockIds_eq h len hashes ids maskNum false, fun x => ?_⟩
  split
  next hnone =>
    rw [getLast?_eq_none_iff] at hnone
    refine iff_of_false not_mem_nil ?_
    rintro ⟨span, hspan, -⟩
    exact absurd (db.chunkSpans_subset hspan) (hnone ▸ not_mem_nil)
  next last hlast =>
    rw [Nat.sub_eq_zero_of_le (hblocks last (mem_of_getLast? hlast))]
    unfold placeChunks
    rw [filterMap_map, mem_filterMap]
    refine exists_congr fun span => and_congr_right fun _ => ?_
    simp only [Function.comp_apply, not_lt_zero, if_false, Bool.false_and, Bool.false_eq_true, spanChunk]
    cases hid : ids[span.1 / db.getBlockSize gid]? with
    | none => simp
    | some blockId => simp [Prod.ext_iff, eq_comm]

theorem exists_metadata : ∃ groupMetadata, db.metadata[0]? = some groupMetadata := by
  have hpos : 0 < db.metadata.length := db.groups ▸ db.groups_pos
  exact ⟨_, getElem?_eq_getElem hpos⟩

end ChunkedTokenDatabase

def blocksOfTwo : ChunkedTokenDatabase where
  metadata := [⟨"m", 0, 0, 0, 0, 0, .kv, .default⟩]
  blockSize := [2]
  hashBlockSize := 2
  rehash := String.join
  groups := rfl
  groups_pos := by decide
  hash_pos := Nat.two_pos
  block_pos := by decide
  hash_dvd := by decide

structure LoadSpec where
  vllmCachedTokens : Nat
  kvpoolCachedTokens : Nat
  canLoad : Bool
  deriving DecidableEq, Repr

structure ReqMeta where
  reqId : String
  tokenLenChunk : Nat
  blockHashes : List String
  canSave : Option Bool := none
  loadSpec : Option LoadSpec := none
  deriving DecidableEq, Repr

structure LayerMultiBlockReqMeta where
  reqId : String
  keys : List LayerPoolKey
  starts : List Nat
  ends : List Nat
  layerId : Nat
  deriving DecidableEq, Repr

def layerReqMeta (reqId : String) (chunks : List Chunk) (numLayers layerId : Nat) :
    LayerMultiBlockReqMeta :=
  let keys := chunks.map fun chunk => chunk.key.splitLayers numLayers
  ⟨reqId, keys.filterMap (·[layerId]?), chunks.map (·.startIdx), chunks.map (·.endIdx), layerId⟩

end VllmAscend.KvTransfer.AscendStore
