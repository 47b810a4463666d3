import VllmAscend.KvTransfer.AscendStore.LayerLoad
import VllmAscend.KvTransfer.AscendStore.Scheduler

/-!
# The chunks of a synchronous load

Both modes walk over the chunks of a request from the local prefix on. The bulk mode stops at the end
of the hit, the layerwise mode at the end of what is scheduled in the step.
-/

namespace VllmAscend.KvTransfer.AscendStore

open PoolScheduler List Nat

structure SyncLoad (db : ChunkedTokenDatabase) (cfg : SchedulerConfig) where
  reqId : String
  request : PoolRequest
  numComputedTokens : Nat
  hit : Nat
  loadSpec : LoadSpec
  numScheduledTokens : Nat
  blockIds : List Nat
  granularity : cfg.cacheTransferGranularity = db.chunkSize 0
  hit_dvd : cfg.cacheTransferGranularity ∣ hit
  accepted : newLoadSpec cfg request numComputedTokens hit = some loadSpec
  scheduled_pos : 0 < numScheduledTokens
  scheduled_le : loadSpec.kvpoolCachedTokens + numScheduledTokens ≤ request.numTokens
  /-- There are blocks for all tokens, and new ones for those after the hit. -/
  blocks : loadSpec.kvpoolCachedTokens + numScheduledTokens ≤ blockIds.length * db.chunkSize 0
  blocks_new : ∀ i j, i * db.chunkSize 0 < loadSpec.kvpoolCachedTokens → loadSpec.kvpoolCachedTokens ≤ j * db.chunkSize 0 →
    ∀ blockId, blockIds[i]? = some blockId → blockIds[j]? ≠ some blockId

namespace SyncLoad

variable {db : ChunkedTokenDatabase} {cfg : SchedulerConfig} (x : SyncLoad db cfg)

def tokenLen : Nat := x.loadSpec.kvpoolCachedTokens + x.numScheduledTokens

def reqMeta : Option StepReqMeta :=
  (fromRequestTracker cfg (freshTracker x.reqId x.tokenLen [x.blockIds] x.request.promptTokens)
    (some { x.loadSpec with canLoad := true }) (some cfg.forceSkipSave) x.request.blockHashes
    (some (cfg.lastChunkTokensNum x.request.promptTokens ≤ x.tokenLen))).2

end SyncLoad

section Pairs

variable (db : ChunkedTokenDatabase) (reqMeta : StepReqMeta) (loadSpec : LoadSpec)

def maskNum : Nat := loadSpec.vllmCachedTokens / db.getBlockSize 0 * db.getBlockSize 0

def loadTokenLen (cacheTransferGranularity : Nat) : Nat :=
  if loadSpec.kvpoolCachedTokens % cacheTransferGranularity ≠ 0 ∧
      loadSpec.kvpoolCachedTokens + 1 = reqMeta.tokenLenChunk then
    loadSpec.kvpoolCachedTokens + 1
  else loadSpec.kvpoolCachedTokens

def bulkPairs (cacheTransferGranularity : Nat) : Option (List (String × Nat)) :=
  (db.processTokensWithBlockIds (loadTokenLen reqMeta loadSpec cacheTransferGranularity) reqMeta.blockHashes
    (reqMeta.blockIdsByGroup.headD []) (maskNum db loadSpec)).map
    (List.map fun placed => (placed.1.key.chunkHash, placed.2))

/-- The hashes and blocks of the gets for one layer: the chunks of `retrieve_layer` with the blocks that
`prepare_value_layer` finds for them. -/
def layerPairs (numLayers : Nat) : Option (List (String × Nat)) :=
  (LayerWorker.loadChunks ⟨db, numLayers⟩ reqMeta.toReqMeta loadSpec).bind (mapM fun chunk =>
    (reqMeta.blockIdsByGroup.headD [])[chunk.startIdx / db.getBlockSize 0]?.map fun blockId => (chunk.key.chunkHash, blockId))

/-- A chunk with a hash that starts from `maskNum` on and reaches far enough into the first `tokenLen` tokens,
with its block. -/
def IsPair (blockHashes : List String) (blockIds : List Nat) (maskNum tokenLen : Nat) (pair : String × Nat) : Prop :=
  ∃ chunkId, db.chunkHash? blockHashes 0 chunkId = some pair.1 ∧ maskNum ≤ chunkId * db.chunkSize 0 ∧
    chunkId * db.chunkSize 0 + db.familyRatio 0 ≤ tokenLen ∧ blockIds[chunkId]? = some pair.2

variable {db} {reqMeta} {loadSpec}

theorem isPair_iff {hashes : List String} {ids : List Nat} {maskNum tokenLen : Nat} {pair : String × Nat} :
    IsPair db hashes ids maskNum tokenLen pair ↔ ∃ span ∈ db.chunkSpans tokenLen hashes maskNum 0, span.2.2 = pair.1 ∧
        ids[span.1 / db.getBlockSize 0]? = some pair.2 := by
  have hratio := db.familyRatio_pos 0
  have hblock := db.getBlockSize_pos 0
  have hle : db.familyRatio 0 ≤ db.chunkSize 0 := Nat.le_mul_of_pos_left _ hblock
  -- when the end of a chunk is behind its start
  have hend : ∀ chunkId, chunkId * db.getBlockSize 0 <
      min (chunkId * db.chunkSize 0 + db.chunkSize 0) tokenLen / db.familyRatio 0 ↔
      chunkId * db.chunkSize 0 + db.familyRatio 0 ≤ tokenLen := by
    intro chunkId
    have hstart : chunkId * db.getBlockSize 0 * db.familyRatio 0 = chunkId * db.chunkSize 0 := mul_assoc _ _ _
    rw [← succ_le_iff, le_div_iff_mul_le hratio, succ_mul]
    omega
  constructor
  · rintro ⟨chunkId, hhash, hmask, hlen, hid⟩
    refine ⟨⟨_, _, pair.1⟩, db.mem_chunkSpans.mpr ⟨chunkId, hhash, by omega, hmask, rfl, rfl, (hend chunkId).mpr hlen⟩, rfl, ?_⟩
    rw [Nat.mul_div_cancel _ hblock]
    exact hid
  · rintro ⟨span, hspan, hpair, hid⟩
    obtain ⟨chunkId, hhash, -, hmask, hstart, hstop, hlt⟩ := db.mem_chunkSpans.mp hspan
    rw [hstart, hstop] at hlt
    rw [hstart, Nat.mul_div_cancel _ hblock] at hid
    exact ⟨chunkId, hpair ▸ hhash, hmask, (hend chunkId).mp hlt, hid⟩

theorem mem_layerPairs {L : Nat}
    (hblocks : ∀ span ∈ db.chunkSpans reqMeta.tokenLenChunk reqMeta.blockHashes (maskNum db loadSpec) 0,
      span.1 / db.getBlockSize 0 < (reqMeta.blockIdsByGroup.headD []).length) :
    ∃ pairs, layerPairs db reqMeta loadSpec L = some pairs ∧ ∀ pair, pair ∈ pairs ↔
      IsPair db reqMeta.blockHashes (reqMeta.blockIdsByGroup.headD []) (maskNum db loadSpec) reqMeta.tokenLenChunk pair := by
  obtain ⟨groupMetadata, hmeta⟩ := db.exists_metadata
  unfold layerPairs
  rw [LayerWorker.loadChunks, db.processTokens_eq hmeta, Option.bind_some]
  generalize reqMeta.blockIdsByGroup.headD [] = blockIds at hblocks ⊢
  have hget : ∀ span ∈ db.chunkSpans reqMeta.tokenLenChunk reqMeta.blockHashes (maskNum db loadSpec) 0,
      blockIds[span.1 / db.getBlockSize 0]? = some (blockIds.getD (span.1 / db.getBlockSize 0) 0) :=
    fun span hspan => Ragged.getElem?_eq_getD (hblocks span hspan) 0
  refine ⟨_, Loop.mapM_eq_map (g := fun chunk : Chunk => (chunk.key.chunkHash,
    blockIds.getD (chunk.startIdx / db.getBlockSize 0) 0)) fun chunk hchunk => ?_, fun pair => ?_⟩
  · obtain ⟨span, hspan, rfl⟩ := mem_map.mp hchunk
    exact congrArg (Option.map _) (hget span hspan)
  · rw [isPair_iff, map_map, mem_map]
    refine exists_congr fun span => and_congr_right fun hspan => ?_
    rw [hget span hspan, Option.some_inj, Prod.ext_iff]
    rfl

theorem mem_bulkPairs {granularity : Nat}
    (hblocks : ∀ span ∈ db.chunkSpans (loadTokenLen reqMeta loadSpec granularity) reqMeta.blockHashes 0 0,
      span.1 / db.getBlockSize 0 < (reqMeta.blockIdsByGroup.headD []).length) :
    ∃ pairs, bulkPairs db reqMeta loadSpec granularity = some pairs ∧ ∀ pair, pair ∈ pairs ↔
      IsPair db reqMeta.blockHashes (reqMeta.blockIdsByGroup.headD []) (maskNum db loadSpec)
        (loadTokenLen reqMeta loadSpec granularity) pair := by
  obtain ⟨groupMetadata, hmeta⟩ := db.exists_metadata
  obtain ⟨placed, hplaced, hmem⟩ := db.mem_processTokensWithBlockIds hmeta hblocks (maskNum db loadSpec)
  unfold bulkPairs
  rw [hplaced]
  refine ⟨_, rfl, fun pair => ?_⟩
  rw [isPair_iff, mem_map]
  constructor
  · rintro ⟨x, hx, rfl⟩
    obtain ⟨span, hspan, hchunk, hid⟩ := (hmem x).mp hx
    exact ⟨span, hspan, by rw [hchunk]; rfl, hid⟩
  · rintro ⟨span, hspan, hhash, hid⟩
    refine ⟨⟨db.spanChunk groupMetadata 0 span, pair.2⟩, (hmem _).mpr ⟨span, hspan, rfl, hid⟩, ?_⟩
    exact Prod.ext hhash rfl

end Pairs

namespace SyncLoad

variable {db : ChunkedTokenDatabase} {cfg : SchedulerConfig} (x : SyncLoad db cfg)

def tokenLenChunk : Nat := numTokensToSave cfg x.tokenLen

def IsHitPair (pair : String × Nat) : Prop :=
  ∃ chunkId, db.chunkHash? x.request.blockHashes 0 chunkId = some pair.1 ∧
    maskNum db x.loadSpec ≤ chunkId * db.chunkSize 0 ∧ chunkId * db.chunkSize 0 < x.loadSpec.kvpoolCachedTokens ∧
    x.blockIds[chunkId]? = some pair.2

def LoadsHit (numLayers : Nat) : Prop :=
  ∃ reqMeta loadSpec bulk layer, x.reqMeta = some reqMeta ∧ reqMeta.loadSpec = some loadSpec ∧
    bulkPairs db reqMeta loadSpec cfg.cacheTransferGranularity = some bulk ∧
    layerPairs db reqMeta loadSpec numLayers = some layer ∧
    (∀ pair, pair ∈ bulk ↔ x.IsHitPair pair) ∧ ∀ pair, pair ∈ layer ↔ pair ∈ bulk

/-- The tokens of the step do not reach into a chunk with a hash after the hit. -/
def NoFurtherChunk : Prop :=
  ∀ chunkId, x.loadSpec.kvpoolCachedTokens ≤ chunkId * db.chunkSize 0 →
    chunkId * db.chunkSize 0 + db.familyRatio 0 ≤ x.tokenLenChunk → db.chunkHash? x.request.blockHashes 0 chunkId = none

theorem reqMeta_eq : ∃ reqMeta, x.reqMeta = some reqMeta ∧ reqMeta.tokenLenChunk = x.tokenLenChunk ∧
    reqMeta.blockHashes = x.request.blockHashes ∧ reqMeta.blockIdsByGroup = [x.blockIds] ∧
    reqMeta.loadSpec = some { x.loadSpec with canLoad := true } := by
  unfold reqMeta fromRequestTracker
  rw [if_neg (by simp)]
  exact ⟨_, rfl, rfl, rfl, rfl, rfl⟩

theorem tokenLenChunk_le : x.tokenLenChunk ≤ x.tokenLen := by
  unfold tokenLenChunk numTokensToSave
  split
  · exact div_mul_le_self _ _
  · exact le_refl _

theorem le_tokenLenChunk {n : Nat} (hdvd : db.chunkSize 0 ∣ n) (hle : n ≤ x.tokenLen) : n ≤ x.tokenLenChunk := by
  unfold tokenLenChunk numTokensToSave
  split
  · unfold SchedulerConfig.floorToGranularity
    rw [x.granularity]
    obtain ⟨k, rfl⟩ := hdvd
    rw [mul_comm]
    exact Nat.mul_le_mul_right _ ((Nat.le_div_iff_mul_le (db.chunkSize_pos 0)).mpr (Nat.mul_comm _ _ ▸ hle))
  · exact hle

theorem dvd_kvpoolCachedTokens : db.chunkSize 0 ∣ x.loadSpec.kvpoolCachedTokens ∨
    db.chunkSize 0 ∣ x.loadSpec.kvpoolCachedTokens + 1 ∧ x.tokenLen = x.loadSpec.kvpoolCachedTokens + 1 := by
  obtain ⟨hspec, -⟩ := newLoadSpec_eq_some x.accepted
  have hdvd := x.granularity ▸ x.hit_dvd
  have hkvpool : x.loadSpec.kvpoolCachedTokens = if x.hit = x.request.numTokens then x.hit - 1 else x.hit :=
    congrArg LoadSpec.kvpoolCachedTokens hspec
  have hpos := x.scheduled_pos
  have hle := x.scheduled_le
  unfold tokenLen
  split at hkvpool
  next hall =>
    have hsucc : x.loadSpec.kvpoolCachedTokens + 1 = x.hit := by omega
    exact .inr ⟨hsucc ▸ hdvd, by omega⟩
  next => exact .inl (hkvpool ▸ hdvd)

theorem loadTokenLen_ok {reqMeta : StepReqMeta} (hlen : reqMeta.tokenLenChunk = x.tokenLenChunk) :
    let tokenLen := loadTokenLen reqMeta { x.loadSpec with canLoad := true } cfg.cacheTransferGranularity
    tokenLen ≤ x.tokenLenChunk ∧ ∀ chunkId, chunkId * db.chunkSize 0 + db.familyRatio 0 ≤ tokenLen ↔
      chunkId * db.chunkSize 0 < x.loadSpec.kvpoolCachedTokens := by
  have hratio := db.familyRatio_pos 0
  have hle : db.familyRatio 0 ≤ db.chunkSize 0 := Nat.le_mul_of_pos_left _ (db.getBlockSize_pos 0)
  -- a chunk that starts before the end of another one ends with it at the latest
  have hchunk : ∀ n, db.chunkSize 0 ∣ n → ∀ chunkId,
      chunkId * db.chunkSize 0 + db.familyRatio 0 ≤ n ↔ chunkId * db.chunkSize 0 < n := by
    rintro _ ⟨k, rfl⟩ chunkId
    refine ⟨fun h => by omega, fun h => ?_⟩
    rw [mul_comm _ k] at h ⊢
    have hlt : chunkId + 1 ≤ k := Nat.lt_of_mul_lt_mul_right h
    have hmul := mul_le_mul_right (db.chunkSize 0) hlt
    rw [succ_mul] at hmul
    omega
  have hscheduled : x.tokenLen = x.loadSpec.kvpoolCachedTokens + x.numScheduledTokens := rfl
  unfold loadTokenLen
  dsimp only
  rw [x.granularity, hlen]
  by_cases hdvd : db.chunkSize 0 ∣ x.loadSpec.kvpoolCachedTokens
  · rw [if_neg fun h => h.1 (mod_eq_zero_of_dvd hdvd)]
    exact ⟨x.le_tokenLenChunk hdvd (by omega), hchunk _ hdvd⟩
  · obtain ⟨hsucc, hall⟩ := x.dvd_kvpoolCachedTokens.resolve_left hdvd
    have heq : x.loadSpec.kvpoolCachedTokens + 1 = x.tokenLenChunk :=
      le_antisymm (x.le_tokenLenChunk hsucc hall.ge) (hall ▸ x.tokenLenChunk_le)
    rw [if_pos ⟨fun h => hdvd (dvd_of_mod_eq_zero h), heq⟩]
    refine ⟨heq.le, fun chunkId => ?_⟩
    have hne : chunkId * db.chunkSize 0 ≠ x.loadSpec.kvpoolCachedTokens := fun h => hdvd (h ▸ dvd_mul_left _ _)
    rw [hchunk _ hsucc]
    omega

theorem lt_length_blockIds {chunkId : Nat} (h : chunkId * db.chunkSize 0 < x.tokenLen) : chunkId < x.blockIds.length :=
  Nat.lt_of_mul_lt_mul_right (h.trans_le x.blocks)

theorem block_lt {len mask : Nat} (hle : len ≤ x.tokenLenChunk) {span : Nat × Nat × String}
    (h : span ∈ db.chunkSpans len x.request.blockHashes mask 0) : span.1 / db.getBlockSize 0 < x.blockIds.length := by
  obtain ⟨chunkId, -, hstart, -, hspan, -⟩ := db.mem_chunkSpans.mp h
  rw [hspan, Nat.mul_div_cancel _ (db.getBlockSize_pos 0)]
  exact x.lt_length_blockIds (hstart.trans_le (hle.trans x.tokenLenChunk_le))

theorem exists_pairs (L : Nat) : ∃ reqMeta loadSpec bulk layer, x.reqMeta = some reqMeta ∧
    reqMeta.loadSpec = some loadSpec ∧ bulkPairs db reqMeta loadSpec cfg.cacheTransferGranularity = some bulk ∧
    layerPairs db reqMeta loadSpec L = some layer ∧ (∀ pair, pair ∈ bulk ↔ x.IsHitPair pair) ∧ ∀ pair, pair ∈ layer ↔
      IsPair db x.request.blockHashes x.blockIds (maskNum db x.loadSpec) x.tokenLenChunk pair := by
  obtain ⟨reqMeta, hmeta, hlen, hhashes, hblocks, hspec⟩ := x.reqMeta_eq
  obtain ⟨hle, hhit⟩ := x.loadTokenLen_ok hlen
  let loadSpec := { x.loadSpec with canLoad := true }
  have hids : reqMeta.blockIdsByGroup.headD [] = x.blockIds := by rw [hblocks]; rfl
  have hcovered : ∀ tokenLen ≤ x.tokenLenChunk, ∀ mask, ∀ span ∈ db.chunkSpans tokenLen reqMeta.blockHashes mask 0,
      span.1 / db.getBlockSize 0 < (reqMeta.blockIdsByGroup.headD []).length := by
    intro tokenLen htokenLen mask span hspan
    rw [hids]
    rw [hhashes] at hspan
    exact x.block_lt htokenLen hspan
  obtain ⟨bulk, hbulk, hmemBulk⟩ := @mem_bulkPairs db reqMeta loadSpec cfg.cacheTransferGranularity (hcovered _ hle 0)
  obtain ⟨layer, hlayer, hmemLayer⟩ := @mem_layerPairs db reqMeta loadSpec L (hcovered _ hlen.le _)
  rw [hhashes, hids] at hmemBulk hmemLayer
  rw [hlen] at hmemLayer
  refine ⟨reqMeta, loadSpec, bulk, layer, hmeta, hspec, hbulk, hlayer, fun pair => ?_, hmemLayer⟩
  rw [hmemBulk]
  refine exists_congr fun chunkId => and_congr_right fun _ => and_congr_right fun _ => and_congr_left fun _ => ?_
  exact hhit chunkId

theorem IsHitPair.isPair {x : SyncLoad db cfg} {pair : String × Nat} (h : x.IsHitPair pair) :
    IsPair db x.request.blockHashes x.blockIds (maskNum db x.loadSpec) x.tokenLenChunk pair := by
  obtain ⟨reqMeta, -, hlen, -⟩ := x.reqMeta_eq
  obtain ⟨hle, hhit⟩ := x.loadTokenLen_ok hlen
  obtain ⟨chunkId, hhash, hmask, hin, hid⟩ := h
  exact ⟨chunkId, hhash, hmask, ((hhit chunkId).mpr hin).trans hle, hid⟩

theorem loadsHit_iff (numLayers : Nat) : x.LoadsHit numLayers ↔ x.NoFurtherChunk := by
  obtain ⟨reqMeta, loadSpec, bulk, layer, hmeta, hspec, hbulk, hlayer, hmemBulk, hmemLayer⟩ := x.exists_pairs numLayers
  constructor
  · rintro ⟨_, _, _, _, hmeta', hspec', hbulk', hlayer', -, hsame⟩ chunkId hafter hin
    cases hmeta.symm.trans hmeta'
    cases hspec.symm.trans hspec'
    cases hbulk.symm.trans hbulk'
    cases hlayer.symm.trans hlayer'
    by_contra hhash
    obtain ⟨chunkHash, hhash⟩ := Option.ne_none_iff_exists'.mp hhash
    have hmask : maskNum db x.loadSpec ≤ chunkId * db.chunkSize 0 :=
      (div_mul_le_self _ _).trans ((newLoadSpec_eq_some x.accepted).2.le.trans hafter)
    have hstart : chunkId * db.chunkSize 0 < x.tokenLen := by
      have := db.familyRatio_pos 0
      have := x.tokenLenChunk_le
      omega
    have hid := getElem?_eq_getElem (x.lt_length_blockIds hstart)
    have hpair := (hmemLayer (chunkHash, _)).mpr ⟨chunkId, hhash, hmask, hin, hid⟩
    -- the block is not one of the hit
    obtain ⟨other, -, -, hbefore, hother⟩ := (hmemBulk _).mp ((hsame _).mp hpair)
    exact x.blocks_new other chunkId hbefore hafter _ hother hid
  · intro hnone
    refine ⟨reqMeta, loadSpec, bulk, layer, hmeta, hspec, hbulk, hlayer, hmemBulk, fun pair => ?_⟩
    rw [hmemBulk, hmemLayer]
    refine ⟨?_, IsHitPair.isPair⟩
    rintro ⟨chunkId, hhash, hmask, hin, hid⟩
    refine ⟨chunkId, hhash, hmask, Nat.lt_of_not_le fun hafter => ?_, hid⟩
    rw [hnone chunkId hafter hin] at hhash
    cases hhash

end SyncLoad

def oneOfThree : SyncLoad blocksOfTwo loadingConsumer where
  reqId := "r"
  request := ⟨6, 6, 2, ["h0", "h1", "h2"]⟩
  numComputedTokens := 0
  hit := 2
  loadSpec := ⟨0, 2, false⟩
  numScheduledTokens := 4
  blockIds := [1, 2, 3]
  granularity := rfl
  hit_dvd := Nat.dvd_refl 2
  accepted := rfl
  scheduled_pos := Nat.le_add_left 1 3
  scheduled_le := by decide
  blocks := by decide
  blocks_new i j hi hj blockId hblock hblock' := by
    have hinj := getElem?_inj (j := j) (List.getElem?_eq_some_iff.mp hblock).1 (by decide)
    obtain rfl := hinj.mp (hblock.trans hblock'.symm)
    exact absurd hi (Nat.not_lt.mpr hj)

/-- The layerwise mode also asks for the two chunks that are being computed. -/
theorem layerwise_loads_scheduled : ∃ reqMeta loadSpec, oneOfThree.reqMeta = some reqMeta ∧ reqMeta.loadSpec = some loadSpec ∧
    bulkPairs blocksOfTwo reqMeta loadSpec 2 = some [("h0", 1)] ∧
    layerPairs blocksOfTwo reqMeta loadSpec 1 = some [("h0", 1), ("h1", 2), ("h2", 3)] ∧ ¬ oneOfThree.LoadsHit 1 := by
  refine ⟨_, _, rfl, rfl, rfl, rfl, ?_⟩
  rintro ⟨_, _, _, _, hmeta, hspec, hbulk, hlayer, -, hsame⟩
  cases hmeta
  cases hspec
  cases hbulk
  cases hlayer
  have hmem := (hsame ("h1", 2)).mp (by decide)
  exact absurd hmem (by decide)

end VllmAscend.KvTransfer.AscendStore
