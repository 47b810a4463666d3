import VllmAscend.KvTransfer.AscendStore.TokenDatabase
import VllmAscend.Lib.Dict

/-!
# Where a chunk lies in memory

Registration lists the tensors of a group, layer after layer. The bulk threads walk the whole list for
a chunk; the layerwise threads are to walk the part of one layer.
-/

namespace VllmAscend.KvTransfer.AscendStore

open List Option Nat Dict Loop

structure CacheTensor where
  dataPtr : Nat
  tensorNumBlocks : Nat
  numel : Nat
  stride : Nat
  elementSize : Nat
  deriving DecidableEq, Repr

namespace CacheTensor

variable (numBlocks : Nat) (cache : CacheTensor)

def blockSizeScale : Nat := cache.tensorNumBlocks / numBlocks

def blockLen : Nat := cache.numel * cache.elementSize * cache.blockSizeScale numBlocks

def blockStride : Nat := cache.stride * cache.elementSize * cache.blockSizeScale numBlocks

end CacheTensor

structure CacheBlockMetadata where
  blockLen : Nat
  blockStride : Nat
  regionLen : Nat
  blockSizeScale : Nat
  deriving DecidableEq, Repr

/-- `_get_cache_block_metadata`; `none` is a failed assertion or an index error. -/
def getCacheBlockMetadata (numBlocks : Nat) (cache : CacheTensor) : Option CacheBlockMetadata :=
  if numBlocks = 0 ∨ cache.tensorNumBlocks % numBlocks ≠ 0 ∨ cache.tensorNumBlocks = 0 then none
  else some
    { blockLen := cache.blockLen numBlocks
      blockStride := cache.blockStride numBlocks
      regionLen := (numBlocks - 1) * cache.blockStride numBlocks + cache.blockLen numBlocks
      blockSizeScale := cache.blockSizeScale numBlocks }

structure GroupBuffers where
  groupKvCachesBaseAddr : Dict Nat (List Nat) := ∅
  groupBlockLen : Dict Nat (List Nat) := ∅
  groupBlockStride : Dict Nat (List Nat) := ∅
  groupNumLayers : Dict Nat Nat := ∅

def inferCacheGroupMetadata (numBlocks : Nat) (kvCaches : Dict String (List CacheTensor)) (buffers : GroupBuffers)
    (group : Nat × List String) : Option GroupBuffers :=
  (group.2.mapM kvCaches.get?).bind fun layers =>
    (layers.flatten.mapM (getCacheBlockMetadata numBlocks)).map fun metadata =>
      { groupKvCachesBaseAddr := buffers.groupKvCachesBaseAddr.set group.1 (layers.flatten.map (·.dataPtr))
        groupBlockLen := buffers.groupBlockLen.set group.1 (metadata.map (·.blockLen))
        groupBlockStride := buffers.groupBlockStride.set group.1 (metadata.map (·.blockStride))
        groupNumLayers := buffers.groupNumLayers.set group.1 group.2.length }

def registeredNumBlocks (configured : Option Nat) (kvCaches : Dict String (List CacheTensor)) : Option Nat :=
  kvCaches.values.head?.bind fun layer => layer.head?.map fun first => configured.getD first.tensorNumBlocks

/-- The tables of `register_kv_caches`. A hybrid model gives the layers of each group. -/
def registerKvCaches (configured : Option Nat) (hybridGroups : Option (List (List String)))
    (kvCaches : Dict String (List CacheTensor)) : Option GroupBuffers :=
  (registeredNumBlocks configured kvCaches).bind fun numBlocks =>
    let groups := (hybridGroups.getD [kvCaches.keys]).zipIdx.map Prod.swap
    groups.foldlM (inferCacheGroupMetadata numBlocks kvCaches) {}

def GroupBuffers.getGroupBuffers (buffers : GroupBuffers) (kvCacheGroupId : Nat) :
    CacheRole → Option (List Nat × List Nat × Option (List Nat))
  | .state => some ([], [], some [])
  | .kv =>
    (buffers.groupKvCachesBaseAddr.get? kvCacheGroupId).bind fun addrs =>
      (buffers.groupBlockLen.get? kvCacheGroupId).map fun lens =>
        (addrs, lens, buffers.groupBlockStride.get? kvCacheGroupId)

def strideAt (groupBlockStride : Option (List Nat)) (blockLen i : Nat) : Option Nat :=
  if groupBlockStride.getD [] = [] then some blockLen else (groupBlockStride.getD [])[i]?

def chunkBytes (blockLen groupBlockSize start stop : Nat) : Nat := blockLen * (stop - start) / groupBlockSize

structure Placement where
  addrList : List Nat
  sizeList : List Nat
  blockId : Nat
  deriving DecidableEq, Repr

def Placement.ofEntries (entries : List (Nat × Nat)) (blockId : Nat) : Placement :=
  ⟨entries.map Prod.fst, entries.map Prod.snd, blockId⟩

def placeTensor (groupBlockLen : List Nat) (groupBlockStride : Option (List Nat))
    (groupBlockSize start stop blockId i baseAddr : Nat) : Option (Nat × Nat) :=
  groupBlockLen[i]?.bind fun blockLen =>
    (strideAt groupBlockStride blockLen i).map fun blockStride =>
      (baseAddr + blockId * blockStride, chunkBytes blockLen groupBlockSize start stop)

namespace ChunkedTokenDatabase

variable (db : ChunkedTokenDatabase) (buffers : GroupBuffers)

def prepareValue (start stop : Nat) (blockIds : List Nat) (kvCacheGroupId : Nat := 0) (cacheRole : CacheRole := .kv)
    (givenBlockId : Option Nat := none) : Option Placement := do
  let groupBlockSize := db.getBlockSize kvCacheGroupId
  let blockId ← givenBlockId.or blockIds[start / groupBlockSize]?
  let (groupAddrs, groupBlockLen, groupBlockStride) ← buffers.getGroupBuffers kvCacheGroupId cacheRole
  let length := groupBlockLen.length
  if length = 0 then return .ofEntries [] blockId
  else
    let entries ← groupAddrs.zipIdx.mapM fun (baseAddr, index) =>
      placeTensor groupBlockLen groupBlockStride groupBlockSize start stop blockId (index % length) baseAddr
    return .ofEntries entries blockId

def prepareValueLayer (start stop : Nat) (blockIds : List Nat) (layerId : Nat) : Option Placement := do
  let groupBlockSize := db.getBlockSize 0
  let blockId ← blockIds[start / groupBlockSize]?
  let (groupAddrs, groupBlockLen, groupBlockStride) ← buffers.getGroupBuffers 0 .kv
  let length := groupBlockLen.length
  let entries ← (range length).mapM fun i =>
    groupAddrs[layerId * length]?.bind fun baseAddr =>
      placeTensor groupBlockLen groupBlockStride groupBlockSize start stop blockId i baseAddr
  return .ofEntries entries blockId

end ChunkedTokenDatabase

def Placement.slice (p : Placement) (first count : Nat) : Placement :=
  ⟨(p.addrList.drop first).take count, (p.sizeList.drop first).take count, p.blockId⟩

/-! ## The tables after registration -/

theorem getCacheBlockMetadata_eq_some {numBlocks : Nat} {cache : CacheTensor} {metadata : CacheBlockMetadata}
    (h : getCacheBlockMetadata numBlocks cache = some metadata) :
    metadata.blockLen = cache.blockLen numBlocks ∧ metadata.blockStride = cache.blockStride numBlocks := by
  obtain ⟨_, ⟨⟩⟩ := ite_none_left_eq_some.mp h
  exact ⟨rfl, rfl⟩

theorem map_getCacheBlockMetadata {n : Nat} {caches : List CacheTensor} {metadata : List CacheBlockMetadata}
    (h : caches.mapM (getCacheBlockMetadata n) = some metadata) :
    metadata.map (·.blockLen) = caches.map (·.blockLen n) ∧
      metadata.map (·.blockStride) = caches.map (·.blockStride n) := by
  rw [mapM_eq_some_iff] at h
  induction caches generalizing metadata with
  | nil =>
    cases metadata with
    | nil => exact ⟨rfl, rfl⟩
    | cons _ _ => cases h
  | cons cache caches ih =>
    cases metadata with
    | nil => cases h
    | cons m metadata =>
      rw [map_cons, map_cons, cons.injEq] at h
      obtain ⟨hlen, hstride⟩ := getCacheBlockMetadata_eq_some h.1
      obtain ⟨hlens, hstrides⟩ := ih h.2
      simp [hlen, hstride, hlens, hstrides]

theorem getGroupBuffers_of_registerKvCaches {conf : Option Nat} {caches : Dict String (List CacheTensor)}
    {buffers : GroupBuffers} {n : Nat} (hnum : registeredNumBlocks conf caches = some n)
    (h : registerKvCaches conf none caches = some buffers) : buffers.getGroupBuffers 0 .kv = some
      (caches.values.flatten.map (·.dataPtr), caches.values.flatten.map (·.blockLen n),
        some (caches.values.flatten.map (·.blockStride n))) := by
  have hlayers : caches.keys.mapM caches.get? = some caches.values := mapM_eq_some_iff.mpr caches.map_get?_keys
  unfold registerKvCaches at h
  rw [hnum] at h
  have hone : inferCacheGroupMetadata n caches {} (0, caches.keys) = some buffers := by simpa using h
  unfold inferCacheGroupMetadata at hone
  rw [hlayers] at hone
  obtain ⟨metadata, hmetadata, rfl⟩ := map_eq_some_iff.mp hone
  obtain ⟨hlens, hstrides⟩ := map_getCacheBlockMetadata hmetadata
  simp [GroupBuffers.getGroupBuffers, get?_set, hlens, hstrides]

namespace ChunkedTokenDatabase

/-- Layer after layer the layerwise lists are those of the bulk mode, and the tensors of a layer are
apart. -/
def SameMemory (db : ChunkedTokenDatabase) (buffers : GroupBuffers) (numLayers cachesPerLayer start stop : Nat)
    (blockIds : List Nat) : Prop :=
  ∃ bulk layers, db.prepareValue buffers start stop blockIds = some bulk ∧
    (range numLayers).mapM (db.prepareValueLayer buffers start stop blockIds) = some layers ∧
    (∀ l < numLayers, layers[l]? = some (bulk.slice (l * cachesPerLayer) cachesPerLayer)) ∧
    layers.flatMap (·.addrList) = bulk.addrList ∧ layers.flatMap (·.sizeList) = bulk.sizeList ∧
    ∀ layer ∈ layers, layer.addrList.Nodup

section Listed

variable {db : ChunkedTokenDatabase} {buffers : GroupBuffers} {caches : List CacheTensor} {numBlocks : Nat}
variable (hlisted : buffers.getGroupBuffers 0 .kv = some
  (caches.map (·.dataPtr), caches.map (·.blockLen numBlocks), some (caches.map (·.blockStride numBlocks))))

def tensorEntry (db : ChunkedTokenDatabase) (numBlocks start stop blockId baseAddr : Nat) (cache : CacheTensor) :
    Nat × Nat :=
  (baseAddr + blockId * cache.blockStride numBlocks,
    chunkBytes (cache.blockLen numBlocks) (db.getBlockSize 0) start stop)

theorem placeTensor_eq {i : Nat} (hi : i < caches.length) (start stop blockId baseAddr : Nat) :
    placeTensor (caches.map (·.blockLen numBlocks)) (some (caches.map (·.blockStride numBlocks)))
      (db.getBlockSize 0) start stop blockId i baseAddr =
        some (db.tensorEntry numBlocks start stop blockId baseAddr caches[i]) := by
  have hne : caches ≠ [] := ne_nil_of_length_pos (zero_lt_of_lt hi)
  simp [placeTensor, strideAt, tensorEntry, hne, getElem?_eq_getElem hi]

include hlisted

variable (hne : caches ≠ [])

include hne

theorem prepareValue_eq (start stop : Nat) (ids : List Nat) :
    db.prepareValue buffers start stop ids = ids[start / db.getBlockSize 0]?.map fun blockId =>
      .ofEntries (caches.map fun cache => db.tensorEntry numBlocks start stop blockId cache.dataPtr cache) blockId := by
  unfold prepareValue
  cases hblock : ids[start / db.getBlockSize 0]? with
  | none => simp [hblock]
  | some blockId =>
    have hentries : ((caches.map (·.dataPtr)).zipIdx.mapM fun (baseAddr, index) =>
        placeTensor (caches.map (·.blockLen numBlocks)) (some (caches.map (·.blockStride numBlocks)))
          (db.getBlockSize 0) start stop blockId (index % caches.length) baseAddr) =
        some (caches.map fun cache => db.tensorEntry numBlocks start stop blockId cache.dataPtr cache) := by
      rw [mapM_eq_some_iff]
      apply ext_getElem
      · simp
      · intro i hi _
        have hi : i < caches.length := by simpa using hi
        simp [mod_eq_of_lt hi, placeTensor_eq hi]
    simp [hlisted, hne, hblock, hentries]

theorem prepareValueLayer_zero (start stop : Nat) (ids : List Nat) :
    db.prepareValueLayer buffers start stop ids 0 = ids[start / db.getBlockSize 0]?.map fun blockId =>
      .ofEntries (caches.map (db.tensorEntry numBlocks start stop blockId (caches.head hne).dataPtr)) blockId := by
  have hbase : (caches.map (·.dataPtr))[0 * caches.length]? = some (caches.head hne).dataPtr := by
    simp [← head?_eq_getElem?, head?_eq_some_head hne]
  unfold prepareValueLayer
  cases hblock : ids[start / db.getBlockSize 0]? with
  | none => simp [hblock]
  | some blockId =>
    have hentries : ((range caches.length).mapM fun i =>
        placeTensor (caches.map (·.blockLen numBlocks)) (some (caches.map (·.blockStride numBlocks)))
          (db.getBlockSize 0) start stop blockId i (caches.head hne).dataPtr) =
        some (caches.map (db.tensorEntry numBlocks start stop blockId (caches.head hne).dataPtr)) := by
      rw [mapM_eq_some_iff]
      apply ext_getElem
      · simp
      · intro i hi _
        have hi : i < caches.length := by simpa using hi
        simp [placeTensor_eq hi]
    simp only [hlisted, hblock, bind_eq_bind, bind_some, length_map, hbase, hentries]
    rfl

theorem prepareValueLayer_succ (start stop : Nat) (ids : List Nat) (l : Nat) :
    db.prepareValueLayer buffers start stop ids (l + 1) = none := by
  have hpos : 0 < caches.length := length_pos_of_ne_nil hne
  have hbase : (caches.map (·.dataPtr))[(l + 1) * caches.length]? = none := by
    rw [getElem?_eq_none_iff, length_map]
    exact Nat.le_mul_of_pos_left caches.length (succ_pos l)
  obtain ⟨n, hn⟩ := exists_eq_succ_of_ne_zero hpos.ne'
  unfold prepareValueLayer
  simp only [hlisted, bind_eq_bind, bind_some, length_map, hbase]
  simp [hn, range_succ_eq_map, mapM_cons]

theorem SameMemory.numLayers_le_one {L perLayer start stop : Nat} {ids : List Nat}
    (h : db.SameMemory buffers L perLayer start stop ids) : L ≤ 1 := by
  obtain ⟨bulk, layers, -, hlayers, -⟩ := h
  rw [mapM_eq_some_iff] at hlayers
  by_contra hlt
  have hsecond : ((range L).map (db.prepareValueLayer buffers start stop ids))[1]? = some none := by
    simp [getElem?_range (Nat.lt_of_not_le hlt), prepareValueLayer_succ hlisted hne]
  rw [hlayers] at hsecond
  cases hlayer : layers[1]? with
  | none | some layer => simp [hlayer] at hsecond

omit hne in
omit hlisted in
theorem ofEntries_tensorEntry_inj {start stop blockId baseAddr : Nat} :
    Placement.ofEntries (caches.map (db.tensorEntry numBlocks start stop blockId baseAddr)) blockId =
        .ofEntries (caches.map fun cache => db.tensorEntry numBlocks start stop blockId cache.dataPtr cache) blockId ↔
      ∀ cache ∈ caches, baseAddr = cache.dataPtr := by
  simp [Placement.ofEntries, tensorEntry]

theorem sameMemory_one_iff {start stop : Nat} {ids : List Nat} :
    db.SameMemory buffers 1 caches.length start stop ids ↔ ∃ blockId, ids[start / db.getBlockSize 0]? = some blockId ∧
        (∀ cache ∈ caches, (caches.head hne).dataPtr = cache.dataPtr) ∧
        (caches.map fun cache => blockId * cache.blockStride numBlocks).Nodup := by
  unfold SameMemory
  rw [prepareValue_eq hlisted hne]
  simp only [range_one, mapM_cons, mapM_nil, prepareValueLayer_zero hlisted hne]
  cases ids[start / db.getBlockSize 0]? with
  | none => simp
  | some blockId =>
    let bulk := Placement.ofEntries
      (caches.map fun cache => db.tensorEntry numBlocks start stop blockId cache.dataPtr cache) blockId
    let layer := Placement.ofEntries
      (caches.map (db.tensorEntry numBlocks start stop blockId (caches.head hne).dataPtr)) blockId
    have hslice : bulk.slice (0 * caches.length) caches.length = bulk := by
      simp [bulk, Placement.slice, Placement.ofEntries, take_of_length_le]
    have hapart : layer.addrList.Nodup ↔ (caches.map fun cache => blockId * cache.blockStride numBlocks).Nodup := by
      have hmap : layer.addrList =
          (caches.map fun cache => blockId * cache.blockStride numBlocks).map ((caches.head hne).dataPtr + ·) := by
        simp [layer, Placement.ofEntries, tensorEntry]
      rw [hmap, nodup_map_iff fun _ _ h => add_left_cancel h]
    constructor
    · rintro ⟨_, layers, hbulk, hlayers, hslices, -, -, hnodup⟩
      cases hbulk
      cases hlayers
      have hfirst := hslices 0 zero_lt_one
      rw [hslice, getElem?_cons_zero, some.injEq, ofEntries_tensorEntry_inj] at hfirst
      exact ⟨blockId, rfl, hfirst, hapart.mp (hnodup layer mem_cons_self)⟩
    · rintro ⟨_, hblock, hsame, hnodup⟩
      cases hblock
      have hequal : layer = bulk := ofEntries_tensorEntry_inj.mpr hsame
      refine ⟨bulk, [bulk], rfl, ?_, ?_, ?_, ?_, ?_⟩
      · rw [← hequal]
        rfl
      · intro l hl
        rw [lt_one_iff.mp hl, hslice]
        rfl
      · exact flatMap_singleton _ bulk
      · exact flatMap_singleton _ bulk
      · intro part hpart
        rw [mem_singleton.mp hpart, ← hequal]
        exact hapart.mpr hnodup

end Listed

/-- The layerwise mode is right for a single layer whose tensors all start at one address. -/
theorem layerwise_same_memory_iff (db : ChunkedTokenDatabase) {configured : Option Nat}
    {kvCaches : Dict String (List CacheTensor)} {cachesPerLayer numBlocks : Nat} {buffers : GroupBuffers}
    (hcaches : ∀ caches ∈ kvCaches.values, caches.length = cachesPerLayer) (hpos : 0 < cachesPerLayer)
    (hnum : registeredNumBlocks configured kvCaches = some numBlocks)
    (hregister : registerKvCaches configured none kvCaches = some buffers) (start stop : Nat) (blockIds : List Nat) :
    db.SameMemory buffers kvCaches.keys.length cachesPerLayer start stop blockIds ↔
      ∃ caches blockId, kvCaches.values = [caches] ∧ blockIds[start / db.getBlockSize 0]? = some blockId ∧
        (∀ cache ∈ caches, ∀ other ∈ caches, cache.dataPtr = other.dataPtr) ∧
        (caches.map fun cache => blockId * cache.blockStride numBlocks).Nodup := by
  have hlisted := getGroupBuffers_of_registerKvCaches hnum hregister
  have hkeys : kvCaches.keys.length = kvCaches.values.length := by simp [Dict.keys, values]
  obtain ⟨first, hfirst, -⟩ := bind_eq_some_iff.mp hnum
  have hmem : first ∈ kvCaches.values := mem_of_head? hfirst
  have hfirstne : first ≠ [] := ne_nil_of_length_pos (hcaches first hmem ▸ hpos)
  have hne : kvCaches.values.flatten ≠ [] := by
    intro hnil
    exact hfirstne (flatten_eq_nil_iff.mp hnil first hmem)
  rw [hkeys]
  constructor
  · intro h
    have hle := h.numLayers_le_one hlisted hne
    obtain ⟨caches, hone⟩ : ∃ caches, kvCaches.values = [caches] :=
      length_eq_one_iff.mp (le_antisymm hle (length_pos_of_mem hmem))
    rw [hone, flatten_singleton] at hlisted hne
    rw [hone, length_singleton, ← hcaches caches (hone ▸ mem_cons_self), sameMemory_one_iff hlisted hne] at h
    obtain ⟨blockId, hblock, hsame, hapart⟩ := h
    exact ⟨caches, blockId, hone, hblock, fun cache hc other ho => (hsame cache hc).symm.trans (hsame other ho), hapart⟩
  · rintro ⟨caches, blockId, hone, hblock, hsame, hapart⟩
    rw [hone, flatten_singleton] at hlisted hne
    rw [hone, length_singleton, ← hcaches caches (hone ▸ mem_cons_self), sameMemory_one_iff hlisted hne]
    exact ⟨blockId, hblock, fun cache hc => hsame _ (head_mem hne) cache hc, hapart⟩

end ChunkedTokenDatabase

def oneTensor : Dict String (List CacheTensor) := ⟨[("layers.0", [⟨1000, 4, 8, 8, 2⟩])], by decide⟩

theorem layerwise_same_memory_iff_oneTensor : ∃ buffers, registerKvCaches none none oneTensor = some buffers ∧
    blocksOfTwo.SameMemory buffers 1 1 0 2 [3] :=
  ⟨_, rfl, (@ChunkedTokenDatabase.layerwise_same_memory_iff blocksOfTwo none oneTensor 1 4 _
    (by decide) (by decide) rfl rfl 0 2 [3]).mpr ⟨[⟨1000, 4, 8, 8, 2⟩], 3, rfl, rfl, by decide, by decide⟩⟩

def keysAndValues : Dict String (List CacheTensor) :=
  ⟨[("layers.0", [⟨1000, 4, 8, 8, 2⟩, ⟨2000, 4, 8, 8, 2⟩]),
    ("layers.1", [⟨3000, 4, 8, 8, 2⟩, ⟨4000, 4, 8, 8, 2⟩])], by decide⟩

/-- The first layer is given four times the address of its keys, and the second none at all. -/
theorem layerwise_addresses_keysAndValues : ∃ buffers, registerKvCaches none none keysAndValues = some buffers ∧
    blocksOfTwo.prepareValue buffers 0 2 [3] = some ⟨[1048, 2048, 3048, 4048], [16, 16, 16, 16], 3⟩ ∧
    blocksOfTwo.prepareValueLayer buffers 0 2 [3] 0 = some ⟨[1048, 1048, 1048, 1048], [16, 16, 16, 16], 3⟩ ∧
    blocksOfTwo.prepareValueLayer buffers 0 2 [3] 1 = none ∧ ¬ blocksOfTwo.SameMemory buffers 2 2 0 2 [3] := by
  refine ⟨_, rfl, by decide, by decide, by decide, fun h => ?_⟩
  have hle := h.numLayers_le_one (@getGroupBuffers_of_registerKvCaches none keysAndValues _ 4 rfl rfl) (by decide)
  exact absurd hle (by decide)

end VllmAscend.KvTransfer.AscendStore
