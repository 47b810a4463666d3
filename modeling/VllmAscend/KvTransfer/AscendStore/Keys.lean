import VllmAscend.KvTransfer.AscendStore.Loadable

/-!
# What a key names

A key of the bulk mode stands for all layers of a pipeline stage, a key of the layerwise mode for one
layer. Two ranks are to share a key only where they keep the same bytes.
-/

namespace VllmAscend.KvTransfer.AscendStore

open List Nat Bool ChunkedTokenDatabase

structure KvGroup where
  usesAlignState : Bool
  originalBlockSize : Nat
  cacheFamily : CacheFamily
  deriving DecidableEq, Repr

def hashBlockSizeOf (config : PoolConfig) (moreGroups : List KvGroup) : Nat :=
  config.requestedHashBlockSize.getD
    ((moreGroups.map (·.originalBlockSize)).foldl min config.originalBlockSize)

/-- A deployment: `config` has the parallel sizes, the heads and the first group, and a hybrid model has
more groups. `partition` counts the layers of each pipeline stage. There are no stages without
layers, since `register_kv_caches` fails without a cache. -/
structure Deployment where
  config : PoolConfig
  firstUsesAlignState : Bool
  moreGroups : List KvGroup
  partition : List Nat
  stages : partition.length = config.ppSize
  stage_pos : ∀ numLayers ∈ partition, 0 < numLayers
  block_pos : ∀ group ∈ moreGroups, 0 < group.originalBlockSize
  hash_pos : 0 < hashBlockSizeOf config moreGroups
  hash_dvd_first : hashBlockSizeOf config moreGroups ∣ config.originalBlockSize
  hash_dvd : ∀ group ∈ moreGroups, hashBlockSizeOf config moreGroups ∣ group.originalBlockSize

namespace Deployment

variable (d : Deployment)

def groups : List KvGroup := ⟨d.firstUsesAlignState, d.config.originalBlockSize, d.config.cacheFamily⟩ :: d.moreGroups

/-- The metadata of a group in `__init__`: Mamba states are cut by TP rank. -/
def groupMetadata (worker : WorkerRank d.config) (group : KvGroup) (groupId : Nat) : KeyMetadata :=
  { worker.keyMetadata with
    headOrTpRank := if group.usesAlignState then worker.tpRank else d.config.headOrTpRank worker.tpRank
    kvCacheGroupId := groupId }

def metadata (worker : WorkerRank d.config) : List KeyMetadata :=
  d.groups.zipIdx.map fun (group, groupId) => d.groupMetadata worker group groupId

def database (worker : WorkerRank d.config) : ChunkedTokenDatabase where
  metadata := d.metadata worker
  blockSize := d.groups.map fun group => group.originalBlockSize * d.config.cpScale
  hashBlockSize := hashBlockSizeOf d.config d.moreGroups * d.config.cpScale
  groupCacheFamilies := d.groups.map (·.cacheFamily)
  rehash := d.config.rehash
  groups := by simp [metadata]
  groups_pos := by simp [groups]
  hash_pos := Nat.mul_pos d.hash_pos (Nat.mul_pos d.config.pcp_pos d.config.dcp_pos)
  block_pos := by
    have hscale : 0 < d.config.cpScale := Nat.mul_pos d.config.pcp_pos d.config.dcp_pos
    simp only [groups, map_cons, forall_mem_cons, forall_mem_map]
    exact ⟨Nat.mul_pos d.config.block_pos hscale, fun group hgroup => Nat.mul_pos (d.block_pos group hgroup) hscale⟩
  hash_dvd := by
    simp only [groups, map_cons, forall_mem_cons, forall_mem_map]
    exact ⟨Nat.mul_dvd_mul_right d.hash_dvd_first _, fun group hgroup => Nat.mul_dvd_mul_right (d.hash_dvd group hgroup) _⟩

def numLayers (worker : WorkerRank d.config) : Nat := d.partition.getD worker.ppStage 0

def bulkKey (worker : WorkerRank d.config) (groupId : Nat) (chunkHash : String) : Option String :=
  ((d.database worker).makeKeyByHash chunkHash groupId).map PoolKey.toString

def layerKey (worker : WorkerRank d.config) (layerId : Nat) (chunkHash : String) : Option String :=
  ((d.database worker).makeKeyByHash chunkHash 0).bind fun key =>
    (key.splitLayers (d.numLayers worker))[layerId]?.map LayerPoolKey.toString

/-! ## What a rank keeps -/

inductive Shard
  | heads (held : List Nat)
  | state (tpRank : Nat)
  deriving DecidableEq, Repr

def shard (tpRank : Nat) (group : KvGroup) : Shard :=
  if group.usesAlignState then .state tpRank
  else if d.config.numKvHead < d.config.tpSize then .heads [tpRank / (d.config.tpSize / d.config.numKvHead)]
  else
    let numHeads := d.config.numKvHead / d.config.tpSize
    .heads (range' (tpRank * numHeads) numHeads)

/-- What the bytes of a chunk depend on; `layers` are those of the whole model. -/
structure Content where
  chunkHash : String
  groupId : Nat
  layers : List Nat
  pcpRank : Nat
  dcpRank : Nat
  shard : Shard
  deriving DecidableEq, Repr

def firstLayer (worker : WorkerRank d.config) : Nat := Ragged.start d.partition worker.ppStage

def content (worker : WorkerRank d.config) (groupId : Nat) (layers : List Nat) (chunkHash : String) : Option Content :=
  d.groups[groupId]?.map fun group =>
    ⟨chunkHash, groupId, layers, worker.pcpRank, worker.dcpRank, d.shard worker.tpRank group⟩

def bulkContent (worker : WorkerRank d.config) (groupId : Nat) (chunkHash : String) : Option Content :=
  d.content worker groupId (range' (d.firstLayer worker) (d.numLayers worker)) chunkHash

def layerContent (worker : WorkerRank d.config) (layerId : Nat) (chunkHash : String) : Option Content :=
  d.content worker 0 [d.firstLayer worker + layerId] chunkHash

def BulkKeysIdentify : Prop :=
  ∀ (worker other : WorkerRank d.config) (groupId otherGroup : Nat) (chunkHash otherHash key : String),
    d.bulkKey worker groupId chunkHash = some key → d.bulkKey other otherGroup otherHash = some key →
      d.bulkContent worker groupId chunkHash = d.bulkContent other otherGroup otherHash

def LayerKeysIdentify : Prop :=
  ∀ (worker other : WorkerRank d.config) (layerId otherLayer : Nat) (chunkHash otherHash key : String),
    d.layerKey worker layerId chunkHash = some key → d.layerKey other otherLayer otherHash = some key →
      d.layerContent worker layerId chunkHash = d.layerContent other otherLayer otherHash

end Deployment

/-! ## Reading a key -/

def fieldsText (names : List String) (ranks : List Nat) : List Char := (zipWith fieldText names ranks).flatten

theorem fieldsText_append (names : List String) (ranks : List Nat) (s : List Char) :
    ∃ rest, fieldsText names ranks ++ '@' :: s = '@' :: rest := by
  cases names with
  | nil => exact ⟨s, rfl⟩
  | cons name names =>
    cases ranks with
    | nil => exact ⟨s, rfl⟩
    | cons rank ranks => exact ⟨_, rfl⟩

theorem fieldsText_inj {names : List String} (hnames : ∀ name ∈ names, '@' ∉ name.toList) {xs ys : List Nat}
    (hx : xs.length = names.length) (hy : ys.length = names.length) {s t : List Char}
    (h : fieldsText names xs ++ '@' :: s = fieldsText names ys ++ '@' :: t) : xs = ys ∧ s = t := by
  induction names generalizing xs ys with
  | nil =>
    rw [length_eq_zero_iff.mp hx, length_eq_zero_iff.mp hy] at h ⊢
    exact ⟨rfl, (cons.inj h).2⟩
  | cons name names ih =>
    obtain ⟨x, xs, rfl⟩ := exists_cons_of_length_eq_add_one hx
    obtain ⟨y, ys, rfl⟩ := exists_cons_of_length_eq_add_one hy
    obtain ⟨hname, hnames⟩ := forall_mem_cons.mp hnames
    have hno : ∀ n, '@' ∉ name.toList ++ toDigits 10 n := fun n hmem =>
      (mem_append.mp hmem).elim hname (Text.not_mem_toDigits (by decide) n)
    have h : (name.toList ++ toDigits 10 x) ++ (fieldsText names xs ++ '@' :: s) =
        (name.toList ++ toDigits 10 y) ++ (fieldsText names ys ++ '@' :: t) := by
      simpa [fieldsText, fieldText] using h
    obtain ⟨rest, hrest⟩ := fieldsText_append names xs s
    obtain ⟨rest', hrest'⟩ := fieldsText_append names ys t
    rw [hrest, hrest'] at h
    obtain ⟨hdigits, htail⟩ := Text.append_cons_inj_of_not_mem_left (hno x) (hno y) h
    rw [← cons_inj_right '@', ← hrest, ← hrest'] at htail
    obtain ⟨hxs, hst⟩ := ih hnames (succ.inj hx) (succ.inj hy) htail
    exact ⟨by rw [Text.toDigits_injective (append_cancel_left hdigits), hxs], hst⟩

def KeyMetadata.roleText (m : KeyMetadata) : List Char :=
  s!"cache_role:{m.cacheRole.name}@cache_family:{m.cacheFamily.name}".toList

theorem PoolKey.toList_eq_fields (key : PoolKey) : key.toString.toList = key.keyMetadata.modelName.toList ++
    (fieldsText ["pcp", "dcp", "head_or_tp_rank:", "pp_rank:", "group:"]
      [key.keyMetadata.pcpRank, key.keyMetadata.dcpRank, key.keyMetadata.headOrTpRank, key.keyMetadata.ppRank,
        key.keyMetadata.kvCacheGroupId] ++ '@' :: (key.keyMetadata.roleText ++ '@' :: key.chunkHash.toList)) := by
  simp only [PoolKey.toString, fieldsText, fieldText, KeyMetadata.roleText, zipWith, flatten_cons,
    flatten_nil, String.toList_append, append_assoc, cons_append, toString_eq_repr, toList_repr]
  rfl

theorem LayerPoolKey.toList_eq_fields (key : LayerPoolKey) : key.toString.toList = key.keyMetadata.modelName.toList ++
    (fieldsText ["pcp", "dcp", "head_or_tp_rank:", "group:"]
      [key.keyMetadata.pcpRank, key.keyMetadata.dcpRank, key.keyMetadata.headOrTpRank,
        key.keyMetadata.kvCacheGroupId] ++
      '@' :: (key.keyMetadata.roleText ++ (fieldsText ["layer_id:"] [key.layerId] ++ '@' :: key.chunkHash.toList))) := by
  simp only [LayerPoolKey.toString, fieldsText, fieldText, KeyMetadata.roleText, zipWith, flatten_cons,
    flatten_nil, String.toList_append, append_assoc, cons_append, toString_eq_repr, toList_repr]
  rfl

def KeyMetadata.SameRanks (a b : KeyMetadata) : Prop :=
  a.pcpRank = b.pcpRank ∧ a.dcpRank = b.dcpRank ∧ a.headOrTpRank = b.headOrTpRank ∧ a.kvCacheGroupId = b.kvCacheGroupId

theorem PoolKey.toString_inj {a b : PoolKey} (hmodel : a.keyMetadata.modelName = b.keyMetadata.modelName)
    (h : a.toString = b.toString) :
    a.keyMetadata.SameRanks b.keyMetadata ∧ a.keyMetadata.ppRank = b.keyMetadata.ppRank ∧
      (a.keyMetadata.roleText = b.keyMetadata.roleText → a.chunkHash = b.chunkHash) := by
  have htext := congrArg String.toList h
  rw [a.toList_eq_fields, b.toList_eq_fields, hmodel, append_cancel_left_eq] at htext
  obtain ⟨hranks, hrest⟩ := fieldsText_inj (by decide) rfl rfl htext
  simp only [cons.injEq] at hranks
  obtain ⟨hpcp, hdcp, hhead, hpp, hgroup, -⟩ := hranks
  refine ⟨⟨hpcp, hdcp, hhead, hgroup⟩, hpp, fun hrole => ?_⟩
  rw [hrole, append_cancel_left_eq, cons.injEq] at hrest
  exact String.toList_injective hrest.2

theorem LayerPoolKey.toString_inj {a b : LayerPoolKey} (hmodel : a.keyMetadata.modelName = b.keyMetadata.modelName)
    (h : a.toString = b.toString) : a.keyMetadata.SameRanks b.keyMetadata ∧
      (a.keyMetadata.roleText = b.keyMetadata.roleText → a.layerId = b.layerId ∧ a.chunkHash = b.chunkHash) := by
  have htext := congrArg String.toList h
  rw [a.toList_eq_fields, b.toList_eq_fields, hmodel, append_cancel_left_eq] at htext
  obtain ⟨hranks, hrest⟩ := fieldsText_inj (by decide) rfl rfl htext
  simp only [cons.injEq] at hranks
  obtain ⟨hpcp, hdcp, hhead, hgroup, -⟩ := hranks
  refine ⟨⟨hpcp, hdcp, hhead, hgroup⟩, fun hrole => ?_⟩
  rw [hrole, append_cancel_left_eq] at hrest
  obtain ⟨hlayer, hhash⟩ := fieldsText_inj (by decide) rfl rfl hrest
  exact ⟨(cons.inj hlayer).1, String.toList_injective hhash⟩

/-! ## The ranks of a key -/

theorem WorkerRank.ppRank_eq {cfg : PoolConfig} (worker : WorkerRank cfg) :
    worker.ppRank = (worker.ppStage * cfg.pcpSize + worker.pcpRank) % cfg.ppSize := by
  unfold ppRank rank
  rw [mul_comm _ cfg.tpSize, mul_add_div cfg.tp_pos, div_eq_of_lt worker.tpRank.isLt, add_zero]

theorem WorkerRank.ppStage_inj {cfg : PoolConfig} (hcoprime : cfg.pcpSize.Coprime cfg.ppSize) {a b : WorkerRank cfg}
    (hpcp : a.pcpRank.val = b.pcpRank.val) (hpp : a.ppRank = b.ppRank) : a.ppStage = b.ppStage := by
  rw [a.ppRank_eq, b.ppRank_eq, hpcp] at hpp
  have hmod : a.ppStage.val ≡ b.ppStage.val [MOD cfg.ppSize] :=
    ModEq.cancel_right_of_coprime hcoprime.symm (.add_right_cancel' _ hpp)
  exact Fin.ext (ModEq.eq_of_lt_of_lt hmod a.ppStage.isLt b.ppStage.isLt)

namespace Deployment

variable {d : Deployment} {worker other : WorkerRank d.config} {chunkHash otherHash : String}

def poolKey (d : Deployment) (worker : WorkerRank d.config) (group : KvGroup) (groupId : Nat) (chunkHash : String) : PoolKey :=
  ⟨{ d.groupMetadata worker group groupId with cacheRole := .kv, cacheFamily := group.cacheFamily }, chunkHash⟩

theorem makeKeyByHash_eq (g : Nat) : (d.database worker).makeKeyByHash chunkHash g =
    d.groups[g]?.map fun group => d.poolKey worker group g chunkHash := by
  cases hgroup : d.groups[g]? with
  | none => simp [makeKeyByHash, database, metadata, hgroup]
  | some group =>
    simp [makeKeyByHash, groupKey, cacheFamily, database,
      metadata, hgroup, poolKey, groupMetadata, getD_eq_getElem?_getD]

theorem bulkKey_eq_some {g : Nat} {key : String} : d.bulkKey worker g chunkHash = some key ↔
    ∃ group, d.groups[g]? = some group ∧ (d.poolKey worker group g chunkHash).toString = key := by
  simp [bulkKey, makeKeyByHash_eq]

theorem layerKey_eq_some {l : Nat} {key : String} : d.layerKey worker l chunkHash = some key ↔
    ∃ group, d.groups[0]? = some group ∧ l < d.numLayers worker ∧
      (LayerPoolKey.mk (d.poolKey worker group 0 chunkHash) l).toString = key := by
  simp only [layerKey, makeKeyByHash_eq, PoolKey.splitLayers, Option.bind_eq_some_iff, Option.map_eq_some_iff,
    getElem?_map, getElem?_eq_some_iff, length_range, getElem_range]
  constructor
  · rintro ⟨_, ⟨group, hgroup, rfl⟩, _, ⟨_, ⟨hlt, rfl⟩, rfl⟩, hkey⟩
    exact ⟨group, hgroup, hlt, hkey⟩
  · rintro ⟨group, hgroup, hlt, hkey⟩
    exact ⟨_, ⟨group, hgroup, rfl⟩, _, ⟨l, ⟨hlt, rfl⟩, rfl⟩, hkey⟩

theorem shard_eq {group : KvGroup} {g : Nat}
    (h : (d.groupMetadata worker group g).headOrTpRank = (d.groupMetadata other group g).headOrTpRank) :
    d.shard worker.tpRank group = d.shard other.tpRank group := by
  unfold shard
  by_cases halign : group.usesAlignState = true
  · simp only [groupMetadata, halign, if_true] at h ⊢
    rw [h]
  · by_cases hfew : d.config.numKvHead < d.config.tpSize
    all_goals
      simp only [groupMetadata, PoolConfig.headOrTpRank, halign, hfew, if_true, false_eq_true, if_false] at h ⊢
      rw [h]

theorem numLayers_pos (worker : WorkerRank d.config) : 0 < d.numLayers worker :=
  d.stage_pos _ (Ragged.getD_mem (worker.ppStage.isLt.trans_eq d.stages.symm) _)

theorem ppStage_eq_of_firstLayer (h : d.firstLayer worker = d.firstLayer other) : worker.ppStage = other.ppStage :=
  Fin.ext (Ragged.eq_of_start_add_eq (numLayers_pos worker) (numLayers_pos other) h).1

theorem groups_zero : d.groups[0]? = some ⟨d.firstUsesAlignState, d.config.originalBlockSize, d.config.cacheFamily⟩ := rfl

theorem layers_eq_of_content {layers otherLayers : List Nat}
    (h : d.content worker 0 layers chunkHash = d.content other 0 otherLayers otherHash) : layers = otherLayers := by
  simp only [content, groups_zero, Option.map_some, Option.some.injEq, Content.mk.injEq] at h
  exact h.2.2.1

theorem content_congr {g : Nat} {group : KvGroup} {layers : List Nat} (hgroup : d.groups[g]? = some group)
    (hpcp : worker.pcpRank.val = other.pcpRank.val) (hdcp : worker.dcpRank = other.dcpRank)
    (hhead : (d.groupMetadata worker group g).headOrTpRank = (d.groupMetadata other group g).headOrTpRank)
    (hhash : chunkHash = otherHash) : d.content worker g layers chunkHash = d.content other g layers otherHash := by
  simp [content, hgroup, hpcp, hdcp, hhash, shard_eq hhead]

theorem exists_stage_aliased (h : ¬ d.config.pcpSize.Coprime d.config.ppSize) :
    ∃ worker other : WorkerRank d.config, worker.ppStage ≠ other.ppStage ∧ worker.tpRank = other.tpRank ∧
      worker.pcpRank = other.pcpRank ∧ worker.ppRank = other.ppRank := by
  let factor := d.config.pcpSize.gcd d.config.ppSize
  have hpos : 0 < factor := gcd_pos_of_pos_left _ d.config.pcp_pos
  have hone : 1 < factor := lt_of_le_of_ne hpos (Ne.symm h)
  have hdvd : factor ∣ d.config.ppSize := Nat.gcd_dvd_right _ _
  have hstage : d.config.ppSize / factor < d.config.ppSize := div_lt_self d.config.pp_pos hone
  have hne : 0 < d.config.ppSize / factor := div_pos (le_of_dvd d.config.pp_pos hdvd) hpos
  obtain ⟨k, hk⟩ : factor ∣ d.config.pcpSize := Nat.gcd_dvd_left _ _
  have hmul : d.config.ppSize / factor * d.config.pcpSize = d.config.ppSize * k := by
    rw [hk, ← Nat.mul_assoc, Nat.div_mul_cancel hdvd]
  refine ⟨d.config.rankZero, { d.config.rankZero with ppStage := ⟨_, hstage⟩ }, ?_, rfl, rfl, ?_⟩
  · exact fun heq => hne.ne (Fin.ext_iff.mp heq)
  · rw [WorkerRank.ppRank_eq, WorkerRank.ppRank_eq]
    simp [PoolConfig.rankZero, hmul]

theorem bulkKeysIdentify_iff : d.BulkKeysIdentify ↔ d.config.pcpSize.Coprime d.config.ppSize := by
  constructor
  · intro h
    by_contra hcoprime
    obtain ⟨worker, other, hstage, htp, hpcp, hpp⟩ := exists_stage_aliased hcoprime
    have hkey : ∀ group, d.poolKey other group 0 "" = d.poolKey worker group 0 "" := by
      simp [poolKey, groupMetadata, WorkerRank.keyMetadata, WorkerRank.dcpRank, htp, hpcp, hpp]
    have hsame := h worker other 0 0 "" "" _ (bulkKey_eq_some.mpr ⟨_, groups_zero, rfl⟩)
      (bulkKey_eq_some.mpr ⟨_, groups_zero, by rw [hkey]⟩)
    have hfirst := congrArg head? (layers_eq_of_content hsame)
    rw [head?_range', head?_range', if_neg (numLayers_pos worker).ne', if_neg (numLayers_pos other).ne',
      Option.some.injEq] at hfirst
    exact hstage (ppStage_eq_of_firstLayer hfirst)
  · intro hcoprime worker other groupId otherGroup chunkHash otherHash key hworker hother
    obtain ⟨group, hgroup, hkey⟩ := bulkKey_eq_some.mp hworker
    obtain ⟨otherKvGroup, hotherGroup, hotherKey⟩ := bulkKey_eq_some.mp hother
    obtain ⟨⟨hpcp, hdcp, hhead, hid⟩, hpp, hhash⟩ := PoolKey.toString_inj
      (a := d.poolKey worker group groupId chunkHash) (b := d.poolKey other otherKvGroup otherGroup otherHash)
      rfl (hkey.trans hotherKey.symm)
    obtain rfl : groupId = otherGroup := hid
    obtain rfl : group = otherKvGroup := Option.some.inj (hgroup.symm.trans hotherGroup)
    have hstage : worker.ppStage = other.ppStage := WorkerRank.ppStage_inj hcoprime hpcp hpp
    unfold bulkContent firstLayer numLayers
    rw [hstage]
    exact content_congr hgroup hpcp hdcp hhead (hhash rfl)

theorem layerKeysIdentify_iff : d.LayerKeysIdentify ↔ d.config.ppSize = 1 := by
  constructor
  · intro h
    by_contra hpp
    have hsecond : 1 < d.config.ppSize := lt_of_le_of_ne d.config.pp_pos (Ne.symm hpp)
    let other : WorkerRank d.config := { d.config.rankZero with ppStage := ⟨1, hsecond⟩ }
    have hsame := h d.config.rankZero other 0 0 "" "" _
      (layerKey_eq_some.mpr ⟨_, groups_zero, numLayers_pos _, rfl⟩)
      (layerKey_eq_some.mpr ⟨_, groups_zero, numLayers_pos _, rfl⟩)
    have hfirst := (cons.inj (layers_eq_of_content hsame)).1
    have hstage := ppStage_eq_of_firstLayer hfirst
    exact absurd (Fin.ext_iff.mp hstage) zero_ne_one
  · intro hpp worker other layerId otherLayer chunkHash otherHash key hworker hother
    obtain ⟨group, hgroup, -, hkey⟩ := layerKey_eq_some.mp hworker
    obtain ⟨otherKvGroup, hotherGroup, -, hotherKey⟩ := layerKey_eq_some.mp hother
    obtain rfl : group = otherKvGroup := Option.some.inj (hgroup.symm.trans hotherGroup)
    obtain ⟨⟨hpcp, hdcp, hhead, -⟩, hrest⟩ := LayerPoolKey.toString_inj
      (a := ⟨d.poolKey worker group 0 chunkHash, layerId⟩) (b := ⟨d.poolKey other group 0 otherHash, otherLayer⟩)
      rfl (hkey.trans hotherKey.symm)
    obtain ⟨hlayer, hhash⟩ := hrest rfl
    have hstage : worker.ppStage = other.ppStage := by omega
    unfold layerContent firstLayer
    rw [hstage, show layerId = otherLayer from hlayer]
    exact content_congr hgroup hpcp hdcp hhead hhash

/-- Keys of the bulk mode name their bytes where the PCP size and the number of stages are coprime,
keys of the layerwise mode only without pipeline stages. -/
theorem keys_identify_content_iff (d : Deployment) :
    (d.BulkKeysIdentify ↔ d.config.pcpSize.Coprime d.config.ppSize) ∧ (d.LayerKeysIdentify ↔ d.config.ppSize = 1) :=
  ⟨bulkKeysIdentify_iff, layerKeysIdentify_iff⟩

end Deployment

def twoStages : Deployment where
  config := { PoolConfig.twoPcpRanks with ppSize := 2, pp_pos := Nat.two_pos }
  firstUsesAlignState := false
  moreGroups := []
  partition := [1, 1]
  stages := rfl
  stage_pos := by decide
  block_pos := by decide
  hash_pos := by decide
  hash_dvd_first := by decide
  hash_dvd := by decide

def stageWorker (stage : Fin 2) : WorkerRank twoStages.config := ⟨⟨0, by decide⟩, ⟨0, by decide⟩, stage⟩

/-- In both modes the two stages write their different layers under one key. -/
theorem stages_share_keys : (∀ stage, twoStages.bulkKey (stageWorker stage) 0 "0a" =
      some "m@pcp0@dcp0@head_or_tp_rank:0@pp_rank:0@group:0@cache_role:kv@cache_family:default@0a") ∧
    twoStages.bulkContent (stageWorker 0) 0 "0a" ≠ twoStages.bulkContent (stageWorker 1) 0 "0a" ∧
    (∀ stage, twoStages.layerKey (stageWorker stage) 0 "0a" =
      some "m@pcp0@dcp0@head_or_tp_rank:0@group:0@cache_role:kv@cache_family:default@layer_id:0@0a") ∧
    twoStages.layerContent (stageWorker 0) 0 "0a" ≠ twoStages.layerContent (stageWorker 1) 0 "0a" := by
  decide +kernel

end VllmAscend.KvTransfer.AscendStore
