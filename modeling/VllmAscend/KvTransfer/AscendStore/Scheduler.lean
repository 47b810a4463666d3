import VllmAscend.KvTransfer.AscendStore.TokenDatabase
import VllmAscend.Lib.BlockSearch
import VllmAscend.Lib.Dict

/-!
# The scheduler side of the pool
-/

namespace VllmAscend.KvTransfer.AscendStore

inductive KvRole
  | kvProducer
  | kvConsumer
  | kvBoth
  deriving DecidableEq, Repr

structure SchedulerConfig where
  kvRole : KvRole
  consumerIsToLoad : Bool
  consumerIsToPut : Bool
  loadAsync : Bool
  useLayerwise : Bool
  useHybrid : Bool
  discardPartialChunks : Bool
  cacheTransferGranularity : Nat
  groupedBlockSize : List Nat
  mambaGroupIds : List Nat
  numSpeculativeBlocks : Nat
  expectedWorkerCount : Nat
  granularity_pos : 0 < cacheTransferGranularity
  mamba_lt : ∀ groupId ∈ mambaGroupIds, groupId < groupedBlockSize.length

namespace SchedulerConfig

variable (cfg : SchedulerConfig)

def numGroups : Nat := cfg.groupedBlockSize.length

def forceSkipSave : Bool := cfg.kvRole = .kvConsumer && !cfg.consumerIsToPut

def floorToGranularity (tokenLen : Nat) : Nat :=
  tokenLen / cfg.cacheTransferGranularity * cfg.cacheTransferGranularity

def lastChunkTokensNum (promptTokens : Nat) : Nat :=
  if cfg.discardPartialChunks then cfg.floorToGranularity promptTokens else promptTokens

end SchedulerConfig

structure PoolRequest where
  promptTokens : Nat
  numTokens : Nat
  numComputedTokens : Nat
  blockHashes : List String
  deriving DecidableEq, Repr

structure RequestTracker where
  reqId : String
  tokenLen : Nat
  allocatedBlockIdsByGroup : List (List Nat)
  numSavedTokens : Nat := 0
  numPromptTokens : Option Nat := none
  deriving DecidableEq, Repr

def freshTracker (reqId : String) (tokenLen : Nat) (blockIds : List (List Nat)) (promptTokens : Nat) : RequestTracker where
  reqId := reqId
  tokenLen := tokenLen
  allocatedBlockIdsByGroup := blockIds
  numPromptTokens := some promptTokens

/-- `update_mamba_spec_blocks`: the blocks of a group with those that were skipped, or moved to the end,
replaced by the null block. -/
def updateMambaSpecBlocks (cfg : SchedulerConfig) (allocated blockIds : List Nat)
    (kvCacheGroupId numComputedTokens : Nat) : Option (List Nat) :=
  if kvCacheGroupId ∈ cfg.mambaGroupIds then
    cfg.groupedBlockSize[kvCacheGroupId]?.map fun blockSize =>
      let numSkippedBlocks := min allocated.length ((numComputedTokens - cfg.numSpeculativeBlocks - 1) / blockSize)
      let allocated := List.replicate numSkippedBlocks 0 ++ allocated.drop numSkippedBlocks
      if blockIds = [] ∨ cfg.numSpeculativeBlocks = 0 then allocated
      else
        let maskSpecCount := min (blockIds.length - 1) cfg.numSpeculativeBlocks
        let firstSpec := allocated.length - cfg.numSpeculativeBlocks
        if cfg.numSpeculativeBlocks ≤ maskSpecCount then
          allocated.take firstSpec ++ List.replicate cfg.numSpeculativeBlocks 0
        else
          allocated.take firstSpec ++ List.replicate maskSpecCount 0 ++
            allocated.drop (allocated.length + maskSpecCount - cfg.numSpeculativeBlocks)
  else some allocated

def extendGroup (cfg : SchedulerConfig) (newBlockIds : List (List Nat)) (numComputedTokens : Nat)
    (group : List Nat × Nat) : Option (List Nat) :=
  match newBlockIds[group.2]? with
  | none => some group.1
  | some ids => (updateMambaSpecBlocks cfg group.1 ids group.2 numComputedTokens).map (· ++ ids)

def RequestTracker.update (cfg : SchedulerConfig) (tracker : RequestTracker) (newBlockIds : List (List Nat))
    (numComputedTokens : Nat) : Option RequestTracker :=
  let allocated := tracker.allocatedBlockIdsByGroup
  let padded := allocated ++ List.replicate (newBlockIds.length - allocated.length) []
  (padded.zipIdx.mapM (extendGroup cfg newBlockIds numComputedTokens)).map fun groups =>
    { tracker with allocatedBlockIdsByGroup := groups }

def RequestTracker.advance (tracker : RequestTracker) (numNewTokens : Nat) : RequestTracker :=
  { tracker with tokenLen := tracker.tokenLen + numNewTokens }

structure StepReqMeta extends ReqMeta where
  blockIdsByGroup : List (List Nat)
  isLastChunk : Option Bool
  numPromptTokens : Nat
  eventId : Option Nat := none
  deriving DecidableEq, Repr

def numTokensToSave (cfg : SchedulerConfig) (tokenLen : Nat) : Nat :=
  if cfg.discardPartialChunks then cfg.floorToGranularity tokenLen else tokenLen

def chunkBoundary (cfg : SchedulerConfig) (numSavedTokens : Nat) : Nat :=
  if cfg.discardPartialChunks then
    cdiv (numSavedTokens + 1) cfg.cacheTransferGranularity * cfg.cacheTransferGranularity
  else 0

def skipsSave (cfg : SchedulerConfig) (tracker : RequestTracker) (skipSave : Option Bool) : Bool :=
  skipSave.getD false || decide (numTokensToSave cfg tracker.tokenLen < chunkBoundary cfg tracker.numSavedTokens)

def fromRequestTracker (cfg : SchedulerConfig) (tracker : RequestTracker) (loadSpec : Option LoadSpec)
    (skipSave : Option Bool) (blockHashes : List String) (isLastChunk : Option Bool) :
    RequestTracker × Option StepReqMeta :=
  let toSave := numTokensToSave cfg tracker.tokenLen
  let skip := skipsSave cfg tracker skipSave
  if skip ∧ loadSpec = none then (tracker, none)
  else
    ({ tracker with numSavedTokens := if skip then tracker.numSavedTokens else toSave },
      some
        { reqId := tracker.reqId
          tokenLenChunk := toSave
          blockHashes := blockHashes
          canSave := some (!skip)
          loadSpec := loadSpec.filter (·.canLoad)
          blockIdsByGroup := tracker.allocatedBlockIdsByGroup
          isLastChunk := isLastChunk
          numPromptTokens := match tracker.numPromptTokens with
            | none | some 0 => tracker.tokenLen
            | some n => n })

structure NewReq where
  reqId : String
  blockIds : List (List Nat)
  numComputedTokens : Nat
  promptTokens : Nat
  deriving DecidableEq, Repr

structure CachedReq where
  reqId : String
  newBlockIds : Option (List (List Nat))
  numComputedTokens : Nat
  deriving DecidableEq, Repr

structure SchedulerOutput where
  finishedReqIds : List String
  preemptedReqIds : List String
  scheduledNewReqs : List NewReq
  scheduledCachedReqs : List CachedReq
  numScheduledTokens : String → Nat

/-- The state of `KVPoolScheduler`. Of the block pool it has the references that the connector has
taken and not given back. -/
structure PoolScheduler where
  loadSpecs : Dict String LoadSpec := ∅
  requestTrackers : Dict String RequestTracker := ∅
  preemptedReqIds : List String := []
  unfinishedRequests : Dict String (List (List Nat)) := ∅
  sendingEventId : Nat := 0
  sendingBlocks : Dict Nat (List Nat) := ∅
  sendingEvents : Dict Nat Nat := ∅
  extraRefs : Nat → Int := fun _ => 0

namespace PoolScheduler

/-! ## Admission -/

section Admission

variable (cfg : SchedulerConfig)

def newLoadSpec (request : PoolRequest) (numComputedTokens lookup : Nat) : Option LoadSpec :=
  if cfg.kvRole = .kvConsumer ∧ cfg.consumerIsToLoad = false then none
  else if cfg.lastChunkTokensNum request.promptTokens < cfg.cacheTransferGranularity then none
  else
    let numExternalHitTokens := if lookup = request.numTokens then lookup - 1 else lookup
    if numExternalHitTokens ≤ numComputedTokens then none
    else some ⟨numComputedTokens, numExternalHitTokens, false⟩

variable {cfg} in
theorem newLoadSpec_eq_some {req : PoolRequest} {done lookup : Nat} {spec : LoadSpec}
    (h : newLoadSpec cfg req done lookup = some spec) :
    spec = ⟨done, if lookup = req.numTokens then lookup - 1 else lookup, false⟩ ∧
      spec.vllmCachedTokens < spec.kvpoolCachedTokens := by
  unfold newLoadSpec at h
  dsimp only at h
  split at h
  · cases h
  split at h
  · cases h
  generalize (if lookup = req.numTokens then lookup - 1 else lookup) = found at h ⊢
  split at h
  · cases h
  next hlt =>
    cases h
    exact ⟨rfl, Nat.lt_of_not_le hlt⟩

def getNumNewMatchedTokens (s : PoolScheduler) (reqId : String) (request : PoolRequest)
    (numComputedTokens lookup : Nat) : PoolScheduler × Nat × Bool :=
  match newLoadSpec cfg request numComputedTokens lookup with
  | none => (s, 0, false)
  | some spec =>
    ({ s with loadSpecs := s.loadSpecs.set reqId spec }, spec.kvpoolCachedTokens - spec.vllmCachedTokens,
      cfg.loadAsync && !cfg.useLayerwise)

def updateStateAfterAlloc (s : PoolScheduler) (reqId : String) (blockIds : List (List Nat))
    (numExternalTokens : Nat) : Option PoolScheduler :=
  let localBlockIds := if 0 < numExternalTokens then blockIds else List.replicate cfg.numGroups []
  let s := { s with unfinishedRequests := s.unfinishedRequests.set reqId localBlockIds }
  match s.loadSpecs.get? reqId with
  | none => some s
  | some spec =>
    if numExternalTokens = 0 then
      some { s with loadSpecs := s.loadSpecs.set reqId { spec with canLoad := false } }
    else if numExternalTokens + spec.vllmCachedTokens = spec.kvpoolCachedTokens then
      some { s with loadSpecs := s.loadSpecs.set reqId { spec with canLoad := true } }
    else none

end Admission

def touchSendingMambaBlocks (cfg : SchedulerConfig) (s : PoolScheduler) (reqMeta : StepReqMeta) :
    Option (PoolScheduler × StepReqMeta) :=
  if cfg.useHybrid = false ∨ cfg.mambaGroupIds = [] ∨ reqMeta.canSave ≠ some true then some (s, reqMeta)
  else
    (cfg.mambaGroupIds.mapM fun groupId => reqMeta.blockIdsByGroup[groupId]?).map fun groups =>
      let usingEventId := s.sendingEventId
      let currentStepSending := groups.flatten.filter (0 < ·)
      ({ s with
          sendingEventId := usingEventId + 1
          extraRefs := fun blockId => s.extraRefs blockId + currentStepSending.count blockId
          sendingEvents := s.sendingEvents.set usingEventId 0
          sendingBlocks := s.sendingBlocks.set usingEventId currentStepSending },
        { reqMeta with eventId := some usingEventId })

def completeEvent (cfg : SchedulerConfig) (s : PoolScheduler) (report : Nat × Nat) : PoolScheduler :=
  match s.sendingEvents.get? report.1 with
  | none => s
  | some count =>
    let total := count + report.2
    if cfg.expectedWorkerCount ≤ total then
      let toFreeBlockIds := s.sendingBlocks.getD report.1 []
      { s with
        sendingBlocks := s.sendingBlocks.erase report.1
        sendingEvents := s.sendingEvents.erase report.1
        extraRefs := fun blockId => s.extraRefs blockId - toFreeBlockIds.count blockId }
    else { s with sendingEvents := s.sendingEvents.set report.1 total }

def updateConnectorOutput (cfg : SchedulerConfig) (s : PoolScheduler) (completedEvents : Dict Nat Nat) :
    PoolScheduler :=
  completedEvents.entries.foldl (completeEvent cfg) s

/-! ## The metadata of a step -/

section Build

variable (cfg : SchedulerConfig) (requests : String → PoolRequest) (output : SchedulerOutput)

abbrev Building := PoolScheduler × List StepReqMeta

def addRequest (b : Building) (tracker : RequestTracker) (loadSpec : Option LoadSpec) (skipSave : Option Bool)
    (blockHashes : List String) (isLastChunk : Option Bool) : Option Building :=
  let (tracker, reqMeta) := fromRequestTracker cfg tracker loadSpec skipSave blockHashes isLastChunk
  let s := { b.1 with requestTrackers := b.1.requestTrackers.set tracker.reqId tracker }
  match reqMeta with
  | none => some (s, b.2)
  | some reqMeta => (touchSendingMambaBlocks cfg s reqMeta).map fun (s, reqMeta) => (s, b.2 ++ [reqMeta])

def popLoadSpec (b : Building) (reqId : String) : Building :=
  ({ b.1 with loadSpecs := b.1.loadSpecs.erase reqId }, b.2)

def addNew (b : Building) (req : NewReq) : Option Building :=
  let loadSpec := b.1.loadSpecs.get? req.reqId
  let numTokensToCompute := req.numComputedTokens + output.numScheduledTokens req.reqId
  -- `request_tuple[0]`
  (b.1.unfinishedRequests.get? req.reqId).bind fun _ =>
    addRequest cfg (popLoadSpec b req.reqId) (freshTracker req.reqId numTokensToCompute req.blockIds req.promptTokens)
      loadSpec (some cfg.forceSkipSave) (requests req.reqId).blockHashes
      (some (cfg.lastChunkTokensNum req.promptTokens ≤ numTokensToCompute))

def addResumed (b : Building) (reqId : String) (newBlockIds : List (List Nat)) : Option Building :=
  let request := requests reqId
  let loadSpec := b.1.loadSpecs.get? reqId
  let numTokensToCompute := request.numComputedTokens + output.numScheduledTokens reqId
  (b.1.unfinishedRequests.get? reqId).bind fun _ =>
    let s := { b.1 with preemptedReqIds := b.1.preemptedReqIds.filter (· ≠ reqId) }
    addRequest cfg (popLoadSpec (s, b.2) reqId) (freshTracker reqId numTokensToCompute newBlockIds request.promptTokens)
      loadSpec (some cfg.forceSkipSave) request.blockHashes
      (some (cfg.lastChunkTokensNum request.promptTokens ≤ numTokensToCompute))

def addChunked (b : Building) (req : CachedReq) (newBlockIds : List (List Nat)) : Option Building :=
  let request := requests req.reqId
  (b.1.requestTrackers.get? req.reqId).bind fun tracker =>
    (b.1.unfinishedRequests.get? req.reqId).bind fun _ =>
      -- the tokens from `num_current_tokens` on, as far as the request has them
      let numNewTokens := min (output.numScheduledTokens req.reqId) (request.numTokens - tracker.tokenLen)
      let tracker := tracker.advance numNewTokens
      if request.promptTokens ≤ req.numComputedTokens then
        some ({ b.1 with requestTrackers := b.1.requestTrackers.set req.reqId tracker }, b.2)
      else
        (tracker.update cfg newBlockIds request.numComputedTokens).bind fun tracker =>
          addRequest cfg b tracker none (some cfg.forceSkipSave) request.blockHashes
            (some (cfg.lastChunkTokensNum request.promptTokens ≤ tracker.tokenLen))

def addCached (b : Building) (req : CachedReq) : Option Building :=
  let newBlockIds := req.newBlockIds.getD []
  if newBlockIds = [] then some b
  else if req.reqId ∈ b.1.preemptedReqIds then addResumed cfg requests output b req.reqId newBlockIds
  else addChunked cfg requests output b req newBlockIds

def addAllCached (b : Building) : Option Building :=
  if cfg.forceSkipSave then some b else output.scheduledCachedReqs.foldlM (addCached cfg requests output) b

def addWaiting (b : Building) (entry : String × List (List Nat)) : Option Building :=
  let request := requests entry.1
  if entry.1 ∈ output.scheduledNewReqs.map (·.reqId) ∨ entry.1 ∈ output.scheduledCachedReqs.map (·.reqId) then
    some b
  else
    match b.1.loadSpecs.get? entry.1 with
    | none => some b
    | some loadSpec =>
      let hit := loadSpec.kvpoolCachedTokens
      let numTokensToCompute :=
        if hit % cfg.cacheTransferGranularity ≠ 0 ∧ hit + 1 = request.promptTokens then hit + 1 else hit
      addRequest cfg (popLoadSpec b entry.1) (freshTracker entry.1 numTokensToCompute entry.2 request.promptTokens)
        (some loadSpec) none request.blockHashes none

def dropLeft (s : PoolScheduler) : PoolScheduler :=
  let left := output.finishedReqIds ++ output.preemptedReqIds
  { s with
    requestTrackers := left.foldl Dict.erase s.requestTrackers
    unfinishedRequests := left.foldl Dict.erase s.unfinishedRequests
    preemptedReqIds := s.preemptedReqIds.filter (· ∉ output.finishedReqIds) ++ output.preemptedReqIds }

def buildConnectorMeta (s : PoolScheduler) : Option Building := do
  let b ← output.scheduledNewReqs.foldlM (addNew cfg requests output) (dropLeft output s, [])
  let b ← addAllCached cfg requests output b
  b.1.unfinishedRequests.entries.foldlM (addWaiting cfg requests output) b

end Build

end PoolScheduler

def loadingConsumer : SchedulerConfig where
  kvRole := .kvConsumer
  consumerIsToLoad := true
  consumerIsToPut := false
  loadAsync := false
  useLayerwise := false
  useHybrid := false
  discardPartialChunks := true
  cacheTransferGranularity := 2
  groupedBlockSize := [2]
  mambaGroupIds := []
  numSpeculativeBlocks := 0
  expectedWorkerCount := 1
  granularity_pos := Nat.two_pos
  mamba_lt := nofun

end VllmAscend.KvTransfer.AscendStore
