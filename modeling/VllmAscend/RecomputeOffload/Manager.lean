import VllmAscend.Lib.Dict
import VllmAscend.Lib.Exec
import VllmAscend.RecomputeOffload.BlockPool

/-!
# The scheduler side of the recompute CPU offload

`RecomputeCPUOffloadScheduler`: a preempted request's GPU blocks are saved in CPU blocks, shared through hashes
where possible, and loaded back when the request resumes.
-/

namespace VllmAscend.RecomputeOffload

abbrev ReqId := Nat

abbrev BlockTable := List (List Nat)

inductive OffloadError
  | notEnoughFreeBlocks
  | refCntAssertion
  | stopIteration
  | groupIndex
  | loadNotPrepared (reqId : ReqId) (numExternalTokens : Nat)
  | groupCountMismatch (reqId : ReqId) (gpuGroups cpuGroups : Nat)
  | emptyBlockRange (reqId : ReqId) (group startBlock endBlock gpuBlocks cpuBlocks : Nat)
  | incompleteMapping (reqId : ReqId) (gpuBlocks cpuBlocks : Nat)
  | unknownStoreEvent (eventIdx : Nat)
deriving DecidableEq, Repr

structure GroupSpec where
  blockSize : Nat
  slidingWindow : Bool
deriving DecidableEq, Repr

structure TransferMeta where
  gpuBlockIds : List Nat
  cpuBlockIds : List Nat
deriving DecidableEq, Repr

structure PreemptedRequestState where
  cpuBlockIds : BlockTable
  numComputedTokens : Nat
  storeTransferMeta : TransferMeta
  storeEvent : Option Nat := none
  loadEvent : Option Nat := none
  loadTransferMeta : Option TransferMeta := none
  loadStartTokens : Nat := 0
  ready : Bool := false
  finished : Bool := false
deriving DecidableEq, Repr

structure Manager (H : Type) where
  groups : List GroupSpec
  enableOffloadPrefixCaching : Bool
  expectedWorkerCount : Nat
  cpuBlockPool : BlockPool H
  /-- `none` until `bind_gpu_block_pool`. -/
  gpuBlockPool : Option (BlockPool H)
  preemptedReqStates : Dict ReqId PreemptedRequestState := ∅
  storeEventToReqs : Dict Nat (List ReqId) := ∅
  storeEventToBlocks : Dict Nat TransferMeta := ∅
  loadEventToReqs : Dict Nat (List ReqId) := ∅
  pendingHashBlocks : Dict H Nat := ∅
  loadEventCounter : Nat := 0
  storeEventCounter : Nat := 0
  storeEventPendingCounts : Dict Nat Nat := ∅

abbrev ManagerM (H : Type) := Exec OffloadError (Manager H)

variable {H : Type} [DecidableEq H]

open Exec

def cdiv (a b : Nat) : Nat := (a + b - 1) / b

def alignGroupBlockIds (slidingWindow : Bool) (groupBlockIds : List Nat) (logicalNumBlocks : Nat) :
    List Nat :=
  if logicalNumBlocks = 0 then []
  else if slidingWindow ∧ groupBlockIds.length < logicalNumBlocks then
    (List.replicate (logicalNumBlocks - groupBlockIds.length) 0 ++ groupBlockIds).take
      logicalNumBlocks
  else groupBlockIds.take logicalNumBlocks

def updateState (reqId : ReqId) (f : PreemptedRequestState → PreemptedRequestState) (m : Manager H) :
    Manager H :=
  match m.preemptedReqStates.get? reqId with
  | some state => { m with preemptedReqStates := m.preemptedReqStates.set reqId (f state) }
  | none => m

/-! ## Counting what a preempted request needs -/

inductive Entry (H : Type)
  | null
  | unhashed (gpu : Nat)
  | hashed (gpu : Nat) (h : H)
deriving DecidableEq

def Entry.blockHash : Entry H → Option H
  | .hashed _ h => some h
  | _ => none

def Entry.isNull : Entry H → Bool
  | .null => true
  | _ => false

def Entry.isUnhashed : Entry H → Bool
  | .unhashed _ => true
  | _ => false

def blockIsComputed (blockSize numComputedTokens blockIdx : Nat) : Bool :=
  (blockIdx + 1) * blockSize ≤ numComputedTokens

/-- A block that was given a hash for tokens that are not computed leaves the GPU cache. -/
def evictUncomputed (blockSize numComputedTokens : Nat) (ids : List Nat) (gpu : BlockPool H) :
    BlockPool H :=
  ids.zipIdx.foldl (fun gpu (b, blockIdx) =>
    if b = 0 ∨ blockIsComputed blockSize numComputedTokens blockIdx then gpu
    else gpu.maybeEvict b) gpu

def entry (prefixCaching : Bool) (blockSize numComputedTokens : Nat) (gpu : BlockPool H)
    (b blockIdx : Nat) : Entry H :=
  if b = 0 then .null
  else if blockIsComputed blockSize numComputedTokens blockIdx && prefixCaching then
    match gpu.blockHash b with
    | some h => .hashed b h
    | none => .unhashed b
  else .unhashed b

def groupEntries (prefixCaching : Bool) (group : GroupSpec) (ids : List Nat)
    (numComputedTokens : Nat) (gpu : BlockPool H) : BlockPool H × List (Entry H) :=
  let logicalNumBlocks := cdiv numComputedTokens group.blockSize
  let aligned := alignGroupBlockIds group.slidingWindow ids logicalNumBlocks
  let eviction := alignGroupBlockIds group.slidingWindow ids (max logicalNumBlocks ids.length)
  let gpu := evictUncomputed group.blockSize numComputedTokens eviction gpu
  (gpu, aligned.zipIdx.map fun (b, blockIdx) => entry prefixCaching group.blockSize numComputedTokens gpu b blockIdx)

def countGroups (gpu : BlockPool H) (numComputedTokens : Nat) :
    List GroupSpec → BlockTable → ManagerM H (List (List (Entry H)))
  | _, [] => return []
  | [], _ :: _ => raise .groupIndex
  | group :: groups, ids :: table => do
    let m ← get
    let (gpu, entries) := groupEntries m.enableOffloadPrefixCaching group ids numComputedTokens gpu
    modify fun m => { m with gpuBlockPool := some gpu }
    let rest ← countGroups gpu numComputedTokens groups table
    return entries :: rest

def numUnhashed (entries : List (Entry H)) : Nat := entries.countP Entry.isUnhashed

def Manager.isMissing (m : Manager H) (h : H) : Bool :=
  (m.cpuBlockPool.getOneBlock h).isNone && (m.pendingHashBlocks.get? h).isNone

def Manager.missingHashes (m : Manager H) (entries : List (Entry H)) : List H :=
  ((entries.filterMap (·.blockHash)).filter m.isMissing).dedup

def Manager.numNeeded (m : Manager H) (entries : List (Entry H)) : Nat :=
  numUnhashed entries + (m.missingHashes entries).length

def Manager.cacheHit (m : Manager H) (e : Entry H) : Option (H × Nat) :=
  e.blockHash.bind fun h => (m.cpuBlockPool.getOneBlock h).map (h, ·)

/-! ## Allocating CPU blocks -/

def takeNewBlock (b : Nat) : ManagerM H Unit := do
  let m ← get
  when m.cpuBlockPool.enableCaching
    (modify fun m => { m with cpuBlockPool := m.cpuBlockPool.maybeEvict b })
  require (m.cpuBlockPool.refCnt b = 0) .refCntAssertion
  modify fun m => { m with cpuBlockPool := m.cpuBlockPool.addRef 1 b }

def getNewBlocks (n : Nat) : ManagerM H (List Nat) := do
  let m ← get
  require (n ≤ m.cpuBlockPool.freeQueue.length) .notEnoughFreeBlocks
  modify fun m => { m with
    cpuBlockPool := { m.cpuBlockPool with freeQueue := m.cpuBlockPool.freeQueue.drop n } }
  forEach (m.cpuBlockPool.freeQueue.take n) takeNewBlock
  return m.cpuBlockPool.freeQueue.take n

/-- The locals of the allocation loop: what `cpu_block_iter` still has, the stores, and the hits
in the hash cache so far, which the code does not keep. -/
structure Alloc (H : Type) where
  iter : List Nat
  storeGpu : List Nat := []
  storeCpu : List Nat := []
  waitingForStore : Bool := false
  hits : List (H × Nat) := []

def touchCpu (b : Nat) : ManagerM H Unit := modify fun m => { m with cpuBlockPool := m.cpuBlockPool.touch [b] }

def useNewBlock (a : Alloc H) (gpu : Nat) (hash : Option H) : ManagerM H (Nat × Alloc H) :=
  match a.iter with
  | [] => raise .stopIteration
  | b :: iter => do
    modify fun m =>
      match hash with
      | none => m
      | some h => { m with
          cpuBlockPool := m.cpuBlockPool.setHash b (some h)
          pendingHashBlocks := m.pendingHashBlocks.set h b }
    return (b, { a with
      iter, storeGpu := a.storeGpu ++ [gpu], storeCpu := a.storeCpu ++ [b],
      waitingForStore := true })

def useHashed (a : Alloc H) (gpu : Nat) (h : H) : ManagerM H (Nat × Alloc H) := do
  let m ← get
  match m.cpuBlockPool.getOneBlock h with
  | some b =>
    touchCpu b
    return (b, { a with hits := a.hits ++ [(h, b)] })
  | none =>
    match m.pendingHashBlocks.get? h with
    | some b =>
      touchCpu b
      return (b, { a with waitingForStore := true })
    | none => useNewBlock a gpu (some h)

def useEntry (a : Alloc H) (e : Entry H) : ManagerM H (Nat × Alloc H) :=
  match e with
  | .null => return (0, a)
  | .unhashed gpu => useNewBlock a gpu none
  | .hashed gpu h => useHashed a gpu h

def useGroup (a : Alloc H) : List (Entry H) → ManagerM H (List Nat × Alloc H)
  | [] => return ([], a)
  | e :: entries => do
    let (b, a) ← useEntry a e
    let (ids, a) ← useGroup a entries
    return (b :: ids, a)

def useGroups (a : Alloc H) : List (List (Entry H)) → ManagerM H (BlockTable × Alloc H)
  | [] => return ([], a)
  | entries :: groups => do
    let (ids, a) ← useGroup a entries
    let (table, a) ← useGroups a groups
    return (ids :: table, a)

def allocate (numNeeded : Nat) (groups : List (List (Entry H))) :
    ManagerM H (BlockTable × Alloc H) := do
  let iter ← getNewBlocks numNeeded
  useGroups { iter } groups

def addState (reqId : ReqId) (numComputedTokens : Nat) (cpuBlockIds : BlockTable) (a : Alloc H) :
    ManagerM H Unit :=
  modify fun m => { m with
    preemptedReqStates := m.preemptedReqStates.set reqId {
      cpuBlockIds, numComputedTokens
      storeTransferMeta := ⟨a.storeGpu, a.storeCpu⟩
      ready := !a.waitingForStore } }

def createFromEntries (reqId : ReqId) (numComputedTokens : Nat) (groups : List (List (Entry H))) :
    ManagerM H Bool := do
  let m ← get
  if groups.all (·.all Entry.isNull) then return false
  else if m.cpuBlockPool.freeQueue.length < m.numNeeded groups.flatten then return false
  else
    let (cpuBlockIds, a) ← allocate (m.numNeeded groups.flatten) groups
    addState reqId numComputedTokens cpuBlockIds a
    return true

def createPreemptState (reqId : ReqId) (blockIds : BlockTable) (numComputedTokens : Nat) :
    ManagerM H Bool := do
  let m ← get
  match m.gpuBlockPool with
  | none => return false
  | some gpu =>
    if numComputedTokens = 0 then return false
    else
      let groups ← countGroups gpu numComputedTokens m.groups blockIds
      createFromEntries reqId numComputedTokens groups

def updateStateBeforePreempt (reqId : ReqId) (blockIds : BlockTable) (numComputedTokens : Nat) :
    ManagerM H Bool := do
  let m ← get
  if (m.preemptedReqStates.get? reqId).isSome then return true
  else createPreemptState reqId blockIds numComputedTokens

/-! ## Loading a request back -/

def loadRange (group : GroupSpec) (cpuIds gpuIds : List Nat) (loadStart loadEnd : Nat) : Nat × Nat :=
  (loadStart / group.blockSize, min cpuIds.length (min (alignGroupBlockIds group.slidingWindow gpuIds (max (cdiv
    loadEnd group.blockSize) gpuIds.length)).length (cdiv loadEnd group.blockSize)))

def rangePairs (group : GroupSpec) (cpuIds gpuIds : List Nat) (startBlock endBlock : Nat) :
    List (Nat × Nat) :=
  let aligned := alignGroupBlockIds group.slidingWindow gpuIds endBlock
  ((List.range' startBlock (endBlock - startBlock)).map fun blockIdx =>
    (cpuIds.getD blockIdx 0, aligned.getD blockIdx 0)).filter fun (cpu, gpu) => cpu ≠ 0 ∧ gpu ≠ 0

def groupLoadPairs (reqId : ReqId) (g : Nat) (group : GroupSpec) (cpuIds gpuIds : List Nat)
    (loadStart loadEnd : Nat) : Except OffloadError (List (Nat × Nat)) :=
  let (startBlock, endBlock) := loadRange group cpuIds gpuIds loadStart loadEnd
  if endBlock < startBlock then
    .error (.emptyBlockRange reqId g startBlock endBlock gpuIds.length cpuIds.length)
  else .ok (rangePairs group cpuIds gpuIds startBlock endBlock)

def loadPairs (reqId : ReqId) (loadStart loadEnd : Nat) :
    Nat → List GroupSpec → BlockTable → BlockTable → Except OffloadError (List (Nat × Nat))
  | g, group :: groups, cpuIds :: cpu, gpuIds :: gpu => do
    let pairs ← groupLoadPairs reqId g group cpuIds gpuIds loadStart loadEnd
    let rest ← loadPairs reqId loadStart loadEnd (g + 1) groups cpu gpu
    return pairs ++ rest
  | _, _, [], _ => .ok []
  | _, _, _, _ => .error .groupIndex

def loadEndTokens (state : PreemptedRequestState) (numExternalTokens : Nat) : Nat :=
  min (state.loadStartTokens + numExternalTokens) state.numComputedTokens

def setLoad (reqId : ReqId) (pairs : List (Nat × Nat)) (m : Manager H) : Manager H :=
  updateState reqId
    (fun state => { state with loadTransferMeta := some ⟨pairs.map Prod.snd, pairs.map Prod.fst⟩ })
    { m with gpuBlockPool := m.gpuBlockPool.map (·.touch (pairs.map Prod.snd)) }

def preparePreemptLoadAfterAlloc (reqId : ReqId) (blockIds : BlockTable)
    (numExternalTokens : Nat) : ManagerM H Bool := do
  let m ← get
  match m.preemptedReqStates.get? reqId with
  | none => return false
  | some state =>
    if !state.ready then return false
    else if loadEndTokens state numExternalTokens ≤ state.loadStartTokens then return false
    else
      require (blockIds.length == state.cpuBlockIds.length)
        (.groupCountMismatch reqId blockIds.length state.cpuBlockIds.length)
      let pairs ← ofExcept (loadPairs reqId state.loadStartTokens
        (loadEndTokens state numExternalTokens) 0 m.groups state.cpuBlockIds blockIds)
      require (!pairs.isEmpty) (.incompleteMapping reqId 0 0)
      modify (setLoad reqId pairs)
      return true

def updateStateAfterAlloc (reqId : ReqId) (blockIds : BlockTable) (numExternalTokens : Nat) :
    ManagerM H Unit :=
  if numExternalTokens = 0 then pure ()
  else do
    let prepared ← preparePreemptLoadAfterAlloc reqId blockIds numExternalTokens
    require prepared (.loadNotPrepared reqId numExternalTokens)

/-! ## Metadata for the workers -/

structure Metadata where
  needFlush : Bool
  preemptStoreEvent : Option Nat
  preemptStoreGpuBlocks : List Nat
  preemptStoreCpuBlocks : List Nat
  preemptLoadEvent : Option Nat
  preemptLoadGpuBlocks : List Nat
  preemptLoadCpuBlocks : List Nat
  preemptLoadEventToReqs : Dict Nat (List ReqId)

def Manager.unsentStores (m : Manager H) : List (ReqId × PreemptedRequestState) :=
  m.preemptedReqStates.entries.filter fun (_, state) => state.storeEvent.isNone && !state.ready

def Manager.unsentLoads (m : Manager H) : List (ReqId × PreemptedRequestState) :=
  m.preemptedReqStates.entries.filter fun (_, state) => state.loadTransferMeta.isSome && state.loadEvent.isNone

def storeSpecs (unsent : List (ReqId × PreemptedRequestState)) : TransferMeta where
  gpuBlockIds := unsent.flatMap fun (_, state) => state.storeTransferMeta.gpuBlockIds
  cpuBlockIds := unsent.flatMap fun (_, state) => state.storeTransferMeta.cpuBlockIds

def loadSpecs (unsent : List (ReqId × PreemptedRequestState)) : TransferMeta where
  gpuBlockIds := unsent.flatMap fun (_, state) => (state.loadTransferMeta.map (·.gpuBlockIds)).getD []
  cpuBlockIds := unsent.flatMap fun (_, state) => (state.loadTransferMeta.map (·.cpuBlockIds)).getD []

def setStoreEvent (event : Nat) (reqs : List ReqId) (m : Manager H) : Manager H :=
  reqs.foldl (fun m reqId => updateState reqId (fun s => { s with storeEvent := some event }) m) m

def setLoadEvent (event : Nat) (reqs : List ReqId) (m : Manager H) : Manager H :=
  reqs.foldl (fun m reqId => updateState reqId (fun s => { s with loadEvent := some event }) m) m

def sendStores (m : Manager H) : Option Nat × Manager H :=
  let specs := storeSpecs m.unsentStores
  let reqs := m.unsentStores.map Prod.fst
  if specs.gpuBlockIds = [] then (none, m)
  else
    let event := m.storeEventCounter
    let m := setStoreEvent event reqs { m with
      storeEventCounter := event + 1
      storeEventToBlocks := m.storeEventToBlocks.set event specs
      storeEventToReqs := m.storeEventToReqs.set event reqs }
    (some event, { m with pendingHashBlocks := ∅ })

def sendLoads (m : Manager H) : Option Nat × Manager H :=
  let reqs := m.unsentLoads.map Prod.fst
  if reqs = [] then (none, m)
  else
    let event := m.loadEventCounter
    let m := setLoadEvent event reqs { m with loadEventCounter := event + 1 }
    (some event, { m with loadEventToReqs := m.loadEventToReqs.set event reqs })

def buildConnectorMeta (anyPreempted : Bool) : ManagerM H Metadata := fun m =>
  let stores := storeSpecs m.unsentStores
  let (storeEvent, m) := sendStores m
  let loads := loadSpecs m.unsentLoads
  let (loadEvent, m) := sendLoads m
  (.ok {
    needFlush := anyPreempted
    preemptStoreEvent := storeEvent
    preemptStoreGpuBlocks := stores.gpuBlockIds
    preemptStoreCpuBlocks := stores.cpuBlockIds
    preemptLoadEvent := loadEvent
    preemptLoadGpuBlocks := loads.gpuBlockIds
    preemptLoadCpuBlocks := loads.cpuBlockIds
    preemptLoadEventToReqs := m.loadEventToReqs }, m)

/-! ## Cleanup -/

def PreemptedRequestState.heldBlocks (state : PreemptedRequestState) : List Nat :=
  state.cpuBlockIds.flatten.filter (· ≠ 0)

def cleanupPreemptCacheRequest (reqId : ReqId) : ManagerM H Unit :=
  modify fun m =>
    match m.preemptedReqStates.get? reqId with
    | none => m
    | some state => { m with
        preemptedReqStates := m.preemptedReqStates.erase reqId
        cpuBlockPool := m.cpuBlockPool.freeBlocks state.heldBlocks }

def getNumNewMatchedTokens (reqId : ReqId) (numTokens numComputedTokens : Nat) :
    ManagerM H (Option Nat × Bool) := do
  let m ← get
  match m.preemptedReqStates.get? reqId with
  | none => return (some 0, false)
  | some state =>
    if !state.ready then return (none, false)
    else if min state.numComputedTokens numTokens ≤ numComputedTokens then
      cleanupPreemptCacheRequest reqId
      return (some 0, false)
    else
      modify (updateState reqId fun state => { state with loadStartTokens := numComputedTokens })
      return (some (min state.numComputedTokens numTokens - numComputedTokens), true)

/-- A request leaves the list of its load event, and the last one takes the event with it. -/
def forgetLoadEvent (reqId : ReqId) (event : Option Nat) (m : Manager H) : Manager H :=
  match event with
  | none => m
  | some event =>
    match m.loadEventToReqs.get? event with
    | none => m
    | some reqs => { m with
        loadEventToReqs :=
          if reqs.erase reqId = [] then m.loadEventToReqs.erase event
          else m.loadEventToReqs.set event (reqs.erase reqId) }

def releaseGpuBlocks (load : Option TransferMeta) (m : Manager H) : Manager H :=
  match load with
  | none => m
  | some load => { m with gpuBlockPool := m.gpuBlockPool.map (·.freeBlocks load.gpuBlockIds) }

def cleanupPreemptLoadRequest (reqId : ReqId) : ManagerM H Unit := do
  let m ← get
  match m.preemptedReqStates.get? reqId with
  | none => pure ()
  | some state =>
    modify (forgetLoadEvent reqId state.loadEvent)
    modify (releaseGpuBlocks state.loadTransferMeta)
    cleanupPreemptCacheRequest reqId

/-- A stored block is cached under its hash, unless another block already is. -/
def commitBlock (b : Nat) (m : Manager H) : Manager H :=
  match m.cpuBlockPool.blockHash b with
  | none => m
  | some h =>
    match m.cpuBlockPool.getOneBlock h with
    | none => { m with cpuBlockPool := m.cpuBlockPool.insertCached h b }
    | some c => if c = b then m else { m with cpuBlockPool := m.cpuBlockPool.setHash b none }

def storeDone (reqId : ReqId) : ManagerM H Unit := do
  let m ← get
  match m.preemptedReqStates.get? reqId with
  | none => pure ()
  | some state =>
    modify (updateState reqId fun state => { state with ready := true })
    when state.finished (cleanupPreemptCacheRequest reqId)

def processPreemptStoreEvent (eventIdx : Nat) : ManagerM H Unit := do
  let m ← get
  match m.storeEventToBlocks.get? eventIdx with
  | none => raise (.unknownStoreEvent eventIdx)
  | some transfer =>
    modify fun m => { m with
      storeEventToBlocks := m.storeEventToBlocks.erase eventIdx
      storeEventToReqs := m.storeEventToReqs.erase eventIdx }
    modify fun m => transfer.cpuBlockIds.foldl (fun m b => commitBlock b m) m
    forEach (m.storeEventToReqs.getD eventIdx []) storeDone

def countStoreEvent (report : Nat × Nat) : ManagerM H Unit := do
  let m ← get
  let total := m.storeEventPendingCounts.getD report.1 0 + report.2
  if m.expectedWorkerCount ≤ total then
    modify fun m => { m with storeEventPendingCounts := m.storeEventPendingCounts.erase report.1 }
    processPreemptStoreEvent report.1
  else
    modify fun m => { m with
      storeEventPendingCounts := m.storeEventPendingCounts.set report.1 total }

/-- `completedStoreEvents` are the items of the workers' metadata, none if there is no metadata. -/
def updateConnectorOutput (finishedRecving : List ReqId) (completedStoreEvents : List (Nat × Nat)) :
    ManagerM H Unit := do
  forEach finishedRecving cleanupPreemptLoadRequest
  forEach completedStoreEvents countStoreEvent

def Manager.hasPendingTransfers (m : Manager H) : Bool :=
  !m.storeEventPendingCounts.keys.isEmpty || !m.storeEventToBlocks.keys.isEmpty ||
    m.preemptedReqStates.values.any fun state => !state.ready || state.loadTransferMeta.isSome

def resetCache : ManagerM H Bool := do
  let m ← get
  if m.hasPendingTransfers then return false
  else
    forEach m.preemptedReqStates.keys cleanupPreemptCacheRequest
    let m ← get
    modify fun m => { m with
      storeEventToReqs := ∅
      storeEventToBlocks := ∅
      loadEventToReqs := ∅
      pendingHashBlocks := ∅
      cpuBlockPool := m.cpuBlockPool.resetPrefixCache.2 }
    return m.cpuBlockPool.resetPrefixCache.1

def requestFinished (reqId : ReqId) : ManagerM H Unit := do
  let m ← get
  match m.preemptedReqStates.get? reqId with
  | none => pure ()
  | some state =>
    if state.loadEvent.isSome then pure ()
    else if state.ready then cleanupPreemptCacheRequest reqId
    else modify (updateState reqId fun state => { state with finished := true })

end VllmAscend.RecomputeOffload
