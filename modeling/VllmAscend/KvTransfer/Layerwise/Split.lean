import VllmAscend.KvTransfer.Layerwise.Scheduler
import VllmAscend.Lib.RoundRobin

/-!
# Worker side of the layerwise connector: which rank sends which block where

A prefill rank holds the blocks its context-parallel rank owns, for the heads of its head group. In every step
`getKvSplitMetadata` picks the blocks that are complete by now and were not sent before, and finds the decoder
devices that hold them.
-/

namespace VllmAscend.KvTransfer.Layerwise

structure ParallelInfo where
  tpSize : Nat
  pcpSize : Nat
  dcpSize : Nat
  useMla : Bool
  pdHeadRatio : Nat

def ParallelInfo.cpSize (p : ParallelInfo) : Nat := p.pcpSize * p.dcpSize

def ParallelInfo.headGroupSize (p : ParallelInfo) : Nat := p.tpSize / p.dcpSize

def ceilDiv (a b : Nat) : Nat := (a + b - 1) / b

/-! ## Heads -/

/-- The head groups that together hold every head once; the sets are lists without order. -/
def getCpGroup (tp heads dcp : Nat) : List (List Nat) :=
  let step := tp / heads
  if step = 0 then [List.range (tp / dcp)]
  else
    (List.range (step / dcp)).map fun i =>
      ((List.range heads).flatMap fun h => (List.range' (h * step + i * dcp) dcp).map (· / dcp)).dedup

def contextParallelParametersCheck (remotePcpSize remoteDcpSize : Nat) (p d : ParallelInfo)
    (totalNumKvHeads : Nat) : Except String Unit :=
  if p.pcpSize * p.dcpSize % (remotePcpSize * remoteDcpSize) ≠ 0 then .error "AssertionError"
  else if !p.useMla ∧
      ceilDiv totalNumKvHeads d.dcpSize % ceilDiv totalNumKvHeads p.tpSize ≠ 0 then
    .error "AssertionError"
  else .ok ()

def getTpRankHeadMapping (numKeyValueHeads tpSize : Nat) : Except String (List (List Nat)) :=
  if tpSize ≤ numKeyValueHeads then
    if numKeyValueHeads % tpSize ≠ 0 then
      .error s!"Number of heads ({numKeyValueHeads}) cannot be evenly divided by TP ({tpSize})."
    else
      let headsPerRank := numKeyValueHeads / tpSize
      .ok ((List.range tpSize).map fun rank => List.range' (rank * headsPerRank) headsPerRank)
  else if tpSize % numKeyValueHeads ≠ 0 then
    .error s!"Number of heads ({numKeyValueHeads}) cannot be evenly divided by TP ({tpSize})."
  else
    let ranksPerHead := tpSize / numKeyValueHeads
    .ok ((List.range tpSize).map fun rank => [rank / ranksPerHead])

def getHeadGroupMapping (numKeyValueHeads tpSize numGroups : Nat) (selectCpGroup : List Nat) :
    Except String (List (Nat × List Nat)) :=
  if tpSize % numGroups ≠ 0 then
    .error s!"Total number of devices ({tpSize}) cannot be divided by the number of groups ({numGroups})."
  else do
    let ranksPerGroup := tpSize / numGroups
    let tpMapping ← getTpRankHeadMapping numKeyValueHeads tpSize
    return ((List.range numGroups).filter (· ∈ selectCpGroup)).map fun groupRank =>
      let heads := (List.range' (groupRank * ranksPerGroup) ranksPerGroup).flatMap fun rank => tpMapping.getD rank []
      (groupRank, heads.dedup.insertionSort (· ≤ ·))

def pdHeadMapping (pMapping dMapping : List (Nat × List Nat)) : List (Nat × List Nat) :=
  let headToDGroups (head : Nat) := (dMapping.filter (head ∈ ·.2)).map Prod.fst
  pMapping.map fun p => (p.1, (p.2.flatMap headToDGroups).dedup.insertionSort (· ≤ ·))

/-! ## Blocks -/

abbrev Device := String × Nat

structure DBlock where
  pcpRank : Nat
  dcpRank : Nat
  device : Device
  blockIdx : Int

section Mappings

variable (p d : ParallelInfo) (dHosts : List String) (dPort : Nat)

def deviceOf (pcpRank headGroupRank dcpRank : Nat) : Device :=
  let worldRank := pcpRank * d.headGroupSize * d.dcpSize + headGroupRank * d.dcpSize + dcpRank
  let worldSize := d.pcpSize * d.headGroupSize * d.dcpSize
  (dHosts.getD (dHosts.length * worldRank / worldSize) "", dPort + worldRank)

def pRankBlockMapping (selectedPCpGroup : List Nat) (toTransIdx pcpRank headGroupRank dcpRank : Nat) :
    List Nat :=
  (List.range toTransIdx).filter fun logicBlockIdx =>
    logicBlockIdx / p.dcpSize % p.pcpSize = pcpRank ∧ logicBlockIdx % p.dcpSize = dcpRank ∧
      headGroupRank ∈ selectedPCpGroup

def dBlockRank (logicBlockIdx headGroupRank : Nat) : DBlock :=
  let pcpRank := logicBlockIdx / d.dcpSize % d.pcpSize
  let dcpRank := logicBlockIdx % d.dcpSize
  { pcpRank := pcpRank
    dcpRank := dcpRank
    device := deviceOf d dHosts dPort pcpRank headGroupRank dcpRank
    blockIdx := ((logicBlockIdx : Int) - (pcpRank * d.pcpSize + dcpRank : Nat)) /
      (d.pcpSize * d.dcpSize : Nat) }

/-- How many ranks a device of this context-parallel rank waits for, before the head ratio. -/
def transCount (promptLen blockSize remoteCacheTokens currentRankIdx : Nat) : Int :=
  let transBlockSize := ceilDiv promptLen blockSize
  let transedBlockSize := ceilDiv remoteCacheTokens blockSize
  let dCpSize := d.pcpSize * d.dcpSize
  if p.pcpSize * p.dcpSize ≤ transBlockSize then ((p.pcpSize * p.dcpSize / dCpSize : Nat) : Int)
  else
    let totalGlobalBlocks := transedBlockSize + transBlockSize
    let targetTotalCount := totalGlobalBlocks / dCpSize +
      if currentRankIdx < totalGlobalBlocks % dCpSize then 1 else 0
    let prevProcessedCount := transedBlockSize / dCpSize +
      if currentRankIdx < transedBlockSize % dCpSize then 1 else 0
    (targetTotalCount : Int) - prevProcessedCount

def dTransCountMapping (promptLen blockSize remoteCacheTokens : Nat) : Dict Device Int :=
  ((List.range d.pcpSize).flatMap fun pcpRank => (List.range d.headGroupSize).flatMap fun headGroupRank =>
    (List.range d.dcpSize).map fun dcpRank =>
      (deviceOf d dHosts dPort pcpRank headGroupRank dcpRank,
        transCount p d promptLen blockSize remoteCacheTokens (pcpRank * d.dcpSize + dcpRank) *
          p.pdHeadRatio)).foldl (fun mapping e => mapping.set e.1 e.2) ∅

end Mappings

structure BlockDict where
  localBlockIds : List Nat
  remoteBlockIds : List Nat
  transCount : Int

def pyGet (l : List Nat) (i : Int) : Except String Nat :=
  let i := if i < 0 then i + l.length else i
  match if i < 0 then none else l[i.toNat]? with
  | some x => .ok x
  | none => .error "IndexError"

def addBlock (mappings : Dict Device BlockDict) (device : Device) (pBlockId dBlockId : Nat) :
    Dict Device BlockDict :=
  let entry := mappings.getD device ⟨[], [], 0⟩
  mappings.set device
    { entry with
      localBlockIds := entry.localBlockIds ++ [pBlockId]
      remoteBlockIds := entry.remoteBlockIds ++ [dBlockId] }

/-- The transfers of one rank: `blocks` are its blocks with their places, `dGroups` the decoder
head groups that share its heads. -/
def transferBlocks (d : ParallelInfo) (dHosts : List String) (dPort : Nat)
    (pBlockIds dBlockIds dGroups : List Nat) (transedIdx toTransIdx : Nat) :
    List (Nat × Nat) → Dict Device BlockDict → Except String (Dict Device BlockDict)
  | [], mappings => .ok mappings
  | (logicBlockIdx, pBlockIdx) :: blocks, mappings =>
    if logicBlockIdx < transedIdx ∨ toTransIdx ≤ logicBlockIdx then
      transferBlocks d dHosts dPort pBlockIds dBlockIds dGroups transedIdx toTransIdx blocks mappings
    else do
      let mappings ← dGroups.foldlM (fun mappings dHeadGroupRank => do
        let pBlockId ← pyGet pBlockIds pBlockIdx
        let dBlock := dBlockRank d dHosts dPort logicBlockIdx dHeadGroupRank
        let dBlockId ← pyGet dBlockIds dBlock.blockIdx
        return addBlock mappings dBlock.device pBlockId dBlockId) mappings
      transferBlocks d dHosts dPort pBlockIds dBlockIds dGroups transedIdx toTransIdx blocks mappings

/-! ## One rank -/

structure GroupSpec where
  blockSize : Nat
  isMamba : Bool
  blockSize_pos : 0 < blockSize := by decide

structure Worker where
  tpSize : Nat
  pcpSize : Nat
  dcpSize : Nat
  tpRank : Nat
  pcpRank : Nat
  dcpRank : Nat
  pdHeadRatio : Nat
  useMla : Bool
  totalNumKvHeads : Nat
  groups : List GroupSpec
  pcp_lt : pcpRank < pcpSize := by decide
  dcp_lt : dcpRank < dcpSize := by decide

namespace Worker

variable (w : Worker)

def info : ParallelInfo := ⟨w.tpSize, w.pcpSize, w.dcpSize, w.useMla, w.pdHeadRatio⟩

def cpSize : Nat := w.pcpSize * w.dcpSize

def cpRank : Nat := w.pcpRank * w.dcpSize + w.dcpRank

theorem cpRank_lt : w.cpRank < w.cpSize := by
  have hp := w.pcp_lt
  have hd := w.dcp_lt
  calc w.pcpRank * w.dcpSize + w.dcpRank < w.pcpRank * w.dcpSize + w.dcpSize := by omega
    _ = (w.pcpRank + 1) * w.dcpSize := by ring
    _ ≤ w.pcpSize * w.dcpSize := Nat.mul_le_mul_right _ hp

def headGroupRank : Nat := (w.tpRank - w.dcpRank) / w.dcpSize

/-- The blocks `[transedIdx, toTransIdx)` a step handles, and `chunk_finish` after the test for the
last block of this rank. -/
structure Span where
  transedIdx : Nat
  toTransIdx : Nat
  chunkFinish : Bool
deriving DecidableEq

def Span.blocks (s : Span) : List Nat := List.range' s.transedIdx (s.toTransIdx - s.transedIdx)

def span (blockSize : Nat) (m : ReqMeta) : Span :=
  let localTransedTokens := max m.remoteCacheTokens m.localTransedTokens
  let toTransIdx :=
    if m.chunkFinish then ceilDiv m.localComputedTokens blockSize
    else m.localComputedTokens / blockSize
  let promptBlockSize := ceilDiv m.promptLen blockSize
  let numLocalBlocks := promptBlockSize / w.cpSize + if w.cpRank < promptBlockSize % w.cpSize then 1 else 0
  let alreadySendBlocks := toTransIdx / w.cpSize + if w.cpRank < toTransIdx % w.cpSize then 1 else 0
  { transedIdx := localTransedTokens / blockSize
    toTransIdx := toTransIdx
    chunkFinish := m.chunkFinish || numLocalBlocks == alreadySendBlocks }

/-- The prefill head group sets that serve a request: the replicas take turns. -/
def selectedPCpGroups (m : ReqMeta) (reqIdx : Nat) : List (List Nat) :=
  let pCpGroup := getCpGroup w.tpSize w.totalNumKvHeads w.dcpSize
  let dCpGroup := getCpGroup m.remoteTpSize w.totalNumKvHeads m.remoteDcpSize
  let cpRatio := pCpGroup.length / dCpGroup.length
  if cpRatio = 0 then pCpGroup
  else (pCpGroup.drop (reqIdx % cpRatio * dCpGroup.length)).take dCpGroup.length

def selectCpGroups (m : ReqMeta) (reqIdx : Nat) : Except String (Option (List Nat × List Nat)) :=
  let dCpGroup := getCpGroup m.remoteTpSize w.totalNumKvHeads m.remoteDcpSize
  let pCpGroups := w.selectedPCpGroups m reqIdx
  if pCpGroups.length ≠ dCpGroup.length then .error "AssertionError"
  else .ok ((pCpGroups.zip dCpGroup).reverse.find? fun groups => w.headGroupRank ∈ groups.1)

def remoteInfo (m : ReqMeta) : ParallelInfo :=
  ⟨m.remoteTpSize, m.remotePcpSize, m.remoteDcpSize, w.useMla, w.pdHeadRatio⟩

def decoderGroups (m : ReqMeta) (reqIdx : Nat) : Except String (Option (List Nat × List Nat)) := do
  match ← w.selectCpGroups m reqIdx with
  | none => return none
  | some (selectedPCpGroup, selectedDCpGroup) =>
    let d := w.remoteInfo m
    contextParallelParametersCheck m.remotePcpSize m.remoteDcpSize w.info d w.totalNumKvHeads
    let pMapping ← getHeadGroupMapping w.totalNumKvHeads w.tpSize w.info.headGroupSize selectedPCpGroup
    let dMapping ← getHeadGroupMapping w.totalNumKvHeads d.tpSize d.headGroupSize selectedDCpGroup
    let dGroups := ((pdHeadMapping pMapping dMapping).find? (·.1 = w.headGroupRank)).map Prod.snd
    return some (selectedPCpGroup, dGroups.getD [])

def withTransCount (dTransCount : Dict Device Int) (mappings : Dict Device BlockDict) :
    Dict Device BlockDict where
  entries := mappings.entries.map fun e => (e.1, { e.2 with transCount := dTransCount.getD e.1 0 })
  nodup := by
    rw [List.map_map]
    exact mappings.nodup

def getKvSplitMetadata (m : ReqMeta) (reqIdx groupIdx blockSize : Nat) :
    Except String (ReqMeta × Dict Device BlockDict) := do
  let s := w.span blockSize m
  let m := { m with chunkFinish := s.chunkFinish }
  match ← w.decoderGroups m reqIdx with
  | none => return (m, ∅)
  | some (selectedPCpGroup, dGroups) =>
    let d := w.remoteInfo m
    let pBlockIdxs := pRankBlockMapping w.info selectedPCpGroup s.toTransIdx w.pcpRank w.headGroupRank w.dcpRank
    let mappings ← transferBlocks d [m.remoteHost] m.remotePort (m.localBlockIds.getD groupIdx [])
      (m.remoteBlockIds.getD groupIdx []) dGroups s.transedIdx s.toTransIdx pBlockIdxs.zipIdx ∅
    let dTransCount := dTransCountMapping w.info d [m.remoteHost] m.remotePort m.promptLen blockSize
      m.remoteCacheTokens
    return (m, withTransCount dTransCount mappings)

def getKvSplitMetadataForMamba (m : ReqMeta) (groupIdx : Nat) : Except String (Dict Device BlockDict) :=
  if w.tpSize < m.remoteTpSize then
    .error "Mamba group prefill TP_size must equal or larger than decode TP_size."
  else
    let tpRatio := w.tpSize / m.remoteTpSize
    if m.chunkFinish then
      .ok (Dict.set ∅ (m.remoteHost, m.remotePort + w.tpRank / tpRatio)
        { localBlockIds := m.localBlockIds.getD groupIdx []
          remoteBlockIds := m.remoteBlockIds.getD groupIdx []
          transCount := (w.tpSize / m.remoteTpSize : Nat) })
    else .ok ∅

/-- The metadata as group `groupIdx` finds it: earlier attention groups may have set
`chunk_finish`. -/
def reqMetaBefore (m : ReqMeta) (groupIdx : Nat) : ReqMeta :=
  (w.groups.take groupIdx).foldl (fun m spec =>
    if spec.isMamba then m else { m with chunkFinish := (w.span spec.blockSize m).chunkFinish }) m

/-- The loop of `start_load_kv` over the groups of a request: the metadata after all groups, and
the transfers of every group. -/
def splitGroups (m : ReqMeta) (reqIdx : Nat) : Except String (ReqMeta × List (Dict Device BlockDict)) :=
  w.groups.zipIdx.foldlM (fun acc spec =>
    if spec.1.isMamba then do
      let mappings ← w.getKvSplitMetadataForMamba acc.1 spec.2
      return (acc.1, acc.2 ++ [mappings])
    else do
      let (m, mappings) ← w.getKvSplitMetadata acc.1 reqIdx spec.2 spec.1.blockSize
      return (m, acc.2 ++ [mappings])) (m, [])

/-- The DONE messages a step leads to, with the count each carries. The sending thread signals a
request with the task of the last layer, so `lastGroup` is the group of that layer, and only when
the task has blocks of the request. -/
def doneSignals (lastGroup : Nat) (m : ReqMeta) (reqIdx : Nat) :
    Except String (List (Device × Int)) := do
  let (m, mappings) ← w.splitGroups m reqIdx
  if 1 < (mappings.flatMap Dict.keys).dedup.length then
    throw "Not support add mutil transfer task for req_id"
  return if m.chunkFinish then
    (mappings.getD lastGroup ∅).entries.filterMap fun e =>
      if e.2.localBlockIds = [] then none else some (e.1, e.2.transCount)
  else []

end Worker

end VllmAscend.KvTransfer.Layerwise
