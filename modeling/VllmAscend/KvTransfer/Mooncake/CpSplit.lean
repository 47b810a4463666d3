import Mathlib.Algebra.Order.Floor.Div
import VllmAscend.KvTransfer.Mooncake.CpPorts

/-!
# Which kernel blocks go where

A block of an engine is cut into kernel blocks of a size that both engines share. With context parallelism, block
`p` of the prompt is at index `p / size` of rank `p % size`, in the block size of each engine.
-/

namespace VllmAscend.KvTransfer.Mooncake

structure SplitGroup where
  isMamba : Bool
  blockSizeScale : Nat
  compressRatio : Nat
  numKeyValueHeads : Nat

structure SplitMeta where
  remotePtpSize : Option Nat
  remotePcpSize : Nat
  remoteDcpSize : Nat
  remotePort : Nat
  remoteBlockSize : Nat
  numExternalTokens : Nat
  numComputedTokens : Nat
  numPromptBlocks : Nat
  localBlockIds : List (List Nat)
  remoteBlockIds : List (List Nat)

structure SplitWorker extends RankConfig where
  blockSize : Nat
  pcpSize : Nat
  dcpSize : Nat
  tpRank : Nat
  pcpRank : Nat
  sideChannelPort : Nat
  isHmaRequired : Bool
  groups : List SplitGroup

structure SplitMetadata where
  remoteHandshakePortList : List (List Nat)
  localBlockIdsList : List (List (List Nat))
  remoteBlockIdsList : List (List (List Nat))
  deriving DecidableEq

structure CpParams where
  remoteBlockSize : Nat
  localCpRank : Nat
  localCpSize : Nat
  remoteCpSize : Nat
  rBlk : Nat

def CpParams.firstD (p : CpParams) (numPrefixDBlocks : Nat) : Nat :=
  numPrefixDBlocks + (((p.localCpRank : Int) - numPrefixDBlocks) % p.localCpSize).toNat

def pyIndex {α : Type*} (l : List α) (i : Int) : Option α :=
  if 0 ≤ i then l[i.toNat]?
  else if -(l.length : Int) ≤ i then l[(l.length + i).toNat]?
  else none

/-- `l.append(l.pop(i))`, when there is something to move. -/
def moveLast {α : Type*} (i : Option Nat) (l : List α) : Option (List α) :=
  match i with
  | none => some l
  | some i => l[i]?.map fun x => l.eraseIdx i ++ [x]

def expandBlockIds (blockIds : List Nat) (scale : Nat) : List Nat :=
  blockIds.flatMap fun bid => (List.range scale).map fun offset => bid * scale + offset

/-- How many blocks of each remote rank are left to pull: its blocks of the prompt without its
blocks of the prefix. -/
def remoteBlockNumsAll (numPromptBlocks numPrefixCachedBlocks remoteCpSize : Nat) : List Nat :=
  (List.range remoteCpSize).map fun i =>
    (numPromptBlocks / remoteCpSize + if i < numPromptBlocks % remoteCpSize then 1 else 0) -
      numPrefixCachedBlocks / remoteCpSize -
      if i < numPrefixCachedBlocks % remoteCpSize then 1 else 0

namespace SplitWorker

variable (w : SplitWorker)

def dcpRank : Nat := w.tpRank % w.dcpSize

def handshakePort : Nat := w.sideChannelPort + w.pcpRank * w.tpSize + w.tpRank

def remoteTpSize (m : SplitMeta) : Nat := m.remotePtpSize.getD w.prefillTpSize

def engines (m : SplitMeta) : CpEngines :=
  { prefill :=
      { tpSize := w.remoteTpSize m
        pcpSize := m.remotePcpSize
        dcpSize := m.remoteDcpSize
        portBase := m.remotePort }
    decode :=
      { tpSize := w.tpSize
        pcpSize := w.pcpSize
        dcpSize := w.dcpSize
        portBase := w.sideChannelPort }
    numKeyValueHeads := w.numKeyValueHeads
    useMla := w.isDeepseekMla
    useSparse := w.useSparse }

def remoteBlockSizeOf (m : SplitMeta) : Nat := if m.remoteBlockSize = 0 then w.blockSize else m.remoteBlockSize

def blockSizesFit (m : SplitMeta) : Bool :=
  let remoteBlockSize := w.remoteBlockSizeOf m
  let localCpSize := w.dcpSize * w.pcpSize
  let remoteCpSize := m.remotePcpSize * m.remoteDcpSize
  remoteBlockSize ≠ w.blockSize →
    (w.blockSize % remoteBlockSize = 0 ∨ remoteBlockSize % w.blockSize = 0) ∧
      (localCpSize > 1 → w.blockSize % remoteBlockSize = 0 ∧ remoteCpSize / localCpSize % (w.blockSize /
        remoteBlockSize) = 0)

def getLocalRemoteCpParams (m : SplitMeta) : Option CpParams :=
  let remoteBlockSize := w.remoteBlockSizeOf m
  if w.blockSizesFit m then
    some
      { remoteBlockSize := remoteBlockSize
        localCpRank := w.dcpRank + w.pcpRank * w.dcpSize
        localCpSize := w.dcpSize * w.pcpSize
        remoteCpSize := m.remotePcpSize * m.remoteDcpSize
        rBlk := if w.blockSize > remoteBlockSize then w.blockSize / remoteBlockSize else 1 }
  else none

def groupKernelParams (remoteBlockSize : Nat) (g : SplitGroup) : Option (Nat × Nat) :=
  let kernelSize := w.blockSize / g.blockSizeScale
  if g.isMamba then some (0, 0)
  else if remoteBlockSize % kernelSize = 0 then some (remoteBlockSize / kernelSize, kernelSize)
  else none

def largeBlockKernelIds (tokenStart : Int) (kernelsPerPBlock kernelSize : Nat)
    (localBlockIds : List Nat) : Option (List Nat) :=
  let localTokenLimit : Int := localBlockIds.length * w.blockSize
  -- The trailing kernels of a partial last block have no token here.
  let offsets := ((List.range kernelsPerPBlock).map fun kernelIdx =>
    tokenStart + (kernelIdx * kernelSize : Nat)).takeWhile (· < localTokenLimit)
  offsets.mapM fun tokenOffset => do
    let dBlock ← pyIndex localBlockIds (tokenOffset / w.blockSize)
    some (dBlock * (w.blockSize / kernelSize) + (tokenOffset % w.blockSize).toNat / kernelSize)

def smallBlockKernelIds (globalPBlock rankFirstDBlock blockSizeRatio localCpSize remoteBlockSize
    kernelSize : Nat) (localBlockIds : List Nat) : Option (List Nat) :=
  let dBlockLocalIdx : Int := ((globalPBlock / blockSizeRatio : Nat) - (rankFirstDBlock : Int)) / localCpSize
  if dBlockLocalIdx ≥ localBlockIds.length then some []
  else do
    let dBlock ← pyIndex localBlockIds dBlockLocalIdx
    let firstKernelInDBlock := globalPBlock % blockSizeRatio * remoteBlockSize / kernelSize
    some ((List.range (remoteBlockSize / kernelSize)).map fun kernelIdx =>
      dBlock * (w.blockSize / kernelSize) + firstKernelInDBlock + kernelIdx)

def localKernelIdsForShard (shardFirstPBlock numBlocksToPull shardCpRank numPrefixPBlocks
    rankFirstDBlock : Nat) (p : CpParams) (kernelSize : Nat) (localBlockIds : List Nat) :
    Option (List Nat) :=
  ((List.range numBlocksToPull).mapM fun blockIdx =>
    let globalPBlock := (shardFirstPBlock + blockIdx) * p.remoteCpSize + shardCpRank
    if p.remoteBlockSize > w.blockSize then
      w.largeBlockKernelIds (((globalPBlock : Int) - numPrefixPBlocks) * p.remoteBlockSize)
        (p.remoteBlockSize / kernelSize) kernelSize localBlockIds
    else
      w.smallBlockKernelIds globalPBlock rankFirstDBlock p.rBlk p.localCpSize p.remoteBlockSize
        kernelSize localBlockIds).map List.flatten

/-! ## Ports of hybrid models -/

def swapReplica (m : SplitMeta) (groupSpan nReplica remoteDcp chosenRank port : Nat) : Nat :=
  let tpOff := (port - m.remotePort) % w.remoteTpSize m
  let pcpSeg := port - m.remotePort - tpOff
  let groupOff := tpOff / groupSpan * groupSpan
  let dcpPart := (tpOff - groupOff) % remoteDcp
  m.remotePort + pcpSeg + groupOff + chosenRank / remoteDcp % nReplica * remoteDcp + dcpPart

def appendMambaPorts (m : SplitMeta) (finalPorts : List Nat) : Option (List Nat) := do
  let k := w.remoteTpSize m / w.tpSize
  let first ← finalPorts.head?
  let pcpSeg := (first - m.remotePort) / w.remoteTpSize m * w.remoteTpSize m
  some ((List.range k).foldl (fun ports j =>
    let p := m.remotePort + pcpSeg + w.tpRank * k + j
    if p ∈ ports then ports else ports ++ [p]) finalPorts)

def setHmaSharedPort (rand : Sampler) (m : SplitMeta) (portList : List (List Nat)) :
    Option (List (List Nat)) :=
  if w.isHmaRequired ∧ ¬ (w.isDeepseekMla ∨ w.useSparse) then do
    let remoteDcp := max m.remoteDcpSize 1
    let kvHeadGroups ← getKvHeadGroups false w.numKeyValueHeads (w.remoteTpSize m)
    let groupSpan := w.remoteTpSize m / kvHeadGroups.length
    let nReplica := max (groupSpan / remoteDcp) 1
    let chosenTpList ← w.getRemoteRank rand (w.remoteTpSize m) w.tpRank
    let portList ←
      if nReplica > 1 then
        portList.mapM fun shardPorts => shardPorts.zipIdx.mapM fun p =>
          chosenTpList[p.2 % chosenTpList.length]?.map fun chosenRank =>
            w.swapReplica m groupSpan nReplica remoteDcp chosenRank p.1
      else some portList
    let finalPorts ← portList.getLast?
    let finalPorts ← w.appendMambaPorts m finalPorts
    some (portList.dropLast ++ [finalPorts])
  else some portList

/-! ## `_get_kv_split_metadata` -/

def shardGroup (p : CpParams) (numPrefixPBlocks firstD numBlocksToPull shardCpRank : Nat)
    (isFinalShard : Bool) (g : SplitGroup) (kernelParams : Nat × Nat)
    (localBlockIds remoteBlockIds : List Nat) : Option (List Nat × List Nat) :=
  if g.isMamba then
    -- The state is not dealt to the ranks: the last shard carries it.
    some (if isFinalShard then (localBlockIds, remoteBlockIds) else ([], []))
  else do
    let remoteFirst := (numPrefixPBlocks + p.remoteCpSize - 1 - shardCpRank) / p.remoteCpSize
    let remoteLogical := (remoteBlockIds.drop remoteFirst).take numBlocksToPull
    let kernelRemote := expandBlockIds remoteLogical kernelParams.1
    let kernelLocal ← w.localKernelIdsForShard remoteFirst numBlocksToPull shardCpRank
      numPrefixPBlocks firstD p kernelParams.2 localBlockIds
    let numKernelBlocks := min kernelRemote.length kernelLocal.length
    some (kernelLocal.take numKernelBlocks, kernelRemote.take numKernelBlocks)

def shardGroups (m : SplitMeta) (p : CpParams) (kernelParams : List (Nat × Nat))
    (numPrefixPBlocks firstD numBlocksToPull shardCpRank : Nat) (isFinalShard : Bool) :
    Option (List (List Nat × List Nat)) :=
  w.groups.zipIdx.mapM fun g => do
    let kernel ← kernelParams[g.2]?
    let localBlockIds ← m.localBlockIds[g.2]?
    let remoteBlockIds ← m.remoteBlockIds[g.2]?
    w.shardGroup p numPrefixPBlocks firstD numBlocksToPull shardCpRank isFinalShard g.1 kernel
      localBlockIds remoteBlockIds

def requestFits (m : SplitMeta) (p : CpParams) : Bool :=
  let sequenceGroupIdx := (w.groups.findIdx? fun g => ¬ g.isMamba).getD 0
  m.localBlockIds[sequenceGroupIdx]?.map List.length =
      some (m.numExternalTokens ⌈/⌉ w.blockSize ⌈/⌉ (w.pcpSize * w.dcpSize)) ∧
    m.numExternalTokens ⌈/⌉ p.remoteBlockSize ≤ m.numPromptBlocks

def collectShards (rand : Sampler) (m : SplitMeta) (p : CpParams) (kernelParams : List (Nat × Nat))
    (numPrefixPBlocks : Nat) (shardCpRanks blockNums : List Nat) (mapping : List (List Nat)) :
    Option SplitMetadata := do
  let firstD := p.firstD (numPrefixPBlocks / p.rBlk)
  let first ← mapping.head?
  let portList ← (List.range first.length).mapM fun idx => mapping.mapM fun l => l[idx]?
  let portList ← w.setHmaSharedPort rand m portList
  let shards ← (List.range portList.length).mapM fun idx => do
    let numBlocksToPull ← blockNums[idx]?
    let shardCpRank ← shardCpRanks[idx]?
    w.shardGroups m p kernelParams numPrefixPBlocks firstD numBlocksToPull shardCpRank
      (idx + 1 = portList.length)
  let firstPorts ← portList.head?
  let tpNumNeedPulls := w.getTpNumNeedPulls (some (w.remoteTpSize m))
  if if w.isHmaRequired then tpNumNeedPulls ≤ firstPorts.length
      else tpNumNeedPulls = firstPorts.length then
    some
      { remoteHandshakePortList := portList
        localBlockIdsList := shards.map fun shard => shard.map Prod.fst
        remoteBlockIdsList := shards.map fun shard => shard.map Prod.snd }
  else none

/-- The ranks of the shards, with the last block of the prompt, which may be partial, put last. -/
def orderShards (rand : Sampler) (m : SplitMeta) (p : CpParams) (kernelParams : List (Nat × Nat))
    (mapping : List (List Nat)) : Option SplitMetadata := do
  let lastBlockLocation := (m.numPromptBlocks % p.remoteCpSize + p.remoteCpSize - 1) % p.remoteCpSize
  let numPrefixPBlocks := m.numPromptBlocks - m.numExternalTokens ⌈/⌉ p.remoteBlockSize
  let remoteBlockNums := remoteBlockNumsAll m.numPromptBlocks numPrefixPBlocks p.remoteCpSize
  let shardCpRanks := (List.range p.remoteCpSize).filter fun cpRank => cpRank / p.rBlk % p.localCpSize = p.localCpRank
  let blockNums ← shardCpRanks.mapM fun cpRank => remoteBlockNums[cpRank]?
  let finalBlockIdx := shardCpRanks.findIdx? (· = lastBlockLocation)
  let shardCpRanks ← moveLast finalBlockIdx shardCpRanks
  let blockNums ← moveLast finalBlockIdx blockNums
  let mapping ← mapping.mapM (moveLast finalBlockIdx)
  if p.rBlk > 1 ∧ numPrefixPBlocks % p.rBlk ≠ 0 then none
  else w.collectShards rand m p kernelParams numPrefixPBlocks shardCpRanks blockNums mapping

def cpSplitMetadata (rand : Sampler) (m : SplitMeta) : Option SplitMetadata := do
  let p ← w.getLocalRemoteCpParams m
  let kernelParams ← w.groups.mapM (w.groupKernelParams p.remoteBlockSize)
  let mappings ← (w.engines m).getLocalRemoteBlockPortMappings p.rBlk
  let mapping ← mappings.get? w.handshakePort
  if w.requestFits m p then w.orderShards rand m p kernelParams mapping else none

def getKernelBlockIds (m : SplitMeta) (g : SplitGroup) (localBlockIds remoteBlockIds : List Nat) :
    Option (List Nat × List Nat) :=
  let remoteBlockSize := w.remoteBlockSizeOf m
  let kernelSize := w.blockSize / g.blockSizeScale
  if g.isMamba then some (localBlockIds, remoteBlockIds)
  else if remoteBlockSize % kernelSize = 0 then
    let kernelLocal := expandBlockIds localBlockIds g.blockSizeScale
    let remoteStartIdx := m.numComputedTokens / (kernelSize * g.compressRatio)
    let kernelRemote := (expandBlockIds remoteBlockIds (remoteBlockSize / kernelSize)).drop remoteStartIdx
    let numKernelBlocks := min kernelRemote.length kernelLocal.length
    some (kernelLocal.take numKernelBlocks, kernelRemote.take numKernelBlocks)
  else none

def plainSplitMetadata (rand : Sampler) (m : SplitMeta) : Option SplitMetadata := do
  let chosenRankList ←
    if w.isHmaRequired then
      (w.getHybridRemoteRankGroupPulls rand (w.groups.zipIdx.map fun g =>
        (g.2, if g.1.isMamba then .mamba else .attention g.1.numKeyValueHeads)) (w.remoteTpSize m)
        w.tpRank).map Dict.keys
    else w.getRemoteRank rand (w.remoteTpSize m) w.tpRank
  let groups ← w.groups.zipIdx.mapM fun g => do
    let localBlockIds ← m.localBlockIds[g.2]?
    let remoteBlockIds ← m.remoteBlockIds[g.2]?
    w.getKernelBlockIds m g.1 localBlockIds remoteBlockIds
  some
    { remoteHandshakePortList := [chosenRankList.map (· + m.remotePort)]
      localBlockIdsList := [groups.map Prod.fst]
      remoteBlockIdsList := [groups.map Prod.snd] }

def getKvSplitMetadata (rand : Sampler) (m : SplitMeta) : Option SplitMetadata :=
  if m.remotePcpSize * m.remoteDcpSize * w.pcpSize * w.dcpSize = 1 then w.plainSplitMetadata rand m
  else w.cpSplitMetadata rand m

end SplitWorker

end VllmAscend.KvTransfer.Mooncake
