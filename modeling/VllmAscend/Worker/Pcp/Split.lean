import VllmAscend.Lib.BlockSearch
import VllmAscend.Lib.Flat

/-!
# Splitting a batch over the ranks of prefill context parallelism

A prefill request is padded to a multiple of `2 * pcp_world_size` tokens and cut into as many chunks; a rank takes
one from the head and the one that mirrors it from the tail. Token counts stay below the size where the conversions
to `float` round.
-/

namespace VllmAscend.Worker.Pcp

open Ragged

structure Batch where
  numScheduledTokens : List Nat
  numDecodeReqs : Nat
  tokens_pos : ∀ n ∈ numScheduledTokens, 0 < n
  nonempty : numScheduledTokens ≠ []
  decodes_le : numDecodeReqs ≤ numScheduledTokens.length

def getCumsumAndArange (numScheduledTokens : List Nat) : Option (List Nat × List Nat) :=
  if numScheduledTokens.isEmpty then none
  else some (cumsum numScheduledTokens, batchedArange numScheduledTokens)

structure TokenSplit where
  pcpTokens : List Nat
  positions : List Nat
  numPcpPads : List Nat
  pcpUnpadMask : List Bool
  pcpAllgatherRestoreIdx : List Nat

namespace Batch

variable (batch : Batch) (pcpWorldSize : Nat)

def numReqs : Nat := batch.numScheduledTokens.length

def numDecodeTokens : Nat := (batch.numScheduledTokens.take batch.numDecodeReqs).sum

def numPaddedScheduledTokens : List Nat :=
  assignPrefix (batch.numScheduledTokens.map fun n => cdiv n (2 * pcpWorldSize) * (2 * pcpWorldSize))
    ((batch.numScheduledTokens.take batch.numDecodeReqs).map (· * pcpWorldSize))

def numPcpPads : List Nat :=
  List.zipWith (· - ·) (batch.numPaddedScheduledTokens pcpWorldSize) batch.numScheduledTokens

def pcpUnpadMask (pcpPaddedArange : List Nat) : List Bool :=
  let mask := List.zipWith (fun p n => decide (p < n)) pcpPaddedArange
    (repeats batch.numScheduledTokens (batch.numPaddedScheduledTokens pcpWorldSize))
  assignPrefix mask ((List.range (batch.numDecodeTokens * pcpWorldSize)).map (· % pcpWorldSize == 0))

def pcpTokens : List Nat := (batch.numPaddedScheduledTokens pcpWorldSize).map (· / pcpWorldSize)

def pcpChunkSizes : List Nat :=
  assignPrefix ((batch.pcpTokens pcpWorldSize).map fun n => max (n / 2) 1)
    ((batch.pcpTokens pcpWorldSize).take batch.numDecodeReqs)

def pcpHeadChunkMask (pcpArange : List Nat) : List Bool :=
  List.zipWith (fun p c => decide (p < c)) pcpArange
    (repeats (batch.pcpChunkSizes pcpWorldSize) (batch.pcpTokens pcpWorldSize))

def getCurrentRankPositions (pcpHeadChunkMask : List Bool) (pcpChunkArange positionsStartLoc : List Nat)
    (rank : Nat) : Option (List Nat) := do
  let pcpChunkSizes := batch.pcpChunkSizes pcpWorldSize
  let positions := List.replicate pcpHeadChunkMask.length 0
  let headStartLoc := List.zipWith (fun start c => start + rank * c) positionsStartLoc pcpChunkSizes
  let tailStartLoc := List.zipWith (fun start c => start + (2 * pcpWorldSize - rank - 1) * c) positionsStartLoc
    pcpChunkSizes
  let positions ← assignMask positions pcpHeadChunkMask
    (List.zipWith (· + ·) pcpChunkArange (repeats headStartLoc pcpChunkSizes))
  assignMask positions (pcpHeadChunkMask.map not)
    (List.zipWith (· + ·) (pcpChunkArange.drop batch.numDecodeTokens)
      ((repeats tailStartLoc pcpChunkSizes).drop batch.numDecodeTokens))

def paddedPosStartLoc (cuPaddedTokens : List Nat) : List Nat := 0 :: cuPaddedTokens.dropLast

def assignDecodePositions (positions : List Nat) : Option (List Nat) :=
  if 0 < batch.numDecodeReqs then
    (getCumsumAndArange (batch.numScheduledTokens.take batch.numDecodeReqs)).map fun sums =>
      assignPrefix positions sums.2
  else some positions

def updateTokensForPcp (pcpWorldRank : Nat) : Option TokenSplit := do
  let padded ← getCumsumAndArange (batch.numPaddedScheduledTokens pcpWorldSize)
  let tokens ← getCumsumAndArange (batch.pcpTokens pcpWorldSize)
  let chunks ← getCumsumAndArange (batch.pcpChunkSizes pcpWorldSize)
  let headMask := batch.pcpHeadChunkMask pcpWorldSize tokens.2
  let positions ← batch.getCurrentRankPositions pcpWorldSize headMask chunks.2
    (List.replicate batch.numReqs 0) pcpWorldRank
  let positions ← batch.assignDecodePositions positions
  let allPositions ← (List.range pcpWorldSize).mapM
    (batch.getCurrentRankPositions pcpWorldSize headMask chunks.2 (paddedPosStartLoc padded.1))
  some { pcpTokens := batch.pcpTokens pcpWorldSize
         positions := positions
         numPcpPads := batch.numPcpPads pcpWorldSize
         pcpUnpadMask := batch.pcpUnpadMask pcpWorldSize padded.2
         pcpAllgatherRestoreIdx := argsort allPositions.flatten }

end Batch

def getLogitsIndices (pcpWorldSize : Nat) (numPcpPads cuNumTokens : List Nat) : List Int :=
  List.zipWith (fun (cu pads : Nat) => (cu : Int) * pcpWorldSize - pads - 1) cuNumTokens numPcpPads

end VllmAscend.Worker.Pcp
