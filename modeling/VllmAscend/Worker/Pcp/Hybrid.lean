import VllmAscend.Worker.Pcp.Causal

/-!
# Hybrid attention

Models with linear attention keep one contiguous part of a prefill request on each rank. Full attention is entered
by gathering the parts and taking the head and tail chunks from them, and left by gathering the outputs and taking
the own part back.
-/

namespace VllmAscend.Worker.Pcp

open Ragged

def getCpLocalSeqLens (seqLens : List Nat) (pcpWorldSize dcpWorldSize cpKvCacheInterleaveSize : Nat) :
    List (List (List Nat)) :=
  let totalWorldSize := pcpWorldSize * dcpWorldSize
  seqLens.map fun seqLen =>
    let base := seqLen / cpKvCacheInterleaveSize / totalWorldSize * cpKvCacheInterleaveSize
    let remainder := (seqLen : Int) - base * totalWorldSize
    (List.range pcpWorldSize).map fun pcpRank => (List.range dcpWorldSize).map fun dcpRank =>
      let rankOffset := pcpRank * dcpWorldSize + dcpRank
      base + (min (max (remainder - rankOffset * cpKvCacheInterleaveSize) 0) cpKvCacheInterleaveSize).toNat

def everyNth {α : Type*} (step : Nat) (rows : List α) : List α :=
  (List.range (cdiv rows.length step)).filterMap fun i => rows[i * step]?

/-- A batch of a model with hybrid attention. Without speculation a decode request has one token. -/
structure HybridBatch extends Batch where
  speculativeConfig : Bool
  decode_single : speculativeConfig = false → ∀ n ∈ numScheduledTokens.take numDecodeReqs, n = 1

structure HybridSplit where
  numPaddedScheduledTokens : List Nat
  positionsLinear : List Nat
  pcpTokens : List Nat
  pcpUnpadMask : List Bool
  pcpEnterFaRestoreIdx : List Nat
  pcpExitFaScatterIdx : List Nat
  pcpFaQueryIdx : List Nat
  pcpPaddedTokensFla : Nat
  maxNumTokensAcrossPcp : Nat
  totalNumScheduledTokens : Nat

namespace HybridBatch

variable (batch : HybridBatch) (pcpWorldSize : Nat)

def prefillTokensTensor : List Nat := batch.numScheduledTokens.drop batch.numDecodeReqs

def numPrefillTokensAllranks : List (List Nat) :=
  (getCpLocalSeqLens batch.prefillTokensTensor pcpWorldSize 1 1).map fun ranks => ranks.map (·.getD 0 0)

def numPrefillScheduledTokensLinear (rank : Nat) : List Nat :=
  (batch.numPrefillTokensAllranks pcpWorldSize).map (·.getD rank 0)

def numLinearScheduledTokens (rank : Nat) : List Nat :=
  ((batch.numPaddedScheduledTokens pcpWorldSize).take batch.numDecodeReqs).map (· / pcpWorldSize) ++
    batch.numPrefillScheduledTokensLinear pcpWorldSize rank

def numPrefillTokensCuRanks (rank : Nat) : List Nat :=
  (batch.numPrefillTokensAllranks pcpWorldSize).map fun ranks => (0 :: cumsum ranks).getD rank 0

def positionsLinear (rank : Nat) : Option (List Nat) :=
  (getCumsumAndArange (batch.numLinearScheduledTokens pcpWorldSize rank)).map fun sums =>
    sums.2.take batch.numDecodeTokens ++ List.zipWith (· + ·) (sums.2.drop batch.numDecodeTokens)
      (repeats (batch.numPrefillTokensCuRanks pcpWorldSize rank)
        (batch.numPrefillScheduledTokensLinear pcpWorldSize rank))

def maxScheduledPrefillTokens : Nat := (batch.numPrefillScheduledTokensLinear pcpWorldSize 0).sum

def maxScheduledTokens : Nat := batch.maxScheduledPrefillTokens pcpWorldSize + batch.numDecodeTokens

/-- Per request and rank the tokens of the requests before; the running sums along the first axis. -/
def prefillLocalStartLocal : List (List Nat) :=
  (List.range (batch.numPrefillTokensAllranks pcpWorldSize).length).map fun i =>
    (List.range pcpWorldSize).map fun rank =>
      (((batch.numPrefillTokensAllranks pcpWorldSize).take i).map (·.getD rank 0)).sum

def enterFaPrefillRestoreIdx : Option (List Nat) :=
  let counts := (batch.numPrefillTokensAllranks pcpWorldSize).flatten
  if batch.numDecodeReqs < batch.numReqs then
    (getCumsumAndArange counts).bind fun prefillArangeAllranks =>
      (getCumsumAndArange (List.replicate (batch.numReqs - batch.numDecodeReqs) pcpWorldSize)).map
        fun prefillRankOffset =>
          let prefillAllOffset := (repeats (prefillRankOffset.2.map (· * batch.maxScheduledTokens pcpWorldSize))
            counts).map (· + batch.numDecodeTokens)
          let prefillLocalOffset := repeats (batch.prefillLocalStartLocal pcpWorldSize).flatten counts
          List.zipWith (· + ·) (List.zipWith (· + ·) prefillAllOffset prefillLocalOffset) prefillArangeAllranks.2
  else some []

/-- The places of the decode tokens, in one of two layouts. -/
def enterFaDecodeRestoreIdx : Option (List Nat) :=
  if 0 < batch.numDecodeReqs then
    if batch.speculativeConfig then
      let decodeReqsOffset := (List.replicate pcpWorldSize (List.range batch.numDecodeTokens)).flatten
      let decodeRanksOffset := (repeats (List.range pcpWorldSize)
        (List.replicate pcpWorldSize batch.numDecodeTokens)).map (· * batch.maxScheduledTokens pcpWorldSize)
      some (List.zipWith (· + ·) decodeReqsOffset decodeRanksOffset)
    else
      let numDecodePcpSize := List.replicate batch.numDecodeReqs pcpWorldSize
      (getCumsumAndArange numDecodePcpSize).map fun sums =>
        List.zipWith (· + ·) (repeats (List.range batch.numDecodeReqs) numDecodePcpSize)
          (sums.2.map (· * batch.maxScheduledTokens pcpWorldSize))
  else some []

/-! ## Leaving full attention -/

def allPositionsPrefill : Option (List (List Nat)) := do
  let padded ← getCumsumAndArange (batch.numPaddedScheduledTokens pcpWorldSize)
  let tokens ← getCumsumAndArange (batch.pcpTokens pcpWorldSize)
  let chunks ← getCumsumAndArange (batch.pcpChunkSizes pcpWorldSize)
  let positions ← (List.range pcpWorldSize).mapM (batch.getCurrentRankPositions pcpWorldSize
    (batch.pcpHeadChunkMask pcpWorldSize tokens.2) chunks.2 (Batch.paddedPosStartLoc padded.1))
  some (positions.map fun rank => (rank.drop batch.numDecodeTokens).map (· - batch.numDecodeTokens * pcpWorldSize))

def exitFaScatterIndices (rank : Nat) (positionsLinear : List Nat) : List Nat :=
  let oriTokensStartLoc := 0 :: (cumsum batch.prefillTokensTensor).dropLast
  List.zipWith (· + ·) (positionsLinear.drop batch.numDecodeTokens)
    (repeats oriTokensStartLoc (batch.numPrefillScheduledTokensLinear pcpWorldSize rank))

/-- `exit_fa_scatter_idx` and `positions_prefill`, recorded where there are prefills. -/
def exitFaIdx (rank : Nat) (pcpUnpadMask : List Bool) (positionsLinear : List Nat) : Option (List Nat × List Nat) :=
  if batch.numDecodeReqs < batch.numReqs then
    (batch.allPositionsPrefill pcpWorldSize).bind fun allPositions =>
      let allExitFaRestoreIdx := argsort allPositions.flatten
      let unpadMaskPrefill := pcpUnpadMask.drop (batch.numDecodeTokens * pcpWorldSize)
      (indexSelect (maskSelect allExitFaRestoreIdx unpadMaskPrefill)
        (batch.exitFaScatterIndices pcpWorldSize rank positionsLinear)).map fun scatter =>
          (scatter, allPositions.getD rank [])
  else some ([], [])

def updateTokensForPcpHybrid (rank : Nat) : Option HybridSplit := do
  let split ← batch.updateTokensForPcp pcpWorldSize rank
  let positionsLinear ← batch.positionsLinear pcpWorldSize rank
  let enterPrefill ← batch.enterFaPrefillRestoreIdx pcpWorldSize
  let enterDecode ← batch.enterFaDecodeRestoreIdx pcpWorldSize
  let exit ← batch.exitFaIdx pcpWorldSize rank split.pcpUnpadMask positionsLinear
  some { numPaddedScheduledTokens := batch.numLinearScheduledTokens pcpWorldSize rank
         positionsLinear := positionsLinear
         pcpTokens := split.pcpTokens
         pcpUnpadMask := split.pcpUnpadMask
         pcpEnterFaRestoreIdx := enterDecode ++ enterPrefill
         pcpExitFaScatterIdx := exit.1
         pcpFaQueryIdx := exit.2
         pcpPaddedTokensFla := batch.maxScheduledPrefillTokens pcpWorldSize -
           (batch.numPrefillScheduledTokensLinear pcpWorldSize rank).sum
         maxNumTokensAcrossPcp := batch.maxScheduledTokens pcpWorldSize
         totalNumScheduledTokens := (batch.numLinearScheduledTokens pcpWorldSize rank).sum }

end HybridBatch

/-! ## Attention -/

namespace HybridSplit

variable (split : HybridSplit)

def tokens : List (Nat × Nat) :=
  List.zip (repeats (List.range split.numPaddedScheduledTokens.length) split.numPaddedScheduledTokens)
    split.positionsLinear

def paddedRows : List (Option (Nat × Nat)) :=
  ((split.tokens.take split.totalNumScheduledTokens).map some ++ List.replicate split.pcpPaddedTokensFla none).take
    split.maxNumTokensAcrossPcp

end HybridSplit

def actualQkv (pcpWorldSize : Nat) (splits : Nat → HybridSplit) (rank : Nat) : Option (List (Option (Nat × Nat))) :=
  indexSelect ((List.range pcpWorldSize).flatMap fun rank => (splits rank).paddedRows) (splits rank).pcpEnterFaRestoreIdx

/-- `qkv_fa_padding_workspace`: the decode rows, and the prefill rows with zeros at the padding. -/
def qkvFaPaddingWorkspace (pcpWorldSize numDecodeTokens : Nat) (splits : Nat → HybridSplit) (rank : Nat) :
    Option (List (Option (Nat × Nat))) :=
  (actualQkv pcpWorldSize splits rank).bind fun actualQkv =>
    let decodeOffset := numDecodeTokens * pcpWorldSize
    let numActualTokensPcpPadded := (splits rank).pcpTokens.sum * pcpWorldSize
    (assignMask (List.replicate (numActualTokensPcpPadded - decodeOffset) none)
      ((splits rank).pcpUnpadMask.drop decodeOffset) (actualQkv.drop decodeOffset)).map
        (actualQkv.take decodeOffset ++ ·)

def qFa (pcpWorldSize numDecodeTokens : Nat) (splits : Nat → HybridSplit) (rank : Nat) :
    Option (List (Option (Nat × Nat)) × List (Option (Nat × Nat))) :=
  (qkvFaPaddingWorkspace pcpWorldSize numDecodeTokens splits rank).bind fun q =>
    let decodeOffset := numDecodeTokens * pcpWorldSize
    (indexSelect (q.drop decodeOffset) (splits rank).pcpFaQueryIdx).map fun prefills =>
      (everyNth pcpWorldSize (q.take decodeOffset), prefills)

/-- The rows of `attn_output_prefill` on a rank after the outputs of all ranks are gathered, each named
by the token that it is the output of. -/
def exitFa (pcpWorldSize numDecodeTokens : Nat) (splits : Nat → HybridSplit) (rank : Nat) :
    Option (List (Option (Nat × Nat))) :=
  ((List.range pcpWorldSize).mapM fun rank => (qFa pcpWorldSize numDecodeTokens splits rank).map (·.2)).bind
    fun outputs => indexSelect outputs.flatten (splits rank).pcpExitFaScatterIdx

end VllmAscend.Worker.Pcp
