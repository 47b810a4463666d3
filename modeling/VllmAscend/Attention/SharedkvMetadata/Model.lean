import VllmAscend.Attention.Planner.Model

/-!
# The `SparseAttnSharedkvMetadata` AICPU kernel

From the parameter checks to the table that `GenMetaData` writes. Lengths and counts are unbounded; only the
conversions of an `int32_t` to `uint32_t` wrap. A tensor is `none` when it or its data is null.
-/

namespace VllmAscend.Attention.SharedkvMetadata

/-- `static_cast<uint32_t>` of a signed value. -/
def u32 (x : Int) : Nat := (x % 2 ^ 32).toNat

def int64Max : Int := 2 ^ 63 - 1

def clip (value minValue maxValue : Int) : Int :=
  if value < minValue then minValue else if value > maxValue then maxValue else value

/-! ## Parameters -/

inductive SparseMode where
  | defaultMask | allMask | leftUpCausal | rightDownCausal | band | sparseButt
  deriving DecidableEq

def SparseMode.ofInt : Int → SparseMode
  | 0 => .defaultMask
  | 1 => .allMask
  | 2 => .leftUpCausal
  | 3 => .rightDownCausal
  | 4 => .band
  | _ => .sparseButt

inductive ValidSocVersion where
  | ascend910 | ascend950
  deriving DecidableEq

structure Params where
  actSeqLenQ : Option (List Int) := none
  actSeqLenOriKv : Option (List Int) := none
  seqUsedQ : Option (List Int) := none
  seqUsedKv : Option (List Int) := none
  /-- The output tensor, its shape and its data are all there. -/
  metaData : Bool := true
  batchSize : Int := 0
  querySeqSize : Int := 0
  queryHeadNum : Int
  kvSeqSize : Int := 0
  kvHeadNum : Int
  cmpTopK : Int := 0
  cmpRatio : Int := -1
  oriMaskMode : Int := 4
  winLeft : Int := 127
  layoutQuery : String := "BSND"
  layoutKv : String := "PA_ND"
  hasCmpKv : Bool := true
  aicCoreNum : Nat := 24
  aivCoreNum : Nat := 48
  socVersion : String := "ascend910B"

def checkSingleParam (p : Params) : Bool :=
  p.metaData && !(p.aicCoreNum == 0 || p.aivCoreNum == 0) && !decide (p.batchSize < 0) &&
  !decide (p.querySeqSize < 0) &&
  !(p.layoutKv == "BSND" && p.queryHeadNum != 64 && p.queryHeadNum != 32) &&
  p.kvHeadNum == 1 &&
  (SparseMode.ofInt p.oriMaskMode == .defaultMask ||
    SparseMode.ofInt p.oriMaskMode == .rightDownCausal ||
    SparseMode.ofInt p.oriMaskMode == .band) &&
  p.winLeft == 127 && (p.layoutQuery == "TND" || p.layoutQuery == "BSND") &&
  (p.layoutKv == "PA_ND" || p.layoutKv == "TND" || p.layoutKv == "BSND") &&
  !(p.layoutQuery == "TND" && p.layoutKv == "BSND")

def checkExistence (p : Params) : Bool :=
  !(p.layoutQuery == "TND" && p.actSeqLenQ.isNone) &&
  !(p.layoutKv == "PA_ND" && p.seqUsedKv.isNone)

def checkFeature (p : Params) : Bool :=
  !p.hasCmpKv ||
    ((p.cmpTopK == 0 || p.cmpTopK == 512 || p.cmpTopK == 1024) &&
      (p.cmpRatio == 4 || p.cmpRatio == 128))

-- `CheckConsistency` always returns true: its body is commented out.
def paramsCheck (p : Params) : Bool := checkSingleParam p && checkExistence p && checkFeature p

def getQueryBatchSize (p : Params) : Int :=
  match p.seqUsedQ with
  | some data => data.length
  | none =>
    match p.layoutQuery == "TND", p.actSeqLenQ with
    | true, some data => data.length - 1
    | _, _ => p.batchSize

def processSocVersion (p : Params) : ValidSocVersion :=
  if "Ascend950".toList <:+: p.socVersion.toList then .ascend950 else .ascend910

structure Kernel extends Params where
  preToken : Int
  nextToken : Int
  attentionMode : Nat
  isS1G : Bool
  groupSize : Nat
  isCFA : Bool
  isSCFA : Bool
  mBaseSize : Nat
  s2BaseSize : Nat

def paramsInit (p : Params) : Kernel :=
  let mode := SparseMode.ofInt p.oriMaskMode
  let groupSize := u32 (p.queryHeadNum.tdiv p.kvHeadNum)
  { p with
    batchSize := getQueryBatchSize p
    preToken :=
      match mode with
      | .defaultMask | .rightDownCausal => int64Max
      | _ => if p.winLeft > -1 then p.winLeft else int64Max
    nextToken := if mode = .defaultMask then int64Max else 0
    attentionMode := if mode = .defaultMask then 0 else 1
    isS1G := p.layoutQuery == "BSND" || p.layoutQuery == "BSH" || p.layoutQuery == "TND"
    groupSize := groupSize
    isCFA := p.hasCmpKv && !decide (p.cmpTopK > 0)
    isSCFA := p.hasCmpKv && decide (p.cmpTopK > 0)
    mBaseSize := match processSocVersion p with | .ascend910 => groupSize | .ascend950 => 64
    s2BaseSize := match processSocVersion p with | .ascend910 => 512 | .ascend950 => 128 }

/-- `supportFd` is never set by the source. -/
def supportFd : Bool := false

variable (k : Kernel)

/-! ## Lengths and masks -/

def getS1SeqSize (bIdx : Nat) : Nat :=
  match k.seqUsedQ with
  | some data => u32 (data.getD bIdx 0)
  | none =>
    match k.layoutQuery == "TND", k.actSeqLenQ with
    | true, some data => u32 (data.getD (bIdx + 1) 0 - data.getD bIdx 0)
    | _, _ => u32 k.querySeqSize

def getS2SeqSize (bIdx : Nat) : Nat :=
  match k.seqUsedKv with
  | some data => u32 (data.getD bIdx 0)
  | none =>
    match k.layoutKv == "TND", k.actSeqLenOriKv with
    | true, some data => u32 (data.getD (bIdx + 1) 0 - data.getD bIdx 0)
    | _, _ => u32 k.kvSeqSize

structure SplitInfo where
  s1GBaseNum : Nat → Nat
  s2BaseNum : Nat → Nat
  s1GTailSize : Nat → Nat
  isKvSeqAllZero : Bool

-- With no query head `mBaseSize` may be 0. The source then divides by zero; here `x / 0 = 0`.
def calcSplitInfo : SplitInfo :=
  let s1GBaseNum b := (getS1SeqSize k b * k.groupSize + (k.mBaseSize - 1)) / k.mBaseSize
  let s2BaseNum b := (getS2SeqSize k b + k.s2BaseSize - 1) / k.s2BaseSize
  { s1GBaseNum := s1GBaseNum
    s2BaseNum := s2BaseNum
    s1GTailSize := fun b => getS1SeqSize k b * k.groupSize % k.mBaseSize
    isKvSeqAllZero := (List.range (u32 k.batchSize)).all
      fun b => !(s1GBaseNum b != 0 && s2BaseNum b != 0) }

def calcPreTokenLeftUp (s1Size s2Size : Nat) : Int :=
  if SparseMode.ofInt k.oriMaskMode = .band then s1Size - s2Size + k.preToken else k.preToken

def calcNextTokenLeftUp (s1Size s2Size : Nat) : Int :=
  match SparseMode.ofInt k.oriMaskMode with
  | .defaultMask | .allMask | .leftUpCausal => k.nextToken
  | .rightDownCausal => s2Size - s1Size
  | .band => s2Size - s1Size + k.nextToken
  | .sparseButt => k.nextToken

structure BatchCache where
  bIdx : Nat
  s1Size : Nat
  s2Size : Nat
  preTokenLeftUp : Int
  nextTokenLeftUp : Int

def calcBatchCache (bIdx : Nat) : BatchCache :=
  let s1Size := getS1SeqSize k bIdx
  let s2Size := getS2SeqSize k bIdx
  { bIdx, s1Size, s2Size
    preTokenLeftUp := calcPreTokenLeftUp k s1Size s2Size
    nextTokenLeftUp := calcNextTokenLeftUp k s1Size s2Size }

def calcS2TokenRange (s1GIdx : Nat) (batchCache : BatchCache) : Int × Int :=
  if batchCache.s1Size = 0 ∨ batchCache.s2Size = 0 then (0, 0)
  else if k.attentionMode = 0 then (0, batchCache.s2Size - 1)
  else
    let s1Size : Int := batchCache.s1Size
    let s1GFirstToken : Int := s1GIdx * k.mBaseSize
    let s1GLastToken : Int := min (s1GFirstToken + k.mBaseSize) (s1Size * k.groupSize) - 1
    let (s1FirstToken, s1LastToken) :=
      if k.isS1G then (s1GFirstToken.tdiv k.groupSize, s1GLastToken.tdiv k.groupSize)
      else if s1GFirstToken.tdiv s1Size = s1GLastToken.tdiv s1Size then
        (s1GFirstToken.tmod s1Size, s1GLastToken.tmod s1Size)
      else (0, s1Size)
    (s1FirstToken - batchCache.preTokenLeftUp, s1LastToken + batchCache.nextTokenLeftUp)

/-! ## Costs of one row -/

inductive BlockType where
  | winNormalBlock | winTailBlock | cmpNormalBlock | cmpTailBlock

def winCalcCost (basicM basicS2 : Nat) : Int :=
  let winAlignBasicM := (basicM + 16 - 1) >>> 4
  let winAlignBasicS2 := (basicS2 + 64 - 1) >>> 6
  6 * winAlignBasicM + 10 * winAlignBasicS2

def cmpCalcCost (basicM basicS2 : Nat) : Int :=
  let cmpAlignBasicM := (basicM + 16 - 1) >>> 4
  let cmpAlignBasicS2 := (basicS2 + 64 - 1) >>> 6
  6 * cmpAlignBasicM + 10 * cmpAlignBasicS2

-- Without cmp kv the source leaves the old cmp entries in place; no row then reads them.
def calcCostTable (s1NormalSize s2NormalSize s1GTailSize winS2TailSize cmpS2TailSize : Nat) :
    BlockType → BlockType → Int
  | .winNormalBlock, .winNormalBlock => winCalcCost s1NormalSize s2NormalSize
  | .winTailBlock, .winNormalBlock => if s1GTailSize = 0 then 0 else winCalcCost s1GTailSize s2NormalSize
  | .winNormalBlock, .winTailBlock => if winS2TailSize = 0 then 0 else winCalcCost s1NormalSize winS2TailSize
  | .winTailBlock, .winTailBlock =>
    if s1GTailSize = 0 ∨ winS2TailSize = 0 then 0 else winCalcCost s1GTailSize winS2TailSize
  | .cmpNormalBlock, .cmpNormalBlock => if k.hasCmpKv then cmpCalcCost s1NormalSize s2NormalSize else 0
  | .cmpTailBlock, .cmpNormalBlock =>
    if !k.hasCmpKv || s1GTailSize = 0 then 0 else cmpCalcCost s1GTailSize s2NormalSize
  | .cmpNormalBlock, .cmpTailBlock =>
    if !k.hasCmpKv || cmpS2TailSize = 0 then 0 else cmpCalcCost s1NormalSize cmpS2TailSize
  | .cmpTailBlock, .cmpTailBlock =>
    if !k.hasCmpKv || s1GTailSize = 0 || cmpS2TailSize = 0 then 0
    else cmpCalcCost s1GTailSize cmpS2TailSize
  | _, _ => 0

structure S1GCache extends RowCache where
  bIdx : Nat := 0
  s1GIdx : Nat := 0
  winS2Start : Nat := 0
  winS2End : Nat := 0
  cmpS2Start : Nat := 0
  cmpS2End : Nat := 0
  winS1GBlock : Nat := 0
  winS1GCost : Int := 0
  winS1GLastBlockCost : Int := 0
  winS1GNormalBlockCost : Int := 0
  cmpS1GBlock : Nat := 0
  cmpS1GCost : Int := 0
  cmpS1GLastBlockCost : Int := 0
  cmpS1GNormalBlockCost : Int := 0
  cmpS2TailSize : Int := 0
  winS2TailSize : Int := 0
  deriving Inhabited

def calcBlockRangeAndTailSize (oriS2TokenRange : Int × Int) (batchCache : BatchCache)
    (c : S1GCache) : S1GCache :=
  let (oriS2FirstToken, oriS2LastToken) := oriS2TokenRange
  let invalid := oriS2FirstToken ≥ batchCache.s2Size ∨ oriS2LastToken < 0 ∨
    oriS2LastToken < oriS2FirstToken
  let oriS2FirstToken := if invalid then 0 else clip oriS2FirstToken 0 (batchCache.s2Size - 1)
  let oriS2LastToken := if invalid then 0 else clip oriS2LastToken 0 (batchCache.s2Size - 1)
  let winS2End := if invalid then 0 else ((oriS2LastToken - oriS2FirstToken).tdiv k.s2BaseSize + 1).toNat
  let winS2TailSize := if invalid then 0 else (oriS2LastToken - oriS2FirstToken + 1).tmod k.s2BaseSize
  let cmpS2LastTokenSize := if k.hasCmpKv then ((oriS2LastToken + 1).tdiv k.cmpRatio).toNat else 0
  let actCmpS2LastTokenSize :=
    if k.isCFA then cmpS2LastTokenSize
    else if k.isSCFA then min cmpS2LastTokenSize (u32 k.cmpTopK)
    else 0
  { c with
    winS2Start := 0
    winS2End := winS2End
    winS2TailSize := winS2TailSize
    cmpS2Start := winS2End
    cmpS2End :=
      if actCmpS2LastTokenSize = 0 then winS2End
      else winS2End + (actCmpS2LastTokenSize - 1) / k.s2BaseSize + 1
    cmpS2TailSize := (actCmpS2LastTokenSize % k.s2BaseSize : Nat) }

structure PartCost where
  block : Nat := 0
  cost : Int := 0
  lastBlockCost : Int := 0
  normalBlockCost : Int := 0

/-- The body that `CalcWinS1GCache` and `CalcCmpS1GCache` share. -/
def calcPartCost (s2Start s2End : Nat) (s2TailSize normalCost tailCost : Int) : PartCost :=
  if s2Start ≥ s2End then {}
  else
    let block := s2End - s2Start
    let curTailS2Num := if s2TailSize ≠ 0 then 1 else 0
    let curNormalS2Num := block - curTailS2Num
    { block := block
      cost := normalCost * curNormalS2Num + tailCost * curTailS2Num
      lastBlockCost := if curTailS2Num > 0 then tailCost else normalCost
      normalBlockCost := normalCost }

def isTailRow (splitInfo : SplitInfo) (c : S1GCache) : Bool :=
  c.s1GIdx == splitInfo.s1GBaseNum c.bIdx - 1 && splitInfo.s1GTailSize c.bIdx != 0

def calcWinS1GCache (typeCost : BlockType → BlockType → Int) (splitInfo : SplitInfo)
    (c : S1GCache) : S1GCache :=
  let row := if isTailRow splitInfo c then .winTailBlock else .winNormalBlock
  let part := calcPartCost c.winS2Start c.winS2End c.winS2TailSize
    (typeCost row .winNormalBlock) (typeCost row .winTailBlock)
  { c with
    winS1GBlock := part.block
    winS1GCost := part.cost
    winS1GLastBlockCost := part.lastBlockCost
    winS1GNormalBlockCost := part.normalBlockCost }

def calcCmpS1GCache (typeCost : BlockType → BlockType → Int) (splitInfo : SplitInfo)
    (c : S1GCache) : S1GCache :=
  let row := if isTailRow splitInfo c then .cmpTailBlock else .cmpNormalBlock
  let part := calcPartCost c.cmpS2Start c.cmpS2End c.cmpS2TailSize
    (typeCost row .cmpNormalBlock) (typeCost row .cmpTailBlock)
  { c with
    cmpS1GBlock := part.block
    cmpS1GCost := part.cost
    cmpS1GLastBlockCost := part.lastBlockCost
    cmpS1GNormalBlockCost := part.normalBlockCost }

def gatherWinAndCmpCache (c : S1GCache) : S1GCache :=
  { c with
    s2Start := if c.winS1GBlock > 0 then c.winS2Start else c.cmpS2Start
    s1GLastBlockCost := if c.cmpS1GBlock > 0 then c.cmpS1GLastBlockCost else c.winS1GLastBlockCost
    s2End := if c.cmpS1GBlock > 0 then c.cmpS2End else c.winS2End
    s1GBlock := c.winS1GBlock + c.cmpS1GBlock
    s1GCost := c.winS1GCost + c.cmpS1GCost }

def calcS1GCache (s1GIdx : Nat) (batchCache : BatchCache) (c : S1GCache) : S1GCache :=
  let splitInfo := calcSplitInfo k
  if splitInfo.s1GBaseNum batchCache.bIdx = 0 then
    { c with
      s1GCost := 0, s1GLastBlockCost := 0, winS1GNormalBlockCost := 0, winS1GLastBlockCost := 0
      cmpS1GNormalBlockCost := 0, cmpS1GLastBlockCost := 0, s1GBlock := 0, s2Start := 0
      cmpS2Start := 0, s2End := 0 }
  else
    let c := { c with bIdx := batchCache.bIdx, s1GIdx := s1GIdx }
    let c := calcBlockRangeAndTailSize k (calcS2TokenRange k s1GIdx batchCache) batchCache c
    let typeCost := calcCostTable k k.mBaseSize k.s2BaseSize (splitInfo.s1GTailSize c.bIdx)
      c.winS2TailSize.toNat c.cmpS2TailSize.toNat
    gatherWinAndCmpCache
      (calcCmpS1GCache typeCost splitInfo (calcWinS1GCache typeCost splitInfo c))

def planner : Planner BatchCache S1GCache where
  batchSize := u32 k.batchSize
  kvHeadNum := u32 k.kvHeadNum
  s1GBaseNum := (calcSplitInfo k).s1GBaseNum
  isKvSeqAllZero := (calcSplitInfo k).isKvSeqAllZero
  seqEmpty := fun b => getS1SeqSize k b == 0 || getS2SeqSize k b == 0
  calcBatchCache := calcBatchCache k
  calcS1GCache := calcS1GCache k
  row := S1GCache.toRowCache

/-! ## The split plan -/

abbrev Context := AssignContext BatchCache S1GCache

structure FlashDecodeResult where
  fdUsedVecNum : Nat := 0
  fdBN2Idx : Nat → Nat := fun _ => 0
  fdMIdx : Nat → Nat := fun _ => 0
  fdWorkspaceIdx : Nat → Nat := fun _ => 0
  fdS2SplitNum : Nat → Nat := fun _ => 0
  fdMSize : Nat → Nat := fun _ => 0
  fdIdx : Nat → Nat := fun _ => 0
  fdMStart : Nat → Nat := fun _ => 0
  fdMNum : Nat → Nat := fun _ => 0

structure SplitResult where
  usedCoreNum : Nat := 0
  bN2End : Nat → Nat := fun _ => 0
  gS1End : Nat → Nat := fun _ => 0
  s2End : Nat → Nat := fun _ => 0
  firstFdDataWorkspaceIdx : Nat → Nat := fun _ => 0
  maxCost : Int := 0
  numOfFdHead : Nat := 0
  maxS2SplitNum : Nat := 0
  fdRes : FlashDecodeResult := {}

def calcCurBlockCost (a : Context) : Int :=
  let c := a.s1GCache
  if a.curS2Idx < c.cmpS2Start then
    if a.curS2Idx = c.cmpS2Start - 1 then c.winS1GLastBlockCost else c.winS1GNormalBlockCost
  else
    if a.curS2Idx = c.s2End - 1 then c.cmpS1GLastBlockCost else c.cmpS1GNormalBlockCost

def takeBlock (a : Context) : Context :=
  let curCost := calcCurBlockCost a
  { a with
    coreCache := { a.coreCache with
      cost := a.coreCache.cost + curCost, block := a.coreCache.block + 1 }
    curS2Idx := a.curS2Idx + 1
    bN2Cost := a.bN2Cost - curCost
    bN2Block := a.bN2Block - 1
    s1GCache := { a.s1GCache with
      s1GCost := a.s1GCache.s1GCost - curCost, s1GBlock := a.s1GCache.s1GBlock - 1 } }

def assignByBlock (a : Context) : Option Context :=
  if a.isFinished || !supportFd then some a
  else Loop.whileFuel
    (fun a => isWithinTolerance a.coreCache.costLimit ((calcCurBlockCost a).tdiv faToleranceRatio)
      (a.coreCache.cost + calcCurBlockCost a))
    (fun a => some (takeBlock a)) a.s1GCache.s2End a

def updateCursor (costInfo : CostInfo) (a : Context) : Context :=
  let updateS1G := decide (a.curS2Idx ≥ a.s1GCache.s2End)
  let a := if updateS1G then { a with curS2Idx := 0, curS1GIdx := a.curS1GIdx + 1 } else a
  let a := if a.curS1GIdx ≥ (calcSplitInfo k).s1GBaseNum a.curBIdx then
      { a with curS1GIdx := 0, curBN2Idx := a.curBN2Idx + 1 }
    else a
  if a.curBN2Idx = u32 k.batchSize * u32 k.kvHeadNum then
    { a with curS1GIdx := 0, curS2Idx := 0, isFinished := true }
  else
    let updateBatch := decide (a.curBN2Idx / u32 k.kvHeadNum ≠ a.curBIdx)
    let a := if updateBatch then
        let bIdx := a.curBN2Idx / u32 k.kvHeadNum
        { a with
          curBIdx := bIdx
          curS1GIdx := 0
          batchCache := calcBatchCache k bIdx
          bN2Cost := costInfo.bN2CostOfEachBatch bIdx
          bN2Block := costInfo.bN2BlockOfEachBatch bIdx }
      else a
    if updateS1G || updateBatch then
      let c := calcS1GCache k a.curS1GIdx a.batchCache a.s1GCache
      { a with s1GCache := c, curS2Idx := if supportFd then c.winS2Start else 0 }
    else a

def forceAssign (costInfo : CostInfo) (a : Context) : Context :=
  if a.isFinished then a else updateCursor k costInfo (takeBlock a)

def isNeedRecordFDInfo (a : Context) (res : SplitResult) : Bool :=
  !(a.curCoreIdx == 0) && !decide (a.curKvSplitPart ≤ 1) &&
  !(a.curBN2Idx == res.bN2End (a.curCoreIdx - 1) && a.curS1GIdx == res.gS1End (a.curCoreIdx - 1))

def recordFDInfo (a : Context) (res : SplitResult) : SplitResult :=
  let splitBIdx := res.bN2End (a.curCoreIdx - 1) / u32 k.kvHeadNum
  let splitS1GIdx := res.gS1End (a.curCoreIdx - 1)
  let curFdS1gSize :=
    if splitS1GIdx = (calcSplitInfo k).s1GBaseNum splitBIdx - 1 then
      getS1SeqSize k splitBIdx * k.groupSize - splitS1GIdx * k.mBaseSize
    else k.mBaseSize
  let n := res.numOfFdHead
  { res with
    maxS2SplitNum := max res.maxS2SplitNum a.curKvSplitPart
    fdRes := { res.fdRes with
      fdBN2Idx := Function.update res.fdRes.fdBN2Idx n (res.bN2End (a.curCoreIdx - 1))
      fdMIdx := Function.update res.fdRes.fdMIdx n (res.gS1End (a.curCoreIdx - 1))
      fdWorkspaceIdx := Function.update res.fdRes.fdWorkspaceIdx n (a.curFdDataNum - a.curKvSplitPart)
      fdS2SplitNum := Function.update res.fdRes.fdS2SplitNum n a.curKvSplitPart
      fdMSize := Function.update res.fdRes.fdMSize n curFdS1gSize }
    numOfFdHead := n + 1 }

def startCore (costInfo : CostInfo) (a : Context) : Context :=
  let avgCost := a.unassignedCost.tdiv (k.aicCoreNum - a.curCoreIdx : Nat)
  { a with coreCache := { costLimit := if supportFd then avgCost else max avgCost costInfo.maxS1GCost } }

def recordCut (a : Context) (res : SplitResult) : SplitResult :=
  { res with
    bN2End := Function.update res.bN2End a.curCoreIdx a.curBN2Idx
    gS1End := Function.update res.gS1End a.curCoreIdx a.curS1GIdx
    s2End := Function.update res.s2End a.curCoreIdx a.curS2Idx
    maxCost := max res.maxCost a.coreCache.cost }

def finishCore (a : Context) (res : SplitResult) : Context × SplitResult :=
  let res := recordCut a res
  let a := { a with unassignedCost := a.unassignedCost - a.coreCache.cost }
  let st := if isNeedRecordFDInfo a res then ({ a with curKvSplitPart := 1 }, recordFDInfo k a res)
    else (a, res)
  if st.1.curS2Idx > st.1.s1GCache.s2Start ∧ st.1.curS2Idx ≤ st.1.s1GCache.s2End then
    ({ st.1 with curKvSplitPart := st.1.curKvSplitPart + 1 }, st.2)
  else st

def assignBlocksToCore (costInfo : CostInfo) (a : Context) (res : SplitResult) :
    Option (Context × SplitResult) := do
  let a := startCore k costInfo a
  let a ← ((planner k).assignByBatch costInfo a).bind (planner k).assignByRow
  let a ← assignByBlock a
  let a := if a.coreCache.block = 0 ∧ supportFd then forceAssign k costInfo a else a
  some (finishCore k a res)

def coreLoop (costInfo : CostInfo) (costLimit : Int) :
    List Nat → Context → SplitResult → Option SplitResult
  | [], a, res => some { res with usedCoreNum := a.curCoreIdx + 1 }
  | i :: cores, a, res =>
    if res.maxCost > costLimit then some res
    else if a.isFinished || a.unassignedCost ≤ 0 then
      some { res with usedCoreNum := a.curCoreIdx + 1 }
    else
      (assignBlocksToCore k costInfo { a with curCoreIdx := i } res).bind fun (a, res) =>
        coreLoop costInfo costLimit cores a res

def initContext (costInfo : CostInfo) : Context :=
  let s1GCache := calcS1GCache k 0 (calcBatchCache k 0) default
  { batchCache := calcBatchCache k 0
    s1GCache := s1GCache
    unassignedCost := costInfo.totalCost
    bN2Cost := costInfo.bN2CostOfEachBatch 0
    bN2Block := costInfo.bN2BlockOfEachBatch 0
    curS2Idx := s1GCache.s2Start }

def calcSplitPlan (costInfo : CostInfo) (costLimit : Int) (res : SplitResult) :
    Option SplitResult :=
  if k.aicCoreNum = 0 then some res
  else
    coreLoop k costInfo costLimit (List.range k.aicCoreNum) (initContext k costInfo)
      { res with maxCost := 0, usedCoreNum := 0 }

/-- One round of the inner loop of `SplitFD`; the state is the result and `curCoreIndex`. -/
def splitFDVector (i curFDVectorNum curAveMSize : Nat) (st : FlashDecodeResult × Nat) (vid : Nat) :
    FlashDecodeResult × Nat :=
  let (fd, curCoreIndex) := st
  ({ fd with
      fdIdx := Function.update fd.fdIdx curCoreIndex i
      fdMStart := Function.update fd.fdMStart curCoreIndex (vid * curAveMSize)
      fdMNum := Function.update fd.fdMNum curCoreIndex
        (if vid < curFDVectorNum - 1 then curAveMSize else fd.fdMSize i - vid * curAveMSize) },
    curCoreIndex + 1)

def splitFD (res : SplitResult) : SplitResult :=
  let load i := res.fdRes.fdS2SplitNum i * res.fdRes.fdMSize i
  let totalFDLoad := ((List.range res.numOfFdHead).map load).sum
  let averageLoad := totalFDLoad / k.aivCoreNum
  let (fd, curCoreIndex) := (List.range res.numOfFdHead).foldl
    (fun st i =>
      let curFDVectorNum := load i / averageLoad
      let curAveMSize := res.fdRes.fdMSize i / curFDVectorNum
      (List.range curFDVectorNum).foldl (splitFDVector i curFDVectorNum curAveMSize) st)
    (res.fdRes, 0)
  { res with fdRes := { fd with fdUsedVecNum := curCoreIndex } }

def balanceSchedule : Option SplitResult :=
  if (calcSplitInfo k).isKvSeqAllZero then
    some { usedCoreNum := 1, bN2End := fun i => if i = 0 then u32 k.batchSize * u32 k.kvHeadNum else 0 }
  else
    (calcSplitPlan k (planner k).calcCostInfo int64Max { maxCost := int64Max, usedCoreNum := 1 }).map
      fun res =>
        let res := if res.numOfFdHead > 0 then splitFD k res else res
        { res with usedCoreNum := max res.usedCoreNum 1 }

/-! ## The table for the cores -/

structure FaMetadata where
  coreEnable : Bool := false
  bN2Start : Nat := 0
  mStart : Nat := 0
  s2Start : Nat := 0
  bN2End : Nat := 0
  mEnd : Nat := 0
  s2End : Nat := 0
  firstFdDataWorkspaceIdx : Nat := 0

def genFaMetadata (res : SplitResult) (i : Nat) : FaMetadata :=
  if i ≥ res.usedCoreNum then {}
  else
    { coreEnable := true
      bN2Start := if i = 0 then 0 else res.bN2End (i - 1)
      mStart := if i = 0 then 0 else res.gS1End (i - 1)
      s2Start := if i = 0 then 0 else res.s2End (i - 1)
      bN2End := res.bN2End i
      mEnd := res.gS1End i
      s2End := res.s2End i
      firstFdDataWorkspaceIdx := res.firstFdDataWorkspaceIdx i }

structure FdMetadata where
  coreEnable : Bool := false
  bN2Idx : Nat := 0
  mIdx : Nat := 0
  workspaceIdx : Nat := 0
  workspaceNum : Nat := 0
  mStart : Nat := 0
  mNum : Nat := 0

def genFdMetadata (res : SplitResult) (i : Nat) : FdMetadata :=
  let fd := res.fdRes
  if i ≥ fd.fdUsedVecNum then {}
  else
    let curFdIdx := fd.fdIdx i
    { coreEnable := true
      bN2Idx := fd.fdBN2Idx curFdIdx
      mIdx := fd.fdMIdx curFdIdx
      workspaceIdx := fd.fdWorkspaceIdx curFdIdx
      workspaceNum := fd.fdS2SplitNum curFdIdx
      mStart := fd.fdMStart i
      mNum := fd.fdMNum i }

end VllmAscend.Attention.SharedkvMetadata
