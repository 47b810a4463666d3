import VllmAscend.Lib.Loop

/-!
# The work-split planner of the attention metadata kernels

The stages that the AICPU metadata kernels share; what their batch and row caches hold are fields of `Planner`.
`uint32_t` is `Nat` and `int64_t` is `Int`, without wrap-around. A vector is a function of its index.
-/

namespace VllmAscend.Attention

structure RowCache where
  s2Start : Nat := 0
  s2End : Nat := 0
  s1GBlock : Nat := 0
  s1GCost : Int := 0
  s1GLastBlockCost : Int := 0
  deriving DecidableEq, Inhabited

structure CostInfo where
  bN2CostOfEachBatch : Nat → Int := fun _ => 0
  bN2BlockOfEachBatch : Nat → Nat := fun _ => 0
  bN2LastBlockCostOfEachBatch : Nat → Int := fun _ => 0
  totalBlockNum : Nat := 0
  totalCost : Int := 0
  maxS1GCost : Int := 0

def CostInfo.clearBatch (costInfo : CostInfo) (bIdx : Nat) : CostInfo :=
  { costInfo with
    bN2CostOfEachBatch := Function.update costInfo.bN2CostOfEachBatch bIdx 0
    bN2BlockOfEachBatch := Function.update costInfo.bN2BlockOfEachBatch bIdx 0
    bN2LastBlockCostOfEachBatch := Function.update costInfo.bN2LastBlockCostOfEachBatch bIdx 0 }

structure CoreCache where
  costLimit : Int := 0
  cost : Int := 0
  block : Nat := 0

structure AssignContext (BC RC : Type) where
  curBIdx : Nat := 0
  curBN2Idx : Nat := 0
  curS1GIdx : Nat := 0
  curS2Idx : Nat := 0
  curCoreIdx : Nat := 0
  unassignedCost : Int := 0
  curKvSplitPart : Nat := 1
  curFdDataNum : Nat := 1
  bN2Cost : Int := 0
  bN2Block : Nat := 0
  isFinished : Bool := false
  batchCache : BC
  s1GCache : RC
  coreCache : CoreCache := {}

structure Planner (BC RC : Type) where
  batchSize : Nat
  kvHeadNum : Nat
  s1GBaseNum : Nat → Nat
  isKvSeqAllZero : Bool
  seqEmpty : Nat → Bool
  calcBatchCache : Nat → BC
  /-- `CalcS1GCache` overwrites the row cache, and may keep some of its old fields. -/
  calcS1GCache : Nat → BC → RC → RC
  row : RC → RowCache

def faToleranceRatio : Int := 2

def isWithinTolerance (limit tolerance value : Int) : Bool := decide (value ≤ limit + tolerance)

namespace Planner

variable {BC RC : Type} (P : Planner BC RC)

/-! ## Costs -/

def calcBatchCostRow (bIdx : Nat) (bCache : BC) (st : CostInfo × RC) (s1GIdx : Nat) :
    CostInfo × RC :=
  let (costInfo, s1GCache) := st
  let s1GCache := P.calcS1GCache s1GIdx bCache s1GCache
  let row := P.row s1GCache
  ({ costInfo with
      bN2CostOfEachBatch := Function.update costInfo.bN2CostOfEachBatch bIdx
        (costInfo.bN2CostOfEachBatch bIdx + row.s1GCost)
      bN2BlockOfEachBatch := Function.update costInfo.bN2BlockOfEachBatch bIdx
        (costInfo.bN2BlockOfEachBatch bIdx + row.s1GBlock)
      maxS1GCost := if row.s1GCost > costInfo.maxS1GCost then row.s1GCost else costInfo.maxS1GCost
      bN2LastBlockCostOfEachBatch :=
        if row.s1GBlock > 0 then
          Function.update costInfo.bN2LastBlockCostOfEachBatch bIdx row.s1GLastBlockCost
        else costInfo.bN2LastBlockCostOfEachBatch },
    s1GCache)

def calcBatchCost [Inhabited RC] (bIdx : Nat) (costInfo : CostInfo) : CostInfo :=
  let costInfo := costInfo.clearBatch bIdx
  if P.seqEmpty bIdx then costInfo
  else
    ((List.range (P.s1GBaseNum bIdx)).foldl (P.calcBatchCostRow bIdx (P.calcBatchCache bIdx)) (costInfo, default)).1

def calcCostInfo [Inhabited RC] : CostInfo :=
  if P.isKvSeqAllZero then {}
  else
    (List.range P.batchSize).foldl
      (fun costInfo bIdx =>
        let costInfo := P.calcBatchCost bIdx costInfo
        { costInfo with
          totalCost := costInfo.totalCost + costInfo.bN2CostOfEachBatch bIdx * P.kvHeadNum
          totalBlockNum := costInfo.totalBlockNum + costInfo.bN2BlockOfEachBatch bIdx * P.kvHeadNum }) {}

/-! ## Assignment -/

/-- The `while` condition of `AssignByBatch`. The `return` at the end of the work is the test of
`isFinished`. -/
def batchFits (costInfo : CostInfo) (a : AssignContext BC RC) : Bool :=
  !a.isFinished && (a.bN2Cost == 0 || isWithinTolerance a.coreCache.costLimit
    ((costInfo.bN2LastBlockCostOfEachBatch a.curBIdx).tdiv faToleranceRatio)
    (a.coreCache.cost + a.bN2Cost))

def assignBatch (costInfo : CostInfo) (a : AssignContext BC RC) : AssignContext BC RC :=
  let a := { a with
    coreCache := { a.coreCache with
      cost := a.coreCache.cost + a.bN2Cost, block := a.coreCache.block + a.bN2Block }
    curBN2Idx := a.curBN2Idx + 1 }
  if a.curBN2Idx = P.batchSize * P.kvHeadNum then
    { a with curS1GIdx := 0, curS2Idx := 0, isFinished := true }
  else
    let a := if a.curBN2Idx / P.kvHeadNum ≠ a.curBIdx then
        { a with
          curBIdx := a.curBN2Idx / P.kvHeadNum
          batchCache := P.calcBatchCache (a.curBN2Idx / P.kvHeadNum) }
      else a
    let s1GCache := P.calcS1GCache 0 a.batchCache a.s1GCache
    { a with
      bN2Cost := costInfo.bN2CostOfEachBatch a.curBIdx
      bN2Block := costInfo.bN2BlockOfEachBatch a.curBIdx
      curS1GIdx := 0
      s1GCache := s1GCache
      curS2Idx := (P.row s1GCache).s2Start }

def assignByBatch (costInfo : CostInfo) (a : AssignContext BC RC) : Option (AssignContext BC RC) :=
  Loop.whileFuel (batchFits costInfo) (fun a => some (P.assignBatch costInfo a))
    (P.batchSize * P.kvHeadNum) a

def rowFits (a : AssignContext BC RC) : Bool :=
  isWithinTolerance a.coreCache.costLimit
    ((P.row a.s1GCache).s1GLastBlockCost.tdiv faToleranceRatio)
    (a.coreCache.cost + (P.row a.s1GCache).s1GCost)

def nextRow (a : AssignContext BC RC) : AssignContext BC RC :=
  { a with
    curS1GIdx := a.curS1GIdx + 1
    s1GCache := P.calcS1GCache (a.curS1GIdx + 1) a.batchCache a.s1GCache }

def skipEmptyRows (a : AssignContext BC RC) : Option (AssignContext BC RC) :=
  Loop.doWhileFuel (fun a => (P.row a.s1GCache).s1GBlock == 0) (fun a => some (P.nextRow a))
    (P.s1GBaseNum a.curBIdx) a

def takeRow (a : AssignContext BC RC) : AssignContext BC RC :=
  let row := P.row a.s1GCache
  { a with
    coreCache := { a.coreCache with
      cost := a.coreCache.cost + row.s1GCost, block := a.coreCache.block + row.s1GBlock }
    bN2Cost := if a.bN2Cost > row.s1GCost then a.bN2Cost - row.s1GCost else 0
    bN2Block := if a.bN2Block > row.s1GBlock then a.bN2Block - row.s1GBlock else 0 }

def assignRow (a : AssignContext BC RC) : Option (AssignContext BC RC) :=
  (P.skipEmptyRows (P.takeRow a)).map fun a => { a with curS2Idx := (P.row a.s1GCache).s2Start }

def assignByRow (a : AssignContext BC RC) : Option (AssignContext BC RC) :=
  if a.isFinished then some a
  else Loop.whileFuel P.rowFits P.assignRow (P.s1GBaseNum a.curBIdx) a

end Planner

end VllmAscend.Attention
