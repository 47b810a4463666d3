import VllmAscend.Lib.Dict
import VllmAscend.Lib.Machine

/-!
# One EPLB layer update

`EplbWorker` compares the old and the new expert maps and lists who sends which expert to whom. Every rank turns its
part into point-to-point operations, waits for them, and copies the received buffers into its slots. A map gives the
slot of an expert on a rank, or `-1`. The log2phy maps are left out.
-/

namespace VllmAscend.Eplb

/-! ## The planner -/

def whereTrue (numRanks numExperts : Nat) (cond : Nat → Nat → Bool) : List (Nat × Nat) :=
  (List.range numRanks).flatMap fun r => ((List.range numExperts).filter (cond r)).map (r, ·)

def tablesEqual (numRanks numExperts : Nat) (a b : Nat → Nat → Int) : Bool :=
  (List.range numRanks).all fun r => (List.range numExperts).all fun e => a r e == b r e

def appendTo (d : Dict Nat (List (Nat × Nat))) (key : Nat) (x : Nat × Nat) :
    Dict Nat (List (Nat × Nat)) :=
  let d := d.setdefault key []
  d.set key (d.getD key [] ++ [x])

structure UpdateInfo where
  sendInfo : Dict Nat (List (Nat × Nat))
  recvInfo : Dict Nat (List (Nat × Nat))
  updatedExpertMap : Nat → Nat → Int
  layerId : Nat

def firstRankByExpert (pairs : List (Nat × Nat)) : Dict Nat Nat := pairs.foldl (fun d p => d.setdefault p.2 p.1) ∅

section Compose

variable (numRanks numExperts : Nat) (updated current : Nat → Nat → Int)

def expertsToRecv : List (Nat × Nat) :=
  whereTrue numRanks numExperts fun r e => current r e == -1 && updated r e != -1

def expertsToSend : List (Nat × Nat) :=
  whereTrue numRanks numExperts fun r e => current r e != -1 && updated r e == -1

def holders : List (Nat × Nat) := whereTrue numRanks numExperts fun r e => current r e != -1

/-- A rank that gives the expert away, or else the first rank that holds it. `none` is the
`KeyError` of the source. -/
def srcRank (expert : Nat) : Option Nat :=
  ((firstRankByExpert (expertsToSend numRanks numExperts updated current)).get? expert).or
    ((firstRankByExpert (holders numRanks numExperts current)).get? expert)

def composeStep (st : Dict Nat (List (Nat × Nat)) × Dict Nat (List (Nat × Nat)))
    (p : Nat × Nat) : Option (Dict Nat (List (Nat × Nat)) × Dict Nat (List (Nat × Nat))) :=
  let (dst, expert) := p
  (srcRank numRanks numExperts updated current expert).map fun src =>
    (appendTo st.1 src (dst, expert), appendTo st.2 dst (src, expert))

def composeLayer (layerId : Nat) : Option UpdateInfo :=
  if tablesEqual numRanks numExperts updated current then
    some ⟨∅, ∅, updated, layerId⟩
  else
    ((expertsToRecv numRanks numExperts updated current).foldlM
      (composeStep numRanks numExperts updated current) (∅, ∅)).map
      fun st => ⟨st.1, st.2, updated, layerId⟩

end Compose

def composeExpertUpdateInfoGreedy (numLayers numRanks numExperts : Nat)
    (updated current : Nat → Nat → Nat → Int) : Option (List UpdateInfo) :=
  (List.range numLayers).mapM fun layer => composeLayer numRanks numExperts (updated layer) (current layer) layer

structure RankInfo where
  sendInfo : List (Nat × Nat)
  recvInfo : List (Nat × Nat)
  expertMap : List Int
  layerId : Nat

def packLayer (numExperts rankId : Nat) (info : UpdateInfo) : RankInfo where
  sendInfo := info.sendInfo.getD rankId []
  recvInfo := info.recvInfo.getD rankId []
  expertMap := (List.range numExperts).map (info.updatedExpertMap rankId)
  layerId := info.layerId

def packUpdateInfo (numExperts rankId : Nat) (infos : List UpdateInfo) : List RankInfo :=
  infos.map (packLayer numExperts rankId)

/-! ## One rank -/

inductive ExpertWeightUpdateState where
  | waiting | ready | transferring
  deriving DecidableEq

structure Adaptor (W : Type) where
  expertMapPerLayerCpu : Nat → List Int
  expertParamPerLayer : Nat → List (List W)
  expertWeightKeyPerLayer : Nat → Nat
  bufferTensorList : Nat → List (List W)

inductive P2POp where
  | isend (slot tensor dstRank : Nat)
  | irecv (buffer tensor srcRank : Nat)

structure Loader where
  commOpList : Option (List P2POp) := none
  updatedExpertMap : Option (List Int) := none
  layerId : Option Nat := none
  state : ExpertWeightUpdateState := .waiting
  recvExpertList : List (Int × Nat) := []

/-- The position that a Python list index names: negative indices count from the end. -/
def pyIndex (len : Nat) (i : Int) : Option Nat :=
  if 0 ≤ i ∧ i < len then some i.toNat
  else if i < 0 ∧ -i ≤ len then some (len + i).toNat
  else none

variable {W : Type}

def sendOps (ad : Adaptor W) (layerId : Nat) (info : Nat × Nat) : Option (List P2POp) := do
  let (dst, expert) := info
  let localExpertId ← (ad.expertMapPerLayerCpu layerId)[expert]?
  let slot ← pyIndex (ad.expertParamPerLayer layerId).length localExpertId
  let tensors ← (ad.expertParamPerLayer layerId)[slot]?
  some ((List.range tensors.length).map fun j => .isend slot j dst)

/-- The operations of one entry of the receive list, and its entry in `recv_expert_list`. -/
def recvOps (ad : Adaptor W) (layerId : Nat) (updatedExpertMap : List Int)
    (info : (Nat × Nat) × Nat) : Option (List P2POp × Int × Nat) := do
  let ((src, expert), buffer) := info
  let tensors ← (ad.bufferTensorList (ad.expertWeightKeyPerLayer layerId))[buffer]?
  let slot ← updatedExpertMap[expert]?
  some ((List.range tensors.length).map fun j => .irecv buffer j src, slot, buffer)

def generateExpertD2dTransferTask (ad : Adaptor W) (ld : Loader) (info : RankInfo) :
    Option Loader :=
  if ld.state ≠ .waiting then some ld
  else do
    let sends ← info.sendInfo.mapM (sendOps ad info.layerId)
    let recvs ← info.recvInfo.zipIdx.mapM (recvOps ad info.layerId info.expertMap)
    some
      { commOpList := some (sends.flatten ++ (recvs.map Prod.fst).flatten)
        updatedExpertMap := some info.expertMap
        layerId := some info.layerId
        state := .ready
        recvExpertList := ld.recvExpertList ++ recvs.map Prod.snd }

def asynExpertWeightTransfer (ld : Loader) : Loader :=
  if ld.state ≠ .ready then ld else { ld with state := .transferring }

def copyTensors (param buffer : List W) : List W := buffer.take param.length ++ param.drop buffer.length

def doUpdateExpertWeight (ad : Adaptor W) (layerId : Nat) (info : Int × Nat) :
    Option (Adaptor W) := do
  let (localExpertToReplace, bufferTensorId) := info
  let params := ad.expertParamPerLayer layerId
  let slot ← pyIndex params.length localExpertToReplace
  let param ← params[slot]?
  let buffer ← (ad.bufferTensorList (ad.expertWeightKeyPerLayer layerId))[bufferTensorId]?
  some { ad with
    expertParamPerLayer :=
      Function.update ad.expertParamPerLayer layerId (params.set slot (copyTensors param buffer)) }

def updateExpertMapAndWeight (ad : Adaptor W) (ld : Loader) : Option (Adaptor W × Loader) :=
  if ld.state ≠ .transferring then some (ad, ld)
  else do
    let layerId ← ld.layerId
    let expertMap ← ld.updatedExpertMap
    let ad := { ad with
      expertMapPerLayerCpu := Function.update ad.expertMapPerLayerCpu layerId expertMap }
    let ad ← ld.recvExpertList.foldlM (fun ad info => doUpdateExpertWeight ad layerId info) ad
    some (ad, {})

/-! ## All ranks

Between two ranks, the `k`-th send meets the `k`-th receive. A transfer can happen at any time
after both ranks have launched. A rank updates its weights after all its operations are done.
-/

inductive Phase where
  | generate | launch | wait | done
  deriving DecidableEq

structure RankState (W : Type) where
  adaptor : Adaptor W
  loader : Loader := {}
  phase : Phase := .generate

structure System (W : Type) where
  ranks : Nat → RankState W
  delivered : List (Nat × Nat × Nat) := []

inductive Action where
  | generate (rank : Nat)
  | launch (rank : Nat)
  | deliver (src dst k : Nat)
  | update (rank : Nat)

def sendsTo (ops : List P2POp) (dst : Nat) : List (Nat × Nat) :=
  ops.filterMap fun
    | .isend slot tensor d => if d = dst then some (slot, tensor) else none
    | .irecv .. => none

def recvsFrom (ops : List P2POp) (src : Nat) : List (Nat × Nat) :=
  ops.filterMap fun
    | .isend .. => none
    | .irecv buffer tensor s => if s = src then some (buffer, tensor) else none

def RankState.ops (s : RankState W) : List P2POp := s.loader.commOpList.getD []

def setBuffer (ad : Adaptor W) (layerId buffer tensor : Nat) (value : W) : Adaptor W :=
  let key := ad.expertWeightKeyPerLayer layerId
  { ad with
    bufferTensorList := Function.update ad.bufferTensorList key
      ((ad.bufferTensorList key).modify buffer fun ts => ts.set tensor value) }

def opsDone (numRanks : Nat) (s : System W) (rank : Nat) : Bool :=
  (List.range numRanks).all fun other =>
    ((List.range (sendsTo (s.ranks rank).ops other).length).all
      fun k => (rank, other, k) ∈ s.delivered) &&
    ((List.range (recvsFrom (s.ranks rank).ops other).length).all
      fun k => (other, rank, k) ∈ s.delivered)

def System.set (s : System W) (rank : Nat) (r : RankState W) : System W :=
  { s with ranks := Function.update s.ranks rank r }

def step (numRanks layerId : Nat) (infos : Nat → RankInfo) (s : System W) :
    Action → Option (System W)
  | .generate rank =>
    let r := s.ranks rank
    if rank < numRanks ∧ r.phase = .generate then
      (generateExpertD2dTransferTask r.adaptor r.loader (infos rank)).map fun ld =>
        s.set rank { r with loader := ld, phase := .launch }
    else none
  | .launch rank =>
    let r := s.ranks rank
    if rank < numRanks ∧ r.phase = .launch then
      some (s.set rank { r with loader := asynExpertWeightTransfer r.loader, phase := .wait })
    else none
  | .deliver src dst k =>
    if src < numRanks ∧ dst < numRanks ∧ (s.ranks src).phase = .wait ∧
        (s.ranks dst).phase = .wait ∧ (src, dst, k) ∉ s.delivered then do
      let (slot, tensor) ← (sendsTo (s.ranks src).ops dst)[k]?
      let (buffer, tensor') ← (recvsFrom (s.ranks dst).ops src)[k]?
      let param ← ((s.ranks src).adaptor.expertParamPerLayer layerId)[slot]?
      let value ← param[tensor]?
      let r := s.ranks dst
      some { s.set dst { r with adaptor := setBuffer r.adaptor layerId buffer tensor' value } with
        delivered := (src, dst, k) :: s.delivered }
    else none
  | .update rank =>
    let r := s.ranks rank
    if rank < numRanks ∧ r.phase = .wait ∧ opsDone numRanks s rank then
      (updateExpertMapAndWeight r.adaptor r.loader).map fun (ad, ld) =>
        s.set rank { adaptor := ad, loader := ld, phase := .done }
    else none

def AllDone (numRanks : Nat) (s : System W) : Prop := ∀ r < numRanks, (s.ranks r).phase = .done

end VllmAscend.Eplb
