import VllmAscend.Lib.Loop

/-!
# Tensors, plans and descriptors of the mapped KV offload

The parts of `experimental_mapped.py` that only compute. Addresses are 64-bit words, as in the numpy arrays that
hold them.
-/

namespace VllmAscend.KvOffload.Mapped

def mappedGatherAlignmentBytes : Nat := 32
def mappedGatherIdBufferCacheSize : Nat := 4
def mappedGatherMaxCachedIds : Nat := 256 * 1024
def int32Max : Int := 2 ^ 31 - 1

/-- One constructor for each `raise` of the module; `device` stands for what torch raises. -/
inductive MappedError
  | blockSizeFactor
  | noCpuBlocks
  | opsUnavailable
  | tensorView
  | tensorListsMismatch
  | notContiguous (tensorIdx : Nat)
  | stridedRow (tensorIdx : Nat)
  | unalignedPage (tensorIdx pageBytes : Nat)
  | missingTensor (groupIdx : Nat) (tensorIdx : Int)
  | unpaddedPageSize (groupIdx pageSizeBytes rowBytes : Nat)
  | invalidHandle (handle : Int)
  | noUnregisterOp
  | unregisterFailed (leases : Nat)
  | shutDown
  | unsupportedDirection
  | notBlockIds
  | notOneDimensional
  | groupSizesMismatch
  | blockIndicesMismatch
  | negativeGroupSize (groupIdx : Nat) (groupSize : Int)
  | oneIdPerBlock
  | groupExceedsIds (groupIdx : Nat)
  | idsLeftOver
  | descriptorCount
  | notIntegerDtype
  | negativeIds (groupIdx : Nat)
  | idsExceedInt32 (groupIdx : Nat)
  | sourceOutOfBounds (groupIdx : Nat) (id : Int) (tensorIdx rows : Nat)
  | destinationOutOfBounds (groupIdx : Nat) (id : Int) (tensorIdx rows : Nat)
  | poisoned
  | poolNotActive
  | assertion
  | indexError
  | broadcast
  | device
deriving DecidableEq, Repr

/-! ## Tensors -/

structure Tensor where
  dataPtr : Nat
  rows : Nat
  rowBytes : Nat
  rowStride : Nat
  contiguous : Bool
deriving DecidableEq, Repr

structure CanonicalKVCacheRef where
  tensorIdx : Int
  pageSizeBytes : Nat
deriving DecidableEq, Repr

abbrev GroupRefs := List CanonicalKVCacheRef

def CanonicalKVCacheRef.tensor (ref : CanonicalKVCacheRef) : Nat := ref.tensorIdx.toNat

def checkTensor (tensorIdx : Nat) (cpu npu : Tensor) : Except MappedError Unit :=
  if !cpu.contiguous || !npu.contiguous then .error (.notContiguous tensorIdx)
  else if cpu.rowStride ≠ cpu.rowBytes ∨ npu.rowStride ≠ npu.rowBytes then
    .error (.stridedRow tensorIdx)
  else if npu.rowBytes % mappedGatherAlignmentBytes ≠ 0 then
    .error (.unalignedPage tensorIdx npu.rowBytes)
  else .ok ()

def checkRef (npuTensors : List Tensor) (groupIdx : Nat) (ref : CanonicalKVCacheRef) :
    Except MappedError Unit :=
  if ref.tensorIdx < 0 then .error (.missingTensor groupIdx ref.tensorIdx)
  else
    match npuTensors[ref.tensor]? with
    | none => .error (.missingTensor groupIdx ref.tensorIdx)
    | some npu =>
      if ref.pageSizeBytes ≠ npu.rowBytes then
        .error (.unpaddedPageSize groupIdx ref.pageSizeBytes npu.rowBytes)
      else .ok ()

def validateMappedGatherLayout (npuTensors cpuTensors : List Tensor) (groups : List GroupRefs) :
    Except MappedError Unit := do
  if npuTensors.length ≠ cpuTensors.length ∨ npuTensors = [] then
    throw .tensorListsMismatch
  (cpuTensors.zip npuTensors).zipIdx.forM fun ((cpu, npu), idx) => checkTensor idx cpu npu
  groups.zipIdx.forM fun (refs, groupIdx) => refs.forM (checkRef npuTensors groupIdx)

/-! ## Plans -/

/-- The classes of `LoadStoreSpec`; all but `other` are `BlockIDsLoadStoreSpec`s. -/
inductive SpecKind
  | gpu | cpu | blockIds | other
deriving DecidableEq, Repr

/-- `groupSizes` and `blockIndices` are read from GPU specs only. -/
structure LoadStoreSpec where
  kind : SpecKind
  blockIds : List Int
  ndim : Nat := 1
  integerDtype : Bool := true
  groupSizes : List Int := []
  blockIndices : List Int := []
deriving DecidableEq, Repr

structure TransferPlan where
  srcBlocks : List Int
  dstBlocks : List Int
  groupSizes : List Nat
  numCopyOps : Nat
  numTransferBytes : Nat
deriving DecidableEq, Repr

def checkGroupSize (groupIdx : Nat) (groupSize : Int) : Except MappedError Nat :=
  if groupSize < 0 then .error (.negativeGroupSize groupIdx groupSize) else .ok groupSize.toNat

def makeTransferPlan (groups : List GroupRefs) (src dst gpu : LoadStoreSpec) :
    Except MappedError TransferPlan := do
  if src.ndim ≠ 1 ∨ dst.ndim ≠ 1 then throw .notOneDimensional
  if gpu.groupSizes.length ≠ groups.length then throw .groupSizesMismatch
  if gpu.blockIndices.length ≠ groups.length then throw .blockIndicesMismatch
  let groupSizes ← gpu.groupSizes.zipIdx.mapM fun (size, idx) => checkGroupSize idx size
  return {
    srcBlocks := src.blockIds
    dstBlocks := dst.blockIds
    groupSizes
    numCopyOps := ((groupSizes.zip groups).map fun (size, refs) => size * refs.length).sum
    numTransferBytes := ((groupSizes.zip groups).map fun (size, refs) =>
      size * (refs.map (·.pageSizeBytes)).sum).sum }

/-! ## Descriptors of a store -/

structure Descriptor where
  src : BitVec 64
  dst : BitVec 64
  size : Nat
deriving DecidableEq, Repr

/-- `output[:] = xs` for an output of length `n`: numpy broadcasts a single element. -/
def assignSlice (n : Nat) (xs : List (BitVec 64)) : Except MappedError (List (BitVec 64)) :=
  if xs.length = n then .ok xs
  else
    match xs with
    | [x] => .ok (List.replicate n x)
    | _ => .error .broadcast

def blockPtr (tensor : Tensor) (blockId : Int) : BitVec 64 :=
  BitVec.ofNat 64 tensor.dataPtr + BitVec.ofInt 64 blockId * BitVec.ofNat 64 tensor.rowStride

def computeSubBlockPtrs (blockIds : List Int) (blockSizeFactor numSubBlocks : Nat)
    (tensor : Tensor) (skipCount : Nat := 0) : Except MappedError (List (BitVec 64)) :=
  if blockSizeFactor ≤ skipCount then .error .assertion
  else if blockSizeFactor = 1 then
    assignSlice numSubBlocks ((blockIds.take numSubBlocks).map (blockPtr tensor))
  else if tensor.rowBytes % blockSizeFactor ≠ 0 then .error .assertion
  else
    let subBlockSize := tensor.rowBytes / blockSizeFactor
    let flat := blockIds.flatMap fun blockId => (List.range blockSizeFactor).map fun sub =>
      blockPtr tensor blockId + BitVec.ofNat 64 (sub * subBlockSize)
    assignSlice numSubBlocks ((flat.drop skipCount).take numSubBlocks)

section Tensors

variable (cpuTensors npuTensors : List Tensor)

def refDescriptors (groupSrc groupDst : List Int) (groupSize : Nat) (ref : CanonicalKVCacheRef) :
    Except MappedError (List Descriptor) := do
  match npuTensors[ref.tensor]?, cpuTensors[ref.tensor]? with
  | some npu, some cpu =>
    let src ← computeSubBlockPtrs groupSrc 1 groupSize npu
    let dst ← computeSubBlockPtrs groupDst 1 groupSize cpu
    return (src.zip dst).map fun (s, d) => ⟨s, d, ref.pageSizeBytes⟩
  | _, _ => throw .indexError

def groupDescriptors : Nat → List (Nat × GroupRefs) → List Int → List Int →
    Except MappedError (List Descriptor)
  | _, [], [], [] => .ok []
  | _, [], _, _ => .error .idsLeftOver
  | groupIdx, (groupSize, refs) :: rest, src, dst =>
    if groupSize = 0 then groupDescriptors (groupIdx + 1) rest src dst
    else if src.length < groupSize ∨ dst.length < groupSize then .error (.groupExceedsIds groupIdx)
    else do
      let here ← refs.mapM
        (refDescriptors cpuTensors npuTensors (src.take groupSize) (dst.take groupSize) groupSize)
      let others ← groupDescriptors (groupIdx + 1) rest (src.drop groupSize) (dst.drop groupSize)
      return here.flatten ++ others

def storeDescriptors (groups : List GroupRefs) (plan : TransferPlan) :
    Except MappedError (List Descriptor) := do
  let descriptors ← groupDescriptors cpuTensors npuTensors 0 (plan.groupSizes.zip groups)
    plan.srcBlocks plan.dstBlocks
  if descriptors.length ≠ plan.numCopyOps then throw .descriptorCount
  return descriptors

/-! ## Block ids of a load -/

def checkRefBounds (groupIdx : Nat) (srcMax dstMax : Int) (ref : CanonicalKVCacheRef) :
    Except MappedError Unit :=
  match cpuTensors[ref.tensor]?, npuTensors[ref.tensor]? with
  | some cpu, some npu =>
    if (cpu.rows : Int) ≤ srcMax then
      .error (.sourceOutOfBounds groupIdx srcMax ref.tensor cpu.rows)
    else if (npu.rows : Int) ≤ dstMax then
      .error (.destinationOutOfBounds groupIdx dstMax ref.tensor npu.rows)
    else .ok ()
  | _, _ => .error .indexError

def idMin (ids : List Int) : Int := ids.tail.foldl min (ids.headD 0)

def idMax (ids : List Int) : Int := ids.tail.foldl max (ids.headD 0)

def checkGroupIds (groupIdx : Nat) (refs : GroupRefs) (groupSrc groupDst : List Int) :
    Except MappedError Unit := do
  if idMin groupSrc < 0 ∨ idMin groupDst < 0 then throw (.negativeIds groupIdx)
  if int32Max < idMax groupSrc ∨ int32Max < idMax groupDst then throw (.idsExceedInt32 groupIdx)
  refs.forM (checkRefBounds cpuTensors npuTensors groupIdx (idMax groupSrc) (idMax groupDst))

def checkGroups : Nat → List (Nat × GroupRefs) → List Int → List Int → Except MappedError Unit
  | _, [], [], [] => .ok ()
  | _, [], _, _ => .error .idsLeftOver
  | groupIdx, (groupSize, refs) :: rest, src, dst => do
    if src.length < groupSize ∨ dst.length < groupSize then throw (.groupExceedsIds groupIdx)
    if groupSize ≠ 0 then
      checkGroupIds cpuTensors npuTensors groupIdx refs (src.take groupSize) (dst.take groupSize)
    checkGroups (groupIdx + 1) rest (src.drop groupSize) (dst.drop groupSize)

def validateMappedIds (groups : List GroupRefs) (plan : TransferPlan) (integerDtype : Bool) :
    Except MappedError Unit := do
  if !integerDtype then throw .notIntegerDtype
  checkGroups cpuTensors npuTensors 0 (plan.groupSizes.zip groups) plan.srcBlocks plan.dstBlocks

end Tensors

end VllmAscend.KvOffload.Mapped
