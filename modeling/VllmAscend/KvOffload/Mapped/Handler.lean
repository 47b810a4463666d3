import VllmAscend.Lib.Dict
import VllmAscend.Lib.Exec
import VllmAscend.Lib.Machine
import VllmAscend.KvOffload.Mapped.Layout

/-!
# The mapped offloading handler

`MappedOffloadingHandler` over a small model of the device. Streams, events and buffers are numbers that are handed
out once. Every device call can fail, and between two calls the device completes any of the work enqueued on it.
-/

namespace VllmAscend.KvOffload.Mapped

/-! ## The device -/

/-- Work is a record, a copy or a gather. A wait only orders a stream after other work and is not
counted. -/
structure Device where
  enqueued : Nat → Nat
  completed : Nat → Nat
  /-- What the host knows to be complete, by a query or a synchronization. -/
  observed : Nat → Nat
  /-- How much was enqueued when the stream was last synchronized. -/
  synced : Nat → Option Nat
  /-- Where an event was last recorded: its stream and its position there. -/
  recorded : Nat → Option (Nat × Nat)
  /-- The event was seen complete since it was last recorded. -/
  seen : Nat → Bool

namespace Device

def idle : Device where
  enqueued _ := 0
  completed _ := 0
  observed _ := 0
  synced _ := none
  recorded _ := none
  seen _ := false

def launch (d : Device) (stream : Nat) : Device :=
  { d with enqueued := Function.update d.enqueued stream (d.enqueued stream + 1) }

def record (d : Device) (event stream : Nat) : Device :=
  { d.launch stream with
    recorded := Function.update d.recorded event (some (stream, d.enqueued stream + 1))
    seen := Function.update d.seen event false }

def isComplete (d : Device) (event : Nat) : Bool :=
  match d.recorded event with
  | none => true
  | some (stream, pos) => pos ≤ d.completed stream

def observeEvent (d : Device) (event : Nat) : Device :=
  match d.recorded event with
  | none => d
  | some (stream, pos) =>
    { d with
      completed := Function.update d.completed stream (max (d.completed stream) pos)
      observed := Function.update d.observed stream (max (d.observed stream) pos)
      seen := Function.update d.seen event true }

def syncStream (d : Device) (stream : Nat) : Device :=
  { d with
    completed := Function.update d.completed stream (d.enqueued stream)
    observed := Function.update d.observed stream (d.enqueued stream)
    synced := Function.update d.synced stream (some (d.enqueued stream)) }

def advance (d : Device) (streams : List Nat) : Device :=
  { d with
    completed := streams.foldl (fun completed stream =>
      if completed stream < d.enqueued stream then
        Function.update completed stream (completed stream + 1)
      else completed) d.completed }

end Device

/-- What a device call does; `failsLate` raises after the work was enqueued. -/
inductive Outcome
  | succeeds | fails | failsLate
deriving DecidableEq, Repr

/-! ## The handler -/

structure DescriptorBuffers where
  id : Nat
  numel : Nat
deriving DecidableEq, Repr

structure MappedIDBuffers where
  id : Nat
  capacity : Nat
deriving DecidableEq, Repr

structure Transfer where
  jobId : Int
  stream : Nat
  startEvent : Nat
  endEvent : Nat
  numBytes : Nat
  descriptors : Option DescriptorBuffers
  mappedIds : Option MappedIDBuffers
  success : Bool := true
  needsStreamSync : Bool := false
  base : Nat
deriving DecidableEq, Repr

structure AsyncState where
  transferEvents : Dict Int Nat := ∅
  transfers : List Transfer := []
  streamPool : List Nat := []
  eventPool : List Nat := []
  poisoned : Bool := false

structure Handler where
  closed : Bool := false
  groups : List GroupRefs
  cpuTensors : List Tensor
  npuTensors : List Tensor
  gatherOp : Bool := true
  unregisterOp : Bool := true
  mappedHandles : List Int := []
  storeState : AsyncState := {}
  loadState : AsyncState := {}
  storeDescriptorPool : List DescriptorBuffers := []
  loadIdPool : List MappedIDBuffers := []
  -- The device and what it will answer.
  device : Device := Device.idle
  fresh : Nat := 0
  outcomes : List Outcome := []
  schedule : List (List Nat) := []
  -- What happened so far: the handle of each tensor, the handles released, for each gather its
  -- tensor and the handles released by then, for each recycled transfer and each call of the
  -- unregister op the device at that moment, and there also the transfers still queued.
  registered : List Int := []
  unregistered : List Int := []
  gathers : List (Nat × List Int) := []
  recycled : List (Transfer × Device) := []
  unregisterCalls : List (List Transfer × Device) := []

inductive Direction
  | store | load
deriving DecidableEq, Repr

namespace Handler

def state (h : Handler) : Direction → AsyncState
  | .store => h.storeState
  | .load => h.loadState

def setState (h : Handler) (dir : Direction) (state : AsyncState) : Handler :=
  match dir with
  | .store => { h with storeState := state }
  | .load => { h with loadState := state }

def queued (h : Handler) : List Transfer := h.storeState.transfers ++ h.loadState.transfers

def tick (h : Handler) : Handler :=
  { h with
    device := h.device.advance (h.schedule.headD [])
    schedule := h.schedule.tail
    outcomes := h.outcomes.tail }

def onDevice (h : Handler) (f : Device → Device) : Handler := { h with device := f h.device }

end Handler

abbrev HandlerM := Exec MappedError Handler

open Exec

def deviceCall (work late : Device → Device) : HandlerM Unit := fun h =>
  match h.outcomes.headD .succeeds with
  | .succeeds => (.ok (), h.tick.onDevice work)
  | .fails => (.error .device, h.tick)
  | .failsLate => (.error .device, h.tick.onDevice late)

/-- Waits, `elapsed_time`, the stream context and the creation of streams, events and buffers. -/
def hostCall : HandlerM Unit := deviceCall id id

def recordEvent (event stream : Nat) : HandlerM Unit := deviceCall (·.record event stream) id

def launch (stream : Nat) : HandlerM Unit := deviceCall (·.launch stream) (·.launch stream)

def synchronizeEvent (event : Nat) : HandlerM Unit := deviceCall (·.observeEvent event) id

def synchronizeStream (stream : Nat) : HandlerM Unit := deviceCall (·.syncStream stream) id

def queryEvent (event : Nat) : HandlerM Bool := do
  hostCall
  let h ← get
  if h.device.isComplete event then
    modify (·.onDevice (·.observeEvent event))
    return true
  else return false

def create : HandlerM Nat := do
  hostCall
  let h ← get
  modify fun h => { h with fresh := h.fresh + 1 }
  return h.fresh

/-! ## Pools -/

def popStream (dir : Direction) : HandlerM Nat := do
  let h ← get
  match (h.state dir).streamPool.getLast? with
  | some stream =>
    modify fun h => h.setState dir
      { h.state dir with streamPool := (h.state dir).streamPool.dropLast }
    return stream
  | none => create

def popEvent (dir : Direction) : HandlerM Nat := do
  let h ← get
  match (h.state dir).eventPool.getLast? with
  | some event =>
    modify fun h => h.setState dir
      { h.state dir with eventPool := (h.state dir).eventPool.dropLast }
    return event
  | none => create

def newDescriptorBuffers (numCopyOps : Nat) : HandlerM DescriptorBuffers := do
  let id ← create
  return ⟨id, numCopyOps⟩

def popDescriptorBuffers (numCopyOps : Nat) : HandlerM DescriptorBuffers := do
  let h ← get
  match h.storeDescriptorPool.getLast? with
  | some buffers =>
    modify fun h => { h with storeDescriptorPool := h.storeDescriptorPool.dropLast }
    if buffers.numel < numCopyOps then newDescriptorBuffers numCopyOps else return buffers
  | none => newDescriptorBuffers numCopyOps

def prepareStoreDescriptors (plan : TransferPlan) : HandlerM DescriptorBuffers := do
  let buffers ← popDescriptorBuffers plan.numCopyOps
  let h ← get
  let _ ← ofExcept (storeDescriptors h.cpuTensors h.npuTensors h.groups plan)
  return buffers

/-- The index of the smallest buffers that hold `numIds` ids, the first of them on a tie. -/
def bestIdx (numIds : Nat) (pool : List MappedIDBuffers) : Option Nat :=
  pool.zipIdx.foldl (fun best (buffers, idx) =>
    if numIds ≤ buffers.capacity ∧
        (best.bind (pool[·]?)).all (fun other => buffers.capacity < other.capacity) then some idx
    else best) none

def bitLength (n : Nat) : Nat := if n = 0 then 0 else n.log2 + 1

def newIdCapacity (numIds : Nat) : Nat :=
  if numIds ≤ mappedGatherMaxCachedIds then
    min (1 <<< bitLength (numIds - 1)) mappedGatherMaxCachedIds
  else numIds

def acquireMappedIds (numIds : Nat) : HandlerM MappedIDBuffers := do
  let h ← get
  match (bestIdx numIds h.loadIdPool).bind fun idx => h.loadIdPool[idx]?.map (idx, ·) with
  | some (idx, buffers) =>
    modify fun h => { h with loadIdPool := h.loadIdPool.eraseIdx idx }
    return buffers
  | none =>
    let id ← create
    return ⟨id, newIdCapacity numIds⟩

def releaseMappedIds (h : Handler) (buffers : MappedIDBuffers) : Handler :=
  if buffers.capacity ≤ mappedGatherMaxCachedIds ∧
      h.loadIdPool.length < mappedGatherIdBufferCacheSize then
    { h with loadIdPool := h.loadIdPool ++ [buffers] }
  else h

def acquireAsyncResources (dir : Direction) (waitForCurrentStream : Bool) :
    HandlerM (Nat × Nat × Nat) := do
  let h ← get
  require (!(h.state dir).poisoned) .poisoned
  let stream ← popStream dir
  let startEvent ← popEvent dir
  let endEvent ← popEvent dir
  when waitForCurrentStream hostCall
  let h ← get
  when (!(h.state dir).transfers.isEmpty) hostCall
  return (stream, startEvent, endEvent)

def trackSubmission (dir : Direction) (t : Transfer) : HandlerM Unit :=
  modify fun h => h.setState dir
    { h.state dir with
      transferEvents := (h.state dir).transferEvents.set t.jobId t.endEvent
      transfers := (h.state dir).transfers ++ [t] }

def recycleAsync (h : Handler) (dir : Direction) (t : Transfer) : Handler :=
  h.setState dir
    { h.state dir with
      streamPool := (h.state dir).streamPool ++ [t.stream]
      eventPool := (h.state dir).eventPool ++ [t.endEvent, t.startEvent] }

def recycleBuffers (h : Handler) (t : Transfer) : Handler :=
  let h := match t.descriptors with
    | some buffers => { h with storeDescriptorPool := h.storeDescriptorPool ++ [buffers] }
    | none => h
  match t.mappedIds with
  | some buffers => releaseMappedIds h buffers
  | none => h

def recycleTransferResources (dir : Direction) (t : Transfer) : HandlerM Unit :=
  modify fun h => recycleBuffers (recycleAsync { h with recycled := h.recycled ++ [(t, h.device)] } dir t) t

/-! ## Submissions -/

structure Progress where
  workMayBeInflight : Bool
  completionRecorded : Bool
deriving DecidableEq, Repr

/-- An exception at this point of a submission meets its handler with these two flags. -/
def at_ (p : Progress) (m : HandlerM Unit) : Exec (Progress × MappedError) Handler Unit := do
  match ← attempt m with
  | .ok () => pure ()
  | .error e => raise (p, e)

/-- The body of the `try`. Leaving the stream context after an exception raises at most another
one, with the same flags. -/
def submissionBody (t : Transfer) (work : HandlerM Unit) :
    Exec (Progress × MappedError) Handler Unit := do
  at_ ⟨false, false⟩ hostCall
  at_ ⟨false, false⟩ (recordEvent t.startEvent t.stream)
  at_ ⟨true, false⟩ work
  at_ ⟨true, false⟩ (recordEvent t.endEvent t.stream)
  at_ ⟨true, true⟩ hostCall

/-- Nothing proves the stream idle: the transfer stays queued until a shutdown synchronizes it. -/
def poison (dir : Direction) (t : Transfer) : HandlerM Unit :=
  modify fun h => h.setState dir
    { h.state dir with
      poisoned := true
      transfers := (h.state dir).transfers ++ [{ t with needsStreamSync := true }] }

def preserveFailedSubmission (dir : Direction) (t : Transfer) (p : Progress) : HandlerM Unit :=
  if p.workMayBeInflight && !p.completionRecorded then do
    match ← attempt (recordEvent t.endEvent t.stream) with
    | .ok () => trackSubmission dir t
    | .error _ =>
      match ← attempt (synchronizeStream t.stream) with
      | .ok () => recycleTransferResources dir t
      | .error _ => poison dir t
  else if p.completionRecorded then trackSubmission dir t
  else recycleTransferResources dir t

def submit (dir : Direction) (t : Transfer) (work : HandlerM Unit) : HandlerM Bool := do
  match ← attempt (submissionBody t work) with
  | .ok () =>
    trackSubmission dir t
    return true
  | .error (p, e) =>
    preserveFailedSubmission dir { t with success := false } p
    raise e

def submitStore (jobId : Int) (src dst : LoadStoreSpec) : HandlerM Bool := do
  let h ← get
  require (!h.closed) .shutDown
  require (dst.kind ≠ .other) .notBlockIds
  let plan ← ofExcept (makeTransferPlan h.groups src dst src)
  let buffers ← prepareStoreDescriptors plan
  let (stream, startEvent, endEvent) ← acquireAsyncResources .store true
  let h ← get
  submit .store
    { jobId, stream, startEvent, endEvent, numBytes := plan.numTransferBytes,
      descriptors := some buffers, mappedIds := none, base := h.device.enqueued stream }
    (if 0 < plan.numCopyOps then launch stream else pure ())

def gather (stream : Nat) (ref : CanonicalKVCacheRef) : HandlerM Unit := do
  modify fun h => { h with gathers := h.gathers ++ [(ref.tensor, h.unregistered)] }
  launch stream

def gatherGroup (stream : Nat) (group : Nat × GroupRefs) : HandlerM Unit :=
  if group.1 = 0 then pure () else forEach group.2 (gather stream)

def runMappedGather (stream : Nat) (plan : TransferPlan) : HandlerM Unit := do
  let h ← get
  require (h.gatherOp && !h.mappedHandles.isEmpty) .poolNotActive
  -- The source and the destination ids go to the device first.
  launch stream
  launch stream
  forEach (plan.groupSizes.zip h.groups) (gatherGroup stream)
  require (((plan.groupSizes.zip h.groups).map Prod.fst).sum == plan.srcBlocks.length) .idsLeftOver

def acquireLoadIds (plan : TransferPlan) (integerDtype : Bool) :
    HandlerM (Option MappedIDBuffers) := do
  if plan.srcBlocks = [] then return none
  else
    let h ← get
    ofExcept (validateMappedIds h.cpuTensors h.npuTensors h.groups plan integerDtype)
    let buffers ← acquireMappedIds plan.srcBlocks.length
    return some buffers

def loadWork (stream : Nat) (plan : TransferPlan) (mappedIds : Option MappedIDBuffers) :
    HandlerM Unit :=
  if 0 < plan.numCopyOps then do
    require mappedIds.isSome .assertion
    runMappedGather stream plan
  else pure ()

def submitLoad (jobId : Int) (src dst : LoadStoreSpec) : HandlerM Bool := do
  let h ← get
  require (!h.closed) .shutDown
  require (src.kind ≠ .other) .notBlockIds
  let plan ← ofExcept (makeTransferPlan h.groups src dst dst)
  require (plan.groupSizes.sum = plan.srcBlocks.length ∧ plan.srcBlocks.length = plan.dstBlocks.length) .oneIdPerBlock
  let mappedIds ← acquireLoadIds plan (src.integerDtype && dst.integerDtype)
  let (stream, startEvent, endEvent) ← acquireAsyncResources .load false
  let h ← get
  submit .load
    { jobId, stream, startEvent, endEvent, numBytes := plan.numTransferBytes,
      descriptors := none, mappedIds, base := h.device.enqueued stream }
    (loadWork stream plan mappedIds)

def transferAsync (jobId : Int) (src dst : LoadStoreSpec) : HandlerM Bool :=
  match src.kind, dst.kind with
  | .gpu, .cpu => submitStore jobId src dst
  | .cpu, .gpu => submitLoad jobId src dst
  | _, _ => raise .unsupportedDirection

/-! ## Finished transfers -/

structure TransferResult where
  jobId : Int
  success : Bool
  transferSize : Nat
deriving DecidableEq, Repr

def popLeft (dir : Direction) : HandlerM Unit :=
  modify fun h => h.setState dir { h.state dir with transfers := (h.state dir).transfers.tail }

def popTransferEvent (dir : Direction) (jobId : Int) : HandlerM Unit :=
  modify fun h => h.setState dir
    { h.state dir with transferEvents := (h.state dir).transferEvents.erase jobId }

/-- The queue's head is taken off before its time is read, which can raise. -/
def reportHead (dir : Direction) (t : Transfer) : HandlerM TransferResult := do
  popLeft dir
  hostCall
  recycleTransferResources dir t
  popTransferEvent dir t.jobId
  return ⟨t.jobId, t.success, t.numBytes⟩

def finishHead (dir : Direction) : HandlerM (Option TransferResult) := do
  let h ← get
  match (h.state dir).transfers with
  | [] => return none
  | t :: _ =>
    if t.needsStreamSync then return none
    else
      let complete ← queryEvent t.endEvent
      if complete then
        let result ← reportHead dir t
        return some result
      else return none

/-- Every iteration takes a transfer off the queue, so its length bounds the loop. -/
def finishQueue (dir : Direction) : Nat → HandlerM (List TransferResult)
  | 0 => return []
  | fuel + 1 => do
    match ← finishHead dir with
    | none => return []
    | some result =>
      let rest ← finishQueue dir fuel
      return result :: rest

def getFinished : HandlerM (List TransferResult) := do
  let h ← get
  let stored ← finishQueue .store h.storeState.transfers.length
  let loaded ← finishQueue .load h.loadState.transfers.length
  return stored ++ loaded

def waitJob (dir : Direction) (jobId : Int) : HandlerM Unit := do
  let h ← get
  match (h.state dir).transferEvents.get? jobId with
  | some event => synchronizeEvent event
  | none => pure ()

def wait (jobIds : List Int) : HandlerM Unit := do
  forEach jobIds (waitJob .store)
  forEach jobIds (waitJob .load)

/-! ## Registration and shutdown -/

def unregister (handle : Int) : HandlerM Bool := do
  modify fun h => { h with unregisterCalls := h.unregisterCalls ++ [(h.queued, h.device)] }
  match ← attempt hostCall with
  | .ok () =>
    modify fun h => { h with unregistered := h.unregistered ++ [handle] }
    return true
  | .error _ => return false

/-- Handles whose call failed are kept for a retry. -/
def unregisterOrKeep (handle : Int) : HandlerM Unit := do
  let released ← unregister handle
  if released then pure ()
  else modify fun h => { h with mappedHandles := h.mappedHandles ++ [handle] }

def dropOps : HandlerM Unit := modify fun h => { h with gatherOp := false, unregisterOp := false }

def closeMappedPool : HandlerM Unit := do
  let h ← get
  if h.mappedHandles = [] then dropOps
  else
    require h.unregisterOp .noUnregisterOp
    modify fun h => { h with mappedHandles := [] }
    forEach h.mappedHandles.reverse unregisterOrKeep
    let h ← get
    require (h.mappedHandles = []) (.unregisterFailed h.mappedHandles.length)
    dropOps

def synchronizeTransfer (t : Transfer) : HandlerM Unit :=
  if t.needsStreamSync then synchronizeStream t.stream else synchronizeEvent t.endEvent

def drainHead (dir : Direction) (t : Transfer) : HandlerM Unit := do
  synchronizeTransfer t
  popLeft dir
  popTransferEvent dir t.jobId

def drainQueue (dir : Direction) : HandlerM Unit := do
  let h ← get
  forEach (h.state dir).transfers (drainHead dir)
  modify fun h => h.setState dir { h.state dir with poisoned := false }

def AsyncState.clear (state : AsyncState) : AsyncState :=
  { state with transferEvents := ∅, streamPool := [], eventPool := [] }

def Handler.close (h : Handler) : Handler :=
  { h with
    storeState := h.storeState.clear
    loadState := h.loadState.clear
    storeDescriptorPool := []
    loadIdPool := []
    cpuTensors := []
    npuTensors := []
    closed := true }

def shutdown : HandlerM Unit := do
  let h ← get
  if h.closed then pure ()
  else
    drainQueue .store
    drainQueue .load
    closeMappedPool
    modify Handler.close

/-! ## Construction -/

/-- A tensor of `CanonicalKVCaches`: what its row view is (`viewable` when torch can make it) and
where torch places the CPU tensor that goes with it. -/
structure KVCacheTensor where
  pageSizeBytes : Nat
  dataPtr : Nat
  rows : Nat
  rowStride : Nat
  contiguous : Bool
  viewable : Bool
  cpuDataPtr : Nat
deriving DecidableEq, Repr

structure HandlerArgs where
  tensors : List KVCacheTensor
  groups : List GroupRefs
  blockSizeFactor : Int
  numCpuBlocks : Int
  opsAvailable : Bool
  /-- What the register op returns for each tensor, `none` when it raises. -/
  handle : Nat → Option Int
  outcomes : List Outcome := []

def npuTensor (t : KVCacheTensor) : Except MappedError Tensor :=
  if t.viewable then .ok ⟨t.dataPtr, t.rows, t.pageSizeBytes, t.rowStride, t.contiguous⟩
  else .error .tensorView

def cpuTensor (numCpuBlocks : Int) (t : KVCacheTensor) : Tensor :=
  ⟨t.cpuDataPtr, numCpuBlocks.toNat, t.pageSizeBytes, t.pageSizeBytes, true⟩

def registerTensor (handle : Nat → Option Int) (tensorIdx : Nat) : HandlerM Unit :=
  match handle tensorIdx with
  | none => raise .device
  | some handle => do
    require (0 < handle) (.invalidHandle handle)
    modify fun h =>
      { h with
        mappedHandles := h.mappedHandles ++ [handle]
        registered := h.registered ++ [handle] }

def registerMappedPool (handle : Nat → Option Int) : HandlerM Unit := do
  let h ← get
  match ← attempt (forEach (List.range h.cpuTensors.length) (registerTensor handle)) with
  | .ok () => pure ()
  | .error e =>
    let _ ← attempt closeMappedPool
    raise e

def construct (args : HandlerArgs) : Except MappedError Handler := do
  if args.blockSizeFactor ≠ 1 then throw .blockSizeFactor
  if args.numCpuBlocks ≤ 0 then throw .noCpuBlocks
  if !args.opsAvailable then throw .opsUnavailable
  let npuTensors ← args.tensors.mapM npuTensor
  let cpuTensors := args.tensors.map (cpuTensor args.numCpuBlocks)
  validateMappedGatherLayout npuTensors cpuTensors args.groups
  let (result, h) := registerMappedPool args.handle
    { groups := args.groups, cpuTensors, npuTensors, outcomes := args.outcomes }
  result
  return h

inductive Call
  | submitStore (jobId : Int) (src dst : LoadStoreSpec)
  | submitLoad (jobId : Int) (src dst : LoadStoreSpec)
  | transferAsync (jobId : Int) (src dst : LoadStoreSpec)
  | getFinished
  | wait (jobIds : List Int)
  | shutdown

/-- A call, with how its device calls end and what the device completes before each of them. -/
structure Action where
  call : Call
  outcomes : List Outcome := []
  schedule : List (List Nat) := []

def perform : Call → HandlerM Unit
  | .submitStore jobId src dst => do
    let _ ← submitStore jobId src dst
  | .submitLoad jobId src dst => do
    let _ ← submitLoad jobId src dst
  | .transferAsync jobId src dst => do
    let _ ← transferAsync jobId src dst
  | .getFinished => do
    let _ ← getFinished
  | .wait jobIds => wait jobIds
  | .shutdown => shutdown

/-- A call that raises leaves what it has changed. -/
def step (h : Handler) (a : Action) : Option Handler :=
  some (perform a.call { h with outcomes := a.outcomes, schedule := a.schedule }).2

end VllmAscend.KvOffload.Mapped
