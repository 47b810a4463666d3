import VllmAscend.Core.ForkSchedulers

/-!
# `SchedulerDynamicBatch`

Log messages, KV cache events and the connector metadata, which no queue depends on, are left out.
-/

namespace VllmAscend.Core.DynamicBatch

open Machine

variable {W F : Type} [PyFloat F]

/-! ## The budget refiner -/

/-- Python iterates over the two sets of keys in some fixed order, which the lists give. -/
structure BudgetRefiner where
  enabled : Bool
  lookup : Dict (Int × Int) Int
  contextKeys : List Int
  dnumKeys : List Int
  defaultBudget : Int

def alignKey (value : F) (validKeys : List Int) : Option Int :=
  validKeys.find? fun k => PyFloat.le value (PyFloat.ofInt k)

def getMaxBudget (b : BudgetRefiner) (numDecodeTokens : F) (numDecode : Nat) : Int :=
  match alignKey numDecodeTokens b.contextKeys, b.dnumKeys.find? fun k => decide ((numDecode : Int) ≤ k) with
  | some alignedCtx, some alignedDnum => b.lookup.getD (alignedCtx, alignedDnum) b.defaultBudget
  | _, _ => b.defaultBudget

def isDecode (request : Request F) : Bool := decide (request.numPromptTokens ≤ request.numComputedTokens)

def refineBudget (b : BudgetRefiner) (requests : ReqId → Request F) (running : List ReqId)
    (budget : Int) : Int :=
  if b.enabled then
    let decodeTokens := (running.filter fun r => isDecode (requests r)).map
      fun r => (requests r).numTokensWithSpec
    if decodeTokens = [] then budget
    else
      getMaxBudget b
        (PyFloat.div (PyFloat.ofInt decodeTokens.sum) (PyFloat.ofInt decodeTokens.length) : F)
        decodeTokens.length
  else budget

def reorder (requests : ReqId → Request F) (running : List ReqId) : List ReqId :=
  (running.filter fun r => isDecode (requests r)) ++
    running.filter fun r => !isDecode (requests r)

/-! ## The running requests -/

section Running

variable (c : SchedulerConfig) (h : Hooks W F)

def scheduleEncoder (s : RunState W F) (r : ReqId) (n : Int) :
    Except PyError (EncoderPlan × Int × W) :=
  let request := s.requests r
  if request.hasEncoderInputs then
    let (res, world) := h.tryScheduleEncoderInputs s.world request request.numComputedTokens n
      s.encoderComputeBudget 0
    match res.externalLoadEncoderInput with
    | none => .ok (⟨res.encoderInputsToSchedule, res.newEncoderComputeBudget, []⟩, res.numNewTokens, world)
    | some _ => .error .valueError
  else .ok (⟨[], s.encoderComputeBudget, []⟩, n, s.world)

def headStep (s : RunState W F) : Phase W F :=
  match s.running[s.reqIndex]? with
  | none => .finished s
  | some r =>
    if s.tokenBudget ≤ 0 then .finished s
    else
      match scheduleEncoder h s r (newTokens c (s.requests r) s.tokenBudget) with
      | .error e => .raised e
      | .ok (enc, n, world) =>
        if n = 0 then .finished (skipRequest { s with world }) else .alloc r n enc { s with world }

/-- Preemption. The tokens, the blocks and the index of a scheduled victim stay. -/
def dropVictim (s : RunState W F) (v : ReqId) : RunState W F :=
  let request := s.requests v
  { updateRequest s v { request with status := .preempted, numComputedTokens := 0 } with
    toPlan := s.toPlan.drop v
    waiting := prependRequest s.waiting v
    world := h.encoderFree (h.kvFree s.world request) request }

def preemptVictim (now : F) (r : ReqId) (n : Int) (enc : EncoderPlan) (s : RunState W F) :
    Phase W F :=
  match pickPreemptVictim c h now s with
  | none => .raised .valueError
  | some (v, selector) =>
    let s := dropVictim h { s with selector } v
    if v = r then .finished s else .alloc r n enc s

/-- The draft tokens of a scheduled request. The request keeps what was scheduled of them. -/
def recordSpecTokens (s : RunState W F) (r : ReqId) (n : Int) : RunState W F :=
  let request := s.requests r
  let numSpec := n + request.numComputedTokens - request.numTokens
  if request.specTokenIds ≠ [] ∧ 0 < numSpec then
    let specTokenIds := request.specTokenIds.take numSpec.toNat
    { updateRequest s r { request with specTokenIds } with
      scheduledSpecDecodeTokens := s.scheduledSpecDecodeTokens.set r specTokenIds }
  else s

def scheduleRequest (s : RunState W F) (r : ReqId) (n : Int) (enc : EncoderPlan)
    (newBlocks : KVCacheBlocks) : RunState W F :=
  recordEncoder h (recordSpecTokens { s with toPlan := s.toPlan.commit r n newBlocks } r n) r enc

def allocStep (now : F) (r : ReqId) (n : Int) (enc : EncoderPlan) (s : RunState W F) : Phase W F :=
  match allocateRunning c h s r n with
  | (some newBlocks, world) => .head (scheduleRequest h { s with world } r n enc newBlocks)
  | (none, world) => preemptVictim c h now r n enc { s with world }

def step (now : F) : Phase W F → Unit → Option (Phase W F) := phaseStep (headStep c h) (allocStep c h now)

def beginRunning (refiner : BudgetRefiner) (st : SchedulerState W F) : RunState W F :=
  beginStep c { st with running := reorder st.requests st.running }
    (refineBudget refiner st.requests st.running c.maxNumScheduledTokens) PyFloat.inf

def runningPhase (refiner : BudgetRefiner) (now : F) (st : SchedulerState W F) :
    Option (Phase W F) :=
  runToEnd (step c h now) (6 * st.running.length + 2) (.head (beginRunning c refiner st))

end Running

/-! ## The waiting requests -/

structure WaitConfig where
  maxNumRunningReqs : Nat
  maxLoras : Option Nat
  enableChunkedPrefill : Bool
  isEncoderDecoder : Bool
  /-- `WAITING_FOR_STRUCTURED_OUTPUT_STATUS`, whose name differs between vLLM versions. -/
  structuredOutputStatus : Option RequestStatus

structure ConnectorHooks (W F : Type) where
  getNumNewMatchedTokens : W → Request F → Int → (Option Int × Bool) × W
  updateStateAfterAlloc : W → Request F → KVCacheBlocks → Int → W

structure WaitHooks (W F : Type) where
  /-- Which of two non-empty queues `_select_waiting_queue_for_scheduling` takes. -/
  prefersSkipped : W → List ReqId → List ReqId → Bool
  /-- `structured_output_req.grammar` is there. It is compiled elsewhere, so a later call may
  answer otherwise. -/
  hasGrammar : W → Request F → Bool × W
  isBlockedWaitingStatus : RequestStatus → Bool
  /-- `_try_promote_blocked_waiting_request`: the answer, the new status and computed tokens. -/
  tryPromote : W → Request F → (Bool × RequestStatus × Int) × W
  getComputedBlocks : W → Request F → (KVCacheBlocks × Int) × W
  getBlocks : W → ReqId → KVCacheBlocks
  connector : Option (ConnectorHooks W F)

structure WaitState (W F : Type) extends RunState W F where
  stepSkippedWaiting : List ReqId
  scheduledNewReqs : List ReqId
  scheduledResumedReqs : List ReqId
  scheduledLoras : List Nat

inductive QueueName
  | waiting
  | skippedWaiting
  deriving DecidableEq

def QueueName.other : QueueName → QueueName
  | .waiting => .skippedWaiting
  | .skippedWaiting => .waiting

namespace WaitState

def queue (s : WaitState W F) : QueueName → List ReqId
  | .waiting => s.waiting
  | .skippedWaiting => s.skippedWaiting

def setQueue (s : WaitState W F) (q : QueueName) (l : List ReqId) : WaitState W F :=
  match q with
  | .waiting => { s with waiting := l }
  | .skippedWaiting => { s with skippedWaiting := l }

def setRequest (s : WaitState W F) (r : ReqId) (status : RequestStatus) (numComputedTokens : Int) :
    WaitState W F :=
  { s with
    requests := Function.update s.requests r
      { s.requests r with status, numComputedTokens } }

def setWorld (s : WaitState W F) (world : W) : WaitState W F := { s with world }

end WaitState

inductive Exit (W F : Type)
  /-- Pop the selected queue and keep the request for the next step. -/
  | skip (s : WaitState W F)
  /-- The same for a request without grammar, which pops `self.waiting`. -/
  | skipGrammar (s : WaitState W F)
  | leave (s : WaitState W F)
  | raised (e : PyError)

structure CachedTokens where
  newComputedBlocks : KVCacheBlocks
  numNewLocalComputedTokens : Int
  numExternalComputedTokens : Int
  loadKvAsync : Bool
  numComputedTokens : Int

structure Admission where
  numNewTokens : Int
  numComputedTokens : Int
  loadKvAsync : Bool
  enc : EncoderPlan

section Waiting

variable (c : SchedulerConfig) (wc : WaitConfig) (h : Hooks W F) (wh : WaitHooks W F)

/-! ### Tests of one request -/

def awaitsGrammar (s : WaitState W F) (r : ReqId) : Bool :=
  wc.structuredOutputStatus = some (s.requests r).status &&
    !((s.requests r).hasStructuredOutputRequest && (wh.hasGrammar s.world (s.requests r)).1)

def askGrammar (s : WaitState W F) (r : ReqId) : WaitState W F :=
  if (s.requests r).hasStructuredOutputRequest then
    s.setWorld (wh.hasGrammar s.world (s.requests r)).2
  else s

def checkGrammar (s : WaitState W F) (r : ReqId) : Except (Exit W F) (WaitState W F) :=
  if wc.structuredOutputStatus = some (s.requests r).status then
    if awaitsGrammar wc wh s r then .error (.skipGrammar (askGrammar wh s r))
    else .ok ((askGrammar wh s r).setRequest r .waiting (s.requests r).numComputedTokens)
  else .ok s

def checkBlocked (s : WaitState W F) (r : ReqId) : Except (Exit W F) (WaitState W F) :=
  if wh.isBlockedWaitingStatus (s.requests r).status then
    let ((promoted, status, numComputedTokens), world) := wh.tryPromote s.world (s.requests r)
    let s := (s.setRequest r status numComputedTokens).setWorld world
    if promoted then .ok s else .error (.skip s)
  else .ok s

def checkLora (s : WaitState W F) (r : ReqId) : Except (Exit W F) (WaitState W F) :=
  match wc.maxLoras, (s.requests r).loraIntId with
  | some maxLoras, some lora =>
    if s.scheduledLoras.length = maxLoras ∧ lora ∉ s.scheduledLoras then .error (.skip s) else .ok s
  | _, _ => .ok s

def lookupCached (s : WaitState W F) (r : ReqId) :
    Except (Exit W F) (WaitState W F × CachedTokens) :=
  let request := s.requests r
  if request.numComputedTokens = 0 then
    let ((blocks, numLocal), world) := wh.getComputedBlocks s.world request
    match wh.connector with
    | none => .ok (s.setWorld world, ⟨blocks, numLocal, 0, false, numLocal + 0⟩)
    | some connector =>
      let ((external, loadKvAsync), world) := connector.getNumNewMatchedTokens world request numLocal
      match external with
      | none => .error (.skip (s.setWorld world))
      | some n => .ok (s.setWorld world, ⟨blocks, numLocal, n, loadKvAsync, numLocal + n⟩)
  else .ok (s, ⟨[], 0, 0, false, request.numComputedTokens⟩)

def scheduleEncoderWaiting (s : WaitState W F) (r : ReqId) (numComputed n : Int) :
    Except (Exit W F) (WaitState W F × Int × EncoderPlan) :=
  let request := s.requests r
  if request.hasEncoderInputs then
    let (res, world) := h.tryScheduleEncoderInputs s.world request numComputed n
      s.encoderComputeBudget 0
    let s := s.setWorld world
    match res.externalLoadEncoderInput with
    | none => .error (.raised .valueError)
    | some _ =>
      if res.numNewTokens = 0 then .error (.leave s)
      else
        .ok (s, res.numNewTokens, ⟨res.encoderInputsToSchedule, res.newEncoderComputeBudget, []⟩)
  else .ok (s, n, ⟨[], s.encoderComputeBudget, []⟩)

def countTokens (s : WaitState W F) (r : ReqId) (cached : CachedTokens) :
    Except (Exit W F) (WaitState W F × Int × EncoderPlan) :=
  if cached.loadKvAsync then
    if 0 < cached.numExternalComputedTokens then .ok (s, 0, ⟨[], s.encoderComputeBudget, []⟩)
    else .error (.raised .assertionError)
  else
    let n := capPrefill c ((s.requests r).numTokens - cached.numComputedTokens)
    if wc.enableChunkedPrefill = false ∧ s.tokenBudget < n then .error (.skip s)
    else
      let n := min n s.tokenBudget
      if 0 < n then scheduleEncoderWaiting h s r cached.numComputedTokens n
      else .error (.raised .assertionError)

def allocateWaiting (s : WaitState W F) (r : ReqId) (cached : CachedTokens) (n : Int)
    (enc : EncoderPlan) : Except (Exit W F) (WaitState W F × Admission) :=
  let request := s.requests r
  let (newBlocks, world) := h.allocateSlots s.world request
    { numNewTokens := n + cached.numExternalComputedTokens
      numNewComputedTokens := cached.numNewLocalComputedTokens
      newComputedBlocks := cached.newComputedBlocks
      numLookaheadTokens := if request.numComputedTokens = 0 then 0 else c.numLookaheadTokens
      delayCacheBlocks := cached.loadKvAsync
      numEncoderTokens := if wc.isEncoderDecoder ∧ request.hasEncoderInputs then c.maxNumEncoderInputTokens else 0 }
  let s := s.setWorld world
  match newBlocks with
  | none => .error (.leave s)
  | some newBlocks =>
    let s :=
      match wh.connector with
      | none => s
      | some connector => s.setWorld (connector.updateStateAfterAlloc world request
          (cached.newComputedBlocks ++ newBlocks) cached.numExternalComputedTokens)
    .ok (s, ⟨n, cached.numComputedTokens, cached.loadKvAsync, enc⟩)

def considerRequest (s : WaitState W F) (r : ReqId) :
    Except (Exit W F) (WaitState W F × Admission) := do
  let s ← checkGrammar wc wh s r
  let s ← checkBlocked wh s r
  let s ← checkLora wc s r
  let (s, cached) ← lookupCached wh s r
  let (s, n, enc) ← countTokens c wc h s r cached
  allocateWaiting c wc h wh s r cached n enc

/-! ### One iteration -/

def selectWaitingQueue (s : WaitState W F) : Option QueueName :=
  let preferred :=
    if wh.prefersSkipped s.world s.waiting s.skippedWaiting then QueueName.skippedWaiting
    else .waiting
  if s.queue preferred ≠ [] then some preferred
  else if s.queue preferred.other ≠ [] then some preferred.other
  else none

def peeked (s : WaitState W F) : Option (QueueName × ReqId) :=
  if s.tokenBudget ≤ 0 ∨ s.running.length = wc.maxNumRunningReqs then none
  else (selectWaitingQueue wh s).bind fun q => (peekRequest s.requests c.policy (s.queue q)).map fun r => (q, r)

def popQueue (s : WaitState W F) (q : QueueName) : Option (WaitState W F) :=
  (popRequest s.requests c.policy (s.queue q)).map fun (_, rest) => s.setQueue q rest

def prependSkipped (s : WaitState W F) (r : ReqId) : WaitState W F :=
  { s with stepSkippedWaiting := prependRequest s.stepSkippedWaiting r }

def startRunning (s : WaitState W F) (r : ReqId) (a : Admission) :
    Except PyError (WaitState W F) :=
  let s := { s with toPlan := { s.toPlan with running := s.running ++ [r], reqIndex := s.reqIndex + 1 } }
  let request := s.requests r
  match request.status with
  | .waiting => .ok (record { s with scheduledNewReqs := s.scheduledNewReqs ++ [r] })
  | .preempted => .ok (record { s with scheduledResumedReqs := s.scheduledResumedReqs ++ [r] })
  | _ => .error .runtimeError
where
  record (s : WaitState W F) : WaitState W F :=
    let s :=
      { s with
        toPlan :=
          { s.toPlan with
            reqToNewBlocks := s.reqToNewBlocks.set r (wh.getBlocks s.world r)
            numScheduledTokens := s.numScheduledTokens.set r a.numNewTokens
            tokenBudget := s.tokenBudget - a.numNewTokens }
        scheduledLoras :=
          match wc.maxLoras, (s.requests r).loraIntId with
          | some _, some lora => s.scheduledLoras.insert lora
          | _, _ => s.scheduledLoras }
    let s := s.setRequest r .running a.numComputedTokens
    { s with toRunState := recordEncoder h s.toRunState r a.enc }

inductive WaitPhase (W F : Type)
  | loop (s : WaitState W F)
  | finished (s : WaitState W F)
  | raised (e : PyError)

def finishIteration (q : QueueName) (r : ReqId) :
    Except (Exit W F) (WaitState W F × Admission) → WaitPhase W F
  | .error (.raised e) => .raised e
  | .error (.leave s) => .finished s
  | .error (.skip s) =>
    match popQueue c s q with
    | none => .raised .indexError
    | some s => .loop (prependSkipped s r)
  | .error (.skipGrammar s) =>
    match popQueue c s .waiting with
    | none => .raised .indexError
    | some s => .loop (prependSkipped s r)
  | .ok (s, a) =>
    match popQueue c s q with
    | none => .raised .indexError
    | some s =>
      if a.loadKvAsync then
        .loop (prependSkipped (s.setRequest r .waitingForRemoteKvs a.numComputedTokens) r)
      else
        match startRunning wc h wh s r a with
        | .error e => .raised e
        | .ok s => .loop s

def iterate (s : WaitState W F) : WaitPhase W F :=
  match peeked c wc wh s with
  | none => .finished s
  | some (q, r) => finishIteration c wc h wh q r (considerRequest c wc h wh s r)

def waitStep : WaitPhase W F → Unit → Option (WaitPhase W F)
  | .loop s, _ => some (iterate c wc h wh s)
  | .finished _, _ => none
  | .raised _, _ => none

/-! ## `schedule()` -/

def initialLoras (s : RunState W F) : List Nat :=
  if wc.maxLoras.isSome then
    ((s.scheduledRunningReqs.filterMap fun r => (s.requests r).loraIntId).filter (0 < ·)).dedup
  else []

def lorasFit (s : RunState W F) : Bool :=
  wc.maxLoras.all fun maxLoras => decide ((initialLoras wc s).length ≤ maxLoras)

def beginWaiting (s : RunState W F) : WaitState W F :=
  { toRunState := s, stepSkippedWaiting := [], scheduledNewReqs := [], scheduledResumedReqs := [],
    scheduledLoras := initialLoras wc s }

def waitingPhase (s : RunState W F) : Option (WaitPhase W F) :=
  runToEnd (waitStep c wc h wh) (s.waiting.length + s.skippedWaiting.length + 1)
    (.loop (beginWaiting wc s))

def requeueSkipped (s : WaitState W F) : WaitState W F :=
  { s with
    skippedWaiting := prependRequests s.skippedWaiting s.stepSkippedWaiting
    stepSkippedWaiting := [] }

def constraintsHold (s : WaitState W F) : Bool :=
  decide (s.numScheduledTokens.values.sum ≤ c.maxNumScheduledTokens) &&
    decide (0 ≤ s.tokenBudget) &&
    decide (s.running.length ≤ wc.maxNumRunningReqs) &&
    decide (s.scheduledNewReqs.length + s.scheduledResumedReqs.length +
      s.scheduledRunningReqs.length ≤ s.running.length)

def finishSchedule (s : WaitState W F) : Except PyError (WaitState W F) :=
  if constraintsHold c wc s then .ok s else .error .assertionError

/-- The two loops and the checks. `none` would be a loop that does not end. -/
def schedule (refiner : BudgetRefiner) (now : F) (st : SchedulerState W F) :
    Option (Except PyError (WaitState W F)) :=
  (runningPhase c h refiner now st).bind fun p =>
    match p with
    | .finished s =>
      if !lorasFit wc s then some (.error .assertionError)
      else if s.preemptedReqs ≠ [] then some (finishSchedule c wc (beginWaiting wc s))
      else
        (waitingPhase c wc h wh s).map fun p =>
          match p with
          | .finished s => finishSchedule c wc (requeueSkipped s)
          | .raised e => .error e
          | .loop _ => .error .runtimeError
    | .raised e => some (.error e)
    | .head _ => none
    | .alloc _ _ _ _ => none

end Waiting

end VllmAscend.Core.DynamicBatch
