import VllmAscend.Core.Plan
import VllmAscend.Core.VictimSelector
import VllmAscend.Lib.Machine

/-!
# The running phase of the scheduler forks

What the forks of vLLM's `Scheduler.schedule` share. Everything outside the forks is in `Hooks`. A hook reads and
changes a world of any type, so a result for all hooks and worlds is one for every sequence of answers.
-/

namespace VllmAscend.Core

inductive PyError
  | indexError
  | keyError
  | valueError
  | typeError
  | assertionError
  | runtimeError
  deriving DecidableEq

/-- The tuple that `_try_schedule_encoder_inputs` returns. vLLM versions differ in its length:
`none` for the last entry is a tuple of three. -/
structure EncoderResult where
  encoderInputsToSchedule : List Nat
  numNewTokens : Int
  newEncoderComputeBudget : Int
  externalLoadEncoderInput : Option (List Nat)

structure AllocArgs where
  numNewTokens : Int
  numNewComputedTokens : Int := 0
  newComputedBlocks : KVCacheBlocks := []
  numLookaheadTokens : Int
  delayCacheBlocks : Bool := false
  numEncoderTokens : Int := 0

structure Hooks (W F : Type) where
  allocateSlots : W → Request F → AllocArgs → Option KVCacheBlocks × W
  blockPool : W → Option (Int × Int)
  /-- Request, computed tokens, new tokens, compute budget, `shift_computed_tokens`. -/
  tryScheduleEncoderInputs : W → Request F → Int → Int → Int → Int → EncoderResult × W
  encoderAllocate : W → Request F → Nat → W
  mambaBlockAlignedSplit : W → Request F → Int → Int × W
  kvFree : W → Request F → W
  encoderFree : W → Request F → W
  /-- `_preempt_request`, except that it puts the request in front of `waiting`. -/
  preemptRequest : W → Request F → Request F × W
  getBlockIds : W → ReqId → KVCacheBlocks
  /-- The connector's `update_state_before_preempt`, `false` when there is no such hook. -/
  updateStateBeforePreempt : W → Request F → KVCacheBlocks → Int → Bool × W

structure SchedulerConfig where
  policy : SchedulingPolicy
  longPrefillTokenThreshold : Int
  maxModelLen : Int
  numLookaheadTokens : Int
  maxNumScheduledTokens : Int
  maxNumEncoderInputTokens : Int
  needMambaBlockAlignedSplit : Bool
  useEagle : Bool

structure PreemptedRequestData where
  reqId : ReqId
  blockIds : KVCacheBlocks
  numComputedTokens : Int

structure RunState (W F : Type) extends Plan where
  waiting : List ReqId
  skippedWaiting : List ReqId
  requests : ReqId → Request F
  scheduledEncoderInputs : Dict ReqId (List Nat)
  encoderComputeBudget : Int
  scheduledSpecDecodeTokens : Dict ReqId (List Nat)
  timeBudget : F
  preemptedReqData : List PreemptedRequestData
  recomputedReqs : List ReqId
  selector : UnifiedVictimSelector F
  world : W

structure EncoderPlan where
  encoderInputsToSchedule : List Nat
  newEncoderComputeBudget : Int
  externalLoadEncoderInput : List Nat

/-- Where the loop over the running requests stands. -/
inductive Phase (W F : Type)
  | head (s : RunState W F)
  | alloc (request : ReqId) (numNewTokens : Int) (enc : EncoderPlan) (s : RunState W F)
  | finished (s : RunState W F)
  | raised (e : PyError)

/-! ## Pieces of the loop -/

section

variable {W F : Type} [PyFloat F] (c : SchedulerConfig) (h : Hooks W F)

def capPrefill (n : Int) : Int :=
  if 0 < c.longPrefillTokenThreshold ∧ c.longPrefillTokenThreshold < n then
    c.longPrefillTokenThreshold
  else n

def newTokens (request : Request F) (tokenBudget : Int) : Int :=
  let n := request.numTokensWithSpec + request.numOutputPlaceholders - request.numComputedTokens
  min (min (capPrefill c n) tokenBudget) (c.maxModelLen - 1 - request.numComputedTokens)

/-- The last scheduled step has surely reached `max_tokens`. `none` is a `TypeError`. -/
def reachedMaxTokens (request : Request F) : Option Bool :=
  if 0 < request.numOutputPlaceholders then
    request.maxTokens.map fun maxTokens =>
      decide (request.numPromptTokens + maxTokens ≤ request.numComputedTokens + 2 - request.numOutputPlaceholders)
  else some false

def scheduleEncoder (s : RunState W F) (r : ReqId) (n : Int) :
    Except PyError (EncoderPlan × Int × W) :=
  let request := s.requests r
  if request.hasEncoderInputs then
    let (res, world) := h.tryScheduleEncoderInputs s.world request request.numComputedTokens n
      s.encoderComputeBudget (if c.useEagle then 1 else 0)
    match res.externalLoadEncoderInput with
    | none => .error .valueError
    | some external =>
      .ok (⟨res.encoderInputsToSchedule, res.newEncoderComputeBudget, external⟩, res.numNewTokens, world)
  else .ok (⟨[], s.encoderComputeBudget, []⟩, n, s.world)

def alignMamba (world : W) (request : Request F) (n : Int) : Int × W :=
  if c.needMambaBlockAlignedSplit then h.mambaBlockAlignedSplit world request n else (n, world)

def updateRequest (s : RunState W F) (r : ReqId) (request : Request F) : RunState W F :=
  { s with requests := Function.update s.requests r request }

def restoreEncoder (s : RunState W F) (v : ReqId) : RunState W F :=
  let inputs := s.scheduledEncoderInputs.getD v []
  { s with
    scheduledSpecDecodeTokens := s.scheduledSpecDecodeTokens.erase v
    scheduledEncoderInputs := s.scheduledEncoderInputs.erase v
    encoderComputeBudget := s.encoderComputeBudget + (inputs.map (s.requests v).numEncoderEmbeds).sum }

def preemptRequest (s : RunState W F) (v : ReqId) : RunState W F :=
  let (request, world) := h.preemptRequest s.world (s.requests v)
  { updateRequest s v request with world, waiting := prependRequest s.waiting v }

def rollBackVictim (s : RunState W F) (v : ReqId) : Option (RunState W F) :=
  (s.toPlan.rollBack v).map fun p =>
    let s := if v ∈ s.scheduledRunningReqs then restoreEncoder s v else s
    preemptRequest h { s with toPlan := p } v

def pickPreemptVictim (now : F) (s : RunState W F) : Option (ReqId × UnifiedVictimSelector F) :=
  pickVictim s.selector s.requests s.running c.policy (inferKvUtilization (h.blockPool s.world)) now

def preemptVictim (now : F) (r : ReqId) (n : Int) (enc : EncoderPlan) (s : RunState W F) :
    Phase W F :=
  match pickPreemptVictim c h now s with
  | none => .raised .valueError
  | some (v, selector) =>
    match rollBackVictim h { s with selector } v with
    | none => .raised .keyError
    | some s => if v = r then .finished s else .alloc r n enc s

/-! ## Scheduling a request -/

def recordSpecTokens (s : RunState W F) (r : ReqId) (n : Int) : RunState W F :=
  let request := s.requests r
  if request.specTokenIds = [] then s
  else
    let numSpec := n + request.numComputedTokens - request.numTokens - request.numOutputPlaceholders
    let s := updateRequest s r { request with specTokenIds := [] }
    if 0 < numSpec then
      { s with
        scheduledSpecDecodeTokens := s.scheduledSpecDecodeTokens.set r (request.specTokenIds.take numSpec.toNat) }
    else s

def encoderAllocateAll (s : RunState W F) (r : ReqId) (inputs : List Nat) : RunState W F :=
  { s with world := inputs.foldl (fun world i => h.encoderAllocate world (s.requests r) i) s.world }

def recordEncoder (s : RunState W F) (r : ReqId) (enc : EncoderPlan) : RunState W F :=
  let s :=
    if enc.encoderInputsToSchedule = [] then s
    else
      { encoderAllocateAll h s r enc.encoderInputsToSchedule with
        scheduledEncoderInputs := s.scheduledEncoderInputs.set r enc.encoderInputsToSchedule
        encoderComputeBudget := enc.newEncoderComputeBudget }
  encoderAllocateAll h s r enc.externalLoadEncoderInput

def scheduleRequest (s : RunState W F) (r : ReqId) (n : Int) (enc : EncoderPlan)
    (newBlocks : KVCacheBlocks) : RunState W F :=
  recordEncoder h (recordSpecTokens { s with toPlan := s.toPlan.commit r n newBlocks } r n) r enc

def allocateRunning (s : RunState W F) (r : ReqId) (n : Int) : Option KVCacheBlocks × W :=
  h.allocateSlots s.world (s.requests r)
    { numNewTokens := n, numLookaheadTokens := c.numLookaheadTokens }

end

section

variable {W F : Type} (h : Hooks W F) (s : RunState W F) (r v : ReqId)

@[simp] theorem updateRequest_toPlan (req : Request F) : (updateRequest s r req).toPlan = s.toPlan := rfl

@[simp] theorem preemptRequest_toPlan : (preemptRequest h s v).toPlan = s.toPlan := rfl

@[simp] theorem recordSpecTokens_toPlan (n : Int) : (recordSpecTokens s r n).toPlan = s.toPlan := by
  simp only [recordSpecTokens]
  split
  · rfl
  · split <;> rfl

@[simp] theorem recordEncoder_toPlan (enc : EncoderPlan) : (recordEncoder h s r enc).toPlan = s.toPlan := by
  simp only [recordEncoder, encoderAllocateAll]
  split <;> rfl

@[simp] theorem scheduleRequest_toPlan (n : Int) (enc : EncoderPlan) (newBlocks : KVCacheBlocks) :
    (scheduleRequest h s r n enc newBlocks).toPlan = s.toPlan.commit r n newBlocks := by
  simp [scheduleRequest]

theorem rollBackVictim_toPlan {s' : RunState W F} (hs : rollBackVictim h s v = some s') :
    s.toPlan.rollBack v = some s'.toPlan := by
  obtain ⟨p, hp, rfl⟩ := Option.map_eq_some_iff.mp hs
  simpa using hp

variable {r v}

theorem updateRequest_requests {x : ReqId} (hx : x ≠ r) (req : Request F) :
    (updateRequest s r req).requests x = s.requests x := by
  exact Function.update_of_ne hx _ _

theorem recordSpecTokens_requests {x : ReqId} (hx : x ≠ r) (n : Int) :
    (recordSpecTokens s r n).requests x = s.requests x := by
  simp only [recordSpecTokens]
  split
  · rfl
  · split <;> exact updateRequest_requests s hx _

theorem recordEncoder_requests (enc : EncoderPlan) : (recordEncoder h s r enc).requests = s.requests := by
  simp only [recordEncoder, encoderAllocateAll]
  split <;> rfl

theorem scheduleRequest_requests {x : ReqId} (hx : x ≠ r) (n : Int) (enc : EncoderPlan)
    (new : KVCacheBlocks) : (scheduleRequest h s r n enc new).requests x = s.requests x := by
  unfold scheduleRequest
  rw [recordEncoder_requests, recordSpecTokens_requests _ hx]

theorem rollBackVictim_requests {s' : RunState W F} (hs : rollBackVictim h s v = some s') {x : ReqId}
    (hx : x ≠ v) : s'.requests x = s.requests x := by
  obtain ⟨p, -, rfl⟩ := Option.map_eq_some_iff.mp hs
  simp only [preemptRequest]
  rw [updateRequest_requests _ hx]
  split <;> rfl

end

/-! ## A small instance, to evaluate the model -/

def sampleRequest (id : ReqId) : Request Rat where
  requestId := id
  status := .running
  priority := 0
  arrivalTime := 0
  numPromptTokens := 1
  numTokens := 2
  numOutputTokens := 1
  numComputedTokens := 1
  numOutputPlaceholders := 0
  maxTokens := some 16
  numPreemptions := 0
  specTokenIds := []
  hasEncoderInputs := false
  numEncoderEmbeds := fun _ => 0
  loraIntId := none
  hasStructuredOutputRequest := false

def sampleSelector : UnifiedVictimSelector Rat where
  config :=
    { enableUtilityVictimSelection := false, utilityKillSwitch := false, utilityCompletionWeight := 1,
      utilityPreemptWeight := 1, utilityKvGate := 0, utilityCooldownS := 0, utilityMinRunning := 1,
      utilityEpsilon := 1, utilityDefaultMaxTokens := 1024, utilitySnapshotHistorySize := 32 }
  lastUtilityPickTs := none
  totalPreemptions := 0
  totalTokensFreed := 0
  kvPressureEvents := 0
  utilityStrategyHits := 0
  defaultStrategyHits := 0
  consecutivePreemptionEvents := 0
  consecutivePreemptionChecks := 0
  lastPreemptedRequestId := none
  preemptionsPerRequest := ∅
  recentPreemptedReqIds := []

def sampleConfig : SchedulerConfig where
  policy := .priority
  longPrefillTokenThreshold := 0
  maxModelLen := 100
  numLookaheadTokens := 0
  maxNumScheduledTokens := 10
  maxNumEncoderInputTokens := 0
  needMambaBlockAlignedSplit := false
  useEagle := false

def sampleHooks : Hooks (List Bool) Rat where
  allocateSlots w _ _ := (if w.headD true then some [] else none, w.tail)
  blockPool _ := none
  tryScheduleEncoderInputs w _ _ n budget _ := (⟨[], n, budget, some []⟩, w)
  encoderAllocate w _ _ := w
  mambaBlockAlignedSplit w _ n := (n, w)
  kvFree w _ := w
  encoderFree w _ := w
  preemptRequest w request := ({ request with status := .preempted, numComputedTokens := 0 }, w)
  getBlockIds _ _ := []
  updateStateBeforePreempt w _ _ _ := (false, w)

end VllmAscend.Core
