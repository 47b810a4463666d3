import VllmAscend.Core.Scheduler

/-!
# The running phases of `RecomputeScheduler` and `ProfilingChunkScheduler`

Both loops are step machines over `Phase`: a step at `head` is the loop body up to the allocation loop, a step at
`alloc` one round of that loop with what follows it.
-/

namespace VllmAscend.Core

structure SchedulerState (W F : Type) where
  running : List ReqId
  waiting : List ReqId
  skippedWaiting : List ReqId
  requests : ReqId → Request F
  selector : UnifiedVictimSelector F
  world : W

section

variable {W F : Type} [PyFloat F]

def beginStep (c : SchedulerConfig) (st : SchedulerState W F) (tokenBudget : Int) (timeBudget : F) :
    RunState W F :=
  { toPlan := Plan.start st.running tokenBudget
    waiting := st.waiting
    skippedWaiting := st.skippedWaiting
    requests := st.requests
    scheduledEncoderInputs := ∅
    encoderComputeBudget := c.maxNumEncoderInputTokens
    scheduledSpecDecodeTokens := ∅
    timeBudget
    preemptedReqData := []
    recomputedReqs := []
    selector := st.selector
    world := st.world }

def initialBudget (c : SchedulerConfig) (pausedAll : Bool) : Int := if pausedAll then 0 else c.maxNumScheduledTokens

def phaseStep (head : RunState W F → Phase W F)
    (alloc : ReqId → Int → EncoderPlan → RunState W F → Phase W F) :
    Phase W F → Unit → Option (Phase W F)
  | .head s, _ => some (head s)
  | .alloc r n enc s, _ => some (alloc r n enc s)
  | .finished _, _ => none
  | .raised _, _ => none

def skipRequest (s : RunState W F) : RunState W F := { s with toPlan := s.toPlan.skip }

def takeUp (c : SchedulerConfig) (h : Hooks W F) (s : RunState W F) (r : ReqId) (n : Int)
    (enc : EncoderPlan) (world : W) : Phase W F :=
  let (n, world) := alignMamba c h world (s.requests r) n
  if n = 0 then .head (skipRequest { s with world }) else .alloc r n enc { s with world }

namespace RecomputeScheduler

variable (c : SchedulerConfig) (h : Hooks W F)

def headStep (s : RunState W F) : Phase W F :=
  match s.running[s.reqIndex]? with
  | none => .finished s
  | some r =>
    if s.tokenBudget ≤ 0 then .finished s
    else
      match reachedMaxTokens (s.requests r) with
      | none => .raised .typeError
      | some true => .head (skipRequest s)
      | some false =>
        match scheduleEncoder c h s r (newTokens c (s.requests r) s.tokenBudget) with
        | .error e => .raised e
        | .ok (enc, n, world) => takeUp c h s r n enc world

/-- The KV consumer takes the last running request. The connector may keep its blocks on the CPU;
otherwise the request goes back to the proxy. -/
def recomputeLast (r : ReqId) (n : Int) (enc : EncoderPlan) (s : RunState W F) : Phase W F :=
  match s.running.getLast? with
  | none => .raised .indexError
  | some v =>
    let s := { s with running := s.running.dropLast }
    let request := s.requests v
    let blockIds := h.getBlockIds s.world v
    let (offloaded, world) := h.updateStateBeforePreempt s.world request blockIds request.numComputedTokens
    let s :=
      if offloaded then
        let s := preemptRequest h
          { s with
            world
            preemptedReqData := s.preemptedReqData ++ [⟨v, blockIds, request.numComputedTokens⟩] } v
        { s with preemptedReqs := s.preemptedReqs ++ [v] }
      else { s with world := h.kvFree world request, recomputedReqs := s.recomputedReqs ++ [v] }
    if v = r then .finished s else .alloc r n enc s

def allocStep (kvConsumer : Bool) (now : F) (r : ReqId) (n : Int) (enc : EncoderPlan)
    (s : RunState W F) : Phase W F :=
  match allocateRunning c h s r n with
  | (some newBlocks, world) => .head (scheduleRequest h { s with world } r n enc newBlocks)
  | (none, world) =>
    if kvConsumer then recomputeLast h r n enc { s with world }
    else preemptVictim c h now r n enc { s with world }

def step (kvConsumer : Bool) (now : F) : Phase W F → Unit → Option (Phase W F) :=
  phaseStep (headStep c h) (allocStep c h kvConsumer now)

end RecomputeScheduler

/-- `BalanceScheduler` has the loop that `RecomputeScheduler` runs when it is no KV consumer. -/
def BalanceScheduler.step (c : SchedulerConfig) (h : Hooks W F) (now : F) : Phase W F → Unit → Option (Phase W F) :=
  phaseStep (RecomputeScheduler.headStep c h) (RecomputeScheduler.allocStep c h false now)

structure ChunkPredictor (F : Type) where
  targetLatency : Option F
  isReady : Bool
  needTiming : Bool
  predictChunkSize : Int → F → Option Int
  predictTime : Int → Int → F

namespace ProfilingChunkScheduler

variable (c : SchedulerConfig) (h : Hooks W F) (predictor : ChunkPredictor F)

/-- The chunk of a prefill that fits in the time left. `none` leaves the loop. -/
def dynamicChunk (request : Request F) (timeBudget : F) (n : Int) : Option Int :=
  if predictor.isReady ∧ request.numComputedTokens < request.numPromptTokens ∧
      (0 < request.numComputedTokens ∨ predictor.needTiming = false) then
    match predictor.predictChunkSize request.numComputedTokens timeBudget with
    | some predicted => if 0 < predicted then some (min predicted n) else unpredicted
    | none => unpredicted
  else some n
where
  unpredicted : Option Int :=
    if predictor.needTiming || predictor.targetLatency.any (PyFloat.beq timeBudget) then some n
    else none

def headStep (s : RunState W F) : Phase W F :=
  match s.running[s.reqIndex]? with
  | none => .finished s
  | some r =>
    if s.tokenBudget ≤ 0 || !PyFloat.lt (PyFloat.ofInt 0) s.timeBudget then .finished s
    else
      match reachedMaxTokens (s.requests r) with
      | none => .raised .typeError
      | some true => .head (skipRequest s)
      | some false =>
        match scheduleEncoder c h s r (newTokens c (s.requests r) s.tokenBudget) with
        | .error e => .raised e
        | .ok (enc, n, world) =>
          match dynamicChunk predictor (s.requests r) s.timeBudget n with
          | none => .finished { s with world }
          | some n => takeUp c h s r n enc world

def chargeTime (s : RunState W F) (r : ReqId) (n : Int) : RunState W F :=
  let request := s.requests r
  if request.numComputedTokens < request.numPromptTokens then
    { s with
      timeBudget := PyFloat.sub s.timeBudget (predictor.predictTime n request.numComputedTokens) }
  else s

def allocStep (now : F) (r : ReqId) (n : Int) (enc : EncoderPlan) (s : RunState W F) : Phase W F :=
  match allocateRunning c h s r n with
  | (some newBlocks, world) => .head (scheduleRequest h (chargeTime predictor { s with world } r n) r n enc newBlocks)
  | (none, world) => preemptVictim c h now r n enc { s with world }

def step (now : F) : Phase W F → Unit → Option (Phase W F) :=
  phaseStep (headStep c h predictor) (allocStep c h predictor now)

def initialTime : F := predictor.targetLatency.getD PyFloat.inf

end ProfilingChunkScheduler

end

end VllmAscend.Core
