import VllmAscend.Core.DynamicBatch.WaitingPhase

/-!
# Asynchronous KV loads in the waiting phases of the forks

The loops of `RecomputeScheduler`, `ProfilingChunkScheduler` and `BalanceScheduler` over the waiting
queues are one text with a few differences, which are the fields of a `Fork`. The queues, the tests
and the end of an iteration are those of `SchedulerDynamicBatch`; its `req_index` is not read any
more. Statistics are left out.
-/

namespace VllmAscend.Core.ForkWaiting

open DynamicBatch

variable {W F : Type} [PyFloat F]

structure ForkHooks (W F : Type) where
  /-- The last arguments are `num_external_computed_tokens` and `full_sequence_must_fit`. -/
  allocateSlots : W → Request F → AllocArgs → Int → Bool → Option KVCacheBlocks × W
  /-- Request, new tokens, local and external computed tokens. -/
  mambaBlockAlignedSplit : W → Request F → Int → Int → Int → Int × W
  /-- There is a connector, and the coordinator is a hybrid one with Mamba layers. -/
  findLongestCacheHitPerGroup : Option (W → Request F → (KVCacheBlocks × Int) × W)
  hasStreamingQueue : W → Request F → Bool
  /-- A rank of `balance_queue` has all the requests it may run. -/
  balanceFlag : W → Bool

structure Fork (W F : Type) where
  leaves : WaitState W F → Bool
  tests : WaitState W F → ReqId → Except (Exit W F) (WaitState W F)
  getComputedBlocks : W → Request F → (KVCacheBlocks × Int) × W
  assertsComputed : Bool
  /-- The new tokens of a request that loads nothing. `none` leaves the loop. -/
  wanted : WaitState W F → ReqId → CachedTokens → Option Int
  splitsLoads : Bool
  fullSequenceMustFit : Bool
  book : WaitState W F → ReqId → Int → WaitState W F

section

variable (c : SchedulerConfig) (wc : WaitConfig) (h : Hooks W F) (wh : WaitHooks W F) (fh : ForkHooks W F)
  (f : Fork W F) (s : WaitState W F) (r : ReqId) (cached : CachedTokens)

def assertComputed : Except (Exit W F) Unit :=
  if f.assertsComputed ∧ (s.requests r).numComputedTokens = 0 ∧ (s.requests r).numTokens < cached.numComputedTokens then
    .error (.raised .assertionError)
  else .ok ()

def scheduleEncoderWaiting (numComputed n : Int) : Except (Exit W F) (WaitState W F × Int × EncoderPlan) :=
  let request := s.requests r
  if request.hasEncoderInputs then
    let (res, world) := h.tryScheduleEncoderInputs s.world request numComputed n s.encoderComputeBudget
      (if c.useEagle then 1 else 0)
    let s := s.setWorld world
    match res.externalLoadEncoderInput with
    | none => .error (.raised .valueError)
    | some external =>
      if res.numNewTokens = 0 then .error (.leave s)
      else .ok (s, res.numNewTokens, ⟨res.encoderInputsToSchedule, res.newEncoderComputeBudget, external⟩)
  else .ok (s, n, ⟨[], s.encoderComputeBudget, []⟩)

def countTokens : Except (Exit W F) (WaitState W F × Int × EncoderPlan) :=
  if cached.loadKvAsync then
    if 0 < cached.numExternalComputedTokens then .ok (s, 0, ⟨[], s.encoderComputeBudget, []⟩)
    else .error (.raised .assertionError)
  else
    match f.wanted s r cached with
    | none => .error (.leave s)
    | some n =>
      if wc.enableChunkedPrefill = false ∧ s.tokenBudget < n then .error (.leave s)
      else if 0 < min n s.tokenBudget then
        scheduleEncoderWaiting c h s r cached.numComputedTokens (min n s.tokenBudget)
      else .error (.raised .assertionError)

def alignMamba (n : Int) : Except (Exit W F) (WaitState W F × Int) :=
  if c.needMambaBlockAlignedSplit ∧ (f.splitsLoads ∨ cached.loadKvAsync = false) then
    let (n, world) := fh.mambaBlockAlignedSplit s.world (s.requests r) n cached.numNewLocalComputedTokens
      cached.numExternalComputedTokens
    if n = 0 then .error (.leave (s.setWorld world)) else .ok (s.setWorld world, n)
  else .ok (s, n)

def allocArgs (n : Int) (enc : EncoderPlan) : AllocArgs :=
  let request := s.requests r
  { numNewTokens := n
    numNewComputedTokens := cached.numNewLocalComputedTokens
    newComputedBlocks := cached.newComputedBlocks
    numLookaheadTokens := if request.numComputedTokens = 0 then 0 else c.numLookaheadTokens
    delayCacheBlocks := cached.loadKvAsync
    numEncoderTokens :=
      if wc.isEncoderDecoder ∧ request.hasEncoderInputs then
        (enc.encoderInputsToSchedule.map request.numEncoderEmbeds).sum
      else 0 }

def allocateWaiting (n : Int) (enc : EncoderPlan) : Except (Exit W F) (WaitState W F × Admission) :=
  let request := s.requests r
  match fh.allocateSlots s.world request (allocArgs c wc s r cached n enc) cached.numExternalComputedTokens
      f.fullSequenceMustFit with
  | (none, world) => .error (.leave (s.setWorld (if request.hasEncoderInputs then h.encoderFree world request else world)))
  | (some _, world) =>
    let s := s.setWorld <| match wh.connector with
      | none => world
      | some connector =>
        connector.updateStateAfterAlloc world request (wh.getBlocks world r) cached.numExternalComputedTokens
    .ok (if cached.loadKvAsync then s else f.book s r n, ⟨n, cached.numComputedTokens, cached.loadKvAsync, enc⟩)

def considerRequest : Except (Exit W F) (WaitState W F × Admission) := do
  let s ← f.tests s r
  let (s, cached) ← lookupCached { wh with getComputedBlocks := f.getComputedBlocks } s r
  assertComputed f s r cached
  let (s, n, enc) ← countTokens c wc h f s r cached
  let (s, n) ← alignMamba c fh f s r cached n
  allocateWaiting c wc h wh fh f s r cached n enc

def iterate : WaitPhase W F :=
  if f.leaves s then .finished s
  else match peeked c wc wh s with
    | none => .finished s
    | some (q, r) => finishIteration c wc h wh q r (considerRequest c wc h wh fh f s r)

/-! ## The forks -/

def recomputeScheduler (isMtpKvConsumer reserveFullIsl : Bool) : Fork W F where
  leaves _ := false
  tests s r := checkBlocked wh s r >>= (checkLora wc · r)
  getComputedBlocks := fh.findLongestCacheHitPerGroup.getD wh.getComputedBlocks
  assertsComputed := true
  wanted s r cached :=
    let request := s.requests r
    some (capPrefill c ((if isMtpKvConsumer then request.numTokensWithSpec else request.numTokens) -
      cached.numComputedTokens))
  splitsLoads := false
  fullSequenceMustFit := reserveFullIsl
  book s r n := if isMtpKvConsumer then { s with toRunState := recordSpecTokens s.toRunState r n } else s

/-- The chunk is predicted from the tokens that will be computed, not from those of the request. -/
def profilingChunkScheduler (predictor : ChunkPredictor F) (reserveFullIsl : Bool) : Fork W F where
  leaves s := !PyFloat.lt (PyFloat.ofInt 0) s.timeBudget
  tests s r := checkBlocked wh s r >>= (checkLora wc · r)
  getComputedBlocks := wh.getComputedBlocks
  assertsComputed := true
  wanted s r cached := ProfilingChunkScheduler.dynamicChunk
    { predictor with predictChunkSize := fun _ => predictor.predictChunkSize cached.numComputedTokens } (s.requests r)
    s.timeBudget (capPrefill c ((s.requests r).numTokens - cached.numComputedTokens))
  splitsLoads := true
  fullSequenceMustFit := reserveFullIsl
  book s r n := { s with toRunState := ProfilingChunkScheduler.chargeTime predictor s.toRunState r n }

def checkStructuredOutput : Except (Exit W F) (WaitState W F) :=
  match checkGrammar wc wh s r with
  | .error (.skipGrammar s) => .error (.skip s)
  | res => res

def checkStreaming : Except (Exit W F) (WaitState W F) :=
  if (s.requests r).status = .waitingForStreamingReq then
    if fh.hasStreamingQueue s.world (s.requests r) then .error (.raised .assertionError) else .error (.skip s)
  else .ok s

def balanceScheduler : Fork W F where
  leaves s := fh.balanceFlag s.world
  tests s r := do
    let s ← checkBlocked wh s r
    let s ← checkStructuredOutput wc wh s r
    let s ← checkStreaming fh s r
    checkLora wc s r
  getComputedBlocks := wh.getComputedBlocks
  assertsComputed := false
  wanted s r cached := some (capPrefill c ((s.requests r).numTokens - cached.numComputedTokens))
  splitsLoads := true
  fullSequenceMustFit := false
  book s _ _ := s

/-! ## A request whose KV cache the connector loads -/

/-- The loop takes up a request, the connector loads `n` of its tokens, and they have room. -/
structure AsyncLoad where
  q : QueueName
  s₁ : WaitState W F
  blocks : KVCacheBlocks
  numLocal : Int
  world₁ : W
  connector : ConnectorHooks W F
  n : Int
  world₂ : W
  newBlocks : KVCacheBlocks
  world₃ : W
  stays : f.leaves s = false
  peeked : peeked c wc wh s = some (q, r)
  passes : f.tests s r = .ok s₁
  fresh : (s₁.requests r).numComputedTokens = 0
  hit : f.getComputedBlocks s₁.world (s₁.requests r) = ((blocks, numLocal), world₁)
  connected : wh.connector = some connector
  answer : connector.getNumNewMatchedTokens world₁ (s₁.requests r) numLocal = ((some n, true), world₂)
  pos : 0 < n
  room : fh.allocateSlots world₂ (s₁.requests r) ⟨0, numLocal, blocks, 0, true, 0⟩ n f.fullSequenceMustFit =
    (some newBlocks, world₃)

variable {c wc h wh fh f s r}

/-- The blocks are allocated, the connector is told of them, the request waits for its KV cache, and the loop goes on. -/
def AsyncLoad.Handled (l : AsyncLoad c wc wh fh f s r) (p : WaitPhase W F) : Prop :=
  ∃ t, p = .loop t ∧ Moved s t l.q r ∧
    t.requests r = { l.s₁.requests r with status := .waitingForRemoteKvs, numComputedTokens := l.numLocal + l.n } ∧
    t.world = l.connector.updateStateAfterAlloc l.world₃ (l.s₁.requests r) (wh.getBlocks l.world₃ r) l.n

def AsyncLoad.found (l : AsyncLoad c wc wh fh f s r) : CachedTokens := ⟨l.blocks, l.numLocal, l.n, true, l.numLocal + l.n⟩

theorem considerRequest_eq (l : AsyncLoad c wc wh fh f s r) :
    considerRequest c wc h wh fh f s r =
      if f.assertsComputed ∧ (l.s₁.requests r).numTokens < l.numLocal + l.n then .error (.raised .assertionError)
      else (alignMamba c fh f (l.s₁.setWorld l.world₂) r l.found 0).bind fun (s, n) =>
        allocateWaiting c wc h wh fh f s r l.found n ⟨[], l.s₁.encoderComputeBudget, []⟩ := by
  have hlookup : lookupCached { wh with getComputedBlocks := f.getComputedBlocks } l.s₁ r =
      .ok (l.s₁.setWorld l.world₂, l.found) := by
    simp [lookupCached, l.fresh, l.hit, l.connected, l.answer, AsyncLoad.found]
  simp only [considerRequest, l.passes, hlookup, bind, Except.bind, assertComputed, countTokens, AsyncLoad.found, l.pos,
    if_true, WaitState.setWorld, l.fresh, true_and]
  by_cases hassert : f.assertsComputed ∧ (l.s₁.requests r).numTokens < l.numLocal + l.n
  · simp only [hassert, and_self, if_true]
  · simp only [hassert, if_false]

/-- The load is handled unless the fork has too many tokens to compute, or splits them. -/
theorem handled_iff (l : AsyncLoad c wc wh fh f s r) (hsame : Plain s id (f.tests s r))
    (hsplit : ∀ w (request : Request F) a b, (fh.mambaBlockAlignedSplit w request 0 a b).1 = 0) :
    l.Handled (iterate c wc h wh fh f s) ↔
      (c.needMambaBlockAlignedSplit = true → f.splitsLoads = false) ∧
        (f.assertsComputed → l.numLocal + l.n ≤ (l.s₁.requests r).numTokens) := by
  rw [l.passes] at hsame
  simp only [iterate, l.stays, l.peeked, considerRequest_eq l]
  by_cases hassert : f.assertsComputed ∧ (l.s₁.requests r).numTokens < l.numLocal + l.n
  · rw [if_pos hassert]
    refine iff_of_false (fun ⟨t, ht, _⟩ => by cases ht) fun hok => ?_
    exact absurd (hok.2 hassert.1) (Int.not_le.mpr hassert.2)
  rw [if_neg hassert]
  have hfits : f.assertsComputed → l.numLocal + l.n ≤ (l.s₁.requests r).numTokens := by simpa using hassert
  by_cases hneed : c.needMambaBlockAlignedSplit ∧ f.splitsLoads
  · have halign : alignMamba c fh f (l.s₁.setWorld l.world₂) r l.found 0 =
        .error (.leave (l.s₁.setWorld (fh.mambaBlockAlignedSplit l.world₂ (l.s₁.requests r) 0 l.numLocal l.n).2)) := by
      simp [alignMamba, hneed, hsplit, WaitState.setWorld, AsyncLoad.found]
    rw [halign]
    refine iff_of_false (fun ⟨t, ht, _⟩ => by cases ht) fun hok => ?_
    exact absurd (hok.1 hneed.1) (by simp [hneed.2])
  · have halign : alignMamba c fh f (l.s₁.setWorld l.world₂) r l.found 0 = .ok (l.s₁.setWorld l.world₂, 0) :=
      if_neg (by simpa [AsyncLoad.found] using hneed)
    have halloc : allocateWaiting c wc h wh fh f (l.s₁.setWorld l.world₂) r l.found 0 ⟨[], l.s₁.encoderComputeBudget, []⟩ =
        .ok (l.s₁.setWorld (l.connector.updateStateAfterAlloc l.world₃ (l.s₁.requests r) (wh.getBlocks l.world₃ r) l.n),
          ⟨0, l.numLocal + l.n, true, ⟨[], l.s₁.encoderComputeBudget, []⟩⟩) := by
      simp [allocateWaiting, allocArgs, AsyncLoad.found, WaitState.setWorld, l.fresh, l.room, l.connected]
    have hsame' := SameQueues.trans hsame (SameQueues.setWorld l.s₁
      (l.connector.updateStateAfterAlloc l.world₃ (l.s₁.requests r) (wh.getBlocks l.world₃ r) l.n))
    rw [halign]
    simp only [Except.bind, halloc, finishIteration, popQueue_of_same (peeked_mem l.peeked).1 hsame', if_true]
    refine iff_of_true ⟨_, rfl, moved_load hsame' _ _, ?_, ?_⟩ ⟨by simpa using hneed, hfits⟩
    · cases l.q <;> simp [prependSkipped, WaitState.setRequest, WaitState.setQueue, WaitState.setWorld]
    · cases l.q <;> rfl

end

inductive ForkName
  | recompute | profiling | balance
deriving DecidableEq

section

variable (c : SchedulerConfig) (wc : WaitConfig) (h : Hooks W F) (wh : WaitHooks W F) (fh : ForkHooks W F)
  (predictor : ChunkPredictor F) (isMtpKvConsumer reserveFullIsl : Bool)

def ForkName.fork : ForkName → Fork W F
  | .recompute => recomputeScheduler c wc wh fh isMtpKvConsumer reserveFullIsl
  | .profiling => profilingChunkScheduler c wc wh predictor reserveFullIsl
  | .balance => balanceScheduler c wc wh fh

theorem tests_plain (name : ForkName) (s : WaitState W F) (r : ReqId) :
    Plain s id ((name.fork c wc wh fh predictor isMtpKvConsumer reserveFullIsl).tests s r) := by
  have hstructured (s : WaitState W F) : Plain s id (checkStructuredOutput wc wh s r) := by
    unfold checkStructuredOutput
    cases hg : awaitsGrammar wc wh s r with
    | false =>
      have := checkGrammar_plain wc wh s r hg
      split <;> simp_all [Plain]
    | true =>
      rw [checkGrammar_of_awaitsGrammar wc wh s r hg]
      exact askGrammar_same wh s r
  have hstreaming (s : WaitState W F) : Plain s id (checkStreaming fh s r) := by
    unfold checkStreaming
    split
    · split
      · trivial
      · exact .refl s
    · exact .refl s
  cases name with
  | recompute | profiling => exact (checkBlocked_plain wh s r).bind fun s => checkLora_plain wc s r
  | balance =>
    exact (checkBlocked_plain wh s r).bind fun s => (hstructured s).bind fun s => (hstreaming s).bind fun s =>
      checkLora_plain wc s r

/-- Only `RecomputeScheduler` leaves the tokens of a load unsplit, and only `BalanceScheduler` takes any number of
them. -/
theorem async_load_handled_iff (name : ForkName) {s : WaitState W F} {r : ReqId}
    (l : AsyncLoad c wc wh fh (name.fork c wc wh fh predictor isMtpKvConsumer reserveFullIsl) s r)
    (hsplit : ∀ w (request : Request F) a b, (fh.mambaBlockAlignedSplit w request 0 a b).1 = 0) :
    l.Handled (iterate c wc h wh fh (name.fork c wc wh fh predictor isMtpKvConsumer reserveFullIsl) s) ↔
      (c.needMambaBlockAlignedSplit = true → name = .recompute) ∧
        (name ≠ .balance → l.numLocal + l.n ≤ (l.s₁.requests r).numTokens) := by
  rw [handled_iff l (tests_plain c wc wh fh predictor isMtpKvConsumer reserveFullIsl name s r) hsplit]
  cases name <;> simp [ForkName.fork, recomputeScheduler, profilingChunkScheduler, balanceScheduler]

end

/-! ## A hybrid model -/

def hybridConfig : SchedulerConfig := { sampleConfig with needMambaBlockAlignedSplit := true }

/-- The connector loads two tokens of every request. The world counts what it was told of. -/
def loadHooks : WaitHooks (List Bool) Rat :=
  { sampleWaitHooks with
    connector := some ⟨fun w _ _ => ((some 2, true), w), fun w _ _ _ => true :: w⟩ }

def splitHooks : ForkHooks (List Bool) Rat where
  allocateSlots w _ _ _ _ := (some [], w)
  mambaBlockAlignedSplit w _ n _ _ := (n, w)
  findLongestCacheHitPerGroup := none
  hasStreamingQueue _ _ := false
  balanceFlag _ := false

def noPredictor : ChunkPredictor Rat := ⟨none, false, false, fun _ _ => none, fun _ _ => 0⟩

def hybridFork (name : ForkName) : Fork (List Bool) Rat :=
  name.fork hybridConfig sampleWaitConfig loadHooks splitHooks noPredictor false false

def hybridState : WaitState (List Bool) Rat :=
  beginWaiting sampleWaitConfig (beginStep hybridConfig
    { running := [], waiting := [1], skippedWaiting := [], selector := sampleSelector, world := []
      requests := fun id => { sampleRequest id with numComputedTokens := 0, status := .waiting } } 10 1)

def hybridLoad (name : ForkName) :
    AsyncLoad hybridConfig sampleWaitConfig loadHooks splitHooks (hybridFork name) hybridState 1 where
  q := .waiting
  s₁ := hybridState
  blocks := []
  numLocal := 0
  world₁ := []
  connector := ⟨fun w _ _ => ((some 2, true), w), fun w _ _ _ => true :: w⟩
  n := 2
  world₂ := []
  newBlocks := []
  world₃ := []
  stays := by cases name <;> decide
  peeked := by decide
  passes := by cases name <;> rfl
  fresh := rfl
  hit := by cases name <;> rfl
  connected := rfl
  answer := rfl
  pos := by decide
  room := rfl

theorem async_load_handled_recompute : (∀ w (request : Request Rat) a b,
      (splitHooks.mambaBlockAlignedSplit w request 0 a b).1 = 0) ∧ (hybridLoad .recompute).Handled
        (iterate hybridConfig sampleWaitConfig sampleHooks loadHooks splitHooks (hybridFork .recompute) hybridState) :=
  ⟨fun _ _ _ _ => rfl, (async_load_handled_iff hybridConfig sampleWaitConfig sampleHooks loadHooks splitHooks noPredictor
    false false .recompute (hybridLoad .recompute) fun _ _ _ _ => rfl).mpr (by decide)⟩

/-- The split of no tokens ends the loop: nothing is allocated, and the requests behind are not looked at. -/
theorem async_load_stops_loop :
    ¬ (hybridLoad .profiling).Handled
        (iterate hybridConfig sampleWaitConfig sampleHooks loadHooks splitHooks (hybridFork .profiling) hybridState) ∧
      ¬ (hybridLoad .balance).Handled
        (iterate hybridConfig sampleWaitConfig sampleHooks loadHooks splitHooks (hybridFork .balance) hybridState) :=
  ⟨fun ⟨_, ht, _⟩ => (by cases ht), fun ⟨_, ht, _⟩ => (by cases ht)⟩

end VllmAscend.Core.ForkWaiting
