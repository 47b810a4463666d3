import VllmAscend.Core.Request

/-!
# The victim selector

The request to preempt is the policy's own victim, or the one of the highest utility. The decision snapshots, which
only the log reads, are left out.
-/

namespace VllmAscend.Core

open List

structure UtilityVictimSelectorConfig (F : Type) where
  enableUtilityVictimSelection : Bool
  utilityKillSwitch : Bool
  utilityCompletionWeight : F
  utilityPreemptWeight : F
  utilityKvGate : F
  utilityCooldownS : F
  utilityMinRunning : Int
  utilityEpsilon : F
  utilityDefaultMaxTokens : Int
  utilitySnapshotHistorySize : Int

structure UnifiedVictimSelector (F : Type) where
  config : UtilityVictimSelectorConfig F
  /-- `none` is the initial `-inf`. -/
  lastUtilityPickTs : Option F
  totalPreemptions : Nat
  totalTokensFreed : Int
  kvPressureEvents : Nat
  utilityStrategyHits : Nat
  defaultStrategyHits : Nat
  consecutivePreemptionEvents : Nat
  consecutivePreemptionChecks : Nat
  lastPreemptedRequestId : Option ReqId
  preemptionsPerRequest : Dict ReqId Nat
  recentPreemptedReqIds : List ReqId

structure UtilityCandidateScore (F : Type) where
  requestId : ReqId
  utility : F
  tokensFreed : Int
  completion : F
  numPreemptions : Int
  arrivalTime : F

section

variable {F : Type} [PyFloat F]

/-! ## Scores -/

def computeCompletion (config : UtilityVictimSelectorConfig F) (request : Request F) : F :=
  let maxTokens :=
    match request.maxTokens with
    | some m => if m ≤ 0 then config.utilityDefaultMaxTokens else m
    | none => config.utilityDefaultMaxTokens
  let completion := PyFloat.div (PyFloat.ofInt request.numOutputTokens) (PyFloat.ofInt maxTokens)
  PyFloat.min (PyFloat.max completion (PyFloat.ofInt 0)) (PyFloat.ofInt 1)

def computeUtility (config : UtilityVictimSelectorConfig F) (tokensFreed : Int) (completion : F)
    (numPreemptions : Int) : F :=
  let reward := PyFloat.max (PyFloat.ofInt tokensFreed) (PyFloat.ofInt 0 : F)
  let preemptions := PyFloat.max (PyFloat.ofInt numPreemptions) (PyFloat.ofInt 0)
  let delta := PyFloat.add
    (PyFloat.add (PyFloat.ofInt 1) (PyFloat.mul config.utilityCompletionWeight completion))
    (PyFloat.mul config.utilityPreemptWeight preemptions)
  PyFloat.div reward
    (PyFloat.max (PyFloat.add delta config.utilityEpsilon) config.utilityEpsilon)

def scoreRequest (config : UtilityVictimSelectorConfig F) (request : Request F)
    (requestId : ReqId) : UtilityCandidateScore F :=
  let tokensFreed := max request.numComputedTokens 0
  let completion := computeCompletion config request
  let numPreemptions := max request.numPreemptions 0
  { requestId
    utility := computeUtility config tokensFreed completion numPreemptions
    tokensFreed
    completion
    numPreemptions
    arrivalTime := request.arrivalTime }

/-- Tuple order of the sort key `(-utility, arrival_time, request_id)`. -/
def candidateLt (a b : UtilityCandidateScore F) : Bool :=
  if !PyFloat.beq (PyFloat.neg a.utility) (PyFloat.neg b.utility) then
    PyFloat.lt (PyFloat.neg a.utility) (PyFloat.neg b.utility)
  else if !PyFloat.beq a.arrivalTime b.arrivalTime then PyFloat.lt a.arrivalTime b.arrivalTime
  else decide (a.requestId < b.requestId)

def rankCandidates (config : UtilityVictimSelectorConfig F) (requests : ReqId → Request F)
    (running : List ReqId) : List (UtilityCandidateScore F) :=
  (running.map fun r => scoreRequest config (requests r) r).insertionSort
    fun a b => candidateLt b a = false

/-! ## The choice -/

/-- `max(running, key=(priority, arrival_time))`, the first of the largest, or `running[-1]`. -/
def pickDefaultVictim (requests : ReqId → Request F) (running : List ReqId) :
    SchedulingPolicy → Option ReqId
  | .fcfs => running.getLast?
  | .priority =>
    match running with
    | [] => none
    | r :: rest => some (rest.foldl (fun best x => if keyLt best x then x else best) r)
where
  keyLt (a b : ReqId) : Bool :=
    if (requests a).priority ≠ (requests b).priority then
      decide ((requests a).priority < (requests b).priority)
    else PyFloat.lt (requests a).arrivalTime (requests b).arrivalTime

variable (sel : UnifiedVictimSelector F)

def utilityEnabled : Bool := sel.config.enableUtilityVictimSelection && !sel.config.utilityKillSwitch

def gateOn : Bool := PyFloat.lt (PyFloat.ofInt 0) sel.config.utilityKvGate

def canUseUtility (kvUtilization : Option F) (now : F) (runningSize : Nat) : Bool :=
  if (runningSize : Int) < sel.config.utilityMinRunning then false
  else if gateOn sel && kvUtilization.all fun u => PyFloat.lt u sel.config.utilityKvGate then false
  else
    match sel.lastUtilityPickTs with
    | none => true
    | some last =>
      !(PyFloat.lt (PyFloat.ofInt 0) sel.config.utilityCooldownS &&
        PyFloat.lt (PyFloat.sub now last) sel.config.utilityCooldownS)

def appendBounded (size : Nat) (q : List ReqId) (r : ReqId) : List ReqId := (q ++ [r]).drop ((q ++ [r]).length - size)

def recordPreemption (victim : Request F) (usedUtility : Bool) : UnifiedVictimSelector F :=
  let id := victim.requestId
  { sel with
    totalPreemptions := sel.totalPreemptions + 1
    totalTokensFreed := sel.totalTokensFreed + max victim.numComputedTokens 0
    consecutivePreemptionChecks :=
      sel.consecutivePreemptionChecks + if sel.lastPreemptedRequestId.isSome then 1 else 0
    consecutivePreemptionEvents :=
      sel.consecutivePreemptionEvents + if sel.lastPreemptedRequestId = some id then 1 else 0
    preemptionsPerRequest := sel.preemptionsPerRequest.set id (sel.preemptionsPerRequest.getD id 0 + 1)
    recentPreemptedReqIds :=
      appendBounded (max 1 sel.config.utilitySnapshotHistorySize).toNat sel.recentPreemptedReqIds id
    lastPreemptedRequestId := some id
    utilityStrategyHits := sel.utilityStrategyHits + if usedUtility then 1 else 0
    defaultStrategyHits := sel.defaultStrategyHits + if usedUtility then 0 else 1 }

def notePressure (kvUtilization : Option F) : UnifiedVictimSelector F :=
  let underPressure := gateOn sel && kvUtilization.any fun u => PyFloat.le sel.config.utilityKvGate u
  { sel with kvPressureEvents := sel.kvPressureEvents + if underPressure then 1 else 0 }

/-- `none` is the `ValueError` on an empty list. -/
def pickVictim (requests : ReqId → Request F) (running : List ReqId) (policy : SchedulingPolicy)
    (kvUtilization : Option F) (now : F) : Option (ReqId × UnifiedVictimSelector F) :=
  let sel := notePressure sel kvUtilization
  if utilityEnabled sel && canUseUtility sel kvUtilization now running.length then
    ((rankCandidates sel.config requests running).head?).map fun c =>
      (c.requestId, recordPreemption { sel with lastUtilityPickTs := some now } (requests c.requestId) true)
  else
    (pickDefaultVictim requests running policy).map fun v => (v, recordPreemption sel (requests v) false)

/-- `infer_kv_utilization_from_scheduler`. The pool is the pair of `num_gpu_blocks` and
`num_free_blocks`, `none` when the manager has none. -/
def inferKvUtilization (pool : Option (Int × Int)) : Option F :=
  pool.bind fun (total, free) =>
    let totalBlocks : F := PyFloat.ofInt total
    if PyFloat.le totalBlocks (PyFloat.ofInt 0) then none
    else
      let usedRatio := PyFloat.div (PyFloat.sub totalBlocks (PyFloat.ofInt free)) totalBlocks
      some (PyFloat.min (PyFloat.max usedRatio (PyFloat.ofInt 0)) (PyFloat.ofInt 1))

end

/-! ## The victim is a running request -/

section

variable {F : Type} [PyFloat F] {sel : UnifiedVictimSelector F} {requests : ReqId → Request F}
  {running : List ReqId} {policy : SchedulingPolicy}

theorem rankCandidates_mem {config : UtilityVictimSelectorConfig F} {c : UtilityCandidateScore F}
    (h : c ∈ rankCandidates config requests running) : c.requestId ∈ running := by
  unfold rankCandidates at h
  rw [mem_insertionSort, mem_map] at h
  obtain ⟨r, hr, rfl⟩ := h
  exact hr

theorem pickDefaultVictim_mem {v : ReqId} (h : pickDefaultVictim requests running policy = some v) : v ∈ running := by
  cases policy with
  | fcfs => exact mem_of_getLast? h
  | priority =>
    cases running with
    | nil => simp [pickDefaultVictim] at h
    | cons r rest =>
      simp only [pickDefaultVictim, Option.some.injEq] at h
      subst h
      exact foldl_choose_mem _ rest r

theorem pickVictim_mem {kvUtilization : Option F} {now : F} {v : ReqId} {sel' : UnifiedVictimSelector F}
    (h : pickVictim sel requests running policy kvUtilization now = some (v, sel')) : v ∈ running := by
  simp only [pickVictim] at h
  split at h
  · obtain ⟨c, hc, he⟩ := Option.map_eq_some_iff.mp h
    cases he
    exact rankCandidates_mem (mem_of_head? hc)
  · obtain ⟨w, hw, he⟩ := Option.map_eq_some_iff.mp h
    cases he
    exact pickDefaultVictim_mem hw

theorem pickVictim_isSome (sel : UnifiedVictimSelector F) (requests : ReqId → Request F)
    (policy : SchedulingPolicy) (hrun : running ≠ []) (kvUtilization : Option F) (now : F) :
    ∃ v sel', pickVictim sel requests running policy kvUtilization now = some (v, sel') := by
  simp only [pickVictim]
  split
  · have hne : rankCandidates (notePressure sel kvUtilization).config requests running ≠ [] := by
      intro hnil
      have hlen := congrArg length hnil
      simp only [rankCandidates, length_insertionSort, length_map, length_nil] at hlen
      exact hrun (eq_nil_of_length_eq_zero hlen)
    obtain ⟨c, rest, hc⟩ := exists_cons_of_ne_nil hne
    exact ⟨_, _, by rw [hc]; rfl⟩
  · obtain ⟨r, rest, rfl⟩ := exists_cons_of_ne_nil hrun
    cases policy with
    | fcfs => exact ⟨_, _, by rfl⟩
    | priority => exact ⟨_, _, rfl⟩

end

end VllmAscend.Core
