import VllmAscend.KvTransfer.AscendStore.Building

/-!
# Loads that reach the workers

A load that was accepted counts as computed from then on, so it has to be in the metadata of the same step.
-/

namespace VllmAscend.KvTransfer.AscendStore

open PoolScheduler List Dict

/-! ## Steps of the scheduler -/

/-- A waiting request in one step: the local prefix and the answer of the lookup when it was asked for,
the blocks when they could be allocated, and the external tokens that vLLM counts. -/
structure Admission where
  reqId : String
  lookup : Option (Nat × Nat)
  blockIds : Option (List (List Nat))
  numExternalTokens : Nat

structure StepInput where
  requests : String → PoolRequest
  reports : List (Dict Nat Nat)
  admissions : List Admission
  output : SchedulerOutput

namespace Admission

variable (cfg : SchedulerConfig) (requests : String → PoolRequest) (a : Admission)

def spec : Option LoadSpec := a.lookup.bind fun (numComputedTokens, hit) =>
  newLoadSpec cfg (requests a.reqId) numComputedTokens hit

def accepted : Option (String × LoadSpec) :=
  if a.blockIds.isSome ∧ 0 < a.numExternalTokens then
    (a.spec cfg requests).map fun spec => (a.reqId, { spec with canLoad := true })
  else none

def run (s : PoolScheduler) : Option PoolScheduler :=
  let s := match a.lookup with
    | none => s
    | some (numComputedTokens, hit) =>
      (getNumNewMatchedTokens cfg s a.reqId (requests a.reqId) numComputedTokens hit).1
  match a.blockIds with
  | none => some s
  | some blockIds => updateStateAfterAlloc cfg s a.reqId blockIds a.numExternalTokens

end Admission

namespace StepInput

variable (cfg : SchedulerConfig) (i : StepInput)

def newIds : List String := i.output.scheduledNewReqs.map (·.reqId)

def cachedIds : List String := i.output.scheduledCachedReqs.map (·.reqId)

def leftIds : List String := i.output.finishedReqIds ++ i.output.preemptedReqIds

def allocatedIds : List String := (i.admissions.filter (·.blockIds.isSome)).map (·.reqId)

def accepted : List (String × LoadSpec) := i.admissions.filterMap (·.accepted cfg i.requests)

def run (s : PoolScheduler) : Option Building :=
  (i.admissions.foldlM (fun s (a : Admission) => a.run cfg i.requests s) (i.reports.foldl (updateConnectorOutput cfg) s)).bind
    (buildConnectorMeta cfg i.requests i.output)

end StepInput

/-! ## What vLLM does -/

structure Requests where
  running : List String := []
  preempted : List String := []

namespace Requests

def resumed (env : Requests) (i : StepInput) : List String := i.cachedIds.filter (· ∈ env.preempted)

def next (env : Requests) (i : StepInput) : Requests where
  running := env.running.filter (· ∉ i.leftIds) ++ i.newIds ++ env.resumed i
  preempted :=
    env.preempted.filter (fun r => r ∉ i.output.finishedReqIds ∧ r ∉ env.resumed i) ++ i.output.preemptedReqIds

end Requests

@[mk_iff]
structure Scheduled (cfg : SchedulerConfig) (env : Requests) (i : StepInput) : Prop where
  once : (i.admissions.map (·.reqId)).Nodup
  /-- The external tokens are those of the lookup, or another connector provides them. -/
  told : ∀ a ∈ i.admissions, a.numExternalTokens = 0 ∨
    ∃ spec ∈ a.spec cfg i.requests, a.numExternalTokens = spec.kvpoolCachedTokens - spec.vllmCachedTokens
  allocated : ∀ r ∈ i.allocatedIds, r ∉ i.leftIds ∧ r ∉ env.running
  scheduled_once : (i.newIds ++ i.cachedIds).Nodup
  new : ∀ r ∈ i.newIds, r ∈ i.allocatedIds ∧ r ∉ env.preempted
  cached : ∀ req ∈ i.output.scheduledCachedReqs, req.reqId ∈ env.running ∧ req.reqId ∉ i.leftIds ∨
    req.reqId ∈ env.preempted ∧ req.reqId ∈ i.allocatedIds ∧ req.newBlockIds.getD [] ≠ []
  admission_groups : ∀ a ∈ i.admissions, ∀ blockIds ∈ a.blockIds, blockIds.length = cfg.numGroups
  new_groups : ∀ req ∈ i.output.scheduledNewReqs, req.blockIds.length = cfg.numGroups
  cached_groups : ∀ req ∈ i.output.scheduledCachedReqs, ∀ blockIds ∈ req.newBlockIds,
    blockIds = [] ∨ blockIds.length = cfg.numGroups

instance (cfg : SchedulerConfig) (env : Requests) (i : StepInput) : Decidable (Scheduled cfg env i) :=
  decidable_of_iff' _ (scheduled_iff cfg env i)

def Admissible (cfg : SchedulerConfig) : Requests → List StepInput → Prop
  | _, [] => True
  | env, i :: rest => Scheduled cfg env i ∧ Admissible cfg (env.next i) rest

instance Admissible.decidable (cfg : SchedulerConfig) : ∀ env inputs, Decidable (Admissible cfg env inputs)
  | _, [] => isTrue trivial
  | env, i :: rest =>
    have := Admissible.decidable cfg (env.next i) rest
    inferInstanceAs (Decidable (_ ∧ _))

/-- In every step the metadata has the loads accepted in the step, each once, and no others. -/
def AllDelivered (cfg : SchedulerConfig) : PoolScheduler → List StepInput → Prop
  | _, [] => True
  | s, i :: rest => ∃ s' reqMetas, i.run cfg s = some (s', reqMetas) ∧
      (delivered reqMetas).Perm (i.accepted cfg) ∧ AllDelivered cfg s' rest

def deliveries (cfg : SchedulerConfig) : PoolScheduler → List StepInput → Option (List (List (String × LoadSpec)))
  | _, [] => some []
  | s, i :: rest => (i.run cfg s).bind fun (s', reqMetas) => (deliveries cfg s' rest).map (delivered reqMetas :: ·)

/-- A consumer that does not save resumes no request with a load. -/
def LoadsReachable (cfg : SchedulerConfig) (i : StepInput) : Prop :=
  cfg.forceSkipSave = true → ∀ p ∈ i.accepted cfg, p.1 ∉ i.cachedIds

/-! ## Admission -/

open Admission

section Admissions

variable {cfg : SchedulerConfig} {requests : String → PoolRequest} {s : PoolScheduler}

def Admission.noted (a : Admission) (cfg : SchedulerConfig) (requests : String → PoolRequest) (s : PoolScheduler) :
    PoolScheduler :=
  match a.spec cfg requests with
  | none => s
  | some spec => { s with loadSpecs := s.loadSpecs.set a.reqId spec }

theorem Admission.run_eq (a : Admission) : a.run cfg requests s =
    match a.blockIds with
    | none => some (a.noted cfg requests s)
    | some blockIds => updateStateAfterAlloc cfg (a.noted cfg requests s) a.reqId blockIds a.numExternalTokens := by
  have hlookup : (match a.lookup with
      | none => s
      | some (numComputedTokens, hit) =>
        (getNumNewMatchedTokens cfg s a.reqId (requests a.reqId) numComputedTokens hit).1) = a.noted cfg requests s := by
    unfold noted spec
    cases a.lookup with
    | none => rfl
    | some p =>
      dsimp only [Option.bind_some]
      unfold getNumNewMatchedTokens
      cases newLoadSpec cfg (requests a.reqId) p.1 p.2 with
      | none | some spec => rfl
  unfold run
  rw [hlookup]

variable {a : Admission}

theorem Admission.spec_eq_some {spec : LoadSpec} (h : a.spec cfg requests = some spec) :
    spec.vllmCachedTokens < spec.kvpoolCachedTokens ∧ spec.canLoad = false := by
  obtain ⟨p, -, hspec⟩ := Option.bind_eq_some_iff.mp h
  obtain ⟨rfl, hlt⟩ := newLoadSpec_eq_some hspec
  exact ⟨hlt, rfl⟩

theorem Admission.noted_get? (a : Admission) {r : String} (hr : r ≠ a.reqId) :
    (a.noted cfg requests s).loadSpecs.get? r = s.loadSpecs.get? r := by
  unfold noted
  split
  · rfl
  · rw [get?_set, if_neg (Ne.symm hr)]

theorem Admission.ready_noted (h : ready s.loadSpecs a.reqId = none) :
    ready (a.noted cfg requests s).loadSpecs a.reqId = none := by
  unfold noted
  split
  next => exact h
  next spec hspec =>
    simp [ready, get?_set, (spec_eq_some hspec).2]

theorem updateStateAfterAlloc_ok {reqId : String} {ids : List (List Nat)} {ext : Nat}
    (h : ext = 0 ∨ ∃ spec, s.loadSpecs.get? reqId = some spec ∧
      ext + spec.vllmCachedTokens = spec.kvpoolCachedTokens) :
    ∃ s' blocks, updateStateAfterAlloc cfg s reqId ids ext = some s' ∧
      s'.requestTrackers = s.requestTrackers ∧ s'.preemptedReqIds = s.preemptedReqIds ∧
      s'.unfinishedRequests = s.unfinishedRequests.set reqId blocks ∧ (blocks = ids ∨ blocks.length = cfg.numGroups) ∧
      (∀ r ≠ reqId, s'.loadSpecs.get? r = s.loadSpecs.get? r) ∧ s'.loadSpecs.get? reqId = (s.loadSpecs.get? reqId).map
        fun spec => { spec with canLoad := decide (0 < ext) } := by
  unfold updateStateAfterAlloc
  have hblocks : (if 0 < ext then ids else replicate cfg.numGroups []) = ids ∨
      (if 0 < ext then ids else replicate cfg.numGroups []).length = cfg.numGroups := by
    split
    · exact .inl rfl
    · exact .inr length_replicate
  dsimp only
  cases hspec : s.loadSpecs.get? reqId with
  | none => exact ⟨_, _, rfl, rfl, rfl, rfl, hblocks, fun r _ => rfl, hspec⟩
  | some spec =>
    dsimp only
    by_cases hzero : ext = 0
    · rw [if_pos hzero]
      refine ⟨_, _, rfl, rfl, rfl, rfl, hblocks, fun r hr => ?_, ?_⟩
      · rw [get?_set, if_neg (Ne.symm hr)]
      · simp [get?_set, hzero]
    · obtain ⟨spec', hspec', hsum⟩ := h.resolve_left hzero
      obtain rfl : spec = spec' := Option.some.inj (hspec.symm.trans hspec')
      rw [if_neg hzero, if_pos hsum]
      refine ⟨_, _, rfl, rfl, rfl, rfl, hblocks, fun r hr => ?_, ?_⟩
      · rw [get?_set, if_neg (Ne.symm hr)]
      · simp [get?_set, Nat.pos_of_ne_zero hzero]

def UnfinishedOk (cfg : SchedulerConfig) (unfinished : Dict String (List (List Nat))) : Prop :=
  ∀ r blocks, unfinished.get? r = some blocks → blocks.length = cfg.numGroups

structure Admitted (cfg : SchedulerConfig) (requests : String → PoolRequest) (l : List Admission) (s s' : PoolScheduler) :
    Prop where
  trackers : s'.requestTrackers = s.requestTrackers
  preempted : s'.preemptedReqIds = s.preemptedReqIds
  unfinished : ∀ r, r ∈ s'.unfinishedRequests.keys ↔
    r ∈ s.unfinishedRequests.keys ∨ r ∈ (l.filter (·.blockIds.isSome)).map (·.reqId)
  groups : UnfinishedOk cfg s.unfinishedRequests → UnfinishedOk cfg s'.unfinishedRequests
  others : ∀ r ∉ l.map (·.reqId), s'.loadSpecs.get? r = s.loadSpecs.get? r
  ready : ∀ a ∈ l, ready s'.loadSpecs a.reqId = a.accepted cfg requests

theorem Admitted.nil (s : PoolScheduler) : Admitted cfg requests [] s s where
  trackers := rfl
  preempted := rfl
  unfinished r := by simp
  groups h := h
  others r _ := rfl
  ready a ha := absurd ha not_mem_nil

theorem Admitted.cons {l : List Admission} {s₁ s' : PoolScheduler}
    (h : Admitted cfg requests [a] s s₁) (h' : Admitted cfg requests l s₁ s') (hnew : a.reqId ∉ l.map (·.reqId)) :
    Admitted cfg requests (a :: l) s s' where
  trackers := h'.trackers.trans h.trackers
  preempted := h'.preempted.trans h.preempted
  unfinished r := by
    rw [h'.unfinished, h.unfinished, or_assoc, ← mem_append, ← map_append, ← filter_append]
    rfl
  groups hs := h'.groups (h.groups hs)
  others r hr := by
    rw [map_cons, mem_cons, not_or] at hr
    rw [h'.others r hr.2, h.others r (mem_singleton.not.mpr hr.1)]
  ready b hb := by
    rcases mem_cons.mp hb with rfl | hb
    · rw [ready_congr (h'.others _ hnew)]
      exact h.ready b mem_cons_self
    · exact h'.ready b hb

structure Admission.Ok (cfg : SchedulerConfig) (requests : String → PoolRequest) (a : Admission) : Prop where
  told : a.numExternalTokens = 0 ∨ ∃ spec, a.spec cfg requests = some spec ∧
    a.numExternalTokens = spec.kvpoolCachedTokens - spec.vllmCachedTokens
  groups : ∀ blockIds, a.blockIds = some blockIds → blockIds.length = cfg.numGroups

theorem Admission.run_ok (ha : a.Ok cfg requests) (hready : ready s.loadSpecs a.reqId = none) :
    ∃ s', a.run cfg requests s = some s' ∧ Admitted cfg requests [a] s s' := by
  have hnoted : Pinned { s with loadSpecs := (a.noted cfg requests s).loadSpecs } (a.noted cfg requests s) := by
    unfold noted
    split <;> exact ⟨rfl, rfl, rfl, rfl⟩
  have hother : ∀ r ∉ [a].map (·.reqId), (a.noted cfg requests s).loadSpecs.get? r = s.loadSpecs.get? r :=
    fun r hr => a.noted_get? (mem_singleton.not.mp hr)
  rw [run_eq]
  cases hblocks : a.blockIds with
  | none =>
    refine ⟨_, rfl, hnoted.requestTrackers, hnoted.preemptedReqIds, fun r => ?_, fun h => ?_, hother,
      forall_mem_singleton.mpr ?_⟩
    · simp [hnoted.unfinishedRequests, hblocks]
    · rw [hnoted.unfinishedRequests]
      exact h
    · rw [ready_noted hready]
      simp [accepted, hblocks]
  | some blockIds =>
    have hspec : ∀ spec, a.spec cfg requests = some spec →
        (a.noted cfg requests s).loadSpecs.get? a.reqId = some spec := by
      intro spec hspec
      simp [noted, hspec, get?_set]
    have hsum : a.numExternalTokens = 0 ∨ ∃ spec, (a.noted cfg requests s).loadSpecs.get? a.reqId = some spec ∧
        a.numExternalTokens + spec.vllmCachedTokens = spec.kvpoolCachedTokens := by
      refine ha.told.imp_right ?_
      rintro ⟨spec, heq, htokens⟩
      refine ⟨spec, hspec spec heq, ?_⟩
      have := (spec_eq_some heq).1
      omega
    obtain ⟨s', blocks, hs', htrackers, hpreempted, hunfinished, hlen, hothers, hself⟩ :=
      @updateStateAfterAlloc_ok cfg (a.noted cfg requests s) a.reqId blockIds a.numExternalTokens hsum
    refine ⟨s', hs', htrackers.trans hnoted.requestTrackers, hpreempted.trans hnoted.preemptedReqIds, fun r => ?_,
      fun h r blocks' hget => ?_, fun r hr => (hothers r (mem_singleton.not.mp hr)).trans (hother r hr),
      forall_mem_singleton.mpr ?_⟩
    · rw [hunfinished, mem_keys_set, hnoted.unfinishedRequests]
      simp [hblocks, or_comm]
    · rw [hunfinished, get?_set, hnoted.unfinishedRequests] at hget
      split at hget
      · cases hget
        exact hlen.elim (fun heq => heq ▸ ha.groups blockIds hblocks) id
      · exact h r blocks' hget
    · unfold AscendStore.ready
      rw [hself]
      by_cases hzero : a.numExternalTokens = 0
      · cases (a.noted cfg requests s).loadSpecs.get? a.reqId <;> simp [accepted, hzero]
      · obtain ⟨spec, heq, -⟩ := ha.told.resolve_left hzero
        simp [hspec spec heq, accepted, hblocks, heq, Nat.pos_of_ne_zero hzero]

theorem admissions_ok {l : List Admission} (hok : ∀ a ∈ l, a.Ok cfg requests) (honce : (l.map (·.reqId)).Nodup)
    (hready : ∀ a ∈ l, ready s.loadSpecs a.reqId = none) :
    ∃ s', l.foldlM (fun s (a : Admission) => a.run cfg requests s) s = some s' ∧ Admitted cfg requests l s s' := by
  induction l generalizing s with
  | nil => exact ⟨s, rfl, .nil s⟩
  | cons a l ih =>
    obtain ⟨hnew, honce⟩ := nodup_cons.mp honce
    obtain ⟨hok, hokl⟩ := forall_mem_cons.mp hok
    obtain ⟨hready, hreadyl⟩ := forall_mem_cons.mp hready
    obtain ⟨s₁, hs₁, hadm₁⟩ := run_ok hok hready
    have hready₁ : ∀ b ∈ l, ready s₁.loadSpecs b.reqId = none := by
      intro b hb
      have hne : b.reqId ∉ [a].map (·.reqId) := mem_singleton.not.mpr fun heq => hnew (heq ▸ mem_map_of_mem hb)
      rw [ready_congr (hadm₁.others _ hne)]
      exact hreadyl b hb
    obtain ⟨s', hs', hadm'⟩ := ih hokl honce hready₁
    refine ⟨s', ?_, hadm₁.cons hadm' hnew⟩
    rw [foldlM_cons, hs₁]
    exact hs'

end Admissions

/-! ## Steps -/

section Steps

variable {cfg : SchedulerConfig} {env : Requests} {i : StepInput} {s : PoolScheduler}

theorem Pinned.refl (s : PoolScheduler) : Pinned s s := ⟨rfl, rfl, rfl, rfl⟩

theorem Pinned.trans {s s' s'' : PoolScheduler} (h : Pinned s s') (h' : Pinned s' s'') : Pinned s s'' where
  loadSpecs := h'.loadSpecs.trans h.loadSpecs
  requestTrackers := h'.requestTrackers.trans h.requestTrackers
  preemptedReqIds := h'.preemptedReqIds.trans h.preemptedReqIds
  unfinishedRequests := h'.unfinishedRequests.trans h.unfinishedRequests

theorem completeEvent_pinned (s : PoolScheduler) (report : Nat × Nat) : Pinned s (completeEvent cfg s report) := by
  unfold completeEvent
  split
  · exact .refl s
  · dsimp only
    split <;> exact ⟨rfl, rfl, rfl, rfl⟩

theorem foldl_pinned {α : Type*} {f : PoolScheduler → α → PoolScheduler} (hf : ∀ s a, Pinned s (f s a)) (l : List α)
    (s : PoolScheduler) : Pinned s (l.foldl f s) := by
  induction l generalizing s with
  | nil => exact .refl s
  | cons a l ih => exact (hf s a).trans (ih (f s a))

theorem reports_pinned (reports : List (Dict Nat Nat)) (s : PoolScheduler) :
    Pinned s (reports.foldl (updateConnectorOutput cfg) s) := by
  apply foldl_pinned
  intro s completedEvents
  exact foldl_pinned completeEvent_pinned completedEvents.entries s

structure Between (cfg : SchedulerConfig) (env : Requests) (s : PoolScheduler) : Prop where
  trackers : TrackersOk cfg s.requestTrackers
  groups : UnfinishedOk cfg s.unfinishedRequests
  idle : ∀ r, ready s.loadSpecs r = none
  apart : ∀ r ∈ env.running, r ∉ env.preempted
  preempted : ∀ r ∈ env.preempted, r ∈ s.preemptedReqIds
  preempted_only : cfg.forceSkipSave = false → ∀ r ∈ s.preemptedReqIds, r ∈ env.preempted
  unfinished : ∀ r ∈ env.running, r ∈ s.unfinishedRequests.keys
  tracked : cfg.forceSkipSave = false → ∀ r ∈ env.running, r ∈ s.requestTrackers.keys

theorem Between.initial (cfg : SchedulerConfig) : Between cfg {} {} where
  trackers _ _ h := absurd h (Option.some_ne_none _).symm
  groups _ _ h := absurd h (Option.some_ne_none _).symm
  idle _ := rfl
  apart _ h := absurd h not_mem_nil
  preempted _ h := absurd h not_mem_nil
  preempted_only _ _ h := absurd h not_mem_nil
  unfinished _ h := absurd h not_mem_nil
  tracked _ _ h := absurd h not_mem_nil

structure Asked (cfg : SchedulerConfig) (env : Requests) (i : StepInput) (s : PoolScheduler) : Prop where
  trackers : TrackersOk cfg s.requestTrackers
  groups : UnfinishedOk cfg s.unfinishedRequests
  ready : ∀ r p, ready s.loadSpecs r = some p ↔ p ∈ i.accepted cfg ∧ p.1 = r
  preempted : ∀ r, r ∈ env.preempted ∧ r ∉ i.output.finishedReqIds ∨ r ∈ i.output.preemptedReqIds → r ∈ s.preemptedReqIds
  preempted_only : cfg.forceSkipSave = false → ∀ r ∈ s.preemptedReqIds,
    r ∈ env.preempted ∧ r ∉ i.output.finishedReqIds ∨ r ∈ i.output.preemptedReqIds
  unfinished : ∀ r, r ∈ env.running ∨ r ∈ i.allocatedIds → r ∉ i.leftIds → r ∈ s.unfinishedRequests.keys
  tracked : cfg.forceSkipSave = false → ∀ r ∈ env.running, r ∉ i.leftIds → r ∈ s.requestTrackers.keys

variable {p : String × LoadSpec} {r : String}

theorem Admission.accepted_eq_some {a : Admission} {requests : String → PoolRequest}
    (h : a.accepted cfg requests = some p) : p.1 = a.reqId ∧ a.blockIds.isSome = true := by
  unfold accepted at h
  split at h
  next hok =>
    obtain ⟨spec, -, rfl⟩ := Option.map_eq_some_iff.mp h
    exact ⟨rfl, hok.1⟩
  next => cases h

theorem mem_accepted : p ∈ i.accepted cfg ↔ ∃ a ∈ i.admissions, a.accepted cfg i.requests = some p := mem_filterMap

theorem mem_allocatedIds_of_mem_accepted (h : p ∈ i.accepted cfg) : p.1 ∈ i.allocatedIds := by
  obtain ⟨a, ha, hp⟩ := mem_accepted.mp h
  obtain ⟨heq, hblocks⟩ := accepted_eq_some hp
  rw [heq]
  exact mem_map_of_mem (mem_filter.mpr ⟨ha, hblocks⟩)

theorem ready_fst {loadSpecs : Dict String LoadSpec} (h : ready loadSpecs r = some p) : p.1 = r := by
  obtain ⟨spec, -, rfl⟩ := Option.map_eq_some_iff.mp h
  rfl

theorem Between.asked (h : Between cfg env s) (hi : Scheduled cfg env i) :
    ∃ s', i.admissions.foldlM (fun s (a : Admission) => a.run cfg i.requests s)
        (i.reports.foldl (updateConnectorOutput cfg) s) = some s' ∧ Asked cfg env i (dropLeft i.output s') := by
  have hpinned := @reports_pinned cfg i.reports s
  generalize i.reports.foldl (updateConnectorOutput cfg) s = s₀ at hpinned ⊢
  have hidle : ∀ r, ready s₀.loadSpecs r = none := fun r => by rw [hpinned.loadSpecs, h.idle]
  obtain ⟨s', hs', hadm⟩ := @admissions_ok cfg i.requests s₀ i.admissions
    (fun a ha => ⟨hi.told a ha, hi.admission_groups a ha⟩) hi.once (fun a _ => hidle a.reqId)
  have hpre : ∀ r, r ∈ (dropLeft i.output s').preemptedReqIds ↔
      r ∈ s.preemptedReqIds ∧ r ∉ i.output.finishedReqIds ∨ r ∈ i.output.preemptedReqIds := by
    simp [dropLeft, hadm.preempted, hpinned.preemptedReqIds]
  refine ⟨s', hs', ?_, ?_, ?_, ?_, ?_, ?_, ?_⟩
  · intro r tracker htracker
    rw [dropLeft, get?_foldl_erase, hadm.trackers, hpinned.requestTrackers] at htracker
    split at htracker
    · cases htracker
    · exact h.trackers r tracker htracker
  · intro r blocks hblocks
    rw [dropLeft, get?_foldl_erase] at hblocks
    split at hblocks
    · cases hblocks
    · exact hadm.groups (hpinned.unfinishedRequests ▸ h.groups) r blocks hblocks
  · intro r p
    show AscendStore.ready s'.loadSpecs r = some p ↔ _
    rw [mem_accepted]
    constructor
    · intro hready
      have hr : r ∈ i.admissions.map (·.reqId) := by
        by_contra hr
        rw [ready_congr (hadm.others r hr), hidle] at hready
        cases hready
      obtain ⟨a, ha, rfl⟩ := mem_map.mp hr
      exact ⟨⟨a, ha, (hadm.ready a ha).symm.trans hready⟩, ready_fst hready⟩
    · rintro ⟨⟨a, ha, hp⟩, rfl⟩
      rw [(accepted_eq_some hp).1, hadm.ready a ha]
      exact hp
  · intro r hr
    exact (hpre r).mpr (hr.imp_left (.imp_left (h.preempted r)))
  · intro hforce r hr
    exact ((hpre r).mp hr).imp_left (.imp_left (h.preempted_only hforce r))
  · intro r hr hleft
    refine mem_keys_foldl_erase.mpr ⟨(hadm.unfinished r).mpr ?_, hleft⟩
    rw [hpinned.unfinishedRequests]
    exact hr.imp_left (h.unfinished r)
  · intro hforce r hr hleft
    refine mem_keys_foldl_erase.mpr ⟨?_, hleft⟩
    rw [hadm.trackers, hpinned.requestTrackers]
    exact h.tracked hforce r hr

theorem mem_sentIds : r ∈ sentIds cfg i.output s ↔ r ∈ i.newIds ∨ r ∈ resumedIds cfg i.output s ∨
      r ∈ s.unfinishedRequests.keys ∧ r ∉ i.newIds ∧ r ∉ i.cachedIds ∧ (s.loadSpecs.get? r).isSome = true := by
  have hwaiting : r ∈ (s.unfinishedRequests.entries.filter (waits i.output s.loadSpecs)).map Prod.fst ↔
      r ∈ s.unfinishedRequests.keys ∧ r ∉ i.newIds ∧ r ∉ i.cachedIds ∧ (s.loadSpecs.get? r).isSome = true := by
    constructor
    · intro hr
      obtain ⟨entry, hentry, rfl⟩ := mem_map.mp hr
      obtain ⟨hmem, hwaits⟩ := mem_filter.mp hentry
      obtain ⟨hnot, hspec⟩ := of_decide_eq_true hwaits
      exact ⟨mem_map_of_mem hmem, (not_or.mp hnot).1, (not_or.mp hnot).2, hspec⟩
    · rintro ⟨hkey, hnew, hcached, hspec⟩
      obtain ⟨blocks, hblocks⟩ := exists_get?_of_mem_keys hkey
      refine mem_map.mpr ⟨(r, blocks), mem_filter.mpr ⟨mem_entries.mpr hblocks, ?_⟩, rfl⟩
      exact decide_eq_true ⟨not_or.mpr ⟨hnew, hcached⟩, hspec⟩
  unfold sentIds
  rw [mem_append, mem_append, hwaiting, or_assoc]
  rfl

variable (h : Asked cfg env i s) (hi : Scheduled cfg env i)

include h hi

theorem Asked.buildReady : BuildReady cfg i.output s where
  trackers := h.trackers
  groups := h.groups
  nodup := hi.scheduled_once
  new req hreq := by
    obtain ⟨hallocated, -⟩ := hi.new req.reqId (mem_map_of_mem hreq)
    exact ⟨hi.new_groups req hreq, h.unfinished _ (.inr hallocated) (hi.allocated _ hallocated).1⟩
  cached hforce req hreq := by
    cases hblocks : req.newBlockIds with
    | none => exact .inl rfl
    | some blockIds =>
      refine (hi.cached_groups req hreq blockIds hblocks).imp_right fun hgroups => ⟨hgroups, ?_⟩
      rcases hi.cached req hreq with ⟨hrunning, hleft⟩ | ⟨hpreempted, hallocated, -⟩
      · exact ⟨h.unfinished _ (.inl hrunning) hleft, .inr (h.tracked hforce _ hrunning hleft)⟩
      · obtain ⟨hleft, -⟩ := hi.allocated _ hallocated
        refine ⟨h.unfinished _ (.inr hallocated) hleft, .inl (h.preempted _ (.inl ⟨hpreempted, ?_⟩))⟩
        exact fun hfinished => hleft (mem_append_left _ hfinished)

theorem Asked.mem_resumedIds_of_cached (hforce : cfg.forceSkipSave = false) (hr : r ∈ i.cachedIds)
    (hrunning : r ∉ env.running) : r ∈ resumedIds cfg i.output s := by
  obtain ⟨req, hreq, rfl⟩ := mem_map.mp hr
  obtain ⟨hpreempted, hallocated, hblocks⟩ := (hi.cached req hreq).resolve_left fun hrun => hrunning hrun.1
  have hstays := h.preempted _ (.inl ⟨hpreempted, fun hfinished => (hi.allocated _ hallocated).1 (mem_append_left _ hfinished)⟩)
  simp only [resumedIds, hforce]
  exact mem_map.mpr ⟨req, mem_filter.mpr ⟨hreq, by simp [resumes, hblocks, hstays]⟩, rfl⟩

theorem Asked.mem_sentIds_iff (hp : p ∈ i.accepted cfg) :
    p.1 ∈ sentIds cfg i.output s ↔ ¬ (cfg.forceSkipSave = true ∧ p.1 ∈ i.cachedIds) := by
  have hallocated := mem_allocatedIds_of_mem_accepted hp
  obtain ⟨hleft, hrunning⟩ := hi.allocated _ hallocated
  rw [mem_sentIds]
  by_cases hcached : p.1 ∈ i.cachedIds
  · have hnew : p.1 ∉ i.newIds := fun hnew => (nodup_append.mp hi.scheduled_once).2.2 _ hnew _ hcached rfl
    cases hforce : cfg.forceSkipSave with
    | true => simp [hnew, hcached, resumedIds, hforce]
    | false => simp [h.mem_resumedIds_of_cached hi hforce hcached hrunning]
  · have hspec : (s.loadSpecs.get? p.1).isSome = true := by
      obtain ⟨spec, hspec, -⟩ := Option.map_eq_some_iff.mp ((h.ready p.1 p).mpr ⟨hp, rfl⟩)
      rw [(Option.filter_eq_some_iff.mp hspec).1]
      rfl
    by_cases hnew : p.1 ∈ i.newIds
    · simp [hnew, hcached]
    · simp [hnew, hcached, hspec, h.unfinished _ (.inr hallocated) hleft]

omit h in
theorem nodup_accepted : (i.accepted cfg).Nodup := by
  apply pairwise_filterMap.mpr
  apply (pairwise_map.mp hi.once).imp
  intro a a' hne p hp p' hp' heq
  apply hne
  rw [← (accepted_eq_some hp).1, ← (accepted_eq_some hp').1, heq]

omit h in
theorem nodup_sentIds : (sentIds cfg i.output s).Nodup := by
  have hresumed : (i.newIds ++ resumedIds cfg i.output s).Nodup := by
    apply Nodup.sublist _ hi.scheduled_once
    apply (Sublist.refl _).append
    unfold resumedIds
    split
    · exact nil_sublist _
    · exact filter_sublist.map _
  have hwaiting : ((s.unfinishedRequests.entries.filter (waits i.output s.loadSpecs)).map Prod.fst).Nodup :=
    s.unfinishedRequests.nodup.sublist (filter_sublist.map _)
  refine nodup_append.mpr ⟨hresumed, hwaiting, ?_⟩
  rintro r hr _ hr' rfl
  obtain ⟨entry, hentry, rfl⟩ := mem_map.mp hr'
  have hnot := (of_decide_eq_true (mem_filter.mp hentry).2).1
  exact hnot ((mem_append.mp hr).imp_right mem_cached_of_mem_resumedIds)

theorem Asked.perm_iff :
    ((sentIds cfg i.output s).filterMap (AscendStore.ready s.loadSpecs)).Perm (i.accepted cfg) ↔ LoadsReachable cfg i := by
  have hnodup : ((sentIds cfg i.output s).filterMap (AscendStore.ready s.loadSpecs)).Nodup := by
    apply (nodup_sentIds hi).filterMap
    intro r r' p hr hr'
    rw [← ready_fst hr, ← ready_fst hr']
  have hmem : ∀ p, p ∈ (sentIds cfg i.output s).filterMap (AscendStore.ready s.loadSpecs) ↔
      p ∈ i.accepted cfg ∧ p.1 ∈ sentIds cfg i.output s := by
    intro p
    rw [mem_filterMap]
    constructor
    · rintro ⟨r, hr, hready⟩
      obtain ⟨hp, rfl⟩ := (h.ready r p).mp hready
      exact ⟨hp, hr⟩
    · rintro ⟨hp, hsent⟩
      exact ⟨p.1, hsent, (h.ready p.1 p).mpr ⟨hp, rfl⟩⟩
  rw [perm_ext_iff_of_nodup hnodup (nodup_accepted hi)]
  constructor
  · intro hall hforce p hp hcached
    exact (h.mem_sentIds_iff hi hp).mp ((hmem p).mp ((hall p).mpr hp)).2 ⟨hforce, hcached⟩
  · intro hreach p
    rw [hmem]
    exact and_iff_left_of_imp fun hp => (h.mem_sentIds_iff hi hp).mpr fun hbad => hreach hbad.1 p hp hbad.2

theorem Asked.next (hapart : ∀ r ∈ env.running, r ∉ env.preempted) (hreach : LoadsReachable cfg i) {b : Building} {loads : List (String × LoadSpec)}
    (hb : Adds cfg (s, []) b (sentIds cfg i.output s) loads)
    (hpreempted : ∀ r, r ∈ b.1.preemptedReqIds ↔ r ∈ s.preemptedReqIds ∧ r ∉ resumedIds cfg i.output s) :
    Between cfg (env.next i) b.1 := by
  have hleft : ∀ r ∈ i.cachedIds, r ∉ i.leftIds := by
    refine forall_mem_map.mpr fun req hreq => ?_
    rcases hi.cached req hreq with ⟨-, hleft⟩ | ⟨-, hallocated, -⟩
    · exact hleft
    · exact (hi.allocated _ hallocated).1
  have hrunning : ∀ r, r ∈ (env.next i).running ↔
      r ∈ env.running ∧ r ∉ i.leftIds ∨ r ∈ i.newIds ∨ r ∈ i.cachedIds ∧ r ∈ env.preempted := by
    simp [Requests.next, Requests.resumed]
  have hpre : ∀ r, r ∈ (env.next i).preempted ↔
      (r ∈ env.preempted ∧ r ∉ i.output.finishedReqIds) ∧ ¬ (r ∈ i.cachedIds ∧ r ∈ env.preempted) ∨
        r ∈ i.output.preemptedReqIds := by
    simp [Requests.next, Requests.resumed, and_assoc, imp_iff_not_or]
  have hresumed : ∀ r, r ∈ i.cachedIds ∧ r ∈ env.preempted → r ∈ i.allocatedIds := by
    rintro r ⟨hr, hpreempted⟩
    obtain ⟨req, hreq, rfl⟩ := mem_map.mp hr
    exact ((hi.cached req hreq).resolve_left fun hrun => hapart _ hrun.1 hpreempted).2.1
  refine ⟨hb.trackers h.trackers, ?_, ?_, ?_, ?_, ?_, ?_, ?_⟩
  · rw [hb.unfinished]
    exact h.groups
  · intro r
    by_contra hready
    obtain ⟨p, hready⟩ := Option.ne_none_iff_exists'.mp hready
    by_cases hsent : r ∈ sentIds cfg i.output s
    · have hnone : b.1.loadSpecs.get? r = none := by rw [hb.loadSpecs, if_pos hsent]
      simp [AscendStore.ready, hnone] at hready
    · rw [ready_congr ((hb.loadSpecs r).trans (if_neg hsent))] at hready
      obtain ⟨hp, rfl⟩ := (h.ready r p).mp hready
      exact hsent ((h.mem_sentIds_iff hi hp).mpr fun hbad => hreach hbad.1 p hp hbad.2)
  · intro r hr hr'
    rcases (hrunning r).mp hr with ⟨hrun, hnot⟩ | hnew | hres
    · rcases (hpre r).mp hr' with hold | hpreempt
      · exact hapart r hrun hold.1.1
      · exact hnot (mem_append_right _ hpreempt)
    · obtain ⟨hallocated, hnot⟩ := hi.new r hnew
      rcases (hpre r).mp hr' with hold | hpreempt
      · exact hnot hold.1.1
      · exact (hi.allocated r hallocated).1 (mem_append_right _ hpreempt)
    · rcases (hpre r).mp hr' with hold | hpreempt
      · exact hold.2 hres
      · exact hleft r hres.1 (mem_append_right _ hpreempt)
  · intro r hr
    rw [hpreempted]
    rcases (hpre r).mp hr with ⟨hold, hnot⟩ | hpreempt
    · exact ⟨h.preempted r (.inl hold), fun hres => hnot ⟨mem_cached_of_mem_resumedIds hres, hold.1⟩⟩
    · refine ⟨h.preempted r (.inr hpreempt), fun hres => ?_⟩
      exact hleft r (mem_cached_of_mem_resumedIds hres) (mem_append_right _ hpreempt)
  · intro hforce r hr
    obtain ⟨hold, hnot⟩ := (hpreempted r).mp hr
    refine (hpre r).mpr ((h.preempted_only hforce r hold).imp_left fun hold => ⟨hold, fun hres => hnot ?_⟩)
    exact h.mem_resumedIds_of_cached hi hforce hres.1 fun hrun => hapart r hrun hres.2
  · intro r hr
    rw [hb.unfinished]
    rcases (hrunning r).mp hr with ⟨hrun, hnot⟩ | hnew | hres
    · exact h.unfinished r (.inl hrun) hnot
    · have hallocated := (hi.new r hnew).1
      exact h.unfinished r (.inr hallocated) (hi.allocated r hallocated).1
    · exact h.unfinished r (.inr (hresumed r hres)) (hleft r hres.1)
  · intro hforce r hr
    rcases (hrunning r).mp hr with ⟨hrun, hnot⟩ | hnew | hres
    · exact hb.keeps r (h.tracked hforce r hrun hnot)
    · exact hb.added r (mem_sentIds.mpr (.inl hnew))
    · apply hb.added r
      apply mem_sentIds.mpr
      exact .inr (.inl (h.mem_resumedIds_of_cached hi hforce hres.1 fun hrun => hapart r hrun hres.2))

omit h hi

theorem Between.step (h : Between cfg env s) (hi : Scheduled cfg env i) :
    ∃ s' reqMetas, i.run cfg s = some (s', reqMetas) ∧
      ((delivered reqMetas).Perm (i.accepted cfg) ↔ LoadsReachable cfg i) ∧
      (LoadsReachable cfg i → Between cfg (env.next i) s') := by
  obtain ⟨s₁, hs₁, hasked⟩ := h.asked hi
  obtain ⟨⟨s', reqMetas⟩, hbuild, hadds, hpreempted⟩ := @build_ok cfg i.requests i.output s₁ (hasked.buildReady hi)
  refine ⟨s', reqMetas, ?_, ?_, fun hreach => hasked.next hi h.apart hreach hadds hpreempted⟩
  · unfold StepInput.run
    rw [hs₁]
    exact hbuild
  · rw [hadds.delivered]
    exact hasked.perm_iff hi

theorem Between.allDelivered_iff {inputs : List StepInput} (h : Between cfg env s) (hinputs : Admissible cfg env inputs) :
    AllDelivered cfg s inputs ↔ ∀ i ∈ inputs, LoadsReachable cfg i := by
  induction inputs generalizing env s with
  | nil => exact iff_of_true trivial fun i hi => absurd hi not_mem_nil
  | cons i rest ih =>
    obtain ⟨s', reqMetas, hrun, hperm, hnext⟩ := h.step hinputs.1
    rw [forall_mem_cons]
    constructor
    · rintro ⟨s'', reqMetas', hrun', hdelivered, hrest⟩
      cases hrun.symm.trans hrun'
      have hreach := hperm.mp hdelivered
      exact ⟨hreach, (ih (hnext hreach) hinputs.2).mp hrest⟩
    · rintro ⟨hreach, hrest⟩
      exact ⟨s', reqMetas, hrun, hperm.mpr hreach, (ih (hnext hreach) hinputs.2).mpr hrest⟩

end Steps

theorem loads_delivered_iff (cfg : SchedulerConfig) (inputs : List StepInput) (h : Admissible cfg {} inputs) :
    AllDelivered cfg {} inputs ↔ ∀ i ∈ inputs, LoadsReachable cfg i :=
  (Between.initial cfg).allDelivered_iff h

def consumerStep (admissions : List Admission) (preempted : List String) (new : List NewReq) (cached : List CachedReq) :
    StepInput where
  requests _ := ⟨5, 5, 0, ["h0", "h1"]⟩
  reports := []
  admissions := admissions
  output := ⟨[], preempted, new, cached, fun _ => 1⟩

def loadNew : StepInput := consumerStep [⟨"r", some (0, 4), some [[1, 2, 3]], 4⟩] [] [⟨"r", [[1, 2, 3]], 4, 5⟩] []

theorem loads_delivered_iff_loadNew : AllDelivered loadingConsumer {} [loadNew] :=
  (loads_delivered_iff loadingConsumer [loadNew] (by decide +kernel)).mpr fun i hi _ => by
    obtain rfl := mem_singleton.mp hi
    exact fun _ _ => not_mem_nil

/-- The request is preempted and then resumed with a load. In the last step it is not scheduled. -/
def loadResumed : List StepInput :=
  [loadNew, consumerStep [] ["r"] [] [],
    consumerStep [⟨"r", some (0, 4), some [[4, 5, 6]], 4⟩] [] [] [⟨"r", some [[4, 5, 6]], 4⟩], consumerStep [] [] [] []]

/-- The load of the resumed request is missing in its step and sent in the next one. -/
theorem resumed_load_late : Admissible loadingConsumer {} loadResumed ∧
    deliveries loadingConsumer {} loadResumed = some [[("r", ⟨0, 4, true⟩)], [], [], [("r", ⟨0, 4, true⟩)]] ∧
    loadResumed.map (·.accepted loadingConsumer) = [[("r", ⟨0, 4, true⟩)], [], [("r", ⟨0, 4, true⟩)], []] ∧
    ¬ AllDelivered loadingConsumer {} loadResumed := by
  have hadm : Admissible loadingConsumer {} loadResumed := by decide +kernel
  refine ⟨hadm, by decide +kernel, by decide +kernel, ?_⟩
  rw [(Between.initial loadingConsumer).allDelivered_iff hadm]
  intro hall
  have hreach := hall _ (getElem_mem (show 2 < loadResumed.length by decide))
  exact absurd hreach (by unfold LoadsReachable; decide +kernel)

end VllmAscend.KvTransfer.AscendStore
