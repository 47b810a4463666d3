import VllmAscend.RecomputeOffload.Allocation
import VllmAscend.Lib.Machine

/-!
# Reference counts of the recompute offload

Every reference on a CPU block belongs to a live state that lists the block, and every reference
the manager holds on a GPU block to a live state that loads into it.
-/

namespace VllmAscend.RecomputeOffload

open Exec List Dict Manager RecomputeOffload PreemptedRequestState

variable {H : Type}

def Manager.cpuOccurrences (m : Manager H) (b : Nat) : Nat :=
  m.preemptedReqStates.sumBy fun state => state.cpuBlockIds.flatten.count b

def PreemptedRequestState.loadBlocks (state : PreemptedRequestState) : List Nat :=
  (state.loadTransferMeta.map (·.gpuBlockIds)).getD []

def Manager.loadOccurrences (m : Manager H) (b : Nat) : Nat :=
  m.preemptedReqStates.sumBy fun state => state.loadBlocks.count b

def Manager.gpuRefCnt (m : Manager H) (b : Nat) : Int :=
  match m.gpuBlockPool with
  | some pool => pool.refCnt b
  | none => 0

/-- A load is prepared for a ready state only, and only an unready state is marked finished. -/
def PhaseOk (state : PreemptedRequestState) : Prop :=
  (state.loadTransferMeta ≠ none → state.ready = true) ∧
    (state.finished = true → state.ready = false)

/-- `own` are the references on GPU blocks that the manager did not take. The part about the GPU
holds for runs that keep to the scheduler's order of calls, which `ordered` stands for. -/
structure RefInv (ordered : Prop) (own : Nat → Int) (m : Manager H) : Prop where
  cpu : ∀ b, b ≠ 0 → m.cpuBlockPool.refCnt b = m.cpuOccurrences b
  gpu : ordered → ∀ b, m.gpuRefCnt b - own b = m.loadOccurrences b
  phase : ordered → ∀ reqId state, m.preemptedReqStates.get? reqId = some state → PhaseOk state
  bound : m.gpuBlockPool.isSome

variable {ordered : Prop} {own : Nat → Int} {m m' : Manager H} {reqId : ReqId}
  {state : PreemptedRequestState}

/-! ## Changes of one state -/

variable {f : PreemptedRequestState → PreemptedRequestState} {gs : List (List (Entry H))}

variable (hi : RefInv ordered own m)

include hi

theorem RefInv.setState (hs : m.preemptedReqStates.get? reqId = some state)
    {new : PreemptedRequestState} (hstates : m'.preemptedReqStates = m.preemptedReqStates.set reqId new)
    (hcpu : m'.cpuBlockPool = m.cpuBlockPool) (hids : new.cpuBlockIds = state.cpuBlockIds)
    (hgpu : ordered → ∀ b, m'.gpuRefCnt b + state.loadBlocks.count b =
      m.gpuRefCnt b + new.loadBlocks.count b)
    (hphase : ordered → PhaseOk state → PhaseOk new) (hbound : m'.gpuBlockPool.isSome) :
    RefInv ordered own m' := by
  refine ⟨fun b hb => ?_, fun ho b => ?_, fun ho req state' hget => ?_, hbound⟩
  · have hsum := sumBy_set (fun s : PreemptedRequestState => s.cpuBlockIds.flatten.count b) hs new
    have := hi.cpu b hb
    simp only [cpuOccurrences, hstates, hcpu, hids] at hsum this ⊢
    omega
  · have hsum := sumBy_set (fun s : PreemptedRequestState => s.loadBlocks.count b) hs new
    have := hi.gpu ho b
    have := hgpu ho b
    simp only [loadOccurrences, hstates] at *
    omega
  · rw [hstates, get?_set] at hget
    split at hget
    · cases hget
      exact hphase ho (hi.phase ho reqId state hs)
    · exact hi.phase ho req state' hget

theorem RefInv.updateState (r : ReqId) (hcpu : ∀ state, (f state).cpuBlockIds = state.cpuBlockIds)
    (hload : ∀ state, (f state).loadTransferMeta = state.loadTransferMeta)
    (hphase : ordered → ∀ state, m.preemptedReqStates.get? r = some state → PhaseOk state →
      PhaseOk (f state)) : RefInv ordered own (updateState r f m) := by
  unfold RecomputeOffload.updateState
  cases hs : m.preemptedReqStates.get? r with
  | none => exact hi
  | some state =>
    refine hi.setState hs rfl rfl (hcpu state) (fun _ b => ?_) (fun ho => hphase ho state hs) hi.bound
    simp only [loadBlocks, hload, gpuRefCnt]

theorem RefInv.removeState (hs : m.preemptedReqStates.get? reqId = some state)
    (hstates : m'.preemptedReqStates = m.preemptedReqStates.erase reqId)
    (hcpu : ∀ b, m'.cpuBlockPool.refCnt b = m.cpuBlockPool.refCnt b - state.heldBlocks.count b)
    (hgpu : ordered → ∀ b, m'.gpuRefCnt b = m.gpuRefCnt b - state.loadBlocks.count b)
    (hbound : m'.gpuBlockPool.isSome) : RefInv ordered own m' := by
  refine ⟨fun b hb => ?_, fun ho b => ?_, fun ho req state' hget => ?_, hbound⟩
  · have hsum := sumBy_erase (fun s : PreemptedRequestState => s.cpuBlockIds.flatten.count b) hs
    have hcount : state.heldBlocks.count b = state.cpuBlockIds.flatten.count b := count_filter (by simpa using hb)
    have := hi.cpu b hb
    simp only [cpuOccurrences, hstates] at this ⊢
    rw [hcpu, hcount]
    omega
  · have hsum := sumBy_erase (fun s : PreemptedRequestState => s.loadBlocks.count b) hs
    have := hi.gpu ho b
    simp only [loadOccurrences, hstates] at this ⊢
    rw [hgpu ho]
    omega
  · rw [hstates] at hget
    exact hi.phase ho req state' (get?_of_get?_erase hget)

omit hi

/-! ## Cleanup -/

/-- No load is prepared in the state of `reqId`, where the order of calls is kept. -/
def NoLoad (ordered : Prop) (reqId : ReqId) (m : Manager H) : Prop :=
  ordered → ∀ state, m.preemptedReqStates.get? reqId = some state → state.loadTransferMeta = none

def LoadSent (ordered : Prop) (reqId : ReqId) (m : Manager H) : Prop :=
  ordered → ∀ state, m.preemptedReqStates.get? reqId = some state →
    state.loadTransferMeta ≠ none → state.loadEvent ≠ none

section

theorem loadBlocks_of_none (h : state.loadTransferMeta = none) : state.loadBlocks = [] := by
  simp [loadBlocks, h]

variable (r : ReqId)

theorem cleanupPreemptCacheRequest_triple {E : OffloadError → Manager H → Prop} :
    Triple (fun m => RefInv ordered own m ∧ NoLoad ordered r m)
      (cleanupPreemptCacheRequest r) (fun _ => RefInv ordered own) E := by
  refine .modify _ fun m ⟨hi, hload⟩ => ?_
  split
  · exact hi
  · rename_i state hs
    refine hi.removeState hs rfl (fun b => BlockPool.refCnt_freeBlocks _ _ _) (fun ho b => ?_) hi.bound
    rw [loadBlocks_of_none (hload ho state hs)]
    simp [gpuRefCnt]

theorem get?_of_cleanup {req : ReqId}
    (h : (cleanupPreemptCacheRequest req m).2.preemptedReqStates.get? reqId = some state) :
    m.preemptedReqStates.get? reqId = some state := by
  simp only [cleanupPreemptCacheRequest, Exec.modify] at h
  split at h
  · exact h
  · exact get?_of_get?_erase h

theorem forgetLoadEvent_same (event : Option Nat) (m : Manager H) :
    ∃ d, forgetLoadEvent r event m = { m with loadEventToReqs := d } := by
  unfold forgetLoadEvent
  split
  · exact ⟨_, rfl⟩
  · split <;> exact ⟨_, rfl⟩

theorem releaseGpuBlocks_same (load : Option TransferMeta) (m : Manager H) :
    ∃ gpu, releaseGpuBlocks load m = { m with gpuBlockPool := gpu } ∧
      gpu.isSome = m.gpuBlockPool.isSome := by
  cases load with
  | none => exact ⟨_, rfl, rfl⟩
  | some load => exact ⟨_, rfl, Option.isSome_map⟩

theorem gpuRefCnt_releaseGpuBlocks (state : PreemptedRequestState) (hbound : m.gpuBlockPool.isSome) (b : Nat) :
    (releaseGpuBlocks state.loadTransferMeta m).gpuRefCnt b = m.gpuRefCnt b - state.loadBlocks.count b := by
  obtain ⟨pool, hpool⟩ := Option.isSome_iff_exists.mp hbound
  cases hload : state.loadTransferMeta with
  | none => simp [releaseGpuBlocks, loadBlocks_of_none hload]
  | some load =>
    simp [releaseGpuBlocks, gpuRefCnt, hpool, loadBlocks, hload, BlockPool.refCnt_freeBlocks]

theorem cleanupPreemptLoadRequest_triple :
    Preserves (RefInv ordered own) (cleanupPreemptLoadRequest r : ManagerM H Unit) := by
  refine .get_bind fun m hi => ?_
  split
  · exact .pure_eq hi
  · rename_i state hs
    obtain ⟨d, hforget⟩ := forgetLoadEvent_same r state.loadEvent m
    refine .modify_bind (.modify_bind (.modify _ ?_))
    rintro _ rfl
    rw [hforget]
    obtain ⟨gpu, hrelease, hbound⟩ := releaseGpuBlocks_same state.loadTransferMeta
      { m with loadEventToReqs := d }
    have hgpu := gpuRefCnt_releaseGpuBlocks (m := { m with loadEventToReqs := d }) state hi.bound
    rw [hrelease] at hgpu ⊢
    simp only [hs]
    exact hi.removeState hs rfl (fun b => BlockPool.refCnt_freeBlocks _ _ _)
      (fun _ b => hgpu b) (hbound.trans hi.bound)

theorem requestFinished_triple : Triple (fun m => RefInv ordered own m ∧ LoadSent ordered r m)
      (requestFinished r : ManagerM H Unit) (fun _ => RefInv ordered own) (fun _ => RefInv ordered own) := by
  refine .get_bind fun m ⟨hi, hsent⟩ => ?_
  split
  · exact .pure_eq hi
  · rename_i state hs
    refine .ite (fun _ => .pure_eq hi) fun hevent =>
      Triple.ite (fun _ => ?_) fun hready => .modify _ fun _ he => he ▸ ?_
    · refine (cleanupPreemptCacheRequest_triple r).of_eq ⟨hi, fun ho state' hs' => ?_⟩
      cases hs.symm.trans hs'
      by_contra hload
      exact hevent (Option.isSome_iff_ne_none.mpr (hsent ho state hs hload))
    · refine hi.updateState r (fun _ => rfl) (fun _ => rfl) fun _ state' hs' hphase => ?_
      cases hs.symm.trans hs'
      exact ⟨hphase.1, fun _ => by simpa using hready⟩

/-! ## Loads -/

theorem getNumNewMatchedTokens_triple (n done : Nat) :
    Triple (fun m => RefInv ordered own m ∧ NoLoad ordered r m) (getNumNewMatchedTokens r n done : ManagerM H _)
      (fun _ => RefInv ordered own) (fun _ => RefInv ordered own) := by
  refine .get_bind fun m ⟨hi, hload⟩ => ?_
  split
  · exact .pure_eq hi
  · refine .ite (fun _ => .pure_eq hi) fun _ =>
      Triple.ite (fun _ => ?_) fun _ => ?_
    · exact .bind ((cleanupPreemptCacheRequest_triple r).of_eq ⟨hi, hload⟩) fun _ => .ret
    · refine .modify_bind (.pure_eq ?_)
      exact hi.updateState r (fun _ => rfl) (fun _ => rfl) fun _ _ _ hphase => hphase

theorem RefInv.setLoad (hi : RefInv ordered own m)
    (hs : m.preemptedReqStates.get? reqId = some state) (hready : state.ready = true)
    (hload : NoLoad ordered reqId m) (pairs : List (Nat × Nat)) : RefInv ordered own (setLoad reqId pairs m) := by
  obtain ⟨pool, hpool⟩ := Option.isSome_iff_exists.mp hi.bound
  simp only [RecomputeOffload.setLoad, RecomputeOffload.updateState, hs, hpool, Option.map_some]
  refine hi.setState hs rfl rfl rfl (fun ho b => ?_) (fun _ hphase => ⟨fun _ => hready, hphase.2⟩) rfl
  simp [gpuRefCnt, hpool, BlockPool.refCnt_touch, loadBlocks, hload ho state hs]

theorem updateStateAfterAlloc_triple (ids : BlockTable) (ext : Nat) :
    Triple (fun m => RefInv ordered own m ∧ NoLoad ordered r m) (updateStateAfterAlloc r ids ext : ManagerM H Unit)
      (fun _ => RefInv ordered own) (fun _ => RefInv ordered own) := by
  refine .ite (fun _ => .pure _ fun _ h => h.1) fun _ => .bind
    (Q := fun _ => RefInv ordered own) ?_ fun _ => .require (fun _ h _ => h) fun _ h => h
  refine .get_bind fun m ⟨hi, hload⟩ => ?_
  split
  · exact .pure_eq hi
  · rename_i state hs
    refine .ite (fun _ => .pure_eq hi) fun hready =>
      Triple.ite (fun _ => .pure_eq hi) fun _ =>
      Triple.require_bind (fun _ _ he => he ▸ hi) fun _ =>
      Triple.ofExcept_bind (fun _ _ he => he ▸ hi) fun pairs _ =>
      Triple.require_bind (fun _ _ he => he ▸ hi) fun _ =>
      Triple.modify_bind (.pure_eq ?_)
    exact hi.setLoad hs (by simpa using hready) hload pairs

/-! ## Metadata -/

section

variable (hi : RefInv ordered own m)

include hi

theorem RefInv.congr (hcpu : m'.cpuBlockPool = m.cpuBlockPool) (hgpu : m'.gpuBlockPool = m.gpuBlockPool)
    (hstates : m'.preemptedReqStates = m.preemptedReqStates) : RefInv ordered own m' := by
  obtain ⟨hic, hig, hip, hib⟩ := hi
  unfold cpuOccurrences loadOccurrences gpuRefCnt at *
  rw [← hcpu, ← hstates] at hic
  rw [← hgpu, ← hstates] at hig
  rw [← hstates] at hip
  rw [← hgpu] at hib
  exact ⟨hic, hig, hip, hib⟩

theorem RefInv.setCpuPool {pool : BlockPool H} (hpool : ∀ c, pool.refCnt c = m.cpuBlockPool.refCnt c) :
    RefInv ordered own { m with cpuBlockPool := pool } :=
  ⟨fun b hb => (hpool b).trans (hi.cpu b hb), hi.gpu, hi.phase, hi.bound⟩

theorem RefInv.updateStates (reqs : List ReqId) (hcpu : ∀ state, (f state).cpuBlockIds = state.cpuBlockIds)
    (hload : ∀ state, (f state).loadTransferMeta = state.loadTransferMeta)
    (hphase : ∀ state, PhaseOk state → PhaseOk (f state)) :
    RefInv ordered own (reqs.foldl (fun m reqId => RecomputeOffload.updateState reqId f m) m) := by
  induction reqs generalizing m with
  | nil => exact hi
  | cons req reqs ih => exact ih (hi.updateState req hcpu hload fun _ state _ => hphase state)

theorem RefInv.sendStores : RefInv ordered own (sendStores m).2 := by
  simp only [RecomputeOffload.sendStores]
  split
  · exact hi
  · refine .congr (m := setStoreEvent _ _ _) ?_ rfl rfl rfl
    refine .updateStates ?_ _ (fun _ => rfl) (fun _ => rfl) fun _ hphase => hphase
    exact hi.congr rfl rfl rfl

theorem RefInv.sendLoads : RefInv ordered own (sendLoads m).2 := by
  simp only [RecomputeOffload.sendLoads]
  split
  · exact hi
  · refine .congr (m := setLoadEvent _ _ _) ?_ rfl rfl rfl
    refine .updateStates ?_ _ (fun _ => rfl) (fun _ => rfl) fun _ hphase => hphase
    exact hi.congr rfl rfl rfl

end

end

theorem noLoad_of_not_hasPendingTransfers (h : ¬ m.hasPendingTransfers = true) (r : ReqId) : NoLoad ordered r m := by
  intro _ state hs
  simp only [hasPendingTransfers, Bool.or_eq_true, not_or, any_eq_true, not_exists, not_and] at h
  have := h.2 state (mem_values_of_get? hs)
  simp only [Option.isSome_iff_ne_none] at this
  exact not_not.mp this.2

theorem resetCache_triple : Preserves (RefInv ordered own) (resetCache : ManagerM H Bool) := by
  refine .get_bind fun m hi => .ite (fun _ => .pure_eq hi)
    fun hpending => ?_
  refine .bind (Q := fun _ => RefInv ordered own) ?_ fun _ => .get_bind fun m hi =>
    Triple.modify_bind (.pure_eq ?_)
  · refine ((Triple.forEach (I := fun _ m => RefInv ordered own m ∧ ∀ reqId, NoLoad ordered reqId m)
      (fun req _ => ?_) _).of_eq ⟨hi, noLoad_of_not_hasPendingTransfers hpending⟩).conseq
      (fun _ h => h) (fun _ _ h => h.1) fun _ _ h => h
    rintro m ⟨hi, hload⟩
    refine ⟨cleanupPreemptCacheRequest_triple (E := fun _ => RefInv ordered own) req m
      ⟨hi, hload req⟩, fun reqId ho state hs => ?_⟩
    exact hload reqId ho state (get?_of_cleanup hs)
  · refine RefInv.congr (hi.setCpuPool fun c => BlockPool.refCnt_resetPrefixCache _ c) rfl rfl rfl

/-! ## Finished stores -/

theorem storeDone_triple (r : ReqId) : Preserves (RefInv ordered own) (storeDone r : ManagerM H Unit) := by
  refine .get_bind fun m hi => ?_
  split
  · exact .pure_eq hi
  · rename_i state hs
    refine .modify_bind ?_
    unfold when
    split
    · rename_i hfinished
      refine .modify _ fun _ he => he ▸ ?_
      simp only [updateState, hs, get?_set, if_true]
      refine hi.removeState hs erase_set (fun b => BlockPool.refCnt_freeBlocks _ _ _)
        (fun ho b => ?_) hi.bound
      obtain ⟨hload, hready⟩ := hi.phase ho r state hs
      have hnone : state.loadTransferMeta = none := by
        by_contra hsome
        simpa [hload hsome] using hready hfinished
      rw [loadBlocks_of_none hnone]
      simp [gpuRefCnt]
    · rename_i hfinished
      refine .pure_eq ?_
      refine hi.updateState r (fun _ => rfl) (fun _ => rfl) fun _ state' hs' hphase => ?_
      cases hs.symm.trans hs'
      exact ⟨fun _ => rfl, fun h => absurd h hfinished⟩

variable [DecidableEq H]

theorem commitBlock_same (b : Nat) (m : Manager H) :
    ∃ pool : BlockPool H, commitBlock b m = { m with cpuBlockPool := pool } ∧
      ∀ c, pool.refCnt c = m.cpuBlockPool.refCnt c := by
  unfold commitBlock
  split
  · exact ⟨_, rfl, fun _ => rfl⟩
  · split
    · exact ⟨_, rfl, fun _ => rfl⟩
    · split
      · exact ⟨_, rfl, fun _ => rfl⟩
      · exact ⟨_, rfl, fun c => BlockPool.refCnt_setHash _ _ c _⟩

theorem RefInv.commitBlocks (hi : RefInv ordered own m) (ids : List Nat) :
    RefInv ordered own (ids.foldl (fun m b => commitBlock b m) m) := by
  induction ids generalizing m with
  | nil => exact hi
  | cons b ids ih =>
    obtain ⟨pool, hcommit, hpool⟩ := commitBlock_same b m
    rw [foldl_cons, hcommit]
    exact ih (hi.setCpuPool hpool)

theorem countStoreEvent_triple (report : Nat × Nat) :
    Preserves (RefInv ordered own) (countStoreEvent report : ManagerM H Unit) := by
  refine .get_bind fun m hi => .ite (fun _ => ?_) fun _ => ?_
  · refine .bind (Q := fun _ => RefInv ordered own)
      (.modify _ fun _ he => he ▸ hi.congr rfl rfl rfl) fun _ => ?_
    refine .get_bind fun m hi => ?_
    split
    · exact .raise _ fun _ he => he ▸ hi
    · refine .bind (Q := fun _ => RefInv ordered own)
        (.modify _ fun _ he => he ▸ hi.congr rfl rfl rfl) fun _ =>
        Triple.bind (Q := fun _ => RefInv ordered own) (.modify _ fun _ hi => hi.commitBlocks _)
        fun _ => .forEach (I := fun _ => RefInv ordered own) (fun req _ => storeDone_triple req) _
  · rintro _ rfl
    exact hi.congr rfl rfl rfl

theorem updateConnectorOutput_triple (finishedRecving : List ReqId)
    (completedStoreEvents : List (Nat × Nat)) : Preserves (RefInv ordered own)
      (updateConnectorOutput finishedRecving completedStoreEvents : ManagerM H Unit) :=
  Triple.bind (.forEach (I := fun _ => RefInv ordered own)
      (fun req _ => cleanupPreemptLoadRequest_triple req) _) fun _ =>
    Triple.forEach (I := fun _ => RefInv ordered own) (fun report _ => countStoreEvent_triple report) _

/-! ## Preemption -/

variable {a a' : Alloc H} {es : List (Entry H)} {bs : List Nat}

theorem Uses.refCnt (h : Uses m a es bs m' a') {c : Nat} (hc : c ≠ 0) : m'.cpuBlockPool.refCnt c + a.iter.count c =
      m.cpuBlockPool.refCnt c + bs.count c + a'.iter.count c := by
  induction h with
  | nil => simp
  | @cons m₀ a₀ e b m₁ a₁ es bs m₂ a₂ hstep _ ih =>
    have hstep : m₁.cpuBlockPool.refCnt c + a₀.iter.count c =
        m₀.cpuBlockPool.refCnt c + [b].count c + a₁.iter.count c := by
      cases hstep with
      | null => simp [Ne.symm hc]
      | hit | pending => simp only [Manager.touchCpu, BlockPool.refCnt_touch]
      | newHashed _ _ hiter =>
        simp only [assignHash, BlockPool.refCnt_setHash, hiter, Alloc.store, count_cons]
        simp only [count_nil]
        omega
      | new hiter =>
        simp only [hiter, Alloc.store, count_cons]
        simp only [count_nil]
        omega
    have hcons : (b :: bs).count c = [b].count c + bs.count c := by rw [← count_append, singleton_append]
    omega

theorem Uses.same (h : Uses m a es bs m' a') :
    ∃ pool pending, m' = { m with cpuBlockPool := pool, pendingHashBlocks := pending } := by
  induction h with
  | nil => exact ⟨_, _, rfl⟩
  | cons hstep _ ih =>
    obtain ⟨pool, pending, rfl⟩ := ih
    cases hstep <;> exact ⟨pool, pending, rfl⟩

theorem allocate_refCnt {table : BlockTable}
    (hrun : allocate (m.numNeeded gs.flatten) gs m = (.ok (table, a), m')) {c : Nat} (hc : c ≠ 0) :
    m'.cpuBlockPool.refCnt c = m.cpuBlockPool.refCnt c + table.flatten.count c := by
  have hiter := allocate_iter hrun
  obtain ⟨-, -, huses⟩ := allocate_ok.mp hrun
  have hrefs := huses.flatten.refCnt hc
  have htaken : (m.afterTake (m.numNeeded gs.flatten)).cpuBlockPool.refCnt c =
      m.cpuBlockPool.refCnt c +
        (m.cpuBlockPool.freeQueue.take (m.numNeeded gs.flatten)).count c := by
    unfold afterTake takeAll
    rw [BlockPool.refCnt_takeAll]
    rfl
  simp only [hiter, count_nil] at hrefs
  omega

theorem RefInv.addState (hi : RefInv ordered own m) (hnew : m.preemptedReqStates.get? reqId = none) (n : Nat)
    {table : BlockTable} (hrun : allocate (m.numNeeded gs.flatten) gs m = (.ok (table, a), m')) :
    RefInv ordered own (addState reqId n table a m').2 := by
  have hrefs := fun c (hc : c ≠ 0) => allocate_refCnt hrun hc
  obtain ⟨-, -, huses⟩ := allocate_ok.mp hrun
  obtain ⟨pool, pending, rfl⟩ := huses.flatten.same
  have hkey := get?_eq_none.mp hnew
  refine ⟨fun b hb => ?_, fun ho b => ?_, fun ho req state hget => ?_, hi.bound⟩
  · have := hi.cpu b hb
    have := hrefs b hb
    simp only [addState, Exec.modify, cpuOccurrences, afterTake, takeAll] at *
    rw [sumBy_set_new _ hkey]
    push_cast
    omega
  · have := hi.gpu ho b
    simp only [addState, Exec.modify, loadOccurrences, afterTake, takeAll, gpuRefCnt] at this ⊢
    rw [sumBy_set_new _ hkey]
    simpa [loadBlocks] using this
  · simp only [addState, Exec.modify, afterTake, takeAll] at hget
    rw [get?_set] at hget
    split at hget
    · cases hget
      exact ⟨fun h => absurd rfl h, fun h => by cases h⟩
    · exact hi.phase ho req state hget

theorem RefInv.updateStateBeforePreempt (hi : RefInv ordered own m) {ids : BlockTable}
    {n : Nat} {created : Bool} (hrun : updateStateBeforePreempt reqId ids n m = (.ok created, m')) :
    RefInv ordered own m' := by
  rcases updateStateBeforePreempt_ok hrun with rfl | ⟨gpu, gs, m₁, hgpu, hnew, hcount, hrest⟩
  · exact hi
  · obtain ⟨⟨_, rfl, hpool⟩, -⟩ := countGroups_ok hcount
    obtain ⟨pool, rfl, hrefs⟩ := hpool hgpu
    have hi₁ : RefInv ordered own { m with gpuBlockPool := some pool } := by
      refine ⟨hi.cpu, fun ho b => ?_, hi.phase, rfl⟩
      have := hi.gpu ho b
      simp only [gpuRefCnt, hgpu, hrefs] at this ⊢
      exact this
    rcases hrest with rfl | ⟨table, a, m₂, halloc, rfl⟩
    · exact hi₁
    · exact hi₁.addState hnew n halloc

/-! ## Runs -/

/-- The calls of the scheduler, and the use of GPU blocks by everyone else. -/
inductive Call (H : Type)
  | updateStateBeforePreempt (reqId : ReqId) (blockIds : BlockTable) (numComputedTokens : Nat)
  | getNumNewMatchedTokens (reqId : ReqId) (numTokens numComputedTokens : Nat)
  | updateStateAfterAlloc (reqId : ReqId) (blockIds : BlockTable) (numExternalTokens : Nat)
  | buildConnectorMeta (anyPreempted : Bool)
  | updateConnectorOutput (finishedRecving : List ReqId) (completedStoreEvents : List (Nat × Nat))
  | requestFinished (reqId : ReqId)
  | resetCache
  | otherGpuUse (pool : BlockPool H)

structure Tracked (H : Type) where
  manager : Manager H
  own : Nat → Int

/-- A call that raises keeps what it has changed. The creation of a state does not raise in the
runs considered. -/
def Tracked.step (t : Tracked H) : Call H → Option (Tracked H)
  | .updateStateBeforePreempt reqId blockIds n =>
    match updateStateBeforePreempt reqId blockIds n t.manager with
    | (.ok _, m) => some { t with manager := m }
    | (.error _, _) => none
  | .getNumNewMatchedTokens reqId numTokens n =>
    some { t with manager := (getNumNewMatchedTokens reqId numTokens n t.manager).2 }
  | .updateStateAfterAlloc reqId blockIds n =>
    some { t with manager := (updateStateAfterAlloc reqId blockIds n t.manager).2 }
  | .buildConnectorMeta anyPreempted => some { t with manager := (buildConnectorMeta anyPreempted t.manager).2 }
  | .updateConnectorOutput recving stores =>
    some { t with manager := (updateConnectorOutput recving stores t.manager).2 }
  | .requestFinished reqId => some { t with manager := (requestFinished reqId t.manager).2 }
  | .resetCache => some { t with manager := (resetCache t.manager).2 }
  | .otherGpuUse pool => some {
      manager := { t.manager with gpuBlockPool := some pool }
      own := fun b => t.own b + (pool.refCnt b - t.manager.gpuRefCnt b) }

def Tracked.extraGpuRefs (t : Tracked H) (b : Nat) : Int := t.manager.gpuRefCnt b - t.own b

structure Tracked.Initial (t : Tracked H) : Prop where
  states : t.manager.preemptedReqStates = ∅
  cpu : ∀ b, t.manager.cpuBlockPool.refCnt b = 0
  gpu : ∀ b, t.extraGpuRefs b = 0
  bound : t.manager.gpuBlockPool.isSome

/-- The order in which `schedule()` makes its calls: a request whose load is prepared is not
scheduled again, and does not finish before the metadata of the step is built. -/
def InOrder (t : Tracked H) : Call H → Prop
  | .getNumNewMatchedTokens reqId _ _ | .updateStateAfterAlloc reqId _ _ => NoLoad True reqId t.manager
  | .requestFinished reqId => LoadSent True reqId t.manager
  | _ => True

def Tracked.Inv (ordered : Prop) (t : Tracked H) : Prop := RefInv ordered t.own t.manager

variable {t t' start : Tracked H} {c : Call H}

omit [DecidableEq H] in
theorem Tracked.Initial.inv (h : t.Initial) : t.Inv ordered := by
  refine ⟨fun b _ => ?_, fun _ b => ?_, fun _ reqId state hs => ?_, h.bound⟩
  · rw [h.cpu]
    simp [cpuOccurrences, h.states, sumBy_empty]
  · have := h.gpu b
    simp only [Tracked.extraGpuRefs] at this
    simp [this, loadOccurrences, h.states, sumBy_empty]
  · rw [h.states] at hs
    cases hs

theorem Tracked.Inv.step (hi : t.Inv ordered) (horder : ordered → InOrder t c)
    (hstep : t.step c = some t') : t'.Inv ordered := by
  cases c with
  | updateStateBeforePreempt reqId blockIds n =>
    simp only [Tracked.step] at hstep
    split at hstep
    · rename_i hrun
      cases hstep
      exact .updateStateBeforePreempt hi hrun
    · cases hstep
  | getNumNewMatchedTokens reqId numTokens n =>
    cases hstep
    exact (getNumNewMatchedTokens_triple reqId numTokens n).state ⟨hi, fun ho => horder ho trivial⟩
  | updateStateAfterAlloc reqId blockIds n =>
    cases hstep
    exact (updateStateAfterAlloc_triple reqId blockIds n).state ⟨hi, fun ho => horder ho trivial⟩
  | buildConnectorMeta anyPreempted =>
    cases hstep
    exact hi.sendStores.sendLoads
  | updateConnectorOutput recving stores =>
    cases hstep
    exact (updateConnectorOutput_triple recving stores).state hi
  | requestFinished reqId =>
    cases hstep
    exact (requestFinished_triple reqId).state ⟨hi, fun ho => horder ho trivial⟩
  | resetCache =>
    cases hstep
    exact resetCache_triple.state hi
  | otherGpuUse pool =>
    cases hstep
    refine ⟨hi.cpu, fun ho b => ?_, hi.phase, rfl⟩
    have := hi.gpu ho b
    simp only [gpuRefCnt, loadOccurrences] at this ⊢
    omega

/-- The CPU blocks are referenced by the live states that list them and by nothing else. -/
structure Tracked.CpuExact (t : Tracked H) : Prop where
  count : ∀ b, b ≠ 0 → t.manager.cpuBlockPool.refCnt b = t.manager.cpuOccurrences b
  unpinned : ∀ b, b ≠ 0 → (∀ reqId state, t.manager.preemptedReqStates.get? reqId = some state →
    b ∉ state.cpuBlockIds.flatten) → t.manager.cpuBlockPool.refCnt b = 0
  held : ∀ reqId state, t.manager.preemptedReqStates.get? reqId = some state → ∀ b, b ≠ 0 →
    state.heldBlocks.count b ≤ t.manager.cpuBlockPool.refCnt b

structure Tracked.GpuExact (t : Tracked H) : Prop where
  count : ∀ b, t.extraGpuRefs b = t.manager.loadOccurrences b
  unpinned : ∀ b, (∀ reqId state, t.manager.preemptedReqStates.get? reqId = some state →
    b ∉ state.loadBlocks) → t.extraGpuRefs b = 0
  held : ∀ reqId state, t.manager.preemptedReqStates.get? reqId = some state → ∀ b,
    state.loadBlocks.count b ≤ t.extraGpuRefs b

omit [DecidableEq H] in
theorem Tracked.Inv.cpuExact (hi : t.Inv ordered) : t.CpuExact where
  count := hi.cpu
  unpinned b hb hnone := by
    rw [hi.cpu b hb, cpuOccurrences, sumBy_eq_zero]
    · rfl
    · exact fun reqId state hs => count_eq_zero.mpr (hnone reqId state hs)
  held reqId state hs b hb := by
    have hle := le_sumBy (fun s : PreemptedRequestState => s.cpuBlockIds.flatten.count b) hs
    have hcount : state.heldBlocks.count b = state.cpuBlockIds.flatten.count b := count_filter (by simpa using hb)
    rw [hi.cpu b hb, hcount]
    exact_mod_cast hle

omit [DecidableEq H] in
theorem Tracked.Inv.gpuExact (hi : t.Inv True) : t.GpuExact where
  count := hi.gpu trivial
  unpinned b hnone := by
    rw [Tracked.extraGpuRefs, hi.gpu trivial, loadOccurrences, sumBy_eq_zero]
    · rfl
    · exact fun reqId state hs => count_eq_zero.mpr (hnone reqId state hs)
  held reqId state hs b := by
    rw [Tracked.extraGpuRefs, hi.gpu trivial]
    exact_mod_cast le_sumBy (fun s : PreemptedRequestState => s.loadBlocks.count b) hs

open Machine

/-- The references on CPU blocks are exact in every run, those on GPU blocks in every run that
keeps to the order of `schedule()`. -/
theorem reference_counts_exact (hstart : start.Initial) : (Reaches Tracked.step AnyAction start t → t.CpuExact) ∧
      (Reaches Tracked.step InOrder start t → t.CpuExact ∧ t.GpuExact) := by
  constructor
  · intro hrun
    have hi : t.Inv False := hrun.inv _ hstart.inv fun _ _ _ hi _ hstep => hi.step False.elim hstep
    exact hi.cpuExact
  · intro hrun
    have hi : t.Inv True := hrun.inv _ hstart.inv fun _ _ _ hi hok hstep => hi.step (fun _ => hok) hstep
    exact ⟨hi.cpuExact, hi.gpuExact⟩

/-! ### One request, preempted and resumed -/

def resumeStart : Tracked Nat where
  manager := {
    groups := [⟨1, false⟩]
    enableOffloadPrefixCaching := false
    expectedWorkerCount := 1
    cpuBlockPool := BlockPool.new false 3
    gpuBlockPool := some (BlockPool.new false 10) }
  own _ := 0

def resumeCalls : List (Call Nat) :=
  [.updateStateBeforePreempt 0 [[5]] 1, .buildConnectorMeta true, .updateConnectorOutput [] [(0, 1)],
    .getNumNewMatchedTokens 0 1 0, .updateStateAfterAlloc 0 [[6]] 1]

theorem resumeStart_initial : resumeStart.Initial := ⟨rfl, fun _ => rfl, fun _ => rfl, rfl⟩

theorem resumeCalls_inOrder : RunOk Tracked.step InOrder resumeStart resumeCalls := by
  refine ⟨trivial, fun _ h₁ => ⟨trivial, fun _ h₂ => ⟨trivial, fun _ h₃ => ⟨?_, fun _ h₄ => ⟨?_, ?_⟩⟩⟩⟩⟩
  · cases h₁
    cases h₂
    cases h₃
    rintro - state ⟨⟩
    rfl
  · cases h₁
    cases h₂
    cases h₃
    cases h₄
    rintro - state ⟨⟩
    rfl
  · exact fun _ _ => trivial

theorem reference_counts_exact_resumed : ∃ t, run Tracked.step resumeStart resumeCalls = some t ∧
    t.manager.cpuBlockPool.refCnt 1 = 1 ∧ t.extraGpuRefs 6 = 1 ∧ t.CpuExact ∧ t.GpuExact :=
  ⟨_, rfl, rfl, rfl, (reference_counts_exact resumeStart_initial).2 (resumeCalls_inOrder.reaches rfl)⟩

/-- The request finishes before the metadata of the step is built: its state is gone, and GPU block 6
stays referenced. -/
theorem gpu_reference_leaks : ∃ t, run Tracked.step resumeStart (resumeCalls ++ [.requestFinished 0]) = some t ∧
      resumeStart.Initial ∧ t.manager.preemptedReqStates.keys = [] ∧
      t.manager.loadOccurrences 6 = 0 ∧ t.extraGpuRefs 6 = 1 :=
  ⟨_, rfl, resumeStart_initial, rfl, rfl, rfl⟩

end VllmAscend.RecomputeOffload
