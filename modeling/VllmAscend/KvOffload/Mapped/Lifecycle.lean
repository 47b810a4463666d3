import VllmAscend.KvOffload.Mapped.Submissions

/-!
# Runs of the mapped handler
-/

namespace VllmAscend.KvOffload.Mapped

open Exec Handler List

variable {G : Leases → Prop} {mine : Resources} {busy : Option Nat} {h h' : Handler}
  {dir : Direction} {t : Transfer}

@[simp] theorem tick_state (h : Handler) (dir : Direction) : h.tick.state dir = h.state dir := by cases dir <;> rfl

@[simp] theorem onDevice_state (h : Handler) (f : Device → Device) (dir : Direction) :
    (h.onDevice f).state dir = h.state dir := by
  cases dir <;> rfl

/-! ## The head of a queue -/

theorem Inv.of_same (hi : Inv G mine busy h) (hr : SameRest h h') (hrec : h'.recycled = h.recycled)
    (hpool : h'.pooled = h.pooled) (hq : h'.queued = h.queued) : Inv G mine busy h' := by
  have huse : h'.inUse = h.inUse := by
    funext k
    simp only [inUse, hq]
  refine ⟨?_, ?_, ?_, ?_, ?_, ?_, ?_⟩
  · rw [hpool, huse, hr.fresh]
    exact hi.owned
  · rw [hq, hr.device]
    exact hi.tracked
  · rw [hq, hr.device]
    exact hi.quiet
  · rw [hrec]
    exact hi.recycled
  · rw [hpool, hrec]
    exact hi.origin
  · rw [hr.unregisterCalls]
    exact hi.unregisterCalls
  · rw [hr.leases]
    exact hi.leases

theorem Inv.setState_same (hi : Inv G mine busy h) {a : AsyncState}
    (htr : a.transfers = (h.state dir).transfers) (hpool : a.pooled = (h.state dir).pooled) :
    Inv G mine busy (h.setState dir a) := by
  refine hi.of_same (sameRest_setState _ _ _) (by simp) ?_ ?_
  · cases dir <;> funext k <;> simp_all [pooled, setState, state, bufferPool]
  · cases dir <;> simp_all [queued, setState, state]

theorem popTransferEvent_triple (jobId : Int) : Preserves (Inv G mine busy) (popTransferEvent dir jobId) :=
  Triple.modify _ fun _ hi => hi.setState_same rfl rfl

theorem Inv.popLeft (hi : AtRest G h) {rest : List Transfer}
    (hhead : (h.state dir).transfers = t :: rest) (hquiet : h.device.Quiet t.stream) : Inv G t.resources none
      (h.setState dir { h.state dir with transfers := (h.state dir).transfers.tail }) := by
  refine hi.dequeue (sameRest_setState _ _ _) (by simp) ?_ ?_ ?_ hquiet
  · cases dir <;> rfl
  · intro t'
    rw [mem_queued h dir, mem_queued _ dir]
    simp only [setState_state, setState_other, hhead, mem_cons, tail_cons]
    tauto
  · intro k x
    rw [count_inUse h dir, count_inUse _ dir]
    simp only [setState_state, setState_other, hhead, flatMap_cons, count_append, tail_cons]
    omega

/-! ## Polling -/

def HeadDone (dir : Direction) (t : Transfer) (h : Handler) : Prop :=
  (h.state dir).transfers.head? = some t ∧ EndSeen h.device t ∧ h.device.Quiet t.stream

theorem queryEvent_triple (dir : Direction) :
    Triple (fun h => AtRest G h ∧ (h.state dir).transfers.head? = some t ∧
        t.needsStreamSync = false) (queryEvent t.endEvent)
      (fun complete h => AtRest G h ∧ (complete = true → HeadDone dir t h)) (fun _ => AtRest G) := by
  refine .bind (Q := fun _ h => AtRest G h ∧ (h.state dir).transfers.head? = some t ∧ t.needsStreamSync = false)
    ((hostCall_triple fun h hp => ⟨hp.1.tick, by simpa using hp.2⟩).mono_error fun _ _ hp => hp.1)
    fun _ => .get_bind fun h ⟨hi, hhead, hsync⟩ => .ite (fun _ => ?_) fun _ => ?_
  · refine .bind (Q := fun _ h => AtRest G h ∧ HeadDone dir t h)
      (.modify _ ?_) fun _ => .pure _ fun _ hp => ⟨hp.1, fun _ => hp.2⟩
    rintro h rfl
    have hmem : t ∈ h.queued := (mem_queued h dir).mpr (.inl (mem_of_mem_head? hhead))
    have hseen := endSeen_observeEvent (hi.tracked t hmem hsync)
    exact ⟨hi.observe _, by simpa using hhead, hseen.1, hseen.2⟩
  · exact .pure _ fun _ he => ⟨he ▸ hi, nofun⟩

theorem reportHead_triple : Triple (fun h => AtRest G h ∧ HeadDone dir t h) (reportHead dir t)
      (fun _ => AtRest G) (fun _ => AtRest G) := by
  refine .bind (Q := fun _ h => Inv G t.resources none h ∧ EndSeen h.device t)
    (.modify _ fun h ⟨hi, hhead, hseen, hquiet⟩ => ?_) fun _ => ?_
  · obtain ⟨rest, hrest⟩ := head?_eq_some_iff.mp hhead
    exact ⟨hi.popLeft hrest hquiet, by simpa using hseen⟩
  refine .bind ((hostCall_triple fun h hp => ⟨hp.1.tick, hp.2⟩).mono_error
    fun _ _ hp => hp.1.drop_all) fun _ => ?_
  refine .bind ((recycleTransferResources_triple dir).of_pre fun _ hp => ⟨hp.1, .inl hp.2⟩) fun _ => ?_
  exact .bind (popTransferEvent_triple _) fun _ => .ret

theorem finishHead_triple : Preserves (AtRest G) (finishHead dir) := by
  refine .get_bind fun h hi => ?_
  split
  · exact .pure_eq hi
  · rename_i t rest htr
    refine .ite (fun _ => .pure_eq hi) fun hsync => ?_
    refine .of_eq (.bind (queryEvent_triple dir) fun complete => ?_) ⟨hi, by simp [htr], by simpa using hsync⟩
    refine .ite (fun hc => ?_) fun _ => .pure _ fun _ hp => hp.1
    exact .bind (reportHead_triple.of_pre fun _ hp => ⟨hp.1, hp.2 hc⟩) fun _ => .ret

theorem finishQueue_triple (fuel : Nat) : Preserves (AtRest G) (finishQueue dir fuel) := by
  induction fuel with
  | zero => exact .ret
  | succ fuel ih =>
    refine .bind finishHead_triple fun result => ?_
    cases result with
    | none => exact .ret
    | some _ => exact .bind ih fun _ => .ret

theorem getFinished_triple : Preserves (AtRest G) getFinished := by
  refine .get_keep fun h hi => ?_
  refine .bind (finishQueue_triple _) fun _ => .bind (finishQueue_triple _) fun _ => ?_
  exact .ret

theorem wait_triple (jobIds : List Int) : Preserves (AtRest G) (wait jobIds) := by
  have hjob : ∀ dir jobId, Preserves (AtRest G) (waitJob dir jobId) := by
    intro dir jobId
    refine .get_bind fun h hi => ?_
    split
    · exact (synchronizeEvent_triple _).of_eq hi
    · exact .pure_eq hi
  exact .bind (.forEach (I := fun _ => AtRest G) (fun jobId _ => hjob .store jobId) jobIds)
    fun _ => .forEach (I := fun _ => AtRest G) (fun jobId _ => hjob .load jobId) jobIds

/-! ## Shutdown -/

/-- What is left of the queue of `dir` while it is drained, next to the other queue `q`. -/
def Draining (G : Leases → Prop) (dir : Direction) (q rest : List Transfer) (h : Handler) : Prop :=
  AtRest G h ∧ (h.state dir).transfers = rest ∧ (h.state (other dir)).transfers = q

theorem synchronizeTransfer_triple {q rest : List Transfer} :
    Triple (Draining G dir q (t :: rest)) (synchronizeTransfer t)
      (fun _ h => Draining G dir q (t :: rest) h ∧ h.device.Quiet t.stream) (fun _ => AtRest G) := by
  have htick : ∀ h, Draining G dir q (t :: rest) h → Draining G dir q (t :: rest) h.tick :=
    fun h hp => ⟨hp.1.tick, by simpa using hp.2⟩
  unfold synchronizeTransfer
  split
  · refine deviceCall_triple htick (fun h hp => ⟨⟨hp.1.sync _ (.inl rfl), by simpa using hp.2⟩, ?_⟩)
      (fun _ _ hp => hp.1) fun _ _ hp => hp.1
    simp [onDevice, Device.Quiet, Device.syncStream]
  · rename_i hsync
    refine deviceCall_triple htick (fun h hp => ⟨⟨hp.1.observe _, by simpa using hp.2⟩, ?_⟩)
      (fun _ _ hp => hp.1) fun _ _ hp => hp.1
    have hmem : t ∈ h.queued := (mem_queued h dir).mpr (.inl (by simp [hp.2.1]))
    exact (endSeen_observeEvent (hp.1.tracked t hmem (by simpa using hsync))).2

theorem drainHead_triple {q : List Transfer} (t : Transfer) (rest : List Transfer) :
    Triple (Draining G dir q (t :: rest)) (drainHead dir t) (fun _ => Draining G dir q rest)
      (fun _ => AtRest G) := by
  refine .bind synchronizeTransfer_triple fun _ => ?_
  refine .bind (Q := fun _ => Draining G dir q rest)
    (.modify _ fun h ⟨⟨hi, hhead, hq⟩, hquiet⟩ => ?_) fun _ => ?_
  · exact ⟨(hi.popLeft hhead hquiet).drop_all, by simp [hhead], by simpa using hq⟩
  · exact .modify _ fun h hp => ⟨hp.1.setState_same rfl rfl, by simpa using hp.2⟩

theorem drainQueue_triple (dir : Direction) (q : List Transfer) :
    Triple (fun h => AtRest G h ∧ (h.state (other dir)).transfers = q) (drainQueue dir)
      (fun _ => Draining G dir q []) (fun _ => AtRest G) := by
  refine .get_bind fun h ⟨hi, hq⟩ => ?_
  refine .of_eq (.bind (.forEach drainHead_triple (h.state dir).transfers)
    fun _ => ?_) ⟨hi, rfl, hq⟩
  exact .modify _ fun h hp => ⟨hp.1.setState_same rfl rfl, by simpa using hp.2⟩

def ReleaseClosed (G : Leases → Prop) : Prop :=
  ∀ l unregistered mappedHandles, G l →
    G { l with unregistered := unregistered, mappedHandles := mappedHandles }

def Drained (G : Leases → Prop) (h : Handler) : Prop := AtRest G h ∧ h.queued = []

theorem Drained.quiet (hp : Drained G h) (stream : Nat) : h.device.Quiet stream := by
  by_contra hq
  rcases hp.1.quiet stream hq with ⟨t, ht, _⟩ | hb
  · simp [hp.2] at ht
  · cases hb

theorem unregister_triple (hG : ReleaseClosed G) (handle : Int) : Preserves (Drained G) (unregister handle) := by
  refine .bind (Q := fun _ => Drained G) (.modify _ fun h hp => ⟨?_, hp.2⟩) fun _ => ?_
  · refine { hp.1 with unregisterCalls := ?_ }
    intro c hc
    rcases mem_append.mp hc with hold | hnew
    · exact hp.1.unregisterCalls c hold
    · cases mem_singleton.mp hnew
      exact ⟨hp.2, hp.quiet⟩
  refine .bind (.attempt (hostCall_triple fun h hp => ⟨hp.1.tick, hp.2⟩)) fun res => ?_
  cases res with
  | error _ => exact .ret
  | ok _ =>
    refine .bind (Q := fun _ => Drained G) (.modify _ fun h hp => ⟨?_, hp.2⟩)
      fun _ => .ret
    exact { hp.1 with leases := hG h.leases _ _ hp.1.leases }

theorem closeMappedPool_triple (hG : ReleaseClosed G) :
    Triple (Drained G) closeMappedPool (fun _ => Drained G) (fun _ => AtRest G) := by
  have hdrop : Triple (Drained G) dropOps (fun _ => Drained G) (fun _ => AtRest G) :=
    Triple.modify _ fun _ hp => ⟨hp.1.of_same ⟨rfl, rfl, rfl, rfl⟩ rfl rfl rfl, hp.2⟩
  have hhandles : ∀ h handles, Drained G h → Drained G { h with mappedHandles := handles } :=
    fun h _ hp => ⟨{ hp.1 with leases := hG h.leases _ _ hp.1.leases }, hp.2⟩
  have hkeep : ∀ handle, Triple (Drained G) (unregisterOrKeep handle) (fun _ => Drained G)
      (fun _ => AtRest G) := by
    intro handle
    refine .bind ((unregister_triple hG handle).mono_error fun _ _ hp => hp.1) fun _ => ?_
    exact .ite (fun _ => .ret)
      fun _ => .modify _ fun _ hp => hhandles _ _ hp
  refine .get_keep fun h hp => .ite (fun _ => hdrop) fun _ => ?_
  refine .require_bind (fun _ _ hp => hp.1) fun _ => ?_
  refine .bind (Q := fun _ => Drained G) (.modify _ fun _ hp => hhandles _ _ hp)
    fun _ => ?_
  refine .bind (.forEach (I := fun _ => Drained G) (fun handle _ => hkeep handle) _)
    fun _ => .get_keep fun h hp => ?_
  exact .require_bind (fun _ _ hp => hp.1) fun _ => hdrop

theorem Inv.close (hi : AtRest G h) : AtRest G h.close := by
  have hpool : ∀ k, h.close.pooled k = [] := by
    intro k
    cases k <;> rfl
  refine { hi with owned := ?_, origin := ?_ }
  · intro k x
    have := hi.owned k x
    rw [hpool]
    change _ + (h.inUse k).count x + _ ≤ if x < h.fresh then 1 else 0
    simp only [count_nil]
    omega
  · intro k x hx
    rw [hpool] at hx
    cases hx

theorem shutdown_triple (hG : ReleaseClosed G) : Preserves (AtRest G) shutdown := by
  refine .get_bind fun h hi => .ite (fun _ => .pure_eq hi)
    fun _ => ?_
  refine .of_eq (.bind (drainQueue_triple .store h.loadState.transfers) fun _ => ?_) ⟨hi, rfl⟩
  refine .bind ((drainQueue_triple .load []).of_pre fun _ hp => ⟨hp.1, hp.2.1⟩) fun _ => ?_
  refine .bind ((closeMappedPool_triple hG).of_pre fun _ hp => ⟨hp.1, ?_⟩) fun _ => .modify _ fun _ hp => hp.1.close
  obtain ⟨_, hload, hstore⟩ := hp
  exact append_eq_nil_iff.mpr ⟨hstore, hload⟩

/-! ## Construction -/

theorem registerMappedPool_triple (handle : Nat → Option Int) :
    Triple (AtRest (fun l => l.gathers = [])) (registerMappedPool handle)
      (fun _ => AtRest (fun l => l.gathers = [])) (fun _ _ => True) := by
  have htensor : ∀ tensorIdx, Triple (AtRest (fun l => l.gathers = []))
      (registerTensor handle tensorIdx) (fun _ => AtRest (fun l => l.gathers = []))
      (fun _ _ => True) := by
    intro tensorIdx
    unfold registerTensor
    split
    · exact .raise _ fun _ _ => trivial
    · refine .require_bind (fun _ _ _ => trivial) fun _ => ?_
      exact .modify _ fun _ hi => { hi with leases := hi.leases }
  refine .get_keep fun h hi => ?_
  refine .bind (.attempt (.forEach
    (I := fun _ => AtRest (fun l => l.gathers = [])) (fun i _ => htensor i) _)) fun res => ?_
  cases res with
  | ok _ => exact .ret
  | error _ => exact .bind (.attempt Triple.top) fun _ => .raise _ fun _ _ => trivial

theorem construct_ok {args : HandlerArgs} (hc : construct args = .ok h) :
    ∃ npuTensors, args.tensors.mapM npuTensor = .ok npuTensors ∧
      validateMappedGatherLayout npuTensors (args.tensors.map (cpuTensor args.numCpuBlocks)) args.groups = .ok () ∧
      registerMappedPool args.handle
        { groups := args.groups, cpuTensors := args.tensors.map (cpuTensor args.numCpuBlocks), npuTensors,
          outcomes := args.outcomes } = (.ok (), h) := by
  unfold construct at hc
  simp only [bind, Except.bind, pure, Except.pure, throw, throwThe, MonadExceptOf.throw] at hc
  split at hc
  · cases hc
  split at hc
  · cases hc
  split at hc
  · cases hc
  split at hc
  · cases hc
  rename_i npuTensors hnpu
  split at hc
  · cases hc
  rename_i hvalid
  split at hc
  · cases hc
  rename_i hreg
  cases hc
  exact ⟨npuTensors, hnpu, hvalid, Prod.ext hreg rfl⟩

theorem construct_inv {args : HandlerArgs} (hc : construct args = .ok h) :
    AtRest (fun l => l.gathers = []) h := by
  obtain ⟨npuTensors, -, -, hreg⟩ := construct_ok hc
  have hnew : AtRest (fun l => l.gathers = [])
      { groups := args.groups, cpuTensors := args.tensors.map (cpuTensor args.numCpuBlocks), npuTensors,
        outcomes := args.outcomes } := by
    refine ⟨?_, nofun, ?_, nofun, ?_, nofun, rfl⟩
    · intro k x
      cases k <;> simp [pooled, inUse, queued, AsyncState.pooled,
        bufferPool, Resources.none]
    · intro stream hq
      exact absurd (Nat.le_refl 0) hq
    · intro k x hx
      cases k <;> cases hx
  have hres := registerMappedPool_triple args.handle _ hnew
  rw [hreg] at hres
  exact hres

/-! ## Runs -/

def Call.loads : Call → Bool
  | .submitLoad .. => true
  | .transferAsync _ src dst => src.kind = .cpu && dst.kind = .gpu
  | _ => false

theorem perform_triple (call : Call) (hrel : call.loads = false → ReleaseClosed G)
    (hload : call.loads = true → GatherClosed G) : Preserves (AtRest G) (perform call) := by
  cases call with
  | submitStore jobId src dst =>
    exact .bind (submitStore_triple jobId src dst) fun _ => .ret
  | submitLoad jobId src dst =>
    exact .bind (submitLoad_triple (hload rfl) jobId src dst) fun _ => .ret
  | transferAsync jobId src dst =>
    refine .bind (Q := fun _ => AtRest G) ?_ fun _ => .ret
    unfold transferAsync
    split
    · exact submitStore_triple jobId src dst
    · rename_i hsrc hdst
      exact submitLoad_triple (hload (by simp [Call.loads, hsrc, hdst])) jobId src dst
    · exact .raise _ fun _ hi => hi
  | getFinished => exact .bind getFinished_triple fun _ => .ret
  | wait jobIds => exact wait_triple jobIds
  | shutdown => exact shutdown_triple (hrel rfl)

theorem step_inv {a : Action} (hrel : a.call.loads = false → ReleaseClosed G)
    (hload : a.call.loads = true → GatherClosed G) (hi : AtRest G h)
    (hs : step h a = some h') : AtRest G h' := by
  have hstart : AtRest G { h with outcomes := a.outcomes, schedule := a.schedule } :=
    hi.of_same ⟨rfl, rfl, rfl, rfl⟩ rfl rfl rfl
  have hend := perform_triple a.call hrel hload _ hstart
  cases hs
  split at hend <;> simp_all

theorem reaches_inv {args : HandlerArgs} {h₀ : Handler} (hc : construct args = .ok h₀)
    (hr : Machine.Reaches step Machine.AnyAction h₀ h) : AtRest (fun _ => True) h := by
  refine hr.inv _ ((construct_inv hc).mono fun _ => trivial) ?_
  intro h₁ a h₂ hi _ hs
  exact step_inv (fun _ _ _ _ _ => trivial) (fun _ _ _ _ _ => trivial) hi hs

/-- In every state of every run no resource is in two places, a pooled one came from a transfer
that was recycled, and a transfer was recycled only when its end event was seen complete, its
stream was synchronized, or nothing was enqueued for it. -/
theorem live_resources_never_shared {args : HandlerArgs} {h₀ : Handler}
    (hc : construct args = .ok h₀) (hr : Machine.Reaches step Machine.AnyAction h₀ h) :
    (∀ k, (h.pooled k ++ h.inUse k).Nodup) ∧ (∀ k, ∀ x ∈ h.pooled k, ∃ r ∈ h.recycled, x ∈ r.1.resources k) ∧
        ∀ r ∈ h.recycled, EndSeen r.2 r.1 ∨ Synchronized r.2 r.1 ∨ NothingEnqueued r.2 r.1 := by
  have hi := reaches_inv hc hr
  refine ⟨fun k => nodup_iff_count_le_one.mpr fun x => ?_, hi.origin, hi.recycled⟩
  have := hi.owned k x
  rw [count_append]
  split_ifs at this <;> omega

/-! ### A handler with two tensors -/

def sampleArgs : HandlerArgs where
  tensors := [⟨32, 4096, 4, 32, true, true, 8192⟩, ⟨32, 16384, 4, 32, true, true, 32768⟩]
  groups := [[⟨0, 32⟩, ⟨1, 32⟩]]
  blockSizeFactor := 1
  numCpuBlocks := 4
  opsAvailable := true
  handle tensorIdx := some (tensorIdx + 1)

def sampleHandler : Handler :=
  match construct sampleArgs with
  | .ok h => h
  | .error _ => { groups := [], cpuTensors := [], npuTensors := [] }

def sampleCpuSpec : LoadStoreSpec := { kind := .cpu, blockIds := [1] }

def sampleGpuSpec : LoadStoreSpec := { kind := .gpu, blockIds := [2], groupSizes := [1], blockIndices := [0] }

def sampleAfter (acts : List Action) : Handler := (Machine.run step sampleHandler acts).getD sampleHandler

/-- A store is polled once it is complete. The next one takes over its stream, and neither its end
event nor its stream synchronization comes through. -/
def poisonedRun : List Action :=
  [{ call := .submitStore 7 sampleGpuSpec sampleCpuSpec },
    { call := .getFinished, schedule := [[1, 1, 1]] },
    { call := .submitStore 8 sampleGpuSpec sampleCpuSpec,
      outcomes := [.succeeds, .succeeds, .succeeds, .failsLate, .fails, .fails] }]

theorem live_resources_never_shared_poisonedRun : (sampleAfter poisonedRun).recycled.length = 1 ∧
      (sampleAfter poisonedRun).queued.map (·.needsStreamSync) = [true] ∧
        ∀ k, ((sampleAfter poisonedRun).pooled k ++ (sampleAfter poisonedRun).inUse k).Nodup := by
  have hrun : Machine.run step sampleHandler poisonedRun = some (sampleAfter poisonedRun) := rfl
  have hc : construct sampleArgs = .ok sampleHandler := rfl
  refine ⟨by decide, by decide, ?_⟩
  exact (live_resources_never_shared hc (Machine.reaches_of_run hrun)).1

/-! ## Gathers and registrations -/

def NoUseAfterRelease (l : Leases) : Prop :=
  ∀ g ∈ l.gathers, ∀ handle, l.registered[g.1]? = some handle → handle ∉ g.2

def NotHalfReleased (l : Leases) : Prop := l.mappedHandles = [] ∨ ∀ handle ∈ l.registered, handle ∉ l.unregistered

/-- Loads are submitted to a handler that no failed shutdown has left half released. -/
def LoadsWhenHeld (h : Handler) (a : Action) : Prop := a.call.loads = true → NotHalfReleased h.leases

theorem gatherClosed_notHalfReleased : GatherClosed fun l => NoUseAfterRelease l ∧ NotHalfReleased l := by
  rintro l ⟨hno, hheld⟩ hhandles tensor
  refine ⟨?_, hheld⟩
  intro g hg handle hreg
  rcases mem_append.mp hg with hold | hnew
  · exact hno g hold handle hreg
  · cases mem_singleton.mp hnew
    exact (hheld.resolve_left hhandles) handle (mem_of_getElem? hreg)

theorem step_noUseAfterRelease {a : Action} (hi : AtRest NoUseAfterRelease h)
    (hok : LoadsWhenHeld h a) (hs : step h a = some h') : AtRest NoUseAfterRelease h' := by
  by_cases hload : a.call.loads = true
  · have hheld : AtRest (fun l => NoUseAfterRelease l ∧ NotHalfReleased l) h :=
      hi.mono fun hno => ⟨hno, hok hload⟩
    exact (step_inv (by simp [hload]) (fun _ => gatherClosed_notHalfReleased) hheld hs).mono And.left
  · exact step_inv (fun _ _ _ _ hl => hl) (fun hl => absurd hl hload) hi hs

/-- In every run the unregister op is called only when both queues are empty and all device work
was seen complete. In every run that submits loads only to a handler that is not half released, no
gather reads a tensor whose handle was released. -/
theorem registrations_outlive_gathers {args : HandlerArgs} {h₀ : Handler}
    (hc : construct args = .ok h₀) : (Machine.Reaches step Machine.AnyAction h₀ h →
      ∀ c ∈ h.unregisterCalls, c.1 = [] ∧ ∀ stream, c.2.Quiet stream) ∧
    (Machine.Reaches step LoadsWhenHeld h₀ h → NoUseAfterRelease h.leases) := by
  refine ⟨fun hr => (reaches_inv hc hr).unregisterCalls, fun hr => ?_⟩
  refine (hr.inv (AtRest NoUseAfterRelease) ((construct_inv hc).mono fun hnil => ?_) ?_).leases
  · intro g hg
    rw [hnil] at hg
    cases hg
  · intro h₁ a h₂ hi hok hs
    exact step_noUseAfterRelease hi hok hs

def heldRun : List Action :=
  [{ call := .submitLoad 7 sampleCpuSpec sampleGpuSpec },
    { call := .shutdown, outcomes := [.succeeds, .succeeds, .fails] }]

theorem registrations_outlive_gathers_heldRun : (sampleAfter heldRun).gathers = [(0, []), (1, [])] ∧
      (sampleAfter heldRun).unregistered = [2] ∧ NoUseAfterRelease (sampleAfter heldRun).leases := by
  have hc : construct sampleArgs = .ok sampleHandler := rfl
  refine ⟨by decide, by decide, (registrations_outlive_gathers hc).2 ?_⟩
  have hload : LoadsWhenHeld sampleHandler { call := .submitLoad 7 sampleCpuSpec sampleGpuSpec } :=
    fun _ => .inr (by decide)
  have hshutdown : ∀ h outcomes, LoadsWhenHeld h { call := .shutdown, outcomes := outcomes } := fun _ _ => nofun
  exact .tail (.tail .refl hload rfl) (hshutdown _ [.succeeds, .succeeds, .fails]) rfl

/-- The shutdown releases the handle of the second tensor and fails on the first. The handler is
still open, its list of handles is not empty, and the next load gathers from both tensors. -/
def halfReleasedRun : List Action :=
  [{ call := .shutdown, outcomes := [.succeeds, .fails] }, { call := .submitLoad 7 sampleCpuSpec sampleGpuSpec }]

theorem load_gathers_after_release : construct sampleArgs = .ok sampleHandler ∧
      Machine.Reaches step Machine.AnyAction sampleHandler (sampleAfter halfReleasedRun) ∧
        ((1, [2]) ∈ (sampleAfter halfReleasedRun).gathers ∧ (sampleAfter halfReleasedRun).registered[1]? = some 2) ∧
          ¬ NoUseAfterRelease (sampleAfter halfReleasedRun).leases := by
  have hrun : Machine.run step sampleHandler halfReleasedRun = some (sampleAfter halfReleasedRun) := rfl
  have hgather : (1, [2]) ∈ (sampleAfter halfReleasedRun).gathers ∧
      (sampleAfter halfReleasedRun).registered[1]? = some 2 := by decide
  refine ⟨rfl, Machine.reaches_of_run hrun, hgather, ?_⟩
  intro hno
  exact hno _ hgather.1 2 hgather.2 (by simp)

end VllmAscend.KvOffload.Mapped
