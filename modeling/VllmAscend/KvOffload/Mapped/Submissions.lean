import VllmAscend.KvOffload.Mapped.Ownership

/-!
# The submissions keep the ownership of resources

One triple for each function of a submission, with the same invariant whether it returns or raises.
-/

namespace VllmAscend.KvOffload.Mapped

open Exec Handler List Option Bool

variable {G : Leases → Prop} {mine : Resources} {busy : Option Nat} {h : Handler}

/-! ## Device calls -/

theorem deviceCall_triple {P : Handler → Prop} {Q : Unit → Handler → Prop}
    {E : MappedError → Handler → Prop} {work late : Device → Device}
    (htick : ∀ h, P h → P h.tick) (hok : ∀ h, P h → Q () (h.onDevice work))
    (hfail : ∀ e h, P h → E e h) (hlate : ∀ e h, P h → E e (h.onDevice late)) :
    Triple P (deviceCall work late) Q E := by
  intro h hP
  unfold deviceCall
  cases h.outcomes.headD .succeeds with
  | succeeds => exact hok _ (htick h hP)
  | fails => exact hfail _ _ (htick h hP)
  | failsLate => exact hlate _ _ (htick h hP)

theorem hostCall_triple {P : Handler → Prop} (htick : ∀ h, P h → P h.tick) : Preserves P hostCall :=
  deviceCall_triple htick (fun _ hP => hP) (fun _ _ hP => hP) (fun _ _ hP => hP)

theorem synchronizeEvent_triple (event : Nat) : Preserves (Inv G mine busy) (synchronizeEvent event) :=
  deviceCall_triple (fun _ hi => hi.tick) (fun _ hi => hi.observe event) (fun _ _ hi => hi)
    (fun _ _ hi => hi)

theorem create_triple (k : ResourceKind) :
    Triple (Inv G mine busy) create (fun x => Inv G (mine.add k x) busy) (fun _ => Inv G mine busy) := by
  refine .bind (hostCall_triple fun _ hi => hi.tick) fun _ => ?_
  refine .get_bind fun h hi => .bind (Q := fun _ => Inv G (mine.add k h.fresh) busy) ?_
    fun _ => .pure _ fun _ hi => hi
  rintro h' rfl
  refine { hi with owned := ?_ }
  -- The new id is below the new bound, and nobody else has it.
  intro k' x
  have := hi.owned k' x
  change (h'.pooled k').count x + (h'.inUse k').count x + _ ≤ if x < h'.fresh + 1 then 1 else 0
  rw [Resources.count_add]
  split_ifs at this ⊢ <;> omega

/-! ## Taking resources -/

theorem count_dropLast {α : Type} [DecidableEq α] {l : List α} {x : α} (hx : l.getLast? = some x)
    (y : α) : l.dropLast.count y + (if x = y then 1 else 0) = l.count y := by
  conv_rhs => rw [← dropLast_append_getLast? x hx]
  simp [count_append, count_cons]

theorem Inv.take_async {h : Handler} (hi : Inv G mine busy h) {dir : Direction} {a : AsyncState}
    {k₀ : ResourceKind} {x₀ : Nat} (htr : a.transfers = (h.state dir).transfers)
    (hcount : ∀ k x, (a.pooled k).count x + (if k = k₀ ∧ x₀ = x then 1 else 0) =
      ((h.state dir).pooled k).count x) : Inv G (mine.add k₀ x₀) busy (h.setState dir a) := by
  refine hi.take (sameRest_setState _ _ _) (by simp) ?_ ?_
  · cases dir <;> simp_all [queued, setState, state]
  · intro k x
    rw [count_pooled _ dir, count_pooled h dir]
    have := hcount k x
    simp only [setState_state, setState_other, setState_bufferPool]
    omega

theorem popStream_triple (dir : Direction) :
    Triple (Inv G mine busy) (popStream dir) (fun x => Inv G (mine.add .stream x) busy)
      (fun _ => Inv G mine busy) := by
  refine .get_bind fun h hi => ?_
  split
  · rename_i x hx
    rintro h rfl
    refine hi.take_async rfl ?_
    intro k y
    have := count_dropLast hx y
    cases k <;> simp [AsyncState.pooled, this]
  · exact (create_triple .stream).of_eq hi

theorem popEvent_triple (dir : Direction) :
    Triple (Inv G mine busy) (popEvent dir) (fun x => Inv G (mine.add .event x) busy) (fun _ => Inv G mine busy) := by
  refine .get_bind fun h hi => ?_
  split
  · rename_i x hx
    rintro h rfl
    refine hi.take_async rfl ?_
    intro k y
    have := count_dropLast hx y
    cases k <;> simp [AsyncState.pooled, this]
  · exact (create_triple .event).of_eq hi

theorem popDescriptorBuffers_triple (ops : Nat) : Triple (Inv G mine busy) (popDescriptorBuffers ops)
      (fun b => Inv G (mine.add .descriptors b.id) busy) (fun _ => Inv G mine busy) := by
  have hnew : Triple (Inv G mine busy) (newDescriptorBuffers ops)
      (fun b => Inv G (mine.add .descriptors b.id) busy) (fun _ => Inv G mine busy) :=
    Triple.bind (create_triple .descriptors) fun _ => .pure _ fun _ hi => hi
  refine .get_bind fun h hi => ?_
  split
  · rename_i b hb
    refine .bind (Q := fun _ => Inv G (mine.add .descriptors b.id) busy)
      (.modify _ ?_) fun _ => .ite (fun _ => ?_) fun _ => .pure _ fun _ hi => hi
    · rintro h rfl
      refine hi.take ⟨rfl, rfl, rfl, rfl⟩ rfl rfl ?_
      intro k y
      have hlast : (h.storeDescriptorPool.map (·.id)).getLast? = some b.id := by simp [hb]
      have := count_dropLast hlast y
      cases k <;> simp [pooled, bufferPool, count_append]
      omega
    · -- Buffers that are too small are dropped.
      exact hnew.of_pre fun _ hi => hi.drop fun k x => by rw [Resources.count_add]; omega
  · exact hnew.of_eq hi

theorem count_eraseIdx {l : List Nat} {i x : Nat} (hx : l[i]? = some x) (y : Nat) :
    (l.eraseIdx i).count y + (if x = y then 1 else 0) = l.count y := by
  obtain ⟨hi, rfl⟩ := List.getElem?_eq_some_iff.mp hx
  rw [← (getElem_cons_eraseIdx_perm hi).count_eq y, count_cons]
  simp

theorem acquireMappedIds_triple (numIds : Nat) : Triple (Inv G mine busy) (acquireMappedIds numIds)
      (fun b => Inv G (mine.add .mappedIds b.id) busy) (fun _ => Inv G mine busy) := by
  refine .get_bind fun h hi => ?_
  split
  · rename_i idx b hb
    rintro h rfl
    refine hi.take ⟨rfl, rfl, rfl, rfl⟩ rfl rfl ?_
    intro k y
    obtain ⟨_, _, hmap⟩ := bind_eq_some_iff.mp hb
    obtain ⟨_, hget, heq⟩ := map_eq_some_iff.mp hmap
    cases heq
    have hid : (h.loadIdPool.map (·.id))[idx]? = some b.id := by simp [hget]
    have := count_eraseIdx hid y
    rw [eraseIdx_map] at this
    cases k <;> simp [pooled, bufferPool, count_append]
    omega
  · refine .of_eq (.bind (create_triple .mappedIds) fun _ => ?_) hi
    exact .pure _ fun _ hi => hi

theorem acquireAsyncResources_triple (dir : Direction) (wait : Bool) :
    Triple (Inv G mine none) (acquireAsyncResources dir wait)
      (fun r => Inv G (((mine.add .stream r.1).add .event r.2.1).add .event r.2.2) none)
      (fun _ => AtRest G) := by
  have hwait : ∀ mine : Resources, Triple (Inv G mine none) hostCall (fun _ => Inv G mine none)
      (fun _ => AtRest G) := fun _ =>
    (hostCall_triple fun _ hi => hi.tick).mono_error fun _ _ hi => hi.drop_all
  refine .get_keep fun h _ => .require_bind (fun _ _ hi => hi.drop_all) fun _ => ?_
  refine .bind ((popStream_triple dir).mono_error fun _ _ hi => hi.drop_all) fun stream => ?_
  refine .bind ((popEvent_triple dir).mono_error fun _ _ hi => hi.drop_all) fun start => ?_
  refine .bind ((popEvent_triple dir).mono_error fun _ _ hi => hi.drop_all) fun fin => ?_
  refine .bind (.when (hwait _) fun _ hi => hi) fun _ => .get_keep fun h _ => ?_
  refine .bind (.when (hwait _) fun _ hi => hi) fun _ => ?_
  exact .pure _ fun _ hi => hi

/-! ## Queues and pools -/

section Queue

variable {t : Transfer} (dir : Direction)

theorem Inv.enqueue_async (hi : Inv G t.resources (some t.stream) h) {a : AsyncState}
    (htr : a.transfers = (h.state dir).transfers ++ [t]) (hpool : a.pooled = (h.state dir).pooled)
    (htrack : t.needsStreamSync = false →
      h.device.recorded t.endEvent = some (t.stream, h.device.enqueued t.stream)) :
    AtRest G (h.setState dir a) := by
  refine hi.enqueue (sameRest_setState _ _ _) (by simp) ?_ ?_ ?_ htrack
  · cases dir <;> funext k <;> simp_all [pooled, setState, state, bufferPool]
  · intro t'
    rw [mem_queued _ dir, mem_queued h dir]
    simp only [setState_state, setState_other, htr, mem_append, mem_singleton]
    tauto
  · intro k x
    rw [count_inUse _ dir, count_inUse h dir]
    simp only [setState_state, setState_other, htr, flatMap_append, count_append, flatMap_singleton]
    omega

theorem trackSubmission_triple : Triple (fun h => Inv G t.resources (some t.stream) h ∧
        h.device.recorded t.endEvent = some (t.stream, h.device.enqueued t.stream))
      (trackSubmission dir t) (fun _ => AtRest G) (fun _ => AtRest G) :=
  Triple.modify _ fun _ hi => hi.1.enqueue_async dir rfl rfl fun _ => hi.2

theorem poison_triple : Triple (Inv G t.resources (some t.stream)) (poison dir t) (fun _ => AtRest G)
      (fun _ => AtRest G) := by
  refine .modify _ fun h hi => ?_
  exact .enqueue_async (t := { t with needsStreamSync := true }) dir hi rfl rfl nofun

structure GainsBuffers (t : Transfer) (h h' : Handler) : Prop where
  rest : SameRest h h'
  recycled : h'.recycled = h.recycled
  storeState : h'.storeState = h.storeState
  loadState : h'.loadState = h.loadState
  count : ∀ k x, (h'.bufferPool k).count x ≤ (h.bufferPool k).count x +
    if k = .stream ∨ k = .event then 0 else (t.resources k).count x

theorem recycleBuffers_spec (h : Handler) (t : Transfer) : GainsBuffers t h (recycleBuffers h t) := by
  unfold recycleBuffers releaseMappedIds
  cases hd : t.descriptors <;> cases hm : t.mappedIds <;> dsimp only <;> (try split) <;>
    refine ⟨⟨rfl, rfl, rfl, rfl⟩, rfl, rfl, rfl, ?_⟩ <;> intro k x <;> cases k <;>
    simp [bufferPool, Transfer.resources, hd, hm]

theorem recycleTransferResources_triple : Triple (fun h => Inv G t.resources none h ∧ Reusable h.device t)
      (recycleTransferResources dir t) (fun _ => AtRest G) (fun _ => AtRest G) := by
  refine .modify _ fun h ⟨hi, hreuse⟩ => ?_
  set h₁ : Handler := recycleAsync { h with recycled := h.recycled ++ [(t, h.device)] } dir t with hh₁
  have hb := recycleBuffers_spec h₁ t
  have hr₁ : SameRest h h₁ := by cases dir <;> exact ⟨rfl, rfl, rfl, rfl⟩
  refine hi.recycle ⟨hb.rest.device.trans hr₁.device, hb.rest.fresh.trans hr₁.fresh,
    hb.rest.unregisterCalls.trans hr₁.unregisterCalls, hb.rest.leases.trans hr₁.leases⟩ ?_ ?_
    hreuse ?_
  · rw [hb.recycled, hh₁]
    cases dir <;> rfl
  · unfold queued
    rw [hb.storeState, hb.loadState, hh₁]
    cases dir <;> rfl
  · intro k x
    have hbuf := hb.count k x
    have hasync : (h₁.storeState.pooled k).count x + (h₁.loadState.pooled k).count x =
        (h.storeState.pooled k).count x + (h.loadState.pooled k).count x +
          if k = .stream ∨ k = .event then (t.resources k).count x else 0 := by
      rw [hh₁]
      cases k <;> cases dir <;> simp [recycleAsync, setState, state,
        AsyncState.pooled, Transfer.resources, count_cons] <;> omega
    have hsame : h₁.bufferPool k = h.bufferPool k := by
      rw [hh₁]
      cases dir <;> rfl
    unfold pooled
    rw [hb.storeState, hb.loadState]
    simp only [count_append]
    rw [hsame] at hbuf
    split_ifs at hbuf hasync <;> omega

/-! ## Submissions -/

def AtProgress (G : Leases → Prop) (t : Transfer) (p : Progress) (h : Handler) : Prop :=
  match p with
  | ⟨false, false⟩ => Inv G t.resources none h ∧ h.device.enqueued t.stream = t.base
  | ⟨true, false⟩ => Inv G t.resources (some t.stream) h
  | ⟨true, true⟩ => Inv G t.resources (some t.stream) h ∧
      h.device.recorded t.endEvent = some (t.stream, h.device.enqueued t.stream)
  | ⟨false, true⟩ => False

theorem AtProgress.tick {p : Progress} (hp : AtProgress G t p h) : AtProgress G t p h.tick := by
  obtain ⟨_ | _, _ | _⟩ := p
  · exact ⟨hp.1.tick, hp.2⟩
  · exact hp
  · exact Inv.tick hp
  · exact ⟨hp.1.tick, hp.2⟩

theorem at_triple {p q : Progress} {m : HandlerM Unit}
    (hm : Triple (AtProgress G t p) m (fun _ => AtProgress G t q) (fun _ => AtProgress G t p)) :
    Triple (AtProgress G t p) (at_ p m) (fun _ => AtProgress G t q) (fun e => AtProgress G t e.1) := by
  refine .bind (.attempt hm) fun res => ?_
  cases res with
  | ok _ => exact .ret
  | error e => exact .raise _ fun _ h => h

theorem stream_mem_resources (t : Transfer) : t.stream ∈ t.resources .stream := by
  simp [Transfer.resources]

theorem endEvent_mem_resources (t : Transfer) : t.endEvent ∈ t.resources .event := by
  simp [Transfer.resources]

theorem startEvent_mem_resources (t : Transfer) : t.startEvent ∈ t.resources .event := by
  simp [Transfer.resources]

theorem recordStart_triple : Triple (AtProgress G t ⟨false, false⟩) (recordEvent t.startEvent t.stream)
      (fun _ => AtProgress G t ⟨true, false⟩) (fun _ => AtProgress G t ⟨false, false⟩) := by
  refine deviceCall_triple (fun _ hp => hp.tick) (fun h hp => ?_) (fun _ _ hp => hp)
    fun _ _ hp => hp
  exact hp.1.record_mine (startEvent_mem_resources t) (stream_mem_resources t) (.inl rfl)

theorem recordEnd_triple : Triple (AtProgress G t ⟨true, false⟩) (recordEvent t.endEvent t.stream)
      (fun _ => AtProgress G t ⟨true, true⟩) (fun _ => AtProgress G t ⟨true, false⟩) := by
  refine deviceCall_triple (fun _ hp => .tick hp) (fun h hp => ⟨?_, ?_⟩) (fun _ _ hp => hp) fun _ _ hp => hp
  · exact .record_mine hp (endEvent_mem_resources t) (stream_mem_resources t) (.inr rfl)
  · simp [onDevice, Device.record, Device.launch]

theorem submissionBody_triple {work : HandlerM Unit} (hwork : Preserves (Inv G t.resources (some t.stream)) work) :
    Triple (AtProgress G t ⟨false, false⟩) (submissionBody t work)
      (fun _ => AtProgress G t ⟨true, true⟩) (fun e => AtProgress G t e.1) := by
  refine .bind (at_triple (hostCall_triple fun _ hp => hp.tick)) fun _ => ?_
  refine .bind (at_triple recordStart_triple) fun _ => ?_
  refine .bind (at_triple (q := ⟨true, false⟩) hwork) fun _ => ?_
  refine .bind (at_triple recordEnd_triple) fun _ => ?_
  exact at_triple (hostCall_triple fun _ hp => hp.tick)

/-- Each recovery leaves nothing in the hands of the call. -/
theorem preserveFailedSubmission_triple (p : Progress) :
    Triple (AtProgress G t p) (preserveFailedSubmission dir t p) (fun _ => AtRest G)
      (fun _ => AtRest G) := by
  obtain ⟨_ | _, _ | _⟩ := p
  · exact (recycleTransferResources_triple dir).of_pre fun _ hp => ⟨hp.1, .inr (.inr hp.2)⟩
  · exact fun _ hp => hp.elim
  · refine .bind (.attempt recordEnd_triple) fun res => ?_
    cases res with
    | ok _ => exact trackSubmission_triple dir
    | error _ =>
      have hsync : Triple (Inv G t.resources (some t.stream)) (synchronizeStream t.stream)
          (fun _ h => Inv G t.resources none h ∧ Reusable h.device t)
          (fun _ => Inv G t.resources (some t.stream)) := by
        refine deviceCall_triple (fun _ hi => hi.tick) (fun h hi => ⟨hi.sync _ (.inr rfl), ?_⟩)
          (fun _ _ hi => hi) fun _ _ hi => hi
        exact .inr (.inl (by simp [Synchronized, onDevice, Device.syncStream]))
      refine .bind (.attempt hsync) fun res => ?_
      cases res with
      | ok _ => exact recycleTransferResources_triple dir
      | error _ => exact poison_triple dir
  · exact trackSubmission_triple dir

theorem submit_triple {work : HandlerM Unit} (hwork : Preserves (Inv G t.resources (some t.stream)) work) :
    Triple (AtProgress G t ⟨false, false⟩) (submit dir t work) (fun _ => AtRest G)
      (fun _ => AtRest G) := by
  refine .bind (.attempt (submissionBody_triple hwork)) fun res => ?_
  cases res with
  | ok _ => exact .bind (trackSubmission_triple dir) fun _ => .ret
  | error e =>
    refine .bind (preserveFailedSubmission_triple (t := { t with success := false }) dir e.1)
      fun _ => .raise _ fun _ hi => hi

end Queue

theorem launch_triple {stream : Nat} (hs : stream ∈ mine .stream) :
    Preserves (Inv G mine (some stream)) (launch stream) :=
  deviceCall_triple (fun _ hi => hi.tick) (fun _ hi => hi.launch_mine hs (.inr rfl))
    (fun _ _ hi => hi) fun _ _ hi => hi.launch_mine hs (.inr rfl)

theorem prepareStoreDescriptors_triple (plan : TransferPlan) :
    Triple (AtRest G) (prepareStoreDescriptors plan)
      (fun b => Inv G (Resources.none.add .descriptors b.id) none) (fun _ => AtRest G) := by
  refine .bind (popDescriptorBuffers_triple _) fun b => .get_keep fun h _ => ?_
  refine .ofExcept_bind (fun _ _ hi => hi.drop_all) fun _ _ => ?_
  exact .pure _ fun _ hi => hi

/-- How both submissions start. -/
theorem start_triple {P : Handler → Prop} {R : Bool → Handler → Prop} {E : MappedError → Handler → Prop} {ok : Bool}
    {plan : Handler → Except MappedError TransferPlan} {k : TransferPlan → HandlerM Bool} (herr : ∀ e h, P h → E e h)
    (hk : ∀ h p, P h → h.closed = false → ok = true → plan h = .ok p → Triple P (k p) R E) :
    Triple P (do
      let h ← get
      require (!h.closed) .shutDown
      require ok .notBlockIds
      let p ← ofExcept (plan h)
      k p) R E := by
  refine .get_keep fun h hi => .require_bind (fun _ => herr _) fun hopen => ?_
  refine .require_bind (fun _ => herr _) fun hok => .ofExcept_bind herr fun p hp => ?_
  exact hk h p hi (by simpa using hopen) hok hp

theorem submitStore_triple (jobId : Int) (src dst : LoadStoreSpec) :
    Preserves (AtRest G) (submitStore jobId src dst) := by
  refine start_triple (fun _ _ hi => hi) fun _ plan _ _ _ _ => ?_
  refine .bind (prepareStoreDescriptors_triple plan) fun buffers => ?_
  refine .bind (acquireAsyncResources_triple .store true) fun (stream, start, fin) => ?_
  refine .get_bind fun h hi => .of_eq (submit_triple .store ?_) ⟨?_, rfl⟩
  · split
    · exact launch_triple (stream_mem_resources _)
    · exact .ret
  · convert hi using 1
    funext k
    cases k <;> rfl

/-! ## Gathers -/

def GatherClosed (G : Leases → Prop) : Prop := ∀ l, G l → l.mappedHandles ≠ [] → ∀ tensor, G (l.gather tensor)

theorem gather_triple (hG : GatherClosed G) {stream : Nat} (hs : stream ∈ mine .stream) (ref : CanonicalKVCacheRef) :
    Preserves (Inv (fun l => G l ∧ l.mappedHandles ≠ []) mine (some stream)) (gather stream ref) := by
  refine .bind (.modify _ fun h hi => ?_) fun _ => launch_triple hs
  exact { hi with leases := ⟨hG _ hi.leases.1 hi.leases.2 ref.tensor, hi.leases.2⟩ }

theorem runMappedGather_triple (hG : GatherClosed G) {stream : Nat} (hs : stream ∈ mine .stream)
    (plan : TransferPlan) : Preserves (Inv G mine (some stream)) (runMappedGather stream plan) := by
  let A := Inv (fun l => G l ∧ l.mappedHandles ≠ []) mine (some stream)
  have hdone : ∀ h, A h → Inv G mine (some stream) h := fun _ hi => hi.mono And.left
  have hlaunch : Triple A (launch stream) (fun _ => A) (fun _ => Inv G mine (some stream)) :=
    (launch_triple hs).mono_error fun _ => hdone
  have hgroup : ∀ group, Triple A (gatherGroup stream group) (fun _ => A)
      (fun _ => Inv G mine (some stream)) := by
    intro group
    unfold gatherGroup
    split
    · exact .ret
    · exact .forEach (I := fun _ => A)
        (fun ref _ => (gather_triple hG hs ref).mono_error fun _ => hdone) _
  refine .get_bind fun h hi => ?_
  refine .bind (Q := fun _ => A) (.require ?_ fun _ he => he ▸ hi) fun _ => ?_
  · -- Only here does the handler look at its handles.
    rintro h rfl hactive
    refine { hi with leases := ⟨hi.leases, ?_⟩ }
    simp only [and_eq_true, not_eq_true', isEmpty_eq_false_iff] at hactive
    exact hactive.2
  refine .bind hlaunch fun _ => .bind hlaunch fun _ => ?_
  refine .bind (.forEach (I := fun _ => A) (fun group _ => hgroup group) _) fun _ => ?_
  exact .require (fun _ hi _ => hdone _ hi) fun _ hi => hdone _ hi

def idResources (ids : Option MappedIDBuffers) : Resources
  | .mappedIds => (ids.map (·.id)).toList
  | _ => []

theorem acquireLoadIds_triple (plan : TransferPlan) (integer : Bool) :
    Triple (AtRest G) (acquireLoadIds plan integer)
      (fun ids => Inv G (idResources ids) none) (fun _ => AtRest G) := by
  have hsome : ∀ b : MappedIDBuffers, Resources.none.add .mappedIds b.id = idResources (some b) := by
    intro b
    funext k
    cases k <;> rfl
  have hnone : Resources.none = idResources none := by
    funext k
    cases k <;> rfl
  unfold acquireLoadIds
  split
  · exact .pure _ fun _ hi => hnone ▸ hi
  · refine .get_keep fun h _ => .ofExcept_bind (fun _ _ hi => hi) fun _ _ => ?_
    refine .bind (acquireMappedIds_triple _) fun b => ?_
    exact .pure _ fun _ hi => hsome b ▸ hi

theorem submitLoad_triple (hG : GatherClosed G) (jobId : Int) (src dst : LoadStoreSpec) :
    Preserves (AtRest G) (submitLoad jobId src dst) := by
  refine start_triple (fun _ _ hi => hi) fun _ plan _ _ _ _ => ?_
  refine .require_bind (fun _ _ hi => hi) fun _ => ?_
  refine .bind (acquireLoadIds_triple plan _) fun ids => ?_
  refine .bind (acquireAsyncResources_triple .load false) fun (stream, start, fin) => ?_
  refine .get_bind fun h hi => .of_eq (submit_triple .load ?_) ⟨?_, rfl⟩
  · unfold loadWork
    split
    · refine .require_bind (fun _ _ hi => hi) fun _ => ?_
      exact runMappedGather_triple hG (stream_mem_resources _) plan
    · exact .ret
  · convert hi using 1
    funext k
    cases k <;> rfl

end VllmAscend.KvOffload.Mapped
