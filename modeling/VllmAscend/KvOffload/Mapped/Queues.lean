import VllmAscend.KvOffload.Mapped.Lifecycle

/-!
# What the calls of the mapped handler do to its queues

A submission puts at most one transfer at the end of its queue, and polling and shutdown take transfers off the
front.
-/

namespace VllmAscend.KvOffload.Mapped

open Exec Handler List Function Dict Keeps Triple Device

/-! ## The view -/

structure Queue where
  transferEvents : Dict Int Nat
  transfers : List Transfer
  poisoned : Bool

def AsyncState.queue (state : AsyncState) : Queue := ⟨state.transferEvents, state.transfers, state.poisoned⟩

structure View where
  closed : Bool
  groups : List GroupRefs
  cpuTensors : List Tensor
  npuTensors : List Tensor
  queue : Direction → Queue

def Handler.view (h : Handler) : View :=
  ⟨h.closed, h.groups, h.cpuTensors, h.npuTensors, fun dir => (h.state dir).queue⟩

structure View.SameLayout (v v' : View) : Prop where
  closed : v'.closed = v.closed
  groups : v'.groups = v.groups
  cpuTensors : v'.cpuTensors = v.cpuTensors
  npuTensors : v'.npuTensors = v.npuTensors

def View.set (v : View) (dir : Direction) (q : Queue) : View := { v with queue := update v.queue dir q }

variable (dir : Direction)

@[simp]
theorem View.set_queue (v : View) (q : Queue) : (v.set dir q).queue dir = q := by
  simp [View.set]

@[simp]
theorem View.set_queue_other (v : View) {dir dir' : Direction} (h : dir' ≠ dir) (q : Queue) :
    (v.set dir q).queue dir' = v.queue dir' := by
  simp [View.set, h]

@[simp]
theorem View.set_set (v : View) (q q' : Queue) : (v.set dir q).set dir q' = v.set dir q' := by
  simp [View.set]

@[simp]
theorem View.set_self (v : View) : v.set dir (v.queue dir) = v := by
  simp [View.set]

theorem view_setState (h : Handler) (a : AsyncState) : (h.setState dir a).view = h.view.set dir a.queue := by
  have hqueue : (fun d => ((h.setState dir a).state d).queue) =
      update (fun d => (h.state d).queue) dir a.queue := by
    funext d
    cases dir <;> cases d <;> rfl
  unfold view View.set
  rw [hqueue]
  cases dir <;> rfl

variable {h : Handler}

theorem view_setState_pools {dir : Direction} {a : AsyncState} (ha : a.queue = (h.state dir).queue) :
    (h.setState dir a).view = h.view := by
  rw [view_setState, ha]
  exact View.set_self dir h.view

/-! ## Calls that touch no queue -/

theorem deviceCall_keeps (work late : Device → Device) : Keeps Handler.view (deviceCall work late) := by
  intro h
  unfold deviceCall
  split <;> rfl

theorem hostCall_keeps : Keeps Handler.view hostCall := deviceCall_keeps _ _

theorem queryEvent_keeps (event : Nat) : Keeps Handler.view (queryEvent event) := by
  refine .bind hostCall_keeps fun _ => .bind get fun _ => .ite ?_ (.pure _)
  exact .bind (.modify fun _ => rfl) fun _ => .pure _

def Handler.work (h : Handler) : View × (Nat → Nat) := (h.view, h.device.enqueued)

theorem create_keepsWork : Keeps work create := by
  have hhost : Keeps work hostCall := by
    intro h
    unfold hostCall deviceCall
    split <;> rfl
  refine .bind hhost fun _ => .bind get fun _ => ?_
  exact .bind (.modify fun _ => rfl) fun _ => .pure _

theorem create_keeps : Keeps Handler.view create := create_keepsWork.comp Prod.fst

theorem popStream_keeps : Keeps Handler.view (popStream dir) := by
  refine .bind get fun _ => ?_
  split
  · exact .bind (.modify fun _ => view_setState_pools rfl) fun _ => .pure _
  · exact create_keeps

theorem popEvent_keeps : Keeps Handler.view (popEvent dir) := by
  refine .bind get fun _ => ?_
  split
  · exact .bind (.modify fun _ => view_setState_pools rfl) fun _ => .pure _
  · exact create_keeps

theorem popDescriptorBuffers_keepsWork (ops : Nat) : Keeps work (popDescriptorBuffers ops) := by
  have hnew : Keeps work (newDescriptorBuffers ops) := .bind create_keepsWork fun _ => .pure _
  refine .bind get fun _ => ?_
  split
  · exact .bind (.modify fun _ => rfl) fun _ => .ite hnew (.pure _)
  · exact hnew

variable (plan : TransferPlan)

theorem prepareStoreDescriptors_keeps : Keeps Handler.view (prepareStoreDescriptors plan) := by
  refine .bind ((popDescriptorBuffers_keepsWork _).comp Prod.fst) fun _ => .bind get fun _ => ?_
  exact .bind (.ofExcept _) fun _ => .pure _

theorem acquireMappedIds_keeps (numIds : Nat) : Keeps Handler.view (acquireMappedIds numIds) := by
  refine .bind get fun _ => ?_
  split
  · exact .bind (.modify fun _ => rfl) fun _ => .pure _
  · exact .bind create_keeps fun _ => .pure _

theorem acquireLoadIds_keeps (integer : Bool) : Keeps Handler.view (acquireLoadIds plan integer) := by
  refine .ite (.pure _) (.bind get fun _ => .bind (.ofExcept _) fun _ => ?_)
  exact .bind (acquireMappedIds_keeps _) fun _ => .pure _

theorem acquireAsyncResources_keeps (wait : Bool) : Keeps Handler.view (acquireAsyncResources dir wait) := by
  refine .bind get fun _ => .bind require fun _ => ?_
  refine .bind (popStream_keeps dir) fun _ => .bind (popEvent_keeps dir) fun _ => ?_
  refine .bind (popEvent_keeps dir) fun _ => .bind (.when hostCall_keeps) fun _ => ?_
  exact .bind get fun _ => .bind (.when hostCall_keeps) fun _ => .pure _

variable (t : Transfer)

theorem recycleBuffers_same (h : Handler) : (recycleBuffers h t).view = h.view ∧
    (recycleBuffers h t).outcomes = h.outcomes := by
  unfold recycleBuffers releaseMappedIds
  cases t.descriptors <;> cases t.mappedIds <;> dsimp only <;> (try split) <;> exact ⟨rfl, rfl⟩

theorem recycleTransferResources_keeps : Keeps Handler.view (recycleTransferResources dir t) := by
  refine .modify fun h => ?_
  rw [(recycleBuffers_same t _).1]
  exact view_setState_pools rfl

theorem at_keeps {p : Progress} {m : HandlerM Unit} (hm : Keeps Handler.view m) : Keeps Handler.view (at_ p m) := by
  refine .bind (.attempt hm) fun res => ?_
  cases res with
  | ok _ => exact .pure _
  | error _ => exact .raise _

theorem submissionBody_keeps {t : Transfer} {work : HandlerM Unit} (hwork : Keeps Handler.view work) :
    Keeps Handler.view (submissionBody t work) := by
  refine .bind (at_keeps hostCall_keeps) fun _ => .bind (at_keeps (deviceCall_keeps _ _)) fun _ => ?_
  refine .bind (at_keeps hwork) fun _ => .bind (at_keeps (deviceCall_keeps _ _)) fun _ => ?_
  exact at_keeps hostCall_keeps

theorem runMappedGather_keeps (stream : Nat) : Keeps Handler.view (runMappedGather stream plan) := by
  have hgroup : ∀ group, Keeps view (gatherGroup stream group) := fun _ =>
    ite (.pure _)
      (.forEach fun _ => .bind (.modify fun _ => rfl) fun _ => deviceCall_keeps _ _)
  refine .bind get fun _ => .bind require fun _ => ?_
  refine .bind (deviceCall_keeps _ _) fun _ => .bind (deviceCall_keeps _ _) fun _ => ?_
  exact .bind (.forEach hgroup) fun _ => .require

theorem loadWork_keeps (stream : Nat) (mappedIds : Option MappedIDBuffers) :
    Keeps Handler.view (loadWork stream plan mappedIds) :=
  ite (.bind require fun _ => runMappedGather_keeps plan stream) (.pure _)

theorem waitJob_keeps (jobId : Int) : Keeps Handler.view (waitJob dir jobId) := by
  refine .bind get fun _ => ?_
  split
  · exact deviceCall_keeps _ _
  · exact .pure _

theorem wait_keeps (jobIds : List Int) : Keeps Handler.view (wait jobIds) :=
  bind (.forEach fun _ => waitJob_keeps _ _) fun _ => .forEach fun _ => waitJob_keeps _ _

theorem closeMappedPool_keeps : Keeps Handler.view closeMappedPool := by
  have hunregister : ∀ handle, Keeps view (unregister handle) := by
    intro handle
    refine .bind (.modify fun _ => rfl) fun _ => .bind (.attempt hostCall_keeps) fun res => ?_
    cases res with
    | ok _ => exact .bind (.modify fun _ => rfl) fun _ => .pure _
    | error _ => exact .pure _
  have hkeep : ∀ handle, Keeps view (unregisterOrKeep handle) := fun handle =>
    bind (hunregister handle) fun _ => .ite (.pure _) (.modify fun _ => rfl)
  have hdrop : Keeps view dropOps := .modify fun _ => rfl
  refine .bind get fun _ => .ite hdrop (.bind require fun _ => ?_)
  refine .bind (.modify fun _ => rfl) fun _ => .bind (.forEach hkeep) fun _ => ?_
  exact .bind get fun _ => .bind require fun _ => hdrop

/-! ## Submissions -/

def Queue.track (q : Queue) (t : Transfer) : Queue :=
  ⟨q.transferEvents.set t.jobId t.endEvent, q.transfers ++ [t], q.poisoned⟩

def Queue.poison (q : Queue) (t : Transfer) : Queue :=
  ⟨q.transferEvents, q.transfers ++ [{ t with needsStreamSync := true }], true⟩

structure Transfer.New (jobId : Int) (success : Bool) (t : Transfer) : Prop where
  job : t.jobId = jobId
  success : t.success = success
  synced : t.needsStreamSync = false

def Accepted (dir : Direction) (jobId : Int) (v v' : View) : Prop :=
  v.closed = false ∧ (v.queue dir).poisoned = false ∧
    ∃ t, Transfer.New jobId true t ∧ v' = v.set dir ((v.queue dir).track t)

/-- A submission that raises has left nothing behind, or its transfer is tracked as failed, or it has poisoned
the direction. -/
def Refused (dir : Direction) (jobId : Int) (v v' : View) : Prop :=
  v' = v ∨ v.closed = false ∧ (v.queue dir).poisoned = false ∧ ∃ t, Transfer.New jobId false t ∧
    (v' = v.set dir ((v.queue dir).track t) ∨ v' = v.set dir ((v.queue dir).poison t))

abbrev SubmitsJob {α : Type} (dir : Direction) (jobId : Int) (added : α) (v : View) (m : HandlerM α) : Prop :=
  Triple (fun h => h.view = v) m (fun r h => r = added ∧ Accepted dir jobId v h.view)
    (fun _ h => Refused dir jobId v h.view)

theorem trackSubmission_view (h : Handler) :
    (trackSubmission dir t h).2.view = h.view.set dir ((h.view.queue dir).track t) := view_setState _ _ _

section Submit

variable {v : View} {dir : Direction} {t : Transfer} {work : HandlerM Unit}

theorem preserveFailedSubmission_view (p : Progress) : Triple (fun h => h.view = v) (preserveFailedSubmission dir t p)
      (fun _ h => h.view = v ∨ h.view = v.set dir ((v.queue dir).track t) ∨ h.view = v.set dir ((v.queue dir).poison t))
      (fun _ _ => False) := by
  set Q : Unit → Handler → Prop := fun _ h =>
    h.view = v ∨ h.view = v.set dir ((v.queue dir).track t) ∨ h.view = v.set dir ((v.queue dir).poison t)
  have htrack : Triple (fun h => h.view = v) (trackSubmission dir t) Q (fun _ _ => False) := by
    rintro h rfl
    exact .inr (.inl (trackSubmission_view dir t h))
  have hpoison : Triple (fun h => h.view = v) (poison dir t) Q (fun _ _ => False) := by
    rintro h rfl
    exact .inr (.inr (view_setState _ _ _))
  have hrecycle : Triple (fun h => h.view = v) (recycleTransferResources dir t) Q (fun _ _ => False) := by
    rintro h rfl
    exact .inl (recycleTransferResources_keeps dir t h)
  refine .ite (fun _ => ?_) fun _ => .ite (fun _ => htrack) fun _ => hrecycle
  refine .bind (.attempt ((deviceCall_keeps _ _).triple (· = v))) fun res => ?_
  cases res with
  | ok _ => exact htrack
  | error _ =>
    refine .bind (.attempt ((deviceCall_keeps _ _).triple (· = v))) fun res => ?_
    cases res with
    | ok _ => exact hrecycle
    | error _ => exact hpoison

theorem submit_view (hclosed : v.closed = false) (hpoisoned : (v.queue dir).poisoned = false)
    (ht : Transfer.New t.jobId true t) (hwork : Keeps Handler.view work) :
    SubmitsJob dir t.jobId true v (submit dir t work) := by
  refine .bind (.attempt ((submissionBody_keeps hwork).triple (· = v))) fun res => ?_
  cases res with
  | ok _ =>
    refine .bind (Q := fun _ h => Accepted dir t.jobId v h.view) ?_ fun _ => .pure _ fun _ h => ⟨rfl, h⟩
    rintro h rfl
    exact ⟨hclosed, hpoisoned, t, ht, trackSubmission_view dir t h⟩
  | error e =>
    have hfailed : Transfer.New t.jobId false { t with success := false } := ⟨rfl, rfl, ht.synced⟩
    refine .bind (Q := fun _ h => Refused dir t.jobId v h.view)
      ((preserveFailedSubmission_view _).conseq (fun _ h => h) (fun _ h hview => ?_) fun _ _ => False.elim)
      fun _ => .raise _ fun _ h => h
    rcases hview with hview | hview
    · exact .inl hview
    · exact .inr ⟨hclosed, hpoisoned, _, hfailed, hview⟩

theorem acquireAsyncResources_view (dir : Direction) (wait : Bool) :
    Triple (fun h => h.view = v) (acquireAsyncResources dir wait)
      (fun _ h => h.view = v ∧ (v.queue dir).poisoned = false) (fun _ h => h.view = v) := by
  intro h hview
  have hkeep := acquireAsyncResources_keeps dir wait h
  cases hpoisoned : (v.queue dir).poisoned with
  | true =>
    have hraise : acquireAsyncResources dir wait h = (.error .poisoned, h) := by
      have hstate : (h.state dir).poisoned = true := by
        rw [← hpoisoned, ← hview]
        rfl
      change (require (!(h.state dir).poisoned) MappedError.poisoned >>= _) h = _
      rw [hstate]
      rfl
    rw [hraise]
    exact hview
  | false =>
    split
    · rename_i hres
      rw [hres] at hkeep
      exact ⟨hkeep.trans hview, rfl⟩
    · rename_i hres
      rw [hres] at hkeep
      exact hkeep.trans hview

end Submit

section Calls

variable {v : View} (jobId : Int) (src dst : LoadStoreSpec)

theorem submitStore_view : SubmitsJob .store jobId true v (submitStore jobId src dst) := by
  have hsame : ∀ (_ : MappedError) (h : Handler), h.view = v → Refused .store jobId v h.view := fun _ _ => .inl
  refine start_triple hsame fun h plan hview hopen _ _ => ?_
  have hopen : v.closed = false := hview ▸ hopen
  refine .bind (((prepareStoreDescriptors_keeps plan).triple (· = v)).mono_error hsame) fun buffers => ?_
  refine .bind ((acquireAsyncResources_view .store true).mono_error hsame) fun resources => ?_
  refine .get_bind fun h hv => .of_eq (P := fun h => h.view = v) ?_ hv.1
  refine submit_view hopen hv.2 ⟨rfl, rfl, rfl⟩ ?_
  exact .ite (deviceCall_keeps _ _) (.pure _)

theorem submitLoad_view : SubmitsJob .load jobId true v (submitLoad jobId src dst) := by
  have hsame : ∀ (_ : MappedError) (h : Handler), h.view = v → Refused .load jobId v h.view := fun _ _ => .inl
  refine start_triple hsame fun h plan hview hopen _ _ => ?_
  have hopen : v.closed = false := hview ▸ hopen
  refine .require_bind (fun _ _ => .inl) fun _ => ?_
  refine .bind (((acquireLoadIds_keeps plan _).triple (· = v)).mono_error hsame) fun ids => ?_
  refine .bind ((acquireAsyncResources_view .load false).mono_error hsame) fun resources => ?_
  refine .get_bind fun h hv => .of_eq (P := fun h => h.view = v) ?_ hv.1
  exact submit_view hopen hv.2 ⟨rfl, rfl, rfl⟩ (loadWork_keeps _ _ _)

end Calls

/-! ## Transfers that leave a queue -/

/-- The transfers `done` leave the queue from the front, with their entries in the index. -/
structure Takes (q : Queue) (done : List Transfer) (q' : Queue) : Prop where
  transfers : q.transfers = done ++ q'.transfers
  events : ∀ job event, q'.transferEvents.get? job = some event →
    q.transferEvents.get? job = some event ∧ job ∉ done.map (·.jobId)
  rest : q'.transfers ≠ [] → q'.poisoned = q.poisoned ∧
    ∀ job, job ∉ done.map (·.jobId) → q'.transferEvents.get? job = q.transferEvents.get? job

theorem Takes.refl (q : Queue) : Takes q [] q := ⟨rfl, fun _ _ h => ⟨h, not_mem_nil⟩, fun _ => ⟨rfl, fun _ _ => rfl⟩⟩

theorem Takes.trans {q q' q'' : Queue} {done more : List Transfer} (h : Takes q done q') (h' : Takes q' more q'') :
    Takes q (done ++ more) q'' := by
  constructor
  case transfers => rw [h.transfers, h'.transfers, append_assoc]
  case events =>
    intro job event hget
    obtain ⟨hget, hmore⟩ := h'.events job event hget
    obtain ⟨hget, hdone⟩ := h.events job event hget
    exact ⟨hget, by simp_all⟩
  case rest =>
    intro hne
    have hne' : q'.transfers ≠ [] := by
      rw [h'.transfers]
      exact append_ne_nil_of_right_ne_nil _ hne
    obtain ⟨hpoisoned, hrest⟩ := h.rest hne'
    obtain ⟨hpoisoned', hrest'⟩ := h'.rest hne
    refine ⟨hpoisoned'.trans hpoisoned, fun job hjob => ?_⟩
    rw [map_append, mem_append, not_or] at hjob
    rw [hrest' job hjob.2, hrest job hjob.1]

def Queue.pop (q : Queue) (t : Transfer) : Queue := ⟨q.transferEvents.erase t.jobId, q.transfers.tail, q.poisoned⟩

theorem Takes.pop {q : Queue} {t : Transfer} {rest : List Transfer} (h : q.transfers = t :: rest) :
    Takes q [t] (q.pop t) := by
  constructor
  case transfers => simp [Queue.pop, h]
  case events =>
    intro job event hget
    unfold Queue.pop at hget
    rw [get?_erase] at hget
    split at hget
    · cases hget
    · rename_i hne
      exact ⟨hget, by simpa using Ne.symm hne⟩
  case rest =>
    intro _
    refine ⟨rfl, fun job hjob => ?_⟩
    unfold Queue.pop
    rw [get?_erase, if_neg]
    rintro rfl
    exact hjob (by simp)

def Calm (h : Handler) : Prop := ∀ outcome ∈ h.outcomes, outcome = Outcome.succeeds

theorem Calm.headD (hc : Calm h) : h.outcomes.headD .succeeds = .succeeds := by
  cases hout : h.outcomes with
  | nil => rfl
  | cons outcome rest => exact hc outcome (by simp [hout])

theorem Calm.tick (hc : Calm h) : Calm h.tick := fun outcome houtcome => hc outcome (mem_of_mem_tail houtcome)

theorem deviceCall_calm {P : Handler → Prop} {Q : Unit → Handler → Prop} {E : MappedError → Handler → Prop}
    {work late : Device → Device} (hcalm : ∀ h, P h → Calm h) (hok : ∀ h, P h → Q () (h.tick.onDevice work)) :
    Triple P (deviceCall work late) Q E := by
  intro h hP
  unfold deviceCall
  rw [(hcalm h hP).headD]
  exact hok h hP

/-! ### Completed events -/

theorem completed_le_advance (d : Device) (streams : List Nat) (stream : Nat) :
    d.completed stream ≤ (d.advance streams).completed stream := by
  unfold advance
  have hfold : ∀ completed : Nat → Nat, completed stream ≤ streams.foldl (fun completed stream =>
      if completed stream < d.enqueued stream then update completed stream (completed stream + 1)
      else completed) completed stream := by
    induction streams with
    | nil => exact fun _ => le_rfl
    | cons s streams ih =>
      intro completed
      refine le_trans ?_ (ih _)
      dsimp only
      split
      · by_cases hs : stream = s
        · subst hs
          simp
        · simp [update_of_ne hs]
      · exact le_rfl
  exact hfold d.completed

theorem isComplete_advance {d : Device} {event : Nat} (h : d.isComplete event = true) (streams : List Nat) :
    (d.advance streams).isComplete event = true := by
  have hrecorded : (d.advance streams).recorded event = d.recorded event := rfl
  unfold isComplete at h ⊢
  rw [hrecorded]
  cases hrec : d.recorded event with
  | none => rfl
  | some mark =>
    rw [hrec] at h
    have hle := completed_le_advance d streams mark.1
    simp only [decide_eq_true_eq] at h ⊢
    omega

theorem isComplete_observeEvent_self (d : Device) (event : Nat) : (d.observeEvent event).isComplete event = true := by
  unfold isComplete
  rw [observeEvent_recorded]
  unfold observeEvent
  split <;> simp

theorem isComplete_observeEvent {d : Device} {event : Nat} (h : d.isComplete event = true) (other : Nat) :
    (d.observeEvent other).isComplete event = true := by
  unfold isComplete at h ⊢
  rw [observeEvent_recorded]
  split at h
  · rfl
  · rename_i stream pos _
    simp only [decide_eq_true_eq] at h ⊢
    unfold observeEvent
    split
    · exact h
    · rename_i stream' pos' hrec'
      by_cases hs : stream = stream'
      · subst hs
        simp
        omega
      · simpa [update_of_ne hs] using h

/-! ### The loop -/

structure Polling (complete : Nat → Prop) (v : View) (h : Handler) : Prop where
  calm : Calm h
  view : h.view = v
  complete : ∀ event, complete event → h.device.isComplete event = true

def Stuck (complete : Nat → Prop) (q : Queue) : Prop :=
  ∀ t ∈ q.transfers.head?, t.needsStreamSync = false → ¬ complete t.endEvent

def Transfer.result (t : Transfer) : TransferResult := ⟨t.jobId, t.success, t.numBytes⟩

section Polling

variable {complete : Nat → Prop} {v : View} {dir : Direction} {t : Transfer}

variable {h : Handler}

theorem Polling.tick (hp : Polling complete v h) : Polling complete v h.tick where
  calm := hp.calm.tick
  view := hp.view
  complete event hevent := isComplete_advance (hp.complete event hevent) _

theorem Polling.observe (hp : Polling complete v h) (event : Nat) :
    Polling complete v (h.onDevice (·.observeEvent event)) where
  calm := hp.calm
  view := hp.view
  complete event' hevent' := isComplete_observeEvent (hp.complete event' hevent') event

theorem queryEvent_polling (event : Nat) : Triple (Polling complete v) (queryEvent event)
      (fun result h => Polling complete v h ∧ (result = false → ¬ complete event)) (fun _ _ => False) := by
  refine .bind (deviceCall_calm (Q := fun _ => Polling complete v) (fun _ hp => hp.calm) fun _ hp => hp.tick)
    fun _ => .get_bind fun h hp => .ite (fun _ => ?_) fun hnot => ?_
  · refine .bind (Q := fun _ => Polling complete v) (.modify _ ?_) fun _ => .pure _ fun _ hp => ⟨hp, nofun⟩
    rintro h rfl
    exact hp.observe event
  · rintro h rfl
    exact ⟨hp, fun _ hevent => hnot (hp.complete event hevent)⟩

theorem Polling.change {h' : Handler} {v' : View} (hp : Polling complete v h) (houtcomes : h'.outcomes = h.outcomes)
    (hdevice : h'.device = h.device) (hview : h'.view = v') : Polling complete v' h' where
  calm := by
    unfold Calm
    rw [houtcomes]
    exact hp.calm
  view := hview
  complete := by
    rw [hdevice]
    exact hp.complete

theorem recycleTransferResources_polling :
    Triple (Polling complete v) (recycleTransferResources dir t) (fun _ => Polling complete v) (fun _ _ => False) := by
  refine .modify _ fun h hp => ?_
  have hview := (recycleTransferResources_keeps dir t h).trans hp.view
  refine hp.change ?_ ?_ hview
  · rw [(recycleBuffers_same t _).2]
    cases dir <;> rfl
  · rw [(recycleBuffers_spec _ t).rest.device]
    cases dir <;> rfl

theorem setState_polling {f : Handler → AsyncState} {q : Queue} (hf : ∀ h, h.view = v → (f h).queue = q) :
    Triple (Polling complete v) (Exec.modify fun h => h.setState dir (f h) : HandlerM Unit)
      (fun _ => Polling complete (v.set dir q)) (fun _ _ => False) := by
  refine .modify _ fun h hp => hp.change ?_ (setState_device h dir _) ?_
  · cases dir <;> rfl
  · rw [view_setState, hf h hp.view, hp.view]

theorem queue_of_view (hview : h.view = v) (dir : Direction) : (h.state dir).queue = v.queue dir := by
  rw [← hview]
  rfl

theorem queue_erase {q : Queue} (hview : h.view = v.set dir ⟨q.transferEvents, q.transfers.tail, q.poisoned⟩) :
    ({ h.state dir with transferEvents := (h.state dir).transferEvents.erase t.jobId } : AsyncState).queue = q.pop t := by
  have hq := queue_of_view hview dir
  rw [View.set_queue] at hq
  change (⟨(h.state dir).queue.transferEvents.erase t.jobId, (h.state dir).queue.transfers,
    (h.state dir).queue.poisoned⟩ : Queue) = _
  rw [hq]
  rfl

theorem reportHead_polling : Triple (Polling complete v) (reportHead dir t)
      (fun result h => result = t.result ∧ Polling complete (v.set dir ((v.queue dir).pop t)) h) (fun _ _ => False) := by
  let q : Queue := ⟨(v.queue dir).transferEvents, (v.queue dir).transfers.tail, (v.queue dir).poisoned⟩
  refine .bind (setState_polling (q := q) fun h hview => ?_) fun _ => ?_
  · subst hview
    rfl
  refine .bind (deviceCall_calm (Q := fun _ => Polling complete (v.set dir q)) (fun _ hp => hp.calm)
    fun _ hp => hp.tick) fun _ => ?_
  refine .bind recycleTransferResources_polling fun _ => ?_
  refine .bind (setState_polling (q := (v.queue dir).pop t) fun h => queue_erase) fun _ => ?_
  refine .pure _ fun h hp => ⟨rfl, ?_⟩
  rwa [View.set_set] at hp

theorem finishHead_polling :
    Triple (Polling complete v) (finishHead dir)
      (fun result h => match result with
        | none => Polling complete v h ∧ Stuck complete (v.queue dir)
        | some result => ∃ t q, Takes (v.queue dir) [t] q ∧ t.needsStreamSync = false ∧ result = t.result ∧
          Polling complete (v.set dir q) h)
      (fun _ _ => False) := by
  refine .get_keep fun h hp => ?_
  have htransfers : (v.queue dir).transfers = (h.state dir).transfers :=
    congrArg Queue.transfers (queue_of_view hp.view dir).symm
  split
  · rename_i hnil
    refine .pure _ fun _ hp => ⟨hp, ?_⟩
    unfold Stuck
    rw [htransfers, hnil]
    nofun
  · rename_i t rest hcons
    have hhead : ∀ t' ∈ (v.queue dir).transfers.head?, t' = t := by
      intro t' ht'
      rw [htransfers, hcons] at ht'
      exact (Option.some_inj.mp ht').symm
    refine .ite (fun hsync => .pure _ fun _ hp => ⟨hp, fun t' ht' hsynced => ?_⟩) fun hsync => ?_
    · rw [hhead t' ht', hsync] at hsynced
      cases hsynced
    refine .bind (queryEvent_polling t.endEvent) fun result => .ite (fun _ => ?_) fun hfalse => ?_
    · refine .bind ((reportHead_polling (v := v)).of_pre fun _ hp => hp.1)
        fun result => .pure _ fun h' hp' => ?_
      exact ⟨t, _, .pop (htransfers.trans hcons), by simpa using hsync, hp'.1, hp'.2⟩
    · refine .pure _ fun h' hp' => ⟨hp'.1, fun t' ht' _ => ?_⟩
      rw [hhead t' ht']
      exact hp'.2 (by simpa using hfalse)

theorem finishQueue_polling (fuel : Nat) (hfuel : (v.queue dir).transfers.length ≤ fuel) :
    Triple (Polling complete v) (finishQueue dir fuel)
      (fun results h => ∃ done q, Takes (v.queue dir) done q ∧ (∀ t ∈ done, t.needsStreamSync = false) ∧
        results = done.map Transfer.result ∧ Polling complete (v.set dir q) h ∧ Stuck complete q)
      (fun _ _ => False) := by
  induction fuel generalizing v with
  | zero =>
    refine .pure _ fun h hp => ⟨[], v.queue dir, .refl _, nofun, rfl, ?_, ?_⟩
    · rwa [View.set_self]
    · unfold Stuck
      rw [length_eq_zero_iff.mp (Nat.le_zero.mp hfuel)]
      nofun
  | succ fuel ih =>
    refine .bind finishHead_polling fun result => ?_
    cases result with
    | none =>
      refine .pure _ fun h hp => ⟨[], v.queue dir, .refl _, nofun, rfl, ?_, hp.2⟩
      rw [View.set_self]
      exact hp.1
    | some result =>
      rintro h ⟨t, q, htakes, hsync, rfl, hp⟩
      have hlength : ((v.set dir q).queue dir).transfers.length ≤ fuel := by
        have := congrArg length htakes.transfers
        simp at this ⊢
        omega
      refine (bind (ih hlength) fun results => pure _ ?_) h hp
      rintro h' ⟨done, q', htakes', hdone, rfl, hp', hstuck⟩
      rw [View.set_queue] at htakes'
      rw [View.set_set] at hp'
      exact ⟨t :: done, q', htakes.trans htakes', forall_mem_cons.mpr ⟨hsync, hdone⟩, rfl, hp', hstuck⟩

theorem getFinished_polling : Triple (Polling complete v) getFinished
      (fun results h => ∃ done : Direction → List Transfer, (∀ dir, Takes (v.queue dir) (done dir) (h.view.queue dir)) ∧
        (∀ dir, ∀ t ∈ done dir, t.needsStreamSync = false) ∧
        results = (done .store ++ done .load).map Transfer.result ∧ (∀ dir, Stuck complete (h.view.queue dir)) ∧
        v.SameLayout h.view) (fun _ _ => False) := by
  refine .get_keep fun h hp => ?_
  have hlength : ∀ dir, (v.queue dir).transfers.length ≤ (h.state dir).transfers.length := by
    intro dir
    rw [← queue_of_view hp.view dir]
    exact le_rfl
  refine .bind (finishQueue_polling _ (hlength .store)) fun stored => ?_
  rintro h₁ ⟨done, q, htakes, hsync, rfl, hp₁, hstuck⟩
  have hload : (v.set .store q).queue .load = v.queue .load := View.set_queue_other v (by decide) q
  refine (bind (@finishQueue_polling complete (v.set .store q) .load _ (hload ▸ hlength .load))
    fun loaded => .pure _ ?_) h₁ hp₁
  rintro h₂ ⟨done', q', htakes', hsync', rfl, hp₂, hstuck'⟩
  have hstore : ((v.set .store q).set .load q').queue .store = q := by
    rw [View.set_queue_other _ (by decide), View.set_queue]
  rw [hp₂.view]
  refine ⟨fun dir => dir.rec done done', ?_, ?_, map_append.symm, ?_, ⟨rfl, rfl, rfl, rfl⟩⟩
  · rintro (_ | _)
    · rwa [hstore]
    · rwa [View.set_queue]
  · rintro (_ | _)
    · exact hsync
    · exact hsync'
  · rintro (_ | _)
    · rwa [hstore]
    · rwa [View.set_queue]

end Polling

/-! ## Waiting -/

def Known (v : View) (complete : Nat → Prop) (h : Handler) : Prop :=
  h.view = v ∧ ∀ event, complete event → h.device.isComplete event = true

section Wait

variable {v : View} {complete : Nat → Prop} {dir : Direction}

theorem waitJob_known (job : Int) : Triple (Known v complete) (waitJob dir job)
      (fun _ => Known v fun event => complete event ∨ (v.queue dir).transferEvents.get? job = some event)
      (fun _ _ => True) := by
  refine .get_keep fun h hk => ?_
  have hevents : (h.state dir).transferEvents = (v.queue dir).transferEvents :=
    congrArg Queue.transferEvents (queue_of_view hk.1 dir)
  rw [hevents]
  split
  · rename_i event hget
    refine deviceCall_triple (fun h hk => ⟨hk.1, fun e he => isComplete_advance (hk.2 e he) _⟩) (fun h hk => ⟨hk.1, ?_⟩)
      (fun _ _ _ => trivial) fun _ _ _ => trivial
    rintro e (he | he)
    · exact isComplete_observeEvent (hk.2 e he) event
    · rw [hget, Option.some_inj] at he
      subst he
      exact isComplete_observeEvent_self h.device event
  · rename_i hget
    refine .pure _ fun h hk => ⟨hk.1, ?_⟩
    rintro e (he | he)
    · exact hk.2 e he
    · rw [hget] at he
      cases he

theorem waitJobs_known (jobIds : List Int) : Triple (Known v complete) (forEach jobIds (waitJob dir))
      (fun _ => Known v fun event => complete event ∨ ∃ job ∈ jobIds, (v.queue dir).transferEvents.get? job = some event)
      (fun _ _ => True) := by
  induction jobIds generalizing complete with
  | nil => exact .pure _ fun h hk => ⟨hk.1, fun e he => hk.2 e (by simpa using he)⟩
  | cons job rest ih =>
    refine (bind (waitJob_known job) fun _ => ih).conseq (fun _ h => h) (fun _ h hk => ⟨hk.1, ?_⟩) fun _ _ h => h
    intro e he
    exact hk.2 e (by simpa [or_assoc] using he)

theorem wait_known (jobIds : List Int) : Triple (fun h => h.view = v) (wait jobIds)
      (fun _ => Known v fun event => ∃ dir, ∃ job ∈ jobIds, (v.queue dir).transferEvents.get? job = some event)
      (fun _ _ => True) := by
  have hstart : ∀ h : Handler, h.view = v → Known v (fun _ => False) h := fun _ hview => ⟨hview, fun _ => False.elim⟩
  refine (bind (waitJobs_known jobIds) fun _ => waitJobs_known jobIds).conseq hstart
    (fun _ h hk => ⟨hk.1, ?_⟩) fun _ _ h => h
  rintro e ⟨_ | _, hjob⟩
  · exact hk.2 e (.inl (.inr hjob))
  · exact hk.2 e (.inr hjob)

end Wait

/-! ## Shutdown -/

def Shuts (v v' : View) : Prop :=
  ∃ done : Direction → List Transfer, (∀ dir, Takes (v.queue dir) (done dir) (v'.queue dir)) ∧
    (v'.closed = true ∨ v.SameLayout v')

section Shutdown

variable {v : View} {dir : Direction}

def DrainedTo (v : View) (dir : Direction) (rest : List Transfer) (h : Handler) : Prop :=
  ∃ done q, Takes (v.queue dir) done q ∧ q.transfers = rest ∧ h.view = v.set dir q

theorem setState_triple {f : Handler → AsyncState} {q : Queue} {E : MappedError → Handler → Prop}
    (hf : ∀ h, h.view = v → (f h).queue = q) :
    Triple (fun h => h.view = v) (Exec.modify fun h => h.setState dir (f h) : HandlerM Unit)
      (fun _ h => h.view = v.set dir q) E := by
  refine .modify _ fun h hview => ?_
  rw [view_setState, hf h hview, hview]

theorem Shuts.of_takes {done : List Transfer} {q : Queue} (htakes : Takes (v.queue dir) done q) : Shuts v (v.set dir q) := by
  refine ⟨update (fun _ => []) dir done, fun dir' => ?_, .inr ⟨rfl, rfl, rfl, rfl⟩⟩
  by_cases hdir : dir' = dir
  · subst hdir
    rwa [update_self, View.set_queue]
  · rw [update_of_ne hdir, View.set_queue_other v hdir]
    exact .refl _

theorem drainHead_view (t : Transfer) (rest : List Transfer) :
    Triple (DrainedTo v dir (t :: rest)) (drainHead dir t) (fun _ => DrainedTo v dir rest)
      (fun _ h => Shuts v h.view) := by
  rintro h ⟨done, q, htakes, hcons, hview⟩
  have hsync : Keeps view (synchronizeTransfer t) := .ite (deviceCall_keeps _ _) (deviceCall_keeps _ _)
  let q' : Queue := ⟨q.transferEvents, q.transfers.tail, q.poisoned⟩
  have hpops : Triple (fun h => h.view = v.set dir q) (drainHead dir t) (fun _ h => h.view = v.set dir (q.pop t))
      (fun _ h => h.view = v.set dir q) := by
    refine .bind (hsync.triple (· = v.set dir q)) fun _ => ?_
    refine .bind (setState_triple (q := q') fun h hview => ?_) fun _ => ?_
    · have hq := queue_of_view hview dir
      rw [View.set_queue] at hq
      subst hq
      rfl
    · refine (setState_triple (q := q.pop t) fun h => queue_erase).conseq (fun _ h => h) (fun _ h hview => ?_) fun _ _ h => h
      rwa [View.set_set, View.set_set] at hview
  refine hpops.conseq (fun _ h => h) (fun _ h' hview' => ?_) (fun _ h' hview' => ?_) h hview
  · exact ⟨_, _, htakes.trans (.pop hcons), by simp [Queue.pop, hcons], hview'⟩
  · rw [hview']
    exact .of_takes htakes

theorem drainQueue_view :
    Triple (fun h => h.view = v) (drainQueue dir) (fun _ => DrainedTo v dir []) (fun _ h => Shuts v h.view) := by
  refine .get_keep fun h hview => ?_
  refine bind ((forEach drainHead_view (h.state dir).transfers).of_pre fun h' hview' => ?_)
    fun _ => ?_
  · refine ⟨[], v.queue dir, .refl _, ?_, by rw [hview', View.set_self]⟩
    rw [← queue_of_view hview dir]
    rfl
  · rintro h' ⟨done, q, htakes, hnil, hview'⟩
    -- The flag is cleared with the queue empty.
    let q' : Queue := ⟨q.transferEvents, q.transfers, false⟩
    have hclear : Takes q [] q' := ⟨rfl, fun _ _ h => ⟨h, not_mem_nil⟩, fun hne => absurd hnil hne⟩
    refine ⟨_, q', htakes.trans hclear, hnil, ?_⟩
    have hq := queue_of_view hview' dir
    rw [View.set_queue] at hq
    rw [view_setState, hview', View.set_set]
    subst hq
    rfl

theorem shutdown_view :
    Triple (fun h => h.view = v) shutdown (fun _ h => Shuts v h.view) (fun _ h => Shuts v h.view) := by
  have hsame : ∀ h : Handler, h.view = v → Shuts v h.view := by
    rintro h rfl
    exact ⟨fun _ => [], fun _ => .refl _, .inr ⟨rfl, rfl, rfl, rfl⟩⟩
  refine .get_keep fun h hview => ?_
  refine .ite (fun _ => .pure _ hsame) fun _ => .bind drainQueue_view fun _ => ?_
  rintro h₁ ⟨done, q, htakes, hnil, hview₁⟩
  have hload : (v.set .store q).queue .load = v.queue .load := View.set_queue_other v (by decide) q
  -- The shutdown of what is left after the first queue is one of the whole.
  have hrest : ∀ v', Shuts (v.set .store q) v' → Shuts v v' := by
    rintro v' ⟨done', htakes', hlayout⟩
    refine ⟨fun dir => dir.rec (done ++ done' .store) (done' .load), ?_, ?_⟩
    · rintro (_ | _)
      · have hstore := htakes' .store
        exact htakes.trans hstore
      · exact htakes' .load
    · exact hlayout.imp_right fun h => ⟨h.closed, h.groups, h.cpuTensors, h.npuTensors⟩
  refine (bind ((@drainQueue_view (v.set .store q) .load).mono_error fun _ h => hrest h.view) fun _ => ?_)
    h₁ hview₁
  rintro h₂ ⟨done', q', htakes', hnil', hview₂⟩
  have hdrained : Shuts v h₂.view := by
    rw [hview₂]
    exact hrest _ (.of_takes htakes')
  refine (bind ((closeMappedPool_keeps.triple (· = h₂.view)).mono_error fun _ h hview => ?_) fun _ => ?_) h₂ rfl
  · rw [hview]
    exact hdrained
  · refine .modify _ fun h₃ hview₃ => ?_
    obtain ⟨done₂, htakes₂, -⟩ := hdrained
    refine ⟨done₂, fun dir => ?_, .inl rfl⟩
    have hempty : (h₂.view.queue dir).transfers = [] := by
      rw [hview₂]
      cases dir
      · exact hnil
      · exact hnil'
    have hclosed : (h₃.close.view.queue dir).transfers = [] := by
      rw [← hempty, ← hview₃]
      cases dir <;> rfl
    have hevents : (h₃.close.view.queue dir).transferEvents = ∅ := by cases dir <;> rfl
    have hclose : Takes (h₂.view.queue dir) [] (h₃.close.view.queue dir) := by
      refine ⟨by rw [hempty, hclosed]; rfl, fun job event hget => ?_, fun hne => absurd hclosed hne⟩
      rw [hevents] at hget
      cases hget
    have := (htakes₂ dir).trans hclose
    rwa [append_nil] at this

end Shutdown

theorem registerMappedPool_keeps (handle : Nat → Option Int) : Keeps Handler.view (registerMappedPool handle) := by
  have htensor : ∀ tensorIdx, Keeps view (registerTensor handle tensorIdx) := by
    intro tensorIdx
    unfold registerTensor
    split
    · exact .raise _
    · exact .bind require fun _ => .modify fun _ => rfl
  refine .bind get fun _ => .bind (.attempt (.forEach htensor)) fun res => ?_
  cases res with
  | ok _ => exact .pure _
  | error _ => exact .bind (.attempt closeMappedPool_keeps) fun _ => .raise _

theorem construct_view {args : HandlerArgs} (hc : construct args = .ok h) :
    ∃ npuTensors, args.tensors.mapM npuTensor = .ok npuTensors ∧
      validateMappedGatherLayout npuTensors (args.tensors.map (cpuTensor args.numCpuBlocks)) args.groups = .ok () ∧
      h.view = ⟨false, args.groups, args.tensors.map (cpuTensor args.numCpuBlocks), npuTensors, fun _ => ⟨∅, [], false⟩⟩ := by
  obtain ⟨npuTensors, hnpu, hvalid, hreg⟩ := construct_ok hc
  refine ⟨npuTensors, hnpu, hvalid, ?_⟩
  have hview := congrArg Prod.snd hreg
  dsimp only at hview
  rw [← hview, registerMappedPool_keeps args.handle _]
  unfold view
  congr 1
  funext dir
  cases dir <;> rfl

end VllmAscend.KvOffload.Mapped
