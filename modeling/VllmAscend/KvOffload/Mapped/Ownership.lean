import VllmAscend.KvOffload.Mapped.Handler

/-!
# Who owns the streams, events and buffers of the mapped handler

Every stream, event and buffer is in a reuse pool, in a queued transfer, or in the hands of the call that runs, and
in one of these places only.
-/

namespace VllmAscend.KvOffload.Mapped

open Exec List Function

/-! ## Resources -/

inductive ResourceKind
  | stream | event | descriptors | mappedIds
deriving DecidableEq, Repr

abbrev Resources := ResourceKind → List Nat

def Transfer.resources (t : Transfer) : Resources
  | .stream => [t.stream]
  | .event => [t.endEvent, t.startEvent]
  | .descriptors => (t.descriptors.map (·.id)).toList
  | .mappedIds => (t.mappedIds.map (·.id)).toList

def AsyncState.pooled (state : AsyncState) : Resources
  | .stream => state.streamPool
  | .event => state.eventPool
  | _ => []

def Handler.bufferPool (h : Handler) : Resources
  | .descriptors => h.storeDescriptorPool.map (·.id)
  | .mappedIds => h.loadIdPool.map (·.id)
  | _ => []

def Handler.pooled (h : Handler) : Resources := fun k =>
  h.storeState.pooled k ++ h.loadState.pooled k ++ h.bufferPool k

def Handler.inUse (h : Handler) : Resources := fun k => h.queued.flatMap (·.resources k)

def Resources.add (r : Resources) (k : ResourceKind) (x : Nat) : Resources := fun k' =>
  if k' = k then x :: r k' else r k'

theorem Resources.count_add (r : Resources) (k k' : ResourceKind) (x y : Nat) :
    (r.add k x k').count y = (r k').count y + if k' = k ∧ x = y then 1 else 0 := by
  unfold Resources.add
  by_cases hk : k' = k
  · simp [hk, count_cons]
  · simp [hk]

def Resources.none : Resources := fun _ => []

def EndSeen (d : Device) (t : Transfer) : Prop :=
  d.recorded t.endEvent = some (t.stream, d.enqueued t.stream) ∧ d.seen t.endEvent = true

def Synchronized (d : Device) (t : Transfer) : Prop := d.synced t.stream = some (d.enqueued t.stream)

def NothingEnqueued (d : Device) (t : Transfer) : Prop := d.enqueued t.stream = t.base

def Reusable (d : Device) (t : Transfer) : Prop := EndSeen d t ∨ Synchronized d t ∨ NothingEnqueued d t

def Device.Quiet (d : Device) (stream : Nat) : Prop := d.enqueued stream ≤ d.observed stream

namespace Device

variable (d : Device) (event : Nat)

@[simp] theorem observeEvent_enqueued : (d.observeEvent event).enqueued = d.enqueued := by
  unfold observeEvent
  split <;> rfl

@[simp] theorem observeEvent_recorded : (d.observeEvent event).recorded = d.recorded := by
  unfold observeEvent
  split <;> rfl

theorem observed_le_observeEvent (stream : Nat) : d.observed stream ≤ (d.observeEvent event).observed stream := by
  unfold observeEvent
  split
  · exact le_rfl
  · rename_i st pos _
    by_cases hst : stream = st
    · subst hst
      simp
    · simp [update_of_ne hst]

end Device

theorem endSeen_observeEvent {d : Device} {t : Transfer}
    (hrec : d.recorded t.endEvent = some (t.stream, d.enqueued t.stream)) :
    EndSeen (d.observeEvent t.endEvent) t ∧ (d.observeEvent t.endEvent).Quiet t.stream := by
  refine ⟨⟨by simpa using hrec, ?_⟩, ?_⟩
  · simp [Device.observeEvent, hrec]
  · simp [Device.Quiet, Device.observeEvent, hrec]

structure Leases where
  registered : List Int
  unregistered : List Int
  mappedHandles : List Int
  gathers : List (Nat × List Int)

def Handler.leases (h : Handler) : Leases := ⟨h.registered, h.unregistered, h.mappedHandles, h.gathers⟩

def Leases.gather (l : Leases) (tensor : Nat) : Leases :=
  { l with gathers := l.gathers ++ [(tensor, l.unregistered)] }

/-! ## The invariant -/

/-- `mine` is what the running call holds and `busy` the stream it has enqueued work on. `G` is
any property of the leases. -/
structure Inv (G : Leases → Prop) (mine : Resources) (busy : Option Nat) (h : Handler) :
    Prop where
  owned : ∀ k x, (h.pooled k).count x + (h.inUse k).count x + (mine k).count x ≤
    if x < h.fresh then 1 else 0
  tracked : ∀ t ∈ h.queued, t.needsStreamSync = false →
    h.device.recorded t.endEvent = some (t.stream, h.device.enqueued t.stream)
  quiet : ∀ stream, ¬ h.device.Quiet stream →
    (∃ t ∈ h.queued, t.stream = stream) ∨ busy = some stream
  recycled : ∀ r ∈ h.recycled, Reusable r.2 r.1
  origin : ∀ k, ∀ x ∈ h.pooled k, ∃ r ∈ h.recycled, x ∈ r.1.resources k
  unregisterCalls : ∀ c ∈ h.unregisterCalls, c.1 = [] ∧ ∀ stream, c.2.Quiet stream
  leases : G h.leases

abbrev AtRest (G : Leases → Prop) : Handler → Prop := Inv G .none none

variable {G G' : Leases → Prop} {mine mine' : Resources} {busy : Option Nat} {h : Handler}

namespace Inv

section

variable (hi : Inv G mine busy h)

include hi

theorem tick : Inv G mine busy h.tick :=
  ⟨hi.owned, hi.tracked, hi.quiet, hi.recycled, hi.origin, hi.unregisterCalls, hi.leases⟩

theorem mono (hG : G h.leases → G' h.leases) : Inv G' mine busy h := { hi with leases := hG hi.leases }

theorem drop (hle : ∀ k x, (mine' k).count x ≤ (mine k).count x) : Inv G mine' busy h := by
  refine { hi with owned := ?_ }
  intro k x
  have := hi.owned k x
  have := hle k x
  omega

theorem drop_all : Inv G .none busy h := hi.drop fun k x => by simp [Resources.none]

theorem not_inUse {k : ResourceKind} {x : Nat} (hx : x ∈ mine k) : x ∉ h.inUse k := by
  intro hu
  have hmine := count_pos_iff.mpr hx
  have huse := count_pos_iff.mpr hu
  have howned := hi.owned k x
  split_ifs at howned <;> omega

theorem stream_ne {x : Nat} (hx : x ∈ mine .stream) {t : Transfer} (ht : t ∈ h.queued) : t.stream ≠ x := by
  rintro rfl
  exact hi.not_inUse hx (mem_flatMap.mpr ⟨t, ht, by simp [Transfer.resources]⟩)

theorem endEvent_ne {x : Nat} (hx : x ∈ mine .event) {t : Transfer} (ht : t ∈ h.queued) : t.endEvent ≠ x := by
  rintro rfl
  exact hi.not_inUse hx (mem_flatMap.mpr ⟨t, ht, by simp [Transfer.resources]⟩)

end

/-! ### Device work -/

section

variable (hi : Inv G mine busy h)

include hi

theorem launch_mine {stream : Nat} (hs : stream ∈ mine .stream)
    (hb : busy = none ∨ busy = some stream) : Inv G mine (some stream) (h.onDevice (·.launch stream)) := by
  refine { hi with tracked := ?_, quiet := ?_ }
  · intro t ht hsync
    have hne := hi.stream_ne hs ht
    simpa [Handler.onDevice, Device.launch, update_of_ne hne] using hi.tracked t ht hsync
  · intro st hq
    by_cases hst : st = stream
    · exact .inr (congrArg some hst.symm)
    · have hold : ¬ h.device.Quiet st := by
        simpa [Handler.onDevice, Device.launch, Device.Quiet, update_of_ne hst] using hq
      rcases hi.quiet st hold with ht | rfl
      · exact .inl ht
      · rcases hb with hb | hb
        · cases hb
        · exact absurd (Option.some.inj hb) hst

theorem record_mine {event stream : Nat} (he : event ∈ mine .event)
    (hs : stream ∈ mine .stream) (hb : busy = none ∨ busy = some stream) :
    Inv G mine (some stream) (h.onDevice (·.record event stream)) := by
  have hl := hi.launch_mine hs hb
  refine { hl with tracked := ?_ }
  intro t ht hsync
  have hne := hi.endEvent_ne he ht
  simpa [Handler.onDevice, Device.record, Device.launch, update_of_ne hne] using hl.tracked t ht hsync

theorem observe (event : Nat) : Inv G mine busy (h.onDevice (·.observeEvent event)) := by
  refine { hi with tracked := ?_, quiet := ?_ }
  · simpa [Handler.onDevice, Handler.queued] using hi.tracked
  · intro st hq
    apply hi.quiet st
    intro hold
    apply hq
    have := h.device.observed_le_observeEvent event st
    simp only [Device.Quiet, Handler.onDevice, Device.observeEvent_enqueued] at hold ⊢
    omega

theorem sync (stream : Nat) (hb : busy = none ∨ busy = some stream) :
    Inv G mine none (h.onDevice (·.syncStream stream)) := by
  refine { hi with tracked := hi.tracked, quiet := ?_ }
  intro st hq
  by_cases hst : st = stream
  · subst hst
    exact absurd (by simp [Handler.onDevice, Device.Quiet, Device.syncStream]) hq
  · have hold : ¬ h.device.Quiet st := by
      simpa [Handler.onDevice, Device.syncStream, Device.Quiet, update_of_ne hst] using hq
    rcases hi.quiet st hold with ht | rfl
    · exact .inl ht
    · rcases hb with hb | hb
      · cases hb
      · exact absurd (Option.some.inj hb) hst

end

end Inv

/-! ## The two directions -/

namespace Handler

def other : Direction → Direction
  | .store => .load
  | .load => .store

variable (h : Handler) (dir : Direction) (a : AsyncState) (k : ResourceKind) (x : Nat)

theorem count_pooled : (h.pooled k).count x = ((h.state dir).pooled k).count x +
    ((h.state (other dir)).pooled k).count x + (h.bufferPool k).count x := by
  unfold pooled
  cases dir <;> simp only [count_append, state, other]
  omega

theorem count_inUse : (h.inUse k).count x = ((h.state dir).transfers.flatMap (·.resources k)).count x +
      ((h.state (other dir)).transfers.flatMap (·.resources k)).count x := by
  unfold inUse queued
  cases dir <;> simp only [flatMap_append, count_append, state, other]
  omega

theorem mem_queued {t : Transfer} : t ∈ h.queued ↔
    t ∈ (h.state dir).transfers ∨ t ∈ (h.state (other dir)).transfers := by
  unfold queued
  cases dir <;> simp only [mem_append, state, other]
  exact or_comm

@[simp] theorem setState_state : (h.setState dir a).state dir = a := by cases dir <;> rfl

@[simp] theorem setState_other : (h.setState dir a).state (other dir) = h.state (other dir) := by cases dir <;> rfl

@[simp] theorem setState_bufferPool : (h.setState dir a).bufferPool = h.bufferPool := by cases dir <;> rfl

@[simp] theorem setState_device : (h.setState dir a).device = h.device := by cases dir <;> rfl

@[simp] theorem setState_recycled : (h.setState dir a).recycled = h.recycled := by cases dir <;> rfl

end Handler

open Handler

/-! ## Resources change hands -/

structure SameRest (h h' : Handler) : Prop where
  device : h'.device = h.device
  fresh : h'.fresh = h.fresh
  unregisterCalls : h'.unregisterCalls = h.unregisterCalls
  leases : h'.leases = h.leases

theorem sameRest_setState (h : Handler) (dir : Direction) (a : AsyncState) : SameRest h (h.setState dir a) := by
  cases dir <;> exact ⟨rfl, rfl, rfl, rfl⟩

namespace Inv

variable {h' : Handler} {t : Transfer}

theorem take (hi : Inv G mine busy h) {k₀ : ResourceKind} {x₀ : Nat} (hr : SameRest h h')
    (hrec : h'.recycled = h.recycled) (hq : h'.queued = h.queued)
    (hcount : ∀ k x, (h'.pooled k).count x + (if k = k₀ ∧ x₀ = x then 1 else 0) ≤
      (h.pooled k).count x) : Inv G (mine.add k₀ x₀) busy h' where
  owned k x := by
    have := hi.owned k x
    have := hcount k x
    have huse : h'.inUse k = h.inUse k := by simp only [inUse, hq]
    rw [huse, hr.fresh, Resources.count_add]
    omega
  tracked := by
    rw [hq, hr.device]
    exact hi.tracked
  quiet := by
    rw [hq, hr.device]
    exact hi.quiet
  recycled := by
    rw [hrec]
    exact hi.recycled
  origin k x hx := by
    rw [hrec]
    apply hi.origin k x
    have := hcount k x
    have := count_pos_iff.mpr hx
    exact count_pos_iff.mp (by omega)
  unregisterCalls := by
    rw [hr.unregisterCalls]
    exact hi.unregisterCalls
  leases := by
    rw [hr.leases]
    exact hi.leases

theorem enqueue (hi : Inv G t.resources (some t.stream) h) (hr : SameRest h h')
    (hrec : h'.recycled = h.recycled) (hpool : h'.pooled = h.pooled)
    (hq : ∀ t', t' ∈ h'.queued ↔ t' ∈ h.queued ∨ t' = t)
    (huse : ∀ k x, (h'.inUse k).count x = (h.inUse k).count x + (t.resources k).count x)
    (htrack : t.needsStreamSync = false →
      h.device.recorded t.endEvent = some (t.stream, h.device.enqueued t.stream)) :
    Inv G .none none h' where
  owned k x := by
    have := hi.owned k x
    rw [hpool, huse, hr.fresh]
    simp only [Resources.none, count_nil]
    omega
  tracked t' ht' hsync := by
    rw [hr.device]
    rcases (hq t').mp ht' with hold | rfl
    · exact hi.tracked t' hold hsync
    · exact htrack hsync
  quiet stream hs := by
    rw [hr.device] at hs
    rcases hi.quiet stream hs with ⟨t', ht', hst⟩ | hb
    · exact .inl ⟨t', (hq t').mpr (.inl ht'), hst⟩
    · exact .inl ⟨t, (hq t).mpr (.inr rfl), Option.some.inj hb⟩
  recycled := by
    rw [hrec]
    exact hi.recycled
  origin := by
    rw [hrec, hpool]
    exact hi.origin
  unregisterCalls := by
    rw [hr.unregisterCalls]
    exact hi.unregisterCalls
  leases := by
    rw [hr.leases]
    exact hi.leases

theorem dequeue (hi : Inv G .none none h) (hr : SameRest h h') (hrec : h'.recycled = h.recycled)
    (hpool : h'.pooled = h.pooled) (hq : ∀ t', t' ∈ h.queued ↔ t' = t ∨ t' ∈ h'.queued)
    (huse : ∀ k x, (h.inUse k).count x = (t.resources k).count x + (h'.inUse k).count x)
    (hquiet : h.device.Quiet t.stream) : Inv G t.resources none h' where
  owned k x := by
    have := hi.owned k x
    rw [hpool, hr.fresh]
    have := huse k x
    omega
  tracked t' ht' := by
    rw [hr.device]
    exact hi.tracked t' ((hq t').mpr (.inr ht'))
  quiet stream hs := by
    rw [hr.device] at hs
    rcases hi.quiet stream hs with ⟨t', ht', rfl⟩ | hb
    · rcases (hq t').mp ht' with rfl | hin
      · exact absurd hquiet hs
      · exact .inl ⟨t', hin, rfl⟩
    · cases hb
  recycled := by
    rw [hrec]
    exact hi.recycled
  origin := by
    rw [hrec, hpool]
    exact hi.origin
  unregisterCalls := by
    rw [hr.unregisterCalls]
    exact hi.unregisterCalls
  leases := by
    rw [hr.leases]
    exact hi.leases

theorem recycle (hi : Inv G t.resources none h) (hr : SameRest h h')
    (hrec : h'.recycled = h.recycled ++ [(t, h.device)]) (hq : h'.queued = h.queued)
    (hreuse : Reusable h.device t)
    (hpool : ∀ k x, (h'.pooled k).count x ≤ (h.pooled k).count x + (t.resources k).count x) :
    Inv G .none none h' where
  owned k x := by
    have := hi.owned k x
    have := hpool k x
    have huse : h'.inUse k = h.inUse k := by simp only [inUse, hq]
    rw [huse, hr.fresh]
    simp only [Resources.none, count_nil]
    omega
  tracked := by
    rw [hq, hr.device]
    exact hi.tracked
  quiet := by
    rw [hq, hr.device]
    exact hi.quiet
  recycled := by
    intro r hr'
    rw [hrec, mem_append, mem_singleton] at hr'
    rcases hr' with hold | rfl
    · exact hi.recycled r hold
    · exact hreuse
  origin k x hx := by
    rw [hrec]
    have hpos := count_pos_iff.mpr hx
    have := hpool k x
    by_cases hold : x ∈ h.pooled k
    · obtain ⟨r, hr', hx'⟩ := hi.origin k x hold
      exact ⟨r, mem_append_left _ hr', hx'⟩
    · have hzero := count_eq_zero.mpr hold
      have hnew : 0 < (t.resources k).count x := by omega
      exact ⟨(t, h.device), by simp, count_pos_iff.mp hnew⟩
  unregisterCalls := by
    rw [hr.unregisterCalls]
    exact hi.unregisterCalls
  leases := by
    rw [hr.leases]
    exact hi.leases

end Inv

end VllmAscend.KvOffload.Mapped
