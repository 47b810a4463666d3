import VllmAscend.Lib.Machine

/-!
# Sleep mode

`CaMemAllocator` with the sleep and wake-up calls of `NPUWorker` that vLLM's executor lets through.
The loops over `pointer_to_data` treat every allocation by itself, so it is a function of the
address here. The ACL calls succeed, and `weight_nz_mode` is 0.
-/

namespace VllmAscend.Worker.SleepMode

open List Option

inductive Tag
  | weights | kvCache | sleepPersistent
deriving DecidableEq

abbrev Bytes := Nat → UInt8

structure AllocationData where
  tag : Tag
  cpuBackupTensor : Option Bytes := none
  memory : Bytes
  mapped : Bool := true
  /-- Every call so far found the memory as it has to be: unmapped to map it, mapped to unmap or copy it. -/
  inOrder : Bool := true

namespace AllocationData

variable (a : AllocationData)

/-- New physical memory holds anything. -/
def createAndMap (garbage : Bytes) : AllocationData :=
  { a with memory := garbage, mapped := true, inOrder := a.inOrder && !a.mapped }

def unmapAndRelease : AllocationData := { a with mapped := false, inOrder := a.inOrder && a.mapped }

def toHost : AllocationData := { a with inOrder := a.inOrder && a.mapped }

def toDevice (memory : Bytes) : AllocationData := { a with memory, inOrder := a.inOrder && a.mapped }

def sleep (offloadTags : List Tag) : AllocationData :=
  if a.tag = .sleepPersistent then a
  else if a.tag ∈ offloadTags then { a.toHost with cpuBackupTensor := some a.memory }.unmapAndRelease
  else a.unmapAndRelease

def wakeUp (wakes : Tag → Bool) (garbage : Bytes) : AllocationData :=
  if a.tag = .sleepPersistent then a
  else if wakes a.tag then
    match a.cpuBackupTensor with
    | none => a.createAndMap garbage
    | some backup => { (a.createAndMap garbage).toDevice backup with cpuBackupTensor := none }
  else a

/-- `cells` are the bytes of the allocation that belong to model buffers. -/
def saveBuffers (cells : List Nat) : AllocationData := if cells = [] then a else a.toHost

def restoreBuffers (cells : List Nat) (saved : Bytes) : AllocationData :=
  if cells = [] then a else a.toDevice fun i => if i ∈ cells then saved i else a.memory i

end AllocationData

structure NPUWorker where
  pointerToData : Nat → Option (AllocationData)
  sleepSavedBuffers : Option (Nat → Bytes) := none
  /-- Of the executor. -/
  sleepingTags : List Tag := []
  /-- The calls on the freed allocations were in order. -/
  freedInOrder : Bool := true
  /-- The level of the last sleep, and the memory before it. -/
  level : Nat := 0
  before : Nat → Bytes := fun _ _ => 0

namespace NPUWorker

variable (buffers : Nat → List Nat) (w : NPUWorker)

def memory (ptr : Nat) : Bytes := ((w.pointerToData ptr).map (·.memory)).getD fun _ => 0

def sleep (level : Nat) : NPUWorker :=
  { w with
    pointerToData := fun ptr => (w.pointerToData ptr).map fun a =>
      (if level = 2 then a.saveBuffers (buffers ptr) else a).sleep (if level = 1 then [.weights] else [])
    sleepSavedBuffers := if level = 2 then some w.memory else w.sleepSavedBuffers
    sleepingTags := [.weights, .kvCache]
    level
    before := w.memory }

/-- `tags is None or tag in tags`. -/
def wakes (tags : Option (List Tag)) (tag : Tag) : Bool := tags.all (tag ∈ ·)

def restore (ptr : Nat) (a : AllocationData) : AllocationData :=
  match w.sleepSavedBuffers with
  | none => a
  | some saved => a.restoreBuffers (buffers ptr) (saved ptr)

def wakeUp (tags : Option (List Tag)) (garbage : Nat → Bytes) : NPUWorker :=
  { w with
    pointerToData := fun ptr => (w.pointerToData ptr).map fun a =>
      w.restore buffers ptr (a.wakeUp (wakes tags) (garbage ptr))
    sleepSavedBuffers := none
    sleepingTags := w.sleepingTags.filter fun tag => !wakes tags tag }

/-- `my_free`. -/
def free (ptr : Nat) (a : AllocationData) : NPUWorker :=
  { w with
    pointerToData := fun p => if p = ptr then none else w.pointerToData p
    freedInOrder := w.freedInOrder && a.unmapAndRelease.inOrder }

inductive Action
  | sleep (level : Nat)
  | wakeUp (tags : Option (List Tag)) (garbage : Nat → Bytes)
  | free (ptr : Nat)

/-- The executor lets a call through that fits its `sleeping_tags`. An allocation with a buffer of the model is not
freed. -/
def step : Action → Option (NPUWorker)
  | .sleep level => if w.sleepingTags = [] ∧ (level = 1 ∨ level = 2) then some (w.sleep buffers level) else none
  | .wakeUp tags garbage =>
    if w.sleepingTags ≠ [] ∧ (∀ l ∈ tags, l ≠ [] ∧ ∀ tag ∈ l, tag ∈ w.sleepingTags) then
      some (w.wakeUp buffers tags garbage)
    else none
  | .free ptr => if buffers ptr = [] then (w.pointerToData ptr).map (w.free ptr) else none

def start (allocations : Nat → Option (Tag × Bytes)) : NPUWorker where
  pointerToData ptr := (allocations ptr).map fun a => { tag := a.1, memory := a.2 }

structure Safe : Prop where
  freed : w.freedInOrder
  inOrder : ∀ ptr a, w.pointerToData ptr = some a → a.inOrder
  awake : w.sleepingTags = [] → ∀ ptr a, w.pointerToData ptr = some a → a.mapped
  weights : w.level = 1 → w.sleepingTags = [] → ∀ ptr a, w.pointerToData ptr = some a → a.tag = .weights →
    a.memory = w.before ptr
  buffers : w.level = 2 → w.sleepingTags = [] → ∀ ptr a, w.pointerToData ptr = some a →
    ∀ i ∈ buffers ptr, a.memory i = w.before ptr i

/-- No allocation is freed asleep, a wake-up of everything finds everything asleep, and the first wake-up after a sleep
of level 2 wakes the weights. -/
def Regular : Action → Prop
  | .sleep _ => True
  | .wakeUp tags _ => (tags = none → .weights ∈ w.sleepingTags ∧ .kvCache ∈ w.sleepingTags) ∧
    (w.sleepSavedBuffers.isSome → wakes tags .weights)
  | .free ptr => ∀ a, w.pointerToData ptr = some a → a.tag ∉ w.sleepingTags

/-! ## The invariant -/

structure Held (ptr : Nat) (a : AllocationData) : Prop where
  inOrder : a.inOrder
  mapped : a.mapped = decide (a.tag ∉ w.sleepingTags)
  home : buffers ptr ≠ [] → a.tag = .weights
  backup : a.cpuBackupTensor =
    if w.level = 1 ∧ a.tag = .weights ∧ .weights ∈ w.sleepingTags then some (w.before ptr) else none
  kept : a.tag = .weights → .weights ∉ w.sleepingTags → ∀ i, w.level = 1 ∨ (w.level = 2 ∧ i ∈ buffers ptr) →
    a.memory i = w.before ptr i

structure Inv : Prop where
  freed : w.freedInOrder
  held : ∀ ptr a, w.pointerToData ptr = some a → w.Held buffers ptr a
  saved : w.sleepSavedBuffers = if w.level = 2 ∧ .weights ∈ w.sleepingTags then some w.before else none
  tags : .sleepPersistent ∉ w.sleepingTags

variable {buffers w}

theorem Inv.safe (h : w.Inv buffers) : w.Safe buffers where
  freed := h.freed
  inOrder ptr a ha := (h.held ptr a ha).inOrder
  awake hawake ptr a ha := by simp [(h.held ptr a ha).mapped, hawake]
  weights hlevel hawake ptr a ha htag :=
    funext fun i => (h.held ptr a ha).kept htag (by simp [hawake]) i (.inl hlevel)
  buffers hlevel hawake ptr a ha i hi :=
    (h.held ptr a ha).kept ((h.held ptr a ha).home (ne_nil_of_mem hi)) (by simp [hawake]) i (.inr ⟨hlevel, hi⟩)

theorem start_inv (allocations : Nat → Option (Tag × Bytes))
    (hhome : ∀ ptr a, allocations ptr = some a → buffers ptr ≠ [] → a.1 = .weights) :
    (start allocations).Inv buffers := by
  refine ⟨rfl, fun ptr a ha => ?_, by simp [start], nofun⟩
  obtain ⟨b, hb, rfl⟩ := map_eq_some_iff.mp ha
  exact ⟨rfl, rfl, hhome ptr b hb, by simp [start], by simp [start]⟩

theorem Inv.sleep (h : w.Inv buffers) (hawake : w.sleepingTags = []) {level : Nat} (hlevel : level = 1 ∨ level = 2) :
    (w.sleep buffers level).Inv buffers := by
  have hsaved : w.sleepSavedBuffers = none := by simp [h.saved, hawake]
  refine ⟨h.freed, fun ptr a ha => ?_, by simp [NPUWorker.sleep, hsaved], by simp [NPUWorker.sleep]⟩
  · obtain ⟨⟨tag, backup, bytes, mapped, inOrder⟩, hb, rfl⟩ := map_eq_some_iff.mp ha
    obtain ⟨rfl, hmapped, hhome, hbackup, -⟩ := h.held ptr _ hb
    obtain rfl : mapped = true := by simpa [hawake] using hmapped
    obtain rfl : backup = none := by simpa [hawake] using hbackup
    have hmem : w.memory ptr = bytes := by simp [memory, hb]
    cases tag
    all_goals
      obtain rfl | rfl := hlevel
      all_goals
        constructor <;> simp_all [NPUWorker.sleep, AllocationData.sleep, AllocationData.saveBuffers, AllocationData.toHost,
          AllocationData.unmapAndRelease]

/-- A woken allocation is mapped once, and has its backup or its buffers back. -/
theorem Held.wakeUp {tags : Option (List Tag)} {garbage : Nat → Bytes} {ptr : Nat} {a : AllocationData}
    (h : w.Held buffers ptr a) (hsaved : w.sleepSavedBuffers =
      if w.level = 2 ∧ .weights ∈ w.sleepingTags then some w.before else none) (hpersist : .sleepPersistent ∉ w.sleepingTags)
    (hasleep : a.tag ≠ .sleepPersistent → wakes tags a.tag → a.tag ∈ w.sleepingTags)
    (hfirst : w.level = 2 → .weights ∈ w.sleepingTags → wakes tags .weights) :
    (w.wakeUp buffers tags garbage).Held buffers ptr
      (w.restore buffers ptr (a.wakeUp (wakes tags) (garbage ptr))) := by
  obtain ⟨tag, backup, bytes, mapped, inOrder⟩ := a
  obtain ⟨rfl, hmapped, hhome, hbackup, hkept⟩ := h
  unfold NPUWorker.restore AllocationData.wakeUp NPUWorker.wakeUp
  generalize wakes tags = wakes at *
  by_cases hlevel : w.level = 2 ∧ .weights ∈ w.sleepingTags
  all_goals
    cases tag with
    | sleepPersistent => constructor <;> simp_all [AllocationData.restoreBuffers]
    | kvCache =>
      cases hw : wakes .kvCache <;>
      constructor <;> simp_all [AllocationData.restoreBuffers, AllocationData.createAndMap]
    | weights =>
      cases hw : wakes .weights <;> by_cases hback : w.level = 1 <;> by_cases hcells : buffers ptr = [] <;>
      constructor <;> simp_all [AllocationData.restoreBuffers, AllocationData.createAndMap, AllocationData.toDevice]

theorem Inv.wakeUp (h : w.Inv buffers) {tags : Option (List Tag)} {garbage : Nat → Bytes}
    (hkind : w.Regular (.wakeUp tags garbage)) (htags : ∀ l ∈ tags, l ≠ [] ∧ ∀ tag ∈ l, tag ∈ w.sleepingTags) :
    (w.wakeUp buffers tags garbage).Inv buffers := by
  have hfirst (hlevel : w.level = 2) (hmem : .weights ∈ w.sleepingTags) : wakes tags .weights :=
    hkind.2 (by simp [h.saved, hlevel, hmem])
  refine ⟨h.freed, fun ptr a ha => ?_, ?_, by simp [NPUWorker.wakeUp, h.tags]⟩
  · obtain ⟨b, hb, rfl⟩ := map_eq_some_iff.mp ha
    refine (h.held ptr b hb).wakeUp h.saved h.tags (fun hpersist hwakes => ?_) hfirst
    cases tags with
    | none => cases htag : b.tag <;> simp_all [Regular]
    | some l => exact (htags l rfl).2 _ (by simpa [wakes] using hwakes)
  · rw [if_neg fun hif => ?_]
    · rfl
    · obtain ⟨hmem, hskip⟩ := mem_filter.mp hif.2
      simp [hfirst hif.1 hmem] at hskip

theorem Inv.free (h : w.Inv buffers) {ptr : Nat} {a : AllocationData} (ha : w.pointerToData ptr = some a)
    (hawake : a.tag ∉ w.sleepingTags) : (w.free ptr a).Inv buffers := by
  have hheld := h.held ptr a ha
  refine ⟨?_, fun p b hb => ?_, h.saved, h.tags⟩
  · simp [NPUWorker.free, AllocationData.unmapAndRelease, h.freed, hheld.inOrder, hheld.mapped, hawake]
  · change (if p = ptr then none else w.pointerToData p) = some b at hb
    split at hb
    · cases hb
    · have hb := h.held p b hb
      exact ⟨hb.inOrder, hb.mapped, hb.home, hb.backup, hb.kept⟩

theorem step_inv {act : Action} {s : NPUWorker} (h : w.Inv buffers) (hkind : w.Regular act)
    (hs : w.step buffers act = some s) : s.Inv buffers := by
  cases act with
  | sleep level =>
    obtain ⟨hok, hs⟩ := ite_none_right_eq_some.mp hs
    cases hs
    exact h.sleep hok.1 hok.2
  | wakeUp tags garbage =>
    obtain ⟨hok, hs⟩ := ite_none_right_eq_some.mp hs
    cases hs
    exact h.wakeUp hkind hok.2
  | free ptr =>
    obtain ⟨-, hs⟩ := ite_none_right_eq_some.mp hs
    obtain ⟨a, ha, rfl⟩ := map_eq_some_iff.mp hs
    exact h.free ha (hkind a ha)

/-- In a run of such steps nothing is lost, in whatever order the tags are woken. -/
theorem sleep_mode_safe (buffers : Nat → List Nat) (allocations : Nat → Option (Tag × Bytes))
    (hhome : ∀ ptr a, allocations ptr = some a → buffers ptr ≠ [] → a.1 = .weights) {w : NPUWorker}
    (h : Machine.Reaches (step buffers) Regular (start allocations) w) : w.Safe buffers :=
  (h.inv (Inv buffers) (start_inv allocations hhome) fun _ _ _ => step_inv).safe

/-- One weights allocation at address 1 with a buffer in its first byte. -/
def sampleBuffers (ptr : Nat) : List Nat := if ptr = 1 then [0] else []

def sampleAllocations (ptr : Nat) : Option (Tag × Bytes) := if ptr = 1 then some (.weights, fun _ => 7) else none

theorem sleep_mode_safe_sample : ∃ w, Machine.run (step sampleBuffers) (start sampleAllocations)
      [.sleep 2, .wakeUp (some [.weights]) fun _ _ => 0, .wakeUp (some [.kvCache]) fun _ _ => 0] = some w ∧
    w.sleepingTags = [] ∧ w.Safe sampleBuffers := by
  refine ⟨_, rfl, rfl, sleep_mode_safe sampleBuffers sampleAllocations (fun ptr a ha hne => ?_)
    (Machine.Reaches.tail (a := .wakeUp (some [.kvCache]) fun _ _ => 0) (.tail (a := .wakeUp (some [.weights]) fun _ _ => 0)
      (.tail (a := .sleep 2) .refl trivial rfl) ⟨nofun, fun _ => rfl⟩ rfl) ⟨nofun, nofun⟩ rfl)⟩
  obtain ⟨-, ha⟩ := ite_none_right_eq_some.mp ha
  cases ha
  rfl

/-- The first wake-up is for the KV cache: the buffer is written to unmapped memory, and lost. -/
theorem buffers_lost : ∃ w, Machine.run (step sampleBuffers) (start sampleAllocations)
      [.sleep 2, .wakeUp (some [.kvCache]) fun _ _ => 0, .wakeUp (some [.weights]) fun _ _ => 0] = some w ∧
    ¬w.Safe sampleBuffers := by
  refine ⟨_, rfl, fun h => ?_⟩
  exact absurd (h.buffers rfl rfl 1 _ rfl 0 (by decide)) (by decide)

end NPUWorker

end VllmAscend.Worker.SleepMode
