import VllmAscend.WeightTransfer.Tensor

/-!
# Packed broadcast

The trainer broadcasts tensors in packed buffers, and every worker finds the size of each broadcast from the
metadata alone.
-/

namespace VllmAscend.WeightTransfer

open List Function Packing

/-! ## The buffers -/

structure Ring (α : Type*) (numBuffers : Nat) where
  bufferIdx : Fin numBuffers
  packing : Fin numBuffers → List α
  packingSizes : Fin numBuffers → Nat

namespace Ring

variable {α : Type*} {numBuffers : Nat}

def init (h : 0 < numBuffers) : Ring α numBuffers := ⟨⟨0, h⟩, fun _ => [], fun _ => 0⟩

def current (ring : Ring α numBuffers) : List α := ring.packing ring.bufferIdx

def currentSize (ring : Ring α numBuffers) : Nat := ring.packingSizes ring.bufferIdx

def clear (ring : Ring α numBuffers) : Ring α numBuffers where
  bufferIdx := ring.bufferIdx
  packing := update ring.packing ring.bufferIdx []
  packingSizes := update ring.packingSizes ring.bufferIdx 0

def append (ring : Ring α numBuffers) (x : α) (size : Nat) : Ring α numBuffers where
  bufferIdx := ring.bufferIdx
  packing := update ring.packing ring.bufferIdx (ring.current ++ [x])
  packingSizes := update ring.packingSizes ring.bufferIdx (ring.currentSize + size)

def next (ring : Ring α numBuffers) : Ring α numBuffers where
  bufferIdx := ⟨(ring.bufferIdx + 1) % numBuffers, Nat.mod_lt _ (Nat.zero_lt_of_lt ring.bufferIdx.isLt)⟩
  packing := ring.packing
  packingSizes := ring.packingSizes

section

variable (ring : Ring α numBuffers)

include ring

@[simp]
theorem current_clear : ring.clear.current = [] := by
  simp [current, clear]

@[simp]
theorem currentSize_clear : ring.clear.currentSize = 0 := by
  simp [currentSize, clear]

@[simp]
theorem current_append (x : α) (size : Nat) : (ring.append x size).current = ring.current ++ [x] := by
  simp [current, append]

@[simp]
theorem currentSize_append (x : α) (size : Nat) :
    (ring.append x size).currentSize = ring.currentSize + size := by
  simp [currentSize, append]

end

end Ring

/-- What a loop over the iterator broadcasts: the content of the buffer and its size at each broadcast,
and whether the loop comes to its end. -/
structure Rounds (α : Type*) where
  buffers : List (List α × Nat)
  returned : Bool

section Rounds

variable {α : Type*} {numBuffers : Nat} (size : α → Nat) (targetPackedTensorSize : Nat)

/-- The loop of both sides from a cleared buffer on. An item that raises ends it, and what is packed by
then is not broadcast. -/
def rounds : Ring α numBuffers → List (Option α) → Rounds α
  | ring, [] => ⟨if ring.current.isEmpty then [] else [(ring.current, ring.currentSize)], true⟩
  | _, none :: _ => ⟨[], false⟩
  | ring, some x :: rest =>
    let packed := ring.append x (size x)
    if targetPackedTensorSize < packed.currentSize then
      let after := rounds packed.next.clear rest
      ⟨(packed.current, packed.currentSize) :: after.buffers, after.returned⟩
    else rounds packed rest

variable {ring : Ring α numBuffers}

theorem rounds_map_some {pending : List α} (items : List α) (hcurrent : ring.current = pending)
    (hsize : ring.currentSize = total size pending) :
    rounds size targetPackedTensorSize ring (items.map some) =
      ⟨(groupAfter targetPackedTensorSize size pending items).map fun group => (group, total size group),
        true⟩ := by
  induction items generalizing ring pending with
  | nil =>
    unfold groupAfter
    rw [map_nil, rounds, hcurrent, hsize]
    split <;> simp
  | cons x items ih =>
    have happend : (ring.append x (size x)).current = pending ++ [x] := by simp [hcurrent]
    have htotal : (ring.append x (size x)).currentSize = total size (pending ++ [x]) := by simp [hsize]
    rw [map_cons, rounds, groupAfter]
    rw [happend, htotal]
    split
    · rw [ih (Ring.current_clear _) (Ring.currentSize_clear _)]
      rfl
    · exact ih happend htotal

theorem rounds_init {ι : Type*} (f : ι → α) (items : List ι) (h : 0 < numBuffers) :
    rounds size targetPackedTensorSize (Ring.init h) (items.map fun item => some (f item)) =
      ⟨(groupAfter targetPackedTensorSize (fun item => size (f item)) [] items).map fun group =>
        (group.map f, total (fun item => size (f item)) group), true⟩ := by
  have hrounds := @rounds_map_some α numBuffers size targetPackedTensorSize (.init h) [] (items.map f) rfl rfl
  have hgroups := groupAfter_map targetPackedTensorSize f size [] items
  rw [map_nil] at hgroups
  rw [hgroups] at hrounds
  simpa [total, comp_def] using hrounds

theorem rounds_returned {items : List (Option α)} :
    (rounds size targetPackedTensorSize ring items).returned = true ↔ none ∉ items := by
  fun_induction rounds size targetPackedTensorSize ring items with
  | case1 ring => simp
  | case2 ring rest => simp
  | case3 ring x rest packed hover after ih => simpa [after] using ih
  | case4 ring x rest packed hover ih => simpa using ih

end Rounds

/-! ## The two sides -/

structure Sent where
  broadcasts : List (List UInt8)
  returned : Bool
  deriving DecidableEq

/-- Without a buffer the first access raises. -/
def packedBroadcastProducer (iterator : List (String × Tensor)) (postIterFunc : String × Tensor → Tensor)
    (bufferSizeBytes numBuffers : Nat) : Sent :=
  if h : 0 < numBuffers then
    let loop := rounds List.length bufferSizeBytes (Ring.init h) (iterator.map fun item => (postIterFunc item).viewUint8)
    ⟨loop.buffers.map fun buffer => buffer.1.flatten, loop.returned⟩
  else ⟨[], false⟩

inductive Outcome
  | returned
  | raised
  | waiting
  | mismatch
  deriving DecidableEq

/-- The lengths of the consumer's broadcasts, what `post_unpack_func` is given, and how it ends. -/
structure Received where
  broadcasts : List Nat
  loaded : List (List (String × Tensor))
  outcome : Outcome
  deriving DecidableEq

/-- The consumer takes part in a broadcast for each of its buffers and unpacks what it receives. -/
def receive : List (List Meta × Nat) → List (List UInt8) → Received
  | [], _ => ⟨[], [], .returned⟩
  | buffer :: _, [] => ⟨[buffer.2], [], .waiting⟩
  | buffer :: rest, packed :: incoming =>
    if packed.length = buffer.2 then
      match unpack packed 0 buffer.1 with
      | none => ⟨[buffer.2], [], .raised⟩
      | some weights =>
        let after := receive rest incoming
        ⟨buffer.2 :: after.broadcasts, weights :: after.loaded, after.outcome⟩
    else ⟨[buffer.2], [], .mismatch⟩

def packingMeta (item : String × List Nat × Dtype) : Meta :=
  ⟨item.1, item.2.1, item.2.2, item.2.1.prod * item.2.2.itemsize⟩

def packedBroadcastConsumer (iterator : List (String × List Nat × Dtype)) (bufferSizeBytes numBuffers : Nat)
    (incoming : List (List UInt8)) : Received :=
  if h : 0 < numBuffers then
    receive (rounds Meta.size bufferSizeBytes (Ring.init h) (iterator.map fun item => some (packingMeta item))).buffers
      incoming
  else ⟨[], [], .raised⟩

/-! ## Lock step -/

section LockStep

variable {postIterFunc : String × Tensor → Tensor}

def metadata (postIterFunc : String × Tensor → Tensor) (item : String × Tensor) : String × List Nat × Dtype :=
  (item.1, (postIterFunc item).shape, (postIterFunc item).dtype)

/-- Both sides return after broadcasts of the same lengths, and the tensors arrive in order. -/
structure LockStep (sent : Sent) (received : Received) (weights : List (String × Tensor)) : Prop where
  producer : sent.returned = true
  consumer : received.outcome = .returned
  lengths : received.broadcasts = sent.broadcasts.map List.length
  loaded : received.loaded.flatten = weights

def groups (postIterFunc : String × Tensor → Tensor) (bufferSizeBytes : Nat) (iterator : List (String × Tensor)) :
    List (List (String × Tensor)) :=
  Packing.groupAfter bufferSizeBytes (fun item => (postIterFunc item).size) [] iterator

/-- Every tensor has a dimension, and in its buffer it begins at a multiple of its item size. -/
def Aligned (postIterFunc : String × Tensor → Tensor) (bufferSizeBytes : Nat) (iterator : List (String × Tensor)) : Prop :=
  ∀ group ∈ groups postIterFunc bufferSizeBytes iterator,
    ∀ placed ∈ Packing.placed (fun item => (postIterFunc item).size) 0 group,
      (postIterFunc placed.2).shape ≠ [] ∧ placed.1 % (postIterFunc placed.2).dtype.itemsize = 0

theorem size_packingMeta (item : String × Tensor) :
    (packingMeta (metadata postIterFunc item)).size = (postIterFunc item).size :=
  (postIterFunc item).length_bytes.symm

variable {xs : List (String × Tensor)} {cap bufs : Nat}

theorem packedBroadcastProducer_eq
    (hbuffers : 0 < bufs) (hview : ∀ item ∈ xs, (postIterFunc item).viewUint8 = some (postIterFunc item).bytes) :
    packedBroadcastProducer xs postIterFunc cap bufs =
      ⟨(groups postIterFunc cap xs).map (content postIterFunc), true⟩ := by
  have hitems : xs.map (fun item => (postIterFunc item).viewUint8) =
      xs.map fun item => some (postIterFunc item).bytes := map_congr_left hview
  unfold packedBroadcastProducer
  rw [dif_pos hbuffers, hitems, rounds_init]
  simp [groups, content, Tensor.size, flatMap_def, comp_def]

theorem packedBroadcastConsumer_eq (hbuffers : 0 < bufs) (incoming : List (List UInt8)) :
    packedBroadcastConsumer (xs.map (metadata postIterFunc)) cap bufs incoming =
      receive ((groups postIterFunc cap xs).map fun group =>
        (group.map fun item => packingMeta (metadata postIterFunc item), (content postIterFunc group).length)) incoming := by
  unfold packedBroadcastConsumer
  rw [dif_pos hbuffers, map_map]
  simp only [comp_def, rounds_init, size_packingMeta, groups, length_content]

theorem receive_groups_iff (packs : List (List (String × Tensor))) :
    let received := receive (packs.map fun group =>
      (group.map fun item => packingMeta (metadata postIterFunc item), (content postIterFunc group).length))
      (packs.map (content postIterFunc))
    received.outcome = .returned ∧ received.loaded.flatten = packs.flatten.map (fun item => (item.1, postIterFunc item)) ↔
      ∀ group ∈ packs, unpack (content postIterFunc group) 0
        (group.map fun item => packingMeta (metadata postIterFunc item)) =
          some (group.map fun item => (item.1, postIterFunc item)) := by
  dsimp only
  induction packs with
  | nil => simp [receive]
  | cons group packs ih =>
    rw [map_cons, map_cons, receive, if_pos rfl, forall_mem_cons, ← ih]
    cases hread : unpack (content postIterFunc group) 0 (group.map fun item => packingMeta (metadata postIterFunc item)) with
    | none => simp
    | some weights =>
      -- As many tensors are read as were packed, so the two streams are split at the same place.
      have hlength : weights.length = (group.map fun item => (item.1, postIterFunc item)).length := by
        rw [length_of_unpack hread, length_map, length_map]
      simp only [flatten_cons, map_append, Option.some_inj]
      constructor
      · rintro ⟨houtcome, hloaded⟩
        obtain ⟨hgroup, hrest⟩ := append_inj hloaded hlength
        exact ⟨hgroup, houtcome, hrest⟩
      · rintro ⟨hgroup, houtcome, hrest⟩
        exact ⟨houtcome, by rw [hgroup, hrest]⟩

theorem receive_broadcasts_of_returned {buffers : List (List Meta × Nat)} {incoming : List (List UInt8)}
    (h : (receive buffers incoming).outcome = .returned) : (receive buffers incoming).broadcasts = buffers.map (·.2) := by
  fun_induction receive buffers incoming with
  | case1 incoming => rfl
  | case2 buffer rest => cases h
  | case3 buffer rest packed incoming hlength hread => cases h
  | case4 buffer rest packed incoming hlength weights hread after ih => simp [after, ih h]
  | case5 buffer rest packed incoming hlength => cases h

theorem unpack_group_iff {group : List (String × Tensor)} :
    unpack (content postIterFunc group) 0 (group.map fun item => packingMeta (metadata postIterFunc item)) =
        some (group.map fun item => (item.1, postIterFunc item)) ↔
      ∀ placed ∈ Packing.placed (fun item => (postIterFunc item).size) 0 group,
        (postIterFunc placed.2).shape ≠ [] ∧ placed.1 % (postIterFunc placed.2).dtype.itemsize = 0 := by
  have h := @unpack_content_iff _ postIterFunc (fun item => packingMeta (metadata postIterFunc item)) [] group
    fun item _ => size_packingMeta item
  simpa [packingMeta, metadata, content] using h

theorem viewable_of_aligned (h : Aligned postIterFunc cap xs) :
    ∀ item ∈ xs, (postIterFunc item).viewUint8 = some (postIterFunc item).bytes := by
  intro item hitem
  have hflatten := flatten_groupAfter cap (fun item => (postIterFunc item).size) [] xs
  rw [← nil_append xs, ← hflatten] at hitem
  obtain ⟨group, hgroup, hitem⟩ := mem_flatten.mp hitem
  obtain ⟨entry, hentry, rfl⟩ := exists_placed 0 hitem
  exact Tensor.viewUint8_of_shape (h group hgroup entry hentry).1

theorem viewable_of_returned (h : (packedBroadcastProducer xs postIterFunc cap bufs).returned = true) :
    ∀ item ∈ xs, (postIterFunc item).viewUint8 = some (postIterFunc item).bytes := by
  intro item hitem
  unfold packedBroadcastProducer at h
  split at h
  · rw [rounds_returned] at h
    cases hview : (postIterFunc item).viewUint8 with
    | none => exact absurd (mem_map.mpr ⟨item, hitem, hview⟩) h
    | some flat => rw [Tensor.viewUint8_eq_some hview]
  · cases h

theorem packedBroadcast_lockStep_iff (iterator : List (String × Tensor)) (postIterFunc : String × Tensor → Tensor)
    (bufferSizeBytes numBuffers : Nat) (hbuffers : 0 < numBuffers) :
    LockStep (packedBroadcastProducer iterator postIterFunc bufferSizeBytes numBuffers)
        (packedBroadcastConsumer (iterator.map (metadata postIterFunc)) bufferSizeBytes numBuffers
          (packedBroadcastProducer iterator postIterFunc bufferSizeBytes numBuffers).broadcasts)
        (iterator.map fun item => (item.1, postIterFunc item)) ↔ Aligned postIterFunc bufferSizeBytes iterator := by
  have hflatten : (groups postIterFunc bufferSizeBytes iterator).flatten = iterator :=
    flatten_groupAfter bufferSizeBytes _ [] iterator
  have hreceive := @receive_groups_iff postIterFunc (groups postIterFunc bufferSizeBytes iterator)
  rw [hflatten] at hreceive
  simp only [unpack_group_iff] at hreceive
  constructor
  · intro h
    have hview := viewable_of_returned h.producer
    have hconsumer := h.consumer
    have hloaded := h.loaded
    rw [packedBroadcastProducer_eq hbuffers hview, packedBroadcastConsumer_eq hbuffers] at hconsumer hloaded
    exact hreceive.mp ⟨hconsumer, hloaded⟩
  · intro h
    rw [packedBroadcastProducer_eq hbuffers (viewable_of_aligned h), packedBroadcastConsumer_eq hbuffers]
    obtain ⟨hconsumer, hloaded⟩ := hreceive.mpr h
    exact ⟨rfl, hconsumer, by rw [receive_broadcasts_of_returned hconsumer]; simp, hloaded⟩

theorem packedBroadcast_lockStep_iff_two_weights :
    let iterator := [("w", Tensor.zeros .float32 [1]), ("v", Tensor.zeros .bfloat16 [3])]
    LockStep (packedBroadcastProducer iterator Prod.snd 4 2)
      (packedBroadcastConsumer (iterator.map (metadata Prod.snd)) 4 2 (packedBroadcastProducer iterator Prod.snd 4 2).broadcasts)
      (iterator.map fun item => (item.1, item.2)) := by
  refine (packedBroadcast_lockStep_iff _ Prod.snd 4 2 (by decide)).mpr ?_
  unfold Aligned
  decide +kernel

/-- A `float32` behind a single `bfloat16` begins at byte 2, where the consumer's view raises; the producer
returns. -/
theorem packedBroadcast_misaligned_raises :
    let iterator := [("v", Tensor.zeros .bfloat16 [1]), ("w", Tensor.zeros .float32 [1])]
    let sent := packedBroadcastProducer iterator Prod.snd 1024 2
    let received := packedBroadcastConsumer (iterator.map (metadata Prod.snd)) 1024 2 sent.broadcasts
    sent.returned = true ∧ received.outcome = .raised ∧
      ¬ LockStep sent received (iterator.map fun item => (item.1, item.2)) := by
  intro iterator sent received
  have hraised : received.outcome = .raised := by decide +kernel
  refine ⟨by decide +kernel, hraised, fun h => ?_⟩
  rw [h.consumer] at hraised
  cases hraised

end LockStep

end VllmAscend.WeightTransfer
