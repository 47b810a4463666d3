import VllmAscend.Lib.Loop
import VllmAscend.WeightTransfer.Tensor

/-!
# Packed transfer through a shared buffer

The producer copies tensors into one buffer and hands out a chunk before the next tensor would overflow
it. The consumer reads a chunk from the buffer before the producer goes on.
-/

namespace VllmAscend.WeightTransfer

open List Loop Packing

inductive IpcError
  | view (name : String)
  | tooLarge (name : String) (size bufferSizeBytes : Nat)
  | noHandle (physicalNpuId : String) (uuids : List String)
  | noAttribute
  deriving DecidableEq

/-- The texts of the errors that the module itself raises. -/
def IpcError.message : IpcError → Option String
  | tooLarge name size bufferSizeBytes =>
    some ("Tensor '" ++ name ++ "' has size " ++ toString size ++ " bytes, which exceeds buffer_size_bytes=" ++
      toString bufferSizeBytes ++ ". Increase buffer_size_bytes to at least " ++ toString size ++ ".")
  | noHandle physicalNpuId uuids =>
    some ("IPC handle not found for NPU UUID " ++ physicalNpuId ++ ". Available UUIDs: " ++ toString uuids)
  | view _ | noAttribute => none

structure Chunk where
  names : List String
  shapes : List (List Nat)
  dtypeNames : List String
  tensorSizes : List Nat
  ipcHandle : List String
  deriving DecidableEq

/-! ## The producer -/

structure Producer where
  ipcBuffer : List UInt8
  names : List String
  shapes : List (List Nat)
  dtypes : List Dtype
  tensorSizes : List Nat
  totalBytes : Nat

namespace Producer

def init (ipcBuffer : List UInt8) : Producer := ⟨ipcBuffer, [], [], [], [], 0⟩

def chunk (producer : Producer) (npuUuid : String) : Chunk :=
  ⟨producer.names, producer.shapes, producer.dtypes.map Dtype.name, producer.tensorSizes, [npuUuid]⟩

def append (producer : Producer) (name : String) (origTensor : Tensor) (flat : List UInt8) : Producer where
  ipcBuffer := producer.ipcBuffer.take producer.totalBytes ++ flat ++
    producer.ipcBuffer.drop (producer.totalBytes + flat.length)
  names := producer.names ++ [name]
  shapes := producer.shapes ++ [origTensor.shape]
  dtypes := producer.dtypes ++ [origTensor.dtype]
  tensorSizes := producer.tensorSizes ++ [flat.length]
  totalBytes := producer.totalBytes + flat.length

end Producer

structure Produced where
  chunks : List (Chunk × List UInt8)
  error : Option IpcError
  deriving DecidableEq

section Produce

variable (npuUuid : String) (postIterFunc : String × Tensor → Tensor) (bufferSizeBytes : Nat)

def produce : Producer → List (String × Tensor) → Produced
  | producer, [] => ⟨if producer.totalBytes ≠ 0 then [(producer.chunk npuUuid, producer.ipcBuffer)] else [], none⟩
  | producer, (name, origTensor) :: rest =>
    match (postIterFunc (name, origTensor)).viewUint8 with
    | none => ⟨[], some (.view name)⟩
    | some flat =>
      if bufferSizeBytes < flat.length then ⟨[], some (.tooLarge name flat.length bufferSizeBytes)⟩
      else if producer.totalBytes ≠ 0 ∧ bufferSizeBytes < producer.totalBytes + flat.length then
        let after := produce ((Producer.init producer.ipcBuffer).append name origTensor flat) rest
        ⟨(producer.chunk npuUuid, producer.ipcBuffer) :: after.chunks, after.error⟩
      else produce (producer.append name origTensor flat) rest

/-- `packed_npu_ipc_producer`, from a buffer of arbitrary content. -/
def packedNpuIpcProducer (memory : Nat → UInt8) (iterator : List (String × Tensor)) : Produced :=
  produce npuUuid postIterFunc bufferSizeBytes (Producer.init ((range bufferSizeBytes).map memory)) iterator

end Produce

def Chunk.metas (chunk : Chunk) (dtypes : List Dtype) : List Meta :=
  (chunk.names.zip (chunk.shapes.zip (dtypes.zip chunk.tensorSizes))).map fun entry =>
    ⟨entry.1, entry.2.1, entry.2.2.1, entry.2.2.2⟩

def packedNpuIpcConsumer (physicalNpuId : String) (chunk : Chunk) (ipcBuffer : List UInt8) :
    Except IpcError (List (String × Tensor)) :=
  if physicalNpuId ∈ chunk.ipcHandle then
    match chunk.dtypeNames.mapM Dtype.getattr with
    | none => .error .noAttribute
    | some dtypes =>
      match unpack (ipcBuffer.take chunk.tensorSizes.sum) 0 (chunk.metas dtypes) with
      | none => .error (.view "")
      | some weights => .ok weights
  else .error (.noHandle physicalNpuId chunk.ipcHandle)

/-! ## The chunks -/

section Groups

variable {npuUuid : String} {postIterFunc : String × Tensor → Tensor} {bufferSizeBytes : Nat}

def flatSize (postIterFunc : String × Tensor → Tensor) (item : String × Tensor) : Nat := (postIterFunc item).size

def chunkOf (npuUuid : String) (postIterFunc : String × Tensor → Tensor) (group : List (String × Tensor)) : Chunk :=
  ⟨group.map (·.1), group.map (·.2.shape), group.map (·.2.dtype.name), group.map (flatSize postIterFunc), [npuUuid]⟩

def metaOf (postIterFunc : String × Tensor → Tensor) (item : String × Tensor) : Meta :=
  ⟨item.1, item.2.shape, item.2.dtype, flatSize postIterFunc item⟩

structure Holds (postIterFunc : String × Tensor → Tensor) (bufferSizeBytes : Nat) (pending : List (String × Tensor))
    (producer : Producer) : Prop where
  names : producer.names = pending.map (·.1)
  shapes : producer.shapes = pending.map (·.2.shape)
  dtypes : producer.dtypes = pending.map (·.2.dtype)
  sizes : producer.tensorSizes = pending.map (flatSize postIterFunc)
  totalBytes : producer.totalBytes = Packing.total (flatSize postIterFunc) pending
  buffer : producer.ipcBuffer.take producer.totalBytes = content postIterFunc pending
  capacity : producer.ipcBuffer.length = bufferSizeBytes

theorem Holds.init {ipcBuffer : List UInt8} (h : ipcBuffer.length = bufferSizeBytes) :
    Holds postIterFunc bufferSizeBytes [] (Producer.init ipcBuffer) :=
  ⟨rfl, rfl, rfl, rfl, rfl, rfl, h⟩

variable {pending items group weights : List (String × Tensor)} {prod : Producer}
  {item : String × Tensor} {out : Chunk × List UInt8} {groups : List (List (String × Tensor))}
  {chunks : List (Chunk × List UInt8)}

def Describes (npuUuid : String) (postIterFunc : String × Tensor → Tensor) (out : Chunk × List UInt8)
    (group : List (String × Tensor)) : Prop :=
  out.1 = chunkOf npuUuid postIterFunc group ∧
    out.2.take (Packing.total (flatSize postIterFunc) group) = content postIterFunc group

def Viewable (postIterFunc : String × Tensor → Tensor) (item : String × Tensor) : Prop :=
  (postIterFunc item).viewUint8 = some (postIterFunc item).bytes

theorem viewable_or : (postIterFunc item).viewUint8 = none ∨ Viewable postIterFunc item := by
  unfold Viewable
  cases h : (postIterFunc item).viewUint8 with
  | none => exact .inl rfl
  | some flat => exact Or.inr (congrArg some (Tensor.viewUint8_eq_some h))

theorem produce_cons (hview : Viewable postIterFunc item) (prod : Producer)
    (rest : List (String × Tensor)) :
    produce npuUuid postIterFunc bufferSizeBytes prod (item :: rest) =
      if bufferSizeBytes < flatSize postIterFunc item then
        ⟨[], some (.tooLarge item.1 (flatSize postIterFunc item) bufferSizeBytes)⟩
      else if prod.totalBytes ≠ 0 ∧ bufferSizeBytes < prod.totalBytes + flatSize postIterFunc item then
        ⟨(prod.chunk npuUuid, prod.ipcBuffer) :: (produce npuUuid postIterFunc bufferSizeBytes
            ((Producer.init prod.ipcBuffer).append item.1 item.2 (postIterFunc item).bytes) rest).chunks,
          (produce npuUuid postIterFunc bufferSizeBytes
            ((Producer.init prod.ipcBuffer).append item.1 item.2 (postIterFunc item).bytes) rest).error⟩
      else produce npuUuid postIterFunc bufferSizeBytes
        (prod.append item.1 item.2 (postIterFunc item).bytes) rest := by
  rw [produce, show (postIterFunc (item.1, item.2)).viewUint8 = some (postIterFunc item).bytes from hview]
  rfl

section

variable (h : Holds postIterFunc bufferSizeBytes pending prod)

include h

theorem Holds.append (hfits : prod.totalBytes + flatSize postIterFunc item ≤ bufferSizeBytes) :
    Holds postIterFunc bufferSizeBytes (pending ++ [item]) (prod.append item.1 item.2 (postIterFunc item).bytes) := by
  have hcapacity := h.capacity
  have htake : (prod.ipcBuffer.take prod.totalBytes).length = prod.totalBytes := by
    rw [length_take]
    omega
  unfold flatSize Tensor.size at hfits
  constructor
  case names => simp [Producer.append, h.names]
  case shapes => simp [Producer.append, h.shapes]
  case dtypes => simp [Producer.append, h.dtypes]
  case sizes => simp [Producer.append, h.sizes, flatSize, Tensor.size]
  case totalBytes => simp [Producer.append, h.totalBytes, flatSize, Tensor.size]
  case buffer =>
    unfold Producer.append
    rw [take_left' (by rw [length_append, htake]), h.buffer]
    simp [content]
  case capacity =>
    unfold Producer.append
    simp only [length_append, htake, length_drop]
    omega

theorem Holds.chunk : prod.chunk npuUuid = chunkOf npuUuid postIterFunc pending := by
  simp [Producer.chunk, chunkOf, h.names, h.shapes, h.dtypes, h.sizes]

theorem Holds.describes : Describes npuUuid postIterFunc (prod.chunk npuUuid, prod.ipcBuffer) pending :=
  ⟨h.chunk, by rw [← h.totalBytes, h.buffer]⟩

theorem produce_groups (hpending : total (flatSize postIterFunc) pending ≤ bufferSizeBytes)
    (hitems : ∀ item ∈ items, Viewable postIterFunc item ∧ flatSize postIterFunc item ≤ bufferSizeBytes) :
    (produce npuUuid postIterFunc bufferSizeBytes prod items).error = none ∧ Forall₂ (Describes npuUuid postIterFunc)
        (produce npuUuid postIterFunc bufferSizeBytes prod items).chunks
        (groupBefore bufferSizeBytes (flatSize postIterFunc) pending items) := by
  induction items generalizing pending prod with
  | nil =>
    unfold produce groupBefore
    rw [← h.totalBytes]
    by_cases hzero : prod.totalBytes = 0
    · simp [hzero]
    · simpa [hzero] using h.describes
  | cons item items ih =>
    obtain ⟨⟨hview, hfit⟩, hitems⟩ := forall_mem_cons.mp hitems
    rw [produce_cons hview, if_neg (Nat.not_lt.mpr hfit), groupBefore, ← h.totalBytes]
    by_cases hover : prod.totalBytes ≠ 0 ∧ bufferSizeBytes < prod.totalBytes + flatSize postIterFunc item
    · rw [if_pos hover, if_pos hover]
      have hstart := (Holds.init h.capacity).append (by simpa [Producer.init] using hfit)
      obtain ⟨herror, hchunks⟩ := ih hstart (by simpa using hfit) hitems
      exact ⟨herror, Forall₂.cons h.describes hchunks⟩
    · rw [if_neg hover, if_neg hover]
      have hroom : prod.totalBytes + flatSize postIterFunc item ≤ bufferSizeBytes := by omega
      exact ih (h.append hroom) (by simpa [← h.totalBytes] using hroom) hitems

end

theorem fits_of_no_error (h : (produce npuUuid postIterFunc bufferSizeBytes prod items).error = none) :
    ∀ item ∈ items, Viewable postIterFunc item ∧ flatSize postIterFunc item ≤ bufferSizeBytes := by
  induction items generalizing prod with
  | nil => simp
  | cons item items ih =>
    rcases @viewable_or postIterFunc item with hnone | hview
    · rw [produce, show (postIterFunc (item.1, item.2)).viewUint8 = none from hnone] at h
      cases h
    · rw [produce_cons hview] at h
      split at h
      · cases h
      · rename_i hfit
        refine forall_mem_cons.mpr ⟨⟨hview, Nat.le_of_not_lt hfit⟩, ?_⟩
        split at h <;> exact ih h

theorem produce_tooLarge {before after : List (String × Tensor)}
    (hbefore : ∀ x ∈ before, Viewable postIterFunc x ∧ flatSize postIterFunc x ≤ bufferSizeBytes)
    (hview : Viewable postIterFunc item) (hlarge : bufferSizeBytes < flatSize postIterFunc item) :
    (produce npuUuid postIterFunc bufferSizeBytes prod (before ++ item :: after)).error =
      some (.tooLarge item.1 (flatSize postIterFunc item) bufferSizeBytes) := by
  induction before generalizing prod with
  | nil => rw [nil_append, produce_cons hview, if_pos hlarge]
  | cons x before ih =>
    obtain ⟨⟨hx, hfit⟩, hbefore⟩ := forall_mem_cons.mp hbefore
    rw [cons_append, produce_cons hx, if_neg (Nat.not_lt.mpr hfit)]
    split <;> exact ih hbefore

/-! ## Reading the chunks -/

def readGroup (postIterFunc : String × Tensor → Tensor) (group : List (String × Tensor)) :
    Except IpcError (List (String × Tensor)) :=
  match unpack (content postIterFunc group) 0 (group.map (metaOf postIterFunc)) with
  | none => .error (.view "")
  | some weights => .ok weights

theorem readGroup_eq_ok : readGroup postIterFunc group = .ok weights ↔
      unpack (content postIterFunc group) 0 (group.map (metaOf postIterFunc)) = some weights := by
  unfold readGroup
  split <;> simp_all

theorem length_of_readGroup (h : readGroup postIterFunc group = .ok weights) : weights.length = group.length := by
  rw [length_of_unpack (readGroup_eq_ok.mp h), length_map]

theorem readGroup_iff : readGroup postIterFunc group = .ok (group.map fun item => (item.1, postIterFunc item)) ↔
      ∀ placed ∈ Packing.placed (flatSize postIterFunc) 0 group,
        (postIterFunc placed.2).dtype = placed.2.2.dtype ∧ (postIterFunc placed.2).shape = placed.2.2.shape ∧
          placed.2.2.shape ≠ [] ∧ placed.1 % placed.2.2.dtype.itemsize = 0 :=
  readGroup_eq_ok.trans (@unpack_content_iff _ postIterFunc (metaOf postIterFunc) [] group fun _ _ => rfl)

theorem packedNpuIpcConsumer_eq (h : Describes npuUuid postIterFunc out group) :
    packedNpuIpcConsumer npuUuid out.1 out.2 = readGroup postIterFunc group := by
  obtain ⟨hchunk, hbuffer⟩ := h
  have hdtypes : (chunkOf npuUuid postIterFunc group).dtypeNames.mapM Dtype.getattr = some (group.map (·.2.dtype)) := by
    unfold chunkOf
    rw [mapM_map]
    apply mapM_eq_map
    intro item _
    exact Dtype.getattr_name _
  have hmetas : (chunkOf npuUuid postIterFunc group).metas (group.map (·.2.dtype)) = group.map (metaOf postIterFunc) := by
    unfold Chunk.metas chunkOf
    simp [zip_map', metaOf]
  have hhandle : npuUuid ∈ (chunkOf npuUuid postIterFunc group).ipcHandle := mem_singleton.mpr rfl
  have hsum : (chunkOf npuUuid postIterFunc group).tensorSizes.sum = total (flatSize postIterFunc) group := rfl
  unfold packedNpuIpcConsumer
  rw [hchunk, if_pos hhandle, hdtypes]
  dsimp only
  rw [hmetas, hsum, hbuffer]
  rfl

/-! ## Lossless transfer -/

/-- Every chunk is read while it is in the buffer, and together the chunks give the tensors as
`post_iter_func` made them; a chunk that exceeds the buffer holds a single tensor. -/
structure Lossless (npuUuid : String) (postIterFunc : String × Tensor → Tensor) (bufferSizeBytes : Nat)
    (iterator : List (String × Tensor)) (produced : Produced) : Prop where
  completes : produced.error = none
  consumed : ∃ weights, produced.chunks.mapM (fun out => packedNpuIpcConsumer npuUuid out.1 out.2) = .ok weights ∧
    weights.flatten = iterator.map fun item => (item.1, postIterFunc item)
  bounded : ∀ out ∈ produced.chunks, out.1.tensorSizes.sum ≤ bufferSizeBytes ∨ out.1.names.length = 1

/-- The streams that get through: every tensor has a dimension, fits into the buffer and keeps its shape
and dtype, not all tensors are empty, and in its chunk each begins at a multiple of its item size. -/
structure Packable (postIterFunc : String × Tensor → Tensor) (bufferSizeBytes : Nat)
    (iterator : List (String × Tensor)) : Prop where
  fits : ∀ item ∈ iterator, flatSize postIterFunc item ≤ bufferSizeBytes
  keeps : ∀ item ∈ iterator, (postIterFunc item).dtype = item.2.dtype ∧ (postIterFunc item).shape = item.2.shape ∧
    item.2.shape ≠ []
  sized : iterator = [] ∨ ∃ item ∈ iterator, flatSize postIterFunc item ≠ 0
  aligned : ∀ group ∈ Packing.groupBefore bufferSizeBytes (flatSize postIterFunc) [] iterator,
    ∀ placed ∈ Packing.placed (flatSize postIterFunc) 0 group, placed.1 % placed.2.2.dtype.itemsize = 0

theorem lengths_of_readGroup {weights : List (List (String × Tensor))}
    (h : groups.map (readGroup postIterFunc) = weights.map .ok) : weights.map List.length = groups.map List.length := by
  refine ext_getElem? fun i => ?_
  have hi := congrArg (·[i]?) h
  simp only [getElem?_map] at hi ⊢
  cases hg : groups[i]? <;> cases hw : weights[i]? <;> simp_all
  exact length_of_readGroup hi

section

variable (h : Forall₂ (Describes npuUuid postIterFunc) chunks groups)

include h

theorem map_consumer :
    chunks.map (fun out => packedNpuIpcConsumer npuUuid out.1 out.2) = groups.map (readGroup postIterFunc) := by
  induction h with
  | nil => rfl
  | cons hout _ ih => rw [map_cons, map_cons, ih, packedNpuIpcConsumer_eq hout]

theorem exists_describes (hout : out ∈ chunks) :
    ∃ group ∈ groups, Describes npuUuid postIterFunc out group := by
  induction h with
  | nil => cases hout
  | cons hdescribes _ ih =>
    rcases mem_cons.mp hout with rfl | hout
    · exact ⟨_, mem_cons_self, hdescribes⟩
    · obtain ⟨group, hgroup, hdescribes⟩ := ih hout
      exact ⟨group, mem_cons_of_mem _ hgroup, hdescribes⟩

end

theorem consumed_iff
    (hchunks : Forall₂ (Describes npuUuid postIterFunc) chunks groups) (hflatten : groups.flatten = items) :
    (∃ weights, chunks.mapM (fun out => packedNpuIpcConsumer npuUuid out.1 out.2) = .ok weights ∧
        weights.flatten = items.map fun item => (item.1, postIterFunc item)) ↔
      ∀ group ∈ groups, readGroup postIterFunc group = .ok (group.map fun item => (item.1, postIterFunc item)) := by
  have hstream : items.map (fun item => (item.1, postIterFunc item)) =
      (groups.map (map fun item => (item.1, postIterFunc item))).flatten := by
    rw [← hflatten, map_flatten]
  simp only [mapM_eq_ok_iff, map_consumer hchunks, hstream]
  constructor
  · rintro ⟨weights, hread, heq⟩
    have hlengths : weights.map length =
        (groups.map (map fun item => (item.1, postIterFunc item))).map length := by
      rw [lengths_of_readGroup hread]
      simp [Function.comp_def]
    have hweights := eq_iff_flatten_eq.mpr ⟨heq, hlengths⟩
    intro group hgroup
    rw [hweights, map_map] at hread
    exact map_inj_left.mp hread group hgroup
  · intro hread
    refine ⟨_, ?_, rfl⟩
    rw [map_map]
    exact map_congr_left hread

theorem sized_iff : (items = [] ∨ ∃ item ∈ items, flatSize postIterFunc item ≠ 0) ↔
    (total (flatSize postIterFunc) items = 0 → items = []) := by
  rw [total_eq_zero]
  grind

theorem flatten_groups (hfits : ∀ item ∈ items, flatSize postIterFunc item ≤ bufferSizeBytes)
    (hsized : total (flatSize postIterFunc) items = 0 → items = []) :
    (groupBefore bufferSizeBytes (flatSize postIterFunc) [] items).flatten = items := by
  rw [flatten_groupBefore (Nat.zero_le _) hfits]
  split
  · rename_i hzero
    exact (hsized hzero).symm
  · rfl

theorem lossless_iff_packable {memory : Nat → UInt8} {iterator : List (String × Tensor)} :
    Lossless npuUuid postIterFunc bufferSizeBytes iterator
        (packedNpuIpcProducer npuUuid postIterFunc bufferSizeBytes memory iterator) ↔
      Packable postIterFunc bufferSizeBytes iterator := by
  have hinit : Holds postIterFunc bufferSizeBytes [] (.init ((range bufferSizeBytes).map memory)) :=
    Holds.init (by simp)
  unfold packedNpuIpcProducer
  refine ⟨fun h => ?_, fun h => ?_⟩
  · have hitems := fits_of_no_error h.completes
    obtain ⟨-, hchunks⟩ := @produce_groups npuUuid _ _ _ _ _ hinit (Nat.zero_le _) hitems
    have hfits := fun item hitem => (hitems item hitem).2
    -- As many tensors are read as are packed, so tensors are dropped only from an empty stream.
    have hsized : total (flatSize postIterFunc) iterator = 0 → iterator = [] := by
      intro hzero
      obtain ⟨weights, hread, heq⟩ := h.consumed
      rw [mapM_eq_ok_iff, map_consumer hchunks] at hread
      have hlength := congrArg sum (lengths_of_readGroup hread)
      rw [← length_flatten, ← length_flatten, flatten_groupBefore (Nat.zero_le _) hfits, nil_append,
        if_pos hzero, heq] at hlength
      simpa using hlength
    have hall := flatten_groups hfits hsized
    have hread := fun group hgroup => readGroup_iff.mp ((consumed_iff hchunks hall).mp h.consumed group hgroup)
    constructor
    case fits => exact hfits
    case keeps =>
      intro item hitem
      rw [← hall] at hitem
      obtain ⟨group, hgroup, hitem⟩ := mem_flatten.mp hitem
      obtain ⟨entry, hentry, rfl⟩ := exists_placed 0 hitem
      obtain ⟨hdtype, hshape, hne, -⟩ := hread group hgroup entry hentry
      exact ⟨hdtype, hshape, hne⟩
    case sized => exact sized_iff.mpr hsized
    case aligned =>
      intro group hgroup entry hentry
      exact (hread group hgroup entry hentry).2.2.2
  · have hitems : ∀ item ∈ iterator, Viewable postIterFunc item ∧ flatSize postIterFunc item ≤ bufferSizeBytes := by
      intro item hitem
      obtain ⟨-, hshape, hne⟩ := h.keeps item hitem
      exact ⟨Tensor.viewUint8_of_shape (hshape ▸ hne), h.fits item hitem⟩
    obtain ⟨herror, hchunks⟩ := @produce_groups npuUuid _ _ _ _ _ hinit (Nat.zero_le _) hitems
    have hall := flatten_groups h.fits (sized_iff.mp h.sized)
    constructor
    case completes => exact herror
    case consumed =>
      apply (consumed_iff hchunks hall).mpr
      intro group hgroup
      apply readGroup_iff.mpr
      intro entry hentry
      have hitem : entry.2 ∈ iterator := by
        rw [← hall]
        exact mem_flatten.mpr ⟨group, hgroup, mem_of_placed hentry⟩
      obtain ⟨hdtype, hshape, hne⟩ := h.keeps entry.2 hitem
      exact ⟨hdtype, hshape, hne, h.aligned group hgroup entry hentry⟩
    case bounded =>
      intro out hout
      obtain ⟨group, hgroup, hdescribes⟩ := exists_describes hchunks hout
      rw [hdescribes.1]
      exact .inl (total_le_of_mem_groupBefore (Nat.zero_le _) h.fits hgroup)

/-- Packable streams, and no others, get through without loss; the first tensor that exceeds the buffer
is reported by name. -/
theorem packedIpc_lossless_iff (npuUuid : String) (postIterFunc : String × Tensor → Tensor) (bufferSizeBytes : Nat)
    (memory : Nat → UInt8) (iterator : List (String × Tensor)) :
    (Lossless npuUuid postIterFunc bufferSizeBytes iterator (packedNpuIpcProducer npuUuid postIterFunc bufferSizeBytes
        memory iterator) ↔ Packable postIterFunc bufferSizeBytes iterator) ∧
    ∀ before item after, iterator = before ++ item :: after →
      (∀ x ∈ before, (postIterFunc x).shape ≠ [] ∧ flatSize postIterFunc x ≤ bufferSizeBytes) →
      (postIterFunc item).shape ≠ [] → bufferSizeBytes < flatSize postIterFunc item →
      (packedNpuIpcProducer npuUuid postIterFunc bufferSizeBytes memory iterator).error =
        some (.tooLarge item.1 (flatSize postIterFunc item) bufferSizeBytes) := by
  refine ⟨lossless_iff_packable, ?_⟩
  rintro before item after rfl hbefore hshape hlarge
  refine produce_tooLarge (fun x hx => ?_) (Tensor.viewUint8_of_shape hshape) hlarge
  exact ⟨Tensor.viewUint8_of_shape (hbefore x hx).1, (hbefore x hx).2⟩

end Groups

theorem packedIpc_lossless_iff_two_weights :
    Lossless "npu" Prod.snd 4 [("scale", .zeros .float32 [1]), ("bias", .zeros .float16 [1])]
        (packedNpuIpcProducer "npu" Prod.snd 4 (fun _ => 0)
          [("scale", .zeros .float32 [1]), ("bias", .zeros .float16 [1])]) ∧
      (packedNpuIpcProducer "npu" Prod.snd 3 (fun _ => 0) [("scale", .zeros .float32 [1])]).error =
        some (.tooLarge "scale" 4 3) :=
  ⟨(packedIpc_lossless_iff "npu" Prod.snd 4 (fun _ => 0)
      [("scale", .zeros .float32 [1]), ("bias", .zeros .float16 [1])]).1.mpr
      ⟨by decide, by decide, by decide, by decide⟩,
    (packedIpc_lossless_iff "npu" Prod.snd 3 (fun _ => 0) [("scale", .zeros .float32 [1])]).2
      [] ("scale", .zeros .float32 [1]) [] rfl (by decide) (by decide) (by decide)⟩

/-- Streams that do not get through: a tensor larger than the buffer, empty tensors only, a tensor that is
reshaped, one behind a shorter item, and one without a dimension. -/
theorem packedIpc_streams_lost : ¬ Lossless "npu" Prod.snd 1 [("w", .zeros .float16 [1])]
        (packedNpuIpcProducer "npu" Prod.snd 1 (fun _ => 0) [("w", .zeros .float16 [1])]) ∧
    ¬ Lossless "npu" Prod.snd 8 [("w", .zeros .float16 [0])]
        (packedNpuIpcProducer "npu" Prod.snd 8 (fun _ => 0) [("w", .zeros .float16 [0])]) ∧
    ¬ Lossless "npu" (fun _ => .zeros .float16 [2, 1]) 8 [("w", .zeros .float16 [2])]
        (packedNpuIpcProducer "npu" (fun _ => .zeros .float16 [2, 1]) 8 (fun _ => 0) [("w", .zeros .float16 [2])]) ∧
    ¬ Lossless "npu" Prod.snd 8 [("v", .zeros .bfloat16 [1]), ("w", .zeros .float32 [1])]
        (packedNpuIpcProducer "npu" Prod.snd 8 (fun _ => 0)
          [("v", .zeros .bfloat16 [1]), ("w", .zeros .float32 [1])]) ∧
    ¬ Lossless "npu" Prod.snd 8 [("w", .zeros .float16 [])]
        (packedNpuIpcProducer "npu" Prod.snd 8 (fun _ => 0) [("w", .zeros .float16 [])]) := by
  simp only [lossless_iff_packable]
  refine ⟨fun h => ?_, fun h => ?_, fun h => ?_, fun h => ?_, fun h => ?_⟩
  · exact absurd (h.fits _ mem_cons_self) (by decide)
  · exact absurd h.sized (by decide)
  · exact absurd (h.keeps _ mem_cons_self) (by decide)
  · exact absurd h.aligned (by decide)
  · exact absurd (h.keeps _ mem_cons_self) (by decide)

end VllmAscend.WeightTransfer
