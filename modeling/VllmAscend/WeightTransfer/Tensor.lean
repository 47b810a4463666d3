import VllmAscend.Lib.Packing

/-!
# Tensors as bytes

A tensor is its contiguous content. A view fails where `torch.Tensor.view` does: a tensor without dimensions has no
view of another item size, and the place of the bytes in their storage has to be a multiple of the item size.
-/

namespace VllmAscend.WeightTransfer

open List Option

inductive Dtype
  | bool | uint8 | int8 | float8_e4m3fn | float8_e5m2
  | uint16 | int16 | float16 | bfloat16
  | uint32 | int32 | float32
  | uint64 | int64 | float64 | complex64
  | complex128
  deriving DecidableEq, Repr

namespace Dtype

def itemsize : Dtype → Nat
  | bool | uint8 | int8 | float8_e4m3fn | float8_e5m2 => 1
  | uint16 | int16 | float16 | bfloat16 => 2
  | uint32 | int32 | float32 => 4
  | uint64 | int64 | float64 | complex64 => 8
  | complex128 => 16

/-- `str(dtype).split(".")[-1]` -/
def name : Dtype → String
  | bool => "bool" | uint8 => "uint8" | int8 => "int8"
  | float8_e4m3fn => "float8_e4m3fn" | float8_e5m2 => "float8_e5m2"
  | uint16 => "uint16" | int16 => "int16" | float16 => "float16" | bfloat16 => "bfloat16"
  | uint32 => "uint32" | int32 => "int32" | float32 => "float32"
  | uint64 => "uint64" | int64 => "int64" | float64 => "float64" | complex64 => "complex64"
  | complex128 => "complex128"

def getattr (name : String) : Option Dtype :=
  [bool, uint8, int8, float8_e4m3fn, float8_e5m2, uint16, int16, float16, bfloat16, uint32, int32, float32, uint64,
    int64, float64, complex64, complex128].find? (·.name == name)

@[simp]
theorem getattr_name (dtype : Dtype) : getattr dtype.name = some dtype := by cases dtype <;> decide

end Dtype

structure Tensor where
  dtype : Dtype
  shape : List Nat
  bytes : List UInt8
  length_bytes : bytes.length = shape.prod * dtype.itemsize
  deriving DecidableEq

namespace Tensor

def size (tensor : Tensor) : Nat := tensor.bytes.length

def zeros (dtype : Dtype) (shape : List Nat) : Tensor :=
  ⟨dtype, shape, replicate (shape.prod * dtype.itemsize) 0, length_replicate⟩

/-- `tensor.contiguous().view(torch.uint8).view(-1)` -/
def viewUint8 (tensor : Tensor) : Option (List UInt8) :=
  if tensor.shape.isEmpty && tensor.dtype.itemsize != 1 then none else some tensor.bytes

/-- `raw.contiguous().view(dtype).view(*shape)` of bytes at a place in their storage; `view()` without
sizes is refused. -/
def ofBytes (place : Nat) (raw : List UInt8) (dtype : Dtype) (shape : List Nat) : Option Tensor :=
  if place % dtype.itemsize = 0 ∧ shape ≠ [] then
    if h : raw.length = shape.prod * dtype.itemsize then some ⟨dtype, shape, raw, h⟩ else none
  else none

theorem viewUint8_eq_some {tensor : Tensor} {raw : List UInt8} (h : tensor.viewUint8 = some raw) : raw = tensor.bytes := by
  obtain ⟨_, h⟩ := ite_none_left_eq_some.mp h
  exact (some_inj.mp h).symm

theorem viewUint8_of_shape {tensor : Tensor} (h : tensor.shape ≠ []) : tensor.viewUint8 = some tensor.bytes := by
  simp [viewUint8, h]

theorem ofBytes_eq_some_iff {place : Nat} {dtype : Dtype} {shape : List Nat} {tensor : Tensor} :
    ofBytes place tensor.bytes dtype shape = some tensor ↔
      tensor.dtype = dtype ∧ tensor.shape = shape ∧ shape ≠ [] ∧ place % dtype.itemsize = 0 := by
  unfold ofBytes
  constructor
  · intro h
    obtain ⟨hview, h⟩ := ite_none_right_eq_some.mp h
    split at h
    · have heq := some_inj.mp h
      exact ⟨(congrArg Tensor.dtype heq).symm, (congrArg Tensor.shape heq).symm, hview.2, hview.1⟩
    · cases h
  · rintro ⟨rfl, rfl, hshape, hplace⟩
    rw [if_pos ⟨hplace, hshape⟩, dif_pos tensor.length_bytes]

end Tensor

/-! ## Reading a packed chunk -/

structure Meta where
  name : String
  shape : List Nat
  dtype : Dtype
  size : Nat

def unpack (packed : List UInt8) : Nat → List Meta → Option (List (String × Tensor))
  | _, [] => some []
  | place, entry :: rest =>
    (Tensor.ofBytes place ((packed.drop place).take entry.size) entry.dtype entry.shape).bind fun tensor =>
      (unpack packed (place + entry.size) rest).map ((entry.name, tensor) :: ·)

theorem length_of_unpack {packed : List UInt8} {place : Nat} {metas : List Meta} {weights : List (String × Tensor)}
    (h : unpack packed place metas = some weights) : weights.length = metas.length := by
  induction metas generalizing place weights with
  | nil =>
    cases h
    rfl
  | cons entry rest ih =>
    obtain ⟨tensor, -, h⟩ := bind_eq_some_iff.mp h
    obtain ⟨tail, htail, rfl⟩ := map_eq_some_iff.mp h
    rw [length_cons, ih htail, length_cons]

section Unpack

variable {ι : Type*} (tensor : ι → Tensor) (entry : ι → Meta)

def content (items : List ι) : List UInt8 := items.flatMap fun item => (tensor item).bytes

theorem length_content (items : List ι) : (content tensor items).length = Packing.total (fun x => (tensor x).size) items := by
  induction items with
  | nil => rfl
  | cons item items ih =>
    rw [Packing.total_cons, ← ih]
    simp [content, Tensor.size]

theorem unpack_content_iff {before items : List ι} (hsize : ∀ item ∈ items, (entry item).size = (tensor item).size) :
    unpack (content tensor (before ++ items)) (content tensor before).length (items.map entry) =
        some (items.map fun item => ((entry item).name, tensor item)) ↔
      ∀ placed ∈ Packing.placed (fun x => (tensor x).size) (content tensor before).length items,
        (tensor placed.2).dtype = (entry placed.2).dtype ∧ (tensor placed.2).shape = (entry placed.2).shape ∧
          (entry placed.2).shape ≠ [] ∧ placed.1 % (entry placed.2).dtype.itemsize = 0 := by
  induction items generalizing before with
  | nil => simp [unpack, Packing.placed]
  | cons item items ih =>
    obtain ⟨hitem, hitems⟩ := forall_mem_cons.mp hsize
    have hsplit : before ++ item :: items = (before ++ [item]) ++ items := by simp
    have hlen : (content tensor (before ++ [item])).length = (content tensor before).length + (entry item).size := by
      simp [content, hitem, Tensor.size]
    have hraw : ((content tensor (before ++ item :: items)).drop (content tensor before).length).take (entry item).size =
        (tensor item).bytes := by
      simp [content, hitem, Tensor.size]
    have ih := @ih (before ++ [item]) hitems
    rw [← hsplit, hlen] at ih
    rw [map_cons, unpack, hraw, Packing.placed, forall_mem_cons, ← hitem, ← ih, ← Tensor.ofBytes_eq_some_iff]
    cases hfirst : Tensor.ofBytes (content tensor before).length (tensor item).bytes (entry item).dtype (entry item).shape <;>
      cases hrest : unpack (content tensor (before ++ item :: items)) ((content tensor before).length + (entry item).size)
        (items.map entry) <;> simp

end Unpack

end VllmAscend.WeightTransfer
