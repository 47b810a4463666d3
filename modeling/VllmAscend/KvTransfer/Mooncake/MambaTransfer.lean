import VllmAscend.Lib.Loop

/-!
# Mamba states pulled from several ranks

A row of a conv state has a query, a key and a value section, of each of which a prefill rank has a part.
-/

namespace VllmAscend.KvTransfer.Mooncake

open List Loop

/-- What is configured. An ssm state has `ssmHeadLen` bytes for each value head. -/
structure MambaGroup where
  tpSize : Nat
  tpRatio : Nat
  linearNumKeyHeads : Nat
  linearKeyHeadDim : Nat
  linearNumValueHeads : Nat
  linearValueHeadDim : Nat
  convRows : Nat
  dtypeSize : Nat
  ssmHeadLen : Nat
  tpSize_pos : 0 < tpSize
  tpRatio_pos : 0 < tpRatio
  keyHeads : tpSize * tpRatio ∣ linearNumKeyHeads
  valueHeads : tpSize * tpRatio ∣ linearNumValueHeads

/-- A block of the conv and of the ssm state, by base addresses and strides. -/
structure Side where
  addr : Nat × Nat
  stride : Nat × Nat
  blockId : Nat

def Side.conv (s : Side) : Nat := s.addr.1 + s.blockId * s.stride.1

def Side.ssm (s : Side) : Nat := s.addr.2 + s.blockId * s.stride.2

structure Descriptor where
  src : Nat
  dst : Nat
  length : Nat

namespace MambaGroup

variable (g : MambaGroup) (tp : Nat)

def keySize : Nat := g.linearNumKeyHeads / tp * g.linearKeyHeadDim

def valueSize : Nat := g.linearNumValueHeads / tp * g.linearValueHeadDim

def width : Nat := 2 * g.keySize tp + g.valueSize tp

/-- The offsets and sizes of the sections on one of `tp` ranks. -/
def sections : List (Nat × Nat) :=
  [(0, g.keySize tp), (g.keySize tp, g.keySize tp), (2 * g.keySize tp, g.valueSize tp)]

def convLen : Nat := g.convRows * g.width tp * g.dtypeSize

def ssmLen : Nat := g.linearNumValueHeads / tp * g.ssmHeadLen

def remoteTpSize : Nat := g.tpSize * g.tpRatio

/-- `_append_mamba_transfer_meta`, whose assertions hold where there is a rank and a pull. -/
def appendMambaTransferMeta (near far : Side) (localConvLen localSsmLen remoteTpOffset : Nat) : List Descriptor :=
  if g.tpRatio = 1 then [⟨near.conv, far.conv, localConvLen / g.tpRatio⟩, ⟨near.ssm, far.ssm, localSsmLen / g.tpRatio⟩]
  else
    ((range g.convRows).flatMap fun i => (g.sections g.remoteTpSize).map fun (offset, size) =>
      ⟨near.conv + ((i * g.width g.remoteTpSize + offset) * g.tpRatio + remoteTpOffset * size) * g.dtypeSize,
        far.conv + (i * g.width g.remoteTpSize + offset) * g.dtypeSize, size * g.dtypeSize⟩) ++
      [⟨near.ssm + remoteTpOffset * localSsmLen / g.tpRatio, far.ssm, localSsmLen / g.tpRatio⟩]

/-- Every byte of the local states is written once, every byte of the remote ones is read once, and the sections of a row
have their parts in the order of the ranks. -/
structure Tiled (near : Side) (far : Nat → Side) (pulls : Nat → List Descriptor) : Prop where
  written : ∀ x, cover ((range g.tpRatio).flatMap fun r => (pulls r).map fun d => (d.src, d.length)) x =
    cover [(near.conv, g.convLen g.tpSize), (near.ssm, g.ssmLen g.tpSize)] x
  read : ∀ r < g.tpRatio, ∀ x, cover ((pulls r).map fun d => (d.dst, d.length)) x =
    cover [((far r).conv, g.convLen g.remoteTpSize), ((far r).ssm, g.ssmLen g.remoteTpSize)] x
  order : ∀ r < g.tpRatio, ∀ i < g.convRows, ∀ s ∈ (g.sections g.tpSize).zip (g.sections g.remoteTpSize),
    ∀ t < s.2.2 * g.dtypeSize, ∃ d ∈ pulls r, ∃ j < d.length,
      d.src + j = near.conv + (i * g.width g.tpSize + s.1.1 + r * s.2.2) * g.dtypeSize + t ∧
      d.dst + j = (far r).conv + (i * g.width g.remoteTpSize + s.2.1) * g.dtypeSize + t

variable {g}

theorem div_tpSize {heads : Nat} (h : g.remoteTpSize ∣ heads) (m : Nat) :
    heads / g.tpSize * m = heads / g.remoteTpSize * m * g.tpRatio := by
  obtain ⟨k, rfl⟩ := h
  rw [remoteTpSize, Nat.mul_div_cancel_left _ (Nat.mul_pos g.tpSize_pos g.tpRatio_pos), mul_assoc,
    Nat.mul_div_cancel_left _ g.tpSize_pos]
  ring

theorem width_tpSize : g.width g.tpSize = g.width g.remoteTpSize * g.tpRatio := by
  simp only [width, keySize, valueSize, div_tpSize g.keyHeads, div_tpSize g.valueHeads]
  ring

theorem section_tpSize {s : (Nat × Nat) × Nat × Nat} (hs : s ∈ (g.sections g.tpSize).zip (g.sections g.remoteTpSize)) :
    s.1.1 = s.2.1 * g.tpRatio ∧ s.2.1 + s.2.2 ≤ g.width g.remoteTpSize := by
  have hkey : g.keySize g.tpSize = g.keySize g.remoteTpSize * g.tpRatio := div_tpSize g.keyHeads _
  simp only [sections, zip_cons_cons, zip_nil_left, mem_cons, not_mem_nil, or_false] at hs
  rcases hs with rfl | rfl | rfl
  all_goals
    simp only [width, hkey, zero_mul, mul_assoc, true_and]
    omega

/-- The rows of sections, each section in `p` parts, tile a conv state. -/
theorem sum_cover_sections (a p x : Nat) :
    ∑ r ∈ Finset.range p, cover ((range g.convRows).flatMap fun i => (g.sections tp).map fun s =>
      (a + ((i * g.width tp + s.1) * p + r * s.2) * g.dtypeSize, s.2 * g.dtypeSize)) x =
    cover [(a, g.convLen tp * p)] x := by
  have hparts (b z : Nat) : ∑ r ∈ Finset.range p, cover [(a + (b * p + r * z) * g.dtypeSize, z * g.dtypeSize)] x =
      cover [(a + b * p * g.dtypeSize, p * (z * g.dtypeSize))] x := by
    rw [← sum_cover]
    simp only [add_mul, mul_assoc, ← add_assoc]
  simp only [cover_flatMap_range, sections, map_cons, map_nil, cover_cons]
  rw [Finset.sum_comm, convLen, mul_assoc, mul_assoc, ← sum_cover]
  refine Finset.sum_congr rfl fun i _ => ?_
  rw [Finset.sum_add_distrib, Finset.sum_add_distrib, hparts, hparts, hparts, width, two_mul, add_assoc]
  simp only [add_mul, cover_split]
  ring_nf

theorem mamba_state_tiled (g : MambaGroup) (near : Side) (far : Nat → Side) :
    g.Tiled near far fun r => g.appendMambaTransferMeta near (far r) (g.convLen g.tpSize) (g.ssmLen g.tpSize) r := by
  by_cases hone : g.tpRatio = 1
  · have htp : g.remoteTpSize = g.tpSize := by rw [remoteTpSize, hone, mul_one]
    simp only [appendMambaTransferMeta, hone, Nat.div_one]
    refine ⟨by simp [hone], by simp [htp], ?_⟩
    intro r hr i hi s hs t ht
    obtain ⟨hlocal, hle⟩ := section_tpSize hs
    obtain rfl : r = 0 := by omega
    refine ⟨_, mem_cons_self, (i * g.width g.remoteTpSize + s.2.1) * g.dtypeSize + t, ?_, ?_, ?_⟩
    · have hrow : i * g.width g.remoteTpSize + s.2.1 + s.2.2 ≤ g.convRows * g.width g.remoteTpSize :=
        calc _ ≤ (i + 1) * g.width g.remoteTpSize := by rw [Nat.succ_mul]; omega
          _ ≤ _ := Nat.mul_le_mul_right _ hi
      have hbytes := Nat.mul_le_mul_right g.dtypeSize hrow
      rw [add_mul] at hbytes
      rw [convLen, ← htp]
      exact (Nat.add_lt_add_left ht _).trans_le hbytes
    · rw [hlocal, hone, htp]
      ring
    · rw [add_assoc]
  · have hssm : g.ssmLen g.tpSize = g.ssmLen g.remoteTpSize * g.tpRatio := div_tpSize g.valueHeads _
    simp only [appendMambaTransferMeta, if_neg hone, hssm, ← mul_assoc, Nat.mul_div_cancel _ g.tpRatio_pos]
    refine ⟨fun x => ?_, fun r _ x => ?_, fun r _ i hi s hs t ht => ?_⟩
    · simp only [cover_flatMap_range g.tpRatio, map_append, map_flatMap, map_map, Function.comp_def, map_cons, map_nil,
        cover_append, Finset.sum_add_distrib, cover_cons, sum_cover]
      rw [sum_cover_sections, hssm, convLen, convLen, width_tpSize, mul_comm g.tpRatio]
      ring_nf
    · have hread := sum_cover_sections (g := g) g.remoteTpSize (far r).conv 1 x
      simp only [Finset.range_one, Finset.sum_singleton, zero_mul, add_zero, mul_one] at hread
      simp only [map_append, map_flatMap, map_map, Function.comp_def, map_cons, map_nil, cover_append, cover_cons, hread]
    · refine ⟨_, mem_append_left _ (mem_flatMap.mpr ⟨i, mem_range.mpr hi, mem_map_of_mem (of_mem_zip hs).2⟩), t, ht, ?_, rfl⟩
      rw [(section_tpSize hs).1, width_tpSize]
      ring

end MambaGroup

end VllmAscend.KvTransfer.Mooncake
