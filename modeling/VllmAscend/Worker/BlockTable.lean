import VllmAscend.Lib.Machine
import VllmAscend.Lib.Pieces

/-!
# Block tables under context parallelism

`computePcpDcpSlotMapping` finds the slot of a token from its position: the virtual block gives the physical block,
the interleave unit gives the rank and the offset, and the kernel size splits the offset once more.
-/

namespace VllmAscend.Worker

open Machine RoundRobin List Option Function Nat

structure TableArgs where
  blockSize : Nat
  maxNumReqs : Nat
  maxNumBlocksPerReq : Nat
  kernelSizes : Option (List Nat) := none
  cpKvCacheInterleaveSize : Nat := 1
  numSpeculativeTokens : Nat := 0
  pcpWorldSize : Nat := 1
  dcpWorldSize : Nat := 1
  compressRatio : Nat := 1
  isMambaGroup : Bool := false
  blockSize_pos : 0 < blockSize := by decide
  pcp_pos : 0 < pcpWorldSize := by decide
  dcp_pos : 0 < dcpWorldSize := by decide
  interleave_dvd : cpKvCacheInterleaveSize ∣ blockSize := by decide

/-- What `BlockTable.__init__` fixes. The physical block is cut into kernel blocks evenly. -/
structure Layout where
  pcpWorldSize : Nat
  dcpWorldSize : Nat
  maxNumReqs : Nat
  maxNumBlocksPerReq : Nat
  physicalBlockSize : Nat
  blockSize : Nat
  blocksPerPhysBlock : Nat
  useHybridBlocks : Bool
  cpKvCacheInterleaveSize : Nat
  duplicateSize : Nat
  pcp_pos : 0 < pcpWorldSize
  dcp_pos : 0 < dcpWorldSize
  physical_pos : 0 < physicalBlockSize
  split : blocksPerPhysBlock * blockSize = physicalBlockSize
  hybrid_iff : useHybridBlocks = true ↔ 1 < blocksPerPhysBlock
  interleave_dvd : cpKvCacheInterleaveSize ∣ physicalBlockSize
  duplicate_pos : 0 < duplicateSize

namespace Layout

def cdiv (a b : Nat) : Nat := (a + b - 1) / b

def maxBlocks (a : TableArgs) : Nat :=
  let maxNumBlocksPerReq :=
    if a.isMambaGroup ∧ 1 < a.pcpWorldSize * a.dcpWorldSize then
      a.maxNumBlocksPerReq * a.pcpWorldSize * a.dcpWorldSize
    else a.maxNumBlocksPerReq
  max (cdiv maxNumBlocksPerReq a.compressRatio) 1

def duplicates (a : TableArgs) : Nat := if 1 < a.pcpWorldSize * a.dcpWorldSize then 1 + a.numSpeculativeTokens else 1

def selectKernelSize (kernelSizes : List Nat) (physicalBlockSize : Nat) : Option Nat :=
  kernelSizes.find? fun kernelSize => 0 < kernelSize ∧ physicalBlockSize % kernelSize = 0

theorem selectKernelSize_spec {kernelSizes : List Nat} {physicalBlockSize k : Nat}
    (h : selectKernelSize kernelSizes physicalBlockSize = some k) :
    physicalBlockSize / k * k = physicalBlockSize := by
  have hk := find?_some h
  simp only [decide_eq_true_eq] at hk
  exact Nat.div_mul_cancel (dvd_of_mod_eq_zero hk.2)

theorem duplicates_pos (a : TableArgs) : 0 < duplicates a := by
  unfold duplicates
  split <;> omega

def ofSplit (a : TableArgs) (kernelSize blocksPerPhysBlock : Nat)
    (h : blocksPerPhysBlock * kernelSize = a.blockSize) : Layout where
  pcpWorldSize := a.pcpWorldSize
  dcpWorldSize := a.dcpWorldSize
  maxNumReqs := a.maxNumReqs
  maxNumBlocksPerReq := maxBlocks a
  physicalBlockSize := a.blockSize
  blockSize := kernelSize
  blocksPerPhysBlock := blocksPerPhysBlock
  useHybridBlocks := 1 < blocksPerPhysBlock
  cpKvCacheInterleaveSize := a.cpKvCacheInterleaveSize
  duplicateSize := duplicates a
  pcp_pos := a.pcp_pos
  dcp_pos := a.dcp_pos
  physical_pos := a.blockSize_pos
  split := h
  hybrid_iff := by simp
  interleave_dvd := a.interleave_dvd
  duplicate_pos := duplicates_pos a

def init (a : TableArgs) : Except String Layout :=
  let kernelSizes := a.kernelSizes.getD [0]
  let physicalBlockSize := a.blockSize
  if kernelSizes = [0] then .ok (ofSplit a a.blockSize 1 (Nat.one_mul _))
  else
    match h : selectKernelSize kernelSizes physicalBlockSize with
    | none =>
      .error s!"None of the kernel sizes {kernelSizes} can divide physical block size {physicalBlockSize} evenly"
    | some kernelSize => .ok (ofSplit a kernelSize (physicalBlockSize / kernelSize) (selectKernelSize_spec h))

variable (l : Layout)

def totalCpWorldSize : Nat := l.dcpWorldSize * l.pcpWorldSize

def logicalTableSize : Nat :=
  if l.useHybridBlocks then l.maxNumBlocksPerReq * l.blocksPerPhysBlock else l.maxNumBlocksPerReq

def convertPhysicalToLogicalBlocks (physicalBlocks : List Nat) : List Nat :=
  if l.useHybridBlocks then
    physicalBlocks.flatMap fun physBlock => range' (physBlock * l.blocksPerPhysBlock) l.blocksPerPhysBlock
  else physicalBlocks

end Layout

structure BlockTable where
  layout : Layout
  blockTable : Nat → Nat → Nat
  numBlocksPerRow : Nat → Nat

structure CpRank (l : Layout) where
  pcpRank : Fin l.pcpWorldSize
  dcpRank : Fin l.dcpWorldSize

def CpRank.currentRank {l : Layout} (rank : CpRank l) : Nat := l.dcpWorldSize * rank.pcpRank + rank.dcpRank

namespace BlockTable

def new (l : Layout) : BlockTable := ⟨l, fun _ _ => 0, fun _ => 0⟩

/-! ## Rows -/

def assign (table : Nat → Nat → Nat) (row start : Nat) (ids : List Nat) : Nat → Nat → Nat :=
  fun r c => if r = row ∧ start ≤ c ∧ c < start + ids.length then ids.getD (c - start) 0 else table r c

def setNumBlocks (t : BlockTable) (row n : Nat) : BlockTable :=
  { t with numBlocksPerRow := update t.numBlocksPerRow row n }

/-- `none` is an exception: no such row, or ids that do not fit into it. -/
def appendRow (t : BlockTable) (blockIds : List Nat) (row : Nat) : Option BlockTable :=
  if blockIds = [] then some t
  else if row < t.layout.maxNumReqs then
    let blockIds := t.layout.convertPhysicalToLogicalBlocks blockIds
    let numBlocks := blockIds.length
    let start := t.numBlocksPerRow row
    if start + numBlocks ≤ t.layout.logicalTableSize then
      some ({ t with blockTable := assign t.blockTable row start blockIds }.setNumBlocks row
        (start + numBlocks))
    else none
  else none

def addRow (t : BlockTable) (blockIds : List Nat) (row : Nat) : Option BlockTable :=
  if row < t.layout.maxNumReqs then (t.setNumBlocks row 0).appendRow blockIds row else none

def clearRow (t : BlockTable) (row : Nat) : Option BlockTable :=
  if row < t.layout.maxNumReqs then
    let numBlocks := t.numBlocksPerRow row
    some ({ t with blockTable := assign t.blockTable row 0 (replicate numBlocks 0) }.setNumBlocks
      row 0)
  else none

def moveRow (t : BlockTable) (src tgt : Nat) : Option BlockTable :=
  if src < t.layout.maxNumReqs ∧ tgt < t.layout.maxNumReqs then
    let numBlocks := t.numBlocksPerRow src
    let ids := (range numBlocks).map (t.blockTable src)
    some ({ t with blockTable := assign t.blockTable tgt 0 ids }.setNumBlocks tgt numBlocks)
  else none

def swapRow (t : BlockTable) (src tgt : Nat) : Option BlockTable :=
  if src < t.layout.maxNumReqs ∧ tgt < t.layout.maxNumReqs then
    some
      { t with
        blockTable := fun r => t.blockTable (Equiv.swap src tgt r)
        numBlocksPerRow := fun r => t.numBlocksPerRow (Equiv.swap src tgt r) }
  else none

/-! ## Slots -/

def flatten (t : BlockTable) (i : Nat) : Option Nat :=
  let width := t.layout.logicalTableSize
  if i < t.layout.maxNumReqs * t.layout.duplicateSize * width then
    some (t.blockTable (i / width) (i % width))
  else none

def slotOf (t : BlockTable) (rank : CpRank t.layout) (reqIndex position : Nat) : Option Int :=
  let l := t.layout
  let totalCpWorldSize := l.totalCpWorldSize
  let virtualPhysicalBlockSize := l.physicalBlockSize * totalCpWorldSize
  let physicalBlockIdx := position / virtualPhysicalBlockSize
  let virtualBlockOffset := position % virtualPhysicalBlockSize
  let mask := virtualBlockOffset / l.cpKvCacheInterleaveSize % totalCpWorldSize = rank.currentRank
  let localPhysicalOffset :=
    virtualBlockOffset / (totalCpWorldSize * l.cpKvCacheInterleaveSize) * l.cpKvCacheInterleaveSize
      + virtualBlockOffset % l.cpKvCacheInterleaveSize
  let logicalBlockIdx := physicalBlockIdx * l.blocksPerPhysBlock + localPhysicalOffset / l.blockSize
  let blockTableIndex := reqIndex * l.maxNumBlocksPerReq * l.blocksPerPhysBlock + logicalBlockIdx
  let blockOffset := localPhysicalOffset % l.blockSize
  (t.flatten blockTableIndex).map fun blockNumber =>
    if mask then ((blockNumber * l.blockSize + blockOffset : Nat) : Int) else -1

/-- `none` is an index error: a position beyond the table. -/
def computePcpDcpSlotMapping (t : BlockTable) (rank : CpRank t.layout)
    (reqIndices positions : List Nat) : Option (List Int) :=
  (reqIndices.zip positions).mapM fun token => t.slotOf rank token.1 token.2

def stores (t : BlockTable) (rank : CpRank t.layout) (reqIndex position : Nat) : Bool :=
  (t.slotOf rank reqIndex position).any (0 ≤ ·)

end BlockTable

def getCpLocalSeqLens (seqLens : List Nat) (pcpWorldSize dcpWorldSize : Nat := 1)
    (cpKvCacheInterleaveSize : Nat := 1) : List (List (List Int)) :=
  let totalWorldSize := pcpWorldSize * dcpWorldSize
  let localSeqLen (seqLen rankOffset : Nat) : Int :=
    let base : Int := (seqLen / cpKvCacheInterleaveSize / totalWorldSize * cpKvCacheInterleaveSize : Nat)
    let remainder : Int := seqLen - base * totalWorldSize
    base + min (max (remainder - rankOffset * cpKvCacheInterleaveSize) 0) cpKvCacheInterleaveSize
  seqLens.map fun seqLen =>
    (range pcpWorldSize).map fun pcpRank =>
      (range dcpWorldSize).map fun dcpRank => localSeqLen seqLen (pcpRank * dcpWorldSize + dcpRank)

/-! ## What the rows hold -/

inductive RowOp
  | append (blockIds : List Nat) (row : Nat)
  | add (blockIds : List Nat) (row : Nat)
  | clear (row : Nat)
  | move (src tgt : Nat)
  | swap (src tgt : Nat)

def BlockTable.step (t : BlockTable) : RowOp → Option BlockTable
  | .append blockIds row => t.appendRow blockIds row
  | .add blockIds row => t.addRow blockIds row
  | .clear row => t.clearRow row
  | .move src tgt => t.moveRow src tgt
  | .swap src tgt => t.swapRow src tgt

def RowOp.owned (own : Nat → List Nat) : RowOp → Nat → List Nat
  | .append blockIds row => update own row (own row ++ blockIds)
  | .add blockIds row => update own row blockIds
  | .clear row => update own row []
  | .move src tgt => update own tgt (own src)
  | .swap src tgt => fun row => own (Equiv.swap src tgt row)

namespace Layout

variable (l : Layout)

abbrev virtualPhysical : Nat := l.physicalBlockSize * l.totalCpWorldSize

abbrev ownerOf : Nat → Nat := owner l.cpKvCacheInterleaveSize l.totalCpWorldSize

abbrev indexOf : Nat → Nat := index l.cpKvCacheInterleaveSize l.totalCpWorldSize

theorem blocksPerPhysBlock_pos : 0 < l.blocksPerPhysBlock := Nat.pos_of_mul_pos_right (l.split ▸ l.physical_pos)

theorem blockSize_pos : 0 < l.blockSize := Nat.pos_of_mul_pos_left (l.split ▸ l.physical_pos)

theorem interleave_pos : 0 < l.cpKvCacheInterleaveSize := pos_of_dvd_of_pos l.interleave_dvd l.physical_pos

theorem mod_block (p : Nat) :
    l.indexOf (p % l.virtualPhysical) = l.indexOf p % l.physicalBlockSize ∧
      l.ownerOf (p % l.virtualPhysical) = l.ownerOf p := by
  obtain ⟨m, hm⟩ := l.interleave_dvd
  rw [virtualPhysical, hm, mul_comm _ m]
  exact ⟨index_mod_block m p l.interleave_pos, owner_mod_block m p⟩

theorem totalCpWorldSize_pos : 0 < l.totalCpWorldSize := Nat.mul_pos l.dcp_pos l.pcp_pos

theorem blocksPerPhysBlock_eq_one (h : l.useHybridBlocks = false) : l.blocksPerPhysBlock = 1 := by
  have hle : ¬ 1 < l.blocksPerPhysBlock := fun hlt => by
    rw [l.hybrid_iff.mpr hlt] at h
    cases h
  have hpos := l.blocksPerPhysBlock_pos
  omega

theorem logicalTableSize_eq : l.logicalTableSize = l.maxNumBlocksPerReq * l.blocksPerPhysBlock := by
  unfold logicalTableSize
  split
  · rfl
  · rename_i h
    rw [l.blocksPerPhysBlock_eq_one (by simpa using h), mul_one]

theorem convert_append (a b : List Nat) : l.convertPhysicalToLogicalBlocks (a ++ b) =
      l.convertPhysicalToLogicalBlocks a ++ l.convertPhysicalToLogicalBlocks b := by
  unfold convertPhysicalToLogicalBlocks
  split
  · exact flatMap_append
  · rfl

theorem convert_nil : l.convertPhysicalToLogicalBlocks [] = [] := by
  simp [convertPhysicalToLogicalBlocks]

theorem getElem?_flatMap_range' {n j : Nat} (hj : j < n) (bs : List Nat) (k : Nat) :
    (bs.flatMap fun b => range' (b * n) n)[k * n + j]? = bs[k]?.map (· * n + j) := by
  rw [flatMap_def, getElem?_flatten_mul (by simp) hj, getElem?_map]
  cases bs[k]? <;> simp [hj]

theorem getElem?_convert {j : Nat} (hj : j < l.blocksPerPhysBlock) (bs : List Nat) (k : Nat) :
    (l.convertPhysicalToLogicalBlocks bs)[k * l.blocksPerPhysBlock + j]? =
      bs[k]?.map (· * l.blocksPerPhysBlock + j) := by
  unfold convertPhysicalToLogicalBlocks
  split
  · exact getElem?_flatMap_range' hj bs k
  · rename_i h
    have hone := l.blocksPerPhysBlock_eq_one (by simpa using h)
    rw [hone] at hj ⊢
    have hj0 : j = 0 := by omega
    simp [hj0]

end Layout

namespace BlockTable

def row (t : BlockTable) (r : Nat) : List Nat := (range (t.numBlocksPerRow r)).map (t.blockTable r)

theorem length_row (t : BlockTable) (r : Nat) : (t.row r).length = t.numBlocksPerRow r := by
  simp [row]

theorem map_assign (table : Nat → Nat → Nat) (row start : Nat) (ids : List Nat) :
    (range (start + ids.length)).map (assign table row start ids row) = (range start).map (table row) ++ ids := by
  apply ext_getElem
  · simp
  · intro c h₁ h₂
    have hc : c < start + ids.length := by simpa using h₁
    by_cases hlt : c < start
    · have hn : ¬ start ≤ c := by omega
      simp [assign, hlt, hn]
    · have hle : start ≤ c := by omega
      have hi : c - start < ids.length := by omega
      simp [assign, hle, hc, getElem?_eq_getElem hi]

theorem assign_of_ne {table : Nat → Nat → Nat} {row q : Nat} (h : q ≠ row) (start : Nat) (ids : List Nat) :
    assign table row start ids q = table q := by
  funext c
  simp [assign, h]

variable {r : Nat} {own : Nat → List Nat} {t t' : BlockTable}

/-- Every row holds the kernel blocks of the physical blocks its request owns. -/
structure Holds (t : BlockTable) (own : Nat → List Nat) : Prop where
  row : ∀ r < t.layout.maxNumReqs, t.row r = t.layout.convertPhysicalToLogicalBlocks (own r)
  fits : ∀ r < t.layout.maxNumReqs, t.numBlocksPerRow r ≤ t.layout.logicalTableSize

theorem Holds.new (l : Layout) : (new l).Holds fun _ => [] where
  row := fun r _ => by simp [BlockTable.row, BlockTable.new, l.convert_nil]
  fits := fun r _ => zero_le _

theorem Holds.setRow (h : t.Holds own) {tgt n : Nat} {table : Nat → Nat → Nat} {bs : List Nat}
    (htable : ∀ q ≠ tgt, table q = t.blockTable q) (hfit : n ≤ t.layout.logicalTableSize)
    (hrow : (range n).map (table tgt) = t.layout.convertPhysicalToLogicalBlocks bs) :
    ({ t with blockTable := table }.setNumBlocks tgt n).Holds (update own tgt bs) where
  row := by
    intro q hq
    by_cases he : q = tgt
    · subst he
      simpa [BlockTable.row, setNumBlocks] using hrow
    · simpa [BlockTable.row, setNumBlocks, he, htable q he] using h.row q hq
  fits := by
    intro q hq
    by_cases he : q = tgt
    · subst he
      simpa [setNumBlocks] using hfit
    · simpa [setNumBlocks, he] using h.fits q hq

theorem Holds.emptyRow (h : t.Holds own) {table : Nat → Nat → Nat} (htable : ∀ q ≠ r, table q = t.blockTable q) :
    ({ t with blockTable := table }.setNumBlocks r 0).Holds (update own r []) :=
  h.setRow htable (zero_le _) (Layout.convert_nil _).symm

theorem Holds.appendRow (h : t.Holds own) {ids : List Nat} (ht : t.appendRow ids r = some t') :
    t'.Holds (update own r (own r ++ ids)) := by
  unfold BlockTable.appendRow at ht
  split at ht
  · rename_i hnil
    cases ht
    rw [hnil, append_nil, update_eq_self]
    exact h
  · dsimp only at ht
    split_ifs at ht with hr hfit
    cases ht
    refine h.setRow (fun _ hq => assign_of_ne hq _ _) hfit ?_
    rw [map_assign, Layout.convert_append, ← h.row r hr]
    rfl

theorem Holds.step (h : t.Holds own) {op : RowOp} (ht : t.step op = some t') : t'.Holds (op.owned own) := by
  cases op with
  | append ids r => exact h.appendRow ht
  | add ids r =>
    simp only [BlockTable.step, addRow] at ht
    split_ifs at ht with hr
    have h1 := (h.emptyRow (r := r) fun _ _ => rfl).appendRow ht
    simpa [RowOp.owned] using h1
  | clear r =>
    simp only [BlockTable.step, clearRow] at ht
    split_ifs at ht with hr
    cases ht
    exact h.emptyRow fun _ hq => assign_of_ne hq _ _
  | move src tgt =>
    simp only [BlockTable.step, moveRow] at ht
    split_ifs at ht with hr
    cases ht
    refine h.setRow (fun _ hq => assign_of_ne hq _ _) (h.fits src hr.1) ?_
    have hmap := map_assign t.blockTable tgt 0 (t.row src)
    rw [length_row, zero_add] at hmap
    exact hmap.trans (h.row src hr.1)
  | swap src tgt =>
    simp only [BlockTable.step, swapRow] at ht
    split_ifs at ht with hr
    cases ht
    have hswap : ∀ q < t.layout.maxNumReqs, Equiv.swap src tgt q < t.layout.maxNumReqs := by
      intro q hq
      rw [Equiv.swap_apply_def]
      split_ifs
      · exact hr.2
      · exact hr.1
      · exact hq
    exact ⟨fun q hq => h.row _ (hswap q hq), fun q hq => h.fits _ (hswap q hq)⟩

theorem step_layout {op : RowOp} (ht : t.step op = some t') : t'.layout = t.layout := by
  cases op <;>
    simp only [step, addRow, appendRow, clearRow, moveRow, swapRow] at ht <;>
    split_ifs at ht <;> cases ht <;> rfl

theorem holds_of_run {ops : List RowOp} (h : t.Holds own) (ht : run step t ops = some t') :
    t'.Holds (ops.foldl RowOp.owned own) ∧ t'.layout = t.layout := by
  induction ops generalizing t own with
  | nil =>
    cases ht
    exact ⟨h, rfl⟩
  | cons op ops ih =>
    obtain ⟨u, hu, hrest⟩ := bind_eq_some_iff.mp ht
    obtain ⟨hh, hl⟩ := ih (h.step hu) hrest
    exact ⟨hh, hl.trans (step_layout hu)⟩

/-! ## Slots of a table that holds what the requests own -/

def Covered (l : Layout) (own : Nat → List Nat) (req position : Nat) : Prop :=
  position < (own req).length * (l.physicalBlockSize * l.totalCpWorldSize)

theorem flatten_cell (t : BlockTable) {q c : Nat} (hq : q < t.layout.maxNumReqs)
    (hc : c < t.layout.logicalTableSize) :
    t.flatten (q * t.layout.logicalTableSize + c) = some (t.blockTable q c) := by
  unfold flatten
  rw [if_pos, mul_add_div_of_lt hc, mul_add_mod_of_lt hc]
  calc q * t.layout.logicalTableSize + c
      < q * t.layout.logicalTableSize + t.layout.logicalTableSize := by omega
    _ = (q + 1) * t.layout.logicalTableSize := by ring
    _ ≤ t.layout.maxNumReqs * t.layout.duplicateSize * t.layout.logicalTableSize := by
      refine mul_le_mul_right _ (le_trans hq ?_)
      exact Nat.le_mul_of_pos_right _ t.layout.duplicate_pos

section Slots

variable {t : BlockTable} {own : Nat → List Nat} (h : t.Holds own) {q : Nat}
  (hq : q < t.layout.maxNumReqs)

include h hq

theorem flatten_eq {k j b : Nat} (hj : j < t.layout.blocksPerPhysBlock) (hb : (own q)[k]? = some b) :
    t.flatten (q * t.layout.maxNumBlocksPerReq * t.layout.blocksPerPhysBlock +
      (k * t.layout.blocksPerPhysBlock + j)) = some (b * t.layout.blocksPerPhysBlock + j) := by
  have hcell : (t.row q)[k * t.layout.blocksPerPhysBlock + j]? =
      some (b * t.layout.blocksPerPhysBlock + j) := by
    rw [h.row q hq, Layout.getElem?_convert _ hj, hb]
    rfl
  have hused : k * t.layout.blocksPerPhysBlock + j < t.numBlocksPerRow q := by
    rw [← length_row]
    exact (List.getElem?_eq_some_iff.mp hcell).1
  have hvalue : t.blockTable q (k * t.layout.blocksPerPhysBlock + j) = b * t.layout.blocksPerPhysBlock + j := by
    simpa [row, hused] using hcell
  rw [mul_assoc q, ← Layout.logicalTableSize_eq, t.flatten_cell hq (lt_of_lt_of_le hused (h.fits q hq)), hvalue]

variable (rank : CpRank t.layout)

theorem slotOf_eq {p : Nat} (hp : Covered t.layout own q p) :
    ∃ b, (own q)[p / t.layout.virtualPhysical]? = some b ∧
      t.slotOf rank q p = some
        (if t.layout.ownerOf p = rank.currentRank then
          ((b * t.layout.physicalBlockSize + t.layout.indexOf p % t.layout.physicalBlockSize : Nat) : Int)
        else -1) := by
  have hlen : p / t.layout.virtualPhysical < (own q).length :=
    Nat.div_lt_of_lt_mul (by rw [Nat.mul_comm]; exact hp)
  refine ⟨_, getElem?_eq_getElem hlen, ?_⟩
  obtain ⟨hplace, howner⟩ := t.layout.mod_block p
  generalize hoff : t.layout.indexOf p % t.layout.physicalBlockSize = off at *
  have hlt : off < t.layout.physicalBlockSize := hoff ▸ mod_lt _ t.layout.physical_pos
  have hkernel : off / t.layout.blockSize < t.layout.blocksPerPhysBlock :=
    Nat.div_lt_of_lt_mul (by rw [Nat.mul_comm, t.layout.split]; exact hlt)
  have hcell := flatten_eq h hq hkernel (getElem?_eq_getElem hlen)
  unfold Layout.indexOf index at hplace
  unfold Layout.ownerOf owner at howner
  unfold slotOf Layout.ownerOf owner
  simp only [hplace, howner, hcell, map_some]
  rw [add_mul, mul_assoc, t.layout.split, add_assoc, div_add_mod']

theorem stores_iff {p : Nat} (hp : Covered t.layout own q p) :
    t.stores rank q p = true ↔ t.layout.ownerOf p = rank.currentRank := by
  obtain ⟨b, -, hs⟩ := slotOf_eq h hq rank hp
  unfold stores
  rw [hs]
  split
  · rename_i ho
    simp only [ho, any_some, decide_eq_true_eq, iff_true]
    exact Int.natCast_nonneg _
  · rename_i ho
    simp [ho]

theorem count_stores {n : Nat} (hn : n ≤ (own q).length * t.layout.virtualPhysical) :
    Nat.count (fun p => t.stores rank q p = true) n =
      Nat.count (fun p => t.layout.ownerOf p = rank.currentRank) n := by
  induction n with
  | zero => rfl
  | succ n ih =>
    rw [count_succ, count_succ, ih (by omega)]
    have := stores_iff h hq rank (p := n) hn
    simp only [this]

end Slots

end BlockTable

/-! ## Ranks and their share -/

variable {l : Layout}

theorem CpRank.currentRank_lt (rank : CpRank l) : rank.currentRank < l.totalCpWorldSize := by
  have h₁ := rank.pcpRank.isLt
  calc l.dcpWorldSize * rank.pcpRank + rank.dcpRank
      < l.dcpWorldSize * rank.pcpRank + l.dcpWorldSize := by omega
    _ = l.dcpWorldSize * (rank.pcpRank + 1) := by ring
    _ ≤ l.dcpWorldSize * l.pcpWorldSize := mul_le_mul_left _ h₁

theorem CpRank.existsUnique {n : Nat} (hn : n < l.totalCpWorldSize) : ∃! rank : CpRank l, rank.currentRank = n := by
  refine ⟨⟨⟨n / l.dcpWorldSize, Nat.div_lt_of_lt_mul hn⟩,
    ⟨n % l.dcpWorldSize, mod_lt _ l.dcp_pos⟩⟩, div_add_mod _ _, ?_⟩
  rintro ⟨⟨pcp, hpcp⟩, ⟨dcp, hdcp⟩⟩ hrank
  simp only [currentRank] at hrank
  subst hrank
  simp [mul_add_div l.dcp_pos, div_eq_of_lt hdcp, mod_eq_of_lt hdcp]

theorem getCpLocalSeqLens_eq (rank : CpRank l) (n : Nat) :
    ((getCpLocalSeqLens [n] l.pcpWorldSize l.dcpWorldSize l.cpKvCacheInterleaveSize)[0]?.bind
      (·[rank.pcpRank.val]?)).bind (·[rank.dcpRank.val]?) =
      some (share l.cpKvCacheInterleaveSize l.totalCpWorldSize rank.currentRank n : Int) := by
  have hround : n / l.cpKvCacheInterleaveSize / (l.pcpWorldSize * l.dcpWorldSize) =
      n / (l.totalCpWorldSize * l.cpKvCacheInterleaveSize) := by
    rw [Nat.div_div_eq_div_mul]
    unfold Layout.totalCpWorldSize
    congr 1
    ring
  have hrest : n = n / (l.totalCpWorldSize * l.cpKvCacheInterleaveSize) * l.cpKvCacheInterleaveSize *
      (l.pcpWorldSize * l.dcpWorldSize) + n % (l.totalCpWorldSize * l.cpKvCacheInterleaveSize) := by
    conv_lhs => rw [← div_add_mod n (l.totalCpWorldSize * l.cpKvCacheInterleaveSize)]
    unfold Layout.totalCpWorldSize
    ring
  have hrank : rank.pcpRank.val * l.dcpWorldSize + rank.dcpRank.val = rank.currentRank := by
    unfold CpRank.currentRank
    rw [mul_comm]
  have hp := rank.pcpRank.isLt
  have hd := rank.dcpRank.isLt
  simp only [getCpLocalSeqLens, map_cons, map_nil, getElem?_cons_zero, bind_some, getElem?_map, getElem?_range hp,
    getElem?_range hd, map_some, hround, hrank, some.injEq]
  unfold share
  generalize n / (l.totalCpWorldSize * l.cpKvCacheInterleaveSize) = a at *
  generalize rank.currentRank = r at *
  generalize l.cpKvCacheInterleaveSize = I at *
  generalize hprod : a * I * (l.pcpWorldSize * l.dcpWorldSize) = x at *
  have hx : ((a * I : Nat) : Int) * ((l.pcpWorldSize * l.dcpWorldSize : Nat) : Int) = x := by rw [← cast_mul, hprod]
  omega

namespace BlockTable

section Addressing

variable {t : BlockTable} {own : Nat → List Nat} {rank : CpRank t.layout} {q p : Nat}

theorem index_div (l : Layout) (p : Nat) : l.indexOf p / l.physicalBlockSize = p / l.virtualPhysical := by
  obtain ⟨m, hm⟩ := l.interleave_dvd
  rw [Layout.virtualPhysical, hm, mul_comm _ m]
  exact index_div_block m p l.interleave_pos

theorem place_unique {n q' k k' b : Nat}
    (hown : ((range n).flatMap own).Nodup) (hq : q < n) (hq' : q' < n)
    (hb : (own q)[k]? = some b) (hb' : (own q')[k']? = some b) : q = q' ∧ k = k' := by
  obtain ⟨hself, hpair⟩ := nodup_flatMap.mp hown
  have hqq : q = q' := by
    by_contra hne
    have : Std.Symm (onFun List.Disjoint own) := ⟨fun _ _ hd => List.Disjoint.symm hd⟩
    have hdis := hpair.forall (mem_range.mpr hq) (mem_range.mpr hq') hne
    exact hdis (mem_of_getElem? hb) (mem_of_getElem? hb')
  subst hqq
  refine ⟨rfl, ?_⟩
  have hk := (List.getElem?_eq_some_iff.mp hb).1
  exact (getElem?_inj hk (hself q (mem_range.mpr hq))).mp (hb.trans hb'.symm)

variable (h : t.Holds own)

include h

section

variable (hq : q < t.layout.maxNumReqs) (hp : Covered t.layout own q p) (hs : t.stores rank q p = true)

include hq hp hs

theorem slotOf_of_stores : ∃ b, (own q)[p / t.layout.virtualPhysical]? = some b ∧
      t.slotOf rank q p =
        some ((b * t.layout.physicalBlockSize + t.layout.indexOf p % t.layout.physicalBlockSize : Nat) : Int) := by
  obtain ⟨b, hb, hslot⟩ := slotOf_eq h hq rank hp
  rw [if_pos ((stores_iff h hq rank hp).mp hs)] at hslot
  exact ⟨b, hb, hslot⟩

theorem count_stores_before :
    Nat.count (fun p' => t.stores rank q p' = true) p = t.layout.indexOf p := by
  rw [count_stores h hq rank (le_of_lt hp)]
  exact count_before t.layout.interleave_pos t.layout.totalCpWorldSize_pos ((stores_iff h hq rank hp).mp hs)

end

theorem slotOf_injective {n q' p' : Nat}
    (hown : ((range n).flatMap own).Nodup) (hn : n ≤ t.layout.maxNumReqs) (hq : q < n)
    (hq' : q' < n) (hp : Covered t.layout own q p) (hp' : Covered t.layout own q' p')
    (hs : t.stores rank q p = true) (hs' : t.stores rank q' p' = true)
    (he : t.slotOf rank q p = t.slotOf rank q' p') : q = q' ∧ p = p' := by
  have hpos := t.layout.physical_pos
  obtain ⟨b, hb, hslot⟩ := slotOf_of_stores h (by omega) hp hs
  obtain ⟨b', hb', hslot'⟩ := slotOf_of_stores h (by omega) hp' hs'
  rw [hslot, hslot', some.injEq, Int.natCast_inj] at he
  have hblock : b = b' := by
    have := congrArg (· / t.layout.physicalBlockSize) he
    simpa [mul_add_div_of_lt (mod_lt _ hpos)] using this
  have hplace := congrArg (· % t.layout.physicalBlockSize) he
  simp only [mul_add_mod_of_lt (mod_lt _ hpos)] at hplace
  obtain ⟨hqq, hk⟩ := place_unique hown hq hq' hb (hblock ▸ hb')
  refine ⟨hqq, ?_⟩
  -- equal block and equal place within the block: the same place on the rank
  rw [← index_div, ← index_div] at hk
  have hindex : t.layout.indexOf p = t.layout.indexOf p' := by
    rw [← div_add_mod (t.layout.indexOf p) t.layout.physicalBlockSize, hk, hplace, div_add_mod]
  refine eq_of_index_eq t.layout.interleave_pos t.layout.totalCpWorldSize_pos ?_ hindex
  exact ((stores_iff h (by omega) rank hp).mp hs).trans ((stores_iff h (by omega) rank hp').mp hs').symm

end Addressing

end BlockTable

theorem Layout.init_ok {args : TableArgs} (h : Layout.init args = .ok l) :
    l.physicalBlockSize = args.blockSize ∧ l.pcpWorldSize = args.pcpWorldSize ∧
      l.dcpWorldSize = args.dcpWorldSize ∧ l.cpKvCacheInterleaveSize = args.cpKvCacheInterleaveSize := by
  unfold Layout.init at h
  dsimp only at h
  split at h
  · cases h
    exact ⟨rfl, rfl, rfl, rfl⟩
  · split at h
    · cases h
    · cases h
      exact ⟨rfl, rfl, rfl, rfl⟩

open BlockTable

def twoRequests : TableArgs where
  blockSize := 4
  maxNumReqs := 2
  maxNumBlocksPerReq := 3
  kernelSizes := some [3, 2]
  cpKvCacheInterleaveSize := 2
  dcpWorldSize := 2
  blockSize_pos := four_pos
  pcp_pos := Nat.one_pos
  dcp_pos := Nat.two_pos

end VllmAscend.Worker
