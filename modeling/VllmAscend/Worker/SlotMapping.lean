import VllmAscend.Worker.BlockTable

/-!
# The two slot mappings

Under context parallelism the NumPy fallback cuts the positions into virtual blocks of the kernel size, the other
path into virtual blocks of the physical size.
-/

namespace VllmAscend.Worker

open RoundRobin Ragged List Nat Loop Layout

def padSlotId : Int := -1

def Layout.slotMappingSize (l : Layout) (maxNumBatchedTokens : Nat) : Nat :=
  maxNumBatchedTokens + 2 * l.pcpWorldSize * l.maxNumReqs

def Layout.getBlockTableIndices (l : Layout) (reqIndex logicalBlockIdx : Nat) : Nat :=
  let rowStride := l.maxNumBlocksPerReq * l.blocksPerPhysBlock
  reqIndex * rowStride + logicalBlockIdx

/-- `np.repeat(np.arange(numReqs), counts)`; a single count is used for every request. -/
def repeatRequests (numReqs : Nat) (counts : List Int) : Except String (List Nat) :=
  if counts.length ≠ numReqs ∧ counts.length ≠ 1 then
    .error s!"operands could not be broadcast together with shape ({numReqs},) ({counts.length},)"
  else if counts.any (· < 0) then .error "repeats may not contain negative values."
  else if counts.length = numReqs then .ok (repeats (range numReqs) (counts.map Int.toNat))
  else .ok (repeats (range numReqs) (replicate numReqs (counts.headD 0).toNat))

namespace BlockTable

def ravelAt (t : BlockTable) (i : Nat) : Except String Nat :=
  match t.flatten i with
  | some blockNumber => .ok blockNumber
  | none =>
    let size := t.layout.maxNumReqs * t.layout.duplicateSize * t.layout.logicalTableSize
    .error s!"index {i} is out of bounds for axis 0 with size {size}"

def fallbackSlotOf (t : BlockTable) (rank : CpRank t.layout) (reqIndex position : Nat) :
    Except String Int :=
  let l := t.layout
  if 1 < l.dcpWorldSize * l.pcpWorldSize then do
    let virtualBlockSize := l.blockSize * l.dcpWorldSize * l.pcpWorldSize
    let logicalBlockIdx := position / virtualBlockSize
    let blockNumber ← t.ravelAt (l.getBlockTableIndices reqIndex logicalBlockIdx)
    let virtualBlockOffset := position % virtualBlockSize
    let mask := virtualBlockOffset / l.cpKvCacheInterleaveSize % (l.dcpWorldSize * l.pcpWorldSize) =
      rank.currentRank
    let blockOffset :=
      virtualBlockOffset / (l.dcpWorldSize * l.pcpWorldSize * l.cpKvCacheInterleaveSize) *
        l.cpKvCacheInterleaveSize + virtualBlockOffset % l.cpKvCacheInterleaveSize
    return if mask then ((blockNumber * l.blockSize + blockOffset : Nat) : Int) else padSlotId
  else do
    let logicalBlockIdx := position / l.blockSize
    let blockNumber ← t.ravelAt (l.getBlockTableIndices reqIndex logicalBlockIdx)
    let blockOffset := position % l.blockSize
    return ((blockNumber * l.blockSize + blockOffset : Nat) : Int)

def computeSlotMappingFallback (t : BlockTable) (rank : CpRank t.layout)
    (maxNumBatchedTokens numReqs : Nat) (queryStartLoc positions : List Nat) :
    Except String (List Int) := do
  let queryStartLoc := queryStartLoc.take (numReqs + 1)
  let numTokens := positions.length
  let bufferSize := t.layout.slotMappingSize maxNumBatchedTokens
  let maxNumTokens := min maxNumBatchedTokens bufferSize
  if numTokens = 0 then
    return replicate maxNumTokens padSlotId
  let reqIndices ← repeatRequests numReqs (diff queryStartLoc)
  if reqIndices.length ≠ numTokens then
    throw s!"query_start_loc and positions describe different token counts: {reqIndices.length} != {numTokens}"
  let slots ← (reqIndices.zip positions).mapM fun token => t.fallbackSlotOf rank token.1 token.2
  if bufferSize < numTokens then
    throw s!"could not broadcast input array from shape ({numTokens},) into shape ({bufferSize},)"
  return slots ++ replicate (maxNumTokens - numTokens) padSlotId

/-- What `compute_slot_mapping` writes under context parallelism when the kernel is there; `none`
is an exception. -/
def computeSlotMapping (t : BlockTable) (rank : CpRank t.layout) (numReqs : Nat)
    (queryStartLoc positions : List Nat) : Option (List Int) := do
  let reqIndices ← (repeatRequests numReqs (diff queryStartLoc)).toOption
  t.computePcpDcpSlotMapping rank reqIndices positions

/-! ## Slots in closed form -/

section Slots

variable (t : BlockTable) (rank : CpRank t.layout) (q p : Nat)

/-- Place `i` of a request on this rank: the kernel block that holds it and the offset there. -/
def slotAt (mine : Prop) [Decidable mine] (block offset : Nat) : Option Int :=
  (t.flatten (t.layout.getBlockTableIndices q block)).map fun blockNumber =>
    if mine then ((blockNumber * t.layout.blockSize + offset : Nat) : Int) else padSlotId

theorem slotOf_eq_slotAt : t.slotOf rank q p =
    t.slotAt q (t.layout.ownerOf p = rank.currentRank) (t.layout.indexOf p / t.layout.blockSize)
      (t.layout.indexOf p % t.layout.blockSize) := by
  obtain ⟨hplace, howner⟩ := t.layout.mod_block p
  have hround := index_div t.layout p
  generalize hi : t.layout.indexOf p = i at *
  have hblock : i / t.layout.physicalBlockSize * t.layout.blocksPerPhysBlock +
      i % t.layout.physicalBlockSize / t.layout.blockSize = i / t.layout.blockSize := by
    rw [← t.layout.split, mul_comm, mul_comm _ t.layout.blockSize,
      mod_mul_right_div_self, ← Nat.div_div_eq_div_mul, div_add_mod]
  have hoffset : i % t.layout.physicalBlockSize % t.layout.blockSize = i % t.layout.blockSize :=
    mod_mod_of_dvd i ⟨t.layout.blocksPerPhysBlock, by rw [mul_comm, t.layout.split]⟩
  unfold Layout.indexOf index at hplace
  unfold Layout.ownerOf owner at howner
  unfold slotOf slotAt getBlockTableIndices Layout.ownerOf owner
  simp only [hplace, howner, ← hround, hblock, hoffset, mul_assoc]
  rfl

theorem ravelAt_bind {β : Type} (i : Nat) (f : Nat → β) :
    (t.ravelAt i >>= fun blockNumber => pure (f blockNumber)).toOption = (t.flatten i).map f := by
  unfold ravelAt
  cases t.flatten i <;> rfl

theorem fallbackSlotOf_eq_slotAt (hcp : 1 < t.layout.totalCpWorldSize) :
    (t.fallbackSlotOf rank q p).toOption =
      let v := p % (t.layout.blockSize * t.layout.totalCpWorldSize)
      t.slotAt q (t.layout.ownerOf v = rank.currentRank)
        (p / (t.layout.blockSize * t.layout.totalCpWorldSize)) (t.layout.indexOf v) := by
  unfold fallbackSlotOf
  rw [if_pos (show 1 < t.layout.dcpWorldSize * t.layout.pcpWorldSize from hcp), mul_assoc t.layout.blockSize]
  exact ravelAt_bind t _ _

theorem fallbackSlotOf_eq (hcp : 1 < t.layout.totalCpWorldSize)
    (hdvd : t.layout.cpKvCacheInterleaveSize ∣ t.layout.blockSize) :
    (t.fallbackSlotOf rank q p).toOption = t.slotOf rank q p := by
  obtain ⟨m, hm⟩ := hdvd
  rw [mul_comm] at hm
  rw [fallbackSlotOf_eq_slotAt t rank q p hcp, slotOf_eq_slotAt, hm]
  simp only [Layout.ownerOf, Layout.indexOf, owner_mod_block, index_mod_block m p t.layout.interleave_pos,
    index_div_block m p t.layout.interleave_pos]

end Slots

end BlockTable

/-! ## Batches -/

/-- A scheduled batch: the tokens of request `i` are those from `queryStartLoc[i]` on, at positions
that its row of the table has room for. -/
structure Batch (l : Layout) (maxNumBatchedTokens : Nat) where
  numReqs : Nat
  queryStartLoc : List Nat
  positions : List Nat
  numReqs_le : numReqs ≤ l.maxNumReqs
  starts : queryStartLoc.length = numReqs + 1
  sorted : queryStartLoc.Pairwise (· ≤ ·)
  tokens : ((diff queryStartLoc).map Int.toNat).sum = positions.length
  room : positions.length ≤ l.slotMappingSize maxNumBatchedTokens
  covered : ∀ p ∈ positions, p < l.maxNumBlocksPerReq * (l.physicalBlockSize * l.totalCpWorldSize)

namespace Batch

variable {l : Layout} {maxNumBatchedTokens : Nat} (b : Batch l maxNumBatchedTokens)

def reqIndices : List Nat := repeats (range b.numReqs) ((diff b.queryStartLoc).map Int.toNat)

theorem repeatRequests_eq : repeatRequests b.numReqs (diff b.queryStartLoc) = .ok b.reqIndices := by
  have hlen : (diff b.queryStartLoc).length = b.numReqs := by rw [length_diff, b.starts, Nat.add_sub_cancel]
  have hneg : (diff b.queryStartLoc).any (· < 0) = false := by
    rw [any_eq_false]
    intro d hd
    have hnonneg := nonneg_of_mem_diff b.sorted hd
    simpa using hnonneg
  unfold repeatRequests
  rw [if_neg (fun h => h.1 hlen), hneg, if_pos hlen]
  rfl

theorem length_reqIndices : b.reqIndices.length = b.positions.length := by
  unfold reqIndices
  rw [length_repeats (by simp [length_diff, b.starts]), b.tokens]

theorem reqIndex_lt {q : Nat} (hq : q ∈ b.reqIndices) : q < l.maxNumReqs :=
  lt_of_lt_of_le (mem_range.mp (mem_of_mem_repeats hq)) b.numReqs_le

end Batch

namespace BlockTable

theorem slotAt_eq (t : BlockTable) {q block : Nat} (hq : q < t.layout.maxNumReqs)
    (hblock : block < t.layout.logicalTableSize) (mine : Prop) [Decidable mine] (offset : Nat) :
    t.slotAt q mine block offset =
      some (if mine then ((t.blockTable q block * t.layout.blockSize + offset : Nat) : Int)
        else padSlotId) := by
  have hcell := t.flatten_cell hq hblock
  rw [logicalTableSize_eq] at hcell
  unfold slotAt getBlockTableIndices
  rw [hcell]
  rfl

theorem block_lt (l : Layout) {p : Nat} (hp : p < l.maxNumBlocksPerReq * l.virtualPhysical) :
    l.indexOf p / l.blockSize < l.logicalTableSize := by
  have hphys : l.indexOf p / l.physicalBlockSize < l.maxNumBlocksPerReq := by
    rw [index_div]
    exact Nat.div_lt_of_lt_mul (by rw [Nat.mul_comm]; exact hp)
  rw [div_lt_iff_lt_mul l.physical_pos, ← l.split, ← mul_assoc] at hphys
  rw [div_lt_iff_lt_mul l.blockSize_pos, logicalTableSize_eq]
  exact hphys

/-- Both paths write the same slots for the tokens of the batch; the fallback pads what is left. -/
def SlotMappingsAgree (t : BlockTable) (rank : CpRank t.layout) {maxNumBatchedTokens : Nat}
    (b : Batch t.layout maxNumBatchedTokens) : Prop :=
  ∃ slots, t.computeSlotMapping rank b.numReqs b.queryStartLoc b.positions = some slots ∧
    t.computeSlotMappingFallback rank maxNumBatchedTokens b.numReqs b.queryStartLoc b.positions =
      .ok (slots ++ replicate (maxNumBatchedTokens - b.positions.length) padSlotId)

section Agreement

variable (t : BlockTable) (rank : CpRank t.layout) {maxNumBatchedTokens : Nat}
  (b : Batch t.layout maxNumBatchedTokens)

theorem computeSlotMapping_eq : t.computeSlotMapping rank b.numReqs b.queryStartLoc b.positions =
    t.computePcpDcpSlotMapping rank b.reqIndices b.positions := by
  unfold computeSlotMapping
  rw [b.repeatRequests_eq]
  rfl

theorem computeSlotMappingFallback_eq :
    t.computeSlotMappingFallback rank maxNumBatchedTokens b.numReqs b.queryStartLoc b.positions =
      ((b.reqIndices.zip b.positions).mapM fun token => t.fallbackSlotOf rank token.1 token.2).map
        (· ++ replicate (maxNumBatchedTokens - b.positions.length) padSlotId) := by
  have hmin : min maxNumBatchedTokens (t.layout.slotMappingSize maxNumBatchedTokens) =
      maxNumBatchedTokens := min_eq_left (le_add_right _ _)
  have htake : b.queryStartLoc.take (b.numReqs + 1) = b.queryStartLoc := take_of_length_le b.starts.le
  unfold computeSlotMappingFallback
  simp only [hmin, htake, b.repeatRequests_eq]
  by_cases hempty : b.positions.length = 0
  · have hnil : b.positions = [] := length_eq_zero_iff.mp hempty
    rw [hnil, zip_nil_right]
    rfl
  · rw [if_neg hempty]
    have hroom : ¬ t.layout.slotMappingSize maxNumBatchedTokens < b.positions.length := not_lt.mpr b.room
    simp only [bind, Except.bind, b.length_reqIndices, hroom, ne_eq, not_true_eq_false, if_false]
    cases (b.reqIndices.zip b.positions).mapM fun token => t.fallbackSlotOf rank token.1 token.2 <;>
      rfl

theorem slotMappingsAgree_of_dvd (hcp : 1 < t.layout.totalCpWorldSize)
    (hdvd : t.layout.cpKvCacheInterleaveSize ∣ t.layout.blockSize) : t.SlotMappingsAgree rank b := by
  have hslot : ∀ token ∈ b.reqIndices.zip b.positions,
      t.slotOf rank token.1 token.2 = some ((t.slotOf rank token.1 token.2).getD 0) := by
    rintro ⟨q, p⟩ htoken
    obtain ⟨hq, hp⟩ := of_mem_zip htoken
    rw [slotOf_eq_slotAt, t.slotAt_eq (b.reqIndex_lt hq) (block_lt t.layout (b.covered p hp))]
    rfl
  have hfallback : ∀ token ∈ b.reqIndices.zip b.positions, t.fallbackSlotOf rank token.1 token.2 =
      pure ((t.slotOf rank token.1 token.2).getD 0) := by
    intro token htoken
    have heq := t.fallbackSlotOf_eq rank token.1 token.2 hcp hdvd
    rw [hslot token htoken] at heq
    cases hf : t.fallbackSlotOf rank token.1 token.2 with
    | error e =>
      rw [hf] at heq
      cases heq
    | ok s =>
      rw [hf] at heq
      cases heq
      rfl
  refine ⟨(b.reqIndices.zip b.positions).map fun token => (t.slotOf rank token.1 token.2).getD 0, ?_, ?_⟩
  · rw [computeSlotMapping_eq]
    exact mapM_eq_map hslot
  · rw [computeSlotMappingFallback_eq, mapM_eq_pure hfallback]
    rfl

end Agreement

def oneToken (l : Layout) (maxNumBatchedTokens p : Nat) (hreqs : 0 < l.maxNumReqs)
    (hp : p < l.maxNumBlocksPerReq * l.virtualPhysical) :
    Batch l maxNumBatchedTokens where
  numReqs := 1
  queryStartLoc := [0, 1]
  positions := [p]
  numReqs_le := hreqs
  starts := rfl
  sorted := by simp
  tokens := rfl
  room := (Nat.mul_pos (Nat.mul_pos Nat.two_pos l.pcp_pos) hreqs).trans_le (Nat.le_add_left _ _)
  covered := by simpa using hp

theorem fallbackSlotOf_of_agree {t : BlockTable} {rank : CpRank t.layout} {N p : Nat}
    {hreqs : 0 < t.layout.maxNumReqs}
    {hp : p < t.layout.maxNumBlocksPerReq * t.layout.virtualPhysical}
    (h : t.SlotMappingsAgree rank (oneToken t.layout N p hreqs hp)) :
    (t.fallbackSlotOf rank 0 p).toOption = t.slotOf rank 0 p := by
  obtain ⟨slots, hs, hf⟩ := h
  rw [computeSlotMappingFallback_eq] at hf
  have hs : [(0, p)].mapM (fun token => t.slotOf rank token.1 token.2) = some slots := hs
  have hf : ([(0, p)].mapM fun token => t.fallbackSlotOf rank token.1 token.2).map
      (· ++ replicate (N - 1) padSlotId) =
      .ok (slots ++ replicate (N - 1) padSlotId) := hf
  rw [mapM_cons] at hs hf
  obtain ⟨s, hslot, hnil⟩ := Option.bind_eq_some_iff.mp hs
  cases hnil
  cases hfallback : t.fallbackSlotOf rank 0 p with
  | ok s' =>
    rw [hfallback] at hf
    cases append_cancel_right (Except.ok.inj hf)
    rw [hslot]
    rfl
  | error e =>
    rw [hfallback] at hf
    cases hf

theorem dvd_of_slotMappingsAgree {l : Layout} {N : Nat}
    (hcp : 1 < l.totalCpWorldSize) (hreqs : 0 < l.maxNumReqs) (hblocks : 0 < l.maxNumBlocksPerReq)
    (h : ∀ t : BlockTable, t.layout = l → ∀ (rank : CpRank t.layout)
      (b : Batch t.layout N), t.SlotMappingsAgree rank b) : l.cpKvCacheInterleaveSize ∣ l.blockSize := by
  by_contra hndvd
  have hlt : l.blockSize < l.physicalBlockSize := by
    refine lt_of_le_of_ne ?_ fun he => hndvd (he ▸ l.interleave_dvd)
    rw [← l.split]
    exact Nat.le_mul_of_pos_left _ l.blocksPerPhysBlock_pos
  have hp : l.blockSize * l.totalCpWorldSize < l.maxNumBlocksPerReq * l.virtualPhysical :=
    calc l.blockSize * l.totalCpWorldSize
        < l.physicalBlockSize * l.totalCpWorldSize := mul_lt_mul_of_pos_right hlt l.totalCpWorldSize_pos
      _ ≤ l.maxNumBlocksPerReq * l.virtualPhysical := Nat.le_mul_of_pos_left _ hblocks
  obtain ⟨rank, hrank, -⟩ := CpRank.existsUnique (l := l) (n := 0) l.totalCpWorldSize_pos
  -- block `c` of the request is cell `c`, so a slot is the place on the rank
  let t : BlockTable := ⟨l, fun _ c => c, fun _ => 0⟩
  have hagree := fallbackSlotOf_of_agree (h t rfl rank (oneToken l N _ hreqs hp))
  have hone : 1 < l.logicalTableSize := by
    have hparts : 1 < l.blocksPerPhysBlock := by
      rw [← l.split] at hlt
      exact Nat.lt_of_mul_lt_mul_right (by rwa [Nat.one_mul])
    rw [l.logicalTableSize_eq]
    exact hparts.trans_le (Nat.le_mul_of_pos_left _ hblocks)
  rw [t.fallbackSlotOf_eq_slotAt rank _ _ hcp, slotOf_eq_slotAt, t.slotAt_eq hreqs (block_lt l hp)] at hagree
  rw [mod_self, Nat.div_self (Nat.mul_pos l.blockSize_pos l.totalCpWorldSize_pos),
    t.slotAt_eq hreqs hone, div_add_mod', hrank] at hagree
  have hzero : l.ownerOf 0 = 0 ∧ l.indexOf 0 = 0 := by simp [owner, index]
  rw [if_pos hzero.1, hzero.2, Option.some.injEq, one_mul] at hagree
  split at hagree
  · rename_i howner
    exact hndvd (dvd_of_index_mul hcp howner (Int.ofNat.inj hagree).symm)
  · have hneg : (l.blockSize : Int) = -1 := hagree
    omega

end BlockTable

theorem Layout.init_rows {args : TableArgs} {l : Layout} (h : init args = .ok l) :
    l.maxNumReqs = args.maxNumReqs ∧ 0 < l.maxNumBlocksPerReq := by
  have hpos : 0 < maxBlocks args := lt_of_lt_of_le one_pos (le_max_right _ _)
  unfold init at h
  dsimp only at h
  split at h
  · cases h
    exact ⟨rfl, hpos⟩
  · split at h
    · cases h
    · cases h
      exact ⟨rfl, hpos⟩

/-- **Both slot mappings agree** on every table and every batch exactly when a kernel block is made
of whole interleave units. -/
theorem slot_mappings_agree_iff {args : TableArgs} {l : Layout} (hl : Layout.init args = .ok l)
    (hcp : 1 < args.pcpWorldSize * args.dcpWorldSize) (hreqs : 0 < args.maxNumReqs)
    (maxNumBatchedTokens : Nat) : (∀ t : BlockTable, t.layout = l → ∀ (rank : CpRank t.layout)
      (b : Batch t.layout maxNumBatchedTokens), t.SlotMappingsAgree rank b) ↔
      args.cpKvCacheInterleaveSize ∣ l.blockSize := by
  obtain ⟨-, hpcp, hdcp, hI⟩ := init_ok hl
  obtain ⟨hnum, hblocks⟩ := init_rows hl
  have hW : 1 < l.totalCpWorldSize := by
    unfold totalCpWorldSize
    rw [hpcp, hdcp, mul_comm]
    exact hcp
  rw [← hI]
  constructor
  · exact BlockTable.dvd_of_slotMappingsAgree hW (hnum ▸ hreqs) hblocks
  · rintro hdvd t rfl rank b
    exact t.slotMappingsAgree_of_dvd rank b hW hdvd

def coarseUnits : TableArgs where
  blockSize := 4
  maxNumReqs := 1
  maxNumBlocksPerReq := 1
  kernelSizes := some [2]
  cpKvCacheInterleaveSize := 4
  dcpWorldSize := 2
  blockSize_pos := twoRequests.blockSize_pos
  pcp_pos := Nat.one_pos
  dcp_pos := Nat.two_pos

theorem slot_mappings_agree_iff_fine_units : ∃ l, Layout.init twoRequests = .ok l ∧ ∀ t : BlockTable, t.layout = l →
      ∀ (rank : CpRank t.layout) (b : Batch t.layout 8), t.SlotMappingsAgree rank b :=
  ⟨_, rfl, (@slot_mappings_agree_iff twoRequests _ rfl (by decide) (by decide) 8).mpr (by decide)⟩

/-- Token 4 belongs to rank 1, but the fallback gives it the first slot of the second kernel block
on rank 0. -/
theorem coarse_units_disagree : ∃ l t, Layout.init coarseUnits = .ok l ∧
      Machine.run BlockTable.step (.new l) [.add [3] 0] = some t ∧
      ∃ (rank : CpRank t.layout) (b : Batch t.layout 2), b.positions = [4] ∧
        t.computeSlotMapping rank b.numReqs b.queryStartLoc b.positions = some [-1] ∧
        t.computeSlotMappingFallback rank 2 b.numReqs b.queryStartLoc b.positions = .ok [14, -1] ∧
        ¬ t.SlotMappingsAgree rank b := by
  refine ⟨_, _, rfl, rfl, ⟨⟨0, by decide⟩, ⟨0, by decide⟩⟩,
    BlockTable.oneToken _ 2 4 (by decide) (by decide), rfl, rfl, rfl, ?_⟩
  rintro ⟨slots, hs, hf⟩
  cases hs
  cases hf

end VllmAscend.Worker
