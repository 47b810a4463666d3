import VllmAscend.KvOffload.Mapped.Queues

/-!
# Block ids and the memory they lead to

A load checks its block ids against the rows of every tensor of their group. A store turns its ids into addresses
without a look at the rows.
-/

namespace VllmAscend.KvOffload.Mapped

open Exec List Loop Handler Int

/-! ## Pages -/

def CanonicalKVCacheRef.of (ref : CanonicalKVCacheRef) (tensors : List Tensor) : Tensor :=
  tensors.getD ref.tensor ⟨0, 0, 0, 0, false⟩

structure Page where
  ref : CanonicalKVCacheRef
  src : Int
  dst : Int
  deriving DecidableEq

def pages : List (Nat × GroupRefs) → List Int → List Int → List Page
  | [], _, _ => []
  | (groupSize, refs) :: rest, src, dst =>
    refs.flatMap (fun ref => ((src.take groupSize).zip (dst.take groupSize)).map fun ids => ⟨ref, ids.1, ids.2⟩) ++
      pages rest (src.drop groupSize) (dst.drop groupSize)

theorem pages_zero (refs : GroupRefs) (rest : List (Nat × GroupRefs)) (src dst : List Int) :
    pages ((0, refs) :: rest) src dst = pages rest src dst := by
  have hnone : refs.flatMap (fun ref => ((src.take 0).zip (dst.take 0)).map fun ids => (⟨ref, ids.1, ids.2⟩ : Page)) = [] :=
    flatMap_eq_nil_iff.mpr fun _ _ => rfl
  rw [pages, hnone]
  rfl

def Tensor.Holds (tensor : Tensor) (address : BitVec 64) (size : Nat) : Prop :=
  ∃ offset, offset + size ≤ tensor.rows * tensor.rowBytes ∧ address = BitVec.ofNat 64 (tensor.dataPtr + offset)

/-- Where the gather kernel finds a row: `srcPages + srcPageIdx * elemsPerBlock`. -/
def gatherPtr (tensor : Tensor) (blockId : Int) : BitVec 64 :=
  BitVec.ofNat 64 tensor.dataPtr + BitVec.ofInt 64 blockId * BitVec.ofNat 64 tensor.rowBytes

structure CanonicalKVCacheRef.Laid (cpuTensors npuTensors : List Tensor) (ref : CanonicalKVCacheRef) : Prop where
  cpu : ref.tensor < cpuTensors.length
  npu : ref.tensor < npuTensors.length
  cpuBytes : (ref.of cpuTensors).rowBytes = ref.pageSizeBytes
  npuBytes : (ref.of npuTensors).rowBytes = ref.pageSizeBytes
  cpuStride : (ref.of cpuTensors).rowStride = ref.pageSizeBytes
  npuStride : (ref.of npuTensors).rowStride = ref.pageSizeBytes

def LaidOut (cpuTensors npuTensors : List Tensor) (groups : List GroupRefs) : Prop :=
  ∀ refs ∈ groups, ∀ ref ∈ refs, ref.Laid cpuTensors npuTensors

variable {groups : List GroupRefs} {ref : CanonicalKVCacheRef}

theorem LaidOut.zip {cpu npu : List Tensor} (h : LaidOut cpu npu groups)
    (groupSizes : List Nat) : LaidOut cpu npu ((groupSizes.zip groups).map (·.2)) := by
  refine forall_mem_map.mpr fun group hgroup => ?_
  exact h _ (of_mem_zip hgroup).2

theorem getElem?_of {tensors : List Tensor} (h : ref.tensor < tensors.length) :
    tensors[ref.tensor]? = some (ref.of tensors) := by
  unfold CanonicalKVCacheRef.of
  rw [getD_eq_getElem?_getD, getElem?_eq_getElem h]
  rfl

theorem holds_row {tensor : Tensor} {blockId : Int} {size stride : Nat} (hsize : tensor.rowBytes = size) (hstride : stride = size)
    (hpos : 0 ≤ blockId) (hrow : blockId < tensor.rows) :
    tensor.Holds (BitVec.ofNat 64 tensor.dataPtr + BitVec.ofInt 64 blockId * BitVec.ofNat 64 stride) size := by
  obtain ⟨k, rfl⟩ := eq_ofNat_of_zero_le hpos
  subst hstride
  refine ⟨k * stride, ?_, ?_⟩
  · have hk : k + 1 ≤ tensor.rows := by omega
    calc k * stride + stride = (k + 1) * stride := (Nat.succ_mul k stride).symm
      _ ≤ tensor.rows * tensor.rowBytes := by
        rw [hsize]
        exact Nat.mul_le_mul_right _ hk
  · rw [BitVec.ofNat_add, BitVec.ofNat_mul]
    rfl

/-! ## Ids in range -/

def IdOk (tensors : List Tensor) (refs : GroupRefs) (id : Int) : Prop :=
  0 ≤ id ∧ id ≤ int32Max ∧ ∀ ref ∈ refs, id < (ref.of tensors).rows

instance (tensors : List Tensor) (refs : GroupRefs) (id : Int) : Decidable (IdOk tensors refs id) :=
  inferInstanceAs (Decidable (_ ∧ _ ∧ _))

section Tensors

variable (cpuTensors npuTensors : List Tensor)

def InRange : List (Nat × GroupRefs) → List Int → List Int → Prop
  | [], _, _ => True
  | (groupSize, refs) :: rest, cpuIds, npuIds =>
    (∀ id ∈ cpuIds.take groupSize, IdOk cpuTensors refs id) ∧ (∀ id ∈ npuIds.take groupSize, IdOk npuTensors refs id) ∧
      InRange rest (cpuIds.drop groupSize) (npuIds.drop groupSize)

instance InRange.decidable : ∀ groups cpuIds npuIds, Decidable (InRange cpuTensors npuTensors groups cpuIds npuIds)
  | [], _, _ => isTrue trivial
  | (groupSize, _) :: rest, cpuIds, npuIds =>
    have := InRange.decidable rest (cpuIds.drop groupSize) (npuIds.drop groupSize)
    inferInstanceAs (Decidable (_ ∧ _ ∧ _))

def Consumes (groups : List (Nat × GroupRefs)) (src dst : List Int) : Prop :=
  (groups.map (·.1)).sum = src.length ∧ (groups.map (·.1)).sum = dst.length

variable {src dst : List Int} {ref : CanonicalKVCacheRef} {groups : List (Nat × GroupRefs)}
  {g : Nat}

theorem consumes_cons {groupSize : Nat} {refs : GroupRefs} {rest : List (Nat × GroupRefs)} :
    Consumes ((groupSize, refs) :: rest) src dst ↔
      groupSize ≤ src.length ∧ groupSize ≤ dst.length ∧ Consumes rest (src.drop groupSize) (dst.drop groupSize) := by
  unfold Consumes
  simp only [map_cons, sum_cons, length_drop]
  omega

theorem consumes_nil : Consumes [] src dst ↔ src = [] ∧ dst = [] := by
  unfold Consumes
  simp [eq_comm (a := 0)]

variable {cpuTensors npuTensors}

/-! ### The descriptors of a store -/

def Page.descriptor (cpuTensors npuTensors : List Tensor) (page : Page) : Descriptor :=
  ⟨blockPtr (page.ref.of npuTensors) page.src, blockPtr (page.ref.of cpuTensors) page.dst, page.ref.pageSizeBytes⟩

theorem computeSubBlockPtrs_one {blockIds : List Int} {n : Nat} (h : blockIds.length = n) (tensor : Tensor) :
    computeSubBlockPtrs blockIds 1 n tensor = .ok (blockIds.map (blockPtr tensor)) := by
  have htake : blockIds.take n = blockIds := take_of_length_le (le_of_eq h)
  unfold computeSubBlockPtrs assignSlice
  simp [htake, h]

theorem refDescriptors_eq (href : ref.Laid cpuTensors npuTensors) {n : Nat}
    (hsrc : src.length = n) (hdst : dst.length = n) : refDescriptors cpuTensors npuTensors src dst n ref =
      .ok ((src.zip dst).map fun ids => Page.descriptor cpuTensors npuTensors ⟨ref, ids.1, ids.2⟩) := by
  unfold refDescriptors
  rw [getElem?_of href.npu, getElem?_of href.cpu]
  dsimp only
  rw [computeSubBlockPtrs_one hsrc, computeSubBlockPtrs_one hdst]
  change Except.ok _ = _
  rw [zip_map, map_map]
  rfl

/-- The descriptors of a store are those of its pages; it looks at nothing but the number of ids. -/
theorem groupDescriptors_ok_iff (hlaid : LaidOut cpuTensors npuTensors (groups.map (·.2)))
    {descs : List Descriptor} : groupDescriptors cpuTensors npuTensors g groups src dst = .ok descs ↔
      Consumes groups src dst ∧ descs = (pages groups src dst).map (Page.descriptor cpuTensors npuTensors) := by
  induction groups generalizing g src dst descs with
  | nil =>
    rw [consumes_nil]
    cases src <;> cases dst <;> simp [groupDescriptors, pages, eq_comm]
  | cons group rest ih =>
    obtain ⟨groupSize, refs⟩ := group
    obtain ⟨hrefs, hrest⟩ := forall_mem_cons.mp hlaid
    rw [consumes_cons, groupDescriptors]
    by_cases hzero : groupSize = 0
    · subst hzero
      rw [if_pos rfl, ih hrest, pages_zero]
      simp
    · rw [if_neg hzero, error_ite_eq_ok]
      simp only [not_or, not_lt, and_assoc]
      refine and_congr_right fun hle => and_congr_right fun hle' => ?_
      have hsrc : (src.take groupSize).length = groupSize := length_take_of_le hle
      have hdst : (dst.take groupSize).length = groupSize := length_take_of_le hle'
      have hhere := mapM_eq_pure fun ref href => refDescriptors_eq (hrefs ref href) hsrc hdst
      rw [hhere]
      simp only [except_bind_eq_ok, ih hrest, pages, map_append, map_flatMap, map_map]
      constructor
      · rintro ⟨here, hpure, others, ⟨hconsumes, rfl⟩, heq⟩
        cases hpure
        cases heq
        exact ⟨hconsumes, rfl⟩
      · rintro ⟨hconsumes, rfl⟩
        exact ⟨_, rfl, _, ⟨hconsumes, rfl⟩, rfl⟩

theorem length_pages (h : Consumes groups src dst) :
    (pages groups src dst).length = (groups.map fun group => group.1 * group.2.length).sum := by
  induction groups generalizing src dst with
  | nil => rfl
  | cons group rest ih =>
    obtain ⟨hsrc, hdst, hrest⟩ := consumes_cons.mp h
    rw [pages, length_append, ih hrest]
    simp [length_flatMap, Nat.min_eq_left hsrc, Nat.min_eq_left hdst, Nat.mul_comm]

theorem storeDescriptors_ok_iff {groups : List GroupRefs} (hlaid : LaidOut cpuTensors npuTensors groups) {plan : TransferPlan}
    (hops : plan.numCopyOps = ((plan.groupSizes.zip groups).map fun group => group.1 * group.2.length).sum)
    {descs : List Descriptor} : storeDescriptors cpuTensors npuTensors groups plan = .ok descs ↔
      Consumes (plan.groupSizes.zip groups) plan.srcBlocks plan.dstBlocks ∧
        descs = (pages (plan.groupSizes.zip groups) plan.srcBlocks plan.dstBlocks).map
          (Page.descriptor cpuTensors npuTensors) := by
  simp only [storeDescriptors, throw_ite_eq_ok, except_bind_eq_ok, groupDescriptors_ok_iff (hlaid.zip _)]
  constructor
  · rintro ⟨here, ⟨hconsumes, rfl⟩, -, h⟩
    cases h
    exact ⟨hconsumes, rfl⟩
  · rintro ⟨hconsumes, rfl⟩
    refine ⟨_, ⟨hconsumes, rfl⟩, ?_, rfl⟩
    rw [length_map, length_pages hconsumes, hops]
    exact not_not.mpr rfl

/-! ### The id check of a load -/

theorem le_idMin {ids : List Int} (h : ids ≠ []) (c : Int) : c ≤ idMin ids ↔ ∀ id ∈ ids, c ≤ id := by
  cases ids with
  | nil => exact absurd rfl h
  | cons id ids => exact le_min?_iff min?_cons'

theorem idMax_lt {ids : List Int} (h : ids ≠ []) (c : Int) : idMax ids < c ↔ ∀ id ∈ ids, id < c := by
  cases ids with
  | nil => exact absurd rfl h
  | cons id ids =>
    simp only [← le_sub_one_iff]
    exact max?_le_iff max?_cons'

theorem checkRefBounds_ok_iff (href : ref.Laid cpuTensors npuTensors) {srcMax dstMax : Int} :
    checkRefBounds cpuTensors npuTensors g srcMax dstMax ref = .ok () ↔
      srcMax < (ref.of cpuTensors).rows ∧ dstMax < (ref.of npuTensors).rows := by
  unfold checkRefBounds
  rw [getElem?_of href.npu, getElem?_of href.cpu]
  simp only [error_ite_eq_ok, and_true]
  omega

theorem checkGroupIds_ok_iff {refs : GroupRefs} (hrefs : ∀ ref ∈ refs, ref.Laid cpuTensors npuTensors)
    (hsrc : src ≠ []) (hdst : dst ≠ []) : checkGroupIds cpuTensors npuTensors g refs src dst = .ok () ↔
      (∀ id ∈ src, IdOk cpuTensors refs id) ∧ ∀ id ∈ dst, IdOk npuTensors refs id := by
  have hbounds : refs.forM (checkRefBounds cpuTensors npuTensors g (idMax src) (idMax dst)) = .ok () ↔
      (∀ id ∈ src, ∀ ref ∈ refs, id < (ref.of cpuTensors).rows) ∧ ∀ id ∈ dst, ∀ ref ∈ refs, id < (ref.of npuTensors).rows := by
    rw [forM_eq_ok_iff, @forall₂_comm _ _ (· ∈ src), @forall₂_comm _ _ (· ∈ dst), ← forall₂_and]
    refine forall₂_congr fun ref href => ?_
    rw [checkRefBounds_ok_iff (hrefs ref href), idMax_lt hsrc, idMax_lt hdst]
  have hneg : ¬ (idMin src < 0 ∨ idMin dst < 0) ↔ (∀ id ∈ src, 0 ≤ id) ∧ ∀ id ∈ dst, 0 ≤ id := by
    rw [← le_idMin hsrc, ← le_idMin hdst]
    omega
  have hlarge : ¬ (int32Max < idMax src ∨ int32Max < idMax dst) ↔
      (∀ id ∈ src, id ≤ int32Max) ∧ ∀ id ∈ dst, id ≤ int32Max := by
    simp only [← lt_add_one_iff, ← idMax_lt hsrc, ← idMax_lt hdst]
    omega
  simp only [checkGroupIds, throw_ite_eq_ok, hneg, hlarge, hbounds, IdOk, forall₂_and]
  tauto

theorem checkGroups_ok_iff (hlaid : LaidOut cpuTensors npuTensors (groups.map (·.2))) :
    checkGroups cpuTensors npuTensors g groups src dst = .ok () ↔
      Consumes groups src dst ∧ InRange cpuTensors npuTensors groups src dst := by
  induction groups generalizing g src dst with
  | nil =>
    rw [consumes_nil]
    cases src <;> cases dst <;> simp [checkGroups, InRange]
  | cons group rest ih =>
    obtain ⟨groupSize, refs⟩ := group
    obtain ⟨hrefs, hrest⟩ := forall_mem_cons.mp hlaid
    simp only [checkGroups, throw_ite_eq_ok, consumes_cons, InRange, not_or, not_lt, and_assoc]
    refine and_congr_right fun hsrc => and_congr_right fun hdst => ?_
    split
    · rename_i hpos
      have hne : ∀ ids : List Int, groupSize ≤ ids.length → ids.take groupSize ≠ [] := by
        intro ids hids
        rw [← length_pos_iff, length_take]
        omega
      simp only [except_bind_eq_ok, checkGroupIds_ok_iff hrefs (hne src hsrc) (hne dst hdst), ih hrest, exists_const]
      tauto
    · rename_i hzero
      obtain rfl : groupSize = 0 := not_not.mp hzero
      rw [ih hrest]
      simp

theorem validateMappedIds_ok_iff {groups : List GroupRefs} (hlaid : LaidOut cpuTensors npuTensors groups) {plan : TransferPlan}
    {integer : Bool} : validateMappedIds cpuTensors npuTensors groups plan integer = .ok () ↔
      integer = true ∧ Consumes (plan.groupSizes.zip groups) plan.srcBlocks plan.dstBlocks ∧
        InRange cpuTensors npuTensors (plan.groupSizes.zip groups) plan.srcBlocks plan.dstBlocks := by
  rw [← checkGroups_ok_iff (g := 0) (hlaid.zip _)]
  cases integer with
  | false => simp [validateMappedIds, bind, Except.bind, throw, throwThe, MonadExceptOf.throw]
  | true => simp [validateMappedIds]

end Tensors

/-! ## Submissions -/

structure WellShaped (h : Handler) (npu cpu : LoadStoreSpec) : Prop where
  opened : h.closed = false
  kind : cpu.kind ≠ .other
  npuNdim : npu.ndim = 1
  cpuNdim : cpu.ndim = 1
  groupSizes : npu.groupSizes.length = h.groups.length
  blockIndices : npu.blockIndices.length = h.groups.length
  nonneg : ∀ size ∈ npu.groupSizes, 0 ≤ size
  npuIds : (npu.groupSizes.map Int.toNat).sum = npu.blockIds.length
  cpuIds : (npu.groupSizes.map Int.toNat).sum = cpu.blockIds.length

def sizedGroups (h : Handler) (npu : LoadStoreSpec) : List (Nat × GroupRefs) :=
  (npu.groupSizes.map Int.toNat).zip h.groups

def IdsInRange (h : Handler) (npu cpu : LoadStoreSpec) : Prop :=
  (cpu.blockIds ≠ [] → (cpu.integerDtype && npu.integerDtype) = true) ∧
    InRange h.cpuTensors h.npuTensors (sizedGroups h npu) cpu.blockIds npu.blockIds

theorem checkGroupSize_ok_iff {g : Nat} {size : Int} {r : Nat} :
    checkGroupSize g size = .ok r ↔ 0 ≤ size ∧ r = size.toNat := by
  rw [checkGroupSize, error_ite_eq_ok, Except.ok.injEq]
  omega

theorem checkGroupSizes_ok_iff {sizes : List Int} {start : Nat} {rs : List Nat} :
    (sizes.zipIdx start).mapM (fun x => checkGroupSize x.2 x.1) = .ok rs ↔
      (∀ size ∈ sizes, 0 ≤ size) ∧ rs = sizes.map toNat := by
  induction sizes generalizing start rs with
  | nil => simp [pure, Except.pure, eq_comm]
  | cons size sizes ih =>
    rw [zipIdx_cons, mapM_cons]
    simp only [except_bind_eq_ok, checkGroupSize_ok_iff, ih, forall_mem_cons, map_cons]
    constructor
    · rintro ⟨r, ⟨hsize, rfl⟩, rs, ⟨hsizes, rfl⟩, heq⟩
      cases heq
      exact ⟨⟨hsize, hsizes⟩, rfl⟩
    · rintro ⟨⟨hsize, hsizes⟩, rfl⟩
      exact ⟨_, ⟨hsize, rfl⟩, _, ⟨hsizes, rfl⟩, rfl⟩

def planOf (groups : List GroupRefs) (src dst gpu : LoadStoreSpec) : TransferPlan :=
  let groupSizes := gpu.groupSizes.map Int.toNat
  ⟨src.blockIds, dst.blockIds, groupSizes, ((groupSizes.zip groups).map fun group => group.1 * group.2.length).sum,
    ((groupSizes.zip groups).map fun group => group.1 * (group.2.map (·.pageSizeBytes)).sum).sum⟩

theorem makeTransferPlan_ok_iff {src dst gpu : LoadStoreSpec} {plan : TransferPlan} :
    makeTransferPlan groups src dst gpu = .ok plan ↔
      (src.ndim = 1 ∧ dst.ndim = 1 ∧ gpu.groupSizes.length = groups.length ∧ gpu.blockIndices.length = groups.length ∧
        ∀ size ∈ gpu.groupSizes, 0 ≤ size) ∧ plan = planOf groups src dst gpu := by
  simp only [makeTransferPlan, throw_ite_eq_ok, except_bind_eq_ok, checkGroupSizes_ok_iff]
  constructor
  · rintro ⟨hndim, hsizes, hindices, groupSizes, ⟨hnonneg, rfl⟩, hplan⟩
    cases hplan
    exact ⟨by tauto, rfl⟩
  · rintro ⟨hshape, rfl⟩
    exact ⟨by tauto, by tauto, by tauto, _, ⟨hshape.2.2.2.2, rfl⟩, rfl⟩

def storeCheck (h : Handler) (npu cpu : LoadStoreSpec) : Except MappedError (List Descriptor) :=
  if h.closed then .error .shutDown
  else if cpu.kind = .other then .error .notBlockIds
  else makeTransferPlan h.groups npu cpu npu >>= storeDescriptors h.cpuTensors h.npuTensors h.groups

def loadPlanCheck (h : Handler) (integerDtype : Bool) (plan : TransferPlan) : Except MappedError Unit :=
  if plan.groupSizes.sum = plan.srcBlocks.length ∧ plan.srcBlocks.length = plan.dstBlocks.length then
    if plan.srcBlocks = [] then .ok ()
    else validateMappedIds h.cpuTensors h.npuTensors h.groups plan integerDtype
  else .error .oneIdPerBlock

def loadCheck (h : Handler) (cpu npu : LoadStoreSpec) : Except MappedError (List Page) :=
  if h.closed then .error .shutDown
  else if cpu.kind = .other then .error .notBlockIds
  else makeTransferPlan h.groups cpu npu npu >>= fun plan =>
    loadPlanCheck h (cpu.integerDtype && npu.integerDtype) plan >>= fun _ =>
      .ok (pages (plan.groupSizes.zip h.groups) plan.srcBlocks plan.dstBlocks)

section Checks

variable {h : Handler} {npu cpu : LoadStoreSpec}

theorem consumes_sizedGroups (hsizes : npu.groupSizes.length = h.groups.length) {src dst : List Int} :
    Consumes (sizedGroups h npu) src dst ↔ (npu.groupSizes.map toNat).sum = src.length ∧
      (npu.groupSizes.map toNat).sum = dst.length := by
  have hfst : (sizedGroups h npu).map (·.1) = npu.groupSizes.map toNat := map_fst_zip (by simp [hsizes])
  rw [Consumes, hfst]

theorem storeCheck_ok_iff (hlaid : h.closed = false → LaidOut h.cpuTensors h.npuTensors h.groups)
    {descs : List Descriptor} : storeCheck h npu cpu = .ok descs ↔ WellShaped h npu cpu ∧
      descs = (pages (sizedGroups h npu) npu.blockIds cpu.blockIds).map (Page.descriptor h.cpuTensors h.npuTensors) := by
  simp only [storeCheck, error_ite_eq_ok, except_bind_eq_ok, makeTransferPlan_ok_iff, Bool.not_eq_true]
  constructor
  · rintro ⟨hopened, hkind, plan, ⟨⟨hnpu, hcpu, hsizes, hindices, hnonneg⟩, rfl⟩, hdesc⟩
    obtain ⟨hconsumes, rfl⟩ := (storeDescriptors_ok_iff (hlaid hopened) rfl).mp hdesc
    obtain ⟨hsrc, hdst⟩ := (consumes_sizedGroups hsizes).mp hconsumes
    exact ⟨⟨hopened, hkind, hnpu, hcpu, hsizes, hindices, hnonneg, hsrc, hdst⟩, rfl⟩
  · rintro ⟨hshape, rfl⟩
    refine ⟨hshape.opened, hshape.kind, _, ⟨⟨hshape.npuNdim, hshape.cpuNdim, hshape.groupSizes, hshape.blockIndices,
      hshape.nonneg⟩, rfl⟩, (storeDescriptors_ok_iff (hlaid hshape.opened) rfl).mpr ⟨?_, rfl⟩⟩
    exact (consumes_sizedGroups hshape.groupSizes).mpr ⟨hshape.npuIds, hshape.cpuIds⟩

theorem inRange_nil (cpu npu : List Tensor) (groups : List (Nat × GroupRefs)) : InRange cpu npu groups [] [] := by
  induction groups with
  | nil => trivial
  | cons group rest ih =>
    rw [InRange, take_nil, drop_nil]
    exact ⟨nofun, nofun, ih⟩

theorem loadPlanCheck_ok_iff (hlaid : LaidOut h.cpuTensors h.npuTensors h.groups)
    (hsizes : npu.groupSizes.length = h.groups.length) :
    loadPlanCheck h (cpu.integerDtype && npu.integerDtype) (planOf h.groups cpu npu npu) = .ok () ↔
      ((npu.groupSizes.map toNat).sum = npu.blockIds.length ∧ (npu.groupSizes.map toNat).sum = cpu.blockIds.length) ∧
        IdsInRange h npu cpu := by
  unfold loadPlanCheck IdsInRange
  change (if (npu.groupSizes.map toNat).sum = cpu.blockIds.length ∧ cpu.blockIds.length = npu.blockIds.length then
    (if cpu.blockIds = [] then Except.ok () else _) else _) = _ ↔ _
  split
  · rename_i hsum
    split
    · rename_i hnil
      have hnpu : npu.blockIds = [] := by
        rw [hnil] at hsum
        exact length_eq_zero_iff.mp hsum.2.symm
      rw [hnil, hnpu] at hsum ⊢
      simp only [true_iff]
      exact ⟨⟨hsum.1, hsum.1⟩, fun hne => absurd rfl hne, inRange_nil _ _ _⟩
    · have hconsumes := @consumes_sizedGroups h npu hsizes cpu.blockIds npu.blockIds
      rw [validateMappedIds_ok_iff hlaid]
      tauto
  · simp only [reduceCtorEq, false_iff]
    omega

theorem loadCheck_ok_iff (hlaid : h.closed = false → LaidOut h.cpuTensors h.npuTensors h.groups) {ps : List Page} :
    loadCheck h cpu npu = .ok ps ↔ (WellShaped h npu cpu ∧ IdsInRange h npu cpu) ∧
      ps = pages (sizedGroups h npu) cpu.blockIds npu.blockIds := by
  simp only [loadCheck, error_ite_eq_ok, except_bind_eq_ok, makeTransferPlan_ok_iff, Bool.not_eq_true]
  constructor
  · rintro ⟨hopened, hkind, plan, ⟨⟨hcpu, hnpu, hsizes, hindices, hnonneg⟩, rfl⟩, _, hcheck, heq⟩
    obtain ⟨⟨hnpuIds, hcpuIds⟩, hrange⟩ := (loadPlanCheck_ok_iff (hlaid hopened) hsizes).mp hcheck
    cases heq
    exact ⟨⟨⟨hopened, hkind, hnpu, hcpu, hsizes, hindices, hnonneg, hnpuIds, hcpuIds⟩, hrange⟩, rfl⟩
  · rintro ⟨⟨hshape, hrange⟩, rfl⟩
    refine ⟨hshape.opened, hshape.kind, _, ⟨⟨hshape.cpuNdim, hshape.npuNdim, hshape.groupSizes, hshape.blockIndices,
      hshape.nonneg⟩, rfl⟩, (), (loadPlanCheck_ok_iff (hlaid hshape.opened) hshape.groupSizes).mpr ?_, rfl⟩
    exact ⟨⟨hshape.npuIds, hshape.cpuIds⟩, hrange⟩

end Checks

/-! ## Rejected submissions -/

def Rejected (h : Handler) (run : Except MappedError Bool × Handler) : Prop :=
  (∃ e, run.1 = .error e) ∧ run.2.device.enqueued = h.device.enqueued

section Rejected

variable {h : Handler} {npu cpu : LoadStoreSpec} {e : MappedError}

theorem Rejected.of_triple {m : HandlerM Bool}
    (hm : Triple (· = h) m (fun _ _ => False) (fun _ h' => h'.device.enqueued = h.device.enqueued)) : Rejected h (m h) := by
  have hres := hm h rfl
  split at hres
  · exact hres.elim
  · rename_i e h' hrun
    exact ⟨⟨e, by rw [hrun]⟩, by rw [hrun]; exact hres⟩

theorem submitStore_rejected (hcheck : storeCheck h npu cpu = .error e) (jobId : Int) :
    Rejected h (submitStore jobId npu cpu h) := by
  refine .of_triple (start_triple (fun _ _ hs => by rw [hs]) ?_)
  rintro h plan rfl hopen hkind hplan
  have hdesc : storeDescriptors h.cpuTensors h.npuTensors h.groups plan = .error e := by
    unfold storeCheck at hcheck
    rwa [if_neg (by simp [hopen]), if_neg (by simpa using hkind), hplan] at hcheck
  refine Triple.bind (Q := fun _ _ => False) ?_ fun _ _ => False.elim
  refine .bind (((popDescriptorBuffers_keepsWork _).triple (· = h.work)).conseq (fun _ hs => by rw [hs])
    (fun _ _ hs => hs) fun _ s hs => congrArg Prod.snd hs) fun buffers => .get_bind fun s hs => ?_
  have hview : s.view = h.view := congrArg Prod.fst hs
  have hdesc' : storeDescriptors s.cpuTensors s.npuTensors s.groups plan = .error e := by
    rw [← hdesc]
    change storeDescriptors s.view.cpuTensors s.view.npuTensors s.view.groups plan = _
    rw [hview]
    rfl
  refine .ofExcept_bind (fun _ s' hs' => ?_) fun _ hok => ?_
  · rw [hs']
    exact congrArg Prod.snd hs
  · rw [hdesc'] at hok
    cases hok

theorem submitLoad_rejected (hcheck : loadCheck h cpu npu = .error e) (jobId : Int) :
    Rejected h (submitLoad jobId cpu npu h) := by
  refine .of_triple (start_triple (fun _ _ hs => by rw [hs]) ?_)
  rintro h plan rfl hopen hkind hplan
  have hload : loadPlanCheck h (cpu.integerDtype && npu.integerDtype) plan = .error e := by
    unfold loadCheck at hcheck
    rw [if_neg (by simp [hopen]), if_neg (by simpa using hkind), hplan] at hcheck
    change (loadPlanCheck h _ plan >>= _) = _ at hcheck
    cases hload : loadPlanCheck h (cpu.integerDtype && npu.integerDtype) plan with
    | error e' =>
      rw [hload] at hcheck
      cases hcheck
      rfl
    | ok _ =>
      rw [hload] at hcheck
      cases hcheck
  unfold loadPlanCheck at hload
  refine .require_bind (fun _ _ hs => by rw [hs]) fun hsum => ?_
  rw [if_pos (by simpa using hsum)] at hload
  split at hload
  · cases hload
  rename_i hne
  refine Triple.bind (Q := fun _ _ => False) ?_ fun _ _ => False.elim
  unfold acquireLoadIds
  rw [if_neg hne]
  refine .get_bind ?_
  rintro s rfl
  refine .ofExcept_bind (fun _ _ hs => by rw [hs]) fun _ hok => ?_
  rw [hload] at hok
  cases hok

end Rejected

/-! ## The layout in every run -/

theorem checkTensor_ok {tensorIdx : Nat} {cpu npu : Tensor} (h : checkTensor tensorIdx cpu npu = .ok ()) :
    cpu.rowStride = cpu.rowBytes ∧ npu.rowStride = npu.rowBytes := by
  simp only [checkTensor, error_ite_eq_ok] at h
  tauto

theorem checkRef_ok {npuTensors : List Tensor} {g : Nat} (h : checkRef npuTensors g ref = .ok ()) :
    ref.tensor < npuTensors.length ∧ (ref.of npuTensors).rowBytes = ref.pageSizeBytes := by
  obtain ⟨-, h⟩ := error_ite_eq_ok.mp h
  split at h
  · cases h
  · rename_i npu hnpu
    have hlt : ref.tensor < npuTensors.length := (List.getElem?_eq_some_iff.mp hnpu).1
    rw [getElem?_of hlt, Option.some_inj] at hnpu
    have hpage := (error_ite_eq_ok.mp h).1
    exact ⟨hlt, by rw [hnpu, not_not.mp hpage]⟩

theorem validateMappedGatherLayout_ok {npuTensors cpuTensors : List Tensor}
    (h : validateMappedGatherLayout npuTensors cpuTensors groups = .ok ()) : npuTensors.length = cpuTensors.length ∧
      (∀ (i : Nat) (cpu npu : Tensor), cpuTensors[i]? = some cpu → npuTensors[i]? = some npu →
        cpu.rowStride = cpu.rowBytes ∧ npu.rowStride = npu.rowBytes) ∧
      ∀ refs ∈ groups, ∀ ref ∈ refs, ref.tensor < npuTensors.length ∧ (ref.of npuTensors).rowBytes = ref.pageSizeBytes := by
  simp only [validateMappedGatherLayout, throw_ite_eq_ok, except_bind_eq_ok] at h
  obtain ⟨hlength, _, htensors, hgroups⟩ := h
  rw [forM_eq_ok_iff] at htensors hgroups
  refine ⟨by tauto, fun i cpu npu hcpu hnpu => ?_, fun refs hrefs ref href => ?_⟩
  · refine checkTensor_ok (htensors ((cpu, npu), i) (mk_mem_zipIdx_iff_getElem?.mpr ?_))
    rw [getElem?_zip_eq_some]
    exact ⟨hcpu, hnpu⟩
  · obtain ⟨i, hi, heq⟩ := getElem_of_mem hrefs
    have hgroup := hgroups (refs, i) (mk_mem_zipIdx_iff_getElem?.mpr (by rw [getElem?_eq_getElem hi, heq]))
    exact checkRef_ok (forM_eq_ok_iff.mp hgroup ref href)

theorem npuTensor_bytes {tensor : KVCacheTensor} {npu : Tensor} (h : npuTensor tensor = .ok npu) :
    npu.rowBytes = tensor.pageSizeBytes := by
  unfold npuTensor at h
  split at h
  · cases h
    rfl
  · cases h

variable {h : Handler}

theorem laidOut_of_construct {args : HandlerArgs} (hc : construct args = .ok h) :
    LaidOut h.cpuTensors h.npuTensors h.groups := by
  obtain ⟨npuTensors, hnpu, hvalid, hview⟩ := construct_view hc
  have hgroups : h.groups = args.groups := congrArg View.groups hview
  have hcpuTensors : h.cpuTensors = args.tensors.map (cpuTensor args.numCpuBlocks) := congrArg View.cpuTensors hview
  have hnpuTensors : h.npuTensors = npuTensors := congrArg View.npuTensors hview
  rw [hgroups, hcpuTensors, hnpuTensors]
  obtain ⟨hlength, hstride, hrefs⟩ := validateMappedGatherLayout_ok hvalid
  intro refs hmem ref href
  obtain ⟨hlt, hbytes⟩ := hrefs refs hmem ref href
  have hlt' : ref.tensor < (args.tensors.map (cpuTensor args.numCpuBlocks)).length := hlength ▸ hlt
  have hcpuAt := getElem?_of hlt'
  have hnpuAt := getElem?_of hlt
  obtain ⟨hcpuStride, hnpuStride⟩ := hstride _ _ _ hcpuAt hnpuAt
  -- Both tensors come from one tensor of the cache.
  have hcpuBytes : (ref.of (args.tensors.map (cpuTensor args.numCpuBlocks))).rowBytes = ref.pageSizeBytes := by
    rw [getElem?_map, Option.map_eq_some_iff] at hcpuAt
    obtain ⟨tensor, htensor, hcpu⟩ := hcpuAt
    have hat := congrArg (·[ref.tensor]?) (mapM_eq_ok_iff.mp hnpu)
    simp only [getElem?_map, htensor, hnpuAt, Option.map_some, Option.some_inj] at hat
    rw [← hcpu, ← hbytes, npuTensor_bytes hat]
    rfl
  exact ⟨hlt', hlt, hcpuBytes, hbytes, hcpuStride.trans hcpuBytes, hnpuStride.trans hbytes⟩

def LayoutOk (h : Handler) : Prop := h.closed = false → LaidOut h.cpuTensors h.npuTensors h.groups

def Handler.layout (h : Handler) : Bool × List GroupRefs × List Tensor × List Tensor :=
  (h.closed, h.groups, h.cpuTensors, h.npuTensors)

def View.layout (v : View) : Bool × List GroupRefs × List Tensor × List Tensor :=
  (v.closed, v.groups, v.cpuTensors, v.npuTensors)

theorem LayoutOk.of_layout {h' : Handler} (hl : LayoutOk h) (heq : h'.layout = h.layout) : LayoutOk h' := by
  obtain ⟨hclosed, hgroups, hcpu, hnpu⟩ : h'.closed = h.closed ∧ h'.groups = h.groups ∧ h'.cpuTensors = h.cpuTensors ∧
      h'.npuTensors = h.npuTensors := by
    simpa [layout] using heq
  unfold LayoutOk
  rw [hclosed, hgroups, hcpu, hnpu]
  exact hl

theorem keepsLayout {α : Type} {m : HandlerM α} (hm : Keeps view m) : Keeps layout m := hm.comp View.layout

theorem setState_layout (h : Handler) (dir : Direction) (a : AsyncState) : (h.setState dir a).layout = h.layout := by
  cases dir <;> rfl

theorem getFinished_keepsLayout : Keeps layout getFinished := by
  have hreport : ∀ dir t, Keeps layout (reportHead dir t) := by
    intro dir t
    refine .bind (.modify fun _ => setState_layout _ _ _) fun _ => .bind (keepsLayout hostCall_keeps) fun _ => ?_
    refine .bind (keepsLayout (recycleTransferResources_keeps dir t)) fun _ => ?_
    exact .bind (.modify fun _ => setState_layout _ _ _) fun _ => .pure _
  have hhead : ∀ dir, Keeps layout (finishHead dir) := by
    intro dir
    refine .bind Keeps.get fun h => ?_
    split
    · exact .pure _
    · refine .ite (.pure _) (.bind (keepsLayout (queryEvent_keeps _)) fun _ => .ite ?_ (.pure _))
      exact .bind (hreport dir _) fun _ => .pure _
  have hqueue : ∀ dir fuel, Keeps layout (finishQueue dir fuel) := by
    intro dir fuel
    induction fuel with
    | zero => exact .pure _
    | succ fuel ih =>
      refine .bind (hhead dir) fun result => ?_
      cases result with
      | none => exact .pure _
      | some _ => exact .bind ih fun _ => .pure _
  refine .bind Keeps.get fun _ => .bind (hqueue _ _) fun _ => ?_
  exact .bind (hqueue _ _) fun _ => .pure _

theorem layout_of_submission {dir : Direction} {jobId : Int} {h' : Handler}
    (hs : Accepted dir jobId h.view h'.view ∨ Refused dir jobId h.view h'.view) : h'.layout = h.layout := by
  rcases hs with ⟨-, -, t, -, hview⟩ | hview | ⟨-, -, t, -, hview | hview⟩ <;> exact congrArg View.layout hview

theorem submit_layout {dir : Direction} {jobId : Int} {m : HandlerM Bool}
    (hm : ∀ v, SubmitsJob dir jobId true v m) : Keeps layout m := by
  intro h
  have hs := hm _ h rfl
  split at hs
  · rename_i hrun
    rw [hrun]
    exact layout_of_submission (.inl hs.2)
  · rename_i hrun
    rw [hrun]
    exact layout_of_submission (.inr hs)

theorem perform_layout (call : Call) (h : Handler) (hl : LayoutOk h) : LayoutOk (perform call h).2 := by
  have hkeep : ∀ {α : Type} {m : HandlerM α}, Keeps layout m → Keeps layout (m >>= fun _ => pure ()) :=
    fun hm => .bind hm fun _ => .pure _
  cases call with
  | submitStore jobId src dst => exact hl.of_layout (hkeep (submit_layout fun _ => submitStore_view jobId src dst) h)
  | submitLoad jobId src dst => exact hl.of_layout (hkeep (submit_layout fun _ => submitLoad_view jobId src dst) h)
  | transferAsync jobId src dst =>
    have htransfer : Keeps layout (transferAsync jobId src dst) := by
      unfold transferAsync
      split
      · exact submit_layout fun _ => submitStore_view jobId src dst
      · exact submit_layout fun _ => submitLoad_view jobId src dst
      · exact .raise _
    exact hl.of_layout (hkeep htransfer h)
  | getFinished => exact hl.of_layout (hkeep getFinished_keepsLayout h)
  | wait jobIds => exact hl.of_layout (keepsLayout (wait_keeps jobIds) h)
  | shutdown =>
    obtain ⟨done, -, hclosed | hsame⟩ := shutdown_view.state (s := h) rfl
    · exact fun hopen => absurd (hopen.symm.trans hclosed) (by decide)
    · exact hl.of_layout (Prod.ext hsame.closed (Prod.ext hsame.groups (Prod.ext hsame.cpuTensors hsame.npuTensors)))

theorem reaches_layout {args : HandlerArgs} {h₀ : Handler} (hc : construct args = .ok h₀)
    (hr : Machine.Reaches step Machine.AnyAction h₀ h) : LayoutOk h := by
  refine hr.inv LayoutOk (fun _ => laidOut_of_construct hc) fun h₁ a h₂ hl _ hs => ?_
  cases hs
  exact perform_layout a.call _ (hl.of_layout rfl)

/-! ## Transfers within the tensors -/

/-- Either direction rejects a submission before it enqueues anything, or every page it copies or gathers lies in its
tensor on both sides; and both accept the same ids. -/
structure WithinTensors (h : Handler) (npu cpu : LoadStoreSpec) : Prop where
  store : ∀ jobId outcomes schedule, Rejected h (submitStore jobId npu cpu { h with outcomes, schedule }) ∨
    ∃ descriptors, storeCheck h npu cpu = .ok descriptors ∧
      Forall₂ (fun page descriptor => (page.ref.of h.npuTensors).Holds descriptor.src descriptor.size ∧
        (page.ref.of h.cpuTensors).Holds descriptor.dst descriptor.size)
        (pages (sizedGroups h npu) npu.blockIds cpu.blockIds) descriptors
  load : ∀ jobId outcomes schedule, Rejected h (submitLoad jobId cpu npu { h with outcomes, schedule }) ∨
    ∃ gathered, loadCheck h cpu npu = .ok gathered ∧
      ∀ page ∈ gathered, (page.ref.of h.cpuTensors).Holds (gatherPtr (page.ref.of h.cpuTensors) page.src) page.ref.pageSizeBytes ∧
        (page.ref.of h.npuTensors).Holds (gatherPtr (page.ref.of h.npuTensors) page.dst) page.ref.pageSizeBytes
  same : (∃ descriptors, storeCheck h npu cpu = .ok descriptors) ↔ ∃ gathered, loadCheck h cpu npu = .ok gathered

theorem InRange.swap {cpu npu : List Tensor} {groups : List (Nat × GroupRefs)} {cpuIds npuIds : List Int}
    (h : InRange cpu npu groups cpuIds npuIds) : InRange npu cpu groups npuIds cpuIds := by
  induction groups generalizing cpuIds npuIds with
  | nil => trivial
  | cons group rest ih => exact ⟨h.2.1, h.1, ih h.2.2⟩

theorem InRange.of_page {srcTensors dstTensors : List Tensor} {groups : List (Nat × GroupRefs)} {src dst : List Int}
    (h : InRange srcTensors dstTensors groups src dst) {page : Page} (hpage : page ∈ pages groups src dst) :
    ∃ refs ∈ groups.map (·.2), page.ref ∈ refs ∧ IdOk srcTensors refs page.src ∧ IdOk dstTensors refs page.dst := by
  induction groups generalizing src dst with
  | nil => cases hpage
  | cons group rest ih =>
    obtain ⟨groupSize, refs⟩ := group
    rw [pages, mem_append] at hpage
    rcases hpage with hpage | hpage
    · obtain ⟨ref, href, hpage⟩ := mem_flatMap.mp hpage
      obtain ⟨ids, hids, rfl⟩ := mem_map.mp hpage
      obtain ⟨hsrc, hdst⟩ := of_mem_zip hids
      exact ⟨refs, by simp, href, h.1 _ hsrc, h.2.1 _ hdst⟩
    · obtain ⟨refs', hrefs', hrest⟩ := ih h.2.2 hpage
      exact ⟨refs', mem_cons_of_mem _ hrefs', hrest⟩

section Within

variable {h : Handler} {npu cpu : LoadStoreSpec}

section

variable (hlaid : LaidOut h.cpuTensors h.npuTensors h.groups)

include hlaid

theorem descriptors_within (hrange : IdsInRange h npu cpu) :
    Forall₂ (fun page descriptor => (page.ref.of h.npuTensors).Holds descriptor.src descriptor.size ∧
        (page.ref.of h.cpuTensors).Holds descriptor.dst descriptor.size)
      (pages (sizedGroups h npu) npu.blockIds cpu.blockIds)
      ((pages (sizedGroups h npu) npu.blockIds cpu.blockIds).map (Page.descriptor h.cpuTensors h.npuTensors)) := by
  rw [forall₂_map_right_iff, forall₂_same]
  intro page hpage
  obtain ⟨refs, hrefs, href, hsrc, hdst⟩ := hrange.2.swap.of_page hpage
  have hat := hlaid.zip _ refs hrefs _ href
  exact ⟨holds_row hat.npuBytes hat.npuStride hsrc.1 (hsrc.2.2 _ href),
    holds_row hat.cpuBytes hat.cpuStride hdst.1 (hdst.2.2 _ href)⟩

theorem gathers_within (hrange : IdsInRange h npu cpu) :
    ∀ page ∈ pages (sizedGroups h npu) cpu.blockIds npu.blockIds,
      (page.ref.of h.cpuTensors).Holds (gatherPtr (page.ref.of h.cpuTensors) page.src) page.ref.pageSizeBytes ∧
        (page.ref.of h.npuTensors).Holds (gatherPtr (page.ref.of h.npuTensors) page.dst) page.ref.pageSizeBytes := by
  intro page hpage
  obtain ⟨refs, hrefs, href, hsrc, hdst⟩ := hrange.2.of_page hpage
  have hat := hlaid.zip _ refs hrefs _ href
  exact ⟨holds_row hat.cpuBytes hat.cpuBytes hsrc.1 (hsrc.2.2 _ href),
    holds_row hat.npuBytes hat.npuBytes hdst.1 (hdst.2.2 _ href)⟩

end

theorem withinTensors_iff (hl : LayoutOk h) : WithinTensors h npu cpu ↔ (WellShaped h npu cpu → IdsInRange h npu cpu) := by
  constructor
  · intro hwithin hshape
    obtain ⟨gathered, hload⟩ := hwithin.same.mp ⟨_, (storeCheck_ok_iff hl).mpr ⟨hshape, rfl⟩⟩
    exact ((loadCheck_ok_iff hl).mp hload).1.2
  · intro hrange
    refine ⟨fun jobId outcomes schedule => ?_, fun jobId outcomes schedule => ?_, ?_⟩
    · cases hcheck : storeCheck h npu cpu with
      | error e => exact .inl (submitStore_rejected (h := { h with outcomes, schedule }) hcheck jobId)
      | ok descriptors =>
        obtain ⟨hshape, rfl⟩ := (storeCheck_ok_iff hl).mp hcheck
        exact .inr ⟨_, rfl, descriptors_within (hl hshape.opened) (hrange hshape)⟩
    · cases hcheck : loadCheck h cpu npu with
      | error e => exact .inl (submitLoad_rejected (h := { h with outcomes, schedule }) hcheck jobId)
      | ok gathered =>
        obtain ⟨⟨hshape, hids⟩, rfl⟩ := (loadCheck_ok_iff hl).mp hcheck
        exact .inr ⟨_, rfl, gathers_within (hl hshape.opened) hids⟩
    · simp only [storeCheck_ok_iff hl, loadCheck_ok_iff hl]
      constructor
      · rintro ⟨_, hshape, -⟩
        exact ⟨_, ⟨hshape, hrange hshape⟩, rfl⟩
      · rintro ⟨_, ⟨hshape, -⟩, -⟩
        exact ⟨_, hshape, rfl⟩

end Within

theorem transfers_within_tensors_iff {args : HandlerArgs} {h₀ h : Handler} (hc : construct args = .ok h₀)
    (hr : Machine.Reaches step Machine.AnyAction h₀ h) (npu cpu : LoadStoreSpec) :
    WithinTensors h npu cpu ↔ (WellShaped h npu cpu → IdsInRange h npu cpu) :=
  withinTensors_iff (reaches_layout hc hr)

theorem transfers_within_tensors_iff_sample : WithinTensors sampleHandler sampleGpuSpec sampleCpuSpec := by
  have hc : construct sampleArgs = .ok sampleHandler := rfl
  exact (transfers_within_tensors_iff hc .refl _ _).mpr fun _ => ⟨fun _ => rfl, by decide⟩

def pastTheEnd : LoadStoreSpec := { kind := .cpu, blockIds := [4] }

theorem store_past_the_end : construct sampleArgs = .ok sampleHandler ∧
      storeCheck sampleHandler sampleGpuSpec pastTheEnd = .ok [⟨4160#64, 8320#64, 32⟩, ⟨16448#64, 32896#64, 32⟩] ∧
      (submitStore 7 sampleGpuSpec pastTheEnd sampleHandler).1 = .ok true ∧
      (loadCheck sampleHandler pastTheEnd sampleGpuSpec) = .error (.sourceOutOfBounds 0 4 0 4) ∧
      ¬ (CanonicalKVCacheRef.of ⟨0, 32⟩ sampleHandler.cpuTensors).Holds 8320#64 32 ∧
      ¬ WithinTensors sampleHandler sampleGpuSpec pastTheEnd := by
  have hstore : storeCheck sampleHandler sampleGpuSpec pastTheEnd =
      .ok [⟨4160#64, 8320#64, 32⟩, ⟨16448#64, 32896#64, 32⟩] := by decide
  have hload : loadCheck sampleHandler pastTheEnd sampleGpuSpec = .error (.sourceOutOfBounds 0 4 0 4) := by decide
  refine ⟨rfl, hstore, by decide, hload, ?_, fun hwithin => ?_⟩
  · rintro ⟨offset, hle, heq⟩
    have hle : offset + 32 ≤ 128 := hle
    have hnat := congrArg BitVec.toNat heq
    change 8320 = (8192 + offset) % 2 ^ 64 at hnat
    omega
  · obtain ⟨gathered, hok⟩ := hwithin.same.mp ⟨_, hstore⟩
    cases hok

end VllmAscend.KvOffload.Mapped
