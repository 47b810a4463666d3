import Mathlib.Data.Nat.Log
import VllmAscend.Lib.BlockSearch
import VllmAscend.Lib.Grid
import VllmAscend.Sample.Batch

/-!
# The kernels of the rejection sampler

A lane takes one request and stores its tokens one by one, until a draft is rejected. The output is
memory, a row of `max_spec_len + 1` cells for each request.
-/

namespace VllmAscend.Sample

open List Function Nat RoundRobin

/-- The device. Triton does not say what a lane reads that a mask without `other` leaves out: `fill`. -/
structure Device where
  vectorcoreNum : Nat
  fill : Int
  cores_pos : 0 < vectorcoreNum

def nextPowerOf2 (n : Nat) : Nat := 2 ^ clog 2 n

def Device.calGridAndBlockSize (device : Device) (batchSize : Nat) : Nat × Nat :=
  if batchSize ≤ device.vectorcoreNum then (batchSize, 1)
  else (device.vectorcoreNum, nextPowerOf2 (cdiv batchSize device.vectorcoreNum))

def Device.loadMasked (device : Device) (ptr : List Nat) (offset : Nat) (mask : Bool) : Int :=
  if mask then (ptr.getD offset 0 : Nat) else device.fill

def vocabBlockSize : Nat := 512

namespace Batch

variable (batch : Batch)

def rowSize : Nat := batch.maxSpecLen + 1

def bonusRenew (position : Nat) (numTokens1 : Int) (mem : Nat → Int) : Nat → Int :=
  update mem (position * batch.rowSize + numTokens1).toNat (batch.bonusToken position)

def greedyMask (isGreedy : Option (List Bool)) (position : Nat) : Bool :=
  let mask := decide (position < batch.batchSize)
  match isGreedy with
  | none => mask
  | some flags => mask && flags.getD position false

def rejectionGreedySampleTriton (device : Device) (isGreedy : Option (List Bool)) (position : Nat)
    (mem : Nat → Int) : Nat → Int :=
  let isGreedyMask := batch.greedyMask isGreedy position
  let startIdx := if position = 0 then 0
    else device.loadMasked batch.cuNumDraftTokens (position - 1) isGreedyMask
  let endIdx := device.loadMasked batch.cuNumDraftTokens position isGreedyMask
  let numTokens1 := endIdx - startIdx
  let loop := storeUntilRejected (position * batch.rowSize) numTokens1.toNat (fun i =>
    let draftTokenId := batch.draftToken (startIdx + i).toNat
    let targetArgmaxId := batch.argmaxToken (startIdx + i).toNat
    (targetArgmaxId, draftTokenId != targetArgmaxId)) mem
  if !loop.2 && isGreedyMask then batch.bonusRenew position numTokens1 loop.1 else loop.1

def rejectionGreedySampleSpecLen1Triton (position : Nat) (mem : Nat → Int) : Nat → Int :=
  if position < batch.batchSize then
    let mem := update mem (position * 2) (batch.argmaxToken position)
    if batch.draftToken position == batch.argmaxToken position then
      update mem (position * 2 + 1) (batch.bonusToken position)
    else mem
  else mem

/-! ## Random requests -/

def currentMatchProb (indices : List (List Int)) (tokenIdx : Nat) (draftTokenId : Int) (block : Nat) : Rat :=
  ((range vocabBlockSize).map fun i =>
    let offset := block * vocabBlockSize + i
    if offset < batch.vocabSize then
      if indices.flatten.getD (tokenIdx * batch.vocabSize + offset) placeholderTokenId = draftTokenId then
        batch.targetProbs.flatten.getD (tokenIdx * batch.vocabSize + offset) 0
      else 0
    else 0).sum

def searchTargetProb (indices : List (List Int)) (tokenIdx : Nat) (draftTokenId : Int) : Rat :=
  ((range (cdiv batch.vocabSize vocabBlockSize)).foldl (fun (s : Rat × Bool) block =>
    if s.2 then s
    else if 0 < batch.currentMatchProb indices tokenIdx draftTokenId block then
      (batch.currentMatchProb indices tokenIdx draftTokenId block, true)
    else s) (0, false)).1

def loadProbs (tokenIdx : Nat) (draftTokenId : Int) : Rat × Rat :=
  let targetProb := match batch.targetIndices with
    | some indices => batch.searchTargetProb indices tokenIdx draftTokenId
    | none => batch.targetProbs.flatten.getD (tokenIdx * batch.globalVocabSize + draftTokenId.toNat) 0
  let draftProb := match batch.draftProbs with
    | none => 1
    | some probs => probs.flatten.getD (tokenIdx * batch.globalVocabSize + draftTokenId.toNat) 0
  (targetProb, draftProb)

def verifyDraft (tokenIdx : Nat) : Int × Bool :=
  let draftTokenId := batch.draftToken tokenIdx
  if batch.isPlaceholder tokenIdx then (batch.recoveredToken tokenIdx, true)
  else
    let probs := batch.loadProbs tokenIdx draftTokenId
    if 0 < probs.2 ∧ batch.uniformProb tokenIdx ≤ probs.1 / probs.2 then (draftTokenId, false)
    else (batch.recoveredToken tokenIdx, true)

def rejectionRandomSampleKernel (device : Device) (position : Nat) (mem : Nat → Int) : Nat → Int :=
  let mask := decide (position < batch.batchSize)
  let notGreedy := !(if mask then batch.greedy position else true)
  if notGreedy then
    let startIdx := if position = 0 then 0
      else device.loadMasked batch.cuNumDraftTokens (position - 1) notGreedy
    let endIdx := device.loadMasked batch.cuNumDraftTokens position notGreedy
    let numDraftTokens := endIdx - startIdx
    let loop := storeUntilRejected (position * batch.rowSize) numDraftTokens.toNat
      (fun pos => batch.verifyDraft (startIdx + pos).toNat) mem
    if !loop.2 then batch.bonusRenew position numDraftTokens loop.1 else loop.1
  else mem

def rejectionGreedySampleWithTriton (device : Device) (isGreedy : Option (List Bool)) (order : List Nat)
    (mem : Nat → Int) : Nat → Int :=
  let blockSize := (device.calGridAndBlockSize batch.batchSize).2
  if batch.numDraftTokens.all (· == 1) && isGreedy.isNone then
    Grid.launch order blockSize batch.rejectionGreedySampleSpecLen1Triton mem
  else Grid.launch order blockSize (batch.rejectionGreedySampleTriton device isGreedy) mem

/-- The output of `rejection_sample` with Triton. The programs of the two launches run in the orders
given. -/
def rejectionSampleTriton (device : Device) (greedyOrder randomOrder : List Nat) : List (List Int) :=
  let blockSize := (device.calGridAndBlockSize batch.batchSize).2
  let output : Nat → Int := fun _ => placeholderTokenId
  let output := if batch.allRandom then output
    else batch.rejectionGreedySampleWithTriton device batch.greedyFlags greedyOrder output
  let output := if batch.allGreedy then output
    else Grid.launch randomOrder blockSize (batch.rejectionRandomSampleKernel device) output
  (range batch.batchSize).map fun b => (range batch.rowSize).map fun c => output (b * batch.rowSize + c)

/-! ## One lane -/

variable {batch}

theorem rowSize_pos (batch : Batch) : 0 < batch.rowSize := succ_pos _

theorem toNat_start_add (b i : Nat) : ((batch.start b : Int) + i).toNat = batch.start b + i := by omega

theorem not_in_row {pos a : Nat} (h : a / batch.rowSize ≠ pos) :
    ¬ (pos * batch.rowSize ≤ a ∧ a < pos * batch.rowSize + batch.rowSize) := by
  rintro ⟨hlo, hhi⟩
  refine h (Nat.div_eq_of_lt_le hlo ?_)
  rw [Nat.add_mul]
  omega

/-- The mask of the random kernels, which loads `true` past the batch. -/
theorem notGreedy_iff {b : Nat} : (!(if decide (b < batch.batchSize) then batch.greedy b else true)) = true ↔
    b < batch.batchSize ∧ batch.greedy b = false := by
  by_cases hb : b < batch.batchSize <;> simp [hb]

/-- A row after a lane that stores `token` until a draft is rejected, and the bonus token otherwise. -/
def laneCell (n accepted : Nat) (token : Nat → Int) (bonus : Int) (c : Nat) (old : Int) : Int :=
  if c < min (accepted + 1) n then token c else if c = n ∧ accepted = n then bonus else old

theorem storeUntilRejected_bonus {pos n : Nat} (hn : n ≤ batch.maxSpecLen) (body : Nat → Int × Bool)
    (mem : Nat → Int) (a : Nat) :
    (if !(storeUntilRejected (pos * batch.rowSize) n body mem).2 then
        batch.bonusRenew pos n (storeUntilRejected (pos * batch.rowSize) n body mem).1
      else (storeUntilRejected (pos * batch.rowSize) n body mem).1) a =
      if a / batch.rowSize = pos then
        laneCell n (firstFailure n fun i => !(body i).2) (fun i => (body i).1) (batch.bonusToken pos)
          (a % batch.rowSize) (mem a)
      else mem a := by
  have hle := firstFailure_le n fun i => !(body i).2
  have hrow : batch.rowSize = batch.maxSpecLen + 1 := rfl
  have ha := div_add_mod' a batch.rowSize
  have hmod := mod_lt a batch.rowSize_pos
  have haddr : ((pos : Int) * batch.rowSize + n).toNat = pos * batch.rowSize + n := by
    rw [← Int.natCast_mul, ← Int.natCast_add, Int.toNat_natCast]
  rw [storeUntilRejected_eq]
  generalize firstFailure n (fun i => !(body i).2) = k at hle
  unfold bonusRenew laneCell
  rw [haddr]
  by_cases hown : a / batch.rowSize = pos
  · rw [if_pos hown]
    rw [hown] at ha
    generalize a % batch.rowSize = c at ha hmod
    subst ha
    by_cases hkn : k < n
    · rw [if_neg (by simpa using hkn)]
      dsimp only
      by_cases hc : c < min (k + 1) n
      · rw [if_pos ⟨Nat.le_add_right _ _, by omega⟩, if_pos hc, Nat.add_sub_cancel_left]
      · rw [if_neg (by omega), if_neg hc, if_neg (by omega)]
    · rw [if_pos (by simpa using hkn)]
      by_cases hcn : c = n
      · rw [hcn, update_self, if_neg (by omega), if_pos ⟨rfl, by omega⟩]
      · rw [update_of_ne (by omega)]
        dsimp only
        by_cases hc : c < min (k + 1) n
        · rw [if_pos ⟨Nat.le_add_right _ _, by omega⟩, if_pos hc, Nat.add_sub_cancel_left]
        · rw [if_neg (by omega), if_neg hc, if_neg (by omega)]
  · have hout := not_in_row hown
    split
    · rw [update_of_ne (by omega)]
      dsimp only
      rw [if_neg (by omega)]
    · dsimp only
      rw [if_neg (by omega)]

theorem loadMasked_true (device : Device) {pos : Nat} (hpos : pos < batch.batchSize) :
    (if pos = 0 then 0 else device.loadMasked batch.cuNumDraftTokens (pos - 1) true) =
        (batch.start pos : Int) ∧
      device.loadMasked batch.cuNumDraftTokens pos true =
        (batch.start pos + batch.numDrafts pos : Nat) := by
  have hload : ∀ p < batch.batchSize, device.loadMasked batch.cuNumDraftTokens p true =
      (batch.start p + batch.numDrafts p : Nat) := by
    intro p hp
    rw [Device.loadMasked, getD_eq_getElem?_getD, getElem?_cuNumDraftTokens hp]
    rfl
  refine ⟨?_, hload pos hpos⟩
  cases pos with
  | zero => rfl
  | succ p =>
    rw [if_neg (succ_ne_zero p), Nat.add_sub_cancel, hload p (by omega)]
    exact congrArg _ (Ragged.start_succ batch.numDraftTokens p).symm

variable {device : Device} {t : Nat}

theorem toNat_loadMasked_false (hfill : device.fill ≤ 0) (pos : Nat) :
    (device.loadMasked batch.cuNumDraftTokens pos false -
      if pos = 0 then 0 else device.loadMasked batch.cuNumDraftTokens (pos - 1) false).toNat = 0 := by
  simp only [Device.loadMasked, Bool.false_eq_true, if_false]
  split <;> omega

/-! ### Greedy requests -/

def greedyCell (batch : Batch) (isGreedy : Option (List Bool)) (b c : Nat) (old : Int) : Int :=
  if batch.greedyMask isGreedy b then
    laneCell (batch.numDrafts b)
      (firstFailure (batch.numDrafts b) fun i => batch.acceptsGreedy (batch.start b + i))
      (fun i => batch.argmaxToken (batch.start b + i)) (batch.bonusToken b) c old
  else old

theorem rejectionGreedySampleTriton_apply (hfill : device.fill ≤ 0)
    (isGreedy : Option (List Bool)) (position : Nat) (mem : Nat → Int) (a : Nat) :
    batch.rejectionGreedySampleTriton device isGreedy position mem a =
      if a / batch.rowSize = position then
        batch.greedyCell isGreedy position (a % batch.rowSize) (mem a)
      else mem a := by
  unfold rejectionGreedySampleTriton greedyCell
  cases hmask : batch.greedyMask isGreedy position with
  | false =>
    rw [toNat_loadMasked_false hfill]
    simp [storeUntilRejected]
  | true =>
    have hpos : position < batch.batchSize := by
      unfold greedyMask at hmask
      cases isGreedy <;> simp_all
    obtain ⟨hstart, hend⟩ := loadMasked_true device hpos
    rw [hstart, hend, Bool.and_true, if_pos rfl]
    simp only [cast_add, add_sub_cancel_left, toNat_start_add, Int.toNat_natCast]
    rw [storeUntilRejected_bonus (batch.numDrafts_le position)]
    simp only [acceptsGreedy, bne, Bool.not_not]

theorem local_rejectionGreedySampleTriton (hfill : device.fill ≤ 0) (isGreedy : Option (List Bool)) :
    Grid.Local (· / batch.rowSize) (batch.rejectionGreedySampleTriton device isGreedy) :=
  @Grid.Local.of_cell _ _ _ (fun b a => batch.greedyCell isGreedy b (a % batch.rowSize))
    (rejectionGreedySampleTriton_apply hfill isGreedy)

/-! ### Probabilities -/

theorem draftToken_mem (ht : t < batch.numTokens) : batch.draftToken t ∈ batch.draftTokenIds := by
  have hlen : t < batch.draftTokenIds.length := by rwa [batch.draft_len]
  exact Ragged.getD_mem hlen _

theorem candidates (ht : t < batch.numTokens) {indices : List (List Int)}
    (hindices : batch.targetIndices = some indices) :
    (indices.getD t []).length = batch.vocabSize ∧ (indices.getD t []).Nodup ∧
      (batch.targetProbs.getD t []).length = batch.vocabSize ∧ ∀ prob ∈ batch.targetProbs.getD t [], 0 ≤ prob := by
  obtain ⟨hlen, hrows⟩ := batch.index_rows indices hindices
  have hi : t < indices.length := by rwa [hlen]
  have hp : t < batch.targetProbs.length := by rwa [batch.target_len]
  obtain ⟨hwidth, hnodup⟩ := hrows _ (Ragged.getD_mem hi [])
  obtain ⟨hwidth', hnonneg⟩ := batch.target_row _ (Ragged.getD_mem hp [])
  exact ⟨hwidth, hnodup, hwidth', hnonneg⟩

def candidateProb (batch : Batch) (indices : List (List Int)) (t v : Nat) : Rat :=
  if (indices.getD t []).getD v placeholderTokenId = batch.draftToken t
  then (batch.targetProbs.getD t []).getD v 0 else 0

section Candidates

variable {t : Nat} {indices : List (List Int)} (ht : t < batch.numTokens)
  (hindices : batch.targetIndices = some indices)

include ht hindices

theorem targetProb_eq_sum : batch.targetProb t = ((range batch.vocabSize).map (batch.candidateProb indices t)).sum := by
  obtain ⟨hwidth, -, hwidth', -⟩ := candidates ht hindices
  unfold targetProb
  rw [hindices]
  dsimp only
  rw [zip_eq_map_range hwidth hwidth' placeholderTokenId 0, map_map]
  rfl

omit ht in
theorem currentMatchProb_eq (block : Nat) :
    batch.currentMatchProb indices t (batch.draftToken t) block =
      ((range vocabBlockSize).map fun i => if block * vocabBlockSize + i < batch.vocabSize
        then batch.candidateProb indices t (block * vocabBlockSize + i) else 0).sum := by
  refine congrArg sum (map_congr_left fun i _ => ?_)
  dsimp only
  split
  next hlt =>
    rw [getD_flatten_mul (fun row hrow => ((batch.index_rows indices hindices).2 row hrow).1) hlt,
      getD_flatten_mul (fun row hrow => (batch.target_row row hrow).1) hlt]
    rfl
  next => rfl

theorem candidateProb_nonneg (v : Nat) : 0 ≤ batch.candidateProb indices t v := by
  obtain ⟨-, -, -, hnonneg⟩ := candidates ht hindices
  unfold candidateProb
  split
  · exact Ragged.getD_of_forall_mem (P := (0 ≤ ·)) le_rfl hnonneg v
  · exact le_refl _

theorem eq_of_candidateProb_pos {v w : Nat} (hv : v < batch.vocabSize) (hw : w < batch.vocabSize)
    (hv0 : 0 < batch.candidateProb indices t v) (hw0 : 0 < batch.candidateProb indices t w) : v = w := by
  obtain ⟨hwidth, hnodup, -, -⟩ := candidates ht hindices
  have hmatch : ∀ u, 0 < batch.candidateProb indices t u →
      (indices.getD t []).getD u placeholderTokenId = batch.draftToken t := by
    intro u hu
    by_contra hne
    rw [candidateProb, if_neg hne] at hu
    exact lt_irrefl _ hu
  have heq := (hmatch v hv0).trans (hmatch w hw0).symm
  rw [← hwidth] at hv hw
  rw [← getElem_eq_getD (h := hv), ← getElem_eq_getD (h := hw)] at heq
  exact (hnodup.getElem_inj_iff).mp heq

theorem searchTargetProb_eq : batch.searchTargetProb indices t (batch.draftToken t) = batch.targetProb t := by
  have hblock : 0 < vocabBlockSize := by decide
  have hterm : ∀ v, 0 ≤ if v < batch.vocabSize then batch.candidateProb indices t v else 0 := by
    intro v
    split
    · exact candidateProb_nonneg ht hindices v
    · exact le_refl _
  have hnonneg : ∀ block, 0 ≤ batch.currentMatchProb indices t (batch.draftToken t) block := by
    intro block
    rw [currentMatchProb_eq hindices]
    refine sum_nonneg (forall_mem_map.mpr fun i _ => ?_)
    exact hterm _
  have hfind : ∀ block, 0 < batch.currentMatchProb indices t (batch.draftToken t) block →
      ∃ v < batch.vocabSize, v / vocabBlockSize = block ∧ 0 < batch.candidateProb indices t v := by
    intro block hpos
    by_contra hnone
    rw [currentMatchProb_eq hindices] at hpos
    refine absurd (sum_eq_zero (forall_mem_map.mpr fun i hi => ?_)) (ne_of_gt hpos)
    by_contra hne
    have hpos := lt_of_le_of_ne (hterm (block * vocabBlockSize + i)) (.symm hne)
    split at hpos
    next hlt => exact hnone ⟨_, hlt, mul_add_div_of_lt (mem_range.mp hi), hpos⟩
    next => exact lt_irrefl _ hpos
  have honly : ∀ j k, 0 < batch.currentMatchProb indices t (batch.draftToken t) j →
      0 < batch.currentMatchProb indices t (batch.draftToken t) k → j = k := by
    intro j k hj hk
    obtain ⟨v, hv, rfl, hv0⟩ := hfind j hj
    obtain ⟨w, hw, rfl, hw0⟩ := hfind k hk
    rw [eq_of_candidateProb_pos ht hindices hv hw hv0 hw0]
  unfold searchTargetProb
  rw [foldl_first_pos hnonneg honly, targetProb_eq_sum ht hindices,
    ← sum_blocks hblock (batch.candidateProb indices t)]
  exact congrArg sum (map_congr_left fun block _ => currentMatchProb_eq hindices block)

end Candidates

theorem loadProbs_eq (ht : t < batch.numTokens) (hdraft : batch.isPlaceholder t = false) :
    batch.loadProbs t (batch.draftToken t) = (batch.targetProb t, batch.draftProb t) := by
  have hne : batch.draftToken t ≠ placeholderTokenId := by simpa [isPlaceholder] using hdraft
  obtain ⟨-, hlt⟩ := (batch.draft_ids _ (draftToken_mem ht)).resolve_left hne
  refine Prod.ext ?_ ?_
  · cases hindices : batch.targetIndices with
    | some indices =>
      simp only [loadProbs, hindices]
      exact searchTargetProb_eq ht hindices
    | none =>
      have hwidth := batch.vocab_full hindices
      simp only [loadProbs, targetProb, hindices]
      refine getD_flatten_mul (fun row hrow => ?_) (hlt (.inl hindices)) 0
      rw [(batch.target_row row hrow).1, hwidth]
  · cases hprobs : batch.draftProbs with
    | none => simp only [loadProbs, draftProb, hprobs]
    | some probs =>
      simp only [loadProbs, draftProb, hprobs]
      refine getD_flatten_mul (batch.draft_rows probs hprobs).2 (hlt (.inr ?_)) 0
      rw [hprobs]
      rfl

theorem verifyDraft_eq (ht : t < batch.numTokens) : batch.verifyDraft t =
    (if batch.acceptsRandom t then batch.draftToken t else batch.recoveredToken t, !batch.acceptsRandom t) := by
  unfold verifyDraft acceptsRandom
  cases hdraft : batch.isPlaceholder t with
  | true => simp
  | false =>
    rw [if_neg Bool.false_ne_true, loadProbs_eq ht hdraft]
    dsimp only
    split
    next h => simp [h.1, h.2]
    next h =>
      rw [not_and_or] at h
      rcases h with h | h <;> simp [h]

/-! ### Random requests -/

def randomCell (batch : Batch) (b c : Nat) (old : Int) : Int :=
  if b < batch.batchSize ∧ batch.greedy b = false then
    laneCell (batch.numDrafts b)
      (firstFailure (batch.numDrafts b) fun i => !(batch.verifyDraft (batch.start b + i)).2)
      (fun i => (batch.verifyDraft (batch.start b + i)).1) (batch.bonusToken b) c old
  else old

theorem rejectionRandomSampleKernel_apply (device : Device) (position : Nat) (mem : Nat → Int) (a : Nat) :
    batch.rejectionRandomSampleKernel device position mem a =
      if a / batch.rowSize = position then
        batch.randomCell position (a % batch.rowSize) (mem a)
      else mem a := by
  unfold rejectionRandomSampleKernel randomCell
  by_cases hactive : position < batch.batchSize ∧ batch.greedy position = false
  · obtain ⟨hpos, hgreedy⟩ := hactive
    obtain ⟨hstart, hend⟩ := loadMasked_true device hpos
    simp only [hpos, hgreedy, decide_true, if_true, Bool.not_false, hstart, hend, cast_add, add_sub_cancel_left,
      toNat_start_add, Int.toNat_natCast, and_self]
    exact storeUntilRejected_bonus (batch.numDrafts_le position) _ mem a
  · rw [if_neg hactive, if_neg fun hnot => hactive (notGreedy_iff.mp hnot), ite_self]

theorem local_rejectionRandomSampleKernel (device : Device) :
    Grid.Local (· / batch.rowSize) (batch.rejectionRandomSampleKernel device) :=
  @Grid.Local.of_cell _ _ _ (fun b a => batch.randomCell b (a % batch.rowSize))
    (rejectionRandomSampleKernel_apply device)

/-! ## Launches -/

theorem le_calGridAndBlockSize (device : Device) (batchSize : Nat) : batchSize ≤
    (device.calGridAndBlockSize batchSize).1 * (device.calGridAndBlockSize batchSize).2 := by
  unfold Device.calGridAndBlockSize
  split
  · exact (mul_one _).ge
  · have hcover := lt_div_mul_add (a := batchSize + device.vectorcoreNum - 1) device.cores_pos
    calc batchSize ≤ device.vectorcoreNum * cdiv batchSize device.vectorcoreNum := by
          unfold cdiv
          rw [mul_comm]
          omega
      _ ≤ device.vectorcoreNum * nextPowerOf2 (cdiv batchSize device.vectorcoreNum) :=
          mul_le_mul_left _ (le_pow_clog (by decide) _)

section Launches

variable {device : Device} {order : List Nat}
  (horder : order.Perm (range (device.calGridAndBlockSize batch.batchSize).1))

include horder

theorem launch_row {lane : Nat → (Nat → Int) → Nat → Int} (hlane : Grid.Local (· / batch.rowSize) lane)
    (mem : Nat → Int) {b c : Nat} (hb : b < batch.batchSize) (hc : c < batch.rowSize) :
    Grid.launch order (device.calGridAndBlockSize batch.batchSize).2 lane mem (b * batch.rowSize + c) =
      lane b mem (b * batch.rowSize + c) := by
  have hrow : (b * batch.rowSize + c) / batch.rowSize = b := mul_add_div_of_lt hc
  rw [Grid.launch_apply horder hlane, hrow, if_pos]
  exact hb.trans_le (le_calGridAndBlockSize device batch.batchSize)

end Launches

end Batch

end VllmAscend.Sample
