import VllmAscend.Lib.ClampedProduct
import VllmAscend.Sample.Agreement

/-!
# Block verification

A block of drafts is accepted up to the last position where the product of the ratios `p / q` is at least the
product of the uniform numbers. The kernel clamps the product after each draft; the vectorised sampler clamps the
ratios.
-/

namespace VllmAscend.Sample.Batch

variable (batch : Batch)

/-! ## The kernel -/

structure BlockScan where
  pi : Rat
  uniformProb : Rat
  lastAcceptedTokenPos : Int

/-- The probabilities of a draft that is not a placeholder. Without candidates both tables have rows of
`vocab_size`. -/
def loadBlockProbs (tokenIdx : Nat) (draftTokenId : Int) : Rat × Rat :=
  let targetProb := match batch.targetIndices with
    | some indices => batch.searchTargetProb indices tokenIdx draftTokenId
    | none => batch.targetProbs.flatten.getD (tokenIdx * batch.vocabSize + draftTokenId.toNat) 0
  let vocabForDraft := if batch.targetIndices.isSome then batch.globalVocabSize else batch.vocabSize
  let draftProb := match batch.draftProbs with
    | none => 1
    | some probs => probs.flatten.getD (tokenIdx * vocabForDraft + draftTokenId.toNat) 0
  (targetProb, draftProb)

def blockStep (startIdx : Int) (scan : BlockScan) (pos : Nat) : BlockScan :=
  let tokenIdx := (startIdx + pos).toNat
  let draftTokenId := batch.draftToken tokenIdx
  if batch.isPlaceholder tokenIdx then { scan with pi := 0 }
  else
    let probs := batch.loadBlockProbs tokenIdx draftTokenId
    let uniformProb := scan.uniformProb * batch.uniformProb tokenIdx
    let pi := min (scan.pi * probs.1 / probs.2) 1
    { pi := pi
      uniformProb := uniformProb
      lastAcceptedTokenPos := if 0 < probs.2 ∧ uniformProb ≤ pi then pos else scan.lastAcceptedTokenPos }

def blockScan (startIdx : Int) (numDraftTokens : Nat) : BlockScan :=
  (List.range numDraftTokens).foldl (batch.blockStep startIdx) ⟨1, 1, -1⟩

def blockRange (device : Device) (position : Nat) (notGreedy : Bool) : Int × Int :=
  let prevEndIdx : Int :=
    if notGreedy && decide (0 < position) then (batch.cuNumDraftTokens.getD (position - 1) 0 : Nat) else 0
  let startIdx := if position = 0 then 0 else prevEndIdx
  (startIdx, device.loadMasked batch.cuNumDraftTokens position notGreedy - startIdx)

def rejectionRandomSampleBlockVerifyKernel (device : Device) (position : Nat) (mem : Nat → Int) : Nat → Int :=
  let mask := decide (position < batch.batchSize)
  let notGreedy := !(if mask then batch.greedy position else true)
  if notGreedy then
    let startIdx := (batch.blockRange device position notGreedy).1
    let numDraftTokens := (batch.blockRange device position notGreedy).2
    let last := (batch.blockScan startIdx numDraftTokens.toNat).lastAcceptedTokenPos
    let row := position * batch.rowSize
    let mem := if -1 < last then
        storeAll row (last + 1).toNat (fun pos => batch.draftToken (startIdx + pos).toNat) mem
      else mem
    if last + 1 < numDraftTokens then
      Function.update mem (row + last + 1).toNat (batch.recoveredToken (startIdx + last + 1).toNat)
    else Function.update mem (row + numDraftTokens).toNat (batch.bonusToken position)
  else mem

def Cells.pi (cells : Cells) (b p : Nat) : Rat :=
  prodClamped (fun i => cells.targetTokenProbs b i / cells.draftTokenProbs b i) (p + 1)

def Cells.cumUniformTokenProbs (cells : Cells) (b p : Nat) : Rat :=
  ((List.range (p + 1)).map (cells.uniformTokenProbs b)).prod

def legalMask (cells : Cells) (b p : Nat) : Bool :=
  decide (0 < cells.draftTokenProbs b p) && decide (cells.cumUniformTokenProbs b p ≤ cells.pi b p) &&
    batch.validMask b p && !cells.placeholderMask b p

def lastAcceptPos (cells : Cells) (b : Nat) : Option Int :=
  (argmaxTrue batch.maxSpecLen fun i => batch.legalMask cells b (batch.maxSpecLen - 1 - i)).map fun (position : Nat) =>
    if (List.range batch.maxSpecLen).any (batch.legalMask cells b) then (batch.maxSpecLen : Int) - position - 1
    else -1

def selectBlockTokens (cells : Cells) (lastAcceptPos : Nat → Int) (output : Nat → Nat → Int) (b c : Nat) : Int :=
  let nonGreedy := !batch.greedy b
  let acceptMask := decide ((c : Int) ≤ lastAcceptPos b) && batch.validMask b c && nonGreedy
  let rejectMask := decide ((c : Int) = lastAcceptPos b + 1) && batch.validMask b c && nonGreedy
  let bonusMask := decide ((batch.numDraftPerBatch b : Int) ≤ lastAcceptPos b + 1) && nonGreedy &&
    c == batch.numDraftPerBatch b
  let token := if decide (c < batch.maxSpecLen) && acceptMask then cells.draftTokens b c else output b c
  let token := if decide (c < batch.maxSpecLen) && rejectMask then cells.recoveredTokens b c else token
  if bonusMask then batch.bonusToken b else token

def rejectionRandomSampleBlockVerifyPytorch (output : Nat → Nat → Int) : Option (Nat → Nat → Int) := do
  let cells ← batch.gatherCells
  let positions ← (List.range batch.batchSize).mapM (batch.lastAcceptPos cells)
  some (batch.selectBlockTokens cells (positions.getD · 0) output)

def blockCell (b : Nat) (last : Int) (c : Nat) (old : Int) : Int :=
  if (c : Int) ≤ last then batch.draftToken (batch.start b + c)
  else if (c : Int) = last + 1 then
    if c < batch.numDrafts b then batch.recoveredToken (batch.start b + c) else batch.bonusToken b
  else old

variable {batch}

theorem loadBlockProbs_eq {t : Nat} (ht : t < batch.numTokens) (hdraft : batch.isPlaceholder t = false) :
    batch.loadBlockProbs t (batch.draftToken t) = (batch.targetProb t, batch.draftProb t) := by
  rw [← loadProbs_eq ht hdraft]
  unfold loadBlockProbs loadProbs
  cases hindices : batch.targetIndices with
  | none => cases batch.draftProbs <;> simp [batch.vocab_full hindices]
  | some indices => rfl

theorem blockRange_eq (device : Device) {position : Nat} (hpos : position < batch.batchSize) :
    batch.blockRange device position true = ((batch.start position : Int), (batch.numDrafts position : Int)) := by
  obtain ⟨hstart, hend⟩ := loadMasked_true device hpos
  have hprev : (if position = 0 then (0 : Int) else
      if true && decide (0 < position) then (batch.cuNumDraftTokens.getD (position - 1) 0 : Nat) else 0) =
      batch.start position := by
    rw [← hstart, Device.loadMasked, if_pos rfl]
    split
    next => rfl
    next hne => rw [if_pos (by simpa using Nat.pos_of_ne_zero hne)]
  unfold blockRange
  dsimp only
  rw [hprev, hend]
  exact Prod.ext rfl (by omega)

/-! ## The loop -/

theorem blockStep_of_placeholder {st : Int} {pos : Nat}
    (h : batch.isPlaceholder (st + pos).toNat = true) (scan : BlockScan) :
    batch.blockStep st scan pos = { scan with pi := 0 } := if_pos h

theorem blockStep_of_draft {st : Int} {pos : Nat}
    (h : batch.isPlaceholder (st + pos).toNat = false) (scan : BlockScan) :
    batch.blockStep st scan pos =
      let probs := batch.loadBlockProbs (st + pos).toNat (batch.draftToken (st + pos).toNat)
      let uniformProb := scan.uniformProb * batch.uniformProb (st + pos).toNat
      let pi := min (scan.pi * probs.1 / probs.2) 1
      ⟨pi, uniformProb, if 0 < probs.2 ∧ uniformProb ≤ pi then pos else scan.lastAcceptedTokenPos⟩ :=
  if_neg (Bool.eq_false_iff.mp h)

theorem blockScan_succ (st : Int) (n : Nat) :
    batch.blockScan st (n + 1) = batch.blockStep st (batch.blockScan st n) n := by
  unfold blockScan
  rw [List.range_succ, List.foldl_append, List.foldl_cons, List.foldl_nil]

def scanLegal (batch : Batch) (startIdx : Int) (pos : Nat) : Bool :=
  let tokenIdx := (startIdx + pos).toNat
  let scan := batch.blockScan startIdx (pos + 1)
  !batch.isPlaceholder tokenIdx && decide (0 < (batch.loadBlockProbs tokenIdx (batch.draftToken tokenIdx)).2) &&
    decide (scan.uniformProb ≤ scan.pi)

theorem lastAcceptedTokenPos_eq (st : Int) (n : Nat) :
    (batch.blockScan st n).lastAcceptedTokenPos = lastTrue (batch.scanLegal st) n := by
  induction n with
  | zero => rfl
  | succ n ih =>
    rw [lastTrue, scanLegal, ← ih, blockScan_succ]
    cases hplaceholder : batch.isPlaceholder (st + n).toNat with
    | true => rw [blockStep_of_placeholder hplaceholder, Bool.not_true]; rfl
    | false =>
      rw [blockStep_of_draft hplaceholder, Bool.not_false, Bool.true_and]
      simp only [Bool.and_eq_true, decide_eq_true_eq]

/-! ## What is stored -/

def storeBlock (batch : Batch) (position m : Nat) (mem : Nat → Int) : Nat → Int :=
  Function.update
    (storeAll (position * batch.rowSize) m (fun pos => batch.draftToken (batch.start position + pos)) mem)
    (position * batch.rowSize + m)
    (if m < batch.numDrafts position then batch.recoveredToken (batch.start position + m)
      else batch.bonusToken position)

theorem storeBlock_apply {pos m : Nat} (hm : m ≤ batch.numDrafts pos) (mem : Nat → Int) (a : Nat) :
    batch.storeBlock pos m mem a =
      if a / batch.rowSize = pos then batch.blockCell pos ((m : Int) - 1) (a % batch.rowSize) (mem a)
      else mem a := by
  have hn := batch.numDrafts_le pos
  have hrow : batch.rowSize = batch.maxSpecLen + 1 := rfl
  have ha := Nat.div_add_mod' a batch.rowSize
  unfold storeBlock blockCell
  by_cases hown : a / batch.rowSize = pos
  · rw [if_pos hown]
    rw [hown] at ha
    generalize a % batch.rowSize = c at ha
    subst ha
    rcases Nat.lt_trichotomy c m with hlt | rfl | hgt
    · rw [Function.update_of_ne (by omega), storeAll_eq, if_pos (by omega), if_pos (by omega), Nat.add_sub_cancel_left]
    · rw [Function.update_self, if_neg (show ¬ (c : Int) ≤ (c : Int) - 1 by omega),
        if_pos (show (c : Int) = (c : Int) - 1 + 1 by omega)]
    · rw [Function.update_of_ne (by omega), storeAll_eq, if_neg (by omega), if_neg (by omega), if_neg (by omega)]
  · have hout := not_in_row hown
    rw [if_neg hown, Function.update_of_ne (by omega), storeAll_eq, if_neg (by omega)]

def blockLaneCell (batch : Batch) (b c : Nat) (old : Int) : Int :=
  if b < batch.batchSize ∧ batch.greedy b = false then
    batch.blockCell b (lastTrue (batch.scanLegal (batch.start b)) (batch.numDrafts b)) c old
  else old

theorem rejectionRandomSampleBlockVerifyKernel_apply (device : Device) (position : Nat) (mem : Nat → Int) (a : Nat) :
    batch.rejectionRandomSampleBlockVerifyKernel device position mem a =
      if a / batch.rowSize = position then batch.blockLaneCell position (a % batch.rowSize) (mem a)
      else mem a := by
  unfold blockLaneCell
  by_cases hactive : position < batch.batchSize ∧ batch.greedy position = false
  · obtain ⟨hpos, hgreedy⟩ := hactive
    obtain ⟨m, hm⟩ : ∃ m : Nat,
        lastTrue (batch.scanLegal (batch.start position)) (batch.numDrafts position) = (m : Int) - 1 := by
      have hge := neg_one_le_lastTrue (batch.scanLegal (batch.start position)) (batch.numDrafts position)
      exact ⟨(lastTrue (batch.scanLegal (batch.start position)) (batch.numDrafts position) + 1).toNat, by omega⟩
    have hlt := lastTrue_lt (batch.scanLegal (batch.start position)) (batch.numDrafts position)
    have hstored : batch.rejectionRandomSampleBlockVerifyKernel device position mem =
        batch.storeBlock position m mem := by
      unfold rejectionRandomSampleBlockVerifyKernel storeBlock
      simp only [hpos, hgreedy, decide_true, if_true, Bool.not_false, blockRange_eq device hpos, Int.toNat_natCast,
        lastAcceptedTokenPos_eq, hm, toNat_start_add, Int.sub_add_cancel]
      have hmem : (if -1 < (m : Int) - 1 then storeAll (position * batch.rowSize) m
            (fun pos => batch.draftToken (batch.start position + pos)) mem else mem) =
          storeAll (position * batch.rowSize) m (fun pos => batch.draftToken (batch.start position + pos)) mem := by
        cases m with
        | zero => rfl
        | succ m => exact if_pos (by omega)
      rw [hmem]
      by_cases hmn : m < batch.numDrafts position
      · rw [if_pos (Int.ofNat_lt.mpr hmn), if_pos hmn]
        congr 1
        · omega
        · congr 1
          omega
      · rw [if_neg (by omega), if_neg hmn]
        congr 1
        omega
    rw [if_pos (show position < batch.batchSize ∧ batch.greedy position = false from ⟨hpos, hgreedy⟩), hm, hstored]
    exact storeBlock_apply (by omega) mem a
  · rw [if_neg hactive, ite_self]
    exact congrFun (if_neg fun hnot => hactive (notGreedy_iff.mp hnot)) a

end VllmAscend.Sample.Batch
