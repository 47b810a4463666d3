import VllmAscend.Lib.Tensor
import VllmAscend.Sample.KernelOutput

/-!
# The vectorised sampler

All requests are verified at once on a grid of `max_spec_len` columns. Cells past the drafts of a
request read some other token, by an index that is cut off at the last one, and are masked out.
-/

namespace VllmAscend.Sample.Batch

variable (batch : Batch)

/-! ## Greedy requests -/

/-- The flags of `rejection_greedy_sample_pytorch`: all requests where none are given. -/
def greedyFlag (isGreedy : Option (List Bool)) (b : Nat) : Bool :=
  match isGreedy with
  | none => true
  | some flags => flags.getD b false

def startIndices (b : Nat) : Nat := batch.cuNumDraftTokens.getD b 0 - batch.numDrafts b

def tokenPlaces : List (Nat × Nat) :=
  let tokenReqIds := Ragged.repeats (List.range batch.batchSize) batch.numDraftTokens
  (List.range batch.numTokens).map fun t => (tokenReqIds.getD t 0, t - batch.startIndices (tokenReqIds.getD t 0))

def firstMismatchPosPerReq : Option (Nat → Int) :=
  if batch.maxSpecLen = 0 then some fun _ => 0
  else do
    let places := batch.tokenPlaces
    let posMatrix ← Tensor.scatter batch.batchSize batch.maxSpecLen
      (places.map fun place => (place, (place.2 : Int))) fun _ _ => -1
    let mismatchMatrix ← Tensor.scatter batch.batchSize batch.maxSpecLen
      (places.zip ((List.range batch.numTokens).map fun t => batch.draftToken t != batch.argmaxToken t))
      fun _ _ => false
    let mismatchPositions := fun b p =>
      if mismatchMatrix b p then posMatrix b p else ((batch.maxSpecLen * 2 : Nat) : Int)
    let first := fun b => ((List.range batch.maxSpecLen).map (mismatchPositions b)).min?.getD 0
    return fun b => if first b = ((batch.maxSpecLen * 2 : Nat) : Int) then batch.numDrafts b else first b

def rejectionGreedySamplePytorch (isGreedy : Option (List Bool)) (output : Nat → Nat → Int) :
    Option (Nat → Nat → Int) := do
  let first ← batch.firstMismatchPosPerReq
  let copyLen := fun b => min (first b + 1) (batch.numDrafts b : Int)
  let finalCopyMask := fun b (c : Nat) => decide ((c : Int) < copyLen b) && greedyFlag isGreedy b
  let output ← Tensor.assignMasked batch.batchSize batch.rowSize batch.targetArgmax 0 finalCopyMask
    (fun b c => batch.startIndices b + c) output
  let needsBonus := fun b => greedyFlag isGreedy b && decide ((batch.numDrafts b : Int) ≤ first b)
  return fun b c => if needsBonus b && c == batch.numDrafts b then batch.bonusToken b else output b c

def rejectionGreedySampleSpecLen1Pytorch (output : Nat → Nat → Int) : Option (Nat → Nat → Int) :=
  if batch.batchSize = batch.numTokens then
    some fun b c =>
      if c = 0 then batch.argmaxToken b
      else if c = 1 then
        if batch.draftToken b == batch.argmaxToken b then batch.bonusToken b else output b 1
      else output b c
  else none

/-! ## The grid -/

def cuStart (b : Nat) : Nat := if b = 0 then 0 else batch.cuNumDraftTokens.getD (b - 1) 0

def numDraftPerBatch (b : Nat) : Nat := batch.cuNumDraftTokens.getD b 0 - batch.cuStart b

def validMask (b p : Nat) : Bool := decide (p < batch.numDraftPerBatch b)

def globalTokenIndices (b p : Nat) : Nat := min (batch.cuStart b + p) (batch.numTokens - 1)

structure Cells where
  draftTokens : Nat → Nat → Int
  draftTokenProbs : Nat → Nat → Rat
  targetTokenProbs : Nat → Nat → Rat
  uniformTokenProbs : Nat → Nat → Rat
  recoveredTokens : Nat → Nat → Int

def Cells.placeholderMask (cells : Cells) (b p : Nat) : Bool := cells.draftTokens b p == placeholderTokenId

/-- `draft_token_probs`; a placeholder reads the column of token zero. -/
def gatherDraftProbs (safeDraftTokens : Nat → Nat → Int) : Option (Nat → Nat → Rat) :=
  match batch.draftProbs with
  | none => some fun _ _ => 1
  | some probs => Tensor.gatherCell batch.batchSize batch.maxSpecLen probs 0 batch.globalTokenIndices safeDraftTokens

def gatherTargetProbs (draftTokens safeDraftTokens : Nat → Nat → Int) : Option (Nat → Nat → Rat) :=
  match batch.targetIndices with
  | none =>
    Tensor.gatherCell batch.batchSize batch.maxSpecLen batch.targetProbs 0 batch.globalTokenIndices
      safeDraftTokens
  | some indices => do
    let targetIndices ← Tensor.gather batch.batchSize batch.maxSpecLen indices [] batch.globalTokenIndices
    let targetProbs ← Tensor.gather batch.batchSize batch.maxSpecLen batch.targetProbs [] batch.globalTokenIndices
    some fun b p => (((targetIndices b p).zip (targetProbs b p)).map fun candidate =>
      if candidate.1 = draftTokens b p then candidate.2 else 0).sum

def gatherCells : Option Cells := do
  let draftTokens ←
    Tensor.gather batch.batchSize batch.maxSpecLen batch.draftTokenIds 0 batch.globalTokenIndices
  let safeDraftTokens : Nat → Nat → Int := fun b p =>
    if draftTokens b p == placeholderTokenId then 0 else draftTokens b p
  let draftTokenProbs ← batch.gatherDraftProbs safeDraftTokens
  let targetTokenProbs ← batch.gatherTargetProbs draftTokens safeDraftTokens
  let uniformTokenProbs ←
    Tensor.gather batch.batchSize batch.maxSpecLen batch.uniformProbs 0 batch.globalTokenIndices
  let recoveredTokens ←
    Tensor.gather batch.batchSize batch.maxSpecLen batch.recoveredTokenIds 0 batch.globalTokenIndices
  some ⟨draftTokens, draftTokenProbs, targetTokenProbs, uniformTokenProbs, recoveredTokens⟩

def Cells.acceptanceCondition (cells : Cells) (b p : Nat) : Bool :=
  decide (0 < cells.draftTokenProbs b p) &&
    decide (cells.uniformTokenProbs b p ≤ cells.targetTokenProbs b p / cells.draftTokenProbs b p) &&
    !cells.placeholderMask b p

def firstRejection (cells : Cells) (b p : Nat) : Bool := !cells.acceptanceCondition b p && batch.validMask b p

/-- `first_reject_pos`; the reduction over an empty axis raises. -/
def firstRejectPos (cells : Cells) (b : Nat) : Option Nat :=
  (argmaxTrue batch.maxSpecLen (batch.firstRejection cells b)).map fun position =>
    if (List.range batch.maxSpecLen).any (batch.firstRejection cells b) then position else batch.maxSpecLen

def selectTokens (cells : Cells) (firstRejectPos : Nat → Nat) (output : Nat → Nat → Int) (b c : Nat) : Int :=
  let shouldSkip := fun p => decide (firstRejectPos b ≤ p) && batch.validMask b p
  let finalAcceptance := fun p => cells.acceptanceCondition b p && !shouldSkip p
  let nonGreedy := !batch.greedy b
  let updateMask := fun p => nonGreedy && batch.validMask b p && !shouldSkip p
  let firstRejectMask := fun p => p == firstRejectPos b && batch.validMask b p && nonGreedy
  let finalToken := if firstRejectMask c then cells.recoveredTokens b c
    else if finalAcceptance c then cells.draftTokens b c else output b c
  let token := if decide (c < batch.maxSpecLen) && (updateMask c || firstRejectMask c) then finalToken
    else output b c
  let shouldAddBonus := nonGreedy && decide (batch.numDraftPerBatch b ≤ firstRejectPos b)
  let finalBonus := shouldAddBonus && decide (batch.numDraftPerBatch b < batch.maxSpecLen + 1)
  if c == batch.numDraftPerBatch b && finalBonus then batch.bonusToken b else token

def rejectionRandomSamplePytorch (output : Nat → Nat → Int) : Option (Nat → Nat → Int) := do
  let cells ← batch.gatherCells
  let positions ← (List.range batch.batchSize).mapM (batch.firstRejectPos cells)
  some (batch.selectTokens cells (positions.getD · 0) output)

def rejectionGreedySampleStage : Option (Nat → Nat → Int) :=
  let output : Nat → Nat → Int := fun _ _ => placeholderTokenId
  if batch.allRandom then some output
  else if batch.numDraftTokens.all (· == 1) && batch.allGreedy then
    batch.rejectionGreedySampleSpecLen1Pytorch output
  else batch.rejectionGreedySamplePytorch batch.greedyFlags output

def rejectionSamplePytorch : Option (List (List Int)) :=
  batch.rejectionGreedySampleStage.bind fun output =>
    (if batch.allGreedy then some output else batch.rejectionRandomSamplePytorch output).map fun output =>
      (List.range batch.batchSize).map fun b => (List.range batch.rowSize).map fun c => output b c

end VllmAscend.Sample.Batch
