import Mathlib.Algebra.Order.Field.Rat
import VllmAscend.Lib.FirstFailure
import VllmAscend.Lib.Ragged

/-!
# Batches of draft tokens

A batch holds the draft tokens of all requests in one list. `sampledRow` is what rejection sampling is to write for
a request: the drafts that are accepted, one more token, and placeholders.
-/

namespace VllmAscend.Sample

open List

def placeholderTokenId : Int := -1

/-- The arguments of the samplers. `targetIndices` is given in reduced-candidate mode: the rows of
`targetProbs` are then over the candidates, which are distinct. -/
structure Batch where
  numDraftTokens : List Nat
  maxSpecLen : Nat
  draftTokenIds : List Int
  draftProbs : Option (List (List Rat))
  targetProbs : List (List Rat)
  targetIndices : Option (List (List Int))
  vocabSize : Nat
  globalVocabSize : Nat
  targetArgmax : List Int
  bonusTokenIds : List Int
  recoveredTokenIds : List Int
  uniformProbs : List Rat
  isGreedy : List Bool
  drafts_le : ∀ n ∈ numDraftTokens, n ≤ maxSpecLen
  max_mem : maxSpecLen ∈ numDraftTokens
  tokens_pos : 0 < numDraftTokens.sum
  draft_len : draftTokenIds.length = numDraftTokens.sum
  argmax_len : targetArgmax.length = numDraftTokens.sum
  recovered_len : recoveredTokenIds.length = numDraftTokens.sum
  uniform_len : uniformProbs.length = numDraftTokens.sum
  bonus_len : bonusTokenIds.length = numDraftTokens.length
  greedy_len : isGreedy.length = numDraftTokens.length
  target_len : targetProbs.length = numDraftTokens.sum
  target_row : ∀ row ∈ targetProbs, row.length = vocabSize ∧ ∀ prob ∈ row, 0 ≤ prob
  draft_rows : ∀ probs ∈ draftProbs, probs.length = numDraftTokens.sum ∧
    ∀ row ∈ probs, row.length = globalVocabSize
  index_rows : ∀ indices ∈ targetIndices, indices.length = numDraftTokens.sum ∧
    ∀ row ∈ indices, row.length = vocabSize ∧ row.Nodup
  vocab_pos : 0 < globalVocabSize
  vocab_full : targetIndices = none → vocabSize = globalVocabSize
  draft_ids : ∀ id ∈ draftTokenIds, id = placeholderTokenId ∨
    0 ≤ id ∧ (targetIndices = none ∨ draftProbs.isSome = true → id.toNat < globalVocabSize)

namespace Batch

variable (batch : Batch)

def batchSize : Nat := batch.numDraftTokens.length

def numTokens : Nat := batch.numDraftTokens.sum

def cuNumDraftTokens : List Nat := Ragged.cumsum batch.numDraftTokens

def allGreedy : Bool := batch.isGreedy.all id

def allRandom : Bool := batch.isGreedy.all not

def greedyFlags : Option (List Bool) := if batch.allGreedy then none else some batch.isGreedy

/-! ## What is to be written -/

def start (b : Nat) : Nat := Ragged.start batch.numDraftTokens b

def numDrafts (b : Nat) : Nat := batch.numDraftTokens.getD b 0

def draftToken (t : Nat) : Int := batch.draftTokenIds.getD t 0

def argmaxToken (t : Nat) : Int := batch.targetArgmax.getD t 0

def recoveredToken (t : Nat) : Int := batch.recoveredTokenIds.getD t 0

def bonusToken (b : Nat) : Int := batch.bonusTokenIds.getD b 0

def uniformProb (t : Nat) : Rat := batch.uniformProbs.getD t 0

def greedy (b : Nat) : Bool := batch.isGreedy.getD b false

def draftProb (t : Nat) : Rat :=
  match batch.draftProbs with
  | none => 1
  | some probs => (probs.getD t []).getD (batch.draftToken t).toNat 0

def targetProb (t : Nat) : Rat :=
  match batch.targetIndices with
  | none => (batch.targetProbs.getD t []).getD (batch.draftToken t).toNat 0
  | some indices => (((indices.getD t []).zip (batch.targetProbs.getD t [])).map fun candidate =>
      if candidate.1 = batch.draftToken t then candidate.2 else 0).sum

def isPlaceholder (t : Nat) : Bool := batch.draftToken t == placeholderTokenId

def DraftProbsPos : Prop := ∀ probs ∈ batch.draftProbs, ∀ row ∈ probs, ∀ prob ∈ row, 0 < prob

def acceptsGreedy (t : Nat) : Bool := batch.draftToken t == batch.argmaxToken t

def acceptsRandom (t : Nat) : Bool :=
  !batch.isPlaceholder t && decide (0 < batch.draftProb t) &&
    decide (batch.uniformProb t ≤ batch.targetProb t / batch.draftProb t)

def accepts (b t : Nat) : Bool := if batch.greedy b then batch.acceptsGreedy t else batch.acceptsRandom t

def replacement (b t : Nat) : Int := if batch.greedy b then batch.argmaxToken t else batch.recoveredToken t

def numAccepted (b : Nat) : Nat := firstFailure (batch.numDrafts b) fun i => batch.accepts b (batch.start b + i)

def sampledRow (b : Nat) : List Int :=
  let accepted := (range (batch.numAccepted b)).map fun i => batch.draftToken (batch.start b + i)
  let next := if batch.numAccepted b < batch.numDrafts b
    then batch.replacement b (batch.start b + batch.numAccepted b) else batch.bonusToken b
  accepted ++ next :: replicate (batch.maxSpecLen - batch.numAccepted b) placeholderTokenId

def sampled : List (List Int) := (range batch.batchSize).map batch.sampledRow

/-! ## Places of the drafts -/

variable {batch}

theorem numDrafts_le (batch : Batch) (b : Nat) : batch.numDrafts b ≤ batch.maxSpecLen :=
  Ragged.getD_of_forall_mem (P := (· ≤ batch.maxSpecLen)) (Nat.zero_le _) batch.drafts_le b

theorem start_add_lt {b p : Nat} (hp : p < batch.numDrafts b) : batch.start b + p < batch.numTokens :=
  Ragged.start_add_lt hp

theorem getElem?_cuNumDraftTokens {b : Nat} (hb : b < batch.batchSize) :
    batch.cuNumDraftTokens[b]? = some (batch.start b + batch.numDrafts b) := by
  unfold batchSize at hb
  rw [cuNumDraftTokens, Ragged.getElem?_cumsum, if_pos hb, Ragged.start_succ]
  rfl

theorem numAccepted_le (batch : Batch) (b : Nat) : batch.numAccepted b ≤ batch.numDrafts b := firstFailure_le _ _

theorem maxSpecLen_pos (batch : Batch) : 0 < batch.maxSpecLen := by
  obtain ⟨b, p, hp, -⟩ := Ragged.exists_row batch.tokens_pos
  exact (Nat.zero_lt_of_lt hp).trans_le (batch.numDrafts_le b)

theorem getElem?_sampledRow {b c : Nat} (hc : c ≤ batch.maxSpecLen) : (batch.sampledRow b)[c]? = some
    (if c < batch.numAccepted b then batch.draftToken (batch.start b + c)
      else if c = batch.numAccepted b then
        if c < batch.numDrafts b then batch.replacement b (batch.start b + c) else batch.bonusToken b
      else placeholderTokenId) := by
  unfold sampledRow
  by_cases hlt : c < batch.numAccepted b
  · rw [if_pos hlt, getElem?_append_left (by simpa using hlt), getElem?_map,
      getElem?_range hlt]
    rfl
  · rw [if_neg hlt, getElem?_append_right (by simpa using hlt), length_map, length_range]
    by_cases heq : c = batch.numAccepted b
    · subst heq
      rw [if_pos rfl, Nat.sub_self]
      rfl
    · obtain ⟨k, hk⟩ : ∃ k, c - batch.numAccepted b = k + 1 := ⟨c - batch.numAccepted b - 1, by omega⟩
      rw [if_neg heq, hk, getElem?_cons_succ, getElem?_replicate, if_pos (by omega)]

theorem length_sampledRow (b : Nat) : (batch.sampledRow b).length = batch.maxSpecLen + 1 := by
  have hle := (batch.numAccepted_le b).trans (batch.numDrafts_le b)
  unfold sampledRow
  simp only [length_append, length_map, length_range, length_cons, length_replicate]
  omega

end Batch

end VllmAscend.Sample
