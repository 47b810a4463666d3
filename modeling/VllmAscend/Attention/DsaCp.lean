import VllmAscend.Lib.Ragged

/-!
# The query tokens of a context-parallel rank

The tokens of a batch stand in one row, request after request. The row is cut into slices of one length, one for each
rank, so that a request may begin before a slice, end after it or span several.
-/

namespace VllmAscend.Attention.DsaCp

open Ragged List

structure Request where
  queryLen : Nat
  seqLen : Nat
  le : queryLen ≤ seqLen

structure Batch where
  requests : List Request
  numInputTokens : Nat
  fits : (requests.map (·.queryLen)).sum ≤ numInputTokens

structure LocalTokens where
  localStart : Nat
  localEnd : Nat
  tokensPerRank : Nat
  numTokensPad : Nat
  localQueryStartLoc : List Nat
  localSeqLens : List Int

/-- `torch.clamp(x, min=lo, max=hi)` -/
def clamp (lo hi x : Nat) : Nat := min (max x lo) hi

/-- `buffer.fill_(0)`, then `buffer[first : first + len(values)] = values` -/
def refill {α : Type} [Zero α] (size first : Nat) (values : List α) : List α :=
  replicate first 0 ++ values ++ replicate (size - first - values.length) 0

namespace Batch

variable (batch : Batch) (localStart localEnd : Nat)

def numReqs : Nat := batch.requests.length

def queryLens : List Nat := batch.requests.map (·.queryLen)

def seqLens : List Nat := batch.requests.map (·.seqLen)

def queryStartLoc : List Nat := 0 :: cumsum batch.queryLens

def numActualTokens : Nat := batch.queryLens.sum

def numCompressorMetadataRows (compressorRatio : Nat) : Nat :=
  min batch.numActualTokens (batch.numActualTokens / compressorRatio + batch.numReqs)

def localQueryLens : List Nat :=
  zipWith (· - ·) (batch.queryStartLoc.tail.map (clamp localStart localEnd))
    (batch.queryStartLoc.dropLast.map (clamp localStart localEnd))

def offset : List Int :=
  batch.queryStartLoc.tail.map fun (queryEnd : Nat) => queryEnd - clamp localStart localEnd queryEnd

/-- `(local_query_lens > 0) * (seq_lens - offset)` -/
def localSeqLens : List Int :=
  zipWith (fun (n : Nat) seqLen => if 0 < n then seqLen else 0) (batch.localQueryLens localStart localEnd)
    (zipWith (fun (seqLen : Nat) (offset : Int) => seqLen - offset) batch.seqLens (batch.offset localStart localEnd))

/-- `maxNumSeqs` is the size of the buffers, where the result goes into buffers: they have room for the batch. -/
def buildLocalTokenMetadata (maxNumSeqs : Option { size // batch.numReqs ≤ size }) (tpSize tpRank : Nat) :
    LocalTokens :=
  let numTokensPad := (batch.numInputTokens + tpSize - 1) / tpSize * tpSize
  let tokensPerRank := numTokensPad / tpSize
  let localStart := tpRank * tokensPerRank
  let localEnd := localStart + tokensPerRank
  let localQueryLens := batch.localQueryLens localStart localEnd
  let localSeqLens := batch.localSeqLens localStart localEnd
  let (localQueryStartLoc, localSeqLens) :=
    match maxNumSeqs with
    | some size => (refill (size + 1) 1 (cumsum localQueryLens), refill size 0 localSeqLens)
    | none => (0 :: cumsum localQueryLens, localSeqLens)
  ⟨localStart, localEnd, tokensPerRank, numTokensPad, localQueryStartLoc.take (batch.numReqs + 1),
    localSeqLens.take batch.numReqs⟩

/-! ## The lists of a slice -/

variable {batch} {lo hi i : Nat}

@[simp]
theorem length_queryStartLoc : batch.queryStartLoc.length = batch.numReqs + 1 := by
  simp [queryStartLoc, length_cumsum, queryLens, numReqs]

@[simp]
theorem getElem_queryStartLoc (h : i < batch.queryStartLoc.length) :
    batch.queryStartLoc[i] = start batch.queryLens i := by
  rw [getElem_eq_getD (h := h) 0]
  exact getD_zero_cons_cumsum (by simpa [queryStartLoc, length_cumsum, Nat.lt_succ_iff] using h)

@[simp]
theorem length_localQueryLens : (batch.localQueryLens lo hi).length = batch.numReqs := by
  simp [localQueryLens]

@[simp]
theorem length_localSeqLens : (batch.localSeqLens lo hi).length = batch.numReqs := by
  simp [localSeqLens, offset, seqLens, numReqs]

theorem getD_localQueryLens (hn : i < batch.numReqs) : (batch.localQueryLens lo hi).getD i 0 =
    clamp lo hi (start batch.queryLens (i + 1)) - clamp lo hi (start batch.queryLens i) := by
  simp [localQueryLens, hn]

theorem getD_localSeqLens (hn : i < batch.numReqs) : (batch.localSeqLens lo hi).getD i 0 =
      if 0 < (batch.localQueryLens lo hi).getD i 0 then batch.seqLens.getD i 0 -
        ((start batch.queryLens (i + 1) : Int) - clamp lo hi (start batch.queryLens (i + 1))) else 0 := by
  have hlen : i < batch.seqLens.length := by simpa [seqLens, numReqs] using hn
  simp [localSeqLens, offset, hn, hlen]

theorem start_localQueryLens (hle : lo ≤ hi) (hn : i ≤ batch.numReqs) : start (batch.localQueryLens lo hi) i =
      clamp lo hi (start batch.queryLens i) - lo := by
  induction i with
  | zero => simp [start, clamp, hle]
  | succ i ih =>
    have hmono := start_mono batch.queryLens (show i ≤ i + 1 by omega)
    rw [start_succ, ih (by omega), getD_localQueryLens hn]
    simp only [clamp]
    omega

end Batch

/-! ## The tokens of a slice -/

namespace LocalTokens

def queryStart (t : LocalTokens) (i : Nat) : Nat := t.localQueryStartLoc.getD i 0

/-- The slice has the tokens of each request in order, each with its causal length in the whole batch. -/
structure Splits (t : LocalTokens) (batch : Batch) : Prop where
  lengths : t.localQueryStartLoc.length = batch.numReqs + 1 ∧ t.localSeqLens.length = batch.numReqs
  delimits : ∀ i < batch.numReqs, ∀ k, t.queryStart i ≤ k ∧ k < t.queryStart (i + 1) ↔ k < t.tokensPerRank ∧
    start batch.queryLens i ≤ t.localStart + k ∧ t.localStart + k < start batch.queryLens (i + 1)
  causal : ∀ i < batch.numReqs, ∀ j p, t.queryStart i + j < t.queryStart (i + 1) →
    t.localStart + (t.queryStart i + j) = start batch.queryLens i + p →
      t.localSeqLens.getD i 0 - (t.queryStart (i + 1) - t.queryStart i) + j + 1 =
        batch.seqLens.getD i 0 - batch.queryLens.getD i 0 + p + 1
  silent : ∀ i < batch.numReqs, t.queryStart i = t.queryStart (i + 1) → t.localSeqLens.getD i 0 = 0

theorem Splits.of_lists {t : LocalTokens} {batch : Batch} (hend : t.localEnd = t.localStart + t.tokensPerRank)
    (hqueries : t.localQueryStartLoc = 0 :: cumsum (batch.localQueryLens t.localStart t.localEnd))
    (hseqs : t.localSeqLens = batch.localSeqLens t.localStart t.localEnd) : t.Splits batch := by
  have hstart : ∀ i ≤ batch.numReqs, t.queryStart i =
      clamp t.localStart t.localEnd (start batch.queryLens i) - t.localStart := by
    intro i hi
    rw [queryStart, hqueries, getD_zero_cons_cumsum (by simpa), Batch.start_localQueryLens (by omega) hi]
  constructor
  case lengths => simp [hqueries, hseqs, length_cumsum]
  case delimits =>
    intro i hi k
    rw [hstart i hi.le, hstart (i + 1) hi, hend, start_succ]
    simp only [clamp]
    omega
  case causal =>
    intro i hi j p hj hp
    rw [hstart i hi.le] at hp
    rw [hseqs, Batch.getD_localSeqLens hi, Batch.getD_localQueryLens hi]
    rw [hstart i hi.le, hstart (i + 1) hi, start_succ] at hj ⊢
    split <;> simp only [clamp] at * <;> omega
  case silent =>
    intro i hi hnone
    rw [hstart i hi.le, hstart (i + 1) hi] at hnone
    rw [hseqs, Batch.getD_localSeqLens hi, Batch.getD_localQueryLens hi, if_neg]
    simp only [clamp] at *
    omega

end LocalTokens

namespace Batch

variable (batch : Batch) {tpSize : Nat} (maxNumSeqs : Option { size // batch.numReqs ≤ size })

theorem splits_buildLocalTokenMetadata (rank : Nat) :
    (batch.buildLocalTokenMetadata maxNumSeqs tpSize rank).Splits batch := by
  apply LocalTokens.Splits.of_lists rfl
  · cases maxNumSeqs <;> simp [buildLocalTokenMetadata, refill, take_of_length_le, length_cumsum]
  · cases maxNumSeqs <;> simp [buildLocalTokenMetadata, refill, take_of_length_le]

/-! ## The compressed rows -/

def compressedRows (r : Nat) : Nat :=
  (batch.requests.map fun request => request.seqLen / r - (request.seqLen - request.queryLen) / r).sum

theorem compressedRows_le {r : Nat} (hr : 1 < r) : batch.compressedRows r ≤ batch.numCompressorMetadataRows r := by
  have hrow : ∀ request : Request, request.seqLen / r - (request.seqLen - request.queryLen) / r ≤
      min request.queryLen (request.queryLen / r + 1) := by
    intro request
    have hsplit := @Nat.add_div (request.seqLen - request.queryLen) request.queryLen r (Nat.zero_lt_of_lt hr)
    rw [Nat.sub_add_cancel request.le] at hsplit
    rcases Nat.eq_zero_or_pos request.queryLen with hzero | hquery
    · simp [hzero]
    · have hlt := Nat.div_lt_self hquery hr
      rw [hsplit, Nat.add_assoc, Nat.add_sub_cancel_left, Nat.le_min]
      split <;> exact ⟨by omega, by omega⟩
  unfold compressedRows numCompressorMetadataRows numActualTokens queryLens numReqs
  induction batch.requests with
  | nil => simp
  | cons request requests ih =>
    have hfirst := hrow request
    have hsum := @Nat.div_add_div_le_add_div request.queryLen (requests.map (·.queryLen)).sum r
    simp only [map_cons, sum_cons, length_cons]
    rw [Nat.le_min] at ih hfirst ⊢
    omega

/-- Every query token is in the slice of one rank, the slices keep the causal lengths, and there are rows for
everything the batch compresses. -/
theorem slices_keep_causality (hpos : 0 < tpSize) :
    let slice := batch.buildLocalTokenMetadata maxNumSeqs tpSize
    (∀ t < batch.numActualTokens, ∃! rank, rank < tpSize ∧ (slice rank).localStart ≤ t ∧ t < (slice rank).localEnd) ∧
      (∀ rank < tpSize, (slice rank).Splits batch) ∧
      ∀ r > 1, batch.compressedRows r ≤ batch.numCompressorMetadataRows r := by
  refine ⟨fun t ht => ?_, fun rank _ => splits_buildLocalTokenMetadata .., fun r => batch.compressedRows_le⟩
  have hlt : t < tpSize * ((batch.numInputTokens + tpSize - 1) / tpSize) := by
    have hmod := Nat.mod_lt (batch.numInputTokens + tpSize - 1) hpos
    have hdiv := Nat.div_add_mod (batch.numInputTokens + tpSize - 1) tpSize
    have hfits := ht.trans_le batch.fits
    omega
  unfold buildLocalTokenMetadata
  dsimp only
  rw [Nat.mul_div_cancel _ hpos]
  generalize (batch.numInputTokens + tpSize - 1) / tpSize = n at hlt
  refine ⟨t / n, ⟨Nat.div_lt_of_lt_mul (Nat.mul_comm _ n ▸ hlt), Nat.div_mul_le_self t n, ?_⟩, ?_⟩
  · exact Nat.lt_div_mul_add (Nat.pos_of_mul_pos_left (Nat.zero_lt_of_lt hlt))
  · rintro rank ⟨-, hstart, hend⟩
    exact (Nat.div_eq_of_lt_le hstart (Nat.succ_mul rank n ▸ hend)).symm

def twoRequests : Batch where
  requests := [⟨3, 5, by decide⟩, ⟨4, 4, by decide⟩]
  numInputTokens := 8
  fits := by decide

theorem slices_keep_causality_twoRequests :
    (twoRequests.buildLocalTokenMetadata none 2 0).localQueryStartLoc = [0, 3, 4] ∧
      (twoRequests.buildLocalTokenMetadata none 2 0).localSeqLens = [5, 1] ∧
        (twoRequests.buildLocalTokenMetadata none 2 0).Splits twoRequests :=
  ⟨by decide, by decide, (twoRequests.slices_keep_causality none (by decide)).2.1 0 (by decide)⟩

end Batch

end VllmAscend.Attention.DsaCp
