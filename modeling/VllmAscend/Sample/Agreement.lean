import VllmAscend.Lib.Flat
import VllmAscend.Sample.Vectorised

/-!
# Both samplers write the same output

Every cell of the grid that is not masked out reads the token of its own request, and the first
rejection that the masks find is where the loop of the kernel stops.
-/

namespace VllmAscend.Sample.Batch

open List Option Bool Tensor Ragged

variable {batch : Batch}

variable {b p : Nat}

section

variable (hb : b < batch.batchSize)

include hb

theorem getD_cuNumDraftTokens : batch.cuNumDraftTokens.getD b 0 = batch.start b + batch.numDrafts b := by
  rw [getD_eq_getElem?_getD, getElem?_cuNumDraftTokens hb]
  rfl

theorem startIndices_eq : batch.startIndices b = batch.start b := by
  rw [startIndices, getD_cuNumDraftTokens hb, Nat.add_sub_cancel]

theorem cuStart_eq : batch.cuStart b = batch.start b := by
  unfold cuStart
  cases b with
  | zero => rfl
  | succ b =>
    rw [getD_cuNumDraftTokens (by omega)]
    exact (start_succ batch.numDraftTokens b).symm

theorem numDraftPerBatch_eq : batch.numDraftPerBatch b = batch.numDrafts b := by
  rw [numDraftPerBatch, getD_cuNumDraftTokens hb, cuStart_eq hb, Nat.add_sub_cancel_left]

end

theorem globalTokenIndices_lt (batch : Batch) (b p : Nat) : batch.globalTokenIndices b p < batch.numTokens := by
  have hpos : 0 < batch.numTokens := batch.tokens_pos
  unfold globalTokenIndices
  omega

theorem globalTokenIndices_eq (hb : b < batch.batchSize) (hp : p < batch.numDrafts b) :
    batch.globalTokenIndices b p = batch.start b + p := by
  have hlt := start_add_lt hp
  rw [globalTokenIndices, cuStart_eq hb]
  omega

/-! ## The grid -/

/-- What the grid holds in a cell. The probabilities of a placeholder are those of some token. -/
structure Cells.Reads (batch : Batch) (cells : Cells) : Prop where
  draft : ∀ b p, cells.draftTokens b p = batch.draftToken (batch.globalTokenIndices b p)
  recovered : ∀ b p, cells.recoveredTokens b p = batch.recoveredToken (batch.globalTokenIndices b p)
  uniform : ∀ b p, cells.uniformTokenProbs b p = batch.uniformProb (batch.globalTokenIndices b p)
  draftProb : ∀ b p, cells.placeholderMask b p = false →
    cells.draftTokenProbs b p = batch.draftProb (batch.globalTokenIndices b p)
  targetProb : ∀ b p, cells.placeholderMask b p = false →
    cells.targetTokenProbs b p = batch.targetProb (batch.globalTokenIndices b p)
  draftPos : batch.DraftProbsPos → ∀ b p, 0 < cells.draftTokenProbs b p
  targetNonneg : ∀ b p, 0 ≤ cells.targetTokenProbs b p

def safeDraftToken (batch : Batch) (b p : Nat) : Int :=
  if batch.draftToken (batch.globalTokenIndices b p) == placeholderTokenId then 0
  else batch.draftToken (batch.globalTokenIndices b p)

theorem safeDraftToken_lt (hvocab : batch.targetIndices = none ∨ batch.draftProbs.isSome = true) (b p : Nat) :
    0 ≤ batch.safeDraftToken b p ∧ (batch.safeDraftToken b p).toNat < batch.globalVocabSize := by
  unfold safeDraftToken
  split
  next => exact ⟨le_refl _, batch.vocab_pos⟩
  next hne =>
    have hmem := draftToken_mem (batch.globalTokenIndices_lt b p)
    obtain ⟨hnonneg, hlt⟩ := (batch.draft_ids _ hmem).resolve_left fun h => hne (beq_iff_eq.mpr h)
    exact ⟨hnonneg, hlt hvocab⟩

theorem safeDraftToken_eq (h : batch.isPlaceholder (batch.globalTokenIndices b p) = false) :
    batch.safeDraftToken b p = batch.draftToken (batch.globalTokenIndices b p) :=
  if_neg (by simpa [isPlaceholder] using h)

theorem globalTokenIndices_lt_length {α : Type*} {values : List α} (h : values.length = batch.numTokens)
    (b p : Nat) : batch.globalTokenIndices b p < values.length :=
  h.symm ▸ batch.globalTokenIndices_lt b p

theorem gatherCell_eq_some {table : List (List Rat)} (hlen : table.length = batch.numTokens)
    (hrows : ∀ row ∈ table, row.length = batch.globalVocabSize)
    (hvocab : batch.targetIndices = none ∨ batch.draftProbs.isSome = true) :
    gatherCell batch.batchSize batch.maxSpecLen table 0 batch.globalTokenIndices batch.safeDraftToken =
      some fun b p => (table.getD (batch.globalTokenIndices b p) []).getD (batch.safeDraftToken b p).toNat 0 := by
  refine gatherCell_eq 0 fun b _ p _ => ?_
  have hrow := globalTokenIndices_lt_length hlen b p
  refine ⟨hrow, ?_⟩
  rw [hrows _ (getD_mem hrow _)]
  exact safeDraftToken_lt hvocab b p

theorem gatherDraftProbs_eq (batch : Batch) : ∃ probs, batch.gatherDraftProbs batch.safeDraftToken = some probs ∧
    (∀ b p, batch.isPlaceholder (batch.globalTokenIndices b p) = false →
      probs b p = batch.draftProb (batch.globalTokenIndices b p)) ∧ (batch.DraftProbsPos → ∀ b p, 0 < probs b p) := by
  unfold gatherDraftProbs draftProb
  cases hprobs : batch.draftProbs with
  | none => exact ⟨_, rfl, fun _ _ _ => rfl, fun _ _ _ => zero_lt_one⟩
  | some probs =>
    obtain ⟨hlen, hrows⟩ := batch.draft_rows probs hprobs
    have hvocab : batch.targetIndices = none ∨ batch.draftProbs.isSome = true := .inr (by rw [hprobs]; rfl)
    refine ⟨_, gatherCell_eq_some hlen hrows hvocab, fun b p hnot => ?_, fun hpos b p => ?_⟩
    · rw [safeDraftToken_eq hnot]
    · have hrow := globalTokenIndices_lt_length hlen b p
      have hmem := getD_mem hrow []
      refine hpos probs hprobs _ hmem _ (getD_mem ?_ 0)
      rw [hrows _ hmem]
      exact (safeDraftToken_lt hvocab b p).2

theorem getD_targetProbs_nonneg_mem (t : Nat) : ∀ prob ∈ batch.targetProbs.getD t [], 0 ≤ prob :=
  getD_of_forall_mem (P := fun row => ∀ prob ∈ row, 0 ≤ prob) (by simp) (fun row hrow => (batch.target_row row hrow).2) t

theorem getD_targetProbs_nonneg (t column : Nat) : 0 ≤ (batch.targetProbs.getD t []).getD column 0 :=
  getD_of_forall_mem (P := (0 ≤ ·)) le_rfl (getD_targetProbs_nonneg_mem t) column

theorem sum_candidates_nonneg (row : List Int) (id : Int) (t : Nat) :
    0 ≤ ((row.zip (batch.targetProbs.getD t [])).map fun candidate =>
      if candidate.1 = id then candidate.2 else 0).sum := by
  refine sum_nonneg (forall_mem_map.mpr fun candidate hmem => ?_)
  split
  next => exact getD_targetProbs_nonneg_mem t _ (of_mem_zip hmem).2
  next => exact le_refl _

theorem gatherTargetProbs_eq (batch : Batch) : ∃ probs, batch.gatherTargetProbs
      (fun b p => batch.draftToken (batch.globalTokenIndices b p)) batch.safeDraftToken = some probs ∧
    (∀ b p, batch.isPlaceholder (batch.globalTokenIndices b p) = false →
      probs b p = batch.targetProb (batch.globalTokenIndices b p)) ∧ ∀ b p, 0 ≤ probs b p := by
  unfold gatherTargetProbs targetProb
  cases hindices : batch.targetIndices with
  | none =>
    have hrows : ∀ row ∈ batch.targetProbs, row.length = batch.globalVocabSize := fun row hrow =>
      (batch.target_row row hrow).1.trans (batch.vocab_full hindices)
    refine ⟨_, gatherCell_eq_some batch.target_len hrows (.inl hindices), fun b p hnot => ?_,
      fun b p => getD_targetProbs_nonneg _ _⟩
    rw [safeDraftToken_eq hnot]
  | some indices =>
    have hlen := (batch.index_rows indices hindices).1
    dsimp only
    rw [gather_eq [] fun b _ p _ => globalTokenIndices_lt_length hlen b p,
      gather_eq [] fun b _ p _ => globalTokenIndices_lt_length batch.target_len b p]
    exact ⟨_, rfl, fun _ _ _ => rfl, fun b p => sum_candidates_nonneg _ _ _⟩

theorem gatherCells_eq (batch : Batch) : ∃ cells, batch.gatherCells = some cells ∧ cells.Reads batch := by
  obtain ⟨draftTokenProbs, hdraft, hdraftProb, hdraftPos⟩ := batch.gatherDraftProbs_eq
  obtain ⟨targetTokenProbs, htarget, htargetProb, htargetNonneg⟩ := batch.gatherTargetProbs_eq
  unfold gatherCells
  rw [gather_eq 0 fun b _ p _ => globalTokenIndices_lt_length batch.draft_len b p,
    gather_eq 0 fun b _ p _ => globalTokenIndices_lt_length batch.uniform_len b p,
    gather_eq 0 fun b _ p _ => globalTokenIndices_lt_length batch.recovered_len b p]
  change ∃ cells, ((batch.gatherDraftProbs batch.safeDraftToken).bind fun draftTokenProbs =>
    (batch.gatherTargetProbs (fun b p => batch.draftToken (batch.globalTokenIndices b p))
      batch.safeDraftToken).bind _) = some cells ∧ _
  rw [hdraft, htarget]
  exact ⟨_, rfl, fun _ _ => rfl, fun _ _ => rfl, fun _ _ => rfl, hdraftProb, htargetProb, hdraftPos, htargetNonneg⟩

/-! ## Random requests -/

theorem Cells.Reads.acceptanceCondition_eq {cells : Cells} (h : cells.Reads batch) (b p : Nat) :
    cells.acceptanceCondition b p = batch.acceptsRandom (batch.globalTokenIndices b p) := by
  have hmask : cells.placeholderMask b p = batch.isPlaceholder (batch.globalTokenIndices b p) := by
    rw [Cells.placeholderMask, h.draft]
    rfl
  unfold Cells.acceptanceCondition acceptsRandom
  cases hplaceholder : batch.isPlaceholder (batch.globalTokenIndices b p) with
  | true =>
    rw [hmask, hplaceholder]
    simp
  | false =>
    rw [hplaceholder] at hmask
    rw [hmask, h.draftProb b p hmask, h.targetProb b p hmask, h.uniform b p]
    simp

section Random

variable {cells : Cells} (h : cells.Reads batch) {b : Nat} (hb : b < batch.batchSize)

include h hb

theorem firstRejection_eq {p : Nat} : batch.firstRejection cells b p =
    (decide (p < batch.numDrafts b) && !batch.acceptsRandom (batch.start b + p)) := by
  unfold firstRejection validMask
  rw [h.acceptanceCondition_eq, numDraftPerBatch_eq hb]
  by_cases hp : p < batch.numDrafts b
  · rw [globalTokenIndices_eq hb hp, Bool.and_comm]
  · simp [hp]

section

variable (hgreedy : batch.greedy b = false)

include hgreedy

theorem firstFailure_firstRejection :
    firstFailure batch.maxSpecLen (fun p => !batch.firstRejection cells b p) =
      if batch.numAccepted b < batch.numDrafts b then batch.numAccepted b else batch.maxSpecLen := by
  have hle := batch.numAccepted_le b
  have hmax := batch.numDrafts_le b
  rw [numAccepted_of_random hgreedy] at hle ⊢
  have hbefore : ∀ p < firstFailure (batch.numDrafts b) (fun i => batch.acceptsRandom (batch.start b + i)),
      batch.firstRejection cells b p = false := by
    intro p hp
    have hok := ok_of_lt_firstFailure hp
    rw [firstRejection_eq h hb, hok]
    simp
  refine firstFailure_eq_iff.mpr ?_
  split
  next hlt =>
    refine ⟨by omega, fun p hp => by rw [hbefore p hp]; rfl, fun _ => ?_⟩
    have hfail := not_ok_firstFailure hlt
    rw [firstRejection_eq h hb, hfail, decide_eq_true hlt]
    rfl
  next hge =>
    refine ⟨le_refl _, fun p _ => ?_, fun hlt => absurd hlt (lt_irrefl _)⟩
    by_cases hp : p < batch.numDrafts b
    · rw [hbefore p (by omega)]
      rfl
    · rw [firstRejection_eq h hb, decide_eq_false hp]
      rfl

theorem firstRejectPos_eq : batch.firstRejectPos cells b =
    some (if batch.numAccepted b < batch.numDrafts b then batch.numAccepted b else batch.maxSpecLen) := by
  rw [← firstFailure_firstRejection h hb hgreedy, firstRejectPos, argmaxTrue_eq batch.maxSpecLen_pos, map_some]
  have hle := firstFailure_le batch.maxSpecLen fun p => !batch.firstRejection cells b p
  have hany : (range batch.maxSpecLen).any (batch.firstRejection cells b) = true ↔
      firstFailure batch.maxSpecLen (fun p => !batch.firstRejection cells b p) < batch.maxSpecLen := any_iff_firstFailure
  congr 1
  split
  next hsome => rw [if_pos (hany.mp hsome)]
  next hnone =>
    have hnot := mt hany.mpr hnone
    omega

theorem selectTokens_of_random {firstRejectPos : Nat → Nat} {output : Nat → Nat → Int}
    (hfirst : batch.firstRejectPos cells b = some (firstRejectPos b))
    (houtput : ∀ c, output b c = placeholderTokenId) (c : Nat) :
    batch.selectTokens cells firstRejectPos output b c = batch.sampledCell b c := by
  have hle := batch.numAccepted_le b
  have hmax := batch.numDrafts_le b
  rw [firstRejectPos_eq h hb hgreedy] at hfirst
  have haccepts : ∀ i < batch.numAccepted b, batch.acceptsRandom (batch.start b + i) = true := by
    intro i hi
    rw [numAccepted_of_random hgreedy] at hi
    have hok := ok_of_lt_firstFailure hi
    exact hok
  unfold selectTokens validMask sampledCell
  simp only [numDraftPerBatch_eq hb, hgreedy, houtput, h.acceptanceCondition_eq, h.draft, h.recovered,
    replacement_of_random hgreedy]
  by_cases hc : c < batch.numDrafts b
  · rw [globalTokenIndices_eq hb hc]
    rcases Nat.lt_trichotomy c (batch.numAccepted b) with hlt | heq | hgt <;> (split <;> grind)
  · split <;> grind

end

end Random

/-! ## Greedy requests -/

theorem lt_batchSize_of_lt_numDrafts (hp : p < batch.numDrafts b) : b < batch.batchSize :=
  lt_length_of_lt_getD hp

theorem getElem?_tokenPlaces (hp : p < batch.numDrafts b) : batch.tokenPlaces[batch.start b + p]? = some (b, p) := by
  have hb := lt_batchSize_of_lt_numDrafts hp
  have hreq : (repeats (range batch.batchSize) batch.numDraftTokens).getD (batch.start b + p) 0 = b := by
    rw [getD_eq_getElem?_getD, batchSize, repeats_range rfl]
    exact congrArg (·.getD 0) (getElem?_flat hp)
  unfold tokenPlaces
  rw [getElem?_map, getElem?_range (start_add_lt hp), map_some, hreq, startIndices_eq hb, Nat.add_sub_cancel_left]

theorem scatter_tokenPlaces {α : Type*} (batch : Batch) (entries : List ((Nat × Nat) × α)) (value : Nat → Nat → α)
    (hlen : entries.length = batch.numTokens)
    (hentries : ∀ b p, p < batch.numDrafts b → entries[batch.start b + p]? = some ((b, p), value b p)) (d : α) :
    ∃ tensor, scatter batch.batchSize batch.maxSpecLen entries (fun _ _ => d) = some tensor ∧
      ∀ b p, tensor b p = if p < batch.numDrafts b then value b p else d := by
  have hmem : ∀ entry ∈ entries, ∃ b p, p < batch.numDrafts b ∧ entry = ((b, p), value b p) := by
    intro entry hentry
    obtain ⟨t, ht, rfl⟩ := mem_iff_getElem.mp hentry
    obtain ⟨b, p, hp, hrow⟩ := exists_row (ht.trans_eq hlen : t < batch.numDraftTokens.sum)
    have hget := hentries b p hp
    refine ⟨b, p, hp, some_inj.mp ?_⟩
    rw [← hget, ← getElem?_eq_getElem ht, hrow]
    rfl
  refine ⟨_, scatter_eq (fun entry hentry => ?_) _, fun b p => ?_⟩
  · obtain ⟨b, p, hp, rfl⟩ := hmem entry hentry
    exact ⟨lt_batchSize_of_lt_numDrafts hp, hp.trans_le (batch.numDrafts_le b)⟩
  · split
    next hp =>
      refine foldl_scatter_of_mem (fun entry hentry heq => ?_) ⟨_, mem_of_getElem? (hentries b p hp), rfl⟩ _
      obtain ⟨b', p', _, rfl⟩ := hmem entry hentry
      cases heq
      rfl
    next hp =>
      refine foldl_scatter_of_not_mem (fun entry hentry heq => hp ?_) _
      obtain ⟨b', p', hp', rfl⟩ := hmem entry hentry
      cases heq
      exact hp'

theorem firstMismatchPosPerReq_eq (batch : Batch) : ∃ first, batch.firstMismatchPosPerReq = some first ∧
    ∀ b, first b = (firstFailure (batch.numDrafts b) fun i => batch.acceptsGreedy (batch.start b + i) : Nat) := by
  have hlen : batch.tokenPlaces.length = batch.numTokens := by simp [tokenPlaces]
  obtain ⟨posMatrix, hpos, hposAt⟩ := scatter_tokenPlaces batch
    (batch.tokenPlaces.map fun place => (place, (place.2 : Int))) (fun _ p => (p : Int))
    (by rw [length_map, hlen]) (fun b p hp => by rw [getElem?_map, getElem?_tokenPlaces hp]; rfl) (-1)
  obtain ⟨mismatchMatrix, hmismatch, hmismatchAt⟩ := scatter_tokenPlaces batch
    (batch.tokenPlaces.zip ((range batch.numTokens).map fun t => batch.draftToken t != batch.argmaxToken t))
    (fun b p => !batch.acceptsGreedy (batch.start b + p)) (by simp [hlen])
    (fun b p hp => by
      refine getElem?_zip_eq_some.mpr ⟨getElem?_tokenPlaces hp, ?_⟩
      rw [getElem?_map, getElem?_range (start_add_lt hp)]
      rfl) false
  rw [firstMismatchPosPerReq, if_neg (Nat.ne_of_gt batch.maxSpecLen_pos)]
  simp only [hpos, hmismatch, bind_eq_bind, bind_some, Option.pure_def]
  refine ⟨_, rfl, fun b => ?_⟩
  have hle := firstFailure_le (batch.numDrafts b) fun i => batch.acceptsGreedy (batch.start b + i)
  have hmax := batch.numDrafts_le b
  have hposition : ∀ p, (if mismatchMatrix b p then posMatrix b p else ((batch.maxSpecLen * 2 : Nat) : Int)) =
      if p < batch.numDrafts b ∧ batch.acceptsGreedy (batch.start b + p) = false then (p : Int)
      else ((batch.maxSpecLen * 2 : Nat) : Int) := by
    intro p
    rw [hmismatchAt, hposAt]
    by_cases hp : p < batch.numDrafts b <;> simp [hp]
  simp only [hposition]
  rw [min?_positions (fun p => batch.acceptsGreedy (batch.start b + p)) hmax batch.maxSpecLen_pos (by omega),
    getD_some]
  split <;> split at * <;> omega

theorem greedyFlag_eq (hb : b < batch.batchSize) : greedyFlag batch.greedyFlags b = batch.greedy b := by
  unfold greedyFlag greedyFlags
  cases hall : batch.allGreedy with
  | true => exact (greedy_eq_of_allGreedy hb hall).symm
  | false => rfl

theorem rejectionGreedySamplePytorch_eq (batch : Batch) (old : Nat → Nat → Int) :
    ∃ output, batch.rejectionGreedySamplePytorch batch.greedyFlags old = some output ∧
      ∀ b < batch.batchSize, ∀ c, (batch.greedy b = true → old b c = placeholderTokenId) →
        output b c = if batch.greedy b then batch.sampledCell b c else old b c := by
  obtain ⟨first, hfirst, hfirstAt⟩ := batch.firstMismatchPosPerReq_eq
  unfold rejectionGreedySamplePytorch
  rw [hfirst, bind_eq_bind, bind_some]
  dsimp only
  rw [assignMasked_eq 0 fun b hb c hc hmask => ?_]
  · refine ⟨_, rfl, fun b hb c hold => ?_⟩
    simp only [greedyFlag_eq hb, startIndices_eq hb, hfirstAt]
    cases hgreedy : batch.greedy b with
    | false => simp
    | true =>
      rw [← greedyCell_eq ((greedyMask_eq hb).trans hgreedy) hgreedy c, greedyCell,
        if_pos ((greedyMask_eq hb).trans hgreedy), laneCell]
      have hle := firstFailure_le (batch.numDrafts b) fun i => batch.acceptsGreedy (batch.start b + i)
      simp only [Bool.true_and, Bool.and_true, and_eq_true, decide_eq_true_eq, beq_iff_eq, argmaxToken]
      grind
  · have hcopy := (and_eq_true_iff.mp hmask).1
    rw [startIndices_eq hb, batch.argmax_len]
    refine start_add_lt ?_
    have := of_decide_eq_true hcopy
    omega

theorem rejectionGreedySampleSpecLen1Pytorch_eq (hone : ∀ n ∈ batch.numDraftTokens, n = 1)
    (hall : batch.allGreedy = true) :
    ∃ output, batch.rejectionGreedySampleSpecLen1Pytorch (fun _ _ => placeholderTokenId) = some output ∧
      ∀ b < batch.batchSize, ∀ c, output b c = batch.sampledCell b c := by
  have hsize : batch.batchSize = batch.numTokens := by
    have hstart := start_of_all_one hone (le_refl _)
    rw [start_of_length_le (le_refl _)] at hstart
    exact hstart.symm
  rw [rejectionGreedySampleSpecLen1Pytorch, if_pos hsize]
  refine ⟨_, rfl, fun b hb c => ?_⟩
  rw [← specLen1Cell_eq hb hone (greedy_eq_of_allGreedy hb hall), specLen1Cell, laneCell]
  unfold acceptsGreedy
  grind

/-! ## The sampler -/

variable (batch)

theorem rejectionRandomSamplePytorch_eq (old : Nat → Nat → Int) :
    ∃ output, batch.rejectionRandomSamplePytorch old = some output ∧
      ∀ b < batch.batchSize, (batch.greedy b = false → ∀ c, old b c = placeholderTokenId) →
        ∀ c, output b c = if batch.greedy b then old b c else batch.sampledCell b c := by
  obtain ⟨cells, hcells, hreads⟩ := batch.gatherCells_eq
  have hpositions : (range batch.batchSize).mapM (batch.firstRejectPos cells) =
      some ((range batch.batchSize).map fun b => (batch.firstRejectPos cells b).getD 0) := by
    refine Loop.mapM_eq_map fun b _ => ?_
    rw [firstRejectPos, argmaxTrue_eq batch.maxSpecLen_pos]
    rfl
  unfold rejectionRandomSamplePytorch
  rw [hcells, bind_eq_bind, bind_some, hpositions, bind_eq_bind]
  refine ⟨_, rfl, fun b hb hold c => ?_⟩
  cases hgreedy : batch.greedy b with
  | true => simp [selectTokens, hgreedy]
  | false =>
    refine selectTokens_of_random hreads hb hgreedy ?_ (hold hgreedy) c
    rw [getD_map_range hb, firstRejectPos_eq hreads hb hgreedy]
    rfl

theorem rejectionGreedySampleStage_eq :
    ∃ output, batch.rejectionGreedySampleStage = some output ∧ ∀ b < batch.batchSize, ∀ c, output b c =
      if batch.greedy b then batch.sampledCell b c else placeholderTokenId := by
  unfold rejectionGreedySampleStage
  split
  next hrandom =>
    refine ⟨_, rfl, fun b hb c => ?_⟩
    rw [greedy_eq_of_allRandom hb hrandom, if_neg Bool.false_ne_true]
  next =>
    split
    next hspec =>
      obtain ⟨hone, hall⟩ := and_eq_true_iff.mp hspec
      have hone : ∀ n ∈ batch.numDraftTokens, n = 1 := fun n hn => eq_of_beq (all_eq_true.mp hone n hn)
      obtain ⟨output, houtput, hcells⟩ := rejectionGreedySampleSpecLen1Pytorch_eq hone hall
      refine ⟨output, houtput, fun b hb c => ?_⟩
      rw [hcells b hb, greedy_eq_of_allGreedy hb hall, if_pos rfl]
    next =>
      obtain ⟨output, houtput, hcells⟩ := batch.rejectionGreedySamplePytorch_eq fun _ _ => placeholderTokenId
      exact ⟨output, houtput, fun b hb c => hcells b hb c fun _ => rfl⟩

theorem rejectionSamplePytorch_eq : batch.rejectionSamplePytorch = some batch.sampled := by
  obtain ⟨output, houtput, hcells⟩ := batch.rejectionGreedySampleStage_eq
  rw [rejectionSamplePytorch, houtput, bind_some]
  split
  next hall =>
    refine congrArg some (eq_sampled fun b hb c _ => ?_)
    rw [hcells b hb, greedy_eq_of_allGreedy hb hall, if_pos rfl]
  next =>
    obtain ⟨sampled, hsampled, hsampledAt⟩ := batch.rejectionRandomSamplePytorch_eq output
    rw [hsampled]
    refine congrArg some (eq_sampled fun b hb c _ => ?_)
    rw [hsampledAt b hb fun hrandom c => by rw [hcells b hb, hrandom, if_neg Bool.false_ne_true], hcells b hb]
    cases batch.greedy b <;> rfl

/-- Neither sampler changes a row of the other, whatever it holds. -/
def PytorchRowsApart : Prop :=
  ∀ old : Nat → Nat → Int, ∃ afterGreedy afterRandom,
    batch.rejectionGreedySamplePytorch batch.greedyFlags old = some afterGreedy ∧
    batch.rejectionRandomSamplePytorch old = some afterRandom ∧
    ∀ b < batch.batchSize, ∀ c, (batch.greedy b = false → afterGreedy b c = old b c) ∧
      (batch.greedy b = true → afterRandom b c = old b c)

theorem pytorchRowsApart : batch.PytorchRowsApart := by
  intro old
  obtain ⟨afterGreedy, hafterGreedy, hgreedyAt⟩ := batch.rejectionGreedySamplePytorch_eq old
  obtain ⟨afterRandom, hafterRandom, hrandomAt⟩ := batch.rejectionRandomSamplePytorch_eq old
  refine ⟨afterGreedy, afterRandom, hafterGreedy, hafterRandom, fun b hb c => ⟨fun hrandom => ?_, fun hgreedy => ?_⟩⟩
  · rw [hgreedyAt b hb c fun h => ?_, hrandom, if_neg Bool.false_ne_true]
    rw [hrandom] at h
    cases h
  · rw [hrandomAt b hb fun h => ?_, hgreedy, if_pos rfl]
    rw [hgreedy] at h
    cases h

/-- Both samplers write the accepted drafts of a request, the token after them and placeholders, and
the greedy and the random part keep to their own rows. -/
theorem samplers_agree (device : Device) (hfill : device.fill ≤ 0)
    {greedyOrder randomOrder : List Nat}
    (hgreedyOrder : greedyOrder.Perm (range (device.calGridAndBlockSize batch.batchSize).1))
    (hrandomOrder : randomOrder.Perm (range (device.calGridAndBlockSize batch.batchSize).1)) :
    batch.rejectionSampleTriton device greedyOrder randomOrder = batch.sampled ∧
      batch.rejectionSamplePytorch = some batch.sampled ∧
      batch.TritonRowsApart device greedyOrder randomOrder ∧ batch.PytorchRowsApart :=
  ⟨rejectionSampleTriton_eq hfill hgreedyOrder hrandomOrder, batch.rejectionSamplePytorch_eq,
    tritonRowsApart hfill hgreedyOrder hrandomOrder, batch.pytorchRowsApart⟩

def mixedBatch : Batch where
  numDraftTokens := [1, 2, 0]
  maxSpecLen := 2
  draftTokenIds := [1, 0, placeholderTokenId]
  draftProbs := some [[1 / 2, 1 / 2], [1 / 2, 1 / 2], [1 / 2, 1 / 2]]
  targetProbs := [[1, 0], [1, 0], [1, 0]]
  targetIndices := none
  vocabSize := 2
  globalVocabSize := 2
  targetArgmax := [1, 0, 0]
  bonusTokenIds := [1, 1, 0]
  recoveredTokenIds := [0, 0, 1]
  uniformProbs := [0, 1 / 2, 1 / 2]
  isGreedy := [true, false, false]
  drafts_le := by decide
  max_mem := by decide
  tokens_pos := by decide
  draft_len := rfl
  argmax_len := rfl
  recovered_len := rfl
  uniform_len := rfl
  bonus_len := rfl
  greedy_len := rfl
  target_len := rfl
  target_row := by decide
  draft_rows := by decide
  index_rows := fun _ h => by cases h
  vocab_pos := Nat.two_pos
  vocab_full := fun _ => rfl
  draft_ids := by decide

theorem samplers_agree_mixedBatch :
    mixedBatch.rejectionSampleTriton ⟨2, 0, by decide⟩ [1, 0] [0, 1] = mixedBatch.sampled ∧
      mixedBatch.rejectionSamplePytorch = some mixedBatch.sampled ∧
      mixedBatch.sampled = [[1, 1, -1], [0, 1, -1], [0, -1, -1]] := by
  have hagree := samplers_agree mixedBatch ⟨2, 0, by decide⟩ (le_refl 0)
    (show [1, 0].Perm [0, 1] by decide) (.refl [0, 1])
  exact ⟨hagree.1, hagree.2.1, by decide +kernel⟩

end VllmAscend.Sample.Batch
