import VllmAscend.Sample.Kernels

/-!
# What the kernels write

The greedy launch fills the rows of the greedy requests and the random launch those of the others.
-/

namespace VllmAscend.Sample.Batch

open List Nat RoundRobin

variable {batch : Batch}

/-! ## Rows -/

def sampledCell (batch : Batch) (b c : Nat) : Int :=
  if c < batch.numAccepted b then batch.draftToken (batch.start b + c)
  else if c = batch.numAccepted b then
    if c < batch.numDrafts b then batch.replacement b (batch.start b + c) else batch.bonusToken b
  else placeholderTokenId

theorem eq_sampled {output : Nat → Nat → Int}
    (h : ∀ b < batch.batchSize, ∀ c ≤ batch.maxSpecLen, output b c = batch.sampledCell b c) :
    ((range batch.batchSize).map fun b => (range batch.rowSize).map fun c => output b c) = batch.sampled := by
  refine map_congr_left fun b hb => ext_getElem? fun c => ?_
  rw [getElem?_map]
  by_cases hc : c < batch.rowSize
  · rw [getElem?_range hc, getElem?_sampledRow (le_of_lt_succ hc), Option.map_some,
      h b (mem_range.mp hb) c (le_of_lt_succ hc)]
    rfl
  · have hlen : (batch.sampledRow b).length ≤ c := by
      rw [length_sampledRow]
      exact Nat.le_of_not_lt hc
    rw [getElem?_eq_none (by simpa using hc), getElem?_eq_none hlen]
    rfl

variable {b : Nat}

theorem numAccepted_of_greedy (h : batch.greedy b = true) : batch.numAccepted b =
    firstFailure (batch.numDrafts b) fun i => batch.acceptsGreedy (batch.start b + i) := by
  unfold numAccepted accepts
  rw [h]
  rfl

theorem numAccepted_of_random (h : batch.greedy b = false) : batch.numAccepted b =
    firstFailure (batch.numDrafts b) fun i => batch.acceptsRandom (batch.start b + i) := by
  unfold numAccepted accepts
  rw [h]
  rfl

theorem laneCell_eq_sampledCell {token : Nat → Int}
    (haccepted : ∀ i < batch.numAccepted b, token i = batch.draftToken (batch.start b + i))
    (hrejected : batch.numAccepted b < batch.numDrafts b →
      token (batch.numAccepted b) = batch.replacement b (batch.start b + batch.numAccepted b)) (c : Nat) :
    laneCell (batch.numDrafts b) (batch.numAccepted b) token (batch.bonusToken b) c placeholderTokenId =
      batch.sampledCell b c := by
  have hle := batch.numAccepted_le b
  unfold laneCell sampledCell
  rcases lt_trichotomy c (batch.numAccepted b) with hlt | heq | hgt
  · rw [if_pos (by omega), if_pos hlt, haccepted c hlt]
  · rw [if_neg (show ¬ c < batch.numAccepted b by omega), if_pos heq]
    by_cases hn : c < batch.numDrafts b
    · rw [if_pos (by omega), if_pos hn, heq, hrejected (heq ▸ hn)]
    · rw [if_neg (by omega), if_neg hn, if_pos (by omega)]
  · rw [if_neg (by omega), if_neg (by omega), if_neg (by omega), if_neg (by omega)]

theorem greedy_token {i : Nat} (hgreedy : batch.greedy b = true) (hi : i < batch.numAccepted b) :
    batch.argmaxToken (batch.start b + i) = batch.draftToken (batch.start b + i) := by
  rw [numAccepted_of_greedy hgreedy] at hi
  have hok := ok_of_lt_firstFailure hi
  exact (eq_of_beq hok).symm

theorem replacement_of_greedy (h : batch.greedy b = true) (t : Nat) :
    batch.replacement b t = batch.argmaxToken t := by
  rw [replacement, h]
  rfl

theorem replacement_of_random (h : batch.greedy b = false) (t : Nat) :
    batch.replacement b t = batch.recoveredToken t := by
  rw [replacement, h]
  rfl

theorem greedyCell_eq {isGreedy : Option (List Bool)} (hmask : batch.greedyMask isGreedy b = true)
    (hgreedy : batch.greedy b = true) (c : Nat) :
    batch.greedyCell isGreedy b c placeholderTokenId = batch.sampledCell b c := by
  rw [greedyCell, if_pos hmask, ← numAccepted_of_greedy hgreedy]
  refine laneCell_eq_sampledCell (fun i hi => greedy_token hgreedy hi) (fun _ => ?_) c
  rw [replacement_of_greedy hgreedy]

theorem randomCell_eq (hb : b < batch.batchSize) (hgreedy : batch.greedy b = false) (c : Nat) :
    batch.randomCell b c placeholderTokenId = batch.sampledCell b c := by
  have hverify : ∀ i < batch.numDrafts b, batch.verifyDraft (batch.start b + i) =
      (if batch.acceptsRandom (batch.start b + i) then batch.draftToken (batch.start b + i)
        else batch.recoveredToken (batch.start b + i), !batch.acceptsRandom (batch.start b + i)) :=
    fun i hi => verifyDraft_eq (start_add_lt hi)
  have haccepted : firstFailure (batch.numDrafts b) (fun i => !(batch.verifyDraft (batch.start b + i)).2) =
      batch.numAccepted b := by
    rw [numAccepted_of_random hgreedy]
    refine firstFailure_congr fun i hi => ?_
    rw [hverify i hi, Bool.not_not]
  rw [randomCell, if_pos ⟨hb, hgreedy⟩, haccepted]
  refine laneCell_eq_sampledCell (fun i hi => ?_) (fun hlt => ?_) c
  · have haccept : batch.acceptsRandom (batch.start b + i) = true := by
      rw [numAccepted_of_random hgreedy] at hi
      have hok := ok_of_lt_firstFailure hi
      exact hok
    rw [hverify i (hi.trans_le (batch.numAccepted_le b)), haccept]
    rfl
  · have hreject : batch.acceptsRandom (batch.start b + batch.numAccepted b) = false := by
      rw [numAccepted_of_random hgreedy] at hlt ⊢
      have hfail := not_ok_firstFailure hlt
      exact hfail
    rw [hverify _ hlt, hreject, replacement_of_random hgreedy]
    rfl

/-! ## One draft for each request -/

theorem start_of_all_one {counts : List Nat} (h : ∀ n ∈ counts, n = 1) (hb : b ≤ counts.length) :
    Ragged.start counts b = b := by
  rw [Ragged.start, eq_replicate_of_mem fun n hn => h n (mem_of_mem_take hn)]
  simp [hb]

def specLen1Cell (batch : Batch) (b c : Nat) (old : Int) : Int :=
  if b < batch.batchSize then
    laneCell 1 (if batch.acceptsGreedy b then 1 else 0) (fun _ => batch.argmaxToken b) (batch.bonusToken b) c old
  else old

theorem rejectionGreedySampleSpecLen1Triton_apply (hrow : batch.rowSize = 2) (pos : Nat)
    (mem : Nat → Int) (a : Nat) :
    batch.rejectionGreedySampleSpecLen1Triton pos mem a =
      if a / batch.rowSize = pos then batch.specLen1Cell pos (a % batch.rowSize) (mem a)
      else mem a := by
  unfold rejectionGreedySampleSpecLen1Triton specLen1Cell laneCell
  by_cases hpos : pos < batch.batchSize
  · cases haccept : batch.acceptsGreedy pos with
    | true =>
      rw [if_pos (show (batch.draftToken pos == batch.argmaxToken pos) = true from haccept)]
      grind
    | false =>
      rw [if_neg (show ¬ (batch.draftToken pos == batch.argmaxToken pos) = true by
        rw [show (batch.draftToken pos == batch.argmaxToken pos) = false from haccept]
        exact Bool.false_ne_true)]
      grind
  · rw [if_neg hpos, if_neg hpos, ite_self]

variable (hb : b < batch.batchSize)

include hb

theorem specLen1Cell_eq (hone : ∀ n ∈ batch.numDraftTokens, n = 1) (hgreedy : batch.greedy b = true) (c : Nat) :
    batch.specLen1Cell b c placeholderTokenId = batch.sampledCell b c := by
  have hstart : batch.start b = b := start_of_all_one hone hb.le
  have hnum : batch.numDrafts b = 1 := hone _ (Ragged.getD_mem hb 0)
  have haccepted : batch.numAccepted b = if batch.acceptsGreedy b then 1 else 0 := by
    rw [numAccepted_of_greedy hgreedy, hnum, hstart]
    cases haccept : batch.acceptsGreedy b <;> simp [firstFailure, range_succ, haccept]
  rw [specLen1Cell, if_pos hb, ← haccepted, ← hnum]
  refine laneCell_eq_sampledCell (fun i hi => ?_) (fun hlt => ?_) c
  · have hi0 : i = 0 := by
      have hle := batch.numAccepted_le b
      omega
    subst hi0
    rw [← greedy_token hgreedy hi, hstart, add_zero]
  · have h0 : batch.numAccepted b = 0 := by omega
    rw [replacement_of_greedy hgreedy, h0, hstart, add_zero]

/-! ## Both launches -/

theorem greedy_eq_of_allGreedy (h : batch.allGreedy = true) : batch.greedy b = true := by
  have hlen : b < batch.isGreedy.length := by rwa [batch.greedy_len]
  exact all_eq_true.mp h _ (Ragged.getD_mem hlen _)

theorem greedy_eq_of_allRandom (h : batch.allRandom = true) : batch.greedy b = false := by
  have hlen : b < batch.isGreedy.length := by rwa [batch.greedy_len]
  simpa [greedy] using all_eq_true.mp h _ (Ragged.getD_mem hlen false)

theorem greedyMask_eq : batch.greedyMask batch.greedyFlags b = batch.greedy b := by
  unfold greedyMask greedyFlags
  cases hall : batch.allGreedy with
  | true => simp [hb, greedy_eq_of_allGreedy hb hall]
  | false => simp [hb, greedy]

omit hb

theorem rowSize_of_all_one (hone : ∀ n ∈ batch.numDraftTokens, n = 1) : batch.rowSize = 2 :=
  congrArg (· + 1) (hone _ batch.max_mem)

section Launches

variable {device : Device} {order : List Nat}
  (horder : order.Perm (range (device.calGridAndBlockSize batch.batchSize).1))

include horder

theorem rejectionGreedySampleWithTriton_eq (hfill : device.fill ≤ 0) {mem : Nat → Int} {b c : Nat}
    (hb : b < batch.batchSize) (hc : c < batch.rowSize)
    (hmem : batch.greedy b = true → mem (b * batch.rowSize + c) = placeholderTokenId) :
    batch.rejectionGreedySampleWithTriton device batch.greedyFlags order mem (b * batch.rowSize + c) =
      if batch.greedy b then batch.sampledCell b c else mem (b * batch.rowSize + c) := by
  have hdiv : (b * batch.rowSize + c) / batch.rowSize = b := mul_add_div_of_lt hc
  have hmod : (b * batch.rowSize + c) % batch.rowSize = c := mul_add_mod_of_lt hc
  unfold rejectionGreedySampleWithTriton
  split
  next hspec =>
    obtain ⟨hall, hnone⟩ := Bool.and_eq_true_iff.mp hspec
    have hone : ∀ n ∈ batch.numDraftTokens, n = 1 := fun n hn => eq_of_beq (all_eq_true.mp hall n hn)
    have hgreedy : batch.greedy b = true := by
      refine greedy_eq_of_allGreedy hb ?_
      by_contra hnot
      rw [greedyFlags, if_neg hnot] at hnone
      cases hnone
    have hlocal : Grid.Local (· / batch.rowSize) batch.rejectionGreedySampleSpecLen1Triton :=
      @Grid.Local.of_cell _ _ _ (fun b a => batch.specLen1Cell b (a % batch.rowSize))
        (rejectionGreedySampleSpecLen1Triton_apply (rowSize_of_all_one hone))
    rw [launch_row horder hlocal _ hb hc, rejectionGreedySampleSpecLen1Triton_apply (rowSize_of_all_one hone),
      hdiv, hmod, if_pos rfl, if_pos hgreedy, hmem hgreedy, specLen1Cell_eq hb hone hgreedy]
  next =>
    rw [launch_row horder (local_rejectionGreedySampleTriton hfill _) _ hb hc,
      rejectionGreedySampleTriton_apply hfill, hdiv, hmod, if_pos rfl]
    cases hgreedy : batch.greedy b with
    | true =>
      rw [hmem hgreedy]
      exact greedyCell_eq ((greedyMask_eq hb).trans hgreedy) hgreedy c
    | false => rw [greedyCell, greedyMask_eq hb, hgreedy, if_neg Bool.false_ne_true, if_neg Bool.false_ne_true]

theorem launch_rejectionRandomSampleKernel_eq {mem : Nat → Int} {b c : Nat} (hb : b < batch.batchSize)
    (hc : c < batch.rowSize) (hmem : batch.greedy b = false → mem (b * batch.rowSize + c) = placeholderTokenId) :
    Grid.launch order (device.calGridAndBlockSize batch.batchSize).2
        (batch.rejectionRandomSampleKernel device) mem (b * batch.rowSize + c) =
      if batch.greedy b then mem (b * batch.rowSize + c) else batch.sampledCell b c := by
  rw [launch_row horder (local_rejectionRandomSampleKernel device) _ hb hc, rejectionRandomSampleKernel_apply,
    mul_add_div_of_lt hc, mul_add_mod_of_lt hc, if_pos rfl]
  cases hgreedy : batch.greedy b with
  | true => rw [randomCell, hgreedy, if_neg (fun h => Bool.noConfusion h.2), if_pos rfl]
  | false => rw [hmem hgreedy, randomCell_eq hb hgreedy, if_neg Bool.false_ne_true]

end Launches

theorem rejectionSampleTriton_eq {device : Device} (hfill : device.fill ≤ 0) {order order' : List Nat}
    (hgreedyOrder : order.Perm (range (device.calGridAndBlockSize batch.batchSize).1))
    (hrandomOrder : order'.Perm (range (device.calGridAndBlockSize batch.batchSize).1)) :
    batch.rejectionSampleTriton device order order' = batch.sampled := by
  unfold rejectionSampleTriton
  refine eq_sampled fun b hb c hc => ?_
  have hc : c < batch.rowSize := lt_succ_of_le hc
  have hstage : (if batch.allRandom then (fun _ => placeholderTokenId) else
      batch.rejectionGreedySampleWithTriton device batch.greedyFlags order fun _ => placeholderTokenId)
        (b * batch.rowSize + c) =
      if batch.greedy b then batch.sampledCell b c else placeholderTokenId := by
    split
    next hrandom => rw [greedy_eq_of_allRandom hb hrandom, if_neg Bool.false_ne_true]
    next => exact rejectionGreedySampleWithTriton_eq hgreedyOrder hfill hb hc fun _ => rfl
  split
  next hall => rw [hstage, greedy_eq_of_allGreedy hb hall, if_pos rfl]
  next =>
    rw [launch_rejectionRandomSampleKernel_eq hrandomOrder hb hc fun hgreedy => ?_, hstage]
    · cases batch.greedy b <;> rfl
    · rw [hstage, hgreedy, if_neg Bool.false_ne_true]

/-- Neither launch changes a row of the other, whatever it holds. -/
def TritonRowsApart (batch : Batch) (device : Device) (greedyOrder randomOrder : List Nat) : Prop :=
  ∀ (mem : Nat → Int), ∀ b < batch.batchSize, ∀ c < batch.rowSize,
    (batch.greedy b = false → batch.rejectionGreedySampleWithTriton device batch.greedyFlags greedyOrder mem
      (b * batch.rowSize + c) = mem (b * batch.rowSize + c)) ∧
    (batch.greedy b = true → Grid.launch randomOrder (device.calGridAndBlockSize batch.batchSize).2
      (batch.rejectionRandomSampleKernel device) mem (b * batch.rowSize + c) = mem (b * batch.rowSize + c))

theorem tritonRowsApart {device : Device} (hfill : device.fill ≤ 0) {order randomOrder : List Nat}
    (hgreedyOrder : order.Perm (range (device.calGridAndBlockSize batch.batchSize).1))
    (hrandomOrder : randomOrder.Perm (range (device.calGridAndBlockSize batch.batchSize).1)) :
    batch.TritonRowsApart device order randomOrder := by
  refine fun mem b hb c hc => ⟨fun hrandom => ?_, fun hgreedy => ?_⟩
  · rw [rejectionGreedySampleWithTriton_eq hgreedyOrder hfill hb hc fun h => ?_, hrandom, if_neg Bool.false_ne_true]
    rw [hrandom] at h
    cases h
  · rw [launch_rejectionRandomSampleKernel_eq hrandomOrder hb hc fun h => ?_, hgreedy, if_pos rfl]
    rw [hgreedy] at h
    cases h

end VllmAscend.Sample.Batch
