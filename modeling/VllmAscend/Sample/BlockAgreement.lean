import Mathlib.Algebra.BigOperators.Ring.List
import VllmAscend.Sample.BlockVerify

/-!
# Where block verification agrees
-/

namespace VllmAscend.Sample.Batch

open List Option Nat Bool

variable {batch : Batch}

/-! ## Rows -/

section Launch

variable {device : Device} {order : List Nat}
  (horder : order.Perm (range (device.calGridAndBlockSize batch.batchSize).1))

include horder

theorem launch_blockVerifyKernel_eq (mem : Nat → Int) {b c : Nat} (hb : b < batch.batchSize) (hc : c < batch.rowSize) :
    Grid.launch order (device.calGridAndBlockSize batch.batchSize).2
        (batch.rejectionRandomSampleBlockVerifyKernel device) mem (b * batch.rowSize + c) =
      batch.blockLaneCell b c (mem (b * batch.rowSize + c)) := by
  have hlocal : Grid.Local (· / batch.rowSize) (batch.rejectionRandomSampleBlockVerifyKernel device) :=
    @Grid.Local.of_cell _ _ _ (fun b a => batch.blockLaneCell b (a % batch.rowSize))
      (rejectionRandomSampleBlockVerifyKernel_apply device)
  rw [launch_row horder hlocal _ hb hc, rejectionRandomSampleBlockVerifyKernel_apply,
    RoundRobin.mul_add_div_of_lt hc, mul_add_mod_of_lt hc, if_pos rfl]

end Launch

abbrev vectorisedLast (batch : Batch) (cells : Cells) (b : Nat) : Int :=
  lastTrue (batch.legalMask cells b) (batch.numDrafts b)

abbrev kernelLast (batch : Batch) (b : Nat) : Int := lastTrue (batch.scanLegal (batch.start b)) (batch.numDrafts b)

variable {b : Nat} {cells : Cells}

theorem lastAcceptPos_eq (cells : Cells) (hb : b < batch.batchSize) :
    batch.lastAcceptPos cells b = some (batch.vectorisedLast cells b) := by
  have hpast : ∀ p, batch.numDrafts b ≤ p → batch.legalMask cells b p = false := by
    intro p hp
    unfold legalMask validMask
    rw [numDraftPerBatch_eq hb, decide_eq_false (Nat.not_lt.mpr hp), Bool.and_false, Bool.false_and]
  rw [vectorisedLast, ← lastTrue_of_false (batch.numDrafts_le b) hpast, lastAcceptPos,
    argmaxTrue_eq batch.maxSpecLen_pos, map_some]
  congr 1
  split
  next hany =>
    obtain ⟨hlt, hflip⟩ := lastTrue_eq_flip (batch.legalMask cells b) hany
    rw [hflip, if_pos hlt]
  next hnone => exact (lastTrue_eq_neg_one hnone).symm

theorem selectBlockTokens_eq (h : cells.Reads batch) (hb : b < batch.batchSize)
    (hgreedy : batch.greedy b = false) {last : Nat → Int} (hlt : last b < batch.numDrafts b)
    (output : Nat → Nat → Int) (c : Nat) :
    batch.selectBlockTokens cells last output b c = batch.blockCell b (last b) c (output b c) := by
  have hmax := batch.numDrafts_le b
  unfold selectBlockTokens blockCell validMask
  simp only [numDraftPerBatch_eq hb, hgreedy, h.draft, h.recovered]
  by_cases hc : c < batch.numDrafts b
  · rw [globalTokenIndices_eq hb hc]
    grind
  · grind

theorem rejectionRandomSampleBlockVerifyPytorch_eq (hcells : batch.gatherCells = some cells)
    (hreads : cells.Reads batch) (old : Nat → Nat → Int) :
    ∃ output, batch.rejectionRandomSampleBlockVerifyPytorch old = some output ∧ ∀ b < batch.batchSize, ∀ c,
      output b c = if batch.greedy b then old b c
        else batch.blockCell b (batch.vectorisedLast cells b) c (old b c) := by
  have hpositions : (range batch.batchSize).mapM (batch.lastAcceptPos cells) =
      some ((range batch.batchSize).map (batch.vectorisedLast cells)) :=
    Loop.mapM_eq_map fun b hb => lastAcceptPos_eq cells (mem_range.mp hb)
  unfold rejectionRandomSampleBlockVerifyPytorch
  rw [hcells, bind_eq_bind, bind_some, hpositions, bind_eq_bind, bind_some]
  refine ⟨_, rfl, fun b hb c => ?_⟩
  have hget : ((range batch.batchSize).map (batch.vectorisedLast cells)).getD b 0 = batch.vectorisedLast cells b :=
    Ragged.getD_map_range hb ..
  cases hgreedy : batch.greedy b with
  | true => simp [selectBlockTokens, hgreedy]
  | false =>
    rw [if_neg Bool.false_ne_true, selectBlockTokens_eq hreads hb hgreedy, hget]
    rw [hget]
    exact lastTrue_lt _ _

/-! ## Agreement -/

/-- Both samplers accept the same number of drafts of each request and write the same output, whatever
it held before. -/
def BlockVerifyAgrees (batch : Batch) (device : Device) (order : List Nat) : Prop :=
  ∀ mem : Nat → Int, ∃ cells output, batch.gatherCells = some cells ∧
    batch.rejectionRandomSampleBlockVerifyPytorch (fun b c => mem (b * batch.rowSize + c)) = some output ∧
    ∀ b < batch.batchSize,
      (batch.greedy b = false → batch.lastAcceptPos cells b = some (batch.blockScan (batch.blockRange device b true).1
        (batch.blockRange device b true).2.toNat).lastAcceptedTokenPos) ∧
      ∀ c < batch.rowSize, Grid.launch order (device.calGridAndBlockSize batch.batchSize).2
        (batch.rejectionRandomSampleBlockVerifyKernel device) mem (b * batch.rowSize + c) = output b c

theorem blockVerifyAgrees_iff {device : Device} {order : List Nat}
    (horder : order.Perm (range (device.calGridAndBlockSize batch.batchSize).1))
    (hcells : batch.gatherCells = some cells) (hreads : cells.Reads batch) :
    batch.BlockVerifyAgrees device order ↔ ∀ b < batch.batchSize, batch.greedy b = false →
      batch.vectorisedLast cells b = batch.kernelLast b := by
  have hlast : ∀ b < batch.batchSize, (batch.blockScan (batch.blockRange device b true).1
      (batch.blockRange device b true).2.toNat).lastAcceptedTokenPos =
      batch.kernelLast b := by
    intro b hb
    rw [blockRange_eq device hb, lastAcceptedTokenPos_eq, Int.toNat_natCast]
  constructor
  · intro hagree b hb hgreedy
    obtain ⟨cells', output, hcells', -, hrows⟩ := hagree fun _ => placeholderTokenId
    rw [hcells, some_inj] at hcells'
    subst hcells'
    have hcount := (hrows b hb).1 hgreedy
    rwa [lastAcceptPos_eq cells hb, hlast b hb, some_inj] at hcount
  · intro hsame mem
    obtain ⟨output, houtput, hcell⟩ := rejectionRandomSampleBlockVerifyPytorch_eq hcells hreads
      fun b c => mem (b * batch.rowSize + c)
    refine ⟨cells, output, hcells, houtput, fun b hb => ⟨fun hgreedy => ?_, fun c hc => ?_⟩⟩
    · rw [lastAcceptPos_eq cells hb, hlast b hb, hsame b hb hgreedy]
    · rw [launch_blockVerifyKernel_eq horder mem hb hc, hcell b hb, blockLaneCell]
      cases hgreedy : batch.greedy b with
      | true => rw [if_neg fun h => Bool.noConfusion h.2, if_pos rfl]
      | false => rw [if_pos ⟨hb, rfl⟩, hsame b hb hgreedy, if_neg Bool.false_ne_true]

/-! ## The products -/

def ratio (batch : Batch) (b i : Nat) : Rat :=
  batch.targetProb (batch.start b + i) / batch.draftProb (batch.start b + i)

def prodUniform (batch : Batch) (b k : Nat) : Rat :=
  ((range k).map fun i => batch.uniformProb (batch.start b + i)).prod

theorem prodUniform_succ (b k : Nat) :
    batch.prodUniform b (k + 1) = batch.prodUniform b k * batch.uniformProb (batch.start b + k) := by
  simp [prodUniform, range_succ]

theorem targetProb_nonneg (batch : Batch) (t : Nat) : 0 ≤ batch.targetProb t := by
  unfold targetProb
  split
  next => exact getD_targetProbs_nonneg _ _
  next => exact sum_candidates_nonneg _ _ _

theorem draftProb_nonneg (hpos : batch.DraftProbsPos) (t : Nat) : 0 ≤ batch.draftProb t := by
  unfold draftProb
  split
  next => exact zero_le_one
  next probs hprobs =>
    have hrow : ∀ prob ∈ probs.getD t [], 0 ≤ prob :=
      Ragged.getD_of_forall_mem (P := fun row => ∀ prob ∈ row, 0 ≤ prob) (by simp)
        (fun row hrow prob hprob => (hpos probs hprobs row hrow prob hprob).le) t
    exact Ragged.getD_of_forall_mem (P := (0 ≤ ·)) le_rfl hrow _

theorem ratio_nonneg (hpos : batch.DraftProbsPos) (b i : Nat) : 0 ≤ batch.ratio b i :=
  div_nonneg (batch.targetProb_nonneg _) (draftProb_nonneg hpos _)

def DraftsBefore (batch : Batch) (b k : Nat) : Prop :=
  k ≤ batch.numDrafts b ∧ ∀ i < k, batch.isPlaceholder (batch.start b + i) = false

section Request

variable {cells : Cells} (hreads : cells.Reads batch) (hpos : batch.DraftProbsPos) {b : Nat}
  (hb : b < batch.batchSize)

include hreads hb in
theorem placeholderMask_eq {i : Nat} (hi : i < batch.numDrafts b) :
    cells.placeholderMask b i = batch.isPlaceholder (batch.start b + i) := by
  rw [Cells.placeholderMask, hreads.draft, globalTokenIndices_eq hb hi]
  rfl

include hreads hpos hb in
theorem draftProb_pos {i : Nat} (hi : i < batch.numDrafts b)
    (hdraft : batch.isPlaceholder (batch.start b + i) = false) : 0 < batch.draftProb (batch.start b + i) := by
  have hmask := (placeholderMask_eq hreads hb hi).trans hdraft
  rw [← globalTokenIndices_eq hb hi, ← hreads.draftProb b i hmask]
  exact hreads.draftPos hpos b i

variable {k : Nat}

include hreads hb in
theorem pi_eq (h : batch.DraftsBefore b (k + 1)) : cells.pi b k = prodClamped (batch.ratio b) (k + 1) := by
  refine prodClamped_congr fun i hi => ?_
  have hin : i < batch.numDrafts b := hi.trans_le h.1
  have hmask := (placeholderMask_eq hreads hb hin).trans (h.2 i hi)
  rw [hreads.targetProb b i hmask, hreads.draftProb b i hmask, globalTokenIndices_eq hb hin]
  rfl

include hreads hpos in
theorem pi_nonneg (k : Nat) : 0 ≤ cells.pi b k :=
  prodClamped_nonneg (fun i => div_nonneg (hreads.targetNonneg b i) (hreads.draftPos hpos b i).le) _

include hreads hpos in
theorem pi_anti {j : Nat} (h : j ≤ k) : cells.pi b k ≤ cells.pi b j :=
  prodClamped_anti (fun i => div_nonneg (hreads.targetNonneg b i) (hreads.draftPos hpos b i).le)
    (succ_le_succ h)

variable (hk : k < batch.numDrafts b)

include hreads hb hk in
theorem cumUniformTokenProbs_eq :
    cells.cumUniformTokenProbs b k = batch.prodUniform b (k + 1) := by
  refine congrArg prod (map_congr_left fun i hi => ?_)
  have hi := mem_range.mp hi
  rw [hreads.uniform, globalTokenIndices_eq hb (by omega)]

include hreads hb hk in
theorem legalMask_of_lt : batch.legalMask cells b k =
    (decide (0 < cells.draftTokenProbs b k) && decide (batch.prodUniform b (k + 1) ≤ cells.pi b k) &&
      !batch.isPlaceholder (batch.start b + k)) := by
  rw [legalMask, validMask, numDraftPerBatch_eq hb, placeholderMask_eq hreads hb hk, cumUniformTokenProbs_eq hreads hb
    hk, decide_eq_true hk, Bool.and_true]

include hreads hpos hb hk in
theorem legalMask_eq : batch.legalMask cells b k =
    (decide (batch.prodUniform b (k + 1) ≤ cells.pi b k) && !batch.isPlaceholder (batch.start b + k)) := by
  rw [legalMask_of_lt hreads hb hk, decide_eq_true (hreads.draftPos hpos b k), Bool.true_and]

include hreads hpos hb hk in
theorem scanLegal_eq : batch.scanLegal (batch.start b) k =
    (decide ((batch.blockScan (batch.start b) (k + 1)).uniformProb ≤ (batch.blockScan (batch.start b) (k + 1)).pi) &&
      !batch.isPlaceholder (batch.start b + k)) := by
  unfold scanLegal
  dsimp only
  rw [toNat_start_add]
  cases hdraft : batch.isPlaceholder (batch.start b + k) with
  | true => rw [Bool.not_true, Bool.false_and, Bool.false_and, Bool.and_false]
  | false =>
    rw [loadBlockProbs_eq (start_add_lt hk) hdraft, decide_eq_true (draftProb_pos hreads hpos hb hk hdraft),
      Bool.not_false, Bool.true_and, Bool.true_and, Bool.and_true]

theorem blockScan_of_drafts (h : batch.DraftsBefore b k) :
    (batch.blockScan (batch.start b) k).pi = clampedRun (batch.ratio b) k ∧
      (batch.blockScan (batch.start b) k).uniformProb = batch.prodUniform b k := by
  induction k with
  | zero => exact ⟨rfl, rfl⟩
  | succ k ih =>
    obtain ⟨hpi, huniform⟩ := ih ⟨le_of_succ_le h.1, fun i hi => h.2 i (hi.trans (lt_succ_self k))⟩
    have hdraft := h.2 k (lt_succ_self k)
    rw [blockScan_succ, blockStep_of_draft (by exact hdraft), toNat_start_add,
      loadBlockProbs_eq (start_add_lt h.1) hdraft, hpi, huniform]
    refine ⟨?_, (prodUniform_succ b k).symm⟩
    dsimp only
    rw [clampedRun, ratio, mul_div_assoc]

theorem blockScan_of_placeholder {p : Nat} (hp : batch.isPlaceholder (batch.start b + p) = true) (hk : p < k)
    (hpos : ∀ i < k, batch.isPlaceholder (batch.start b + i) = false → 0 < batch.uniformProb (batch.start b + i)) :
    (batch.blockScan (batch.start b) k).pi = 0 ∧ 0 < (batch.blockScan (batch.start b) k).uniformProb := by
  have huniform : ∀ j ≤ k, 0 < (batch.blockScan (batch.start b) j).uniformProb := by
    intro j hj
    induction j with
    | zero => exact zero_lt_one
    | succ j ih =>
      rw [blockScan_succ]
      cases hdraft : batch.isPlaceholder (batch.start b + j) with
      | true =>
        rw [blockStep_of_placeholder (by exact hdraft)]
        exact ih (le_of_succ_le hj)
      | false =>
        rw [blockStep_of_draft (by exact hdraft), toNat_start_add]
        exact mul_pos (ih (le_of_succ_le hj)) (hpos j hj hdraft)
  refine ⟨?_, huniform k (le_refl k)⟩
  clear huniform hpos
  induction k, hk using le_induction with
  | base =>
    rw [blockScan_succ, blockStep_of_placeholder]
    rwa [toNat_start_add]
  | succ k _ ih =>
    rw [blockScan_succ]
    cases hdraft : batch.isPlaceholder ((batch.start b : Int) + k).toNat with
    | true => rw [blockStep_of_placeholder hdraft]
    | false =>
      rw [blockStep_of_draft hdraft]
      dsimp only
      rw [ih, zero_mul, zero_div]
      exact min_eq_left zero_le_one

/-! ## Requests where the samplers agree -/

/-- Placeholders come last, and a draft that the target model prefers comes after drafts that it does
not like less, or after one that it rules out. -/
structure BlockRegular (batch : Batch) (b : Nat) : Prop where
  placeholders_last : ∀ p q, p < q → q < batch.numDrafts b → batch.isPlaceholder (batch.start b + p) = true →
    batch.isPlaceholder (batch.start b + q) = true
  rises_first : ∀ k < batch.numDrafts b, batch.isPlaceholder (batch.start b + k) = false →
    batch.draftProb (batch.start b + k) < batch.targetProb (batch.start b + k) →
    (∀ j < k, batch.draftProb (batch.start b + j) ≤ batch.targetProb (batch.start b + j)) ∨
      ∃ j < k, batch.targetProb (batch.start b + j) = 0

theorem draftsBefore_of_draft
    (hlast : ∀ p q, p < q → q < batch.numDrafts b → batch.isPlaceholder (batch.start b + p) = true →
      batch.isPlaceholder (batch.start b + q) = true)
    (hk : k < batch.numDrafts b) (hdraft : batch.isPlaceholder (batch.start b + k) = false) :
    batch.DraftsBefore b (k + 1) := by
  refine ⟨hk, fun i hi => eq_false_iff.mpr fun hplaceholder => ?_⟩
  rcases Nat.lt_succ_iff_lt_or_eq.mp hi with hi | rfl
  · rw [hlast i k hi hk hplaceholder] at hdraft
    cases hdraft
  · rw [hplaceholder] at hdraft
    cases hdraft

include hreads hpos hb

theorem risesFirst_iff {m : Nat} (h : batch.DraftsBefore b m) : RisesFirst (batch.ratio b) m ↔
    ∀ k < m, batch.draftProb (batch.start b + k) < batch.targetProb (batch.start b + k) →
      (∀ j < k, batch.draftProb (batch.start b + j) ≤ batch.targetProb (batch.start b + j)) ∨
        ∃ j < k, batch.targetProb (batch.start b + j) = 0 := by
  have hdraft : ∀ i < m, 0 < batch.draftProb (batch.start b + i) := fun i hi =>
    draftProb_pos hreads hpos hb (hi.trans_le h.1) (h.2 i hi)
  refine forall₂_congr fun k hk => ?_
  unfold ratio
  rw [one_lt_div (hdraft k hk)]
  refine imp_congr_right fun _ => or_congr ?_ ?_
  · exact forall₂_congr fun j hj => one_le_div (hdraft j (hj.trans hk))
  · refine exists_congr fun j => and_congr_right fun hj => ?_
    rw [div_eq_zero_iff, or_iff_left (hdraft j (hj.trans hk)).ne']

theorem lastTrue_eq_of_regular (h : batch.BlockRegular b) : batch.vectorisedLast cells b = batch.kernelLast b := by
  refine lastTrue_congr fun k hk => ?_
  rw [legalMask_eq hreads hpos hb hk, scanLegal_eq hreads hpos hb hk]
  cases hdraft : batch.isPlaceholder (batch.start b + k) with
  | true => rw [Bool.not_true, Bool.and_false, Bool.and_false]
  | false =>
    have hbefore := draftsBefore_of_draft h.placeholders_last hk hdraft
    obtain ⟨hpi, huniform⟩ := blockScan_of_drafts hbefore
    have hrises : RisesFirst (batch.ratio b) (k + 1) := by
      refine (risesFirst_iff hreads hpos hb hbefore).mpr fun i hi => ?_
      exact h.rises_first i (hi.trans_le hbefore.1) (hbefore.2 i hi)
    rw [hpi, huniform, pi_eq hreads hb hbefore,
      clampedRun_eq_prodClamped (ratio_nonneg hpos b) hrises (le_refl (k + 1))]

theorem lastTrue_ne_of_late_draft {p q : Nat} (hpq : p < q) (hq : q < batch.numDrafts b)
    (hplaceholder : batch.isPlaceholder (batch.start b + p) = true)
    (hdraft : batch.isPlaceholder (batch.start b + q) = false) (hzero : batch.uniformProb (batch.start b + p) = 0)
    (hother : ∀ i < batch.numDrafts b, batch.isPlaceholder (batch.start b + i) = false →
      0 < batch.uniformProb (batch.start b + i)) : batch.vectorisedLast cells b ≠ batch.kernelLast b := by
  have hvectorised : (q : Int) ≤ batch.vectorisedLast cells b := by
    refine le_lastTrue hq ?_
    have hprod : batch.prodUniform b (q + 1) = 0 := by
      refine prod_eq_zero (mem_map.mpr ⟨p, mem_range.mpr (by omega), hzero⟩)
    rw [legalMask_eq hreads hpos hb hq, hdraft, hprod, decide_eq_true (pi_nonneg hreads hpos q)]
    rfl
  have hkernel : batch.kernelLast b < (p : Nat) := by
    refine lastTrue_lt_iff.mpr fun i hi hpi => ?_
    obtain ⟨hpizero, huniform⟩ := blockScan_of_placeholder hplaceholder (lt_succ_of_le hpi)
      fun j hj => hother j (by omega)
    rw [scanLegal_eq hreads hpos hb hi, hpizero, decide_eq_false (not_le_of_gt huniform), Bool.false_and]
  omega

theorem lastTrue_ne_of_late_rise (hbefore : batch.DraftsBefore b (k + 1))
    (hsame : prodClamped (batch.ratio b) (k + 1) = prodClamped (batch.ratio b) k)
    (hhigh : batch.prodUniform b (k + 1) ≤ clampedRun (batch.ratio b) (k + 1))
    (hlow : ∀ i < batch.numDrafts b, prodClamped (batch.ratio b) k < batch.prodUniform b (i + 1)) :
    batch.vectorisedLast cells b ≠ batch.kernelLast b := by
  have hk : k < batch.numDrafts b := hbefore.1
  have hkernel : (k : Int) ≤ batch.kernelLast b := by
    obtain ⟨hpi, huniform⟩ := blockScan_of_drafts hbefore
    refine le_lastTrue hk ?_
    rw [scanLegal_eq hreads hpos hb hk, hpi, huniform, decide_eq_true hhigh, hbefore.2 k (lt_succ_self k)]
    rfl
  have hvectorised : batch.vectorisedLast cells b < (k : Nat) := by
    refine lastTrue_lt_iff.mpr fun i hi hki => ?_
    have hless : cells.pi b i < batch.prodUniform b (i + 1) := by
      refine lt_of_le_of_lt ?_ (hlow i hi)
      rw [← hsame, ← pi_eq hreads hb hbefore]
      exact pi_anti hreads hpos hki
    rw [legalMask_eq hreads hpos hb hi, decide_eq_false (not_le_of_gt hless), Bool.false_and]
  omega

end Request

/-! ## Every draw -/

def withUniforms (batch : Batch) (uniforms : Nat → Rat) : Batch :=
  { batch with
    uniformProbs := (range batch.numTokens).map uniforms
    uniform_len := by rw [length_map, length_range, numTokens] }

theorem uniformProb_withUniforms (uniforms : Nat → Rat) {t : Nat} (ht : t < batch.numTokens) :
    (batch.withUniforms uniforms).uniformProb t = uniforms t :=
  Ragged.getD_map_range ht ..

theorem exists_uniforms_of_not_regular (hpos : batch.DraftProbsPos) (hb : b < batch.batchSize)
    (h : ¬ batch.BlockRegular b) : ∃ uniforms : Nat → Rat, (∀ t, 0 ≤ uniforms t ∧ uniforms t < 1) ∧
      ∀ cells, cells.Reads (batch.withUniforms uniforms) →
        (batch.withUniforms uniforms).vectorisedLast cells b ≠ (batch.withUniforms uniforms).kernelLast b := by
  by_cases hlast : ∀ p q, p < q → q < batch.numDrafts b → batch.isPlaceholder (batch.start b + p) = true →
      batch.isPlaceholder (batch.start b + q) = true
  · obtain ⟨_, -, hreads⟩ := batch.gatherCells_eq
    obtain ⟨k₀, hk₀, hdraft₀, hlate⟩ : ∃ k₀ < batch.numDrafts b, batch.isPlaceholder (batch.start b + k₀) = false ∧
        ¬ RisesFirst (batch.ratio b) (k₀ + 1) := by
      by_contra hnone
      refine h ⟨hlast, fun k hk hdraft => ?_⟩
      have hrises : RisesFirst (batch.ratio b) (k + 1) := by
        by_contra hnot
        exact hnone ⟨k, hk, hdraft, hnot⟩
      exact (risesFirst_iff hreads hpos hb (draftsBefore_of_draft hlast hk hdraft)).mp hrises k (lt_succ_self k)
    obtain ⟨k, hk, hprod, hrun, hsame⟩ := exists_late_rise (ratio_nonneg hpos b) hlate
    obtain ⟨first, later, hfirst, hhigh, hlater, hless, hbetween⟩ :=
      exists_factors_between hprod.le hrun (batch.numDrafts b)
    have hone : clampedRun (batch.ratio b) (k + 1) ≤ 1 := min_le_right _ _
    have hfirst0 : 0 < first := hprod.trans hfirst
    refine ⟨fun t => if t ≤ batch.start b then first else later, fun t => ?_, fun cells hreads => ?_⟩
    · dsimp only
      split
      · exact ⟨hfirst0.le, hhigh.trans_le hone⟩
      · exact ⟨hlater.le, hless⟩
    · have hbefore := draftsBefore_of_draft hlast hk₀ hdraft₀
      have huniform : ∀ i < batch.numDrafts b, (batch.withUniforms fun t =>
          if t ≤ batch.start b then first else later).prodUniform b (i + 1) = first * later ^ i := by
        intro i hi
        induction i with
        | zero =>
          rw [prodUniform_succ, pow_zero, mul_one]
          refine (one_mul _).trans ((uniformProb_withUniforms _ (start_add_lt hi)).trans ?_)
          exact if_pos (le_refl _)
        | succ i ih =>
          rw [prodUniform_succ, ih (by omega), pow_succ, ← mul_assoc]
          congr 1
          refine (uniformProb_withUniforms _ (start_add_lt hi)).trans (if_neg ?_)
          omega
      refine lastTrue_ne_of_late_rise hreads hpos hb (k := k) ?_ hsame ?_ fun i hi => ?_
      · exact ⟨hk.trans_le hbefore.1, fun i hi => hbefore.2 i (hi.trans_le hk)⟩
      · rw [huniform k (by omega)]
        exact (mul_le_of_le_one_right hfirst0.le (pow_le_one₀ hlater.le hless.le)).trans hhigh.le
      · rw [huniform i hi]
        exact hbetween.trans_le
          (mul_le_mul_of_nonneg_left (pow_le_pow_of_le_one hlater.le hless.le hi.le) hfirst0.le)
  · obtain ⟨p, q, hpq, hq, hplaceholder, hdraft⟩ : ∃ p q, p < q ∧ q < batch.numDrafts b ∧
        batch.isPlaceholder (batch.start b + p) = true ∧ batch.isPlaceholder (batch.start b + q) = false := by
      by_contra hnone
      refine hlast fun p q hpq hq hplaceholder => ?_
      by_contra hdraft
      exact hnone ⟨p, q, hpq, hq, hplaceholder, eq_false_iff.mpr hdraft⟩
    refine ⟨fun t => if t = batch.start b + p then 0 else 1 / 2, fun t => ?_, fun cells hreads => ?_⟩
    · dsimp only
      split <;> norm_num
    · refine lastTrue_ne_of_late_draft hreads hpos hb hpq hq hplaceholder hdraft ?_ fun i hi hdrafti => ?_
      · exact (uniformProb_withUniforms _ (start_add_lt (hpq.trans hq))).trans (if_pos rfl)
      · have hne : batch.start b + i ≠ batch.start b + p := by
          intro heq
          have hdrafti : batch.isPlaceholder (batch.start b + i) = false := hdrafti
          rw [heq, hplaceholder] at hdrafti
          cases hdrafti
        have hvalue : (batch.withUniforms fun t => if t = batch.start b + p then 0 else 1 / 2).uniformProb
            (batch.start b + i) = 1 / 2 := (uniformProb_withUniforms _ (start_add_lt hi)).trans (if_neg hne)
        exact hvalue.symm ▸ one_half_pos

/-- Block verification agrees on every draw of uniform numbers exactly when every random request has
its placeholders last and no draft that the target model prefers after one that it does not. -/
theorem blockVerify_agrees_iff (batch : Batch) (device : Device) {order : List Nat}
    (horder : order.Perm (range (device.calGridAndBlockSize batch.batchSize).1))
    (hpos : batch.DraftProbsPos) : (∀ uniforms : Nat → Rat, (∀ t, 0 ≤ uniforms t ∧ uniforms t < 1) →
      (batch.withUniforms uniforms).BlockVerifyAgrees device order) ↔
      ∀ b < batch.batchSize, batch.greedy b = false → batch.BlockRegular b := by
  constructor
  · intro hagree b hb hgreedy
    by_contra hnot
    obtain ⟨uniforms, hrange, hdiffer⟩ := exists_uniforms_of_not_regular hpos hb hnot
    obtain ⟨cells, hcells, hreads⟩ := (batch.withUniforms uniforms).gatherCells_eq
    have hagree := hagree uniforms hrange
    rw [@blockVerifyAgrees_iff (batch.withUniforms uniforms) _ _ _ horder hcells hreads] at hagree
    exact hdiffer cells hreads (hagree b hb hgreedy)
  · intro hregular uniforms _
    obtain ⟨cells, hcells, hreads⟩ := (batch.withUniforms uniforms).gatherCells_eq
    rw [@blockVerifyAgrees_iff (batch.withUniforms uniforms) _ _ _ horder hcells hreads]
    intro b hb hgreedy
    obtain ⟨hlast, hrises⟩ := hregular b hb hgreedy
    exact lastTrue_eq_of_regular hreads hpos hb ⟨hlast, hrises⟩

def threeDrafts (targetProbs : List (List Rat)) (hlen : targetProbs.length = 3)
    (hrows : ∀ row ∈ targetProbs, row.length = 2 ∧ ∀ prob ∈ row, 0 ≤ prob) : Batch where
  numDraftTokens := [3]
  maxSpecLen := 3
  draftTokenIds := [0, 0, 0]
  draftProbs := some [[1 / 2, 1 / 2], [1 / 2, 1 / 2], [1 / 2, 1 / 2]]
  targetProbs := targetProbs
  targetIndices := none
  vocabSize := 2
  globalVocabSize := 2
  targetArgmax := [0, 0, 0]
  bonusTokenIds := [1]
  recoveredTokenIds := [1, 1, 1]
  uniformProbs := [3 / 4, 15 / 16, 15 / 16]
  isGreedy := [false]
  drafts_le := by decide
  max_mem := by decide
  tokens_pos := by decide
  draft_len := rfl
  argmax_len := rfl
  recovered_len := rfl
  uniform_len := rfl
  bonus_len := rfl
  greedy_len := rfl
  target_len := hlen
  target_row := hrows
  draft_rows := by decide
  index_rows := fun _ h => by cases h
  vocab_pos := Nat.two_pos
  vocab_full := mixedBatch.vocab_full
  draft_ids := by decide

def earlyRise : Batch := threeDrafts [[1, 0], [1 / 4, 3 / 4], [1 / 2, 1 / 2]] rfl (by decide +kernel)

theorem blockVerify_agrees_earlyRise : earlyRise.batchSize = 1 ∧
    ∀ uniforms : Nat → Rat, (∀ t, 0 ≤ uniforms t ∧ uniforms t < 1) →
      (earlyRise.withUniforms uniforms).BlockVerifyAgrees ⟨1, 0, by decide⟩ [0] := by
  have hdrafts : ∀ p < 3, earlyRise.isPlaceholder (earlyRise.start 0 + p) = false := by decide
  have hrise : ∀ k < 3, earlyRise.draftProb (earlyRise.start 0 + k) < earlyRise.targetProb (earlyRise.start 0 + k) →
      k = 0 := by decide +kernel
  refine ⟨rfl, (blockVerify_agrees_iff earlyRise ⟨1, 0, by decide⟩ (.refl [0]) ?_).mpr fun b hb _ => ?_⟩
  · intro probs hprobs
    cases hprobs
    decide +kernel
  · obtain rfl : b = 0 := lt_one_iff.mp hb
    refine ⟨fun p q hpq hq hplaceholder => ?_, fun k hk _ hless => .inl fun j hj => ?_⟩
    · rw [hdrafts p (hpq.trans hq)] at hplaceholder
      cases hplaceholder
    · rw [hrise k hk hless] at hj
      exact absurd hj (not_lt_zero j)

def lateRise : Batch := threeDrafts [[1 / 4, 3 / 4], [1, 0], [1 / 2, 1 / 2]] rfl (by decide +kernel)

/-- The kernel accepts all three drafts, the vectorised sampler none. -/
theorem blockVerify_differs_lateRise : ¬ lateRise.BlockVerifyAgrees ⟨1, 0, by decide⟩ [0] := by
  intro hagree
  obtain ⟨cells, _, hcells, -, hrows⟩ := hagree fun _ => placeholderTokenId
  have hcount := (hrows 0 (by decide)).1 rfl
  have hvectorised : (lateRise.gatherCells.bind fun cells => lateRise.lastAcceptPos cells 0) = some (-1) := by
    decide +kernel
  have hkernel : (lateRise.blockScan (lateRise.blockRange ⟨1, 0, by decide⟩ 0 true).1
      (lateRise.blockRange ⟨1, 0, by decide⟩ 0 true).2.toNat).lastAcceptedTokenPos = 2 := by
    decide +kernel
  rw [hcells, bind_some, hcount, hkernel] at hvectorised
  cases hvectorised

end VllmAscend.Sample.Batch
