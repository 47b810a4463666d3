import VllmAscend.Sample.BlockAgreement

/-!
# The drafts that are accepted

Block verification accepts at least the drafts that token-wise verification accepts. It may also accept drafts after
a placeholder, whose probabilities it reads at token zero.
-/

namespace VllmAscend.Sample.Batch

open List Nat

variable {batch : Batch} {b : Nat}

/-! ## Rows -/

/-- Tokens, then only placeholders; the last of the tokens is not a draft, and no draft is one from the first
placeholder draft on. -/
def RowSound (batch : Batch) (b : Nat) (row : Nat → Int) : Prop :=
  ∃ m, 0 < m ∧ m ≤ batch.rowSize ∧ (∀ c < m, row c ≠ placeholderTokenId) ∧
    (∀ c, m ≤ c → c < batch.rowSize → row c = placeholderTokenId) ∧
      ∀ p < batch.numDrafts b, batch.isPlaceholder (batch.start b + p) = true → m ≤ p + 1

def TokensValid (batch : Batch) (b : Nat) : Prop :=
  (∀ i < batch.numDrafts b, batch.recoveredToken (batch.start b + i) ≠ placeholderTokenId) ∧
    batch.bonusToken b ≠ placeholderTokenId

theorem rowSound_blockCell_iff (hvalid : batch.TokensValid b) {last : Int} (hge : -1 ≤ last)
    (hlt : last < batch.numDrafts b)
    (hlast : ∀ k : Nat, (k : Int) = last → batch.isPlaceholder (batch.start b + k) = false)
    {row : Nat → Int} (hrow : ∀ c, row c = batch.blockCell b last c placeholderTokenId) :
    batch.RowSound b row ↔ ∀ p : Nat, (p : Int) ≤ last → batch.isPlaceholder (batch.start b + p) = false := by
  have hmax := batch.numDrafts_le b
  have hsize : batch.rowSize = batch.maxSpecLen + 1 := rfl
  have hdraft : ∀ p : Nat, (p : Int) ≤ last → (row p = placeholderTokenId ↔
      batch.isPlaceholder (batch.start b + p) = true) := by
    intro p hp
    rw [hrow, blockCell, if_pos hp, isPlaceholder, beq_iff_eq]
  constructor
  · rintro ⟨m, -, -, htokens, hrest, -⟩ p hp
    rw [Bool.eq_false_iff]
    intro hplaceholder
    have hm : m ≤ p := Nat.le_of_not_lt fun h => htokens p h ((hdraft p hp).mpr hplaceholder)
    -- The last draft comes after the placeholder, so it would have to be one.
    obtain ⟨k, rfl⟩ : ∃ k : Nat, last = k := ⟨last.toNat, by omega⟩
    have hk := (hdraft k le_rfl).mp (hrest k (by omega) (by omega))
    rw [hlast k rfl] at hk
    cases hk
  · intro hdrafts
    refine ⟨(last + 2).toNat, by omega, by omega, fun c hc => ?_, fun c hc _ => ?_, fun p hp hplaceholder => ?_⟩
    · rcases Int.lt_or_le last c with hgt | hle
      · rw [hrow, blockCell, if_neg (by omega), if_pos (by omega)]
        split
        · exact hvalid.1 c ‹_›
        · exact hvalid.2
      · rw [ne_eq, hdraft c hle, hdrafts c hle]
        exact Bool.false_ne_true
    · rw [hrow, blockCell, if_neg (by omega), if_neg (by omega)]
    · by_contra hlate
      rw [hdrafts p (by omega)] at hplaceholder
      cases hplaceholder

theorem sampledCell_eq_blockCell (hgreedy : batch.greedy b = false) (c : Nat) :
    batch.sampledCell b c = batch.blockCell b (batch.numAccepted b - 1) c placeholderTokenId := by
  unfold sampledCell blockCell replacement
  simp only [hgreedy, Bool.false_eq_true, if_false]
  grind

theorem draft_of_lt_numAccepted (hgreedy : batch.greedy b = false) {i : Nat} (hi : i < batch.numAccepted b) :
    batch.isPlaceholder (batch.start b + i) = false ∧
      batch.uniformProb (batch.start b + i) ≤ batch.ratio b i := by
  have hok := ok_of_lt_firstFailure hi
  simp only [accepts, hgreedy, Bool.false_eq_true, if_false, acceptsRandom, Bool.and_eq_true, Bool.not_eq_true',
    decide_eq_true_eq] at hok
  exact ⟨hok.1.1, hok.2⟩

theorem legalMask_eq_true_iff {cells : Cells} (hreads : cells.Reads batch) (hb : b < batch.batchSize) {q : Nat}
    (hq : q < batch.numDrafts b) : batch.legalMask cells b q = true ↔
      batch.isPlaceholder (batch.start b + q) = false ∧ 0 < batch.draftProb (batch.start b + q) ∧
        batch.prodUniform b (q + 1) ≤ cells.pi b q := by
  rw [legalMask_of_lt hreads hb hq]
  simp only [Bool.and_eq_true, decide_eq_true_eq, Bool.not_eq_true']
  rw [and_comm]
  refine and_congr_right fun hdraft => ?_
  rw [hreads.draftProb b q ((placeholderMask_eq hreads hb hq).trans hdraft), globalTokenIndices_eq hb hq]

def placeholderFirst : Batch :=
  { threeDrafts [[1, 0], [1, 0], [1, 0]] mixedBatch.target_len mixedBatch.target_row with
    draftTokenIds := [-1, 0, 0], draft_len := rfl, draft_ids := by decide }

theorem prodUniform_le_prodClamped {k : Nat} (h : ∀ i < k, 0 < batch.uniformProb (batch.start b + i) ∧
      batch.uniformProb (batch.start b + i) ≤ 1 ∧ batch.uniformProb (batch.start b + i) ≤ batch.ratio b i) :
    0 ≤ batch.prodUniform b k ∧ batch.prodUniform b k ≤ prodClamped (batch.ratio b) k := by
  induction k with
  | zero => exact ⟨zero_le_one, le_rfl⟩
  | succ k ih =>
    obtain ⟨hpos, hone, hratio⟩ := h k (lt_succ_self k)
    obtain ⟨hnonneg, hle⟩ := ih fun i hi => h i (lt_succ_of_lt hi)
    rw [prodUniform_succ, prodClamped_succ]
    exact ⟨mul_nonneg hnonneg hpos.le, mul_le_mul hle (le_min hratio hone) hpos.le (hnonneg.trans hle)⟩

end VllmAscend.Sample.Batch
