import Mathlib.Algebra.BigOperators.Group.Finset.Sigma
import Mathlib.Algebra.BigOperators.Ring.Finset
import Mathlib.Order.Interval.Finset.Nat
import Mathlib.Tactic.IntervalCases
import VllmAscend.KvTransfer.Layerwise.Signals

/-!
# How many ranks a decoder device waits for

The count in the DONE messages comes from a closed formula over the whole prompt. The ranks that signal are those
that hold a block the decoder has not cached.
-/

namespace VllmAscend.KvTransfer.Layerwise

open RoundRobin List Nat Finset

/-! ## The formula -/

section Formula

/-- The context-parallel ranks of the prefiller that hold a block of `[first, numBlocks)` and send it
to rank `c` of the decoder. -/
def uncachedRanks (pCp dCp first numBlocks c : Nat) : Finset Nat :=
  (Finset.range pCp).filter fun r => r % dCp = c ∧ ∃ b ∈ Finset.Ico first numBlocks, b % pCp = r

variable {c n cached : Nat}

theorem mem_uncachedRanks {pCp dCp first r : Nat} : r ∈ uncachedRanks pCp dCp first n c ↔
      r < pCp ∧ r % dCp = c ∧ ∃ b, (first ≤ b ∧ b < n) ∧ b % pCp = r := by
  simp only [uncachedRanks, Finset.mem_filter, Finset.mem_range, mem_Ico]

/-- When the formula counts the ranks that signal. `cachedBlocks` is the number of cached tokens in
blocks rounded up, `first` rounded down. -/
def WaitsExactly (pCp dCp first cachedBlocks numBlocks : Nat) : Prop :=
  numBlocks ≤ first ∨
  (pCp ≤ numBlocks ∧ (pCp ≤ numBlocks - first ∨ dCp = pCp)) ∨
  (numBlocks < pCp ∧ cachedBlocks = first ∧ (first = 0 ∨ numBlocks ≤ dCp)) ∨
  (numBlocks < pCp ∧ cachedBlocks ≠ first ∧ (numBlocks = dCp ∨ (first = 0 ∧ dCp ∣ numBlocks) ∨ (numBlocks = first + 1
    ∧ dCp < numBlocks ∧ numBlocks < 2 * dCp)))

instance (pCp dCp first cachedBlocks numBlocks : Nat) :
    Decidable (WaitsExactly pCp dCp first cachedBlocks numBlocks) := by
  unfold WaitsExactly
  infer_instance

theorem classes_agree_aligned {D F : Nat} (hD : 0 < D) (hn : 0 < n) :
    (∀ j < n, n / D + (if j % D < n % D then 1 else 0) =
      (F + n) / D + if j % D < (F + n) % D then 1 else 0) ↔ F = 0 ∨ F + n ≤ D := by
  have hs : n % D < D := mod_lt _ hD
  constructor
  · intro h
    by_contra hcon
    by_cases hnD : n < D
    · -- fewer blocks than ranks: every class has one block, and the formula counts two
      have h0 := h 0 hn
      rw [zero_mod, div_eq_of_lt hnD, mod_eq_of_lt hnD, if_pos hn] at h0
      have hdiv := div_add_mod (F + n) D
      have hpos : 1 ≤ (F + n) / D := div_pos (by omega) hD
      have hone : (F + n) / D = 1 := by omega
      rw [hone] at h0 hdiv
      rw [if_pos (by omega)] at h0
      omega
    · -- the class after the last full round
      have hj := h (n % D) (by omega)
      rw [mod_mod, if_neg (lt_irrefl _)] at hj
      have hdn := div_add_mod n D
      have hdN := div_add_mod (F + n) D
      have hle : n / D ≤ (F + n) / D := Nat.div_le_div_right (by omega)
      split at hj
      · omega
      · have heq : n / D = (F + n) / D := by omega
        rw [← heq] at hdN
        omega
  · rintro (rfl | hle) j hj
    · rw [zero_add]
    · rcases lt_or_eq_of_le hle with hlt | heq
      · rw [div_eq_of_lt hlt, div_eq_of_lt (by omega), mod_eq_of_lt hlt,
          mod_eq_of_lt (show n < D by omega), mod_eq_of_lt (show j < D by omega), if_pos hj,
          if_pos (by omega)]
      · rw [heq, Nat.div_self hD, mod_self]
        rcases lt_or_ge n D with hlt | hge
        · rw [div_eq_of_lt hlt, mod_eq_of_lt hlt, mod_eq_of_lt (show j < D by omega), if_pos hj, if_neg (by omega)]
        · rw [show n = D by omega, Nat.div_self hD, mod_self]

theorem classes_agree_shifted {D F : Nat} (hD : 0 < D) (hn : 0 < n) :
    (∀ j < n, n / D + (if j % D < n % D then 1 else 0) =
      (F + n) / D + if (j + D - 1) % D < (F + n) % D then 1 else 0) ↔
    F + n = D ∨ (F = 0 ∧ D ∣ F + n) ∨ (n = 1 ∧ D < F + n ∧ F + n < 2 * D) := by
  have hs : n % D < D := mod_lt _ hD
  have hs' : (F + n) % D < D := mod_lt _ hD
  have hdN := div_add_mod (F + n) D
  have hlast : (0 + D - 1) % D = D - 1 := by rw [zero_add, mod_eq_of_lt (by omega)]
  have hprev : ∀ j, 0 < j → j ≤ D → (j + D - 1) % D = j - 1 := by
    intro j h₁ h₂
    rw [show j + D - 1 = j - 1 + D by omega, add_mod_right, mod_eq_of_lt (by omega)]
  constructor
  · intro h
    have h0 := h 0 hn
    rw [hlast, zero_mod, if_neg (show ¬ D - 1 < (F + n) % D by omega), add_zero] at h0
    rcases lt_or_ge n D with hnD | hnD
    · rw [div_eq_of_lt hnD, mod_eq_of_lt hnD, if_pos hn] at h0
      rw [← h0] at hdN
      by_cases hone : n = 1
      · omega
      · have h1 := h 1 (by omega)
        rw [hprev 1 one_pos hD, div_eq_of_lt hnD, mod_eq_of_lt hnD,
          mod_eq_of_lt (show 1 < D by omega), if_pos (show 1 < n by omega)] at h1
        split at h1 <;> omega
    · have hdn := div_add_mod n D
      have hzero : n % D = 0 := by
        by_contra hne
        have hj := h (n % D) (by omega)
        rw [mod_mod, if_neg (lt_irrefl _)] at hj
        rw [if_pos (show 0 < n % D by omega)] at h0
        omega
      rw [hzero, if_neg (lt_irrefl 0), add_zero] at h0
      have hzero' : (F + n) % D = 0 := by
        by_contra hne
        have hj := h 1 (by omega)
        rw [hprev 1 one_pos hD, hzero, if_neg (not_lt_zero _), if_pos (by omega)] at hj
        omega
      right
      left
      rw [← h0] at hdN
      exact ⟨by omega, dvd_of_mod_eq_zero hzero'⟩
  · rintro (heq | ⟨rfl, hdvd⟩ | ⟨rfl, h₁, h₂⟩) j hj
    · rw [heq, Nat.div_self hD, mod_self, if_neg (Nat.not_lt_zero _)]
      rcases lt_or_ge n D with hlt | hge
      · rw [div_eq_of_lt hlt, mod_eq_of_lt hlt, mod_eq_of_lt (show j < D by omega), if_pos hj]
      · rw [show n = D by omega, Nat.div_self hD, mod_self, if_neg (Nat.not_lt_zero _)]
    · rw [zero_add] at hdvd ⊢
      rw [mod_eq_zero_of_dvd hdvd, if_neg (not_lt_zero _), if_neg (not_lt_zero _)]
    · have hj0 : j = 0 := by omega
      subst hj0
      have hD1 : 1 < D := by omega
      have hdiv : (F + 1) / D = 1 := by
        rw [Nat.div_eq_iff hD]
        omega
      rw [hlast, zero_mod, if_neg (show ¬ D - 1 < (F + 1) % D by omega), hdiv,
        div_eq_of_lt hD1, mod_eq_of_lt hD1, if_pos one_pos]

variable {pCp dCp first numBlocks : Nat}

theorem card_uncachedRanks_small (h : numBlocks < pCp) (c n : Nat) (hn : first + n = numBlocks) :
    (uncachedRanks pCp dCp first numBlocks c).card = Nat.count (fun k => (first + k) % dCp = c) n := by
  have hset : uncachedRanks pCp dCp first numBlocks c =
      (Finset.range numBlocks).filter fun b => first ≤ b ∧ b % dCp = c := by
    ext r
    rw [mem_uncachedRanks, Finset.mem_filter, Finset.mem_range]
    constructor
    · rintro ⟨-, hc, b, hb, rfl⟩
      rw [mod_eq_of_lt (show b < pCp by omega)] at hc ⊢
      exact ⟨hb.2, hb.1, hc⟩
    · rintro ⟨hlt, hle, hc⟩
      exact ⟨by omega, hc, r, ⟨hle, hlt⟩, mod_eq_of_lt (by omega)⟩
  have hbefore : count (fun b => first ≤ b ∧ b % dCp = c) first = 0 := by
    rw [count_eq_card_filter_range, Finset.card_eq_zero, filter_eq_empty_iff]
    intro b hb hcon
    rw [Finset.mem_range] at hb
    omega
  rw [hset, ← count_eq_card_filter_range, ← hn, count_add, hbefore, zero_add]
  simp

theorem transCount_small {p d : ParallelInfo} {len B : Nat} (hc : c < d.cpSize)
    (h : ceilDiv len B < p.cpSize) : transCount p d len B cached c =
      Nat.count (fun k => (ceilDiv cached B + k) % d.cpSize = c) (ceilDiv len B) := by
  have hpos : 0 < d.cpSize := by omega
  have hsplit := count_add (fun b => b % d.cpSize = c) (ceilDiv cached B) (ceilDiv len B)
  rw [count_mod hpos hc, count_mod hpos hc] at hsplit
  unfold ParallelInfo.cpSize at *
  unfold transCount
  dsimp only
  rw [if_neg (by omega), hsplit, cast_add, add_sub_cancel_left]

theorem transCount_large {p d : ParallelInfo} {len B : Nat} (h : p.cpSize ≤ ceilDiv len B) :
    transCount p d len B cached c = (p.cpSize / d.cpSize : Nat) := by
  unfold ParallelInfo.cpSize at *
  unfold transCount
  rw [if_pos h]

section

variable (hdvd : dCp ∣ pCp)

include hdvd

theorem pos_card_uncachedRanks_iff (hpos : 0 < pCp) :
    0 < (uncachedRanks pCp dCp first numBlocks c).card ↔ ∃ b, first ≤ b ∧ b < numBlocks ∧ b % dCp = c := by
  rw [card_pos]
  constructor
  · rintro ⟨r, hr⟩
    obtain ⟨-, hc, b, hb, rfl⟩ := mem_uncachedRanks.mp hr
    exact ⟨b, hb.1, hb.2, by rw [← hc, mod_mod_of_dvd b hdvd]⟩
  · rintro ⟨b, hle, hlt, hc⟩
    exact ⟨b % pCp, mem_uncachedRanks.mpr
      ⟨mod_lt b hpos, by rw [mod_mod_of_dvd b hdvd, hc], b, ⟨hle, hlt⟩, rfl⟩⟩

theorem card_class (hc : c < dCp) : ((Finset.range pCp).filter fun r => r % dCp = c).card = pCp / dCp := by
  rw [← count_eq_card_filter_range, count_mod (by omega) hc, mod_eq_zero_of_dvd hdvd,
    if_neg (not_lt_zero c), add_zero]

theorem waits_large_iff (hpos : 0 < pCp) (hopen : first < numBlocks) :
    (∀ c < dCp, 0 < (uncachedRanks pCp dCp first numBlocks c).card →
      (uncachedRanks pCp dCp first numBlocks c).card = pCp / dCp) ↔ pCp ≤ numBlocks - first ∨ dCp = pCp := by
  have hD : 0 < dCp := pos_of_dvd_of_pos hdvd hpos
  -- a class is complete when each of its ranks holds an uncached block
  have hfull : ∀ c < dCp, ((uncachedRanks pCp dCp first numBlocks c).card = pCp / dCp ↔
      ∀ r < pCp, r % dCp = c → ∃ b, first ≤ b ∧ b < numBlocks ∧ b % pCp = r) := by
    intro c hc
    rw [← card_class hdvd hc, uncachedRanks, ← Finset.filter_filter, card_filter_eq_iff]
    simp only [Finset.mem_filter, Finset.mem_range, mem_Ico, and_imp, and_assoc]
  constructor
  · intro h
    by_contra hcon
    push Not at hcon
    obtain ⟨q, rfl⟩ := hdvd
    have hq : 2 ≤ q := by
      rcases q with _ | _ | q <;> omega
    have h2 : dCp * 2 ≤ dCp * q := mul_le_mul_left _ hq
    have hfar : ∀ b y, b < y → y < b + dCp * q → b % (dCp * q) ≠ y % (dCp * q) := by
      intro b y h₁ h₂ he
      have := le_of_dvd (by omega) ((modEq_iff_dvd' h₁.le).mp he)
      omega
    -- a block outside the interval whose class is met inside it
    obtain ⟨x, y, hx, hx', hy, hclass⟩ : ∃ x y, first ≤ x ∧ x < numBlocks ∧
        (∀ b, first ≤ b → b < numBlocks → b % (dCp * q) ≠ y % (dCp * q)) ∧ x % dCp = y % dCp := by
      rcases lt_or_ge (numBlocks - first) dCp with hsmall | hbig
      · exact ⟨first, first + dCp, le_rfl, hopen, fun b h₁ h₂ => hfar b _ (by omega) (by omega), by simp⟩
      · refine ⟨numBlocks - dCp, numBlocks, by omega, by omega, fun b h₁ h₂ => hfar b _ h₂ (by omega), ?_⟩
        conv_rhs => rw [← Nat.sub_add_cancel (show dCp ≤ numBlocks by omega)]
        rw [add_mod_right]
    have hclass' : y % (dCp * q) % dCp = x % dCp := by rw [mod_mod_of_dvd y (Dvd.intro q rfl), hclass]
    have hcard := h (x % dCp) (mod_lt x hD)
      ((pos_card_uncachedRanks_iff (.intro q rfl) hpos).mpr ⟨x, hx, hx', rfl⟩)
    obtain ⟨b, h₁, h₂, he⟩ := (hfull (x % dCp) (mod_lt x hD)).mp hcard (y % (dCp * q)) (mod_lt y hpos) hclass'
    exact hy b h₁ h₂ he
  · rintro (hwide | rfl) c hc hsome
    · refine (hfull c hc).mpr fun r hr _ => ?_
      -- the block of rank r in the first round of the interval
      have hmod := mod_lt (r + pCp - first % pCp) hpos
      refine ⟨first + (r + pCp - first % pCp) % pCp, by omega, by omega, ?_⟩
      have hfirst := mod_lt first hpos
      rw [add_mod, mod_mod, ← add_mod, ← mod_add_mod,
        show first % pCp + (r + pCp - first % pCp) = r + pCp by omega, add_mod_right,
        mod_eq_of_lt hr]
    · refine (hfull c hc).mpr fun r hr hclass => ?_
      obtain ⟨b, hle, hlt, hb⟩ := (pos_card_uncachedRanks_iff dvd_rfl hpos).mp hsome
      rw [mod_eq_of_lt hr] at hclass
      exact ⟨b, hle, hlt, hb.trans hclass.symm⟩

theorem waits_small_iff (hpos : 0 < pCp) (hopen : first < numBlocks)
    (hsmall : numBlocks < pCp) (hle : first ≤ cached) (hle' : cached ≤ first + 1) :
    (∀ c < dCp, 0 < (uncachedRanks pCp dCp first numBlocks c).card → (uncachedRanks pCp dCp first numBlocks c).card =
        Nat.count (fun k => (cached + k) % dCp = c) numBlocks) ↔ (cached = first ∧ (first = 0 ∨ numBlocks ≤ dCp)) ∨
      (cached ≠ first ∧ (numBlocks = dCp ∨ (first = 0 ∧ dCp ∣ numBlocks) ∨
        (numBlocks = first + 1 ∧ dCp < numBlocks ∧ numBlocks < 2 * dCp))) := by
  have hD : 0 < dCp := pos_of_dvd_of_pos hdvd hpos
  obtain ⟨n, rfl⟩ := Nat.exists_eq_add_of_lt hopen
  have hn : first + (n + 1) = first + n + 1 := rfl
  -- the classes in question are those of the blocks first + j
  have hclasses : (∀ c < dCp, 0 < (uncachedRanks pCp dCp first (first + n + 1) c).card →
      (uncachedRanks pCp dCp first (first + n + 1) c).card =
        count (fun k => (cached + k) % dCp = c) (first + n + 1)) ↔
      ∀ j < n + 1, (n + 1) / dCp + (if j % dCp < (n + 1) % dCp then 1 else 0) =
        count (fun k => (cached + k) % dCp = (first + j) % dCp) (first + n + 1) := by
    constructor
    · intro h j hj
      have hcard := h ((first + j) % dCp) (mod_lt _ hD)
        ((pos_card_uncachedRanks_iff hdvd hpos).mpr ⟨first + j, by omega, by omega, rfl⟩)
      rw [card_uncachedRanks_small hsmall _ _ hn, count_class hD] at hcard
      exact hcard
    · intro h c hc hsome
      obtain ⟨b, hb, hb', rfl⟩ := (pos_card_uncachedRanks_iff hdvd hpos).mp hsome
      obtain ⟨j, rfl⟩ := Nat.exists_eq_add_of_le hb
      rw [card_uncachedRanks_small hsmall _ _ hn, count_class hD]
      exact h j (by omega)
  rw [hclasses]
  rcases eq_or_lt_of_le hle with rfl | hlt
  · have halign := classes_agree_aligned (F := first) hD (succ_pos n)
    simp only [succ_eq_add_one, ← add_assoc] at halign
    simp only [count_class hD, halign, ne_eq, not_true_eq_false, false_and, or_false, true_and]
  · obtain rfl : cached = first + 1 := by omega
    have hshift : ∀ j, (first + j) % dCp = (first + 1 + (j + dCp - 1)) % dCp := by
      intro j
      rw [show first + 1 + (j + dCp - 1) = first + j + dCp by omega, add_mod_right]
    have hcond := classes_agree_shifted (F := first) hD (succ_pos n)
    simp only [succ_eq_add_one, ← add_assoc] at hcond
    simp only [hshift, count_class hD, hcond]
    omega

end

end Formula

/-! ## All ranks of a prefiller -/

structure Prefiller where
  tpSize : Nat
  pcpSize : Nat
  dcpSize : Nat
  pdHeadRatio : Nat
  useMla : Bool
  totalNumKvHeads : Nat
  blockSize : Nat
  pcp_pos : 0 < pcpSize := by decide
  dcp_pos : 0 < dcpSize := by decide
  blockSize_pos : 0 < blockSize := by decide

namespace Prefiller

variable (p : Prefiller)

def info : ParallelInfo := ⟨p.tpSize, p.pcpSize, p.dcpSize, p.useMla, p.pdHeadRatio⟩

def remoteInfo (request : Request) : ParallelInfo :=
  ⟨request.remoteTpSize, request.remotePcpSize, request.remoteDcpSize, p.useMla, p.pdHeadRatio⟩

def group : GroupSpec := ⟨p.blockSize, false, p.blockSize_pos⟩

def worker (r g : Nat) : Worker where
  tpSize := p.tpSize
  pcpSize := p.pcpSize
  dcpSize := p.dcpSize
  tpRank := g * p.dcpSize + r % p.dcpSize
  pcpRank := r / p.dcpSize % p.pcpSize
  dcpRank := r % p.dcpSize
  pdHeadRatio := p.pdHeadRatio
  useMla := p.useMla
  totalNumKvHeads := p.totalNumKvHeads
  groups := [p.group]
  pcp_lt := mod_lt _ p.pcp_pos
  dcp_lt := mod_lt _ p.dcp_pos

abbrev device (request : Request) (c h : Nat) : Device :=
  deviceAt (p.remoteInfo request) [request.remoteHost] request.remotePort c h

abbrev span (r : Nat) (m : ReqMeta) : Worker.Span := (p.worker r 0).span p.blockSize m

theorem cpSize_pos : 0 < p.info.cpSize := Nat.mul_pos p.pcp_pos p.dcp_pos

theorem worker_cpRank {r : Nat} (hr : r < p.info.cpSize) (g : Nat) : (p.worker r g).cpRank = r := by
  have hlt : r / p.dcpSize < p.pcpSize := Nat.div_lt_of_lt_mul (by rw [Nat.mul_comm]; exact hr)
  change r / p.dcpSize % p.pcpSize * p.dcpSize + r % p.dcpSize = r
  rw [mod_eq_of_lt hlt, div_add_mod']

theorem worker_headGroupRank (r g : Nat) : (p.worker r g).headGroupRank = g := by
  change (g * p.dcpSize + r % p.dcpSize - r % p.dcpSize) / p.dcpSize = g
  rw [Nat.add_sub_cancel, Nat.mul_div_cancel _ p.dcp_pos]

theorem worker_decoderGroups (r g : Nat) (m : ReqMeta) (reqIdx : Nat) :
    (p.worker r g).decoderGroups m reqIdx = (p.worker 0 g).decoderGroups m reqIdx := by
  unfold Worker.decoderGroups Worker.selectCpGroups
  rw [worker_headGroupRank, worker_headGroupRank]
  rfl

def dGroups (g : Nat) (m : ReqMeta) (reqIdx : Nat) : List Nat :=
  match (p.worker 0 g).decoderGroups m reqIdx with
  | .ok (some (_, dGroups)) => dGroups
  | _ => []

def sends (steps : List (ReqMeta × Nat)) (device : Device) (rank : Path) : Bool :=
  steps.any fun s =>
    match (p.worker rank.1 rank.2).doneSignals 0 s.1 s.2 with
    | .ok l => device ∈ l.map Prod.fst
    | .error _ => false

def ranks : Finset Path := Finset.range p.info.cpSize ×ˢ Finset.range p.info.headGroupSize

def senders (steps : List (ReqMeta × Nat)) (device : Device) : Finset Path :=
  p.ranks.filter fun rank => p.sends steps device rank

/-- No rank raises, and every decoder head group is served by `pd_head_ratio` prefill head groups. -/
structure Accepts (request : Request) (steps : List (ReqMeta × Nat)) : Prop where
  pcp_pos : 0 < request.remotePcpSize
  dcp_pos : 0 < request.remoteDcpSize
  cp_dvd : (p.remoteInfo request).cpSize ∣ p.info.cpSize
  groups_pos : 0 < (p.remoteInfo request).headGroupSize
  ratio_pos : 0 < p.pdHeadRatio
  ok : ∀ rank ∈ p.ranks, ∀ s ∈ steps, ((p.worker rank.1 rank.2).doneSignals 0 s.1 s.2).isOk
  heads : ∀ s ∈ steps, ∀ h < (p.remoteInfo request).headGroupSize,
    ((Finset.range p.info.headGroupSize).filter fun g => h ∈ p.dGroups g s.1 s.2).card = p.pdHeadRatio

variable {p} in
theorem remoteInfo_eq {request : Request} {unit prev : Nat} {m : ReqMeta}
    (h : Step request unit prev m) (r g : Nat) : (p.worker r g).remoteInfo m = p.remoteInfo request := by
  unfold Worker.remoteInfo remoteInfo
  rw [h.tp, h.pcp, h.dcp]
  rfl

variable {p} {request : Request} {steps : List (ReqMeta × Nat)} (hacc : p.Accepts request steps)
  {unit : Nat} (hsteps : Progress request unit 0 (steps.map Prod.fst)) (hunit : unit ∣ p.blockSize)

include hacc hsteps

variable {s : ReqMeta × Nat}

theorem exists_signals {rank : Path} (hrank : rank ∈ p.ranks) (hs : s ∈ steps) :
    ∃ l, (p.worker rank.1 rank.2).doneSignals 0 s.1 s.2 = .ok l ∧ (∀ device, device ∈ l.map Prod.fst ↔ (p.span rank.1
        s.1).chunkFinish = true ∧ ∃ b ∈ (p.span rank.1 s.1).blocks, b % p.info.cpSize = rank.1 ∧ ∃ h ∈ p.dGroups
        rank.2 s.1 s.2, p.device request (b % (p.remoteInfo request).cpSize) h = device) ∧
      ∀ device count, (device, count) ∈ l → count = (dTransCountMapping p.info (p.remoteInfo request)
        [request.remoteHost] request.remotePort request.numTokens p.blockSize
          request.remoteCachedTokens).getD device 0 := by
  obtain ⟨r, g⟩ := rank
  have hr : r < p.info.cpSize := by
    simp only [ranks, Finset.mem_product, Finset.mem_range] at hrank
    exact hrank.1
  have hok := hacc.ok _ hrank s hs
  obtain ⟨prev, hstep⟩ := hsteps.step_of_mem (mem_map_of_mem hs)
  cases hl : (p.worker r g).doneSignals 0 s.1 s.2 with
  | error e => simp [hl, Except.isOk, Except.toBool] at hok
  | ok l =>
    obtain ⟨hdev, hcount⟩ := Worker.doneSignals_spec p.group rfl rfl hl
    rw [remoteInfo_eq hstep, hstep.host, hstep.port] at hdev hcount
    rw [hstep.promptLen, hstep.cached] at hcount
    refine ⟨l, rfl, fun device => ?_, hcount⟩
    rw [hdev, worker_decoderGroups, worker_cpRank p hr]
    refine and_congr Iff.rfl ?_
    unfold dGroups
    constructor
    · rintro ⟨selected, dGroups, hdec, hb⟩
      simp only [hdec]
      exact hb
    · intro hb
      split at hb
      · rename_i selected dGroups hdec
        exact ⟨selected, dGroups, hdec, hb⟩
      · simp at hb

omit hacc in
theorem dGroups_lt (hs : s ∈ steps) {g h : Nat} (hh : h ∈ p.dGroups g s.1 s.2) :
    h < (p.remoteInfo request).headGroupSize := by
  obtain ⟨prev, hstep⟩ := hsteps.step_of_mem (mem_map_of_mem hs)
  unfold dGroups at hh
  split at hh
  · rename_i selected dGroups hdec
    have hlt := (Worker.decoderGroups_spec hdec).2 h hh
    rw [remoteInfo_eq hstep] at hlt
    exact hlt
  · cases hh

theorem sends_iff {rank : Path} (hrank : rank ∈ p.ranks) (device : Device) :
    p.sends steps device rank = true ↔ ∃ s ∈ steps, (p.span rank.1 s.1).chunkFinish = true ∧
      ∃ b ∈ (p.span rank.1 s.1).blocks, b % p.info.cpSize = rank.1 ∧
        ∃ h ∈ p.dGroups rank.2 s.1 s.2, p.device request (b % (p.remoteInfo request).cpSize) h = device := by
  unfold sends
  rw [any_eq_true]
  refine exists_congr fun s => and_congr_right fun hs => ?_
  obtain ⟨l, hl, hdev, -⟩ := exists_signals hacc hsteps hrank hs
  simp only [hl, decide_eq_true_eq]
  exact hdev device

def firstBlock (p : Prefiller) (request : Request) : Nat := request.remoteCachedTokens / p.blockSize

def numBlocks (p : Prefiller) (request : Request) : Nat := ceilDiv request.numTokens p.blockSize

abbrev uncached (p : Prefiller) (request : Request) (c : Nat) : Finset Nat :=
  uncachedRanks p.info.cpSize (p.remoteInfo request).cpSize (p.firstBlock request) (p.numBlocks request) c

include hunit

omit hacc in
theorem mem_blocks_iff (r b : Nat) : (∃ s ∈ steps, b ∈ (p.span r s.1).blocks) ↔
      p.firstBlock request ≤ b ∧ b < p.numBlocks request := by
  have hall := hsteps.blocks (w := p.worker r 0) hunit p.blockSize_pos
  rw [Nat.zero_div, Nat.max_zero, flatMap_map] at hall
  rw [← mem_flatMap, hall, mem_range'_1, firstBlock, numBlocks]
  omega

omit hacc in
theorem step_unique (r : Nat) {b : Nat} {t : ReqMeta × Nat} (hs : s ∈ steps) (ht : t ∈ steps)
    (hbs : b ∈ (p.span r s.1).blocks) (hbt : b ∈ (p.span r t.1).blocks) : s = t := by
  have hall := hsteps.blocks (w := p.worker r 0) hunit p.blockSize_pos
  rw [flatMap_map] at hall
  have hnodup : (steps.flatMap fun s => (p.span r s.1).blocks).Nodup := hall ▸ nodup_range'
  by_contra hne
  have : Std.Symm (Function.onFun List.Disjoint
      fun s : ReqMeta × Nat => (p.span r s.1).blocks) :=
    ⟨fun _ _ hd => List.Disjoint.symm hd⟩
  exact (nodup_flatMap.mp hnodup).2.forall hs ht hne hbs hbt

theorem sends_of_uncached {r b : Nat} (hr : r < p.info.cpSize) (hb : p.firstBlock request ≤ b)
    (hb' : b < p.numBlocks request) (hown : b % p.info.cpSize = r) :
    ∃ s ∈ steps, ∀ g < p.info.headGroupSize, ∀ device, p.sends steps device (r, g) = true ↔ ∃ h ∈ p.dGroups g s.1 s.2,
        p.device request (r % (p.remoteInfo request).cpSize) h = device := by
  have hclass : ∀ b, b % p.info.cpSize = r →
      b % (p.remoteInfo request).cpSize = r % (p.remoteInfo request).cpSize := by
    rintro b rfl
    rw [mod_mod_of_dvd b hacc.cp_dvd]
  -- the last block of the rank
  obtain ⟨last, hlast, hlastown, hmax⟩ : ∃ last, last < p.numBlocks request ∧
      last % p.info.cpSize = r ∧ ∀ b < p.numBlocks request, b % p.info.cpSize = r → b ≤ last := by
    refine ⟨findGreatest (fun b => b % p.info.cpSize = r) (p.numBlocks request - 1), ?_, ?_, ?_⟩
    · have := findGreatest_le (P := fun b => b % p.info.cpSize = r) (p.numBlocks request - 1)
      omega
    · exact findGreatest_spec (P := fun b => b % p.info.cpSize = r) (m := b) (by omega) hown
    · intro b hlt hb
      exact le_findGreatest (by omega) hb
  have hfirst : p.firstBlock request ≤ last := le_trans hb (hmax b hb' hown)
  obtain ⟨s, hs, hmem⟩ := (mem_blocks_iff hsteps hunit r last).mpr ⟨hfirst, hlast⟩
  have hfinish : ∀ t ∈ steps, (p.span r t.1).chunkFinish = true ↔ last < (p.span r t.1).toTransIdx := by
    intro t ht
    obtain ⟨prev, hstep⟩ := hsteps.step_of_mem (mem_map_of_mem ht)
    rw [Worker.span_chunkFinish hstep p.blockSize_pos, worker_cpRank p hr]
    exact ⟨fun hall => hall last hlast hlastown, fun hlt b hb hbown => lt_of_le_of_lt (hmax b hb hbown) hlt⟩
  refine ⟨s, hs, fun g hg device => ?_⟩
  have hrank : (r, g) ∈ p.ranks := by simp [ranks, hr, hg]
  rw [sends_iff hacc hsteps hrank]
  constructor
  · rintro ⟨t, ht, hfin, b', hmem', hown', hdev⟩
    -- an earlier block of the rank, in a step that also reaches the last one
    have hle : b' ≤ last := hmax b' ((mem_blocks_iff hsteps hunit r b').mp ⟨t, ht, hmem'⟩).2 hown'
    have hlt := (hfinish t ht).mp hfin
    have hmem'' : last ∈ (p.span r t.1).blocks := by
      simp only [Worker.Span.blocks, mem_range'_1] at hmem' ⊢
      omega
    obtain rfl := step_unique hsteps hunit r ht hs hmem'' hmem
    rw [hclass b' hown'] at hdev
    exact hdev
  · intro hdev
    refine ⟨s, hs, ?_, last, hmem, hlastown, ?_⟩
    · rw [hfinish s hs]
      simp only [Worker.Span.blocks, mem_range'_1] at hmem
      omega
    · rw [hclass last hlastown]
      exact hdev

theorem not_sends_of_cached {r g : Nat} (hrank : (r, g) ∈ p.ranks)
    (hcached : ∀ b, p.firstBlock request ≤ b → b < p.numBlocks request → b % p.info.cpSize ≠ r)
    (device : Device) : p.sends steps device (r, g) = false := by
  rw [Bool.eq_false_iff]
  intro hsend
  obtain ⟨s, hs, -, b, hb, hown, -⟩ := (sends_iff hacc hsteps hrank device).mp hsend
  obtain ⟨h₁, h₂⟩ := (mem_blocks_iff hsteps hunit r b).mp ⟨s, hs, hb⟩
  exact hcached b h₁ h₂ hown

theorem card_senders {c h : Nat} (hc : c < (p.remoteInfo request).cpSize)
    (hh : h < (p.remoteInfo request).headGroupSize) : (p.senders steps (p.device request c h)).card =
      (p.uncached request c).card * p.pdHeadRatio := by
  set device := p.device request c h with hdevice
  have hrow : ∀ r ∈ Finset.range p.info.cpSize,
      (∑ g ∈ range p.info.headGroupSize, if p.sends steps device (r, g) = true then 1 else 0) =
        if r ∈ p.uncached request c then p.pdHeadRatio else 0 := by
    intro r hr
    rw [Finset.mem_range] at hr
    rw [← card_filter]
    by_cases hun : ∃ b, (p.firstBlock request ≤ b ∧ b < p.numBlocks request) ∧ b % p.info.cpSize = r
    · obtain ⟨b, hb, hown⟩ := hun
      obtain ⟨s, hs, hsend⟩ := sends_of_uncached hacc hsteps hunit hr hb.1 hb.2 hown
      have hfilter : ((Finset.range p.info.headGroupSize).filter fun g =>
          p.sends steps device (r, g) = true) = (Finset.range p.info.headGroupSize).filter fun g =>
            r % (p.remoteInfo request).cpSize = c ∧ h ∈ p.dGroups g s.1 s.2 := by
        refine filter_congr fun g hg => ?_
        rw [hsend g (Finset.mem_range.mp hg)]
        constructor
        · rintro ⟨h', hmem, he⟩
          have hlt := dGroups_lt hsteps hs hmem
          obtain ⟨h₁, rfl⟩ := deviceAt_inj hacc.dcp_pos hlt hh he
          exact ⟨h₁, hmem⟩
        · rintro ⟨rfl, hmem⟩
          exact ⟨h, hmem, rfl⟩
      rw [hfilter]
      by_cases hclass : r % (p.remoteInfo request).cpSize = c
      · simp only [hclass, true_and]
        rw [hacc.heads s hs h hh, if_pos (mem_uncachedRanks.mpr ⟨hr, hclass, b, hb, hown⟩)]
      · rw [if_neg fun hcon => hclass (mem_uncachedRanks.mp hcon).2.1]
        simp [hclass]
    · rw [if_neg fun hcon => hun (mem_uncachedRanks.mp hcon).2.2, Finset.card_eq_zero, filter_eq_empty_iff]
      intro g hg hsend
      have hrank : (r, g) ∈ p.ranks := by simp [ranks, hr, Finset.mem_range.mp hg]
      rw [not_sends_of_cached hacc hsteps hunit hrank (fun b h₁ h₂ he => hun ⟨b, ⟨h₁, h₂⟩, he⟩) device] at hsend
      cases hsend
  unfold senders ranks
  rw [card_filter, sum_product, sum_congr rfl hrow, ← sum_filter, sum_const]
  congr 2
  exact filter_mem_eq_inter.trans (inter_eq_right.mpr (filter_subset _ _))

omit hsteps hunit in
theorem waitsExactly_iff : (∀ c < (p.remoteInfo request).cpSize, 0 < (p.uncached request c).card →
      transCount p.info (p.remoteInfo request) request.numTokens p.blockSize
        request.remoteCachedTokens c = (p.uncached request c).card) ↔
      WaitsExactly p.info.cpSize (p.remoteInfo request).cpSize (p.firstBlock request)
        (ceilDiv request.remoteCachedTokens p.blockSize) (p.numBlocks request) := by
  have hpos := p.cpSize_pos
  have hdvd := hacc.cp_dvd
  have hle : p.firstBlock request ≤ ceilDiv request.remoteCachedTokens p.blockSize := ceilDiv_le p.blockSize_pos
  have hle' : ceilDiv request.remoteCachedTokens p.blockSize ≤ p.firstBlock request + 1 := by
    unfold ceilDiv firstBlock
    rw [← add_div_right _ p.blockSize_pos]
    exact Nat.div_le_div_right (by omega)
  unfold WaitsExactly
  rcases lt_or_ge (p.firstBlock request) (p.numBlocks request) with hopen | hclosed
  · rcases lt_or_ge (p.numBlocks request) p.info.cpSize with hsmall | hlarge
    · refine (forall₂_congr fun c hc => imp_congr_right fun _ => ?_).trans
        ((waits_small_iff hdvd hpos hopen hsmall hle hle').trans ?_)
      · rw [transCount_small hc hsmall, Int.natCast_inj, eq_comm]
        rfl
      · simp only [not_le.mpr hopen, not_le.mpr hsmall, hsmall, false_and, false_or, true_and]
    · refine (forall₂_congr fun c hc => imp_congr_right fun _ => ?_).trans
        ((waits_large_iff hdvd hpos hopen).trans ?_)
      · rw [transCount_large hlarge, Int.natCast_inj, eq_comm]
      · simp only [not_le.mpr hopen, not_lt.mpr hlarge, hlarge, false_and, false_or, or_false, true_and]
  · refine iff_of_true (fun c _ hsome => ?_) (.inl hclosed)
    obtain ⟨b, h₁, h₂, -⟩ := (pos_card_uncachedRanks_iff hdvd hpos).mp hsome
    omega

end Prefiller

/-! ## The wait count -/

def stepsOf (r : ReqId) (metas : List (Dict ReqId ReqMeta)) : List (ReqMeta × Nat) :=
  metas.filterMap fun requests => (requests.get? r).map fun m => (m, requests.keys.idxOf r)

theorem map_fst_stepsOf (r : ReqId) (metas : List (Dict ReqId ReqMeta)) :
    (stepsOf r metas).map Prod.fst = metasOf r metas := by
  unfold stepsOf metasOf
  rw [map_filterMap]
  congr 1
  funext requests
  cases requests.get? r <;> rfl

/-- **The decoder waits for exactly the ranks that signal**, so that it marks the request done when
the last of them has signalled, if and only if `WaitsExactly` holds of the number of ranks and
blocks. -/
theorem waits_for_signals_iff {p : Prefiller} {reqs : NeedSend} {r : ReqId} {request : Request}
    {blockIds : List (List Nat)} {hit : Nat} (hhit : hit < request.numTokens)
    {outs : List SchedulerOutput} (houts : Chunked r request.numTokens hit outs)
    (hacc : p.Accepts request (stepsOf r (produce [p.blockSize]
      (updateStateAfterAlloc reqs r request blockIds) outs))) :
    let steps := stepsOf r (produce [p.blockSize] (updateStateAfterAlloc reqs r request blockIds) outs)
    (∀ device, ∀ rank ∈ p.senders steps device, ∀ s ∈ steps, ∀ l count,
      (p.worker rank.1 rank.2).doneSignals 0 s.1 s.2 = .ok l → (device, count) ∈ l →
        count = (p.senders steps device).card ∧ DoneAtLast r count (p.senders steps device)) ↔
      WaitsExactly (p.pcpSize * p.dcpSize) (request.remotePcpSize * request.remoteDcpSize)
        (request.remoteCachedTokens / p.blockSize) (ceilDiv request.remoteCachedTokens p.blockSize)
        (ceilDiv request.numTokens p.blockSize) := by
  intro steps
  have hunit : minBlockSize [p.blockSize] ∣ p.blockSize := dvd_rfl
  have hsteps : Progress request (minBlockSize [p.blockSize]) 0 (steps.map Prod.fst) := by
    have hinfo : (updateStateAfterAlloc reqs r request blockIds).get? r = some
        ⟨blockIds, request.remoteCachedTokens, 0, request⟩ := by
      unfold updateStateAfterAlloc
      rw [Dict.get?_set, if_pos rfl]
    rw [map_fst_stepsOf]
    exact progress_of_chunked hinfo hhit (zero_le hit) houts
  change _ ↔ WaitsExactly p.info.cpSize (p.remoteInfo request).cpSize (p.firstBlock request) _
    (p.numBlocks request)
  rw [← Prefiller.waitsExactly_iff hacc]
  constructor
  · intro h c hc hsome
    -- the device of head group 0
    have hcard := Prefiller.card_senders hacc hsteps hunit hc hacc.groups_pos
    have hratio := hacc.ratio_pos
    obtain ⟨rank, hrank⟩ : (p.senders steps (p.device request c 0)).Nonempty := by
      rw [← card_pos, hcard]
      exact mul_pos hsome hratio
    obtain ⟨hmem, hsend⟩ := mem_filter.mp hrank
    obtain ⟨s, hs, hsend⟩ := any_eq_true.mp hsend
    obtain ⟨l, hl, -, hcount⟩ := Prefiller.exists_signals hacc hsteps hmem hs
    simp only [hl, decide_eq_true_eq] at hsend
    obtain ⟨⟨_, count⟩, hentry, rfl⟩ := mem_map.mp hsend
    have hval := (h _ rank hrank s hs l count hl hentry).1
    rw [hcount _ _ hentry, dTransCountMapping_getD _ _ _ _ _ _ hc hacc.groups_pos, hcard] at hval
    exact mul_right_cancel₀ (Int.natCast_ne_zero.mpr hratio.ne') hval
  · intro h device rank hrank s hs l count hl hmem
    obtain ⟨hin, hsend⟩ := Finset.mem_filter.mp hrank
    -- the device is one of the decoder's
    obtain ⟨s', hs', -, b, -, -, g, hg, hdev⟩ := (Prefiller.sends_iff hacc hsteps hin device).mp hsend
    have hc : b % (p.remoteInfo request).cpSize < (p.remoteInfo request).cpSize :=
      mod_lt _ (mul_pos hacc.pcp_pos hacc.dcp_pos)
    have hg' := Prefiller.dGroups_lt hsteps hs' hg
    have hcard := Prefiller.card_senders hacc hsteps hunit hc hg'
    rw [hdev] at hcard
    have hpos : 0 < (p.senders steps device).card := card_pos.mpr ⟨rank, hrank⟩
    have hformula := h _ hc (Nat.pos_of_mul_pos_right (hcard ▸ hpos))
    obtain ⟨l', hl', -, hcount⟩ := Prefiller.exists_signals hacc hsteps hin hs
    cases hl.symm.trans hl'
    have hval : count = (p.senders steps device).card := by
      rw [hcount _ _ hmem, hcard, ← hdev, dTransCountMapping_getD _ _ _ _ _ _ hc hg', hformula]
      rfl
    exact ⟨hval, (doneAtLast_iff ⟨rank, hrank⟩).mpr hval⟩

/-! ## Instances -/

def fourRanks : Prefiller where
  tpSize := 4
  pcpSize := 1
  dcpSize := 4
  pdHeadRatio := 1
  useMla := true
  totalNumKvHeads := 1
  blockSize := 1
  pcp_pos := Nat.one_pos
  blockSize_pos := Nat.one_pos

def fourTokens (cached : Nat) : Request := { promptOf 4 cached with remoteBlockIds := [[0, 1, 2, 3]] }

def fourTokenSteps (cached : Nat) : List (ReqMeta × Nat) :=
  stepsOf 0 (produce [1] (updateStateAfterAlloc ∅ 0 (fourTokens cached) [[7]]) [chunkStep 0 4])

theorem fourRanks_accepts (cached : Nat) (h : cached ≤ 3) :
    fourRanks.Accepts (fourTokens cached) (fourTokenSteps cached) := by
  interval_cases cached <;> exact ⟨by decide, by decide, by decide, by decide, by decide, by decide, by decide⟩

theorem waits_for_signals_iff_uncached : fourRanks.Accepts (fourTokens 0) (fourTokenSteps 0) ∧
    ∀ device, ∀ rank ∈ fourRanks.senders (fourTokenSteps 0) device, ∀ s ∈ fourTokenSteps 0, ∀ l count,
      (fourRanks.worker rank.1 rank.2).doneSignals 0 s.1 s.2 = .ok l → (device, count) ∈ l →
        count = (fourRanks.senders (fourTokenSteps 0) device).card ∧
          DoneAtLast 0 count (fourRanks.senders (fourTokenSteps 0) device) :=
  ⟨fourRanks_accepts 0 (by decide), (@waits_for_signals_iff fourRanks ∅ 0 (fourTokens 0) [[7]] 0 (by decide)
    [chunkStep 0 4] ⟨by decide, rfl, rfl, by decide, rfl⟩ (fourRanks_accepts 0 (by decide))).mpr (by decide)⟩

/-- Three of four blocks are cached on the decoder: only the last rank signals, and the decoder
waits for four. -/
theorem waits_for_silent_ranks : fourRanks.Accepts (fourTokens 3) (fourTokenSteps 3) ∧
      fourRanks.senders (fourTokenSteps 3) ("decoder", 0) = {(3, 0)} ∧ (∀ s ∈ fourTokenSteps 3,
        (fourRanks.worker 3 0).doneSignals 0 s.1 s.2 = .ok [(("decoder", 0), 4)]) ∧
      0 ∉ (Receiver.afterDone 0 4 [(3, 0)]).doneRequests :=
  ⟨fourRanks_accepts 3 le_rfl, by decide, by decide, by decide⟩

end VllmAscend.KvTransfer.Layerwise
