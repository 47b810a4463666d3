import VllmAscend.KvTransfer.Mooncake.CpPorts

/-!
# Which ports a decoder rank is mapped to

Workers of one engine are numbered by tensor parallel rank inside prefill context parallel rank. A head group is a
run of ranks that hold the same heads.
-/

namespace VllmAscend.KvTransfer.Mooncake

open List Nat RoundRobin CpSizes

/-! ## One engine -/

/-- An engine that the model runs on: ranks hold whole heads or whole replicas, and a context
parallel group does not cross the ranks of a head. -/
structure CpLayout (heads : Nat) (s : CpSizes) : Prop where
  heads_pos : 0 < heads
  tp_pos : 0 < s.tpSize
  pcp_pos : 0 < s.pcpSize
  dcp_pos : 0 < s.dcpSize
  fits : Commensurable s.tpSize heads
  dcp_dvd : s.dcpSize ∣ s.tpSize / min heads s.tpSize

def headGroup (heads tpSize j : Nat) : List Nat :=
  (range (heads / min heads tpSize)).map (j * (heads / min heads tpSize) + ·)

namespace CpSizes

variable (s : CpSizes)

def span (heads : Nat) : Nat := s.tpSize / min heads s.tpSize

def workerPort (tpRank pcpRank : Nat) : Nat := s.portBase + pcpRank * s.tpSize + tpRank

def cpRank (tpRank pcpRank : Nat) : Nat := pcpRank * s.dcpSize + tpRank % s.dcpSize

def groupPort (heads j ρ i : Nat) : Nat :=
  s.workerPort (s.span heads * j + s.dcpSize * ρ + i % s.dcpSize) (i / s.dcpSize)

def tpRankOf (port : Nat) : Nat := (port - s.portBase) % s.tpSize

def cpRankOf (port : Nat) : Nat := s.cpRank (s.tpRankOf port) ((port - s.portBase) / s.tpSize)

def headGroupAt (heads j : Nat) : HeadGroup :=
  { heads := headGroup heads s.tpSize j
    cpGroups := (range (s.span heads / s.dcpSize)).map fun ρ => s.cpGroup (s.span heads * j) ρ
    selectCpGroupsId := 0 }

variable {s} {heads : Nat}

theorem workerPort_decode {t c : Nat} (ht : t < s.tpSize) :
    s.tpRankOf (s.workerPort t c) = t ∧ (s.workerPort t c - s.portBase) / s.tpSize = c := by
  have hsub : s.workerPort t c - s.portBase = c * s.tpSize + t := by
    unfold workerPort
    omega
  rw [tpRankOf, hsub, mul_add_mod_of_lt ht, mul_add_div_of_lt ht]
  exact ⟨rfl, rfl⟩

theorem cpGroup_eq (j ρ : Nat) : s.cpGroup (s.span heads * j) ρ = (range s.cpSize).map (s.groupPort heads j ρ) := by
  rw [cpGroup, flatMap_range_map]
  apply map_congr_left
  intro i _
  unfold groupPort workerPort
  rw [mul_comm s.tpSize]
  omega

end CpSizes

namespace CpLayout

variable {heads : Nat} {s : CpSizes} (h : CpLayout heads s)

include h

theorem groups_pos : 0 < min heads s.tpSize := lt_min h.heads_pos h.tp_pos

theorem groups_dvd_tp : min heads s.tpSize ∣ s.tpSize := by
  rcases le_total heads s.tpSize with hle | hle
  · rw [min_eq_left hle]
    exact h.fits.swap.dvd_of_le h.heads_pos hle
  · rw [min_eq_right hle]

theorem groups_dvd_heads : min heads s.tpSize ∣ heads := by
  rcases le_total heads s.tpSize with hle | hle
  · rw [min_eq_left hle]
  · rw [min_eq_right hle]
    exact h.fits.dvd_of_le h.tp_pos hle

theorem groups_mul_span : min heads s.tpSize * s.span heads = s.tpSize := Nat.mul_div_cancel' h.groups_dvd_tp

theorem groups_mul_heads : min heads s.tpSize * (heads / min heads s.tpSize) = heads :=
  Nat.mul_div_cancel' h.groups_dvd_heads

theorem span_pos : 0 < s.span heads := Nat.div_pos (Nat.min_le_right _ _) h.groups_pos

theorem headsPerGroup_pos : 0 < heads / min heads s.tpSize := Nat.div_pos (Nat.min_le_left _ _) h.groups_pos

theorem headsPerGroup_eq : heads / min heads s.tpSize = max 1 (heads / s.tpSize) := by
  rcases le_or_gt s.tpSize heads with hle | hgt
  · have hpos : 1 ≤ heads / s.tpSize := div_pos hle h.tp_pos
    rw [min_eq_right hle, max_eq_right hpos]
  · rw [min_eq_left hgt.le, Nat.div_self h.heads_pos, div_eq_of_lt hgt]
    rfl

variable {j ρ t c : Nat}

theorem rank_digits {y : Nat} (hj : j < min heads s.tpSize) (hρ : ρ < s.span heads / s.dcpSize) (hy : y < s.dcpSize) :
    s.span heads * j + s.dcpSize * ρ + y < s.tpSize ∧ (s.span heads * j + s.dcpSize * ρ + y) / s.span heads = j ∧
    (s.span heads * j + s.dcpSize * ρ + y) % s.span heads / s.dcpSize = ρ ∧
    (s.span heads * j + s.dcpSize * ρ + y) % s.dcpSize = y := by
  obtain ⟨q, hq⟩ : s.dcpSize ∣ s.span heads := h.dcp_dvd
  rw [hq, Nat.mul_div_cancel_left q h.dcp_pos] at hρ
  have hinner : s.dcpSize * ρ + y < s.span heads := by
    have hle : s.dcpSize * (ρ + 1) ≤ s.dcpSize * q := mul_le_mul_left _ hρ
    rw [mul_add] at hle
    omega
  have houter : s.span heads * (j + 1) ≤ s.tpSize := by
    rw [← h.groups_mul_span, mul_comm (min heads s.tpSize)]
    exact mul_le_mul_left _ hj
  rw [mul_add] at houter
  refine ⟨by omega, ?_, ?_, ?_⟩
  · rw [add_assoc, mul_comm, mul_add_div_of_lt hinner]
  · rw [add_assoc, mul_add_mod, mod_eq_of_lt hinner, mul_comm, mul_add_div_of_lt hy]
  · rw [hq, mul_assoc, ← mul_add, mul_add_mod, mod_eq_of_lt hy]

theorem rank_eq (t : Nat) : s.span heads * (t / s.span heads) +
    s.dcpSize * (t % s.span heads / s.dcpSize) + t % s.dcpSize = t := by
  have hmod : t % s.dcpSize = t % s.span heads % s.dcpSize := (mod_mod_of_dvd t h.dcp_dvd).symm
  rw [hmod, add_assoc, div_add_mod, div_add_mod]

theorem headsOf_eq (t : Nat) : headsOf heads s.tpSize t = headGroup heads s.tpSize (t / s.span heads) := by
  unfold headsOf headGroup CpSizes.span
  split
  · rename_i hle
    rw [min_eq_right hle, Nat.div_self h.tp_pos, Nat.div_one]
  · rw [min_eq_left (by omega), Nat.div_self h.heads_pos]
    simp

theorem groupPort_decode (hj : j < min heads s.tpSize) (hρ : ρ < s.span heads / s.dcpSize) (i : Nat) :
    s.cpRankOf (s.groupPort heads j ρ i) = i ∧
    headsOf heads s.tpSize (s.tpRankOf (s.groupPort heads j ρ i)) = headGroup heads s.tpSize j := by
  obtain ⟨hlt, hgroup, -, hplace⟩ := h.rank_digits hj hρ (mod_lt i h.dcp_pos)
  obtain ⟨htp, hpcp⟩ := workerPort_decode (c := i / s.dcpSize) hlt
  refine ⟨?_, ?_⟩
  · unfold cpRankOf groupPort cpRank
    rw [htp, hpcp, hplace, div_add_mod']
  · unfold groupPort
    rw [htp, h.headsOf_eq, hgroup]

theorem nodup_groupPort (hj : j < min heads s.tpSize)
    (hρ : ρ < s.span heads / s.dcpSize) : ((range s.cpSize).map (s.groupPort heads j ρ)).Nodup := by
  refine .map_on (fun i _ i' _ heq => ?_) nodup_range
  rw [← (h.groupPort_decode hj hρ i).1, heq, (h.groupPort_decode hj hρ i').1]

theorem headGroup_lt (ht : t < s.tpSize) : t / s.span heads < min heads s.tpSize := by
  rw [div_lt_iff_lt_mul h.span_pos, h.groups_mul_span]
  exact ht

theorem cpRank_lt (hc : c < s.pcpSize) : s.cpRank t c < s.cpSize := by
  have hle : (c + 1) * s.dcpSize ≤ s.pcpSize * s.dcpSize := mul_le_mul_right _ hc
  have hmod := mod_lt t h.dcp_pos
  rw [add_mul] at hle
  unfold cpRank cpSize
  omega

theorem exists_cpRank {b ℓ : Nat} (hb : b < s.tpSize / s.dcpSize) (hℓ : ℓ < s.cpSize) :
    ∃ t c, t < s.tpSize ∧ t / s.dcpSize = b ∧ c < s.pcpSize ∧ s.cpRank t c = ℓ := by
  have hmod := mod_lt ℓ h.dcp_pos
  refine ⟨b * s.dcpSize + ℓ % s.dcpSize, ℓ / s.dcpSize, ?_, mul_add_div_of_lt hmod, ?_, ?_⟩
  · have hle : (b + 1) * s.dcpSize ≤ s.tpSize := (le_div_iff_mul_le h.dcp_pos).mp hb
    rw [add_mul] at hle
    omega
  · rw [div_lt_iff_lt_mul h.dcp_pos]
    exact hℓ
  · rw [cpRank, mul_add_mod_of_lt hmod, div_add_mod']

theorem cpRank_inj {t' c' : Nat} (hgroup : t / s.dcpSize = t' / s.dcpSize)
    (heq : s.cpRank t c = s.cpRank t' c') : t = t' ∧ c = c' := by
  have hmod := mod_lt t h.dcp_pos
  have hmod' := mod_lt t' h.dcp_pos
  unfold cpRank at heq
  have hc : c = c' := by rw [← mul_add_div_of_lt (k := c) hmod, heq, mul_add_div_of_lt hmod']
  subst hc
  refine ⟨?_, rfl⟩
  rw [← div_add_mod' t s.dcpSize, ← div_add_mod' t' s.dcpSize, hgroup, add_left_cancel heq]

theorem place_headGroupAt (ht : t < s.tpSize) (hc : c < s.pcpSize) :
    (s.headGroupAt heads (t / s.span heads)).Place (s.workerPort t c)
      (t % s.span heads / s.dcpSize) (s.cpRank t c) s.cpSize := by
  have hj : t / s.span heads < min heads s.tpSize := h.headGroup_lt ht
  have hρ : t % s.span heads / s.dcpSize < s.span heads / s.dcpSize := by
    obtain ⟨q, hq⟩ : s.dcpSize ∣ s.span heads := h.dcp_dvd
    rw [Nat.div_lt_iff_lt_mul h.dcp_pos, hq, Nat.mul_div_cancel_left q h.dcp_pos, Nat.mul_comm q, ← hq]
    exact mod_lt t h.span_pos
  have hy : t % s.dcpSize < s.dcpSize := mod_lt t h.dcp_pos
  have hget : ∀ ρ' g, (s.headGroupAt heads (t / s.span heads)).cpGroups[ρ']? = some g →
      ρ' < s.span heads / s.dcpSize ∧
      g = (range s.cpSize).map (s.groupPort heads (t / s.span heads) ρ') := by
    intro ρ' g hg
    obtain ⟨hlt, rfl⟩ := List.getElem?_eq_some_iff.mp hg
    simp only [headGroupAt, length_map, length_range] at hlt
    refine ⟨hlt, ?_⟩
    simp only [headGroupAt, getElem_map, getElem_range, cpGroup_eq]
  refine ⟨?_, ?_, ?_⟩
  · intro g hg
    obtain ⟨ρ', hρ', rfl⟩ := getElem_of_mem hg
    obtain ⟨hlt, heq⟩ := hget ρ' _ (getElem?_eq_getElem hρ')
    rw [heq]
    exact h.nodup_groupPort hj hlt
  · refine ⟨(range s.cpSize).map
      (s.groupPort heads (t / s.span heads) (t % s.span heads / s.dcpSize)), ?_, ?_, by simp⟩
    · simp [headGroupAt, hρ, cpGroup_eq]
    · have hlt : s.cpRank t c < s.cpSize := h.cpRank_lt hc
      have hport : s.groupPort heads (t / s.span heads) (t % s.span heads / s.dcpSize)
          (s.cpRank t c) = s.workerPort t c := by
        unfold groupPort cpRank
        rw [mul_add_mod_of_lt hy, mul_add_div_of_lt hy, h.rank_eq]
      simp [hlt, hport]
  · intro ρ' g hg hmem
    obtain ⟨hlt, rfl⟩ := hget ρ' g hg
    obtain ⟨i, -, hi⟩ := mem_map.mp hmem
    obtain ⟨hlt', -, hrep, -⟩ := h.rank_digits hj hlt (mod_lt i h.dcp_pos)
    have htp := congrArg s.tpRankOf hi
    rw [(workerPort_decode ht).1, groupPort, (workerPort_decode hlt').1] at htp
    rw [← hrep, htp]

theorem not_mem_headGroupAt (ht : t < s.tpSize) (hj : j < min heads s.tpSize)
    (hne : j ≠ t / s.span heads) : ∀ g ∈ (s.headGroupAt heads j).cpGroups, s.workerPort t c ∉ g := by
  intro g hg hmem
  obtain ⟨ρ, hρ, rfl⟩ := mem_map.mp hg
  rw [cpGroup_eq] at hmem
  obtain ⟨i, -, hi⟩ := mem_map.mp hmem
  obtain ⟨hlt, hgroup, -, -⟩ := h.rank_digits hj (mem_range.mp hρ) (mod_lt i h.dcp_pos)
  have htp := congrArg s.tpRankOf hi
  rw [(workerPort_decode ht).1, groupPort, (workerPort_decode hlt).1] at htp
  exact hne (by rw [← hgroup, htp])

omit h in
theorem getKvHeadGroups_eq {latent : Bool} {H : Nat} (h : CpLayout (if latent then 1 else H) s) :
    getKvHeadGroups latent H s.tpSize =
      some ((range (min (if latent then 1 else H) s.tpSize)).map
        (headGroup (if latent then 1 else H) s.tpSize)) := by
  unfold getKvHeadGroups
  cases latent with
  | true =>
    have hmin : min 1 s.tpSize = 1 := min_eq_left h.tp_pos
    simp [hmin, headGroup]
  | false =>
    simp only [Bool.false_eq_true, if_false] at h ⊢
    rcases lt_or_ge H s.tpSize with hlt | hge
    · -- one group for each head, which several ranks hold
      obtain ⟨q, hq⟩ := h.fits.swap.dvd_of_le h.heads_pos hlt.le
      have hdiv : s.tpSize / H > 1 := by
        rw [hq, Nat.mul_div_cancel_left q h.heads_pos]
        by_contra hle
        have := Nat.mul_le_mul_left H (Nat.le_of_not_lt hle)
        omega
      rw [if_neg (by rw [div_eq_of_lt hlt]; omega), if_pos hdiv, min_eq_left hlt.le]
      simp [headGroup, min_eq_left hlt.le, Nat.div_self h.heads_pos]
    · have hdiv : H / s.tpSize ≥ 1 := div_pos hge h.tp_pos
      rw [if_pos hdiv, min_eq_right hge]
      simp [headGroup, min_eq_right hge, add_comm]

omit h in
theorem getCpGroupMeta_eq {latent : Bool} {H : Nat} (h : CpLayout (if latent then 1 else H) s) :
    s.getCpGroupMeta latent H =
      some ((range (min (if latent then 1 else H) s.tpSize)).map
        (s.headGroupAt (if latent then 1 else H))) := by
  rw [getCpGroupMeta, h.getKvHeadGroups_eq]
  simp only [Option.bind_eq_bind, Option.bind_some, length_map, length_range]
  congr 1
  apply ext_getElem
  · simp
  · intro j _ _
    simp [CpSizes.headGroupAt, CpSizes.span]

end CpLayout

/-! ## Two engines -/

namespace CpEngines

variable (e : CpEngines)

def heads : Nat := if e.latent then 1 else e.numKeyValueHeads

def numPulls : Nat := e.heads / min e.heads e.decode.tpSize / (e.heads / min e.heads e.prefill.tpSize)

structure Accepted : Prop where
  prefill : CpLayout e.heads e.prefill
  decode : CpLayout e.heads e.decode
  check : e.contextParallelParametersCheck = true

def shardRanks (rBlk ℓ : Nat) : List Nat := (range e.prefill.cpSize).filter fun i => i / rBlk % e.decode.cpSize = ℓ

end CpEngines

theorem CpLayout.ceil_heads {heads : Nat} {s : CpSizes} (h : CpLayout heads s) :
    (heads + s.tpSize - 1) / s.tpSize = heads / min heads s.tpSize := by
  rcases le_total s.tpSize heads with hle | hle
  · obtain ⟨q, hq⟩ := h.fits.dvd_of_le h.tp_pos hle
    rw [min_eq_right hle, hq, Nat.mul_div_cancel_left q h.tp_pos, Nat.add_sub_assoc h.tp_pos,
      mul_comm, mul_add_div_of_lt (by have := h.tp_pos; omega)]
  · rw [min_eq_left hle, Nat.div_self h.heads_pos]
    have := h.heads_pos
    exact Nat.div_eq_of_lt_le (by omega) (by omega)

theorem filter_range_between {n c : Nat} (lo : Nat) (h : lo + c ≤ n) :
    ((range n).filter fun j => lo ≤ j ∧ j < lo + c) = (range c).map (lo + ·) := by
  obtain ⟨k, rfl⟩ := Nat.exists_eq_add_of_le h
  rw [range_add, range_add, filter_append, filter_append]
  have hbefore : ((range lo).filter fun j => lo ≤ j ∧ j < lo + c) = [] := by
    apply filter_eq_nil_iff.mpr
    intro j hj
    have := mem_range.mp hj
    simp only [decide_eq_true_eq]
    omega
  have hafter : (((range k).map (lo + c + ·)).filter fun j => lo ≤ j ∧ j < lo + c) = [] := by
    apply filter_eq_nil_iff.mpr
    refine forall_mem_map.mpr fun i _ => ?_
    simp only [decide_eq_true_eq]
    omega
  have hinside : (((range c).map (lo + ·)).filter fun j => lo ≤ j ∧ j < lo + c) = (range c).map (lo + ·) := by
    apply filter_eq_self.mpr
    refine forall_mem_map.mpr fun i hi => ?_
    have := mem_range.mp hi
    simp only [decide_eq_true_eq]
    omega
  rw [hbefore, hafter, hinside, nil_append, append_nil]

namespace CpEngines.Accepted

variable {e : CpEngines} (h : e.Accepted)

include h

theorem cpSize_dvd : e.decode.cpSize ∣ e.prefill.cpSize := by
  have hcheck := h.check
  exact dvd_of_mod_eq_zero (of_decide_eq_true hcheck).1

theorem pulls_mul : e.numPulls * (e.heads / min e.heads e.prefill.tpSize) =
    e.heads / min e.heads e.decode.tpSize := by
  apply Nat.div_mul_cancel
  have hcheck := h.check
  by_cases hlat : e.latent = true
  · -- one latent head
    have hheads : e.heads = 1 := if_pos hlat
    rw [hheads, min_eq_left h.prefill.tp_pos]
    exact one_dvd _
  · have hheads : e.heads = e.numKeyValueHeads := if_neg hlat
    have hmod := (of_decide_eq_true hcheck).2.resolve_left hlat
    have hp := h.prefill.ceil_heads
    have hd := h.decode.ceil_heads
    rw [hheads] at hp hd ⊢
    rw [hp, hd] at hmod
    exact dvd_of_mod_eq_zero hmod

theorem numPulls_eq : e.numPulls = numNeedPulls e.heads e.prefill.tpSize e.decode.tpSize := by
  unfold CpEngines.numPulls numNeedPulls
  rw [h.prefill.headsPerGroup_eq, h.decode.headsPerGroup_eq]

theorem numPulls_pos : 0 < e.numPulls := Nat.pos_of_mul_pos_right (h.pulls_mul ▸ h.decode.headsPerGroup_pos)

variable {i : Nat}

theorem headGroup_subset {j : Nat} : headGroup e.heads e.prefill.tpSize j ⊆ headGroup e.heads e.decode.tpSize i ↔
      i * e.numPulls ≤ j ∧ j < i * e.numPulls + e.numPulls := by
  have ha := h.prefill.headsPerGroup_pos
  unfold headGroup
  rw [← h.pulls_mul]
  generalize e.heads / min e.heads e.prefill.tpSize = a at ha
  generalize e.numPulls = c
  have hmem : ∀ x, x ∈ (range (c * a)).map (i * (c * a) + ·) ↔ i * c * a ≤ x ∧ x < (i * c + c) * a := by
    intro x
    rw [add_mul, mul_assoc]
    simp only [mem_map, mem_range]
    constructor
    · omega
    · rintro ⟨hle, hlt⟩
      exact ⟨x - i * (c * a), by omega, by omega⟩
  constructor
  · intro hsub
    have hfirst : j * a + 0 ∈ (range a).map (j * a + ·) := mem_map_of_mem (mem_range.mpr ha)
    obtain ⟨hle, hlt⟩ := (hmem _).mp (hsub hfirst)
    exact ⟨Nat.le_of_mul_le_mul_right hle ha, Nat.lt_of_mul_lt_mul_right hlt⟩
  · rintro ⟨hle, hlt⟩ x hx
    obtain ⟨y, hy, rfl⟩ := mem_map.mp hx
    have hy := mem_range.mp hy
    have hle := mul_le_mul_right a hle
    have hlt : (j + 1) * a ≤ (i * c + c) * a := mul_le_mul_right a hlt
    rw [add_mul] at hlt
    exact (hmem _).mpr ⟨by omega, by omega⟩

theorem groups_le (hi : i < min e.heads e.decode.tpSize) :
    i * e.numPulls + e.numPulls ≤ min e.heads e.prefill.tpSize := by
  have ha := h.prefill.headsPerGroup_pos
  apply le_of_mul_le_mul_right _ ha
  rw [h.prefill.groups_mul_heads, ← add_one_mul, mul_assoc, h.pulls_mul]
  calc (i + 1) * (e.heads / min e.heads e.decode.tpSize)
      ≤ min e.heads e.decode.tpSize * (e.heads / min e.heads e.decode.tpSize) := mul_le_mul_right _ hi
    _ = e.heads := h.decode.groups_mul_heads

theorem filter_headGroupAt (hi : i < min e.heads e.decode.tpSize) :
    (((range (min e.heads e.prefill.tpSize)).map (e.prefill.headGroupAt e.heads)).filter fun p =>
      p.heads ⊆ (e.decode.headGroupAt e.heads i).heads) =
      (range e.numPulls).map fun k => e.prefill.headGroupAt e.heads (i * e.numPulls + k) := by
  rw [filter_map, filter_congr (q := fun j => decide (i * e.numPulls ≤ j ∧ j < i * e.numPulls + e.numPulls)),
    filter_range_between _ (h.groups_le hi), map_map]
  · rfl
  · intro j _
    exact decide_eq_decide.mpr h.headGroup_subset

omit h in
theorem portRemoteList_eq (rBlk ℓ j ρ : Nat) :
    portRemoteList rBlk e.decode.cpSize ℓ ((range e.prefill.cpSize).map (e.prefill.groupPort e.heads j ρ)) =
      (e.shardRanks rBlk ℓ).map (e.prefill.groupPort e.heads j ρ) := by
  have hzip : ((range e.prefill.cpSize).map (e.prefill.groupPort e.heads j ρ)).zipIdx =
      (range e.prefill.cpSize).map fun i => (e.prefill.groupPort e.heads j ρ i, i) := by
    apply ext_getElem
    · simp
    · intro i _ _
      simp
  unfold portRemoteList CpEngines.shardRanks
  rw [hzip, filter_map, map_map]
  rfl

theorem mapping_at (rBlk : Nat) {t c : Nat} (ht : t < e.decode.tpSize) (hc : c < e.decode.pcpSize) :
    ∃ mappings lists, e.getLocalRemoteBlockPortMappings rBlk = some mappings ∧
      mappings.get? (e.decode.workerPort t c) = some lists ∧ lists.length = e.numPulls ∧
      ∀ k l, lists[k]? = some l → ∃ ρ < e.prefill.span e.heads / e.prefill.dcpSize,
        l = (e.shardRanks rBlk (e.decode.cpRank t c)).map
          (e.prefill.groupPort e.heads (t / e.decode.span e.heads * e.numPulls + k) ρ) := by
  have hi : t / e.decode.span e.heads < min e.heads e.decode.tpSize := h.decode.headGroup_lt ht
  have hlike : ∀ j, HeadGroup.Like (e.prefill.headGroupAt e.heads j) (e.prefill.headGroupAt e.heads j) := by
    intro j
    refine ⟨rfl, rfl, ?_⟩
    have hreps : 0 < e.prefill.span e.heads / e.prefill.dcpSize :=
      div_pos (le_of_dvd h.prefill.span_pos h.prefill.dcp_dvd) h.prefill.dcp_pos
    simpa [headGroupAt] using hreps
  have hplace : ((range (min e.heads e.decode.tpSize)).map
      (e.decode.headGroupAt e.heads))[t / e.decode.span e.heads]? =
        some (e.decode.headGroupAt e.heads (t / e.decode.span e.heads)) := by
    simp [hi]
  have hothers : ∀ j d, ((range (min e.heads e.decode.tpSize)).map
      (e.decode.headGroupAt e.heads))[j]? = some d → j ≠ t / e.decode.span e.heads →
        ∀ g ∈ d.cpGroups, e.decode.workerPort t c ∉ g := by
    intro j d hj hne
    rw [getElem?_map] at hj
    obtain ⟨j', hj', rfl⟩ := Option.map_eq_some_iff.mp hj
    obtain ⟨hlt, heq⟩ := List.getElem?_eq_some_iff.mp hj'
    rw [getElem_range] at heq
    subst heq
    exact h.decode.not_mem_headGroupAt ht (by simpa using hlt) hne
  have hprefill : Forall₂ HeadGroup.Like
      ((range (min e.heads e.prefill.tpSize)).map (e.prefill.headGroupAt e.heads))
      ((range (min e.heads e.prefill.tpSize)).map (e.prefill.headGroupAt e.heads)) := by
    refine forall₂_same.mpr (forall_mem_map.mpr fun j _ => ?_)
    exact hlike j
  obtain ⟨ps, m, lists, hfold, hlists, hforall⟩ := HeadGroup.foldlM_bindAll rBlk hplace
    (h.decode.place_headGroupAt ht hc) hothers hprefill
  rw [HeadGroup.Binds, h.filter_headGroupAt hi] at hforall
  obtain ⟨hlen, hget⟩ := forall₂_iff_get.mp hforall
  rw [length_map, length_range] at hlen
  refine ⟨m, lists, ?_, ?_, hlen.symm, fun k l hl => ?_⟩
  · rw [CpEngines.getLocalRemoteBlockPortMappings, if_pos h.check,
      CpLayout.getCpGroupMeta_eq h.prefill, CpLayout.getCpGroupMeta_eq h.decode]
    exact congrArg (Option.bind · fun s => some s.2) hfold
  · -- There is at least one list, so the port is there.
    have hne : lists ≠ [] := by
      intro hnil
      have hpos := h.numPulls_pos
      rw [hnil] at hlen
      simp at hlen
      omega
    unfold listsAt at hlists
    cases hm : m.get? (e.decode.workerPort t c) with
    | none =>
      rw [hm] at hlists
      exact absurd hlists.symm hne
    | some ls =>
      rw [hm] at hlists
      exact congrArg some hlists
  · obtain ⟨hk, rfl⟩ := List.getElem?_eq_some_iff.mp hl
    obtain ⟨pCpGroup, hmem, heq⟩ := hget k (by simpa [hlen] using hk) hk
    simp only [get_eq_getElem, getElem_map, getElem_range] at hmem heq
    obtain ⟨ρ, hρ, rfl⟩ := mem_map.mp hmem
    refine ⟨ρ, mem_range.mp hρ, ?_⟩
    rw [heq, cpGroup_eq, portRemoteList_eq]

end CpEngines.Accepted

end VllmAscend.KvTransfer.Mooncake
