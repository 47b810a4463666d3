import VllmAscend.Lib.Pieces
import VllmAscend.KvTransfer.Mooncake.RecvThread

/-!
# Who pulls from whom

When a KV head has several replicas on the prefill side, one of them is drawn at random. Both engines draw it for
themselves, from a generator seeded with the request id.
-/

namespace VllmAscend.KvTransfer.Mooncake

open List Nat Loop

/-- What `rand.sample(range(n), k)` gives for the seed of one request. -/
structure Sampler where
  choose : Nat → Nat → List Nat
  length_choose : ∀ {n k}, k ≤ n → (choose n k).length = k
  nodup_choose : ∀ n k, (choose n k).Nodup
  lt_of_mem_choose : ∀ {n k i}, i ∈ choose n k → i < n

def firstRanks : Sampler :=
  { choose := fun n k => range (min k n)
    length_choose := fun h => by rw [length_range, Nat.min_eq_left h]
    nodup_choose := fun _ _ => nodup_range
    lt_of_mem_choose := fun hi => (mem_range.mp hi).trans_le (Nat.min_le_right _ _) }

/-- `rand.sample` raises when there is not enough to draw from. -/
def Sampler.sample (rand : Sampler) (n k : Nat) : Option (List Nat) := if k ≤ n then some (rand.choose n k) else none

structure RankConfig where
  tpSize : Nat
  prefillTpSize : Nat
  decodeTpSize : Nat
  prefillPpSize : Nat
  numKeyValueHeads : Nat
  isDeepseekMla : Bool
  useSparse : Bool

/-- `_get_attention_group_num_need_pulls_for_decode_tp`: how many prefill ranks hold the heads of
one decoder rank. -/
def numNeedPulls (numKeyValueHeads prefillTpSize decodeTpSize : Nat) : Nat :=
  let numDBlockHeads := max 1 (numKeyValueHeads / decodeTpSize)
  let numPBlockHeads := max 1 (numKeyValueHeads / prefillTpSize)
  numDBlockHeads / numPBlockHeads

inductive GroupKind
  | mamba
  | attention (numKeyValueHeads : Nat)
  deriving DecidableEq

inductive Release
  | delayed
  | notTransfer
  deriving DecidableEq

namespace RankConfig

variable (w : RankConfig)

def tpNumNeedPulls : Nat := if w.isDeepseekMla then 1 else numNeedPulls w.numKeyValueHeads w.prefillTpSize w.tpSize

def getTpNumNeedPulls (prefillTpSize : Option Nat) : Nat :=
  let prefillTpSize := prefillTpSize.getD w.prefillTpSize
  if prefillTpSize = w.prefillTpSize then w.tpNumNeedPulls
  else if w.isDeepseekMla then 1
  else numNeedPulls w.numKeyValueHeads prefillTpSize w.tpSize

def getRemoteTpRanks (tpOriData randGroupIndex : List Nat)
    (numGroups prefillTpSize numKeyValueHeads tpNumNeedPulls : Nat) (useMla : Bool) :
    Option (List (List Nat)) :=
  if prefillTpSize > numKeyValueHeads ∨ useMla ∨ w.useSparse then do
    let rows ← reshape numGroups tpOriData
    let chosenGroup ← rows.mapM fun row => randGroupIndex.mapM fun i => row[i]?
    -- `range(0, n, 0)` raises
    if tpNumNeedPulls = 0 then none else some (chunks tpNumNeedPulls chosenGroup.flatten)
  else
    some (pieces w.decodeTpSize (prefillTpSize / w.decodeTpSize) tpOriData)

def getRemoteRanksForReq (rand : Sampler) (prefillTpSize numKeyValueHeads tpNumNeedPulls : Option Nat)
    (useMla : Option Bool) : Option (List (List Nat)) :=
  let prefillTpSize := prefillTpSize.getD w.prefillTpSize
  let numKeyValueHeads := numKeyValueHeads.getD (if w.isDeepseekMla ∨ w.useSparse then 1 else w.numKeyValueHeads)
  let tpNumNeedPulls := tpNumNeedPulls.getD (w.getTpNumNeedPulls (some prefillTpSize))
  let useMla := useMla.getD w.isDeepseekMla
  if prefillTpSize = w.decodeTpSize then
    some ((range prefillTpSize).map fun tp => (range w.prefillPpSize).map fun pp => tp + pp * prefillTpSize)
  else do
    let oriData := range (w.prefillPpSize * prefillTpSize)
    let oriData2d := pieces w.prefillPpSize prefillTpSize oriData
    let numGroups := max 1 (prefillTpSize / numKeyValueHeads)
    let randGroupIndex ← rand.sample numGroups (max (w.decodeTpSize / numKeyValueHeads) 1)
    let allResults ← oriData2d.mapM fun stage =>
      w.getRemoteTpRanks stage randGroupIndex numGroups prefillTpSize numKeyValueHeads tpNumNeedPulls
        useMla
    let first ← allResults.head?
    (range first.length).mapM fun groupIndex => do
      let group ← allResults.mapM fun result => result[groupIndex]?
      some group.flatten

def getPrefillRanksForGroup (rand : Sampler) : GroupKind → Option (List Nat)
  | .mamba =>
    if w.prefillTpSize % w.decodeTpSize = 0 then
      some (range (w.prefillTpSize * w.prefillPpSize))
    else none
  | .attention numKeyValueHeads =>
    (w.getRemoteRanksForReq rand (some w.prefillTpSize) (some numKeyValueHeads) (some (numNeedPulls numKeyValueHeads
      w.prefillTpSize w.decodeTpSize)) (some (numKeyValueHeads = 1))).map flatten

def prefillGetRemoteRank (rand : Sampler) (groups : Option (List GroupKind)) : Option (List Nat) :=
  match groups with
  | some groups => (groups.mapM (w.getPrefillRanksForGroup rand)).map flatten
  | none => (w.getRemoteRanksForReq rand none none none none).map flatten

def startLoadKv (rand : Sampler) (groups : Option (List GroupKind)) (tpRank : Nat) : Option Release :=
  (w.prefillGetRemoteRank rand groups).map fun ranks => if tpRank ∈ ranks then .delayed else .notTransfer

/-! ## The decoder's side -/

def getRemoteRank (rand : Sampler) (prefillTpSize tpRank : Nat) : Option (List Nat) :=
  (w.getRemoteRanksForReq rand (some prefillTpSize) none none none).bind fun ranks => ranks[tpRank]?

def getAttentionGroupRemoteRank (rand : Sampler) (numKeyValueHeads prefillTpSize tpRank : Nat) :
    Option (List Nat) :=
  (w.getRemoteRanksForReq rand (some prefillTpSize) (some numKeyValueHeads)
    (some (numNeedPulls numKeyValueHeads prefillTpSize w.tpSize))
    (some (numKeyValueHeads = 1))).bind fun ranks => ranks[tpRank]?

def hybridGroupPulls (rand : Sampler) (prefillTpSize tpRank groupId : Nat) :
    GroupKind → Option (List (Nat × GroupPull))
  | .mamba =>
    if prefillTpSize % w.tpSize = 0 then
      let numGroupPulls := prefillTpSize / w.tpSize
      some ((range w.prefillPpSize).flatMap fun ppRank =>
        (range numGroupPulls).map fun remoteTpOffset =>
          (ppRank * prefillTpSize + tpRank * numGroupPulls + remoteTpOffset,
            { groupId := groupId
              remoteTpOffset := remoteTpOffset
              numGroupPulls := numGroupPulls
              prefillPpRank := ppRank
              isGroupTransferEnd := remoteTpOffset + 1 = numGroupPulls }))
    else none
  | .attention numKeyValueHeads => do
    let numGroupPulls := numNeedPulls numKeyValueHeads prefillTpSize w.tpSize
    let chosenRankList ← w.getAttentionGroupRemoteRank rand numKeyValueHeads prefillTpSize tpRank
    if chosenRankList.length = numGroupPulls * w.prefillPpSize then
      some (chosenRankList.zipIdx.map fun p =>
        (p.1,
          { groupId := groupId
            remoteTpOffset := p.2 % numGroupPulls
            numGroupPulls := numGroupPulls
            prefillPpRank := p.2 / numGroupPulls
            isGroupTransferEnd := p.2 % numGroupPulls + 1 = numGroupPulls }))
    else none

def addGroupPull (rankGroupPulls : Dict Nat (List GroupPull)) (p : Nat × GroupPull) :
    Dict Nat (List GroupPull) :=
  rankGroupPulls.set p.1 ((rankGroupPulls.get? p.1).getD [] ++ [p.2])

def getHybridRemoteRankGroupPulls (rand : Sampler) (groups : List (Nat × GroupKind))
    (prefillTpSize tpRank : Nat) : Option (Dict Nat (List GroupPull)) :=
  (groups.mapM fun p => w.hybridGroupPulls rand prefillTpSize tpRank p.1 p.2).map fun calls =>
    calls.flatten.foldl addGroupPull ∅

end RankConfig

/-! ## The ranks of one stage -/

def headsOf (heads tpSize rank : Nat) : List Nat :=
  if tpSize ≤ heads then (range (heads / tpSize)).map (rank * (heads / tpSize) + ·)
  else [rank / (tpSize / heads)]

def Commensurable (a b : Nat) : Prop := a ∣ b ∨ b ∣ a

instance (a b : Nat) : Decidable (Commensurable a b) := inferInstanceAs (Decidable (a ∣ b ∨ b ∣ a))

theorem Commensurable.swap {a b : Nat} (h : Commensurable a b) : Commensurable b a := h.symm

theorem Commensurable.dvd_of_le {a b : Nat} (h : Commensurable a b) (ha : 0 < a) (hle : a ≤ b) : a ∣ b := by
  rcases h with h | h
  · exact h
  · rw [le_antisymm hle (le_of_dvd ha h)]

section Stage

variable {w : RankConfig} {heads numGroups k : Nat} {idx : List Nat} {useMla : Bool}

theorem getRemoteTpRanks_replicas {T rows : Nat} (f : Nat → Nat) (hT : rows * numGroups = T)
    (hbranch : T > heads ∨ useMla ∨ w.useSparse) (hG : 0 < numGroups) (hlt : ∀ i ∈ idx, i < numGroups) (hk : 0 < k) :
    w.getRemoteTpRanks ((range T).map f) idx numGroups T heads k useMla =
      some ((chunks k (spread rows numGroups idx)).map (List.map f)) := by
  subst hT
  have hrows : ((range rows).map fun h =>
      (range numGroups).map fun i => f (h * numGroups + i)).mapM
        (fun row => idx.mapM fun i => row[i]?) =
      some ((range rows).map fun h => idx.map fun i => f (h * numGroups + i)) := by
    rw [mapM_map]
    apply mapM_eq_map
    intro h _
    apply mapM_eq_map
    intro i hi
    simp [hlt i hi]
  rw [RankConfig.getRemoteTpRanks, if_pos hbranch, reshape_eq_pieces (c := rows) hG (by simp),
    pieces_map_range, ← chunks_map]
  simp only [Option.bind_eq_bind, Option.bind_some, hrows, if_neg (ne_of_gt hk)]
  rw [spread, map_flatMap]
  simp only [map_map]
  rfl

end Stage

/-! ## The choice -/

theorem numNeedPulls_self (heads tpSize : Nat) : numNeedPulls heads tpSize tpSize = 1 := Nat.div_self (by omega)

theorem numNeedPulls_one (T D : Nat) : numNeedPulls 1 T D = 1 := by
  have hdiv : ∀ n, max 1 (1 / n) = 1 := fun n => max_eq_left (div_le_self 1 n)
  simp [numNeedPulls, hdiv]

theorem numNeedPulls_of_lt {heads T : Nat} (D : Nat) (h : heads < T) :
    numNeedPulls heads T D = max 1 (heads / D) := by
  simp [numNeedPulls, div_eq_of_lt h]

theorem numNeedPulls_of_dvd {heads T decodeTpSize : Nat} (hheads : 0 < heads)
    (hD : decodeTpSize ∣ T) (hT : T ∣ heads) : numNeedPulls heads T decodeTpSize = T / decodeTpSize := by
  obtain ⟨b, rfl⟩ := hD
  obtain ⟨a, rfl⟩ := hT
  have ha : 0 < a := Nat.pos_of_mul_pos_left hheads
  have hD : 0 < decodeTpSize := Nat.pos_of_mul_pos_right (Nat.pos_of_mul_pos_right hheads)
  have hb : 0 < b := Nat.pos_of_mul_pos_left (Nat.pos_of_mul_pos_right hheads)
  have hd : decodeTpSize * b * a / decodeTpSize = b * a := by rw [Nat.mul_assoc, Nat.mul_div_cancel_left _ hD]
  have hp : decodeTpSize * b * a / (decodeTpSize * b) = a := Nat.mul_div_cancel_left a (Nat.mul_pos hD hb)
  rw [numNeedPulls, hd, hp, Nat.mul_div_cancel_left b hD, max_eq_right (Nat.mul_pos hb ha),
    max_eq_right ha, Nat.mul_div_cancel b ha]

structure Fits (T D heads : Nat) : Prop where
  decode_pos : 0 < D
  decode_le : D ≤ T
  heads_pos : 0 < heads
  sizes : Commensurable T D
  prefill_heads : Commensurable T heads
  decode_heads : Commensurable D heads

namespace Fits

variable {T D heads : Nat} (h : Fits T D heads)

include h

theorem prefill_pos : 0 < T := h.decode_pos.trans_le h.decode_le

theorem decode_dvd : D ∣ T := h.sizes.swap.dvd_of_le h.decode_pos h.decode_le

theorem heads_dvd (hlt : heads < T) : heads ∣ T := h.prefill_heads.swap.dvd_of_le h.heads_pos hlt.le

theorem prefill_dvd (hle : T ≤ heads) : T ∣ heads := h.prefill_heads.dvd_of_le h.prefill_pos hle

theorem numNeedPulls_pos : 0 < numNeedPulls heads T D := by
  rcases lt_or_ge heads T with hlt | hge
  · rw [numNeedPulls_of_lt D hlt]
    omega
  · rw [numNeedPulls_of_dvd h.heads_pos h.decode_dvd (h.prefill_dvd hge)]
    exact div_pos h.decode_le h.decode_pos

end Fits

def chosenRanks (rand : Sampler) (T D heads : Nat) : List Nat :=
  if T = D ∨ T ≤ heads then range T
  else spread heads (T / heads) (rand.choose (T / heads) (max (D / heads) 1))

namespace Fits

variable {T D heads : Nat} (h : Fits T D heads) (rand : Sampler)

include h

theorem sample_le (hlt : heads < T) : max (D / heads) 1 ≤ T / heads :=
  max_le (Nat.div_le_div_right h.decode_le) (Nat.div_pos hlt.le h.heads_pos)

theorem chosenRanks_of_lt (hne : T ≠ D) (hlt : heads < T) : ∃ pick : Nat → Nat,
    (∀ i < max (D / heads) 1, pick i < T / heads) ∧
    chosenRanks rand T D heads = (range (heads * max (D / heads) 1)).map fun j =>
      j / max (D / heads) 1 * (T / heads) + pick (j % max (D / heads) 1) := by
  have hlen := rand.length_choose (h.sample_le hlt)
  refine ⟨fun i => (rand.choose (T / heads) (max (D / heads) 1)).getD i 0, fun i hi => ?_, ?_⟩
  · exact rand.lt_of_mem_choose (Ragged.getD_mem (by omega) 0)
  · rw [chosenRanks, if_neg (by omega), spread_eq, hlen]

theorem heads_mul_sample (hlt : heads < T) : heads * max (D / heads) 1 = D * numNeedPulls heads T D := by
  rw [numNeedPulls_of_lt D hlt]
  rcases le_total D heads with hle | hle
  · -- one replica of each head, several heads for each decoder rank
    obtain ⟨a, rfl⟩ := h.decode_heads.dvd_of_le h.decode_pos hle
    have ha : 0 < a := Nat.pos_of_mul_pos_left h.heads_pos
    have hdiv : D / (D * a) ≤ 1 := Nat.div_le_of_le_mul (by omega)
    rw [Nat.mul_div_cancel_left a h.decode_pos, max_eq_right hdiv, max_eq_right ha, Nat.mul_one]
  · obtain ⟨a, rfl⟩ := h.decode_heads.swap.dvd_of_le h.heads_pos hle
    have ha : 0 < a := Nat.pos_of_mul_pos_left h.decode_pos
    have hdiv : heads / (heads * a) ≤ 1 := Nat.div_le_of_le_mul (by omega)
    rw [Nat.mul_div_cancel_left a h.heads_pos, max_eq_left ha, max_eq_left hdiv, Nat.mul_one]

theorem length_chosenRanks : (chosenRanks rand T D heads).length = D * numNeedPulls heads T D := by
  by_cases hne : T = D
  · rw [chosenRanks, if_pos (.inl hne), length_range, hne, numNeedPulls_self, mul_one]
  · rcases lt_or_ge heads T with hlt | hge
    · obtain ⟨pick, -, heq⟩ := h.chosenRanks_of_lt rand hne hlt
      rw [heq, length_map, length_range, h.heads_mul_sample hlt]
    · rw [chosenRanks, if_pos (.inr hge), length_range, numNeedPulls_of_dvd h.heads_pos h.decode_dvd (h.prefill_dvd
        hge), Nat.mul_div_cancel' h.decode_dvd]

omit h in
theorem nodup_chosenRanks : (chosenRanks rand T D heads).Nodup := by
  unfold chosenRanks
  split
  · exact nodup_range
  · exact nodup_spread (rand.nodup_choose _ _) fun i hi => rand.lt_of_mem_choose hi

theorem lt_of_mem_chosenRanks {t : Nat} (ht : t ∈ chosenRanks rand T D heads) : t < T := by
  unfold chosenRanks at ht
  split at ht
  · exact mem_range.mp ht
  · have hdvd := h.heads_dvd (by omega)
    rw [← Nat.mul_div_cancel' hdvd]
    exact lt_of_mem_spread (fun i hi => rand.lt_of_mem_choose hi) ht

theorem heads_chosenRanks : ∃ f : Nat → Nat, chosenRanks rand T D heads = (range (D * numNeedPulls heads T D)).map f ∧
    ∀ d, ((range (numNeedPulls heads T D)).flatMap fun i =>
      headsOf heads T (f (d * numNeedPulls heads T D + i))) = headsOf heads D d := by
  by_cases hne : T = D
  · subst hne
    refine ⟨id, ?_, fun d => ?_⟩
    · rw [chosenRanks, if_pos (.inl rfl), numNeedPulls_self, Nat.mul_one, map_id]
    · simp [numNeedPulls_self]
  · rcases lt_or_ge heads T with hlt | hge
    · obtain ⟨pick, hpick, heq⟩ := h.chosenRanks_of_lt rand hne hlt
      refine ⟨_, h.heads_mul_sample hlt ▸ heq, fun d => ?_⟩
      have hm : 0 < max (D / heads) 1 := by omega
      have hhead : ∀ j, headsOf heads T (j / max (D / heads) 1 * (T / heads) +
          pick (j % max (D / heads) 1)) = [j / max (D / heads) 1] := by
        intro j
        rw [headsOf, if_neg (by omega), RoundRobin.mul_add_div_of_lt (hpick _ (mod_lt j hm))]
      simp only [hhead]
      rw [← map_eq_flatMap, numNeedPulls_of_lt D hlt]
      rcases le_or_gt D heads with hle | hgt
      · -- one replica of each head
        have hone : max (D / heads) 1 = 1 := max_eq_right (Nat.div_le_of_le_mul (by omega))
        have hpos : 1 ≤ heads / D := Nat.div_pos hle h.decode_pos
        simp only [hone, Nat.div_one, headsOf, if_pos hle, max_eq_right hpos]
      · have hzero : heads / D = 0 := div_eq_of_lt hgt
        have hpos : 1 ≤ D / heads := Nat.div_pos hgt.le h.heads_pos
        simp [hzero, headsOf, Nat.not_le.mpr hgt, max_eq_left hpos]
    · have hdvd := h.prefill_dvd hge
      rw [numNeedPulls_of_dvd h.heads_pos h.decode_dvd hdvd]
      refine ⟨id, ?_, fun d => ?_⟩
      · rw [chosenRanks, if_pos (.inr hge), Nat.mul_div_cancel' h.decode_dvd, map_id]
      · have hmul : T / D * (heads / T) = heads / D := by
          rw [Nat.mul_comm, Nat.div_mul_div_comm hdvd h.decode_dvd, Nat.mul_comm T D,
            Nat.mul_div_mul_right _ _ h.prefill_pos]
        simp only [headsOf, if_pos hge, id, if_pos (h.decode_le.trans hge)]
        rw [flatMap_range_mul, hmul, Nat.mul_assoc, hmul]

end Fits

/-! ## `_get_remote_ranks_for_req` -/

section Call

variable {w : RankConfig} {rand : Sampler} {T heads k : Nat} {useMla : Bool}

theorem gather_stages {S : Nat} (hS : 0 < S) (ranks : List (List Nat)) :
    (do
      let first ← ((range S).map fun pp => ranks.map (List.map (pp * T + ·))).head?
      (range first.length).mapM fun groupIndex => do
        let group ← ((range S).map fun pp => ranks.map (List.map (pp * T + ·))).mapM
          fun result => result[groupIndex]?
        some group.flatten) = some (ranks.map (spread S T)) := by
  obtain ⟨n, rfl⟩ : ∃ n, S = n + 1 := ⟨S - 1, by omega⟩
  have hfirst : ((range (n + 1)).map fun pp => ranks.map (map (pp * T + ·))).head? =
      some (ranks.map (map (0 * T + ·))) := by
    simp [range_succ_eq_map]
  have hgroup : ∀ d ∈ range ranks.length,
      (do
        let group ← ((range (n + 1)).map fun pp => ranks.map (map (pp * T + ·))).mapM
          fun result => result[d]?
        some group.flatten) = some (spread (n + 1) T (ranks.getD d [])) := by
    intro d hd
    have hd : d < ranks.length := mem_range.mp hd
    have hstages : ((range (n + 1)).map fun pp => ranks.map (map (pp * T + ·))).mapM
        (fun result => result[d]?) =
        some ((range (n + 1)).map fun pp => (ranks.getD d []).map (pp * T + ·)) := by
      rw [mapM_map]
      apply mapM_eq_map
      simp [hd]
    rw [hstages]
    rfl
  rw [hfirst]
  simp only [Option.bind_eq_bind, Option.bind_some, length_map]
  refine (mapM_eq_map hgroup).trans ?_
  congr 1
  apply ext_getElem
  · simp
  · intro d _ hd
    simp [(by simpa using hd : d < ranks.length)]

theorem exists_stage_ranks (rand : Sampler) (useMla : Bool) (h : Fits T w.decodeTpSize heads) (hne : T ≠ w.decodeTpSize)
    (hk : k = 1 ∨ k = numNeedPulls heads T w.decodeTpSize) : ∃ ranks : List (List Nat),
      (∀ f : Nat → Nat, w.getRemoteTpRanks ((range T).map f) (rand.choose (max 1 (T / heads)) (max (w.decodeTpSize /
        heads) 1)) (max 1 (T / heads)) T heads k useMla = some (ranks.map (List.map f))) ∧
      ranks.flatten = chosenRanks rand T w.decodeTpSize heads ∧ (k = numNeedPulls heads T w.decodeTpSize →
        ranks = pieces w.decodeTpSize k (chosenRanks rand T w.decodeTpSize heads)) := by
  have hkpos : 0 < k := by
    rcases hk with rfl | rfl
    · exact one_pos
    · exact h.numNeedPulls_pos
  -- Chunks of the chosen ranks have both properties.
  have hchunks : (chunks k (chosenRanks rand T w.decodeTpSize heads)).flatten =
        chosenRanks rand T w.decodeTpSize heads ∧
      (k = numNeedPulls heads T w.decodeTpSize →
        chunks k (chosenRanks rand T w.decodeTpSize heads) =
          pieces w.decodeTpSize k (chosenRanks rand T w.decodeTpSize heads)) := by
    have hlen := h.length_chosenRanks rand
    refine ⟨?_, fun hk => chunks_eq_pieces hkpos (hk ▸ hlen)⟩
    rcases hk with rfl | rfl
    · rw [chunks_eq_pieces one_pos (mul_one _).symm, flatten_pieces (mul_one _).symm]
    · rw [chunks_eq_pieces hkpos hlen, flatten_pieces hlen]
  rcases lt_or_ge heads T with hlt | hge
  · refine ⟨_, fun f => ?_, hchunks⟩
    have hG : 1 ≤ T / heads := div_pos hlt.le h.heads_pos
    rw [chosenRanks, if_neg (by omega), max_eq_right hG]
    exact getRemoteTpRanks_replicas f (Nat.mul_div_cancel' (h.heads_dvd hlt)) (.inl hlt) hG
      (fun i hi => rand.lt_of_mem_choose hi) hkpos
  · have hchosen : chosenRanks rand T w.decodeTpSize heads = range T := by
      rw [chosenRanks, if_pos (.inr hge)]
    by_cases hbranch : T > heads ∨ useMla ∨ w.useSparse
    · -- Each rank has heads of its own, and there is one group to draw from.
      refine ⟨_, fun f => ?_, hchunks⟩
      have hG : max 1 (T / heads) = 1 := max_eq_left (Nat.div_le_of_le_mul (by omega))
      have hm : max (w.decodeTpSize / heads) 1 = 1 :=
        max_eq_right (Nat.div_le_of_le_mul (by have := h.decode_le; omega))
      have hone : spread T 1 (rand.choose 1 1) = range T := by
        obtain ⟨i, hi⟩ := length_eq_one_iff.mp (rand.length_choose (le_refl 1))
        have hzero : i < 1 := rand.lt_of_mem_choose (hi ▸ mem_singleton_self i)
        obtain rfl : i = 0 := by omega
        simp [hi, spread]
      rw [hchosen, hG, hm]
      refine (getRemoteTpRanks_replicas f (mul_one T) hbranch one_pos
        (fun i hi => rand.lt_of_mem_choose hi) hkpos).trans ?_
      rw [hone]
    · refine ⟨_, fun f => by rw [RankConfig.getRemoteTpRanks, if_neg hbranch, pieces_map], ?_, ?_⟩
      · rw [hchosen, flatten_pieces]
        rw [length_range, Nat.mul_div_cancel' h.decode_dvd]
      · intro hk
        rw [hk, numNeedPulls_of_dvd h.heads_pos h.decode_dvd (h.prefill_dvd hge), hchosen]

theorem getRemoteRanksForReq_eq (rand : Sampler) (useMla : Bool) (h : Fits T w.decodeTpSize heads) (hS : 0 < w.prefillPpSize)
    (hk : k = 1 ∨ k = numNeedPulls heads T w.decodeTpSize) : ∃ ranks : List (List Nat),
      w.getRemoteRanksForReq rand (some T) (some heads) (some k) (some useMla) =
        some (ranks.map (spread w.prefillPpSize T)) ∧ ranks.flatten = chosenRanks rand T w.decodeTpSize heads ∧
      (k = numNeedPulls heads T w.decodeTpSize →
        ranks = pieces w.decodeTpSize k (chosenRanks rand T w.decodeTpSize heads)) := by
  by_cases hne : T = w.decodeTpSize
  · refine ⟨(range T).map fun t => [t], ?_, ?_, ?_⟩
    · simp only [RankConfig.getRemoteRanksForReq, Option.getD_some, if_pos hne, map_map]
      congr 1
      apply map_congr_left
      simp [spread, ← map_eq_flatMap, add_comm]
    · simp [chosenRanks, hne, ← flatMap_def]
    · intro hk
      rw [chosenRanks, hk, ← hne, numNeedPulls_self]
      have hpieces := pieces_map_range T 1 id
      simpa using hpieces.symm
  · obtain ⟨ranks, hstage, hflat, hcut⟩ := exists_stage_ranks rand useMla h hne hk
    refine ⟨ranks, ?_, hflat, hcut⟩
    have hrows : pieces w.prefillPpSize T (range (w.prefillPpSize * T)) =
        (range w.prefillPpSize).map fun pp => (range T).map (pp * T + ·) := by
      have hpieces := pieces_map_range w.prefillPpSize T id
      simpa using hpieces
    have hsample : max (w.decodeTpSize / heads) 1 ≤ max 1 (T / heads) := by
      have := Nat.div_le_div_right (c := heads) h.decode_le
      omega
    simp only [RankConfig.getRemoteRanksForReq, Option.getD_some, if_neg hne, hrows, Sampler.sample,
      if_pos hsample, Option.bind_eq_bind, Option.bind_some]
    have hall : ((range w.prefillPpSize).map fun pp => (range T).map (pp * T + ·)).mapM
        (fun stage => w.getRemoteTpRanks stage
          (rand.choose (max 1 (T / heads)) (max (w.decodeTpSize / heads) 1)) (max 1 (T / heads)) T heads
          k useMla) =
        some ((range w.prefillPpSize).map fun pp => ranks.map (map (pp * T + ·))) := by
      rw [mapM_map]
      exact mapM_eq_map fun pp _ => hstage (pp * T + ·)
    simp only [hall, Option.bind_some]
    exact gather_stages hS ranks

end Call

end VllmAscend.KvTransfer.Mooncake
