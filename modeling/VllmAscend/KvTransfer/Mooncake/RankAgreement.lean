import VllmAscend.KvTransfer.Mooncake.RemoteRanks

/-!
# The two engines agree

A decoder rank pulls from the ranks that it computes, and a prefill rank keeps its blocks when it finds itself in
what it computes. The configurations of the two calls differ.
-/

namespace VllmAscend.KvTransfer.Mooncake

open List Function Nat RoundRobin Loop RankConfig

/-! ## Both engines -/

structure Deployment where
  prefillTpSize : Nat
  decodeTpSize : Nat
  prefillPpSize : Nat
  numKeyValueHeads : Nat
  isDeepseekMla : Bool
  useSparse : Bool
  decode_pos : 0 < decodeTpSize
  decode_le : decodeTpSize ≤ prefillTpSize
  prefillPp_pos : 0 < prefillPpSize
  heads_pos : 0 < numKeyValueHeads
  /-- a model with an indexer caches one latent head -/
  sparse_latent : useSparse = true → isDeepseekMla = true ∨ numKeyValueHeads = 1

namespace Deployment

variable (g : Deployment)

/-- A decoder worker; `configured` is the prefill size of its own configuration, which the size in
the request's metadata overrides. -/
def decoder (configured : Nat) : RankConfig :=
  { tpSize := g.decodeTpSize
    prefillTpSize := configured
    decodeTpSize := g.decodeTpSize
    prefillPpSize := g.prefillPpSize
    numKeyValueHeads := g.numKeyValueHeads
    isDeepseekMla := g.isDeepseekMla
    useSparse := g.useSparse }

def prefiller : RankConfig := { g.decoder g.prefillTpSize with tpSize := g.prefillTpSize }

def kvHeads : Nat := if g.isDeepseekMla ∨ g.useSparse then 1 else g.numKeyValueHeads

theorem kvHeads_pos : 0 < g.kvHeads := by
  unfold kvHeads
  split
  · exact one_pos
  · exact g.heads_pos

abbrev stages (rand : Sampler) : List (List Nat) :=
  pieces g.decodeTpSize (numNeedPulls g.kvHeads g.prefillTpSize g.decodeTpSize)
    (chosenRanks rand g.prefillTpSize g.decodeTpSize g.kvHeads)

variable {g}

theorem numNeedPulls_kvHeads {T D : Nat} (hmla : g.isDeepseekMla = false) :
    numNeedPulls g.numKeyValueHeads T D = numNeedPulls g.kvHeads T D := by
  unfold kvHeads
  split
  · rename_i h
    rcases h with h | h
    · simp [hmla] at h
    · rcases g.sparse_latent h with h | h
      · simp [hmla] at h
      · rw [h]
  · rfl

theorem tpNumNeedPulls_decoder (conf : Nat) : (g.decoder conf).getTpNumNeedPulls (some g.prefillTpSize) =
      numNeedPulls g.kvHeads g.prefillTpSize g.decodeTpSize := by
  cases hmla : g.isDeepseekMla with
  | true => simp [getTpNumNeedPulls, tpNumNeedPulls, decoder, hmla, kvHeads, numNeedPulls_one]
  | false =>
    rw [← numNeedPulls_kvHeads hmla]
    simp +contextual [getTpNumNeedPulls, tpNumNeedPulls, decoder, hmla]

theorem tpNumNeedPulls_prefiller : g.prefiller.getTpNumNeedPulls (some g.prefillTpSize) = 1 := by
  cases hmla : g.isDeepseekMla with
  | true => simp [getTpNumNeedPulls, tpNumNeedPulls, prefiller, decoder, hmla]
  | false => simp [getTpNumNeedPulls, tpNumNeedPulls, prefiller, decoder, hmla,
      numNeedPulls_self]

variable {rand : Sampler}

theorem decoder_ranks (conf : Nat) (h : Fits g.prefillTpSize g.decodeTpSize g.kvHeads) :
    (g.decoder conf).getRemoteRanksForReq rand (some g.prefillTpSize) none none none =
      some ((g.stages rand).map (spread g.prefillPpSize g.prefillTpSize)) := by
  have hcall : (g.decoder conf).getRemoteRanksForReq rand (some g.prefillTpSize) none none none =
      (g.decoder conf).getRemoteRanksForReq rand (some g.prefillTpSize) (some g.kvHeads)
        (some ((g.decoder conf).getTpNumNeedPulls (some g.prefillTpSize)))
        (some g.isDeepseekMla) := rfl
  obtain ⟨ranks, heq, -, hcut⟩ := getRemoteRanksForReq_eq (w := g.decoder conf) rand
    g.isDeepseekMla h g.prefillPp_pos (.inr (tpNumNeedPulls_decoder conf))
  rw [hcall, heq, hcut (tpNumNeedPulls_decoder conf), tpNumNeedPulls_decoder]
  rfl

section

variable (h : Fits g.prefillTpSize g.decodeTpSize g.kvHeads)

include h

theorem stage_disjoint : (∀ stage ∈ g.stages rand, stage.Nodup) ∧ (g.stages rand).Pairwise List.Disjoint := by
  rw [← nodup_flatten, flatten_pieces (h.length_chosenRanks rand)]
  exact Fits.nodup_chosenRanks rand

theorem disjoint_lists :
    ((g.stages rand).map (spread g.prefillPpSize g.prefillTpSize)).Pairwise List.Disjoint := by
  have hlen := h.length_chosenRanks rand
  refine pairwise_map.mpr ((stage_disjoint h).2.imp_of_mem fun {a b} ha hb hab x hxa hxb => ?_)
  have hxa := (mem_spread fun i hi => h.lt_of_mem_chosenRanks rand (mem_of_mem_pieces hlen ha hi)).mp hxa
  have hxb := (mem_spread fun i hi => h.lt_of_mem_chosenRanks rand (mem_of_mem_pieces hlen hb hi)).mp hxb
  exact hab hxa.2 hxb.2

theorem stage_heads {d : Nat} {stage : List Nat} (hstage : (g.stages rand)[d]? = some stage) :
    stage.flatMap (headsOf g.kvHeads g.prefillTpSize) = headsOf g.kvHeads g.decodeTpSize d := by
  obtain ⟨f, hf, hheads⟩ := h.heads_chosenRanks rand
  rw [stages, hf, pieces_map_range, getElem?_map] at hstage
  obtain ⟨i, hi, rfl⟩ := Option.map_eq_some_iff.mp hstage
  obtain ⟨_, hi⟩ := List.getElem?_eq_some_iff.mp hi
  rw [getElem_range] at hi
  subst hi
  rw [flatMap_map]
  exact hheads d

end

theorem mem_first_stage {heads t : Nat} {ranks : List (List Nat)} (h : Fits g.prefillTpSize g.decodeTpSize heads)
    (hflat : ranks.flatten = chosenRanks rand g.prefillTpSize g.decodeTpSize heads)
    (ht : t < g.prefillTpSize) : t ∈ (ranks.map (spread g.prefillPpSize g.prefillTpSize)).flatten ↔
      t ∈ chosenRanks rand g.prefillTpSize g.decodeTpSize heads := by
  have hlt : ∀ i ∈ ranks.flatten, i < g.prefillTpSize := fun i hi => h.lt_of_mem_chosenRanks rand (hflat ▸ hi)
  rw [mem_flatten_map_spread hlt, hflat, mod_eq_of_lt ht, div_eq_of_lt ht]
  exact and_iff_right g.prefillPp_pos

theorem prefiller_ranks (rand : Sampler) (h : Fits g.prefillTpSize g.decodeTpSize g.kvHeads) : ∃ ranks,
    g.prefiller.prefillGetRemoteRank rand none = some ranks ∧ ∀ t < g.prefillTpSize,
      t ∈ ranks ↔ t ∈ chosenRanks rand g.prefillTpSize g.decodeTpSize g.kvHeads := by
  have hcall : g.prefiller.getRemoteRanksForReq rand none none none none =
      g.prefiller.getRemoteRanksForReq rand (some g.prefillTpSize) (some g.kvHeads)
        (some (g.prefiller.getTpNumNeedPulls (some g.prefillTpSize))) (some g.isDeepseekMla) := rfl
  obtain ⟨ranks, heq, hflat, -⟩ := getRemoteRanksForReq_eq (w := g.prefiller) rand
    g.isDeepseekMla h g.prefillPp_pos (.inl tpNumNeedPulls_prefiller)
  refine ⟨_, ?_, fun t ht => mem_first_stage h hflat ht⟩
  rw [prefillGetRemoteRank, hcall, heq]
  rfl

/-! ## Hybrid models -/

end Deployment

def GroupKind.ranks (rand : Sampler) (T D : Nat) : GroupKind → List Nat
  | .mamba => range T
  | .attention heads => chosenRanks rand T D heads

def GroupKind.numPulls (T D : Nat) : GroupKind → Nat
  | .mamba => T / D
  | .attention heads => numNeedPulls heads T D

def GroupKind.Fits (T D : Nat) : GroupKind → Prop
  | .mamba => Commensurable T D
  | .attention heads => Mooncake.Fits T D heads

namespace Deployment

variable {g : Deployment} {rand : Sampler} {kind : GroupKind}

section

variable (h : kind.Fits g.prefillTpSize g.decodeTpSize)

include h

theorem dvd_of_fits : g.decodeTpSize ∣ g.prefillTpSize := by
  cases kind with
  | mamba => exact Commensurable.dvd_of_le (Commensurable.swap h) g.decode_pos g.decode_le
  | attention heads => exact Fits.decode_dvd h

theorem length_ranks :
    (kind.ranks rand g.prefillTpSize g.decodeTpSize).length =
      g.decodeTpSize * kind.numPulls g.prefillTpSize g.decodeTpSize := by
  cases kind with
  | mamba => rw [GroupKind.ranks, length_range, GroupKind.numPulls, Nat.mul_div_cancel' (dvd_of_fits h)]
  | attention heads => exact Fits.length_chosenRanks h rand

theorem lt_of_mem_ranks {t : Nat}
    (ht : t ∈ kind.ranks rand g.prefillTpSize g.decodeTpSize) : t < g.prefillTpSize := by
  cases kind with
  | mamba => exact mem_range.mp ht
  | attention heads => exact Fits.lt_of_mem_chosenRanks h rand ht

end

theorem prefillRanksForGroup (rand : Sampler) (h : kind.Fits g.prefillTpSize g.decodeTpSize) : ∃ ranks,
    g.prefiller.getPrefillRanksForGroup rand kind = some ranks ∧ ∀ t < g.prefillTpSize,
      t ∈ ranks ↔ t ∈ kind.ranks rand g.prefillTpSize g.decodeTpSize := by
  have hmod := mod_eq_zero_of_dvd (dvd_of_fits h)
  cases kind with
  | mamba =>
    refine ⟨_, if_pos hmod, fun t ht => ?_⟩
    have hle : g.prefillTpSize ≤ g.prefillTpSize * g.prefillPpSize := Nat.le_mul_of_pos_right _ g.prefillPp_pos
    exact iff_of_true (mem_range.mpr (ht.trans_le hle)) (mem_range.mpr ht)
  | attention heads =>
    obtain ⟨ranks, heq, hflat, -⟩ := getRemoteRanksForReq_eq (w := g.prefiller) rand (heads = 1) h
      g.prefillPp_pos (.inr rfl)
    exact ⟨_, congrArg (Option.map flatten) heq, fun t ht => mem_first_stage h hflat ht⟩

theorem hybridGroupPulls_attention {w : RankConfig} {T d heads : Nat} {ranks : List Nat}
    (hranks : w.getAttentionGroupRemoteRank rand heads T d = some ranks) (g : Nat)
    (hlen : ranks.length = numNeedPulls heads T w.tpSize * w.prefillPpSize) : ∃ calls,
    w.hybridGroupPulls rand T d g (.attention heads) = some calls ∧ calls.map Prod.fst = ranks := by
  simp only [hybridGroupPulls, hranks, Option.bind_eq_bind, Option.bind_some, if_pos hlen]
  refine ⟨_, rfl, ?_⟩
  rw [map_map]
  exact zipIdx_map_fst 0 ranks

theorem hybridGroupPulls_ranks (rand : Sampler) (h : kind.Fits g.prefillTpSize g.decodeTpSize)
    (conf groupId : Nat) {d : Nat} (hd : d < g.decodeTpSize) : ∃ calls,
    (g.decoder conf).hybridGroupPulls rand g.prefillTpSize d groupId kind = some calls ∧
    calls.map Prod.fst = spread g.prefillPpSize g.prefillTpSize
      ((pieces g.decodeTpSize (kind.numPulls g.prefillTpSize g.decodeTpSize)
        (kind.ranks rand g.prefillTpSize g.decodeTpSize)).getD d []) := by
  cases kind with
  | mamba =>
    have hdvd := dvd_of_fits h
    refine ⟨_, if_pos (mod_eq_zero_of_dvd hdvd), ?_⟩
    have hpiece := pieces_map_range g.decodeTpSize (g.prefillTpSize / g.decodeTpSize) id
    rw [map_id, Nat.mul_div_cancel' hdvd] at hpiece
    simp only [GroupKind.ranks, GroupKind.numPulls, hpiece, id, spread, map_flatMap, map_map]
    simp [hd, comp_def, add_assoc, decoder]
  | attention heads =>
    obtain ⟨ranks, heq, -, hcut⟩ := getRemoteRanksForReq_eq (w := g.decoder conf) rand
      (heads = 1) h g.prefillPp_pos (.inr rfl)
    have hlen := Fits.length_chosenRanks h rand
    have hget : ranks[d]? = some (ranks.getD d []) := by
      have hranks : d < ranks.length := by
        rw [hcut rfl, length_pieces]
        exact hd
      simp [hranks]
    have hrank : (g.decoder conf).getAttentionGroupRemoteRank rand heads g.prefillTpSize d =
        some (spread g.prefillPpSize g.prefillTpSize (ranks.getD d [])) := by
      refine (congrArg (Option.bind · fun ranks => ranks[d]?) heq).trans ?_
      rw [Option.bind_some, getElem?_map, hget]
      rfl
    have hmem : ranks.getD d [] ∈ pieces g.decodeTpSize (numNeedPulls heads g.prefillTpSize g.decodeTpSize)
        (chosenRanks rand g.prefillTpSize g.decodeTpSize heads) :=
      hcut rfl ▸ mem_of_getElem? hget
    have hpulls : (spread g.prefillPpSize g.prefillTpSize (ranks.getD d [])).length =
        numNeedPulls heads g.prefillTpSize g.decodeTpSize * g.prefillPpSize := by
      rw [length_spread, length_of_mem_pieces hlen hmem, mul_comm]
    obtain ⟨calls, hcalls, hfst⟩ := hybridGroupPulls_attention hrank groupId hpulls
    refine ⟨calls, hcalls, hfst.trans ?_⟩
    rw [hcut rfl]
    rfl

theorem mem_keys_addGroupPulls {calls : List (Nat × GroupPull)} {x : Nat} : ∀ d : Dict Nat (List GroupPull),
      x ∈ (calls.foldl addGroupPull d).keys ↔ x ∈ d.keys ∨ x ∈ calls.map Prod.fst := by
  induction calls with
  | nil => simp
  | cons p rest ih =>
    intro d
    rw [foldl_cons, ih, addGroupPull, Dict.mem_keys_set, map_cons, mem_cons]
    tauto

theorem hybrid_ranks (rand : Sampler) (conf : Nat) {groups : List (Nat × GroupKind)}
    (h : ∀ p ∈ groups, p.2.Fits g.prefillTpSize g.decodeTpSize) : ∃ pulls, ((range g.decodeTpSize).mapM fun d =>
      (g.decoder conf).getHybridRemoteRankGroupPulls rand groups g.prefillTpSize d) = some pulls ∧
    ∀ x, x ∈ pulls.flatMap Dict.keys ↔ ∃ p ∈ groups, x / g.prefillTpSize < g.prefillPpSize ∧
      x % g.prefillTpSize ∈ p.2.ranks rand g.prefillTpSize g.decodeTpSize := by
  choose! calls hcalls using fun d (hd : d < g.decodeTpSize) p (hp : p ∈ groups) =>
    hybridGroupPulls_ranks rand (h p hp) conf p.1 hd
  refine ⟨(range g.decodeTpSize).map fun d =>
    (groups.map (calls d)).flatten.foldl addGroupPull ∅, ?_, fun x => ?_⟩
  · apply mapM_eq_map
    intro d hd
    rw [getHybridRemoteRankGroupPulls, mapM_eq_map fun p hp => (hcalls d (mem_range.mp hd) p hp).1]
    rfl
  · have hkeys : ∀ d, x ∈ ((groups.map (calls d)).flatten.foldl addGroupPull ∅).keys ↔
        ∃ p ∈ groups, x ∈ (calls d p).map Prod.fst := by
      intro d
      rw [mem_keys_addGroupPulls, map_flatten, mem_flatten]
      simp only [map_map, mem_map, exists_exists_and_eq_and, comp_apply]
      exact or_iff_right (not_mem_nil)
    have hpull : ∀ d < g.decodeTpSize, ∀ p ∈ groups, x ∈ (calls d p).map Prod.fst ↔
        x / g.prefillTpSize < g.prefillPpSize ∧ x % g.prefillTpSize ∈
          (pieces g.decodeTpSize (p.2.numPulls g.prefillTpSize g.decodeTpSize)
            (p.2.ranks rand g.prefillTpSize g.decodeTpSize)).getD d [] := by
      intro d hd p hp
      rw [(hcalls d hd p hp).2]
      refine mem_spread fun i hi => ?_
      have hmem : i ∈ p.2.ranks rand g.prefillTpSize g.decodeTpSize :=
        (mem_iff_exists_piece (length_ranks (h p hp))).mpr ⟨d, hd, hi⟩
      exact lt_of_mem_ranks (h p hp) hmem
    rw [mem_flatMap]
    constructor
    · rintro ⟨_, hpulls, hx⟩
      obtain ⟨d, hd, rfl⟩ := mem_map.mp hpulls
      have hd := mem_range.mp hd
      obtain ⟨p, hp, hx⟩ := (hkeys d).mp hx
      obtain ⟨hstage, hi⟩ := (hpull d hd p hp).mp hx
      exact ⟨p, hp, hstage, (mem_iff_exists_piece (length_ranks (h p hp))).mpr ⟨d, hd, hi⟩⟩
    · rintro ⟨p, hp, hstage, hmem⟩
      obtain ⟨d, hd, hi⟩ := (mem_iff_exists_piece (length_ranks (h p hp))).mp hmem
      exact ⟨_, mem_map_of_mem (mem_range.mpr hd), (hkeys d).mpr ⟨p, hp, (hpull d hd p hp).mpr ⟨hstage, hi⟩⟩⟩

theorem prefiller_hybrid_ranks (rand : Sampler) {kinds : List GroupKind}
    (h : ∀ kind ∈ kinds, kind.Fits g.prefillTpSize g.decodeTpSize) : ∃ ranks,
    g.prefiller.prefillGetRemoteRank rand (some kinds) = some ranks ∧ ∀ t < g.prefillTpSize,
      t ∈ ranks ↔ ∃ kind ∈ kinds, t ∈ kind.ranks rand g.prefillTpSize g.decodeTpSize := by
  choose! ranks hranks using fun kind (hkind : kind ∈ kinds) => prefillRanksForGroup rand (h kind hkind)
  refine ⟨(kinds.map ranks).flatten, ?_, fun t ht => ?_⟩
  · rw [prefillGetRemoteRank, mapM_eq_map fun kind hkind => (hranks kind hkind).1]
    rfl
  · rw [← flatMap_def, mem_flatMap]
    exact exists_congr fun kind => and_congr_right fun hkind => (hranks kind hkind).2 t ht

/-- Both engines choose the same ranks. The lists of the decoder ranks share no rank, and the ranks
of each stage in list `d` hold the heads of decoder rank `d`, in order. -/
theorem remote_ranks_agree (g : Deployment) (configured : Nat) (rand : Sampler)
    (hsizes : Commensurable g.prefillTpSize g.decodeTpSize)
    (hprefill : Commensurable g.prefillTpSize g.kvHeads)
    (hdecode : Commensurable g.decodeTpSize g.kvHeads) : ∃ lists,
    (g.decoder configured).getRemoteRanksForReq rand (some g.prefillTpSize) none none none =
      some lists ∧
    lists.length = g.decodeTpSize ∧
    lists.Pairwise List.Disjoint ∧
    (∀ ranks ∈ lists, ranks.Nodup ∧ ranks.length =
      (g.decoder configured).getTpNumNeedPulls (some g.prefillTpSize) * g.prefillPpSize) ∧
    (∀ d ranks, lists[d]? = some ranks → ∃ stage : List Nat,
      (∀ t ∈ stage, t < g.prefillTpSize) ∧
      ranks = (range g.prefillPpSize).flatMap (fun pp => stage.map (pp * g.prefillTpSize + ·)) ∧
      stage.flatMap (headsOf g.kvHeads g.prefillTpSize) = headsOf g.kvHeads g.decodeTpSize d) ∧
    (∀ pp < g.prefillPpSize, ∀ t < g.prefillTpSize, g.prefiller.startLoadKv rand none t =
      some (if pp * g.prefillTpSize + t ∈ lists.flatten then .delayed else .notTransfer)) ∧
    -- hybrid models, group by group
    ∀ groups : List (Nat × GroupKind),
      (∀ p ∈ groups, p.2.Fits g.prefillTpSize g.decodeTpSize) → ∃ pulls,
      ((range g.decodeTpSize).mapM fun d =>
        (g.decoder configured).getHybridRemoteRankGroupPulls rand groups g.prefillTpSize d) =
          some pulls ∧
      ∀ pp < g.prefillPpSize, ∀ t < g.prefillTpSize,
        g.prefiller.startLoadKv rand (some (groups.map Prod.snd)) t =
          some (if pp * g.prefillTpSize + t ∈ pulls.flatMap Dict.keys then .delayed
            else .notTransfer) := by
  have h : Fits g.prefillTpSize g.decodeTpSize g.kvHeads :=
    ⟨g.decode_pos, g.decode_le, g.kvHeads_pos, hsizes, hprefill, hdecode⟩
  have hlen := h.length_chosenRanks rand
  refine ⟨_, decoder_ranks configured h, ?_, disjoint_lists h, ?_, ?_, ?_, ?_⟩
  · rw [length_map, length_pieces]
  · refine forall_mem_map.mpr fun stage hstage => ?_
    refine ⟨nodup_spread ((stage_disjoint h).1 stage hstage) ?_, ?_⟩
    · exact fun i hi => h.lt_of_mem_chosenRanks rand (mem_of_mem_pieces hlen hstage hi)
    · rw [length_spread, length_of_mem_pieces hlen hstage, tpNumNeedPulls_decoder, mul_comm]
  · intro d ranks hranks
    rw [getElem?_map] at hranks
    obtain ⟨stage, hstage, rfl⟩ := Option.map_eq_some_iff.mp hranks
    refine ⟨stage, fun i hi => ?_, rfl, stage_heads h hstage⟩
    exact h.lt_of_mem_chosenRanks rand (mem_of_mem_pieces hlen (mem_of_getElem? hstage) hi)
  · intro pp hpp t ht
    obtain ⟨ranks, hranks, hmem⟩ := prefiller_ranks rand h
    have hlists : pp * g.prefillTpSize + t ∈
        ((g.stages rand).map (spread g.prefillPpSize g.prefillTpSize)).flatten ↔ t ∈ ranks := by
      rw [hmem t ht, mem_flatten_map_spread, flatten_pieces hlen, mul_add_div_of_lt ht, mul_add_mod_of_lt ht]
      · exact and_iff_right hpp
      · rw [flatten_pieces hlen]
        exact fun i hi => h.lt_of_mem_chosenRanks rand hi
    rw [RankConfig.startLoadKv, hranks, Option.map_some]
    simp only [hlists]
  · intro groups hgroups
    obtain ⟨pulls, hpulls, hkeys⟩ := hybrid_ranks rand configured hgroups
    have hkinds : ∀ kind ∈ groups.map Prod.snd, kind.Fits g.prefillTpSize g.decodeTpSize :=
      forall_mem_map.mpr hgroups
    obtain ⟨ranks, hranks, hmem⟩ := prefiller_hybrid_ranks rand hkinds
    refine ⟨pulls, hpulls, fun pp hpp t ht => ?_⟩
    have hlists : pp * g.prefillTpSize + t ∈ pulls.flatMap Dict.keys ↔ t ∈ ranks := by
      rw [hmem t ht, hkeys, mul_add_div_of_lt ht, mul_add_mod_of_lt ht]
      simp only [mem_map, exists_exists_and_eq_and, hpp, true_and]
    rw [RankConfig.startLoadKv, hranks, Option.map_some]
    simp only [hlists]

def fourReplicas : Deployment :=
  { prefillTpSize := 8
    decodeTpSize := 4
    prefillPpSize := 2
    numKeyValueHeads := 2
    isDeepseekMla := false
    useSparse := false
    decode_pos := Nat.succ_pos 3
    decode_le := Nat.le_add_left 4 4
    prefillPp_pos := Nat.two_pos
    heads_pos := Nat.two_pos
    sparse_latent := by decide }

theorem remote_ranks_agree_four_replicas :
    (fourReplicas.decoder 8).getRemoteRanksForReq firstRanks (some 8) none none none =
      some [[0, 8], [1, 9], [4, 12], [5, 13]] ∧
    ([[0, 8], [1, 9], [4, 12], [5, 13]] : List (List Nat)).Pairwise List.Disjoint ∧
    fourReplicas.prefiller.startLoadKv firstRanks none 4 = some .delayed ∧
    fourReplicas.prefiller.startLoadKv firstRanks none 6 = some .notTransfer := by
  obtain ⟨lists, hlists, -, hdisjoint, -, -, hrelease, -⟩ :=
    remote_ranks_agree fourReplicas 8 firstRanks (by decide) (by decide) (by decide)
  have heq : (fourReplicas.decoder 8).getRemoteRanksForReq firstRanks (some 8) none none none =
      some [[0, 8], [1, 9], [4, 12], [5, 13]] := by decide
  have hl : lists = [[0, 8], [1, 9], [4, 12], [5, 13]] := Option.some_inj.mp (hlists.symm.trans heq)
  subst hl
  exact ⟨heq, hdisjoint, hrelease 1 (by decide) 4 (by decide), hrelease 1 (by decide) 6 (by decide)⟩

end Deployment

end VllmAscend.KvTransfer.Mooncake
