import VllmAscend.KvTransfer.AscendStore.Lookup

/-!
# Hits that every worker can load

A key names the worker by four ranks. The lookup writes two of them over.
-/

namespace VllmAscend.KvTransfer.AscendStore

open List Nat RankField ChunkedTokenDatabase WorkerRank Text

/-! ## The text of a key -/

def fieldText (name : String) (rank : Nat) : List Char := '@' :: (name.toList ++ toDigits 10 rank)

theorem fieldText_ne_nil (name : String) (rank : Nat) : fieldText name rank ≠ [] := cons_ne_nil _ _

def rankText (pcpRank dcpRank headOrTpRank ppRank : Nat) : List Char :=
  fieldText "pcp" pcpRank ++ fieldText "dcp" dcpRank ++
    fieldText "head_or_tp_rank:" headOrTpRank ++ fieldText "pp_rank:" ppRank

def PoolKey.tailText (key : PoolKey) : List Char :=
  let m := key.keyMetadata
  (s!"@group:{m.kvCacheGroupId}@cache_role:{m.cacheRole.name}" ++
    s!"@cache_family:{m.cacheFamily.name}@{key.chunkHash}").toList

def RankField.name : RankField → String
  | .headOrTpRank => "head_or_tp_rank:"
  | .ppRank => "pp_rank:"

theorem RankField.toList_marker (field : RankField) (rank : Nat) :
    (field.marker rank).toList = fieldText field.name rank := by
  have hmarker : field.marker rank = ("@" ++ field.name) ++ rank.repr := by cases field <;> rfl
  rw [hmarker, String.toList_append, toList_repr]
  cases field <;> rfl

theorem PoolKey.toList_toString (key : PoolKey) : key.toString.toList =
    key.keyMetadata.modelName.toList ++ (rankText key.keyMetadata.pcpRank key.keyMetadata.dcpRank
      key.keyMetadata.headOrTpRank key.keyMetadata.ppRank ++ key.tailText) := by
  have hfield : ∀ (name : String) (rank : Nat) (rest : List Char), fieldText name rank ++ rest =
      '@' :: (name.toList ++ (toDigits 10 rank ++ rest)) := by
    intro name rank rest
    rw [fieldText, cons_append, append_assoc]
  simp only [PoolKey.toString, tailText, rankText, String.toList_append, append_assoc]
  simp only [hfield, toString_eq_repr, toList_repr]
  rfl

theorem fieldText_inj {name : String} (hname : '@' ∉ name.toList) {p q : List Char} {a b : Nat}
    (h : p ++ fieldText name a = q ++ fieldText name b) : p = q ∧ a = b := by
  have hno : ∀ n, '@' ∉ name.toList ++ toDigits 10 n := fun n hmem =>
    (mem_append.mp hmem).elim hname (not_mem_toDigits (by decide) n)
  obtain ⟨hp, hdigits⟩ := append_cons_inj_of_not_mem_right (hno a) (hno b) h
  exact ⟨hp, toDigits_injective (append_cancel_left hdigits)⟩

theorem rankText_inj {p q tail : List Char} {pcp dcp head pp pcp' dcp' head' pp' : Nat}
    (h : p ++ (rankText pcp dcp head pp ++ tail) = q ++ (rankText pcp' dcp' head' pp' ++ tail)) :
    pcp = pcp' ∧ dcp = dcp' ∧ head = head' ∧ pp = pp' := by
  rw [← append_assoc, ← append_assoc, append_cancel_right_eq] at h
  simp only [rankText, ← append_assoc] at h
  obtain ⟨h, hpp⟩ := fieldText_inj (by decide) h
  obtain ⟨h, hhead⟩ := fieldText_inj (by decide) h
  obtain ⟨h, hdcp⟩ := fieldText_inj (by decide) h
  obtain ⟨-, hpcp⟩ := fieldText_inj (by decide) h
  exact ⟨hpcp, hdcp, hhead, hpp⟩

/-! ## The keys of a lookup -/

/-- The name of the model holds what the lookup searches for. -/
def RankField.In (field : RankField) (text : List Char) : Prop := (field.marker 0).toList <:+: text

instance (field : RankField) (text : List Char) : Decidable (field.In text) := inferInstanceAs (Decidable (_ <:+: _))

theorem RankField.toList_variant (field : RankField) (rank : Nat) (item : String) : (field.variant rank item).toList =
      replaceFirst (field.marker 0).toList (field.marker rank).toList item.toList :=
  toList_replaceOnce item _ _

section Variants

variable {p tail : List Char} {item : String}

variable (rank : Nat)

theorem RankField.variant_of_not_in {field : RankField} (h : ¬ field.In p) {body : List Char}
    (hitem : item.toList = p ++ '@' :: body) : (field.variant rank item).toList =
      p ++ replaceFirst (fieldText field.name 0) (fieldText field.name rank) ('@' :: body) := by
  rw [In, toList_marker] at h
  rw [toList_variant, hitem, toList_marker, toList_marker]
  exact replaceFirst_append (by cases field <;> decide) h _

theorem replaceFirst_ppRank (new : List Char) (head : Nat) (rest : List Char) :
    replaceFirst (fieldText "pp_rank:" 0) new (fieldText "pcp" 0 ++ (fieldText "dcp" 0 ++
        (fieldText "head_or_tp_rank:" head ++ (fieldText "pp_rank:" 0 ++ rest)))) =
      fieldText "pcp" 0 ++ (fieldText "dcp" 0 ++ (fieldText "head_or_tp_rank:" head ++ (new ++ rest))) := by
  have hdigits : replaceFirst (fieldText "pp_rank:" 0) new
      (toDigits 10 head ++ (fieldText "pp_rank:" 0 ++ rest)) =
      toDigits 10 head ++ replaceFirst (fieldText "pp_rank:" 0) new (fieldText "pp_rank:" 0 ++ rest) :=
    replaceFirst_append_of_not_mem (by decide) (not_mem_toDigits (by decide) head) _
  have hname : fieldText "head_or_tp_rank:" head = "@head_or_tp_rank:".toList ++ toDigits 10 head := rfl
  rw [replaceFirst_append_self (fieldText_ne_nil "pp_rank:" 0)] at hdigits
  rw [hname, append_assoc, append_assoc, ← hdigits]
  rfl

theorem headVariant_of_not_in (h : ¬ headOrTpRank.In p) {pp : Nat}
    (hitem : item.toList = p ++ (rankText 0 0 0 pp ++ tail)) :
    (headOrTpRank.variant rank item).toList = p ++ (rankText 0 0 rank pp ++ tail) := by
  refine (variant_of_not_in rank h hitem).trans (congrArg (p ++ ·) ?_)
  change replaceFirst _ _ (rankText _ _ _ _ ++ tail) = _
  simp only [rankText, append_assoc]
  rfl

theorem ppVariant_of_not_in (h : ¬ ppRank.In p) {head : Nat}
    (hitem : item.toList = p ++ (rankText 0 0 head 0 ++ tail)) :
    (ppRank.variant rank item).toList = p ++ (rankText 0 0 head rank ++ tail) := by
  refine (variant_of_not_in rank h hitem).trans (congrArg (p ++ ·) ?_)
  change replaceFirst _ _ (rankText _ _ _ _ ++ tail) = _
  simp only [rankText, append_assoc]
  exact replaceFirst_ppRank _ head _

theorem exists_variant_of_in {field : RankField} (h : field.In p) {body : List Char}
    (hitem : item.toList = p ++ body) : ∃ q, (field.variant rank item).toList = q ++ body := by
  obtain ⟨q, hq⟩ := exists_replaceFirst_append (field.toList_marker 0 ▸ fieldText_ne_nil _ _) h
  exact ⟨q, by rw [toList_variant, hitem, hq]⟩

end Variants

/-! ## The ranks of the workers -/

section Ranks

variable {cfg : PoolConfig}

theorem WorkerRank.toList_key (worker : WorkerRank cfg) (hash : String) :
    (worker.tokenDatabase.groupKey worker.keyMetadata 0 hash).toString.toList =
      cfg.modelName.toList ++ (rankText worker.pcpRank worker.dcpRank (cfg.headOrTpRank worker.tpRank)
        worker.ppRank ++ (cfg.zeroKey hash).tailText) :=
  PoolKey.toList_toString _

theorem WorkerRank.ppRank_lt (worker : WorkerRank cfg) : worker.ppRank < cfg.ppSize := mod_lt _ cfg.pp_pos

theorem PoolConfig.headOrTpRank_zero : cfg.headOrTpRank 0 = 0 := by
  unfold headOrTpRank
  split
  · exact Nat.zero_div _
  · rfl

theorem PoolConfig.toList_zeroKey (hash : String) : (cfg.zeroKey hash).toString.toList =
    cfg.modelName.toList ++ (rankText 0 0 0 0 ++ (cfg.zeroKey hash).tailText) := by
  have hpp : cfg.rankZero.ppRank = 0 := by simp [WorkerRank.ppRank, WorkerRank.rank, PoolConfig.rankZero]
  have hdcp : cfg.rankZero.dcpRank = 0 := zero_mod _
  have hkey := cfg.rankZero.toList_key hash
  rw [hpp, hdcp] at hkey
  exact hkey.trans (by rw [show cfg.headOrTpRank cfg.rankZero.tpRank = 0 from headOrTpRank_zero]; rfl)

theorem PoolConfig.numKvHead_dvd : cfg.numKvHead ∣ cfg.tpSize ∨ cfg.tpSize ∣ cfg.numKvHead := by
  unfold numKvHead
  split
  · exact .inl (one_dvd _)
  · exact cfg.heads

theorem PoolConfig.headOrTpRank_lt {tpRank : Nat} (h : tpRank < cfg.tpSize) :
    cfg.headOrTpRank tpRank < min cfg.tpSize cfg.numKvHead := by
  unfold headOrTpRank
  split
  next hlt =>
    have hdvd : cfg.numKvHead ∣ cfg.tpSize := cfg.numKvHead_dvd.resolve_right fun hdvd =>
      not_lt.mpr (le_of_dvd cfg.numKvHead_pos hdvd) hlt
    rw [min_eq_right (le_of_lt hlt)]
    apply Nat.div_lt_of_lt_mul
    rwa [Nat.div_mul_cancel hdvd]
  next hle => rwa [Nat.min_eq_left (Nat.le_of_not_lt hle)]

theorem PoolConfig.exists_headOrTpRank_eq_one (h : 1 < min cfg.tpSize cfg.numKvHead) :
    ∃ tpRank < cfg.tpSize, cfg.headOrTpRank tpRank = 1 := by
  obtain ⟨htp, hheads⟩ := Nat.lt_min.mp h
  unfold headOrTpRank
  split
  next hlt =>
    refine ⟨cfg.tpSize / cfg.numKvHead, div_lt_self cfg.tp_pos hheads, ?_⟩
    exact Nat.div_self (Nat.div_pos (Nat.le_of_lt hlt) cfg.numKvHead_pos)
  next => exact ⟨1, htp, rfl⟩

theorem PoolConfig.getGroupTpSize_le : cfg.getGroupTpSize ≤ min cfg.tpSize cfg.numKvHead := by
  refine min_le_min_left _ ?_
  unfold getGroupNumKvHeads
  split
  · exact cfg.numKvHead_pos
  · exact le_refl _

theorem PoolConfig.min_le_getGroupTpSize (h : cfg.useSparse = true → min cfg.tpSize cfg.numKvHead = 1) :
    min cfg.tpSize cfg.numKvHead ≤ cfg.getGroupTpSize := by
  by_cases hsparse : cfg.useSparse = true
  · rw [h hsparse]
    exact cfg.getGroupTpSize_pos
  · refine min_le_min_left _ ?_
    unfold getGroupNumKvHeads numKvHead
    cases cfg.useMla <;> simp [hsparse]

end Ranks

/-! ## Hits -/

namespace PoolConfig

variable {cfg : PoolConfig}

/-- The lookup writes the keys of all workers: only the ranks it knows vary, it knows how many there
are, and the name of the model does not hold the text it searches for. -/
def AllRanksWritten (cfg : PoolConfig) : Prop :=
  cfg.pcpSize = 1 ∧ cfg.dcpSize = 1 ∧
  (cfg.useSparse = true → min cfg.tpSize cfg.numKvHead = 1) ∧
  (cfg.getGroupTpSize = 1 ∨ ¬ RankField.headOrTpRank.In cfg.modelName.toList) ∧
  (cfg.ppSize = 1 ∨ ¬ RankField.ppRank.In cfg.modelName.toList)

instance (cfg : PoolConfig) : Decidable cfg.AllRanksWritten := inferInstanceAs (Decidable (_ ∧ _))

theorem AllRanksWritten.variant_eq (h : cfg.AllRanksWritten) (worker : WorkerRank cfg) (hash : String) :
    ppRank.variant worker.ppRank
      (RankField.headOrTpRank.variant (cfg.headOrTpRank worker.tpRank) (cfg.zeroKey hash).toString) =
      (worker.tokenDatabase.groupKey worker.keyMetadata 0 hash).toString := by
  obtain ⟨hpcp, hdcp, hsparse, hhead, hpp⟩ := h
  have hrank : cfg.headOrTpRank worker.tpRank < cfg.getGroupTpSize :=
    (headOrTpRank_lt worker.tpRank.isLt).trans_le (min_le_getGroupTpSize hsparse)
  have hheadText : (RankField.headOrTpRank.variant (cfg.headOrTpRank worker.tpRank)
      (cfg.zeroKey hash).toString).toList = cfg.modelName.toList ++
        (rankText 0 0 (cfg.headOrTpRank worker.tpRank) 0 ++ (cfg.zeroKey hash).tailText) := by
    rcases hhead with hone | hin
    · rw [show cfg.headOrTpRank worker.tpRank = 0 by omega, variant_zero]
      exact toList_zeroKey hash
    · exact headVariant_of_not_in _ hin (toList_zeroKey hash)
  have hpcpRank : (worker.pcpRank : Nat) = 0 := by omega
  have hdcpRank : worker.dcpRank = 0 := by rw [dcpRank, hdcp, mod_one]
  rw [← String.toList_inj, worker.toList_key, hpcpRank, hdcpRank]
  rcases hpp with hone | hin
  · have hlt := worker.ppRank_lt
    rw [show worker.ppRank = 0 by omega, variant_zero]
    exact hheadText
  · exact ppVariant_of_not_in _ hin hheadText

theorem mem_of_max?_getD_pos {hits : List Nat} {hit : Nat} (h : hit = hits.max?.getD 0) (hpos : 0 < hit) :
    hit ∈ hits := by
  cases hmax : hits.max? with
  | none =>
    rw [hmax] at h
    exact absurd h (ne_of_gt hpos)
  | some m =>
    rw [hmax] at h
    exact h ▸ max?_mem hmax

theorem le_max?_getD {hits : List Nat} {hit : Nat} (h : hit ∈ hits) : hit ≤ hits.max?.getD 0 := by
  cases hmax : hits.max? with
  | none =>
    rw [max?_eq_none_iff.mp hmax] at h
    cases h
  | some m => exact (max?_eq_some_iff.mp hmax).2 hit h

theorem found_of_mem_chunkSpans {store : String → Bool} {tokenLen maskNum : Nat} {hashes : List String}
    (hpos : 0 < cfg.lookupScheduler store tokenLen hashes) {span : Nat × Nat × String}
    (hspan : span ∈ cfg.rankZero.tokenDatabase.chunkSpans
      (cfg.lookupScheduler store tokenLen hashes) hashes maskNum 0) : cfg.Found store span.2.2 := by
  obtain ⟨hits, hlookup, hhits⟩ := cfg.lookupScheduler_eq store tokenLen hashes
  generalize hhit : cfg.lookupScheduler store tokenLen hashes = hit at hpos hspan hlookup
  have hin : hit ∈ hits := mem_of_max?_getD_pos hlookup hpos
  obtain ⟨-, last, hlast, hend, hearlier⟩ := (hhits hit).mp hin
  obtain ⟨lastId, -, -, -, hlastStart, hlastEnd, -⟩ := (mem_chunkSpans _).mp hlast
  obtain ⟨chunkId, hhash, hlt, -, hstart, hspanEnd, hne⟩ := (mem_chunkSpans _).mp hspan
  have hbound : hit ≤ min (lastId * _ + _) tokenLen := hend ▸ hlastEnd ▸ div_le_self _ _
  obtain ⟨hchunk, htokens⟩ := le_min_iff.mp hbound
  have hid : chunkId ≤ lastId := by
    have hmul := hlt.trans_le hchunk
    rw [← succ_mul] at hmul
    exact le_of_lt_succ (Nat.lt_of_mul_lt_mul_right hmul)
  -- The same chunk of the longer prompt ends later, if it is cut at all.
  let db := cfg.rankZero.tokenDatabase
  have hsame : (span.1, min (chunkId * db.chunkSize 0 + db.chunkSize 0) tokenLen / db.familyRatio 0, span.2.2) ∈
      db.chunkSpans tokenLen hashes 0 0 := by
    refine (mem_chunkSpans _).mpr ⟨chunkId, hhash, hlt.trans_le htokens, zero_le _, hstart, rfl, ?_⟩
    exact (hspanEnd ▸ hne).trans_le (Nat.div_le_div_right (min_le_min_left _ htokens))
  refine (hearlier _ hsame ?_).2
  rw [hstart, hlastStart]
  exact mul_le_mul_right _ hid

theorem AllRanksWritten.hitsLoadable (h : cfg.AllRanksWritten) : cfg.HitsLoadable := by
  intro store tokenLen blockHashes hpos worker blockIds vllmCachedTokens
  obtain ⟨placed, hplaced, hmem⟩ := worker.tokenDatabase.processTokensWithBlockIds_subset worker.metadata_zero
    (cfg.lookupScheduler store tokenLen blockHashes) blockHashes blockIds
    (vllmCachedTokens / cfg.groupedBlockSize * cfg.groupedBlockSize) false
  refine ⟨_, by rw [loadKeys, hplaced, Option.map_some], ?_⟩
  refine forall_mem_map.mpr fun x hx => ?_
  obtain ⟨span, hspan, hchunk⟩ := hmem x hx
  rw [hchunk, spanChunk, ← h.variant_eq worker]
  have hrank : cfg.headOrTpRank worker.tpRank < cfg.getGroupTpSize :=
    (headOrTpRank_lt worker.tpRank.isLt).trans_le (min_le_getGroupTpSize h.2.2.1)
  exact found_of_mem_chunkSpans hpos hspan _ worker.ppRank_lt _ hrank

theorem hitsLoadable_of_lt (h : cfg.maxModelLen < cfg.cacheTransferGranularity) : cfg.HitsLoadable := by
  intro store tokenLen blockHashes hpos
  obtain ⟨hits, hlookup, hhits⟩ := cfg.lookupScheduler_eq store tokenLen blockHashes
  obtain ⟨hdvd, last, hlast, hend, hearlier⟩ := (hhits _).mp (mem_of_max?_getD_pos hlookup hpos)
  have hle : cfg.lookupScheduler store tokenLen blockHashes ≤ cfg.maxModelLen :=
    hend ▸ (hearlier last hlast (le_refl _)).1
  exact absurd (le_of_dvd hpos hdvd) (by omega)


theorem cacheTransferGranularity_eq (cfg : PoolConfig) :
    cfg.cacheTransferGranularity = cfg.rankZero.tokenDatabase.chunkSize 0 := by
  have hratio : cfg.rankZero.tokenDatabase.familyRatio 0 = inferCacheFamilyRatio cfg.cacheFamily :=
    max_eq_left cfg.ratio_pos
  rw [chunkSize, hratio]
  exact lcm_eq_right (dvd_mul_right _ _)

variable (hmax : cfg.cacheTransferGranularity ≤ cfg.maxModelLen)

include hmax

theorem exists_prompt :
    ∃ tokenLen blockHashes chunkHash, (∀ store, cfg.Found store chunkHash →
        cfg.cacheTransferGranularity ≤ cfg.lookupScheduler store tokenLen blockHashes) ∧
      ∀ hit, cfg.cacheTransferGranularity ≤ hit →
        (0, cfg.groupedBlockSize, chunkHash) ∈ cfg.rankZero.tokenDatabase.chunkSpans hit blockHashes 0 0 := by
  let db := cfg.rankZero.tokenDatabase
  let ratio := db.familyRatio 0
  have hratio : 0 < ratio := db.familyRatio_pos 0
  have hblock : 0 < db.getBlockSize 0 := db.getBlockSize_pos 0
  have hgranularity : cfg.cacheTransferGranularity = db.chunkSize 0 := cfg.cacheTransferGranularity_eq
  generalize hsize : cfg.cacheTransferGranularity = size at hmax hgranularity
  have hpos : 0 < size := hgranularity ▸ db.chunkSize_pos 0
  obtain ⟨blockHashes, chunkHash, hhashes⟩ := db.exists_chunkHash?_eq 0 ratio
  refine ⟨ratio * size, blockHashes, chunkHash, fun store hfound => ?_, fun hit hhit => ?_⟩
  · obtain ⟨hits, hlookup, hhits⟩ := cfg.lookupScheduler_eq store (ratio * size) blockHashes
    rw [hlookup]
    -- The last chunk ends at a multiple of the granularity.
    have hprev : (ratio - 1) * size + size = ratio * size := by
      rw [← succ_mul, succ_eq_add_one, Nat.sub_add_cancel hratio]
    have hlast : ((ratio - 1) * db.getBlockSize 0, size, chunkHash) ∈
        db.chunkSpans (ratio * size) blockHashes 0 0 := by
      refine db.mem_chunkSpans.mpr ⟨ratio - 1, ?_, ?_, zero_le _, rfl, ?_, ?_⟩
      · rw [hhashes, if_pos (sub_lt hratio zero_lt_one)]
      · rw [← hgranularity]
        exact (Nat.lt_add_of_pos_right hpos).trans_eq hprev
      · rw [← hgranularity, hprev, Nat.min_self, Nat.mul_div_cancel_left size hratio]
      · rw [hgranularity, mul_comm]
        exact mul_lt_mul_of_pos_left (sub_lt hratio zero_lt_one) hblock
    refine le_max?_getD ((hhits size).mpr ⟨hsize.dvd, _, hlast, rfl, fun earlier hearlier _ => ?_⟩)
    obtain ⟨chunkId, hhash, -, -, -, hend, -⟩ := db.mem_chunkSpans.mp hearlier
    rw [hhashes] at hhash
    split at hhash
    · rw [← Option.some.inj hhash]
      refine ⟨?_, hfound⟩
      calc earlier.2.1 ≤ ratio * size / ratio := hend ▸ Nat.div_le_div_right (Nat.min_le_right _ _)
        _ = size := Nat.mul_div_cancel_left size hratio
        _ ≤ cfg.maxModelLen := hmax
    · cases hhash
  · refine db.mem_chunkSpans.mpr ⟨0, ?_, ?_, zero_le _, (zero_mul _).symm, ?_, hblock⟩
    · rw [hhashes, if_pos hratio]
    · rw [zero_mul]
      exact hpos.trans_le hhit
    · rw [zero_mul, zero_add, ← hgranularity, min_eq_left hhit, hgranularity]
      exact (Nat.mul_div_cancel _ hratio).symm

theorem exists_variant_of_hitsLoadable (h : cfg.HitsLoadable) (worker : WorkerRank cfg) :
    ∃ chunkHash, ∃ j < cfg.ppSize, ∃ i < cfg.getGroupTpSize,
      (worker.tokenDatabase.groupKey worker.keyMetadata 0 chunkHash).toString = ppRank.variant j
        (RankField.headOrTpRank.variant i (cfg.zeroKey chunkHash).toString) := by
  classical
  obtain ⟨tokenLen, blockHashes, chunkHash, hlookup, hspan⟩ := exists_prompt hmax
  obtain ⟨store, hstore⟩ : ∃ store : String → Bool, ∀ key, store key = true ↔
      ∃ j < cfg.ppSize, ∃ i < cfg.getGroupTpSize, key = ppRank.variant j
        (RankField.headOrTpRank.variant i (cfg.zeroKey chunkHash).toString) :=
    ⟨fun key => decide _, fun key => decide_eq_true_iff⟩
  have hhit := hlookup store fun j hj i hi => (hstore _).mpr ⟨j, hj, i, hi, rfl⟩
  have hpos : 0 < cfg.cacheTransferGranularity :=
    cfg.cacheTransferGranularity_eq ▸ cfg.rankZero.tokenDatabase.chunkSize_pos 0
  obtain ⟨keys, hkeys, hall⟩ := h store tokenLen blockHashes (hpos.trans_le hhit) worker
    (replicate (cfg.lookupScheduler store tokenLen blockHashes) 1) 0
  let hit := cfg.lookupScheduler store tokenLen blockHashes
  let blockIds := replicate hit 1
  have hblocks : ∀ span ∈ worker.tokenDatabase.chunkSpans hit blockHashes 0 0,
      span.1 / worker.tokenDatabase.getBlockSize 0 < blockIds.length := by
    intro span hspan
    rw [length_replicate]
    exact worker.tokenDatabase.block_lt_of_mem_chunkSpans hspan
  obtain ⟨placed, hplaced, hmem⟩ := worker.tokenDatabase.mem_processTokensWithBlockIds worker.metadata_zero hblocks 0
  rw [loadKeys, Nat.zero_div, Nat.zero_mul, hplaced] at hkeys
  cases hkeys
  have hblock := getElem?_eq_getElem (hblocks _ (hspan _ hhit))
  have hkey := hall _ (mem_map_of_mem ((hmem ⟨_, _⟩).mpr ⟨_, hspan _ hhit, rfl, hblock⟩))
  exact ⟨chunkHash, (hstore _).mp hkey⟩

omit hmax in
theorem exists_variant_text (cfg : PoolConfig) (hash : String) (i j : Nat) : ∃ p q a b,
    (RankField.ppRank.variant j (RankField.headOrTpRank.variant i (cfg.zeroKey hash).toString)).toList =
      q ++ (rankText 0 0 a b ++ (cfg.zeroKey hash).tailText) ∧
    (p = cfg.modelName.toList ∧ a = i ∨ RankField.headOrTpRank.In cfg.modelName.toList ∧ i ≠ 0) ∧
    (i = 0 ∨ RankField.headOrTpRank.In cfg.modelName.toList → a = 0) ∧ (RankField.ppRank.In p → b = 0) := by
  obtain ⟨p, a, hhead, hp, ha⟩ : ∃ p a,
      (RankField.headOrTpRank.variant i (cfg.zeroKey hash).toString).toList =
        p ++ (rankText 0 0 a 0 ++ (cfg.zeroKey hash).tailText) ∧
      (p = cfg.modelName.toList ∧ a = i ∨ RankField.headOrTpRank.In cfg.modelName.toList ∧ i ≠ 0) ∧
      (i = 0 ∨ RankField.headOrTpRank.In cfg.modelName.toList → a = 0) := by
    by_cases hi : i = 0
    · subst hi
      refine ⟨cfg.modelName.toList, 0, ?_, .inl ⟨rfl, rfl⟩, fun _ => rfl⟩
      rw [variant_zero, toList_zeroKey]
    by_cases hin : RankField.headOrTpRank.In cfg.modelName.toList
    · obtain ⟨p, hp⟩ := exists_variant_of_in i hin (toList_zeroKey hash)
      exact ⟨p, 0, hp, .inr ⟨hin, hi⟩, fun _ => rfl⟩
    · refine ⟨cfg.modelName.toList, i, headVariant_of_not_in i hin (toList_zeroKey hash),
        .inl ⟨rfl, rfl⟩, fun h => absurd h ?_⟩
      exact not_or.mpr ⟨hi, hin⟩
  by_cases hin : ppRank.In p
  · obtain ⟨q, hq⟩ := exists_variant_of_in j hin hhead
    exact ⟨p, q, a, 0, hq, hp, ha, fun _ => rfl⟩
  · exact ⟨p, p, a, j, ppVariant_of_not_in j hin hhead, hp, ha, fun h => absurd h hin⟩

theorem ranks_of_hitsLoadable (h : cfg.HitsLoadable)
    (worker : WorkerRank cfg) : ∃ i < cfg.getGroupTpSize, ∃ p,
      (p = cfg.modelName.toList ∨ RankField.headOrTpRank.In cfg.modelName.toList ∧ i ≠ 0) ∧
      (worker.pcpRank : Nat) = 0 ∧ worker.dcpRank = 0 ∧
      (i = 0 ∨ RankField.headOrTpRank.In cfg.modelName.toList → cfg.headOrTpRank worker.tpRank = 0) ∧
      (ppRank.In p → worker.ppRank = 0) := by
  obtain ⟨chunkHash, j, hj, i, hi, heq⟩ := exists_variant_of_hitsLoadable hmax h worker
  obtain ⟨p, q, a, b, htext, hp, ha, hb⟩ := cfg.exists_variant_text chunkHash i j
  rw [← heq, worker.toList_key] at htext
  obtain ⟨hpcp, hdcp, rfl, rfl⟩ := rankText_inj htext
  exact ⟨i, hi, p, hp.imp_left And.left, hpcp, hdcp, ha, hb⟩

theorem allRanksWritten_of_hitsLoadable (h : cfg.HitsLoadable) : cfg.AllRanksWritten := by
  have hpcp : cfg.pcpSize = 1 := by
    by_contra hne
    have hlt : 1 < cfg.pcpSize := lt_of_le_of_ne cfg.pcp_pos (Ne.symm hne)
    obtain ⟨-, -, -, -, hzero, -⟩ := ranks_of_hitsLoadable hmax h ⟨⟨0, cfg.tp_pos⟩, ⟨1, hlt⟩, ⟨0, cfg.pp_pos⟩⟩
    exact one_ne_zero hzero
  have hdcp : cfg.dcpSize = 1 := by
    by_contra hne
    have hlt : 1 < cfg.dcpSize := lt_of_le_of_ne cfg.dcp_pos (Ne.symm hne)
    have htp : 1 < cfg.tpSize := hlt.trans_le (le_of_dvd cfg.tp_pos cfg.dcp_dvd)
    obtain ⟨-, -, -, -, -, hzero, -⟩ := ranks_of_hitsLoadable hmax h ⟨⟨1, htp⟩, ⟨0, cfg.pcp_pos⟩, ⟨0, cfg.pp_pos⟩⟩
    rw [dcpRank, mod_eq_of_lt hlt] at hzero
    exact one_ne_zero hzero
  have hheads : 1 < min cfg.tpSize cfg.numKvHead →
      cfg.getGroupTpSize ≠ 1 ∧ ¬ RankField.headOrTpRank.In cfg.modelName.toList := by
    intro hlt
    obtain ⟨tpRank, htp, hone⟩ := exists_headOrTpRank_eq_one hlt
    obtain ⟨i, hi, -, -, -, -, hzero, -⟩ := ranks_of_hitsLoadable hmax h
      ⟨⟨tpRank, htp⟩, ⟨0, cfg.pcp_pos⟩, ⟨0, cfg.pp_pos⟩⟩
    refine ⟨fun hgroup => ?_, fun hin => ?_⟩
    · exact one_ne_zero (hone.symm.trans (hzero (.inl (by omega))))
    · exact one_ne_zero (hone.symm.trans (hzero (.inr hin)))
  have hsparse : cfg.useSparse = true → min cfg.tpSize cfg.numKvHead = 1 := by
    intro hsparse
    by_contra hne
    refine (hheads ?_).1 ?_
    · have hpos : 0 < min cfg.tpSize cfg.numKvHead := Nat.lt_min.mpr ⟨cfg.tp_pos, cfg.numKvHead_pos⟩
      omega
    · rw [getGroupTpSize, getGroupNumKvHeads, hsparse, Bool.or_true]
      exact min_eq_right cfg.tp_pos
  have hname : cfg.getGroupTpSize = 1 ∨ ¬ RankField.headOrTpRank.In cfg.modelName.toList := by
    refine or_iff_not_imp_left.mpr fun hne => (hheads ?_).2
    have hpos := cfg.getGroupTpSize_pos
    have hle := cfg.getGroupTpSize_le
    omega
  refine ⟨hpcp, hdcp, hsparse, hname, or_iff_not_imp_left.mpr fun hne hin => ?_⟩
  have hlt : 1 < cfg.ppSize := lt_of_le_of_ne cfg.pp_pos (Ne.symm hne)
  obtain ⟨i, hi, p, hp, -, -, -, hzero⟩ := ranks_of_hitsLoadable hmax h
    ⟨⟨0, cfg.tp_pos⟩, ⟨0, cfg.pcp_pos⟩, ⟨1, hlt⟩⟩
  have hp : p = cfg.modelName.toList := hp.resolve_right fun hbad =>
    hname.elim (fun hone => hbad.2 (by omega)) fun hnot => hnot hbad.1
  have hzero := hzero (hp ▸ hin)
  rw [WorkerRank.ppRank, WorkerRank.rank] at hzero
  simp only [hpcp, Nat.one_mul, Nat.add_zero, Nat.div_self cfg.tp_pos, mod_eq_of_lt hlt] at hzero
  exact Nat.one_ne_zero hzero

omit hmax

theorem hitsLoadable_iff (cfg : PoolConfig) : cfg.HitsLoadable ↔
    cfg.maxModelLen < cfg.cacheTransferGranularity ∨ cfg.AllRanksWritten := by
  constructor
  · intro h
    rcases lt_or_ge cfg.maxModelLen cfg.cacheTransferGranularity with hlt | hge
    · exact .inl hlt
    · exact .inr (allRanksWritten_of_hitsLoadable hge h)
  · rintro (hlt | hall)
    · exact hitsLoadable_of_lt hlt
    · exact hall.hitsLoadable

def twoPcpRanks : PoolConfig where
  modelName := "m"
  tpSize := 1
  ppSize := 1
  pcpSize := 2
  dcpSize := 1
  totalNumKvHeads := 1
  useMla := false
  useSparse := false
  originalBlockSize := 2
  requestedHashBlockSize := none
  cacheFamily := .default
  maxModelLen := 8
  rehash := String.join
  tp_pos := Nat.one_pos
  pp_pos := Nat.one_pos
  pcp_pos := Nat.two_pos
  dcp_pos := Nat.one_pos
  dcp_dvd := by decide
  heads_pos := Nat.one_pos
  heads := by decide
  block_pos := Nat.two_pos
  hash_pos := by decide
  hash_dvd := by decide
  ratio_pos := by decide

def firstRankOnly (key : String) : Bool :=
  key == "m@pcp0@dcp0@head_or_tp_rank:0@pp_rank:0@group:0@cache_role:kv@cache_family:default@a"

theorem second_pcp_rank_misses : twoPcpRanks.lookupScheduler firstRankOnly 4 ["a"] = 4 ∧
    ∃ (worker : WorkerRank twoPcpRanks) (key : String),
      worker.loadKeys 4 ["a"] [1] 0 = some [key] ∧ firstRankOnly key = false :=
  ⟨by decide +kernel, ⟨⟨0, by decide⟩, ⟨1, by decide⟩, ⟨0, by decide⟩⟩,
    "m@pcp1@dcp0@head_or_tp_rank:0@pp_rank:0@group:0@cache_role:kv@cache_family:default@a",
    by decide +kernel, by decide +kernel⟩

end PoolConfig

end VllmAscend.KvTransfer.AscendStore
