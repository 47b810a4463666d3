import VllmAscend.KvTransfer.Layerwise.Chunks
import VllmAscend.Lib.Exec

/-!
# DONE messages of the layerwise connector

A decoder device counts the ranks that have signalled a request and marks it done when they are as many as the
messages say.
-/

namespace VllmAscend.KvTransfer.Layerwise

open RoundRobin List Nat Dict Exec

/-! ## The receiving thread -/

abbrev Path := Nat × Nat

structure Receiver where
  taskTracker : Dict ReqId (List Path)
  doneRequests : List ReqId

def addPath (paths : List Path) (path : Path) : List Path := if path ∈ paths then paths else paths ++ [path]

theorem length_addPath_pos (paths : List Path) (path : Path) : 0 < (addPath paths path).length := by
  unfold addPath
  split
  · rename_i hmem
    exact length_pos_of_mem hmem
  · simp

namespace Receiver

def updateDoneTask (s : Receiver) (reqId : ReqId) (transCount : Int) (path : Path) : Receiver :=
  let paths := addPath (s.taskTracker.getD reqId []) path
  if (paths.length : Int) = transCount then
    { taskTracker := s.taskTracker.erase reqId
      doneRequests := if reqId ∈ s.doneRequests then s.doneRequests else s.doneRequests ++ [reqId] }
  else { s with taskTracker := s.taskTracker.set reqId paths }

theorem mem_doneRequests_updateDoneTask (s : Receiver) (r : ReqId) (transCount : Int)
    (path : Path) : r ∈ (s.updateDoneTask r transCount path).doneRequests ↔ r ∈ s.doneRequests ∨
        ((addPath (s.taskTracker.getD r []) path).length : Int) = transCount := by
  unfold updateDoneTask
  dsimp only
  split
  · rename_i heq
    refine iff_of_true ?_ (.inr heq)
    split
    · assumption
    · simp
  · rename_i hne
    simp [hne]

def afterDone (reqId : ReqId) (transCount : Int) (order : List Path) : Receiver :=
  order.foldl (fun s path => s.updateDoneTask reqId transCount path) ⟨∅, []⟩

theorem afterDone_spec (r : ReqId) (count : Int) {order : List Path} (h : order.Nodup) :
    (r ∈ (afterDone r count order).doneRequests ↔ 0 < count ∧ count ≤ order.length) ∧
    ((order.length : Int) < count → (afterDone r count order).taskTracker.getD r [] = order) := by
  induction order using reverseRecOn with
  | nil =>
    refine ⟨?_, fun _ => rfl⟩
    simp only [afterDone, foldl_nil, not_mem_nil, length_nil, false_iff]
    omega
  | append_singleton order path ih =>
    rw [nodup_append] at h
    obtain ⟨hdone, htracker⟩ := ih h.1
    have hlast : afterDone r count (order ++ [path]) =
        (afterDone r count order).updateDoneTask r count path := by
      simp [afterDone]
    rw [hlast]
    generalize afterDone r count order = s at hdone htracker
    have hpos := length_addPath_pos (s.taskTracker.getD r []) path
    rw [mem_doneRequests_updateDoneTask, hdone, length_append, length_singleton]
    by_cases hlt : (order.length : Int) < count
    · -- the tracker holds all ranks so far, and this one is new
      have hnew : path ∉ order := fun hmem => h.2.2 path hmem path (mem_singleton.mpr rfl) rfl
      have hadd : addPath (s.taskTracker.getD r []) path = order ++ [path] := by
        rw [htracker hlt, addPath, if_neg hnew]
      have hlen : (addPath (s.taskTracker.getD r []) path).length = order.length + 1 := by
        rw [hadd, length_append, length_singleton]
      refine ⟨by omega, fun hmore => ?_⟩
      rw [updateDoneTask, if_neg (by omega), ← hadd]
      simp [Dict.getD, get?_set]
    · exact ⟨by omega, fun hmore => by omega⟩

end Receiver

def DoneAtLast (reqId : ReqId) (transCount : Int) (senders : Finset Path) : Prop :=
  ∀ order : List Path, order.Nodup → order.toFinset = senders → ∀ k ≤ order.length,
    (reqId ∈ (Receiver.afterDone reqId transCount (order.take k)).doneRequests ↔ k = order.length)

theorem doneAtLast_iff {r : ReqId} {count : Int} {senders : Finset Path}
    (hne : senders.Nonempty) : DoneAtLast r count senders ↔ count = senders.card := by
  have hcard : ∀ {order : List Path}, order.Nodup → order.toFinset = senders → order.length = senders.card := by
    rintro order hnodup rfl
    exact (toFinset_card_of_nodup hnodup).symm
  have hpos : 0 < senders.card := Finset.card_pos.mpr hne
  have hdone : ∀ {order : List Path}, order.Nodup → order.toFinset = senders → ∀ k ≤ order.length,
      (r ∈ (Receiver.afterDone r count (order.take k)).doneRequests ↔
        0 < count ∧ count ≤ k) := by
    intro order hnodup _ k hk
    rw [(Receiver.afterDone_spec r count (hnodup.sublist (take_sublist k order))).1, length_take, min_eq_left hk]
  constructor
  · intro h
    have hall := h senders.toList senders.nodup_toList (Finset.toList_toFinset senders)
    have hlen := hcard senders.nodup_toList (Finset.toList_toFinset senders)
    have hlast := (hall _ le_rfl).mpr rfl
    have hbefore := mt (hall (senders.toList.length - 1) (by omega)).mp (by omega)
    rw [hdone senders.nodup_toList (Finset.toList_toFinset senders) _ le_rfl] at hlast
    rw [hdone senders.nodup_toList (Finset.toList_toFinset senders) _ (by omega)] at hbefore
    omega
  · intro heq order hnodup hset k hk
    rw [hdone hnodup hset k hk]
    have := hcard hnodup hset
    omega

/-! ## The devices a rank sends to -/

def AllSent (mappings : Dict Device BlockDict) : Prop :=
  ∀ device entry, mappings.get? device = some entry → entry.localBlockIds ≠ []

variable {mappings : Dict Device BlockDict}

theorem AllSent.addBlock (h : AllSent mappings) (device : Device)
    (pBlockId dBlockId : Nat) : AllSent (addBlock mappings device pBlockId dBlockId) := by
  intro device' entry hentry
  unfold Layerwise.addBlock at hentry
  rw [get?_set] at hentry
  split at hentry
  · cases hentry
    simp
  · exact h device' entry hentry

section Transfer

variable {d : ParallelInfo} {dHosts : List String} {dPort : Nat} {pBlockIds dBlockIds : List Nat}

variable {mappings out : Dict Device BlockDict}

theorem foldlM_addBlock {pBlockIdx logicBlockIdx : Nat} {dGroups : List Nat} (hsent : AllSent mappings)
    (h : dGroups.foldlM (fun mappings dHeadGroupRank => do
      let pBlockId ← pyGet pBlockIds pBlockIdx
      let dBlock := dBlockRank d dHosts dPort logicBlockIdx dHeadGroupRank
      let dBlockId ← pyGet dBlockIds dBlock.blockIdx
      return addBlock mappings dBlock.device pBlockId dBlockId) mappings = .ok out) :
    AllSent out ∧ ∀ device, device ∈ out.keys ↔ device ∈ mappings.keys ∨
      ∃ g ∈ dGroups, (dBlockRank d dHosts dPort logicBlockIdx g).device = device := by
  induction dGroups generalizing mappings with
  | nil =>
    cases h
    exact ⟨hsent, fun device => by simp⟩
  | cons g dGroups ih =>
    rw [foldlM_cons, except_bind_eq_ok] at h
    obtain ⟨next, hnext, hrest⟩ := h
    obtain ⟨pBlockId, -, hnext⟩ := except_bind_eq_ok.mp hnext
    obtain ⟨dBlockId, -, hnext⟩ := except_bind_eq_ok.mp hnext
    cases hnext
    obtain ⟨hsent', hkeys⟩ := ih (hsent.addBlock _ _ _) hrest
    refine ⟨hsent', fun device => ?_⟩
    rw [hkeys, addBlock, mem_keys_set, exists_mem_cons_iff, eq_comm, or_comm (b := device ∈ _), or_assoc]

theorem transferBlocks_spec {dGroups : List Nat} {transedIdx toTransIdx : Nat}
    {blocks : List (Nat × Nat)} (hsent : AllSent mappings)
    (h : transferBlocks d dHosts dPort pBlockIds dBlockIds dGroups transedIdx toTransIdx blocks
      mappings = .ok out) : AllSent out ∧ ∀ device, device ∈ out.keys ↔ device ∈ mappings.keys ∨
      ∃ b ∈ blocks.map Prod.fst, transedIdx ≤ b ∧ b < toTransIdx ∧
        ∃ g ∈ dGroups, (dBlockRank d dHosts dPort b g).device = device := by
  induction blocks generalizing mappings with
  | nil =>
    cases h
    exact ⟨hsent, fun device => by simp⟩
  | cons block blocks ih =>
    obtain ⟨b, i⟩ := block
    unfold transferBlocks at h
    simp only [map_cons, mem_cons, exists_eq_or_imp]
    split at h
    · obtain ⟨hsent', hkeys⟩ := ih hsent h
      refine ⟨hsent', fun device => ?_⟩
      rw [hkeys]
      have hout : ¬ (transedIdx ≤ b ∧ b < toTransIdx ∧
          ∃ g ∈ dGroups, (dBlockRank d dHosts dPort b g).device = device) := fun hin => by omega
      simp only [hout, false_or]
    · obtain ⟨next, hnext, hrest⟩ := except_bind_eq_ok.mp h
      obtain ⟨hsent₁, hkeys₁⟩ := foldlM_addBlock hsent hnext
      obtain ⟨hsent₂, hkeys₂⟩ := ih hsent₁ hrest
      refine ⟨hsent₂, fun device => ?_⟩
      rw [hkeys₂, hkeys₁]
      have hle : transedIdx ≤ b ∧ b < toTransIdx := by omega
      simp only [hle.1, hle.2, true_and, or_assoc]

end Transfer

/-! ## Devices -/

def deviceAt (d : ParallelInfo) (dHosts : List String) (dPort c h : Nat) : Device :=
  deviceOf d dHosts dPort (c / d.dcpSize) h (c % d.dcpSize)

section Devices

variable {d : ParallelInfo} (dHosts : List String) (dPort : Nat)

theorem dBlockRank_device (b h : Nat) :
    (dBlockRank d dHosts dPort b h).device = deviceAt d dHosts dPort (b % d.cpSize) h := by
  have hmod : b % d.cpSize = b % d.dcpSize + d.dcpSize * (b / d.dcpSize % d.pcpSize) := by
    rw [ParallelInfo.cpSize, mul_comm, mod_mul]
  unfold dBlockRank deviceAt
  rw [hmod, add_mul_mod_self_left, mod_mod]
  rcases Nat.eq_zero_or_pos d.dcpSize with hzero | hpos
  · simp [hzero, deviceOf]
  · rw [add_mul_div_left _ _ hpos, div_eq_of_lt (mod_lt _ hpos), zero_add]

variable {dHosts dPort} in
theorem deviceOf_inj {p h c p' h' c' : Nat} (hh : h < d.headGroupSize) (hh' : h' < d.headGroupSize)
    (hc : c < d.dcpSize) (hc' : c' < d.dcpSize)
    (he : deviceOf d dHosts dPort p h c = deviceOf d dHosts dPort p' h' c') : p = p' ∧ h = h' ∧ c = c' := by
  have hport : ofDigits d.dcpSize d.headGroupSize p h c = ofDigits d.dcpSize d.headGroupSize p' h' c' := by
    have := congrArg Prod.snd he
    simp only [deviceOf, add_left_cancel_iff] at this
    unfold RoundRobin.ofDigits
    rw [add_mul, add_mul]
    exact this
  have hround := ofDigits_div_round (a := p) hh hc
  rw [hport, ofDigits_div_round hh' hc'] at hround
  have howner := owner_ofDigits (a := p) hh hc
  rw [hport, owner_ofDigits hh' hc'] at howner
  have hmod := ofDigits_mod (W := d.headGroupSize) (a := p) (b := h) hc
  rw [hport, ofDigits_mod hc'] at hmod
  exact ⟨hround.symm, howner.symm, hmod.symm⟩

variable {dHosts dPort} in
theorem deviceAt_inj {c h c' h' : Nat} (hpos : 0 < d.dcpSize) (hh : h < d.headGroupSize) (hh' : h' < d.headGroupSize)
    (he : deviceAt d dHosts dPort c h = deviceAt d dHosts dPort c' h') : c = c' ∧ h = h' := by
  obtain ⟨h₁, h₂, h₃⟩ := deviceOf_inj hh hh' (mod_lt _ hpos) (mod_lt _ hpos) he
  refine ⟨?_, h₂⟩
  rw [← div_add_mod c d.dcpSize, h₁, h₃, div_add_mod]

theorem dTransCountMapping_getD (p : ParallelInfo) (len B remoteCacheTokens : Nat)
    {c h : Nat} (hc : c < d.cpSize) (hh : h < d.headGroupSize) :
    (dTransCountMapping p d dHosts dPort len B remoteCacheTokens).getD (deviceAt d dHosts dPort c h) 0 =
      transCount p d len B remoteCacheTokens c * p.pdHeadRatio := by
  have hpos : 0 < d.dcpSize := by
    rcases Nat.eq_zero_or_pos d.dcpSize with hzero | hpos
    · simp [ParallelInfo.cpSize, hzero] at hc
    · exact hpos
  have hp : c / d.dcpSize < d.pcpSize := Nat.div_lt_of_lt_mul (by rw [Nat.mul_comm]; exact hc)
  have hd := mod_lt c hpos
  unfold dTransCountMapping Dict.getD
  rw [get?_foldl_set (v := transCount p d len B remoteCacheTokens c * p.pdHeadRatio)]
  · rfl
  · simp only [mem_flatMap, mem_map, mem_range]
    refine ⟨c / d.dcpSize, hp, h, hh, c % d.dcpSize, hd, ?_⟩
    rw [div_add_mod']
    rfl
  · intro v hv
    simp only [mem_flatMap, mem_map, mem_range, Prod.mk.injEq] at hv
    obtain ⟨p', hp', h', hh', c', hc', hdev, rfl⟩ := hv
    obtain ⟨rfl, rfl, rfl⟩ := deviceOf_inj hh' hh hc' hd hdev
    rw [div_add_mod']

end Devices

/-! ## The signal of one rank -/

theorem mem_pdHeadMapping {pMapping dMapping : List (Nat × List Nat)} {p : Nat × List Nat}
    (hp : p ∈ pdHeadMapping pMapping dMapping) {h : Nat} (hh : h ∈ p.2) : h ∈ dMapping.map Prod.fst := by
  obtain ⟨q, -, rfl⟩ := mem_map.mp hp
  simp only [mem_insertionSort, mem_dedup, mem_flatMap] at hh
  obtain ⟨head, -, hh⟩ := hh
  obtain ⟨e, he, rfl⟩ := mem_map.mp hh
  exact mem_map.mpr ⟨e, (mem_filter.mp he).1, rfl⟩

theorem getHeadGroupMapping_lt {heads tp numGroups : Nat} {select : List Nat}
    {mapping : List (Nat × List Nat)} (h : getHeadGroupMapping heads tp numGroups select = .ok mapping)
    {g : Nat} (hg : g ∈ mapping.map Prod.fst) : g < numGroups := by
  unfold getHeadGroupMapping at h
  split at h
  · cases h
  · obtain ⟨tpMapping, -, h⟩ := except_bind_eq_ok.mp h
    cases h
    simp only [map_map, mem_map, mem_filter, mem_range] at hg
    obtain ⟨x, hx, rfl⟩ := hg
    exact hx.1

namespace Worker

variable {w : Worker} {m : ReqMeta} {reqIdx : Nat}

theorem decoderGroups_spec {selected dGroups : List Nat}
    (h : w.decoderGroups m reqIdx = .ok (some (selected, dGroups))) :
    w.headGroupRank ∈ selected ∧ ∀ g ∈ dGroups, g < (w.remoteInfo m).headGroupSize := by
  obtain ⟨groups, hgroups, h⟩ := except_bind_eq_ok.mp h
  cases groups with
  | none => cases h
  | some groups =>
    obtain ⟨-, -, h⟩ := except_bind_eq_ok.mp h
    obtain ⟨pMapping, -, h⟩ := except_bind_eq_ok.mp h
    obtain ⟨dMapping, hd, h⟩ := except_bind_eq_ok.mp h
    cases h
    constructor
    · unfold selectCpGroups at hgroups
      dsimp only at hgroups
      split at hgroups
      · cases hgroups
      · simp only [Except.ok.injEq] at hgroups
        simpa using find?_some hgroups
    · intro g hg
      cases hfind : (pdHeadMapping pMapping dMapping).find? (·.1 = w.headGroupRank) with
      | none => simp [hfind] at hg
      | some p =>
        rw [hfind] at hg
        exact getHeadGroupMapping_lt hd (mem_pdHeadMapping (mem_of_find?_eq_some hfind) hg)

theorem mem_pRankBlockMapping {selected : List Nat} {n b : Nat} (hg : w.headGroupRank ∈ selected) :
    b ∈ pRankBlockMapping w.info selected n w.pcpRank w.headGroupRank w.dcpRank ↔
      b < n ∧ b % w.cpSize = w.cpRank := by
  have hmod : b % w.cpSize = b % w.dcpSize + w.dcpSize * (b / w.dcpSize % w.pcpSize) := by
    rw [cpSize, mul_comm, mod_mul]
  have hpos : 0 < w.dcpSize := zero_lt_of_lt w.dcp_lt
  have hb := mod_lt b hpos
  have hrank : (b / w.dcpSize % w.pcpSize = w.pcpRank ∧ b % w.dcpSize = w.dcpRank) ↔
      b % w.cpSize = w.cpRank := by
    rw [hmod, cpRank, add_comm (b % w.dcpSize), mul_comm w.dcpSize]
    constructor
    · rintro ⟨h₁, h₂⟩
      rw [h₁, h₂]
    · intro he
      have hdiv := congrArg (· / w.dcpSize) he
      have hmod' := congrArg (· % w.dcpSize) he
      simp only [mul_add_div_of_lt hb, mul_add_div_of_lt w.dcp_lt] at hdiv
      simp only [mul_add_mod_of_lt hb, mul_add_mod_of_lt w.dcp_lt] at hmod'
      exact ⟨hdiv, hmod'⟩
  unfold pRankBlockMapping
  simp only [mem_filter, mem_range, decide_eq_true_eq, info, hg, and_true, hrank]

theorem doneSignals_spec (spec : GroupSpec) (hgroups : w.groups = [spec])
    (hattn : spec.isMamba = false) {l : List (Device × Int)} (h : w.doneSignals 0 m reqIdx = .ok l) :
    (∀ device, device ∈ l.map Prod.fst ↔ (w.span spec.blockSize m).chunkFinish = true ∧ ∃ selected dGroups,
      w.decoderGroups m reqIdx = .ok (some (selected, dGroups)) ∧ ∃ b ∈ (w.span spec.blockSize m).blocks, b % w.cpSize
      = w.cpRank ∧ ∃ g ∈ dGroups, deviceAt (w.remoteInfo m) [m.remoteHost] m.remotePort (b % (w.remoteInfo m).cpSize)
      g = device) ∧ ∀ device count, (device, count) ∈ l → count = (dTransCountMapping w.info (w.remoteInfo m)
      [m.remoteHost] m.remotePort m.promptLen spec.blockSize m.remoteCacheTokens).getD device 0 := by
  obtain ⟨⟨m', maps⟩, hsplit, h⟩ := except_bind_eq_ok.mp h
  obtain ⟨mappings, hmeta, hmaps⟩ : ∃ mappings,
      w.getKvSplitMetadata m reqIdx 0 spec.blockSize = .ok (m', mappings) ∧ maps = [mappings] := by
    unfold splitGroups at hsplit
    simp only [hgroups, zipIdx_cons, zipIdx_nil, foldlM_cons, foldlM_nil, hattn,
      Bool.false_eq_true, if_false] at hsplit
    obtain ⟨acc, hacc, hsplit⟩ := except_bind_eq_ok.mp hsplit
    obtain ⟨res, hres, hacc⟩ := except_bind_eq_ok.mp hacc
    cases hacc
    cases hsplit
    exact ⟨res.2, hres, rfl⟩
  subst hmaps
  have hl : l = if m'.chunkFinish then mappings.entries.filterMap (fun e =>
      if e.2.localBlockIds = [] then none else some (e.1, e.2.transCount)) else [] := by
    dsimp only at h
    split at h
    · cases h
    · cases h
      rfl
  obtain ⟨groups, hdec, hmeta⟩ := except_bind_eq_ok.mp hmeta
  have hdec' : w.decoderGroups m reqIdx = .ok groups := hdec
  cases groups with
  | none =>
    cases hmeta
    have hnil : l = [] := by
      rw [hl]
      split <;> rfl
    rw [hnil]
    simp [hdec']
  | some groups =>
    obtain ⟨selected, dGroups⟩ := groups
    obtain ⟨out, hout, hmeta⟩ := except_bind_eq_ok.mp hmeta
    cases hmeta
    obtain ⟨hsent, hkeys⟩ := transferBlocks_spec (fun _ _ hnone => by cases hnone) hout
    obtain ⟨hg, -⟩ := decoderGroups_spec hdec'
    have hentry : ∀ device count, (device, count) ∈ l ↔ (w.span spec.blockSize m).chunkFinish = true ∧
        device ∈ out.keys ∧ count = (dTransCountMapping w.info (w.remoteInfo m) [m.remoteHost]
          m.remotePort m.promptLen spec.blockSize m.remoteCacheTokens).getD device 0 := by
      intro device count
      rw [hl]
      dsimp only
      split
      · rename_i hfin
        simp only [withTransCount, mem_filterMap, mem_map, hfin, true_and]
        constructor
        · rintro ⟨-, ⟨e, he, rfl⟩, hsome⟩
          obtain ⟨_, ⟨⟩⟩ := Option.ite_none_left_eq_some.mp hsome
          exact ⟨mem_map.mpr ⟨e, he, rfl⟩, rfl⟩
        · rintro ⟨hmem, rfl⟩
          obtain ⟨entry, hget⟩ := exists_get?_of_mem_keys hmem
          refine ⟨_, ⟨_, mem_entries.mpr hget, rfl⟩, ?_⟩
          rw [if_neg (hsent device entry hget)]
          rfl
      · rename_i hopen
        simp [hopen]
    refine ⟨fun device => ?_, fun device count hmem => ((hentry device count).mp hmem).2.2⟩
    have hmem : device ∈ l.map Prod.fst ↔ (w.span spec.blockSize m).chunkFinish = true ∧ device ∈ out.keys := by
      constructor
      · intro hmem
        obtain ⟨e, he, rfl⟩ := mem_map.mp hmem
        have := (hentry e.1 e.2).mp he
        exact ⟨this.1, this.2.1⟩
      · rintro ⟨hfin, hmem⟩
        exact mem_map.mpr ⟨_, (hentry device _).mpr ⟨hfin, hmem, rfl⟩, rfl⟩
    rw [hmem, hkeys]
    refine and_congr_right fun _ => ?_
    simp only [hdec', Except.ok.injEq, Option.some.injEq, Prod.mk.injEq, keys_empty, not_mem_nil, false_or,
      Span.blocks, zipIdx_map_fst, dBlockRank_device, mem_pRankBlockMapping hg]
    constructor
    · rintro ⟨b, ⟨hb, hrank⟩, hle, -, hgroup⟩
      refine ⟨selected, dGroups, ⟨rfl, rfl⟩, b, ?_, hrank, hgroup⟩
      rw [mem_range'_1]
      omega
    · rintro ⟨_, _, ⟨rfl, rfl⟩, b, hb, hrank, hgroup⟩
      rw [mem_range'_1] at hb
      exact ⟨b, ⟨by omega, hrank⟩, by omega, by omega, hgroup⟩

end Worker

end VllmAscend.KvTransfer.Layerwise
