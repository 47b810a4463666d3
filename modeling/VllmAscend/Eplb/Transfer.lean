import VllmAscend.Eplb.Plan
import VllmAscend.Lib.Loop

/-!
# The transfer puts every expert into its slot

A rank changes its weights only after all its sends are done, so every message carries old weights. A buffer belongs
to one entry of the receive list.
-/

namespace VllmAscend.Eplb

open Machine List Function Loop

variable {W : Type}

/-! ## The operations of a rank -/

section Ops

variable (numTensors : Nat) (old new : Nat → Nat → Int) (tasks : List Task) (rank : Nat)

def taskSends : List P2POp :=
  (sendsOf tasks rank).flatMap fun p => (range numTensors).map fun j => .isend (old rank p.2).toNat j p.1

def taskRecvs (infos : List ((Nat × Nat) × Nat)) : List P2POp :=
  infos.flatMap fun p => (range numTensors).map fun j => .irecv p.2 j p.1.1

def taskOps : List P2POp := taskSends numTensors old tasks rank ++ taskRecvs numTensors (recvsOf tasks rank).zipIdx

def taskRecvList : List (Int × Nat) := (recvsOf tasks rank).zipIdx.map fun p => (new rank p.1.2, p.2)

def pairTasks (src dst : Nat) : List Task := tasks.filter fun t => t.src = src ∧ t.dst = dst

variable {numTensors old tasks rank} {a b : List P2POp} {infos : List ((Nat × Nat) × Nat)} {src dst : Nat}

theorem sendsTo_append : sendsTo (a ++ b) dst = sendsTo a dst ++ sendsTo b dst := filterMap_append

theorem recvsFrom_append : recvsFrom (a ++ b) src = recvsFrom a src ++ recvsFrom b src := filterMap_append

theorem sendsTo_isend (slot d : Nat) :
    sendsTo ((range numTensors).map fun j => .isend slot j d) dst =
      if d = dst then (range numTensors).map fun j => (slot, j) else [] := by
  unfold sendsTo
  split <;> rename_i h <;> simp [h]

theorem recvsFrom_irecv (buffer s : Nat) :
    recvsFrom ((range numTensors).map fun j => .irecv buffer j s) src =
      if s = src then (range numTensors).map fun j => (buffer, j) else [] := by
  unfold recvsFrom
  split <;> rename_i h <;> simp [h]

theorem sendsTo_taskRecvs : sendsTo (taskRecvs numTensors infos) dst = [] := by
  induction infos with
  | nil => rfl
  | cons p rest ih =>
    rw [taskRecvs, flatMap_cons, sendsTo_append]
    have hp : sendsTo ((range numTensors).map fun j => .irecv p.2 j p.1.1) dst = [] := by
      simp [sendsTo, filterMap_map]
    rw [hp]
    exact ih

theorem recvsFrom_taskSends : recvsFrom (taskSends numTensors old tasks rank) src = [] := by
  unfold taskSends
  induction sendsOf tasks rank with
  | nil => rfl
  | cons p rest ih =>
    rw [flatMap_cons, recvsFrom_append, ih]
    simp [recvsFrom, filterMap_map]

theorem sendsTo_taskOps : sendsTo (taskOps numTensors old tasks rank) dst =
      (pairTasks tasks rank dst).flatMap fun t => (range numTensors).map fun j => ((old rank t.expert).toNat, j) := by
  rw [taskOps, sendsTo_append, sendsTo_taskRecvs, append_nil]
  induction tasks with
  | nil => rfl
  | cons t rest ih =>
    unfold taskSends sendsOf pairTasks at *
    by_cases hs : t.src = rank
    · rw [filter_cons_of_pos (by simpa using hs), map_cons, flatMap_cons,
        sendsTo_append, sendsTo_isend, ih]
      by_cases hd : t.dst = dst
      · simp [hs, hd]
      · simp [hd]
    · simpa [hs] using ih

theorem recvsFrom_taskRecvs : recvsFrom (taskRecvs numTensors infos) src = (infos.filter fun p => p.1.1 = src).flatMap fun p =>
        (range numTensors).map fun j => (p.2, j) := by
  unfold taskRecvs
  induction infos with
  | nil => rfl
  | cons p rest ih =>
    rw [flatMap_cons, recvsFrom_append, recvsFrom_irecv, ih]
    by_cases h : p.1.1 = src <;> simp [h]

theorem recvsFrom_taskOps : recvsFrom (taskOps numTensors old tasks rank) src =
      ((recvsOf tasks rank).zipIdx.filter fun p => p.1.1 = src).flatMap fun p =>
        (range numTensors).map fun j => (p.2, j) := by
  rw [taskOps, recvsFrom_append, recvsFrom_taskSends, nil_append, recvsFrom_taskRecvs]

theorem pair_experts (src dst : Nat) : ((sendsOf tasks src).filter fun p => p.1 = dst).map Prod.snd =
      (pairTasks tasks src dst).map Task.expert ∧ ((recvsOf tasks dst).filter fun p => p.1 = src).map Prod.snd =
      (pairTasks tasks src dst).map Task.expert := by
  unfold sendsOf recvsOf pairTasks
  constructor
  · rw [filter_map]
    simp [and_comm]
  · rw [filter_map]
    simp

theorem pair_matches (src dst : Nat) : Forall₂ (fun (t : Task) (p : (Nat × Nat) × Nat) =>
        t ∈ tasks ∧ t.src = src ∧ (recvsOf tasks dst)[p.2]? = some (src, t.expert))
      (pairTasks tasks src dst) ((recvsOf tasks dst).zipIdx.filter fun p => p.1.1 = src) := by
  have hmap : (pairTasks tasks src dst).map (fun t => (t.src, t.expert)) =
      ((recvsOf tasks dst).zipIdx.filter fun p => p.1.1 = src).map Prod.fst := by
    have h := filter_map (f := Prod.fst) (p := fun p : Nat × Nat => decide (p.1 = src))
      (l := (recvsOf tasks dst).zipIdx)
    rw [zipIdx_map_fst] at h
    rw [show ((recvsOf tasks dst).zipIdx.filter fun p => p.1.1 = src) =
      (recvsOf tasks dst).zipIdx.filter ((fun p : Nat × Nat => decide (p.1 = src)) ∘ Prod.fst) from rfl,
      ← h]
    unfold recvsOf pairTasks
    rw [filter_map]
    simp
  have hpair : Forall₂ (fun (t : Task) (p : (Nat × Nat) × Nat) => (t.src, t.expert) = p.1)
      (pairTasks tasks src dst)
      ((recvsOf tasks dst).zipIdx.filter fun p => p.1.1 = src) := by
    rw [← forall₂_eq_eq_eq, forall₂_map_left_iff, forall₂_map_right_iff] at hmap
    exact hmap
  rw [forall₂_iff_get] at hpair ⊢
  refine ⟨hpair.1, fun i h₁ h₂ => ?_⟩
  have heq := hpair.2 i h₁ h₂
  have hA := get_mem (pairTasks tasks src dst) ⟨i, h₁⟩
  have hB := get_mem ((recvsOf tasks dst).zipIdx.filter fun p => p.1.1 = src) ⟨i, h₂⟩
  simp only [pairTasks, mem_filter, decide_eq_true_eq] at hA hB
  obtain ⟨hmem, hsrc, -⟩ := hA
  refine ⟨hmem, hsrc, ?_⟩
  have hidx := mem_zipIdx_iff_getElem?.mp hB.1
  rw [hidx, ← heq]
  exact congrArg (fun s => some (s, _)) hsrc

theorem message_spec {k slot tensor buffer tensor' : Nat}
    (hs : (sendsTo (taskOps numTensors old tasks src) dst)[k]? = some (slot, tensor))
    (hr : (recvsFrom (taskOps numTensors old tasks dst) src)[k]? = some (buffer, tensor')) :
    ∃ t ∈ tasks, t.src = src ∧ slot = (old src t.expert).toNat ∧ tensor' = tensor ∧
      tensor < numTensors ∧ (recvsOf tasks dst)[buffer]? = some (src, t.expert) := by
  have hall : Forall₂ (fun x y : Nat × Nat => ∃ t ∈ tasks, t.src = src ∧
        x.1 = (old src t.expert).toNat ∧ y.2 = x.2 ∧ x.2 < numTensors ∧
        (recvsOf tasks dst)[y.1]? = some (src, t.expert))
      (sendsTo (taskOps numTensors old tasks src) dst)
      (recvsFrom (taskOps numTensors old tasks dst) src) := by
    rw [sendsTo_taskOps, recvsFrom_taskOps]
    refine rel_flatMap (pair_matches src dst) ?_
    rintro t p ⟨hmem, hsrc, hidx⟩
    rw [forall₂_map_left_iff, forall₂_map_right_iff, forall₂_same]
    intro j hj
    exact ⟨t, hmem, hsrc, rfl, rfl, mem_range.mp hj, hidx⟩
  obtain ⟨h₁, hs⟩ := List.getElem?_eq_some_iff.mp hs
  obtain ⟨h₂, hr⟩ := List.getElem?_eq_some_iff.mp hr
  have h := (forall₂_iff_get.mp hall).2 k h₁ h₂
  rw [get_eq_getElem, get_eq_getElem, hs, hr] at h
  exact h

theorem messages_length : (sendsTo (taskOps numTensors old tasks src) dst).length =
      (recvsFrom (taskOps numTensors old tasks dst) src).length := by
  rw [sendsTo_taskOps, recvsFrom_taskOps]
  simp [(pair_matches src dst).length_eq]

theorem mem_recvsFrom {expert buffer j : Nat} (hj : j < numTensors)
    (h : (recvsOf tasks dst)[buffer]? = some (src, expert)) :
    (buffer, j) ∈ recvsFrom (taskOps numTensors old tasks dst) src := by
  rw [recvsFrom_taskOps, mem_flatMap]
  refine ⟨((src, expert), buffer), ?_, mem_map.mpr ⟨j, mem_range.mpr hj, rfl⟩⟩
  rw [mem_filter]
  exact ⟨mem_zipIdx_iff_getElem?.mpr h, by simp⟩

end Ops

/-! ## One rank -/

structure Update (W : Type) where
  numRanks : Nat
  numExperts : Nat
  numSlots : Nat
  numTensors : Nat
  layerId : Nat
  old : Nat → Nat → Int
  new : Nat → Nat → Int
  weight : Nat → List W
  tasks : List Task
  info : UpdateInfo

namespace Update

variable (c : Update W)

def rankInfo (r : Nat) : RankInfo := packLayer c.numExperts r c.info

def ops (r : Nat) : List P2POp := taskOps c.numTensors c.old c.tasks r

structure Ok : Prop where
  update : UpdateOk c.numRanks c.numExperts c.numSlots c.old c.new
  planned : Planned c.numRanks c.numExperts c.new c.old c.tasks c.info
  layer : c.info.layerId = c.layerId
  weight_length : ∀ e < c.numExperts, (c.weight e).length = c.numTensors

structure Slots (m : Nat → Nat → Int) (r : Nat) (params : List (List W)) : Prop where
  length : params.length = c.numSlots
  slot : ∀ e < c.numExperts, m r e ≠ -1 → params[(m r e).toNat]? = some (c.weight e)

def buffers (ad : Adaptor W) : List (List W) := ad.bufferTensorList (ad.expertWeightKeyPerLayer c.layerId)

structure OldTables (r : Nat) (ad : Adaptor W) : Prop where
  map : ad.expertMapPerLayerCpu c.layerId = (range c.numExperts).map (c.old r)
  slots : c.Slots c.old r (ad.expertParamPerLayer c.layerId)
  buffers_length : (c.buffers ad).length = c.numSlots
  buffers_shape : ∀ b ∈ c.buffers ad, b.length = c.numTensors

def taskLoader (r : Nat) (state : ExpertWeightUpdateState) : Loader where
  commOpList := some (c.ops r)
  updatedExpertMap := some (c.rankInfo r).expertMap
  layerId := some c.layerId
  state := state
  recvExpertList := taskRecvList c.new c.tasks r

variable {c}

theorem Ok.task (h : c.Ok) {t : Task} (ht : t ∈ c.tasks) :
    t.dst < c.numRanks ∧ t.expert < c.numExperts ∧ c.old t.dst t.expert = -1 ∧
    c.new t.dst t.expert ≠ -1 ∧ t.src < c.numRanks ∧ c.old t.src t.expert ≠ -1 := by
  have hmem : (t.dst, t.expert) ∈ expertsToRecv c.numRanks c.numExperts c.new c.old := by
    rw [← h.planned.pairs]
    exact mem_map.mpr ⟨t, ht, rfl⟩
  obtain ⟨hd, he, hc⟩ := mem_whereTrue.mp hmem
  simp only [Bool.and_eq_true, beq_iff_eq, bne_iff_ne] at hc
  exact ⟨hd, he, hc.1, hc.2, (h.planned.src t ht).1, (h.planned.src t ht).2⟩

variable {r e : Nat} {ad : Adaptor W}

theorem Ok.recv (h : c.Ok) {src : Nat} (hmem : (src, e) ∈ recvsOf c.tasks r) :
    r < c.numRanks ∧ e < c.numExperts ∧ c.old r e = -1 ∧ c.new r e ≠ -1 ∧ src < c.numRanks := by
  simp only [recvsOf, mem_map, mem_filter, decide_eq_true_eq, Prod.mk.injEq] at hmem
  obtain ⟨t, ⟨ht, rfl⟩, rfl, rfl⟩ := hmem
  obtain ⟨h₁, h₂, h₃, h₄, h₅, -⟩ := h.task ht
  exact ⟨h₁, h₂, h₃, h₄, h₅⟩

theorem Ok.send (h : c.Ok) {dst : Nat} (hmem : (dst, e) ∈ sendsOf c.tasks r) : e < c.numExperts ∧ c.old r e ≠ -1 := by
  simp only [sendsOf, mem_map, mem_filter, decide_eq_true_eq, Prod.mk.injEq] at hmem
  obtain ⟨t, ⟨ht, rfl⟩, rfl, rfl⟩ := hmem
  obtain ⟨-, h₂, -, -, -, h₆⟩ := h.task ht
  exact ⟨h₂, h₆⟩

variable (hr : r < c.numRanks) (h : c.Ok)

include hr h

theorem Ok.mem_recvsOf (he : e < c.numExperts)
    (hold : c.old r e = -1) (hnew : c.new r e ≠ -1) : ∃ src, (src, e) ∈ recvsOf c.tasks r := by
  have hmem : (r, e) ∈ c.tasks.map fun t => (t.dst, t.expert) := by
    rw [h.planned.pairs]
    exact mem_whereTrue.mpr ⟨hr, he, by simp [hold, hnew]⟩
  obtain ⟨t, ht, heq⟩ := mem_map.mp hmem
  obtain ⟨rfl, rfl⟩ := Prod.mk.inj heq
  exact ⟨t.src, mem_map.mpr ⟨t, mem_filter.mpr ⟨ht, by simp⟩, rfl⟩⟩

omit h in
theorem slot_range {m : Nat → Nat → Int} (hm : ValidPlacement c.numRanks c.numExperts c.numSlots m)
    (he : e < c.numExperts) (h : m r e ≠ -1) : 0 ≤ m r e ∧ m r e < c.numSlots := by
  rcases hm.range r hr e he with h' | h'
  · exact absurd h' h
  · exact h'

omit h in
theorem slot_inj {m : Nat → Nat → Int} (hm : ValidPlacement c.numRanks c.numExperts c.numSlots m) {e' : Nat}
    (he : e < c.numExperts) (he' : e' < c.numExperts) (h : m r e ≠ -1) (h' : m r e' ≠ -1)
    (heq : (m r e).toNat = (m r e').toNat) : e = e' := by
  have h₁ := slot_range hr hm he h
  have h₂ := slot_range hr hm he' h'
  exact hm.distinct r hr e he e' he' h (by omega)

omit hr in
theorem Ok.recvs_length (r : Nat) : (recvsOf c.tasks r).length ≤ c.numSlots := by
  have hpairs : (c.tasks.map fun t => (t.dst, t.expert)).Nodup := by
    rw [h.planned.pairs]
    exact whereTrue_nodup ..
  set mine := c.tasks.filter fun t => t.dst = r with hmine
  have hslots : (mine.map fun t => (c.new r t.expert).toNat).Nodup := by
    refine ((Nodup.of_map _ hpairs).filter _).map_on ?_
    intro t ht t' ht' heq
    simp only [mem_filter, decide_eq_true_eq] at ht ht'
    obtain ⟨hd, he, -, hnew, -⟩ := h.task ht.1
    obtain ⟨hd', he', -, hnew', -⟩ := h.task ht'.1
    rw [ht.2] at hd hnew
    rw [ht'.2] at hnew'
    have hexp := slot_inj hd h.update.new_valid he he' hnew hnew' heq
    exact inj_on_of_nodup_map hpairs ht.1 ht'.1 (by rw [ht.2, ht'.2, hexp])
  have hsub : (mine.map fun t => (c.new r t.expert).toNat) ⊆ range c.numSlots := by
    refine forall_mem_map.mpr fun t ht => ?_
    simp only [hmine, mem_filter, decide_eq_true_eq] at ht
    obtain ⟨hd, he, -, hnew, -⟩ := h.task ht.1
    rw [ht.2] at hd hnew
    have := slot_range hd h.update.new_valid he hnew
    rw [mem_range]
    omega
  have hle := (subperm_of_subset hslots hsub).length_le
  simpa [recvsOf] using hle

omit hr h in
theorem pyIndex_of_range {len : Nat} {i : Int} (h0 : 0 ≤ i) (h : i < len) : pyIndex len i = some i.toNat := by
  unfold pyIndex
  rw [if_pos ⟨h0, h⟩]

theorem sendOps_spec (ha : c.OldTables r ad) {p : Nat × Nat} (hp : p ∈ sendsOf c.tasks r) : sendOps ad c.layerId p =
      some ((range c.numTensors).map fun j => .isend (c.old r p.2).toNat j p.1) := by
  obtain ⟨dst, e⟩ := p
  obtain ⟨he, hold⟩ := h.send hp
  obtain ⟨h0, hlt⟩ := slot_range hr h.update.old_valid he hold
  have hmap : (ad.expertMapPerLayerCpu c.layerId)[e]? = some (c.old r e) := by
    rw [ha.map]
    simp [he]
  have hidx : pyIndex (ad.expertParamPerLayer c.layerId).length (c.old r e) = some (c.old r e).toNat := by
    rw [ha.slots.length]
    exact pyIndex_of_range h0 hlt
  simp only [sendOps, hmap, hidx, ha.slots.slot e he hold, h.weight_length e he,
    Option.bind_eq_bind, Option.bind_some]

omit hr in
theorem recvOps_spec (ha : c.OldTables r ad)
    {p : (Nat × Nat) × Nat} (hp : p ∈ (recvsOf c.tasks r).zipIdx) : recvOps ad c.layerId (c.rankInfo r).expertMap p =
      some ((range c.numTensors).map fun j => .irecv p.2 j p.1.1, c.new r p.1.2, p.2) := by
  obtain ⟨⟨src, e⟩, i⟩ := p
  have hi := mem_zipIdx_iff_getElem?.mp hp
  obtain ⟨hlt, -⟩ := List.getElem?_eq_some_iff.mp hi
  obtain ⟨-, he, -⟩ := h.recv (mem_of_getElem? hi)
  have hbuf : i < (c.buffers ad).length := by
    rw [ha.buffers_length]
    exact hlt.trans_le (h.recvs_length r)
  have hb : (ad.bufferTensorList (ad.expertWeightKeyPerLayer c.layerId))[i]? =
      some ((c.buffers ad)[i]) := getElem?_eq_getElem hbuf
  have hmap : (c.rankInfo r).expertMap[e]? = some (c.new r e) := by simp [rankInfo, packLayer, h.planned.map, he]
  simp only [recvOps, hb, hmap, ha.buffers_shape _ (getElem_mem hbuf), Option.bind_eq_bind, Option.bind_some]

theorem generate_spec (ha : c.OldTables r ad) :
    generateExpertD2dTransferTask ad {} (c.rankInfo r) = some (c.taskLoader r .ready) := by
  have hsend : (c.rankInfo r).sendInfo = sendsOf c.tasks r := h.planned.send r
  have hrecv : (c.rankInfo r).recvInfo = recvsOf c.tasks r := h.planned.recv r
  have hlayer : (c.rankInfo r).layerId = c.layerId := h.layer
  unfold generateExpertD2dTransferTask
  rw [hsend, hrecv, hlayer, mapM_eq_map fun p hp => sendOps_spec hr h ha hp,
    mapM_eq_map fun p hp => recvOps_spec h ha hp]
  simp [taskLoader, ops, taskOps, taskSends, taskRecvs, taskRecvList, flatMap_def, comp_def]

/-! ## Copying the buffers into the slots -/

omit hr h in
def EntryOk (c : Update W) (r : Nat) (ad : Adaptor W) (p : Int × Nat) : Prop :=
  ∃ e < c.numExperts, c.new r e ≠ -1 ∧ p.1 = c.new r e ∧ (c.buffers ad)[p.2]? = some (c.weight e)

omit hr h in
structure ParamsShape (c : Update W) (params : List (List W)) : Prop where
  length : params.length = c.numSlots
  shape : ∀ p ∈ params, p.length = c.numTensors

theorem doUpdateExpertWeight_spec (hshape : c.ParamsShape (ad.expertParamPerLayer c.layerId)) {i : Nat} (he : e < c.numExperts)
    (hnew : c.new r e ≠ -1) (hbuf : (c.buffers ad)[i]? = some (c.weight e)) :
    doUpdateExpertWeight ad c.layerId (c.new r e, i) = some { ad with
      expertParamPerLayer := update ad.expertParamPerLayer c.layerId
        ((ad.expertParamPerLayer c.layerId).set (c.new r e).toNat (c.weight e)) } := by
  obtain ⟨h0, hlt⟩ := slot_range hr h.update.new_valid he hnew
  have hidx : pyIndex (ad.expertParamPerLayer c.layerId).length (c.new r e) = some (c.new r e).toNat := by
    rw [hshape.length]
    exact pyIndex_of_range h0 hlt
  have hin : (c.new r e).toNat < (ad.expertParamPerLayer c.layerId).length := by
    rw [hshape.length]
    omega
  have hbuf' : (ad.bufferTensorList (ad.expertWeightKeyPerLayer c.layerId))[i]? = some (c.weight e) := hbuf
  have hcopy : copyTensors (ad.expertParamPerLayer c.layerId)[(c.new r e).toNat] (c.weight e) = c.weight e := by
    have hlen := (hshape.shape _ (getElem_mem hin)).trans (h.weight_length e he).symm
    simp [copyTensors, hlen]
  simp only [doUpdateExpertWeight, hidx, getElem?_eq_getElem hin, hbuf', hcopy, Option.bind_eq_bind, Option.bind_some]

omit hr h in
theorem ParamsShape.set {params : List (List W)} (hshape : c.ParamsShape params) (s : Nat)
    {w : List W} (hw : w.length = c.numTensors) : c.ParamsShape (params.set s w) := by
  refine ⟨by simp [hshape.length], ?_⟩
  intro p hp
  rcases mem_or_eq_of_mem_set hp with hp | rfl
  · exact hshape.shape p hp
  · exact hw

theorem copyAll_spec (entries : List (Int × Nat)) (ad : Adaptor W) (hshape : c.ParamsShape (ad.expertParamPerLayer c.layerId))
    (hentries : ∀ p ∈ entries, c.EntryOk r ad p) :
    ∃ ad', entries.foldlM (fun ad p => doUpdateExpertWeight ad c.layerId p) ad = some ad' ∧
      (ad'.expertParamPerLayer c.layerId).length = c.numSlots ∧ ∀ e < c.numExperts, c.new r e ≠ -1 →
        ((∃ i, (c.new r e, i) ∈ entries) ∨
          (ad.expertParamPerLayer c.layerId)[(c.new r e).toNat]? = some (c.weight e)) →
        (ad'.expertParamPerLayer c.layerId)[(c.new r e).toNat]? = some (c.weight e) := by
  induction entries generalizing ad with
  | nil =>
    refine ⟨ad, rfl, hshape.length, ?_⟩
    rintro e - - (⟨i, hi⟩ | hslot)
    · simp at hi
    · exact hslot
  | cons p rest ih =>
    obtain ⟨x, i⟩ := p
    obtain ⟨e₀, he₀, hnew₀, rfl, hbuf⟩ := hentries (x, i) (by simp)
    set ad₁ : Adaptor W := { ad with
      expertParamPerLayer := update ad.expertParamPerLayer c.layerId
        ((ad.expertParamPerLayer c.layerId).set (c.new r e₀).toNat (c.weight e₀)) } with had₁
    have hrun : doUpdateExpertWeight ad c.layerId (c.new r e₀, i) = some ad₁ :=
      doUpdateExpertWeight_spec hr h hshape he₀ hnew₀ hbuf
    have hparams : ad₁.expertParamPerLayer c.layerId =
        (ad.expertParamPerLayer c.layerId).set (c.new r e₀).toNat (c.weight e₀) := by
      simp [had₁]
    have hshape₁ : c.ParamsShape (ad₁.expertParamPerLayer c.layerId) := by
      rw [hparams]
      exact hshape.set _ (h.weight_length e₀ he₀)
    obtain ⟨ad', hfold, hlen, hslots⟩ := ih ad₁ hshape₁ fun p hp => hentries p (mem_cons_of_mem _ hp)
    refine ⟨ad', by rw [foldlM_cons, hrun]; exact hfold, hlen, ?_⟩
    intro e he hnew hor
    apply hslots e he hnew
    by_cases hee : e = e₀
    · subst hee
      right
      have hrange := slot_range hr h.update.new_valid he hnew
      have hin : (c.new r e).toNat < (ad.expertParamPerLayer c.layerId).length := by
        rw [hshape.length]
        omega
      rw [hparams, getElem?_set_self hin]
    · -- Another expert has another slot.
      have hne : (c.new r e₀).toNat ≠ (c.new r e).toNat := fun heq =>
        hee (slot_inj hr h.update.new_valid he he₀ hnew hnew₀ heq.symm)
      rcases hor with ⟨i', hi'⟩ | hslot
      · rcases mem_cons.mp hi' with heq | hi'
        · have hx : c.new r e = c.new r e₀ := (Prod.mk.inj heq).1
          exact absurd (by rw [hx]) hne
        · exact .inl ⟨i', hi'⟩
      · right
        rw [hparams, getElem?_set_ne hne]
        exact hslot

theorem update_spec (ha : c.OldTables r ad)
    (hfilled : ∀ i src e : Nat, (recvsOf c.tasks r)[i]? = some (src, e) → (c.buffers ad)[i]? = some (c.weight e)) :
    ∃ ad', updateExpertMapAndWeight ad (c.taskLoader r .transferring) = some (ad', {}) ∧
      c.Slots c.new r (ad'.expertParamPerLayer c.layerId) := by
  have hshape : c.ParamsShape (ad.expertParamPerLayer c.layerId) := by
    refine ⟨ha.slots.length, ?_⟩
    intro p hp
    obtain ⟨s, hs⟩ := mem_iff_getElem?.mp hp
    obtain ⟨hlt, -⟩ := List.getElem?_eq_some_iff.mp hs
    rw [ha.slots.length] at hlt
    obtain ⟨e, he, hslot⟩ := h.update.old_valid.full r hr s hlt
    have hw := ha.slots.slot e he (by omega)
    rw [hslot, Int.toNat_natCast, hs] at hw
    rw [Option.some.inj hw]
    exact h.weight_length e he
  set ad₀ : Adaptor W := { ad with
    expertMapPerLayerCpu := update ad.expertMapPerLayerCpu c.layerId (c.rankInfo r).expertMap }
  have hentries : ∀ p ∈ taskRecvList c.new c.tasks r, c.EntryOk r ad₀ p := by
    intro p hp
    obtain ⟨⟨⟨src, e⟩, i⟩, hmem, rfl⟩ := mem_map.mp hp
    have hi := mem_zipIdx_iff_getElem?.mp hmem
    obtain ⟨-, he, -, hnew, -⟩ := h.recv (mem_of_getElem? hi)
    exact ⟨e, he, hnew, rfl, hfilled i src e hi⟩
  obtain ⟨ad', hrun, hlen, hslots⟩ := copyAll_spec hr h (taskRecvList c.new c.tasks r) ad₀ hshape hentries
  refine ⟨ad', ?_, hlen, ?_⟩
  · simp only [updateExpertMapAndWeight, taskLoader, ne_eq, not_true_eq_false, if_false,
      Option.bind_eq_bind, Option.bind_some]
    rw [hrun]
    rfl
  · intro e he hnew
    apply hslots e he hnew
    by_cases hold : c.old r e = -1
    · left
      obtain ⟨src, hmem⟩ := h.mem_recvsOf hr he hold hnew
      obtain ⟨i, hi⟩ := mem_iff_getElem?.mp hmem
      exact ⟨i, mem_map.mpr ⟨((src, e), i), mem_zipIdx_iff_getElem?.mpr hi, rfl⟩⟩
    · right
      rw [h.update.stays r hr e he hold hnew]
      exact ha.slots.slot e he hold

end Update

end VllmAscend.Eplb
