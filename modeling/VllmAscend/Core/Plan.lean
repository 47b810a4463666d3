import VllmAscend.Core.Request

/-!
# The plan of one scheduling step
-/

namespace VllmAscend.Core

open List Option Nat

structure Plan where
  running : List ReqId
  scheduledRunningReqs : List ReqId
  preemptedReqs : List ReqId
  reqToNewBlocks : Dict ReqId KVCacheBlocks
  numScheduledTokens : Dict ReqId Int
  tokenBudget : Int
  reqIndex : Nat

namespace Plan

def start (running : List ReqId) (tokenBudget : Int) : Plan :=
  { running, scheduledRunningReqs := [], preemptedReqs := [], reqToNewBlocks := ∅,
    numScheduledTokens := ∅, tokenBudget, reqIndex := 0 }

/-! ## Operations -/

def skip (p : Plan) : Plan := { p with reqIndex := p.reqIndex + 1 }

def commit (p : Plan) (r : ReqId) (numNewTokens : Int) (newBlocks : KVCacheBlocks) : Plan :=
  { p with
    scheduledRunningReqs := p.scheduledRunningReqs ++ [r]
    reqToNewBlocks := p.reqToNewBlocks.set r newBlocks
    numScheduledTokens := p.numScheduledTokens.set r numNewTokens
    tokenBudget := p.tokenBudget - numNewTokens
    reqIndex := p.reqIndex + 1 }

def removeRunning (running : List ReqId) (v : ReqId) : List ReqId :=
  if running.getLast? = some v then running.dropLast else running.erase v

/-- Undo the scheduling of a victim of this step. `none` is a `KeyError`. -/
def unschedule (p : Plan) (v : ReqId) : Option Plan :=
  if v ∈ p.scheduledRunningReqs then
    (p.numScheduledTokens.pop v).bind fun (n, numScheduledTokens) =>
      (p.reqToNewBlocks.pop v).map fun (_, reqToNewBlocks) =>
        { p with
          scheduledRunningReqs := p.scheduledRunningReqs.erase v
          tokenBudget := p.tokenBudget + n
          numScheduledTokens
          reqToNewBlocks
          reqIndex := p.reqIndex - 1 }
  else some p

def rollBack (p : Plan) (v : ReqId) : Option Plan :=
  (unschedule { p with running := removeRunning p.running v } v).map fun p =>
    { p with preemptedReqs := p.preemptedReqs ++ [v] }

/-- Preemption as `SchedulerDynamicBatch` has it: only the list of scheduled requests changes. -/
def drop (p : Plan) (v : ReqId) : Plan :=
  { p with
    running := removeRunning p.running v
    scheduledRunningReqs := p.scheduledRunningReqs.erase v
    preemptedReqs := p.preemptedReqs ++ [v] }

/-- `running.pop()` of the KV consumer path. Only an offloaded request counts as preempted. -/
def popLast (p : Plan) (preempted : Bool) : Plan :=
  { p with
    running := p.running.dropLast
    preemptedReqs := if preempted then p.preemptedReqs ++ p.running.getLast?.toList else p.preemptedReqs }

/-! ## Lists with one entry removed -/

theorem removeRunning_eq_erase {running : List ReqId} (hd : running.Nodup) (v : ReqId) :
    removeRunning running v = running.erase v := by
  unfold removeRunning
  split
  · rename_i hlast
    obtain ⟨xs, rfl⟩ := getLast?_eq_some_iff.mp hlast
    have hv : v ∉ xs := fun h => (nodup_append.mp hd).2.2 v h v (by simp) rfl
    rw [erase_append_right _ hv]
    simp
  · rfl

variable {l : List ReqId} {k : Nat}

theorem erase_take_of_mem {v : ReqId} (h : v ∈ l.take k) : (l.take k).erase v = (l.erase v).take (k - 1) := by
  induction l generalizing k with
  | nil => simp at h
  | cons x l ih =>
    cases k with
    | zero => simp at h
    | succ k =>
      rw [take_succ_cons] at h ⊢
      by_cases hx : x = v
      · subst hx
        simp
      · have hv : v ∈ l.take k := by
          rcases mem_cons.mp h with h | h
          · exact absurd h.symm hx
          · exact h
        have hk : k ≠ 0 := by
          rintro rfl
          simp at hv
        rw [erase_cons_tail (by simpa using hx), erase_cons_tail (by simpa using hx), ih hv]
        obtain ⟨j, rfl⟩ := exists_eq_succ_of_ne_zero hk
        simp

theorem erase_take_sublist (l : List ReqId) (v : ReqId) (k : Nat) :
    ((l.take k).erase v).Sublist ((l.erase v).take k) := by
  by_cases h : v ∈ l.take k
  · rw [erase_take_of_mem h]
    exact take_sublist_take_left (by omega)
  · rw [erase_of_not_mem h]
    conv_rhs => rw [← take_append_drop k l, erase_append_right _ h]
    rw [take_append]
    exact sublist_append_of_sublist_left (by rw [take_take, min_self])

theorem take_succ_of_getElem? {r : ReqId} (h : l[k]? = some r) : l.take (k + 1) = l.take k ++ [r] := by
  rw [take_add_one, h]
  rfl

theorem drop_erase_of_mem_take {v : ReqId} (h : v ∈ l.take k) : (l.erase v).drop (k - 1) = l.drop k := by
  have hlen := length_pos_of_mem h
  conv_lhs => rw [← take_append_drop k l, erase_append_left _ h]
  rw [drop_append, length_erase_of_mem h, length_take]
  rw [drop_eq_nil_of_le (by rw [length_erase_of_mem h, length_take]; omega), nil_append, drop_drop]
  rcases le_total k l.length with hk | hk
  · congr 1
    omega
  · rw [drop_eq_nil_of_le (by omega), drop_eq_nil_of_le hk]

theorem drop_erase_subset (l : List ReqId) (v : ReqId) (k : Nat) : (l.erase v).drop k ⊆ l.drop k := by
  by_cases hv : v ∈ l.take k
  · intro x hx
    have hsub := drop_subset_drop_left (l.erase v) (sub_le k 1) hx
    rwa [drop_erase_of_mem_take hv] at hsub
  · intro x hx
    rw [← take_append_drop k l, erase_append_right _ hv, drop_append] at hx
    rcases mem_append.mp hx with hx | hx
    · rw [drop_eq_nil_of_le (by simp)] at hx
      cases hx
    · exact mem_of_mem_erase (mem_of_mem_drop hx)

/-! ## Consistent plans -/

structure Ok (budget : Int) (p : Plan) : Prop where
  nodup : p.running.Nodup
  tokens_keys : p.numScheduledTokens.keys = p.scheduledRunningReqs
  blocks_keys : p.reqToNewBlocks.keys = p.scheduledRunningReqs
  sum : p.numScheduledTokens.values.sum + p.tokenBudget = budget
  disjoint : p.running.Disjoint p.preemptedReqs
  /-- Scheduled requests stand before `req_index`, in their order. -/
  sched : p.scheduledRunningReqs.Sublist (p.running.take p.reqIndex)

structure Consistent (budget : Int) (p : Plan) : Prop where
  tokens : ∀ k, k ∈ p.numScheduledTokens.keys ↔ k ∈ p.scheduledRunningReqs
  blocks : ∀ k, k ∈ p.reqToNewBlocks.keys ↔ k ∈ p.scheduledRunningReqs
  running : p.scheduledRunningReqs ⊆ p.running
  preempted : p.scheduledRunningReqs.Disjoint p.preemptedReqs
  sum : p.numScheduledTokens.values.sum + p.tokenBudget = budget
  once : p.scheduledRunningReqs.Nodup

/-- The loop has taken up `r` and asks for its blocks. `r` stands at or before `req_index`, behind
the scheduled requests. -/
structure Taken (r : ReqId) (p : Plan) : Prop where
  sched_append : (p.scheduledRunningReqs ++ [r]).Sublist (p.running.take (p.reqIndex + 1))

variable {budget : Int} {p p' : Plan} {r v : ReqId}

theorem sublist_take_of_concat {xs : List ReqId} (hd : (xs ++ [v]).Nodup) (hv : v ∉ l)
    (hl : l.Sublist ((xs ++ [v]).take k)) : l.Sublist (xs.take k) := by
  have hxs : v ∉ xs := fun h => (nodup_append.mp hd).2.2 v h v (by simp) rfl
  have he : (xs ++ [v]).erase v = xs := by
    rw [erase_append_right _ hxs]
    simp
  have hle := (hl.erase v).trans (erase_take_sublist _ v k)
  rwa [erase_of_not_mem hv, he] at hle

theorem Taken.mem_running (h : p.Taken r) : r ∈ p.running := mem_of_mem_take (h.sched_append.subset (by simp))

theorem Ok.start {running : List ReqId} (hd : running.Nodup) (budget : Int) :
    (Plan.start running budget).Ok budget where
  nodup := hd
  tokens_keys := rfl
  blocks_keys := rfl
  sum := by simp [Plan.start, Dict.values, EmptyCollection.emptyCollection, Dict.empty]
  disjoint := by simp [Plan.start]
  sched := by simp [Plan.start]

/-! ## Rolling a victim back -/

theorem unschedule_of_not_mem (h : v ∉ p.scheduledRunningReqs) : p.unschedule v = some p := by
  unfold unschedule
  rw [if_neg h]

theorem unschedule_of_mem (ht : p.numScheduledTokens.keys = p.scheduledRunningReqs)
    (hb : p.reqToNewBlocks.keys = p.scheduledRunningReqs) (h : v ∈ p.scheduledRunningReqs) :
    ∃ n, p.numScheduledTokens.get? v = some n ∧ p.unschedule v = some { p with
      scheduledRunningReqs := p.scheduledRunningReqs.erase v
      tokenBudget := p.tokenBudget + n
      numScheduledTokens := p.numScheduledTokens.erase v
      reqToNewBlocks := p.reqToNewBlocks.erase v
      reqIndex := p.reqIndex - 1 } := by
  obtain ⟨n, hn, hpop⟩ := Dict.pop_of_mem_keys (d := p.numScheduledTokens) (by rwa [ht])
  obtain ⟨_, -, hpop'⟩ := Dict.pop_of_mem_keys (d := p.reqToNewBlocks) (by rwa [hb])
  refine ⟨n, hn, ?_⟩
  unfold unschedule
  rw [if_pos h, hpop, hpop']
  rfl

def indexAfter (p : Plan) (v : ReqId) : Nat := if v ∈ p.scheduledRunningReqs then p.reqIndex - 1 else p.reqIndex

structure RolledBack (p p' : Plan) (v : ReqId) : Prop where
  running : p'.running = p.running.erase v
  scheduled : p'.scheduledRunningReqs = p.scheduledRunningReqs.erase v
  preempted : p'.preemptedReqs = p.preemptedReqs ++ [v]
  tokens_keys : p'.numScheduledTokens.keys = p'.scheduledRunningReqs
  blocks_keys : p'.reqToNewBlocks.keys = p'.scheduledRunningReqs
  sum : p'.numScheduledTokens.values.sum + p'.tokenBudget =
    p.numScheduledTokens.values.sum + p.tokenBudget
  index : p'.reqIndex = p.indexAfter v
  budget : p'.tokenBudget = p.tokenBudget + p.numScheduledTokens.getD v 0
  tokens : ∀ k n, p'.numScheduledTokens.get? k = some n → p.numScheduledTokens.get? k = some n

theorem RolledBack.sched (hrb : RolledBack p p' v)
    (hl : (p.scheduledRunningReqs ++ l).Sublist (p.running.take (p.reqIndex + k)))
    (hk : v ∈ p.scheduledRunningReqs → 1 ≤ p.reqIndex) :
    ((p.scheduledRunningReqs ++ l).erase v).Sublist (p'.running.take (p'.reqIndex + k)) := by
  have hle := hl.erase v
  rw [hrb.running, hrb.index, indexAfter]
  split
  · rename_i hv
    -- The list before the index loses the victim, and the index moves with it.
    have hmem : v ∈ p.running.take (p.reqIndex + k) := hl.subset (mem_append_left _ hv)
    rw [erase_take_of_mem hmem] at hle
    have hidx : p.reqIndex + k - 1 = p.reqIndex - 1 + k := by
      have := hk hv
      omega
    rwa [hidx] at hle
  · exact hle.trans (erase_take_sublist _ _ _)

/-! ## Budgets that do not go below zero -/

structure Funded (p : Plan) : Prop where
  budget : 0 ≤ p.tokenBudget
  tokens : ∀ k n, p.numScheduledTokens.get? k = some n → 0 ≤ n

theorem Funded.start (running : List ReqId) {budget : Int} (h : 0 ≤ budget) :
    (Plan.start running budget).Funded where
  budget := h
  tokens := by
    intro k n hk
    simp [Plan.start] at hk

theorem Funded.commit (h : p.Funded) {n : Int} (h0 : 0 ≤ n) (hn : n ≤ p.tokenBudget)
    (blocks : KVCacheBlocks) : (p.commit r n blocks).Funded where
  budget := by
    simp only [Plan.commit]
    omega
  tokens := by
    intro k m hk
    simp only [Plan.commit, Dict.get?_set] at hk
    split at hk
    · cases hk
      exact h0
    · exact h.tokens k m hk

theorem RolledBack.budget_le (hrb : RolledBack p p' v) (h : p.Funded) : p.tokenBudget ≤ p'.tokenBudget := by
  rw [hrb.budget, Dict.getD]
  cases hn : p.numScheduledTokens.get? v with
  | none => simp
  | some n =>
    have := h.tokens v n hn
    simp only [getD_some]
    omega

theorem Funded.rolledBack (h : p.Funded) (hrb : RolledBack p p' v) : p'.Funded where
  budget := h.budget.trans (hrb.budget_le h)
  tokens := fun k n hk => h.tokens k n (hrb.tokens k n hk)

/-! ## Plans stay consistent -/

variable (hok : p.Ok budget)

include hok

theorem Ok.sched_running : p.scheduledRunningReqs ⊆ p.running :=
  fun _ hx => mem_of_mem_take (hok.sched.subset hx)

theorem Ok.sched_nodup : p.scheduledRunningReqs.Nodup :=
  hok.sched.nodup (hok.nodup.sublist (take_sublist _ _))

theorem Ok.consistent : p.Consistent budget where
  tokens k := by rw [hok.tokens_keys]
  blocks k := by rw [hok.blocks_keys]
  running := hok.sched_running
  preempted := fun _ hx hx' => hok.disjoint (hok.sched_running hx) hx'
  sum := hok.sum
  once := hok.sched_nodup

theorem Taken.not_scheduled (h : p.Taken r) : r ∉ p.scheduledRunningReqs := by
  have hd := h.sched_append.nodup (hok.nodup.sublist (take_sublist _ _))
  intro hr
  exact (nodup_append.mp hd).2.2 r hr r (by simp) rfl

theorem Ok.skip : p.skip.Ok budget :=
  { hok with sched := hok.sched.trans (take_sublist_take_left (le_succ _)) }

theorem Ok.taken (hr : p.running[p.reqIndex]? = some r) : p.Taken r := by
  constructor
  rw [take_succ_of_getElem? hr]
  exact hok.sched.append (.refl _)

theorem Ok.commit (ht : p.Taken r) (n : Int) (blocks : KVCacheBlocks) :
    (p.commit r n blocks).Ok budget := by
  have hr : r ∉ p.scheduledRunningReqs := ht.not_scheduled hok
  have hrt : r ∉ p.numScheduledTokens.keys := by rwa [hok.tokens_keys]
  have hrb : r ∉ p.reqToNewBlocks.keys := by rwa [hok.blocks_keys]
  refine { hok with tokens_keys := ?_, blocks_keys := ?_, sum := ?_, sched := ht.sched_append }
  · simp only [Plan.commit]
    rw [Dict.keys_set_new hrt, hok.tokens_keys]
  · simp only [Plan.commit]
    rw [Dict.keys_set_new hrb, hok.blocks_keys]
  · have hsum := hok.sum
    simp only [Plan.commit]
    rw [Dict.sum_set_new hrt]
    omega

theorem rollBack_spec (v : ReqId) : ∃ p', p.rollBack v = some p' ∧ RolledBack p p' v := by
  have hrun := removeRunning_eq_erase hok.nodup v
  by_cases hv : v ∈ p.scheduledRunningReqs
  · obtain ⟨n, hn, hun⟩ := unschedule_of_mem
      (p := { p with running := removeRunning p.running v }) hok.tokens_keys hok.blocks_keys hv
    have hsum := Dict.sum_erase hn
    refine ⟨_, by rw [rollBack, hun]; rfl, ?_⟩
    refine ⟨hrun, rfl, rfl, ?_, ?_, ?_, ?_, ?_, ?_⟩
    · rw [Dict.keys_erase, hok.tokens_keys]
    · rw [Dict.keys_erase, hok.blocks_keys]
    · simp only at hsum ⊢
      omega
    · simp [indexAfter, hv]
    · simp [Dict.getD, hn]
    · intro k m hk
      exact Dict.get?_of_get?_erase hk
  · have hnone : p.numScheduledTokens.get? v = none := Dict.get?_eq_none.mpr (by rwa [hok.tokens_keys])
    have hun := unschedule_of_not_mem (p := { p with running := removeRunning p.running v }) hv
    refine ⟨_, by rw [rollBack, hun]; rfl, ?_⟩
    refine ⟨hrun, (erase_of_not_mem hv).symm, rfl, hok.tokens_keys, hok.blocks_keys, rfl, ?_, ?_, ?_⟩
    · simp [indexAfter, hv]
    · simp [Dict.getD, hnone]
    · exact fun _ _ hk => hk

theorem Ok.one_le_index (hv : v ∈ p.scheduledRunningReqs) : 1 ≤ p.reqIndex := by
  have hpos := length_pos_of_mem hv
  have hle := hok.sched.length_le
  rw [length_take] at hle
  omega

theorem Ok.rolledBack (hrb : RolledBack p p' v) : p'.Ok budget where
  nodup := by
    rw [hrb.running]
    exact hok.nodup.erase v
  tokens_keys := hrb.tokens_keys
  blocks_keys := hrb.blocks_keys
  sum := hrb.sum.trans hok.sum
  disjoint := by
    rw [hrb.running, hrb.preempted]
    intro x hx hx'
    rcases mem_append.mp hx' with hp | hp
    · exact hok.disjoint (mem_of_mem_erase hx) hp
    · rw [mem_singleton.mp hp] at hx
      exact hok.nodup.not_mem_erase hx
  sched := by
    have := hrb.sched (l := []) (k := 0) (by simpa using hok.sched) hok.one_le_index
    simpa [hrb.scheduled] using this

theorem Taken.rolledBack (h : p.Taken r) (hrb : RolledBack p p' v)
    (hvr : v ≠ r) : p'.Taken r := by
  constructor
  have he : (p.scheduledRunningReqs ++ [r]).erase v = p.scheduledRunningReqs.erase v ++ [r] := by
    rw [erase_append]
    split
    · rfl
    · rename_i hv
      rw [erase_of_not_mem hv, erase_of_not_mem (by simpa using hvr)]
  have hsched := hrb.sched h.sched_append hok.one_le_index
  rwa [he, ← hrb.scheduled] at hsched

theorem RolledBack.drop_subset (hrb : RolledBack p p' v) :
    p'.running.drop p'.reqIndex ⊆ p.running.drop p.reqIndex := by
  rw [hrb.running, hrb.index, indexAfter]
  split
  · rename_i hv
    rw [drop_erase_of_mem_take (hok.sched.subset hv)]
    exact List.Subset.refl _
  · exact drop_erase_subset _ _ _

theorem Taken.not_mem_drop (h : p.Taken r) : r ∉ p.running.drop (p.reqIndex + 1) := by
  have hmem : r ∈ p.running.take (p.reqIndex + 1) := h.sched_append.subset (by simp)
  have hd := hok.nodup
  rw [← take_append_drop (p.reqIndex + 1) p.running] at hd
  intro hr
  exact (nodup_append.mp hd).2.2 r hmem r hr rfl

/-! ## Taking the last running request -/

variable (ht : p.Taken r) (hlast : p.running.getLast? = some v)

include ht hlast

theorem Taken.last_not_scheduled : v ∉ p.scheduledRunningReqs := by
  intro hv
  obtain ⟨xs, hxs⟩ := getLast?_eq_some_iff.mp hlast
  have hd : (xs ++ [v]).Nodup := hxs ▸ hok.nodup
  have hsub : (p.scheduledRunningReqs ++ [r]).Sublist (xs ++ [v]) := hxs ▸ ht.sched_append.trans (take_sublist _ _)
  obtain ⟨l₁, l₂, hl, h₁, h₂⟩ := sublist_append_iff.mp hsub
  rcases sublist_singleton.mp h₂ with rfl | rfl
  · have hmem : v ∈ l₁ := by
      rw [append_nil] at hl
      rw [← hl]
      exact mem_append_left _ hv
    exact (nodup_append.mp hd).2.2 v (h₁.subset hmem) v (by simp) rfl
  · have hrv : r = v := (append_inj' hl rfl).2 |> singleton_inj.mp
    exact ht.not_scheduled hok (hrv ▸ hv)

theorem Ok.popLast (preempted : Bool) : (p.popLast preempted).Ok budget := by
  have hv := ht.last_not_scheduled hok hlast
  obtain ⟨xs, hxs⟩ := getLast?_eq_some_iff.mp hlast
  have hd : (xs ++ [v]).Nodup := hxs ▸ hok.nodup
  have hrun : (p.popLast preempted).running = xs := by simp [Plan.popLast, hxs]
  refine { hok with nodup := ?_, disjoint := ?_, sched := ?_ }
  · rw [hrun]
    exact (nodup_append.mp hd).1
  · rw [hrun]
    intro x hx hx'
    have hold : x ∉ p.preemptedReqs := fun hp => hok.disjoint (hxs ▸ mem_append_left _ hx) hp
    have hne : x ≠ v := fun he => (nodup_append.mp hd).2.2 x hx v (by simp) he
    simp only [Plan.popLast, hlast, toList_some] at hx'
    split at hx'
    · rcases mem_append.mp hx' with hp | hp
      · exact hold hp
      · exact hne (mem_singleton.mp hp)
    · exact hold hx'
  · rw [hrun]
    exact sublist_take_of_concat hd hv (hxs ▸ hok.sched)

theorem Taken.popLast (hvr : v ≠ r) (preempted : Bool) : (p.popLast preempted).Taken r := by
  have hv := ht.last_not_scheduled hok hlast
  obtain ⟨xs, hxs⟩ := getLast?_eq_some_iff.mp hlast
  constructor
  have hrun : (p.popLast preempted).running = xs := by simp [Plan.popLast, hxs]
  rw [hrun]
  refine sublist_take_of_concat (hxs ▸ hok.nodup) ?_ (hxs ▸ ht.sched_append)
  simp only [Plan.popLast, mem_append, mem_singleton, not_or]
  exact ⟨hv, hvr⟩

end Plan

end VllmAscend.Core
