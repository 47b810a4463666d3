import Mathlib.Algebra.Order.BigOperators.Group.List
import VllmAscend.Core.ForkPlans

/-!
# Whole runs of the running phases

Which requests a running phase takes up, and what it keeps of the encoder budget.
-/

namespace VllmAscend.Core

open List Machine Phase RecomputeScheduler SchedulerState Option

variable {W F : Type} [PyFloat F] {c : SchedulerConfig} {h : Hooks W F} {budget : Int} {s s' : RunState W F}
  {r v : ReqId} {n : Int} {enc : EncoderPlan} {now : F} {p q : Phase W F}

def RunsTo (c : SchedulerConfig) (h : Hooks W F) (predictor : ChunkPredictor F) (st : SchedulerState W F)
    (pausedAll : Bool) (now : F) (visited : List (Phase W F)) (p : Phase W F) : Prop :=
  let start := fun time => Phase.head (beginStep c st (initialBudget c pausedAll) time)
  Trace (RecomputeScheduler.step c h false now) (start PyFloat.inf) visited p ∨
    Trace (BalanceScheduler.step c h now) (start PyFloat.inf) visited p ∨
    Trace (ProfilingChunkScheduler.step c h predictor now) (start (ProfilingChunkScheduler.initialTime predictor))
      visited p

theorem RunsTo.inv {predictor : ChunkPredictor F} {st : SchedulerState W F} {pausedAll : Bool}
    {visited : List (Phase W F)} (ht : RunsTo c h predictor st pausedAll now visited p) (hd : st.running.Nodup)
    (I : List (Phase W F) → Phase W F → Prop)
    (h0 : ∀ time, I [] (.head (beginStep c st (initialBudget c pausedAll) time)))
    (hstep : ∀ visited p q, p.Ok (initialBudget c pausedAll) → I visited p → ForkStep c h false now p q →
      I (visited ++ [p]) q) : I visited p := by
  have hrun : ∀ {step : Phase W F → Unit → Option (Phase W F)} {time : F},
      (∀ {p q}, step p () = some q → ForkStep c h false now p q) →
      Trace step (.head (beginStep c st (initialBudget c pausedAll) time)) visited p → I visited p := by
    intro step time hfork ht
    refine (ht.inv (fun visited p => p.Ok (initialBudget c pausedAll) ∧ I visited p) ⟨beginStep_ok hd _ _, h0 _⟩
      fun visited p q hp hq => ?_).2
    exact ⟨(hfork hq).ok hp.1, hstep visited p q hp.1 hp.2 (hfork hq)⟩
  rcases ht with ht | ht | ht
  · exact hrun forkStep ht
  · exact hrun forkStep ht
  · exact hrun ProfilingChunkScheduler.forkStep ht

/-! ## The requests taken up -/

def Phase.takenUp : Phase W F → Option ReqId
  | .head s => s.running[s.reqIndex]?
  | _ => none

/-- A request that gets its blocks leaves behind `req_index` those that stand between it and the index. -/
def Phase.passedOver (c : SchedulerConfig) (h : Hooks W F) : Phase W F → List ReqId
  | .alloc r n _ s =>
    if (allocateRunning c h s r n).1.isSome then (s.running.take (s.reqIndex + 1)).drop (s.running.idxOf r + 1) else []
  | _ => []

/-- The requests `done` have been taken up or passed over, and none twice or both. -/
def Visited (log passed done todo : List ReqId) : Prop := (log ++ passed ++ todo).Nodup ∧ done ⊆ log ++ passed

def Phase.Visits (log passed : List ReqId) : Phase W F → Prop
  | .head s =>
    s.scheduledRunningReqs ⊆ log ∧ Visited log passed (s.running.take s.reqIndex) (s.running.drop s.reqIndex)
  | .alloc r _ _ s => s.scheduledRunningReqs ⊆ log ∧ r ∈ log ∧ ∃ done todo, s.running = done ++ r :: todo ∧
      done.length ≤ s.reqIndex ∧ Visited log passed done todo
  | _ => True

variable {log passed done todo : List ReqId}

theorem Visited.take (hv : Visited log passed done (r :: todo)) :
    Visited (log ++ [r]) passed (done ++ [r]) todo := by
  refine ⟨?_, ?_⟩
  · have hperm : (log ++ [r] ++ passed ++ todo).Perm (log ++ passed ++ r :: todo) := by
      simp only [append_assoc, singleton_append]
      exact (perm_middle.symm).append_left log
    exact hperm.nodup_iff.mpr hv.1
  · intro x hx
    have := @hv.2 x
    simp_all only [mem_append, mem_singleton]
    tauto

theorem preemptVictim_visits (hok : s.toPlan.Ok budget) (ht : s.toPlan.Taken r)
    (hv : (alloc r n enc s).Visits log passed) (now : F) :
    (preemptVictim c h now r n enc s).Visits log passed := by
  obtain ⟨v, s', hrb, -, he⟩ := preemptVictim_spec (c := c) (h := h) (n := n) hok ht now
  obtain ⟨hsched, hr, done, todo, hrun, hlen, hnodup, hdone⟩ := hv
  rw [he]
  split
  · trivial
  · rename_i hvr
    refine ⟨fun x hx => hsched (mem_of_mem_erase (hrb.scheduled ▸ hx)), hr, ?_⟩
    rw [hrb.running, hrb.index, hrun, Plan.indexAfter]
    by_cases hv : v ∈ done
    · refine ⟨done.erase v, todo, erase_append_left _ hv, ?_, hnodup, List.Subset.trans erase_subset hdone⟩
      rw [length_erase_of_mem hv]
      split <;> omega
    · -- A victim behind the request was not taken up, so it is not scheduled.
      have hnot : v ∉ s.scheduledRunningReqs := by
        intro hsch
        have hmem := hok.sched_running hsch
        rw [hrun, mem_append, mem_cons] at hmem
        have htodo := (hmem.resolve_left hv).resolve_left hvr
        exact (nodup_append.mp hnodup).2.2 v (mem_append_left _ (hsched hsch)) v htodo rfl
      refine ⟨done, todo.erase v, ?_, by rwa [if_neg hnot], hnodup.sublist (erase_sublist.append_left _), hdone⟩
      rw [erase_append_right _ hv, erase_cons_tail (by simpa using Ne.symm hvr)]

theorem ForkStep.visits (hok : p.Ok budget) (hv : p.Visits log passed) (hq : ForkStep c h false now p q) :
    q.Visits (log ++ p.takenUp.toList) (passed ++ p.passedOver c h) := by
  have htake : ∀ {s : RunState W F} {r : ReqId}, s.running[s.reqIndex]? = some r → (head s).Visits log passed →
      s.scheduledRunningReqs ⊆ log ++ [r] ∧
        Visited (log ++ [r]) passed (s.running.take s.reqIndex ++ [r]) (s.running.drop (s.reqIndex + 1)) := by
    rintro s r hr ⟨hsched, hvis⟩
    rw [drop_eq_getElem?_toList_append, hr] at hvis
    exact ⟨fun x hx => mem_append_left _ (hsched hx), hvis.take⟩
  cases hq with
  | finish => trivial
  | raise => trivial
  | skip hr world =>
    simp only [takenUp, hr, toList_some, passedOver, append_nil]
    have hnext := htake hr hv
    rwa [← Plan.take_succ_of_getElem? hr] at hnext
  | @ask s r n m enc world hr _ _ world' =>
    simp only [takenUp, hr, toList_some, passedOver, append_nil]
    obtain ⟨hsched, hnodup, hdone⟩ := htake hr hv
    refine ⟨hsched, by simp, s.running.take s.reqIndex, s.running.drop (s.reqIndex + 1), ?_, length_take_le _ _, hnodup,
      List.Subset.trans (subset_append_left _ _) hdone⟩
    have hrun := take_append_drop (s.reqIndex + 1) s.running
    rw [Plan.take_succ_of_getElem? hr, append_assoc] at hrun
    exact hrun.symm
  | @commit s r n blocks world ha enc time =>
    obtain ⟨hsched, hr, done, todo, hrun, hlen, hnodup, hdone⟩ := hv
    have hnot : r ∉ done := fun hx => (nodup_append.mp (hrun ▸ hok.1.nodup)).2.2 r hx r mem_cons_self rfl
    obtain ⟨k, hk⟩ := Nat.exists_eq_add_of_le hlen
    have htake : s.running.take (s.reqIndex + 1) = done ++ r :: todo.take k := by
      rw [hrun, hk, Nat.add_assoc, take_length_add_append, take_succ_cons]
    have hdrop : s.running.drop (s.reqIndex + 1) = todo.drop k := by
      rw [hrun, hk, Nat.add_assoc, drop_length_add_append, drop_succ_cons]
    have hpassed : (alloc r n enc s).passedOver c h = todo.take k := by
      simp only [passedOver, ha, isSome_some, if_true, htake]
      rw [hrun, idxOf_append_of_notMem hnot, idxOf_cons_self, Nat.add_zero, ← drop_drop, drop_left, drop_succ_cons, drop_zero]
    simp only [Phase.Visits, scheduleRequest_toPlan, takenUp, toList_none, append_nil, Plan.commit, hpassed]
    rw [htake, hdrop]
    refine ⟨append_subset.mpr ⟨hsched, by simpa using hr⟩, ?_, ?_⟩
    · rwa [append_assoc, append_assoc, take_append_drop, ← append_assoc]
    · intro x hx
      rw [← append_assoc]
      rcases mem_append.mp hx with hx | hx
      · exact mem_append_left _ (hdone hx)
      · rcases mem_cons.mp hx with rfl | hx
        · exact mem_append_left _ (mem_append_left _ hr)
        · exact mem_append_right _ hx
  | preempt ha enc =>
    simp only [takenUp, passedOver, ha, isSome_none, Bool.false_eq_true, if_false, toList_none, append_nil]
    apply preemptVictim_visits
    · exact hok.1
    · exact hok.2
    · exact hv
  | recompute _ _ _ _ _ hk => cases hk

/-- Request 0 has no new tokens and the lowest priority. -/
def skippedVictim : SchedulerState (List Bool) Rat :=
  { sampleState 2 with
    requests := fun id => if id = 0 then { sampleRequest 0 with numComputedTokens := 2, priority := 1 } else sampleRequest id
    world := [false] }

def unpredictable : ChunkPredictor Rat := ⟨none, false, false, fun _ _ => none, fun _ _ => 0⟩

def SchedulerState.embeds (st : SchedulerState W F) (r : ReqId) (inputs : List Nat) : Int :=
  (inputs.map (st.requests r).numEncoderEmbeds).sum

def SchedulerState.embedsOf (st : SchedulerState W F) (scheduled : Dict ReqId (List Nat)) : Int :=
  (scheduled.entries.map fun e => st.embeds e.1 e.2).sum

/-- The budget that the inputs of the plan were taken off. -/
def SchedulerState.drawnFrom (st : SchedulerState W F) (r : ReqId) (enc : EncoderPlan) : Int :=
  enc.newEncoderComputeBudget + st.embeds r enc.encoderInputsToSchedule

/-- `_try_schedule_encoder_inputs` takes the embeddings of the inputs that it selects off the budget. -/
structure EncoderHooks (h : Hooks W F) : Prop where
  budget : ∀ w request computed n budget shift, let res := (h.tryScheduleEncoderInputs w request computed n budget shift).1
    res.newEncoderComputeBudget + (res.encoderInputsToSchedule.map request.numEncoderEmbeds).sum = budget
  preempt : ∀ w request, (h.preemptRequest w request).1.numEncoderEmbeds = request.numEncoderEmbeds

def SchedulerState.Current (st : SchedulerState W F) (r : ReqId) (enc : EncoderPlan) (budget : Int) : Prop :=
  enc.encoderInputsToSchedule ≠ [] → st.drawnFrom r enc = budget

/-- The inputs of a request that gets its blocks were taken off the budget that is there now. -/
def Phase.KeepsEncoderBudget (c : SchedulerConfig) (h : Hooks W F) (st : SchedulerState W F) : Phase W F → Prop
  | .alloc r n enc s => (allocateRunning c h s r n).1.isSome → st.Current r enc s.encoderComputeBudget
  | _ => True

structure EncoderOk (total : Int) (st : SchedulerState W F) (kept : Prop) (s : RunState W F) : Prop where
  requests : ∀ r, (s.requests r).numEncoderEmbeds = (st.requests r).numEncoderEmbeds
  keys : s.scheduledEncoderInputs.keys ⊆ s.scheduledRunningReqs
  le : s.encoderComputeBudget + st.embedsOf s.scheduledEncoderInputs ≤ total
  eq_iff : s.encoderComputeBudget + st.embedsOf s.scheduledEncoderInputs = total ↔ kept

def Phase.EncoderOk (total : Int) (st : SchedulerState W F) (kept : Prop) : Phase W F → Prop
  | .head s | .finished s => Core.EncoderOk total st kept s
  | .alloc r _ enc s => Core.EncoderOk total st kept s ∧ st.drawnFrom r enc ≤ s.encoderComputeBudget
  | .raised _ => True

variable {total : Int} {kept : Prop} {st : SchedulerState W F}

section

omit [PyFloat F]

theorem embedsOf_erase (scheduled : Dict ReqId (List Nat)) (v : ReqId) :
    st.embedsOf (scheduled.erase v) + st.embeds v (scheduled.getD v []) = st.embedsOf scheduled := by
  by_cases hk : v ∈ scheduled.keys
  · obtain ⟨inputs, hget⟩ := Dict.exists_get?_of_mem_keys hk
    rw [Dict.getD, hget]
    exact Dict.sum_filter_ne st.embeds scheduled.nodup hget
  · rw [Dict.erase_of_not_mem hk, Dict.getD, Dict.get?_eq_none.mpr hk]
    exact Int.add_zero _

variable (hs : EncoderOk total st kept s)

include hs

theorem EncoderOk.update {request : Request F}
    (hr : request.numEncoderEmbeds = (s.requests r).numEncoderEmbeds) (x : ReqId) :
    (Function.update s.requests r request x).numEncoderEmbeds = (st.requests x).numEncoderEmbeds := by
  rw [Function.update_apply, ← hs.requests]
  split
  · rename_i hx
    rw [hx, hr]
  · rfl

theorem EncoderOk.rolledBack (hh : EncoderHooks h) (hst : ∀ r i, 0 ≤ (st.requests r).numEncoderEmbeds i)
    (hrb : Plan.RolledBack s.toPlan s'.toPlan v) (hs' : rollBackVictim h s v = some s') :
    EncoderOk total st kept s' ∧ s.encoderComputeBudget ≤ s'.encoderComputeBudget := by
  have hsched := hrb.scheduled
  obtain ⟨p, -, rfl⟩ := map_eq_some_iff.mp hs'
  by_cases hv : v ∈ s.scheduledRunningReqs
  · simp only [if_pos hv] at hsched ⊢
    have hgiven : 0 ≤ st.embeds v (s.scheduledEncoderInputs.getD v []) := by
      apply List.sum_nonneg
      refine forall_mem_map.mpr fun i _ => ?_
      exact hst v i
    have hbudget : (restoreEncoder s v).encoderComputeBudget + st.embedsOf (s.scheduledEncoderInputs.erase v) =
        s.encoderComputeBudget + st.embedsOf s.scheduledEncoderInputs := by
      rw [← embedsOf_erase s.scheduledEncoderInputs v]
      simp only [restoreEncoder, embeds, hs.requests]
      omega
    refine ⟨⟨hs.update (hh.preempt _ _), fun x hx => ?_, hbudget ▸ hs.le, hbudget ▸ hs.eq_iff⟩, ?_⟩
    · rw [hsched]
      have hmem := (s.scheduledEncoderInputs.nodup.mem_erase_iff).mp (Dict.keys_erase (k := v) ▸ hx)
      exact (mem_erase_of_ne hmem.1).mpr (hs.keys hmem.2)
    · simp only [preemptRequest, updateRequest, restoreEncoder, hs.requests]
      exact le_add_of_nonneg_right hgiven
  · simp only [if_neg hv] at hsched ⊢
    refine ⟨⟨hs.update (hh.preempt _ _), ?_, hs.le, hs.eq_iff⟩, le_rfl⟩
    rw [hsched, erase_of_not_mem hv]
    exact hs.keys

theorem EncoderOk.recordSpecTokens (r : ReqId) (n : Int) :
    EncoderOk total st kept (recordSpecTokens s r n) ∧
      (recordSpecTokens s r n).scheduledEncoderInputs = s.scheduledEncoderInputs ∧
      (recordSpecTokens s r n).encoderComputeBudget = s.encoderComputeBudget := by
  simp only [Core.recordSpecTokens]
  split
  · exact ⟨hs, rfl, rfl⟩
  · split <;> exact ⟨⟨hs.update rfl, hs.keys, hs.le, hs.eq_iff⟩, rfl, rfl⟩

theorem EncoderOk.recordEncoder (hr : r ∈ s.scheduledRunningReqs) (hnew : r ∉ s.scheduledEncoderInputs.keys)
    (hle : st.drawnFrom r enc ≤ s.encoderComputeBudget) :
    EncoderOk total st (kept ∧ st.Current r enc s.encoderComputeBudget) (recordEncoder h s r enc) := by
  simp only [drawnFrom] at hle
  by_cases hnil : enc.encoderInputsToSchedule = []
  · simp only [Core.recordEncoder, if_pos hnil]
    simp only [SchedulerState.Current, hnil, ne_eq, not_true_eq_false, false_implies, and_true]
    exact ⟨hs.requests, hs.keys, hs.le, hs.eq_iff⟩
  · have hsum : st.embedsOf (s.scheduledEncoderInputs.set r enc.encoderInputsToSchedule) =
        st.embedsOf s.scheduledEncoderInputs + st.embeds r enc.encoderInputsToSchedule :=
      Dict.sum_insert_new st.embeds _ hnew
    have hle' := hs.le
    simp only [Core.recordEncoder, if_neg hnil]
    refine ⟨hs.requests, ?_, ?_, ?_⟩
    · simp only [encoderAllocateAll, Dict.keys_set_new hnew]
      exact append_subset.mpr ⟨hs.keys, by simpa using hr⟩
    · simp only [encoderAllocateAll, hsum]
      omega
    · simp only [encoderAllocateAll, hsum, SchedulerState.Current, drawnFrom, ne_eq, hnil,
        not_false_eq_true, forall_const, ← hs.eq_iff]
      omega

theorem EncoderOk.commit (hok : s.toPlan.Ok budget) (ht : s.toPlan.Taken r)
    (hle : st.drawnFrom r enc ≤ s.encoderComputeBudget) (blocks : KVCacheBlocks) :
    EncoderOk total st (kept ∧ st.Current r enc s.encoderComputeBudget) (scheduleRequest h s r n enc blocks) := by
  have hcommit : EncoderOk total st kept { s with toPlan := s.toPlan.commit r n blocks } :=
    ⟨hs.requests, fun x hx => mem_append_left _ (hs.keys hx), hs.le, hs.eq_iff⟩
  obtain ⟨hspec, hinputs, hbudget⟩ := hcommit.recordSpecTokens r n
  dsimp only at hinputs hbudget
  rw [← hbudget] at hle ⊢
  refine hspec.recordEncoder ?_ ?_ hle
  · rw [recordSpecTokens_toPlan]
    exact mem_append_right _ (by simp)
  · rw [hinputs]
    exact fun hr => ht.not_scheduled hok (hs.keys hr)

theorem scheduleEncoder_budget (hh : EncoderHooks h) {m : Int} {world : W}
    (henc : scheduleEncoder c h s r n = .ok (enc, m, world)) : st.drawnFrom r enc = s.encoderComputeBudget := by
  rw [drawnFrom, embeds, ← hs.requests]
  simp only [scheduleEncoder] at henc
  split at henc
  · split at henc
    · cases henc
    · cases henc
      exact hh.budget _ _ _ _ _ _
  · cases henc
    exact Int.add_zero _

end

theorem ForkStep.encoderOk (hh : EncoderHooks h) (hst : ∀ r i, 0 ≤ (st.requests r).numEncoderEmbeds i)
    (hok : p.Ok budget) (hp : p.EncoderOk total st kept) (hq : ForkStep c h false now p q) :
    q.EncoderOk total st (kept ∧ p.KeepsEncoderBudget c h st) := by
  cases hq with
  | finish | skip =>
    simp only [Phase.KeepsEncoderBudget, and_true]
    exact ⟨hp.requests, hp.keys, hp.le, hp.eq_iff⟩
  | raise => trivial
  | ask hr henc _ world =>
    simp only [Phase.KeepsEncoderBudget, and_true]
    exact ⟨⟨hp.requests, hp.keys, hp.le, hp.eq_iff⟩, (scheduleEncoder_budget hp hh henc).le⟩
  | @commit s r n blocks world ha enc timeBudget =>
    simp only [Phase.KeepsEncoderBudget, ha, isSome_some, forall_const]
    exact EncoderOk.commit (s := { s with world, timeBudget })
      ⟨hp.1.requests, hp.1.keys, hp.1.le, hp.1.eq_iff⟩ hok.1 hok.2 hp.2 _
  | @preempt s r n world ha enc =>
    simp only [Phase.KeepsEncoderBudget, ha, isSome_none, Bool.false_eq_true, false_implies, and_true]
    obtain ⟨v, s', hrb, ⟨selector, hs'⟩, he⟩ :=
      preemptVictim_spec (c := c) (h := h) (n := n) (s := { s with world }) hok.1 hok.2 now
    obtain ⟨hs, hle⟩ := EncoderOk.rolledBack (s := { s with world, selector })
      ⟨hp.1.requests, hp.1.keys, hp.1.le, hp.1.eq_iff⟩ hh hst hrb hs'
    rw [he]
    split
    · exact hs
    · exact ⟨hs, hp.2.trans hle⟩
  | recompute _ _ _ _ _ hk => cases hk

/-- At the end of the phase the budget and the scheduled embeddings make up the maximum exactly when no request got
its blocks with a budget that was taken before something was given back. -/
theorem encoder_budget_conserved_iff (c : SchedulerConfig) (h : Hooks W F) (hh : EncoderHooks h)
    (predictor : ChunkPredictor F) (st : SchedulerState W F) (hd : st.running.Nodup)
    (hst : ∀ r i, 0 ≤ (st.requests r).numEncoderEmbeds i) (pausedAll : Bool) (now : F)
    (visited : List (Phase W F)) (s : RunState W F)
    (ht : RunsTo c h predictor st pausedAll now visited (.finished s)) :
    s.encoderComputeBudget + st.embedsOf s.scheduledEncoderInputs = c.maxNumEncoderInputTokens ↔
      ∀ p ∈ visited, p.KeepsEncoderBudget c h st := by
  refine (ht.inv hd (fun visited p => p.EncoderOk c.maxNumEncoderInputTokens st
    (∀ p ∈ visited, p.KeepsEncoderBudget c h st)) (fun time => ?_) fun visited p q hok hp hq => ?_).eq_iff
  · have hempty : st.embedsOf ∅ = 0 := rfl
    refine ⟨fun _ => rfl, nil_subset _, ?_, ?_⟩ <;> simp [beginStep, hempty]
  · simpa [or_imp, forall_and] using hq.encoderOk hh hst hok hp

def multimodal (world : List Bool) : SchedulerState (List Bool) Rat :=
  { sampleState 1 with
    running := [0, 1]
    requests := fun id => { (sampleState 1).requests id with hasEncoderInputs := true, numEncoderEmbeds := fun _ => 1 }
    world }

def encoderConfig : SchedulerConfig := { sampleConfig with maxNumEncoderInputTokens := 10 }

def encoderHooks : Hooks (List Bool) Rat :=
  { sampleHooks with
    tryScheduleEncoderInputs := fun w request _ n budget _ => (⟨[0], n, budget - request.numEncoderEmbeds 0, some []⟩, w) }

/-- Request 1 is asked for with a budget of eight left, gets its blocks when request 0 has given its embedding back,
and stores the eight. -/
theorem encoder_budget_lost : ∃ visited s, Trace (RecomputeScheduler.step encoderConfig encoderHooks false 0)
      (.head (beginStep encoderConfig (multimodal [true, false]) (initialBudget encoderConfig false) PyFloat.inf)) visited
      (.finished s) ∧
    s.encoderComputeBudget = 8 ∧ s.scheduledEncoderInputs.entries = [(1, [0])] :=
  ⟨_, _, .tail (.tail (.tail (.tail (.tail (.tail .refl rfl) rfl) rfl) rfl) rfl) rfl, rfl, rfl⟩

theorem encoder_budget_conserved_iff_sample : ∃ visited s,
    RunsTo encoderConfig encoderHooks unpredictable (multimodal []) false 0 visited (.finished s) ∧
    (s.encoderComputeBudget + (multimodal []).embedsOf s.scheduledEncoderInputs = 10 ↔
      ∀ p ∈ visited, p.KeepsEncoderBudget encoderConfig encoderHooks (multimodal [])) :=
  have ht := .inl (.tail (.tail (.tail (.tail (.tail .refl rfl) rfl) rfl) rfl) rfl)
  have hh : EncoderHooks encoderHooks := ⟨by simp [encoderHooks], by simp [encoderHooks, sampleHooks]⟩
  ⟨_, _, ht, encoder_budget_conserved_iff _ _ hh _ _ (by decide) (by simp [multimodal]) _ _ _ _ ht⟩

end VllmAscend.Core
