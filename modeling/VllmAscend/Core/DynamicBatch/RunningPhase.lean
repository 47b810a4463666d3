import VllmAscend.Core.DynamicBatch.Model

/-!
# The plan of the dynamic batch scheduler

A victim that was already scheduled leaves `scheduled_running_reqs` but keeps its tokens and blocks.
-/

namespace VllmAscend.Core.DynamicBatch

open Machine Plan
open List hiding beq_eq_decide

/-! ## What every run keeps -/

/-- `Plan.Ok` without the roll-back: keys of preempted requests may stay behind. -/
structure Kept (budget : Int) (p : Plan) : Prop where
  nodup : p.running.Nodup
  blocks_keys : p.reqToNewBlocks.keys = p.numScheduledTokens.keys
  sum : p.numScheduledTokens.values.sum + p.tokenBudget = budget
  disjoint : p.running.Disjoint p.preemptedReqs
  placed : ∀ k ∈ p.numScheduledTokens.keys, k ∈ p.running.take p.reqIndex ∨ k ∈ p.preemptedReqs
  sched : p.scheduledRunningReqs =
    p.numScheduledTokens.keys.filter fun k => decide (k ∉ p.preemptedReqs)

structure Asks (r : ReqId) (p : Plan) : Prop where
  placed : r ∈ p.running.take (p.reqIndex + 1)
  not_key : r ∉ p.numScheduledTokens.keys

variable {budget : Int} {p : Plan} {r v : ReqId}

theorem Kept.start {running : List ReqId} (hd : running.Nodup) (budget : Int) :
    Kept budget (start running budget) where
  nodup := hd
  blocks_keys := rfl
  sum := (Plan.Ok.start hd budget).sum
  disjoint := (Plan.Ok.start hd budget).disjoint
  placed := by simp [Plan.start]
  sched := by simp [Plan.start]

theorem Asks.mem_running (h : Asks r p) : r ∈ p.running := mem_of_mem_take h.placed

section

variable (h : Kept budget p)

include h

theorem Kept.skip : Kept budget p.skip :=
  { h with
    placed := fun k hk => (h.placed k hk).imp_left fun hm => take_subset_take_left _ (Nat.le_succ _) hm }

theorem Kept.asks (hr : p.running[p.reqIndex]? = some r) : Asks r p := by
  have htake := take_succ_of_getElem? hr
  refine ⟨by simp [htake], ?_⟩
  intro hk
  rcases h.placed r hk with hm | hm
  · have hd := h.nodup.sublist (take_sublist (p.reqIndex + 1) _)
    rw [htake] at hd
    exact (nodup_append.mp hd).2.2 r hm r (by simp) rfl
  · exact h.disjoint (mem_of_getElem? hr) hm

theorem Kept.commit (hr : Asks r p) (n : Int) (blocks : KVCacheBlocks) :
    Kept budget (p.commit r n blocks) := by
  have hkeys : (p.commit r n blocks).numScheduledTokens.keys = p.numScheduledTokens.keys ++ [r] :=
    Dict.keys_set_new hr.not_key n
  have hpre : r ∉ p.preemptedReqs := fun hm => h.disjoint hr.mem_running hm
  refine { h with blocks_keys := ?_, sum := ?_, placed := ?_, sched := ?_ }
  · rw [hkeys, ← h.blocks_keys]
    exact Dict.keys_set_new (by rw [h.blocks_keys]; exact hr.not_key) blocks
  · have hsum := h.sum
    have hset := Dict.sum_set_new hr.not_key n
    simp only [Plan.commit]
    omega
  · intro k hk
    rw [hkeys] at hk
    rcases mem_append.mp hk with hk | hk
    · exact (h.placed k hk).imp_left fun hm => take_subset_take_left _ (Nat.le_succ _) hm
    · rw [mem_singleton.mp hk]
      exact .inl hr.placed
  · rw [hkeys]
    simp [Plan.commit, h.sched, hpre]

theorem Kept.drop (v : ReqId) : Kept budget (p.drop v) := by
  have hrun : (p.drop v).running = p.running.erase v := Plan.removeRunning_eq_erase h.nodup v
  refine { h with nodup := ?_, disjoint := ?_, placed := ?_, sched := ?_ }
  · rw [hrun]
    exact h.nodup.erase v
  · rw [hrun]
    intro x hx hx'
    rcases mem_append.mp hx' with hp | hp
    · exact h.disjoint (mem_of_mem_erase hx) hp
    · rw [mem_singleton.mp hp] at hx
      exact h.nodup.not_mem_erase hx
  · intro k hk
    rw [hrun]
    rcases h.placed k hk with hm | hm
    · by_cases hkv : k = v
      · exact .inr (by simp [Plan.drop, hkv])
      · exact .inl ((erase_take_sublist _ v _).subset ((mem_erase_of_ne hkv).mpr hm))
    · exact .inr (mem_append_left _ hm)
  · have hd : p.scheduledRunningReqs.Nodup := by
      rw [h.sched]
      exact List.Nodup.filter _ p.numScheduledTokens.nodup
    simp only [Plan.drop]
    rw [hd.erase_eq_filter, h.sched, filter_filter]
    apply filter_congr
    simp [bne, beq_eq_decide, not_or, and_comm]

theorem Asks.drop (hr : Asks r p) (hvr : v ≠ r) : Asks r (p.drop v) := by
  refine ⟨?_, hr.not_key⟩
  have hrun : (p.drop v).running = p.running.erase v := removeRunning_eq_erase h.nodup v
  rw [hrun]
  exact (erase_take_sublist _ v _).subset ((mem_erase_of_ne hvr.symm).mpr hr.placed)

theorem Kept.consistent_iff :
    p.Consistent budget ↔ ∀ k ∈ p.numScheduledTokens.keys, k ∉ p.preemptedReqs := by
  constructor
  · intro hc k hk
    have hsched := (hc.tokens k).mp hk
    exact fun hp => hc.preempted hsched hp
  · intro hall
    have hsched : p.scheduledRunningReqs = p.numScheduledTokens.keys := by
      rw [h.sched]
      apply filter_eq_self.mpr
      intro k hk
      simpa using hall k hk
    refine ⟨fun k => by rw [hsched], fun k => by rw [hsched, h.blocks_keys], ?_, ?_, h.sum, ?_⟩
    · intro k hk
      rw [hsched] at hk
      rcases h.placed k hk with hm | hm
      · exact mem_of_mem_take hm
      · exact absurd hm (hall k hk)
    · intro k hk hp
      rw [hsched] at hk
      exact hall k hk hp
    · rw [hsched]
      exact p.numScheduledTokens.nodup

end

/-! ## Phases -/

section Phases

variable {W F : Type} [PyFloat F] {c : SchedulerConfig} {h : Hooks W F} {s : RunState W F} {n : Int}
  {enc : EncoderPlan} {now : F}

def PhaseKept (budget : Int) : Phase W F → Prop
  | .head s => Kept budget s.toPlan
  | .alloc r _ _ s => Kept budget s.toPlan ∧ Asks r s.toPlan
  | .finished s => Kept budget s.toPlan
  | .raised _ => True

section

omit [PyFloat F]

theorem scheduleRequest_toPlan (newBlocks : KVCacheBlocks) :
    (scheduleRequest h s r n enc newBlocks).toPlan = s.toPlan.commit r n newBlocks := by
  unfold scheduleRequest
  rw [recordEncoder_toPlan]
  simp only [recordSpecTokens]
  split <;> rfl

theorem scheduleRequest_queues (new : KVCacheBlocks) : (scheduleRequest h s r n enc new).waiting = s.waiting ∧
      (scheduleRequest h s r n enc new).skippedWaiting = s.skippedWaiting := by
  simp only [scheduleRequest, recordEncoder, encoderAllocateAll, recordSpecTokens]
  split <;> split <;> exact ⟨rfl, rfl⟩

end

/-- The steps of the running phase. A failed allocation preempts one victim, which goes to the front of
`self.waiting`. -/
inductive Steps (c : SchedulerConfig) (h : Hooks W F) (now : F) : Phase W F → Phase W F → Prop
  | finish (s : RunState W F) : Steps c h now (.head s) (.finished s)
  | raise (s : RunState W F) (e : PyError) : Steps c h now (.head s) (.raised e)
  | skip (s : RunState W F) (world : W) : Steps c h now (.head s) (.finished (skipRequest { s with world }))
  | ask {s : RunState W F} {r} (hr : s.running[s.reqIndex]? = some r) (n : Int) (enc : EncoderPlan)
      (world : W) : Steps c h now (.head s) (.alloc r n enc { s with world })
  | commit {s s' : RunState W F} {r n blocks} (enc : EncoderPlan)
      (ha : (allocateRunning c h s r n).1 = some blocks) (hplan : s'.toPlan = s.toPlan.commit r n blocks)
      (hqueues : s'.waiting = s.waiting ∧ s'.skippedWaiting = s.skippedWaiting) :
      Steps c h now (.alloc r n enc s) (.head s')
  | drop {s s' : RunState W F} {r v n selector} (enc : EncoderPlan) (ha : (allocateRunning c h s r n).1 = none)
      (hpick : pickPreemptVictim c h now { s with world := (allocateRunning c h s r n).2 } = some (v, selector))
      (hv : v ∈ s.running) (hplan : s'.toPlan = s.toPlan.drop v)
      (hqueues : s'.waiting = v :: s.waiting ∧ s'.skippedWaiting = s.skippedWaiting) :
      Steps c h now (.alloc r n enc s) (if v = r then .finished s' else .alloc r n enc s')

def roundsLeft : Phase W F → Nat
  | .head s =>
    if s.running.length ≤ s.reqIndex then 1
    else 3 * (s.running.length + (s.running.length - s.reqIndex)) + 2
  | .alloc _ _ _ s => 3 * (s.running.length + (s.running.length - s.reqIndex)) + 1
  | .finished _ => 0
  | .raised _ => 0

/-- If the allocation at this point fails, its victim was not scheduled in this step. -/
def VictimUnscheduled (c : SchedulerConfig) (h : Hooks W F) (now : F) : Phase W F → Prop
  | .alloc r n _ s => (allocateRunning c h s r n).1 = none → ∀ v selector,
      pickPreemptVictim c h now { s with world := (allocateRunning c h s r n).2 } =
        some (v, selector) → v ∉ s.scheduledRunningReqs
  | _ => True

def PhasePlan (P : Plan → Prop) : Phase W F → Prop
  | .head s => P s.toPlan
  | .alloc _ _ _ s => P s.toPlan
  | .finished s => P s.toPlan
  | .raised _ => True

def LeftBehind (p : Plan) : Prop := ∃ k ∈ p.numScheduledTokens.keys, k ∈ p.preemptedReqs

theorem LeftBehind.commit (hl : LeftBehind p) (m : Int) (blocks : KVCacheBlocks) :
    LeftBehind (p.commit r m blocks) := by
  obtain ⟨k, hk, hp⟩ := hl
  refine ⟨k, ?_, hp⟩
  simp only [Plan.commit]
  rw [Dict.keys_set]
  split
  · exact hk
  · exact mem_append_left _ hk

theorem LeftBehind.drop (hl : LeftBehind p) : LeftBehind (p.drop v) := by
  obtain ⟨k, hk, hp⟩ := hl
  exact ⟨k, hk, mem_append_left _ hp⟩

/-! ## One step -/

section Step

variable {t u : Phase W F} (hk : PhaseKept budget t) (hu : step c h now t () = some u)

include hk hu

theorem step_steps : Steps c h now t u := by
  cases t with
  | head s =>
    cases hu
    unfold headStep
    split
    · exact .finish s
    · rename_i r hr
      split
      · exact .finish s
      · split
        · exact .raise s _
        · split
          · exact .skip s _
          · exact .ask hr _ _ _
  | alloc r n enc s =>
    cases hu
    unfold allocStep
    split
    · rename_i blocks world ha
      exact .commit enc (by rw [ha]) (scheduleRequest_toPlan blocks) (scheduleRequest_queues blocks)
    · rename_i world ha
      obtain ⟨v, selector, hv⟩ :=
        pickVictim_isSome s.selector s.requests c.policy (ne_nil_of_mem hk.2.mem_running)
          (inferKvUtilization (h.blockPool world)) now
      unfold preemptVictim pickPreemptVictim
      rw [hv]
      exact .drop enc (by rw [ha]) (by rw [ha]; exact hv) (pickVictim_mem hv) rfl ⟨rfl, rfl⟩
  | finished s | raised e => cases hu

theorem step_kept : PhaseKept budget u := by
  cases step_steps hk hu with
  | finish s => exact hk
  | raise s e => trivial
  | skip s world => exact Kept.skip hk
  | ask hr n enc world => exact ⟨hk, Kept.asks hk hr⟩
  | commit enc ha hplan =>
    simp only [PhaseKept, hplan]
    exact hk.1.commit hk.2 _ _
  | drop enc ha hpick hv hplan =>
    split
    · simp only [PhaseKept, hplan]
      exact hk.1.drop _
    · rename_i hvr
      simp only [PhaseKept, hplan]
      exact ⟨hk.1.drop _, hk.2.drop hk.1 hvr⟩

theorem step_roundsLeft : roundsLeft u < roundsLeft t := by
  cases step_steps hk hu with
  | finish s | raise s e | skip s world =>
    simp only [roundsLeft]
    split <;> omega
  | ask hr n enc world =>
    have hlt := (List.getElem?_eq_some_iff.mp hr).1
    simp only [roundsLeft]
    rw [if_neg (by omega)]
    omega
  | commit enc ha hplan =>
    have hpos := length_pos_of_mem hk.2.mem_running
    simp only [roundsLeft, hplan, commit]
    split <;> omega
  | drop enc ha hpick hv hplan =>
    have hlen := length_erase_of_mem hv
    have hpos := length_pos_of_mem hv
    split
    · simp only [roundsLeft]
      omega
    · simp only [roundsLeft, hplan, Plan.drop, Plan.removeRunning_eq_erase hk.1.nodup, hlen]
      omega

theorem step_leftBehind (hp : PhasePlan LeftBehind t) : PhasePlan LeftBehind u := by
  cases step_steps hk hu with
  | finish s | skip s world | ask hr n enc world => exact hp
  | raise s e => trivial
  | commit enc ha hplan =>
    simp only [PhasePlan, hplan]
    exact LeftBehind.commit hp _ _
  | drop enc ha hpick hv hplan =>
    split
    all_goals
      simp only [PhasePlan, hplan]
      exact LeftBehind.drop hp

theorem leftBehind_of_scheduled_victim (hp : ¬ VictimUnscheduled c h now t) : PhasePlan LeftBehind u := by
  cases step_steps hk hu with
  | finish s | raise s e | skip s world | ask hr n enc world => exact absurd trivial hp
  | commit enc ha hplan => exact absurd (fun hfail => by rw [hfail] at ha; cases ha) hp
  | drop enc ha hpick hv hplan =>
    simp only [VictimUnscheduled, not_forall, not_not] at hp
    obtain ⟨-, v, selector, hv', hmem⟩ := hp
    cases hpick.symm.trans hv'
    rw [hk.1.sched] at hmem
    have hleft := (mem_filter.mp hmem).1
    split
    all_goals
      simp only [PhasePlan, hplan]
      exact ⟨_, hleft, by simp [Plan.drop]⟩

theorem step_not_leftBehind (hp : PhasePlan (fun p => ¬ LeftBehind p) t) (hv : VictimUnscheduled c h now t) :
    PhasePlan (fun p => ¬ LeftBehind p) u := by
  cases step_steps hk hu with
  | finish s | skip s world | ask hr n enc world => exact hp
  | raise s e => trivial
  | commit enc ha hplan =>
    simp only [PhasePlan, hplan]
    rintro ⟨k, hkey, hpre⟩
    simp only [commit, Dict.keys_set_new hk.2.not_key] at hkey
    rcases mem_append.mp hkey with hkey | hkey
    · exact hp ⟨k, hkey, hpre⟩
    · rw [mem_singleton.mp hkey] at hpre
      exact hk.1.disjoint hk.2.mem_running hpre
  | @drop s s' r v n selector enc ha hpick _ hplan =>
    have hkeep : ¬ LeftBehind (s.toPlan.drop v) := by
      rintro ⟨k, hkey, hpre⟩
      rcases mem_append.mp hpre with hpre | hpre
      · exact hp ⟨k, hkey, hpre⟩
      · rw [mem_singleton.mp hpre] at hkey
        apply hv ha v selector hpick
        rw [hk.1.sched, mem_filter]
        exact ⟨hkey, by simpa using fun hm => hp ⟨v, hkey, hm⟩⟩
    rw [← hplan] at hkeep
    split <;> exact hkeep

end Step

/-! ## The end of the running phase -/

variable {refiner : BudgetRefiner} {st : SchedulerState W F}

omit [PyFloat F] in
theorem reorder_perm (requests : ReqId → Request F) (running : List ReqId) :
    (reorder requests running).Perm running := filter_append_perm _ running

theorem beginRunning_kept (c : SchedulerConfig) (refiner : BudgetRefiner) (hd : st.running.Nodup) :
    PhaseKept (refineBudget refiner st.requests st.running c.maxNumScheduledTokens)
      (.head (beginRunning c refiner st)) :=
  Kept.start ((reorder_perm st.requests st.running).nodup_iff.mpr hd) _

theorem runningPhase_ends (hd : st.running.Nodup) : ∃ p, runningPhase c h refiner now st = some p := by
  apply runToEnd_isSome (PhaseKept _) roundsLeft
    (fun _ _ hp hq => ⟨step_kept hp hq, step_roundsLeft hp hq⟩) (beginRunning_kept c refiner hd)
  have hlen := (reorder_perm st.requests st.running).length_eq
  simp only [roundsLeft, beginRunning, beginStep, start, hlen]
  split <;> omega

theorem runningPhase_consistent_iff (c : SchedulerConfig) (h : Hooks W F) (refiner : BudgetRefiner)
    (now : F) (st : SchedulerState W F) (hd : st.running.Nodup) (e : RunState W F)
    (he : runningPhase c h refiner now st = some (.finished e)) :
    e.toPlan.Consistent (refineBudget refiner st.requests st.running c.maxNumScheduledTokens) ↔
      ∀ p, Reaches (step c h now) AnyAction (.head (beginRunning c refiner st)) p → VictimUnscheduled c h now p := by
  have hstart := beginRunning_kept c refiner hd
  obtain ⟨hreach, hend⟩ := reaches_of_runToEnd he
  have hkept : ∀ p, Reaches (step c h now) AnyAction (.head (beginRunning c refiner st)) p →
      PhaseKept _ p := fun p hp => hp.inv (PhaseKept _) hstart fun _ _ _ ht _ hq => step_kept ht hq
  have hiff := Kept.consistent_iff (hkept _ hreach)
  rw [hiff]
  constructor
  · intro hall p hp
    by_contra hbad
    -- The victim's key stays in the plan until the end.
    rcases (hp.to_end hreach hend).cases_head with heq | ⟨q, hq, hqe⟩
    · subst heq
      exact hbad trivial
    · have hleft := leftBehind_of_scheduled_victim (hkept p hp) hq hbad
      have hkq := hkept q (hp.tail trivial hq)
      obtain ⟨hle, -⟩ := hqe.inv (fun p => PhasePlan LeftBehind p ∧ PhaseKept _ p) ⟨hleft, hkq⟩
        fun _ _ _ ht _ hs => ⟨step_leftBehind ht.2 hs ht.1, step_kept ht.2 hs⟩
      obtain ⟨k, hk, hpre⟩ := hle
      exact hall k hk hpre
  · intro hgood k hk hpre
    have hinv := hreach.inv
      (fun p => Reaches (step c h now) AnyAction (.head (beginRunning c refiner st)) p ∧
        PhasePlan (fun p => ¬ LeftBehind p) p)
      ⟨.refl, by simp [PhasePlan, LeftBehind, beginRunning, beginStep, start]⟩
      fun t _ _ ht hok hs => ⟨ht.1.tail hok hs, step_not_leftBehind (hkept t ht.1) hs ht.2 (hgood t ht.1)⟩
    exact hinv.2 ⟨k, hk, hpre⟩

end Phases

def disabledRefiner : BudgetRefiner := ⟨false, ∅, [], [], 0⟩

/-- Two decodes. Request 0 is the one to preempt under the priority policy, and `answers` are those
of `allocate_slots`. -/
def twoRunning (answers : List Bool) : SchedulerState (List Bool) Rat where
  running := [0, 1]
  waiting := []
  skippedWaiting := []
  requests := fun id => { sampleRequest id with priority := if id = 0 then 1 else 0 }
  selector := sampleSelector
  world := answers

theorem runningPhase_consistent_iff_twoRunning :
    ∃ e, runningPhase sampleConfig sampleHooks disabledRefiner 0 (twoRunning []) = some (.finished e) ∧
      (e.toPlan.Consistent 10 ↔ ∀ p, Reaches (step sampleConfig sampleHooks 0) AnyAction
        (.head (beginRunning sampleConfig disabledRefiner (twoRunning []))) p →
          VictimUnscheduled sampleConfig sampleHooks 0 p) :=
  ⟨_, rfl, runningPhase_consistent_iff sampleConfig sampleHooks disabledRefiner 0 (twoRunning [])
    (by decide) _ rfl⟩

/-- The second allocation fails once. Request 0, scheduled just before, is preempted for request 1
but keeps its entry in `num_scheduled_tokens`. -/
theorem runningPhase_scheduled_victim :
    ∃ e, runningPhase sampleConfig sampleHooks disabledRefiner 0 (twoRunning [true, false]) =
        some (.finished e) ∧ e.numScheduledTokens.keys = [0, 1] ∧ e.reqToNewBlocks.keys = [0, 1] ∧
      e.scheduledRunningReqs = [1] ∧ e.preemptedReqs = [0] ∧ ¬ e.toPlan.Consistent 10 := by
  refine ⟨_, rfl, rfl, rfl, rfl, rfl, ?_⟩
  intro hc
  have hmem := (hc.tokens 0).mp (by decide)
  exact absurd hmem (by decide)

end VllmAscend.Core.DynamicBatch
