import VllmAscend.Core.ForkSchedulers

/-!
# The plans of the forks that roll victims back
-/

namespace VllmAscend.Core

open List RecomputeScheduler

variable {W F : Type} [PyFloat F]

/-! ## What a step does -/

def Within (c : SchedulerConfig) (request : Request F) : Prop :=
  request.numComputedTokens ≤ request.numTokensWithSpec + request.numOutputPlaceholders ∧
    request.numComputedTokens ≤ c.maxModelLen - 1

/-- vLLM's encoder and alignment hooks only ever cut a chunk down. -/
structure HooksBounded (h : Hooks W F) : Prop where
  encoder : ∀ w request computed n budget shift, 0 ≤ n →
    0 ≤ (h.tryScheduleEncoderInputs w request computed n budget shift).1.numNewTokens ∧
      (h.tryScheduleEncoderInputs w request computed n budget shift).1.numNewTokens ≤ n
  mamba : ∀ w request n, 0 ≤ n →
    0 ≤ (h.mambaBlockAlignedSplit w request n).1 ∧ (h.mambaBlockAlignedSplit w request n).1 ≤ n

variable {c : SchedulerConfig} {h : Hooks W F} {budget : Int} {s : RunState W F} {r : ReqId} {n : Int}
  {enc : EncoderPlan}

section

omit [PyFloat F]

theorem newTokens_bounds {req : Request F} (hw : Within c req) {tokenBudget : Int} (hb : 0 < tokenBudget) :
    0 ≤ newTokens c req tokenBudget ∧ newTokens c req tokenBudget ≤ tokenBudget := by
  obtain ⟨hspec, hlen⟩ := hw
  simp only [newTokens, capPrefill]
  split <;> omega

theorem alignMamba_bounds (hh : HooksBounded h) (world : W) (req : Request F) (hn : 0 ≤ n) :
    0 ≤ (alignMamba c h world req n).1 ∧ (alignMamba c h world req n).1 ≤ n := by
  unfold alignMamba
  split
  · exact hh.mamba world req n hn
  · exact ⟨hn, le_rfl⟩

theorem scheduleEncoder_bounds (hh : HooksBounded h) {m : Int} {world : W} (hn : 0 ≤ n)
    (hs : scheduleEncoder c h s r n = .ok (enc, m, world)) : 0 ≤ m ∧ m ≤ n := by
  simp only [scheduleEncoder] at hs
  split at hs
  · split at hs
    · cases hs
    · cases hs
      exact hh.encoder _ _ _ _ _ _ hn
  · cases hs
    exact ⟨hn, le_rfl⟩

end

/-- A step of either running phase. The time that `ProfilingChunkScheduler` has left may be any. -/
inductive ForkStep (c : SchedulerConfig) (h : Hooks W F) (kvConsumer : Bool) (now : F) : Phase W F → Phase W F → Prop
  | finish (s : RunState W F) (world : W) : ForkStep c h kvConsumer now (.head s) (.finished { s with world })
  | raise (s : RunState W F) (e : PyError) : ForkStep c h kvConsumer now (.head s) (.raised e)
  | skip {s : RunState W F} {r : ReqId} (hr : s.running[s.reqIndex]? = some r) (world : W) :
    ForkStep c h kvConsumer now (.head s) (.head (skipRequest { s with world }))
  | ask {s : RunState W F} {r : ReqId} {n m : Int} {enc : EncoderPlan} {world : W}
    (hr : s.running[s.reqIndex]? = some r)
    (henc : scheduleEncoder c h s r (newTokens c (s.requests r) s.tokenBudget) = .ok (enc, m, world))
    (hn : HooksBounded h → Within c (s.requests r) → 0 ≤ n ∧ n ≤ s.tokenBudget) (world' : W) :
    ForkStep c h kvConsumer now (.head s) (.alloc r n enc { s with world := world' })
  | commit {s : RunState W F} {r : ReqId} {n : Int} {blocks : KVCacheBlocks} {world : W}
    (ha : allocateRunning c h s r n = (some blocks, world)) (enc : EncoderPlan) (timeBudget : F) :
    ForkStep c h kvConsumer now (.alloc r n enc s)
      (.head (scheduleRequest h { s with world, timeBudget } r n enc blocks))
  | preempt {s : RunState W F} {r : ReqId} {n : Int} {world : W} (ha : allocateRunning c h s r n = (none, world))
    (enc : EncoderPlan) : ForkStep c h kvConsumer now (.alloc r n enc s) (preemptVictim c h now r n enc { s with world })
  | recompute (s : RunState W F) (r : ReqId) (n : Int) (enc : EncoderPlan) (world : W) (hk : kvConsumer = true) :
    ForkStep c h kvConsumer now (.alloc r n enc s) (RecomputeScheduler.recomputeLast h r n enc { s with world })

variable {kvConsumer : Bool} {now : F} {p q : Phase W F}

theorem takeUp_forkStep {m : Int} {world : W} (hr : s.running[s.reqIndex]? = some r) (hb : 0 < s.tokenBudget)
    (henc : scheduleEncoder c h s r (newTokens c (s.requests r) s.tokenBudget) = .ok (enc, m, world))
    (hn : 0 ≤ m → 0 ≤ n ∧ n ≤ m) : ForkStep c h kvConsumer now (.head s) (takeUp c h s r n enc world) := by
  simp only [takeUp]
  split
  · exact .skip hr _
  · refine .ask hr henc (fun hh hw => ?_) _
    obtain ⟨h0, hle⟩ := newTokens_bounds hw hb
    obtain ⟨hm0, hm⟩ := scheduleEncoder_bounds hh h0 henc
    obtain ⟨hn0, hnm⟩ := hn hm0
    obtain ⟨hk0, hk⟩ := alignMamba_bounds (c := c) hh world (s.requests r) hn0
    omega

theorem RecomputeScheduler.forkStep (hq : step c h kvConsumer now p () = some q) :
    ForkStep c h kvConsumer now p q := by
  cases p with
  | head s =>
    cases hq
    unfold headStep
    split
    · exact .finish s s.world
    · rename_i r hr
      split
      · exact .finish s s.world
      · rename_i hb
        split
        · exact .raise s _
        · exact .skip hr s.world
        · split
          · exact .raise s _
          · rename_i henc
            exact takeUp_forkStep hr (not_le.mp hb) henc fun h0 => ⟨h0, le_rfl⟩
  | alloc r n enc s =>
    cases hq
    unfold allocStep
    split
    · rename_i ha
      exact .commit ha enc s.timeBudget
    · rename_i ha
      split
      · exact .recompute s r n enc _ ‹_›
      · exact .preempt ha enc
  | finished s | raised e => cases hq

namespace ProfilingChunkScheduler

variable {predictor : ChunkPredictor F}

theorem dynamicChunk_bounds {req : Request F} {timeBudget : F} {m : Int} (h0 : 0 ≤ n)
    (hd : dynamicChunk predictor req timeBudget n = some m) : 0 ≤ m ∧ m ≤ n := by
  have hun : ∀ m, dynamicChunk.unpredicted predictor timeBudget n = some m → 0 ≤ m ∧ m ≤ n := by
    intro m hm
    obtain ⟨_, ⟨⟩⟩ := Option.ite_none_right_eq_some.mp hm
    exact ⟨h0, le_rfl⟩
  unfold dynamicChunk at hd
  split at hd
  · split at hd
    · split at hd
      · cases hd
        omega
      · exact hun m hd
    · exact hun m hd
  · cases hd
    exact ⟨h0, le_rfl⟩

theorem forkStep (hq : step c h predictor now p () = some q) : ForkStep c h false now p q := by
  cases p with
  | head s =>
    cases hq
    unfold headStep
    split
    · exact .finish s s.world
    · rename_i r hr
      split
      · exact .finish s s.world
      · rename_i hb
        have hpos : 0 < s.tokenBudget := by
          simp only [Bool.or_eq_true, decide_eq_true_eq, not_or] at hb
          omega
        split
        · exact .raise s _
        · exact .skip hr s.world
        · split
          · exact .raise s _
          · rename_i henc
            split
            · exact .finish s _
            · rename_i hd
              exact takeUp_forkStep hr hpos henc fun h0 => dynamicChunk_bounds h0 hd
  | alloc r n enc s =>
    cases hq
    unfold allocStep
    split
    · rename_i ha
      simp only [chargeTime]
      split
      · exact .commit ha enc _
      · exact .commit ha enc s.timeBudget
    · rename_i ha
      exact .preempt ha enc
  | finished s | raised e => cases hq

end ProfilingChunkScheduler

/-! ## Consistency, phase by phase -/

def Phase.Ok (budget : Int) : Phase W F → Prop
  | .head s => s.toPlan.Ok budget
  | .alloc r _ _ s => s.toPlan.Ok budget ∧ s.toPlan.Taken r
  | .finished s => s.toPlan.Ok budget
  | .raised _ => True

variable (hs : s.toPlan.Ok budget) (ht : s.toPlan.Taken r)

include hs ht

theorem preemptVictim_spec (now : F) : ∃ v s', Plan.RolledBack s.toPlan s'.toPlan v ∧
      (∃ selector, rollBackVictim h { s with selector } v = some s') ∧
      preemptVictim c h now r n enc s = if v = r then .finished s' else .alloc r n enc s' := by
  have hrun : s.running ≠ [] := ne_nil_of_mem ht.mem_running
  obtain ⟨v, selector, hv⟩ :=
    pickVictim_isSome s.selector s.requests c.policy hrun
      (inferKvUtilization (h.blockPool s.world)) now
  obtain ⟨p, hp, hrb⟩ := Plan.rollBack_spec hs v
  obtain ⟨s', hs'⟩ : ∃ s', rollBackVictim h { s with selector } v = some s' := ⟨_, by rw [rollBackVictim, hp]; rfl⟩
  have hplan' := rollBackVictim_toPlan h _ v hs'
  have hplan : p = s'.toPlan := Option.some.inj (hp.symm.trans hplan')
  refine ⟨v, s', hplan ▸ hrb, ⟨selector, hs'⟩, ?_⟩
  unfold preemptVictim pickPreemptVictim
  rw [hv]
  simp only [hs']

theorem preemptVictim_ok (now : F) : (preemptVictim c h now r n enc s).Ok budget := by
  obtain ⟨v, s', hrb, -, he⟩ := preemptVictim_spec (c := c) (h := h) (n := n) hs ht now
  rw [he]
  split
  · exact hs.rolledBack hrb
  · rename_i hvr
    exact ⟨hs.rolledBack hrb, ht.rolledBack hs hrb hvr⟩

omit [PyFloat F] in
theorem RecomputeScheduler.recomputeLast_ok : (recomputeLast h r n enc s).Ok budget := by
  simp only [recomputeLast]
  split
  · trivial
  · rename_i v hlast
    have hpop := hs.popLast ht hlast
    split
    · split
      · simpa [Phase.Ok, Plan.popLast, hlast] using hpop true
      · exact hpop false
    · rename_i hvr
      have htaken := ht.popLast hs hlast hvr
      split
      · simpa [Phase.Ok, Plan.popLast, hlast] using And.intro (hpop true) (htaken true)
      · exact ⟨hpop false, htaken false⟩

omit hs ht

theorem ForkStep.ok (hp : p.Ok budget) (hq : ForkStep c h kvConsumer now p q) : q.Ok budget := by
  cases hq with
  | finish s world => exact hp
  | raise => trivial
  | skip => exact Plan.Ok.skip hp
  | ask hr => exact ⟨hp, Plan.Ok.taken hp hr⟩
  | commit =>
    simp only [Phase.Ok, scheduleRequest_toPlan]
    exact hp.1.commit hp.2 _ _
  | preempt =>
    apply preemptVictim_ok
    · exact hp.1
    · exact hp.2
  | recompute =>
    apply recomputeLast_ok
    · exact hp.1
    · exact hp.2

/-! ## The budget -/

def Fresh (st : SchedulerState W F) (s : RunState W F) : Prop :=
  ∀ x ∈ s.running.drop s.reqIndex, x ∈ st.running ∧ s.requests x = st.requests x

def Phase.Solvent (budget : Int) (st : SchedulerState W F) : Phase W F → Prop
  | .head s => s.toPlan.Ok budget ∧ s.toPlan.Funded ∧ Fresh st s
  | .alloc r n _ s =>
    (s.toPlan.Ok budget ∧ s.toPlan.Taken r) ∧ s.toPlan.Funded ∧ Fresh st s ∧ 0 ≤ n ∧ n ≤ s.tokenBudget
  | .finished s => s.toPlan.Ok budget ∧ s.toPlan.Funded
  | .raised _ => True

variable {st : SchedulerState W F}

section

omit [PyFloat F]

theorem Fresh.within (hf : Fresh st s) (hst : ∀ x ∈ st.running, Within c (st.requests x))
    (hr : s.running[s.reqIndex]? = some r) : Within c (s.requests r) := by
  have hmem : r ∈ s.running.drop s.reqIndex := by
    apply mem_of_getElem? (i := 0)
    rw [getElem?_drop, Nat.add_zero, hr]
  obtain ⟨hx, he⟩ := hf r hmem
  rw [he]
  exact hst r hx

theorem Fresh.skip (hf : Fresh st s) : Fresh st (skipRequest s) :=
  fun x hx => hf x (drop_subset_drop_left _ (Nat.le_succ _) hx)

theorem scheduleRequest_solvent (hs : s.toPlan.Ok budget) (ht : s.toPlan.Taken r)
    (hf : s.toPlan.Funded) (hfresh : Fresh st s) (h0 : 0 ≤ n) (hn : n ≤ s.tokenBudget)
    (new : KVCacheBlocks) : (Phase.head (scheduleRequest h s r n enc new)).Solvent budget st := by
  simp only [Phase.Solvent, scheduleRequest_toPlan]
  refine ⟨hs.commit ht n new, hf.commit h0 hn new, ?_⟩
  intro x hx
  rw [scheduleRequest_toPlan] at hx
  have hxr : x ≠ r := by
    rintro rfl
    exact ht.not_mem_drop hs hx
  rw [scheduleRequest_requests h s hxr]
  exact hfresh x (drop_subset_drop_left _ (Nat.le_succ _) hx)

end

theorem preemptVictim_solvent (hs : s.toPlan.Ok budget) (ht : s.toPlan.Taken r)
    (hf : s.toPlan.Funded) (hfresh : Fresh st s) (h0 : 0 ≤ n) (hn : n ≤ s.tokenBudget) (now : F) :
    (preemptVictim c h now r n enc s).Solvent budget st := by
  obtain ⟨v, s', hrb, ⟨selector, hs'⟩, he⟩ := preemptVictim_spec (c := c) (h := h) (n := n) hs ht now
  rw [he]
  split
  · exact ⟨hs.rolledBack hrb, hf.rolledBack hrb⟩
  · rename_i hvr
    refine ⟨⟨hs.rolledBack hrb, ht.rolledBack hs hrb hvr⟩, hf.rolledBack hrb, ?_, h0, hn.trans (hrb.budget_le hf)⟩
    intro x hx
    have hxv : x ≠ v := by
      rintro rfl
      have hmem := mem_of_mem_drop hx
      rw [hrb.running] at hmem
      exact hs.nodup.not_mem_erase hmem
    rw [rollBackVictim_requests h _ hs' hxv]
    exact hfresh x (hrb.drop_subset hs hx)

theorem ForkStep.solvent (hh : HooksBounded h) (hst : ∀ x ∈ st.running, Within c (st.requests x))
    (hp : p.Solvent budget st) (hq : ForkStep c h false now p q) : q.Solvent budget st := by
  cases hq with
  | finish s world => exact ⟨hp.1, hp.2.1⟩
  | raise => trivial
  | skip => exact ⟨Plan.Ok.skip hp.1, ⟨hp.2.1.budget, hp.2.1.tokens⟩, hp.2.2.skip⟩
  | ask hr _ hn =>
    obtain ⟨hok, hf, hfresh⟩ := hp
    exact ⟨⟨hok, hok.taken hr⟩, hf, hfresh, hn hh (hfresh.within hst hr)⟩
  | commit ha enc time =>
    obtain ⟨⟨hok, ht⟩, hf, hfresh, h0, hn⟩ := hp
    apply scheduleRequest_solvent
    all_goals assumption
  | preempt =>
    obtain ⟨⟨hok, ht⟩, hf, hfresh, h0, hn⟩ := hp
    apply preemptVictim_solvent
    all_goals assumption
  | recompute _ _ _ _ _ hk => cases hk

/-! ## Every point of both running phases -/

def Phase.Consistent (budget : Int) : Phase W F → Prop
  | .head s => s.toPlan.Consistent budget
  | .alloc r _ _ s => s.toPlan.Consistent budget ∧ r ∉ s.scheduledRunningReqs ∧ r ∉ s.preemptedReqs
  | .finished s => s.toPlan.Consistent budget
  | .raised _ => True

def Phase.tokenBudget? : Phase W F → Option Int
  | .head s => some s.tokenBudget
  | .alloc _ _ _ s => some s.tokenBudget
  | .finished s => some s.tokenBudget
  | .raised _ => none

def Phase.BudgetNonneg (p : Phase W F) : Prop := ∀ b, p.tokenBudget? = some b → 0 ≤ b

section

omit [PyFloat F]

theorem Phase.Ok.consistent {p : Phase W F} (hp : p.Ok budget) : p.Consistent budget := by
  cases p with
  | head s | finished s => exact Plan.Ok.consistent hp
  | alloc r n enc s =>
    obtain ⟨hok, ht⟩ := hp
    exact ⟨hok.consistent, ht.not_scheduled hok, fun hr => hok.disjoint ht.mem_running hr⟩
  | raised e => trivial

theorem Phase.Solvent.budgetNonneg {p : Phase W F} (hp : p.Solvent budget st) : p.BudgetNonneg := by
  intro b hb
  cases p with
  | head s | alloc r n enc s =>
    cases hb
    exact hp.2.1.budget
  | finished s =>
    cases hb
    exact hp.2.budget
  | raised e => cases hb

theorem beginStep_ok (hd : st.running.Nodup) (budget : Int) (time : F) :
    (Phase.head (beginStep c st budget time)).Ok budget := Plan.Ok.start hd budget

theorem beginStep_solvent (hd : st.running.Nodup) (hb : 0 ≤ budget) (time : F) :
    (Phase.head (beginStep c st budget time)).Solvent budget st :=
  ⟨Plan.Ok.start hd budget, Plan.Funded.start _ hb, fun _ hx => ⟨mem_of_mem_drop hx, rfl⟩⟩

end

theorem initialBudget_nonneg (hc : 0 ≤ c.maxNumScheduledTokens) (pausedAll : Bool) :
    0 ≤ initialBudget c pausedAll := by
  unfold initialBudget
  split
  · exact le_rfl
  · exact hc

open Machine

/-- At every point of the running phases the plan is consistent. The budget stays nonnegative when
no running request has computed more tokens than it has or than the model length allows. -/
theorem forks_plan_consistent (c : SchedulerConfig) (h : Hooks W F) (predictor : ChunkPredictor F)
    (st : SchedulerState W F) (hd : st.running.Nodup) (pausedAll : Bool) (now : F) :
    (∀ kvConsumer p, Reaches (RecomputeScheduler.step c h kvConsumer now) AnyAction (.head (beginStep c st
        (initialBudget c pausedAll) PyFloat.inf)) p → p.Consistent (initialBudget c pausedAll)) ∧
    (∀ p, Reaches (ProfilingChunkScheduler.step c h predictor now) AnyAction
        (.head (beginStep c st (initialBudget c pausedAll) (ProfilingChunkScheduler.initialTime predictor))) p →
      p.Consistent (initialBudget c pausedAll)) ∧ (0 ≤ c.maxNumScheduledTokens → HooksBounded h →
      (∀ x ∈ st.running, Within c (st.requests x)) → (∀ p, Reaches (RecomputeScheduler.step c h false now) AnyAction
          (.head (beginStep c st (initialBudget c pausedAll) PyFloat.inf)) p → p.BudgetNonneg) ∧
      (∀ p, Reaches (ProfilingChunkScheduler.step c h predictor now) AnyAction
          (.head (beginStep c st (initialBudget c pausedAll)
            (ProfilingChunkScheduler.initialTime predictor))) p → p.BudgetNonneg)) := by
  have hok := fun time : F => beginStep_ok (c := c) hd (initialBudget c pausedAll) time
  refine ⟨?_, ?_, ?_⟩
  · intro kvConsumer p hp
    exact (hp.inv (Phase.Ok _) (hok _) fun _ _ _ ht _ hq => (forkStep hq).ok ht).consistent
  · intro p hp
    exact (hp.inv (Phase.Ok _) (hok _) fun _ _ _ ht _ hq => (ProfilingChunkScheduler.forkStep hq).ok ht).consistent
  · intro hc hh hst
    have hsolvent := fun time : F => beginStep_solvent (c := c) hd (initialBudget_nonneg hc pausedAll) time
    refine ⟨?_, ?_⟩
    · intro p hp
      exact (hp.inv (Phase.Solvent _ st) (hsolvent _) fun _ _ _ ht _ hq =>
        (forkStep hq).solvent hh hst ht).budgetNonneg
    · intro p hp
      exact (hp.inv (Phase.Solvent _ st) (hsolvent _) fun _ _ _ ht _ hq =>
        (ProfilingChunkScheduler.forkStep hq).solvent hh hst ht).budgetNonneg

def sampleState (computed : Int) : SchedulerState (List Bool) Rat where
  running := [0, 1, 2]
  waiting := []
  skippedWaiting := []
  requests := fun id =>
    match id with
    | 0 => { sampleRequest 0 with numComputedTokens := computed, priority := 1 }
    | 1 => { sampleRequest 1 with numTokens := 13 }
    | id => sampleRequest id
  selector := sampleSelector
  world := [true, true, false]

theorem sampleHooks_bounded : HooksBounded sampleHooks where
  encoder _ _ _ _ _ _ hn := ⟨hn, le_rfl⟩
  mamba _ _ _ hn := ⟨hn, le_rfl⟩

theorem sampleState_within : ∀ x ∈ (sampleState 1).running, Within sampleConfig ((sampleState 1).requests x) := by
  unfold Within
  decide

theorem forks_plan_consistent_sample : (sampleState 1).running.Nodup ∧ 0 ≤ sampleConfig.maxNumScheduledTokens ∧
    (∀ p, Reaches (RecomputeScheduler.step sampleConfig sampleHooks false 0) AnyAction
        (.head (beginStep sampleConfig (sampleState 1) (initialBudget sampleConfig false) PyFloat.inf))
        p → p.Consistent 10 ∧ p.BudgetNonneg) := by
  have hall := forks_plan_consistent sampleConfig sampleHooks ⟨none, false, false, fun _ _ => none,
    fun _ _ => 0⟩ (sampleState 1) (by decide) false 0
  refine ⟨by decide, by decide, ?_⟩
  intro p hp
  exact ⟨hall.1 false p hp, (hall.2.2 (by decide) sampleHooks_bounded sampleState_within).1 p hp⟩

/-- The first request has computed five tokens and has two. It is scheduled with -3 tokens, the
second one gets 12 of the 13 that are then left, and the roll-back of the first one for the third
takes 3 off the one that remains. -/
theorem recompute_budget_negative :
    ¬ ∀ p, Reaches (RecomputeScheduler.step sampleConfig sampleHooks false 0) AnyAction
      (.head (beginStep sampleConfig (sampleState 5) (initialBudget sampleConfig false) PyFloat.inf))
      p → p.BudgetNonneg := by
  intro hall
  have hrun : (run (step sampleConfig sampleHooks false 0)
      (.head (beginStep sampleConfig (sampleState 5) (initialBudget sampleConfig false) PyFloat.inf))
      (replicate 6 ())).bind Phase.tokenBudget? = some (-2) := by decide
  obtain ⟨p, hp, hb⟩ := Option.bind_eq_some_iff.mp hrun
  exact absurd (hall p (reaches_of_run hp) _ hb) (by decide)

end VllmAscend.Core
