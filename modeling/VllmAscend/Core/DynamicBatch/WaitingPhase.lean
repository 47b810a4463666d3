import VllmAscend.Core.DynamicBatch.RunningPhase

/-!
# Requests are neither lost nor duplicated

Every branch of the waiting loop pops the queue it has peeked, but for the one of a request whose grammar is not
ready: that one pops `self.waiting`.
-/

namespace VllmAscend.Core.DynamicBatch

open Machine List Option WaitState

variable {W F : Type}

/-! ## The tests leave the queues alone -/

structure SameQueues (s s' : WaitState W F) : Prop where
  running : s'.running = s.running
  waiting : s'.waiting = s.waiting
  skippedWaiting : s'.skippedWaiting = s.skippedWaiting
  stepSkippedWaiting : s'.stepSkippedWaiting = s.stepSkippedWaiting
  order : ∀ x, (s'.requests x).priority = (s.requests x).priority ∧
    (s'.requests x).arrivalTime = (s.requests x).arrivalTime

theorem SameQueues.refl (s : WaitState W F) : SameQueues s s := ⟨rfl, rfl, rfl, rfl, fun _ => ⟨rfl, rfl⟩⟩

theorem SameQueues.trans {s s' s'' : WaitState W F} (h : SameQueues s s') (h' : SameQueues s' s'') :
    SameQueues s s'' :=
  ⟨h'.running.trans h.running, h'.waiting.trans h.waiting, h'.skippedWaiting.trans h.skippedWaiting,
    h'.stepSkippedWaiting.trans h.stepSkippedWaiting,
    fun x => ⟨(h'.order x).1.trans (h.order x).1, (h'.order x).2.trans (h.order x).2⟩⟩

theorem SameQueues.setWorld (s : WaitState W F) (world : W) : SameQueues s (s.setWorld world) :=
  ⟨rfl, rfl, rfl, rfl, fun _ => ⟨rfl, rfl⟩⟩

theorem SameQueues.setRequest (s : WaitState W F) (r : ReqId) (status : RequestStatus) (n : Int) :
    SameQueues s (s.setRequest r status n) := by
  refine ⟨rfl, rfl, rfl, rfl, ?_⟩
  intro x
  simp only [WaitState.setRequest, Function.update_apply]
  split
  · rename_i hx
    rw [hx]
    exact ⟨rfl, rfl⟩
  · exact ⟨rfl, rfl⟩

theorem SameQueues.queue {s s' : WaitState W F} (h : SameQueues s s') (q : QueueName) : s'.queue q = s.queue q := by
  cases q with
  | waiting => exact h.waiting
  | skippedWaiting => exact h.skippedWaiting

/-- The result of a test: whatever it decides, the queues are as in `s`, and it is not the skip of
a request without grammar. -/
def Plain {α : Type} (s : WaitState W F) (state : α → WaitState W F) : Except (Exit W F) α → Prop
  | .ok a => SameQueues s (state a)
  | .error (.skip s') => SameQueues s s'
  | .error (.leave s') => SameQueues s s'
  | .error (.skipGrammar _) => False
  | .error (.raised _) => True

theorem Plain.bind {α β : Type} {s : WaitState W F} {f : α → WaitState W F} {g : β → WaitState W F}
    {x : Except (Exit W F) α} {k : α → Except (Exit W F) β} (hx : Plain s f x)
    (hk : ∀ a, Plain (f a) g (k a)) : Plain s g (x >>= k) := by
  cases x with
  | error e => cases e <;> exact hx
  | ok a =>
    have hka := hk a
    change Plain s g (k a)
    cases hb : k a with
    | ok b =>
      rw [hb] at hka
      exact .trans hx hka
    | error e =>
      rw [hb] at hka
      cases e with
      | skip s' | leave s' => exact .trans hx hka
      | skipGrammar s' => exact hka
      | raised e => trivial

section Tests

variable (c : SchedulerConfig) (wc : WaitConfig) (h : Hooks W F) (wh : WaitHooks W F)
  (s : WaitState W F) (r : ReqId)

theorem askGrammar_same : SameQueues s (askGrammar wh s r) := by
  unfold askGrammar
  split
  · exact .setWorld s _
  · exact .refl s

theorem checkGrammar_plain (hg : awaitsGrammar wc wh s r = false) : Plain s id (checkGrammar wc wh s r) := by
  unfold checkGrammar
  rw [hg]
  split
  · exact (askGrammar_same wh s r).trans (.setRequest _ r _ _)
  · exact .refl s

theorem checkBlocked_plain : Plain s id (checkBlocked wh s r) := by
  simp only [checkBlocked]
  split
  · have hsame := (SameQueues.setRequest s r (wh.tryPromote s.world (s.requests r)).1.2.1
      (wh.tryPromote s.world (s.requests r)).1.2.2).trans
      (.setWorld _ (wh.tryPromote s.world (s.requests r)).2)
    split <;> exact hsame
  · exact .refl s

theorem checkLora_plain : Plain s id (checkLora wc s r) := by
  unfold checkLora
  split
  · split <;> exact .refl s
  · exact .refl s

theorem lookupCached_plain : Plain s Prod.fst (lookupCached wh s r) := by
  simp only [lookupCached]
  split
  · split
    · exact .setWorld s _
    · split <;> exact .setWorld s _
  · exact .refl s

theorem scheduleEncoderWaiting_plain (numComputed n : Int) :
    Plain s Prod.fst (scheduleEncoderWaiting h s r numComputed n) := by
  simp only [scheduleEncoderWaiting]
  split
  · split
    · trivial
    · split <;> exact .setWorld s _
  · exact .refl s

theorem countTokens_plain (cached : CachedTokens) : Plain s Prod.fst (countTokens c wc h s r cached) := by
  simp only [countTokens]
  split
  · split
    · exact .refl s
    · trivial
  · split
    · exact .refl s
    · split
      · exact scheduleEncoderWaiting_plain h s r _ _
      · trivial

theorem allocateWaiting_plain (cached : CachedTokens) (n : Int) (enc : EncoderPlan) :
    Plain s Prod.fst (allocateWaiting c wc h wh s r cached n enc) := by
  simp only [allocateWaiting]
  split
  · exact .setWorld s _
  · split
    · exact .setWorld s _
    · exact (SameQueues.setWorld s _).trans (SameQueues.setWorld _ _)

theorem considerRequest_plain (hg : awaitsGrammar wc wh s r = false) :
    Plain s Prod.fst (considerRequest c wc h wh s r) := by
  unfold considerRequest
  apply (checkGrammar_plain wc wh s r hg).bind
  intro s
  apply (checkBlocked_plain wh s r).bind
  intro s
  apply (checkLora_plain wc s r).bind
  intro s
  apply (lookupCached_plain wh s r).bind
  rintro ⟨s, cached⟩
  apply (countTokens_plain c wc h s r cached).bind
  rintro ⟨s, n, enc⟩
  exact allocateWaiting_plain c wc h wh s r cached n enc

theorem checkGrammar_of_awaitsGrammar (hg : awaitsGrammar wc wh s r = true) :
    checkGrammar wc wh s r = .error (.skipGrammar (askGrammar wh s r)) := by
  have hstatus : wc.structuredOutputStatus = some (s.requests r).status := by
    simp only [awaitsGrammar, Bool.and_eq_true, decide_eq_true_eq] at hg
    exact hg.1
  unfold checkGrammar
  rw [if_pos hstatus, if_pos hg]

theorem considerRequest_of_awaitsGrammar (hg : awaitsGrammar wc wh s r = true) :
    considerRequest c wc h wh s r = .error (.skipGrammar (askGrammar wh s r)) := by
  unfold considerRequest
  rw [checkGrammar_of_awaitsGrammar wc wh s r hg]
  rfl

end Tests

/-! ## One iteration -/

section

variable (s : WaitState W F) (q : QueueName)

theorem queue_setQueue (l : List ReqId) : (s.setQueue q l).queue q = l := by
  cases q <;> rfl

theorem queue_setQueue_other (l : List ReqId) : (s.setQueue q l).queue q.other = s.queue q.other := by
  cases q <;> rfl

theorem setQueue_rest (l : List ReqId) : (s.setQueue q l).running = s.running ∧
      (s.setQueue q l).stepSkippedWaiting = s.stepSkippedWaiting := by
  cases q <;> exact ⟨rfl, rfl⟩

end

structure Moved (s s' : WaitState W F) (q : QueueName) (r : ReqId) : Prop where
  popped : s'.queue q = (s.queue q).erase r
  other : s'.queue q.other = s.queue q.other
  target : (s'.running = s.running ∧ s'.stepSkippedWaiting = r :: s.stepSkippedWaiting) ∨
    (s'.running = s.running ++ [r] ∧ s'.stepSkippedWaiting = s.stepSkippedWaiting)

section Iteration

variable {c : SchedulerConfig} {wc : WaitConfig} {h : Hooks W F} {wh : WaitHooks W F}
  {s s' : WaitState W F} {q : QueueName} {r : ReqId}

theorem moved_skip (hsame : SameQueues s s') :
    Moved s (prependSkipped (s'.setQueue q ((s.queue q).erase r)) r) q r := by
  obtain ⟨hrun, hstep⟩ := setQueue_rest s' q ((s.queue q).erase r)
  refine ⟨queue_setQueue _ _ _, ?_, .inl ⟨hrun.trans hsame.running, ?_⟩⟩
  · exact (queue_setQueue_other s' q _).trans (hsame.queue q.other)
  · simp only [prependSkipped, prependRequest, hstep, hsame.stepSkippedWaiting]

theorem moved_load (hsame : SameQueues s s') (status : RequestStatus) (n : Int) :
    Moved s (prependSkipped ((s'.setQueue q ((s.queue q).erase r)).setRequest r status n) r) q r := by
  have hmoved := moved_skip (q := q) (r := r) hsame
  exact ⟨by cases q <;> exact hmoved.popped, by cases q <;> exact hmoved.other, by cases q <;> exact hmoved.target⟩

theorem startRunning_queues {a : Admission} (hs : startRunning wc h wh s r a = .ok s') :
    s'.running = s.running ++ [r] ∧ (∀ q, s'.queue q = s.queue q) ∧ s'.stepSkippedWaiting = s.stepSkippedWaiting := by
  have hrec : ∀ t : WaitState W F, (startRunning.record wc h wh r a t).running = t.running ∧
      (startRunning.record wc h wh r a t).waiting = t.waiting ∧
      (startRunning.record wc h wh r a t).skippedWaiting = t.skippedWaiting ∧
      (startRunning.record wc h wh r a t).stepSkippedWaiting = t.stepSkippedWaiting := by
    intro t
    simp only [startRunning.record, recordEncoder, encoderAllocateAll, setRequest]
    split <;> simp
  simp only [startRunning] at hs
  split at hs <;> cases hs
  all_goals
    obtain ⟨hrun, hw, hsk, hst⟩ := hrec _
    exact ⟨hrun, fun q => by cases q; exacts [hw, hsk], hst⟩

theorem moved_run {t : WaitState W F} (hsame : SameQueues s s')
    (hrun : t.running = (s'.setQueue q ((s.queue q).erase r)).running ++ [r])
    (hq : ∀ q', t.queue q' = (s'.setQueue q ((s.queue q).erase r)).queue q')
    (hst : t.stepSkippedWaiting = (s'.setQueue q ((s.queue q).erase r)).stepSkippedWaiting) : Moved s t q r := by
  obtain ⟨hrun', hstep⟩ := setQueue_rest s' q ((s.queue q).erase r)
  refine ⟨(hq q).trans (queue_setQueue _ _ _), ?_, .inr ⟨?_, ?_⟩⟩
  · exact (hq _).trans ((queue_setQueue_other s' q _).trans (hsame.queue q.other))
  · rw [hrun, hrun', hsame.running]
  · rw [hst, hstep, hsame.stepSkippedWaiting]

def held (s : WaitState W F) : List ReqId := s.running ++ s.waiting ++ s.skippedWaiting ++ s.stepSkippedWaiting

theorem SameQueues.held_eq (hs : SameQueues s s') : held s' = held s := by
  simp only [held, hs.running, hs.waiting, hs.skippedWaiting, hs.stepSkippedWaiting]

theorem Moved.held_perm (hm : Moved s s' q r) (hr : r ∈ s.queue q) : (held s').Perm (held s) := by
  have hcount : ∀ x, (s'.queue q).count x + [r].count x = (s.queue q).count x := by
    intro x
    rw [hm.popped]
    rw [(perm_cons_erase hr).count_eq x]
    simp [count_cons]
  have hother : ∀ x, (s'.queue q.other).count x = (s.queue q.other).count x := by
    intro x
    rw [hm.other]
  apply perm_iff_count.mpr
  intro x
  have h₁ := hcount x
  have h₂ := hother x
  have htarget : s'.running.count x + s'.stepSkippedWaiting.count x =
      s.running.count x + s.stepSkippedWaiting.count x + [r].count x := by
    rcases hm.target with ⟨hrun, hst⟩ | ⟨hrun, hst⟩
    · rw [hrun, hst, ← singleton_append, count_append]
      omega
    · rw [hrun, hst, count_append]
      omega
  simp only [held, count_append]
  cases q <;> simp only [queue, QueueName.other] at h₁ h₂ <;> omega

variable [PyFloat F]

theorem peekRequest_congr {requests requests' : ReqId → Request F}
    (ho : ∀ x, (requests' x).priority = (requests x).priority ∧
      (requests' x).arrivalTime = (requests x).arrivalTime) (policy : SchedulingPolicy)
    (l : List ReqId) : peekRequest requests' policy l = peekRequest requests policy l := by
  have hlt : requestLt requests' = requestLt requests := by
    funext a b
    simp only [requestLt, (ho a).1, (ho b).1, (ho a).2, (ho b).2]
  cases l with
  | nil => rfl
  | cons x rest => cases policy <;> simp only [peekRequest, hlt]

theorem peeked_mem (hp : peeked c wc wh s = some (q, r)) :
    peekRequest s.requests c.policy (s.queue q) = some r ∧ r ∈ s.queue q := by
  obtain ⟨_, hp⟩ := ite_none_left_eq_some.mp hp
  obtain ⟨q', -, hq⟩ := bind_eq_some_iff.mp hp
  obtain ⟨r', hr, he⟩ := map_eq_some_iff.mp hq
  cases he
  exact ⟨hr, peekRequest_mem _ hr⟩

theorem popQueue_of_same (hpeek : peekRequest s.requests c.policy (s.queue q) = some r)
    (hsame : SameQueues s s') : popQueue c s' q = some (s'.setQueue q ((s.queue q).erase r)) := by
  have hpop : peekRequest s'.requests c.policy (s'.queue q) = some r := by
    rw [peekRequest_congr hsame.order, hsame.queue q, hpeek]
  unfold popQueue popRequest
  rw [hpop, hsame.queue q]
  rfl

theorem iterate_plain (hp : peeked c wc wh s = some (q, r)) (hg : awaitsGrammar wc wh s r = false) :
    (∃ e, iterate c wc h wh s = .raised e) ∨ (∃ s', iterate c wc h wh s = .finished s' ∧ SameQueues s s') ∨
      ∃ s', iterate c wc h wh s = .loop s' ∧ Moved s s' q r := by
  have hpeek := (peeked_mem hp).1
  have hplain := considerRequest_plain c wc h wh s r hg
  unfold iterate
  rw [hp]
  simp only
  cases hc : considerRequest c wc h wh s r with
  | error e =>
    rw [hc] at hplain
    cases e with
    | raised e => exact .inl ⟨e, rfl⟩
    | leave s' => exact .inr (.inl ⟨s', rfl, hplain⟩)
    | skipGrammar s' => exact hplain.elim
    | skip s' =>
      simp only [finishIteration, popQueue_of_same hpeek hplain]
      exact .inr (.inr ⟨_, rfl, moved_skip hplain⟩)
  | ok res =>
    rw [hc] at hplain
    simp only [finishIteration, popQueue_of_same hpeek hplain]
    split
    · exact .inr (.inr ⟨_, rfl, moved_load hplain _ _⟩)
    · split
      · exact .inl ⟨_, rfl⟩
      · rename_i t ht
        obtain ⟨hrun, hq, hst⟩ := startRunning_queues ht
        exact .inr (.inr ⟨t, rfl, moved_run hplain hrun hq hst⟩)

theorem iterate_grammar (hp : peeked c wc wh s = some (q, r)) (hg : awaitsGrammar wc wh s r = true) :
    iterate c wc h wh s =
      match popQueue c (askGrammar wh s r) .waiting with
      | none => .raised .indexError
      | some s => .loop (prependSkipped s r) := by
  unfold iterate
  rw [hp]
  simp only
  rw [considerRequest_of_awaitsGrammar c wc h wh s r hg]
  rfl

/-! ## Iterations that skip -/

def Skips (c : SchedulerConfig) (wc : WaitConfig) (h : Hooks W F) (wh : WaitHooks W F)
    (s : WaitState W F) (q : QueueName) (r : ReqId) : Prop :=
  peeked c wc wh s = some (q, r) ∧ ∃ s', considerRequest c wc h wh s r = .error (.skip s') ∨
    considerRequest c wc h wh s r = .error (.skipGrammar s')

/-- If the iteration at `s` skips a request, exactly this request leaves the queue it was peeked
from. -/
def SkipsExactly (c : SchedulerConfig) (wc : WaitConfig) (h : Hooks W F) (wh : WaitHooks W F)
    (s : WaitState W F) : Prop :=
  ∀ q r, Skips c wc h wh s q r → ∃ s', iterate c wc h wh s = .loop s' ∧
    s'.queue q = (s.queue q).erase r ∧ s'.queue q.other = s.queue q.other ∧
    s'.stepSkippedWaiting = r :: s.stepSkippedWaiting ∧ s'.running = s.running

def GrammarFromWaiting (c : SchedulerConfig) (wc : WaitConfig) (wh : WaitHooks W F)
    (s : WaitState W F) : Prop :=
  ∀ q r, peeked c wc wh s = some (q, r) → awaitsGrammar wc wh s r = true → q = .waiting

theorem iterate_grammar_waiting (hp : peeked c wc wh s = some (.waiting, r))
    (hg : awaitsGrammar wc wh s r = true) : iterate c wc h wh s =
      .loop (prependSkipped ((askGrammar wh s r).setQueue .waiting (s.waiting.erase r)) r) := by
  have hpop := popQueue_of_same (peeked_mem hp).1 (askGrammar_same wh s r)
  rw [iterate_grammar hp hg, hpop]
  rfl

theorem skipsExactly_iff : SkipsExactly c wc h wh s ↔ GrammarFromWaiting c wc wh s := by
  constructor
  · intro hexact q r hp hg
    have hskips : Skips c wc h wh s q r := ⟨hp, _, .inr (considerRequest_of_awaitsGrammar c wc h wh s r hg)⟩
    obtain ⟨s', hit, hq, -, -, -⟩ := hexact q r hskips
    cases q with
    | waiting => rfl
    | skippedWaiting =>
      -- `skipped_waiting` is not touched, but should be one shorter.
      have hmem := (peeked_mem hp).2
      rw [iterate_grammar hp hg] at hit
      split at hit
      · cases hit
      · rename_i t ht
        cases hit
        obtain ⟨⟨w, rest⟩, -, rfl⟩ := map_eq_some_iff.mp ht
        have hlen := congrArg length hq
        have hsame := congrArg length (askGrammar_same wh s r).skippedWaiting
        rw [length_erase_of_mem hmem] at hlen
        have hpos := length_pos_of_mem hmem
        simp only [prependSkipped, setQueue, queue] at hlen hpos
        omega
  · rintro hfrom q r ⟨hp, s', hcase⟩
    have hpeek := (peeked_mem hp).1
    cases hg : awaitsGrammar wc wh s r with
    | true =>
      cases hfrom q r hp hg
      have hm := moved_skip (q := .waiting) (r := r) (askGrammar_same wh s r)
      have hsame := askGrammar_same wh s r
      exact ⟨_, iterate_grammar_waiting hp hg, hm.popped, hm.other,
        congrArg (r :: ·) hsame.stepSkippedWaiting, hsame.running⟩
    | false =>
      have hplain := considerRequest_plain c wc h wh s r hg
      rcases hcase with hc | hc
      · rw [hc] at hplain
        have hm := moved_skip (q := q) (r := r) hplain
        refine ⟨_, ?_, hm.popped, hm.other, ?_, ?_⟩
        · unfold iterate
          rw [hp]
          simp only [hc, finishIteration, popQueue_of_same hpeek hplain]
        · obtain ⟨-, hstep⟩ := setQueue_rest s' q ((s.queue q).erase r)
          simp only [prependSkipped, prependRequest, hstep, hplain.stepSkippedWaiting]
        · exact (setQueue_rest s' q _).1.trans hplain.running
      · rw [hc] at hplain
        exact hplain.elim

/-! ## Conservation -/

def PhaseHolds (l : List ReqId) : WaitPhase W F → Prop
  | .loop s => (held s).Perm l
  | .finished s => (held s).Perm l
  | .raised _ => True

theorem iterate_holds {l : List ReqId} (hl : (held s).Perm l) (hg : GrammarFromWaiting c wc wh s) :
    PhaseHolds l (iterate c wc h wh s) := by
  cases hp : peeked c wc wh s with
  | none =>
    unfold iterate
    rw [hp]
    exact hl
  | some qr =>
    obtain ⟨q, r⟩ := qr
    have hmem := (peeked_mem hp).2
    cases ha : awaitsGrammar wc wh s r with
    | false =>
      rcases iterate_plain (h := h) hp ha with ⟨e, he⟩ | ⟨s', he, hsame⟩ | ⟨s', he, hm⟩
      · rw [he]
        trivial
      · rw [he]
        simp only [PhaseHolds, hsame.held_eq]
        exact hl
      · rw [he]
        exact (hm.held_perm hmem).trans hl
    | true =>
      cases hg q r hp ha
      rw [iterate_grammar_waiting hp ha]
      exact ((moved_skip (askGrammar_same wh s r)).held_perm hmem).trans hl

theorem iterate_shorter (hit : iterate c wc h wh s = .loop s') :
    s'.waiting.length + s'.skippedWaiting.length < s.waiting.length + s.skippedWaiting.length := by
  cases hp : peeked c wc wh s with
  | none =>
    unfold iterate at hit
    rw [hp] at hit
    cases hit
  | some qr =>
    obtain ⟨q, r⟩ := qr
    have hmem := (peeked_mem hp).2
    have hpos := length_pos_of_mem hmem
    cases ha : awaitsGrammar wc wh s r with
    | false =>
      obtain ⟨e, he⟩ | ⟨t, he, -⟩ | ⟨t, he, hm⟩ := iterate_plain (h := h) hp ha
      all_goals
        rw [he] at hit
        cases hit
      · have h₁ := congrArg length hm.popped
        have h₂ := congrArg length hm.other
        rw [length_erase_of_mem hmem] at h₁
        cases q <;> simp only [queue, QueueName.other] at h₁ h₂ hpos <;> omega
    | true =>
      rw [iterate_grammar hp ha] at hit
      split at hit
      · cases hit
      · rename_i t ht
        cases hit
        obtain ⟨⟨w, rest⟩, hpop, rfl⟩ := map_eq_some_iff.mp ht
        obtain ⟨w', hw, he⟩ := map_eq_some_iff.mp hpop
        cases he
        have hsame := askGrammar_same wh s r
        have hw' : w ∈ s.waiting := hsame.waiting ▸ peekRequest_mem _ hw
        have hlen := length_erase_of_mem hw'
        have hpos' := length_pos_of_mem hw'
        simp only [prependSkipped, setQueue, queue, hsame.waiting, hsame.skippedWaiting]
        omega

end Iteration

/-! ## The running phase -/

section Schedule

variable [PyFloat F] {c : SchedulerConfig} {wc : WaitConfig} {h : Hooks W F} {wh : WaitHooks W F}
  {refiner : BudgetRefiner} {now : F} {st : SchedulerState W F}

def RunHolds (st : SchedulerState W F) (s : RunState W F) : Prop :=
  (s.running ++ s.waiting).Perm (st.running ++ st.waiting) ∧
    s.skippedWaiting = st.skippedWaiting

def PhaseRunHolds (st : SchedulerState W F) : Phase W F → Prop
  | .head s => RunHolds st s
  | .alloc _ _ _ s => RunHolds st s
  | .finished s => RunHolds st s
  | .raised _ => True

theorem step_runHolds {budget : Int} {p q : Phase W F} (hk : PhaseKept budget p) (hp : PhaseRunHolds st p)
    (hq : step c h now p () = some q) : PhaseRunHolds st q := by
  cases step_steps hk hq with
  | finish s | skip s world | ask hr n enc world => exact hp
  | raise s e => trivial
  | commit enc ha hplan hqueues =>
    simp only [PhaseRunHolds, RunHolds, hplan, hqueues, Plan.commit]
    exact hp
  | @drop s s' r v n selector enc ha hpick hv hplan hqueues =>
    have hs' : RunHolds st s' := by
      simp only [RunHolds, hplan, hqueues, Plan.drop, Plan.removeRunning_eq_erase hk.1.nodup]
      exact ⟨(perm_middle.trans ((perm_cons_erase hv).symm.append_right _)).trans hp.1, hp.2⟩
    split <;> exact hs'

theorem runningPhase_holds (hd : st.running.Nodup) {e : RunState W F}
    (he : runningPhase c h refiner now st = some (.finished e)) : RunHolds st e := by
  have hreach := (reaches_of_runToEnd he).1
  have hstart : RunHolds st (beginRunning c refiner st) := ⟨(reorder_perm st.requests st.running).append_right _, rfl⟩
  have hinv := hreach.inv (fun p => PhaseKept _ p ∧ PhaseRunHolds st p)
    ⟨beginRunning_kept c refiner hd, hstart⟩ fun _ _ _ ht _ hs => ⟨step_kept ht.1 hs, step_runHolds ht.1 ht.2 hs⟩
  exact hinv.2

/-! ## `schedule()` -/

def Visited (c : SchedulerConfig) (wc : WaitConfig) (h : Hooks W F) (wh : WaitHooks W F)
    (refiner : BudgetRefiner) (now : F) (st : SchedulerState W F) (s : WaitState W F) : Prop :=
  ∃ e, runningPhase c h refiner now st = some (.finished e) ∧ lorasFit wc e = true ∧
    e.preemptedReqs = [] ∧
    Reaches (waitStep c wc h wh) AnyAction (.loop (beginWaiting wc e)) (.loop s)

theorem waitingPhase_holds {e : RunState W F} {s : WaitState W F}
    (hgood : ∀ s, Reaches (waitStep c wc h wh) AnyAction (.loop (beginWaiting wc e)) (.loop s) →
      GrammarFromWaiting c wc wh s) (hs : waitingPhase c wc h wh e = some (.finished s)) :
    (held s).Perm (e.running ++ e.waiting ++ e.skippedWaiting) := by
  have hreach := (reaches_of_runToEnd hs).1
  have hinv := hreach.inv
    (fun p => Reaches (waitStep c wc h wh) AnyAction (.loop (beginWaiting wc e)) p ∧
      PhaseHolds (e.running ++ e.waiting ++ e.skippedWaiting) p)
    ⟨.refl, by simp [PhaseHolds, held, beginWaiting]⟩ fun t _ u ht hok hstep => ?_
  · exact hinv.2
  · refine ⟨ht.1.tail hok hstep, ?_⟩
    cases t with
    | loop s =>
      cases hstep
      exact iterate_holds ht.2 (hgood s ht.1)
    | finished s | raised e => cases hstep

omit [PyFloat F] in
theorem requeueSkipped_perm (s : WaitState W F) : ((requeueSkipped s).running ++ (requeueSkipped s).waiting ++
      (requeueSkipped s).skippedWaiting).Perm (held s) := by
  simp only [requeueSkipped, held]
  rw [append_assoc (s.running ++ s.waiting)]
  exact ((prependRequests_perm _ _).trans perm_append_comm).append_left _

omit [PyFloat F] in
theorem finishSchedule_eq {s t : WaitState W F} (hf : finishSchedule c wc s = .ok t) : t = s := by
  unfold finishSchedule at hf
  split at hf
  · cases hf
    rfl
  · cases hf

theorem schedule_conserves (hd : st.running.Nodup)
    (hgood : ∀ s, Visited c wc h wh refiner now st s → GrammarFromWaiting c wc wh s)
    {s : WaitState W F} (hs : schedule c wc h wh refiner now st = some (.ok s)) :
    (s.running ++ s.waiting ++ s.skippedWaiting).Perm (st.running ++ st.waiting ++ st.skippedWaiting) := by
  obtain ⟨p, hp, hs⟩ := bind_eq_some_iff.mp hs
  cases p with
  | finished e =>
    obtain ⟨hperm, hskip⟩ := runningPhase_holds hd hp
    have hrun : (e.running ++ e.waiting ++ e.skippedWaiting).Perm
        (st.running ++ st.waiting ++ st.skippedWaiting) := by
      rw [hskip]
      exact hperm.append_right _
    simp only at hs
    split at hs
    · cases hs
    · rename_i hl
      split at hs
      · have hf := finishSchedule_eq (some.inj hs)
        rw [hf]
        exact hrun
      · rename_i hpre
        obtain ⟨q, hq, he⟩ := map_eq_some_iff.mp hs
        cases q with
        | finished t =>
          have hf := finishSchedule_eq he
          have hvis : ∀ s, Reaches (waitStep c wc h wh) AnyAction (.loop (beginWaiting wc e))
              (.loop s) → GrammarFromWaiting c wc wh s := fun s hr =>
            hgood s ⟨e, hp, by simpa using hl, by simpa using hpre, hr⟩
          rw [hf]
          exact ((requeueSkipped_perm t).trans (waitingPhase_holds hvis hq)).trans hrun
        | raised e | loop t => cases he
  | raised e | head s | alloc r n enc s => cases hs

def waitLeft : WaitPhase W F → Nat
  | .loop s => s.waiting.length + s.skippedWaiting.length + 1
  | .finished _ => 0
  | .raised _ => 0

theorem waitStep_waitLeft {p q : WaitPhase W F} (hq : waitStep c wc h wh p () = some q) :
    waitLeft q < waitLeft p := by
  cases p with
  | loop s =>
    cases hq
    cases hit : iterate c wc h wh s with
    | loop s' =>
      have := iterate_shorter hit
      simp only [waitLeft]
      omega
    | finished s' | raised e => simp [waitLeft]
  | finished s | raised e => cases hq

theorem waitingPhase_ends (e : RunState W F) : ∃ q, waitingPhase c wc h wh e = some q :=
  runToEnd_isSome (fun _ => True) waitLeft (fun _ _ _ hq => ⟨trivial, waitStep_waitLeft hq⟩)
    trivial le_rfl

theorem schedule_ends (hd : st.running.Nodup) : ∃ res, schedule c wc h wh refiner now st = some res := by
  obtain ⟨p, hp⟩ : ∃ p, runningPhase c h refiner now st = some p := runningPhase_ends hd
  have hend := (reaches_of_runToEnd hp).2
  unfold schedule
  rw [hp]
  cases p with
  | finished e =>
    simp only [bind_some]
    split
    · exact ⟨_, rfl⟩
    · split
      · exact ⟨_, rfl⟩
      · obtain ⟨q, hq⟩ : ∃ q, waitingPhase c wc h wh e = some q := waitingPhase_ends e
        exact ⟨_, by rw [hq]; rfl⟩
  | raised e => exact ⟨_, rfl⟩
  | head s | alloc r n enc s => cases hend

theorem schedule_conserves_iff (c : SchedulerConfig) (wc : WaitConfig) (h : Hooks W F)
    (wh : WaitHooks W F) (refiner : BudgetRefiner) (now : F) (st : SchedulerState W F)
    (hd : (st.running ++ st.waiting ++ st.skippedWaiting).Nodup) :
    ((∀ s, schedule c wc h wh refiner now st = some (.ok s) → (s.running ++ s.waiting ++ s.skippedWaiting).Perm
        (st.running ++ st.waiting ++ st.skippedWaiting)) ∧ ∀ s, Visited c wc h wh refiner now st s → SkipsExactly c wc
        h wh s) ↔ ∀ s, Visited c wc h wh refiner now st s → GrammarFromWaiting c wc wh s := by
  have hrun : st.running.Nodup := (nodup_append.mp (nodup_append.mp hd).1).1
  constructor
  · rintro ⟨-, hexact⟩ s hs
    exact skipsExactly_iff.mp (hexact s hs)
  · intro hgood
    refine ⟨fun s hs => schedule_conserves hrun hgood hs, ?_⟩
    intro s hs
    exact skipsExactly_iff.mpr (hgood s hs)

end Schedule

/-! ## A lost and a duplicated request -/

def sampleWaitConfig : WaitConfig where
  maxNumRunningReqs := 4
  maxLoras := none
  enableChunkedPrefill := true
  isEncoderDecoder := false
  structuredOutputStatus := some .waitingForStructuredOutputGrammar

/-- `skipped_waiting` is preferred, as under the FCFS policy. The world lists the next answers, first
those about grammars. -/
def sampleWaitHooks : WaitHooks (List Bool) Rat where
  prefersSkipped _ _ _ := true
  hasGrammar w _ := (w.headD true, w.tail)
  isBlockedWaitingStatus status := status = .waitingForRemoteKvs
  tryPromote w request := ((false, request.status, request.numComputedTokens), w)
  getComputedBlocks w _ := (([], 0), w)
  getBlocks _ _ := []
  connector := none

def grammarInSkipped : SchedulerState (List Bool) Rat where
  running := []
  waiting := [2]
  skippedWaiting := [1]
  requests := fun id =>
    { sampleRequest id with
      numComputedTokens := 0
      status := if id = 1 then .waitingForStructuredOutputGrammar else .waiting
      hasStructuredOutputRequest := true }
  selector := sampleSelector
  world := [false]

theorem schedule_conserves_iff_sample :
    let st := grammarInSkipped
    (st.running ++ st.waiting ++ st.skippedWaiting).Nodup ∧
    (((∀ s, schedule sampleConfig sampleWaitConfig sampleHooks sampleWaitHooks disabledRefiner 0 st =
          some (.ok s) → (s.running ++ s.waiting ++ s.skippedWaiting).Perm
            (st.running ++ st.waiting ++ st.skippedWaiting)) ∧
        ∀ s, Visited sampleConfig sampleWaitConfig sampleHooks sampleWaitHooks disabledRefiner 0 st s →
          SkipsExactly sampleConfig sampleWaitConfig sampleHooks sampleWaitHooks s) ↔
      ∀ s, Visited sampleConfig sampleWaitConfig sampleHooks sampleWaitHooks disabledRefiner 0 st s →
        GrammarFromWaiting sampleConfig sampleWaitConfig sampleWaitHooks s) :=
  ⟨by decide, schedule_conserves_iff sampleConfig sampleWaitConfig sampleHooks sampleWaitHooks
    disabledRefiner 0 grammarInSkipped (by decide)⟩

theorem schedule_ends_sample : ∃ res, schedule sampleConfig sampleWaitConfig sampleHooks sampleWaitHooks
    disabledRefiner 0 grammarInSkipped = some res := schedule_ends (by decide)

/-- The first iteration peeks request 1 from `skipped_waiting` and pops request 2 off `waiting`. By
the second one the grammar is there and request 1 is scheduled. Request 2 is gone, and request 1
is both running and skipped. -/
theorem schedule_loses_request :
    ∃ s, schedule sampleConfig sampleWaitConfig sampleHooks sampleWaitHooks disabledRefiner 0
        grammarInSkipped = some (.ok s) ∧ s.running = [1] ∧ s.waiting = [] ∧ s.skippedWaiting = [1] ∧
      ¬ (s.running ++ s.waiting ++ s.skippedWaiting).Perm
        (grammarInSkipped.running ++ grammarInSkipped.waiting ++ grammarInSkipped.skippedWaiting) := by
  refine ⟨_, rfl, rfl, rfl, rfl, ?_⟩
  intro hperm
  have hmem : (2 : ReqId) ∈ ([1] ++ [] ++ [1] : List ReqId) := hperm.mem_iff.mpr (by decide)
  exact absurd hmem (by decide)

end VllmAscend.Core.DynamicBatch
