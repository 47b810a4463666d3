import VllmAscend.KvOffload.Mapped.Queues

/-!
# Every accepted transfer is reported once

A ledger follows a run of the handler: the job ids submitted and accepted in each direction, what
`get_finished` has returned, and what a shutdown has drained.
-/

namespace VllmAscend.KvOffload.Mapped

open Exec Handler List Dict Transfer Call

/-! ## The ledger -/

def Call.submission : Call → Option (Direction × Int)
  | .submitStore jobId _ _ => some (.store, jobId)
  | .submitLoad jobId _ _ => some (.load, jobId)
  | .transferAsync jobId src dst =>
    match src.kind, dst.kind with
    | .gpu, .cpu => some (.store, jobId)
    | .cpu, .gpu => some (.load, jobId)
    | _, _ => none
  | _ => none

def Call.jobs (call : Call) (dir : Direction) : List Int :=
  match call.submission with
  | some (dir', jobId) => if dir' = dir then [jobId] else []
  | none => []

inductive Response
  | accepted (result : Bool)
  | finished (results : List TransferResult)
  | nothing
  deriving DecidableEq

def respond : Call → HandlerM Response
  | .submitStore jobId src dst => do
    let result ← submitStore jobId src dst
    return .accepted result
  | .submitLoad jobId src dst => do
    let result ← submitLoad jobId src dst
    return .accepted result
  | .transferAsync jobId src dst => do
    let result ← transferAsync jobId src dst
    return .accepted result
  | .getFinished => do
    let results ← getFinished
    return .finished results
  | .wait jobIds => do
    wait jobIds
    return .nothing
  | .shutdown => do
    shutdown
    return .nothing

structure Ledger where
  handler : Handler
  submitted : Direction → List Int := fun _ => []
  accepted : Direction → List Int := fun _ => []
  finished : List TransferResult := []
  drained : Direction → List Int := fun _ => []

namespace Ledger

def queued (l : Ledger) (dir : Direction) : List Int := (l.handler.state dir).transfers.map (·.jobId)

def reported (l : Ledger) (dir : Direction) : List TransferResult :=
  l.finished.filter fun result => decide (result.jobId ∈ l.submitted dir)

end Ledger

def acceptedJobs (response : Except MappedError Response) (jobs : List Int) : List Int :=
  match response with
  | .ok (.accepted true) => jobs
  | _ => []

def finishedResults (response : Except MappedError Response) : List TransferResult :=
  match response with
  | .ok (.finished results) => results
  | _ => []

def drainedJobs (call : Call) (before after : List Int) : List Int :=
  match call with
  | .shutdown => before.take (before.length - after.length)
  | _ => []

def Action.prepare (a : Action) (h : Handler) : Handler := { h with outcomes := a.outcomes, schedule := a.schedule }

def ledgerStep (l : Ledger) (a : Action) : Option Ledger :=
  let run := respond a.call (a.prepare l.handler)
  some {
    handler := run.2
    submitted := fun dir => l.submitted dir ++ a.call.jobs dir
    accepted := fun dir => l.accepted dir ++ acceptedJobs run.1 (a.call.jobs dir)
    finished := l.finished ++ finishedResults run.1
    drained := fun dir => l.drained dir ++
      drainedJobs a.call (l.queued dir) ((run.2.state dir).transfers.map (·.jobId)) }

/-- Job ids are submitted once, and no device call of `get_finished` fails. -/
structure Regular (l : Ledger) (a : Action) : Prop where
  distinct : ∀ dir, ∀ jobId ∈ a.call.jobs dir, ∀ dir', jobId ∉ l.submitted dir'
  polling : a.call = .getFinished → ∀ outcome ∈ a.outcomes, outcome = .succeeds

theorem respond_state (call : Call) (h : Handler) : (respond call h).2 = (perform call h).2 := by
  have hbind : ∀ {α β : Type} (m : HandlerM α) (f : α → β), ((m >>= fun a => pure (f a)) h).2 = (m h).2 := by
    intro α β m f
    simp only [bind, pure]
    rcases m h with ⟨_ | _, _⟩ <;> rfl
  cases call <;> simp only [respond, perform, hbind]

variable {l : Ledger} {h₀ : Handler} {dir : Direction}

theorem reaches_of_ledger {ok : Ledger → Action → Prop}
    (hr : Machine.Reaches ledgerStep ok { handler := h₀ } l) : Machine.Reaches step Machine.AnyAction h₀ l.handler := by
  induction hr with
  | refl => exact .refl
  | @tail l l' a _ _ hs ih =>
    cases hs
    refine ih.tail (a := a) trivial ?_
    unfold step
    rw [← respond_state]
    rfl

/-! ## What the calls do -/

theorem respond_submits {call : Call} {jobId : Int} (hcall : call.submission = some (dir, jobId))
    {v : View} : SubmitsJob dir jobId (.accepted true) v (respond call) := by
  have hresponse : ∀ {dir : Direction} {m : HandlerM Bool}, SubmitsJob dir jobId true v m →
      SubmitsJob dir jobId (.accepted true) v (m >>= fun result => pure (Response.accepted result)) :=
    fun hm => hm.bind fun _ => .pure _ fun _ hres => ⟨congrArg _ hres.1, hres.2⟩
  cases call with
  | submitStore job src dst =>
    cases hcall
    exact hresponse (submitStore_view jobId src dst)
  | submitLoad job src dst =>
    cases hcall
    exact hresponse (submitLoad_view jobId src dst)
  | transferAsync job src dst =>
    simp only [submission] at hcall
    split at hcall
    · rename_i hsrc hdst
      cases hcall
      simpa only [respond, transferAsync, hsrc, hdst] using hresponse (submitStore_view jobId src dst)
    · rename_i hsrc hdst
      cases hcall
      simpa only [respond, transferAsync, hsrc, hdst] using hresponse (submitLoad_view jobId src dst)
    · cases hcall
  | getFinished | wait jobIds | shutdown => cases hcall

theorem respond_poisoned {a : Action} {jobId : Int} (hcall : a.call.submission = some (dir, jobId))
    (hpoisoned : (l.handler.state dir).poisoned = true) : (∃ e, (respond a.call (a.prepare l.handler)).1 = .error e) ∧
      ∀ dir', ((respond a.call (a.prepare l.handler)).2.state dir').transfers = (l.handler.state dir').transfers := by
  have hspec := respond_submits (v := l.handler.view) hcall (a.prepare l.handler) rfl
  have hnot : (l.handler.view.queue dir).poisoned ≠ false := by
    rw [show (l.handler.view.queue dir).poisoned = true from hpoisoned]
    decide
  split at hspec
  · exact absurd hspec.2.2.1 hnot
  · rename_i e h' hrun
    rw [hrun]
    refine ⟨⟨e, rfl⟩, fun dir' => ?_⟩
    rcases hspec with hsame | ⟨-, hpoisoned', -⟩
    · exact congrArg (fun v => (v.queue dir').transfers) hsame
    · exact absurd hpoisoned' hnot

/-! ## The queues -/

def Queue.jobs (q : Queue) : List Int := q.transfers.map (·.jobId)

/-- Only the last transfer may need a stream synchronization, and only in a poisoned direction. The index holds the
others. -/
structure QueueOk (q : Queue) : Prop where
  tail : ∀ t ∈ q.transfers.dropLast, t.needsStreamSync = false
  poisoned : ∀ t ∈ q.transfers, t.needsStreamSync = true → q.poisoned = true
  events : ∀ job event, q.transferEvents.get? job = some event ↔
    ∃ t ∈ q.transfers, t.needsStreamSync = false ∧ t.jobId = job ∧ t.endEvent = event

namespace QueueOk

variable {q q' : Queue} {t : Transfer}

variable (hq : QueueOk q)

include hq

theorem synced (hp : q.poisoned = false) : ∀ t ∈ q.transfers, t.needsStreamSync = false := by
  intro t ht
  cases hsync : t.needsStreamSync with
  | false => rfl
  | true =>
    rw [hq.poisoned t ht hsync] at hp
    cases hp

theorem track (hp : q.poisoned = false) (hsync : t.needsStreamSync = false) (hnew : t.jobId ∉ q.jobs) :
    QueueOk (q.track t) := by
  have hall : ∀ t' ∈ q.transfers ++ [t], t'.needsStreamSync = false := by
    simpa [or_imp, forall_and, hsync] using hq.synced hp
  constructor
  case tail => exact fun t' ht' => hall t' (mem_of_mem_dropLast ht')
  case poisoned =>
    intro t' ht' hsync'
    rw [hall t' ht'] at hsync'
    cases hsync'
  case events =>
    intro job event
    unfold Queue.track
    rw [get?_set]
    by_cases hjob : t.jobId = job
    · subst hjob
      have hold : ∀ t' ∈ q.transfers, t'.jobId ≠ t.jobId := fun t' ht' heq => hnew (heq ▸ mem_map_of_mem ht')
      simp only [if_true, mem_append, mem_singleton, Option.some_inj]
      constructor
      · rintro rfl
        exact ⟨t, .inr rfl, hsync, rfl, rfl⟩
      · rintro ⟨t', ht' | rfl, -, heq, rfl⟩
        · exact absurd heq (hold t' ht')
        · rfl
    · rw [if_neg hjob, hq.events]
      simp only [mem_append, mem_singleton, or_and_right, exists_or, exists_eq_left, hjob, false_and, and_false,
        or_false]

theorem poison (hp : q.poisoned = false) : QueueOk (q.poison t) := by
  constructor
  case tail => simpa [Queue.poison] using hq.synced hp
  case poisoned => exact fun _ _ _ => rfl
  case events =>
    intro job event
    simp only [Queue.poison, hq.events, mem_append, mem_singleton, or_and_right, exists_or, exists_eq_left,
      Bool.true_eq_false, false_and, or_false]

theorem takes {done : List Transfer} (hnodup : q.jobs.Nodup) (h : Takes q done q') : QueueOk q' := by
  have hmem : ∀ t ∈ q'.transfers, t ∈ q.transfers := fun t ht => by
    rw [h.transfers]
    exact mem_append_right _ ht
  have hgone : ∀ t ∈ q'.transfers, t.jobId ∉ done.map (·.jobId) := by
    intro t ht hdone
    unfold Queue.jobs at hnodup
    rw [h.transfers, map_append] at hnodup
    exact (disjoint_of_nodup_append hnodup) hdone (mem_map_of_mem ht)
  constructor
  case tail =>
    intro t ht
    have hne : q'.transfers ≠ [] := ne_nil_of_mem (mem_of_mem_dropLast ht)
    refine hq.tail t ?_
    rw [h.transfers, dropLast_append_of_ne_nil hne]
    exact mem_append_right _ ht
  case poisoned =>
    intro t ht hsync
    rw [(h.rest (ne_nil_of_mem ht)).1]
    exact hq.poisoned t (hmem t ht) hsync
  case events =>
    intro job event
    constructor
    · intro hget
      obtain ⟨hget, hjob⟩ := h.events job event hget
      obtain ⟨t, ht, hsync, rfl, rfl⟩ := (hq.events job event).mp hget
      rw [h.transfers, mem_append] at ht
      rcases ht with ht | ht
      · exact absurd (mem_map_of_mem ht) hjob
      · exact ⟨t, ht, hsync, rfl, rfl⟩
    · rintro ⟨t, ht, hsync, rfl, rfl⟩
      rw [(h.rest (ne_nil_of_mem ht)).2 _ (hgone t ht), hq.events]
      exact ⟨t, hmem t ht, hsync, rfl, rfl⟩

end QueueOk

/-! ## The invariant -/

/-- The account of one direction: `gone` are the jobs that have left the queue, in order. -/
structure AccountOf (submitted accepted reported drained gone : List Int) (q : Queue) : Prop where
  queue : QueueOk q
  order : (gone ++ q.jobs).Sublist submitted
  reports : reported.Sublist gone
  count : ∀ job, gone.count job = reported.count job + drained.count job
  accounted : ∀ job ∈ accepted, job ∈ gone ++ q.jobs

structure Account (l : Ledger) : Prop where
  nodup : (l.submitted .store ++ l.submitted .load).Nodup
  known : ∀ result ∈ l.finished, ∃ dir, result.jobId ∈ l.submitted dir
  accounts : ∀ dir, ∃ gone, AccountOf (l.submitted dir) (l.accepted dir) ((l.reported dir).map (·.jobId)) (l.drained dir) gone
    (l.handler.view.queue dir)

namespace AccountOf

variable {submitted accepted reported drained gone : List Int} {q q' : Queue} {t : Transfer}

section

variable (h : AccountOf submitted accepted reported drained gone q)

include h

theorem jobs_subset : ∀ job ∈ q.jobs, job ∈ submitted := fun _ hjob => h.order.subset (mem_append_right _ hjob)

theorem jobs_nodup (hnodup : submitted.Nodup) : q.jobs.Nodup := (hnodup.sublist h.order).of_append_right

theorem submit (jobs : List Int) : AccountOf (submitted ++ jobs) accepted reported drained gone q :=
  { h with order := h.order.trans (sublist_append_left _ _) }

end

theorem drop_accepted {jobs : List Int} (h : AccountOf submitted (accepted ++ jobs) reported drained gone q) :
    AccountOf submitted accepted reported drained gone q :=
  { h with accounted := fun job hjob => h.accounted job (mem_append_left _ hjob) }

section

variable (h : AccountOf submitted accepted reported drained gone q)

include h

theorem push (hq : QueueOk q') {jobId : Int} (hjobs : q'.jobs = q.jobs ++ [jobId]) :
    AccountOf (submitted ++ [jobId]) (accepted ++ [jobId]) reported drained gone q' := by
  refine ⟨hq, ?_, h.reports, h.count, fun job hjob => ?_⟩
  · rw [hjobs, ← append_assoc]
    exact h.order.append (.refl _)
  · rw [hjobs, ← append_assoc]
    exact (mem_append.mp hjob).elim (fun hjob => mem_append_left _ (h.accounted job hjob)) (mem_append_right _)

theorem track (hp : q.poisoned = false) {success : Bool}
    {jobId : Int} (ht : Transfer.New jobId success t) (hnew : jobId ∉ submitted) :
    AccountOf (submitted ++ [jobId]) (accepted ++ [jobId]) reported drained gone (q.track t) := by
  refine h.push (h.queue.track hp ht.synced fun hmem => hnew ?_) (by simp [Queue.jobs, Queue.track, ht.job])
  rw [← ht.job]
  exact h.jobs_subset _ hmem

theorem poison (hp : q.poisoned = false) {jobId : Int}
    (ht : t.jobId = jobId) : AccountOf (submitted ++ [jobId]) accepted reported drained gone (q.poison t) :=
  (h.push (h.queue.poison hp) (by simp [Queue.jobs, Queue.poison, ht])).drop_accepted

theorem takes (hnodup : submitted.Nodup) {done : List Transfer}
    (htakes : Takes q done q') {reports drains : List Int} (hreports : reports.Sublist (done.map (·.jobId)))
    (hcount : ∀ job, (done.map (·.jobId)).count job = reports.count job + drains.count job) :
    AccountOf submitted accepted (reported ++ reports) (drained ++ drains) (gone ++ done.map (·.jobId)) q' := by
  have hjobs : q.jobs = done.map (·.jobId) ++ q'.jobs := by simp [Queue.jobs, htakes.transfers]
  constructor
  case queue => exact h.queue.takes (h.jobs_nodup hnodup) htakes
  case order =>
    rw [append_assoc, ← hjobs]
    exact h.order
  case reports => exact h.reports.append hreports
  case count =>
    intro job
    have := h.count job
    have := hcount job
    simp only [count_append]
    omega
  case accounted =>
    intro job hjob
    rw [append_assoc, ← hjobs]
    exact h.accounted job hjob

end

end AccountOf

namespace Account

variable {l : Ledger}

theorem nodup_submitted (hi : Account l) (dir : Direction) : (l.submitted dir).Nodup := by
  cases dir
  · exact hi.nodup.of_append_left
  · exact hi.nodup.of_append_right

variable {dir : Direction} {l' : Ledger} {a : Action} {done : Direction → List Transfer}

section

variable (hi : Account l)

include hi

theorem not_mem_submitted {dir' : Direction} (hdir : dir ≠ dir') {job : Int}
    (hjob : job ∈ l.submitted dir) : job ∉ l.submitted dir' := by
  have hdisjoint := disjoint_of_nodup_append hi.nodup
  cases dir <;> cases dir'
  · exact absurd rfl hdir
  · exact hdisjoint hjob
  · exact hdisjoint.symm hjob
  · exact absurd rfl hdir

theorem reported_submit {jobs : List Int} (hnew : ∀ job ∈ jobs, ∀ dir', job ∉ l.submitted dir') :
    (l.finished.filter fun result => decide (result.jobId ∈ l.submitted dir ++ jobs)) = l.reported dir := by
  refine filter_congr fun result hresult => ?_
  obtain ⟨dir', hjob⟩ := hi.known result hresult
  have hold : result.jobId ∉ jobs := fun hmem => hnew _ hmem dir' hjob
  simp [hold]

theorem nodup_submit {call : Call} (hnew : ∀ dir, ∀ job ∈ call.jobs dir, ∀ dir', job ∉ l.submitted dir') :
    ((l.submitted .store ++ call.jobs .store) ++ (l.submitted .load ++ call.jobs .load)).Nodup := by
  cases hcall : call.submission with
  | none => simpa [jobs, hcall] using hi.nodup
  | some submission =>
    obtain ⟨dir, job⟩ := submission
    have hjob := hnew dir job (by simp [jobs, hcall])
    have hcons : (job :: (l.submitted .store ++ l.submitted .load)).Nodup := nodup_cons.mpr ⟨by simp [hjob], hi.nodup⟩
    refine (Perm.nodup_iff ?_).mpr hcons
    cases dir
    · simp [jobs, hcall]
    · simp only [jobs, hcall]
      simpa using perm_append_singleton job (l.submitted .store ++ l.submitted .load)

theorem step_takes (hsubmitted : l'.submitted = l.submitted) (haccepted : l'.accepted = l.accepted)
    (htakes : ∀ dir, Takes (l.handler.view.queue dir) (done dir) (l'.handler.view.queue dir)) {reports drains : Direction → List Int}
    {results : List TransferResult} (hfinished : l'.finished = l.finished ++ results)
    (hresults : ∀ dir, (results.filter fun result => decide (result.jobId ∈ l.submitted dir)).map (·.jobId) = reports dir)
    (hdrained : ∀ dir, l'.drained dir = l.drained dir ++ drains dir)
    (hparts : ∀ dir, reports dir = (done dir).map (·.jobId) ∧ drains dir = [] ∨
      reports dir = [] ∧ drains dir = (done dir).map (·.jobId))
    (hknown : ∀ result ∈ results, ∃ dir, result.jobId ∈ l.submitted dir) : Account l' := by
  have hreported : ∀ dir, (l'.reported dir).map (·.jobId) = (l.reported dir).map (·.jobId) ++ reports dir := by
    intro dir
    unfold Ledger.reported
    rw [hsubmitted, hfinished, filter_append, map_append, hresults]
  refine ⟨hsubmitted ▸ hi.nodup, ?_, fun dir => ?_⟩
  · intro result hresult
    rw [hsubmitted]
    rw [hfinished] at hresult
    exact (mem_append.mp hresult).elim (hi.known result) (hknown result)
  obtain ⟨gone, hgone⟩ := hi.accounts dir
  rw [hsubmitted, haccepted, hreported, hdrained]
  refine ⟨_, hgone.takes (hi.nodup_submitted dir) (htakes dir) ?_ fun job => ?_⟩
  · rcases hparts dir with ⟨hrep, -⟩ | ⟨hrep, -⟩
    · rw [hrep]
    · rw [hrep]
      exact nil_sublist _
  · rcases hparts dir with ⟨hrep, hdr⟩ | ⟨hrep, hdr⟩ <;> simp [hrep, hdr]

theorem filter_results (hdone : ∀ dir, ∀ t ∈ done dir, t.jobId ∈ l.submitted dir) (dir : Direction) :
    (((done .store ++ done .load).map result).filter fun result => decide (result.jobId ∈ l.submitted dir)).map
      (·.jobId) = (done dir).map (·.jobId) := by
  have hmine : ((done dir).map result).filter (fun result => decide (result.jobId ∈ l.submitted dir)) =
      (done dir).map result := by
    refine filter_eq_self.mpr (forall_mem_map.mpr fun t ht => ?_)
    exact decide_eq_true (hdone dir t ht)
  have hother : ∀ dir', dir' ≠ dir →
      ((done dir').map result).filter (fun result => decide (result.jobId ∈ l.submitted dir)) = [] := by
    intro dir' hdir
    refine filter_eq_nil_iff.mpr (forall_mem_map.mpr fun t ht => ?_)
    rw [decide_eq_true_eq]
    exact hi.not_mem_submitted hdir (hdone dir' t ht)
  rw [map_append, filter_append]
  cases dir
  · rw [hmine, hother .load (by decide), append_nil, map_map]
    rfl
  · rw [hmine, hother .store (by decide), nil_append, map_map]
    rfl

variable (hs : ledgerStep l a = some l')

include hs

theorem step_quiet (hcall : a.call.submission = none)
    (hresponse : ∀ results, (respond a.call (a.prepare l.handler)).1 ≠ .ok (.finished results))
    (htakes : ∀ dir, Takes (l.handler.view.queue dir) (done dir) ((respond a.call (a.prepare l.handler)).2.view.queue dir))
    (hdone : a.call = .shutdown ∨ ∀ dir, done dir = []) : Account l' := by
  have hjobs : ∀ dir, a.call.jobs dir = [] := fun dir => by simp [jobs, hcall]
  have hfinished : finishedResults (respond a.call (a.prepare l.handler)).1 = [] := by
    unfold finishedResults
    split
    · rename_i results hres
      exact absurd hres (hresponse results)
    · rfl
  cases hs
  refine @step_takes l _ done hi (funext fun dir => ?_) (funext fun dir => ?_) htakes (fun _ => [])
    (fun dir => (done dir).map (·.jobId)) [] ?_ (fun dir => rfl) (fun dir => ?_) (fun dir => .inr ⟨rfl, rfl⟩) nofun
  · simp [hjobs]
  · dsimp only
    rw [hjobs]
    unfold acceptedJobs
    split <;> simp
  · rw [hfinished]
  · dsimp only
    have htransfers : l.queued dir = (done dir).map (·.jobId) ++
        ((respond a.call (a.prepare l.handler)).2.state dir).transfers.map (·.jobId) := by
      rw [← map_append]
      exact congrArg (map _) (htakes dir).transfers
    rcases hdone with hshutdown | hnil
    · rw [hshutdown] at htransfers ⊢
      unfold drainedJobs
      rw [htransfers, length_append, Nat.add_sub_cancel, take_left]
    · rw [hnil] at htransfers ⊢
      rw [htransfers]
      unfold drainedJobs
      split <;> simp

variable (hreg : Regular l a)

include hreg

theorem step_submission {job : Int} (hcall : a.call.submission = some (dir, job)) : Account l' := by
  have hjobs : a.call.jobs dir = [job] := by simp [jobs, hcall]
  have hother : ∀ dir', dir' ≠ dir → a.call.jobs dir' = [] := fun dir' hdir => by
    simp [jobs, hcall, Ne.symm hdir]
  have hnew : ∀ dir', job ∉ l.submitted dir' := hreg.distinct dir job (by simp [hjobs])
  have hdrained : ∀ before after, drainedJobs a.call before after = [] := by
    intro before after
    cases hc : a.call <;> first | rfl | (rw [hc] at hcall; cases hcall)
  have hspec := respond_submits (v := l.handler.view) hcall (a.prepare l.handler) rfl
  obtain ⟨gone, hgone⟩ := hi.accounts dir
  -- Whatever the call returns, it reports nothing and leaves the other direction alone.
  cases hs
  generalize respond a.call (a.prepare l.handler) = run at hspec ⊢
  have hfinished : finishedResults run.1 = [] := by
    obtain ⟨_ | _, _⟩ := run
    · rfl
    · rw [hspec.1]
      rfl
  refine ⟨hi.nodup_submit hreg.distinct, ?_, fun dir' => ?_⟩
  · intro result hresult
    rw [hfinished, append_nil] at hresult
    obtain ⟨dir', hjob⟩ := hi.known result hresult
    exact ⟨dir', mem_append_left _ hjob⟩
  unfold Ledger.reported
  dsimp only
  rw [hfinished, append_nil, hi.reported_submit (hreg.distinct dir'), hdrained, append_nil]
  by_cases hdir : dir' = dir
  · subst hdir
    rw [hjobs]
    refine ⟨gone, ?_⟩
    obtain ⟨_ | _, _⟩ := run
    · change AccountOf _ (l.accepted dir' ++ []) _ _ _ _
      rw [append_nil]
      rcases hspec with hset | ⟨-, hpoisoned, t, ht, hset | hset⟩
      · rw [hset]
        exact hgone.submit [job]
      · rw [hset, View.set_queue]
        exact (hgone.track hpoisoned ht (hnew dir')).drop_accepted
      · rw [hset, View.set_queue]
        exact hgone.poison hpoisoned ht.job
    · obtain ⟨rfl, -, hpoisoned, t, ht, hset⟩ := hspec
      rw [hset, View.set_queue]
      exact hgone.track hpoisoned ht (hnew dir')
  · have hqueue : run.2.view.queue dir' = l.handler.view.queue dir' := by
      obtain ⟨_ | _, _⟩ := run
      · rcases hspec with hset | ⟨-, -, t, -, hset | hset⟩
        · rw [hset]
        · rw [hset, View.set_queue_other _ hdir]
        · rw [hset, View.set_queue_other _ hdir]
      · obtain ⟨-, -, -, t, -, hset⟩ := hspec
        rw [hset, View.set_queue_other _ hdir]
    have haccepted : ∀ response, acceptedJobs response [] = [] := by
      intro response
      unfold acceptedJobs
      split <;> rfl
    rw [hother dir' hdir, haccepted, append_nil, append_nil, hqueue]
    exact hi.accounts dir'

theorem step_getFinished (hcall : a.call = .getFinished) : Account l' := by
  have hjobs : ∀ dir, a.call.jobs dir = [] := fun dir => by simp [jobs, submission, hcall]
  have hstart : Polling (fun _ => False) l.handler.view (a.prepare l.handler) :=
    ⟨hreg.polling hcall, rfl, fun _ => False.elim⟩
  have hspec := getFinished_polling (a.prepare l.handler) hstart
  split at hspec
  · rename_i results h' hrun
    obtain ⟨done, htakes, -, rfl, -, -⟩ := hspec
    have hrespond : respond a.call (a.prepare l.handler) =
        (.ok (.finished ((done .store ++ done .load).map result)), h') := by
      rw [hcall]
      change (getFinished >>= fun results => pure (Response.finished results)) _ = _
      rw [bind_eq_ok]
      exact ⟨_, _, hrun, rfl⟩
    have hdone : ∀ dir, ∀ t ∈ done dir, t.jobId ∈ l.submitted dir := by
      intro dir t ht
      obtain ⟨gone, hgone⟩ := hi.accounts dir
      refine hgone.jobs_subset _ ?_
      unfold Queue.jobs
      rw [(htakes dir).transfers, map_append]
      exact mem_append_left _ (mem_map_of_mem ht)
    cases hs
    refine hi.step_takes (funext fun dir => ?_) (funext fun dir => ?_) (fun dir => ?_) ?_ (hi.filter_results hdone)
      (fun dir => ?_) (fun dir => .inl ⟨rfl, rfl⟩) ?_
    · simp [hjobs]
    · simp [hrespond, acceptedJobs]
    · rw [hrespond]
      exact htakes dir
    · rw [hrespond]
      rfl
    · rw [hcall]
      rfl
    · refine forall_mem_map.mpr fun t ht => ?_
      rcases mem_append.mp ht with ht | ht
      · exact ⟨.store, hdone .store t ht⟩
      · exact ⟨.load, hdone .load t ht⟩
  · exact hspec.elim

theorem step : Account l' := by
  cases hsub : a.call.submission with
  | some submission => exact hi.step_submission hs hreg hsub
  | none =>
    have hkeep : ∀ {h' : Handler}, h'.view = l.handler.view → ∀ dir,
        Takes (l.handler.view.queue dir) [] (h'.view.queue dir) := by
      intro h' hview dir
      rw [hview]
      exact .refl _
    have hnothing : ∀ m : HandlerM Unit, respond a.call = (m >>= fun _ => pure Response.nothing) →
        ∀ results, (respond a.call (a.prepare l.handler)).1 ≠ .ok (.finished results) := by
      intro m hm results hres
      rw [hm] at hres
      obtain ⟨_, _, -, hpure⟩ := bind_eq_ok.mp (Prod.ext hres rfl)
      cases hpure
    cases hcall : a.call with
    | submitStore jobId src dst | submitLoad jobId src dst =>
      rw [hcall] at hsub
      cases hsub
    | transferAsync jobId src dst =>
      have hraise : respond a.call (a.prepare l.handler) = (.error .unsupportedDirection, a.prepare l.handler) := by
        have htransfer : transferAsync jobId src dst = raise .unsupportedDirection := by
          unfold transferAsync
          split <;> first | rfl | simp_all [submission]
        rw [hcall]
        simp only [respond, htransfer]
        rfl
      refine @step_quiet l _ a (fun _ => []) hi hs hsub (by simp [hraise]) (fun dir => ?_) (.inr fun _ => rfl)
      rw [hraise]
      exact hkeep rfl dir
    | getFinished => exact hi.step_getFinished hs hreg hcall
    | wait jobIds =>
      have hview : (respond a.call (a.prepare l.handler)).2.view = l.handler.view := by
        rw [respond_state, hcall]
        exact wait_keeps jobIds _
      exact hi.step_quiet hs hsub (hnothing (wait jobIds) (by rw [hcall]; rfl)) (hkeep hview) (.inr fun _ => rfl)
    | shutdown =>
      have hshuts : Shuts l.handler.view (respond a.call (a.prepare l.handler)).2.view := by
        rw [respond_state, hcall]
        exact shutdown_view.state rfl
      obtain ⟨done, htakes, -⟩ := hshuts
      exact hi.step_quiet hs hsub (hnothing shutdown (by rw [hcall]; rfl)) htakes (.inl hcall)

end

end Account

theorem reaches_account {args : HandlerArgs} (hc : construct args = .ok h₀)
    (hr : Machine.Reaches ledgerStep Regular { handler := h₀ } l) : Account l := by
  refine hr.inv Account ⟨nodup_nil, nofun, fun dir => ⟨[], ?_⟩⟩ fun _ _ _ hi hreg hs => hi.step hs hreg
  obtain ⟨npuTensors, -, -, hview⟩ := construct_view hc
  rw [hview]
  exact ⟨⟨nofun, nofun, fun job event => ⟨nofun, nofun⟩⟩, .refl _, .refl _, fun _ => rfl, nofun⟩

/-! ## Reports -/

def Device.Finished (d : Device) (t : Transfer) : Prop :=
  d.recorded t.endEvent = some (t.stream, d.enqueued t.stream) ∧ d.enqueued t.stream ≤ d.completed t.stream

structure ReportedOnce (l : Ledger) : Prop where
  poisoned : ∀ dir, ∀ t ∈ (l.handler.state dir).transfers, t.needsStreamSync = true → (l.handler.state dir).poisoned = true
  tail : ∀ dir, ∀ t ∈ (l.handler.state dir).transfers.dropLast, t.needsStreamSync = false
  refused : ∀ (a : Action) dir jobId, a.call.submission = some (dir, jobId) → (l.handler.state dir).poisoned = true →
    (∃ e, (respond a.call (a.prepare l.handler)).1 = .error e) ∧
      ∀ dir', ((respond a.call (a.prepare l.handler)).2.state dir').transfers = (l.handler.state dir').transfers
  indexed : ∀ dir jobId, jobId ∈ (l.handler.state dir).transferEvents.keys ↔
    ∃ t ∈ (l.handler.state dir).transfers, t.needsStreamSync = false ∧ t.jobId = jobId
  ordered : ∀ dir, ((l.reported dir).map (·.jobId)).Sublist (l.submitted dir)
  once : (l.finished.map (·.jobId)).Nodup
  exact : ∀ dir, ∀ jobId ∈ l.accepted dir, ((l.reported dir).map (·.jobId)).count jobId +
    (l.drained dir).count jobId + (l.queued dir).count jobId = 1
  /-- Once they are complete, a poll reports all transfers but those that need a stream synchronization. -/
  progress : ∀ a : Action, a.call = .getFinished → (∀ outcome ∈ a.outcomes, outcome = .succeeds) →
    (∀ dir, ∀ t ∈ (l.handler.state dir).transfers, t.needsStreamSync = false →
      l.handler.device.isComplete t.endEvent = true) →
    (getFinished (a.prepare l.handler)).1 = .ok (((l.handler.storeState.transfers ++ l.handler.loadState.transfers).filter
      (fun t => !t.needsStreamSync)).map Transfer.result)
  waited : ∀ (a : Action) jobIds, a.call = .wait jobIds → (wait jobIds (a.prepare l.handler)).1 = .ok () →
    ∀ dir, ∀ t ∈ ((wait jobIds (a.prepare l.handler)).2.state dir).transfers, t.jobId ∈ jobIds → t.needsStreamSync = false →
      (wait jobIds (a.prepare l.handler)).2.device.Finished t

namespace Account

variable {l : Ledger}

section

variable (hi : Account l)

include hi

theorem queueOk (dir : Direction) : QueueOk (l.handler.view.queue dir) := by
  obtain ⟨gone, hgone⟩ := hi.accounts dir
  exact hgone.queue

theorem indexed (dir : Direction) (jobId : Int) : jobId ∈ (l.handler.state dir).transferEvents.keys ↔
      ∃ t ∈ (l.handler.state dir).transfers, t.needsStreamSync = false ∧ t.jobId = jobId := by
  have hevents := (hi.queueOk dir).events jobId
  constructor
  · intro hmem
    obtain ⟨event, hget⟩ := exists_get?_of_mem_keys hmem
    obtain ⟨t, ht, hsync, hjob, -⟩ := (hevents event).mp hget
    exact ⟨t, ht, hsync, hjob⟩
  · rintro ⟨t, ht, hsync, hjob⟩
    have hget := (hevents t.endEvent).mpr ⟨t, ht, hsync, hjob, rfl⟩
    exact mem_map_of_mem (mem_entries.mpr hget)

theorem ordered (dir : Direction) : ((l.reported dir).map (·.jobId)).Sublist (l.submitted dir) := by
  obtain ⟨gone, hgone⟩ := hi.accounts dir
  exact hgone.reports.trans ((sublist_append_left _ _).trans hgone.order)

theorem once : (l.finished.map (·.jobId)).Nodup := by
  refine nodup_iff_count_le_one.mpr fun jobId => ?_
  by_cases hmem : jobId ∈ l.finished.map (·.jobId)
  · obtain ⟨result, hresult, hjob⟩ := mem_map.mp hmem
    obtain ⟨dir, hdir⟩ := hi.known result hresult
    have hcount : (l.finished.map (·.jobId)).count jobId = ((l.reported dir).map (·.jobId)).count jobId := by
      unfold Ledger.reported
      unfold count
      rw [countP_map, countP_map, countP_filter]
      refine countP_congr fun other _ => ?_
      simp only [Function.comp_apply, beq_iff_eq, Bool.and_eq_true, decide_eq_true_eq]
      constructor
      · rintro heq
        exact ⟨heq, by rw [heq, ← hjob]; exact hdir⟩
      · exact And.left
    rw [hcount]
    exact nodup_iff_count_le_one.mp ((hi.nodup_submitted dir).sublist (hi.ordered dir)) jobId
  · rw [count_eq_zero.mpr hmem]
    exact Nat.zero_le 1

theorem exact (dir : Direction) {jobId : Int} (hjob : jobId ∈ l.accepted dir) :
    ((l.reported dir).map (·.jobId)).count jobId + (l.drained dir).count jobId + (l.queued dir).count jobId = 1 := by
  obtain ⟨gone, hgone⟩ := hi.accounts dir
  have hone := count_eq_one_of_mem ((hi.nodup_submitted dir).sublist hgone.order) (hgone.accounted jobId hjob)
  rw [count_append, hgone.count] at hone
  exact hone

theorem takes_all {dir : Direction} {done : List Transfer} {q : Queue}
    (htakes : Takes (l.handler.view.queue dir) done q) (hdone : ∀ t ∈ done, t.needsStreamSync = false)
    {complete : Nat → Prop} (hstuck : Stuck complete q)
    (hcomplete : ∀ t ∈ (l.handler.view.queue dir).transfers, t.needsStreamSync = false → complete t.endEvent) :
    (l.handler.view.queue dir).transfers.filter (fun t => !t.needsStreamSync) = done := by
  have hrest : q.transfers.filter (fun t => !t.needsStreamSync) = [] := by
    cases hq : q.transfers with
    | nil => rfl
    | cons t rest =>
      have htransfers := htakes.transfers
      rw [hq] at htransfers
      have hmem : t ∈ (l.handler.view.queue dir).transfers := by simp [htransfers]
      have hsync : t.needsStreamSync = true := by
        by_contra hne
        have hne : t.needsStreamSync = false := by simpa using hne
        exact hstuck t (by simp [hq]) hne (hcomplete t hmem hne)
      -- It is the last one.
      have hnil : rest = [] := by
        by_contra hne
        have hlast : t ∈ (l.handler.view.queue dir).transfers.dropLast := by
          rw [htransfers, dropLast_append_of_ne_nil (cons_ne_nil _ _), dropLast_cons_of_ne_nil hne]
          simp
        rw [(hi.queueOk dir).tail t hlast] at hsync
        cases hsync
      simp [hnil, hsync]
  have hall : done.filter (fun t => !t.needsStreamSync) = done := filter_eq_self.mpr fun t ht => by simp [hdone t ht]
  rw [htakes.transfers, filter_append, hrest, hall, append_nil]

theorem progress {a : Action} (houtcomes : ∀ outcome ∈ a.outcomes, outcome = Outcome.succeeds)
    (hcomplete : ∀ dir, ∀ t ∈ (l.handler.state dir).transfers, t.needsStreamSync = false →
      l.handler.device.isComplete t.endEvent = true) :
    (getFinished (a.prepare l.handler)).1 = .ok (((l.handler.storeState.transfers ++ l.handler.loadState.transfers).filter
      (fun t => !t.needsStreamSync)).map result) := by
  let complete : Nat → Prop := fun event =>
    ∃ dir, ∃ t ∈ (l.handler.state dir).transfers, t.needsStreamSync = false ∧ t.endEvent = event
  have hstart : Polling complete l.handler.view (a.prepare l.handler) := by
    refine ⟨houtcomes, rfl, ?_⟩
    rintro event ⟨dir, t, ht, hsync, rfl⟩
    exact hcomplete dir t ht hsync
  have hspec := getFinished_polling (a.prepare l.handler) hstart
  split at hspec
  · rename_i results h' hrun
    obtain ⟨done, htakes, hdone, rfl, hstuck, -⟩ := hspec
    have hall := fun dir => hi.takes_all (htakes dir) (hdone dir) (hstuck dir) fun t ht hsync => ⟨dir, t, ht, hsync, rfl⟩
    rw [hrun, ← hall .store, ← hall .load, ← filter_append]
    rfl
  · exact hspec.elim

end

end Account

theorem waited_finished {args : HandlerArgs} (hc : construct args = .ok h₀)
    (hr : Machine.Reaches ledgerStep Regular { handler := h₀ } l) {a : Action} {jobIds : List Int} (hcall : a.call = .wait jobIds)
    (hok : (wait jobIds (a.prepare l.handler)).1 = .ok ()) {t : Transfer}
    (ht : t ∈ ((wait jobIds (a.prepare l.handler)).2.state dir).transfers) (hjob : t.jobId ∈ jobIds)
    (hsync : t.needsStreamSync = false) : (wait jobIds (a.prepare l.handler)).2.device.Finished t := by
  have hi := reaches_account hc hr
  have hview : (wait jobIds (a.prepare l.handler)).2.view = l.handler.view := wait_keeps jobIds _
  have hqueue := queue_of_view hview dir
  have ht' : t ∈ (l.handler.view.queue dir).transfers := by
    rw [← hqueue]
    exact ht
  have hget := ((hi.queueOk dir).events t.jobId t.endEvent).mpr ⟨t, ht', hsync, rfl, rfl⟩
  -- The end event is the last work of the stream in the state that is left.
  have hstep : step l.handler a = some (wait jobIds (a.prepare l.handler)).2 := by
    unfold step perform
    rw [hcall]
    rfl
  have hinv := reaches_inv hc ((reaches_of_ledger hr).tail trivial hstep)
  have hrecorded := hinv.tracked t ((mem_queued _ dir).mpr (.inl ht)) hsync
  have hknown := wait_known (v := l.handler.view) jobIds (a.prepare l.handler) rfl
  rw [show wait jobIds (a.prepare l.handler) = (.ok (), (wait jobIds (a.prepare l.handler)).2) from Prod.ext hok rfl] at hknown
  have hcomplete := hknown.2 t.endEvent ⟨dir, t.jobId, hjob, hget⟩
  refine ⟨hrecorded, ?_⟩
  unfold Device.isComplete at hcomplete
  rw [hrecorded] at hcomplete
  simpa using hcomplete

/-- In every run with distinct job ids, whatever fails in a submission or a shutdown, the queues are in order and every
accepted transfer is reported exactly once, unless a shutdown drains it first. -/
theorem transfers_reported_exactly_once {args : HandlerArgs} {h₀ : Handler} {l : Ledger} (hc : construct args = .ok h₀)
    (hr : Machine.Reaches ledgerStep Regular { handler := h₀ } l) : ReportedOnce l := by
  have hi := reaches_account hc hr
  constructor
  case poisoned => exact fun dir => (hi.queueOk dir).poisoned
  case tail => exact fun dir => (hi.queueOk dir).tail
  case refused => exact fun _ _ _ => respond_poisoned
  case indexed => exact hi.indexed
  case ordered => exact hi.ordered
  case once => exact hi.once
  case exact => exact fun dir _ => hi.exact dir
  case progress => exact fun _ _ => hi.progress
  case waited => exact fun _ _ hcall hok _ _ => waited_finished hc hr hcall hok

def sampleLedger (acts : List Action) : Ledger :=
  (Machine.run ledgerStep { handler := sampleHandler } acts).getD { handler := sampleHandler }

theorem transfers_reported_exactly_once_poisonedRun :
    (sampleLedger poisonedRun).finished = [⟨7, true, 64⟩] ∧ (sampleLedger poisonedRun).accepted .store = [7] ∧
      (sampleLedger poisonedRun).queued .store = [8] ∧ ReportedOnce (sampleLedger poisonedRun) := by
  refine ⟨by decide, by decide, by decide, @transfers_reported_exactly_once sampleArgs sampleHandler _ rfl ?_⟩
  have hdistinct : ∀ (l : Ledger) (a : Action), (∀ job ∈ a.call.jobs .store, job ∉ l.submitted .store ∧ job ∉ l.submitted .load) →
      a.call.jobs .load = [] → (a.call = .getFinished → a.outcomes = []) → Regular l a := by
    intro l a hstore hload hpolling
    refine ⟨?_, fun hcall => by simp [hpolling hcall]⟩
    rintro (_ | _) job hjob (_ | _)
    · exact (hstore job hjob).1
    · exact (hstore job hjob).2
    · simp [hload] at hjob
    · simp [hload] at hjob
  refine .tail (.tail (.tail .refl (a := poisonedRun[0]) (hdistinct _ _ ?_ rfl nofun) rfl) (a := poisonedRun[1])
    (hdistinct _ _ ?_ rfl fun _ => rfl) rfl) (a := poisonedRun[2]) (hdistinct _ _ ?_ rfl nofun) rfl
  · decide
  · decide
  · decide

end VllmAscend.KvOffload.Mapped
