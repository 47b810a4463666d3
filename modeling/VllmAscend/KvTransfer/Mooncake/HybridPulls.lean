import Mathlib.Data.List.Perm.Basic
import VllmAscend.Lib.Machine

/-!
# Completed pulls of the hybrid Mooncake connector

All tables of the receiving thread and its executor are keyed by the request id, so a state has a `Pull` for every
id and an action works on one of them. The queues of the peers only decide which submitted task is next: here any
may be. A transfer is one step with the section that marks its task done.
-/

namespace VllmAscend.KvTransfer.MooncakeHybrid

open List Machine

/-- What `start_load_kv` is told of a request. `numTasks` is `tp_num_need_pulls * _prefill_pp_size`, or 1 with Mamba. -/
structure ReqMeta where
  localBlockIds : List (List Nat)
  numTasks : Nat
  numTasks_pos : 0 < numTasks

structure Task where
  offset : Nat
  allTaskDone : Bool
deriving DecidableEq

def ReqMeta.tasks (m : ReqMeta) : List Task := (range m.numTasks).map fun i => ⟨i, i + 1 == m.numTasks⟩

structure Pull where
  /-- What `start_load_kv` has still to do: the tasks to queue, and then to tell the tracker. -/
  toAdd : List Task := []
  toTrack : Bool := false
  requestQueue : List Task := []
  /-- In the queue of a peer, or with its handler. -/
  submitted : List Task := []
  requestTaskCount : Option Nat := none
  finishedRequestMarker : Bool := false
  /-- Handlers that found all tasks done. -/
  reporting : Nat := 0
  toProcess : Bool := false
  finished : Bool := false
  /-- How often `get_and_clear_finished_requests` returned the request. -/
  returned : Nat := 0
  loaded : Bool := false
  /-- The tasks whose blocks were read, and those that raised. -/
  received : List Task := []
  failed : List Task := []
  /-- The reports so far, and those of them that `finished_requests` does not show. -/
  reported : Nat := 0
  dropped : Nat := 0
deriving DecidableEq

inductive Action
  | startLoadKv | addRequest | addReqToProcess | submit
  | handle (i : Nat) (ok : Bool)
  | report | getFinished
deriving DecidableEq

variable (m : ReqMeta)

namespace Pull

variable (p : Pull)

def markRequestTaskSubmitted (t : Task) : Pull :=
  { p with
    requestTaskCount := some (p.requestTaskCount.getD 0 + 1)
    finishedRequestMarker := p.finishedRequestMarker || t.allTaskDone }

def markRequestTaskDone (allTaskDone : Bool) : Bool × Pull :=
  match p.requestTaskCount with
  | none => (allTaskDone, p)
  | some pendingCount =>
    if pendingCount - 1 > 0 then (false, { p with requestTaskCount := some (pendingCount - 1) })
    else (p.finishedRequestMarker, { p with requestTaskCount := none, finishedRequestMarker := false })

/-- `_handle_request` up to the mark: an exception of the transfer is only logged. -/
def handle (t : Task) (ok : Bool) : Pull :=
  let p := if ok then { p with received := t :: p.received } else { p with failed := t :: p.failed }
  let (allDone, p) := p.markRequestTaskDone t.allTaskDone
  if allDone then { p with reporting := p.reporting + 1 } else p

/-- A request that the tracker does not know is dropped. -/
def updateDoneTaskCount : Pull :=
  if p.toProcess then { p with finished := true, toProcess := false } else { p with dropped := p.dropped + 1 }

def step : Action → Option Pull
  | .startLoadKv => if p.loaded then none else some { p with toAdd := m.tasks, toTrack := true, loaded := true }
  | .addRequest =>
    match p.toAdd with
    | [] => none
    | t :: rest => some { p with toAdd := rest, requestQueue := p.requestQueue ++ [t] }
  | .addReqToProcess => if p.toAdd = [] ∧ p.toTrack then some { p with toTrack := false, toProcess := true } else none
  | .submit =>
    match p.requestQueue with
    | [] => none
    | t :: rest => some ({ p with requestQueue := rest, submitted := t :: p.submitted }.markRequestTaskSubmitted t)
  | .handle i ok => p.submitted[i]?.map fun t => { p with submitted := p.submitted.eraseIdx i }.handle t ok
  | .report =>
    if p.reporting = 0 then none
    else
      let p := { p with reporting := p.reporting - 1, reported := p.reported + 1 }
      some (if m.localBlockIds ≠ [] then p.updateDoneTaskCount else { p with dropped := p.dropped + 1 })
  | .getFinished => some { p with returned := p.returned + p.finished.toNat, finished := false }

/-- The blocks of every task of a returned request were read. -/
def ReceivedAll : Prop := 0 < p.returned → m.localBlockIds.flatten ≠ [] → ∀ t ∈ m.tasks, t ∈ p.received

/-- No pull with local blocks fails. -/
def Pulls : Action → Prop
  | .handle _ ok => m.localBlockIds.flatten ≠ [] → ok
  | _ => True

/-- After `start_load_kv` a request without open tasks is reported once. -/
def Delivered : Prop := p.loaded → p.toTrack = false → m.localBlockIds ≠ [] →
  p.requestQueue = [] → p.submitted = [] → p.reporting = 0 → p.returned + p.finished.toNat = 1 ∧ p.toProcess = false

/-- The request is reported after `start_load_kv` has told the tracker of it. -/
def Tracked (act : Action) : Prop := act = .report → m.localBlockIds ≠ [] → p.toProcess

instance (act : Action) : Decidable (p.Tracked m act) := inferInstanceAs (Decidable (_ → _ → _))

/-! ## The tasks of a request -/

def ahead : List Task := p.requestQueue ++ p.toAdd

structure Counted : Prop where
  order : p.ahead <:+ m.tasks
  unloaded : p.loaded = false → p.toTrack = false ∧ p.ahead = [] ∧ p.submitted = []
  tracking : p.toTrack = false → p.toAdd = []
  count : p.requestTaskCount = if p.submitted = [] then none else some p.submitted.length
  marker : p.finishedRequestMarker = decide (p.ahead = [] ∧ p.submitted ≠ [])
  reports : p.reporting + p.reported = if p.loaded ∧ p.ahead = [] ∧ p.submitted = [] then 1 else 0
  kept : p.loaded → ∀ t ∈ m.tasks, t ∈ p.ahead ∨ t ∈ p.submitted ∨ t ∈ p.received ∨ t ∈ p.failed

/-- What the tracker knows. Until it is told of a request, it drops its reports. -/
structure Known : Prop where
  once : p.returned + p.finished.toNat + p.dropped = p.reported
  tracked : p.toProcess = true ↔ p.loaded = true ∧ p.toTrack = false ∧ p.reported = p.dropped
  early : p.toTrack → p.reported = p.dropped

variable {m p} {t : Task}

theorem allTaskDone_iff {rest : List Task} (h : t :: rest <:+ m.tasks) : t.allTaskDone = true ↔ rest = [] := by
  obtain ⟨before, h⟩ := h
  have hlen : before.length + (rest.length + 1) = m.numTasks := by simpa [ReqMeta.tasks] using congrArg length h
  have ht : m.tasks[before.length]? = some t := by simp [← h]
  simp only [ReqMeta.tasks, getElem?_map, getElem?_range (show before.length < m.numTasks by omega), Option.map_some,
    Option.some.injEq] at ht
  rw [← ht, beq_iff_eq, ← length_eq_zero_iff]
  omega

theorem Counted.submit {rest : List Task} (h : p.Counted m) (hq : p.requestQueue = t :: rest) :
    ({ p with requestQueue := rest, submitted := t :: p.submitted }.markRequestTaskSubmitted t).Counted m := by
  obtain ⟨horder, hunloaded, htracking, hcount, hmarker, hreports, hkept⟩ := h
  simp only [ahead, hq, cons_append] at horder hunloaded hmarker hreports hkept
  have hlast := allTaskDone_iff horder
  refine ⟨(suffix_cons t _).trans horder, fun hl => absurd (hunloaded hl).2.1 (cons_ne_nil _ _), htracking, ?_, ?_,
    by simpa [markRequestTaskSubmitted] using hreports, fun hl t' ht' => ?_⟩
  · simp only [markRequestTaskSubmitted, hcount]
    split <;> simp [*]
  · rw [Bool.eq_iff_iff]
    simpa [markRequestTaskSubmitted, hmarker, ahead] using hlast
  · have hwhere := hkept hl t' ht'
    simp only [mem_cons, ahead, markRequestTaskSubmitted] at hwhere ⊢
    tauto

theorem handle_eq {count : Nat} (hcount : p.requestTaskCount = some count) (t : Task) (ok : Bool) : p.handle t ok =
    { p with
      received := if ok then t :: p.received else p.received
      failed := if ok then p.failed else t :: p.failed
      requestTaskCount := if count - 1 > 0 then some (count - 1) else none
      finishedRequestMarker := decide (count - 1 > 0) && p.finishedRequestMarker
      reporting := p.reporting + (!decide (count - 1 > 0) && p.finishedRequestMarker).toNat } := by
  cases ok <;> by_cases hleft : count - 1 > 0 <;> cases hm : p.finishedRequestMarker <;>
    simp [handle, markRequestTaskDone, hcount, hleft, hm]

theorem Counted.handle {i : Nat} (h : p.Counted m) (hk : p.Known) (hi : p.submitted[i]? = some t) (ok : Bool) :
    (Pull.handle { p with submitted := p.submitted.eraseIdx i } t ok).Counted m ∧
      (Pull.handle { p with submitted := p.submitted.eraseIdx i } t ok).Known := by
  obtain ⟨horder, hunloaded, htracking, hcount, hmarker, hreports, hkept⟩ := h
  obtain ⟨hlt, hti⟩ := List.getElem?_eq_some_iff.mp hi
  have hne : p.submitted ≠ [] := ne_nil_of_length_pos (by omega)
  have hloaded : p.loaded = true := by simpa using fun hl => hne (hunloaded hl).2.2
  have hlen := length_eraseIdx_of_lt hlt
  have hleft : p.submitted.length - 1 > 0 ↔ p.submitted.eraseIdx i ≠ [] := by
    rw [ne_eq, ← length_eq_zero_iff]
    omega
  rw [handle_eq (p := { p with submitted := p.submitted.eraseIdx i }) (hcount.trans (if_neg hne))]
  refine ⟨⟨horder, by simp [hloaded], htracking, ?_, ?_, ?_, fun hl t' ht' => ?_⟩, hk.once, hk.tracked, hk.early⟩
  · simp only [hleft, hlen, ne_eq, ite_not]
  · rw [Bool.eq_iff_iff]
    simp only [hleft, hmarker, hne, ahead, ne_eq, not_false_eq_true, and_true, Bool.and_eq_true, decide_eq_true_eq]
    exact and_comm.trans decide_eq_true_iff.symm
  · simp only [hleft, hmarker, hne, ahead, hloaded, ne_eq, not_false_eq_true, and_true, and_false, if_false, decide_not,
      Bool.not_not] at hreports ⊢
    by_cases hahead : p.requestQueue ++ p.toAdd = [] <;> by_cases hnil : p.submitted.eraseIdx i = [] <;>
      simp [hahead, hnil] <;> omega
  · have hwhere := hkept hl t' ht'
    rw [← (getElem_cons_eraseIdx_perm hlt).mem_iff, hti, mem_cons] at hwhere
    cases ok <;> simp only [mem_cons, if_true, if_false, Bool.false_eq_true] <;> tauto

theorem step_inv {act : Action} {q : Pull} (h : p.Counted m) (hk : p.Known) (hs : p.step m act = some q) :
    q.Counted m ∧ q.Known := by
  cases act with
  | startLoadKv =>
    obtain ⟨hl, rfl⟩ : p.loaded = false ∧ _ = q := by simpa [step] using hs
    obtain ⟨htrack, hahead, hsub⟩ := h.unloaded hl
    have hnil := append_eq_nil_iff.mp hahead
    have hne : m.tasks ≠ [] := by simpa [ReqMeta.tasks] using Nat.ne_of_gt m.numTasks_pos
    have hr : p.reporting = 0 ∧ p.reported = 0 := by simpa [hl] using h.reports
    have hd : p.dropped = 0 := by
      have := hk.once
      omega
    refine ⟨⟨by simp [ahead, hnil], by simp, by simp, h.count, ?_, ?_, fun _ t ht => ?_⟩, hk.once, ?_, fun _ => ?_⟩
    · simpa [ahead, hnil, hne, hsub] using h.marker
    · simp [ahead, hnil, hne, hr]
    · exact .inl (mem_append_right _ ht)
    · simpa [hl] using hk.tracked
    · simp [hr, hd]
  | addRequest =>
    simp only [step] at hs
    split at hs
    · cases hs
    · rename_i t rest hadd
      cases hs
      have hahead : p.requestQueue ++ [t] ++ rest = p.ahead := by simp [ahead, hadd]
      obtain ⟨horder, hunloaded, htracking, hcount, hmarker, hreports, hkept⟩ := h
      rw [← hahead] at horder hunloaded hmarker hreports hkept
      exact ⟨⟨horder, hunloaded, fun ht => absurd (htracking ht) (by simp [hadd]), hcount, hmarker, hreports, hkept⟩,
        hk.once, hk.tracked, hk.early⟩
  | addReqToProcess =>
    obtain ⟨⟨hadd, ht⟩, rfl⟩ : (p.toAdd = [] ∧ p.toTrack = true) ∧ _ = q := by simpa [step] using hs
    have hl : p.loaded = true := by simpa [ht] using fun hl => (h.unloaded hl).1
    exact ⟨⟨h.order, by simp [hl], fun _ => hadd, h.count, h.marker, h.reports, h.kept⟩, hk.once,
      by simp [hl, hk.early ht], by simp⟩
  | submit =>
    simp only [step] at hs
    split at hs
    · cases hs
    · rename_i hq
      cases hs
      exact ⟨h.submit hq, hk.once, hk.tracked, hk.early⟩
  | handle i ok =>
    obtain ⟨t, hi, rfl⟩ := Option.map_eq_some_iff.mp hs
    exact h.handle hk hi ok
  | report =>
    obtain ⟨hr, rfl⟩ : p.reporting ≠ 0 ∧ _ = q := by simpa [step] using hs
    have hsum : p.reporting - 1 + (p.reported + 1) = p.reporting + p.reported := by omega
    have honce := hk.once
    have hcounted (finished toProcess : Bool) (dropped : Nat) : Counted m
        { p with reporting := p.reporting - 1, reported := p.reported + 1, finished, toProcess, dropped } :=
      ⟨h.order, h.unloaded, h.tracking, h.count, h.marker, hsum.trans h.reports, h.kept⟩
    have hdrop : Known { p with reporting := p.reporting - 1, reported := p.reported + 1, dropped := p.dropped + 1 } :=
      ⟨congrArg (· + 1) honce, by simpa using hk.tracked, by simpa using hk.early⟩
    unfold updateDoneTaskCount
    split_ifs with hb ht
    · exact ⟨hcounted _ _ _, hdrop⟩
    · obtain ⟨-, htrack, heq⟩ := hk.tracked.mp ht
      -- Everything reported so far was dropped, so the request is not finished yet.
      have hfin : p.returned = 0 ∧ p.finished = false := by simpa [heq] using honce
      exact ⟨hcounted _ _ _, by simp [hfin, heq, Nat.add_comm], by simp [heq], by simp [htrack]⟩
    · exact ⟨hcounted _ _ _, hdrop⟩
  | getFinished =>
    cases hs
    exact ⟨⟨h.order, h.unloaded, h.tracking, h.count, h.marker, h.reports, h.kept⟩, by simpa using hk.once, hk.tracked, hk.early⟩

theorem step_failed {act : Action} {q : Pull} (hs : p.step m act = some q) (hok : ∀ i, act ≠ .handle i false) :
    q.failed = p.failed := by
  cases act <;> grind [step, handle, markRequestTaskDone, markRequestTaskSubmitted, updateDoneTaskCount]

theorem step_dropped {act : Action} {q : Pull} (hs : p.step m act = some q)
    (hok : act = .report → m.localBlockIds ≠ [] ∧ p.toProcess) : q.dropped = p.dropped := by
  cases act <;> grind [step, handle, markRequestTaskDone, markRequestTaskSubmitted, updateDoneTaskCount]

end Pull

/-! ## Runs of all requests -/

/-- `KVCacheRecvingThread` and the worker's main thread: the entries of every request id. -/
abbrev State := Nat → Pull

namespace State

variable (reqs : Nat → ReqMeta)

def init : State := fun _ => {}

def step (s : State) (a : Nat × Action) : Option State := ((s a.1).step (reqs a.1) a.2).map (Function.update s a.1)

def Each (ok : ReqMeta → Pull → Action → Prop) (s : State) (a : Nat × Action) : Prop := ok (reqs a.1) (s a.1) a.2

variable {reqs} {s : State} {ok : ReqMeta → Pull → Action → Prop}

instance [∀ m p act, Decidable (ok m p act)] (a : Nat × Action) : Decidable (Each reqs ok s a) :=
  inferInstanceAs (Decidable (ok _ _ _))

theorem inv_of_reaches (h : Reaches (step reqs) (Each reqs ok) init s) (r : Nat) (I : Pull → Prop) (h0 : I {})
    (hstep : ∀ p act q, I p → ok (reqs r) p act → p.step (reqs r) act = some q → I q) : I (s r) := by
  refine h.inv (fun s => I (s r)) h0 fun s a t hi hok hs => ?_
  obtain ⟨q, hq, rfl⟩ := Option.map_eq_some_iff.mp hs
  by_cases ha : r = a.1
  · subst ha
    simpa using hstep _ _ _ hi hok hq
  · simpa [ha] using hi

theorem inv (h : Reaches (step reqs) (Each reqs ok) init s) (r : Nat) : (s r).Counted (reqs r) ∧ (s r).Known :=
  inv_of_reaches h r (fun p => p.Counted (reqs r) ∧ p.Known)
    ⟨⟨nil_suffix, by simp [Pull.ahead], by simp, rfl, rfl, rfl, by simp⟩, rfl, by simp, by simp⟩
    fun _ _ _ hp _ hs => Pull.step_inv hp.1 hp.2 hs

theorem received_all (h : Reaches (step reqs) (Each reqs fun m _ => Pull.Pulls m) init s) (r : Nat) :
    (s r).ReceivedAll (reqs r) := by
  intro hret hb t ht
  have hfailed : (s r).failed = [] := by
    refine inv_of_reaches h r (·.failed = []) rfl fun p act q hp hok hs => (Pull.step_failed hs ?_).trans hp
    rintro i rfl
    exact Bool.false_ne_true (hok hb)
  obtain ⟨hc, hk⟩ := inv h r
  have honce := hk.once
  have hreports := hc.reports
  split_ifs at hreports with hdone
  · obtain ⟨hl, hahead, hsub⟩ := hdone
    simpa [hahead, hsub, hfailed] using hc.kept hl t ht
  · omega

def oneTask (_ : Nat) : ReqMeta := ⟨[[5]], 1, by decide⟩

/-- The thread pulls a request, and only then the tracker hears of it, or before. -/
def pulled (ok early : Bool) : List (Nat × Action) :=
  if early then [(0, .startLoadKv), (0, .addRequest), (0, .submit), (0, .handle 0 ok), (0, .report), (0, .addReqToProcess)]
  else [(0, .startLoadKv), (0, .addRequest), (0, .addReqToProcess), (0, .submit), (0, .handle 0 ok), (0, .report),
    (0, .getFinished)]

theorem received_all_one : ∃ s, run (step oneTask) init (pulled true false) = some s ∧ 0 < (s 0).returned ∧
    (s 0).ReceivedAll (oneTask 0) := by
  refine ⟨_, rfl, by decide, received_all (@RunOk.reaches _ _ _ _ (pulled true false) _ _ ?_ rfl) 0⟩
  simp [pulled, RunOk, Each, Pull.Pulls]

theorem failed_pull_returned : ∃ s, run (step oneTask) init (pulled false false) = some s ∧
    ¬ (s 0).ReceivedAll (oneTask 0) :=
  ⟨_, rfl, fun h => absurd (h (by decide) (by decide)) (by decide)⟩

theorem delivered_once (h : Reaches (step reqs) (Each reqs fun m p => p.Tracked m) init s) (r : Nat) :
    (s r).Delivered (reqs r) := by
  intro hl htrack hb hqueue hsub hrep
  have hdropped : (s r).dropped = 0 := inv_of_reaches h r (·.dropped = 0) rfl fun p act q hp hok hs =>
      (Pull.step_dropped hs fun hact => ⟨hb, hok hact hb⟩).trans hp
  obtain ⟨hc, honce, htracked, -⟩ := inv h r
  have hdone : (s r).reported = 1 := by
    simpa [hrep, hl, hsub, Pull.ahead, hqueue, hc.tracking htrack] using hc.reports
  rw [hdropped, hdone] at honce htracked
  exact ⟨honce, by simpa using htracked⟩

theorem delivered_once_one : ∃ s, run (step oneTask) init (pulled true false) = some s ∧ (s 0).returned = 1 ∧
    (s 0).Delivered (oneTask 0) := by
  refine ⟨_, rfl, by decide, delivered_once (@RunOk.reaches _ _ _ _ (pulled true false) _ _ ?_ rfl) 0⟩
  decide

theorem completed_pull_lost : ∃ s, run (step oneTask) init (pulled true true) = some s ∧
    ¬ (s 0).Delivered (oneTask 0) :=
  ⟨_, rfl, fun h => absurd (h rfl rfl (by decide) rfl rfl rfl) (by decide)⟩

end State

end VllmAscend.KvTransfer.MooncakeHybrid
