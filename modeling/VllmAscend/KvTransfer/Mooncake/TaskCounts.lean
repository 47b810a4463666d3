import VllmAscend.KvTransfer.Mooncake.Progress

/-!
# When a request is received completely

`request_task_counts` counts the tasks that are submitted and not done. The count may fall to zero before the last
task is submitted, and the last task may be done before others.
-/

namespace VllmAscend.KvTransfer.Mooncake

open List Option Finset Dict State Event

variable {cfg : Config}

/-! ## Counting -/

def ofRequest (r : ReqId) (t : Task) : Nat := if t.requestId = r then 1 else 0

theorem ofRequest_self (t : Task) : ofRequest t.requestId t = 1 := if_pos rfl

def countOf (r : ReqId) (l : List Task) : Nat := (l.map (ofRequest r)).sum

theorem countOf_cons (r : ReqId) (t : Task) (l : List Task) : countOf r (t :: l) = ofRequest r t + countOf r l := rfl

theorem countOf_append (r : ReqId) (l l' : List Task) : countOf r (l ++ l') = countOf r l + countOf r l' := by
  simp [countOf]

variable {l : List Task} {r : ReqId} {s : State}

theorem countOf_eq_zero : countOf r l = 0 ↔ ∀ t ∈ l, t.requestId ≠ r := by
  induction l with
  | nil => simp [countOf]
  | cons t l ih =>
    rw [countOf_cons, Nat.add_eq_zero_iff, ih]
    simp [ofRequest]

def pendingOf (r : ReqId) : Places Nat where
  queued := ofRequest r
  working
    | .check t | .fail t | .pull t | .reformat t _ | .done t => ofRequest r t
    | .report _ | .forget _ | .clear _ | .free _ | .freeing _ _ | .signal _ => 0
  check _ := rfl

def clearingOf (r : ReqId) : Places Nat where
  queued _ := 0
  working
    | .report t | .forget t | .clear t => ofRequest r t
    | .check _ | .fail _ | .pull _ | .reformat _ _ | .done _ | .free _ | .freeing _ _ | .signal _ => 0
  check _ := rfl

namespace Event

def completes (r : ReqId) : Event → Nat
  | .returned t _ => ofRequest r t
  | _ => 0

def completesAll (r : ReqId) : Event → Nat
  | .returned t allDone => if allDone then ofRequest r t else 0
  | _ => 0

end Event

namespace State

def taskCount (s : State) (r : ReqId) : Nat := countOf r s.loaded

def waiting (s : State) (r : ReqId) : Nat := countOf r s.requestQueue

def pending (s : State) (r : ReqId) : Nat := (pendingOf r).total s

def clearing (s : State) (r : ReqId) : Nat := (clearingOf r).total s

def completed (s : State) (r : ReqId) : Nat := (s.shared.log.map (Event.completes r)).sum

def returnedTrue (s : State) (r : ReqId) : Nat := (s.shared.log.map (Event.completesAll r)).sum

def Forgotten (s : State) (r : ReqId) : Prop :=
  r ∉ s.shared.requestTaskCounts.keys ∧ r ∉ s.shared.finishedRequestMarkers ∧
    r ∉ s.shared.failedRecvRequests

end State

/-! ## The last task of a request -/

/-- A task has the flag exactly if no task of its request comes after it. -/
def FlagLast : List Task → Prop
  | [] => True
  | t :: l => (t.allTaskDone = true ↔ countOf t.requestId l = 0) ∧ FlagLast l

theorem FlagLast.append {l' : List Task} (h : FlagLast l) (h' : FlagLast l')
    (hdisj : ∀ t ∈ l, countOf t.requestId l' = 0) : FlagLast (l ++ l') := by
  induction l with
  | nil => exact h'
  | cons t l ih =>
    rw [cons_append]
    refine ⟨?_, ih h.2 fun t ht => hdisj t (mem_cons_of_mem _ ht)⟩
    rw [countOf_append, hdisj t (by simp)]
    exact h.1

theorem flagLast_of_forall {t : Task} (hr : ∀ x ∈ l ++ [t], x.requestId = r)
    (hl : ∀ x ∈ l, x.allTaskDone = false) (ht : t.allTaskDone = true) : FlagLast (l ++ [t]) := by
  induction l with
  | nil => exact ⟨by simp [ht, countOf], trivial⟩
  | cons x l ih =>
    refine ⟨?_, ih (fun x hx => hr x (mem_cons_of_mem _ hx))
      fun x hx => hl x (mem_cons_of_mem _ hx)⟩
    have hx : x.requestId = t.requestId := (hr x (by simp)).trans (hr t (by simp)).symm
    have hpos : countOf x.requestId (l ++ [t]) ≠ 0 := fun h0 => countOf_eq_zero.mp h0 t (by simp) hx.symm
    simp [hl x (by simp), hpos]

namespace Load

theorem requestId_of_mem (l : Load) : ∀ t ∈ l.tasks, t.requestId = l.requestId := by
  intro t ht
  obtain ⟨shard, -, ht⟩ := mem_flatMap.mp ht
  obtain ⟨port, -, rfl⟩ := mem_map.mp ht
  rfl

theorem countOf_tasks {l : Load} {r : ReqId} (h : r ≠ l.requestId) : countOf r l.tasks = 0 :=
  countOf_eq_zero.mpr fun t ht => (l.requestId_of_mem t ht).trans_ne h.symm

theorem tasks_eq {l : Load} {pre : List Shard} {shard : Shard} {ports : List (Peer × List GroupPull)}
    {port : Peer × List GroupPull} (hshards : l.shards = pre ++ [shard])
    (hports : shard.remotePorts = ports ++ [port]) :
    ∃ init t, l.tasks = init ++ [t] ∧ t.allTaskDone = true ∧ ∀ x ∈ init, x.allTaskDone = false := by
  have htasks : l.tasks = (pre.zipIdx.flatMap fun s => s.1.remotePorts.zipIdx.map (l.task s)) ++
      (ports.zipIdx.map (l.task (shard, pre.length))) ++
        [l.task (shard, pre.length) (port, ports.length)] := by
    unfold tasks
    rw [hshards, zipIdx_append]
    simp [hports, zipIdx_append]
  refine ⟨_, _, htasks, ?_, ?_⟩
  · simp [task, hshards, hports]
  · intro x hx
    rcases mem_append.mp hx with hx | hx
    · obtain ⟨s, hs, hx⟩ := mem_flatMap.mp hx
      obtain ⟨q, -, rfl⟩ := mem_map.mp hx
      have hlt : s.2 < pre.length := by simpa using snd_lt_of_mem_zipIdx hs
      simp only [task, hshards, length_append, length_singleton, Bool.and_eq_false_iff, decide_eq_false_iff_not]
      exact .inl (by omega)
    · obtain ⟨q, hq, rfl⟩ := mem_map.mp hx
      have hlt : q.2 < ports.length := by simpa using snd_lt_of_mem_zipIdx hq
      simp only [task, hports, length_append, length_singleton, Bool.and_eq_false_iff, decide_eq_false_iff_not]
      exact .inr (by omega)

end Load

/-- A request is loaded once, and its last shard has a port. -/
def LoadOk (s : State) : Action → Prop
  | .startLoadKv l => s.taskCount l.requestId = 0 ∧
      ∃ shard, l.shards.getLast? = some shard ∧ shard.remotePorts ≠ []
  | _ => True

instance (s : State) : (a : Action) → Decidable (LoadOk s a)
  | .startLoadKv _ => inferInstanceAs (Decidable (_ ∧ _))
  | .submit | .startWorker | .handler _ _ => isTrue trivial

theorem LoadOk.flagLast {l : Load} (h : LoadOk s (.startLoadKv l)) :
    FlagLast l.tasks ∧ 0 < countOf l.requestId l.tasks := by
  obtain ⟨-, shard, hlast, hne⟩ := h
  obtain ⟨pre, hshards⟩ := getLast?_eq_some_iff.mp hlast
  have hports := dropLast_append_getLast hne
  obtain ⟨init, t, htasks, ht, hinit⟩ := Load.tasks_eq hshards hports.symm
  have hreq : ∀ x ∈ init ++ [t], x.requestId = l.requestId := htasks ▸ l.requestId_of_mem
  rw [htasks]
  refine ⟨flagLast_of_forall hreq hinit ht, ?_⟩
  rw [countOf_append, countOf_cons, ofRequest, if_pos (hreq t (by simp))]
  omega

/-! ## The invariant -/

structure Counted (s : State) (r : ReqId) : Prop where
  balance : s.taskCount r = s.waiting r + s.pending r + s.completed r
  counts : s.shared.requestTaskCounts.get? r = if s.pending r = 0 then none else some (s.pending r)
  marker : r ∈ s.shared.finishedRequestMarkers ↔ s.waiting r = 0 ∧ 0 < s.pending r
  returns : s.returnedTrue r =
    if s.waiting r = 0 ∧ s.pending r = 0 ∧ 0 < s.completed r then 1 else 0
  failed : r ∈ s.shared.failedRecvRequests → 0 < s.waiting r + s.pending r + s.clearing r

section Steps

variable {s s' : State} {r : ReqId}

variable (h : Counted s r)

include h

theorem Counted.congr (hn : s'.taskCount r = s.taskCount r)
    (hw : s'.waiting r = s.waiting r) (hp : s'.pending r = s.pending r)
    (hd : s'.completed r = s.completed r) (ht : s'.returnedTrue r = s.returnedTrue r)
    (hcounts : s'.shared.requestTaskCounts.get? r = s.shared.requestTaskCounts.get? r)
    (hmarkers : r ∈ s'.shared.finishedRequestMarkers ↔ r ∈ s.shared.finishedRequestMarkers)
    (hfailed : r ∈ s'.shared.failedRecvRequests → 0 < s.waiting r + s.pending r + s'.clearing r) :
    Counted s' r where
  balance := by rw [hn, hw, hp, hd, h.balance]
  counts := by rw [hcounts, hp, h.counts]
  marker := by rw [hmarkers, hw, hp, h.marker]
  returns := by rw [ht, hw, hp, hd, h.returns]
  failed hf := by
    rw [hw, hp]
    exact hfailed hf

theorem Counted.moves (hs : Moves s s') : Counted s' r := by
  obtain ⟨hqueue, hloaded, hshared, htotal⟩ := hs
  have hc : s'.clearing r = s.clearing r := htotal _ (clearingOf r)
  refine h.congr ?_ ?_ (htotal _ (pendingOf r)) ?_ ?_ (by rw [hshared]) (by rw [hshared]) ?_
  · rw [taskCount, hloaded, taskCount]
  · rw [waiting, hqueue, waiting]
  · rw [completed, hshared, completed]
  · rw [returnedTrue, hshared, returnedTrue]
  · rw [hshared, hc]
    exact h.failed

theorem Counted.load {l : Load} (hok : LoadOk s (.startLoadKv l)) : Counted (startLoadKv s l) r := by
  have hw : (startLoadKv s l).waiting r = s.waiting r + countOf r l.tasks := countOf_append r _ _
  have hn : (startLoadKv s l).taskCount r = s.taskCount r + countOf r l.tasks := countOf_append r _ _
  have hp : (startLoadKv s l).pending r = s.pending r := rfl
  have hd : (startLoadKv s l).completed r = s.completed r := rfl
  by_cases hr : r = l.requestId
  · subst hr
    have hfresh := hok.1
    have hpos := hok.flagLast.2
    have hbal := h.balance
    constructor
    · omega
    · exact h.counts
    · change _ ∈ s.shared.finishedRequestMarkers ↔ _
      rw [h.marker]
      omega
    · change s.returnedTrue _ = _
      rw [h.returns, hw, hp, hd, if_neg (by omega), if_neg (by omega)]
    · omega
  · have h0 := Load.countOf_tasks hr
    rw [h0, Nat.add_zero] at hw hn
    exact h.congr hn hw hp hd rfl rfl Iff.rfl h.failed

theorem Counted.submits (hflag : FlagLast s.requestQueue) (hs : Submits s s') : Counted s' r := by
  obtain ⟨t, hqueue, hloaded, hshared, htotal⟩ := hs
  have hp : s'.pending r = ofRequest r t + s.pending r := htotal _ (pendingOf r)
  have hc : s'.clearing r = s.clearing r := (htotal _ (clearingOf r)).trans (Nat.zero_add _)
  have hw : s.waiting r = ofRequest r t + s'.waiting r := by
    rw [waiting, hqueue]
    rfl
  have hn : s'.taskCount r = s.taskCount r := by rw [taskCount, hloaded, taskCount]
  have hd : s'.completed r = s.completed r := by rw [completed, hshared]; rfl
  have ht : s'.returnedTrue r = s.returnedTrue r := by rw [returnedTrue, hshared]; rfl
  have hbal := h.balance
  have hlast : t.allTaskDone = true ↔ countOf t.requestId s'.requestQueue = 0 := by
    rw [hqueue] at hflag
    exact hflag.1
  constructor
  · rw [hn, hp, hd]
    omega
  · rw [hshared, Shared.markRequestTaskSubmitted, get?_set, Dict.getD]
    split
    · rename_i hr
      subst hr
      rw [h.counts, hp, ofRequest_self]
      split <;> simp_all [Nat.add_comm]
    · rename_i hr
      rw [h.counts, hp, ofRequest, if_neg hr, Nat.zero_add]
  · rw [hshared, Shared.markRequestTaskSubmitted]
    by_cases hr : t.requestId = r
    · subst hr
      have hw0 : t.allTaskDone = true ↔ s'.waiting t.requestId = 0 := hlast
      have hnot : t.requestId ∉ s.shared.finishedRequestMarkers := by
        rw [h.marker, hw, ofRequest_self]
        omega
      rw [hp, ofRequest_self]
      split
      · rename_i hflagged
        simp only [mem_insert, true_or, true_iff]
        exact ⟨hw0.mp hflagged, by omega⟩
      · rename_i hflagged
        simp only [hnot, false_iff, not_and]
        exact fun h0 => absurd (hw0.mpr h0) hflagged
    · have h0 : ofRequest r t = 0 := if_neg hr
      rw [h0, Nat.zero_add] at hp hw
      rw [hp, ← hw, ← h.marker]
      split
      · simp [Ne.symm hr]
      · rfl
  · rw [ht, h.returns, hp, hd]
    by_cases hr : t.requestId = r
    · subst hr
      rw [ofRequest_self] at *
      rw [if_neg (by omega), if_neg (by omega)]
    · rw [ofRequest, if_neg hr, Nat.zero_add] at *
      rw [hw]
  · intro hf
    rw [hshared] at hf
    have := h.failed hf
    omega

omit h

theorem markRequestTaskDone_spec {t : Task} (h : Counted s t.requestId) (hpos : 0 < s.pending t.requestId) :
    (s.shared.markRequestTaskDone t.requestId t.allTaskDone).1 =
        decide (s.waiting t.requestId = 0 ∧ s.pending t.requestId = 1) ∧
      (s.shared.markRequestTaskDone t.requestId t.allTaskDone).2.requestTaskCounts.get? t.requestId =
        (if s.pending t.requestId = 1 then none else some (s.pending t.requestId - 1)) ∧
      (t.requestId ∈
        (s.shared.markRequestTaskDone t.requestId t.allTaskDone).2.finishedRequestMarkers ↔
          s.waiting t.requestId = 0 ∧ 1 < s.pending t.requestId) := by
  unfold Shared.markRequestTaskDone
  rw [h.counts, if_neg (by omega)]
  dsimp only
  split
  · refine ⟨?_, ?_, ?_⟩
    · rw [eq_comm, decide_eq_false_iff_not]
      omega
    · rw [get?_set, if_pos rfl, if_neg (by omega)]
    · rw [h.marker]
      omega
  · refine ⟨?_, ?_, ?_⟩
    · rw [decide_eq_decide, h.marker]
      omega
    · rw [get?_erase, if_pos rfl, if_pos (by omega)]
    · simp only [mem_erase, ne_eq, not_true_eq_false, false_and, false_iff]
      omega

theorem markRequestTaskDone_other (sh : Shared) (t : Task) (hr : t.requestId ≠ r) :
    (sh.markRequestTaskDone t.requestId t.allTaskDone).2.requestTaskCounts.get? r = sh.requestTaskCounts.get? r ∧
      (r ∈ (sh.markRequestTaskDone t.requestId t.allTaskDone).2.finishedRequestMarkers ↔
        r ∈ sh.finishedRequestMarkers) := by
  unfold Shared.markRequestTaskDone
  split
  · exact ⟨rfl, Iff.rfl⟩
  · split
    · exact ⟨by rw [get?_set, if_neg hr], Iff.rfl⟩
    · exact ⟨by rw [get?_erase, if_neg hr], by simp [Ne.symm hr]⟩

theorem markRequestTaskDone_keeps (sh : Shared) (t : Task) :
    (sh.markRequestTaskDone t.requestId t.allTaskDone).2.failedRecvRequests = sh.failedRecvRequests ∧
      (sh.markRequestTaskDone t.requestId t.allTaskDone).2.log = sh.log := by
  unfold Shared.markRequestTaskDone
  split
  · exact ⟨rfl, rfl⟩
  · split <;> exact ⟨rfl, rfl⟩

variable {w : Work} {w' : Option Work} {sh sh' : Shared}

theorem Handled.keeps (h : Handled cfg sh w w' sh') (hw : ∀ t, w ≠ .done t) (r : ReqId) :
    sh'.requestTaskCounts = sh.requestTaskCounts ∧ sh'.finishedRequestMarkers = sh.finishedRequestMarkers ∧
      (sh'.log.map (completes r)).sum = (sh.log.map (completes r)).sum ∧
      (sh'.log.map (completesAll r)).sum = (sh.log.map (completesAll r)).sum ∧
      (w'.map (pendingOf r).working).getD 0 = (pendingOf r).working w := by
  cases h with
  | done t => exact absurd rfl (hw t)
  | _ =>
    simp [Shared.record, Shared.markFailedRecvRequest, Shared.clearFailedRecvRequest, completes,
      completesAll, pendingOf]

theorem Handled.failed (h : Handled cfg sh w w' sh') (hw : ∀ t, w ≠ .done t) (hr : r ∈ sh'.failedRecvRequests) :
    0 < (pendingOf r).working w ∨ r ∈ sh.failedRecvRequests ∧
      (clearingOf r).working w = (w'.map (clearingOf r).working).getD 0 := by
  cases h with
  | fail t =>
    rcases mem_insert.mp hr with rfl | hr
    · exact .inl (Nat.one_pos.trans_eq (ofRequest_self t).symm)
    · exact .inr ⟨hr, rfl⟩
  | done t => exact absurd rfl (hw t)
  | clear t =>
    obtain ⟨hne, hr⟩ := mem_erase.mp hr
    exact .inr ⟨hr, if_neg (Ne.symm hne)⟩
  | _ => exact .inr ⟨hr, rfl⟩

theorem Counted.handles {a : Action} (h : Counted s r) (hs : Handles cfg s a s') : Counted s' r := by
  obtain ⟨w, ok, -, hqueue, hloaded, hshared, htotal⟩ := hs
  obtain ⟨restP, (hp : s.pending r = _), (hp' : s'.pending r = _)⟩ := htotal _ (pendingOf r)
  obtain ⟨restC, (hc : s.clearing r = _), (hc' : s'.clearing r = _)⟩ := htotal _ (clearingOf r)
  have hn : s'.taskCount r = s.taskCount r := by rw [taskCount, hloaded, taskCount]
  have hw : s'.waiting r = s.waiting r := by rw [waiting, hqueue, waiting]
  by_cases hdone : ∃ t, w = .done t
  · obtain ⟨t, rfl⟩ := hdone
    obtain ⟨hfailed, hlog⟩ := markRequestTaskDone_keeps s.shared t
    have hd : s'.completed r = ofRequest r t + s.completed r := by
      rw [completed, hshared]
      simp [Work.handle, Shared.record, hlog, completes, completed]
    have hpend : s'.pending r = restP := by
      rw [hp']
      simp only [Work.handle, map_some, getD_some]
      split <;> simp [pendingOf]
    have hpend₀ : s.pending r = ofRequest r t + restP := hp
    by_cases hr : t.requestId = r
    · subst hr
      rw [ofRequest_self] at hd hpend₀
      obtain ⟨hret, hcounts, hmarker⟩ := markRequestTaskDone_spec h (by omega)
      have ht : s'.returnedTrue t.requestId = (if s.waiting t.requestId = 0 ∧ s.pending t.requestId = 1
          then 1 else 0) + s.returnedTrue t.requestId := by
        rw [returnedTrue, hshared]
        simp only [Work.handle, Shared.record, hlog, hret, List.map_cons, List.sum_cons,
          completesAll, ofRequest_self, decide_eq_true_eq]
        rfl
      have hbal := h.balance
      have hret' := h.returns
      constructor
      · omega
      · rw [hshared]
        change (s.shared.markRequestTaskDone _ _).2.requestTaskCounts.get? _ = _
        rw [hcounts, hpend]
        simp only [hpend₀, Nat.add_comm 1, Nat.add_sub_cancel, Nat.add_eq_right]
      · rw [hshared]
        change _ ∈ (s.shared.markRequestTaskDone _ _).2.finishedRequestMarkers ↔ _
        rw [hmarker, hw, hpend]
        omega
      · rw [ht, hret', hw, hpend, hd, if_neg (show ¬ (_ ∧ s.pending t.requestId = 0 ∧ _) by omega)]
        by_cases h0 : s.waiting t.requestId = 0 ∧ s.pending t.requestId = 1
        · rw [if_pos h0, if_pos (by omega)]
        · rw [if_neg h0, if_neg (by omega)]
      · have hclear : s'.clearing t.requestId =
            (if s.waiting t.requestId = 0 ∧ s.pending t.requestId = 1 then 1 else 0) + restC := by
          rw [hc']
          simp only [Work.handle, hret, decide_eq_true_eq, map_some, getD_some]
          split <;> simp [clearingOf, ofRequest_self]
        rw [hw, hpend, hclear]
        split <;> omega
    · have h0 : ofRequest r t = 0 := if_neg hr
      obtain ⟨hcounts, hmarker⟩ := markRequestTaskDone_other s.shared t hr
      have hclear : s'.clearing r = s.clearing r := by
        rw [hc', hc]
        simp only [Work.handle, map_some, getD_some]
        split <;> simp [clearingOf, h0]
      refine h.congr hn hw (by omega) (by omega) ?_ ?_ ?_ ?_
      · rw [returnedTrue, hshared]
        simp [Work.handle, Shared.record, hlog, completesAll, h0, returnedTrue]
      · rw [hshared]
        exact hcounts
      · rw [hshared]
        exact hmarker
      · intro hf
        rw [hshared] at hf
        rw [hclear]
        exact h.failed (hfailed ▸ hf)
  · have hquiet : ∀ t, w ≠ .done t := fun t ht => hdone ⟨t, ht⟩
    obtain ⟨hcounts, hmarkers, hlog, hlogAll, hpend⟩ := (w.handled cfg s.shared ok).keeps hquiet r
    refine h.congr hn hw (by rw [hp', hp, hpend]) ?_ ?_ ?_ ?_ ?_
    · rw [completed, hshared, hlog, completed]
    · rw [returnedTrue, hshared, hlogAll, returnedTrue]
    · rw [hshared, hcounts]
    · rw [hshared, hmarkers]
    · intro hf
      rw [hshared] at hf
      rcases (w.handled cfg s.shared ok).failed hquiet hf with hpos | ⟨hf, hclear⟩
      · omega
      · have := h.failed hf
        omega

end Steps

structure Inv (s : State) : Prop where
  flagLast : FlagLast s.requestQueue
  counted : ∀ r, Counted s r

theorem Inv.init : Inv init where
  flagLast := trivial
  counted r := ⟨rfl, rfl, by simp [State.init, Shared.init, State.pending, Places.total,
    Places.submitter, Places.handlers], rfl, fun h => by simp [State.init, Shared.init] at h⟩

theorem Inv.step {s' : State} {a : Action} (h : Inv s) (hok : LoadOk s a) (hs : step cfg s a = some s') : Inv s' := by
  rcases step_cases hs with ⟨l, rfl, rfl⟩ | hs | hs | hs
  · refine ⟨h.flagLast.append hok.flagLast.1 ?_, fun r => (h.counted r).load hok⟩
    intro t ht
    refine Load.countOf_tasks fun hr => ?_
    have hbal := (h.counted l.requestId).balance
    rw [hok.1] at hbal
    exact countOf_eq_zero.mp (show countOf l.requestId s.requestQueue = 0 from by
      change s.waiting l.requestId = 0
      omega) t ht hr
  · obtain ⟨t, hqueue, -⟩ := id hs
    have hflag := h.flagLast
    rw [hqueue] at hflag
    exact ⟨hflag.2, fun r => (h.counted r).submits h.flagLast hs⟩
  · exact ⟨hs.1 ▸ h.flagLast, fun r => (h.counted r).moves hs⟩
  · obtain ⟨w, ok, -, hqueue, -⟩ := id hs
    exact ⟨hqueue ▸ h.flagLast, fun r => (h.counted r).handles hs⟩

/-! ## The result -/

theorem Inv.forgotten (h : Inv s) (hall : s.completed r = s.taskCount r)
    (hclear : s.clearing r = 0) : s.Forgotten r := by
  have hc := h.counted r
  have hbal := hc.balance
  refine ⟨?_, ?_, ?_⟩
  · rw [← get?_eq_none, hc.counts, if_pos (by omega)]
  · rw [hc.marker]
    omega
  · intro hf
    have := hc.failed hf
    omega

/-- In every state, `_mark_request_task_done` has returned `True` once for the requests all of whose
tasks are done, and never for the others. The threads come to rest with the bookkeeping empty. -/
theorem completion_exact (cfg : Config) {s : State} (h : Machine.Reaches (step cfg) LoadOk State.init s) :
    (∀ r, 0 < s.taskCount r → s.completed r ≤ s.taskCount r ∧
      s.returnedTrue r = if s.completed r = s.taskCount r then 1 else 0) ∧
    (∀ r, s.completed r = s.taskCount r → s.clearing r = 0 → s.Forgotten r) ∧
    (∀ acts s', Machine.run (step cfg) s acts = some s' →
      Machine.RunOk (step cfg) Internal s acts → acts.length ≤ s.fuel cfg) ∧
    (0 < cfg.maxWorkers → Quiescent cfg s → ∀ r, 0 < s.taskCount r →
      s.completed r = s.taskCount r ∧ s.returnedTrue r = 1 ∧ s.Forgotten r) := by
  have hinv : Inv s := h.inv Inv Inv.init fun t a u ht hok hs => ht.step hok hs
  have hserved : Served s := by
    refine h.inv Served ⟨?_, ?_⟩ fun t a u ht _ hs => ht.step hs
    · exact fun peer hne => absurd rfl hne
    · exact fun peer hp => by simp [init] at hp
  have hreturns : ∀ r, 0 < s.taskCount r → s.completed r ≤ s.taskCount r ∧
      s.returnedTrue r = if s.completed r = s.taskCount r then 1 else 0 := by
    intro r hpos
    have hc := hinv.counted r
    have hbal := hc.balance
    refine ⟨by omega, ?_⟩
    rw [hc.returns]
    by_cases hall : s.completed r = s.taskCount r
    · rw [if_pos hall, if_pos (by omega)]
    · rw [if_neg hall, if_neg (by omega)]
  refine ⟨hreturns, fun r => hinv.forgotten, fun acts s' hrun hacts => length_le_fuel hrun hacts, ?_⟩
  intro hw hq r hpos
  obtain ⟨hqueue, htotal⟩ := hserved.quiescent hw hq
  have hbal := (hinv.counted r).balance
  have hwait : s.waiting r = 0 := by rw [waiting, hqueue]; rfl
  have hpend : s.pending r = 0 := htotal (pendingOf r)
  have hall : s.completed r = s.taskCount r := by omega
  refine ⟨hall, ?_, hinv.forgotten hall (htotal (clearingOf r))⟩
  rw [(hreturns r hpos).2, if_pos hall]

def twoWorkers : Config := ⟨2, false, fun _ => false, id, fun _ _ => true, 0, 0⟩

def twoPorts : Load where
  requestId := 7
  remoteRequestId := 8
  shards := [⟨[(("p", 1), [⟨0, 0, 1, 0, true⟩]), (("p", 2), [⟨0, 0, 1, 0, true⟩])], [[5]]⟩]
  remotePortSendNum := []

def secondTaskFirst : List Action :=
  replicate 6 .submit ++ replicate 2 .startWorker ++
    replicate 9 (.handler 0 true) ++ replicate 12 (.handler 0 false)

theorem completion_exact_two_ports : ∃ s, Machine.run (step twoWorkers) State.init
    (.startLoadKv twoPorts :: secondTaskFirst) = some s ∧
      s.completed 7 = 2 ∧ s.returnedTrue 7 = 1 ∧ s.Forgotten 7 := by
  refine ⟨_, rfl, ?_⟩
  have hok : Machine.RunOk (step twoWorkers) LoadOk init (.startLoadKv twoPorts :: secondTaskFirst) := by decide
  have h := (completion_exact twoWorkers (hok.reaches rfl)).2.2.2 (by decide) ⟨rfl, rfl, rfl⟩ 7 (by decide)
  exact ⟨h.1, h.2⟩

end VllmAscend.KvTransfer.Mooncake
