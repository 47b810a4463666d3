import Mathlib.Data.Finset.Basic
import Mathlib.Tactic.Abel
import VllmAscend.Lib.Dict
import VllmAscend.Lib.Machine

/-!
# The receiving thread of the Mooncake connector

The decoder pulls a request in several tasks, one per remote port; the handlers of the peers work concurrently. A
step of the machine is what a thread does between two places where another one can interfere: one section under a
lock, one transfer, one message.
-/

namespace VllmAscend.KvTransfer.Mooncake

open List Dict

abbrev ReqId := Nat

abbrev Peer := String × Nat

structure GroupPull where
  groupId : Nat
  remoteTpOffset : Nat
  numGroupPulls : Nat
  prefillPpRank : Nat
  isGroupTransferEnd : Bool
  deriving DecidableEq

structure RemotePortInfo where
  num : Nat
  host : String
  deriving DecidableEq

/-- The `trans_info` of one task. `shard` and `portIdx` are the indices of the two loops of
`start_load_kv` it comes from; the source does not keep them. -/
structure Task where
  requestId : ReqId
  remoteRequestId : ReqId
  localBlockIds : List (List Nat)
  groupPulls : List GroupPull
  peer : Peer
  remotePortSendNum : List (Nat × RemotePortInfo)
  allTaskDone : Bool
  shard : Nat
  portIdx : Nat
  deriving DecidableEq

structure Shard where
  remotePorts : List (Peer × List GroupPull)
  localBlockIds : List (List Nat)

structure Load where
  requestId : ReqId
  remoteRequestId : ReqId
  shards : List Shard
  remotePortSendNum : List (Nat × RemotePortInfo)

namespace Load

def task (l : Load) (shard : Shard × Nat) (port : (Peer × List GroupPull) × Nat) : Task where
  requestId := l.requestId
  remoteRequestId := l.remoteRequestId
  localBlockIds := shard.1.localBlockIds
  groupPulls := port.1.2
  peer := port.1.1
  remotePortSendNum := l.remotePortSendNum
  allTaskDone := shard.2 + 1 = l.shards.length && port.2 + 1 = shard.1.remotePorts.length
  shard := shard.2
  portIdx := port.2

def tasks (l : Load) : List Task := l.shards.zipIdx.flatMap fun shard => shard.1.remotePorts.zipIdx.map (l.task shard)

end Load

/-! ## The state -/

/-- What a reformat works on: the blocks of one shard, in the layers of one group that one prefill
pipeline stage holds. -/
structure Target where
  requestId : ReqId
  shard : Nat
  groupId : Nat
  prefillPpRank : Nat
  deriving DecidableEq

inductive Event
  | pulled (task : Task)
  | reformatted (target : Target)
  | failed (task : Task)
  | returned (task : Task) (allDone : Bool)
  | finished (requestId : ReqId)
  | sent (peer : Peer) (remoteRequestId : ReqId)
  deriving DecidableEq

structure Shared where
  requestTaskCounts : Dict ReqId Nat
  finishedRequestMarkers : Finset ReqId
  failedRecvRequests : Finset ReqId
  invalidBlockIds : Finset Nat
  procNotTransferRequest : Dict ReqId Bool
  log : List Event

inductive Work
  | check (task : Task)
  | fail (task : Task)
  | pull (task : Task)
  | reformat (task : Task) (targets : List Target)
  | done (task : Task)
  | report (task : Task)
  | forget (task : Task)
  | clear (task : Task)
  | free (task : Task)
  | freeing (task : Task) (ports : List Peer)
  | signal (task : Task)

inductive Stage
  | poll
  | resubmit
  | busy (work : Work)

structure Handler where
  peer : Peer
  requestsHandled : Nat
  stage : Stage

inductive Submitter
  | idle
  | enqueue (task : Task)
  | start (peer : Peer)

structure State where
  requestQueue : List Task
  submitter : Submitter
  peerRequestQueues : Dict Peer (List Task)
  activePeerRequestHandlers : Finset Peer
  executorQueue : List Peer
  handlers : List Handler
  shared : Shared
  loaded : List Task

def Shared.init : Shared := ⟨∅, ∅, ∅, ∅, ∅, []⟩

def State.init : State := ⟨[], .idle, ∅, ∅, [], [], .init, []⟩

structure Config where
  maxWorkers : Nat
  isHmaRequired : Bool
  isMambaGroup : Nat → Bool
  kvCacheGroupId : Nat → Nat
  hasLayers : Nat → Nat → Bool
  sideChannelPort : Nat
  localHandshakePort : Nat

/-! ## Sections under a lock -/

namespace Shared

def record (sh : Shared) (e : Event) : Shared := { sh with log := e :: sh.log }

def markRequestTaskSubmitted (sh : Shared) (task : Task) : Shared :=
  { sh with
    requestTaskCounts := sh.requestTaskCounts.set task.requestId
      (sh.requestTaskCounts.getD task.requestId 0 + 1)
    finishedRequestMarkers :=
      if task.allTaskDone then insert task.requestId sh.finishedRequestMarkers
      else sh.finishedRequestMarkers }

def markRequestTaskDone (sh : Shared) (requestId : ReqId) (allTaskDone : Bool) : Bool × Shared :=
  match sh.requestTaskCounts.get? requestId with
  | none => (allTaskDone, sh)
  | some pendingCount =>
    if pendingCount - 1 > 0 then
      (false, { sh with requestTaskCounts := sh.requestTaskCounts.set requestId (pendingCount - 1) })
    else
      (decide (requestId ∈ sh.finishedRequestMarkers),
        { sh with
          requestTaskCounts := sh.requestTaskCounts.erase requestId
          finishedRequestMarkers := sh.finishedRequestMarkers.erase requestId })

def markFailedRecvRequest (sh : Shared) (task : Task) : Shared :=
  { sh with
    failedRecvRequests := insert task.requestId sh.failedRecvRequests
    invalidBlockIds := sh.invalidBlockIds ∪ (task.localBlockIds.headD []).toFinset }

def clearFailedRecvRequest (sh : Shared) (requestId : ReqId) : Shared :=
  { sh with failedRecvRequests := sh.failedRecvRequests.erase requestId }

end Shared

namespace Task

def numLocalBlocks (t : Task) : Nat := (t.localBlockIds.map List.length).sum

def target (t : Task) (p : GroupPull) : Target := ⟨t.requestId, t.shard, p.groupId, p.prefillPpRank⟩

def transfers (cfg : Config) (t : Task) : List GroupPull :=
  t.groupPulls.filter fun p => cfg.hasLayers p.groupId p.prefillPpRank &&
    (t.localBlockIds.getD (cfg.kvCacheGroupId p.groupId) []).length ≠ 0

def readyGroups (cfg : Config) (t : Task) : List GroupPull :=
  (t.transfers cfg).filter fun p => !cfg.isMambaGroup p.groupId && p.isGroupTransferEnd

/-- The head re-layouts after the transfer. Without a hybrid model all groups must agree on the
number of pulls; `error` is the exception otherwise. -/
def reformats (cfg : Config) (t : Task) : Except Unit (List Target) :=
  let ready := t.readyGroups cfg
  let gqaReformatGroups := (ready.filter fun p => p.numGroupPulls > 1).map t.target
  if cfg.isHmaRequired then .ok gqaReformatGroups
  else if (ready.map GroupPull.numGroupPulls).dedup.length > 1 then .error ()
  else .ok gqaReformatGroups

end Task

/-! ## `_handle_request` -/

def freePorts (t : Task) : List Peer := (t.remotePortSendNum.filter fun e => e.2.num = 0).map fun e => (e.2.host, e.1)

/-- The section under the lock of `_send_done_signal_to_free_remote_port`, with the ports it goes
on to send to. -/
def sendDoneSignalToFreeRemotePort (cfg : Config) (sh : Shared) (t : Task) : List Peer × Shared :=
  if cfg.sideChannelPort ≠ cfg.localHandshakePort ∨ t.remotePortSendNum = [] then ([], sh)
  else if sh.procNotTransferRequest.getD t.remoteRequestId true then
    (freePorts t, { sh with procNotTransferRequest := sh.procNotTransferRequest.set t.remoteRequestId false })
  else ([], sh)

/-- The next step of `_handle_request`; `none` when it has returned. `ok` is whether the transfer
or the reformat of this step succeeds. -/
def Work.handle (cfg : Config) (sh : Shared) (ok : Bool) : Work → Option Work × Shared
  | .check t => (some (if t.requestId ∈ sh.failedRecvRequests then .fail t else .pull t), sh)
  | .fail t => (some (.done t), (sh.markFailedRecvRequest t).record (.failed t))
  | .pull t =>
    if t.numLocalBlocks = 0 then (some (.done t), sh)
    else if ok then
      if t.transfers cfg = [] then (some (.done t), sh)
      else
        match t.reformats cfg with
        | .ok targets => (some (.reformat t targets), sh.record (.pulled t))
        | .error _ => (some (.fail t), sh.record (.pulled t))
    else (some (.fail t), sh)
  | .reformat t [] => (some (.done t), sh)
  | .reformat t (target :: targets) =>
    if ok then (some (.reformat t targets), sh.record (.reformatted target))
    else (some (.fail t), sh)
  | .done t =>
    let (allDone, sh) := sh.markRequestTaskDone t.requestId t.allTaskDone
    (some (if allDone then .report t else .free t), sh.record (.returned t allDone))
  | .report t => (some (.forget t), sh.record (.finished t.requestId))
  | .forget t =>
    (some (.clear t), { sh with procNotTransferRequest := sh.procNotTransferRequest.erase t.remoteRequestId })
  | .clear t => (some (.free t), sh.clearFailedRecvRequest t.requestId)
  | .free t =>
    let (ports, sh) := sendDoneSignalToFreeRemotePort cfg sh t
    (some (.freeing t ports), sh)
  | .freeing t [] => (some (.signal t), sh)
  | .freeing t (port :: ports) => (some (.freeing t ports), sh.record (.sent port t.remoteRequestId))
  | .signal t => (none, sh.record (.sent t.peer t.remoteRequestId))

/-! ## The threads -/

def maxRequestsPerPeerHandler : Nat := 5

inductive Action
  | startLoadKv (load : Load)
  | submit
  | startWorker
  | handler (i : Nat) (ok : Bool)

def startLoadKv (s : State) (load : Load) : State :=
  { s with requestQueue := s.requestQueue ++ load.tasks, loaded := s.loaded ++ load.tasks }

def submit (s : State) : Option State :=
  match s.submitter with
  | .idle =>
    match s.requestQueue with
    | [] => none
    | t :: rest =>
      some { s with
        requestQueue := rest
        submitter := .enqueue t
        shared := s.shared.markRequestTaskSubmitted t }
  | .enqueue t =>
    let queues := s.peerRequestQueues.set t.peer (s.peerRequestQueues.getD t.peer [] ++ [t])
    if t.peer ∈ s.activePeerRequestHandlers then
      some { s with peerRequestQueues := queues, submitter := .idle }
    else
      some { s with
        peerRequestQueues := queues
        activePeerRequestHandlers := insert t.peer s.activePeerRequestHandlers
        submitter := .start t.peer }
  | .start peer => some { s with executorQueue := s.executorQueue ++ [peer], submitter := .idle }

def startWorker (cfg : Config) (s : State) : Option State :=
  match s.executorQueue with
  | [] => none
  | peer :: rest =>
    if s.handlers.length < cfg.maxWorkers then
      some { s with executorQueue := rest, handlers := ⟨peer, 0, .poll⟩ :: s.handlers }
    else none

def State.retire (s : State) (peer : Peer) : State :=
  { s with
    peerRequestQueues := s.peerRequestQueues.erase peer
    activePeerRequestHandlers := s.activePeerRequestHandlers.erase peer }

def stepHandler (cfg : Config) (s : State) (h : Handler) (ok : Bool) : State :=
  match h.stage with
  | .poll =>
    match s.peerRequestQueues.getD h.peer [] with
    | [] => s.retire h.peer
    | t :: rest =>
      if h.requestsHandled < maxRequestsPerPeerHandler then
        { s with
          peerRequestQueues := s.peerRequestQueues.set h.peer rest
          handlers := ⟨h.peer, h.requestsHandled + 1, .busy (.check t)⟩ :: s.handlers }
      else { s with handlers := { h with stage := .resubmit } :: s.handlers }
  | .resubmit => { s with executorQueue := s.executorQueue ++ [h.peer] }
  | .busy work =>
    let (work, shared) := work.handle cfg s.shared ok
    { s with
      shared := shared
      handlers := { h with stage := (work.map .busy).getD .poll } :: s.handlers }

def step (cfg : Config) (s : State) : Action → Option State
  | .startLoadKv load => some (startLoadKv s load)
  | .submit => submit s
  | .startWorker => startWorker cfg s
  | .handler i ok => (s.handlers[i]?).map fun h => stepHandler cfg { s with handlers := s.handlers.eraseIdx i } h ok

/-! ## Places -/

section Places

variable {M : Type} [AddCommMonoid M]

theorem sum_map_eraseIdx {l : List Handler} {i : Nat} {h : Handler} (f : Handler → M) (hi : l[i]? = some h) :
    (l.map f).sum = f h + ((l.eraseIdx i).map f).sum := by
  obtain ⟨hlt, rfl⟩ := List.getElem?_eq_some_iff.mp hi
  exact ((getElem_cons_eraseIdx_perm hlt).symm.map _).sum_eq

structure Places (M : Type) [AddCommMonoid M] where
  queued : Task → M
  working : Work → M
  check : ∀ t, working (.check t) = queued t

namespace Places

variable (p : Places M)

def stage : Stage → M
  | .poll => 0
  | .resubmit => 0
  | .busy w => p.working w

def submitter : Submitter → M
  | .idle => 0
  | .enqueue t => p.queued t
  | .start _ => 0

def handlers (l : List Handler) : M := (l.map fun h => p.stage h.stage).sum

def total (s : State) : M :=
  p.submitter s.submitter + s.peerRequestQueues.sumBy (fun l => (l.map p.queued).sum) +
    p.handlers s.handlers

theorem handlers_cons (h : Handler) (l : List Handler) : p.handlers (h :: l) = p.stage h.stage + p.handlers l := rfl

theorem handlers_eraseIdx {l : List Handler} {i : Nat} {h : Handler} (hi : l[i]? = some h) :
    p.handlers l = p.stage h.stage + p.handlers (l.eraseIdx i) := sum_map_eraseIdx _ hi

end Places

end Places

/-! ## What a step can do -/

def Submits (s s' : State) : Prop :=
  ∃ t, s.requestQueue = t :: s'.requestQueue ∧ s'.loaded = s.loaded ∧
    s'.shared = s.shared.markRequestTaskSubmitted t ∧
    ∀ (M : Type) [AddCommMonoid M] (p : Places M), p.total s' = p.queued t + p.total s

def Moves (s s' : State) : Prop :=
  s'.requestQueue = s.requestQueue ∧ s'.loaded = s.loaded ∧ s'.shared = s.shared ∧
    ∀ (M : Type) [AddCommMonoid M] (p : Places M), p.total s' = p.total s

def Handles (cfg : Config) (s : State) (a : Action) (s' : State) : Prop :=
  ∃ w ok, (∃ i h, a = .handler i ok ∧ s.handlers[i]? = some h ∧ h.stage = .busy w) ∧
    s'.requestQueue = s.requestQueue ∧ s'.loaded = s.loaded ∧
    s'.shared = (w.handle cfg s.shared ok).2 ∧
    ∀ (M : Type) [AddCommMonoid M] (p : Places M), ∃ rest,
      p.total s = p.working w + rest ∧
      p.total s' = ((w.handle cfg s.shared ok).1.map p.working).getD 0 + rest

inductive Handled (cfg : Config) (sh : Shared) : Work → Option Work → Shared → Prop
  | refuse (t : Task) (h : t.requestId ∈ sh.failedRecvRequests) : Handled cfg sh (.check t) (some (.fail t)) sh
  | accept (t : Task) : Handled cfg sh (.check t) (some (.pull t)) sh
  | fail (t : Task) : Handled cfg sh (.fail t) (some (.done t)) ((sh.markFailedRecvRequest t).record (.failed t))
  | empty (t : Task) (h : t.numLocalBlocks = 0 ∨ t.transfers cfg = []) : Handled cfg sh (.pull t) (some (.done t)) sh
  | pulled (t : Task) {targets : List Target} (h : t.reformats cfg = .ok targets) :
    Handled cfg sh (.pull t) (some (.reformat t targets)) (sh.record (.pulled t))
  | unlike (t : Task) : Handled cfg sh (.pull t) (some (.fail t)) (sh.record (.pulled t))
  | lost (t : Task) : Handled cfg sh (.pull t) (some (.fail t)) sh
  | reformatted (t : Task) (x : Target) (xs : List Target) :
    Handled cfg sh (.reformat t (x :: xs)) (some (.reformat t xs)) (sh.record (.reformatted x))
  | broken (t : Task) (xs : List Target) : Handled cfg sh (.reformat t xs) (some (.fail t)) sh
  | ready (t : Task) : Handled cfg sh (.reformat t []) (some (.done t)) sh
  | done (t : Task) : Handled cfg sh (.done t)
      (some (if (sh.markRequestTaskDone t.requestId t.allTaskDone).1 then .report t else .free t))
      ((sh.markRequestTaskDone t.requestId t.allTaskDone).2.record
        (.returned t (sh.markRequestTaskDone t.requestId t.allTaskDone).1))
  | report (t : Task) : Handled cfg sh (.report t) (some (.forget t)) (sh.record (.finished t.requestId))
  | forget (t : Task) (d : Dict ReqId Bool) :
    Handled cfg sh (.forget t) (some (.clear t)) { sh with procNotTransferRequest := d }
  | clear (t : Task) : Handled cfg sh (.clear t) (some (.free t)) (sh.clearFailedRecvRequest t.requestId)
  | free (t : Task) {ports : List Peer} (d : Dict ReqId Bool) (h : ports.length ≤ (freePorts t).length) :
    Handled cfg sh (.free t) (some (.freeing t ports)) { sh with procNotTransferRequest := d }
  | freeing (t : Task) (port : Peer) (ports : List Peer) :
    Handled cfg sh (.freeing t (port :: ports)) (some (.freeing t ports)) (sh.record (.sent port t.remoteRequestId))
  | freed (t : Task) : Handled cfg sh (.freeing t []) (some (.signal t)) sh
  | signal (t : Task) : Handled cfg sh (.signal t) none (sh.record (.sent t.peer t.remoteRequestId))

theorem Work.handled (cfg : Config) (sh : Shared) (ok : Bool) (w : Work) :
    Handled cfg sh w (w.handle cfg sh ok).1 (w.handle cfg sh ok).2 := by
  cases w with
  | check t =>
    simp only [Work.handle]
    split
    · exact .refuse t (by assumption)
    · exact .accept t
  | pull t =>
    simp only [Work.handle]
    split_ifs with hblocks _ htransfers
    · exact .empty t (.inl hblocks)
    · exact .empty t (.inr htransfers)
    · split
      · exact .pulled t (by assumption)
      · exact .unlike t
    · exact .lost t
  | reformat t targets =>
    cases targets with
    | nil => exact .ready t
    | cons x xs =>
      simp only [Work.handle]
      split
      · exact .reformatted t x xs
      · exact .broken t _
  | free t =>
    simp only [Work.handle, sendDoneSignalToFreeRemotePort]
    split_ifs
    · exact .free t sh.procNotTransferRequest (Nat.zero_le _)
    · exact .free t _ le_rfl
    · exact .free t sh.procNotTransferRequest (Nat.zero_le _)
  | freeing t ports => cases ports <;> constructor
  | fail t | done t | report t | forget t | clear t | signal t => constructor

section Queues

variable {M : Type} [AddCommMonoid M] (f : Task → M) (d : Dict Peer (List Task)) (peer : Peer)

abbrev weigh : M := d.sumBy fun l => (l.map f).sum

theorem sumBy_getD : weigh f d = ((d.getD peer []).map f).sum + weigh f (d.erase peer) := by
  cases hget : d.get? peer with
  | none =>
    have hkeys : peer ∉ d.keys := get?_eq_none.mp hget
    rw [Dict.getD, hget, d.erase_of_not_mem hkeys]
    simp
  | some l =>
    rw [Dict.getD, hget, weigh, ← sumBy_erase _ hget, add_comm]
    rfl

theorem sumBy_set_queue (l : List Task) : weigh f (d.set peer l) = (l.map f).sum + weigh f (d.erase peer) := by
  rw [sumBy_getD f (d.set peer l) peer, erase_set, Dict.getD, get?_set, if_pos rfl]
  rfl

theorem sumBy_enqueue (t : Task) : weigh f (d.set peer (d.getD peer [] ++ [t])) = f t + weigh f d := by
  rw [sumBy_set_queue, sumBy_getD f d peer]
  simp only [map_append, sum_append, map_cons, map_nil, sum_cons, sum_nil]
  abel

theorem sumBy_dequeue {t : Task} {rest : List Task} (h : d.getD peer [] = t :: rest) :
    weigh f d = f t + weigh f (d.set peer rest) := by
  rw [sumBy_set_queue, sumBy_getD f d peer, h]
  simp only [map_cons, sum_cons]
  abel

theorem sumBy_erase_queue (h : d.getD peer [] = []) : weigh f (d.erase peer) = weigh f d := by
  rw [sumBy_getD f d peer, h]
  simp

end Queues

variable {s s' : State} {cfg : Config}

theorem submit_cases (h : submit s = some s') : Submits s s' ∨ Moves s s' := by
  unfold submit at h
  split at h
  · rename_i hsub
    split at h
    · cases h
    · rename_i t rest hqueue
      cases h
      refine .inl ⟨t, hqueue, rfl, rfl, fun M _ p => ?_⟩
      simp only [Places.total, Places.submitter, hsub]
      abel
  · rename_i t hsub
    split at h
    all_goals
      cases h
      refine .inr ⟨rfl, rfl, rfl, fun M _ p => ?_⟩
      simp only [Places.total, Places.submitter, hsub, sumBy_enqueue]
      abel
  · rename_i peer hsub
    cases h
    refine .inr ⟨rfl, rfl, rfl, fun M _ p => ?_⟩
    simp only [Places.total, Places.submitter, hsub]

theorem startWorker_moves (h : startWorker cfg s = some s') : Moves s s' := by
  unfold startWorker at h
  split at h
  · cases h
  · split at h
    · cases h
      refine ⟨rfl, rfl, rfl, fun M _ p => ?_⟩
      simp only [Places.total, Places.handlers_cons, Places.stage, zero_add]
    · cases h

theorem stepHandler_cases {h : Handler} {i : Nat} {ok : Bool} (hi : s.handlers[i]? = some h) :
    Moves s (stepHandler cfg { s with handlers := s.handlers.eraseIdx i } h ok) ∨
      Handles cfg s (.handler i ok) (stepHandler cfg { s with handlers := s.handlers.eraseIdx i } h ok) := by
  unfold stepHandler
  split
  · rename_i hstage
    left
    have hzero : ∀ (M : Type) [AddCommMonoid M] (p : Places M),
        p.handlers s.handlers = p.handlers (s.handlers.eraseIdx i) := by
      intro M _ p
      rw [p.handlers_eraseIdx hi, hstage, Places.stage, zero_add]
    split
    · rename_i hempty
      refine ⟨rfl, rfl, rfl, fun M _ p => ?_⟩
      simp only [Places.total, State.retire, hzero, sumBy_erase_queue _ _ _ hempty]
    · rename_i t rest hqueue
      split
      · refine ⟨rfl, rfl, rfl, fun M _ p => ?_⟩
        simp only [Places.total, hzero, Places.handlers_cons, Places.stage, p.check,
          sumBy_dequeue p.queued _ _ hqueue]
        abel
      · refine ⟨rfl, rfl, rfl, fun M _ p => ?_⟩
        simp only [Places.total, hzero, Places.handlers_cons, Places.stage, zero_add]
  · rename_i hstage
    left
    refine ⟨rfl, rfl, rfl, fun M _ p => ?_⟩
    simp only [Places.total]
    rw [p.handlers_eraseIdx hi, hstage, Places.stage, zero_add]
  · rename_i w hstage
    right
    refine ⟨w, ok, ⟨i, h, rfl, hi, hstage⟩, rfl, rfl, rfl, fun M _ p => ?_⟩
    refine ⟨p.submitter s.submitter + s.peerRequestQueues.sumBy (fun l => (l.map p.queued).sum) +
      p.handlers (s.handlers.eraseIdx i), ?_, ?_⟩
    · simp only [Places.total]
      rw [p.handlers_eraseIdx hi, hstage, Places.stage]
      abel
    · have hstage' : p.stage (((w.handle cfg s.shared ok).1.map Stage.busy).getD .poll) =
          ((w.handle cfg s.shared ok).1.map p.working).getD 0 := by
        cases (w.handle cfg s.shared ok).1 <;> rfl
      simp only [Places.total, Places.handlers_cons, hstage']
      abel

theorem step_cases {a : Action} (h : step cfg s a = some s') : (∃ l, a = .startLoadKv l ∧ s' = startLoadKv s l) ∨
      Submits s s' ∨ Moves s s' ∨ Handles cfg s a s' := by
  cases a with
  | startLoadKv l => exact .inl ⟨l, rfl, (Option.some.inj h).symm⟩
  | submit => exact .inr ((submit_cases h).imp_right .inl)
  | startWorker => exact .inr (.inr (.inl (startWorker_moves h)))
  | handler i ok =>
    obtain ⟨hd, hi, rfl⟩ := Option.map_eq_some_iff.mp h
    exact .inr (.inr (stepHandler_cases hi))

end VllmAscend.KvTransfer.Mooncake
