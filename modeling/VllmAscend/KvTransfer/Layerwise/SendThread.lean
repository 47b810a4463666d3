import Mathlib.Data.Finset.Basic
import VllmAscend.Lib.Exec
import VllmAscend.Lib.Machine
import VllmAscend.KvTransfer.Layerwise.Scheduler

/-!
# The sending thread of the layerwise connector

The thread writes the blocks of all requests with one destination at once, layer after layer, and then signals every
request whose last chunk this was to its decoder, as sent or as failed. What the environment decides is an argument
of the step it belongs to.
-/

namespace VllmAscend.KvTransfer.Layerwise.SendThread

structure SendMeta where
  localBlockIds : List (List Nat)
  remoteEngineId : Nat
  remoteHost : String
  remotePort : Nat
  remoteTeRpcPort : Option Nat
  chunkFinish : Bool

abbrev SessionId := String × Option Nat

namespace SendMeta

def hasBlocks (m : SendMeta) (group : Nat) : Bool := (m.localBlockIds.getD group []).length ≠ 0

def sessionId (m : SendMeta) : SessionId := (m.remoteHost, m.remoteTeRpcPort)

end SendMeta

/-- How a query for the metadata of a decoder ends. `linkFailed`: the answer is stored, and
creating the link raises. -/
inductive Reply
  | failed
  | answered (teRpcPort : Nat)
  | linkFailed (teRpcPort : Nat)

abbrev KnownDecoders := Dict (Nat × Nat) Nat

def updateDecoderInfo (reply : Reply) (m : SendMeta) : Exec Unit KnownDecoders SendMeta :=
  fun known =>
    match known.get? (m.remoteEngineId, m.remotePort), reply with
    | some port, _ => (.ok { m with remoteTeRpcPort := some port }, known)
    | none, .failed => (.error (), known)
    | none, .answered port =>
      (.ok { m with remoteTeRpcPort := some port }, known.set (m.remoteEngineId, m.remotePort) port)
    | none, .linkFailed port => (.error (), known.set (m.remoteEngineId, m.remotePort) port)

/-- `requests` is not a field of the source: it keeps which requests the layer is due for. -/
structure SendTask where
  layerIdx : Nat
  group : Nat
  requests : Dict ReqId SendMeta
  sendRequest : Dict ReqId SendMeta

def addRequest (group : Nat) (reply : ReqId → Reply) (acc : KnownDecoders × Dict ReqId SendMeta)
    (entry : ReqId × SendMeta) : KnownDecoders × Dict ReqId SendMeta :=
  if entry.2.hasBlocks group then
    match updateDecoderInfo (reply entry.1) entry.2 acc.1 with
    | (.ok m, known) => (known, acc.2.set entry.1 m)
    | (.error _, known) => (known, acc.2)
  else acc

/-! ## `_transfer_kv_cache` -/

inductive WriteResult
  | ok
  | failed
  | raised
  deriving DecidableEq

abbrev Copy := Nat × Nat × Nat

/-- What the environment does while a task is handled: whether the copies to the buffers and the
waiting for the stream return, the addresses `get_transfer_meta` computes (`none` when it raises),
and what `batch_transfer_sync_write` returns for each session. -/
structure Outcome where
  staged : Bool
  transferMeta : ReqId → Option (List Copy)
  synced : Bool
  write : SessionId → WriteResult

structure TransferMeta where
  copies : List Copy
  reqIds : List ReqId

abbrev Sessions := Dict SessionId TransferMeta

def mergeRequest (o : Outcome) (sessions : Sessions) (entry : ReqId × SendMeta) :
    Except Unit Sessions :=
  let session := sessions.getD entry.2.sessionId ⟨[], []⟩
  match o.transferMeta entry.1 with
  | none => .error ()
  | some copies => .ok (sessions.set entry.2.sessionId ⟨session.copies ++ copies, session.reqIds ++ [entry.1]⟩)

def merge (o : Outcome) : List (ReqId × SendMeta) → Sessions → Except Unit Sessions
  | [], sessions => .ok sessions
  | entry :: rest, sessions => mergeRequest o sessions entry >>= merge o rest

/-- `reqId` is the loop variable `req_id`, which outlives its loops. `carried` and `signals` record
the requests of successful writes and the calls of `send_done_send_signal`. -/
structure Thread where
  failedReqs : Finset ReqId
  reqId : ReqId
  carried : List ReqId
  signals : List (ReqId × Bool)

namespace Thread

def start (failedReqs : Finset ReqId) : Thread := ⟨failedReqs, 0, [], []⟩

def setReqId (t : Thread) (reqId : ReqId) : Thread := { t with reqId := reqId }

def fail (t : Thread) : Thread := { t with failedReqs := insert t.reqId t.failedReqs }

def carry (t : Thread) (reqIds : List ReqId) : Thread := { t with carried := t.carried ++ reqIds }

def signal (t : Thread) : Thread :=
  if t.reqId ∈ t.failedReqs then
    { t with
      signals := t.signals ++ [(t.reqId, false)]
      failedReqs := t.failedReqs.erase t.reqId }
  else { t with signals := t.signals ++ [(t.reqId, true)] }

end Thread

def SendTask.finishes (task : SendTask) (reqId : ReqId) : Bool :=
  ((task.sendRequest.get? reqId).map (·.chunkFinish)).getD false

def signalRequest (task : SendTask) (t : Thread) (reqId : ReqId) : Thread :=
  let t := t.setReqId reqId
  if task.finishes reqId then t.signal else t

def SendTask.isLastLayer (totalLayers : Nat) (task : SendTask) : Bool := task.layerIdx + 1 = totalLayers

def writeSession (o : Outcome) (session : SessionId × TransferMeta) : Exec Unit Thread Unit :=
  match o.write session.1 with
  | .raised => Exec.raise ()
  | .failed => Exec.modify Thread.fail
  | .ok => Exec.modify fun t => t.carry session.2.reqIds

def transferSession (totalLayers : Nat) (task : SendTask) (o : Outcome)
    (session : SessionId × TransferMeta) : Exec Unit Thread Unit :=
  Exec.when (session.2.copies.length > 0) do
    writeSession o session
    Exec.when (task.isLastLayer totalLayers)
      (Exec.forEach session.2.reqIds fun reqId => Exec.modify fun t => signalRequest task t reqId)

def transferKvCache (totalLayers : Nat) (task : SendTask) (o : Outcome) : Exec Unit Thread Unit := do
  Exec.require o.staged ()
  let sessions ← Exec.ofExcept (merge o task.sendRequest.entries ∅)
  Exec.modify fun t => t.setReqId (task.sendRequest.keys.getLast?.getD t.reqId)
  Exec.require o.synced ()
  Exec.forEach sessions.entries (transferSession totalLayers task o)

/-! ## The two threads together -/

/-- What came of one layer: the requests it was due for, those whose push ended with it, those a
successful write carried, and the signals. -/
structure Handled where
  due : List ReqId
  finishing : List ReqId
  carried : List ReqId
  signals : List (ReqId × Bool)

namespace SendTask

def due (task : SendTask) : List ReqId :=
  (task.requests.entries.filter fun e => e.2.hasBlocks task.group).map Prod.fst

def finishing (totalLayers : Nat) (task : SendTask) : List ReqId :=
  if task.isLastLayer totalLayers then
    (task.requests.entries.filter fun e => e.2.chunkFinish).map Prod.fst
  else []

end SendTask

structure Config where
  totalLayers : Nat
  sendQueueSize : Nat

structure State where
  requests : Dict ReqId SendMeta
  currentLayer : Nat
  known : KnownDecoders
  sendQueue : List SendTask
  failedReqs : Finset ReqId
  log : List Handled

def State.init : State := ⟨∅, 0, ∅, [], ∅, []⟩

inductive Action
  | startLoadKv (requests : Dict ReqId SendMeta)
  | saveKvLayer (group : Nat) (reply : ReqId → Reply)
  | handleRequest (outcome : Outcome)

def startLoadKv (s : State) (requests : Dict ReqId SendMeta) : State :=
  { s with requests := requests, currentLayer := 0 }

def State.queueFull (cfg : Config) (s : State) : Bool :=
  cfg.sendQueueSize ≠ 0 && cfg.sendQueueSize ≤ s.sendQueue.length

/-- `none` while `put` waits for a place in the queue. -/
def saveKvLayer (cfg : Config) (s : State) (group : Nat) (reply : ReqId → Reply) : Option State :=
  if s.requests.keys = [] then some s
  else if cfg.totalLayers ≤ s.currentLayer then
    some { s with currentLayer := s.currentLayer + 1 }
  else if s.queueFull cfg then none
  else
    let acc := s.requests.entries.foldl (addRequest group reply) (s.known, ∅)
    some { s with
      known := acc.1
      sendQueue := s.sendQueue ++ [⟨s.currentLayer, group, s.requests, acc.2⟩]
      currentLayer := s.currentLayer + 1 }

def handleTask (cfg : Config) (s : State) (task : SendTask) (rest : List SendTask) (o : Outcome) :
    State :=
  let t := (transferKvCache cfg.totalLayers task o (Thread.start s.failedReqs)).2
  { s with
    sendQueue := rest
    failedReqs := t.failedReqs
    log := ⟨task.due, task.finishing cfg.totalLayers, t.carried, t.signals⟩ :: s.log }

def step (cfg : Config) (s : State) : Action → Option State
  | .startLoadKv requests => some (startLoadKv s requests)
  | .saveKvLayer group reply => saveKvLayer cfg s group reply
  | .handleRequest o =>
    match s.sendQueue with
    | [] => none
    | task :: rest => some (handleTask cfg s task rest o)

namespace Handled

def Missed (h : Handled) (r : ReqId) : Prop := r ∈ h.due ∧ r ∉ h.carried

end Handled

/-- Some layer of the push that `r` is in was missed. A push ends when its last layer is
handled. -/
def Incomplete : List Handled → ReqId → Prop
  | [], _ => False
  | h :: log, r => r ∉ h.finishing ∧ (h.Missed r ∨ Incomplete log r)

/-- Every signal told the truth, and every push that missed a layer was signalled as failed. -/
def Truthful : List Handled → Prop
  | [] => True
  | h :: log =>
    (∀ r, (r, true) ∈ h.signals → r ∈ h.finishing ∧ ¬ h.Missed r ∧ ¬ Incomplete log r) ∧
      (∀ r ∈ h.finishing, h.Missed r ∨ Incomplete log r → (r, false) ∈ h.signals) ∧
      Truthful log

end VllmAscend.KvTransfer.Layerwise.SendThread
