import VllmAscend.Lib.Dict

/-!
# Scheduler side of the layerwise connector

In every step `buildConnectorMeta` tells the workers how many tokens are computed by now and how many were at the
end of the step before.
-/

namespace VllmAscend.KvTransfer.Layerwise

open List Dict

abbrev ReqId := Nat

structure Request where
  numTokens : Nat
  remoteCachedTokens : Nat
  remoteBlockIds : List (List Nat)
  remoteHost : String
  remotePort : Nat
  remoteTpSize : Nat
  remotePcpSize : Nat
  remoteDcpSize : Nat

structure ReqMeta where
  localBlockIds : List (List Nat)
  remoteBlockIds : List (List Nat)
  remoteHost : String
  remotePort : Nat
  remoteTpSize : Nat
  remotePcpSize : Nat
  remoteDcpSize : Nat
  chunkFinish : Bool
  promptLen : Nat
  remoteCacheTokens : Nat
  localComputedTokens : Nat
  localTransedTokens : Nat

structure SendReqInfo where
  localBlockIds : List (List Nat)
  localTransferredTokens : Nat
  localComputedTokens : Nat
  request : Request

namespace SendReqInfo

def extendLocalBlockIds (info : SendReqInfo) (newBlockIds : List (List Nat)) : SendReqInfo :=
  { info with
    localBlockIds := info.localBlockIds.zipIdx.map fun ids => ids.1 ++ newBlockIds.getD ids.2 [] }

def updateComputedTokens (info : SendReqInfo) (computedTokens : Nat) : SendReqInfo :=
  { info with localComputedTokens := computedTokens }

def updateTransferredTokens (info : SendReqInfo) (transferredTokens : Nat) : SendReqInfo :=
  { info with localTransferredTokens := transferredTokens }

def toReqMeta (info : SendReqInfo) (chunkFinish : Bool) : ReqMeta where
  localBlockIds := info.localBlockIds
  remoteBlockIds := info.request.remoteBlockIds
  remoteHost := info.request.remoteHost
  remotePort := info.request.remotePort
  remoteTpSize := info.request.remoteTpSize
  remotePcpSize := info.request.remotePcpSize
  remoteDcpSize := info.request.remoteDcpSize
  chunkFinish := chunkFinish
  promptLen := info.request.numTokens
  remoteCacheTokens := info.request.remoteCachedTokens
  localComputedTokens := info.localComputedTokens
  localTransedTokens := info.localTransferredTokens

end SendReqInfo

structure CachedReq where
  reqId : ReqId
  newBlockIds : Option (List (List Nat))
  numComputedTokens : Nat

structure SchedulerOutput where
  scheduledCachedReqs : List CachedReq
  scheduledNewReqs : List (ReqId × Nat)
  numScheduledTokens : Dict ReqId Nat
  scheduledSpecDecodeTokens : Dict ReqId (List Nat)

def SchedulerOutput.computedTokens (out : SchedulerOutput) : Dict ReqId Nat :=
  (out.scheduledCachedReqs.map (fun c => (c.reqId, c.numComputedTokens)) ++
    out.scheduledNewReqs).foldl (fun d e => d.set e.1 e.2) ∅

def roundDown (x y : Nat) : Nat := x / y * y

abbrev NeedSend := Dict ReqId SendReqInfo

def updateStateAfterAlloc (reqs : NeedSend) (reqId : ReqId) (request : Request)
    (blockIds : List (List Nat)) : NeedSend :=
  reqs.set reqId
    { localBlockIds := blockIds
      localTransferredTokens := request.remoteCachedTokens
      localComputedTokens := 0
      request := request }

def minBlockSize (blockSize : List Nat) : Nat := blockSize.min?.getD 0

def SendReqInfo.advance (info : SendReqInfo) (blockSize : List Nat) (computed : Nat) : SendReqInfo :=
  (info.updateTransferredTokens (roundDown info.localComputedTokens (minBlockSize blockSize)))
    |>.updateComputedTokens computed

def SendReqInfo.finished (info : SendReqInfo) : Bool := info.request.numTokens ≤ info.localComputedTokens

def scheduleReq (blockSize : List Nat) (out : SchedulerOutput)
    (acc : NeedSend × Dict ReqId ReqMeta) (entry : ReqId × Nat) : NeedSend × Dict ReqId ReqMeta :=
  match acc.1.get? entry.1 with
  | none => acc
  | some info =>
    let specDecodeTokens := (out.scheduledSpecDecodeTokens.getD entry.1 []).length
    let info := info.advance blockSize
      (out.computedTokens.getD entry.1 0 + entry.2 - specDecodeTokens)
    let chunkFinish := info.finished
    let metadata := acc.2.set entry.1 (info.toReqMeta chunkFinish)
    let reqs := acc.1.set entry.1 info
    (if chunkFinish then reqs.erase entry.1 else reqs, metadata)

def extendBlocks (reqs : NeedSend) (c : CachedReq) : NeedSend :=
  match reqs.get? c.reqId, c.newBlockIds with
  | some info, some newBlocks => reqs.set c.reqId (info.extendLocalBlockIds newBlocks)
  | _, _ => reqs

def buildConnectorMeta (blockSize : List Nat) (reqs : NeedSend) (out : SchedulerOutput) :
    NeedSend × Dict ReqId ReqMeta :=
  out.numScheduledTokens.entries.foldl (scheduleReq blockSize out)
    (out.scheduledCachedReqs.foldl extendBlocks reqs, ∅)

def produce (blockSize : List Nat) (reqs : NeedSend) : List SchedulerOutput → List (Dict ReqId ReqMeta)
  | [] => []
  | out :: outs =>
    (buildConnectorMeta blockSize reqs out).2 :: produce blockSize (buildConnectorMeta blockSize reqs out).1 outs

/-! ## One request -/

/-- Steps that compute a prompt of `len` tokens, `done` of which are there, in chunks: no
preemption and no speculative tokens. Steps without the request may come in between. -/
def Chunked (r : ReqId) (len : Nat) : Nat → List SchedulerOutput → Prop
  | done, [] => done = len
  | done, out :: outs =>
    match out.numScheduledTokens.get? r with
    | none => Chunked r len done outs
    | some n =>
      done < len ∧ out.computedTokens.getD r 0 = done ∧
        out.scheduledSpecDecodeTokens.getD r [] = [] ∧ done + n ≤ len ∧
        Chunked r len (done + n) outs

section Frame

variable {blockSize : List Nat} {out : SchedulerOutput} {r : ReqId}

theorem extendBlocks_get? (reqs : NeedSend) (c : CachedReq) :
    ∃ ids : SendReqInfo → List (List Nat), (extendBlocks reqs c).get? r =
      (reqs.get? r).map fun info => { info with localBlockIds := ids info } := by
  unfold extendBlocks
  split
  · rename_i info newBlocks hinfo _
    by_cases he : c.reqId = r
    · subst he
      refine ⟨fun info => (info.extendLocalBlockIds newBlocks).localBlockIds, ?_⟩
      rw [get?_set, hinfo]
      simp [SendReqInfo.extendLocalBlockIds]
    · refine ⟨fun info => info.localBlockIds, ?_⟩
      rw [get?_set, if_neg he]
      simp
  · exact ⟨fun info => info.localBlockIds, by simp⟩

theorem foldl_extendBlocks_get? (cs : List CachedReq) (reqs : NeedSend) :
    ∃ ids : SendReqInfo → List (List Nat), (cs.foldl extendBlocks reqs).get? r =
      (reqs.get? r).map fun info => { info with localBlockIds := ids info } := by
  induction cs generalizing reqs with
  | nil => exact ⟨fun info => info.localBlockIds, by simp⟩
  | cons c cs ih =>
    obtain ⟨ids, hids⟩ := ih (extendBlocks reqs c)
    obtain ⟨ids', hids'⟩ := extendBlocks_get? (r := r) reqs c
    refine ⟨fun info => ids { info with localBlockIds := ids' info }, ?_⟩
    rw [foldl_cons, hids, hids', Option.map_map]
    rfl

theorem scheduleReq_other {acc : NeedSend × Dict ReqId ReqMeta} {entry : ReqId × Nat}
    (h : entry.1 ≠ r) : (scheduleReq blockSize out acc entry).1.get? r = acc.1.get? r ∧
      (scheduleReq blockSize out acc entry).2.get? r = acc.2.get? r := by
  unfold scheduleReq
  split
  · exact ⟨rfl, rfl⟩
  · dsimp only
    split
    · simp [get?_erase, get?_set, h]
    · simp [get?_set, h]

theorem foldl_scheduleReq_other {entries : List (ReqId × Nat)} (h : r ∉ entries.map Prod.fst)
    (acc : NeedSend × Dict ReqId ReqMeta) : (entries.foldl (scheduleReq blockSize out) acc).1.get? r = acc.1.get? r ∧
      (entries.foldl (scheduleReq blockSize out) acc).2.get? r = acc.2.get? r := by
  induction entries generalizing acc with
  | nil => exact ⟨rfl, rfl⟩
  | cons entry entries ih =>
    simp only [map_cons, mem_cons, not_or] at h
    obtain ⟨h₁, h₂⟩ := ih h.2 (scheduleReq blockSize out acc entry)
    exact ⟨h₁.trans (scheduleReq_other (.symm h.1)).1, h₂.trans (scheduleReq_other (.symm h.1)).2⟩

theorem buildConnectorMeta_absent (B : List Nat) (reqs : NeedSend) (h : out.numScheduledTokens.get? r = none) :
    (buildConnectorMeta B reqs out).2.get? r = none ∧
      ∃ ids : SendReqInfo → List (List Nat), (buildConnectorMeta B reqs out).1.get? r =
        (reqs.get? r).map fun info => { info with localBlockIds := ids info } := by
  unfold buildConnectorMeta
  obtain ⟨h₁, h₂⟩ := foldl_scheduleReq_other
    (get?_eq_none.mp h) (out.scheduledCachedReqs.foldl extendBlocks reqs, ∅)
  rw [h₁, h₂]
  exact ⟨rfl, foldl_extendBlocks_get? _ _⟩

theorem buildConnectorMeta_scheduled (B : List Nat) {reqs : NeedSend} {n : Nat}
    {info : SendReqInfo} (h : out.numScheduledTokens.get? r = some n) (hinfo : reqs.get? r = some info)
    (hspec : out.scheduledSpecDecodeTokens.getD r [] = []) :
    ∃ ids, let info' : SendReqInfo :=
        { info.advance B (out.computedTokens.getD r 0 + n) with localBlockIds := ids }
      (buildConnectorMeta B reqs out).2.get? r = some (info'.toReqMeta info'.finished) ∧
        (buildConnectorMeta B reqs out).1.get? r =
          if info'.finished then none else some info' := by
  obtain ⟨ids, hids⟩ := foldl_extendBlocks_get? (r := r) out.scheduledCachedReqs reqs
  rw [hinfo, Option.map_some] at hids
  refine ⟨ids info, ?_⟩
  -- the entry of the request splits the loop, and the rest of the loop leaves it alone
  obtain ⟨before, after, hentries⟩ := append_of_mem (mem_entries.mpr h)
  have hnodup := out.numScheduledTokens.nodup
  rw [hentries, map_append, nodup_append] at hnodup
  have hbefore : r ∉ before.map Prod.fst := fun hr => hnodup.2.2 r hr r (mem_cons_self) rfl
  have hafter : r ∉ after.map Prod.fst := (nodup_cons.mp hnodup.2.1).1
  unfold buildConnectorMeta
  rw [hentries, foldl_append, foldl_cons]
  obtain ⟨h₁, -⟩ := foldl_scheduleReq_other  hbefore (out.scheduledCachedReqs.foldl extendBlocks reqs, ∅)
  rw [hids] at h₁
  generalize before.foldl (scheduleReq B out) _ = acc at h₁ ⊢
  obtain ⟨h₃, h₄⟩ := foldl_scheduleReq_other  hafter (scheduleReq B out acc (r, n))
  rw [h₃, h₄]
  unfold scheduleReq
  simp only [h₁, hspec, length_nil, Nat.sub_zero]
  refine ⟨by rw [get?_set, if_pos rfl]; rfl, ?_⟩
  split <;> rename_i hfin
  · rw [get?_erase, if_pos rfl]
    exact (if_pos hfin).symm
  · rw [get?_set, if_pos rfl]
    exact (if_neg hfin).symm

end Frame

end VllmAscend.KvTransfer.Layerwise
