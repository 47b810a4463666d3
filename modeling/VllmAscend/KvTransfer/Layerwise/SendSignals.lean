import VllmAscend.KvTransfer.Layerwise.SendThread

/-!
# The signals of the sending thread

A failed write is recorded under the loop variable `req_id`, whatever that was left at, and a failed query or an
exception is not recorded at all.
-/

namespace VllmAscend.KvTransfer.Layerwise.SendThread

open List Option Dict

variable {cfg : Config} {task : SendTask} {o : Outcome} {totalLayers : Nat}

/-! ## Queued tasks -/

def Answered (known : KnownDecoders) (reply : Reply) (m : SendMeta) : Prop :=
  known.get? (m.remoteEngineId, m.remotePort) ≠ none ∨ ∃ port, reply = .answered port

variable {known : KnownDecoders} {s : State} {l : List (ReqId × SendMeta)}

theorem updateDecoderInfo_ok {known' : KnownDecoders} {reply : Reply} {m m' : SendMeta}
    (h : updateDecoderInfo reply m known = (.ok m', known')) : m'.chunkFinish = m.chunkFinish := by
  unfold updateDecoderInfo at h
  split at h <;> simp only [Prod.mk.injEq, Except.ok.injEq, reduceCtorEq, false_and] at h <;> exact h.1 ▸ rfl

theorem Answered.ok {reply : Reply} {m : SendMeta}
    (h : Answered known reply m) : ∃ m' known', updateDecoderInfo reply m known = (.ok m', known') := by
  unfold updateDecoderInfo
  cases hk : known.get? (m.remoteEngineId, m.remotePort) with
  | some port => exact ⟨_, _, rfl⟩
  | none =>
    rcases h with h | ⟨port, rfl⟩
    · exact absurd hk h
    · exact ⟨_, _, rfl⟩

theorem updateDecoderInfo_known (reply : Reply) (m : SendMeta)
    {k : Nat × Nat} (h : known.get? k ≠ none) : (updateDecoderInfo reply m known).2.get? k ≠ none := by
  unfold updateDecoderInfo
  have hset : ∀ {k' : Nat × Nat} {port : Nat}, (known.set k' port).get? k ≠ none := by
    intro k' port
    rw [get?_set]
    split
    · simp
    · exact h
  split <;> first | exact h | exact hset

section Save

variable {group : Nat} {reply : ReqId → Reply}

variable {acc : KnownDecoders × Dict ReqId SendMeta} {e : ReqId × SendMeta} {r : ReqId}
  {l : List (ReqId × SendMeta)}

theorem addRequest_known
    {k : Nat × Nat} (h : acc.1.get? k ≠ none) : (addRequest group reply acc e).1.get? k ≠ none := by
  unfold addRequest
  split
  · have := updateDecoderInfo_known (reply e.1) e.2 h
    split <;> rename_i heq <;> rwa [heq] at this
  · exact h

theorem addRequest_sent (acc : KnownDecoders × Dict ReqId SendMeta) (e : ReqId × SendMeta) :
    (addRequest group reply acc e).2 = acc.2 ∨
      ∃ m, m.chunkFinish = e.2.chunkFinish ∧ (addRequest group reply acc e).2 = acc.2.set e.1 m := by
  unfold addRequest
  split
  · split
    · rename_i heq
      exact .inr ⟨_, updateDecoderInfo_ok heq, rfl⟩
    · exact .inl rfl
  · exact .inl rfl

theorem addRequest_answered (hblocks : e.2.hasBlocks group) (h : Answered acc.1 (reply e.1) e.2) :
    e.1 ∈ (addRequest group reply acc e).2.keys := by
  obtain ⟨m, known, hok⟩ := h.ok
  unfold addRequest
  rw [if_pos hblocks, hok]
  exact mem_keys_set.mpr (.inl rfl)

theorem mem_keys_addRequest (h : r ∈ acc.2.keys) : r ∈ (addRequest group reply acc e).2.keys := by
  rcases addRequest_sent acc e with heq | ⟨m, -, heq⟩
  · rwa [heq]
  · rw [heq]
    exact mem_keys_set.mpr (.inr h)

theorem mem_keys_foldl_addRequest (h : r ∈ acc.2.keys) : r ∈ (l.foldl (addRequest group reply) acc).2.keys := by
  induction l generalizing acc with
  | nil => exact h
  | cons e l ih => exact ih (mem_keys_addRequest h)

theorem foldl_addRequest_answered (h : ∀ e ∈ l, e.2.hasBlocks group → Answered acc.1 (reply e.1) e.2)
    (he : e ∈ l) (hblocks : e.2.hasBlocks group) : e.1 ∈ (l.foldl (addRequest group reply) acc).2.keys := by
  induction l generalizing acc with
  | nil => cases he
  | cons e' l ih =>
    rcases mem_cons.mp he with rfl | he
    · rw [foldl_cons]
      exact mem_keys_foldl_addRequest (addRequest_answered hblocks (h e (by simp) hblocks))
    · refine ih (fun e'' he'' hb => ?_) he
      exact (h e'' (mem_cons_of_mem _ he'') hb).imp_left addRequest_known

theorem foldl_addRequest_sent {m : SendMeta} (h : (l.foldl (addRequest group reply) acc).2.get? r = some m) :
    acc.2.get? r = some m ∨ ∃ m', (r, m') ∈ l ∧ m.chunkFinish = m'.chunkFinish := by
  induction l generalizing acc with
  | nil => exact .inl h
  | cons e l ih =>
    rcases ih h with hacc | ⟨m', hmem, hm⟩
    · rcases addRequest_sent acc e with heq | ⟨m₀, hm₀, heq⟩
      · exact .inl (heq ▸ hacc)
      · rw [heq, get?_set] at hacc
        split at hacc
        · rename_i hr
          cases hacc
          exact .inr ⟨e.2, by simp [← hr], hm₀⟩
        · exact .inl hacc
    · exact .inr ⟨m', mem_cons_of_mem _ hmem, hm⟩

end Save

/-- The task has every request it is due for, and every request whose push ends with it. -/
structure Complete (totalLayers : Nat) (task : SendTask) : Prop where
  due_sent : ∀ r ∈ task.due, r ∈ task.sendRequest.keys
  finishing_iff : ∀ r, r ∈ task.finishing totalLayers ↔ task.isLastLayer totalLayers ∧ task.finishes r

/-- Every query for a request with blocks is answered, and every request whose last chunk this is
has blocks in the last layer. -/
def SaveOk (cfg : Config) (s : State) (group : Nat) (reply : ReqId → Reply) : Prop :=
  ∀ r m, s.requests.get? r = some m →
    (m.hasBlocks group → Answered s.known (reply r) m) ∧
      (s.currentLayer + 1 = cfg.totalLayers → m.chunkFinish → m.hasBlocks group)

theorem complete_of_saveOk {group : Nat} {reply : ReqId → Reply} (hok : SaveOk cfg s group reply) :
    Complete cfg.totalLayers ⟨s.currentLayer, group, s.requests,
      (s.requests.entries.foldl (addRequest group reply) (s.known, ∅)).2⟩ := by
  set sent := (s.requests.entries.foldl (addRequest group reply) (s.known, ∅)).2
  have hsent : ∀ r m, s.requests.get? r = some m → m.hasBlocks group → r ∈ sent.keys := by
    intro r m hr hblocks
    refine foldl_addRequest_answered (fun e he hb => ?_) (mem_entries.mpr hr) hblocks
    exact (hok e.1 e.2 (mem_entries.mp he)).1 hb
  have hfinishes : ∀ r ∈ sent.keys, ∀ m, s.requests.get? r = some m →
      ∃ m', sent.get? r = some m' ∧ m'.chunkFinish = m.chunkFinish := by
    intro r hr m hm
    obtain ⟨m', hm'⟩ := exists_get?_of_mem_keys hr
    refine ⟨m', hm', ?_⟩
    rcases foldl_addRequest_sent hm' with h0 | ⟨m₀, hmem, hfin⟩
    · simp at h0
    · rw [hfin, some.inj ((mem_entries.mp hmem).symm.trans hm)]
  constructor
  · refine forall_mem_map.mpr fun e he => ?_
    obtain ⟨he, hblocks⟩ := mem_filter.mp he
    exact hsent _ _ (mem_entries.mp he) hblocks
  · intro r
    unfold SendTask.finishing SendTask.finishes
    split
    · rename_i hlast
      constructor
      · intro hr
        obtain ⟨e, he, rfl⟩ := mem_map.mp hr
        obtain ⟨he, hfin⟩ := mem_filter.mp he
        have hget := mem_entries.mp he
        have hblocks := (hok _ _ hget).2 (by simpa [SendTask.isLastLayer] using hlast) hfin
        obtain ⟨m', hm', hfin'⟩ := hfinishes _ (hsent _ _ hget hblocks) _ hget
        exact ⟨hlast, by simp [hm', hfin', hfin]⟩
      · rintro ⟨-, hr⟩
        rw [getD_eq_iff] at hr
        obtain hr | ⟨-, hr⟩ := hr
        · obtain ⟨m, hm, hfin⟩ := map_eq_some_iff.mp hr
          rcases foldl_addRequest_sent hm with h0 | ⟨m₀, hmem, hfin₀⟩
          · simp at h0
          · exact mem_map.mpr ⟨(r, m₀), mem_filter.mpr ⟨hmem, hfin₀ ▸ hfin⟩, rfl⟩
        · cases hr
    · rename_i hlast
      simp [hlast]

/-! ## Sessions -/

def reqIdsOf (s : SessionId) (l : List (ReqId × SendMeta)) : List ReqId :=
  (l.filter fun e => e.2.sessionId = s).map Prod.fst

theorem reqIdsOf_append_singleton (s : SessionId) (l : List (ReqId × SendMeta)) (e : ReqId × SendMeta) :
    reqIdsOf s (l ++ [e]) = reqIdsOf s l ++ if e.2.sessionId = s then [e.1] else [] := by
  unfold reqIdsOf
  by_cases h : e.2.sessionId = s <;> simp [h]

structure Merged (l : List (ReqId × SendMeta)) (sessions : Sessions) : Prop where
  reqIds : ∀ s, (sessions.getD s ⟨[], []⟩).reqIds = reqIdsOf s l
  copies : ∀ s m, sessions.get? s = some m → m.copies ≠ []
  first : sessions.keys.head? = l.head?.map fun e => e.2.sessionId

theorem Merged.empty : Merged [] ∅ where
  reqIds _ := rfl
  copies _ _ h := by cases h
  first := rfl

theorem Merged.mergeRequest {sessions : Sessions}
    (h : Merged l sessions) {e : ReqId × SendMeta} {c : Copy} {cs : List Copy}
    (he : o.transferMeta e.1 = some (c :: cs)) :
    ∃ sessions', mergeRequest o sessions e = .ok sessions' ∧ Merged (l ++ [e]) sessions' := by
  unfold SendThread.mergeRequest
  rw [he]
  refine ⟨_, rfl, ?_, ?_, ?_⟩
  · intro s
    rw [reqIdsOf_append_singleton, Dict.getD, get?_set]
    split
    · rename_i hs
      subst hs
      simp [h.reqIds]
    · simp [← h.reqIds, Dict.getD]
  · intro s m hm
    rw [get?_set] at hm
    split at hm
    · cases hm
      simp
    · exact h.copies s m hm
  · rw [keys_set]
    cases l with
    | nil =>
      have hnil : sessions.keys = [] := by simpa using h.first
      simp [hnil]
    | cons e' l =>
      have hfirst := h.first
      split
      · simpa using hfirst
      · cases hkeys : sessions.keys with
        | nil => simp [hkeys] at hfirst
        | cons k ks => simpa [hkeys] using hfirst

theorem Merged.merge {rest : List (ReqId × SendMeta)} {sessions : Sessions}
    (h : Merged l sessions) (ho : ∀ e ∈ rest, ∃ c cs, o.transferMeta e.1 = some (c :: cs)) :
    ∃ sessions', merge o rest sessions = .ok sessions' ∧ Merged (l ++ rest) sessions' := by
  induction rest generalizing l sessions with
  | nil => exact ⟨sessions, rfl, by simpa using h⟩
  | cons e rest ih =>
    obtain ⟨c, cs, he⟩ := ho e (by simp)
    obtain ⟨s₁, hs₁, hm₁⟩ := h.mergeRequest he
    obtain ⟨s₂, hs₂, hm₂⟩ := ih hm₁ fun e' he' => ho e' (mem_cons_of_mem _ he')
    refine ⟨s₂, ?_, by simpa using hm₂⟩
    rw [SendThread.merge, hs₁]
    exact hs₂

/-! ## What a task records -/

/-- Every failure among the requests `done` is in `failed_reqs` or signalled, and no signal lies.
`failed` is `failed_reqs` before the task. -/
structure Recorded (totalLayers : Nat) (task : SendTask) (failed : Finset ReqId)
    (done : List ReqId) (t : Thread) : Prop where
  kept : ∀ r ∈ failed, r ∈ t.failedReqs ∨ (r, false) ∈ t.signals
  missed : ∀ r ∈ done, r ∈ t.carried ∨ r ∈ t.failedReqs ∨ (r, false) ∈ t.signals
  told : ∀ r ∈ done, task.isLastLayer totalLayers → task.finishes r → ∃ flag, (r, flag) ∈ t.signals
  honest : ∀ r, (r, true) ∈ t.signals → r ∈ t.carried ∧ r ∉ failed
  only : ∀ r flag, (r, flag) ∈ t.signals →
    r ∈ done ∧ task.isLastLayer totalLayers ∧ task.finishes r

section Recorded

variable {failed : Finset ReqId} {done : List ReqId} {t : Thread}

theorem Recorded.start (hfailed : t.failedReqs = failed) (hsignals : t.signals = []) :
    Recorded totalLayers task failed [] t where
  kept r hr := .inl (hfailed ▸ hr)
  missed _ h := by cases h
  told _ h := by cases h
  honest r h := by simp [hsignals] at h
  only r flag h := by simp [hsignals] at h

section

variable (h : Recorded totalLayers task failed done t)

include h

theorem Recorded.setReqId (r : ReqId) : Recorded totalLayers task failed done (t.setReqId r) :=
  ⟨h.kept, h.missed, h.told, h.honest, h.only⟩

theorem Recorded.fail : Recorded totalLayers task failed done t.fail where
  kept r hr := (h.kept r hr).imp_left (Finset.mem_insert_of_mem ·)
  missed r hr := (h.missed r hr).imp_right (.imp_left (Finset.mem_insert_of_mem ·))
  told := h.told
  honest := h.honest
  only := h.only

theorem Recorded.carry (reqIds : List ReqId) : Recorded totalLayers task failed done (t.carry reqIds) where
  kept := h.kept
  missed r hr := (h.missed r hr).imp_left (mem_append_left _ ·)
  told := h.told
  honest r hr := ⟨mem_append_left _ (h.honest r hr).1, (h.honest r hr).2⟩
  only := h.only

end

variable {r : ReqId}

theorem Thread.signal_carried (t : Thread) : t.signal.carried = t.carried := by
  unfold Thread.signal
  split <;> rfl

theorem Thread.mem_signal_failedReqs (hr : r ≠ t.reqId) (h : r ∈ t.failedReqs) :
    r ∈ t.signal.failedReqs := by
  unfold Thread.signal
  split
  · exact Finset.mem_erase.mpr ⟨hr, h⟩
  · exact h

section

variable (h : Recorded totalLayers task failed done t)

include h

theorem Recorded.mem_failedReqs (hr : r ∈ failed) (hdone : r ∉ done) : r ∈ t.failedReqs :=
  (h.kept r hr).resolve_right fun hs => hdone (h.only r false hs).1

theorem Recorded.append {l : List ReqId} (hready : ∀ r ∈ l, r ∈ t.carried ∨ r ∈ t.failedReqs)
    (hsilent : ∀ r ∈ l, ¬ (task.isLastLayer totalLayers ∧ task.finishes r)) :
    Recorded totalLayers task failed (done ++ l) t where
  kept := h.kept
  missed r hr := by
    rcases mem_append.mp hr with hr | hr
    · exact h.missed r hr
    · exact (hready r hr).imp_right .inl
  told r hr hlast hfin := by
    rcases mem_append.mp hr with hr | hr
    · exact h.told r hr hlast hfin
    · exact absurd ⟨hlast, hfin⟩ (hsilent r hr)
  honest := h.honest
  only r flag hs := ⟨mem_append_left _ (h.only r flag hs).1, (h.only r flag hs).2⟩

variable (hlast : task.isLastLayer totalLayers)

include hlast

theorem Recorded.send {flag : Bool} {failedReqs : Finset ReqId}
    (hready : t.reqId ∈ t.carried ∨ t.reqId ∈ t.failedReqs) (hfin : task.finishes t.reqId)
    (hflag : flag = true → t.reqId ∈ t.carried ∧ t.reqId ∉ failed)
    (hmove : ∀ r, r ∈ t.failedReqs ∨ (r, false) ∈ t.signals →
      r ∈ failedReqs ∨ (r, false) ∈ t.signals ++ [(t.reqId, flag)]) :
    Recorded totalLayers task failed (done ++ [t.reqId])
      { t with failedReqs, signals := t.signals ++ [(t.reqId, flag)] } where
  kept r hr := hmove r (h.kept r hr)
  missed r hr := by
    rcases mem_append.mp hr with hr | hr
    · exact (h.missed r hr).imp_right (hmove r)
    · cases mem_singleton.mp hr
      exact hready.imp_right fun hr => hmove _ (.inl hr)
  told r hr hl hf := by
    rcases mem_append.mp hr with hr | hr
    · obtain ⟨flag, hflag⟩ := h.told r hr hl hf
      exact ⟨flag, mem_append_left _ hflag⟩
    · cases mem_singleton.mp hr
      exact ⟨flag, by simp⟩
  honest r hr := by
    rcases mem_append.mp hr with hr | hr
    · exact h.honest r hr
    · cases mem_singleton.mp hr
      exact hflag rfl
  only r flag hr := by
    rcases mem_append.mp hr with hr | hr
    · exact ⟨mem_append_left _ (h.only r flag hr).1, (h.only r flag hr).2⟩
    · cases mem_singleton.mp hr
      exact ⟨by simp, hlast, hfin⟩

theorem Recorded.signal (hdone : t.reqId ∉ done) (hready : t.reqId ∈ t.carried ∨ t.reqId ∈ t.failedReqs)
    (hfin : task.finishes t.reqId) : Recorded totalLayers task failed (done ++ [t.reqId]) t.signal := by
  unfold Thread.signal
  split
  · refine h.send hlast hready hfin (by simp) fun r hr => ?_
    by_cases heq : r = t.reqId
    · exact .inr (by simp [heq])
    · exact hr.imp (fun hr => Finset.mem_erase.mpr ⟨heq, hr⟩) (mem_append_left _ ·)
  · rename_i hmem
    exact h.send hlast hready hfin
      (fun _ => ⟨hready.resolve_right hmem, fun hf => hmem (h.mem_failedReqs hf hdone)⟩)
      fun r hr => hr.imp_right (mem_append_left _ ·)

theorem Recorded.signalRequest (hdone : r ∉ done) (hready : r ∈ t.carried ∨ r ∈ t.failedReqs) :
    Recorded totalLayers task failed (done ++ [r]) (signalRequest task t r) := by
  unfold SendThread.signalRequest
  split
  · rename_i hfin
    exact .signal (t := t.setReqId r) (h.setReqId r) hlast hdone hready hfin
  · rename_i hfin
    refine (h.setReqId r).append ?_ ?_
    · intro r' hr'
      cases mem_singleton.mp hr'
      exact hready
    · rintro r' hr' ⟨-, hf⟩
      cases mem_singleton.mp hr'
      exact hfin hf

end

theorem ready_signalRequest {r' : ReqId} (hne : r' ≠ r) (hready : r' ∈ t.carried ∨ r' ∈ t.failedReqs) :
    r' ∈ (signalRequest task t r).carried ∨ r' ∈ (signalRequest task t r).failedReqs := by
  unfold SendThread.signalRequest
  split
  · rw [Thread.signal_carried]
    exact hready.imp_right (Thread.mem_signal_failedReqs (t := t.setReqId r) hne)
  · exact hready

end Recorded

open Exec

theorem signalRequests_spec {failed : Finset ReqId} (done reqIds : List ReqId)
    (hlast : task.isLastLayer totalLayers) (hnodup : (done ++ reqIds).Nodup) : Triple
      (fun t => Recorded totalLayers task failed done t ∧ ∀ r ∈ reqIds, r ∈ t.carried ∨ r ∈ t.failedReqs)
      (forEach reqIds fun reqId => modify fun t => signalRequest task t reqId)
      (fun _ t => Recorded totalLayers task failed (done ++ reqIds) t) (fun (_ : Unit) _ => False) := by
  refine (Triple.forEach
    (I := fun rest t => ∃ pre, pre ++ rest = reqIds ∧ Recorded totalLayers task failed (done ++ pre) t ∧
      ∀ r ∈ rest, r ∈ t.carried ∨ r ∈ t.failedReqs) ?_ reqIds).conseq ?_ ?_ (fun _ _ h => h)
  · rintro r rest
    refine .modify _ ?_
    rintro t ⟨pre, rfl, hrec, hready⟩
    rw [← append_assoc, nodup_append'] at hnodup
    obtain ⟨-, hrest, hdisj⟩ := hnodup
    refine ⟨pre ++ [r], by simp, ?_, ?_⟩
    · rw [← append_assoc]
      exact hrec.signalRequest hlast (fun hr => hdisj hr (by simp)) (hready r (by simp))
    · intro r' hr'
      refine ready_signalRequest ?_ (hready r' (mem_cons_of_mem _ hr'))
      rintro rfl
      exact (nodup_cons.mp hrest).1 hr'
  · rintro t ⟨hrec, hready⟩
    exact ⟨[], rfl, by simpa using hrec, hready⟩
  · rintro _ t ⟨pre, hpre, hrec, -⟩
    rw [append_nil] at hpre
    exact hpre ▸ hrec

/-! ## The loop over the sessions -/

/-- The condition under which the thread tells the truth about a task. Nothing raises, every request has
something to copy, and a request whose write fails is already recorded as failed or is the one the
loop variable was left at: the last request of the task, and on the last layer only while the
first session is handled. -/
structure HandleOk (totalLayers : Nat) (failed : Finset ReqId) (task : SendTask) (o : Outcome) :
    Prop where
  staged : o.staged
  synced : o.synced
  described : ∀ r ∈ task.sendRequest.keys, ∃ c cs, o.transferMeta r = some (c :: cs)
  returned : ∀ s, o.write s ≠ .raised
  attributed : ∀ r m, task.sendRequest.get? r = some m → o.write m.sessionId = .failed →
    r ∈ failed ∨
      (task.sendRequest.keys.getLast? = some r ∧
        (task.isLastLayer totalLayers →
          task.sendRequest.entries.head?.map (fun e => e.2.sessionId) = some m.sessionId))

def SessionsInv (totalLayers : Nat) (task : SendTask) (failed : Finset ReqId) (sessions : Sessions)
    (rest : List (SessionId × TransferMeta)) (t : Thread) : Prop :=
  ∃ done, done ++ rest = sessions.entries ∧
    Recorded totalLayers task failed (done.flatMap fun e => e.2.reqIds) t ∧
    ((task.isLastLayer totalLayers → done = []) → ∀ r, task.sendRequest.keys.getLast? = some r → t.reqId = r)

section Sessions

variable {failed : Finset ReqId} {sessions : Sessions}

variable {e : SessionId × TransferMeta}

variable (h : Merged task.sendRequest.entries sessions)

include h

theorem Merged.reqIds_of_mem (he : e ∈ sessions.entries) :
    e.2.reqIds = reqIdsOf e.1 task.sendRequest.entries := by
  rw [← h.reqIds, Dict.getD, mem_entries.mp he]
  rfl

omit h in
theorem mem_reqIdsOf {s : SessionId} {r : ReqId} : r ∈ reqIdsOf s task.sendRequest.entries ↔
      ∃ m, task.sendRequest.get? r = some m ∧ m.sessionId = s := by
  constructor
  · intro hr
    obtain ⟨e, he, rfl⟩ := mem_map.mp hr
    obtain ⟨he, hs⟩ := mem_filter.mp he
    exact ⟨e.2, mem_entries.mp he, by simpa using hs⟩
  · rintro ⟨m, hm, hs⟩
    exact mem_map.mpr ⟨(r, m), mem_filter.mpr ⟨mem_entries.mpr hm, by simpa using hs⟩, rfl⟩

omit h in
theorem nodup_reqIdsOf (s : SessionId) : (reqIdsOf s task.sendRequest.entries).Nodup :=
  task.sendRequest.nodup.sublist (filter_sublist.map _)

theorem Merged.nodup_flatMap : (sessions.entries.flatMap fun e => e.2.reqIds).Nodup := by
  refine List.nodup_flatMap.mpr ⟨?_, ?_⟩
  · intro e he
    rw [h.reqIds_of_mem he]
    exact nodup_reqIdsOf e.1
  · have hkeys : sessions.entries.Pairwise fun a b => a.1 ≠ b.1 :=
      pairwise_map.mp sessions.nodup
    refine hkeys.imp_of_mem ?_
    intro a b ha hb hne r hra hrb
    dsimp only at hra hrb
    rw [h.reqIds_of_mem ha] at hra
    rw [h.reqIds_of_mem hb] at hrb
    obtain ⟨m, hm, hs⟩ := mem_reqIdsOf.mp hra
    obtain ⟨m', hm', hs'⟩ := mem_reqIdsOf.mp hrb
    cases hm.symm.trans hm'
    exact hne (hs.symm.trans hs')

theorem Merged.mem_flatMap {r : ReqId}
    (hr : r ∈ task.sendRequest.keys) : r ∈ sessions.entries.flatMap fun e => e.2.reqIds := by
  obtain ⟨m, hm⟩ := exists_get?_of_mem_keys hr
  have hmem : r ∈ (sessions.getD m.sessionId ⟨[], []⟩).reqIds := by
    rw [h.reqIds]
    exact mem_reqIdsOf.mpr ⟨m, hm, rfl⟩
  cases hs : sessions.get? m.sessionId with
  | none => simp [Dict.getD, hs] at hmem
  | some e =>
    rw [Dict.getD, hs] at hmem
    exact List.mem_flatMap.mpr ⟨(m.sessionId, e), mem_entries.mpr hs, hmem⟩

variable (hok : HandleOk totalLayers failed task o)

include hok

theorem writeSession_spec {done rest : List (SessionId × TransferMeta)}
    (hsplit : done ++ e :: rest = sessions.entries) : Triple
      (fun t => Recorded totalLayers task failed (done.flatMap fun e => e.2.reqIds) t ∧
        ((task.isLastLayer totalLayers → done = []) →
          ∀ r, task.sendRequest.keys.getLast? = some r → t.reqId = r)) (writeSession o e)
      (fun _ t => (Recorded totalLayers task failed (done.flatMap fun e => e.2.reqIds) t ∧
        ((task.isLastLayer totalLayers → done = []) → ∀ r, task.sendRequest.keys.getLast? = some r → t.reqId = r)) ∧
        ∀ r ∈ e.2.reqIds, r ∈ t.carried ∨ r ∈ t.failedReqs) (fun _ _ => False) := by
  have he : e ∈ sessions.entries := by simp [← hsplit]
  have hnodup := h.nodup_flatMap
  rw [← hsplit, flatMap_append, flatMap_cons, ← append_assoc, nodup_append', nodup_append'] at hnodup
  have hfresh := hnodup.1.2.2
  unfold writeSession
  split
  · rename_i hw
    exact absurd hw (hok.returned e.1)
  · rename_i hw
    refine .modify _ ?_
    rintro t ⟨hrec, hvar⟩
    refine ⟨⟨hrec.fail, hvar⟩, ?_⟩
    intro r hr
    have hr' := hr
    rw [h.reqIds_of_mem he] at hr'
    obtain ⟨m, hget, hs⟩ := mem_reqIdsOf.mp hr'
    refine .inr ?_
    rcases hok.attributed r m hget (hs ▸ hw) with hf | ⟨hlastKey, hfirst⟩
    · exact Finset.mem_insert_of_mem (hrec.mem_failedReqs hf fun hd => hfresh hd hr)
    · -- the loop variable is still the one of the merge loop
      have hvar' : t.reqId = r := by
        refine hvar (fun hlast => ?_) r hlastKey
        have hhead := h.first.trans (hfirst hlast)
        cases done with
        | nil => rfl
        | cons e' done =>
          have hmem : e' ∈ sessions.entries := by simp [← hsplit]
          have hkeys : (e' :: done ++ e :: rest).Pairwise fun a b => a.1 ≠ b.1 :=
            hsplit ▸ pairwise_map.mp sessions.nodup
          have hfst : e'.1 = e.1 := by
            rw [Dict.keys, ← hsplit] at hhead
            simpa [hs] using hhead
          exact absurd hfst ((pairwise_cons.mp hkeys).1 e (by simp))
      exact hvar' ▸ Finset.mem_insert_self _ _
  · refine .modify _ ?_
    rintro t ⟨hrec, hvar⟩
    exact ⟨⟨hrec.carry _, hvar⟩, fun r hr => .inl (mem_append_right _ hr)⟩

theorem transferSession_spec (e : SessionId × TransferMeta)
    (rest : List (SessionId × TransferMeta)) : Triple (SessionsInv totalLayers task failed sessions (e :: rest))
      (transferSession totalLayers task o e)
      (fun _ => SessionsInv totalLayers task failed sessions rest) (fun _ _ => False) := by
  rintro t ⟨done, hsplit, hrec, hvar⟩
  have he : e ∈ sessions.entries := by simp [← hsplit]
  have hcopies : decide (e.2.copies.length > 0) = true := by
    simpa using length_pos_of_ne_nil (h.copies e.1 e.2 (mem_entries.mp he))
  have hsplit' : (done ++ [e]) ++ rest = sessions.entries := by simpa using hsplit
  have hflat : (done ++ [e]).flatMap (fun e => e.2.reqIds) =
      done.flatMap (fun e => e.2.reqIds) ++ e.2.reqIds := by simp
  unfold transferSession
  rw [hcopies]
  refine (Triple.bind (writeSession_spec h hok hsplit) fun _ => ?_) t ⟨hrec, hvar⟩
  unfold when
  split
  · rename_i hlast
    have hnodup := h.nodup_flatMap
    rw [← hsplit', flatMap_append, nodup_append', hflat] at hnodup
    refine (signalRequests_spec _ _ hlast hnodup.1).conseq (fun t h => ⟨h.1.1, h.2⟩) ?_ (fun _ _ h => h)
    intro _ t h
    refine ⟨done ++ [e], hsplit', hflat ▸ h, ?_⟩
    intro hnil
    simpa using hnil hlast
  · rename_i hlast
    refine .pure () ?_
    rintro t ⟨⟨hrec, hvar⟩, hready⟩
    refine ⟨done ++ [e], hsplit', ?_, fun _ => hvar fun h => absurd h hlast⟩
    rw [hflat]
    exact hrec.append hready fun r _ h => hlast h.1

omit h in
theorem transferKvCache_spec :
    Triple (fun t => t = Thread.start failed) (transferKvCache totalLayers task o)
      (fun _ t => ∃ done, (∀ r ∈ task.sendRequest.keys, r ∈ done) ∧
        Recorded totalLayers task failed done t) (fun _ _ => False) := by
  have hdescribed : ∀ e ∈ task.sendRequest.entries, ∃ c cs, o.transferMeta e.1 = some (c :: cs) :=
    fun e he => hok.described e.1 (mem_map_of_mem he)
  obtain ⟨sessions, hmerge, hm⟩ := Merged.empty.merge hdescribed
  unfold transferKvCache
  rw [hok.staged, hok.synced, hmerge]
  rintro _ rfl
  refine (Triple.forEach (I := SessionsInv totalLayers task failed sessions)
    (transferSession_spec hm hok) sessions.entries).conseq (fun _ h => h) ?_ (fun _ _ h => h) _ ?_
  · rintro _ t ⟨done, hdone, hrec, -⟩
    rw [append_nil] at hdone
    exact ⟨_, fun r hr => hdone ▸ hm.mem_flatMap hr, hrec⟩
  · refine ⟨[], rfl, .start rfl rfl, ?_⟩
    intro _ r hr
    simp [Thread.setReqId, hr]

end Sessions

/-! ## Runs -/

def StepOk (cfg : Config) (s : State) : Action → Prop
  | .startLoadKv _ => True
  | .saveKvLayer group reply => SaveOk cfg s group reply
  | .handleRequest o => ∀ task ∈ s.sendQueue.head?, HandleOk cfg.totalLayers s.failedReqs task o

structure Inv (cfg : Config) (s : State) : Prop where
  truthful : Truthful s.log
  recorded : ∀ r, Incomplete s.log r → r ∈ s.failedReqs
  queue : ∀ task ∈ s.sendQueue, Complete cfg.totalLayers task

theorem Inv.handleTask {rest : List SendTask} (h : Inv cfg s) (hqueue : s.sendQueue = task :: rest)
    (hok : HandleOk cfg.totalLayers s.failedReqs task o) : Inv cfg (handleTask cfg s task rest o) := by
  have hcomplete := h.queue task (by simp [hqueue])
  have hpost := transferKvCache_spec hok (.start s.failedReqs) rfl
  unfold SendThread.handleTask
  split at hpost
  · rename_i _ t hrun
    rw [hrun]
    obtain ⟨done, hdone, hrec⟩ := hpost
    -- what is missing by now is recorded or has just been signalled
    have hmissing : ∀ r, (r ∈ task.due ∧ r ∉ t.carried) ∨ Incomplete s.log r →
        r ∈ t.failedReqs ∨ (r, false) ∈ t.signals := by
      rintro r (⟨hdue, hcarried⟩ | hinc)
      · exact (hrec.missed r (hdone r (hcomplete.due_sent r hdue))).resolve_left hcarried
      · exact hrec.kept r (h.recorded r hinc)
    have hhonest : ∀ r, (r, true) ∈ t.signals → r ∈ t.carried ∧ ¬ Incomplete s.log r :=
      fun r hr => ⟨(hrec.honest r hr).1, fun hinc => (hrec.honest r hr).2 (h.recorded r hinc)⟩
    refine ⟨⟨?_, ?_, h.truthful⟩, ?_, fun task' h' => h.queue task' (by simp [hqueue, h'])⟩
    · intro r hr
      refine ⟨(hcomplete.finishing_iff r).mpr (hrec.only r true hr).2, ?_, (hhonest r hr).2⟩
      exact fun hmiss => hmiss.2 (hhonest r hr).1
    · intro r hr hmiss
      obtain ⟨hlast, hfin⟩ := (hcomplete.finishing_iff r).mp hr
      have hsent : r ∈ task.sendRequest.keys := by
        by_contra hr
        simp [SendTask.finishes, get?_eq_none.mpr hr] at hfin
      obtain ⟨flag, hflag⟩ := hrec.told r (hdone r hsent) hlast hfin
      cases flag with
      | false => exact hflag
      | true =>
        rcases hmiss with hmiss | hinc
        · exact absurd (hhonest r hflag).1 hmiss.2
        · exact absurd hinc (hhonest r hflag).2
    · rintro r ⟨hnot, hmiss⟩
      refine (hmissing r hmiss).resolve_right fun hs => hnot ?_
      exact (hcomplete.finishing_iff r).mpr (hrec.only r false hs).2
  · exact hpost.elim

theorem Inv.saveKvLayer {s' : State} {group : Nat} {reply : ReqId → Reply} (h : Inv cfg s)
    (hok : SaveOk cfg s group reply) (hs : saveKvLayer cfg s group reply = some s') : Inv cfg s' := by
  unfold SendThread.saveKvLayer at hs
  split_ifs at hs
  · cases hs
    exact h
  · cases hs
    exact ⟨h.truthful, h.recorded, h.queue⟩
  · cases hs
    refine ⟨h.truthful, h.recorded, ?_⟩
    intro task htask
    rcases mem_append.mp htask with htask | htask
    · exact h.queue task htask
    · cases mem_singleton.mp htask
      exact complete_of_saveOk hok

theorem Inv.step {s' : State} {a : Action} (h : Inv cfg s) (hok : StepOk cfg s a)
    (hs : step cfg s a = some s') : Inv cfg s' := by
  cases a with
  | startLoadKv requests =>
    cases hs
    exact ⟨h.truthful, h.recorded, h.queue⟩
  | saveKvLayer group reply => exact h.saveKvLayer hok hs
  | handleRequest o =>
    unfold SendThread.step at hs
    dsimp only at hs
    split at hs
    · cases hs
    · rename_i task rest hqueue
      cases hs
      exact h.handleTask hqueue (hok task (by simp [hqueue]))

/-- In a run whose failures are all recorded under the right requests, every signal is right. -/
theorem truthful_of_recorded (cfg : Config) {s : State}
    (h : Machine.Reaches (step cfg) (StepOk cfg) State.init s) : Truthful s.log := by
  refine (h.inv (Inv cfg) ⟨trivial, ?_, ?_⟩ fun t a u ht hok hs => ht.step hok hs).truthful
  · exact fun r hr => hr.elim
  · intro task htask
    cases htask

def lastChunk : SendMeta := ⟨[[5]], 1, "10.0.0.2", 9000, none, true⟩

def failedPush (requests : Dict ReqId SendMeta) : List Action :=
  [.startLoadKv requests, .saveKvLayer 0 fun _ => .answered 7000,
    .handleRequest ⟨true, fun _ => some [(5, 5, 128)], true, fun _ => .failed⟩]

theorem truthful_one_request : ∃ s, Machine.run (step ⟨1, 0⟩) State.init
    (failedPush ((∅ : Dict ReqId SendMeta).set 4 lastChunk)) = some s ∧
      s.log = [⟨[4], [4], [], [(4, false)]⟩] ∧ Truthful s.log := by
  refine ⟨_, rfl, rfl, ?_⟩
  have hok : Machine.RunOk (step ⟨1, 0⟩) (StepOk ⟨1, 0⟩) State.init
      (failedPush ((∅ : Dict ReqId SendMeta).set 4 lastChunk)) := by
    refine ⟨trivial, ?_⟩
    rintro _ ⟨⟩
    refine ⟨?_, ?_⟩
    · intro r m hm
      change (Dict.set ∅ 4 lastChunk).get? r = some m at hm
      rw [get?_set] at hm
      split at hm
      · cases hm
        exact ⟨fun _ => .inr ⟨7000, rfl⟩, fun _ _ => rfl⟩
      · cases hm
    · rintro _ ⟨⟩
      refine ⟨?_, fun _ _ => trivial⟩
      rintro task ⟨⟩
      refine ⟨rfl, rfl, fun r _ => ⟨_, _, rfl⟩, fun s => by simp, ?_⟩
      intro r m hm _
      change (Dict.set ∅ 4 _).get? r = some m at hm
      rw [get?_set] at hm
      obtain ⟨hr, ⟨⟩⟩ := ite_none_right_eq_some.mp hm
      cases hr
      exact .inr ⟨rfl, fun _ => rfl⟩
  exact truthful_of_recorded ⟨1, 0⟩ (hok.reaches rfl)

/-- Two requests in one session: only the second is recorded, and the first is signalled as
sent. -/
theorem failed_write_reported_sent : ∃ s, Machine.run (step ⟨1, 0⟩) State.init
    (failedPush (((∅ : Dict ReqId SendMeta).set 4 lastChunk).set 6 lastChunk)) = some s ∧
      s.log = [⟨[4, 6], [4, 6], [], [(4, true), (6, false)]⟩] ∧ ¬ Truthful s.log := by
  refine ⟨_, rfl, rfl, ?_⟩
  rintro ⟨hsent, -⟩
  have hlast := (hsent 4 (by decide)).2.1
  exact hlast ⟨by decide, by decide⟩

end VllmAscend.KvTransfer.Layerwise.SendThread
