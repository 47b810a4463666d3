import VllmAscend.KvTransfer.AscendStore.Scheduler

/-!
# Load specs in the metadata of a step

Each of the three loops of `build_connector_meta` takes the load specs of some requests out of the
scheduler and puts those that can be loaded into the metadata.
-/

namespace VllmAscend.KvTransfer.AscendStore

open PoolScheduler List Option Dict Loop

def delivered (reqMetas : List StepReqMeta) : List (String × LoadSpec) :=
  reqMetas.filterMap fun reqMeta => reqMeta.loadSpec.map fun spec => (reqMeta.reqId, spec)

/-! ## One request -/

section Building

variable {cfg : SchedulerConfig}

theorem delivered_append (l l' : List StepReqMeta) : delivered (l ++ l') = delivered l ++ delivered l' :=
  filterMap_append

theorem delivered_singleton (reqMeta : StepReqMeta) :
    delivered [reqMeta] = (reqMeta.loadSpec.map fun spec => (reqMeta.reqId, spec)).toList := by
  cases hspec : reqMeta.loadSpec <;> simp [delivered, hspec]

def ready (loadSpecs : Dict String LoadSpec) (reqId : String) : Option (String × LoadSpec) :=
  ((loadSpecs.get? reqId).filter (·.canLoad)).map fun spec => (reqId, spec)

def TrackersOk (cfg : SchedulerConfig) (trackers : Dict String RequestTracker) : Prop :=
  ∀ r tracker, trackers.get? r = some tracker → tracker.allocatedBlockIdsByGroup.length = cfg.numGroups ∧ tracker.reqId = r

theorem TrackersOk.set {trackers : Dict String RequestTracker} (h : TrackersOk cfg trackers) {t : RequestTracker}
    (hgroups : t.allocatedBlockIdsByGroup.length = cfg.numGroups) : TrackersOk cfg (trackers.set t.reqId t) := by
  intro r _ ht
  rw [get?_set] at ht
  split at ht
  next heq =>
    cases ht
    exact ⟨hgroups, heq⟩
  next => exact h r _ ht

theorem fromRequestTracker_cases (tracker : RequestTracker) (loadSpec : Option LoadSpec) (skipSave : Option Bool)
    (hashes : List String) (isLastChunk : Option Bool) :
    fromRequestTracker cfg tracker loadSpec skipSave hashes isLastChunk = (tracker, none) ∧ loadSpec = none ∨
      ∃ saved reqMeta, fromRequestTracker cfg tracker loadSpec skipSave hashes isLastChunk =
          ({ tracker with numSavedTokens := saved }, some reqMeta) ∧ reqMeta.reqId = tracker.reqId ∧
        reqMeta.loadSpec = loadSpec.filter (·.canLoad) ∧ reqMeta.blockIdsByGroup = tracker.allocatedBlockIdsByGroup ∧
        reqMeta.canSave = some (!skipsSave cfg tracker skipSave) ∧ reqMeta.eventId = none := by
  unfold fromRequestTracker
  dsimp only
  split
  next h => exact .inl ⟨rfl, h.2⟩
  next => exact .inr ⟨_, _, rfl, rfl, rfl, rfl, rfl, rfl⟩

structure Pinned (s s' : PoolScheduler) : Prop where
  loadSpecs : s'.loadSpecs = s.loadSpecs
  requestTrackers : s'.requestTrackers = s.requestTrackers
  preemptedReqIds : s'.preemptedReqIds = s.preemptedReqIds
  unfinishedRequests : s'.unfinishedRequests = s.unfinishedRequests

theorem touchSendingMambaBlocks_ok {s : PoolScheduler} {reqMeta : StepReqMeta}
    (hgroups : reqMeta.blockIdsByGroup.length = cfg.numGroups) :
    ∃ s' reqMeta', touchSendingMambaBlocks cfg s reqMeta = some (s', reqMeta') ∧ Pinned s s' ∧
      reqMeta'.toReqMeta = reqMeta.toReqMeta := by
  unfold touchSendingMambaBlocks
  split
  · exact ⟨s, reqMeta, rfl, ⟨rfl, rfl, rfl, rfl⟩, rfl⟩
  · have hsome : (cfg.mambaGroupIds.mapM fun groupId => reqMeta.blockIdsByGroup[groupId]?) =
        some (cfg.mambaGroupIds.map fun groupId => reqMeta.blockIdsByGroup.getD groupId []) := by
      apply mapM_eq_map
      intro groupId hgroup
      exact Ragged.getElem?_eq_getD (hgroups ▸ cfg.mamba_lt groupId hgroup) []
    rw [hsome]
    exact ⟨_, _, rfl, ⟨rfl, rfl, rfl, rfl⟩, rfl⟩

/-- From `b` to `b'` the load specs of `popped` are used up and `loads` are added to the metadata. -/
structure Adds (cfg : SchedulerConfig) (b b' : Building) (popped : List String) (loads : List (String × LoadSpec)) : Prop where
  loadSpecs : ∀ r, b'.1.loadSpecs.get? r = if r ∈ popped then none else b.1.loadSpecs.get? r
  unfinished : b'.1.unfinishedRequests = b.1.unfinishedRequests
  trackers : TrackersOk cfg b.1.requestTrackers → TrackersOk cfg b'.1.requestTrackers
  keeps : ∀ r ∈ b.1.requestTrackers.keys, r ∈ b'.1.requestTrackers.keys
  added : ∀ r ∈ popped, r ∈ b'.1.requestTrackers.keys
  delivered : delivered b'.2 = delivered b.2 ++ loads

theorem Adds.refl (b : Building) : Adds cfg b b [] [] where
  loadSpecs r := by simp
  unfinished := rfl
  trackers h := h
  keeps r h := h
  added r hr := absurd hr not_mem_nil
  delivered := by simp

variable {loads : List (String × LoadSpec)} {b : Building}

theorem Adds.trans {b' b'' : Building} {popped popped' : List String} {loads' : List (String × LoadSpec)}
    (h : Adds cfg b b' popped loads) (h' : Adds cfg b' b'' popped' loads') :
    Adds cfg b b'' (popped ++ popped') (loads ++ loads') where
  loadSpecs r := by
    rw [h'.loadSpecs, h.loadSpecs]
    by_cases hr : r ∈ popped <;> by_cases hr' : r ∈ popped' <;> simp [hr, hr']
  unfinished := h'.unfinished.trans h.unfinished
  trackers hok := h'.trackers (h.trackers hok)
  keeps r hr := h'.keeps r (h.keeps r hr)
  added r hr := (mem_append.mp hr).elim (fun hr => h'.keeps r (h.added r hr)) (h'.added r)
  delivered := by rw [h'.delivered, h.delivered, append_assoc]

theorem addRequest_ok {tracker : RequestTracker}
    (hgroups : tracker.allocatedBlockIdsByGroup.length = cfg.numGroups) (loadSpec : Option LoadSpec)
    (skipSave : Option Bool) (hashes : List String) (isLastChunk : Option Bool) :
    ∃ b', addRequest cfg b tracker loadSpec skipSave hashes isLastChunk = some b' ∧
      Adds cfg b b' [] ((loadSpec.filter (·.canLoad)).map fun spec => (tracker.reqId, spec)).toList ∧
      b'.1.preemptedReqIds = b.1.preemptedReqIds ∧ tracker.reqId ∈ b'.1.requestTrackers.keys := by
  have hkeeps : ∀ t, ∀ r ∈ b.1.requestTrackers.keys, r ∈ (b.1.requestTrackers.set tracker.reqId t).keys :=
    fun t r hr => mem_keys_set.mpr (.inr hr)
  have hself : ∀ t, tracker.reqId ∈ (b.1.requestTrackers.set tracker.reqId t).keys :=
    fun t => mem_keys_set.mpr (.inl rfl)
  unfold addRequest
  rcases @fromRequestTracker_cases cfg tracker loadSpec skipSave hashes isLastChunk with
    ⟨hfrom, rfl⟩ | ⟨saved, reqMeta, hfrom, hid, hspec, hblocks, -⟩
  · rw [hfrom]
    exact ⟨_, rfl, ⟨fun r => by simp, rfl, fun hok => hok.set hgroups, hkeeps tracker, by simp, by simp⟩, rfl, hself tracker⟩
  · rw [hfrom]
    obtain ⟨s', reqMeta', htouch, hpinned, hmeta⟩ := @touchSendingMambaBlocks_ok cfg
      { b.1 with requestTrackers := b.1.requestTrackers.set tracker.reqId { tracker with numSavedTokens := saved } }
      reqMeta (hblocks ▸ hgroups)
    have hid' : reqMeta'.reqId = tracker.reqId := (congrArg ReqMeta.reqId hmeta).trans hid
    have hspec' : reqMeta'.loadSpec = loadSpec.filter (·.canLoad) := (congrArg ReqMeta.loadSpec hmeta).trans hspec
    refine ⟨(s', b.2 ++ [reqMeta']), ?_, ⟨?_, hpinned.unfinishedRequests, ?_, ?_, by simp, ?_⟩, hpinned.preemptedReqIds, ?_⟩
    · dsimp only
      rw [htouch]
      rfl
    · simp [hpinned.loadSpecs]
    · intro hok
      rw [hpinned.requestTrackers]
      exact hok.set (t := { tracker with numSavedTokens := saved }) hgroups
    · intro r hr
      rw [hpinned.requestTrackers]
      exact hkeeps _ r hr
    · rw [delivered_append, delivered_singleton, hid', hspec']
    · rw [hpinned.requestTrackers]
      exact hself _

theorem Adds.of_pop {b' : Building} {r : String}
    (h : Adds cfg (popLoadSpec b r) b' [] loads) (hr : r ∈ b'.1.requestTrackers.keys) : Adds cfg b b' [r] loads where
  loadSpecs r' := by
    rw [h.loadSpecs]
    simp [popLoadSpec, get?_erase, eq_comm]
  unfinished := h.unfinished
  trackers := h.trackers
  keeps := h.keeps
  added := forall_mem_singleton.mpr hr
  delivered := h.delivered

section Loops

variable {requests : String → PoolRequest} {output : SchedulerOutput} {b : Building}

theorem addNew_ok {req : NewReq} (hunfinished : req.reqId ∈ b.1.unfinishedRequests.keys)
    (hgroups : req.blockIds.length = cfg.numGroups) : ∃ b', addNew cfg requests output b req = some b' ∧
      Adds cfg b b' [req.reqId] (ready b.1.loadSpecs req.reqId).toList ∧
      b'.1.preemptedReqIds = b.1.preemptedReqIds := by
  obtain ⟨blocks, hblocks⟩ := exists_get?_of_mem_keys hunfinished
  unfold addNew
  rw [hblocks]
  obtain ⟨b', hb', hadds, hpreempted, hkey⟩ := @addRequest_ok cfg (popLoadSpec b req.reqId)
    (freshTracker req.reqId (req.numComputedTokens + output.numScheduledTokens req.reqId) req.blockIds req.promptTokens)
    hgroups (b.1.loadSpecs.get? req.reqId) (some cfg.forceSkipSave) (requests req.reqId).blockHashes _
  exact ⟨b', hb', hadds.of_pop hkey, hpreempted⟩

variable {new : List (List Nat)}

theorem addResumed_ok {r : String} (hunfinished : r ∈ b.1.unfinishedRequests.keys)
    (hgroups : new.length = cfg.numGroups) : ∃ b', addResumed cfg requests output b r new = some b' ∧
      Adds cfg b b' [r] (ready b.1.loadSpecs r).toList ∧
      b'.1.preemptedReqIds = b.1.preemptedReqIds.filter (· ≠ r) := by
  obtain ⟨blocks, hblocks⟩ := exists_get?_of_mem_keys hunfinished
  unfold addResumed
  rw [hblocks]
  obtain ⟨b', hb', hadds, hpreempted, hkey⟩ := @addRequest_ok cfg
    (popLoadSpec ({ b.1 with preemptedReqIds := b.1.preemptedReqIds.filter (· ≠ r) }, b.2) r)
    (freshTracker r ((requests r).numComputedTokens + output.numScheduledTokens r) new (requests r).promptTokens)
    hgroups (b.1.loadSpecs.get? r) (some cfg.forceSkipSave) (requests r).blockHashes _
  have hpop := hadds.of_pop hkey
  exact ⟨b', hb', ⟨hpop.loadSpecs, hpop.unfinished, hpop.trackers, hpop.keeps, hpop.added, hpop.delivered⟩, hpreempted⟩

theorem isSome_updateMambaSpecBlocks (allocated ids : List Nat) (g done : Nat) :
    (updateMambaSpecBlocks cfg allocated ids g done).isSome = true := by
  unfold updateMambaSpecBlocks
  split
  next hmamba =>
    rw [getElem?_eq_getElem (cfg.mamba_lt g hmamba)]
    rfl
  next => rfl

theorem update_ok {tracker : RequestTracker} (done : Nat)
    (htracker : tracker.allocatedBlockIdsByGroup.length = cfg.numGroups) (hgroups : new.length = cfg.numGroups) :
    ∃ groups, tracker.update cfg new done =
      some { tracker with allocatedBlockIdsByGroup := groups } ∧ groups.length = cfg.numGroups := by
  have hsome : ∀ x, extendGroup cfg new done x = some ((extendGroup cfg new done x).getD []) := by
    intro x
    unfold extendGroup
    split
    next => rfl
    next ids hids =>
      obtain ⟨y, hy⟩ := isSome_iff_exists.mp (@isSome_updateMambaSpecBlocks cfg x.1 ids x.2 done)
      rw [hy]
      rfl
  unfold RequestTracker.update
  dsimp only
  rw [hgroups, htracker, Nat.sub_self, replicate_zero, mapM_eq_map fun x _ => hsome x]
  exact ⟨_, rfl, by simpa using htracker⟩

theorem addChunked_ok {req : CachedReq} (htrackers : TrackersOk cfg b.1.requestTrackers)
    (htracker : req.reqId ∈ b.1.requestTrackers.keys) (hunfinished : req.reqId ∈ b.1.unfinishedRequests.keys)
    (hgroups : new.length = cfg.numGroups) :
    ∃ b', addChunked cfg requests output b req new = some b' ∧ Adds cfg b b' [] [] ∧
      b'.1.preemptedReqIds = b.1.preemptedReqIds := by
  obtain ⟨blocks, hblocks⟩ := exists_get?_of_mem_keys hunfinished
  obtain ⟨tracker, hget⟩ := exists_get?_of_mem_keys htracker
  obtain ⟨hlen, hid⟩ := htrackers _ _ hget
  unfold addChunked
  rw [hblocks, hget]
  dsimp only [bind_some]
  split
  · refine ⟨_, rfl, ⟨fun r => by simp, rfl, ?_, ?_, by simp, by simp⟩, rfl⟩
    · intro hok
      rw [← hid]
      exact hok.set (t := tracker.advance _) hlen
    · exact fun r hr => mem_keys_set.mpr (.inr hr)
  · let numNewTokens := min (output.numScheduledTokens req.reqId) ((requests req.reqId).numTokens - tracker.tokenLen)
    obtain ⟨groups, hupdate, hgroups⟩ :=
      @update_ok cfg new (tracker.advance numNewTokens) (requests req.reqId).numComputedTokens hlen hgroups
    obtain ⟨b', hb', hadds, hpreempted, -⟩ := @addRequest_ok cfg b
      { tracker.advance numNewTokens with allocatedBlockIdsByGroup := groups } hgroups none (some cfg.forceSkipSave)
      (requests req.reqId).blockHashes _
    rw [hupdate]
    exact ⟨b', hb', hadds, hpreempted⟩

def resumes (preempted : List String) (req : CachedReq) : Bool := req.newBlockIds.getD [] ≠ [] ∧ req.reqId ∈ preempted

theorem addCached_ok {req : CachedReq} (htrackers : TrackersOk cfg b.1.requestTrackers)
    (hreq : req.newBlockIds.getD [] = [] ∨ (req.newBlockIds.getD []).length = cfg.numGroups ∧ req.reqId ∈
      b.1.unfinishedRequests.keys ∧ (req.reqId ∈ b.1.preemptedReqIds ∨ req.reqId ∈ b.1.requestTrackers.keys)) :
    ∃ b', addCached cfg requests output b req = some b' ∧
      Adds cfg b b' (if resumes b.1.preemptedReqIds req then [req.reqId] else [])
        (if resumes b.1.preemptedReqIds req then (ready b.1.loadSpecs req.reqId).toList else []) ∧
      b'.1.preemptedReqIds = if resumes b.1.preemptedReqIds req then b.1.preemptedReqIds.filter (· ≠ req.reqId)
        else b.1.preemptedReqIds := by
  unfold addCached
  by_cases hnone : req.newBlockIds.getD [] = []
  · have hno : resumes b.1.preemptedReqIds req = false := by simp [resumes, hnone]
    rw [hno]
    rw [if_pos hnone]
    exact ⟨b, rfl, .refl b, rfl⟩
  · obtain ⟨hgroups, hunfinished, hknown⟩ := hreq.resolve_left hnone
    rw [if_neg hnone]
    by_cases hpre : req.reqId ∈ b.1.preemptedReqIds
    · have hyes : resumes b.1.preemptedReqIds req = true := by simp [resumes, hnone, hpre]
      rw [hyes, if_pos hpre]
      exact addResumed_ok hunfinished hgroups
    · have hno : resumes b.1.preemptedReqIds req = false := by simp [resumes, hpre]
      rw [hno, if_neg hpre]
      exact addChunked_ok htrackers (hknown.resolve_left hpre) hunfinished hgroups

def waits (output : SchedulerOutput) (loadSpecs : Dict String LoadSpec) (entry : String × List (List Nat)) : Bool :=
  ¬ (entry.1 ∈ output.scheduledNewReqs.map (·.reqId) ∨ entry.1 ∈ output.scheduledCachedReqs.map (·.reqId)) ∧
    (loadSpecs.get? entry.1).isSome

theorem addWaiting_ok {entry : String × List (List Nat)} (hgroups : entry.2.length = cfg.numGroups) :
    ∃ b', addWaiting cfg requests output b entry = some b' ∧
      Adds cfg b b' (if waits output b.1.loadSpecs entry then [entry.1] else [])
        (if waits output b.1.loadSpecs entry then (ready b.1.loadSpecs entry.1).toList else []) ∧
      b'.1.preemptedReqIds = b.1.preemptedReqIds := by
  unfold addWaiting
  by_cases hscheduled : entry.1 ∈ output.scheduledNewReqs.map (·.reqId) ∨
      entry.1 ∈ output.scheduledCachedReqs.map (·.reqId)
  · have hno : waits output b.1.loadSpecs entry = false := by simp only [waits, hscheduled]; simp
    rw [hno, if_pos hscheduled]
    exact ⟨b, rfl, .refl b, rfl⟩
  · rw [if_neg hscheduled]
    cases hspec : b.1.loadSpecs.get? entry.1 with
    | none =>
      have hno : waits output b.1.loadSpecs entry = false := by simp [waits, hspec]
      rw [hno]
      exact ⟨b, rfl, .refl b, rfl⟩
    | some loadSpec =>
      have hyes : waits output b.1.loadSpecs entry = true := by simp only [waits, hscheduled, hspec]; simp
      obtain ⟨b', hb', hadds, hpreempted, hkey⟩ := @addRequest_ok cfg (popLoadSpec b entry.1)
        (freshTracker entry.1 _ entry.2 (requests entry.1).promptTokens) hgroups (some loadSpec) none
        (requests entry.1).blockHashes none
      rw [hyes]
      refine ⟨b', hb', ?_, hpreempted⟩
      have hready : ready b.1.loadSpecs entry.1 =
          ((some loadSpec).filter (·.canLoad)).map fun spec => (entry.1, spec) := by
        rw [ready, hspec]
      rw [hready]
      exact hadds.of_pop hkey

theorem ready_congr {loadSpecs loadSpecs' : Dict String LoadSpec} {r : String}
    (h : loadSpecs.get? r = loadSpecs'.get? r) : ready loadSpecs r = ready loadSpecs' r := by
  rw [ready, ready, h]

/-- The rule of the three loops: a request does not change the load specs of those after it. -/
theorem foldlM_adds {α : Type*} {f : Building → α → Option Building} {key : α → String} {pops : α → Bool}
    {P : List α → Building → Prop} {specs : Dict String LoadSpec}
    (hstep : ∀ x rest b, P (x :: rest) b → b.1.loadSpecs.get? (key x) = specs.get? (key x) →
      ∃ b', f b x = some b' ∧ Adds cfg b b' (if pops x then [key x] else [])
        (if pops x then (ready specs (key x)).toList else []) ∧ P rest b')
    {l : List α} (hnodup : (l.map key).Nodup) {b : Building}
    (hspecs : ∀ x ∈ l, b.1.loadSpecs.get? (key x) = specs.get? (key x)) (h : P l b) :
    ∃ b', l.foldlM f b = some b' ∧
      Adds cfg b b' ((l.filter pops).map key) (((l.filter pops).map key).filterMap (ready specs)) ∧ P [] b' := by
  induction l generalizing b with
  | nil => exact ⟨b, rfl, .refl b, h⟩
  | cons x rest ih =>
    obtain ⟨hx, hrest⟩ := nodup_cons.mp hnodup
    obtain ⟨b₁, hb₁, hadds₁, hP₁⟩ := hstep x rest b h (hspecs x mem_cons_self)
    have hspecs₁ : ∀ y ∈ rest, b₁.1.loadSpecs.get? (key y) = specs.get? (key y) := by
      intro y hy
      have hne : key y ≠ key x := fun heq => hx (heq ▸ mem_map_of_mem hy)
      have hpop : key y ∉ (if pops x then [key x] else []) := by
        split
        · exact fun hmem => hne (mem_singleton.mp hmem)
        · exact not_mem_nil
      rw [hadds₁.loadSpecs, if_neg hpop]
      exact hspecs y (mem_cons_of_mem x hy)
    obtain ⟨b', hb', hadds', hP'⟩ := ih hrest hspecs₁ hP₁
    refine ⟨b', ?_, ?_, hP'⟩
    · rw [foldlM_cons, hb₁]
      exact hb'
    · have htrans := hadds₁.trans hadds'
      cases hpops : pops x with
      | true => cases hready : ready specs (key x) <;> simpa [hpops, hready] using htrans
      | false => simpa [hpops] using htrans

end Loops

/-! ## The metadata of a step -/

section Build

variable {requests : String → PoolRequest} {output : SchedulerOutput} {s : PoolScheduler}

structure BuildReady (cfg : SchedulerConfig) (output : SchedulerOutput) (s : PoolScheduler) : Prop where
  trackers : TrackersOk cfg s.requestTrackers
  groups : ∀ r blocks, s.unfinishedRequests.get? r = some blocks → blocks.length = cfg.numGroups
  nodup : (output.scheduledNewReqs.map (·.reqId) ++ output.scheduledCachedReqs.map (·.reqId)).Nodup
  new : ∀ req ∈ output.scheduledNewReqs, req.blockIds.length = cfg.numGroups ∧
    req.reqId ∈ s.unfinishedRequests.keys
  cached : cfg.forceSkipSave = false → ∀ req ∈ output.scheduledCachedReqs, req.newBlockIds.getD [] = [] ∨
    (req.newBlockIds.getD []).length = cfg.numGroups ∧ req.reqId ∈ s.unfinishedRequests.keys ∧
      (req.reqId ∈ s.preemptedReqIds ∨ req.reqId ∈ s.requestTrackers.keys)

def resumedIds (cfg : SchedulerConfig) (output : SchedulerOutput) (s : PoolScheduler) : List String :=
  if cfg.forceSkipSave then [] else (output.scheduledCachedReqs.filter (resumes s.preemptedReqIds)).map (·.reqId)

def sentIds (cfg : SchedulerConfig) (output : SchedulerOutput) (s : PoolScheduler) : List String :=
  output.scheduledNewReqs.map (·.reqId) ++ resumedIds cfg output s ++
    (s.unfinishedRequests.entries.filter (waits output s.loadSpecs)).map Prod.fst

theorem newLoop_ok (h : BuildReady cfg output s) :
    ∃ b, output.scheduledNewReqs.foldlM (addNew cfg requests output) (s, []) = some b ∧
      Adds cfg (s, []) b (output.scheduledNewReqs.map (·.reqId))
        ((output.scheduledNewReqs.map (·.reqId)).filterMap (ready s.loadSpecs)) ∧
      b.1.preemptedReqIds = s.preemptedReqIds := by
  let P : List NewReq → Building → Prop := fun rest b =>
    (∀ req ∈ rest, req.blockIds.length = cfg.numGroups ∧ req.reqId ∈ b.1.unfinishedRequests.keys) ∧
      b.1.preemptedReqIds = s.preemptedReqIds
  have hloop := @foldlM_adds cfg NewReq (addNew cfg requests output) (·.reqId) (fun _ => true) P s.loadSpecs
    ?_ output.scheduledNewReqs (nodup_append.mp h.nodup).1 (s, []) (fun _ _ => rfl) ⟨h.new, rfl⟩
  · obtain ⟨b, hb, hadds, -, hpreempted⟩ := hloop
    rw [filter_true] at hadds
    exact ⟨b, hb, hadds, hpreempted⟩
  · intro req rest b hP hspecs
    obtain ⟨hgroups, hunfinished⟩ := hP.1 req mem_cons_self
    obtain ⟨b', hb', hadds, hpreempted⟩ := @addNew_ok cfg requests output b req hunfinished hgroups
    rw [ready_congr hspecs] at hadds
    refine ⟨b', hb', hadds, fun req' hreq' => ?_, hpreempted.trans hP.2⟩
    rw [hadds.unfinished]
    exact hP.1 req' (mem_cons_of_mem req hreq')

variable {loads : List (String × LoadSpec)} {popped : List String} {b : Building}

theorem cachedLoop_ok (h : BuildReady cfg output s) (hforce : cfg.forceSkipSave = false)
    (hb : Adds cfg (s, []) b popped loads) (hpopped : ∀ r ∈ output.scheduledCachedReqs.map (·.reqId), r ∉ popped)
    (hpreempted : b.1.preemptedReqIds = s.preemptedReqIds) :
    ∃ b', output.scheduledCachedReqs.foldlM (addCached cfg requests output) b = some b' ∧
      Adds cfg b b' (resumedIds cfg output s) ((resumedIds cfg output s).filterMap (ready s.loadSpecs)) ∧
      ∀ r, r ∈ b'.1.preemptedReqIds ↔ r ∈ s.preemptedReqIds ∧ r ∉ resumedIds cfg output s := by
  let pops := resumes s.preemptedReqIds
  let done : List CachedReq → List String := fun l => (l.filter pops).map (·.reqId)
  let P : List CachedReq → Building → Prop := fun rest b =>
    TrackersOk cfg b.1.requestTrackers ∧
    (∀ req ∈ rest, req.newBlockIds.getD [] = [] ∨ (req.newBlockIds.getD []).length = cfg.numGroups ∧ req.reqId ∈
      b.1.unfinishedRequests.keys ∧ (req.reqId ∈ s.preemptedReqIds ∨ req.reqId ∈ b.1.requestTrackers.keys)) ∧
    ∃ before, output.scheduledCachedReqs = before ++ rest ∧
      ∀ r, r ∈ b.1.preemptedReqIds ↔ r ∈ s.preemptedReqIds ∧ r ∉ done before
  have hnodup : (output.scheduledCachedReqs.map (·.reqId)).Nodup := (nodup_append.mp h.nodup).2.1
  have hinit : P output.scheduledCachedReqs b := by
    refine ⟨hb.trackers h.trackers, fun req hreq => ?_, [], rfl, fun r => by simp [done, hpreempted]⟩
    rw [hb.unfinished]
    exact (h.cached hforce req hreq).imp_right fun hreq => ⟨hreq.1, hreq.2.1, hreq.2.2.imp_right (hb.keeps _)⟩
  have hspecs : ∀ req ∈ output.scheduledCachedReqs, b.1.loadSpecs.get? req.reqId = s.loadSpecs.get? req.reqId := by
    intro req hreq
    rw [hb.loadSpecs, if_neg (hpopped _ (mem_map_of_mem hreq))]
  have hloop := @foldlM_adds cfg CachedReq (addCached cfg requests output) (·.reqId) pops P s.loadSpecs ?_ _
    hnodup b hspecs hinit
  · obtain ⟨b', hb', hadds, -, -, before, hbefore, hpre⟩ := hloop
    rw [append_nil] at hbefore
    have hids : resumedIds cfg output s = (output.scheduledCachedReqs.filter pops).map (·.reqId) := by
      simp [resumedIds, hforce, pops]
    rw [hids]
    exact ⟨b', hb', hadds, fun r => by rw [hpre r, hbefore]⟩
  · rintro req rest b ⟨htrackers, hreqs, before, hbefore, hpre⟩ hspecs
    -- the requests before this one are others
    have hother : req.reqId ∉ done before := by
      intro hmem
      obtain ⟨req', hreq', heq⟩ := mem_map.mp hmem
      rw [hbefore, map_append] at hnodup
      exact (nodup_append.mp hnodup).2.2 _ (mem_map_of_mem (mem_of_mem_filter hreq')) _ mem_cons_self heq
    have hsame : req.reqId ∈ b.1.preemptedReqIds ↔ req.reqId ∈ s.preemptedReqIds :=
      (hpre req.reqId).trans (and_iff_left hother)
    have hpops : resumes b.1.preemptedReqIds req = pops req := by simp only [resumes, pops, hsame]
    obtain ⟨b', hb', hadds, hpreempted⟩ := @addCached_ok cfg requests output b req htrackers
      ((hreqs req mem_cons_self).imp_right fun hreq => ⟨hreq.1, hreq.2.1, hreq.2.2.imp_left hsame.mpr⟩)
    rw [hpops, ready_congr hspecs] at hadds
    refine ⟨b', hb', hadds, hadds.trackers htrackers, fun req' hreq' => ?_, before ++ [req], by simp [hbefore], fun r => ?_⟩
    · rw [hadds.unfinished]
      exact (hreqs req' (mem_cons_of_mem req hreq')).imp_right fun hreq =>
        ⟨hreq.1, hreq.2.1, hreq.2.2.imp_right (hadds.keeps _)⟩
    · rw [hpreempted, hpops]
      cases hp : pops req with
      | true => simp [done, hp, hpre, and_assoc]
      | false => simp [done, hp, hpre]

theorem waitingLoop_ok (h : BuildReady cfg output s) (hb : Adds cfg (s, []) b popped loads)
    (hpopped : ∀ r ∈ popped, r ∈ output.scheduledNewReqs.map (·.reqId) ∨ r ∈ output.scheduledCachedReqs.map (·.reqId)) :
    ∃ b', b.1.unfinishedRequests.entries.foldlM (addWaiting cfg requests output) b = some b' ∧
      Adds cfg b b' ((s.unfinishedRequests.entries.filter (waits output s.loadSpecs)).map Prod.fst)
        (((s.unfinishedRequests.entries.filter (waits output s.loadSpecs)).map Prod.fst).filterMap (ready s.loadSpecs)) ∧
      b'.1.preemptedReqIds = b.1.preemptedReqIds := by
  let scheduled : String → Prop := fun r =>
    r ∈ output.scheduledNewReqs.map (·.reqId) ∨ r ∈ output.scheduledCachedReqs.map (·.reqId)
  -- the loops before used up the load specs of scheduled requests only
  have hspecs : ∀ r, ¬ scheduled r → b.1.loadSpecs.get? r = s.loadSpecs.get? r := by
    intro r hr
    rw [hb.loadSpecs, if_neg fun hpop => hr (hpopped r hpop)]
  have hwaits : waits output b.1.loadSpecs = waits output s.loadSpecs := by
    funext entry
    by_cases hr : scheduled entry.1
    · have hno : ∀ specs, waits output specs entry = false := fun specs => by
        simp only [waits, show (_ ∨ _) from hr]
        simp
      rw [hno, hno]
    · simp only [waits, hspecs entry.1 hr]
  let P : List (String × List (List Nat)) → Building → Prop := fun rest b' =>
    (∀ entry ∈ rest, entry.2.length = cfg.numGroups) ∧ b'.1.preemptedReqIds = b.1.preemptedReqIds
  have hgroups : ∀ entry ∈ b.1.unfinishedRequests.entries, entry.2.length = cfg.numGroups := by
    intro entry hentry
    rw [hb.unfinished] at hentry
    exact h.groups _ _ (mem_entries.mp hentry)
  have hloop := @foldlM_adds cfg _ (addWaiting cfg requests output) Prod.fst (waits output b.1.loadSpecs) P
    b.1.loadSpecs ?_ _ b.1.unfinishedRequests.nodup b (fun _ _ => rfl) ⟨hgroups, rfl⟩
  · obtain ⟨b', hb', hadds, -, hpreempted⟩ := hloop
    have hready : (((s.unfinishedRequests.entries.filter (waits output s.loadSpecs)).map Prod.fst).filterMap
        (ready b.1.loadSpecs)) =
        (((s.unfinishedRequests.entries.filter (waits output s.loadSpecs)).map Prod.fst).filterMap (ready s.loadSpecs)) := by
      apply filterMap_congr
      refine forall_mem_map.mpr fun entry hentry => ?_
      have hwait := of_decide_eq_true (mem_filter.mp hentry).2
      exact ready_congr (hspecs entry.1 hwait.1)
    rw [hwaits, hb.unfinished, hready] at hadds
    exact ⟨b', hb', hadds, hpreempted⟩
  · rintro entry rest b' ⟨hgroups, hpre⟩ hsame
    obtain ⟨b'', hb'', hadds, hpreempted⟩ := @addWaiting_ok cfg requests output b' entry (hgroups entry mem_cons_self)
    have hwait : waits output b'.1.loadSpecs entry = waits output b.1.loadSpecs entry := by simp only [waits, hsame]
    rw [hwait, ready_congr hsame] at hadds
    exact ⟨b'', hb'', hadds, fun e he => hgroups e (mem_cons_of_mem entry he), hpreempted.trans hpre⟩

theorem allCached_ok (h : BuildReady cfg output s) (hb : Adds cfg (s, []) b popped loads)
    (hpopped : ∀ r ∈ output.scheduledCachedReqs.map (·.reqId), r ∉ popped)
    (hpreempted : b.1.preemptedReqIds = s.preemptedReqIds) : ∃ b', addAllCached cfg requests output b = some b' ∧
      Adds cfg b b' (resumedIds cfg output s) ((resumedIds cfg output s).filterMap (ready s.loadSpecs)) ∧
      ∀ r, r ∈ b'.1.preemptedReqIds ↔ r ∈ s.preemptedReqIds ∧ r ∉ resumedIds cfg output s := by
  unfold addAllCached
  cases hforce : cfg.forceSkipSave with
  | true =>
    refine ⟨b, rfl, ?_, fun r => ?_⟩
    · simpa [resumedIds, hforce] using Adds.refl b
    · simp [resumedIds, hforce, hpreempted]
  | false => exact cachedLoop_ok h hforce hb hpopped hpreempted

theorem mem_cached_of_mem_resumedIds {r : String} (hr : r ∈ resumedIds cfg output s) :
    r ∈ output.scheduledCachedReqs.map (·.reqId) := by
  unfold resumedIds at hr
  split at hr
  · cases hr
  · obtain ⟨req, hreq, rfl⟩ := mem_map.mp hr
    exact mem_map_of_mem (mem_of_mem_filter hreq)

theorem build_ok (h : BuildReady cfg output (dropLeft output s)) :
    ∃ b, buildConnectorMeta cfg requests output s = some b ∧
      Adds cfg (dropLeft output s, []) b (sentIds cfg output (dropLeft output s))
        ((sentIds cfg output (dropLeft output s)).filterMap (ready s.loadSpecs)) ∧ ∀ r, r ∈ b.1.preemptedReqIds ↔
        r ∈ (dropLeft output s).preemptedReqIds ∧ r ∉ resumedIds cfg output (dropLeft output s) := by
  obtain ⟨b₁, hb₁, hadds₁, hpre₁⟩ := @newLoop_ok cfg requests output _ h
  have hcached : ∀ r ∈ output.scheduledCachedReqs.map (·.reqId), r ∉ output.scheduledNewReqs.map (·.reqId) :=
    fun r hr hnew => (nodup_append.mp h.nodup).2.2 r hnew r hr rfl
  obtain ⟨b₂, hb₂, hadds₂, hpre₂⟩ := @allCached_ok cfg requests output _ _ _ _ h hadds₁ hcached hpre₁
  have hpopped : ∀ r ∈ output.scheduledNewReqs.map (·.reqId) ++ resumedIds cfg output (dropLeft output s),
      r ∈ output.scheduledNewReqs.map (·.reqId) ∨ r ∈ output.scheduledCachedReqs.map (·.reqId) :=
    fun r hr => (mem_append.mp hr).imp_right mem_cached_of_mem_resumedIds
  obtain ⟨b₃, hb₃, hadds₃, hpre₃⟩ := @waitingLoop_ok cfg requests output _ _ _ _ h (hadds₁.trans hadds₂) hpopped
  refine ⟨b₃, ?_, ?_, fun r => by rw [hpre₃, hpre₂]⟩
  · unfold buildConnectorMeta
    rw [hb₁, bind_eq_bind, bind_some, hb₂, bind_some, hb₃]
  · have htotal := (hadds₁.trans hadds₂).trans hadds₃
    rw [← filterMap_append, ← filterMap_append] at htotal
    exact htotal

end Build

end Building

end VllmAscend.KvTransfer.AscendStore
