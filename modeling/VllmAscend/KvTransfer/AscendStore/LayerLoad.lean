import VllmAscend.KvTransfer.AscendStore.TokenDatabase
import VllmAscend.Lib.Handoff

/-!
# Layerwise loads

A retriever is a generator: `retrieveLayer` gives what it does between two yields. `start_load_kv` runs every
retriever to its first yield, and each `wait_for_layer_load` to the next one, where it waits for the event of the
receiving thread and then submits the layer after.
-/

namespace VllmAscend.KvTransfer.AscendStore

open Machine Handoff List Option Nat Loop

abbrev LoadJob := LayerMultiBlockReqMeta

structure LayerWorker where
  db : ChunkedTokenDatabase
  numLayers : Nat

namespace LayerWorker

variable (w : LayerWorker)

def loadChunks (request : ReqMeta) (loadSpec : LoadSpec) : Option (List Chunk) :=
  let blockSize := w.db.getBlockSize 0
  let maskNum := loadSpec.vllmCachedTokens / blockSize * blockSize
  w.db.processTokens request.tokenLenChunk request.blockHashes maskNum

def retrieveLayer (request : ReqMeta) (loadSpec : LoadSpec) : Option (List (List (Op LoadJob))) := do
  let chunks ← w.loadChunks request loadSpec
  if chunks ≠ [] then
    let layers := (range w.numLayers).map fun layerId =>
      (if layerId = 0 then [] else [.wait]) ++
        [.clear, .submit (layerReqMeta request.reqId chunks w.numLayers layerId)]
    return layers ++ [[]]
  else
    return replicate w.numLayers [] ++ [[]]

def loading (requests : List ReqMeta) : List (ReqMeta × LoadSpec) :=
  requests.filterMap fun request =>
    match request.loadSpec with
    | none => none
    | some loadSpec => if loadSpec.canLoad then some (request, loadSpec) else none

def layerwiseRetrievers (requests : List ReqMeta) : Option (List (List (List (Op LoadJob)))) :=
  (loading requests).mapM fun request => w.retrieveLayer request.1 request.2

end LayerWorker

def nextAll (retrievers : List (List (List (Op LoadJob)))) (yields : Nat) : List (Op LoadJob) :=
  retrievers.flatMap (·.getD yields [])

/-- The main thread is in call `call`: 0 is `start_load_kv`, `l + 1` the `wait_for_layer_load` before
layer `l`. It has returned from the call when its program is empty. -/
structure LoadState where
  call : Nat
  threads : Handoff.State LoadJob

inductive LoadAction
  | call
  | thread (action : Handoff.Action)

def LoadState.initial (retrievers : List (List (List (Op LoadJob)))) : LoadState :=
  ⟨0, { program := nextAll retrievers 0 }⟩

def loadStep (numLayers : Nat) (retrievers : List (List (List (Op LoadJob)))) (s : LoadState) :
    LoadAction → Option LoadState
  | .call =>
    if s.threads.program = [] ∧ s.call < numLayers then
      some ⟨s.call + 1, { s.threads with program := nextAll retrievers (s.call + 1) }⟩
    else none
  | .thread action => (Handoff.step s.threads action).map fun threads => ⟨s.call, threads⟩

def LoadState.Returns (s : LoadState) (l : Nat) : Prop := s.call = l + 1 ∧ s.threads.program = []

namespace LayerWorker

variable (w : LayerWorker) (requests : List ReqMeta)

def layerJob (request : ReqMeta × LoadSpec) (layerId : Nat) : Option LoadJob :=
  match w.loadChunks request.1 request.2 with
  | none => none
  | some chunks =>
    if chunks = [] then none
    else some (layerReqMeta request.1.reqId chunks w.numLayers layerId)

def layerJobs (layerId : Nat) : List LoadJob := (loading requests).filterMap fun request => w.layerJob request layerId

def LayerLoaded (s : LoadState) (l : Nat) : Prop := ∀ job ∈ w.layerJobs requests l, job ∈ s.threads.completed

/-! ## The program of the main thread -/

def segment (layerId : Nat) (job : LoadJob) : List (Op LoadJob) :=
  if layerId = 0 then [.clear, .submit job] else [.wait, .clear, .submit job]

theorem retrieveLayer_getD {req : ReqMeta × LoadSpec} {segments : List (List (Op LoadJob))}
    (h : w.retrieveLayer req.1 req.2 = some segments) (c : Nat) :
    segments.getD c [] =
      if c < w.numLayers then (w.layerJob req c).toList.flatMap (segment c) else [] := by
  obtain ⟨chunks, hchunks, h⟩ := bind_eq_some_iff.mp h
  unfold layerJob
  rw [hchunks]
  by_cases hempty : chunks = []
  · rw [if_neg (not_not.mpr hempty)] at h
    cases h
    simp only [hempty, if_true, toList_none, flatMap_nil, ite_self]
    rw [← replicate_succ', getD_eq_getElem?_getD, getElem?_replicate]
    split <;> rfl
  · rw [if_pos hempty] at h
    cases h
    simp only [hempty, if_false, toList_some, flatMap_singleton]
    rw [getD_eq_getElem?_getD, getElem?_append, length_map, length_range]
    split
    · rename_i hc
      rw [getElem?_map, getElem?_range hc]
      simp only [map_some, getD_some, segment]
      split <;> rfl
    · rw [getElem?_singleton]
      split <;> rfl

theorem nextAll_eq {retrievers : List (List (List (Op LoadJob)))}
    (h : w.layerwiseRetrievers requests = some retrievers) (c : Nat) :
    nextAll retrievers c =
      if c < w.numLayers then (w.layerJobs requests c).flatMap (segment c) else [] := by
  have hsome := fun request hrequest => exists_of_mapM h (x := request) hrequest
  rw [eq_map_of_mapM [] h]
  unfold nextAll layerJobs
  rw [flatMap_map]
  generalize loading requests = requests at hsome
  induction requests with
  | nil => simp
  | cons request rest ih =>
    obtain ⟨segments, hsegments⟩ := hsome request mem_cons_self
    rw [flatMap_cons, ih fun r hr => hsome r (mem_cons_of_mem _ hr), hsegments,
      getD_some, w.retrieveLayer_getD hsegments]
    split
    · cases hjob : w.layerJob request c with
      | none | some job => simp [hjob]
    · rfl

theorem length_layerJobs (c d : Nat) : (w.layerJobs requests c).length = (w.layerJobs requests d).length := by
  unfold layerJobs
  rw [length_filterMap_eq_countP, length_filterMap_eq_countP]
  refine countP_congr fun request _ => ?_
  unfold layerJob
  cases w.loadChunks request.1 request.2 with
  | none => rfl
  | some chunks =>
    dsimp only
    split <;> rfl

theorem layerId_of_mem {c : Nat} {job : LoadJob} (h : job ∈ w.layerJobs requests c) : job.layerId = c := by
  obtain ⟨request, -, hjob⟩ := mem_filterMap.mp h
  unfold layerJob at hjob
  split at hjob
  · cases hjob
  · split at hjob <;> cases hjob
    rfl

def jobsUpTo (m : Nat) : List LoadJob := (range m).flatMap (w.layerJobs requests)

theorem jobsUpTo_succ (m : Nat) : w.jobsUpTo requests (m + 1) = w.jobsUpTo requests m ++ w.layerJobs requests m := by
  simp [jobsUpTo, range_succ, flatMap_append]

theorem length_jobsUpTo (m : Nat) : (w.jobsUpTo requests m).length = (w.layerJobs requests 0).length * m := by
  induction m with
  | zero => rfl
  | succ m ih =>
    rw [jobsUpTo_succ, length_append, ih, w.length_layerJobs requests m 0]
    ring

section Program

variable {retrievers : List (List (List (Op LoadJob)))}
  (h : w.layerwiseRetrievers requests = some retrievers)

include h

theorem chained_nextAll (c : Nat) : Chained (nextAll retrievers c) := by
  rw [w.nextAll_eq requests h]
  split
  · refine .flatMap (fun job => ?_) _
    unfold segment
    split
    · trivial
    · exact ⟨⟨_, rfl⟩, trivial⟩
  · trivial

theorem submits_nextAll (c : Nat) : submits (nextAll retrievers c) =
    if c < w.numLayers then w.layerJobs requests c else [] := by
  rw [w.nextAll_eq requests h]
  split
  · have hone : ∀ job, submits (segment c job) = [job] := fun job => by
      unfold segment
      split <;> rfl
    rw [submits_flatMap]
    simp only [hone, flatMap_singleton']
  · rfl

theorem waitCount_nextAll (c : Nat) : waitCount (nextAll retrievers c) =
    if 0 < c ∧ c < w.numLayers then (w.layerJobs requests c).length else 0 := by
  rw [w.nextAll_eq requests h]
  split
  · rename_i hc
    have hone : ∀ job, waitCount (segment c job) = if 0 < c then 1 else 0 := fun job => by
      unfold segment
      split
      · rename_i hzero
        rw [hzero]
        rfl
      · rw [if_pos (by omega)]
        rfl
    unfold waitCount at hone ⊢
    rw [countP_flatMap]
    simp only [Function.comp_def, hone, hc, and_true]
    split <;> simp
  · rename_i hc
    simp [hc, waitCount]

end Program

/-! ## Runs -/

structure LoadInv (s : LoadState) : Prop where
  threads : Handoff.Inv s.threads
  call_le : s.call ≤ w.numLayers
  submitted : s.threads.submitted ++ submits s.threads.program =
    w.jobsUpTo requests (min (s.call + 1) w.numLayers)
  waits : s.threads.waits + waitCount s.threads.program =
    (w.layerJobs requests 0).length * min s.call (w.numLayers - 1)

section Runs

variable {requests} {retrievers : List (List (List (Op LoadJob)))}
  (h : w.layerwiseRetrievers requests = some retrievers)

include h

theorem LoadInv.initial : w.LoadInv requests (.initial retrievers) where
  threads := by
    refine ⟨rfl, w.chained_nextAll requests h 0, le_refl 0, fun he => ?_⟩
    cases he
  call_le := zero_le _
  submitted := by
    simp only [LoadState.initial, w.submits_nextAll requests h, nil_append, zero_add]
    split
    · rename_i hpos
      rw [min_eq_left hpos, jobsUpTo_succ]
      rfl
    · rename_i hpos
      rw [Nat.eq_zero_of_not_pos hpos]
      rfl
  waits := by
    simp only [LoadState.initial, w.waitCount_nextAll requests h]
    simp

theorem LoadInv.step {s t : LoadState} {a : LoadAction} (hs : w.LoadInv requests s)
    (ht : loadStep w.numLayers retrievers s a = some t) : w.LoadInv requests t := by
  cases a with
  | call =>
    obtain ⟨hret, ⟨⟩⟩ := ite_none_right_eq_some.mp ht
    obtain ⟨⟨horder, -, hsignalled, hfresh⟩, -, hsub, hwaits⟩ := hs
    rw [hret.1] at hsub hwaits hfresh
    have hsub : s.threads.submitted = w.jobsUpTo requests (min (s.call + 1) w.numLayers) := by
      simpa [submits] using hsub
    have hwaits : s.threads.waits = (w.layerJobs requests 0).length * min s.call (w.numLayers - 1) := by
      simpa [waitCount] using hwaits
    refine ⟨⟨horder, w.chained_nextAll requests h _, hsignalled, fun he _ => ?_⟩, hret.2, ?_, ?_⟩
    · exact hfresh he fun _ he => by cases he
    · rw [hsub, w.submits_nextAll requests h]
      split
      · rename_i hlt
        rw [min_eq_left hlt.le, min_eq_left hlt, w.jobsUpTo_succ requests (s.call + 1)]
      · rw [min_eq_right (by omega), min_eq_right (show w.numLayers ≤ s.call + 1 + 1 by omega), append_nil]
    · rw [hwaits, w.waitCount_nextAll requests h, w.length_layerJobs requests (s.call + 1) 0]
      dsimp only
      split
      · rw [min_eq_left (by omega), min_eq_left (by omega), mul_add, mul_one]
      · rw [min_eq_right (by omega), min_eq_right (by omega), add_zero]
  | thread action =>
    obtain ⟨threads, hstep, rfl⟩ := map_eq_some_iff.mp ht
    obtain ⟨hsub, hwaits⟩ := step_submits hstep
    exact ⟨hs.threads.step hstep, hs.call_le, hsub.trans hs.submitted, hwaits.trans hs.waits⟩

theorem LoadInv.of_reaches {s : LoadState}
    (hs : Reaches (loadStep w.numLayers retrievers) AnyAction (.initial retrievers) s) : w.LoadInv requests s :=
  hs.inv _ (.initial w h) fun _ _ _ hi _ ht => hi.step w h ht

theorem layerLoaded_of_lt {s : LoadState} {l : Nat}
    (hs : Reaches (loadStep w.numLayers retrievers) AnyAction (.initial retrievers) s)
    (hret : s.Returns l) (hl : l + 1 < w.numLayers) : w.LayerLoaded requests s l := by
  obtain ⟨hthreads, -, hsub, hwaits⟩ := LoadInv.of_reaches w h hs
  rw [hret.1, hret.2, Nat.min_eq_left (by omega)] at hsub hwaits
  have hsub : s.threads.submitted = w.jobsUpTo requests (l + 1 + 1) := by simpa [submits] using hsub
  have hwaits : s.threads.waits = (w.jobsUpTo requests (l + 1)).length := by
    rw [length_jobsUpTo]
    simpa [waitCount] using hwaits
  intro job hjob
  refine hthreads.mem_completed ?_
  rw [hsub, hwaits, w.jobsUpTo_succ requests (l + 1), take_left, jobsUpTo_succ]
  exact mem_append_right _ hjob

omit h in
theorem reaches_threads {s : LoadState} {acts : List Handoff.Action} {t : Handoff.State LoadJob}
    (hrun : run Handoff.step s.threads acts = some t) :
    Reaches (loadStep w.numLayers retrievers) AnyAction s ⟨s.call, t⟩ := by
  induction acts generalizing s with
  | nil =>
    cases hrun
    exact .refl
  | cons a acts ih =>
    obtain ⟨u, hu, hrun⟩ := bind_eq_some_iff.mp hrun
    have hstep : loadStep w.numLayers retrievers s (.thread a) = some ⟨s.call, u⟩ := by simp [loadStep, hu]
    exact (ih (s := ⟨s.call, u⟩) hrun).head trivial hstep

theorem feeds_nextAll (c n : Nat) (hn : c = 0 ∨ 0 < n) : Feeds n (nextAll retrievers c) := by
  rw [w.nextAll_eq requests h]
  split
  · generalize w.layerJobs requests c = jobs
    induction jobs generalizing n with
    | nil => trivial
    | cons job rest ih =>
      rw [flatMap_cons]
      by_cases hc : c = 0
      · rw [show segment c job = [.clear, .submit job] from if_pos hc]
        exact ih (n + 1) (.inl hc)
      · rw [show segment c job = [.wait, .clear, .submit job] from if_neg hc]
        obtain ⟨m, rfl⟩ := exists_eq_add_one.mpr (hn.resolve_left hc)
        exact ⟨m, rfl, ih (m + 1) (.inr (succ_pos m))⟩
  · trivial

/-- A receiver that handles one job before each wait is behind by one layer after every call. -/
theorem exists_behind (hpos : 0 < (w.layerJobs requests 0).length) {c : Nat} (hc : c ≤ w.numLayers)
    (hlayers : 0 < w.numLayers) :
    ∃ s, Reaches (loadStep w.numLayers retrievers) AnyAction (.initial retrievers) s ∧ s.call = c ∧
      s.threads.program = [] ∧ s.threads.consumer = .idle ∧ s.threads.completed.length = s.threads.waits ∧
      s.threads.queue.length = (w.layerJobs requests 0).length := by
  induction c with
  | zero =>
    obtain ⟨t, ht, hlag⟩ := exists_lagging (s := (LoadState.initial retrievers).threads) rfl rfl
      (w.feeds_nextAll h 0 _ (.inl rfl))
    refine ⟨⟨0, t⟩, reaches_threads w ht, rfl, hlag.program, hlag.idle, ?_, ?_⟩
    · rw [hlag.completed, hlag.waits]
      rfl
    · have hq := hlag.queue
      simpa [w.waitCount_nextAll requests h, w.submits_nextAll requests h, hlayers, LoadState.initial] using hq
  | succ c ih =>
    obtain ⟨s, hs, hcall, hprogram, hidle, hcompleted, hqueue⟩ := ih (by omega)
    let u : LoadState := ⟨c + 1, { s.threads with program := nextAll retrievers (c + 1) }⟩
    have hu : loadStep w.numLayers retrievers s .call = some u := by
      simp only [loadStep]
      rw [if_pos ⟨hprogram, by omega⟩, hcall]
    obtain ⟨t, ht, hlag⟩ := exists_lagging (s := u.threads) rfl hidle
      (w.feeds_nextAll h (c + 1) _ (.inr (hqueue.symm ▸ hpos)))
    refine ⟨⟨c + 1, t⟩, (hs.tail trivial hu).trans (reaches_threads w ht), rfl, hlag.program, hlag.idle, ?_, ?_⟩
    · rw [hlag.completed, hlag.waits]
      exact congrArg (· + _) hcompleted
    · have hq := hlag.queue
      rw [w.waitCount_nextAll requests h, w.submits_nextAll requests h] at hq
      have hq' : u.threads.queue.length = (w.layerJobs requests 0).length := hqueue
      change t.queue.length = _
      split at hq
      · rename_i hlt
        rw [if_pos hlt.2] at hq
        omega
      · rename_i hge
        rw [if_neg (fun hlt => hge ⟨succ_pos c, hlt⟩), length_nil] at hq
        omega

theorem exists_not_layerLoaded {l : Nat} (hl : l + 1 = w.numLayers) (hpos : 0 < (w.layerJobs requests 0).length) :
    ∃ s, Reaches (loadStep w.numLayers retrievers) AnyAction (.initial retrievers) s ∧ s.Returns l ∧
      ¬ w.LayerLoaded requests s l := by
  obtain ⟨s, hs, hcall, hprogram, -, hcompleted, -⟩ := w.exists_behind h hpos (le_of_eq hl) (by omega)
  refine ⟨s, hs, ⟨hcall, hprogram⟩, fun hloaded => ?_⟩
  obtain ⟨hthreads, -, hsub, hwaits⟩ := LoadInv.of_reaches w h hs
  rw [hcall, hprogram] at hsub hwaits
  rw [Nat.min_eq_right (by omega), ← hl, jobsUpTo_succ] at hsub
  rw [Nat.min_eq_right (by omega), ← hl, ← length_jobsUpTo] at hwaits
  have hsub : s.threads.submitted = w.jobsUpTo requests l ++ w.layerJobs requests l := by simpa [submits] using hsub
  have heq : s.threads.completed = w.jobsUpTo requests l := by
    have horder := hthreads.order
    rw [hsub, append_assoc] at horder
    exact (append_inj horder (hcompleted.trans hwaits)).1
  obtain ⟨job, hjob⟩ := exists_mem_of_length_pos (w.length_layerJobs requests l 0 ▸ hpos)
  have hmem := hloaded job hjob
  rw [heq] at hmem
  obtain ⟨m, hm, hjob'⟩ := mem_flatMap.mp hmem
  have hlt := mem_range.mp hm
  rw [← w.layerId_of_mem requests hjob', w.layerId_of_mem requests hjob] at hlt
  exact absurd hlt (lt_irrefl l)

theorem layerJobs_eq_nil_iff (l : Nat) : w.layerJobs requests l = [] ↔
    ∀ request ∈ loading requests, w.loadChunks request.1 request.2 = some [] := by
  unfold layerJobs
  rw [filterMap_eq_nil_iff]
  refine forall₂_congr fun request hrequest => ?_
  obtain ⟨segments, hsegments⟩ := exists_of_mapM h hrequest
  obtain ⟨chunks, hchunks, -⟩ := bind_eq_some_iff.mp hsegments
  unfold layerJob
  rw [hchunks]
  simp

end Runs

end LayerWorker

def twoLayers : LayerWorker where
  db := blocksOfTwo
  numLayers := 2

def oneBlockHit : ReqMeta where
  reqId := "r"
  tokenLenChunk := 2
  blockHashes := ["a"]
  loadSpec := some ⟨0, 2, true⟩

end VllmAscend.KvTransfer.AscendStore
