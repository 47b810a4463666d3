import Mathlib.Data.List.ReduceOption
import VllmAscend.KvTransfer.AscendStore.TokenDatabase
import VllmAscend.Lib.Machine

/-!
# Layerwise saves

The host enqueues the KV writes of a layer and calls `save_kv_layer`, the device finishes the writes in order, and
the sending thread handles the jobs in order and waits for the event of a job before its put.
-/

namespace VllmAscend.KvTransfer.AscendStore

open Machine List Function Loop

structure SaveWorker where
  db : ChunkedTokenDatabase
  numLayers : Nat
  tpRank : Nat := 0
  putStep : Nat := 1
  dcpSize : Nat := 1

/-- A job of the sending thread. The event stands for the writes enqueued when it was recorded;
`pass` is the step that made the job. -/
structure SaveJob where
  reqMeta : LayerMultiBlockReqMeta
  event : Nat
  pass : Nat
  deriving DecidableEq

structure PutRecord where
  job : SaveJob
  keys : List LayerPoolKey
  finished : Nat

inductive Sender
  | idle
  | putting (job : SaveJob) (keys : List LayerPoolKey)

structure SaveState where
  pass : Nat := 0
  currentLayer : Nat := 0
  computed : Bool := false
  layerwiseStorers : List (List (Option SaveJob)) := []
  enqueued : Nat := 0
  finished : Nat := 0
  queue : List SaveJob := []
  storedRequests : List String := []
  sender : Sender := .idle
  puts : List PutRecord := []

inductive SaveAction
  | start
  | compute
  | saveKvLayer
  | device
  /-- The sending thread takes a job; the argument is what the store answers for each key. -/
  | handle (present : Nat → Bool)
  | put
  | forget (reqId : String)

def everyNth {α : Type*} (start step : Nat) (xs : List α) : List α :=
  xs.zipIdx.filterMap fun (x, i) => if start ≤ i ∧ (i - start) % step = 0 then some x else none

def saving (requests : List ReqMeta) : List ReqMeta := requests.filter fun request => request.canSave = some true

namespace SaveWorker

variable (w : SaveWorker)

def storeLayer (event pass : Nat) (request : ReqMeta) : Option (List (Option SaveJob)) := do
  let chunks ← w.db.processTokens request.tokenLenChunk request.blockHashes
  if chunks ≠ [] then
    return (range w.numLayers).map fun layerId =>
      some ⟨layerReqMeta request.reqId chunks w.numLayers layerId, event, pass⟩
  else
    return replicate w.numLayers none

def rankKeys {α : Type*} (keys : List α) : List α :=
  if 1 < w.dcpSize then keys else everyNth (w.tpRank % w.putStep) w.putStep keys

def beginStep (requests : List ReqMeta) (s : SaveState) : Option SaveState := do
  let currentEvent := s.enqueued
  let storers ← (saving requests).mapM (w.storeLayer currentEvent s.pass)
  return { s with
    layerwiseStorers := storers
    storedRequests := s.storedRequests ++ (saving requests).map (·.reqId) }

def nextStorers (s : SaveState) : Option SaveState := do
  let submitted ← s.layerwiseStorers.mapM (·.head?)
  return { s with
    layerwiseStorers := s.layerwiseStorers.map tail
    queue := s.queue ++ submitted.reduceOption
    currentLayer := s.currentLayer + 1
    computed := false }

def saveKvLayer (requests : List ReqMeta) (s : SaveState) : Option SaveState :=
  if s.currentLayer = 0 then (w.beginStep requests s).bind nextStorers else nextStorers s

def handleRequest (present : Nat → Bool) (job : SaveJob) (s : SaveState) : SaveState :=
  if job.reqMeta.reqId ∉ s.storedRequests then s
  else
    let keys := w.rankKeys job.reqMeta.keys
    let missing := keys.zipIdx.filterMap fun (key, index) => if present index then none else some key
    if missing = [] then s else { s with sender := .putting job missing }

def step (metas : List (List ReqMeta)) (s : SaveState) : SaveAction → Option SaveState
  | .start =>
    if s.currentLayer = w.numLayers ∧ s.pass + 1 < metas.length then
      some { s with pass := s.pass + 1, currentLayer := 0 }
    else none
  | .compute =>
    if s.computed = false ∧ s.currentLayer < w.numLayers ∧ s.pass < metas.length then
      some { s with computed := true, enqueued := s.enqueued + 1 }
    else none
  | .saveKvLayer => if s.computed then w.saveKvLayer (metas.getD s.pass []) s else none
  | .device => if s.finished < s.enqueued then some { s with finished := s.finished + 1 } else none
  | .handle present =>
    match s.sender, s.queue with
    | .idle, job :: rest => some (w.handleRequest present job { s with queue := rest })
    | _, _ => none
  | .put =>
    match s.sender with
    | .putting job keys =>
      -- `current_event.synchronize()`
      if job.event ≤ s.finished then
        some { s with sender := .idle, puts := s.puts ++ [⟨job, keys, s.finished⟩] }
      else none
    | .idle => none
  | .forget reqId => some { s with storedRequests := s.storedRequests.filter (· ≠ reqId) }

def Written (p : PutRecord) : Prop := p.job.pass * w.numLayers + p.job.reqMeta.layerId < p.finished

/-! ## What a job stands for -/

section Runs

variable (metas : List (List ReqMeta))

structure Made (job : SaveJob) : Prop where
  event : job.event = job.pass * w.numLayers + 1
  request : ∃ requests ∈ metas, ∃ request ∈ saving requests, ∃ chunks,
    w.db.processTokens request.tokenLenChunk request.blockHashes = some chunks ∧
      job.reqMeta = layerReqMeta request.reqId chunks w.numLayers job.reqMeta.layerId

structure SaveInv (s : SaveState) : Prop where
  computing : s.computed = true → s.currentLayer < w.numLayers ∧ s.pass < metas.length
  enqueued : s.enqueued = s.pass * w.numLayers + s.currentLayer + if s.computed then 1 else 0
  storers : ∀ storer ∈ s.layerwiseStorers, ∀ job, some job ∈ storer → w.Made metas job
  queue : ∀ job ∈ s.queue, w.Made metas job
  sender : ∀ job keys, s.sender = .putting job keys → w.Made metas job ∧ w.rankKeys job.reqMeta.keys ≠ []
  puts : ∀ p ∈ s.puts, w.Made metas p.job ∧ w.rankKeys p.job.reqMeta.keys ≠ [] ∧ p.job.event ≤ p.finished

theorem SaveInv.initial : w.SaveInv metas {} where
  computing := by simp
  enqueued := by simp
  storers := by simp
  queue := by simp
  sender := by simp
  puts := by simp

variable {w metas}

variable {job : SaveJob} {s t : SaveState} {x : ReqMeta × List (Option SaveJob)} {p j : Nat}

theorem made_of_storeLayer {event pass : Nat} {request : ReqMeta} {storer : List (Option SaveJob)}
    {requests : List ReqMeta} (hrequests : requests ∈ metas) (hrequest : request ∈ saving requests)
    (hevent : event = pass * w.numLayers + 1)
    (h : w.storeLayer event pass request = some storer) (hjob : some job ∈ storer) : w.Made metas job := by
  obtain ⟨chunks, hchunks, h⟩ := Option.bind_eq_some_iff.mp h
  split at h
  · cases h
    obtain ⟨layerId, -, hlayer⟩ := mem_map.mp hjob
    cases hlayer
    exact ⟨hevent, requests, hrequests, request, hrequest, chunks, hchunks, rfl⟩
  · cases h
    have := eq_of_mem_replicate hjob
    cases this

variable (h : w.SaveInv metas s)

include h

theorem SaveInv.nextStorers (hc : s.computed = true)
    (ht : SaveWorker.nextStorers s = some t) : w.SaveInv metas t := by
  obtain ⟨submitted, hsubmitted, ht⟩ := Option.bind_eq_some_iff.mp ht
  cases ht
  refine ⟨fun hc => (by cases hc), ?_, ?_, ?_, h.sender, h.puts⟩
  · have henqueued := h.enqueued
    rw [hc] at henqueued
    exact henqueued
  · intro storer hstorer job hjob
    obtain ⟨storer', hstorer', rfl⟩ := mem_map.mp hstorer
    exact h.storers storer' hstorer' job (mem_of_mem_tail hjob)
  · intro job hjob
    rcases mem_append.mp hjob with hjob | hjob
    · exact h.queue job hjob
    · rw [reduceOption_mem_iff, eq_map_of_mapM none hsubmitted] at hjob
      obtain ⟨storer, hstorer, hhead⟩ := mem_map.mp hjob
      cases storer with
      | nil => cases hhead
      | cons head rest => exact h.storers _ hstorer job (hhead ▸ mem_cons_self)

theorem SaveInv.beginStep (hc : s.computed = true)
    (hlayer : s.currentLayer = 0) (ht : w.beginStep (metas.getD s.pass []) s = some t) :
    w.SaveInv metas t ∧ t.computed = true := by
  obtain ⟨storers, hstorers, ht⟩ := Option.bind_eq_some_iff.mp ht
  cases ht
  refine ⟨⟨h.computing, h.enqueued, ?_, h.queue, h.sender, h.puts⟩, hc⟩
  intro storer hstorer job hjob
  have hpass := (h.computing hc).2
  have hevent : s.enqueued = s.pass * w.numLayers + 1 := by
    rw [h.enqueued, hc, hlayer]
    rfl
  rw [eq_map_of_mapM [] hstorers] at hstorer
  obtain ⟨request, hrequest, rfl⟩ := mem_map.mp hstorer
  obtain ⟨storer, hstore⟩ := exists_of_mapM hstorers hrequest
  rw [hstore] at hjob
  exact made_of_storeLayer (Ragged.getD_mem hpass []) hrequest hevent hstore hjob

theorem SaveInv.handleRequest (hjob : w.Made metas job) (present : Nat → Bool) :
    w.SaveInv metas (w.handleRequest present job s) := by
  unfold SaveWorker.handleRequest
  dsimp only
  split
  · exact h
  · split
    · exact h
    · rename_i hmissing
      refine ⟨h.computing, h.enqueued, h.storers, h.queue, ?_, h.puts⟩
      intro job' keys hputting
      cases hputting
      refine ⟨hjob, fun hnil => hmissing ?_⟩
      rw [hnil]
      rfl

theorem SaveInv.step {a : SaveAction} (ht : w.step metas s a = some t) : w.SaveInv metas t := by
  cases a with
  | start =>
    obtain ⟨hdone, ⟨⟩⟩ := Option.ite_none_right_eq_some.mp ht
    have hidle : s.computed = false := by
      by_contra hc
      have := (h.computing (by simpa using hc)).1
      omega
    have henqueued := h.enqueued
    refine ⟨fun hc => ?_, ?_, h.storers, h.queue, h.sender, h.puts⟩
    · exact absurd hc (by simp [hidle])
    · rw [henqueued, hdone.1]
      rw [Nat.add_mul, Nat.one_mul, Nat.add_zero]
  | compute =>
    obtain ⟨hdue, ⟨⟩⟩ := Option.ite_none_right_eq_some.mp ht
    refine ⟨fun _ => hdue.2, ?_, h.storers, h.queue, h.sender, h.puts⟩
    have henqueued := h.enqueued
    rw [hdue.1] at henqueued
    rw [henqueued]
    rfl
  | saveKvLayer =>
    simp only [SaveWorker.step, SaveWorker.saveKvLayer] at ht
    split at ht
    · rename_i hc
      split at ht
      · rename_i hlayer
        obtain ⟨u, hu, ht⟩ := Option.bind_eq_some_iff.mp ht
        obtain ⟨hinv, hcu⟩ := h.beginStep hc hlayer hu
        exact hinv.nextStorers hcu ht
      · exact h.nextStorers hc ht
    · cases ht
  | device =>
    simp only [SaveWorker.step] at ht
    split at ht <;> cases ht
    exact ⟨h.computing, h.enqueued, h.storers, h.queue, h.sender, h.puts⟩
  | handle present =>
    simp only [SaveWorker.step] at ht
    split at ht
    · rename_i job rest hidle hqueue
      cases ht
      have hmade := h.queue job (hqueue ▸ mem_cons_self)
      have hrest : w.SaveInv metas { s with queue := rest } :=
        ⟨h.computing, h.enqueued, h.storers,
          fun job' hjob' => h.queue job' (hqueue ▸ mem_cons_of_mem _ hjob'), h.sender, h.puts⟩
      exact hrest.handleRequest hmade present
    · cases ht
  | put =>
    simp only [SaveWorker.step] at ht
    split at ht
    · rename_i job keys hputting
      obtain ⟨hevent, ⟨⟩⟩ := Option.ite_none_right_eq_some.mp ht
      obtain ⟨hmade, hkeys⟩ := h.sender job keys hputting
      refine ⟨h.computing, h.enqueued, h.storers, h.queue, fun _ _ hs => (by cases hs), ?_⟩
      intro p hp
      rcases mem_append.mp hp with hp | hp
      · exact h.puts p hp
      · cases mem_singleton.mp hp
        exact ⟨hmade, hkeys, hevent⟩
    · cases ht
  | forget reqId =>
    cases ht
    exact ⟨h.computing, h.enqueued, h.storers, h.queue, h.sender, h.puts⟩

omit h

theorem SaveInv.of_reaches (hs : Reaches (w.step metas) AnyAction {} s) : w.SaveInv metas s :=
  hs.inv _ (.initial w metas) fun _ _ _ h _ ht => h.step ht

/-! ## A device that is one layer behind -/

theorem exists_storeLayer (w : SaveWorker) (event pass : Nat) (req : ReqMeta) :
    ∃ storer, w.storeLayer event pass req = some storer ∧ storer.length = w.numLayers := by
  obtain ⟨m, hm⟩ := w.db.exists_metadata
  unfold storeLayer
  rw [w.db.processTokens_eq hm]
  simp only [Option.bind_eq_bind, Option.bind_some]
  split <;> exact ⟨_, rfl, by simp⟩

theorem nextStorers_eq (h : ∀ storer ∈ s.layerwiseStorers, storer ≠ []) :
    nextStorers s = some { s with
      layerwiseStorers := s.layerwiseStorers.map tail
      queue := s.queue ++ (s.layerwiseStorers.map fun storer => storer.head?.getD none).reduceOption
      currentLayer := s.currentLayer + 1
      computed := false } := by
  have hheads : s.layerwiseStorers.mapM (·.head?) =
      some (s.layerwiseStorers.map fun storer => storer.head?.getD none) := by
    refine mapM_eq_map fun storer hstorer => ?_
    obtain ⟨head, rest, rfl⟩ := exists_cons_of_ne_nil (h storer hstorer)
    rfl
  unfold nextStorers
  rw [hheads]
  rfl

variable (w metas) in
def storersOf (p : Nat) : List (ReqMeta × List (Option SaveJob)) :=
  (saving (metas.getD p [])).map fun request => (request, (w.storeLayer (p * w.numLayers + 1) p request).getD [])

theorem length_of_mem_storersOf (h : x ∈ w.storersOf metas p) : x.2.length = w.numLayers := by
  obtain ⟨request, -, rfl⟩ := mem_map.mp h
  obtain ⟨storer, hstorer, hlen⟩ := w.exists_storeLayer (p * w.numLayers + 1) p request
  simp only [hstorer, Option.getD_some, hlen]

variable (w metas) in
structure HostAt (p j : Nat) (s : SaveState) : Prop where
  reach : Reaches (w.step metas) AnyAction {} s
  pass : s.pass = p
  layer : s.currentLayer = j
  computed : s.computed = false
  idle : s.sender = .idle
  finished : s.finished = 0
  storers : 0 < j → s.layerwiseStorers = (w.storersOf metas p).map fun x => x.2.drop j
  stored : 0 < j → ∀ x ∈ w.storersOf metas p, x.1.reqId ∈ s.storedRequests
  queue : ∀ x ∈ w.storersOf metas p, ∀ i < j, ∀ job, x.2[i]? = some (some job) → job ∈ s.queue

theorem HostAt.enqueued (h : w.HostAt metas p j s) : s.enqueued = p * w.numLayers + j := by
  have henqueued := (SaveInv.of_reaches h.reach).enqueued
  rw [h.pass, h.layer, h.computed] at henqueued
  exact henqueued

theorem HostAt.exists_ready (h : w.HostAt metas p j s) (hj : j < w.numLayers) (hp : p < metas.length) :
    ∃ u v, w.step metas s .compute = some u ∧
      w.step metas u .saveKvLayer = nextStorers v ∧ v.pass = p ∧ v.currentLayer = j ∧
      v.sender = .idle ∧ v.finished = 0 ∧ v.queue = s.queue ∧
      v.layerwiseStorers = ((w.storersOf metas p).map fun x => x.2.drop j) ∧
      ∀ x ∈ w.storersOf metas p, x.1.reqId ∈ v.storedRequests := by
  have hcompute : w.step metas s .compute = some { s with computed := true, enqueued := s.enqueued + 1 } := by
    simp only [step]
    rw [if_pos ⟨h.computed, h.layer.symm ▸ hj, h.pass.symm ▸ hp⟩]
  by_cases hzero : j = 0
  · subst hzero
    have hstorers : (saving (metas.getD p [])).mapM (w.storeLayer (s.enqueued + 1) p) =
        some ((w.storersOf metas p).map Prod.snd) := by
      rw [h.enqueued]
      unfold storersOf
      rw [map_map]
      refine mapM_eq_map fun request _ => ?_
      obtain ⟨storer, hstorer, -⟩ := w.exists_storeLayer (p * w.numLayers + 1) p request
      simp only [comp_apply, hstorer, Option.getD_some]
    refine ⟨_, { s with
      computed := true
      enqueued := s.enqueued + 1
      layerwiseStorers := (w.storersOf metas p).map Prod.snd
      storedRequests := s.storedRequests ++ (saving (metas.getD p [])).map (·.reqId) },
      hcompute, ?_, h.pass, h.layer, h.idle, h.finished, rfl, ?_, ?_⟩
    · simp only [step, saveKvLayer, beginStep, h.pass, h.layer, hstorers, if_true]
      rfl
    · simp only [drop_zero]
    · refine forall_mem_map.mpr fun request hrequest => ?_
      exact mem_append_right _ (mem_map.mpr ⟨request, hrequest, rfl⟩)
  · have hpos : 0 < j := by omega
    refine ⟨_, { s with computed := true, enqueued := s.enqueued + 1 }, hcompute, ?_, h.pass, h.layer,
      h.idle, h.finished, rfl, h.storers hpos, h.stored hpos⟩
    simp only [step, saveKvLayer, h.layer, hzero, if_true, if_false]

theorem HostAt.succ (h : w.HostAt metas p j s) (hj : j < w.numLayers) (hp : p < metas.length) :
    ∃ t, w.HostAt metas p (j + 1) t := by
  obtain ⟨u, v, hu, hv, hpass, hlayer, hidle, hfinished, hqueue, hstorers, hstored⟩ := h.exists_ready hj hp
  have hne : ∀ storer ∈ v.layerwiseStorers, storer ≠ [] := by
    intro storer hstorer
    rw [hstorers] at hstorer
    obtain ⟨x, hx, rfl⟩ := mem_map.mp hstorer
    rw [ne_eq, drop_eq_nil_iff, length_of_mem_storersOf hx]
    omega
  rw [nextStorers_eq hne] at hv
  refine ⟨_, (h.reach.tail trivial hu).tail trivial hv, hpass, ?_, rfl, hidle, hfinished, fun _ => ?_,
    fun _ => hstored, ?_⟩
  · rw [hlayer]
  · rw [hstorers, map_map]
    simp only [comp_def, tail_drop]
  · intro x hx i hi job hjob
    refine mem_append.mpr ?_
    rcases Nat.lt_succ_iff_lt_or_eq.mp hi with hlt | rfl
    · exact .inl (hqueue ▸ h.queue x hx i hlt job hjob)
    · refine .inr (reduceOption_mem_iff.mpr ?_)
      rw [hstorers, map_map]
      refine mem_map.mpr ⟨x, hx, ?_⟩
      simp only [comp_apply, head?_drop, hjob, Option.getD_some]

theorem exists_hostAt (hp : p < metas.length) (hj : j ≤ w.numLayers) : ∃ s, w.HostAt metas p j s := by
  induction p generalizing j with
  | zero =>
    induction j with
    | zero =>
      exact ⟨{}, .refl, rfl, rfl, rfl, rfl, rfl, fun h => absurd h (lt_irrefl 0),
        fun h => absurd h (lt_irrefl 0), fun _ _ i hi => absurd hi (Nat.not_lt_zero i)⟩
    | succ j ih =>
      obtain ⟨s, hs⟩ := ih (by omega)
      exact hs.succ (by omega) hp
  | succ p ihp =>
    induction j with
    | zero =>
      obtain ⟨s, hs⟩ := ihp (by omega) (le_refl w.numLayers)
      have hstart : w.step metas s .start = some { s with pass := s.pass + 1, currentLayer := 0 } := by
        simp only [step]
        rw [if_pos ⟨hs.layer, hs.pass.symm ▸ hp⟩]
      exact ⟨_, hs.reach.tail trivial hstart, congrArg (· + 1) hs.pass, rfl, hs.computed, hs.idle,
        hs.finished, fun h => absurd h (lt_irrefl 0), fun h => absurd h (lt_irrefl 0),
        fun _ _ i hi => absurd hi (Nat.not_lt_zero i)⟩
    | succ j ih =>
      obtain ⟨s, hs⟩ := ih (by omega)
      exact hs.succ (by omega) hp

theorem run_device {n : Nat} (h : s.finished + n ≤ s.enqueued) :
    run (w.step metas) s (replicate n .device) = some { s with finished := s.finished + n } := by
  induction n generalizing s with
  | zero => rfl
  | succ n ih =>
    have hstep : w.step metas s .device = some { s with finished := s.finished + 1 } := by
      simp only [step]
      rw [if_pos (by omega)]
    rw [replicate_succ, run, hstep, Option.bind_some, ih (by dsimp only; omega)]
    simp only [Nat.add_assoc, Nat.add_comm 1]

theorem run_handle {dropped rest : List SaveJob} (hidle : s.sender = .idle)
    (hqueue : s.queue = dropped ++ rest) : run (w.step metas) s (replicate dropped.length (.handle fun _ => true)) =
      some { s with queue := rest } := by
  induction dropped generalizing s with
  | nil =>
    subst hqueue
    rfl
  | cons job dropped ih =>
    have hnone : ∀ u : SaveState, w.handleRequest (fun _ => true) job u = u := by
      unfold handleRequest
      simp
    have hstep : w.step metas s (.handle fun _ => true) = some { s with queue := dropped ++ rest } := by
      simp only [step, hidle, hqueue, cons_append, hnone]
    rw [length_cons, replicate_succ, run, hstep]
    exact ih hidle rfl

theorem HostAt.exists_unwritten {l : Nat} (h : w.HostAt metas p (l + 1) s) (hl : 0 < l)
    (hx : x ∈ w.storersOf metas p) (hjob : x.2[l]? = some (some job)) (hid : job.reqMeta.reqId = x.1.reqId)
    (hlayer : job.reqMeta.layerId = l) (hpass : job.pass = p) (hevent : job.event = p * w.numLayers + 1)
    (hkeys : w.rankKeys job.reqMeta.keys ≠ []) : ∃ t, Reaches (w.step metas) AnyAction {} t ∧
      ∃ r ∈ t.puts, r.job.reqMeta.layerId = l ∧ ¬ w.Written r := by
  obtain ⟨dropped, rest, hqueue⟩ := append_of_mem (h.queue x hx l (Nat.lt_succ_self l) job hjob)
  have henqueued := h.enqueued
  let s₁ : SaveState := { s with finished := p * w.numLayers + 1 }
  let s₂ : SaveState := { s₁ with queue := job :: rest }
  let s₃ : SaveState := { s₂ with queue := rest, sender := .putting job (w.rankKeys job.reqMeta.keys) }
  let s₄ : SaveState :=
    { s₃ with
      sender := .idle
      puts := s.puts ++ [⟨job, w.rankKeys job.reqMeta.keys, p * w.numLayers + 1⟩] }
  have h₁ : run (w.step metas) s (replicate (p * w.numLayers + 1) .device) = some s₁ := by
    rw [run_device (by rw [h.finished]; omega), h.finished, Nat.zero_add]
  have h₂ : run (w.step metas) s₁ (replicate dropped.length (.handle fun _ => true)) = some s₂ :=
    run_handle h.idle hqueue
  have h₃ : w.step metas s₂ (.handle fun _ => false) = some s₃ := by
    have hstored : job.reqMeta.reqId ∈ s.storedRequests := hid ▸ h.stored (Nat.succ_pos l) x hx
    have hmissing : (w.rankKeys job.reqMeta.keys).zipIdx.filterMap (fun key => some key.1) =
        w.rankKeys job.reqMeta.keys := by
      rw [filterMap_eq_map', zipIdx_map_fst]
    simp only [step, handleRequest, s₂, s₁, h.idle]
    rw [if_neg (not_not.mpr hstored)]
    simp only [Bool.false_eq_true, if_false, hmissing, hkeys]
    rfl
  have h₄ : w.step metas s₃ .put = some s₄ := by
    simp only [step, s₃, s₂, s₁, hevent, le_refl, if_true]
    rfl
  refine ⟨s₄, ?_, _, mem_append_right _ (mem_singleton.mpr rfl), hlayer, ?_⟩
  · exact (((h.reach.trans (reaches_of_run h₁)).trans (reaches_of_run h₂)).tail trivial h₃).tail
      trivial h₄
  · unfold Written
    dsimp only
    rw [hpass]
    omega

end Runs

theorem rankKeys_map {α β : Type*} (f : α → β) (l : List α) : w.rankKeys (l.map f) = (w.rankKeys l).map f := by
  unfold rankKeys
  split
  · rfl
  · unfold everyNth
    rw [zipIdx_map, filterMap_map, map_filterMap]
    refine filterMap_congr fun x _ => ?_
    simp only [comp_apply, Prod.map_fst, Prod.map_snd, id_eq]
    split <;> rfl

theorem layerReqMeta_keys (r : String) (chunks : List Chunk) {L l : Nat}
    (h : l < L) : (layerReqMeta r chunks L l).keys = chunks.map fun chunk => ⟨chunk.key, l⟩ := by
  simp only [layerReqMeta, filterMap_map]
  rw [← filterMap_eq_map]
  simp [PoolKey.splitLayers, h]

end SaveWorker

def saveTwoLayers : SaveWorker where
  db := blocksOfTwo
  numLayers := 2

def oneBlockSave : ReqMeta where
  reqId := "r"
  tokenLenChunk := 2
  blockHashes := ["a"]
  canSave := some true

end VllmAscend.KvTransfer.AscendStore
