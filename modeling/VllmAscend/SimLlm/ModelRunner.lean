import VllmAscend.Lib.Dict
import VllmAscend.Lib.Flat

/-!
# Reusing the KV of similar prompts

The parts of `simllm/patch/patch_model_runner.py` that decide what is computed and written in a step. Keys and
values are treated alike, so a row stands for both.
-/

namespace VllmAscend.SimLlm

open List Ragged Option Bool

structure NewRequestData where
  promptTokenIds : Option (List Nat)
  numComputedTokens : Nat
  numScheduledTokens : Nat
deriving DecidableEq

def NewRequestData.promptLen (req : NewRequestData) : Nat := (req.promptTokenIds.getD []).length

structure MatchResult where
  matched : Bool
  cachedLen : Option Nat
deriving DecidableEq

/-- `min(cached_len, prompt_len)` of a match that the loops do not skip. -/
def MatchResult.covered (m : MatchResult) (req : NewRequestData) : Option Nat :=
  if m.matched then m.cachedLen.map (min · req.promptLen) else none

theorem MatchResult.covered_le {m : MatchResult} {req : NewRequestData} {covered : Nat}
    (h : m.covered req = some covered) : covered ≤ req.promptLen := by
  obtain ⟨_, h⟩ := ite_none_right_eq_some.mp h
  obtain ⟨n, -, hn⟩ := map_eq_some_iff.mp h
  exact hn ▸ Nat.min_le_right _ _

/-- A row of the input batch: a request scheduled for the first time, by its index, or one that runs already. -/
inductive BatchReq
  | new (idx : Nat)
  | running (numComputedTokens numScheduledTokens : Nat)
deriving DecidableEq

structure SandwichConfig where
  bottomLayers : Nat := 3
  topLayers : Nat := 3
  numLayers : Nat := 32
deriving DecidableEq

def SandwichConfig.keepLayers (cfg : SandwichConfig) (layer : Nat) : Bool :=
  layer < cfg.bottomLayers || (cfg.numLayers - cfg.topLayers ≤ layer && layer < cfg.numLayers)

structure Step where
  newReqs : List NewRequestData
  matchResults : Dict Nat MatchResult
  batch : List BatchReq
  numPadding : Nat := 0
  layers : List (Option Nat)
  sandwich : SandwichConfig := {}

inductive KvRow
  | computed (row : Nat)
  | cached (batchIdx position : Nat)
deriving DecidableEq

structure Injection where
  batchIdx : Nat
  tokStart : Nat
  covered : Nat
deriving DecidableEq

def Injection.has (i : Injection) (row : Nat) : Bool := i.tokStart ≤ row && row < i.tokStart + i.covered

namespace Step

def rewrite (m : Option MatchResult) (req : NewRequestData) : NewRequestData :=
  match m.bind (·.covered req) with
  | some covered => if covered ≤ 1 then req else { req with numComputedTokens := covered - 1 }
  | none => req

/-- `_simllm_rewrite_scheduler_output`: the loop sees every index once. -/
def simllmRewriteSchedulerOutput (s : Step) : List NewRequestData :=
  s.newReqs.mapIdx fun batchIdx => rewrite (s.matchResults.get? batchIdx)

def numComputedTokens (s : Step) : BatchReq → Nat
  | .new idx => (s.simllmRewriteSchedulerOutput[idx]?.map (·.numComputedTokens)).getD 0
  | .running computed _ => computed

def numScheduledTokens (s : Step) : BatchReq → Nat
  | .new idx => (s.simllmRewriteSchedulerOutput[idx]?.map (·.numScheduledTokens)).getD 0
  | .running _ scheduled => scheduled

def queryLens (s : Step) : List Nat := s.batch.map s.numScheduledTokens

def tokens (s : Step) : List (BatchReq × Nat) :=
  flat s.queryLens fun row i =>
    let req := s.batch.getD row (.running 0 0)
    (req, s.numComputedTokens req + i)

def simllmBuildInjectionMap (s : Step) : List Injection :=
  s.matchResults.entries.filterMap fun (batchIdx, m) => do
    let req ← s.newReqs[batchIdx]?
    let covered ← m.covered req
    if covered = 0 then none
    else some ⟨batchIdx, start (s.newReqs.map (·.promptLen)) batchIdx, covered⟩

def overlay (key : List KvRow) (i : Injection) : List KvRow :=
  key.mapIdx fun row old => if i.has row then .cached i.batchIdx (row - i.tokStart) else old

/-- `key[tok_start:tok_start + covered] = k_flat`: where the slice is cut off the shapes differ, and only a single row
is broadcast. -/
def inject (key : List KvRow) (i : Injection) : Option (List KvRow) :=
  if i.tokStart + i.covered ≤ key.length ∨ i.covered = 1 then some (overlay key i) else none

def injectIntoKv (s : Step) : Option (List KvRow) :=
  s.simllmBuildInjectionMap.foldlM inject ((range (s.tokens.length + s.numPadding)).map .computed)

def unmatched (s : Step) (batchIdx : Nat) : Bool := !((s.matchResults.get? batchIdx).map (·.matched)).getD false

def seqLen (s : Step) (req : BatchReq) : Nat := s.numComputedTokens req + s.numScheduledTokens req

def reaches (s : Step) (row t : Nat) : Bool :=
  start s.queryLens row ≤ t && t < start s.queryLens row + s.seqLen (s.batch.getD row (.running 0 0))

def disable (s : Step) (slots : List Int) (row : Nat) : List Int :=
  slots.mapIdx fun t slot => if s.reaches row t then -1 else slot

/-- `_simllm_apply_sandwich_slots` for the slots of one layer. -/
def simllmApplySandwichSlots (s : Step) (layer : Option Nat) (slots : List Int) : List Int :=
  if layer.all s.sandwich.keepLayers then slots
  else ((range s.batch.length).filter s.unmatched).foldl s.disable slots

/-! ## Holes -/

def Injected (s : Step) (idx pos : Nat) : Prop :=
  ∃ key, ∃ t batchIdx k : Nat, s.injectIntoKv = some key ∧ s.tokens[t]? = some (BatchReq.new idx, pos) ∧
    key[t]? = some (KvRow.cached batchIdx k)

/-- What a new request runs is in its prompt, and what it does not run is in its cache. -/
def NoHoles (s : Step) : Prop :=
  ∀ idx req req', s.newReqs[idx]? = some req → s.simllmRewriteSchedulerOutput[idx]? = some req' →
    req'.numComputedTokens + req'.numScheduledTokens ≤ req'.promptLen ∧
      ∀ pos < req'.numComputedTokens, pos < req.numComputedTokens ∨ s.Injected idx pos

variable {s : Step}

theorem getElem?_rewrite {idx : Nat} {req : NewRequestData} (h : s.newReqs[idx]? = some req) :
    s.simllmRewriteSchedulerOutput[idx]? = some (rewrite (s.matchResults.get? idx) req) := by
  simp [simllmRewriteSchedulerOutput, getElem?_mapIdx, h]

theorem le_of_token {t pos : Nat} {req : BatchReq} (h : s.tokens[t]? = some (req, pos)) : s.numComputedTokens req ≤ pos := by
  obtain ⟨row, i, -, heq⟩ := mem_flat.mp (mem_of_getElem? h)
  obtain ⟨rfl, rfl⟩ := Prod.mk.inj heq
  exact Nat.le_add_right _ _

theorem not_injected {idx pos : Nat} {req' : NewRequestData} (h : s.simllmRewriteSchedulerOutput[idx]? = some req')
    (hpos : pos < req'.numComputedTokens) : ¬ s.Injected idx pos := by
  rintro ⟨key, t, batchIdx, k, -, htoken, -⟩
  have := le_of_token htoken
  simp only [numComputedTokens, h, map_some, getD_some] at this
  omega

/-- A prompt of four tokens whose KV is cached: three are skipped and four are still scheduled. -/
def matchedPrompt : Step where
  newReqs := [⟨some [1, 2, 3, 4], 0, 4⟩]
  matchResults := (∅ : Dict Nat MatchResult).set 0 ⟨true, some 4⟩
  batch := [.new 0]
  layers := [some 5]

def matchedAfterHit : Step := { matchedPrompt with newReqs := [⟨some [1, 2, 3, 4], 3, 1⟩] }

def Unique (s : Step) : BatchReq → Prop
  | .new idx => s.unmatched idx
  | .running .. => False

structure NoInterference (s : Step) : Prop where
  injected : ∃ key, s.injectIntoKv = some key ∧ ∀ t batchIdx pos : Nat, key[t]? = some (KvRow.cached batchIdx pos) →
    s.tokens[t]? = some (BatchReq.new batchIdx, pos)
  slots : ∀ layer ∈ s.layers, ∀ slots, ∀ t : Nat, ∀ req pos, s.tokens[t]? = some (req, pos) →
    (s.simllmApplySandwichSlots layer slots)[t]? ≠ slots[t]? → s.Unique req

/-- Matches cover one token each, and the batch has it where the prompts put it. A row whose index has no match is of a
request without one, and so are the tokens after it, as many as it has computed. -/
structure Apart (s : Step) : Prop where
  injected : ∀ idx m req covered, s.matchResults.get? idx = some m → s.newReqs[idx]? = some req →
    m.covered req = some covered → covered ≠ 0 →
      covered = 1 ∧ (start (s.newReqs.map (·.promptLen)) idx < s.tokens.length + s.numPadding →
        s.tokens[start (s.newReqs.map (·.promptLen)) idx]? = some (.new idx, 0))
  rows : (∃ layer ∈ s.layers, layer.all s.sandwich.keepLayers = false) → ∀ row req, s.batch[row]? = some req →
    s.unmatched row → (0 < s.numScheduledTokens req → s.Unique req) ∧
      ∀ t other pos, start s.queryLens row + s.numScheduledTokens req ≤ t → s.reaches row t →
        s.tokens[t]? = some (other, pos) → s.Unique other

theorem foldlM_inject (l : List Injection) (key : List KvRow) :
    l.foldlM inject key = if ∀ i ∈ l, i.tokStart + i.covered ≤ key.length ∨ i.covered = 1 then some (l.foldl overlay key)
      else none := by
  induction l generalizing key with
  | nil => simp
  | cons i rest ih =>
    have hlen : (overlay key i).length = key.length := length_mapIdx
    rw [foldlM_cons, inject]
    split
    · rename_i hi
      simp [ih, hlen, hi]
    · rename_i hi
      simp [hi]

theorem getElem?_overlay (l : List Injection) {key : List KvRow} {t : Nat} (ht : t < key.length) :
    (∃ i ∈ l, i.has t ∧ (l.foldl overlay key)[t]? = some (.cached i.batchIdx (t - i.tokStart))) ∨
      (∀ i ∈ l, i.has t = false) ∧ (l.foldl overlay key)[t]? = key[t]? := by
  induction l using reverseRecOn with
  | nil => simp
  | append_singleton l i ih =>
    rw [foldl_append, foldl_cons, foldl_nil, overlay, getElem?_mapIdx]
    cases hi : i.has t with
    | true =>
      have hsome : ∃ row, (l.foldl overlay key)[t]? = some row := by
        rcases ih with ⟨_, _, _, h⟩ | ⟨_, h⟩
        · exact ⟨_, h⟩
        · exact ⟨_, h.trans (getElem?_eq_getElem ht)⟩
      obtain ⟨row, hrow⟩ := hsome
      exact .inl ⟨i, by simp, hi, by simp [hrow]⟩
    | false =>
      simp only [false_eq_true, if_false, Option.map_id']
      rcases ih with ⟨i', hi', h⟩ | ⟨hnone, h⟩
      · exact .inl ⟨i', mem_append_left _ hi', h⟩
      · refine .inr ⟨fun i' hi' => ?_, h⟩
        rcases mem_append.mp hi' with hi' | hi'
        · exact hnone i' hi'
        · rwa [mem_singleton.mp hi']

theorem mem_injectionMap {i : Injection} : i ∈ s.simllmBuildInjectionMap ↔
    ∃ m req, s.matchResults.get? i.batchIdx = some m ∧ s.newReqs[i.batchIdx]? = some req ∧
      m.covered req = some i.covered ∧ i.covered ≠ 0 ∧ i.tokStart = start (s.newReqs.map (·.promptLen)) i.batchIdx := by
  simp only [simllmBuildInjectionMap, mem_filterMap, Prod.exists, Dict.mem_entries, bind_eq_bind, bind_eq_some_iff]
  constructor
  · rintro ⟨idx, m, hm, req, hreq, covered, hcovered, h⟩
    split at h
    · cases h
    · cases h
      exact ⟨m, req, hm, hreq, hcovered, ‹_›, rfl⟩
  · rintro ⟨m, req, hm, hreq, hcovered, hne, hstart⟩
    refine ⟨_, m, hm, req, hreq, _, hcovered, ?_⟩
    rw [if_neg hne, ← hstart]

theorem lt_promptLen {i : Injection} {t : Nat} (hi : i ∈ s.simllmBuildInjectionMap) (ht : i.has t) :
    i.tokStart = start (s.newReqs.map (·.promptLen)) i.batchIdx ∧ i.tokStart ≤ t ∧
      t - i.tokStart < (s.newReqs.map (·.promptLen)).getD i.batchIdx 0 := by
  obtain ⟨m, req, -, hreq, hcovered, -, hstart⟩ := mem_injectionMap.mp hi
  have hle := MatchResult.covered_le hcovered
  have hlen : (s.newReqs.map (·.promptLen)).getD i.batchIdx 0 = req.promptLen := by simp [getD_eq_getElem?_getD, hreq]
  simp only [Injection.has, and_eq_true, decide_eq_true_eq] at ht
  exact ⟨hstart, ht.1, by omega⟩

theorem eq_of_has {i j : Injection} (hi : i ∈ s.simllmBuildInjectionMap) (hj : j ∈ s.simllmBuildInjectionMap) {t : Nat}
    (hit : i.has t) (hjt : j.has t) : i.batchIdx = j.batchIdx ∧ i.tokStart = j.tokStart := by
  obtain ⟨hi, hle, hlt⟩ := lt_promptLen hi hit
  obtain ⟨hj, hle', hlt'⟩ := lt_promptLen hj hjt
  obtain ⟨hidx, -⟩ := eq_of_start_add_eq hlt hlt' (by omega)
  exact ⟨hidx, by rw [hi, hj, hidx]⟩

theorem injected_iff (s : Step) :
    (∃ key, s.injectIntoKv = some key ∧ ∀ t batchIdx pos : Nat, key[t]? = some (KvRow.cached batchIdx pos) →
      s.tokens[t]? = some (BatchReq.new batchIdx, pos)) ↔
    ∀ i ∈ s.simllmBuildInjectionMap, i.covered = 1 ∧ (i.tokStart < s.tokens.length + s.numPadding →
      s.tokens[i.tokStart]? = some (.new i.batchIdx, 0)) := by
  let key₀ : List KvRow := (range (s.tokens.length + s.numPadding)).map .computed
  have hlen : key₀.length = s.tokens.length + s.numPadding := by simp [key₀]
  have hfold : s.injectIntoKv = _ := foldlM_inject s.simllmBuildInjectionMap key₀
  constructor
  · rintro ⟨key, hkey, h⟩ i hi
    rw [hfold] at hkey
    obtain ⟨hfits, ⟨⟩⟩ := ite_none_right_eq_some.mp hkey
    have htoken : i.tokStart < s.tokens.length + s.numPadding → s.tokens[i.tokStart]? = some (.new i.batchIdx, 0) := by
      intro hlt
      obtain ⟨-, -, -, -, -, hpos, -⟩ := mem_injectionMap.mp hi
      have hhas : i.has i.tokStart := by simp [Injection.has, Nat.pos_of_ne_zero hpos]
      rcases getElem?_overlay s.simllmBuildInjectionMap (hlen ▸ hlt) with ⟨j, hj, hjt, hrow⟩ | ⟨hnone, -⟩
      · obtain ⟨hidx, hstart⟩ := eq_of_has hi hj hhas hjt
        rw [← hidx, ← hstart, Nat.sub_self] at hrow
        exact h _ _ _ hrow
      · rw [hnone i hi] at hhas
        cases hhas
    refine ⟨?_, htoken⟩
    -- the rows of a rewritten request start behind position 0
    by_contra hne
    have hle := (hfits i hi).resolve_right hne
    obtain ⟨m, req, hm, hreq, hcovered, hpos, -⟩ := mem_injectionMap.mp hi
    have hzero := le_of_token (htoken (by omega))
    have hmany : ¬ i.covered ≤ 1 := by omega
    simp [numComputedTokens, getElem?_rewrite hreq, rewrite, hm, hcovered, hmany] at hzero
    omega
  · intro h
    rw [if_pos fun i hi => .inr (h i hi).1] at hfold
    refine ⟨_, hfold, fun t batchIdx pos ht => ?_⟩
    have hlt : t < key₀.length := by
      by_contra hge
      have hfold : ∀ l : List Injection, (l.foldl overlay key₀).length = key₀.length := fun l => by
        induction l using reverseRecOn with
        | nil => rfl
        | append_singleton l i ih => simpa [overlay] using ih
      rw [getElem?_eq_none (by rw [hfold]; omega)] at ht
      cases ht
    rcases getElem?_overlay s.simllmBuildInjectionMap hlt with ⟨i, hi, hit, hrow⟩ | ⟨-, hrow⟩
    · obtain ⟨hone, htoken⟩ := h i hi
      obtain ⟨rfl, rfl⟩ := KvRow.cached.inj (some_inj.mp (ht.symm.trans hrow))
      simp only [Injection.has, hone, and_eq_true, decide_eq_true_eq] at hit
      obtain rfl : t = i.tokStart := by omega
      rw [Nat.sub_self]
      exact htoken (hlen ▸ hlt)
    · rw [ht, getElem?_eq_getElem hlt] at hrow
      simp [key₀] at hrow

theorem getElem?_disable (rows : List Nat) (slots : List Int) (t : Nat) :
    (rows.foldl s.disable slots)[t]? = if rows.any (s.reaches · t) then slots[t]?.map fun _ => -1 else slots[t]? := by
  induction rows using reverseRecOn with
  | nil => simp
  | append_singleton rows row ih =>
    rw [foldl_append, foldl_cons, foldl_nil, disable, getElem?_mapIdx, ih]
    cases hrow : s.reaches row t <;> cases hrows : rows.any (s.reaches · t) <;> cases slots[t]? <;> simp [hrow, hrows]

theorem token_of_row {row i : Nat} {req : BatchReq} (hreq : s.batch[row]? = some req) (hi : i < s.numScheduledTokens req) :
    s.tokens[start s.queryLens row + i]? = some (req, s.numComputedTokens req + i) := by
  have hcount : s.queryLens.getD row 0 = s.numScheduledTokens req := by simp [queryLens, getD_eq_getElem?_getD, hreq]
  rw [tokens, getElem?_flat (hcount ▸ hi)]
  simp [getD_eq_getElem?_getD, hreq]

theorem slots_iff (s : Step) (layer : Option Nat) (hlayer : layer.all s.sandwich.keepLayers = false) :
    (∀ slots, ∀ t : Nat, ∀ req pos, s.tokens[t]? = some (req, pos) →
      (s.simllmApplySandwichSlots layer slots)[t]? ≠ slots[t]? → s.Unique req) ↔
    ∀ row req, s.batch[row]? = some req → s.unmatched row → (0 < s.numScheduledTokens req → s.Unique req) ∧
      ∀ t other pos, start s.queryLens row + s.numScheduledTokens req ≤ t → s.reaches row t →
        s.tokens[t]? = some (other, pos) → s.Unique other := by
  have hslots : ∀ slots, s.simllmApplySandwichSlots layer slots =
      ((range s.batch.length).filter s.unmatched).foldl s.disable slots := fun slots => by
    simp [simllmApplySandwichSlots, hlayer]
  constructor
  · intro h row req hreq hrow
    have hmem : row ∈ (range s.batch.length).filter s.unmatched :=
      mem_filter.mpr ⟨mem_range.mpr (List.getElem?_eq_some_iff.mp hreq).1, hrow⟩
    have hunique : ∀ t other pos, s.reaches row t → s.tokens[t]? = some (other, pos) → s.Unique other := by
      intro t other pos ht htoken
      refine h (replicate s.tokens.length 0) t other pos htoken ?_
      have hlt := (List.getElem?_eq_some_iff.mp htoken).1
      rw [hslots, getElem?_disable, if_pos (any_eq_true.mpr ⟨row, hmem, ht⟩)]
      simp [hlt]
    refine ⟨fun hpos => ?_, fun t other pos _ => hunique t other pos⟩
    refine hunique (start s.queryLens row + 0) req _ ?_ (token_of_row hreq hpos)
    simp [reaches, seqLen, getD_eq_getElem?_getD, hreq]
    omega
  · intro h slots t other pos htoken hne
    rw [hslots, getElem?_disable] at hne
    split at hne
    · rename_i hany
      obtain ⟨row, hmem, ht⟩ := any_eq_true.mp hany
      obtain ⟨hrange, hrow⟩ := mem_filter.mp hmem
      obtain ⟨req, hreq⟩ : ∃ req, s.batch[row]? = some req := ⟨_, getElem?_eq_getElem (mem_range.mp hrange)⟩
      obtain ⟨hself, hrest⟩ := h row req hreq hrow
      by_cases hown : t < start s.queryLens row + s.numScheduledTokens req
      · have hle : start s.queryLens row ≤ t := by
          simp only [reaches, and_eq_true, decide_eq_true_eq] at ht
          exact ht.1
        have hmine := token_of_row hreq (show t - start s.queryLens row < _ by omega)
        rw [Nat.add_sub_cancel' hle, htoken] at hmine
        obtain ⟨rfl, -⟩ := Prod.mk.inj (some_inj.mp hmine)
        exact hself (by omega)
      · exact hrest t other pos (by omega) ht htoken
    · exact absurd rfl hne

/-- What a `CachedTask` is made of: the id and the KV blocks of the row, the row of the pooled hidden states, the new
request that was hashed, and whether only the top layer is stored. -/
structure CachedTask where
  row : Nat
  embedding : Option Nat
  lshHash : Nat
  topLayerOnly : Bool
deriving DecidableEq

/-- The ids of a batch differ, so the first row of an id is its only one. -/
def simllmBuildStorePlan (s : Step) : List (Nat × Nat) :=
  (range s.newReqs.length).filterMap fun hashIdx => (s.batch.findIdx? (· = .new hashIdx)).map (·, hashIdx)

/-- The rows that have an embedding: `_per_request_embeddings` drops the empty ranges. -/
def perRequestEmbeddings (s : Step) : List Nat := (range s.batch.length).filter fun row => 0 < s.queryLens.getD row 0

def isMatched (s : Step) (idx : Nat) : Bool := (s.matchResults.get? idx).any fun m => m.matched && m.cachedLen.isSome

def simllmExtractKv (s : Step) : List CachedTask :=
  -- without any prompt token there are no hashes
  if s.newReqs.all (·.promptLen = 0) then []
  else s.simllmBuildStorePlan.filterMap fun (row, hashIdx) =>
    if s.seqLen (s.batch.getD row (.running 0 0)) = 0 then none
    else some ⟨row, s.perRequestEmbeddings[row]?, hashIdx, s.isMatched row⟩

/-- Each task is of one request, and its own match decides what is stored. -/
def OneRequest (s : Step) : Prop :=
  ∀ task ∈ s.simllmExtractKv, s.batch[task.row]? = some (.new task.lshHash) ∧ task.embedding = some task.row ∧
    task.topLayerOnly = s.isMatched task.lshHash

theorem getElem?_filter_range {p : Nat → Bool} {n i : Nat} (hi : i < n) :
    ((range n).filter p)[i]? = some i ↔ ∀ j ≤ i, p j = true := by
  -- Where `i` is left, as many entries come before it as are left below `i`.
  have hat : p i = true → ((range n).filter p)[((range i).filter p).length]? = some i := by
    intro hp
    obtain ⟨k, rfl⟩ : ∃ k, n = i + (k + 1) := ⟨n - (i + 1), by omega⟩
    simp [range_add, range_succ_eq_map, hp]
  have hall : ((range i).filter p).length = i ↔ ∀ j < i, p j = true := by
    simpa using length_filter_eq_length_iff (p := p) (l := range i)
  simp only [Nat.le_iff_lt_or_eq, or_imp, forall_and, forall_eq, ← hall]
  constructor
  · intro h
    have hp : p i = true := (mem_filter.mp (mem_of_getElem? h)).2
    have hlt := (List.getElem?_eq_some_iff.mp (hat hp)).1
    exact ⟨(getElem?_inj hlt (nodup_range.filter p)).mp ((hat hp).trans h.symm), hp⟩
  · rintro ⟨hlen, hp⟩
    rw [← hat hp, hlen]

theorem mem_simllmExtractKv {task : CachedTask} (h : task ∈ s.simllmExtractKv) :
    s.batch[task.row]? = some (.new task.lshHash) ∧ task.embedding = s.perRequestEmbeddings[task.row]? ∧
      task.topLayerOnly = s.isMatched task.row := by
  unfold simllmExtractKv at h
  split at h
  · cases h
  · obtain ⟨⟨row, hashIdx⟩, hplan, htask⟩ := mem_filterMap.mp h
    obtain ⟨_, ⟨⟩⟩ := ite_none_left_eq_some.mp htask
    obtain ⟨_, -, hrow⟩ := mem_filterMap.mp hplan
    obtain ⟨_, hrow, heq⟩ := map_eq_some_iff.mp hrow
    cases heq
    obtain ⟨hlt, hnew, -⟩ := findIdx?_eq_some_iff_getElem.mp hrow
    exact ⟨by simpa [hlt] using hnew, rfl, rfl⟩

end Step

end VllmAscend.SimLlm
