import VllmAscend.CpuOffload.Loads

/-!
# What the CPU prefix cache publishes

When a tensor parallel group has saved a finished request, `cache_and_free_slots` enters the CPU blocks of its full
blocks into the cache.
-/

namespace VllmAscend.CpuOffload

open List

structure SaveConfig extends LoadConfig where
  useMla : Bool
  tpSize : Nat
  ppSize : Nat

namespace SaveConfig

variable (cfg : SaveConfig)

def saveBlockMapping (req : ReqMeta) : List (BlockIds × Nat) :=
  ((req.gpuBlockIds.zip req.cpuBlockIds).take ((req.numComputedTokens + req.numScheduledTokens) / cfg.blockSize)).drop
    (req.numCpuComputedTokens / cfg.blockSize)

/-- `_save_req` on a rank: the ranks share the blocks of an MLA model. -/
def saveReq (req : ReqMeta) (tpRank : Nat) : List (BlockIds × Nat) :=
  if cfg.useMla then ((cfg.saveBlockMapping req).zipIdx.filter (·.2 % cfg.tpSize = tpRank)).map Prod.fst
  else cfg.saveBlockMapping req

def Copied (req : ReqMeta) (pair : BlockIds × Nat) : Prop :=
  if cfg.useMla then ∃ tpRank < cfg.tpSize, pair ∈ cfg.saveReq req tpRank
  else ∀ tpRank < cfg.tpSize, pair ∈ cfg.saveReq req tpRank

end SaveConfig

structure Publishing extends Tracked where
  cpuBlocks : List Nat := []
  numTokens : Nat := 0
  numHits : Nat := 0
  failed : Bool := false
  saved : List Nat := []
  published : Option (List Nat) := none

inductive PublishEvent
  | scheduled (scheduled : Scheduled)
  | getFinished (stage : Nat)

namespace Publishing

variable (cfg : SaveConfig) (p : Publishing)

def allocate (hits numTokens : Nat) : Option (List Nat) → Publishing
  | some blocks => { p with cpuBlocks := p.cpuBlocks ++ blocks, numTokens, numHits := p.numHits + hits }
  | none => { p with failed := true }

def step (p : Publishing) : PublishEvent → Option Publishing
  | .scheduled scheduled => (p.toTracked.step cfg.toLoadConfig scheduled).map fun t =>
    let p := { p with toTracked := t }
    match scheduled with
    | .new _ _ hits numScheduledTokens cpuBlocks => p.allocate hits.length (t.last + numScheduledTokens) cpuBlocks
    | .cached _ _ numScheduledTokens cpuBlocks => p.allocate 0 (t.last + numScheduledTokens) cpuBlocks
    | .resumed _ _ _ numScheduledTokens cpuBlocks => p.allocate 0 (t.last + numScheduledTokens) cpuBlocks
  | .getFinished stage =>
    let saved := stage :: p.saved
    some { p with saved, published := if cfg.tpSize = 1 then p.published else p.published.or (some saved) }

/-- Every published block was copied on all ranks that have a part of it. -/
def PublishesSaved : Prop :=
  ∀ stages ∈ p.published, p.failed = false → ∀ j cpu, p.numHits ≤ j → j < p.numTokens / cfg.blockSize →
    p.cpuBlocks[j]? = some cpu → ∀ stage < cfg.ppSize, stage ∈ stages ∧
      ∃ req ∈ p.meta?, cfg.Copied req (.id (p.table.getD j 0), cpu)

/-- The request has all its GPU blocks from the first step on, and is published after its last step. The blocks hold
the tokens of the step. -/
def OneTable (p : Publishing) : PublishEvent → Prop
  | .scheduled (.new blockIds numLocalTokens hits numScheduledTokens cpuBlocks) => p.meta? = none ∧
    let numTokens := numLocalTokens + cfg.getNumNewMatchedTokens numLocalTokens hits + numScheduledTokens
    numTokens ≤ blockIds.length * cfg.blockSize ∧ ∀ blocks ∈ cpuBlocks, numTokens ≤ blocks.length * cfg.blockSize
  | .scheduled (.cached newBlockIds numComputedTokens numScheduledTokens cpuBlocks) =>
    p.meta?.isSome ∧ newBlockIds = none ∧ p.published = none ∧
    numComputedTokens + numScheduledTokens ≤ p.table.length * cfg.blockSize ∧
      ∀ blocks ∈ cpuBlocks, numComputedTokens + numScheduledTokens ≤ (p.cpuBlocks ++ blocks).length * cfg.blockSize
  | .scheduled (.resumed ..) => False
  | .getFinished stage => stage < cfg.ppSize

/-- What the worker knows of a request that is not refused is what the manager has. -/
structure Synced (p : Publishing) (req : ReqMeta) : Prop where
  gpu : req.gpuBlockIds = p.table.map .id
  cpu : req.cpuBlockIds = p.cpuBlocks
  hits : req.numCpuComputedTokens ≤ p.numHits * cfg.blockSize
  tokens : req.numComputedTokens + req.numScheduledTokens = p.numTokens
  table : p.numTokens ≤ p.table.length * cfg.blockSize
  blocks : p.numTokens ≤ p.cpuBlocks.length * cfg.blockSize

structure Inv (p : Publishing) : Prop where
  new : p.meta? = none → p.numTokens = 0 ∧ p.numHits = 0 ∧ p.cpuBlocks = []
  gpu : ∀ req ∈ p.meta?, req.gpuBlockIds = p.table.map .id
  synced : p.failed = false → ∀ req ∈ p.meta?, p.Synced cfg req
  stages : ∀ stages ∈ p.published, ∀ stage < cfg.ppSize, stage ∈ stages

variable {cfg} {p}

theorem mem_saveBlockMapping {req : ReqMeta} {j cpu : Nat} (h : p.Synced cfg req) (hj : p.numHits ≤ j)
    (hlt : j < p.numTokens / cfg.blockSize) (hcpu : p.cpuBlocks[j]? = some cpu) :
    (cfg.saveBlockMapping req)[j - req.numCpuComputedTokens / cfg.blockSize]? = some (.id (p.table.getD j 0), cpu) := by
  have hstart : req.numCpuComputedTokens / cfg.blockSize ≤ j := by
    have := Nat.div_le_div_right (c := cfg.blockSize) h.hits
    rw [Nat.mul_div_cancel _ cfg.blockSize_pos] at this
    omega
  have htable : j < p.table.length := Nat.lt_of_lt_of_le hlt (Nat.div_le_of_le_mul (Nat.mul_comm _ _ ▸ h.table))
  unfold SaveConfig.saveBlockMapping
  rw [getElem?_drop, Nat.add_sub_cancel' hstart, getElem?_take, h.tokens, if_pos hlt, h.gpu, h.cpu]
  simp [zip, getElem?_zipWith, hcpu, htable]

theorem copied_of_getElem? {req : ReqMeta} {i : Nat} {pair : BlockIds × Nat} (htp : 0 < cfg.tpSize)
    (h : (cfg.saveBlockMapping req)[i]? = some pair) : cfg.Copied req pair := by
  unfold SaveConfig.Copied SaveConfig.saveReq
  split
  · refine ⟨i % cfg.tpSize, Nat.mod_lt _ htp, mem_map.mpr ⟨(pair, i), mem_filter.mpr ⟨?_, by simp⟩, rfl⟩⟩
    exact mem_zipIdx_iff_getElem?.mpr h
  · exact fun _ _ => mem_of_getElem? h

theorem Inv.publishes (h : p.Inv cfg) (htp : 0 < cfg.tpSize) : p.PublishesSaved cfg := by
  intro stages hstages hfailed j cpu hj hlt hcpu stage hstage
  refine ⟨h.stages stages hstages stage hstage, ?_⟩
  cases hmeta : p.meta? with
  | none =>
    rw [(h.new hmeta).1, Nat.zero_div] at hlt
    exact absurd hlt (Nat.not_lt_zero j)
  | some req =>
    exact ⟨req, rfl, copied_of_getElem? htp (mem_saveBlockMapping (h.synced hfailed req hmeta) hj hlt hcpu)⟩

theorem Inv.scheduled (h : p.Inv cfg) {scheduled : Scheduled} (hok : p.OneTable cfg (.scheduled scheduled)) {p' : Publishing}
    (hs : p.step cfg (.scheduled scheduled) = some p') : p'.Inv cfg := by
  obtain ⟨t, ht, hp'⟩ := Option.map_eq_some_iff.mp hs
  obtain ⟨loads, rfl⟩ := Tracked.step_eq ht
  cases scheduled with
  | resumed => exact hok.elim
  | new blockIds numLocalTokens hits numScheduledTokens cpuBlocks =>
    obtain ⟨hmeta, htable, hblocks⟩ := hok
    obtain ⟨-, hhits, hcpu⟩ := h.new hmeta
    simp only [hmeta] at hp'
    cases cpuBlocks with
    | none =>
      cases hp'
      exact ⟨by rintro ⟨⟩, by rintro _ ⟨⟩; rfl, by rintro ⟨⟩, h.stages⟩
    | some blocks =>
      simp only [allocate, Tracked.track] at hp'
      subst hp'
      refine ⟨by rintro ⟨⟩, by rintro _ ⟨⟩; rfl, ?_, h.stages⟩
      rintro - _ ⟨⟩
      have hblocks := hblocks blocks rfl
      exact ⟨rfl, by simp [hcpu, LoadConfig.buildConnectorMeta], by simp [hhits, LoadConfig.buildConnectorMeta], rfl,
        htable, by simpa [hcpu] using hblocks⟩
  | cached newBlockIds numComputedTokens numScheduledTokens cpuBlocks =>
    obtain ⟨hknown, rfl, -, htable, hblocks⟩ := hok
    obtain ⟨req, hmeta⟩ := Option.isSome_iff_exists.mp hknown
    have hgpu := h.gpu req hmeta
    simp only [hmeta] at hp'
    have hgpu' : (req.update (cfg.buildConnectorMeta (.cached none numComputedTokens numScheduledTokens cpuBlocks))).gpuBlockIds =
        (p.table ++ []).map .id := by simp [ReqMeta.update, LoadConfig.buildConnectorMeta, hgpu]
    cases cpuBlocks with
    | none =>
      cases hp'
      exact ⟨by rintro ⟨⟩, by rintro _ ⟨⟩; exact hgpu', by rintro ⟨⟩, h.stages⟩
    | some blocks =>
      simp only [allocate, Tracked.track] at hp'
      subst hp'
      refine ⟨by rintro ⟨⟩, by rintro _ ⟨⟩; exact hgpu', fun hfailed => ?_, h.stages⟩
      have hsynced := h.synced hfailed req hmeta
      rintro _ ⟨⟩
      refine ⟨hgpu', by simp [ReqMeta.update, LoadConfig.buildConnectorMeta, hsynced.cpu], ?_, rfl, ?_, hblocks blocks rfl⟩
      · exact Nat.le_trans (Nat.min_le_left _ _) hsynced.hits
      · simpa using htable

theorem Inv.getFinished (h : p.Inv cfg) (hpp : cfg.ppSize = 1) {stage : Nat} (hok : stage < cfg.ppSize) {p' : Publishing}
    (hs : p.step cfg (.getFinished stage) = some p') : p'.Inv cfg := by
  cases hs
  refine ⟨h.new, h.gpu, fun hfailed req hmeta => ?_, fun stages hstages stage' hstage' => ?_⟩
  · obtain ⟨hgpu, hcpu, hhits, htokens, htable, hblocks⟩ := h.synced hfailed req hmeta
    exact ⟨hgpu, hcpu, hhits, htokens, htable, hblocks⟩
  · dsimp only at hstages
    split at hstages
    · exact h.stages stages hstages stage' hstage'
    · cases hpub : p.published with
      | some old =>
        rw [hpub, Option.some_or] at hstages
        exact h.stages stages (hpub ▸ hstages) stage' hstage'
      | none =>
        rw [hpub] at hstages
        cases hstages
        obtain rfl : stage' = stage := by omega
        exact mem_cons_self

/-- With one pipeline stage, a request that keeps its first block table publishes only blocks that were saved. -/
theorem publishes_saved (cfg : SaveConfig) (htp : 0 < cfg.tpSize) (hpp : cfg.ppSize = 1) {p : Publishing}
    (h : Machine.Reaches (step cfg) (OneTable cfg) {} p) : p.PublishesSaved cfg := by
  refine Inv.publishes (h.inv (Inv cfg) ⟨fun _ => ⟨rfl, rfl, rfl⟩, nofun, nofun, nofun⟩ fun p e p' hinv hok hs => ?_) htp
  cases e with
  | scheduled scheduled => exact hinv.scheduled hok hs
  | getFinished stage => exact hinv.getFinished hpp hok hs

def twoRanks (ppSize : Nat) : SaveConfig := ⟨Tracked.smallBlocks, false, 2, ppSize⟩

def savedRequest : List PublishEvent := [.scheduled Tracked.withHit, .getFinished 0]

theorem publishes_saved_savedRequest : ∃ p, Machine.run (step (twoRanks 1)) {} savedRequest = some p ∧
    p.published = some [0] ∧ p.numTokens = 4 ∧ p.PublishesSaved (twoRanks 1) := by
  refine ⟨_, rfl, rfl, rfl, publishes_saved (twoRanks 1) (by decide) rfl
    (@Machine.RunOk.reaches _ _ _ _ savedRequest _ _ ?_ rfl)⟩
  refine ⟨⟨rfl, by decide, ?_⟩, fun _ _ => ⟨Nat.zero_lt_one, fun _ _ => trivial⟩⟩
  rintro _ ⟨⟩
  decide

/-- The first of two stages publishes what the second one has not saved. -/
theorem secondStage_unsaved : ∃ p, Machine.run (step (twoRanks 2)) {} savedRequest = some p ∧ p.published = some [0] ∧
    ¬ p.PublishesSaved (twoRanks 2) :=
  ⟨_, rfl, rfl, fun h => absurd (h [0] rfl rfl 1 5 (by decide) (by decide) rfl 1 (by decide)).1 (by decide)⟩

end Publishing

end VllmAscend.CpuOffload
