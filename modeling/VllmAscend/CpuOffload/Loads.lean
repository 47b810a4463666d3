import VllmAscend.Lib.Loop
import VllmAscend.Lib.Machine

/-!
# What is loaded for a request

The metadata of a request from the scheduler to a worker of `CPUOffloadingConnector`. The requests
of a step do not touch each other, so one of them is followed.
-/

namespace VllmAscend.CpuOffload

open List

/-- An element of `gpu_block_ids`: extending a list by a tuple of lists appends the lists. -/
inductive BlockIds
  | id (block : Nat)
  | ids (blocks : List Nat)
deriving DecidableEq

structure ReqMeta where
  gpuBlockIds : List BlockIds
  cpuBlockIds : List Nat
  numScheduledTokens : Nat
  numComputedTokens : Nat
  numGpuComputedTokens : Nat
  numCpuComputedTokens : Nat
deriving DecidableEq

def ReqMeta.update (self other : ReqMeta) : ReqMeta where
  gpuBlockIds := self.gpuBlockIds ++ other.gpuBlockIds
  cpuBlockIds := self.cpuBlockIds ++ other.cpuBlockIds
  numScheduledTokens := other.numScheduledTokens
  numComputedTokens := other.numComputedTokens
  numGpuComputedTokens := other.numGpuComputedTokens
  numCpuComputedTokens := min self.numCpuComputedTokens other.numCpuComputedTokens

structure LoadConfig where
  blockSize : Nat
  blockSize_pos : 0 < blockSize
  swapInThreshold : Nat

/-- What a step does with the request. `cpuBlocks` is the answer of `allocate_slots`, `hits` the CPU blocks matched for
its first tokens. -/
inductive Scheduled
  | new (blockIds : List Nat) (numLocalTokens : Nat) (hits : List Nat) (numScheduledTokens : Nat)
      (cpuBlocks : Option (List Nat))
  | cached (newBlockIds : Option (List Nat)) (numComputedTokens numScheduledTokens : Nat) (cpuBlocks : Option (List Nat))
  /-- After a preemption, with new blocks for all tokens. -/
  | resumed (blockIds : List Nat) (numLocalTokens : Nat) (hits : List Nat) (numScheduledTokens : Nat)
      (cpuBlocks : Option (List Nat))

namespace LoadConfig

variable (cfg : LoadConfig)

def getNumNewMatchedTokens (numLocalTokens : Nat) (hits : List Nat) : Nat :=
  let numCpuComputedTokens := hits.length * cfg.blockSize
  if numLocalTokens + cfg.swapInThreshold ≤ numCpuComputedTokens then numCpuComputedTokens - numLocalTokens else 0

/-- The request in `build_connector_meta`: only a new one has `block_ids[0]` and the counts of its match. -/
def buildConnectorMeta : Scheduled → ReqMeta
  | .new blockIds numLocalTokens hits numScheduledTokens cpuBlocks =>
    { gpuBlockIds := blockIds.map .id
      cpuBlockIds := cpuBlocks.getD []
      numScheduledTokens
      numComputedTokens := numLocalTokens + cfg.getNumNewMatchedTokens numLocalTokens hits
      numGpuComputedTokens := numLocalTokens
      numCpuComputedTokens := hits.length * cfg.blockSize }
  | .cached newBlockIds numComputedTokens numScheduledTokens cpuBlocks =>
    { gpuBlockIds := newBlockIds.toList.map .ids
      cpuBlockIds := cpuBlocks.getD []
      numScheduledTokens
      numComputedTokens
      numGpuComputedTokens := numComputedTokens
      numCpuComputedTokens := numComputedTokens }
  | .resumed blockIds numLocalTokens hits numScheduledTokens cpuBlocks =>
    let numComputedTokens := numLocalTokens + cfg.getNumNewMatchedTokens numLocalTokens hits
    { gpuBlockIds := [.ids blockIds]
      cpuBlockIds := cpuBlocks.getD []
      numScheduledTokens
      numComputedTokens
      numGpuComputedTokens := numComputedTokens
      numCpuComputedTokens := numComputedTokens }

end LoadConfig

structure Tracked where
  meta? : Option ReqMeta := none
  /-- What the last step has added to `load_block_mapping`. -/
  loads : List (Nat × BlockIds) := []
  table : List Nat := []
  /-- What the last step has to load: the external tokens, and the CPU blocks matched. -/
  first : Nat := 0
  last : Nat := 0
  hits : List Nat := []

namespace Tracked

variable (cfg : LoadConfig)

/-- `bind_connector_metadata`; `none` is an `IndexError`. -/
def bindConnectorMetadata (known : Option ReqMeta) (req : ReqMeta) : Option (ReqMeta × List (Nat × BlockIds)) := do
  let req := match known with
    | some old => old.update req
    | none => req
  let first := req.numGpuComputedTokens / cfg.blockSize
  let loads ← (range' first (req.numComputedTokens / cfg.blockSize - first)).mapM fun i => do
    some (← req.cpuBlockIds[i]?, ← req.gpuBlockIds[i]?)
  some (req, loads)

def track (t : Tracked) : Scheduled → Tracked
  | .new blockIds numLocalTokens hits .. | .resumed blockIds numLocalTokens hits .. =>
    { t with
      table := blockIds
      first := numLocalTokens
      last := numLocalTokens + cfg.getNumNewMatchedTokens numLocalTokens hits
      hits }
  | .cached newBlockIds numComputedTokens .. =>
    { t with table := t.table ++ newBlockIds.getD [], first := numComputedTokens, last := numComputedTokens, hits := [] }

def step (t : Tracked) (scheduled : Scheduled) : Option Tracked :=
  (bindConnectorMetadata cfg t.meta? (cfg.buildConnectorMeta scheduled)).map fun (reqMeta, loads) =>
    { t.track cfg scheduled with meta? := some reqMeta, loads }

def LoadsComputed (t : Tracked) : Prop :=
  (∀ reqMeta ∈ t.meta?, reqMeta.gpuBlockIds = t.table.map .id) ∧
    t.loads = (range' (t.first / cfg.blockSize) (t.last / cfg.blockSize - t.first / cfg.blockSize)).map fun i =>
      (t.hits.getD i 0, .id (t.table.getD i 0))

/-- The request gets its blocks in one step and is not preempted, and where tokens are counted as external it is
granted its CPU blocks, which begin with the hits. -/
def OneAllocation (t : Tracked) : Scheduled → Prop
  | .new blockIds numLocalTokens hits _ cpuBlocks => t.meta? = none ∧
    numLocalTokens + cfg.getNumNewMatchedTokens numLocalTokens hits ≤ blockIds.length * cfg.blockSize ∧
      (cfg.getNumNewMatchedTokens numLocalTokens hits ≠ 0 → ∃ new, cpuBlocks = some (hits ++ new))
  | .cached newBlockIds .. => t.meta?.isSome ∧ newBlockIds = none
  | .resumed .. => False

variable {cfg} {t : Tracked}

theorem step_eq {scheduled : Scheduled} {t' : Tracked} (h : t.step cfg scheduled = some t') :
    ∃ loads, t' = { t.track cfg scheduled with
      meta? := some (match t.meta? with
        | some old => old.update (cfg.buildConnectorMeta scheduled)
        | none => cfg.buildConnectorMeta scheduled)
      loads } := by
  obtain ⟨⟨req, loads⟩, hbind, rfl⟩ := Option.map_eq_some_iff.mp h
  obtain ⟨loads', -, hreq⟩ := Option.bind_eq_some_iff.mp hbind
  cases hreq
  exact ⟨loads, rfl⟩

theorem mapM_loads {cpuBlocks ids hits : List Nat} {first last : Nat}
    (h : ∀ i, first ≤ i → i < last → cpuBlocks[i]? = hits[i]? ∧ i < hits.length ∧ i < ids.length) :
    ((range' first (last - first)).mapM fun i => do
      some (← cpuBlocks[i]?, ← (ids.map BlockIds.id)[i]?)) =
      some ((range' first (last - first)).map fun i => (hits.getD i 0, BlockIds.id (ids.getD i 0))) := by
  refine Loop.mapM_eq_map fun i hi => ?_
  obtain ⟨hle, hlt⟩ := mem_range'_1.mp hi
  obtain ⟨hcpu, hhit, hblock⟩ := h i hle (by omega)
  simp [hcpu, hhit, hblock]

theorem step_new {ids hits : List Nat} {loc sched : Nat} {cpuBlocks : Option (List Nat)}
    (hok : t.OneAllocation cfg (.new ids loc hits sched cpuBlocks)) :
    ∃ t', t.step cfg (.new ids loc hits sched cpuBlocks) = some t' ∧ t'.LoadsComputed cfg := by
  obtain ⟨hnone, hblocks, hcpu⟩ := hok
  have hloads := @mapM_loads (cpuBlocks.getD []) ids hits (loc / cfg.blockSize)
    ((loc + cfg.getNumNewMatchedTokens loc hits) / cfg.blockSize) fun i hle hlt => by
      have hexternal : cfg.getNumNewMatchedTokens loc hits ≠ 0 := fun hzero => by
        rw [hzero, Nat.add_zero] at hlt
        omega
      obtain ⟨new, rfl⟩ := hcpu hexternal
      have hall : loc + cfg.getNumNewMatchedTokens loc hits = hits.length * cfg.blockSize := by
        by_cases hle : loc + cfg.swapInThreshold ≤ hits.length * cfg.blockSize
        · simp only [LoadConfig.getNumNewMatchedTokens, hle, if_true]
          omega
        · simp [LoadConfig.getNumNewMatchedTokens, hle] at hexternal
      have hblock := Nat.div_le_of_le_mul (Nat.mul_comm _ _ ▸ hblocks)
      rw [hall, Nat.mul_div_cancel _ cfg.blockSize_pos] at hlt hblock
      exact ⟨getElem?_append_left hlt, hlt, by omega⟩
  unfold step bindConnectorMetadata LoadConfig.buildConnectorMeta
  simp only [hnone]
  rw [hloads]
  refine ⟨_, rfl, ?_, rfl⟩
  rintro _ ⟨⟩
  rfl

theorem step_cached {new : Option (List Nat)} {done sched : Nat}
    {cpuBlocks : Option (List Nat)} (h : t.LoadsComputed cfg)
    (hok : t.OneAllocation cfg (.cached new done sched cpuBlocks)) :
    ∃ t', t.step cfg (.cached new done sched cpuBlocks) = some t' ∧ t'.LoadsComputed cfg := by
  obtain ⟨hknown, rfl⟩ := hok
  obtain ⟨reqMeta, hmeta⟩ := Option.isSome_iff_exists.mp hknown
  have hgpu := h.1 reqMeta hmeta
  unfold step bindConnectorMetadata LoadConfig.buildConnectorMeta
  simp only [hmeta, ReqMeta.update, Nat.sub_self, range'_zero, mapM_nil, Option.pure_def, Option.bind_eq_bind,
    Option.bind_some, Option.map_some]
  refine ⟨_, rfl, ?_, by simp [track]⟩
  rintro _ ⟨⟩
  simpa [track] using hgpu

theorem step_ok (h : t.LoadsComputed cfg) {scheduled : Scheduled} (hok : t.OneAllocation cfg scheduled) :
    ∃ t', t.step cfg scheduled = some t' ∧ t'.LoadsComputed cfg := by
  cases scheduled with
  | new => exact step_new hok
  | cached => exact step_cached h hok
  | resumed => exact hok.elim

/-- Every run in which the request gets its blocks in one step loads what is counted as computed. -/
theorem loads_computed (cfg : LoadConfig) {t : Tracked} (h : Machine.Reaches (step cfg) (OneAllocation cfg) {} t) :
    t.LoadsComputed cfg ∧ ∀ scheduled, t.OneAllocation cfg scheduled → (t.step cfg scheduled).isSome := by
  have hinv : t.LoadsComputed cfg := by
    refine h.inv (LoadsComputed cfg) ⟨nofun, by simp⟩ fun t scheduled t' hinv hok hs => ?_
    obtain ⟨t'', ht'', hinv''⟩ := step_ok hinv hok
    cases hs.symm.trans ht''
    exact hinv''
  refine ⟨hinv, fun scheduled hok => ?_⟩
  obtain ⟨t', ht', -⟩ := step_ok hinv hok
  simp [ht']

def smallBlocks : LoadConfig := ⟨2, by decide, 0⟩

def withHit : Scheduled := .new [7, 8] 0 [4] 2 (some [4, 5])

theorem loads_computed_withHit :
    ∃ t, step smallBlocks {} withHit = some t ∧ t.loads = [(4, .id 7)] ∧ t.LoadsComputed smallBlocks := by
  refine ⟨_, rfl, rfl, (loads_computed smallBlocks (.tail (a := withHit) .refl ⟨rfl, by decide, fun _ => ?_⟩ rfl)).1⟩
  exact ⟨[5], rfl⟩

/-- The next step needs a third block: the worker notes a list in place of the block. -/
theorem newBlock_nested :
    ∃ t, Machine.run (step smallBlocks) {} [withHit, .cached (some [9]) 4 1 (some [6])] = some t ∧
      t.meta?.map (·.gpuBlockIds) = some [.id 7, .id 8, .ids [9]] ∧ ¬ t.LoadsComputed smallBlocks :=
  ⟨_, rfl, rfl, fun h => absurd (h.1 _ rfl) (by decide)⟩

end Tracked

end VllmAscend.CpuOffload
