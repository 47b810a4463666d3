import VllmAscend.Lib.Dict
import VllmAscend.Lib.Machine

/-!
# The manager of the CPU blocks

`CPUKVCacheManager`, with vLLM's block pool and manager as it uses them: `touch` and `free_blocks`
count references, and `allocate_new_computed_blocks` refuses hits of a request that owns blocks.
-/

namespace VllmAscend.CpuOffload

open List Option Bool Dict

structure Pool where
  blockSize : Nat
  blocks : List Nat
  getNewBlocks : (Nat → Nat) → Nat → List Nat

structure Manager where
  refCnt : Nat → Nat := fun _ => 0
  reqToComputedBlocks : Dict String (List Nat) := ∅
  reqToBlocks : Dict String (List Nat) := ∅
  reqFailedToAllocate : List String := []
  reqToFree : List String := []

namespace Manager

variable (pool : Pool) (m : Manager)

def touch (blocks : List Nat) : Manager := { m with refCnt := fun b => m.refCnt b + blocks.count b }

def freeBlocks (blocks : List Nat) : Manager := { m with refCnt := fun b => m.refCnt b - blocks.count b }

def getMatchedNumAndTouch (requestId : String) (promptLogprobs : Bool) (hits : List Nat) : Manager :=
  if promptLogprobs then m
  else { m with reqToComputedBlocks := m.reqToComputedBlocks.set requestId hits }.touch hits

def releaseAheadTouch (requestId : String) : Manager :=
  { m.freeBlocks (m.reqToComputedBlocks.getD requestId []) with
    reqToComputedBlocks := m.reqToComputedBlocks.erase requestId }

def freeSlots (requestId : String) : Manager :=
  let m := m.releaseAheadTouch requestId
  { m.freeBlocks (m.reqToBlocks.getD requestId []) with
    reqToBlocks := m.reqToBlocks.erase requestId
    reqFailedToAllocate := m.reqFailedToAllocate.filter (· ≠ requestId) }

def numFreeBlocks : Nat := pool.blocks.countP (m.refCnt · == 0)

/-- One round of `allocate_slots`, with the entry of `req_to_new_blocks`; `none` is the failed assertion. -/
def allocate (requestId : String) (numTokens : Nat) : Option (Manager × Option (List Nat)) :=
  if requestId ∈ m.reqFailedToAllocate then some (m, none)
  else
    let hits := m.reqToComputedBlocks.getD requestId []
    let own := m.reqToBlocks.getD requestId []
    let numBlocks := (numTokens + pool.blockSize - 1) / pool.blockSize - (own.length + hits.length)
    if m.numFreeBlocks pool < numBlocks then
      let m := m.releaseAheadTouch requestId
      some ({ m with reqFailedToAllocate := requestId :: m.reqFailedToAllocate }, none)
    else if hits ≠ [] ∧ requestId ∈ m.reqToBlocks.keys then none
    else
      let new := pool.getNewBlocks m.refCnt numBlocks
      some ({ m.touch new with
        reqToBlocks := m.reqToBlocks.set requestId (own ++ hits ++ new)
        reqToComputedBlocks := m.reqToComputedBlocks.erase requestId }, some (hits ++ new))

def allocateSlots (reqToNumTokens : List (String × Nat)) (unallocatedReqIds : List String) : Option Manager :=
  reqToNumTokens.foldlM (fun m (requestId, numTokens) => (m.allocate pool requestId numTokens).map Prod.fst)
    (unallocatedReqIds.foldl freeSlots m)

def cacheAndFreeSlots (requestId : String) : Manager :=
  if requestId ∈ m.reqToFree then { m.freeSlots requestId with reqToFree := m.reqToFree.filter (· ≠ requestId) } else m

def Forgot (r : String) : Prop :=
  m.reqToComputedBlocks.get? r = none ∧ m.reqToBlocks.get? r = none ∧ r ∉ m.reqFailedToAllocate ∧ r ∉ m.reqToFree

theorem forgot_of_mem {m : Manager} {r : String} (h : r ∈ m.reqToFree) : (m.cacheAndFreeSlots r).Forgot r := by
  simp [cacheAndFreeSlots, h, Forgot, freeSlots, releaseAheadTouch, freeBlocks, get?_erase]

inductive Rpc
  | getMatchedNumAndTouch (requestId : String) (promptLogprobs : Bool) (hits : List Nat)
  | allocateSlots (reqToNumTokens : List (String × Nat)) (unallocatedReqIds : List String)
  | recordRequestCacheAndFreeSlots (requestId : String)
  | cacheAndFreeSlots (requestId : String)

def step (m : Manager) : Rpc → Option Manager
  | .getMatchedNumAndTouch requestId promptLogprobs hits => some (m.getMatchedNumAndTouch requestId promptLogprobs hits)
  | .allocateSlots reqToNumTokens unallocatedReqIds => m.allocateSlots pool reqToNumTokens unallocatedReqIds
  | .recordRequestCacheAndFreeSlots requestId => some { m with reqToFree := requestId :: m.reqToFree }
  | .cacheAndFreeSlots requestId => some (m.cacheAndFreeSlots requestId)

/-- A request is matched only while no hits of it are noted, and with hits only while it owns no blocks. -/
def MatchedOnce (m : Manager) : Rpc → Prop
  | .getMatchedNumAndTouch requestId promptLogprobs hits => promptLogprobs = false →
    m.reqToComputedBlocks.getD requestId [] = [] ∧ (hits ≠ [] → requestId ∉ m.reqToBlocks.keys)
  | _ => True

/-! ## Reference counts -/

def occurrences (d : Dict String (List Nat)) (b : Nat) : Nat := d.sumBy (·.count b)

structure Exact (m : Manager) : Prop where
  refCnt : ∀ b, m.refCnt b = occurrences m.reqToComputedBlocks b + occurrences m.reqToBlocks b
  free : m.reqToComputedBlocks = ∅ → m.reqToBlocks = ∅ → ∀ b, m.refCnt b = 0

structure Inv (m : Manager) : Prop where
  refCnt : ∀ b, m.refCnt b = occurrences m.reqToComputedBlocks b + occurrences m.reqToBlocks b
  fresh : ∀ r, m.reqToComputedBlocks.getD r [] ≠ [] → r ∉ m.reqToBlocks.keys

theorem occurrences_erase (d : Dict String (List Nat)) (r : String) (b : Nat) :
    occurrences (d.erase r) b + (d.getD r []).count b = occurrences d b := by
  unfold occurrences Dict.getD
  cases h : d.get? r with
  | none => simp [Dict.erase_of_not_mem (get?_eq_none.mp h)]
  | some blocks => exact sumBy_erase _ h

theorem occurrences_set (d : Dict String (List Nat)) (r : String) (blocks : List Nat) (b : Nat) :
    occurrences (d.set r blocks) b + (d.getD r []).count b = occurrences d b + blocks.count b := by
  unfold occurrences Dict.getD
  cases h : d.get? r with
  | none => simpa using sumBy_set_new _ (get?_eq_none.mp h) blocks
  | some old => exact sumBy_set _ h blocks

theorem getD_erase_ne_nil {d : Dict String (List Nat)} {r r' : String} (h : (d.erase r).getD r' [] ≠ []) :
    r' ≠ r ∧ d.getD r' [] ≠ [] := by
  unfold Dict.getD at h ⊢
  rw [get?_erase] at h
  split at h
  · exact absurd rfl h
  · exact ⟨.symm ‹_›, h⟩

variable {m} {pool}

variable (h : m.Inv)

include h

theorem Inv.match_ {r : String} {promptLogprobs : Bool} {hits : List Nat}
    (hok : m.MatchedOnce (.getMatchedNumAndTouch r promptLogprobs hits)) :
    (m.getMatchedNumAndTouch r promptLogprobs hits).Inv := by
  cases promptLogprobs with
  | true => exact h
  | false =>
    obtain ⟨hnone, hown⟩ := hok rfl
    refine ⟨fun b => ?_, fun r' hr' => ?_⟩
    · have hset := occurrences_set m.reqToComputedBlocks r hits b
      have := h.refCnt b
      simp only [hnone, count_nil, Manager.getMatchedNumAndTouch, false_eq_true, if_false, Manager.touch] at hset ⊢
      omega
    · simp only [Manager.getMatchedNumAndTouch, false_eq_true, if_false, Manager.touch, Dict.getD, get?_set] at hr'
      split at hr'
      · rename_i heq
        exact heq ▸ hown hr'
      · exact h.fresh r' hr'

theorem Inv.releaseAheadTouch (r : String) : (m.releaseAheadTouch r).Inv := by
  refine ⟨fun b => ?_, fun r' hr' => h.fresh r' (getD_erase_ne_nil hr').2⟩
  have herase := occurrences_erase m.reqToComputedBlocks r b
  have := h.refCnt b
  simp only [Manager.releaseAheadTouch, Manager.freeBlocks]
  omega

theorem Inv.freeSlots (r : String) : (m.freeSlots r).Inv := by
  obtain ⟨hcnt, hfresh⟩ := h.releaseAheadTouch r
  refine ⟨fun b => ?_, fun r' hr' hmem => hfresh r' hr' ?_⟩
  · have herase := occurrences_erase m.reqToBlocks r b
    have := hcnt b
    simp only [Manager.freeSlots, Manager.freeBlocks, Manager.releaseAheadTouch] at this ⊢
    omega
  · simp only [Manager.freeSlots, keys_erase] at hmem
    exact mem_of_mem_erase hmem

theorem Inv.allocate (pool : Pool) (r : String) (n : Nat) :
    ∃ m' new, m.allocate pool r n = some (m', new) ∧ m'.Inv := by
  unfold Manager.allocate
  split
  · exact ⟨m, none, rfl, h⟩
  · dsimp only
    split
    · have h := h.releaseAheadTouch r
      exact ⟨_, none, rfl, h.refCnt, h.fresh⟩
    · split
      · rename_i hown
        exact absurd hown.2 (h.fresh r hown.1)
      · generalize pool.getNewBlocks _ _ = new
        refine ⟨_, _, rfl, fun b => ?_, fun r' hr' hmem => ?_⟩
        · have herase := occurrences_erase m.reqToComputedBlocks r b
          have hset := occurrences_set m.reqToBlocks r
            (m.reqToBlocks.getD r [] ++ m.reqToComputedBlocks.getD r [] ++ new) b
          have := h.refCnt b
          simp only [count_append, Manager.touch] at hset ⊢
          omega
        · obtain ⟨hne, hr'⟩ := getD_erase_ne_nil hr'
          exact (mem_keys_set.mp hmem).elim hne (h.fresh r' hr')

theorem Inv.allocateSlots (reqs : List (String × Nat)) (unallocated : List String) :
    ∃ m', m.allocateSlots pool reqs unallocated = some m' ∧ m'.Inv := by
  unfold Manager.allocateSlots
  have hfree : (unallocated.foldl Manager.freeSlots m).Inv := by
    induction unallocated generalizing m with
    | nil => exact h
    | cons r rest ih => exact ih (h.freeSlots r)
  generalize unallocated.foldl Manager.freeSlots m = m at hfree
  induction reqs generalizing m with
  | nil => exact ⟨m, rfl, hfree⟩
  | cons req rest ih =>
    obtain ⟨m', new, hm', hinv⟩ := hfree.allocate pool req.1 req.2
    simp only [foldlM_cons, hm', map_some, bind_eq_bind, bind_some]
    exact ih m' hinv

theorem Inv.step (pool : Pool) {rpc : Rpc} (hok : m.MatchedOnce rpc) : ∃ m', m.step pool rpc = some m' ∧ m'.Inv := by
  cases rpc with
  | getMatchedNumAndTouch r promptLogprobs hits => exact ⟨_, rfl, h.match_ hok⟩
  | allocateSlots reqs unallocated => exact h.allocateSlots reqs unallocated
  | recordRequestCacheAndFreeSlots r => exact ⟨_, rfl, h.refCnt, h.fresh⟩
  | cacheAndFreeSlots r =>
    refine ⟨_, rfl, ?_⟩
    unfold Manager.cacheAndFreeSlots
    split
    · exact ⟨(h.freeSlots r).refCnt, (h.freeSlots r).fresh⟩
    · exact h

omit h

def fewBlocks : Pool where
  blockSize := 4
  blocks := [1, 2]
  getNewBlocks refCnt n := ([1, 2].filter (refCnt · == 0)).take n

def oneRequest : List Rpc := [.getMatchedNumAndTouch "a" false [1], .allocateSlots [("a", 8)] [],
  .recordRequestCacheAndFreeSlots "a", .cacheAndFreeSlots "a"]

end Manager

end VllmAscend.CpuOffload
