import Mathlib.Data.List.Count

/-!
# Block pools

vLLM's `BlockPool`, as far as the recompute offload manager uses it: reference counts, the free
queue, and the map from hashes to the blocks cached under them. Block 0 is the null block.
-/

namespace VllmAscend.RecomputeOffload

open List Function

structure Block (H : Type) where
  refCnt : Int := 0
  blockHash : Option H := none

structure BlockPool (H : Type) where
  enableCaching : Bool
  numBlocks : Nat
  blocks : Nat → Block H
  freeQueue : List Nat
  cached : H → List Nat

namespace BlockPool

variable {H : Type} [DecidableEq H]

def new (enableCaching : Bool) (numBlocks : Nat) : BlockPool H where
  enableCaching
  numBlocks
  blocks _ := {}
  freeQueue := (range numBlocks).tail
  cached _ := []

def refCnt (p : BlockPool H) (b : Nat) : Int := (p.blocks b).refCnt

def blockHash (p : BlockPool H) (b : Nat) : Option H := (p.blocks b).blockHash

def setHash (p : BlockPool H) (b : Nat) (hash : Option H) : BlockPool H :=
  { p with blocks := update p.blocks b { p.blocks b with blockHash := hash } }

def addRef (p : BlockPool H) (n : Int) (b : Nat) : BlockPool H :=
  { p with blocks := update p.blocks b { p.blocks b with refCnt := p.refCnt b + n } }

def getOneBlock (p : BlockPool H) (h : H) : Option Nat := (p.cached h).head?

def insertCached (p : BlockPool H) (h : H) (b : Nat) : BlockPool H :=
  { p with cached := update p.cached h (p.cached h ++ [b]) }

/-- `_maybe_evict_cached_block`: a hash under which the block is not cached stays. -/
def maybeEvict (p : BlockPool H) (b : Nat) : BlockPool H :=
  match p.blockHash b with
  | none => p
  | some h =>
    if b ∈ p.cached h then
      { p with cached := update p.cached h ((p.cached h).erase b) }.setHash b none
    else p

def touchOne (p : BlockPool H) (b : Nat) : BlockPool H :=
  (if p.refCnt b = 0 ∧ b ≠ 0 then { p with freeQueue := p.freeQueue.erase b } else p).addRef 1 b

def touch (p : BlockPool H) (ids : List Nat) : BlockPool H := ids.foldl touchOne p

def dropRefs (p : BlockPool H) (ids : List Nat) : BlockPool H := ids.foldl (addRef · (-1) ·) p

/-- All counts go down before the blocks that reach zero are queued. -/
def freeBlocks (p : BlockPool H) (ids : List Nat) : BlockPool H :=
  let q := p.dropRefs ids
  { q with freeQueue := q.freeQueue ++ ids.filter fun b => q.refCnt b = 0 ∧ b ≠ 0 }

def numUsedBlocks (p : BlockPool H) : Int := p.numBlocks - p.freeQueue.length

def resetPrefixCache (p : BlockPool H) : Bool × BlockPool H :=
  if p.numUsedBlocks ≠ 1 then (false, p)
  else (true, { p with
    cached := fun _ => []
    blocks := fun b => { p.blocks b with blockHash := none } })

/-! ## Reference counts -/

variable (p : BlockPool H) (b c : Nat) (h : H)

omit [DecidableEq H] in
theorem refCnt_addRef (n : Int) : (p.addRef n b).refCnt c = p.refCnt c + if b = c then n else 0 := by
  unfold addRef refCnt
  by_cases hbc : b = c
  · subst hbc
    simp
  · simp [hbc, update_of_ne (Ne.symm hbc)]

omit [DecidableEq H] in
@[simp] theorem refCnt_setHash (hash : Option H) : (p.setHash b hash).refCnt c = p.refCnt c := by
  unfold setHash refCnt
  by_cases hbc : c = b
  · subst hbc
    simp
  · simp [update_of_ne hbc]

@[simp] theorem refCnt_maybeEvict : (p.maybeEvict b).refCnt c = p.refCnt c := by
  unfold maybeEvict
  split
  · rfl
  · split
    · rw [refCnt_setHash]
      rfl
    · rfl

section

omit [DecidableEq H]

theorem refCnt_touchOne : (p.touchOne b).refCnt c = p.refCnt c + if b = c then 1 else 0 := by
  unfold touchOne
  split <;> exact refCnt_addRef _ _ _ _

theorem refCnt_foldl {step : BlockPool H → Nat → BlockPool H} {n : Int}
    (hstep : ∀ p b c, (step p b).refCnt c = p.refCnt c + if b = c then n else 0) (ids : List Nat) :
    (ids.foldl step p).refCnt c = p.refCnt c + n * ids.count c := by
  induction ids generalizing p with
  | nil => simp
  | cons x rest ih =>
    rw [foldl_cons, ih, hstep, count_cons]
    by_cases hx : x = c
    · simp [hx, Int.mul_add]
      omega
    · simp [hx]

theorem refCnt_touch (ids : List Nat) : (p.touch ids).refCnt c = p.refCnt c + ids.count c := by
  rw [touch, refCnt_foldl _ _ refCnt_touchOne, Int.one_mul]

theorem refCnt_freeBlocks (ids : List Nat) : (p.freeBlocks ids).refCnt c = p.refCnt c - ids.count c := by
  change (p.dropRefs ids).refCnt c = _
  rw [dropRefs, refCnt_foldl _ _ (refCnt_addRef · · · (-1)), Int.neg_one_mul]
  rfl

theorem refCnt_resetPrefixCache : p.resetPrefixCache.2.refCnt c = p.refCnt c := by
  unfold resetPrefixCache
  split <;> rfl

/-! ## The hash cache -/

@[simp] theorem cached_addRef (n : Int) : (p.addRef n b).cached = p.cached := rfl

@[simp] theorem cached_setHash (hash : Option H) : (p.setHash b hash).cached = p.cached := rfl

@[simp] theorem blockHash_addRef (n : Int) : (p.addRef n b).blockHash c = p.blockHash c := by
  unfold addRef blockHash
  by_cases hbc : c = b
  · subst hbc
    simp
  · simp [update_of_ne hbc]

theorem blockHash_setHash (hash : Option H) :
    (p.setHash b hash).blockHash c = if c = b then hash else p.blockHash c := by
  unfold setHash blockHash
  by_cases hbc : c = b
  · subst hbc
    simp
  · simp [hbc]

end

theorem cached_maybeEvict :
    (p.maybeEvict b).cached h = if p.blockHash b = some h then (p.cached h).erase b else p.cached h := by
  unfold maybeEvict
  split
  · rename_i hnone
    simp [hnone]
  · rename_i g hsome
    by_cases hg : g = h
    · subst hg
      split
      · simp
      · rename_i hmem
        simp [erase_of_not_mem hmem]
    · have hne : ¬ p.blockHash b = some h := by
        rw [hsome]
        simpa using hg
      split
      · simp [update_of_ne (Ne.symm hg)]
      · rfl

theorem blockHash_maybeEvict_of_ne (hbc : c ≠ b) : (p.maybeEvict b).blockHash c = p.blockHash c := by
  unfold maybeEvict
  split
  · rfl
  · split
    · rw [blockHash_setHash, if_neg hbc]
      rfl
    · rfl

def takeNew (p : BlockPool H) (b : Nat) : BlockPool H := (if p.enableCaching then p.maybeEvict b else p).addRef 1 b

def takeAll (p : BlockPool H) (ids : List Nat) : BlockPool H := ids.foldl takeNew p

theorem refCnt_takeNew : (p.takeNew b).refCnt c = p.refCnt c + if b = c then 1 else 0 := by
  unfold takeNew
  rw [refCnt_addRef]
  split <;> simp

theorem cached_takeNew : (p.takeNew b).cached h =
    if p.enableCaching ∧ p.blockHash b = some h then (p.cached h).erase b else p.cached h := by
  unfold takeNew
  split
  · rename_i hen
    simp [cached_maybeEvict, hen]
  · rename_i hen
    simp [hen]

theorem enableCaching_takeNew : (p.takeNew b).enableCaching = p.enableCaching := by
  unfold takeNew maybeEvict
  split
  · split
    · rfl
    · split <;> rfl
  · rfl

structure CacheOk (p : BlockPool H) : Prop where
  nodup : ∀ h, (p.cached h).Nodup
  hash : ∀ h, ∀ b ∈ p.cached h, p.blockHash b = some h

variable {p b c h}

theorem mem_cached_of_takeNew (hc : c ∈ (p.takeNew b).cached h) : c ∈ p.cached h := by
  rw [cached_takeNew] at hc
  split at hc
  · exact mem_of_mem_erase hc
  · exact hc

variable {ids : List Nat}

theorem mem_cached_of_takeAll (hc : c ∈ (p.takeAll ids).cached h) : c ∈ p.cached h := by
  induction ids generalizing p with
  | nil => exact hc
  | cons x rest ih => exact mem_cached_of_takeNew (ih hc)

theorem CacheOk.not_mem_takeNew (hp : p.CacheOk) (hen : p.enableCaching = true) : b ∉ (p.takeNew b).cached h := by
  intro hb
  rw [cached_takeNew] at hb
  have hhash := hp.hash h b (by
    split at hb
    · exact mem_of_mem_erase hb
    · exact hb)
  rw [if_pos ⟨hen, hhash⟩] at hb
  exact ((hp.nodup h).mem_erase_iff.mp hb).1 rfl

theorem CacheOk.takeNew (hp : p.CacheOk) (b : Nat) : (p.takeNew b).CacheOk where
  nodup h := by
    rw [cached_takeNew]
    split
    · exact (hp.nodup h).erase b
    · exact hp.nodup h
  hash h c hc := by
    have hold := hp.hash h c (mem_cached_of_takeNew hc)
    unfold BlockPool.takeNew
    rw [blockHash_addRef]
    split
    · rename_i hen
      have hbc : c ≠ b := by
        rintro rfl
        exact hp.not_mem_takeNew hen hc
      rw [blockHash_maybeEvict_of_ne _ _ _ hbc]
      exact hold
    · exact hold

theorem CacheOk.not_mem_takeAll (hp : p.CacheOk) (hen : p.enableCaching = true)
    (hb : b ∈ ids) : b ∉ (p.takeAll ids).cached h := by
  induction ids generalizing p with
  | nil => cases hb
  | cons x rest ih =>
    rcases mem_cons.mp hb with rfl | hrest
    · exact fun hc => hp.not_mem_takeNew hen (mem_cached_of_takeAll hc)
    · exact ih (hp.takeNew x) (by rw [enableCaching_takeNew, hen]) hrest

theorem getOneBlock_takeAll (hb : p.getOneBlock h = some b) (hids : b ∉ ids) :
    (p.takeAll ids).getOneBlock h = some b := by
  induction ids generalizing p with
  | nil => exact hb
  | cons x rest ih =>
    refine ih (p := p.takeNew x) ?_ fun hm => hids (mem_cons_of_mem _ hm)
    have hx : x ≠ b := by
      rintro rfl
      exact hids (mem_cons_self ..)
    obtain ⟨tail, htail⟩ := head?_eq_some_iff.mp hb
    unfold getOneBlock
    rw [cached_takeNew, htail]
    split
    · rw [erase_cons_tail (by simpa using hx.symm)]
      rfl
    · rfl

theorem getOneBlock_takeAll_eq_none (hb : p.getOneBlock h = none) : (p.takeAll ids).getOneBlock h = none := by
  unfold getOneBlock at hb ⊢
  rw [head?_eq_none_iff] at hb ⊢
  apply eq_nil_iff_forall_not_mem.mpr
  intro c hc
  have := mem_cached_of_takeAll hc
  rw [hb] at this
  cases this

theorem refCnt_takeAll (ids : List Nat) (c : Nat) : (p.takeAll ids).refCnt c = p.refCnt c + ids.count c := by
  rw [takeAll, refCnt_foldl _ _ refCnt_takeNew, Int.one_mul]

end BlockPool

end VllmAscend.RecomputeOffload
