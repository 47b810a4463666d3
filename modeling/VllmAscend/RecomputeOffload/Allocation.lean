import VllmAscend.RecomputeOffload.Manager
import Mathlib.Data.Finset.Card

/-!
# Allocating the CPU blocks of a preempted request

`_create_preempt_state` counts the blocks it needs, takes that many from the pool, and then looks every hash up
again. `Uses` is the trace of that second pass.
-/

namespace VllmAscend.RecomputeOffload

open Exec List Function Manager BlockPool

variable {H : Type} [DecidableEq H]

/-! ## The trace of the loop -/

def Manager.touchCpu (m : Manager H) (b : Nat) : Manager H := { m with cpuBlockPool := m.cpuBlockPool.touch [b] }

def Manager.assignHash (m : Manager H) (b : Nat) (h : H) : Manager H :=
  { m with
    cpuBlockPool := m.cpuBlockPool.setHash b (some h)
    pendingHashBlocks := m.pendingHashBlocks.set h b }

def Alloc.store (a : Alloc H) (gpu b : Nat) (iter : List Nat) : Alloc H :=
  { a with
    iter, storeGpu := a.storeGpu ++ [gpu], storeCpu := a.storeCpu ++ [b], waitingForStore := true }

/-- What one entry can do: it is a null block, a hit in the cache, a hit among the blocks about to
be stored, or it takes a new block. -/
inductive UseStep (m : Manager H) (a : Alloc H) : Entry H → Nat → Manager H → Alloc H → Prop
  | null : UseStep m a .null 0 m a
  | hit {gpu h b} : m.cpuBlockPool.getOneBlock h = some b →
    UseStep m a (.hashed gpu h) b (m.touchCpu b) { a with hits := a.hits ++ [(h, b)] }
  | pending {gpu h b} : m.cpuBlockPool.getOneBlock h = none →
    m.pendingHashBlocks.get? h = some b →
    UseStep m a (.hashed gpu h) b (m.touchCpu b) { a with waitingForStore := true }
  | newHashed {gpu h b iter} : m.cpuBlockPool.getOneBlock h = none →
    m.pendingHashBlocks.get? h = none → a.iter = b :: iter →
    UseStep m a (.hashed gpu h) b (m.assignHash b h) (a.store gpu b iter)
  | new {gpu b iter} : a.iter = b :: iter →
    UseStep m a (.unhashed gpu) b m (a.store gpu b iter)

inductive Uses : Manager H → Alloc H → List (Entry H) → List Nat → Manager H → Alloc H → Prop
  | nil {m a} : Uses m a [] [] m a
  | cons {m₀ a₀ e b m₁ a₁ es bs m₂ a₂} : UseStep m₀ a₀ e b m₁ a₁ → Uses m₁ a₁ es bs m₂ a₂ →
    Uses m₀ a₀ (e :: es) (b :: bs) m₂ a₂

inductive UsesGroups : Manager H → Alloc H → List (List (Entry H)) → BlockTable → Manager H →
    Alloc H → Prop
  | nil {m a} : UsesGroups m a [] [] m a
  | cons {m₀ a₀ es bs m₁ a₁ gs table m₂ a₂} : Uses m₀ a₀ es bs m₁ a₁ →
    UsesGroups m₁ a₁ gs table m₂ a₂ → UsesGroups m₀ a₀ (es :: gs) (bs :: table) m₂ a₂

variable {m m' : Manager H} {a a' : Alloc H} {e : Entry H} {es : List (Entry H)} {b : Nat}
  {bs : List Nat} {gs : List (List (Entry H))} {table : BlockTable}

theorem Uses.append {es' : List (Entry H)} {bs' : List Nat} {m'' : Manager H} {a'' : Alloc H}
    (h : Uses m a es bs m' a') (h' : Uses m' a' es' bs' m'' a'') : Uses m a (es ++ es') (bs ++ bs') m'' a'' := by
  induction h with
  | nil => exact h'
  | cons hstep _ ih => exact .cons hstep (ih h')

/-! ## The loop follows the trace -/

theorem useNewBlock_eq (gpu : Nat) (hash : Option H) : useNewBlock a gpu hash m =
    match a.iter with
    | [] => (.error .stopIteration, m)
    | b :: iter => (.ok (b, a.store gpu b iter), hash.elim m (m.assignHash b)) := by
  simp only [useNewBlock]
  cases a.iter <;> cases hash <;> rfl

theorem useHashed_eq (gpu : Nat) (h : H) : useHashed a gpu h m =
    match m.cpuBlockPool.getOneBlock h, m.pendingHashBlocks.get? h with
    | some b, _ => (.ok (b, { a with hits := a.hits ++ [(h, b)] }), m.touchCpu b)
    | none, some b => (.ok (b, { a with waitingForStore := true }), m.touchCpu b)
    | none, none => useNewBlock a gpu (some h) m := by
  simp only [useHashed, bind, Exec.get]
  cases m.cpuBlockPool.getOneBlock h <;> cases m.pendingHashBlocks.get? h <;> rfl

theorem useEntry_ok : useEntry a e m = (.ok (b, a'), m') ↔ UseStep m a e b m' a' := by
  constructor
  · intro hrun
    cases e with
    | null =>
      cases hrun
      exact .null
    | unhashed gpu =>
      change useNewBlock a gpu none m = _ at hrun
      rw [useNewBlock_eq] at hrun
      split at hrun
      · cases hrun
      · rename_i hiter
        cases hrun
        exact .new hiter
    | hashed gpu h =>
      change useHashed a gpu h m = _ at hrun
      rw [useHashed_eq] at hrun
      split at hrun
      · rename_i hc
        cases hrun
        exact .hit hc
      · rename_i hc hp
        cases hrun
        exact .pending hc hp
      · rename_i hc hp
        rw [useNewBlock_eq] at hrun
        split at hrun
        · cases hrun
        · rename_i hiter
          cases hrun
          exact .newHashed hc hp hiter
  · rintro (_ | hc | ⟨hc, hp⟩ | ⟨hc, hp, hiter⟩ | hiter)
    · rfl
    · change useHashed a _ _ m = _
      rw [useHashed_eq, hc]
    · change useHashed a _ _ m = _
      rw [useHashed_eq, hc, hp]
    · change useHashed a _ _ m = _
      rw [useHashed_eq, hc, hp, useNewBlock_eq, hiter]
      rfl
    · change useNewBlock a _ none m = _
      rw [useNewBlock_eq, hiter]
      rfl

variable {ids : List Nat} {h : H} {n : Nat}

theorem useGroup_ok : useGroup a es m = (.ok (ids, a'), m') ↔ Uses m a es ids m' a' := by
  induction es generalizing m a ids with
  | nil =>
    constructor
    · intro hrun
      cases hrun
      exact .nil
    · rintro ⟨⟩
      rfl
  | cons e es ih =>
    constructor
    · intro hrun
      obtain ⟨⟨b, a₁⟩, m₁, he, hrest⟩ := bind_eq_ok.mp hrun
      obtain ⟨⟨bs, a₂⟩, m₂, hes, hret⟩ := bind_eq_ok.mp hrest
      cases hret
      exact .cons (useEntry_ok.mp he) (ih.mp hes)
    · rintro (_ | ⟨hstep, huses⟩)
      exact bind_eq_ok.mpr ⟨_, _, useEntry_ok.mpr hstep, bind_eq_ok.mpr ⟨_, _, ih.mpr huses, rfl⟩⟩

theorem useGroups_ok : useGroups a gs m = (.ok (table, a'), m') ↔ UsesGroups m a gs table m' a' := by
  induction gs generalizing m a table with
  | nil =>
    constructor
    · intro hrun
      cases hrun
      exact .nil
    · rintro ⟨⟩
      rfl
  | cons es gs ih =>
    constructor
    · intro hrun
      obtain ⟨⟨ids, a₁⟩, m₁, he, hrest⟩ := bind_eq_ok.mp hrun
      obtain ⟨⟨table, a₂⟩, m₂, hes, hret⟩ := bind_eq_ok.mp hrest
      cases hret
      exact .cons (useGroup_ok.mp he) (ih.mp hes)
    · rintro (_ | ⟨huses, hgroups⟩)
      exact bind_eq_ok.mpr ⟨_, _, useGroup_ok.mpr huses, bind_eq_ok.mpr ⟨_, _, ih.mpr hgroups, rfl⟩⟩

theorem UsesGroups.flatten (h : UsesGroups m a gs table m' a') : Uses m a gs.flatten table.flatten m' a' := by
  induction h with
  | nil => exact .nil
  | cons huses _ ih => exact huses.append ih

theorem exists_usesGroups (h : Uses m a gs.flatten bs m' a') : ∃ table, UsesGroups m a gs table m' a' := by
  induction gs generalizing m a bs with
  | nil =>
    cases h
    exact ⟨[], .nil⟩
  | cons es gs ih =>
    have hsplit : ∀ (es es' : List (Entry H)) {m a bs}, Uses m a (es ++ es') bs m' a' →
        ∃ bs₁ bs₂ m₁ a₁, Uses m a es bs₁ m₁ a₁ ∧ Uses m₁ a₁ es' bs₂ m' a' := by
      intro es es'
      induction es with
      | nil => exact fun h => ⟨[], _, _, _, .nil, h⟩
      | cons e es ih =>
        rintro m a bs (_ | ⟨hstep, huses⟩)
        obtain ⟨bs₁, bs₂, m₁, a₁, h₁, h₂⟩ := ih huses
        exact ⟨_, bs₂, m₁, a₁, .cons hstep h₁, h₂⟩
    obtain ⟨bs₁, bs₂, m₁, a₁, h₁, h₂⟩ := hsplit es gs.flatten h
    obtain ⟨table, hgroups⟩ := ih h₂
    exact ⟨bs₁ :: table, .cons h₁ hgroups⟩

/-! ## What the loop uses up -/

omit [DecidableEq H] in
theorem getOneBlock_touch (p : BlockPool H) (b : Nat) (h : H) : (p.touch [b]).getOneBlock h = p.getOneBlock h := by
  simp only [touch, foldl_cons, foldl_nil, touchOne]
  split <;> rfl

theorem UseStep.getOneBlock (h : UseStep m a e b m' a') (h' : H) :
    m'.cpuBlockPool.getOneBlock h' = m.cpuBlockPool.getOneBlock h' := by
  cases h with
  | null | new | newHashed => rfl
  | hit | pending => exact getOneBlock_touch _ _ _

theorem Manager.isMissing_assignHash (h h' : H) :
    (m.assignHash b h).isMissing h' = (m.isMissing h' && decide (h' ≠ h)) := by
  unfold isMissing assignHash
  rw [Dict.get?_set]
  by_cases hh : h = h'
  · simp [hh]
  · simp [hh, Ne.symm hh]
    rfl

theorem Manager.numNeeded_congr (hcache : ∀ h, m'.cpuBlockPool.getOneBlock h = m.cpuBlockPool.getOneBlock h)
    (hpending : m'.pendingHashBlocks = m.pendingHashBlocks) : m'.numNeeded es = m.numNeeded es := by
  have : m'.isMissing = m.isMissing := by
    funext h
    simp only [isMissing, hcache, hpending]
  simp only [numNeeded, missingHashes, this]

theorem length_dedup_cons_filter (h : H) (l : List H) :
    (h :: l).dedup.length = (l.filter fun x => x ≠ h).dedup.length + 1 := by
  rw [← card_toFinset, ← card_toFinset, toFinset_filter]
  have : (l.toFinset.filter fun x => decide (x ≠ h) = true) = l.toFinset.erase h := by
    ext x
    simp [and_comm]
  rw [this, ← Finset.card_insert_of_notMem (Finset.notMem_erase h l.toFinset)]
  congr 1
  ext x
  simp
  tauto

/-! ### The number of blocks needed, entry by entry -/

section Entries

omit [DecidableEq H]

@[simp] theorem blockHash_null : (Entry.null : Entry H).blockHash = none := rfl
variable (gpu : Nat)

@[simp] theorem blockHash_unhashed : (Entry.unhashed gpu : Entry H).blockHash = none := rfl
@[simp] theorem blockHash_hashed (h : H) : (Entry.hashed gpu h).blockHash = some h := rfl
@[simp] theorem isUnhashed_null : (Entry.null : Entry H).isUnhashed = false := rfl
@[simp] theorem isUnhashed_unhashed : (Entry.unhashed gpu : Entry H).isUnhashed = true := rfl
@[simp] theorem isUnhashed_hashed (h : H) : (Entry.hashed gpu h).isUnhashed = false := rfl

end Entries

variable (m)

theorem Manager.numNeeded_null : m.numNeeded (.null :: es) = m.numNeeded es := by
  simp [numNeeded, numUnhashed, missingHashes, filterMap_cons]

theorem Manager.numNeeded_unhashed (gpu : Nat) : m.numNeeded (.unhashed gpu :: es) = m.numNeeded es + 1 := by
  simp [numNeeded, numUnhashed, missingHashes, filterMap_cons, countP_cons]
  omega

theorem Manager.numNeeded_found (gpu : Nat) (hfound : m.isMissing h = false)
    (es : List (Entry H)) : m.numNeeded (.hashed gpu h :: es) = m.numNeeded es := by
  simp [numNeeded, numUnhashed, missingHashes, hfound]

theorem Manager.numNeeded_missing (gpu b : Nat) (hmissing : m.isMissing h = true) (es : List (Entry H)) :
    m.numNeeded (.hashed gpu h :: es) = (m.assignHash b h).numNeeded es + 1 := by
  have hfilter : (es.filterMap (·.blockHash)).filter (m.assignHash b h).isMissing =
      ((es.filterMap (·.blockHash)).filter m.isMissing).filter fun x => x ≠ h := by
    rw [filter_filter]
    apply filter_congr
    intro x _
    rw [isMissing_assignHash, Bool.and_comm]
  have hlen := length_dedup_cons_filter h ((es.filterMap (·.blockHash)).filter m.isMissing)
  unfold numNeeded missingHashes numUnhashed
  rw [hfilter, filterMap_cons_some (blockHash_hashed gpu h), filter_cons_of_pos hmissing,
    hlen, countP_cons_of_neg (by simp)]
  omega

theorem Manager.numNeeded_touchCpu : (m.touchCpu b).numNeeded es = m.numNeeded es := by
  apply numNeeded_congr
  · exact getOneBlock_touch m.cpuBlockPool b
  · rfl

variable {m}

theorem UseStep.numNeeded (h : UseStep m a e b m' a') (es : List (Entry H)) :
    a.iter.length + m'.numNeeded es = a'.iter.length + m.numNeeded (e :: es) := by
  cases h with
  | null => rw [numNeeded_null]
  | @hit gpu h b hc =>
    have hfound : m.isMissing h = false := by simp [isMissing, hc]
    rw [m.numNeeded_found gpu hfound, numNeeded_touchCpu]
  | @pending gpu h b hc hp =>
    have hfound : m.isMissing h = false := by simp [isMissing, hp]
    rw [m.numNeeded_found gpu hfound, numNeeded_touchCpu]
  | @newHashed gpu h b iter hc hp hiter =>
    have hmissing : m.isMissing h = true := by simp [isMissing, hc, hp]
    rw [m.numNeeded_missing gpu b hmissing, hiter]
    simp only [Alloc.store, length_cons]
    omega
  | new hiter =>
    rw [numNeeded_unhashed, hiter]
    simp only [Alloc.store, length_cons]
    omega

theorem Uses.numNeeded (h : Uses m a es bs m' a') : a.iter.length = a'.iter.length + m.numNeeded es := by
  induction h with
  | nil => rfl
  | @cons _ _ _ _ _ _ es _ _ _ hstep _ ih =>
    have := hstep.numNeeded es
    omega

theorem exists_useStep (e : Entry H) (es : List (Entry H))
    (henough : m.numNeeded (e :: es) ≤ a.iter.length) : ∃ b m' a', UseStep m a e b m' a' := by
  cases e with
  | null => exact ⟨_, _, _, .null⟩
  | unhashed gpu =>
    rw [numNeeded_unhashed] at henough
    obtain ⟨b, iter, hiter⟩ := exists_cons_of_length_pos (by omega : 0 < a.iter.length)
    exact ⟨_, _, _, .new hiter⟩
  | hashed gpu h =>
    cases hc : m.cpuBlockPool.getOneBlock h with
    | some b => exact ⟨_, _, _, .hit hc⟩
    | none =>
      cases hp : m.pendingHashBlocks.get? h with
      | some b => exact ⟨_, _, _, .pending hc hp⟩
      | none =>
        rw [m.numNeeded_missing gpu 0 (by simp [isMissing, hc, hp])] at henough
        obtain ⟨b, iter, hiter⟩ := exists_cons_of_length_pos (by omega : 0 < a.iter.length)
        exact ⟨_, _, _, .newHashed hc hp hiter⟩

theorem exists_uses (es : List (Entry H)) (henough : m.numNeeded es ≤ a.iter.length) :
    ∃ bs m' a', Uses m a es bs m' a' := by
  induction es generalizing m a with
  | nil => exact ⟨_, _, _, .nil⟩
  | cons e es ih =>
    obtain ⟨b, m₁, a₁, hstep⟩ := exists_useStep e es henough
    have := hstep.numNeeded es
    obtain ⟨bs, m₂, a₂, huses⟩ := ih (m := m₁) (a := a₁) (by omega)
    exact ⟨_, _, _, .cons hstep huses⟩

theorem UseStep.hits (h : UseStep m a e b m' a') : a'.hits = a.hits ++ (m.cacheHit e).toList := by
  cases h with
  | null | new => simp [cacheHit, Alloc.store]
  | hit hc => simp [cacheHit, hc]
  | pending hc | newHashed hc => simp [cacheHit, hc, Alloc.store]

theorem Uses.hits (h : Uses m a es bs m' a') : a'.hits = a.hits ++ es.filterMap m.cacheHit := by
  induction h with
  | nil => simp
  | @cons m₀ _ e _ m₁ _ es _ _ _ hstep _ ih =>
    have hsame : m₁.cacheHit = m₀.cacheHit := by
      funext e
      simp only [cacheHit, hstep.getOneBlock]
    rw [ih, hstep.hits, hsame, filterMap_cons, append_assoc]
    cases m₀.cacheHit e <;> rfl

/-! ## Taking new blocks -/

def Manager.takeAll (m : Manager H) (ids : List Nat) : Manager H :=
  { m with cpuBlockPool := m.cpuBlockPool.takeAll ids }

theorem takeNewBlock_ok : takeNewBlock b m = (.ok (), m') ↔
    m.cpuBlockPool.refCnt b = 0 ∧ m' = { m with cpuBlockPool := m.cpuBlockPool.takeNew b } := by
  have heq : takeNewBlock b m = if m.cpuBlockPool.refCnt b = 0 then
      (.ok (), { m with cpuBlockPool := m.cpuBlockPool.takeNew b })
      else (.error .refCntAssertion,
        if m.cpuBlockPool.enableCaching then
          { m with cpuBlockPool := m.cpuBlockPool.maybeEvict b } else m) := by
    by_cases hen : m.cpuBlockPool.enableCaching = true <;>
      by_cases href : m.cpuBlockPool.refCnt b = 0 <;>
      simp [takeNewBlock, bind, Exec.get, Exec.when, Exec.require, Exec.modify, Exec.raise, pure,
        hen, href, takeNew]
  rw [heq]
  split
  · rename_i href
    simp [href, eq_comm]
  · rename_i href
    simp [href]

theorem takeNewBlocks_ok : forEach ids takeNewBlock m = (.ok (), m') ↔
    (ids.Nodup ∧ ∀ b ∈ ids, m.cpuBlockPool.refCnt b = 0) ∧ m' = m.takeAll ids := by
  induction ids generalizing m with
  | nil =>
    constructor
    · intro hrun
      cases hrun
      exact ⟨⟨nodup_nil, forall_mem_nil _⟩, rfl⟩
    · rintro ⟨-, rfl⟩
      rfl
  | cons x rest ih =>
    -- A second occurrence of `x` would meet the reference that the first one added.
    have href : ∀ b, (m.cpuBlockPool.takeNew x).refCnt b = 0 ↔
        m.cpuBlockPool.refCnt b + (if x = b then 1 else 0) = 0 := fun b => by
      rw [refCnt_takeNew]
    unfold forEach
    rw [bind_eq_ok]
    constructor
    · rintro ⟨_, m₁, hfirst, hrest⟩
      obtain ⟨hx, rfl⟩ := takeNewBlock_ok.mp hfirst
      obtain ⟨⟨hnodup, hrefs⟩, rfl⟩ := ih.mp hrest
      have hnot : x ∉ rest := fun hm => by
        have := (href x).mp (hrefs x hm)
        simp [hx] at this
      refine ⟨⟨nodup_cons.mpr ⟨hnot, hnodup⟩, ?_⟩, rfl⟩
      intro b hb
      rcases mem_cons.mp hb with rfl | hb
      · exact hx
      · have hne : x ≠ b := fun he => hnot (he ▸ hb)
        simpa [hne] using (href b).mp (hrefs b hb)
    · rintro ⟨⟨hnodup, hrefs⟩, rfl⟩
      obtain ⟨hnot, hnodup⟩ := nodup_cons.mp hnodup
      refine ⟨(), _, takeNewBlock_ok.mpr ⟨hrefs x (by simp), rfl⟩, ih.mpr ⟨⟨hnodup, ?_⟩, rfl⟩⟩
      intro b hb
      have hne : x ≠ b := fun he => hnot (he ▸ hb)
      exact (href b).mpr (by simpa [hne] using hrefs b (mem_cons_of_mem _ hb))

/-- The manager after it has taken the first `n` blocks of the free queue. -/
def Manager.afterTake (m : Manager H) (n : Nat) : Manager H :=
  Manager.takeAll { m with
    cpuBlockPool := { m.cpuBlockPool with freeQueue := m.cpuBlockPool.freeQueue.drop n } }
    (m.cpuBlockPool.freeQueue.take n)

theorem getNewBlocks_ok : getNewBlocks n m = (.ok ids, m') ↔
    n ≤ m.cpuBlockPool.freeQueue.length ∧ ids = m.cpuBlockPool.freeQueue.take n ∧
      (ids.Nodup ∧ ∀ b ∈ ids, m.cpuBlockPool.refCnt b = 0) ∧ m' = m.afterTake n := by
  by_cases hn : n ≤ m.cpuBlockPool.freeQueue.length
  · have hrun : getNewBlocks n m = (do
        forEach (m.cpuBlockPool.freeQueue.take n) takeNewBlock
        return m.cpuBlockPool.freeQueue.take n : ManagerM H (List Nat)) { m with
          cpuBlockPool := { m.cpuBlockPool with freeQueue := m.cpuBlockPool.freeQueue.drop n } } := by
      simp [getNewBlocks, bind, Exec.get, Exec.require, Exec.modify, pure, hn]
    rw [hrun, bind_eq_ok]
    constructor
    · rintro ⟨_, m₁, htake, hret⟩
      cases hret
      obtain ⟨hok, rfl⟩ := takeNewBlocks_ok.mp htake
      exact ⟨hn, rfl, hok, rfl⟩
    · rintro ⟨_, rfl, hok, rfl⟩
      exact ⟨(), _, takeNewBlocks_ok.mpr ⟨hok, rfl⟩, rfl⟩
  · have hrun : getNewBlocks n m = (.error .notEnoughFreeBlocks, m) := by
      simp [getNewBlocks, bind, Exec.get, Exec.require, Exec.raise, hn]
    rw [hrun]
    simp [hn]

theorem allocate_ok : allocate n gs m = (.ok (table, a), m') ↔ n ≤ m.cpuBlockPool.freeQueue.length ∧
      ((m.cpuBlockPool.freeQueue.take n).Nodup ∧ ∀ b ∈ m.cpuBlockPool.freeQueue.take n, m.cpuBlockPool.refCnt b = 0) ∧
      UsesGroups (m.afterTake n) { iter := m.cpuBlockPool.freeQueue.take n } gs table m' a := by
  unfold allocate
  rw [bind_eq_ok]
  constructor
  · rintro ⟨ids, m₁, hnew, huse⟩
    obtain ⟨hn, rfl, hok, rfl⟩ := getNewBlocks_ok.mp hnew
    exact ⟨hn, hok, useGroups_ok.mp huse⟩
  · rintro ⟨hn, hok, huses⟩
    exact ⟨_, _, getNewBlocks_ok.mpr ⟨hn, rfl, hok, rfl⟩, useGroups_ok.mpr huses⟩

/-! ## Capacity -/

theorem numNeeded_le_afterTake (m : Manager H) (n : Nat) (es : List (Entry H)) :
    m.numNeeded es ≤ (m.afterTake n).numNeeded es := by
  apply Nat.add_le_add_left
  unfold missingHashes
  rw [← card_toFinset, ← card_toFinset]
  apply Finset.card_le_card
  intro h hh
  simp only [mem_toFinset, mem_filter] at hh ⊢
  refine ⟨hh.1, ?_⟩
  have hmiss := hh.2
  simp only [isMissing, Bool.and_eq_true, Option.isNone_iff_eq_none] at hmiss ⊢
  exact ⟨getOneBlock_takeAll_eq_none hmiss.1, hmiss.2⟩

theorem allocate_iter (hrun : allocate (m.numNeeded gs.flatten) gs m = (.ok (table, a), m')) : a.iter = [] := by
  obtain ⟨hn, -, huses⟩ := allocate_ok.mp hrun
  have hused := huses.flatten.numNeeded
  have hle := numNeeded_le_afterTake m (m.numNeeded gs.flatten) gs.flatten
  rw [length_take] at hused
  exact eq_nil_of_length_eq_zero (by omega)

omit [DecidableEq H] in
theorem entry_blockHash {prefixCaching : Bool} {B c blockIdx : Nat} {gpu : BlockPool H}
    (he : (entry prefixCaching B n gpu c blockIdx).blockHash = some h) : prefixCaching = true := by
  unfold entry at he
  split at he
  · cases he
  · split at he
    · rename_i hc
      simp only [Bool.and_eq_true] at hc
      exact hc.2
    · cases he

theorem evictUncomputed_refCnt (B n : Nat) (ids : List Nat) (gpu : BlockPool H) (b : Nat) :
    (evictUncomputed B n ids gpu).refCnt b = gpu.refCnt b := by
  unfold evictUncomputed
  generalize ids.zipIdx = l
  induction l generalizing gpu with
  | nil => rfl
  | cons p l ih =>
    rw [foldl_cons, ih]
    dsimp only
    split
    · rfl
    · exact refCnt_maybeEvict _ _ _

theorem countGroups_ok {gpu : BlockPool H} {groups : List GroupSpec}
    {blockIds : BlockTable} (hrun : countGroups gpu n groups blockIds m = (.ok gs, m')) :
    (∃ gpu', m' = { m with gpuBlockPool := gpu' } ∧ (m.gpuBlockPool = some gpu →
      ∃ pool, gpu' = some pool ∧ ∀ b, pool.refCnt b = gpu.refCnt b)) ∧
      ∀ e ∈ gs.flatten, ∀ h, e.blockHash = some h → m.enableOffloadPrefixCaching = true := by
  induction blockIds generalizing groups gpu m gs with
  | nil =>
    have hnil : countGroups gpu n groups [] m = (.ok [], m) := by cases groups <;> rfl
    rw [hnil] at hrun
    cases hrun
    exact ⟨⟨_, rfl, fun hgpu => ⟨gpu, hgpu, fun _ => rfl⟩⟩, nofun⟩
  | cons ids table ih =>
    cases groups with
    | nil => cases hrun
    | cons group groups =>
      obtain ⟨_, _, hget, hafter⟩ := bind_eq_ok.mp hrun
      cases hget
      obtain ⟨_, _, hmodify, hafter⟩ := bind_eq_ok.mp hafter
      cases hmodify
      obtain ⟨rest, m₁, hrest, hret⟩ := bind_eq_ok.mp hafter
      cases hret
      obtain ⟨⟨_, rfl, hpool⟩, hrestHash⟩ := ih hrest
      obtain ⟨pool, rfl, hrefs⟩ := hpool rfl
      refine ⟨⟨_, rfl, fun _ => ⟨pool, rfl, fun b => ?_⟩⟩, ?_⟩
      · exact (hrefs b).trans (evictUncomputed_refCnt _ _ _ _ b)
      intro e he h hh
      rw [flatten_cons, mem_append] at he
      rcases he with he | he
      · simp only [mem_map] at he
        obtain ⟨_, _, rfl⟩ := he
        exact entry_blockHash hh
      · exact hrestHash e he h hh

theorem updateStateBeforePreempt_ok {r : ReqId} {ids : BlockTable}
    {created : Bool} (hrun : updateStateBeforePreempt r ids n m = (.ok created, m')) :
    m' = m ∨ ∃ gpu gs m₁, m.gpuBlockPool = some gpu ∧ m.preemptedReqStates.get? r = none ∧
      countGroups gpu n m.groups ids m = (.ok gs, m₁) ∧
      (m' = m₁ ∨ ∃ table a m₂, allocate (m₁.numNeeded gs.flatten) gs m₁ = (.ok (table, a), m₂) ∧
        m' = (addState r n table a m₂).2) := by
  obtain ⟨_, _, hget, hrun⟩ := bind_eq_ok.mp hrun
  cases hget
  split at hrun
  · cases hrun
    exact .inl rfl
  · rename_i hnew
    obtain ⟨_, _, hget, hrun⟩ := bind_eq_ok.mp hrun
    cases hget
    cases hgpu : m.gpuBlockPool with
    | none =>
      simp only [hgpu] at hrun
      cases hrun
      exact .inl rfl
    | some gpu =>
      simp only [hgpu] at hrun
      split at hrun
      · cases hrun
        exact .inl rfl
      · obtain ⟨gs, m₁, hcount, hrun⟩ := bind_eq_ok.mp hrun
        refine .inr ⟨gpu, gs, m₁, rfl, by simpa using hnew, hcount, ?_⟩
        obtain ⟨_, _, hget, hrun⟩ := bind_eq_ok.mp hrun
        cases hget
        split at hrun
        · cases hrun
          exact .inl rfl
        · split at hrun
          · cases hrun
            exact .inl rfl
          · obtain ⟨⟨table, a⟩, m₂, halloc, hrun⟩ := bind_eq_ok.mp hrun
            cases hrun
            exact .inr ⟨table, a, m₂, halloc, rfl⟩

structure BlockPool.Assumed (p : BlockPool H) : Prop where
  free_nodup : p.freeQueue.Nodup
  free_unused : ∀ b ∈ p.freeQueue, p.refCnt b = 0
  cache : p.CacheOk

/-- The loop does not run out of blocks, uses all it has taken, and finds in the cache just what
was found there in the counting. -/
def AllocationSound (m : Manager H) (gs : List (List (Entry H))) : Prop :=
  ∃ table a m', allocate (m.numNeeded gs.flatten) gs m = (.ok (table, a), m') ∧ a.iter = [] ∧
    a.hits = gs.flatten.filterMap m.cacheHit

/-- The pool does not hand out, and so evict, a block that was counted as a hit. -/
def HitsNotTaken (m : Manager H) (gs : List (List (Entry H))) : Prop :=
  ∀ hit ∈ gs.flatten.filterMap m.cacheHit, hit.2 ∉ m.cpuBlockPool.freeQueue.take (m.numNeeded gs.flatten)

theorem HitsNotTaken.getOneBlock (hn : HitsNotTaken m gs) (he : e ∈ gs.flatten)
    (hh : e.blockHash = some h) : (m.afterTake (m.numNeeded gs.flatten)).cpuBlockPool.getOneBlock h =
      m.cpuBlockPool.getOneBlock h := by
  cases hc : m.cpuBlockPool.getOneBlock h with
  | none => exact getOneBlock_takeAll_eq_none hc
  | some b =>
    have hhit : (h, b) ∈ gs.flatten.filterMap m.cacheHit :=
      mem_filterMap.mpr ⟨e, he, by simp [cacheHit, hh, hc]⟩
    exact getOneBlock_takeAll hc (hn _ hhit)

theorem allocationSound_of_hitsNotTaken (hpool : m.cpuBlockPool.Assumed)
    (hcheck : m.numNeeded gs.flatten ≤ m.cpuBlockPool.freeQueue.length) (hn : HitsNotTaken m gs) :
    AllocationSound m gs := by
  set n := m.numNeeded gs.flatten with hndef
  have hmissing : (m.afterTake n).missingHashes gs.flatten = m.missingHashes gs.flatten := by
    unfold missingHashes
    congr 1
    apply filter_congr
    intro h hh
    obtain ⟨e, he, hh⟩ := mem_filterMap.mp hh
    unfold isMissing
    rw [hn.getOneBlock he hh]
    rfl
  have hhits : gs.flatten.filterMap (m.afterTake n).cacheHit = gs.flatten.filterMap m.cacheHit := by
    apply filterMap_congr
    intro e he
    unfold cacheHit
    cases hh : e.blockHash with
    | none => rfl
    | some h =>
      simp only [Option.bind_some]
      rw [hn.getOneBlock he hh]
  have henough : (m.afterTake n).numNeeded gs.flatten ≤
      ({ iter := m.cpuBlockPool.freeQueue.take n } : Alloc H).iter.length := by
    rw [length_take, min_eq_left hcheck]
    unfold numNeeded
    rw [hmissing]
    exact hndef.ge
  obtain ⟨bs, m', a, huses⟩ := exists_uses gs.flatten henough
  obtain ⟨table, hgroups⟩ := exists_usesGroups huses
  have hrun : allocate n gs m = (.ok (table, a), m') := by
    refine allocate_ok.mpr ⟨hcheck, ⟨?_, ?_⟩, hgroups⟩
    · exact hpool.free_nodup.sublist (take_sublist _ _)
    · exact fun b hb => hpool.free_unused b (mem_of_mem_take hb)
  refine ⟨table, a, m', hrun, allocate_iter hrun, ?_⟩
  rw [huses.hits, hhits]
  rfl

theorem hitsNotTaken_of_allocationSound (hpool : m.cpuBlockPool.Assumed)
    (hcaching : ∀ e ∈ gs.flatten, ∀ h, e.blockHash = some h → m.cpuBlockPool.enableCaching = true)
    (hsound : AllocationSound m gs) : HitsNotTaken m gs := by
  rintro ⟨h, b⟩ hhit hb
  obtain ⟨table, a, m', hrun, -, hhits⟩ := hsound
  obtain ⟨-, -, huses⟩ := allocate_ok.mp hrun
  -- The loop found the block in the cache too, but the pool had evicted it.
  have hfound : (h, b) ∈ a.hits := hhits ▸ hhit
  rw [huses.flatten.hits] at hfound
  obtain ⟨e, he, hcache⟩ := mem_filterMap.mp hfound
  obtain ⟨h', hh', hone⟩ := Option.bind_eq_some_iff.mp hcache
  obtain ⟨b', hb', heq⟩ := Option.map_eq_some_iff.mp hone
  cases heq
  have hok : BlockPool.CacheOk { m.cpuBlockPool with
      freeQueue := m.cpuBlockPool.freeQueue.drop (m.numNeeded gs.flatten) } :=
    ⟨hpool.cache.nodup, hpool.cache.hash⟩
  exact hok.not_mem_takeAll (hcaching e he h hh') hb (mem_of_mem_head? hb')

theorem preempt_allocation_sound_iff {m₀ : Manager H} {gpu : BlockPool H} {numComputedTokens : Nat}
    {blockIds : BlockTable} (hpool : m₀.cpuBlockPool.Assumed)
    (hcaching : m₀.cpuBlockPool.enableCaching = m₀.enableOffloadPrefixCaching)
    (hcount : countGroups gpu numComputedTokens m₀.groups blockIds m₀ = (.ok gs, m))
    (hcheck : m.numNeeded gs.flatten ≤ m.cpuBlockPool.freeQueue.length) :
    AllocationSound m gs ↔ HitsNotTaken m gs := by
  obtain ⟨⟨gpu', rfl, -⟩, hhash⟩ := countGroups_ok hcount
  refine ⟨hitsNotTaken_of_allocationSound hpool ?_, allocationSound_of_hitsNotTaken hpool hcheck⟩
  intro e he h hh
  exact hcaching.trans (hhash e he h hh)

/-! ### A nearly full pool -/

def samplePool (freeQueue : List Nat) : BlockPool Nat where
  enableCaching := true
  numBlocks := 3
  blocks := update (fun _ => {}) 1 { blockHash := some 7 }
  freeQueue
  cached h := if h = 7 then [1] else []

def sampleGpuPool : BlockPool Nat where
  enableCaching := true
  numBlocks := 10
  blocks := update (update (fun _ => {}) 5 { blockHash := some 7 }) 6
    { blockHash := some 8 }
  freeQueue := []
  cached _ := []

def sampleManager (freeQueue : List Nat) : Manager Nat where
  groups := [⟨1, false⟩]
  enableOffloadPrefixCaching := true
  expectedWorkerCount := 1
  cpuBlockPool := samplePool freeQueue
  gpuBlockPool := some sampleGpuPool

def sampleEntries : List (List (Entry Nat)) := [[.hashed 5 7, .hashed 6 8]]

theorem samplePool_assumed {freeQueue : List Nat} (hfree : freeQueue.Nodup) : (samplePool freeQueue).Assumed := by
  refine ⟨hfree, fun b _ => ?_, ⟨fun h => ?_, fun h b hb => ?_⟩⟩
  · by_cases hb : b = 1
    · subst hb
      rfl
    · simp [samplePool, refCnt, update_of_ne hb]
  · by_cases hh : h = 7 <;> simp [samplePool, hh]
  · by_cases hh : h = 7
    · subst hh
      cases mem_singleton.mp hb
      rfl
    · simp [samplePool, hh] at hb

theorem preempt_allocation_sound_iff_sample : AllocationSound (sampleManager [2, 1]) sampleEntries := by
  have hcount : countGroups sampleGpuPool 2 (sampleManager [2, 1]).groups [[5, 6]]
      (sampleManager [2, 1]) = (.ok sampleEntries, sampleManager [2, 1]) := rfl
  refine (preempt_allocation_sound_iff (samplePool_assumed (by decide)) rfl hcount (by decide)).mpr ?_
  unfold HitsNotTaken
  decide

/-- One block is needed and two are free. The block taken is the cached one, so hash 7 needs a
block as well, and hash 8 finds none left. -/
theorem preempt_allocation_exhausted : (samplePool [1, 2]).Assumed ∧
      (sampleManager [1, 2]).numNeeded sampleEntries.flatten = 1 ∧
      (updateStateBeforePreempt 0 [[5, 6]] 2 (sampleManager [1, 2])).1 = .error .stopIteration ∧
      ¬ AllocationSound (sampleManager [1, 2]) sampleEntries := by
  refine ⟨samplePool_assumed (by decide), by decide, rfl, ?_⟩
  rintro ⟨table, a, m', hrun, -⟩
  cases hrun

end VllmAscend.RecomputeOffload
