import VllmAscend.Lib.Dict

/-!
# The task cache

`KVManager` of `simllm/kv_manager.py`: tasks in the order of their last use, and an index from LSH hashes to task ids.
-/

namespace VllmAscend.SimLlm

open List Dict Function

structure CachedTask (T : Type*) where
  taskId : String
  lshHash : Int
  topK : T
  topV : T
  lastAccessTime : Nat

abbrev Buckets := Dict Int (List String)

def Buckets.removeFromBucket (buckets : Buckets) (lshHash : Int) (taskId : String) : Buckets :=
  match buckets.get? lshHash with
  | none => buckets
  | some bucket =>
    if bucket.erase taskId = [] then buckets.erase lshHash else buckets.set lshHash (bucket.erase taskId)

/-- The list `uses` is not in the source: the ids that were stored or looked up, the last one first. -/
structure KVManager (T : Type*) where
  maxCacheSize : Nat
  cache : Dict String (CachedTask T) := ∅
  buckets : Buckets := ∅
  uses : List String := []

namespace KVManager

variable {T : Type*} (m : KVManager T)

/-- `self._cache[task_id] = task`, moved to the end. -/
def touch (taskId : String) (task : CachedTask T) : KVManager T :=
  { m with cache := (m.cache.erase taskId).set taskId task, uses := taskId :: m.uses }

def evictLru : KVManager T :=
  match m.cache.entries with
  | [] => m
  | (taskId, task) :: _ =>
    { m with cache := m.cache.erase taskId, buckets := m.buckets.removeFromBucket task.lshHash taskId }

/-- `store` up to its eviction. -/
def insert (task : CachedTask T) : KVManager T :=
  let buckets := match m.cache.get? task.taskId with
    | some old => m.buckets.removeFromBucket old.lshHash task.taskId
    | none => m.buckets
  { m.touch task.taskId task with
    buckets := buckets.set task.lshHash (buckets.getD task.lshHash [] ++ [task.taskId]) }

def store (task : CachedTask T) : KVManager T :=
  if m.maxCacheSize < (m.insert task).cache.keys.length then (m.insert task).evictLru else m.insert task

/-- A round of `lookup_by_hash`, and what `get_kv` does before it returns. -/
def access (now : Nat) (taskId : String) : KVManager T × Option (CachedTask T) :=
  match m.cache.get? taskId with
  | none => (m, none)
  | some task => (m.touch taskId { task with lastAccessTime := now }, some { task with lastAccessTime := now })

def lookupByHash (lshHash : Int) (now : Nat) : KVManager T × List (CachedTask T) :=
  (m.buckets.getD lshHash []).foldl (fun p taskId =>
    ((p.1.access now taskId).1, p.2 ++ (p.1.access now taskId).2.toList)) (m, [])

def getKv (taskId : String) (now : Nat) : KVManager T × Option (T × T) :=
  ((m.access now taskId).1, (m.access now taskId).2.map fun task => (task.topK, task.topV))

inductive Call (T : Type*)
  | store (task : CachedTask T)
  | lookupByHash (lshHash : Int) (now : Nat)
  | getKv (taskId : String) (now : Nat)
  | evictLru
  | clear

def call : Call T → KVManager T
  | .store task => m.store task
  | .lookupByHash lshHash now => (m.lookupByHash lshHash now).1
  | .getKv taskId now => (m.getKv taskId now).1
  | .evictLru => m.evictLru
  | .clear => { m with cache := ∅, buckets := ∅ }

def hashOf (taskId : String) : Option Int := (m.cache.get? taskId).map (·.lshHash)

end KVManager

/-! ## The index -/

/-- Each id with a hash is once in the bucket of its hash and in no other, and no bucket is empty. -/
def Buckets.Indexes (buckets : Buckets) (f : String → Option Int) : Prop :=
  ∀ h, buckets.get? h ≠ some [] ∧ (buckets.getD h []).Nodup ∧ ∀ id, id ∈ buckets.getD h [] ↔ f id = some h

namespace Buckets.Indexes

variable {buckets buckets' : Buckets} {f : String → Option Int} {id : String} {h : Int} {x : Option Int}

theorem update (hb : buckets.Indexes f) (h : Int) {ids : List String} (hnodup : ids.Nodup)
    (hids : ∀ id', id' ∈ ids ↔ update f id x id' = some h) (hx : ∀ h' ≠ h, f id = some h' ↔ x = some h')
    (hget : ∀ h', buckets'.get? h' = if h = h' then if ids = [] then none else some ids else buckets.get? h') :
    buckets'.Indexes (Function.update f id x) := by
  intro h'
  rw [Dict.getD, hget]
  by_cases heq : h = h'
  · subst heq
    cases ids <;> simp_all
  · obtain ⟨hne, hnodup', hids'⟩ := hb h'
    rw [if_neg heq]
    refine ⟨hne, hnodup', fun id' => (hids' id').trans ?_⟩
    have := hx h' (Ne.symm heq)
    rw [update_apply]
    split <;> simp_all

theorem remove (hb : buckets.Indexes f) (hid : f id = some h) :
    (buckets.removeFromBucket h id).Indexes (Function.update f id none) := by
  obtain ⟨-, hnodup, hids⟩ := hb h
  cases hget : buckets.get? h with
  | none =>
    simp [Dict.getD, hget] at hids
    exact absurd hid (hids id)
  | some ids =>
    simp only [Dict.getD, hget, Option.getD_some] at hnodup hids
    refine hb.update h (hnodup.erase id) (fun id' => ?_) (fun h' hne => by simp [hid, Ne.symm hne]) fun h' => ?_
    · rw [hnodup.mem_erase_iff, hids, update_apply]
      split <;> simp_all
    · rw [removeFromBucket, hget]
      dsimp only
      split <;> simp_all [get?_erase, get?_set]

theorem add (hb : buckets.Indexes f) (hid : f id = none) (h : Int) :
    Buckets.Indexes (buckets.set h (buckets.getD h [] ++ [id])) (Function.update f id (some h)) := by
  obtain ⟨-, hnodup, hids⟩ := hb h
  have hnew : id ∉ buckets.getD h [] := by simp [hids, hid]
  refine hb.update h (hnodup.append (nodup_singleton id) (disjoint_singleton.mpr hnew)) (fun id' => ?_)
    (fun h' hne => by simp [hid, Ne.symm hne]) fun h' => by simpa using get?_set ..
  rw [mem_append, hids, update_apply, mem_singleton]
  split <;> simp_all

end Buckets.Indexes

/-! ## The calls -/

namespace KVManager

variable {T : Type*} {m : KVManager T} {n k : Nat} {id : String} {task : CachedTask T}

structure Inv (n k : Nat) (m : KVManager T) : Prop where
  capacity : m.maxCacheSize = n
  size : m.cache.keys.length ≤ k
  index : m.buckets.Indexes m.hashOf
  recent : m.cache.keys.Pairwise fun id id' => m.uses.idxOf id' < m.uses.idxOf id

/-- The tasks that stay were used after the one that goes. -/
def EvictsLeastRecent (m : KVManager T) : Prop :=
  ∀ id rest, m.cache.keys = id :: rest →
    m.evictLru.cache.keys = rest ∧ ∀ id' ∈ rest, m.uses.idxOf id' < m.uses.idxOf id

theorem keys_touch : (m.touch id task).cache.keys = m.cache.keys.erase id ++ [id] := by
  have hnew : id ∉ (m.cache.erase id).keys := by
    rw [keys_erase]
    exact Nodup.not_mem_erase m.cache.nodup
  rw [touch, keys_set_new hnew, keys_erase]

theorem hashOf_touch : (m.touch id task).hashOf = update m.hashOf id (some task.lshHash) := by
  funext id'
  simp only [hashOf, touch, get?_set, get?_erase, update_apply]
  split <;> simp_all [eq_comm]

theorem Inv.touch_recent (hi : m.Inv n k) : (m.touch id task).cache.keys.Pairwise fun id' id'' =>
    (m.touch id task).uses.idxOf id'' < (m.touch id task).uses.idxOf id' := by
  have hlater : ∀ id' ∈ m.cache.keys.erase id, (id :: m.uses).idxOf id' = m.uses.idxOf id' + 1 := fun id' hmem =>
    idxOf_cons_ne _ ((Nodup.mem_erase_iff m.cache.nodup).mp hmem).1.symm
  rw [keys_touch]
  refine pairwise_append.mpr ⟨(hi.recent.sublist erase_sublist).imp_of_mem fun ha hb hlt => ?_,
    pairwise_singleton _ _, fun id' hmem _ hlast => ?_⟩
  · simpa [touch, hlater _ ha, hlater _ hb] using hlt
  · rw [mem_singleton.mp hlast]
    simp [touch, hlater _ hmem]

theorem Inv.insert (hi : m.Inv n k) (task : CachedTask T) : (m.insert task).Inv n (k + 1) := by
  refine ⟨hi.capacity, ?_, ?_, hi.touch_recent⟩
  · change (m.touch task.taskId task).cache.keys.length ≤ k + 1
    rw [keys_touch, length_append]
    exact Nat.add_le_add_right (Nat.le_trans length_erase_le hi.size) 1
  · have hhash : (m.insert task).hashOf =
        update (update m.hashOf task.taskId none) task.taskId (some task.lshHash) := by
      rw [update_idem]
      exact hashOf_touch
    rw [hhash]
    refine Buckets.Indexes.add ?_ (update_self ..) _
    cases hget : m.cache.get? task.taskId with
    | none => rw [update_eq_self_iff.mpr (by simp [hashOf, hget])]; exact hi.index
    | some old => exact hi.index.remove (by simp [hashOf, hget])

theorem Inv.access (hi : m.Inv n k) (now : Nat) : (m.access now id).1.Inv n k := by
  unfold KVManager.access
  cases hget : m.cache.get? id with
  | none => exact hi
  | some task =>
    refine ⟨hi.capacity, ?_, ?_, hi.touch_recent⟩
    · have hmem : id ∈ m.cache.keys := mem_keys_iff.mpr (by simp [hget])
      rw [keys_touch, length_append, length_singleton, length_erase_add_one hmem]
      exact hi.size
    · rw [hashOf_touch, update_eq_self_iff.mpr (by simp [hashOf, hget])]
      exact hi.index

theorem Inv.evictLru (hi : m.Inv n k) : m.evictLru.Inv n (k - 1) := by
  unfold KVManager.evictLru
  split
  · rename_i hnil
    exact { hi with size := by simp [Dict.keys, hnil] }
  · rename_i id task rest hcons
    have hget : m.cache.get? id = some task := mem_entries.mp (by simp [hcons])
    refine ⟨hi.capacity, ?_, ?_, ?_⟩
    · have := hi.size
      rw [keys_erase, length_erase_of_mem (mem_keys_iff.mpr (by simp [hget]))]
      omega
    · convert hi.index.remove (show m.hashOf id = some task.lshHash by simp [hashOf, hget]) using 1
      funext id'
      simp only [hashOf, get?_erase, update_apply]
      split <;> simp_all [eq_comm]
    · rw [keys_erase]
      exact hi.recent.sublist erase_sublist

theorem inv_empty (n : Nat) (uses : List String) : Inv n n (⟨n, ∅, ∅, uses⟩ : KVManager T) :=
  ⟨rfl, n.zero_le, fun h => by simp [Dict.getD, hashOf], .nil⟩

theorem Inv.call (hi : m.Inv n n) (c : Call T) : (m.call c).Inv n n := by
  cases c with
  | store task =>
    have hinsert := hi.insert task
    simp only [KVManager.call, store]
    split
    · exact hinsert.evictLru
    · rename_i hle
      rw [hi.capacity] at hle
      exact { hinsert with size := by omega }
  | lookupByHash lshHash now =>
    exact foldlRecOn (motive := fun p : KVManager T × List (CachedTask T) => p.1.Inv n n) _ _ hi fun p hp id _ =>
      hp.access now
  | getKv taskId now => exact hi.access now
  | evictLru => exact { hi.evictLru with size := Nat.le_trans hi.evictLru.size (n.sub_le 1) }
  | clear => exact hi.capacity ▸ inv_empty _ _

theorem Inv.evictsLeastRecent (hi : m.Inv n k) : m.EvictsLeastRecent := by
  intro id rest hkeys
  have hrecent := hi.recent
  rw [hkeys, pairwise_cons] at hrecent
  refine ⟨?_, hrecent.1⟩
  obtain ⟨⟨_, task⟩, entries, hentries, rfl, rfl⟩ := map_eq_cons_iff.mp hkeys
  rw [KVManager.evictLru, hentries]
  dsimp only
  rw [keys_erase, hkeys, erase_cons_head]

end KVManager

end VllmAscend.SimLlm
