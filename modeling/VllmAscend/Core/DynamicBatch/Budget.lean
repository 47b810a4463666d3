import Mathlib.Data.List.Dedup
import VllmAscend.Core.DynamicBatch.WaitingPhase

/-!
# The refined token budget

`BudgetRefiner._read_lookup_table`, and what `refine_budget` makes of the table.
-/

namespace VllmAscend.Core.DynamicBatch

open List

variable {F : Type} [PyFloat F]

structure ProfileRow (F : Type) where
  ctxLen : Int
  dNum : Int
  chunkSize : Int
  cost : F

def ProfileRow.key (row : ProfileRow F) : Int × Int := (row.ctxLen, row.dNum)

def largestChunk (table : List (ProfileRow F)) (sloLimit : F) (key : Int × Int) : Option Int :=
  ((table.filter fun row => row.key = key ∧ PyFloat.le row.cost sloLimit).map (·.chunkSize)).max?

def lookupEntries (table : List (ProfileRow F)) (sloLimit : F) : List ((Int × Int) × Int) :=
  (table.map (·.key)).dedup.filterMap fun key => (largestChunk table sloLimit key).map (key, ·)

theorem mem_lookupEntries {table : List (ProfileRow F)} {sloLimit : F} {key : Int × Int} {chunk : Int} :
    (key, chunk) ∈ lookupEntries table sloLimit ↔ largestChunk table sloLimit key = some chunk := by
  simp only [lookupEntries, mem_filterMap, Option.map_eq_some_iff, Prod.mk.injEq, mem_dedup]
  constructor
  · rintro ⟨_, _, _, h, rfl, rfl⟩
    exact h
  · intro h
    obtain ⟨row, hrow, -⟩ := mem_map.mp (max?_mem h)
    simp only [mem_filter, decide_eq_true_eq] at hrow
    exact ⟨key, mem_map.mpr ⟨row, hrow.1, hrow.2.1⟩, chunk, h, rfl, rfl⟩

theorem nodup_keys_lookupEntries (table : List (ProfileRow F)) (sloLimit : F) :
    ((lookupEntries table sloLimit).map Prod.fst).Nodup := by
  unfold lookupEntries
  rw [map_filterMap]
  apply (nodup_dedup _).filterMap
  simp +contextual [Option.map_map, Option.map_eq_some_iff]

/-- `_read_lookup_table`, without a table when the file is missing. A set of keys is iterated in the order
that `order` puts it in. -/
def readLookupTable (table : Option (List (ProfileRow F))) (sloLimit : F) (defaultBudget : Int)
    (order : List Int → List Int) : BudgetRefiner :=
  let entries := lookupEntries (table.getD []) sloLimit
  { enabled := PyFloat.lt (PyFloat.ofInt 0) sloLimit && table.isSome
    lookup := ⟨entries, nodup_keys_lookupEntries _ _⟩
    contextKeys := order (entries.map (·.1.1)).dedup
    dnumKeys := order (entries.map (·.1.2)).dedup
    defaultBudget }

/-- The key that `_align_key` is meant to find. -/
def smallestKey (p : Int → Bool) (keys : List Int) : Option Int := (keys.filter p).min?

theorem smallestKey_eq_none {p : Int → Bool} {keys : List Int} :
    smallestKey p keys = none ↔ keys.find? p = none := by
  simp [smallestKey, min?_eq_none_iff]

theorem getMaxBudget_eq (b : BudgetRefiner) (value : F) (n : Nat) : getMaxBudget b value n =
    ((alignKey value b.contextKeys).bind fun ctx => (b.dnumKeys.find? fun k => decide ((n : Int) ≤ k)).bind
      fun dnum => b.lookup.get? (ctx, dnum)).getD b.defaultBudget := by
  unfold getMaxBudget
  rcases alignKey value b.contextKeys with _ | ctx
  · rfl
  · cases b.dnumKeys.find? fun k => decide ((n : Int) ≤ k) <;> rfl

def profile : List (ProfileRow Rat) := [⟨8, 1, 8, 1⟩, ⟨4, 1, 20, 1⟩]

def decodeAndPrefill : SchedulerState (List Bool) Rat where
  running := [0, 1]
  waiting := []
  skippedWaiting := []
  requests := fun id => if id = 0 then sampleRequest 0 else { sampleRequest 1 with numPromptTokens := 30, numTokens := 30 }
  selector := sampleSelector
  world := []

end VllmAscend.Core.DynamicBatch
