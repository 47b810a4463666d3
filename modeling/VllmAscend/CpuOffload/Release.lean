import Mathlib.Data.List.Dedup
import VllmAscend.CpuOffload.Manager

/-!
# The release of finished requests

The ranks of a tensor parallel group save a request, and the first of them asks the manager to free it once all
have. The groups of the pipeline stages work independently.
-/

namespace VllmAscend.CpuOffload

open List

structure Metadata where
  requests : List String
  finishedReqIds : List String

structure Rank where
  requests : List String := []
  reported : List String := []

/-- `bind_connector_metadata` and the first half of `get_finished`, with `done_sending`. -/
def Rank.save (rank : Rank) (metadata : Metadata) : Rank × List String :=
  let requests := rank.requests ++ metadata.requests.filter (· ∉ rank.requests)
  let doneSending := metadata.finishedReqIds.filter (· ∈ requests)
  ({ rank with requests := requests.filter (· ∉ doneSending) }, doneSending)

def Rank.report (rank : Rank) (ids : List String) : Rank := { rank with reported := rank.reported ++ ids }

/-- A tensor parallel group. `doneSendingCount` of its first rank has an id as often as it is counted. -/
structure Stage where
  ranks : List Rank
  doneSendingCount : List String := []

/-- `get_finished` on all ranks, with the calls of `cache_and_free_slots`. -/
def Stage.getFinished (stage : Stage) (metadata : Metadata) : Stage × List String :=
  let saved := stage.ranks.map (·.save metadata)
  if stage.ranks.length = 1 then ({ stage with ranks := saved.map fun (rank, done) => rank.report done }, [])
  else
    let counts := stage.doneSendingCount ++ saved.flatMap Prod.snd
    let allDoneSending := counts.dedup.filter (counts.count · = stage.ranks.length)
    ({ ranks := saved.mapIdx fun i (rank, done) => rank.report (if i = 0 then allDoneSending else done)
       doneSendingCount := counts.filter (· ∉ allDoneSending) }, allDoneSending)

structure Connector where
  finishedReqIds : List String := []
  stages : List Stage
  finished : List String := []
  freed : List String := []

inductive Event
  | step (requests : List String)
  | requestFinished (requestId : String)

namespace Connector

def init (tpSize ppSize : Nat) : Connector where
  stages := replicate ppSize ⟨replicate tpSize {}, []⟩

def step (c : Connector) : Event → Option Connector
  | .step requests =>
    let results := c.stages.map (·.getFinished ⟨requests, c.finishedReqIds.dedup⟩)
    some { c with
      finishedReqIds := []
      stages := results.map Prod.fst
      freed := c.freed ++ results.flatMap Prod.snd }
  | .requestFinished r => some { c with finishedReqIds := c.finishedReqIds ++ [r], finished := c.finished ++ [r] }

/-- A request finishes once, after a step that scheduled it, and is not scheduled any more. -/
def FinishesScheduled (c : Connector) : Event → Prop
  | .step requests => ∀ r ∈ requests, r ∉ c.finished
  | .requestFinished r => r ∉ c.finished ∧ ∀ stage ∈ c.stages, ∀ rank ∈ stage.ranks, r ∈ rank.requests

/-- Once a step has seen them, the finished requests are reported by every rank and freed, each once. -/
def ReleasedOnce (c : Connector) : Prop :=
  ∀ r ∈ c.finished, r ∉ c.finishedReqIds → c.freed.count r = 1 ∧
    ∀ stage ∈ c.stages, ∀ rank ∈ stage.ranks, rank.reported.count r = 1

end Connector

theorem count_allDone {done : List String} (hnodup : done.Nodup) {n : Nat} (hn : n ≠ 0) {counts allDone : List String}
    (hcounts : counts = (replicate n done).flatten) (hall : allDone = counts.dedup.filter (counts.count · = n)) :
    (∀ r, allDone.count r = done.count r) ∧ counts.filter (· ∉ allDone) = [] := by
  have hmem : ∀ r, r ∈ counts ↔ r ∈ done := fun r => by simp [hcounts, hn]
  have hall : ∀ r, r ∈ allDone ↔ r ∈ done := fun r => by
    simp only [hall, mem_filter, mem_dedup, hmem, decide_eq_true_eq]
    refine and_iff_left_of_imp fun hr => ?_
    simp [hcounts, count_flatten, count_eq_one_of_mem hnodup hr]
  refine ⟨((perm_ext_iff_of_nodup ?_ hnodup).mpr hall).count_eq, filter_eq_nil_iff.mpr fun r hr => ?_⟩
  · subst allDone
    exact (nodup_dedup _).filter _
  · simpa [hall] using (hmem r).mp hr

theorem Stage.getFinished_spec {ranks : List Rank} {metadata : Metadata} {done : List String} (hlen : 2 ≤ ranks.length)
    (hnodup : done.Nodup) (hsave : ∀ rank ∈ ranks, (rank.save metadata).2 = done) :
    ∃ ranks' allDone, (⟨ranks, []⟩ : Stage).getFinished metadata = (⟨ranks', []⟩, allDone) ∧
      ranks'.length = ranks.length ∧ (∀ r, allDone.count r = done.count r) ∧
      ∀ rank' ∈ ranks', ∃ rank ∈ ranks, ∃ ids, rank' = (rank.save metadata).1.report ids ∧
        ∀ r, ids.count r = done.count r := by
  have hcounts : (ranks.map (·.save metadata)).flatMap Prod.snd = (replicate ranks.length done).flatten := by
    rw [flatMap_def, map_map]
    exact congrArg flatten (eq_replicate_iff.mpr ⟨by simp, by simpa using hsave⟩)
  obtain ⟨hall, hnone⟩ := count_allDone hnodup (by omega) hcounts rfl
  unfold Stage.getFinished
  dsimp only
  rw [if_neg (by omega), nil_append, hnone]
  refine ⟨_, _, rfl, by simp, hall, fun rank' hrank' => ?_⟩
  obtain ⟨i, hi, rfl⟩ := mem_iff_getElem.mp hrank'
  simp only [length_mapIdx, length_map] at hi
  rw [getElem_mapIdx, getElem_map]
  refine ⟨ranks[i], getElem_mem hi, _, rfl, fun r => ?_⟩
  split
  · exact hall r
  · rw [hsave _ (getElem_mem hi)]

namespace Connector

structure Inv (tpSize : Nat) (c : Connector) (ranks : List Rank) (requests : List String) : Prop where
  stages : c.stages = [⟨ranks, []⟩]
  length : ranks.length = tpSize
  same : ∀ rank ∈ ranks, rank.requests = requests
  known : ∀ r ∈ c.finishedReqIds, r ∈ requests
  reported : ∀ rank ∈ ranks, ∀ r, rank.reported.count r = c.freed.count r
  counts : ∀ r, c.freed.count r + c.finishedReqIds.count r = c.finished.count r
  nodup : c.finished.Nodup

variable {tpSize : Nat} {c : Connector} {ranks : List Rank} {requests : List String}

theorem Inv.finish (h : Inv tpSize c ranks requests) (htp : 2 ≤ tpSize) {r : String}
    (hok : c.FinishesScheduled (.requestFinished r)) :
    Inv tpSize { c with finishedReqIds := c.finishedReqIds ++ [r], finished := c.finished ++ [r] } ranks requests := by
  refine { h with known := fun r' hr' => ?_, counts := fun r' => ?_, nodup := ?_ }
  · rcases mem_append.mp hr' with hr' | hr'
    · exact h.known r' hr'
    · obtain ⟨rank, hrank⟩ := exists_mem_of_length_pos (show 0 < ranks.length by rw [h.length]; omega)
      rw [mem_singleton.mp hr', ← h.same rank hrank]
      exact hok.2 ⟨ranks, []⟩ (by simp [h.stages]) rank hrank
  · have := h.counts r'
    simp only [count_append]
    omega
  · exact h.nodup.append (nodup_singleton r) (disjoint_singleton.mpr hok.1)

theorem Inv.step (h : Inv tpSize c ranks requests) (htp : 2 ≤ tpSize) (newRequests : List String) {c' : Connector}
    (hs : c.step (.step newRequests) = some c') : ∃ ranks' requests', Inv tpSize c' ranks' requests' := by
  have hpending : c.finishedReqIds.Nodup := nodup_iff_count_le_one.mpr fun r => by
    have := h.counts r
    have := nodup_iff_count_le_one.mp h.nodup r
    omega
  let all := requests ++ newRequests.filter (· ∉ requests)
  have hsave : ∀ rank ∈ ranks, rank.save ⟨newRequests, c.finishedReqIds⟩ =
      ({ rank with requests := all.filter (· ∉ c.finishedReqIds) }, c.finishedReqIds) := by
    intro rank hrank
    have hdone : c.finishedReqIds.filter (· ∈ all) = c.finishedReqIds :=
      filter_eq_self.mpr fun r hr => by simp [all, h.known r hr]
    simp only [Rank.save, h.same rank hrank]
    rw [show filter _ c.finishedReqIds = c.finishedReqIds from hdone]
  obtain ⟨ranks', allDone, hfinished, hlen, hall, hranks⟩ := Stage.getFinished_spec (by rw [h.length]; exact htp) hpending
    fun rank hrank => congrArg Prod.snd (hsave rank hrank)
  simp only [Connector.step, h.stages, hpending.dedup, map_cons, map_nil, hfinished, flatMap_cons, flatMap_nil,
    append_nil, Option.some_inj] at hs
  subst hs
  refine ⟨ranks', all.filter (· ∉ c.finishedReqIds), rfl, hlen.trans h.length, fun rank' hrank' => ?_, nofun,
    fun rank' hrank' r => ?_, fun r => ?_, h.nodup⟩
  · obtain ⟨rank, hrank, ids, rfl, -⟩ := hranks rank' hrank'
    rw [hsave rank hrank]
    rfl
  · obtain ⟨rank, hrank, ids, rfl, hids⟩ := hranks rank' hrank'
    rw [hsave rank hrank]
    simp only [Rank.report, count_append, h.reported rank hrank, hids, hall]
  · have := h.counts r
    simp only [count_append, hall, count_nil]
    omega

/-- With tensor parallelism and one stage, every request that finishes after a step has scheduled it is released once,
and then the manager has nothing of it. -/
theorem released_once (tpSize : Nat) (htp : 2 ≤ tpSize) {c : Connector}
    (h : Machine.Reaches step FinishesScheduled (init tpSize 1) c) :
    c.ReleasedOnce ∧ ∀ (m : Manager) r, r ∈ m.reqToFree → (m.cacheAndFreeSlots r).Forgot r := by
  have hinv : ∃ ranks requests, Inv tpSize c ranks requests := by
    refine h.inv (fun c => ∃ ranks requests, Inv tpSize c ranks requests) ?_ ?_
    · refine ⟨replicate tpSize {}, [], rfl, length_replicate, fun rank hrank => ?_, nofun, fun rank hrank r => ?_,
        fun _ => rfl, nodup_nil⟩
      · rw [eq_of_mem_replicate hrank]
      · rw [eq_of_mem_replicate hrank]
        rfl
    · rintro c e c' ⟨ranks, requests, hinv⟩ hok hs
      cases e with
      | step newRequests => exact hinv.step htp newRequests hs
      | requestFinished r =>
        cases hs
        exact ⟨ranks, requests, hinv.finish htp hok⟩
  obtain ⟨ranks, requests, hinv⟩ := hinv
  refine ⟨fun r hr hpending => ?_, fun m r => Manager.forgot_of_mem⟩
  have hfreed : c.freed.count r = 1 := by
    rw [← count_eq_one_of_mem hinv.nodup hr, ← hinv.counts r, count_eq_zero.mpr hpending, Nat.add_zero]
  refine ⟨hfreed, fun stage hstage rank hrank => ?_⟩
  rw [hinv.stages] at hstage
  cases mem_singleton.mp hstage
  rw [hinv.reported rank hrank, hfreed]

theorem released_once_twoRanks : ∃ c, Machine.run step (init 2 1) [.step ["a"], .requestFinished "a", .step []] = some c ∧
    c.finished = ["a"] ∧ c.finishedReqIds = [] ∧ c.ReleasedOnce := by
  refine ⟨_, rfl, rfl, rfl, (released_once 2 (by decide) ?_).1⟩
  refine .tail (a := .step []) (.tail (a := .requestFinished "a") (.tail (a := .step ["a"]) .refl ?_ rfl) ?_ rfl) ?_ rfl
  · exact fun _ _ => nofun
  · exact ⟨nofun, by decide⟩
  · exact nofun

/-- A single rank never asks the manager to free a request. -/
theorem singleRank_keeps : ∃ c, Machine.run step (init 1 1) [.step ["a"], .requestFinished "a", .step []] = some c ∧
    c.freed = [] ∧ ¬ c.ReleasedOnce :=
  ⟨_, rfl, rfl, fun h => absurd (h "a" (by decide) (by decide)).1 (by decide)⟩

end Connector

end VllmAscend.CpuOffload
