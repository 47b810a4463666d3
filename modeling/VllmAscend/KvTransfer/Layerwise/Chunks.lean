import VllmAscend.KvTransfer.Layerwise.Split

/-!
# Every uncached block is handled once

The scheduler reports the tokens of the step before rounded down to the smallest block size, and the worker cuts
both ends at its own block size.
-/

namespace VllmAscend.KvTransfer.Layerwise

open RoundRobin List Nat

/-! ## What the scheduler reports -/

/-- The metadata of a step of `request`, with `prev` tokens computed at the end of the step
before. -/
structure Step (request : Request) (unit prev : Nat) (m : ReqMeta) : Prop where
  promptLen : m.promptLen = request.numTokens
  cached : m.remoteCacheTokens = request.remoteCachedTokens
  host : m.remoteHost = request.remoteHost
  port : m.remotePort = request.remotePort
  tp : m.remoteTpSize = request.remoteTpSize
  pcp : m.remotePcpSize = request.remotePcpSize
  dcp : m.remoteDcpSize = request.remoteDcpSize
  transed : m.localTransedTokens = roundDown prev unit
  mono : prev ≤ m.localComputedTokens
  bound : m.localComputedTokens ≤ request.numTokens
  finish : m.chunkFinish = decide (request.numTokens ≤ m.localComputedTokens)

/-- The metadata of all steps that compute the prompt, the last of which completes it. -/
inductive Progress (request : Request) (unit : Nat) : Nat → List ReqMeta → Prop
  | last {prev : Nat} {m : ReqMeta} : Step request unit prev m → m.chunkFinish = true → Progress request unit prev [m]
  | more {prev : Nat} {m : ReqMeta} {ms : List ReqMeta} :
    Step request unit prev m → m.chunkFinish = false →
      Progress request unit m.localComputedTokens ms → Progress request unit prev (m :: ms)

theorem Progress.step_of_mem {req : Request} {unit prev : Nat} {ms : List ReqMeta}
    (h : Progress req unit prev ms) {m : ReqMeta} (hm : m ∈ ms) : ∃ prev', Step req unit prev' m := by
  induction h with
  | last hs _ => exact ⟨_, mem_singleton.mp hm ▸ hs⟩
  | more hs _ _ ih =>
    rcases mem_cons.mp hm with rfl | hm
    · exact ⟨_, hs⟩
    · exact ih hm

section Scheduler

variable {blockSize : List Nat} {r : ReqId}

def metasOf (r : ReqId) (metas : List (Dict ReqId ReqMeta)) : List ReqMeta := metas.filterMap (·.get? r)

theorem metasOf_done {len : Nat} {outs : List SchedulerOutput} (h : Chunked r len len outs)
    (reqs : NeedSend) : metasOf r (produce blockSize reqs outs) = [] := by
  induction outs generalizing reqs with
  | nil => rfl
  | cons out outs ih =>
    cases hr : out.numScheduledTokens.get? r with
    | some n =>
      simp only [Chunked, hr] at h
      omega
    | none =>
      simp only [Chunked, hr] at h
      have hnone : (buildConnectorMeta blockSize reqs out).2.get? r = none :=
        (buildConnectorMeta_absent blockSize reqs hr).1
      simp only [metasOf, produce, filterMap_cons, hnone]
      exact ih h _

theorem progress_of_chunked {outs : List SchedulerOutput} {reqs : NeedSend} {info : SendReqInfo}
    {done : Nat} (hinfo : reqs.get? r = some info) (hdone : done < info.request.numTokens)
    (hcomputed : info.localComputedTokens ≤ done) (h : Chunked r info.request.numTokens done outs) :
    Progress info.request (minBlockSize blockSize) info.localComputedTokens
      (metasOf r (produce blockSize reqs outs)) := by
  induction outs generalizing reqs info done with
  | nil =>
    have : done = info.request.numTokens := h
    omega
  | cons out outs ih =>
    simp only [metasOf, produce, filterMap_cons]
    cases hr : out.numScheduledTokens.get? r with
    | none =>
      simp only [Chunked, hr] at h
      rw [(buildConnectorMeta_absent blockSize reqs hr).1]
      obtain ⟨ids, hids⟩ := (buildConnectorMeta_absent blockSize reqs hr).2
      rw [hinfo] at hids
      have hrest := ih hids hdone hcomputed h
      exact hrest
    | some n =>
      simp only [Chunked, hr] at h
      obtain ⟨-, hcur, hspec, hle, hrest⟩ := h
      obtain ⟨ids, hmeta, hnext⟩ := buildConnectorMeta_scheduled blockSize hr hinfo hspec
      rw [hcur] at hmeta hnext
      rw [hmeta]
      have hstep : ∀ info' : SendReqInfo, info' = { info.advance blockSize (done + n) with
          localBlockIds := ids } → Step info.request (minBlockSize blockSize) info.localComputedTokens
            (info'.toReqMeta info'.finished) := by
        rintro _ rfl
        exact ⟨rfl, rfl, rfl, rfl, rfl, rfl, rfl, rfl, le_trans hcomputed (le_add_right _ _), hle, rfl⟩
      by_cases hfin : done + n = info.request.numTokens
      · -- the last chunk
        rw [hfin] at hrest
        have hnil : (produce blockSize _ outs).filterMap (·.get? r) = [] :=
          metasOf_done hrest (buildConnectorMeta blockSize reqs out).1
        rw [hnil]
        exact .last (hstep _ rfl) (decide_eq_true (show info.request.numTokens ≤ done + n by omega))
      · have hopen : ({ info.advance blockSize (done + n) with localBlockIds := ids } :
            SendReqInfo).finished = false :=
          decide_eq_false (show ¬ info.request.numTokens ≤ done + n by omega)
        rw [if_neg (by simp [hopen])] at hnext
        have hopen' : done + n < info.request.numTokens := by omega
        have hrest' := ih hnext hopen' le_rfl hrest
        exact .more (hstep _ rfl) hopen hrest'

end Scheduler

/-! ## What a worker makes of it -/

theorem ceilDiv_le {a b : Nat} (hb : 0 < b) : a / b ≤ ceilDiv a b := Nat.div_le_div_right (by omega)

theorem roundDown_div {x unit blockSize : Nat} (h : unit ∣ blockSize) (hpos : 0 < blockSize) :
    roundDown x unit / blockSize = x / blockSize := by
  obtain ⟨k, rfl⟩ := h
  have hunit : 0 < unit := Nat.pos_of_mul_pos_right hpos
  unfold roundDown
  rw [← Nat.div_div_eq_div_mul, Nat.mul_div_cancel _ hunit, Nat.div_div_eq_div_mul]

namespace Worker

variable {w : Worker} {request : Request} {unit prev blockSize : Nat} {m : ReqMeta}

section

variable (h : Step request unit prev m)

include h

theorem span_transedIdx (hdvd : unit ∣ blockSize) (hpos : 0 < blockSize) :
    (w.span blockSize m).transedIdx = max (request.remoteCachedTokens / blockSize) (prev / blockSize) := by
  have hmono : Monotone fun x => x / blockSize := fun _ _ hle => Nat.div_le_div_right hle
  unfold span
  dsimp only
  rw [hmono.map_max, h.cached, h.transed, roundDown_div hdvd hpos]

theorem span_toTransIdx : (w.span blockSize m).toTransIdx =
    if m.chunkFinish then ceilDiv request.numTokens blockSize
    else m.localComputedTokens / blockSize := by
  unfold span
  split
  · rename_i hfin
    have hle : request.numTokens ≤ m.localComputedTokens := by simpa [h.finish] using hfin
    rw [le_antisymm h.bound hle]
  · rfl

theorem span_toTransIdx_le (hpos : 0 < blockSize) :
    (w.span blockSize m).toTransIdx ≤ ceilDiv request.numTokens blockSize := by
  rw [span_toTransIdx h]
  split
  · exact le_rfl
  · exact le_trans (Nat.div_le_div_right h.bound) (ceilDiv_le hpos)

theorem span_chunkFinish (hpos : 0 < blockSize) :
    (w.span blockSize m).chunkFinish = true ↔ ∀ b < ceilDiv request.numTokens blockSize, b % w.cpSize = w.cpRank →
        b < (w.span blockSize m).toTransIdx := by
  have hle := span_toTransIdx_le (w := w) h hpos
  have hlt := w.cpRank_lt
  have hpos' : 0 < w.cpSize := by omega
  -- the test for the last block compares two shares of this rank
  have htest : (w.span blockSize m).chunkFinish = true ↔ m.chunkFinish = true ∨
      share 1 w.cpSize w.cpRank (w.span blockSize m).toTransIdx =
        share 1 w.cpSize w.cpRank (ceilDiv request.numTokens blockSize) := by
    rw [share_one, share_one, ← h.promptLen]
    simp only [span, Bool.or_eq_true, beq_iff_eq]
    exact or_congr_right eq_comm
  have hshare := share_eq_iff one_pos hpos' hlt hle
  rw [htest, hshare]
  constructor
  · rintro (hfin | hnone) b hb hown
    · rw [span_toTransIdx h, if_pos hfin]
      exact hb
    · by_contra hge
      exact hnone b (by omega) hb ((owner_one b).trans hown)
  · intro hall
    refine .inr fun b hge hb hown => ?_
    have := hall b hb ((owner_one b).symm.trans hown)
    omega

theorem reqMetaBefore_eq {g : Nat}
    (hfirst : (∀ spec ∈ w.groups.take g, spec.isMamba = true) ∨ w.cpSize = 1) : w.reqMetaBefore m g = m := by
  unfold reqMetaBefore
  generalize w.groups.take g = specs at hfirst ⊢
  induction specs with
  | nil => rfl
  | cons spec specs ih =>
    have hhead : (if spec.isMamba then m
        else { m with chunkFinish := (w.span spec.blockSize m).chunkFinish }) = m := by
      split
      · rfl
      · rename_i hattn
        have hcp : w.cpSize = 1 := hfirst.resolve_left fun hall => hattn (hall spec (by simp))
        have hkeep : (w.span spec.blockSize m).chunkFinish = m.chunkFinish := by
          rw [Bool.eq_iff_iff, span_chunkFinish h spec.blockSize_pos, hcp,
            show w.cpRank = 0 by have := w.cpRank_lt; omega, span_toTransIdx h]
          constructor
          · intro hall
            by_contra hopen
            rw [if_neg hopen] at hall
            have hlt : m.localComputedTokens < request.numTokens := by simpa [h.finish] using hopen
            have hblock : m.localComputedTokens / spec.blockSize <
                ceilDiv request.numTokens spec.blockSize := by
              rw [lt_iff_add_one_le, ← add_div_right _ spec.blockSize_pos]
              exact Nat.div_le_div_right (by omega)
            exact absurd (hall _ hblock (mod_one _)) (lt_irrefl _)
          · intro hfin b hb _
            rw [if_pos hfin]
            exact hb
        rw [hkeep]
    rw [foldl_cons, hhead]
    exact ih (hfirst.imp_left fun hall spec hspec => hall spec (mem_cons_of_mem _ hspec))

end

end Worker

/-! ## All steps -/

theorem range'_append_max {a t n : Nat} (h : t ≤ n) :
    range' a (t - a) ++ range' (max a t) (n - max a t) = range' a (n - a) := by
  rcases le_total t a with hle | hle
  · rw [max_eq_left hle, Nat.sub_eq_zero_of_le hle]
    rfl
  · rw [max_eq_right hle]
    have := range'_append_1 (s := a) (m := t - a) (n := n - t)
    rw [show a + (t - a) = t by omega, show t - a + (n - t) = n - a by omega] at this
    exact this

theorem Progress.blocks {w : Worker} {req : Request} {unit prev B : Nat} {ms : List ReqMeta}
    (h : Progress req unit prev ms) (hdvd : unit ∣ B) (hpos : 0 < B) :
    (ms.flatMap fun m => (w.span B m).blocks) = range' (max (req.remoteCachedTokens / B) (prev / B))
        (ceilDiv req.numTokens B - max (req.remoteCachedTokens / B) (prev / B)) := by
  induction h with
  | last hs hfin =>
    rw [flatMap_cons, flatMap_nil, append_nil, Worker.Span.blocks,
      Worker.span_transedIdx hs hdvd hpos, Worker.span_toTransIdx hs, if_pos hfin]
  | @more prev m ms hs hopen _ ih =>
    -- the next step starts where this one ends, or at the first block that is not cached
    have hle := Worker.span_toTransIdx_le (w := w) hs hpos
    have hend : (w.span B m).toTransIdx = _ := Worker.span_toTransIdx hs
    rw [if_neg (by simp [hopen])] at hend
    rw [flatMap_cons, ih, Worker.Span.blocks, Worker.span_transedIdx hs hdvd hpos, hend]
    rw [hend] at hle
    have hprev := Nat.div_le_div_right (c := B) hs.mono
    have happ := range'_append_max (a := max (req.remoteCachedTokens / B) (prev / B)) hle
    rw [max_assoc, max_eq_right hprev] at happ
    exact happ

/-- **Every uncached block once.** Over all steps of the prompt, an attention group whose block size is a
multiple of the smallest one handles the uncached blocks in order and each once, and `chunk_finish`
is set from the step on that handles the last block of the rank. -/
theorem uncached_blocks_once {w : Worker} {groupIdx : Nat} (hgroup : groupIdx < w.groups.length)
    (hdvd : minBlockSize (w.groups.map (·.blockSize)) ∣ w.groups[groupIdx].blockSize)
    (hfirst : (∀ spec ∈ w.groups.take groupIdx, spec.isMamba = true) ∨ w.cpSize = 1)
    {reqs : NeedSend} {r : ReqId} {request : Request} {blockIds : List (List Nat)} {hit : Nat}
    (hhit : hit < request.numTokens) {outs : List SchedulerOutput}
    (houts : Chunked r request.numTokens hit outs) :
    let blockSize := w.groups[groupIdx].blockSize
    let metas := metasOf r (produce (w.groups.map (·.blockSize))
      (updateStateAfterAlloc reqs r request blockIds) outs)
    let spans := metas.map fun m => w.span blockSize (w.reqMetaBefore m groupIdx)
    let first := request.remoteCachedTokens / blockSize
    let numBlocks := ceilDiv request.numTokens blockSize
    spans.flatMap Worker.Span.blocks = range' first (numBlocks - first) ∧
      ∀ s ∈ spans, s.chunkFinish = true ↔
        ∀ b < numBlocks, b % w.cpSize = w.cpRank → b < s.toTransIdx := by
  intro blockSize metas spans first numBlocks
  have hpos : 0 < blockSize := w.groups[groupIdx].blockSize_pos
  have hprogress : Progress request (minBlockSize (w.groups.map (·.blockSize))) 0 metas := by
    have hinfo : (updateStateAfterAlloc reqs r request blockIds).get? r = some
        ⟨blockIds, request.remoteCachedTokens, 0, request⟩ := by
      unfold updateStateAfterAlloc
      rw [Dict.get?_set, if_pos rfl]
    exact progress_of_chunked hinfo hhit (zero_le hit) houts
  have hspans : spans = metas.map fun m => w.span blockSize m := by
    apply map_congr_left
    intro m hm
    obtain ⟨prev, hs⟩ := hprogress.step_of_mem hm
    rw [Worker.reqMetaBefore_eq hs hfirst]
  rw [hspans]
  constructor
  · rw [flatMap_map, hprogress.blocks hdvd hpos, Nat.zero_div, Nat.max_zero]
  · refine forall_mem_map.mpr fun m hm => ?_
    obtain ⟨prev, hstep⟩ := hprogress.step_of_mem hm
    exact Worker.span_chunkFinish hstep hpos

/-! ## Instances -/

def chunkStep (computed n : Nat) : SchedulerOutput where
  scheduledCachedReqs := [⟨0, none, computed⟩]
  scheduledNewReqs := []
  numScheduledTokens := Dict.set ∅ 0 n
  scheduledSpecDecodeTokens := ∅

def promptOf (numTokens cached : Nat) : Request where
  numTokens := numTokens
  remoteCachedTokens := cached
  remoteBlockIds := []
  remoteHost := "decoder"
  remotePort := 0
  remoteTpSize := 1
  remotePcpSize := 1
  remoteDcpSize := 1

def secondOfTwo : Worker where
  tpSize := 2
  pcpSize := 1
  dcpSize := 2
  tpRank := 1
  pcpRank := 0
  dcpRank := 1
  pdHeadRatio := 1
  useMla := true
  totalNumKvHeads := 1
  groups := [⟨2, false, Nat.two_pos⟩]
  pcp_lt := Nat.one_pos

def twoGroups : Worker where
  tpSize := 1
  pcpSize := 1
  dcpSize := 1
  tpRank := 0
  pcpRank := 0
  dcpRank := 0
  pdHeadRatio := 1
  useMla := true
  totalNumKvHeads := 1
  groups := [⟨2, false, Nat.two_pos⟩, ⟨3, false, by decide⟩]
  pcp_lt := Nat.one_pos
  dcp_lt := Nat.one_pos

theorem uncached_blocks_once_ten_tokens : ((metasOf 0 (produce [2] (updateStateAfterAlloc ∅ 0 (promptOf 10 5) [[]])
      [chunkStep 3 2, chunkStep 5 2, chunkStep 7 3])).map fun m =>
        secondOfTwo.span 2 (secondOfTwo.reqMetaBefore m 0)).flatMap Worker.Span.blocks = range' 2 3 := by
  have hchunks : Chunked 0 10 3 [chunkStep 3 2, chunkStep 5 2, chunkStep 7 3] :=
    ⟨by decide, rfl, rfl, by decide, by decide, rfl, rfl, by decide, by decide, rfl, rfl, by decide, rfl⟩
  have h := @uncached_blocks_once secondOfTwo 0 (by decide) (by decide) (.inl (by decide)) ∅ 0
    (promptOf 10 5) [[]] 3 (by decide) _ hchunks
  exact h.1

/-- The start of the second step is rounded down to two tokens, so the group with blocks of three
handles its first block again. -/
theorem block_handled_twice : Chunked 0 6 0 [chunkStep 0 3, chunkStep 3 3] ∧
      ((metasOf 0 (produce [2, 3] (updateStateAfterAlloc ∅ 0 (promptOf 6 0) [[], []])
        [chunkStep 0 3, chunkStep 3 3])).map fun m =>
          (twoGroups.span 3 (twoGroups.reqMetaBefore m 1)).blocks) = [[0], [0, 1]] :=
  ⟨⟨by decide, rfl, rfl, by decide, by decide, rfl, rfl, by decide, rfl⟩, rfl⟩

end VllmAscend.KvTransfer.Layerwise
