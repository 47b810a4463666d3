import VllmAscend.Eplb.Model

/-!
# The plan: who sends what to whom
-/

namespace VllmAscend.Eplb

open List Option Bool Dict

structure ValidPlacement (numRanks numExperts numSlots : Nat) (m : Nat → Nat → Int) : Prop where
  range : ∀ r < numRanks, ∀ e < numExperts, m r e = -1 ∨ (0 ≤ m r e ∧ m r e < numSlots)
  distinct : ∀ r < numRanks, ∀ e < numExperts, ∀ e' < numExperts, m r e ≠ -1 → m r e = m r e' → e = e'
  full : ∀ r < numRanks, ∀ s < numSlots, ∃ e < numExperts, m r e = s

/-- Two placements of the same experts, where an expert that stays on a rank keeps its slot. -/
structure UpdateOk (numRanks numExperts numSlots : Nat) (old new : Nat → Nat → Int) : Prop where
  old_valid : ValidPlacement numRanks numExperts numSlots old
  new_valid : ValidPlacement numRanks numExperts numSlots new
  covers : ∀ e < numExperts, (∃ r < numRanks, old r e ≠ -1) ↔ (∃ r < numRanks, new r e ≠ -1)
  stays : ∀ r < numRanks, ∀ e < numExperts, old r e ≠ -1 → new r e ≠ -1 → new r e = old r e

theorem mem_whereTrue {R E : Nat} {cond : Nat → Nat → Bool} {r e : Nat} : (r, e) ∈ whereTrue R E cond ↔
      r < R ∧ e < E ∧ cond r e = true := by
  simp only [whereTrue, mem_flatMap, mem_range, List.mem_map, mem_filter, Prod.mk.injEq]
  constructor
  · rintro ⟨r', hr', e', ⟨he', hc⟩, rfl, rfl⟩
    exact ⟨hr', he', hc⟩
  · rintro ⟨hr, he, hc⟩
    exact ⟨r, hr, e, ⟨he, hc⟩, rfl, rfl⟩

theorem whereTrue_nodup (R E : Nat) (cond : Nat → Nat → Bool) : (whereTrue R E cond).Nodup := by
  unfold whereTrue
  rw [nodup_flatMap]
  refine ⟨?_, ?_⟩
  · intro r _
    exact (nodup_range.filter _).map fun a b h => (Prod.mk.inj h).2
  · refine nodup_range.imp ?_
    intro a b hab x hx hy
    simp only [List.mem_map, mem_filter] at hx hy
    obtain ⟨_, _, rfl⟩ := hx
    obtain ⟨_, _, h⟩ := hy
    exact hab (Prod.mk.inj h).1.symm

/-! ## Sources -/

theorem get?_firstRankByExpert (pairs : List (Nat × Nat)) (e : Nat) :
    (firstRankByExpert pairs).get? e = (pairs.find? fun p => p.2 = e).map Prod.fst := by
  suffices h : ∀ d : Dict Nat Nat,
      (pairs.foldl (fun d p => d.setdefault p.2 p.1) d).get? e =
        (d.get? e).or ((pairs.find? fun p => p.2 = e).map Prod.fst) by
    simpa [firstRankByExpert] using h ∅
  induction pairs with
  | nil => simp
  | cons p rest ih =>
    intro d
    rw [foldl_cons, ih, get?_setdefault]
    by_cases hp : p.2 = e
    · subst hp
      cases d.get? p.2 <;> simp
    · simp [hp]

section Sources

variable {numRanks numExperts : Nat} {updated current : Nat → Nat → Int}

theorem srcRank_holds {expert src : Nat} (h : srcRank numRanks numExperts updated current expert = some src) :
    src < numRanks ∧ current src expert ≠ -1 := by
  simp only [srcRank, get?_firstRankByExpert, or_eq_some_iff, map_eq_some_iff] at h
  rcases h with ⟨⟨r, e⟩, hfind, rfl⟩ | ⟨-, ⟨r, e⟩, hfind, rfl⟩
  · have hmem := mem_whereTrue.mp (mem_of_find?_eq_some hfind)
    have he := find?_some hfind
    simp only [decide_eq_true_eq, and_eq_true, bne_iff_ne] at he hmem
    exact ⟨hmem.1, he ▸ hmem.2.2.1⟩
  · have hmem := mem_whereTrue.mp (mem_of_find?_eq_some hfind)
    have he := find?_some hfind
    simp only [decide_eq_true_eq, bne_iff_ne] at he hmem
    exact ⟨hmem.1, he ▸ hmem.2.2⟩

theorem srcRank_exists {expert r : Nat} (he : expert < numExperts) (hr : r < numRanks) (h : current r expert ≠ -1) :
    ∃ src, srcRank numRanks numExperts updated current expert = some src := by
  have hmem : (r, expert) ∈ holders numRanks numExperts current := mem_whereTrue.mpr ⟨hr, he, by simpa using h⟩
  have hfind : ((holders numRanks numExperts current).find? fun p => p.2 = expert).isSome := by
    rw [find?_isSome]
    exact ⟨(r, expert), hmem, by simp⟩
  obtain ⟨p, hp⟩ := isSome_iff_exists.mp hfind
  cases hs : (firstRankByExpert (expertsToSend numRanks numExperts updated current)).get? expert with
  | some src => exact ⟨src, by simp [srcRank, hs]⟩
  | none => exact ⟨p.1, by simp [srcRank, hs, get?_firstRankByExpert, hp]⟩

end Sources

/-! ## Tasks -/

structure Task where
  dst : Nat
  expert : Nat
  src : Nat

def sendsOf (tasks : List Task) (rank : Nat) : List (Nat × Nat) :=
  (tasks.filter fun t => t.src = rank).map fun t => (t.dst, t.expert)

def recvsOf (tasks : List Task) (rank : Nat) : List (Nat × Nat) :=
  (tasks.filter fun t => t.dst = rank).map fun t => (t.src, t.expert)

theorem getD_appendTo (d : Dict Nat (List (Nat × Nat))) (k k' : Nat) (x : Nat × Nat) :
    (appendTo d k x).getD k' [] = if k = k' then d.getD k [] ++ [x] else d.getD k' [] := by
  unfold appendTo Dict.getD
  by_cases h : k = k'
  · subst h
    simp [get?_set, get?_setdefault]
  · simp [get?_set, get?_setdefault, h]

/-- What `composeLayer` has planned: each missing expert of each rank once, from a rank that holds
it, and the two lists of every rank in the order of the tasks. -/
structure Planned (numRanks numExperts : Nat) (new old : Nat → Nat → Int) (tasks : List Task)
    (info : UpdateInfo) : Prop where
  pairs : tasks.map (fun t => (t.dst, t.expert)) = expertsToRecv numRanks numExperts new old
  src : ∀ t ∈ tasks, t.src < numRanks ∧ old t.src t.expert ≠ -1
  send : ∀ r, info.sendInfo.getD r [] = sendsOf tasks r
  recv : ∀ r, info.recvInfo.getD r [] = recvsOf tasks r
  map : info.updatedExpertMap = new

theorem composeFold_spec {R E : Nat} {updated current : Nat → Nat → Int}
    (pairs : List (Nat × Nat)) (st : Dict Nat (List (Nat × Nat)) × Dict Nat (List (Nat × Nat)))
    (hsrc : ∀ p ∈ pairs, ∃ src, srcRank R E updated current p.2 = some src) :
    ∃ tasks st', pairs.foldlM (composeStep R E updated current) st = some st' ∧
      tasks.map (fun t : Task => (t.dst, t.expert)) = pairs ∧ (∀ t ∈ tasks, t.src < R ∧ current t.src t.expert ≠ -1) ∧
      (∀ r, st'.1.getD r [] = st.1.getD r [] ++ sendsOf tasks r) ∧
      (∀ r, st'.2.getD r [] = st.2.getD r [] ++ recvsOf tasks r) := by
  induction pairs generalizing st with
  | nil => exact ⟨[], st, rfl, rfl, by simp, by simp [sendsOf], by simp [recvsOf]⟩
  | cons p rest ih =>
    obtain ⟨dst, expert⟩ := p
    obtain ⟨src, hs⟩ := hsrc (dst, expert) (by simp)
    obtain ⟨tasks, st', hrun, hpairs, hok, hsend, hrecv⟩ :=
      ih (appendTo st.1 src (dst, expert), appendTo st.2 dst (src, expert))
        (fun p hp => hsrc p (mem_cons_of_mem _ hp))
    refine ⟨⟨dst, expert, src⟩ :: tasks, st', ?_, by simp [hpairs], ?_, ?_, ?_⟩
    · rw [foldlM_cons, composeStep, hs]
      exact hrun
    · intro t ht
      rcases mem_cons.mp ht with rfl | ht
      · exact srcRank_holds hs
      · exact hok t ht
    · intro r
      rw [hsend, getD_appendTo]
      by_cases h : src = r <;> simp [sendsOf, h]
    · intro r
      rw [hrecv, getD_appendTo]
      by_cases h : dst = r <;> simp [recvsOf, h]

theorem composeLayer_spec {R E numSlots : Nat} {old new : Nat → Nat → Int}
    (h : UpdateOk R E numSlots old new) (l : Nat) : ∃ tasks info, composeLayer R E new old l = some info ∧
      info.layerId = l ∧ Planned R E new old tasks info := by
  unfold composeLayer
  split
  · -- Equal maps: there is nothing to receive.
    rename_i heq
    simp only [tablesEqual, List.all_eq_true, mem_range, beq_iff_eq] at heq
    have hnone : expertsToRecv R E new old = [] := by
      rw [eq_nil_iff_forall_not_mem]
      rintro ⟨r, e⟩ hmem
      obtain ⟨hr, he, hc⟩ := mem_whereTrue.mp hmem
      simp_all
    exact ⟨[], _, rfl, rfl, by simp [hnone], by simp, fun _ => rfl, fun _ => rfl, rfl⟩
  · have hsrc : ∀ p ∈ expertsToRecv R E new old,
        ∃ src, srcRank R E new old p.2 = some src := by
      rintro ⟨r, e⟩ hmem
      obtain ⟨hr, he, hc⟩ := mem_whereTrue.mp hmem
      simp only [and_eq_true, beq_iff_eq, bne_iff_ne] at hc
      obtain ⟨r', hr', hold⟩ := (h.covers e he).mpr ⟨r, hr, hc.2⟩
      exact srcRank_exists he hr' hold
    obtain ⟨tasks, st', hrun, hpairs, hok, hsend, hrecv⟩ := composeFold_spec _ (∅, ∅) hsrc
    refine ⟨tasks, _, by rw [hrun]; rfl, rfl, hpairs, hok, ?_, ?_, rfl⟩
    · intro r
      simpa [Dict.getD] using hsend r
    · intro r
      simpa [Dict.getD] using hrecv r

end VllmAscend.Eplb
