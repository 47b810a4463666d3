import VllmAscend.KvTransfer.Mooncake.RecvThread

/-!
# Progress of the receiving thread

A peer with tasks always has a handler, and without new requests the threads come to rest.
-/

namespace VllmAscend.KvTransfer.Mooncake

open List Option Finset Dict Handler

variable {cfg : Config}

/-! ## No task is lost -/

structure Served (s : State) : Prop where
  active : ∀ peer, s.peerRequestQueues.getD peer [] ≠ [] → peer ∈ s.activePeerRequestHandlers
  handled : ∀ peer ∈ s.activePeerRequestHandlers,
    s.submitter = .start peer ∨ peer ∈ s.executorQueue ∨ ∃ h ∈ s.handlers, h.peer = peer

section Served

variable {s s' : State}

theorem getD_set_queue (d : Dict Peer (List Task)) (peer peer' : Peer) (l : List Task) :
    (d.set peer l).getD peer' [] = if peer = peer' then l else d.getD peer' [] := by
  rw [Dict.getD, get?_set]
  split <;> rfl

variable (h : Served s)

include h

theorem Served.submit (hs : submit s = some s') : Served s' := by
  unfold Mooncake.submit at hs
  split at hs
  · rename_i hsub
    split at hs
    · cases hs
    · cases hs
      refine ⟨h.active, fun peer hp => .inr ((h.handled peer hp).resolve_left ?_)⟩
      rw [hsub]
      nofun
  · rename_i t hsub
    have hidle : ∀ peer ∈ s.activePeerRequestHandlers,
        peer ∈ s.executorQueue ∨ ∃ h ∈ s.handlers, h.peer = peer := by
      refine fun peer hp => (h.handled peer hp).resolve_left ?_
      rw [hsub]
      nofun
    split at hs
    · rename_i hactive
      cases hs
      refine ⟨fun peer hne => ?_, fun peer hp => .inr (hidle peer hp)⟩
      rw [getD_set_queue] at hne
      split at hne
      · rename_i hpeer
        exact hpeer ▸ hactive
      · exact h.active peer hne
    · cases hs
      refine ⟨fun peer hne => ?_, fun peer hp => ?_⟩
      · rw [getD_set_queue] at hne
        split at hne
        · rename_i hpeer
          exact hpeer ▸ mem_insert_self _ _
        · exact mem_insert_of_mem (h.active peer hne)
      · rcases mem_insert.mp hp with rfl | hp
        · exact .inl rfl
        · exact .inr (hidle peer hp)
  · rename_i peer₀ hsub
    cases hs
    refine ⟨h.active, fun peer hp => .inr ?_⟩
    rcases h.handled peer hp with hstart | hexec | hrun
    · rw [hsub] at hstart
      cases hstart
      exact .inl (by simp)
    · exact .inl (mem_append_left _ hexec)
    · exact .inr hrun

theorem Served.startWorker (hs : startWorker cfg s = some s') : Served s' := by
  unfold Mooncake.startWorker at hs
  split at hs
  · cases hs
  · rename_i peer₀ rest hqueue
    obtain ⟨_, ⟨⟩⟩ := ite_none_right_eq_some.mp hs
    refine ⟨h.active, fun peer hp => ?_⟩
    rcases h.handled peer hp with hstart | hexec | ⟨hd, hmem, hpeer⟩
    · exact .inl hstart
    · rw [hqueue] at hexec
      rcases mem_cons.mp hexec with rfl | hexec
      · exact .inr (.inr ⟨_, mem_cons_self, rfl⟩)
      · exact .inr (.inl hexec)
    · exact .inr (.inr ⟨hd, mem_cons_of_mem _ hmem, hpeer⟩)

theorem Served.stepHandler {i : Nat} {hd : Handler} {ok : Bool} (hi : s.handlers[i]? = some hd) :
    Served (stepHandler cfg { s with handlers := s.handlers.eraseIdx i } hd ok) := by
  obtain ⟨hlt, hget⟩ := List.getElem?_eq_some_iff.mp hi
  have hperm : (hd :: s.handlers.eraseIdx i).Perm s.handlers := hget ▸ getElem_cons_eraseIdx_perm hlt
  -- the other handlers, and this one under any new stage, serve as before
  have hkeep : ∀ peer ∈ s.activePeerRequestHandlers, ∀ h' : Handler, h'.peer = hd.peer →
      s.submitter = .start peer ∨ peer ∈ s.executorQueue ∨
        ∃ x ∈ h' :: s.handlers.eraseIdx i, x.peer = peer := by
    intro peer hp h' hpeer'
    rcases h.handled peer hp with hstart | hexec | ⟨x, hx, hpeer⟩
    · exact .inl hstart
    · exact .inr (.inl hexec)
    · rcases mem_cons.mp (hperm.mem_iff.mpr hx) with rfl | hx
      · exact .inr (.inr ⟨h', mem_cons_self, hpeer'.trans hpeer⟩)
      · exact .inr (.inr ⟨x, mem_cons_of_mem _ hx, hpeer⟩)
  unfold Mooncake.stepHandler
  split
  · split
    · refine ⟨fun peer hne => ?_, fun peer hp => ?_⟩
      · have hget' : (s.peerRequestQueues.erase hd.peer).getD peer [] =
            if hd.peer = peer then [] else s.peerRequestQueues.getD peer [] := by
          rw [Dict.getD, get?_erase]
          split <;> rfl
        change (s.peerRequestQueues.erase hd.peer).getD peer [] ≠ [] at hne
        rw [hget'] at hne
        split at hne
        · exact absurd rfl hne
        · rename_i hpeer
          exact mem_erase.mpr ⟨.symm hpeer, h.active peer hne⟩
      · obtain ⟨hne, hp⟩ := mem_erase.mp hp
        refine (hkeep peer hp hd rfl).imp_right (.imp_right ?_)
        rintro ⟨x, hx, hpeer⟩
        rcases mem_cons.mp hx with rfl | hx
        · exact absurd hpeer.symm hne
        · exact ⟨x, hx, hpeer⟩
    · rename_i t rest hqueue
      split
      · refine ⟨fun peer hne => ?_, fun peer hp => hkeep peer hp _ rfl⟩
        rw [getD_set_queue] at hne
        split at hne
        · rename_i hpeer
          exact h.active peer (by rw [← hpeer, hqueue]; exact cons_ne_nil _ _)
        · exact h.active peer hne
      · exact ⟨h.active, fun peer hp => hkeep peer hp _ rfl⟩
  · refine ⟨h.active, fun peer hp => ?_⟩
    rcases hkeep peer hp hd rfl with hstart | hexec | ⟨x, hx, hpeer⟩
    · exact .inl hstart
    · exact .inr (.inl (mem_append_left _ hexec))
    · rcases mem_cons.mp hx with rfl | hx
      · exact .inr (.inl (by simp [hpeer]))
      · exact .inr (.inr ⟨x, hx, hpeer⟩)
  · exact ⟨h.active, fun peer hp => hkeep peer hp _ rfl⟩

theorem Served.step {a : Action} (hs : step cfg s a = some s') : Served s' := by
  cases a with
  | startLoadKv l =>
    cases hs
    exact ⟨h.active, h.handled⟩
  | submit => exact h.submit hs
  | startWorker => exact h.startWorker hs
  | handler i ok =>
    obtain ⟨hd, hi, rfl⟩ := map_eq_some_iff.mp hs
    exact h.stepHandler hi

omit h in
def Quiescent (cfg : Config) (s : State) : Prop := submit s = none ∧ startWorker cfg s = none ∧ s.handlers = []

theorem Served.quiescent (hw : 0 < cfg.maxWorkers) (hq : Quiescent cfg s) :
    s.requestQueue = [] ∧ ∀ p : Places Nat, p.total s = 0 := by
  obtain ⟨hsubmit, hstart, hhandlers⟩ := hq
  have hexec : s.executorQueue = [] := by
    unfold Mooncake.startWorker at hstart
    split at hstart
    · assumption
    · rw [hhandlers, if_pos (by simpa using hw)] at hstart
      cases hstart
  obtain ⟨hidle, hqueue⟩ : s.submitter = .idle ∧ s.requestQueue = [] := by
    unfold Mooncake.submit at hsubmit
    split at hsubmit
    · rename_i hidle
      split at hsubmit
      · exact ⟨hidle, by assumption⟩
      · cases hsubmit
    · split at hsubmit <;> cases hsubmit
    · cases hsubmit
  have hqueues : ∀ peer l, s.peerRequestQueues.get? peer = some l → l = [] := by
    intro peer l hl
    by_contra hne
    have hactive := h.active peer (by rwa [Dict.getD, hl])
    rcases h.handled peer hactive with hs | hs | ⟨x, hx, -⟩
    · rw [hidle] at hs
      cases hs
    · rw [hexec] at hs
      cases hs
    · rw [hhandlers] at hx
      cases hx
  refine ⟨hqueue, fun p => ?_⟩
  have hsum : s.peerRequestQueues.sumBy (fun l => (l.map p.queued).sum) = 0 :=
    sumBy_eq_zero _ fun peer l hl => by rw [hqueues peer l hl]; rfl
  rw [Places.total, hidle, hhandlers, hsum]
  rfl

end Served

/-! ## The threads come to rest -/

def Work.fuel (cfg : Config) : Work → Nat
  | .check t => 11 + (freePorts t).length + (t.readyGroups cfg).length
  | .pull t => 10 + (freePorts t).length + (t.readyGroups cfg).length
  | .reformat t targets => 9 + (freePorts t).length + targets.length
  | .fail t => 8 + (freePorts t).length
  | .done t => 7 + (freePorts t).length
  | .report t => 6 + (freePorts t).length
  | .forget t => 5 + (freePorts t).length
  | .clear t => 4 + (freePorts t).length
  | .free t => 3 + (freePorts t).length
  | .freeing _ ports => 2 + ports.length
  | .signal _ => 1

theorem length_reformats {t : Task} {targets : List Target} (h : t.reformats cfg = .ok targets) :
    targets.length ≤ (t.readyGroups cfg).length := by
  unfold Task.reformats at h
  dsimp only at h
  split_ifs at h
  all_goals
    cases h
    rw [length_map]
    exact length_filter_le _ _

theorem Handled.fuel {w : Work} {w' : Option Work} {sh sh' : Shared} (h : Handled cfg sh w w' sh') :
    (w'.map (Work.fuel cfg)).getD 0 < w.fuel cfg := by
  cases h with
  | pulled t h =>
    have := length_reformats h
    simp only [map_some, getD_some, Work.fuel]
    omega
  | done t =>
    simp only [map_some, getD_some]
    split <;> simp only [Work.fuel] <;> omega
  | signal t => exact Nat.one_pos
  | _ =>
    simp only [map_some, getD_some, Work.fuel, length_cons, length_nil]
    omega

def Task.fuel (cfg : Config) (t : Task) : Nat := (Work.check t).fuel cfg + 4

def Handler.fuel (cfg : Config) (h : Handler) : Nat :=
  match h.stage with
  | .poll => 1 + 3 * h.requestsHandled
  | .resubmit => 3
  | .busy w => 1 + 3 * h.requestsHandled + w.fuel cfg

def Submitter.fuel (cfg : Config) : Submitter → Nat
  | .idle => 0
  | .enqueue t => t.fuel cfg + 4
  | .start _ => 3

def State.fuel (cfg : Config) (s : State) : Nat :=
  (s.requestQueue.map fun t => t.fuel cfg + 5).sum + s.submitter.fuel cfg +
    s.peerRequestQueues.sumBy (fun l => (l.map (Task.fuel cfg)).sum) + 2 * s.executorQueue.length +
    (s.handlers.map (Handler.fuel cfg)).sum

section Fuel

variable {s s' : State}

theorem fuel_submit (h : submit s = some s') : s'.fuel cfg < s.fuel cfg := by
  unfold submit at h
  split at h
  · rename_i hsub
    split at h
    · cases h
    · rename_i t rest hqueue
      cases h
      simp only [State.fuel, hsub, hqueue, Submitter.fuel, List.map_cons, List.sum_cons]
      omega
  · rename_i t hsub
    split at h
    all_goals
      cases h
      simp only [State.fuel, hsub, Submitter.fuel, sumBy_enqueue, weigh]
      omega
  · rename_i peer hsub
    cases h
    simp only [State.fuel, hsub, Submitter.fuel, length_append, length_singleton]
    omega

theorem fuel_startWorker (h : startWorker cfg s = some s') : s'.fuel cfg < s.fuel cfg := by
  unfold startWorker at h
  split at h
  · cases h
  · rename_i peer rest hqueue
    split at h
    · cases h
      simp only [State.fuel, hqueue, List.map_cons, List.sum_cons, Handler.fuel, length_cons]
      omega
    · cases h

theorem fuel_stepHandler {h : Handler} {i : Nat} {ok : Bool} (hi : s.handlers[i]? = some h) :
    (stepHandler cfg { s with handlers := s.handlers.eraseIdx i } h ok).fuel cfg < s.fuel cfg := by
  have hsum : (s.handlers.map (fuel cfg)).sum =
      h.fuel cfg + ((s.handlers.eraseIdx i).map (fuel cfg)).sum := sum_map_eraseIdx _ hi
  unfold stepHandler
  split
  · rename_i hstage
    have hfuel : h.fuel cfg = 1 + 3 * h.requestsHandled := by simp only [fuel, hstage]
    dsimp only
    split
    · rename_i hempty
      simp only [State.fuel, State.retire, hsum, sumBy_erase_queue _ _ _ hempty, weigh]
      omega
    · rename_i t rest hqueue
      split
      · have htask : t.fuel cfg = (Work.check t).fuel cfg + 4 := rfl
        simp only [State.fuel, hsum, sumBy_dequeue _ _ _ hqueue, weigh, List.map_cons, List.sum_cons, hfuel, htask]
        simp only [fuel]
        omega
      · rename_i hmany
        simp only [maxRequestsPerPeerHandler] at hmany
        simp only [State.fuel, hsum, hfuel, List.map_cons, List.sum_cons]
        simp only [fuel]
        omega
  · rename_i hstage
    have hfuel : h.fuel cfg = 3 := by simp only [fuel, hstage]
    simp only [State.fuel, hsum, hfuel, length_append, length_singleton]
    omega
  · rename_i w hstage
    have hfuel : h.fuel cfg = 1 + 3 * h.requestsHandled + w.fuel cfg := by simp only [fuel, hstage]
    have hlt := (w.handled cfg s.shared ok).fuel
    simp only [State.fuel, hsum, hfuel, List.map_cons, List.sum_cons]
    cases hw : (w.handle cfg s.shared ok).1 with
    | none =>
      simp only [map_none, getD_none, fuel]
      omega
    | some w' =>
      rw [hw] at hlt
      simp only [map_some, getD_some] at hlt
      simp only [map_some, getD_some, fuel]
      omega

def Internal (_ : State) : Action → Prop
  | .startLoadKv _ => False
  | _ => True

theorem fuel_step {a : Action} (ha : Internal s a) (h : step cfg s a = some s') : s'.fuel cfg < s.fuel cfg := by
  cases a with
  | startLoadKv l => exact ha.elim
  | submit => exact fuel_submit h
  | startWorker => exact fuel_startWorker h
  | handler i ok =>
    obtain ⟨hd, hi, rfl⟩ := map_eq_some_iff.mp h
    exact fuel_stepHandler hi

theorem length_le_fuel {acts : List Action} (hrun : Machine.run (step cfg) s acts = some s')
    (hacts : Machine.RunOk (step cfg) Internal s acts) : acts.length ≤ s.fuel cfg := by
  induction acts generalizing s with
  | nil => exact Nat.zero_le _
  | cons a acts ih =>
    obtain ⟨u, hu, hrest⟩ := bind_eq_some_iff.mp hrun
    have hlt := fuel_step hacts.1 hu
    have := ih hrest (hacts.2 u hu)
    simp only [length_cons]
    omega

end Fuel

end VllmAscend.KvTransfer.Mooncake
