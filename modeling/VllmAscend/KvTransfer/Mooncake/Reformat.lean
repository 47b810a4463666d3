import Mathlib.Algebra.Order.BigOperators.Group.Multiset
import VllmAscend.KvTransfer.Mooncake.TaskCounts
import VllmAscend.Lib.Pieces

/-!
# Head re-layout of pulled blocks

Several tasks write into the same blocks, each its own heads, and the task with the last offset transposes the
blocks right after its own transfer. Nothing makes it wait for the other tasks.
-/

namespace VllmAscend.KvTransfer.Mooncake

open List Nat Mooncake.Task Places

variable {cfg : Config}

structure PullGeometry where
  prefillTpSize : Nat
  prefillPpSize : Nat
  tpNumNeedPulls : Nat
  remoteBasePort : Nat
  groupIds : List Nat

namespace PullGeometry

variable (g : PullGeometry)

def makeGroupPulls (remoteTpOffset prefillPpRank : Nat) : List GroupPull :=
  g.groupIds.map fun groupId =>
    { groupId := groupId
      remoteTpOffset := remoteTpOffset
      numGroupPulls := g.tpNumNeedPulls
      prefillPpRank := prefillPpRank
      isGroupTransferEnd := remoteTpOffset + 1 = g.tpNumNeedPulls }

def prefillPpRank (port : Nat) : Nat :=
  (port - g.remoteBasePort) % (g.prefillTpSize * g.prefillPpSize) / g.prefillTpSize

def shardPulls (pcpDcpRank : Nat) (remotePorts : List Nat) : Option (List (List GroupPull)) :=
  match remotePorts with
  | [port] => some [g.makeGroupPulls (pcpDcpRank % g.tpNumNeedPulls) (g.prefillPpRank port)]
  | _ =>
    if remotePorts.length % g.tpNumNeedPulls = 0 then
      some (remotePorts.zipIdx.map fun p => g.makeGroupPulls (p.2 % g.tpNumNeedPulls) (g.prefillPpRank p.1))
    else none

end PullGeometry

/-! ## Pulls and targets -/

namespace Task

def gqaTargets (cfg : Config) (t : Task) : List Target :=
  ((t.readyGroups cfg).filter fun p => p.numGroupPulls > 1).map t.target

def PullsInto (cfg : Config) (t : Task) (x : Target) : Prop := ∃ p ∈ t.transfers cfg, t.target p = x

instance (cfg : Config) (t : Task) (x : Target) : Decidable (t.PullsInto cfg x) :=
  inferInstanceAs (Decidable (∃ _ ∈ _, _))

variable {t : Task}

theorem PullsInto.requestId {x : Target} (h : t.PullsInto cfg x) : x.requestId = t.requestId := by
  obtain ⟨p, -, rfl⟩ := h
  rfl

theorem requestId_of_mem_gqaTargets {x : Target} (h : x ∈ t.gqaTargets cfg) : x.requestId = t.requestId := by
  obtain ⟨p, -, rfl⟩ := mem_map.mp h
  rfl

theorem reformats_ok {targets : List Target} (h : t.reformats cfg = .ok targets) : targets = t.gqaTargets cfg := by
  unfold reformats at h
  dsimp only at h
  split_ifs at h
  all_goals
    cases h
    rfl

theorem gqaTargets_of_transfers (h : t.transfers cfg = []) : t.gqaTargets cfg = [] := by
  simp [gqaTargets, readyGroups, h]

theorem gqaTargets_of_numLocalBlocks (h : t.numLocalBlocks = 0) : t.gqaTargets cfg = [] := by
  refine gqaTargets_of_transfers (filter_eq_nil_iff.mpr fun p _ hp => ?_)
  simp only [ne_eq, decide_not, Bool.and_eq_true, Bool.not_eq_true', decide_eq_false_iff_not] at hp
  have hall : ∀ l ∈ t.localBlockIds, l.length = 0 := by
    intro l hl
    exact sum_eq_zero_iff.mp h _ (mem_map_of_mem hl)
  apply hp.2
  rw [getD_eq_getElem?_getD]
  cases hget : t.localBlockIds[cfg.kvCacheGroupId p.groupId]? with
  | none => rfl
  | some l => exact hall l (mem_of_getElem? hget)

end Task

/-! ## Requests without a hybrid model -/

namespace Load

theorem mem_tasks {l : Load} {t : Task} : t ∈ l.tasks ↔ ∃ i shard j port,
    l.shards[i]? = some shard ∧ shard.remotePorts[j]? = some port ∧ t = l.task (shard, i) (port, j) := by
  constructor
  · intro ht
    obtain ⟨⟨shard, i⟩, hshard, ht⟩ := mem_flatMap.mp ht
    obtain ⟨⟨port, j⟩, hport, rfl⟩ := mem_map.mp ht
    exact ⟨i, shard, j, port, mem_zipIdx_iff_getElem?.mp hshard, mem_zipIdx_iff_getElem?.mp hport, rfl⟩
  · rintro ⟨i, shard, j, port, hshard, hport, rfl⟩
    exact mem_flatMap.mpr ⟨(shard, i), mem_zipIdx_iff_getElem?.mpr hshard,
      mem_map_of_mem (mem_zipIdx_iff_getElem?.mpr hport)⟩

theorem nodup_tasks (l : Load) : l.tasks.Nodup := by
  refine nodup_flatMap.mpr ⟨fun shard _ => ?_, ?_⟩
  · refine pairwise_map.mpr ((pairwise_zipIdx shard.1.remotePorts).imp ?_)
    intro a b hlt heq
    exact hlt.ne (congrArg portIdx heq)
  · refine (pairwise_zipIdx l.shards).imp ?_
    intro a b hlt t hta htb
    obtain ⟨p, -, rfl⟩ := mem_map.mp hta
    obtain ⟨q, -, heq⟩ := mem_map.mp htb
    exact hlt.ne (congrArg shard heq).symm

/-- The pulls are those of `_get_group_pulls_metadata`, and the ports of every shard come in
pipeline stages of `tp_num_need_pulls` each. -/
structure FromMetadata (g : PullGeometry) (l : Load) : Prop where
  groupIds : g.groupIds.Nodup
  pulls : ∀ (i : Nat) (shard : Shard), l.shards[i]? = some shard →
    g.shardPulls i (shard.remotePorts.map fun port => port.1.2) =
      some (shard.remotePorts.map Prod.snd)
  stages : ∀ shard ∈ l.shards, g.tpNumNeedPulls ∣ shard.remotePorts.length ∧
    ∀ (j : Nat) (port : Peer × List GroupPull), shard.remotePorts[j]? = some port →
      g.prefillPpRank port.1.2 = j / g.tpNumNeedPulls

namespace FromMetadata

variable {g : PullGeometry} {l : Load} (h : l.FromMetadata g) {i j : Nat} {shard : Shard}
  {port : Peer × List GroupPull}

include h

section

variable (hshard : l.shards[i]? = some shard) (hport : shard.remotePorts[j]? = some port)

include hshard hport

theorem pulls_eq : port.2 = g.makeGroupPulls (j % g.tpNumNeedPulls) (j / g.tpNumNeedPulls) := by
  have hpulls := h.pulls i shard hshard
  obtain ⟨hdvd, hstage⟩ := h.stages shard (mem_of_getElem? hshard)
  have hpp := hstage j port hport
  unfold PullGeometry.shardPulls at hpulls
  split at hpulls
  · rename_i p hsingle
    obtain ⟨q, hq, rfl⟩ := map_eq_singleton_iff.mp hsingle
    rw [hq] at hport hpulls hdvd
    have hone : g.tpNumNeedPulls = 1 := dvd_one.mp hdvd
    obtain ⟨hj, rfl⟩ := List.getElem?_eq_some_iff.mp hport
    obtain rfl : j = 0 := by simpa using hj
    simp only [map_cons, map_nil, Option.some.injEq, cons.injEq, and_true] at hpulls
    simp only [getElem_cons_zero] at hpp ⊢
    rw [← hpulls, hpp, hone, mod_one]
  · split at hpulls
    · have hget := congrArg (fun m => m[j]?) (Option.some.inj hpulls)
      simp only [getElem?_map, getElem?_zipIdx, hport, Option.map_some, zero_add, Option.some.injEq] at hget
      rw [← hget, hpp]
    · cases hpulls

theorem mem_gqaTargets {x : Target} (hx : x ∈ (l.task (shard, i) (port, j)).gqaTargets cfg) :
    x.shard = i ∧ x.prefillPpRank = j / g.tpNumNeedPulls ∧ x.groupId ∈ g.groupIds ∧
      j % g.tpNumNeedPulls + 1 = g.tpNumNeedPulls ∧ cfg.hasLayers x.groupId x.prefillPpRank ∧
      (shard.localBlockIds.getD (cfg.kvCacheGroupId x.groupId) []).length ≠ 0 := by
  obtain ⟨p, hp, rfl⟩ := mem_map.mp hx
  obtain ⟨hp, -⟩ := mem_filter.mp hp
  obtain ⟨hp, hend⟩ := mem_filter.mp hp
  obtain ⟨hp, htransfers⟩ := mem_filter.mp hp
  change p ∈ port.2 at hp
  rw [h.pulls_eq hshard hport] at hp
  obtain ⟨groupId, hgroup, rfl⟩ := mem_map.mp hp
  simp only [Bool.and_eq_true, decide_eq_true_eq] at hend htransfers
  exact ⟨rfl, rfl, hgroup, hend.2, htransfers⟩

end

theorem nodup_gqaTargets (cfg : Config) : (l.tasks.flatMap (gqaTargets cfg)).Nodup := by
  refine nodup_flatMap.mpr ⟨fun t ht => ?_, ?_⟩
  · obtain ⟨i, shard, j, port, hshard, hport, rfl⟩ := mem_tasks.mp ht
    -- within a task the groups differ
    have hgroups : (port.2.map GroupPull.groupId).Nodup := by
      rw [h.pulls_eq hshard hport, PullGeometry.makeGroupPulls, map_map]
      exact (map_id' g.groupIds).symm ▸ h.groupIds
    refine .of_map Target.groupId ?_
    rw [gqaTargets, map_map]
    exact hgroups.sublist ((filter_sublist.trans (filter_sublist.trans filter_sublist)).map _)
  · refine l.nodup_tasks.pairwise_of_forall_ne ?_
    intro t ht t' ht' hne x hx hx'
    obtain ⟨i, shard, j, port, hshard, hport, rfl⟩ := mem_tasks.mp ht
    obtain ⟨i', shard', j', port', hshard', hport', rfl⟩ := mem_tasks.mp ht'
    obtain ⟨hi, hpp, -, hend, -⟩ := h.mem_gqaTargets hshard hport hx
    obtain ⟨hi', hpp', -, hend', -⟩ := h.mem_gqaTargets hshard' hport' hx'
    apply hne
    -- same shard, same stage, both the last offset: the same port
    obtain rfl : i = i' := hi.symm.trans hi'
    obtain rfl : j = j' := by
      rw [← div_add_mod j g.tpNumNeedPulls, ← div_add_mod j' g.tpNumNeedPulls, ← hpp, ← hpp']
      omega
    cases hshard.symm.trans hshard'
    cases hport.symm.trans hport'
    rfl

theorem exists_pull {t : Task} (ht : t ∈ l.tasks)
    {x : Target} (hx : x ∈ t.gqaTargets cfg) {offset : Nat} (hoffset : offset < g.tpNumNeedPulls) :
    ∃ t' ∈ l.tasks, ∃ p ∈ t'.transfers cfg, t'.target p = x ∧ p.remoteTpOffset = offset := by
  obtain ⟨i, shard, j, port, hshard, hport, rfl⟩ := mem_tasks.mp ht
  obtain ⟨hi, hpp, hgroup, hend, hlayers, hblocks⟩ := h.mem_gqaTargets hshard hport hx
  have hreq : x.requestId = l.requestId := requestId_of_mem_gqaTargets hx
  have hjlt : j < shard.remotePorts.length := (List.getElem?_eq_some_iff.mp hport).1
  have hdiv := div_add_mod j g.tpNumNeedPulls
  -- the port of the same stage at the offset
  have hj' : offset + g.tpNumNeedPulls * (j / g.tpNumNeedPulls) < shard.remotePorts.length := by omega
  have hport' := getElem?_eq_getElem hj'
  have hpulls := h.pulls_eq hshard hport'
  rw [add_mul_mod_self_left, mod_eq_of_lt hoffset, add_mul_div_left _ _ (by omega), div_eq_of_lt hoffset,
    zero_add] at hpulls
  refine ⟨_, mem_tasks.mpr ⟨i, shard, _, _, hshard, hport', rfl⟩,
    ⟨x.groupId, offset, g.tpNumNeedPulls, x.prefillPpRank, decide (offset + 1 = g.tpNumNeedPulls)⟩,
    mem_filter.mpr ⟨?_, by simp only [Bool.and_eq_true, decide_eq_true_eq]; exact ⟨hlayers, hblocks⟩⟩,
    ?_, rfl⟩
  · change _ ∈ Prod.snd _
    rw [hpulls, ← hpp]
    exact mem_map_of_mem hgroup
  · cases x
    subst hi hreq
    rfl

end FromMetadata

end Load

def AllPulled (cfg : Config) (loaded : List Task) (log : List Event) (x : Target) : Prop :=
  ∀ t ∈ loaded, t.PullsInto cfg x → .pulled t ∈ log

def Ordered (cfg : Config) (loaded : List Task) : List Event → Prop
  | [] => True
  | e :: log =>
    (∀ x, e = .reformatted x → (∃ t ∈ loaded, t.requestId = x.requestId) ∧ AllPulled cfg loaded log x) ∧
      Ordered cfg loaded log

open Shared

def FailedIn (log : List Event) (r : ReqId) : Prop := ∃ t, .failed t ∈ log ∧ t.requestId = r

theorem Ordered.split {loaded : List Task} {log post pre : List Event} {x : Target}
    (h : Ordered cfg loaded log) (hlog : log = post ++ .reformatted x :: pre) : AllPulled cfg loaded pre x := by
  induction post generalizing log with
  | nil =>
    subst hlog
    exact (h.1 x rfl).2
  | cons e post ih =>
    subst hlog
    exact ih h.2 rfl

/-! ## Tasks in flight -/

def flight : Places (Multiset Work) where
  queued t := {.check t}
  working w := {w}
  check _ := rfl

theorem Places.total_eq_sum {M : Type} [AddCommMonoid M] (p : Places M) (s : State) :
    p.total s = ((flight.total s).map p.working).sum := by
  have hqueue : ∀ l : List Task, (l.map p.queued).sum = (((l.map flight.queued).sum).map p.working).sum := by
    intro l
    induction l with
    | nil => rfl
    | cons t l ih =>
      simp only [map_cons, sum_cons, Multiset.map_add, Multiset.sum_add, ih]
      simp [flight, p.check]
  simp only [total, Multiset.map_add, Multiset.sum_add]
  congr 1
  · congr 1
    · cases s.submitter <;> simp [submitter, flight, p.check]
    · unfold Dict.sumBy
      induction s.peerRequestQueues.entries with
      | nil => rfl
      | cons e entries ih =>
        simp only [map_cons, sum_cons, Multiset.map_add, Multiset.sum_add]
        exact congrArg₂ (· + ·) (hqueue e.2) ih
  · unfold handlers
    induction s.handlers with
    | nil => rfl
    | cons h l ih =>
      simp only [map_cons, sum_cons, Multiset.map_add, Multiset.sum_add, ih]
      congr 1
      cases h.stage <;> simp [stage, flight]

def Work.task : Work → Task
  | .check t | .fail t | .pull t | .reformat t _ | .done t | .report t | .forget t | .clear t
  | .free t | .freeing t _ | .signal t => t

/-! ## Accounting -/

def dueOf (cfg : Config) (x : Target) : Places Nat where
  queued t := (t.gqaTargets cfg).count x
  working
    | .check t | .pull t => (t.gqaTargets cfg).count x
    | .reformat _ targets => targets.count x
    | .fail _ | .done _ | .report _ | .forget _ | .clear _ | .free _ | .freeing _ _ | .signal _ => 0
  check _ := rfl

def endsIn (cfg : Config) (x : Target) (l : List Task) : Nat := (l.map fun t => (t.gqaTargets cfg).count x).sum

theorem endsIn_append (x : Target) (l l' : List Task) :
    endsIn cfg x (l ++ l') = endsIn cfg x l + endsIn cfg x l' := by
  simp [endsIn]

theorem endsIn_eq_count (x : Target) (l : List Task) :
    endsIn cfg x l = (l.flatMap (gqaTargets cfg)).count x := by
  rw [count_flatMap]
  rfl

/-! ## What one step records -/

section Handle

variable {w : Work} {w' : Option Work} {sh sh' : Shared} (h : Handled cfg sh w w' sh')

include h

theorem Handled.task {w₁ : Work} (hw' : w' = some w₁) : w₁.task = w.task := by
  cases h with
  | done t => split at hw' <;> (cases hw'; rfl)
  | signal t => cases hw'
  | _ =>
    cases hw'
    rfl

theorem Handled.due (x : Target)
    (htargets : ∀ t targets, w = .reformat t targets → ∀ y ∈ targets, y.requestId = t.requestId)
    (hfailed : ∀ r ∈ sh.failedRecvRequests, FailedIn sh.log r) :
    sh'.log.count (.reformatted x) + (w'.map (dueOf cfg x).working).getD 0 ≤
      sh.log.count (.reformatted x) + (dueOf cfg x).working w ∧
    (¬ FailedIn sh.log x.requestId → (∀ t, w' = some (.fail t) → t.requestId ≠ x.requestId) →
      sh'.log.count (.reformatted x) + (w'.map (dueOf cfg x).working).getD 0 =
        sh.log.count (.reformatted x) + (dueOf cfg x).working w) := by
  have hlost : ∀ (t : Task) (l : List Target), (∀ y ∈ l, y.requestId = t.requestId) →
      t.requestId ≠ x.requestId → l.count x = 0 := fun t l hl hne =>
    count_eq_zero.mpr fun hx => hne (hl x hx).symm
  have hgqa : ∀ t : Task, t.requestId ≠ x.requestId → (t.gqaTargets cfg).count x = 0 := fun t =>
    hlost t _ fun y hy => requestId_of_mem_gqaTargets hy
  cases h with
  | refuse t hmem =>
    refine ⟨by simp [dueOf], fun hnot _ => ?_⟩
    simp [dueOf, hgqa t fun he => hnot (he ▸ hfailed _ hmem)]
  | empty t h =>
    have hnone : t.gqaTargets cfg = [] := h.elim gqaTargets_of_numLocalBlocks gqaTargets_of_transfers
    simp [dueOf, hnone]
  | pulled t h =>
    rw [reformats_ok h]
    simp [dueOf, record]
  | unlike t | lost t =>
    refine ⟨by simp [dueOf, record], fun _ hnot => ?_⟩
    simp [dueOf, record, hgqa t (hnot t rfl)]
  | reformatted t y ys =>
    simp only [dueOf, record, Option.map_some, Option.getD_some, count_cons, beq_iff_eq, Event.reformatted.injEq]
    omega
  | broken t xs =>
    refine ⟨by simp [dueOf], fun _ hnot => ?_⟩
    simp [dueOf, hlost t _ (htargets t _ rfl) (hnot t rfl)]
  | done t =>
    obtain ⟨-, hlog⟩ := markRequestTaskDone_keeps sh t
    split <;> simp [dueOf, record, hlog]
  | _ => simp [dueOf, record, markFailedRecvRequest, clearFailedRecvRequest]

theorem Handled.log : sh'.log = sh.log ∨ ∃ e, sh'.log = e :: sh.log ∧
    ∀ x, e = .reformatted x → ∃ t xs, w = .reformat t (x :: xs) := by
  cases h with
  | reformatted t x xs =>
    refine .inr ⟨_, rfl, ?_⟩
    rintro _ ⟨⟩
    exact ⟨t, xs, rfl⟩
  | done t => exact .inr ⟨_, congrArg (cons _) (markRequestTaskDone_keeps sh t).2, by simp⟩
  | fail t | pulled t | unlike t | report t | freeing t port ports | signal t => exact .inr ⟨_, rfl, by simp⟩
  | _ => exact .inl rfl

theorem Handled.mem_log {e : Event} (he : e ∈ sh.log) : e ∈ sh'.log := by
  rcases h.log with heq | ⟨e', heq, -⟩
  · rwa [heq]
  · rw [heq]
    exact mem_cons_of_mem _ he

theorem Handled.reformat {t : Task} {targets : List Target} (hw' : w' = some (.reformat t targets)) :
    (∃ x, w = .reformat t (x :: targets)) ∨ w = .pull t ∧ targets = t.gqaTargets cfg ∧ .pulled t ∈ sh'.log := by
  cases h with
  | pulled t h =>
    cases hw'
    exact .inr ⟨rfl, reformats_ok h, mem_cons_self⟩
  | reformatted t x xs =>
    cases hw'
    exact .inl ⟨x, rfl⟩
  | done t => split at hw' <;> cases hw'
  | _ => cases hw'

theorem Handled.failedIn (hin : ∀ r ∈ sh.failedRecvRequests, FailedIn sh.log r) :
    ∀ r ∈ sh'.failedRecvRequests, FailedIn sh'.log r := by
  intro r hr
  by_cases hmem : r ∈ sh.failedRecvRequests
  · obtain ⟨t, ht, hreq⟩ := hin r hmem
    exact ⟨t, h.mem_log ht, hreq⟩
  · cases h with
    | fail t =>
      rcases Finset.mem_insert.mp hr with rfl | hr
      · exact ⟨t, mem_cons_self, rfl⟩
      · exact absurd hr hmem
    | clear t => exact absurd (Finset.mem_of_mem_erase hr) hmem
    | done t => exact absurd ((markRequestTaskDone_keeps sh t).1 ▸ hr) hmem
    | _ => exact absurd hr hmem

end Handle

/-! ## The invariant -/

/-- The condition on a step under which no re-layout is early: when a task that is to transpose
blocks starts its transfer, the other transfers into these blocks are over. -/
def ReformatOk (cfg : Config) (s : State) : Action → Prop
  | .startLoadKv l => LoadOk s (.startLoadKv l) ∧ (l.tasks.flatMap (Task.gqaTargets cfg)).Nodup
  | .handler i _ =>
    match (s.handlers[i]?).map Handler.stage with
    | some (.busy (.pull t)) => ∀ x ∈ t.gqaTargets cfg, ∀ t' ∈ s.loaded, t' ≠ t →
        t'.PullsInto cfg x → .pulled t' ∈ s.shared.log
    | _ => True
  | _ => True

instance (cfg : Config) (s : State) : (a : Action) → Decidable (ReformatOk cfg s a)
  | .startLoadKv _ => inferInstanceAs (Decidable (_ ∧ _))
  | .submit | .startWorker => isTrue trivial
  | .handler i ok => by
    unfold ReformatOk
    dsimp only
    split <;> infer_instance

structure Relayout (cfg : Config) (s : State) : Prop where
  queued : ∀ t ∈ s.requestQueue, t ∈ s.loaded
  working : ∀ w ∈ flight.total s, w.task ∈ s.loaded
  ready : ∀ t targets, .reformat t targets ∈ flight.total s → ∀ x ∈ targets,
    x.requestId = t.requestId ∧ AllPulled cfg s.loaded s.shared.log x
  ordered : Ordered cfg s.loaded s.shared.log
  failed : ∀ r ∈ s.shared.failedRecvRequests, FailedIn s.shared.log r
  once : ∀ x, endsIn cfg x s.loaded ≤ 1
  atMost : ∀ x, s.shared.log.count (.reformatted x) + (dueOf cfg x).total s +
    endsIn cfg x s.requestQueue ≤ endsIn cfg x s.loaded
  exact : ∀ x, ¬ FailedIn s.shared.log x.requestId →
    (∀ t, .fail t ∈ flight.total s → t.requestId ≠ x.requestId) →
    s.shared.log.count (.reformatted x) + (dueOf cfg x).total s + endsIn cfg x s.requestQueue =
      endsIn cfg x s.loaded

section Steps

variable {s s' : State}

variable {l : Load}

theorem AllPulled.load {loaded : List Task} {log : List Event} {x : Target}
    (h : AllPulled cfg loaded log x) (hx : ∃ t ∈ loaded, t.requestId = x.requestId)
    (hfresh : ∀ t ∈ loaded, t.requestId ≠ l.requestId) : AllPulled cfg (loaded ++ l.tasks) log x := by
  intro t ht hpulls
  rcases mem_append.mp ht with ht | ht
  · exact h t ht hpulls
  · obtain ⟨t', ht', hreq⟩ := hx
    have : t'.requestId = l.requestId := hreq.trans (hpulls.requestId.trans (l.requestId_of_mem t ht))
    exact absurd this (hfresh t' ht')

theorem Ordered.load {loaded : List Task} {log : List Event}
    (h : Ordered cfg loaded log) (hfresh : ∀ t ∈ loaded, t.requestId ≠ l.requestId) :
    Ordered cfg (loaded ++ l.tasks) log := by
  induction log with
  | nil => trivial
  | cons e log ih =>
    refine ⟨fun x hx => ?_, ih h.2⟩
    obtain ⟨⟨t, ht, hreq⟩, hall⟩ := h.1 x hx
    exact ⟨⟨t, mem_append_left _ ht, hreq⟩, hall.load ⟨t, ht, hreq⟩ hfresh⟩

theorem endsIn_tasks_le_one (h : (l.tasks.flatMap (gqaTargets cfg)).Nodup)
    (x : Target) : endsIn cfg x l.tasks ≤ 1 := by
  rw [endsIn_eq_count]
  exact nodup_iff_count_le_one.mp h x

theorem endsIn_eq_zero {x : Target} {l : List Task} (h : ∀ t ∈ l, t.requestId ≠ x.requestId) :
    endsIn cfg x l = 0 := by
  rw [endsIn_eq_count]
  refine count_eq_zero.mpr fun hx => ?_
  obtain ⟨t, ht, hx⟩ := mem_flatMap.mp hx
  exact h t ht (requestId_of_mem_gqaTargets hx).symm

section

variable (h : Relayout cfg s)

include h

theorem Relayout.load (hok : ReformatOk cfg s (.startLoadKv l)) : Relayout cfg (startLoadKv s l) := by
  have hfresh : ∀ t ∈ s.loaded, t.requestId ≠ l.requestId := countOf_eq_zero.mp hok.1.1
  constructor
  · intro t ht
    exact (mem_append.mp ht).elim (fun ht => mem_append_left _ (h.queued t ht)) (mem_append_right _ ·)
  · exact fun w hw => mem_append_left _ (h.working w hw)
  · intro t targets hw x hx
    obtain ⟨hreq, hall⟩ := h.ready t targets hw x hx
    exact ⟨hreq, hall.load ⟨t, h.working _ hw, hreq.symm⟩ hfresh⟩
  · exact h.ordered.load hfresh
  · exact h.failed
  · intro x
    change endsIn cfg x (s.loaded ++ l.tasks) ≤ 1
    rw [endsIn_append]
    by_cases hx : x.requestId = l.requestId
    · rw [endsIn_eq_zero fun t ht => hx ▸ hfresh t ht, zero_add]
      exact endsIn_tasks_le_one hok.2 x
    · have hnone : endsIn cfg x l.tasks = 0 :=
        endsIn_eq_zero fun t ht => l.requestId_of_mem t ht ▸ Ne.symm hx
      rw [hnone]
      exact h.once x
  · intro x
    have := h.atMost x
    change _ + (dueOf cfg x).total s + endsIn cfg x (s.requestQueue ++ l.tasks) ≤
      endsIn cfg x (s.loaded ++ l.tasks)
    rw [endsIn_append, endsIn_append]
    simp only [startLoadKv]
    omega
  · intro x hnot hfail
    have := h.exact x hnot hfail
    change _ + (dueOf cfg x).total s + endsIn cfg x (s.requestQueue ++ l.tasks) =
      endsIn cfg x (s.loaded ++ l.tasks)
    rw [endsIn_append, endsIn_append]
    simp only [startLoadKv]
    omega

theorem Relayout.moves (hs : Moves s s') : Relayout cfg s' := by
  obtain ⟨hqueue, hloaded, hshared, htotal⟩ := hs
  have hflight := htotal _ flight
  constructor
  · rw [hqueue, hloaded]
    exact h.queued
  · rw [hflight, hloaded]
    exact h.working
  · rw [hflight, hloaded, hshared]
    exact h.ready
  · rw [hloaded, hshared]
    exact h.ordered
  · rw [hshared]
    exact h.failed
  · rw [hloaded]
    exact h.once
  · intro x
    rw [hshared, hqueue, hloaded, htotal _ (dueOf cfg x)]
    exact h.atMost x
  · intro x
    rw [hshared, hqueue, hloaded, htotal _ (dueOf cfg x), hflight]
    exact h.exact x

theorem Relayout.submits (hs : Submits s s') : Relayout cfg s' := by
  obtain ⟨t, hqueue, hloaded, hshared, htotal⟩ := hs
  have hlog : s'.shared.log = s.shared.log := by rw [hshared]; rfl
  have hflight : flight.total s' = {Work.check t} + flight.total s := htotal _ flight
  have hends : ∀ x, endsIn cfg x s.requestQueue =
      (t.gqaTargets cfg).count x + endsIn cfg x s'.requestQueue := by
    intro x
    rw [hqueue]
    rfl
  have hdue : ∀ x, (dueOf cfg x).total s' = (t.gqaTargets cfg).count x + (dueOf cfg x).total s :=
    fun x => htotal _ (dueOf cfg x)
  constructor
  · intro t' ht'
    rw [hloaded]
    exact h.queued t' (hqueue ▸ mem_cons_of_mem _ ht')
  · intro w hw
    rw [hflight, Multiset.mem_add, Multiset.mem_singleton] at hw
    rw [hloaded]
    rcases hw with rfl | hw
    · exact h.queued t (by simp [hqueue])
    · exact h.working w hw
  · intro t' targets hw
    rw [hflight, Multiset.mem_add, Multiset.mem_singleton] at hw
    rcases hw with hw | hw
    · cases hw
    · rw [hloaded, hlog]
      exact h.ready t' targets hw
  · rw [hloaded, hlog]
    exact h.ordered
  · rw [hlog, hshared]
    exact h.failed
  · rw [hloaded]
    exact h.once
  · intro x
    have := h.atMost x
    rw [hends x] at this
    rw [hlog, hloaded, hdue]
    omega
  · intro x hnot hfail
    have := h.exact x (hlog ▸ hnot) fun t' ht' => hfail t' (by
      rw [hflight]
      exact Multiset.mem_add.mpr (.inr ht'))
    rw [hends x] at this
    rw [hlog, hloaded, hdue]
    omega

theorem Relayout.handles {a : Action} (hok : ReformatOk cfg s a)
    (hs : Handles cfg s a s') : Relayout cfg s' := by
  obtain ⟨w, ok, ⟨i, hd, rfl, hi, hstage⟩, hqueue, hloaded, hshared, htotal⟩ := hs
  obtain ⟨rest, hflight, hflight'⟩ := htotal _ flight
  have hh := w.handled cfg s.shared ok
  rw [← hshared] at hh
  have hw : w ∈ flight.total s := by
    rw [hflight]
    exact Multiset.mem_add.mpr (.inl (Multiset.mem_singleton_self w))
  -- a handler of the new state was there before, or is the one that took the step
  have hnew : ∀ w', w' ∈ flight.total s' → w' ∈ flight.total s ∨ (w.handle cfg s.shared ok).1 = some w' := by
    intro w' hw'
    rw [hflight', Multiset.mem_add] at hw'
    rcases hw' with hw' | hw'
    · cases hres : (w.handle cfg s.shared ok).1 with
      | none => simp [hres] at hw'
      | some w₁ =>
        rw [hres] at hw'
        exact .inr (congrArg some (Multiset.mem_singleton.mp hw').symm)
    · rw [hflight]
      exact .inl (Multiset.mem_add.mpr (.inr hw'))
  have hstay : ∀ w', (w.handle cfg s.shared ok).1 = some w' → w' ∈ flight.total s' := by
    intro w' hres
    rw [hflight', hres]
    exact Multiset.mem_add.mpr (.inl (Multiset.mem_singleton_self w'))
  have hmono : ∀ x, AllPulled cfg s.loaded s.shared.log x → AllPulled cfg s.loaded s'.shared.log x := by
    intro x hall t ht hpulls
    exact hh.mem_log (hall t ht hpulls)
  constructor
  · rw [hqueue, hloaded]
    exact h.queued
  · intro w' hw'
    rw [hloaded]
    rcases hnew w' hw' with hw' | hres
    · exact h.working w' hw'
    · rw [hh.task hres]
      exact h.working w hw
  · intro t targets hw' x hx
    rw [hloaded]
    rcases hnew _ hw' with hw' | hres
    · obtain ⟨hreq, hall⟩ := h.ready t targets hw' x hx
      exact ⟨hreq, hmono x hall⟩
    · rcases hh.reformat hres with ⟨y, rfl⟩ | ⟨rfl, rfl, hpulled⟩
      · obtain ⟨hreq, hall⟩ := h.ready t _ hw x (mem_cons_of_mem _ hx)
        exact ⟨hreq, hmono x hall⟩
      · refine ⟨requestId_of_mem_gqaTargets hx, fun t' ht' hpulls => ?_⟩
        by_cases heq : t' = t
        · exact heq ▸ hpulled
        · simp only [ReformatOk, hi, Option.map_some, hstage] at hok
          exact hh.mem_log (hok x hx t' ht' heq hpulls)
  · rw [hloaded]
    rcases hh.log with heq | ⟨e, heq, hreformat⟩
    · rw [heq]
      exact h.ordered
    · rw [heq]
      refine ⟨fun x hx => ?_, h.ordered⟩
      obtain ⟨t, xs, rfl⟩ := hreformat x hx
      obtain ⟨hreq, hall⟩ := h.ready t _ hw x mem_cons_self
      exact ⟨⟨t, h.working _ hw, hreq.symm⟩, hall⟩
  · exact hh.failedIn h.failed
  · rw [hloaded]
    exact h.once
  · intro x
    obtain ⟨n, hdue, hdue'⟩ := htotal _ (dueOf cfg x)
    have hle := (hh.due x (fun t ts heq y hy => (h.ready t ts (heq ▸ hw) y hy).1) h.failed).1
    have := h.atMost x
    rw [hqueue, hloaded, hdue']
    omega
  · intro x hnot hfail
    obtain ⟨n, hdue, hdue'⟩ := htotal _ (dueOf cfg x)
    have hnot' : ¬ FailedIn s.shared.log x.requestId := by
      rintro ⟨t, ht, hreq⟩
      exact hnot ⟨t, hh.mem_log ht, hreq⟩
    have heq := (hh.due x (fun t ts heq y hy =>
      (h.ready t ts (heq ▸ hw) y hy).1) h.failed).2 hnot' fun t ht => hfail t (hstay _ ht)
    have := h.exact x hnot' fun t ht => ?_
    · rw [hqueue, hloaded, hdue']
      omega
    · rw [hflight, Multiset.mem_add] at ht
      rcases ht with ht | ht
      · -- a task that fails now is recorded
        cases Multiset.mem_singleton.mp ht
        exact fun hreq => hnot ⟨t, hshared ▸ mem_cons_self, hreq⟩
      · exact hfail t (by rw [hflight']; exact Multiset.mem_add.mpr (.inr ht))

theorem Relayout.step {a : Action} (hok : ReformatOk cfg s a)
    (hs : step cfg s a = some s') : Relayout cfg s' := by
  rcases step_cases hs with ⟨l, rfl, rfl⟩ | hs | hs | hs
  · exact h.load hok
  · exact h.submits hs
  · exact h.moves hs
  · exact h.handles hok hs

end

end Steps

theorem Relayout.init : Relayout cfg State.init where
  queued _ h := by cases h
  working w h := by simp [State.init, total, submitter, handlers] at h
  ready t ts h := by simp [State.init, total, submitter, handlers] at h
  ordered := trivial
  failed r h := by simp [State.init, Shared.init] at h
  once x := zero_le _
  atMost x := le_rfl
  exact x _ _ := rfl

theorem ReformatOk.loadOk {s : State} {a : Action} (h : ReformatOk cfg s a) : LoadOk s a := by
  cases a with
  | startLoadKv l => exact h.1
  | submit | startWorker | handler i ok => trivial

theorem Relayout.due_eq_zero {s : State} (h : Relayout cfg s) {x : Target} (hpend : s.pending x.requestId = 0) :
    (dueOf cfg x).total s = 0 ∧ ∀ t, .fail t ∈ flight.total s → t.requestId ≠ x.requestId := by
  have hidle : ∀ w ∈ flight.total s, (pendingOf x.requestId).working w = 0 := by
    intro w hw
    rw [State.pending, total_eq_sum, Multiset.sum_eq_zero_iff] at hpend
    exact hpend _ (Multiset.mem_map_of_mem _ hw)
  have hother : ∀ t : Task, ofRequest x.requestId t = 0 → t.requestId ≠ x.requestId := by
    intro t ht he
    simp [ofRequest, he] at ht
  constructor
  · rw [total_eq_sum, Multiset.sum_eq_zero_iff]
    intro n hn
    obtain ⟨w, hw, rfl⟩ := Multiset.mem_map.mp hn
    have hgqa : ∀ t : Task, ofRequest x.requestId t = 0 → (t.gqaTargets cfg).count x = 0 :=
      fun t ht => count_eq_zero.mpr fun hx => hother t ht (requestId_of_mem_gqaTargets hx).symm
    cases w with
    | check t | pull t => exact hgqa t (hidle _ hw)
    | reformat t targets =>
      exact count_eq_zero.mpr fun hx => hother t (hidle _ hw) (h.ready t targets hw x hx).1.symm
    | fail t | done t | report t | forget t | clear t | free t | freeing t ports | signal t => rfl
  · exact fun t ht => hother t (hidle _ ht)

/-- In a run in which no transposing task overtakes the other transfers into its blocks, a re-layout
comes after all of them and happens at most once, and exactly once when all tasks of the
request are done and none failed. -/
theorem relayout_after_pulls (cfg : Config) {s : State}
    (h : Machine.Reaches (step cfg) (ReformatOk cfg) State.init s) :
    (∀ x post pre, s.shared.log = post ++ .reformatted x :: pre →
      ∀ t ∈ s.loaded, t.PullsInto cfg x → .pulled t ∈ pre) ∧ (∀ x, s.shared.log.count (.reformatted x) ≤ 1) ∧
    (∀ t ∈ s.loaded, ∀ x ∈ t.gqaTargets cfg, s.completed t.requestId = s.taskCount t.requestId →
      ¬ FailedIn s.shared.log t.requestId → s.shared.log.count (.reformatted x) = 1) := by
  have hlayout : Relayout cfg s := h.inv (Relayout cfg) Relayout.init fun _ _ _ ht hok hs => ht.step hok hs
  have hinv : Inv s := h.inv Inv Inv.init fun _ _ _ ht hok hs => ht.step hok.loadOk hs
  refine ⟨fun x post pre hlog => hlayout.ordered.split hlog, fun x => ?_, ?_⟩
  · have := hlayout.atMost x
    have := hlayout.once x
    omega
  · intro t ht x hx hall hnot
    have hreq : x.requestId = t.requestId := requestId_of_mem_gqaTargets hx
    have hbal := (hinv.counted t.requestId).balance
    obtain ⟨hdue, hfail⟩ := hlayout.due_eq_zero (x := x) (by rw [hreq]; omega)
    have hexact := hlayout.exact x (hreq ▸ hnot) hfail
    have hqueue : endsIn cfg x s.requestQueue = 0 := endsIn_eq_zero (by
      rw [hreq]
      exact countOf_eq_zero.mp (show s.waiting t.requestId = 0 by omega))
    have hpos : 0 < endsIn cfg x s.loaded := by
      rw [endsIn_eq_count]
      exact count_pos_iff.mpr (mem_flatMap.mpr ⟨t, ht, hx⟩)
    have := hlayout.once x
    omega

def twoHalves : Load where
  requestId := 7
  remoteRequestId := 8
  shards := [⟨[(("p", 1), [⟨0, 0, 2, 0, false⟩]), (("p", 2), [⟨0, 1, 2, 0, true⟩])], [[5]]⟩]
  remotePortSendNum := []

theorem fromMetadata_twoHalves : twoHalves.FromMetadata ⟨2, 1, 2, 1, [0]⟩ where
  groupIds := by decide
  pulls
    | 0, _, rfl => rfl
  stages
    | _, .head _ => ⟨⟨1, rfl⟩, fun
      | 0, _, rfl | 1, _, rfl => rfl⟩

theorem nodup_gqaTargets_twoHalves : (twoHalves.tasks.flatMap (gqaTargets twoWorkers)).Nodup :=
  fromMetadata_twoHalves.nodup_gqaTargets twoWorkers

theorem exists_pull_twoHalves : ∃ t ∈ twoHalves.tasks, ∃ p ∈ t.transfers twoWorkers,
    t.target p = ⟨7, 0, 0, 0⟩ ∧ p.remoteTpOffset = 0 :=
  fromMetadata_twoHalves.exists_pull (mem_cons_of_mem _ (mem_singleton_self _)) (.head _) two_pos

def bothSubmitted : List Action := .startLoadKv twoHalves :: (replicate 6 .submit ++ replicate 2 .startWorker)

def inOrder : List Action :=
  bothSubmitted ++ [.handler 1 true, .handler 0 true, .handler 0 true] ++
    [.handler 1 true, .handler 0 true, .handler 0 true, .handler 0 true]

theorem relayout_after_both : ∃ s, Machine.run (step twoWorkers) State.init inOrder = some s ∧
    .reformatted ⟨7, 0, 0, 0⟩ ∈ s.shared.log ∧ s.shared.log.count (.reformatted ⟨7, 0, 0, 0⟩) ≤ 1 ∧
      ∀ t ∈ s.loaded, t.PullsInto twoWorkers ⟨7, 0, 0, 0⟩ → .pulled t ∈ s.shared.log := by
  refine ⟨_, rfl, by decide, ?_⟩
  have hok : Machine.RunOk (step twoWorkers) (ReformatOk twoWorkers) State.init inOrder := by decide
  have h := relayout_after_pulls twoWorkers (hok.reaches rfl)
  refine ⟨h.2.1 _, fun t ht hpulls => ?_⟩
  exact mem_append_right [_] (h.1 ⟨7, 0, 0, 0⟩ [] _ rfl t ht hpulls)

/-- The second task is flagged as the end of the group, and its handler is faster. -/
theorem relayout_before_pull : ∃ s, Machine.run (step twoWorkers) State.init
    (bothSubmitted ++ replicate 4 (.handler 0 true)) = some s ∧ .reformatted ⟨7, 0, 0, 0⟩ ∈ s.shared.log ∧
      ∃ t ∈ s.loaded, t.PullsInto twoWorkers ⟨7, 0, 0, 0⟩ ∧ .pulled t ∉ s.shared.log :=
  ⟨_, rfl, by decide, by decide⟩

end VllmAscend.KvTransfer.Mooncake
