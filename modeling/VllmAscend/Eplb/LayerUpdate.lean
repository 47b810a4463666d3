import Mathlib.Algebra.Order.BigOperators.Group.Finset
import VllmAscend.Eplb.Transfer

/-!
# All ranks together
-/

namespace VllmAscend.Eplb

open Machine List Function

variable {W : Type}

namespace Update

variable (c : Update W)

/-! ## The invariant -/

def RankInv (r : Nat) (s : RankState W) : Prop :=
  match s.phase with
  | .generate => c.OldTables r s.adaptor ∧ s.loader = {}
  | .launch => c.OldTables r s.adaptor ∧ s.loader = c.taskLoader r .ready
  | .wait => c.OldTables r s.adaptor ∧ s.loader = c.taskLoader r .transferring
  | .done => c.Slots c.new r (s.adaptor.expertParamPerLayer c.layerId)

def MessagesDone (s : System W) (r : Nat) : Prop :=
  ∀ other < c.numRanks,
    (∀ k < (sendsTo (c.ops r) other).length, (r, other, k) ∈ s.delivered) ∧
    (∀ k < (recvsFrom (c.ops r) other).length, (other, r, k) ∈ s.delivered)

def BufferFilled (ad : Adaptor W) (r i j : Nat) : Prop :=
  ∀ src e, (recvsOf c.tasks r)[i]? = some (src, e) →
    (c.buffers ad)[i]?.bind (fun b => b[j]?) = (c.weight e)[j]?

structure Inv (s : System W) : Prop where
  rank : ∀ r < c.numRanks, c.RankInv r (s.ranks r)
  done : ∀ r < c.numRanks, (s.ranks r).phase = .done → c.MessagesDone s r
  filled : ∀ r < c.numRanks, (s.ranks r).phase ≠ .done → ∀ src k i j, (src, r, k) ∈ s.delivered →
    (recvsFrom (c.ops r) src)[k]? = some (i, j) → c.BufferFilled (s.ranks r).adaptor r i j
  mem : ∀ src dst k, (src, dst, k) ∈ s.delivered → src < c.numRanks ∧ dst < c.numRanks ∧
    k < (sendsTo (c.ops src) dst).length

structure Start (s : System W) : Prop where
  phase : ∀ r < c.numRanks, (s.ranks r).phase = .generate ∧ (s.ranks r).loader = {}
  tables : ∀ r < c.numRanks, c.OldTables r (s.ranks r).adaptor
  delivered : s.delivered = []

variable {c}

variable {s s' : System W} {r i src dst k : Nat}

theorem Start.inv (h : c.Start s) : c.Inv s := by
  refine ⟨?_, ?_, ?_, ?_⟩
  · intro r hr
    unfold RankInv
    rw [(h.phase r hr).1]
    exact ⟨h.tables r hr, (h.phase r hr).2⟩
  · intro r hr hdone
    rw [(h.phase r hr).1] at hdone
    cases hdone
  · intro r hr _ src k i j hmem
    simp [h.delivered] at hmem
  · intro src dst k hmem
    simp [h.delivered] at hmem

/-! ## Ranks that wait -/

theorem Inv.of_wait (h : c.Inv s) (hr : r < c.numRanks) (hphase : (s.ranks r).phase = .wait) :
    c.OldTables r (s.ranks r).adaptor ∧ (s.ranks r).loader = c.taskLoader r .transferring ∧
    (s.ranks r).ops = c.ops r := by
  have hinv := h.rank r hr
  rw [RankInv, hphase] at hinv
  refine ⟨hinv.1, hinv.2, ?_⟩
  rw [RankState.ops, hinv.2]
  rfl

theorem opsDone_iff (hops : (s.ranks r).ops = c.ops r) : opsDone c.numRanks s r = true ↔ c.MessagesDone s r := by
  simp [opsDone, MessagesDone, hops]

theorem Inv.set (h : c.Inv s) {rs : RankState W} (hr : r < c.numRanks)
    (hrank : c.RankInv r rs) (hdone : rs.phase = .done → c.MessagesDone s r)
    (hfilled : rs.phase ≠ .done → ∀ src k i j, (src, r, k) ∈ s.delivered →
      (recvsFrom (c.ops r) src)[k]? = some (i, j) → c.BufferFilled rs.adaptor r i j) : c.Inv (s.set r rs) := by
  refine ⟨?_, ?_, ?_, h.mem⟩
  · intro r' hr'
    by_cases heq : r' = r
    · subst heq
      simpa [System.set] using hrank
    · simpa [System.set, heq] using h.rank r' hr'
  · intro r' hr' hphase
    by_cases heq : r' = r
    · subst heq
      exact hdone (by simpa [System.set] using hphase)
    · exact h.done r' hr' (by simpa [System.set, heq] using hphase)
  · intro r' hr' hphase src k i j hmem hk
    by_cases heq : r' = r
    · subst heq
      simp only [System.set, update_self] at hphase ⊢
      exact hfilled hphase src k i j hmem hk
    · simp only [System.set, update_of_ne heq] at hphase ⊢
      exact h.filled r' hr' hphase src k i j hmem hk

/-! ## Buffers -/

variable {ad : Adaptor W} {j : Nat} {v : W}

theorem buffers_setBuffer :
    c.buffers (setBuffer ad c.layerId i j v) = (c.buffers ad).modify i fun ts => ts.set j v := by
  simp [buffers, setBuffer]

theorem getElem?_setBuffer {i' : Nat} : (c.buffers (setBuffer ad c.layerId i j v))[i']? =
      (c.buffers ad)[i']?.map fun ts => if i = i' then ts.set j v else ts := by
  rw [buffers_setBuffer, getElem?_modify]
  rfl

theorem OldTables.setBuffer (ha : c.OldTables r ad) (i j : Nat) (v : W) :
    c.OldTables r (setBuffer ad c.layerId i j v) := by
  refine ⟨ha.map, ha.slots, ?_, ?_⟩
  · rw [buffers_setBuffer, length_modify]
    exact ha.buffers_length
  · intro b hb
    obtain ⟨i', hi'⟩ := mem_iff_getElem?.mp hb
    rw [getElem?_setBuffer, Option.map_eq_some_iff] at hi'
    obtain ⟨ts, hts, rfl⟩ := hi'
    have hlen := ha.buffers_shape ts (mem_of_getElem? hts)
    split <;> simp [hlen]

theorem BufferFilled.setBuffer (ha : c.OldTables r ad) (hi : i < c.numSlots) (hj : j < c.numTensors)
    (hv : ∀ src e, (recvsOf c.tasks r)[i]? = some (src, e) → (c.weight e)[j]? = some v) {i' j' : Nat}
    (h : (i' = i ∧ j' = j) ∨ c.BufferFilled ad r i' j') : c.BufferFilled (setBuffer ad c.layerId i j v) r i' j' := by
  intro src e hrecv
  have hin : i < (c.buffers ad).length := by
    rw [ha.buffers_length]
    exact hi
  rw [getElem?_setBuffer]
  by_cases hii : i = i'
  · subst hii
    have hlen := ha.buffers_shape _ (getElem_mem hin)
    simp only [getElem?_eq_getElem hin, Option.map_some, if_true, Option.bind_some]
    by_cases hjj : j = j'
    · subst hjj
      rw [getElem?_set_self (by omega), hv src e hrecv]
    · rw [getElem?_set_ne hjj]
      rcases h with ⟨-, h⟩ | h
      · exact absurd h.symm hjj
      · have := h src e hrecv
        rwa [getElem?_eq_getElem hin] at this
  · rcases h with ⟨h, -⟩ | h
    · exact absurd h.symm hii
    · rw [← h src e hrecv]
      cases (c.buffers ad)[i']? <;> simp [hii]

/-! ## Steps -/

abbrev next (c : Update W) : System W → Action → Option (System W) := step c.numRanks c.layerId c.rankInfo

variable (hs : c.Inv s) (h : c.Ok)

include hs h

theorem deliver_value {slot tensor j : Nat}
    (hsrc : src < c.numRanks) (hphase : (s.ranks src).phase = .wait)
    (hsend : (sendsTo (c.ops src) dst)[k]? = some (slot, tensor))
    (hrecv : (recvsFrom (c.ops dst) src)[k]? = some (i, j)) : j < c.numTensors ∧ i < c.numSlots ∧
    ∃ param v, ((s.ranks src).adaptor.expertParamPerLayer c.layerId)[slot]? = some param ∧ param[tensor]? = some v ∧
      ∀ src' e, (recvsOf c.tasks dst)[i]? = some (src', e) → (c.weight e)[j]? = some v := by
  obtain ⟨t, ht, rfl, rfl, rfl, hlt, hidx⟩ := message_spec hsend hrecv
  obtain ⟨-, he, -, -, -, hold⟩ := h.task ht
  obtain ⟨htables, -⟩ := hs.of_wait hsrc hphase
  have hin : j < (c.weight t.expert).length := by
    rw [h.weight_length _ he]
    exact hlt
  obtain ⟨hi, -⟩ := List.getElem?_eq_some_iff.mp hidx
  refine ⟨hlt, hi.trans_le (h.recvs_length dst), c.weight t.expert, (c.weight t.expert)[j],
    htables.slots.slot _ he hold, getElem?_eq_getElem hin, ?_⟩
  intro src' e he'
  rw [hidx] at he'
  obtain ⟨-, rfl⟩ := Prod.mk.inj (Option.some.inj he')
  exact getElem?_eq_getElem hin

theorem step_generate (hstep : c.next s (.generate r) = some s') :
    r < c.numRanks ∧ (s.ranks r).phase = .generate ∧ c.Inv s' ∧
    s' = s.set r { s.ranks r with loader := c.taskLoader r .ready, phase := .launch } := by
  simp only [next, step] at hstep
  obtain ⟨⟨hr, hphase⟩, hstep⟩ := Option.ite_none_right_eq_some.mp hstep
  have hinv := hs.rank r hr
  rw [RankInv, hphase] at hinv
  rw [hinv.2, generate_spec hr h hinv.1] at hstep
  obtain rfl := Option.some.inj hstep
  refine ⟨hr, hphase, hs.set hr ⟨hinv.1, rfl⟩ (by simp) ?_, rfl⟩
  exact fun _ => hs.filled r hr (by simp [hphase])

omit h in
theorem step_launch (hstep : c.next s (.launch r) = some s') :
    r < c.numRanks ∧ (s.ranks r).phase = .launch ∧ c.Inv s' ∧
    s' = s.set r { s.ranks r with loader := c.taskLoader r .transferring, phase := .wait } := by
  simp only [next, step] at hstep
  obtain ⟨⟨hr, hphase⟩, hstep⟩ := Option.ite_none_right_eq_some.mp hstep
  have hinv := hs.rank r hr
  rw [RankInv, hphase] at hinv
  have hlaunch : asynExpertWeightTransfer (s.ranks r).loader = c.taskLoader r .transferring := by
    rw [hinv.2]
    rfl
  rw [hlaunch] at hstep
  obtain rfl := Option.some.inj hstep
  refine ⟨hr, hphase, hs.set hr ⟨hinv.1, rfl⟩ (by simp) ?_, rfl⟩
  exact fun _ => hs.filled r hr (by simp [hphase])

theorem step_deliver (hstep : c.next s (.deliver src dst k) = some s') :
    src < c.numRanks ∧ dst < c.numRanks ∧ (src, dst, k) ∉ s.delivered ∧
    k < (sendsTo (c.ops src) dst).length ∧ c.Inv s' ∧
    (∀ r, (s'.ranks r).phase = (s.ranks r).phase) ∧ s'.delivered = (src, dst, k) :: s.delivered := by
  simp only [next, step] at hstep
  obtain ⟨⟨hsrc, hdst, hps, hpd, hnew⟩, hstep⟩ := Option.ite_none_right_eq_some.mp hstep
  obtain ⟨-, -, hops⟩ := hs.of_wait hsrc hps
  obtain ⟨htd, hld, hopd⟩ := hs.of_wait hdst hpd
  rw [hops, hopd] at hstep
  simp only [Option.bind_eq_bind, Option.bind_eq_some_iff] at hstep
  obtain ⟨⟨slot, tensor⟩, hsend, ⟨i, j⟩, hrecv, param, hparam, v, hv, hs'⟩ := hstep
  obtain ⟨hlt, -⟩ := List.getElem?_eq_some_iff.mp hsend
  obtain ⟨hj, hi, param', v', hparam', hv', hval⟩ := deliver_value hs h hsrc hps hsend hrecv
  cases hparam'.symm.trans hparam
  cases hv'.symm.trans hv
  cases hs'
  have hphase : ∀ r, ((s.set dst { s.ranks dst with
      adaptor := setBuffer (s.ranks dst).adaptor c.layerId i j v }).ranks r).phase =
      (s.ranks r).phase := by
    intro r
    by_cases hr : r = dst
    · subst hr
      simp [System.set]
    · simp [System.set, hr]
  refine ⟨hsrc, hdst, hnew, hlt, ⟨?_, ?_, ?_, ?_⟩, hphase, rfl⟩
  · intro r hr
    by_cases heq : r = dst
    · subst heq
      simp only [System.set, update_self, RankInv, hpd]
      exact ⟨htd.setBuffer i j v, hld⟩
    · simpa [System.set, heq] using hs.rank r hr
  · intro r hr hdone other hother
    have hold := hs.done r hr (by rwa [hphase] at hdone) other hother
    exact ⟨fun k hk => mem_cons_of_mem _ (hold.1 k hk), fun k hk => mem_cons_of_mem _ (hold.2 k hk)⟩
  · intro r hr hpr src₁ k₁ i₁ j₁ hmem hk₁
    rw [hphase] at hpr
    by_cases heq : r = dst
    · subst heq
      simp only [System.set, update_self]
      refine .setBuffer htd hi hj hval ?_
      rcases mem_cons.mp hmem with hmem | hmem
      · obtain ⟨rfl, -, rfl⟩ : src₁ = src ∧ r = r ∧ k₁ = k := by simpa using hmem
        rw [hrecv] at hk₁
        obtain ⟨rfl, rfl⟩ := Prod.mk.inj (Option.some.inj hk₁)
        exact .inl ⟨rfl, rfl⟩
      · exact .inr (hs.filled r hr hpr src₁ k₁ i₁ j₁ hmem hk₁)
    · simp only [System.set, update_of_ne heq]
      rcases mem_cons.mp hmem with hmem | hmem
      · exact absurd (by simpa using congrArg (fun m => m.2.1) hmem) heq
      · exact hs.filled r hr hpr src₁ k₁ i₁ j₁ hmem hk₁
  · intro src₁ dst₁ k₁ hmem
    rcases mem_cons.mp hmem with hmem | hmem
    · obtain ⟨rfl, rfl, rfl⟩ : src₁ = src ∧ dst₁ = dst ∧ k₁ = k := by simpa using hmem
      exact ⟨hsrc, hdst, hlt⟩
    · exact hs.mem src₁ dst₁ k₁ hmem

theorem buffers_filled (hr : r < c.numRanks) (hphase : (s.ranks r).phase = .wait) (hdone : c.MessagesDone s r) {e : Nat}
    (hi : (recvsOf c.tasks r)[i]? = some (src, e)) : (c.buffers (s.ranks r).adaptor)[i]? = some (c.weight e) := by
  obtain ⟨htables, -⟩ := hs.of_wait hr hphase
  obtain ⟨-, he, -, -, hsrc⟩ := h.recv (mem_of_getElem? hi)
  have hin : i < (c.buffers (s.ranks r).adaptor).length := by
    obtain ⟨hlt, -⟩ := List.getElem?_eq_some_iff.mp hi
    rw [htables.buffers_length]
    exact hlt.trans_le (h.recvs_length r)
  rw [getElem?_eq_getElem hin, Option.some.injEq]
  have hlen := htables.buffers_shape _ (getElem_mem hin)
  apply ext_getElem?
  intro j
  by_cases hj : j < c.numTensors
  · have hmem : (i, j) ∈ recvsFrom (c.ops r) src := mem_recvsFrom hj hi
    obtain ⟨k, hk⟩ := mem_iff_getElem?.mp hmem
    obtain ⟨hlt, -⟩ := List.getElem?_eq_some_iff.mp hk
    have hfilled := hs.filled r hr (by simp [hphase]) src k i j ((hdone src hsrc).2 k hlt) hk src e hi
    rwa [getElem?_eq_getElem hin] at hfilled
  · rw [getElem?_eq_none (by omega), getElem?_eq_none (by rw [h.weight_length e he]; omega)]

theorem step_update (hstep : c.next s (.update r) = some s') :
    r < c.numRanks ∧ (s.ranks r).phase = .wait ∧ c.Inv s' ∧
    ∃ rs : RankState W, rs.phase = .done ∧ s' = s.set r rs := by
  simp only [next, step] at hstep
  obtain ⟨⟨hr, hphase, hops⟩, hstep⟩ := Option.ite_none_right_eq_some.mp hstep
  obtain ⟨htables, hloader, hrops⟩ := hs.of_wait hr hphase
  have hdone := (opsDone_iff hrops).mp hops
  obtain ⟨ad', hrun, hslots⟩ := update_spec hr h htables fun i src e hi => buffers_filled hs h hr hphase hdone hi
  rw [hloader, hrun] at hstep
  obtain rfl := Option.some.inj hstep
  exact ⟨hr, hphase, hs.set hr hslots (fun _ => hdone) (by simp), _, rfl, rfl⟩

theorem step_inv {a : Action} (hstep : c.next s a = some s') : c.Inv s' := by
  cases a with
  | generate r => exact (step_generate hs h hstep).2.2.1
  | launch r => exact (step_launch hs hstep).2.2.1
  | deliver src dst k => exact (step_deliver hs h hstep).2.2.2.2.1
  | update r => exact (step_update hs h hstep).2.2.1

/-! ## Progress -/

theorem deliver_enabled (hsrc : src < c.numRanks) (hdst : dst < c.numRanks) (hps : (s.ranks src).phase = .wait)
    (hpd : (s.ranks dst).phase = .wait) (hk : k < (sendsTo (c.ops src) dst).length)
    (hnew : (src, dst, k) ∉ s.delivered) :
    ∃ s', c.next s (.deliver src dst k) = some s' := by
  obtain ⟨-, -, hops⟩ := hs.of_wait hsrc hps
  obtain ⟨-, -, hopd⟩ := hs.of_wait hdst hpd
  have hk' : k < (recvsFrom (c.ops dst) src).length := by
    rw [ops, ← messages_length]
    exact hk
  obtain ⟨⟨slot, tensor⟩, hsend⟩ : ∃ p, (sendsTo (c.ops src) dst)[k]? = some p := ⟨_, getElem?_eq_getElem hk⟩
  obtain ⟨⟨i, j⟩, hrecv⟩ : ∃ p, (recvsFrom (c.ops dst) src)[k]? = some p := ⟨_, getElem?_eq_getElem hk'⟩
  obtain ⟨-, -, param, v, hparam, hv, -⟩ := deliver_value hs h hsrc hps hsend hrecv
  simp only [next, step]
  rw [if_pos ⟨hsrc, hdst, hps, hpd, hnew⟩, hops, hopd, hsend, hrecv]
  simp only [Option.bind_eq_bind, Option.bind_some, hparam, hv]
  exact ⟨_, rfl⟩

theorem update_enabled (hr : r < c.numRanks) (hphase : (s.ranks r).phase = .wait) (hdone : c.MessagesDone s r) :
    ∃ s', c.next s (.update r) = some s' := by
  obtain ⟨htables, hloader, hops⟩ := hs.of_wait hr hphase
  obtain ⟨ad', hrun, -⟩ := update_spec hr h htables fun i src e hi => buffers_filled hs h hr hphase hdone hi
  simp only [next, step]
  rw [if_pos ⟨hr, hphase, (opsDone_iff hops).mpr hdone⟩, hloader, hrun]
  exact ⟨_, rfl⟩

omit hs h in
theorem wait_or_done_of (hgen : ∀ r < c.numRanks, (s.ranks r).phase ≠ .generate)
    (hlaunch : ∀ r < c.numRanks, (s.ranks r).phase ≠ .launch) (hr : r < c.numRanks) :
    (s.ranks r).phase = .wait ∨ (s.ranks r).phase = .done := by
  cases hp : (s.ranks r).phase <;> simp_all

theorem progress (hnot : ¬ AllDone c.numRanks s) :
    ∃ a s', c.next s a = some s' := by
  by_cases hgen : ∀ r < c.numRanks, (s.ranks r).phase ≠ .generate
  swap
  · push Not at hgen
    obtain ⟨r, hr, hphase⟩ := hgen
    have hinv := hs.rank r hr
    rw [RankInv, hphase] at hinv
    refine ⟨.generate r, ?_⟩
    simp only [next, step]
    rw [if_pos ⟨hr, hphase⟩, hinv.2, generate_spec hr h hinv.1]
    exact ⟨_, rfl⟩
  by_cases hlaunch : ∀ r < c.numRanks, (s.ranks r).phase ≠ .launch
  swap
  · push Not at hlaunch
    obtain ⟨r, hr, hphase⟩ := hlaunch
    refine ⟨.launch r, ?_⟩
    simp only [next, step]
    rw [if_pos ⟨hr, hphase⟩]
    exact ⟨_, rfl⟩
  simp only [AllDone, not_forall] at hnot
  obtain ⟨r, hr, hnd⟩ := hnot
  have hphase := (wait_or_done_of hgen hlaunch hr).resolve_right hnd
  by_cases hdone : c.MessagesDone s r
  · exact ⟨_, update_enabled hs h hr hphase hdone⟩
  -- An open message: its partner cannot be done, so it waits too.
  simp only [MessagesDone, not_forall, not_and_or] at hdone
  obtain ⟨other, hother, ⟨k, hk, hopen⟩ | ⟨k, hk, hopen⟩⟩ := hdone
  · have hpo := (wait_or_done_of hgen hlaunch hother).resolve_right fun hd =>
      hopen ((hs.done other hother hd r hr).2 k (by rw [ops, ← messages_length]; exact hk))
    exact ⟨_, deliver_enabled hs h hr hother hphase hpo hk hopen⟩
  · have hk' : k < (sendsTo (c.ops other) r).length := by
      rw [ops, messages_length]
      exact hk
    have hpo := (wait_or_done_of hgen hlaunch hother).resolve_right fun hd =>
      hopen ((hs.done other hother hd r hr).1 k hk')
    exact ⟨_, deliver_enabled hs h hother hr hpo hphase hk' hopen⟩

omit hs h

/-! ## Every run ends -/

variable (c)

def messages : Finset (Nat × Nat × Nat) :=
  (Finset.range c.numRanks).biUnion fun src => (Finset.range c.numRanks).biUnion fun dst =>
    (Finset.range (sendsTo (c.ops src) dst).length).image fun k => (src, dst, k)

def phasesLeft : Phase → Nat
  | .generate => 3
  | .launch => 2
  | .wait => 1
  | .done => 0

def workLeft (s : System W) : Nat :=
  (c.messages \ s.delivered.toFinset).card +
    ∑ r ∈ Finset.range c.numRanks, phasesLeft (s.ranks r).phase

variable {c}

theorem mem_messages : (src, dst, k) ∈ c.messages ↔
    src < c.numRanks ∧ dst < c.numRanks ∧ k < (sendsTo (c.ops src) dst).length := by
  simp only [messages, Finset.mem_biUnion, Finset.mem_range, Finset.mem_image, Prod.mk.injEq]
  constructor
  · rintro ⟨_, hs, _, hd, _, hk, rfl, rfl, rfl⟩
    exact ⟨hs, hd, hk⟩
  · rintro ⟨hs, hd, hk⟩
    exact ⟨src, hs, dst, hd, k, hk, rfl, rfl, rfl⟩

theorem workLeft_set {rs : RankState W} (hr : r < c.numRanks)
    (hlt : phasesLeft rs.phase < phasesLeft (s.ranks r).phase) : c.workLeft (s.set r rs) < c.workLeft s := by
  refine Nat.add_lt_add_left (Finset.sum_lt_sum (fun r' _ => ?_) ⟨r, Finset.mem_range.mpr hr, ?_⟩) _
  · by_cases heq : r' = r
    · subst heq
      simpa [System.set] using hlt.le
    · simp [System.set, heq]
  · simpa [System.set] using hlt

theorem step_workLeft (h : c.Ok) (hs : c.Inv s) {a : Action} (hstep : c.next s a = some s') : c.workLeft s' < c.workLeft s := by
  cases a with
  | generate r =>
    obtain ⟨hr, hphase, -, rfl⟩ := step_generate hs h hstep
    exact workLeft_set hr (by simp [hphase, phasesLeft])
  | launch r =>
    obtain ⟨hr, hphase, -, rfl⟩ := step_launch hs hstep
    exact workLeft_set hr (by simp [hphase, phasesLeft])
  | update r =>
    obtain ⟨hr, hphase, -, rs, hdone, rfl⟩ := step_update hs h hstep
    exact workLeft_set hr (by simp [hphase, hdone, phasesLeft])
  | deliver src dst k =>
    obtain ⟨hsrc, hdst, hnew, hk, -, hphase, hdel⟩ := step_deliver hs h hstep
    unfold workLeft
    simp only [hphase, hdel]
    refine Nat.add_lt_add_right (Finset.card_lt_card ?_) _
    refine Finset.ssubset_iff_subset_ne.mpr ⟨?_, ?_⟩
    · intro m hm
      simp only [Finset.mem_sdiff, mem_toFinset, mem_cons, not_or] at hm ⊢
      exact ⟨hm.1, hm.2.2⟩
    · intro heq
      have hmem : (src, dst, k) ∈ c.messages \ s.delivered.toFinset := by
        simp only [Finset.mem_sdiff, mem_toFinset]
        exact ⟨mem_messages.mpr ⟨hsrc, hdst, hk⟩, hnew⟩
      rw [← heq] at hmem
      simp at hmem

/-! ## The result -/

def HoldsWeights (c : Update W) (s : System W) (r slot e : Nat) : Prop :=
  ((s.ranks r).adaptor.expertParamPerLayer c.layerId)[slot]? = some (c.weight e)

theorem Inv.holds_iff (h : c.Ok) (hinj : ∀ e < c.numExperts, ∀ e' < c.numExperts, c.weight e = c.weight e' → e = e')
    (hs : c.Inv s) (hdone : AllDone c.numRanks s) {slot e : Nat}
    (hr : r < c.numRanks) (hslot : slot < c.numSlots) (he : e < c.numExperts) :
    c.HoldsWeights s r slot e ↔ c.new r e = slot := by
  have hslots := hs.rank r hr
  rw [RankInv, hdone r hr] at hslots
  -- The slot has an expert in the new map, and it holds that expert's weights.
  obtain ⟨e', he', hnew'⟩ := h.update.new_valid.full r hr slot hslot
  have hheld := hslots.slot e' he' (by omega)
  rw [hnew', Int.toNat_natCast] at hheld
  constructor
  · intro hw
    unfold HoldsWeights at hw
    rw [hheld] at hw
    rw [← hinj e' he' e he (Option.some.inj hw)]
    exact hnew'
  · intro hnew
    have heq : e' = e := h.update.new_valid.distinct r hr e' he' e he (by omega) (by omega)
    rw [← heq]
    exact hheld

end Update

/-- The starting point of a layer update. Different experts have different weights. -/
structure LayerReady (numRanks numExperts numSlots numTensors layerId : Nat)
    (old new : Nat → Nat → Int) (weight : Nat → List W) (s : System W) : Prop where
  update : UpdateOk numRanks numExperts numSlots old new
  weight_length : ∀ e < numExperts, (weight e).length = numTensors
  weight_inj : ∀ e < numExperts, ∀ e' < numExperts, weight e = weight e' → e = e'
  idle : s.delivered = [] ∧
    ∀ r < numRanks, (s.ranks r).phase = .generate ∧ (s.ranks r).loader = {}
  map : ∀ r < numRanks, (s.ranks r).adaptor.expertMapPerLayerCpu layerId =
    (range numExperts).map (old r)
  slots : ∀ r < numRanks,
    ((s.ranks r).adaptor.expertParamPerLayer layerId).length = numSlots ∧
    ∀ e < numExperts, old r e ≠ -1 →
      ((s.ranks r).adaptor.expertParamPerLayer layerId)[(old r e).toNat]? = some (weight e)
  buffers : ∀ r < numRanks,
    let buffers := (s.ranks r).adaptor.bufferTensorList
      ((s.ranks r).adaptor.expertWeightKeyPerLayer layerId)
    buffers.length = numSlots ∧ ∀ b ∈ buffers, b.length = numTensors

/-- One layer update. Every pair of ranks agrees on its messages, every sender holds what it
sends, and every run over all ranks ends with each expert in its new slot. -/
theorem layerUpdate_moves_weights (numRanks numExperts numSlots numTensors layerId : Nat)
    (old new : Nat → Nat → Int) (weight : Nat → List W) (s₀ : System W)
    (h : LayerReady numRanks numExperts numSlots numTensors layerId old new weight s₀) :
    ∃ info, composeLayer numRanks numExperts new old layerId = some info ∧
      (∀ src dst, (((packLayer numExperts src info).sendInfo.filter fun p => p.1 = dst).map Prod.snd) =
        (((packLayer numExperts dst info).recvInfo.filter fun p => p.1 = src).map Prod.snd)) ∧
      (∀ src, ∀ p ∈ (packLayer numExperts src info).sendInfo, old src p.2 ≠ -1) ∧ ∃ bound, ∀ acts s,
        run (step numRanks layerId fun r => packLayer numExperts r info) s₀ acts = some s →
        acts.length ≤ bound ∧ (AllDone numRanks s ∨ ∃ a s',
          step numRanks layerId (fun r => packLayer numExperts r info) s a = some s') ∧
        (AllDone numRanks s → ∀ r < numRanks, ∀ slot < numSlots, ∀ e < numExperts,
          ((s.ranks r).adaptor.expertParamPerLayer layerId)[slot]? = some (weight e) ↔ new r e = slot) := by
  obtain ⟨tasks, info, hcompose, hlayer, hplan⟩ := composeLayer_spec h.update layerId
  let c : Update W := ⟨numRanks, numExperts, numSlots, numTensors, layerId, old, new, weight, tasks, info⟩
  have hok : c.Ok := ⟨h.update, hplan, hlayer, h.weight_length⟩
  have hstart : c.Inv s₀ := Update.Start.inv ⟨h.idle.2, fun r hr => ⟨h.map r hr,
    ⟨(h.slots r hr).1, (h.slots r hr).2⟩, (h.buffers r hr).1, (h.buffers r hr).2⟩, h.idle.1⟩
  refine ⟨info, hcompose, ?_, ?_, c.workLeft s₀, ?_⟩
  · intro src dst
    simp only [packLayer, hplan.send, hplan.recv]
    rw [(pair_experts src dst).1, (pair_experts src dst).2]
  · intro src p hp
    simp only [packLayer, hplan.send] at hp
    exact (hok.send hp).2
  · intro acts s hrun
    have hs : c.Inv s := (reaches_of_run hrun).inv c.Inv hstart
      fun t a u ht _ hstep => Update.step_inv ht hok hstep
    refine ⟨?_, ?_, ?_⟩
    · exact run_length_le c.Inv c.workLeft (fun t a u ht hstep =>
        ⟨Update.step_inv ht hok hstep, Update.step_workLeft hok ht hstep⟩) hstart hrun
    · by_cases hdone : AllDone numRanks s
      · exact .inl hdone
      · exact Or.inr (Update.progress hs hok hdone)
    · intro hdone r hr slot hslot e he
      exact hs.holds_iff hok h.weight_inj hdone hr hslot he

def swapMap (rows : List (List Int)) (r e : Nat) : Int := (rows.getD r []).getD e (-1)

def swapStart : System Nat where
  ranks r :=
    { adaptor :=
        { expertMapPerLayerCpu := fun _ => [[0, 1, -1], [-1, 1, 0]].getD r []
          expertParamPerLayer := fun _ => [[[10], [11]], [[12], [11]]].getD r []
          expertWeightKeyPerLayer := fun _ => 0
          bufferTensorList := fun _ => [[0], [0]] } }

theorem layerUpdate_moves_weights_swap :
    ∃ info, composeLayer 2 3 (swapMap [[-1, 1, 0], [0, 1, -1]]) (swapMap [[0, 1, -1], [-1, 1, 0]]) 0 = some info ∧
      ∀ acts s, run (step 2 0 fun r => packLayer 3 r info) swapStart acts = some s → AllDone 2 s →
        ((s.ranks 0).adaptor.expertParamPerLayer 0)[0]? = some [12] := by
  have hready : LayerReady 2 3 2 1 0 (swapMap [[0, 1, -1], [-1, 1, 0]])
      (swapMap [[-1, 1, 0], [0, 1, -1]]) (fun e => [10 + e]) swapStart := by
    refine ⟨⟨⟨?_, ?_, ?_⟩, ⟨?_, ?_, ?_⟩, ?_, ?_⟩, ?_, ?_, ⟨rfl, fun r _ => ⟨rfl, rfl⟩⟩, ?_, ?_, ?_⟩ <;>
      decide
  obtain ⟨info, hcompose, -, -, bound, hrun⟩ :=
    layerUpdate_moves_weights 2 3 2 1 0 _ _ (fun e => [10 + e]) swapStart hready
  exact ⟨info, hcompose, fun acts s hs hdone =>
    ((hrun acts s hs).2.2 hdone 0 (by decide) 0 (by decide) 2 (by decide)).mpr (by decide)⟩

end VllmAscend.Eplb
