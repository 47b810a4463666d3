import VllmAscend.Lib.Machine

/-!
# A queue and one event between two threads

The producer submits jobs, waits for the event and clears it; the consumer handles the jobs in order and sets the
event after each. When every wait is followed by a clear, no signal lets two waits return.
-/

namespace VllmAscend.Handoff

open Machine List

variable {α : Type*}

inductive Op (α : Type*)
  | wait
  | clear
  | submit (job : α)

/-- What the consumer is at: `done` is a job that is complete but not signalled. -/
inductive Consumer (α : Type*)
  | idle
  | busy (job : α)
  | done

inductive Action
  | produce
  | take
  | finish
  | signal

/-- `submitted`, `completed` and `waits` record the past. -/
structure State (α : Type*) where
  program : List (Op α) := []
  event : Bool := false
  queue : List α := []
  consumer : Consumer α := .idle
  submitted : List α := []
  completed : List α := []
  waits : Nat := 0

def produce (s : State α) : Option (State α) :=
  match s.program with
  | [] => none
  | .wait :: rest => if s.event then some { s with program := rest, waits := s.waits + 1 } else none
  | .clear :: rest => some { s with program := rest, event := false }
  | .submit job :: rest =>
    some { s with program := rest, queue := s.queue ++ [job], submitted := s.submitted ++ [job] }

def step (s : State α) : Action → Option (State α)
  | .produce => produce s
  | .take =>
    match s.consumer, s.queue with
    | .idle, job :: rest => some { s with consumer := .busy job, queue := rest }
    | _, _ => none
  | .finish =>
    match s.consumer with
    | .busy job => some { s with consumer := .done, completed := s.completed ++ [job] }
    | _ => none
  | .signal =>
    match s.consumer with
    | .done => some { s with consumer := .idle, event := true }
    | _ => none

/-! ## Waits and jobs -/

def Chained : List (Op α) → Prop
  | [] => True
  | .wait :: rest => (∃ rest', rest = .clear :: rest') ∧ Chained rest
  | .clear :: rest => Chained rest
  | .submit _ :: rest => Chained rest

theorem Chained.append {p q : List (Op α)} (hp : Chained p) (hq : Chained q) : Chained (p ++ q) := by
  induction p with
  | nil => exact hq
  | cons op rest ih =>
    cases op with
    | wait =>
      obtain ⟨⟨rest', hrest⟩, hc⟩ := hp
      exact ⟨⟨rest' ++ q, by rw [hrest]; rfl⟩, ih hc⟩
    | clear | submit job => exact ih hp

theorem Chained.flatMap {β : Type*} {f : β → List (Op α)} (h : ∀ b, Chained (f b)) (l : List β) :
    Chained (l.flatMap f) := by
  induction l with
  | nil => trivial
  | cons b rest ih => exact (h b).append ih

def Op.jobs : Op α → List α
  | .submit job => [job]
  | _ => []

def Op.isWait : Op α → Bool
  | .wait => true
  | _ => false

def submits (program : List (Op α)) : List α := program.flatMap Op.jobs

def waitCount (program : List (Op α)) : Nat := program.countP Op.isWait

theorem submits_flatMap {β : Type*} (f : β → List (Op α)) (l : List β) :
    submits (l.flatMap f) = l.flatMap fun b => submits (f b) := by
  simp [submits, flatMap_assoc]

variable {s t : State α}

theorem step_submits {a : Action} (h : step s a = some t) :
    t.submitted ++ submits t.program = s.submitted ++ submits s.program ∧
      t.waits + waitCount t.program = s.waits + waitCount s.program := by
  cases a with
  | produce =>
    simp only [step, produce] at h
    split at h
    · cases h
    · rename_i rest hprogram
      split at h
      · cases h
        have hcount : waitCount (.wait :: rest) = waitCount rest + 1 := countP_cons_of_pos rfl
        rw [hprogram]
        exact ⟨rfl, by dsimp only; omega⟩
      · cases h
    · rename_i rest hprogram
      cases h
      rw [hprogram]
      exact ⟨rfl, rfl⟩
    · rename_i job rest hprogram
      cases h
      rw [hprogram]
      exact ⟨append_assoc _ _ _, rfl⟩
  | take | finish | signal =>
    simp only [step] at h
    split at h <;> cases h
    exact ⟨rfl, rfl⟩

def Consumer.held : Consumer α → List α
  | .busy job => [job]
  | _ => []

def Consumer.unsignalled : Consumer α → Nat
  | .done => 1
  | _ => 0

/-- Jobs are handled in order; as many were signalled as waits returned, and one more when the event
is set and no clear is due. -/
structure Inv (s : State α) : Prop where
  order : s.completed ++ s.consumer.held ++ s.queue = s.submitted
  chained : Chained s.program
  signalled : s.waits + s.consumer.unsignalled ≤ s.completed.length
  fresh : s.event = true → (∀ rest, s.program ≠ .clear :: rest) →
    s.waits + s.consumer.unsignalled < s.completed.length

theorem Inv.produce (h : Inv s) (ht : produce s = some t) : Inv t := by
  obtain ⟨horder, hchained, hsignalled, hfresh⟩ := h
  unfold Handoff.produce at ht
  split at ht
  · cases ht
  · rename_i rest hprogram
    rw [hprogram] at hchained hfresh
    obtain ⟨hevent, ⟨⟩⟩ := Option.ite_none_right_eq_some.mp ht
    obtain ⟨⟨rest', hrest⟩, hc⟩ := hchained
    have hlt := hfresh hevent fun _ he => by cases he
    exact ⟨horder, hc, by dsimp only; omega, fun _ hclear => absurd hrest (hclear rest')⟩
  · rename_i rest hprogram
    rw [hprogram] at hchained
    cases ht
    exact ⟨horder, hchained, hsignalled, fun he => by cases he⟩
  · rename_i job rest hprogram
    rw [hprogram] at hchained hfresh
    cases ht
    refine ⟨?_, hchained, hsignalled, fun he _ => hfresh he fun _ he => by cases he⟩
    rw [← append_assoc, horder]

theorem Inv.step {a : Action} (h : Inv s) (ht : step s a = some t) : Inv t := by
  have ⟨horder, hchained, hsignalled, hfresh⟩ := h
  cases a with
  | produce => exact h.produce ht
  | take =>
    simp only [Handoff.step] at ht
    split at ht
    · rename_i job rest hidle hqueue
      cases ht
      rw [hidle] at horder hsignalled hfresh
      rw [hqueue] at horder
      exact ⟨by simpa [Consumer.held] using horder, hchained, hsignalled, hfresh⟩
    · cases ht
  | finish =>
    simp only [Handoff.step] at ht
    split at ht
    · rename_i job hbusy
      cases ht
      rw [hbusy] at horder hsignalled hfresh
      refine ⟨by simpa [Consumer.held] using horder, hchained, ?_, fun he hclear => ?_⟩
      · simpa [Consumer.unsignalled] using hsignalled
      · simpa [Consumer.unsignalled] using hfresh he hclear
    · cases ht
  | signal =>
    simp only [Handoff.step] at ht
    split at ht
    · rename_i hdone
      cases ht
      rw [hdone] at horder hsignalled
      simp only [Consumer.unsignalled] at hsignalled
      refine ⟨by simpa [Consumer.held] using horder, hchained, ?_, fun _ _ => ?_⟩
      all_goals
        simp only [Consumer.unsignalled]
        omega
    · cases ht

theorem Inv.mem_completed (h : Inv s) {job : α} (hj : job ∈ s.submitted.take s.waits) : job ∈ s.completed := by
  have hle : s.waits ≤ s.completed.length := by
    have := h.signalled
    omega
  rw [← h.order, append_assoc, take_append_of_le_length hle] at hj
  exact mem_of_mem_take hj

/-! ## A consumer that is no faster than it must be -/

def lazily (program : List (Op α)) : List Action :=
  program.flatMap fun
    | .wait => [.take, .finish, .signal, .produce]
    | _ => [.produce]

/-- With `n` jobs in the queue at first, there is one before every wait. -/
def Feeds : Nat → List (Op α) → Prop
  | _, [] => True
  | n, .wait :: rest => ∃ m, n = m + 1 ∧ Feeds m rest
  | n, .clear :: rest => Feeds n rest
  | n, .submit _ :: rest => Feeds (n + 1) rest

structure Lagging (s t : State α) (ops : List (Op α)) : Prop where
  program : t.program = []
  idle : t.consumer = .idle
  waits : t.waits = s.waits + waitCount ops
  completed : t.completed.length = s.completed.length + waitCount ops
  submitted : t.submitted = s.submitted ++ submits ops
  queue : t.queue.length + waitCount ops = s.queue.length + (submits ops).length

theorem exists_lagging {ops : List (Op α)} (hprogram : s.program = ops)
    (hidle : s.consumer = .idle) (hfeeds : Feeds s.queue.length ops) :
    ∃ t, run step s (lazily ops) = some t ∧ Lagging s t ops := by
  induction ops generalizing s with
  | nil => exact ⟨s, rfl, hprogram, hidle, rfl, rfl, by simp [submits], rfl⟩
  | cons op rest ih =>
    cases op with
    | wait =>
      obtain ⟨m, hm, hrest⟩ := hfeeds
      obtain ⟨job, queue, hqueue⟩ := exists_cons_of_length_eq_add_one hm
      let u : State α :=
        { s with
          program := rest, event := true, queue := queue, consumer := .idle,
          completed := s.completed ++ [job], waits := s.waits + 1 }
      have hu : run step s [.take, .finish, .signal, .produce] = some u := by
        simp [run, step, produce, hidle, hqueue, hprogram, u]
      have hlen : queue.length = m := by
        rw [hqueue, length_cons] at hm
        omega
      obtain ⟨t, ht, hl⟩ := ih (s := u) rfl rfl (hlen.symm ▸ hrest)
      have hcount : waitCount (.wait :: rest) = waitCount rest + 1 := countP_cons_of_pos rfl
      refine ⟨t, (run_append hu).trans ht, hl.program, hl.idle, ?_, ?_, hl.submitted, ?_⟩
      · rw [hl.waits, hcount]
        exact Nat.add_right_comm _ _ _
      · rw [hl.completed, hcount, length_append]
        exact Nat.add_right_comm _ _ _
      · have hq : t.queue.length + waitCount rest = queue.length + (submits rest).length := hl.queue
        have hsub : submits (.wait :: rest) = submits rest := rfl
        rw [hsub, hm]
        omega
    | clear =>
      let u : State α := { s with program := rest, event := false }
      have hu : run step s [.produce] = some u := by simp [run, step, produce, hprogram, u]
      obtain ⟨t, ht, hl⟩ := ih (s := u) rfl hidle hfeeds
      exact ⟨t, (run_append hu).trans ht, hl.program, hl.idle, hl.waits, hl.completed, hl.submitted, hl.queue⟩
    | submit job =>
      let u : State α := { s with program := rest, queue := s.queue ++ [job], submitted := s.submitted ++ [job] }
      have hu : run step s [.produce] = some u := by simp [run, step, produce, hprogram, u]
      have hlen : u.queue.length = s.queue.length + 1 := length_append
      obtain ⟨t, ht, hl⟩ := ih (s := u) rfl hidle (hlen.symm ▸ hfeeds)
      have hsub : submits (.submit job :: rest) = job :: submits rest := rfl
      refine ⟨t, (run_append hu).trans ht, hl.program, hl.idle, hl.waits, hl.completed, ?_, ?_⟩
      · rw [hl.submitted, hsub, append_assoc]
        rfl
      · have hq := hl.queue
        have hcount : waitCount (.submit job :: rest) = waitCount rest := rfl
        rw [hsub, length_cons]
        omega

end VllmAscend.Handoff
