import Mathlib.Tactic.Common

/-!
# Runs of a machine

A machine is a partial step function: `step s a` is `none` when the action `a` is not possible
in `s`. `Reaches step ok s t` is a run from `s` to `t` in which every action meets `ok`.
-/

namespace VllmAscend.Machine

variable {σ α : Type*} {step : σ → α → Option σ} {ok : σ → α → Prop}

inductive Reaches (step : σ → α → Option σ) (ok : σ → α → Prop) (s : σ) : σ → Prop
  | refl : Reaches step ok s s
  | tail {t u : σ} {a : α} : Reaches step ok s t → ok t a → step t a = some u → Reaches step ok s u

def AnyAction : σ → α → Prop := fun _ _ => True

theorem Reaches.inv {s t : σ} (h : Reaches step ok s t) (I : σ → Prop) (h0 : I s)
    (hstep : ∀ t a u, I t → ok t a → step t a = some u → I u) : I t := by
  induction h with
  | refl => exact h0
  | tail _ hok hs ih => exact hstep _ _ _ ih hok hs

def run (step : σ → α → Option σ) (s : σ) : List α → Option σ
  | [] => some s
  | a :: acts => (step s a).bind fun t => run step t acts

theorem run_append {s t : σ} {p q : List α} (h : run step s p = some t) : run step s (p ++ q) = run step t q := by
  induction p generalizing s with
  | nil =>
    cases h
    rfl
  | cons a rest ih =>
    obtain ⟨u, hs, hu⟩ := Option.bind_eq_some_iff.mp h
    rw [List.cons_append, run, hs]
    exact ih hu

theorem Reaches.head {s t u : σ} {a : α} (hok : ok s a) (hs : step s a = some t)
    (h : Reaches step ok t u) : Reaches step ok s u := by
  induction h with
  | refl => exact .tail .refl hok hs
  | tail _ hok' hs' ih => exact .tail ih hok' hs'

theorem Reaches.trans {s t u : σ} (h : Reaches step ok s t) (h' : Reaches step ok t u) : Reaches step ok s u := by
  induction h' with
  | refl => exact h
  | tail _ hok hs ih => exact ih.tail hok hs

/-- Every action of a run meets `ok` in the state it is taken in. -/
def RunOk (step : σ → α → Option σ) (ok : σ → α → Prop) (s : σ) : List α → Prop
  | [] => True
  | a :: acts => ok s a ∧ ∀ t ∈ step s a, RunOk step ok t acts

instance RunOk.decidable [∀ s a, Decidable (ok s a)] :
    (acts : List α) → (s : σ) → Decidable (RunOk step ok s acts)
  | [], _ => isTrue trivial
  | _ :: acts, _ =>
    have := fun t => RunOk.decidable acts t
    inferInstanceAs (Decidable (_ ∧ _))

theorem RunOk.reaches {acts : List α} {s t : σ} (hok : RunOk step ok s acts)
    (h : run step s acts = some t) : Reaches step ok s t := by
  induction acts generalizing s with
  | nil =>
    cases h
    exact .refl
  | cons a acts ih =>
    obtain ⟨u, hs, hu⟩ := Option.bind_eq_some_iff.mp h
    exact (ih (hok.2 u hs) hu).head hok.1 hs

theorem RunOk.of_forall {acts : List α} (h : ∀ a ∈ acts, ∀ s, ok s a) (s : σ) : RunOk step ok s acts := by
  induction acts generalizing s with
  | nil => trivial
  | cons a acts ih => exact ⟨h a (by simp) s, fun t _ => ih (fun a ha => h a (List.mem_cons_of_mem _ ha)) t⟩

theorem reaches_of_run {acts : List α} {s t : σ} (h : run step s acts = some t) : Reaches step AnyAction s t :=
  (RunOk.of_forall (fun _ _ _ => trivial) s).reaches h

/-- A measure that every step lowers bounds the length of every run. -/
theorem run_length_le (I : σ → Prop) (μ : σ → Nat)
    (hstep : ∀ s a t, I s → step s a = some t → I t ∧ μ t < μ s) {acts : List α} {s t : σ}
    (hI : I s) (h : run step s acts = some t) : acts.length ≤ μ s := by
  induction acts generalizing s with
  | nil => exact Nat.zero_le _
  | cons a acts ih =>
    obtain ⟨u, hs, hu⟩ := Option.bind_eq_some_iff.mp h
    obtain ⟨hIu, hlt⟩ := hstep s a u hI hs
    have := ih hIu hu
    simp only [List.length_cons]
    omega

/-! ## Machines that run by themselves -/

section Auto

variable {step : σ → Unit → Option σ}

/-- Step until no step is possible. `none` when the fuel does not suffice. -/
def runToEnd (step : σ → Unit → Option σ) : Nat → σ → Option σ
  | 0, s => if (step s ()).isSome then none else some s
  | fuel + 1, s =>
    match step s () with
    | some t => runToEnd step fuel t
    | none => some s

theorem reaches_of_runToEnd {fuel : Nat} {s t : σ} (h : runToEnd step fuel s = some t) :
    Reaches step AnyAction s t ∧ step t () = none := by
  induction fuel generalizing s with
  | zero =>
    obtain ⟨hs, ⟨⟩⟩ := Option.ite_none_left_eq_some.mp h
    exact ⟨.refl, by simpa using hs⟩
  | succ fuel ih =>
    unfold runToEnd at h
    split at h
    · rename_i u hu
      obtain ⟨hr, ht⟩ := ih h
      exact ⟨hr.head trivial hu, ht⟩
    · rename_i hs
      cases h
      exact ⟨.refl, hs⟩

theorem runToEnd_isSome (I : σ → Prop) (μ : σ → Nat)
    (hstep : ∀ s t, I s → step s () = some t → I t ∧ μ t < μ s) {fuel : Nat} {s : σ} (hI : I s)
    (hμ : μ s ≤ fuel) : ∃ t, runToEnd step fuel s = some t := by
  induction fuel generalizing s with
  | zero =>
    refine ⟨s, ?_⟩
    unfold runToEnd
    cases hs : step s () with
    | none => rfl
    | some t =>
      have := (hstep s t hI hs).2
      omega
  | succ fuel ih =>
    unfold runToEnd
    cases hs : step s () with
    | none => exact ⟨s, rfl⟩
    | some t =>
      obtain ⟨hIt, hlt⟩ := hstep s t hI hs
      exact ih hIt (by omega)

/-- A run, with the states it has left. -/
inductive Trace (step : σ → Unit → Option σ) (s : σ) : List σ → σ → Prop
  | refl : Trace step s [] s
  | tail {visited : List σ} {t u : σ} : Trace step s visited t → step t () = some u → Trace step s (visited ++ [t]) u

theorem Trace.inv {s t : σ} {visited : List σ} (h : Trace step s visited t) (I : List σ → σ → Prop) (h0 : I [] s)
    (hstep : ∀ visited t u, I visited t → step t () = some u → I (visited ++ [t]) u) : I visited t := by
  induction h with
  | refl => exact h0
  | tail _ hs ih => exact hstep _ _ _ ih hs

theorem Reaches.cases_head {s e : σ} (h : Reaches step AnyAction s e) :
    s = e ∨ ∃ u, step s () = some u ∧ Reaches step AnyAction u e := by
  induction h with
  | refl => exact .inl rfl
  | tail _ hok hs ih =>
    rcases ih with rfl | ⟨u, hu, hr⟩
    · exact .inr ⟨_, hs, .refl⟩
    · exact .inr ⟨u, hu, hr.tail hok hs⟩

theorem Reaches.to_end {s t e : σ} (ht : Reaches step AnyAction s t) (he : Reaches step AnyAction s e)
    (hend : step e () = none) : Reaches step AnyAction t e := by
  induction ht with
  | refl => exact he
  | tail _ _ hs ih =>
    rcases ih.cases_head with rfl | ⟨u, hu, hr⟩
    · rw [hend] at hs
      cases hs
    · cases hs.symm.trans hu
      exact hr

end Auto

end VllmAscend.Machine
