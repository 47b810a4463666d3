import Mathlib.Tactic.Common

/-!
# Imperative code with exceptions

`Exec ε σ α` is code that changes a state and returns or raises; what was changed before a `raise` stays changed.
`Triple P m Q E` has one postcondition for a return and one for an exception.
-/

namespace VllmAscend

def Exec (ε σ α : Type) := σ → Except ε α × σ

namespace Exec

variable {ε ε' σ α β : Type}

instance : Monad (Exec ε σ) where
  pure a := fun s => (.ok a, s)
  bind m k := fun s =>
    match m s with
    | (.ok a, s) => k a s
    | (.error e, s) => (.error e, s)

def raise (e : ε) : Exec ε σ α := fun s => (.error e, s)

def get : Exec ε σ σ := fun s => (.ok s, s)

def modify (f : σ → σ) : Exec ε σ Unit := fun s => (.ok (), f s)

def ofExcept (x : Except ε α) : Exec ε σ α := fun s => (x, s)

/-- `try: m`, with the exception handed to the code that follows. -/
def attempt (m : Exec ε σ α) : Exec ε' σ (Except ε α) := fun s =>
  let (res, s) := m s
  (.ok res, s)

/-- `if not c: raise e` -/
def require (c : Bool) (e : ε) : Exec ε σ Unit := if c then pure () else raise e

/-- `if c: m` -/
def when (c : Bool) (m : Exec ε σ Unit) : Exec ε σ Unit := if c then m else pure ()

/-- `for x in l: f(x)` -/
def forEach (l : List β) (f : β → Exec ε σ Unit) : Exec ε σ Unit :=
  match l with
  | [] => pure ()
  | x :: rest => do
    f x
    forEach rest f

theorem bind_eq_ok {m : Exec ε σ α} {k : α → Exec ε σ β} {s s' : σ} {b : β} :
    (m >>= k) s = (.ok b, s') ↔ ∃ a s₁, m s = (.ok a, s₁) ∧ k a s₁ = (.ok b, s') := by
  change (match m s with
    | (.ok a, s) => k a s
    | (.error e, s) => (.error e, s)) = _ ↔ _
  rcases m s with ⟨_ | a, s₁⟩ <;> simp

theorem except_bind_eq_ok {x : Except ε α} {f : α → Except ε β} {b : β} :
    (x >>= f) = .ok b ↔ ∃ a, x = .ok a ∧ f a = .ok b := by
  cases x with
  | error e | ok a => simp [bind, Except.bind]

theorem error_ite_eq_ok {c : Prop} [Decidable c] {e : ε} {x : Except ε α} {a : α} :
    (if c then .error e else x) = .ok a ↔ ¬ c ∧ x = .ok a := by
  split <;> simp [*]

theorem throw_ite_eq_ok {c : Prop} [Decidable c] {e : ε} {x : Except ε α} {k : PUnit → Except ε α} {a : α} :
    (if c then throw e >>= k else x) = .ok a ↔ ¬ c ∧ x = .ok a := error_ite_eq_ok

/-! ## Triples -/

def Triple (P : σ → Prop) (m : Exec ε σ α) (Q : α → σ → Prop) (E : ε → σ → Prop) : Prop :=
  ∀ s, P s →
    match m s with
    | (.ok a, s') => Q a s'
    | (.error e, s') => E e s'

/-- `P` holds again afterwards, whether the code returns or raises. -/
abbrev Preserves (P : σ → Prop) (m : Exec ε σ α) : Prop := Triple P m (fun _ => P) (fun _ => P)

variable {P P' : σ → Prop} {m : Exec ε σ α} {Q Q' : α → σ → Prop} {R : β → σ → Prop}
  {E E' : ε → σ → Prop}

theorem Triple.pure (a : α) (h : ∀ s, P s → Q a s) : Triple P (Pure.pure a : Exec ε σ α) Q E := fun s hs => h s hs

theorem Triple.ret {a : α} : Triple P (Pure.pure a : Exec ε σ α) (fun _ => P) E := fun _ hs => hs

theorem Triple.pure_eq {s : σ} {a : α} (h : Q a s) : Triple (· = s) (Pure.pure a : Exec ε σ α) Q E :=
  fun _ hs => hs ▸ h

theorem Triple.raise (e : ε) (h : ∀ s, P s → E e s) : Triple P (raise e : Exec ε σ α) Q E := fun s hs => h s hs

theorem Triple.modify (f : σ → σ) {Q : Unit → σ → Prop} (h : ∀ s, P s → Q () (f s)) :
    Triple P (modify f : Exec ε σ Unit) Q E := fun s hs => h s hs

theorem Triple.bind {k : α → Exec ε σ β} (hm : Triple P m Q E) (hk : ∀ a, Triple (Q a) (k a) R E) :
    Triple P (m >>= k) R E := by
  intro s hs
  have hres := hm s hs
  change match (match m s with
    | (.ok a, s) => k a s
    | (.error e, s) => (.error e, s)) with
    | (.ok a, s') => R a s'
    | (.error e, s') => E e s'
  rcases hms : m s with ⟨e | a, s'⟩ <;> rw [hms] at hres
  · exact hres
  · exact hk a s' hres

theorem Triple.get_bind {k : σ → Exec ε σ β} (hk : ∀ s, P s → Triple (· = s) (k s) R E) :
    Triple P (get >>= k) R E := fun s hs => hk s hs s rfl

theorem Triple.get_keep {k : σ → Exec ε σ β} (hk : ∀ s, P s → Triple P (k s) R E) : Triple P (get >>= k) R E :=
  fun s hs => hk s hs s hs

section

variable (hm : Triple P m Q E)

include hm

theorem Triple.conseq (hP : ∀ s, P' s → P s) (hQ : ∀ a s, Q a s → Q' a s)
    (hE : ∀ e s, E e s → E' e s) : Triple P' m Q' E' := by
  intro s hs
  have hres := hm s (hP s hs)
  rcases hms : m s with ⟨e | a, s'⟩ <;> rw [hms] at hres
  · exact hE e s' hres
  · exact hQ a s' hres

theorem Triple.of_pre (hP : ∀ s, P' s → P s) : Triple P' m Q E := fun s hs => hm s (hP s hs)

theorem Triple.of_eq {s : σ} (hs : P s) : Triple (· = s) m Q E := hm.of_pre fun _ he => he ▸ hs

theorem Triple.mono_error (hE : ∀ e s, E e s → E' e s) : Triple P m Q E' :=
  hm.conseq (fun _ h => h) (fun _ _ h => h) hE

theorem Triple.attempt {E₁ : ε' → σ → Prop} :
    Triple P (attempt m) (fun res s => match res with | .ok a => Q a s | .error e => E e s) E₁ := by
  intro s hs
  have hres := hm s hs
  unfold Exec.attempt
  rcases hms : m s with ⟨e | a, s'⟩ <;> rw [hms] at hres <;> exact hres

end

theorem Triple.require {c : Bool} {e : ε} {Q : Unit → σ → Prop} (hc : ∀ s, P s → c = true → Q () s)
    (he : ∀ s, P s → E e s) : Triple P (require c e : Exec ε σ Unit) Q E := by
  unfold Exec.require
  split
  · exact .pure () fun s hs => hc s hs ‹_›
  · exact .raise e he

theorem Triple.ofExcept_bind {x : Except ε α} {k : α → Exec ε σ β} (herr : ∀ e s, P s → E e s)
    (hk : ∀ a, x = .ok a → Triple P (k a) R E) : Triple P (Exec.ofExcept x >>= k) R E := by
  cases x with
  | ok a => exact hk a rfl
  | error e => exact fun s hs => herr e s hs

theorem Triple.require_bind {c : Bool} {e : ε} {k : Unit → Exec ε σ β} (herr : c = false → ∀ s, P s → E e s)
    (hk : c = true → Triple P (k ()) R E) : Triple P (Exec.require c e >>= k) R E := by
  cases c with
  | true => exact hk rfl
  | false => exact fun s hs => herr rfl s hs

theorem Triple.modify_bind {f : σ → σ} {s : σ} {k : Unit → Exec ε σ β} (hk : Triple (· = f s) (k ()) R E) :
    Triple (· = s) (Exec.modify f >>= k) R E := by
  rintro s rfl
  exact hk _ rfl

theorem Triple.when {c : Bool} {m : Exec ε σ Unit} {Q : Unit → σ → Prop} (hm : Triple P m Q E)
    (hs : ∀ s, P s → Q () s) : Triple P (when c m) Q E := by
  unfold Exec.when
  split
  · exact hm
  · exact .pure () hs

theorem Triple.ite {c : Prop} [Decidable c] {m' : Exec ε σ α} (ht : c → Triple P m Q E)
    (hf : ¬ c → Triple P m' Q E) : Triple P (if c then m else m') Q E := by
  split
  · exact ht ‹_›
  · exact hf ‹_›

/-- The invariant rule of a `for` loop; the invariant sees what is left of the list. -/
theorem Triple.forEach {I : List β → σ → Prop} {f : β → Exec ε σ Unit}
    (hf : ∀ x rest, Triple (I (x :: rest)) (f x) (fun _ => I rest) E) (l : List β) :
    Triple (I l) (forEach l f) (fun _ => I []) E := by
  induction l with
  | nil => exact .ret
  | cons x rest ih => exact .bind (hf x rest) fun _ => ih

theorem Triple.state {I : σ → Prop} (hm : Triple P m (fun _ => I) (fun _ => I)) {s : σ} (hs : P s) : I (m s).2 := by
  have hres := hm s hs
  rcases hms : m s with ⟨e | a, s'⟩ <;> rw [hms] at hres <;> exact hres

theorem Triple.top : Triple P m (fun _ _ => True) (fun _ _ => True) := by
  intro s _
  split <;> trivial

/-! ## Frames -/

/-- The code leaves `view` of the state as it is, whether it returns or raises. -/
def Keeps {τ : Type*} (view : σ → τ) (m : Exec ε σ α) : Prop := ∀ s, view (m s).2 = view s

namespace Keeps

variable {τ : Type*} {view : σ → τ}

theorem pure (a : α) : Keeps view (Pure.pure a : Exec ε σ α) := fun _ => rfl

theorem raise (e : ε) : Keeps view (Exec.raise e : Exec ε σ α) := fun _ => rfl

theorem get : Keeps view (Exec.get : Exec ε σ σ) := fun _ => rfl

theorem modify {f : σ → σ} (hf : ∀ s, view (f s) = view s) : Keeps view (Exec.modify f : Exec ε σ Unit) := hf

theorem ofExcept (x : Except ε α) : Keeps view (Exec.ofExcept x : Exec ε σ α) := fun _ => rfl

theorem bind {k : α → Exec ε σ β} (hm : Keeps view m) (hk : ∀ a, Keeps view (k a)) : Keeps view (m >>= k) := by
  intro s
  have hs := hm s
  change view (match m s with
    | (.ok a, s) => k a s
    | (.error e, s) => (.error e, s)).2 = view s
  rcases hms : m s with ⟨e | a, s'⟩ <;> rw [hms] at hs
  · exact hs
  · exact (hk a s').trans hs

theorem attempt (hm : Keeps view m) : Keeps view (Exec.attempt m : Exec ε' σ (Except ε α)) := hm

theorem require {c : Bool} {e : ε} : Keeps view (Exec.require c e : Exec ε σ Unit) := by
  unfold Exec.require
  split
  · exact pure ()
  · exact raise e

theorem when {c : Bool} {m : Exec ε σ Unit} (hm : Keeps view m) : Keeps view (Exec.when c m) := by
  unfold Exec.when
  split
  · exact hm
  · exact pure ()

theorem ite {c : Prop} [Decidable c] {m' : Exec ε σ α} (hm : Keeps view m) (hm' : Keeps view m') :
    Keeps view (if c then m else m') := by
  split
  · exact hm
  · exact hm'

theorem forEach {l : List β} {f : β → Exec ε σ Unit} (hf : ∀ x, Keeps view (f x)) : Keeps view (Exec.forEach l f) := by
  induction l with
  | nil => exact pure ()
  | cons x rest ih => exact bind (hf x) fun _ => ih

theorem comp {τ' : Type*} (hm : Keeps view m) (g : τ → τ') : Keeps (fun s => g (view s)) m := fun s => congrArg g (hm s)

theorem triple (hm : Keeps view m) (I : τ → Prop) :
    Triple (fun s => I (view s)) m (fun _ s => I (view s)) (fun _ s => I (view s)) := by
  intro s hs
  rw [← hm s] at hs
  split <;> simp_all

end Keeps

end Exec

end VllmAscend
