import Mathlib.Algebra.BigOperators.Group.Finset.Sigma
import Mathlib.Order.Interval.Set.Union
import Mathlib.Tactic.Ring

/-!
# Loops with a bound, and ranges cut at increasing points

`whileFuel` runs a `while` loop for at most `fuel` rounds. It returns `none` when the fuel runs out with the
condition still true, or when the body fails.
-/

namespace VllmAscend.Loop

open List Option

variable {σ : Type*}

def whileFuel (cond : σ → Bool) (body : σ → Option σ) : Nat → σ → Option σ
  | 0, s => if cond s then none else some s
  | fuel + 1, s => if cond s then (body s).bind (whileFuel cond body fuel) else some s

/-- A `do … while` loop: the body runs once before the first test. -/
def doWhileFuel (cond : σ → Bool) (body : σ → Option σ) (fuel : Nat) (s : σ) : Option σ :=
  (body s).bind (whileFuel cond body fuel)

/-- Total correctness of a loop, with an invariant `I` and a variant `μ`. -/
theorem whileFuel_spec {cond : σ → Bool} {body : σ → Option σ} (I : σ → Prop) (μ : σ → Nat)
    (hstep : ∀ s, I s → cond s = true → ∃ s', body s = some s' ∧ I s' ∧ μ s' < μ s)
    (fuel : Nat) (s : σ) (hI : I s) (hμ : μ s ≤ fuel) :
    ∃ s', whileFuel cond body fuel s = some s' ∧ I s' ∧ cond s' = false := by
  induction fuel generalizing s with
  | zero =>
    cases hc : cond s with
    | true =>
      obtain ⟨s', -, -, hlt⟩ := hstep s hI hc
      omega
    | false => exact ⟨s, by simp [whileFuel, hc], hI, hc⟩
  | succ n ih =>
    cases hc : cond s with
    | true =>
      obtain ⟨s', hb, hI', hlt⟩ := hstep s hI hc
      obtain ⟨t, ht, hIt, hct⟩ := ih s' hI' (by omega)
      exact ⟨t, by simp [whileFuel, hc, hb, ht], hIt, hct⟩
    | false => exact ⟨s, by simp [whileFuel, hc], hI, hc⟩

/-- The invariant rule of a `for` loop over `0 … n - 1`: `I k` holds after `k` rounds. -/
theorem foldl_range_inv {f : σ → Nat → σ} {n : Nat} {s : σ} (I : Nat → σ → Prop) (h0 : I 0 s)
    (hstep : ∀ k s, k < n → I k s → I (k + 1) (f s k)) : I n ((range n).foldl f s) := by
  suffices h : ∀ m ≤ n, I m ((range m).foldl f s) from h n le_rfl
  intro m
  induction m with
  | zero => intro _; exact h0
  | succ k ih =>
    intro hk
    rw [range_succ, foldl_append]
    exact hstep k _ (by omega) (ih (by omega))

variable {α β : Type*} {f : α → Option β} {l : List α} {rs : List β}

theorem bind_of_some {o : Option α} {a : α} (h : o = some a) (f : α → Option β) : o.bind f = f a := by
  rw [h, bind_some]

theorem mapM_eq_pure.{u, v, w} {m : Type u → Type v} [Monad m] [LawfulMonad m] {α : Type w}
    {β : Type u} {f : α → m β} {g : α → β} {l : List α} (h : ∀ x ∈ l, f x = pure (g x)) : l.mapM f = pure (l.map g) := by
  induction l with
  | nil => rfl
  | cons x rest ih =>
    rw [mapM_cons, h x (by simp), ih fun y hy => h y (mem_cons_of_mem _ hy)]
    simp

theorem mapM_eq_map {g : α → β} (h : ∀ x ∈ l, f x = some (g x)) : l.mapM f = some (l.map g) :=
  mapM_eq_pure h

theorem mapM_eq_some_iff : l.mapM f = some rs ↔ l.map f = rs.map some := by
  induction l generalizing rs with
  | nil => cases rs <;> simp
  | cons x l ih =>
    cases rs with
    | nil => cases hx : f x <;> cases hl : l.mapM f <;> simp [mapM_cons, hx, hl]
    | cons r rs => cases hx : f x <;> cases hl : l.mapM f <;> simp_all [mapM_cons]

theorem mapM_eq_ok_iff {ε : Type*} {f : α → Except ε β} :
    l.mapM f = .ok rs ↔ l.map f = rs.map .ok := by
  induction l generalizing rs with
  | nil => cases rs <;> simp [pure, Except.pure]
  | cons x l ih =>
    cases rs with
    | nil => cases hx : f x <;> cases hl : l.mapM f <;> simp [mapM_cons, hx, hl, bind, Except.bind, pure, Except.pure]
    | cons r rs =>
      cases hx : f x <;> cases hl : l.mapM f <;> simp_all [mapM_cons, bind, Except.bind, pure, Except.pure]

theorem forM_eq_ok_iff {ε : Type*} {f : α → Except ε Unit} :
    l.forM f = .ok () ↔ ∀ x ∈ l, f x = .ok () := by
  induction l with
  | nil => simp [pure, Except.pure]
  | cons x l ih =>
    rw [forall_mem_cons, ← ih]
    change (f x >>= fun _ => l.forM f) = .ok () ↔ _
    cases f x with
    | error e | ok _ => simp [bind, Except.bind]

theorem eq_map_of_mapM (d : β) (h : l.mapM f = some rs) : rs = l.map fun x => (f x).getD d := by
  have hmap := congrArg (List.map (Option.getD · d)) (mapM_eq_some_iff.mp h)
  simpa [Function.comp_def] using hmap.symm

theorem exists_of_mapM (h : l.mapM f = some rs) {x : α} (hx : x ∈ l) : ∃ y, f x = some y := by
  have hmem : f x ∈ rs.map some := mapM_eq_some_iff.mp h ▸ mem_map_of_mem hx
  obtain ⟨y, -, hy⟩ := mem_map.mp hmem
  exact ⟨y, hy.symm⟩

/-- A loop in which only round `i` touches what `view` shows. -/
theorem foldlM_only {f : σ → α → Option σ} {i : Nat} (I : σ → Prop) (view : σ → β) (Q : β → β → Prop)
    (hskip : ∀ j a s, l[j]? = some a → j ≠ i → I s → ∃ s', f s a = some s' ∧ I s' ∧ view s' = view s)
    (hround : ∀ a s, l[i]? = some a → I s → ∃ s', f s a = some s' ∧ I s' ∧ Q (view s) (view s'))
    (hi : i < l.length) (s : σ) (hs : I s) : ∃ s', l.foldlM f s = some s' ∧ I s' ∧ Q (view s) (view s') := by
  -- The rounds without `i` among them change nothing.
  have hrest : ∀ (l' : List α) (s : σ), (∀ a ∈ l', ∀ s, I s → ∃ s', f s a = some s' ∧ I s' ∧ view s' = view s) → I s →
      ∃ s', l'.foldlM f s = some s' ∧ I s' ∧ view s' = view s := by
    intro l'
    induction l' with
    | nil => exact fun s _ hs => ⟨s, rfl, hs, rfl⟩
    | cons a rest ih =>
      intro s hl hs
      obtain ⟨s₁, h₁, hs₁, hv₁⟩ := hl a mem_cons_self s hs
      obtain ⟨s₂, h₂, hs₂, hv₂⟩ := ih s₁ (fun b hb => hl b (mem_cons_of_mem a hb)) hs₁
      exact ⟨s₂, by rw [foldlM_cons, h₁]; exact h₂, hs₂, hv₂.trans hv₁⟩
  induction l generalizing i s with
  | nil => cases hi
  | cons a rest ih =>
    cases i with
    | zero =>
      obtain ⟨s₁, h₁, hs₁, hq⟩ := hround a s rfl hs
      obtain ⟨s₂, h₂, hs₂, hv₂⟩ := hrest rest s₁ (fun b hb s hs => by
        obtain ⟨j, hj⟩ := mem_iff_getElem?.mp hb
        exact hskip (j + 1) b s hj (by omega) hs) hs₁
      exact ⟨s₂, by rw [foldlM_cons, h₁]; exact h₂, hs₂, hv₂ ▸ hq⟩
    | succ i =>
      obtain ⟨s₁, h₁, hs₁, hv₁⟩ := hskip 0 a s rfl (by omega) hs
      obtain ⟨s₂, h₂, hs₂, hq⟩ := ih (fun j b s hj hne => hskip (j + 1) b s hj (by omega)) hround
        (Nat.lt_of_succ_lt_succ hi) s₁ hs₁
      exact ⟨s₂, by rw [foldlM_cons, h₁]; exact h₂, hs₂, hv₁ ▸ hq⟩

theorem foldl_zipIdx_skip (f : σ → α → σ) (k : Nat) (s : σ) :
    l.zipIdx.foldl (fun s entry => if entry.2 < k then s else f s entry.1) s = (l.drop k).foldl f s := by
  have key : ∀ (l : List α) (n : Nat) (s : σ),
      (l.zipIdx n).foldl (fun s entry => if entry.2 < k then s else f s entry.1) s = (l.drop (k - n)).foldl f s := by
    intro l
    induction l with
    | nil => simp
    | cons x l ih =>
      intro n s
      rw [zipIdx_cons, foldl_cons, ih (n + 1)]
      split
      next hskip => rw [show k - n = k - (n + 1) + 1 by omega, drop_succ_cons]
      next hskip =>
        rw [show k - n = 0 by omega, show k - (n + 1) = 0 by omega]
        rfl
  exact key l 0 s

/-- The ranges between increasing cut points share no point and miss none. -/
theorem existsUnique_range [LinearOrder α] (c : Nat → α) (n : Nat)
    (hc : ∀ i < n, c i ≤ c (i + 1)) {x : α} (h0 : c 0 ≤ x) (hn : x < c n) :
    ∃! i, i < n ∧ c i ≤ x ∧ x < c (i + 1) := by
  have mono : ∀ i j, i ≤ j → j ≤ n → c i ≤ c j := by
    intro i j hij
    induction j, hij using Nat.le_induction with
    | base => intro _; exact le_rfl
    | succ j _ ih => intro hj; exact (ih (by omega)).trans (hc j (by omega))
  obtain ⟨i, hi, hix⟩ : ∃ i ∈ Finset.range n, x ∈ Set.Ico (c i) (c (i + 1)) := by
    simpa only [Set.mem_iUnion, exists_prop] using Ico_subset_biUnion_Ico n c ⟨h0, hn⟩
  have hin : i < n := Finset.mem_range.mp hi
  refine ⟨i, ⟨hin, hix.1, hix.2⟩, ?_⟩
  rintro j ⟨hjn, hj, hj'⟩
  -- Of two ranges that hold `x`, the first would end before the second starts.
  rcases lt_trichotomy i j with h | h | h
  · exact absurd (hix.2.trans_le (mono (i + 1) j h hjn.le)) (not_lt.mpr hj)
  · exact h.symm
  · exact absurd (hj'.trans_le (mono (j + 1) i h hin.le)) (not_lt.mpr hix.1)

/-- How many of the ranges, each a start and a length, hold the point. Ranges tile blocks when both cover every point
equally often. -/
def cover (l : List (Nat × Nat)) (x : Nat) : Nat := l.countP fun p => p.1 ≤ x ∧ x < p.1 + p.2

section Cover

variable (a n w x : Nat)

theorem cover_append (l l' : List (Nat × Nat)) : cover (l ++ l') x = cover l x + cover l' x := countP_append

theorem cover_cons (p q : Nat × Nat) (l : List (Nat × Nat)) :
    cover (p :: q :: l) x = cover [p] x + cover (q :: l) x := cover_append x [p] (q :: l)

theorem cover_split : cover [(a, n + w)] x = cover [(a, n)] x + cover [(a + n, w)] x := by
  simp only [cover, countP_singleton, decide_eq_true_eq]
  split_ifs <;> omega

theorem sum_cover : ∑ i ∈ Finset.range n, cover [(a + i * w, w)] x = cover [(a, n * w)] x := by
  induction n with
  | zero => simp [cover]
  | succ n ih => rw [Finset.sum_range_succ, ih, Nat.succ_mul, cover_split]

theorem cover_flatMap_range (f : Nat → List (Nat × Nat)) :
    cover ((range n).flatMap f) x = ∑ i ∈ Finset.range n, cover (f i) x := by
  induction n with
  | zero => rfl
  | succ n ih => rw [range_succ, flatMap_append, cover_append, ih, Finset.sum_range_succ, flatMap_singleton]

end Cover

end VllmAscend.Loop
