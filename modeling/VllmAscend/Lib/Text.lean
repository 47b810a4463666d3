import Mathlib.Data.Nat.Digits.Lemmas

/-!
# The first occurrence of a marker

`str.replace` with a count of one, for markers that start with a separator: the text before the
separator is left alone unless the marker itself is in it.
-/

namespace VllmAscend.Text

open List

section Replace

variable {α : Type*}

variable {p m s : List α} {c : α}

theorem not_prefix_append (hm : c ∉ m) (hp : p ≠ []) (h : ¬ (c :: m) <:+: p) : ¬ (c :: m) <+: p ++ c :: s := by
  intro hpre
  rcases prefix_or_prefix_of_prefix hpre (prefix_append p (c :: s)) with hin | ⟨rest, hrest⟩
  · exact h hin.isInfix
  · cases rest with
    | nil => exact h ⟨[], [], by simpa using hrest.symm⟩
    | cons d rest =>
      -- The marker runs over the end of `p`, so the separator is inside it.
      rw [← hrest, prefix_append_right_inj] at hpre
      obtain rfl : d = c := (cons_prefix_cons.mp hpre).1
      cases p with
      | nil => exact hp rfl
      | cons e p =>
        have htail : p ++ d :: rest = m := (cons.inj hrest).2
        exact hm (htail ▸ mem_append_right p mem_cons_self)

theorem append_cons_inj_of_not_mem_right {q t : List α} (hs : c ∉ s) (ht : c ∉ t)
    (h : p ++ c :: s = q ++ c :: t) : p = q ∧ s = t := by
  rcases append_eq_append_iff.mp h with ⟨r, hq, hr⟩ | ⟨r, hp, hr⟩
  · cases r with
    | nil => exact ⟨by rw [hq, append_nil], (cons.inj hr).2⟩
    | cons d r =>
      have hin : s = r ++ c :: t := (cons.inj hr).2
      exact absurd (hin ▸ mem_append_right r mem_cons_self) hs
  · cases r with
    | nil => exact ⟨by rw [hp, append_nil], (cons.inj hr).2.symm⟩
    | cons d r =>
      have hin : t = r ++ c :: s := (cons.inj hr).2
      exact absurd (hin ▸ mem_append_right r mem_cons_self) ht

theorem append_cons_inj_of_not_mem_left {q t : List α} (hp : c ∉ p) (hq : c ∉ q)
    (h : p ++ c :: s = q ++ c :: t) : p = q ∧ s = t := by
  induction p generalizing q with
  | nil =>
    cases q with
    | nil => exact ⟨rfl, (cons.inj h).2⟩
    | cons d q => exact absurd ((cons.inj h).1 ▸ mem_cons_self) hq
  | cons d p ih =>
    cases q with
    | nil => exact absurd ((cons.inj h).1 ▸ mem_cons_self) hp
    | cons e q =>
      obtain ⟨hhead, htail⟩ := cons.inj h
      obtain ⟨hpq, hst⟩ := ih (fun hin => hp (mem_cons_of_mem d hin)) (fun hin => hq (mem_cons_of_mem e hin)) htail
      exact ⟨by rw [hhead, hpq], hst⟩

variable [DecidableEq α]

def replaceFirst (old new : List α) : List α → List α
  | [] => if old = [] then new else []
  | c :: rest =>
    if old.isPrefixOf (c :: rest) then new ++ (c :: rest).drop old.length
    else c :: replaceFirst old new rest

variable {old new : List α}

theorem replaceFirst_append_self (hold : old ≠ []) (s : List α) : replaceFirst old new (old ++ s) = new ++ s := by
  cases old with
  | nil => exact absurd rfl hold
  | cons c rest =>
    rw [cons_append, replaceFirst, if_pos, ← cons_append, drop_left]
    exact isPrefixOf_iff_prefix.mpr (prefix_append (c :: rest) s)

theorem replaceFirst_self (old s : List α) : replaceFirst old old s = s := by
  induction s with
  | nil =>
    rw [replaceFirst]
    split
    · assumption
    · rfl
  | cons c s ih =>
    rw [replaceFirst, ih]
    split
    next hpre => exact prefix_iff_eq_append.mp (List.isPrefixOf_iff_prefix.mp hpre)
    next => rfl

theorem replaceFirst_append (hm : c ∉ m) (h : ¬ (c :: m) <:+: p) (s : List α) :
    replaceFirst (c :: m) new (p ++ c :: s) = p ++ replaceFirst (c :: m) new (c :: s) := by
  induction p with
  | nil => rfl
  | cons d p ih =>
    have hno : ¬ (c :: m).isPrefixOf (d :: (p ++ c :: s)) = true := fun hpre =>
      not_prefix_append hm (cons_ne_nil d p) h (List.isPrefixOf_iff_prefix.mp hpre)
    rw [cons_append, replaceFirst, if_neg hno, ih fun hin => h (hin.trans (suffix_cons d p).isInfix)]
    rfl

theorem replaceFirst_append_of_not_mem (hm : c ∉ m) (h : c ∉ p) (s : List α) :
    replaceFirst (c :: m) new (p ++ c :: s) = p ++ replaceFirst (c :: m) new (c :: s) :=
  replaceFirst_append hm (fun hin => h (hin.subset mem_cons_self)) s

theorem exists_replaceFirst_append (hold : old ≠ []) (h : old <:+: p) :
    ∃ q, ∀ s, replaceFirst old new (p ++ s) = q ++ s := by
  induction p with
  | nil => exact absurd (eq_nil_of_infix_nil h) hold
  | cons d p ih =>
    by_cases hpre : old <+: d :: p
    · refine ⟨new ++ (d :: p).drop old.length, fun s => ?_⟩
      have hhere : old.isPrefixOf (d :: (p ++ s)) = true :=
        isPrefixOf_iff_prefix.mpr (hpre.trans (prefix_append (d :: p) s))
      rw [cons_append, replaceFirst, if_pos hhere, ← cons_append,
        drop_append_of_le_length hpre.length_le, append_assoc]
    · have hin : old <:+: p := (infix_cons_iff.mp h).resolve_left hpre
      obtain ⟨q, hq⟩ := ih hin
      refine ⟨d :: q, fun s => ?_⟩
      have hno : ¬ old.isPrefixOf (d :: (p ++ s)) = true := by
        intro hhere
        have hlen : old.length ≤ (d :: p).length := hin.length_le.trans (Nat.le_succ _)
        exact hpre (prefix_of_prefix_length_le (List.isPrefixOf_iff_prefix.mp hhere)
          (prefix_append (d :: p) s) hlen)
      rw [cons_append, replaceFirst, if_neg hno, hq s]
      rfl

end Replace

/-- `text.replace(old, new, 1)` -/
def replaceOnce (text old new : String) : String := String.ofList (replaceFirst old.toList new.toList text.toList)

theorem toList_replaceOnce (text old new : String) :
    (replaceOnce text old new).toList = replaceFirst old.toList new.toList text.toList :=
  String.toList_ofList

theorem not_mem_toDigits {c : Char} (hc : c.isDigit = false) (n : Nat) : c ∉ Nat.toDigits 10 n := by
  intro hmem
  have hdigit := Nat.isDigit_of_mem_toDigits (by decide) (by decide) hmem
  rw [hc] at hdigit
  cases hdigit

theorem toDigits_injective : Function.Injective (Nat.toDigits 10) := by
  intro m n h
  rw [← Nat.ofDigitChars_toDigits (b := 10) (n := m) (by decide) (by decide), h,
    Nat.ofDigitChars_toDigits (by decide) (by decide)]

end VllmAscend.Text
