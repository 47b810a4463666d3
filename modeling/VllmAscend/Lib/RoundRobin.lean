import Mathlib.Data.Nat.Count
import Mathlib.Data.Int.ModEq
import Mathlib.Tactic.Ring

/-!
# Dealing positions to ranks

Units of `I` consecutive positions are dealt to `W` ranks in turn. `owner p` is the rank position `p` goes to and
`index p` its place there; `position r i` is the way back.
-/

namespace VllmAscend.RoundRobin

open Nat

def owner (I W p : Nat) : Nat := p / I % W

def index (I W p : Nat) : Nat := p / (W * I) * I + p % I

def position (I W r i : Nat) : Nat := (i / I * W + r) * I + i % I

/-- How many of the first `n` positions rank `r` gets. -/
def share (I W r n : Nat) : Nat := n / (W * I) * I + min (n % (W * I) - r * I) I

variable {I W : Nat}

theorem mul_add_div_of_lt {k c : Nat} (hc : c < I) : (k * I + c) / I = k := by
  rw [mul_comm, mul_add_div (by omega), div_eq_of_lt hc, add_zero]

theorem owner_lt (hW : 0 < W) (p : Nat) : owner I W p < W := mod_lt _ hW

/-! ## Digits -/

/-- The position with round `a`, rank `b` and place `c`. -/
def ofDigits (I W a b c : Nat) : Nat := (a * W + b) * I + c

theorem ofDigits_digits (p : Nat) : ofDigits I W (p / I / W) (p / I % W) (p % I) = p := by
  unfold ofDigits
  rw [div_add_mod', div_add_mod']

section Digits

variable {a b c : Nat} (hb : b < W) (hc : c < I)

include hc in
theorem ofDigits_div : ofDigits I W a b c / I = a * W + b := by
  exact mul_add_div_of_lt hc

include hc in
theorem ofDigits_mod : ofDigits I W a b c % I = c := by
  exact mul_add_mod_of_lt hc

include hb hc

theorem owner_ofDigits : owner I W (ofDigits I W a b c) = b := by
  unfold owner
  rw [ofDigits_div hc, mul_add_mod_of_lt hb]

theorem ofDigits_div_round : ofDigits I W a b c / (W * I) = a := by
  rw [Nat.mul_comm W I, ← Nat.div_div_eq_div_mul, ofDigits_div hc, mul_add_div_of_lt hb]

theorem ofDigits_mod_round : ofDigits I W a b c % (W * I) = b * I + c := by
  have h := div_add_mod (ofDigits I W a b c) (W * I)
  rw [ofDigits_div_round hb hc] at h
  have hd : ofDigits I W a b c = W * I * a + (b * I + c) := by
    unfold ofDigits
    ring
  omega

theorem index_ofDigits : index I W (ofDigits I W a b c) = a * I + c := by
  unfold index
  rw [ofDigits_div_round hb hc, ofDigits_mod hc]

theorem share_ofDigits (r : Nat) : share I W r (ofDigits I W a b c) =
    a * I + if b < r then 0 else if b = r then c else I := by
  unfold share
  rw [ofDigits_div_round hb hc, ofDigits_mod_round hb hc]
  split_ifs with hlt heq
  · have : (b + 1) * I ≤ r * I := mul_le_mul_right I hlt
    rw [add_mul] at this
    omega
  · subst heq
    omega
  · have : (r + 1) * I ≤ b * I := mul_le_mul_right I (by omega)
    rw [add_mul] at this
    omega

end Digits

/-! ## Blocks of `m` units

Cutting the places of every rank into blocks of `m * I` cuts the positions into blocks of
`m * I * W`, and dealing starts afresh in each of them. -/

section Blocks

variable (m p : Nat)

theorem owner_mod_block : owner I W (p % (m * I * W)) = owner I W p := by
  unfold owner
  rw [show m * I * W = I * (m * W) by ring, mod_mul_right_div_self, mod_mod_of_dvd _ (Dvd.intro_left m rfl)]

theorem index_mod_block (hI : 0 < I) : index I W (p % (m * I * W)) = index I W p % (m * I) := by
  have hc : p % I < I := mod_lt p hI
  have hround : p % (m * I * W) / (W * I) = p / (W * I) % m := by
    rw [show m * I * W = W * I * m by ring, mod_mul_right_div_self]
  have hplace : p % (m * I * W) % I = p % I := mod_mod_of_dvd p ⟨m * W, by ring⟩
  unfold index
  rw [hround, hplace, mul_comm m I, mod_mul, mul_add_mod_of_lt hc, mul_add_div_of_lt hc]
  ring

theorem index_div_block (hI : 0 < I) : index I W p / (m * I) = p / (m * I * W) := by
  have hc : p % I < I := mod_lt p hI
  unfold index
  rw [Nat.mul_comm m I, ← Nat.div_div_eq_div_mul, mul_add_div_of_lt hc, Nat.div_div_eq_div_mul]
  ring_nf

theorem dvd_of_index_mul {B : Nat} (hW : 1 < W) (ho : owner I W (B * W) = 0)
    (hi : index I W (B * W) = B) : I ∣ B := by
  have hdigits := ofDigits_digits (I := I) (W := W) (B * W)
  have hround : B * W / (W * I) = B * W / I / W := by rw [Nat.div_div_eq_div_mul, Nat.mul_comm W I]
  unfold owner at ho
  unfold index at hi
  rw [ho] at hdigits
  rw [hround] at hi
  generalize B * W / I / W = a at *
  generalize B * W % I = c at *
  -- `B * W` is `a * W * I + c` and also `(a * I + c) * W`
  have hc : c * W = c := by
    have hmul : (a * I + c) * W = ofDigits I W a 0 c := by rw [hi, hdigits]
    unfold ofDigits at hmul
    have hexpand : (a * I + c) * W = (a * W + 0) * I + c * W := by ring
    omega
  have hzero : c = 0 := by
    have hle : c * 2 ≤ c * W := mul_le_mul_left c hW
    omega
  exact ⟨a, by rw [← hi, hzero, add_zero, mul_comm]⟩

end Blocks

/-! ## Places and positions -/

section Dealing

variable (hI : 0 < I) (hW : 0 < W)

include hI hW

theorem position_index {r p : Nat} (h : owner I W p = r) : position I W r (index I W p) = p := by
  subst h
  have hc : p % I < I := mod_lt _ hI
  have hb : p / I % W < W := mod_lt _ hW
  have hi : index I W p = p / I / W * I + p % I := by
    conv_lhs => rw [← ofDigits_digits (I := I) (W := W) p]
    exact index_ofDigits hb hc
  have hdiv : (p / I / W * I + p % I) / I = p / I / W := mul_add_div_of_lt hc
  have hmod : (p / I / W * I + p % I) % I = p % I := mul_add_mod_of_lt hc
  unfold position owner
  rw [hi, hdiv, hmod]
  exact ofDigits_digits p

theorem eq_of_index_eq {p q : Nat} (ho : owner I W p = owner I W q) (hi : index I W p = index I W q) : p = q := by
  rw [← position_index hI hW (p := p) rfl, ho, hi, position_index hI hW rfl]

theorem share_of_owner {r p : Nat} (h : owner I W p = r) : share I W r p = index I W p := by
  subst h
  have hc : p % I < I := mod_lt _ hI
  have hb : p / I % W < W := mod_lt _ hW
  rw [← ofDigits_digits (I := I) (W := W) p, owner_ofDigits hb hc, index_ofDigits hb hc, share_ofDigits hb hc]
  simp

theorem share_succ {r : Nat} (hr : r < W) (n : Nat) :
    share I W r (n + 1) = share I W r n + if owner I W n = r then 1 else 0 := by
  have hc : n % I < I := mod_lt _ hI
  have hb : n / I % W < W := mod_lt _ hW
  generalize ha : n / I / W = a at *
  generalize hb' : n / I % W = b at *
  generalize hc' : n % I = c at *
  have hn : n = ofDigits I W a b c := by rw [← ha, ← hb', ← hc', ofDigits_digits]
  rw [hn, owner_ofDigits hb hc, share_ofDigits hb hc]
  -- the next position is the next place of the unit, the next unit, or the next round
  by_cases hplace : c + 1 < I
  · have hs : ofDigits I W a b c + 1 = ofDigits I W a b (c + 1) := rfl
    rw [hs, share_ofDigits hb hplace]
    split_ifs <;> omega
  · by_cases hunit : b + 1 < W
    · have hs : ofDigits I W a b c + 1 = ofDigits I W a (b + 1) 0 := by
        calc (a * W + b) * I + c + 1 = (a * W + b) * I + I := by omega
          _ = (a * W + (b + 1)) * I + 0 := by ring
      rw [hs, share_ofDigits hunit hI]
      split_ifs <;> omega
    · have hs : ofDigits I W a b c + 1 = ofDigits I W (a + 1) 0 0 := by
        have hbW : b + 1 = W := by omega
        calc (a * W + b) * I + c + 1 = (a * W + b) * I + I := by omega
          _ = (a * W + (b + 1)) * I := by ring
          _ = ((a + 1) * W + 0) * I + 0 := by rw [hbW]; ring
      rw [hs, share_ofDigits hW hI, add_mul]
      split_ifs <;> omega

theorem count_owner {r : Nat} (hr : r < W) (n : Nat) : count (fun p => owner I W p = r) n = share I W r n := by
  induction n with
  | zero => simp [share]
  | succ n ih => rw [count_succ, ih, share_succ hI hW hr]

theorem count_before {r p : Nat} (h : owner I W p = r) : count (fun q => owner I W q = r) p = index I W p := by
  rw [count_owner hI hW (h ▸ owner_lt hW p), share_of_owner hI hW h]

theorem share_eq_iff {r m n : Nat} (hr : r < W) (h : m ≤ n) :
    share I W r m = share I W r n ↔ ∀ p, m ≤ p → p < n → owner I W p ≠ r := by
  induction n, h using le_induction with
  | base =>
    refine ⟨fun _ p h₁ h₂ => ?_, fun _ => rfl⟩
    omega
  | succ n hmn ih =>
    have hmono : share I W r m ≤ share I W r n := by
      rw [← count_owner hI hW hr, ← count_owner hI hW hr]
      exact count_monotone _ hmn
    rw [share_succ hI hW hr n]
    constructor
    · intro he p h₁ h₂
      have hn : owner I W n ≠ r := fun ho => by
        rw [if_pos ho] at he
        omega
      rw [if_neg hn] at he
      rcases Nat.lt_succ_iff_lt_or_eq.mp h₂ with hlt | heq
      · exact ih.mp he p h₁ hlt
      · exact heq ▸ hn
    · intro hp
      rw [if_neg (hp n hmn (lt_succ_self n))]
      exact ih.mpr fun p h₁ h₂ => hp p h₁ (lt_succ_of_lt h₂)

end Dealing

/-! ## Units of one -/

theorem owner_one (p : Nat) : owner 1 W p = p % W := by simp [owner]

theorem share_one (r n : Nat) : share 1 W r n = n / W + if r < n % W then 1 else 0 := by
  unfold share
  rw [mul_one, mul_one]
  split <;> omega

theorem lt_share_one {r k n : Nat} (hr : r < W) : k < share 1 W r n ↔ k * W + r < n := by
  rw [share_one]
  have hn := div_add_mod n W
  have hmod := mod_lt n (zero_lt_of_lt hr)
  rcases lt_trichotomy k (n / W) with h | h | h
  · have hle : (k + 1) * W ≤ n / W * W := mul_le_mul_right W h
    rw [add_mul, mul_comm (n / W)] at hle
    exact iff_of_true (by omega) (by omega)
  · rw [h, mul_comm]
    split <;> omega
  · have hle : (n / W + 1) * W ≤ k * W := mul_le_mul_right W h
    rw [add_mul, mul_comm (n / W)] at hle
    split <;> omega

theorem share_one_eq_div {r n : Nat} (hr : r < W) : share 1 W r n = (n + W - 1 - r) / W := by
  rw [share_one]
  have hn := div_add_mod n W
  have hmod := mod_lt n (zero_lt_of_lt hr)
  have hsplit : n + W - 1 - r = n / W * W + (n % W + W - 1 - r) := by
    rw [mul_comm]
    omega
  rw [hsplit, mul_comm, mul_add_div (zero_lt_of_lt hr)]
  congr 1
  split
  · exact (Nat.div_eq_of_lt_le (by omega) (by omega)).symm
  · exact (div_eq_of_lt (by omega)).symm

theorem count_mod (hW : 0 < W) {r : Nat} (hr : r < W) (n : Nat) :
    count (fun p => p % W = r) n = n / W + if r < n % W then 1 else 0 := by
  rw [← share_one, ← count_owner one_pos hW hr]
  simp only [owner_one]

theorem count_class (hW : 0 < W) (a j n : Nat) :
    count (fun k => (a + k) % W = (a + j) % W) n = n / W + if j % W < n % W then 1 else 0 := by
  have hclass : ∀ k, (a + k) % W = (a + j) % W ↔ k % W = j % W := fun k =>
    ⟨Nat.ModEq.add_left_cancel' a, Nat.ModEq.add_left a⟩
  simp only [hclass]
  exact count_mod hW (mod_lt j hW) n

end VllmAscend.RoundRobin
