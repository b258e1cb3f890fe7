/-
Rings of cells with free-running indices.  Producer and consumer count modulo a
number that the size of the ring divides, and a cell is found by the index
modulo the size; as long as no more cells are occupied than there are, the ring
is a queue.
-/
import Mathlib.Data.List.Basic
import Mathlib.Data.Nat.ModEq
import Mathlib.Logic.Function.Basic

universe u

namespace RingWindow

open Function List

variable {α : Type u} {size modulus lo hi : Nat} {ring : Nat → α} {x : α}
  {xs : List α}

/-- From the index `lo` up to the index `hi` the ring holds `xs`. -/
structure Holds (size modulus : Nat) (ring : Nat → α) (lo hi : Nat)
    (xs : List α) : Prop where
  last : hi = (lo + xs.length) % modulus
  cell : ∀ i (h : i < xs.length), ring ((lo + i) % modulus % size) = xs[i]

lemma Holds.nil (hlo : lo < modulus) : Holds size modulus ring lo lo [] :=
  ⟨(Nat.mod_eq_of_lt hlo).symm, fun _ h => absurd h (Nat.not_lt_zero _)⟩

/-- Put a value behind the others. -/
lemma Holds.push (h : Holds size modulus ring lo hi xs)
    (hdvd : size ∣ modulus) (hroom : xs.length < size) :
    Holds size modulus (update ring (hi % size) x) lo
      ((hi + 1) % modulus) (xs ++ [x]) := by
  have hhi : hi % size = (lo + xs.length) % size := by rw [h.last, Nat.mod_mod_of_dvd _ hdvd]
  constructor
  · rw [h.last, length_append, length_singleton, Nat.mod_add_mod, add_assoc]
  intro i hi'
  rw [hhi, Nat.mod_mod_of_dvd _ hdvd]
  by_cases hlast : i = xs.length
  · subst hlast
    rw [update_self, getElem_concat_length rfl]
  have hlt : i < xs.length := by
    rw [length_append, length_singleton] at hi'
    omega
  have hne : (lo + i) % size ≠ (lo + xs.length) % size := by
    intro heq
    have hsub := (Nat.modEq_iff_dvd' (by omega)).mp heq
    have := Nat.le_of_dvd (by omega) hsub
    omega
  rw [update_of_ne hne, getElem_append_left hlt, ← h.cell i hlt, Nat.mod_mod_of_dvd _ hdvd]

/-- The first value is in the cell of the lower index. -/
lemma Holds.front (h : Holds size modulus ring lo hi (x :: xs))
    (hlo : lo < modulus) : ring (lo % size) = x := by
  have hcell := h.cell 0 (Nat.zero_lt_succ _)
  rwa [add_zero, Nat.mod_eq_of_lt hlo] at hcell

lemma Holds.pop (h : Holds size modulus ring lo hi (x :: xs)) :
    Holds size modulus ring ((lo + 1) % modulus) hi xs := by
  constructor
  · rw [h.last, length_cons, Nat.mod_add_mod]
    congr 1
    omega
  intro i hi'
  have hcell := h.cell (i + 1) (Nat.succ_lt_succ hi')
  rw [Nat.mod_add_mod, add_assoc, add_comm 1 i]
  exact hcell

/-- The indices are equal just when the ring is empty. -/
lemma Holds.eq_iff (h : Holds size modulus ring lo hi xs) (hlo : lo < modulus)
    (hlen : xs.length < modulus) : hi = lo ↔ xs = [] := by
  constructor
  · intro heq
    have hmod : lo ≡ lo + xs.length [MOD modulus] := by
      rw [Nat.ModEq, ← h.last, heq, Nat.mod_eq_of_lt hlo]
    have hdvd := (Nat.modEq_iff_dvd' (Nat.le_add_right _ _)).mp hmod
    rw [Nat.add_sub_cancel_left] at hdvd
    exact length_eq_zero_iff.mp (Nat.eq_zero_of_dvd_of_lt hdvd hlen)
  rintro rfl
  rw [h.last]
  exact Nat.mod_eq_of_lt hlo

/-- The number of values between the indices. -/
lemma Holds.length_eq (h : Holds size modulus ring lo hi xs) (hlen : xs.length < modulus)
    (hlo : lo < modulus) : (hi + modulus - lo) % modulus = xs.length := by
  rw [h.last]
  by_cases hwrap : lo + xs.length < modulus
  · rw [Nat.mod_eq_of_lt hwrap]
    have : lo + xs.length + modulus - lo = xs.length + modulus := by omega
    rw [this, Nat.add_mod_right, Nat.mod_eq_of_lt hlen]
  have : (lo + xs.length) % modulus = lo + xs.length - modulus := by
    rw [Nat.mod_eq_sub_mod (by omega), Nat.mod_eq_of_lt (by omega)]
  rw [this]
  have : lo + xs.length - modulus + modulus - lo = xs.length := by omega
  rw [this, Nat.mod_eq_of_lt hlen]

end RingWindow
