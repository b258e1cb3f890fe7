/-
Locks seen from their holders: a lock guards a predicate on tasks when exactly
the task recorded in the lock satisfies it.  Taking and releasing the lock along
with the predicate keeps this.
-/
import Mathlib.Logic.Function.Basic

universe u v w

open Function

variable {T : Type u}

/-- A step of one task to a point that looks the same to `f`. -/
lemma apply_update_eq [DecidableEq T] {P : Type v} {α : Type w} {pc : T → P} {t : T} {p : P}
    (f : P → α) (h : f p = f (pc t)) (u : T) : f (update pc t p u) = f (pc u) := by
  by_cases hu : u = t
  · rw [hu, update_self, h]
  · rw [update_of_ne hu]

/-- The tasks with `holds` are those recorded in the lock, so at most one. -/
def Guards (lock : Option T) (holds : T → Prop) : Prop := ∀ t, holds t ↔ lock = some t

namespace Guards

variable {lock : Option T} {holds holds' : T → Prop} {t u : T}

lemma sole (h : Guards lock holds) (ht : holds t) (hu : holds u) : t = u := by
  have htu := ((h t).mp ht).symm.trans ((h u).mp hu)
  exact Option.some.inj htu

lemma not_held (h : Guards lock holds) (hfree : lock = none) : ¬ holds t := by
  intro ht
  rw [(h t).mp ht] at hfree
  cases hfree

lemma keep (h : Guards lock holds) (hsame : ∀ t, holds' t ↔ holds t) : Guards lock holds' := by
  intro t
  rw [hsame]
  exact h t

lemma acquire (h : Guards lock holds) (hfree : lock = none) (ht : holds' t)
    (hothers : ∀ u, u ≠ t → (holds' u ↔ holds u)) : Guards (some t) holds' := by
  intro u
  by_cases hu : u = t
  · subst hu
    exact iff_of_true ht rfl
  rw [hothers u hu]
  refine iff_of_false (h.not_held hfree) ?_
  intro heq
  exact hu (Option.some.inj heq).symm

lemma release (h : Guards lock holds) (ht : holds t) (hgone : ¬ holds' t)
    (hothers : ∀ u, u ≠ t → (holds' u ↔ holds u)) : Guards none holds' := by
  intro u
  by_cases hu : u = t
  · subst hu
    exact iff_of_false hgone (by simp)
  rw [hothers u hu]
  refine iff_of_false ?_ (by simp)
  intro hheld
  exact hu (h.sole hheld ht)

/-! ### Locks held at program points -/

section

variable {P : Type v} [DecidableEq T] {f : T → P → Prop} {pc : T → P} {p : P}

lemma keep_goto (h : Guards lock fun u => f u (pc u)) (hsame : f t p ↔ f t (pc t)) :
    Guards lock fun u => f u (update pc t p u) := by
  apply h.keep
  intro u
  by_cases hu : u = t
  · subst hu
    rw [update_self, hsame]
  · rw [update_of_ne hu]

lemma acquire_goto (h : Guards lock fun u => f u (pc u)) (hfree : lock = none)
    (hp : f t p) : Guards (some t) fun u => f u (update pc t p u) := by
  apply h.acquire hfree
  · rw [update_self]
    exact hp
  · intro u hu
    rw [update_of_ne hu]

lemma release_goto (h : Guards lock fun u => f u (pc u)) (hold : f t (pc t))
    (hp : ¬ f t p) : Guards none fun u => f u (update pc t p u) := by
  apply h.release hold
  · rw [update_self]
    exact hp
  · intro u hu
    rw [update_of_ne hu]

end
end Guards
