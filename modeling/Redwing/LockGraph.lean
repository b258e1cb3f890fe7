/-
Threads that take and release blocking locks: what each program point holds and
waits for, the wait-for graph between the threads, and the rank argument that
excludes cycles in it.
-/
import Mathlib.Logic.Function.Basic
import Mathlib.Logic.Relation

universe u v w

open Function

variable {C : Type u} {P : Type v} {L : Type w}

/-- What a thread holds at a program point, and the lock it waits for there. -/
structure LockUse (C : Type u) (P : Type v) (L : Type w) where
  waits : C → P → Option L
  holds : C → P → L → Prop

/-- The program points of all threads and the owners of all locks. -/
structure Threads (C : Type u) (P : Type v) (L : Type w) where
  pc : C → P
  owner : L → Option C

namespace Threads

variable {s : Threads C P L} {use : LockUse C P L}

section

variable [DecidableEq C] [DecidableEq L]

def goto (s : Threads C P L) (c : C) (p : P) : Threads C P L := { s with pc := update s.pc c p }

/-- Take a free lock; a thread that finds it taken waits. -/
def acquire (s : Threads C P L) (c : C) (l : L) (p : P) : Option (Threads C P L) :=
  match s.owner l with
  | none => some ⟨update s.pc c p, update s.owner l (some c)⟩
  | some _ => none

def release (s : Threads C P L) (c : C) (l : L) (p : P) : Threads C P L :=
  ⟨update s.pc c p, update s.owner l none⟩

end

/-- A lock is owned by the thread whose program point holds it. -/
def Owned (use : LockUse C P L) (s : Threads C P L) : Prop :=
  ∀ l c, s.owner l = some c ↔ use.holds c (s.pc c) l

/-- The first thread waits for a lock that the second one owns. -/
def WaitsFor (use : LockUse C P L) (s : Threads C P L) (c d : C) : Prop :=
  ∃ l, use.waits c (s.pc c) = some l ∧ s.owner l = some d

/-- A cycle of threads that wait for each other; a thread that waits for a lock
of its own is one. -/
def Deadlocked (use : LockUse C P L) (s : Threads C P L) : Prop :=
  ∃ c, Relation.TransGen (WaitsFor use s) c c

/-- A thread on a cycle waits for some lock. -/
def Waits (use : LockUse C P L) (s : Threads C P L) (c : C) : Prop := (use.waits c (s.pc c)).isSome

lemma WaitsFor.waits {c d : C} (h : WaitsFor use s c d) : Waits use s c := by
  obtain ⟨l, hl, _⟩ := h
  rw [Waits, hl]
  rfl

/-- There is no cycle if a rank grows along every edge between waiting threads.
It may fall at the threads `off`, as long as none of these is on a cycle. -/
lemma not_deadlocked_of_rank_off (rank : C → Nat) (off : C → Prop)
    (hoff : ∀ e, off e → ¬ Relation.TransGen (WaitsFor use s) e e)
    (hrank : ∀ c d, WaitsFor use s c d → Waits use s d → ¬ off d → rank c < rank d) :
    ¬ Deadlocked use s := by
  have hgrows {c d : C} (h : Relation.TransGen (WaitsFor use s) c d) :
      Relation.ReflTransGen (WaitsFor use s) d c → Waits use s d → rank c < rank d := by
    induction h with
    | single hedge =>
      intro hback hwaits
      exact hrank _ _ hedge hwaits fun hd => hoff _ hd (.trans_right hback (.single hedge))
    | tail hpath hedge ih =>
      intro hback hwaits
      have hlast := hrank _ _ hedge hwaits fun hd =>
        hoff _ hd (.trans_right hback (hpath.tail hedge))
      exact Nat.lt_trans (ih (.head hedge hback) hedge.waits) hlast
  rintro ⟨c, hcycle⟩
  obtain ⟨d, hedge, _⟩ := Relation.TransGen.head'_iff.mp hcycle
  exact Nat.lt_irrefl _ (hgrows hcycle .refl hedge.waits)

lemma not_deadlocked_of_rank (rank : C → Nat)
    (hrank : ∀ c d, WaitsFor use s c d → Waits use s d → rank c < rank d) : ¬ Deadlocked use s :=
  not_deadlocked_of_rank_off rank (fun _ => False) (fun _ => False.elim)
    fun c d hedge hwaits _ => hrank c d hedge hwaits

/-- Two threads never hold one lock. -/
lemma Owned.eq_of_holds (h : Owned use s) {c d : C} {l : L}
    (hc : use.holds c (s.pc c) l) (hd : use.holds d (s.pc d) l) : c = d := by
  have howner := (h l c).mpr hc
  rw [(h l d).mpr hd, Option.some.injEq] at howner
  exact howner.symm

section

variable [DecidableEq C] {t : Threads C P L} {c : C} {l : L} {p : P}

/-- A step to a point that holds the same locks. -/
lemma Owned.goto (h : Owned use s) (hkeeps : ∀ l, use.holds c p l ↔ use.holds c (s.pc c) l) :
    Owned use (s.goto c p) := by
  intro l d
  by_cases hd : d = c
  · subst hd
    simpa [Threads.goto, hkeeps] using h l d
  · simpa [Threads.goto, hd] using h l d

variable [DecidableEq L]

lemma acquire_eq_some : s.acquire c l p = some t ↔ s.owner l = none ∧
    t = ⟨update s.pc c p, update s.owner l (some c)⟩ := by
  unfold acquire
  cases s.owner l with
  | none => simp [eq_comm]
  | some d => simp

lemma Owned.acquire (h : Owned use s) (hacquire : s.acquire c l p = some t)
    (hkeeps : ∀ l', use.holds c p l' ↔ l' = l ∨ use.holds c (s.pc c) l') : Owned use t := by
  obtain ⟨hfree, rfl⟩ := acquire_eq_some.mp hacquire
  intro l' d
  have hold := h l' d
  by_cases hd : d = c
  · subst hd
    by_cases hl : l' = l
    · simp [hl, hkeeps]
    · simpa [hl, hkeeps] using hold
  by_cases hl : l' = l
  · subst hl
    simp only [hfree, reduceCtorEq, false_iff] at hold
    simpa [hd, Ne.symm hd] using hold
  · simpa [hl, hd] using hold

lemma Owned.release (h : Owned use s) (howner : use.holds c (s.pc c) l)
    (hkeeps : ∀ l', use.holds c p l' ↔ l' ≠ l ∧ use.holds c (s.pc c) l') :
    Owned use (s.release c l p) := by
  intro l' d
  have hold := h l' d
  by_cases hd : d = c
  · subst hd
    by_cases hl : l' = l
    · simp [Threads.release, hl, hkeeps]
    · simpa [Threads.release, hl, hkeeps] using hold
  by_cases hl : l' = l
  · subst hl
    rw [(h l' c).mpr howner, Option.some.injEq] at hold
    simpa [Threads.release, hd, Ne.symm hd] using hold
  · simpa [Threads.release, hl, hd] using hold

/-- One thread goes to another program point, and ownership follows it. -/
structure Change (use : LockUse C P L) (s t : Threads C P L) (c : C) (p : P) :
    Prop where
  pc : t.pc = update s.pc c p
  owned : Owned use s → Owned use t

namespace Change

omit [DecidableEq L] in
lemma goto (hkeeps : ∀ l, use.holds c p l ↔ use.holds c (s.pc c) l) :
    Change use s (s.goto c p) c p :=
  ⟨rfl, fun h => h.goto hkeeps⟩

lemma acquire (hacquire : s.acquire c l p = some t)
    (hkeeps : ∀ l', use.holds c p l' ↔ l' = l ∨ use.holds c (s.pc c) l') : Change use s t c p := by
  refine ⟨?_, fun h => h.acquire hacquire hkeeps⟩
  obtain ⟨_, rfl⟩ := acquire_eq_some.mp hacquire
  rfl

lemma release (howner : use.holds c (s.pc c) l)
    (hkeeps : ∀ l', use.holds c p l' ↔ l' ≠ l ∧ use.holds c (s.pc c) l') :
    Change use s (s.release c l p) c p :=
  ⟨rfl, fun h => h.release howner hkeeps⟩

omit [DecidableEq L] in
lemma pc_self (h : Change use s t c p) : t.pc c = p := by
  rw [h.pc, update_self]

omit [DecidableEq L] in
lemma pc_of_ne (h : Change use s t c p) {d : C} (hd : d ≠ c) : t.pc d = s.pc d := by
  rw [h.pc, update_of_ne hd]

end Change
end
end Threads
