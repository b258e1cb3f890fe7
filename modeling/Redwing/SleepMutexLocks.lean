/-
The sleeping mutex is held by at most one task, and a task that is blocked in
`lock` finds the mutex held or is about to be woken up: the holder is cleared and
the queue is drained under one spinlock.
-/
import Redwing.SleepMutex

namespace Redwing.SleepMutexes

open Function List

/-- What the next step of `t` can do. -/
inductive Step (s : Sys) (t : Nat) : Sys → Prop
  | call (pc : s.pc t = .idle) : Step s t (s.goto t .enter)
  | enter (pc : s.pc t = .enter) (free : s.queueLock = none) :
      Step s t { s.goto t .check with queueLock := some t }
  | acquire (pc : s.pc t = .check) (free : s.holder = none) :
      Step s t { s.goto t .acquired with holder := some t }
  | push (pc : s.pc t = .check) (busy : s.holder ≠ none) :
      Step s t { s.goto t .pushed with queue := s.queue ++ [t] }
  | leave (pc : s.pc t = .acquired) : Step s t (s.unlockQueue t .holding)
  | lockSelf (pc : s.pc t = .pushed) (free : s.taskLock t = none) :
      Step s t { s.goto t .parking with taskLock := update s.taskLock t (some t) }
  | block (pc : s.pc t = .parking) : Step s t (s.unlockQueue t .switching)
  | switch (pc : s.pc t = .switching) : Step s t (s.unlockTask t t .parked)
  | schedule (pc : s.pc t = .ready) (free : s.taskLock t = none) :
      Step s t { s.goto t .resumed with taskLock := update s.taskLock t (some t) }
  | resume (pc : s.pc t = .resumed) : Step s t (s.unlockTask t t .enter)
  | dropGuard (pc : s.pc t = .holding) : Step s t (s.goto t .unlock)
  | unlock (pc : s.pc t = .unlock) (free : s.queueLock = none) :
      Step s t { s.goto t .clear with queueLock := some t }
  | clear (pc : s.pc t = .clear) :
      Step s t { s.goto t .draining with holder := none }
  | pop {task : Nat} {rest : List Nat} (pc : s.pc t = .draining)
      (queue : s.queue = task :: rest) :
      Step s t { s.goto t (.drain task) with queue := rest }
  | done (pc : s.pc t = .draining) (empty : s.queue = []) :
      Step s t (s.unlockQueue t .idle)
  | lockPopped {task : Nat} (pc : s.pc t = .drain task)
      (free : s.taskLock task = none) :
      Step s t { s.goto t (.drained task) with taskLock := update s.taskLock task (some t) }
  | wake {task : Nat} (pc : s.pc t = .drained task) :
      Step s t ((s.wakeup task).unlockTask t task .draining)

lemma Step.of_step (h : s.step t = some s') : Step s t s' := by
  rw [Sys.step] at h
  split at h
  case h_1 hpc => cases h; exact .call hpc
  case h_2 hpc =>
    rw [Sys.lockQueue] at h
    split at h
    · cases h
      exact .enter hpc ‹_›
    · cases h
  case h_3 hpc =>
    split at h
    · cases h
      exact .acquire hpc ‹_›
    · cases h
      exact .push hpc ‹_›
  case h_4 hpc => cases h; exact .leave hpc
  case h_5 hpc =>
    rw [Sys.lockTask] at h
    split at h
    · cases h
      exact .lockSelf hpc ‹_›
    · cases h
  case h_6 hpc => cases h; exact .block hpc
  case h_7 hpc => cases h; exact .switch hpc
  case h_8 => cases h
  case h_9 hpc =>
    rw [Sys.lockTask] at h
    split at h
    · cases h
      exact .schedule hpc ‹_›
    · cases h
  case h_10 hpc => cases h; exact .resume hpc
  case h_11 hpc => cases h; exact .dropGuard hpc
  case h_12 hpc =>
    rw [Sys.lockQueue] at h
    split at h
    · cases h
      exact .unlock hpc ‹_›
    · cases h
  case h_13 hpc => cases h; exact .clear hpc
  case h_14 hpc =>
    split at h
    · cases h
      exact .done hpc ‹_›
    · cases h
      exact .pop hpc ‹_›
  case h_15 hpc =>
    rw [Sys.lockTask] at h
    split at h
    · cases h
      exact .lockPopped hpc ‹_›
    · cases h
  case h_16 hpc => cases h; exact .wake hpc

/-! ### The locks -/

/-- The locks and the mutex are held by the tasks that are where they hold
them. -/
structure Locks (s : Sys) : Prop where
  queue : Guards s.queueLock fun t => (s.pc t).holdsQueue = true
  task : ∀ task, Guards (s.taskLock task) fun t => (s.pc t).holdsTask task t
  holder : Guards s.holder fun t => (s.pc t).owns = true

namespace Locks

variable {s : Sys} {t task : Nat} {p : Pc}

section

variable (h : Locks s)

include h

lemma queue_keep (hq : p.holdsQueue = (s.pc t).holdsQueue) : Guards s.queueLock fun u =>
    (update s.pc t p u).holdsQueue = true :=
  h.queue.keep_goto (f := fun _ p => Pc.holdsQueue p = true) (by rw [hq])

lemma holder_keep (ho : p.owns = (s.pc t).owns) :
    Guards s.holder fun u => (update s.pc t p u).owns = true :=
  h.holder.keep_goto (f := fun _ p => Pc.owns p = true) (by rw [ho])

lemma task_keep (ht : p.holdsTask task t ↔ (s.pc t).holdsTask task t) :
    Guards (s.taskLock task) fun u =>
      (update s.pc t p u).holdsTask task u :=
  (h.task task).keep_goto (f := fun u p => Pc.holdsTask task u p) ht

lemma goto (hq : p.holdsQueue = (s.pc t).holdsQueue)
    (ht : ∀ task, p.holdsTask task t ↔ (s.pc t).holdsTask task t)
    (ho : p.owns = (s.pc t).owns) : Locks (s.goto t p) :=
  ⟨h.queue_keep hq, fun task => h.task_keep (ht task), h.holder_keep ho⟩

lemma lockQueue (hfree : s.queueLock = none) (hq : p.holdsQueue = true)
    (ht : ∀ task, p.holdsTask task t ↔ (s.pc t).holdsTask task t) (ho : p.owns = (s.pc t).owns) :
    Locks { s.goto t p with queueLock := some t } :=
  ⟨h.queue.acquire_goto (f := fun _ p => Pc.holdsQueue p = true) hfree hq,
    fun task => h.task_keep (ht task), h.holder_keep ho⟩

lemma unlockQueue (hold : (s.pc t).holdsQueue = true) (hq : p.holdsQueue = false)
    (ht : ∀ task, p.holdsTask task t ↔ (s.pc t).holdsTask task t)
    (ho : p.owns = (s.pc t).owns) : Locks (s.unlockQueue t p) :=
  ⟨h.queue.release_goto (f := fun _ p => Pc.holdsQueue p = true) hold
    (by rw [hq]; exact Bool.false_ne_true),
    fun task => h.task_keep (ht task), h.holder_keep ho⟩

lemma lockTask (hfree : s.taskLock task = none)
    (hq : p.holdsQueue = (s.pc t).holdsQueue) (hp : p.holdsTask task t)
    (ht : ∀ other, other ≠ task → (p.holdsTask other t ↔ (s.pc t).holdsTask other t))
    (ho : p.owns = (s.pc t).owns) :
    Locks { s.goto t p with
      taskLock := update s.taskLock task (some t) } := by
  refine ⟨h.queue_keep hq, fun other => ?_, h.holder_keep ho⟩
  by_cases hother : other = task
  · subst hother
    simp only [update_self]
    exact (h.task other).acquire_goto (f := fun u p => Pc.holdsTask other u p) hfree hp
  · simp only [update_of_ne hother]
    exact h.task_keep (ht other hother)

lemma unlockTask (hold : (s.pc t).holdsTask task t)
    (hq : p.holdsQueue = (s.pc t).holdsQueue) (hp : ¬ p.holdsTask task t)
    (ht : ∀ other, other ≠ task → (p.holdsTask other t ↔ (s.pc t).holdsTask other t))
    (ho : p.owns = (s.pc t).owns) : Locks (s.unlockTask t task p) := by
  refine ⟨h.queue_keep hq, fun other => ?_, h.holder_keep ho⟩
  by_cases hother : other = task
  · subst hother
    simp only [Sys.unlockTask, update_self]
    exact (h.task other).release_goto (f := fun u p => Pc.holdsTask other u p) hold hp
  · simp only [Sys.unlockTask, update_of_ne hother]
    exact h.task_keep (ht other hother)

lemma setHolder (hfree : s.holder = none) (hq : p.holdsQueue = (s.pc t).holdsQueue)
    (ht : ∀ task, p.holdsTask task t ↔ (s.pc t).holdsTask task t)
    (hp : p.owns = true) : Locks { s.goto t p with holder := some t } :=
  ⟨h.queue_keep hq, fun task => h.task_keep (ht task),
    h.holder.acquire_goto (f := fun _ p => Pc.owns p = true) hfree hp⟩

lemma clearHolder (hold : (s.pc t).owns = true) (hq : p.holdsQueue = (s.pc t).holdsQueue)
    (ht : ∀ task, p.holdsTask task t ↔ (s.pc t).holdsTask task t)
    (hp : p.owns = false) : Locks { s.goto t p with holder := none } :=
  ⟨h.queue_keep hq, fun task => h.task_keep (ht task),
    h.holder.release_goto (f := fun _ p => Pc.owns p = true) hold
      (by rw [hp]; exact Bool.false_ne_true)⟩

lemma setQueue (queue : List Nat) : Locks { s with queue := queue } := ⟨h.queue, h.task, h.holder⟩

lemma wakeup (task : Nat) : Locks (s.wakeup task) := by
  rw [Sys.wakeup]
  split
  · rename_i hpc
    refine h.goto ?_ ?_ ?_
    · rw [hpc]
      rfl
    · intro other
      rw [hpc]
      exact Iff.rfl
    · rw [hpc]
      rfl
  · exact h

end
end Locks

lemma pc_wakeup_of_ne {s : Sys} {t task : Nat} (h : s.pc t ≠ .parked) :
    (s.wakeup task).pc t = s.pc t := by
  rw [Sys.wakeup]
  split
  · rename_i hpc
    have hne : t ≠ task := by
      rintro rfl
      exact h hpc
    exact update_of_ne hne ..
  · rfl

lemma Locks.step (h : Locks s) (hstep : Step s t s') : Locks s' := by
  have hsame : ∀ {p q : Pc}, s.pc t = q → (∀ task, p.holdsTask task t ↔ q.holdsTask task t) →
      ∀ task, p.holdsTask task t ↔ (s.pc t).holdsTask task t := by
    intro p q hpc hpq task
    rw [hpc]
    exact hpq task
  cases hstep with
  | call hpc | dropGuard hpc =>
    exact h.goto (by rw [hpc]; rfl) (hsame hpc fun _ => Iff.rfl) (by rw [hpc]; rfl)
  | enter hpc hfree | unlock hpc hfree =>
    exact h.lockQueue hfree rfl (hsame hpc fun _ => Iff.rfl) (by rw [hpc]; rfl)
  | acquire hpc hfree => exact h.setHolder hfree (by rw [hpc]; rfl) (hsame hpc fun _ => Iff.rfl) rfl
  | push hpc hbusy =>
    exact (h.goto (p := .pushed) (by rw [hpc]; rfl)
      (hsame hpc fun _ => Iff.rfl) (by rw [hpc]; rfl)).setQueue _
  | leave hpc | block hpc | done hpc _ =>
    exact h.unlockQueue (by rw [hpc]; rfl) rfl (hsame hpc fun _ => Iff.rfl) (by rw [hpc]; rfl)
  | lockSelf hpc hfree | schedule hpc hfree | lockPopped hpc hfree =>
    refine h.lockTask hfree (by rw [hpc]; rfl) rfl ?_ (by rw [hpc]; rfl)
    intro other hother
    rw [hpc]
    exact iff_of_false (Ne.symm hother) not_false
  | switch hpc | resume hpc =>
    refine h.unlockTask (by rw [hpc]; rfl) (by rw [hpc]; rfl) not_false ?_ (by rw [hpc]; rfl)
    intro other hother
    rw [hpc]
    exact iff_of_false not_false (Ne.symm hother)
  | clear hpc =>
    exact h.clearHolder (by rw [hpc]; rfl) (by rw [hpc]; rfl) (hsame hpc fun _ => Iff.rfl) rfl
  | pop hpc hqueue =>
    exact (h.goto (p := .drain _) (by rw [hpc]; rfl)
      (hsame hpc fun _ => Iff.rfl) (by rw [hpc]; rfl)).setQueue _
  | wake hpc =>
    rename_i task
    have hpc' : (s.wakeup task).pc t = .drained task := by
      rw [pc_wakeup_of_ne (by rw [hpc]; nofun), hpc]
    refine (h.wakeup task).unlockTask (by rw [hpc']; rfl) (by rw [hpc']; rfl)
      not_false ?_ (by rw [hpc']; rfl)
    intro other hother
    rw [hpc']
    exact iff_of_false not_false (Ne.symm hother)

/-! ### The wait queue -/

/-- The queue and the task that `signal_all` popped last are those that wait, and
a queue with somebody in it belongs to a held mutex or is being drained. -/
structure Waits (s : Sys) : Prop where
  busy : ∀ t, s.pc t = .pushed ∨ s.pc t = .parking → s.holder ≠ none
  queued : ∀ t ∈ s.queue, (s.pc t).waiting = true
  nodup : s.queue.Nodup
  popped : ∀ u t, (s.pc u).popped = some t → (s.pc t).waiting = true ∧ t ∉ s.queue
  listed : ∀ t, (s.pc t).waiting = true → t ∈ s.queue ∨ ∃ u, (s.pc u).popped = some t
  served : s.queue ≠ [] → s.holder ≠ none ∨ ∃ u, (s.pc u).wakes = true

namespace Waits

variable {s : Sys} {t : Nat} {p : Pc}

lemma goto (h : Waits s) (s' : Sys) (hpc : s'.pc = update s.pc t p) (hqueue : s'.queue = s.queue)
    (hholder : s.holder ≠ none → s'.holder ≠ none) (hwaiting : p.waiting = (s.pc t).waiting)
    (hpopped : p.popped = (s.pc t).popped) (hwakes : (s.pc t).wakes = true → p.wakes = true)
    (hbusy : p = .pushed ∨ p = .parking → s.pc t = .pushed ∨ s.pc t = .parking) : Waits s' := by
  have hw : ∀ u, (s'.pc u).waiting = (s.pc u).waiting := by
    rw [hpc]
    exact apply_update_eq Pc.waiting hwaiting
  have hp : ∀ u, (s'.pc u).popped = (s.pc u).popped := by
    rw [hpc]
    exact apply_update_eq Pc.popped hpopped
  constructor
  · intro u hu
    apply hholder
    rw [hpc] at hu
    by_cases hut : u = t
    · subst hut
      rw [update_self] at hu
      exact h.busy u (hbusy hu)
    · rw [update_of_ne hut] at hu
      exact h.busy u hu
  · intro u hu
    rw [hw]
    rw [hqueue] at hu
    exact h.queued u hu
  · rw [hqueue]
    exact h.nodup
  · intro u v huv
    rw [hp] at huv
    rw [hw, hqueue]
    exact h.popped u v huv
  · intro u hu
    rw [hw] at hu
    rw [hqueue]
    simp only [hp]
    exact h.listed u hu
  intro hne
  rw [hqueue] at hne
  rcases h.served hne with hheld | ⟨u, hu⟩
  · exact .inl (hholder hheld)
  refine .inr ⟨u, ?_⟩
  rw [hpc]
  by_cases hut : u = t
  · subst hut
    rw [update_self]
    exact hwakes hu
  · rw [update_of_ne hut]
    exact hu

lemma push (h : Waits s) (hpc : s.pc t = .check) (hbusy : s.holder ≠ none) :
    Waits { s.goto t .pushed with queue := s.queue ++ [t] } := by
  have hself : (s.goto t .pushed).pc t = .pushed := update_self ..
  have hother : ∀ {u}, u ≠ t → (s.goto t .pushed).pc u = s.pc u := fun hu => update_of_ne hu ..
  have hne : ∀ {u}, (s.pc u).waiting = true → u ≠ t := by
    rintro u hu rfl
    rw [hpc] at hu
    cases hu
  have hfresh : t ∉ s.queue := fun hmem => hne (h.queued t hmem) rfl
  constructor
  · exact fun _ _ => hbusy
  · intro u hu
    change ((s.goto t .pushed).pc u).waiting = true
    rcases mem_append.mp hu with hu | hu
    · rw [hother (hne (h.queued u hu))]
      exact h.queued u hu
    · rw [mem_singleton.mp hu, hself]
      rfl
  · refine nodup_append.mpr ⟨h.nodup, pairwise_singleton _ t, ?_⟩
    rintro u hu v hv rfl
    exact hfresh (mem_singleton.mp hv ▸ hu)
  · intro u v huv
    change ((s.goto t .pushed).pc u).popped = some v at huv
    have hu : u ≠ t := by
      rintro rfl
      rw [hself] at huv
      cases huv
    rw [hother hu] at huv
    obtain ⟨hv, hnot⟩ := h.popped u v huv
    refine ⟨?_, ?_⟩
    · change ((s.goto t .pushed).pc v).waiting = true
      rw [hother (hne hv)]
      exact hv
    · rw [mem_append, mem_singleton]
      exact not_or.mpr ⟨hnot, hne hv⟩
  · intro u hu
    change ((s.goto t .pushed).pc u).waiting = true at hu
    by_cases hut : u = t
    · exact .inl (mem_append_right _ (mem_singleton.mpr hut))
    rw [hother hut] at hu
    rcases h.listed u hu with hmem | ⟨v, hv⟩
    · exact .inl (mem_append_left _ hmem)
    refine .inr ⟨v, ?_⟩
    have hvt : v ≠ t := by
      rintro rfl
      rw [hpc] at hv
      cases hv
    change ((s.goto t .pushed).pc v).popped = some u
    rw [hother hvt]
    exact hv
  · exact fun _ => .inl hbusy

lemma pop (h : Waits s) {task : Nat} {rest : List Nat} (hpc : s.pc t = .draining)
    (hqueue : s.queue = task :: rest) : Waits { s.goto t (.drain task) with queue := rest } := by
  have hself : (s.goto t (.drain task)).pc t = .drain task := update_self ..
  have hother : ∀ {u}, u ≠ t → (s.goto t (.drain task)).pc u = s.pc u :=
    fun hu => update_of_ne hu ..
  have hwaiting : ∀ u, ((s.goto t (.drain task)).pc u).waiting =
      (s.pc u).waiting := apply_update_eq Pc.waiting (by rw [hpc]; rfl)
  have hnodup := h.nodup
  rw [hqueue, nodup_cons] at hnodup
  constructor
  · intro u hu
    change (s.goto t (.drain task)).pc u = .pushed ∨ (s.goto t (.drain task)).pc u = .parking at hu
    apply h.busy u
    by_cases hut : u = t
    · rw [hut, hself] at hu
      rcases hu with hu | hu <;> cases hu
    · rw [hother hut] at hu
      exact hu
  · intro u hu
    change ((s.goto t (.drain task)).pc u).waiting = true
    rw [hwaiting]
    apply h.queued
    rw [hqueue]
    exact mem_cons_of_mem task hu
  · exact hnodup.2
  · intro u v huv
    change ((s.goto t (.drain task)).pc u).popped = some v at huv
    change ((s.goto t (.drain task)).pc v).waiting = true ∧ v ∉ rest
    rw [hwaiting]
    by_cases hut : u = t
    · rw [hut, hself] at huv
      cases huv
      refine ⟨h.queued task ?_, hnodup.1⟩
      rw [hqueue]
      exact mem_cons_self
    rw [hother hut] at huv
    obtain ⟨hv, hnot⟩ := h.popped u v huv
    rw [hqueue] at hnot
    exact ⟨hv, fun hmem => hnot (mem_cons_of_mem task hmem)⟩
  · intro u hu
    change ((s.goto t (.drain task)).pc u).waiting = true at hu
    rw [hwaiting] at hu
    rcases h.listed u hu with hmem | ⟨v, hv⟩
    · rw [hqueue] at hmem
      rcases mem_cons.mp hmem with rfl | hmem
      · exact .inr ⟨t, congrArg Pc.popped hself⟩
      · exact .inl hmem
    have hvt : v ≠ t := by
      rintro rfl
      rw [hpc] at hv
      cases hv
    exact .inr ⟨v, (congrArg Pc.popped (hother hvt)).trans hv⟩
  · exact fun _ => .inr ⟨t, congrArg Pc.wakes hself⟩

end Waits

lemma parked_of_popped {s : Sys} (hlocks : Locks s) (h : Waits s)
    {t task : Nat} (hpc : s.pc t = .drained task) : s.pc task = .parked := by
  obtain ⟨hwaiting, -⟩ := h.popped t task (by rw [hpc]; rfl)
  have hne : task ≠ t := by
    rintro rfl
    rw [hpc] at hwaiting
    cases hwaiting
  have hqueue : (s.pc task).holdsQueue ≠ true := fun hholds =>
    hne (hlocks.queue.sole hholds (by rw [hpc]; rfl))
  have htask : ¬ (s.pc task).holdsTask task task := fun hholds =>
    hne ((hlocks.task task).sole hholds (by rw [hpc]; rfl))
  cases hp : s.pc task with
  | parked => rfl
  | pushed | parking =>
    rw [hp] at hqueue
    exact absurd rfl hqueue
  | switching =>
    rw [hp] at htask
    exact absurd rfl htask
  | idle | enter | check | acquired | ready | resumed | holding | unlock | clear
  | draining | drain _ | drained _ =>
    rw [hp] at hwaiting
    cases hwaiting

lemma popped_sole (hlocks : Locks s)
    (ht : (s.pc t).holdsQueue = true) (hu : (s.pc u).popped ≠ none) : u = t := by
  refine hlocks.queue.sole ?_ ht
  cases hp : s.pc u with
  | drain _ | drained _ => rfl
  | idle | enter | check | acquired | pushed | parking | switching | parked
  | ready | resumed | holding | unlock | clear | draining =>
    rw [hp] at hu
    exact absurd rfl hu

namespace Waits

variable {s : Sys} {t : Nat}

lemma wake (h : Waits s) (hlocks : Locks s) {task : Nat} (hpc : s.pc t = .drained task) :
    Waits ((s.wakeup task).unlockTask t task .draining) := by
  have hparked := parked_of_popped hlocks h hpc
  obtain ⟨-, hnot⟩ := h.popped t task (by rw [hpc]; rfl)
  have hne : task ≠ t := by
    rintro rfl
    rw [hpc] at hparked
    cases hparked
  have hpcs : ((s.wakeup task).unlockTask t task .draining).pc =
      update (update s.pc task .ready) t .draining := by
    rw [Sys.wakeup, if_pos hparked]
    rfl
  have hrest : ((s.wakeup task).unlockTask t task .draining).queue = s.queue ∧
      ((s.wakeup task).unlockTask t task .draining).holder = s.holder := by
    rw [Sys.wakeup, if_pos hparked]
    exact ⟨rfl, rfl⟩
  have hself : ((s.wakeup task).unlockTask t task .draining).pc t = .draining := by
    rw [hpcs, update_self]
  have hready : ((s.wakeup task).unlockTask t task .draining).pc task = .ready := by
    rw [hpcs, update_of_ne hne, update_self]
  have hother : ∀ {u}, u ≠ t → u ≠ task →
      ((s.wakeup task).unlockTask t task .draining).pc u = s.pc u := by
    intro u hu hu'
    rw [hpcs, update_of_ne hu, update_of_ne hu']
  generalize (s.wakeup task).unlockTask t task .draining = s' at *
  obtain ⟨hqueue, hholder⟩ := hrest
  have hcases : ∀ {u} {P : Pc → Prop}, ¬ P .draining → ¬ P .ready →
      P (s'.pc u) → u ≠ t ∧ u ≠ task ∧ P (s.pc u) := by
    intro u P hdraining hready' hu
    have hut : u ≠ t := by
      rintro rfl
      exact hdraining (hself ▸ hu)
    have hutask : u ≠ task := by
      rintro rfl
      exact hready' (hready ▸ hu)
    exact ⟨hut, hutask, hother hut hutask ▸ hu⟩
  constructor
  · intro u hu
    obtain ⟨-, -, hold⟩ := hcases (P := fun p => p = .pushed ∨ p = .parking)
      (by decide) (by decide) hu
    rw [hholder]
    exact h.busy u hold
  · intro u hu
    rw [hqueue] at hu
    have hwaiting := h.queued u hu
    have hut : u ≠ t := by
      rintro rfl
      rw [hpc] at hwaiting
      cases hwaiting
    have hutask : u ≠ task := by
      rintro rfl
      exact hnot hu
    rw [hother hut hutask]
    exact hwaiting
  · rw [hqueue]
    exact h.nodup
  · intro u v huv
    obtain ⟨hut, -, hold⟩ := hcases (P := fun p => p.popped = some v) nofun nofun huv
    have heq := popped_sole hlocks (t := t) (by rw [hpc]; rfl) (u := u) (by rw [hold]; nofun)
    exact absurd heq hut
  · intro u hu
    obtain ⟨hut, hutask, hold⟩ := hcases (P := fun p => p.waiting = true) nofun nofun hu
    rw [hqueue]
    rcases h.listed u hold with hmem | ⟨v, hv⟩
    · exact .inl hmem
    have heq := popped_sole hlocks (t := t) (by rw [hpc]; rfl) (u := v) (by rw [hv]; nofun)
    rw [heq, hpc] at hv
    exact absurd (Option.some.inj hv).symm hutask
  · exact fun _ => .inr ⟨t, congrArg Pc.wakes hself⟩

lemma clear (h : Waits s) (hlocks : Locks s) (hpc : s.pc t = .clear) :
    Waits { s.goto t .draining with holder := none } := by
  have hself : (s.goto t .draining).pc t = .draining := update_self ..
  have hsame := h.goto (s.goto t .draining) rfl rfl (fun hheld => hheld)
    (by rw [hpc]; rfl) (by rw [hpc]; rfl) (by rw [hpc]; nofun) nofun
  refine ⟨?_, hsame.queued, hsame.nodup, hsame.popped, hsame.listed, ?_⟩
  · intro u hu
    change (s.goto t .draining).pc u = .pushed ∨ (s.goto t .draining).pc u = .parking at hu
    have hut : u ≠ t := by
      rintro rfl
      rw [hself] at hu
      rcases hu with hu | hu <;> cases hu
    have hpc' : (s.goto t .draining).pc u = s.pc u := update_of_ne hut ..
    rw [hpc'] at hu
    have hqueue : (s.pc u).holdsQueue = true := by
      rcases hu with hu | hu <;>
      · rw [hu]
        rfl
    exact absurd (hlocks.queue.sole hqueue (by rw [hpc]; rfl)) hut
  · exact fun _ => .inr ⟨t, congrArg Pc.wakes hself⟩

lemma done (h : Waits s) (hpc : s.pc t = .draining) (hempty : s.queue = []) :
    Waits (s.unlockQueue t .idle) := by
  have hself : (s.goto t .idle).pc t = .idle := update_self ..
  have hother : ∀ {u}, u ≠ t → (s.goto t .idle).pc u = s.pc u := fun hu => update_of_ne hu ..
  have hcases : ∀ {u} {P : Pc → Prop}, ¬ P .idle → P ((s.goto t .idle).pc u) → P (s.pc u) := by
    intro u P hidle hu
    by_cases hut : u = t
    · subst hut
      rw [hself] at hu
      exact absurd hu hidle
    · rw [hother hut] at hu
      exact hu
  have hnone : ∀ u, u ∉ (s.unlockQueue t .idle).queue := by
    intro u hu
    change u ∈ s.queue at hu
    rw [hempty] at hu
    cases hu
  refine ⟨?_, fun u hu => absurd hu (hnone u), h.nodup, ?_, ?_, fun hne => absurd hempty hne⟩
  · intro u hu
    exact h.busy u (hcases (P := fun p => p = .pushed ∨ p = .parking) (by decide) hu)
  · intro u v huv
    have hold := hcases (P := fun p => p.popped = some v) nofun huv
    obtain ⟨hv, hnot⟩ := h.popped u v hold
    refine ⟨?_, hnot⟩
    have hvt : v ≠ t := by
      rintro rfl
      rw [hpc] at hv
      cases hv
    change ((s.goto t .idle).pc v).waiting = true
    rw [hother hvt]
    exact hv
  intro u hu
  have hold := hcases (P := fun p => p.waiting = true) nofun hu
  rcases h.listed u hold with hmem | ⟨v, hv⟩
  · exact .inl hmem
  have hvt : v ≠ t := by
    rintro rfl
    rw [hpc] at hv
    cases hv
  exact .inr ⟨v, (congrArg Pc.popped (hother hvt)).trans hv⟩

lemma step (h : Waits s) (hlocks : Locks s) (hstep : Step s t s') : Waits s' := by
  cases hstep with
  | call hpc | enter hpc _ | leave hpc | block hpc | switch hpc
  | schedule hpc _ | resume hpc | dropGuard hpc | unlock hpc _ =>
    exact h.goto _ rfl rfl (fun hheld => hheld) (by rw [hpc]; rfl)
      (by rw [hpc]; rfl) (by rw [hpc]; nofun) nofun
  | acquire hpc _ =>
    exact h.goto _ rfl rfl (fun _ => nofun) (by rw [hpc]; rfl)
      (by rw [hpc]; rfl) (by rw [hpc]; nofun) nofun
  | lockSelf hpc _ =>
    exact h.goto _ rfl rfl (fun hheld => hheld) (by rw [hpc]; rfl)
      (by rw [hpc]; rfl) (by rw [hpc]; nofun) (fun _ => .inl hpc)
  | lockPopped hpc _ =>
    exact h.goto _ rfl rfl (fun hheld => hheld) (by rw [hpc]; rfl)
      (by rw [hpc]; rfl) (fun _ => rfl) nofun
  | push hpc hbusy => exact h.push hpc hbusy
  | clear hpc => exact h.clear hlocks hpc
  | pop hpc hqueue => exact h.pop hpc hqueue
  | done hpc hempty => exact h.done hpc hempty
  | wake hpc => exact h.wake hlocks hpc

end Waits

lemma locks_boot : Locks boot :=
  ⟨fun _ => iff_of_false nofun nofun, fun _ _ => iff_of_false nofun nofun,
    fun _ => iff_of_false nofun nofun⟩

lemma waits_boot : Waits boot where
  busy _ hu := by
    rcases hu with hu | hu <;> cases hu
  queued _ := nofun
  nodup := .nil
  popped _ _ := nofun
  listed _ := nofun
  served hne := absurd rfl hne

/-- At most one task has the mutex, it is the recorded holder, and a task that is
blocked in `lock` while there is no holder is one that `signal_all` is about to
wake up. -/
theorem mutex_exclusive_and_served {s : Sys} (hs : machine.Reachable s) :
    (∀ t u, (s.pc t).owns = true → (s.pc u).owns = true → t = u) ∧
      (∀ t, (s.pc t).owns = true ↔ s.holder = some t) ∧
      ¬ ∃ t, (s.pc t).blocked = true ∧ s.holder = none ∧ ∀ u, (s.pc u).wakes = false := by
  have hinv : Locks s ∧ Waits s := by
    apply hs.invariant
    · rintro s rfl
      exact ⟨locks_boot, waits_boot⟩
    rintro s t s' ⟨hlocks, hwaits⟩ - hstep
    have hstep := Step.of_step hstep
    exact ⟨hlocks.step hstep, hwaits.step hlocks hstep⟩
  obtain ⟨hlocks, hwaits⟩ := hinv
  refine ⟨fun t u ht hu => hlocks.holder.sole ht hu, hlocks.holder, ?_⟩
  rintro ⟨t, hblocked, hfree, hnone⟩
  have hwaiting : (s.pc t).waiting = true := by
    cases hp : s.pc t with
    | switching | parked => rfl
    | idle | enter | check | acquired | pushed | parking | ready | resumed
    | holding | unlock | clear | draining | drain _ | drained _ =>
      rw [hp] at hblocked
      cases hblocked
  rcases hwaits.listed t hwaiting with hmem | ⟨u, hu⟩
  · rcases hwaits.served (ne_nil_of_mem hmem) with hheld | ⟨u, hu⟩
    · exact hheld hfree
    · cases (hnone u).symm.trans hu
  have hwakes : (s.pc u).wakes = true := by
    cases hp : s.pc u with
    | drain _ | drained _ => rfl
    | idle | enter | check | acquired | pushed | parking | switching | parked
    | ready | resumed | holding | unlock | clear | draining =>
      rw [hp] at hu
      cases hu
  cases (hnone u).symm.trans hwakes

/-- Task 0 has the mutex and task 1 is blocked in `lock`. -/
theorem mutex_exclusive_and_served_contended :
    ∃ s, machine.Reachable s ∧ s.pc 1 = .parked ∧ s.holder = some 0 ∧
      (∀ t u, (s.pc t).owns = true → (s.pc u).owns = true → t = u) ∧
      (∀ t, (s.pc t).owns = true ↔ s.holder = some t) ∧
      ¬ ∃ t, (s.pc t).blocked = true ∧ s.holder = none ∧ ∀ u, (s.pc u).wakes = false := by
  have hfacts : (machine.run boot [0, 0, 0, 0, 1, 1, 1, 1, 1, 1]).map
      (fun s => (s.pc 1, s.holder)) = some (.parked, some 0) := by decide
  obtain ⟨s, hrun, heq⟩ := Option.map_eq_some_iff.mp hfacts
  obtain ⟨hpc, hholder⟩ := Prod.mk.inj heq
  have hs : machine.Reachable s := Machine.Reachable.run (.start rfl) hrun
  exact ⟨s, hs, hpc, hholder, mutex_exclusive_and_served hs⟩

end Redwing.SleepMutexes
