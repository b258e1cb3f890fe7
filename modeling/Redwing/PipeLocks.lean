/-
The steps of a pipe, one case for each thing that can happen, and who holds its
locks: the tasks that are where the code holds them.  The wait queues hold the
tasks that sleep, and an end that is in use is not dropped.
-/
import Redwing.Guards
import Redwing.Pipe

namespace Redwing.Pipes

open Function Pc

lemma End.other_other (e : End) : e.other.other = e := by
  cases e with
  | read => rfl
  | write => rfl

lemma End.eq_other_of_ne {e e' : End} (h : e ≠ e') : e = e'.other := by
  cases e <;> cases e' <;> first | rfl | exact absurd rfl h

lemma Pc.of_not_active {pc : Pc} (h : pc.active = false) :
    pc.holdsBuffer = false ∧ pc.holdsQueue = false ∧ pc ≠ .asleep := by
  cases pc with
  | idle | finished => exact ⟨rfl, rfl, noConfusion⟩
  | lockBuffer | transfer | signal | check | lockQueue | recheck | dropBuffer
  | sleep | asleep => cases h

namespace Pipe

/-- From `s` to `s'` the task `t` went on to `pc`, within its call. -/
structure Moves (s s' : Pipe) (t : Nat) (pc : Pc) : Prop where
  pc : (s'.tasks t).pc = pc
  side : s'.side t = s.side t
  others : ∀ u, u ≠ t → s'.tasks u = s.tasks u

section

variable {s s' : Pipe} {t : Nat} {pc : Pc}

lemma moves_setTask (h : s'.tasks = (s.setTask t task).tasks)
    (hside : task.call.side = s.side t) : Moves s s' t task.pc := by
  have htask : s'.tasks = update s.tasks t task := h
  refine ⟨?_, ?_, ?_⟩
  · rw [htask, update_self]
  · rw [side, htask, update_self, hside]
  · intro u hu
    rw [htask, update_of_ne hu]

lemma moves_goto (h : s'.tasks = (s.goto t pc).tasks) : Moves s s' t pc := moves_setTask h rfl

lemma Moves.side_eq (h : Moves s s' t pc) (u : Nat) : s'.side u = s.side u := by
  by_cases hu : u = t
  · rw [hu, h.side]
  · rw [Pipe.side, Pipe.side, h.others u hu]

lemma Moves.eq_of_eq (h : Moves s s' t pc) (f : Pc → Bool) (hsame : f pc = f (s.tasks t).pc) :
    f (s'.tasks u).pc = f (s.tasks u).pc := by
  by_cases hu : u = t
  · rw [hu, h.pc, hsame]
  · rw [h.others u hu]

end
end Pipe

inductive Step (s : Pipe) : Pipe → Prop
  | start {t : Nat} {side : End} {buf : List UInt8}
      (idle : (s.tasks t).pc.active = false) (live : s.ends side = .live) :
      Step s
        { s.setTask t { pc := .lockBuffer, call := { side, done := [], buf } }
          with inCall := update s.inCall side (t :: s.inCall side) }
  | refuse : Step s s
  | lockBuffer {t : Nat} (pc : (s.tasks t).pc = .lockBuffer)
      (free : s.bufferLock = none) :
      Step s { s.goto t .transfer with bufferLock := some t }
  | read {t : Nat} (split : Nat) (pc : (s.tasks t).pc = .transfer)
      (side : s.side t = .read) : Step s (s.readRound t split)
  | write {t : Nat} (pc : (s.tasks t).pc = .transfer)
      (side : s.side t = .write) : Step s (s.writeRound t)
  | signal {t : Nat} (pc : (s.tasks t).pc = .signal)
      (free : s.queueLock (s.side t).other = none) :
      Step s ((s.signalAll (s.side t).other).goto t .check)
  | finish {t : Nat} (pc : (s.tasks t).pc = .check)
      (done : (s.tasks t).call.buf = [] ∨ s.isClosed = true) :
      Step s (s.finish t)
  | goOn {t : Nat} (pc : (s.tasks t).pc = .check)
      (rest : (s.tasks t).call.buf ≠ []) (opened : s.isClosed = false) :
      Step s (s.goto t .lockQueue)
  | lockQueue {t : Nat} (pc : (s.tasks t).pc = .lockQueue)
      (free : s.queueLock (s.side t) = none) :
      Step s { s.goto t .recheck with queueLock := update s.queueLock (s.side t) (some t) }
  | giveUp {t : Nat} (pc : (s.tasks t).pc = .recheck)
      (closed : s.isClosed = true) :
      Step s { s.finish t with queueLock := update s.queueLock (s.side t) none }
  | commit {t : Nat} (pc : (s.tasks t).pc = .recheck)
      (opened : s.isClosed = false) : Step s (s.goto t .dropBuffer)
  | dropBuffer {t : Nat} (pc : (s.tasks t).pc = .dropBuffer) :
      Step s { s.goto t .sleep with bufferLock := none }
  | sleep {t : Nat} (pc : (s.tasks t).pc = .sleep) :
      Step s { s.goto t .asleep with
        queue := update s.queue (s.side t) (s.queue (s.side t) ++ [t])
        queueLock := update s.queueLock (s.side t) none }
  | dropEnd {e : End} (live : s.ends e = .live) (unused : s.inCall e = []) :
      Step s { s with ends := update s.ends e .swap }
  | closeLate {e : End} (swap : s.ends e = .swap)
      (closed : s.isClosed = true) :
      Step s { s with ends := update s.ends e .closed }
  | close {e : End} (swap : s.ends e = .swap) (opened : s.isClosed = false) :
      Step s { s with
        isClosed := true
        ends := update s.ends e (.signal .read) }
  | signalReaders {e : End} (signal : s.ends e = .signal .read)
      (free : s.queueLock .read = none) :
      Step s { s.signalAll .read with ends := update s.ends e (.signal .write) }
  | signalWriters {e : End} (signal : s.ends e = .signal .write)
      (free : s.queueLock .write = none) :
      Step s { s.signalAll .write with ends := update s.ends e .closed }

lemma Step.of_stepTask (h : s.stepTask t split = some s') : Step s s' := by
  rw [Pipe.stepTask] at h
  split at h
  · cases h
  · cases h
  · cases h
  · split at h
    · cases h
      exact .lockBuffer ‹_› ‹_›
    · cases h
  · split at h
    · cases h
      exact .read split ‹_› ‹_›
    · cases h
      exact .write ‹_› ‹_›
  · split at h
    · cases h
      exact .signal ‹_› ‹_›
    · cases h
  · split at h
    · cases h
      exact .finish ‹_› ‹_›
    · rename_i hgoOn
      cases h
      simp only [not_or, Bool.not_eq_true] at hgoOn
      exact .goOn ‹_› hgoOn.1 hgoOn.2
  · split at h
    · cases h
      exact .lockQueue ‹_› ‹_›
    · cases h
  · split at h
    · cases h
      exact .giveUp ‹_› ‹_›
    · rename_i hopen
      cases h
      exact .commit ‹_› (by simpa using hopen)
  · cases h
    exact .dropBuffer ‹_›
  · cases h
    exact .sleep ‹_›

lemma Step.of_stepClose (h : s.stepClose e = some s') : Step s s' := by
  rw [Pipe.stepClose] at h
  split at h
  · cases h
  · cases h
  · rename_i hswap
    split at h
    · cases h
      exact .closeLate hswap ‹_›
    rename_i hopen
    cases h
    exact .close hswap (by simpa using hopen)
  rename_i queue hsignal
  split at h
  · cases h
    cases queue with
    | read => exact .signalReaders hsignal ‹_›
    | write => exact .signalWriters hsignal ‹_›
  · cases h

lemma Step.of_step (h : step s action = some s') : Step s s' := by
  cases action with
  | start t side pipeEnd buf =>
    rw [step, Pipe.startCall] at h
    split at h
    · rename_i hready
      split at h
      · rename_i hside
        cases h
        exact .start hready.1 (hside ▸ hready.2)
      · cases h
        exact .refuse
    · cases h
  | task t split => exact .of_stepTask h
  | dropEnd e =>
    obtain ⟨hready, rfl⟩ := Option.ite_some_none_eq_some.mp h
    exact .dropEnd hready.1 hready.2
  | close e => exact .of_stepClose h

/-! ### Locks, queues and references -/

/-- The locks are held by the tasks that are where they hold them, the queues
hold the sleeping tasks, and an end in use is not dropped. -/
structure Locked (s : Pipe) : Prop where
  buffer : Guards s.bufferLock fun t => (s.tasks t).pc.holdsBuffer = true
  queueLock : ∀ q, Guards (s.queueLock q) fun t => (s.tasks t).pc.holdsQueue = true ∧ s.side t = q
  queue : ∀ t q, t ∈ s.queue q ↔ (s.tasks t).pc = .asleep ∧ s.side t = q
  calls : ∀ t, (s.tasks t).pc.active = true → t ∈ s.inCall (s.side t)
  live : ∀ q, s.inCall q ≠ [] → s.ends q = .live

namespace Locked

open Pipe

variable {s s' : Pipe} {t : Nat} {pc : Pc}

section

variable (h : Locked s)

include h

lemma live_of_active (ht : (s.tasks t).pc.active = true) : s.ends (s.side t) = .live := by
  apply h.live
  intro hnone
  have hmem := h.calls t ht
  rw [hnone] at hmem
  cases hmem

lemma buffer_keep (hm : Moves s s' t pc) (hlock : s'.bufferLock = s.bufferLock)
    (hsame : pc.holdsBuffer = (s.tasks t).pc.holdsBuffer) :
    Guards s'.bufferLock fun u => (s'.tasks u).pc.holdsBuffer = true := by
  rw [hlock]
  apply h.buffer.keep
  intro u
  rw [hm.eq_of_eq holdsBuffer hsame]

lemma queueLock_keep (hm : Moves s s' t pc) (hlock : s'.queueLock = s.queueLock)
    (hsame : pc.holdsQueue = (s.tasks t).pc.holdsQueue) (q : End) :
    Guards (s'.queueLock q) fun u =>
      (s'.tasks u).pc.holdsQueue = true ∧ s'.side u = q := by
  rw [hlock]
  apply (h.queueLock q).keep
  intro u
  rw [hm.eq_of_eq holdsQueue hsame, hm.side_eq]

lemma queue_keep (hm : Moves s s' t pc) (hqueue : s'.queue = s.queue)
    (hold : (s.tasks t).pc ≠ .asleep) (hnew : pc ≠ .asleep) (u : Nat) (q : End) :
    u ∈ s'.queue q ↔ (s'.tasks u).pc = .asleep ∧ s'.side u = q := by
  rw [hqueue, h.queue, hm.side_eq]
  by_cases hu : u = t
  · subst hu
    rw [hm.pc]
    exact iff_of_false (fun h => hold h.1) (fun h => hnew h.1)
  · rw [hm.others u hu]

lemma calls_keep (hm : Moves s s' t pc) (hcalls : s'.inCall = s.inCall)
    (hold : (s.tasks t).pc.active = true) (u : Nat) (hu : (s'.tasks u).pc.active = true) :
    u ∈ s'.inCall (s'.side u) := by
  rw [hcalls, hm.side_eq]
  apply h.calls
  by_cases hut : u = t
  · rw [hut, hold]
  · rwa [hm.others u hut] at hu

lemma live_keep (hcalls : s'.inCall = s.inCall) (hends : s'.ends = s.ends) (q : End)
    (hq : s'.inCall q ≠ []) : s'.ends q = .live := by
  rw [hends]
  rw [hcalls] at hq
  exact h.live q hq

lemma mem_queue_pc (ht : t ∈ s.queue q) : (s.tasks t).pc = .asleep := ((h.queue t q).mp ht).1

lemma signalAll_pc (q : End) (f : Pc → Bool) (hsame : f .lockBuffer = f .asleep) (u : Nat) :
    f ((s.signalAll q).tasks u).pc = f (s.tasks u).pc := by
  by_cases hu : u ∈ s.queue q
  · simp [Pipe.signalAll, hu, h.mem_queue_pc hu, hsame]
  · simp [Pipe.signalAll, hu]

end

lemma signalAll_side (q : End) (u : Nat) : (s.signalAll q).side u = s.side u := by
  simp only [Pipe.side, Pipe.signalAll]
  split <;> rfl

lemma signalAll (h : Locked s) (q : End) : Locked (s.signalAll q) := by
  refine ⟨?_, ?_, ?_, ?_, h.live⟩
  · apply h.buffer.keep
    intro u
    rw [h.signalAll_pc q holdsBuffer rfl]
  · intro q'
    apply (h.queueLock q').keep
    intro u
    rw [h.signalAll_pc q holdsQueue rfl, signalAll_side]
  · intro u q'
    rw [signalAll_side]
    by_cases hq : q' = q
    · subst hq
      have hempty : (s.signalAll q').queue q' = [] := update_self ..
      rw [hempty]
      refine iff_of_false List.not_mem_nil ?_
      rintro ⟨hpc, hside⟩
      by_cases hu : u ∈ s.queue q'
      · simp [Pipe.signalAll, hu] at hpc
      · simp only [Pipe.signalAll, hu, ↓reduceIte] at hpc
        exact hu ((h.queue u q').mpr ⟨hpc, hside⟩)
    have hkept : (s.signalAll q).queue q' = s.queue q' := update_of_ne hq ..
    rw [hkept, h.queue]
    by_cases hu : u ∈ s.queue q
    · have hside := ((h.queue u q).mp hu).2
      rw [hside]
      exact iff_of_false (fun hh => hq hh.2.symm) (fun hh => hq hh.2.symm)
    · simp [Pipe.signalAll, hu]
  · intro u hu
    rw [h.signalAll_pc q active rfl] at hu
    rw [signalAll_side]
    exact h.calls u hu

lemma signalAll_tasks_of_ne (h : Locked s) (q : End)
    (ht : (s.tasks t).pc ≠ .asleep) : (s.signalAll q).tasks t = s.tasks t := by
  have hnot : t ∉ s.queue q := fun hmem => ht (h.mem_queue_pc hmem)
  simp [Pipe.signalAll, hnot]

section

variable (h : Locked s) (hm : Moves s s' t pc)

include h hm

lemma buffer_release (hlock : s'.bufferLock = none) (hold : (s.tasks t).pc.holdsBuffer = true)
    (hnew : pc.holdsBuffer = false) :
    Guards s'.bufferLock fun u => (s'.tasks u).pc.holdsBuffer = true := by
  rw [hlock]
  apply h.buffer.release hold
  · rw [hm.pc, hnew]
    exact Bool.false_ne_true
  · intro u hu
    rw [hm.others u hu]

lemma queueLock_update (hlock : s'.queueLock = update s.queueLock (s.side t) lock)
    (hown : Guards lock fun u => (s'.tasks u).pc.holdsQueue = true ∧ s'.side u = s.side t)
    (q : End) :
    Guards (s'.queueLock q) fun u =>
      (s'.tasks u).pc.holdsQueue = true ∧ s'.side u = q := by
  rw [hlock]
  by_cases hq : q = s.side t
  · subst hq
    rw [update_self]
    exact hown
  rw [update_of_ne hq]
  apply (h.queueLock q).keep
  intro u
  rw [hm.side_eq]
  by_cases hu : u = t
  · subst hu
    exact iff_of_false (fun hh => hq hh.2.symm) (fun hh => hq hh.2.symm)
  · rw [hm.others u hu]

lemma queueLock_acquire (hlock : s'.queueLock = update s.queueLock (s.side t) (some t))
    (hfree : s.queueLock (s.side t) = none) (hnew : pc.holdsQueue = true)
    (q : End) : Guards (s'.queueLock q) fun u =>
      (s'.tasks u).pc.holdsQueue = true ∧ s'.side u = q := by
  apply h.queueLock_update hm hlock
  apply (h.queueLock (s.side t)).acquire hfree
  · rw [hm.pc, hm.side]
    exact ⟨hnew, rfl⟩
  · intro u hu
    rw [hm.others u hu, hm.side_eq]

lemma queueLock_release (hlock : s'.queueLock = update s.queueLock (s.side t) none)
    (hold : (s.tasks t).pc.holdsQueue = true) (hnew : pc.holdsQueue = false) (q : End) :
    Guards (s'.queueLock q) fun u =>
      (s'.tasks u).pc.holdsQueue = true ∧ s'.side u = q := by
  apply h.queueLock_update hm hlock
  apply (h.queueLock (s.side t)).release ⟨hold, rfl⟩
  · rintro ⟨hheld, -⟩
    rw [hm.pc, hnew] at hheld
    cases hheld
  · intro u hu
    rw [hm.others u hu, hm.side_eq]

end

lemma finish_inCall : (s.finish t).inCall q = update s.inCall (s.side t)
      ((s.inCall (s.side t)).filter (· ≠ t)) q := rfl

section

variable (h : Locked s)

include h

lemma finish_calls (u : Nat) (hu : ((s.finish t).tasks u).pc.active = true) :
    u ∈ (s.finish t).inCall ((s.finish t).side u) := by
  have hm : Moves s (s.finish t) t .finished := moves_goto rfl
  have hut : u ≠ t := by
    rintro rfl
    rw [hm.pc] at hu
    cases hu
  rw [hm.others u hut] at hu
  have hmem := h.calls u hu
  rw [hm.side_eq]
  by_cases hside : s.side u = s.side t
  · rw [hside] at hmem ⊢
    rw [finish_inCall, update_self]
    exact List.mem_filter.mpr ⟨hmem, by simpa using hut⟩
  · rw [finish_inCall, update_of_ne hside]
    exact hmem

lemma finish_live (q : End) (hq : (s.finish t).inCall q ≠ []) : s.ends q = .live := by
  apply h.live
  intro hnone
  apply hq
  by_cases hside : q = s.side t
  · subst hside
    rw [finish_inCall, update_self, hnone]
    rfl
  · rw [finish_inCall, update_of_ne hside, hnone]

lemma within (hm : Moves s s' t pc)
    (hlocks : s'.bufferLock = s.bufferLock ∧ s'.queueLock = s.queueLock)
    (hlists : s'.queue = s.queue ∧ s'.inCall = s.inCall ∧ s'.ends = s.ends)
    (hholds : pc.holdsBuffer = (s.tasks t).pc.holdsBuffer ∧
      pc.holdsQueue = (s.tasks t).pc.holdsQueue)
    (hactive : (s.tasks t).pc.active = true)
    (hawake : (s.tasks t).pc ≠ .asleep ∧ pc ≠ .asleep) : Locked s' where
  buffer := h.buffer_keep hm hlocks.1 hholds.1
  queueLock := h.queueLock_keep hm hlocks.2 hholds.2
  queue := h.queue_keep hm hlists.1 hawake.1 hawake.2
  calls := h.calls_keep hm hlists.2.1 hactive
  live := h.live_keep hlists.2.1 hlists.2.2

lemma transfer (hpc : (s.tasks t).pc = .transfer) (hm : Moves s s' t pc)
    (hnew : pc = .signal ∨ pc = .check)
    (hlocks : s'.bufferLock = s.bufferLock ∧ s'.queueLock = s.queueLock)
    (hlists : s'.queue = s.queue ∧ s'.inCall = s.inCall ∧ s'.ends = s.ends) : Locked s' := by
  apply h.within hm hlocks hlists
  · rw [hpc]
    rcases hnew with rfl | rfl <;> exact ⟨rfl, rfl⟩
  · rw [hpc]
    rfl
  rw [hpc]
  refine ⟨noConfusion, ?_⟩
  rcases hnew with rfl | rfl <;> exact noConfusion

lemma setEnd (hunused : s.inCall e = []) (closed : Bool) (closing : Closing) : Locked { s with
    isClosed := closed, ends := update s.ends e closing } := by
  refine ⟨h.buffer, h.queueLock, h.queue, h.calls, ?_⟩
  intro q hq
  have hne : q ≠ e := by
    rintro rfl
    exact hq hunused
  exact (update_of_ne hne ..).trans (h.live q hq)

lemma unused (hdropped : s.ends e ≠ .live) : s.inCall e = [] := by
  by_contra hused
  exact hdropped (h.live e hused)

lemma start {side : End} {buf : List UInt8} (idle : (s.tasks t).pc.active = false)
    (live : s.ends side = .live) : Locked
      { s.setTask t { pc := .lockBuffer, call := { side, done := [], buf } }
        with inCall := update s.inCall side (t :: s.inCall side) } := by
  have hothers : ∀ u, u ≠ t → update s.tasks t
      { pc := .lockBuffer, call := { side, done := [], buf } } u =
      s.tasks u := fun u hu => update_of_ne hu ..
  have hself : update s.tasks t
      { pc := .lockBuffer, call := { side, done := [], buf } } t =
      { pc := .lockBuffer, call := { side, done := [], buf } } :=
    update_self ..
  obtain ⟨hbuffer, hqueue, hawake⟩ := of_not_active idle
  refine ⟨?_, ?_, ?_, ?_, ?_⟩
  · apply h.buffer.keep
    intro u
    by_cases hu : u = t
    · rw [hu, hbuffer]
      simp [setTask, holdsBuffer]
    · simp [setTask, hothers u hu]
  · intro q
    apply (h.queueLock q).keep
    intro u
    by_cases hu : u = t
    · rw [hu, hqueue]
      simp [setTask, holdsQueue, false_and]
    · simp [setTask, Pipe.side, hothers u hu]
  · intro u q
    refine (h.queue u q).trans ?_
    by_cases hu : u = t
    · rw [hu]
      simp [setTask, hawake, reduceCtorEq, false_and]
    · simp [setTask, Pipe.side, hothers u hu]
  · intro u hactive
    by_cases hu : u = t
    · simp only [hu, setTask, Pipe.side, hself, update_self]
      exact List.mem_cons_self
    simp only [setTask, Pipe.side, hothers u hu] at hactive ⊢
    have hmem := h.calls u hactive
    by_cases hside : (s.tasks u).call.side = side
    · rw [hside, update_self]
      rw [Pipe.side, hside] at hmem
      exact List.mem_cons_of_mem t hmem
    · rw [update_of_ne hside]
      exact hmem
  intro q hq
  by_cases hside : q = side
  · rw [hside]
    exact live
  · apply h.live
    simpa [update_of_ne hside] using hq

lemma step (hstep : Step s s') : Locked s' := by
  cases hstep with
  | start idle live => exact h.start idle live
  | refuse => exact h
  | @lockBuffer t pc free =>
    have hm : Moves s { s.goto t .transfer with bufferLock := some t } t .transfer := moves_goto rfl
    refine ⟨?_, h.queueLock_keep hm rfl (by rw [pc]; rfl),
      h.queue_keep hm rfl (by rw [pc]; nofun) nofun, h.calls_keep hm rfl (by rw [pc]; rfl), h.live⟩
    apply h.buffer.acquire free
    · rw [hm.pc]
      rfl
    · intro u hu
      rw [hm.others u hu]
  | read split pc side | write pc side =>
    refine h.transfer pc (moves_setTask rfl rfl) ?_ ⟨rfl, rfl⟩ ⟨rfl, rfl, rfl⟩
    exact ite_eq_or_eq ..
  | @signal t pc free =>
    have hawake : (s.tasks t).pc ≠ .asleep := by
      rw [pc]
      exact noConfusion
    have hstays := h.signalAll_tasks_of_ne (s.side t).other hawake
    apply (h.signalAll (s.side t).other).within (moves_goto rfl) ⟨rfl, rfl⟩ ⟨rfl, rfl, rfl⟩
    · rw [hstays, pc]
      exact ⟨rfl, rfl⟩
    · rw [hstays, pc]
      rfl
    · rw [hstays]
      exact ⟨hawake, noConfusion⟩
  | @finish t pc done =>
    have hm : Moves s (s.finish t) t .finished := moves_goto rfl
    exact ⟨h.buffer_release hm rfl (by rw [pc]; rfl) rfl, h.queueLock_keep hm rfl (by rw [pc]; rfl),
      h.queue_keep hm rfl (by rw [pc]; nofun) nofun, h.finish_calls, h.finish_live⟩
  | goOn pc rest opened | commit pc opened =>
    apply h.within (moves_goto rfl) ⟨rfl, rfl⟩ ⟨rfl, rfl, rfl⟩
    · rw [pc]
      exact ⟨rfl, rfl⟩
    · rw [pc]
      rfl
    · rw [pc]
      exact ⟨noConfusion, noConfusion⟩
  | @lockQueue t pc free =>
    have hm : Moves s { s.goto t .recheck with
        queueLock := update s.queueLock (s.side t) (some t) } t
        .recheck := moves_goto rfl
    exact ⟨h.buffer_keep hm rfl (by rw [pc]; rfl), h.queueLock_acquire hm rfl free rfl,
      h.queue_keep hm rfl (by rw [pc]; nofun) nofun, h.calls_keep hm rfl (by rw [pc]; rfl), h.live⟩
  | @giveUp t pc closed =>
    have hm : Moves s { s.finish t with
        queueLock := update s.queueLock (s.side t) none } t
        .finished := moves_goto rfl
    exact ⟨h.buffer_release hm rfl (by rw [pc]; rfl) rfl,
      h.queueLock_release hm rfl (by rw [pc]; rfl) rfl,
      h.queue_keep hm rfl (by rw [pc]; nofun) nofun, h.finish_calls, h.finish_live⟩
  | @dropBuffer t pc =>
    have hm : Moves s { s.goto t .sleep with bufferLock := none } t .sleep := moves_goto rfl
    exact ⟨h.buffer_release hm rfl (by rw [pc]; rfl) rfl, h.queueLock_keep hm rfl (by rw [pc]; rfl),
      h.queue_keep hm rfl (by rw [pc]; nofun) nofun, h.calls_keep hm rfl (by rw [pc]; rfl), h.live⟩
  | @sleep t pc =>
    have hm : Moves s { s.goto t .asleep with
        queue := update s.queue (s.side t) (s.queue (s.side t) ++ [t])
        queueLock := update s.queueLock (s.side t) none } t
        .asleep := moves_goto rfl
    refine ⟨h.buffer_keep hm rfl (by rw [pc]; rfl),
      h.queueLock_release hm rfl (by rw [pc]; rfl) rfl, ?_,
      h.calls_keep hm rfl (by rw [pc]; rfl), h.live⟩
    intro u q
    rw [hm.side_eq]
    have hmem : u ∈ update s.queue (s.side t) (s.queue (s.side t) ++ [t]) q ↔
        u ∈ s.queue q ∨ (u = t ∧ q = s.side t) := by
      by_cases hq : q = s.side t
      · simp [hq]
      · simp [hq]
    refine hmem.trans ?_
    rw [h.queue]
    by_cases hu : u = t
    · rw [hu, hm.pc, pc]
      simp only [reduceCtorEq, false_and, true_and, false_or]
      exact eq_comm
    · rw [hm.others u hu]
      exact or_iff_left fun hh => hu hh.1
  | dropEnd live unused => exact h.setEnd unused s.isClosed .swap
  | closeLate swap closed | close swap opened => exact h.setEnd (h.unused (by rw [swap]; nofun)) _ _
  | signalReaders signal free | signalWriters signal free =>
    exact (h.signalAll _).setEnd (h.unused (by rw [signal]; nofun)) _ _

end
end Locked
end Redwing.Pipes
