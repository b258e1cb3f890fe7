/-
A pipe on several CPUs.  `read` and `write` take the lock of a wait queue by
`lock` and keep it after the buffer, and with it the interrupts, has been
released; `close` takes it by `lock_irq`, which does not wait for its own CPU.
As long as no `lock_irq` meets a lock of its own CPU the pipe is a queue of
bytes.
-/
import Redwing.PipeFifo

namespace Redwing.Pipes

open Function List

/-- A pipe with the `cpuid` of its spinlocks, which say which CPU has taken a
lock that is held. -/
structure Sys where
  pipe : Pipe
  bufferCpu : Nat
  queueCpu : End → Nat

namespace Sys

variable (s : Sys) (cpu : Nat)

/-- `Spinlock::is_held` of the buffer, on a CPU. -/
def heldBuffer : Bool := s.pipe.bufferLock.isSome && s.bufferCpu == cpu

/-- `Spinlock::is_held` of a wait queue, on a CPU. -/
def heldQueue (queue : End) : Bool := (s.pipe.queueLock queue).isSome && s.queueCpu queue == cpu

/-- A step of `read` or `write`.  The buffer is taken by `lock_irq`, which goes
on with a second guard if this CPU holds it already, the queues by `lock`. -/
def stepTask (t split : Nat) : Option Sys :=
  match (s.pipe.tasks t).pc with
  | .lockBuffer =>
    if s.heldBuffer cpu then some { s with pipe := s.pipe.goto t .transfer }
    else (s.pipe.stepTask t split).map fun pipe => { s with pipe, bufferCpu := cpu }
  | .lockQueue =>
    (s.pipe.stepTask t split).map fun pipe =>
      { s with pipe, queueCpu := update s.queueCpu (s.pipe.side t) cpu }
  | _ => (s.pipe.stepTask t split).map fun pipe => { s with pipe }

/-- A step of `PipeState::close`.  If this CPU holds the lock of the queue, the
guard of `lock_irq` is a second one; the lock is free once it has been dropped. -/
def stepClose (e : End) : Option Sys :=
  match s.pipe.ends e with
  | .signal queue =>
    if s.heldQueue cpu queue then
      let freed := { s.pipe with queueLock := update s.pipe.queueLock queue none }
      (freed.stepClose e).map fun pipe => { s with pipe }
    else (s.pipe.stepClose e).map fun pipe => { s with pipe }
  | _ => (s.pipe.stepClose e).map fun pipe => { s with pipe }

/-- The condition on a step: a `lock_irq` does not find its lock held by the CPU
that it runs on. -/
def excludes : Action → Bool
  | .task t _ => !((s.pipe.tasks t).pc == .lockBuffer && s.heldBuffer cpu)
  | .close e =>
    match s.pipe.ends e with
    | .signal queue => !s.heldQueue cpu queue
    | _ => true
  | _ => true

end Sys

/-- An action comes with the CPU that it runs on. -/
def system : Machine Sys (Action × Nat) where
  start s := ∃ size, s.pipe = .withBufferSize size
  step s
    | (.task t split, cpu) => s.stepTask cpu t split
    | (.close e, cpu) => s.stepClose cpu e
    | (.start t side pipeEnd buf, _) =>
      (s.pipe.startCall t side pipeEnd buf).map fun pipe => { s with pipe }
    | (.dropEnd e, _) => (s.pipe.dropEnd e).map fun pipe => { s with pipe }

variable {s s' : Sys} {action : Action} {cpu t split : Nat} {e : End}

lemma step_of_stepTask (hok : s.excludes cpu (.task t split) = true)
    (hstep : s.stepTask cpu t split = some s') : s.pipe.stepTask t split = some s'.pipe := by
  rw [Sys.stepTask] at hstep
  split at hstep
  · rename_i hpc
    have hfree : s.heldBuffer cpu = false := by simpa [Sys.excludes, hpc] using hok
    rw [hfree, if_neg Bool.false_ne_true] at hstep
    obtain ⟨pipe, hpipe, rfl⟩ := Option.map_eq_some_iff.mp hstep
    exact hpipe
  all_goals
    obtain ⟨pipe, hpipe, rfl⟩ := Option.map_eq_some_iff.mp hstep
    exact hpipe

lemma step_of_stepClose (hok : s.excludes cpu (.close e) = true)
    (hstep : s.stepClose cpu e = some s') : s.pipe.stepClose e = some s'.pipe := by
  rw [Sys.stepClose] at hstep
  split at hstep
  · rename_i queue hsignal
    have hfree : s.heldQueue cpu queue = false := by simpa [Sys.excludes, hsignal] using hok
    rw [hfree, if_neg Bool.false_ne_true] at hstep
    obtain ⟨pipe, hpipe, rfl⟩ := Option.map_eq_some_iff.mp hstep
    exact hpipe
  · obtain ⟨pipe, hpipe, rfl⟩ := Option.map_eq_some_iff.mp hstep
    exact hpipe

/-- Under the condition the system does what the pipe with proper locks does. -/
lemma step_of_excludes (hok : s.excludes cpu action = true)
    (hstep : system.step s (action, cpu) = some s') : step s.pipe action = some s'.pipe := by
  cases action with
  | task t split => exact step_of_stepTask hok hstep
  | close e => exact step_of_stepClose hok hstep
  | start | dropEnd =>
    obtain ⟨pipe, hpipe, rfl⟩ := Option.map_eq_some_iff.mp hstep
    exact hpipe

/-- As long as no `lock_irq` meets a lock of its own CPU, the pipe is a queue of
bytes, and its next step is one of the pipe, of which `Fifo` speaks. -/
theorem fifo_of_excluding {s : Sys}
    (h : system.ReachableUnder (fun s a => s.excludes a.2 a.1 = true) s) :
    Fifo s.pipe ∧ ∀ action cpu s', s.excludes cpu action = true →
      system.step s (action, cpu) = some s' → step s.pipe action = some s'.pipe := by
  refine ⟨Fifo.of_reachable ?_, fun _ _ _ hok hstep => step_of_excludes hok hstep⟩
  induction h with
  | start hstart => exact .start hstart
  | step a _ hok hstep ih => exact ih.step a.1 trivial (step_of_excludes hok hstep)

/-- A pipe of the given size on which no lock has been taken yet. -/
def withBufferSize (size : Nat) : Sys where
  pipe := .withBufferSize size
  bufferCpu := 0
  queueCpu := fun _ => 0

/-- A write of three bytes on CPU 0 fills a buffer of two and sleeps; a read on
CPU 1 takes one byte and wakes it up. -/
def handOverTrace : List (Action × Nat) :=
  (.start 0 .write .write [1, 2, 3], 0) :: replicate 8 (.task 0 0, 0) ++
    [(.start 1 .read .read [0], 1), (.task 1 0, 1), (.task 1 1, 1), (.task 1 0, 1), (.task 1 0, 1)]

lemma handOverTrace_run : (system.runUnder (fun s a => s.excludes a.2 a.1 = true)
    (withBufferSize 2) handOverTrace).map (fun s => ((s.pipe.tasks 0).pc, (s.pipe.tasks 1).pc,
      (s.pipe.tasks 1).call.done, s.pipe.buffer, s.pipe.pushed)) =
    some (.lockBuffer, .finished, [1], [2], [1, 2]) := by
  decide +kernel

theorem handOverTrace_fifo : ∃ s, system.Reachable s ∧ s.pipe.pushed = [1, 2] ∧ Fifo s.pipe := by
  obtain ⟨s, hrun, hend⟩ := Option.map_eq_some_iff.mp handOverTrace_run
  simp only [Prod.mk.injEq] at hend
  have hstart : system.ReachableUnder (fun s a => s.excludes a.2 a.1 = true) (withBufferSize 2) :=
    .start ⟨2, rfl⟩
  have hs := hstart.runUnder hrun
  exact ⟨s, hs.mono fun _ _ _ => trivial, hend.2.2.2.2, (fifo_of_excluding hs).1⟩

/-- A reader on CPU 0 finds the pipe empty and open and releases the buffer.
Before it is in the queue, another task on that CPU drops the write end and wakes
up the readers, of whom there are none.  Then the reader sleeps. -/
def lostCloseTrace : List (Action × Nat) :=
  (.start 0 .read .read [0], 0) :: replicate 6 (.task 0 0, 0) ++
    (.dropEnd .write, 0) :: replicate 3 (.close .write, 0) ++ [(.task 0 0, 0)]

theorem lostCloseTrace_sleeps : ∃ s, system.Reachable s ∧ s.pipe.ends .write = .closed ∧
    (s.pipe.tasks 0).pc = .asleep ∧ s.pipe.isClosed = true ∧ ¬ s.pipe.WakePending 0 := by
  obtain ⟨s, hrun, hend⟩ := Option.map_eq_some_iff.mp (show (system.run (withBufferSize 2)
      lostCloseTrace).map (fun s => ((s.pipe.tasks 0).pc, s.pipe.isClosed, s.pipe.ends .read,
        s.pipe.ends .write)) = some (.asleep, true, .live, .closed) by decide +kernel)
  simp only [Prod.mk.injEq] at hend
  obtain ⟨hpc, hclosed, hread, hwrite⟩ := hend
  refine ⟨s, Machine.Reachable.run (.start ⟨2, rfl⟩) hrun, hwrite, hpc, hclosed, ?_⟩
  rintro ⟨-, ⟨p, hp, -⟩ | ⟨e, he⟩⟩
  · cases p with
    | zero =>
      rw [hpc] at hp
      cases hp
    | succ p =>
      -- No step of the trace is one of another task.
      have hidle : (system.run (withBufferSize 2) lostCloseTrace).map
          (fun s => (s.pipe.tasks (p + 1)).pc) = some .idle := rfl
      rw [hrun] at hidle
      cases hp.symm.trans (Option.some.inj hidle)
  · cases e with
    | read =>
      rw [hread] at he
      cases he
    | write =>
      rw [hwrite] at he
      cases he

end Redwing.Pipes
