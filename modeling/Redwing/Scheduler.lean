/-
The scheduler with everything that moves a task between its states: the loop of
`scheduler` on any number of CPUs, the calls that end in `sched`, timer ticks
that preempt kernel code, and the wake-ups of other tasks.  Between any two
accesses to what the CPUs share there is a step.
-/
import Redwing.Machine
import Redwing.Proc
import Mathlib.Data.List.Basic
import Mathlib.Logic.Function.Basic

namespace Redwing.Scheduler

open Function Proc

/-- The calls that end in `sched`. -/
inductive Call
  | yieldNow
  | suspend
  | wait
  | interruptibleWait
  | sleep
  | waitChild
  | exit
deriving DecidableEq

def Call.target : Call → TaskState
  | yieldNow => .runable
  | suspend | interruptibleWait | sleep => .interruptible
  | wait => .blocked
  | waitChild => .waitting
  | exit => .zombie

/-- The calls of a wait queue assert that the task is running. -/
def Call.assertsRunning : Call → Bool
  | wait | interruptibleWait => true
  | _ => false

/-- Where a kernel stack is in such a call.  `tid` is the task that
`current_task` has returned. -/
inductive Pc
  | entry
  | kernel
  /-- `mycpu` has returned the record of a CPU, `current_task` not yet copied
  out of it. -/
  | slot (call : Call) (cpu : Nat)
  | ref (call : Call) (tid : Nat)
  | locked (call : Call) (tid : Nat)
  /-- The state of the task is set, `sched` comes next. -/
  | marked (call : Call) (tid : Nat)
  | switched (call : Call) (tid : Nat)
  | resumed (call : Call) (tid : Nat)
deriving DecidableEq

def Pc.tid? : Pc → Option Nat
  | entry | kernel | slot _ _ => none
  | ref _ tid | locked _ tid | marked _ tid | switched _ tid
  | resumed _ tid => some tid

def Pc.slot? : Pc → Option Nat
  | slot _ cpu => some cpu
  | _ => none

/-- Code without a `lock_irq` guard, where a timer interrupt can come. -/
def Pc.isOpen : Pc → Bool
  | kernel | slot _ _ | ref _ _ => true
  | _ => false

def Pc.resume : Pc → Option Pc
  | entry => some .entry
  | switched call tid => some (.resumed call tid)
  | _ => none

/-- After a guard is dropped: the call is over, or it locks its task again. -/
def Pc.after (call : Call) (tid : Nat) (again : Bool) : Pc :=
  if again then .ref call tid else .kernel

/-- The code that an interrupt handler returns to lies under it on the same
stack. -/
structure Thread where
  pc : Pc
  frames : List Pc
deriving DecidableEq

/-- The fields of a task that scheduling reads.  `context` names the stack whose
registers it holds; `sleepTimerEvent` says whether there is such an event. -/
structure Task where
  state : TaskState
  isLocked : Bool
  context : Nat
  sleepTimerEvent : Bool
deriving DecidableEq

/-- Where the body of the scheduler's loop is with the task it has picked. -/
inductive Stage
  /-- Out of the ready queue, waiting for the task's lock. -/
  | picked
  /-- The lock is taken, the assertion on the state comes next. -/
  | locked
  | task (thread : Nat)
  | back
  | queued
  | cleared
deriving DecidableEq

inductive Run
  | loop
  | busy (tid : Nat) (stage : Stage)
deriving DecidableEq

structure Cpu where
  run : Run
  currentTask : Option Nat
deriving DecidableEq

/-- Code that wakes up a task under its lock, on whatever CPU it runs. -/
inductive Waker
  | idle
  | locked (tid : Nat)
  /-- The task is runable, but not yet in the ready queue. -/
  | woken (tid : Nat)
  | done (tid : Nat)
deriving DecidableEq

inductive WakeUp
  | wakeup
  | wakeupIfInterruptible
  | wakeupIfWaiting
  | signal
  | timer
deriving DecidableEq

def WakeUp.wakes (how : WakeUp) (task : Task) : Bool :=
  match how with
  | wakeup => task.state.wakes
  | wakeupIfInterruptible => task.state.wakesIfInterruptible
  | wakeupIfWaiting => task.state.wakesIfWaiting
  | signal => task.state ≠ .zombie && task.state.wakes
  | timer => task.sleepTimerEvent && task.state == .interruptible

def WakeUp.sleepTimerEvent (how : WakeUp) (task : Task) : Bool :=
  match how with
  | wakeup | wakeupIfWaiting | signal => task.sleepTimerEvent
  | wakeupIfInterruptible => task.sleepTimerEvent && !task.state.wakesIfInterruptible
  | timer => false

structure Sys where
  cpus : Nat → Cpu
  tasks : Nat → Task
  threads : Nat → Thread
  ready : List Nat
  wakers : Nat → Waker

/-- The scheduler's actions, those of the code that a CPU has switched to, and
those of a waker. -/
inductive Action
  | pick (c : Nat) (tid : Nat)
  | lockPicked (c : Nat)
  | dispatch (c : Nat)
  | enqueue (c : Nat)
  | clear (c : Nat)
  | unlock (c : Nat)
  | call (c : Nat) (call : Call)
  | copySlot (c : Nat)
  | lock (c : Nat)
  /-- The guard is dropped before the call sleeps; `again` if the call goes
  round its loop. -/
  | leave (c : Nat) (again : Bool)
  | mark (c : Nat)
  | sched (c : Nat)
  | drop (c : Nat) (again : Bool)
  | entry (c : Nat)
  | tick (c : Nat)
  | tickRet (c : Nat)
  | wakeLock (w : Nat) (tid : Nat)
  | wake (w : Nat) (how : WakeUp)
  | wakeEnqueue (w : Nat)
  | wakeUnlock (w : Nat)
deriving DecidableEq

namespace Sys

section

variable (s : Sys)

def setCpu (c : Nat) (cpu : Cpu) : Sys := { s with cpus := update s.cpus c cpu }

def setRun (c : Nat) (run : Run) : Sys := s.setCpu c { s.cpus c with run := run }

def setTask (tid : Nat) (task : Task) : Sys := { s with tasks := update s.tasks tid task }

def setLocked (tid : Nat) (isLocked : Bool) : Sys :=
  s.setTask tid { s.tasks tid with isLocked := isLocked }

def setThread (thread : Nat) (value : Thread) : Sys :=
  { s with threads := update s.threads thread value }

def setPc (thread : Nat) (pc : Pc) : Sys := s.setThread thread { s.threads thread with pc := pc }

def setReady (ready : List Nat) : Sys := { s with ready := ready }

def setWaker (w : Nat) (waker : Waker) : Sys := { s with wakers := update s.wakers w waker }

def thread? (c : Nat) : Option Nat :=
  match (s.cpus c).run with
  | .busy _ (.task thread) => some thread
  | _ => none

/-- `pick_next_task`: the tree is an ordered multiset, its order is left
open. -/
def pick (c : Nat) (tid : Nat) : Option Sys :=
  if (s.cpus c).run = .loop ∧ tid ∈ s.ready then
    some ((s.setReady (s.ready.erase tid)).setRun c (.busy tid .picked))
  else none

def atStage (c : Nat) (stage : Stage) (next : Nat → Option Sys) : Option Sys :=
  match (s.cpus c).run with
  | .loop => none
  | .busy tid now => if now = stage then next tid else none

def lockPicked (c : Nat) : Option Sys :=
  s.atStage c .picked fun tid =>
    if (s.tasks tid).isLocked then none
    else some ((s.setLocked tid true).setRun c (.busy tid .locked))

/-- From the assertion to `switch`. -/
def dispatch (c : Nat) : Option Sys :=
  s.atStage c .locked fun tid =>
    let task := s.tasks tid
    if task.state = .runable then
      ((s.threads task.context).pc.resume).map fun pc =>
        ((s.setTask tid { task with state := .running }).setPc task.context
          pc).setCpu c ⟨.busy tid (.task task.context), some tid⟩
    else none

def enqueue (c : Nat) : Option Sys :=
  s.atStage c .back fun tid =>
    let ready :=
      if (s.tasks tid).state = .runable then s.ready ++ [tid] else s.ready
    some ((s.setReady ready).setRun c (.busy tid .queued))

def clear (c : Nat) : Option Sys :=
  s.atStage c .queued fun tid => some (s.setCpu c ⟨.busy tid .cleared, none⟩)

def unlock (c : Nat) : Option Sys :=
  s.atStage c .cleared fun tid => some ((s.setLocked tid false).setRun c .loop)

end

/-- The first half of `current_task`: `mycpu()`. -/
def call (s : Sys) (c : Nat) (call : Call) : Option Sys :=
  (s.thread? c).bind fun thread =>
    if (s.threads thread).pc = .kernel then some (s.setPc thread (.slot call c))
    else none

section

variable (s : Sys) (c : Nat)

def copySlot : Option Sys :=
  (s.thread? c).bind fun thread =>
    match (s.threads thread).pc with
    | .slot call cpu =>
      match (s.cpus cpu).currentTask with
      | some tid => some (s.setPc thread (.ref call tid))
      | none => some (s.setPc thread .kernel)
    | _ => none

def lock : Option Sys :=
  (s.thread? c).bind fun thread =>
    match (s.threads thread).pc with
    | .ref call tid =>
      if (s.tasks tid).isLocked then none
      else some ((s.setLocked tid true).setPc thread (.locked call tid))
    | _ => none

def leave (again : Bool) : Option Sys :=
  (s.thread? c).bind fun thread =>
    match (s.threads thread).pc with
    | .locked call tid => some ((s.setLocked tid false).setPc thread (Pc.after call tid again))
    | _ => none

def mark : Option Sys :=
  (s.thread? c).bind fun thread =>
    match (s.threads thread).pc with
    | .locked call tid =>
      let task := s.tasks tid
      if call.assertsRunning = true → task.state = .running then
        some ((s.setTask tid { task with
          state := call.target
          sleepTimerEvent := task.sleepTimerEvent || call = .sleep }).setPc
            thread (.marked call tid))
      else none
    | _ => none

def sched : Option Sys :=
  match (s.cpus c).run with
  | .busy picked (.task thread) =>
    match (s.threads thread).pc with
    | .marked call tid =>
      some (((s.setTask tid { s.tasks tid with context := thread }).setPc
        thread (.switched call tid)).setRun c (.busy picked .back))
    | _ => none
  | _ => none

/-- `exit` does not come back. -/
def drop (again : Bool) : Option Sys :=
  (s.thread? c).bind fun thread =>
    match (s.threads thread).pc with
    | .resumed call tid =>
      if call = .exit then none
      else some ((s.setLocked tid false).setPc thread (Pc.after call tid again))
    | _ => none

def entry : Option Sys :=
  (s.thread? c).bind fun thread =>
    if (s.threads thread).pc = .entry then
      (s.cpus c).currentTask.map fun tid => (s.setLocked tid false).setPc thread .kernel
    else none

/-- A timer interrupt.  What the handler does, with or without a yield, is the
code of the stack until `tickRet`. -/
def tick : Option Sys :=
  (s.thread? c).bind fun thread =>
    let pc := (s.threads thread).pc
    if pc.isOpen then some (s.setThread thread ⟨.kernel, pc :: (s.threads thread).frames⟩)
    else none

def tickRet : Option Sys :=
  (s.thread? c).bind fun thread =>
    match s.threads thread with
    | ⟨.kernel, pc :: frames⟩ => some (s.setThread thread ⟨pc, frames⟩)
    | _ => none

end

section

variable (s : Sys) (w : Nat)

def wakeLock (tid : Nat) : Option Sys :=
  if s.wakers w = .idle ∧ (s.tasks tid).isLocked = false then
    some ((s.setLocked tid true).setWaker w (.locked tid))
  else none

/-- The wake-up decides under the lock; `wakeup_unchecked` sets the state before
it enqueues. -/
def wake (how : WakeUp) : Option Sys :=
  match s.wakers w with
  | .locked tid =>
    let task := { s.tasks tid with sleepTimerEvent := how.sleepTimerEvent (s.tasks tid) }
    if how.wakes (s.tasks tid) then
      some ((s.setTask tid { task with state := .runable }).setWaker w (.woken tid))
    else some ((s.setTask tid task).setWaker w (.done tid))
  | _ => none

def wakeEnqueue : Option Sys :=
  match s.wakers w with
  | .woken tid => some ((s.setReady (s.ready ++ [tid])).setWaker w (.done tid))
  | _ => none

def wakeUnlock : Option Sys :=
  match s.wakers w with
  | .done tid => some ((s.setLocked tid false).setWaker w .idle)
  | _ => none

end

def step (s : Sys) : Action → Option Sys
  | .pick c tid => s.pick c tid
  | .lockPicked c => s.lockPicked c
  | .dispatch c => s.dispatch c
  | .enqueue c => s.enqueue c
  | .clear c => s.clear c
  | .unlock c => s.unlock c
  | .call c k => s.call c k
  | .copySlot c => s.copySlot c
  | .lock c => s.lock c
  | .leave c again => s.leave c again
  | .mark c => s.mark c
  | .sched c => s.sched c
  | .drop c again => s.drop c again
  | .entry c => s.entry c
  | .tick c => s.tick c
  | .tickRet c => s.tickRet c
  | .wakeLock w tid => s.wakeLock w tid
  | .wake w how => s.wake w how
  | .wakeEnqueue w => s.wakeEnqueue w
  | .wakeUnlock w => s.wakeUnlock w

def boot : Sys where
  cpus := fun _ => ⟨.loop, none⟩
  tasks := fun tid => ⟨.initialized, false, tid, false⟩
  threads := fun _ => ⟨.entry, []⟩
  ready := []
  wakers := fun _ => .idle

end Sys

def machine : Machine Sys Action where
  start := fun s => s = Sys.boot
  step := Sys.step

end Redwing.Scheduler
