/-
The sleeping mutex, after `sync/sleep.rs` and `sync/wait.rs`.  Its holder and its
wait queue are changed under the spinlock of the queue, the state of a task under
the spinlock of the task; every step below is what a task does up to its next
spinlock.
-/
import Redwing.Guards
import Redwing.Machine

namespace Redwing.SleepMutexes

open Function

/-- Where a task is in `lock`, with the guard, or in `force_unlock`. -/
inductive Pc
  | idle
  /-- In `lock`, about to take the spinlock of the queue. -/
  | enter
  | check
  | acquired
  /-- In `wait`, queued and about to take its own spinlock. -/
  | pushed
  /-- About to set its state to `Blocked` and to release the queue. -/
  | parking
  /-- In `sched`, blocked, until the switch releases its spinlock. -/
  | switching
  | parked
  | ready
  | resumed
  | holding
  /-- In `force_unlock`, about to take the spinlock of the queue. -/
  | unlock
  | clear
  | draining
  | drain (task : Nat)
  | drained (task : Nat)
deriving DecidableEq

structure Sys where
  pc : Nat → Pc
  holder : Option Nat
  queue : List Nat
  queueLock : Option Nat
  taskLock : Nat → Option Nat

def boot : Sys where
  pc := fun _ => .idle
  holder := none
  queue := []
  queueLock := none
  taskLock := fun _ => none

namespace Sys

variable (s : Sys) (t : Nat)

def goto (pc : Pc) : Sys := { s with pc := update s.pc t pc }

def lockQueue (pc : Pc) : Option Sys :=
  if s.queueLock = none then some { s.goto t pc with queueLock := some t }
  else none

def unlockQueue (pc : Pc) : Sys := { s.goto t pc with queueLock := none }

def lockTask (task : Nat) (pc : Pc) : Option Sys :=
  if s.taskLock task = none then
    some { s.goto t pc with taskLock := update s.taskLock task (some t) }
  else none

def unlockTask (task : Nat) (pc : Pc) : Sys :=
  { s.goto t pc with taskLock := update s.taskLock task none }

/-- `wakeup`: a blocked task becomes runnable; on another one an error is
logged. -/
def wakeup : Sys := if s.pc t = .parked then s.goto t .ready else s

/-- The next step of a task.  A spinlock that is taken makes it wait. -/
def step : Option Sys :=
  match s.pc t with
  | .idle => some (s.goto t .enter)
  | .enter => s.lockQueue t .check
  | .check =>
    if s.holder = none then some { s.goto t .acquired with holder := some t }
    else some { s.goto t .pushed with queue := s.queue ++ [t] }
  | .acquired => some (s.unlockQueue t .holding)
  | .pushed => s.lockTask t t .parking
  | .parking => some (s.unlockQueue t .switching)
  | .switching => some (s.unlockTask t t .parked)
  | .parked => none
  | .ready => s.lockTask t t .resumed
  | .resumed => some (s.unlockTask t t .enter)
  | .holding => some (s.goto t .unlock)
  | .unlock => s.lockQueue t .clear
  | .clear => some { s.goto t .draining with holder := none }
  | .draining =>
    match s.queue with
    | [] => some (s.unlockQueue t .idle)
    | task :: rest => some { s.goto t (.drain task) with queue := rest }
  | .drain task => s.lockTask t task (.drained task)
  | .drained task => some ((s.wakeup task).unlockTask t task .draining)

end Sys

/-- An action is the number of the task that makes the next step. -/
def machine : Machine Sys Nat where
  start := fun s => s = boot
  step := Sys.step

/-! ### What is held at a program point -/

namespace Pc

def holdsQueue : Pc → Bool
  | .check | .acquired | .pushed | .parking | .clear | .draining | .drain _
  | .drained _ => true
  | _ => false

def holdsTask (task t : Nat) : Pc → Prop
  | .parking | .switching | .resumed => t = task
  | .drained woken => woken = task
  | _ => False

/-- The task has the mutex: from taking it until `force_unlock` clears the
holder. -/
def owns : Pc → Bool
  | .acquired | .holding | .unlock | .clear => true
  | _ => false

def waiting : Pc → Bool
  | .pushed | .parking | .switching | .parked => true
  | _ => false

def blocked : Pc → Bool
  | .switching | .parked => true
  | _ => false

def wakes : Pc → Bool
  | .draining | .drain _ | .drained _ => true
  | _ => false

def popped : Pc → Option Nat
  | .drain task | .drained task => some task
  | _ => none

end Pc
end Redwing.SleepMutexes
