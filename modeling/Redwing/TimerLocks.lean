/-
The timer-event lists of the CPUs with the locks of the tasks that sleep on
them.  A tick runs the callbacks, which lock a task, under the lock of its list;
a signal removes the event of a sleeping task under the lock of the task.
-/
import Redwing.LockGraph
import Redwing.SignalAccounting

namespace Redwing.Timer

open Function Proc

structure TimerEventId where
  cpuid : Nat
  id : Nat
deriving DecidableEq

/-- A timer event whose callback wakes up the task `tid`. -/
structure TimerEvent where
  id : TimerEventId
  tid : Nat
  expiredTime : Nat
deriving DecidableEq

inductive Lock
  | list (cpu : Nat)
  | task (tid : Nat)
deriving DecidableEq

/-- Where a thread is: the CPU that runs the task of its number or handles an
interrupt in it, or that switches to it. -/
inductive Pc
  | running
  | sleep (cpu expire : Nat)
  | entered (cpu expire : Nat)
  | adding (cpu expire : Nat)
  | pushing (id : TimerEventId)
  | armed (id : TimerEventId)
  | switching
  | parked
  | picked
  | resumed
  | tick (cpu jiffies : Nat)
  | ticking (cpu jiffies : Nat)
  | callback (cpu jiffies : Nat) (event : TimerEvent)
  | called (cpu jiffies tid : Nat)
  | send (tid : Nat) (flags : Signals.SignalFlags)
  | removing (tid : Nat) (id : TimerEventId)
  | removed (tid : Nat) (id : TimerEventId)
  | waking (tid : Nat)
  | sent (tid : Nat)
deriving DecidableEq

namespace Pc

def waits (c : Nat) : Pc → Option Lock
  | sleep _ _ | picked => some (.task c)
  | adding cpu _ | tick cpu _ => some (.list cpu)
  | callback _ _ event => some (.task event.tid)
  | send tid _ => some (.task tid)
  | removing _ id => some (.list id.cpuid)
  | _ => none

def holds (c : Nat) : Pc → Lock → Prop
  | entered _ _, lock => lock = .task c
  | adding _ _, lock => lock = .task c
  | pushing id, lock => lock = .list id.cpuid ∨ lock = .task c
  | armed _, lock => lock = .task c
  | switching, lock => lock = .task c
  | resumed, lock => lock = .task c
  | ticking cpu _, lock => lock = .list cpu
  | callback cpu _ _, lock => lock = .list cpu
  | called cpu _ tid, lock => lock = .list cpu ∨ lock = .task tid
  | removing tid _, lock => lock = .task tid
  | removed tid id, lock => lock = .list id.cpuid ∨ lock = .task tid
  | waking tid, lock => lock = .task tid
  | sent tid, lock => lock = .task tid
  | _, _ => False

/-- The order in which threads wait: for a task lock alone, for a list, for a
task lock under the lock of a list, for nothing. -/
def rank : Pc → Nat
  | sleep _ _ | picked | send _ _ => 0
  | adding _ _ | tick _ _ | removing _ _ => 1
  | callback _ _ _ => 2
  | _ => 3

/-- The task has put its event into a list and has not come back yet. -/
def asleep : Pc → Bool
  | switching | parked | picked | resumed => true
  | _ => false

/-- A tick or a signal has taken the event of a sleeping task. -/
def takes : Pc → Bool
  | removing _ _ | callback _ _ _ => true
  | _ => false

/-- The task has put its event into a list and has not noted it yet. -/
def arms : Pc → Bool
  | pushing _ | armed _ => true
  | _ => false

def calls (tid : Nat) (id : TimerEventId) : Pc → Bool
  | callback _ _ event => event.tid == tid && event.id == id
  | _ => false

def sends : Pc → Option (Nat × Signals.SignalFlags)
  | send tid flags => some (tid, flags)
  | _ => none

end Pc

def lockUse : LockUse Nat Pc Lock where
  waits := Pc.waits
  holds := Pc.holds

structure Task where
  inner : Signals.Task
  sleepTimerEvent : Option TimerEventId

structure Sys where
  threads : Threads Nat Pc Lock
  tasks : Nat → Task
  lists : Nat → List TimerEvent
  nextId : Nat

inductive Call
  | sleep (cpu expire : Nat)
  | tick (cpu jiffies : Nat)
  | sendSignal (tid : Nat) (flags : Signals.SignalFlags)

/-- A signal set that is empty is not sent. -/
def Call.pc : Call → Pc
  | sleep cpu expire => .sleep cpu expire
  | tick cpu jiffies => .tick cpu jiffies
  | sendSignal tid flags => if flags = 0 then .running else .send tid flags

inductive Action
  | call (c : Nat) (call : Call)
  | advance (c : Nat)
  /-- A tick takes the first event, which has expired, out of its list. -/
  | pop (c : Nat) (event : TimerEvent)
  | proceed (c : Nat) (inner : Signals.Task)

namespace Sys

def setTask (s : Sys) (tid : Nat) (task : Task) : Sys := { s with tasks := update s.tasks tid task }

def setList (s : Sys) (cpu : Nat) (list : List TimerEvent) : Sys :=
  { s with lists := update s.lists cpu list }

section

variable (s : Sys) (c : Nat)

def goto (p : Pc) : Sys := { s with threads := s.threads.goto c p }

def acquire (lock : Lock) (p : Pc) : Option Sys :=
  (s.threads.acquire c lock p).map fun threads => { s with threads := threads }

def release (lock : Lock) (p : Pc) : Sys := { s with threads := s.threads.release c lock p }

def advanceSleep : Pc → Option Sys
  | .sleep cpu expire => s.acquire c (.task c) (.entered cpu expire)
  | .entered cpu expire =>
    if (s.tasks c).inner.isInterruptedBySignal then some (s.release c (.task c) .running)
    else some (s.goto c (.adding cpu expire))
  | .adding cpu expire =>
    let id : TimerEventId := ⟨cpu, s.nextId⟩
    (s.acquire c (.list cpu) (.pushing id)).map fun t =>
      { t.setList cpu (⟨id, c, expire⟩ :: s.lists cpu) with nextId := s.nextId + 1 }
  | .pushing id => some (s.release c (.list id.cpuid) (.armed id))
  | .armed id =>
    some ((s.goto c .switching).setTask c
      { inner := { (s.tasks c).inner with state := .interruptible },
        sleepTimerEvent := some id })
  | .switching => some (s.release c (.task c) .parked)
  | .parked =>
    -- A scheduler takes the task out of the ready queue.
    if (s.tasks c).inner.state = .runable then some (s.goto c .picked)
    else none
  | .picked =>
    (s.acquire c (.task c) .resumed).map (·.setTask c
      { s.tasks c with inner := { (s.tasks c).inner with state := .running } })
  | .resumed =>
    -- The call asserts that the event is gone.
    if (s.tasks c).sleepTimerEvent = none then some (s.release c (.task c) .running)
    else none
  | _ => none

end

def wakeSleeper (task : Task) : Task :=
  if task.sleepTimerEvent = none then task
  else
    { inner := if task.inner.state = .interruptible then task.inner.wakeup
        else task.inner,
      sleepTimerEvent := none }

def advanceTick (s : Sys) (c : Nat) : Pc → Option Sys
  | .tick cpu jiffies => s.acquire c (.list cpu) (.ticking cpu jiffies)
  | .ticking cpu jiffies =>
    if ∀ event ∈ s.lists cpu, jiffies < event.expiredTime then
      some (s.release c (.list cpu) .running)
    else none
  | .callback cpu jiffies event =>
    (s.acquire c (.task event.tid) (.called cpu jiffies event.tid)).map
      (·.setTask event.tid (wakeSleeper (s.tasks event.tid)))
  | .called cpu jiffies tid => some (s.release c (.task tid) (.ticking cpu jiffies))
  | _ => none

def addSignals (task : Task) (flags : Signals.SignalFlags) : Task :=
  { task with inner := { task.inner with signals := task.inner.signals ||| flags } }

def wakesFor (task : Task) (flags : Signals.SignalFlags) : Bool :=
  !task.inner.signalMask.contains flags && task.inner.state.wakesIfInterruptible

def advanceSend (s : Sys) (c : Nat) : Pc → Option Sys
  | .send tid flags =>
    let task := addSignals (s.tasks tid) flags
    if wakesFor (s.tasks tid) flags then
      match (s.tasks tid).sleepTimerEvent with
      | some id =>
        (s.acquire c (.task tid) (.removing tid id)).map
          (·.setTask tid { task with sleepTimerEvent := none })
      | none => (s.acquire c (.task tid) (.waking tid)).map (·.setTask tid task)
    else (s.acquire c (.task tid) (.sent tid)).map (·.setTask tid task)
  | .removing tid id =>
    (s.acquire c (.list id.cpuid) (.removed tid id)).map
      (·.setList id.cpuid ((s.lists id.cpuid).filter (·.id ≠ id)))
  | .removed tid id => some (s.release c (.list id.cpuid) (.waking tid))
  | .waking tid =>
    some ((s.goto c (.sent tid)).setTask tid { s.tasks tid with
      inner := { (s.tasks tid).inner with state := .runable } })
  | .sent tid => some (s.release c (.task tid) .running)
  | _ => none

def step (s : Sys) : Action → Option Sys
  | .call c call =>
    if s.threads.pc c = .running then some (s.goto c call.pc) else none
  | .advance c =>
    ((s.advanceSleep c (s.threads.pc c)).or (s.advanceTick c (s.threads.pc c))).or
      (s.advanceSend c (s.threads.pc c))
  | .pop c event =>
    match s.threads.pc c with
    | .ticking cpu jiffies =>
      if event ∈ s.lists cpu ∧ event.expiredTime ≤ jiffies ∧
          ∀ other ∈ s.lists cpu, event.expiredTime ≤ other.expiredTime then
        some ((s.goto c (.callback cpu jiffies event)).setList cpu ((s.lists cpu).erase event))
      else none
    | _ => none
  | .proceed c inner =>
    if s.threads.pc c = .running ∧ s.threads.owner (.task c) = none ∧ inner.state = .running then
      some (s.setTask c { s.tasks c with inner := inner })
    else none

end Sys

def machine : Machine Sys Action where
  start s := (∀ c, s.threads.pc c = .running) ∧ (∀ l, s.threads.owner l = none) ∧
    (∀ c, (s.tasks c).inner.state = .running ∧
      (s.tasks c).sleepTimerEvent = none) ∧ ∀ cpu, s.lists cpu = []
  step := Sys.step

end Redwing.Timer
