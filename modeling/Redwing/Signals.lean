/-
The signals of one task: pending and masked signals, the configured actions,
the frame saved for a user handler, and the sections of `handle_signals`
between two acquisitions of the task's lock.
-/
import Mathlib.Data.BitVec
import Redwing.Machine
import Redwing.Proc

namespace Redwing.Signals

open Proc

inductive Signal
  | sigdef
  | sighup
  | sigint
  | sigquit
  | sigill
  | sigabrt
  | sigkill
  | sigsegv
  | sigcont
  | sigstop
  | sigttin
deriving DecidableEq

def Signal.toNat : Signal → Nat
  | sigdef => 0
  | sighup => 1
  | sigint => 2
  | sigquit => 3
  | sigill => 4
  | sigabrt => 6
  | sigkill => 9
  | sigsegv => 11
  | sigcont => 18
  | sigstop => 19
  | sigttin => 21

def Signal.tryFrom : Nat → Option Signal
  | 0 => some sigdef
  | 1 => some sighup
  | 2 => some sigint
  | 3 => some sigquit
  | 4 => some sigill
  | 6 => some sigabrt
  | 9 => some sigkill
  | 11 => some sigsegv
  | 18 => some sigcont
  | 19 => some sigstop
  | 21 => some sigttin
  | _ => none

def maxSig : Nat := 31

abbrev SignalFlags := BitVec 64

def Signal.toSingalFlags (signal : Signal) : SignalFlags := 1#64 <<< signal.toNat

namespace SignalFlags

def all : SignalFlags := 0x2c0a5f#64

def fromBits (bits : BitVec 64) : Option SignalFlags :=
  if bits &&& ~~~all = 0#64 then some bits else none

def contains (flags other : SignalFlags) : Bool := flags &&& other == other

def remove (flags other : SignalFlags) : SignalFlags := flags &&& ~~~other

end SignalFlags

example : ∀ n ∈ List.range (maxSig + 1),
    (SignalFlags.fromBits (1#64 <<< n)).isSome = (Signal.tryFrom n).isSome := by
  decide

/-- The general-purpose registers as the trapframe stores them. -/
structure Regs where
  ra : BitVec 64
  sp : BitVec 64
  gp : BitVec 64
  tp : BitVec 64
  t0 : BitVec 64
  t1 : BitVec 64
  t2 : BitVec 64
  t3 : BitVec 64
  t4 : BitVec 64
  t5 : BitVec 64
  t6 : BitVec 64
  a0 : BitVec 64
  a1 : BitVec 64
  a2 : BitVec 64
  a3 : BitVec 64
  a4 : BitVec 64
  a5 : BitVec 64
  a6 : BitVec 64
  a7 : BitVec 64
  s0 : BitVec 64
  s1 : BitVec 64
  s2 : BitVec 64
  s3 : BitVec 64
  s4 : BitVec 64
  s5 : BitVec 64
  s6 : BitVec 64
  s7 : BitVec 64
  s8 : BitVec 64
  s9 : BitVec 64
  s10 : BitVec 64
  s11 : BitVec 64
deriving DecidableEq

structure Trapframe extends Regs where
  kernelStack : BitVec 64
  hartid : BitVec 64
  sstatus : BitVec 64
  sepc : BitVec 64
deriving DecidableEq

def Trapframe.setRetPc (tf : Trapframe) (retPc : BitVec 64) : Trapframe := { tf with sepc := retPc }

def Trapframe.setArg0 (tf : Trapframe) (val : BitVec 64) : Trapframe := { tf with a0 := val }

structure SignalAction where
  sigHandler : BitVec 64
  mask : SignalFlags
deriving DecidableEq

inductive SignalActionKind
  | terminate
  | stop
  | cont
  | ignored
  | userHandler (action : SignalAction)
deriving DecidableEq

def defaultSignalActions : Signal → SignalActionKind
  | .sigdef => .ignored
  | .sigcont => .cont
  | .sigstop | .sigttin => .stop
  | _ => .terminate

/-- The fields of `TaskInner` that the signal code reads and writes. -/
structure Task where
  state : TaskState
  exitStatus : Int
  isKilled : Bool
  isFrozen : Bool
  signalMask : SignalFlags
  signals : SignalFlags
  signalActions : Signal → SignalActionKind
  trapframeBackup : Option Trapframe
  trapframe : Trapframe

def Task.new (trapframe : Trapframe) : Task where
  state := .runable
  exitStatus := 0
  isKilled := false
  isFrozen := false
  signalMask := 0
  signals := 0
  signalActions := defaultSignalActions
  trapframeBackup := none
  trapframe := trapframe

inductive ProcMaskHow
  | blocked
  | unblocked
  | setmask
deriving DecidableEq

namespace Task

section

variable (task : Task)

def wakeup : Task :=
  if task.state.wakes then { task with state := .runable } else task

def wakeupIfInterruptible : Task :=
  if task.state.wakesIfInterruptible then { task with state := .runable }
  else task

def sendSignal (signal : SignalFlags) : Task :=
  if signal = 0 then task
  else
    let task := { task with signals := task.signals ||| signal }
    if task.signalMask.contains signal then task
    else task.wakeupIfInterruptible

def isInterruptedBySignal : Bool := (task.signals ||| task.signalMask) != task.signalMask

def sigprocmask (how : ProcMaskHow) (mask : SignalFlags) :
    Except SysErrorKind (SignalFlags × Task) :=
  match how with
  | .blocked | .unblocked => .error .unsupported
  | .setmask => .ok (task.signalMask, { task with signalMask := mask })

def sigaction (signum : Signal) (act : SignalAction) :
    Except SysErrorKind (Option SignalAction × Task) :=
  if signum = .sigkill ∨ signum = .sigstop then .error .notPermitted
  else
    let old := match task.signalActions signum with
      | .userHandler act => some act
      | _ => none
    .ok (old, { task with
      signalActions := fun s =>
        if s = signum then .userHandler act else task.signalActions s })

def handleAction (signal : Signal) : SignalActionKind → Task
  | .terminate =>
    { task with
      isKilled := true
      exitStatus := 128 + signal.toNat
      signals := task.signals.remove signal.toSingalFlags }
  | .stop =>
    { task with
      isFrozen := true
      signals := task.signals.remove signal.toSingalFlags }
  | .cont =>
    { task with
      isFrozen := false
      signals := task.signals.remove signal.toSingalFlags }
  | .ignored => { task with signals := task.signals.remove signal.toSingalFlags }
  | .userHandler action =>
    if action.mask.contains signal.toSingalFlags then task
    else
      { task with
        trapframeBackup := some task.trapframe
        trapframe := (task.trapframe.setRetPc action.sigHandler).setArg0
          (BitVec.ofNat 64 signal.toNat)
        signals := task.signals.remove signal.toSingalFlags }

def sigreturn : Except SysErrorKind Task :=
  match task.trapframeBackup with
  | some tf => .ok { task with trapframe := tf, trapframeBackup := none }
  | none => .error .notPermitted

/-- The section of `handle_pending_signals` that looks at one number: the
signal to handle and its action, unless the loop goes on. -/
def examine (n : Nat) : Option (Signal × SignalActionKind) :=
  match SignalFlags.fromBits (1#64 <<< n), Signal.tryFrom n with
  | some flag, some signal =>
    if ¬ task.signals.contains flag ∨ task.signalMask.contains flag then none
    else
      match task.signalActions signal with
      | .userHandler act =>
        if task.trapframeBackup.isSome then none
        else some (signal, .userHandler act)
      | action => some (signal, action)
  | _, _ => none

end
end Task

/-- Where the task stands in `handle_signals`. -/
inductive Pc
  | user
  /-- In `handle_pending_signals`, about to look at the number `n`. -/
  | examine (n : Nat)
  /-- The lock is released, `handle_action` is called next; then the loop goes
  on after the number `n`. -/
  | act (signal : Signal) (action : SignalActionKind) (n : Nat)
  /-- The loop is over, `is_killed` and `is_frozen` are read next. -/
  | check
  | suspended
deriving DecidableEq

def Pc.after (n : Nat) : Pc :=
  if n < maxSig then .examine (n + 1) else .check

structure Target where
  task : Task
  pc : Pc

inductive Action
  | sendSignal (signal : SignalFlags)
  | sigprocmask (how : ProcMaskHow) (mask : SignalFlags)
  | sigaction (signum : Signal) (act : SignalAction)
  | sigreturn
  | trap (frame : Trapframe)
  | handleSignals
  | advance
  | sleep (state : TaskState)
  | wakeup
  | yieldNow
  | dispatch
deriving DecidableEq

namespace Target

def advance (s : Target) : Option Target :=
  match s.pc with
  | .user => none
  | .examine n =>
    match s.task.examine n with
    | none => some { s with pc := .after n }
    | some (signal, action) => some { s with pc := .act signal action n }
  | .act signal action n => some { task := s.task.handleAction signal action, pc := .after n }
  | .check =>
    if s.task.isKilled ∨ ¬ s.task.isFrozen then some { s with pc := .user }
    else some { task := { s.task with state := .interruptible }, pc := .suspended }
  | .suspended => some { s with pc := .examine 0 }

def syscall (s : Target) (task : Task) : Option Target :=
  if s.pc = .user ∧ s.task.state = .running then some { s with task } else none

def step (s : Target) : Action → Option Target
  | .sendSignal signal => some { s with task := s.task.sendSignal signal }
  | .sigprocmask how mask =>
    match s.task.sigprocmask how mask with
    | .ok (_, task) => s.syscall task
    | .error _ => s.syscall s.task
  | .sigaction signum act =>
    match s.task.sigaction signum act with
    | .ok (_, task) => s.syscall task
    | .error _ => s.syscall s.task
  | .sigreturn =>
    match s.task.sigreturn with
    | .ok task => s.syscall task
    | .error _ => s.syscall s.task
  | .trap frame => s.syscall { s.task with trapframe := frame }
  | .handleSignals =>
    if s.pc = .user ∧ s.task.state = .running then some { s with pc := .examine 0 }
    else none
  | .advance => if s.task.state = .running then s.advance else none
  | .sleep state =>
    if state = .blocked ∨ state = .interruptible ∨ state = .waitting then
      s.syscall { s.task with state }
    else none
  | .wakeup => some { s with task := s.task.wakeup }
  | .yieldNow =>
    -- back from `sched` the task still holds its lock
    if s.task.state = .running ∧ s.pc ≠ .suspended then
      some { s with task := { s.task with state := .runable } }
    else none
  | .dispatch =>
    if s.task.state = .runable then some { s with task := { s.task with state := .running } }
    else none

end Target

def machine : Machine Target Action where
  start s := ∃ frame, s = { task := Task.new frame, pc := .user }
  step := Target.step

end Redwing.Signals
