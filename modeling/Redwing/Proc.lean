/-
What the modules about tasks share: the states of a task with the functions
that wake it up, and the error kinds of the process code.
-/
import Mathlib.Logic.Basic

namespace Redwing.Proc

inductive TaskState
  | initialized
  | running
  | runable
  | blocked
  | interruptible
  | waitting
  | zombie
deriving DecidableEq

/-- The kinds of `SysErrorKind` that the process code reports. -/
inductive SysErrorKind
  | notPermitted
  | noSuchProcess
  | interrupted
  | unsupported
  | tooManyTasks
deriving DecidableEq

namespace TaskState

/-- `TaskInner::wakeup`: whether the task is put into the ready queue.  In the
other states the call only logs an error. -/
def wakes : TaskState → Bool
  | blocked | waitting | initialized | interruptible => true
  | running | runable | zombie => false

def wakesIfInterruptible (state : TaskState) : Bool := state == waitting || state == interruptible

def wakesIfWaiting (state : TaskState) : Bool := state == waitting

lemma wakes_of_wakesIfInterruptible {state : TaskState}
    (h : state.wakesIfInterruptible = true) : state.wakes = true := by
  cases state <;> first | rfl | cases h

lemma wakes_of_wakesIfWaiting {state : TaskState}
    (h : state.wakesIfWaiting = true) : state.wakes = true := by
  cases state <;> first | rfl | cases h

end TaskState
end Redwing.Proc
