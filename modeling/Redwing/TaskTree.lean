/-
The task tree under `start_with_parent`, `exit` and `wait`, one step for each
section of code between two acquisitions of task locks.  The scan of `wait`
keeps its own lock over many steps, because it takes the lock of one child
after the other while it holds it.
-/
import Redwing.Machine

namespace Redwing.TaskTree

inductive TaskState
  | initialized
  | running
  | runable
  | waitting
  | zombie
deriving DecidableEq

/-- Where a task stands in `wait_with_xstatus` or `exit`. -/
inductive Pc
  | user
  | waitLoop (qtid : Option Nat)
  /-- In `remove_zombie_child`, own lock held: the cursor stands between the
  visited and the remaining children. -/
  | waitScan (qtid : Option Nat) (seen rest : List Nat) (haveKids : Bool)
  | waitSleep (qtid : Option Nat)
  /-- A zombie child has been unlinked and leaves the task table next. -/
  | waitReap (child : Nat)
  | exitTake
  | exitReparent (rest : List Nat) (containsZombie : Bool)
  /-- In the fold, `child` has been reparented and its state is read next. -/
  | exitCheck (child : Nat) (rest : List Nat) (containsZombie : Bool)
  /-- The fold found a zombie, the init task is woken next. -/
  | exitWakeInit
  | exitReadParent
  /-- There was no parent to upgrade, about to reparent to the init task. -/
  | exitAdopt
  | exitFinish (parentref : Nat)
  /-- The task is a zombie and never runs again. -/
  | exited
deriving DecidableEq

structure Task where
  state : TaskState
  parent : Option Nat
  children : List Nat
  /-- `is_interrupted_by_signal`. -/
  interrupted : Bool
  /-- Removed from `TASKS_TABLE`. -/
  reaped : Bool
  /-- The last strong reference is gone, weak references no longer upgrade. -/
  dropped : Bool
  pc : Pc
deriving DecidableEq

def Task.new : Task where
  state := .initialized
  parent := none
  children := []
  interrupted := false
  reaped := false
  dropped := false
  pc := .user

def Task.locked (task : Task) : Bool :=
  match task.pc with
  | .waitScan _ _ _ _ => true
  | _ => false

abbrev Table := Nat → Task

def Table.set (s : Table) (t : Nat) (task : Task) : Table := fun x => if x = t then task else s x

def initTid : Nat := 6300

/-- The init task has been started without a parent, nothing else exists. -/
def Table.boot : Table :=
  fun t => if t = initTid then { Task.new with state := .runable } else Task.new

def Task.wakeupIfWaiting (task : Task) : Task :=
  if task.state = .waitting then { task with state := .runable } else task

def Table.reparent (s : Table) (child parent : Nat) : Table :=
  let s := s.set parent { s parent with children := (s parent).children ++ [child] }
  s.set child { s child with parent := some parent }

/-- The end of `remove_zombie_child` without a zombie, and what follows in the
loop: return to the caller, or sleep. -/
def Table.waitGiveUp (s : Table) (t : Nat) (qtid : Option Nat) (haveKids : Bool) : Table :=
  if haveKids then s.set t { s t with state := .waitting, pc := .waitSleep qtid }
  else s.set t { s t with pc := .user }

def Table.scanChild (s : Table) (t : Nat) (qtid : Option Nat)
    (seen rest : List Nat) (child : Nat) (haveKids : Bool) : Option Table :=
  if (s child).dropped then
    some (s.set t { s t with children := seen ++ rest, pc := .waitScan qtid seen rest haveKids })
  else if qtid ≠ none ∧ qtid ≠ some child then
    some (s.set t { s t with pc := .waitScan qtid (seen ++ [child]) rest haveKids })
  else if (s child).locked then none
  else if (s child).state ≠ .zombie then
    if qtid ≠ none then some (s.waitGiveUp t qtid true)
    else some (s.set t { s t with pc := .waitScan qtid (seen ++ [child]) rest true })
  else
    some ((s.set child { s child with parent := none }).set t
      { s t with children := seen ++ rest, pc := .waitReap child })

def Table.waitStep (s : Table) (t : Nat) : Option Table :=
  match (s t).pc with
  | .waitLoop qtid =>
    if (s t).interrupted then some (s.set t { s t with pc := .user })
    else some (s.set t { s t with pc := .waitScan qtid [] (s t).children false })
  | .waitScan qtid _ [] haveKids => some (s.waitGiveUp t qtid haveKids)
  | .waitScan qtid seen (child :: rest) haveKids => s.scanChild t qtid seen rest child haveKids
  | .waitSleep qtid =>
    if (s t).interrupted then some (s.set t { s t with pc := .user })
    else some (s.set t { s t with pc := .waitLoop qtid })
  | .waitReap child =>
    some ((s.set child { s child with reaped := true }).set t
      { s t with pc := .user })
  | _ => none

def Table.exitStep (s : Table) (t : Nat) : Option Table :=
  match (s t).pc with
  | .exitTake =>
    some (s.set t { s t with children := [], pc := .exitReparent (s t).children false })
  | .exitReparent [] containsZombie =>
    if containsZombie then some (s.set t { s t with pc := .exitWakeInit })
    else some (s.set t { s t with pc := .exitReadParent })
  | .exitReparent (child :: rest) containsZombie =>
    if (s child).dropped then some (s.set t { s t with pc := .exitReparent rest containsZombie })
    else if (s initTid).locked ∨ (s child).locked then none
    else
      let s := s.reparent child initTid
      some (s.set t { s t with pc := .exitCheck child rest containsZombie })
  | .exitCheck child rest containsZombie =>
    -- `||` does not lock the child once a zombie has been found
    if containsZombie then some (s.set t { s t with pc := .exitReparent rest true })
    else if (s child).locked then none
    else some (s.set t { s t with pc := .exitReparent rest ((s child).state == .zombie) })
  | .exitWakeInit =>
    if (s initTid).locked then none
    else
      let s := s.set initTid (s initTid).wakeupIfWaiting
      some (s.set t { s t with pc := .exitReadParent })
  | .exitReadParent =>
    match (s t).parent with
    | some parent =>
      if (s parent).dropped then some (s.set t { s t with pc := .exitAdopt })
      else some (s.set t { s t with pc := .exitFinish parent })
    | none => some (s.set t { s t with pc := .exitAdopt })
  | .exitAdopt =>
    if (s initTid).locked then none
    else
      let s := s.reparent t initTid
      some (s.set t { s t with pc := .exitFinish initTid })
  | .exitFinish parentref =>
    if (s parentref).locked then none
    else
      let s := s.set t { s t with state := .zombie, pc := .exited }
      some (s.set parentref (s parentref).wakeupIfWaiting)
  | _ => none

inductive Action
  | fork (t child : Nat)
  | startOrphan (child : Nat)
  | wait (t : Nat) (qtid : Option Nat)
  | exit (t : Nat)
  /-- The next section of the function the running task `t` is in. -/
  | advance (t : Nat)
  | signal (t : Nat)
  | handleSignals (t : Nat)
  | dispatch (t : Nat)
  | preempt (t : Nat)
  /-- The last reference to a reaped task goes away. -/
  | drop (t : Nat)
deriving DecidableEq

def Task.atUser (task : Task) : Bool := task.state == .running && task.pc == .user

def Table.step (s : Table) : Action → Option Table
  | .fork t child =>
    if (s t).atUser ∧ (s child).state = .initialized then
      some ((s.set t { s t with children := (s t).children ++ [child] }).set
        child { s child with state := .runable, parent := some t })
    else none
  | .startOrphan child =>
    if (s child).state = .initialized then some (s.set child { s child with state := .runable })
    else none
  | .wait t qtid =>
    if (s t).atUser then some (s.set t { s t with pc := .waitLoop qtid })
    else none
  | .exit t =>
    -- the init task runs `init_main`, which never returns
    if (s t).atUser ∧ t ≠ initTid then some (s.set t { s t with pc := .exitTake })
    else none
  | .advance t =>
    if (s t).state = .running then (s.waitStep t).or (s.exitStep t)
    else none
  | .signal t =>
    if (s t).locked then none
    else some (s.set t { (s t).wakeupIfWaiting with interrupted := true })
  | .handleSignals t =>
    if (s t).atUser then some (s.set t { s t with interrupted := false })
    else none
  | .dispatch t =>
    if (s t).state = .runable then some (s.set t { s t with state := .running })
    else none
  | .preempt t =>
    if (s t).state = .running ∧ (s t).locked = false then
      some (s.set t { s t with state := .runable })
    else none
  | .drop t =>
    if (s t).reaped then some (s.set t { s t with dropped := true })
    else none

def machine : Machine Table Action where
  start s := s = Table.boot
  step := Table.step

def Table.SleepsForAny (s : Table) (t : Nat) : Prop :=
  (s t).state = .waitting ∧ (s t).pc = .waitSleep none

/-- The exiting task `e` still has a wake-up of `t` to perform: it has read
`t` as its parent, or `t` is the init task and the fold over its old children
has met, or is about to meet, a zombie. -/
def Table.PendingWake (s : Table) (e t : Nat) : Prop :=
  match (s e).pc with
  | .exitFinish parentref => parentref = t
  | .exitAdopt => t = initTid
  | .exitReparent _ containsZombie => t = initTid ∧ containsZombie = true
  | .exitCheck child _ containsZombie =>
    t = initTid ∧ (containsZombie = true ∨ (s child).state = .zombie)
  | .exitWakeInit => t = initTid
  | _ => False

def Table.NoLostChild (s : Table) : Prop :=
  ∀ t, s.SleepsForAny t → ∀ child ∈ (s t).children,
    (s child).state = .zombie → ∃ e, s.PendingWake e t

end Redwing.TaskTree
