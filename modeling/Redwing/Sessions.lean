/-
Sessions and groups of tasks: the session table, the groups of each session
and their task lists, as `start_with_parent`, `create_session`, `set_tgid`,
the drop of a task and `kill` read and write them.
-/
import Mathlib
import Redwing.SignalAccounting

namespace Redwing.Sessions

open Proc

abbrev Map (β : Type) := AList (fun _ : Nat => β)

/-- `TaskGroup`: the keys of its task map; the values are weak references to
the tasks of these numbers. -/
structure Group where
  leaderTid : Nat
  tasks : List Nat
  nodup : tasks.Nodup

namespace Group

def new (leader : Nat) : Group where
  leaderTid := leader
  tasks := [leader]
  nodup := List.nodup_singleton leader

def addTask (group : Group) (tid : Nat) : Group where
  leaderTid := group.leaderTid
  tasks := group.tasks.insert tid
  nodup := group.nodup.insert

def removeTask (group : Group) (tid : Nat) : Group where
  leaderTid := group.leaderTid
  tasks := group.tasks.erase tid
  nodup := group.nodup.erase tid

def isEmpty (group : Group) : Bool := group.tasks.isEmpty

end Group

structure Session where
  leaderTid : Nat
  groups : Map Group

/-- The fields of a task that are read and written here. -/
structure Task where
  sid : Nat
  tgid : Nat
  inner : Signals.Task

def Task.new (tid : Nat) : Task where
  sid := tid
  tgid := tid
  inner := { Signals.Task.new Signals.Trapframe.zero with state := .initialized }

def Task.isStarted (task : Task) : Bool :=
  task.inner.state != .initialized && task.inner.state != .zombie

namespace Session

def new (leader : Nat) : Session where
  leaderTid := leader
  groups := AList.singleton leader (Group.new leader)

section

variable (session : Session)

def getGroup (tgid : Nat) : Option Group := session.groups.lookup tgid

def setGroup (tgid : Nat) (group : Group) : Session :=
  { session with groups := session.groups.insert tgid group }

def tryAddTask (tgid tid : Nat) : Session :=
  match session.getGroup tgid with
  | some group => session.setGroup tgid (group.addTask tid)
  | none => session

def removeTask (tgid tid : Nat) : Session × Bool :=
  let session :=
    match session.getGroup tgid with
    | some group =>
      let group := group.removeTask tid
      if group.isEmpty then { session with groups := session.groups.erase tgid }
      else session.setGroup tgid group
    | none => session
  (session, session.groups.entries.isEmpty)

/-- `Session::move_task_or_create_grp`; the task's group number is the new one
if it returns without an error. -/
def moveTaskOrCreateGrp (tid tgid newPgid : Nat) : Except SysErrorKind Session :=
  match session.getGroup tgid with
  | none => .error .noSuchProcess
  | some oldGroup =>
    if session.getGroup newPgid = none ∧ newPgid ≠ tid then .error .noSuchProcess
    else if tid ∉ oldGroup.tasks then .error .noSuchProcess
    else
      let session := session.setGroup tgid (oldGroup.removeTask tid)
      match session.getGroup newPgid with
      | some newGroup => .ok (session.setGroup newPgid (newGroup.addTask tid))
      | none => .ok (session.setGroup tid (Group.new tid))

end
end Session

/-- All tasks that have not been dropped, the numbers in `TASKS_TABLE`, and
`SESSIONS`. -/
structure Table where
  tasks : Map Task
  tasksTable : List Nat
  sessions : Map Session
  nextTid : Nat

def maxTasks : Nat := 128

namespace Table

section

variable (s : Table)

def setTask (tid : Nat) (task : Task) : Table := { s with tasks := s.tasks.insert tid task }

def setSession (sid : Nat) (session : Session) : Table :=
  { s with sessions := s.sessions.insert sid session }

def getTaskByTid (tid : Nat) : Except SysErrorKind Task :=
  if tid ∈ s.tasksTable then
    match s.tasks.lookup tid with
    | some task => .ok task
    | none => .error .noSuchProcess
  else .error .noSuchProcess

def getGroup (task : Task) : Except SysErrorKind Group :=
  match s.sessions.lookup task.sid with
  | none => .error .noSuchProcess
  | some session =>
    match session.getGroup task.tgid with
    | none => .error .noSuchProcess
    | some group => .ok group

def tryAddTask (tid : Nat) (task : Task) : Table :=
  match s.sessions.lookup task.sid with
  | some session => s.setSession task.sid (session.tryAddTask task.tgid tid)
  | none => s

def removeTask (tid : Nat) (task : Task) : Table :=
  match s.sessions.lookup task.sid with
  | some session =>
    match session.removeTask task.tgid tid with
    | (_, true) => { s with sessions := s.sessions.erase task.sid }
    | (session, false) => s.setSession task.sid session
  | none => s

def insertSession (tid : Nat) (task : Task) : Table × Except SysErrorKind Unit :=
  match s.sessions.lookup tid with
  | some _ => (s, .error .notPermitted)
  | none =>
    ((s.setSession tid (Session.new tid)).setTask tid
      { task with tgid := tid, sid := tid }, .ok ())

def createSession (tid : Nat) (task : Task) : Table × Except SysErrorKind Unit :=
  match s.sessions.lookup task.sid with
  | some session =>
    match session.getGroup task.tgid with
    | some group =>
      if group.leaderTid = tid then (s, .error .notPermitted)
      else
        (s.setSession task.sid (session.setGroup task.tgid
          (group.removeTask tid))).insertSession tid task
    | none => s.insertSession tid task
  | none => s.insertSession tid task

/-- The checks of `session::set_tgid` and the number of the group that it
moves the task to. -/
def targetGroup (caller : Task) (tid : Nat) (task : Task)
    (newTgid : Nat) : Except SysErrorKind Nat :=
  if task.sid = tid then .error .notPermitted
  else if caller.sid ≠ task.sid then .error .notPermitted
  else if newTgid = 0 then .ok tid
  else
    match s.getTaskByTid newTgid with
    | .error err => .error err
    | .ok leader =>
      if newTgid ≠ tid ∧ leader.sid ≠ task.sid then .error .notPermitted
      else .ok newTgid

def setTgid (caller : Task) (tid : Nat) (task : Task)
    (newTgid : Nat) : Table × Except SysErrorKind Unit :=
  match s.targetGroup caller tid task newTgid with
  | .error err => (s, .error err)
  | .ok tgid =>
    match s.sessions.lookup task.sid with
    | none => (s, .error .notPermitted)
    | some session =>
      match session.moveTaskOrCreateGrp tid task.tgid tgid with
      | .error err => (s, .error err)
      | .ok session =>
        ((s.setSession task.sid session).setTask tid
          { task with tgid := tgid }, .ok ())

def sendSignal (tid : Nat) (flags : Signals.SignalFlags) : Table :=
  match s.tasks.lookup tid with
  | some task => s.setTask tid { task with inner := task.inner.sendSignal flags }
  | none => s

def signalGroup (group : Group) (signal : Signals.Signal) : Table :=
  group.tasks.foldl (fun s tid => s.sendSignal tid signal.toSingalFlags) s

def killGroup (task : Task) (signal : Option Signals.Signal) : Table × Except SysErrorKind Unit :=
  match s.getGroup task with
  | .error err => (s, .error err)
  | .ok group =>
    match signal with
    | none => (s, .ok ())
    | some signal => (s.signalGroup group signal, .ok ())

def kill (caller : Task) (tid : Int)
    (signal : Option Signals.Signal) : Table × Except SysErrorKind Unit :=
  if tid = 0 then s.killGroup caller signal
  else if tid = -1 then (s, .error .unsupported)
  else if tid < -1 then
    match s.getTaskByTid (-tid).toNat with
    | .error err => (s, .error err)
    | .ok grpTask =>
      if caller.sid ≠ grpTask.sid then (s, .error .notPermitted)
      else s.killGroup grpTask signal
  else
    match s.getTaskByTid tid.toNat with
    | .error err => (s, .error err)
    | .ok target =>
      if target.sid ≠ caller.sid then (s, .error .notPermitted)
      else
        match signal with
        | none => (s, .ok ())
        | some signal => (s.sendSignal tid.toNat signal.toSingalFlags, .ok ())

def create : Table := { s.setTask s.nextTid (Task.new s.nextTid) with nextTid := s.nextTid + 1 }

def startWithParent (tid : Nat) (task : Task)
    (parent : Option Task) : Table × Except SysErrorKind Unit :=
  if maxTasks ≤ s.tasksTable.length then (s, .error .tooManyTasks)
  else
    let s := { s with tasksTable := s.tasksTable ++ [tid] }
    match parent with
    | none => (s.setTask tid { task with inner := task.inner.wakeup }, .ok ())
    | some parent =>
      let task := { task with tgid := parent.tgid, sid := parent.sid }
      let s := s.tryAddTask tid task
      (s.setTask tid { task with inner := task.inner.wakeup }, .ok ())

end
end Table

/-- The calls that read or write the tables.  The caller of a system call is a
task that runs. -/
inductive Action
  | create
  | start (tid : Nat) (parent : Option Nat)
  | setSid (tid : Nat)
  | setTgid (caller target newTgid : Nat)
  | kill (caller : Nat) (target : Int) (signal : Option Signals.Signal)
  | proceed (tid : Nat) (inner : Signals.Task)
  | exit (tid : Nat)
  /-- `wait_with_xstatus` takes a zombie out of the task table. -/
  | reap (tid : Nat)
  | drop (tid : Nat)

namespace Table

def running (s : Table) (tid : Nat) : Option Task := (s.tasks.lookup tid).filter Task.isStarted

def target (s : Table) (caller tid : Nat) : Option (Nat × Task) :=
  if tid = 0 then (s.tasks.lookup caller).map (caller, ·)
  else
    match s.getTaskByTid tid with
    | .ok task => some (tid, task)
    | .error _ => none

def step (s : Table) : Action → Option Table
  | .create => some s.create
  | .start tid none =>
    match s.tasks.lookup tid with
    | some task =>
      if task.inner.state = .initialized then some (s.startWithParent tid task none).1
      else none
    | none => none
  | .start tid (some parent) =>
    match s.tasks.lookup tid, s.running parent with
    | some task, some parent =>
      if task.inner.state = .initialized then some (s.startWithParent tid task (some parent)).1
      else none
    | _, _ => none
  | .setSid tid =>
    match s.running tid with
    | some task => some (s.createSession tid task).1
    | none => none
  | .setTgid caller tid newTgid =>
    match s.running caller, s.target caller tid with
    | some caller, some (tid, task) => some (s.setTgid caller tid task newTgid).1
    | some _, none => some s
    | none, _ => none
  | .kill caller tid signal =>
    match s.running caller with
    | some caller => some (s.kill caller tid signal).1
    | none => none
  | .proceed tid inner =>
    match s.running tid with
    | some task =>
      let task := { task with inner := inner }
      if task.isStarted then some (s.setTask tid task) else none
    | none => none
  | .exit tid =>
    match s.running tid with
    | some task =>
      some (s.setTask tid
        { task with inner := { task.inner with state := .zombie } })
    | none => none
  | .reap tid =>
    match s.tasks.lookup tid with
    | some task =>
      if task.inner.state = .zombie then some { s with tasksTable := s.tasksTable.erase tid }
      else none
    | none => none
  | .drop tid =>
    match s.tasks.lookup tid with
    | some task =>
      if tid ∉ s.tasksTable ∧ task.isStarted = false then
        some { s.removeTask tid task with tasks := s.tasks.erase tid }
      else none
    | none => none

def boot : Table where
  tasks := ∅
  tasksTable := []
  sessions := ∅
  nextTid := 6300

end Table

def machine : Machine Table Action where
  start := (· = Table.boot)
  step := Table.step

end Redwing.Sessions
