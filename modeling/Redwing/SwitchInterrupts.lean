/-
The interrupt state around a context switch: the counters of `push_off` and
`pop_off` belong to the CPU, while a task takes its lock on one CPU and drops it
on the CPU that resumed it.
-/
import Redwing.Machine
import Redwing.Cpu
import Mathlib.Logic.Function.Basic

namespace Redwing.Switch

/-- What is remembered about a `lock_irq` of the task's own lock: the enable bit
before the call, and whether no other `lock_irq` guard was held then. -/
structure Guard where
  before : Bool
  sole : Bool
deriving DecidableEq

/-- Where a task is with its own lock. -/
inductive Pc
  | entry
  | kernel
  | locked (guard : Guard)
  | switched (guard : Guard)
  | resumed (guard : Guard)
deriving DecidableEq

def Pc.saved : Pc → Option Guard
  | switched guard => some guard
  | _ => none

/-- Tasks that run none of their code: the scheduler switches to them. -/
def Pc.parked : Pc → Bool
  | entry | switched _ => true
  | _ => false

/-- One while the own lock of the task is among the guards of its CPU. -/
def Pc.own : Pc → Nat
  | kernel => 0
  | _ => 1

/-- What matters of a kernel stack: the `lock_irq` guards of other spinlocks and
the interrupts that are being handled.  An interrupt is taken only when
interrupts are enabled, and they are enabled again when the handler returns. -/
structure Stack where
  nested : Nat
  traps : Nat
deriving DecidableEq

structure Task where
  pc : Pc
  stack : Stack
  isLocked : Bool
deriving DecidableEq

/-- What a CPU executes: the loop of `scheduler`, a task, or the end of the
loop's body, where the scheduler still holds the lock of the task that has
switched out. -/
inductive Run
  | scheduler
  | task (tid : Nat)
  | handBack (tid : Nat)
deriving DecidableEq

def Run.tid? : Run → Option Nat
  | scheduler => none
  | task tid | handBack tid => some tid

/-- A CPU with the stack of its scheduler. -/
structure Hart where
  cpu : Cpu
  run : Run
  stack : Stack
deriving DecidableEq

structure Sys where
  harts : Nat → Hart
  tasks : Nat → Task

/-- Each action names the CPU that acts. -/
inductive Action
  | trap (c : Nat)
  | trapRet (c : Nat)
  | setIntr (c : Nat) (on : Bool)
  | lockIrq (c : Nat)
  | unlock (c : Nat)
  | lockOwn (c : Nat)
  | dropOwn (c : Nat)
  | sched (c : Nat)
  | entry (c : Nat)
  /-- The scheduler locks the task it has picked and switches to it. -/
  | dispatch (c : Nat) (tid : Nat)
  /-- The scheduler drops the guard of the task that came back. -/
  | handBack (c : Nat)
  | idle (c : Nat)
deriving DecidableEq

namespace Sys

section

variable (s : Sys)

def setHart (c : Nat) (hart : Hart) : Sys := { s with harts := Function.update s.harts c hart }

def setTask (tid : Nat) (task : Task) : Sys := { s with tasks := Function.update s.tasks tid task }

def setCpu (c : Nat) (cpu : Cpu) : Sys := s.setHart c { s.harts c with cpu := cpu }

def stack (c : Nat) : Stack :=
  match (s.harts c).run with
  | .task tid => (s.tasks tid).stack
  | _ => (s.harts c).stack

def setStack (c : Nat) (stack : Stack) : Sys :=
  match (s.harts c).run with
  | .task tid => s.setTask tid { s.tasks tid with stack := stack }
  | _ => s.setHart c { s.harts c with stack := stack }

def outside (c : Nat) : Bool :=
  match (s.harts c).run with
  | .scheduler => true
  | .task tid => (s.tasks tid).pc = .kernel
  | .handBack _ => false

/-- Whether a CPU executes code that takes other spinlocks with `lock_irq`. -/
def takesLocks (c : Nat) : Bool :=
  match (s.harts c).run with
  | .scheduler => true
  | .task tid => !(s.tasks tid).pc.parked
  | .handBack _ => false

def trap (c : Nat) : Option Sys :=
  let cpu := (s.harts c).cpu
  let stack := s.stack c
  if cpu.intr then
    some ((s.setStack c { stack with traps := stack.traps + 1 }).setCpu c
      { cpu with intr := false })
  else none

/-- The handler writes `sstatus` back and returns with `sret`. -/
def trapRet (c : Nat) : Option Sys :=
  let cpu := (s.harts c).cpu
  let stack := s.stack c
  if s.outside c ∧ stack.nested = 0 ∧ 0 < stack.traps then
    some ((s.setStack c { stack with traps := stack.traps - 1 }).setCpu c
      { cpu with intr := true })
  else none

def setIntr (c : Nat) (on : Bool) : Option Sys :=
  match (s.harts c).run with
  | .task tid =>
    if (s.tasks tid).pc = .kernel ∧ (s.tasks tid).stack.nested = 0 then
      some (s.setCpu c ((s.harts c).cpu.intrRestore on))
    else none
  | _ => none

def lockIrq (c : Nat) : Option Sys :=
  let stack := s.stack c
  if s.takesLocks c then
    some ((s.setStack c { stack with nested := stack.nested + 1 }).setCpu c (s.harts c).cpu.pushOff)
  else none

def unlock (c : Nat) : Option Sys :=
  let stack := s.stack c
  if 0 < stack.nested then
    some ((s.setStack c { stack with nested := stack.nested - 1 }).setCpu c (s.harts c).cpu.popOff)
  else none

def lockOwn (c : Nat) : Option Sys :=
  let cpu := (s.harts c).cpu
  match (s.harts c).run with
  | .task tid =>
    let task := s.tasks tid
    if task.pc = .kernel ∧ task.isLocked = false then
      let guard := { before := cpu.intr, sole := task.stack.nested = 0 }
      some ((s.setTask tid
        { task with pc := .locked guard, isLocked := true }).setCpu c cpu.pushOff)
    else none
  | _ => none

def dropOwn (c : Nat) : Option Sys :=
  match (s.harts c).run with
  | .task tid =>
    match (s.tasks tid).pc with
    | .locked _ | .resumed _ =>
      some ((s.setTask tid
        { s.tasks tid with pc := .kernel, isLocked := false }).setCpu c (s.harts c).cpu.popOff)
    | _ => none
  | _ => none

def sched (c : Nat) : Option Sys :=
  match (s.harts c).run with
  | .task tid =>
    match (s.tasks tid).pc with
    | .locked guard =>
      if (s.tasks tid).stack.nested = 0 then
        some ((s.setTask tid
          { s.tasks tid with pc := .switched guard }).setHart c
            { s.harts c with run := .handBack tid })
      else none
    | _ => none
  | _ => none

def entry (c : Nat) : Option Sys :=
  match (s.harts c).run with
  | .task tid =>
    if (s.tasks tid).pc = .entry then
      some ((s.setTask tid
        { s.tasks tid with pc := .kernel, isLocked := false }).setCpu c (s.harts c).cpu.popOff)
    else none
  | _ => none

def switchTo (c : Nat) (tid : Nat) (pc : Pc) : Sys :=
  (s.setTask tid { s.tasks tid with pc := pc, isLocked := true }).setHart c
    { s.harts c with cpu := (s.harts c).cpu.pushOff, run := .task tid }

def dispatch (c : Nat) (tid : Nat) : Option Sys :=
  if (s.harts c).run = .scheduler ∧ (s.harts c).stack = ⟨0, 0⟩ ∧ (s.tasks tid).isLocked = false then
    match (s.tasks tid).pc with
    | .entry => some (s.switchTo c tid .entry)
    | .switched guard => some (s.switchTo c tid (.resumed guard))
    | _ => none
  else none

/-- The second half of the loop's body: `drop(tx)`. -/
def handBack (c : Nat) : Option Sys :=
  let hart := s.harts c
  match hart.run with
  | .handBack tid =>
    some ((s.setTask tid { s.tasks tid with isLocked := false }).setHart c
      { hart with cpu := hart.cpu.popOff, run := .scheduler })
  | _ => none

def idle (c : Nat) : Option Sys :=
  let hart := s.harts c
  if hart.run = .scheduler ∧ hart.stack = ⟨0, 0⟩ then some (s.setCpu c (hart.cpu.intrRestore true))
  else none

def step : Action → Option Sys
  | .trap c => s.trap c
  | .trapRet c => s.trapRet c
  | .setIntr c on => s.setIntr c on
  | .lockIrq c => s.lockIrq c
  | .unlock c => s.unlock c
  | .lockOwn c => s.lockOwn c
  | .dropOwn c => s.dropOwn c
  | .sched c => s.sched c
  | .entry c => s.entry c
  | .dispatch c tid => s.dispatch c tid
  | .handBack c => s.handBack c
  | .idle c => s.idle c

end

def boot : Sys where
  harts := fun _ => ⟨⟨true, 0, false⟩, .scheduler, ⟨0, 0⟩⟩
  tasks := fun _ => ⟨.entry, ⟨0, 0⟩, false⟩

end Sys

def machine : Machine Sys Action where
  start := fun s => s = Sys.boot
  step := Sys.step

/-- The task's own lock, or the scheduler's guard of it, among the guards that
the counter of a CPU stands for. -/
def Sys.own (s : Sys) (c : Nat) : Nat :=
  match (s.harts c).run with
  | .scheduler => 0
  | .task tid => (s.tasks tid).pc.own
  | .handBack _ => 1

/-- What holds of one CPU and the task it is busy with. -/
structure HartOk (s : Sys) (c : Nat) : Prop where
  depth : (s.harts c).cpu.depthOff = (s.stack c).nested + s.own c
  off : 0 < (s.harts c).cpu.depthOff → (s.harts c).cpu.intr = false
  locked : ∀ tid, (s.harts c).run.tid? = some tid →
    (s.tasks tid).pc = .kernel ∨ (s.tasks tid).isLocked = true
  quiet : ∀ tid, (s.harts c).run.tid? = some tid → (s.harts c).stack.nested = 0
  restore : ∀ tid guard, (s.harts c).run = .task tid →
    (s.tasks tid).pc = .resumed guard → guard.sole = true → (s.harts c).cpu.intena = guard.before

structure Inv (s : Sys) : Prop where
  hart : ∀ c, HartOk s c
  parked : ∀ tid, (s.tasks tid).pc.parked = true → (s.tasks tid).stack.nested = 0
  unique : ∀ c d tid, (s.harts c).run.tid? = some tid → (s.harts d).run.tid? = some tid → c = d

section

variable {s t : Sys} {cpu : Cpu}

@[simp] lemma setHart_tasks : (s.setHart c hart).tasks = s.tasks := rfl

@[simp] lemma setHart_self : (s.setHart c hart).harts c = hart := by
  simp [Sys.setHart]

lemma setHart_of_ne (h : d ≠ c) : (s.setHart c hart).harts d = s.harts d := by
  simp [Sys.setHart, h]

@[simp] lemma setTask_harts (tid : Nat) (task : Task) :
    (s.setTask tid task).harts = s.harts := rfl

@[simp] lemma setTask_self (tid : Nat) (task : Task) : (s.setTask tid task).tasks tid = task := by
  simp [Sys.setTask]

lemma setTask_of_ne (task : Task) (h : other ≠ tid) :
    (s.setTask tid task).tasks other = s.tasks other := by
  simp [Sys.setTask, h]

@[simp] lemma setCpu_tasks : (s.setCpu c cpu).tasks = s.tasks := rfl

@[simp] lemma setCpu_self : (s.setCpu c cpu).harts c = { s.harts c with cpu := cpu } := by
  simp [Sys.setCpu]

lemma setCpu_of_ne (h : d ≠ c) : (s.setCpu c cpu).harts d = s.harts d := setHart_of_ne h

section

variable (stack : Stack)

lemma setStack_of_ne (h : d ≠ c) : (s.setStack c stack).harts d = s.harts d := by
  unfold Sys.setStack
  split
  · rfl
  · exact setHart_of_ne h

@[simp] lemma setStack_run : ((s.setStack c stack).harts c).run = (s.harts c).run := by
  unfold Sys.setStack
  split <;> simp

@[simp] lemma setStack_pc (tid : Nat) :
    ((s.setStack c stack).tasks tid).pc = (s.tasks tid).pc := by
  unfold Sys.setStack
  split
  · rename_i busy _
    by_cases h : tid = busy
    · subst h
      simp
    · rw [setTask_of_ne _ h]
  · rfl

@[simp] lemma setStack_isLocked (tid : Nat) :
    ((s.setStack c stack).tasks tid).isLocked = (s.tasks tid).isLocked := by
  unfold Sys.setStack
  split
  · rename_i busy _
    by_cases h : tid = busy
    · subst h
      simp
    · rw [setTask_of_ne _ h]
  · rfl

lemma setStack_tasks_of_ne (h : (s.harts c).run.tid? ≠ some tid) :
    (s.setStack c stack).tasks tid = s.tasks tid := by
  unfold Sys.setStack
  split
  · rename_i busy hrun
    have hne : tid ≠ busy := by
      intro heq
      rw [hrun, heq] at h
      exact h rfl
    exact setTask_of_ne _ hne
  · rfl

end

lemma stack_eq_of_task (h : (s.harts c).run = .task tid) : s.stack c = (s.tasks tid).stack := by
  simp [Sys.stack, h]

lemma stack_setStack (stack : Stack) : ((s.setStack c stack).setCpu c cpu).stack c = stack := by
  cases h : (s.harts c).run <;> simp [Sys.stack, Sys.setStack, h]

lemma setStack_stack : s.setStack c (s.stack c) = s := by
  unfold Sys.setStack Sys.stack
  split <;> simp [Sys.setTask, Sys.setHart, *]

end

lemma HartOk.congr (hok : HartOk s d) (hhart : t.harts d = s.harts d)
    (htask : ∀ tid, (s.harts d).run.tid? = some tid → t.tasks tid = s.tasks tid) : HartOk t d := by
  have hstack : t.stack d = s.stack d := by
    cases hrun : (s.harts d).run with
    | task tid =>
      rw [stack_eq_of_task hrun, stack_eq_of_task (hhart ▸ hrun), htask tid (by rw [hrun]; rfl)]
    | scheduler | handBack => simp only [Sys.stack, hhart, hrun]
  have hown : t.own d = s.own d := by
    cases hrun : (s.harts d).run with
    | task tid =>
      have hsame := htask tid (by rw [hrun]; rfl)
      simp [Sys.own, hhart, hrun, hsame]
    | scheduler | handBack => simp only [Sys.own, hhart, hrun]
  constructor
  · rw [hhart, hstack, hown]
    exact hok.depth
  · rw [hhart]
    exact hok.off
  · intro tid htid
    rw [hhart] at htid
    rw [htask tid htid]
    exact hok.locked tid htid
  · intro tid htid
    rw [hhart] at htid ⊢
    exact hok.quiet tid htid
  intro tid guard hrun hpc hsole
  rw [hhart] at hrun
  rw [htask tid (by rw [hrun]; rfl)] at hpc
  rw [hhart]
  exact hok.restore tid guard hrun hpc hsole

lemma Inv.update (hinv : Inv s) (hharts : ∀ d, d ≠ c → t.harts d = s.harts d)
    (htasks : ∀ d tid, d ≠ c → (s.harts d).run.tid? = some tid → t.tasks tid = s.tasks tid)
    (hnew : ∀ d tid, d ≠ c → (t.harts c).run.tid? = some tid → (s.harts d).run.tid? ≠ some tid)
    (hparked : ∀ tid, t.tasks tid ≠ s.tasks tid →
      (t.tasks tid).pc.parked = true → (t.tasks tid).stack.nested = 0)
    (hok : HartOk t c) : Inv t := by
  constructor
  · intro d
    by_cases hd : d = c
    · rw [hd]
      exact hok
    · exact (hinv.hart d).congr (hharts d hd) (fun tid => htasks d tid hd)
  · intro tid hpc
    by_cases hsame : t.tasks tid = s.tasks tid
    · rw [hsame] at hpc ⊢
      exact hinv.parked tid hpc
    · exact hparked tid hsame hpc
  intro d e tid hdtid hetid
  by_cases hd : d = c
  · by_cases he : e = c
    · rw [hd, he]
    · rw [hd] at hdtid
      rw [hharts e he] at hetid
      exact absurd hetid (hnew e tid he hdtid)
  rw [hharts d hd] at hdtid
  by_cases he : e = c
  · rw [he] at hetid
    exact absurd hdtid (hnew d tid hd hetid)
  · rw [hharts e he] at hetid
    exact hinv.unique d e tid hdtid hetid

lemma Inv.stay (hinv : Inv s) (hharts : ∀ d, d ≠ c → t.harts d = s.harts d)
    (htasks : ∀ tid, (s.harts c).run.tid? ≠ some tid → t.tasks tid = s.tasks tid)
    (hrun : ∀ tid, (t.harts c).run.tid? = some tid → (s.harts c).run.tid? = some tid)
    (hparked : ∀ tid, t.tasks tid ≠ s.tasks tid →
      (t.tasks tid).pc.parked = true → (t.tasks tid).stack.nested = 0)
    (hok : HartOk t c) : Inv t := by
  apply hinv.update hharts _ _ hparked hok
  · intro d tid hd hdtid
    apply htasks
    intro hctid
    exact hd (hinv.unique d c tid hdtid hctid)
  · intro d tid hd hctid hdtid
    exact hd (hinv.unique d c tid hdtid (hrun tid hctid))

lemma Inv.setStack_setCpu {s : Sys} {c : Nat} {stack : Stack} {cpu : Cpu}
    (hinv : Inv s) (hdepth : cpu.depthOff = stack.nested + s.own c)
    (hback : ∀ tid, (s.harts c).run = .handBack tid → stack.nested = 0)
    (hparked : ∀ tid, (s.harts c).run = .task tid →
      (s.tasks tid).pc.parked = true → stack.nested = 0)
    (hoff : 0 < cpu.depthOff → cpu.intr = false)
    (hintena : s.own c = 1 → cpu.intena = (s.harts c).cpu.intena) :
    Inv ((s.setStack c stack).setCpu c cpu) := by
  apply hinv.stay
  · intro d hd
    rw [setCpu_of_ne hd, setStack_of_ne _ hd]
  · intro tid htid
    rw [setCpu_tasks, setStack_tasks_of_ne _ htid]
  · intro tid htid
    simpa using htid
  · intro tid hne hpc
    rw [setCpu_tasks] at hne hpc ⊢
    rw [setStack_pc] at hpc
    cases hrun : (s.harts c).run with
    | task busy =>
      by_cases htid : tid = busy
      · subst htid
        simpa [Sys.setStack, hrun] using hparked tid hrun hpc
      · simp [Sys.setStack, hrun, setTask_of_ne _ htid] at hne
    | scheduler | handBack => simp [Sys.setStack, hrun] at hne
  constructor
  · rw [stack_setStack]
    cases hrun : (s.harts c).run <;>
      simpa [Sys.own, hrun] using hdepth
  · simpa using hoff
  · intro tid htid
    have hlocked := (hinv.hart c).locked tid (by simpa using htid)
    simpa using hlocked
  · intro tid htid
    simp only [setCpu_self, setStack_run] at htid ⊢
    have hquiet := (hinv.hart c).quiet tid htid
    cases hrun : (s.harts c).run with
    | scheduler => simp [hrun, Run.tid?] at htid
    | task other => simpa [Sys.setStack, hrun] using hquiet
    | handBack other => simpa [Sys.setStack, hrun] using hback other hrun
  · intro tid guard hrun hpc hsole
    simp only [setCpu_self, setStack_run] at hrun
    simp only [setCpu_tasks, setStack_pc] at hpc
    have hown : s.own c = 1 := by simp [Sys.own, hrun, hpc, Pc.own]
    rw [setCpu_self]
    exact (hintena hown).trans ((hinv.hart c).restore tid guard hrun hpc hsole)

lemma Inv.setIntr_outside (hinv : Inv s) (hown : s.own c = 0) (hnested : (s.stack c).nested = 0) :
    Inv (s.setCpu c ((s.harts c).cpu.intrRestore on)) := by
  have hdepth := (hinv.hart c).depth
  rw [← setStack_stack (s := s) (c := c)]
  apply hinv.setStack_setCpu
  · rw [setStack_stack]
    exact hdepth
  · intro _ _
    exact hnested
  · intro _ _ _
    exact hnested
  · intro hpos
    rw [setStack_stack] at hpos
    simp only [Cpu.intrRestore] at hpos
    omega
  · intro hone
    omega

lemma Inv.setTask_setHart {s : Sys} {c tid : Nat} {task : Task} {hart : Hart} (hinv : Inv s)
    (hrun : (s.harts c).run = .task tid) (hrun' : hart.run.tid? = some tid)
    (hstack : hart.stack = (s.harts c).stack)
    (hdepth : hart.cpu.depthOff = task.stack.nested + task.pc.own)
    (hback : hart.run = .handBack tid → hart.cpu.depthOff = 1)
    (hoff : 0 < hart.cpu.depthOff → hart.cpu.intr = false)
    (hlocked : task.pc = .kernel ∨ task.isLocked = true)
    (hresumed : ∀ guard, task.pc ≠ .resumed guard)
    (hparked : task.pc.parked = true → task.stack.nested = 0) :
    Inv ((s.setTask tid task).setHart c hart) := by
  apply hinv.stay
  · intro d hd
    rw [setHart_of_ne hd, setTask_harts]
  · intro other hother
    rw [hrun] at hother
    have hne : other ≠ tid := fun heq => hother (by rw [heq]; rfl)
    rw [setHart_tasks, setTask_of_ne _ hne]
  · intro other hother
    rw [setHart_self, hrun'] at hother
    rw [hrun]
    exact hother
  · intro other hne hpc
    rw [setHart_tasks] at hne hpc ⊢
    by_cases htid : other = tid
    · subst htid
      rw [setTask_self] at hpc ⊢
      exact hparked hpc
    · exact absurd (setTask_of_ne task htid) hne
  have hquiet : hart.stack.nested = 0 := by
    rw [hstack]
    exact (hinv.hart c).quiet tid (by rw [hrun]; rfl)
  constructor
  · cases hnext : hart.run with
    | scheduler =>
      rw [hnext] at hrun'
      cases hrun'
    | task other =>
      rw [hnext] at hrun'
      cases hrun'
      simpa [Sys.stack, Sys.own, hnext] using hdepth
    | handBack other =>
      rw [hnext] at hrun'
      cases hrun'
      simp [Sys.stack, Sys.own, hnext, hquiet, hback hnext]
  · simpa using hoff
  · intro other hother
    rw [setHart_self, hrun'] at hother
    cases hother
    simpa using hlocked
  · intro other _
    simpa using hquiet
  intro other guard hnext hpc
  rw [setHart_self] at hnext
  rw [hnext] at hrun'
  cases hrun'
  simp only [setHart_tasks, setTask_self] at hpc
  exact absurd hpc (hresumed guard)

section

variable {s t : Sys}

section

variable (hinv : Inv s)

include hinv

lemma Inv.trap (h : s.trap c = some t) : Inv t := by
  obtain ⟨hintr, rfl⟩ := Option.ite_some_none_eq_some.mp h
  have hok := hinv.hart c
  -- Interrupts are on, so no guard is held.
  have hzero : (s.harts c).cpu.depthOff = 0 := by
    rcases Nat.eq_zero_or_pos (s.harts c).cpu.depthOff with h | h
    · exact h
    · rw [hok.off h] at hintr
      cases hintr
  have hdepth := hok.depth
  rw [hzero] at hdepth
  apply hinv.setStack_setCpu
  · exact hok.depth
  · intro _ _
    simp only
    omega
  · intro _ _ _
    simp only
    omega
  · intro _
    rfl
  · intro _
    rfl

lemma Inv.trapRet (h : s.trapRet c = some t) : Inv t := by
  obtain ⟨hret, rfl⟩ := Option.ite_some_none_eq_some.mp h
  obtain ⟨houtside, hnested, _⟩ := hret
  have hok := hinv.hart c
  have hown : s.own c = 0 := by
    simp only [Sys.outside] at houtside
    simp only [Sys.own]
    split at houtside
    · rfl
    · simp only [decide_eq_true_eq] at houtside
      simp [houtside, Pc.own]
    · cases houtside
  have hdepth := hok.depth
  apply hinv.setStack_setCpu
  · exact hok.depth
  · intro _ _
    exact hnested
  · intro _ _ _
    exact hnested
  · intro hpos
    simp only at hpos
    omega
  · intro hone
    omega

lemma Inv.lockIrq (h : s.lockIrq c = some t) : Inv t := by
  have hok := hinv.hart c
  obtain ⟨htakes, rfl⟩ := Option.ite_some_none_eq_some.mp h
  have hdepth := hok.depth
  apply hinv.setStack_setCpu
  · simp only [Cpu.pushOff_depthOff]
    omega
  · intro tid hback
    simp [Sys.takesLocks, hback] at htakes
  · intro tid hrun hpc
    simp [Sys.takesLocks, hrun, hpc] at htakes
  · intro _
    exact Cpu.pushOff_intr
  · intro hown
    exact Cpu.pushOff_intena (by omega)

lemma Inv.unlock (h : s.unlock c = some t) : Inv t := by
  have hok := hinv.hart c
  obtain ⟨hnested, rfl⟩ := Option.ite_some_none_eq_some.mp h
  have hdepth := hok.depth
  apply hinv.setStack_setCpu
  · simp only [Cpu.popOff_depthOff]
    omega
  · intro tid hback
    have hquiet := hok.quiet tid (by rw [hback]; rfl)
    simp only [Sys.stack, hback] at hnested
    omega
  · intro tid hrun hpc
    have hparked := hinv.parked tid hpc
    simp only [Sys.stack, hrun] at hnested
    omega
  · exact Cpu.popOff_off hok.off
  · intro _
    exact Cpu.popOff_intena

lemma Inv.setIntr (h : s.setIntr c on = some t) : Inv t := by
  simp only [Sys.setIntr] at h
  split at h
  · rename_i tid hrun
    obtain ⟨hkernel, rfl⟩ := Option.ite_some_none_eq_some.mp h
    apply hinv.setIntr_outside
    · simp [Sys.own, hrun, hkernel.1, Pc.own]
    · rw [stack_eq_of_task hrun]
      exact hkernel.2
  · cases h

lemma Inv.idle (h : s.idle c = some t) : Inv t := by
  obtain ⟨hidle, rfl⟩ := Option.ite_some_none_eq_some.mp h
  apply hinv.setIntr_outside
  · simp [Sys.own, hidle.1]
  · simp [Sys.stack, hidle.1, hidle.2]

lemma Inv.lockOwn (h : s.lockOwn c = some t) : Inv t := by
  have hok := hinv.hart c
  simp only [Sys.lockOwn] at h
  split at h
  · rename_i tid hrun
    obtain ⟨hfree, rfl⟩ := Option.ite_some_none_eq_some.mp h
    have hdepth := hok.depth
    simp only [stack_eq_of_task hrun, Sys.own, hrun, hfree.1, Pc.own] at hdepth
    apply hinv.setTask_setHart hrun
    · exact congrArg Run.tid? hrun
    · rfl
    · simp [hdepth, Pc.own]
    · intro hback
      exact absurd (hrun.symm.trans hback) (by simp)
    · intro _
      exact Cpu.pushOff_intr
    · exact .inr rfl
    · intro guard
      simp
    · intro hpc
      cases hpc
  · cases h

lemma Inv.unlockOwn (hrun : (s.harts c).run = .task tid) (hown : (s.tasks tid).pc.own = 1) :
    Inv ((s.setTask tid
      { s.tasks tid with pc := .kernel, isLocked := false }).setCpu c (s.harts c).cpu.popOff) := by
  have hok := hinv.hart c
  have hdepth := hok.depth
  simp only [stack_eq_of_task hrun, Sys.own, hrun, hown] at hdepth
  apply hinv.setTask_setHart hrun
  · exact congrArg Run.tid? hrun
  · rfl
  · simp [hdepth, Pc.own]
  · intro hback
    exact absurd (hrun.symm.trans hback) (by simp)
  · exact Cpu.popOff_off hok.off
  · exact .inl rfl
  · intro guard
    simp
  · intro hpc
    cases hpc

lemma Inv.dropOwn (h : s.dropOwn c = some t) : Inv t := by
  simp only [Sys.dropOwn] at h
  split at h
  · rename_i tid hrun
    split at h
    · rename_i hpc
      cases h
      exact hinv.unlockOwn hrun (by simp [hpc, Pc.own])
    · rename_i hpc
      cases h
      exact hinv.unlockOwn hrun (by simp [hpc, Pc.own])
    · cases h
  · cases h

lemma Inv.entry (h : s.entry c = some t) : Inv t := by
  simp only [Sys.entry] at h
  split at h
  · rename_i tid hrun
    split at h
    · rename_i hpc
      cases h
      exact hinv.unlockOwn hrun (by simp [hpc, Pc.own])
    · cases h
  · cases h

lemma Inv.sched (h : s.sched c = some t) : Inv t := by
  have hok := hinv.hart c
  simp only [Sys.sched] at h
  split at h
  · rename_i tid hrun
    split at h
    · rename_i guard hpc
      obtain ⟨hnested, rfl⟩ := Option.ite_some_none_eq_some.mp h
      have hdepth := hok.depth
      simp only [stack_eq_of_task hrun, Sys.own, hrun, hpc, hnested, Pc.own] at hdepth
      have hlocked := hok.locked tid (by rw [hrun]; rfl)
      apply hinv.setTask_setHart hrun
      · rfl
      · rfl
      · simp [hdepth, hnested, Pc.own]
      · intro _
        exact hdepth
      · exact hok.off
      · exact .inr (hlocked.resolve_left (by simp [hpc]))
      · intro other
        simp
      · intro _
        exact hnested
    · cases h
  · cases h

lemma Inv.handBack (h : s.handBack c = some t) : Inv t := by
  have hok := hinv.hart c
  simp only [Sys.handBack] at h
  split at h
  · rename_i tid hrun
    cases h
    have hdepth := hok.depth
    have hquiet := hok.quiet tid (by rw [hrun]; rfl)
    simp only [Sys.stack, Sys.own, hrun, hquiet] at hdepth
    apply hinv.stay
    · intro d hd
      rw [setHart_of_ne hd, setTask_harts]
    · intro other hother
      rw [hrun] at hother
      have hne : other ≠ tid := fun heq => hother (by rw [heq]; rfl)
      rw [setHart_tasks, setTask_of_ne _ hne]
    · intro other hother
      simp [Run.tid?] at hother
    · intro other hne hpc
      rw [setHart_tasks] at hne hpc ⊢
      by_cases htid : other = tid
      · subst htid
        rw [setTask_self] at hpc ⊢
        exact hinv.parked other hpc
      · exact absurd (setTask_of_ne _ htid) hne
    constructor
    · simp [Sys.stack, Sys.own, hquiet, hdepth]
    · simpa using Cpu.popOff_off hok.off
    · intro other hother
      simp [Run.tid?] at hother
    · intro other hother
      simp [Run.tid?] at hother
    · intro other guard hother
      simp at hother
  · cases h

lemma Inv.switchTo (hsched : (s.harts c).run = .scheduler) (hstack : (s.harts c).stack = ⟨0, 0⟩)
    (hfree : (s.tasks tid).isLocked = false)
    (hparked : (s.tasks tid).pc.parked = true) (hown : pc.own = 1)
    (hresumed : ∀ guard, pc = .resumed guard → guard.sole = true →
      (s.harts c).cpu.intr = guard.before) :
    Inv (s.switchTo c tid pc) := by
  have hdepth := (hinv.hart c).depth
  simp only [Sys.stack, Sys.own, hsched, hstack] at hdepth
  have hnested := hinv.parked tid hparked
  have hidle : ∀ d, (s.harts d).run.tid? ≠ some tid := by
    intro d hd
    rcases (hinv.hart d).locked tid hd with h | h
    · rw [h] at hparked
      cases hparked
    · rw [hfree] at h
      cases h
  apply hinv.update
  · intro d hd
    rw [Sys.switchTo, setHart_of_ne hd, setTask_harts]
  · intro d other hd hother
    have hne : other ≠ tid := fun heq => hidle d (heq ▸ hother)
    rw [Sys.switchTo, setHart_tasks, setTask_of_ne _ hne]
  · intro d other hd hother
    simp only [Sys.switchTo, setHart_self, Run.tid?, Option.some.injEq] at hother
    rw [← hother]
    exact hidle d
  · intro other hne _
    by_cases htid : other = tid
    · subst htid
      simpa [Sys.switchTo] using hnested
    · exact absurd (setTask_of_ne _ htid) hne
  constructor
  · simp [Sys.switchTo, Sys.stack, Sys.own, hown, hnested, hdepth]
  · intro _
    simp [Sys.switchTo]
  · intro other hother
    simp only [Sys.switchTo, setHart_self, Run.tid?, Option.some.injEq] at hother
    rw [← hother]
    simp [Sys.switchTo]
  · intro other _
    simp [Sys.switchTo, hstack]
  · intro other guard hother hpc hsole
    simp only [Sys.switchTo, setHart_self, Run.task.injEq] at hother
    subst hother
    simp only [Sys.switchTo, setHart_tasks, setTask_self] at hpc
    simp only [Sys.switchTo, setHart_self]
    rw [Cpu.pushOff_intena_of_outermost hdepth]
    exact hresumed guard hpc hsole

end
end

/-- The scheduler locks a task that switched out with its own lock as its only
guard while interrupts on the CPU are as they were before the task took it. -/
def keepsIntr (s : Sys) : Action → Prop
  | .dispatch c tid =>
    ∀ guard ∈ (s.tasks tid).pc.saved, guard.sole = true → (s.harts c).cpu.intr = guard.before
  | _ => True

instance (s : Sys) : (action : Action) → Decidable (keepsIntr s action)
  | .dispatch c tid =>
    inferInstanceAs (Decidable (∀ guard ∈ (s.tasks tid).pc.saved,
      guard.sole = true → (s.harts c).cpu.intr = guard.before))
  | .trap _ | .trapRet _ | .setIntr _ _ | .lockIrq _ | .unlock _ | .lockOwn _
  | .dropOwn _ | .sched _ | .entry _ | .handBack _ | .idle _ => isTrue trivial

lemma Inv.dispatch (hinv : Inv s) (hok : keepsIntr s (.dispatch c tid))
    (h : s.dispatch c tid = some t) : Inv t := by
  simp only [Sys.dispatch] at h
  split at h
  · rename_i hready
    obtain ⟨hsched, hstack, hfree⟩ := hready
    split at h
    · rename_i hpc
      cases h
      apply hinv.switchTo hsched hstack hfree
      · rw [hpc]
        rfl
      · rfl
      · intro guard hguard
        cases hguard
    · rename_i guard hpc
      cases h
      apply hinv.switchTo hsched hstack hfree
      · rw [hpc]
        rfl
      · rfl
      intro other hother hsole
      cases hother
      exact hok guard (by rw [hpc]; rfl) hsole
    · cases h
  · cases h

lemma Inv.boot : Inv Sys.boot := by
  constructor
  · intro c
    constructor
    · rfl
    · intro hpos
      cases hpos
    · intro tid htid
      cases htid
    · intro tid htid
      cases htid
    · intro tid guard hrun
      cases hrun
  · intro tid _
    rfl
  · intro c d tid htid
    cases htid

lemma Inv.step (hinv : Inv s) (hok : keepsIntr s action) (h : s.step action = some t) : Inv t := by
  cases action with
  | trap c => exact hinv.trap h
  | trapRet c => exact hinv.trapRet h
  | setIntr c on => exact hinv.setIntr h
  | lockIrq c => exact hinv.lockIrq h
  | unlock c => exact hinv.unlock h
  | lockOwn c => exact hinv.lockOwn h
  | dropOwn c => exact hinv.dropOwn h
  | sched c => exact hinv.sched h
  | entry c => exact hinv.entry h
  | dispatch c tid => exact hinv.dispatch hok h
  | handBack c => exact hinv.handBack h
  | idle c => exact hinv.idle h

lemma Inv.of_reachable (hs : machine.ReachableUnder keepsIntr s) : Inv s := by
  apply hs.invariant
  · intro s hstart
    rw [hstart]
    exact Inv.boot
  · intro s action t hinv hok hstep
    exact hinv.step hok hstep

/-- A task that took its own lock as its only guard and has come back from
`sched`, on whatever CPU: dropping the guard leaves interrupts as they were
before it took the lock. -/
def Restored (s : Sys) : Prop :=
  ∀ c tid guard, (s.harts c).run = .task tid →
    (s.tasks tid).pc = .resumed guard → guard.sole = true →
    (s.tasks tid).stack.nested = 0 → ∃ t, machine.step s (.dropOwn c) = some t ∧
        (t.harts c).cpu.intr = guard.before

/-- In every run whose schedulers lock a switched-out task only while their
interrupts are as the task's were, the switch keeps the interrupt state. -/
theorem restored_of_keepsIntr {s : Sys} (hs : machine.ReachableUnder keepsIntr s) : Restored s := by
  intro c tid guard hrun hpc hsole hnested
  have hok := (Inv.of_reachable hs).hart c
  have hdepth := hok.depth
  simp only [stack_eq_of_task hrun, Sys.own, hrun, hpc, hnested, Pc.own] at hdepth
  refine ⟨_, by simp only [machine, Sys.step, Sys.dropOwn, hrun, hpc]; rfl, ?_⟩
  rw [setCpu_self]
  calc (s.harts c).cpu.popOff.intr = (s.harts c).cpu.intena :=
        Cpu.popOff_intr_of_outermost hdepth (hok.off (by omega))
    _ = guard.before := hok.restore tid guard hrun hpc hsole

/-- A task yields on one CPU and is resumed on another. -/
def migrateTrace : List Action :=
  [.dispatch 0 1, .entry 0, .lockOwn 0, .sched 0, .handBack 0, .dispatch 1 1]

theorem migrateTrace_restored : ∃ s, machine.runUnder keepsIntr Sys.boot migrateTrace = some s ∧
      (s.tasks 1).pc = .resumed ⟨true, true⟩ ∧ Restored s := by
  have hrun : ∃ s, machine.runUnder keepsIntr Sys.boot migrateTrace = some s ∧
      (s.tasks 1).pc = .resumed ⟨true, true⟩ := ⟨_, rfl, rfl⟩
  obtain ⟨s, hrun, hpc⟩ := hrun
  refine ⟨s, hrun, hpc, ?_⟩
  apply restored_of_keepsIntr
  exact Machine.ReachableUnder.runUnder (.start rfl) hrun

/-- Task 1 yields with interrupts on.  Task 2 is then preempted in an interrupt
handler and leaves the scheduler with interrupts off, which resumes task 1. -/
def preemptTrace : List Action :=
  [.dispatch 0 1, .entry 0, .lockOwn 0, .sched 0, .handBack 0,
    .dispatch 0 2, .entry 0, .trap 0, .lockOwn 0, .sched 0, .handBack 0,
    .dispatch 0 1]

theorem preemptTrace_not_restored : ¬ ∀ s, machine.Reachable s → Restored s := by
  intro hall
  have hrun : ∃ s, machine.run Sys.boot preemptTrace = some s ∧ (s.harts 0).run = .task 1 ∧
      (s.tasks 1).pc = .resumed ⟨true, true⟩ ∧
      (s.tasks 1).stack.nested = 0 ∧
      ∀ t, machine.step s (.dropOwn 0) = some t → (t.harts 0).cpu.intr = false := by
    refine ⟨_, rfl, rfl, rfl, rfl, ?_⟩
    intro t ht
    cases ht
    rfl
  obtain ⟨s, hrun, htask, hpc, hnested, hdrop⟩ := hrun
  have hs : machine.Reachable s := Machine.Reachable.run (.start rfl) hrun
  obtain ⟨t, hstep, hintr⟩ := hall s hs 0 1 _ htask hpc rfl hnested
  rw [hdrop t hstep] at hintr
  cases hintr

end Redwing.Switch
