/-
The way of a program through a signal handler: the handler's frame, the trap
of the `sigreturn` system call through the generic dispatcher, and the return
to the program.
-/
import Redwing.SignalAccounting

namespace Redwing.Signals

open Proc

/-- `SysError::errno` for the kinds that occur here. -/
def errnoNotPermitted : Nat := 1

def errnoNoSys : Nat := 3

def syscallNoSigreturn : Nat := 41

/-- `SYS_TABLE`: a system call changes the task and returns a value. -/
abbrev SysTable := Nat → Option (Task → Task × BitVec 64)

/-- `sys_sigreturn` with the error conversion of `syscall`. -/
def sysSigreturn (task : Task) : Task × BitVec 64 :=
  match task.sigreturn with
  | .ok task => (task, 0)
  | .error _ => (task, -BitVec.ofNat 64 errnoNotPermitted)

def syscall (table : SysTable) (syscallNo : Nat) (task : Task) : Task × BitVec 64 :=
  match table syscallNo with
  | some syscallFn => syscallFn task
  | none => (task, -BitVec.ofNat 64 errnoNoSys)

/-- `_user_trap_vec` and `user_trap_handler` up to the dispatch: the registers
and the pc of the program go to the trapframe. -/
def enterTrap (task : Task) (regs : Regs) (sepc : BitVec 64) : Task :=
  { task with trapframe := { task.trapframe with toRegs := regs, sepc } }

def handleEcall (table : SysTable) (task : Task) : Task :=
  let task := { task with trapframe := { task.trapframe with sepc := task.trapframe.sepc + 4 } }
  let (task, retValue) := syscall table task.trapframe.a7.toNat task
  { task with trapframe := task.trapframe.setArg0 retValue }

def handlePendingSignals (task : Task) : Task :=
  (List.range (maxSig + 1)).foldl (fun task n =>
    match task.examine n with
    | none => task
    | some (signal, action) => task.handleAction signal action) task

/-- `user_trap_ret` on the hart `hartid`: the registers and the pc with which
the program goes on, unless it exits or is stopped.  `LOAD_REGS` restores all
registers but `tp`, which in the kernel holds the number of the hart. -/
def userTrapRet (task : Task) (hartid : BitVec 64) : Option (Regs × BitVec 64) :=
  let task := handlePendingSignals task
  if task.isKilled ∨ task.isFrozen then none
  else some ({ task.trapframe.toRegs with tp := hartid }, task.trapframe.sepc)

lemma Task.examine_eq_none {task : Task} (n : Nat)
    (h : ∀ signal, task.pending signal = true → task.masked signal = true) :
    task.examine n = none := by
  cases hexamine : task.examine n with
  | none => rfl
  | some found =>
    obtain ⟨signal, action⟩ := found
    obtain ⟨hpending, hmasked, -, -⟩ := Task.examine_eq_some hexamine
    rw [h signal hpending] at hmasked
    cases hmasked

lemma handlePendingSignals_eq
    (h : ∀ signal, task.pending signal = true → task.masked signal = true) :
    handlePendingSignals task = task := by
  rw [handlePendingSignals]
  induction List.range (maxSig + 1) with
  | nil => rfl
  | cons n rest ih =>
    rw [List.foldl_cons, Task.examine_eq_none n h]
    exact ih

lemma handleEcall_sigreturn (htable : table syscallNoSigreturn = some sysSigreturn)
    (hno : task.trapframe.a7.toNat = syscallNoSigreturn)
    (hsaved : task.trapframeBackup = some frame) : handleEcall table task =
      { task with trapframe := frame.setArg0 0, trapframeBackup := none } := by
  rw [handleEcall]
  simp [hno, syscall, htable, sysSigreturn, Task.sigreturn, hsaved]

/-- A task delivers a handler; later, the frame still being saved and nothing
else being due, the handler's program traps with the number of `sigreturn`, at
any pc and with any other registers.  The program goes on as it was when the
handler was delivered exactly if its `a0` was zero, which is what the
dispatcher stores there, and its `tp` was the number of the hart. -/
theorem sigreturn_resumes_iff (table : SysTable)
    (htable : table syscallNoSigreturn = some sysSigreturn) (task : Task) (signal : Signal)
    (act : SignalAction) (hdelivered : act.mask.contains signal.toSingalFlags = false)
    (later : Task)
    (hsaved : later.trapframeBackup = (task.handleAction signal (.userHandler act)).trapframeBackup)
    (hquiet : ∀ other, later.pending other = true → later.masked other = true)
    (hgoing : later.isKilled = false ∧ later.isFrozen = false) (regs : Regs)
    (hno : regs.a7.toNat = syscallNoSigreturn) (pc hartid : BitVec 64) :
    userTrapRet (handleEcall table (enterTrap later regs pc)) hartid =
        some (task.trapframe.toRegs, task.trapframe.sepc) ↔
      task.trapframe.a0 = 0 ∧ task.trapframe.tp = hartid := by
  have hframe : later.trapframeBackup = some task.trapframe := by
    rw [hsaved, Task.handleAction, hdelivered]
    rfl
  have hafter : handleEcall table (enterTrap later regs pc) =
      { later with
        trapframe := task.trapframe.setArg0 0
        trapframeBackup := none } :=
    handleEcall_sigreturn htable hno hframe
  have hkept : handlePendingSignals (handleEcall table (enterTrap later regs pc)) =
      handleEcall table (enterTrap later regs pc) := by
    apply handlePendingSignals_eq
    rw [hafter]
    exact hquiet
  rw [userTrapRet, hkept, hafter]
  simp only [hgoing.1, hgoing.2, Bool.false_eq_true, or_self, ↓reduceIte,
    Option.some.injEq, Prod.mk.injEq, Trapframe.setArg0, and_true]
  constructor
  · intro hregs
    exact ⟨(congrArg Regs.a0 hregs).symm, (congrArg Regs.tp hregs).symm⟩
  · rintro ⟨hzero, hhart⟩
    rw [← hzero, ← hhart]

def sigreturnTable : SysTable := fun n => if n = syscallNoSigreturn then some sysSigreturn else none

def interrupted (a0 : BitVec 64) : Task := Task.new { Trapframe.zero with a0, sepc := 0x2000 }

def handlerRegs : Regs := { Trapframe.zero.toRegs with a0 := 7, a7 := 41, s0 := 1 }

theorem interrupted_resumes : userTrapRet (handleEcall sigreturnTable (enterTrap
        ((interrupted 0).handleAction .sigint (.userHandler { sigHandler := 0x1000, mask := 0 }))
        handlerRegs 0x1004)) 0 =
      some ((interrupted 0).trapframe.toRegs, 0x2000) := by
  apply (sigreturn_resumes_iff sigreturnTable rfl (interrupted 0) .sigint
    { sigHandler := 0x1000, mask := 0 } rfl _ rfl ?_ ⟨rfl, rfl⟩ handlerRegs rfl
    0x1004 0).mpr ⟨rfl, rfl⟩
  intro other hpending
  cases other <;> cases hpending

/-- A program interrupted with `5` in `a0` goes on with `0` there. -/
theorem interrupted_not_resumed :
    ¬ ∀ (table : SysTable), table syscallNoSigreturn = some sysSigreturn →
      ∀ (task : Task) (signal : Signal) (act : SignalAction),
      act.mask.contains signal.toSingalFlags = false →
      ∀ later : Task, later.trapframeBackup =
        (task.handleAction signal (.userHandler act)).trapframeBackup →
      (∀ other, later.pending other = true → later.masked other = true) →
      later.isKilled = false ∧ later.isFrozen = false →
      ∀ regs : Regs, regs.a7.toNat = syscallNoSigreturn →
      ∀ pc hartid : BitVec 64,
      userTrapRet (handleEcall table (enterTrap later regs pc)) hartid =
        some (task.trapframe.toRegs, task.trapframe.sepc) := by
  intro hall
  have hresumed := hall sigreturnTable rfl (interrupted 5) .sigint
    { sigHandler := 0x1000, mask := 0 } rfl
    ((interrupted 5).handleAction .sigint (.userHandler { sigHandler := 0x1000, mask := 0 })) rfl
    (by intro other hpending; cases other <;> cases hpending) ⟨rfl, rfl⟩
    handlerRegs rfl 0x1004 0
  have ha0 := congrArg (Option.map fun out => out.1.a0) hresumed
  exact absurd ha0 (by decide +kernel)

end Redwing.Signals
