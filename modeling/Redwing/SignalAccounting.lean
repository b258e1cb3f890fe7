/-
Which step may clear a pending signal, and how many frames user handlers may
have outstanding, over all runs of a task and its senders; and the runs in
which a stopped task never misses the signal that continues or kills it.
-/
import Redwing.Signals

namespace Redwing.Signals

open Proc Task

lemma Signal.toNat_lt (signal : Signal) : signal.toNat < 64 := by cases signal <;> decide

lemma Signal.toNat_injective : Function.Injective Signal.toNat := by
  intro a b h
  cases a <;> cases b <;> first | rfl | cases h

lemma Signal.toNat_of_tryFrom (h : Signal.tryFrom n = some signal) : signal.toNat = n := by
  unfold Signal.tryFrom at h
  split at h <;> cases h <;> rfl

lemma SignalFlags.fromBits_eq_some (h : SignalFlags.fromBits bits = some flags) : flags = bits := by
  unfold SignalFlags.fromBits at h
  split at h
  · exact (Option.some.inj h).symm
  · cases h

lemma SignalFlags.contains_toSingalFlags (flags : SignalFlags) (signal : Signal) :
    SignalFlags.contains flags signal.toSingalFlags = flags.getLsbD signal.toNat := by
  have hlt := signal.toNat_lt
  rw [SignalFlags.contains, Signal.toSingalFlags, ← BitVec.twoPow_eq, BitVec.and_twoPow]
  cases hbit : flags.getLsbD signal.toNat with
  | true => simp
  | false =>
    have hne : BitVec.twoPow 64 signal.toNat ≠ 0#64 := by
      intro hzero
      have hself := BitVec.getLsbD_twoPow (w := 64) signal.toNat signal.toNat
      rw [hzero] at hself
      simp [hlt] at hself
    simpa using hne.symm

section

variable (flags other : SignalFlags) (signal removed : Signal)

lemma SignalFlags.contains_or : SignalFlags.contains (flags ||| other) signal.toSingalFlags =
    (SignalFlags.contains flags signal.toSingalFlags ||
      SignalFlags.contains other signal.toSingalFlags) := by
  simp [SignalFlags.contains_toSingalFlags]

lemma SignalFlags.contains_remove : SignalFlags.contains (flags.remove removed.toSingalFlags)
      signal.toSingalFlags =
    (SignalFlags.contains flags signal.toSingalFlags && decide (signal ≠ removed)) := by
  have hlt := signal.toNat_lt
  have hltRemoved := removed.toNat_lt
  have hinj : removed.toNat = signal.toNat ↔ signal = removed :=
    ⟨fun h => Signal.toNat_injective h.symm, fun h => h ▸ rfl⟩
  rw [SignalFlags.contains_toSingalFlags, SignalFlags.contains_toSingalFlags]
  simp only [SignalFlags.remove, Signal.toSingalFlags, ← BitVec.twoPow_eq, BitVec.getLsbD_and,
    BitVec.getLsbD_not, BitVec.getLsbD_twoPow, hlt, decide_true, Bool.true_and, hinj]
  by_cases h : signal = removed
  · simp [h, hltRemoved]
  · simp [h]

end

namespace Task

def pending (task : Task) (signal : Signal) : Bool := task.signals.contains signal.toSingalFlags

def masked (task : Task) (signal : Signal) : Bool := task.signalMask.contains signal.toSingalFlags

variable {task : Task} {signal : Signal}

lemma wakeup_fields (task : Task) : task.wakeup.signals = task.signals ∧
    task.wakeup.signalMask = task.signalMask ∧
    task.wakeup.signalActions = task.signalActions ∧
    task.wakeup.trapframeBackup = task.trapframeBackup := by
  rw [wakeup]
  split <;> exact ⟨rfl, rfl, rfl, rfl⟩

lemma sendSignal_fields (task : Task) (flags : SignalFlags) :
    (task.sendSignal flags).signals = task.signals ||| flags ∧
    (task.sendSignal flags).signalMask = task.signalMask ∧
    (task.sendSignal flags).signalActions = task.signalActions ∧
    (task.sendSignal flags).trapframeBackup = task.trapframeBackup := by
  rw [sendSignal]
  split
  · rename_i hzero
    subst hzero
    exact ⟨(BitVec.or_zero).symm, rfl, rfl, rfl⟩
  simp only
  split
  · exact ⟨rfl, rfl, rfl, rfl⟩
  · rw [wakeupIfInterruptible]
    split <;> exact ⟨rfl, rfl, rfl, rfl⟩

def Performs (signal : Signal) (before after : Task) : SignalActionKind → Prop
  | .terminate => after.isKilled = true ∧ after.exitStatus = 128 + signal.toNat
  | .stop => after.isFrozen = true
  | .cont => after.isFrozen = false
  | .ignored => True
  | .userHandler action =>
    after.trapframeBackup = some before.trapframe ∧
    after.trapframe.sepc = action.sigHandler ∧
    after.trapframe.a0 = BitVec.ofNat 64 signal.toNat

section

variable (task : Task) (signal : Signal) (action : SignalActionKind)

/-- `handle_action` performs the action and clears its signal, unless the
handler's own mask holds the signal back; it never touches another pending
signal. -/
lemma handleAction_spec :
    task.handleAction signal action = task ∨
      (Performs signal task (task.handleAction signal action) action ∧
        (task.handleAction signal action).signals = task.signals.remove signal.toSingalFlags) := by
  cases action with
  | terminate => exact .inr ⟨⟨rfl, rfl⟩, rfl⟩
  | stop | cont => exact .inr ⟨rfl, rfl⟩
  | ignored => exact .inr ⟨trivial, rfl⟩
  | userHandler act =>
    rw [handleAction]
    split
    · exact .inl rfl
    · exact .inr ⟨⟨rfl, rfl, rfl⟩, rfl⟩

lemma handleAction_backup :
    (task.handleAction signal action).trapframeBackup = task.trapframeBackup ∨
      ((∃ act, action = .userHandler act) ∧ (task.handleAction signal action).trapframeBackup =
          some task.trapframe) := by
  cases action with
  | terminate | stop | cont | ignored => exact .inl rfl
  | userHandler act =>
    rw [handleAction]
    split
    · exact .inl rfl
    · exact .inr ⟨⟨act, rfl⟩, rfl⟩

end

lemma examine_eq_some (h : task.examine n = some (signal, action)) :
    task.pending signal = true ∧ task.masked signal = false ∧ action = task.signalActions signal ∧
      ((∃ act, action = .userHandler act) → task.trapframeBackup = none) := by
  rw [examine] at h
  split at h
  · rename_i flag found hflag hfound
    have hbit : flag = found.toSingalFlags := by
      rw [SignalFlags.fromBits_eq_some hflag, Signal.toSingalFlags, Signal.toNat_of_tryFrom hfound]
    subst hbit
    split at h
    · cases h
    rename_i hopen
    rw [not_or, not_not, Bool.not_eq_true] at hopen
    split at h
    · rename_i act hact
      split at h
      · cases h
      rename_i hbackup
      cases h
      refine ⟨hopen.1, hopen.2, hact.symm, fun _ => ?_⟩
      simpa using hbackup
    rename_i hother
    cases h
    refine ⟨hopen.1, hopen.2, rfl, ?_⟩
    rintro ⟨act, hact⟩
    exact absurd hact (hother act)
  · cases h

end Task

/-- What one step may do to the pending signals and to the saved frame. -/
structure Accounting (s : Target) (action : Action) (t : Target) : Prop where
  /-- A signal is cleared only by performing its configured action. -/
  cleared : ∀ signal, s.task.pending signal = true → t.task.pending signal = false →
    action = .advance ∧ (∃ n, s.pc = .act signal (s.task.signalActions signal) n) ∧
      Task.Performs signal s.task t.task (s.task.signalActions signal)
  /-- A masked signal stays pending. -/
  masked : ∀ signal, s.task.pending signal = true →
    s.task.masked signal = true → t.task.pending signal = true
  /-- Only `sigreturn` takes a saved frame away, and until then no other
  handled signal is delivered. -/
  saved : ∀ frame, s.task.trapframeBackup = some frame →
    action ≠ .sigreturn → t.task.trapframeBackup = some frame ∧
      ∀ signal act, s.task.signalActions signal = .userHandler act →
        s.task.pending signal = true → t.task.pending signal = true
  /-- A frame is saved only for a handler. -/
  delivered : ∀ frame, s.task.trapframeBackup = none →
    t.task.trapframeBackup = some frame → action = .advance ∧ frame = s.task.trapframe ∧
      ∃ signal act n, s.pc = .act signal (.userHandler act) n

/-- Between the two sections for a signal it stays pending and unmasked, its
action stays the configured one, and no frame is saved in the meantime. -/
def Target.Inv (s : Target) : Prop :=
  ∀ signal action n, s.pc = .act signal action n →
    s.task.pending signal = true ∧ s.task.masked signal = false ∧
    action = s.task.signalActions signal ∧
    ((∃ act, action = .userHandler act) → s.task.trapframeBackup = none)

section

variable {s t : Target}

lemma Target.syscall_eq_some {task : Task} (h : s.syscall task = some t) :
    s.pc = .user ∧ t = { s with task } := by
  rw [Target.syscall] at h
  split at h
  · rename_i huser
    exact ⟨huser.1, (Option.some.inj h).symm⟩
  · cases h

variable {action : Action} {task' : Task}

lemma Accounting.of_kept (hpending : ∀ signal, s.task.pending signal = true →
      t.task.pending signal = true)
    (hbackup : t.task.trapframeBackup = s.task.trapframeBackup ∨
      action = .sigreturn ∧ t.task.trapframeBackup = none) :
    Accounting s action t where
  cleared := by
    intro signal hbefore hafter
    rw [hpending signal hbefore] at hafter
    cases hafter
  masked := fun signal hbefore _ => hpending signal hbefore
  saved := by
    intro frame hframe hnot
    rcases hbackup with hsame | ⟨hreturn, -⟩
    · exact ⟨hsame.trans hframe, fun signal _ _ => hpending signal⟩
    · exact absurd hreturn hnot
  delivered := by
    intro frame hnone hsome
    rcases hbackup with hsame | ⟨-, hnone'⟩
    · rw [hsame, hnone] at hsome
      cases hsome
    · rw [hnone'] at hsome
      cases hsome

lemma Accounting.of_act (hinv : s.Inv) {signal : Signal} {action : SignalActionKind} {n : Nat}
    (hpc : s.pc = .act signal action n) (ht : t.task = s.task.handleAction signal action) :
    Accounting s .advance t := by
  obtain ⟨hpending, hmasked, rfl, hfree⟩ := hinv signal action n hpc
  have hspec := s.task.handleAction_spec signal (s.task.signalActions signal)
  have hbackup := s.task.handleAction_backup signal (s.task.signalActions signal)
  rw [← ht] at hspec hbackup
  -- no pending signal but this one can be cleared
  have hothers : ∀ other, s.task.pending other = true →
      t.task.pending other = false → other = signal ∧
        Task.Performs signal s.task t.task (s.task.signalActions signal) := by
    intro other hbefore hafter
    rcases hspec with hsame | ⟨hperforms, hsignals⟩
    · rw [hsame, hbefore] at hafter
      cases hafter
    rw [pending, hsignals, SignalFlags.contains_remove] at hafter
    rw [pending] at hbefore
    refine ⟨?_, hperforms⟩
    simpa [hbefore] using hafter
  refine ⟨?_, ?_, ?_, ?_⟩
  · intro other hbefore hafter
    obtain ⟨rfl, hperforms⟩ := hothers other hbefore hafter
    exact ⟨rfl, ⟨n, hpc⟩, hperforms⟩
  · intro other hbefore hheld
    by_contra hafter
    obtain ⟨rfl, -⟩ := hothers other hbefore (Bool.not_eq_true _ ▸ hafter)
    rw [hmasked] at hheld
    cases hheld
  · intro frame hframe _
    have hnot : ¬ ∃ act, s.task.signalActions signal = .userHandler act := by
      intro hhandler
      rw [hfree hhandler] at hframe
      cases hframe
    constructor
    · rcases hbackup with hsame | ⟨hhandler, -⟩
      · exact hsame.trans hframe
      · exact absurd hhandler hnot
    intro other act hact hbefore
    by_contra hafter
    obtain ⟨rfl, -⟩ := hothers other hbefore (Bool.not_eq_true _ ▸ hafter)
    exact hnot ⟨act, hact⟩
  · intro frame hnone hsome
    rcases hbackup with hsame | ⟨⟨act, hact⟩, hframe⟩
    · rw [hsame, hnone] at hsome
      cases hsome
    rw [hframe] at hsome
    rw [hact] at hpc
    exact ⟨rfl, (Option.some.inj hsome).symm, signal, act, n, hpc⟩

lemma Accounting.of_syscall (hrun : s.syscall task = some t)
    (hsignals : task.signals = s.task.signals)
    (hbackup : task.trapframeBackup = s.task.trapframeBackup ∨
      action = .sigreturn ∧ task.trapframeBackup = none) :
    Accounting s action t := by
  obtain ⟨-, rfl⟩ := Target.syscall_eq_some hrun
  apply Accounting.of_kept
  · intro signal hbefore
    rw [pending, hsignals]
    exact hbefore
  · exact hbackup

lemma Task.sigprocmask_ok {task : Task} {how : ProcMaskHow}
    {mask old : SignalFlags} (h : task.sigprocmask how mask = .ok (old, task')) :
    task' = { task with signalMask := mask } := by
  cases how with
  | blocked | unblocked => cases h
  | setmask =>
    cases h
    rfl

lemma Task.sigaction_ok {task : Task} {signum : Signal} {act : SignalAction}
    {old : Option SignalAction} (h : task.sigaction signum act = .ok (old, task')) :
    ∃ actions, task' = { task with signalActions := actions } := by
  rw [sigaction] at h
  split at h
  · cases h
  · cases h
    exact ⟨_, rfl⟩

lemma Task.sigreturn_ok {task : Task} (h : task.sigreturn = .ok task') :
    ∃ frame, task.trapframeBackup = some frame ∧
      task' = { task with trapframe := frame, trapframeBackup := none } := by
  rw [sigreturn] at h
  split at h
  · rename_i frame hframe
    cases h
    exact ⟨frame, hframe, rfl⟩
  · cases h

lemma Target.Inv.of_kept (hinv : s.Inv) {task : Task}
    (hpending : ∀ signal, s.task.pending signal = true → task.pending signal = true)
    (hmask : task.signalMask = s.task.signalMask)
    (hactions : task.signalActions = s.task.signalActions)
    (hbackup : task.trapframeBackup = s.task.trapframeBackup) :
    Target.Inv { s with task } ∧ Accounting s action { s with task } := by
  refine ⟨?_, Accounting.of_kept hpending (.inl hbackup)⟩
  intro signal action n hpc
  obtain ⟨hbefore, hmasked, hconfigured, hfree⟩ := hinv signal action n hpc
  refine ⟨hpending signal hbefore, ?_, ?_, ?_⟩
  · rw [masked, hmask]
    exact hmasked
  · rw [hactions]
    exact hconfigured
  · rw [hbackup]
    exact hfree

lemma Target.Inv.of_syscall {task : Task} (hrun : s.syscall task = some t) : t.Inv := by
  obtain ⟨hpc, rfl⟩ := Target.syscall_eq_some hrun
  intro signal action n hact
  rw [hpc] at hact
  cases hact

lemma Pc.after_ne_act (n : Nat) (signal : Signal) (action : SignalActionKind)
    (m : Nat) : Pc.after n ≠ .act signal action m := by
  rw [Pc.after]
  split <;> simp

lemma Target.Inv.advance (hinv : s.Inv) (hrun : s.advance = some t) :
    t.Inv ∧ Accounting s .advance t := by
  have hkept : ∀ pc, Accounting s .advance { s with pc } := by
    intro pc
    exact Accounting.of_kept (fun _ h => h) (.inl rfl)
  rw [Target.advance] at hrun
  split at hrun
  · cases hrun
  · rename_i n hpc
    split at hrun
    · cases hrun
      refine ⟨fun signal action m hact => ?_, hkept _⟩
      exact absurd hact (Pc.after_ne_act n signal action m)
    rename_i signal action hexamine
    cases hrun
    refine ⟨fun signal' action' m hact => ?_, hkept _⟩
    cases hact
    exact examine_eq_some hexamine
  · rename_i signal action n hpc
    cases hrun
    refine ⟨fun signal' action' m hact => ?_, Accounting.of_act hinv hpc rfl⟩
    exact absurd hact (Pc.after_ne_act n signal' action' m)
  · split at hrun
    · cases hrun
      refine ⟨fun signal action m hact => ?_, hkept _⟩
      cases hact
    · cases hrun
      refine ⟨fun signal action m hact => ?_, Accounting.of_kept (fun _ h => h) (.inl rfl)⟩
      cases hact
  cases hrun
  refine ⟨fun signal action m hact => ?_, hkept _⟩
  cases hact

lemma Target.Inv.setState (hinv : s.Inv) (state : TaskState) (action : Action) :
    Target.Inv { s with task := { s.task with state } } ∧
      Accounting s action { s with task := { s.task with state } } :=
  hinv.of_kept (fun _ h => h) rfl rfl rfl

lemma Target.Inv.syscall {task : Task} (hrun : s.syscall task = some t)
    (hsignals : task.signals = s.task.signals)
    (hbackup : task.trapframeBackup = s.task.trapframeBackup ∨
      action = .sigreturn ∧ task.trapframeBackup = none) :
    t.Inv ∧ Accounting s action t :=
  ⟨Target.Inv.of_syscall hrun, Accounting.of_syscall hrun hsignals hbackup⟩

lemma Target.Inv.step (hinv : s.Inv)
    (hrun : s.step action = some t) : t.Inv ∧ Accounting s action t := by
  cases action with
  | sendSignal flags =>
    cases hrun
    obtain ⟨hsignals, hmask, hactions, hbackup⟩ := sendSignal_fields s.task flags
    have hpending : ∀ signal, s.task.pending signal = true →
        (s.task.sendSignal flags).pending signal = true := by
      intro signal hbefore
      rw [pending] at hbefore
      rw [pending, hsignals, SignalFlags.contains_or, hbefore, Bool.true_or]
    exact hinv.of_kept hpending hmask hactions hbackup
  | sigprocmask how mask =>
    rw [Target.step] at hrun
    split at hrun
    · rename_i old task hok
      have htask := sigprocmask_ok hok
      subst htask
      exact Target.Inv.syscall hrun rfl (.inl rfl)
    · exact Target.Inv.syscall hrun rfl (.inl rfl)
  | sigaction signum act =>
    rw [Target.step] at hrun
    split at hrun
    · rename_i old task hok
      obtain ⟨actions, htask⟩ := sigaction_ok hok
      subst htask
      exact Target.Inv.syscall hrun rfl (.inl rfl)
    · exact Target.Inv.syscall hrun rfl (.inl rfl)
  | sigreturn =>
    rw [Target.step] at hrun
    split at hrun
    · rename_i task hok
      obtain ⟨frame, -, htask⟩ := sigreturn_ok hok
      subst htask
      exact Target.Inv.syscall hrun rfl (.inr ⟨rfl, rfl⟩)
    · exact Target.Inv.syscall hrun rfl (.inl rfl)
  | trap frame => exact Target.Inv.syscall hrun rfl (.inl rfl)
  | handleSignals =>
    rw [Target.step] at hrun
    split at hrun
    · cases hrun
      refine ⟨fun signal action n hact => ?_, Accounting.of_kept (fun _ h => h) (.inl rfl)⟩
      cases hact
    · cases hrun
  | advance =>
    rw [Target.step] at hrun
    split at hrun
    · exact hinv.advance hrun
    · cases hrun
  | sleep state =>
    rw [Target.step] at hrun
    split at hrun
    · exact Target.Inv.syscall hrun rfl (.inl rfl)
    · cases hrun
  | wakeup =>
    cases hrun
    obtain ⟨hsignals, hmask, hactions, hbackup⟩ := wakeup_fields s.task
    have hpending : ∀ signal, s.task.pending signal = true →
        s.task.wakeup.pending signal = true := by
      intro signal hbefore
      rw [pending, hsignals]
      exact hbefore
    exact hinv.of_kept hpending hmask hactions hbackup
  | yieldNow | dispatch =>
    rw [Target.step] at hrun
    split at hrun
    · cases hrun
      exact hinv.setState _ _
    · cases hrun

lemma Target.Inv.of_reachable (hs : machine.Reachable s) : s.Inv := by
  apply Machine.ReachableUnder.invariant _ _ hs
  · rintro start ⟨frame, rfl⟩ signal action n hact
    cases hact
  · intro before action after hinv _ hrun
    exact (hinv.step hrun).1

end

/-- In every run of a task and its senders, each step keeps the accounts: a
pending signal is cleared only by performing its configured action, masked
signals stay pending, and while a handler's frame is saved no other handler is
started. -/
theorem accounting_of_reachable (s : Target) (hs : machine.Reachable s) (action : Action)
    (t : Target) (hstep : machine.step s action = some t) : Accounting s action t :=
  ((Target.Inv.of_reachable hs).step hstep).2

def Trapframe.zero : Trapframe where
  ra := 0
  sp := 0
  gp := 0
  tp := 0
  t0 := 0
  t1 := 0
  t2 := 0
  t3 := 0
  t4 := 0
  t5 := 0
  t6 := 0
  a0 := 0
  a1 := 0
  a2 := 0
  a3 := 0
  a4 := 0
  a5 := 0
  a6 := 0
  a7 := 0
  s0 := 0
  s1 := 0
  s2 := 0
  s3 := 0
  s4 := 0
  s5 := 0
  s6 := 0
  s7 := 0
  s8 := 0
  s9 := 0
  s10 := 0
  s11 := 0
  kernelStack := 0
  hartid := 0
  sstatus := 0
  sepc := 0

def Target.boot : Target where
  task := Task.new Trapframe.zero
  pc := .user

lemma Target.boot_reachable : machine.Reachable Target.boot := .start ⟨Trapframe.zero, rfl⟩

def handlerTrace : List Action :=
  [.dispatch, .sigaction .sigint { sigHandler := 0x1000, mask := 0 },
    .sendSignal Signal.sigint.toSingalFlags, .handleSignals, .advance,
    .advance, .advance]

theorem handlerTrace_accounting : ∃ s t, machine.run .boot handlerTrace = some s ∧
      machine.step s .advance = some t ∧ s.task.pending .sigint = true ∧
      t.task.pending .sigint = false ∧ t.task.trapframe.sepc = 0x1000 ∧
      Accounting s .advance t := by
  have hrun : machine.run .boot handlerTrace = some _ := rfl
  refine ⟨_, _, hrun, rfl, by decide, by decide, by decide, ?_⟩
  exact accounting_of_reachable _ (Machine.Reachable.run Target.boot_reachable hrun) _ _ rfl

def Task.released (task : Task) : Bool :=
  (task.pending .sigcont && !task.masked .sigcont) ||
    (task.pending .sigkill && !task.masked .sigkill)

/-- The task is suspended in `handle_signals` although it has been continued
or killed.  A sender sets the signal and wakes the task in one section under
its lock, so no wake-up is on its way in such a state. -/
def Target.StuckStopped (s : Target) : Prop :=
  s.pc = .suspended ∧ s.task.state = .interruptible ∧ s.task.released = true

/-- A stopped task suspends only if no `SIGCONT` or `SIGKILL` has been left
pending since the loop looked at it. -/
def Target.noticesRelease (s : Target) : Action → Prop
  | .advance => s.pc = .check → s.task.isKilled = false →
      s.task.isFrozen = true → s.task.released = false
  | _ => True

section

variable {s t : Target}

lemma Task.released_sendSignal {task : Task} {flags : SignalFlags}
    (hstate : (task.sendSignal flags).state = .interruptible) :
    task.state = .interruptible ∧ (task.sendSignal flags).released = task.released := by
  obtain ⟨hsignals, hmask, -, -⟩ := task.sendSignal_fields flags
  have hquiet : task.state = .interruptible ∧
      SignalFlags.contains task.signalMask flags = true := by
    rw [sendSignal] at hstate
    split at hstate
    · rename_i hzero
      subst hzero
      exact ⟨hstate, by simp [SignalFlags.contains]⟩
    simp only at hstate
    split at hstate
    · rename_i hcontains
      exact ⟨hstate, hcontains⟩
    rw [wakeupIfInterruptible] at hstate
    split at hstate
    · cases hstate
    · rename_i hasleep
      exact absurd (by rw [hstate]; rfl) hasleep
  have hsubset : ∀ signal : Signal, SignalFlags.contains flags signal.toSingalFlags = true →
      SignalFlags.contains task.signalMask signal.toSingalFlags = true := by
    intro signal hbit
    have hcontains := beq_iff_eq.mp hquiet.2
    rw [SignalFlags.contains_toSingalFlags] at hbit ⊢
    rw [← hcontains, BitVec.getLsbD_and, Bool.and_eq_true] at hbit
    exact hbit.1
  have hopen : ∀ signal, ((task.sendSignal flags).pending signal &&
      !(task.sendSignal flags).masked signal) =
      (task.pending signal && !task.masked signal) := by
    intro signal
    simp only [pending, masked, hsignals, hmask, SignalFlags.contains_or]
    cases hflag : SignalFlags.contains flags signal.toSingalFlags with
    | false => rw [Bool.or_false]
    | true => rw [hsubset signal hflag, Bool.not_true, Bool.and_false,
        Bool.and_false]
  refine ⟨hquiet.1, ?_⟩
  rw [released, released, hopen, hopen]

lemma Target.not_stuckStopped_of_pc (h : s.pc ≠ .suspended) : ¬ s.StuckStopped :=
  fun hstuck => h hstuck.1

lemma Target.not_stuckStopped_of_state (h : s.task.state ≠ .interruptible) : ¬ s.StuckStopped :=
  fun hstuck => h hstuck.2.1

lemma Target.not_stuckStopped_of_syscall {task : Task}
    (h : s.syscall task = some t) : ¬ t.StuckStopped := by
  obtain ⟨hpc, rfl⟩ := Target.syscall_eq_some h
  apply Target.not_stuckStopped_of_pc
  rw [hpc]
  decide

lemma Pc.after_ne_suspended : Pc.after n ≠ .suspended := by
  rw [Pc.after]
  split <;> simp

lemma Target.advance_not_stuckStopped (hok : s.noticesRelease .advance)
    (hrun : s.advance = some t) : ¬ t.StuckStopped := by
  rw [Target.advance] at hrun
  split at hrun
  · cases hrun
  · rename_i n hpc
    split at hrun
    · cases hrun
      exact Target.not_stuckStopped_of_pc Pc.after_ne_suspended
    · cases hrun
      exact Target.not_stuckStopped_of_pc (by simp)
  · rename_i signal action n hpc
    cases hrun
    exact Target.not_stuckStopped_of_pc Pc.after_ne_suspended
  · rename_i hpc
    split at hrun
    · cases hrun
      exact Target.not_stuckStopped_of_pc (by simp)
    -- the task suspends; the condition is about this branch
    rename_i hstopped
    rw [not_or, not_not, Bool.not_eq_true] at hstopped
    cases hrun
    rintro ⟨-, -, hreleased⟩
    have hnone := hok hpc hstopped.1 hstopped.2
    exact absurd (hnone.symm.trans hreleased) (by decide)
  · cases hrun
    exact Target.not_stuckStopped_of_pc (by simp)

lemma Target.step_not_stuckStopped {action : Action} (hbefore : ¬ s.StuckStopped)
    (hok : s.noticesRelease action) (hrun : s.step action = some t) : ¬ t.StuckStopped := by
  cases action with
  | sendSignal flags =>
    cases hrun
    rintro ⟨hpc, hstate, hreleased⟩
    obtain ⟨hasleep, hsame⟩ := released_sendSignal hstate
    exact hbefore ⟨hpc, hasleep, hsame ▸ hreleased⟩
  | sigprocmask | sigaction | sigreturn =>
    rw [Target.step] at hrun
    split at hrun <;> exact Target.not_stuckStopped_of_syscall hrun
  | trap frame => exact Target.not_stuckStopped_of_syscall hrun
  | handleSignals =>
    rw [Target.step] at hrun
    split at hrun
    · cases hrun
      exact Target.not_stuckStopped_of_pc (by simp)
    · cases hrun
  | advance =>
    rw [Target.step] at hrun
    split at hrun
    · exact Target.advance_not_stuckStopped hok hrun
    · cases hrun
  | sleep state =>
    rw [Target.step] at hrun
    split at hrun
    · exact Target.not_stuckStopped_of_syscall hrun
    · cases hrun
  | wakeup =>
    cases hrun
    apply Target.not_stuckStopped_of_state
    rw [wakeup]
    split
    · simp
    rename_i hawake
    intro hstate
    exact hawake (by rw [hstate]; rfl)
  | yieldNow | dispatch =>
    rw [Target.step] at hrun
    split at hrun
    · cases hrun
      exact Target.not_stuckStopped_of_state (by simp)
    · cases hrun

end

/-- In every run in which a stopped task suspends only with no unmasked
`SIGCONT` or `SIGKILL` pending, it is never found suspended with one pending:
whatever arrives later wakes it. -/
theorem not_stuckStopped_of_noticesRelease (s : Target)
    (hs : machine.ReachableUnder Target.noticesRelease s) : ¬ s.StuckStopped := by
  apply hs.invariant
  · rintro start ⟨frame, rfl⟩
    exact Target.not_stuckStopped_of_pc (by simp)
  · intro before action after hbefore hok hrun
    exact Target.step_not_stuckStopped hbefore hok hrun

instance (s : Target) : (action : Action) → Decidable (s.noticesRelease action)
  | .advance => inferInstanceAs (Decidable (_ → _ → _ → _))
  | .sendSignal _ | .sigprocmask _ _ | .sigaction _ _ | .sigreturn | .trap _
  | .handleSignals | .sleep _ | .wakeup | .yieldNow | .dispatch => isTrue trivial

def stopTrace : List Action :=
  [.dispatch, .sendSignal Signal.sigstop.toSingalFlags, .handleSignals] ++
    List.replicate 33 .advance

def continuedTrace : List Action :=
  stopTrace ++ [.advance, .sendSignal Signal.sigcont.toSingalFlags]

theorem continuedTrace_not_stuckStopped :
    ∃ s, machine.runUnder Target.noticesRelease .boot continuedTrace =
        some s ∧ s.pc = .suspended ∧ s.task.released = true ∧
      s.task.state = .runable ∧ ¬ s.StuckStopped := by
  have hrun : machine.runUnder Target.noticesRelease .boot continuedTrace =
      some _ := rfl
  refine ⟨_, hrun, rfl, by decide, rfl, ?_⟩
  apply not_stuckStopped_of_noticesRelease
  exact Machine.ReachableUnder.runUnder (.start ⟨Trapframe.zero, rfl⟩) hrun

def missedTrace : List Action := stopTrace ++ [.sendSignal Signal.sigcont.toSingalFlags, .advance]

theorem missedTrace_stuckStopped : ¬ ∀ s, machine.Reachable s → ¬ s.StuckStopped := by
  intro hall
  have hrun : machine.run .boot missedTrace = some _ := rfl
  apply hall _ (Machine.Reachable.run Target.boot_reachable hrun)
  exact ⟨rfl, rfl, by decide⟩

end Redwing.Signals
