/-
Signals across `execve`.  Each program image is numbered; a handler carries the
number of the image that registered it and a saved frame the number of the image
it was saved in, and the numbers are compared when the handler is entered and
when the frame is restored.
-/
import Redwing.SignalAccounting

namespace Redwing.Signals

open Proc

inductive UseKind
  | delivered
  | restored
deriving DecidableEq

/-- A handler or a saved frame is used: the image it comes from and the image
that runs. -/
structure Use where
  kind : UseKind
  origin : Nat
  image : Nat
deriving DecidableEq

/-- A task with the images it has run. -/
structure Process where
  target : Target
  image : Nat
  registeredIn : Signal → Nat
  savedIn : Nat
  history : List Use

inductive ImageAction
  | signals (action : Action)
  | execve (frame : Trapframe)
deriving DecidableEq

namespace Process

def record (p : Process) (action : Action) (target : Target) : Process :=
  match action with
  | .sigaction signum act =>
    match p.target.task.sigaction signum act with
    | .ok _ =>
      { p with
        target
        registeredIn := fun signal =>
          if signal = signum then p.image else p.registeredIn signal }
    | .error _ => { p with target }
  | .sigreturn =>
    match p.target.task.trapframeBackup with
    | some _ =>
      { p with
        target
        history := ⟨.restored, p.savedIn, p.image⟩ :: p.history }
    | none => { p with target }
  | .advance =>
    match p.target.pc with
    | .act signal (.userHandler act) _ =>
      if act.mask.contains signal.toSingalFlags then { p with target }
      else
        { p with
          target
          savedIn := p.image
          history := ⟨.delivered, p.registeredIn signal, p.image⟩ :: p.history }
    | _ => { p with target }
  | _ => { p with target }

/-- `execve` puts a new address space with a new trapframe into the task.  The
table of actions and the saved frame are not touched. -/
def step (p : Process) : ImageAction → Option Process
  | .signals action => (p.target.step action).map (p.record action)
  | .execve frame =>
    (p.target.syscall { p.target.task with trapframe := frame }).map
      fun target => { p with target, image := p.image + 1 }

def OwnImage (p : Process) : Prop := ∀ u ∈ p.history, u.origin = u.image

end Process

def imageMachine : Machine Process ImageAction where
  start p := ∃ frame registeredIn savedIn, p = {
    target := { task := Task.new frame, pc := .user }
    image := 0, registeredIn, savedIn, history := [] }
  step := Process.step

def SignalActionKind.isUserHandler : SignalActionKind → Bool
  | .userHandler _ => true
  | _ => false

def Signal.values : List Signal :=
  [.sigdef, .sighup, .sigint, .sigquit, .sigill, .sigabrt, .sigkill, .sigsegv,
    .sigcont, .sigstop, .sigttin]

lemma Signal.mem_values (signal : Signal) : signal ∈ Signal.values := by cases signal <;> decide

def Process.startsClean (p : Process) : ImageAction → Prop
  | .signals _ => True
  | .execve _ =>
    (∀ signal ∈ Signal.values, (p.target.task.signalActions signal).isUserHandler = false) ∧
    p.target.task.trapframeBackup = none

instance (p : Process) (action : ImageAction) : Decidable (p.startsClean action) :=
  match action with
  | .signals _ => isTrue trivial
  | .execve _ => inferInstanceAs (Decidable (_ ∧ _))

/-! ### Steps that leave handlers and saved frames alone -/

/-- The actions and the saved frame are the same, and no handler is on its way
that was not. -/
structure SameHandlers (s t : Target) : Prop where
  actions : t.task.signalActions = s.task.signalActions
  backup : t.task.trapframeBackup = s.task.trapframeBackup
  pc : ∀ signal act n, t.pc = .act signal (.userHandler act) n →
    s.pc = .act signal (.userHandler act) n

section

variable {s t : Target}

lemma SameHandlers.of_task (hactions : task.signalActions = s.task.signalActions)
    (hbackup : task.trapframeBackup = s.task.trapframeBackup) : SameHandlers s { s with task } :=
  ⟨hactions, hbackup, fun _ _ _ hpc => hpc⟩

lemma SameHandlers.of_syscall (hrun : s.syscall task = some t)
    (hactions : task.signalActions = s.task.signalActions)
    (hbackup : task.trapframeBackup = s.task.trapframeBackup) : SameHandlers s t := by
  obtain ⟨-, rfl⟩ := Target.syscall_eq_some hrun
  exact .of_task hactions hbackup

lemma SameHandlers.of_pc {pc : Pc} {task : Task}
    (hactions : task.signalActions = s.task.signalActions)
    (hbackup : task.trapframeBackup = s.task.trapframeBackup)
    (hpc : ∀ signal act n, pc ≠ .act signal (.userHandler act) n) : SameHandlers s { task, pc } :=
  ⟨hactions, hbackup, fun signal act n h => absurd h (hpc signal act n)⟩

lemma Target.step_sameHandlers (hsigaction : ∀ signum act, action ≠ .sigaction signum act)
    (hsigreturn : action ≠ .sigreturn) (hadvance : action ≠ .advance)
    (hrun : s.step action = some t) : SameHandlers s t := by
  cases action with
  | sendSignal flags =>
    cases hrun
    obtain ⟨-, -, hactions, hbackup⟩ := s.task.sendSignal_fields flags
    exact .of_task hactions hbackup
  | sigprocmask how mask =>
    rw [Target.step] at hrun
    split at hrun
    · rename_i hok
      rw [Task.sigprocmask_ok hok] at hrun
      exact .of_syscall hrun rfl rfl
    · exact .of_syscall hrun rfl rfl
  | sigaction signum act => exact absurd rfl (hsigaction signum act)
  | sigreturn => exact absurd rfl hsigreturn
  | trap frame => exact .of_syscall hrun rfl rfl
  | handleSignals =>
    rw [Target.step] at hrun
    split at hrun
    · cases hrun
      exact .of_pc rfl rfl fun _ _ _ => Pc.noConfusion
    · cases hrun
  | advance => exact absurd rfl hadvance
  | sleep state =>
    rw [Target.step] at hrun
    split at hrun
    · exact .of_syscall hrun rfl rfl
    · cases hrun
  | wakeup =>
    cases hrun
    obtain ⟨-, -, hactions, hbackup⟩ := s.task.wakeup_fields
    exact .of_task hactions hbackup
  | yieldNow | dispatch =>
    rw [Target.step] at hrun
    split at hrun
    · cases hrun
      exact .of_task rfl rfl
    · cases hrun

lemma Task.handleAction_actions (task : Task) (signal : Signal) (action : SignalActionKind) :
    (task.handleAction signal action).signalActions = task.signalActions := by
  cases action with
  | terminate | stop | cont | ignored => rfl
  | userHandler act =>
    rw [Task.handleAction]
    split <;> rfl

end

/-! ### The invariant -/

/-- Every handler that can still be entered and every saved frame belong to the
image that runs. -/
structure Process.Inv (p : Process) : Prop where
  handlers : ∀ signal act, p.target.task.signalActions signal = .userHandler act →
      p.registeredIn signal = p.image
  saved : p.target.task.trapframeBackup.isSome = true → p.savedIn = p.image
  acting : ∀ signal act n, p.target.pc = .act signal (.userHandler act) n →
    p.registeredIn signal = p.image
  ownImage : p.OwnImage

namespace Process.Inv

variable {p : Process} {t : Target}

lemma of_sameHandlers (hinv : p.Inv) (hsame : SameHandlers p.target t) :
    Process.Inv { p with target := t } where
  handlers signal act hact := hinv.handlers signal act (hsame.actions ▸ hact)
  saved hsome := hinv.saved (hsame.backup ▸ hsome)
  acting signal act n hpc := hinv.acting signal act n (hsame.pc _ _ _ hpc)
  ownImage := hinv.ownImage

lemma sigaction (hinv : p.Inv) {signum : Signal} {act : SignalAction}
    (hrun : p.target.step (.sigaction signum act) = some t) :
    (p.record (.sigaction signum act) t).Inv := by
  cases hact : p.target.task.sigaction signum act with
  | error e =>
    simp only [Target.step, hact] at hrun
    simp only [record, hact]
    exact hinv.of_sameHandlers (.of_syscall hrun rfl rfl)
  | ok out =>
    obtain ⟨old, task⟩ := out
    simp only [Target.step, hact] at hrun
    obtain ⟨huser, rfl⟩ := Target.syscall_eq_some hrun
    have htask : task = { p.target.task with
        signalActions := fun signal => if signal = signum then
          .userHandler act else p.target.task.signalActions signal } := by
      rw [Task.sigaction] at hact
      split at hact
      · cases hact
      · cases hact
        rfl
    simp only [record, hact]
    refine ⟨?_, ?_, ?_, hinv.ownImage⟩
    · intro signal other hother
      simp only [htask] at hother ⊢
      split
      · rfl
      rename_i hne
      rw [if_neg hne] at hother
      exact hinv.handlers signal other hother
    · intro hsome
      exact hinv.saved (by simpa only [htask] using hsome)
    intro signal other n hpc
    simp only [huser] at hpc
    cases hpc

lemma sigreturn (hinv : p.Inv) (hrun : p.target.step .sigreturn = some t) :
    (p.record .sigreturn t).Inv := by
  cases hback : p.target.task.trapframeBackup with
  | none =>
    simp only [Target.step, Task.sigreturn, hback] at hrun
    simp only [record, hback]
    exact hinv.of_sameHandlers (.of_syscall hrun rfl rfl)
  | some frame =>
    simp only [Target.step, Task.sigreturn, hback] at hrun
    obtain ⟨huser, rfl⟩ := Target.syscall_eq_some hrun
    simp only [record, hback]
    refine ⟨hinv.handlers, ?_, ?_, ?_⟩
    · intro hsome
      cases hsome
    · intro signal act n hpc
      simp only [huser] at hpc
      cases hpc
    rintro u (_ | ⟨_, hu⟩)
    · exact hinv.saved (by rw [hback]; rfl)
    · exact hinv.ownImage u hu

lemma act (hinv : p.Inv) (hpc : p.target.pc = .act signal action n) :
    (p.record .advance ⟨p.target.task.handleAction signal action, .after n⟩).Inv := by
  have hafter : ∀ other act m, Pc.after n ≠ .act other (.userHandler act) m :=
    fun other act m => Pc.after_ne_act n other (.userHandler act) m
  have hactions := p.target.task.handleAction_actions signal action
  cases action with
  | terminate | stop | cont | ignored =>
    simp only [record, hpc]
    exact hinv.of_sameHandlers (.of_pc hactions rfl hafter)
  | userHandler act =>
    simp only [record, hpc]
    split
    · rename_i hmasked
      have hsame : p.target.task.handleAction signal (.userHandler act) =
          p.target.task := by
        rw [Task.handleAction, if_pos hmasked]
      rw [hsame]
      exact hinv.of_sameHandlers (.of_pc rfl rfl hafter)
    refine ⟨?_, fun _ => rfl, ?_, ?_⟩
    · intro other registered hother
      exact hinv.handlers other registered (hactions ▸ hother)
    · intro other registered m hother
      exact absurd hother (hafter other registered m)
    · rintro u (_ | ⟨_, hu⟩)
      · exact hinv.acting signal act n hpc
      · exact hinv.ownImage u hu

lemma advance (hinv : p.Inv) (hrun : p.target.advance = some t) : (p.record .advance t).Inv := by
  rw [Target.advance] at hrun
  split at hrun
  · cases hrun
  · rename_i n hpc
    have hrecord : p.record .advance t = { p with target := t } := by simp [record, hpc]
    rw [hrecord]
    split at hrun
    · cases hrun
      exact hinv.of_sameHandlers (.of_pc rfl rfl fun other act m => Pc.after_ne_act n other _ m)
    rename_i signal action hexamine
    cases hrun
    obtain ⟨-, -, haction, -⟩ := Task.examine_eq_some hexamine
    refine ⟨hinv.handlers, hinv.saved, ?_, hinv.ownImage⟩
    intro other act m hother
    cases hother
    exact hinv.handlers signal act haction.symm
  · rename_i signal action n hpc
    cases hrun
    exact hinv.act hpc
  · rename_i hpc
    have hrecord : p.record .advance t = { p with target := t } := by simp [record, hpc]
    rw [hrecord]
    split at hrun <;>
    · cases hrun
      exact hinv.of_sameHandlers (.of_pc rfl rfl fun _ _ _ => Pc.noConfusion)
  · rename_i hpc
    have hrecord : p.record .advance t = { p with target := t } := by simp [record, hpc]
    rw [hrecord]
    cases hrun
    exact hinv.of_sameHandlers (.of_pc rfl rfl fun _ _ _ => Pc.noConfusion)

lemma signals (hinv : p.Inv) (hrun : p.target.step action = some t) : (p.record action t).Inv := by
  cases action with
  | sigaction signum act => exact hinv.sigaction hrun
  | sigreturn => exact hinv.sigreturn hrun
  | advance =>
    rw [Target.step] at hrun
    split at hrun
    · exact hinv.advance hrun
    · cases hrun
  | sendSignal | sigprocmask | trap | handleSignals | sleep | wakeup | yieldNow
  | dispatch =>
    exact hinv.of_sameHandlers (Target.step_sameHandlers
      (fun _ _ => Action.noConfusion) Action.noConfusion Action.noConfusion
      hrun)

lemma execve (hinv : p.Inv) (hclean : p.startsClean (.execve frame))
    (hrun : p.target.syscall { p.target.task with trapframe := frame } = some t) :
    Process.Inv { p with target := t, image := p.image + 1 } := by
  obtain ⟨huser, rfl⟩ := Target.syscall_eq_some hrun
  obtain ⟨hactions, hback⟩ := hclean
  refine ⟨?_, ?_, ?_, hinv.ownImage⟩
  · intro signal act hact
    have hnone := hactions signal signal.mem_values
    simp only at hact
    rw [hact] at hnone
    cases hnone
  · intro hsome
    simp only [hback] at hsome
    cases hsome
  intro signal act n hpc
  simp only [huser] at hpc
  cases hpc

end Process.Inv

/-- In every run in which `execve` is only called with no handler registered and
outside of a handler, no signal is delivered to a handler of an earlier image and
no `sigreturn` restores a frame of an earlier image. -/
theorem ownImage_of_startsClean (p : Process)
    (hp : imageMachine.ReachableUnder Process.startsClean p) : p.OwnImage := by
  have hinv : p.Inv := by
    apply hp.invariant
    · rintro _ ⟨frame, registeredIn, savedIn, rfl⟩
      refine ⟨?_, ?_, ?_, ?_⟩
      · intro signal act hact
        cases signal <;> cases hact
      · intro hsome
        cases hsome
      · intro signal act n hpc
        cases hpc
      · intro u hu
        cases hu
    intro q action q' hinv hclean hrun
    cases action with
    | signals action =>
      obtain ⟨t, hstep, rfl⟩ := Option.map_eq_some_iff.mp hrun
      exact hinv.signals hstep
    | execve frame =>
      obtain ⟨t, hstep, rfl⟩ := Option.map_eq_some_iff.mp hrun
      exact hinv.execve hclean hstep
  exact hinv.ownImage

/-! ### Two runs -/

def Process.boot : Process where
  target := .boot
  image := 0
  registeredIn := fun _ => 0
  savedIn := 0
  history := []

lemma Process.boot_start : imageMachine.start Process.boot := ⟨Trapframe.zero, fun _ => 0, 0, rfl⟩

def registerInt : ImageAction := .signals (.sigaction .sigint { sigHandler := 0x1000, mask := 0 })

def deliverInt : List ImageAction :=
  [.signals (.sendSignal Signal.sigint.toSingalFlags), .signals .handleSignals,
    .signals .advance, .signals .advance, .signals .advance, .signals .advance]

def freshTrace : List ImageAction :=
  [.signals .dispatch, .execve Trapframe.zero, registerInt] ++ deliverInt

theorem freshTrace_ownImage :
    ∃ p, imageMachine.runUnder Process.startsClean .boot freshTrace = some p ∧
      p.history = [⟨.delivered, 1, 1⟩] ∧ p.OwnImage := by
  have hrun : ((imageMachine.runUnder Process.startsClean .boot
      freshTrace).map fun p => p.history) = some [⟨.delivered, 1, 1⟩] := by
    decide +kernel
  obtain ⟨p, hp, hhistory⟩ := Option.map_eq_some_iff.mp hrun
  exact ⟨p, hp, hhistory, ownImage_of_startsClean p
    ((Machine.ReachableUnder.start Process.boot_start).runUnder hp)⟩

def staleTrace : List ImageAction :=
  [.signals .dispatch, registerInt, .execve Trapframe.zero] ++ deliverInt

theorem staleTrace_not_ownImage : ¬ ∀ p, imageMachine.Reachable p → p.OwnImage := by
  intro hall
  have hrun : ((imageMachine.run .boot staleTrace).map fun p => p.history) =
      some [⟨.delivered, 0, 1⟩] := by
    decide +kernel
  obtain ⟨p, hp, hhistory⟩ := Option.map_eq_some_iff.mp hrun
  have hown := hall p (Machine.Reachable.run (.start Process.boot_start) hp)
  have hstale := hown ⟨.delivered, 0, 1⟩ (by rw [hhistory]; exact .head _)
  cases hstale

end Redwing.Signals
