/-
The kernel spinlock as a machine of single atomic accesses.  Every load, store
and `compare_exchange` of `_lock`, `is_held` and `force_unlock_unchecked` is
one step; any number of CPUs interleave them.
-/
import Redwing.Machine
import Redwing.Cpu

namespace Redwing.Spinlock

/-- What the guard does to the interrupt state when it is dropped. -/
inductive CloseIntr
  | dont
  | popOff
  | intrRestore (flag : Bool)
deriving DecidableEq

/-- The two acquiring calls. -/
inductive LockCall
  | lockIrq
  | lockIrqSave
deriving DecidableEq

/-- Where a CPU stands in the code of the lock.  The arguments are the locals
that are live there. -/
inductive Pc
  | idle
  | loadCpuid (close : CloseIntr)
  | loadIsLocked (close : CloseIntr) (curCpuid : Int)
  /-- In `_lock`, about to try the `compare_exchange`. -/
  | spin (close : CloseIntr)
  | storeCpuid (close : CloseIntr)
  | guarded (close : CloseIntr)
  /-- In the guard's drop, `cpuid` is already `-1`. -/
  | dropping (close : CloseIntr)
deriving DecidableEq

/-- One lock, and for every CPU its place in the code and its interrupt
state. -/
structure State where
  isLocked : Bool
  cpuid : Int
  pc : Nat → Pc
  cpu : Nat → Cpu

def State.new (cpu : Nat → Cpu) : State where
  isLocked := false
  cpuid := 0
  pc := fun _ => .idle
  cpu := cpu

/-- One atomic access, or one call or return, of the CPU it names. -/
inductive Action
  | call (c : Nat) (kind : LockCall)
  | access (c : Nat)
  | dropGuard (c : Nat)
deriving DecidableEq

@[simps isLocked cpuid] def State.setPc (s : State) (c : Nat) (pc : Pc) : State :=
  { s with pc := fun d => if d = c then pc else s.pc d }

@[simps pc isLocked cpuid] def State.setCpu (s : State) (c : Nat) (cpu : Cpu) : State :=
  { s with cpu := fun d => if d = c then cpu else s.cpu d }

/-- The head of `lock_irq` and `lock_irq_save`: interrupts go off and the way
back is remembered in the guard to be. -/
def State.enter (s : State) (c : Nat) : LockCall → State
  | .lockIrq => (s.setCpu c (s.cpu c).pushOff).setPc c (.loadCpuid .popOff)
  | .lockIrqSave =>
    let (flag, cpu) := (s.cpu c).intrOffStore
    (s.setCpu c cpu).setPc c (.loadCpuid (.intrRestore flag))

def CloseIntr.apply (cpu : Cpu) : CloseIntr → Cpu
  | .dont => cpu
  | .popOff => cpu.popOff
  | .intrRestore flag => cpu.intrRestore flag

/-- The next atomic access of CPU `c`.  The nesting branch of `lock_irq` and
`lock_irq_save` returns a guard with `CloseIntr::Dont` and touches nothing. -/
def State.access (s : State) (c : Nat) : Option State :=
  match s.pc c with
  | .idle => none
  | .loadCpuid close => some (s.setPc c (.loadIsLocked close s.cpuid))
  | .loadIsLocked close curCpuid =>
    if s.isLocked = true ∧ curCpuid = (c : Int) then some (s.setPc c (.guarded .dont))
    else some (s.setPc c (.spin close))
  | .spin close =>
    if s.isLocked = false then some ({ s with isLocked := true }.setPc c (.storeCpuid close))
    else some s
  | .storeCpuid close => some ({ s with cpuid := (c : Int) }.setPc c (.guarded close))
  | .guarded _ => none
  | .dropping close =>
    some (({ s with isLocked := false }.setPc c .idle).setCpu c (close.apply (s.cpu c)))

/-- A CPU calls only from outside the lock: it never requests the lock while
it holds it.  `dropGuard` is the first store of `force_unlock_unchecked`. -/
def State.step (s : State) : Action → Option State
  | .call c kind => if s.pc c = .idle then some (s.enter c kind) else none
  | .access c => s.access c
  | .dropGuard c =>
    match s.pc c with
    | .guarded close => some ({ s with cpuid := -1 }.setPc c (.dropping close))
    | _ => none

/-- All runs of any number of CPUs on a freshly constructed lock. -/
def machine : Machine State Action where
  start s := ∃ cpu, s = State.new cpu
  step := State.step

/-- The CPU owns a guard: it has been returned and its drop has not
finished. -/
def State.HoldsGuard (s : State) (c : Nat) : Prop :=
  ∃ close, s.pc c = .guarded close ∨ s.pc c = .dropping close

def State.MutualExclusion (s : State) : Prop := ∀ c d, s.HoldsGuard c → s.HoldsGuard d → c = d

@[simp] lemma State.setPc_pc (s : State) (pc : Pc) :
    (s.setPc c pc).pc d = if d = c then pc else s.pc d := rfl

/-- The program points between a successful exchange and the store that
releases the flag. -/
def Pc.critical : Pc → Bool
  | .storeCpuid _ | .guarded _ | .dropping _ => true
  | _ => false

/-- `is_held` on CPU `0` samples the flag of a locked lock after having read
the owner `0`.  A CPU that asks for the lock does not hold it, so this `0` can
only be the initial value that no acquirer has overwritten yet. -/
def State.readsInitialOwner (s : State) : Action → Bool
  | .access c =>
    match s.pc c with
    | .loadIsLocked _ curCpuid => s.isLocked && c == 0 && curCpuid == 0
    | _ => false
  | _ => false

/-- What every admitted step keeps: the flag is set while some CPU is in its
critical points, at most one is, and an owner id other than `0` is only ever
read as one's own by the CPU that holds the lock. -/
structure State.Inv (s : State) : Prop where
  locked : ∀ c, (s.pc c).critical = true → s.isLocked = true
  unique : ∀ c d, (s.pc c).critical = true → (s.pc d).critical = true → c = d
  owner : ∀ c : Nat, c ≠ 0 → s.cpuid = (c : Int) → ∃ close, s.pc c = .guarded close
  read : ∀ (c : Nat) close curCpuid, c ≠ 0 →
    s.pc c = .loadIsLocked close curCpuid → curCpuid ≠ (c : Int)

lemma State.new_inv (cpu : Nat → Cpu) : (State.new cpu).Inv where
  locked c hc := by simp [State.new, Pc.critical] at hc
  unique c d hc := by simp [State.new, Pc.critical] at hc
  owner c hc heq := by
    simp only [State.new] at heq
    omega
  read c close curCpuid _ hpc := by simp [State.new] at hpc

variable {s : State}

/-- A CPU that moves between two points outside the critical ones, without
writing the lock, keeps the invariant if an owner it read is not its own. -/
lemma State.Inv.setPc (hinv : s.Inv) {pc : Pc}
    (hold : (s.pc c).critical = false) (hnew : pc.critical = false)
    (hread : ∀ close curCpuid, pc = .loadIsLocked close curCpuid →
      c ≠ 0 → curCpuid ≠ (c : Int)) : (s.setPc c pc).Inv where
  locked d hd := by
    by_cases hdc : d = c
    · simp [hdc, hnew] at hd
    · exact hinv.locked d (by simpa [hdc] using hd)
  unique d e hd he := by
    by_cases hdc : d = c
    · simp [hdc, hnew] at hd
    by_cases hec : e = c
    · simp [hec, hnew] at he
    · exact hinv.unique d e (by simpa [hdc] using hd) (by simpa [hec] using he)
  owner d hd heq := by
    obtain ⟨close, hpc⟩ := hinv.owner d hd heq
    have hdc : d ≠ c := by
      rintro rfl
      simp [hpc, Pc.critical] at hold
    exact ⟨close, by simpa [hdc] using hpc⟩
  read d close curCpuid hd hpc := by
    by_cases hdc : d = c
    · simp only [State.setPc_pc, hdc, ↓reduceIte] at hpc
      exact hdc ▸ hread close curCpuid hpc (hdc ▸ hd)
    · exact hinv.read d close curCpuid hd (by simpa [hdc] using hpc)

lemma State.Inv.setCpu (hinv : s.Inv) (c : Nat) (cpu : Cpu) : (s.setCpu c cpu).Inv :=
  ⟨hinv.locked, hinv.unique, hinv.owner, hinv.read⟩

lemma State.Inv.enter (hinv : s.Inv)
    (hidle : s.pc c = .idle) (kind : LockCall) : (s.enter c kind).Inv := by
  cases kind with
  | lockIrq | lockIrqSave =>
    exact (hinv.setCpu c _).setPc (by simp [hidle, Pc.critical]) rfl (by simp)

/-- The successful exchange: no CPU was critical, because the flag was
clear. -/
lemma State.Inv.exchange (hinv : s.Inv) (hpc : s.pc c = .spin close) (hfree : s.isLocked = false) :
    ({ s with isLocked := true }.setPc c (.storeCpuid close)).Inv := by
  have hnone : ∀ d, (s.pc d).critical = false := by
    intro d
    by_contra hd
    have hset := hinv.locked d (by simpa using hd)
    simp [hfree] at hset
  refine ⟨fun _ _ => rfl, ?_, ?_, ?_⟩
  · intro d e hd he
    have hdc : d = c := by
      by_contra hdc
      simp [hdc, hnone d] at hd
    have hec : e = c := by
      by_contra hec
      simp [hec, hnone e] at he
    rw [hdc, hec]
  · intro d hd heq
    obtain ⟨held, hheld⟩ := hinv.owner d hd heq
    have hcrit := hnone d
    simp [hheld, Pc.critical] at hcrit
  intro d held curCpuid hd hread
  have hdc : d ≠ c := by
    rintro rfl
    simp at hread
  exact hinv.read d held curCpuid hd (by simpa [hdc] using hread)

/-- A critical CPU that moves to another critical point and writes `cpuid`
keeps the invariant when the value written is its own id and the point is the
guard, or when the value is no CPU's id. -/
lemma State.Inv.storeCpuid (hinv : s.Inv) {pc : Pc} (hold : (s.pc c).critical = true)
    (hnew : pc.critical = true) (value : Int)
    (hvalue : (value = (c : Int) ∧ ∃ close, pc = .guarded close) ∨ value < 0) :
    ({ s with cpuid := value }.setPc c pc).Inv := by
  have hothers : ∀ d, d ≠ c → (s.pc d).critical = false := by
    intro d hd
    by_contra hcrit
    exact hd (hinv.unique d c (by simpa using hcrit) hold)
  refine ⟨fun _ _ => hinv.locked c hold, ?_, ?_, ?_⟩
  · intro d e hd he
    have hdc : d = c := by
      by_contra hdc
      simp [hdc, hothers d hdc] at hd
    have hec : e = c := by
      by_contra hec
      simp [hec, hothers e hec] at he
    rw [hdc, hec]
  · intro d hd heq
    simp only [State.setPc_cpuid] at heq
    rcases hvalue with ⟨hown, close, hpc⟩ | hneg
    · have hdc : d = c := by
        have : (c : Int) = (d : Int) := hown.symm.trans heq
        omega
      exact ⟨close, by simp [hdc, hpc]⟩
    · omega
  intro d close curCpuid hd hread
  by_cases hdc : d = c
  · simp only [State.setPc_pc, hdc, ↓reduceIte] at hread
    simp [hread, Pc.critical] at hnew
  · exact hinv.read d close curCpuid hd (by simpa [hdc] using hread)

lemma State.Inv.release (hinv : s.Inv) (hpc : s.pc c = .dropping close) :
    ({ s with isLocked := false }.setPc c .idle).Inv := by
  have hcrit : (s.pc c).critical = true := by simp [hpc, Pc.critical]
  have hnone : ∀ d, (({ s with isLocked := false }.setPc c .idle).pc d).critical = false := by
    intro d
    by_cases hdc : d = c
    · simp [hdc, Pc.critical]
    · by_contra hd
      exact hdc (hinv.unique d c (by simpa [hdc] using hd) hcrit)
  refine ⟨fun d hd => ?_, fun d e hd => ?_, fun d hd heq => ?_, fun d held curCpuid hd hread => ?_⟩
  · exact absurd hd (by rw [hnone d]; decide)
  · exact absurd hd (by rw [hnone d]; decide)
  · obtain ⟨held, hheld⟩ := hinv.owner d hd heq
    have hdc : d = c := hinv.unique d c (by simp [hheld, Pc.critical]) hcrit
    rw [hdc, hpc] at hheld
    simp at hheld
  have hdc : d ≠ c := by
    rintro rfl
    simp at hread
  exact hinv.read d held curCpuid hd (by simpa [hdc] using hread)

lemma State.Inv.access {t : State} (hinv : s.Inv) (hok : s.readsInitialOwner (.access c) = false)
    (hstep : s.access c = some t) : t.Inv := by
  unfold State.access at hstep
  split at hstep
  · cases hstep
  · rename_i close hpc
    cases hstep
    refine hinv.setPc (by simp [hpc, Pc.critical]) rfl ?_
    intro held curCpuid heq hc howner
    simp only [Pc.loadIsLocked.injEq] at heq
    obtain ⟨_, rfl⟩ := heq
    obtain ⟨guard, hguard⟩ := hinv.owner c hc howner
    simp [hpc] at hguard
  · rename_i close curCpuid hpc
    split at hstep
    · rename_i hheld
      exfalso
      by_cases hc : c = 0
      · subst hc
        simp [State.readsInitialOwner, hpc, hheld.1, hheld.2] at hok
      · exact hinv.read c close curCpuid hc hpc hheld.2
    · cases hstep
      exact hinv.setPc (by simp [hpc, Pc.critical]) rfl (by simp)
  · rename_i close hpc
    split at hstep
    · rename_i hfree
      cases hstep
      exact hinv.exchange hpc hfree
    · cases hstep
      exact hinv
  · rename_i close hpc
    cases hstep
    exact hinv.storeCpuid (by simp [hpc, Pc.critical]) rfl _ (.inl ⟨rfl, close, rfl⟩)
  · cases hstep
  rename_i close hpc
  cases hstep
  exact (hinv.release hpc).setCpu c _

lemma State.Inv.step (hinv : s.Inv) (hok : s.readsInitialOwner action = false)
    (hstep : s.step action = some t) : t.Inv := by
  cases action with
  | call c kind =>
    simp only [State.step, Option.ite_none_right_eq_some, Option.some.injEq] at hstep
    obtain ⟨hidle, rfl⟩ := hstep
    exact hinv.enter hidle kind
  | access c => exact hinv.access hok hstep
  | dropGuard c =>
    simp only [State.step] at hstep
    split at hstep
    · rename_i close hpc
      cases hstep
      exact hinv.storeCpuid (by simp [hpc, Pc.critical]) rfl _ (.inr (by decide))
    · cases hstep

lemma State.HoldsGuard.critical (h : s.HoldsGuard c) : (s.pc c).critical = true := by
  obtain ⟨close, hpc | hpc⟩ := h <;> simp [hpc, Pc.critical]

lemma State.Inv.mutualExclusion (hinv : s.Inv) : s.MutualExclusion :=
  fun c d hc hd => hinv.unique c d hc.critical hd.critical

/-- Mutual exclusion in every run in which CPU `0` never samples a locked flag
with the initial owner in hand. -/
theorem mutualExclusion_of_not_readsInitialOwner (s : State)
    (hs : machine.ReachableUnder (fun s action => s.readsInitialOwner action = false) s) :
    s.MutualExclusion := by
  have hinv : s.Inv := by
    refine hs.invariant (P := State.Inv) ?_ ?_
    · rintro _ ⟨cpu, rfl⟩
      exact State.new_inv cpu
    · intro before action after hbefore hok hstep
      exact hbefore.step hok hstep
  exact hinv.mutualExclusion

/-- CPU `1` takes the lock, then CPU `0` asks for it and starts spinning. -/
def contendedTrace : List Action :=
  [.call 1 .lockIrq, .access 1, .access 1, .access 1, .access 1,
    .call 0 .lockIrqSave, .access 0, .access 0, .access 0]

def bootCpu (_ : Nat) : Cpu := ⟨true, 0, false⟩

theorem contendedTrace_mutualExclusion :
    ∃ s, machine.runUnder (fun s action => s.readsInitialOwner action = false)
        (State.new bootCpu) contendedTrace = some s ∧
      s.HoldsGuard 1 ∧ s.MutualExclusion := by
  have hrun : machine.runUnder (fun s action => s.readsInitialOwner action = false)
      (State.new bootCpu) contendedTrace = some _ := rfl
  refine ⟨_, hrun, ⟨.popOff, .inl rfl⟩, ?_⟩
  apply mutualExclusion_of_not_readsInitialOwner
  exact Machine.ReachableUnder.runUnder (.start ⟨bootCpu, rfl⟩) hrun

/-- CPU `1` has exchanged the flag and not yet stored its id when CPU `0` asks
for the lock: the owner still reads `0`, so CPU `0` takes the nesting branch
and both CPUs hold a guard. -/
def initialOwnerTrace : List Action :=
  [.call 1 .lockIrq, .access 1, .access 1, .access 1,
    .call 0 .lockIrq, .access 0, .access 0, .access 1]

theorem not_mutualExclusion_of_fresh_lock : ¬ ∀ s, machine.Reachable s → s.MutualExclusion := by
  intro hall
  have hrun : machine.run (State.new bootCpu) initialOwnerTrace = some _ := rfl
  have hstart : machine.Reachable (State.new bootCpu) := .start ⟨bootCpu, rfl⟩
  have hreach := hstart.run hrun
  have heq := hall _ hreach 0 1 ⟨.dont, .inl rfl⟩ ⟨.popOff, .inl rfl⟩
  exact absurd heq (by decide)

end Redwing.Spinlock
