/-
`BoolCondvar`, after `sync/condvar.rs` and `sync/wait.rs`: a flag and a wait
queue with a spinlock each.  A waiter takes the lock of the queue before it lets
go of the flag, and a notifier before it sets the flag, so no wake-up is lost as
long as the locks exclude each other.  They do not on the CPU of a `reset` that
has been interrupted: there `lock_irq` finds the lock held by its own CPU and
returns a second guard, which releases the lock when it is dropped.
-/
import Redwing.Guards
import Redwing.Machine

namespace Redwing.Condvar

open Function List

/-- Where a task or an interrupt handler is. -/
inductive Pc
  | idle
  | waitLock
  | waitTest
  /-- The flag is `false`: about to lock the queue, and then to drop the flag. -/
  | waitQueue
  | waitDrop
  /-- In `WaitQueueGuard::wait`, about to queue itself, block and release the
  queue. -/
  | waitPush
  | parked
  | notifyLock
  | notifyQueue
  | notifySet
  | draining
  | resetLock
  | resetSet
deriving DecidableEq

inductive Event
  | set
  | reset
deriving DecidableEq

/-- A lock that is held has the number of the CPU that took it in its `cpuid`.
`history` are the changes of the flag since it was made, the last one first,
which the code does not keep. -/
structure Sys where
  cond : Bool
  condLock : Option Nat
  condCpu : Nat
  queue : List Nat
  queueLock : Option Nat
  queueCpu : Nat
  pc : Nat → Pc
  history : List Event

def new (initCond : Bool) : Sys where
  cond := initCond
  condLock := none
  condCpu := 0
  queue := []
  queueLock := none
  queueCpu := 0
  pc := fun _ => .idle
  history := [if initCond then .set else .reset]

inductive Call
  | wait
  | notify
  | reset
deriving DecidableEq

def Call.entry : Call → Pc
  | .wait => .waitLock
  | .notify => .notifyLock
  | .reset => .resetLock

inductive Act
  | call (t : Nat) (c : Call)
  /-- The next step of `t`, which runs on this CPU. -/
  | step (t cpu : Nat)
deriving DecidableEq

namespace Sys

variable (isTask : Nat → Bool) (s : Sys) (t cpu : Nat)

def goto (pc : Pc) : Sys := { s with pc := update s.pc t pc }

/-- `Spinlock::is_held` of the flag, on a CPU. -/
def heldCond : Bool := s.condLock.isSome && s.condCpu == cpu

/-- `Spinlock::is_held` of the queue, on a CPU. -/
def heldQueue : Bool := s.queueLock.isSome && s.queueCpu == cpu

/-- `Spinlock::lock` on the flag, which waits until it is free. -/
def lockCond (pc : Pc) : Option Sys :=
  if s.condLock = none then some { s.goto t pc with condLock := some t, condCpu := cpu }
  else none

/-- `Spinlock::lock_irq` on the flag: if this CPU holds it already, the call goes
on with a guard of its own and does not wait. -/
def lockCondIrq (pc : Pc) : Option Sys :=
  if s.heldCond cpu then some (s.goto t pc) else s.lockCond t cpu pc

/-- The drop of a guard, whoever holds the lock by now. -/
def unlockCond (pc : Pc) : Sys := { s.goto t pc with condLock := none }

/-- `Spinlock::lock_irq` on the queue. -/
def lockQueueIrq (pc : Pc) : Option Sys :=
  if s.heldQueue cpu then some (s.goto t pc)
  else if s.queueLock = none then some { s.goto t pc with queueLock := some t, queueCpu := cpu }
  else none

def unlockQueue (pc : Pc) : Sys := { s.goto t pc with queueLock := none }

/-- `WaitQueueGuard::wakeup`: the task goes back to the lock of the flag. -/
def wakeup (task : Nat) : Sys :=
  if s.pc task = .parked then s.goto task .waitLock else s

/-- The next step of `t` on `cpu`.  `isTask` tells where `current_task` is a
task: elsewhere `WaitQueueGuard::wait` does not block. -/
def step : Option Sys :=
  match s.pc t with
  | .idle | .parked => none
  | .waitLock => s.lockCondIrq t cpu .waitTest
  | .waitTest =>
    if s.cond then some (s.unlockCond t .idle) else some (s.goto t .waitQueue)
  | .waitQueue => s.lockQueueIrq t cpu .waitDrop
  | .waitDrop => some (s.unlockCond t .waitPush)
  | .waitPush =>
    if isTask t then some { s.unlockQueue t .parked with queue := s.queue ++ [t] }
    else some (s.unlockQueue t .waitLock)
  | .notifyLock => s.lockCondIrq t cpu .notifyQueue
  | .notifyQueue => s.lockQueueIrq t cpu .notifySet
  | .notifySet =>
    some { s.unlockCond t .draining with
      cond := true
      history := .set :: s.history }
  | .draining =>
    match s.queue with
    | [] => some (s.unlockQueue t .idle)
    | task :: rest => some ({ s with queue := rest }.wakeup task)
  | .resetLock => s.lockCond t cpu .resetSet
  | .resetSet =>
    some { s.unlockCond t .idle with
      cond := false
      history := .reset :: s.history }

end Sys

/-- Any number of tasks and handlers that wait, notify and reset. -/
def machine (isTask : Nat → Bool) : Machine Sys Act where
  start s := ∃ initCond, s = new initCond
  step s
    | .call t c =>
      if s.pc t = .idle then some (s.goto t c.entry) else none
    | .step t cpu => s.step isTask t cpu

/-- The condition on a step: a `lock_irq` does not find its lock held by the CPU
that it runs on. -/
def Sys.excludes (s : Sys) : Act → Bool
  | .call _ _ => true
  | .step t cpu =>
    match s.pc t with
    | .waitLock | .notifyLock => !s.heldCond cpu
    | .waitQueue | .notifyQueue => !s.heldQueue cpu
    | _ => true

/-! ### The invariant -/

namespace Pc

def holdsCond : Pc → Bool
  | .waitTest | .waitQueue | .waitDrop | .notifyQueue | .notifySet
  | .resetSet => true
  | _ => false

def holdsQueue : Pc → Bool
  | .waitDrop | .waitPush | .notifySet | .draining => true
  | _ => false

def blocking : Pc → Bool
  | .waitQueue | .waitDrop | .waitPush => true
  | _ => false

end Pc

/-- `blocking`: the flag cannot be set while a task is about to block. -/
structure Inv (s : Sys) : Prop where
  cond : Guards s.condLock fun t => (s.pc t).holdsCond = true
  queue : Guards s.queueLock fun t => (s.pc t).holdsQueue = true
  parked : ∀ t, s.pc t = .parked ↔ t ∈ s.queue
  nodup : s.queue.Nodup
  blocking : ∀ t, (s.pc t).blocking = true → s.cond = false
  served : s.cond = true → s.queue ≠ [] → ∃ n, s.pc n = .draining
  history : s.cond = true → s.history.head? = some .set

namespace Inv

variable {isTask : Nat → Bool} {s : Sys} {t : Nat} {p : Pc}

section

variable (h : Inv s)

include h

lemma cond_keep (hp : p.holdsCond = (s.pc t).holdsCond) :
    Guards s.condLock fun u => (update s.pc t p u).holdsCond = true :=
  h.cond.keep fun u => by rw [apply_update_eq Pc.holdsCond hp]

lemma cond_release (hold : (s.pc t).holdsCond = true) (hp : p.holdsCond = false) :
    Guards none fun u => (update s.pc t p u).holdsCond = true :=
  h.cond.release_goto (f := fun _ p => Pc.holdsCond p = true) hold (by simp [hp])

lemma queue_keep (hp : p.holdsQueue = (s.pc t).holdsQueue) :
    Guards s.queueLock fun u => (update s.pc t p u).holdsQueue = true :=
  h.queue.keep fun u => by rw [apply_update_eq Pc.holdsQueue hp]

lemma queue_release (hold : (s.pc t).holdsQueue = true) (hp : p.holdsQueue = false) :
    Guards none fun u => (update s.pc t p u).holdsQueue = true :=
  h.queue.release_goto (f := fun _ p => Pc.holdsQueue p = true) hold (by simp [hp])

lemma parked_goto (hold : s.pc t ≠ .parked) (hp : p ≠ .parked)
    (u : Nat) : update s.pc t p u = .parked ↔ u ∈ s.queue := by
  rw [← h.parked u]
  by_cases hu : u = t
  · subst hu
    rw [update_self]
    exact iff_of_false hp hold
  · rw [update_of_ne hu]

lemma blocking_goto (hp : p.blocking = true → s.cond = false) (u : Nat)
    (hu : (update s.pc t p u).blocking = true) : s.cond = false := by
  by_cases hut : u = t
  · subst hut
    rw [update_self] at hu
    exact hp hu
  · rw [update_of_ne hut] at hu
    exact h.blocking u hu

lemma served_goto (hold : s.pc t ≠ .draining) (hcond : s.cond = true) (hqueue : s.queue ≠ []) :
    ∃ n, update s.pc t p n = .draining := by
  obtain ⟨n, hn⟩ := h.served hcond hqueue
  refine ⟨n, ?_⟩
  rwa [update_of_ne]
  rintro rfl
  exact hold hn

lemma move (hcond : Guards condLock fun u => (update s.pc t p u).holdsCond = true)
    (hqueue : Guards queueLock fun u => (update s.pc t p u).holdsQueue = true)
    (hold : s.pc t ≠ .parked ∧ s.pc t ≠ .draining) (hp : p ≠ .parked)
    (hblocking : p.blocking = true → s.cond = false) :
    Inv { s.goto t p with condLock, condCpu, queueLock, queueCpu } :=
  ⟨hcond, hqueue, h.parked_goto hold.1 hp, h.nodup, h.blocking_goto hblocking,
    h.served_goto hold.2, h.history⟩

lemma push (hpc : s.pc t = .waitPush) :
    Inv { s.unlockQueue t .parked with queue := s.queue ++ [t] } := by
  have hfalse : s.cond = false := h.blocking t (by rw [hpc]; rfl)
  have hnot : t ∉ s.queue := by
    intro hmem
    cases hpc.symm.trans ((h.parked t).mpr hmem)
  refine ⟨h.cond_keep (by rw [hpc]; rfl), h.queue_release (by rw [hpc]; rfl) rfl, fun u => ?_, ?_,
    fun u _ => hfalse, fun htrue => ?_, h.history⟩
  · rw [mem_append, mem_singleton, ← h.parked u]
    change update s.pc t .parked u = .parked ↔ _
    by_cases hu : u = t
    · subst hu
      rw [update_self]
      exact iff_of_true rfl (.inr rfl)
    · rw [update_of_ne hu]
      exact ⟨.inl, fun hpark => hpark.resolve_right hu⟩
  · refine nodup_append.mpr ⟨h.nodup, pairwise_singleton _ t, ?_⟩
    rintro u hu v hv rfl
    exact hnot (mem_singleton.mp hv ▸ hu)
  · cases hfalse.symm.trans htrue

/-- The notifier has both locks, so nobody is about to block. -/
lemma set (hpc : s.pc t = .notifySet) : Inv { s.unlockCond t .draining with
    cond := true, history := .set :: s.history } := by
  have hcond : (s.pc t).holdsCond = true := by rw [hpc]; rfl
  have hqueue : (s.pc t).holdsQueue = true := by rw [hpc]; rfl
  refine ⟨h.cond_release hcond rfl, h.queue_keep (by rw [hpc]; rfl),
    h.parked_goto (by rw [hpc]; nofun) nofun, h.nodup, fun u hu => ?_,
    fun _ _ => ⟨t, update_self ..⟩, fun _ => rfl⟩
  change (update s.pc t .draining u).blocking = true at hu
  have hut : u ≠ t := by
    rintro rfl
    rw [update_self] at hu
    cases hu
  rw [update_of_ne hut] at hu
  have hlock : (s.pc u).holdsCond = true ∨ (s.pc u).holdsQueue = true := by
    revert hu
    cases s.pc u <;> decide
  rcases hlock with hlock | hlock
  · exact absurd (h.cond.sole hlock hcond) hut
  · exact absurd (h.queue.sole hlock hqueue) hut

lemma pop (hqueue : s.queue = task :: rest) : Inv ({ s with queue := rest }.wakeup task) := by
  have hnodup := h.nodup
  rw [hqueue, nodup_cons] at hnodup
  have hpark : s.pc task = .parked := (h.parked task).mpr (by simp [hqueue])
  have hwake : ({ s with queue := rest } : Sys).wakeup task =
      { s.goto task .waitLock with queue := rest } := if_pos hpark
  rw [hwake]
  refine ⟨h.cond_keep (by rw [hpark]; rfl), h.queue_keep (by rw [hpark]; rfl), fun u => ?_,
    hnodup.2, h.blocking_goto nofun,
    fun hcond _ => h.served_goto (by rw [hpark]; nofun) hcond (by simp [hqueue]), h.history⟩
  have hold := h.parked u
  rw [hqueue, mem_cons] at hold
  change update s.pc task .waitLock u = .parked ↔ u ∈ rest
  by_cases hu : u = task
  · subst hu
    rw [update_self]
    exact iff_of_false nofun hnodup.1
  · rw [update_of_ne hu, hold]
    exact or_iff_right hu

lemma done (hpc : s.pc t = .draining) (hqueue : s.queue = []) : Inv (s.unlockQueue t .idle) := by
  refine ⟨h.cond_keep (by rw [hpc]; rfl), h.queue_release (by rw [hpc]; rfl) rfl,
    h.parked_goto (by rw [hpc]; nofun) nofun, h.nodup, h.blocking_goto nofun,
    fun _ hne => absurd hqueue hne, h.history⟩

lemma reset (hpc : s.pc t = .resetSet) : Inv { s.unlockCond t .idle with
    cond := false, history := .reset :: s.history } :=
  ⟨h.cond_release (by rw [hpc]; rfl) rfl, h.queue_keep (by rw [hpc]; rfl),
    h.parked_goto (by rw [hpc]; nofun) nofun, h.nodup, fun _ _ => rfl, nofun, nofun⟩

lemma lockCond (hs : s.lockCond t cpu p = some s') (hp : p.holdsCond = true ∧ p.holdsQueue = false)
    (hold : (s.pc t).holdsQueue = false) (hpc : s.pc t ≠ .parked ∧ s.pc t ≠ .draining)
    (hblocking : p.blocking = false) : Inv s' := by
  obtain ⟨hfree, heq⟩ := Option.ite_none_right_eq_some.mp hs
  cases heq
  refine h.move ?_ (h.queue_keep (hp.2.trans hold.symm)) hpc
    (by rintro rfl; cases hp.1) (by simp [hblocking])
  exact h.cond.acquire_goto (f := fun _ p => Pc.holdsCond p = true) hfree hp.1

lemma lockQueue (hs : s.lockQueueIrq t cpu p = some s') (hfree : s.heldQueue cpu = false)
    (hp : p.holdsCond = true ∧ p.holdsQueue = true)
    (hold : (s.pc t).holdsCond = true) (hpc : s.pc t ≠ .parked ∧ s.pc t ≠ .draining)
    (hblocking : p.blocking = true → (s.pc t).blocking = true) : Inv s' := by
  rw [Sys.lockQueueIrq, hfree, if_neg Bool.false_ne_true] at hs
  obtain ⟨hfree, heq⟩ := Option.ite_none_right_eq_some.mp hs
  cases heq
  refine h.move (h.cond_keep (hp.1.trans hold.symm)) ?_ hpc
    (by rintro rfl; cases hp.1) fun hb => h.blocking t (hblocking hb)
  exact h.queue.acquire_goto (f := fun _ p => Pc.holdsQueue p = true) hfree hp.2

lemma step (hok : s.excludes (.step t cpu) = true)
    (hstep : s.step isTask t cpu = some s') : Inv s' := by
  unfold Sys.step at hstep
  unfold Sys.excludes at hok
  cases hpc : s.pc t <;> simp only [hpc, Bool.not_eq_true'] at hstep hok
  case idle | parked => cases hstep
  case waitLock | notifyLock =>
    rw [Sys.lockCondIrq, hok, if_neg Bool.false_ne_true] at hstep
    exact h.lockCond hstep ⟨rfl, rfl⟩ (by rw [hpc]; rfl) (by rw [hpc]; exact ⟨nofun, nofun⟩) rfl
  case resetLock =>
    exact h.lockCond hstep ⟨rfl, rfl⟩ (by rw [hpc]; rfl) (by rw [hpc]; exact ⟨nofun, nofun⟩) rfl
  case waitQueue | notifyQueue =>
    exact h.lockQueue hstep hok ⟨rfl, rfl⟩ (by rw [hpc]; rfl)
      (by rw [hpc]; exact ⟨nofun, nofun⟩) (by rw [hpc]; exact id)
  case waitTest =>
    split at hstep <;> cases hstep
    · exact h.move (h.cond_release (by rw [hpc]; rfl) rfl) (h.queue_keep (by rw [hpc]; rfl))
        (by rw [hpc]; exact ⟨nofun, nofun⟩) nofun nofun
    · rename_i hfalse
      exact h.move (h.cond_keep (by rw [hpc]; rfl))
        (h.queue_keep (by rw [hpc]; rfl)) (by rw [hpc]; exact ⟨nofun, nofun⟩)
        nofun fun _ => Bool.not_eq_true _ ▸ hfalse
  case waitDrop =>
    cases hstep
    exact h.move (h.cond_release (by rw [hpc]; rfl) rfl) (h.queue_keep (by rw [hpc]; rfl))
      (by rw [hpc]; exact ⟨nofun, nofun⟩) nofun fun _ => h.blocking t (by rw [hpc]; rfl)
  case waitPush =>
    split at hstep <;> cases hstep
    · exact h.push hpc
    · exact h.move (h.cond_keep (by rw [hpc]; rfl)) (h.queue_release (by rw [hpc]; rfl) rfl)
        (by rw [hpc]; exact ⟨nofun, nofun⟩) nofun nofun
  case notifySet =>
    cases hstep
    exact h.set hpc
  case draining =>
    split at hstep <;> cases hstep
    · exact h.done hpc ‹_›
    · exact h.pop ‹_›
  case resetSet =>
    cases hstep
    exact h.reset hpc

end
end Inv

lemma inv_new (initCond : Bool) : Inv (new initCond) := by
  refine ⟨fun _ => iff_of_false nofun nofun, fun _ => iff_of_false nofun nofun,
    fun t => ?_, .nil, nofun, ?_, ?_⟩
  · exact iff_of_false nofun not_mem_nil
  · exact fun _ hne => absurd rfl hne
  · rintro rfl
    rfl

lemma inv_machine (h : Inv s) (hok : s.excludes a = true)
    (hstep : (machine isTask).step s a = some s') : Inv s' := by
  cases a with
  | step t cpu => exact h.step hok hstep
  | call t c =>
    obtain ⟨hidle, heq⟩ := Option.ite_none_right_eq_some.mp hstep
    cases heq
    exact h.move (h.cond_keep (by rw [hidle]; cases c <;> rfl))
      (h.queue_keep (by rw [hidle]; cases c <;> rfl)) (by rw [hidle]; exact ⟨nofun, nofun⟩)
      (by cases c <;> nofun) (by cases c <;> nofun)

def SetSinceReset (history : List Event) : Prop :=
  ∃ newer older, history = newer ++ .set :: older ∧ .reset ∉ newer

/-- While the locks exclude each other, no notification is lost.  Whenever a task
is blocked in `wait` while the flag is `true`, it is in the queue and a notifier
is in its loop over the queue, which ends when the queue is empty; and whenever a
step of a task returns from `wait`, the flag was set after its last reset. -/
theorem no_lost_notification (isTask : Nat → Bool) {s : Sys}
    (h : (machine isTask).ReachableUnder (fun s a => s.excludes a = true) s) :
    (∀ t, s.pc t = .parked → s.cond = true → t ∈ s.queue ∧ ∃ n, s.pc n = .draining) ∧
    ∀ t cpu s', s.pc t = .waitTest → s.step isTask t cpu = some s' →
      s'.pc t = .idle → SetSinceReset s.history := by
  have hinv : Inv s := by
    refine h.invariant ?_ fun _ _ _ hinv hok hstep => inv_machine hinv hok hstep
    rintro s ⟨initCond, rfl⟩
    exact inv_new initCond
  refine ⟨fun t hpark hcond => ?_, fun t cpu s' hpc hstep hidle => ?_⟩
  · have hmem := (hinv.parked t).mp hpark
    exact ⟨hmem, hinv.served hcond (ne_nil_of_mem hmem)⟩
  simp only [Sys.step, hpc] at hstep
  split at hstep <;> cases hstep
  · rename_i hcond
    obtain ⟨older, hh⟩ := head?_eq_some_iff.mp (hinv.history hcond)
    exact ⟨[], older, hh, not_mem_nil⟩
  · simp [Sys.goto] at hidle

/-- Task 1 waits on CPU 0, and a handler on CPU 1 notifies it. -/
def servedTrace : List Act :=
  .call 1 .wait :: replicate 5 (.step 1 0) ++ .call 2 .notify :: replicate 3 (.step 2 1)

theorem no_lost_notification_served : ∃ s, (machine fun _ => true).Reachable s ∧ s.pc 1 = .parked ∧
      s.cond = true ∧ 1 ∈ s.queue ∧ ∃ n, s.pc n = .draining := by
  obtain ⟨s, hrun, heq⟩ := Option.map_eq_some_iff.mp (show ((machine fun _ => true).runUnder
      (fun s a => s.excludes a = true) (new false) servedTrace).map
      (fun s => (s.pc 1, s.cond)) = some (.parked, true) by decide)
  obtain ⟨hpark, hcond⟩ := Prod.mk.inj heq
  have hstart : (machine fun _ => true).ReachableUnder (fun s a => s.excludes a = true)
      (new false) := .start ⟨false, rfl⟩
  have hs := hstart.runUnder hrun
  exact ⟨s, hs.mono fun _ _ _ => trivial, hpark, hcond, (no_lost_notification _ hs).1 1 hpark hcond⟩

/-- Thread 1 resets on CPU 0 and holds the flag.  There a handler, 2, notifies
with a second guard and so releases the flag.  On CPU 1 the notifier 3 takes it,
and the end of the reset releases it once more.  Task 4 finds it free and
`false` on CPU 2; the notifier sets it and finds nobody in the queue; task 4
blocks. -/
def interruptedReset : List Act :=
  .call 1 .reset :: .step 1 0 :: .call 2 .notify :: replicate 4 (.step 2 0) ++
    .call 3 .notify :: .step 3 1 :: .step 1 0 :: .call 4 .wait :: replicate 2 (.step 4 2) ++
    replicate 3 (.step 3 1) ++ replicate 3 (.step 4 2)

theorem interruptedReset_loses : ∃ s, (machine fun _ => true).Reachable s ∧
    s.pc 4 = .parked ∧ s.cond = true ∧ ∀ n, n ≠ 4 → s.pc n = .idle := by
  obtain ⟨s, hrun, heq⟩ := Option.map_eq_some_iff.mp (show ((machine fun _ => true).run (new false)
      interruptedReset).map (fun s => (s.cond, s.pc 0, s.pc 1, s.pc 2, s.pc 3, s.pc 4)) =
      some (true, .idle, .idle, .idle, .idle, .parked) by decide)
  simp only [Prod.mk.injEq] at heq
  obtain ⟨hcond, h0, h1, h2, h3, h4⟩ := heq
  refine ⟨s, Machine.Reachable.run (.start ⟨false, rfl⟩) hrun, h4, hcond, fun n hn => ?_⟩
  match n with
  | 0 => exact h0
  | 1 => exact h1
  | 2 => exact h2
  | 3 => exact h3
  | 4 => exact absurd rfl hn
  | n + 5 =>
    -- No step of the trace touches a thread above 4.
    have hidle : ((machine fun _ => true).run (new false) interruptedReset).map
        (fun s => s.pc (n + 5)) = some .idle := rfl
    rw [hrun] at hidle
    exact Option.some.inj hidle

end Redwing.Condvar
