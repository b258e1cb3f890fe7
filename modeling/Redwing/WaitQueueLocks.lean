/-
A wait queue with the locks of the tasks that wait on it: each acquisition of a
spinlock is a step that blocks.  The sleeping path takes the queue lock and then
the task lock, an interrupted waiter takes them the other way round.
-/
import Redwing.LockGraph
import Redwing.SignalAccounting

namespace Redwing.WaitQueue

open Proc Function Option

inductive Lock
  | queue
  | task (tid : Nat)
deriving DecidableEq

/-- Where a thread is: the CPU that runs the task of its number, or that
switches to it.  `intr` tells `interruptible_wait` from `wait`. -/
inductive Pc
  | running
  | enter (intr : Bool)
  | pushed (intr : Bool)
  | parking (intr : Bool)
  | switching (intr : Bool)
  | parked (intr : Bool)
  | picked (intr : Bool)
  | resumed (intr : Bool)
  | leaving
  | removing
  | returning
  | signal
  | popping
  | wake (tid : Nat)
  | signalAll
  | draining
  | drain (tid : Nat)
  | drained (tid : Nat)
  | send (tid : Nat) (flags : Signals.SignalFlags)
  | waking (tid : Nat)
deriving DecidableEq

def Pc.waits (c : Nat) : Pc → Option Lock
  | enter _ | leaving | signal | signalAll => some .queue
  | pushed _ | picked _ => some (.task c)
  | wake tid | drain tid | send tid _ => some (.task tid)
  | _ => none

def Pc.holds (c : Nat) : Pc → Lock → Prop
  | pushed _, lock => lock = .queue
  | parking _, lock => lock = .queue ∨ lock = .task c
  | switching _, lock => lock = .task c
  | resumed _, lock => lock = .task c
  | leaving, lock => lock = .task c
  | removing, lock => lock = .queue ∨ lock = .task c
  | returning, lock => lock = .task c
  | popping, lock => lock = .queue
  | draining, lock => lock = .queue
  | drain _, lock => lock = .queue
  | drained tid, lock => lock = .queue ∨ lock = .task tid
  | waking tid, lock => lock = .task tid
  | _, _ => False

/-- The order in which threads wait: for a task lock alone, for the queue lock,
for a task lock under the queue lock, for nothing. -/
def Pc.rank : Pc → Nat
  | wake _ | send _ _ | picked _ => 0
  | enter _ | leaving | signal | signalAll => 1
  | pushed _ | drain _ => 2
  | _ => 3

lemma Pc.rank_of_waits_queue {c : Nat} {p : Pc} (h : p.waits c = some .queue) : p.rank = 1 := by
  cases p <;> first | rfl | cases h

lemma Pc.rank_of_holds_queue {c : Nat} {p : Pc}
    (hwaits : (p.waits c).isSome) (h : p.holds c .queue) : p.rank = 2 := by
  cases p <;> first | rfl | (cases h; done) | cases hwaits

lemma Pc.leaving_of_holds_task {c tid : Nat} {p : Pc} (hwaits : (p.waits c).isSome)
    (h : p.holds c (.task tid)) : p = .leaving ∧ tid = c := by
  cases p with
  | leaving =>
    cases h
    exact ⟨rfl, rfl⟩
  | _ => first | (cases h; done) | cases hwaits

lemma Pc.cases_of_waits_task {c tid : Nat} {p : Pc} (h : p.waits c = some (.task tid)) :
    p.rank = 0 ∨ (∃ intr, p = .pushed intr ∧ tid = c) ∨ p = .drain tid := by
  cases p with
  | pushed intr =>
    cases h
    exact .inr (.inl ⟨intr, rfl, rfl⟩)
  | drain other =>
    cases h
    exact .inr (.inr rfl)
  | wake | send | picked => exact .inl rfl
  | _ => cases h

def lockUse : LockUse Nat Pc Lock where
  waits := Pc.waits
  holds := Pc.holds

structure Sys where
  threads : Threads Nat Pc Lock
  tasks : Nat → Signals.Task
  queue : List Nat

inductive Call
  | wait
  | interruptibleWait
  | signal
  | signalAll
  | sendSignal (tid : Nat) (flags : Signals.SignalFlags)

inductive Action
  | call (c : Nat) (call : Call)
  | advance (c : Nat)
  | proceed (c : Nat) (task : Signals.Task)

/-- `WaitQueueGuard::wakeup`, under the lock of the task. -/
def wakeup (task : Signals.Task) : Signals.Task :=
  if task.state = .zombie then task else task.wakeup

def Call.pc : Call → Pc
  | wait => .enter false
  | interruptibleWait => .enter true
  | signal => .signal
  | signalAll => .signalAll
  | sendSignal tid flags => .send tid flags

namespace Sys

section

variable (s : Sys)

def setTask (tid : Nat) (task : Signals.Task) : Sys := { s with tasks := update s.tasks tid task }

def setQueue (queue : List Nat) : Sys := { s with queue := queue }

def goto (c : Nat) (p : Pc) : Sys := { s with threads := s.threads.goto c p }

def acquire (c : Nat) (lock : Lock) (p : Pc) : Option Sys :=
  (s.threads.acquire c lock p).map fun threads => { s with threads := threads }

def release (c : Nat) (lock : Lock) (p : Pc) : Sys :=
  { s with threads := s.threads.release c lock p }

def advanceWait (c : Nat) : Pc → Option Sys
  | .enter intr => (s.acquire c .queue (.pushed intr)).map (·.setQueue (s.queue ++ [c]))
  | .pushed intr =>
    -- The call asserts that the state is `Running` here.
    if (s.tasks c).state = .running then
      (s.acquire c (.task c) (.parking intr)).map (·.setTask c { s.tasks c with
          state := if intr then .interruptible else .blocked })
    else none
  | .parking intr => some (s.release c .queue (.switching intr))
  | .switching intr => some (s.release c (.task c) (.parked intr))
  | .parked intr =>
    -- A scheduler takes the task out of the ready queue.
    if (s.tasks c).state = .runable then some (s.goto c (.picked intr))
    else none
  | .picked intr =>
    (s.acquire c (.task c) (.resumed intr)).map (·.setTask c { s.tasks c with state := .running })
  | .resumed intr =>
    if intr && (s.tasks c).isInterruptedBySignal then some (s.goto c .leaving)
    else some (s.release c (.task c) .running)
  | .leaving => (s.acquire c .queue .removing).map (·.setQueue (s.queue.filter (· ≠ c)))
  | .removing => some (s.release c .queue .returning)
  | .returning => some (s.release c (.task c) .running)
  | _ => none

def advanceWake (c : Nat) : Pc → Option Sys
  | .signal => s.acquire c .queue .popping
  | .popping =>
    match s.queue with
    | [] => some (s.release c .queue .running)
    | tid :: rest => some ((s.release c .queue (.wake tid)).setQueue rest)
  | .wake tid => (s.acquire c (.task tid) (.waking tid)).map (·.setTask tid (wakeup (s.tasks tid)))
  | .signalAll => s.acquire c .queue .draining
  | .draining =>
    match s.queue with
    | [] => some (s.release c .queue .running)
    | tid :: rest => some ((s.goto c (.drain tid)).setQueue rest)
  | .drain tid =>
    (s.acquire c (.task tid) (.drained tid)).map (·.setTask tid (wakeup (s.tasks tid)))
  | .drained tid => some (s.release c (.task tid) .draining)
  | .send tid flags =>
    (s.acquire c (.task tid) (.waking tid)).map (·.setTask tid ((s.tasks tid).sendSignal flags))
  | .waking tid => some (s.release c (.task tid) .running)
  | _ => none

def step : Action → Option Sys
  | .call c call =>
    if s.threads.pc c = .running then some (s.goto c call.pc) else none
  | .advance c => (s.advanceWait c (s.threads.pc c)).or (s.advanceWake c (s.threads.pc c))
  | .proceed c task =>
    if s.threads.pc c = .running ∧ s.threads.owner (.task c) = none ∧ task.state = .running then
      some (s.setTask c task)
    else none

end
end Sys

def machine : Machine Sys Action where
  start s := (∀ c, s.threads.pc c = .running) ∧
    (∀ l, s.threads.owner l = none) ∧ (∀ c, (s.tasks c).state = .running) ∧
    s.queue = []
  step := Sys.step

namespace Sys

variable {s t : Sys}

def Owned (s : Sys) : Prop := Threads.Owned lockUse s.threads

def Deadlocked (s : Sys) : Prop := Threads.Deadlocked lockUse s.threads

/-- One thread goes to another program point; where the points come from at
which the two orders of the locks could meet. -/
structure Change (s : Sys) (action : Action) (t : Sys) (c : Nat) (p : Pc) :
    Prop where
  threads : Threads.Change lockUse s.threads t.threads c p
  leaving : p = .leaving → action = .advance c ∧
    s.threads.pc c = .resumed true ∧ (s.tasks c).isInterruptedBySignal = true
  drain : ∀ tid, p = .drain tid → action = .advance c ∧
    s.threads.pc c = .draining ∧ s.queue.head? = some tid

lemma acquire_eq_some {lock : Lock} {p : Pc} {u : Sys} (h : s.acquire c lock p = some u) :
    ∃ threads, s.threads.acquire c lock p = some threads ∧ u = { s with threads := threads } := by
  obtain ⟨threads, hthreads, rfl⟩ := map_eq_some_iff.mp h
  exact ⟨threads, hthreads, rfl⟩

lemma change_of_acquire {lock : Lock} {p q : Pc} {u : Sys} (hpc : s.threads.pc c = q)
    (hu : s.acquire c lock p = some u) (hthreads : t.threads = u.threads)
    (hholds : ∀ l, p.holds c l ↔ l = lock ∨ q.holds c l := by rintro (_ | _) <;> simp [Pc.holds])
    (hleaving : p ≠ .leaving := by nofun) (hdrain : ∀ tid, p ≠ .drain tid := by nofun) :
    ∃ p, s.Change (.advance c) t c p := by
  subst hpc
  obtain ⟨threads, hacquire, rfl⟩ := acquire_eq_some hu
  refine ⟨p, ?_, fun h => absurd h hleaving, fun tid h => absurd h (hdrain tid)⟩
  rw [hthreads]
  exact .acquire hacquire hholds

lemma change_of_release {lock : Lock} {p q : Pc} (hpc : s.threads.pc c = q)
    (ht : t.threads = s.threads.release c lock p) (howner : q.holds c lock := by simp [Pc.holds])
    (hholds : ∀ l, p.holds c l ↔ l ≠ lock ∧ q.holds c l := by rintro (_ | _) <;> simp [Pc.holds])
    (hleaving : p ≠ .leaving := by nofun) (hdrain : ∀ tid, p ≠ .drain tid := by nofun) :
    ∃ p, s.Change (.advance c) t c p := by
  subst hpc
  refine ⟨p, ?_, fun h => absurd h hleaving, fun tid h => absurd h (hdrain tid)⟩
  rw [ht]
  exact .release howner hholds

lemma change_of_advanceWait (hstep : s.advanceWait c (s.threads.pc c) = some t) :
    ∃ p, s.Change (.advance c) t c p := by
  cases hpc : s.threads.pc c with
  | enter | picked | leaving =>
    simp only [hpc, advanceWait] at hstep
    obtain ⟨u, hu, rfl⟩ := map_eq_some_iff.mp hstep
    exact change_of_acquire hpc hu rfl
  | pushed intr =>
    simp only [hpc, advanceWait] at hstep
    split at hstep
    · obtain ⟨u, hu, rfl⟩ := map_eq_some_iff.mp hstep
      exact change_of_acquire hpc hu rfl
    · cases hstep
  | parking | switching | removing | returning =>
    simp only [hpc, advanceWait, some.injEq] at hstep
    subst hstep
    exact change_of_release hpc rfl
  | parked intr =>
    simp only [hpc, advanceWait] at hstep
    split at hstep
    · cases hstep
      refine ⟨.picked intr, .goto fun l => ?_, nofun, nofun⟩
      simp [lockUse, hpc, Pc.holds]
    · cases hstep
  | resumed intr =>
    simp only [hpc, advanceWait] at hstep
    split at hstep
    · rename_i hintr
      obtain ⟨rfl, hintr⟩ := Bool.and_eq_true_iff.mp hintr
      cases hstep
      refine ⟨.leaving, .goto fun l => ?_, fun _ => ⟨rfl, hpc, hintr⟩, nofun⟩
      simp [lockUse, hpc, Pc.holds]
    cases hstep
    exact change_of_release hpc rfl
  | _ =>
    rw [hpc] at hstep
    cases hstep

lemma change_of_advanceWake (hstep : s.advanceWake c (s.threads.pc c) = some t) :
    ∃ p, s.Change (.advance c) t c p := by
  cases hpc : s.threads.pc c with
  | signal | signalAll =>
    simp only [hpc, advanceWake] at hstep
    exact change_of_acquire hpc hstep rfl
  | popping =>
    simp only [hpc, advanceWake] at hstep
    split at hstep <;>
    · cases hstep
      exact change_of_release hpc rfl
  | wake | drain | send =>
    simp only [hpc, advanceWake] at hstep
    obtain ⟨u, hu, rfl⟩ := map_eq_some_iff.mp hstep
    exact change_of_acquire hpc hu rfl
  | draining =>
    simp only [hpc, advanceWake] at hstep
    split at hstep
    · cases hstep
      exact change_of_release hpc rfl
    rename_i tid rest hqueue
    cases hstep
    refine ⟨.drain tid, .goto fun l => ?_, nofun, ?_⟩
    · simp [lockUse, hpc, Pc.holds]
    · rintro _ ⟨⟩
      exact ⟨rfl, hpc, by rw [hqueue]; rfl⟩
  | drained | waking =>
    simp only [hpc, advanceWake, some.injEq] at hstep
    subst hstep
    exact change_of_release hpc rfl
  | _ =>
    rw [hpc] at hstep
    cases hstep

lemma change_of_step {action : Action} (hstep : s.step action = some t) :
    t.threads = s.threads ∨ ∃ c p, s.Change action t c p := by
  cases action with
  | call c call =>
    obtain ⟨hpc, rfl⟩ := ite_some_none_eq_some.mp hstep
    refine .inr ⟨c, call.pc, .goto fun l => ?_, ?_, ?_⟩
    · cases call <;> simp [lockUse, hpc, Call.pc, Pc.holds]
    · cases call <;> exact nofun
    · cases call <;> exact nofun
  | advance c =>
    rcases or_eq_some_iff.mp hstep with hstep | ⟨_, hstep⟩
    · exact .inr ⟨c, change_of_advanceWait hstep⟩
    · exact .inr ⟨c, change_of_advanceWake hstep⟩
  | proceed c task =>
    simp only [step] at hstep
    split at hstep
    · cases hstep
      exact .inl rfl
    · cases hstep

/-- The condition on a step.  `signal_all` does not take a task out of the
queue that holds its own lock and waits for the queue lock; and an interrupted
waiter does not ask for the queue lock while a `signal_all` that owns it waits
for the lock of this waiter. -/
def keepsOrder (s : Sys) : Action → Prop
  | .advance c =>
    (s.threads.pc c = .draining → ∀ tid ∈ s.queue.head?, s.threads.pc tid ≠ .leaving) ∧
    (s.threads.pc c = .resumed true → (s.tasks c).isInterruptedBySignal = true →
      ∀ d ∈ s.threads.owner .queue, s.threads.pc d ≠ .drain c)
  | _ => True

/-- Ownership is as the program points say, and no `signal_all` waits for a
task that waits for the queue. -/
structure Inv (s : Sys) : Prop where
  owned : s.Owned
  ordered : ∀ c d, s.threads.pc c = .drain d → s.threads.pc d ≠ .leaving

lemma Inv.step {action : Action} (hinv : s.Inv) (hok : s.keepsOrder action)
    (hstep : s.step action = some t) : t.Inv := by
  rcases change_of_step hstep with hsame | ⟨c, p, hchange⟩
  · exact ⟨by rw [Sys.Owned, hsame]; exact hinv.owned,
      by rw [hsame]; exact hinv.ordered⟩
  refine ⟨hchange.threads.owned hinv.owned, fun a d hdrain hleaving => ?_⟩
  rw [hchange.threads.pc] at hdrain hleaving
  by_cases ha : a = c
  · subst ha
    rw [update_self] at hdrain
    obtain ⟨rfl, hpc, hhead⟩ := hchange.drain d hdrain
    by_cases hd : d = a
    · subst hd
      rw [update_self, hdrain] at hleaving
      cases hleaving
    · rw [update_of_ne hd] at hleaving
      exact hok.1 hpc d hhead hleaving
  rw [update_of_ne ha] at hdrain
  by_cases hd : d = c
  · subst hd
    rw [update_self] at hleaving
    obtain ⟨rfl, hpc, hintr⟩ := hchange.leaving hleaving
    have howner : s.threads.owner .queue = some a := by
      apply (hinv.owned .queue a).mpr
      simp [lockUse, hdrain, Pc.holds]
    exact hok.2 hpc hintr a howner hdrain
  · rw [update_of_ne hd] at hleaving
    exact hinv.ordered a d hdrain hleaving

lemma Inv.rank_lt (hinv : s.Inv) {c d : Nat} (hedge : Threads.WaitsFor lockUse s.threads c d)
    (hwaits : Threads.Waits lockUse s.threads d) :
    (s.threads.pc c).rank < (s.threads.pc d).rank := by
  obtain ⟨l, hl, howner⟩ := hedge
  have hholds : (s.threads.pc d).holds d l := (hinv.owned l d).mp howner
  cases l with
  | queue =>
    rw [Pc.rank_of_waits_queue hl, Pc.rank_of_holds_queue hwaits hholds]
    decide
  | task tid =>
    obtain ⟨hleaving, rfl⟩ := Pc.leaving_of_holds_task hwaits hholds
    rcases Pc.cases_of_waits_task hl with hrank | ⟨intr, hpc, rfl⟩ | hpc
    · rw [hrank, hleaving]
      decide
    · rw [hpc] at hleaving
      cases hleaving
    · exact absurd hleaving (hinv.ordered c tid hpc)

end Sys

/-- In every run whose steps keep the order of the locks, no threads wait for
each other in a cycle. -/
theorem waitQueue_not_deadlocked (s : Sys)
    (hs : machine.ReachableUnder Sys.keepsOrder s) : ¬ s.Deadlocked := by
  have hinv : s.Inv := by
    apply hs.invariant
    · rintro s ⟨hpc, hfree, _, _⟩
      refine ⟨fun l c => ?_, fun c d hdrain => ?_⟩
      · simp [hfree, lockUse, hpc, Pc.holds]
      · rw [hpc] at hdrain
        cases hdrain
    · exact fun s action t hinv hok hstep => hinv.step hok hstep
  exact Threads.not_deadlocked_of_rank (fun c => (s.threads.pc c).rank)
    fun _ _ hedge hwaits => hinv.rank_lt hedge hwaits

instance (s : Sys) : (action : Action) → Decidable (s.keepsOrder action)
  | .advance c => inferInstanceAs (Decidable
      ((s.threads.pc c = .draining → ∀ tid ∈ s.queue.head?, s.threads.pc tid ≠ .leaving) ∧
      (s.threads.pc c = .resumed true → (s.tasks c).isInterruptedBySignal = true →
        ∀ d ∈ s.threads.owner .queue, s.threads.pc d ≠ .drain c)))
  | .call _ _ => isTrue trivial
  | .proceed _ _ => isTrue trivial

def Sys.boot : Sys where
  threads := ⟨fun _ => .running, fun _ => none⟩
  tasks _ := { Signals.Task.new Signals.Trapframe.zero with state := .running }
  queue := []

lemma Sys.boot_start : machine.start Sys.boot := ⟨fun _ => rfl, fun _ => rfl, fun _ => rfl, rfl⟩

def sleepTrace : List Action :=
  [.call 1 .interruptibleWait, .advance 1, .advance 1, .advance 1, .advance 1]

/-- A second thread wakes it up with `signal_all`, and it returns. -/
theorem wokenTrace_not_deadlocked : ∃ s, machine.runUnder Sys.keepsOrder Sys.boot (sleepTrace ++
        [.call 3 .signalAll, .advance 3, .advance 3, .advance 3, .advance 1,
          .advance 3, .advance 1, .advance 1]) = some s ∧
      s.threads.pc 1 = .running ∧ ¬ s.Deadlocked := by
  have hrun : ∃ s, machine.runUnder Sys.keepsOrder Sys.boot (sleepTrace ++
      [.call 3 .signalAll, .advance 3, .advance 3, .advance 3, .advance 1,
        .advance 3, .advance 1, .advance 1]) = some s ∧
      s.threads.pc 1 = .running := ⟨_, rfl, rfl⟩
  obtain ⟨s, hs, hpc⟩ := hrun
  have hboot : machine.ReachableUnder Sys.keepsOrder Sys.boot := .start Sys.boot_start
  exact ⟨s, hs, hpc, waitQueue_not_deadlocked s (hboot.runUnder hs)⟩

/-- A signal wakes the sleeping task while a third thread runs `signal_all`:
the one owns the task lock and waits for the queue lock, the other owns the
queue lock and waits for the task lock. -/
theorem interruptedTrace_deadlocked : ¬ ∀ s, machine.Reachable s → ¬ s.Deadlocked := by
  intro h
  have hrun : ∃ s, machine.run Sys.boot (sleepTrace ++
      [.call 2 (.sendSignal 1 Signals.Signal.sigint.toSingalFlags), .advance 2,
        .advance 2, .call 3 .signalAll, .advance 3, .advance 1, .advance 1,
        .advance 3, .advance 1]) = some s ∧
      Threads.WaitsFor lockUse s.threads 1 3 ∧
      Threads.WaitsFor lockUse s.threads 3 1 :=
    ⟨_, rfl, ⟨.queue, rfl, rfl⟩, ⟨.task 1, rfl, rfl⟩⟩
  obtain ⟨s, hs, hwaiter, hwaker⟩ := hrun
  have hboot : machine.Reachable Sys.boot := .start Sys.boot_start
  exact h s (hboot.run hs) ⟨1, .tail (.single hwaiter) hwaker⟩

end Redwing.WaitQueue
