/-
The life of one task as the scheduler and the wake-ups see it: who has it, who
holds its lock, and how these change.  A status fixes the task's state, its
place in the ready queue and what every CPU and every waker is doing with it.
-/
import Redwing.Scheduler

namespace Redwing.Scheduler

open Proc Function

def rests : TaskState → Bool
  | .running | .runable => false
  | _ => true

lemma Call.rests_target {call : Call} (h : call.target ≠ .runable) : rests call.target = true := by
  cases call <;> first | rfl | exact absurd rfl h

/-- Who holds the lock of a task without having the task itself. -/
inductive Hold
  | free
  | leaving (c : Nat) (cleared : Bool)
  | waker (w : Nat) (done : Bool)
deriving DecidableEq

inductive Status
  | resting (state : TaskState) (hrests : rests state = true) (hold : Hold)
  | waking (w : Nat)
  | ready (hold : Hold)
  | picked (c : Nat) (hold : Hold)
  | chosen (c : Nat)
  | running (c : Nat) (hold : Hold)
  | locked (c : Nat)
  | marked (c : Nat) (call : Call)
  | back (c : Nat) (call : Call)
deriving DecidableEq

namespace Hold

/-- The steps of those who only hold the lock. -/
inductive Next : Hold → Hold → Prop
  | clear (c : Nat) : Next (leaving c false) (leaving c true)
  | unlock (c : Nat) : Next (leaving c true) free
  | wakeLock (w : Nat) : Next free (waker w false)
  | wakeDone (w : Nat) : Next (waker w false) (waker w true)
  | wakeUnlock (w : Nat) : Next (waker w true) free

end Hold

namespace Status

/-- The life of a task. -/
inductive Next : Status → Status → Prop
  | pick (c : Nat) (hold : Hold) : Next (ready hold) (picked c hold)
  | lockPicked (c : Nat) : Next (picked c .free) (chosen c)
  | dispatch (c : Nat) : Next (chosen c) (locked c)
  | unlock (c : Nat) : Next (locked c) (running c .free)
  | lock (c : Nat) : Next (running c .free) (locked c)
  | mark (c : Nat) (call : Call) : Next (locked c) (marked c call)
  | sched (c : Nat) (call : Call) : Next (marked c call) (back c call)
  | requeue (c : Nat) (call : Call) : call.target = .runable →
      Next (back c call) (ready (.leaving c false))
  | rest (c : Nat) (call : Call) (h : rests call.target = true) :
      Next (back c call) (resting call.target h (.leaving c false))
  | wake (w : Nat) {state : TaskState} {h : rests state = true} :
      Next (resting state h (.waker w false)) (waking w)
  | enqueue (w : Nat) : Next (waking w) (ready (.waker w true))
  | restHold {state : TaskState} {h : rests state = true} {hold hold' : Hold} :
      hold.Next hold' → Next (resting state h hold) (resting state h hold')
  | readyHold {hold hold' : Hold} :
      hold.Next hold' → Next (ready hold) (ready hold')
  | pickedHold {c : Nat} {hold hold' : Hold} :
      hold.Next hold' → Next (picked c hold) (picked c hold')
  | runningHold {c : Nat} {hold hold' : Hold} :
      hold.Next hold' → Next (running c hold) (running c hold')

end Status

/-- What the code of a running task is doing with the task's lock. -/
inductive Kind
  | free
  | locked
  | marked (call : Call)
  | parked
deriving DecidableEq

def Pc.kind : Pc → Kind
  | kernel | slot _ _ | ref _ _ => .free
  | entry | locked _ _ | resumed _ _ => .locked
  | marked call _ => .marked call
  | switched _ _ => .parked

/-- What a CPU is doing with a task. -/
inductive Role
  | picked
  | chosen
  | task (kind : Kind)
  | back
  | queued
  | cleared
deriving DecidableEq

/-- What a waker is doing with a task. -/
inductive WakerRole
  | locked
  | woken
  | done
deriving DecidableEq

/-- All that the system shows of one task. -/
@[ext] structure View where
  state : TaskState
  isLocked : Bool
  count : Nat
  role : Nat → Option Role
  waker : Nat → Option WakerRole

namespace View

@[simp] def setRole (v : View) (c : Nat) (role : Option Role) : View :=
  { v with role := update v.role c role }

@[simp] def setWaker (v : View) (w : Nat) (role : Option WakerRole) : View :=
  { v with waker := update v.waker w role }

@[simp] def setState (v : View) (state : TaskState) : View := { v with state := state }

@[simp] def setLocked (v : View) (isLocked : Bool) : View := { v with isLocked := isLocked }

@[simp] def setCount (v : View) (count : Nat) : View := { v with count := count }

end View

namespace Hold

@[simp] def isLocked : Hold → Bool
  | free => false
  | _ => true

@[simp] def role : Hold → Nat → Option Role
  | leaving c cleared => update (fun _ => none) c (some (if cleared then .cleared else .queued))
  | _ => fun _ => none

@[simp] def wakerRole : Hold → Nat → Option WakerRole
  | waker w done => update (fun _ => none) w (some (if done then .done else .locked))
  | _ => fun _ => none

end Hold

namespace Status

@[simp] def state : Status → TaskState
  | resting state _ _ => state
  | waking _ | ready _ | picked _ _ | chosen _ => .runable
  | running _ _ | locked _ => .running
  | marked _ call | back _ call => call.target

@[simp] def isLocked : Status → Bool
  | resting _ _ hold | ready hold | picked _ hold | running _ hold => hold.isLocked
  | _ => true

@[simp] def count : Status → Nat
  | ready _ => 1
  | _ => 0

@[simp] def role : Status → Nat → Option Role
  | resting _ _ hold | ready hold => hold.role
  | waking _ => fun _ => none
  | picked c hold => update hold.role c (some .picked)
  | chosen c => update (fun _ => none) c (some .chosen)
  | running c _ => update (fun _ => none) c (some (.task .free))
  | locked c => update (fun _ => none) c (some (.task .locked))
  | marked c call => update (fun _ => none) c (some (.task (.marked call)))
  | back c _ => update (fun _ => none) c (some .back)

@[simp] def wakerRole : Status → Nat → Option WakerRole
  | resting _ _ hold | ready hold | picked _ hold | running _ hold => hold.wakerRole
  | waking w => update (fun _ => none) w (some .woken)
  | _ => fun _ => none

def view (st : Status) : View where
  state := st.state
  isLocked := st.isLocked
  count := st.count
  role := st.role
  waker := st.wakerRole

lemma update_none_eq_some {α : Type} {c d : Nat} {v r : α} :
    update (fun _ => none) c (some v) d = some r ↔ d = c ∧ v = r := by
  by_cases h : d = c
  · subst h
    simp
  · simp [h]

/-- What a role tells about the status. -/
inductive Plays : Status → Nat → Role → Prop
  | picked (c : Nat) (hold : Hold) : Plays (picked c hold) c .picked
  | chosen (c : Nat) : Plays (chosen c) c .chosen
  | running (c : Nat) (hold : Hold) : Plays (running c hold) c (.task .free)
  | locked (c : Nat) : Plays (locked c) c (.task .locked)
  | marked (c : Nat) (call : Call) :
      Plays (marked c call) c (.task (.marked call))
  | back (c : Nat) (call : Call) : Plays (back c call) c .back
  | restQueued (c : Nat) {state : TaskState} (h : rests state = true) :
      Plays (resting state h (.leaving c false)) c .queued
  | restCleared (c : Nat) {state : TaskState} (h : rests state = true) :
      Plays (resting state h (.leaving c true)) c .cleared
  | readyQueued (c : Nat) : Plays (ready (.leaving c false)) c .queued
  | readyCleared (c : Nat) : Plays (ready (.leaving c true)) c .cleared
  | pickedQueued {c d : Nat} (h : c ≠ d) :
      Plays (Status.picked d (.leaving c false)) c .queued
  | pickedCleared {c d : Nat} (h : c ≠ d) :
      Plays (Status.picked d (.leaving c true)) c .cleared

/-- What the role of a waker tells about the status. -/
inductive Wakes : Status → Nat → WakerRole → Prop
  | waking (w : Nat) : Wakes (waking w) w .woken
  | restLocked (w : Nat) {state : TaskState} (h : rests state = true) :
      Wakes (resting state h (.waker w false)) w .locked
  | restDone (w : Nat) {state : TaskState} (h : rests state = true) :
      Wakes (resting state h (.waker w true)) w .done
  | readyLocked (w : Nat) : Wakes (ready (.waker w false)) w .locked
  | readyDone (w : Nat) : Wakes (ready (.waker w true)) w .done
  | pickedLocked (w c : Nat) : Wakes (picked c (.waker w false)) w .locked
  | pickedDone (w c : Nat) : Wakes (picked c (.waker w true)) w .done
  | runningLocked (w c : Nat) : Wakes (running c (.waker w false)) w .locked
  | runningDone (w c : Nat) : Wakes (running c (.waker w true)) w .done

end Status

lemma Hold.eq_of_role {hold : Hold} {c : Nat} {r : Role} (h : hold.role c = some r) :
    (hold = .leaving c false ∧ r = .queued) ∨ (hold = .leaving c true ∧ r = .cleared) := by
  cases hold with
  | leaving d cleared =>
    obtain ⟨rfl, rfl⟩ := Status.update_none_eq_some.mp h
    cases cleared
    · exact .inl ⟨rfl, rfl⟩
    · exact .inr ⟨rfl, rfl⟩
  | free | waker => cases h

lemma Hold.eq_of_wakerRole {hold : Hold} {w : Nat} {r : WakerRole} (h : hold.wakerRole w = some r) :
    (hold = .waker w false ∧ r = .locked) ∨ (hold = .waker w true ∧ r = .done) := by
  cases hold with
  | waker v done =>
    obtain ⟨rfl, rfl⟩ := Status.update_none_eq_some.mp h
    cases done
    · exact .inl ⟨rfl, rfl⟩
    · exact .inr ⟨rfl, rfl⟩
  | free | leaving => cases h

lemma Hold.eq_free {hold : Hold} (h : hold.isLocked = false) : hold = .free := by
  cases hold <;> first | rfl | cases h

namespace Status

lemma plays_of_role {st : Status} {c : Nat} {r : Role} (h : st.role c = some r) : st.Plays c r := by
  cases st with
  | resting state hrests hold =>
    rcases Hold.eq_of_role h with ⟨rfl, rfl⟩ | ⟨rfl, rfl⟩
    · exact .restQueued c hrests
    · exact .restCleared c hrests
  | waking w => cases h
  | ready hold =>
    rcases Hold.eq_of_role h with ⟨rfl, rfl⟩ | ⟨rfl, rfl⟩
    · exact .readyQueued c
    · exact .readyCleared c
  | picked d hold =>
    by_cases hc : c = d
    · subst hc
      simp only [role, update_self, Option.some.injEq] at h
      rw [← h]
      exact .picked c hold
    rw [role, update_of_ne hc] at h
    rcases Hold.eq_of_role h with ⟨rfl, rfl⟩ | ⟨rfl, rfl⟩
    · exact .pickedQueued hc
    · exact .pickedCleared hc
  | chosen d =>
    obtain ⟨rfl, rfl⟩ := update_none_eq_some.mp h
    exact .chosen c
  | running d hold =>
    obtain ⟨rfl, rfl⟩ := update_none_eq_some.mp h
    exact .running c hold
  | locked d =>
    obtain ⟨rfl, rfl⟩ := update_none_eq_some.mp h
    exact .locked c
  | marked d call =>
    obtain ⟨rfl, rfl⟩ := update_none_eq_some.mp h
    exact .marked c call
  | back d call =>
    obtain ⟨rfl, rfl⟩ := update_none_eq_some.mp h
    exact .back c call

lemma wakes_of_wakerRole {st : Status} {w : Nat} {r : WakerRole}
    (h : st.wakerRole w = some r) : st.Wakes w r := by
  cases st with
  | resting state hrests hold =>
    rcases Hold.eq_of_wakerRole h with ⟨rfl, rfl⟩ | ⟨rfl, rfl⟩
    · exact .restLocked w hrests
    · exact .restDone w hrests
  | waking v =>
    obtain ⟨rfl, rfl⟩ := update_none_eq_some.mp h
    exact .waking w
  | ready hold =>
    rcases Hold.eq_of_wakerRole h with ⟨rfl, rfl⟩ | ⟨rfl, rfl⟩
    · exact .readyLocked w
    · exact .readyDone w
  | picked c hold =>
    rcases Hold.eq_of_wakerRole h with ⟨rfl, rfl⟩ | ⟨rfl, rfl⟩
    · exact .pickedLocked w c
    · exact .pickedDone w c
  | running c hold =>
    rcases Hold.eq_of_wakerRole h with ⟨rfl, rfl⟩ | ⟨rfl, rfl⟩
    · exact .runningLocked w c
    · exact .runningDone w c
  | chosen | locked | marked | back => cases h

lemma eq_of_role_task {st : Status} {c d : Nat} {k l : Kind} (hc : st.role c = some (.task k))
    (hd : st.role d = some (.task l)) : c = d := by
  cases plays_of_role hc <;> exact (update_none_eq_some.mp hd).1.symm

section

variable {st : Status}

/-- The next step can bring the task to a status that looks like `v`. -/
abbrev Reaches (st : Status) (v : View) : Prop := ∃ st', st.Next st' ∧ st'.view = v

lemma Reaches.of_eq (h : st.Reaches v) (heq : v = v') : st.Reaches v' := heq ▸ h

lemma next_pick (hcount : st.count ≠ 0) :
    st.Reaches ((st.view.setRole c (some .picked)).setCount (st.count - 1)) := by
  cases st with
  | ready hold => exact ⟨_, .pick c hold, rfl⟩
  | _ => exact absurd rfl hcount

lemma next_lockPicked (hrole : st.role c = some .picked) (hfree : st.isLocked = false) :
    st.Reaches ((st.view.setRole c (some .chosen)).setLocked true) := by
  cases plays_of_role hrole with
  | picked _ hold =>
    obtain rfl := Hold.eq_free hfree
    exact ⟨_, .lockPicked c, by simp [view]⟩

lemma next_dispatch (hrole : st.role c = some .chosen) :
    st.Reaches ((st.view.setRole c (some (.task .locked))).setState .running) := by
  cases plays_of_role hrole with
  | chosen => exact ⟨_, .dispatch c, by simp [view]⟩

lemma next_unlock (hrole : st.role c = some (.task .locked)) :
    st.Reaches ((st.view.setRole c (some (.task .free))).setLocked false) := by
  cases plays_of_role hrole with
  | locked => exact ⟨_, .unlock c, by simp [view]⟩

lemma next_lock (hrole : st.role c = some (.task .free)) (hfree : st.isLocked = false) :
    st.Reaches ((st.view.setRole c (some (.task .locked))).setLocked true) := by
  cases plays_of_role hrole with
  | running _ hold =>
    obtain rfl := Hold.eq_free hfree
    exact ⟨_, .lock c, by simp [view]⟩

lemma next_mark (call : Call) (hrole : st.role c = some (.task .locked)) :
    st.Reaches ((st.view.setRole c (some (.task (.marked call)))).setState call.target) := by
  cases plays_of_role hrole with
  | locked => exact ⟨_, .mark c call, by simp [view]⟩

lemma next_sched (hrole : st.role c = some (.task (.marked call))) :
    st.Reaches (st.view.setRole c (some .back)) := by
  cases plays_of_role hrole with
  | marked => exact ⟨_, .sched c call, by simp [view]⟩

lemma next_enqueue (hrole : st.role c = some .back) :
    st.Reaches ((st.view.setRole c (some .queued)).setCount
      (if st.state = .runable then st.count + 1 else st.count)) := by
  cases plays_of_role hrole with
  | back _ call =>
    by_cases h : call.target = .runable
    · exact ⟨_, .requeue c call h, by simp [view, h]⟩
    · exact ⟨_, .rest c call (Call.rests_target h), by simp [view, h]⟩

lemma next_clear (hrole : st.role c = some .queued) :
    st.Reaches (st.view.setRole c (some .cleared)) := by
  cases plays_of_role hrole with
  | restQueued => exact ⟨_, .restHold (.clear c), by simp [view]⟩
  | readyQueued => exact ⟨_, .readyHold (.clear c), by simp [view]⟩
  | pickedQueued hne =>
    refine ⟨_, .pickedHold (.clear c), ?_⟩
    simp [view, update_comm hne]

lemma next_release (hrole : st.role c = some .cleared) :
    st.Reaches ((st.view.setRole c none).setLocked false) := by
  cases plays_of_role hrole with
  | restCleared => exact ⟨_, .restHold (.unlock c), by simp [view]⟩
  | readyCleared => exact ⟨_, .readyHold (.unlock c), by simp [view]⟩
  | pickedCleared hne =>
    refine ⟨_, .pickedHold (.unlock c), ?_⟩
    simp [view, update_comm hne, hne]

lemma next_wakeLock (hfree : st.isLocked = false) :
    st.Reaches ((st.view.setWaker w (some .locked)).setLocked true) := by
  cases st with
  | resting state hrests hold =>
    obtain rfl := Hold.eq_free hfree
    exact ⟨_, .restHold (.wakeLock w), by simp [view]⟩
  | ready hold =>
    obtain rfl := Hold.eq_free hfree
    exact ⟨_, .readyHold (.wakeLock w), by simp [view]⟩
  | picked d hold =>
    obtain rfl := Hold.eq_free hfree
    exact ⟨_, .pickedHold (.wakeLock w), by simp [view]⟩
  | running d hold =>
    obtain rfl := Hold.eq_free hfree
    exact ⟨_, .runningHold (.wakeLock w), by simp [view]⟩
  | _ => cases hfree

lemma next_wake (hrole : st.wakerRole w = some .locked) (hwakes : st.state.wakes = true) :
    st.Reaches ((st.view.setWaker w (some .woken)).setState .runable) := by
  cases wakes_of_wakerRole hrole with
  | restLocked => exact ⟨_, .wake w, by simp [view]⟩
  | readyLocked | pickedLocked | runningLocked => cases hwakes

lemma next_wakeDone (hrole : st.wakerRole w = some .locked) :
    st.Reaches (st.view.setWaker w (some .done)) := by
  cases wakes_of_wakerRole hrole with
  | restLocked => exact ⟨_, .restHold (.wakeDone w), by simp [view]⟩
  | readyLocked => exact ⟨_, .readyHold (.wakeDone w), by simp [view]⟩
  | pickedLocked => exact ⟨_, .pickedHold (.wakeDone w), by simp [view]⟩
  | runningLocked => exact ⟨_, .runningHold (.wakeDone w), by simp [view]⟩

lemma next_wakeEnqueue (hrole : st.wakerRole w = some .woken) :
    st.Reaches ((st.view.setWaker w (some .done)).setCount (st.count + 1)) := by
  cases wakes_of_wakerRole hrole with
  | waking => exact ⟨_, .enqueue w, by simp [view]⟩

lemma next_wakeUnlock (hrole : st.wakerRole w = some .done) :
    st.Reaches ((st.view.setWaker w none).setLocked false) := by
  cases wakes_of_wakerRole hrole with
  | restDone => exact ⟨_, .restHold (.wakeUnlock w), by simp [view]⟩
  | readyDone => exact ⟨_, .readyHold (.wakeUnlock w), by simp [view]⟩
  | pickedDone => exact ⟨_, .pickedHold (.wakeUnlock w), by simp [view]⟩
  | runningDone => exact ⟨_, .runningHold (.wakeUnlock w), by simp [view]⟩

end
end Status
end Redwing.Scheduler
