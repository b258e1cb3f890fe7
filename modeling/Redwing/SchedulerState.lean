/-
The scheduler keeps its promises about task states: while the code that asks for
the current task gets itself, every task goes through the life of
`TaskLifecycle`.  A task preempted between the two halves of `current_task` can
get another one.
-/
import Redwing.TaskLifecycle
import Mathlib.Logic.Relation

namespace Redwing.Scheduler

open Proc Function List Option Sys

/-- The task that the record of a CPU names while its loop is at this point. -/
def Run.current : Run → Option Nat
  | busy tid (.task _) | busy tid .back | busy tid .queued => some tid
  | _ => none

namespace Sys

def stageRole (s : Sys) : Stage → Role
  | .picked => .picked
  | .locked => .chosen
  | .task thread => .task (s.threads thread).pc.kind
  | .back => .back
  | .queued => .queued
  | .cleared => .cleared

def runRole (s : Sys) : Run → Nat → Option Role
  | .loop, _ => none
  | .busy tid stage, x => if tid = x then some (s.stageRole stage) else none

end Sys

def Waker.role : Waker → Nat → Option WakerRole
  | idle, _ => none
  | locked tid, x => if tid = x then some .locked else none
  | woken tid, x => if tid = x then some .woken else none
  | done tid, x => if tid = x then some .done else none

def Sys.view (s : Sys) (x : Nat) : View where
  state := (s.tasks x).state
  isLocked := (s.tasks x).isLocked
  count := s.ready.count x
  role := fun c => s.runRole (s.cpus c).run x
  waker := fun w => (s.wakers w).role x

/-- Every stack works for the task it belongs to. -/
structure Wf (s : Sys) : Prop where
  context : ∀ x, (s.tasks x).context = x
  thread : ∀ c x thread, (s.cpus c).run = .busy x (.task thread) → thread = x
  self : ∀ thread pc, pc ∈ (s.threads thread).pc :: (s.threads thread).frames →
    ∀ x ∈ pc.tid?, x = thread
  frames : ∀ thread, ∀ pc ∈ (s.threads thread).frames, pc.isOpen = true
  current : ∀ c, (s.cpus c).currentTask = (s.cpus c).run.current

def Tracked (s : Sys) : Prop := ∀ x, ∃ st : Status, s.view x = st.view

/-- Every task goes at most one step further in its life. -/
def Simulates (s t : Sys) : Prop :=
  ∀ x st, s.view x = Status.view st →
    ∃ st', Relation.ReflGen Status.Next st st' ∧ t.view x = st'.view

lemma Simulates.tracked (h : Simulates s t) (hs : Tracked s) : Tracked t := by
  intro x
  obtain ⟨st, hst⟩ := hs x
  obtain ⟨st', _, hst'⟩ := h x st hst
  exact ⟨st', hst'⟩

lemma Simulates.of_step (hself : ∀ st, s.view x = Status.view st → st.Reaches (t.view x))
    (hother : ∀ y, y ≠ x → t.view y = s.view y) : Simulates s t := by
  intro y st hst
  by_cases hy : y = x
  · subst hy
    obtain ⟨st', hnext, hview⟩ := hself st hst
    exact ⟨st', .single hnext, hview.symm⟩
  · exact ⟨st, .refl, (hother y hy).trans hst⟩

lemma Simulates.of_view_eq (h : ∀ y, t.view y = s.view y) : Simulates s t := by
  intro y st hst
  exact ⟨st, .refl, (h y).trans hst⟩

section

variable {s : Sys} {c x thread : Nat}

lemma view_setTask_self (task : Task) : (s.setTask tid task).view tid =
    ((s.view tid).setState task.state).setLocked task.isLocked := by
  simp [view, setTask, runRole, stageRole]

lemma view_setTask_of_ne (task : Task) (h : y ≠ tid) : (s.setTask tid task).view y = s.view y := by
  simp [view, setTask, runRole, stageRole, h]

lemma view_setReady (ready : List Nat) :
    (s.setReady ready).view y = (s.view y).setCount (ready.count y) := rfl

lemma view_setCpu (cpu : Cpu) : (s.setCpu c cpu).view y =
    (s.view y).setRole c (s.runRole cpu.run y) := by
  refine View.ext rfl rfl rfl (funext fun d => ?_) rfl
  by_cases h : d = c
  · subst h
    simp [view, setCpu, runRole, stageRole]
  · simp [view, setCpu, runRole, stageRole, h]

lemma runRole_of_ne (h : y ≠ tid) : s.runRole (.busy tid stage) y = none := if_neg h.symm

lemma view_setCpu_of_ne (hold : s.runRole (s.cpus c).run y = none)
    (hnew : s.runRole cpu.run y = none) : (s.setCpu c cpu).view y = s.view y := by
  rw [view_setCpu, hnew, View.setRole, ← hold]
  exact View.ext rfl rfl rfl (update_eq_self c _) rfl

lemma view_setWaker (waker : Waker) :
    (s.setWaker w waker).view y = (s.view y).setWaker w (waker.role y) := by
  refine View.ext rfl rfl rfl rfl (funext fun v => ?_)
  by_cases h : v = w
  · subst h
    simp [view, setWaker]
  · simp [view, setWaker, h]

lemma view_setWaker_of_ne (hold : (s.wakers w).role y = none) (hnew : waker.role y = none) :
    (s.setWaker w waker).view y = s.view y := by
  rw [view_setWaker, hnew, View.setWaker, ← hold]
  exact View.ext rfl rfl rfl rfl (update_eq_self w _)

lemma runRole_setThread_of_ne (h : ∀ x, run ≠ .busy x (.task thread)) :
    (s.setThread thread value).runRole run y = s.runRole run y := by
  cases run with
  | loop => rfl
  | busy x stage =>
    cases stage with
    | task other =>
      have hne : other ≠ thread := fun heq => h x (by rw [heq])
      simp [setThread, runRole, stageRole, hne]
    | _ => rfl

lemma view_setThread_of_parked (value : Thread)
    (h : ∀ c x, (s.cpus c).run ≠ .busy x (.task thread)) :
    (s.setThread thread value).view y = s.view y := by
  refine View.ext rfl rfl rfl (funext fun d => ?_) rfl
  exact runRole_setThread_of_ne (h d)

lemma view_setThread_of_kind (h : value.pc.kind = (s.threads thread).pc.kind) :
    (s.setThread thread value).view y = s.view y := by
  refine View.ext rfl rfl rfl (funext fun d => ?_) rfl
  simp only [view]
  by_cases hrun : ∃ x, (s.cpus d).run = .busy x (.task thread)
  · obtain ⟨x, hrun⟩ := hrun
    simp [setThread, hrun, runRole, stageRole, h]
  · exact runRole_setThread_of_ne (not_exists.mp hrun)

section

variable (hrun : (s.cpus c).run = .busy x (.task thread))
  (hone : ∀ d z, (s.cpus d).run = .busy z (.task thread) → d = c)

include hrun hone

lemma view_setThread_self (value : Thread) : (s.setThread thread value).view x =
    (s.view x).setRole c (some (.task value.pc.kind)) := by
  refine View.ext rfl rfl rfl (funext fun d => ?_) rfl
  by_cases h : d = c
  · subst h
    simp [view, setThread, hrun, runRole, stageRole]
  · simp only [View.setRole, update_of_ne h]
    exact runRole_setThread_of_ne (fun z hz => h (hone d z hz))

lemma view_setThread_of_ne (value : Thread) (h : y ≠ x) :
    (s.setThread thread value).view y = s.view y := by
  refine View.ext rfl rfl rfl (funext fun d => ?_) rfl
  by_cases hd : d = c
  · subst hd
    simp [view, setThread, hrun, runRole, h.symm]
  · exact runRole_setThread_of_ne (fun z hz => hd (hone d z hz))

end
end

section

variable {s : Sys}

lemma Wf.setTask (h : Wf s) (tid : Nat) (hcontext : task.context = tid) : Wf (s.setTask tid task) :=
  ⟨(forall_update_iff s.tasks fun x task => task.context = x).mpr
    ⟨hcontext, fun x _ => h.context x⟩, h.thread, h.self, h.frames, h.current⟩

lemma Wf.setLocked (h : Wf s) (tid : Nat) (isLocked : Bool) : Wf (s.setLocked tid isLocked) :=
  h.setTask tid (h.context tid)

lemma Wf.setReady (h : Wf s) (ready : List Nat) : Wf (s.setReady ready) :=
  ⟨h.context, h.thread, h.self, h.frames, h.current⟩

lemma Wf.setWaker (h : Wf s) (w : Nat) (waker : Waker) : Wf (s.setWaker w waker) :=
  ⟨h.context, h.thread, h.self, h.frames, h.current⟩

lemma Wf.setCpu (h : Wf s) (c : Nat)
    (hthread : ∀ x thread, cpu.run = .busy x (.task thread) → thread = x)
    (hcurrent : cpu.currentTask = cpu.run.current) : Wf (s.setCpu c cpu) := by
  refine ⟨h.context, ?_, h.self, h.frames, ?_⟩
  · exact (forall_update_iff s.cpus fun _ cpu => ∀ x thread, cpu.run = .busy x (.task thread) →
      thread = x).mpr ⟨hthread, fun d _ => h.thread d⟩
  · exact (forall_update_iff s.cpus fun _ cpu => cpu.currentTask = cpu.run.current).mpr
      ⟨hcurrent, fun d _ => h.current d⟩

lemma Wf.setRun (h : Wf s) (c : Nat) (hthread : ∀ x thread, run ≠ .busy x (.task thread))
    (hcurrent : run.current = (s.cpus c).run.current) : Wf (s.setRun c run) := by
  apply h.setCpu c
  · intro x thread hrun
    exact absurd hrun (hthread x thread)
  · exact (h.current c).trans hcurrent.symm

lemma Wf.setThread (h : Wf s) (thread : Nat)
    (hself : ∀ pc ∈ value.pc :: value.frames, ∀ x ∈ pc.tid?, x = thread)
    (hframes : ∀ pc ∈ value.frames, pc.isOpen = true) : Wf (s.setThread thread value) := by
  refine ⟨h.context, h.thread, ?_, ?_, h.current⟩
  · exact (forall_update_iff s.threads fun thread value => ∀ pc, pc ∈ value.pc :: value.frames →
      ∀ x ∈ pc.tid?, x = thread).mpr ⟨hself, fun other _ => h.self other⟩
  · exact (forall_update_iff s.threads fun _ value => ∀ pc ∈ value.frames, pc.isOpen = true).mpr
      ⟨hframes, fun other _ => h.frames other⟩

lemma Wf.setPc (h : Wf s) (thread : Nat)
    (hself : ∀ x ∈ pc.tid?, x = thread) : Wf (s.setPc thread pc) := by
  apply h.setThread thread
  · intro other hother
    rcases mem_cons.mp hother with rfl | hmem
    · exact hself
    · exact h.self thread other (mem_cons_of_mem _ hmem)
  · exact h.frames thread

end

structure Inv (s : Sys) : Prop where
  wf : Wf s
  tracked : Tracked s

/-- What every step does. -/
structure Keeps (s t : Sys) : Prop where
  wf : Wf t
  sim : Simulates s t

section

variable {s : Sys} {st : Status} {c x thread : Nat}

section

variable (hst : s.view x = st.view)

include hst

lemma role_of_view (c : Nat) : st.role c = s.runRole (s.cpus c).run x :=
  (congrFun (congrArg View.role hst) c).symm

lemma role_of_run (hrun : (s.cpus c).run = .busy x stage) :
    st.role c = some (s.stageRole stage) := by
  rw [role_of_view hst, hrun]
  exact if_pos rfl

lemma wakerRole_of_view (w : Nat) : st.wakerRole w = (s.wakers w).role x :=
  (congrFun (congrArg View.waker hst) w).symm

lemma state_of_view : (s.tasks x).state = st.state := congrArg View.state hst

lemma isLocked_of_view : (s.tasks x).isLocked = st.isLocked := congrArg View.isLocked hst

lemma count_of_view : s.ready.count x = st.count := congrArg View.count hst

end

lemma Inv.one_cpu (h : Inv s) (hrun : (s.cpus c).run = .busy x (.task thread)) (d z : Nat)
    (hd : (s.cpus d).run = .busy z (.task thread)) : d = c := by
  have hx : thread = x := h.wf.thread c x thread hrun
  have hz : thread = z := h.wf.thread d z thread hd
  subst hx
  subst hz
  obtain ⟨st, hst⟩ := h.tracked thread
  exact Status.eq_of_role_task (role_of_run hst hd) (role_of_run hst hrun)

lemma atStage_eq_some {stage : Stage} {next : Nat → Option Sys} {t : Sys}
    (h : s.atStage c stage next = some t) :
    ∃ tid, (s.cpus c).run = .busy tid stage ∧ next tid = some t := by
  unfold atStage at h
  split at h
  · cases h
  rename_i tid now hrun
  split at h
  · next hnow => exact ⟨tid, hnow ▸ hrun, h⟩
  · cases h

lemma Wf.thread_eq_some (h : Wf s) {next : Nat → Option Sys} {t : Sys}
    (hnext : (s.thread? c).bind next = some t) :
    ∃ thread, (s.cpus c).run = .busy thread (.task thread) ∧
      next thread = some t := by
  obtain ⟨thread, hthread, hnext⟩ := bind_eq_some_iff.mp hnext
  unfold thread? at hthread
  split at hthread
  · rename_i tid found hrun
    cases hthread
    have hsame : thread = tid := h.thread c tid thread hrun
    subst hsame
    exact ⟨thread, hrun, hnext⟩
  · cases hthread

end

section

variable {s t : Sys} {c : Nat}

lemma Inv.pick (hinv : Inv s) (h : s.pick c tid = some t) : Keeps s t := by
  simp only [Sys.pick] at h
  split at h
  · rename_i hpick
    obtain ⟨hloop, hmem⟩ := hpick
    cases h
    constructor
    · apply (hinv.wf.setReady _).setRun c
      · intro x thread
        simp
      · change Run.current (.busy tid .picked) = (s.cpus c).run.current
        rw [hloop]
        rfl
    apply Simulates.of_step (x := tid)
    · intro st hst
      have hcount : st.count ≠ 0 := by
        rw [← count_of_view hst]
        exact fun hzero => count_eq_zero.mp hzero hmem
      refine (Status.next_pick (c := c) hcount).of_eq ?_
      rw [setRun, view_setCpu, view_setReady, hst, count_erase_self, count_of_view hst]
      simp [runRole, stageRole]
    · intro y hy
      rw [setRun, view_setCpu_of_ne, view_setReady, count_erase_of_ne hy]
      · rfl
      · exact congrArg (fun run => s.runRole run y) hloop
      · exact runRole_of_ne hy
  · cases h

lemma Inv.setLocked_setRun (hinv : Inv s) (hrun : (s.cpus c).run = .busy tid stage)
    (hthread : ∀ x thread, run ≠ .busy x (.task thread))
    (hcurrent : run.current = Run.current (.busy tid stage))
    (hother : ∀ y, y ≠ tid → s.runRole run y = none)
    (hself : ∀ st, s.view tid = Status.view st →
      st.Reaches ((st.view.setLocked isLocked).setRole c (s.runRole run tid))) :
    Keeps s ((s.setLocked tid isLocked).setRun c run) := by
  constructor
  · apply (hinv.wf.setLocked tid isLocked).setRun c hthread
    change run.current = (s.cpus c).run.current
    rw [hrun]
    exact hcurrent
  apply Simulates.of_step (x := tid)
  · intro st hst
    refine (hself st hst).of_eq ?_
    rw [setRun, setLocked, view_setCpu, view_setTask_self, hst, state_of_view hst]
    rfl
  · intro y hy
    rw [setRun, setLocked, view_setCpu_of_ne, view_setTask_of_ne _ hy]
    · change s.runRole (s.cpus c).run y = none
      rw [hrun]
      exact runRole_of_ne hy
    · exact hother y hy

lemma Inv.lockPicked (hinv : Inv s) (h : s.lockPicked c = some t) : Keeps s t := by
  obtain ⟨tid, hrun, hnext⟩ := atStage_eq_some h
  split at hnext
  · cases hnext
  rename_i hfree
  cases hnext
  apply hinv.setLocked_setRun hrun
  · intro x thread
    simp
  · rfl
  · intro y hy
    exact runRole_of_ne hy
  intro st hst
  have hopen : st.isLocked = false := by
    rw [← isLocked_of_view hst]
    simpa using hfree
  refine (Status.next_lockPicked (role_of_run hst hrun) hopen).of_eq ?_
  simp [runRole, stageRole]

lemma Inv.unlock (hinv : Inv s) (h : s.unlock c = some t) : Keeps s t := by
  obtain ⟨tid, hrun, hnext⟩ := atStage_eq_some h
  cases hnext
  apply hinv.setLocked_setRun hrun
  · intro x thread
    simp
  · rfl
  · intro y hy
    rfl
  intro st hst
  exact Status.next_release (role_of_run hst hrun)

lemma Inv.clear (hinv : Inv s) (h : s.clear c = some t) : Keeps s t := by
  obtain ⟨tid, hrun, hnext⟩ := atStage_eq_some h
  cases hnext
  constructor
  · apply hinv.wf.setCpu c
    · intro x thread hbusy
      simp at hbusy
    · rfl
  apply Simulates.of_step (x := tid)
  · intro st hst
    refine (Status.next_clear (role_of_run hst hrun)).of_eq ?_
    rw [view_setCpu, hst]
    simp [runRole, stageRole]
  · intro y hy
    apply view_setCpu_of_ne
    · rw [hrun]
      exact runRole_of_ne hy
    · exact runRole_of_ne hy

lemma Inv.enqueue (hinv : Inv s) (h : s.enqueue c = some t) : Keeps s t := by
  obtain ⟨tid, hrun, hnext⟩ := atStage_eq_some h
  cases hnext
  constructor
  · apply (hinv.wf.setReady _).setRun c
    · intro x thread
      simp
    · change Run.current (.busy tid .queued) = (s.cpus c).run.current
      rw [hrun]
      rfl
  apply Simulates.of_step (x := tid)
  · intro st hst
    refine (Status.next_enqueue (role_of_run hst hrun)).of_eq ?_
    rw [setRun, view_setCpu, view_setReady, hst, ← state_of_view hst, ← count_of_view hst]
    split <;> simp [runRole, stageRole]
  · intro y hy
    rw [setRun, view_setCpu_of_ne, view_setReady]
    · split
      · rw [count_append, count_singleton]
        simp [view, hy.symm]
      · rfl
    · change s.runRole (s.cpus c).run y = none
      rw [hrun]
      exact runRole_of_ne hy
    · exact runRole_of_ne hy

lemma Inv.dispatch (hinv : Inv s) (h : s.dispatch c = some t) : Keeps s t := by
  obtain ⟨tid, hrun, hnext⟩ := atStage_eq_some h
  simp only [hinv.wf.context tid] at hnext
  split at hnext
  · rename_i hrunable
    obtain ⟨pc, hpc, ht⟩ := map_eq_some_iff.mp hnext
    subst ht
    have hkind : pc.kind = .locked ∧ pc.tid? = (s.threads tid).pc.tid? := by
      cases hold : (s.threads tid).pc <;> rw [hold] at hpc <;> cases hpc <;>
        exact ⟨rfl, rfl⟩
    obtain ⟨hkind, htid⟩ := hkind
    have hparked : ∀ d x, (s.cpus d).run ≠ .busy x (.task tid) := by
      intro d x hd
      have hx : tid = x := hinv.wf.thread d x tid hd
      subst hx
      obtain ⟨st, hst⟩ := hinv.tracked tid
      have hchosen := role_of_run hst hrun
      have htask := role_of_run hst hd
      cases Status.plays_of_role hchosen
      cases (Status.update_none_eq_some.mp htask).2
    constructor
    · apply Wf.setCpu (Wf.setPc (hinv.wf.setTask tid _) tid _) c
      · intro x thread hbusy
        simp only [Run.busy.injEq, Stage.task.injEq] at hbusy
        exact hbusy.2.symm.trans hbusy.1
      · rfl
      · rfl
      · intro x hx
        rw [htid] at hx
        exact hinv.wf.self tid _ mem_cons_self x hx
    apply Simulates.of_step (x := tid)
    · intro st hst
      refine (Status.next_dispatch (role_of_run hst hrun)).of_eq ?_
      rw [view_setCpu, setPc, view_setThread_of_parked (s := s.setTask tid _) _ hparked,
        view_setTask_self, hst, isLocked_of_view hst]
      simp [runRole, stageRole, setThread, Status.view, hkind]
    · intro y hy
      rw [view_setCpu_of_ne, setPc, view_setThread_of_parked (s := s.setTask tid _) _ hparked,
        view_setTask_of_ne _ hy]
      · change runRole _ (s.cpus c).run y = none
        rw [hrun]
        exact runRole_of_ne hy
      · exact runRole_of_ne hy
  · cases hnext

end

section

variable {s t : Sys} {c x : Nat}

lemma Inv.setThread (hinv : Inv s) (hkind : value.pc.kind = (s.threads x).pc.kind)
    (hself : ∀ pc ∈ value.pc :: value.frames, ∀ z ∈ pc.tid?, z = x)
    (hframes : ∀ pc ∈ value.frames, pc.isOpen = true) : Keeps s (s.setThread x value) :=
  ⟨hinv.wf.setThread x hself hframes, .of_view_eq fun _ => view_setThread_of_kind hkind⟩

variable {pc : Pc}

lemma Inv.setPc (hinv : Inv s) (hkind : pc.kind = (s.threads x).pc.kind)
    (hself : ∀ z ∈ pc.tid?, z = x) : Keeps s (s.setPc x pc) :=
  ⟨hinv.wf.setPc x hself, .of_view_eq fun _ => view_setThread_of_kind hkind⟩

lemma Inv.setTask_setPc (hinv : Inv s) (hrun : (s.cpus c).run = .busy x (.task x))
    (hcontext : task.context = x) (htid : ∀ z ∈ pc.tid?, z = x)
    (hself : ∀ st, s.view x = Status.view st → st.Reaches
      (((st.view.setState task.state).setLocked task.isLocked).setRole c (some (.task pc.kind)))) :
    Keeps s ((s.setTask x task).setPc x pc) := by
  have hone := hinv.one_cpu hrun
  constructor
  · exact (hinv.wf.setTask x hcontext).setPc x htid
  apply Simulates.of_step (x := x)
  · intro st hst
    refine (hself st hst).of_eq ?_
    rw [Sys.setPc, view_setThread_self (s := s.setTask x task) hrun hone, view_setTask_self, hst]
  · intro y hy
    rw [Sys.setPc, view_setThread_of_ne (s := s.setTask x task) hrun hone _ hy,
      view_setTask_of_ne _ hy]

lemma Wf.tid_eq (h : Wf s) (hpc : (s.threads x).pc = pc) (htid : pc.tid? = some tid) : tid = x :=
  h.self x pc (by rw [hpc]; exact mem_cons_self) tid htid

lemma Inv.call (hinv : Inv s) (h : s.call c k = some t) : Keeps s t := by
  obtain ⟨x, hrun, hnext⟩ := hinv.wf.thread_eq_some h
  split at hnext
  · rename_i hpc
    cases hnext
    apply hinv.setPc
    · rw [hpc]
      rfl
    · intro z hz
      cases hz
  · cases hnext

lemma Inv.lock (hinv : Inv s) (h : s.lock c = some t) : Keeps s t := by
  obtain ⟨x, hrun, hnext⟩ := hinv.wf.thread_eq_some h
  split at hnext
  · rename_i call tid hpc
    have htid : tid = x := hinv.wf.tid_eq hpc rfl
    subst htid
    split at hnext
    · cases hnext
    rename_i hfree
    cases hnext
    apply hinv.setTask_setPc hrun
    · exact hinv.wf.context tid
    · intro z hz
      exact (some.inj hz).symm
    intro st hst
    have hopen : st.isLocked = false := by
      rw [← isLocked_of_view hst]
      simpa using hfree
    have hrole : st.role c = some (.task .free) := by
      rw [role_of_run hst hrun, stageRole, hpc]
      rfl
    refine (Status.next_lock hrole hopen).of_eq ?_
    rw [state_of_view hst]
    rfl
  · cases hnext

lemma Inv.unlockSelf (hinv : Inv s) (hrun : (s.cpus c).run = .busy x (.task x))
    (hkind : (s.threads x).pc.kind = .locked) (hfree : pc.kind = .free)
    (htid : ∀ z ∈ pc.tid?, z = x) : Keeps s ((s.setLocked x false).setPc x pc) := by
  apply hinv.setTask_setPc hrun
  · exact hinv.wf.context x
  · exact htid
  intro st hst
  have hrole : st.role c = some (.task .locked) := by
    rw [role_of_run hst hrun, stageRole, hkind]
  refine (Status.next_unlock hrole).of_eq ?_
  rw [state_of_view hst, hfree]
  rfl

lemma Pc.kind_after (call : Call) (tid : Nat) : (Pc.after call tid again).kind = .free := by
  cases again <;> rfl

lemma Pc.tid_after {call : Call} {tid z : Nat}
    (h : z ∈ (Pc.after call tid again).tid?) : z = tid := by
  cases again
  · cases h
  · exact (some.inj h).symm

lemma Inv.unlockAfter (hinv : Inv s) (hrun : (s.cpus c).run = .busy x (.task x))
    (hkind : (s.threads x).pc.kind = .locked) (call : Call) :
    Keeps s ((s.setLocked x false).setPc x (.after call x again)) :=
  hinv.unlockSelf hrun hkind (Pc.kind_after call x) fun _ hz => Pc.tid_after hz

lemma Inv.leave (hinv : Inv s) (h : s.leave c again = some t) : Keeps s t := by
  obtain ⟨x, hrun, hnext⟩ := hinv.wf.thread_eq_some h
  split at hnext
  · rename_i call tid hpc
    have htid : tid = x := hinv.wf.tid_eq hpc rfl
    subst htid
    cases hnext
    exact hinv.unlockAfter hrun (by rw [hpc]; rfl) call
  · cases hnext

lemma Inv.drop (hinv : Inv s) (h : s.drop c again = some t) : Keeps s t := by
  obtain ⟨x, hrun, hnext⟩ := hinv.wf.thread_eq_some h
  split at hnext
  · rename_i call tid hpc
    have htid : tid = x := hinv.wf.tid_eq hpc rfl
    subst htid
    split at hnext
    · cases hnext
    cases hnext
    exact hinv.unlockAfter hrun (by rw [hpc]; rfl) call
  · cases hnext

lemma Inv.entry (hinv : Inv s) (h : s.entry c = some t) : Keeps s t := by
  obtain ⟨x, hrun, hnext⟩ := hinv.wf.thread_eq_some h
  split at hnext
  · rename_i hpc
    have hcurrent : (s.cpus c).currentTask = some x := by
      rw [hinv.wf.current c, hrun]
      rfl
    rw [hcurrent] at hnext
    cases hnext
    apply hinv.unlockSelf hrun
    · rw [hpc]
      rfl
    · rfl
    · intro z hz
      cases hz
  · cases hnext

lemma Inv.mark (hinv : Inv s) (h : s.mark c = some t) : Keeps s t := by
  obtain ⟨x, hrun, hnext⟩ := hinv.wf.thread_eq_some h
  split at hnext
  · rename_i call tid hpc
    have htid : tid = x := hinv.wf.tid_eq hpc rfl
    subst htid
    simp only at hnext
    split at hnext
    · cases hnext
      apply hinv.setTask_setPc hrun
      · exact hinv.wf.context tid
      · intro z hz
        exact (some.inj hz).symm
      intro st hst
      have hrole : st.role c = some (.task .locked) := by
        rw [role_of_run hst hrun, stageRole, hpc]
        rfl
      refine (Status.next_mark call hrole).of_eq ?_
      rw [isLocked_of_view hst]
      rfl
    · cases hnext
  · cases hnext

lemma Inv.tick (hinv : Inv s) (h : s.tick c = some t) : Keeps s t := by
  obtain ⟨x, hrun, hnext⟩ := hinv.wf.thread_eq_some h
  simp only at hnext
  obtain ⟨hopen, rfl⟩ := ite_some_none_eq_some.mp hnext
  apply hinv.setThread
  · cases hpc : (s.threads x).pc <;> rw [hpc] at hopen <;>
      first | rfl | cases hopen
  · intro pc hpc
    rcases mem_cons.mp hpc with rfl | hmem
    · intro z hz
      cases hz
    · exact hinv.wf.self x pc hmem
  intro pc hpc
  rcases mem_cons.mp hpc with rfl | hmem
  · exact hopen
  · exact hinv.wf.frames x pc hmem

lemma Pc.kind_of_isOpen (h : pc.isOpen = true) : pc.kind = .free := by
  cases pc <;> first | rfl | cases h

lemma Inv.tickRet (hinv : Inv s) (h : s.tickRet c = some t) : Keeps s t := by
  obtain ⟨x, hrun, hnext⟩ := hinv.wf.thread_eq_some h
  split at hnext
  · rename_i pc frames hthread
    cases hnext
    have hframes := hinv.wf.frames x
    have hself := hinv.wf.self x
    rw [hthread] at hframes hself
    apply hinv.setThread
    · rw [hthread]
      exact Pc.kind_of_isOpen (hframes pc mem_cons_self)
    · intro other hmem
      exact hself other (mem_cons_of_mem _ hmem)
    · intro other hmem
      exact hframes other (mem_cons_of_mem _ hmem)
  · cases hnext

lemma Inv.sched (hinv : Inv s) (h : s.sched c = some t) : Keeps s t := by
  simp only [Sys.sched] at h
  split at h
  · rename_i picked thread hrun
    have hthread : thread = picked := hinv.wf.thread c picked thread hrun
    subst hthread
    split at h
    · rename_i call tid hpc
      have htid : tid = thread := hinv.wf.tid_eq hpc rfl
      subst htid
      cases h
      have hone := hinv.one_cpu hrun
      constructor
      · apply Wf.setRun (Wf.setPc (hinv.wf.setTask tid rfl) tid _) c
        · intro x thread
          simp
        · change Run.current (.busy tid .back) = (s.cpus c).run.current
          rw [hrun]
          rfl
        · intro z hz
          exact (some.inj hz).symm
      apply Simulates.of_step (x := tid)
      · intro st hst
        have hrole : st.role c = some (.task (.marked call)) := by
          rw [role_of_run hst hrun, stageRole, hpc]
          rfl
        refine (Status.next_sched hrole).of_eq ?_
        rw [Sys.setRun, view_setCpu, Sys.setPc,
          view_setThread_self (s := s.setTask tid _) hrun hone, view_setTask_self, hst,
          state_of_view hst, isLocked_of_view hst]
        simp [runRole, stageRole, Status.view]
      · intro y hy
        rw [Sys.setRun, view_setCpu_of_ne, Sys.setPc,
          view_setThread_of_ne (s := s.setTask tid _) hrun hone _ hy, view_setTask_of_ne _ hy]
        · change runRole _ (s.cpus c).run y = none
          rw [hrun]
          exact runRole_of_ne hy
        · exact runRole_of_ne hy
    · cases h
  · cases h

end

section

variable {s t : Sys}

lemma Inv.setTask_setWaker (hinv : Inv s) (hcontext : task.context = tid)
    (hold : ∀ y, y ≠ tid → (s.wakers w).role y = none)
    (hnew : ∀ y, y ≠ tid → waker.role y = none)
    (hself : ∀ st, s.view tid = Status.view st → st.Reaches
      (((st.view.setState task.state).setLocked task.isLocked).setWaker w (waker.role tid))) :
    Keeps s ((s.setTask tid task).setWaker w waker) := by
  constructor
  · exact (hinv.wf.setTask tid hcontext).setWaker w waker
  apply Simulates.of_step (x := tid)
  · intro st hst
    refine (hself st hst).of_eq ?_
    rw [view_setWaker, view_setTask_self, hst]
  · intro y hy
    rw [view_setWaker_of_ne (s := s.setTask tid task) (hold y hy)
      (hnew y hy), view_setTask_of_ne _ hy]

lemma Inv.wakeLock (hinv : Inv s) (h : s.wakeLock w tid = some t) : Keeps s t := by
  obtain ⟨hfree, rfl⟩ := ite_some_none_eq_some.mp h
  apply hinv.setTask_setWaker
  · exact hinv.wf.context tid
  · intro y _
    rw [hfree.1]
    rfl
  · intro y hy
    exact if_neg hy.symm
  intro st hst
  have hopen : st.isLocked = false := by
    rw [← isLocked_of_view hst]
    exact hfree.2
  refine (Status.next_wakeLock (w := w) hopen).of_eq ?_
  simp [state_of_view hst, Status.view, Waker.role]

lemma WakeUp.state_wakes {how : WakeUp} {task : Task}
    (h : how.wakes task = true) : task.state.wakes = true := by
  cases how with
  | wakeup => exact h
  | wakeupIfInterruptible => exact TaskState.wakes_of_wakesIfInterruptible h
  | wakeupIfWaiting => exact TaskState.wakes_of_wakesIfWaiting h
  | signal =>
    simp only [WakeUp.wakes, Bool.and_eq_true] at h
    exact h.2
  | timer =>
    simp only [WakeUp.wakes, Bool.and_eq_true, beq_iff_eq] at h
    rw [h.2]
    rfl

lemma Inv.wake (hinv : Inv s) (h : s.wake w how = some t) : Keeps s t := by
  simp only [Sys.wake] at h
  split at h
  · rename_i tid hwaker
    have hrole : ∀ st, s.view tid = Status.view st → st.wakerRole w = some .locked := by
      intro st hst
      rw [wakerRole_of_view hst, hwaker]
      exact if_pos rfl
    have hold : ∀ y, y ≠ tid → (s.wakers w).role y = none := by
      intro y hy
      rw [hwaker]
      exact if_neg hy.symm
    split at h
    · rename_i hwakes
      cases h
      apply hinv.setTask_setWaker
      · exact hinv.wf.context tid
      · exact hold
      · intro y hy
        exact if_neg hy.symm
      intro st hst
      have hstate : st.state.wakes = true := by
        rw [← state_of_view hst]
        exact WakeUp.state_wakes hwakes
      refine (Status.next_wake (hrole st hst) hstate).of_eq ?_
      simp [isLocked_of_view hst, Status.view, Waker.role]
    · cases h
      apply hinv.setTask_setWaker
      · exact hinv.wf.context tid
      · exact hold
      · intro y hy
        exact if_neg hy.symm
      intro st hst
      refine (Status.next_wakeDone (hrole st hst)).of_eq ?_
      simp [state_of_view hst, isLocked_of_view hst, Status.view, Waker.role]
  · cases h

lemma Inv.wakeEnqueue (hinv : Inv s) (h : s.wakeEnqueue w = some t) : Keeps s t := by
  simp only [Sys.wakeEnqueue] at h
  split at h
  · rename_i tid hwaker
    cases h
    constructor
    · exact (hinv.wf.setReady _).setWaker w _
    apply Simulates.of_step (x := tid)
    · intro st hst
      have hrole : st.wakerRole w = some .woken := by
        rw [wakerRole_of_view hst, hwaker]
        exact if_pos rfl
      refine (Status.next_wakeEnqueue hrole).of_eq ?_
      rw [view_setWaker, view_setReady, hst, ← count_of_view hst]
      simp [Waker.role]
    · intro y hy
      rw [view_setWaker_of_ne, view_setReady, count_append, count_singleton]
      · simp [view, hy.symm]
      · change (s.wakers w).role y = none
        rw [hwaker]
        exact if_neg hy.symm
      · exact if_neg hy.symm
  · cases h

lemma Inv.wakeUnlock (hinv : Inv s) (h : s.wakeUnlock w = some t) : Keeps s t := by
  simp only [Sys.wakeUnlock] at h
  split at h
  · rename_i tid hwaker
    cases h
    apply hinv.setTask_setWaker
    · exact hinv.wf.context tid
    · intro y hy
      rw [hwaker]
      exact if_neg hy.symm
    · intro y _
      rfl
    intro st hst
    have hrole : st.wakerRole w = some .done := by
      rw [wakerRole_of_view hst, hwaker]
      exact if_pos rfl
    refine (Status.next_wakeUnlock hrole).of_eq ?_
    simp [state_of_view hst, Status.view, Waker.role]
  · cases h

end

/-- Who copies the slot that `mycpu` returned finds the task it runs for, or no
task: the slot is not that of a CPU it has been moved away from and that runs
another task by now. -/
def findsSelf (s : Sys) : Action → Prop
  | .copySlot c =>
    ∀ thread ∈ s.thread? c, ∀ cpu ∈ (s.threads thread).pc.slot?,
      ∀ tid ∈ (s.cpus cpu).currentTask, tid = thread
  | _ => True

instance (s : Sys) : (action : Action) → Decidable (findsSelf s action)
  | .copySlot c =>
    inferInstanceAs (Decidable (∀ thread ∈ s.thread? c, ∀ cpu ∈ (s.threads thread).pc.slot?,
        ∀ tid ∈ (s.cpus cpu).currentTask, tid = thread))
  | .pick _ _ | .lockPicked _ | .dispatch _ | .enqueue _ | .clear _ | .unlock _
  | .call _ _ | .lock _ | .leave _ _ | .mark _ | .sched _ | .drop _ _
  | .entry _ | .tick _ | .tickRet _ | .wakeLock _ _ | .wake _ _
  | .wakeEnqueue _ | .wakeUnlock _ => isTrue trivial

lemma Inv.copySlot (hinv : Inv s) (hok : findsSelf s (.copySlot c)) (h : s.copySlot c = some t) :
    Keeps s t := by
  obtain ⟨x, hrun, hnext⟩ := hinv.wf.thread_eq_some h
  have hthread : s.thread? c = some x := by simp [thread?, hrun]
  split at hnext
  · rename_i call cpu hpc
    split at hnext
    · rename_i tid hslot
      cases hnext
      apply hinv.setPc
      · rw [hpc]
        rfl
      intro z hz
      cases hz
      exact hok x hthread cpu (by rw [hpc]; rfl) tid hslot
    cases hnext
    apply hinv.setPc
    · rw [hpc]
      rfl
    · intro z hz
      cases hz
  · cases hnext

lemma Inv.step (hinv : Inv s)
    (hok : findsSelf s action) (h : s.step action = some t) : Keeps s t := by
  cases action with
  | pick c tid => exact hinv.pick h
  | lockPicked c => exact hinv.lockPicked h
  | dispatch c => exact hinv.dispatch h
  | enqueue c => exact hinv.enqueue h
  | clear c => exact hinv.clear h
  | unlock c => exact hinv.unlock h
  | call c k => exact hinv.call h
  | copySlot c => exact hinv.copySlot hok h
  | lock c => exact hinv.lock h
  | leave c again => exact hinv.leave h
  | mark c => exact hinv.mark h
  | sched c => exact hinv.sched h
  | drop c again => exact hinv.drop h
  | entry c => exact hinv.entry h
  | tick c => exact hinv.tick h
  | tickRet c => exact hinv.tickRet h
  | wakeLock w tid => exact hinv.wakeLock h
  | wake w how => exact hinv.wake h
  | wakeEnqueue w => exact hinv.wakeEnqueue h
  | wakeUnlock w => exact hinv.wakeUnlock h

lemma Inv.boot : Inv boot := by
  constructor
  · constructor
    · intro x
      rfl
    · intro c x thread hrun
      cases hrun
    · intro thread pc hpc x hx
      rcases mem_cons.mp hpc with rfl | hmem
      · cases hx
      · cases hmem
    · intro thread pc hpc
      cases hpc
    · intro c
      rfl
  · intro x
    exact ⟨.resting .initialized rfl .free, rfl⟩

lemma Inv.of_reachable (hs : machine.ReachableUnder findsSelf s) : Inv s := by
  apply hs.invariant
  · intro s hstart
    rw [hstart]
    exact Inv.boot
  intro s action t hinv hok hstep
  have hkeeps := hinv.step hok hstep
  exact ⟨hkeeps.wf, hkeeps.sim.tracked hinv.tracked⟩

/-- While the lock of a task is free, its state says where the task is.  The
scheduler's assertion holds of the task it has picked. -/
structure Settled (s : Sys) : Prop where
  running : ∀ x, (s.tasks x).isLocked = false → (s.tasks x).state = .running →
    ∃ c, ∀ d, (s.cpus d).currentTask = some x ↔ d = c
  notRunning : ∀ x, (s.tasks x).isLocked = false →
    (s.tasks x).state ≠ .running → ∀ c, (s.cpus c).currentTask ≠ some x
  runable : ∀ x, (s.tasks x).isLocked = false → (s.tasks x).state = .runable →
    (s.ready.count x = 1 ∧ ∀ c, (s.cpus c).run ≠ .busy x .picked) ∨
      (s.ready.count x = 0 ∧ ∃ c, ∀ d, (s.cpus d).run = .busy x .picked ↔ d = c)
  notRunable : ∀ x, (s.tasks x).isLocked = false → (s.tasks x).state ≠ .runable →
      s.ready.count x = 0 ∧ ∀ c, (s.cpus c).run ≠ .busy x .picked
  assertion : ∀ c x, (s.cpus c).run = .busy x .locked → (s.tasks x).state = .runable

lemma Status.cases_of_free {st : Status} (h : st.isLocked = false) :
    (∃ state hrests, st = .resting state hrests .free) ∨ st = .ready .free ∨
      (∃ c, st = .picked c .free) ∨ ∃ c, st = .running c .free := by
  cases st with
  | resting state hrests hold =>
    rw [Hold.eq_free h]
    exact .inl ⟨state, hrests, rfl⟩
  | ready hold =>
    rw [Hold.eq_free h]
    exact .inr (.inl rfl)
  | picked c hold =>
    rw [Hold.eq_free h]
    exact .inr (.inr (.inl ⟨c, rfl⟩))
  | running c hold =>
    rw [Hold.eq_free h]
    exact .inr (.inr (.inr ⟨c, rfl⟩))
  | _ => cases h

section

variable {s : Sys} {st : Status} {c x : Nat}

lemma run_of_runRole (h : s.runRole run x = some r) :
    ∃ stage, run = .busy x stage ∧ s.stageRole stage = r := by
  cases run with
  | loop => cases h
  | busy tid stage =>
    by_cases htid : tid = x
    · subst htid
      exact ⟨stage, rfl, by simpa [runRole] using h⟩
    · simp [runRole, htid] at h

lemma picked_iff (hst : s.view x = st.view) :
    (s.cpus c).run = .busy x .picked ↔ st.role c = some .picked := by
  constructor
  · intro hrun
    exact role_of_run hst hrun
  intro hrole
  rw [role_of_view hst] at hrole
  obtain ⟨stage, hrun, hstage⟩ := run_of_runRole hrole
  rw [hrun]
  cases stage <;> first | rfl | cases hstage

lemma current_iff (hinv : Inv s) (hst : s.view x = st.view) : (s.cpus c).currentTask = some x ↔
    (∃ kind, st.role c = some (.task kind)) ∨ st.role c = some .back ∨
      st.role c = some .queued := by
  rw [hinv.wf.current c, role_of_view hst c]
  cases hrun : (s.cpus c).run with
  | loop => simp [Run.current, runRole]
  | busy tid stage =>
    cases stage <;> by_cases htid : tid = x <;>
      simp [Run.current, runRole, stageRole, htid]

end

/-- In every run in which the code that asks for the current task never gets
another one, states, current tasks and the ready queue agree. -/
theorem settled_of_findsSelf {s : Sys} (hs : machine.ReachableUnder findsSelf s) : Settled s := by
  have hinv := Inv.of_reachable hs
  constructor
  · intro x hfree hstate
    obtain ⟨st, hst⟩ := hinv.tracked x
    rw [isLocked_of_view hst] at hfree
    rw [state_of_view hst] at hstate
    rcases Status.cases_of_free hfree with ⟨state, hrests, rfl⟩ | rfl | ⟨c, rfl⟩ | ⟨c, rfl⟩
    · change state = .running at hstate
      subst hstate
      cases hrests
    · cases hstate
    · cases hstate
    refine ⟨c, fun d => ?_⟩
    rw [current_iff hinv hst]
    simp [Status.update_none_eq_some]
  · intro x hfree hstate c
    obtain ⟨st, hst⟩ := hinv.tracked x
    rw [isLocked_of_view hst] at hfree
    rw [state_of_view hst] at hstate
    rw [Ne, current_iff hinv hst]
    rcases Status.cases_of_free hfree with ⟨state, hrests, rfl⟩ | rfl | ⟨d, rfl⟩ | ⟨d, rfl⟩
    · simp
    · simp
    · simp [Status.update_none_eq_some]
    · exact absurd rfl hstate
  · intro x hfree hstate
    obtain ⟨st, hst⟩ := hinv.tracked x
    rw [isLocked_of_view hst] at hfree
    rw [state_of_view hst] at hstate
    rw [count_of_view hst]
    simp only [ne_eq, picked_iff hst]
    rcases Status.cases_of_free hfree with ⟨state, hrests, rfl⟩ | rfl | ⟨c, rfl⟩ | ⟨c, rfl⟩
    · change state = .runable at hstate
      subst hstate
      cases hrests
    · simp
    · refine .inr ⟨rfl, c, fun d => ?_⟩
      simp [Status.update_none_eq_some]
    · cases hstate
  · intro x hfree hstate
    obtain ⟨st, hst⟩ := hinv.tracked x
    rw [isLocked_of_view hst] at hfree
    rw [state_of_view hst] at hstate
    rw [count_of_view hst]
    simp only [ne_eq, picked_iff hst]
    rcases Status.cases_of_free hfree with ⟨state, hrests, rfl⟩ | rfl | ⟨c, rfl⟩ | ⟨c, rfl⟩
    · simp
    · exact absurd rfl hstate
    · exact absurd rfl hstate
    · simp [Status.update_none_eq_some]
  · intro c x hrun
    obtain ⟨st, hst⟩ := hinv.tracked x
    rw [state_of_view hst]
    cases Status.plays_of_role (role_of_run hst hrun) with
    | chosen => rfl

/-- Start a task on a waker and run it on a CPU up to its own code. -/
def startActions (w c tid : Nat) : List Action :=
  [.wakeLock w tid, .wake w .wakeup, .wakeEnqueue w, .wakeUnlock w,
    .pick c tid, .lockPicked c, .dispatch c, .entry c]

/-- The running task of a CPU yields and waits in the ready queue. -/
def yieldActions (c : Nat) : List Action :=
  [.call c .yieldNow, .copySlot c, .lock c, .mark c, .sched c, .enqueue c, .clear c, .unlock c]

/-- A task yields on one CPU and is run again by another one. -/
def handOverTrace : List Action :=
  startActions 0 0 1 ++ yieldActions 0 ++ [.pick 1 1, .lockPicked 1, .dispatch 1, .drop 1 false]

theorem handOverTrace_settled : ∃ s, machine.runUnder findsSelf boot handOverTrace = some s ∧
      (s.tasks 1).isLocked = false ∧ (s.tasks 1).state = .running ∧
      Settled s := by
  have hrun : ((machine.runUnder findsSelf boot handOverTrace).map
      fun s => ((s.tasks 1).isLocked, (s.tasks 1).state)) = some (false, .running) := by
    decide +kernel
  obtain ⟨s, hrun, hfacts⟩ := map_eq_some_iff.mp hrun
  obtain ⟨hfree, hstate⟩ := Prod.mk.inj hfacts
  refine ⟨s, hrun, hfree, hstate, ?_⟩
  apply settled_of_findsSelf
  exact Machine.ReachableUnder.runUnder (.start rfl) hrun

lemma Status.alone_of_task {st : Status} (h : st.role c = some (.task k)) :
    st.count = 0 ∧ ∀ d k', st.role d = some (.task k') → d = c := by
  cases st with
  | resting _ _ hold | ready hold | picked _ hold =>
    cases hold <;> simp [update_apply] at h; grind
  | _ => simp_all [update_apply]

/-- While the code of a task runs on a CPU, with the lock of the task or
without, it runs on no other one and does not wait for one. -/
theorem task_on_one_cpu {s : Sys} (hs : machine.ReachableUnder findsSelf s)
    (hc : (s.cpus c).run = .busy x (.task i)) :
    x ∉ s.ready ∧ ∀ d j, (s.cpus d).run = .busy x (.task j) → d = c := by
  obtain ⟨st, hst⟩ := (Inv.of_reachable hs).tracked x
  obtain ⟨hcount, halone⟩ := Status.alone_of_task (role_of_run hst hc)
  refine ⟨?_, fun d j hd => halone d _ (role_of_run hst hd)⟩
  rw [← count_eq_zero, ← hcount]
  exact congrArg View.count hst

theorem task_on_one_cpu_handOver : ∃ s : Sys, (s.cpus 1).run = .busy 1 (.task 1) ∧ 1 ∉ s.ready := by
  have hrun : ((machine.runUnder findsSelf boot handOverTrace).map fun s => (s.cpus 1).run) =
      some (.busy 1 (.task 1)) := by
    decide +kernel
  obtain ⟨s, hrun, hbusy⟩ := map_eq_some_iff.mp hrun
  exact ⟨s, hbusy, (task_on_one_cpu (.runUnder (.start rfl) hrun) hbusy).1⟩

/-- Every step takes every task at most one step further in its life. -/
theorem step_follows_life {s t : Sys} (hs : machine.ReachableUnder findsSelf s)
    (hok : findsSelf s a) (h : s.step a = some t) : Tracked s ∧ Simulates s t := by
  have hinv := Inv.of_reachable hs
  exact ⟨hinv.tracked, (hinv.step hok h).sim⟩

/-- The step in which the second CPU lets the task run. -/
theorem step_follows_life_handOver : ∃ s t, s.step (.drop 1 false) = some t ∧
    (t.tasks 1).state = .running ∧ Simulates s t := by
  have hrun : ((machine.runUnder findsSelf boot handOverTrace.dropLast).map fun s =>
      (s.step (.drop 1 false)).map fun t => (t.tasks 1).state) = some (some .running) := by
    decide +kernel
  obtain ⟨s, hrun, hstep⟩ := map_eq_some_iff.mp hrun
  obtain ⟨t, hstep, hstate⟩ := map_eq_some_iff.mp hstep
  have hs := Machine.ReachableUnder.runUnder (.start rfl) hrun
  exact ⟨s, t, hstep, hstate, (step_follows_life (a := .drop 1 false) hs trivial hstep).2⟩

/-- Task 1 is preempted in the `current_task` of its yield, between `mycpu` and
the copy.  CPU 0 then runs task 2, and CPU 1 lets task 1 go on, which finds task
2 in the record of CPU 0, marks it and switches itself out. -/
def staleSlotTrace : List Action :=
  startActions 0 0 1 ++ [.call 0 .yieldNow, .tick 0] ++ yieldActions 0 ++ startActions 0 0 2 ++
    [.pick 1 1, .lockPicked 1, .dispatch 1, .drop 1 false, .tickRet 1,
      .copySlot 1, .lock 1, .mark 1, .sched 1, .enqueue 1, .clear 1, .unlock 1]

lemma staleSlotTrace_others_idle : ((machine.run boot staleSlotTrace).map fun s =>
    (s.cpus (c + 2)).currentTask) = some none := by
  rfl

/-- Task 1 is lost: it is running, but on no CPU. -/
theorem staleSlotTrace_not_settled : ¬ ∀ s, machine.Reachable s → Settled s := by
  intro hall
  have hrun : ((machine.run boot staleSlotTrace).map fun s =>
      ((s.tasks 1).isLocked, (s.tasks 1).state, (s.cpus 0).currentTask,
        (s.cpus 1).currentTask)) = some (false, .running, some 2, none) := by
    decide +kernel
  obtain ⟨s, hrun, hfacts⟩ := map_eq_some_iff.mp hrun
  simp only [Prod.mk.injEq] at hfacts
  obtain ⟨hfree, hstate, hzero, hone⟩ := hfacts
  have hs : machine.Reachable s := Machine.Reachable.run (.start rfl) hrun
  obtain ⟨c, hc⟩ := (hall s hs).running 1 hfree hstate
  have hcurrent : (s.cpus c).currentTask = some 1 := (hc c).mpr rfl
  match c with
  | 0 =>
    rw [hzero] at hcurrent
    cases hcurrent
  | 1 =>
    rw [hone] at hcurrent
    cases hcurrent
  | c + 2 =>
    obtain ⟨s', hrun', hidle⟩ := map_eq_some_iff.mp (staleSlotTrace_others_idle)
    cases hrun'.symm.trans hrun
    rw [hidle] at hcurrent
    cases hcurrent

end Redwing.Scheduler
