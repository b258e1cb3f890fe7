/-
The completely fair scheduler of `proc/sched/cfs.rs`: the weights and virtual
run times of the queued tasks, and what a running task is charged.
-/
import Mathlib
import Redwing.Machine

namespace Redwing.Cfs

open List Function Option

def niceToWeights : List Nat := [
  88761, 71755, 56483, 46273, 36291, 29154, 23254, 18705, 14949, 11916,
  9548, 7620, 6100, 4904, 3906, 3121, 2501, 1991, 1586, 1277,
  1024, 820, 655, 526, 423, 335, 272, 215, 172, 137,
  110, 87, 70, 56, 45, 36, 29, 23, 18, 15]

def niceToWeight (nice : Int) : Nat := niceToWeights.getD (max (-20) (min nice 19) + 20).toNat 0

lemma niceToWeight_pos (nice : Int) : 0 < niceToWeight nice := by
  have hindex : (max (-20) (min nice 19) + 20).toNat < niceToWeights.length := by
    rw [show niceToWeights.length = 40 from rfl]
    omega
  rw [niceToWeight, getD_eq_getElem?_getD, getElem?_eq_getElem hindex, getD_some]
  exact (by decide : ∀ weight ∈ niceToWeights, 0 < weight) _ (getElem_mem hindex)

/-- `CFSAttrs`; times are in nanoseconds. -/
structure Attrs where
  nice : Int
  vruntime : Nat
  startExecutionTime : Nat
  slice : Nat

def Attrs.weight (a : Attrs) : Nat := niceToWeight a.nice

/-- What one tick adds to the virtual run time. -/
def Attrs.charge (a : Attrs) (now : Nat) : Nat := (now - a.startExecutionTime) * 1024 / a.weight

/-- Insertion into the tree, read from its least key on: behind equal keys. -/
def insertByKey {α : Type} (key : α → Nat) (x : α) : List α → List α
  | [] => [x]
  | y :: rest => if key x < key y then x :: y :: rest else y :: insertByKey key x rest

section
variable {α : Type} (key : α → Nat) (x : α) (l : List α)

lemma insertByKey_perm : (insertByKey key x l).Perm (x :: l) := by
  induction l with
  | nil => rfl
  | cons y rest ih =>
    rw [insertByKey]
    split
    · rfl
    · exact (ih.cons y).trans (.swap x y rest)

variable {key l} in
lemma insertByKey_pairwise (h : l.Pairwise fun a b => key a ≤ key b) :
    (insertByKey key x l).Pairwise fun a b => key a ≤ key b := by
  induction h with
  | nil => exact pairwise_singleton _ x
  | @cons y rest hy hrest ih =>
    rw [insertByKey]
    split
    · next hlt =>
      refine .cons (fun b hb => ?_) (.cons hy hrest)
      obtain rfl | hb := mem_cons.mp hb
      · exact hlt.le
      · exact hlt.le.trans (hy b hb)
    · next hge =>
      refine .cons (fun b hb => ?_) ih
      obtain rfl | hb := mem_cons.mp ((insertByKey_perm key x rest).mem_iff.mp hb)
      · exact not_lt.mp hge
      · exact hy b hb

end

/-- `CFSchedulerInner` and the attributes of all tasks; the tree is the list of
its tasks in the order of their keys. -/
structure Sched where
  attrs : Nat → Attrs
  rbtree : List Nat
  minVruntime : Nat
  totalWeight : Nat

namespace Sched

def schedLatency : Nat := 20000000

def schedMinGranularity : Nat := 4000000

section

variable (s : Sched)

def vruntime (task : Nat) : Nat := (s.attrs task).vruntime

/-- The virtual run time of the front of the tree. -/
def front : Nat :=
  match s.rbtree with
  | [] => 0
  | task :: _ => s.vruntime task

def setAttrs (task : Nat) (a : Attrs) : Sched := { s with attrs := update s.attrs task a }

/-- A task comes into the tree, not in front of the one that is first there. -/
def enqueueReady (task : Nat) : Sched :=
  let attrs := s.attrs task
  let t := s.setAttrs task { attrs with vruntime := max attrs.vruntime s.front }
  { t with
    minVruntime := s.front
    totalWeight := s.totalWeight + attrs.weight
    rbtree := insertByKey t.vruntime task s.rbtree }

/-- `tick` for the current task, and whether it yields. -/
def tick (task now : Nat) : Sched × Bool :=
  let attrs := s.attrs task
  (s.setAttrs task { attrs with vruntime := attrs.vruntime + attrs.charge now },
    attrs.slice ≤ now - attrs.startExecutionTime)

/-- The picked task; the outer `none` is a panic, for a zero divisor or an
underflow of the total weight. -/
def pickNextTask (now : Nat) : Option (Option Nat × Sched) :=
  match s.rbtree with
  | [] => some (none, s)
  | task :: rest =>
    let attrs := s.attrs task
    if s.totalWeight = 0 ∨ s.totalWeight < attrs.weight then none
    else
      some (some task,
        { s.setAttrs task { attrs with
            startExecutionTime := now
            slice := max (schedLatency * attrs.weight / s.totalWeight) schedMinGranularity } with
          rbtree := rest, totalWeight := s.totalWeight - attrs.weight })

end

lemma attrs_of_pick {s t : Sched} {now task : Nat} (h : s.pickNextTask now = some (some task, t)) :
    s.rbtree.head? = some task ∧ t.vruntime task = s.vruntime task ∧
    (t.attrs task).startExecutionTime = now ∧ (t.attrs task).nice = (s.attrs task).nice := by
  revert h
  rw [pickNextTask]
  split
  · rintro ⟨⟩
  · next heq =>
    simp only [ite_none_left_eq_some]
    rintro ⟨_, ⟨⟩⟩
    simp [heq, setAttrs, vruntime]

def ticks (s : Sched) (task : Nat) (times : List Nat) : Sched :=
  times.foldl (fun s now => (s.tick task now).1) s

lemma ticks_vruntime (s : Sched) (task : Nat) (times : List Nat) :
    (s.ticks task times).vruntime task =
      s.vruntime task + (times.map (s.attrs task).charge).sum := by
  induction times generalizing s with
  | nil => rfl
  | cons now times ih =>
    have hcharge : ((s.tick task now).1.attrs task).charge = (s.attrs task).charge := by
      funext time
      simp [tick, setAttrs, Attrs.charge, Attrs.weight]
    rw [ticks, foldl_cons]
    refine (ih _).trans ?_
    rw [hcharge, map_cons, sum_cons, ← Nat.add_assoc]
    simp [tick, setAttrs, vruntime]

/-- After the ticks at `earlier` and `last` the task is charged for the time it
ran, up to one unit for each tick, exactly if the charges of all ticks but the
last one are rounding errors.  Each tick charges the time from the start of the
run again. -/
theorem charged_run_time_iff (s t : Sched) (now task : Nat)
    (h : s.pickNextTask now = some (some task, t)) (earlier : List Nat) (last : Nat) :
    let weight := (s.attrs task).weight
    let ran := (last - now) * 1024
    let charged := (t.ticks task (earlier ++ [last])).vruntime task - s.vruntime task
    let ticks := earlier.length + 1
    (charged * weight ≤ ran + ticks * weight ∧ ran ≤ charged * weight + ticks * weight) ↔
      (earlier.map fun time => (time - now) * 1024 / weight).sum ≤ ticks := by
  obtain ⟨_, hvruntime, hstart, hnice⟩ := attrs_of_pick h
  have hcharge : (t.attrs task).charge =
      fun time => (time - now) * 1024 / (s.attrs task).weight := by
    funext time
    rw [Attrs.charge, hstart, Attrs.weight, hnice, ← Attrs.weight]
  intro weight ran charged ticks
  have hcharged : charged =
      (earlier.map fun time => (time - now) * 1024 / weight).sum + ran / weight := by
    simp only [charged, ticks_vruntime, hvruntime, hcharge, map_append, sum_append, map_cons,
      map_nil, sum_cons, sum_nil]
    exact Nat.add_sub_cancel_left _ _
  have hdiv := Nat.div_add_mod ran weight
  have hmod := Nat.mod_lt ran (niceToWeight_pos (s.attrs task).nice)
  generalize (earlier.map fun time => (time - now) * 1024 / weight).sum = before at hcharged ⊢
  rw [hcharged, Nat.add_mul, Nat.mul_comm (ran / weight)]
  have hone : weight ≤ ticks * weight := Nat.le_mul_of_pos_left _ (Nat.succ_pos _)
  constructor
  · rintro ⟨hupper, _⟩
    by_contra hmore
    have := Nat.mul_le_mul_right weight (Nat.lt_of_not_le hmore)
    rw [Nat.succ_mul] at this
    change ran % weight < weight at hmod
    omega
  · intro hle
    have := Nat.mul_le_mul_right weight hle
    change ran % weight < weight at hmod
    omega

def oneQueued : Sched := (⟨fun _ => ⟨0, 0, 0, 0⟩, [], 0, 0⟩ : Sched).enqueueReady 1

theorem charged_run_time_two_ticks : ∃ t, oneQueued.pickNextTask 0 = some (some 1, t) ∧
    ((t.ticks 1 [1, 5000000]).vruntime 1 - 0) * 1024 ≤ 5000000 * 1024 + 2 * 1024 :=
  ⟨_, rfl, ((charged_run_time_iff oneQueued _ 0 1 rfl [1] 5000000).mpr (by decide)).1⟩

/-- In a slice of 20 ms two ticks, after 5 and 10 ms, charge 15 ms. -/
theorem charged_too_much : ∃ t, oneQueued.pickNextTask 0 = some (some 1, t) ∧
    (t.attrs 1).slice = 20000000 ∧ oneQueued.vruntime 1 = 0 ∧ (oneQueued.attrs 1).weight = 1024 ∧
    (t.ticks 1 [5000000, 10000000]).vruntime 1 = 15000000 :=
  ⟨_, rfl, by decide +kernel, by decide +kernel, by decide +kernel, by decide +kernel⟩

/-- The total weight is that of the tasks in the tree, which are different and
in the order of their keys. -/
structure Accounted (s : Sched) : Prop where
  weight : s.totalWeight = (s.rbtree.map fun task => (s.attrs task).weight).sum
  nodup : s.rbtree.Nodup
  sorted : s.rbtree.Pairwise fun a b => s.vruntime a ≤ s.vruntime b

variable {s : Sched} {task other : Nat}

lemma setAttrs_ne (a : Attrs) (h : task ∉ s.rbtree) (hother : other ∈ s.rbtree) :
    (s.setAttrs task a).attrs other = s.attrs other :=
  update_of_ne (fun heq : other = task => h (heq ▸ hother)) _ _

/-- The attributes of a task outside the tree are free. -/
lemma Accounted.setAttrs (hs : s.Accounted) (a : Attrs) (h : task ∉ s.rbtree) :
    (s.setAttrs task a).Accounted where
  weight := hs.weight.trans
    (congrArg sum (map_congr_left fun other hother => by rw [setAttrs_ne a h hother]))
  nodup := hs.nodup
  sorted := by
    refine hs.sorted.imp_of_mem fun hx hy hxy => ?_
    rwa [vruntime, vruntime, setAttrs_ne a h hx, setAttrs_ne a h hy]

lemma enqueueReady_perm (s : Sched) (task : Nat) :
    (s.enqueueReady task).rbtree.Perm (task :: s.rbtree) :=
  insertByKey_perm _ task s.rbtree

lemma Accounted.enqueueReady (hs : s.Accounted) (h : task ∉ s.rbtree) :
    (s.enqueueReady task).Accounted := by
  -- the raised run time is set while the task is still outside the tree
  have hset := hs.setAttrs { s.attrs task with vruntime := max (s.vruntime task) s.front } h
  constructor
  · refine Eq.trans ?_ ((s.enqueueReady_perm task).map _).sum_eq.symm
    rw [map_cons, sum_cons, Nat.add_comm]
    exact congrArg₂ _ hset.weight (by simp [Sched.enqueueReady, Sched.setAttrs, Attrs.weight])
  · exact (s.enqueueReady_perm task).nodup_iff.mpr (nodup_cons.mpr ⟨h, hs.nodup⟩)
  · exact insertByKey_pairwise task hset.sorted

/-- With the weights accounted for, the front is picked without a panic. -/
lemma Accounted.pick (hs : s.Accounted) (now : Nat) :
    ∃ t, s.pickNextTask now = some (s.rbtree.head?, t) ∧ t.rbtree = s.rbtree.tail ∧
      t.minVruntime = s.minVruntime ∧ t.Accounted ∧
      ∀ other ∈ t.rbtree, t.vruntime other = s.vruntime other := by
  rw [pickNextTask]
  split
  · next heq => exact ⟨s, by rw [heq]; rfl, by rw [heq]; rfl, rfl, hs, fun _ _ => rfl⟩
  · next task rest heq =>
    obtain ⟨hweight, hnodup, hsorted⟩ := hs
    rw [heq] at hweight hnodup hsorted ⊢
    rw [map_cons, sum_cons] at hweight
    have hpos : 0 < (s.attrs task).weight := niceToWeight_pos _
    obtain ⟨hnew, hrest⟩ := nodup_cons.mp hnodup
    rw [if_neg (by omega)]
    -- the rest of the tree alone is accounted for, and the task is outside of it
    have htail : Accounted { s with
        rbtree := rest, totalWeight := s.totalWeight - (s.attrs task).weight } :=
      ⟨by simp only [hweight, Nat.add_sub_cancel_left], hrest, hsorted.of_cons⟩
    exact ⟨_, rfl, rfl, rfl, htail.setAttrs _ hnew, fun other hother =>
      congrArg Attrs.vruntime (setAttrs_ne (s := { s with rbtree := rest }) _ hnew hother)⟩

lemma Accounted.front_le (hs : s.Accounted) (h : task ∈ s.rbtree) : s.front ≤ s.vruntime task := by
  have hsorted := hs.sorted
  rw [front]
  split
  · next heq => simp [heq] at h
  · next heq =>
    rw [heq] at h hsorted
    obtain rfl | h := mem_cons.mp h
    · exact Nat.le_refl _
    · exact rel_of_pairwise_cons hsorted h

lemma front_eq_of_head (h : s.rbtree.head? = some task) : s.front = s.vruntime task := by
  obtain ⟨rest, heq⟩ := head?_eq_some_iff.mp h
  rw [front, heq]

lemma front_le_enqueued (s : Sched) (task : Nat) :
    s.front ≤ (s.enqueueReady task).vruntime task := by
  simp [enqueueReady, vruntime, setAttrs]

end Sched

/-! ### Runs of the scheduler -/

/-- The scheduler with the tasks that run, and with what was enqueued, picked
and recorded as minimum so far. -/
structure Sys where
  sched : Sched
  running : List Nat
  enqueued : List Nat
  picked : List Nat
  recorded : List Nat

inductive Act
  | enqueueReady (task : Nat)
  | tick (task now : Nat)
  | pickNextTask (now : Nat)
  | setNice (task : Nat) (nice : Int)

/-- A task is enqueued only if it is not linked, and has stopped running then;
a tick is for a task that runs; the nice value changes outside the queue. -/
def step (s : Sys) : Act → Option Sys
  | .enqueueReady task =>
    if task ∈ s.sched.rbtree then none
    else some {
      sched := s.sched.enqueueReady task
      running := s.running.filter (· ≠ task)
      enqueued := task :: s.enqueued
      picked := s.picked
      recorded := s.sched.front :: s.recorded }
  | .tick task now =>
    if task ∈ s.running then some { s with sched := (s.sched.tick task now).1 } else none
  | .pickNextTask now => (s.sched.pickNextTask now).map fun (task, sched) =>
    { s with sched, running := task.toList ++ s.running, picked := task.toList ++ s.picked }
  | .setNice task nice =>
    if task ∈ s.sched.rbtree then none
    else some { s with sched := s.sched.setAttrs task { s.sched.attrs task with nice := nice } }

/-- All tasks new, with arbitrary nice values. -/
def boot (nice : Nat → Int) : Sys := ⟨⟨fun task => ⟨nice task, 0, 0, 0⟩, [], 0, 0⟩, [], [], [], []⟩

def machine : Machine Sys Act where
  start s := ∃ nice, s = boot nice
  step := step

structure Accounted (s : Sys) : Prop where
  sched : s.sched.Accounted
  apart : ∀ task ∈ s.running, task ∉ s.sched.rbtree
  kept : (s.picked ++ s.sched.rbtree).Perm s.enqueued

lemma Accounted.step {s t : Sys} {a : Act} (hs : Accounted s) (h : step s a = some t) :
    Accounted t := by
  obtain ⟨hsched, hapart, hkept⟩ := hs
  cases a with
  | enqueueReady task =>
    obtain ⟨hnew, ⟨⟩⟩ := ite_none_left_eq_some.mp h
    have hperm := s.sched.enqueueReady_perm task
    refine ⟨hsched.enqueueReady hnew, fun other hother hmem => ?_,
      (hperm.append_left s.picked).trans (perm_middle.trans (hkept.cons task))⟩
    obtain ⟨hrun, hne⟩ := mem_filter.mp hother
    obtain rfl | hmem := mem_cons.mp (hperm.mem_iff.mp hmem)
    · simp at hne
    · exact hapart other hrun hmem
  | tick task now =>
    obtain ⟨hrun, ⟨⟩⟩ := ite_none_right_eq_some.mp h
    exact ⟨hsched.setAttrs _ (hapart task hrun), hapart, hkept⟩
  | pickNextTask now =>
    obtain ⟨u, hpick, htail, _, hu, _⟩ := hsched.pick now
    simp only [Cfs.step, hpick, map_some, some.injEq] at h
    subst h
    have hnodup := hsched.nodup
    cases htree : s.sched.rbtree with
    | nil =>
      rw [htree] at htail hkept
      exact ⟨hu, fun _ _ => by simp [htail], by simpa [htail] using hkept⟩
    | cons task rest =>
      rw [htree] at htail hkept hapart hnodup
      refine ⟨hu, fun other hother => ?_, ?_⟩
      · rw [htail]
        obtain rfl | hother := mem_cons.mp hother
        · exact (nodup_cons.mp hnodup).1
        · exact fun hmem => hapart other hother (mem_cons_of_mem _ hmem)
      · rw [htail]
        exact perm_middle.symm.trans hkept
  | setNice task nice =>
    obtain ⟨hnew, ⟨⟩⟩ := ite_none_left_eq_some.mp h
    exact ⟨hsched.setAttrs _ hnew, hapart, hkept⟩

lemma accounted_of_reachable {ok : Sys → Act → Prop} {s : Sys}
    (hs : machine.ReachableUnder ok s) : Accounted s := by
  refine hs.invariant ?_ fun s a t ih _ hstep => ih.step hstep
  rintro s ⟨nice, rfl⟩
  exact ⟨⟨rfl, nodup_nil, .nil⟩, by simp [boot], .nil⟩

/-- The total weight is that of the queued tasks, each of them is queued once
and they are what was enqueued and not picked; a pick does not panic and takes
a task of least virtual run time out of the queue. -/
theorem cfs_accounting (s : Sys) (hs : machine.Reachable s) :
    s.sched.totalWeight = (s.sched.rbtree.map fun task => (s.sched.attrs task).weight).sum ∧
      s.sched.rbtree.Nodup ∧ (s.picked ++ s.sched.rbtree).Perm s.enqueued ∧
      ∀ now, ∃ t, s.sched.pickNextTask now = some (s.sched.rbtree.head?, t) ∧
        t.rbtree = s.sched.rbtree.tail ∧ ∀ task ∈ s.sched.rbtree.head?,
          ∀ other ∈ s.sched.rbtree, s.sched.vruntime task ≤ s.sched.vruntime other := by
  obtain ⟨hsched, _, hkept⟩ := accounted_of_reachable hs
  refine ⟨hsched.weight, hsched.nodup, hkept, fun now => ?_⟩
  obtain ⟨t, hpick, htail, _⟩ := hsched.pick now
  refine ⟨t, hpick, htail, fun task htask other hother => ?_⟩
  rw [← Sched.front_eq_of_head htask]
  exact hsched.front_le hother

/-- Two tasks are enqueued; the first one runs for two ticks and is enqueued
again behind the other. -/
def requeuedTrace : List Act :=
  [.enqueueReady 1, .enqueueReady 2, .pickNextTask 0, .tick 1 5000000, .tick 1 10000000,
    .enqueueReady 1]

theorem cfs_accounting_requeued : ∃ s, machine.Reachable s ∧ s.sched.rbtree = [2, 1] ∧
    ∀ now, ∃ t, s.sched.pickNextTask now = some (some 2, t) := by
  have hrun : (machine.run (boot fun _ => 0) requeuedTrace).map (·.sched.rbtree) = some [2, 1] := by
    decide +kernel
  obtain ⟨s, hs, htree⟩ := map_eq_some_iff.mp hrun
  have hreach : machine.Reachable s := .run (.start ⟨_, rfl⟩) hs
  refine ⟨s, hreach, htree, fun now => ?_⟩
  obtain ⟨t, hpick, _⟩ := (cfs_accounting s hreach).2.2.2 now
  exact ⟨t, by rw [hpick, htree]; rfl⟩

/-- The recorded minimum is the largest one, and no queued task is below it. -/
structure Monotone (s : Sys) : Prop where
  recorded : ∀ old ∈ s.recorded, old ≤ s.sched.minVruntime
  queued : ∀ task ∈ s.sched.rbtree, s.sched.minVruntime ≤ s.sched.vruntime task

/-- A task is enqueued into an empty tree only while the minimum is zero. -/
def keepsMin (s : Sys) : Act → Bool
  | .enqueueReady _ => !s.sched.rbtree.isEmpty || s.sched.minVruntime == 0
  | _ => true

lemma Monotone.le_front {s : Sys} (hs : Monotone s) {task : Nat}
    (h : keepsMin s (.enqueueReady task)) : s.sched.minVruntime ≤ s.sched.front := by
  rw [Sched.front]
  split
  · next heq => exact Nat.le_of_eq (by simpa [keepsMin, heq] using h)
  · next heq => exact hs.queued _ (heq ▸ mem_cons_self)

lemma Monotone.setAttrs {s : Sys} (hs : Monotone s) {task : Nat} (a : Attrs)
    (h : task ∉ s.sched.rbtree) : Monotone { s with sched := s.sched.setAttrs task a } := by
  refine ⟨hs.recorded, fun other hother => (hs.queued other hother).trans_eq ?_⟩
  rw [Sched.vruntime, Sched.vruntime, Sched.setAttrs_ne a h hother]

lemma Monotone.step {s t : Sys} {a : Act} (hs : Monotone s) (hacc : Accounted s)
    (hok : keepsMin s a) (h : step s a = some t) :
    Monotone t ∧ s.sched.minVruntime ≤ t.sched.minVruntime := by
  cases a with
  | enqueueReady task =>
    obtain ⟨hnew, ⟨⟩⟩ := ite_none_left_eq_some.mp h
    have hle := hs.le_front hok
    refine ⟨⟨fun old hold => ?_, fun other hother => ?_⟩, hle⟩
    · obtain rfl | hold := mem_cons.mp hold
      · exact Nat.le_refl _
      · exact (hs.recorded old hold).trans hle
    · obtain rfl | hother := mem_cons.mp ((s.sched.enqueueReady_perm task).mem_iff.mp hother)
      · exact s.sched.front_le_enqueued other
      · refine (hacc.sched.front_le hother).trans_eq ?_
        exact congrArg Attrs.vruntime (Sched.setAttrs_ne _ hnew hother).symm
  | tick task now =>
    obtain ⟨hrun, ⟨⟩⟩ := ite_none_right_eq_some.mp h
    exact ⟨hs.setAttrs _ (hacc.apart task hrun), Nat.le_refl _⟩
  | pickNextTask now =>
    obtain ⟨u, hpick, htail, hmin, _, hkeeps⟩ := hacc.sched.pick now
    simp only [Cfs.step, hpick, map_some, some.injEq] at h
    subst h
    refine ⟨⟨by rw [hmin]; exact hs.recorded, fun other hother => ?_⟩, by rw [hmin]⟩
    rw [hmin, hkeeps other hother]
    exact hs.queued other (mem_of_mem_tail (htail ▸ hother))
  | setNice task nice =>
    obtain ⟨hnew, ⟨⟩⟩ := ite_none_left_eq_some.mp h
    exact ⟨hs.setAttrs _ hnew, Nat.le_refl _⟩

lemma monotone_of_reachable {s : Sys} (hs : machine.ReachableUnder (fun s a => keepsMin s a) s) :
    Monotone s := by
  induction hs with
  | start hstart =>
    obtain ⟨nice, rfl⟩ := hstart
    exact ⟨by simp [boot], by simp [boot]⟩
  | step a hs hok hstep ih => exact (ih.step (accounted_of_reachable hs) hok hstep).1

/-- As long as the tree is empty at an enqueue only while the minimum is zero,
the minimum never decreases, and an enqueued task gets at least every minimum
recorded before. -/
theorem minVruntime_monotone (s : Sys) (hs : machine.ReachableUnder (fun s a => keepsMin s a) s)
    (a : Act) (hok : keepsMin s a) (t : Sys) (hstep : step s a = some t) :
    s.sched.minVruntime ≤ t.sched.minVruntime ∧
      ∀ task, a = .enqueueReady task → ∀ old ∈ s.recorded, old ≤ t.sched.vruntime task := by
  have hmono := monotone_of_reachable hs
  refine ⟨(hmono.step (accounted_of_reachable hs) hok hstep).2, ?_⟩
  rintro task rfl old hold
  obtain ⟨_, ⟨⟩⟩ := ite_none_left_eq_some.mp hstep
  have hfront := (hmono.recorded old hold).trans (hmono.le_front hok)
  exact hfront.trans (s.sched.front_le_enqueued task)

/-- Both queued tasks are picked with 10 ms recorded; the next task finds the
tree empty. -/
def emptiedTrace : List Act :=
  [.enqueueReady 1, .enqueueReady 2, .pickNextTask 0, .tick 1 10000000, .enqueueReady 1,
    .pickNextTask 10000000, .tick 2 25000000, .enqueueReady 2, .pickNextTask 25000000,
    .pickNextTask 25000000]

/-- The second task comes back behind the first one, which has run for 10 ms. -/
theorem minVruntime_monotone_requeued : ∃ s t, machine.ReachableUnder (fun s a => keepsMin s a) s ∧
      step s (.enqueueReady 2) = some t ∧ s.sched.minVruntime = 0 ∧
      t.sched.minVruntime = 10000000 ∧ s.sched.minVruntime ≤ t.sched.minVruntime := by
  have hrun : (machine.runUnder (fun s a => keepsMin s a) (boot fun _ => 0)
      (emptiedTrace.take 7)).map (fun s => (keepsMin s (.enqueueReady 2), s.sched.minVruntime,
        (step s (.enqueueReady 2)).map fun t => t.sched.minVruntime)) =
      some (true, 0, some 10000000) := by
    decide +kernel
  obtain ⟨s, hs, heq⟩ := map_eq_some_iff.mp hrun
  simp only [Prod.mk.injEq] at heq
  obtain ⟨hok, hbefore, hstep⟩ := heq
  obtain ⟨t, ht, hafter⟩ := map_eq_some_iff.mp hstep
  have hreach := Machine.ReachableUnder.runUnder (.start (M := machine) ⟨_, rfl⟩) hs
  exact ⟨s, t, hreach, ht, hbefore, hafter, (minVruntime_monotone s hreach _ hok t ht).1⟩

theorem minVruntime_falls : ∃ s t, machine.Reachable s ∧
    step s (.enqueueReady 3) = some t ∧ s.sched.minVruntime = 10000000 ∧
    t.sched.minVruntime = 0 ∧ t.sched.vruntime 3 = 0 := by
  have hrun : (machine.run (boot fun _ => 0) emptiedTrace).map (fun s =>
      (s.sched.minVruntime, (step s (.enqueueReady 3)).map fun t =>
        (t.sched.minVruntime, t.sched.vruntime 3))) = some (10000000, some (0, 0)) := by
    decide +kernel
  obtain ⟨s, hs, heq⟩ := map_eq_some_iff.mp hrun
  obtain ⟨hmin, heq⟩ := Prod.mk.inj heq
  obtain ⟨t, ht, heq⟩ := map_eq_some_iff.mp heq
  exact ⟨s, t, .run (.start ⟨_, rfl⟩) hs, ht, hmin, Prod.mk.inj heq⟩

end Redwing.Cfs
