/-
The records of session and group membership agree: every live task of an
existing session is listed in its group and in no other, and no emptied group
or session remains, as long as no call takes the last task out of a group and
no session is created under the feet of tasks that already carry its number.
-/
import Redwing.SessionMembership

namespace Redwing.Sessions

open Proc

def Group.hasOther (group : Group) (tid : Nat) : Bool := group.tasks.any (· != tid)

lemma Group.hasOther_iff {group : Group} {tid : Nat} :
    group.hasOther tid = true ↔ ∃ u ∈ group.tasks, u ≠ tid := by
  simp [Group.hasOther]

namespace Table

variable {s t : Table} {task : Task} {tid : Nat}

/-- Every live task whose session exists is listed in exactly one group, the
group of that session numbered by its `tgid`; no group is without tasks and no
session without groups. -/
structure Consistent (s : Table) : Prop where
  listed : ∀ u task, s.tasks.lookup u = some task → task.sid ∈ s.sessions →
    ∀ sid tgid, s.Listed sid tgid u ↔ sid = task.sid ∧ tgid = task.tgid
  group_nonempty : ∀ sid tgid group, s.groupOf sid tgid = some group → group.tasks ≠ []
  session_nonempty : ∀ sid ∈ s.sessions, ∃ tgid group, s.groupOf sid tgid = some group

/-- The part of `Consistent` that the calls have to keep; that no other group
lists the task holds anyway. -/
structure Tidy (s : Table) : Prop where
  member : ∀ {u task}, s.tasks.lookup u = some task → task.sid ∈ s.sessions →
    s.Listed task.sid task.tgid u
  group_nonempty : ∀ {sid tgid group}, s.groupOf sid tgid = some group → ∃ u, u ∈ group.tasks
  session_nonempty : ∀ {sid}, sid ∈ s.sessions → ∃ tgid group, s.groupOf sid tgid = some group

lemma Tidy.consistent (hinv : s.Inv) (htidy : s.Tidy) : s.Consistent where
  listed := by
    intro u task htask hsid sid tgid
    constructor
    · exact hinv.listed_fields htask
    · rintro ⟨rfl, rfl⟩
      exact htidy.member htask hsid
  group_nonempty := by
    intro sid tgid group hgroup
    obtain ⟨u, hu⟩ := htidy.group_nonempty hgroup
    exact List.ne_nil_of_mem hu
  session_nonempty := fun _ hsid => htidy.session_nonempty hsid

/-- A move to the group `tgid` leaves another task in the old group, if it is
another one and the move goes through. -/
def leavesOther (s : Table) (tid : Nat) (task : Task) (tgid : Nat) : Prop :=
  tgid ≠ task.tgid → (s.groupOf task.sid tgid).isSome ∨ tgid = tid →
    ∀ group ∈ s.groupOf task.sid task.tgid, tid ∈ group.tasks → group.hasOther tid

/-- The condition on a call.  When `setsid` or `set_tgid` takes a task out of
its group, another task stays behind; when `setsid` creates a session, no other
live task has its number. -/
def keepsTidy (s : Table) : Action → Prop
  | .setSid tid =>
    ∀ task ∈ s.running tid, s.mayLeave tid task →
      (∀ group ∈ s.groupOf task.sid task.tgid, group.hasOther tid) ∧
      ∀ entry ∈ s.tasks.entries, entry.2.sid = tid → entry.1 = tid
  | .setTgid caller target newTgid =>
    ∀ task ∈ s.running caller, ∀ moved ∈ s.target caller target,
      ∀ tgid ∈ (s.targetGroup task moved.1 moved.2 newTgid).toOption,
        s.leavesOther moved.1 moved.2 tgid
  | _ => True

lemma Tidy.of_update (htidy : s.Tidy) (tid : Nat) (task : Task) (hlookup : ∀ u, t.tasks.lookup u =
      if u = tid then some task else s.tasks.lookup u)
    (hmember : task.sid ∈ t.sessions → t.Listed task.sid task.tgid tid)
    (hsid : ∀ {u other}, u ≠ tid → s.tasks.lookup u = some other →
      other.sid ∈ t.sessions → other.sid ∈ s.sessions)
    (hlisted : ∀ {a b u}, u ≠ tid → s.Listed a b u → t.Listed a b u)
    (hgroup : ∀ {a b group}, t.groupOf a b = some group → ∃ u, u ∈ group.tasks)
    (hsession : ∀ {a}, a ∈ t.sessions → ∃ b group, t.groupOf a b = some group) : t.Tidy := by
  refine ⟨fun {u other} hu hmem => ?_, hgroup, hsession⟩
  rw [hlookup] at hu
  split at hu
  · rename_i h
    cases hu
    subst h
    exact hmember hmem
  · next hne => exact hlisted hne (htidy.member hu (hsid hne hu hmem))

lemma Tidy.setTask (htidy : s.Tidy) (htask : s.tasks.lookup tid = some task)
    (inner : Signals.Task) : (s.setTask tid { task with inner := inner }).Tidy := by
  apply htidy.of_update tid { task with inner := inner }
  · exact fun u => lookup_setTask s tid u _
  · intro hsid
    have hlisted : s.Listed task.sid task.tgid tid := htidy.member htask hsid
    exact hlisted
  · exact fun _ _ hsid => hsid
  · exact fun _ hlisted => hlisted
  · exact htidy.group_nonempty
  · exact htidy.session_nonempty

lemma Tidy.setTasksTable (htidy : s.Tidy) (tasksTable : List Nat) :
    { s with tasksTable := tasksTable }.Tidy :=
  ⟨htidy.member, htidy.group_nonempty, htidy.session_nonempty⟩

lemma Tidy.create (hinv : s.Inv) (htidy : s.Tidy) : s.create.Tidy := by
  apply htidy.of_update s.nextTid (Task.new s.nextTid)
  · exact fun u => lookup_setTask s s.nextTid u _
  · exact fun hsid => absurd (hinv.sid_lt hsid) (lt_irrefl _)
  · exact fun _ _ hsid => hsid
  · exact fun _ hlisted => hlisted
  · exact htidy.group_nonempty
  · exact htidy.session_nonempty

lemma Tidy.sendSignal (htidy : s.Tidy) (tid : Nat)
    (flags : Signals.SignalFlags) : (s.sendSignal tid flags).Tidy := by
  unfold Table.sendSignal
  split
  · next task htask => exact htidy.setTask htask _
  · exact htidy

section

variable (hinv : s.Inv) (htidy : s.Tidy) (htask : s.tasks.lookup tid = some task)

include hinv htidy htask

lemma Tidy.joinParent (hstate : task.inner.state = .initialized)
    (hparent : s.tasks.lookup parentTid = some parent) : (s.joinParent tid task parent).Tidy := by
  have hnot := hinv.not_listed_of_unstarted htask hstate
  have hsessions := mem_sessions_tryAddTask s tid
    { task with tgid := parent.tgid, sid := parent.sid }
  have hlisted := listed_tryAddTask
    { task with tgid := parent.tgid, sid := parent.sid } hnot
  have hgroups := groupOf_tryAddTask s tid
    { task with tgid := parent.tgid, sid := parent.sid }
  apply htidy.of_update tid
    { sid := parent.sid, tgid := parent.tgid, inner := task.inner.wakeup }
  · intro u
    rw [Table.joinParent, lookup_setTask, tasks_tryAddTask]
  · intro hsid
    obtain ⟨group, hgroup, _⟩ := htidy.member hparent ((hsessions _).mp hsid)
    exact (hlisted _ _ _).mpr (.inl ⟨rfl, rfl, rfl, group, hgroup⟩)
  · exact fun _ _ hsid => (hsessions _).mp hsid
  · exact fun hne h => (hlisted _ _ _).mpr (.inr ⟨hne, h⟩)
  · intro a b group hgroup
    rw [Table.joinParent, groupOf_setTask, hgroups] at hgroup
    split at hgroup
    · obtain ⟨old, _, rfl⟩ := Option.map_eq_some_iff.mp hgroup
      exact ⟨tid, (old.mem_addTask tid tid).mpr (.inl rfl)⟩
    · exact htidy.group_nonempty hgroup
  intro a ha
  obtain ⟨b, group, hgroup⟩ := htidy.session_nonempty ((hsessions a).mp ha)
  refine ⟨b, ?_⟩
  rw [Table.joinParent, groupOf_setTask, hgroups, hgroup]
  split <;> exact ⟨_, rfl⟩

lemma Tidy.dropTask : (s.dropTask tid task).Tidy := by
  have hsessions := mem_sessions_removeTask s tid task
  constructor
  · intro u other hu hsid
    rw [lookup_dropTask] at hu
    split at hu
    · cases hu
    rename_i hne
    have hold := htidy.member hu ((hsessions _).mp hsid).1
    exact (listed_removeTask hinv htask).mpr ⟨hne, hold⟩
  · intro a b group hgroup
    have hgroup : (s.removeTask tid task).groupOf a b = some group := hgroup
    rw [groupOf_removeTask] at hgroup
    split at hgroup
    · have hfilled := (Option.filter_eq_some_iff.mp hgroup).2
      simp only [Group.isEmpty, Bool.not_eq_true', List.isEmpty_eq_false_iff] at hfilled
      exact List.exists_mem_of_ne_nil _ hfilled
    · exact htidy.group_nonempty hgroup
  intro a ha
  obtain ⟨hold, hleft⟩ := (hsessions a).mp ha
  by_cases h : a = task.sid
  · exact hleft h
  obtain ⟨b, group, hgroup⟩ := htidy.session_nonempty hold
  refine ⟨b, group, ?_⟩
  have hsame := groupOf_removeTask s tid task a b
  rw [if_neg (fun hx => h hx.1), hgroup] at hsame
  exact hsame

lemma Moves.tidy (hmove : s.Moves tid task tgid t) (hother : tgid ≠ task.tgid → ∀ group,
    s.groupOf task.sid task.tgid = some group → tid ∈ group.tasks →
    group.hasOther tid) : t.Tidy := by
  have hlisted := hmove.listed_iff hinv htask
  obtain ⟨new, hnew, hgroups⟩ := hmove.exists_group
  obtain ⟨old, hold, htid⟩ := hmove.listed
  apply htidy.of_update tid { task with tgid := tgid }
  · intro u
    rw [hmove.tasks]
    exact lookup_setTask s tid u _
  · exact fun _ => (hlisted _ _ _).mpr (.inl ⟨rfl, rfl, rfl⟩)
  · exact fun _ _ hsid => (hmove.sessions _).mp hsid
  · exact fun hne h => (hlisted _ _ _).mpr (.inr ⟨hne, h⟩)
  · intro a b group hgroup
    rw [hgroups] at hgroup
    split at hgroup
    · cases hgroup
      exact ⟨tid, (Group.mem_addTask _ tid tid).mpr (.inl rfl)⟩
    rename_i hne
    split at hgroup
    · rename_i h
      obtain ⟨rfl, rfl⟩ := h
      rw [hold] at hgroup
      cases hgroup
      obtain ⟨u, hu, hut⟩ := Group.hasOther_iff.mp
        (hother (fun h => hne ⟨rfl, h.symm⟩) old hold htid)
      exact ⟨u, (old.mem_removeTask tid u).mpr ⟨hut, hu⟩⟩
    · exact htidy.group_nonempty hgroup
  · intro a ha
    obtain ⟨b, group, hgroup⟩ := htidy.session_nonempty ((hmove.sessions a).mp ha)
    refine ⟨b, ?_⟩
    rw [hgroups]
    split
    · exact ⟨_, rfl⟩
    split
    · rw [hgroup]
      exact ⟨_, rfl⟩
    · exact ⟨group, hgroup⟩

lemma not_mayLeave_of_mem_sessions (hmem : tid ∈ s.sessions) : ¬ s.mayLeave tid task := by
  obtain ⟨hsid, htgid⟩ := hinv.own htask hmem
  obtain ⟨group, hgroup, _⟩ := htidy.member htask (hsid.symm ▸ hmem)
  intro hleave
  apply hleave group hgroup
  exact (hinv.leader hgroup).trans htgid

lemma Tidy.createSession
    (hok : s.mayLeave tid task → (∀ group, s.groupOf task.sid task.tgid = some group →
        group.hasOther tid) ∧
      ∀ u other, s.tasks.lookup u = some other → other.sid = tid → u = tid) :
    (s.createSession tid task).1.Tidy := by
  rcases s.createSession_cases tid task with ⟨_, heq⟩ | ⟨hleave, left, hleft, heq⟩
  · rw [heq]
    exact htidy
  obtain ⟨hother, hnumber⟩ := hok hleave
  have hnew : tid ∉ s.sessions := fun h => not_mayLeave_of_mem_sessions hinv htidy htask h hleave
  have hlisted := hleft.listed_iff hinv htask
  obtain ⟨htasks, _, _, hsessions, hgroups⟩ := hleft
  have hnew' : tid ∉ left.sessions := fun h => hnew ((hsessions tid).mp h)
  have heq' : (s.createSession tid task).1 = left.newSession tid task := by
    rw [heq, insertSession, AList.lookup_eq_none.mpr hnew']
    rfl
  have hmem (a : Nat) : a ∈ (left.newSession tid task).sessions ↔ a = tid ∨ a ∈ s.sessions := by
    rw [newSession, sessions_setTask, mem_sessions_setSession, hsessions]
  rw [heq']
  apply htidy.of_update tid { task with tgid := tid, sid := tid }
  · intro u
    rw [newSession, lookup_setTask, tasks_setSession, htasks]
  · exact fun _ => (listed_newSession hnew').mpr (.inl ⟨rfl, rfl, rfl⟩)
  · intro u other hne hu hsid
    refine ((hmem _).mp hsid).resolve_left fun h => ?_
    exact hne (hnumber u other hu h)
  · intro a b u hne h
    exact (listed_newSession hnew').mpr (.inr ((hlisted a b u).mpr ⟨hne, h⟩))
  · intro a b group hgroup
    rw [groupOf_newSession] at hgroup
    split at hgroup
    · split at hgroup
      · cases hgroup
        exact ⟨tid, List.mem_singleton_self tid⟩
      · cases hgroup
    rw [hgroups] at hgroup
    split at hgroup
    · rename_i h
      obtain ⟨rfl, rfl⟩ := h
      obtain ⟨old, hold, rfl⟩ := Option.map_eq_some_iff.mp hgroup
      obtain ⟨u, hu, hut⟩ := Group.hasOther_iff.mp (hother old hold)
      exact ⟨u, (old.mem_removeTask tid u).mpr ⟨hut, hu⟩⟩
    · exact htidy.group_nonempty hgroup
  · intro a ha
    by_cases h : a = tid
    · refine ⟨tid, Group.new tid, ?_⟩
      rw [groupOf_newSession, if_pos h, if_pos rfl]
    obtain ⟨b, group, hgroup⟩ := htidy.session_nonempty (((hmem a).mp ha).resolve_left h)
    refine ⟨b, ?_⟩
    rw [groupOf_newSession, if_neg h, hgroups, hgroup]
    split <;> exact ⟨_, rfl⟩

end

lemma Tidy.step (hinv : s.Inv) (htidy : s.Tidy)
    (hok : s.keepsTidy action) (hstep : s.step action = some t) : t.Tidy := by
  cases Effect.of_step hstep with
  | refused => exact htidy
  | create => exact htidy.create hinv
  | wake tasksTable htask hstate => exact (htidy.setTasksTable tasksTable).setTask htask _
  | join tasksTable htask hstate hparent =>
    exact (htidy.setTasksTable tasksTable).joinParent (hinv.setTasksTable tasksTable) htask hstate
      (lookup_of_running hparent).1
  | createSession hrun =>
    apply htidy.createSession hinv (lookup_of_running hrun).1
    intro hleave
    obtain ⟨hother, hnumber⟩ := hok _ hrun hleave
    refine ⟨hother, fun u other hu hsid => ?_⟩
    exact hnumber ⟨u, other⟩ (AList.mem_lookup_iff.mp hu) hsid
  | move hrun htarget htgid hmove =>
    apply hmove.tidy hinv htidy (lookup_of_target htarget)
    intro hne
    apply hok _ hrun _ htarget _ (by rw [htgid]; rfl) hne
    obtain ⟨group, hgroup, _⟩ := hmove.exists_group
    rcases hgroup with hgroup | ⟨_, htid, _⟩
    · exact .inl (hgroup ▸ rfl)
    · exact .inr htid
  | kill =>
    exact kill_induction (fun _ tid flags h => h.sendSignal tid flags) htidy
      _ _ _
  | inner htask hstate => exact htidy.setTask htask _
  | reap tasksTable => exact htidy.setTasksTable tasksTable
  | drop htask => exact htidy.dropTask hinv htask

lemma Tidy.boot : boot.Tidy where
  member h := by cases h
  group_nonempty h := by cases h
  session_nonempty h := by cases h

lemma Tidy.of_reachable (hs : machine.ReachableUnder Table.keepsTidy s) : s.Tidy := by
  have htidy : s.Inv ∧ s.Tidy := by
    apply hs.invariant
    · rintro _ rfl
      exact ⟨Inv.boot, Tidy.boot⟩
    · intro s action t hs hok hstep
      exact ⟨hs.1.step hstep, hs.2.step hs.1 hok hstep⟩
  exact htidy.2

/-- In every run whose calls take no last task out of a group and create no
session whose number another task carries, the records of membership agree in
every state. -/
theorem consistent_of_keepsTidy (s : Table)
    (hs : machine.ReachableUnder Table.keepsTidy s) : s.Consistent :=
  (Tidy.of_reachable hs).consistent (Inv.of_reachable hs)

instance (s : Table) (tid : Nat) (task : Task) : Decidable (s.mayLeave tid task) :=
  inferInstanceAs (Decidable (∀ group ∈ s.groupOf task.sid task.tgid, group.leaderTid ≠ tid))

instance (s : Table) (tid : Nat) (task : Task) (tgid : Nat) :
    Decidable (s.leavesOther tid task tgid) :=
  inferInstanceAs (Decidable (tgid ≠ task.tgid → (s.groupOf task.sid tgid).isSome ∨ tgid = tid →
    ∀ group ∈ s.groupOf task.sid task.tgid, tid ∈ group.tasks → group.hasOther tid))

instance (s : Table) : (action : Action) → Decidable (s.keepsTidy action)
  | .setSid tid => inferInstanceAs (Decidable (∀ task ∈ s.running tid,
      s.mayLeave tid task → (∀ group ∈ s.groupOf task.sid task.tgid, group.hasOther tid) ∧
        ∀ entry ∈ s.tasks.entries, entry.2.sid = tid → entry.1 = tid))
  | .setTgid caller target newTgid => inferInstanceAs (Decidable
      (∀ task ∈ s.running caller, ∀ moved ∈ s.target caller target,
        ∀ tgid ∈ (s.targetGroup task moved.1 moved.2 newTgid).toOption,
          s.leavesOther moved.1 moved.2 tgid))
  | .create | .start _ _ | .kill _ _ _ | .proceed _ _ | .exit _ | .reap _
  | .drop _ => isTrue trivial

def twoGroupsTrace : List Action :=
  [.create, .start 6300 none, .setSid 6300, .create, .start 6301 (some 6300), .setTgid 6301 0 0]

/-- A third task comes and goes. -/
theorem twoGroupsTrace_consistent : ∃ s, machine.runUnder Table.keepsTidy boot (twoGroupsTrace ++
        [.create, .start 6302 (some 6301), .exit 6302, .reap 6302, .drop 6302]) = some s ∧
      s.sessions.keys = [6300] ∧ s.Consistent := by
  have hrun : ∃ s, machine.runUnder Table.keepsTidy boot (twoGroupsTrace ++
      [.create, .start 6302 (some 6301), .exit 6302, .reap 6302,
        .drop 6302]) = some s ∧ s.sessions.keys = [6300] := ⟨_, rfl, rfl⟩
  obtain ⟨s, hs, hkeys⟩ := hrun
  have hboot : machine.ReachableUnder Table.keepsTidy boot := .start rfl
  exact ⟨s, hs, hkeys, consistent_of_keepsTidy s (hboot.runUnder hs)⟩

/-- The second task goes back to the first group and leaves a group without
tasks. -/
theorem returnTrace_not_consistent : ¬ ∀ s, machine.Reachable s → s.Consistent := by
  intro h
  have hrun : ∃ s, machine.run boot (twoGroupsTrace ++ [.setTgid 6301 0 6300]) = some s ∧
      (s.groupOf 6300 6301).map Group.tasks = some [] := ⟨_, rfl, rfl⟩
  obtain ⟨s, hs, hempty⟩ := hrun
  obtain ⟨group, hgroup, htasks⟩ := Option.map_eq_some_iff.mp hempty
  have hreach : machine.Reachable boot := .start rfl
  exact (h s (hreach.run hs)).group_nonempty 6300 6301 group hgroup htasks

/-- Whatever the calls do, no group lists a task that is gone, and no task is
listed by two groups. -/
theorem listed_by_own_group {s : Table} (hs : machine.Reachable s) (h : s.Listed sid tgid u) :
    (∃ task, s.tasks.lookup u = some task ∧ task.sid = sid ∧ task.tgid = tgid) ∧
      ∀ sid' tgid', s.Listed sid' tgid' u → sid' = sid ∧ tgid' = tgid := by
  have hinv := Inv.of_reachable hs
  obtain ⟨task, htask, rfl, rfl⟩ := hinv.listed h
  exact ⟨⟨task, htask, rfl, rfl⟩, fun _ _ => hinv.listed_fields htask⟩

theorem listed_by_own_group_return : ∃ s, machine.run boot (twoGroupsTrace ++
      [.setTgid 6301 0 6300]) = some s ∧ s.Listed 6300 6300 6301 ∧ ¬ s.Listed 6300 6301 6301 := by
  have hrun : ∃ s, machine.run boot (twoGroupsTrace ++ [.setTgid 6301 0 6300]) = some s ∧
      (s.groupOf 6300 6300).map Group.tasks = some [6301, 6300] := ⟨_, rfl, rfl⟩
  obtain ⟨s, hs, htasks⟩ := hrun
  obtain ⟨group, hgroup, htasks⟩ := Option.map_eq_some_iff.mp htasks
  have hlisted : s.Listed 6300 6300 6301 := ⟨group, hgroup, by simp [htasks]⟩
  have hown := listed_by_own_group (Machine.Reachable.run (.start rfl) hs) hlisted
  exact ⟨s, hs, hlisted, fun h => by cases (hown.2 _ _ h).2⟩

end Table
end Redwing.Sessions
