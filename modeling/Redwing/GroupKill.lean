/-
What `kill` with a negative target does: the group is found through the current
fields of the task that has the group's number, so the signal reaches exactly
the group only while that task is in it.
-/
import Redwing.SessionConsistency

namespace Redwing.Sessions

open Option

open Signals (Signal)

namespace Table

variable {s t : Table} {task caller : Task} {g : Nat} {signal : Signal}

lemma lookup_sendSignal (s : Table) (tid u : Nat) (flags : Signals.SignalFlags) :
    (s.sendSignal tid flags).tasks.lookup u = (s.tasks.lookup u).map fun task =>
        if u = tid then { task with inner := task.inner.sendSignal flags }
        else task := by
  unfold sendSignal
  cases htask : s.tasks.lookup tid with
  | none | some =>
    by_cases h : u = tid
    · subst h
      simp [htask]
    · simp [h]

lemma lookup_signalGroup (s : Table) (group : Group) (signal : Signal) :
    (s.signalGroup group signal).tasks.lookup u = (s.tasks.lookup u).map fun task =>
        if u ∈ group.tasks then { task with inner := task.inner.sendSignal signal.toSingalFlags }
        else task := by
  obtain ⟨leader, tasks, hnodup⟩ := group
  unfold signalGroup
  dsimp only
  induction tasks generalizing s with
  | nil => simp
  | cons tid rest ih =>
    obtain ⟨hnot, hrest⟩ := List.nodup_cons.mp hnodup
    rw [List.foldl_cons, ih _ hrest, lookup_sendSignal, map_map]
    congr 1
    funext task
    by_cases h : u = tid
    · subst h
      simp [hnot]
    · simp [h]

lemma pending_sendSignal (inner : Signals.Task) (signal : Signal) :
    (inner.sendSignal signal.toSingalFlags).pending signal = true := by
  rw [Signals.Task.pending, (inner.sendSignal_fields _).1, Signals.SignalFlags.contains_or]
  simp [Signals.SignalFlags.contains]

lemma getGroup_eq_ok : s.getGroup task = .ok group ↔ s.groupOf task.sid task.tgid = some group := by
  unfold getGroup groupOf
  cases s.sessions.lookup task.sid with
  | none => simp
  | some session =>
    simp only [bind_some]
    cases session.getGroup task.tgid <;> simp

/-- `kill` with the target `-g` returns `Ok` and makes the signal pending on
the live tasks of the caller's session whose group is `g`, and on no other
task. -/
def KillsGroup (s : Table) (caller : Task) (g : Nat) (signal : Signal) : Prop :=
  (s.kill caller (-(g : Int)) (some signal)).2 = .ok () ∧
  ∀ u task, s.tasks.lookup u = some task →
    ∃ after, (s.kill caller (-(g : Int)) (some signal)).1.tasks.lookup u = some after ∧
      (after.inner.pending signal = true ↔ task.inner.pending signal = true ∨
          (task.sid = caller.sid ∧ task.tgid = g))

def findsGroup (s : Table) (caller : Task) (g : Nat) : Prop :=
  (∃ task, s.getTaskByTid g = .ok task ∧ task.sid = caller.sid ∧ task.tgid = g) ∧
  ∀ u task, s.tasks.lookup u = some task → task.sid = caller.sid →
    task.tgid = g → s.Listed caller.sid g u

lemma kill_neg (hg : 1 < g) (s : Table) (caller : Task) (signal : Signal) :
    s.kill caller (-(g : Int)) (some signal) =
      match s.getTaskByTid g with
      | .error err => (s, .error err)
      | .ok task =>
        if caller.sid ≠ task.sid then (s, .error .notPermitted)
        else s.killGroup task (some signal) := by
  have hzero : ¬ (-(g : Int) = 0) := by omega
  have hone : ¬ (-(g : Int) = -1) := by omega
  have hlt : -(g : Int) < -1 := by omega
  have hnat : (- -(g : Int)).toNat = g := by omega
  rw [kill, if_neg hzero, if_neg hone, if_pos hlt, hnat]
  all_goals rfl

lemma killGroup_ok (hgroup : s.groupOf task.sid task.tgid = some group) :
    s.killGroup task (some signal) = (s.signalGroup group signal, .ok ()) := by
  simp [killGroup, getGroup_eq_ok.mpr hgroup]

lemma pending_signalGroup (group : Group) (signal : Signal) (htask : s.tasks.lookup u = some task) :
    ∃ after, (s.signalGroup group signal).tasks.lookup u = some after ∧
    (after.inner.pending signal = true ↔ task.inner.pending signal = true ∨ u ∈ group.tasks) := by
  refine ⟨_, by rw [lookup_signalGroup, htask]; rfl, ?_⟩
  by_cases hmem : u ∈ group.tasks
  · simp [hmem, pending_sendSignal]
  · simp [hmem]

lemma KillsGroup.of_findsGroup (hinv : s.Inv) (hg : 1 < g)
    (hgroup : s.groupOf caller.sid g = some group) (hfinds : s.findsGroup caller g)
    (signal : Signal) : s.KillsGroup caller g signal := by
  obtain ⟨⟨leader, hleader, hsid, htgid⟩, hlisted⟩ := hfinds
  have hkill : s.kill caller (-(g : Int)) (some signal) = (s.signalGroup group signal, .ok ()) := by
    rw [kill_neg hg, hleader]
    simp only [hsid, ne_eq, not_true_eq_false, ↓reduceIte]
    apply killGroup_ok
    rw [hsid, htgid]
    exact hgroup
  refine ⟨by rw [hkill], fun u task htask => ?_⟩
  obtain ⟨after, hafter, hpending⟩ := pending_signalGroup group signal htask
  refine ⟨after, by rw [hkill]; exact hafter, ?_⟩
  have hmem : u ∈ group.tasks ↔ task.sid = caller.sid ∧ task.tgid = g := by
    constructor
    · intro hu
      obtain ⟨ha, hb⟩ := hinv.listed_fields htask ⟨group, hgroup, hu⟩
      exact ⟨ha.symm, hb.symm⟩
    rintro ⟨hsid, htgid⟩
    obtain ⟨other, hother, hu⟩ := hlisted u task htask hsid htgid
    rw [hgroup, some.injEq] at hother
    exact hother ▸ hu
  rw [hpending, hmem]

lemma exists_group_of_kill_ok (hg : 1 < g)
    (hok : (s.kill caller (-(g : Int)) (some signal)).2 = .ok ()) :
    ∃ leader group, s.getTaskByTid g = .ok leader ∧ leader.sid = caller.sid ∧
      s.groupOf caller.sid leader.tgid = some group ∧
      (s.kill caller (-(g : Int)) (some signal)).1 =
        s.signalGroup group signal := by
  rw [kill_neg hg] at hok ⊢
  cases hleader : s.getTaskByTid g with
  | error err =>
    rw [hleader] at hok
    cases hok
  | ok leader =>
    simp only [hleader] at hok ⊢
    by_cases hsid : caller.sid = leader.sid
    · simp only [hsid, ne_eq, not_true_eq_false, ↓reduceIte] at hok ⊢
      cases hgroup : s.getGroup leader with
      | error err => simp [killGroup, hgroup] at hok
      | ok group =>
        have hof := getGroup_eq_ok.mp hgroup
        refine ⟨leader, group, rfl, rfl, hof, ?_⟩
        rw [killGroup_ok hof]
    · rw [if_pos hsid] at hok
      cases hok

lemma KillsGroup.findsGroup (hinv : s.Inv) (hg : 1 < g)
    (hgroup : s.groupOf caller.sid g = some group) (hlive : ∃ u ∈ group.tasks, u ∈ s.tasks)
    (hclear : ∀ u task, s.tasks.lookup u = some task → task.inner.pending signal = false)
    (hkills : s.KillsGroup caller g signal) : s.findsGroup caller g := by
  obtain ⟨hok, hpending⟩ := hkills
  obtain ⟨leader, found, hleader, hsid, hfound, hafter⟩ := exists_group_of_kill_ok hg hok
  -- A task whose signal becomes pending is in the group that was found.
  have hmem {u : Nat} {task : Task} (htask : s.tasks.lookup u = some task)
      (hfields : task.sid = caller.sid ∧ task.tgid = g) : u ∈ found.tasks := by
    obtain ⟨after, hlookup, hiff⟩ := hpending u task htask
    obtain ⟨after', hlookup', hiff'⟩ := pending_signalGroup found signal htask
    rw [hafter, hlookup', some.injEq] at hlookup
    subst hlookup
    have hbefore := hclear u task htask
    simpa [hbefore] using hiff'.mp (hiff.mpr (.inr hfields))
  obtain ⟨u, hu, hlive⟩ := hlive
  obtain ⟨task, htask⟩ := isSome_iff_exists.mp (AList.lookup_isSome.mpr hlive)
  have hfields := hinv.listed_fields htask ⟨group, hgroup, hu⟩
  have htgid : leader.tgid = g := by
    have hlisted : s.Listed caller.sid leader.tgid u :=
      ⟨found, hfound, hmem htask ⟨hfields.1.symm, hfields.2.symm⟩⟩
    exact (hinv.listed_fields htask hlisted).2.trans hfields.2.symm
  refine ⟨⟨leader, hleader, hsid, htgid⟩, fun v other hother hvs hvg => ?_⟩
  exact ⟨found, htgid ▸ hfound, hmem hother ⟨hvs, hvg⟩⟩

/-- In every reachable state in which the caller's session has a group `g` with
a live task, `kill` with the target `-g` signals exactly this group if the task
`g` is in it and it lists all its live tasks; and only then, unless the signal
was pending before. -/
theorem killsGroup_iff_findsGroup (s : Table) (hs : machine.Reachable s) (callerTid : Nat)
    (caller : Task) (_hcaller : s.running callerTid = some caller) (g : Nat) (hg : 1 < g)
    (group : Group) (hgroup : s.groupOf caller.sid g = some group)
    (hlive : ∃ u ∈ group.tasks, u ∈ s.tasks) (signal : Signal) :
    (s.findsGroup caller g → s.KillsGroup caller g signal) ∧
    ((∀ u task, s.tasks.lookup u = some task → task.inner.pending signal = false) →
      s.KillsGroup caller g signal → s.findsGroup caller g) := by
  have hinv := Inv.of_reachable hs
  constructor
  · intro hfinds
    exact .of_findsGroup hinv hg hgroup hfinds signal
  · intro hclear hkills
    exact hkills.findsGroup hinv hg hgroup hlive hclear

/-- The second task of the session leads a group of its own, and the first one
signals it. -/
theorem twoGroupsTrace_killsGroup : ∃ s caller, machine.run boot twoGroupsTrace = some s ∧
      s.running 6300 = some caller ∧ s.KillsGroup caller 6301 .sigint := by
  have hrun : ∃ s caller leader, machine.runUnder Table.keepsTidy boot twoGroupsTrace = some s ∧
      machine.run boot twoGroupsTrace = some s ∧
      s.running 6300 = some caller ∧ caller.sid = 6300 ∧
      s.getTaskByTid 6301 = .ok leader ∧ leader.sid = 6300 ∧
      leader.tgid = 6301 ∧
      (s.groupOf 6300 6301).map Group.tasks = some [6301] :=
    ⟨_, _, _, rfl, rfl, rfl, rfl, rfl, rfl, rfl, rfl⟩
  obtain ⟨s, caller, leader, htidy, hrun, hcaller, hsid, hleader, hleaderSid,
    hleaderTgid, hgroup⟩ := hrun
  obtain ⟨group, hgroup, htasks⟩ := map_eq_some_iff.mp hgroup
  have hboot : machine.ReachableUnder Table.keepsTidy boot := .start rfl
  have hreach := hboot.runUnder htidy
  refine ⟨s, caller, hrun, hcaller, ?_⟩
  refine (killsGroup_iff_findsGroup s (hreach.mono fun _ _ _ => trivial) 6300
    caller hcaller 6301 (by decide) group (hsid ▸ hgroup) ?_ .sigint).1 ?_
  · have hlive := (getTaskByTid_eq_ok.mp hleader).2
    exact ⟨6301, htasks ▸ List.mem_singleton_self 6301, AList.lookup_isSome.mp (hlive ▸ rfl)⟩
  refine ⟨⟨leader, hleader, hleaderSid.trans hsid.symm, hleaderTgid⟩, ?_⟩
  intro u task htask hu htgid
  rw [← hu, ← htgid]
  apply (Tidy.of_reachable hreach).member htask
  rw [hu, hsid]
  exact mem_sessions_of_groupOf hgroup

def orphanTrace : List Action :=
  twoGroupsTrace ++ [.create, .start 6302 (some 6301), .exit 6301, .reap 6301, .drop 6301]

theorem orphanTrace_not_killsGroup : ¬ ∀ s, machine.Reachable s → ∀ callerTid caller,
      s.running callerTid = some caller → ∀ g, 1 < g → ∀ group,
      s.groupOf caller.sid g = some group →
      (∃ u ∈ group.tasks, u ∈ s.tasks) → ∀ signal,
      s.KillsGroup caller g signal := by
  intro h
  have hrun : ∃ s caller, machine.run boot orphanTrace = some s ∧
      s.running 6300 = some caller ∧ caller.sid = 6300 ∧
      (s.groupOf 6300 6301).map Group.tasks = some [6302] ∧
      (s.tasks.lookup 6302).isSome = true ∧
      (s.kill caller (-6301) (some .sigint)).2 = .error .noSuchProcess :=
    ⟨_, _, rfl, rfl, rfl, rfl, rfl, rfl⟩
  obtain ⟨s, caller, hrun, hcaller, hsid, hgroup, hlive, hkill⟩ := hrun
  obtain ⟨group, hgroup, htasks⟩ := map_eq_some_iff.mp hgroup
  have hboot : machine.Reachable boot := .start rfl
  have hkills := h s (hboot.run hrun) 6300 caller hcaller 6301 (by decide) group
    (hsid ▸ hgroup) ⟨6302, htasks ▸ List.mem_singleton_self 6302,
      AList.lookup_isSome.mp hlive⟩ .sigint
  have hok : (s.kill caller (-6301) (some .sigint)).2 = .ok () := hkills.1
  rw [hkill] at hok
  cases hok

end Table
end Redwing.Sessions
