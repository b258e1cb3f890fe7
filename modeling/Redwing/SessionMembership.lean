/-
Session and group membership: what the tables say about a task, the facts that
hold in every reachable state, and the condition on calls under which the three
records of membership agree and no emptied group or session remains.
-/
import Redwing.Sessions

namespace Redwing.Sessions

open Proc Option AList Group

variable {s t : Table} {session : Session} {task : Task}

lemma Group.mem_addTask (group : Group) (tid u : Nat) :
    u ∈ (group.addTask tid).tasks ↔ u = tid ∨ u ∈ group.tasks := by
  simp [addTask]

lemma Group.mem_removeTask (group : Group) (tid u : Nat) :
    u ∈ (group.removeTask tid).tasks ↔ u ≠ tid ∧ u ∈ group.tasks := by
  simp [removeTask, group.nodup.mem_erase_iff]

lemma Group.exists_mem_removeTask (group? : Option Group) (tid u : Nat) :
    (∃ group, group?.map (·.removeTask tid) = some group ∧ u ∈ group.tasks) ↔
      u ≠ tid ∧ ∃ group, group? = some group ∧ u ∈ group.tasks := by
  cases group? with
  | none => simp
  | some group => simp [mem_removeTask]

@[simp]
lemma Session.getGroup_setGroup (session : Session) : (session.setGroup tgid group).getGroup a =
      if a = tgid then some group else session.getGroup a := by
  unfold Session.getGroup Session.setGroup
  by_cases h : a = tgid
  · subst h
    simp [lookup_insert]
  · simp [h, lookup_insert_ne]

lemma Session.getGroup_new : (Session.new leader).getGroup a =
    if a = leader then some (Group.new leader) else none := by
  unfold Session.getGroup Session.new
  by_cases h : a = leader
  · subst h
    simp [AList.lookup, AList.singleton]
  · simp [h, AList.lookup, AList.singleton, List.dlookup_cons_ne]

namespace Table

def groupOf (s : Table) (sid tgid : Nat) : Option Group :=
  (s.sessions.lookup sid).bind (·.getGroup tgid)

def Listed (s : Table) (sid tgid tid : Nat) : Prop :=
  ∃ group, s.groupOf sid tgid = some group ∧ tid ∈ group.tasks

lemma groupOf_eq_some : s.groupOf sid tgid = some group ↔
    ∃ session, s.sessions.lookup sid = some session ∧ session.getGroup tgid = some group :=
  bind_eq_some_iff

lemma mem_sessions_of_groupOf (h : s.groupOf sid tgid = some group) : sid ∈ s.sessions := by
  obtain ⟨session, hsession, _⟩ := groupOf_eq_some.mp h
  exact lookup_isSome.mp (hsession ▸ rfl)

section

variable (s : Table)

@[simp]
lemma lookup_setTask (tid u : Nat) (task : Task) : (s.setTask tid task).tasks.lookup u =
      if u = tid then some task else s.tasks.lookup u := by
  by_cases h : u = tid
  · subst h
    simp [setTask, lookup_insert]
  · simp [setTask, h, lookup_insert_ne]

@[simp]
lemma sessions_setTask (tid : Nat) (task : Task) : (s.setTask tid task).sessions = s.sessions := rfl

@[simp]
lemma groupOf_setTask (tid : Nat) (task : Task) :
    (s.setTask tid task).groupOf sid tgid = s.groupOf sid tgid := rfl

@[simp]
lemma tasks_setSession (sid : Nat) (session : Session) :
    (s.setSession sid session).tasks = s.tasks := rfl

@[simp]
lemma mem_sessions_setSession (session : Session) :
    a ∈ (s.setSession sid session).sessions ↔ a = sid ∨ a ∈ s.sessions := by
  simp [setSession, mem_insert]

@[simp]
lemma groupOf_setSession (session : Session) : (s.setSession sid session).groupOf a tgid =
      if a = sid then session.getGroup tgid else s.groupOf a tgid := by
  unfold groupOf
  by_cases h : a = sid
  · subst h
    simp [setSession, lookup_insert]
  · simp [setSession, h, lookup_insert_ne]

end

lemma groupOf_setGroup (h : s.sessions.lookup sid = some session) :
    (s.setSession sid (session.setGroup tgid group)).groupOf a b =
      if a = sid ∧ b = tgid then some group else s.groupOf a b := by
  rw [groupOf_setSession]
  by_cases ha : a = sid
  · subst ha
    by_cases hb : b = tgid
    · simp [hb]
    · simp [hb, groupOf, h]
  · simp [ha]

lemma groupOf_of_lookup (h : s.sessions.lookup sid = some session) (b : Nat) :
    s.groupOf sid b = session.getGroup b := by
  simp [groupOf, h]

lemma groupOf_of_lookup_none
    (h : s.sessions.lookup sid = none) (b : Nat) : s.groupOf sid b = none := by
  simp [groupOf, h]

lemma mem_of_lookup (h : s.sessions.lookup sid = some session) : sid ∈ s.sessions :=
  lookup_isSome.mp (h ▸ rfl)

section

variable (s : Table) (tid : Nat) (task : Task)

lemma groupOf_tryAddTask (a b : Nat) : (s.tryAddTask tid task).groupOf a b =
      if a = task.sid ∧ b = task.tgid then (s.groupOf a b).map (·.addTask tid)
      else s.groupOf a b := by
  unfold tryAddTask
  cases hsession : s.sessions.lookup task.sid with
  | none =>
    have hnone := groupOf_of_lookup_none hsession
    by_cases h : a = task.sid ∧ b = task.tgid
    · simp [h, hnone]
    · simp [h]
  | some session =>
    have hof := groupOf_of_lookup hsession
    cases hgroup : session.getGroup task.tgid with
    | none =>
      simp only [Session.tryAddTask, hgroup, groupOf_setSession]
      by_cases ha : a = task.sid
      · by_cases hb : b = task.tgid <;> simp [ha, hb, hof, hgroup]
      · simp [ha]
    | some group =>
      simp only [Session.tryAddTask, hgroup, groupOf_setGroup hsession]
      by_cases h : a = task.sid ∧ b = task.tgid
      · simp [h, hof, hgroup]
      · simp [h]

lemma mem_sessions_tryAddTask (a : Nat) :
    a ∈ (s.tryAddTask tid task).sessions ↔ a ∈ s.sessions := by
  unfold tryAddTask
  cases hsession : s.sessions.lookup task.sid with
  | none => rfl
  | some session =>
    have hmem := mem_of_lookup hsession
    simp only [mem_sessions_setSession, or_iff_right_iff_imp]
    rintro rfl
    exact hmem

@[simp]
lemma tasks_tryAddTask : (s.tryAddTask tid task).tasks = s.tasks := by
  unfold tryAddTask
  cases s.sessions.lookup task.sid <;> rfl

@[simp]
lemma nextTid_setTask : (s.setTask tid task).nextTid = s.nextTid := rfl

@[simp]
lemma nextTid_tryAddTask : (s.tryAddTask tid task).nextTid = s.nextTid := by
  unfold tryAddTask
  cases s.sessions.lookup task.sid <;> rfl

@[simp]
lemma nextTid_removeTask : (s.removeTask tid task).nextTid = s.nextTid := by
  unfold removeTask
  split
  · split <;> rfl
  · rfl

end
end Table

lemma Session.getGroup_removeTask (session : Session) (tgid tid b : Nat) :
    (session.removeTask tgid tid).1.getGroup b =
      if b = tgid then ((session.getGroup b).map (·.removeTask tid)).filter (!·.isEmpty)
      else session.getGroup b := by
  unfold Session.removeTask
  cases hgroup : session.getGroup tgid with
  | none => by_cases hb : b = tgid <;> simp [hb, hgroup]
  | some group =>
    by_cases hempty : (group.removeTask tid).isEmpty = true
    · by_cases hb : b = tgid
      · subst hb
        simp only [hempty, ↓reduceIte, hgroup, map_some]
        rw [filter_some_neg (by simp [hempty])]
        exact lookup_erase b session.groups
      · simp only [hempty, ↓reduceIte, hb]
        exact lookup_erase_ne hb
    by_cases hb : b = tgid
    · subst hb
      simp only [hempty, Bool.false_eq_true, ↓reduceIte,
        Session.getGroup_setGroup, hgroup, map_some]
      rw [filter_some_pos (by simp [hempty])]
    · simp [hempty, hb]

lemma Session.removeTask_snd (session : Session) (tgid tid : Nat) :
    (session.removeTask tgid tid).2 = true ↔
      ∀ b, (session.removeTask tgid tid).1.getGroup b = none := by
  have hsnd : (session.removeTask tgid tid).2 =
      (session.removeTask tgid tid).1.groups.entries.isEmpty := rfl
  rw [hsnd, List.isEmpty_iff]
  constructor
  · intro h b
    simp [Session.getGroup, lookup, h]
  intro h
  rw [← List.map_eq_nil_iff (f := Sigma.fst), List.eq_nil_iff_forall_not_mem]
  intro b hb
  exact (lookup_eq_none.mp (h b)) hb

namespace Table

lemma removeTask_of_lookup (hsession : s.sessions.lookup task.sid = some session) :
    s.removeTask tid task =
      if (session.removeTask task.tgid tid).2 then { s with sessions := s.sessions.erase task.sid }
      else s.setSession task.sid (session.removeTask task.tgid tid).1 := by
  simp only [removeTask, hsession]
  rcases session.removeTask task.tgid tid with ⟨rest, last⟩
  cases last <;> rfl

section

variable (s : Table) (tid : Nat) (task : Task)

lemma groupOf_removeTask (a b : Nat) : (s.removeTask tid task).groupOf a b =
      if a = task.sid ∧ b = task.tgid then
        ((s.groupOf a b).map (·.removeTask tid)).filter (!·.isEmpty)
      else s.groupOf a b := by
  cases hsession : s.sessions.lookup task.sid with
  | none =>
    have hnone := groupOf_of_lookup_none hsession
    have hsame : s.removeTask tid task = s := by simp [removeTask, hsession]
    rw [hsame]
    by_cases h : a = task.sid ∧ b = task.tgid
    · simp [h, hnone]
    · simp [h]
  | some session =>
    have hof : s.groupOf task.sid b = session.getGroup b := by simp [groupOf, hsession]
    -- An erased session has no groups, like what is left of it.
    have hleft : (s.removeTask tid task).groupOf a b =
        if a = task.sid then (session.removeTask task.tgid tid).1.getGroup b
        else s.groupOf a b := by
      rw [removeTask_of_lookup hsession]
      by_cases hlast : (session.removeTask task.tgid tid).2 = true
      · rw [if_pos hlast]
        by_cases ha : a = task.sid
        · subst ha
          simp [groupOf, lookup_erase, (session.removeTask_snd task.tgid tid).mp hlast b]
        · simp [groupOf, ha, lookup_erase_ne]
      · rw [if_neg hlast, groupOf_setSession]
    rw [hleft, session.getGroup_removeTask]
    by_cases ha : a = task.sid
    · subst ha
      simp [hof]
    · simp [ha]

lemma mem_sessions_removeTask (a : Nat) : a ∈ (s.removeTask tid task).sessions ↔ a ∈ s.sessions ∧
    (a = task.sid → ∃ b group, (s.removeTask tid task).groupOf a b = some group) := by
  cases hsession : s.sessions.lookup task.sid with
  | none =>
    have hnot : task.sid ∉ s.sessions := lookup_eq_none.mp hsession
    have hsame : s.removeTask tid task = s := by simp [removeTask, hsession]
    rw [hsame]
    constructor
    · intro ha
      exact ⟨ha, fun h => absurd (h ▸ ha) hnot⟩
    · exact And.left
  | some session =>
    have hmem := mem_of_lookup hsession
    rw [removeTask_of_lookup hsession]
    by_cases hlast : (session.removeTask task.tgid tid).2 = true
    · rw [if_pos hlast]
      simp only [mem_erase]
      constructor
      · intro ha
        exact ⟨ha.2, fun h => absurd h ha.1⟩
      rintro ⟨ha, himp⟩
      refine ⟨fun h => ?_, ha⟩
      obtain ⟨b, group, hgroup⟩ := himp h
      subst h
      simp [groupOf, lookup_erase] at hgroup
    rw [if_neg hlast]
    obtain ⟨b, hb⟩ := not_forall.mp (mt (session.removeTask_snd task.tgid tid).mpr hlast)
    obtain ⟨group, hgroup⟩ := ne_none_iff_exists'.mp hb
    simp only [mem_sessions_setSession]
    constructor
    · intro ha
      refine ⟨ha.elim (fun h => h ▸ hmem) id, ?_⟩
      rintro rfl
      exact ⟨b, group, by simpa using hgroup⟩
    · exact fun ha => .inr ha.1

/-- The task's group has another leader, or there is no such group: the call
`create_session` goes on. -/
def mayLeave : Prop := ∀ group, s.groupOf task.sid task.tgid = some group → group.leaderTid ≠ tid

def LeavesGroup (t : Table) : Prop :=
  t.tasks = s.tasks ∧ t.tasksTable = s.tasksTable ∧ t.nextTid = s.nextTid ∧
    (∀ a, a ∈ t.sessions ↔ a ∈ s.sessions) ∧
    ∀ a b, t.groupOf a b =
      if a = task.sid ∧ b = task.tgid then (s.groupOf a b).map (·.removeTask tid)
      else s.groupOf a b

lemma createSession_cases :
    (¬ s.mayLeave tid task ∧ (s.createSession tid task).1 = s) ∨
    (s.mayLeave tid task ∧ ∃ left, s.LeavesGroup tid task left ∧
      (s.createSession tid task).1 = (left.insertSession tid task).1) := by
  unfold createSession
  cases hsession : s.sessions.lookup task.sid with
  | none =>
    have hnone := groupOf_of_lookup_none hsession
    refine .inr ⟨?_, s, ⟨rfl, rfl, rfl, fun _ => Iff.rfl, ?_⟩, rfl⟩
    · intro group hgroup
      simp [hnone] at hgroup
    intro a b
    by_cases h : a = task.sid ∧ b = task.tgid
    · simp [h, hnone]
    · simp [h]
  | some session =>
    have hof := groupOf_of_lookup hsession
    cases hgroup : session.getGroup task.tgid with
    | none =>
      simp only
      refine .inr ⟨?_, s, ⟨rfl, rfl, rfl, fun _ => Iff.rfl, ?_⟩,
        by rw [hgroup]⟩
      · intro group h
        simp [hof, hgroup] at h
      intro a b
      by_cases h : a = task.sid ∧ b = task.tgid
      · simp [h, hof, hgroup]
      · simp [h]
    | some group =>
      simp only [hgroup]
      by_cases hleader : group.leaderTid = tid
      · rw [if_pos hleader]
        refine .inl ⟨fun hmay => hmay group ?_ hleader, rfl⟩
        rw [hof, hgroup]
      rw [if_neg hleader]
      refine .inr ⟨?_, s.setSession task.sid (session.setGroup
        task.tgid (group.removeTask tid)), ⟨rfl, rfl, rfl, ?_, ?_⟩, rfl⟩
      · intro other hother
        rw [hof, hgroup, some.injEq] at hother
        exact hother ▸ hleader
      · intro a
        have hmem := mem_of_lookup hsession
        rw [mem_sessions_setSession, or_iff_right_iff_imp]
        rintro rfl
        exact hmem
      intro a b
      rw [groupOf_setGroup hsession]
      by_cases h : a = task.sid ∧ b = task.tgid
      · simp [h, hof, hgroup]
      · simp [h]

end

/-- A task moves from its group to the group `tgid` of the same session, which
exists or is created with it as leader. -/
structure Moves (s : Table) (tid : Nat) (task : Task) (tgid : Nat)
    (t : Table) : Prop where
  tasks : t.tasks = s.tasks.insert tid { task with tgid := tgid }
  tasksTable : t.tasksTable = s.tasksTable
  nextTid : t.nextTid = s.nextTid
  sessions : ∀ a, a ∈ t.sessions ↔ a ∈ s.sessions
  listed : s.Listed task.sid task.tgid tid
  exists_group : ∃ group, (s.groupOf task.sid tgid = some group ∨
      (s.groupOf task.sid tgid = none ∧ tgid = tid ∧ group = Group.new tid)) ∧
    ∀ a b, t.groupOf a b =
      if a = task.sid ∧ b = tgid then
        some ((if tgid = task.tgid then group.removeTask tid
          else group).addTask tid)
      else if a = task.sid ∧ b = task.tgid then (s.groupOf a b).map (·.removeTask tid)
      else s.groupOf a b

end Table

lemma Group.addTask_new (tid : Nat) : (new tid).addTask tid = new tid := by
  simp [addTask, new]

lemma Session.moveTaskOrCreateGrp_ok
    (h : session.moveTaskOrCreateGrp tid tgid newPgid = .ok moved) :
    (∃ old, session.getGroup tgid = some old ∧ tid ∈ old.tasks) ∧
    ∃ group, (session.getGroup newPgid = some group ∨
        (session.getGroup newPgid = none ∧ newPgid = tid ∧ group = Group.new tid)) ∧
      ∀ b, moved.getGroup b =
        if b = newPgid then
          some ((if newPgid = tgid then group.removeTask tid
            else group).addTask tid)
        else if b = tgid then (session.getGroup b).map (·.removeTask tid)
        else session.getGroup b := by
  unfold Session.moveTaskOrCreateGrp at h
  cases hold : session.getGroup tgid with
  | none =>
    rw [hold] at h
    cases h
  | some old =>
    simp only [hold] at h
    split at h
    · cases h
    split at h
    · cases h
    rename_i hnew hmem
    refine ⟨⟨old, rfl, not_not.mp hmem⟩, ?_⟩
    rw [Session.getGroup_setGroup] at h
    by_cases hsame : newPgid = tgid
    · subst hsame
      simp only [↓reduceIte, Except.ok.injEq] at h
      subst h
      refine ⟨old, .inl hold, fun b => ?_⟩
      by_cases hb : b = newPgid <;> simp [hb]
    rw [if_neg hsame] at h
    cases hgroup : session.getGroup newPgid with
    | some group =>
      simp only [hgroup, Except.ok.injEq] at h
      subst h
      refine ⟨group, .inl rfl, fun b => ?_⟩
      by_cases hb : b = newPgid
      · simp [hb, hsame]
      by_cases hb' : b = tgid
      · subst hb'
        simp [hb, hold]
      · simp [hb, hb']
    | none =>
      simp only [hgroup, Except.ok.injEq] at h
      subst h
      have htid : newPgid = tid := by
        by_contra hne
        exact hnew ⟨hgroup, hne⟩
      subst htid
      refine ⟨Group.new newPgid, .inr ⟨rfl, rfl, rfl⟩, fun b => ?_⟩
      by_cases hb : b = newPgid
      · simp [hb, hsame, Group.addTask_new]
      by_cases hb' : b = tgid
      · subst hb'
        simp [hb, hold]
      · simp [hb, hb']

namespace Table

lemma setTgid_cases (s : Table) (caller : Task) (tid : Nat) (task : Task) (newTgid : Nat) :
    (s.setTgid caller tid task newTgid).1 = s ∨
    ∃ tgid, s.targetGroup caller tid task newTgid = .ok tgid ∧
      s.Moves tid task tgid (s.setTgid caller tid task newTgid).1 := by
  unfold setTgid
  cases htarget : s.targetGroup caller tid task newTgid with
  | error err => exact .inl rfl
  | ok tgid =>
    cases hsession : s.sessions.lookup task.sid with
    | none => exact .inl rfl
    | some session =>
      cases hmove : session.moveTaskOrCreateGrp tid task.tgid tgid with
      | error err => exact .inl (by simp only [hmove])
      | ok moved =>
        have hof := groupOf_of_lookup hsession
        have hmem := mem_of_lookup hsession
        obtain ⟨⟨old, hold, hlisted⟩, group, hgroup, hmoved⟩ := Session.moveTaskOrCreateGrp_ok hmove
        simp only [hmove]
        refine .inr ⟨tgid, rfl, rfl, rfl, rfl, ?_,
          ⟨old, (hof _).trans hold, hlisted⟩, group, ?_, ?_⟩
        · intro a
          rw [sessions_setTask, mem_sessions_setSession, or_iff_right_iff_imp]
          rintro rfl
          exact hmem
        · rw [hof]
          exact hgroup
        intro a b
        rw [groupOf_setTask, groupOf_setSession, hmoved]
        by_cases ha : a = task.sid
        · subst ha
          simp [hof]
        · simp [ha]

lemma sid_ne_of_targetGroup (h : s.targetGroup caller tid task newTgid = .ok tgid) :
    task.sid ≠ tid := by
  intro hsid
  rw [targetGroup, if_pos hsid] at h
  cases h

/-- What holds in every reachable state: numbers are given out in order, a
listed task is live and has the numbers of the group that lists it, a group is
numbered by its leader, and a task leads the session that has its number. -/
structure Inv (s : Table) : Prop where
  tid_lt : ∀ {u task}, s.tasks.lookup u = some task → u < s.nextTid
  sid_lt : ∀ {sid}, sid ∈ s.sessions → sid < s.nextTid
  listed : ∀ {sid tgid u}, s.Listed sid tgid u →
    ∃ task, s.tasks.lookup u = some task ∧ task.sid = sid ∧ task.tgid = tgid
  leader : ∀ {sid tgid group}, s.groupOf sid tgid = some group → group.leaderTid = tgid
  own : ∀ {u task}, s.tasks.lookup u = some task → u ∈ s.sessions → task.sid = u ∧ task.tgid = u
  unstarted : ∀ {u task}, s.tasks.lookup u = some task →
    task.inner.state = .initialized → task.sid = u ∧ u ∉ s.sessions

section

variable {tid : Nat}

lemma Inv.listed_fields (hinv : s.Inv) (htask : s.tasks.lookup tid = some task)
    (h : s.Listed a b tid) : a = task.sid ∧ b = task.tgid := by
  obtain ⟨other, hother, hsid, htgid⟩ := hinv.listed h
  rw [htask, some.injEq] at hother
  subst hother
  exact ⟨hsid.symm, htgid.symm⟩

lemma mem_sessions_of_listed (h : s.Listed sid tgid u) : sid ∈ s.sessions := by
  obtain ⟨group, hgroup, _⟩ := h
  exact mem_sessions_of_groupOf hgroup

lemma LeavesGroup.listed_iff (hinv : s.Inv)
    (htask : s.tasks.lookup tid = some task) (hleft : s.LeavesGroup tid task t)
    (a b u : Nat) : t.Listed a b u ↔ u ≠ tid ∧ s.Listed a b u := by
  obtain ⟨_, _, _, _, hgroups⟩ := hleft
  unfold Listed
  rw [hgroups a b]
  by_cases h : a = task.sid ∧ b = task.tgid
  · rw [if_pos h]
    exact exists_mem_removeTask _ tid u
  rw [if_neg h, iff_and_self]
  rintro hlisted rfl
  exact h (hinv.listed_fields htask hlisted)

lemma Inv.of_update (hinv : s.Inv) (tid : Nat) (task : Task) (hlookup : ∀ u, t.tasks.lookup u =
      if u = tid then some task else s.tasks.lookup u)
    (htid : tid < t.nextTid) (hnext : s.nextTid ≤ t.nextTid)
    (hsessions : ∀ {a}, a ∈ t.sessions → a = tid ∨ a ∈ s.sessions)
    (hlisted : ∀ {a b u}, t.Listed a b u →
      (u = tid ∧ a = task.sid ∧ b = task.tgid) ∨ (u ≠ tid ∧ s.Listed a b u))
    (hleader : ∀ {a b group}, t.groupOf a b = some group → group.leaderTid = b)
    (hown : tid ∈ t.sessions → task.sid = tid ∧ task.tgid = tid)
    (hunstarted : task.inner.state = .initialized → task.sid = tid ∧ tid ∉ t.sessions) : t.Inv := by
  constructor
  · intro u other hu
    rw [hlookup] at hu
    split at hu
    · next h => exact h ▸ htid
    · exact lt_of_lt_of_le (hinv.tid_lt hu) hnext
  · intro a ha
    rcases hsessions ha with rfl | ha
    · exact htid
    · exact lt_of_lt_of_le (hinv.sid_lt ha) hnext
  · intro a b u hu
    rw [hlookup]
    rcases hlisted hu with ⟨rfl, rfl, rfl⟩ | ⟨hne, hu⟩
    · exact ⟨task, if_pos rfl, rfl, rfl⟩
    · rw [if_neg hne]
      exact hinv.listed hu
  · exact hleader
  · intro u other hu hmem
    rw [hlookup] at hu
    split at hu
    · rename_i h
      cases hu
      subst h
      exact hown hmem
    · next h => exact hinv.own hu ((hsessions hmem).resolve_left h)
  intro u other hu hinit
  rw [hlookup] at hu
  split at hu
  · rename_i h
    cases hu
    subst h
    exact hunstarted hinit
  rename_i h
  obtain ⟨hsid, hnot⟩ := hinv.unstarted hu hinit
  exact ⟨hsid, fun hmem => hnot ((hsessions hmem).resolve_left h)⟩

lemma lookup_eq_ite (htask : s.tasks.lookup tid = some task) :
    s.tasks.lookup u = if u = tid then some task else s.tasks.lookup u := by
  split
  · next h => exact h ▸ htask
  · rfl

lemma Inv.leader_removeTask (hinv : s.Inv)
    (h : (s.groupOf a b).map (·.removeTask tid) = some group) : group.leaderTid = b := by
  obtain ⟨old, hold, rfl⟩ := map_eq_some_iff.mp h
  have hleader : old.leaderTid = b := hinv.leader hold
  exact hleader

lemma LeavesGroup.inv (hinv : s.Inv) (htask : s.tasks.lookup tid = some task)
    (hleft : s.LeavesGroup tid task t) : t.Inv := by
  have hlisted := hleft.listed_iff hinv htask
  obtain ⟨htasks, _, hnext, hsessions, hgroups⟩ := hleft
  apply hinv.of_update tid task
  · intro u
    rw [htasks]
    exact lookup_eq_ite htask
  · exact hnext ▸ hinv.tid_lt htask
  · exact hnext.ge
  · exact fun ha => .inr ((hsessions _).mp ha)
  · exact fun hu => .inr ((hlisted _ _ _).mp hu)
  · intro a b group hgroup
    rw [hgroups] at hgroup
    split at hgroup
    · exact hinv.leader_removeTask hgroup
    · exact hinv.leader hgroup
  · exact fun hmem => hinv.own htask ((hsessions _).mp hmem)
  intro hinit
  obtain ⟨hsid, hnot⟩ := hinv.unstarted htask hinit
  exact ⟨hsid, fun hmem => hnot ((hsessions _).mp hmem)⟩

/-- The state after `create_session` has put a task that no group lists into a
session of its own. -/
def newSession (s : Table) (tid : Nat) (task : Task) : Table :=
  (s.setSession tid (Session.new tid)).setTask tid
    { task with tgid := tid, sid := tid }

lemma groupOf_newSession (s : Table) (tid : Nat) (task : Task) :
    (s.newSession tid task).groupOf a b =
      if a = tid then if b = tid then some (Group.new tid) else none
      else s.groupOf a b := by
  simp [newSession, Session.getGroup_new]

lemma listed_newSession (hnew : tid ∉ s.sessions) :
    (s.newSession tid task).Listed a b u ↔ (a = tid ∧ b = tid ∧ u = tid) ∨ s.Listed a b u := by
  unfold Listed
  rw [groupOf_newSession]
  by_cases ha : a = tid
  · subst ha
    have hnone : s.groupOf a b = none := by
      rw [groupOf, lookup_eq_none.mpr hnew]
      rfl
    rw [hnone]
    by_cases hb : b = a <;> simp [hb, new]
  · simp [ha]

section

variable (hinv : s.Inv) (htask : s.tasks.lookup tid = some task)

include hinv htask

lemma Inv.newSession (hstate : task.inner.state ≠ .initialized) (hnew : tid ∉ s.sessions)
    (hnot : ∀ a b, ¬ s.Listed a b tid) : (s.newSession tid task).Inv := by
  apply hinv.of_update tid { task with tgid := tid, sid := tid }
  · intro u
    rw [Table.newSession, lookup_setTask, tasks_setSession]
  · exact hinv.tid_lt htask
  · exact le_refl _
  · exact fun ha => (mem_sessions_setSession s _).mp ha
  · intro a b u hu
    rcases (listed_newSession hnew).mp hu with ⟨rfl, rfl, rfl⟩ | hu
    · exact .inl ⟨rfl, rfl, rfl⟩
    · exact .inr ⟨fun h => hnot a b (h ▸ hu), hu⟩
  · intro a b group hgroup
    rw [groupOf_newSession] at hgroup
    split at hgroup
    · split at hgroup
      · rename_i hb
        cases hgroup
        exact hb.symm
      · cases hgroup
    · exact hinv.leader hgroup
  · exact fun _ => ⟨rfl, rfl⟩
  · exact fun hinit => absurd hinit hstate

lemma Moves.listed_iff (hmove : s.Moves tid task tgid t) (a b u : Nat) :
    t.Listed a b u ↔ (a = task.sid ∧ b = tgid ∧ u = tid) ∨ (u ≠ tid ∧ s.Listed a b u) := by
  obtain ⟨group, hgroup, hgroups⟩ := hmove.exists_group
  have hother (h : ¬ (a = task.sid ∧ b = task.tgid)) (hu : s.Listed a b u) : u ≠ tid := by
    rintro rfl
    exact h (hinv.listed_fields htask hu)
  unfold Listed at hother ⊢
  rw [hgroups]
  by_cases hnew : a = task.sid ∧ b = tgid
  · obtain ⟨rfl, rfl⟩ := hnew
    simp only [and_self, ↓reduceIte, some.injEq, exists_eq_left', mem_addTask, true_and]
    by_cases hu : u = tid
    · simp [hu]
    simp only [hu, false_or, ne_eq, not_false_eq_true, true_and]
    have hmem : u ∈ (if b = task.tgid then group.removeTask tid
        else group).tasks ↔ u ∈ group.tasks := by
      split
      · simp [mem_removeTask, hu]
      · rfl
    rw [hmem]
    rcases hgroup with hgroup | ⟨hnone, rfl, rfl⟩
    · simp [hgroup]
    · simp [hnone, new, hu]
  · rw [if_neg hnew]
    have hnot : ¬ (a = task.sid ∧ b = tgid ∧ u = tid) := fun h => hnew ⟨h.1, h.2.1⟩
    simp only [hnot, false_or]
    by_cases hold : a = task.sid ∧ b = task.tgid
    · rw [if_pos hold]
      exact exists_mem_removeTask _ tid u
    · rw [if_neg hold, iff_and_self]
      exact hother hold

lemma Moves.inv (hmove : s.Moves tid task tgid t) (hsid : task.sid ≠ tid) : t.Inv := by
  have hmem (h : tid ∈ t.sessions) : task.sid = tid :=
    (hinv.own htask ((hmove.sessions tid).mp h)).1
  apply hinv.of_update tid { task with tgid := tgid }
  · intro u
    rw [hmove.tasks]
    exact lookup_setTask s tid u _
  · exact hmove.nextTid ▸ hinv.tid_lt htask
  · exact hmove.nextTid.ge
  · exact fun ha => .inr ((hmove.sessions _).mp ha)
  · intro a b u hu
    rcases (hmove.listed_iff hinv htask a b u).mp hu with ⟨rfl, rfl, rfl⟩ | hu
    · exact .inl ⟨rfl, rfl, rfl⟩
    · exact .inr hu
  · intro a b group hgroup
    obtain ⟨new, hnew, hgroups⟩ := hmove.exists_group
    rw [hgroups] at hgroup
    split at hgroup
    · rename_i h
      obtain ⟨rfl, rfl⟩ := h
      cases hgroup
      have hleader : new.leaderTid = b := by
        rcases hnew with hnew | ⟨_, rfl, rfl⟩
        · exact hinv.leader hnew
        · rfl
      split <;> exact hleader
    split at hgroup
    · exact hinv.leader_removeTask hgroup
    · exact hinv.leader hgroup
  · exact fun h => absurd (hmem h) hsid
  · exact fun hinit => absurd (hinv.unstarted htask hinit).1 hsid

end

lemma listed_tryAddTask (task : Task) (hnot : ∀ a b, ¬ s.Listed a b tid) (a b u : Nat) :
    (s.tryAddTask tid task).Listed a b u ↔ (u = tid ∧ a = task.sid ∧ b = task.tgid ∧
        ∃ group, s.groupOf a b = some group) ∨ (u ≠ tid ∧ s.Listed a b u) := by
  have hother (hu : s.Listed a b u) : u ≠ tid := fun h => hnot a b (h ▸ hu)
  unfold Listed at hother ⊢
  rw [groupOf_tryAddTask]
  by_cases h : a = task.sid ∧ b = task.tgid
  · rw [if_pos h]
    cases hgroup : s.groupOf a b with
    | none => simp
    | some group =>
      rw [hgroup] at hother
      by_cases hu : u = tid
      · simp [h, hu, mem_addTask]
      · simp [hu, mem_addTask]
  rw [if_neg h]
  have hnot' : ¬ (u = tid ∧ a = task.sid ∧ b = task.tgid ∧
      ∃ group, s.groupOf a b = some group) := fun hx => h ⟨hx.2.1, hx.2.2.1⟩
  rw [iff_false_intro hnot', false_or, iff_and_self]
  exact hother

lemma Inv.not_listed_of_unstarted (hinv : s.Inv) (htask : s.tasks.lookup tid = some task)
    (hstate : task.inner.state = .initialized) (a b : Nat) : ¬ s.Listed a b tid := by
  intro h
  obtain ⟨hsid, hnot⟩ := hinv.unstarted htask hstate
  have ha : a = tid := (hinv.listed_fields htask h).1.trans hsid
  exact hnot (ha ▸ mem_sessions_of_listed h)

lemma Inv.setTask (hinv : s.Inv) (htask : s.tasks.lookup tid = some task)
    {inner : Signals.Task} (hstate : inner.state = .initialized → task.inner.state = .initialized) :
    (s.setTask tid { task with inner := inner }).Inv := by
  apply hinv.of_update tid { task with inner := inner }
  · exact fun u => lookup_setTask s tid u _
  · exact hinv.tid_lt htask
  · exact le_refl _
  · exact .inr
  · intro a b u hu
    by_cases h : u = tid
    · subst h
      have hfields := hinv.listed_fields htask hu
      exact .inl ⟨rfl, hfields⟩
    · exact .inr ⟨h, hu⟩
  · exact hinv.leader
  · intro hmem
    have hown := hinv.own htask hmem
    exact hown
  intro hinit
  have hunstarted := hinv.unstarted htask (hstate hinit)
  exact hunstarted

lemma Inv.create (hinv : s.Inv) : s.create.Inv := by
  have hnot (a b : Nat) : ¬ s.Listed a b s.nextTid := by
    intro h
    obtain ⟨task, htask, _⟩ := hinv.listed h
    exact lt_irrefl _ (hinv.tid_lt htask)
  have hfresh : s.nextTid ∉ s.sessions := fun h => lt_irrefl _ (hinv.sid_lt h)
  apply hinv.of_update s.nextTid (Task.new s.nextTid)
  · exact fun u => lookup_setTask s s.nextTid u _
  · exact Nat.lt_succ_self _
  · exact Nat.le_succ _
  · exact .inr
  · exact fun hu => .inr ⟨fun h => hnot _ _ (h ▸ hu), hu⟩
  · exact hinv.leader
  · exact fun h => absurd h hfresh
  · exact fun _ => ⟨rfl, hfresh⟩

lemma wakeup_state (task : Signals.Task)
    (h : task.state = .initialized) : task.wakeup.state = .runable := by
  simp [Signals.Task.wakeup, h, TaskState.wakes]

lemma Inv.setTasksTable (hinv : s.Inv) (tasksTable : List Nat) :
    { s with tasksTable := tasksTable }.Inv :=
  ⟨hinv.tid_lt, hinv.sid_lt, hinv.listed, hinv.leader, hinv.own, hinv.unstarted⟩

/-- The state after `start_with_parent` has given the task the numbers of its
parent and has woken it up. -/
def joinParent (s : Table) (tid : Nat) (task parent : Task) : Table :=
  (s.tryAddTask tid { task with tgid := parent.tgid, sid := parent.sid }).setTask
    tid { sid := parent.sid, tgid := parent.tgid, inner := task.inner.wakeup }

lemma startWithParent_cases (s : Table) (tid : Nat) (task : Task) (parent : Option Task) :
    (s.startWithParent tid task parent).1 = s ∨
    ∃ tasksTable, (s.startWithParent tid task parent).1 =
      match parent with
      | none => { s with tasksTable := tasksTable }.setTask tid
          { task with inner := task.inner.wakeup }
      | some parent =>
        { s with tasksTable := tasksTable }.joinParent tid task parent := by
  unfold startWithParent
  split
  · exact .inl rfl
  · refine .inr ⟨s.tasksTable ++ [tid], ?_⟩
    cases parent <;> rfl

lemma Inv.joinParent (hinv : s.Inv) (htask : s.tasks.lookup tid = some task)
    (hstate : task.inner.state = .initialized) (parent : Task) :
    (s.joinParent tid task parent).Inv := by
  have hnot := hinv.not_listed_of_unstarted htask hstate
  obtain ⟨hsid, hfresh⟩ := hinv.unstarted htask hstate
  have hsessions := mem_sessions_tryAddTask s tid
    { task with tgid := parent.tgid, sid := parent.sid }
  apply hinv.of_update tid
    { sid := parent.sid, tgid := parent.tgid, inner := task.inner.wakeup }
  · intro u
    rw [Table.joinParent, lookup_setTask, tasks_tryAddTask]
  · have hnext : (s.joinParent tid task parent).nextTid = s.nextTid := by
      rw [Table.joinParent, nextTid_setTask, nextTid_tryAddTask]
    exact hnext ▸ hinv.tid_lt htask
  · rw [Table.joinParent, nextTid_setTask, nextTid_tryAddTask]
  · exact fun ha => .inr ((hsessions _).mp ha)
  · intro a b u hu
    rcases (listed_tryAddTask _ hnot a b u).mp hu with h | h
    · exact .inl ⟨h.1, h.2.1, h.2.2.1⟩
    · exact .inr h
  · intro a b group hgroup
    rw [Table.joinParent, groupOf_setTask, groupOf_tryAddTask] at hgroup
    split at hgroup
    · obtain ⟨old, hold, rfl⟩ := map_eq_some_iff.mp hgroup
      have hleader : old.leaderTid = b := hinv.leader hold
      exact hleader
    · exact hinv.leader hgroup
  · exact fun ha => absurd ((hsessions _).mp ha) hfresh
  intro hinit
  rw [wakeup_state task.inner hstate] at hinit
  cases hinit

lemma listed_removeTask (hinv : s.Inv) (htask : s.tasks.lookup tid = some task) :
    (s.removeTask tid task).Listed a b u ↔ u ≠ tid ∧ s.Listed a b u := by
  unfold Listed
  rw [groupOf_removeTask]
  by_cases h : a = task.sid ∧ b = task.tgid
  · rw [if_pos h, ← exists_mem_removeTask]
    constructor
    · rintro ⟨group, hgroup, hu⟩
      exact ⟨group, (filter_eq_some_iff.mp hgroup).1, hu⟩
    rintro ⟨group, hgroup, hu⟩
    refine ⟨group, filter_eq_some_iff.mpr ⟨hgroup, ?_⟩, hu⟩
    simp [isEmpty, List.ne_nil_of_mem hu]
  rw [if_neg h, iff_and_self]
  rintro hlisted rfl
  exact h (hinv.listed_fields htask hlisted)

def dropTask (s : Table) (tid : Nat) (task : Task) : Table :=
  { s.removeTask tid task with tasks := s.tasks.erase tid }

lemma lookup_dropTask (s : Table) (tid u : Nat) (task : Task) :
    (s.dropTask tid task).tasks.lookup u =
      if u = tid then none else s.tasks.lookup u := by
  by_cases h : u = tid
  · subst h
    simp [dropTask, lookup_erase]
  · simp [dropTask, h, lookup_erase_ne]

lemma Inv.dropTask (hinv : s.Inv) (htask : s.tasks.lookup tid = some task) :
    (s.dropTask tid task).Inv := by
  have hlive {u : Nat} {other : Task} (h : (s.dropTask tid task).tasks.lookup u = some other) :
      u ≠ tid ∧ s.tasks.lookup u = some other := by
    rw [lookup_dropTask] at h
    split at h
    · cases h
    · next hne => exact ⟨hne, h⟩
  have hsessions {a : Nat} (h : a ∈ (s.dropTask tid task).sessions) :
      a ∈ s.sessions := ((mem_sessions_removeTask s tid task a).mp h).1
  have hnext : (s.dropTask tid task).nextTid = s.nextTid := nextTid_removeTask s tid task
  constructor
  · exact fun h => hnext ▸ hinv.tid_lt (hlive h).2
  · exact fun h => hnext ▸ hinv.sid_lt (hsessions h)
  · intro a b u hu
    obtain ⟨hne, hu⟩ := (listed_removeTask hinv htask).mp hu
    rw [lookup_dropTask, if_neg hne]
    exact hinv.listed hu
  · intro a b group hgroup
    have hgroup : (s.removeTask tid task).groupOf a b = some group := hgroup
    rw [groupOf_removeTask] at hgroup
    split at hgroup
    · exact hinv.leader_removeTask (filter_eq_some_iff.mp hgroup).1
    · exact hinv.leader hgroup
  · exact fun h hmem => hinv.own (hlive h).2 (hsessions hmem)
  intro u other h hinit
  obtain ⟨hsid, hnot⟩ := hinv.unstarted (hlive h).2 hinit
  exact ⟨hsid, fun hmem => hnot (hsessions hmem)⟩

end

lemma sendSignal_unstarted {inner : Signals.Task} {flags : Signals.SignalFlags}
    (h : (inner.sendSignal flags).state = .initialized) : inner.state = .initialized := by
  simp only [Signals.Task.sendSignal, Signals.Task.wakeupIfInterruptible] at h
  split at h
  · exact h
  split at h
  · exact h
  · split at h
    · cases h
    · exact h

lemma kill_induction {P : Table → Prop}
    (hsend : ∀ s tid flags, P s → P (s.sendSignal tid flags)) (hs : P s) (caller : Task)
    (tid : Int) (signal : Option Signals.Signal) : P (s.kill caller tid signal).1 := by
  have hgroup (task : Task) : P (s.killGroup task signal).1 := by
    unfold killGroup
    cases s.getGroup task with
    | error err => exact hs
    | ok group =>
      cases signal with
      | none => exact hs
      | some signal =>
        have hfold (tasks : List Nat) (s : Table) (hs : P s) : P (tasks.foldl
            (fun s tid => s.sendSignal tid signal.toSingalFlags) s) := by
          induction tasks generalizing s with
          | nil => exact hs
          | cons tid rest ih => exact ih _ (hsend s tid _ hs)
        exact hfold group.tasks s hs
  unfold kill
  split
  · exact hgroup caller
  split
  · exact hs
  split
  · split
    · exact hs
    · split
      · exact hs
      · exact hgroup _
  split
  · exact hs
  · split
    · exact hs
    · split
      · exact hs
      · exact hsend s _ _ hs

lemma Inv.sendSignal (hinv : s.Inv) (tid : Nat)
    (flags : Signals.SignalFlags) : (s.sendSignal tid flags).Inv := by
  unfold Table.sendSignal
  split
  · next task htask => exact hinv.setTask htask sendSignal_unstarted
  · exact hinv

lemma lookup_of_running (h : s.running tid = some task) :
    s.tasks.lookup tid = some task ∧ task.isStarted = true :=
  filter_eq_some_iff.mp h

lemma Task.ne_initialized_of_isStarted (h : task.isStarted = true) :
    task.inner.state ≠ .initialized := by
  intro hstate
  simp [Task.isStarted, hstate] at h

lemma getTaskByTid_eq_ok : s.getTaskByTid tid = .ok task ↔
    tid ∈ s.tasksTable ∧ s.tasks.lookup tid = some task := by
  unfold getTaskByTid
  by_cases h : tid ∈ s.tasksTable
  · cases s.tasks.lookup tid <;> simp [h]
  · simp [h]

lemma lookup_of_target (h : s.target caller tid = some (u, task)) :
    s.tasks.lookup u = some task := by
  unfold target at h
  split at h
  · obtain ⟨other, hother, heq⟩ := map_eq_some_iff.mp h
    cases heq
    exact hother
  cases hget : s.getTaskByTid tid with
  | error err =>
    rw [hget] at h
    cases h
  | ok other =>
    rw [hget] at h
    cases h
    exact (getTaskByTid_eq_ok.mp hget).2

lemma Inv.createSession (hinv : s.Inv) (htask : s.tasks.lookup tid = some task)
    (hstate : task.inner.state ≠ .initialized) : (s.createSession tid task).1.Inv := by
  rcases s.createSession_cases tid task with ⟨_, heq⟩ | ⟨_, left, hleft, heq⟩
  · rw [heq]
    exact hinv
  rw [heq, insertSession]
  split
  · exact hleft.inv hinv htask
  rename_i hnone
  apply (hleft.inv hinv htask).newSession
  · rw [hleft.1]
    exact htask
  · exact hstate
  · exact lookup_eq_none.mp hnone
  · exact fun a b h => ((hleft.listed_iff hinv htask a b tid).mp h).1 rfl

/-- What one step does to the tables. -/
inductive Effect (s : Table) : Action → Table → Prop
  | refused {action : Action} : Effect s action s
  | create : Effect s .create s.create
  | wake {tid : Nat} {task : Task} (tasksTable : List Nat)
      (htask : s.tasks.lookup tid = some task)
      (hstate : task.inner.state = .initialized) :
      Effect s (.start tid none) ({ s with tasksTable := tasksTable }.setTask
        tid { task with inner := task.inner.wakeup })
  | join {tid parentTid : Nat} {task parent : Task} (tasksTable : List Nat)
      (htask : s.tasks.lookup tid = some task)
      (hstate : task.inner.state = .initialized)
      (hparent : s.running parentTid = some parent) :
      Effect s (.start tid (some parentTid))
        ({ s with tasksTable := tasksTable }.joinParent tid task parent)
  | createSession {tid : Nat} {task : Task} (hrun : s.running tid = some task) :
      Effect s (.setSid tid) (s.createSession tid task).1
  | move {callerTid target newTgid tid tgid : Nat} {caller task : Task} {t : Table}
      (hrun : s.running callerTid = some caller)
      (htarget : s.target callerTid target = some (tid, task))
      (htgid : s.targetGroup caller tid task newTgid = .ok tgid)
      (hmove : s.Moves tid task tgid t) :
      Effect s (.setTgid callerTid target newTgid) t
  | kill {callerTid : Nat} {target : Int} {signal : Option Signals.Signal}
      {caller : Task} : Effect s (.kill callerTid target signal) (s.kill caller target signal).1
  | inner {action : Action} {tid : Nat} {task : Task} {inner : Signals.Task}
      (htask : s.tasks.lookup tid = some task)
      (hstate : inner.state ≠ .initialized) :
      Effect s action (s.setTask tid { task with inner := inner })
  | reap {tid : Nat} (tasksTable : List Nat) :
      Effect s (.reap tid) { s with tasksTable := tasksTable }
  | drop {tid : Nat} {task : Task} (htask : s.tasks.lookup tid = some task) :
      Effect s (.drop tid) (s.dropTask tid task)

lemma Effect.of_start (hstep : s.step (.start tid parent) = some t) :
    Effect s (.start tid parent) t := by
  cases parent with
  | none =>
    simp only [Table.step] at hstep
    split at hstep
    · rename_i task htask
      obtain ⟨hstate, rfl⟩ := ite_some_none_eq_some.mp hstep
      rcases s.startWithParent_cases tid task none with heq | ⟨_, heq⟩
      · rw [heq]
        exact .refused
      · rw [heq]
        exact .wake _ htask hstate
    · cases hstep
  | some parent =>
    simp only [Table.step] at hstep
    split at hstep
    · rename_i task other htask hparent
      obtain ⟨hstate, rfl⟩ := ite_some_none_eq_some.mp hstep
      rcases s.startWithParent_cases tid task (some other) with heq | ⟨_, heq⟩
      · rw [heq]
        exact .refused
      · rw [heq]
        exact .join _ htask hstate hparent
    · cases hstep

lemma Effect.of_step (hstep : s.step action = some t) : Effect s action t := by
  cases action with
  | create =>
    cases hstep
    exact .create
  | start tid parent => exact .of_start hstep
  | setSid tid =>
    simp only [Table.step] at hstep
    split at hstep
    · rename_i task hrun
      cases hstep
      exact .createSession hrun
    · cases hstep
  | setTgid caller target newTgid =>
    simp only [Table.step] at hstep
    split at hstep
    · rename_i other tid task hrun htarget
      cases hstep
      rcases s.setTgid_cases other tid task newTgid with heq | ⟨tgid, htgid, hmove⟩
      · rw [heq]
        exact .refused
      · exact .move hrun htarget htgid hmove
    · cases hstep
      exact .refused
    · cases hstep
  | kill caller target signal =>
    simp only [Table.step] at hstep
    split at hstep
    · cases hstep
      exact .kill
    · cases hstep
  | proceed tid inner =>
    simp only [Table.step] at hstep
    split at hstep
    · rename_i task hrun
      obtain ⟨hstarted, rfl⟩ := ite_some_none_eq_some.mp hstep
      exact .inner (lookup_of_running hrun).1 (Task.ne_initialized_of_isStarted hstarted)
    · cases hstep
  | exit tid =>
    simp only [Table.step] at hstep
    split at hstep
    · rename_i task hrun
      cases hstep
      exact .inner (lookup_of_running hrun).1 nofun
    · cases hstep
  | reap tid =>
    simp only [Table.step] at hstep
    split at hstep
    · split at hstep
      · cases hstep
        exact .reap _
      · cases hstep
    · cases hstep
  | drop tid =>
    simp only [Table.step] at hstep
    split at hstep
    · rename_i task htask
      split at hstep
      · cases hstep
        exact .drop htask
      · cases hstep
    · cases hstep

lemma Inv.step (hinv : s.Inv) (hstep : s.step action = some t) : t.Inv := by
  cases Effect.of_step hstep with
  | refused => exact hinv
  | create => exact hinv.create
  | wake tasksTable htask hstate =>
    exact (hinv.setTasksTable tasksTable).setTask htask fun _ => hstate
  | join tasksTable htask hstate hparent =>
    exact (hinv.setTasksTable tasksTable).joinParent htask hstate _
  | createSession hrun =>
    obtain ⟨htask, hstarted⟩ := lookup_of_running hrun
    exact hinv.createSession htask (Task.ne_initialized_of_isStarted hstarted)
  | move hrun htarget htgid hmove =>
    exact hmove.inv hinv (lookup_of_target htarget) (sid_ne_of_targetGroup htgid)
  | kill =>
    exact kill_induction (fun _ tid flags h => h.sendSignal tid flags) hinv
      _ _ _
  | inner htask hstate => exact hinv.setTask htask fun hinit => absurd hinit hstate
  | reap tasksTable => exact hinv.setTasksTable tasksTable
  | drop htask => exact hinv.dropTask htask

lemma Inv.boot : boot.Inv where
  tid_lt h := by cases h
  sid_lt h := by cases h
  listed := fun ⟨_, h, _⟩ => by cases h
  leader h := by cases h
  own h := by cases h
  unstarted h := by cases h

lemma Inv.of_reachable (hs : machine.ReachableUnder ok s) : s.Inv := by
  apply hs.invariant
  · rintro _ rfl
    exact Inv.boot
  · exact fun s action t hinv _ hstep => hinv.step hstep

end Table
end Redwing.Sessions
