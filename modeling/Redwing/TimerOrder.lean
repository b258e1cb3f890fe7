/-
No tick and no signal wait for each other over the event of a sleeping task as
long as they do not meet at it: what the lists, the tasks and the threads say
about each other, step by step, and the order in which the threads then wait.
-/
import Redwing.TimerLocks

namespace Redwing.Timer

open Proc Function List Option Pc Sys

namespace Sys

variable {s t : Sys} {p : Pc} {lock : Lock}

def Owned (s : Sys) : Prop := Threads.Owned lockUse s.threads

def Deadlocked (s : Sys) : Prop := Threads.Deadlocked lockUse s.threads

abbrev Change (s t : Sys) (c : Nat) (p : Pc) : Prop :=
  Threads.Change lockUse s.threads t.threads c p

variable {q : Pc} {event : TimerEvent} {task : Task} {id : TimerEventId}

lemma acquire_eq_some (hpc : s.threads.pc c = q) (h : s.acquire c lock p = some u)
    (hholds : ∀ l, p.holds c l ↔ l = lock ∨ q.holds c l := by rintro (_ | _) <;> simp [holds]) :
    ∃ threads, Threads.Change lockUse s.threads threads c p ∧
      u = { s with threads := threads } ∧ s.threads.owner lock = none := by
  subst hpc
  obtain ⟨threads, hthreads, rfl⟩ := map_eq_some_iff.mp h
  exact ⟨threads, .acquire hthreads hholds, rfl, (Threads.acquire_eq_some.mp hthreads).1⟩

def Armed (s : Sys) (event : TimerEvent) : Prop :=
  (s.tasks event.tid).sleepTimerEvent = some event.id ∨ s.threads.pc event.tid = .pushing event.id ∨
    s.threads.pc event.tid = .armed event.id

/-- What the threads, the tasks and the lists say about each other, in runs in
which no tick and no signal meet at one event. -/
structure Inv (s : Sys) : Prop where
  owned : s.Owned
  asleep : ∀ {c id}, (s.tasks c).sleepTimerEvent = some id → (s.threads.pc c).asleep = true
  taken : ∀ {d tid id}, s.threads.pc d = .removing tid id → (s.tasks tid).sleepTimerEvent = none
  listed : ∀ {cpu event}, event ∈ s.lists cpu → event.id.cpuid = cpu ∧ event.id.id < s.nextId ∧
      (s.Armed event ∨ ∃ d, s.threads.pc d = .removing event.tid event.id)
  nodup : ∀ cpu, ((s.lists cpu).map TimerEvent.id).Nodup
  popped : ∀ {d cpu jiffies event}, s.threads.pc d = .callback cpu jiffies event →
    event.id.cpuid = cpu ∧ event.id.id < s.nextId ∧ s.Armed event ∧
      ∀ other ∈ s.lists cpu, other.id ≠ event.id

lemma Armed.of_change (harmed : s.Armed event) (hchange : s.Change t c p)
    (hsleep : (t.tasks event.tid).sleepTimerEvent = (s.tasks event.tid).sleepTimerEvent)
    (hpc : event.tid = c → (s.threads.pc c).arms = false) : t.Armed event := by
  unfold Armed at harmed ⊢
  rw [hsleep]
  by_cases h : event.tid = c
  · have harms := hpc h
    rw [← h] at harms
    rcases harmed with harmed | harmed | harmed
    · exact .inl harmed
    · rw [harmed] at harms
      cases harms
    · rw [harmed] at harms
      cases harms
  · rw [hchange.pc_of_ne h]
    exact harmed

lemma Inv.of_sublist (hinv : s.Inv) (hchange : s.Change t c p) (hnext : t.nextId = s.nextId)
    (hsub : ∀ a, (t.lists a).Sublist (s.lists a))
    (hasleep : ∀ {d id}, (t.tasks d).sleepTimerEvent = some id → (t.threads.pc d).asleep = true)
    (htaken : ∀ {d tid id}, s.threads.pc d = .removing tid id →
      (t.tasks tid).sleepTimerEvent = none)
    (htakes : ∀ {tid id}, p = .removing tid id → (t.tasks tid).sleepTimerEvent = none)
    (hlisted : ∀ {event}, event ∈ t.lists event.id.cpuid → s.Armed event →
      t.Armed event ∨ p = .removing event.tid event.id)
    (hremoving : ∀ {event}, event ∈ t.lists event.id.cpuid →
      s.threads.pc c ≠ .removing event.tid event.id)
    (hpopped : ∀ {d cpu jiffies event}, d ≠ c →
      s.threads.pc d = .callback cpu jiffies event → event.id.cpuid = cpu →
      s.Armed event → t.Armed event)
    (hpops : ∀ {cpu jiffies event}, p = .callback cpu jiffies event →
      event.id.cpuid = cpu ∧ event.id.id < s.nextId ∧ t.Armed event ∧
        ∀ other ∈ t.lists cpu, other.id ≠ event.id) : t.Inv := by
  refine ⟨hchange.owned hinv.owned, hasleep, ?_, ?_,
    fun a => ((hsub a).map _).nodup (hinv.nodup a), ?_⟩
  · intro d tid id hd
    by_cases h : d = c
    · rw [h, hchange.pc_self] at hd
      exact htakes hd
    · rw [hchange.pc_of_ne h] at hd
      exact htaken hd
  · intro cpu event hevent
    rw [hnext]
    obtain ⟨rfl, hlt, hstate⟩ := hinv.listed ((hsub cpu).subset hevent)
    refine ⟨rfl, hlt, ?_⟩
    rcases hstate with hstate | ⟨d, hd⟩
    · exact (hlisted hevent hstate).imp_right fun hp => ⟨c, hchange.pc_self.trans hp⟩
    refine .inr ⟨d, ?_⟩
    rw [hchange.pc_of_ne, hd]
    rintro rfl
    exact hremoving hevent hd
  intro d cpu jiffies event hd
  rw [hnext]
  by_cases h : d = c
  · rw [h, hchange.pc_self] at hd
    exact hpops hd
  rw [hchange.pc_of_ne h] at hd
  obtain ⟨hcpu, hlt, hstate, hother⟩ := hinv.popped hd
  exact ⟨hcpu, hlt, hpopped h hd hcpu hstate,
    fun other hmem => hother other ((hsub cpu).subset hmem)⟩

lemma Inv.of_armed (hinv : s.Inv) (hchange : s.Change t c p)
    (hlists : t.lists = s.lists) (hnext : t.nextId = s.nextId)
    (hold : (s.threads.pc c).takes = false) (hnew : p.takes = false)
    (harmed : ∀ {event}, s.Armed event → t.Armed event)
    (hasleep : ∀ {d id}, (t.tasks d).sleepTimerEvent = some id → (t.threads.pc d).asleep = true)
    (htaken : ∀ {d tid id}, s.threads.pc d = .removing tid id →
      (t.tasks tid).sleepTimerEvent = none) : t.Inv := by
  refine hinv.of_sublist hchange hnext (fun a => by rw [hlists]) hasleep htaken
    ?_ (fun _ h => .inl (harmed h)) ?_ (fun _ _ _ h => harmed h) ?_
  · rintro _ _ rfl
    cases hnew
  · intro event _ hpc
    rw [hpc] at hold
    cases hold
  · rintro _ _ _ rfl
    cases hnew

lemma Inv.plain (hinv : s.Inv) (hpc : s.threads.pc c = q) (hchange : s.Change t c p)
    (hsleep : ∀ d, (t.tasks d).sleepTimerEvent = (s.tasks d).sleepTimerEvent)
    (hlists : t.lists = s.lists) (hnext : t.nextId = s.nextId)
    (hplain : q.takes = false ∧ p.takes = false ∧ q.arms = false)
    (hawake : q.asleep = true → p.asleep = true ∨ (s.tasks c).sleepTimerEvent = none) : t.Inv := by
  subst hpc
  apply hinv.of_armed hchange hlists hnext hplain.1 hplain.2.1
  · exact fun h => h.of_change hchange (hsleep _) fun _ => hplain.2.2
  · intro d id hd
    rw [hsleep] at hd
    have hasleep := hinv.asleep hd
    by_cases h : d = c
    · subst h
      rw [hchange.pc_self]
      rcases hawake hasleep with hp | hnone
      · exact hp
      · rw [hnone] at hd
        cases hd
    · rw [hchange.pc_of_ne h]
      exact hasleep
  intro d tid id hd
  rw [hsleep]
  exact hinv.taken hd

lemma Inv.release (hinv : s.Inv) (hpc : s.threads.pc c = q)
    (hplain : q.takes = false ∧ p.takes = false ∧ q.arms = false)
    (hawake : q.asleep = true → p.asleep = true ∨ (s.tasks c).sleepTimerEvent = none)
    (howner : q.holds c lock := by simp [holds])
    (hholds : ∀ l, p.holds c l ↔ l ≠ lock ∧ q.holds c l := by rintro (_ | _) <;> simp [holds]) :
    (s.release c lock p).Inv := by
  subst hpc
  exact hinv.plain rfl (.release howner hholds) (fun _ => rfl) rfl rfl hplain hawake

lemma sleepTimerEvent_setTask (s : Sys) (h : task.sleepTimerEvent = (s.tasks tid).sleepTimerEvent)
    (d : Nat) : ((s.setTask tid task).tasks d).sleepTimerEvent = (s.tasks d).sleepTimerEvent := by
  by_cases hd : d = tid
  · subst hd
    simpa [setTask] using h
  · simp [setTask, hd]

section

variable (hinv : s.Inv)

include hinv

lemma Inv.not_asleep (h : (s.threads.pc c).asleep = false) :
    (s.tasks c).sleepTimerEvent = none := by
  cases hsleep : (s.tasks c).sleepTimerEvent with
  | none => rfl
  | some id =>
    rw [hinv.asleep hsleep] at h
    cases h

lemma Inv.pushed (hpc : s.threads.pc c = .pushing id) (hchange : s.Change t c (.armed id))
    (htasks : t.tasks = s.tasks) (hlists : t.lists = s.lists)
    (hnext : t.nextId = s.nextId) : t.Inv := by
  have hnone := hinv.not_asleep (by rw [hpc]; rfl)
  apply hinv.of_armed hchange hlists hnext (by rw [hpc]; rfl) rfl
  · intro event harmed
    by_cases h : event.tid = c
    · unfold Armed at harmed ⊢
      rw [h, hnone, hpc] at harmed
      rcases harmed with harmed | harmed | harmed
      · cases harmed
      · cases harmed
        rw [h, hchange.pc_self]
        exact .inr (.inr rfl)
      · cases harmed
    · exact harmed.of_change hchange (by rw [htasks]) fun heq => absurd heq h
  · intro d other hd
    rw [htasks] at hd
    rw [hchange.pc_of_ne]
    · exact hinv.asleep hd
    rintro rfl
    rw [hnone] at hd
    cases hd
  intro d tid other hd
  rw [htasks]
  exact hinv.taken hd

lemma Inv.armed {inner : Signals.Task} (hpc : s.threads.pc c = .armed id)
    (hchange : s.Change t c .switching) (htasks : t.tasks = update s.tasks c ⟨inner, some id⟩)
    (hlists : t.lists = s.lists) (hnext : t.nextId = s.nextId) : t.Inv := by
  have hnone := hinv.not_asleep (by rw [hpc]; rfl)
  have hother {d : Nat} (hd : d ≠ c) : t.tasks d = s.tasks d := by rw [htasks, update_of_ne hd]
  have hself : (t.tasks c).sleepTimerEvent = some id := by rw [htasks, update_self]
  apply hinv.of_armed hchange hlists hnext (by rw [hpc]; rfl) rfl
  · intro event harmed
    by_cases h : event.tid = c
    · unfold Armed at harmed ⊢
      rw [h, hnone, hpc] at harmed
      rcases harmed with harmed | harmed | harmed
      · cases harmed
      · cases harmed
      cases harmed
      rw [h]
      exact .inl hself
    · exact harmed.of_change hchange (by rw [hother h]) fun heq => absurd heq h
  · intro d other hd
    by_cases h : d = c
    · subst h
      rw [hchange.pc_self]
      rfl
    rw [hother h] at hd
    rw [hchange.pc_of_ne h]
    exact hinv.asleep hd
  intro d tid other hd
  -- Who removes the event of this task owns its lock, and so does the task.
  have hne : tid ≠ c := by
    rintro rfl
    have heq : d = tid := hinv.owned.eq_of_holds (l := .task tid)
      (by simp [lockUse, hd, holds]) (by simp [lockUse, hpc, holds])
    rw [heq, hpc] at hd
    cases hd
  rw [hother hne]
  exact hinv.taken hd

lemma Inv.push (hpc : s.threads.pc c = .adding cpu expire)
    (hchange : s.Change t c (.pushing ⟨cpu, s.nextId⟩)) (htasks : t.tasks = s.tasks)
    (hlists : t.lists = update s.lists cpu (⟨⟨cpu, s.nextId⟩, c, expire⟩ :: s.lists cpu))
    (hnext : t.nextId = s.nextId + 1) : t.Inv := by
  have harms : (s.threads.pc c).arms = false := by rw [hpc]; rfl
  have harmed {event : TimerEvent} (h : s.Armed event) : t.Armed event :=
    h.of_change hchange (by rw [htasks]) fun _ => harms
  have hne {d : Nat} {q : Pc} (hd : t.threads.pc d = q)
      (hq : q ≠ .pushing ⟨cpu, s.nextId⟩) : s.threads.pc d = q := by
    by_cases h : d = c
    · subst h
      rw [hchange.pc_self] at hd
      exact absurd hd.symm hq
    · rw [hchange.pc_of_ne h] at hd
      exact hd
  have hcases {a : Nat} {event : TimerEvent} (h : event ∈ t.lists a) :
      (a = cpu ∧ event = ⟨⟨cpu, s.nextId⟩, c, expire⟩) ∨ event ∈ s.lists a := by
    rw [hlists] at h
    by_cases ha : a = cpu
    · subst ha
      rw [update_self] at h
      rcases mem_cons.mp h with h | h
      · exact .inl ⟨rfl, h⟩
      · exact .inr h
    · rw [update_of_ne ha] at h
      exact .inr h
  have hfresh {a : Nat} {event : TimerEvent} (h : event ∈ s.lists a) :
      event.id.id < s.nextId := (hinv.listed h).2.1
  constructor
  · exact hchange.owned hinv.owned
  · intro d id hd
    rw [htasks] at hd
    have hasleep := hinv.asleep hd
    by_cases h : d = c
    · subst h
      rw [hpc] at hasleep
      cases hasleep
    · rw [hchange.pc_of_ne h]
      exact hasleep
  · intro d tid id hd
    rw [htasks]
    exact hinv.taken (hne hd nofun)
  · intro a event hevent
    rw [hnext]
    rcases hcases hevent with ⟨rfl, rfl⟩ | hevent
    · refine ⟨rfl, Nat.lt_succ_self _, .inl (.inr (.inl ?_))⟩
      exact hchange.pc_self
    obtain ⟨ha, hlt, hstate⟩ := hinv.listed hevent
    refine ⟨ha, Nat.lt_succ_of_lt hlt, ?_⟩
    rcases hstate with hstate | ⟨d, hd⟩
    · exact .inl (harmed hstate)
    refine .inr ⟨d, ?_⟩
    rw [hchange.pc_of_ne, hd]
    rintro rfl
    rw [hpc] at hd
    cases hd
  · intro a
    rw [hlists]
    by_cases ha : a = cpu
    · subst ha
      rw [update_self, map_cons, nodup_cons]
      refine ⟨fun hmem => ?_, hinv.nodup a⟩
      obtain ⟨other, hother, hid⟩ := mem_map.mp hmem
      have hlt := hfresh hother
      rw [hid] at hlt
      exact lt_irrefl _ hlt
    · rw [update_of_ne ha]
      exact hinv.nodup a
  · intro d a jiffies event hd
    obtain ⟨ha, hlt, hstate, hother⟩ := hinv.popped (hne hd nofun)
    rw [hnext]
    refine ⟨ha, Nat.lt_succ_of_lt hlt, harmed hstate, fun other hmem => ?_⟩
    rcases hcases hmem with ⟨rfl, rfl⟩ | hmem
    · intro hid
      rw [← hid] at hlt
      exact lt_irrefl _ hlt
    · exact hother other hmem

lemma Inv.asleep_of_change (hchange : s.Change t c p) (hpc : (s.threads.pc c).asleep = false)
    (hsleep : ∀ d, (t.tasks d).sleepTimerEvent = none ∨
      (t.tasks d).sleepTimerEvent = (s.tasks d).sleepTimerEvent)
    (hd : (t.tasks d).sleepTimerEvent = some id) :
    (t.threads.pc d).asleep = true := by
  rcases hsleep d with hnone | hsame
  · rw [hnone] at hd
    cases hd
  rw [hsame] at hd
  have hasleep := hinv.asleep hd
  rw [hchange.pc_of_ne]
  · exact hasleep
  rintro rfl
  rw [hpc] at hasleep
  cases hasleep

lemma Inv.pop (hpc : s.threads.pc c = .ticking cpu jiffies) (hevent : event ∈ s.lists cpu)
    (hok : ∀ d, s.threads.pc d ≠ .removing event.tid event.id)
    (hchange : s.Change t c (.callback cpu jiffies event)) (htasks : t.tasks = s.tasks)
    (hlists : t.lists = update s.lists cpu ((s.lists cpu).erase event))
    (hnext : t.nextId = s.nextId) : t.Inv := by
  have harmed {other : TimerEvent} (h : s.Armed other) : t.Armed other :=
    h.of_change hchange (by rw [htasks]) fun _ => by rw [hpc]; rfl
  have hsub {a : Nat} : (t.lists a).Sublist (s.lists a) := by
    rw [hlists]
    by_cases ha : a = cpu
    · subst ha
      rw [update_self]
      exact erase_sublist
    · rw [update_of_ne ha]
  refine hinv.of_sublist hchange hnext (fun _ => hsub) ?_ ?_ nofun (fun _ h => .inl (harmed h))
    (by rw [hpc]; nofun) (fun _ _ _ h => harmed h) ?_
  · exact hinv.asleep_of_change hchange (by rw [hpc]; rfl) fun d => .inr (by rw [htasks])
  · intro d tid id hd
    rw [htasks]
    exact hinv.taken hd
  rintro a j popped ⟨⟩
  obtain ⟨ha, hlt, hstate⟩ := hinv.listed hevent
  refine ⟨ha, hlt, harmed (hstate.resolve_right ?_), fun other hother => ?_⟩
  · exact fun ⟨d, hd⟩ => hok d hd
  rw [hlists, update_self] at hother
  obtain ⟨hne, hmem⟩ := (List.Nodup.of_map _ (hinv.nodup cpu)).mem_erase_iff.mp hother
  intro hid
  exact hne (inj_on_of_nodup_map (hinv.nodup cpu) hmem hevent hid)

lemma Inv.sleeps_of_armed (harmed : s.Armed event)
    (hfree : s.threads.owner (.task event.tid) = none) :
    (s.tasks event.tid).sleepTimerEvent = some event.id := by
  have hnot {q : Pc} (hq : q.holds event.tid (.task event.tid)) : s.threads.pc event.tid ≠ q := by
    rintro rfl
    have howner : s.threads.owner (.task event.tid) = some event.tid := (hinv.owned _ _).mpr hq
    rw [hfree] at howner
    cases howner
  rcases harmed with h | h | h
  · exact h
  · exact absurd h (hnot (.inr rfl))
  · exact absurd h (hnot rfl)

lemma Inv.armed_of_take (hfree : s.threads.owner (.task tid) = none)
    (hchange : s.Change t c p) (harms : (s.threads.pc c).arms = false)
    (hother : ∀ d, d ≠ tid → t.tasks d = s.tasks d) (harmed : s.Armed event) :
    t.Armed event ∨ (event.tid = tid ∧ (s.tasks tid).sleepTimerEvent = some event.id) := by
  by_cases h : event.tid = tid
  · subst h
    exact .inr ⟨rfl, hinv.sleeps_of_armed harmed hfree⟩
  · exact .inl (harmed.of_change hchange (by rw [hother _ h]) fun _ => harms)

lemma Inv.callback (hpc : s.threads.pc c = .callback cpu jiffies event)
    (hfree : s.threads.owner (.task event.tid) = none)
    (hchange : s.Change t c (.called cpu jiffies event.tid)) (hnone : task.sleepTimerEvent = none)
    (htasks : t.tasks = update s.tasks event.tid task) (hlists : t.lists = s.lists)
    (hnext : t.nextId = s.nextId) : t.Inv := by
  have hother {d : Nat} (hd : d ≠ event.tid) : t.tasks d = s.tasks d := by
    rw [htasks, update_of_ne hd]
  have hcleared : (t.tasks event.tid).sleepTimerEvent = none := by rw [htasks, update_self, hnone]
  have hsleep (d : Nat) : (t.tasks d).sleepTimerEvent = none ∨
      (t.tasks d).sleepTimerEvent = (s.tasks d).sleepTimerEvent := by
    by_cases hd : d = event.tid
    · exact .inl (hd ▸ hcleared)
    · exact .inr (by rw [hother hd])
  obtain ⟨hcpu, _, harmed, hunlisted⟩ := hinv.popped hpc
  have hid := hinv.sleeps_of_armed harmed hfree
  have hkeeps {e : TimerEvent} (h : s.Armed e) : t.Armed e ∨ e.id = event.id := by
    rcases hinv.armed_of_take hfree hchange (by rw [hpc]; rfl) (fun _ => hother) h with h | ⟨_, h⟩
    · exact .inl h
    · rw [hid, some.injEq] at h
      exact .inr h.symm
  refine hinv.of_sublist hchange hnext (fun a => by rw [hlists]) ?_ ?_ nofun ?_
    (by rw [hpc]; nofun) ?_ nofun
  · exact hinv.asleep_of_change hchange (by rw [hpc]; rfl) hsleep
  · intro d tid id hd
    rcases hsleep tid with h | h
    · exact h
    · rw [h]
      exact hinv.taken hd
  · intro e he hstate
    refine .inl ((hkeeps hstate).resolve_right fun h => ?_)
    rw [hlists, h, hcpu] at he
    exact hunlisted e he h
  intro d a j e hne hd ha hstate
  refine (hkeeps hstate).resolve_right fun h => ?_
  -- Both ticks would own the lock of one list.
  apply hne
  apply hinv.owned.eq_of_holds (l := .list cpu)
  · simp [lockUse, hd, holds, ← hcpu, ← ha, h]
  · simp [lockUse, hpc, holds]

lemma Inv.take (hpc : s.threads.pc c = .send tid flags)
    (hfree : s.threads.owner (.task tid) = none)
    (hid : (s.tasks tid).sleepTimerEvent = some id)
    (hok : ∀ d cpu jiffies event, s.threads.pc d = .callback cpu jiffies event → event.tid = tid →
      event.id ≠ id)
    (hchange : s.Change t c (.removing tid id))
    (hnone : task.sleepTimerEvent = none)
    (htasks : t.tasks = update s.tasks tid task)
    (hlists : t.lists = s.lists) (hnext : t.nextId = s.nextId) : t.Inv := by
  have hother {d : Nat} (hd : d ≠ tid) : t.tasks d = s.tasks d := by rw [htasks, update_of_ne hd]
  have hsleep (d : Nat) : (t.tasks d).sleepTimerEvent = none ∨
      (t.tasks d).sleepTimerEvent = (s.tasks d).sleepTimerEvent := by
    by_cases hd : d = tid
    · subst hd
      exact .inl (by rw [htasks, update_self, hnone])
    · exact .inr (by rw [hother hd])
  have hkeeps {e : TimerEvent} (h : s.Armed e) : t.Armed e ∨ (e.tid = tid ∧ e.id = id) := by
    rcases hinv.armed_of_take hfree hchange (by rw [hpc]; rfl) (fun _ => hother)
      h with h | ⟨htid, h⟩
    · exact .inl h
    · rw [hid, some.injEq] at h
      exact .inr ⟨htid, h.symm⟩
  refine hinv.of_sublist hchange hnext (fun a => by rw [hlists]) ?_ ?_ ?_ ?_
    (by rw [hpc]; nofun) ?_ nofun
  · exact hinv.asleep_of_change hchange (by rw [hpc]; rfl) hsleep
  · intro d tid' id' hd
    rcases hsleep tid' with h | h
    · exact h
    · rw [h]
      exact hinv.taken hd
  · rintro _ _ ⟨⟩
    rw [htasks, update_self, hnone]
  · intro e _ hstate
    refine (hkeeps hstate).imp_right ?_
    rintro ⟨rfl, rfl⟩
    rfl
  · intro d a j e _ hd _ hstate
    exact (hkeeps hstate).resolve_right fun h => hok d a j e hd h.1 h.2

lemma Inv.remove (hpc : s.threads.pc c = .removing tid id)
    (hchange : s.Change t c (.removed tid id)) (htasks : t.tasks = s.tasks)
    (hlists : t.lists = update s.lists id.cpuid ((s.lists id.cpuid).filter (·.id ≠ id)))
    (hnext : t.nextId = s.nextId) : t.Inv := by
  have harmed {event : TimerEvent} (h : s.Armed event) : t.Armed event :=
    h.of_change hchange (by rw [htasks]) fun _ => by rw [hpc]; rfl
  have hsub {a : Nat} : (t.lists a).Sublist (s.lists a) := by
    rw [hlists]
    by_cases ha : a = id.cpuid
    · subst ha
      rw [update_self]
      exact filter_sublist
    · rw [update_of_ne ha]
  refine hinv.of_sublist hchange hnext (fun _ => hsub) ?_ ?_ nofun
    (fun _ h => .inl (harmed h)) ?_ (fun _ _ _ h => harmed h) nofun
  · exact hinv.asleep_of_change hchange (by rw [hpc]; rfl) fun d => .inr (by rw [htasks])
  · intro d tid' id' hd
    rw [htasks]
    exact hinv.taken hd
  intro e he hd
  rw [hpc] at hd
  cases hd
  rw [hlists, update_self] at he
  simpa using (mem_filter.mp he).2

end

/-- The condition on a step.  A signal does not take the event of a sleeping
task that a tick has taken out of the list and waits with for the lock of the
task; and a tick does not take an event that a signal, which owns the lock of
the task, waits to remove from the list. -/
def keepsOrder (s : Sys) : Action → Prop
  | .advance c =>
    ∀ target ∈ (s.threads.pc c).sends, wakesFor (s.tasks target.1) target.2 = true →
      ∀ id ∈ (s.tasks target.1).sleepTimerEvent,
      ∀ d ∈ s.threads.owner (.list id.cpuid), (s.threads.pc d).calls target.1 id = false
  | .pop _ event =>
    ∀ d ∈ s.threads.owner (.task event.tid), s.threads.pc d ≠ .removing event.tid event.id
  | _ => True

lemma Inv.advanceSleep (hinv : s.Inv)
    (hstep : s.advanceSleep c (s.threads.pc c) = some t) : t.Inv := by
  cases hpc : s.threads.pc c with
  | sleep cpu expire =>
    simp only [hpc] at hstep
    obtain ⟨threads, hchange, rfl, _⟩ := acquire_eq_some hpc hstep
    exact hinv.plain hpc hchange (fun _ => rfl) rfl rfl ⟨rfl, rfl, rfl⟩ nofun
  | entered cpu expire =>
    simp only [hpc, Sys.advanceSleep] at hstep
    split at hstep
    · cases hstep
      exact hinv.release hpc ⟨rfl, rfl, rfl⟩ nofun
    cases hstep
    refine hinv.plain hpc (.goto fun l => ?_) (fun _ => rfl) rfl rfl ⟨rfl, rfl, rfl⟩ nofun
    simp [lockUse, hpc, holds]
  | adding cpu expire =>
    simp only [hpc] at hstep
    obtain ⟨u, hu, rfl⟩ := map_eq_some_iff.mp hstep
    obtain ⟨threads, hchange, rfl, _⟩ := acquire_eq_some hpc hu
    exact hinv.push hpc hchange rfl rfl rfl
  | pushing id =>
    simp only [hpc, Sys.advanceSleep, some.injEq] at hstep
    subst hstep
    refine hinv.pushed hpc (.release ?_ fun l => ?_) rfl rfl rfl
    · simp [lockUse, hpc, holds]
    · cases l <;> simp [lockUse, hpc, holds]
  | armed id =>
    simp only [hpc, Sys.advanceSleep, some.injEq] at hstep
    subst hstep
    refine hinv.armed hpc (.goto fun l => ?_) rfl rfl rfl
    simp [lockUse, hpc, holds]
  | switching =>
    simp only [hpc, Sys.advanceSleep, some.injEq] at hstep
    subst hstep
    exact hinv.release hpc ⟨rfl, rfl, rfl⟩ fun _ => .inl rfl
  | parked =>
    simp only [hpc, Sys.advanceSleep] at hstep
    split at hstep
    · cases hstep
      refine hinv.plain hpc (.goto fun l => ?_) (fun _ => rfl)
        rfl rfl ⟨rfl, rfl, rfl⟩ fun _ => .inl rfl
      simp [lockUse, hpc, holds]
    · cases hstep
  | picked =>
    simp only [hpc] at hstep
    obtain ⟨u, hu, rfl⟩ := map_eq_some_iff.mp hstep
    obtain ⟨threads, hchange, rfl, _⟩ := acquire_eq_some hpc hu
    exact hinv.plain hpc hchange (sleepTimerEvent_setTask s rfl) rfl rfl ⟨rfl, rfl, rfl⟩
      fun _ => .inl rfl
  | resumed =>
    simp only [hpc, Sys.advanceSleep] at hstep
    split at hstep
    · rename_i hnone
      cases hstep
      exact hinv.release hpc ⟨rfl, rfl, rfl⟩ fun _ => .inr hnone
    · cases hstep
  | _ =>
    rw [hpc] at hstep
    cases hstep

lemma sleepTimerEvent_wakeSleeper (task : Task) : (wakeSleeper task).sleepTimerEvent = none := by
  unfold wakeSleeper
  split
  · next h => exact h
  · rfl

lemma Inv.advanceTick (hinv : s.Inv)
    (hstep : s.advanceTick c (s.threads.pc c) = some t) : t.Inv := by
  cases hpc : s.threads.pc c with
  | tick cpu jiffies =>
    simp only [hpc] at hstep
    obtain ⟨threads, hchange, rfl, _⟩ := acquire_eq_some hpc hstep
    exact hinv.plain hpc hchange (fun _ => rfl) rfl rfl ⟨rfl, rfl, rfl⟩ nofun
  | ticking cpu jiffies =>
    simp only [hpc, Sys.advanceTick] at hstep
    split at hstep
    · cases hstep
      exact hinv.release hpc ⟨rfl, rfl, rfl⟩ nofun
    · cases hstep
  | callback cpu jiffies event =>
    simp only [hpc] at hstep
    obtain ⟨u, hu, rfl⟩ := map_eq_some_iff.mp hstep
    obtain ⟨threads, hchange, rfl, hfree⟩ := acquire_eq_some hpc hu
    exact hinv.callback hpc hfree hchange (sleepTimerEvent_wakeSleeper _) rfl rfl rfl
  | called cpu jiffies tid =>
    simp only [hpc, Sys.advanceTick, some.injEq] at hstep
    subst hstep
    exact hinv.release hpc ⟨rfl, rfl, rfl⟩ nofun
  | _ =>
    rw [hpc] at hstep
    cases hstep

lemma Inv.advanceSend (hinv : s.Inv) (hok : s.keepsOrder (.advance c))
    (hstep : s.advanceSend c (s.threads.pc c) = some t) : t.Inv := by
  cases hpc : s.threads.pc c with
  | send tid flags =>
    simp only [hpc, Sys.advanceSend] at hstep
    split at hstep
    · rename_i hwakes
      split at hstep
      · rename_i id hid
        obtain ⟨u, hu, rfl⟩ := map_eq_some_iff.mp hstep
        obtain ⟨threads, hchange, rfl, hfree⟩ := acquire_eq_some hpc hu
        refine hinv.take hpc hfree hid ?_ hchange rfl rfl rfl rfl
        intro d cpu jiffies event hd htid heq
        have howner : s.threads.owner (.list id.cpuid) = some d := by
          apply (hinv.owned _ d).mpr
          simp [lockUse, hd, holds, ← (hinv.popped hd).1, heq]
        have hcalls := hok (tid, flags) (by rw [hpc]; rfl) hwakes id hid d howner
        simp [hd, calls, htid, heq] at hcalls
      obtain ⟨u, hu, rfl⟩ := map_eq_some_iff.mp hstep
      obtain ⟨threads, hchange, rfl, _⟩ := acquire_eq_some hpc hu
      exact hinv.plain hpc hchange (sleepTimerEvent_setTask s rfl) rfl rfl ⟨rfl, rfl, rfl⟩ nofun
    · obtain ⟨u, hu, rfl⟩ := map_eq_some_iff.mp hstep
      obtain ⟨threads, hchange, rfl, _⟩ := acquire_eq_some hpc hu
      exact hinv.plain hpc hchange (sleepTimerEvent_setTask s rfl) rfl rfl ⟨rfl, rfl, rfl⟩ nofun
  | removing tid id =>
    simp only [hpc, Sys.advanceSend] at hstep
    obtain ⟨u, hu, rfl⟩ := map_eq_some_iff.mp hstep
    obtain ⟨threads, hchange, rfl, _⟩ := acquire_eq_some hpc hu
    exact hinv.remove hpc hchange rfl rfl rfl
  | waking tid =>
    simp only [hpc, Sys.advanceSend, some.injEq] at hstep
    subst hstep
    refine hinv.plain hpc (.goto fun l => ?_)
      (sleepTimerEvent_setTask s rfl) rfl rfl ⟨rfl, rfl, rfl⟩ nofun
    simp [lockUse, hpc, holds]
  | removed | sent =>
    simp only [hpc, Sys.advanceSend, some.injEq] at hstep
    subst hstep
    exact hinv.release hpc ⟨rfl, rfl, rfl⟩ nofun
  | _ =>
    rw [hpc] at hstep
    cases hstep

lemma Inv.step (hinv : s.Inv) (hok : s.keepsOrder action)
    (hstep : s.step action = some t) : t.Inv := by
  cases action with
  | call c call =>
    obtain ⟨hpc, rfl⟩ := ite_some_none_eq_some.mp hstep
    have hcall : call.pc.takes = false ∧ ∀ l, ¬ call.pc.holds c l := by
      cases call with
      | sendSignal tid flags =>
        by_cases hflags : flags = 0
        · rw [Call.pc, if_pos hflags]
          exact ⟨rfl, fun _ => id⟩
        · rw [Call.pc, if_neg hflags]
          exact ⟨rfl, fun _ => id⟩
      | _ => exact ⟨rfl, nofun⟩
    refine hinv.plain hpc (.goto fun l => ?_) (fun _ => rfl) rfl rfl ⟨rfl, hcall.1, rfl⟩ nofun
    simpa [lockUse, hpc, holds] using hcall.2 l
  | advance c =>
    rcases or_eq_some_iff.mp hstep with hstep | ⟨_, hstep⟩
    · rcases or_eq_some_iff.mp hstep with hstep | ⟨_, hstep⟩
      · exact hinv.advanceSleep hstep
      · exact hinv.advanceTick hstep
    · exact hinv.advanceSend hok hstep
  | pop c event =>
    simp only [Sys.step] at hstep
    split at hstep
    · rename_i cpu jiffies hpc
      obtain ⟨hevent, rfl⟩ := ite_some_none_eq_some.mp hstep
      refine hinv.pop hpc hevent.1 (fun d hd => ?_) (.goto fun l => ?_) rfl rfl rfl
      · have howner : s.threads.owner (.task event.tid) = some d := by
          apply (hinv.owned _ d).mpr
          simp [lockUse, hd, holds]
        exact hok d howner hd
      · simp [lockUse, hpc, holds]
    · cases hstep
  | proceed c inner =>
    obtain ⟨hpc, rfl⟩ := ite_some_none_eq_some.mp hstep
    have hsame : s.Change (s.setTask c { s.tasks c with inner := inner }) c .running := by
      refine ⟨?_, id⟩
      rw [← hpc.1]
      exact (update_eq_self c s.threads.pc).symm
    exact hinv.plain hpc.1 hsame (sleepTimerEvent_setTask s rfl) rfl rfl ⟨rfl, rfl, rfl⟩ nofun

end Sys

namespace Pc

variable {p : Pc}

lemma rank_of_holds_list (hwaits : (p.waits c).isSome)
    (h : p.holds c (.list cpu)) : p.rank = 2 := by
  cases p <;> first | rfl | (cases h; done) | cases hwaits

lemma cases_of_holds_task (hwaits : (p.waits c).isSome) (h : p.holds c (.task tid)) : p.rank = 1 ∧
    ((∃ cpu expire, p = .adding cpu expire ∧ tid = c) ∨ ∃ id, p = .removing tid id) := by
  cases p with
  | adding cpu expire =>
    cases h
    exact ⟨rfl, .inl ⟨cpu, expire, rfl, rfl⟩⟩
  | removing other id =>
    cases h
    exact ⟨rfl, .inr ⟨id, rfl⟩⟩
  | _ => first | (cases h; done) | cases hwaits

lemma rank_of_waits_list (h : p.waits c = some (.list cpu)) : p.rank = 1 := by
  cases p <;> first | rfl | cases h

lemma cases_of_waits_task (h : p.waits c = some (.task tid)) :
    p.rank = 0 ∨ ∃ cpu jiffies event, p = .callback cpu jiffies event ∧ event.tid = tid := by
  cases p with
  | callback cpu jiffies event =>
    cases h
    exact .inr ⟨cpu, jiffies, event, rfl, rfl⟩
  | sleep | picked | send => exact .inl rfl
  | _ => cases h

end Pc

namespace Sys

variable {s : Sys}

lemma Inv.not_waits_of_popped (hinv : s.Inv) (hpc : s.threads.pc c = .callback cpu jiffies event)
    (hholds : (s.threads.pc d).holds d (.task event.tid))
    (hwaits : Threads.Waits lockUse s.threads d) : False := by
  obtain ⟨_, _, harmed, _⟩ := hinv.popped hpc
  rcases (cases_of_holds_task hwaits hholds).2 with ⟨_, _, hd, rfl⟩ | ⟨id, hd⟩
  · -- The task itself adds an event: it neither sleeps nor has added one.
    have hnone := hinv.not_asleep (c := event.tid) (by rw [hd]; rfl)
    rcases harmed with h | h | h
    · rw [hnone] at h
      cases h
    · rw [hd] at h
      cases h
    · rw [hd] at h
      cases h
  have hnone := hinv.taken hd
  have hnot {q : Pc} (hq : q.holds event.tid (.task event.tid)) (hne : q ≠ .removing event.tid id) :
      s.threads.pc event.tid ≠ q := by
    rintro rfl
    have heq : d = event.tid := hinv.owned.eq_of_holds hholds hq
    rw [heq] at hd
    exact hne hd
  rcases harmed with h | h | h
  · rw [hnone] at h
    cases h
  · exact hnot (q := .pushing event.id) (.inr rfl) nofun h
  · exact hnot (q := .armed event.id) rfl nofun h

lemma Inv.rank_lt (hinv : s.Inv) (hedge : Threads.WaitsFor lockUse s.threads c d)
    (hwaits : Threads.Waits lockUse s.threads d) :
    (s.threads.pc c).rank < (s.threads.pc d).rank := by
  obtain ⟨l, hl, howner⟩ := hedge
  have hholds : (s.threads.pc d).holds d l := (hinv.owned l d).mp howner
  cases l with
  | list cpu =>
    rw [rank_of_waits_list hl, rank_of_holds_list hwaits hholds]
    decide
  | task tid =>
    rcases cases_of_waits_task hl with hrank | ⟨cpu, jiffies, event, hpc, rfl⟩
    · rw [hrank, (cases_of_holds_task hwaits hholds).1]
      decide
    · exact (hinv.not_waits_of_popped hpc hholds hwaits).elim

end Sys

/-- In every run in which no tick and no signal meet at the event of a sleeping
task, no threads wait for each other in a cycle. -/
theorem timer_not_deadlocked (s : Sys)
    (hs : machine.ReachableUnder keepsOrder s) : ¬ s.Deadlocked := by
  have hinv : s.Inv := by
    apply hs.invariant
    · rintro s ⟨hpc, hfree, htasks, hlists⟩
      constructor
      · intro l c
        simp [hfree, lockUse, hpc, holds]
      · intro c id hid
        rw [(htasks c).2] at hid
        cases hid
      · intro d tid id hd
        rw [hpc] at hd
        cases hd
      · intro cpu event hevent
        rw [hlists] at hevent
        cases hevent
      · intro cpu
        rw [hlists]
        exact nodup_nil
      intro d cpu jiffies event hd
      rw [hpc] at hd
      cases hd
    · exact fun s action t hinv hok hstep => hinv.step hok hstep
  exact Threads.not_deadlocked_of_rank (fun c => (s.threads.pc c).rank)
    fun _ _ hedge hwaits => hinv.rank_lt hedge hwaits

instance (s : Sys) : (action : Action) → Decidable (s.keepsOrder action)
  | .advance c => inferInstanceAs (Decidable
      (∀ target ∈ (s.threads.pc c).sends, Sys.wakesFor (s.tasks target.1) target.2 = true →
        ∀ id ∈ (s.tasks target.1).sleepTimerEvent,
        ∀ d ∈ s.threads.owner (.list id.cpuid), (s.threads.pc d).calls target.1 id = false))
  | .pop _ event => inferInstanceAs (Decidable
      (∀ d ∈ s.threads.owner (.task event.tid), s.threads.pc d ≠ .removing event.tid event.id))
  | .call _ _ => isTrue trivial
  | .proceed _ _ => isTrue trivial

def Sys.boot : Sys where
  threads := ⟨fun _ => .running, fun _ => none⟩
  tasks _ := ⟨{ Signals.Task.new Signals.Trapframe.zero with state := .running }, none⟩
  lists _ := []
  nextId := 0

lemma Sys.boot_start : machine.start boot :=
  ⟨fun _ => rfl, fun _ => rfl, fun _ => ⟨rfl, rfl⟩, fun _ => rfl⟩

/-- The first task sleeps on the list of CPU 0 until time 10. -/
def sleepTrace : List Action :=
  [.call 1 (.sleep 0 10), .advance 1, .advance 1, .advance 1, .advance 1, .advance 1, .advance 1]

/-- A tick at time 10 wakes it up. -/
theorem expiredTrace_not_deadlocked : ∃ s, machine.runUnder keepsOrder boot (sleepTrace ++
        [.call 2 (.tick 0 10), .advance 2, .pop 2 ⟨⟨0, 0⟩, 1, 10⟩, .advance 2,
          .advance 1, .advance 2, .advance 1, .advance 2, .advance 1]) =
        some s ∧
      s.threads.pc 1 = .running ∧ ¬ s.Deadlocked := by
  have hrun : ∃ s, machine.runUnder keepsOrder boot (sleepTrace ++
      [.call 2 (.tick 0 10), .advance 2, .pop 2 ⟨⟨0, 0⟩, 1, 10⟩, .advance 2,
        .advance 1, .advance 2, .advance 1, .advance 2, .advance 1]) =
      some s ∧ s.threads.pc 1 = .running := ⟨_, rfl, rfl⟩
  obtain ⟨s, hs, hpc⟩ := hrun
  have hboot : machine.ReachableUnder keepsOrder boot := .start boot_start
  exact ⟨s, hs, hpc, timer_not_deadlocked s (hboot.runUnder hs)⟩

/-- The tick has taken the event out of its list when a signal takes it from
the task: the one owns the lock of the list and waits for the lock of the task,
the other owns the lock of the task and waits for the lock of the list. -/
theorem signalledTrace_deadlocked : ¬ ∀ s, machine.Reachable s → ¬ s.Deadlocked := by
  intro h
  have hrun : ∃ s, machine.run boot (sleepTrace ++
      [.call 2 (.tick 0 10), .advance 2, .pop 2 ⟨⟨0, 0⟩, 1, 10⟩,
        .call 3 (.sendSignal 1 Signals.Signal.sigint.toSingalFlags),
        .advance 3]) = some s ∧
      Threads.WaitsFor lockUse s.threads 2 3 ∧
      Threads.WaitsFor lockUse s.threads 3 2 :=
    ⟨_, rfl, ⟨.task 1, rfl, rfl⟩, ⟨.list 0, rfl, rfl⟩⟩
  obtain ⟨s, hs, htick, hsend⟩ := hrun
  have hboot : machine.Reachable boot := .start boot_start
  exact h s (hboot.run hs) ⟨2, .tail (.single htick) hsend⟩

end Redwing.Timer
