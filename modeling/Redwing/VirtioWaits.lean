/-
The device lock and the wait queues of the block driver: who is in a queue, and
what a task that has tested its condition may rely on.
-/
import Redwing.VirtioSteps

namespace Redwing.Virtio
namespace Sys

open Function List

variable {s : Sys} {t : Nat}

/-! ### The device lock -/

/-- Sections of more than one step hold the device lock. -/
structure Locked (s : Sys) : Prop where
  intr : s.intr ≠ .away → s.lock = some .intr
  task : ∀ t, s.tasks t = .signal → s.lock = some (.task t)

namespace Locked

lemma away (h : s.Locked) (hfree : s.lock = none) : s.intr = .away := by
  by_contra hin
  rw [h.intr hin] at hfree
  cases hfree

lemma not_signal (h : s.Locked) (hfree : s.lock = none) (t : Nat) : s.tasks t ≠ .signal := by
  intro hpc
  rw [h.task t hpc] at hfree
  cases hfree

lemma goto {s' : Sys} {p : Pc} (h : s.Locked) (htasks : s'.tasks = update s.tasks t p)
    (hsame : s'.intr = s.intr ∧ s'.lock = s.lock) (hp : p ≠ .signal) : s'.Locked := by
  refine ⟨by rw [hsame.1, hsame.2]; exact h.intr, fun u hu => ?_⟩
  rw [htasks] at hu
  rw [hsame.2]
  by_cases hut : u = t
  · subst hut
    exact absurd ((update_self ..).symm.trans hu) hp
  · exact h.task u ((update_of_ne hut ..).symm.trans hu)

lemma woken (h : s.Locked) [Decidable b]
    (hu : (if b then wake (s.tasks u) else s.tasks u) = .signal) : s.lock = some (.task u) := by
  apply h.task u
  split at hu
  · cases hpc : s.tasks u <;> rw [hpc] at hu <;> first | rfl | cases hu
  · exact hu

lemma step {s' : Sys} {a : Act} (h : s.Locked) (hstep : Step s a s') : s'.Locked := by
  cases hstep with
  | call | alloc | allocFail | sleepAlloc | send | pass | join | sleepBuf =>
    exact h.goto rfl ⟨rfl, rfl⟩ (by simp)
  | @release t c shared hpc hlock _ =>
    refine ⟨fun hin => absurd (h.away hlock) hin, fun u hu => ?_⟩
    by_cases hut : u = t
    · rw [hut]
    · exact absurd ((update_of_ne hut ..).symm.trans hu) (h.not_signal hlock u)
  | @signal t hpc =>
    have hlock := h.task t hpc
    constructor
    · intro hin
      have hintr := hlock.symm.trans (h.intr hin)
      cases hintr
    intro u hu
    by_cases hut : u = t
    · subst hut
      cases (update_self ..).symm.trans hu
    have hwoken : s.lock = some (.task u) := h.woken ((update_of_ne hut ..).symm.trans hu)
    exact absurd (Party.task.inj (Option.some.inj (hwoken.symm.trans hlock))) hut
  | enter _ hlock => exact ⟨fun _ => rfl, fun u hu => absurd hu (h.not_signal hlock u)⟩
  | used hintr _ | notify hintr _ => exact ⟨fun _ => h.intr (by rw [hintr]; simp), h.task⟩
  | leave hintr =>
    have hlock := h.intr (by rw [hintr]; simp)
    refine ⟨fun hin => absurd rfl hin, fun u hu => ?_⟩
    have hwoken : s.lock = some (.task u) := h.woken hu
    cases hwoken.symm.trans hlock
  | notified hintr => exact ⟨fun _ => h.intr (by rw [hintr]; simp), fun u hu => h.woken hu⟩
  | fetch | complete => exact ⟨h.intr, h.task⟩

end Locked

/-! ### The wait queues -/

def TaskOk (s : Sys) (t : Nat) : Pc → Prop
  | .asleepAlloc _ => t ∈ s.allocQueue
  | .join c => s.shared.cond c.idx0 = false ∧ s.condLock c.idx0 = some (.task t)
  | .asleepBuf c =>
    t ∈ s.condQueue c.idx0 ∧ (s.shared.cond c.idx0 = false ∨ s.intr = .notified c.idx0)
  | .release c => s.shared.cond c.idx0 = true
  | _ => True

/-- Who sleeps is in a queue and the other way round.  A condition is true while
its queue is woken up, under the lock of the queue. -/
structure Waits (s : Sys) : Prop where
  task : ∀ t, TaskOk s t (s.tasks t)
  allocQueue : ∀ t ∈ s.allocQueue, ∃ r, s.tasks t = .asleepAlloc r
  condQueue : ∀ h, ∀ t ∈ s.condQueue h, ∃ c, s.tasks t = .asleepBuf c ∧ c.idx0 = h
  notified : ∀ id, s.intr = .notified id → s.shared.cond id = true ∧ s.condLock id = some .intr

/-- The condition of a head with its lock, which is all that tells a task about
its request. -/
def SameAt (s s' : Sys) (head : Nat) : Prop :=
  s'.shared.cond head = s.shared.cond head ∧ s'.condLock head = s.condLock head

lemma TaskOk.frame (h : TaskOk s u pc) (hsame : ∀ c, pc.sent = some c → SameAt s s' c.idx0 ∧
      (u ∈ s.condQueue c.idx0 → u ∈ s'.condQueue c.idx0) ∧
      (s.intr = .notified c.idx0 → s'.intr = .notified c.idx0))
    (halloc : u ∈ s.allocQueue → u ∈ s'.allocQueue) : TaskOk s' u pc := by
  cases pc with
  | asleepAlloc r => exact halloc h
  | join c =>
    obtain ⟨⟨hcond, hlock⟩, -, -⟩ := hsame c rfl
    exact ⟨hcond.trans h.1, hlock.trans h.2⟩
  | asleepBuf c =>
    obtain ⟨⟨hcond, -⟩, hqueue, hintr⟩ := hsame c rfl
    exact ⟨hqueue h.1, h.2.imp hcond.trans hintr⟩
  | release c =>
    obtain ⟨⟨hcond, -⟩, -, -⟩ := hsame c rfl
    exact hcond.trans h
  | idle | alloc r | waitAlloc r | send r c | test c | signal => trivial

namespace Waits

section

variable (h : s.Waits) (hawake : (s.tasks t).awake = true)

include h hawake

lemma not_mem_allocQueue : t ∉ s.allocQueue := by
  intro hmem
  obtain ⟨r, hpc⟩ := h.allocQueue t hmem
  rw [hpc] at hawake
  cases hawake

lemma not_mem_condQueue (head : Nat) : t ∉ s.condQueue head := by
  intro hmem
  obtain ⟨c, hpc, -⟩ := h.condQueue head t hmem
  rw [hpc] at hawake
  cases hawake

lemma move (htasks : s'.tasks = update s.tasks t p) (halloc : s'.allocQueue = s.allocQueue)
    (hqueue : s'.condQueue = s.condQueue) (hintr : s'.intr = s.intr) (hself : TaskOk s' t p)
    (hothers : ∀ u c, u ≠ t → s.sentOf u = some c → SameAt s s' c.idx0)
    (hnotified : ∀ id, s.intr = .notified id → SameAt s s' id) : s'.Waits := by
  constructor
  · intro u
    rw [htasks]
    by_cases hut : u = t
    · subst hut
      rw [update_self]
      exact hself
    rw [update_of_ne hut]
    apply (h.task u).frame
    · intro c hc
      rw [hqueue, hintr]
      exact ⟨hothers u c hut hc, id, id⟩
    · rw [halloc]
      exact id
  · intro u hu
    rw [halloc] at hu
    have hut : u ≠ t := by
      rintro rfl
      exact h.not_mem_allocQueue hawake hu
    rw [htasks, update_of_ne hut]
    exact h.allocQueue u hu
  · intro head u hu
    rw [hqueue] at hu
    have hut : u ≠ t := by
      rintro rfl
      exact h.not_mem_condQueue hawake head hu
    rw [htasks, update_of_ne hut]
    exact h.condQueue head u hu
  · intro id hid
    rw [hintr] at hid
    obtain ⟨hcond, hlock⟩ := hnotified id hid
    rw [hcond, hlock]
    exact h.notified id hid

lemma goto (hself : TaskOk s t p) : (s.goto t p).Waits :=
  h.move hawake rfl rfl rfl rfl hself (fun _ _ _ _ => ⟨rfl, rfl⟩) (fun _ _ => ⟨rfl, rfl⟩)

end

lemma sleepAlloc (h : s.Waits) (hpc : s.tasks t = .waitAlloc r) :
    Waits { s.goto t (.asleepAlloc r) with allocQueue := s.allocQueue ++ [t] } := by
  have hgoto : ∀ u, u ≠ t → (s.goto t (.asleepAlloc r)).tasks u = s.tasks u :=
    fun u hut => update_of_ne hut ..
  have hself : (s.goto t (.asleepAlloc r)).tasks t = .asleepAlloc r := update_self ..
  have hawake : (s.tasks t).awake = true := by rw [hpc]; rfl
  constructor
  · intro u
    by_cases hut : u = t
    · subst hut
      simp only [hself]
      exact mem_append_right _ mem_cons_self
    simp only [hgoto u hut]
    exact (h.task u).frame (fun _ _ => ⟨⟨rfl, rfl⟩, id, id⟩) (mem_append_left _)
  · intro u hu
    by_cases hut : u = t
    · subst hut
      exact ⟨r, hself⟩
    simp only [hgoto u hut]
    rcases mem_append.mp hu with hold | hnew
    · exact h.allocQueue u hold
    · exact absurd (mem_singleton.mp hnew) hut
  · intro head u hu
    have hut : u ≠ t := by
      rintro rfl
      exact h.not_mem_condQueue hawake head hu
    simp only [hgoto u hut]
    exact h.condQueue head u hu
  · exact h.notified

lemma sleepBuf (h : s.Waits) (hown : s.Owns) (hpc : s.tasks t = .join c) :
    Waits { s.goto t (.asleepBuf c) with
      condQueue := update s.condQueue c.idx0 (s.condQueue c.idx0 ++ [t])
      condLock := update s.condLock c.idx0 none } := by
  have hgoto : ∀ u, u ≠ t → (s.goto t (.asleepBuf c)).tasks u = s.tasks u :=
    fun u hut => update_of_ne hut ..
  have hself : (s.goto t (.asleepBuf c)).tasks t = .asleepBuf c := update_self ..
  have hawake : (s.tasks t).awake = true := by rw [hpc]; rfl
  have hchain : s.chainOf t = some c := by rw [chainOf, hpc]; rfl
  have hjoin : TaskOk s t (.join c) := hpc ▸ h.task t
  constructor
  · intro u
    by_cases hut : u = t
    · subst hut
      simp only [hself]
      exact ⟨by simp, .inl hjoin.1⟩
    simp only [hgoto u hut]
    apply (h.task u).frame
    · intro d hd
      have hne : d.idx0 ≠ c.idx0 := hown.head_ne hd hchain hut
      refine ⟨⟨rfl, update_of_ne hne ..⟩, fun hmem => ?_, id⟩
      exact (congrArg (u ∈ ·) (update_of_ne hne ..)).mpr hmem
    · exact id
  · intro u hu
    have hut : u ≠ t := by
      rintro rfl
      exact h.not_mem_allocQueue hawake hu
    simp only [hgoto u hut]
    exact h.allocQueue u hu
  · intro head u hu
    by_cases hut : u = t
    · subst hut
      by_cases hhead : head = c.idx0
      · exact ⟨c, hself, hhead.symm⟩
      · simp only [update_of_ne hhead] at hu
        exact absurd hu (h.not_mem_condQueue hawake head)
    simp only [hgoto u hut]
    by_cases hhead : head = c.idx0
    · subst hhead
      simp only [update_self, mem_append, mem_singleton, hut, or_false] at hu
      exact h.condQueue _ u hu
    · simp only [update_of_ne hhead] at hu
      exact h.condQueue head u hu
  · intro id hid
    obtain ⟨hcond, hlock⟩ := h.notified id hid
    have hne : id ≠ c.idx0 := by
      rintro rfl
      cases hlock.symm.trans hjoin.2
    simp only [update_of_ne hne]
    exact ⟨hcond, hlock⟩

lemma signalAlloc (h : s.Waits) : s.signalAlloc.Waits := by
  have hwoken : ∀ u ∈ s.allocQueue, ∃ r, s.signalAlloc.tasks u = .alloc r := by
    intro u hu
    obtain ⟨r, hpc⟩ := h.allocQueue u hu
    refine ⟨r, ?_⟩
    simp only [Sys.signalAlloc, hu, ↓reduceIte, hpc]
    rfl
  have hsame : ∀ u ∉ s.allocQueue, s.signalAlloc.tasks u = s.tasks u := fun u hu => if_neg hu
  constructor
  · intro u
    by_cases hu : u ∈ s.allocQueue
    · obtain ⟨r, hpc⟩ := hwoken u hu
      rw [hpc]
      trivial
    rw [hsame u hu]
    apply (h.task u).frame
    · exact fun _ _ => ⟨⟨rfl, rfl⟩, id, id⟩
    · exact fun hmem => absurd hmem hu
  · exact fun u hu => absurd hu not_mem_nil
  · intro head u hu
    obtain ⟨c, hpc, hhead⟩ := h.condQueue head u hu
    have hnot : u ∉ s.allocQueue := by
      intro hmem
      obtain ⟨r, hpc'⟩ := h.allocQueue u hmem
      cases hpc.symm.trans hpc'
    exact ⟨c, (hsame u hnot).trans hpc, hhead⟩
  · exact h.notified

lemma setIntr {i : Intr} {lock : Option Party} (h : s.Waits) (hbefore : ∀ id, s.intr ≠ .notified id)
    (hafter : ∀ id, i ≠ .notified id) : Waits { s with intr := i, lock } := by
  refine ⟨fun u => ?_, h.allocQueue, h.condQueue, fun id hid => absurd hid (hafter id)⟩
  exact (h.task u).frame (fun c _ => ⟨⟨rfl, rfl⟩, id, fun hid => absurd hid (hbefore _)⟩) id

/-- The condition is set: a task that has found it false cannot be on its way
into the queue, since it would hold the lock. -/
lemma notify {id : Nat} (h : s.Waits) (hintr : s.intr = .notify id)
    (hfree : s.condLock id = none) :
    Waits { s with
      intr := .notified id
      condLock := update s.condLock id (some .intr)
      shared := { s.shared with
        cond := update s.shared.cond id true } } := by
  constructor
  · intro u
    have hu := h.task u
    cases hpc : s.tasks u with
    | asleepAlloc r =>
      rw [hpc] at hu
      exact hu
    | join c =>
      rw [hpc] at hu
      have hne : c.idx0 ≠ id := by
        intro heq
        have hlock := hu.2
        rw [heq, hfree] at hlock
        cases hlock
      simpa only [TaskOk, update_of_ne hne] using hu
    | asleepBuf c =>
      rw [hpc] at hu
      refine ⟨hu.1, ?_⟩
      by_cases hne : c.idx0 = id
      · exact .inr (congrArg Intr.notified hne.symm)
      rcases hu.2 with hcond | hnotified
      · exact .inl ((update_of_ne hne ..).trans hcond)
      · cases hintr.symm.trans hnotified
    | release c =>
      rw [hpc] at hu
      simp only [TaskOk, update_apply]
      split
      · rfl
      · exact hu
    | idle | alloc r | waitAlloc r | send r c | test c | signal => trivial
  · exact h.allocQueue
  · exact h.condQueue
  · intro id' hid
    cases hid
    simp

lemma signalCond {id : Nat} (h : s.Waits) (hintr : s.intr = .notified id) :
    Waits { s.signalCond id with
      intr := .loop
      condLock := update s.condLock id none
      shared := { s.shared with
        usedIdx := (s.shared.usedIdx + 1) % indexModulus } } := by
  have hwoken : ∀ u ∈ s.condQueue id, ∃ c, (s.signalCond id).tasks u = .test c := by
    intro u hu
    obtain ⟨c, hpc, -⟩ := h.condQueue id u hu
    refine ⟨c, ?_⟩
    simp only [Sys.signalCond, hu, ↓reduceIte, hpc]
    rfl
  have hsame : ∀ u ∉ s.condQueue id, (s.signalCond id).tasks u = s.tasks u := fun u hu => if_neg hu
  have hlock := (h.notified id hintr).2
  constructor
  · intro u
    by_cases hu : u ∈ s.condQueue id
    · obtain ⟨c, hpc⟩ := hwoken u hu
      simp only [hpc]
      trivial
    simp only [hsame u hu]
    have htask := h.task u
    cases hpc : s.tasks u with
    | asleepAlloc | release =>
      rw [hpc] at htask
      exact htask
    | join c =>
      rw [hpc] at htask
      have hne : c.idx0 ≠ id := by
        rintro rfl
        cases hlock.symm.trans htask.2
      exact ⟨htask.1, (update_of_ne hne ..).trans htask.2⟩
    | asleepBuf c =>
      rw [hpc] at htask
      have hne : c.idx0 ≠ id := by
        rintro rfl
        exact hu htask.1
      refine ⟨?_, .inl ?_⟩
      · exact (congrArg (u ∈ ·) (update_of_ne hne ..)).mpr htask.1
      rcases htask.2 with hcond | hnotified
      · exact hcond
      · exact absurd (Intr.notified.inj (hnotified.symm.trans hintr)) hne
    | idle | alloc r | waitAlloc r | send r c | test c | signal => trivial
  · intro u hu
    obtain ⟨r, hpc⟩ := h.allocQueue u hu
    have hnot : u ∉ s.condQueue id := by
      intro hmem
      obtain ⟨c, hpc', -⟩ := h.condQueue id u hmem
      cases hpc.symm.trans hpc'
    exact ⟨r, (hsame u hnot).trans hpc⟩
  · intro head u hu
    by_cases hhead : head = id
    · subst hhead
      have hnil : u ∈ ([] : List Nat) := by simpa only [Sys.signalCond, update_self] using hu
      cases hnil
    have hold : u ∈ s.condQueue head := by simpa only [Sys.signalCond, update_of_ne hhead] using hu
    obtain ⟨c, hpc, heq⟩ := h.condQueue head u hold
    have hnot : u ∉ s.condQueue id := by
      intro hmem
      obtain ⟨c', hpc', heq'⟩ := h.condQueue id u hmem
      cases hpc.symm.trans hpc'
      exact hhead (heq.symm.trans heq')
    exact ⟨c, (hsame u hnot).trans hpc, heq⟩
  · intro id' hid
    cases hid

lemma step {s' : Sys} {a : Act} (h : s.Waits) (hown : s.Owns)
    (hlocked : s.Locked) (hstep : Step s a s') : s'.Waits := by
  cases hstep with
  | call hpc => exact h.goto (by rw [hpc]; rfl) trivial
  | alloc hpc _ _ _ | allocFail hpc _ =>
    exact h.move (by rw [hpc]; rfl) rfl rfl rfl rfl trivial
      (fun _ _ _ _ => ⟨rfl, rfl⟩) (fun _ _ => ⟨rfl, rfl⟩)
  | sleepAlloc hpc => exact h.sleepAlloc hpc
  | @send t r c hpc hlock =>
    have hchain : s.chainOf t = some c := by rw [chainOf, hpc]; rfl
    refine h.move (t := t) (p := .test c) (by rw [hpc]; rfl) rfl rfl rfl rfl trivial ?_ ?_
    · intro u d hut hd
      exact ⟨update_of_ne (hown.head_ne hd hchain hut) .., rfl⟩
    · intro id hid
      cases (hlocked.away hlock).symm.trans hid
  | pass hpc hcond => exact h.goto (by rw [hpc]; rfl) hcond
  | @join t c hpc hcond hfree =>
    have hchain : s.chainOf t = some c := by rw [chainOf, hpc]; rfl
    refine h.move (t := t) (p := .join c) (by rw [hpc]; rfl) rfl rfl rfl rfl ?_ ?_ ?_
    · exact ⟨hcond, update_self ..⟩
    · intro u d hut hd
      exact ⟨rfl, update_of_ne (hown.head_ne hd hchain hut) ..⟩
    intro id hid
    have hne : id ≠ c.idx0 := by
      rintro rfl
      cases hfree.symm.trans (h.notified _ hid).2
    exact ⟨rfl, update_of_ne hne ..⟩
  | sleepBuf hpc => exact h.sleepBuf hown hpc
  | @release t c shared hpc hlock hshared =>
    have hchain : s.chainOf t = some c := by rw [chainOf, hpc]; rfl
    have hsent : s.sentOf t = some c := by rw [sentOf, hpc]; rfl
    obtain ⟨free, desc, hfree, -, -⟩ := Shared.freeChain_spec (hown.owned.valid t c hchain)
      (hown.owned.used hchain) (hown.linked t c hsent)
    cases hshared.symm.trans hfree
    exact h.move (t := t) (p := .signal) (by rw [hpc]; rfl) rfl rfl rfl rfl
      trivial (fun _ _ _ _ => ⟨rfl, rfl⟩) (fun _ _ => ⟨rfl, rfl⟩)
  | @signal t hpc =>
    have hnot : t ∉ s.allocQueue := h.not_mem_allocQueue (by rw [hpc]; rfl)
    have hpc' : s.signalAlloc.tasks t = .signal := (if_neg hnot).trans hpc
    exact h.signalAlloc.move (t := t) (p := .idle) (by rw [hpc']; rfl) rfl rfl
      rfl rfl trivial (fun _ _ _ _ => ⟨rfl, rfl⟩) (fun _ _ => ⟨rfl, rfl⟩)
  | enter hintr _ | used hintr _ => exact h.setIntr (by simp [hintr]) (by simp)
  | leave hintr =>
    exact h.signalAlloc.setIntr (fun id hid => by cases hintr.symm.trans hid) (by simp)
  | notify hintr hfree => exact h.notify hintr hfree
  | notified hintr => exact h.signalCond hintr
  | fetch | complete => exact ⟨h.task, h.allocQueue, h.condQueue, h.notified⟩

end Waits
end Sys
end Redwing.Virtio
