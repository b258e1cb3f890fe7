/-
What the steps of the block driver can do, and the invariants that concern one
lock each: the owners of descriptors, the device lock and the wait queues.
-/
import Redwing.VirtioChains

namespace Redwing.Virtio

open Function Option

/-- The steps of the system with what they presuppose. -/
inductive Step (s : Sys) : Act → Sys → Prop
  | call {t : Nat} {r : Request} : s.tasks t = .idle →
      Step s (.call t r) (s.goto t (.alloc r))
  | alloc {t : Nat} {r : Request} {c : Chain} {free : Nat → Bool} :
      s.tasks t = .alloc r → c.Valid →
      (∀ i ∈ c.indices, s.shared.free i = true) →
      (∀ i, free i = false ↔ i ∈ c.indices ∨ s.shared.free i = false) →
      Step s (.task t)
        { s.goto t (.send r c) with shared := { s.shared with free } }
  | allocFail {t : Nat} {r : Request} {desc : Nat → VirtqDesc} :
      s.tasks t = .alloc r →
      (∀ i, s.shared.free i = false → desc i = s.shared.desc i) →
      Step s (.task t)
        { s.goto t (.waitAlloc r) with shared := { s.shared with desc } }
  | sleepAlloc {t : Nat} {r : Request} : s.tasks t = .waitAlloc r →
      Step s (.task t)
        { s.goto t (.asleepAlloc r) with allocQueue := s.allocQueue ++ [t] }
  | send {t : Nat} {r : Request} {c : Chain} : s.tasks t = .send r c →
      s.lock = none → Step s (.task t)
        { s.goto t (.test c) with
          shared := s.shared.sendRwCommand c r
          completed := update s.completed c.idx0 false }
  | pass {t : Nat} {c : Chain} : s.tasks t = .test c →
      s.shared.cond c.idx0 = true → Step s (.task t) (s.goto t (.release c))
  | join {t : Nat} {c : Chain} : s.tasks t = .test c →
      s.shared.cond c.idx0 = false → s.condLock c.idx0 = none →
      Step s (.task t)
        { s.goto t (.join c) with condLock := update s.condLock c.idx0 (some (.task t)) }
  | sleepBuf {t : Nat} {c : Chain} : s.tasks t = .join c →
      Step s (.task t)
        { s.goto t (.asleepBuf c) with
          condQueue := update s.condQueue c.idx0 (s.condQueue c.idx0 ++ [t])
          condLock := update s.condLock c.idx0 none }
  | release {t : Nat} {c : Chain} {shared : Shared} : s.tasks t = .release c →
      s.lock = none → s.shared.freeChain c.idx0 = some shared →
      Step s (.task t) { s.goto t .signal with shared, lock := some (.task t) }
  | signal {t : Nat} : s.tasks t = .signal →
      Step s (.task t) { s.signalAlloc.goto t .idle with lock := none }
  | enter : s.intr = .away → s.lock = none →
      Step s .intr { s with intr := .loop, lock := some .intr }
  | used : s.intr = .loop → s.shared.usedRingIdx ≠ s.shared.usedIdx →
      Step s .intr { s with intr := .notify (s.shared.usedRing (s.shared.usedIdx % ringSize)) }
  | leave : s.intr = .loop → Step s .intr
      { s.signalAlloc with intr := .away, lock := none }
  | notify {id : Nat} : s.intr = .notify id → s.condLock id = none →
      Step s .intr
        { s with
          intr := .notified id
          condLock := update s.condLock id (some .intr)
          shared := { s.shared with cond := update s.shared.cond id true } }
  | notified {id : Nat} : s.intr = .notified id → Step s .intr
      { s.signalCond id with
        intr := .loop
        condLock := update s.condLock id none
        shared := { s.shared with usedIdx := (s.shared.usedIdx + 1) % indexModulus } }
  | fetch : s.fetched ≠ s.shared.availIdx → Step s .fetch
      { s with
        fetched := (s.fetched + 1) % indexModulus
        serving := s.serving ++ [s.shared.availRing (s.fetched % ringSize)] }
  | complete {head status : Nat} : head ∈ s.serving →
      Step s (.complete head status)
        { s with
          serving := s.serving.erase head
          completed := update s.completed head true
          shared := { s.shared with
            status := update s.shared.status head status
            usedRing := update s.shared.usedRing (s.shared.usedRingIdx % ringSize) head
            usedRingIdx := (s.shared.usedRingIdx + 1) % indexModulus } }

lemma Step.of_stepTask (h : s.stepTask t = some s') : Step s (.task t) s' := by
  unfold Sys.stepTask at h
  split at h
  next => cases h
  next => cases h
  next => cases h
  next r hpc =>
    split at h
    · rcases Shared.alloc3Desc_cases s.shared with
        ⟨c, free, heq, hvalid, hfree, hfree'⟩ | ⟨desc, heq, hdesc⟩
      · simp only [heq, map_some, some.injEq] at h
        exact h ▸ .alloc hpc hvalid hfree hfree'
      · simp only [heq, map_some, some.injEq] at h
        exact h ▸ .allocFail hpc hdesc
    · cases h
  next r hpc => cases h; exact .sleepAlloc hpc
  next r c hpc =>
    split at h
    next hlock => cases h; exact .send hpc hlock
    next => cases h
  next c hpc =>
    split at h
    next hcond => cases h; exact .pass hpc hcond
    next hcond =>
      split at h
      next hfree => cases h; exact .join hpc (Bool.eq_false_iff.mpr hcond) hfree
      next => cases h
  next c hpc => cases h; exact .sleepBuf hpc
  next c hpc =>
    split at h
    next hlock =>
      obtain ⟨shared, hfree, rfl⟩ := map_eq_some_iff.mp h
      exact .release hpc hlock hfree
    next => cases h
  next hpc => cases h; exact .signal hpc

lemma Step.of_stepIntr (h : s.stepIntr = some s') : Step s .intr s' := by
  unfold Sys.stepIntr at h
  split at h
  next hintr =>
    split at h
    next hlock => cases h; exact .enter hintr hlock
    next => cases h
  next hintr =>
    split at h
    next hne =>
      dsimp only at h
      split at h
      next => cases h; exact .used hintr hne
      next => cases h
    next => cases h; exact .leave hintr
  next id hintr =>
    split at h
    next hfree => cases h; exact .notify hintr hfree
    next => cases h
  next id hintr => cases h; exact .notified hintr

lemma Step.of_step (h : s.step a = some s') : Step s a s' := by
  cases a with
  | call t r =>
    simp only [Sys.step] at h
    split at h
    next hidle => cases h; exact .call hidle
    next => cases h
  | task t => exact .of_stepTask h
  | intr => exact .of_stepIntr h
  | fetch =>
    simp only [Sys.step] at h
    split at h
    next hne => cases h; exact .fetch hne
    next => cases h
  | complete head status =>
    simp only [Sys.step] at h
    split at h
    next hmem => cases h; exact .complete hmem
    next => cases h

/-! ### Chains of tasks -/

namespace Sys

variable {s : Sys}

lemma chainOf_goto (s : Sys) (t : Nat) (pc : Pc) :
    (s.goto t pc).chainOf = update s.chainOf t pc.chain :=
  funext (apply_update (fun _ => Pc.chain) s.tasks t pc)

lemma sentOf_goto (s : Sys) (t : Nat) (pc : Pc) :
    (s.goto t pc).sentOf = update s.sentOf t pc.sent :=
  funext (apply_update (fun _ => Pc.sent) s.tasks t pc)

lemma chainOf_goto_same (h : (s.tasks t).chain = pc.chain) : (s.goto t pc).chainOf = s.chainOf := by
  rw [chainOf_goto, ← h]
  exact update_eq_self t s.chainOf

lemma sentOf_goto_same (h : (s.tasks t).sent = pc.sent) : (s.goto t pc).sentOf = s.sentOf := by
  rw [sentOf_goto, ← h]
  exact update_eq_self t s.sentOf

lemma wake_chain (pc : Pc) : (wake pc).chain = pc.chain := by cases pc <;> rfl

lemma wake_sent (pc : Pc) : (wake pc).sent = pc.sent := by cases pc <;> rfl

lemma signalAlloc_chainOf (s : Sys) : s.signalAlloc.chainOf = s.chainOf := by
  funext u
  simp only [chainOf, signalAlloc]
  split
  · exact wake_chain _
  · rfl

lemma signalAlloc_sentOf (s : Sys) : s.signalAlloc.sentOf = s.sentOf := by
  funext u
  simp only [sentOf, signalAlloc]
  split
  · exact wake_sent _
  · rfl

lemma signalCond_chainOf (s : Sys) (id : Nat) : (s.signalCond id).chainOf = s.chainOf := by
  funext u
  simp only [chainOf, signalCond]
  split
  · exact wake_chain _
  · rfl

lemma signalCond_sentOf (s : Sys) (id : Nat) : (s.signalCond id).sentOf = s.sentOf := by
  funext u
  simp only [sentOf, signalCond]
  split
  · exact wake_sent _
  · rfl

lemma chainOf_of_sentOf (h : s.sentOf t = some c) : s.chainOf t = some c := Pc.chain_of_sent h

/-! ### Owners -/

/-- Chains are owned, and those submitted are linked. -/
structure Owns (s : Sys) : Prop where
  owned : Owned s.chainOf s.shared.free
  linked : ∀ t c, s.sentOf t = some c → Linked s.shared.desc c

namespace Owns

lemma congr {s' : Sys} (h : s.Owns) (hchain : s'.chainOf = s.chainOf)
    (hsent : s'.sentOf = s.sentOf) (hfree : s'.shared.free = s.shared.free)
    (hdesc : s'.shared.desc = s.shared.desc) : s'.Owns := by
  constructor
  · rw [hchain, hfree]
    exact h.owned
  · rw [hsent, hdesc]
    exact h.linked

lemma goto_same (h : s.Owns) (hchain : (s.tasks t).chain = p.chain)
    (hsent : (s.tasks t).sent = p.sent) : (s.goto t p).Owns :=
  h.congr (chainOf_goto_same hchain) (sentOf_goto_same hsent) rfl rfl

lemma head_ne (h : s.Owns) (hu : s.sentOf u = some d)
    (ht : s.chainOf t = some c) (hne : u ≠ t) : d.idx0 ≠ c.idx0 := by
  intro heq
  exact hne (h.owned.apart u t d c d.idx0 (chainOf_of_sentOf hu) ht d.idx0_mem (heq ▸ c.idx0_mem))

lemma step {s' : Sys} {a : Act} (h : s.Owns) (hstep : Step s a s') : s'.Owns := by
  cases hstep with
  | call hpc | sleepAlloc hpc | pass hpc _ | join hpc _ _ | sleepBuf hpc =>
    exact h.congr (chainOf_goto_same (by rw [hpc]; rfl))
      (sentOf_goto_same (by rw [hpc]; rfl)) rfl rfl
  | @alloc t r c free hpc hvalid hfree hfree' =>
    have hnone : s.chainOf t = none := by rw [chainOf, hpc]; rfl
    have hsent : (s.goto t (.send r c)).sentOf = s.sentOf := sentOf_goto_same (by rw [hpc]; rfl)
    constructor
    · have hchain := chainOf_goto s t (.send r c)
      exact hchain ▸ h.owned.take hnone hvalid hfree hfree'
    · intro u d hu
      exact h.linked u d (hsent ▸ hu)
  | @allocFail t r desc hpc hdesc =>
    have hgoto := h.goto_same (t := t) (p := .waitAlloc r) (by rw [hpc]; rfl) (by rw [hpc]; rfl)
    refine ⟨hgoto.owned, fun u d hu => (hgoto.linked u d hu).congr ?_⟩
    intro i hi
    exact hdesc i (hgoto.owned.used (chainOf_of_sentOf hu) i hi)
  | @send t r c hpc hlock =>
    have hown : s.chainOf t = some c := by rw [chainOf, hpc]; rfl
    have hchain : (s.goto t (.test c)).chainOf = s.chainOf := chainOf_goto_same (by rw [hpc]; rfl)
    refine ⟨hchain ▸ h.owned, fun u d hu => ?_⟩
    by_cases hut : u = t
    · subst hut
      have hdc : d = c := by
        have : (s.goto u (.test c)).sentOf u = some d := hu
        rw [sentOf_goto, update_self] at this
        exact (some.inj this).symm
      subst hdc
      exact Shared.sendRwCommand_linked (h.owned.valid u d hown)
    have hold : s.sentOf u = some d := by
      have : (s.goto t (.test c)).sentOf u = some d := hu
      rwa [sentOf_goto, update_of_ne hut] at this
    refine (h.linked u d hold).congr fun i hi => ?_
    apply Shared.sendRwCommand_desc
    intro hic
    exact hut (h.owned.apart u t d c i (chainOf_of_sentOf hold) hown hi hic)
  | @release t c shared hpc hlock hshared =>
    have hown : s.chainOf t = some c := by rw [chainOf, hpc]; rfl
    have hsent : s.sentOf t = some c := by rw [sentOf, hpc]; rfl
    obtain ⟨free, desc, hfree, hfree', hdesc⟩ := Shared.freeChain_spec
      (h.owned.valid t c hown) (h.owned.used hown) (h.linked t c hsent)
    cases hshared.symm.trans hfree
    constructor
    · have hchain := chainOf_goto s t .signal
      exact hchain ▸ h.owned.drop hown hfree'
    intro u d hu
    have hu' : (s.goto t .signal).sentOf u = some d := hu
    rw [sentOf_goto] at hu'
    have hut : u ≠ t := by
      rintro rfl
      rw [update_self] at hu'
      cases hu'
    rw [update_of_ne hut] at hu'
    refine (h.linked u d hu').congr fun i hi => hdesc i fun hic => ?_
    exact hut (h.owned.apart u t d c i (chainOf_of_sentOf hu') hown hi hic)
  | @signal t hpc =>
    have hsignal : s.signalAlloc.Owns :=
      h.congr (signalAlloc_chainOf s) (signalAlloc_sentOf s) rfl rfl
    have hchain := congrFun (signalAlloc_chainOf s) t
    have hsent := congrFun (signalAlloc_sentOf s) t
    simp only [chainOf, sentOf, hpc] at hchain hsent
    have hgoto := hsignal.goto_same (p := .idle) hchain hsent
    exact ⟨hgoto.owned, hgoto.linked⟩
  | enter | used | notify | fetch | complete => exact ⟨h.owned, h.linked⟩
  | leave _ => exact h.congr (signalAlloc_chainOf s) (signalAlloc_sentOf s) rfl rfl
  | @notified id _ => exact h.congr (signalCond_chainOf s id) (signalCond_sentOf s id) rfl rfl

end Owns
end Sys
end Redwing.Virtio
