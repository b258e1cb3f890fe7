/-
The block protocol as a whole.  In every reachable state requests own disjoint
chains, chains are freed without a panic, and a completion wakes up the task that
submitted the chain.  The wait for free descriptors, on the other hand, can miss
its signal.
-/
import Redwing.VirtioFlow

namespace Redwing.Virtio

open Function List Sys

/-! ### Every reachable state -/

structure Inv (s : Sys) : Prop where
  owns : s.Owns
  locked : s.Locked
  waits : s.Waits
  flow : ∃ avail used, Flow s avail used

lemma inv_boot : Inv boot := by
  constructor
  · refine ⟨⟨?_, ?_, ?_⟩, ?_⟩
    · rintro t c ⟨⟩
    · rintro t u c d i ⟨⟩
    · intro i _
      refine iff_of_false (by rintro ⟨⟩) ?_
      rintro ⟨t, c, ⟨⟩, -⟩
    · rintro t c ⟨⟩
  · exact ⟨fun h => absurd rfl h, by rintro t ⟨⟩⟩
  · refine ⟨fun _ => trivial, ?_, ?_, ?_⟩
    · rintro t ⟨⟩
    · rintro head t ⟨⟩
    · rintro id ⟨⟩
  refine ⟨[], [], .nil (by decide), .nil (by decide), ⟨nodup_nil, ?_⟩, ?_,
    ?_, ?_, by decide, by decide⟩
  · intro head
    refine iff_of_false not_mem_nil ?_
    rintro ⟨⟨⟩, -⟩
  · rintro id ⟨⟩
  · rintro id ⟨⟩
  · rintro t c ⟨⟩

lemma Flow.step (h : Flow s avail used) (hown : s.Owns) (hlocked : s.Locked) (hwaits : s.Waits)
    (hstep : Step s a s') : ∃ avail' used', Flow s' avail' used' ∧
      Passes s a s' avail used avail' used' := by
  cases hstep with
  | @call t r hpc =>
    exact ⟨_, _, h.goto_same (by rw [hpc]; rfl), (append_nil _).symm, (append_nil _).symm,
      (Nat.mod_eq_of_lt h.fetched_lt).symm, (Nat.mod_eq_of_lt h.usedIdx_lt).symm, rfl⟩
  | alloc hpc _ _ _ | allocFail hpc _ | sleepAlloc hpc | pass hpc _
  | join hpc _ _ | sleepBuf hpc =>
    exact h.quiet ⟨rfl, rfl, rfl, rfl, rfl, rfl⟩ ⟨rfl, rfl, rfl⟩ rfl
      (sentOf_goto_same (by rw [hpc]; rfl)) (by simp only [sends, hpc])
  | @send t r c hpc hlock =>
    refine ⟨_, _, h.send hown hlocked hpc hlock, ?_, (append_nil _).symm,
      (Nat.mod_eq_of_lt h.fetched_lt).symm, (Nat.mod_eq_of_lt h.usedIdx_lt).symm, rfl⟩
    simp [sends, reads, hpc]
  | @release t c shared hpc hlock hshared =>
    have hchain : s.chainOf t = some c := by rw [chainOf, hpc]; rfl
    have hsent : s.sentOf t = some c := by rw [sentOf, hpc]; rfl
    obtain ⟨free, desc, hfree, -, -⟩ := Shared.freeChain_spec (hown.owned.valid t c hchain)
      (hown.owned.used hchain) (hown.linked t c hsent)
    cases hshared.symm.trans hfree
    exact ⟨_, _, h.release hlocked hwaits hpc hlock,
      h.passes_task (by simp only [sends, hpc]) rfl rfl rfl rfl⟩
  | @signal t hpc =>
    have hsent := congrFun (signalAlloc_sentOf s) t
    simp only [sentOf, hpc] at hsent
    have hgoto : (s.signalAlloc.goto t .idle).sentOf = s.signalAlloc.sentOf :=
      sentOf_goto_same hsent
    exact h.quiet ⟨rfl, rfl, rfl, rfl, rfl, rfl⟩ ⟨rfl, rfl, rfl⟩ rfl
      (hgoto.trans (signalAlloc_sentOf s)) (by simp only [sends, hpc])
  | enter hintr _ =>
    exact ⟨_, _, h.setIntr (by rw [hintr]; rfl) rfl (by simp),
      h.passes_intr (by rw [hintr]; rfl) rfl rfl rfl rfl⟩
  | used hintr hne =>
    refine ⟨_, _, h.setIntr (by rw [hintr]; rfl) rfl fun id hid => ?_,
      h.passes_intr (by rw [hintr]; rfl) rfl rfl rfl rfl⟩
    rw [h.used_front hown hwaits hintr hne, Intr.notify.inj hid]
  | leave hintr =>
    have hsignal : Flow s.signalAlloc avail used :=
      h.congr ⟨rfl, rfl, rfl, rfl, rfl, rfl⟩ ⟨rfl, rfl, rfl⟩ rfl (signalAlloc_sentOf s)
    have hhandled : s.signalAlloc.intr.handled = [] := congrArg Intr.handled hintr
    exact ⟨_, _, hsignal.setIntr hhandled rfl (by simp), h.passes_intr hhandled rfl rfl rfl rfl⟩
  | notify hintr _ =>
    obtain ⟨rest, hrest, hflow⟩ := h.notify hintr
    exact ⟨avail, rest, hflow, h.passes_intr (by rw [hintr]; rfl) hrest.symm rfl rfl rfl⟩
  | @notified id hintr =>
    refine ⟨_, _, h.notified hintr, (append_nil _).symm, ?_,
      (Nat.mod_eq_of_lt h.fetched_lt).symm, ?_, rfl⟩
    · exact (append_nil _).symm
    · simp [handles, hintr, Intr.handled]
  | fetch hne =>
    obtain ⟨rest, hrest, hflow⟩ := h.fetch hown hwaits (.fetch hne)
    refine ⟨rest, used, hflow, ?_, (append_nil _).symm, rfl,
      (Nat.mod_eq_of_lt h.usedIdx_lt).symm, ?_⟩
    · rw [hrest]
      exact (append_nil _).symm
    · simp only [length_append]
      rfl
  | complete hmem =>
    refine ⟨_, _, h.complete hown hwaits (.complete hmem), (append_nil _).symm, ?_,
      (Nat.mod_eq_of_lt h.fetched_lt).symm, (Nat.mod_eq_of_lt h.usedIdx_lt).symm, ?_⟩
    · exact (append_assoc s.intr.handled used _).symm
    · exact (perm_cons_erase hmem).length_eq.symm

lemma Inv.step (h : Inv s) (hstep : Step s a s') : Inv s' := by
  obtain ⟨avail, used, hflow⟩ := h.flow
  obtain ⟨avail', used', hflow', -⟩ := hflow.step h.owns h.locked h.waits hstep
  exact ⟨h.owns.step hstep, h.locked.step hstep,
    h.waits.step h.owns h.locked hstep, avail', used', hflow'⟩

lemma inv_of_reachable (hs : machine.Reachable s) : Inv s := by
  apply hs.invariant
  · rintro _ rfl
    exact inv_boot
  · intro s a s' h _ hstep
    exact h.step (.of_step hstep)

/-! ### Completions -/

namespace Inv

variable {s : Sys} {c : Chain}

lemma completed_of_cond (h : Inv s) (hsent : s.sentOf t = some c)
    (hcond : s.shared.cond c.idx0 = true) : s.completed c.idx0 = true := by
  obtain ⟨avail, used, hflow⟩ := h.flow
  by_contra hnot
  have hmem := (hflow.completed t c hsent).mp (Bool.eq_false_iff.mpr hnot)
  have hfalse := ((hflow.tracks.mem_iff _).mp (mem_append_left used hmem)).1
  cases hcond.symm.trans hfalse

lemma completed_pending (h : Inv s) (hsent : s.sentOf t = some c)
    (hcompleted : s.completed c.idx0 = true) (hcond : s.shared.cond c.idx0 = false) :
    ∃ i, i < (s.shared.usedRingIdx + indexModulus - s.shared.usedIdx) % indexModulus ∧
      s.shared.usedRing ((s.shared.usedIdx + i) % indexModulus % ringSize) =
        c.idx0 := by
  obtain ⟨avail, used, hflow⟩ := h.flow
  have hnot : c.idx0 ∉ avail ++ s.serving := by
    intro hmem
    cases hcompleted.symm.trans ((hflow.completed t c hsent).mpr hmem)
  have hmem := (hflow.tracks.mem_iff c.idx0).mpr ⟨hcond, t, c, hsent, rfl⟩
  have hused : c.idx0 ∈ s.intr.handled ++ used :=
    mem_append_right _ ((mem_append.mp hmem).resolve_left hnot)
  obtain ⟨i, hi, hget⟩ := mem_iff_getElem.mp hused
  refine ⟨i, ?_, (hflow.usedRing.cell i hi).trans hget⟩
  rw [hflow.usedRing.length_eq (hflow.length_lt h.owns h.waits).2 hflow.usedIdx_lt]
  exact hi

lemma notified_wakes (h : Inv s) {id : Nat} {s' : Sys}
    (hintr : s.intr = .notified id) (hstep : s.step .intr = some s') :
    ∃ t c, s.sentOf t = some c ∧ c.idx0 = id ∧ s.completed id = true ∧
      s'.shared.cond id = true ∧ (∀ d, s'.tasks t ≠ .asleepBuf d) ∧
      ∀ u, u ≠ t → s'.tasks u = s.tasks u := by
  obtain ⟨avail, used, hflow⟩ := h.flow
  obtain ⟨t, c, hsent, hid⟩ := hflow.owner id hintr
  have hcond := (h.waits.notified id hintr).1
  simp only [Sys.step, Sys.stepIntr, hintr, Option.some.injEq] at hstep
  subst hstep
  refine ⟨t, c, hsent, hid, ?_, hcond, ?_, ?_⟩
  · rw [← hid] at hcond ⊢
    exact h.completed_of_cond hsent hcond
  · intro d
    by_cases hmem : t ∈ s.condQueue id
    · simp only [signalCond, hmem, ↓reduceIte]
      cases s.tasks t <;> simp [wake]
    simp only [signalCond, hmem, ↓reduceIte]
    intro hpc
    have hd : d = c := by
      rw [sentOf, hpc] at hsent
      exact Option.some.inj hsent
    have htask := h.waits.task t
    rw [hpc, hd] at htask
    exact hmem (hid ▸ htask.1)
  intro u hut
  refine if_neg fun hmem => ?_
  obtain ⟨d, hpc, hhead⟩ := h.waits.condQueue id u hmem
  have hu : s.sentOf u = some d := by rw [sentOf, hpc]; rfl
  exact h.owns.head_ne hu (chainOf_of_sentOf hsent) hut (hhead.trans hid.symm)

lemma asleepBuf_stays (h : Inv s) (hstep : Step s a s') (hpc : s.tasks t = .asleepBuf c) :
    s'.tasks t = .asleepBuf c ∨ a = .intr ∧ s.intr = .notified c.idx0 := by
  have hgoto : ∀ {u : Nat} {p : Pc}, (s.tasks u).awake = true →
      (s.goto u p).tasks t = .asleepBuf c := by
    intro u p hawake
    have htu : t ≠ u := by
      rintro rfl
      rw [hpc] at hawake
      cases hawake
    exact (update_of_ne htu ..).trans hpc
  have hsignal : s.signalAlloc.tasks t = .asleepBuf c := by
    refine (if_neg fun hmem => ?_).trans hpc
    obtain ⟨r, hpc'⟩ := h.waits.allocQueue t hmem
    cases hpc.symm.trans hpc'
  cases hstep with
  | call hu | alloc hu | allocFail hu | sleepAlloc hu | send hu | pass hu
  | join hu | sleepBuf hu | release hu => exact .inl (hgoto (by rw [hu]; rfl))
  | @signal u hu =>
    have htu : t ≠ u := by
      rintro rfl
      cases hpc.symm.trans hu
    exact .inl ((update_of_ne htu ..).trans hsignal)
  | enter | used | notify | fetch | complete => exact .inl hpc
  | leave _ => exact .inl hsignal
  | @notified id hintr =>
    by_cases hmem : t ∈ s.condQueue id
    · obtain ⟨d, hpc', hid⟩ := h.waits.condQueue id t hmem
      cases hpc.symm.trans hpc'
      exact .inr ⟨rfl, by rw [hid]; exact hintr⟩
    · exact .inl ((if_neg hmem).trans hpc)

lemma freeChain_isSome (h : Inv s) (hpc : s.tasks t = .release c) :
    (s.shared.freeChain c.idx0).isSome := by
  have hchain : s.chainOf t = some c := by rw [chainOf, hpc]; rfl
  have hsent : s.sentOf t = some c := by rw [sentOf, hpc]; rfl
  obtain ⟨free, desc, hfree, -, -⟩ := Shared.freeChain_spec (h.owns.owned.valid t c hchain)
    (h.owns.owned.used hchain) (h.owns.linked t c hsent)
  rw [hfree]
  rfl

lemma used_lt (h : Inv s) (hintr : s.intr = .loop) (hne : s.shared.usedRingIdx ≠ s.shared.usedIdx) :
    s.shared.usedRing (s.shared.usedIdx % ringSize) < ringSize := by
  obtain ⟨avail, used, hflow⟩ := h.flow
  have hhead := hflow.used_front h.owns h.waits hintr hne
  exact hflow.mem_lt h.owns (mem_append_right _ (mem_of_mem_head? hhead))

end Inv

/-- The block protocol, for any number of tasks and any order of completions:
chains in flight are disjoint and are just the descriptors in use; neither
allocation, `free_chain` nor the handler panics; a request is released only after
its completion, which has woken up its task and no other; and a completion that
has not done so yet is in the used ring before the handler, or has its condition
set already. -/
theorem block_protocol (s : Sys) (hs : machine.Reachable s) :
    (∀ t c, s.chainOf t = some c → c.Valid ∧
        ∀ u d, u ≠ t → s.chainOf u = some d → ∀ i ∈ c.indices, i ∉ d.indices) ∧
      (∀ i, i < ringSize → (s.shared.free i = false ↔
        ∃ t c, s.chainOf t = some c ∧ i ∈ c.indices)) ∧
      (∀ t c, s.tasks t = .release c → (s.shared.freeChain c.idx0).isSome) ∧
      s.shared.alloc3Desc.isSome ∧
      (s.intr = .loop → s.shared.usedRingIdx ≠ s.shared.usedIdx →
        s.shared.usedRing (s.shared.usedIdx % ringSize) < ringSize) ∧
      (∀ t c, s.tasks t = .release c → s.completed c.idx0 = true) ∧
      (∀ id s', s.intr = .notified id → s.step .intr = some s' →
        ∃ t c, s.sentOf t = some c ∧ c.idx0 = id ∧ s.completed id = true ∧
          s'.shared.cond id = true ∧ (∀ d, s'.tasks t ≠ .asleepBuf d) ∧
          ∀ u, u ≠ t → s'.tasks u = s.tasks u) ∧
      (∀ a s' t c, s.step a = some s' → s.tasks t = .asleepBuf c →
        s'.tasks t = .asleepBuf c ∨ a = .intr ∧ s.intr = .notified c.idx0) ∧
      ∀ t c, s.sentOf t = some c → s.completed c.idx0 = true → s.shared.cond c.idx0 = true ∧
            (s.tasks t = .asleepBuf c → s.intr = .notified c.idx0) ∨
          ∃ i, i < (s.shared.usedRingIdx + indexModulus - s.shared.usedIdx) % indexModulus ∧
            s.shared.usedRing ((s.shared.usedIdx + i) % indexModulus % ringSize) =
              c.idx0 := by
  have h := inv_of_reachable hs
  refine ⟨?_, h.owns.owned.used_iff, fun t c hpc => h.freeChain_isSome hpc, ?_,
    h.used_lt, ?_, fun id s' hintr hstep => h.notified_wakes hintr hstep,
    fun a s' t c hstep hpc => h.asleepBuf_stays (.of_step hstep) hpc, ?_⟩
  · intro t c ht
    exact ⟨h.owns.owned.valid t c ht, fun u d hne hu i hic hid =>
      hne (h.owns.owned.apart u t d c i hu ht hid hic)⟩
  · rcases Shared.alloc3Desc_cases s.shared with ⟨c, free, heq, -⟩ | ⟨desc, heq, -⟩
    · rw [heq]; rfl
    · rw [heq]; rfl
  · intro t c hpc
    have htask := h.waits.task t
    rw [hpc] at htask
    exact h.completed_of_cond (by rw [sentOf, hpc]; rfl) htask
  intro t c hsent hcompleted
  cases hcond : s.shared.cond c.idx0 with
  | false => exact .inr (h.completed_pending hsent hcompleted hcond)
  | true =>
    refine .inl ⟨rfl, fun hpc => ?_⟩
    have htask := h.waits.task t
    rw [hpc] at htask
    rcases htask.2 with hfalse | hintr
    · cases hcond.symm.trans hfalse
    · exact hintr

/-- Two tasks sleep, the device completes the second request first and the
handler is about to wake up its task. -/
theorem block_protocol_reordered : ∃ s, machine.Reachable s ∧ s.intr = .notified 3 ∧
      s.tasks 0 = .asleepBuf ⟨0, 1, 2⟩ ∧ s.tasks 1 = .asleepBuf ⟨3, 4, 5⟩ ∧
      ∀ s', s.step .intr = some s' →
        ∃ t c, s.sentOf t = some c ∧ c.idx0 = 3 ∧ s.completed 3 = true ∧
          s'.shared.cond 3 = true ∧ (∀ d, s'.tasks t ≠ .asleepBuf d) ∧
          ∀ u, u ≠ t → s'.tasks u = s.tasks u := by
  have hrun : ((machine.run boot
      [.call 0 ⟨7, 0, false⟩, .call 1 ⟨9, 1, true⟩, .task 0, .task 1, .task 1,
        .task 0, .task 0, .task 0, .task 1, .task 1, .fetch, .fetch,
        .complete 3 0, .intr, .intr, .intr]).map
        fun s => (s.intr, s.tasks 0, s.tasks 1)) =
      some (.notified 3, .asleepBuf ⟨0, 1, 2⟩, .asleepBuf ⟨3, 4, 5⟩) := by
    decide
  obtain ⟨s, hs, heq⟩ := Option.map_eq_some_iff.mp hrun
  obtain ⟨hintr, heq⟩ := Prod.mk.inj heq
  obtain ⟨h0, h1⟩ := Prod.mk.inj heq
  have hreach : machine.Reachable s := .run (.start rfl) hs
  exact ⟨s, hreach, hintr, h0, h1, fun s' hstep =>
    (block_protocol s hreach).2.2.2.2.2.2.1 3 s' hintr hstep⟩

/-! ### The wait for descriptors -/

namespace Sys

variable (s : Sys)

def freeCount : Nat := ((List.range ringSize).filter s.shared.free).length

def InFlight : Prop := ∃ t c, s.chainOf t = some c

def SignalPending : Prop := (∃ t, s.tasks t = .signal) ∨ s.intr ≠ .away

/-- A task sleeps though there are descriptors for it, and nobody is going to
wake it up. -/
def Stranded : Prop :=
  (∃ t r, s.tasks t = .asleepAlloc r) ∧ 3 ≤ s.freeCount ∧ ¬s.InFlight ∧ ¬s.SignalPending

def joins : Act → Bool
  | .task t =>
    match s.tasks t with
    | .waitAlloc _ => true
    | _ => false
  | _ => false

/-- A task joins `wait_for_alloc` only if there still are too few descriptors or
somebody is going to wake it up. -/
def JoinsInTime (a : Act) : Prop :=
  s.joins a = true → s.freeCount < 3 ∨ s.InFlight ∨ s.SignalPending

end Sys

lemma Inv.inFlight (h : Inv s) (hfew : s.freeCount < 3) : s.InFlight := by
  by_contra hnone
  have hfree : ∀ i ∈ range ringSize, s.shared.free i = true := by
    intro i hi
    by_contra hused
    obtain ⟨t, c, ht, -⟩ := (h.owns.owned.used_iff i (mem_range.mp hi)).mp
      (Bool.eq_false_iff.mpr hused)
    exact hnone ⟨t, c, ht⟩
  rw [freeCount, filter_eq_self.mpr hfree, length_range] at hfew
  exact absurd hfew (by decide)

lemma Inv.not_inFlight (h : Inv s) (hall : s.freeCount = ringSize) : ¬s.InFlight := by
  rintro ⟨t, c, ht⟩
  have hlt := (h.owns.owned.valid t c ht).lt c.idx0 c.idx0_mem
  have hused := h.owns.owned.used ht c.idx0 c.idx0_mem
  have hlen : ((range ringSize).filter s.shared.free).length =
      (range ringSize).length := hall.trans length_range.symm
  have hfree := length_filter_eq_length_iff.mp hlen c.idx0 (mem_range.mpr hlt)
  cases hused.symm.trans hfree

def Served (s : Sys) : Prop := ∀ t r, s.tasks t = .asleepAlloc r → s.InFlight ∨ s.SignalPending

namespace Served

variable {s s' : Sys}

lemma keep (h : Served s)
    (hasleep : ∀ t r, s'.tasks t = .asleepAlloc r → s.tasks t = .asleepAlloc r)
    (hkeep : s.InFlight ∨ s.SignalPending → s'.InFlight ∨ s'.SignalPending) : Served s' :=
  fun t r hpc => hkeep (h t r (hasleep t r hpc))

lemma goto (h : Served s) (hchain : (s.tasks t).chain = p.chain) (hpc : s.tasks t ≠ .signal)
    (hp : p.awake = true) : Served (s.goto t p) := by
  apply h.keep
  · intro u r hu
    by_cases hut : u = t
    · subst hut
      have hu' : p = .asleepAlloc r := (update_self ..).symm.trans hu
      rw [hu'] at hp
      cases hp
    · exact (update_of_ne hut ..).symm.trans hu
  rintro (⟨u, c, hu⟩ | ⟨u, hu⟩ | hintr)
  · exact .inl ⟨u, c, by rw [chainOf_goto_same hchain]; exact hu⟩
  · have hut : u ≠ t := by
      rintro rfl
      exact hpc hu
    exact .inr (.inl ⟨u, (update_of_ne hut ..).trans hu⟩)
  · exact .inr (.inr hintr)

lemma of_awake (hawake : ∀ t r, s.tasks t ≠ .asleepAlloc r) : Served s :=
  fun t r hpc => absurd hpc (hawake t r)

lemma signalAlloc_awake (hwaits : s.Waits) (t : Nat) (r : Request) :
    s.signalAlloc.tasks t ≠ .asleepAlloc r := by
  intro hpc
  have htask := hwaits.signalAlloc.task t
  rw [hpc] at htask
  exact not_mem_nil htask

lemma step (h : Served s) (hinv : Inv s) (hok : s.JoinsInTime a)
    (hstep : Step s a s') : Served s' := by
  cases hstep with
  | call hpc | pass hpc => exact h.goto (by rw [hpc]; rfl) (by rw [hpc]; simp) rfl
  | @alloc t r c free hpc _ _ _ =>
    have hself : (s.goto t (.send r c)).tasks t = .send r c := update_self ..
    exact fun _ _ _ => .inl ⟨t, c, congrArg Pc.chain hself⟩
  | @allocFail t r desc hpc _ =>
    exact h.goto (t := t) (p := .waitAlloc r) (by rw [hpc]; rfl) (by rw [hpc]; simp) rfl
  | @sleepAlloc t r hpc =>
    have hsome : s.InFlight ∨ s.SignalPending := by
      have hjoins : s.joins (.task t) = true := by simp [joins, hpc]
      rcases hok hjoins with hfew | hsome
      · exact .inl (hinv.inFlight hfew)
      · exact hsome
    intro _ _ _
    rcases hsome with ⟨u, c, hu⟩ | ⟨u, hu⟩ | hintr
    · have hchain : (s.goto t (.asleepAlloc r)).chainOf = s.chainOf :=
        chainOf_goto_same (by rw [hpc]; rfl)
      exact .inl ⟨u, c, (congrFun hchain u).trans hu⟩
    · have hut : u ≠ t := by
        rintro rfl
        cases hpc.symm.trans hu
      exact .inr (.inl ⟨u, (update_of_ne hut ..).trans hu⟩)
    · exact .inr (.inr hintr)
  | @send t r c hpc _ =>
    exact h.goto (t := t) (p := .test c) (by rw [hpc]; rfl) (by rw [hpc]; simp) rfl
  | @join t c hpc _ _ =>
    exact h.goto (t := t) (p := .join c) (by rw [hpc]; rfl) (by rw [hpc]; simp) rfl
  | @sleepBuf t c hpc =>
    have hself : (s.goto t (.asleepBuf c)).tasks t = .asleepBuf c := update_self ..
    exact fun _ _ _ => .inl ⟨t, c, congrArg Pc.chain hself⟩
  | @release t c shared hpc _ _ =>
    intro u r _
    exact .inr (.inl ⟨t, update_self ..⟩)
  | @signal t hpc =>
    apply of_awake
    intro u r hu
    by_cases hut : u = t
    · subst hut
      cases (update_self ..).symm.trans hu
    · exact signalAlloc_awake hinv.waits u r ((update_of_ne hut ..).symm.trans hu)
  | enter | used | notify | notified => exact fun _ _ _ => .inr (.inr (by simp))
  | leave _ => exact of_awake (signalAlloc_awake hinv.waits)
  | fetch | complete => exact h

end Served

/-- In a run in which every task joins `wait_for_alloc` in time, none is
stranded there. -/
theorem requests_never_stranded (s : Sys)
    (hs : machine.ReachableUnder Sys.JoinsInTime s) : ¬s.Stranded := by
  have hserved : Inv s ∧ Served s := by
    apply hs.invariant
    · rintro _ rfl
      exact ⟨inv_boot, by rintro t r ⟨⟩⟩
    rintro s a s' ⟨hinv, hserved⟩ hok hstep
    have hstep' := Step.of_step hstep
    exact ⟨hinv.step hstep', hserved.step hinv hok hstep'⟩
  rintro ⟨⟨t, r, hpc⟩, -, hnone, hnobody⟩
  rcases hserved.2 t r hpc with hflight | hpending
  · exact hnone hflight
  · exact hnobody hpending

/-- A third task sleeps while two requests have six of the eight descriptors;
the first of them has freed its chain and is about to wake it up. -/
theorem requests_never_stranded_third : ∃ s, machine.ReachableUnder Sys.JoinsInTime s ∧
      s.tasks 2 = .asleepAlloc ⟨2, 2, false⟩ ∧ s.freeCount = 5 ∧
      ¬s.Stranded := by
  have hrun : ((machine.runUnder (fun s a => s.joins a = true → s.freeCount < 3) boot
      [.call 0 ⟨0, 0, false⟩, .call 1 ⟨1, 1, false⟩, .task 0, .task 1,
        .call 2 ⟨2, 2, false⟩, .task 2, .task 2, .task 0, .fetch, .complete 0 0,
        .intr, .intr, .intr, .intr, .intr, .task 2, .task 2, .task 0,
        .task 0]).map
        fun s => (s.tasks 2, s.freeCount)) =
      some (.asleepAlloc ⟨2, 2, false⟩, 5) := by
    decide
  obtain ⟨s, hs, heq⟩ := Option.map_eq_some_iff.mp hrun
  obtain ⟨hpc, hcount⟩ := Prod.mk.inj heq
  have hstart : machine.ReachableUnder
      (fun s a => s.joins a = true → s.freeCount < 3) boot := .start rfl
  have hreach : machine.ReachableUnder Sys.JoinsInTime s := by
    apply (hstart.runUnder hs).mono
    intro s a hok hjoins
    exact .inl (hok hjoins)
  exact ⟨s, hreach, hpc, hcount, requests_never_stranded s hreach⟩

/-- Both requests end, and signal, between the failed allocation of the third
task and its sleep. -/
theorem request_stranded : ∃ s, machine.Reachable s ∧ s.Stranded := by
  have hrun : ((machine.run boot
      [.call 0 ⟨0, 0, false⟩, .call 1 ⟨1, 1, false⟩, .call 2 ⟨2, 2, false⟩,
        .task 0, .task 1, .task 2, .task 0, .task 1, .fetch, .fetch,
        .complete 0 0, .complete 3 0, .intr, .intr, .intr, .intr, .intr, .intr,
        .intr, .intr, .task 0, .task 0, .task 0, .task 1, .task 1, .task 1,
        .task 2]).map
        fun s => (s.tasks 2, s.freeCount, s.lock)) =
      some (.asleepAlloc ⟨2, 2, false⟩, 8, none) := by
    decide
  obtain ⟨s, hs, heq⟩ := Option.map_eq_some_iff.mp hrun
  obtain ⟨hpc, heq⟩ := Prod.mk.inj heq
  obtain ⟨hcount, hlock⟩ := Prod.mk.inj heq
  have hreach : machine.Reachable s := .run (.start rfl) hs
  have hinv := inv_of_reachable hreach
  refine ⟨s, hreach, ⟨2, _, hpc⟩, by rw [hcount]; decide, ?_, ?_⟩
  · exact hinv.not_inFlight hcount
  rintro (⟨t, ht⟩ | hintr)
  · exact hinv.locked.not_signal hlock t ht
  · exact hintr (hinv.locked.away hlock)

end Redwing.Virtio
