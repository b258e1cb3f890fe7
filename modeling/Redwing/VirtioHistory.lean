/-
The history of the block driver: which requests went through the rings, and
with which status the device completed them.  The rings stay in step until an
index overflows, and the status of a request goes nowhere.
-/
import Redwing.VirtioProtocol

namespace Redwing.Virtio

open Function List Option Sys

/-- What has happened so far: the heads that were sent, read by the device,
returned by it and handled, in order, and the status with which the device has
completed the request of a task.  The code does not keep this. -/
structure History where
  sent : List Nat
  read : List Nat
  returned : List Nat
  handled : List Nat
  outcome : Nat → Option Nat

def History.empty : History := ⟨[], [], [], [], fun _ => none⟩

def Sys.sentHead (s : Sys) (t : Nat) : Option Nat := (s.sentOf t).map Chain.idx0

def History.record (h : History) (s : Sys) (a : Act) : History where
  sent := h.sent ++ s.sends a
  read := h.read ++ s.reads a
  returned := h.returned ++ a.returns
  handled := h.handled ++ s.handles a
  outcome :=
    match a with
    | .call t _ => update h.outcome t none
    | .complete head status => fun t =>
      if s.sentHead t = some head then some status else h.outcome t
    | _ => h.outcome

def logged : Machine (Sys × History) Act where
  start s := s = (boot, .empty)
  step s a := (s.1.step a).map fun s' => (s', s.2.record s.1 a)

lemma Step.of_logged (h : logged.step s a = some s') :
    Step s.1 a s'.1 ∧ s'.2 = s.2.record s.1 a := by
  obtain ⟨next, hnext, rfl⟩ := map_eq_some_iff.mp h
  exact ⟨.of_step hnext, rfl⟩

/-! ### The indices of the rings -/

/-- The increment of an index in a step, `avail.idx += 1` or `used_idx += 1`,
does not fit into a `u16`. -/
def Sys.overflows (s : Sys) : Act → Bool
  | .task t =>
    match s.tasks t with
    | .send _ _ => decide (indexModulus ≤ s.shared.availIdx + 1)
    | _ => false
  | .intr =>
    match s.intr with
    | .notified _ => decide (indexModulus ≤ s.shared.usedIdx + 1)
    | _ => false
  | _ => false

/-- The driver with checked arithmetic: an increment that overflows panics. -/
def checked : Machine (Sys × History) Act where
  start := logged.start
  step s a := if s.1.overflows a then none else logged.step s a

lemma logged_of_checked (h : checked.step s a = some s') : logged.step s a = some s' := by
  unfold checked at h
  dsimp only at h
  split at h
  · cases h
  · exact h

def SendsBelow (s : Sys × History) (a : Act) : Prop :=
  s.1.sends a ≠ [] → s.2.sent.length + 1 < indexModulus

instance (s : Sys × History) (a : Act) : Decidable (SendsBelow s a) :=
  inferInstanceAs (Decidable (_ → _))

/-- The indices count what went through the rings.  The device reads the heads
in the order in which they were sent, and the handler handles those that were
returned in their order, once each and all of them before it ends. -/
structure InStep (s : Sys) (h : History) : Prop where
  availIdx : s.shared.availIdx = h.sent.length % indexModulus
  fetched : s.fetched = h.read.length % indexModulus
  usedRingIdx : s.shared.usedRingIdx = h.returned.length % indexModulus
  usedIdx : s.shared.usedIdx = h.handled.length % indexModulus
  read : h.read <+: h.sent
  next_read : s.fetched ≠ s.shared.availIdx → h.sent[h.read.length]? =
      some (s.shared.availRing (s.fetched % ringSize))
  handled : h.handled <+: h.returned
  next_handled : s.intr = .loop → s.shared.usedRingIdx ≠ s.shared.usedIdx →
    h.returned[h.handled.length]? = some (s.shared.usedRing (s.shared.usedIdx % ringSize))
  current : ∀ id, s.intr = .notify id ∨ s.intr = .notified id →
    h.returned[h.handled.length]? = some id
  all_handled : s.intr = .loop → s.shared.usedRingIdx = s.shared.usedIdx → h.handled = h.returned

/-- The history ends with the entries of the rings that are not taken. -/
structure Follows (s : Sys) (h : History) (avail used : List Nat) : Prop where
  sent : h.sent = h.read ++ avail
  returned : h.returned = h.handled ++ (s.intr.handled ++ used)
  fetched : s.fetched = h.read.length % indexModulus
  usedIdx : s.shared.usedIdx = h.handled.length % indexModulus
  serving : h.read.length = h.returned.length + s.serving.length

namespace Follows

variable {s s' : Sys} {a : Act} {h : History} {avail avail' used' : List Nat}

lemma record (hf : Follows s h avail used) (hp : Passes s a s' avail used avail' used') :
    Follows s' (h.record s a) avail' used' := by
  refine ⟨?_, ?_, ?_, ?_, ?_⟩
  · change h.sent ++ s.sends a = h.read ++ s.reads a ++ avail'
    rw [hf.sent, append_assoc, append_assoc, hp.avail]
  · change h.returned ++ a.returns = h.handled ++ s.handles a ++ _
    rw [hf.returned, append_assoc, append_assoc _ _ (_ ++ used'), hp.used]
  · change _ = (h.read ++ s.reads a).length % indexModulus
    rw [hp.fetched, hf.fetched, Nat.mod_add_mod, length_append]
  · change _ = (h.handled ++ s.handles a).length % indexModulus
    rw [hp.usedIdx, hf.usedIdx, Nat.mod_add_mod, length_append]
  change (h.read ++ s.reads a).length = (h.returned ++ a.returns).length + _
  have hread := hf.serving
  have hserving := hp.serving
  rw [length_append, length_append]
  omega

lemma inStep (hf : Follows s h avail used) (hinv : Inv s)
    (hflow : Flow s avail used) : InStep s h := by
  have hlen := hflow.length_lt hinv.owns hinv.waits
  refine ⟨?_, hf.fetched, ?_, hf.usedIdx, ⟨avail, hf.sent.symm⟩, ?_,
    ⟨_, hf.returned.symm⟩, ?_, ?_, ?_⟩
  · rw [hflow.availRing.last, hf.fetched, Nat.mod_add_mod, hf.sent, length_append]
  · rw [hflow.usedRing.last, hf.usedIdx, Nat.mod_add_mod, hf.returned, ← length_append]
  · intro hne
    cases avail with
    | nil =>
      have heq := (hflow.availRing.eq_iff hflow.fetched_lt hlen.1).mpr rfl
      exact absurd heq.symm hne
    | cons head rest =>
      rw [hf.sent, hflow.availRing.front hflow.fetched_lt,
        getElem?_append_right le_rfl, Nat.sub_self, getElem?_cons_zero]
  · intro hintr hne
    have hfront := hflow.used_front hinv.owns hinv.waits hintr hne
    rw [hf.returned, hintr, getElem?_append_right le_rfl, Nat.sub_self, ← head?_eq_getElem?]
    exact hfront
  · rintro id (hintr | hintr)
    · rw [hf.returned, hintr, getElem?_append_right le_rfl, Nat.sub_self, ← head?_eq_getElem?]
      exact hflow.next id hintr
    · rw [hf.returned, hintr, getElem?_append_right le_rfl, Nat.sub_self]
      rfl
  intro hintr heq
  have hnil := (hflow.usedRing.eq_iff hflow.usedIdx_lt hlen.2).mp heq
  rw [hf.returned, hnil, append_nil]

lemma not_overflows (hf : Follows s h avail used) (hinv : Inv s) (hflow : Flow s avail used)
    (hsent : h.sent.length < indexModulus) (hok : SendsBelow (s, h) a) : s.overflows a = false := by
  have hlen : h.read.length ≤ h.sent.length := by
    rw [hf.sent, length_append]
    exact Nat.le_add_right _ _
  cases a with
  | call | fetch | complete => rfl
  | task t =>
    cases hpc : s.tasks t with
    | send r c =>
      have hbelow := hok (by simp [sends, hpc])
      have hidx := (hf.inStep hinv hflow).availIdx
      rw [Nat.mod_eq_of_lt hsent] at hidx
      simp only [overflows, hpc, hidx, decide_eq_false_iff_not]
      exact not_le.mpr hbelow
    | _ => simp only [overflows, hpc]
  | intr =>
    cases hintr : s.intr with
    | notified id =>
      have hreturned := congrArg length hf.returned
      have hserving := hf.serving
      simp only [hintr, Intr.handled, length_append, length_singleton] at hreturned
      have hidx := hf.usedIdx
      rw [Nat.mod_eq_of_lt (by omega)] at hidx
      simp only [overflows, hintr, hidx, decide_eq_false_iff_not]
      omega
    | _ => simp only [overflows, hintr]

end Follows

lemma Sys.sends_cases (s : Sys) : s.sends a = [] ∨ ∃ head, s.sends a = [head] := by
  unfold sends
  split
  · split
    · exact .inr ⟨_, rfl⟩
    · exact .inl rfl
  · exact .inl rfl

lemma follows_boot : ∃ avail used, Flow boot avail used ∧ Follows boot .empty avail used := by
  obtain ⟨avail, used, hflow⟩ := inv_boot.flow
  have hlen := hflow.length_lt inv_boot.owns inv_boot.waits
  have havail := (hflow.availRing.eq_iff hflow.fetched_lt hlen.1).mp rfl
  have hused := (hflow.usedRing.eq_iff hflow.usedIdx_lt hlen.2).mp rfl
  exact ⟨avail, used, hflow, havail.symm, hused.symm, rfl, rfl, rfl⟩

/-- In a run of the driver with checked arithmetic that sends fewer than 65536
requests, the rings stay in step and no index overflows. -/
theorem rings_in_step (s : Sys) (h : History) (hs : checked.ReachableUnder SendsBelow (s, h)) :
    InStep s h ∧ ∀ a, SendsBelow (s, h) a → s.overflows a = false := by
  have hall : Inv s ∧ h.sent.length < indexModulus ∧
      ∃ avail used, Flow s avail used ∧ Follows s h avail used := by
    refine hs.invariant (P := fun s => Inv s.1 ∧ s.2.sent.length <
      indexModulus ∧ ∃ avail used, Flow s.1 avail used ∧
      Follows s.1 s.2 avail used) ?_ ?_
    · rintro _ rfl
      exact ⟨inv_boot, by decide, follows_boot⟩
    rintro ⟨s, h⟩ a ⟨s', h'⟩ ⟨hinv, hsent, avail, used, hflow, hf⟩ hok hstep
    obtain ⟨hnext, hrecord⟩ := Step.of_logged (logged_of_checked hstep)
    obtain ⟨avail', used', hflow', hpasses⟩ := hflow.step hinv.owns hinv.locked hinv.waits hnext
    simp only at hrecord hsent hnext ⊢
    subst hrecord
    refine ⟨hinv.step hnext, ?_, avail', used', hflow', hf.record hpasses⟩
    simp only [History.record, length_append]
    rcases s.sends_cases with hnone | ⟨head, hone⟩
    · rw [hnone]
      exact hsent
    · rw [hone]
      exact hok (by rw [hone]; exact cons_ne_nil _ _)
  obtain ⟨hinv, hsent, avail, used, hflow, hf⟩ := hall
  exact ⟨hf.inStep hinv hflow, fun a => hf.not_overflows hinv hflow hsent⟩

/-- Two requests are sent and the one sent last is handled. -/
theorem rings_in_step_reordered : ∃ s h,
    checked.ReachableUnder SendsBelow (s, h) ∧ h.sent = [0, 3] ∧ h.handled = [3] ∧ InStep s h := by
  have hrun : ((checked.runUnder SendsBelow (boot, .empty)
      [.call 0 ⟨7, 0, false⟩, .call 1 ⟨9, 1, true⟩, .task 0, .task 1, .task 0,
        .task 1, .fetch, .fetch, .complete 3 0, .intr, .intr, .intr, .intr]).map
        fun s => (s.2.sent, s.2.handled)) = some ([0, 3], [3]) := by
    decide
  obtain ⟨⟨s, h⟩, hs, heq⟩ := map_eq_some_iff.mp hrun
  obtain ⟨hsent, hhandled⟩ := Prod.mk.inj heq
  have hstart : checked.ReachableUnder SendsBelow (boot, .empty) := .start rfl
  have hreach := hstart.runUnder hs
  exact ⟨s, h, hreach, hsent, hhandled, (rings_in_step s h hreach).1⟩

attribute [ext] Shared Sys

def rested (n : Nat) (completed : Nat → Bool) : Sys :=
  { boot with
    shared := { Shared.new with availIdx := n, usedRingIdx := n, usedIdx := n }
    fetched := n
    completed }

def oneRequest : List Act :=
  [.call 0 ⟨0, 0, false⟩, .task 0, .task 0, .fetch, .complete 0 0, .intr, .intr,
    .intr, .intr, .intr, .task 0, .task 0, .task 0]

lemma checked_run_cons (hover : s.overflows a = false) (hstep : s.step a = some s')
    (hrest : (checked.run (s', h.record s a) rest).map Prod.fst = some t) :
    (checked.run (s, h) (a :: rest)).map Prod.fst = some t := by
  have hnext : checked.step (s, h) a = some (s', h.record s a) := by
    simp [checked, logged, hover, hstep]
  rw [Machine.run, hnext]
  exact hrest

lemma step_fetch {s : Sys} {head : Nat} (hne : s.fetched ≠ s.shared.availIdx)
    (hhead : s.shared.availRing (s.fetched % ringSize) = head) :
    s.step .fetch = some { s with
      fetched := (s.fetched + 1) % indexModulus
      serving := s.serving ++ [head] } := by
  rw [← hhead]
  exact if_pos hne

lemma step_used {s : Sys} {id : Nat} (hintr : s.intr = .loop)
    (hne : s.shared.usedRingIdx ≠ s.shared.usedIdx)
    (hid : s.shared.usedRing (s.shared.usedIdx % ringSize) = id)
    (hlt : id < ringSize) : s.step .intr = some { s with intr := .notify id } := by
  simp only [step, stepIntr, hintr, hid]
  rw [if_pos hne, if_pos hlt]

lemma eq_of_three {α : Type} {f g : Nat → α} (h0 : f 0 = g 0) (h1 : f 1 = g 1) (h2 : f 2 = g 2)
    (hrest : ∀ i, f (i + 3) = g (i + 3)) : f = g := by
  funext i
  match i with
  | 0 => exact h0
  | 1 => exact h1
  | 2 => exact h2
  | i + 3 => exact hrest i

lemma oneRequest_run (hn : n + 1 < indexModulus) (completed : Nat → Bool) :
    (checked.run (rested n completed, h) oneRequest).map Prod.fst = some (rested (n + 1)
        (update (update completed 0 false) 0 true)) := by
  have hmod : (n + 1) % indexModulus = n + 1 := Nat.mod_eq_of_lt hn
  have hover : decide (indexModulus ≤ n + 1) = false := decide_eq_false (not_le.mpr hn)
  have hne : n ≠ (n + 1) % indexModulus := by
    rw [hmod]
    omega
  refine checked_run_cons rfl rfl ?_
  refine checked_run_cons rfl rfl ?_
  refine checked_run_cons hover rfl ?_
  refine checked_run_cons rfl (step_fetch hne (update_self ..)) ?_
  refine checked_run_cons rfl rfl ?_
  refine checked_run_cons rfl rfl ?_
  refine checked_run_cons rfl (step_used rfl hne.symm (update_self ..) (by decide)) ?_
  refine checked_run_cons rfl rfl ?_
  refine checked_run_cons hover rfl ?_
  refine checked_run_cons rfl (if_neg (not_not.mpr rfl)) ?_
  refine checked_run_cons rfl rfl ?_
  refine checked_run_cons rfl rfl ?_
  refine checked_run_cons rfl rfl ?_
  refine congrArg some ?_
  refine Sys.ext (Shared.ext ?_ ?_ hmod ?_ hmod hmod ?_ ?_ ?_ ?_) rfl rfl ?_ ?_ ?_ rfl hmod rfl rfl
  case refine_2 | refine_3 => exact update_eq_self (n % ringSize) fun _ => 0
  all_goals exact eq_of_three rfl rfl rfl fun _ => rfl

lemma rested_reachable (n : Nat) (hn : n < indexModulus) :
    ∃ completed h, checked.Reachable (rested n completed, h) := by
  induction n with
  | zero => exact ⟨fun _ => false, .empty, .start rfl⟩
  | succ n ih =>
    obtain ⟨completed, h, hreach⟩ := ih (by omega)
    obtain ⟨⟨s, h'⟩, hrun, hs⟩ := map_eq_some_iff.mp (oneRequest_run hn completed)
    simp only at hs
    exact ⟨_, h', hs ▸ hreach.run hrun⟩

/-- After 65535 requests, the next one overflows the available index. -/
theorem next_request_overflows : ¬ ∀ s h, checked.Reachable (s, h) →
      InStep s h ∧ ∀ a, (s.step a).isSome → s.overflows a = false := by
  intro hall
  obtain ⟨completed, h, hreach⟩ := rested_reachable 65535 (by decide)
  have hrun : ((checked.run (rested 65535 completed, h)
      [.call 0 ⟨0, 0, false⟩, .task 0]).map fun s =>
        (s.1.overflows (.task 0), (s.1.step (.task 0)).isSome)) =
      some (decide (indexModulus ≤ 65535 + 1), true) := rfl
  obtain ⟨⟨s, h'⟩, hs, heq⟩ := map_eq_some_iff.mp hrun
  obtain ⟨hover, hstep⟩ := Prod.mk.inj heq
  have hnot := (hall s h' (hreach.run hs)).2 (.task 0) hstep
  rw [hover] at hnot
  exact absurd hnot (by decide)

/-! ### The status of a request -/

/-- What a task is about to return from `read_block` or `write_block`; these
end with `Ok`, and `disk_rw` has no result. -/
def Sys.result (s : Sys) (t : Nat) : Option (Except String Unit) :=
  if s.tasks t = .signal then some (.ok ()) else none

def Succeeds (_ : Sys × History) : Act → Prop
  | .complete _ status => status = 0
  | _ => True

instance (s : Sys × History) (a : Act) : Decidable (Succeeds s a) := by
  cases a <;> unfold Succeeds <;> infer_instance

lemma Step.sentOf_cases (hstep : Step s a s') :
    (s'.sentOf = s.sentOf ∧ s'.completed = s.completed) ∨
      (∃ t r c, a = .task t ∧ s.tasks t = .send r c ∧ s'.sentOf = update s.sentOf t (some c) ∧
        s'.completed = update s.completed c.idx0 false) ∨
      (∃ t, s'.sentOf = update s.sentOf t none ∧ s'.completed = s.completed) ∨
      ∃ head status, a = .complete head status ∧ s'.sentOf = s.sentOf ∧
        s'.completed = update s.completed head true := by
  cases hstep with
  | call hpc | alloc hpc _ _ _ | allocFail hpc _ | sleepAlloc hpc | pass hpc _
  | join hpc _ _ | sleepBuf hpc => exact .inl ⟨sentOf_goto_same (by rw [hpc]; rfl), rfl⟩
  | @send t r c hpc _ => exact .inr (.inl ⟨t, r, c, rfl, hpc, sentOf_goto s t (.test c), rfl⟩)
  | @release t c shared _ _ _ => exact .inr (.inr (.inl ⟨t, sentOf_goto s t .signal, rfl⟩))
  | @signal t _ =>
    refine .inr (.inr (.inl ⟨t, ?_, rfl⟩))
    rw [← signalAlloc_sentOf s]
    exact sentOf_goto s.signalAlloc t .idle
  | enter | used | notify | fetch => exact .inl ⟨rfl, rfl⟩
  | leave _ => exact .inl ⟨signalAlloc_sentOf s, rfl⟩
  | @notified id _ => exact .inl ⟨signalCond_sentOf s id, rfl⟩
  | @complete head status _ => exact .inr (.inr (.inr ⟨head, status, rfl, rfl, rfl⟩))

lemma Sys.goto_signal {s : Sys} {t u : Nat} {p : Pc}
    (h : (s.goto u p).tasks t = .signal) (hp : p ≠ .signal) : s.tasks t = .signal := by
  by_cases htu : t = u
  · subst htu
    exact absurd ((update_self ..).symm.trans h) hp
  · exact (update_of_ne htu ..).symm.trans h

lemma Sys.wake_signal [Decidable queued]
    (h : (if queued then wake pc else pc) = .signal) : pc = .signal := by
  split at h
  · cases pc <;> first | exact h | cases h
  · exact h

lemma Step.signal_cases (hstep : Step s a s') (hpc' : s'.tasks t = .signal) :
    s.tasks t = .signal ∨ ∃ c, s.tasks t = .release c := by
  cases hstep with
  | call | alloc | allocFail | sleepAlloc | send | pass | join | sleepBuf =>
    exact .inl (goto_signal hpc' nofun)
  | @release u c shared hpc _ _ =>
    by_cases htu : t = u
    · exact .inr ⟨c, htu ▸ hpc⟩
    · exact .inl ((update_of_ne htu ..).symm.trans hpc')
  | signal _ => exact .inl (wake_signal (goto_signal hpc' nofun))
  | enter | used | notify | fetch | complete => exact .inl hpc'
  | leave | notified => exact .inl (wake_signal hpc')

/-- Every request that the device has completed and every call that is about
to return is recorded with the status 0. -/
structure Vouched (s : Sys) (h : History) : Prop where
  completed : ∀ t c, s.sentOf t = some c → s.completed c.idx0 = true → h.outcome t = some 0
  signal : ∀ t, s.tasks t = .signal → h.outcome t = some 0

namespace Vouched

variable {s s' : Sys} {h : History} {a : Act}

lemma keep (hstep : Step s a s') (hok : Succeeds (s, h) a) (hbusy : s.tasks t ≠ .idle)
    (hold : h.outcome t = some 0) : (h.record s a).outcome t = some 0 := by
  cases a with
  | call u r =>
    have htu : t ≠ u := by
      rintro rfl
      cases hstep with
      | call hpc => exact hbusy hpc
    exact (update_of_ne htu ..).trans hold
  | complete head status =>
    have hzero : status = 0 := hok
    simp [History.record, hzero, hold, ite_self]
  | task | intr | fetch => exact hold

lemma step (hv : Vouched s h) (hinv : Inv s) (hok : Succeeds (s, h) a)
    (hstep : Step s a s') : Vouched s' (h.record s a) := by
  have hbusy : ∀ t c, s.sentOf t = some c → s.tasks t ≠ .idle := by
    intro t c hsent hpc
    rw [sentOf, hpc] at hsent
    cases hsent
  constructor
  · intro t c hsent hdone
    rcases hstep.sentOf_cases with ⟨hs, hc⟩ | ⟨u, r, d, rfl, hpc, hs, hc⟩ |
      ⟨u, hs, hc⟩ | ⟨head, status, rfl, hs, hc⟩
    · rw [hs] at hsent
      rw [hc] at hdone
      exact keep hstep hok (hbusy t c hsent) (hv.completed t c hsent hdone)
    · rw [hs] at hsent
      rw [hc] at hdone
      by_cases htu : t = u
      · subst htu
        rw [update_self, some.injEq] at hsent
        rw [hsent, update_self] at hdone
        cases hdone
      rw [update_of_ne htu] at hsent
      have hchain : s.chainOf u = some d := by rw [chainOf, hpc]; rfl
      rw [update_of_ne (hinv.owns.head_ne hsent hchain htu)] at hdone
      exact keep hstep hok (hbusy t c hsent) (hv.completed t c hsent hdone)
    · rw [hs] at hsent
      rw [hc] at hdone
      have htu : t ≠ u := by
        rintro rfl
        rw [update_self] at hsent
        cases hsent
      rw [update_of_ne htu] at hsent
      exact keep hstep hok (hbusy t c hsent) (hv.completed t c hsent hdone)
    rw [hs] at hsent
    rw [hc] at hdone
    by_cases hhead : c.idx0 = head
    · have hzero : status = 0 := hok
      simp [History.record, sentHead, hsent, hhead, hzero]
    · rw [update_of_ne hhead] at hdone
      exact keep hstep hok (hbusy t c hsent) (hv.completed t c hsent hdone)
  · intro t hpc'
    rcases hstep.signal_cases hpc' with hpc | ⟨c, hpc⟩
    · exact keep hstep hok (by simp [hpc]) (hv.signal t hpc)
    have hsent : s.sentOf t = some c := by rw [sentOf, hpc]; rfl
    have hcond := hinv.waits.task t
    rw [hpc] at hcond
    exact keep hstep hok (hbusy t c hsent)
      (hv.completed t c hsent (hinv.completed_of_cond hsent hcond))

end Vouched

/-- While the device completes every request with the status 0, a call returns
`Ok` only if its own request was completed so. -/
theorem ok_of_succeeds (s : Sys) (h : History) (hs : logged.ReachableUnder Succeeds (s, h))
    (t : Nat) (hresult : s.result t = some (.ok ())) : h.outcome t = some 0 := by
  have hall : Inv s ∧ Vouched s h := by
    refine hs.invariant (P := fun s => Inv s.1 ∧ Vouched s.1 s.2) ?_ ?_
    · rintro _ rfl
      exact ⟨inv_boot, ⟨fun _ _ => nofun, fun _ => nofun⟩⟩
    rintro ⟨s, h⟩ a ⟨s', h'⟩ ⟨hinv, hv⟩ hok hstep
    obtain ⟨hnext, hrecord⟩ := Step.of_logged hstep
    simp only at hrecord hnext hv ⊢
    subst hrecord
    exact ⟨hinv.step hnext, hv.step hinv hok hnext⟩
  apply hall.2.signal
  rw [result] at hresult
  split at hresult
  · assumption
  · cases hresult

def oneRead (status : Nat) : List Act :=
  [.call 0 ⟨7, 0, false⟩, .task 0, .task 0, .fetch, .complete 0 status, .intr,
    .intr, .intr, .intr, .intr, .task 0, .task 0]

theorem ok_of_succeeds_read : ∃ s h, logged.ReachableUnder Succeeds (s, h) ∧
    s.result 0 = some (.ok ()) ∧ h.outcome 0 = some 0 := by
  have hrun : ((logged.runUnder Succeeds (boot, .empty) (oneRead 0)).map
      fun s => s.1.tasks 0) = some .signal := by
    decide
  obtain ⟨⟨s, h⟩, hs, hpc⟩ := map_eq_some_iff.mp hrun
  have hstart : logged.ReachableUnder Succeeds (boot, .empty) := .start rfl
  have hreach := hstart.runUnder hs
  have hresult : s.result 0 = some (.ok ()) := if_pos hpc
  exact ⟨s, h, hreach, hresult, ok_of_succeeds s h hreach 0 hresult⟩

/-- A read that the device completes with an error returns `Ok`. -/
theorem ok_after_error : ¬ ∀ s h, logged.Reachable (s, h) →
    ∀ t, s.result t = some (.ok ()) → h.outcome t = some 0 := by
  intro hall
  have hrun : ((logged.run (boot, .empty) (oneRead 1)).map
      fun s => (s.1.tasks 0, s.2.outcome 0)) = some (.signal, some 1) := by
    decide
  obtain ⟨⟨s, h⟩, hs, heq⟩ := map_eq_some_iff.mp hrun
  obtain ⟨hpc, houtcome⟩ := Prod.mk.inj heq
  have hstart : logged.Reachable (boot, .empty) := .start rfl
  have hzero := hall s h (hstart.run hs) 0 (if_pos hpc)
  cases houtcome.symm.trans hzero

end Redwing.Virtio
