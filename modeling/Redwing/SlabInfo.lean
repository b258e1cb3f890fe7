/-
`SlabAllocator::info` while objects are allocated and freed.  The number of
active objects is taken under the locks; the lengths of the array caches are
subtracted from it later, one CPU after the other and without a lock.
-/
import Redwing.SlabConservation
import Mathlib.Algebra.BigOperators.Intervals

namespace Redwing.Slab

/-- Where a call of `info` is: before its locked section, about to read the
length of the cache of CPU `i`, at its end, or in a subtraction that
underflows. -/
inductive InfoPc
  | start
  | reading (i activeObjs : Nat)
  | done (activeObjs : Nat)
  | underflow
deriving DecidableEq

namespace InfoPc

/-- A subtraction of unsigned numbers, and where the call goes on. -/
def subtract (a b : Nat) (next : Nat → InfoPc) : InfoPc :=
  if b ≤ a then next (a - b) else .underflow

def next (s : State) : InfoPc → Option InfoPc
  | .start => some (subtract s.memCache.activeObjs s.sharedArrayCache.len (.reading 0))
  | .reading i activeObjs =>
    if i < maxNcpu then some (subtract activeObjs (s.perCpuArrayCache i).len (.reading (i + 1)))
    else some (.done activeObjs)
  | .done _ | .underflow => none

def isReading : InfoPc → Bool
  | .reading _ _ => true
  | _ => false

end InfoPc

structure InfoSys where
  slab : State
  pc : InfoPc

inductive InfoAction
  | call (action : Action)
  | info
deriving DecidableEq

namespace InfoSys

def step (s : InfoSys) : InfoAction → Option InfoSys
  | .call action => (s.slab.step maxNcpu action).map fun slab => { s with slab }
  | .info => (s.pc.next s.slab).map fun pc => { s with pc }

def takesLocal (s : State) : Action → Prop
  | .allocateObj cpu _ => (s.perCpuArrayCache cpu).list ≠ []
  | .deallocateObj _ _ => False

/-- The buddy allocator returns fresh blocks, and while `info` reads the
lengths no call puts objects into an array cache. -/
def fillsNoCache (s : InfoSys) : InfoAction → Prop
  | .call action => s.slab.freshBlocks action ∧
    (s.pc.isReading = true → takesLocal s.slab action)
  | .info => True

instance (s : State) (action : Action) : Decidable (takesLocal s action) :=
  match action with
  | .allocateObj _ _ => inferInstanceAs (Decidable (_ ≠ _))
  | .deallocateObj _ _ => inferInstanceAs (Decidable False)

instance (s : InfoSys) (action : InfoAction) : Decidable (s.fillsNoCache action) :=
  match action with
  | .call _ => inferInstanceAs (Decidable (_ ∧ (_ → _)))
  | .info => inferInstanceAs (Decidable True)

def Covered (s : State) : InfoPc → Prop
  | .reading i activeObjs => ∑ c ∈ Finset.Ico i maxNcpu, (s.perCpuArrayCache c).len ≤ activeObjs
  | .start | .done _ => True
  | .underflow => False

variable {s t : State} {pc pc' : InfoPc}

lemma covered_subtract (hle : b ≤ a)
    (hrest : ∑ c ∈ Finset.Ico i maxNcpu, (s.perCpuArrayCache c).len ≤ a - b) :
    Covered s (InfoPc.subtract a b (.reading i)) := by
  rw [InfoPc.subtract, if_pos hle]
  exact hrest

lemma Covered.next (h : Covered s pc) (hinv : s.Inv maxNcpu)
    (hnext : pc.next s = some pc') : Covered s pc' := by
  cases pc with
  | start =>
    cases hnext
    have hlocal : ∑ c ∈ Finset.Ico 0 maxNcpu, (s.perCpuArrayCache c).len =
        ∑ c ∈ Finset.range maxNcpu, (s.perCpuArrayCache c).list.length := by
      rw [Finset.range_eq_Ico]
      exact Finset.sum_congr rfl fun c hc => hinv.local_ok c (Finset.mem_Ico.mp hc).2
    have hshared : s.sharedArrayCache.len = s.sharedArrayCache.list.length := hinv.shared_ok
    have hactive := hinv.active
    rw [State.outsideLen] at hactive
    apply covered_subtract
    · omega
    · omega
  | reading i activeObjs =>
    rw [InfoPc.next] at hnext
    split at hnext
    · rename_i hi
      cases hnext
      rw [Covered, Finset.sum_eq_sum_Ico_succ_bot hi] at h
      apply covered_subtract
      · omega
      · omega
    · cases hnext
      trivial
  | done | underflow => cases hnext

lemma len_le_of_takesLocal (hinv : s.Inv maxNcpu)
    (htakes : takesLocal s action) (hstep : s.step maxNcpu action = some t)
    (c : Nat) : (t.perCpuArrayCache c).len ≤ (s.perCpuArrayCache c).len := by
  cases action with
  | deallocateObj => exact htakes.elim
  | allocateObj cpu blocks =>
    simp only [State.step, hinv.running, Bool.false_eq_true, if_false,
      Option.ite_none_right_eq_some, Option.some.injEq] at hstep
    obtain ⟨-, rfl⟩ := hstep
    obtain ⟨obj, rest, hlist⟩ := List.exists_cons_of_ne_nil htakes
    have hrun : s.allocateObj cpu blocks = some ((s.setLocal cpu
        { s.perCpuArrayCache cpu with list := rest, len := (s.perCpuArrayCache cpu).len - 1 }).hold
        (some obj)) := by
      simp [State.allocateObj, ArrayCache.fetchObj, hlist]
    rw [State.orPanic, hrun]
    by_cases hc : c = cpu
    · subst hc
      simp [State.hold, State.setLocal]
    · simp [State.hold, State.setLocal, hc]

lemma Covered.takesLocal (h : Covered s pc) (hinv : s.Inv maxNcpu)
    (hstep : s.step maxNcpu action = some t)
    (htakes : pc.isReading = true → InfoSys.takesLocal s action) : Covered t pc := by
  cases pc with
  | reading i activeObjs =>
    have hlen := len_le_of_takesLocal hinv (htakes rfl) hstep
    exact (Finset.sum_le_sum fun c _ => hlen c).trans h
  | start | done | underflow => exact h

end InfoSys

def infoMachine (objectSize align : Nat) : Machine InfoSys InfoAction where
  start s := State.new objectSize align = some s.slab ∧ s.pc = .start
  step := InfoSys.step

/-- No subtraction of `info` underflows if no array cache is filled up while
`info` reads their lengths. -/
theorem info_never_underflows (objectSize align : Nat) {s : InfoSys}
    (hs : (infoMachine objectSize align).ReachableUnder InfoSys.fillsNoCache s) :
    s.pc ≠ .underflow := by
  have hinv : s.slab.Inv maxNcpu ∧ InfoSys.Covered s.slab s.pc := by
    refine hs.invariant (P := fun s => s.slab.Inv maxNcpu ∧ InfoSys.Covered s.slab s.pc) ?_ ?_
    · rintro s ⟨hnew, hpc⟩
      rw [hpc]
      exact ⟨State.inv_new hnew maxNcpu, trivial⟩
    · rintro s (action | _) t ⟨hslab, hcovered⟩ hok hstep
      · obtain ⟨slab, hslabStep, rfl⟩ := Option.map_eq_some_iff.mp hstep
        exact ⟨hslab.step hok.1 hslabStep, hcovered.takesLocal hslab hslabStep hok.2⟩
      · obtain ⟨pc, hnext, rfl⟩ := Option.map_eq_some_iff.mp hstep
        exact ⟨hslab, hcovered.next hslab hnext⟩
  intro hpc
  rw [hpc] at hinv
  exact hinv.2

def infoStart : InfoSys := ⟨handedStart, .start⟩

/-- CPU 1 takes an object, and a second one from its cache while the lengths
are read. -/
def quietTrace : List InfoAction :=
  [.call (.allocateObj 1 [0x80000000]), .info, .call (.allocateObj 1 []), .info, .info]

theorem info_never_underflows_quietTrace :
    ∃ s, (infoMachine 1024 8).runUnder InfoSys.fillsNoCache infoStart
        quietTrace = some s ∧ s.pc = .reading 2 2 ∧ s.pc ≠ .underflow := by
  obtain ⟨s, hrun, hpc⟩ := Option.map_eq_some_iff.mp
    (show ((infoMachine 1024 8).runUnder InfoSys.fillsNoCache infoStart
      quietTrace).map InfoSys.pc = some (.reading 2 2) by decide +kernel)
  exact ⟨s, hrun, hpc, info_never_underflows 1024 8
    (Machine.ReachableUnder.runUnder (.start ⟨rfl, rfl⟩) hrun)⟩

/-- CPU 1 fills its cache after the locked section of an `info` on CPU 0. -/
def refillTrace : List InfoAction := [.info, .call (.allocateObj 1 [0x80000000]), .info, .info]

theorem refillTrace_underflows : ∃ s, (infoMachine 1024 8).Reachable s ∧ s.pc = .underflow := by
  obtain ⟨s, hrun, hpc⟩ := Option.map_eq_some_iff.mp
    (show ((infoMachine 1024 8).run infoStart refillTrace).map InfoSys.pc =
      some .underflow by decide +kernel)
  exact ⟨s, Machine.Reachable.run (.start ⟨rfl, rfl⟩) hrun, hpc⟩

end Redwing.Slab
