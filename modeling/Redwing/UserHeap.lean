/-
The heap of a user program: `LibAlloc::alloc` of `rw_ulib/src/heap.rs` over the
`brk` of the kernel.  The loop extends the heap and does not try again.
-/
import Redwing.VmBrk
import Mathlib.Logic.Function.Iterate

namespace Redwing.UserHeap

open Vm

/-- The bytes of one extension. -/
@[irreducible] def increment : Nat := 4096 * 32

/-- What the code uses of `linked_list_allocator`. -/
structure LinkedListAllocator (L H : Type) where
  alloc : L → H → Option (Nat × H)
  extend : Nat → H → H

variable (src : PageSource) (refused : Refusals)

/-- `sbrk`; `none` is a panic of the kernel. -/
def sbrk (by_ : Nat) (a : AddrSpace) : Option (AddrSpace × Except SysError Nat) :=
  match brk src refused 0 a with
  | none => none
  | some (a, .error e) => some (a, .error e)
  | some (a, .ok oldPtr) =>
    match brk src refused (oldPtr + by_) a with
    | none => none
    | some (a, .error e) => some (a, .error e)
    | some (a, .ok _) => some (a, .ok oldPtr)

variable {L H : Type} (A : LinkedListAllocator L H)

/-- The loop of `alloc` with a null `ptr`, which no round assigns again. -/
def extendLoop : Nat → H → AddrSpace → Option (Option Nat × H × AddrSpace)
  | 0, _, _ => none
  | fuel + 1, heap, a =>
    match sbrk src refused increment a with
    | none => none
    | some (a, .error _) => some (none, heap, a)
    | some (a, .ok _) => extendLoop fuel (A.extend increment heap) a

/-- `LibAlloc::alloc`; the address `none` is the null pointer. -/
def alloc (fuel : Nat) (layout : L) (heap : H) (a : AddrSpace) :
    Option (Option Nat × H × AddrSpace) :=
  match A.alloc layout heap with
  | some (ptr, heap) => some (some ptr, heap, a)
  | none => extendLoop src refused A fuel heap a

/-- The kernel grants `n` more extensions. -/
def Grants (a : AddrSpace) (n : Nat) : Prop :=
  userBaseVaddr + a.vm.userSpaceSize + n * increment ≤ userEndVaddr

def grow (a : AddrSpace) : AddrSpace := a.setSize (a.vm.userSpaceSize + increment)

lemma grants_grow (a : AddrSpace) (n : Nat) : Grants (grow a) n ↔ Grants a (n + 1) := by
  simp only [Grants, grow, AddrSpace.setSize, Nat.add_mul]
  omega

lemma sbrk_refused {a : AddrSpace} (h : ¬ Grants a 1) :
    sbrk src refused increment a = some (a, .error SysErrorKind.invalidArgument.err) := by
  rw [Grants, Nat.one_mul] at h
  simp only [sbrk, brk, ↓reduceIte]
  rw [if_neg (by simp [userBaseVaddr]), if_pos (by omega)]

/-- The growth is lazy, so it takes no page. -/
lemma sbrk_granted {a : AddrSpace} (h : Grants a 1) : sbrk src refused increment a =
    some (grow a, .ok (userBaseVaddr + a.vm.userSpaceSize)) := by
  have hround : ∀ n, (pgRoundUp n).val = (n + 4095) / 4096 * 4096 := fun _ => rfl
  have hnew : userBaseVaddr + a.vm.userSpaceSize + increment - userBaseVaddr =
      a.vm.userSpaceSize + increment := by omega
  have hinc : increment = 131072 := by rw [increment]
  simp only [Grants, userBaseVaddr, userEndVaddr] at h
  have halloc : uvalloc src refused (a.vm.userSpaceSize + increment) .withRw true a =
      some (grow a, .ok ()) := by
    simp only [uvalloc, hround, userEndVaddr]
    rw [if_neg (by omega), if_neg (by omega), if_pos (by omega)]
    rfl
  simp only [sbrk, brk, ↓reduceIte, hnew, halloc]
  rw [if_neg (by simp [userBaseVaddr]), if_neg (by rw [userBaseVaddr, userEndVaddr]; omega)]

/-- The loop extends the heap and the break in step until the kernel refuses;
`k` bounds the extensions that are left. -/
lemma extendLoop_ends {k : Nat} {a : AddrSpace} (hk : ¬ Grants a k) (heap : H) :
    ∃ n, ¬ Grants (grow^[n] a) 1 ∧ ∀ fuel, n < fuel → extendLoop src refused A fuel heap a =
      some (none, (A.extend increment)^[n] heap, grow^[n] a) := by
  induction k generalizing heap a with
  | zero =>
    have hnone : ¬ Grants a 1 := by
      simp only [Grants] at hk ⊢
      omega
    refine ⟨0, by simpa using hnone, fun fuel hfuel => ?_⟩
    obtain ⟨fuel, rfl⟩ := Nat.exists_eq_add_one.mpr hfuel
    rw [extendLoop, sbrk_refused src refused hnone]
    rfl
  | succ k ih =>
    by_cases hone : Grants a 1
    · obtain ⟨n, hlast, hrun⟩ := ih (mt (grants_grow a k).mp hk) (A.extend increment heap)
      refine ⟨n + 1, by simpa using hlast, fun fuel hfuel => ?_⟩
      obtain ⟨fuel, rfl⟩ := Nat.exists_eq_add_one.mpr (Nat.zero_lt_of_lt hfuel)
      rw [extendLoop, sbrk_granted src refused hone]
      exact hrun fuel (Nat.lt_of_succ_lt_succ hfuel)
    · refine ⟨0, by simpa using hone, fun fuel hfuel => ?_⟩
      obtain ⟨fuel, rfl⟩ := Nat.exists_eq_add_one.mpr hfuel
      rw [extendLoop, sbrk_refused src refused hone]
      rfl

/-- `alloc` ends after finitely many extensions.  Its block is that of the first
attempt; without one it returns null when the kernel refuses an extension,
whatever was granted before.  So it returns a block whenever extensions that the
kernel grants would make room, just when the first attempt succeeds or none
would. -/
theorem alloc_non_null_iff (layout : L) (heap : H) (a : AddrSpace) :
    ∃ n, ∀ fuel, n < fuel → ∃ ptr heap' a',
      alloc src refused A fuel layout heap a = some (ptr, heap', a') ∧
      (ptr.isSome ↔ (A.alloc layout heap).isSome) ∧
      (((∃ k, Grants a k ∧ (A.alloc layout ((A.extend increment)^[k] heap)).isSome) →
          ptr.isSome) ↔ (A.alloc layout heap).isSome ∨
        ∀ k, Grants a k → A.alloc layout ((A.extend increment)^[k] heap) = none) ∧
      (ptr = none → heap' = (A.extend increment)^[n] heap ∧ a' = grow^[n] a ∧
        ∃ e, sbrk src refused increment a' = some (a', .error e)) := by
  obtain ⟨n, hlast, hrun⟩ := extendLoop_ends src refused A (k := userEndVaddr + 1) (a := a) (by
    simp only [Grants, increment]
    omega) heap
  refine ⟨n, fun fuel hfuel => ?_⟩
  cases hfirst : A.alloc layout heap with
  | some block => exact ⟨some block.1, _, _, by rw [alloc, hfirst], by simp, by simp, nofun⟩
  | none =>
    refine ⟨none, _, _, by rw [alloc, hfirst]; exact hrun fuel hfuel, by simp, by simp,
      fun _ => ?_⟩
    exact ⟨rfl, rfl, _, sbrk_refused src refused hlast⟩

/-- A heap that knows only how many bytes are free. -/
def freeBytes : LinkedListAllocator Nat Nat where
  alloc size free := if size ≤ free then some (free, free - size) else none
  extend := Nat.add

/-- An address space that the kernel lets grow twice. -/
def nearlyFull : AddrSpace where
  vm := { pgTable := ⟨0, fun _ _ => .zero⟩, userSpaceSize := 0x3FFC0000, areaList := [] }
  heap := ⟨[], 0, fun _ _ => 0, false⟩

/-- One extension holds the 16 bytes; `alloc` takes two and returns null. -/
theorem alloc_null_with_room : (freeBytes.alloc 16 (freeBytes.extend increment 0)).isSome ∧
    (alloc nextPage granting freeBytes 3 16 0 nearlyFull).map (fun out => (out.1, out.2.1)) =
      some (none, 2 * increment) := by
  decide +kernel

end Redwing.UserHeap
