/-
The buddy allocator below the page caches, over any sequence of requests: it
turns a request down only when no free block is large enough, and once all
blocks are given back only blocks of the largest order are left.
-/
import Redwing.BuddySpec
import Redwing.Machine

namespace Redwing.Buddy

open AlignedBlocks Allocator Option Finset

namespace Allocator

variable {b : Allocator} {cached : Nat → Prop}

lemma exists_mem_of_freeCover_pos (hpos : 0 < b.freeCover x) :
    ∃ k < maxOrder, ∃ a ∈ (b.freeArea k).list, cell pgsize k a x = 1 := by
  by_contra hnone
  have hzero : b.freeCover x = 0 := by
    refine sum_eq_zero fun k hk => Nat.eq_zero_of_not_pos fun hk' => ?_
    obtain ⟨a, ha, hcell⟩ := exists_mem_of_coverage_pos hk'
    exact hnone ⟨k, mem_range.mp hk, a, ha, hcell⟩
  omega

lemma Wf.order_unique (h : Wf cached b) (hi : i < maxOrder) (hj : j < maxOrder)
    (ha : a ∈ (b.freeArea i).list) (hc : c ∈ (b.freeArea j).list) (hx : cell pgsize i a x = 1)
    (hx' : cell pgsize j c x = 1) : i = j := by
  by_contra hne
  have hpair : coverage pgsize i (b.freeArea i).list x +
      coverage pgsize j (b.freeArea j).list x ≤ b.freeCover x := by
    rw [freeCover, ← sum_pair hne (f := fun k => coverage pgsize k (b.freeArea k).list x)]
    refine sum_le_sum_of_subset ?_
    intro k hk
    rw [mem_insert, mem_singleton] at hk
    rcases hk with rfl | rfl
    · exact mem_range.mpr hi
    · exact mem_range.mpr hj
  have hai := cell_le_coverage ha pgsize i x
  have hcj := cell_le_coverage hc pgsize j x
  have honce := h.once x
  omega

lemma Coalesced.maximal (hb : Coalesced b) (h : Wf cached b)
    (hfree : ∀ x, b.freeCover x = if b.startAddress ≤ x ∧
      x < b.startAddress + n * blockSize (maxOrder - 1) then 1 else 0) :
    ∀ k, k + 1 < maxOrder → (b.freeArea k).list = [] := by
  intro k
  induction k using Nat.strong_induction_on with
  | _ k ih =>
    intro hk
    have hk' : k < maxOrder := by omega
    by_contra hne
    obtain ⟨a, rest, hcons⟩ := List.exists_cons_of_ne_nil hne
    have ha : a ∈ (b.freeArea k).list := by simp [hcons]
    have haligned := h.aligned k hk' a ha
    obtain ⟨lo, hlo, -, -, hbuddy, hhalves⟩ := exists_parent haligned
    have hfresh := hb k hk a ha
    generalize getBuddyAddr b.startAddress a k = buddy at *
    have hlo_a : cell pgsize (k + 1) lo a = 1 := by
      have hle := cell_le_one pgsize (k + 1) lo a
      have hself := cell_self (by decide : 0 < pgsize) k a
      have hsum := hhalves a
      omega
    have hself := cell_self (by decide : 0 < pgsize) k buddy
    have hlo_buddy : cell pgsize (k + 1) lo buddy = 1 := by
      have hle := cell_le_one pgsize (k + 1) lo buddy
      have hsum := hhalves buddy
      omega
    -- The buddy is inside the range, so some free block covers it.
    have ha_free := cell_le_freeCover hk' ha a
    have ha_range : a < b.startAddress + n * blockSize (maxOrder - 1) := by
      rw [cell_self (by decide) k a, hfree] at ha_free
      split at ha_free <;> omega
    have hbuddy_range := hlo.lt_of_meets (by decide) (by omega) hlo_a hlo_buddy ha_range
    have hpos : 0 < b.freeCover buddy := by
      rw [hfree, if_pos ⟨hbuddy.1, hbuddy_range⟩]
      decide
    obtain ⟨j, hj, c, hc, hcell⟩ := exists_mem_of_freeCover_pos hpos
    have hcaligned := h.aligned j hj c hc
    rcases Nat.lt_trichotomy j k with hlt | rfl | hgt
    · rw [ih j hlt (by omega)] at hc
      simp at hc
    · have hback := hcaligned.nested (by decide) (le_refl _) hbuddy hcell
        hself (cell_self (by decide) _ _)
      rw [cell_eq_one_iff] at hcell hback
      have heq : c = buddy := by omega
      exact hfresh (heq ▸ hc)
    have hca := hlo.nested (by decide) hgt hcaligned hlo_buddy hcell hlo_a
    have heq := h.order_unique hk' hj ha hc (cell_self (by decide) _ _) hca
    omega

end Allocator

/-! ## Sequences of requests -/

/-- The allocator with the blocks that are in use, as order and address. -/
structure Direct where
  b : Allocator
  blocks : List (Nat × Nat)

namespace Direct

inductive Call where
  | alloc (order : Nat)
  | free (order addr : Nat)
deriving DecidableEq

def step (s : Direct) : Call → Option Direct
  | .alloc order => do
      let (result, b) ← s.b.allocByOrder order
      match result with
      | none => some { s with b := b }
      | some addr => some ⟨b, (order, addr) :: s.blocks⟩
  | .free order addr => do
      if (order, addr) ∈ s.blocks then
        let b ← s.b.freeByOrder addr order
        some ⟨b, s.blocks.erase (order, addr)⟩
      else none

def machine (base n : Nat) : Machine Direct Call where
  start := fun s => init base (base + n * blockSize (maxOrder - 1)) = some s.b ∧ s.blocks = []
  step := step

def freeAll : List (Nat × Nat) → Allocator → Option Allocator
  | [], b => some b
  | (order, addr) :: rest, b => do
      let b ← b.freeByOrder addr order
      freeAll rest b

/-- The free blocks and the blocks in use tile the range, and no buddies are
free. -/
structure Inv (base n : Nat) (s : Direct) : Prop where
  ok : Ok (fun _ => False) s.b
  coalesced : Coalesced s.b
  start : s.b.startAddress = base
  tiled : ∀ x, s.b.freeCover x + mixedCoverage pgsize s.blocks x =
    if base ≤ x ∧ x < base + n * blockSize (maxOrder - 1) then 1 else 0
  aligned : ∀ block ∈ s.blocks, block.1 < maxOrder ∧ Aligned pgsize base block.1 block.2

section

variable {order : Nat} {s : Direct} {b : Allocator}

lemma Inv.perm (h : Inv base n s) {blocks : List (Nat × Nat)}
    (hperm : blocks.Perm s.blocks) : Inv base n ⟨s.b, blocks⟩ := by
  refine ⟨h.ok, h.coalesced, h.start, fun x => ?_, fun block hblock => ?_⟩
  · have hsum := (hperm.map fun block => cell pgsize block.1 block.2 x).sum_eq
    rw [← h.tiled x]
    exact congrArg (s.b.freeCover x + ·) hsum
  · exact h.aligned block (hperm.mem_iff.mp hblock)

lemma Inv.alloc (h : Inv base n s) (horder : order < maxOrder) :
    ∃ result b', s.b.allocByOrder order = some (result, b') ∧
      (result = none ↔ ∀ k, order ≤ k → k < maxOrder → (s.b.freeArea k).list = []) ∧
      (result = none → b' = s.b) ∧
      Inv base n ⟨b', (result.map (Prod.mk order)).toList ++ s.blocks⟩ := by
  obtain ⟨result, b', hrun, hok, hstart, hcoalesced, hresult⟩ := allocByOrder_spec h.ok horder
  refine ⟨result, b', hrun, ?_⟩
  cases result with
  | none =>
    obtain ⟨rfl, hnil⟩ := hresult
    exact ⟨by simpa using hnil, fun _ => rfl, h⟩
  | some addr =>
    obtain ⟨haligned, hcover, k, hk, hmax, hne⟩ := hresult
    refine ⟨?_, by simp, hok, hcoalesced h.coalesced, hstart.trans h.start, ?_, ?_⟩
    · refine ⟨by simp, fun hnil => ?_⟩
      exact absurd (hnil k hk hmax) hne
    · intro x
      have htiled := h.tiled x
      have hx := hcover x
      simp only [map_some, toList_some, List.singleton_append, mixedCoverage_cons]
      omega
    intro block hblock
    rcases List.mem_cons.mp hblock with rfl | hblock
    · exact ⟨horder, h.start ▸ haligned⟩
    · exact h.aligned block hblock

lemma Inv.free (h : Inv base n ⟨b, (order, addr) :: rest⟩) :
    ∃ b', b.freeByOrder addr order = some b' ∧ Inv base n ⟨b', rest⟩ := by
  obtain ⟨horder, haligned⟩ := h.aligned (order, addr) (by simp)
  have hbase : b.startAddress = base := h.start
  have htiled : ∀ x, b.freeCover x + (cell pgsize order addr x +
      mixedCoverage pgsize rest x) = _ := h.tiled
  have honce : ∀ x, b.freeCover x + cell pgsize order addr x ≤ 1 := by
    intro x
    have hx := htiled x
    split at hx <;> omega
  obtain ⟨b', hrun, hok, hstart, hcoalesced, hcover⟩ :=
    freeByOrder_spec h.ok horder (hbase.symm ▸ haligned) (fun _ ha => ha.elim) honce
  refine ⟨b', hrun, hok, hcoalesced h.coalesced, hstart.trans hbase,
    fun x => ?_, fun block hblock => h.aligned block (by simp [hblock])⟩
  rw [hcover x, ← htiled x, add_assoc]

lemma Inv.step (h : Inv base n s) (call : Call) (hstep : s.step call = some t) : Inv base n t := by
  cases call with
  | alloc order =>
    by_cases horder : order < maxOrder
    · obtain ⟨result, b', hrun, -, -, hinv⟩ := h.alloc horder
      simp only [Direct.step, hrun, bind_eq_bind, bind_some] at hstep
      cases result with
      | none | some => exact some.inj hstep ▸ hinv
    simp only [Direct.step, allocByOrder, ge_iff_le, not_lt.mp horder,
      if_true, bind_eq_bind, bind_some] at hstep
    exact some.inj hstep ▸ h
  | free order addr =>
    by_cases hmem : (order, addr) ∈ s.blocks
    · obtain ⟨b', hrun, hinv⟩ := (h.perm (List.perm_cons_erase hmem).symm).free
      simp only [Direct.step, if_pos hmem, hrun, bind_eq_bind, bind_some] at hstep
      exact some.inj hstep ▸ hinv
    · simp [Direct.step, hmem] at hstep

lemma inv_start (hbase : pgsize ∣ base) (hs : (machine base n).start s) : Inv base n s := by
  obtain ⟨hinit, hblocks⟩ := hs
  obtain ⟨b, hrun, hok, hstart, hempty, hcover⟩ := init_spec hbase n
  obtain rfl := some.inj (hrun.symm.trans hinit)
  refine ⟨hok, fun k hk a ha => ?_, hstart, fun x => ?_, ?_⟩
  · rw [hempty k (by omega)] at ha
    simp at ha
  · rw [hcover x, hblocks, mixedCoverage_nil, add_zero]
  · simp [hblocks]

lemma Inv.freeAll : ∀ {blocks : List (Nat × Nat)} {b : Allocator}, Inv base n ⟨b, blocks⟩ →
    ∃ b', freeAll blocks b = some b' ∧ Inv base n ⟨b', []⟩
  | [], b, h => ⟨b, rfl, h⟩
  | (order, addr) :: rest, b, h => by
      obtain ⟨b', hrun, hinv⟩ := h.free
      obtain ⟨b'', hrest, hinv'⟩ := Inv.freeAll hinv
      refine ⟨b'', ?_, hinv'⟩
      simp [Direct.freeAll, hrun, hrest]

end
end Direct

/-- In every state that calls of `alloc_by_order` and matching calls of
`free_by_order` lead to, no buddies are free, a request is turned down exactly
when no free block is large enough, and giving back all blocks in any order
leaves only free blocks of the largest order. -/
theorem coalesced_of_reachable {base n : Nat} (hbase : pgsize ∣ base)
    {s : Direct} (hs : (Direct.machine base n).Reachable s) :
    Coalesced s.b ∧ (∀ k < maxOrder, ∃ result b', s.b.allocByOrder k = some (result, b') ∧
        (result = none ↔ ∀ j, k ≤ j → j < maxOrder → (s.b.freeArea j).list = []) ∧
        (result = none → b' = s.b)) ∧
      ∀ blocks, blocks.Perm s.blocks → ∃ b', Direct.freeAll blocks s.b = some b' ∧
          ∀ k, k + 1 < maxOrder → (b'.freeArea k).list = [] := by
  have hinv : Direct.Inv base n s :=
    hs.invariant (fun _ hs => Direct.inv_start hbase hs) fun _ call _ h _ hstep => h.step call hstep
  refine ⟨hinv.coalesced, fun k hk => ?_, fun blocks hperm => ?_⟩
  · obtain ⟨result, b', hrun, hnone, hsame, -⟩ := hinv.alloc hk
    exact ⟨result, b', hrun, hnone, hsame⟩
  obtain ⟨b', hrun, hdone⟩ := (hinv.perm hperm).freeAll
  have hfree : ∀ x, b'.freeCover x = _ := hdone.tiled
  rw [← hdone.start] at hfree
  exact ⟨b', hrun, hdone.coalesced.maximal hdone.ok.wf hfree⟩

/-- Two pages and a block of two pages from one block of the largest order. -/
def splitTrace : List Direct.Call := [.alloc 0, .alloc 0, .alloc 1, .free 0 0x80000000]

def splitState : Direct :=
  ((init 0x80000000 0x80100000).bind fun b =>
    (Direct.machine 0x80000000 1).run ⟨b, []⟩ splitTrace).getD ⟨Allocator.default, []⟩

theorem splitTrace_coalesced : splitState.blocks = [(1, 0x80002000), (0, 0x80001000)] ∧
      Coalesced splitState.b ∧
      ∃ b', Direct.freeAll [(0, 0x80001000), (1, 0x80002000)] splitState.b = some b' ∧
        ∀ k, k + 1 < maxOrder → (b'.freeArea k).list = [] := by
  have hsome : ((init 0x80000000 0x80100000).bind fun b =>
      (Direct.machine 0x80000000 1).run ⟨b, []⟩ splitTrace).isSome = true := by
    decide +kernel
  have hblocks : splitState.blocks = [(1, 0x80002000), (0, 0x80001000)] := by decide +kernel
  obtain ⟨s, hs⟩ := isSome_iff_exists.mp hsome
  have hstate : splitState = s := by rw [splitState, hs, getD_some]
  obtain ⟨b, hinit, hrun⟩ := bind_eq_some_iff.mp hs
  have hlimit : 0x80000000 + 1 * blockSize (maxOrder - 1) = 0x80100000 := by decide
  have hreach : (Direct.machine 0x80000000 1).Reachable splitState :=
    Machine.Reachable.run (.start ⟨(congrArg (init 0x80000000) hlimit).trans hinit, rfl⟩)
      (hstate ▸ hrun)
  obtain ⟨hcoalesced, -, hfree⟩ := coalesced_of_reachable (by decide) hreach
  refine ⟨hblocks, hcoalesced, hfree _ ?_⟩
  rw [hblocks]
  exact List.Perm.swap _ _ _

end Redwing.Buddy
