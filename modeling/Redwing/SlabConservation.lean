/-
Every object of every slab is in exactly one place: with a caller, in the array
cache of a CPU, in the shared array cache or in the free list of its slab.  The
objects outside of the free lists are those that the memory cache lends, so
moving objects between the caches keeps both sides of this balance.
-/
import Redwing.SlabSpec

namespace Redwing.Slab

open AlignedBlocks Buddy List Option

namespace ArrayCache

variable {ac dst src : ArrayCache} {m : SlabMemCache}

def Ok (ac : ArrayCache) : Prop := ac.len = ac.list.length

lemma Ok.placeObj (h : ac.Ok) (obj : Nat) : (ac.placeObj obj).Ok := congrArg Nat.succ h

lemma count_placeObj (ac : ArrayCache) (obj o : Nat) :
    (ac.placeObj obj).list.count o = ac.list.count o + [obj].count o := by
  rw [ArrayCache.placeObj, ← singleton_append, count_append, Nat.add_comm]

lemma length_placeObj (ac : ArrayCache) (obj : Nat) :
    (ac.placeObj obj).list.length = ac.list.length + 1 := rfl

lemma fetchObj_spec (h : ac.Ok) : ac.fetchObj.2.Ok ∧ (∀ o, ac.list.count o =
      ac.fetchObj.1.toList.count o + ac.fetchObj.2.list.count o) ∧
    ac.list.length = ac.fetchObj.1.toList.length + ac.fetchObj.2.list.length := by
  cases hlist : ac.list with
  | nil =>
    simp only [fetchObj, hlist]
    exact ⟨h, by simp, by simp⟩
  | cons obj rest =>
    simp only [fetchObj, hlist]
    refine ⟨?_, ?_, ?_⟩
    · rw [Ok, h, hlist]
      rfl
    · intro o
      rw [toList_some, ← singleton_append, count_append]
    · simp [Nat.add_comm]

/-- Two caches together hold what two others hold together. -/
structure Balanced (dst src dst' src' : ArrayCache) : Prop where
  dst_ok : dst'.Ok
  src_ok : src'.Ok
  count : ∀ o, dst'.list.count o + src'.list.count o = dst.list.count o + src.list.count o
  length : dst'.list.length + src'.list.length = dst.list.length + src.list.length

lemma transferObjects_spec : ∀ (n : Nat) (dst src : ArrayCache), dst.Ok →
    src.Ok → Balanced dst src (dst.transferObjects src n).1 (dst.transferObjects src n).2 := by
  intro n
  induction n with
  | zero => exact fun dst src hdst hsrc => ⟨hdst, hsrc, fun _ => rfl, rfl⟩
  | succ n ih =>
    intro dst src hdst hsrc
    obtain ⟨hok, hcount, hlength⟩ := fetchObj_spec hsrc
    rw [transferObjects]
    split
    · rename_i obj rest heq
      rw [heq] at hok hcount hlength
      obtain ⟨hdst', hsrc', hcount', hlength'⟩ := ih (dst.placeObj obj) rest (hdst.placeObj obj) hok
      refine ⟨hdst', hsrc', fun o => ?_, ?_⟩
      · have ho := hcount o
        have ho' := hcount' o
        rw [count_placeObj] at ho'
        simp only [toList_some] at ho
        omega
      simp only [toList_some, length_singleton] at hlength
      rw [length_placeObj] at hlength'
      omega
    · rename_i rest heq
      rw [heq] at hok hcount hlength
      refine ⟨hdst, hok, fun o => ?_, ?_⟩
      · have ho := hcount o
        simp only [toList_none, count_nil] at ho ⊢
        omega
      · simp only [toList_none, length_nil] at hlength ⊢
        omega

/-- What an array cache holds in addition is lent in addition. -/
structure Moves (ac : ArrayCache) (m : SlabMemCache) (ac' : ArrayCache)
    (m' : SlabMemCache) : Prop where
  ok : ac'.Ok
  inv : m'.Inv
  count : ∀ o, ac'.list.count o + m.lent o = ac.list.count o + m'.lent o
  length : ac'.list.length + m.activeObjs = ac.list.length + m'.activeObjs

lemma growLoop_spec : ∀ (n : Nat) (ac : ArrayCache) (m : SlabMemCache) (blocks : List Nat), ac.Ok →
    m.Inv → m.Fresh blocks → ∃ ac' m' blocks', growLoop n ac m blocks = some (ac', m', blocks') ∧
      Moves ac m ac' m' := by
  intro n
  induction n with
  | zero => exact fun ac m blocks hok hinv _ => ⟨ac, m, blocks, rfl, hok, hinv, fun _ => rfl, rfl⟩
  | succ n ih =>
    intro ac m blocks hok hinv hfresh
    obtain ⟨result, m₁, blocks₁, hrun, hlends⟩ := SlabMemCache.allocate_spec hinv hfresh
    cases result with
    | none =>
      refine ⟨ac, m₁, blocks₁, ?_, hok, hlends.inv, fun o => ?_, ?_⟩
      · simp [growLoop, hrun, bind_eq_bind]
      · rw [hlends.lent o, toList_none, count_nil, Nat.add_zero]
      · rw [hlends.active, toList_none, length_nil, Nat.add_zero]
    | some obj =>
      obtain ⟨ac', m', blocks', hrest, hok', hinv', hcount, hlength⟩ :=
        ih (ac.placeObj obj) m₁ blocks₁ (hok.placeObj obj) hlends.inv hlends.fresh
      refine ⟨ac', m', blocks', ?_, hok', hinv', fun o => ?_, ?_⟩
      · simp [growLoop, hrun, bind_eq_bind, hrest]
      · have ho := hcount o
        have hlent := hlends.lent o
        rw [count_placeObj] at ho
        rw [toList_some] at hlent
        omega
      have hactive := hlends.active
      rw [length_placeObj] at hlength
      simp only [toList_some, length_singleton] at hactive
      omega

lemma shrinkLoop_spec : ∀ (n : Nat) (ac : ArrayCache) (m : SlabMemCache),
    ac.Ok → m.Inv → (∀ o, ac.list.count o ≤ m.lent o) →
    ∃ ac' m', shrinkLoop n ac m = some (ac', m') ∧ Moves ac m ac' m' := by
  intro n
  induction n with
  | zero => exact fun ac m hok hinv _ => ⟨ac, m, rfl, hok, hinv, fun _ => rfl, rfl⟩
  | succ n ih =>
    intro ac m hok hinv hle
    obtain ⟨hok₁, hcount₁, hlength₁⟩ := fetchObj_spec hok
    cases hfetch : ac.fetchObj with
    | mk result ac₁ =>
      rw [hfetch] at hok₁ hcount₁ hlength₁
      cases result with
      | none =>
        refine ⟨ac₁, m, ?_, hok₁, hinv, fun o => ?_, ?_⟩
        · simp [shrinkLoop, hfetch]
        · have ho := hcount₁ o
          simp only [toList_none, count_nil] at ho
          omega
        · simp only [toList_none, length_nil] at hlength₁
          omega
      | some obj =>
        have hlent : 0 < m.lent obj := by
          have ho := hcount₁ obj
          have hobj := hle obj
          simp only [toList_some, count_singleton_self] at ho
          omega
        obtain ⟨m₁, hrun, hreturns⟩ := SlabMemCache.deallocate_spec hinv hlent
        have hle₁ : ∀ o, ac₁.list.count o ≤ m₁.lent o := by
          intro o
          have ho := hcount₁ o
          have hobj := hle o
          have hback := hreturns.lent o
          simp only [toList_some] at ho
          omega
        obtain ⟨ac', m', hrest, hok', hinv', hcount, hlength⟩ := ih ac₁ m₁ hok₁ hreturns.inv hle₁
        refine ⟨ac', m', ?_, hok', hinv', fun o => ?_, ?_⟩
        · simp [shrinkLoop, hfetch, hrun, bind_eq_bind, hrest]
        · have ho := hcount o
          have ho₁ := hcount₁ o
          have hback := hreturns.lent o
          simp only [toList_some] at ho₁
          omega
        have hactive := hreturns.active
        simp only [toList_some, length_singleton] at hlength₁
        omega

end ArrayCache

namespace State

variable {obj : Nat} {s : State}

def outside (ncpu : Nat) (s : State) (o : Nat) : Nat :=
  s.held.count o + s.sharedArrayCache.list.count o +
    ∑ c ∈ Finset.range ncpu, (s.perCpuArrayCache c).list.count o

def outsideLen (ncpu : Nat) (s : State) : Nat :=
  s.held.length + s.sharedArrayCache.list.length +
    ∑ c ∈ Finset.range ncpu, (s.perCpuArrayCache c).list.length

structure Inv (ncpu : Nat) (s : State) : Prop where
  mem : s.memCache.Inv
  balance : ∀ o, s.outside ncpu o = s.memCache.lent o
  active : s.memCache.activeObjs = s.outsideLen ncpu
  shared_ok : s.sharedArrayCache.Ok
  local_ok : ∀ c < ncpu, (s.perCpuArrayCache c).Ok
  running : s.panicked = false

lemma Inv.update (h : Inv ncpu s) (hcpu : cpu < ncpu) (mem : SlabMemCache)
    (localAc sharedAc : ArrayCache) (held : List Nat) (hmem : mem.Inv)
    (hlocal : localAc.Ok) (hshared : sharedAc.Ok)
    (hcount : ∀ o, held.count o + localAc.list.count o + sharedAc.list.count o + s.memCache.lent o =
      s.held.count o + (s.perCpuArrayCache cpu).list.count o +
        s.sharedArrayCache.list.count o + mem.lent o)
    (hlength : held.length + localAc.list.length + sharedAc.list.length + s.memCache.activeObjs =
      s.held.length + (s.perCpuArrayCache cpu).list.length +
        s.sharedArrayCache.list.length + mem.activeObjs) :
    Inv ncpu
      { memCache := mem
        perCpuArrayCache := Function.update s.perCpuArrayCache cpu localAc
        sharedArrayCache := sharedAc
        held := held
        panicked := s.panicked } := by
  have hself : Function.update s.perCpuArrayCache cpu localAc cpu = localAc :=
    Function.update_self ..
  have hother : ∀ c, c ≠ cpu → Function.update s.perCpuArrayCache cpu localAc c =
        s.perCpuArrayCache c := fun c hc => Function.update_of_ne hc ..
  refine ⟨hmem, ?_, ?_, hshared, ?_, h.running⟩
  · intro o
    have hsum := sum_update_add hcpu (fun c => (s.perCpuArrayCache c).list.count o)
      (fun c => (Function.update s.perCpuArrayCache cpu localAc c).list.count o)
      (fun c hc => by rw [hother c hc])
    have hbalance := h.balance o
    have ho := hcount o
    rw [hself] at hsum
    simp only [outside] at hbalance ⊢
    omega
  · have hsum := sum_update_add hcpu (fun c => (s.perCpuArrayCache c).list.length)
      (fun c => (Function.update s.perCpuArrayCache cpu localAc c).list.length)
      (fun c hc => by rw [hother c hc])
    have hactive := h.active
    rw [hself] at hsum
    simp only [outsideLen] at hactive ⊢
    omega
  intro c hc
  change (Function.update s.perCpuArrayCache cpu localAc c).Ok
  by_cases heq : c = cpu
  · rw [heq, hself]
    exact hlocal
  · rw [hother c heq]
    exact h.local_ok c hc

lemma Inv.refillLocal (h : Inv ncpu s) (hcpu : cpu < ncpu) : Inv ncpu (s.refillLocal cpu) := by
  have hmoved := ArrayCache.transferObjects_spec (s.perCpuArrayCache cpu).batchcount
    (s.perCpuArrayCache cpu) s.sharedArrayCache (h.local_ok cpu hcpu) h.shared_ok
  rw [State.refillLocal]
  generalize (s.perCpuArrayCache cpu).transferObjects s.sharedArrayCache
    (s.perCpuArrayCache cpu).batchcount = moved at hmoved ⊢
  obtain ⟨localAc, sharedAc⟩ := moved
  obtain ⟨hlocal, hshared, hcount, hlength⟩ := hmoved
  have hfetch := ArrayCache.fetchObj_spec hlocal
  simp only at hshared hcount hlength hfetch ⊢
  generalize localAc.fetchObj = fetched at hfetch ⊢
  obtain ⟨obj, localAc'⟩ := fetched
  obtain ⟨hfetched, hcount', hlength'⟩ := hfetch
  refine h.update hcpu s.memCache localAc' sharedAc (obj.toList ++ s.held)
    h.mem hfetched hshared ?_ ?_
  · intro o
    have ho := hcount o
    have ho' := hcount' o
    rw [count_append]
    simp only at ho'
    omega
  rw [length_append]
  simp only at hlength'
  omega

lemma fresh_of_freshBlocks (hfresh : s.freshBlocks (.allocateObj cpu blocks)) :
    s.memCache.Fresh blocks := by
  intro x
  have hle := mixedCoverage_le_one_of_pairwise_apart hfresh x
  rw [mixedCoverage_map, coverage_append, Nat.add_comm] at hle
  have hcover : s.memCache.cover x = coverage pgsize s.memCache.pgforder
      (s.memCache.slabs.map Page.paddr) x := by
    simp [SlabMemCache.cover, SlabMemCache.total, coverage, Function.comp_def]
  rw [hcover]
  exact hle

lemma Inv.moves {sharedAc : ArrayCache} {mem : SlabMemCache}
    (h : Inv ncpu s) (hmoves : ArrayCache.Moves s.sharedArrayCache s.memCache sharedAc mem) :
    Inv ncpu { s with memCache := mem, sharedArrayCache := sharedAc } := by
  refine ⟨hmoves.inv, ?_, ?_, hmoves.ok, h.local_ok, h.running⟩
  · intro o
    have hbalance := h.balance o
    have ho := hmoves.count o
    simp only [outside] at hbalance ⊢
    omega
  have hactive := h.active
  have hlength := hmoves.length
  simp only [outsideLen] at hactive ⊢
  omega

lemma Inv.allocateObj (h : Inv ncpu s) (hcpu : cpu < ncpu) (hfresh : s.memCache.Fresh blocks) :
    ∃ t, s.allocateObj cpu blocks = some t ∧ Inv ncpu t := by
  obtain ⟨hok, hcount, hlength⟩ := ArrayCache.fetchObj_spec (h.local_ok cpu hcpu)
  cases hfetch : (s.perCpuArrayCache cpu).fetchObj with
  | mk result ac =>
    rw [hfetch] at hok hcount hlength
    simp only at hcount hlength
    cases result with
    | some obj =>
      refine ⟨(s.setLocal cpu ac).hold (some obj), ?_,
        h.update hcpu s.memCache ac s.sharedArrayCache (obj :: s.held) h.mem hok h.shared_ok ?_ ?_⟩
      · simp [State.allocateObj, hfetch]
      · intro o
        have ho := hcount o
        rw [← singleton_append, count_append]
        rw [toList_some] at ho
        omega
      rw [toList_some, length_singleton] at hlength
      rw [length_cons]
      omega
    | none =>
      by_cases hempty : s.sharedArrayCache.list.isEmpty = true
      · obtain ⟨sharedAc, mem, blocks', hrun, hmoves⟩ :=
          ArrayCache.growLoop_spec s.sharedArrayCache.batchcount
            s.sharedArrayCache s.memCache blocks h.shared_ok h.mem hfresh
        have hinv := h.moves hmoves
        by_cases hgrown : s.sharedArrayCache.len = sharedAc.len
        · refine ⟨_, ?_, hinv⟩
          simp [State.allocateObj, hfetch, hempty, hgrown, ArrayCache.growFromCache, hrun]
        refine ⟨_, ?_, hinv.refillLocal hcpu⟩
        simp [State.allocateObj, hfetch, hempty, hgrown, ArrayCache.growFromCache, hrun]
      refine ⟨s.refillLocal cpu, ?_, h.refillLocal hcpu⟩
      simp [State.allocateObj, hfetch, hempty]

lemma Inv.sharedCount_le (h : Inv ncpu s) (o : Nat) :
    s.sharedArrayCache.list.count o ≤ s.memCache.lent o := by
  rw [← h.balance]
  simp only [outside]
  omega

lemma Inv.deallocateObj (h : Inv ncpu s) (hcpu : cpu < ncpu) (hmem : obj ∈ s.held) :
    ∃ t, s.deallocateObj cpu obj = some t ∧ Inv ncpu t := by
  have hplaced := (h.local_ok cpu hcpu).placeObj obj
  have hheld : ∀ o, (s.held.erase obj).count o + [obj].count o =
      s.held.count o := by
    intro o
    have hperm := (perm_cons_erase hmem).count_eq o
    rw [← singleton_append, count_append] at hperm
    omega
  have hheldLen := length_erase_add_one hmem
  have hcount := ArrayCache.count_placeObj (s.perCpuArrayCache cpu) obj
  have hlength := ArrayCache.length_placeObj (s.perCpuArrayCache cpu) obj
  obtain ⟨localAc, hlocal⟩ : ∃ ac, ac = (s.perCpuArrayCache cpu).placeObj obj := ⟨_, rfl⟩
  rw [← hlocal] at hplaced hcount hlength
  by_cases hlimit : localAc.len < localAc.limit
  · refine ⟨_, ?_, h.update hcpu s.memCache localAc s.sharedArrayCache
      (s.held.erase obj) h.mem hplaced h.shared_ok ?_ ?_⟩
    · simp only [State.deallocateObj, ← hlocal, hlimit, if_true]
      rfl
    · intro o
      have ho := hcount o
      have hheld := hheld o
      omega
    · omega
  obtain ⟨hshared, hlocalOk, hcount', hlength'⟩ :=
    ArrayCache.transferObjects_spec localAc.batchcount s.sharedArrayCache
      localAc h.shared_ok hplaced
  have hspilled := h.update hcpu s.memCache _ _ (s.held.erase obj) h.mem hlocalOk hshared
    (fun o => by
      have ho := hcount o
      have ho' := hcount' o
      have hheld := hheld o
      omega)
    (by omega)
  by_cases hsharedLimit : (s.sharedArrayCache.transferObjects localAc localAc.batchcount).1.len <
      (s.sharedArrayCache.transferObjects localAc localAc.batchcount).1.limit
  · refine ⟨_, ?_, hspilled⟩
    simp only [State.deallocateObj, ← hlocal, hlimit, if_false, hsharedLimit, if_true]
    rfl
  obtain ⟨sharedAc, mem, hrun, hmoves⟩ := ArrayCache.shrinkLoop_spec
    (s.sharedArrayCache.transferObjects localAc localAc.batchcount).1.batchcount
    _ _ hspilled.shared_ok hspilled.mem hspilled.sharedCount_le
  refine ⟨_, ?_, hspilled.moves hmoves⟩
  simp only [State.deallocateObj, ← hlocal, hlimit, if_false,
    hsharedLimit, ArrayCache.shrinkToCache, setLocal]
  rw [hrun]
  rfl

lemma Inv.step (h : Inv ncpu s) (hfresh : s.freshBlocks action)
    (hstep : s.step ncpu action = some t) : Inv ncpu t := by
  simp only [State.step, h.running, Bool.false_eq_true, if_false] at hstep
  cases action with
  | allocateObj cpu blocks =>
    simp only [ite_none_right_eq_some, some.injEq] at hstep
    obtain ⟨hcpu, rfl⟩ := hstep
    obtain ⟨t, hrun, ht⟩ := h.allocateObj hcpu (fresh_of_freshBlocks hfresh)
    simpa [State.orPanic, hrun] using ht
  | deallocateObj cpu obj =>
    simp only [ite_none_right_eq_some, some.injEq] at hstep
    obtain ⟨⟨hcpu, hmem⟩, rfl⟩ := hstep
    obtain ⟨t, hrun, ht⟩ := h.deallocateObj hcpu hmem
    simpa [State.orPanic, hrun] using ht

lemma le_two_pow_log2_nextPowerOfTwo (n : Nat) : n ≤ 2 ^ Nat.log2 (nextPowerOfTwo n) := by
  unfold nextPowerOfTwo
  split
  · exact le_trans ‹n ≤ 1› (Nat.one_le_two_pow)
  rw [Nat.log2_two_pow]
  have hlt := Nat.lt_log2_self (n := n - 1)
  omega

lemma fits_pgforderForSlab (hle : objectSize ≤ pgsize * 2) :
    objectSize ≤ pgsize * 2 ^ pgforderForSlab objectSize 8 := by
  simp only [pgforderForSlab]
  rcases Nat.le_total (Nat.log2 (nextPowerOfTwo ((objectSize * 8 + pgsize - 1) / pgsize))) 5
    with hmin | hmin
  · rw [Nat.min_eq_left hmin]
    have hpages := le_two_pow_log2_nextPowerOfTwo ((objectSize * 8 + pgsize - 1) / pgsize)
    have hmul := Nat.mul_le_mul_left pgsize hpages
    have hdiv := Nat.div_add_mod (objectSize * 8 + pgsize - 1) pgsize
    have hmod := Nat.mod_lt (objectSize * 8 + pgsize - 1) (show pgsize > 0 by decide)
    simp only [pgsize] at *
    omega
  rw [Nat.min_eq_right hmin]
  simp only [pgsize] at hle ⊢
  omega

lemma inv_new (hnew : State.new objectSize align = some s) (ncpu : Nat) : Inv ncpu s := by
  simp only [State.new] at hnew
  split at hnew
  · simp at hnew
  split at hnew
  · simp at hnew
  · rename_i hmax hmin
    obtain rfl := some.inj hnew
    refine ⟨⟨?_, ?_, ?_, ?_, ?_, ?_, ?_, rfl, rfl, rfl, rfl⟩, ?_, ?_, rfl, fun _ _ => rfl, rfl⟩
    · simp only [sizeOfSlabFreeObj] at hmin
      change 0 < alignUp objectSize align
      omega
    · exact fits_pgforderForSlab (Nat.not_lt.mp hmax)
    · simp [SlabMemCache.new, SlabMemCache.slabs]
    · simp [SlabMemCache.new]
    · simp [SlabMemCache.new]
    · simp [SlabMemCache.new]
    · simp [SlabMemCache.new, SlabMemCache.slabs, SlabMemCache.cover, SlabMemCache.total]
    · simp [outside, SlabMemCache.new, SlabMemCache.lent,
        SlabMemCache.total, SlabMemCache.slabs, ArrayCache.new]
    · simp [outsideLen, SlabMemCache.new, ArrayCache.new]

/-! ## Conservation -/

/-- Every object is in exactly one place, objects do not overlap, every slab is
in the right list and the counters are right. -/
structure Partitioned (ncpu : Nat) (s : State) : Prop where
  exactly_one : ∀ slab ∈ s.memCache.slabs, ∀ o ∈ slab.objects, s.held.count o +
      (∑ c ∈ Finset.range ncpu, (s.perCpuArrayCache c).list.count o) +
      s.sharedArrayCache.list.count o + slab.slabFreeList.count o = 1
  own : ∀ slab ∈ s.memCache.slabs, ∀ o ∈ slab.slabFreeList, o ∈ slab.objects
  belongs : ∀ o, o ∈ s.held ∨ o ∈ s.sharedArrayCache.list ∨
    (∃ c < ncpu, o ∈ (s.perCpuArrayCache c).list) → ∃ slab ∈ s.memCache.slabs, o ∈ slab.objects
  apart : s.held.Pairwise fun a b => a + s.memCache.objectSz ≤ b ∨ b + s.memCache.objectSz ≤ a
  nr_free : ∀ slab ∈ s.memCache.slabs, slab.slabNrFree = slab.slabFreeList.length
  empty : ∀ slab ∈ s.memCache.slabsEmpty, slab.slabNrFree = slab.slabNumObjs
  part : ∀ slab ∈ s.memCache.slabsPartial, 0 < slab.slabNrFree ∧ slab.slabNrFree < slab.slabNumObjs
  full : ∀ slab ∈ s.memCache.slabsFull, slab.slabNrFree = 0
  active_objs : s.memCache.activeObjs = s.held.length +
    (∑ c ∈ Finset.range ncpu, (s.perCpuArrayCache c).len) + s.sharedArrayCache.len
  local_len : ∀ c < ncpu, (s.perCpuArrayCache c).len = (s.perCpuArrayCache c).list.length
  shared_len : s.sharedArrayCache.len = s.sharedArrayCache.list.length
  num_objs : s.memCache.numObjs = (s.memCache.slabs.map fun slab => slab.objects.length).sum
  total_slabs : s.memCache.totalSlabs = s.memCache.slabs.length
  slabs_empty_len : s.memCache.slabsEmptyLen = s.memCache.slabsEmpty.length
  no_panic : s.panicked = false

lemma objects_apart {m : SlabMemCache} (h : m.Inv) {left right : Page} (hleft : left ∈ m.slabs)
    (hright : right ∈ m.slabs) {a b : Nat} (ha : a ∈ left.objects) (hb : b ∈ right.objects)
    (hne : a ≠ b) : a + m.objectSz ≤ b ∨ b + m.objectSz ≤ a := by
  have hwfLeft := h.wf left hleft
  have hwfRight := h.wf right hright
  by_cases hpaddr : left.paddr = right.paddr
  · obtain ⟨i, -, rfl⟩ := mem_map.mp ha
    obtain ⟨j, -, rfl⟩ := mem_map.mp hb
    rw [hwfLeft.obj_sz, hwfRight.obj_sz, hpaddr] at hne ⊢
    rcases Nat.lt_trichotomy i j with hlt | rfl | hlt
    · left
      have hmul := Nat.mul_le_mul_right m.objectSz (Nat.succ_le_of_lt hlt)
      rw [Nat.succ_mul] at hmul
      omega
    · exact absurd rfl hne
    right
    have hmul := Nat.mul_le_mul_right m.objectSz (Nat.succ_le_of_lt hlt)
    rw [Nat.succ_mul] at hmul
    omega
  · have hapart : Apart pgsize (m.pgforder, left.paddr) (m.pgforder, right.paddr) := by
      refine apart_of_cell_add_le_one (by decide) fun x => ?_
      have hmem : right ∈ m.slabs.erase left := by
        apply (mem_erase_of_ne ?_).mpr hright
        rintro rfl
        exact hpaddr rfl
      have hle : cell pgsize m.pgforder right.paddr x ≤ ((m.slabs.erase
          left).map fun t => cell pgsize m.pgforder t.paddr x).sum :=
        le_sum_of_mem (mem_map.mpr ⟨right, hmem, rfl⟩)
      have honce := h.once x
      rw [SlabMemCache.cover, SlabMemCache.total_of_perm (perm_cons_erase hleft)] at honce
      exact le_trans (Nat.add_le_add_left hle _) honce
    have hinLeft := hwfLeft.bounds_of_mem ha
    have hinRight := hwfRight.bounds_of_mem hb
    rcases hapart with hle | hle
    · left
      simp only at hle
      omega
    right
    simp only at hle
    omega

lemma Inv.count_free_add_outside (h : Inv ncpu s) (hslab : slab ∈ s.memCache.slabs)
    (ho : o ∈ slab.objects) : s.outside ncpu o + slab.slabFreeList.count o = 1 := by
  have hwf := h.mem.wf slab hslab
  have hcontains := (SlabMemCache.slabContains_iff hwf).mpr (hwf.bounds_of_mem ho)
  have hlent := h.mem.lent_of_contains (perm_cons_erase hslab) hcontains
  have hcount := hwf.count_add_lent o
  rw [count_eq_one_of_mem (hwf.nodup_objects h.mem.size_pos) ho] at hcount
  rw [h.balance, ← hlent]
  omega

lemma Inv.exists_slab (h : Inv ncpu s) (hpos : 0 < s.outside ncpu o) :
    ∃ slab ∈ s.memCache.slabs, o ∈ slab.objects := by
  rw [h.balance] at hpos
  obtain ⟨slab, hslab, hlent⟩ := SlabMemCache.exists_lent hpos
  refine ⟨slab, hslab, ?_⟩
  apply count_pos_iff.mp
  rw [Page.lent] at hlent
  omega

lemma Inv.outside_le_one (h : Inv ncpu s) (o : Nat) : s.outside ncpu o ≤ 1 := by
  by_contra hgt
  obtain ⟨slab, hslab, ho⟩ := h.exists_slab (o := o) (by omega)
  have hone := h.count_free_add_outside hslab ho
  omega

lemma outside_pos_of_held (ho : o ∈ s.held) : 0 < s.outside ncpu o := by
  have hpos := count_pos_iff.mpr ho
  simp only [outside]
  omega

lemma Inv.nodup_held (h : Inv ncpu s) : s.held.Nodup := by
  apply nodup_iff_count_le_one.mpr
  intro o
  have hle := h.outside_le_one o
  simp only [outside] at hle
  omega

lemma Inv.partitioned (h : Inv ncpu s) : Partitioned ncpu s := by
  refine ⟨?_, ?_, ?_, ?_, fun slab hslab => (h.mem.wf slab hslab).nr_free, h.mem.empty, h.mem.part,
    h.mem.full, ?_, h.local_ok, h.shared_ok, ?_, h.mem.total_slabs, h.mem.empty_len, h.running⟩
  · intro slab hslab o ho
    have hone := h.count_free_add_outside hslab ho
    simp only [outside] at hone
    omega
  · intro slab hslab o ho
    have hle := (h.mem.wf slab hslab).free o
    have hpos := count_pos_iff.mpr ho
    exact count_pos_iff.mp (lt_of_lt_of_le hpos hle)
  · rintro o (ho | ho | ⟨c, hc, ho⟩)
    · exact h.exists_slab (outside_pos_of_held ho)
    · apply h.exists_slab
      have hpos := count_pos_iff.mpr ho
      simp only [outside]
      omega
    · apply h.exists_slab
      have hpos := count_pos_iff.mpr ho
      have hle := Finset.single_le_sum (f := fun c => (s.perCpuArrayCache c).list.count o)
        (fun _ _ => Nat.zero_le _) (Finset.mem_range.mpr hc)
      simp only [outside]
      omega
  · refine List.Pairwise.imp_of_mem ?_ h.nodup_held
    intro a b ha hb hne
    obtain ⟨left, hleft, ha⟩ := h.exists_slab (outside_pos_of_held ha)
    obtain ⟨right, hright, hb⟩ := h.exists_slab (outside_pos_of_held hb)
    exact objects_apart h.mem hleft hright ha hb hne
  · have hlens : ∑ c ∈ Finset.range ncpu, (s.perCpuArrayCache c).len =
        ∑ c ∈ Finset.range ncpu, (s.perCpuArrayCache c).list.length :=
      Finset.sum_congr rfl fun c hc => h.local_ok c (Finset.mem_range.mp hc)
    have hactive := h.active
    have hshared : s.sharedArrayCache.len = s.sharedArrayCache.list.length := h.shared_ok
    simp only [outsideLen] at hactive
    rw [hlens, hshared]
    omega
  · rw [h.mem.num_objs]
    simp [SlabMemCache.total, Page.length_objects]

end State

/-- In every state that any number of CPUs reach by allocating objects and
freeing those they hold, if the buddy allocator returns fresh blocks, every
object is in exactly one place, live objects do not overlap, every slab is in
the right list and the counters are right. -/
theorem partitioned_of_freshBlocks (ncpu objectSize align : Nat) {s : State}
    (hs : (machine ncpu objectSize align).ReachableUnder State.freshBlocks s) :
    s.Partitioned ncpu := by
  have hinv : State.Inv ncpu s := by
    refine Machine.ReachableUnder.invariant ?_ ?_ hs
    · intro s hnew
      exact State.inv_new hnew ncpu
    · intro s action t h hfresh hstep
      exact h.step hfresh hstep
  exact hinv.partitioned

/-- Two CPUs allocate an object of 1 KiB each, the first call with two new
slabs, and CPU 1 frees the object that CPU 0 got. -/
def handedTrace : List Action :=
  [.allocateObj 0 [0x80000000, 0x80002000], .allocateObj 1 [0x80004000],
    .deallocateObj 1 0x80002400]

def handedStart : State :=
  (State.new 1024 8).getD
    { memCache := SlabMemCache.new 1024
      perCpuArrayCache := fun _ => ArrayCache.new 0 0
      sharedArrayCache := ArrayCache.new 0 0
      held := []
      panicked := true }

def handedState : State :=
  ((machine 2 1024 8).runUnder State.freshBlocks handedStart handedTrace).getD handedStart

theorem handedTrace_partitioned :
    (machine 2 1024 8).runUnder State.freshBlocks handedStart handedTrace = some handedState ∧
      handedState.held = [0x80002c00] ∧ handedState.Partitioned 2 := by
  have hnew : State.new 1024 8 = some handedStart := rfl
  have hsome : ((machine 2 1024 8).runUnder State.freshBlocks handedStart
      handedTrace).isSome = true := by
    decide +kernel
  have hrun : (machine 2 1024 8).runUnder State.freshBlocks handedStart
      handedTrace = some handedState := by
    obtain ⟨t, ht⟩ := isSome_iff_exists.mp hsome
    rw [handedState, ht, getD_some]
  have hheld : handedState.held = [0x80002c00] := by decide +kernel
  exact ⟨hrun, hheld, partitioned_of_freshBlocks 2 1024 8
    (Machine.ReachableUnder.runUnder (.start hnew) hrun)⟩

end Redwing.Slab
