/-
What the operations of the memory cache do to its slabs.  An object is lent
when its slab exists and does not have it in the free list; allocating lends
one object more and deallocating one less.
-/
import Redwing.Slab

namespace Redwing.Slab

open AlignedBlocks Buddy List

variable {pgforder objectSz : Nat} {slab : Page}

namespace Page

def objects (slab : Page) : List Nat :=
  (List.range slab.slabNumObjs).map fun i => slab.paddr + i * slab.slabObjSz

/-- One if the object belongs to the slab and is not in its free list. -/
def lent (slab : Page) (o : Nat) : Nat := slab.objects.count o - slab.slabFreeList.count o

/-- A slab of the given geometry whose free list holds objects of its own, each
at most once. -/
structure Wf (pgforder objectSz : Nat) (slab : Page) : Prop where
  order : slab.pgfOrder = pgforder
  obj_sz : slab.slabObjSz = objectSz
  num_objs : slab.slabNumObjs = pgsize * 2 ^ pgforder / objectSz
  nr_free : slab.slabNrFree = slab.slabFreeList.length
  free : ∀ o, slab.slabFreeList.count o ≤ slab.objects.count o

lemma length_objects (slab : Page) : slab.objects.length = slab.slabNumObjs := by simp [objects]

section

variable (h : slab.Wf pgforder objectSz)

include h

lemma Wf.nodup_objects (hpos : 0 < objectSz) : slab.objects.Nodup := by
  apply List.Nodup.map _ nodup_range
  intro i j hij
  simp only [h.obj_sz] at hij
  exact Nat.eq_of_mul_eq_mul_right hpos (Nat.add_left_cancel hij)

lemma Wf.bounds_of_mem (hmem : o ∈ slab.objects) :
    slab.paddr ≤ o ∧ o + objectSz ≤ slab.paddr + pgsize * 2 ^ pgforder := by
  obtain ⟨i, hi, rfl⟩ := mem_map.mp hmem
  rw [mem_range, h.num_objs] at hi
  rw [h.obj_sz]
  refine ⟨Nat.le_add_right _ _, ?_⟩
  have hmul : (i + 1) * objectSz ≤ pgsize * 2 ^ pgforder :=
    (Nat.le_div_iff_mul_le (Nat.pos_of_ne_zero (by
      rintro rfl
      simp at hi))).mp hi
  rw [Nat.add_mul, Nat.one_mul] at hmul
  omega

lemma Wf.count_objects_le_cell (hpos : 0 < objectSz) (o : Nat) :
    slab.objects.count o ≤ cell pgsize pgforder slab.paddr o := by
  by_cases hmem : o ∈ slab.objects
  · have hbounds := h.bounds_of_mem hmem
    have hone : cell pgsize pgforder slab.paddr o = 1 := cell_eq_one_iff.mpr ⟨hbounds.1, by omega⟩
    rw [hone]
    exact nodup_iff_count_le_one.mp (h.nodup_objects hpos) o
  · rw [count_eq_zero_of_not_mem hmem]
    exact Nat.zero_le _

lemma Wf.subperm : List.Subperm slab.slabFreeList slab.objects :=
  subperm_ext_iff.mpr fun o _ => h.free o

lemma Wf.nrFree_le : slab.slabNrFree ≤ slab.slabNumObjs := by
  rw [h.nr_free, ← length_objects]
  exact h.subperm.length_le

lemma Wf.lent_of_empty (hempty : slab.slabNrFree = slab.slabNumObjs) (o : Nat) :
    slab.lent o = 0 := by
  have hlen : slab.objects.length ≤ slab.slabFreeList.length := by
    rw [length_objects, ← h.nr_free, hempty]
  have hperm := h.subperm.perm_of_length_le hlen
  rw [lent, hperm.count_eq o]
  exact Nat.sub_self _

lemma Wf.count_add_lent (o : Nat) :
    slab.slabFreeList.count o + slab.lent o = slab.objects.count o := by
  have hle := h.free o
  rw [lent]
  omega

lemma Wf.slabAllocate (hpos : 0 < slab.slabNrFree) :
    ∃ o slab', slab.slabAllocate = some (o, slab') ∧
      slab'.Wf pgforder objectSz ∧ slab'.paddr = slab.paddr ∧
      slab'.slabNumObjs = slab.slabNumObjs ∧
      slab'.slabNrFree + 1 = slab.slabNrFree ∧
      (slab'.slabIsFull = true ↔ slab'.slabNrFree = 0) ∧
      ∀ x, slab'.lent x = slab.lent x + if x = o then 1 else 0 := by
  cases hlist : slab.slabFreeList with
  | nil =>
    rw [h.nr_free, hlist] at hpos
    exact absurd hpos (by simp)
  | cons node rest =>
    have hnr : slab.slabNrFree = rest.length + 1 := by rw [h.nr_free, hlist, length_cons]
    have hcount : ∀ x, rest.count x + (if x = node then 1 else 0) =
        slab.slabFreeList.count x := by
      intro x
      rw [hlist, count_cons]
      by_cases hx : x = node
      · simp [hx]
      · simp [hx, Ne.symm hx]
    refine ⟨node, { slab with
        slabFreeList := rest, slabNrFree := slab.slabNrFree - 1 },
      by simp only [Page.slabAllocate, hlist], ?_, rfl, rfl, ?_, ?_, ?_⟩
    · refine ⟨h.order, h.obj_sz, h.num_objs, ?_, ?_⟩
      · simp [hnr]
      · intro x
        have hx := hcount x
        have hfree := h.free x
        change rest.count x ≤ slab.objects.count x
        omega
    · simp [hnr]
    · simp [slabIsFull, hnr]
    intro x
    have hx := hcount x
    have hfree := h.free x
    change slab.objects.count x - rest.count x = slab.objects.count x -
      slab.slabFreeList.count x + _
    omega

lemma Wf.slabDeallocate (hlent : 0 < slab.lent obj) :
    (slab.slabDeallocate obj).Wf pgforder objectSz ∧
      ∀ x, (slab.slabDeallocate obj).lent x + (if x = obj then 1 else 0) =
        slab.lent x := by
  have hcount : ∀ x, (obj :: slab.slabFreeList).count x =
      slab.slabFreeList.count x + if x = obj then 1 else 0 := by
    intro x
    rw [count_cons]
    by_cases hx : x = obj
    · simp [hx]
    · simp [hx, Ne.symm hx]
  have hroom : ∀ x, slab.slabFreeList.count x + (if x = obj then 1 else 0) ≤
      slab.objects.count x := by
    intro x
    have hfree := h.free x
    by_cases hx : x = obj
    · subst x
      simp only [lent] at hlent
      simp only [if_true]
      omega
    · simp only [hx, if_false]
      omega
  refine ⟨⟨h.order, h.obj_sz, h.num_objs, ?_, ?_⟩, ?_⟩
  · simp [Page.slabDeallocate, h.nr_free]
  · intro x
    have hx := hroom x
    rw [← hcount] at hx
    exact hx
  intro x
  have hx := hroom x
  change slab.objects.count x - (obj :: slab.slabFreeList).count x + _ =
    slab.objects.count x - slab.slabFreeList.count x
  rw [hcount]
  omega

end
end Page

lemma linkObjects_eq : ∀ (n object : Nat)
    (list : List Nat) (freeNr endAddr : Nat),
    object + n * objectSz ≤ endAddr →
    linkObjects n endAddr objectSz object (list, freeNr) =
      (((range n).map fun i => object + i * objectSz).reverse ++ list, freeNr + n) := by
  intro n
  induction n with
  | zero =>
    intro object list freeNr endAddr _
    simp [linkObjects]
  | succ n ih =>
    intro object list freeNr endAddr hend
    rw [Nat.succ_mul] at hend
    have hfits : object + objectSz ≤ endAddr := by omega
    rw [linkObjects, if_pos hfits, ih _ _ _ _ (by omega), range_succ_eq_map]
    simp only [map_cons, map_map, reverse_cons, Nat.zero_mul, Nat.add_zero,
      append_assoc, singleton_append, Prod.mk.injEq]
    refine ⟨?_, by omega⟩
    congr 3
    funext i
    simp only [Function.comp_apply, Nat.succ_mul]
    omega

lemma slabNew_spec (pgf pgforder objectSz : Nat) :
    (slabNew pgf pgforder objectSz).Wf pgforder objectSz ∧
      (slabNew pgf pgforder objectSz).paddr = pgf ∧
      (slabNew pgf pgforder objectSz).slabNrFree = (slabNew pgf pgforder objectSz).slabNumObjs := by
  have hlink := linkObjects_eq (pgsize * 2 ^ pgforder / objectSz) pgf [] 0
    (pgf + pgsize * 2 ^ pgforder) (Nat.add_le_add_left (Nat.div_mul_le_self _ _) _)
  rw [append_nil, Nat.zero_add] at hlink
  refine ⟨⟨rfl, rfl, ?_, ?_, ?_⟩, rfl, ?_⟩
  · simp [slabNew, hlink]
  · simp [slabNew, hlink]
  · intro o
    simp only [slabNew, hlink, Page.objects, count_reverse]
    exact le_refl _
  · simp [slabNew, hlink]

/-! ## The memory cache -/

namespace SlabMemCache

variable {m m' : SlabMemCache} {rest : List Page}

def total (m : SlabMemCache) (f : Page → Nat) : Nat := (m.slabs.map f).sum

def lent (m : SlabMemCache) (o : Nat) : Nat := m.total fun slab => slab.lent o

def cover (m : SlabMemCache) (x : Nat) : Nat :=
  m.total fun slab => cell pgsize m.pgforder slab.paddr x

structure Inv (m : SlabMemCache) : Prop where
  size_pos : 0 < m.objectSz
  fits : m.objectSz ≤ pgsize * 2 ^ m.pgforder
  wf : ∀ slab ∈ m.slabs, slab.Wf m.pgforder m.objectSz
  empty : ∀ slab ∈ m.slabsEmpty, slab.slabNrFree = slab.slabNumObjs
  part : ∀ slab ∈ m.slabsPartial, 0 < slab.slabNrFree ∧ slab.slabNrFree < slab.slabNumObjs
  full : ∀ slab ∈ m.slabsFull, slab.slabNrFree = 0
  once : ∀ x, m.cover x ≤ 1
  num_objs : m.numObjs = m.total Page.slabNumObjs
  active : m.activeObjs + m.total Page.slabNrFree = m.total Page.slabNumObjs
  empty_len : m.slabsEmptyLen = m.slabsEmpty.length
  total_slabs : m.totalSlabs = m.slabs.length

lemma total_of_perm (hperm : m.slabs.Perm (slab :: rest))
    (f : Page → Nat) : m.total f = f slab + (rest.map f).sum := by
  rw [total, (hperm.map f).sum_eq, map_cons, sum_cons]

lemma Inv.numObjs_pos (h : m.Inv) (hwf : slab.Wf m.pgforder m.objectSz) : 0 < slab.slabNumObjs := by
  rw [hwf.num_objs]
  exact Nat.div_pos h.fits h.size_pos

variable {slab' : Page} {part : List Page}

lemma Inv.replace (h : m.Inv) (hperm : m.slabs.Perm (slab :: rest))
    (hperm' : m'.slabs.Perm (slab' :: rest)) (horder : m'.pgforder = m.pgforder)
    (hsz : m'.objectSz = m.objectSz) (hwf : slab'.Wf m.pgforder m.objectSz)
    (hpaddr : slab'.paddr = slab.paddr) (hnum : slab'.slabNumObjs = slab.slabNumObjs)
    (hempty : ∀ t ∈ m'.slabsEmpty, t.slabNrFree = t.slabNumObjs)
    (hpart : ∀ t ∈ m'.slabsPartial, 0 < t.slabNrFree ∧ t.slabNrFree < t.slabNumObjs)
    (hfull : ∀ t ∈ m'.slabsFull, t.slabNrFree = 0) (hnumObjs : m'.numObjs = m.numObjs)
    (hactive : m'.activeObjs + slab'.slabNrFree = m.activeObjs + slab.slabNrFree)
    (hlen : m'.slabsEmptyLen = m'.slabsEmpty.length) (htotal : m'.totalSlabs = m.totalSlabs) :
    m'.Inv := by
  refine ⟨hsz ▸ h.size_pos, ?_, ?_, hempty, hpart, hfull, ?_, ?_, ?_, hlen, ?_⟩
  · rw [hsz, horder]
    exact h.fits
  · intro t ht
    rw [hsz, horder]
    rcases mem_cons.mp (hperm'.mem_iff.mp ht) with rfl | ht
    · exact hwf
    · exact h.wf t (hperm.mem_iff.mpr (mem_cons_of_mem _ ht))
  · intro x
    have hx := h.once x
    rw [cover, total_of_perm hperm] at hx
    rw [cover, total_of_perm hperm', horder, hpaddr]
    exact hx
  · rw [hnumObjs, h.num_objs, total_of_perm hperm, total_of_perm hperm', hnum]
  · have hsum := h.active
    rw [total_of_perm hperm, total_of_perm hperm] at hsum
    rw [total_of_perm hperm', total_of_perm hperm', hnum]
    omega
  · rw [htotal, h.total_slabs, hperm.length_eq, hperm'.length_eq, length_cons, length_cons]

lemma Inv.join (h : m.Inv) (hperm : m'.slabs.Perm (slab :: m.slabs))
    (horder : m'.pgforder = m.pgforder) (hsz : m'.objectSz = m.objectSz)
    (hwf : slab.Wf m.pgforder m.objectSz) (hfree : slab.slabNrFree = slab.slabNumObjs)
    (hempty : m'.slabsEmpty = slab :: m.slabsEmpty) (hpart : m'.slabsPartial = m.slabsPartial)
    (hfull : m'.slabsFull = m.slabsFull)
    (honce : ∀ x, cell pgsize m.pgforder slab.paddr x + m.cover x ≤ 1)
    (hnum : m'.numObjs = m.numObjs + slab.slabNumObjs) (hactive : m'.activeObjs = m.activeObjs)
    (hlen : m'.slabsEmptyLen = m.slabsEmptyLen + 1) (htotal : m'.totalSlabs = m.totalSlabs + 1) :
    m'.Inv := by
  refine ⟨hsz ▸ h.size_pos, ?_, ?_, ?_, hpart ▸ h.part, hfull ▸ h.full, ?_, ?_, ?_, ?_, ?_⟩
  · rw [hsz, horder]
    exact h.fits
  · intro t ht
    rw [hsz, horder]
    rcases mem_cons.mp (hperm.mem_iff.mp ht) with rfl | ht
    · exact hwf
    · exact h.wf t ht
  · intro t ht
    rw [hempty] at ht
    rcases mem_cons.mp ht with rfl | ht
    · exact hfree
    · exact h.empty t ht
  · intro x
    rw [cover, total_of_perm hperm, horder]
    exact honce x
  · rw [hnum, h.num_objs, total_of_perm hperm, Nat.add_comm]
    rfl
  · have hsum := h.active
    rw [total_of_perm hperm, total_of_perm hperm, hactive, hfree]
    simp only [total] at hsum
    omega
  · rw [hlen, h.empty_len, hempty, length_cons]
  · rw [htotal, h.total_slabs, hperm.length_eq, length_cons]

lemma lent_replace (hperm : m.slabs.Perm (slab :: rest)) (hperm' : m'.slabs.Perm (slab' :: rest))
    (o : Nat) : m'.lent o + slab.lent o = m.lent o + slab'.lent o := by
  rw [lent, lent, total_of_perm hperm, total_of_perm hperm']
  omega

lemma cover_replace (hperm : m.slabs.Perm (slab :: rest)) (hperm' : m'.slabs.Perm (slab' :: rest))
    (horder : m'.pgforder = m.pgforder) (hpaddr : slab'.paddr = slab.paddr)
    (x : Nat) : m'.cover x = m.cover x := by
  rw [cover, cover, total_of_perm hperm, total_of_perm hperm', horder, hpaddr]

lemma perm_incomplete (empty full before after : List Page) (slab : Page) :
    (empty ++ (before ++ slab :: after) ++ full).Perm
      (slab :: (empty ++ (before ++ after) ++ full)) := by
  have hmove := (@perm_middle _ slab before after).append_left empty
  exact (hmove.trans perm_middle).append_right full

lemma perm_full (empty part before after : List Page) (slab : Page) :
    (empty ++ part ++ (before ++ slab :: after)).Perm
      (slab :: (empty ++ part ++ (before ++ after))) := by
  have hmove := (@perm_middle _ slab before after).append_left (empty ++ part)
  exact hmove.trans perm_middle

def Fresh (m : SlabMemCache) (blocks : List Nat) : Prop :=
  ∀ x, m.cover x + coverage pgsize m.pgforder blocks x ≤ 1

/-- What `allocate` returns is lent from then on, and nothing else changes for
the holders of objects. -/
structure Lends (m : SlabMemCache) (result : Option Nat) (m' : SlabMemCache)
    (blocks' : List Nat) : Prop where
  inv : m'.Inv
  fresh : m'.Fresh blocks'
  lent : ∀ o, m'.lent o = m.lent o + result.toList.count o
  active : m'.activeObjs = m.activeObjs + result.toList.length

lemma count_singleton (x o : Nat) : [o].count x = if x = o then 1 else 0 := by
  by_cases hx : x = o
  · simp [hx]
  · simp [hx, Ne.symm hx]

def lendFrom (m : SlabMemCache) (slab : Page) (empty part : List Page) (len : Nat) : SlabMemCache :=
  let m := { m with slabsEmpty := empty, slabsPartial := part, slabsEmptyLen := len }
  let m :=
    if slab.slabIsFull then { m with slabsFull := slab :: m.slabsFull }
    else { m with slabsPartial := slab :: m.slabsPartial }
  { m with activeObjs := m.activeObjs + 1 }

lemma Inv.lendFrom {empty : List Page} {len : Nat} (h : m.Inv) (hfresh : m.Fresh blocks)
    (hperm : m.slabs.Perm (slab :: (empty ++ part ++ m.slabsFull)))
    (hempty : ∀ t ∈ empty, t ∈ m.slabsEmpty) (hpart : ∀ t ∈ part, t ∈ m.slabsPartial)
    (hlen : len = empty.length) (hpos : 0 < slab.slabNrFree) :
    ∃ obj slab', slab.slabAllocate = some (obj, slab') ∧
      Lends m (some obj) (m.lendFrom slab' empty part len) blocks := by
  have hwf := h.wf slab (hperm.mem_iff.mpr (by simp))
  have hle := hwf.nrFree_le
  obtain ⟨obj, slab', halloc, hwf', hpaddr, hnum, hnr, hfull, hlent⟩ := hwf.slabAllocate hpos
  refine ⟨obj, slab', halloc, ?_⟩
  obtain ⟨m', hm'⟩ : ∃ m', m' = m.lendFrom slab' empty part len := ⟨_, rfl⟩
  rw [← hm']
  have hperm' : m'.slabs.Perm (slab' :: (empty ++ part ++ m.slabsFull)) := by
    by_cases hisFull : slab'.slabIsFull = true
    · simp only [hm', SlabMemCache.lendFrom, hisFull, if_true, slabs]
      exact perm_full empty part [] m.slabsFull slab'
    simp only [hm', SlabMemCache.lendFrom, hisFull, Bool.false_eq_true, if_false, slabs]
    exact perm_incomplete empty m.slabsFull [] part slab'
  have horder : m'.pgforder = m.pgforder := by
    rw [hm', SlabMemCache.lendFrom]
    split <;> rfl
  have hactive : m'.activeObjs = m.activeObjs + 1 := by
    rw [hm', SlabMemCache.lendFrom]
    split <;> rfl
  have hinv : m'.Inv := by
    have hempty' : ∀ t ∈ empty, t.slabNrFree = t.slabNumObjs := fun t ht => h.empty t (hempty t ht)
    have hpart' : ∀ t ∈ part, 0 < t.slabNrFree ∧ t.slabNrFree < t.slabNumObjs :=
      fun t ht => h.part t (hpart t ht)
    have hbalance : m'.activeObjs + slab'.slabNrFree = m.activeObjs + slab.slabNrFree := by omega
    by_cases hisFull : slab'.slabIsFull = true
    · simp only [SlabMemCache.lendFrom, hisFull, if_true] at hm'
      subst hm'
      refine h.replace hperm hperm' rfl rfl hwf' hpaddr hnum hempty' hpart' ?_ rfl hbalance hlen rfl
      intro t ht
      rcases mem_cons.mp ht with rfl | ht
      · exact hfull.mp hisFull
      · exact h.full t ht
    have hne : slab'.slabNrFree ≠ 0 := fun heq => hisFull (hfull.mpr heq)
    simp only [SlabMemCache.lendFrom, hisFull, Bool.false_eq_true, if_false] at hm'
    subst hm'
    refine h.replace hperm hperm' rfl rfl hwf' hpaddr hnum hempty' ?_ h.full rfl hbalance hlen rfl
    intro t ht
    rcases mem_cons.mp ht with rfl | ht
    · omega
    · exact hpart' t ht
  refine ⟨hinv, ?_, ?_, by simpa using hactive⟩
  · intro x
    rw [cover_replace hperm hperm' horder hpaddr, horder]
    exact hfresh x
  intro o
  have hsum := lent_replace hperm hperm' o
  have ho := hlent o
  rw [Option.toList_some, count_singleton]
  omega

lemma Inv.addSlab (h : m.Inv) (hfresh : m.Fresh (pgf :: blocks)) : (m.addSlab pgf).Inv ∧
    (m.addSlab pgf).Fresh blocks ∧ (∀ o, (m.addSlab pgf).lent o = m.lent o) := by
  obtain ⟨hwf, hpaddr, hfree⟩ := slabNew_spec pgf m.pgforder m.objectSz
  have hperm : (m.addSlab pgf).slabs.Perm
      (slabNew pgf m.pgforder m.objectSz :: m.slabs) := List.Perm.refl _
  have hcover : ∀ x, (m.addSlab pgf).cover x = cell pgsize m.pgforder pgf x + m.cover x := by
    intro x
    rw [cover, total_of_perm hperm, hpaddr]
    rfl
  refine ⟨h.join hperm rfl rfl hwf hfree rfl rfl rfl ?_ rfl rfl rfl rfl, ?_, ?_⟩
  · intro x
    have hx := hfresh x
    rw [coverage_cons] at hx
    rw [hpaddr]
    omega
  · intro x
    have hx := hfresh x
    rw [coverage_cons] at hx
    rw [hcover]
    change _ + coverage pgsize m.pgforder blocks x ≤ 1
    omega
  intro o
  rw [lent, total_of_perm hperm, hwf.lent_of_empty hfree, Nat.zero_add]
  rfl

lemma allocateLoop_cons (h : m.Inv)
    (hfresh : m.Fresh blocks) (hlist : m.slabsEmpty = slab :: rest) :
    ∃ obj m', allocateLoop blocks m = some (some obj, m', blocks) ∧
      Lends m (some obj) m' blocks := by
  have hmem : slab ∈ m.slabs := by simp [slabs, hlist]
  have hpos : 0 < slab.slabNrFree := by
    rw [h.empty slab (by simp [hlist])]
    exact h.numObjs_pos (h.wf slab hmem)
  have hperm : m.slabs.Perm (slab :: (rest ++ m.slabsPartial ++ m.slabsFull)) := by
    rw [slabs, hlist]
    exact List.Perm.refl _
  have hlen : m.slabsEmptyLen - 1 = rest.length := by
    rw [h.empty_len, hlist]
    rfl
  obtain ⟨obj, slab', halloc, hlends⟩ := h.lendFrom hfresh hperm
    (fun t ht => by rw [hlist]; exact mem_cons_of_mem _ ht) (fun t ht => ht) hlen hpos
  refine ⟨obj, _, ?_, hlends⟩
  rw [allocateLoop.eq_def]
  simp only [hlist, halloc, Option.bind_eq_bind, Option.bind_some]
  rfl

lemma allocateLoop_spec (h : m.Inv) (hfresh : m.Fresh blocks) :
    ∃ result m' blocks', allocateLoop blocks m = some (result, m', blocks') ∧
      Lends m result m' blocks' := by
  cases hlist : m.slabsEmpty with
  | cons slab rest =>
    obtain ⟨obj, m', hrun, hlends⟩ := allocateLoop_cons h hfresh hlist
    exact ⟨some obj, m', blocks, hrun, hlends⟩
  | nil =>
    cases blocks with
    | nil =>
      refine ⟨none, m, [], ?_, h, hfresh, fun o => rfl, rfl⟩
      rw [allocateLoop.eq_def]
      simp [hlist]
    | cons pgf blocks =>
      obtain ⟨hinv, hfresh', hlent⟩ := h.addSlab hfresh
      have hnew : (m.addSlab pgf).slabsEmpty =
          slabNew pgf m.pgforder m.objectSz :: m.slabsEmpty := rfl
      obtain ⟨obj, m', hrun, hlends⟩ := allocateLoop_cons hinv hfresh' hnew
      refine ⟨some obj, m', blocks, ?_, hlends.inv, hlends.fresh, ?_, hlends.active⟩
      · rw [allocateLoop.eq_def]
        simp [hlist, hrun]
      · intro o
        rw [hlends.lent, hlent]

lemma allocate_spec (h : m.Inv) (hfresh : m.Fresh blocks) :
    ∃ result m' blocks', m.allocate blocks = some (result, m', blocks') ∧
      Lends m result m' blocks' := by
  cases hlist : m.slabsPartial with
  | nil =>
    obtain ⟨result, m', blocks', hrun, hlends⟩ := allocateLoop_spec h hfresh
    refine ⟨result, m', blocks', ?_, hlends⟩
    simp [allocate, hlist, hrun]
  | cons slab rest =>
    have hpos := (h.part slab (by simp [hlist])).1
    have hperm : m.slabs.Perm (slab :: (m.slabsEmpty ++ rest ++ m.slabsFull)) := by
      rw [slabs, hlist]
      exact perm_incomplete m.slabsEmpty m.slabsFull [] rest slab
    obtain ⟨obj, slab', halloc, hlends⟩ := h.lendFrom hfresh hperm (fun t ht => ht)
      (fun t ht => by rw [hlist]; exact mem_cons_of_mem _ ht) h.empty_len hpos
    refine ⟨some obj, _, blocks, ?_, hlends⟩
    simp [allocate, hlist, halloc, SlabMemCache.lendFrom]

/-! ## Returning an object -/

lemma cursorTo_some {slabs before after : List Page}
    (hfound : cursorTo obj slabs = some (before, slab, after)) :
    slabs = before ++ slab :: after ∧ slab.slabContains obj = true := by
  induction slabs generalizing before with
  | nil => simp [cursorTo] at hfound
  | cons head tail ih =>
    rw [cursorTo] at hfound
    split at hfound
    · rename_i hcontains
      cases hfound
      exact ⟨rfl, hcontains⟩
    obtain ⟨⟨before', slab', after'⟩, htail, heq⟩ := Option.map_eq_some_iff.mp hfound
    cases heq
    obtain ⟨hsplit, hcontains⟩ := ih htail
    exact ⟨by rw [hsplit]; rfl, hcontains⟩

lemma cursorTo_none {slabs : List Page} (hnone : cursorTo obj slabs = none) :
    ∀ slab ∈ slabs, slab.slabContains obj = false := by
  induction slabs with
  | nil => simp
  | cons head tail ih =>
    rw [cursorTo] at hnone
    split at hnone
    · simp at hnone
    rename_i hcontains
    rw [Option.map_eq_none_iff] at hnone
    intro slab hslab
    rcases mem_cons.mp hslab with rfl | hslab
    · exact Bool.eq_false_iff.mpr hcontains
    · exact ih hnone slab hslab

lemma slabContains_iff (hwf : slab.Wf pgforder objectSz) : slab.slabContains obj = true ↔
    slab.paddr ≤ obj ∧ obj + objectSz ≤ slab.paddr + pgsize * 2 ^ pgforder := by
  simp [Page.slabContains, hwf.order, hwf.obj_sz]

lemma slabContains_of_lent (hwf : slab.Wf pgforder objectSz)
    (hlent : 0 < slab.lent obj) : slab.slabContains obj = true := by
  have hmem : obj ∈ slab.objects := by
    apply count_pos_iff.mp
    rw [Page.lent] at hlent
    omega
  exact (slabContains_iff hwf).mpr (hwf.bounds_of_mem hmem)

lemma exists_lent (hlent : 0 < m.lent obj) : ∃ slab ∈ m.slabs, 0 < slab.lent obj := by
  by_contra hnone
  have hzero : m.lent obj = 0 := by
    apply sum_eq_zero
    intro n hn
    obtain ⟨slab, hslab, rfl⟩ := mem_map.mp hn
    by_contra hne
    exact hnone ⟨slab, hslab, Nat.pos_of_ne_zero hne⟩
  omega

lemma Inv.lent_of_contains (h : m.Inv) (hperm : m.slabs.Perm (slab :: rest))
    (hcontains : slab.slabContains obj = true) : slab.lent obj = m.lent obj := by
  have hwf := h.wf slab (hperm.mem_iff.mpr (by simp))
  have hbounds := (slabContains_iff hwf).mp hcontains
  have hsize := h.size_pos
  have hcell : cell pgsize m.pgforder slab.paddr obj = 1 :=
    cell_eq_one_iff.mpr ⟨hbounds.1, by omega⟩
  have honce := h.once obj
  rw [cover, total_of_perm hperm, hcell] at honce
  have hrest : (rest.map fun t => t.lent obj).sum = 0 := by
    apply sum_eq_zero
    intro n hn
    obtain ⟨t, ht, rfl⟩ := mem_map.mp hn
    have hle : cell pgsize m.pgforder t.paddr obj ≤
        (rest.map fun t => cell pgsize m.pgforder t.paddr obj).sum :=
      le_sum_of_mem (mem_map.mpr ⟨t, ht, rfl⟩)
    have hcount := (h.wf t (hperm.mem_iff.mpr
      (mem_cons_of_mem _ ht))).count_objects_le_cell h.size_pos obj
    rw [Page.lent]
    omega
  rw [lent, total_of_perm hperm, hrest, Nat.add_zero]

lemma Inv.nrFree_lt (h : m.Inv) (hmem : slab ∈ m.slabs)
    (hlent : 0 < slab.lent obj) : slab.slabNrFree < slab.slabNumObjs := by
  have hwf := h.wf slab hmem
  apply lt_of_le_of_ne hwf.nrFree_le
  intro heq
  rw [hwf.lent_of_empty heq] at hlent
  omega

lemma Inv.activeObjs_pos (h : m.Inv) (hperm : m.slabs.Perm (slab :: rest))
    (hlt : slab.slabNrFree < slab.slabNumObjs) : 0 < m.activeObjs := by
  have hsum := h.active
  rw [total_of_perm hperm, total_of_perm hperm] at hsum
  have hle : (rest.map Page.slabNrFree).sum ≤ (rest.map Page.slabNumObjs).sum := by
    apply sum_le_sum
    intro t ht
    exact (h.wf t (hperm.mem_iff.mpr (mem_cons_of_mem _ ht))).nrFree_le
  omega

/-- What deallocating an object does for the holders of objects. -/
structure Returns (m : SlabMemCache) (obj : Nat) (m' : SlabMemCache) :
    Prop where
  inv : m'.Inv
  lent : ∀ o, m'.lent o + [obj].count o = m.lent o
  active : m'.activeObjs + 1 = m.activeObjs

lemma Inv.leave (h : m.Inv) (hlist : m.slabsEmpty = slab :: rest) : let m' := { m with
      slabsEmpty := rest
      numObjs := m.numObjs - slab.slabNumObjs
      slabsEmptyLen := m.slabsEmptyLen - 1
      totalSlabs := m.totalSlabs - 1 }
    m'.Inv ∧ ∀ o, m'.lent o = m.lent o := by
  intro m'
  have hslabs : m.slabs = slab :: m'.slabs := by
    simp only [slabs, hlist, m']
    rfl
  have hperm : m.slabs.Perm (slab :: m'.slabs) := by rw [hslabs]
  have htotal : ∀ f, m.total f = f slab + m'.total f := total_of_perm hperm
  have hmem : slab ∈ m.slabs := by rw [hslabs]; simp
  have hfree := h.empty slab (by rw [hlist]; simp)
  refine ⟨⟨h.size_pos, h.fits, ?_, ?_, h.part, h.full, ?_, ?_, ?_, ?_, ?_⟩, ?_⟩
  · intro t ht
    exact h.wf t (by rw [hslabs]; exact mem_cons_of_mem _ ht)
  · intro t ht
    exact h.empty t (by rw [hlist]; exact mem_cons_of_mem _ ht)
  · intro x
    have hx := h.once x
    rw [cover, htotal] at hx
    exact le_trans (Nat.le_add_left _ _) hx
  · have hnum := h.num_objs
    rw [htotal] at hnum
    change m.numObjs - slab.slabNumObjs = _
    omega
  · have hactive := h.active
    rw [htotal, htotal] at hactive
    change m.activeObjs + _ = _
    omega
  · change m.slabsEmptyLen - 1 = rest.length
    rw [h.empty_len, hlist]
    rfl
  · change m.totalSlabs - 1 = _
    rw [h.total_slabs, hslabs]
    rfl
  · intro o
    rw [lent, lent, htotal, (h.wf slab hmem).lent_of_empty hfree, Nat.zero_add]

lemma dropEmptySlabs_spec : ∀ (n : Nat) (m : SlabMemCache), m.Inv → n ≤ m.slabsEmpty.length →
    ∃ m', dropEmptySlabs n m = some m' ∧ m'.Inv ∧
      (∀ o, m'.lent o = m.lent o) ∧ m'.activeObjs = m.activeObjs := by
  intro n
  induction n with
  | zero => exact fun m h _ => ⟨m, rfl, h, fun _ => rfl, rfl⟩
  | succ n ih =>
    intro m h hn
    cases hlist : m.slabsEmpty with
    | nil => simp [hlist] at hn
    | cons slab rest =>
      obtain ⟨hinv, hlent⟩ := h.leave hlist
      rw [hlist, length_cons] at hn
      obtain ⟨m', hrun, hinv', hlent', hactive⟩ := ih _ hinv (Nat.le_of_succ_le_succ hn)
      refine ⟨m', ?_, hinv', fun o => (hlent' o).trans (hlent o), hactive⟩
      rw [dropEmptySlabs, hlist]
      exact hrun

lemma Inv.maybeShrink (h : m.Inv) : ∃ m', m.maybeShrinkEmptySlabs = some m' ∧ m'.Inv ∧
    (∀ o, m'.lent o = m.lent o) ∧ m'.activeObjs = m.activeObjs := by
  by_cases hlen : m.slabsEmptyLen > maxEmptySlabs
  · have henough : emptySlabsBatchCount ≤ m.slabsEmpty.length := by
      rw [h.empty_len] at hlen
      simp only [maxEmptySlabs, emptySlabsBatchCount] at hlen ⊢
      omega
    obtain ⟨m', hrun, hspec⟩ := dropEmptySlabs_spec _ m h henough
    exact ⟨m', by rw [maybeShrinkEmptySlabs, if_pos hlen, hrun], hspec⟩
  · exact ⟨m, by rw [maybeShrinkEmptySlabs, if_neg hlen], h, fun _ => rfl, rfl⟩

/-- The slab that lends the object takes it back and goes where its free count
says: here the counters and lists of any cache that differs in this slab
only. -/
lemma Inv.returns (h : m.Inv) (hperm : m.slabs.Perm (slab :: rest)) (hlent : 0 < slab.lent obj)
    (hperm' : m'.slabs.Perm (slab.slabDeallocate obj :: rest)) (horder : m'.pgforder = m.pgforder)
    (hsz : m'.objectSz = m.objectSz) (hempty : ∀ t ∈ m'.slabsEmpty, t.slabNrFree = t.slabNumObjs)
    (hpart : ∀ t ∈ m'.slabsPartial, 0 < t.slabNrFree ∧ t.slabNrFree < t.slabNumObjs)
    (hfull : ∀ t ∈ m'.slabsFull, t.slabNrFree = 0) (hnumObjs : m'.numObjs = m.numObjs)
    (hactive : m'.activeObjs = m.activeObjs - 1) (hlen : m'.slabsEmptyLen = m'.slabsEmpty.length)
    (htotal : m'.totalSlabs = m.totalSlabs) : Returns m obj m' := by
  have hmem : slab ∈ m.slabs := hperm.mem_iff.mpr (by simp)
  have hpos := h.activeObjs_pos hperm (h.nrFree_lt hmem hlent)
  obtain ⟨hwf, hcount⟩ := (h.wf slab hmem).slabDeallocate hlent
  have hnr : (slab.slabDeallocate obj).slabNrFree = slab.slabNrFree + 1 := rfl
  refine ⟨h.replace hperm hperm' horder hsz hwf rfl rfl hempty hpart hfull
    hnumObjs (by omega) hlen htotal, ?_, by omega⟩
  intro o
  have hsum := lent_replace hperm hperm' o
  have ho := hcount o
  rw [count_singleton]
  omega

lemma slabIsEmpty_iff : slab.slabIsEmpty = true ↔ slab.slabNrFree = slab.slabNumObjs := by
  rw [Page.slabIsEmpty, beq_iff_eq]
  exact eq_comm

lemma Inv.returns_toEmpty {full : List Page} (h : m.Inv)
    (hperm : m.slabs.Perm (slab :: (m.slabsEmpty ++ part ++ full)))
    (hpart : ∀ t ∈ part, t ∈ m.slabsPartial) (hfull : ∀ t ∈ full, t ∈ m.slabsFull)
    (hlent : 0 < slab.lent obj) (hisEmpty : (slab.slabDeallocate obj).slabIsEmpty = true) :
    ∃ m', { m with
        activeObjs := m.activeObjs - 1
        slabsPartial := part
        slabsFull := full }.toEmpty (slab.slabDeallocate obj) = some m' ∧
      Returns m obj m' := by
  have hreturns : Returns m obj { m with
      activeObjs := m.activeObjs - 1
      slabsPartial := part
      slabsFull := full
      slabsEmpty := slab.slabDeallocate obj :: m.slabsEmpty
      slabsEmptyLen := m.slabsEmptyLen + 1 } := by
    refine h.returns hperm hlent (List.Perm.refl _) rfl rfl ?_ (fun t ht => h.part t (hpart t ht))
      (fun t ht => h.full t (hfull t ht)) rfl rfl ?_ rfl
    · intro t ht
      rcases mem_cons.mp ht with rfl | ht
      · exact slabIsEmpty_iff.mp hisEmpty
      · exact h.empty t ht
    · exact congrArg Nat.succ h.empty_len
  obtain ⟨m', hrun, hinv, hlent', hactive⟩ := hreturns.inv.maybeShrink
  refine ⟨m', hrun, hinv, fun o => ?_, ?_⟩
  · rw [hlent']
    exact hreturns.lent o
  · rw [hactive]
    exact hreturns.active

lemma Inv.returns_toPartial {full : List Page} (h : m.Inv)
    (hperm : m.slabs.Perm (slab :: (m.slabsEmpty ++ rest ++ full)))
    (hperm' : part.Perm (slab.slabDeallocate obj :: rest))
    (hpart : ∀ t ∈ rest, t ∈ m.slabsPartial) (hfull : ∀ t ∈ full, t ∈ m.slabsFull)
    (hlent : 0 < slab.lent obj) (hisEmpty : ¬ (slab.slabDeallocate obj).slabIsEmpty = true) :
    Returns m obj { m with
      activeObjs := m.activeObjs - 1
      slabsPartial := part
      slabsFull := full } := by
  have hmem : slab ∈ m.slabs := hperm.mem_iff.mpr (by simp)
  have hle := ((h.wf slab hmem).slabDeallocate hlent).1.nrFree_le
  refine h.returns hperm hlent ?_ rfl rfl h.empty ?_
    (fun t ht => h.full t (hfull t ht)) rfl rfl h.empty_len rfl
  · have hmove := (hperm'.append_left m.slabsEmpty).append_right full
    exact hmove.trans (perm_incomplete m.slabsEmpty full [] rest _)
  intro t ht
  rcases mem_cons.mp (hperm'.mem_iff.mp ht) with rfl | ht
  · have hne : (slab.slabDeallocate obj).slabNrFree ≠ (slab.slabDeallocate obj).slabNumObjs :=
      fun heq => hisEmpty (slabIsEmpty_iff.mpr heq)
    exact ⟨Nat.succ_pos _, lt_of_le_of_ne hle hne⟩
  · exact h.part t (hpart t ht)

lemma deallocate_spec (h : m.Inv) (hlent : 0 < m.lent obj) :
    ∃ m', m.deallocate obj = some m' ∧ Returns m obj m' := by
  cases hpartial : cursorTo obj m.slabsPartial with
  | some found =>
    obtain ⟨before, slab, after⟩ := found
    obtain ⟨hsplit, hcontains⟩ := cursorTo_some hpartial
    have hperm : m.slabs.Perm (slab :: (m.slabsEmpty ++ (before ++ after) ++ m.slabsFull)) := by
      rw [slabs, hsplit]
      exact perm_incomplete m.slabsEmpty m.slabsFull before after slab
    have hpart : ∀ t ∈ before ++ after, t ∈ m.slabsPartial := by
      rw [hsplit]
      exact ((sublist_cons_self slab after).append_left before).subset
    rw [← h.lent_of_contains hperm hcontains] at hlent
    by_cases hisEmpty : (slab.slabDeallocate obj).slabIsEmpty = true
    · obtain ⟨m', hrun, hreturns⟩ := h.returns_toEmpty hperm hpart (fun t ht => ht) hlent hisEmpty
      refine ⟨m', ?_, hreturns⟩
      simp only [deallocate, hpartial, hisEmpty, if_true]
      exact hrun
    refine ⟨_, ?_, h.returns_toPartial hperm perm_middle hpart (fun t ht => ht) hlent hisEmpty⟩
    simp [deallocate, hpartial, hisEmpty]
  | none =>
    cases hfull : cursorTo obj m.slabsFull with
    | some found =>
      obtain ⟨before, slab, after⟩ := found
      obtain ⟨hsplit, hcontains⟩ := cursorTo_some hfull
      have hperm : m.slabs.Perm (slab ::
          (m.slabsEmpty ++ m.slabsPartial ++ (before ++ after))) := by
        rw [slabs, hsplit]
        exact perm_full m.slabsEmpty m.slabsPartial before after slab
      have hrest : ∀ t ∈ before ++ after, t ∈ m.slabsFull := by
        rw [hsplit]
        exact ((sublist_cons_self slab after).append_left before).subset
      rw [← h.lent_of_contains hperm hcontains] at hlent
      by_cases hisEmpty : (slab.slabDeallocate obj).slabIsEmpty = true
      · obtain ⟨m', hrun, hreturns⟩ := h.returns_toEmpty hperm (fun t ht => ht) hrest hlent hisEmpty
        refine ⟨m', ?_, hreturns⟩
        simp only [deallocate, hpartial, hfull, hisEmpty, if_true]
        exact hrun
      refine ⟨_, ?_, h.returns_toPartial hperm (List.Perm.refl _)
        (fun t ht => ht) hrest hlent hisEmpty⟩
      simp [deallocate, hpartial, hfull, hisEmpty]
    | none =>
      -- The slab that lends the object is partial or full.
      exfalso
      obtain ⟨slab, hmem, hpos⟩ := exists_lent hlent
      have hwf := h.wf slab hmem
      have hcontains := slabContains_of_lent hwf hpos
      have hlt := h.nrFree_lt hmem hpos
      simp only [slabs, mem_append] at hmem
      rcases hmem with (hmem | hmem) | hmem
      · rw [h.empty slab hmem] at hlt
        omega
      · rw [cursorTo_none hpartial slab hmem] at hcontains
        simp at hcontains
      · rw [cursorTo_none hfull slab hmem] at hcontains
        simp at hcontains

end SlabMemCache
end Redwing.Slab
