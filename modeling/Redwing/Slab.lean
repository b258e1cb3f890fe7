/-
The slab allocator: slabs, the memory cache with its three lists, the array
caches, and the two calls `allocate_obj` and `deallocate_obj`.  The blocks that
the buddy allocator returns during a call are part of the call, in the order
in which they are requested.  The result `none` of an operation is a panic.
-/
import Redwing.Buddy
import Redwing.Machine

namespace Redwing.Slab

open Buddy

def maxEmptySlabs : Nat := 8

def emptySlabsBatchCount : Nat := 4

def maxNcpu : Nat := 8

def sizeOfSlabFreeObj : Nat := 8

def alignUp (val align : Nat) : Nat := (val + (align - 1)) &&& (2 ^ 64 - 1 - (align - 1))

def nextPowerOfTwo (n : Nat) : Nat :=
  if n ≤ 1 then 1 else 2 ^ (Nat.log2 (n - 1) + 1)

def pgforderForSlab (objectSize minObjCnt : Nat) : Nat :=
  let pages := (objectSize * minObjCnt + pgsize - 1) / pgsize
  min (Nat.log2 (nextPowerOfTwo pages)) 5

/-- The fields of a page descriptor that make it a slab. -/
structure Page where
  paddr : Nat
  pgfOrder : Nat
  slabObjSz : Nat
  slabFreeList : List Nat
  slabNrFree : Nat
  slabNumObjs : Nat
deriving DecidableEq

/-- The loop of `slab_new`, which links one object after the other.  `fuel` is
a bound on the number of objects that fit. -/
def linkObjects : Nat → Nat → Nat → Nat → List Nat × Nat → List Nat × Nat
  | 0, _, _, _, linked => linked
  | fuel + 1, endAddr, objectSz, object, (list, freeNr) =>
    if object + objectSz ≤ endAddr then
      linkObjects fuel endAddr objectSz (object + objectSz) (object :: list, freeNr + 1)
    else (list, freeNr)

/-- `slab_new`, given the block that the buddy allocator returns. -/
def slabNew (pgf pgforder objectSz : Nat) : Page :=
  let pgframeSz := pgsize * 2 ^ pgforder
  let (list, freeNr) := linkObjects (pgframeSz / objectSz) (pgf + pgframeSz) objectSz pgf ([], 0)
  { paddr := pgf
    pgfOrder := pgforder
    slabObjSz := objectSz
    slabFreeList := list
    slabNrFree := freeNr
    slabNumObjs := freeNr }

namespace Page

def slabAllocate (slab : Page) : Option (Nat × Page) :=
  match slab.slabFreeList with
  | node :: rest =>
    some (node, { slab with slabFreeList := rest, slabNrFree := slab.slabNrFree - 1 })
  | [] => none

def slabDeallocate (slab : Page) (obj : Nat) : Page :=
  { slab with
    slabNrFree := slab.slabNrFree + 1
    slabFreeList := obj :: slab.slabFreeList }

def slabIsFull (slab : Page) : Bool := slab.slabFreeList.isEmpty

def slabIsEmpty (slab : Page) : Bool := slab.slabNumObjs == slab.slabNrFree

def slabContains (slab : Page) (obj : Nat) : Bool :=
  let pgfSz := pgsize * 2 ^ slab.pgfOrder
  obj ≥ slab.paddr && obj + slab.slabObjSz ≤ slab.paddr + pgfSz

end Page

structure SlabMemCache where
  pgforder : Nat
  objectSz : Nat
  numObjs : Nat
  activeObjs : Nat
  slabsEmpty : List Page
  slabsFull : List Page
  slabsPartial : List Page
  slabsEmptyLen : Nat
  totalSlabs : Nat
deriving DecidableEq

namespace SlabMemCache

def new (objectSz : Nat) : SlabMemCache where
  pgforder := pgforderForSlab objectSz 8
  objectSz := objectSz
  numObjs := 0
  activeObjs := 0
  slabsEmpty := []
  slabsFull := []
  slabsPartial := []
  slabsEmptyLen := 0
  totalSlabs := 0

def addSlab (m : SlabMemCache) (pgf : Nat) : SlabMemCache :=
  let newSlab := slabNew pgf m.pgforder m.objectSz
  { m with
    slabsEmpty := newSlab :: m.slabsEmpty
    slabsEmptyLen := m.slabsEmptyLen + 1
    totalSlabs := m.totalSlabs + 1
    numObjs := m.numObjs + newSlab.slabNumObjs }

/-- The loop of `allocate`, steps 2 and 3.  When `blocks` is used up, the
buddy allocator is out of memory. -/
def allocateLoop : List Nat → SlabMemCache → Option (Option Nat × SlabMemCache × List Nat)
  | blocks, m =>
    match m.slabsEmpty with
    | slab :: rest => do
        let m := { m with slabsEmpty := rest, slabsEmptyLen := m.slabsEmptyLen - 1 }
        let (obj, slab) ← slab.slabAllocate
        let m :=
          if slab.slabIsFull then { m with slabsFull := slab :: m.slabsFull }
          else { m with slabsPartial := slab :: m.slabsPartial }
        some (some obj, { m with activeObjs := m.activeObjs + 1 }, blocks)
    | [] =>
      match blocks with
      | [] => some (none, m, [])
      | pgf :: blocks => allocateLoop blocks (m.addSlab pgf)

def allocate (m : SlabMemCache) (blocks : List Nat) :
    Option (Option Nat × SlabMemCache × List Nat) :=
  match m.slabsPartial with
  | slab :: rest => do
      let (obj, slab) ← slab.slabAllocate
      let m :=
        if slab.slabIsFull then { m with slabsPartial := rest, slabsFull := slab :: m.slabsFull }
        else { m with slabsPartial := slab :: rest }
      some (some obj, { m with activeObjs := m.activeObjs + 1 }, blocks)
  | [] => allocateLoop blocks m

/-- The rounds of the loop of `maybe_shrink_empty_slabs`.  The block of the
slab goes back to the buddy allocator. -/
def dropEmptySlabs : Nat → SlabMemCache → Option SlabMemCache
  | 0, m => some m
  | n + 1, m =>
    match m.slabsEmpty with
    | slab :: rest =>
      dropEmptySlabs n { m with
        slabsEmpty := rest
        numObjs := m.numObjs - slab.slabNumObjs
        slabsEmptyLen := m.slabsEmptyLen - 1
        totalSlabs := m.totalSlabs - 1 }
    | [] => none

def maybeShrinkEmptySlabs (m : SlabMemCache) : Option SlabMemCache :=
  if m.slabsEmptyLen > maxEmptySlabs then dropEmptySlabs emptySlabsBatchCount m
  else some m

def cursorTo (obj : Nat) : List Page → Option (List Page × Page × List Page)
  | [] => none
  | slab :: rest =>
    if slab.slabContains obj then some ([], slab, rest)
    else (cursorTo obj rest).map fun found => (slab :: found.1, found.2.1, found.2.2)

/-- A slab that got its last object back becomes an empty one. -/
def toEmpty (m : SlabMemCache) (slab : Page) : Option SlabMemCache :=
  { m with
    slabsEmpty := slab :: m.slabsEmpty
    slabsEmptyLen := m.slabsEmptyLen + 1 }.maybeShrinkEmptySlabs

def deallocate (m : SlabMemCache) (obj : Nat) : Option SlabMemCache :=
  match cursorTo obj m.slabsPartial with
  | some (before, slab, after) =>
    let m := { m with activeObjs := m.activeObjs - 1 }
    let slab := slab.slabDeallocate obj
    if slab.slabIsEmpty then { m with slabsPartial := before ++ after }.toEmpty slab
    else some { m with slabsPartial := before ++ slab :: after }
  | none =>
    match cursorTo obj m.slabsFull with
    | some (before, slab, after) =>
      let m := { m with activeObjs := m.activeObjs - 1, slabsFull := before ++ after }
      let slab := slab.slabDeallocate obj
      if slab.slabIsEmpty then m.toEmpty slab
      else some { m with slabsPartial := slab :: m.slabsPartial }
    | none => some m

def slabs (m : SlabMemCache) : List Page := m.slabsEmpty ++ m.slabsPartial ++ m.slabsFull

end SlabMemCache

structure ArrayCache where
  limit : Nat
  batchcount : Nat
  list : List Nat
  len : Nat
deriving DecidableEq

namespace ArrayCache

def new (limit batchcount : Nat) : ArrayCache where
  limit := limit
  batchcount := batchcount
  list := []
  len := 0

def placeObj (ac : ArrayCache) (obj : Nat) : ArrayCache :=
  { ac with list := obj :: ac.list, len := ac.len + 1 }

def fetchObj (ac : ArrayCache) : Option Nat × ArrayCache :=
  match ac.list with
  | obj :: rest => (some obj, { ac with list := rest, len := ac.len - 1 })
  | [] => (none, ac)

def growLoop : Nat → ArrayCache → SlabMemCache → List Nat →
    Option (ArrayCache × SlabMemCache × List Nat)
  | 0, ac, cache, blocks => some (ac, cache, blocks)
  | n + 1, ac, cache, blocks => do
      let (obj, cache, blocks) ← cache.allocate blocks
      match obj with
      | some obj => growLoop n (ac.placeObj obj) cache blocks
      | none => some (ac, cache, blocks)

def growFromCache (ac : ArrayCache) (cache : SlabMemCache) (blocks : List Nat) :
    Option (Bool × ArrayCache × SlabMemCache × List Nat) := do
  let len := ac.len
  let (ac, cache, blocks) ← growLoop ac.batchcount ac cache blocks
  some (len != ac.len, ac, cache, blocks)

def shrinkLoop : Nat → ArrayCache → SlabMemCache → Option (ArrayCache × SlabMemCache)
  | 0, ac, cache => some (ac, cache)
  | n + 1, ac, cache => do
      match ac.fetchObj with
      | (some obj, ac) =>
        let cache ← cache.deallocate obj
        shrinkLoop n ac cache
      | (none, ac) => some (ac, cache)

def shrinkToCache (ac : ArrayCache) (cache : SlabMemCache) : Option (ArrayCache × SlabMemCache) :=
  shrinkLoop ac.batchcount ac cache

def transferObjects (dst src : ArrayCache) : Nat → ArrayCache × ArrayCache
  | 0 => (dst, src)
  | n + 1 =>
    match src.fetchObj with
    | (some obj, src) => transferObjects (dst.placeObj obj) src n
    | (none, src) => (dst, src)

end ArrayCache

/-- `SlabAllocator`, with the objects that its callers hold. -/
structure State where
  memCache : SlabMemCache
  perCpuArrayCache : Nat → ArrayCache
  sharedArrayCache : ArrayCache
  held : List Nat
  panicked : Bool

inductive Action
  | allocateObj (cpu : Nat) (blocks : List Nat)
  | deallocateObj (cpu obj : Nat)
deriving DecidableEq

namespace State

def computeBatchcountAlt (objSize : Nat) : Nat :=
  let n := pgsize / objSize
  min (max (1 + n / 8) 2) 32

def new (objectSize align : Nat) : Option State :=
  let objectSize := alignUp objectSize align
  if objectSize > pgsize * 2 then none
  else if objectSize < sizeOfSlabFreeObj then none
  else
    let percpuBatchcount := computeBatchcountAlt objectSize
    let percpuLimit := percpuBatchcount * 4
    let sharedLimit := min (max (percpuLimit * maxNcpu) 16) 256
    let sharedBatchcount := min (max (percpuBatchcount * maxNcpu) 4) 64
    some
      { memCache := SlabMemCache.new objectSize
        perCpuArrayCache := fun _ => ArrayCache.new percpuLimit percpuBatchcount
        sharedArrayCache := ArrayCache.new sharedLimit sharedBatchcount
        held := []
        panicked := false }

section

variable (s : State)

def setLocal (cpu : Nat) (ac : ArrayCache) : State :=
  { s with perCpuArrayCache := Function.update s.perCpuArrayCache cpu ac }

def hold (obj : Option Nat) : State := { s with held := obj.toList ++ s.held }

def refillLocal (cpu : Nat) : State :=
  let localAc := s.perCpuArrayCache cpu
  let (localAc, sharedAc) := localAc.transferObjects s.sharedArrayCache localAc.batchcount
  let (obj, localAc) := localAc.fetchObj
  ({ s with sharedArrayCache := sharedAc }.setLocal cpu localAc).hold obj

def allocateObj (cpu : Nat) (blocks : List Nat) : Option State := do
  match (s.perCpuArrayCache cpu).fetchObj with
  | (some obj, localAc) => some ((s.setLocal cpu localAc).hold (some obj))
  | (none, _) =>
    if s.sharedArrayCache.list.isEmpty then
      let (grown, sharedAc, memCache, _) ← s.sharedArrayCache.growFromCache s.memCache blocks
      let s := { s with memCache := memCache, sharedArrayCache := sharedAc }
      if grown then some (s.refillLocal cpu)
      else some s
    else some (s.refillLocal cpu)

def deallocateObj (cpu obj : Nat) : Option State := do
  let s := { s with held := s.held.erase obj }
  let localAc := (s.perCpuArrayCache cpu).placeObj obj
  if localAc.len < localAc.limit then some (s.setLocal cpu localAc)
  else
    let (sharedAc, localAc) := s.sharedArrayCache.transferObjects localAc localAc.batchcount
    let s := s.setLocal cpu localAc
    if sharedAc.len < sharedAc.limit then some { s with sharedArrayCache := sharedAc }
    else
      let (sharedAc, memCache) ← sharedAc.shrinkToCache s.memCache
      some { s with sharedArrayCache := sharedAc, memCache := memCache }

def orPanic (result : Option State) : State := result.getD { s with panicked := true }

end

/-- Callers give back only objects they hold. -/
def step (ncpu : Nat) (s : State) (action : Action) : Option State :=
  if s.panicked then none
  else
    match action with
    | .allocateObj cpu blocks =>
      if cpu < ncpu then some (s.orPanic (s.allocateObj cpu blocks))
      else none
    | .deallocateObj cpu obj =>
      if cpu < ncpu ∧ obj ∈ s.held then some (s.orPanic (s.deallocateObj cpu obj))
      else none

/-- The buddy allocator returns blocks that meet neither each other nor a block
that is a slab already. -/
def freshBlocks (s : State) : Action → Prop
  | .allocateObj _ blocks =>
    let order := s.memCache.pgforder
    ((blocks ++ s.memCache.slabs.map Page.paddr).map fun paddr =>
      (order, paddr)).Pairwise (AlignedBlocks.Apart pgsize)
  | .deallocateObj _ _ => True

instance (s : State) (action : Action) : Decidable (s.freshBlocks action) :=
  match action with
  | .allocateObj _ _ => inferInstanceAs (Decidable (List.Pairwise _ _))
  | .deallocateObj _ _ => inferInstanceAs (Decidable True)

end State

/-- Any number of CPUs that share one slab allocator.  A call is one step: it
works on the cache of its CPU with interrupts off and on everything else under
the lock of the shared cache. -/
def machine (ncpu objectSize align : Nat) : Machine State Action where
  start := fun s => State.new objectSize align = some s
  step := State.step ncpu

end Redwing.Slab
