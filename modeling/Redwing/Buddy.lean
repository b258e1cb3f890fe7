/-
The buddy allocator: page flags, free areas, splitting and merging.  A page
descriptor is named by the physical address of its page.  The result `none`
of an operation is a failed assertion or another panic, so an operation that
can itself return nothing has a nested option.
-/
import Redwing.AlignedBlocks

namespace Redwing.Buddy

open Function AlignedBlocks

instance lawfulBEqBlock : LawfulBEq (Nat × Nat) := inferInstance

def pgsize : Nat := 4096

def maxOrder : Nat := 9

/-- The part of a page descriptor the buddy allocator uses.  `linked` is
`link.is_linked()`. -/
structure Page where
  buddyFlags : BitVec 8
  linked : Bool
deriving DecidableEq

namespace Page

def new : Page where
  buddyFlags := 0#8
  linked := false

section

variable (page : Page)

def isFree : Bool := page.buddyFlags &&& 0x80#8 != 0#8

def setFree : Page := { page with buddyFlags := page.buddyFlags ||| 0x80#8 }

def clearFree : Page := { page with buddyFlags := page.buddyFlags &&& ~~~0x80#8 }

def pgfOrder : BitVec 8 := page.buddyFlags &&& ~~~0x80#8

def setPgfOrder (order : BitVec 8) : Page :=
  { page with buddyFlags := (page.buddyFlags &&& 0x80#8) ||| order }

def setLinked (linked : Bool) : Page := { page with linked := linked }

end
end Page

structure FreeArea where
  /-- The heads of the free blocks, front first. -/
  list : List Nat
  nrFree : Nat
deriving DecidableEq

/-- `BuddyAllocatorImpl`, with the page descriptors it writes to. -/
structure Allocator where
  freeArea : Nat → FreeArea
  freeSize : Nat
  startAddress : Nat
  pages : Nat → Page

namespace Allocator

/-- `BuddyAllocatorImpl::default` over fresh page descriptors. -/
def default : Allocator where
  freeArea := fun _ => ⟨[], 0⟩
  freeSize := 0
  startAddress := 0
  pages := fun _ => Page.new

def blockSize (order : Nat) : Nat := pgsize * 2 ^ order

/-- `paddr_to_page`, which asserts that the address is page aligned. -/
def paddrToPage (paddr : Nat) : Option Nat :=
  if paddr % pgsize = 0 then some paddr else none

section

variable (b : Allocator)

@[simps freeArea freeSize startAddress]
def setPage (addr : Nat) (page : Page) : Allocator := { b with pages := update b.pages addr page }

@[simps freeSize startAddress pages] def setArea (order : Nat) (area : FreeArea) : Allocator :=
  { b with freeArea := update b.freeArea order area }

def pushFront (order pgf : Nat) : Option Allocator :=
  let page := b.pages pgf
  let area := b.freeArea order
  if page.isFree || page.linked then none
  else
    some ((b.setPage pgf (page.setFree.setLinked true)).setArea order
      ⟨pgf :: area.list, area.nrFree + 1⟩)

def popFront (order : Nat) : Option (Option Nat × Allocator) :=
  let area := b.freeArea order
  match area.list with
  | [] => some (none, b)
  | pgf :: rest =>
    let page := b.pages pgf
    if page.isFree then
      some (some pgf, (b.setPage pgf (page.clearFree.setLinked false)).setArea order
          ⟨rest, area.nrFree - 1⟩)
    else none

def areaExpand (order : Nat) : Option (Option (Nat × Nat) × Allocator) := do
  if order = 0 then none
  else
    let size := 1 <<< (order + 12)
    let (popped, b) ← b.popFront order
    match popped with
    | none => some (none, b)
    | some pgf1 =>
      let pgf2 ← paddrToPage (pgf1 + size / 2)
      let b := b.setPage pgf1 (b.pages pgf1).clearFree
      let b := b.setPage pgf2 (b.pages pgf2).clearFree
      some (some (pgf1, pgf2), b)

end

def getBuddyAddr (startAddress addr order : Nat) : Nat :=
  ((addr - startAddress) ^^^ (1 <<< (order + 12))) + startAddress

/-- `FreeArea::merge`.  Removing a page that is not in the list counts as a
panic. -/
def areaMerge (b : Allocator) (order : Nat) : Option (Option Nat × Allocator) := do
  let area := b.freeArea order
  match area.list with
  | [] => some (none, b)
  | headAddr :: _ =>
    let buddyPgf ← paddrToPage (getBuddyAddr b.startAddress headAddr order)
    if (b.pages buddyPgf).pgfOrder != BitVec.ofNat 8 order || !(b.pages buddyPgf).isFree then
      some (none, b)
    else
      let pgf1 ← paddrToPage headAddr
      let pgf2 := buddyPgf
      if pgf1 ∈ area.list ∧ pgf2 ∈ area.list.erase pgf1 then
        let b := b.setArea order ⟨(area.list.erase pgf1).erase pgf2, area.nrFree - 2⟩
        let b := b.setPage pgf1 ((b.pages pgf1).clearFree.setLinked false)
        let b := b.setPage pgf2 ((b.pages pgf2).clearFree.setLinked false)
        some (some (if pgf1 < pgf2 then pgf1 else pgf2), b)
      else none

/-- `BuddyAllocatorImpl::expand`.  The loop and the recursion share the fuel,
which `expand_spec` shows to be enough. -/
def expandFuel : Nat → Nat → Allocator → Option (Bool × Allocator)
  | 0, _, _ => none
  | fuel + 1, order, b => do
      if order = 0 then none
      else if order ≥ maxOrder then some (false, b)
      else
        let (blocks, b) ← b.areaExpand order
        match blocks with
        | some (block1, block2) =>
          let lower := BitVec.ofNat 8 (order - 1)
          let b := b.setPage block1 ((b.pages block1).setPgfOrder lower)
          let b := b.setPage block2 ((b.pages block2).setPgfOrder lower)
          let b ← b.pushFront (order - 1) block2
          let b ← b.pushFront (order - 1) block1
          some (true, b)
        | none =>
          let (expanded, b) ← expandFuel fuel (order + 1) b
          if expanded then expandFuel fuel order b
          else some (false, b)

def expand (b : Allocator) (order : Nat) : Option (Bool × Allocator) :=
  expandFuel (maxOrder + 2) order b

def mergeLoop : Nat → Nat → Allocator → Option Allocator
  | 0, _, b => some b
  | n + 1, order, b => do
      let (merged, b) ← b.areaMerge order
      match merged with
      | some pgf =>
        let b := b.setPage pgf ((b.pages pgf).setPgfOrder (BitVec.ofNat 8 order + 1))
        let b ← b.pushFront (order + 1) pgf
        mergeLoop n (order + 1) b
      | none => some b

def merge (b : Allocator) (order : Nat) : Option Allocator :=
  mergeLoop (maxOrder - 1 - order) order b

def allocByOrder (b : Allocator) (order : Nat) : Option (Option Nat × Allocator) := do
  if order ≥ maxOrder then some (none, b)
  else
    let (available, b) ←
      if (b.freeArea order).list.isEmpty then b.expand (order + 1)
      else some (true, b)
    if available then
      let (popped, b) ← b.popFront order
      let pgf ← popped
      let b := { b with freeSize := b.freeSize - blockSize order }
      if (b.pages pgf).isFree || (b.pages pgf).linked then none
      else some (some pgf, b)
    else some (none, b)

def freeByOrder (b : Allocator) (ptr order : Nat) : Option Allocator := do
  if order ≥ maxOrder then none
  else
    let pgf ← paddrToPage ptr
    if (b.pages pgf).isFree || (b.pages pgf).linked then none
    else
      let b := b.setPage pgf ((b.pages pgf).setPgfOrder (BitVec.ofNat 8 order))
      let b ← b.pushFront order pgf
      let b := { b with freeSize := b.freeSize + blockSize order }
      b.merge order

/-- The inner loop of `BuddyAllocatorImpl::init`, which returns the address it
stops at.  One round moves up at least one page, so the number of pages in the
range is enough fuel. -/
def initArea : Nat → Nat → Nat → Nat → Allocator → Option (Nat × Allocator)
  | 0, _, _, addr, b => some (addr, b)
  | fuel + 1, order, endAddr, addr, b =>
    if addr + blockSize order ≤ endAddr then do
      let pg ← paddrToPage addr
      let b := b.setPage pg ((b.pages pg).setPgfOrder (BitVec.ofNat 8 order))
      let b ← b.pushFront order pg
      initArea fuel order endAddr (addr + blockSize order) b
    else some (addr, b)

/-- The loop of `BuddyAllocatorImpl::init` over the orders below `n`, from the
largest one down. -/
def initOrders : Nat → Nat → Nat → Allocator → Option Allocator
  | 0, _, _, b => some b
  | order + 1, endAddr, saddr, b => do
      let (addr, b) ← initArea ((endAddr - saddr) / pgsize) order endAddr saddr b
      initOrders order endAddr addr
        { b with freeSize := b.freeSize + (addr - saddr) }

def init (baseAddr endAddr : Nat) : Option Allocator :=
  initOrders maxOrder endAddr baseAddr
    { default with startAddress := baseAddr }

end Allocator
end Redwing.Buddy
