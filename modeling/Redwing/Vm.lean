/-
The address spaces of `mmu/vm.rs` and `mmu/vm_area.rs`: segments, the lazily
grown user space, the copy that `fork` makes, and the drop that gives every
page back.  The machine runs any number of them over one page allocator.
-/
import Redwing.Machine
import Redwing.PageTable

namespace Redwing.Vm

open Function Walks

/-- `PageAlignedUsize`. -/
structure PageAligned where
  val : Nat
  aligned : val % 4096 = 0
deriving DecidableEq

def pgRoundUp (addr : Nat) : PageAligned := ⟨(addr + 4096 - 1) / 4096 * 4096, Nat.mul_mod_left _ _⟩

def pgRoundDown (addr : Nat) : PageAligned := ⟨addr / 4096 * 4096, Nat.mul_mod_left _ _⟩

def userBaseVaddr : Nat := 0x300000000
def userEndVaddr : Nat := 0x340000000

structure VmArea where
  va : PageAligned
  size : PageAligned
  perm : EntryPerm
deriving DecidableEq

namespace VmArea

def startVa (area : VmArea) : Nat := area.va.val
def endVa (area : VmArea) : Nat := area.va.val + area.size.val

def contains (area : VmArea) (va : Nat) : Bool := decide (area.va.val ≤ va ∧ va < area.endVa)

def overlaps (area other : VmArea) : Bool :=
  decide (area.startVa < other.endVa ∧ other.startVa < area.endVa)

end VmArea

/-- `VmAreaList::add`; `none` is its error. -/
def addArea (list : List VmArea) (area : VmArea) : Option (List VmArea) :=
  if list.any area.overlaps then none else some (list ++ [area])

def removeByVa (list : List VmArea) (va : Nat) : Option (VmArea × List VmArea) :=
  match list.find? fun area => area.contains va with
  | none => none
  | some area => some (area, list.eraseP fun area => area.contains va)

structure VMInner where
  pgTable : PageTable
  userSpaceSize : Nat
  areaList : List VmArea

/-- An address space together with the page allocator. -/
structure AddrSpace where
  vm : VMInner
  heap : Heap

namespace AddrSpace

section

variable (a : AddrSpace)

def space : Space := { table := a.vm.pgTable, heap := a.heap }

def put (s : Space) : AddrSpace := { vm := { a.vm with pgTable := s.table }, heap := s.heap }

def setSize (size : Nat) : AddrSpace := { a with vm := { a.vm with userSpaceSize := size } }

def setAreas (list : List VmArea) : AddrSpace := { a with vm := { a.vm with areaList := list } }

def unmapArea (area : VmArea) : AddrSpace := a.put (vunmap area.va.val area.size.val a.space)

end
end AddrSpace

section

variable (src : PageSource) (refused : Refusals)

/-- `VMInner::uvalloc`; `none` is the failed assertion on the permission of a
lazy growth, or a panic of `vmap`. -/
def uvalloc (newSz : Nat) (perm : EntryPerm) (isLazy : Bool) (a : AddrSpace) :
    Option (AddrSpace × Except SysError Unit) :=
  let oldAligned := (pgRoundUp a.vm.userSpaceSize).val
  let newAligned := (pgRoundUp newSz).val
  if userEndVaddr < newAligned then some (a, .error SysErrorKind.outOfMemory.err)
  else if oldAligned = newAligned then some (a, .ok ())
  else if oldAligned < newAligned then
    if isLazy then
      -- Lazy loading requires the permission is readable and writable.
      if perm = .withRw then some (a.setSize newSz, .ok ()) else none
    else
      match vmap src refused (userBaseVaddr + oldAligned)
          (newAligned - oldAligned) (perm.union .onlyUser) a.space with
      | none => none
      | some (s, .ok ()) => some ((a.put s).setSize newSz, .ok ())
      | some (s, .error e) => some (a.put s, .error e)
  else
    let s := vunmap (userBaseVaddr + newAligned) (oldAligned - newAligned) a.space
    some ((a.put s).setSize newSz, .ok ())

def brk (newBrkPtr : Nat) (a : AddrSpace) : Option (AddrSpace × Except SysError Nat) :=
  let oldBrkPtr := userBaseVaddr + a.vm.userSpaceSize
  if newBrkPtr = 0 then some (a, .ok oldBrkPtr)
  else if newBrkPtr < userBaseVaddr ∨ userEndVaddr < newBrkPtr then
    some (a, .error SysErrorKind.invalidArgument.err)
  else
    match uvalloc src refused (newBrkPtr - userBaseVaddr) .withRw true a with
    | none => none
    | some (a, .ok ()) => some (a, .ok oldBrkPtr)
    | some (a, .error e) => some (a, .error e)

/-- `VMInner::alloc_segment`; an overlap panics. -/
def allocSegment (va size : PageAligned) (perm : EntryPerm) (a : AddrSpace) :
    Option (AddrSpace × Except SysError Unit) :=
  match vmap src refused va.val size.val perm a.space with
  | none => none
  | some (s, .error e) => some (a.put s, .error e)
  | some (s, .ok ()) =>
    match addArea a.vm.areaList { va, size, perm } with
    | none => none
    | some list => some ((a.put s).setAreas list, .ok ())

def deallocSegment (va : PageAligned) (a : AddrSpace) : AddrSpace × Bool :=
  match removeByVa a.vm.areaList va.val with
  | none => (a, false)
  | some (area, list) => ((a.setAreas list).unmapArea area, true)

def deallocAllSegments (a : AddrSpace) : AddrSpace :=
  a.vm.areaList.foldl AddrSpace.unmapArea (a.setAreas [])

def copyContentFrom (startVa size : Nat) (source : VMInner) (a : AddrSpace) :
    Option (AddrSpace × Except SysError Unit) :=
  tryEach (fun va a =>
    let entry := source.pgTable.entry 0 (key 0 va)
    match vmapPage src refused va entry.perm a.space with
    | none => none
    | some (s, .ok dst) =>
      let s := { s with heap := s.heap.copyPage dst entry.physicalAddr }
      some (a.put s, .ok ())
    | some (s, .error err) => some (a.put (vunmap startVa (va - startVa) s), .error err))
    (rangeOfEntries source.pgTable startVa (startVa + size)) a

def copySegment (source : VMInner) (area : VmArea) (a : AddrSpace) :
    Option (AddrSpace × Except SysError Unit) :=
  match copyContentFrom src refused area.va.val area.size.val source a with
  | none => none
  | some (a, .error e) => some (a, .error e)
  | some (a, .ok ()) =>
    match addArea a.vm.areaList area with
    | none => none
    | some list => some (a.setAreas list, .ok ())

def copyUserContentFrom (source : VMInner) (a : AddrSpace) :
    Option (AddrSpace × Except SysError Unit) :=
  match uvalloc src refused 0 .empty false (deallocAllSegments a) with
  | none => none
  | some (a, .error e) => some (a, .error e)
  | some (a, .ok ()) =>
    match tryEach (copySegment src refused source) source.areaList a with
    | none => none
    | some (a, .error e) => some (a, .error e)
    | some (a, .ok ()) =>
      match copyContentFrom src refused userBaseVaddr
          (pgRoundUp source.userSpaceSize).val source a with
      | none => none
      | some (a, .error e) => some (a, .error e)
      | some (a, .ok ()) => some (a.setSize source.userSpaceSize, .ok ())

def onPageFault (addr : Nat) (a : AddrSpace) : Option (AddrSpace × Except SysError Unit) :=
  if userBaseVaddr ≤ addr ∧ addr < userBaseVaddr + a.vm.userSpaceSize then
    let pgVaddr := (pgRoundDown addr).val
    match getEntry a.vm.pgTable pgVaddr with
    | none => none
    | some (some _) => some (a, .error SysErrorKind.fault.err)
    | some none =>
      match vmapPage src refused pgVaddr (EntryPerm.withRw.union .onlyUser) a.space with
      | none => none
      | some (s, .ok _) => some (a.put s, .ok ())
      | some (s, .error e) => some (a.put s, .error e)
  else some (a, .error SysErrorKind.outOfMemory.err)

end

def dropVm (a : AddrSpace) : Heap :=
  let a := deallocAllSegments a
  let a := a.put (vunmap userBaseVaddr (pgRoundUp a.vm.userSpaceSize).val a.space)
  (clear a.space).heap.freePage a.vm.pgTable.root

def withKernelVm (src : PageSource) (kernel : PageTable) (refused : Bool)
    (h : Heap) : Option AddrSpace :=
  match tryAlloc src refused h with
  | none => none
  | some s =>
    some
      { vm :=
          { pgTable := copyFromKernel s.table kernel
            userSpaceSize := 0
            areaList := [] }
        heap := s.heap }

/-- The address spaces of a running system.  `others` are the pages that were
handed out before, to other parts of the kernel; `vms` gives the live address
spaces among the `slots` created so far. -/
structure System where
  kernel : PageTable
  others : List Nat
  heap : Heap
  slots : Nat
  vms : Nat → Option VMInner

namespace System

@[simps slots others heap]
def setVm (s : System) (id : Nat) (vm : Option VMInner) (heap : Heap) : System :=
  { s with heap, vms := update s.vms id vm }

/-- Run a fallible operation on one address space.  An error leaves what the
operation has done so far. -/
def onVm {α : Type} (s : System) (id : Nat)
    (op : AddrSpace → Option (AddrSpace × α)) : Option System :=
  match s.vms id with
  | none => none
  | some vm =>
    match op { vm, heap := s.heap } with
    | none => none
    | some (a, _) => some (s.setVm id (some a.vm) a.heap)

end System

/-- A call makes its requests one after the other and ends with the first one
turned down, so this request says all about the allocator's answers. -/
def refusing (turnedDown : Option (Nat × Nat)) : Refusals :=
  fun level k => turnedDown == some (level, k)

inductive Action
  | withKernelVm (refused : Bool)
  | uvalloc (id newSz : Nat) (perm : EntryPerm) (isLazy : Bool)
      (turnedDown : Option (Nat × Nat))
  | brk (id newBrkPtr : Nat) (turnedDown : Option (Nat × Nat))
  | allocSegment (id : Nat) (va size : PageAligned) (perm : EntryPerm)
      (turnedDown : Option (Nat × Nat))
  | deallocSegment (id : Nat) (va : PageAligned)
  | onPageFault (id addr : Nat) (turnedDown : Option (Nat × Nat))
  | copyUserContentFrom (id source : Nat) (turnedDown : Option (Nat × Nat))
  | store (page offset : Nat) (byte : BitVec 8)
  | drop (id : Nat)

/-- Where the callers of `alloc_segment` put segments: the trapframe and the
segments of an ELF file, above the kernel and below the user space. -/
def segmentAllowed (va size : PageAligned) : Bool :=
  isVmapArea va.val && decide (va.val + size.val ≤ userBaseVaddr)

/-- One call on an address space.  A call that panics has no next state. -/
def step (src : PageSource) (s : System) : Action → Option System
  | .withKernelVm refused =>
    match withKernelVm src s.kernel refused s.heap with
    | none => some s
    | some a => some { s.setVm s.slots (some a.vm) a.heap with slots := s.slots + 1 }
  | .uvalloc id newSz perm isLazy turnedDown =>
    s.onVm id (uvalloc src (refusing turnedDown) newSz perm isLazy)
  | .brk id newBrkPtr turnedDown => s.onVm id (brk src (refusing turnedDown) newBrkPtr)
  | .allocSegment id va size perm turnedDown =>
    if segmentAllowed va size then s.onVm id (allocSegment src (refusing turnedDown) va size perm)
    else none
  | .deallocSegment id va => s.onVm id fun a => some (deallocSegment va a)
  | .onPageFault id addr turnedDown => s.onVm id (onPageFault src (refusing turnedDown) addr)
  | .copyUserContentFrom id source turnedDown =>
    if id = source then none
    else
      match s.vms source with
      | none => none
      | some vm => s.onVm id (copyUserContentFrom src (refusing turnedDown) vm)
  | .store page offset byte =>
    let mem := update s.heap.mem page (update (s.heap.mem page) offset byte)
    some { s with heap := { s.heap with mem } }
  | .drop id =>
    match s.vms id with
    | none => none
    | some vm => some (s.setVm id none (dropVm { vm, heap := s.heap }))

/-- No address space exists, the kernel's page table is in order. -/
structure System.Start (s : System) : Prop where
  kernel : ∀ level k, level < 2 → (s.kernel.entry (level + 1) (k / 512)).isValid = false →
    (s.kernel.entry level k).isValid = false
  slots : s.slots = 0
  vms : s.vms = fun _ => none
  issued : s.heap.issued = s.others
  honest : s.heap.badFree = false

def machine (src : PageSource) : Machine System Action where
  start := System.Start
  step := step src

end Redwing.Vm
