/-
The address spaces of `mmu/vm.rs` over tables that they share with the kernel
and with each other, and the machine that runs any number of them.
-/
import Redwing.SharedTables
import Redwing.Vm

namespace Redwing.Shared

open Function
open Vm (PageSource Refusals EntryPerm SysError SysErrorKind PageAligned VmArea
  pgRoundUp pgRoundDown userBaseVaddr userEndVaddr addArea removeByVa
  segmentAllowed refusing key)
open Walks

/-- `VMInner`, with the page of its top-level table. -/
structure VMInner where
  root : Nat
  userSpaceSize : Nat
  areaList : List VmArea

/-- An address space together with the memory. -/
structure AddrSpace where
  vm : VMInner
  mem : Phys

namespace AddrSpace

def put (a : AddrSpace) (mem : Phys) : AddrSpace := { a with mem }

def setSize (a : AddrSpace) (size : Nat) : AddrSpace :=
  { a with vm := { a.vm with userSpaceSize := size } }

def setAreas (a : AddrSpace) (list : List VmArea) : AddrSpace :=
  { a with vm := { a.vm with areaList := list } }

def unmapArea (a : AddrSpace) (area : VmArea) : AddrSpace :=
  a.put (vunmap a.vm.root area.va.val area.size.val a.mem)

end AddrSpace

section

variable (src : PageSource) (refused : Refusals)

def uvalloc (newSz : Nat) (perm : EntryPerm) (isLazy : Bool) (a : AddrSpace) :
    Option (AddrSpace × Except SysError Unit) :=
  let oldAligned := (pgRoundUp a.vm.userSpaceSize).val
  let newAligned := (pgRoundUp newSz).val
  if userEndVaddr < newAligned then some (a, .error SysErrorKind.outOfMemory.err)
  else if oldAligned = newAligned then some (a, .ok ())
  else if oldAligned < newAligned then
    if isLazy then
      if perm = .withRw then some (a.setSize newSz, .ok ()) else none
    else
      match vmap src refused a.vm.root (userBaseVaddr + oldAligned)
          (newAligned - oldAligned) (perm.union .onlyUser) a.mem with
      | none => none
      | some (m, .ok ()) => some ((a.put m).setSize newSz, .ok ())
      | some (m, .error e) => some (a.put m, .error e)
  else
    let m := vunmap a.vm.root (userBaseVaddr + newAligned) (oldAligned - newAligned) a.mem
    some ((a.put m).setSize newSz, .ok ())

def brk (newBrkPtr : Nat) (a : AddrSpace) : Option (AddrSpace × Except SysError Nat) :=
  let oldBrkPtr := userBaseVaddr + a.vm.userSpaceSize
  if newBrkPtr = 0 then some (a, .ok oldBrkPtr)
  else if newBrkPtr < userBaseVaddr ∨ userEndVaddr < newBrkPtr then
    some (a, .error SysErrorKind.invalidArgument.err)
  else
    match uvalloc src refused (newBrkPtr - userBaseVaddr) .withRw true a with
    | none => none
    | some (a, .ok ()) => some (a, .ok oldBrkPtr)
    | some (a, .error e) => some (a, .error e)

def allocSegment (va size : PageAligned) (perm : EntryPerm) (a : AddrSpace) :
    Option (AddrSpace × Except SysError Unit) :=
  match vmap src refused a.vm.root va.val size.val perm a.mem with
  | none => none
  | some (m, .error e) => some (a.put m, .error e)
  | some (m, .ok ()) =>
    match addArea a.vm.areaList { va, size, perm } with
    | none => none
    | some list => some ((a.put m).setAreas list, .ok ())

def deallocSegment (va : PageAligned) (a : AddrSpace) : AddrSpace × Bool :=
  match removeByVa a.vm.areaList va.val with
  | none => (a, false)
  | some (area, list) => ((a.setAreas list).unmapArea area, true)

def deallocAllSegments (a : AddrSpace) : AddrSpace :=
  a.vm.areaList.foldl AddrSpace.unmapArea (a.setAreas [])

/-- `VMInner::copy_content_from`.  The entries of the source are read from the
memory that the copies go to. -/
def copyContentFrom (startVa size sourceRoot : Nat) (a : AddrSpace) :
    Option (AddrSpace × Except SysError Unit) :=
  tryEach (fun entry a =>
    let pte := a.mem.pte entry.2
    match vmapPage src refused a.vm.root entry.1 pte.perm a.mem with
    | none => none
    | some (m, .ok dst) => some (a.put (m.copyPage dst pte.physicalAddr), .ok ())
    | some (m, .error err) =>
      some (a.put (vunmap a.vm.root startVa (entry.1 - startVa) m), .error err))
    (rangeOfEntries a.mem sourceRoot startVa (startVa + size)) a

def copySegment (sourceRoot : Nat) (area : VmArea) (a : AddrSpace) :
    Option (AddrSpace × Except SysError Unit) :=
  match copyContentFrom src refused area.va.val area.size.val sourceRoot a with
  | none => none
  | some (a, .error e) => some (a, .error e)
  | some (a, .ok ()) =>
    match addArea a.vm.areaList area with
    | none => none
    | some list => some (a.setAreas list, .ok ())

def copyUserContentFrom (source : VMInner) (a : AddrSpace) :
    Option (AddrSpace × Except SysError Unit) :=
  match uvalloc src refused 0 .empty false (deallocAllSegments a) with
  | none => none
  | some (a, .error e) => some (a, .error e)
  | some (a, .ok ()) =>
    match tryEach (copySegment src refused source.root) source.areaList a
      with
    | none => none
    | some (a, .error e) => some (a, .error e)
    | some (a, .ok ()) =>
      match copyContentFrom src refused userBaseVaddr
          (pgRoundUp source.userSpaceSize).val source.root a with
      | none => none
      | some (a, .error e) => some (a, .error e)
      | some (a, .ok ()) => some (a.setSize source.userSpaceSize, .ok ())

def onPageFault (addr : Nat) (a : AddrSpace) : Option (AddrSpace × Except SysError Unit) :=
  if userBaseVaddr ≤ addr ∧ addr < userBaseVaddr + a.vm.userSpaceSize then
    let pgVaddr := (pgRoundDown addr).val
    match getEntry a.mem a.vm.root pgVaddr with
    | none => none
    | some (some _) => some (a, .error SysErrorKind.fault.err)
    | some none =>
      match vmapPage src refused a.vm.root pgVaddr (EntryPerm.withRw.union .onlyUser) a.mem with
      | none => none
      | some (m, .ok _) => some (a.put m, .ok ())
      | some (m, .error e) => some (a.put m, .error e)
  else some (a, .error SysErrorKind.outOfMemory.err)

end

def dropVm (a : AddrSpace) : Phys :=
  let a := deallocAllSegments a
  let a := a.put (vunmap a.vm.root userBaseVaddr (pgRoundUp a.vm.userSpaceSize).val a.mem)
  (clear a.vm.root a.mem).freePage a.vm.root

def withKernelVm (src : PageSource) (kernelRoot : Nat) (refused : Bool)
    (m : Phys) : Option AddrSpace :=
  match m.allocZeroedPage src refused with
  | none => none
  | some (root, m) =>
    some
      { vm := { root, userSpaceSize := 0, areaList := [] }
        mem := copyFromKernel root kernelRoot m }

/-- The address spaces of a running system.  `vms` gives the live ones among
the `slots` created so far. -/
structure System where
  kernelRoot : Nat
  mem : Phys
  slots : Nat
  vms : Nat → Option VMInner

namespace System

def setVm (s : System) (id : Nat) (vm : Option VMInner) (mem : Phys) : System :=
  { s with mem, vms := update s.vms id vm }

/-- Run a fallible operation on one address space.  An error leaves what the
operation has done so far. -/
def onVm {α : Type} (s : System) (id : Nat)
    (op : AddrSpace → Option (AddrSpace × α)) : Option System :=
  match s.vms id with
  | none => none
  | some vm =>
    match op { vm, mem := s.mem } with
    | none => none
    | some (a, _) => some (s.setVm id (some a.vm) a.mem)

end System

inductive Action
  | withKernelVm (refused : Bool)
  | uvalloc (id newSz : Nat) (perm : EntryPerm) (isLazy : Bool)
      (turnedDown : Option (Nat × Nat))
  | brk (id newBrkPtr : Nat) (turnedDown : Option (Nat × Nat))
  | allocSegment (id : Nat) (va size : PageAligned) (perm : EntryPerm)
      (turnedDown : Option (Nat × Nat))
  | deallocSegment (id : Nat) (va : PageAligned)
  | onPageFault (id addr : Nat) (turnedDown : Option (Nat × Nat))
  | copyUserContentFrom (id source : Nat) (turnedDown : Option (Nat × Nat))
  /-- The program, or the kernel for it, writes to an address of the user
  part. -/
  | store (id va : Nat) (byte : BitVec 8)
  | drop (id : Nat)

/-- One call on an address space.  A call that panics has no next state. -/
def step (src : PageSource) (s : System) : Action → Option System
  | .withKernelVm refused =>
    match withKernelVm src s.kernelRoot refused s.mem with
    | none => some s
    | some a => some { s.setVm s.slots (some a.vm) a.mem with slots := s.slots + 1 }
  | .uvalloc id newSz perm isLazy turnedDown =>
    s.onVm id (uvalloc src (refusing turnedDown) newSz perm isLazy)
  | .brk id newBrkPtr turnedDown => s.onVm id (brk src (refusing turnedDown) newBrkPtr)
  | .allocSegment id va size perm turnedDown =>
    if segmentAllowed va size then s.onVm id (allocSegment src (refusing turnedDown) va size perm)
    else none
  | .deallocSegment id va => s.onVm id fun a => some (deallocSegment va a)
  | .onPageFault id addr turnedDown => s.onVm id (onPageFault src (refusing turnedDown) addr)
  | .copyUserContentFrom id source turnedDown =>
    if id = source then none
    else
      match s.vms source with
      | none => none
      | some vm => s.onVm id (copyUserContentFrom src (refusing turnedDown) vm)
  | .store id va byte =>
    match s.vms id with
    | none => none
    | some vm =>
      if 0x200000000 ≤ va then
        match getEntry s.mem vm.root va with
        | some (some pte) =>
          let page := pte.physicalAddr
          let mem := update s.mem.heap.mem page
            (update (s.mem.heap.mem page) (va % 4096) byte)
          some { s with mem := { s.mem with
            heap := { s.mem.heap with mem }
            touched := page :: s.mem.touched } }
        | _ => none
      else none
  | .drop id =>
    match s.vms id with
    | none => none
    | some vm => some (s.setVm id none (dropVm { vm, mem := s.mem }))

/-- The page tables of the kernel: the top-level one, the tables under its
entries and the tables under theirs. -/
inductive KernelTable (tables : Nat → Nat → Vm.Pte) (kernelRoot : Nat) :
    Nat → Prop
  | top : KernelTable tables kernelRoot kernelRoot
  | mid (i : Nat) (hi : i < 512)
      (hvalid : (tables kernelRoot i).isValid = true) :
      KernelTable tables kernelRoot (tables kernelRoot i).physicalAddr
  | low (i j : Nat) (hi : i < 512)
      (hvalid : (tables kernelRoot i).isValid = true) (hj : j < 512)
      (hvalid' : (tables (tables kernelRoot i).physicalAddr j).isValid = true) :
      KernelTable tables kernelRoot (tables (tables kernelRoot i).physicalAddr j).physicalAddr

/-- No address space exists, and the pages of the kernel's tables are in
use. -/
structure System.Start (s : System) : Prop where
  kernel : ∀ p, KernelTable s.mem.tables s.kernelRoot p → p ∈ s.mem.heap.issued
  once : s.mem.heap.issued.Nodup
  slots : s.slots = 0
  vms : s.vms = fun _ => none
  honest : s.mem.heap.badFree = false
  touched : s.mem.touched = []

def machine (src : PageSource) : Machine System Action where
  start := System.Start
  step := step src

end Redwing.Shared
