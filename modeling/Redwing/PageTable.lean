/-
The three-level page tables of `mmu/pgtable.rs` and
`arch/riscv64/pgtable.rs`: entries, walks that create intermediate tables,
iteration over a range of entries, and mapping and unmapping of pages that
come from the page allocator.
-/
import Redwing.Walks
import Mathlib.Logic.Function.Basic

namespace Redwing.Vm

open Function Walks

/-- The kinds of `SysErrorKind` that the address spaces report. -/
inductive SysErrorKind
  | outOfMemory
  | invalidArgument
  | fault
deriving DecidableEq

structure SysError where
  kind : SysErrorKind
  msg : Option String
deriving DecidableEq

/-- `SysErrorKind::into`: an error without a message. -/
def SysErrorKind.err (kind : SysErrorKind) : SysError := { kind, msg := none }

def hex (n : Nat) : String := "0x" ++ String.ofList (Nat.toDigits 16 n)

/-- `EntryPerm`, one field per flag. -/
structure EntryPerm where
  valid : Bool := false
  writable : Bool := false
  readable : Bool := false
  user : Bool := false
  executable : Bool := false
deriving DecidableEq

namespace EntryPerm

def union (p q : EntryPerm) : EntryPerm where
  valid := p.valid || q.valid
  writable := p.writable || q.writable
  readable := p.readable || q.readable
  user := p.user || q.user
  executable := p.executable || q.executable

def empty : EntryPerm := {}
def withRw : EntryPerm := { readable := true, writable := true }
def onlyValid : EntryPerm := { valid := true }
def onlyUser : EntryPerm := { user := true }

lemma valid_union_onlyValid (p : EntryPerm) : (p.union onlyValid).valid = true := by
  simp [union, onlyValid]

end EntryPerm

/-- `PageTableEntryImpl`: the physical page number and the five flags that
the kernel uses. -/
structure Pte where
  ppn : Nat
  perm : EntryPerm
deriving DecidableEq

namespace Pte

def zero : Pte := { ppn := 0, perm := .empty }

def isValid (e : Pte) : Bool := e.perm.valid

def physicalAddr (e : Pte) : Nat := e.ppn * 4096

/-- `set_physical_addr` keeps the flags; its assertion fails with `none`. -/
def setPhysicalAddr (e : Pte) (addr : Nat) : Option Pte :=
  if addr % 4096 = 0 ∧ addr ≠ 0 then some { e with ppn := addr / 4096 }
  else none

def setPerm (e : Pte) (perm : EntryPerm) : Pte := { e with perm }

def makePde (tableAddr : Nat) : Pte := { ppn := tableAddr / 4096, perm := .onlyValid }

end Pte

/-- A page table with all tables below it.  `entry level key` is the entry, in
the table of that level, for the virtual addresses that start with `key`: an
address `va` is translated through the entries with key
`va >>> (level * 9 + 12)` of the levels 2, 1 and 0. -/
structure PageTable where
  root : Nat
  entry : Nat → Nat → Pte

def shift (level : Nat) : Nat := level * 9 + 12

def key (level va : Nat) : Nat := va >>> shift level

namespace PageTable

def setEntry (t : PageTable) (level key : Nat) (e : Pte) : PageTable :=
  { t with entry := fun l k => if l = level ∧ k = key then e else t.entry l k }

/-- Forget the entries of the table that `entry level key` points to: its
page is new and zeroed, or given back. -/
def wipeTable (t : PageTable) (level key : Nat) : PageTable :=
  { t with entry := fun l k =>
      if l + 1 = level ∧ k / 512 = key then .zero else t.entry l k }

def linkTable (t : PageTable) (level key addr : Nat) : PageTable :=
  (t.wipeTable level key).setEntry level key (.makePde addr)

def unlinkTable (t : PageTable) (level key : Nat) : PageTable :=
  (t.wipeTable level key).setEntry level key .zero

end PageTable

/-- The pages that the page allocator hands out.  `issued` lists the pages
obtained and not yet returned, `clock` counts the requests granted, `badFree`
remembers a page that was returned without having been obtained. -/
structure Heap where
  issued : List Nat
  clock : Nat
  mem : Nat → Nat → BitVec 8
  badFree : Bool

/-- What address spaces rely on from the page allocator: the page of every
granted request is one that nobody holds, and it is a page frame. -/
structure PageSource where
  pick : Nat → List Nat → Nat
  fresh : ∀ clock issued, pick clock issued ∉ issued
  aligned : ∀ clock issued, pick clock issued % 4096 = 0
  ne_zero : ∀ clock issued, pick clock issued ≠ 0

/-- Which requests of a call the page allocator turns down, by the entry that
the page is for: level 0 is a page of the address space, levels 1 and 2 are
intermediate tables. -/
abbrev Refusals := Nat → Nat → Bool

namespace Heap

def allocZeroedPage (src : PageSource) (refused : Bool) (h : Heap) : Option (Nat × Heap) :=
  if refused then none
  else
    let page := src.pick h.clock h.issued
    some (page, { h with
      issued := page :: h.issued
      clock := h.clock + 1
      mem := update h.mem page fun _ => 0 })

def freePage (page : Nat) (h : Heap) : Heap :=
  if page ∈ h.issued then { h with issued := h.issued.erase page }
  else { h with badFree := true }

def copyPage (dst src : Nat) (h : Heap) : Heap := { h with mem := update h.mem dst (h.mem src) }

end Heap

/-- A page table together with the page allocator it draws on. -/
structure Space where
  table : PageTable
  heap : Heap

section

def indexForVa (level va : Nat) : Nat := (va >>> shift level) &&& 511

def upperBoundIndexForVa (level va : Nat) : Nat :=
  let index := (va >>> shift level) &&& 511
  -- Lower bits spill into the next index.
  if va &&& ((1 <<< shift level) - 1) ≠ 0 then index + 1 else index

def vaForIndex (level idx : Nat) : Nat := idx <<< shift level

def startIdx (level startVa : Nat) (isFirst : Bool) : Nat :=
  if isFirst then indexForVa level startVa else 0

def endIdx (level endVa : Nat) (isLast : Bool) : Nat :=
  if isLast then upperBoundIndexForVa level endVa else 512

end

section

variable (src : PageSource) (refused : Refusals)

/-- The table under an entry, created if the entry is not valid. -/
def ensureTable (level va : Nat) (s : Space) : Option Space :=
  if (s.table.entry level (key level va)).isValid then some s
  else
    match s.heap.allocZeroedPage src (refused level (key level va)) with
    | none => none
    | some (addr, heap) => some { table := s.table.linkTable level (key level va) addr, heap }

/-- `walk`: create the tables on the way to `va`.  A table created before a
failure stays. -/
def walk (va : Nat) (s : Space) : Space × Bool :=
  match ensureTable src refused 2 va s with
  | none => (s, false)
  | some s =>
    match ensureTable src refused 1 va s with
    | none => (s, false)
    | some s => (s, true)

/-- `walk_range_mut_recursive` over the table of `level` whose first entry
maps `baseVa`.  An error carries the address that the caller rolls back to;
`none` is the panic of the slice `[startIdx..endIdx]`. -/
def walkRangeMutRecursive (f : Nat → Space → Option (Space × Except SysError Unit)) :
    Nat → Nat → Nat → Nat → Bool → Bool → Space → Option (Space × Except (Nat × SysError) Unit)
  | 0, baseVa, startVa, endVa, isFirst, isLast, s =>
    let start := startIdx 0 startVa isFirst
    let stop := endIdx 0 endVa isLast
    if stop < start then none
    else
      tryEach (fun idx s =>
        let curVa := baseVa ||| vaForIndex 0 idx
        match f curVa s with
        | none => none
        | some (s, .ok ()) => some (s, .ok ())
        | some (s, .error e) => some (s, .error (curVa, e)))
        (interval start stop) s
  | level + 1, baseVa, startVa, endVa, isFirst, isLast, s =>
    let start := startIdx (level + 1) startVa isFirst
    let stop := endIdx (level + 1) endVa isLast
    if stop < start then none
    else
      tryEach (fun idx s =>
        let va := baseVa ||| vaForIndex (level + 1) idx
        match ensureTable src refused (level + 1) va s with
        | none =>
          -- The break address is used for rollback.
          let brkAddr := if isFirst then startVa else va
          some (s, .error (brkAddr, SysErrorKind.outOfMemory.err))
        | some s =>
          walkRangeMutRecursive f level va startVa endVa
            (isFirst && idx == start) (isLast && idx == stop - 1) s)
        (interval start stop) s

end

/-- The addresses of the valid entries that `TableRangeIter` and
`InternalRangeIter` yield below the table of `level` whose first entry maps
`baseVa`, in the order of the iteration. -/
def rangeIter (t : PageTable) : Nat → Nat → Nat → Nat → Bool → Bool → List Nat
  | 0, baseVa, startVa, endVa, isFirst, isLast =>
    ((interval (startIdx 0 startVa isFirst) (endIdx 0 endVa isLast)).map
      fun idx => baseVa ||| vaForIndex 0 idx).filter fun va => (t.entry 0 (key 0 va)).isValid
  | level + 1, baseVa, startVa, endVa, isFirst, isLast =>
    let start := startIdx (level + 1) startVa isFirst
    let stop := endIdx (level + 1) endVa isLast
    (interval start stop).flatMap fun idx =>
      let va := baseVa ||| vaForIndex (level + 1) idx
      if (t.entry (level + 1) (key (level + 1) va)).isValid then
        rangeIter t level va startVa endVa (isFirst && start == idx) (isLast && stop - 1 == idx)
      else []

def rangeOfEntries (t : PageTable) (startVa endVa : Nat) : List Nat :=
  rangeIter t 2 0 startVa endVa true true

/-- `RISCV_VA_MASK`: the virtual addresses below this one. -/
def vaLimit : Nat := 2 ^ 39

/-- `get_entry`; the assertion on the address fails with `none`. -/
def getEntry (t : PageTable) (va : Nat) : Option (Option Pte) :=
  if vaLimit ≤ va then none
  else if !(t.entry 2 (key 2 va)).isValid then some none
  else if !(t.entry 1 (key 1 va)).isValid then some none
  else
    let pte := t.entry 0 (key 0 va)
    some (if pte.isValid then some pte else none)

/-- One round of `vunmap`: clear the entry and give its page back. -/
def unmapEntry (va : Nat) (s : Space) : Space where
  table := s.table.setEntry 0 (key 0 va) .zero
  heap := s.heap.freePage (s.table.entry 0 (key 0 va)).physicalAddr

def vunmap (va size : Nat) (s : Space) : Space :=
  (rangeOfEntries s.table va (va + size)).foldl (fun s va => unmapEntry va s) s

def isVmapArea (va : Nat) : Bool := decide (0x200000000 ≤ va)

section

variable (src : PageSource) (refused : Refusals)

def vmapEntry (perm : EntryPerm) (curVa : Nat) (s : Space) :
    Option (Space × Except SysError Unit) :=
  let entry := s.table.entry 0 (key 0 curVa)
  if entry.isValid then
    some (s, .error
      { kind := .invalidArgument
        msg := some ("vmap error: the page at virtual address " ++ hex curVa ++
          " is already mapped.") })
  else
    match s.heap.allocZeroedPage src (refused 0 (key 0 curVa)) with
    | none => some (s, .error SysErrorKind.outOfMemory.err)
    | some (page, heap) =>
      match entry.setPhysicalAddr page with
      | none => none
      | some entry =>
        let entry := entry.setPerm perm
        some ({ table := s.table.setEntry 0 (key 0 curVa) entry, heap }, .ok ())

/-- `vmap`.  It also panics when the walk stops before the start of the range:
that takes a range past the last virtual address. -/
def vmap (startVa size : Nat) (perm : EntryPerm) (s : Space) :
    Option (Space × Except SysError Unit) :=
  match walkRangeMutRecursive src refused (vmapEntry src refused (perm.union .onlyValid))
      2 0 startVa (startVa + size) true true s with
  | none => none
  | some (s, .ok ()) => some (s, .ok ())
  | some (s, .error (brkAddr, err)) =>
    if brkAddr < startVa then none
    else some (vunmap startVa (brkAddr - startVa) s, .error err)

def tryMap (va pa : Nat) (perm : EntryPerm) (s : Space) : Option (Space × Except SysError Bool) :=
  if vaLimit ≤ va then none
  else
    match walk src refused va s with
    | (s, false) =>
      some (s, .error
        { kind := .outOfMemory, msg := some "could not allocate a PTE" })
    | (s, true) =>
      let pte := s.table.entry 0 (key 0 va)
      if pte.isValid then some (s, .ok false)
      else
        match pte.setPhysicalAddr pa with
        | none => none
        | some pte =>
          let pte := pte.setPerm (perm.union .onlyValid)
          some ({ s with table := s.table.setEntry 0 (key 0 va) pte }, .ok true)

def vmapPage (va : Nat) (perm : EntryPerm) (s : Space) : Option (Space × Except SysError Nat) :=
  if !isVmapArea va then none
  else
    match s.heap.allocZeroedPage src (refused 0 (key 0 va)) with
    | none =>
      some (s, .error
        { kind := .outOfMemory
          msg := some "could not allocate a physical page for vmap_page." })
    | some (page, heap) =>
      match tryMap src refused va page perm { s with heap } with
      | none => none
      | some (s, .ok true) => some (s, .ok page)
      | some (s, .ok false) =>
        some ({ s with heap := s.heap.freePage page }, .error
          { kind := .invalidArgument
            msg := some ("vmap page error: the page at virtual address " ++
              hex va ++ " is already mapped.") })
      | some (s, .error err) => some ({ s with heap := s.heap.freePage page }, .error err)

end

section

def clearEntry (below : Nat → Space → Space) (level k : Nat) (s : Space) : Space :=
  let pte := s.table.entry level k
  if pte.isValid then
    let s := below k s
    { table := s.table.unlinkTable level k
      heap := s.heap.freePage pte.physicalAddr }
  else s

def clearRecursive : Nat → Nat → Space → Space
  | 0, _, s => s
  | level + 1, k, s =>
    (interval (k * 512) (k * 512 + 512)).foldl
      (fun s k => clearEntry (clearRecursive level) (level + 1) k s) s

/-- The top-level entries of the kernel, which address spaces share:
`KERNEL_VM_V2_INDEX_RANGE`. -/
def kernelIndexStart : Nat := indexForVa 2 0
def kernelIndexEnd : Nat := indexForVa 2 0x140000000

def clear (s : Space) : Space :=
  (interval 0 kernelIndexStart ++ interval (kernelIndexEnd + 1) 512).foldl
    (fun s k => clearEntry (clearRecursive 1) 2 k s) s

/-- Whether an entry belongs to the kernel's part of the address space. -/
def isKernelKey (level k : Nat) : Bool := decide (k < (kernelIndexEnd + 1) * 512 ^ (2 - level))

/-- `copy_from_kernel`: the top-level entries are copied, the tables below
them are the kernel's own. -/
def copyFromKernel (t kernel : PageTable) : PageTable :=
  { t with entry := fun level k =>
      if isKernelKey level k then kernel.entry level k else t.entry level k }

def tryAlloc (src : PageSource) (refused : Bool) (h : Heap) : Option Space :=
  match h.allocZeroedPage src refused with
  | none => none
  | some (root, heap) => some { table := { root, entry := fun _ _ => .zero }, heap }

end
end Redwing.Vm
