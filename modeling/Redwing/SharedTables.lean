/-
The page tables of `arch/riscv64/pgtable.rs` in the memory they live in.  The
address spaces share this memory and the tables of the kernel in it, so what
one of them writes, the kernel and the others see.
-/
import Redwing.PageTable

namespace Redwing.Shared

open Function Vm Walks

/-- The memory.  `tables page` are the entries of a page that is used as a
table; `touched` remembers every page that was written through a table,
handed out or given back, the last one first. -/
structure Phys where
  tables : Nat → Nat → Pte
  heap : Heap
  touched : List Nat

/-- A reference to an entry: the page of the table and the index in it. -/
structure PteRef where
  table : Nat
  idx : Nat
deriving DecidableEq

namespace Phys

def pte (m : Phys) (r : PteRef) : Pte := m.tables r.table r.idx

def setPte (m : Phys) (r : PteRef) (e : Pte) : Phys :=
  { m with
    tables := update m.tables r.table (update (m.tables r.table) r.idx e)
    touched := r.table :: m.touched }

def allocZeroedPage (src : PageSource) (refused : Bool) (m : Phys) : Option (Nat × Phys) :=
  match m.heap.allocZeroedPage src refused with
  | none => none
  | some (page, heap) =>
    some (page,
      { tables := update m.tables page fun _ => .zero
        heap
        touched := page :: m.touched })

def freePage (page : Nat) (m : Phys) : Phys :=
  { m with heap := m.heap.freePage page, touched := page :: m.touched }

def copyPage (dst src : Nat) (m : Phys) : Phys :=
  { m with heap := m.heap.copyPage dst src, touched := dst :: m.touched }

end Phys

section

variable (src : PageSource) (refused : Refusals)

/-- The table under an entry, created if the entry is not valid. -/
def ensureTable (refused : Bool) (pde : PteRef) (m : Phys) : Option (Nat × Phys) :=
  if (m.pte pde).isValid then some ((m.pte pde).physicalAddr, m)
  else
    match m.allocZeroedPage src refused with
    | none => none
    | some (addr, m) => some (addr, m.setPte pde (.makePde addr))

def walk (root va : Nat) (m : Phys) : Phys × Option PteRef :=
  match ensureTable src (refused 2 (key 2 va)) ⟨root, indexForVa 2 va⟩ m with
  | none => (m, none)
  | some (table, m) =>
    match ensureTable src (refused 1 (key 1 va)) ⟨table, indexForVa 1 va⟩ m
      with
    | none => (m, none)
    | some (table, m) => (m, some ⟨table, indexForVa 0 va⟩)

def walkRangeMutRecursive (f : Nat → PteRef → Phys → Option (Phys × Except SysError Unit)) :
    Nat → Nat → Nat → Nat → Nat → Bool → Bool → Phys → Option (Phys × Except (Nat × SysError) Unit)
  | 0, table, baseVa, startVa, endVa, isFirst, isLast, m =>
    let start := startIdx 0 startVa isFirst
    let stop := endIdx 0 endVa isLast
    if stop < start then none
    else
      tryEach (fun idx m =>
        let curVa := baseVa ||| vaForIndex 0 idx
        match f curVa ⟨table, idx⟩ m with
        | none => none
        | some (m, .ok ()) => some (m, .ok ())
        | some (m, .error e) => some (m, .error (curVa, e)))
        (interval start stop) m
  | level + 1, table, baseVa, startVa, endVa, isFirst, isLast, m =>
    let start := startIdx (level + 1) startVa isFirst
    let stop := endIdx (level + 1) endVa isLast
    if stop < start then none
    else
      tryEach (fun idx m =>
        let va := baseVa ||| vaForIndex (level + 1) idx
        match ensureTable src (refused (level + 1) (key (level + 1) va)) ⟨table, idx⟩ m with
        | none =>
          let brkAddr := if isFirst then startVa else va
          some (m, .error (brkAddr, SysErrorKind.outOfMemory.err))
        | some (below, m) =>
          walkRangeMutRecursive f level below va startVa endVa
            (isFirst && idx == start) (isLast && idx == stop - 1) m)
        (interval start stop) m

end

def rangeIter (m : Phys) : Nat → Nat → Nat → Nat → Nat → Bool → Bool → List (Nat × PteRef)
  | 0, table, baseVa, startVa, endVa, isFirst, isLast =>
    ((interval (startIdx 0 startVa isFirst) (endIdx 0 endVa isLast)).map
      fun idx => (baseVa ||| vaForIndex 0 idx, PteRef.mk table idx)).filter
        fun entry => (m.pte entry.2).isValid
  | level + 1, table, baseVa, startVa, endVa, isFirst, isLast =>
    let start := startIdx (level + 1) startVa isFirst
    let stop := endIdx (level + 1) endVa isLast
    (interval start stop).flatMap fun idx =>
      let pde := m.pte ⟨table, idx⟩
      if pde.isValid then
        rangeIter m level pde.physicalAddr (baseVa ||| vaForIndex (level + 1) idx) startVa endVa
          (isFirst && start == idx) (isLast && stop - 1 == idx)
      else []

def rangeOfEntries (m : Phys) (root startVa endVa : Nat) : List (Nat × PteRef) :=
  rangeIter m 2 root 0 startVa endVa true true

/-- `get_entry`; the assertion on the address fails with `none`. -/
def getEntry (m : Phys) (root va : Nat) : Option (Option Pte) :=
  if vaLimit ≤ va then none
  else
    let top := m.pte ⟨root, indexForVa 2 va⟩
    if !top.isValid then some none
    else
      let mid := m.pte ⟨top.physicalAddr, indexForVa 1 va⟩
      if !mid.isValid then some none
      else
        let pte := m.pte ⟨mid.physicalAddr, indexForVa 0 va⟩
        some (if pte.isValid then some pte else none)

def getEntryMut (m : Phys) (root va : Nat) : Option (Option PteRef) :=
  if vaLimit ≤ va then none
  else
    let top := m.pte ⟨root, indexForVa 2 va⟩
    if !top.isValid then some none
    else
      let mid := m.pte ⟨top.physicalAddr, indexForVa 1 va⟩
      if !mid.isValid then some none
      else
        let leaf := PteRef.mk mid.physicalAddr (indexForVa 0 va)
        some (if (m.pte leaf).isValid then some leaf else none)

/-- One round of `vunmap`: clear the entry and give its page back. -/
def unmapEntry (r : PteRef) (m : Phys) : Phys :=
  let paddr := (m.pte r).physicalAddr
  (m.setPte r .zero).freePage paddr

def vunmap (root va size : Nat) (m : Phys) : Phys :=
  (rangeOfEntries m root va (va + size)).foldl (fun m entry => unmapEntry entry.2 m) m

section

variable (src : PageSource) (refused : Refusals)

def vmapEntry (perm : EntryPerm) (curVa : Nat) (r : PteRef) (m : Phys) :
    Option (Phys × Except SysError Unit) :=
  let entry := m.pte r
  if entry.isValid then
    some (m, .error
      { kind := .invalidArgument
        msg := some ("vmap error: the page at virtual address " ++ hex curVa ++
          " is already mapped.") })
  else
    match m.allocZeroedPage src (refused 0 (key 0 curVa)) with
    | none => some (m, .error SysErrorKind.outOfMemory.err)
    | some (page, m) =>
      match entry.setPhysicalAddr page with
      | none => none
      | some entry => some (m.setPte r (entry.setPerm perm), .ok ())

def vmap (root startVa size : Nat) (perm : EntryPerm) (m : Phys) :
    Option (Phys × Except SysError Unit) :=
  match walkRangeMutRecursive src refused (vmapEntry src refused (perm.union .onlyValid))
      2 root 0 startVa (startVa + size) true true m with
  | none => none
  | some (m, .ok ()) => some (m, .ok ())
  | some (m, .error (brkAddr, err)) =>
    if brkAddr < startVa then none
    else some (vunmap root startVa (brkAddr - startVa) m, .error err)

def tryMap (root va pa : Nat) (perm : EntryPerm) (m : Phys) :
    Option (Phys × Except SysError Bool) :=
  if vaLimit ≤ va then none
  else
    match walk src refused root va m with
    | (m, none) =>
      some (m, .error
        { kind := .outOfMemory, msg := some "could not allocate a PTE" })
    | (m, some r) =>
      let pte := m.pte r
      if pte.isValid then some (m, .ok false)
      else
        match pte.setPhysicalAddr pa with
        | none => none
        | some pte => some (m.setPte r (pte.setPerm (perm.union .onlyValid)), .ok true)

def vmapPage (root va : Nat) (perm : EntryPerm) (m : Phys) : Option (Phys × Except SysError Nat) :=
  if !isVmapArea va then none
  else
    match m.allocZeroedPage src (refused 0 (key 0 va)) with
    | none =>
      some (m, .error
        { kind := .outOfMemory
          msg := some "could not allocate a physical page for vmap_page." })
    | some (page, m) =>
      match tryMap src refused root va page perm m with
      | none => none
      | some (m, .ok true) => some (m, .ok page)
      | some (m, .ok false) =>
        some (m.freePage page, .error
          { kind := .invalidArgument
            msg := some ("vmap page error: the page at virtual address " ++
              hex va ++ " is already mapped.") })
      | some (m, .error err) => some (m.freePage page, .error err)

end

section

/-- One round of `clear_table`: give back the table under a valid entry, after
`below` has cleared it. -/
def clearEntry (below : Nat → Phys → Phys) (r : PteRef) (m : Phys) : Phys :=
  let pte := m.pte r
  if pte.isValid then
    let m := below pte.physicalAddr m
    (m.setPte r .zero).freePage pte.physicalAddr
  else m

def clearRecursive : Nat → Nat → Phys → Phys
  | 0, _, m => m
  | level + 1, table, m =>
    (interval 0 512).foldl (fun m idx => clearEntry (clearRecursive level) ⟨table, idx⟩ m) m

def clear (root : Nat) (m : Phys) : Phys :=
  (interval 0 kernelIndexStart ++ interval (kernelIndexEnd + 1) 512).foldl
    (fun m idx => clearEntry (clearRecursive 1) ⟨root, idx⟩ m) m

def copyFromKernel (root kernelRoot : Nat) (m : Phys) : Phys :=
  { m with
    tables := update m.tables root fun idx =>
      if kernelIndexStart ≤ idx ∧ idx ≤ kernelIndexEnd then m.tables kernelRoot idx
      else m.tables root idx
    touched := root :: m.touched }

end
end Redwing.Shared
