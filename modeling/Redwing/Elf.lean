/-
The ELF loader of `proc/exec.rs` and `elf.rs`: the headers and their checks,
the pages that a segment gets, and the loop that copies the file into them.
-/
import Redwing.LittleEndian
import Redwing.UserArgs
import Redwing.VmapTotal

namespace Redwing.Elf

open Vm Walks

/-- The errors of `load_elf`.  The address spaces and the file systems report
those of the kinds in `SysError`. -/
inductive LoadError
  | execFormat (msg : Option String)
  | sys (e : SysError)
deriving DecidableEq

/-- The executable as `VfsINodeOps::read` presents it.  A read that starts past
the end is turned down by EFS and finds nothing in a ram file. -/
structure ExecFile where
  content : List UInt8
  size_lt : content.length < 2 ^ 63
  rejectsPastEnd : Bool

namespace ExecFile

def size (file : ExecFile) : Nat := file.content.length

/-- `VfsINodeOps::read` into a buffer of `len` bytes. -/
def read (file : ExecFile) (offset len : Nat) : Except SysError (List UInt8) :=
  if file.size < offset then
    if file.rejectsPastEnd then .error SysErrorKind.invalidArgument.err
    else .ok []
  else .ok ((file.content.drop offset).take len)

/-- `read_struct`, with the error that the callers make of its errors. -/
def readStruct (file : ExecFile) (offset len : Nat) : Except LoadError (List UInt8) :=
  match file.read offset len with
  | .error _ => .error (.execFormat none)
  | .ok bytes =>
    if bytes.length ≠ len then .error (.execFormat none) else .ok bytes

end ExecFile

def field (bytes : List UInt8) (offset width : Nat) : Nat :=
  Bytes.leValue width fun i => bytes.getD (offset + i) 0

def magic : List UInt8 := [0x7F, 0x45, 0x4C, 0x46]

structure ElfHeader where
  ident : List UInt8
  entry : Nat
  phoff : Nat
  phentsize : Nat
  phnum : Nat
deriving DecidableEq

namespace ElfHeader

def loadFrom (file : ExecFile) : Except LoadError ElfHeader :=
  match file.readStruct 0 64 with
  | .error e => .error e
  | .ok bytes =>
    .ok
      { ident := bytes.take 16
        entry := field bytes 24 8
        phoff := field bytes 32 8
        phentsize := field bytes 54 2
        phnum := field bytes 56 2 }

def checkValid (hdr : ElfHeader) : Except LoadError Unit :=
  if hdr.ident.take 4 ≠ magic then .error (.execFormat (some "bad elf magic"))
  else .ok ()

end ElfHeader

def ptLoad : Nat := 1

def userElfSize : Nat := 512 * 1024 * 1024
def userElfEndVaddr : Nat := userElfBaseVaddr + userElfSize

structure ProgramHeader where
  typ : Nat
  flags : Nat
  offset : Nat
  vaddr : Nat
  filesz : Nat
  memsz : Nat
deriving DecidableEq

namespace ProgramHeader

/-- `ProgramHeader::load_from`; `none` is an overflow of the offset. -/
def loadFrom (file : ExecFile) (hdr : ElfHeader) (index : Nat) :
    Option (Except LoadError ProgramHeader) :=
  let offset := hdr.phoff + hdr.phentsize * index
  if 2 ^ 64 ≤ offset then none
  else
    match file.readStruct offset 56 with
    | .error e => some (.error e)
    | .ok bytes =>
      some (.ok
        { typ := field bytes 0 4
          flags := field bytes 4 4
          offset := field bytes 8 8
          vaddr := field bytes 16 8
          filesz := field bytes 32 8
          memsz := field bytes 40 8 })

def checkValid (phdr : ProgramHeader) : Except LoadError Unit :=
  if phdr.vaddr % 4096 ≠ 0 then .error (.execFormat (some "phdr: vaddr is not page-aligned"))
  else if 2 ^ 64 ≤ phdr.vaddr + phdr.memsz then
    .error (.execFormat (some "phdr: invalid vaddr or memsz"))
  else if phdr.memsz < phdr.filesz then .error (.execFormat (some "phdr: filesz > memsz"))
  else if userElfSize < phdr.memsz then .error (.execFormat (some "phdr: too large memsz"))
  else if phdr.vaddr < userElfBaseVaddr ∨ userElfEndVaddr < phdr.vaddr + phdr.memsz then
    .error (.execFormat (some "phdr: vaddr..+=memsz is invalid"))
  else .ok ()

end ProgramHeader

def flagsToEntryPerm (flags : Nat) : EntryPerm where
  executable := flags &&& 0x1 != 0
  writable := flags &&& 0x2 != 0
  readable := flags &&& 0x4 != 0

/-- The bytes read go to the start of the page, and the rest of the buffer is
filled with zeros. -/
def fillPage (page : Nat) (bytes : List UInt8) (toRead : Nat) (h : Heap) : Heap :=
  { h with mem := Function.update h.mem page fun i =>
      if i < bytes.length then (bytes.getD i 0).toBitVec
      else if i < toRead then 0
      else h.mem page i }

/-- The loop of `load_segment`, over the page frames that the range of entries
yields.  `none` is the `unwrap` of a missing one, or an overflow. -/
def copyLoop (file : ExecFile) (phdr : ProgramHeader) :
    List Nat → Nat → Heap → Option (Heap × Except LoadError Unit)
  | [], fileOffset, h =>
    if fileOffset < phdr.filesz then none else some (h, .ok ())
  | page :: rest, fileOffset, h =>
    if fileOffset < phdr.filesz then
      let toRead := min (phdr.filesz - fileOffset) 4096
      if 2 ^ 64 ≤ phdr.offset + fileOffset then none
      else
        match file.read (phdr.offset + fileOffset) toRead with
        | .error e => some (h, .error (.sys e))
        | .ok bytes =>
          copyLoop file phdr rest (fileOffset + bytes.length) (fillPage page bytes toRead h)
    else some (h, .ok ())

section

variable (src : PageSource) (refused : Refusals) (file : ExecFile)

def loadSegmentAt (phdr : ProgramHeader) (vaddr : PageAligned)
    (a : AddrSpace) : Option (AddrSpace × Except LoadError Unit) :=
  let memsz := pgRoundUp phdr.memsz
  match allocSegment src refused vaddr memsz ((flagsToEntryPerm phdr.flags).union .onlyUser) a with
  | none => none
  | some (a, .error e) => some (a, .error (.sys e))
  | some (a, .ok ()) =>
    let physPtrs :=
      (rangeOfEntries a.vm.pgTable vaddr.val (vaddr.val + memsz.val)).map
        fun va => (a.vm.pgTable.entry 0 (key 0 va)).physicalAddr
    match copyLoop file phdr physPtrs 0 a.heap with
    | none => none
    | some (heap, result) => some ({ a with heap }, result)

def loadSegment (phdr : ProgramHeader) (a : AddrSpace) :
    Option (AddrSpace × Except LoadError Unit) :=
  if h : phdr.vaddr % 4096 = 0 then loadSegmentAt src refused file phdr ⟨phdr.vaddr, h⟩ a
  else some (a, .error (.sys SysErrorKind.invalidArgument.err))

def loadPhdr (hdr : ElfHeader) (index : Nat) (a : AddrSpace) :
    Option (AddrSpace × Except LoadError Unit) :=
  match ProgramHeader.loadFrom file hdr index with
  | none => none
  | some (.error e) => some (a, .error e)
  | some (.ok phdr) =>
    if phdr.typ ≠ ptLoad then some (a, .ok ())
    else
      match phdr.checkValid with
      | .error e => some (a, .error e)
      | .ok () => loadSegment src refused file phdr a

/-- `load_elf`; `none` is a panic. -/
def loadElf (a : AddrSpace) : Option (AddrSpace × Except LoadError ElfHeader) :=
  match ElfHeader.loadFrom file with
  | .error e => some (a, .error e)
  | .ok hdr =>
    match hdr.checkValid with
    | .error e => some (a, .error e)
    | .ok () =>
      match tryEach (loadPhdr src refused file hdr) (List.range hdr.phnum) a with
      | none => none
      | some (a, .error e) => some (a, .error e)
      | some (a, .ok ()) => some (a, .ok hdr)

end
end Redwing.Elf
