/-
The stack that `execve` sets up (`proc/exec.rs`, `mmu/vm.rs`): the pages it
allocates, the argument and environment blocks it writes into them, and the
reader of `rw_ulib` that the new program runs on the two pointers it gets.
-/
import Redwing.CStrings
import Redwing.Elf
import Redwing.SignalAccounting

namespace Redwing.Exec

open Vm Walks Elf CStrings
open Signals (Trapframe)

def directMappingBaseVaddr : Nat := 0xD0000000
def directMappingEndVaddr : Nat := directMappingBaseVaddr + 128 * 1024 * 1024

def isValidPhyAddr (addr : Nat) : Bool :=
  decide (directMappingBaseVaddr ≤ addr ∧ addr < directMappingEndVaddr)

def alignToWord (val : Nat) : Nat := (val + 7) / 8 * 8

def userArgumentsMaxSize : Nat := 4096
def envVarsMaxSize : Nat := 4096 * 3
def taskUserStackSize : Nat := 4096 * 32
def taskTrapframeBase : PageAligned := ⟨0x200009000, by decide⟩

section

/-- `VMInner::va2pa`; the assertion of `get_entry` fails with `none`. -/
def va2pa (vm : VMInner) (va : Nat) : Option (Option Nat) :=
  (getEntry vm.pgTable va).map fun entry => entry.map Pte.physicalAddr

def storeBytes (page offset : Nat) (bytes : List UInt8) (h : Heap) : Heap :=
  { h with mem := Function.update h.mem page fun i =>
      if offset ≤ i ∧ i < offset + bytes.length then (bytes.getD (i - offset) 0).toBitVec
      else h.mem page i }

def write (vm : VMInner) (va : Nat) (bytes : List UInt8) (h : Heap) :
    Option (Heap × Except SysError Nat) :=
  if _hempty : bytes = [] then some (h, .ok va)
  else
    match va2pa vm (va / 4096 * 4096) with
    | none => none
    | some none =>
      -- the message masks with the page size, not with the offset bits
      some (h, .error
        { kind := .invalidArgument
          msg := some ("Vm::write(): the page at " ++
            hex (va &&& (2 ^ 64 - 1 - 4096)) ++ " is not mapped.") })
    | some (some pa) =>
      if isValidPhyAddr pa then
        let offset := va % 4096
        let bytesCp := min bytes.length (4096 - offset)
        write vm (va + bytesCp) (bytes.drop bytesCp) (storeBytes pa offset (bytes.take bytesCp) h)
      else
        some (h, .error
          { kind := .invalidArgument
            msg := some ("Vm::write(): the mapped physical address can " ++
              "not be accessiable from kernel: " ++ hex pa) })
termination_by bytes.length
decreasing_by
  have hlength := List.length_pos_iff.mpr _hempty
  have hoffset := Nat.mod_lt va (show 4096 > 0 by decide)
  rw [List.length_drop]
  omega

def writeCstrs (vm : VMInner) : List (List UInt8) → Nat → Heap → Option (Heap × Except SysError Nat)
  | [], sp, h => some (h, .ok sp)
  | arg :: rest, sp, h =>
    andThen (write vm sp arg h) fun sp h =>
      andThen (write vm sp [0] h) fun sp h => writeCstrs vm rest sp h

def cstrsLayoutSz (cstrs : List (List UInt8)) : Nat :=
  alignToWord (8 + (cstrs.map fun arg => arg.length + 1).sum)

def pushCstrArray (sp : Nat) (cstrs : List (List UInt8)) (maxLen : Nat)
    (a : AddrSpace) : Option (AddrSpace × Except SysError Nat) :=
  if maxLen < cstrsLayoutSz cstrs then some (a, .error SysErrorKind.invalidArgument.err)
  else
    let newSp := sp - cstrsLayoutSz cstrs
    match andThen (write a.vm newSp (wordBytes cstrs.length) a.heap) (writeCstrs a.vm cstrs) with
    | none => none
    | some (heap, .error e) => some ({ a with heap }, .error e)
    | some (heap, .ok _) => some ({ a with heap }, .ok newSp)

end

def userLoad (vm : VMInner) (h : Heap) : Memory := fun addr =>
  match translate vm.pgTable addr with
  | none => none
  | some e =>
    if e.perm.user && e.perm.readable then
      some (UInt8.ofBitVec (h.mem e.physicalAddr (addr % 4096)))
    else none

/-- `read_cstr_array` of `rw_ulib`; `none` is a misaligned pointer, or a load
that faults. -/
def readCstrArray (mem : Memory) (cstrArrayPtr : Nat) : Option (List (List UInt8)) :=
  if cstrArrayPtr % 8 ≠ 0 then none
  else
    match loadWord mem cstrArrayPtr with
    | none => none
    | some cstrsLen => loadStrings mem vaLimit cstrsLen (cstrArrayPtr + 8)

section

def trapframeWords (tf : Trapframe) : List (BitVec 64) :=
  [tf.ra, tf.sp, tf.gp, tf.tp, tf.t0, tf.t1, tf.t2, tf.t3, tf.t4, tf.t5, tf.t6,
    tf.a0, tf.a1, tf.a2, tf.a3, tf.a4, tf.a5, tf.a6, tf.a7, tf.s0, tf.s1,
    tf.s2, tf.s3, tf.s4, tf.s5, tf.s6, tf.s7, tf.s8, tf.s9, tf.s10, tf.s11,
    tf.kernelStack, tf.hartid, tf.sstatus, tf.sepc]

def trapframeBytes (tf : Trapframe) : List UInt8 :=
  (trapframeWords tf).flatMap fun word => wordBytes word.toNat

def newTrapframe (arg0 arg1 sp retPc : Nat) : Trapframe :=
  { Trapframe.zero with
    a0 := BitVec.ofNat 64 arg0
    a1 := BitVec.ofNat 64 arg1
    sp := BitVec.ofNat 64 sp
    sepc := BitVec.ofNat 64 retPc }

end

section

variable (src : PageSource) (refused : Refusals)

def uvgrowPage (perm : EntryPerm) (a : AddrSpace) : Option (AddrSpace × Except SysError Unit) :=
  uvalloc src refused (a.vm.userSpaceSize + 4096) perm false a

/-- `init_user_stack`: a guard page, the lazily allocated part of the stack,
the four pages for arguments and environment, and another guard page. -/
def initUserStack (a : AddrSpace) : Option (AddrSpace × Except SysError Nat) :=
  andThen (uvgrowPage src refused .empty a) fun () a =>
    let sz := a.vm.userSpaceSize + taskUserStackSize - 4096 * 4
    andThen (uvalloc src refused sz .withRw true a) fun () a =>
      let sz := sz + 4096 * 4
      andThen (uvalloc src refused sz .withRw false a) fun () a =>
        andThen (uvgrowPage src refused .empty a) fun () a => some (a, .ok (userBaseVaddr + sz))

/-- `VMInner::alloc_trapframe`; `none` is the `unwrap` of `trapframe`, or a
panic of `alloc_segment`. -/
def allocTrapframe (tf : Trapframe) (a : AddrSpace) : Option (AddrSpace × Except SysError Unit) :=
  andThen (allocSegment src refused taskTrapframeBase ⟨4096, page_aligned⟩ .withRw
    (deallocSegment taskTrapframeBase a).1) fun () a =>
      match va2pa a.vm taskTrapframeBase.val with
      | some (some pa) =>
        some ({ a with heap := storeBytes pa 0 (trapframeBytes tf) a.heap }, .ok ())
      | _ => none

/-- The errors of the address space, among those of `execve`. -/
def intoExec {α : Type} : Option (AddrSpace × Except SysError α) →
      Option (AddrSpace × Except LoadError α)
  | none => none
  | some (a, .error e) => some (a, .error (.sys e))
  | some (a, .ok x) => some (a, .ok x)

/-- `execve` on the new address space that `with_kernel_vm` returned, with the
trapframe the program starts with. -/
def execve (file : ExecFile) (userArgs envVars : List (List UInt8))
    (newVm : AddrSpace) : Option (AddrSpace × Except LoadError Trapframe) :=
  andThen (loadElf src refused file newVm) fun elfhdr a =>
    andThen (intoExec (initUserStack src refused a)) fun sp a =>
      andThen (intoExec (pushCstrArray sp userArgs userArgumentsMaxSize a)) fun argsPtr a =>
      andThen (intoExec (pushCstrArray argsPtr envVars envVarsMaxSize a)) fun envPtrs a =>
      let sp := envPtrs
      let trapframe := newTrapframe argsPtr envPtrs sp elfhdr.entry
      andThen (intoExec (allocTrapframe src refused trapframe a)) fun () a =>
        some (a, .ok trapframe)

end
end Redwing.Exec
