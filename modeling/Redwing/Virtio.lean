/-
The virtio block driver, after `drivers/virtio/block.rs` and `sync/condvar.rs`:
any number of tasks in `disk_rw`, the interrupt handler and the device.  A step
is one section under a lock, or what the device does at once.
-/
import Mathlib
import Redwing.Machine

namespace Redwing.Virtio

open Function

/-! ### Descriptors -/

def ringSize : Nat := 8

/-- The indices of the rings are `u16` and wrap around. -/
def indexModulus : Nat := 2 ^ 16

/-- What a descriptor points to. -/
inductive Addr
  | null
  | req (desc : Nat)
  | buffer (addr : Nat)
  | status (head : Nat)
deriving DecidableEq

/-- A descriptor with its flags `NEXT` and `WRITE`. -/
structure VirtqDesc where
  addr : Addr
  len : Nat
  hasNext : Bool
  write : Bool
  next : Nat
deriving DecidableEq

def VirtqDesc.empty : VirtqDesc := ⟨.null, 0, false, false, 0⟩

structure VirtioBlkReq where
  write : Bool
  sector : Nat
deriving DecidableEq

/-- The three descriptors of a request. -/
structure Chain where
  idx0 : Nat
  idx1 : Nat
  idx2 : Nat
deriving DecidableEq

def Chain.indices (c : Chain) : List Nat := [c.idx0, c.idx1, c.idx2]

/-- The arguments of `disk_rw`. -/
structure Request where
  blockId : Nat
  buf : Nat
  write : Bool
deriving DecidableEq

/-- `SharedVirtioBlockDevice`.  `status` and `cond` are the two fields of the
`info` of a descriptor. -/
structure Shared where
  desc : Nat → VirtqDesc
  availRing : Nat → Nat
  availIdx : Nat
  usedRing : Nat → Nat
  /-- `used.idx`, which the device counts up. -/
  usedRingIdx : Nat
  usedIdx : Nat
  free : Nat → Bool
  ops : Nat → VirtioBlkReq
  status : Nat → Nat
  cond : Nat → Bool

namespace Shared

def new : Shared where
  desc := fun _ => .empty
  availRing := fun _ => 0
  availIdx := 0
  usedRing := fun _ => 0
  usedRingIdx := 0
  usedIdx := 0
  free := fun _ => true
  ops := fun _ => ⟨false, 0⟩
  status := fun _ => 0
  cond := fun _ => true

variable (s : Shared)

def allocDesc : Option (Nat × Shared) :=
  ((List.range ringSize).find? s.free).map fun idx =>
    (idx, { s with free := update s.free idx false })

/-- `free_desc`, without a result if it panics. -/
def freeDesc (index : Nat) : Option Shared :=
  if ringSize ≤ index then none
  else if s.free index then none
  else
    some { s with
      free := update s.free index true
      desc := update s.desc index .empty }

/-- `alloc3_desc`: the chain, if there are three free descriptors.  If there are
not, those allocated so far are freed, which could panic. -/
def alloc3Desc : Option (Option Chain × Shared) :=
  match s.allocDesc with
  | none => some (none, s)
  | some (a, s₁) =>
    match s₁.allocDesc with
    | none => (s₁.freeDesc a).map fun s => (none, s)
    | some (b, s₂) =>
      match s₂.allocDesc with
      | none => (s₂.freeDesc a).bind fun s => (s.freeDesc b).map fun s => (none, s)
      | some (c, s₃) => some (some ⟨a, b, c⟩, s₃)

/-- The loop of `free_chain`.  Every round frees a descriptor, so there are at
most `ringSize` of them before it panics. -/
def freeLoop (s : Shared) (idx : Nat) : Nat → Option Shared
  | 0 => none
  | fuel + 1 =>
    let desc := s.desc idx
    match s.freeDesc idx with
    | none => none
    | some s =>
      if desc.hasNext then s.freeLoop desc.next fuel else some s

/-- `free_chain`, without a result if it panics. -/
def freeChain (head : Nat) : Option Shared := s.freeLoop head (ringSize + 1)

def setupReqDesc (descIdx nextIdx sector : Nat) (write : Bool) : Shared :=
  { s with
    ops := update s.ops descIdx ⟨write, sector⟩
    desc := update s.desc descIdx
      { addr := .req descIdx
        len := 16
        hasNext := true
        write := false
        next := nextIdx % 2 ^ 16 } }

def setupDataDesc (descIdx nextIdx buf : Nat) (write : Bool) : Shared :=
  { s with
    desc := update s.desc descIdx
      { addr := .buffer buf
        len := 4096
        hasNext := true
        write := !write
        next := nextIdx % 2 ^ 16 } }

def setupStatusDesc (descIdx headIdx : Nat) : Shared :=
  { s with
    status := update s.status headIdx 0xff
    cond := update s.cond headIdx false
    desc := update s.desc descIdx
      { addr := .status headIdx
        len := 1
        hasNext := false
        write := true
        next := 0 } }

def sendRwCommand (c : Chain) (r : Request) : Shared :=
  let s := s.setupReqDesc c.idx0 c.idx1 (r.blockId * 8) r.write
  let s := s.setupDataDesc c.idx1 c.idx2 r.buf r.write
  let s := s.setupStatusDesc c.idx2 c.idx0
  { s with
    availRing := update s.availRing (s.availIdx % ringSize) (c.idx0 % 2 ^ 16)
    availIdx := (s.availIdx + 1) % indexModulus }

end Shared

/-! ### Tasks, the interrupt handler and the device -/

/-- Where a task is in `disk_rw`. -/
inductive Pc
  | idle
  | alloc (r : Request)
  | waitAlloc (r : Request)
  | asleepAlloc (r : Request)
  | send (r : Request) (c : Chain)
  /-- In `BoolCondvar::wait`, about to test the condition. -/
  | test (c : Chain)
  /-- With the lock of the condition's queue, before the task is queued. -/
  | join (c : Chain)
  | asleepBuf (c : Chain)
  | release (c : Chain)
  /-- With the chain freed, about to wake up `wait_for_alloc`. -/
  | signal
deriving DecidableEq

/-- Where `virtio_blk_intr` is. -/
inductive Intr
  | away
  | loop
  | notify (id : Nat)
  /-- With the condition set and the lock of its queue, about to wake it up. -/
  | notified (id : Nat)
deriving DecidableEq

inductive Party
  | task (t : Nat)
  | intr
deriving DecidableEq

/-- `fetched` is how far the device has read the available ring and `serving`
are the heads it works on.  `completed` tells of a head whether the device has
completed the last request submitted with it; the code does not keep this. -/
structure Sys where
  shared : Shared
  lock : Option Party
  allocQueue : List Nat
  condQueue : Nat → List Nat
  condLock : Nat → Option Party
  tasks : Nat → Pc
  intr : Intr
  fetched : Nat
  serving : List Nat
  completed : Nat → Bool

def boot : Sys where
  shared := .new
  lock := none
  allocQueue := []
  condQueue := fun _ => []
  condLock := fun _ => none
  tasks := fun _ => .idle
  intr := .away
  fetched := 0
  serving := []
  completed := fun _ => false

inductive Act
  | call (t : Nat) (r : Request)
  | task (t : Nat)
  | intr
  /-- The device reads the next entry of the available ring. -/
  | fetch
  | complete (head status : Nat)
deriving DecidableEq

namespace Sys

variable (s : Sys)

def goto (t : Nat) (pc : Pc) : Sys := { s with tasks := update s.tasks t pc }

/-- A task woken up from `wait_for_alloc` or from the condition of its request
starts the next round of its loop. -/
def wake : Pc → Pc
  | .asleepAlloc r => .alloc r
  | .asleepBuf c => .test c
  | pc => pc

def signalAlloc : Sys :=
  { s with
    allocQueue := []
    tasks := fun t => if t ∈ s.allocQueue then wake (s.tasks t) else s.tasks t }

def signalCond (id : Nat) : Sys :=
  { s with
    condQueue := update s.condQueue id []
    tasks := fun t =>
      if t ∈ s.condQueue id then wake (s.tasks t) else s.tasks t }

def stepTask (t : Nat) : Option Sys :=
  match s.tasks t with
  | .idle | .asleepAlloc _ | .asleepBuf _ => none
  | .alloc r =>
    if s.lock = none then
      s.shared.alloc3Desc.map fun
        | (some c, shared) => { s.goto t (.send r c) with shared }
        | (none, shared) => { s.goto t (.waitAlloc r) with shared }
    else none
  | .waitAlloc r => some { s.goto t (.asleepAlloc r) with allocQueue := s.allocQueue ++ [t] }
  | .send r c =>
    if s.lock = none then
      some { s.goto t (.test c) with
        shared := s.shared.sendRwCommand c r
        completed := update s.completed c.idx0 false }
    else none
  | .test c =>
    if s.shared.cond c.idx0 then some (s.goto t (.release c))
    else if s.condLock c.idx0 = none then
      some { s.goto t (.join c) with condLock := update s.condLock c.idx0 (some (.task t)) }
    else none
  | .join c =>
    some { s.goto t (.asleepBuf c) with
      condQueue := update s.condQueue c.idx0 (s.condQueue c.idx0 ++ [t])
      condLock := update s.condLock c.idx0 none }
  | .release c =>
    if s.lock = none then
      (s.shared.freeChain c.idx0).map fun shared =>
        { s.goto t .signal with shared, lock := some (.task t) }
    else none
  | .signal => some { s.signalAlloc.goto t .idle with lock := none }

def stepIntr : Option Sys :=
  match s.intr with
  | .away =>
    if s.lock = none then some { s with intr := .loop, lock := some .intr }
    else none
  | .loop =>
    if s.shared.usedRingIdx ≠ s.shared.usedIdx then
      let id := s.shared.usedRing (s.shared.usedIdx % ringSize)
      -- The index into `info` is checked.
      if id < ringSize then some { s with intr := .notify id } else none
    else some { s.signalAlloc with intr := .away, lock := none }
  | .notify id =>
    if s.condLock id = none then
      some { s with
        intr := .notified id
        condLock := update s.condLock id (some .intr)
        shared := { s.shared with cond := update s.shared.cond id true } }
    else none
  | .notified id =>
    some { s.signalCond id with
      intr := .loop
      condLock := update s.condLock id none
      shared := { s.shared with usedIdx := (s.shared.usedIdx + 1) % indexModulus } }

def step : Act → Option Sys
  | .call t r =>
    if s.tasks t = .idle then some (s.goto t (.alloc r)) else none
  | .task t => s.stepTask t
  | .intr => s.stepIntr
  | .fetch =>
    if s.fetched ≠ s.shared.availIdx then
      some { s with
        fetched := (s.fetched + 1) % indexModulus
        serving := s.serving ++ [s.shared.availRing (s.fetched % ringSize)] }
    else none
  | .complete head status =>
    if head ∈ s.serving then
      some { s with
        serving := s.serving.erase head
        completed := update s.completed head true
        shared := { s.shared with
          status := update s.shared.status head status
          usedRing := update s.shared.usedRing (s.shared.usedRingIdx % ringSize) head
          usedRingIdx := (s.shared.usedRingIdx + 1) % indexModulus } }
    else none

end Sys

def machine : Machine Sys Act where
  start s := s = boot
  step := Sys.step

/-! ### Requests in flight -/

namespace Pc

def chain : Pc → Option Chain
  | .send _ c | .test c | .join c | .asleepBuf c | .release c => some c
  | _ => none

def sent : Pc → Option Chain
  | .test c | .join c | .asleepBuf c | .release c => some c
  | _ => none

def awake : Pc → Bool
  | .asleepAlloc _ | .asleepBuf _ => false
  | _ => true

lemma chain_of_sent {pc : Pc} {c : Chain} (h : pc.sent = some c) : pc.chain = some c := by
  cases pc <;> first | exact h | cases h

end Pc

def Sys.chainOf (s : Sys) (t : Nat) : Option Chain := (s.tasks t).chain

def Sys.sentOf (s : Sys) (t : Nat) : Option Chain := (s.tasks t).sent

end Redwing.Virtio
