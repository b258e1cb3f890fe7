/-
The buddy allocator as its callers see it, with the page cache of every CPU.
A CPU works on its own cache undisturbed, but between two acquisitions of the
lock of the buddy allocator the other CPUs run, so every such section is a step
of its own.
-/
import Redwing.Buddy
import Redwing.Machine

namespace Redwing.Buddy

def pageCacheListLimit : Nat := 64

def pageCacheListBatchcount : Nat := 16

structure PageCacheList where
  cacheList : List Nat
  cacheListLen : Nat
deriving DecidableEq

/-- Where a CPU stands in `alloc_by_order` or `free_by_order`. -/
inductive Pc
  | idle
  /-- In the loop of `alloc_page`, with `n` rounds to go. -/
  | refill (n oldLen : Nat)
  /-- In the loop of `dealloc_page`, with `n` rounds to go. -/
  | drain (n : Nat)
deriving DecidableEq

structure State where
  buddy : Allocator
  cache : Nat → PageCacheList
  pc : Nat → Pc
  /-- The blocks in the hands of callers, as order and address. -/
  outstanding : List (Nat × Nat)
  /-- An assertion has failed. -/
  panicked : Bool

inductive Action
  | allocByOrder (cpu order : Nat)
  | freeByOrder (cpu ptr order : Nat)
  | advance (cpu : Nat)
deriving DecidableEq

namespace State

section

variable (s : State)

def setCache (cpu : Nat) (cache : PageCacheList) : State :=
  { s with cache := Function.update s.cache cpu cache }

def setPc (cpu : Nat) (pc : Pc) : State := { s with pc := Function.update s.pc cpu pc }

/-- What inserting a page into a cache list or removing it does to its
descriptor. -/
def setLinked (pg : Nat) (linked : Bool) : State :=
  { s with buddy := s.buddy.setPage pg ((s.buddy.pages pg).setLinked linked) }

/-- `cache_list.push_front`, which panics on a page that is in a list. -/
def cachePush (cpu pg : Nat) : Option State :=
  let cache := s.cache cpu
  if (s.buddy.pages pg).linked then none
  else some ((s.setLinked pg true).setCache cpu ⟨pg :: cache.cacheList, cache.cacheListLen + 1⟩)

/-- The effect of `cache_list.pop_front` and `cache_list.pop_back`: `pg` leaves
the list. -/
def cacheRemove (cpu pg : Nat) (rest : List Nat) : State :=
  (s.setLinked pg false).setCache cpu ⟨rest, (s.cache cpu).cacheListLen - 1⟩

def allocPage (cpu : Nat) : State :=
  let cache := s.cache cpu
  match cache.cacheList with
  | pg :: rest =>
    let s := (s.cacheRemove cpu pg rest).setPc cpu .idle
    { s with outstanding := (0, pg) :: s.outstanding }
  | [] => s.setPc cpu (.refill pageCacheListBatchcount cache.cacheListLen)

def refillStep (cpu n oldLen : Nat) : Option State := do
  match n with
  | n + 1 =>
    let (page, buddy) ← s.buddy.allocByOrder 0
    let s := { s with buddy := buddy }
    match page with
    | some pgPtr =>
      let pg ← Allocator.paddrToPage pgPtr
      let s ← s.cachePush cpu pg
      some (s.setPc cpu (.refill n oldLen))
    | none => some (s.setPc cpu (.refill 0 oldLen))
  | 0 =>
    if oldLen ≠ (s.cache cpu).cacheListLen then some (s.allocPage cpu)
    else some (s.setPc cpu .idle)

def deallocPage (cpu ptr : Nat) : Option State := do
  let pg ← Allocator.paddrToPage ptr
  let s ← s.cachePush cpu pg
  if (s.cache cpu).cacheListLen < pageCacheListLimit then some s
  else some (s.setPc cpu (.drain pageCacheListBatchcount))

/-- One round of the loop of `dealloc_page`, or its end.  An empty list counts
as a panic. -/
def drainStep (cpu n : Nat) : Option State := do
  match n with
  | n + 1 =>
    let list := (s.cache cpu).cacheList
    let pg ← list.getLast?
    let s := s.cacheRemove cpu pg list.dropLast
    let buddy ← s.buddy.freeByOrder pg 0
    some ({ s with buddy := buddy }.setPc cpu (.drain n))
  | 0 => some (s.setPc cpu .idle)

def callAlloc (cpu order : Nat) : Option State := do
  if order = 0 then some (s.allocPage cpu)
  else
    let (block, buddy) ← s.buddy.allocByOrder order
    let s := { s with buddy := buddy }
    match block with
    | some ptr => some { s with outstanding := (order, ptr) :: s.outstanding }
    | none => some s

def callFree (cpu ptr order : Nat) : Option State := do
  let s := { s with outstanding := s.outstanding.erase (order, ptr) }
  if order = 0 then s.deallocPage cpu ptr
  else
    let buddy ← s.buddy.freeByOrder ptr order
    some { s with buddy := buddy }

def advance (cpu : Nat) : Option State :=
  match s.pc cpu with
  | .idle => some s
  | .refill n oldLen => s.refillStep cpu n oldLen
  | .drain n => s.drainStep cpu n

/-- The state of a failed assertion, or the result. -/
def orPanic (result : Option State) : State := result.getD { s with panicked := true }

end

/-- Callers ask for orders below `MAX_ORDER` and give back outstanding blocks
with the order they got them with. -/
def step (ncpu : Nat) (s : State) (action : Action) : Option State :=
  if s.panicked then none
  else
    match action with
    | .allocByOrder cpu order =>
      if cpu < ncpu ∧ s.pc cpu = .idle ∧ order < maxOrder then
        some (s.orPanic (s.callAlloc cpu order))
      else none
    | .freeByOrder cpu ptr order =>
      if cpu < ncpu ∧ s.pc cpu = .idle ∧ (order, ptr) ∈ s.outstanding then
        some (s.orPanic (s.callFree cpu ptr order))
      else none
    | .advance cpu =>
      if cpu < ncpu ∧ s.pc cpu ≠ .idle then some (s.orPanic (s.advance cpu))
      else none

def boot (baseAddr endAddr : Nat) : State where
  buddy := (Allocator.init baseAddr endAddr).getD Allocator.default
  cache := fun _ => ⟨[], 0⟩
  pc := fun _ => .idle
  outstanding := []
  panicked := (Allocator.init baseAddr endAddr).isNone

end State

/-- Any number of CPUs that allocate from and free to one range of memory. -/
def machine (ncpu baseAddr endAddr : Nat) : Machine State Action where
  start := fun s => s = State.boot baseAddr endAddr
  step := State.step ncpu

end Redwing.Buddy
