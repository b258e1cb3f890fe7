/-
Pipes, after `pipe.rs`: any number of tasks read from and write to one bounded
buffer, and sleep on two wait queues while they cannot go on.  A step of a task
is what it does up to its next lock, test or update of shared state.
-/
import Mathlib.Logic.Function.Basic
import Redwing.Machine

namespace Redwing.Pipes

open Function

/-- The two ends of a pipe, and the wait queues of those who use them: `r_wq`
and `w_wq`. -/
inductive End
  | read
  | write
deriving DecidableEq

def End.other : End → End
  | .read => .write
  | .write => .read

/-- `drain_vecdeque_to_slice`: the number of bytes copied, the slice and what
remains in the buffer.  The deque shows its contents as two slices, the first of
which has at most `split` bytes. -/
def drainVecdequeToSlice (split : Nat) (src dst : List UInt8) : Nat × List UInt8 × List UInt8 :=
  let toCopy := min src.length dst.length
  let sliceA := src.take split
  let sliceB := src.drop split
  let copyA := min sliceA.length toCopy
  let dst := sliceA.take copyA ++ dst.drop copyA
  let copyB := toCopy - copyA
  let dst :=
    if 0 < copyB then dst.take copyA ++ sliceB.take copyB ++ dst.drop toCopy
    else dst
  (toCopy, dst, src.drop toCopy)

/-- Where a task is in `SharedPipe::read` or `SharedPipe::write`. -/
inductive Pc
  | idle
  | lockBuffer
  | transfer
  | signal
  /-- Test whether the call is done or the pipe is closed. -/
  | check
  | lockQueue
  /-- Test once more whether the pipe is closed. -/
  | recheck
  | dropBuffer
  | sleep
  | asleep
  | finished
deriving DecidableEq

namespace Pc

def holdsBuffer : Pc → Bool
  | .transfer | .signal | .check | .lockQueue | .recheck | .dropBuffer => true
  | _ => false

def holdsQueue : Pc → Bool
  | .recheck | .dropBuffer | .sleep => true
  | _ => false

def active : Pc → Bool
  | .idle | .finished => false
  | _ => true

end Pc

/-- The local variables of a call: the bytes moved so far, of which there are
`len`, and what remains of the caller's slice. -/
structure Call where
  side : End
  done : List UInt8
  buf : List UInt8
deriving DecidableEq

def Call.len (call : Call) : Nat := call.done.length

structure Task where
  pc : Pc
  call : Call
deriving DecidableEq

/-- How far the drop of an end is in `PipeState::close`. -/
inductive Closing
  | live
  | swap
  | signal (queue : End)
  | closed
deriving DecidableEq

def Closing.past : Closing → Bool
  | .signal _ | .closed => true
  | _ => false

/-- A pipe with the tasks that use it.  A call in progress keeps a reference to
its end; `inCall` lists these calls.  `pushed` and `popped` are the bytes that
writes have put in and reads have copied out, in the order of the buffer lock. -/
structure Pipe where
  capacity : Nat
  buffer : List UInt8
  bufferLock : Option Nat
  isClosed : Bool
  queue : End → List Nat
  queueLock : End → Option Nat
  ends : End → Closing
  inCall : End → List Nat
  tasks : Nat → Task
  pushed : List UInt8
  popped : List UInt8

namespace Pipe

def withBufferSize (size : Nat) : Pipe where
  capacity := size
  buffer := []
  bufferLock := none
  isClosed := false
  queue := fun _ => []
  queueLock := fun _ => none
  ends := fun _ => .live
  inCall := fun _ => []
  tasks := fun _ => { pc := .idle, call := { side := .read, done := [], buf := [] } }
  pushed := []
  popped := []

variable (s : Pipe) (t : Nat)

def side : End := (s.tasks t).call.side

def setTask (task : Task) : Pipe := { s with tasks := update s.tasks t task }

def goto (pc : Pc) : Pipe := s.setTask t { s.tasks t with pc }

/-- `WaitQueueGuard::signal_all`, with the lock taken and released: every task in
the queue goes on where it waited. -/
def signalAll (queue : End) : Pipe :=
  { s with
    queue := update s.queue queue []
    tasks := fun u =>
      if u ∈ s.queue queue then { s.tasks u with pc := .lockBuffer }
      else s.tasks u }

/-- One round of `read`: as many bytes as there are and as are asked for. -/
def readRound (split : Nat) : Pipe :=
  let call := (s.tasks t).call
  let (bytesRead, dst, buffer) := drainVecdequeToSlice split s.buffer call.buf
  let copied := dst.take bytesRead
  { s.setTask t
      { pc := if bytesRead ≠ 0 then .signal else .check
        call := { call with done := call.done ++ copied, buf := dst.drop bytesRead } }
    with
    buffer
    popped := s.popped ++ copied }

/-- One round of `write`: as many bytes as fit. -/
def writeRound : Pipe :=
  let call := (s.tasks t).call
  let bytesWrite := min call.buf.length (s.capacity - s.buffer.length)
  let copied := call.buf.take bytesWrite
  { s.setTask t
      { pc := if bytesWrite ≠ 0 then .signal else .check
        call :=
          { call with
            done := call.done ++ copied
            buf := call.buf.drop bytesWrite } }
    with
    buffer := s.buffer ++ copied
    pushed := s.pushed ++ copied }

/-- The call returns and gives up its reference to the end. -/
def finish : Pipe :=
  { s.goto t .finished with
    bufferLock := none
    inCall := update s.inCall (s.side t) ((s.inCall (s.side t)).filter (· ≠ t)) }

/-- The next step of a call; `none` while it waits for a lock or sleeps. -/
def stepTask (split : Nat) : Option Pipe :=
  match (s.tasks t).pc with
  | .idle | .asleep | .finished => none
  | .lockBuffer =>
    if s.bufferLock = none then some { s.goto t .transfer with bufferLock := some t }
    else none
  | .transfer =>
    match s.side t with
    | .read => some (s.readRound t split)
    | .write => some (s.writeRound t)
  | .signal =>
    if s.queueLock (s.side t).other = none then some ((s.signalAll (s.side t).other).goto t .check)
    else none
  | .check =>
    if (s.tasks t).call.buf = [] ∨ s.isClosed then some (s.finish t)
    else some (s.goto t .lockQueue)
  | .lockQueue =>
    if s.queueLock (s.side t) = none then
      some { s.goto t .recheck with queueLock := update s.queueLock (s.side t) (some t) }
    else none
  | .recheck =>
    if s.isClosed then some { s.finish t with queueLock := update s.queueLock (s.side t) none }
    else some (s.goto t .dropBuffer)
  | .dropBuffer => some { s.goto t .sleep with bufferLock := none }
  | .sleep =>
    some { s.goto t .asleep with
      queue := update s.queue (s.side t) (s.queue (s.side t) ++ [t])
      queueLock := update s.queueLock (s.side t) none }

/-- A call of `read` or `write` on one of the ends.  On the wrong end it returns
an error at once. -/
def startCall (side pipeEnd : End) (buf : List UInt8) : Option Pipe :=
  if (s.tasks t).pc.active = false ∧ s.ends pipeEnd = .live then
    if side = pipeEnd then
      some { s.setTask t { pc := .lockBuffer, call := { side, done := [], buf } }
        with inCall := update s.inCall side (t :: s.inCall side) }
    else some s
  else none

/-- The last reference to an end goes. -/
def dropEnd (e : End) : Option Pipe :=
  if s.ends e = .live ∧ s.inCall e = [] then some { s with ends := update s.ends e .swap }
  else none

/-- `PipeState::close`, while the locks that it takes are not held by the CPU it
runs on. -/
def stepClose (e : End) : Option Pipe :=
  match s.ends e with
  | .live | .closed => none
  | .swap =>
    if s.isClosed then some { s with ends := update s.ends e .closed }
    else
      some { s with
        isClosed := true
        ends := update s.ends e (.signal .read) }
  | .signal queue =>
    if s.queueLock queue = none then
      let next :=
        match queue with
        | .read => .signal .write
        | .write => .closed
      some { s.signalAll queue with ends := update s.ends e next }
    else none

end Pipe

inductive Action
  | start (task : Nat) (side pipeEnd : End) (buf : List UInt8)
  | task (task split : Nat)
  | dropEnd (e : End)
  | close (e : End)
deriving DecidableEq

def step (s : Pipe) : Action → Option Pipe
  | .start t side pipeEnd buf => s.startCall t side pipeEnd buf
  | .task t split => s.stepTask t split
  | .dropEnd e => s.dropEnd e
  | .close e => s.stepClose e

def machine : Machine Pipe Action where
  start := fun s => ∃ size, s = .withBufferSize size
  step := step

end Redwing.Pipes
