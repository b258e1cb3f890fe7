/-
Open files and their positions, after `fs/file.rs`, `fs/fcntl.rs` and the
descriptor table of a task.  `dup` copies the position together with the file,
so the descriptors of one `open` call keep a common position just as long as
none of them moves it while there is another.
-/
import Mathlib
import Redwing.Machine

namespace Redwing.OpenFiles

open Function

/-! ### Files -/

def maxOpenFiles : Nat := 20

inductive SysErrorKind
  | badFileDescriptor
  | tooManyOpenFiles
  | invalidArgument
  | other
deriving DecidableEq

inductive SeekFrom
  | set
  | current
  | fromEnd
deriving DecidableEq

/-- What the file layer uses of the file systems in state `W`: `open_inode` with
the checks of `open`, and `read`, `write` and the size of an inode. -/
structure INodes (W P : Type) where
  openInode : W → P → Except SysErrorKind Nat × W
  read : W → Nat → Nat → Nat → Except SysErrorKind (List UInt8) × W
  write : W → Nat → Nat → List UInt8 → Except SysErrorKind Nat × W
  size : W → Nat → Except SysErrorKind Nat

/-- A file of kind `Inode`.  `origin` is the number of the `open` call that it
comes from, which the code does not keep. -/
structure File where
  origin : Nat
  inode : Nat
  offset : Nat
  readable : Bool
  writable : Bool
deriving DecidableEq

/-- `File::dup`: the copy gets a lock of its own around the present offset. -/
def File.dup (file : File) : File where
  origin := file.origin
  inode := file.inode
  offset := file.offset
  readable := file.readable
  writable := file.writable

def toI64 (n : Nat) : Option Int := if n < 2 ^ 63 then some n else none

def checkedAdd (a b : Int) : Option Int :=
  if -2 ^ 63 ≤ a + b ∧ a + b < 2 ^ 63 then some (a + b) else none

def toU64 (n : Int) : Option Nat := if 0 ≤ n then some n.toNat else none

/-- `calculate_offset` of `seek`; every error becomes `InvalidArgument`. -/
def calculateOffset (curPos : Nat) (offset : Int)
    (size : Except SysErrorKind Nat) : SeekFrom → Option Nat
  | .set => toU64 offset
  | .current => ((toI64 curPos).bind fun base => checkedAdd base offset).bind toU64
  | .fromEnd =>
    match size with
    | .error _ => none
    | .ok size => ((toI64 size).bind fun base => checkedAdd base offset).bind toU64

/-! ### The tasks -/

/-- One successful operation on a file: the position it began at and the one it
left. -/
structure Landing where
  origin : Nat
  start : Nat
  stop : Nat
  seek : Bool
deriving DecidableEq

/-- The file systems, the descriptor tables of the tasks, the number of `open`
calls so far and what the operations did, the last one first. -/
structure Sys (W : Type) where
  world : W
  started : Nat → Bool
  oFiles : Nat → Nat → Option File
  opens : Nat
  landings : List Landing

inductive Action (P : Type)
  | openFile (task : Nat) (path : P) (readable writable append : Bool)
  | fork (parent child : Nat)
  | dup2 (task srcFd dstFd : Nat)
  | read (task fd len : Nat)
  | write (task fd : Nat) (buf : List UInt8)
  | seek (task fd : Nat) (offset : Int) (whence : SeekFrom)

namespace Sys

variable {W P : Type}

def getFile (s : Sys W) (task fd : Nat) : Option File :=
  if fd < maxOpenFiles then s.oFiles task fd else none

def putFile (s : Sys W) (task fd : Nat) (file : File) : Sys W :=
  { s with oFiles := update s.oFiles task (update (s.oFiles task) fd (some file)) }

def freeFd (table : Nat → Option File) (fd : Nat) : Nat → Option Nat
  | 0 => none
  | count + 1 =>
    if (table fd).isNone then some fd else freeFd table (fd + 1) count

/-- `allocate_fd_for`; without a free descriptor the file is dropped. -/
def allocateFdFor (s : Sys W) (task : Nat) (file : File) : Sys W :=
  match freeFd (s.oFiles task) 0 maxOpenFiles with
  | none => s
  | some fd => s.putFile task fd file

def openFile (inodes : INodes W P) (s : Sys W) (task : Nat) (path : P)
    (readable writable append : Bool) : Sys W :=
  match inodes.openInode s.world path with
  | (.error _, world) => { s with world := world }
  | (.ok inode, world) =>
    let file : File := ⟨s.opens, inode, 0, readable, writable⟩
    let s := { s with world := world, opens := s.opens + 1 }
    if append then
      match calculateOffset 0 0 (inodes.size world inode) .fromEnd with
      | none => s
      | some offset => s.allocateFdFor task { file with offset := offset }
    else s.allocateFdFor task file

/-- `copy_o_files` into the empty table of a new task. -/
def fork (s : Sys W) (parent child : Nat) : Sys W :=
  { s with
    started := update s.started child true
    oFiles := update s.oFiles child fun fd => (s.oFiles parent fd).map File.dup }

def dup2 (s : Sys W) (task srcFd dstFd : Nat) : Sys W :=
  match s.getFile task srcFd with
  | none => s
  | some file =>
    if dstFd < maxOpenFiles then s.putFile task dstFd file.dup else s

def move (s : Sys W) (task fd : Nat) (file : File) (start stop : Nat) (seek : Bool) : Sys W :=
  { s.putFile task fd { file with offset := stop } with
    landings := ⟨file.origin, start, stop, seek⟩ :: s.landings }

section

variable (inodes : INodes W P) (s : Sys W)

def read (task fd len : Nat) : Sys W :=
  match s.getFile task fd with
  | none => s
  | some file =>
    if file.readable then
      match inodes.read s.world file.inode file.offset len with
      | (.error _, world) => { s with world := world }
      | (.ok bytes, world) =>
        { s with world := world }.move task fd file file.offset (file.offset + bytes.length) false
    else s

def write (task fd : Nat) (buf : List UInt8) : Sys W :=
  match s.getFile task fd with
  | none => s
  | some file =>
    if file.writable then
      match inodes.write s.world file.inode file.offset buf with
      | (.error _, world) => { s with world := world }
      | (.ok len, world) =>
        { s with world := world }.move task fd file file.offset (file.offset + len) false
    else s

def seek (task fd : Nat) (offset : Int) (whence : SeekFrom) : Sys W :=
  match s.getFile task fd with
  | none => s
  | some file =>
    match calculateOffset file.offset offset (inodes.size s.world file.inode) whence with
    | none => s
    | some target => s.move task fd file target target true

end
end Sys

variable {W P : Type}

def act (inodes : INodes W P) (s : Sys W) : Action P → Sys W
  | .openFile task path readable writable append =>
    s.openFile inodes task path readable writable append
  | .fork parent child => s.fork parent child
  | .dup2 task srcFd dstFd => s.dup2 task srcFd dstFd
  | .read task fd len => s.read inodes task fd len
  | .write task fd buf => s.write inodes task fd buf
  | .seek task fd offset whence => s.seek inodes task fd offset whence

def Action.task : Action P → Nat
  | .openFile task .. | .fork task _ | .dup2 task .. | .read task .. |
    .write task .. | .seek task .. => task

def Action.creates : Action P → Option Nat
  | .fork _ child => some child
  | _ => none

def enabled (s : Sys W) (a : Action P) : Bool :=
  s.started a.task && a.creates.all fun child => !s.started child

/-- One task with an empty table; any file systems. -/
structure Boot (s : Sys W) : Prop where
  started : ∀ task, s.started task = true → task = 0
  empty : ∀ task fd, s.oFiles task fd = none
  opens : s.opens = 0
  landings : s.landings = []

def machine (inodes : INodes W P) : Machine (Sys W) (Action P) where
  start := Boot
  step s a := if enabled s a then some (act inodes s a) else none

/-! ### One position for one open call -/

def Sys.Holds (s : Sys W) (file : File) : Prop := ∃ task fd, s.oFiles task fd = some file

def Sys.Shared (s : Sys W) : Prop :=
  ∀ file file', s.Holds file → s.Holds file' → file.origin = file'.origin →
    file.offset = file'.offset

def Landing.Follows (newer older : Landing) : Prop := newer.seek = true ∨ newer.start = older.stop

/-- What was done through the descriptors of one `open` call. -/
def landingsOf (landings : List Landing) (origin : Nat) : List Landing :=
  landings.filter fun landing => decide (landing.origin = origin)

/-- Through the descriptors of one `open` call the file is read and written
piece by piece. -/
def Sys.Consecutive (s : Sys W) : Prop :=
  ∀ origin, (landingsOf s.landings origin).IsChain Landing.Follows

/-- The operation goes through a descriptor that is the only one of its `open`
call. -/
def Sys.Alone (s : Sys W) (task fd : Nat) (file : File) : Prop :=
  ∀ task' fd' file', s.oFiles task' fd' = some file' →
    file'.origin = file.origin → task' = task ∧ fd' = fd

def target (inodes : INodes W P) (s : Sys W) (file : File) : Action P → Option Nat
  | .read _ _ len =>
    if file.readable then
      match (inodes.read s.world file.inode file.offset len).1 with
      | .ok bytes => some (file.offset + bytes.length)
      | .error _ => none
    else none
  | .write _ _ buf =>
    if file.writable then
      match (inodes.write s.world file.inode file.offset buf).1 with
      | .ok len => some (file.offset + len)
      | .error _ => none
    else none
  | .seek _ _ offset whence =>
    calculateOffset file.offset offset (inodes.size s.world file.inode) whence
  | _ => none

def Action.fd : Action P → Option Nat
  | .read _ fd _ | .write _ fd _ | .seek _ fd _ _ => some fd
  | _ => none

/-- A position is moved only through a descriptor that is the only one of its
`open` call. -/
def MovesAlone (inodes : INodes W P) (s : Sys W) (a : Action P) : Prop :=
  ∀ fd file, a.fd = some fd → s.getFile a.task fd = some file →
    target inodes s file a = some file.offset ∨
      target inodes s file a = none ∨ s.Alone a.task fd file

/-! ### The invariant -/

/-- The invariant, over the files that are open and what was done. -/
structure Inv (held : File → Prop) (landings : List Landing) (opens : Nat) :
    Prop where
  shared : ∀ file file', held file → held file' →
    file.origin = file'.origin → file.offset = file'.offset
  consecutive : ∀ origin, (landingsOf landings origin).IsChain Landing.Follows
  last : ∀ file, held file → ∀ landing ∈ (landingsOf landings file.origin).head?,
      landing.stop = file.offset
  below : ∀ file, held file → file.origin < opens
  landed : ∀ landing ∈ landings, landing.origin < opens

namespace Inv

variable {held held' : File → Prop} {landings : List Landing}

lemma mono (h : Inv held landings opens) (hsub : ∀ file, held' file → held file) :
    Inv held' landings opens where
  shared file file' hf hf' := h.shared file file' (hsub _ hf) (hsub _ hf')
  consecutive := h.consecutive
  last file hf := h.last file (hsub _ hf)
  below file hf := h.below file (hsub _ hf)
  landed := h.landed

lemma landingsOf_opens (h : Inv held landings opens) : landingsOf landings opens = [] := by
  apply List.filter_eq_nil_iff.mpr
  intro landing hmem
  have hlt := h.landed landing hmem
  rw [decide_eq_true_eq]
  exact ne_of_lt hlt

lemma openFile (h : Inv held landings opens) (new : File) (hnew : new.origin = opens)
    (hheld : ∀ file, held' file → held file ∨ file = new) : Inv held' landings (opens + 1) := by
  have hold : ∀ file, held' file → file.origin ≠ opens → held file := by
    intro file hf hne
    rcases hheld file hf with hold | rfl
    · exact hold
    · exact absurd hnew hne
  have hsole : ∀ file, held' file → file.origin = opens → file = new := by
    intro file hf heq
    rcases hheld file hf with hold | rfl
    · exact absurd heq (ne_of_lt (h.below file hold))
    · rfl
  constructor
  · intro file file' hf hf' heq
    by_cases hopens : file.origin = opens
    · rw [hsole file hf hopens, hsole file' hf' (heq.symm.trans hopens)]
    · exact h.shared file file' (hold file hf hopens) (hold file' hf' (heq ▸ hopens)) heq
  · exact h.consecutive
  · intro file hf
    by_cases hopens : file.origin = opens
    · rw [hopens, h.landingsOf_opens]
      exact nofun
    · exact h.last file (hold file hf hopens)
  · intro file hf
    rcases hheld file hf with hold | rfl
    · exact Nat.lt_succ_of_lt (h.below file hold)
    · rw [hnew]
      exact Nat.lt_succ_self opens
  · intro landing hmem
    exact Nat.lt_succ_of_lt (h.landed landing hmem)

lemma landingsOf_cons_self (landing : Landing) : landingsOf (landing :: landings) landing.origin =
    landing :: landingsOf landings landing.origin :=
  List.filter_cons_of_pos (decide_eq_true rfl)

lemma landingsOf_cons_ne (h : landing.origin ≠ origin) :
    landingsOf (landing :: landings) origin = landingsOf landings origin :=
  List.filter_cons_of_neg fun heq => h (of_decide_eq_true heq)

lemma move (h : Inv held landings opens) {file : File} (hfile : held file)
    {start stop : Nat} {seek : Bool} (hstart : seek = true ∨ start = file.offset)
    (hheld : ∀ other, held' other → held other ∧ other.origin ≠ file.origin ∨
        other.origin = file.origin ∧ other.offset = stop) :
    Inv held' (⟨file.origin, start, stop, seek⟩ :: landings) opens where
  shared other other' ho ho' heq := by
    rcases hheld other ho with ⟨hold, hne⟩ | ⟨hsame, hstop⟩
    · rcases hheld other' ho' with ⟨hold', -⟩ | ⟨heq', -⟩
      · exact h.shared other other' hold hold' heq
      · exact absurd (heq.trans heq') hne
    rcases hheld other' ho' with ⟨-, hne⟩ | ⟨-, hstop'⟩
    · exact absurd (heq.symm.trans hsame) hne
    · rw [hstop, hstop']
  consecutive origin := by
    by_cases hne : file.origin = origin
    · subst hne
      rw [landingsOf_cons_self ⟨file.origin, start, stop, seek⟩]
      apply List.isChain_cons.mpr
      refine ⟨fun older holder => ?_, h.consecutive file.origin⟩
      rcases hstart with hseek | hoffset
      · exact .inl hseek
      · exact .inr (hoffset.trans (h.last file hfile older holder).symm)
    · rw [landingsOf_cons_ne hne]
      exact h.consecutive origin
  last other ho := by
    rcases hheld other ho with ⟨hold, hne⟩ | ⟨heq, hstop⟩
    · rw [landingsOf_cons_ne (Ne.symm hne)]
      exact h.last other hold
    rw [heq, landingsOf_cons_self ⟨file.origin, start, stop, seek⟩]
    intro landing hhead
    cases hhead
    exact hstop.symm
  below other ho := by
    rcases hheld other ho with ⟨hold, -⟩ | ⟨heq, -⟩
    · exact h.below other hold
    · rw [heq]
      exact h.below file hfile
  landed landing hmem := by
    rcases List.mem_cons.mp hmem with rfl | hmem
    · exact h.below file hfile
    · exact h.landed landing hmem

end Inv

namespace Sys

variable {s : Sys W}

variable {task : Nat} {file : File}

lemma holds_of_getFile (h : s.getFile task fd = some file) : s.Holds file := by
  rw [getFile] at h
  split at h
  · exact ⟨task, fd, h⟩
  · cases h

lemma oFiles_putFile : (s.putFile task fd file).oFiles task' fd' =
    if task' = task ∧ fd' = fd then some file else s.oFiles task' fd' := by
  by_cases ht : task' = task
  · subst ht
    have htable : (s.putFile task' fd file).oFiles task' =
        update (s.oFiles task') fd (some file) := update_self ..
    rw [htable]
    by_cases hf : fd' = fd
    · rw [if_pos ⟨rfl, hf⟩, hf, update_self]
    · rw [if_neg fun h => hf h.2, update_of_ne hf]
  have htable : (s.putFile task fd file).oFiles task' = s.oFiles task' := update_of_ne ht ..
  rw [htable, if_neg fun h => ht h.1]

lemma holds_putFile (h : (s.putFile task fd file).Holds other) : s.Holds other ∨ other = file := by
  obtain ⟨task', fd', hget⟩ := h
  rw [oFiles_putFile] at hget
  split at hget
  · exact .inr (Option.some.inj hget).symm
  · exact .inl ⟨task', fd', hget⟩

lemma holds_allocateFdFor (h : (s.allocateFdFor task file).Holds other) :
    s.Holds other ∨ other = file := by
  rw [allocateFdFor] at h
  split at h
  · exact .inl h
  · exact holds_putFile h

lemma landings_allocateFdFor (task : Nat) (file : File) :
    (s.allocateFdFor task file).landings = s.landings ∧
      (s.allocateFdFor task file).opens = s.opens := by
  rw [allocateFdFor]
  split <;> exact ⟨rfl, rfl⟩

def Inv (s : Sys W) : Prop := OpenFiles.Inv s.Holds s.landings s.opens

lemma Inv.allocateFdFor (h : s.Inv) (world : W) (task : Nat) (hfile : file.origin = s.opens) :
    ({ s with world := world, opens := s.opens + 1 }.allocateFdFor task file).Inv := by
  obtain ⟨hlandings, hopens⟩ := landings_allocateFdFor
    (s := { s with world := world, opens := s.opens + 1 }) task file
  rw [Inv, hlandings, hopens]
  apply OpenFiles.Inv.openFile h file hfile
  intro other hother
  exact holds_allocateFdFor (s := { s with world := world, opens := s.opens + 1 }) hother

lemma Inv.openFile (h : s.Inv) (inodes : INodes W P) (task : Nat) (path : P)
    (readable writable append : Bool) :
    (s.openFile inodes task path readable writable append).Inv := by
  rw [Sys.openFile]
  split
  · exact h
  simp only
  split
  · split
    · exact OpenFiles.Inv.openFile h ⟨s.opens, 0, 0, true, true⟩ rfl fun _ => .inl
    · exact h.allocateFdFor _ task rfl
  · exact h.allocateFdFor _ task rfl

lemma Inv.fork (h : s.Inv) (parent child : Nat) : (s.fork parent child).Inv := by
  apply h.mono
  rintro file ⟨task, fd, hget⟩
  by_cases ht : task = child
  · subst ht
    have htable : (s.fork parent task).oFiles task = fun fd =>
        (s.oFiles parent fd).map File.dup := update_self ..
    rw [htable] at hget
    obtain ⟨old, hold, rfl⟩ := Option.map_eq_some_iff.mp hget
    exact ⟨parent, fd, hold⟩
  have htable : (s.fork parent child).oFiles task = s.oFiles task := update_of_ne ht ..
  rw [htable] at hget
  exact ⟨task, fd, hget⟩

lemma Inv.dup2 (h : s.Inv) (task srcFd dstFd : Nat) : (s.dup2 task srcFd dstFd).Inv := by
  rw [Sys.dup2]
  split
  · exact h
  rename_i file hget
  split
  · apply h.mono
    intro other hother
    rcases holds_putFile hother with hold | rfl
    · exact hold
    · exact holds_of_getFile hget
  · exact h

lemma Inv.move (h : s.Inv) (world : W) (hget : s.getFile task fd = some file) {start stop : Nat}
    {seek : Bool} (hstart : seek = true ∨ start = file.offset)
    (halone : stop = file.offset ∨ s.Alone task fd file) :
    ({ s with world := world }.move task fd file start stop seek).Inv := by
  apply OpenFiles.Inv.move h (holds_of_getFile hget) hstart
  rintro other ⟨task', fd', hother⟩
  change (s.putFile task fd { file with offset := stop }).oFiles task' fd' = some other at hother
  rw [oFiles_putFile] at hother
  split at hother
  · cases hother
    exact .inr ⟨rfl, rfl⟩
  rename_i hne
  have hheld : s.Holds other := ⟨task', fd', hother⟩
  by_cases horigin : other.origin = file.origin
  · right
    rcases halone with rfl | halone
    · exact ⟨horigin, h.shared _ _ hheld (holds_of_getFile hget) horigin⟩
    · exact absurd (halone task' fd' other hother horigin) hne
  · exact .inl ⟨hheld, horigin⟩

end Sys

variable {task : Nat} {inodes : INodes W P}

lemma MovesAlone.stays (h : MovesAlone inodes s a) (hfd : a.fd = some fd)
    (hget : s.getFile a.task fd = some file) (htarget : target inodes s file a = some stop) :
    stop = file.offset ∨ s.Alone a.task fd file := by
  rcases h fd file hfd hget with hstay | hnone | halone
  · exact .inl (Option.some.inj (htarget.symm.trans hstay))
  · cases htarget.symm.trans hnone
  · exact .inr halone

lemma Sys.Inv.read (h : s.Inv) (hok : MovesAlone inodes s (.read task fd len)) :
    (s.read inodes task fd len).Inv := by
  rw [Sys.read]
  split
  · exact h
  rename_i file hget
  split
  · rename_i hreadable
    split
    · exact h
    rename_i bytes world hread
    apply h.move world hget (.inr rfl)
    apply hok.stays rfl hget
    rw [target, if_pos hreadable, hread]
  · exact h

lemma Sys.Inv.write (h : s.Inv) (hok : MovesAlone inodes s (.write task fd buf)) :
    (s.write inodes task fd buf).Inv := by
  rw [Sys.write]
  split
  · exact h
  rename_i file hget
  split
  · rename_i hwritable
    split
    · exact h
    rename_i len world hwrite
    apply h.move world hget (.inr rfl)
    apply hok.stays rfl hget
    rw [target, if_pos hwritable, hwrite]
  · exact h

lemma Sys.Inv.seek (h : s.Inv) (hok : MovesAlone inodes s (.seek task fd offset whence)) :
    (s.seek inodes task fd offset whence).Inv := by
  rw [Sys.seek]
  split
  · exact h
  rename_i file hget
  split
  · exact h
  · rename_i stop htarget
    exact h.move s.world hget (.inl rfl) (hok.stays rfl hget htarget)

lemma inv_act (h : s.Inv) (hok : MovesAlone inodes s a) : (act inodes s a).Inv := by
  cases a with
  | openFile task path readable writable append =>
    exact h.openFile inodes task path readable writable append
  | fork parent child => exact h.fork parent child
  | dup2 task srcFd dstFd => exact h.dup2 task srcFd dstFd
  | read task fd len => exact h.read hok
  | write task fd buf => exact h.write hok
  | seek task fd offset whence => exact h.seek hok

lemma inv_of_boot (h : Boot s) : s.Inv := by
  have hnone : ∀ file, ¬ s.Holds file := by
    rintro file ⟨task, fd, hget⟩
    cases (h.empty task fd).symm.trans hget
  rw [Sys.Inv, h.landings]
  exact ⟨fun file _ hf => absurd hf (hnone file), fun _ => .nil,
    fun file hf => absurd hf (hnone file), fun file hf => absurd hf (hnone file), nofun⟩

/-- The descriptors of one `open` call have one position, and what is read and
written through them follows piece by piece, in every run in which a position is
moved only through the only descriptor of its `open` call. -/
theorem descriptors_share_position (inodes : INodes W P) {s : Sys W}
    (hs : (machine inodes).ReachableUnder (MovesAlone inodes) s) : s.Shared ∧ s.Consecutive := by
  have hinv : s.Inv := by
    apply hs.invariant
    · exact fun _ => inv_of_boot
    intro s a t hinv hok hstep
    change (if enabled s a then some (act inodes s a) else none) = some t at hstep
    split at hstep
    · cases hstep
      exact inv_act hinv hok
    · cases hstep
  exact ⟨hinv.shared, hinv.consecutive⟩

/-- Files in memory, after `RamFile`; a path is the number of an inode. -/
def ramINodes : INodes (Nat → List UInt8) Nat where
  openInode world path := (.ok path, world)
  read world inode offset len := (.ok (((world inode).drop offset).take len), world)
  write world inode offset buf :=
    if (world inode).length < offset then (.error .invalidArgument, world)
    else
      (.ok buf.length, update world inode ((world inode).take offset ++ buf ++
          (world inode).drop (offset + buf.length)))
  size world inode := .ok (world inode).length

def boot : Sys (Nat → List UInt8) where
  world := fun _ => []
  started := fun task => task == 0
  oFiles := fun _ _ => none
  opens := 0
  landings := []

lemma boot_start : Boot boot := ⟨fun _ h => eq_of_beq h, fun _ _ => rfl, rfl, rfl⟩

def oneByte : Sys (Nat → List UInt8) :=
  act ramINodes (act ramINodes boot (.openFile 0 0 true true false)) (.write 0 0 [65])

lemma oneByte_reachable : (machine ramINodes).ReachableUnder (MovesAlone ramINodes) oneByte := by
  refine .step (.write 0 0 [65]) (.step (.openFile 0 0 true true false)
    (.start boot_start) nofun rfl) ?_ rfl
  intro fd file hfd hget
  refine .inr (.inr ?_)
  cases hfd
  intro task' fd' file' hother _
  change (boot.putFile 0 0 ⟨0, 0, 0, true, true⟩).oFiles task' fd' = some file' at hother
  rw [Sys.oFiles_putFile] at hother
  split at hother
  · assumption
  · cases hother

def seekInPlace : Sys (Nat → List UInt8) :=
  act ramINodes (act ramINodes oneByte (.dup2 0 0 1)) (.seek 0 1 1 .set)

lemma seekInPlace_reachable :
    (machine ramINodes).ReachableUnder (MovesAlone ramINodes) seekInPlace := by
  refine .step (.seek 0 1 1 .set) (.step (.dup2 0 0 1) oneByte_reachable nofun rfl) ?_ rfl
  intro fd file hfd hget
  cases hfd
  cases hget
  exact .inl rfl

theorem descriptors_share_position_seekInPlace :
    seekInPlace.landings = [⟨0, 1, 1, true⟩, ⟨0, 0, 1, false⟩] ∧
      seekInPlace.Shared ∧ seekInPlace.Consecutive :=
  ⟨by decide, descriptors_share_position ramINodes seekInPlace_reachable⟩

/-- Two descriptors of one `open` call write one byte each: the second byte
lands on the first. -/
theorem dup2_write_overwrites : ∃ s, (machine ramINodes).Reachable s ∧ s.world 0 = [66] ∧
      ¬ (s.Shared ∧ s.Consecutive) := by
  have hfacts : ((machine ramINodes).run boot
      [.openFile 0 0 true true false, .dup2 0 0 1, .write 0 0 [65],
        .write 0 1 [66]]).map (fun s => (s.world 0, s.landings)) =
      some ([66], [⟨0, 0, 1, false⟩, ⟨0, 0, 1, false⟩]) := by decide
  obtain ⟨s, hrun, heq⟩ := Option.map_eq_some_iff.mp hfacts
  obtain ⟨hworld, hlandings⟩ := Prod.mk.injEq .. ▸ heq
  refine ⟨s, Machine.Reachable.run (.start boot_start) hrun, hworld, ?_⟩
  rintro ⟨-, hconsecutive⟩
  have hchain := hconsecutive 0
  rw [hlandings] at hchain
  rcases List.isChain_cons_cons.mp hchain with ⟨hseek | hstart, -⟩
  · cases hseek
  · cases hstart

end Redwing.OpenFiles
