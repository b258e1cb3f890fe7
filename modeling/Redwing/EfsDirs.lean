/-
Directories of the EFS file system: directory entries, creation and removal of
names, the deletion of an inode when its last handle is dropped, and the making
of a file system on a zeroed device.
-/
import Redwing.Efs
import Redwing.Programs

namespace Redwing.Efs

/-! ### Volumes -/

/-- What the directory code reads of an inode. -/
structure Stat where
  typ : FileType
  size : Nat
  nlink : Nat
  devNo : Nat
deriving DecidableEq

/-- What the directory code works on: the inode bitmap, the inodes, and files
with their raw reads, writes and truncations. -/
class Volume (V : Type) where
  verifySuperblock : V → Except FsError Unit
  inodeCounts : V → Nat
  inodeBit : V → Nat → Bool
  putInodeBit : V → Nat → Bool → V
  stat : V → Nat → Stat
  putNlink : V → Nat → Nat → V
  /-- Overwrite an inode with the default one of this type. -/
  resetInode : V → Nat → FileType → Nat → V
  rawRead : V → Nat → Nat → Nat → Except FsError (List UInt8)
  rawWrite : V → Nat → Nat → Bytes → Nat → Except FsError Nat × V
  rawTruncate : V → Nat → Nat → Except FsError Unit × V

def Fs.putNlink (fs : Fs) (ino nlink : Nat) : Fs :=
  fs.setInode ino { fs.inodes ino with nlink := nlink }

def Fs.resetInode (fs : Fs) (ino : Nat) (typ : FileType) (devNo : Nat) : Fs :=
  fs.setInode ino { RawINode.empty with typ := typ, devNo := devNo }

/-- The volume as it is on the device. -/
instance : Volume Fs where
  verifySuperblock fs := fs.superblock.verify
  inodeCounts fs := fs.superblock.inodeCounts
  inodeBit fs := fs.inodeBitmap
  putInodeBit fs ino value := { fs with inodeBitmap := Function.update fs.inodeBitmap ino value }
  stat fs ino :=
    let inode := fs.inodes ino
    ⟨inode.typ, inode.size, inode.nlink, inode.devNo⟩
  putNlink := Fs.putNlink
  resetInode := Fs.resetInode
  rawRead := Fs.rawRead
  rawWrite := Fs.rawWrite
  rawTruncate := Fs.rawTruncate

open Volume

@[simp] lemma Fs.stat_typ (fs : Fs) : (stat fs ino).typ = (fs.inodes ino).typ := rfl

variable {V : Type} [Volume V]

/-! ### Programs on the volume -/

/-- Why a function does not return a value: it returns an error, or an assertion
or a slice bound of the code fails. -/
inductive Stop
  | err (e : FsError)
  | panicked
deriving DecidableEq

def Stop.isErr : Stop → Bool
  | .err _ => true
  | .panicked => false

/-- The operations on block pointers that the directory code calls. -/
inductive Call
  | write (ino offset len : Nat)
  | truncate (ino newSize : Nat)
deriving DecidableEq

abbrev EfsM (V : Type) := Prog V Call Stop

variable {α : Type}

def stopOf : Except FsError α → Except Stop α
  | .ok a => .ok a
  | .error e => .error (.err e)

def lookFs (f : V → Except FsError α) : EfsM V α := Prog.look fun v => stopOf (f v)

def actFs (f : V → Except FsError α × V) : EfsM V α := Prog.act fun v => (stopOf (f v).1, (f v).2)

def callFs (c : Call) (f : V → Except FsError α × V) : EfsM V α :=
  Prog.call c fun v => (stopOf (f v).1, (f v).2)

def failWith (e : FsError) : EfsM V α := Prog.fail (.err e)

/-- Run `cleanup` when `m` returns an error, and return that error. -/
def onError (m : EfsM V α) (cleanup : EfsM V Unit) : EfsM V α :=
  m.recover Stop.isErr fun stop => do
    cleanup
    Prog.fail stop

def rawWrite (ino offset : Nat) (src : Bytes) (len : Nat) : EfsM V Nat :=
  callFs (.write ino offset len) fun v => Volume.rawWrite v ino offset src len

def rawTruncate (ino newSize : Nat) : EfsM V Unit :=
  callFs (.truncate ino newSize) fun v => Volume.rawTruncate v ino newSize

/-! ### Directory entries -/

def rawDirentSize : Nat := 80
def fileNameLen : Nat := 64

def FileType.code : FileType → Nat
  | .unknown => 0
  | .directory => 1
  | .file => 2
  | .device => 3
  | .symlink => 4

def FileType.ofCode : Nat → FileType
  | 1 => .directory
  | 2 => .file
  | 3 => .device
  | 4 => .symlink
  | _ => .unknown

structure RawDirent where
  inodeNo : Nat
  typ : FileType
  nameLen : Nat
  name : Bytes

namespace RawDirent

/-- `RawDirent::new`, which panics on a name longer than the field. -/
def new (inodeNo : Nat) (typ : FileType) (name : List UInt8) : Option RawDirent :=
  if typ = .unknown ∨ fileNameLen < name.length then none
  else
    some {
      inodeNo := inodeNo
      typ := typ
      nameLen := name.length
      name := fun i => name.getD i 0 }

def bytes (d : RawDirent) : Bytes := fun offset =>
  if offset < 8 then Bytes.leBytes d.inodeNo offset
  else if offset < 12 then Bytes.leBytes d.typ.code (offset - 8)
  else if offset < 16 then Bytes.leBytes d.nameLen (offset - 12)
  else d.name (offset - 16)

def ofBytes (b : Bytes) : RawDirent where
  inodeNo := Bytes.leValue 8 b
  typ := FileType.ofCode (Bytes.leValue 4 fun i => b (8 + i))
  nameLen := Bytes.leValue 4 fun i => b (12 + i)
  name := fun i => b (16 + i)

def nameBytes (d : RawDirent) : List UInt8 := (List.range d.nameLen).map d.name

def nameField (d : RawDirent) : List UInt8 := (List.range fileNameLen).map d.name

def isUnused (d : RawDirent) : Bool := decide (d.inodeNo = invalidInodeNo)

def readFrom (v : V) (ino offset : Nat) : Except FsError (Option RawDirent) :=
  match Volume.rawRead v ino offset rawDirentSize with
  | .error e => .error e
  | .ok buf =>
    if buf.length = 0 then .ok none
    else if buf.length ≠ rawDirentSize then
      .error ⟨.invalidData, some "there is no enough data to read a directory entry"⟩
    else
      let dirent := ofBytes fun i => buf.getD i 0
      if fileNameLen < dirent.nameLen then .error FsErrorKind.fileNameTooLong.err
      else .ok (some dirent)

def writeTo (d : RawDirent) (ino offset : Nat) : EfsM V Unit := do
  let size ← rawWrite ino offset d.bytes rawDirentSize
  if size ≠ rawDirentSize then
    let total ← lookFs fun v => .ok (stat v ino).size
    rawTruncate ino (total - size)
    failWith ⟨.invalidData, some "writing a dirent is failure"⟩
  else pure ()

end RawDirent

/-- A file name that passes `ValidFileName::try_from`, as bytes. -/
structure ValidFileName where
  bytes : List UInt8
  length_le : bytes.length ≤ 256
  not_dots : bytes ≠ [46] ∧ bytes ≠ [46, 46]
  valid : ∀ b ∈ bytes, b ≠ 47 ∧ 32 ≤ b ∧ b ≠ 127

def dot : List UInt8 := [46]
def dotDot : List UInt8 := [46, 46]

/-! ### Inode numbers -/

def isInodeUsed (v : V) (ino : Nat) : Except FsError Bool :=
  if inodeCounts v ≤ ino then .error bitmapIndexError else .ok (inodeBit v ino)

def nextInode (v : V) : Option Nat := firstClear (inodeBit v) 0 (inodeCounts v)

def allocInode (v : V) : Except FsError Nat × V :=
  match nextInode v with
  | none => (.error FsErrorKind.noSpaceLeft.err, v)
  | some ino => (.ok ino, putInodeBit v ino true)

def writeInodeBit (v : V) (ino : Nat) (value : Bool) : Except FsError Unit × V :=
  if inodeCounts v ≤ ino then (.error bitmapIndexError, v)
  else (.ok (), putInodeBit v ino value)

def setInodeBit (v : V) (ino : Nat) : Except FsError Unit × V := writeInodeBit v ino true

def deallocInode (v : V) (ino : Nat) : Except FsError Unit × V := writeInodeBit v ino false

/-! ### Searching a directory -/

/-- Rounds that are enough for a loop over the entries of a directory: behind
its end a read fails. -/
def direntRounds (v : V) (ino : Nat) : Nat := (stat v ino).size / rawDirentSize + 2

def findDirent (v : V) (ino : Nat) (p : RawDirent → Bool) :
    Nat → Nat → Except FsError (Option (Nat × RawDirent))
  | 0, _ => .ok none
  | rounds + 1, offset =>
    match RawDirent.readFrom v ino offset with
    | .error e => .error e
    | .ok none => .ok none
    | .ok (some dirent) =>
      if p dirent then .ok (some (offset, dirent))
      else findDirent v ino p rounds (offset + rawDirentSize)

def RawDirent.isNamed (name : List UInt8) (d : RawDirent) : Bool :=
  !d.isUnused && decide (name = d.nameBytes)

/-- The first part of `remove_entry`: the entry with this name and its
offset. -/
def findNamed (v : V) (ino : Nat) (name : List UInt8) : Except FsError (Option (Nat × RawDirent)) :=
  if (stat v ino).typ ≠ .directory then .error FsErrorKind.notADirectory.err
  else findDirent v ino (RawDirent.isNamed name) (direntRounds v ino) 0

def lookup (v : V) (ino : Nat) (name : List UInt8) : Except FsError (Option RawDirent) :=
  match findNamed v ino name with
  | .error e => .error e
  | .ok found => .ok (found.map Prod.snd)

def addOffset (v : V) (ino : Nat) (name : List UInt8) : Nat → Nat → Option Nat → Except FsError Nat
  | 0, offset, empty => .ok (empty.getD offset)
  | rounds + 1, offset, empty =>
    match RawDirent.readFrom v ino offset with
    | .error e => .error e
    | .ok none => .ok (empty.getD offset)
    | .ok (some dirent) =>
      if dirent.isUnused then addOffset v ino name rounds (offset + rawDirentSize) (some offset)
      else if name = dirent.nameBytes then .error FsErrorKind.alreadyExists.err
      else addOffset v ino name rounds (offset + rawDirentSize) empty

/-- The first part of `add_entry`.  The code compares the whole name field of
the new entry, with its padding, with the names of the old ones. -/
def placeFor (v : V) (ino : Nat) (d : RawDirent) : Except FsError Nat :=
  if (stat v ino).typ ≠ .directory then .error FsErrorKind.notADirectory.err
  else addOffset v ino d.nameField (direntRounds v ino) 0 none

def isEmptyDir (v : V) (ino : Nat) : Except FsError Bool :=
  if (stat v ino).typ ≠ .directory then .error FsErrorKind.notADirectory.err
  else
    match findDirent v ino (fun d => !d.isUnused) (direntRounds v ino) (rawDirentSize * 2) with
    | .error e => .error e
    | .ok found => .ok found.isNone

/-! ### Checks -/

def checkForCreate (v : V) (ino : Nat) (name : ValidFileName) : Except FsError Unit :=
  let inode := stat v ino
  if inode.typ ≠ .directory then .error FsErrorKind.notADirectory.err
  else if inode.nlink = 0 then .error FsErrorKind.noSuchFileOrDirectory.err
  else
    match lookup v ino name.bytes with
    | .error e => .error e
    | .ok (some _) => .error FsErrorKind.alreadyExists.err
    | .ok none => .ok ()

def checkForRemove (v : V) (parent child : Nat) : Except FsError Unit :=
  if (stat v parent).typ ≠ .directory then .error FsErrorKind.notADirectory.err
  else if (stat v parent).nlink = 0 then .error FsErrorKind.noSuchFileOrDirectory.err
  else if (stat v child).nlink = 0 ∨ (stat v child).typ = .unknown then
    .error FsErrorKind.fileSystemCorruption.err
  else if (stat v child).typ = .directory then
    match isEmptyDir v child with
    | .error e => .error e
    | .ok false => .error FsErrorKind.notEmpty.err
    | .ok true => .ok ()
  else .ok ()

/-! ### Names -/

def addEntry (dir : Nat) (d : RawDirent) : EfsM V Unit := do
  let offset ← lookFs fun v => placeFor v dir d
  d.writeTo dir offset

/-- `nlink` is a `le32`, and the addition wraps around in a release build. -/
def increaseLink (ino : Nat) : EfsM V Unit :=
  Prog.alter fun v => putNlink v ino (((stat v ino).nlink + 1) % 2 ^ 32)

/-- The subtraction saturates. -/
def decreaseLink (ino : Nat) : EfsM V Unit :=
  Prog.alter fun v => putNlink v ino ((stat v ino).nlink - 1)

/-- Enter a file under a name; a name that is too long panics. -/
def link (dir child : Nat) (name : List UInt8) : EfsM V Unit := do
  let typ ← lookFs fun v => .ok (stat v child).typ
  match RawDirent.new child typ name with
  | none => Prog.fail .panicked
  | some d => do
      addEntry dir d
      increaseLink child

/-- The end of `remove_entry`: cut the directory if the cleared entry was its
last one. -/
def cutLast (dir offset sz : Nat) : EfsM V Unit :=
  if offset = sz - rawDirentSize then rawTruncate dir offset else pure ()

/-- Clear the entry with this name and return its inode number. -/
def removeEntry (dir : Nat) (name : List UInt8) : EfsM V (Option Nat) := do
  let sz ← lookFs fun v => .ok (stat v dir).size
  let found ← lookFs fun v => findNamed v dir name
  match found with
  | none => pure none
  | some (offset, d) => do
      RawDirent.writeTo { d with inodeNo := invalidInodeNo } dir offset
      cutLast dir offset sz
      pure (some d.inodeNo)

def unlinkEntry (dir child : Nat) (name : List UInt8) : EfsM V Unit := do
  let found ← removeEntry dir name
  match found with
  | none => failWith FsErrorKind.noSuchFileOrDirectory.err
  | some ino =>
    if ino ≠ child then failWith ⟨.fileSystemCorruption, some "unlink: mismatched inode"⟩
    else decreaseLink child

def initInode (ino : Nat) (typ : FileType) (devNo : Nat) : EfsM V Unit :=
  actFs fun v =>
    if (stat v ino).typ ≠ .unknown then
      (.error ⟨.fileSystemCorruption, some "Caller attempts to init a available raw inode."⟩, v)
    else (.ok (), resetInode v ino typ devNo)

section

variable (parent : Nat) (name : ValidFileName)

def createWith (init : Nat → EfsM V Unit) : EfsM V Nat := do
  lookFs fun v => checkForCreate v parent name
  let newIno ← actFs allocInode
  onError (init newIno) (actFs fun v => deallocInode v newIno)
  pure newIno

def initDirectory (newIno : Nat) : EfsM V Unit := do
  initInode newIno .directory 0
  link newIno newIno dot
  onError (link newIno parent dotDot) (unlinkEntry newIno newIno dot)
  link parent newIno name.bytes

def initFile (newIno : Nat) : EfsM V Unit := do
  initInode newIno .file 0
  link parent newIno name.bytes

def mkdir : EfsM V Nat := createWith parent name (initDirectory parent name)

def createFile : EfsM V Nat := createWith parent name (initFile parent name)

end

def unlinkDots (parent child : Nat) (typ : FileType) : EfsM V Unit :=
  if typ = .directory then do
    unlinkEntry child parent dotDot
    unlinkEntry child child dot
  else pure ()

def remove (parent child : Nat) (name : ValidFileName) : EfsM V Unit := do
  lookFs fun v => checkForRemove v parent child
  let typ ← lookFs fun v => .ok (stat v child).typ
  unlinkDots parent child typ
  unlinkEntry parent child name.bytes

/-! ### Making a file system -/

def verifyFs (v : V) : Except FsError Unit :=
  match isInodeUsed v invalidInodeNo with
  | .error e => .error e
  | .ok false =>
    .error ⟨.fileSystemCorruption,
      some "efs: the inode index 0 should be reserved for representing no inode"⟩
  | .ok true =>
    match isInodeUsed v rootInodeNo with
    | .error e => .error e
    | .ok false => .error ⟨.fileSystemCorruption, some "efs: the root is not present"⟩
    | .ok true => verifySuperblock v

def reserveInodes : Nat → EfsM V Unit
  | 0 => pure ()
  | count + 1 => do
      reserveInodes count
      actFs fun v => setInodeBit v count

def initRootDir (ino : Nat) : EfsM V Unit := do
  initInode ino .directory 0
  link ino ino dot

def make : EfsM V Unit := do
  lookFs verifySuperblock
  reserveInodes reservedInodes
  initRootDir rootInodeNo
  lookFs verifyFs

end Redwing.Efs
