/-
The file system in memory, after `redwing_ram`: directories with a table of
children, files with their contents, and a counter for inode numbers.  There may
be several such file systems; an inode is named by its file system and number.
-/
import Mathlib.Logic.Function.Basic
import Redwing.VfsOps

namespace Redwing.RamFs

open Function Mounts VfsOps

inductive FsErrorKind
  | permissionDenied
  | alreadyExists
  | noSuchFileOrDirectory
  | notADirectory
  | isADirectory
  | invalidArgument
  | unsupported
deriving DecidableEq

/-- A reference to an inode. -/
structure Ref where
  fs : Nat
  ino : Nat
deriving DecidableEq

structure RamDirectory where
  parent : Option Ref
  children : List (Name × Nat)
  isReadOnly : Bool
deriving DecidableEq

inductive RamINode
  | directory (dir : RamDirectory)
  | file (content : List UInt8)
deriving DecidableEq

/-- The inodes by their numbers, and the number for the next one. -/
structure RamFileSystem where
  nodes : Nat → Option RamINode
  inodeNo : Nat

def rootInodeNo : Nat := 1

def RamDirectory.new (parent : Option Ref) : RamDirectory := ⟨parent, [], false⟩

def RamDirectory.child (dir : RamDirectory) (name : Name) : Option Nat := dir.children.lookup name

def RamFileSystem.new : RamFileSystem where
  nodes := update (fun _ => none) rootInodeNo (some (.directory (.new none)))
  inodeNo := rootInodeNo + 1

abbrev World := Nat → RamFileSystem

namespace World

variable (w : World)

def node (ref : Ref) : Option RamINode := (w ref.fs).nodes ref.ino

def setNode (ref : Ref) (node : RamINode) : World :=
  update w ref.fs { w ref.fs with nodes := update (w ref.fs).nodes ref.ino (some node) }

def allocateInodeNo (fs : Nat) : World := update w fs { w fs with inodeNo := (w fs).inodeNo + 1 }

def tryLookup (ref : Ref) (name : Name) : Except FsErrorKind (Option Ref) :=
  match w.node ref with
  | some (.directory dir) =>
    if name = dot then .ok (some ref)
    else if name = dotDot then .ok dir.parent
    else .ok ((dir.child name).map (⟨ref.fs, ·⟩))
  | some (.file _) => .error .notADirectory
  | none => .error .noSuchFileOrDirectory

def newNode (parent : Ref) : FileType → Option RamINode
  | .directory => some (.directory (.new (some parent)))
  | .regularFile => some (.file [])
  | .device | .symlink => none

def create (ref : Ref) (name : Name) (typ : FileType) : Except FsErrorKind Ref × World :=
  match w.node ref with
  | some (.directory dir) =>
    if dir.isReadOnly then (.error .permissionDenied, w)
    else if (dir.child name).isSome then (.error .alreadyExists, w)
    else
      match newNode ref typ with
      | none => (.error .unsupported, w)
      | some node =>
        let ino := (w ref.fs).inodeNo
        let w := (w.allocateInodeNo ref.fs).setNode ⟨ref.fs, ino⟩ node
        (.ok ⟨ref.fs, ino⟩, w.setNode ref
          (.directory { dir with children := (name, ino) :: dir.children }))
  | some (.file _) => (.error .notADirectory, w)
  | none => (.error .noSuchFileOrDirectory, w)

end World

/-- The file systems in memory as file systems of the kernel; the checks of
names may be any. -/
def ops (checkLookupName : Name → Except FsErrorKind Unit) : FsOps World Nat Ref FsErrorKind where
  checkLookupName
  tryLookup := World.tryLookup
  create := World.create
  root fs := .ok ⟨fs, rootInodeNo⟩
  ino := Ref.ino

/-! ### Tables of inodes -/

section

variable (w : World) (ref other : Ref) (node : RamINode)

@[simp] lemma setNode_self : (w.setNode ref node).node ref = some node := by
  simp [World.setNode, World.node]

end

lemma create_finds (checkLookupName) :
    (ops checkLookupName).CreateFinds := by
  intro w ref name typ inode w' hdot hdotDot hcreate
  simp only [ops, World.create] at hcreate
  split at hcreate
  next dir hnode =>
    split at hcreate
    next => cases (Prod.mk.inj hcreate).1
    split at hcreate
    next => cases (Prod.mk.inj hcreate).1
    split at hcreate
    next => cases (Prod.mk.inj hcreate).1
    next node hnew =>
      obtain ⟨hinode, hw⟩ := Prod.mk.inj hcreate
      cases hinode
      subst hw
      simp [ops, World.tryLookup, hdot, hdotDot, RamDirectory.child]
  next => cases (Prod.mk.inj hcreate).1
  next => cases (Prod.mk.inj hcreate).1

end Redwing.RamFs
