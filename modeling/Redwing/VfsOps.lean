/-
The interface between the kernel and its file systems, after `redwing_vfs`:
what path lookup and `create` use of `VfsOps` and `VfsINodeOps`, for any
kind of inode over any state of the file systems.
-/
import Redwing.Mount

namespace Redwing.VfsOps

open Mounts

abbrev Name := List UInt8

inductive FileType
  | regularFile
  | directory
  | device
  | symlink
deriving DecidableEq

/-- The operations of inodes `I` while the file systems are in a state `W`.
The first one is `ValidLookupName::try_from`. -/
structure INodeOps (W I E : Type) where
  checkLookupName : Name → Except E Unit
  tryLookup : W → I → Name → Except E (Option I)
  create : W → I → Name → FileType → Except E I × W

/-- File systems `F` with the roots and the inode numbers of their inodes. -/
structure FsOps (W F I E : Type) extends INodeOps W I E where
  root : F → Except E I
  ino : I → Nat

variable {W F I E : Type}

/-- What path lookup sees of the file systems in one state. -/
def FsOps.vfs (ops : FsOps W F I E) (w : W) : Vfs F I E where
  checkName := ops.checkLookupName
  root := ops.root
  ino := ops.ino
  tryLookup := ops.tryLookup w

def INodeOps.CreateFinds (ops : INodeOps W I E) : Prop :=
  ∀ w dir name typ inode w', name ≠ dot → name ≠ dotDot →
    ops.create w dir name typ = (.ok inode, w') →
    ops.tryLookup w' dir name = .ok (some inode)

end Redwing.VfsOps
