/-
What the operations on the blocks of one inode leave alone: the superblock, the
inode bitmap, the other inodes, and of the inode itself all but its size and its
pointers.
-/
import Redwing.Efs

namespace Redwing.Efs

/-- The change from `fs` to `fs'` is one to the contents of `ino`. -/
structure OnlyFile (ino : Nat) (fs fs' : Fs) : Prop where
  superblock : fs'.superblock = fs.superblock
  inodeBitmap : fs'.inodeBitmap = fs.inodeBitmap
  others : ∀ j, j ≠ ino → fs'.inodes j = fs.inodes j
  typ : (fs'.inodes ino).typ = (fs.inodes ino).typ
  nlink : (fs'.inodes ino).nlink = (fs.inodes ino).nlink
  devNo : (fs'.inodes ino).devNo = (fs.inodes ino).devNo

namespace OnlyFile

variable {fs fs' fs'' : Fs}

lemma refl (ino : Nat) (fs : Fs) : OnlyFile ino fs fs := ⟨rfl, rfl, fun _ _ => rfl, rfl, rfl, rfl⟩

lemma trans (h : OnlyFile ino fs fs') (h' : OnlyFile ino fs' fs'') : OnlyFile ino fs fs'' where
  superblock := h'.superblock.trans h.superblock
  inodeBitmap := h'.inodeBitmap.trans h.inodeBitmap
  others j hj := (h'.others j hj).trans (h.others j hj)
  typ := h'.typ.trans h.typ
  nlink := h'.nlink.trans h.nlink
  devNo := h'.devNo.trans h.devNo

lemma of_eq {α : Type} {r : Except FsError α × Fs} {result : Except FsError α}
    (h : OnlyFile ino fs r.2) (heq : r = (result, fs')) : OnlyFile ino fs fs' := by
  rw [heq] at h
  exact h

lemma typ_all (h : OnlyFile ino fs fs') (j : Nat) : (fs'.inodes j).typ = (fs.inodes j).typ := by
  by_cases hj : j = ino
  · rw [hj]
    exact h.typ
  · rw [h.others j hj]

lemma setInode {inode : RawINode} (htyp : inode.typ = (fs.inodes ino).typ)
    (hnlink : inode.nlink = (fs.inodes ino).nlink) (hdev : inode.devNo = (fs.inodes ino).devNo) :
    OnlyFile ino fs (fs.setInode ino inode) := by
  have hself : (fs.setInode ino inode).inodes ino = inode := Function.update_self ..
  refine ⟨rfl, rfl, fun j hj => Function.update_of_ne hj .., ?_, ?_, ?_⟩
  · rw [hself, htyp]
  · rw [hself, hnlink]
  · rw [hself, hdev]

lemma setSize (size : Nat) : OnlyFile ino fs (fs.setSize ino size) := setInode rfl rfl rfl

lemma setBlock (bno : Nat) (bytes : Bytes) : OnlyFile ino fs (fs.setBlock bno bytes) :=
  ⟨rfl, rfl, fun _ _ => rfl, rfl, rfl, rfl⟩

lemma setSlot (slot : Slot) (value : Nat) : OnlyFile ino fs (fs.setSlot ino slot value) := by
  cases slot with
  | direct | indirect | doubleIndirect => exact setInode rfl rfl rfl
  | entry table index => exact setBlock table _

lemma dataBitmap (bits : Nat → Bool) : OnlyFile ino fs { fs with dataBitmap := bits } :=
  ⟨rfl, rfl, fun _ _ => rfl, rfl, rfl, rfl⟩

lemma allocDataBlock : OnlyFile ino fs fs.allocDataBlock.2 := by
  unfold Fs.allocDataBlock
  split
  · exact refl ino fs
  · exact dataBitmap _

lemma deallocDataBlock (bno : Nat) : OnlyFile ino fs (fs.deallocDataBlock bno).2 := by
  unfold Fs.deallocDataBlock
  split
  · exact refl ino fs
  · exact dataBitmap _

lemma allocInto (slot : Slot) : OnlyFile ino fs (fs.allocInto ino slot).2 := by
  have halloc : OnlyFile ino fs fs.allocDataBlock.2 := allocDataBlock
  unfold Fs.allocInto
  split
  · next heq => exact halloc.of_eq heq
  · next heq => exact (halloc.of_eq heq).trans (setSlot slot _)

lemma needTable (slot : Slot) (alloc : Bool) : OnlyFile ino fs (fs.needTable ino slot alloc).2 := by
  unfold Fs.needTable
  split
  · split
    · exact allocInto slot
    · exact refl ino fs
  · exact refl ino fs

lemma bmapMutFromBlk (level : Nat) (slot : Slot) (idx : Nat) (alloc : Bool) :
    OnlyFile ino fs (fs.bmapMutFromBlk ino level slot idx alloc).2 := by
  induction level generalizing fs slot idx with
  | zero =>
    have htable : OnlyFile ino fs (fs.needTable ino slot alloc).2 := needTable slot alloc
    unfold Fs.bmapMutFromBlk
    split
    · next heq => exact htable.of_eq heq
    rename_i heq
    replace htable := htable.of_eq heq
    simp only
    split <;> exact htable
  | succ level ih =>
    have htable : OnlyFile ino fs (fs.needTable ino slot alloc).2 := needTable slot alloc
    unfold Fs.bmapMutFromBlk
    split
    · next heq => exact htable.of_eq heq
    rename_i heq
    replace htable := htable.of_eq heq
    simp only
    split
    · exact htable
    · exact htable.trans (ih _ _)

lemma bmapWalkMut (offset : Nat) (alloc : Bool) :
    OnlyFile ino fs (fs.bmapWalkMut ino offset alloc).2 := by
  unfold Fs.bmapWalkMut
  simp only
  split
  · exact refl ino fs
  · split <;> exact bmapMutFromBlk ..

lemma bmapAndAllocIfNeed (offset : Nat) : OnlyFile ino fs (fs.bmapAndAllocIfNeed ino offset).2 := by
  have hwalk : OnlyFile ino fs (fs.bmapWalkMut ino offset true).2 := bmapWalkMut offset true
  unfold Fs.bmapAndAllocIfNeed
  split
  · next heq => exact hwalk.of_eq heq
  rename_i fs₁ heq
  replace hwalk := hwalk.of_eq heq
  split
  · split <;> next heq' => exact hwalk.trans ((allocInto _).of_eq heq')
  · exact hwalk

lemma writeLoop (fuel offset : Nat) (src : Bytes) (len writeLen : Nat) :
    OnlyFile ino fs (fs.writeLoop ino fuel offset src len writeLen).2 := by
  induction fuel generalizing fs offset src len writeLen with
  | zero => exact refl ino fs
  | succ fuel ih =>
    have hmap : OnlyFile ino fs (fs.bmapAndAllocIfNeed ino offset).2 := bmapAndAllocIfNeed offset
    unfold Fs.writeLoop
    split
    · exact refl ino fs
    split
    · exact refl ino fs
    · split
      · next heq => exact hmap.of_eq heq
      · rename_i heq
        replace hmap := hmap.of_eq heq
        exact ((hmap.trans (setBlock _ _)).trans (setSize _)).trans (ih ..)

lemma rawWrite (offset : Nat) (src : Bytes) (len : Nat) :
    OnlyFile ino fs (fs.rawWrite ino offset src len).2 := by
  unfold Fs.rawWrite
  split
  · exact refl ino fs
  split
  · exact writeLoop ..
  · exact writeLoop ..
  · exact writeLoop ..
  · exact refl ino fs
  · exact refl ino fs

lemma deallocBlk (idx : Nat) : OnlyFile ino fs (fs.deallocBlk ino idx).2 := by
  have hwalk : OnlyFile ino fs (fs.bmapWalkMut ino (idx * blockSize) false).2 := bmapWalkMut _ false
  unfold Fs.deallocBlk
  split
  · next heq => exact hwalk.of_eq heq
  rename_i fs₁ heq
  replace hwalk := hwalk.of_eq heq
  split
  · exact hwalk
  split
  · next heq' => exact hwalk.trans ((deallocDataBlock _).of_eq heq')
  · rename_i heq'
    exact (hwalk.trans ((deallocDataBlock _).of_eq heq')).trans (setSlot _ _)

lemma deallocBlks (start count : Nat) : OnlyFile ino fs (fs.deallocBlks ino start count).2 := by
  induction count generalizing fs with
  | zero => exact refl ino fs
  | succ count ih =>
    have hblk : OnlyFile ino fs (fs.deallocBlk ino (start + count)).2 := deallocBlk (start + count)
    unfold Fs.deallocBlks
    split
    · rename_i heq
      replace hblk := hblk.of_eq heq
      split <;> exact hblk
    rename_i heq
    replace hblk := hblk.of_eq heq
    exact (hblk.trans (setSize _)).trans ih

lemma deallocTables (start : Nat) : OnlyFile ino fs (fs.deallocTables ino start).2 := by
  have hdouble : OnlyFile ino fs (if (fs.inodes ino).doubleIndirectBlkPtr = invalidDataBlockNo then
        ((.ok (), fs) : Except FsError Unit × Fs)
      else fs.deallocDataBlock (fs.inodes ino).doubleIndirectBlkPtr).2 := by
    split
    · exact refl ino fs
    · exact deallocDataBlock _
  unfold Fs.deallocTables
  simp only
  split
  · split
    · next heq => exact hdouble.of_eq heq
    · rename_i heq
      replace hdouble := hdouble.of_eq heq
      split
      · exact hdouble.trans (deallocDataBlock _)
      · exact hdouble
  · exact refl ino fs

lemma deallocDataBlksFrom (start : Nat) : OnlyFile ino fs (fs.deallocDataBlksFrom ino start).2 := by
  unfold Fs.deallocDataBlksFrom
  simp only
  split
  · exact refl ino fs
  split
  · next heq => exact (deallocBlks start _).of_eq heq
  · next heq => exact ((deallocBlks start _).of_eq heq).trans (deallocTables start)

lemma rawTruncate (newSize : Nat) : OnlyFile ino fs (fs.rawTruncate ino newSize).2 := by
  have hfree : OnlyFile ino fs (fs.deallocDataBlksFrom ino (Fs.blocksFor newSize)).2 :=
    deallocDataBlksFrom (Fs.blocksFor newSize)
  unfold Fs.rawTruncate
  simp only
  split
  · exact refl ino fs
  split
  · exact refl ino fs
  · split
    · next heq => exact hfree.of_eq heq
    · rename_i heq
      replace hfree := hfree.of_eq heq
      exact hfree.trans (setSize newSize)

end OnlyFile
end Redwing.Efs
