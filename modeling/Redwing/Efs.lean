/-
The blocks and inodes of the EFS file system (`redwing_efs`): the two bitmaps,
the block map of an inode with its direct pointers, its indirect table and its
double-indirect tables, and the reading, writing and truncating of file contents.
-/
import Redwing.LittleEndian

namespace Redwing.Efs

open Function

/-! ### Constants and errors -/

def blockSize : Nat := 4096
def invalidDataBlockNo : Nat := 0
def invalidInodeNo : Nat := 0
def rootInodeNo : Nat := 1
def reservedInodes : Nat := 20
def numDirectDataBlks : Nat := 12
def blkNumsPerBlock : Nat := 512
def ninodesPerBlock : Nat := 31

def maxFileSize : Nat :=
  numDirectDataBlks * blockSize + blkNumsPerBlock * blockSize +
    blkNumsPerBlock * blkNumsPerBlock * blockSize

inductive FsErrorKind
  | alreadyExists
  | fileTooLarge
  | fileNameTooLong
  | noSuchFileOrDirectory
  | isADirectory
  | notADirectory
  | notEmpty
  | noSpaceLeft
  | fileSystemCorruption
  | invalidArgument
  | unsupported
  | invalidData
deriving DecidableEq

structure FsError where
  kind : FsErrorKind
  msg : Option String
deriving DecidableEq

/-- An error without a message, as `FsErrorKind::into` makes it. -/
def FsErrorKind.err (kind : FsErrorKind) : FsError := ⟨kind, none⟩

inductive FileType
  | unknown
  | directory
  | file
  | device
  | symlink
deriving DecidableEq

/-! ### The volume -/

/-- The sizes in a superblock.  Every block of the volume has a number that
fits a pointer. -/
structure SuperBlock where
  inodeBitmapBlocks : Nat
  inodeBlocks : Nat
  dataBitmapBlocks : Nat
  dataBlocks : Nat
  fits : 2 + inodeBitmapBlocks + inodeBlocks + dataBitmapBlocks + dataBlocks ≤ 2 ^ 64

namespace SuperBlock

def inodeStartBno (sb : SuperBlock) : Nat := 2 + sb.inodeBitmapBlocks

def dataBitmapStartBno (sb : SuperBlock) : Nat := sb.inodeStartBno + sb.inodeBlocks

def dataStartBno (sb : SuperBlock) : Nat := sb.dataBitmapStartBno + sb.dataBitmapBlocks

def inodeCounts (sb : SuperBlock) : Nat := sb.inodeBlocks * ninodesPerBlock

def verifyBitmap (nBitmapBlocks nBits : Nat) : Bool :=
  decide (nBits ≤ nBitmapBlocks * blockSize * 8)

/-- The magic number is right in every superblock that `new` makes. -/
def verify (sb : SuperBlock) : Except FsError Unit :=
  if !verifyBitmap sb.inodeBitmapBlocks sb.inodeCounts then
    .error ⟨.fileSystemCorruption, some "efs superblock: bad inode bitmap"⟩
  else if !verifyBitmap sb.dataBitmapBlocks sb.dataBlocks then
    .error ⟨.fileSystemCorruption, some "efs superblock: bad data bitmap"⟩
  else .ok ()

end SuperBlock

/-- The inode layout on disk. -/
structure RawINode where
  typ : FileType
  size : Nat
  nlink : Nat
  devNo : Nat
  directBlkPtrs : Nat → Nat
  indirectBlkPtr : Nat
  doubleIndirectBlkPtr : Nat

def RawINode.empty : RawINode where
  typ := .unknown
  size := 0
  nlink := 0
  devNo := 0
  directBlkPtrs := fun _ => invalidDataBlockNo
  indirectBlkPtr := invalidDataBlockNo
  doubleIndirectBlkPtr := invalidDataBlockNo

/-- The volume: the superblock, the two bitmaps, the inode table and the
contents of the blocks by their number on the device. -/
structure Fs where
  superblock : SuperBlock
  inodeBitmap : Nat → Bool
  dataBitmap : Nat → Bool
  inodes : Nat → RawINode
  blocks : Nat → Bytes

def Fs.zeroed (sb : SuperBlock) : Fs where
  superblock := sb
  inodeBitmap := fun _ => false
  dataBitmap := fun _ => false
  inodes := fun _ => .empty
  blocks := fun _ => .zero

/-! ### Bitmaps -/

def firstClear (bits : Nat → Bool) (start : Nat) : Nat → Option Nat
  | 0 => none
  | count + 1 =>
    if bits start then firstClear bits (start + 1) count else some start

lemma firstClear_clear (h : firstClear bits start count = some i) : bits i = false := by
  induction count generalizing start with
  | zero => cases h
  | succ count ih =>
    rw [firstClear] at h
    split at h
    · exact ih h
    next hclear =>
      cases h
      exact Bool.eq_false_of_not_eq_true hclear

lemma firstClear_lt (h : firstClear bits start count = some i) : i < start + count := by
  induction count generalizing start with
  | zero => cases h
  | succ count ih =>
    rw [firstClear] at h
    split at h
    · have := ih h
      omega
    · cases h
      omega

def bitmapIndexError : FsError := ⟨.invalidArgument, some "index out of bound for bitmap."⟩

namespace Fs

def allocDataBlock (fs : Fs) : Except FsError Nat × Fs :=
  match firstClear fs.dataBitmap 0 fs.superblock.dataBlocks with
  | none => (.error FsErrorKind.noSpaceLeft.err, fs)
  | some bit =>
    (.ok (bit + fs.superblock.dataStartBno),
      { fs with dataBitmap := update fs.dataBitmap bit true })

/-- The index is computed with a wrapping subtraction, so a number below the
data blocks is out of bounds as well. -/
def deallocDataBlock (fs : Fs) (bno : Nat) : Except FsError Unit × Fs :=
  if bno < fs.superblock.dataStartBno ∨
      fs.superblock.dataBlocks ≤ bno - fs.superblock.dataStartBno then
    (.error bitmapIndexError, fs)
  else
    (.ok (), { fs with
      dataBitmap := update fs.dataBitmap (bno - fs.superblock.dataStartBno) false })

def setInode (fs : Fs) (ino : Nat) (inode : RawINode) : Fs :=
  { fs with inodes := update fs.inodes ino inode }

def setSize (fs : Fs) (ino size : Nat) : Fs := fs.setInode ino { fs.inodes ino with size := size }

def setBlock (fs : Fs) (bno : Nat) (bytes : Bytes) : Fs :=
  { fs with blocks := update fs.blocks bno bytes }

end Fs

/-! ### The block map of an inode -/

/-- Where a block pointer is stored: in the inode, or in a table block. -/
inductive Slot
  | direct (index : Nat)
  | indirect
  | doubleIndirect
  | entry (table index : Nat)
deriving DecidableEq

namespace Fs

def slot (fs : Fs) (ino : Nat) : Slot → Nat
  | .direct index => (fs.inodes ino).directBlkPtrs index
  | .indirect => (fs.inodes ino).indirectBlkPtr
  | .doubleIndirect => (fs.inodes ino).doubleIndirectBlkPtr
  | .entry table index => (fs.blocks table).word index

def setSlot (fs : Fs) (ino : Nat) : Slot → Nat → Fs
  | .direct index, value =>
    fs.setInode ino { fs.inodes ino with
      directBlkPtrs := update (fs.inodes ino).directBlkPtrs index value }
  | .indirect, value => fs.setInode ino { fs.inodes ino with indirectBlkPtr := value }
  | .doubleIndirect, value => fs.setInode ino { fs.inodes ino with doubleIndirectBlkPtr := value }
  | .entry table index, value => fs.setBlock table ((fs.blocks table).setWord index value)

/-- Allocate a block and store its number in a slot.  The block keeps the
contents it had. -/
def allocInto (fs : Fs) (ino : Nat) (slot : Slot) : Except FsError Unit × Fs :=
  match fs.allocDataBlock with
  | (.error e, fs) => (.error e, fs)
  | (.ok bno, fs) => (.ok (), fs.setSlot ino slot bno)

/-- The table behind a slot, allocated first if it is missing and `alloc` is
set. -/
def needTable (fs : Fs) (ino : Nat) (slot : Slot) (alloc : Bool) : Except FsError Unit × Fs :=
  if fs.slot ino slot = invalidDataBlockNo then
    if alloc then fs.allocInto ino slot
    else (.error FsErrorKind.invalidArgument.err, fs)
  else (.ok (), fs)

/-- `bmap_mut_from_blk` together with `bmap0_mut`: the slot of the pointer with
index `idx` below a table that is `level` tables away from the data. -/
def bmapMutFromBlk (fs : Fs) (ino : Nat) : Nat → Slot → Nat → Bool → Except FsError Slot × Fs
  | level, tableSlot, idx, alloc =>
    match fs.needTable ino tableSlot alloc with
    | (.error e, fs) => (.error e, fs)
    | (.ok (), fs) =>
      let table := fs.slot ino tableSlot
      match level with
      | 0 =>
        if blkNumsPerBlock ≤ idx then (.error FsErrorKind.fileTooLarge.err, fs)
        else (.ok (.entry table idx), fs)
      | level + 1 =>
        let blkNumsPerTable := blkNumsPerBlock ^ (level + 1)
        let nextLevelTableIdx := idx / blkNumsPerTable
        if blkNumsPerBlock ≤ nextLevelTableIdx then (.error FsErrorKind.fileTooLarge.err, fs)
        else
          fs.bmapMutFromBlk ino level (.entry table nextLevelTableIdx) (idx % blkNumsPerTable) alloc

def bmapWalkMut (fs : Fs) (ino offset : Nat) (alloc : Bool) : Except FsError Slot × Fs :=
  let idx := offset / blockSize
  if idx < numDirectDataBlks then (.ok (.direct idx), fs)
  else
    let idx := idx - numDirectDataBlks
    if idx < blkNumsPerBlock then fs.bmapMutFromBlk ino 0 .indirect idx alloc
    else fs.bmapMutFromBlk ino 1 .doubleIndirect (idx - blkNumsPerBlock) alloc

def bmapAndAllocIfNeed (fs : Fs) (ino offset : Nat) : Except FsError Nat × Fs :=
  match fs.bmapWalkMut ino offset true with
  | (.error e, fs) => (.error e, fs)
  | (.ok slot, fs) =>
    if fs.slot ino slot = invalidDataBlockNo then
      match fs.allocInto ino slot with
      | (.error e, fs) => (.error e, fs)
      | (.ok (), fs) => (.ok (fs.slot ino slot), fs)
    else (.ok (fs.slot ino slot), fs)

/-- `bmap_from_blk` together with `bmap0`: the data block number with index
`idx` below the table `table`. -/
def bmapFromBlk (fs : Fs) : Nat → Nat → Nat → Except FsError Nat
  | 0, table, idx =>
    if blkNumsPerBlock ≤ idx then .error FsErrorKind.fileTooLarge.err
    else
      let dataNo := (fs.blocks table).word idx
      if dataNo = invalidDataBlockNo then .error FsErrorKind.invalidArgument.err
      else .ok dataNo
  | level + 1, table, idx =>
    let blkNumsPerTable := blkNumsPerBlock ^ (level + 1)
    let nextLevelTableIdx := idx / blkNumsPerTable
    if blkNumsPerBlock ≤ nextLevelTableIdx then .error FsErrorKind.fileTooLarge.err
    else
      let blkNo := (fs.blocks table).word nextLevelTableIdx
      if blkNo = invalidDataBlockNo then .error FsErrorKind.invalidArgument.err
      else fs.bmapFromBlk level blkNo (idx % blkNumsPerTable)

def bmap (fs : Fs) (ino offset : Nat) : Except FsError Nat :=
  let inode := fs.inodes ino
  let idx := offset / blockSize
  if idx < numDirectDataBlks then
    let dataNo := inode.directBlkPtrs idx
    if dataNo = invalidDataBlockNo then .error FsErrorKind.invalidArgument.err
    else .ok dataNo
  else
    let idx := idx - numDirectDataBlks
    if idx < blkNumsPerBlock then fs.bmapFromBlk 0 inode.indirectBlkPtr idx
    else fs.bmapFromBlk 1 inode.doubleIndirectBlkPtr (idx - blkNumsPerBlock)

/-! ### Contents -/

/-- The loop of `RawINode::write`.  `src` gives the bytes still to be written
and `len` their number; every round writes at least one byte, so `len` rounds
are enough. -/
def writeLoop (fs : Fs) (ino : Nat) : Nat → Nat → Bytes → Nat → Nat → Except FsError Nat × Fs
  | 0, _, _, _, writeLen => (.ok writeLen, fs)
  | fuel + 1, offset, src, len, writeLen =>
    if len = 0 then (.ok writeLen, fs)
    else if maxFileSize ≤ offset then (.ok writeLen, fs)
    else
      match fs.bmapAndAllocIfNeed ino offset with
      | (.error e, fs) => (.error e, fs)
      | (.ok bno, fs) =>
        let bOffset := offset % blockSize
        let n := min (blockSize - bOffset) len
        let fs := fs.setBlock bno ((fs.blocks bno).splice bOffset src n)
        let fs := fs.setSize ino (max (fs.inodes ino).size (offset + n))
        fs.writeLoop ino fuel (offset + n) (fun i => src (n + i)) (len - n) (writeLen + n)

def rawWrite (fs : Fs) (ino offset : Nat) (src : Bytes) (len : Nat) : Except FsError Nat × Fs :=
  if (fs.inodes ino).size < offset then (.error FsErrorKind.invalidArgument.err, fs)
  else
    match (fs.inodes ino).typ with
    | .file | .symlink | .directory => fs.writeLoop ino len offset src len 0
    | .unknown => (.error ⟨.invalidData, some "attempts to write data to an unknown inode."⟩, fs)
    | .device => (.error ⟨.invalidData, some "attempts to write data a device inode."⟩, fs)

/-- The loop of `RawINode::read`: `dst` bytes of the buffer are free, `rest`
bytes of the file follow `offset`. -/
def readLoop (fs : Fs) (ino : Nat) : Nat → Nat → Nat → Nat → Except FsError (List UInt8)
  | 0, _, _, _ => .ok []
  | fuel + 1, offset, dst, rest =>
    if dst = 0 ∨ rest = 0 then .ok []
    else if maxFileSize ≤ offset then .ok []
    else
      match fs.bmap ino offset with
      | .error e => .error e
      | .ok bno =>
        let bOffset := offset % blockSize
        let n := min (min (blockSize - bOffset) dst) rest
        let bytes := (List.range n).map fun i => fs.blocks bno (bOffset + i)
        match fs.readLoop ino fuel (offset + n) (dst - n) (rest - n) with
        | .error e => .error e
        | .ok more => .ok (bytes ++ more)

def rawRead (fs : Fs) (ino offset len : Nat) : Except FsError (List UInt8) :=
  let inode := fs.inodes ino
  if inode.size < offset then .error FsErrorKind.invalidArgument.err
  else
    match inode.typ with
    | .file | .symlink | .directory => fs.readLoop ino len offset len (inode.size - offset)
    | .unknown => .error ⟨.invalidData, some "attempts to read data to an unknown inode."⟩
    | .device => .error ⟨.invalidData, some "attempts to read data a device inode."⟩

/-- One round of the loop of `dealloc_data_blks_from`: free the data block with
index `idx` and clear its pointer. -/
def deallocBlk (fs : Fs) (ino idx : Nat) : Except FsError Unit × Fs :=
  match fs.bmapWalkMut ino (idx * blockSize) false with
  | (.error e, fs) => (.error e, fs)
  | (.ok slot, fs) =>
    if fs.slot ino slot = invalidDataBlockNo then (.error FsErrorKind.invalidArgument.err, fs)
    else
      match fs.deallocDataBlock (fs.slot ino slot) with
      | (.error e, fs) => (.error e, fs)
      | (.ok (), fs) => (.ok (), fs.setSlot ino slot invalidDataBlockNo)

/-- The loop of `dealloc_data_blks_from`, over the `count` indices from `start`
on, the last one first. -/
def deallocBlks (fs : Fs) (ino start : Nat) : Nat → Except FsError Unit × Fs
  | 0 => (.ok (), fs)
  | count + 1 =>
    match fs.deallocBlk ino (start + count) with
    | (.error e, fs) =>
      if e.kind = .invalidArgument then (.ok (), fs) else (.error e, fs)
    | (.ok (), fs) =>
      (fs.setSize ino ((fs.inodes ino).size - blockSize)).deallocBlks ino start count

/-- The end of `dealloc_data_blks_from`: free the tables that are not needed
for the first `start` blocks.  Their pointers stay. -/
def deallocTables (fs : Fs) (ino start : Nat) : Except FsError Unit × Fs :=
  let inode := fs.inodes ino
  if start ≤ numDirectDataBlks + blkNumsPerBlock then
    match (if inode.doubleIndirectBlkPtr = invalidDataBlockNo then (.ok (), fs)
      else fs.deallocDataBlock inode.doubleIndirectBlkPtr) with
    | (.error e, fs) => (.error e, fs)
    | (.ok (), fs) =>
      if start ≤ numDirectDataBlks ∧ inode.indirectBlkPtr ≠ invalidDataBlockNo then
        fs.deallocDataBlock inode.indirectBlkPtr
      else (.ok (), fs)
  else (.ok (), fs)

def deallocDataBlksFrom (fs : Fs) (ino start : Nat) : Except FsError Unit × Fs :=
  let size := (fs.inodes ino).size
  if size = 0 then (.ok (), fs)
  else
    let last := (size - 1) / blockSize
    match fs.deallocBlks ino start (last + 1 - start) with
    | (.error e, fs) => (.error e, fs)
    | (.ok (), fs) => fs.deallocTables ino start

def blocksFor (size : Nat) : Nat := (size + (blockSize - 1)) / blockSize

def rawTruncate (fs : Fs) (ino newSize : Nat) : Except FsError Unit × Fs :=
  let size := (fs.inodes ino).size
  if size < newSize then
    (.error ⟨.invalidArgument, some "the new size is greater than the file size."⟩, fs)
  else if newSize = size then (.ok (), fs)
  else
    match fs.deallocDataBlksFrom ino (blocksFor newSize) with
    | (.error e, fs) => (.error e, fs)
    | (.ok (), fs) => (.ok (), fs.setSize ino newSize)

end Fs
end Redwing.Efs
