/-
The layout of an EFS volume: the regions that `RawSuperBlock::new` computes,
and where the inodes and the bits of the bitmaps are found in them.  The
subtractions are those of unsigned numbers.
-/
import Redwing.Efs

namespace Redwing.Efs

def efsSbMagic : Nat := 0xEFFF

def rawInodeSize : Nat := 132

def divCeil (n d : Nat) : Nat := (n + d - 1) / d

/-- The arguments of `RawSuperBlock::new` that pass its assertions. -/
structure FsSizes where
  potentialSize : Nat
  inodeSize : Nat
  isUsize : potentialSize < 2 ^ 64
  wholeBlocks : potentialSize % blockSize = 0
  large : potentialSize > blockSize * 128
  more : potentialSize > inodeSize
  inodes : inodeSize > 1024 * 8

namespace FsSizes

variable (sizes : FsSizes)

def blockCnt : Nat := sizes.potentialSize / blockSize

def inodeBlocks : Nat := divCeil sizes.inodeSize blockSize

def inodeBitmapBlocks : Nat := divCeil sizes.inodeSize (blockSize * 8)

lemma blockCnt_lt : sizes.blockCnt < 2 ^ 64 := lt_of_le_of_lt (Nat.div_le_self _ _) sizes.isUsize

end FsSizes

structure RawSuperBlock extends SuperBlock where
  magic : Nat
  size : Nat

namespace RawSuperBlock

/-- `RawSuperBlock::new`; `none` if one of the subtractions underflows. -/
def new (sizes : FsSizes) : Option RawSuperBlock :=
  let inodeBlocks := sizes.inodeBlocks
  let inodeBitmapBlocks := sizes.inodeBitmapBlocks
  if hinodes : inodeBlocks ≤ sizes.blockCnt ∧ inodeBitmapBlocks ≤ sizes.blockCnt - inodeBlocks ∧
      2 ≤ sizes.blockCnt - inodeBlocks - inodeBitmapBlocks then
    let remaining := sizes.blockCnt - inodeBlocks - inodeBitmapBlocks - 2
    let dataBitmapBlocks := divCeil remaining (blockSize * 8)
    if hdata : dataBitmapBlocks ≤ remaining then
      some
        { magic := efsSbMagic
          size := sizes.blockCnt * blockSize
          inodeBitmapBlocks, inodeBlocks, dataBitmapBlocks
          dataBlocks := remaining - dataBitmapBlocks
          fits := by
            have hcnt := sizes.blockCnt_lt
            omega }
    else none
  else none

def verify (sb : RawSuperBlock) : Except FsError Unit :=
  if sb.magic ≠ efsSbMagic then
    .error ⟨.fileSystemCorruption, some "efs superblock: invalid magic number"⟩
  else sb.toSuperBlock.verify

def regions (sb : RawSuperBlock) : List (Nat × Nat) :=
  [(0, 2), (2, sb.inodeStartBno), (sb.inodeStartBno, sb.dataBitmapStartBno),
    (sb.dataBitmapStartBno, sb.dataStartBno),
    (sb.dataStartBno, sb.dataStartBno + sb.dataBlocks)]

def locateInode (sb : RawSuperBlock) (ino : Nat) : Nat × Nat :=
  (sb.inodeStartBno + ino / ninodesPerBlock, rawInodeSize * (ino % ninodesPerBlock))

/-- The regions fill the volume and hold what the bitmaps can hand out. -/
structure LaidOut (sb : RawSuperBlock) (blockCnt : Nat) : Prop where
  ordered : ∀ r ∈ sb.regions, r.1 ≤ r.2
  contiguous : sb.regions.IsChain fun r r' => r.2 = r'.1
  apart : sb.regions.Pairwise fun r r' => r.2 ≤ r'.1
  total : sb.regions.getLast?.map Prod.snd = some blockCnt
  verified : sb.verify = .ok ()
  inode : ∀ ino < sb.inodeCounts, sb.inodeStartBno ≤ (sb.locateInode ino).1 ∧
      (sb.locateInode ino).1 < sb.dataBitmapStartBno ∧
      (sb.locateInode ino).2 + rawInodeSize ≤ blockSize
  inodeBit : ∀ ino < sb.inodeCounts, 2 + ino / (blockSize * 8) < sb.inodeStartBno
  dataBit : ∀ bit < sb.dataBlocks, sb.dataBitmapStartBno + bit / (blockSize * 8) < sb.dataStartBno
  data : ∀ bit < sb.dataBlocks, sb.dataStartBno + bit < sb.dataStartBno + sb.dataBlocks

variable {sizes : FsSizes} {sb : RawSuperBlock}

lemma new_eq_some (hnew : new sizes = some sb) :
    sb.magic = efsSbMagic ∧ sb.inodeBlocks = sizes.inodeBlocks ∧
      sb.inodeBitmapBlocks = sizes.inodeBitmapBlocks ∧
      2 + sb.inodeBitmapBlocks + sb.inodeBlocks + sb.dataBitmapBlocks +
        sb.dataBlocks = sizes.blockCnt ∧
      sb.dataBlocks ≤ sb.dataBitmapBlocks * (blockSize * 8) := by
  simp only [new] at hnew
  split at hnew
  · split at hnew
    · cases hnew
      refine ⟨rfl, rfl, rfl, ?_, ?_⟩
      · dsimp only
        omega
      · simp only [divCeil, blockSize]
        omega
    · cases hnew
  · cases hnew

lemma inodeCounts_le (hnew : new sizes = some sb) :
    sb.inodeCounts ≤ sb.inodeBitmapBlocks * (blockSize * 8) := by
  obtain ⟨-, hinodes, hbitmap, -, -⟩ := new_eq_some hnew
  rw [SuperBlock.inodeCounts, hinodes, hbitmap, FsSizes.inodeBlocks, FsSizes.inodeBitmapBlocks]
  simp only [divCeil, blockSize, ninodesPerBlock]
  omega

lemma laidOut_of_new (hnew : new sizes = some sb) : sb.LaidOut sizes.blockCnt := by
  obtain ⟨hmagic, -, -, htotal, hdata⟩ := new_eq_some hnew
  have hinodes := inodeCounts_le hnew
  have hinodeStart : sb.inodeStartBno = 2 + sb.inodeBitmapBlocks := rfl
  have hbitmapStart : sb.dataBitmapStartBno = sb.inodeStartBno + sb.inodeBlocks := rfl
  have hdataStart : sb.dataStartBno = sb.dataBitmapStartBno + sb.dataBitmapBlocks := rfl
  constructor
  · simp only [regions, List.forall_mem_cons, List.not_mem_nil, false_implies,
      implies_true, and_true]
    omega
  · simp [regions]
  · simp only [regions, List.pairwise_cons, List.forall_mem_cons, List.not_mem_nil, false_implies,
      implies_true, and_true, List.Pairwise.nil]
    omega
  · simp only [regions, List.getLast?_cons_cons, List.getLast?_singleton,
      Option.map_some, Option.some.injEq]
    omega
  · rw [← mul_assoc] at hinodes hdata
    simp [verify, hmagic, SuperBlock.verify, SuperBlock.verifyBitmap, hinodes, hdata]
  · intro ino hino
    rw [SuperBlock.inodeCounts, ninodesPerBlock] at hino
    simp only [locateInode, rawInodeSize, ninodesPerBlock, blockSize]
    omega
  · intro ino hino
    simp only [blockSize] at hinodes ⊢
    omega
  · intro bit hbit
    simp only [blockSize] at hdata ⊢
    omega
  · intro bit hbit
    omega

/-- `new` lays the volume out exactly when the inodes, their bitmap and two
more blocks leave room on it. -/
theorem new_laidOut_iff (sizes : FsSizes) :
    (∃ sb, new sizes = some sb ∧ sb.LaidOut sizes.blockCnt) ↔
      2 + sizes.inodeBitmapBlocks + sizes.inodeBlocks ≤ sizes.blockCnt := by
  constructor
  · rintro ⟨sb, hnew, -⟩
    obtain ⟨-, hinodes, hbitmap, htotal, -⟩ := new_eq_some hnew
    omega
  · intro hroom
    have hdata : ∀ n, divCeil n (blockSize * 8) ≤ n := by
      intro n
      simp only [divCeil, blockSize]
      omega
    have hsome : (new sizes).isSome = true := by
      rw [new, dif_pos (by omega), dif_pos (hdata _)]
      rfl
    obtain ⟨sb, hnew⟩ := Option.isSome_iff_exists.mp hsome
    exact ⟨sb, hnew, laidOut_of_new hnew⟩

def crowdedSizes : FsSizes :=
  ⟨129 * 4096, 129 * 4096 - 1, by decide, by decide, by decide, by decide,
    by decide⟩

theorem new_crowdedSizes : new crowdedSizes = none := by decide

end RawSuperBlock
end Redwing.Efs
