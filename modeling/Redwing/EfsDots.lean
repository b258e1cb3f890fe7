/-
The entries `.` and `..` of a new directory.  They share its first block, so
they can be made exactly if a data block is free.
-/
import Redwing.EfsEntries

namespace Redwing.Efs

open Prog Volume Function

namespace Fs

variable {fs : Fs} {ino offset : Nat} {src : Bytes}

/-- Some data block is free. -/
def hasDataBlock (fs : Fs) : Bool := (firstClear fs.dataBitmap 0 fs.superblock.dataBlocks).isSome

/-- A write of an entry into the first block of a file takes one round. -/
lemma writeLoop_entry (hoffset : offset + rawDirentSize ≤ blockSize) :
    fs.writeLoop ino rawDirentSize offset src rawDirentSize 0 =
      match fs.bmapAndAllocIfNeed ino offset with
      | (.error e, fs) => (.error e, fs)
      | (.ok bno, fs) => (.ok rawDirentSize,
          let fs := fs.setBlock bno ((fs.blocks bno).splice offset src rawDirentSize)
          fs.setSize ino (max (fs.inodes ino).size (offset + rawDirentSize))) := by
  have hmax : ¬ maxFileSize ≤ offset := by
    have hle : blockSize < maxFileSize := by decide +kernel
    unfold rawDirentSize at hoffset
    omega
  have hmod : offset % blockSize = offset :=
    Nat.mod_eq_of_lt (by unfold rawDirentSize at hoffset; omega)
  have hmin : min (blockSize - offset) rawDirentSize = rawDirentSize := by omega
  conv_lhs => rw [rawDirentSize]
  rw [writeLoop, if_neg (by decide), if_neg hmax]
  rcases fs.bmapAndAllocIfNeed ino offset with ⟨e | bno, fs'⟩
  · rfl
  · simp only [show (80 : Nat) = rawDirentSize from rfl, hmod, hmin]
    rw [writeLoop, if_pos (Nat.sub_self _), Nat.zero_add]

lemma bmapWalkMut_first (hoffset : offset < blockSize) (alloc : Bool) :
    fs.bmapWalkMut ino offset alloc = (.ok (.direct 0), fs) := by
  rw [bmapWalkMut, Nat.div_eq_of_lt hoffset]
  rfl

lemma rawWrite_used (htyp : (fs.inodes ino).typ = .directory)
    (hsize : offset ≤ (fs.inodes ino).size) (hoffset : offset + rawDirentSize ≤ blockSize)
    (hused : (fs.inodes ino).directBlkPtrs 0 ≠ invalidDataBlockNo) (src : Bytes) :
    (fs.rawWrite ino offset src rawDirentSize).1 = .ok rawDirentSize := by
  have hwalk : fs.bmapWalkMut ino offset true = (.ok (.direct 0), fs) :=
    bmapWalkMut_first (by unfold rawDirentSize at hoffset; omega) true
  have hmap : fs.bmapAndAllocIfNeed ino offset = (.ok ((fs.inodes ino).directBlkPtrs 0), fs) := by
    simp only [bmapAndAllocIfNeed, hwalk]
    exact if_neg hused
  rw [rawWrite, if_neg (Nat.not_lt.mpr hsize), htyp]
  simp only [writeLoop_entry hoffset, hmap]

lemma bmapAndAllocIfNeed_new (hnew : (fs.inodes ino).directBlkPtrs 0 = invalidDataBlockNo) :
    fs.bmapAndAllocIfNeed ino 0 =
      match firstClear fs.dataBitmap 0 fs.superblock.dataBlocks with
      | none => (.error FsErrorKind.noSpaceLeft.err, fs)
      | some bit => (.ok (bit + fs.superblock.dataStartBno),
          { fs with dataBitmap := update fs.dataBitmap bit true }.setSlot ino (.direct 0)
            (bit + fs.superblock.dataStartBno)) := by
  have hslot : fs.slot ino (.direct 0) = invalidDataBlockNo := hnew
  simp only [bmapAndAllocIfNeed, bmapWalkMut_first (show 0 < blockSize by decide), hslot,
    ↓reduceIte, allocInto, allocDataBlock]
  cases firstClear fs.dataBitmap 0 fs.superblock.dataBlocks with
  | none => rfl
  | some bit => simp [slot, setSlot, setInode]

end Fs

/-- A directory with one entry, in its first block. -/
structure OneEntry (fs : Fs) (ino : Nat) (d : RawDirent) : Prop where
  typ : (fs.inodes ino).typ = .directory
  size : (fs.inodes ino).size = rawDirentSize
  used : (fs.inodes ino).directBlkPtrs 0 ≠ invalidDataBlockNo
  bytes : ∀ k < rawDirentSize, fs.blocks ((fs.inodes ino).directBlkPtrs 0) k = d.bytes k

variable {fs : Fs} {ino parent child : Nat} {d : RawDirent} {name : List UInt8}

/-- The first entry of a new directory needs a data block. -/
lemma rawWrite_new (hnew : fs.inodes ino = { RawINode.empty with typ := .directory, devNo := 0 }) :
    match firstClear fs.dataBitmap 0 fs.superblock.dataBlocks with
    | none => ∃ e fs', fs.rawWrite ino 0 d.bytes rawDirentSize = (.error e, fs')
    | some _ => ∃ fs', fs.rawWrite ino 0 d.bytes rawDirentSize = (.ok rawDirentSize, fs') ∧
        OneEntry fs' ino d ∧ ∀ j, j ≠ ino → fs'.inodes j = fs.inodes j := by
  have hptr : (fs.inodes ino).directBlkPtrs 0 = invalidDataBlockNo := by rw [hnew]; rfl
  have htyp : (fs.inodes ino).typ = .directory := by rw [hnew]
  have hsize : (fs.inodes ino).size = 0 := by rw [hnew]; rfl
  rw [Fs.rawWrite, if_neg (Nat.not_lt_zero _), htyp]
  simp only [Fs.writeLoop_entry (show 0 + rawDirentSize ≤ blockSize by decide),
    Fs.bmapAndAllocIfNeed_new hptr]
  cases firstClear fs.dataBitmap 0 fs.superblock.dataBlocks with
  | none => exact ⟨_, _, rfl⟩
  | some bit =>
    refine ⟨_, rfl, ⟨?_, ?_, ?_, ?_⟩, ?_⟩
    · simp [Fs.setSlot, Fs.setInode, Fs.setBlock, Fs.setSize, htyp]
    · simp [Fs.setSlot, Fs.setInode, Fs.setBlock, Fs.setSize, hsize]
    · simp [Fs.setSlot, Fs.setInode, Fs.setBlock, Fs.setSize, invalidDataBlockNo,
        SuperBlock.dataStartBno, SuperBlock.dataBitmapStartBno, SuperBlock.inodeStartBno]
    · intro k hk
      simp [Fs.setSlot, Fs.setInode, Fs.setBlock, Fs.setSize, Bytes.splice, hk]
    · intro j hj
      simp [Fs.setSlot, Fs.setInode, Fs.setBlock, Fs.setSize, hj]

lemma readFrom_empty (htyp : (fs.inodes ino).typ = .directory)
    (hend : (fs.inodes ino).size = offset) : RawDirent.readFrom fs ino offset = .ok none := by
  subst hend
  simp only [RawDirent.readFrom, Volume.rawRead, Fs.rawRead, lt_irrefl, ↓reduceIte, htyp,
    Nat.sub_self]
  rfl

lemma readFrom_first (h : OneEntry fs ino d) (hlen : d.nameLen ≤ fileNameLen) :
    ∃ found, RawDirent.readFrom fs ino 0 = .ok (some found) ∧ found.nameLen = d.nameLen := by
  have hread : fs.rawRead ino 0 rawDirentSize = .ok ((List.range rawDirentSize).map fun k =>
      fs.blocks ((fs.inodes ino).directBlkPtrs 0) k) := by
    have hmap : fs.bmap ino 0 = .ok ((fs.inodes ino).directBlkPtrs 0) := if_neg h.used
    rw [Fs.rawRead, if_neg (Nat.not_lt_zero _), h.typ, h.size]
    simp only [Nat.sub_zero]
    conv_lhs => rw [rawDirentSize]
    rw [Fs.readLoop, if_neg (by decide), if_neg (by decide +kernel), hmap]
    rfl
  have hbytes : ∀ k < rawDirentSize, ((List.range rawDirentSize).map fun k =>
      fs.blocks ((fs.inodes ino).directBlkPtrs 0) k).getD k 0 = d.bytes k := by
    intro k hk
    rw [List.getD_eq_getElem?_getD, List.getElem?_map, List.getElem?_range hk]
    exact h.bytes k hk
  have hname := RawDirent.nameLen_ofBytes hlen hbytes
  refine ⟨_, ?_, hname⟩
  simp only [RawDirent.readFrom, Volume.rawRead, hread, List.length_map, List.length_range]
  rw [if_neg (by decide), if_neg (by decide), if_neg (by rw [hname]; exact Nat.not_lt.mpr hlen)]

/-- Behind one entry with another name there is place for a second one. -/
lemma placeFor_second (h : OneEntry fs ino d) (hlen : d.nameLen < fileNameLen) (d' : RawDirent) :
    ∃ offset, placeFor fs ino d' = .ok offset ∧ offset ≤ rawDirentSize := by
  obtain ⟨found, hread, hname⟩ := readFrom_first h (Nat.le_of_lt hlen)
  have hend : RawDirent.readFrom fs ino rawDirentSize = .ok none := readFrom_empty h.typ h.size
  have hother : d'.nameField ≠ found.nameBytes := by
    intro heq
    have hlength := congrArg List.length heq
    simp only [RawDirent.nameField, RawDirent.nameBytes, List.length_map, List.length_range]
      at hlength
    omega
  have hrounds : direntRounds fs ino = 3 := by
    simp only [direntRounds, stat, h.size]
    rfl
  rw [placeFor, if_neg (by rw [Fs.stat_typ, h.typ]; exact not_not_intro rfl), hrounds, addOffset,
    hread]
  simp only [hother, ↓reduceIte, Nat.zero_add]
  split
  · rw [addOffset, hend]
    exact ⟨0, rfl, Nat.zero_le _⟩
  · rw [addOffset, hend]
    exact ⟨rawDirentSize, rfl, le_rfl⟩

lemma link_of_write {dir offset : Nat} {v' : Fs}
    (hnew : RawDirent.new child (fs.inodes child).typ name = some d)
    (hplace : placeFor fs dir d = .ok offset)
    (hwrite : fs.rawWrite dir offset d.bytes rawDirentSize = (.ok rawDirentSize, v')) :
    (link dir child name fs).result = .ok () ∧
      ∃ nlink, (link dir child name fs).state = v'.putNlink child nlink := by
  simp only [link, lookFs, Bind.bind, andThen, look, stopOf, Fs.stat_typ, hnew, addEntry, hplace,
    RawDirent.writeTo, rawWrite, callFs, Prog.call, Volume.rawWrite, hwrite, ne_eq,
    not_true_eq_false, ↓reduceIte, increaseLink, alter]
  exact ⟨rfl, _, rfl⟩

lemma link_of_full {dir offset : Nat} {v' : Fs} {e : FsError}
    (hnew : RawDirent.new child (fs.inodes child).typ name = some d)
    (hplace : placeFor fs dir d = .ok offset)
    (hwrite : fs.rawWrite dir offset d.bytes rawDirentSize = (.error e, v')) :
    (link dir child name fs).result = .error (.err e) := by
  simp only [link, lookFs, Bind.bind, andThen, look, stopOf, Fs.stat_typ, hnew, addEntry, hplace,
    RawDirent.writeTo, rawWrite, callFs, Prog.call, Volume.rawWrite, hwrite]

/-- What `mkdir` does before it enters the new directory into its parent. -/
def initDots {V : Type} [Volume V] (parent newIno : Nat) : EfsM V Unit := do
  initInode newIno .directory 0
  link newIno newIno dot
  onError (link newIno parent dotDot) (unlinkEntry newIno newIno dot)

lemma initInode_eq (htyp : (fs.inodes ino).typ = .unknown) (typ : FileType) :
    initInode ino typ 0 fs = ⟨.ok (), fs.resetInode ino typ 0, []⟩ := by
  simp [initInode, actFs, act, htyp, stopOf, resetInode]

lemma placeFor_new (hnew : fs.inodes ino = { RawINode.empty with typ := .directory, devNo := 0 }) :
    placeFor fs ino d = .ok 0 := by
  have htyp : (fs.inodes ino).typ = .directory := by rw [hnew]
  have hsize : (fs.inodes ino).size = 0 := by rw [hnew]; rfl
  have hrounds : direntRounds fs ino = 2 := by
    simp only [direntRounds, stat, hsize]
    rfl
  rw [placeFor, if_neg (by rw [Fs.stat_typ, htyp]; exact not_not_intro rfl), hrounds, addOffset,
    readFrom_empty htyp hsize]
  rfl

/-- With an entry in place, `..` fits into the same block. -/
lemma link_dotDot (h : OneEntry fs ino d) (hlen : d.nameLen < fileNameLen)
    (hparent : (fs.inodes parent).typ = .directory) :
    (link ino parent dotDot fs).result = .ok () := by
  have hnew : RawDirent.new parent (fs.inodes parent).typ dotDot =
      some ⟨parent, .directory, 2, fun i => dotDot.getD i 0⟩ := by
    rw [hparent]
    rfl
  obtain ⟨offset, hplace, hle⟩ := placeFor_second h hlen
    ⟨parent, .directory, 2, fun i => dotDot.getD i 0⟩
  have hfits : offset + rawDirentSize ≤ blockSize := by
    have htwo : rawDirentSize + rawDirentSize ≤ blockSize := by decide
    omega
  have hwrite := Fs.rawWrite_used h.typ (by rw [h.size]; exact hle) hfits h.used
  exact (link_of_write hnew hplace (Prod.ext (hwrite _) rfl)).1

lemma OneEntry.putNlink (h : OneEntry fs ino d) (j nlink : Nat) :
    OneEntry (fs.putNlink j nlink) ino d := by
  by_cases hj : ino = j
  · subst hj
    refine ⟨?_, ?_, ?_, ?_⟩ <;> simp only [Fs.putNlink, Fs.setInode, update_self]
    exacts [h.typ, h.size, h.used, h.bytes]
  · refine ⟨?_, ?_, ?_, ?_⟩ <;> simp only [Fs.putNlink, Fs.setInode, update_of_ne hj]
    exacts [h.typ, h.size, h.used, h.bytes]

lemma initDots_isOk_iff (htyp : (fs.inodes ino).typ = .unknown)
    (hparent : (fs.inodes parent).typ = .directory) :
    (initDots parent ino fs).result.isOk = true ↔ fs.hasDataBlock = true := by
  have hne : parent ≠ ino := by
    rintro rfl
    rw [hparent] at htyp
    cases htyp
  have hreset : (fs.resetInode ino .directory 0).inodes ino =
      { RawINode.empty with typ := .directory, devNo := 0 } := by
    simp [Fs.resetInode, Fs.setInode]
  have hnew : RawDirent.new ino ((fs.resetInode ino .directory 0).inodes ino).typ dot =
      some ⟨ino, .directory, 1, fun i => dot.getD i 0⟩ := by
    rw [hreset]
    rfl
  have hplace := placeFor_new (d := ⟨ino, .directory, 1, fun i => dot.getD i 0⟩) hreset
  have hwrite := rawWrite_new (d := ⟨ino, .directory, 1, fun i => dot.getD i 0⟩) hreset
  rw [Fs.hasDataBlock]
  change (match firstClear fs.dataBitmap 0 fs.superblock.dataBlocks with
    | none => _
    | some _ => _) at hwrite
  simp only [initDots, Bind.bind, andThen, initInode_eq htyp]
  cases hfree : firstClear fs.dataBitmap 0 fs.superblock.dataBlocks with
  | none =>
    rw [hfree] at hwrite
    obtain ⟨e, fs', hwrite⟩ := hwrite
    simp [link_of_full hnew hplace hwrite, Except.isOk, Except.toBool]
  | some bit =>
    rw [hfree] at hwrite
    obtain ⟨fs', hwrite, hentry, hothers⟩ := hwrite
    obtain ⟨hdot, nlink, hstate⟩ := link_of_write hnew hplace hwrite
    have hdots : (link ino parent dotDot (fs'.putNlink ino nlink)).result = .ok () := by
      refine link_dotDot (hentry.putNlink ino nlink) (show 1 < fileNameLen by decide) ?_
      simp [Fs.putNlink, Fs.setInode, hne, hothers parent hne, Fs.resetInode, hparent]
    simp [hdot, hstate, onError, recover, hdots, Except.isOk, Except.toBool]

end Redwing.Efs
