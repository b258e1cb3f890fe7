/-
Files as growable byte arrays.  The laws say what the raw operations of a volume
do to the bytes of a file and that they leave everything else alone; a volume
that keeps its files as byte arrays obeys them.
-/
import Redwing.EfsDirs

namespace Redwing.Efs

open Volume Function

def FileType.hasData : FileType → Bool
  | .file | .symlink | .directory => true
  | .unknown | .device => false

section

variable {V : Type} [Volume V] (content : V → Nat → Bytes)

/-- The change from `v` to `v'` is one to the size and the bytes of `ino`. -/
structure OnlyContents (ino : Nat) (v v' : V) : Prop where
  counts : inodeCounts v' = inodeCounts v
  bits : inodeBit v' = inodeBit v
  others : ∀ j, j ≠ ino → stat v' j = stat v j
  typ : (stat v' ino).typ = (stat v ino).typ
  nlink : (stat v' ino).nlink = (stat v ino).nlink
  kept : ∀ j, j ≠ ino → ∀ offset < (stat v j).size, content v' j offset = content v j offset

/-- The first `n` bytes of `src` are now at `start`. -/
structure Written (ino start : Nat) (src : Bytes) (n : Nat) (v v' : V) : Prop
    extends OnlyContents content ino v v' where
  size : (stat v' ino).size = max (stat v ino).size (start + n)
  bytes : ∀ offset < (stat v' ino).size,
    content v' ino offset = (content v ino).splice start src n offset

/-- The file ends at `newSize` now. -/
structure CutAt (ino newSize : Nat) (v v' : V) : Prop
    extends OnlyContents content ino v v' where
  size : (stat v' ino).size = newSize
  bytes : ∀ offset < newSize, content v' ino offset = content v ino offset

/-- The change is one to the record of `ino` alone, which is `inode` now. -/
structure OnlyStat (ino : Nat) (inode : Stat) (v v' : V) : Prop where
  counts : inodeCounts v' = inodeCounts v
  self : stat v' ino = inode
  others : ∀ j, j ≠ ino → stat v' j = stat v j
  kept : ∀ j, ∀ offset < (stat v' j).size, content v' j offset = content v j offset

/-- In a state with `I`, and at calls that `ok` admits, the raw operations work
on the bytes `content` of a file. -/
structure Lawful (ok : V → Call → Prop) (I : V → Prop) : Prop where
  /-- Inode numbers are machine words. -/
  counts_le : ∀ v, I v → inodeCounts v ≤ 2 ^ 64
  read : ∀ v ino offset len, I v → (stat v ino).typ.hasData = true → offset ≤ (stat v ino).size →
    Volume.rawRead v ino offset len = .ok ((List.range (min len ((stat v ino).size - offset))).map
        fun i => content v ino (offset + i))
  write : ∀ v ino offset src len, I v → ok v (.write ino offset len) →
    I (Volume.rawWrite v ino offset src len).2 ∧
      OnlyContents content ino v (Volume.rawWrite v ino offset src len).2 ∧
      ∀ n, (Volume.rawWrite v ino offset src len).1 = .ok n → n ≤ len ∧
        Written content ino offset src n v (Volume.rawWrite v ino offset src len).2
  /-- A write that does not grow the file is complete. -/
  write_within : ∀ v ino offset src len, I v →
    (stat v ino).typ.hasData = true → offset + len ≤ (stat v ino).size →
    (Volume.rawWrite v ino offset src len).1 = .ok len
  truncate : ∀ v ino newSize, I v → ok v (.truncate ino newSize) →
    I (Volume.rawTruncate v ino newSize).2 ∧
      OnlyContents content ino v (Volume.rawTruncate v ino newSize).2 ∧
      (newSize ≤ (stat v ino).size → (Volume.rawTruncate v ino newSize).1 = .ok () ∧
          CutAt content ino newSize v (Volume.rawTruncate v ino newSize).2)
  putNlink : ∀ v ino nlink, I v → I (Volume.putNlink v ino nlink) ∧
      inodeBit (Volume.putNlink v ino nlink) = inodeBit v ∧
      OnlyStat content ino { stat v ino with nlink := nlink } v (Volume.putNlink v ino nlink)
  putInodeBit : ∀ v ino value, I v → I (Volume.putInodeBit v ino value) ∧
      inodeBit (Volume.putInodeBit v ino value) = update (inodeBit v) ino value ∧
      OnlyStat content ino (stat v ino) v (Volume.putInodeBit v ino value)
  reset : ∀ v ino typ devNo, I v → (stat v ino).typ = .unknown → I (resetInode v ino typ devNo) ∧
      inodeBit (resetInode v ino typ devNo) = inodeBit v ∧
      OnlyStat content ino ⟨typ, 0, 0, devNo⟩ v (resetInode v ino typ devNo)

end

/-! ### A volume of byte arrays -/

/-- A volume that keeps the contents of every inode as a byte array. -/
structure ByteVol where
  counts : Nat
  counts_le : counts ≤ 2 ^ 64
  bits : Nat → Bool
  stats : Nat → Stat
  bytes : Nat → Bytes

namespace ByteVol

def setStat (v : ByteVol) (ino : Nat) (inode : Stat) : ByteVol :=
  { v with stats := update v.stats ino inode }

def setBytes (v : ByteVol) (ino : Nat) (bytes : Bytes) : ByteVol :=
  { v with bytes := update v.bytes ino bytes }

def setSize (v : ByteVol) (ino size : Nat) : ByteVol :=
  v.setStat ino { v.stats ino with size := size }

def zeroed (counts : Nat) (h : counts ≤ 2 ^ 64) : ByteVol where
  counts := counts
  counts_le := h
  bits := fun _ => false
  stats := fun _ => ⟨.unknown, 0, 0, 0⟩
  bytes := fun _ => .zero

def rawRead (v : ByteVol) (ino offset len : Nat) : Except FsError (List UInt8) :=
  if (v.stats ino).size < offset then .error FsErrorKind.invalidArgument.err
  else if (v.stats ino).typ.hasData then
    .ok ((List.range (min len ((v.stats ino).size - offset))).map fun i => v.bytes ino (offset + i))
  else .error FsErrorKind.invalidData.err

def rawWrite (v : ByteVol) (ino offset : Nat) (src : Bytes) (len : Nat) :
    Except FsError Nat × ByteVol :=
  if (v.stats ino).size < offset then (.error FsErrorKind.invalidArgument.err, v)
  else if (v.stats ino).typ.hasData then
    (.ok len, (v.setBytes ino ((v.bytes ino).splice offset src len)).setSize ino
      (max (v.stats ino).size (offset + len)))
  else (.error FsErrorKind.invalidData.err, v)

def rawTruncate (v : ByteVol) (ino newSize : Nat) : Except FsError Unit × ByteVol :=
  if (v.stats ino).size < newSize then (.error FsErrorKind.invalidArgument.err, v)
  else (.ok (), v.setSize ino newSize)

instance : Volume ByteVol where
  verifySuperblock _ := .ok ()
  inodeCounts := counts
  inodeBit := bits
  putInodeBit v ino value := { v with bits := update v.bits ino value }
  stat := stats
  putNlink v ino nlink := v.setStat ino { v.stats ino with nlink := nlink }
  resetInode v ino typ devNo := v.setStat ino ⟨typ, 0, 0, devNo⟩
  rawRead := rawRead
  rawWrite := rawWrite
  rawTruncate := rawTruncate

lemma setStat_onlyStat (v : ByteVol) (ino : Nat) (inode : Stat) :
    OnlyStat bytes ino inode v (v.setStat ino inode) where
  counts := rfl
  self := update_self ..
  others _ hj := update_of_ne hj ..
  kept _ _ _ := rfl

lemma stat_setSize (v : ByteVol) (ino size : Nat) :
    stat (v.setSize ino size) ino = { v.stats ino with size := size } :=
  update_self ..

lemma setSize_onlyContents (v : ByteVol) (ino size : Nat) (b : Bytes) :
    OnlyContents bytes ino v ((v.setBytes ino b).setSize ino size) where
  counts := rfl
  bits := rfl
  others _ hj := update_of_ne hj ..
  typ := by rw [stat_setSize]; rfl
  nlink := by rw [stat_setSize]; rfl
  kept _ hj _ _ := congrFun (update_of_ne hj ..) _

lemma rawWrite_written (htyp : (v.stats ino).typ.hasData = true)
    (hle : offset ≤ (v.stats ino).size) : (v.rawWrite ino offset src len).1 = .ok len ∧
    Written bytes ino offset src len v (v.rawWrite ino offset src len).2 := by
  rw [rawWrite, if_neg (not_lt.mpr hle), if_pos htyp]
  refine ⟨rfl, ⟨setSize_onlyContents v ino _ _, ?_, ?_⟩⟩
  · exact congrArg Stat.size (stat_setSize ..)
  · intro at_ _
    exact congrFun (update_self ..) at_

lemma rawWrite_cases (v : ByteVol) (src : Bytes) (len : Nat) :
    (v.rawWrite ino offset src len).1 = .ok len ∧
        Written bytes ino offset src len v (v.rawWrite ino offset src len).2 ∨
      ∃ e, v.rawWrite ino offset src len = (.error e, v) := by
  by_cases hle : offset ≤ (v.stats ino).size
  · by_cases htyp : (v.stats ino).typ.hasData = true
    · exact .inl (rawWrite_written htyp hle)
    · exact .inr ⟨_, (if_neg (not_lt.mpr hle)).trans (if_neg htyp)⟩
  · exact .inr ⟨_, if_pos (Nat.lt_of_not_le hle)⟩

lemma rawTruncate_cutAt (hle : newSize ≤ (v.stats ino).size) : (v.rawTruncate ino newSize).1 = .ok
    () ∧ CutAt bytes ino newSize v (v.rawTruncate ino newSize).2 := by
  rw [rawTruncate, if_neg (not_lt.mpr hle)]
  have hself : v.setBytes ino (v.bytes ino) = v :=
    congrArg (fun b => { v with bytes := b }) (update_eq_self ..)
  have honly := setSize_onlyContents v ino newSize (v.bytes ino)
  rw [hself] at honly
  exact ⟨rfl, ⟨honly, congrArg Stat.size (stat_setSize ..), fun _ _ => rfl⟩⟩

lemma onlyContents_refl : OnlyContents bytes ino v v :=
  ⟨rfl, rfl, fun _ _ => rfl, rfl, rfl, fun _ _ _ _ => rfl⟩

lemma lawful : Lawful bytes (fun _ _ => True) (fun _ : ByteVol => True) where
  counts_le v _ := v.counts_le
  read _ _ _ _ _ htyp hle := (if_neg (not_lt.mpr hle)).trans (if_pos htyp)
  write v ino offset src len _ _ := by
    refine ⟨trivial, ?_⟩
    change OnlyContents bytes ino v (v.rawWrite ino offset src len).2 ∧ ∀ n,
      (v.rawWrite ino offset src len).1 = .ok n → n ≤ len ∧
        Written bytes ino offset src n v (v.rawWrite ino offset src len).2
    rcases rawWrite_cases v src len with ⟨hlen, hwritten⟩ | ⟨e, heq⟩
    · refine ⟨hwritten.toOnlyContents, fun n hn => ?_⟩
      cases hlen.symm.trans hn
      exact ⟨le_refl _, hwritten⟩
    · rw [heq]
      exact ⟨onlyContents_refl, nofun⟩
  write_within v ino offset src len _ htyp hle :=
    (rawWrite_written htyp ((Nat.le_add_right _ _).trans hle)).1
  truncate v ino newSize _ _ := by
    refine ⟨trivial, ?_, fun hle => rawTruncate_cutAt hle⟩
    by_cases hle : newSize ≤ (v.stats ino).size
    · exact (rawTruncate_cutAt hle).2.toOnlyContents
    change OnlyContents bytes ino v (v.rawTruncate ino newSize).2
    rw [rawTruncate, if_pos (Nat.lt_of_not_le hle)]
    exact onlyContents_refl
  putNlink v ino nlink _ := ⟨trivial, rfl, setStat_onlyStat ..⟩
  putInodeBit _ _ _ _ := ⟨trivial, rfl, rfl, rfl, fun _ _ => rfl, fun _ _ _ => rfl⟩
  reset v ino typ devNo _ _ := ⟨trivial, rfl, setStat_onlyStat ..⟩

end ByteVol
end Redwing.Efs
