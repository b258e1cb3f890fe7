/-
Failed creations in the EFS file system.  `create_with` undoes the allocation of
the inode, but neither `init_inode` nor what the links wrote: a failed creation
leaves the volume as it was just when it fails before the new inode is
initialised.
-/
import Redwing.EfsFrame
import Redwing.EfsRules

namespace Redwing.Efs

open Function Prog Volume

/-- What a failed creation has to leave alone: both bitmaps, the link count and
the type of every inode, and the size and the bytes of every directory. -/
structure Unchanged (fs fs' : Fs) : Prop where
  inodeBitmap : fs'.inodeBitmap = fs.inodeBitmap
  dataBitmap : fs'.dataBitmap = fs.dataBitmap
  nlink : ∀ ino, (fs'.inodes ino).nlink = (fs.inodes ino).nlink
  typ : ∀ ino, (fs'.inodes ino).typ = (fs.inodes ino).typ
  size : ∀ ino, (fs.inodes ino).typ = .directory → (fs'.inodes ino).size = (fs.inodes ino).size
  bytes : ∀ ino, (fs.inodes ino).typ = .directory → ∀ offset len,
    fs'.rawRead ino offset len = fs.rawRead ino offset len

lemma Unchanged.refl (fs : Fs) : Unchanged fs fs :=
  ⟨rfl, rfl, fun _ => rfl, fun _ => rfl, fun _ _ => rfl, fun _ _ _ _ => rfl⟩

/-- The creation passes its checks, finds a free inode, and that inode can be
initialised. -/
def Fs.reachesInit (fs : Fs) (parent : Nat) (name : ValidFileName) : Bool :=
  match checkForCreate fs parent name, nextInode fs with
  | .ok (), some ino => decide ((fs.inodes ino).typ = .unknown)
  | _, _ => false

variable {fs : Fs} {name : ValidFileName} {typ : FileType}

lemma reachesInit_iff : fs.reachesInit parent name = true ↔ checkForCreate fs parent name = .ok () ∧
    ∃ ino, nextInode fs = some ino ∧ (fs.inodes ino).typ = .unknown := by
  unfold Fs.reachesInit
  constructor
  · intro h
    split at h
    · next ino hcheck hfree => exact ⟨hcheck, ino, hfree, of_decide_eq_true h⟩
    · cases h
  · rintro ⟨hcheck, ino, hfree, htyp⟩
    simp [hcheck, hfree, htyp, decide_true]

def anyCall (_ : Fs) (_ : Call) : Prop := True

/-! ### The allocation of the inode -/

lemma deallocInode_bitmap {s : Fs} (hfree : nextInode fs = some ino)
    (hbits : s.inodeBitmap = (putInodeBit fs ino true).inodeBitmap)
    (hcounts : inodeCounts s = inodeCounts fs) :
    (deallocInode s ino).2 = { s with inodeBitmap := fs.inodeBitmap } := by
  have hlt : ino < inodeCounts s := by
    have := firstClear_lt hfree
    omega
  have hbit : update s.inodeBitmap ino false = fs.inodeBitmap := by
    rw [hbits]
    refine (update_idem ..).trans ?_
    exact update_eq_self_iff.mpr (firstClear_clear hfree).symm
  have hwrite : deallocInode s ino = (.ok (), putInodeBit s ino false) :=
    if_neg (not_le.mpr hlt)
  rw [hwrite, ← hbit]
  rfl

lemma deallocInode_of_nextInode (hfree : nextInode fs = some ino) :
    (deallocInode (putInodeBit fs ino true) ino).2 = fs :=
  deallocInode_bitmap hfree rfl rfl

/-! ### Failing before the inode is initialised -/

lemma initInode_refused (htyp : (fs.inodes ino).typ ≠ .unknown) :
    Triple anyCall (fun s => s = fs) (initInode ino typ 0 >>= fun _ => rest) (fun _ _ => False)
      (fun stop s => s = fs ∧ stop ≠ .panicked) := by
  apply Triple.bind (R := fun _ _ => False)
  · apply triple_actFs
    · rintro s a rfl hok
      rw [if_pos (show (stat s ino).typ ≠ .unknown from htyp)] at hok
      cases hok
    · rintro s e rfl _
      rw [if_pos (show (stat s ino).typ ≠ .unknown from htyp)]
      exact ⟨rfl, Stop.noConfusion⟩
  · intro _
    exact ⟨fun _ hfalse => hfalse.elim⟩

lemma createWith_of_not_reachesInit
   {rest : Nat → EfsM Fs Unit} (h : fs.reachesInit parent name ≠ true) :
    Triple anyCall (fun s => s = fs) (createWith parent name
        (fun ino => initInode ino typ 0 >>= fun _ => rest ino))
      (fun _ _ => False) (fun _ s => s = fs) := by
  refine triple_createWith (fun _ _ => rfl) fun ino hcheck hfree => ?_
  have hinit : ((putInodeBit fs ino true).inodes ino).typ ≠ .unknown :=
    fun htyp => h (reachesInit_iff.mpr ⟨hcheck, ino, hfree, htyp⟩)
  apply triple_onError (initInode_refused hinit)
  · intro e
    apply triple_actFs
    · rintro s a ⟨rfl, _⟩ _
      exact deallocInode_of_nextInode hfree
    · rintro s e ⟨rfl, _⟩ _
      exact deallocInode_of_nextInode hfree
  · rintro s ⟨_, hpanic⟩
    exact absurd rfl hpanic

/-! ### Failing after the inode is initialised -/

lemma typ_putNlink (fs : Fs) : ((putNlink fs ino nlink).inodes j).typ = (fs.inodes j).typ := by
  by_cases hj : j = ino
  · subst hj
    simp [putNlink, Fs.putNlink, Fs.setInode]
  · simp [putNlink, Fs.putNlink, Fs.setInode, hj]

lemma stable_typ :
    Stable anyCall fun fs : Fs => (fs.inodes ino).typ = typ where
  write _ _ offset src len htyp _ := ((OnlyFile.rawWrite offset src len).typ_all ino).trans htyp
  truncate _ _ newSize htyp _ := ((OnlyFile.rawTruncate newSize).typ_all ino).trans htyp
  putNlink fs j nlink htyp := (typ_putNlink fs).trans htyp

lemma typ_deallocInode (fs : Fs) : ((deallocInode fs ino).2.inodes j).typ = (fs.inodes j).typ := by
  unfold deallocInode writeInodeBit
  split <;> rfl

lemma createWith_of_reachesInit
   {rest : Nat → EfsM Fs Unit} (hcheck : checkForCreate fs parent name = .ok ())
    (hfree : nextInode fs = some ino) (htyp : (fs.inodes ino).typ = .unknown)
    (hrest : ∀ j, Keeps anyCall (fun s : Fs => (s.inodes ino).typ = typ) (rest j)) :
    Triple anyCall (fun s => s = fs) (createWith parent name
        (fun ino => initInode ino typ 0 >>= fun _ => rest ino))
      (fun _ s => (s.inodes ino).typ = typ)
      (fun _ s => (s.inodes ino).typ = typ) := by
  refine triple_createWith ?_ fun j _ hj => ?_
  · rintro e (hnot | hnone)
    · exact absurd hcheck hnot
    · cases hnone.symm.trans hfree
  cases hj.symm.trans hfree
  refine triple_onError (F := fun _ s => (s.inodes ino).typ = typ)
    (Triple.bind ?_ fun _ => hrest ino) ?_ fun _ h => h
  · have hunknown : ¬ (stat (putInodeBit fs ino true) ino).typ ≠ .unknown := not_not_intro htyp
    apply triple_actFs
    · rintro s a rfl _
      rw [if_neg hunknown]
      simp [resetInode, Fs.resetInode, Fs.setInode]
    rintro s e rfl herr
    rw [if_neg hunknown] at herr
    cases herr
  intro e
  apply triple_actFs
  · intro s a hs _
    exact (typ_deallocInode s).trans hs
  · intro s e hs _
    exact (typ_deallocInode s).trans hs

/-! ### Both cases -/

lemma createWith_unchanged_iff
   {rest : Nat → EfsM Fs Unit} (htyp : typ ≠ .unknown) (hrest : ∀ ino j, Keeps anyCall
      (fun s : Fs => (s.inodes ino).typ = typ) (rest j)) {e : FsError}
    (herr : (createWith parent name
      (fun ino => initInode ino typ 0 >>= fun _ => rest ino) fs).result = .error (.err e)) :
    Unchanged fs (createWith parent name
        (fun ino => initInode ino typ 0 >>= fun _ => rest ino) fs).state ↔
      fs.reachesInit parent name = false := by
  constructor
  · intro hsame
    by_contra hreach
    obtain ⟨hcheck, ino, hfree, hunknown⟩ :=
      reachesInit_iff.mp (Bool.eq_true_of_not_eq_false hreach)
    have hend := (createWith_of_reachesInit hcheck hfree hunknown
      (hrest ino)).ends fs rfl fun _ _ => trivial
    rw [Ends, herr] at hend
    have hkept := hsame.typ ino
    rw [hend, hunknown] at hkept
    exact htyp hkept
  intro hreach
  have hcreate : Triple anyCall (fun s => s = fs) (createWith parent name
        (fun ino => initInode ino typ 0 >>= fun _ => rest ino))
      (fun _ _ => False) (fun _ s => s = fs) :=
    createWith_of_not_reachesInit (hreach ▸ Bool.false_ne_true)
  have hend := hcreate.ends fs rfl fun _ _ => trivial
  rw [Ends, herr] at hend
  rw [hend]
  exact Unchanged.refl fs

/-- A `create_file` or `mkdir` that returns an error leaves the bitmaps, the link
counts, the types and the directories as they were just when it is refused by
its checks, finds no free inode, or finds one that is not `Unknown`.  Every
failure to allocate a block comes later, and leaves the free inode typed. -/
theorem failed_creation_unchanged_iff (fs : Fs) (parent : Nat) (name : ValidFileName) :
    (∀ e, (createFile parent name fs).result = .error (.err e) →
      (Unchanged fs (createFile parent name fs).state ↔ fs.reachesInit parent name = false)) ∧
    (∀ e, (mkdir parent name fs).result = .error (.err e) →
      (Unchanged fs (mkdir parent name fs).state ↔ fs.reachesInit parent name = false)) := by
  constructor
  · intro e herr
    have hfile : FileType.file ≠ .unknown := FileType.noConfusion
    refine createWith_unchanged_iff hfile ?_ herr
    intro ino j
    exact (stable_typ).link ..
  intro e herr
  have hdir : FileType.directory ≠ .unknown := FileType.noConfusion
  refine createWith_unchanged_iff hdir ?_ herr
  intro ino j
  exact (stable_typ).linkDirectory ..

/-! ### A full volume -/

/-- A volume with a single data block, which the root directory takes. -/
def tinySuperblock : SuperBlock := ⟨1, 1, 1, 1, by decide⟩

def tinyVolume : Fs := (make (Fs.zeroed tinySuperblock)).state

def nameA : ValidFileName := ⟨[97], by decide, by decide, by decide +kernel⟩

def tinyVolumeWithFile : Fs := (createFile rootInodeNo nameA tinyVolume).state

theorem tinyVolumeWithFile_unchanged : (createFile rootInodeNo nameA tinyVolumeWithFile).result =
        .error (.err FsErrorKind.alreadyExists.err) ∧
      Unchanged tinyVolumeWithFile (createFile rootInodeNo nameA tinyVolumeWithFile).state := by
  have herr : (createFile rootInodeNo nameA tinyVolumeWithFile).result =
      .error (.err FsErrorKind.alreadyExists.err) := by
    decide +kernel
  refine ⟨herr, ?_⟩
  exact ((failed_creation_unchanged_iff tinyVolumeWithFile rootInodeNo
    nameA).1 _ herr).mpr (by decide +kernel)

/-- No block is left for the first entry of a new directory, and the inode that
was to hold it stays a directory. -/
theorem mkdir_tinyVolume_not_unchanged :
    ¬ ∀ (fs : Fs) (parent : Nat) (name : ValidFileName) (e : FsError),
      (mkdir parent name fs).result = .error (.err e) →
        Unchanged fs (mkdir parent name fs).state := by
  intro hall
  have herr : (mkdir rootInodeNo nameA tinyVolume).result =
      .error (.err FsErrorKind.noSpaceLeft.err) := by
    decide +kernel
  have htyp := (hall tinyVolume rootInodeNo nameA _ herr).typ 20
  revert htyp
  decide +kernel

end Redwing.Efs
