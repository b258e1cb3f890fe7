/-
Where the creation of a name panics.  A valid name has up to 256 bytes and a
directory entry holds 64 of them; the entry is built only after the inode has
been allocated, and a panic does not give it back.
-/
import Redwing.EfsAtomic
import Redwing.EfsDots

namespace Redwing.Efs

open Prog Volume

section

variable {V α β : Type} {m : EfsM V α}

/-- The program returns a value or an error from every state. -/
def Returns (m : EfsM V α) : Prop := ∀ v, (m v).result ≠ .error .panicked

variable {v : V}

lemma bind_panics_iff : ((m >>= f) v).result = .error .panicked ↔ (m v).result = .error .panicked ∨
    ∃ a, (m v).result = .ok a ∧ (f a (m v).state).result = .error .panicked := by
  change (andThen m f v).result = _ ↔ _
  unfold andThen
  cases (m v).result with
  | ok a => simp
  | error e => simp

lemma onError_panics_iff (hcleanup : Returns cleanup) :
    (onError m cleanup v).result = .error .panicked ↔ (m v).result = .error .panicked := by
  unfold onError Prog.recover
  cases hresult : (m v).result with
  | ok a => simp
  | error stop =>
    cases stop with
    | panicked => simp [Stop.isErr]
    | err e =>
      refine iff_of_false ?_ (by simp)
      simp only [Stop.isErr, ↓reduceIte]
      rw [bind_panics_iff]
      rintro (hpanic | ⟨a, -, hfail⟩)
      · exact hcleanup _ hpanic
      · cases hfail

namespace Returns

lemma bind (hm : Returns m) (hf : ∀ a, Returns (f a)) : Returns (m >>= f) := by
  intro v hpanic
  rcases bind_panics_iff.mp hpanic with hfirst | ⟨a, -, hrest⟩
  · exact hm v hfirst
  · exact hf a _ hrest

lemma stopOf_ne (r : Except FsError α) : stopOf r ≠ .error .panicked := by
  cases r <;> simp [stopOf]

lemma lookFs (f : V → Except FsError α) : Returns (lookFs f) := fun _ => stopOf_ne _

lemma actFs (f : V → Except FsError α × V) : Returns (actFs f) := fun _ => stopOf_ne _

lemma callFs (c : Call) (f : V → Except FsError α × V) : Returns (callFs c f) :=
  fun _ => stopOf_ne _

lemma failWith (e : FsError) : Returns (failWith e : EfsM V α) := fun _ => nofun

lemma pure (a : α) : Returns (pure a : EfsM V α) := fun _ => nofun

lemma alter (f : V → V) : Returns (Prog.alter f : EfsM V Unit) := fun _ => nofun

end Returns

lemma stopOf_eq_ok_iff : stopOf r = .ok a ↔ r = .ok a := by cases r <;> simp [stopOf]

lemma lookFs_bind_panics_iff : ((lookFs g >>= f) v).result = .error .panicked ↔
    ∃ a, g v = .ok a ∧ (f a v).result = .error .panicked := by
  rw [bind_panics_iff, or_iff_right (Returns.lookFs g v)]
  exact exists_congr fun a => and_congr_left' stopOf_eq_ok_iff

lemma actFs_bind_panics_iff : ((actFs g >>= f) v).result = .error .panicked ↔
    ∃ a, (g v).1 = .ok a ∧ (f a (g v).2).result = .error .panicked := by
  rw [bind_panics_iff, or_iff_right (Returns.actFs g v)]
  exact exists_congr fun a => and_congr_left' stopOf_eq_ok_iff

namespace Returns

variable [Volume V]

lemma writeTo (d : RawDirent) (ino offset : Nat) :
    Returns (d.writeTo ino offset : EfsM V Unit) := by
  refine bind (callFs _ _) fun size => ?_
  split
  · exact bind (lookFs _) fun _ => bind (callFs _ _) fun _ => failWith _
  · exact pure _

lemma unlinkEntry (dir child : Nat) (name : List UInt8) :
    Returns (unlinkEntry dir child name : EfsM V Unit) := by
  refine bind (bind (lookFs _) fun sz => bind (lookFs _) fun found => ?_) fun found => ?_
  · split
    · exact pure _
    · refine bind (writeTo _ _ _) fun _ => bind ?_ fun _ => pure _
      unfold cutLast
      split
      · exact callFs _ _
      · exact pure _
  split
  · exact failWith _
  · split
    · exact failWith _
    · exact alter _

end Returns

variable [Volume V]

lemma link_panics_iff : (link dir child name v).result = .error .panicked ↔
    (stat v child).typ = .unknown ∨ fileNameLen < name.length := by
  unfold link
  rw [lookFs_bind_panics_iff]
  constructor
  · rintro ⟨typ, htyp, hpanic⟩
    cases htyp
    by_contra hnew
    simp only [RawDirent.new, if_neg hnew] at hpanic
    refine Returns.bind ?_ (fun _ => Returns.alter _) _ hpanic
    exact Returns.bind (Returns.lookFs _) fun _ => Returns.writeTo _ _ _
  intro hnew
  refine ⟨_, rfl, ?_⟩
  simp only [RawDirent.new, if_pos hnew]
  rfl

end

/-- The entry of the new name is built: for a file after `init_inode`, for a
directory after its own two entries, which need a data block. -/
def Fs.buildsEntry (fs : Fs) (parent : Nat) (name : ValidFileName) (directory : Bool) : Bool :=
  fs.reachesInit parent name && (!directory || fs.hasDataBlock)

/-- The call returns, and an error leaves no inode allocated. -/
structure CreatesCleanly (fs : Fs) (o : Outcome Fs (Call) Stop Nat) : Prop where
  returns : o.result ≠ .error .panicked
  inodes : ∀ stop, o.result = .error stop → o.state.inodeBitmap = fs.inodeBitmap

variable {fs : Fs} {name : ValidFileName}

lemma createWith_panics_iff : (createWith parent name init fs).result = .error .panicked ↔
    checkForCreate fs parent name = .ok () ∧ ∃ ino, nextInode fs = some ino ∧
      (init ino (putInodeBit fs ino true)).result = .error .panicked := by
  constructor
  · intro hpanic
    obtain ⟨_, hcheck, hpanic⟩ := lookFs_bind_panics_iff.mp hpanic
    obtain ⟨ino, halloc, hpanic⟩ := actFs_bind_panics_iff.mp hpanic
    rcases bind_panics_iff.mp hpanic with hpanic | ⟨_, _, hpure⟩
    · rw [onError_panics_iff (Returns.actFs _)] at hpanic
      cases hfree : nextInode fs with
      | none =>
        rw [allocInode_none hfree] at halloc
        cases halloc
      | some found =>
        rw [allocInode_eq hfree] at halloc hpanic
        cases halloc
        exact ⟨hcheck, ino, rfl, hpanic⟩
    · cases hpure
  · rintro ⟨hcheck, ino, hfree, hpanic⟩
    refine lookFs_bind_panics_iff.mpr ⟨(), hcheck, ?_⟩
    refine actFs_bind_panics_iff.mpr ⟨ino, ?_, bind_panics_iff.mpr (.inl ?_)⟩
    · rw [allocInode_eq hfree]
    · rw [onError_panics_iff (Returns.actFs _), allocInode_eq hfree]
      exact hpanic

lemma createWith_err_bitmap (hinit : ∀ ino bits counts, Keeps anyCall
      (fun s : Fs => s.inodeBitmap = bits ∧ inodeCounts s = counts) (init ino))
    (herr : (createWith parent name init fs).result = .error (.err e)) :
    (createWith parent name init fs).state.inodeBitmap = fs.inodeBitmap := by
  have hcreate : Triple anyCall (fun s => s = fs) (createWith parent name init)
      (fun _ _ => True) (fun stop s => stop = .panicked ∨ s.inodeBitmap = fs.inodeBitmap) := by
    refine triple_createWith (fun _ _ => .inr rfl) fun ino _ hfree => ?_
    have hkeeps := hinit ino (putInodeBit fs ino true).inodeBitmap (inodeCounts fs)
    refine triple_onError (hkeeps.consequence ?_ (fun _ _ _ => trivial)
      fun _ _ h => h) ?_ fun _ _ => .inl rfl
    · rintro s rfl
      exact ⟨rfl, rfl⟩
    intro e
    apply triple_actFs
    · rintro s a ⟨hbits, hcounts⟩ _
      exact .inr (by rw [deallocInode_bitmap hfree hbits hcounts])
    · rintro s e ⟨hbits, hcounts⟩ _
      exact .inr (by rw [deallocInode_bitmap hfree hbits hcounts])
  have hend := hcreate.ends fs rfl fun _ _ => trivial
  rw [Ends, herr] at hend
  exact hend.resolve_left Stop.noConfusion

lemma OnlyFile.bitmap (honly : OnlyFile ino fs fs')
    (h : fs.inodeBitmap = bits ∧ inodeCounts fs = counts) :
    fs'.inodeBitmap = bits ∧ inodeCounts fs' = counts :=
  ⟨honly.inodeBitmap.trans h.1, (congrArg SuperBlock.inodeCounts honly.superblock).trans h.2⟩

lemma stable_bitmap (bits : Nat → Bool) : Stable anyCall
    fun fs : Fs => fs.inodeBitmap = bits ∧ inodeCounts fs = counts where
  write _ _ offset src len h _ := (OnlyFile.rawWrite offset src len).bitmap h
  truncate _ _ newSize h _ := (OnlyFile.rawTruncate newSize).bitmap h
  putNlink _ _ _ h := h

lemma initInode_bitmap (bits : Nat → Bool) : Keeps anyCall
    (fun fs : Fs => fs.inodeBitmap = bits ∧ inodeCounts fs = counts)
    (initInode ino typ 0) := by
  apply Keeps.act
  intro fs h
  dsimp only
  split <;> exact h

lemma initInode_bind_panics_iff :
    ((initInode ino typ 0 >>= f) fs).result = .error .panicked ↔ (fs.inodes ino).typ = .unknown ∧
        (f () (fs.resetInode ino typ 0)).result = .error .panicked := by
  unfold initInode
  rw [actFs_bind_panics_iff]
  by_cases htyp : (fs.inodes ino).typ = .unknown
  · simp [htyp, resetInode, Unique.exists_iff]
  · simp [htyp]

lemma typ_resetInode (fs : Fs) : ((fs.resetInode ino typ 0).inodes ino).typ = typ := by
  simp [Fs.resetInode, Fs.setInode]

lemma createFile_panics_iff : (createFile parent name fs).result = .error .panicked ↔
    fs.buildsEntry parent name false = true ∧ fileNameLen < name.bytes.length := by
  have hinit : ∀ ino, (initFile parent name ino
      (putInodeBit fs ino true)).result = .error .panicked ↔
        (fs.inodes ino).typ = .unknown ∧ fileNameLen < name.bytes.length := by
    intro ino
    unfold initFile
    rw [initInode_bind_panics_iff, link_panics_iff, Fs.stat_typ, typ_resetInode]
    simp only [reduceCtorEq, false_or]
    rfl
  simp only [Fs.buildsEntry, Bool.not_false, Bool.true_or, Bool.and_true]
  rw [createFile, createWith_panics_iff, reachesInit_iff]
  simp only [hinit]
  constructor
  · rintro ⟨hcheck, ino, hfree, htyp, hlong⟩
    exact ⟨⟨hcheck, ino, hfree, htyp⟩, hlong⟩
  · rintro ⟨⟨hcheck, ino, hfree, htyp⟩, hlong⟩
    exact ⟨hcheck, ino, hfree, htyp, hlong⟩

lemma stable_directories (ino parent : Nat) : Stable anyCall fun fs : Fs =>
    (fs.inodes ino).typ = .directory ∧ (fs.inodes parent).typ = .directory where
  write v j offset src len h hok :=
    ⟨stable_typ.write v j offset src len h.1 hok, stable_typ.write v j offset src len h.2 hok⟩
  truncate v j newSize h hok := ⟨stable_typ.truncate v j newSize h.1 hok,
    stable_typ.truncate v j newSize h.2 hok⟩
  putNlink v j nlink h := ⟨stable_typ.putNlink v j nlink h.1, stable_typ.putNlink v j nlink h.2⟩

lemma Returns.triple (h : Returns m) :
    Triple anyCall P m (fun _ _ => True) (fun stop _ => stop ≠ .panicked) := by
  refine ⟨fun s _ _ => ?_⟩
  unfold Ends
  split
  · trivial
  rename_i stop hresult
  rintro rfl
  exact h s hresult

lemma triple_link_fits {dir child : Nat} {name : List UInt8}
    (hchild : child = ino ∨ child = parent) (hlen : name.length ≤ fileNameLen) :
    Triple anyCall (fun s : Fs => (s.inodes ino).typ = .directory ∧
        (s.inodes parent).typ = .directory) (link dir child name)
      (fun _ s => (s.inodes ino).typ = .directory ∧ (s.inodes parent).typ = .directory)
      (fun stop _ => stop ≠ .panicked) := by
  refine ⟨fun s hs hcalls => ?_⟩
  have hend := ((stable_directories ino parent).link dir child name).ends s hs hcalls
  unfold Ends at hend ⊢
  cases hresult : (link dir child name s).result with
  | ok a =>
    rw [hresult] at hend
    exact hend
  | error stop =>
    rintro rfl
    have htyp : (s.inodes child).typ = .directory := by
      rcases hchild with rfl | rfl
      · exact hs.1
      · exact hs.2
    rcases link_panics_iff.mp hresult with hunknown | hlong
    · rw [Fs.stat_typ, htyp] at hunknown
      cases hunknown
    · omega

lemma triple_initDots (ino : Nat) (hparent : (fs.inodes parent).typ = .directory) :
    Triple anyCall (fun s => s = fs) (initDots parent ino)
      (fun _ s => (s.inodes ino).typ = .directory)
      (fun stop _ => stop ≠ .panicked) := by
  apply Triple.bind (R := fun _ (s : Fs) =>
    (s.inodes ino).typ = .directory ∧ (s.inodes parent).typ = .directory)
  · apply triple_actFs
    · rintro s a rfl hok
      split at hok
      · cases hok
      rename_i htyp
      have hne : parent ≠ ino := by
        rintro rfl
        rw [Fs.stat_typ, hparent] at htyp
        exact htyp FileType.noConfusion
      rw [if_neg htyp]
      refine ⟨typ_resetInode s, ?_⟩
      simp [resetInode, Fs.resetInode, Fs.setInode, hne, hparent]
    · exact fun _ _ _ _ => Stop.noConfusion
  intro _
  refine Triple.bind (triple_link_fits (.inl rfl) (by decide)) fun _ => ?_
  refine triple_onError (F := fun stop _ => stop ≠ .panicked) ?_ (fun e => ?_) fun _ h => h
  · exact (triple_link_fits (.inr rfl) (by decide)).consequence (fun _ h => h)
      (fun _ _ h => h.1) fun _ _ h => h
  · exact (Returns.unlinkEntry ino ino dot).triple.consequence (fun _ h => h)
      (fun _ _ _ => Stop.noConfusion) fun _ _ h => h

lemma initDirectory_eq (parent ino : Nat) (name : ValidFileName) :
    (initDirectory parent name ino : EfsM Fs Unit) =
      initDots parent ino >>= fun _ => link parent ino name.bytes := by
  unfold initDirectory initDots
  rw [Prog.bind_assoc]
  simp [Prog.bind_assoc]

lemma checkForCreate_directory (h : checkForCreate fs parent name = .ok ()) :
    (fs.inodes parent).typ = .directory := by
  by_contra htyp
  simp [checkForCreate, htyp] at h

lemma initDirectory_panics_iff (hparent : (fs.inodes parent).typ = .directory) :
    (initDirectory parent name ino fs).result = .error .panicked ↔
      (initDots parent ino fs).result.isOk = true ∧ fileNameLen < name.bytes.length := by
  have hend := (triple_initDots ino hparent).ends fs rfl fun _ _ => trivial
  rw [initDirectory_eq, bind_panics_iff]
  unfold Ends at hend
  cases hresult : (initDots parent ino fs).result with
  | ok a =>
    rw [hresult] at hend
    simp [link_panics_iff, hend, Except.isOk, Except.toBool]
  | error stop =>
    rw [hresult] at hend
    simp [hend, Except.isOk, Except.toBool]

lemma unknown_of_initDots (h : (initDots parent ino fs).result.isOk = true) :
    (fs.inodes ino).typ = .unknown := by
  by_contra htyp
  have hend := (initInode_refused htyp).ends (m := initDots parent ino) fs rfl fun _ _ => trivial
  unfold Ends at hend
  split at hend
  · exact hend
  rename_i hresult
  rw [hresult] at h
  cases h

lemma hasDataBlock_putInodeBit (fs : Fs) (ino : Nat) :
    Fs.hasDataBlock (putInodeBit fs ino true) = fs.hasDataBlock := by
  rw [Fs.hasDataBlock, Fs.hasDataBlock]
  rfl

lemma mkdir_panics_iff : (mkdir parent name fs).result = .error .panicked ↔
    fs.buildsEntry parent name true = true ∧ fileNameLen < name.bytes.length := by
  rw [mkdir, createWith_panics_iff, Fs.buildsEntry, Bool.and_eq_true, reachesInit_iff]
  simp only [Bool.not_true, Bool.false_or]
  constructor
  · rintro ⟨hcheck, ino, hfree, hpanic⟩
    have hdir := checkForCreate_directory hcheck
    have hparent : ((putInodeBit fs ino true).inodes parent).typ = .directory := hdir
    obtain ⟨hdots, hlong⟩ := (initDirectory_panics_iff hparent).mp hpanic
    have htyp : ((putInodeBit fs ino true).inodes ino).typ = .unknown := unknown_of_initDots hdots
    rw [initDots_isOk_iff htyp hparent, hasDataBlock_putInodeBit] at hdots
    exact ⟨⟨⟨hcheck, ino, hfree, htyp⟩, hdots⟩, hlong⟩
  rintro ⟨⟨⟨hcheck, ino, hfree, htyp⟩, hblock⟩, hlong⟩
  have hdir := checkForCreate_directory hcheck
  have hparent : ((putInodeBit fs ino true).inodes parent).typ = .directory := hdir
  have htyp : ((putInodeBit fs ino true).inodes ino).typ = .unknown := htyp
  rw [← hasDataBlock_putInodeBit fs ino, ← initDots_isOk_iff htyp hparent] at hblock
  exact ⟨hcheck, ino, hfree, (initDirectory_panics_iff hparent).mpr ⟨hblock, hlong⟩⟩

lemma createsCleanly_iff
    (herr : ∀ e, o.result = .error (.err e) → o.state.inodeBitmap = fs.inodeBitmap) :
    CreatesCleanly fs o ↔ ¬o.result = .error .panicked := by
  refine ⟨fun h => h.returns, fun h => ⟨h, fun stop hstop => ?_⟩⟩
  cases stop with
  | err e => exact herr e hstop
  | panicked => exact absurd hstop h

/-- `create_file` and `mkdir` return, and give the inode back with an error,
just when the name fits into an entry or no entry is built for it. -/
theorem creates_cleanly_iff (fs : Fs) (parent : Nat) (name : ValidFileName) :
    (CreatesCleanly fs (createFile parent name fs) ↔ name.bytes.length ≤ fileNameLen ∨
        fs.buildsEntry parent name false = false) ∧
    (CreatesCleanly fs (mkdir parent name fs) ↔ name.bytes.length ≤ fileNameLen ∨
        fs.buildsEntry parent name true = false) := by
  constructor
  · have herr : ∀ e, (createFile parent name fs).result = .error (.err e) →
        (createFile parent name fs).state.inodeBitmap = fs.inodeBitmap := by
      intro e
      refine createWith_err_bitmap fun ino bits counts => ?_
      exact Keeps.bind (initInode_bitmap bits) fun _ => (stable_bitmap bits).link ..
    rw [createsCleanly_iff herr, createFile_panics_iff, not_and_or,
      Bool.not_eq_true, not_lt, or_comm]
  have herr : ∀ e, (mkdir parent name fs).result = .error (.err e) →
      (mkdir parent name fs).state.inodeBitmap = fs.inodeBitmap := by
    intro e
    refine createWith_err_bitmap fun ino bits counts => ?_
    exact Keeps.bind (initInode_bitmap bits) fun _ => (stable_bitmap bits).linkDirectory ..
  rw [createsCleanly_iff herr, mkdir_panics_iff, not_and_or, Bool.not_eq_true, not_lt, or_comm]

def longName : ValidFileName := ⟨List.replicate 65 97, by decide, by decide, by decide +kernel⟩

/-- A file of that name leaves its inode allocated and panics. -/
theorem longName_not_created_cleanly : ¬ ∀ (fs : Fs) (parent : Nat) (name : ValidFileName),
      CreatesCleanly fs (createFile parent name fs) ∧ CreatesCleanly fs (mkdir parent name fs) := by
  intro hall
  have hpanic : (createFile rootInodeNo longName tinyVolume).result = .error .panicked := by
    decide +kernel
  exact (hall tinyVolume rootInodeNo longName).1.returns hpanic

end Redwing.Efs
