/-
Creating files through mounts.  The node that `MountFsINode::create` returns is
compared with the one that a lookup of the name finds right afterwards: they are
the same node unless the directory is one on which a file system is mounted.
-/
import Redwing.RamFs

namespace Redwing.Mounts

open VfsOps

variable {W F I E : Type} (ops : FsOps W F I E) (m : MountFileSystem F)

def MountFsINode.create (w : W) (node : MountFsINode I) (name : Name)
    (typ : FileType) : Except E (MountFsINode I) × W :=
  -- `Ok` results get the marker of the directory, whatever was created where.
  let finish : Except E I × W → Except E (MountFsINode I) × W
    | (.error e, w) => (.error e, w)
    | (.ok inode, w) => (.ok (wrap (ops.vfs w) node.rawInode inode), w)
  match node.getMountFs m with
  | some fs =>
    match ops.root fs with
    | .error e => (.error e, w)
    | .ok root => finish (ops.create w root name typ)
  | none => finish (ops.create w node.inner name typ)

/-! ### Nodes that behave alike -/

/-- Results of `create` in the same state that are both the same error, or
related. -/
inductive Creates {N : Type} (R : N → N → Prop) :
    Except E N × W → Except E N × W → Prop
  | error (e : E) (w : W) : Creates R (.error e, w) (.error e, w)
  | created {a b : N} (w : W) : R a b → Creates R (.ok a, w) (.ok b, w)

/-- Related nodes lead to the same file, which is what reads, writes and
`metadata` see of them, and lookups and creations in related nodes have related
results in every state of the file systems. -/
structure IsBisimulation (R : MountFsINode I → MountFsINode I → Prop) : Prop where
  inode : ∀ a b w, R a b → a.inode (ops.vfs w) m = b.inode (ops.vfs w) m
  lookup : ∀ a b w name, R a b →
    Matches R (a.tryLookup (ops.vfs w) m name) (b.tryLookup (ops.vfs w) m name)
  create : ∀ a b w name typ, R a b →
    Creates R (a.create ops m w name typ) (b.create ops m w name typ)

/-- No sequence of operations tells the two nodes apart. -/
def Alike (a b : MountFsINode I) : Prop := ∃ R, IsBisimulation ops m R ∧ R a b

lemma alike_refl (a : MountFsINode I) : Alike ops m a a := by
  refine ⟨Eq, ⟨?_, ?_, ?_⟩, rfl⟩
  · rintro a _ w rfl
    rfl
  · rintro a _ w name rfl
    cases a.tryLookup (ops.vfs w) m name with
    | error e => exact .error e
    | ok found =>
      cases found with
      | none => exact .nothing
      | some next => exact .found rfl
  rintro a _ w name typ rfl
  obtain ⟨result, w'⟩ := a.create ops m w name typ
  cases result with
  | error e => exact .error e w'
  | ok next => exact .created w' rfl

/-! ### Created and found -/

variable {ops m}

variable {name : Name} {node : MountFsINode I} {w : W} {fs : F} {inode : I}

lemma create_in (hunmounted : node.getMountFs m = none)
    (h : node.create ops m w name typ = (.ok n, w')) :
    ops.create w node.inner name typ = (.ok n.inner, w') ∧
      n = .wrap (ops.vfs w') node.rawInode n.inner := by
  unfold MountFsINode.create at h
  simp only [hunmounted] at h
  cases hcreate : ops.create w node.inner name typ with
  | mk result w₁ =>
    cases result with
    | error e =>
      rw [hcreate] at h
      cases (Prod.mk.inj h).1
    | ok inode =>
      rw [hcreate] at h
      obtain ⟨hn, hw⟩ := Prod.mk.inj h
      cases hn
      cases hw
      exact ⟨rfl, rfl⟩

lemma create_mounted (hmounted : node.getMountFs m = some fs)
    (h : node.create ops m w name typ = (.ok n, w')) :
    ∃ root, ops.root fs = .ok root ∧ ops.create w root name typ = (.ok n.inner, w') ∧
      n = .wrap (ops.vfs w') node.rawInode n.inner := by
  unfold MountFsINode.create at h
  simp only [hmounted] at h
  cases hroot : ops.root fs with
  | error e =>
    rw [hroot] at h
    cases (Prod.mk.inj h).1
  | ok root =>
    rw [hroot] at h
    cases hcreate : ops.create w root name typ with
    | mk result w₁ =>
      simp only [hcreate] at h
      cases result with
      | error e => cases (Prod.mk.inj h).1
      | ok inode =>
        obtain ⟨hn, hw⟩ := Prod.mk.inj h
        cases hn
        cases hw
        exact ⟨root, rfl, hcreate, rfl⟩

lemma rawInode_of_getMountFs (h : node.getMountFs m = some fs) : node.rawInode = none := by
  unfold MountFsINode.getMountFs at h
  cases hraw : node.rawInode with
  | none => rfl
  | some raw => simp [hraw] at h

lemma tryLookup_of_not_mounted (hunmounted : node.getMountFs m = none) (hname : name ≠ dotDot)
    (hfound : ops.tryLookup w node.inner name = .ok (some inode)) :
    node.tryLookup (ops.vfs w) m name = .ok (some (.wrap (ops.vfs w) node.rawInode inode)) := by
  have hin : ∀ raw, MountFsINode.lookupIn (ops.vfs w) node.inner raw name =
      .ok (some (.wrap (ops.vfs w) raw inode)) := by
    intro raw
    simp only [MountFsINode.lookupIn, FsOps.vfs, hfound]
    rfl
  simp only [MountFsINode.tryLookup, hunmounted, MountFsINode.lookupInner]
  cases node.rawInode with
  | none => exact hin none
  | some raw => simp only [hname, and_false, ↓reduceIte, hin]

lemma tryLookup_of_mounted (hmounted : node.getMountFs m = some fs)
    (hroot : ops.root fs = .ok root) (hdot : name ≠ dot) (hname : name ≠ dotDot)
    (hfound : ops.tryLookup w root name = .ok (some inode)) :
    node.tryLookup (ops.vfs w) m name = .ok (some (.wrap (ops.vfs w) (some node.inner) inode)) := by
  have hroot' : (ops.vfs w).root fs = .ok root := hroot
  simp only [MountFsINode.tryLookup, hmounted, hname, hdot, ne_eq,
    not_false_eq_true, and_self, ↓reduceIte, hroot']
  simp only [MountFsINode.lookupIn, FsOps.vfs, hfound]
  rfl

lemma not_alike_of_parent (hno : ops.ino inode ≠ 1) (hroot : ops.ino root = 1)
    (hparent : ops.tryLookup w inode dotDot = .ok (some root))
    (hnone : ops.tryLookup w root dotDot = .ok none)
    (hdir : ops.tryLookup w dir dotDot = .ok (some up)) :
    ¬Alike ops m (.wrap (ops.vfs w) none inode) (.wrap (ops.vfs w) (some dir) inode) := by
  rintro ⟨R, hR, hrel⟩
  have hplain : ∀ i : I, MountFsINode.tryLookup (ops.vfs w) m (.wrap (ops.vfs w) none i) dotDot =
      MountFsINode.lookupIn (ops.vfs w) i none dotDot := by
    intro i
    unfold MountFsINode.tryLookup
    split
    · exact if_neg (by simp)
    · rfl
  have hmarked : ∀ i : I, MountFsINode.tryLookup (ops.vfs w) m
      (.wrap (ops.vfs w) (some dir) i) dotDot =
      if ops.ino i = 1 then MountFsINode.lookupIn (ops.vfs w) dir none dotDot
      else MountFsINode.lookupIn (ops.vfs w) i (some dir) dotDot := by
    intro i
    simp [MountFsINode.tryLookup, MountFsINode.getMountFs, MountFsINode.wrap,
      MountFsINode.lookupInner, MountFsINode.isMountPointRoot, beq_iff_eq, and_true, FsOps.vfs]
  have hfirst := hR.lookup _ _ w dotDot hrel
  rw [hplain, hmarked, if_neg hno] at hfirst
  simp only [MountFsINode.lookupIn, FsOps.vfs, hparent, Except.map, Option.map_some] at hfirst
  cases hfirst with
  | found hnext =>
    have hsecond := hR.lookup _ _ w dotDot hnext
    have hleft := hplain root
    have hright := hmarked root
    rw [if_pos hroot] at hright
    simp only [MountFsINode.lookupIn, FsOps.vfs, hnone, hdir, Except.map,
      Option.map_some, Option.map_none] at hleft hright
    simp only [FsOps.vfs] at hsecond
    rw [hleft, hright] at hsecond
    cases hsecond

/-- A successful `create` and the lookup of the name right afterwards give nodes
of the same inode and number.  Without a mount on the directory they are one
node.  With one they differ in the marker.  The created node then leads elsewhere
if the new number is that of a mount directory of the main file system, and it
does not find the way out of a mounted file system whose root has no parent. -/
theorem create_agrees_with_lookup (hfinds : ops.CreateFinds) (node n : MountFsINode I) (w w' : W)
    (name : Name) (typ : FileType) (hdot : name ≠ dot) (hdotDot : name ≠ dotDot)
    (hcreate : node.create ops m w name typ = (.ok n, w')) :
    ∃ n', node.tryLookup (ops.vfs w') m name = .ok (some n') ∧
      n'.inner = n.inner ∧ n'.inodeNo = n.inodeNo ∧
      (n' = n ↔ node.getMountFs m = none) ∧
      (node.getMountFs m = none → Alike ops m n n') ∧
      (node.getMountFs m ≠ none → ∀ fs, m.mountPoints n.inodeNo = some fs →
        ops.root fs ≠ .ok n.inner → ¬Alike ops m n n') ∧
      (node.getMountFs m ≠ none → ∀ root up, n.inodeNo ≠ 1 → ops.ino root = 1 →
        ops.tryLookup w' n.inner dotDot = .ok (some root) →
        ops.tryLookup w' root dotDot = .ok none →
        ops.tryLookup w' node.inner dotDot = .ok (some up) →
        ¬Alike ops m n n') := by
  cases hfs : node.getMountFs m with
  | none =>
    obtain ⟨hinner, hn⟩ := create_in hfs hcreate
    have hfound := hfinds w node.inner name typ n.inner w' hdot hdotDot hinner
    refine ⟨n, ?_, rfl, rfl, iff_of_true rfl rfl, fun _ => alike_refl ops m n,
      fun h => absurd rfl h, fun h => absurd rfl h⟩
    rw [tryLookup_of_not_mounted hfs hdotDot hfound, ← hn]
  | some fs =>
    obtain ⟨root, hroot, hinner, hn⟩ := create_mounted hfs hcreate
    have hfound := hfinds w root name typ n.inner w' hdot hdotDot hinner
    have hnode := rawInode_of_getMountFs hfs
    have hraw : n.rawInode = none := by
      rw [hn]
      exact hnode
    have hno : n.inodeNo = ops.ino n.inner := by
      rw [hn]
      rfl
    refine ⟨_, tryLookup_of_mounted hfs hroot hdot hdotDot hfound, rfl, hno.symm,
      ?_, fun h => (by cases h), ?_, ?_⟩
    · refine iff_of_false (fun heq => ?_) (by simp)
      have hmark := congrArg MountFsINode.rawInode heq
      rw [hraw] at hmark
      cases hmark
    · rintro - other hother hne ⟨R, hR, hrel⟩
      have hinode := hR.inode _ _ w' hrel
      have hleft : n.inode (ops.vfs w') m = ops.root other := by
        simp only [MountFsINode.inode, MountFsINode.getMountFs, hraw,
          Option.isSome_none, Bool.false_eq_true, ↓reduceIte, hother]
        rfl
      rw [hleft] at hinode
      exact hne hinode
    rintro - top up hne hone hparent hnone hdir
    rw [hno] at hne
    rw [hn, hnode]
    exact not_alike_of_parent hne hone hparent hnone hdir

/-! ### File systems in memory -/

section

def ramOps : FsOps RamFs.World Nat RamFs.Ref RamFs.FsErrorKind :=
  RamFs.ops fun _ => .ok ()

/-- The main file system has the directories `d` and `e`, with the numbers 2 and
3, and the one mounted on `d` has a file with the number 2. -/
def ramWorld : RamFs.World :=
  let w : RamFs.World := fun _ => .new
  let w := (w.create ⟨0, 1⟩ [100] .directory).2
  let w := (w.create ⟨0, 1⟩ [101] .directory).2
  (w.create ⟨1, 1⟩ [97] .regularFile).2

def ramMounts : MountFileSystem Nat where
  mainFs := 0
  mountPoints := fun k => if k = 2 then some 1 else if k = 3 then some 2 else none

def ramNode (name : Name) : Except RamFs.FsErrorKind (Option (MountFsINode RamFs.Ref)) :=
  match ramMounts.root (ramOps.vfs ramWorld) with
  | .error e => .error e
  | .ok root => root.tryLookup (ramOps.vfs ramWorld) ramMounts name

/-- A file created in the root, which has no mount on it. -/
theorem create_agrees_with_lookup_root : ∃ n w', MountFsINode.create ramOps ramMounts ramWorld
        ⟨1, ⟨0, 1⟩, none⟩ [103] .regularFile = (.ok n, w') ∧
      Alike ramOps ramMounts n n ∧
      MountFsINode.tryLookup (ramOps.vfs w') ramMounts ⟨1, ⟨0, 1⟩, none⟩ [103] = .ok (some n) := by
  have hcreate : MountFsINode.create ramOps ramMounts ramWorld
      ⟨1, ⟨0, 1⟩, none⟩ [103] .regularFile =
      (.ok ⟨4, ⟨0, 4⟩, none⟩, (MountFsINode.create ramOps ramMounts ramWorld
        ⟨1, ⟨0, 1⟩, none⟩ [103] .regularFile).2) := rfl
  obtain ⟨n', hlookup, -, -, hsame, halike, -, -⟩ := create_agrees_with_lookup
    (RamFs.create_finds _) _ _ _ _ _ _ (by decide) (by decide) hcreate
  have heq := hsame.mpr rfl
  subst heq
  exact ⟨_, _, hcreate, halike rfl, hlookup⟩

/-- A file created in `d` gets the number 3 of the directory `e`, so its node
leads to the root of the file system that is mounted there. -/
theorem create_leads_elsewhere : ∃ node n w' n', ramNode [100] = .ok (some node) ∧
      node.create ramOps ramMounts ramWorld [102] .regularFile = (.ok n, w') ∧
      node.tryLookup (ramOps.vfs w') ramMounts [102] = .ok (some n') ∧
      n.inode (ramOps.vfs w') ramMounts = .ok ⟨2, 1⟩ ∧
      n'.inode (ramOps.vfs w') ramMounts = .ok ⟨1, 3⟩ ∧
      ¬Alike ramOps ramMounts n n' := by
  refine ⟨⟨2, ⟨0, 2⟩, none⟩, ⟨3, ⟨1, 3⟩, none⟩, _, ⟨3, ⟨1, 3⟩, some ⟨0, 2⟩⟩, rfl,
    rfl, rfl, rfl, rfl, ?_⟩
  rintro ⟨R, hR, hrel⟩
  have hinode := hR.inode _ _ ramWorld hrel
  have hleft : MountFsINode.inode (ramOps.vfs ramWorld) ramMounts
      ⟨3, ⟨1, 3⟩, none⟩ = .ok ⟨2, 1⟩ := rfl
  have hright : MountFsINode.inode (ramOps.vfs ramWorld) ramMounts
      ⟨3, ⟨1, 3⟩, some ⟨0, 2⟩⟩ = .ok ⟨1, 3⟩ := rfl
  rw [hleft, hright] at hinode
  cases hinode

end
end Redwing.Mounts
