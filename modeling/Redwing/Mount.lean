/-
Path lookup through mounts, after `fs/vfs/mount.rs` and `fs/pathname.rs`.  A node
of the mounted file system is an inode number, an inode and the directory that
it is mounted on, if any.  Looking up a path on such nodes is compared with
looking it up in the tree in which each mount directory is replaced by the root
of what is mounted there.
-/
import Mathlib.Logic.Basic
import Mathlib.Data.List.Basic

namespace Redwing.Mounts

/-! ### Paths -/

def dot : List UInt8 := [46]
def dotDot : List UInt8 := [46, 46]

inductive Component
  | rootDir
  | curDir
  | parentDir
  | normal (name : List UInt8)
deriving DecidableEq

def segments : List UInt8 → List (List UInt8)
  | [] => [[]]
  | byte :: rest =>
    if byte = 47 then [] :: segments rest
    else
      match segments rest with
      | [] => [[byte]]
      | segment :: others => (byte :: segment) :: others

def firstComponent (segment : List UInt8) : Component :=
  if segment = [] then .rootDir
  else if segment = dot then .curDir
  else if segment = dotDot then .parentDir
  else .normal segment

/-- What it makes of a later segment; empty ones and `.` are passed over. -/
def laterComponent (segment : List UInt8) : Option Component :=
  if segment = [] ∨ segment = dot then none
  else if segment = dotDot then some .parentDir
  else some (.normal segment)

def components (path : List UInt8) : List Component :=
  if path = [] then []
  else
    match segments path with
    | [] => []
    | first :: rest => firstComponent first :: rest.filterMap laterComponent

def Component.lookupName : Component → Option (List UInt8)
  | .rootDir | .curDir => none
  | .parentDir => some dotDot
  | .normal name => some name

variable {E N : Type}

/-- The loop of `try_ilookup`, over any kind of node.  `checkName` is
`ValidLookupName::try_from`. -/
def lookupComponents (checkName : List UInt8 → Except E Unit)
    (tryLookup : N → List UInt8 → Except E (Option N)) :
    List Component → N → Except E (Option N)
  | [], node => .ok (some node)
  | component :: rest, node =>
    match component.lookupName with
    | none => lookupComponents checkName tryLookup rest node
    | some name =>
      match checkName name with
      | .error e => .error e
      | .ok () =>
        match tryLookup node name with
        | .error e => .error e
        | .ok none => .ok none
        | .ok (some next) => lookupComponents checkName tryLookup rest next

/-! ### Mounts -/

/-- What path lookup uses of file systems `F` and their inodes `I`: `root` of
`VfsOps`, `try_lookup` and the inode number of `metadata` of `VfsINodeOps`. -/
structure Vfs (F I E : Type) where
  checkName : List UInt8 → Except E Unit
  root : F → Except E I
  ino : I → Nat
  tryLookup : I → List UInt8 → Except E (Option I)

structure MountFileSystem (F : Type) where
  mainFs : F
  mountPoints : Nat → Option F

structure MountFsINode (I : Type) where
  inodeNo : Nat
  inner : I
  rawInode : Option I
deriving DecidableEq

variable {F I : Type} (vfs : Vfs F I E) (m : MountFileSystem F)

def MountFsINode.getMountFs (node : MountFsINode I) : Option F :=
  if node.rawInode.isSome then none else m.mountPoints node.inodeNo

def MountFsINode.inode (node : MountFsINode I) : Except E I :=
  match node.getMountFs m with
  | some fs => vfs.root fs
  | none => .ok node.inner

def MountFsINode.isMountPointRoot (node : MountFsINode I) : Bool :=
  node.inodeNo == 1 && node.rawInode.isSome

def MountFsINode.wrap (rawInode : Option I) (inode : I) : MountFsINode I :=
  { inodeNo := vfs.ino inode, inner := inode, rawInode }

def MountFsINode.lookupIn (inode : I) (rawInode : Option I)
    (name : List UInt8) : Except E (Option (MountFsINode I)) :=
  (vfs.tryLookup inode name).map (·.map (wrap vfs rawInode))

def MountFsINode.lookupInner (node : MountFsINode I) (name : List UInt8) :
    Except E (Option (MountFsINode I)) :=
  match node.rawInode with
  | some raw =>
    if node.isMountPointRoot ∧ name = dotDot then lookupIn vfs raw none name
    else lookupIn vfs node.inner (some raw) name
  | none => lookupIn vfs node.inner none name

def MountFsINode.tryLookup (node : MountFsINode I) (name : List UInt8) :
    Except E (Option (MountFsINode I)) :=
  match node.getMountFs m with
  | some fs =>
    if name ≠ dotDot ∧ name ≠ dot then
      match vfs.root fs with
      | .error e => .error e
      | .ok root => lookupIn vfs root (some node.inner) name
    else node.lookupInner vfs name
  | none => node.lookupInner vfs name

namespace MountFileSystem

def root : Except E (MountFsINode I) :=
  match vfs.root m.mainFs with
  | .error e => .error e
  | .ok origin =>
    match m.mountPoints (vfs.ino origin) with
    | none => .ok { inodeNo := vfs.ino origin, inner := origin, rawInode := none }
    | some fs =>
      match vfs.root fs with
      | .error e => .error e
      | .ok inner => .ok { inodeNo := vfs.ino origin, inner, rawInode := some origin }

def resolve (path : List UInt8) : Except E (Option I) :=
  match m.root vfs with
  | .error e => .error e
  | .ok root =>
    match lookupComponents vfs.checkName (MountFsINode.tryLookup vfs m) (components path) root with
    | .error e => .error e
    | .ok none => .ok none
    | .ok (some node) => (node.inode vfs m).map some

end MountFileSystem

/-! ### The single tree -/

/-- A place in the tree: an inode of the main file system, or one of a file
system mounted on a directory. -/
inductive Place (F I : Type)
  | main (inode : I)
  | mounted (dir : I) (fs : F) (inode : I)

def Place.file : Place F I → I
  | .main inode => inode
  | .mounted _ _ inode => inode

def Place.enter (inode : I) : Except E (Place F I) :=
  match m.mountPoints (vfs.ino inode) with
  | none => .ok (.main inode)
  | some fs => (vfs.root fs).map (.mounted inode fs)

def Place.lookupMain (inode : I) (name : List UInt8) : Except E (Option (Place F I)) :=
  match vfs.tryLookup inode name with
  | .error e => .error e
  | .ok none => .ok none
  | .ok (some next) => (enter vfs m next).map some

def Place.tryLookup [DecidableEq I] : Place F I → List UInt8 → Except E (Option (Place F I))
  | .main inode, name => lookupMain vfs m inode name
  | .mounted dir fs inode, name =>
    match vfs.root fs with
    | .error e => .error e
    | .ok root =>
      if inode = root ∧ name = dotDot then lookupMain vfs m dir name
      else (vfs.tryLookup inode name).map (·.map (.mounted dir fs))

def MountFileSystem.resolveTree [DecidableEq I] (path : List UInt8) : Except E (Option I) :=
  match vfs.root m.mainFs with
  | .error e => .error e
  | .ok origin =>
    match Place.enter vfs m origin with
    | .error e => .error e
    | .ok root =>
      (lookupComponents vfs.checkName (Place.tryLookup vfs m)
        (components path) root).map (·.map Place.file)

/-- The inodes of a file system. -/
inductive Vfs.Has (fs : F) : I → Prop
  | root {inode : I} : vfs.root fs = .ok inode → Has fs inode
  | child {inode next : I} {name : List UInt8} : Has fs inode →
      vfs.tryLookup inode name = .ok (some next) → Has fs next

/-- A file system has a root, which alone has the number 1. -/
structure Vfs.Proper (fs : F) : Prop where
  root : ∃ root, vfs.root fs = .ok root ∧
    ∀ inode, vfs.Has fs inode → (vfs.ino inode = 1 ↔ inode = root)

/-! ### Simulation -/

/-- Results that are both errors, both nothing, or related. -/
inductive Matches {N P : Type} (R : N → P → Prop) :
    Except E (Option N) → Except E (Option P) → Prop
  | error (e : E) : Matches R (.error e) (.error e)
  | nothing : Matches R (.ok none) (.ok none)
  | found {node : N} {place : P} : R node place →
      Matches R (.ok (some node)) (.ok (some place))

lemma lookupName_ne_dot {path : List UInt8} {component : Component}
    (h : component ∈ components path) : component.lookupName ≠ some dot := by
  have hfirst : ∀ segment, (firstComponent segment).lookupName ≠ some dot := by
    intro segment
    rw [firstComponent]
    split
    · exact nofun
    split
    · exact nofun
    rename_i hdot
    split
    · decide
    · exact fun heq => hdot (Option.some.inj heq)
  have hlater : ∀ segment, laterComponent segment = some component →
      component.lookupName ≠ some dot := by
    intro segment hlater
    rw [laterComponent] at hlater
    split at hlater
    · cases hlater
    rename_i hdot
    split at hlater
    · cases hlater
      decide
    · cases hlater
      exact fun heq => hdot (.inr (Option.some.inj heq))
  rw [components] at h
  split at h
  · cases h
  split at h
  · cases h
  rcases List.mem_cons.mp h with rfl | hmem
  · exact hfirst _
  · obtain ⟨segment, -, hsegment⟩ := List.mem_filterMap.mp hmem
    exact hlater segment hsegment

lemma lookupComponents_matches (hlookup : ∀ node place name, R node place → name ≠ dot →
      Matches R (lookupN node name) (lookupP place name))
    (hlist : ∀ component ∈ list, component.lookupName ≠ some dot)
    (h : R node place) :
    Matches R (lookupComponents checkName lookupN list node)
      (lookupComponents checkName lookupP list place) := by
  induction list generalizing node place with
  | nil => exact .found h
  | cons component rest ih =>
    have hrest := fun c hc => hlist c (List.mem_cons_of_mem component hc)
    cases hname : component.lookupName with
    | none =>
      simp only [lookupComponents, hname]
      exact ih hrest h
    | some name =>
      have hdot : name ≠ dot := by
        rintro rfl
        exact hlist component List.mem_cons_self hname
      simp only [lookupComponents, hname]
      cases checkName name with
      | error e => exact .error e
      | ok =>
        have hmatch := hlookup node place name h hdot
        generalize lookupN node name = found at hmatch ⊢
        generalize lookupP place name = found' at hmatch ⊢
        cases hmatch with
        | error e => exact .error e
        | nothing => exact .nothing
        | found hnext => exact ih hrest hnext

section

/-- How nodes stand for places.  The root of a mounted file system has two
representations: its mount directory, which the lookups replace, and the root
itself with the mount directory at its side. -/
inductive Represents : MountFsINode I → Place F I → Prop
  | main {inode : I} (unmounted : m.mountPoints (vfs.ino inode) = none) :
      Represents { inodeNo := vfs.ino inode, inner := inode, rawInode := none } (.main inode)
  | mountDir {dir root : I} {fs : F}
      (mounted : m.mountPoints (vfs.ino dir) = some fs)
      (isRoot : vfs.root fs = .ok root) :
      Represents { inodeNo := vfs.ino dir, inner := dir, rawInode := none } (.mounted dir fs root)
  | inside {dir inode : I} {fs : F} {inodeNo : Nat}
      (mounted : m.mountPoints (vfs.ino dir) = some fs)
      (has : vfs.Has fs inode)
      (number : inodeNo = 1 ↔ vfs.root fs = .ok inode) :
      Represents { inodeNo, inner := inode, rawInode := some dir } (.mounted dir fs inode)

variable {vfs m}

lemma inode_eq (h : Represents vfs m node place) : node.inode vfs m = .ok place.file := by
  cases h with
  | main unmounted => simp [MountFsINode.inode, MountFsINode.getMountFs, unmounted, Place.file]
  | mountDir mounted isRoot =>
    simp [MountFsINode.inode, MountFsINode.getMountFs, mounted, isRoot, Place.file]
  | inside mounted has number => simp [MountFsINode.inode, MountFsINode.getMountFs, Place.file]

variable (hmounts : ∀ k fs, m.mountPoints k = some fs → vfs.Proper fs)

include hmounts in
lemma wrap_represents (inode : I) : ∃ place, Place.enter vfs m inode = .ok place ∧
    Represents vfs m (MountFsINode.wrap vfs none inode) place := by
  cases hfs : m.mountPoints (vfs.ino inode) with
  | none => exact ⟨.main inode, by rw [Place.enter, hfs], .main hfs⟩
  | some fs =>
    obtain ⟨root, hroot, -⟩ := (hmounts _ fs hfs).root
    refine ⟨.mounted inode fs root, ?_, .mountDir hfs hroot⟩
    simp [Place.enter, hfs, hroot, Except.map]

include hmounts in
lemma lookupIn_main (inode : I) (name : List UInt8) : Matches (Represents vfs m)
    (MountFsINode.lookupIn vfs inode none name) (Place.lookupMain vfs m inode name) := by
  rw [MountFsINode.lookupIn, Place.lookupMain]
  cases vfs.tryLookup inode name with
  | error e => exact .error e
  | ok found =>
    cases found with
    | none => exact .nothing
    | some next =>
      obtain ⟨place, hplace, hrep⟩ := wrap_represents hmounts next
      simp only [Except.map, Option.map, hplace]
      exact .found hrep

include hmounts in
lemma lookupIn_mounted (hmounted : m.mountPoints (vfs.ino dir) = some fs)
    (hhas : vfs.Has fs inode) (name : List UInt8) :
    Matches (Represents vfs m) (MountFsINode.lookupIn vfs inode (some dir) name)
      ((vfs.tryLookup inode name).map (·.map (.mounted dir fs))) := by
  rw [MountFsINode.lookupIn]
  cases hfound : vfs.tryLookup inode name with
  | error e => exact .error e
  | ok found =>
    cases found with
    | none => exact .nothing
    | some next =>
      have hnext := hhas.child hfound
      obtain ⟨root, hroot, hnumber⟩ := (hmounts _ fs hmounted).root
      refine .found (.inside hmounted hnext ?_)
      rw [hnumber next hnext, hroot, Except.ok.injEq, eq_comm]

include hmounts in
lemma tryLookup_matches [DecidableEq I] (node : MountFsINode I) (place : Place F I)
    (name : List UInt8) (h : Represents vfs m node place) (hdot : name ≠ dot) :
    Matches (Represents vfs m) (node.tryLookup vfs m name) (place.tryLookup vfs m name) := by
  cases h with
  | main unmounted =>
    simp only [MountFsINode.tryLookup, MountFsINode.getMountFs, Option.isSome_none,
      Bool.false_eq_true, ↓reduceIte, unmounted, MountFsINode.lookupInner, Place.tryLookup]
    exact lookupIn_main hmounts _ name
  | mountDir mounted isRoot =>
    simp only [MountFsINode.tryLookup, MountFsINode.getMountFs, Option.isSome_none,
      Bool.false_eq_true, ↓reduceIte, mounted, MountFsINode.lookupInner, Place.tryLookup, isRoot,
      true_and, hdot, ne_eq, not_false_eq_true, and_true]
    by_cases hup : name = dotDot
    · simp only [hup, not_true_eq_false, ↓reduceIte]
      exact lookupIn_main hmounts _ dotDot
    · simp only [hup, not_false_eq_true, ↓reduceIte]
      exact lookupIn_mounted hmounts mounted (.root isRoot) name
  | @inside dir inode fs inodeNo mounted has number =>
    obtain ⟨root, hroot, -⟩ := (hmounts _ fs mounted).root
    have hisRoot : (inodeNo == 1) = true ↔ inode = root := by
      rw [beq_iff_eq, number, hroot, Except.ok.injEq, eq_comm]
    simp only [MountFsINode.tryLookup, MountFsINode.getMountFs, Option.isSome_some, ↓reduceIte,
      MountFsINode.lookupInner, MountFsINode.isMountPointRoot, Bool.and_true, hisRoot,
      Place.tryLookup, hroot]
    split
    · exact lookupIn_main hmounts dir name
    · exact lookupIn_mounted hmounts mounted has name

include hmounts in
lemma root_represents (horigin : vfs.root m.mainFs = .ok origin)
    (hmain : ∀ fs, m.mountPoints (vfs.ino origin) = some fs → vfs.ino origin = 1) :
    ∃ node place, m.root vfs = .ok node ∧
      Place.enter vfs m origin = .ok place ∧ Represents vfs m node place := by
  cases hfs : m.mountPoints (vfs.ino origin) with
  | none =>
    refine ⟨_, .main origin, ?_, ?_, .main hfs⟩
    · simp [MountFileSystem.root, horigin, hfs]
    · rw [Place.enter, hfs]
  | some fs =>
    obtain ⟨root, hroot, -⟩ := (hmounts _ fs hfs).root
    refine ⟨_, .mounted origin fs root, ?_, ?_,
      .inside hfs (.root hroot) (iff_of_true (hmain fs hfs) hroot)⟩
    · simp only [MountFileSystem.root, horigin, hfs, hroot]
    · simp only [Place.enter, hfs, hroot, Except.map]

end

/-- If the root of the main file system has the number 1 too, or nothing is
mounted on it, then a path leads to the file that it leads to in the single
tree. -/
theorem resolve_eq_resolveTree [DecidableEq I]
    (hmounts : ∀ k fs, m.mountPoints k = some fs → vfs.Proper fs)
    (hmain : ∀ origin fs, vfs.root m.mainFs = .ok origin →
      m.mountPoints (vfs.ino origin) = some fs → vfs.ino origin = 1)
    (path : List UInt8) : m.resolve vfs path = m.resolveTree vfs path := by
  rw [MountFileSystem.resolve, MountFileSystem.resolveTree]
  cases horigin : vfs.root m.mainFs with
  | error e => simp only [MountFileSystem.root, horigin]
  | ok origin =>
    obtain ⟨node, place, hnode, hplace, hrep⟩ :=
      root_represents hmounts horigin (hmain origin · horigin)
    simp only [hnode, hplace]
    have hmatch : Matches (Represents vfs m)
        (lookupComponents vfs.checkName (MountFsINode.tryLookup vfs m) (components path) node)
        (lookupComponents vfs.checkName (Place.tryLookup vfs m) (components path) place) :=
      lookupComponents_matches (tryLookup_matches hmounts) (fun c hc => lookupName_ne_dot hc) hrep
    revert hmatch
    generalize lookupComponents _ (MountFsINode.tryLookup vfs m) _ _ = found
    generalize lookupComponents _ (Place.tryLookup vfs m) _ _ = found'
    intro hmatch
    cases hmatch with
    | error e => rfl
    | nothing => rfl
    | found hfound =>
      simp only [inode_eq hfound]
      rfl

/-- Two small file systems.  The main one, `false`, has a root with the number
`rootNo` and the directory `m`; the other one has a root and the directory
`a`. -/
def twoFs (rootNo : Nat) : Vfs Bool Nat Unit where
  checkName := fun _ => .ok ()
  root := fun fs => .ok (if fs then 1 else 0)
  ino := fun inode => if inode = 0 then rootNo else inode
  tryLookup := fun inode name => .ok <|
    match inode, name with
    | 0, [46, 46] => some 0
    | 0, [109] => some 3
    | 3, [46, 46] => some 0
    | 1, [97] => some 2
    | 2, [46, 46] => some 1
    | _, _ => none

def mountedOn (k : Nat) : MountFileSystem Bool :=
  { mainFs := false
    mountPoints := fun ino => if ino = k then some true else none }

lemma twoFs_lookup (h : (twoFs rootNo).tryLookup inode name = .ok (some next)) :
    (inode = 1 → next = 2) ∧ (inode = 2 → next = 1) := by
  simp only [twoFs, Except.ok.injEq] at h
  split at h <;> cases h <;> simp_all

lemma twoFs_has (h : (twoFs rootNo).Has true inode) : inode = 1 ∨ inode = 2 := by
  induction h with
  | root hroot =>
    cases hroot
    exact .inl rfl
  | child _ hlookup ih =>
    rcases ih with hone | htwo
    · exact .inr ((twoFs_lookup hlookup).1 hone)
    · exact .inl ((twoFs_lookup hlookup).2 htwo)

lemma twoFs_proper : (twoFs rootNo).Proper true := by
  refine ⟨1, rfl, fun inode h => ?_⟩
  rcases twoFs_has h with rfl | rfl <;> simp [twoFs]

lemma mountedOn_proper (rootNo k : Nat) (ino : Nat) (fs : Bool)
    (h : (mountedOn k).mountPoints ino = some fs) : (twoFs rootNo).Proper fs := by
  simp only [mountedOn] at h
  split at h
  · cases h
    exact twoFs_proper
  · cases h

/-- Into the mounted file system, and out again by two steps up, and two steps
up from a root with a file system mounted on it. -/
theorem resolve_eq_resolveTree_twoFs :
    (mountedOn 3).resolve (twoFs 1) [109, 47, 97, 47, 46, 46, 47, 46, 46] = .ok (some 0) ∧
      (mountedOn 3).resolveTree (twoFs 1) [109, 47, 97, 47, 46, 46, 47, 46, 46] = .ok (some 0) ∧
      (mountedOn 1).resolve (twoFs 1) [46, 46, 47, 97] = .ok (some 2) ∧
      (mountedOn 1).resolveTree (twoFs 1) [46, 46, 47, 97] = .ok (some 2) := by
  have hthree := resolve_eq_resolveTree (twoFs 1) (mountedOn 3)
    (mountedOn_proper 1 3) (fun origin fs horigin _ => by cases horigin; rfl)
    [109, 47, 97, 47, 46, 46, 47, 46, 46]
  have hone := resolve_eq_resolveTree (twoFs 1) (mountedOn 1)
    (mountedOn_proper 1 1) (fun origin fs horigin _ => by cases horigin; rfl)
    [46, 46, 47, 97]
  rw [← hthree, ← hone]
  decide

/-- A file system mounted on a root with the number 5: `..` from the root finds
nothing, where the tree has the root itself. -/
theorem resolve_ne_resolveTree_twoFs :
    (∀ k fs, (mountedOn 5).mountPoints k = some fs → (twoFs 5).Proper fs) ∧
      (mountedOn 5).resolve (twoFs 5) [46, 46] = .ok none ∧
      (mountedOn 5).resolveTree (twoFs 5) [46, 46] = .ok (some 1) := by
  exact ⟨mountedOn_proper 5 5, by decide, by decide⟩

end Redwing.Mounts
