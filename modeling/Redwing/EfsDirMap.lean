/-
A directory is a finite map from names to inode numbers, along every run of
operations on it that succeed.  The files of the volume are byte arrays here.
-/
import Redwing.EfsNames
import Redwing.Machine

namespace Redwing.Efs

open Prog Volume KeyedSlots Function Option

/-! ### New directories -/

section

variable {V : Type} [Volume V] {content : V → Nat → Bytes}
variable {ok : V → Call → Prop} {I : V → Prop}

variable (hlaw : Lawful content ok I)
include hlaw

lemma Ready.putInodeBit (h : Ready I n v) (hzero : x ≠ invalidInodeNo) :
    Ready I n (Volume.putInodeBit v x true) ∧ inodeBit (Volume.putInodeBit v x true) x = true ∧
      ∀ j, stat (Volume.putInodeBit v x true) j = stat v j := by
  obtain ⟨hI, hbits, honly⟩ := hlaw.putInodeBit v x true h.inv
  refine ⟨⟨hI, honly.counts.trans h.counts, ?_⟩, ?_, fun j => ?_⟩
  · rw [hbits, update_of_ne hzero.symm]
    exact h.reserved
  · rw [hbits, update_self]
  by_cases hj : j = x
  · rw [hj]
    exact honly.self
  · exact honly.others j hj

lemma triple_initDirectory_new (hP : ∀ v, P v → Ready I n v ∧ inodeBit v x = true) :
    Triple ok P (initInode x .directory 0 : EfsM V Unit) (fun _ v => HasDir content I n x [] v ∧
        ∀ y, (∀ w, P w → (stat w y).typ = .directory) → y ≠ x)
      (fun _ _ => True) := by
  apply triple_actFs
  · intro v _ h hinit
    split at hinit
    · cases hinit
    rename_i htyp
    obtain ⟨hready, hbit⟩ := hP v h
    obtain ⟨hI, hbits, honly⟩ := hlaw.reset v x .directory 0 hready.inv (not_not.mp htyp)
    rw [if_neg htyp]
    refine ⟨⟨⟨?_, ?_⟩, ⟨hI, honly.counts.trans hready.counts,
      hbits ▸ hready.reserved⟩, hbits ▸ hbit⟩, ?_⟩
    · rw [honly.self]
    · rw [honly.self]
      exact Shows.nil _
    · rintro y hy rfl
      cases (hy v h).symm.trans (not_not.mp htyp)
  · exact fun _ _ _ _ => trivial

lemma triple_mkdir_new (hzero : parent ≠ invalidInodeNo) (hlt : parent < n) :
    Triple ok (Ready I n) (mkdir parent name : EfsM V Nat)
      (fun x v => parent ≠ x ∧ HasDir content I n x [some (dot, x), some (dotDot, parent)] v)
      (fun _ _ => True) := by
  apply Triple.pointwise
  intro u h
  refine triple_createWith (fun _ _ => trivial) fun x hcheck hfree => ?_
  have htyp : (stat u parent).typ = .directory := by
    by_contra htyp
    rw [checkForCreate, if_pos htyp] at hcheck
    cases hcheck
  obtain ⟨-, hbit, hx⟩ := nextInode_ok h hfree
  obtain ⟨hready, hused, hstat⟩ := h.putInodeBit hlaw hbit
  have hdir : (stat (putInodeBit u x true) parent).typ = .directory := by
    rw [hstat]
    exact htyp
  have hpost : Triple ok (fun w => w = putInodeBit u x true) (initDirectory parent name x)
      (fun _ w => parent ≠ x ∧ HasDir content I n x
        [some (dot, x), some (dotDot, parent)] w) (fun _ _ => True) := by
    apply Triple.bind (triple_initDirectory_new hlaw (by rintro w rfl; exact ⟨hready, hused⟩))
    intro _
    apply Triple.pointwise
    rintro w ⟨hnew, hother⟩
    have hne : parent ≠ x := hother parent (by rintro u rfl; exact hdir)
    apply Triple.bind ((triple_link hlaw hbit hx).consequence
      (by rintro u rfl; exact hnew) (fun _ _ h => h) (fun _ _ h => h))
    intro _
    have hdots : Triple ok (HasDir content I n x [some (dot, x)])
        (link x parent dotDot : EfsM V Unit) _ _ := triple_link hlaw hzero hlt
    apply Triple.bind
    · apply triple_onError (F := fun _ _ => True)
      · exact hdots.consequence (fun _ h => h) (fun _ _ h => h) (fun _ _ _ => trivial)
      · exact fun _ => triple_trivial
      · exact fun _ _ => trivial
    intro _
    exact ((HasDir.stableAt hlaw hne).link x name.bytes).consequence
      (fun _ h => h) (fun _ _ h => ⟨hne, h⟩) (fun _ _ _ => trivial)
  exact triple_onError hpost (fun _ => triple_trivial) (fun _ _ => trivial)

lemma triple_reserveInodes (count : Nat) : Triple ok (fun v => I v ∧ inodeCounts v = n)
    (reserveInodes count : EfsM V Unit)
    (fun _ v => I v ∧ inodeCounts v = n ∧ count ≤ n ∧ ∀ x < count, inodeBit v x = true)
    (fun _ _ => True) := by
  induction count with
  | zero => exact ⟨fun _ h _ => ⟨h.1, h.2, Nat.zero_le _, nofun⟩⟩
  | succ count ih =>
    apply Triple.bind ih
    intro _
    apply triple_actFs
    · rintro v _ ⟨hI, hcounts, -, hbits⟩ hset
      rw [setInodeBit, writeInodeBit] at hset ⊢
      split at hset
      · cases hset
      rename_i hlt
      obtain ⟨hI', hupdate, honly⟩ := hlaw.putInodeBit v count true hI
      rw [if_neg hlt]
      refine ⟨hI', honly.counts.trans hcounts, by omega, fun x hx => ?_⟩
      rw [hupdate, update_apply]
      split
      · rfl
      · exact hbits x (by omega)
    · exact fun _ _ _ _ => trivial

lemma triple_make : Triple ok (fun v => I v ∧ inodeCounts v = n) (make : EfsM V Unit)
    (fun _ => HasDir content I n rootInodeNo [some (dot, rootInodeNo)]) (fun _ _ => True) := by
  apply Triple.bind (R := fun _ v => I v ∧ inodeCounts v = n)
  · exact triple_lookFs (fun _ _ h _ => h) (fun _ _ _ _ => trivial)
  intro _
  apply Triple.bind (triple_reserveInodes hlaw reservedInodes)
  intro _
  apply Triple.pointwise
  rintro v ⟨hI, hcounts, hle, hbits⟩
  have hroot : rootInodeNo < n := Nat.lt_of_lt_of_le (by decide) hle
  apply Triple.bind (R := fun _ => HasDir content I n rootInodeNo [some (dot, rootInodeNo)])
  · apply Triple.bind (triple_initDirectory_new hlaw (by
      rintro w rfl
      exact ⟨⟨hI, hcounts, hbits _ (by decide)⟩, hbits _ (by decide)⟩))
    intro _
    exact (triple_link hlaw (by decide) hroot).consequence (fun _ h => h.1)
      (fun _ _ h => h) (fun _ _ h => h)
  · intro _
    exact triple_lookFs (fun _ _ h _ => h) (fun _ _ _ _ => trivial)

end

/-! ### Runs on one directory -/

lemma ValidFileName.dotDot_ne (name : ValidFileName) : dotDot ≠ name.bytes :=
  Ne.symm name.not_dots.2

lemma lookup_dots :
    KeyedSlots.lookup k [some (dot, a), some (dotDot, b)] =
      update (update (fun _ => none) dotDot (some b)) dot (some a) k := by
  rw [update_apply, update_apply]
  split
  · rename_i hdot
    rw [hdot]
    rfl
  rename_i hdot
  split
  · rename_i hdotDot
    rw [hdotDot]
    rfl
  rename_i hdotDot
  rw [lookup_eq_none]
  intro x hmem
  simp [mem_entries, hdot, hdotDot] at hmem

lemma lookup_dot (a : Nat) (k : List UInt8) : KeyedSlots.lookup k [some (dot, a)] =
    update (fun _ => none) dot (some a) k := by
  rw [update_apply]
  split
  · rename_i hdot
    rw [hdot]
    rfl
  rename_i hdot
  rw [lookup_eq_none]
  intro x hmem
  simp [mem_entries, hdot] at hmem

/-- A volume, one of its directories, what the names in it were last linked to,
and whether `mkdir` made it. -/
structure DirRun where
  v : ByteVol
  dir : Nat
  names : List UInt8 → Option Nat
  made : Bool

namespace DirRun

inductive Op where
  | createFile (name : ValidFileName)
  | mkdir (name : ValidFileName)
  | remove (child : Nat) (name : ValidFileName)

def created (s : DirRun) (name : ValidFileName)
    (o : Outcome ByteVol Call Stop Nat) : Option DirRun :=
  match o.result with
  | .ok x => some { s with v := o.state, names := update s.names name.bytes (some x) }
  | .error _ => none

def step (s : DirRun) : Op → Option DirRun
  | .createFile name => s.created name (createFile s.dir name s.v)
  | .mkdir name => s.created name (mkdir s.dir name s.v)
  | .remove child name =>
    let o := remove s.dir child name s.v
    match o.result with
    | .ok () => some { s with v := o.state, names := update s.names name.bytes none }
    | .error _ => none

def startsMade (s : DirRun) : Prop :=
  ∃ (v : ByteVol) (parent : Nat) (name : ValidFileName),
    inodeBit v invalidInodeNo = true ∧ parent ≠ invalidInodeNo ∧
    parent < inodeCounts v ∧ (mkdir parent name v).result = .ok s.dir ∧
    s = ⟨(mkdir parent name v).state, s.dir, update (update (fun _ => none) dotDot (some parent))
        dot (some s.dir), true⟩

def startsRoot (s : DirRun) : Prop :=
  ∃ v : ByteVol, (make v).result = .ok () ∧ s = ⟨(make v).state, rootInodeNo,
      update (fun _ => none) dot (some rootInodeNo), false⟩

def machine : Machine DirRun Op where
  start := fun s => s.startsMade ∨ s.startsRoot
  step := step

/-- The directory's slots are the map of its names. -/
structure Inv (s : DirRun) (slots : DirSlots) : Prop where
  has : ∃ n, HasDir ByteVol.bytes (fun _ => True) n s.dir slots s.v
  unique : Unique slots
  lookup : ∀ name, KeyedSlots.lookup name slots = s.names name
  parent : s.names dotDot ≠ some s.dir
  dots : s.made = true → ∃ a b, slots[0]? = some (some (dot, a)) ∧
    slots[1]? = some (some (dotDot, b))

variable {s : DirRun} {slots : DirSlots}

lemma Inv.created (h : Inv s slots)
    (hm : ∀ n, Triple (fun _ _ => True) (HasDir ByteVol.bytes (fun _ => True) n s.dir slots) m
      (fun x v => KeyedSlots.lookup name.bytes slots = none ∧ x ≠ s.dir ∧
        HasDir ByteVol.bytes (fun _ => True) n s.dir (put slots (place slots) (name.bytes, x)) v)
      (fun _ _ => True))
    (hstep : s.created name (m s.v) = some t) : ∃ slots', Inv t slots' := by
  obtain ⟨n, hdir⟩ := h.has
  rw [DirRun.created] at hstep
  split at hstep
  · rename_i x hres
    obtain rfl := some.inj hstep
    obtain ⟨hnew, -, hdir'⟩ := (hm n).of_ok hdir (fun _ _ => trivial) hres
    have hplace := isPlace_place slots
    refine ⟨_, ⟨n, hdir'⟩, h.unique.put hplace hnew, fun k => ?_, ?_, ?_⟩
    · change _ = update s.names name.bytes (some x) k
      rw [h.unique.lookup_put hplace hnew, h.lookup, update_apply]
    · change update s.names name.bytes (some x) dotDot ≠ _
      rw [update_of_ne name.dotDot_ne]
      exact h.parent
    intro hmade
    obtain ⟨a, b, ha, hb⟩ := h.dots hmade
    exact ⟨a, b, put_getElem? hplace _ ha, put_getElem? hplace _ hb⟩
  · cases hstep

lemma Inv.removed (h : Inv s slots) {name : ValidFileName} {v : ByteVol} {n : Nat}
    (hfreed : Freed ByteVol.bytes (fun _ => True) n s.dir slots name.bytes v) :
    ∃ slots', Inv { s with
      v := v, names := update s.names name.bytes none } slots' := by
  obtain ⟨i, hfind, hdir⟩ := hfreed
  obtain ⟨a, hi⟩ := find_eq_some hfind
  refine ⟨_, ⟨n, hdir⟩, h.unique.free hi, fun k => ?_, ?_, ?_⟩
  · change _ = update s.names name.bytes none k
    rw [h.unique.lookup_free hi, h.lookup, update_apply]
  · change update s.names name.bytes none dotDot ≠ _
    rw [update_of_ne name.dotDot_ne]
    exact h.parent
  intro hmade
  obtain ⟨x, y, hx, hy⟩ := h.dots hmade
  refine ⟨x, y, free_getElem? hi hx ?_, free_getElem? hi hy ?_⟩
  · rintro rfl
    have heq := hx.symm.trans hi
    simp only [some.injEq, Prod.mk.injEq] at heq
    exact name.not_dots.1 heq.1.symm
  rintro rfl
  have heq := hy.symm.trans hi
  simp only [some.injEq, Prod.mk.injEq] at heq
  exact name.not_dots.2 heq.1.symm

lemma Inv.step (h : Inv s slots) (op : Op)
    (hstep : s.step op = some t) : ∃ slots', Inv t slots' := by
  cases op with
  | createFile name => exact h.created (fun _ => triple_createFile ByteVol.lawful name) hstep
  | mkdir name => exact h.created (fun _ => triple_mkdir ByteVol.lawful name) hstep
  | remove child name =>
    obtain ⟨n, hdir⟩ := h.has
    simp only [DirRun.step] at hstep
    split at hstep
    · rename_i hres
      obtain rfl := some.inj hstep
      by_cases hchild : child = s.dir
      · subst hchild
        have hparent : KeyedSlots.lookup dotDot slots ≠ some s.dir := by
          rw [h.lookup]
          exact h.parent
        exact ((triple_remove_self ByteVol.lawful name hparent).of_ok hdir
          (fun _ _ => trivial) hres).elim
      · exact h.removed ((triple_remove ByteVol.lawful name hchild).of_ok hdir
          (fun _ _ => trivial) hres).2
    · cases hstep

lemma inv_start (hs : machine.start s) : ∃ slots, Inv s slots := by
  rcases hs with ⟨v, parent, name, hzero, hparent, hlt, hres, heq⟩ | ⟨v, hres, rfl⟩
  · obtain ⟨hne, hdir⟩ := (triple_mkdir_new ByteVol.lawful hparent hlt).of_ok
      ⟨trivial, rfl, hzero⟩ (fun _ _ => trivial) hres
    rw [heq]
    refine ⟨_, ⟨_, hdir⟩, ?_, fun k => ?_, ?_, fun _ => ⟨_, _, rfl, rfl⟩⟩
    · exact (by decide : [dot, dotDot].Nodup)
    · exact lookup_dots
    · exact fun heq => hne (some.inj heq)
  have hdir := triple_make (n := v.counts) ByteVol.lawful
  refine ⟨_, ⟨_, hdir.of_ok ⟨trivial, rfl⟩ (fun _ _ => trivial) hres⟩, ?_,
    lookup_dot rootInodeNo, nofun, nofun⟩
  exact List.nodup_singleton dot

lemma Inv.isEmptyDir (h : Inv s slots) (hmade : s.made = true) :
    ∃ empty, Efs.isEmptyDir s.v s.dir = .ok empty ∧ (empty = true ↔ ∀ name, s.names name ≠ none →
        name = dot ∨ name = dotDot) := by
  obtain ⟨n, hdir⟩ := h.has
  obtain ⟨a, b, ha, hb⟩ := h.dots hmade
  have htwo : 2 ≤ slots.length := (List.getElem?_eq_some_iff.mp hb).1
  refine ⟨_, isEmptyDir_eq ByteVol.lawful hdir.inv hdir.toShowsDir htwo, ?_⟩
  have hget : ∀ i e, slots[i + 2]? = some (some e) ↔ (slots.drop 2)[i]? = some (some e) := by
    intro i e
    rw [List.getElem?_drop, Nat.add_comm]
  rw [decide_eq_true_iff, List.eq_nil_iff_forall_not_mem]
  constructor
  · intro hnone name hname
    obtain ⟨x, hx⟩ := ne_none_iff_exists'.mp hname
    rw [← h.lookup] at hx
    obtain ⟨i, -, hi⟩ := lookup_eq_some.mp hx
    match i with
    | 0 =>
      rw [ha] at hi
      simp only [some.injEq, Prod.mk.injEq] at hi
      exact .inl hi.1.symm
    | 1 =>
      rw [hb] at hi
      simp only [some.injEq, Prod.mk.injEq] at hi
      exact .inr hi.1.symm
    | i + 2 => exact absurd (mem_entries.mpr (List.mem_of_getElem? ((hget i _).mp hi))) (hnone _)
  · rintro hdots ⟨name, x⟩ hmem
    obtain ⟨i, hi⟩ := List.mem_iff_getElem?.mp (mem_entries.mp hmem)
    rw [← hget] at hi
    have hsome : s.names name ≠ none := by
      rw [← h.lookup, h.unique.mem_iff.mpr (mem_entries.mpr (List.mem_of_getElem? hi))]
      nofun
    rcases hdots name hsome with rfl | rfl
    · exact absurd (h.unique.slot_eq ha hi) (by omega)
    · exact absurd (h.unique.slot_eq hb hi) (by omega)

lemma Inv.slot_eq (h : Inv s slots) (hi : rawDirentSize * i < (stat s.v s.dir).size)
    (hj : rawDirentSize * j < (stat s.v s.dir).size)
    (hused : (direntAt (s.v.bytes s.dir) i).isUnused = false)
    (hused' : (direntAt (s.v.bytes s.dir) j).isUnused = false)
    (hname : (direntAt (s.v.bytes s.dir) i).nameBytes = (direntAt (s.v.bytes s.dir) j).nameBytes) :
    i = j := by
  obtain ⟨n, hdir⟩ := h.has
  have hslot : ∀ k, rawDirentSize * k < (stat s.v s.dir).size →
      (direntAt (s.v.bytes s.dir) k).isUnused = false →
      slots[k]? = some (some ((direntAt (s.v.bytes s.dir) k).nameBytes,
        (direntAt (s.v.bytes s.dir) k).inodeNo)) := by
    intro k hk hunused
    rw [hdir.contents.size_eq] at hk
    rw [(hdir.contents.entry k (Nat.lt_of_mul_lt_mul_left hk)).2,
      RawDirent.slot, if_neg (by simp [hunused])]
  have hfirst := hslot i hi hused
  rw [hname] at hfirst
  exact h.unique.slot_eq hfirst (hslot j hj hused')

end DirRun

/-- Along every run of successful calls on one directory, `lookup` finds what
the name was last linked to, no name is in two entries, the directory is a whole
number of entries long, and one that `mkdir` made is empty just when it has no
names but its own two. -/
theorem directory_is_map {s : DirRun} (hs : DirRun.machine.Reachable s) :
    (∀ name, ∃ found, lookup s.v s.dir name = .ok found ∧
      found.map RawDirent.inodeNo = s.names name) ∧
    (∀ i j, rawDirentSize * i < (stat s.v s.dir).size → rawDirentSize * j < (stat s.v s.dir).size →
      (direntAt (s.v.bytes s.dir) i).isUnused = false →
      (direntAt (s.v.bytes s.dir) j).isUnused = false →
      (direntAt (s.v.bytes s.dir) i).nameBytes = (direntAt (s.v.bytes s.dir) j).nameBytes → i = j) ∧
    rawDirentSize ∣ (stat s.v s.dir).size ∧
    (s.made = true → ∃ empty, isEmptyDir s.v s.dir = .ok empty ∧
      (empty = true ↔ ∀ name, s.names name ≠ none → name = dot ∨ name = dotDot)) := by
  obtain ⟨slots, hinv⟩ : ∃ slots, s.Inv slots := by
    refine hs.invariant (fun _ => DirRun.inv_start) ?_
    rintro t op u ⟨slots, hinv⟩ - hstep
    exact hinv.step op hstep
  obtain ⟨n, hdir⟩ := hinv.has
  refine ⟨fun name => ?_, fun i j => hinv.slot_eq, ⟨_, hdir.contents.size_eq⟩, hinv.isEmptyDir⟩
  obtain ⟨found, hlookup, hfound⟩ := lookup_eq ByteVol.lawful hdir.inv hdir.toShowsDir name
  exact ⟨found, hlookup, hfound.trans (hinv.lookup name)⟩

def nameX : ValidFileName := ⟨[120], by decide, by decide, by decide +kernel⟩

def nameY : ValidFileName := ⟨[121], by decide, by decide, by decide +kernel⟩

def smallDir : DirRun where
  v := (mkdir rootInodeNo nameX (make (ByteVol.zeroed 32 (by decide))).state).state
  dir := 20
  names := update (update (fun _ => none) dotDot (some rootInodeNo)) dot (some 20)
  made := true

theorem directory_is_map_smallDir : ∃ s, DirRun.machine.run smallDir
        [.createFile nameX, .createFile nameY, .remove 21 nameX] = some s ∧
      s.names nameY.bytes = some 22 ∧
      ∃ found, lookup s.v s.dir nameY.bytes = .ok found ∧
        found.map RawDirent.inodeNo = s.names nameY.bytes := by
  have hres : (mkdir rootInodeNo nameX
      (make (ByteVol.zeroed 32 (by decide))).state).result = .ok 20 := by
    decide +kernel
  have hrun : ((DirRun.machine.run smallDir [.createFile nameX,
      .createFile nameY, .remove 21 nameX]).map fun s =>
        s.names nameY.bytes) = some (some 22) := by
    decide +kernel
  obtain ⟨s, hs, hnames⟩ := map_eq_some_iff.mp hrun
  have hstart : DirRun.machine.start smallDir :=
    .inl ⟨_, rootInodeNo, nameX, by decide +kernel, by decide, by decide, hres, rfl⟩
  have hmap := directory_is_map (Machine.Reachable.run (.start hstart) hs)
  exact ⟨s, hs, hnames, hmap.1 nameY.bytes⟩

end Redwing.Efs
