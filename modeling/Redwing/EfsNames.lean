/-
One directory of a volume among all the others.  Every operation of the directory
code on it changes its slots as the operation on slots of the same meaning does,
and operations on other inodes leave them alone.
-/
import Redwing.EfsRules
import Redwing.EfsEntries

namespace Redwing.Efs

open Function Prog Volume KeyedSlots Triple

variable {V : Type} [Volume V] {content : V → Nat → Bytes}
variable {ok : V → Call → Prop} {I : V → Prop}

/-- The volume is in a good state, has `n` inodes and reserves number 0. -/
structure Ready (I : V → Prop) (n : Nat) (v : V) : Prop where
  inv : I v
  counts : inodeCounts v = n
  reserved : inodeBit v invalidInodeNo = true

/-- `dir` is a directory in use with these slots. -/
structure HasDir (content : V → Nat → Bytes) (I : V → Prop) (n dir : Nat)
    (slots : DirSlots) (v : V) : Prop extends ShowsDir content v dir slots,
    Ready I n v where
  used : inodeBit v dir = true

lemma nextInode_ok {n x : Nat} {v : V} (h : Ready I n v) (hnext : nextInode v = some x) :
    inodeBit v x = false ∧ x ≠ invalidInodeNo ∧ x < n := by
  have hclear : inodeBit v x = false := firstClear_clear hnext
  have hlt := firstClear_lt hnext
  rw [h.counts, zero_add] at hlt
  refine ⟨hclear, ?_, hlt⟩
  rintro rfl
  cases hclear.symm.trans h.reserved

namespace HasDir

variable {v v' : V} {n dir : Nat} {slots : DirSlots}

lemma onlyContents (h : HasDir content I n dir slots v) (hI : I v')
    (honly : OnlyContents content x v v') (hx : x ≠ dir) : HasDir content I n dir slots v' := by
  have hstat := honly.others dir hx.symm
  refine ⟨⟨?_, ?_⟩, ⟨hI, honly.counts.trans h.counts, ?_⟩, ?_⟩
  · rw [hstat]
    exact h.typ
  · rw [hstat]
    exact h.contents.congr (honly.kept dir hx.symm)
  · rw [honly.bits]
    exact h.reserved
  · rw [honly.bits]
    exact h.used

lemma onlyStat (h : HasDir content I n dir slots v) {inode : Stat} (hI : I v')
    (hreserved : inodeBit v' invalidInodeNo = true) (hused : inodeBit v' dir = true)
    (honly : OnlyStat content x inode v v')
    (hself : x = dir → inode.typ = (stat v dir).typ ∧ inode.size = (stat v dir).size) :
    HasDir content I n dir slots v' := by
  have hstat : (stat v' dir).typ = (stat v dir).typ ∧ (stat v' dir).size = (stat v dir).size := by
    by_cases hx : dir = x
    · subst hx
      rw [honly.self]
      exact hself rfl
    · rw [honly.others dir hx]
      exact ⟨rfl, rfl⟩
  have hkept := honly.kept dir
  rw [hstat.2] at hkept
  refine ⟨⟨hstat.1.trans h.typ, ?_⟩, ⟨hI, honly.counts.trans h.counts, hreserved⟩, hused⟩
  rw [hstat.2]
  exact h.contents.congr hkept

section

variable (hlaw : Lawful content ok I) (h : HasDir content I n dir slots v)

include hlaw h

lemma putNlink (x nlink : Nat) : HasDir content I n dir slots (Volume.putNlink v x nlink) := by
  obtain ⟨hI, hbits, honly⟩ := hlaw.putNlink v x nlink h.inv
  refine h.onlyStat hI (hbits ▸ h.reserved) (hbits ▸ h.used) honly ?_
  rintro rfl
  exact ⟨rfl, rfl⟩

lemma putInodeBit {value : Bool} (hx : x ≠ dir) (hzero : x ≠ invalidInodeNo) :
    HasDir content I n dir slots (Volume.putInodeBit v x value) := by
  obtain ⟨hI, hbits, honly⟩ := hlaw.putInodeBit v x value h.inv
  refine h.onlyStat hI ?_ ?_ honly fun heq => absurd heq hx
  · rw [hbits, update_of_ne hzero.symm]
    exact h.reserved
  · rw [hbits, update_of_ne hx.symm]
    exact h.used

lemma resetInode {typ : FileType} {devNo : Nat} (hx : x ≠ dir) (htyp : (stat v x).typ = .unknown) :
    HasDir content I n dir slots (Volume.resetInode v x typ devNo) := by
  obtain ⟨hI, hbits, honly⟩ := hlaw.reset v x typ devNo h.inv htyp
  exact h.onlyStat hI (hbits ▸ h.reserved) (hbits ▸ h.used) honly fun heq => absurd heq hx

end

lemma stableAt (hlaw : Lawful content ok I) (hx : x ≠ dir) :
    StableAt ok (HasDir content I n dir slots) x where
  write v offset src len h hok := by
    obtain ⟨hI, honly, -⟩ := hlaw.write v x offset src len h.inv hok
    exact h.onlyContents hI honly hx
  truncate v newSize h hok := by
    obtain ⟨hI, honly, -⟩ := hlaw.truncate v x newSize h.inv hok
    exact h.onlyContents hI honly hx
  putNlink _ j nlink h := h.putNlink hlaw j nlink

lemma rewrite (h : HasDir content I n dir slots v) (hI : I v')
    (honly : OnlyContents content dir v v') {s : DirSlots}
    (hs : Shows (content v' dir) (stat v' dir).size s) : HasDir content I n dir s v' :=
  ⟨⟨honly.typ.trans h.typ, hs⟩, ⟨hI, honly.counts.trans h.counts, honly.bits ▸ h.reserved⟩,
    honly.bits ▸ h.used⟩

end HasDir

section

variable (hlaw : Lawful content ok I) {n dir i : Nat} {slots : DirSlots}
include hlaw

/-! ### Entries of the directory -/

lemma triple_writeTo {d : RawDirent} (hi : i ≤ slots.length) (hd : d.Fits) : Triple ok
    (HasDir content I n dir slots) (d.writeTo dir (rawDirentSize * i) : EfsM V Unit)
    (fun _ => HasDir content I n dir (store slots i d.slot)) (fun _ _ => ¬ i < slots.length) := by
  have hgrow : ∀ v, HasDir content I n dir slots v → i < slots.length →
      (Volume.rawWrite v dir (rawDirentSize * i) d.bytes rawDirentSize).1 = .ok rawDirentSize := by
    intro v h hlt
    apply hlaw.write_within _ _ _ _ _ h.inv
    · rw [h.typ]
      rfl
    · rw [h.contents.size_eq]
      exact Nat.mul_le_mul_left rawDirentSize hlt
  apply bind (R := fun size v =>
    size = rawDirentSize ∧ HasDir content I n dir (store slots i d.slot) v ∨
      size ≠ rawDirentSize ∧ ¬ i < slots.length)
  · apply triple_callFs
    · intro v size h hok hn
      by_cases hfull : size = rawDirentSize
      · subst hfull
        obtain ⟨hI, honly, hwrite⟩ := hlaw.write v dir _ _ _ h.inv hok
        obtain ⟨-, hwritten⟩ := hwrite _ hn
        refine .inl ⟨rfl, h.rewrite hI honly ?_⟩
        rw [hwritten.size]
        apply h.contents.write hd hi
        have hbytes := hwritten.bytes
        rw [hwritten.size] at hbytes
        exact hbytes
      · refine .inr ⟨hfull, fun hlt => hfull ?_⟩
        exact Except.ok.inj (hn.symm.trans (hgrow v h hlt))
    · intro v e h _ he hlt
      cases he.symm.trans (hgrow v h hlt)
  · intro size
    by_cases hfull : size = rawDirentSize
    · rw [if_neg (not_not_intro hfull)]
      refine consequence pure ?_ (fun _ _ h => h) (fun _ _ h => h)
      rintro v (⟨-, h⟩ | ⟨hne, -⟩)
      · exact h
      · exact absurd hfull hne
    rw [if_pos hfull]
    refine consequence (P := fun _ => ¬ i < slots.length)
      (Q := fun _ _ => False) ?_ ?_ (fun _ _ h => h.elim) (fun _ _ h => h)
    · apply bind (R := fun _ _ => ¬ i < slots.length)
      · exact triple_lookFs (fun _ _ h _ => h) (fun _ _ h _ => h)
      intro total
      apply bind (R := fun _ _ => ¬ i < slots.length)
      · exact triple_callFs (fun _ _ h _ _ => h) (fun _ _ h _ _ => h)
      intro _
      exact triple_failWith fun _ h => h
    rintro v (⟨heq, -⟩ | ⟨-, hnot⟩)
    · exact absurd heq hfull
    · exact hnot

lemma triple_addEntry {d : RawDirent} (hd : d.Fits) : Triple ok (HasDir content I n dir slots)
    (addEntry dir d : EfsM V Unit)
    (fun _ => HasDir content I n dir (store slots (place slots) d.slot)) (fun _ _ => True) := by
  have hplace : place slots ≤ slots.length := by
    rcases isPlace_place slots with hfree | hend
    · exact le_of_lt (List.getElem?_eq_some_iff.mp hfree).1
    · exact le_of_eq hend
  apply bind (R := fun offset v => HasDir content I n dir slots v ∧
    offset = rawDirentSize * place slots)
  · apply triple_lookFs
    · intro v offset h hok
      rw [placeFor_eq hlaw h.inv h.toShowsDir] at hok
      split at hok
      · cases hok
      · cases hok
        exact ⟨h, rfl⟩
    · exact fun _ _ _ _ => trivial
  intro offset
  apply pointwise
  rintro v ⟨h, rfl⟩
  refine (triple_writeTo hlaw hplace hd).consequence ?_ (fun _ _ h => h) (fun _ _ _ => trivial)
  rintro w rfl
  exact h

lemma triple_link {name : List UInt8} (hzero : child ≠ invalidInodeNo) (hlt : child < n) :
    Triple ok (HasDir content I n dir slots) (link dir child name : EfsM V Unit)
      (fun _ => HasDir content I n dir (put slots (place slots) (name, child)))
      (fun _ _ => True) := by
  apply bind (R := fun _ => HasDir content I n dir slots)
  · exact triple_lookFs (fun _ _ h _ => h) (fun _ _ _ _ => trivial)
  intro typ
  split
  · exact ⟨fun _ _ _ => trivial⟩
  rename_i d hnew
  have hslot := RawDirent.slot_new hnew hzero
  obtain ⟨-, hlen, hd⟩ := RawDirent.new_eq_some hnew
  apply pointwise
  intro v h
  have hfits : d.Fits := by
    rw [hd]
    refine ⟨lt_of_lt_of_le hlt ?_, hlen⟩
    rw [← h.counts]
    exact hlaw.counts_le v h.inv
  have hadd : Triple ok (HasDir content I n dir slots) _ _ _ := triple_addEntry hlaw hfits
  rw [hslot] at hadd
  apply Triple.bind (hadd.consequence (by rintro w rfl; exact h) (fun _ _ h => h) (fun _ _ h => h))
  intro _
  refine Triple.consequence Triple.alter ?_ (fun _ _ h => h) (fun _ _ h => h)
  exact fun w hw => hw.putNlink hlaw child _

lemma triple_cutLast (hi : i < slots.length) :
    Triple ok (HasDir content I n dir (store slots i none))
      (cutLast dir (rawDirentSize * i) (rawDirentSize * slots.length) : EfsM V Unit)
      (fun _ => HasDir content I n dir (free slots i)) (fun _ _ => False) := by
  have hlast : rawDirentSize * i =
      rawDirentSize * slots.length - rawDirentSize ↔ i + 1 = slots.length := by
    unfold rawDirentSize
    omega
  have hstore : store slots i none = slots.set i none := if_pos hi
  have hle : i ≤ (slots.set i none).length := by
    rw [List.length_set]
    exact le_of_lt hi
  rw [cutLast, hstore]
  split
  · rename_i heq
    have hsize : ∀ v, HasDir content I n dir (slots.set i none) v →
        rawDirentSize * i ≤ (stat v dir).size := by
      intro v h
      rw [h.contents.size_eq]
      exact Nat.mul_le_mul_left rawDirentSize hle
    apply triple_callFs
    · intro v _ h hok _
      obtain ⟨hI, honly, hcuts⟩ := hlaw.truncate v dir _ h.inv hok
      obtain ⟨-, hcut⟩ := hcuts (hsize v h)
      have hshorter := h.contents.cut hle hcut.bytes
      rw [List.take_set_of_le (le_refl i)] at hshorter
      rw [free, if_pos (hlast.mp heq)]
      exact h.rewrite hI honly (by rw [hcut.size]; exact hshorter)
    · intro v e h hok he
      cases he.symm.trans ((hlaw.truncate v dir _ h.inv hok).2.2 (hsize v h)).1
  · rename_i hne
    refine consequence pure ?_ (fun _ _ h => h) (fun _ _ h => h)
    intro v h
    rw [free, if_neg fun heq => hne (hlast.mpr heq)]
    exact h

def Freed (content : V → Nat → Bytes) (I : V → Prop) (n dir : Nat)
    (slots : DirSlots) (name : List UInt8) (v : V) : Prop :=
  ∃ i, find name slots = some i ∧ HasDir content I n dir (free slots i) v

lemma triple_removeEntry {name : List UInt8} : Triple ok (HasDir content I n dir slots)
    (removeEntry dir name : EfsM V (Option Nat))
    (fun found v => found = KeyedSlots.lookup name slots ∧
      (found = none → HasDir content I n dir slots v) ∧
      (found ≠ none → Freed content I n dir slots name v))
    (fun _ _ => False) := by
  apply pointwise
  intro v h
  apply bind (R := fun sz w => w = v ∧ sz = rawDirentSize * slots.length)
  · apply triple_lookFs
    · rintro w sz rfl hsz
      cases hsz
      exact ⟨rfl, h.contents.size_eq⟩
    · intro w e _ he
      cases he
  intro sz
  apply bind (R := fun found w => w = v ∧ sz = rawDirentSize * slots.length ∧
    found = (find name slots).map fun i => (rawDirentSize * i, direntAt (content v dir) i))
  · apply triple_lookFs
    · rintro w found ⟨rfl, hsz⟩ hfound
      rw [findNamed_eq hlaw h.inv h.toShowsDir] at hfound
      exact ⟨rfl, hsz, (Except.ok.inj hfound).symm⟩
    · rintro w e ⟨rfl, -⟩ he
      rw [findNamed_eq hlaw h.inv h.toShowsDir] at he
      cases he
  intro found
  apply pointwise
  rintro w ⟨rfl, rfl, rfl⟩
  cases hfind : find name slots with
  | none =>
    refine consequence pure ?_ (fun _ _ h => h) (fun _ _ h => h)
    rintro w rfl
    have hlookup : KeyedSlots.lookup name slots = none := by
      rw [KeyedSlots.lookup, hfind]
      rfl
    exact ⟨hlookup.symm, fun _ => h, fun hne => absurd rfl hne⟩
  | some i =>
    obtain ⟨hlt, hslot⟩ := slot_of_find h.toShowsDir hfind
    have hfits := (h.contents.entry i hlt).1.clear
    apply bind (R := fun _ => HasDir content I n dir (store slots i none))
    · refine (triple_writeTo hlaw (le_of_lt hlt) hfits).consequence
        ?_ (fun _ _ h => h) (fun _ _ h => absurd hlt h)
      rintro u rfl
      exact h
    intro _
    apply bind (triple_cutLast hlaw hlt)
    intro _
    refine consequence pure ?_ (fun _ _ h => h) (fun _ _ h => h)
    intro u hu
    exact ⟨(lookup_eq_some.mpr ⟨i, hfind, hslot⟩).symm, by simp, fun _ => ⟨i, hfind, hu⟩⟩

lemma triple_unlinkEntry {name : List UInt8} : Triple ok (HasDir content I n dir slots)
    (unlinkEntry dir child name : EfsM V Unit)
    (fun _ v => KeyedSlots.lookup name slots = some child ∧ Freed content I n dir slots name v)
    (fun _ v => HasDir content I n dir slots v ∨ Freed content I n dir slots name v) := by
  refine bind ((triple_removeEntry hlaw).consequence
    (fun _ h => h) (fun _ _ h => h) (fun _ _ h => h.elim)) ?_
  intro found
  cases found with
  | none =>
    apply triple_failWith
    rintro v ⟨-, hsame, -⟩
    exact .inl (hsame rfl)
  | some x =>
    by_cases hx : x = child
    · subst hx
      simp only [ne_eq, not_true_eq_false, ↓reduceIte]
      refine consequence alter ?_ (fun _ _ h => h) (fun _ _ h => h)
      rintro v ⟨hfound, -, hfreed⟩
      obtain ⟨i, hfind, h⟩ := hfreed (by simp)
      exact ⟨hfound.symm, i, hfind, h.putNlink hlaw x _⟩
    simp only [ne_eq, hx, not_false_eq_true, ↓reduceIte]
    apply triple_failWith
    rintro v ⟨-, -, hfreed⟩
    exact .inr (hfreed (by simp))

/-! ### The operations -/

lemma triple_initInode {typ : FileType} {devNo : Nat} (hne : child ≠ dir) :
    Triple ok (HasDir content I n dir slots) (initInode child typ devNo : EfsM V Unit)
      (fun _ => HasDir content I n dir slots) (fun _ _ => True) := by
  apply triple_actFs
  · intro v _ h hinit
    split at hinit
    · cases hinit
    rename_i htyp
    rw [if_neg htyp]
    exact h.resetInode hlaw hne (not_not.mp htyp)
  · exact fun _ _ _ _ => trivial

lemma triple_createName {name : ValidFileName} {init : Nat → EfsM V Unit}
    {Q : Nat → V → Prop}
    (hinit : ∀ x, x ≠ dir → x ≠ invalidInodeNo → x < n →
      Triple ok (HasDir content I n dir slots) (init x) (fun _ => Q x) (fun _ _ => True)) :
    Triple ok (HasDir content I n dir slots) (createWith dir name init)
      (fun x v => KeyedSlots.lookup name.bytes slots = none ∧ x ≠ dir ∧ Q x v)
      (fun _ _ => True) := by
  apply pointwise
  intro v h
  refine triple_createWith (fun _ _ => trivial) fun x hcheck hfree => ?_
  have hnew : KeyedSlots.lookup name.bytes slots = none := by
    obtain ⟨found, hlookup, hfound⟩ := lookup_eq hlaw h.inv h.toShowsDir name.bytes
    rw [checkForCreate, hlookup] at hcheck
    split at hcheck
    · cases hcheck
    split at hcheck
    · cases hcheck
    · cases found with
      | none => exact hfound.symm
      | some d => cases hcheck
  obtain ⟨hclear, hzero, hlt⟩ := nextInode_ok h.toReady hfree
  have hne : x ≠ dir := by
    rintro rfl
    cases hclear.symm.trans h.used
  apply triple_onError (F := fun _ _ => True)
  · refine (hinit x hne hzero hlt).consequence ?_ (fun _ _ hQ => ⟨hnew, hne, hQ⟩) (fun _ _ h => h)
    rintro w rfl
    exact h.putInodeBit hlaw hne hzero
  · exact fun _ => triple_trivial
  · exact fun _ _ => trivial

section

variable (name : ValidFileName)

lemma triple_createFile : Triple ok (HasDir content I n dir slots)
    (createFile dir name : EfsM V Nat)
    (fun x v => KeyedSlots.lookup name.bytes slots = none ∧ x ≠ dir ∧
      HasDir content I n dir (put slots (place slots) (name.bytes, x)) v)
    (fun _ _ => True) := by
  apply triple_createName hlaw
  intro x hne hzero hlt
  exact bind (triple_initInode hlaw hne) fun _ => triple_link hlaw hzero hlt

lemma triple_mkdir :
    Triple ok (HasDir content I n dir slots) (mkdir dir name : EfsM V Nat)
      (fun x v => KeyedSlots.lookup name.bytes slots = none ∧ x ≠ dir ∧
        HasDir content I n dir (put slots (place slots) (name.bytes, x)) v)
      (fun _ _ => True) := by
  apply triple_createName hlaw
  intro x hne hzero hlt
  have hlink : ∀ child name, Triple ok (HasDir content I n dir slots)
      (link x child name : EfsM V Unit)
      (fun _ => HasDir content I n dir slots) (fun _ _ => True) := by
    intro child name
    exact ((HasDir.stableAt hlaw hne).link child name).consequence
      (fun _ h => h) (fun _ _ h => h) (fun _ _ _ => trivial)
  apply bind (triple_initInode hlaw hne)
  intro _
  apply bind (hlink x dot)
  intro _
  refine bind ?_ fun _ => triple_link hlaw hzero hlt
  exact triple_onError (hlink dir dotDot) (fun _ => triple_trivial) (fun _ _ => trivial)

lemma triple_remove (hne : child ≠ dir) :
    Triple ok (HasDir content I n dir slots) (remove dir child name : EfsM V Unit)
      (fun _ v => KeyedSlots.lookup name.bytes slots = some child ∧
        Freed content I n dir slots name.bytes v)
      (fun _ v => HasDir content I n dir slots v ∨ Freed content I n dir slots name.bytes v) := by
  apply bind (R := fun _ => HasDir content I n dir slots)
  · exact triple_lookFs (fun _ _ h _ => h) (fun _ _ h _ => .inl h)
  intro _
  apply bind (R := fun _ => HasDir content I n dir slots)
  · exact triple_lookFs (fun _ _ h _ => h) (fun _ _ h _ => .inl h)
  intro typ
  refine bind ?_ fun _ => triple_unlinkEntry hlaw
  exact ((HasDir.stableAt hlaw hne).unlinkDots dir typ).consequence
    (fun _ h => h) (fun _ _ h => h) (fun _ _ h => .inl h)

lemma triple_remove_self (hparent : KeyedSlots.lookup dotDot slots ≠ some dir) :
    Triple ok (HasDir content I n dir slots) (remove dir dir name : EfsM V Unit) (fun _ _ => False)
      (fun _ _ => True) := by
  apply bind (R := fun _ => HasDir content I n dir slots)
  · exact triple_lookFs (fun _ _ h _ => h) (fun _ _ _ _ => trivial)
  intro _
  apply bind (R := fun typ v => HasDir content I n dir slots v ∧ typ = .directory)
  · apply triple_lookFs
    · intro v typ h heq
      cases heq
      exact ⟨h, h.typ⟩
    · exact fun _ _ _ _ => trivial
  intro typ
  apply pointwise
  rintro v ⟨h, rfl⟩
  refine bind (R := fun _ _ => False) ?_ fun _ => ⟨fun _ hf _ => hf.elim⟩
  apply bind (R := fun _ _ => False)
  · refine (triple_unlinkEntry hlaw).consequence (by rintro w rfl; exact h) ?_
      (fun _ _ _ => trivial)
    exact fun _ _ hfound => hparent hfound.1
  · exact fun _ => ⟨fun _ hf _ => hf.elim⟩

end
end

end Redwing.Efs
