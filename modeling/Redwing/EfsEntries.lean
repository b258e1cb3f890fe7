/-
The entries of a directory as numbered slots.  A directory file shows a list of
slots if it has one entry for each of them; the loops of the directory code then
find what the search in the list finds, and writing an entry or cutting the last
one off changes the list in the same place.
-/
import Redwing.EfsFiles
import Redwing.KeyedSlots

namespace Redwing.Efs

open Volume KeyedSlots Option

/-! ### One entry -/

abbrev DirSlots := Slots (List UInt8) Nat

def RawDirent.slot (d : RawDirent) : Option (List UInt8 × Nat) :=
  if d.isUnused then none else some (d.nameBytes, d.inodeNo)

def direntAt (b : Bytes) (i : Nat) : RawDirent :=
  RawDirent.ofBytes fun k =>
    if k < rawDirentSize then b (rawDirentSize * i + k) else 0

lemma direntAt_congr
    (h : ∀ k < rawDirentSize, b' (rawDirentSize * i + k) = b (rawDirentSize * i + k)) :
    direntAt b' i = direntAt b i := by
  apply congrArg RawDirent.ofBytes
  funext k
  split
  · rename_i hlt
    exact h k hlt
  · rfl

/-- An entry of the directory code: its name fits the field. -/
structure RawDirent.Fits (d : RawDirent) : Prop where
  inodeNo : d.inodeNo < 2 ^ 64
  nameLen : d.nameLen ≤ fileNameLen

lemma RawDirent.Fits.clear {d : RawDirent} (h : d.Fits) :
    RawDirent.Fits { d with inodeNo := invalidInodeNo } :=
  ⟨Nat.two_pow_pos 64, h.nameLen⟩

lemma RawDirent.new_eq_some {child : Nat} {typ : FileType} {name : List UInt8} {d : RawDirent}
    (h : RawDirent.new child typ name = some d) :
    typ ≠ .unknown ∧ name.length ≤ fileNameLen ∧
      d = ⟨child, typ, name.length, fun i => name.getD i 0⟩ := by
  rw [RawDirent.new] at h
  split at h
  · cases h
  rename_i hnot
  cases h
  exact ⟨fun htyp => hnot (.inl htyp), Nat.not_lt.mp fun hlt => hnot (.inr hlt), rfl⟩

lemma map_range_getD (name : List UInt8) :
    (List.range name.length).map (fun i => name.getD i 0) = name := by
  apply List.ext_getElem
  · rw [List.length_map, List.length_range]
  intro i h _
  rw [List.length_map, List.length_range] at h
  rw [List.getElem_map, List.getElem_range, List.getD_eq_getElem?_getD,
    List.getElem?_eq_getElem h, getD_some]

lemma RawDirent.slot_new {child : Nat} {typ : FileType} {name : List UInt8}
    {d : RawDirent} (h : RawDirent.new child typ name = some d)
    (hchild : child ≠ invalidInodeNo) : d.slot = some (name, child) := by
  obtain ⟨-, -, rfl⟩ := RawDirent.new_eq_some h
  rw [RawDirent.slot, if_neg]
  · exact congrArg (fun n => some (n, child)) (map_range_getD name)
  · exact fun hunused => hchild (of_decide_eq_true hunused)

lemma RawDirent.nameBytes_congr {d e : RawDirent} (hlen : d.nameLen = e.nameLen)
    (hname : ∀ i < d.nameLen, d.name i = e.name i) : d.nameBytes = e.nameBytes := by
  rw [RawDirent.nameBytes, RawDirent.nameBytes, ← hlen]
  apply List.map_congr_left
  intro i hi
  exact hname i (List.mem_range.mp hi)

section

variable {d : RawDirent} {b : Bytes}

lemma RawDirent.inodeNo_ofBytes (h : d.inodeNo < 2 ^ 64)
    (hb : ∀ k < rawDirentSize, b k = d.bytes k) : (RawDirent.ofBytes b).inodeNo = d.inodeNo := by
  have hfield : ∀ k < 8, b k = Bytes.leBytes d.inodeNo k := fun k hk =>
    (hb k (by unfold rawDirentSize; omega)).trans (if_pos hk)
  exact (Bytes.leValue_congr hfield).trans (Bytes.leValue_leBytes_of_lt h)

lemma RawDirent.nameLen_ofBytes (h : d.nameLen ≤ fileNameLen)
    (hb : ∀ k < rawDirentSize, b k = d.bytes k) : (RawDirent.ofBytes b).nameLen = d.nameLen := by
  have hfield : ∀ k < 4, b (12 + k) = Bytes.leBytes d.nameLen k := by
    intro k hk
    rw [hb (12 + k) (by unfold rawDirentSize; omega), RawDirent.bytes, if_neg (by omega),
      if_neg (by omega), if_pos (by omega), Nat.add_sub_cancel_left]
  have hlt : d.nameLen < 256 ^ 4 := Nat.lt_of_le_of_lt h (by decide)
  exact (Bytes.leValue_congr hfield).trans (Bytes.leValue_leBytes_of_lt hlt)

lemma RawDirent.name_ofBytes (hb : ∀ k < rawDirentSize, b k = d.bytes k)
    (hi : i < fileNameLen) : (RawDirent.ofBytes b).name i = d.name i := by
  change b (16 + i) = d.name i
  rw [hb (16 + i) (by unfold rawDirentSize; unfold fileNameLen at hi; omega), RawDirent.bytes,
    if_neg (by omega), if_neg (by omega), if_neg (by omega), Nat.add_sub_cancel_left]

lemma RawDirent.slot_ofBytes (h : d.Fits) (hb : ∀ k < rawDirentSize, b k = d.bytes k) :
    (RawDirent.ofBytes b).slot = d.slot ∧ (RawDirent.ofBytes b).Fits := by
  have hino := RawDirent.inodeNo_ofBytes h.inodeNo hb
  have hlen := RawDirent.nameLen_ofBytes h.nameLen hb
  have hname : (RawDirent.ofBytes b).nameBytes = d.nameBytes :=
    RawDirent.nameBytes_congr hlen fun i hi =>
      RawDirent.name_ofBytes hb (Nat.lt_of_lt_of_le (hlen ▸ hi) h.nameLen)
  refine ⟨?_, ?_, ?_⟩
  · rw [RawDirent.slot, RawDirent.slot, hname, RawDirent.isUnused, RawDirent.isUnused, hino]
  · rw [hino]
    exact h.inodeNo
  · rw [hlen]
    exact h.nameLen

end

/-! ### All entries -/

/-- The first `size` bytes are the entries of these slots. -/
structure Shows (b : Bytes) (size : Nat) (slots : DirSlots) : Prop where
  size_eq : size = rawDirentSize * slots.length
  entry : ∀ i < slots.length, (direntAt b i).Fits ∧ slots[i]? = some (direntAt b i).slot

def store (slots : DirSlots) (i : Nat) (slot : Option (List UInt8 × Nat)) : DirSlots :=
  if i < slots.length then slots.set i slot else slots ++ [slot]

lemma length_store (hi : i ≤ slots.length) (slot : Option (List UInt8 × Nat)) :
    (store slots i slot).length = max slots.length (i + 1) := by
  rw [store]
  split
  · rw [List.length_set]
    omega
  · rw [List.length_append, List.length_singleton]
    omega

lemma getElem?_store (hi : i ≤ slots.length) (slot : Option (List UInt8 × Nat)) :
    (store slots i slot)[j]? = if j = i then some slot else slots[j]? := by
  rw [store]
  split
  · rename_i hlt
    by_cases hj : j = i
    · rw [hj, if_pos rfl, List.getElem?_set_self hlt]
    · rw [if_neg hj, List.getElem?_set_ne (Ne.symm hj)]
  rename_i hge
  have heq : i = slots.length := by omega
  subst heq
  by_cases hj : j = slots.length
  · rw [hj, if_pos rfl, List.getElem?_concat_length]
  rw [if_neg hj]
  rcases Nat.lt_or_gt_of_ne hj with hlt | hgt
  · exact List.getElem?_append_left hlt
  · rw [List.getElem?_eq_none (by rw [List.length_append]; exact hgt),
      List.getElem?_eq_none (Nat.le_of_lt hgt)]

namespace Shows

variable {b b' : Bytes} {slots : DirSlots}

lemma nil (b : Bytes) : Shows b 0 [] := ⟨rfl, fun _ hi => absurd hi (Nat.not_lt_zero _)⟩

lemma congr (h : Shows b size slots) (hb : ∀ offset < size, b' offset = b offset) :
    Shows b' size slots := by
  refine ⟨h.size_eq, fun i hi => ?_⟩
  have heq : direntAt b' i = direntAt b i := by
    apply direntAt_congr
    intro k hk
    apply hb
    rw [h.size_eq]
    calc rawDirentSize * i + k < rawDirentSize * i + rawDirentSize := by omega
      _ = rawDirentSize * (i + 1) := rfl
      _ ≤ rawDirentSize * slots.length := Nat.mul_le_mul_left _ hi
  rw [heq]
  exact h.entry i hi

lemma write (h : Shows b size slots) {d : RawDirent} (hd : d.Fits) {i : Nat}
    (hi : i ≤ slots.length)
    (hb : ∀ offset < max size (rawDirentSize * i + rawDirentSize),
      b' offset = b.splice (rawDirentSize * i) d.bytes rawDirentSize offset) :
    Shows b' (max size (rawDirentSize * i + rawDirentSize)) (store slots i d.slot) := by
  have hsize := h.size_eq
  unfold rawDirentSize at hsize hb ⊢
  refine ⟨?_, fun j hj => ?_⟩
  · rw [length_store hi, rawDirentSize]
    omega
  rw [length_store hi] at hj
  rw [getElem?_store hi]
  by_cases hji : j = i
  · subst hji
    rw [if_pos rfl]
    have hbytes : ∀ k < rawDirentSize,
        (if k < rawDirentSize then b' (rawDirentSize * j + k) else 0) =
          d.bytes k := by
      intro k hk
      rw [if_pos hk]
      unfold rawDirentSize at hk ⊢
      rw [hb _ (by omega), Bytes.splice_inside (by omega) (by omega), Nat.add_sub_cancel_left]
    obtain ⟨hslot, hfits⟩ := RawDirent.slot_ofBytes hd hbytes
    exact ⟨hfits, congrArg some hslot.symm⟩
  rw [if_neg hji]
  have heq : direntAt b' j = direntAt b j := by
    apply direntAt_congr
    intro k hk
    unfold rawDirentSize at hk ⊢
    rw [hb _ (by omega), Bytes.splice_outside (by omega)]
  rw [heq]
  exact h.entry j (by omega)

lemma cut (h : Shows b size slots) (hi : i ≤ slots.length)
    (hb : ∀ offset < rawDirentSize * i, b' offset = b offset) :
    Shows b' (rawDirentSize * i) (slots.take i) := by
  have hlength : (slots.take i).length = i := List.length_take_of_le hi
  have htake : Shows b (rawDirentSize * i) (slots.take i) := by
    refine ⟨by rw [hlength], fun j hj => ?_⟩
    rw [hlength] at hj
    rw [List.getElem?_take_of_lt hj]
    exact h.entry j (Nat.lt_of_lt_of_le hj hi)
  exact htake.congr hb

end Shows

/-! ### Searching -/

section

variable {V : Type} [Volume V] {content : V → Nat → Bytes}
variable {ok : V → Call → Prop} {I : V → Prop}

structure ShowsDir (content : V → Nat → Bytes) (v : V) (ino : Nat)
    (slots : DirSlots) : Prop where
  typ : (stat v ino).typ = .directory
  contents : Shows (content v ino) (stat v ino).size slots

variable {v : V} {ino : Nat} {slots : DirSlots}

section

variable (hlaw : Lawful content ok I) (hI : I v) (h : ShowsDir content v ino slots)

include hlaw hI h

lemma readFrom_entry (hi : i < slots.length) :
    RawDirent.readFrom v ino (rawDirentSize * i) = .ok (some (direntAt (content v ino) i)) := by
  have hsize := h.contents.size_eq
  have hdata : (stat v ino).typ.hasData = true := by rw [h.typ]; rfl
  have hroom : rawDirentSize * i + rawDirentSize ≤ (stat v ino).size := by
    rw [hsize]
    exact Nat.mul_le_mul_left rawDirentSize hi
  have hread := hlaw.read v ino (rawDirentSize * i) rawDirentSize hI hdata (by omega)
  rw [Nat.min_eq_left (by omega)] at hread
  have hbuf : (fun k => ((List.range rawDirentSize).map fun k =>
      content v ino (rawDirentSize * i + k)).getD k 0) = fun k =>
        if k < rawDirentSize then content v ino (rawDirentSize * i + k)
        else 0 := by
    funext k
    rw [List.getD_eq_getElem?_getD, List.getElem?_map]
    split
    · rename_i hlt
      rw [List.getElem?_range hlt]
      rfl
    rename_i hge
    rw [List.getElem?_eq_none (by rw [List.length_range]; omega)]
    rfl
  have hlen : (direntAt (content v ino) i).nameLen ≤ fileNameLen :=
    (h.contents.entry i hi).1.nameLen
  rw [RawDirent.readFrom, hread]
  simp only [List.length_map, List.length_range, hbuf]
  rw [if_neg (by decide), if_neg (by decide)]
  exact if_neg (Nat.not_lt.mpr hlen)

lemma readFrom_end : RawDirent.readFrom v ino (rawDirentSize * slots.length) = .ok none := by
  have hdata : (stat v ino).typ.hasData = true := by rw [h.typ]; rfl
  have hread := hlaw.read v ino (rawDirentSize * slots.length) rawDirentSize hI
    hdata (by rw [h.contents.size_eq])
  rw [RawDirent.readFrom, hread, h.contents.size_eq, Nat.sub_self, Nat.min_zero]
  rfl

lemma findDirent_eq (hp : ∀ d, p d = q d.slot) (hi : i ≤ slots.length)
    (hrounds : slots.length < i + rounds) :
    findDirent v ino p rounds (rawDirentSize * i) = .ok (((slots.drop i).findIdx? q).map fun j =>
        (rawDirentSize * (i + j), direntAt (content v ino) (i + j))) := by
  induction rounds generalizing i with
  | zero => omega
  | succ rounds ih =>
    rcases Nat.lt_or_eq_of_le hi with hlt | rfl
    · obtain ⟨-, hslot⟩ := h.contents.entry i hlt
      obtain ⟨hlt', hget⟩ := List.getElem?_eq_some_iff.mp hslot
      rw [findDirent, readFrom_entry hlaw hI h hlt,
        List.drop_eq_getElem_cons hlt, hget, List.findIdx?_cons, ← hp]
      cases hpd : p (direntAt (content v ino) i) with
      | true => simp only [hpd, ↓reduceIte, map_some, Nat.add_zero]
      | false =>
        have hnext := ih (i := i + 1) hlt (by omega)
        simp only [hpd, Bool.false_eq_true, ↓reduceIte, map_map]
        change findDirent v ino p rounds (rawDirentSize * (i + 1)) = _
        rw [hnext]
        congr 2
        funext j
        simp only [Function.comp_apply, Nat.add_assoc, Nat.add_comm 1 j]
    · rw [findDirent, readFrom_end hlaw hI h, List.drop_length]
      rfl

end

lemma direntRounds_enough (h : ShowsDir content v ino slots) :
    slots.length < direntRounds v ino := by
  rw [direntRounds, h.contents.size_eq, Nat.mul_div_cancel_left _ (by decide : 0 < rawDirentSize)]
  omega

lemma isNamed_eq (name : List UInt8) (d : RawDirent) :
    RawDirent.isNamed name d = holds name d.slot := by
  rw [RawDirent.isNamed, RawDirent.slot]
  cases d.isUnused with
  | true => rfl
  | false =>
    change decide (name = d.nameBytes) = decide (d.nameBytes = name)
    exact decide_eq_decide.mpr eq_comm

lemma findNamed_eq (hlaw : Lawful content ok I) (hI : I v)
    (h : ShowsDir content v ino slots) (name : List UInt8) :
    findNamed v ino name = .ok ((find name slots).map fun i =>
        (rawDirentSize * i, direntAt (content v ino) i)) := by
  have hrounds : slots.length < 0 + direntRounds v ino := by
    rw [Nat.zero_add]
    exact direntRounds_enough h
  have hfind := findDirent_eq hlaw hI h (isNamed_eq name) (Nat.zero_le slots.length) hrounds
  rw [findNamed, if_neg (not_not_intro h.typ)]
  simp only [List.drop_zero, Nat.zero_add] at hfind
  exact hfind

lemma inodeNo_of_slot {d : RawDirent} {e : List UInt8 × Nat}
    (h : d.slot = some e) : d.inodeNo = e.2 := by
  rw [RawDirent.slot] at h
  split at h
  · cases h
  · cases h
    rfl

lemma slot_of_find (h : ShowsDir content v ino slots) {name : List UInt8}
    {i : Nat} (hfind : find name slots = some i) :
    i < slots.length ∧ slots[i]? = some (some (name, (direntAt (content v ino) i).inodeNo)) := by
  obtain ⟨child, hentry⟩ := find_eq_some hfind
  have hlt : i < slots.length := (List.getElem?_eq_some_iff.mp hentry).1
  have hslot := (h.contents.entry i hlt).2
  rw [hentry] at hslot
  rw [inodeNo_of_slot (some.inj hslot).symm]
  exact ⟨hlt, hentry⟩

lemma lookup_eq (hlaw : Lawful content ok I) (hI : I v)
    (h : ShowsDir content v ino slots) (name : List UInt8) :
    ∃ found, lookup v ino name = .ok found ∧
      found.map RawDirent.inodeNo = KeyedSlots.lookup name slots := by
  refine ⟨_, by rw [lookup, findNamed_eq hlaw hI h], ?_⟩
  cases hfind : find name slots with
  | none => rw [KeyedSlots.lookup, hfind]; rfl
  | some i =>
    have hslot := (slot_of_find h hfind).2
    exact (lookup_eq_some.mpr ⟨i, hfind, hslot⟩).symm

lemma findIdx?_isSome_eq (s : DirSlots) : s.findIdx? isSome = none ↔ entries s = [] := by
  rw [List.findIdx?_eq_none_iff, List.eq_nil_iff_forall_not_mem]
  constructor
  · intro h e hmem
    cases h _ (mem_entries.mp hmem)
  intro h slot hslot
  cases slot with
  | none => rfl
  | some e => exact absurd (mem_entries.mpr hslot) (h e)

section

variable (hlaw : Lawful content ok I) (hI : I v) (h : ShowsDir content v ino slots)

include hlaw hI h

lemma isEmptyDir_eq (htwo : 2 ≤ slots.length) :
    isEmptyDir v ino = .ok (decide (entries (slots.drop 2) = [])) := by
  have hp : ∀ d : RawDirent, (!d.isUnused) = d.slot.isSome := by
    intro d
    rw [RawDirent.slot]
    cases d.isUnused with
    | true | false => rfl
  have hfind := findDirent_eq hlaw hI h hp htwo
    (Nat.lt_of_lt_of_le (direntRounds_enough h) (Nat.le_add_left _ 2))
  rw [isEmptyDir, if_neg (not_not_intro h.typ), hfind]
  simp only [Except.ok.injEq]
  rw [Bool.eq_iff_iff, decide_eq_true_iff, ← findIdx?_isSome_eq,
    isNone_iff_eq_none, map_eq_none_iff]

lemma addOffset_eq (field : List UInt8) (empty : Option Nat) (hi : i ≤ slots.length)
    (hrounds : slots.length < i + rounds) :
    addOffset v ino field rounds (rawDirentSize * i) (empty.map (rawDirentSize * ·)) =
      if (find field (slots.drop i)).isSome then .error FsErrorKind.alreadyExists.err
      else .ok (rawDirentSize * ((lastFreeOr (slots.drop i) i empty).getD slots.length)) := by
  induction rounds generalizing i empty with
  | zero => omega
  | succ rounds ih =>
    rcases Nat.lt_or_eq_of_le hi with hlt | rfl
    · obtain ⟨-, hslot⟩ := h.contents.entry i hlt
      obtain ⟨hlt', hget⟩ := List.getElem?_eq_some_iff.mp hslot
      have hnext := fun empty => ih (i := i + 1) empty hlt (by omega)
      rw [addOffset, readFrom_entry hlaw hI h hlt,
        List.drop_eq_getElem_cons hlt, hget, find_cons_isSome]
      cases hunused : (direntAt (content v ino) i).isUnused with
      | true =>
        have hfree : (direntAt (content v ino) i).slot = none := by
          rw [RawDirent.slot, if_pos hunused]
        simp only [hunused, ↓reduceIte]
        have hstep := hnext (some i)
        rw [map_some, Nat.mul_succ] at hstep
        rw [hfree, lastFreeOr_none_cons, hstep]
        rfl
      | false =>
        have hused : (direntAt (content v ino) i).slot =
            some ((direntAt (content v ino) i).nameBytes,
              (direntAt (content v ino) i).inodeNo) := by
          rw [RawDirent.slot, if_neg (by rw [hunused]; nofun)]
        rw [hused, lastFreeOr_some_cons]
        simp only [hunused, Bool.false_eq_true, ↓reduceIte, holds,
          any_some, Bool.or_eq_true, decide_eq_true_eq]
        by_cases hname : field = (direntAt (content v ino) i).nameBytes
        · rw [if_pos hname, if_pos (.inl hname.symm)]
        have hstep := hnext empty
        rw [Nat.mul_succ] at hstep
        rw [if_neg hname, hstep]
        simp [Ne.symm hname, false_or]
    · rw [addOffset, readFrom_end hlaw hI h, List.drop_length]
      cases empty with
      | none | some => rfl

lemma placeFor_eq (d : RawDirent) : placeFor v ino d =
    if (find d.nameField slots).isSome then .error FsErrorKind.alreadyExists.err
    else .ok (rawDirentSize * place slots) := by
  have hrounds : slots.length < 0 + direntRounds v ino := by
    rw [Nat.zero_add]
    exact direntRounds_enough h
  have hadd := addOffset_eq hlaw hI h d.nameField none (Nat.zero_le slots.length) hrounds
  have hplace : (lastFreeOr slots 0 none).getD slots.length = place slots := by
    rw [lastFreeOr, place]
    cases lastFree slots with
    | none => rfl
    | some j => exact Nat.zero_add j
  rw [placeFor, if_neg (not_not_intro h.typ)]
  rw [List.drop_zero, hplace] at hadd
  exact hadd

end
end

end Redwing.Efs
