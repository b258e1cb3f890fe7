/-
Keyed entries in numbered slots.  A new entry goes to a free slot or behind the
last slot; an entry is taken out by freeing its slot, and a slot freed at the
end is cut off.  As long as no key occurs twice the slots are a finite map.
-/
import Mathlib.Data.List.Nodup
import Mathlib.Data.List.Perm.Basic
import Mathlib.Tactic.WLOG

namespace KeyedSlots

open Option List

variable {K A : Type*}

/-- Slots, each one free or with an entry. -/
abbrev Slots (K A : Type*) := List (Option (K × A))

def entries (s : Slots K A) : List (K × A) := s.filterMap id

@[simp] lemma entries_nil : entries ([] : Slots K A) = [] := rfl

lemma entries_append (s t : Slots K A) : entries (s ++ t) = entries s ++ entries t :=
  filterMap_append

variable {s : Slots K A} {i j : Nat}

lemma mem_entries {e : K × A} : e ∈ entries s ↔ some e ∈ s := by simp [entries]

/-- The slots before, at and after a number. -/
lemma split_at {slot : Option (K × A)}
    (h : s[i]? = some slot) : s = s.take i ++ slot :: s.drop (i + 1) := by
  obtain ⟨hlt, hget⟩ := List.getElem?_eq_some_iff.mp h
  have hdrop : s.drop i = slot :: s.drop (i + 1) := by
    rw [← hget]
    exact List.drop_eq_getElem_cons hlt
  rw [← hdrop, List.take_append_drop]

lemma entries_at {slot : Option (K × A)} (h : s[i]? = some slot) :
    entries s = entries (s.take i) ++ slot.toList ++ entries (s.drop (i + 1)) := by
  rw [congrArg entries (split_at h), entries_append, append_assoc]
  cases slot with
  | none => rfl
  | some e => rfl

/-! ### Putting an entry in -/

/-- The number of the last free slot. -/
def lastFree : Slots K A → Option Nat
  | [] => none
  | slot :: rest =>
    match lastFree rest with
    | some i => some (i + 1)
    | none => if slot.isNone then some 0 else none

/-- The search goes on at slot `i`, and found `found` so far. -/
def lastFreeOr (s : Slots K A) (i : Nat) (found : Option Nat) : Option Nat :=
  ((lastFree s).map (i + ·)).or found

lemma lastFreeOr_some_cons (e : K × A) (s : Slots K A) (i : Nat) (found : Option Nat) :
    lastFreeOr (some e :: s) i found = lastFreeOr s (i + 1) found := by
  rw [lastFreeOr, lastFreeOr, lastFree]
  cases lastFree s with
  | none => rfl
  | some j => exact congrArg some (Nat.add_right_comm i j 1)

lemma lastFreeOr_none_cons (s : Slots K A) (i : Nat) (found : Option Nat) :
    lastFreeOr (none :: s) i found = lastFreeOr s (i + 1) (some i) := by
  rw [lastFreeOr, lastFreeOr, lastFree]
  cases lastFree s with
  | none => rfl
  | some j => exact congrArg some (Nat.add_right_comm i j 1)

/-- Where a new entry goes. -/
def place (s : Slots K A) : Nat := (lastFree s).getD s.length

def put (s : Slots K A) (i : Nat) (e : K × A) : Slots K A :=
  if i < s.length then s.set i (some e) else s ++ [some e]

lemma lastFree_getElem? (h : lastFree s = some i) : s[i]? = some none := by
  induction s generalizing i with
  | nil => cases h
  | cons slot rest ih =>
    rw [lastFree] at h
    split at h
    · rename_i j hj
      cases h
      exact ih hj
    split at h
    · rename_i hfree
      cases h
      rw [getElem?_cons_zero, isNone_iff_eq_none.mp hfree]
    · cases h

/-- A place for a new entry: a free slot, or the one behind the last. -/
def IsPlace (s : Slots K A) (i : Nat) : Prop := s[i]? = some none ∨ i = s.length

lemma isPlace_place (s : Slots K A) : IsPlace s (place s) := by
  rw [place]
  cases h : lastFree s with
  | none => exact .inr rfl
  | some i => exact .inl (lastFree_getElem? h)

lemma entries_put (h : IsPlace s i) (e : K × A) : (entries (put s i e)).Perm (e :: entries s) := by
  rcases h with hfree | rfl
  · have hlt : i < s.length := (List.getElem?_eq_some_iff.mp hfree).1
    have hset : (s.set i (some e))[i]? = some (some e) := List.getElem?_set_self hlt
    rw [put, if_pos hlt, entries_at hset, entries_at hfree,
      take_set_of_le (Nat.le_refl i), drop_set_of_lt (Nat.lt_succ_self i)]
    simp only [toList_some, toList_none, append_nil]
    rw [append_assoc]
    exact perm_middle
  · rw [put, if_neg (Nat.lt_irrefl _), entries_append]
    exact perm_append_singleton e (entries s)

/-- A used slot keeps its entry. -/
lemma put_getElem? (h : IsPlace s i) (e : K × A) {a : K × A} (hj : s[j]? = some (some a)) :
    (put s i e)[j]? = some (some a) := by
  have hlt : j < s.length := (List.getElem?_eq_some_iff.mp hj).1
  rw [put]
  split
  · rename_i hi
    have hne : i ≠ j := by
      rintro rfl
      rcases h with hfree | hend
      · rw [hfree] at hj
        cases hj
      · omega
    rw [getElem?_set_ne hne, hj]
  · rw [getElem?_append_left hlt, hj]

/-! ### Taking an entry out -/

def free (s : Slots K A) (i : Nat) : Slots K A :=
  if i + 1 = s.length then s.take i else s.set i none

lemma entries_free {e : K × A} (h : s[i]? = some (some e)) :
    (entries s).Perm (e :: entries (free s i)) := by
  have hlt : i < s.length := (List.getElem?_eq_some_iff.mp h).1
  rw [entries_at h, free]
  split
  · rename_i hlast
    rw [drop_eq_nil_of_le (by omega), entries_nil, append_nil]
    exact perm_append_singleton e _
  have hset : (s.set i none)[i]? = some none := getElem?_set_self hlt
  rw [entries_at hset, take_set_of_le (Nat.le_refl i),
    drop_set_of_lt (Nat.lt_succ_self i), append_assoc]
  simp only [toList_some, toList_none, append_nil]
  exact perm_middle

/-- Another used slot keeps its entry. -/
lemma free_getElem? {e : K × A} (hi : s[i]? = some (some e)) {a : K × A}
    (hj : s[j]? = some (some a)) (hne : j ≠ i) : (free s i)[j]? = some (some a) := by
  have hlt : i < s.length := (List.getElem?_eq_some_iff.mp hi).1
  have hlt' : j < s.length := (List.getElem?_eq_some_iff.mp hj).1
  rw [free]
  split
  · rw [List.getElem?_take_of_lt (by omega), hj]
  · rw [List.getElem?_set_ne (Ne.symm hne), hj]

/-! ### Finding an entry -/

section

variable [DecidableEq K]

/-- The slot has an entry with this key. -/
def holds (k : K) (slot : Option (K × A)) : Bool := slot.any fun e => decide (e.1 = k)

variable {k : K} {s : Slots K A}

lemma holds_iff {slot : Option (K × A)} : holds k slot = true ↔ ∃ a, slot = some (k, a) := by
  cases slot with
  | none => exact iff_of_false nofun nofun
  | some e =>
    rw [holds, any_some, decide_eq_true_iff]
    constructor
    · rintro rfl
      exact ⟨e.2, rfl⟩
    rintro ⟨a, heq⟩
    cases heq
    rfl

/-- The number of the first slot with this key. -/
def find (k : K) (s : Slots K A) : Option Nat := s.findIdx? (holds k)

lemma find_cons_isSome (k : K) (slot : Option (K × A)) (s : Slots K A) :
    (find k (slot :: s)).isSome = (holds k slot || (find k s).isSome) := by
  rw [find, findIdx?_cons]
  cases holds k slot with
  | true => rfl
  | false => exact isSome_map

lemma find_eq_some {i : Nat} (h : find k s = some i) : ∃ a, s[i]? = some (some (k, a)) := by
  obtain ⟨hlt, hholds, -⟩ := findIdx?_eq_some_iff_getElem.mp h
  obtain ⟨a, heq⟩ := holds_iff.mp hholds
  exact ⟨a, List.getElem?_eq_some_iff.mpr ⟨hlt, heq⟩⟩

lemma find_eq_none : find k s = none ↔ ∀ a, (k, a) ∉ entries s := by
  rw [find, findIdx?_eq_none_iff]
  constructor
  · intro h a hmem
    have hnot := h _ (mem_entries.mp hmem)
    rw [holds_iff.mpr ⟨a, rfl⟩] at hnot
    cases hnot
  intro h slot hslot
  rw [← Bool.not_eq_true, holds_iff]
  rintro ⟨a, rfl⟩
  exact h a (mem_entries.mpr hslot)

/-- The value in the first slot with this key. -/
def lookup (k : K) (s : Slots K A) : Option A := (find k s).bind fun i => (s[i]?.join).map Prod.snd

lemma lookup_eq_some {a : A} : lookup k s = some a ↔
    ∃ i, find k s = some i ∧ s[i]? = some (some (k, a)) := by
  constructor
  · intro h
    obtain ⟨i, hfind, hvalue⟩ := bind_eq_some_iff.mp h
    obtain ⟨b, hentry⟩ := find_eq_some hfind
    rw [hentry] at hvalue
    cases hvalue
    exact ⟨i, hfind, hentry⟩
  rintro ⟨i, hfind, hentry⟩
  rw [lookup, hfind, bind_some, hentry]
  rfl

lemma lookup_eq_none : lookup k s = none ↔ ∀ a, (k, a) ∉ entries s := by
  rw [← find_eq_none]
  constructor
  · intro h
    cases hfind : find k s with
    | none => rfl
    | some i =>
      obtain ⟨a, hentry⟩ := find_eq_some hfind
      rw [lookup_eq_some.mpr ⟨i, hfind, hentry⟩] at h
      cases h
  · intro h
    rw [lookup, h, bind_none]

end

/-! ### A finite map -/

/-- No key occurs twice. -/
def Unique (s : Slots K A) : Prop := ((entries s).map Prod.fst).Nodup

lemma Unique.of_perm {t : Slots K A} {e : K × A} (h : Unique s)
    (hperm : (entries s).Perm (e :: entries t)) : Unique t ∧ ∀ a, (e.1, a) ∉ entries t := by
  have hnodup : ((e :: entries t).map Prod.fst).Nodup := (hperm.map Prod.fst).nodup_iff.mp h
  rw [map_cons, nodup_cons] at hnodup
  exact ⟨hnodup.2, fun a ha => hnodup.1 (mem_map.mpr ⟨(e.1, a), ha, rfl⟩)⟩

/-- A key is in one slot only. -/
lemma Unique.slot_eq (h : Unique s) {k : K} {a b : A} (hi : s[i]? = some (some (k, a)))
    (hj : s[j]? = some (some (k, b))) : i = j := by
  by_contra hne
  wlog hlt : i < j generalizing i j a b with hwlog
  · exact hwlog hj hi (Ne.symm hne) (by omega)
  have hrest : (k, b) ∈ entries (s.drop (i + 1)) := by
    apply mem_entries.mpr
    apply mem_of_getElem? (i := j - (i + 1))
    rw [getElem?_drop, Nat.add_sub_cancel' hlt]
    exact hj
  rw [Unique, entries_at hi, append_assoc, map_append] at h
  have htail := h.of_append_right
  simp only [toList_some, cons_append, nil_append, map_cons, nodup_cons, List.mem_map] at htail
  exact htail.1 ⟨(k, b), hrest, rfl⟩

lemma Unique.free (h : Unique s) {e : K × A} (hi : s[i]? = some (some e)) : Unique (free s i) :=
  (h.of_perm (entries_free hi)).1

section

variable [DecidableEq K]

variable {s : Slots K A} {i : Nat}

lemma Unique.mem_iff (h : Unique s) {k : K} {a : A} : lookup k s = some a ↔ (k, a) ∈ entries s := by
  constructor
  · intro hlookup
    obtain ⟨i, -, hentry⟩ := lookup_eq_some.mp hlookup
    exact mem_entries.mpr (mem_of_getElem? hentry)
  intro hmem
  cases hlookup : lookup k s with
  | none => exact absurd hmem (lookup_eq_none.mp hlookup a)
  | some b =>
    obtain ⟨i, -, hentry⟩ := lookup_eq_some.mp hlookup
    have hmem' : (k, b) ∈ entries s := mem_entries.mpr (mem_of_getElem? hentry)
    have heq := inj_on_of_nodup_map h hmem' hmem rfl
    exact congrArg some (Prod.ext_iff.mp heq).2

lemma Unique.put (h : Unique s) (hplace : IsPlace s i) {e : K × A} (hnew : lookup e.1 s = none) :
    Unique (put s i e) := by
  rw [Unique, ((entries_put hplace e).map Prod.fst).nodup_iff, map_cons, nodup_cons]
  refine ⟨fun hmem => ?_, h⟩
  obtain ⟨⟨k, a⟩, hentry, rfl⟩ := mem_map.mp hmem
  exact lookup_eq_none.mp hnew a hentry

lemma Unique.ext_lookup {t : Slots K A} (hs : Unique s) (ht : Unique t) {k : K}
    (h : ∀ a, (k, a) ∈ entries s ↔ (k, a) ∈ entries t) : lookup k s = lookup k t := by
  apply ext
  intro a
  rw [hs.mem_iff, ht.mem_iff, h]

lemma Unique.lookup_put (h : Unique s) (hplace : IsPlace s i) {e : K × A}
    (hnew : lookup e.1 s = none) (k : K) : lookup k (KeyedSlots.put s i e) =
      if k = e.1 then some e.2 else lookup k s := by
  have hput := h.put hplace hnew
  have hmem : ∀ x, x ∈ entries (KeyedSlots.put s i e) ↔ x = e ∨ x ∈ entries s := fun x => by
    rw [(entries_put hplace e).mem_iff, mem_cons]
  split
  · rename_i hkey
    rw [hput.mem_iff, hmem]
    exact .inl (by rw [hkey])
  rename_i hkey
  apply hput.ext_lookup h
  intro a
  rw [hmem, or_iff_right]
  rintro rfl
  exact hkey rfl

lemma Unique.lookup_free (h : Unique s) {e : K × A} (hi : s[i]? = some (some e)) (k : K) :
    lookup k (KeyedSlots.free s i) =
      if k = e.1 then none else lookup k s := by
  have hperm := entries_free hi
  obtain ⟨hfree, hgone⟩ := h.of_perm hperm
  split
  · rename_i hkey
    rw [hkey, lookup_eq_none]
    exact hgone
  rename_i hkey
  apply hfree.ext_lookup h
  intro a
  rw [hperm.mem_iff, mem_cons, or_iff_right]
  rintro rfl
  exact hkey rfl

end
end KeyedSlots
