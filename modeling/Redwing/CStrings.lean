/-
Byte strings in a memory of which some addresses can be read: which bytes
stand where, words, strings that end with a zero byte, and tables of such
strings one after the other.
-/
import Redwing.LittleEndian

namespace CStrings

/-- What a load from each address returns; `none` where it faults. -/
abbrev Memory := Nat → Option UInt8

/-- The bytes stand at `addr`. -/
def Holds (mem : Memory) (addr : Nat) (bytes : List UInt8) : Prop :=
  ∀ i b, bytes[i]? = some b → mem (addr + i) = some b

section

variable {mem : Memory} {addr : Nat} {b : UInt8} {bytes rest : List UInt8}

lemma holds_cons : Holds mem addr (b :: bytes) ↔
    mem addr = some b ∧ Holds mem (addr + 1) bytes := by
  constructor
  · intro h
    refine ⟨h 0 b rfl, fun i c hi => ?_⟩
    have hnext := h (i + 1) c hi
    rwa [add_right_comm]
  rintro ⟨hhead, htail⟩ i c hi
  cases i with
  | zero =>
    cases hi
    exact hhead
  | succ i =>
    have hnext := htail i c hi
    rwa [add_right_comm] at hnext

lemma holds_append : Holds mem addr (bytes ++ rest) ↔
    Holds mem addr bytes ∧ Holds mem (addr + bytes.length) rest := by
  induction bytes generalizing addr with
  | nil => simp [Holds]
  | cons b bytes ih =>
    rw [List.cons_append, holds_cons, holds_cons, ih, and_assoc,
      List.length_cons, add_right_comm, ← add_assoc]

lemma Holds.congr {mem' : Memory} (h : Holds mem addr bytes)
    (hsame : ∀ a, addr ≤ a → a < addr + bytes.length → mem' a = mem a) : Holds mem' addr bytes := by
  intro i b hb
  have hi := (List.getElem?_eq_some_iff.mp hb).1
  rw [hsame (addr + i) (Nat.le_add_right _ _) (Nat.add_lt_add_left hi addr)]
  exact h i b hb

end

/-- The bytes from `addr` on. -/
def slice (mem : Memory) : Nat → Nat → Option (List UInt8)
  | _, 0 => some []
  | addr, len + 1 =>
    match mem addr with
    | none => none
    | some b => (slice mem (addr + 1) len).map (b :: ·)

/-- The bytes of a 64-bit number, least significant first. -/
def wordBytes (value : Nat) : List UInt8 := (List.range 8).map (Bytes.leBytes value)

/-- Load a 64-bit number. -/
def loadWord (mem : Memory) (addr : Nat) : Option Nat :=
  (slice mem addr 8).map fun bytes => Bytes.leValue 8 fun i => bytes.getD i 0

/-- How many bytes precede the first zero byte.  `fuel` is the size of the
memory. -/
def strlen (mem : Memory) : Nat → Nat → Option Nat
  | 0, _ => none
  | fuel + 1, addr =>
    match mem addr with
    | none => none
    | some b =>
      if b = 0 then some 0
      else (strlen mem fuel (addr + 1)).map (· + 1)

/-- Strings one after the other, each with its zero byte. -/
def terminated (strings : List (List UInt8)) : List UInt8 := strings.flatMap fun s => s ++ [0]

/-- Read `count` strings that stand one after the other. -/
def loadStrings (mem : Memory) (fuel : Nat) : Nat → Nat → Option (List (List UInt8))
  | 0, _ => some []
  | count + 1, addr =>
    match strlen mem fuel addr with
    | none => none
    | some len =>
      match slice mem addr len with
      | none => none
      | some s => (loadStrings mem fuel count (addr + len + 1)).map (s :: ·)

section

variable {mem : Memory} {addr : Nat} {bytes : List UInt8}

lemma slice_of_holds (h : Holds mem addr bytes) : slice mem addr bytes.length = some bytes := by
  induction bytes generalizing addr with
  | nil => rfl
  | cons b bytes ih =>
    obtain ⟨hhead, htail⟩ := holds_cons.mp h
    simp [slice, hhead, ih htail]

lemma length_wordBytes (value : Nat) : (wordBytes value).length = 8 := by simp [wordBytes]

lemma loadWord_of_holds {value : Nat} (hlt : value < 2 ^ 64)
    (h : Holds mem addr (wordBytes value)) : loadWord mem addr = some value := by
  have hslice := slice_of_holds h
  rw [length_wordBytes] at hslice
  rw [loadWord, hslice, Option.map_some, Option.some.injEq]
  calc Bytes.leValue 8 (fun i => (wordBytes value).getD i 0)
      = Bytes.leValue 8 (Bytes.leBytes value) := by
        apply Bytes.leValue_congr
        intro i hi
        simp [wordBytes, hi]
    _ = value := Bytes.leValue_leBytes_of_lt (by omega)

lemma strlen_of_holds {s : List UInt8} {fuel : Nat} (hfuel : s.length < fuel) (hzero : 0 ∉ s)
    (h : Holds mem addr (s ++ [0])) : strlen mem fuel addr = some s.length := by
  induction s generalizing addr fuel with
  | nil =>
    obtain ⟨fuel, rfl⟩ := Nat.exists_eq_add_one_of_ne_zero (Nat.ne_zero_of_lt hfuel)
    have hend := (holds_cons.mp h).1
    simp [strlen, hend]
  | cons b s ih =>
    obtain ⟨fuel, rfl⟩ := Nat.exists_eq_add_one_of_ne_zero (Nat.ne_zero_of_lt hfuel)
    obtain ⟨hhead, htail⟩ := holds_cons.mp h
    have hb : b ≠ 0 := fun hb => hzero (hb ▸ List.mem_cons_self)
    have hrest := ih (Nat.lt_of_succ_lt_succ hfuel)
      (fun hmem => hzero (List.mem_cons_of_mem b hmem)) htail
    simp [strlen, hhead, hb, hrest]

lemma loadStrings_of_holds {strings : List (List UInt8)} {fuel : Nat} (hzero : ∀ s ∈ strings, 0 ∉ s)
    (hfuel : (terminated strings).length ≤ fuel) (h : Holds mem addr (terminated strings)) :
    loadStrings mem fuel strings.length addr = some strings := by
  induction strings generalizing addr with
  | nil => rfl
  | cons s strings ih =>
    have hsplit : terminated (s :: strings) = (s ++ [0]) ++ terminated strings := List.flatMap_cons
    rw [hsplit, List.length_append, List.length_append, List.length_singleton] at hfuel
    rw [hsplit, holds_append, List.length_append, List.length_singleton, ← add_assoc] at h
    have hlen := strlen_of_holds (by omega : s.length < fuel) (hzero s List.mem_cons_self) h.1
    have hslice := slice_of_holds (holds_append.mp h.1).1
    have hrest := ih (fun t ht => hzero t (List.mem_cons_of_mem s ht)) (by omega) h.2
    simp [loadStrings, hlen, hslice, hrest]

end
end CStrings
