/-
Byte contents as functions from offsets, the little-endian numbers stored in
them, and the words of a table of 64-bit numbers.
-/
import Mathlib.Logic.Function.Basic
import Mathlib.Tactic.Ring

/-- The byte at each offset. -/
abbrev Bytes := Nat → UInt8

namespace Bytes

def zero : Bytes := fun _ => 0

/-- Copy `len` bytes of `src` to offset `start`. -/
def splice (bytes : Bytes) (start : Nat) (src : Bytes) (len : Nat) : Bytes :=
  fun offset =>
    if start ≤ offset ∧ offset < start + len then src (offset - start)
    else bytes offset

lemma splice_inside {bytes src : Bytes} {start len offset : Nat} (hle : start ≤ offset)
    (hlt : offset < start + len) : bytes.splice start src len offset = src (offset - start) :=
  if_pos ⟨hle, hlt⟩

lemma splice_outside {bytes src : Bytes} {start len offset : Nat}
    (hout : offset < start ∨ start + len ≤ offset) :
    bytes.splice start src len offset = bytes offset := by
  apply if_neg
  rintro ⟨hle, hlt⟩
  omega

/-- Value of the first `width` bytes, least significant first. -/
def leValue : Nat → Bytes → Nat
  | 0, _ => 0
  | width + 1, bytes => (bytes 0).toNat + 256 * leValue width (fun offset => bytes (offset + 1))

lemma leValue_lt (width : Nat) (bytes : Bytes) : leValue width bytes < 256 ^ width := by
  induction width generalizing bytes with
  | zero => exact Nat.one_pos
  | succ width ih =>
    have hbyte := (bytes 0).toNat_lt
    have hrest := ih fun offset => bytes (offset + 1)
    rw [leValue, Nat.pow_succ']
    omega

/-- The bytes of a number, least significant first. -/
def leBytes (value : Nat) : Bytes := fun offset => UInt8.ofNat (value / 256 ^ offset)

lemma leBytes_succ (value : Nat) :
    (fun offset => leBytes value (offset + 1)) = leBytes (value / 256) := by
  funext offset
  simp only [leBytes, Nat.pow_succ', Nat.div_div_eq_div_mul]

lemma leValue_leBytes (width value : Nat) :
    leValue width (leBytes value) = value % 256 ^ width := by
  induction width generalizing value with
  | zero => simp [leValue, Nat.mod_one]
  | succ width ih =>
    rw [leValue, leBytes_succ, ih, Nat.pow_succ', Nat.mod_mul]
    simp [leBytes]

lemma leValue_leBytes_of_lt {width value : Nat} (hlt : value < 256 ^ width) :
    leValue width (leBytes value) = value := by
  rw [leValue_leBytes, Nat.mod_eq_of_lt hlt]

lemma leValue_congr {width : Nat} {bytes bytes' : Bytes}
    (heq : ∀ offset < width, bytes offset = bytes' offset) :
    leValue width bytes = leValue width bytes' := by
  induction width generalizing bytes bytes' with
  | zero => rfl
  | succ width ih =>
    rw [leValue, leValue, heq 0 (Nat.succ_pos width)]
    rw [ih fun offset hlt => heq (offset + 1) (Nat.succ_lt_succ hlt)]

/-- The number at an index of a table of 64-bit numbers. -/
def word (bytes : Bytes) (index : Nat) : Nat := leValue 8 (fun offset => bytes (8 * index + offset))

def setWord (bytes : Bytes) (index value : Nat) : Bytes :=
  bytes.splice (8 * index) (leBytes value) 8

end Bytes
