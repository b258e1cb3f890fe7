/-
The integer arguments of system calls: the registers that the stubs of
`rw_ulib` pass them in, and the conversions of `syscall/mod.rs` that read the
registers.  The conversions take a register for an unsigned number.
-/
import Redwing.PageTable

namespace Redwing.SysArgs

open Vm

/-- The types that `impl_tryfrom_for` is used for. -/
inductive IntTy
  | isize | usize | i64 | u64 | i32 | u32 | i16 | u16 | i8 | u8
deriving DecidableEq

namespace IntTy

def bits : IntTy → Nat
  | isize | usize | i64 | u64 => 64
  | i32 | u32 => 32
  | i16 | u16 => 16
  | i8 | u8 => 8

def signed : IntTy → Bool
  | isize | i64 | i32 | i16 | i8 => true
  | usize | u64 | u32 | u16 | u8 => false

def name : IntTy → String
  | isize => "isize" | usize => "usize" | i64 => "i64" | u64 => "u64"
  | i32 => "i32" | u32 => "u32" | i16 => "i16" | u16 => "u16"
  | i8 => "i8" | u8 => "u8"

def min (ty : IntTy) : Int := if ty.signed then -2 ^ (ty.bits - 1) else 0

def max (ty : IntTy) : Int :=
  if ty.signed then 2 ^ (ty.bits - 1) - 1 else 2 ^ ty.bits - 1

/-- The values of the type. -/
@[ext] structure Value (ty : IntTy) where
  val : Int
  min_le : ty.min ≤ val
  le_max : val ≤ ty.max
deriving DecidableEq

lemma min_le_zero (ty : IntTy) : ty.min ≤ 0 := by cases ty <;> decide

end IntTy

/-- The register of an argument under the RISC-V calling convention: a value of
up to 32 bits is widened by its own sign to 32 bits and then sign-extended. -/
def register (ty : IntTy) (v : ty.Value) : BitVec 64 :=
  if ty.bits = 64 then BitVec.ofInt 64 v.val
  else (BitVec.ofInt 32 v.val).signExtend 64

/-- `TryFrom<SysArg>`: the conversion from `u64`, with its own error. -/
def tryFrom (ty : IntTy) (value : BitVec 64) : Except SysError ty.Value :=
  if h : (value.toNat : Int) ≤ ty.max then
    .ok ⟨value.toNat, ty.min_le_zero.trans (Int.natCast_nonneg _), h⟩
  else
    .error ⟨.invalidArgument, some ("can not convert a number to " ++
      s!"{ty.name}: {value.toNat}({hex value.toNat})")⟩

lemma register_eq_ofInt (ty : IntTy) (v : ty.Value) : register ty v =
    BitVec.ofInt 64 (if ty.bits = 64 then v.val else v.val.bmod (2 ^ 32)) := by
  rw [register]
  split
  · rfl
  · rw [BitVec.signExtend, BitVec.toInt_ofInt]

lemma tryFrom_eq_ok_iff : tryFrom ty value = .ok v ↔ (value.toNat : Int) = v.val := by
  rw [tryFrom]
  split
  · rw [Except.ok.injEq]
    exact IntTy.Value.ext_iff
  · rename_i h
    refine iff_of_false (fun hok => nomatch hok) fun heq => h ?_
    rw [heq]
    exact v.le_max

/-- An argument comes back unchanged exactly when it is not negative and, as a
`u32`, has its upper bit clear. -/
theorem sysArg_round_trip_iff (ty : IntTy) (v : ty.Value) : tryFrom ty (register ty v) = .ok v ↔
      0 ≤ v.val ∧ (ty = .u32 → v.val < 2 ^ 31) := by
  rw [tryFrom_eq_ok_iff, register_eq_ofInt, BitVec.toNat_ofInt,
    Int.toNat_of_nonneg (Int.emod_nonneg _ (by decide)), Int.bmod_def]
  obtain ⟨v, hlo, hhi⟩ := v
  cases ty <;>
    simp only [IntTy.min, IntTy.max, IntTy.bits, IntTy.signed, if_true,
      Bool.false_eq_true, if_false, Nat.reduceEqDiff, reduceCtorEq,
      false_implies, and_true, true_implies] at hlo hhi ⊢ <;>
    omega

def IntTy.minusOne (ty : IntTy) (h : ty.min ≤ -1 := by decide) : ty.Value :=
  ⟨-1, h, by cases ty <;> decide⟩

/-- Neither a seek by -1 nor the exit status -1 gets to the kernel. -/
theorem minusOne_not_passed : tryFrom .i64 (register .i64 (IntTy.minusOne .i64)) =
        .error ⟨.invalidArgument, some ("can not convert a number to i64: " ++
          "18446744073709551615(0xffffffffffffffff)")⟩ ∧
      tryFrom .i32 (register .i32 (IntTy.minusOne .i32)) ≠ .ok (IntTy.minusOne .i32) := by
  refine ⟨by decide +kernel, ?_⟩
  rw [Ne, tryFrom_eq_ok_iff]
  decide

end Redwing.SysArgs
