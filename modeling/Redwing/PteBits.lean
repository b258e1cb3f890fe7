/-
The packed entries of `arch/riscv64/pgtable.rs`, 64 bits with ten flags below
the number of the physical page, and the entries of the page tables as records
that they stand for.
-/
import Redwing.PageTable

namespace Redwing.Vm

open BitVec

abbrev PteBits := BitVec 64

def pteValid : BitVec 64 := 1#64
def pteRead : BitVec 64 := 1#64 <<< 1
def pteWrite : BitVec 64 := 1#64 <<< 2
def pteExec : BitVec 64 := 1#64 <<< 3
def pteUser : BitVec 64 := 1#64 <<< 4

def flagsMask : BitVec 64 := (1#64 <<< 10) - 1#64

def setFlag (flag : BitVec 64) (value : Bool) (e : PteBits) : PteBits :=
  if value then e ||| flag else e &&& ~~~flag

namespace PteBits

def isValid (e : PteBits) : Bool := e &&& pteValid != 0#64
def isWritable (e : PteBits) : Bool := e &&& pteWrite != 0#64
def isReadable (e : PteBits) : Bool := e &&& pteRead != 0#64
def isUser (e : PteBits) : Bool := e &&& pteUser != 0#64
def isExecutable (e : PteBits) : Bool := e &&& pteExec != 0#64

section

variable (e : PteBits)

def setValid (valid : Bool) : PteBits := setFlag pteValid valid e

def setWritable (writable : Bool) : PteBits := setFlag pteWrite writable e

def setReadable (readable : Bool) : PteBits := setFlag pteRead readable e

def setUser (user : Bool) : PteBits := setFlag pteUser user e

def setExecutable (executable : Bool) : PteBits := setFlag pteExec executable e

def physicalPageNum : BitVec 64 := e >>> 10

def physicalAddr : BitVec 64 := e.physicalPageNum * 4096#64

/-- `set_physical_addr` keeps the flags; its assertion fails with `none`. -/
def setPhysicalAddr (addr : BitVec 64) : Option PteBits :=
  if addr % 4096#64 = 0#64 ∧ addr ≠ 0#64 then some ((e &&& flagsMask) ||| ((addr / 4096#64) <<< 10))
  else none

def isPageTable : Bool := e &&& (pteRead ||| pteWrite ||| pteExec ||| pteValid) == pteValid

end

def makePde (tableAddr : BitVec 64) : PteBits := ((tableAddr / 4096#64) <<< 10) ||| pteValid

def applyPerm (e : PteBits) (perm : EntryPerm) : PteBits :=
  ((((e.setValid perm.valid).setWritable perm.writable).setReadable
    perm.readable).setUser perm.user).setExecutable perm.executable

def perm (e : PteBits) : EntryPerm where
  valid := e.isValid
  writable := e.isWritable
  readable := e.isReadable
  user := e.isUser
  executable := e.isExecutable

end PteBits

/-! ### Bits -/

section

variable {e : PteBits} {i : Nat}

lemma pteValid_eq : pteValid = twoPow 64 0 := by decide
lemma pteRead_eq : pteRead = twoPow 64 1 := by decide
lemma pteWrite_eq : pteWrite = twoPow 64 2 := by decide
lemma pteExec_eq : pteExec = twoPow 64 3 := by decide
lemma pteUser_eq : pteUser = twoPow 64 4 := by decide

lemma and_twoPow_ne_zero (hi : i < 64) : (e &&& twoPow 64 i != 0#64) = e.getLsbD i := by
  have hne : twoPow 64 i ≠ 0#64 := by
    intro heq
    have hbit := congrArg (fun x => x.getLsbD i) heq
    simp [hi] at hbit
  rw [and_twoPow]
  cases e.getLsbD i with
  | false => simp
  | true => simp [hne]

lemma getLsbD_setFlag (hj : j < 64) : (setFlag (twoPow 64 i) value e).getLsbD j =
      if j = i then value else e.getLsbD j := by
  by_cases heq : j = i
  · subst heq
    cases value with
    | false => simp [setFlag]
    | true => simp [setFlag, hj]
  have hne : ¬ i = j := fun h => heq h.symm
  cases value with
  | false => simp [setFlag, heq, hj]
  | true => simp [setFlag, heq, hne]

lemma getLsbD_flagsMask : flagsMask.getLsbD j = decide (j < 10) := by
  have hmask : flagsMask = setWidth 64 (allOnes 10) := by decide
  rw [hmask, getLsbD_setWidth, getLsbD_allOnes, Bool.and_eq_right_iff_imp]
  simp only [decide_eq_true_eq]
  omega

lemma udiv_4096 (addr : BitVec 64) : addr / 4096#64 = addr >>> 12 := by
  apply eq_of_toNat_eq
  rw [toNat_udiv, toNat_ushiftRight, Nat.shiftRight_eq_div_pow]
  rfl

lemma physicalPageNum_eq {n : BitVec 64} (hlow : ∀ j, j < 54 → e.getLsbD (10 + j) = n.getLsbD j)
    (hhigh : ∀ j, 54 ≤ j → n.getLsbD j = false) : e.physicalPageNum = n := by
  apply eq_of_getLsbD_eq
  intro j _
  rw [PteBits.physicalPageNum, getLsbD_ushiftRight]
  by_cases hj : j < 54
  · exact hlow j hj
  · rw [hhigh j (by omega), getLsbD_of_ge _ _ (by omega)]

lemma physicalPageNum_high (hj : 54 ≤ j) : e.physicalPageNum.getLsbD j = false := by
  rw [PteBits.physicalPageNum, getLsbD_ushiftRight, getLsbD_of_ge _ _ (by omega)]

lemma perm_eq (e : PteBits) : e.perm =
    { valid := e.getLsbD 0
      writable := e.getLsbD 2
      readable := e.getLsbD 1
      user := e.getLsbD 4
      executable := e.getLsbD 3 } := by
  simp only [PteBits.perm, PteBits.isValid, PteBits.isWritable, PteBits.isReadable, PteBits.isUser,
    PteBits.isExecutable, pteValid_eq, pteRead_eq, pteWrite_eq, pteExec_eq, pteUser_eq]
  rw [and_twoPow_ne_zero (by decide), and_twoPow_ne_zero (by decide),
    and_twoPow_ne_zero (by decide), and_twoPow_ne_zero (by decide), and_twoPow_ne_zero (by decide)]

end

/-! ### The entries that the bits stand for -/

def PteBits.decode (e : PteBits) : Pte where
  ppn := e.physicalPageNum.toNat
  perm := e.perm

section

variable {e : PteBits} {addr : BitVec 64}

lemma decode_isValid (e : PteBits) : e.decode.isValid = e.isValid := rfl

lemma physicalPageNum_setFlag {i : Nat} (hi : i < 10) (e : PteBits) :
    PteBits.physicalPageNum (setFlag (twoPow 64 i) value e) =
      e.physicalPageNum := by
  apply physicalPageNum_eq
  · intro j hj
    rw [getLsbD_setFlag (by omega), if_neg (by omega), PteBits.physicalPageNum, getLsbD_ushiftRight]
  · exact fun j => physicalPageNum_high

lemma decode_applyPerm (e : PteBits) (perm : EntryPerm) :
    (e.applyPerm perm).decode = e.decode.setPerm perm := by
  have hperm : (e.applyPerm perm).perm = perm := by
    rw [perm_eq]
    simp only [PteBits.applyPerm, PteBits.setValid, PteBits.setWritable,
      PteBits.setReadable, PteBits.setUser, PteBits.setExecutable, pteValid_eq,
      pteRead_eq, pteWrite_eq, pteExec_eq, pteUser_eq]
    simp (disch := decide) only [getLsbD_setFlag]
    rfl
  have hnum : (e.applyPerm perm).physicalPageNum = e.physicalPageNum := by
    simp only [PteBits.applyPerm, PteBits.setValid, PteBits.setWritable,
      PteBits.setReadable, PteBits.setUser, PteBits.setExecutable, pteValid_eq,
      pteRead_eq, pteWrite_eq, pteExec_eq, pteUser_eq]
    rw [physicalPageNum_setFlag (by decide), physicalPageNum_setFlag (by decide),
      physicalPageNum_setFlag (by decide), physicalPageNum_setFlag (by decide),
      physicalPageNum_setFlag (by decide)]
  rw [PteBits.decode, hperm, hnum]
  rfl

lemma physicalPageNum_or {low : BitVec 64} (hlow : ∀ j, 10 ≤ j → low.getLsbD j = false) :
    PteBits.physicalPageNum (low ||| ((addr / 4096#64) <<< 10)) = addr / 4096#64 := by
  rw [udiv_4096]
  apply physicalPageNum_eq
  · intro j hj
    rw [getLsbD_or, hlow _ (by omega), getLsbD_shiftLeft]
    simp
    omega
  · intro j hj
    rw [getLsbD_ushiftRight, getLsbD_of_ge _ _ (by omega)]

lemma low_bits {x n : BitVec 64} {j : Nat} (hj : j < 10) :
    (x ||| (n <<< 10)).getLsbD j = x.getLsbD j := by
  rw [getLsbD_or, getLsbD_shiftLeft]
  simp [hj]

lemma frame_iff (addr : BitVec 64) : addr % 4096#64 = 0#64 ∧ addr ≠ 0#64 ↔
    addr.toNat % 4096 = 0 ∧ addr.toNat ≠ 0 := by
  rw [← toNat_inj, toNat_umod, ne_eq, ← toNat_inj]
  rfl

lemma decode_setPhysicalAddr (e : PteBits) (addr : BitVec 64) :
    (e.setPhysicalAddr addr).map PteBits.decode = e.decode.setPhysicalAddr addr.toNat := by
  rw [PteBits.setPhysicalAddr, Pte.setPhysicalAddr]
  by_cases hframe : addr.toNat % 4096 = 0 ∧ addr.toNat ≠ 0
  · rw [if_pos hframe, if_pos ((frame_iff addr).mpr hframe), Option.map_some,
      PteBits.decode, physicalPageNum_or, toNat_udiv, perm_eq]
    · rw [low_bits (by decide), low_bits (by decide), low_bits (by decide),
        low_bits (by decide), low_bits (by decide)]
      simp only [getLsbD_and, getLsbD_flagsMask, Nat.reduceLT,
        decide_true, Bool.and_true, PteBits.decode, perm_eq]
      rfl
    · intro j hj
      rw [getLsbD_and, getLsbD_flagsMask, decide_eq_false (by omega), Bool.and_false]
  · rw [if_neg hframe, if_neg fun h => hframe ((frame_iff addr).mp h)]
    rfl

lemma decode_makePde (addr : BitVec 64) : (PteBits.makePde addr).decode = .makePde addr.toNat := by
  rw [PteBits.makePde, BitVec.or_comm, PteBits.decode, physicalPageNum_or,
    BitVec.toNat_udiv, perm_eq]
  · rw [low_bits (by decide), low_bits (by decide), low_bits (by decide),
      low_bits (by decide), low_bits (by decide)]
    rfl
  intro j hj
  rw [pteValid_eq, BitVec.getLsbD_twoPow]
  simp
  omega

lemma makePde_isPageTable : (PteBits.makePde addr).isPageTable = true := by
  have hmask : pteRead ||| pteWrite ||| pteExec ||| pteValid =
      BitVec.setWidth 64 (BitVec.allOnes 4) := by decide
  rw [PteBits.isPageTable, beq_iff_eq, PteBits.makePde, BitVec.or_comm, hmask]
  apply BitVec.eq_of_getLsbD_eq
  intro j hj
  rw [BitVec.getLsbD_and, BitVec.getLsbD_setWidth, BitVec.getLsbD_allOnes,
    pteValid_eq, BitVec.getLsbD_twoPow]
  by_cases hlow : j < 10
  · rw [low_bits hlow, BitVec.getLsbD_twoPow, Bool.and_eq_left_iff_imp]
    simp only [Bool.and_eq_true, decide_eq_true_eq]
    omega
  · rw [decide_eq_false (by omega : ¬ j < 4), decide_eq_false (by omega : ¬ 0 = j)]
    simp

lemma toNat_physicalAddr (hnum : e.physicalPageNum.toNat < 2 ^ 52) :
    e.physicalAddr.toNat = e.decode.physicalAddr := by
  rw [PteBits.physicalAddr, toNat_mul]
  exact Nat.mod_eq_of_lt (by
    simp only [toNat_ofNat]
    omega)

lemma physicalAddr_eq (hppn : e.decode.ppn = addr.toNat / 4096)
    (haligned : addr % 4096#64 = 0#64) : e.physicalAddr = addr := by
  have hmod : addr.toNat % 4096 = 0 := by
    have hnat := congrArg BitVec.toNat haligned
    rwa [BitVec.toNat_umod] at hnat
  have hlt := addr.isLt
  have hppn : e.physicalPageNum.toNat = addr.toNat / 4096 := hppn
  apply eq_of_toNat_eq
  rw [toNat_physicalAddr (by omega), Pte.physicalAddr]
  change e.physicalPageNum.toNat * 4096 = addr.toNat
  omega

end
end Redwing.Vm
