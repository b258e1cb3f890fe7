/-
The interrupt bookkeeping of one CPU: nested `push_off`/`pop_off` sections and
the save/restore pair used by `lock_irq_save`.
-/
import Mathlib.Logic.Basic

namespace Redwing

/-- The part of `struct CPU` that `push_off` and `pop_off` maintain, together
with the interrupt-enable bit of the hart. -/
structure Cpu where
  intr : Bool
  depthOff : Nat
  intena : Bool
deriving DecidableEq

namespace Cpu

/-- `intr_off_store`: the previous enable bit, with interrupts now off. -/
def intrOffStore (cpu : Cpu) : Bool × Cpu := (cpu.intr, { cpu with intr := false })

def intrRestore (cpu : Cpu) (flag : Bool) : Cpu := { cpu with intr := flag }

/-- `push_off`: only the outermost section records the enable bit. -/
def pushOff (cpu : Cpu) : Cpu :=
  let (state, cpu) := cpu.intrOffStore
  let cpu := if cpu.depthOff = 0 then { cpu with intena := state } else cpu
  { cpu with depthOff := cpu.depthOff + 1 }

/-- `pop_off`: an unmatched call logs an error and enables interrupts. -/
def popOff (cpu : Cpu) : Cpu :=
  if cpu.depthOff = 0 then { cpu with intr := true }
  else
    let cpu := { cpu with depthOff := cpu.depthOff - 1 }
    if cpu.depthOff = 0 ∧ cpu.intena = true then { cpu with intr := true }
    else cpu

section

variable {cpu : Cpu}

@[simp] lemma pushOff_depthOff : cpu.pushOff.depthOff = cpu.depthOff + 1 := by
  by_cases h : cpu.depthOff = 0 <;> simp [pushOff, intrOffStore, h]

@[simp] lemma pushOff_intr : cpu.pushOff.intr = false := by
  by_cases h : cpu.depthOff = 0 <;> simp [pushOff, intrOffStore, h]

lemma pushOff_intena (h : 0 < cpu.depthOff) : cpu.pushOff.intena = cpu.intena := by
  simp [pushOff, intrOffStore, Nat.ne_of_gt h]

lemma pushOff_intena_of_outermost (h : cpu.depthOff = 0) : cpu.pushOff.intena = cpu.intr := by
  simp [pushOff, intrOffStore, h]

@[simp] lemma popOff_depthOff : cpu.popOff.depthOff = cpu.depthOff - 1 := by
  simp only [popOff]
  split
  · next h => simp [h]
  · split <;> rfl

@[simp] lemma popOff_intena : cpu.popOff.intena = cpu.intena := by
  simp only [popOff]
  split
  · rfl
  · split <;> rfl

lemma popOff_intr_of_inner (h : 1 < cpu.depthOff)
    (hoff : cpu.intr = false) : cpu.popOff.intr = false := by
  have hne : cpu.depthOff ≠ 0 := by omega
  have hne' : cpu.depthOff - 1 ≠ 0 := by omega
  simp [popOff, hne, hne', hoff]

lemma popOff_intr_of_outermost (h : cpu.depthOff = 1)
    (hoff : cpu.intr = false) : cpu.popOff.intr = cpu.intena := by
  cases hintena : cpu.intena <;> simp [popOff, h, hoff, hintena]

lemma popOff_off (hoff : 0 < cpu.depthOff → cpu.intr = false)
    (h : 0 < cpu.popOff.depthOff) : cpu.popOff.intr = false := by
  rw [popOff_depthOff] at h
  exact popOff_intr_of_inner (by omega) (hoff (by omega))

end
end Cpu
end Redwing
