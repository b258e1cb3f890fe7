/-
The entries of a page table in memory: where they are, and that the range
iterator yields them in the order of the pages.
-/
import Redwing.SharedTables
import Redwing.PageTableRange

namespace Redwing.Shared

open Vm Walks List

section

variable (t : PageTable) (level k : Nat)

def tableOf : Nat :=
  if level = 2 then t.root else (t.entry (level + 1) (k / 512)).physicalAddr

def refOf : PteRef := ⟨tableOf t level k, k % 512⟩

def Present : Prop := level < 2 → (t.entry (level + 1) (k / 512)).isValid = true

end

lemma present_two : Present t 2 k := fun hlt => absurd hlt (lt_irrefl 2)

section

variable {m : Phys} {level : Nat}

lemma endIdx_le (level endVa : Nat) : endIdx level endVa isLast ≤ 512 := by
  cases isLast with
  | false => exact le_rfl
  | true =>
    have hindex : ∀ n, n &&& 511 < 512 := by
      intro n
      rw [show 511 = 2 ^ 9 - 1 from rfl, Nat.and_two_pow_sub_one_eq_mod]
      exact Nat.mod_lt _ (by decide)
    simp only [endIdx, upperBoundIndexForVa, if_true]
    have hlt := hindex (endVa >>> shift level)
    split
    · exact hlt
    · exact le_of_lt hlt

lemma refOf_index (hpg : 512 ^ (level + 1) ∣ pg) (hidx : idx < 512)
    (hpresent : Present t level (pg / 512 ^ level))
    (htable : tableOf t level (pg / 512 ^ level) = table) : Present t level
    (pg / 512 ^ level + idx) ∧ refOf t level (pg / 512 ^ level + idx) = ⟨table, idx⟩ := by
  constructor
  · rw [Present, key_div hpg hidx]
    exact hpresent
  · rw [refOf, key_mod hpg hidx, ← htable, tableOf, tableOf, key_div hpg hidx]

lemma below_index (hlevel : level < 2) (hpg : 512 ^ (level + 2) ∣ pg)
    (he : t.lookup (level + 1) (pg / 512 ^ (level + 1) + idx) = some e) :
    512 ^ (level + 1) ∣ pg + idx * 512 ^ (level + 1) ∧
    (∀ i, i < 512 → ((pg + idx * 512 ^ (level + 1)) / 512 ^ level + i) / 512 =
        pg / 512 ^ (level + 1) + idx) ∧
    Present t level ((pg + idx * 512 ^ (level + 1)) / 512 ^ level) ∧
    tableOf t level ((pg + idx * 512 ^ (level + 1)) / 512 ^ level) =
      e.physicalAddr := by
  have hdvd : 512 ^ (level + 1) ∣ pg + idx * 512 ^ (level + 1) :=
    Nat.dvd_add ((Nat.pow_dvd_pow 512 (by omega)).trans hpg) (Nat.dvd_mul_left _ _)
  have hparent : (pg + idx * 512 ^ (level + 1)) / 512 ^ level / 512 =
      pg / 512 ^ (level + 1) + idx := by
    rw [Nat.div_div_eq_div_mul, ← pow_succ, Nat.add_mul_div_right _ _ (Nat.pow_pos (by decide))]
  obtain ⟨hvalid, rfl⟩ := PageTable.lookup_eq_some.mp he
  refine ⟨hdvd, ?_, ?_, ?_⟩
  · intro i hi
    rw [key_div hdvd hi, hparent]
  · intro _
    rw [hparent]
    exact hvalid
  · rw [tableOf, if_neg (by omega), hparent]

lemma rangeIter_map (part : Nat → Nat → Prop)
    (hpart : ∀ level k, level < 2 → part (level + 1) (k / 512) → part level k)
    (h : ∀ level k, part level k → Present t level k → m.pte (refOf t level k) = t.entry level k)
    (hlevel : level < 3)
    (hpg : 512 ^ (level + 1) ∣ pg)
    (hin : ∀ idx, startIdx level startVa isFirst ≤ idx → idx < 512 →
      part level (pg / 512 ^ level + idx))
    (hpresent : Present t level (pg / 512 ^ level))
    (htable : tableOf t level (pg / 512 ^ level) = table) :
    rangeIter m level table (pg * 4096) startVa endVa isFirst isLast =
      (Vm.rangeIter t level (pg * 4096) startVa endVa isFirst isLast).map
        fun va => (va, refOf t 0 (key 0 va)) := by
  induction level generalizing pg table isFirst isLast with
  | zero =>
    have hentry : ∀ idx ∈ interval (startIdx 0 startVa isFirst) (endIdx 0 endVa isLast),
        refOf t 0 (key 0 (pg * 4096 ||| vaForIndex 0 idx)) = ⟨table, idx⟩ ∧
        m.pte ⟨table, idx⟩ = t.entry 0 (key 0 (pg * 4096 ||| vaForIndex 0 idx)) := by
      intro idx hidx
      rw [mem_interval] at hidx
      have hlt := lt_of_lt_of_le hidx.2 (endIdx_le 0 endVa)
      obtain ⟨hpresent', href⟩ := refOf_index hpg hlt hpresent htable
      rw [key_of_index hpg hlt, ← href]
      exact ⟨rfl, h 0 _ (hin idx hidx.1 hlt) hpresent'⟩
    rw [rangeIter, Vm.rangeIter, filter_map, filter_map, map_map]
    simp only [Function.comp_def]
    rw [filter_congr (fun idx hidx => congrArg Pte.isValid (hentry idx hidx).2)]
    apply map_congr_left
    intro idx hidx
    exact congrArg _ (hentry idx (mem_of_mem_filter hidx)).1.symm
  | succ level ih =>
    rw [rangeIter, Vm.rangeIter, map_flatMap]
    apply flatMap_congr
    intro idx hidx
    rw [mem_interval] at hidx
    have hlt := lt_of_lt_of_le hidx.2 (endIdx_le (level + 1) endVa)
    have hkey := hin idx hidx.1 hlt
    obtain ⟨hpresent', href⟩ := refOf_index hpg hlt hpresent htable
    have hpte := h (level + 1) _ hkey hpresent'
    rw [href] at hpte
    simp only [hpte, key_of_index hpg hlt]
    split
    · rename_i hvalid
      obtain ⟨hdvd, hparent, hpresent'', htable'⟩ := below_index (by omega)
        hpg (PageTable.lookup_eq_some.mpr ⟨hvalid, rfl⟩)
      rw [baseVa_or_vaForIndex hpg hlt]
      exact ih (by omega) hdvd (fun i _ hi => hpart _ _ (by omega) ((hparent i hi).symm ▸ hkey))
        hpresent'' htable'
    · rfl

end
end Redwing.Shared
