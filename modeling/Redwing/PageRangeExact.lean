/-
What the range iterator of `arch/riscv64/pgtable.rs` yields, for every page
table: the mapped pages of the range, without those of the last table when the
range ends with it.
-/
import Redwing.PageRangeIter
import Redwing.SharedWalks

namespace Redwing.Shared

open Vm Walks List

/-- The valid last-level entries of the pages of a range, in ascending order,
with the address that each of them maps. -/
def entriesIn (m : Phys) (root startPage endPage : Nat) : List (Nat × PteRef) :=
  (interval startPage endPage).filterMap fun page =>
    match getEntryMut m root (page * 4096) with
    | some (some r) => some (page * 4096, r)
    | _ => none

/-! ### The page table that lies in the memory -/

def entryUnder (m : Phys) (e : Pte) (k : Nat) : Pte :=
  if e.isValid then m.pte ⟨e.physicalAddr, k % 512⟩ else .zero

def treeEntry (m : Phys) (root : Nat) : Nat → Nat → Pte
  | 0, k => entryUnder m (entryUnder m (m.pte ⟨root, k / 512 / 512 % 512⟩) (k / 512)) k
  | 1, k => entryUnder m (m.pte ⟨root, k / 512 % 512⟩) k
  | _, k => m.pte ⟨root, k % 512⟩

def treeOf (m : Phys) (root : Nat) : PageTable where
  root
  entry := treeEntry m root

section

variable {m : Phys}

lemma treeEntry_under (hlevel : level < 2) : treeEntry m root level k =
    entryUnder m (treeEntry m root (level + 1) (k / 512)) k := by
  match level with
  | 0 => rfl
  | 1 => rfl

lemma treeOf_wf (root : Nat) : (treeOf m root).Wf := by
  intro level k hlevel hnone
  rw [PageTable.lookup_eq_none] at hnone ⊢
  simp only [treeOf] at hnone ⊢
  rw [treeEntry_under hlevel, entryUnder, hnone]
  rfl

lemma treeOf_repr (hlevel : level ≤ 2) (hpresent : Present (treeOf m root) level k) :
    m.pte (refOf (treeOf m root) level k) = (treeOf m root).entry level k := by
  by_cases htop : level = 2
  · subst htop
    rfl
  have hvalid := hpresent (by omega)
  rw [refOf, tableOf, if_neg htop]
  simp only [treeOf] at hvalid ⊢
  have hunder : treeEntry m root level k = _ := treeEntry_under (by omega)
  rw [hunder, entryUnder, if_pos hvalid]

lemma getEntryMut_eq (hpage : page < 134217728) : getEntryMut m root (page * 4096) =
    some (if (treeOf m root).mapped page then
      some (refOf (treeOf m root) 0 page) else none) := by
  have htop : indexForVa 2 (page * 4096) = page / 512 / 512 % 512 := by
    rw [indexForVa_page, Nat.div_div_eq_div_mul, Nat.pow_two]
  have hmid : indexForVa 1 (page * 4096) = page / 512 % 512 := indexForVa_page 1 page
  have hleaf : indexForVa 0 (page * 4096) = page % 512 := by
    rw [indexForVa_page, pow_zero, Nat.div_one]
  rw [getEntryMut, if_neg (by rw [vaLimit]; omega), htop, hmid, hleaf,
    PageTable.mapped, PageTable.lookup]
  have hzero : Pte.zero.isValid = false := rfl
  simp only [treeOf, treeEntry, entryUnder, refOf, tableOf]
  by_cases hfirst : (m.pte ⟨root, page / 512 / 512 % 512⟩).isValid = true
  · simp only [hfirst, Bool.not_true, if_true, Bool.false_eq_true, if_false]
    by_cases hsecond : (m.pte ⟨(m.pte ⟨root, page / 512 / 512 % 512⟩).physicalAddr,
        page / 512 % 512⟩).isValid = true
    · simp only [hsecond, Bool.not_true, if_true, Bool.false_eq_true, if_false]
      split <;> rfl
    · simp [hsecond, hzero]
  · simp [hfirst, hzero]

end

/-! ### The entries of a range -/

section

variable {m : Phys}

def mappedIn (m : Phys) (root startPage endPage : Nat) : List (Nat × PteRef) :=
  ((interval startPage endPage).filter (treeOf m root).mapped).map fun page =>
    (page * 4096, refOf (treeOf m root) 0 page)

lemma entriesIn_eq (hlimit : endPage < 134217728) :
    entriesIn m root startPage endPage = mappedIn m root startPage endPage := by
  rw [entriesIn, mappedIn, ← filterMap_eq_map, filterMap_filter]
  apply filterMap_congr
  intro page hpage
  rw [mem_interval] at hpage
  rw [getEntryMut_eq (by omega)]
  cases (treeOf m root).mapped page with
  | false => rfl
  | true => rfl

lemma rangeOfEntries_mappedIn (hle : startPage ≤ endPage) (hlimit : endPage < 134217728) :
    rangeOfEntries m root (startPage * 4096) (endPage * 4096) =
      mappedIn m root startPage (endPage - lastChunk endPage) := by
  have hiter : rangeIter m 2 root (0 * 4096) (startPage * 4096) (endPage * 4096) true true =
      (Vm.rangeOfEntries (treeOf m root) (startPage * 4096) (endPage * 4096)).map fun va =>
          (va, refOf (treeOf m root) 0 (key 0 va)) := by
    exact rangeIter_map (fun level _ => level ≤ 2) (fun level _ hlevel _ => by omega)
      (fun level k => treeOf_repr) (by omega) (dvd_zero _) (fun _ _ _ => le_rfl) present_two rfl
  rw [zero_mul] at hiter
  rw [rangeOfEntries, hiter, rangeOfEntries_eq (treeOf_wf root) hle hlimit, mappedIn, map_map]
  simp

lemma mappedIn_append (hlo : startPage ≤ mid) (hhi : mid ≤ endPage) :
    mappedIn m root startPage endPage =
      mappedIn m root startPage mid ++ mappedIn m root mid endPage := by
  rw [mappedIn, ← interval_append hlo hhi, filter_append, map_append]
  rfl

/-- The range iterator is exact unless a page of the last table is mapped when
the range ends with that table. -/
theorem collects_entriesIn_iff (m : Phys) (root startPage endPage : Nat)
    (hle : startPage ≤ endPage) (hlimit : endPage < 134217728) :
    Collects m (.new root (startPage * 4096) (endPage * 4096))
        (entriesIn m root startPage endPage) ↔
      ∀ page, startPage ≤ page → endPage - lastChunk endPage ≤ page →
        page < endPage → getEntryMut m root (page * 4096) = some none := by
  have hcut : mappedIn m root startPage (endPage - lastChunk endPage) = mappedIn m root startPage
        (max startPage (endPage - lastChunk endPage)) := by
    rw [mappedIn, mappedIn, interval_max]
  rw [collects_iff, rangeOfEntries_mappedIn hle hlimit, entriesIn_eq hlimit, hcut,
    mappedIn_append (le_max_left _ (endPage - lastChunk endPage)) (max_le hle (Nat.sub_le _ _)),
    append_right_eq_self, mappedIn, map_eq_nil_iff, filter_eq_nil_iff]
  constructor
  · intro hnone page hstart hend hlt
    have hpage := hnone page (mem_interval.mpr ⟨max_le hstart hend, hlt⟩)
    rw [getEntryMut_eq (by omega), if_neg hpage]
  intro hnone page hpage hmapped
  rw [mem_interval, max_le_iff] at hpage
  have hentry := hnone page hpage.1.1 hpage.1.2 hpage.2
  rw [getEntryMut_eq (by omega), if_pos hmapped] at hentry
  cases hentry

/-- A table at page 1 with a table at page 2 with one at page 3, whose last
entry maps a page. -/
def lastPageMapped : Phys where
  tables page idx :=
    if page = 4096 ∧ idx = 0 then .makePde 8192
    else if page = 8192 ∧ idx = 0 then .makePde 12288
    else if page = 12288 ∧ idx = 511 then { ppn := 4, perm := .onlyValid }
    else .zero
  heap := { issued := [], clock := 0, mem := fun _ _ => 0, badFree := false }
  touched := []

theorem collects_last_page_mapped : Collects lastPageMapped (.new 4096 (510 * 4096) (513 * 4096))
      [(511 * 4096, ⟨12288, 511⟩)] :=
  (collects_entriesIn_iff lastPageMapped 4096 510 513 (by decide)
    (by decide)).mpr fun page _ h _ => by
      have hchunk : lastChunk 513 = 0 := by decide
      omega

/-- A range that ends where the table of its last page ends. -/
theorem not_collects_last_page : ¬ Collects lastPageMapped (.new 4096 (511 * 4096) (512 * 4096))
      (entriesIn lastPageMapped 4096 511 512) := by
  rw [collects_iff]
  decide

end
end Redwing.Shared
