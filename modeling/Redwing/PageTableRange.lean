/-
Which pages a range of virtual addresses visits.  The indices of
`arch/riscv64/pgtable.rs` are computed per level; put together they visit the
pages from the start of the range to its end, except for the last table when
the range ends where that table ends.
-/
import Redwing.PageTable
import Mathlib.Tactic.NormNum

namespace Redwing.Vm

open Walks List

section

lemma two_pow_shift (level : Nat) : 2 ^ shift level = 512 ^ level * 4096 := by
  rw [shift, Nat.pow_add, mul_comm level 9, Nat.pow_mul]

lemma key_page (level page : Nat) : key level (page * 4096) = page / 512 ^ level := by
  rw [key, Nat.shiftRight_eq_div_pow, two_pow_shift, Nat.mul_div_mul_right _ _ (by decide)]

@[simp] lemma key_zero_page (page : Nat) : key 0 (page * 4096) = page := by
  rw [key_page, pow_zero, Nat.div_one]

lemma indexForVa_page (level page : Nat) :
    indexForVa level (page * 4096) = page / 512 ^ level % 512 := by
  have hkey := key_page level page
  rw [key] at hkey
  rw [indexForVa, hkey]
  exact Nat.and_two_pow_sub_one_eq_mod _ 9

lemma upperBoundIndexForVa_page (level page : Nat) : upperBoundIndexForVa level (page * 4096) =
    page / 512 ^ level % 512 + if page % 512 ^ level = 0 then 0 else 1 := by
  have hindex := indexForVa_page level page
  rw [indexForVa] at hindex
  have hlow : page * 4096 &&& ((1 <<< shift level) - 1) = page % 512 ^ level * 4096 := by
    rw [Nat.one_shiftLeft, Nat.and_two_pow_sub_one_eq_mod, two_pow_shift, Nat.mul_mod_mul_right]
  simp only [upperBoundIndexForVa, hindex, hlow]
  by_cases hzero : page % 512 ^ level = 0
  · simp [hzero]
  · simp [hzero]

lemma baseVa_or_vaForIndex {level base idx : Nat}
    (hbase : 512 ^ (level + 1) ∣ base) (hidx : idx < 512) :
    base * 4096 ||| vaForIndex level idx = (base + idx * 512 ^ level) * 4096 := by
  obtain ⟨c, rfl⟩ := hbase
  have hhigh : 512 ^ (level + 1) * c * 4096 = (c <<< 9) <<< shift level := by
    rw [Nat.shiftLeft_eq, Nat.shiftLeft_eq, two_pow_shift, pow_succ]
    ring
  rw [vaForIndex, hhigh, ← Nat.shiftLeft_or_distrib,
    ← Nat.shiftLeft_add_eq_or_of_lt (by omega : idx < 2 ^ 9),
    Nat.shiftLeft_eq, Nat.shiftLeft_eq, two_pow_shift, pow_succ]
  ring

lemma key_of_index {level pg idx : Nat} (hpg : 512 ^ (level + 1) ∣ pg) (hidx : idx < 512) :
    key level (pg * 4096 ||| vaForIndex level idx) = pg / 512 ^ level + idx := by
  rw [baseVa_or_vaForIndex hpg hidx, key_page, Nat.add_mul_div_right _ _ (Nat.pow_pos (by decide))]

lemma key_div {level pg idx : Nat} (hpg : 512 ^ (level + 1) ∣ pg) (hidx : idx < 512) :
    (pg / 512 ^ level + idx) / 512 = pg / 512 ^ level / 512 := by
  obtain ⟨c, rfl⟩ := hpg
  rw [pow_succ, mul_assoc, Nat.mul_div_cancel_left _ (Nat.pow_pos (by decide))]
  omega

lemma key_mod {level pg idx : Nat} (hpg : 512 ^ (level + 1) ∣ pg) (hidx : idx < 512) :
    (pg / 512 ^ level + idx) % 512 = idx := by
  obtain ⟨c, rfl⟩ := hpg
  rw [pow_succ, mul_assoc, Nat.mul_div_cancel_left _ (Nat.pow_pos (by decide))]
  omega

end

/-- How many pages at the end of a range that ends before `endPage` the walk
over a table of `level` leaves out: the whole last table when the range ends
where this table ends. -/
def skipped : Nat → Nat → Nat
  | 0, endPage => if 512 ∣ endPage then 512 else 0
  | level + 1, endPage =>
    if 512 ^ (level + 2) ∣ endPage then 512 ^ (level + 2)
    else skipped level endPage

lemma skipped_dvd (level endPage : Nat) : skipped level endPage = 0 ∨
    (skipped level endPage ∣ endPage ∧ skipped level endPage ∣ 512 ^ (level + 1)) := by
  induction level with
  | zero =>
    by_cases hdvd : 512 ∣ endPage
    · exact .inr (by simp [skipped, hdvd])
    · exact .inl (by simp [skipped, hdvd])
  | succ level ih =>
    by_cases hdvd : 512 ^ (level + 2) ∣ endPage
    · exact .inr (by simp [skipped, hdvd])
    rw [skipped, if_neg hdvd]
    rcases ih with hzero | ⟨hend, hwidth⟩
    · exact .inl hzero
    · exact .inr ⟨hend, hwidth.trans (Nat.pow_dvd_pow 512 (by omega))⟩

lemma skipped_of_dvd {level endPage : Nat} (hdvd : 512 ^ (level + 1) ∣ endPage) :
    skipped level endPage = 512 ^ (level + 1) := by
  cases level with
  | zero =>
    have h512 : 512 ∣ endPage := hdvd
    simp [skipped, h512]
  | succ level => rw [skipped, if_pos hdvd]

lemma le_sub_skipped {level page endPage : Nat} (hpage : 512 ^ (level + 1) ∣ page)
    (hlt : page < endPage) : page ≤ endPage - skipped level endPage := by
  rcases skipped_dvd level endPage with hzero | ⟨hend, hwidth⟩
  · omega
  have hdiff : skipped level endPage ∣ endPage - page := Nat.dvd_sub hend (hwidth.trans hpage)
  have hle := Nat.le_of_dvd (by omega) hdiff
  omega

section

def rangeLo (base startPage : Nat) (isFirst : Bool) : Nat :=
  if isFirst then startPage else base

def rangeHi (level base endPage : Nat) (isLast : Bool) : Nat :=
  if isLast then endPage - skipped level endPage else base + 512 ^ (level + 1)

/-- A table of `level` that starts at page `base` meets the range: its start
is in the first table, its end in, or right after, the last one. -/
structure Meets (level base startPage endPage : Nat) (isFirst isLast : Bool) :
    Prop where
  dvd : 512 ^ (level + 1) ∣ base
  first : isFirst = true → base ≤ startPage ∧ startPage < base + 512 ^ (level + 1)
  last : isLast = true → base ≤ endPage ∧ endPage ≤ base + 512 ^ (level + 1)
  begun : isFirst = false → startPage ≤ base
  rest : isLast = false → base + 512 ^ (level + 1) ≤ endPage
  le : startPage ≤ endPage

variable {base : Nat}

lemma index_bounds (hbase : 512 * width ∣ base) (hle : base ≤ page)
    (hlt : page < base + 512 * width) :
    base + page / width % 512 * width ≤ page ∧ page < base + (page / width % 512 + 1) * width := by
  obtain ⟨c, rfl⟩ := hbase
  obtain ⟨r, rfl⟩ := Nat.exists_eq_add_of_le hle
  have hwidth : 0 < width := by
    rcases Nat.eq_zero_or_pos width with hzero | hpos
    · subst hzero; omega
    · exact hpos
  have hdiv : (512 * width * c + r) / width = 512 * c + r / width := by
    rw [show 512 * width * c + r = r + width * (512 * c) by ring,
      Nat.add_mul_div_left _ _ hwidth, add_comm]
  have hsmall : r / width < 512 := by
    apply Nat.div_lt_of_lt_mul
    rw [mul_comm]
    omega
  have hindex : (512 * width * c + r) / width % 512 = r / width := by
    rw [hdiv, Nat.mul_add_mod, Nat.mod_eq_of_lt hsmall]
  have hmod := Nat.div_add_mod r width
  have hrest := Nat.mod_lt r hwidth
  rw [hindex, add_mul, one_mul, mul_comm (r / width) width]
  omega

lemma upperBound_bounds (hbase : 512 * width ∣ base) (hlt : base < page)
    (hend : page < base + 512 * width) :
    let upper := page / width % 512 + if page % width = 0 then 0 else 1
    0 < upper ∧ upper ≤ 512 ∧ base + (upper - 1) * width < page ∧ page ≤ base + upper * width := by
  obtain ⟨hlow, hhigh⟩ := index_bounds hbase hlt.le hend
  have hindex := Nat.mod_lt (page / width) (show 512 > 0 by decide)
  have hmod : page % width = 0 → width ∣ page := Nat.dvd_of_mod_eq_zero
  by_cases hzero : page % width = 0
  · -- the page starts an entry, so the entry before it is the last one
    have hdvd : width ∣ page - (base + page / width % 512 * width) := by
      apply Nat.dvd_sub (hmod hzero)
      exact (Nat.dvd_add_right ((Nat.dvd_mul_left width 512).trans hbase)).mpr
        (Nat.dvd_mul_left width _)
    have heq : page = base + page / width % 512 * width := by
      rw [add_mul, one_mul] at hhigh
      have hsmall := Nat.eq_zero_of_dvd_of_lt hdvd (by omega)
      omega
    simp only [hzero, ↓reduceIte, add_zero]
    generalize page / width % 512 = idx at *
    cases idx with
    | zero => omega
    | succ idx =>
      have hstep := add_mul idx 1 width
      refine ⟨by omega, by omega, ?_, by omega⟩
      simp only [Nat.add_sub_cancel]
      have hpos : 0 < width := by
        rcases Nat.eq_zero_or_pos width with hz | hpos
        · subst hz; omega
        · exact hpos
      omega
  · simp only [hzero, ↓reduceIte, Nat.add_sub_cancel]
    have hne : page ≠ base + page / width % 512 * width := by
      intro heq
      apply hzero
      rw [heq]
      apply Nat.mod_eq_zero_of_dvd
      exact (Nat.dvd_add_right ((Nat.dvd_mul_left width 512).trans hbase)).mpr
        (Nat.dvd_mul_left width _)
    refine ⟨by omega, by omega, by omega, hhigh.le⟩

end

namespace Meets

variable {level base startPage endPage idx : Nat} {isFirst isLast : Bool}

section

variable (h : Meets level base startPage endPage isFirst isLast)

include h

lemma start_bounds : base + startIdx level (startPage * 4096) isFirst * 512 ^ level ≤
      rangeLo base startPage isFirst ∧
    rangeLo base startPage isFirst <
      base + (startIdx level (startPage * 4096) isFirst + 1) * 512 ^ level := by
  cases isFirst with
  | false =>
    have hpos : 0 < 512 ^ level := Nat.pow_pos (by decide)
    simp only [startIdx, rangeLo, Bool.false_eq_true, ↓reduceIte]
    omega
  | true =>
    obtain ⟨hle, hlt⟩ := h.first rfl
    have hdvd := h.dvd
    rw [pow_succ, mul_comm] at hdvd hlt
    simp only [startIdx, rangeLo, ↓reduceIte, indexForVa_page]
    exact index_bounds hdvd hle hlt

section

variable (hend : isLast = true → ¬ 512 ^ (level + 1) ∣ endPage)

include hend

lemma stop_bounds : let stop := endIdx level (endPage * 4096) isLast
    0 < stop ∧ stop ≤ 512 ∧ (isLast = true → base + (stop - 1) * 512 ^ level < endPage ∧
        endPage ≤ base + stop * 512 ^ level) ∧
      (isLast = false → stop = 512) := by
  cases isLast with
  | false => simp [endIdx]
  | true =>
    obtain ⟨hle, hlt⟩ := h.last rfl
    have hdvd := h.dvd
    have hnot := hend rfl
    have hne : base ≠ endPage := fun heq => hnot (heq ▸ hdvd)
    have hne' : endPage ≠ base + 512 ^ (level + 1) := by
      intro heq
      apply hnot
      rw [heq]
      exact (Nat.dvd_add_right hdvd).mpr dvd_rfl
    rw [pow_succ, mul_comm] at hdvd hlt hne'
    have hupper := upperBound_bounds hdvd (by omega : base < endPage) (by omega)
    simp only [endIdx, ↓reduceIte, upperBoundIndexForVa_page]
    exact ⟨hupper.1, hupper.2.1, fun _ => hupper.2.2, by simp⟩

lemma start_le_stop :
    startIdx level (startPage * 4096) isFirst ≤ endIdx level (endPage * 4096) isLast := by
  obtain ⟨hle, hlt⟩ := h.start_bounds
  obtain ⟨hpos, hmax, hlast, hall⟩ := h.stop_bounds hend
  cases isFirst with
  | false => simp [startIdx]
  | true =>
    cases isLast with
    | false =>
      have hindex := Nat.mod_lt (startPage / 512 ^ level) (show 512 > 0 by decide)
      simp only [startIdx, ↓reduceIte, indexForVa_page, hall rfl]
      omega
    | true =>
      have hstop := (hlast rfl).2
      have hle' := h.le
      simp only [rangeLo, ↓reduceIte] at hle
      exact Nat.le_of_mul_le_mul_right (by omega) (Nat.pow_pos (by decide) : 0 < 512 ^ level)

lemma hi_le_stop : rangeHi level base endPage isLast ≤
    base + endIdx level (endPage * 4096) isLast * 512 ^ level := by
  obtain ⟨hpos, hmax, hlast, hall⟩ := h.stop_bounds hend
  cases isLast with
  | false =>
    simp only [rangeHi, Bool.false_eq_true, ↓reduceIte, hall rfl, pow_succ]
    omega
  | true =>
    have hstop := (hlast rfl).2
    simp only [rangeHi, ↓reduceIte]
    omega

end

lemma le_lo : startPage ≤ rangeLo base startPage isFirst := by
  cases isFirst with
  | false => exact h.begun rfl
  | true => exact le_rfl

lemma hi_le : rangeHi level base endPage isLast ≤ endPage := by
  cases isLast with
  | false => exact h.rest rfl
  | true => exact Nat.sub_le _ _

end

lemma lo_zero (h : Meets 0 base startPage endPage isFirst isLast) :
    rangeLo base startPage isFirst = base + startIdx 0 (startPage * 4096) isFirst := by
  obtain ⟨hle, hlt⟩ := h.start_bounds
  rw [pow_zero] at hle hlt
  omega

lemma hi_zero (h : Meets 0 base startPage endPage isFirst isLast)
    (hend : isLast = true → ¬ 512 ^ 1 ∣ endPage) :
    rangeHi 0 base endPage isLast = base + endIdx 0 (endPage * 4096) isLast := by
  obtain ⟨hpos, hmax, hlast, hall⟩ := h.stop_bounds hend
  cases isLast with
  | false => simp [rangeHi, hall rfl]
  | true =>
    have hstop := hlast rfl
    have hskip : skipped 0 endPage = 0 := if_neg (hend rfl)
    simp only [rangeHi, ↓reduceIte, hskip]
    rw [pow_zero] at hstop
    omega

lemma stop_eq_zero {endPage : Nat} (hend : 512 ^ (level + 1) ∣ endPage) :
    endIdx level (endPage * 4096) true = 0 := by
  have hmod : endPage % 512 ^ level = 0 :=
    Nat.mod_eq_zero_of_dvd ((Nat.pow_dvd_pow 512 (Nat.le_succ level)).trans hend)
  obtain ⟨c, rfl⟩ := hend
  have hdiv : 512 ^ (level + 1) * c / 512 ^ level = 512 * c := by
    rw [pow_succ, mul_assoc, Nat.mul_div_cancel_left _ (Nat.pow_pos (by decide))]
  simp only [endIdx, ↓reduceIte, upperBoundIndexForVa_page, hmod, hdiv]
  omega

lemma hi_le_lo (h : Meets level base startPage endPage isFirst true)
    (hend : 512 ^ (level + 1) ∣ endPage) :
    rangeHi level base endPage true ≤ rangeLo base startPage isFirst := by
  have hlast := h.last rfl
  have hlow : base ≤ rangeLo base startPage isFirst := by
    cases isFirst with
    | false => exact le_rfl
    | true => exact (h.first rfl).1
  simp only [rangeHi, ↓reduceIte, skipped_of_dvd hend]
  omega

section

variable (h : Meets (level + 1) base startPage endPage isFirst isLast)
  (hlow : startIdx (level + 1) (startPage * 4096) isFirst ≤ idx)
  (hhigh : idx < endIdx (level + 1) (endPage * 4096) isLast)

include hhigh in
lemma not_dvd_of_lt_stop : isLast = true → ¬ 512 ^ (level + 2) ∣ endPage := by
  rintro rfl hdvd
  rw [stop_eq_zero hdvd] at hhigh
  omega

include h hlow hhigh

lemma child : Meets level (base + idx * 512 ^ (level + 1)) startPage endPage
    (isFirst && idx == startIdx (level + 1) (startPage * 4096) isFirst)
    (isLast && idx == endIdx (level + 1) (endPage * 4096) isLast - 1) := by
  have hstart := h.start_bounds
  have hstop := h.stop_bounds (not_dvd_of_lt_stop hhigh)
  constructor
  · apply (Nat.dvd_add_right _).mpr (Nat.dvd_mul_left _ _)
    exact (Nat.pow_dvd_pow 512 (by omega)).trans h.dvd
  · intro hfirst
    simp only [Bool.and_eq_true, beq_iff_eq] at hfirst
    obtain ⟨rfl, hidx⟩ := hfirst
    simp only [rangeLo, ↓reduceIte, ← hidx, add_mul, one_mul] at hstart
    omega
  · intro hlast
    simp only [Bool.and_eq_true, beq_iff_eq] at hlast
    obtain ⟨rfl, hidx⟩ := hlast
    obtain ⟨hpos, -, hend, -⟩ := hstop
    have hend := hend rfl
    rw [← hidx] at hend
    have hnext : endIdx (level + 1) (endPage * 4096) true = idx + 1 := by omega
    rw [hnext, add_mul, one_mul] at hend
    omega
  · intro hnotFirst
    cases isFirst with
    | false =>
      have hbegun := h.begun rfl
      omega
    | true =>
      have hne : idx ≠ startIdx (level + 1) (startPage * 4096) true := by simpa using hnotFirst
      have hle : (startIdx (level + 1) (startPage * 4096) true + 1) *
          512 ^ (level + 1) ≤ idx * 512 ^ (level + 1) :=
        Nat.mul_le_mul_right _ (by omega)
      have hlt := hstart.2
      simp only [rangeLo, ↓reduceIte] at hlt
      omega
  · intro hnotLast
    have hnext := add_mul idx 1 (512 ^ (level + 1))
    obtain ⟨-, hmax, hend, hall⟩ := hstop
    cases isLast with
    | false =>
      have hrest := h.rest rfl
      have hle : (idx + 1) * 512 ^ (level + 1) ≤ 512 * 512 ^ (level + 1) :=
        Nat.mul_le_mul_right _ (by omega)
      rw [pow_succ, mul_comm _ 512] at hrest
      omega
    | true =>
      have hne : idx ≠ endIdx (level + 1) (endPage * 4096) true - 1 := by simpa using hnotLast
      have hle : (idx + 1) * 512 ^ (level + 1) ≤ (endIdx (level + 1) (endPage * 4096) true - 1) *
            512 ^ (level + 1) := Nat.mul_le_mul_right _ (by omega)
      have hend := (hend rfl).1
      omega
  · exact h.le

omit hhigh in
lemma child_lo : rangeLo (base + idx * 512 ^ (level + 1)) startPage
      (isFirst && idx == startIdx (level + 1) (startPage * 4096) isFirst) =
    max (rangeLo base startPage isFirst) (base + idx * 512 ^ (level + 1)) := by
  obtain ⟨hle, hlt⟩ := h.start_bounds
  generalize hstart : startIdx (level + 1) (startPage * 4096) isFirst = start at hle hlt hlow ⊢
  by_cases heq : idx = start
  · subst heq
    cases isFirst with
    | false =>
      have hzero : idx = 0 := by simpa [startIdx] using hstart.symm
      simp [rangeLo, hzero]
    | true =>
      simp only [rangeLo, ↓reduceIte] at hle
      simp only [rangeLo, beq_self_eq_true, Bool.and_self, ↓reduceIte]
      omega
  have hgt : (start + 1) * 512 ^ (level + 1) ≤ idx * 512 ^ (level + 1) :=
    Nat.mul_le_mul_right _ (by omega)
  have hne : (isFirst && idx == start) = false := by simp [heq]
  rw [hne]
  simp only [rangeLo, Bool.false_eq_true, ↓reduceIte] at hlt ⊢
  omega

omit hlow in
lemma child_hi : rangeHi level (base + idx * 512 ^ (level + 1)) endPage
      (isLast && idx == endIdx (level + 1) (endPage * 4096) isLast - 1) =
    min (rangeHi (level + 1) base endPage isLast) (base + (idx + 1) * 512 ^ (level + 1)) := by
  obtain ⟨hpos, hmax, hend, hall⟩ := h.stop_bounds (not_dvd_of_lt_stop hhigh)
  have hnot := not_dvd_of_lt_stop hhigh
  generalize endIdx (level + 1) (endPage * 4096) isLast = stop at hpos hmax hend hall hhigh ⊢
  have hwidth : 512 ^ (level + 1 + 1) = 512 * 512 ^ (level + 1) := by
    rw [pow_succ, mul_comm]
  have hnext := add_mul idx 1 (512 ^ (level + 1))
  cases isLast with
  | false =>
    have hle : (idx + 1) * 512 ^ (level + 1) ≤ 512 * 512 ^ (level + 1) :=
      Nat.mul_le_mul_right _ (by omega)
    simp only [rangeHi, Bool.false_and, Bool.false_eq_true, ↓reduceIte, hwidth]
    omega
  | true =>
    obtain ⟨hafter, hbefore⟩ := hend rfl
    simp only [rangeHi, Bool.true_and, beq_iff_eq, ↓reduceIte, skipped, hnot rfl]
    by_cases heq : idx = stop - 1
    · have hlastStop : stop = idx + 1 := by omega
      rw [if_pos heq]
      rw [hlastStop] at hbefore
      omega
    rw [if_neg heq]
    have hle : (idx + 1) * 512 ^ (level + 1) ≤
        (stop - 1) * 512 ^ (level + 1) := Nat.mul_le_mul_right _ (by omega)
    have hdvd : 512 ^ (level + 1) ∣ base + (stop - 1) * 512 ^ (level + 1) :=
      (Nat.dvd_add_right ((Nat.pow_dvd_pow 512 (by omega)).trans h.dvd)).mpr (Nat.dvd_mul_left _ _)
    have hkept := le_sub_skipped hdvd hafter
    omega

include h hhigh in
omit hlow in
lemma entry_le_hi : base + idx * 512 ^ (level + 1) ≤ rangeHi (level + 1) base endPage isLast := by
  have hnot := not_dvd_of_lt_stop hhigh
  obtain ⟨hpos, hmax, hend, hall⟩ := h.stop_bounds hnot
  cases isLast with
  | false =>
    have hle : idx * 512 ^ (level + 1) ≤ 512 * 512 ^ (level + 1) :=
      Nat.mul_le_mul_right _ (by omega)
    simp only [rangeHi, Bool.false_eq_true, ↓reduceIte]
    rw [pow_succ 512 (level + 1), mul_comm _ 512]
    omega
  | true =>
    have hafter := (hend rfl).1
    have hle : idx * 512 ^ (level + 1) ≤ (endIdx (level + 1) (endPage * 4096) true - 1) *
          512 ^ (level + 1) := Nat.mul_le_mul_right _ (by omega)
    have hdvd : 512 ^ (level + 1) ∣ base + idx * 512 ^ (level + 1) :=
      (Nat.dvd_add_right ((Nat.pow_dvd_pow 512 (by omega)).trans h.dvd)).mpr (Nat.dvd_mul_left _ _)
    simp only [rangeHi, ↓reduceIte, skipped, hnot rfl]
    exact le_sub_skipped hdvd (by omega)

end
end Meets

namespace PageTable

/-- The page table as partial maps, one for each level: level 0 gives the
mapped pages, levels 1 and 2 the tables. -/
def lookup (t : PageTable) (level k : Nat) : Option Pte :=
  if (t.entry level k).isValid then some (t.entry level k) else none

lemma lookup_eq_none {t : PageTable} {level k : Nat} :
    t.lookup level k = none ↔ (t.entry level k).isValid = false := by
  simp [lookup]

lemma lookup_eq_some {t : PageTable} {level k : Nat} {e : Pte} : t.lookup level k = some e ↔
    (t.entry level k).isValid = true ∧ t.entry level k = e := by
  simp [lookup]

def mapped (t : PageTable) (page : Nat) : Bool := (t.lookup 0 page).isSome

/-- There is nothing below an entry that points nowhere. -/
def Wf (t : PageTable) : Prop :=
  ∀ level k, level < 2 → t.lookup (level + 1) (k / 512) = none → t.lookup level k = none

lemma Wf.mapped_eq_false {t : PageTable} (hwf : t.Wf) {level page : Nat} (hlevel : level ≤ 2)
    (hnone : t.lookup level (page / 512 ^ level) = none) : t.mapped page = false := by
  induction level with
  | zero =>
    rw [pow_zero, Nat.div_one] at hnone
    simp [mapped, hnone]
  | succ level ih =>
    apply ih (by omega)
    rw [pow_succ, ← Nat.div_div_eq_div_mul] at hnone
    exact hwf level _ (by omega) hnone

end PageTable

section

variable {t : PageTable} {level base startPage endPage : Nat} {isFirst isLast : Bool}

def rangePages (t : PageTable) (level base startPage endPage : Nat)
    (isFirst isLast : Bool) : List Nat :=
  (interval (rangeLo base startPage isFirst) (rangeHi level base endPage isLast)).filter t.mapped

lemma rangeIter_of_dvd (h : Meets level base startPage endPage isFirst true)
    (hdvd : 512 ^ (level + 1) ∣ endPage) :
    rangeIter t level (base * 4096) (startPage * 4096) (endPage * 4096) isFirst true =
      (rangePages t level base startPage endPage isFirst true).map (· * 4096) := by
  rw [rangePages, interval_eq_nil (h.hi_le_lo hdvd)]
  cases level with
  | zero | succ => simp [rangeIter, Meets.stop_eq_zero hdvd, interval_eq_nil]

lemma rangeIter_zero (h : Meets 0 base startPage endPage isFirst isLast)
    (hnot : isLast = true → ¬ 512 ^ 1 ∣ endPage) :
    rangeIter t 0 (base * 4096) (startPage * 4096) (endPage * 4096) isFirst isLast =
      (rangePages t 0 base startPage endPage isFirst isLast).map (· * 4096) := by
  have hlo := h.lo_zero
  have hhi := h.hi_zero hnot
  have hmax := (h.stop_bounds hnot).2.1
  rw [rangeIter, rangePages]
  generalize startIdx 0 (startPage * 4096) isFirst = start at *
  generalize endIdx 0 (endPage * 4096) isLast = stop at *
  have hva : ∀ idx ∈ interval start stop,
      base * 4096 ||| vaForIndex 0 idx = (base + idx) * 4096 := by
    intro idx hidx
    rw [mem_interval] at hidx
    rw [baseVa_or_vaForIndex h.dvd (by omega), pow_zero, mul_one]
  have hshift : interval (base + start) (base + stop) = (interval start stop).map (base + ·) := by
    rw [interval, interval, map_add_range',
      show base + stop - (base + start) = stop - start by omega]
  rw [map_congr_left hva, hlo, hhi, hshift, filter_map, filter_map, map_map]
  congr 1
  apply filter_congr
  intro idx _
  simp only [Function.comp_apply, key_zero_page, PageTable.mapped, PageTable.lookup]
  split <;> simp_all

lemma rangeIter_child (hwf : t.Wf) (hlevel : level < 2)
    (h : Meets (level + 1) base startPage endPage isFirst isLast) {idx : Nat}
    (hlow : startIdx (level + 1) (startPage * 4096) isFirst ≤ idx)
    (hhigh : idx < endIdx (level + 1) (endPage * 4096) isLast)
    (hmax : idx < 512)
    (ih : ∀ {base : Nat} {isFirst isLast : Bool},
      Meets level base startPage endPage isFirst isLast →
      rangeIter t level (base * 4096) (startPage * 4096) (endPage * 4096) isFirst isLast =
        (rangePages t level base startPage endPage isFirst isLast).map (· * 4096)) :
    (let va := base * 4096 ||| vaForIndex (level + 1) idx
     if (t.entry (level + 1) (key (level + 1) va)).isValid then
       rangeIter t level va (startPage * 4096) (endPage * 4096)
         (isFirst && startIdx (level + 1) (startPage * 4096) isFirst == idx)
         (isLast && endIdx (level + 1) (endPage * 4096) isLast - 1 == idx)
     else []) = ((interval (max (rangeLo base startPage isFirst) (base + idx * 512 ^ (level + 1)))
        (min (rangeHi (level + 1) base endPage isLast)
          (base + (idx + 1) * 512 ^ (level + 1)))).filter t.mapped).map (· * 4096) := by
  have hchild := ih (h.child hlow hhigh)
  rw [rangePages, h.child_lo hlow, h.child_hi hhigh] at hchild
  have hkey : key (level + 1) ((base + idx * 512 ^ (level + 1)) * 4096) =
      base / 512 ^ (level + 1) + idx := by
    rw [key_page, Nat.add_mul_div_right _ _ (Nat.pow_pos (by decide))]
  rw [baseVa_or_vaForIndex h.dvd hmax]
  simp only [BEq.comm (a := startIdx _ _ _), BEq.comm (a := endIdx _ _ _ - 1)]
  split
  · exact hchild
  -- nothing is mapped below an entry that points nowhere
  rename_i hinvalid
  rw [hkey] at hinvalid
  symm
  rw [map_eq_nil_iff, filter_eq_nil_iff]
  intro page hpage
  rw [mem_interval] at hpage
  have hwidth : 512 ^ (level + 1) ∣ base := (Nat.pow_dvd_pow 512 (by omega)).trans h.dvd
  have hpageKey : page / 512 ^ (level + 1) = base / 512 ^ (level + 1) + idx := by
    obtain ⟨c, rfl⟩ := hwidth
    rw [Nat.mul_div_cancel_left _ (Nat.pow_pos (by decide))]
    apply Nat.div_eq_of_lt_le
    · rw [add_mul, mul_comm c]
      omega
    · rw [add_assoc, add_mul, mul_comm c]
      omega
  rw [← hpageKey, Bool.not_eq_true, ← PageTable.lookup_eq_none] at hinvalid
  simp [hwf.mapped_eq_false (by omega : level + 1 ≤ 2) hinvalid]

lemma rangeIter_eq (hwf : t.Wf) (hlevel : level ≤ 2)
    (h : Meets level base startPage endPage isFirst isLast) :
    rangeIter t level (base * 4096) (startPage * 4096) (endPage * 4096) isFirst isLast =
      (rangePages t level base startPage endPage isFirst isLast).map (· * 4096) := by
  induction level generalizing base isFirst isLast with
  | zero =>
    by_cases hend : isLast = true ∧ 512 ^ 1 ∣ endPage
    · obtain ⟨rfl, hdvd⟩ := hend
      exact rangeIter_of_dvd h hdvd
    · exact rangeIter_zero h fun hlast hdvd => hend ⟨hlast, hdvd⟩
  | succ level ih =>
    by_cases hend : isLast = true ∧ 512 ^ (level + 2) ∣ endPage
    · obtain ⟨rfl, hdvd⟩ := hend
      exact rangeIter_of_dvd h hdvd
    have hnot : isLast = true → ¬ 512 ^ (level + 2) ∣ endPage :=
      fun hlast hdvd => hend ⟨hlast, hdvd⟩
    obtain ⟨hle, hlt⟩ := h.start_bounds
    obtain ⟨hpos, hmax, hlast, hall⟩ := h.stop_bounds hnot
    rw [rangeIter, rangePages]
    have hbody := fun idx (hidx : idx ∈ interval (startIdx (level + 1) (startPage * 4096) isFirst)
        (endIdx (level + 1) (endPage * 4096) isLast)) =>
      rangeIter_child hwf (by omega) h (mem_interval.mp hidx).1 (mem_interval.mp hidx).2
        ((mem_interval.mp hidx).2.trans_le hmax) (ih (by omega))
    rw [flatMap_congr hbody, ← map_flatMap, ← filter_flatMap,
      flatMap_interval (h.start_le_stop hnot)]
    have hhi := h.hi_le_stop hnot
    congr 3
    · omega
    · omega

/-- The last page table that a range ending before `endPage` leaves out: all
of its pages when the range ends with it, nothing otherwise. -/
def lastChunk (endPage : Nat) : Nat :=
  if 512 ^ 2 ∣ endPage then 512 ^ 2 else if 512 ∣ endPage then 512 else 0

lemma rangeHi_top {endPage : Nat} (hlimit : endPage < 134217728) :
    rangeHi 2 0 endPage true = endPage - lastChunk endPage := by
  simp only [rangeHi, ↓reduceIte, skipped, lastChunk]
  by_cases htop : 512 ^ 3 ∣ endPage
  · -- only the empty range ends with the top-level table
    have hzero := Nat.eq_zero_of_dvd_of_lt htop hlimit
    simp [hzero]
  · rw [if_neg htop]

lemma rangeOfEntries_eq (hwf : t.Wf) (hle : startPage ≤ endPage) (hlimit : endPage < 134217728) :
    rangeOfEntries t (startPage * 4096) (endPage * 4096) =
      ((interval startPage (endPage - lastChunk endPage)).filter t.mapped).map (· * 4096) := by
  have hmeets : Meets 2 0 startPage endPage true true :=
    ⟨dvd_zero _, fun _ => by omega, fun _ => by omega, by simp, by simp, hle⟩
  have hiter := rangeIter_eq hwf le_rfl hmeets
  rw [zero_mul] at hiter
  rw [rangeOfEntries, hiter, rangePages, rangeHi_top hlimit]
  rfl

end
end Redwing.Vm
