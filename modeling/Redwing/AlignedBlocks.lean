/-
Counting how often an address is covered by blocks of power-of-two size.  A
family of blocks tiles an interval when every address of the interval is
covered once and every other address never, so splitting, merging and moving
blocks become equations between sums.
-/
import Mathlib.Algebra.BigOperators.Group.Finset.Basic
import Mathlib.Algebra.BigOperators.Group.List.Lemmas
import Mathlib.Data.Nat.Bitwise
import Mathlib.Tactic.Positivity
import Mathlib.Tactic.Ring

namespace AlignedBlocks

open List

/-- One if the block of `unit * 2 ^ order` bytes at `addr` covers `x`. -/
def cell (unit order addr x : Nat) : Nat :=
  if addr ≤ x ∧ x < addr + unit * 2 ^ order then 1 else 0

lemma cell_le_one (unit order addr x : Nat) : cell unit order addr x ≤ 1 := by
  unfold cell
  split <;> omega

variable {addr order unit x base : Nat} {addrs : List Nat}

lemma cell_eq_one_iff : cell unit order addr x = 1 ↔ addr ≤ x ∧ x < addr + unit * 2 ^ order := by
  simp [cell]

lemma cell_self (hunit : 0 < unit) (order addr : Nat) : cell unit order addr addr = 1 := by
  have hsize : 0 < unit * 2 ^ order := by positivity
  exact cell_eq_one_iff.mpr ⟨le_refl _, by omega⟩

/-- A block is its two halves. -/
lemma cell_succ (unit order addr x : Nat) : cell unit (order + 1) addr x =
    cell unit order addr x + cell unit order (addr + unit * 2 ^ order) x := by
  have hdouble : unit * 2 ^ (order + 1) = unit * 2 ^ order + unit * 2 ^ order := by ring
  unfold cell
  rw [hdouble]
  split_ifs <;> omega

/-- How many blocks of the list, all of one order, cover `x`. -/
def coverage (unit order : Nat) (addrs : List Nat) (x : Nat) : Nat :=
  (addrs.map fun addr => cell unit order addr x).sum

@[simp] lemma coverage_nil (unit order x : Nat) : coverage unit order [] x = 0 := rfl

@[simp] lemma coverage_cons (unit order addr : Nat) (addrs : List Nat) (x : Nat) :
    coverage unit order (addr :: addrs) x =
      cell unit order addr x + coverage unit order addrs x := by
  simp [coverage]

@[simp] lemma coverage_append (unit order : Nat) (left right : List Nat) (x : Nat) :
    coverage unit order (left ++ right) x =
      coverage unit order left x + coverage unit order right x := by
  simp [coverage]

lemma coverage_erase (hmem : addr ∈ addrs) (unit order x : Nat) :
    coverage unit order (addrs.erase addr) x + cell unit order addr x =
      coverage unit order addrs x := by
  have hperm := perm_cons_erase hmem
  have hsum := (hperm.map fun a => cell unit order a x).sum_eq
  simp only [map_cons, sum_cons] at hsum
  simp only [coverage]
  omega

lemma cell_le_coverage (hmem : addr ∈ addrs) (unit order x : Nat) :
    cell unit order addr x ≤ coverage unit order addrs x := by
  have herase := coverage_erase hmem unit order x
  omega

lemma exists_mem_of_coverage_pos (hpos : 0 < coverage unit order addrs x) :
    ∃ addr ∈ addrs, cell unit order addr x = 1 := by
  induction addrs with
  | nil => simp at hpos
  | cons addr rest ih =>
    by_cases hcell : cell unit order addr x = 1
    · exact ⟨addr, by simp, hcell⟩
    have hle := cell_le_one unit order addr x
    rw [coverage_cons] at hpos
    obtain ⟨found, hfound, hone⟩ := ih (by omega)
    exact ⟨found, by simp [hfound], hone⟩

/-- The sum over a family in which one member changes. -/
lemma sum_update_add {n i : Nat} (hi : i < n) (f g : Nat → Nat) (hother : ∀ j, j ≠ i → g j = f j) :
    ∑ j ∈ Finset.range n, g j + f i = ∑ j ∈ Finset.range n, f j + g i := by
  have hmem : i ∈ Finset.range n := Finset.mem_range.mpr hi
  rw [← Finset.add_sum_erase _ f hmem, ← Finset.add_sum_erase _ g hmem]
  have hrest : ∑ j ∈ (Finset.range n).erase i, g j = ∑ j ∈ (Finset.range n).erase i, f j :=
    Finset.sum_congr rfl fun j hj => hother j (Finset.ne_of_mem_erase hj)
  omega

/-- The block of `order` at `addr` starts at a multiple of its size, counted
from `base`. -/
def Aligned (unit base order addr : Nat) : Prop := base ≤ addr ∧ unit * 2 ^ order ∣ addr - base

/-- The address of the other half of the block one order up. -/
def buddyAddr (shift base addr order : Nat) : Nat :=
  ((addr - base) ^^^ (1 <<< (order + shift))) + base

/-- Flipping the bit of the block size moves an aligned block up by its size
if it is the lower half of its parent, and down otherwise. -/
lemma buddyAddr_cases {shift : Nat} (haligned : Aligned (2 ^ shift) base order addr) :
    (buddyAddr shift base addr order = addr + 2 ^ shift * 2 ^ order ∧
        Aligned (2 ^ shift) base (order + 1) addr) ∨
      (addr = buddyAddr shift base addr order + 2 ^ shift * 2 ^ order ∧
        Aligned (2 ^ shift) base (order + 1) (buddyAddr shift base addr order)) := by
  obtain ⟨hbase, quot, hquot⟩ := haligned
  obtain ⟨size, hsize⟩ : ∃ size, size = 2 ^ shift * 2 ^ order := ⟨_, rfl⟩
  have hdouble : 2 ^ shift * 2 ^ (order + 1) = 2 * size := by rw [hsize]; ring
  have hshift : ∀ m : Nat, m <<< (order + shift) = size * m := by
    intro m
    rw [Nat.shiftLeft_eq, hsize, ← pow_add, mul_comm, add_comm order]
  have hxor : buddyAddr shift base addr order = size * (quot ^^^ 1) + base := by
    rw [buddyAddr, hquot, ← hsize, ← hshift quot, ← Nat.shiftLeft_xor_distrib, hshift]
  rw [← hsize] at hquot ⊢
  rcases Nat.even_or_odd quot with heven | hodd
  · left
    rw [hxor, Nat.xor_one_of_even heven, mul_add]
    refine ⟨by omega, hbase, ?_⟩
    obtain ⟨half, rfl⟩ := heven
    exact ⟨half, by rw [hdouble, hquot]; ring⟩
  right
  rw [hxor, Nat.xor_one_of_odd hodd]
  obtain ⟨half, rfl⟩ := hodd
  have hodd_mul : size * (2 * half + 1) = size * (2 * half) + size := by ring
  refine ⟨by simp only [Nat.add_sub_cancel]; omega, by omega, half, ?_⟩
  rw [hdouble, Nat.add_sub_cancel, Nat.add_sub_cancel]
  ring

lemma Aligned.lower_half (haligned : Aligned unit base (order + 1) addr) :
    Aligned unit base order addr := by
  obtain ⟨hbase, hdvd⟩ := haligned
  refine ⟨hbase, Dvd.dvd.trans ⟨2, ?_⟩ hdvd⟩
  ring

lemma Aligned.upper_half (haligned : Aligned unit base (order + 1) addr) :
    Aligned unit base order (addr + unit * 2 ^ order) := by
  obtain ⟨hbase, hdvd⟩ := haligned.lower_half
  refine ⟨by omega, ?_⟩
  have hsub : addr + unit * 2 ^ order - base = (addr - base) + unit * 2 ^ order := by omega
  rw [hsub]
  exact Nat.dvd_add hdvd (Nat.dvd_refl _)

/-- An aligned block starts at a multiple of the unit. -/
lemma Aligned.unit_dvd (haligned : Aligned unit base order addr) (hbase : unit ∣ base) :
    unit ∣ addr := by
  obtain ⟨hle, hdvd⟩ := haligned
  have hrest : unit ∣ addr - base := (Nat.dvd_mul_right _ _).trans hdvd
  have hsum := Nat.dvd_add hrest hbase
  rwa [Nat.sub_add_cancel hle] at hsum

lemma Aligned.cell_eq_one_iff (hunit : 0 < unit) (haligned : Aligned unit base order addr) :
    cell unit order addr x = 1 ↔ base ≤ x ∧
      (x - base) / (unit * 2 ^ order) = (addr - base) / (unit * 2 ^ order) := by
  have hsize : 0 < unit * 2 ^ order := by positivity
  obtain ⟨hbase, quot, hquot⟩ := haligned
  rw [AlignedBlocks.cell_eq_one_iff, hquot, Nat.mul_div_cancel_left _ hsize,
    Nat.div_eq_iff hsize, mul_comm quot]
  generalize unit * 2 ^ order = size at *
  generalize size * quot = offset at *
  omega

/-- Of two aligned blocks that meet, the larger one holds the smaller. -/
lemma Aligned.nested {i j lo y : Nat} (hunit : 0 < unit) (hij : i ≤ j)
    (hlo : Aligned unit base i lo) (haddr : Aligned unit base j addr) (hx : cell unit i lo x = 1)
    (hx' : cell unit j addr x = 1) (hy : cell unit i lo y = 1) : cell unit j addr y = 1 := by
  rw [hlo.cell_eq_one_iff hunit] at hx hy
  rw [haddr.cell_eq_one_iff hunit] at hx' ⊢
  refine ⟨hy.1, ?_⟩
  have hsize : unit * 2 ^ j = unit * 2 ^ i * 2 ^ (j - i) := by
    rw [mul_assoc, ← pow_add, Nat.add_sub_cancel' hij]
  rw [← hx'.2, hsize, ← Nat.div_div_eq_div_mul _ (unit * 2 ^ i),
    ← Nat.div_div_eq_div_mul _ (unit * 2 ^ i), hy.2, hx.2]

/-- A range of whole blocks holds a smaller aligned block that it meets. -/
lemma Aligned.lt_of_meets {m n y : Nat} (hunit : 0 < unit) (hm : order ≤ m)
    (haddr : Aligned unit base order addr) (hx : cell unit order addr x = 1)
    (hy : cell unit order addr y = 1)
    (hlt : x < base + n * (unit * 2 ^ m)) : y < base + n * (unit * 2 ^ m) := by
  have hsize : n * (unit * 2 ^ m) = n * 2 ^ (m - order) * (unit * 2 ^ order) := by
    conv_lhs => rw [← Nat.sub_add_cancel hm, pow_add]
    ring
  have hpos : 0 < unit * 2 ^ order := by positivity
  rw [haddr.cell_eq_one_iff hunit] at hx hy
  have hquot : (x - base) / (unit * 2 ^ order) < n * 2 ^ (m - order) := by
    rw [Nat.div_lt_iff_lt_mul hpos, ← hsize]
    omega
  rw [hx.2, ← hy.2, Nat.div_lt_iff_lt_mul hpos, ← hsize] at hquot
  omega

/-- The addresses of two blocks, given as order and address, do not meet. -/
def Apart (unit : Nat) (left right : Nat × Nat) : Prop :=
  left.2 + unit * 2 ^ left.1 ≤ right.2 ∨ right.2 + unit * 2 ^ right.1 ≤ left.2

instance (unit : Nat) (left right : Nat × Nat) : Decidable (Apart unit left right) :=
  inferInstanceAs (Decidable (_ ∨ _))

/-- How many blocks of a list of mixed orders cover `x`. -/
def mixedCoverage (unit : Nat) (blocks : List (Nat × Nat)) (x : Nat) : Nat :=
  (blocks.map fun block => cell unit block.1 block.2 x).sum

@[simp] lemma mixedCoverage_nil (unit x : Nat) : mixedCoverage unit [] x = 0 := rfl

@[simp] lemma mixedCoverage_cons (unit : Nat) (block : Nat × Nat)
    (blocks : List (Nat × Nat)) (x : Nat) :
    mixedCoverage unit (block :: blocks) x =
      cell unit block.1 block.2 x + mixedCoverage unit blocks x := by
  simp [mixedCoverage]

@[simp] lemma mixedCoverage_append (unit : Nat) (left right : List (Nat × Nat)) (x : Nat) :
    mixedCoverage unit (left ++ right) x =
      mixedCoverage unit left x + mixedCoverage unit right x := by
  simp [mixedCoverage]

lemma mixedCoverage_map (unit order : Nat) (addrs : List Nat) (x : Nat) :
    mixedCoverage unit (addrs.map fun addr => (order, addr)) x =
      coverage unit order addrs x := by
  simp [mixedCoverage, coverage, Function.comp_def]

lemma mixedCoverage_flatMap (unit n : Nat) (f : Nat → List (Nat × Nat)) (x : Nat) :
    mixedCoverage unit ((List.range n).flatMap f) x =
      ∑ i ∈ Finset.range n, mixedCoverage unit (f i) x := by
  induction n with
  | zero => simp
  | succ n ih => simp [range_succ, Finset.sum_range_succ, ih]

lemma mixedCoverage_erase {block : Nat × Nat} {blocks : List (Nat × Nat)} (hmem : block ∈ blocks)
    (unit x : Nat) : mixedCoverage unit (blocks.erase block) x + cell unit block.1 block.2 x =
      mixedCoverage unit blocks x := by
  have hperm := perm_cons_erase hmem
  have hsum := (hperm.map fun b => cell unit b.1 b.2 x).sum_eq
  simp only [map_cons, sum_cons] at hsum
  simp only [mixedCoverage]
  omega

lemma exists_mem_of_mixedCoverage_pos
    {blocks : List (Nat × Nat)} (hpos : 0 < mixedCoverage unit blocks x) :
    ∃ block ∈ blocks, cell unit block.1 block.2 x = 1 := by
  induction blocks with
  | nil => simp at hpos
  | cons block rest ih =>
    by_cases hcell : cell unit block.1 block.2 x = 1
    · exact ⟨block, by simp, hcell⟩
    have hle := cell_le_one unit block.1 block.2 x
    rw [mixedCoverage_cons] at hpos
    obtain ⟨found, hfound, hone⟩ := ih (by omega)
    exact ⟨found, by simp [hfound], hone⟩

/-- Two blocks that never cover one address together are apart: the later of
the two start addresses is a witness otherwise. -/
lemma apart_of_cell_add_le_one (hunit : 0 < unit) {left right : Nat × Nat}
    (honce : ∀ x, cell unit left.1 left.2 x + cell unit right.1 right.2 x ≤ 1) :
    Apart unit left right := by
  have hleft : 0 < unit * 2 ^ left.1 := by positivity
  have hright : 0 < unit * 2 ^ right.1 := by positivity
  by_contra hmeet
  simp only [Apart, not_or, not_le] at hmeet
  have hmax := honce (max left.2 right.2)
  have hone : cell unit left.1 left.2 (max left.2 right.2) = 1 :=
    cell_eq_one_iff.mpr ⟨by omega, by omega⟩
  have hother : cell unit right.1 right.2 (max left.2 right.2) = 1 :=
    cell_eq_one_iff.mpr ⟨by omega, by omega⟩
  omega

/-- Blocks that together cover no address twice are pairwise apart. -/
lemma pairwise_apart_of_mixedCoverage_le_one (hunit : 0 < unit) {blocks : List (Nat × Nat)}
    (honce : ∀ x, mixedCoverage unit blocks x ≤ 1) : blocks.Pairwise (Apart unit) := by
  induction blocks with
  | nil => exact List.Pairwise.nil
  | cons block rest ih =>
    simp only [mixedCoverage_cons] at honce
    refine List.Pairwise.cons ?_ (ih fun x => by have := honce x; omega)
    intro other hother
    refine apart_of_cell_add_le_one hunit fun x => ?_
    have hsum := mixedCoverage_erase hother unit x
    have hx := honce x
    omega

/-- Blocks that are pairwise apart cover no address twice. -/
lemma mixedCoverage_le_one_of_pairwise_apart {blocks : List (Nat × Nat)}
    (hapart : blocks.Pairwise (Apart unit)) (x : Nat) : mixedCoverage unit blocks x ≤ 1 := by
  induction blocks with
  | nil => simp
  | cons block rest ih =>
    obtain ⟨hhead, htail⟩ := pairwise_cons.mp hapart
    rw [mixedCoverage_cons]
    by_cases hcell : cell unit block.1 block.2 x = 1
    · -- Whatever else covers `x` would meet the first block.
      have hrest : mixedCoverage unit rest x = 0 := by
        by_contra hpos
        obtain ⟨other, hother, hone⟩ := exists_mem_of_mixedCoverage_pos (Nat.pos_of_ne_zero hpos)
        have hleft := cell_eq_one_iff.mp hcell
        have hright := cell_eq_one_iff.mp hone
        rcases hhead other hother with hle | hle <;> omega
      omega
    have hle := cell_le_one unit block.1 block.2 x
    have htail := ih htail
    omega

end AlignedBlocks
