/-
What the operations on a page table do to its partial maps and to the pages
it holds.  Every page obtained from the allocator is the root, a table or a
mapped page, and is counted where it hangs.
-/
import Redwing.PageTableRange
import Redwing.AlignedBlocks

namespace Redwing.Vm

open Function Walks PageTable

lemma kernelIndexEnd_eq : kernelIndexEnd = 5 := by
  have hpage := indexForVa_page 2 0x140000
  norm_num at hpage
  rw [kernelIndexEnd, hpage]

/-- The pages below this one belong to the kernel: six top-level entries. -/
def kernelPages : Nat := 1572864

lemma isKernelKey_iff {level k : Nat} (hlevel : level < 3) :
    isKernelKey level k = true ↔ k * 512 ^ level < kernelPages := by
  have hpages : kernelPages = 6 * 512 ^ (2 - level) * 512 ^ level := by
    rw [Nat.mul_assoc, ← Nat.pow_add, Nat.sub_add_cancel (by omega)]
    rfl
  rw [isKernelKey, decide_eq_true_iff, kernelIndexEnd_eq, hpages]
  exact (Nat.mul_lt_mul_right (Nat.pow_pos (by decide))).symm

/-- An entry for addresses of the user part of an address space. -/
structure UserKey (level k : Nat) : Prop where
  level_lt : level < 3
  lt : k < 512 ^ (3 - level)
  user : isKernelKey level k = false

/-- A page of the user part, of three levels with 512 entries each. -/
def UserPage (page : Nat) : Prop := kernelPages ≤ page ∧ page < 134217728

lemma UserPage.key {page : Nat} (h : UserPage page) {level : Nat}
    (hlevel : level < 3) : UserKey level (page / 512 ^ level) := by
  obtain ⟨hkernel, hlt⟩ := h
  refine ⟨hlevel, ?_, ?_⟩
  · apply Nat.div_lt_of_lt_mul
    rw [← Nat.pow_add, Nat.add_sub_cancel' (by omega)]
    exact hlt
  rw [← Bool.not_eq_true, isKernelKey_iff hlevel, Nat.not_lt]
  have hdvd : 512 ^ level ∣ kernelPages := by
    apply (Nat.pow_dvd_pow 512 (by omega : level ≤ 2)).trans
    exact ⟨6, rfl⟩
  obtain ⟨c, hc⟩ := hdvd
  rw [hc, Nat.mul_comm] at hkernel ⊢
  apply Nat.mul_le_mul_right
  rwa [Nat.le_div_iff_mul_le (Nat.pow_pos (by decide))]

lemma UserPage.page_key {page : Nat} (h : UserPage page) : UserKey 0 page := by
  have hkey := h.key (by omega : 0 < 3)
  rwa [Nat.pow_zero, Nat.div_one] at hkey

lemma UserKey.page {page : Nat} (h : UserKey 0 page) : UserPage page := by
  have huser := h.user
  rw [← Bool.not_eq_true, isKernelKey_iff (by omega)] at huser
  have hlt := h.lt
  norm_num at huser hlt
  exact ⟨huser, hlt⟩

lemma isKernelKey_parent {level : Nat} (hlevel : level < 2) (k : Nat) :
    isKernelKey level k = isKernelKey (level + 1) (k / 512) := by
  simp only [isKernelKey, kernelIndexEnd_eq]
  congr 1
  rw [Nat.div_lt_iff_lt_mul (by decide), Nat.mul_assoc, ← Nat.pow_succ]
  congr! 3
  omega

lemma userKey_parent {level k : Nat} (hlevel : level < 2) :
    UserKey level k ↔ UserKey (level + 1) (k / 512) := by
  have hlt : k < 512 ^ (3 - level) ↔ k / 512 < 512 ^ (3 - (level + 1)) := by
    rw [Nat.div_lt_iff_lt_mul (by decide), ← Nat.pow_succ]
    congr! 2
    omega
  have hkernel := isKernelKey_parent hlevel k
  constructor
  · intro h
    exact ⟨by omega, hlt.mp h.lt, hkernel ▸ h.user⟩
  · intro h
    exact ⟨by omega, hlt.mpr h.lt, hkernel ▸ h.user⟩

section

def PageTable.userTarget (t : PageTable) (level k : Nat) : Option Nat :=
  if isKernelKey level k then none
  else (t.lookup level k).map Pte.physicalAddr

/-- How often a page hangs in the page table: as the root, or under a user
entry of one of the three levels. -/
def PageTable.held (t : PageTable) (page : Nat) : Nat :=
  (if t.root = page then 1 else 0) + ∑ level ∈ Finset.range 3,
      occurrences (512 ^ (3 - level)) (t.userTarget level) page

def refersTo (e : Option Pte) (page : Nat) : Nat :=
  if e.map Pte.physicalAddr = some page then 1 else 0

@[simp] lemma refersTo_none (page : Nat) : refersTo none page = 0 := rfl

lemma refersTo_some (e : Pte) (page : Nat) :
    refersTo (some e) page = if e.physicalAddr = page then 1 else 0 := by
  simp [refersTo]

variable {t t' : PageTable}

lemma PageTable.held_change {level k : Nat} (hkey : UserKey level k) (hroot : t'.root = t.root)
    (hother : ∀ l j, (l, j) ≠ (level, k) → t'.lookup l j = t.lookup l j) (page : Nat) :
    t'.held page + refersTo (t.lookup level k) page =
      t.held page + refersTo (t'.lookup level k) page := by
  have hsame : ∀ l, l ≠ level → t'.userTarget l = t.userTarget l := by
    intro l hl
    funext j
    rw [userTarget, userTarget, hother l j (by simp [hl])]
  have hsum := AlignedBlocks.sum_update_add hkey.level_lt
    (fun l => occurrences (512 ^ (3 - l)) (t.userTarget l) page)
    (fun l => occurrences (512 ^ (3 - l)) (t'.userTarget l) page)
    (fun l hl => by simp only [hsame l hl])
  have hocc := occurrences_change hkey.lt (f := t.userTarget level)
    (g := t'.userTarget level) (fun j hj => by
      rw [userTarget, userTarget, hother level j (by simp [hj])]) page
  have hold : t.userTarget level k = (t.lookup level k).map Pte.physicalAddr := by
    simp [userTarget, hkey.user]
  have hnew : t'.userTarget level k = (t'.lookup level k).map Pte.physicalAddr := by
    simp [userTarget, hkey.user]
  rw [hold, hnew] at hocc
  simp only [held, hroot, refersTo]
  omega

lemma PageTable.refersTo_le_held {level k : Nat} (hkey : UserKey level k) {e : Pte}
    (he : t.lookup level k = some e) : 0 < t.held e.physicalAddr := by
  have hpos : 0 < occurrences (512 ^ (3 - level)) (t.userTarget level)
      e.physicalAddr :=
    occurrences_pos hkey.lt (by simp [userTarget, hkey.user, he])
  have hle := Finset.single_le_sum
    (f := fun l => occurrences (512 ^ (3 - l)) (t.userTarget l) e.physicalAddr)
    (fun _ _ => Nat.zero_le _) (Finset.mem_range.mpr hkey.level_lt)
  rw [held]
  omega

lemma PageTable.held_of_empty (hnone : ∀ level k, UserKey level k → t.lookup level k = none)
    (page : Nat) : t.held page = if t.root = page then 1 else 0 := by
  rw [held, Finset.sum_eq_zero, Nat.add_zero]
  intro level hlevel
  apply occurrences_eq_zero
  intro k hk
  rw [userTarget]
  split
  · simp
  rename_i huser
  have hkey : UserKey level k := ⟨Finset.mem_range.mp hlevel, hk, by simpa using huser⟩
  simp [hnone level k hkey]

end

/-- The pages obtained and not returned are those of others, `base`, and
those that hang in this page table. -/
structure Owns (base : Nat → Nat) (s : Space) : Prop where
  wf : s.table.Wf
  count : ∀ page, s.heap.issued.count page = base page + s.table.held page
  honest : s.heap.badFree = false

section

variable (t : PageTable) (level k l j : Nat)

lemma PageTable.lookup_setEntry (e : Pte) : (t.setEntry level k e).lookup l j =
    if l = level ∧ j = k then (if e.isValid then some e else none)
    else t.lookup l j := by
  simp only [lookup, setEntry]
  split <;> rfl

lemma PageTable.lookup_wipeTable : (t.wipeTable level k).lookup l j =
    if l + 1 = level ∧ j / 512 = k then none else t.lookup l j := by
  simp only [lookup, wipeTable]
  split <;> rfl

variable {t level k}

lemma PageTable.lookup_linkTable (hwf : t.Wf) (hlevel : level < 3) (hnone : t.lookup level k = none)
    (addr : Nat) : (t.linkTable level k addr).lookup l j =
      if l = level ∧ j = k then some (.makePde addr) else t.lookup l j := by
  rw [linkTable, lookup_setEntry, lookup_wipeTable]
  have hpde : (Pte.makePde addr).isValid = true := rfl
  rw [hpde, if_pos rfl]
  split
  · rfl
  split
  · rename_i hbelow
    obtain ⟨rfl, rfl⟩ := hbelow
    exact (hwf l j (by omega) hnone).symm
  · rfl

lemma PageTable.lookup_unlinkTable
    (hempty : ∀ l j, l + 1 = level → j / 512 = k → t.lookup l j = none) :
    (t.unlinkTable level k).lookup l j =
      if l = level ∧ j = k then none else t.lookup l j := by
  rw [unlinkTable, lookup_setEntry, lookup_wipeTable]
  have hzero : Pte.zero.isValid = false := rfl
  rw [hzero]
  split
  · rfl
  split
  · rename_i hbelow
    exact (hempty l j hbelow.1 hbelow.2).symm
  · rfl

end

lemma Heap.allocZeroedPage_eq_some {src : PageSource} {refused : Bool} {h h' : Heap}
    {page : Nat} (halloc : h.allocZeroedPage src refused = some (page, h')) :
    refused = false ∧ page = src.pick h.clock h.issued ∧ h' = { h with
        issued := page :: h.issued
        clock := h.clock + 1
        mem := update h.mem page fun _ => 0 } := by
  cases refused with
  | true => simp [allocZeroedPage] at halloc
  | false =>
    simp only [allocZeroedPage, Bool.false_eq_true, ↓reduceIte,
      Option.some.injEq, Prod.mk.injEq] at halloc
    obtain ⟨rfl, rfl⟩ := halloc
    exact ⟨rfl, rfl, rfl⟩

lemma Heap.allocZeroedPage_eq_none {src : PageSource} {refused : Bool} {h : Heap}
    (halloc : h.allocZeroedPage src refused = none) : refused = true := by
  cases refused with
  | true => rfl
  | false => simp [allocZeroedPage] at halloc

def withPage (base : Nat → Nat) (page : Nat) : Nat → Nat :=
  fun p => base p + if page = p then 1 else 0

lemma Heap.freePage_count {h : Heap} {base : Nat → Nat} {page : Nat}
    (hcount : ∀ p, h.issued.count p = withPage base page p) :
    (h.freePage page).badFree = h.badFree ∧ ∀ p, (h.freePage page).issued.count p = base p := by
  have hissued : page ∈ h.issued := by
    rw [← List.count_pos_iff, hcount]
    simp [withPage]
  rw [freePage, if_pos hissued]
  refine ⟨rfl, fun p => ?_⟩
  have hp := hcount p
  simp only [withPage] at hp
  simp only [List.count_erase, beq_iff_eq]
  omega

namespace Owns

variable {base : Nat → Nat} {s : Space} {t' : PageTable} {level k page : Nat}

lemma take (hs : Owns base s) {src : PageSource} {refused : Bool} {heap : Heap}
    (halloc : s.heap.allocZeroedPage src refused = some (page, heap)) :
    Owns (withPage base page) { s with heap } := by
  obtain ⟨-, -, rfl⟩ := Heap.allocZeroedPage_eq_some halloc
  refine ⟨hs.wf, ?_, hs.honest⟩
  intro p
  have hcount := hs.count p
  simp only [withPage, List.count_cons, beq_iff_eq]
  omega

lemma giveBack (hs : Owns (withPage base page) s) :
    Owns base { s with heap := s.heap.freePage page } := by
  have hcount : ∀ p, s.heap.issued.count p =
      withPage (fun p => base p + s.table.held p) page p := by
    intro p
    rw [hs.count, withPage, withPage]
    omega
  obtain ⟨hhonest, hback⟩ := Heap.freePage_count hcount
  exact ⟨hs.wf, hback, hhonest.trans hs.honest⟩

section

variable (hkey : UserKey level k) (hroot : t'.root = s.table.root)
  (hother : ∀ l j, (l, j) ≠ (level, k) → t'.lookup l j = s.table.lookup l j) (hwf : t'.Wf)

include hkey hroot hother hwf

lemma hang {e : Pte} (hs : Owns (withPage base e.physicalAddr) s)
    (hold : s.table.lookup level k = none)
    (hnew : t'.lookup level k = some e) : Owns base { s with table := t' } := by
  refine ⟨hwf, ?_, hs.honest⟩
  intro p
  have hheld := held_change hkey hroot hother p
  have hcount := hs.count p
  rw [hold, hnew, refersTo_none, refersTo_some] at hheld
  simp only [withPage] at hcount ⊢
  omega

lemma unhang {e : Pte} (hs : Owns base s) (hold : s.table.lookup level k = some e)
    (hnew : t'.lookup level k = none) :
    Owns (withPage base e.physicalAddr) { s with table := t' } := by
  refine ⟨hwf, ?_, hs.honest⟩
  intro p
  have hheld := held_change hkey hroot hother p
  have hcount := hs.count p
  rw [hold, hnew, refersTo_none, refersTo_some] at hheld
  simp only [withPage]
  omega

end
end Owns

section

variable {t t' : PageTable} {level k : Nat}
  (hother : ∀ l j, (l, j) ≠ (level, k) → t'.lookup l j = t.lookup l j)

include hother

lemma PageTable.Wf.insert (hwf : t.Wf) (hparent : level < 2 → t.lookup (level + 1) (k / 512) ≠ none)
    (hnew : t'.lookup level k ≠ none) : t'.Wf := by
  intro l j hl hnone
  by_cases hhere : (l, j) = (level, k)
  · cases hhere
    rw [hother _ _ (by simp)] at hnone
    exact absurd hnone (hparent hl)
  rw [hother l j hhere]
  apply hwf l j hl
  by_cases habove : (l + 1, j / 512) = (level, k)
  · cases habove
    exact absurd hnone hnew
  · rwa [hother _ _ habove] at hnone

lemma PageTable.Wf.remove (hwf : t.Wf) (hnew : t'.lookup level k = none)
    (hbelow : ∀ l j, l + 1 = level → j / 512 = k → t.lookup l j = none) : t'.Wf := by
  intro l j hl hnone
  by_cases hhere : (l, j) = (level, k)
  · cases hhere
    exact hnew
  rw [hother l j hhere]
  by_cases habove : (l + 1, j / 512) = (level, k)
  · cases habove
    exact hbelow l j rfl rfl
  · rw [hother _ _ habove] at hnone
    exact hwf l j hl hnone

end

/-- From `s` to `s'` the pages from `lo` up to `hi`, none of them mapped
before, were mapped with `perm`; everything else that was there stayed, and
every page obtained hangs in the table. -/
structure Maps (base : Nat → Nat) (refused : Refusals) (perm : EntryPerm)
    (lo hi : Nat) (s s' : Space) : Prop where
  root : s'.table.root = s.table.root
  page : ∀ v, lo ≤ v → v < hi → s.table.lookup 0 v = none ∧ refused 0 v = false ∧
      ∃ e, s'.table.lookup 0 v = some e ∧ e.perm = perm ∧ e.physicalAddr ∉ s.heap.issued
  other : ∀ v, ¬ (lo ≤ v ∧ v < hi) → s'.table.lookup 0 v = s.table.lookup 0 v
  table : ∀ l k e, 0 < l → s.table.lookup l k = some e → s'.table.lookup l k = some e
  newTable : ∀ l k, 0 < l → s.table.lookup l k = none →
    s'.table.lookup l k ≠ none → refused l k = false
  kernel : ∀ l k, l < 3 → isKernelKey l k = true → s'.table.lookup l k = s.table.lookup l k
  issued : ∀ p, p ∈ s.heap.issued → p ∈ s'.heap.issued
  mem : ∀ p, p ∈ s.heap.issued → s'.heap.mem p = s.heap.mem p
  owns : Owns base s'

namespace Maps

variable {base : Nat → Nat} {perm : EntryPerm} {s s' s'' : Space}

lemma refl (hs : Owns base s) (hle : hi ≤ lo) : Maps base refused perm lo hi s s where
  root := rfl
  page := fun v hlo hhi => by omega
  other := fun _ _ => rfl
  table := fun _ _ _ _ h => h
  newTable := fun _ _ _ hnone hsome => absurd hnone hsome
  kernel := fun _ _ _ _ => rfl
  issued := fun _ h => h
  mem := fun _ _ => rfl
  owns := hs

lemma trans (h : Maps base refused perm lo mid s s') (h' : Maps base refused perm mid hi s' s'')
    (hlo : lo ≤ mid) (hhi : mid ≤ hi) : Maps base refused perm lo hi s s'' where
  root := h'.root.trans h.root
  page := by
    intro v hvlo hvhi
    by_cases hv : v < mid
    · obtain ⟨hfree, hgranted, e, he, hperm, hfresh⟩ := h.page v hvlo hv
      exact ⟨hfree, hgranted, e, (h'.other v (by omega)).trans he, hperm, hfresh⟩
    obtain ⟨hfree, hgranted, e, he, hperm, hfresh⟩ := h'.page v (by omega) hvhi
    rw [h.other v (by omega)] at hfree
    exact ⟨hfree, hgranted, e, he, hperm, fun hissued => hfresh (h.issued _ hissued)⟩
  other := by
    intro v hv
    rw [h'.other v (by omega), h.other v (by omega)]
  table := fun l k e hl he => h'.table l k e hl (h.table l k e hl he)
  newTable := by
    intro l k hl hnone hsome
    by_cases hmid : s'.table.lookup l k = none
    · exact h'.newTable l k hl hmid hsome
    · exact h.newTable l k hl hnone hmid
  kernel := by
    intro l k hl hk
    rw [h'.kernel l k hl hk, h.kernel l k hl hk]
  issued := fun p hp => h'.issued p (h.issued p hp)
  mem := fun p hp => (h'.mem p (h.issued p hp)).trans (h.mem p hp)
  owns := h'.owns

lemma cast {lo' hi' : Nat} (h : Maps base refused perm lo hi s s') (hempty : hi ≤ lo)
    (hempty' : hi' ≤ lo') : Maps base refused perm lo' hi' s s' where
  root := h.root
  page := fun v hlo hhi => by omega
  other := fun v _ => h.other v (by omega)
  table := h.table
  newTable := h.newTable
  kernel := h.kernel
  issued := h.issued
  mem := h.mem
  owns := h.owns

end Maps

section

variable {src : PageSource} {base : Nat → Nat} {perm : EntryPerm} {s s' : Space} {heap : Heap}
  {page : Nat}

lemma Heap.allocZeroedPage_fresh {h h' : Heap} {r : Bool}
    (halloc : h.allocZeroedPage src r = some (page, h')) :
    page ∉ h.issued ∧ page / 4096 * 4096 = page ∧ page ≠ 0 := by
  obtain ⟨-, rfl, -⟩ := allocZeroedPage_eq_some halloc
  have haligned := src.aligned h.clock h.issued
  exact ⟨src.fresh _ _, by omega, src.ne_zero _ _⟩

lemma Heap.allocZeroedPage_issued {h h' : Heap} {r : Bool}
    (halloc : h.allocZeroedPage src r = some (page, h')) {p : Nat}
    (hp : p ∈ h.issued) : p ∈ h'.issued ∧ h'.mem p = h.mem p := by
  have hfresh := (allocZeroedPage_fresh halloc).1
  obtain ⟨-, -, rfl⟩ := allocZeroedPage_eq_some halloc
  have hne : p ≠ page := fun heq => hfresh (heq ▸ hp)
  exact ⟨List.mem_cons_of_mem _ hp, update_of_ne hne _ _⟩

/-- How the table under an entry comes about: it is there, or the page for it
is turned down, or it is added. -/
inductive Ensured (src : PageSource) (refused : Refusals) (level k : Nat)
    (s : Space) : Option Space → Prop
  | refused (hnone : s.table.lookup level k = none)
      (hrefused : refused level k = true) : Ensured src refused level k s none
  | present (hhere : s.table.lookup level k ≠ none) :
      Ensured src refused level k s (some s)
  | added {addr : Nat} {heap : Heap} (hnone : s.table.lookup level k = none)
      (halloc : s.heap.allocZeroedPage src (refused level k) = some (addr, heap))
      (hhere : (s.table.linkTable level k addr).lookup level k = some (.makePde addr))
      (hother : ∀ l j, (l, j) ≠ (level, k) →
        (s.table.linkTable level k addr).lookup l j = s.table.lookup l j) :
      Ensured src refused level k s (some { table := s.table.linkTable level k addr, heap })

lemma ensureTable_ensured (src : PageSource) (refused : Refusals)
    {level : Nat} (va : Nat) (hwf : s.table.Wf) (hlevel : level < 3) :
    Ensured src refused level (key level va) s (ensureTable src refused level va s) := by
  rw [ensureTable]
  by_cases hvalid : (s.table.entry level (key level va)).isValid = true
  · rw [if_pos hvalid]
    refine .present ?_
    rw [ne_eq, lookup_eq_none, hvalid]
    decide
  rw [if_neg hvalid]
  have hnone : s.table.lookup level (key level va) = none := by
    rw [lookup_eq_none]
    simpa using hvalid
  cases halloc : s.heap.allocZeroedPage src (refused level (key level va)) with
  | none => exact .refused hnone (Heap.allocZeroedPage_eq_none halloc)
  | some granted =>
    obtain ⟨addr, heap⟩ := granted
    have hlookup := fun l j => lookup_linkTable l j hwf hlevel hnone addr
    refine .added hnone halloc ?_ ?_
    · rw [hlookup, if_pos ⟨rfl, rfl⟩]
    · intro l j hne
      rw [hlookup, if_neg (by simpa using hne)]

lemma ensureTable_spec (src : PageSource) (refused : Refusals) (perm : EntryPerm) {level : Nat}
    (va lo : Nat) (hs : Owns base s) (hkey : UserKey level (key level va)) (hlevel : 0 < level)
    (hparent : level < 2 → s.table.lookup (level + 1) (key level va / 512) ≠ none) :
    match ensureTable src refused level va s with
    | none => s.table.lookup level (key level va) = none ∧
        refused level (key level va) = true
    | some s' => Maps base refused perm lo lo s s' ∧
        s'.table.lookup level (key level va) ≠ none := by
  have hensured := ensureTable_ensured src refused va hs.wf hkey.level_lt
  generalize ensureTable src refused level va s = out at hensured ⊢
  cases hensured with
  | refused hnone hrefused => exact ⟨hnone, hrefused⟩
  | present hhere => exact ⟨Maps.refl hs le_rfl, hhere⟩
  | @added addr heap hnone halloc hhere hother =>
    have hwf := hs.wf.insert hother hparent (by simp [hhere])
    have haddr : (Pte.makePde addr).physicalAddr = addr := (Heap.allocZeroedPage_fresh halloc).2.1
    have htaken := hs.take halloc
    rw [← haddr] at htaken
    have hroot : (s.table.linkTable level (key level va) addr).root =
        s.table.root := rfl
    have howns := Owns.hang (s := { s with heap }) hkey hroot hother hwf htaken hnone hhere
    refine ⟨⟨hroot, fun v hlo hhi => by omega, ?_, ?_, ?_, ?_, ?_, ?_, howns⟩, by simp [hhere]⟩
    · intro v _
      exact hother 0 v (by simp; omega)
    · intro l j e _ he
      by_cases heq : (l, j) = (level, key level va)
      · cases heq
        simp [hnone] at he
      · exact (hother l j heq).trans he
    · intro l j _ hold hnew
      by_cases heq : (l, j) = (level, key level va)
      · cases heq
        exact (Heap.allocZeroedPage_eq_some halloc).1
      · exact absurd ((hother l j heq).trans hold) hnew
    · intro l j _ hkernel
      apply hother
      rintro ⟨rfl, rfl⟩
      simp [hkey.user] at hkernel
    · exact fun p hp => (Heap.allocZeroedPage_issued halloc hp).1
    · exact fun p hp => (Heap.allocZeroedPage_issued halloc hp).2

lemma Maps.hangPage {page addr : Nat} {e : Pte} (huser : UserPage page)
    (halloc : s.heap.allocZeroedPage src (refused 0 page) = some (addr, heap))
    (hpath : Maps (withPage base addr) refused perm page page { s with heap } s')
    (hparent : s'.table.lookup 1 (page / 512) ≠ none) (hnone : s'.table.lookup 0 page = none)
    (hvalid : e.isValid = true) (hperm : e.perm = perm) (haddr : e.physicalAddr = addr) :
    Maps base refused perm page (page + 1) s
      { s' with table := s'.table.setEntry 0 page e } := by
  have hkey := huser.page_key
  have hhere : (s'.table.setEntry 0 page e).lookup 0 page = some e := by
    rw [lookup_setEntry, if_pos ⟨rfl, rfl⟩, if_pos hvalid]
  have hother : ∀ l j, (l, j) ≠ (0, page) →
      (s'.table.setEntry 0 page e).lookup l j = s'.table.lookup l j := by
    intro l j hne
    rw [lookup_setEntry, if_neg (by simpa using hne)]
  have hwf := hpath.owns.wf.insert hother (fun _ => hparent) (by simp [hhere])
  have hroot : (s'.table.setEntry 0 page e).root = s'.table.root := rfl
  have htransit : Owns (withPage base e.physicalAddr) s' := haddr ▸ hpath.owns
  refine
    { root := hpath.root
      page := ?_
      other := ?_
      table := ?_
      newTable := ?_
      kernel := ?_
      issued := ?_
      mem := ?_
      owns := htransit.hang hkey hroot hother hwf hnone hhere }
  · intro v hlo hhi
    obtain rfl : v = page := by omega
    refine ⟨?_, (Heap.allocZeroedPage_eq_some halloc).1, e, hhere, hperm, ?_⟩
    · rw [← hnone, hpath.other v (by omega)]
    · exact haddr ▸ (Heap.allocZeroedPage_fresh halloc).1
  · intro v hv
    rw [← hpath.other v (by omega)]
    exact hother 0 v (by simp; omega)
  · intro l j a hl ha
    exact (hother l j (by simp; omega)).trans (hpath.table l j a hl ha)
  · intro l j hl hold hnew
    exact hpath.newTable l j hl hold fun hmid => hnew ((hother l j (by simp; omega)).trans hmid)
  · intro l j hl hkernel
    rw [← hpath.kernel l j hl hkernel]
    apply hother
    rintro ⟨rfl, rfl⟩
    simp [hkey.user] at hkernel
  · exact fun p hp => hpath.issued p (Heap.allocZeroedPage_issued halloc hp).1
  intro p hp
  obtain ⟨hissued, hmem⟩ := Heap.allocZeroedPage_issued halloc hp
  exact (hpath.mem p hissued).trans hmem

/-- What the closure of `vmap` does to a page. -/
inductive EntryMapped (src : PageSource) (refused : Refusals)
    (perm : EntryPerm) (page : Nat) (s : Space) :
    Space × Except SysError Unit → Prop
  | stopped {e : SysError}
      (hwhy : s.table.lookup 0 page ≠ none ∨ refused 0 page = true) :
      EntryMapped src refused perm page s (s, .error e)
  | mapped {addr : Nat} {heap : Heap} {e : Pte}
      (hnone : s.table.lookup 0 page = none)
      (halloc : s.heap.allocZeroedPage src (refused 0 page) = some (addr, heap))
      (hperm : e.perm = perm) (haddr : e.physicalAddr = addr) :
      EntryMapped src refused perm page s ({ table := s.table.setEntry 0 page e, heap }, .ok ())

lemma vmapEntry_mapped {out : Space × Except SysError Unit}
    (hrun : vmapEntry src refused perm (page * 4096) s = some out) :
    EntryMapped src refused perm page s out := by
  rw [vmapEntry, key_zero_page] at hrun
  by_cases hvalid : (s.table.entry 0 page).isValid = true
  · rw [if_pos hvalid] at hrun
    cases hrun
    refine .stopped (.inl ?_)
    rw [ne_eq, lookup_eq_none, hvalid]
    decide
  rw [if_neg hvalid] at hrun
  have hnone : s.table.lookup 0 page = none := by
    rw [lookup_eq_none]
    simpa using hvalid
  cases halloc : s.heap.allocZeroedPage src (refused 0 page) with
  | none =>
    simp only [halloc] at hrun
    cases hrun
    exact .stopped (.inr (Heap.allocZeroedPage_eq_none halloc))
  | some granted =>
    obtain ⟨addr, heap⟩ := granted
    obtain ⟨hfresh, haddr, hne⟩ := Heap.allocZeroedPage_fresh halloc
    have hset : (s.table.entry 0 page).setPhysicalAddr addr =
        some { s.table.entry 0 page with ppn := addr / 4096 } := by
      rw [Pte.setPhysicalAddr, if_pos ⟨by omega, hne⟩]
    simp only [halloc, hset] at hrun
    cases hrun
    exact .mapped hnone halloc rfl haddr

lemma vmapEntry_spec (hs : Owns base s) {page : Nat} (huser : UserPage page)
    (hparent : s.table.lookup 1 (page / 512) ≠ none)
    (hperm : perm.valid = true) {out : Space × Except SysError Unit}
    (hrun : vmapEntry src refused perm (page * 4096) s = some out) :
    Outcome (Maps base refused perm page (page + 1) s) (fun s' _ => s' = s ∧
        (s.table.lookup 0 page ≠ none ∨ refused 0 page = true)) out := by
  cases vmapEntry_mapped hrun with
  | stopped hwhy => exact ⟨rfl, hwhy⟩
  | mapped hnone halloc hperm' haddr =>
    exact Maps.hangPage huser halloc (Maps.refl (hs.take halloc) le_rfl)
      hparent hnone (by rw [Pte.isValid, hperm', hperm]) hperm' haddr

end
end Redwing.Vm
