/-
Who uses which page of the shared memory.  A page of a user address space is
its top-level table or hangs under one entry, and the tables of the kernel are
none of them; this is kept by every function of `arch/riscv64/pgtable.rs` that
works on the user part.
-/
import Redwing.SharedTables
import Redwing.PageTableSpec

namespace Redwing.Shared

open Vm (PageSource Refusals EntryPerm Pte SysError kernelIndexStart
  kernelIndexEnd indexForVa startIdx endIdx vaForIndex vaLimit)
open Walks Function List Option

/-- The tables of the kernel and what they hold. -/
structure Kernel where
  root : Nat
  table : Nat → Prop
  entries : Nat → Nat → Pte

/-- What a page of an address space is: the top-level table, or the page under
an entry, which is a table unless its height is 0. -/
inductive Role
  | root (id : Nat)
  | under (height : Nat) (parent : PteRef)

namespace Role

def height : Role → Nat
  | root _ => 3
  | under height _ => height

def user : Role → Nat → Prop
  | root _, idx => ¬ (kernelIndexStart ≤ idx ∧ idx ≤ kernelIndexEnd)
  | under _ _, _ => True

end Role

abbrev Roles := Nat → Option Role

structure Owned (k : Kernel) (roles : Roles) (m : Phys) : Prop where
  once : m.heap.issued.Nodup
  kernel : ∀ p, k.table p → roles p = none ∧ m.tables p = k.entries p ∧
    p ∈ m.heap.issued ∧ p ∉ m.touched
  issued : ∀ p role, roles p = some role → p ∈ m.heap.issued
  entry : ∀ p role i, roles p = some role → 0 < role.height → role.user i →
    (m.tables p i).isValid = true → roles (m.tables p i).physicalAddr =
        some (.under (role.height - 1) ⟨p, i⟩)
  top : ∀ p id i, roles p = some (.root id) → kernelIndexStart ≤ i →
    i ≤ kernelIndexEnd → m.tables p i = k.entries k.root i

/-- A call keeps the tables of height `low` and more, and the pages that were
in use elsewhere. -/
structure Keeps (k : Kernel) (low : Nat) (roles : Roles) (m : Phys)
    (roles' : Roles) (m' : Phys) : Prop where
  owned : Owned k roles' m'
  keeps : ∀ p role, roles p = some role → low ≤ role.height → roles' p = some role
  spare : ∀ p, p ∈ m.heap.issued → roles p = none → roles' p = none ∧ p ∈ m'.heap.issued

/-- A page that was just obtained. -/
structure Taken (k : Kernel) (roles : Roles) (m : Phys) (p : Nat) (m' : Phys) :
    Prop where
  keeps : ∀ low, Keeps k low roles m roles m'
  new : roles p = none
  fresh : p ∉ m.heap.issued
  issued : p ∈ m'.heap.issued
  kernel : ¬ k.table p
  zero : ∀ i, m'.tables p i = .zero
  aligned : p % 4096 = 0

variable {k : Kernel} {low' : Nat} {roles roles' roles'' : Roles} {m m' m'' : Phys} {role : Role}
  {r : PteRef}

lemma Keeps.refl (h : Owned k roles m) : Keeps k low roles m roles m :=
  ⟨h, fun _ _ h _ => h, fun _ hp hnone => ⟨hnone, hp⟩⟩

lemma Keeps.trans (h : Keeps k low roles m roles' m') (h' : Keeps k low roles' m' roles'' m'') :
    Keeps k low roles m roles'' m'' where
  owned := h'.owned
  keeps p role hp hlow := h'.keeps p role (h.keeps p role hp hlow) hlow
  spare p hp hnone := h'.spare p (h.spare p hp hnone).2 (h.spare p hp hnone).1

lemma Keeps.mono (h : Keeps k low roles m roles' m') (hlow : low ≤ low') :
    Keeps k low' roles m roles' m' :=
  ⟨h.owned, fun p role hp hle => h.keeps p role hp (hlow.trans hle), h.spare⟩

lemma setPte_pte_of_ne (m : Phys) (h : r' ≠ r) (e : Pte) : (m.setPte r e).pte r' = m.pte r' := by
  simp only [Phys.setPte, Phys.pte]
  by_cases htable : r'.table = r.table
  · have hidx : r'.idx ≠ r.idx := by
      intro hidx
      apply h
      cases r
      cases r'
      simp_all
    rw [htable, update_self, update_of_ne hidx]
  · rw [update_of_ne htable]

namespace Owned

lemma not_kernel (h : Owned k roles m) (hp : roles p = some role) : ¬ k.table p := by
  intro hk
  rw [(h.kernel p hk).1] at hp
  cases hp

lemma pte (h : Owned k roles m) (hr : roles r.table = some role) (hheight : 0 < role.height)
    (huser : role.user r.idx) (hvalid : (m.pte r).isValid = true) :
    roles (m.pte r).physicalAddr = some (.under (role.height - 1) r) :=
  h.entry r.table role r.idx hr hheight huser hvalid

lemma give (h : Owned k roles m) (hnew : roles p = none)
    (hissued : p ∈ m.heap.issued) (hkernel : ¬ k.table p)
    (hzero : 0 < role.height → ∀ i, role.user i → (m.tables p i).isValid = false)
    (htop : ∀ id i, role = .root id → kernelIndexStart ≤ i →
      i ≤ kernelIndexEnd → m.tables p i = k.entries k.root i) :
    Owned k (update roles p (some role)) m := by
  have hold : ∀ q role', update roles p (some role) q = some role' →
      q = p ∧ role' = role ∨ q ≠ p ∧ roles q = some role' := by
    intro q role' hq
    by_cases heq : q = p
    · rw [heq, update_self] at hq
      exact .inl ⟨heq, (some.inj hq).symm⟩
    · rw [update_of_ne heq] at hq
      exact .inr ⟨heq, hq⟩
  refine ⟨h.once, ?_, ?_, ?_, ?_⟩
  · intro q hq
    have hne : q ≠ p := fun heq => hkernel (heq ▸ hq)
    rw [update_of_ne hne]
    exact h.kernel q hq
  · intro q role' hq
    rcases hold q role' hq with ⟨rfl, -⟩ | ⟨-, hq⟩
    · exact hissued
    · exact h.issued q role' hq
  · intro q role' i hq hheight huser hvalid
    rcases hold q role' hq with ⟨rfl, rfl⟩ | ⟨-, hq⟩
    · rw [hzero hheight i huser] at hvalid
      cases hvalid
    have htarget := h.entry q role' i hq hheight huser hvalid
    rw [update_of_ne, htarget]
    intro heq
    rw [heq, hnew] at htarget
    cases htarget
  intro q id i hq hlo hhi
  rcases hold q _ hq with ⟨rfl, hrole⟩ | ⟨-, hq⟩
  · exact htop id i hrole.symm hlo hhi
  · exact h.top q id i hq hlo hhi

lemma disown (h : Owned k roles m)
    (hfree : ∀ q role i, roles q = some role → 0 < role.height → role.user i →
      (m.tables q i).isValid = true → (m.tables q i).physicalAddr ≠ p) :
    Owned k (update roles p none) m := by
  have hold : ∀ q role, update roles p none q = some role → roles q = some role := by
    intro q role hq
    by_cases heq : q = p
    · rw [heq, update_self] at hq
      cases hq
    · rwa [update_of_ne heq] at hq
  refine ⟨h.once, ?_, ?_, ?_, ?_⟩
  · intro q hq
    refine ⟨?_, (h.kernel q hq).2⟩
    rw [update_apply]
    split
    · rfl
    · exact (h.kernel q hq).1
  · exact fun q role hq => h.issued q role (hold q role hq)
  · intro q role i hq hheight huser hvalid
    have hq := hold q role hq
    rw [update_of_ne (hfree q role i hq hheight huser hvalid)]
    exact h.entry q role i hq hheight huser hvalid
  · exact fun q id i hq => h.top q id i (hold q _ hq)

lemma setPte (h : Owned k roles m) (hr : roles r.table = some role) (huser : role.user r.idx)
    (he : e.isValid = true → 0 < role.height →
      roles e.physicalAddr = some (.under (role.height - 1) r)) :
    Owned k roles (m.setPte r e) := by
  have hkernel := h.not_kernel hr
  refine ⟨h.once, ?_, h.issued, ?_, ?_⟩
  · intro q hq
    have hne : q ≠ r.table := fun heq => hkernel (heq ▸ hq)
    obtain ⟨hnone, htable, hissued, htouched⟩ := h.kernel q hq
    refine ⟨hnone, ?_, hissued, ?_⟩
    · simp [Phys.setPte, update_of_ne hne, htable]
    · rw [Phys.setPte, mem_cons, not_or]
      exact ⟨hne, htouched⟩
  · intro q role' i hq hheight huser' hvalid
    by_cases hself : (⟨q, i⟩ : PteRef) = r
    · subst hself
      obtain rfl : role = role' := some.inj (hr.symm.trans hq)
      simp only [Phys.setPte, update_self] at hvalid ⊢
      exact he hvalid hheight
    have hsame : (m.setPte r e).tables q i = m.tables q i := setPte_pte_of_ne m hself e
    rw [hsame] at hvalid ⊢
    exact h.entry q role' i hq hheight huser' hvalid
  intro q id i hq hlo hhi
  have hne : (⟨q, i⟩ : PteRef) ≠ r := by
    rintro rfl
    obtain rfl := some.inj (hr.symm.trans hq)
    exact huser ⟨hlo, hhi⟩
  have hsame : (m.setPte r e).tables q i = m.tables q i := setPte_pte_of_ne m hne e
  rw [hsame]
  exact h.top q id i hq hlo hhi

lemma mem_freePage (hq : q ∈ m.heap.issued) (hne : q ≠ p) : q ∈ (m.freePage p).heap.issued := by
  rw [Phys.freePage, Vm.Heap.freePage]
  dsimp only
  split
  · exact (mem_erase_of_ne hne).mpr hq
  · exact hq

lemma freePage (h : Owned k roles m) (hnone : roles p = none)
    (hkernel : ¬ k.table p) : Owned k roles (m.freePage p) := by
  refine ⟨?_, ?_, ?_, h.entry, h.top⟩
  · rw [Phys.freePage, Vm.Heap.freePage]
    dsimp only
    split
    · exact h.once.erase p
    · exact h.once
  · intro q hq
    have hne : q ≠ p := fun heq => hkernel (heq ▸ hq)
    obtain ⟨hnone, htable, hissued, htouched⟩ := h.kernel q hq
    refine ⟨hnone, htable, mem_freePage hissued hne, ?_⟩
    rw [Phys.freePage, mem_cons, not_or]
    exact ⟨hne, htouched⟩
  intro q role hq
  refine mem_freePage (h.issued q role hq) fun heq => ?_
  rw [heq, hnone] at hq
  cases hq

lemma write (h : Owned k roles m) (hkernel : ¬ k.table p)
    (htables : ∀ q, q ≠ p ∨ roles q ≠ none → m'.tables q = m.tables q)
    (honce : m'.heap.issued.Nodup) (hissued : m.heap.issued ⊆ m'.heap.issued)
    (htouched : m'.touched = p :: m.touched) : Owned k roles m' := by
  refine ⟨honce, ?_, ?_, ?_, ?_⟩
  · intro q hq
    have hne : q ≠ p := fun heq => hkernel (heq ▸ hq)
    obtain ⟨hnone, htable, hmem, hout⟩ := h.kernel q hq
    refine ⟨hnone, (htables q (.inl hne)).trans htable, hissued hmem, ?_⟩
    rw [htouched, mem_cons, not_or]
    exact ⟨hne, hout⟩
  · exact fun q role hq => hissued (h.issued q role hq)
  · intro q role i hq hheight huser hvalid
    rw [htables q (.inr (by simp [hq]))] at hvalid ⊢
    exact h.entry q role i hq hheight huser hvalid
  intro q id i hq hlo hhi
  rw [htables q (.inr (by simp [hq]))]
  exact h.top q id i hq hlo hhi

lemma take (h : Owned k roles m) (halloc : m.allocZeroedPage src refused = some (p, m')) :
    Taken k roles m p m' := by
  rw [Phys.allocZeroedPage, Vm.Heap.allocZeroedPage] at halloc
  split at halloc
  · cases halloc
  rename_i page heap hheap
  split at hheap
  · cases hheap
  cases halloc
  cases hheap
  generalize hpage : src.pick m.heap.clock m.heap.issued = page
  have hfresh : page ∉ m.heap.issued := hpage ▸ src.fresh _ _
  have hkernel : ¬ k.table page := fun hk => hfresh (h.kernel page hk).2.2.1
  have hnone : roles page = none := by
    cases hrole : roles page with
    | none => rfl
    | some role => exact absurd (h.issued page role hrole) hfresh
  refine ⟨fun _ => ⟨?_, fun _ _ h _ => h, fun q hq hq' => ⟨hq', ?_⟩⟩, hnone, hfresh,
    mem_cons_self .., hkernel, fun i => ?_, hpage ▸ src.aligned _ _⟩
  · refine h.write hkernel (fun q hq => ?_)
      (nodup_cons.mpr ⟨hfresh, h.once⟩) (subset_cons_self _ _) rfl
    have hne : q ≠ page := by
      rintro rfl
      rcases hq with hne | hrole
      · exact hne rfl
      · exact hrole hnone
    exact update_of_ne hne _ _
  · exact mem_cons_of_mem _ hq
  · dsimp only
    rw [update_self]

lemma put (h : Owned k roles m) (hnew : roles p = none) (hissued : p ∈ m.heap.issued)
    (hkernel : ¬ k.table p) (hzero : 1 < role.height → ∀ i, m.tables p i = .zero)
    (hr : roles r.table = some role) (huser : role.user r.idx) (he : e.physicalAddr = p) :
    Owned k (update roles p (some (.under (role.height - 1) r))) (m.setPte r e) := by
  have hne : r.table ≠ p := by
    intro heq
    rw [heq, hnew] at hr
    cases hr
  have hgiven : Owned k (update roles p (some (.under (role.height - 1) r))) m := by
    refine h.give hnew hissued hkernel (fun hheight i _ => ?_) ?_
    · rw [Role.height] at hheight
      rw [hzero (by omega) i]
      rfl
    · intro id i hrole
      cases hrole
  have hr : update roles p (some (.under (role.height - 1) r)) r.table = some role := by
    rw [update_of_ne hne, hr]
  refine hgiven.setPte hr huser fun _ _ => ?_
  rw [he, update_self]

lemma release {height : Nat} (h : Owned k roles m) (hr : roles r.table = some role)
    (huser : role.user r.idx) (hp : roles p = some (.under height r)) :
    Owned k (update roles p none) ((m.setPte r .zero).freePage p) := by
  have hcut : Owned k roles (m.setPte r .zero) := h.setPte hr huser fun hvalid => by cases hvalid
  have hdone : Owned k (update roles p none) (m.setPte r .zero) := by
    refine hcut.disown ?_
    rintro q role' i hq hheight huser' hvalid rfl
    have htarget := hcut.entry q role' i hq hheight huser' hvalid
    rw [hp, some.injEq, Role.under.injEq] at htarget
    rw [htarget.2] at hvalid
    simp [Phys.setPte, Pte.isValid, Pte.zero, EntryPerm.empty] at hvalid
  exact hdone.freePage (update_self ..) (h.not_kernel hp)

end Owned

/-! ### Creating tables and mapping pages -/

section

variable {src : PageSource}

lemma Keeps.put (h : Keeps k low roles m roles' m') (hfresh : p ∉ m.heap.issued)
    (hnew : roles' p = none) (hissued : p ∈ m'.heap.issued) (hkernel : ¬ k.table p)
    (hzero : 1 < role.height → ∀ i, m'.tables p i = .zero) (hr : roles' r.table = some role)
    (huser : role.user r.idx) (he : e.physicalAddr = p) :
    Keeps k low roles m (update roles' p (some (.under (role.height - 1) r))) (m'.setPte r e) := by
  refine ⟨h.owned.put hnew hissued hkernel hzero hr huser he,
    fun q role' hq hlow => ?_, fun q hq hnone => ?_⟩
  · have hq := h.keeps q role' hq hlow
    rw [update_of_ne, hq]
    rintro rfl
    rw [hnew] at hq
    cases hq
  obtain ⟨hnone, hmem⟩ := h.spare q hq hnone
  refine ⟨?_, hmem⟩
  rw [update_of_ne, hnone]
  rintro rfl
  exact hfresh hq

lemma Taken.put (h : Taken k roles m p m') (hr : roles r.table = some role)
    (huser : role.user r.idx) (he : e.physicalAddr = p) :
    Keeps k low roles m (update roles p (some (.under (role.height - 1) r))) (m'.setPte r e) :=
  (h.keeps low).put h.fresh h.new h.issued h.kernel (fun _ => h.zero) hr huser he

lemma ensureTable_keeps (h : Owned k roles m) (hr : roles r.table = some role)
    (hheight : 0 < role.height) (huser : role.user r.idx)
    (hrun : ensureTable src turnedDown r m = some (table, m')) :
    ∃ roles', Keeps k 1 roles m roles' m' ∧ roles' table = some (.under (role.height - 1) r) := by
  rw [ensureTable] at hrun
  split at hrun
  · rename_i hvalid
    cases hrun
    exact ⟨roles, .refl h, h.pte hr hheight huser hvalid⟩
  split at hrun
  · cases hrun
  · rename_i page m₁ halloc
    cases hrun
    have htaken := h.take halloc
    refine ⟨_, htaken.put hr huser ?_, update_self ..⟩
    rw [Pte.makePde, Pte.physicalAddr]
    exact Nat.div_mul_cancel (Nat.dvd_of_mod_eq_zero htaken.aligned)

/-- The entries that a walk of the user part leads to. -/
def Leaf (roles : Roles) (r : PteRef) : Prop := ∃ parent, roles r.table = some (.under 1 parent)

lemma Leaf.keeps (h : Leaf roles r) (hkeeps : Keeps k 1 roles m roles' m') : Leaf roles' r :=
  h.imp fun _ hr => hkeeps.keeps _ _ hr (le_refl 1)

lemma setPhysicalAddr_eq {e e' : Pte} {page : Nat} (h : e.setPhysicalAddr page = some e')
    (perm : EntryPerm) : (e'.setPerm perm).physicalAddr = page := by
  rw [Pte.setPhysicalAddr] at h
  split at h
  · rename_i haligned
    cases h
    exact Nat.div_mul_cancel (Nat.dvd_of_mod_eq_zero haligned.1)
  · cases h

lemma vmapEntry_keeps (h : Owned k roles m) (hr : Leaf roles r)
    (hrun : vmapEntry src refused perm curVa r m = some out) :
    ∃ roles', Keeps k 1 roles m roles' out.1 := by
  obtain ⟨parent, hr⟩ := hr
  simp only [vmapEntry] at hrun
  split at hrun
  · cases hrun
    exact ⟨roles, .refl h⟩
  split at hrun
  · cases hrun
    exact ⟨roles, .refl h⟩
  rename_i page m₁ halloc
  split at hrun
  · cases hrun
  rename_i e haddr
  cases hrun
  exact ⟨_, (h.take halloc).put hr trivial (setPhysicalAddr_eq haddr perm)⟩

lemma walkRange_keeps (h : Owned k roles m) (hrole : roles table = some role)
    (hheight : role.height = level + 1)
    (huser : ∀ i, startIdx level startVa isFirst ≤ i → role.user i)
    (hrun : walkRangeMutRecursive src refused (vmapEntry src refused perm) level
      table baseVa startVa endVa isFirst isLast m = some out) :
    ∃ roles', Keeps k 1 roles m roles' out.1 := by
  induction level generalizing roles m table role baseVa isFirst isLast out with
  | zero =>
    rw [walkRangeMutRecursive] at hrun
    dsimp only at hrun
    split at hrun
    · cases hrun
    refine tryEach_invariant (P := fun m' => ∃ roles', Keeps k 1 roles m roles' m')
      (fun idx _ m₁ next hm₁ hbody => ?_) ⟨roles, .refl h⟩ hrun
    obtain ⟨roles₁, hkeeps⟩ := hm₁
    have hleaf : Leaf roles₁ ⟨table, idx⟩ := by
      cases role with
      | root id => cases hheight
      | under height parent =>
        obtain rfl : height = 1 := hheight
        exact ⟨parent, hkeeps.keeps table _ hrole (le_refl 1)⟩
    split at hbody
    · cases hbody
    all_goals
      rename_i hentry
      cases hbody
      obtain ⟨roles₂, hnext⟩ := vmapEntry_keeps hkeeps.owned hleaf hentry
      exact ⟨roles₂, hkeeps.trans hnext⟩
  | succ level ih =>
    rw [walkRangeMutRecursive] at hrun
    dsimp only at hrun
    split at hrun
    · cases hrun
    refine tryEach_invariant (P := fun m' => ∃ roles', Keeps k 1 roles m roles' m')
      (fun idx hidx m₁ next hm₁ hbody => ?_) ⟨roles, .refl h⟩ hrun
    obtain ⟨roles₁, hkeeps⟩ := hm₁
    have hrole₁ := hkeeps.keeps table role hrole (by omega)
    have hidx := huser idx (mem_interval.mp hidx).1
    split at hbody
    · cases hbody
      exact ⟨roles₁, hkeeps⟩
    rename_i below m₂ hensure
    obtain ⟨roles₂, hkeeps₂, hbelow⟩ := ensureTable_keeps hkeeps.owned
      (r := ⟨table, idx⟩) hrole₁ (by omega) hidx hensure
    obtain ⟨roles₃, hkeeps₃⟩ := ih hkeeps₂.owned hbelow
      (by rw [Role.height, hheight]; omega) (fun _ _ => trivial) hbody
    exact ⟨roles₃, hkeeps.trans (hkeeps₂.trans hkeeps₃)⟩

end

/-! ### Unmapping pages -/

section

def Below (roles : Roles) : Nat → Nat → PteRef → Prop
  | 0, table, r => r.table = table
  | level + 1, table, r => ∃ below idx,
      roles below = some (.under (level + 1) ⟨table, idx⟩) ∧ Below roles level below r

lemma Below.unique (h : Below roles level table r) (h' : Below roles level table' r) :
    table = table' := by
  induction level generalizing table table' with
  | zero => exact h.symm.trans h'
  | succ level ih =>
    obtain ⟨below, idx, hrole, hbelow⟩ := h
    obtain ⟨below', idx', hrole', hbelow'⟩ := h'
    rw [ih hbelow hbelow', hrole'] at hrole
    simp only [some.injEq, Role.under.injEq, PteRef.mk.injEq] at hrole
    exact hrole.2.1.symm

lemma rangeIter_leaf (h : Owned k roles m)
    (hrole : roles table = some role) (hheight : role.height = level + 1)
    (huser : ∀ i, startIdx level startVa isFirst ≤ i → role.user i) :
    (∀ x ∈ rangeIter m level table baseVa startVa endVa isFirst isLast,
      Below roles level table x.2 ∧ Leaf roles x.2 ∧ (m.pte x.2).isValid = true) ∧
    (rangeIter m level table baseVa startVa endVa isFirst isLast).Pairwise
      fun x y => x.2 ≠ y.2 := by
  induction level generalizing table role baseVa isFirst isLast with
  | zero =>
    rw [rangeIter]
    constructor
    · intro x hx
      obtain ⟨hx, hvalid⟩ := mem_filter.mp hx
      obtain ⟨idx, -, rfl⟩ := mem_map.mp hx
      refine ⟨rfl, ?_, hvalid⟩
      cases role with
      | root id => cases hheight
      | under height parent =>
        obtain rfl : height = 1 := hheight
        exact ⟨parent, hrole⟩
    refine List.Pairwise.filter _ (pairwise_map.mpr ?_)
    refine (interval_nodup _ _).imp fun hne heq => hne ?_
    exact (PteRef.mk.inj heq).2
  | succ level ih =>
    let part : Nat → List (Nat × PteRef) := fun idx =>
      if (m.pte ⟨table, idx⟩).isValid then
        rangeIter m level (m.pte ⟨table, idx⟩).physicalAddr (baseVa ||| vaForIndex (level + 1) idx)
          startVa endVa (isFirst && startIdx (level + 1) startVa isFirst == idx)
          (isLast && endIdx (level + 1) endVa isLast - 1 == idx)
      else []
    have hpart : ∀ idx, startIdx (level + 1) startVa isFirst ≤ idx →
        (∀ x ∈ part idx, roles (m.pte ⟨table, idx⟩).physicalAddr =
            some (.under (level + 1) ⟨table, idx⟩) ∧
          Below roles level (m.pte ⟨table, idx⟩).physicalAddr x.2 ∧
          Leaf roles x.2 ∧ (m.pte x.2).isValid = true) ∧
        (part idx).Pairwise fun x y => x.2 ≠ y.2 := by
      intro idx hidx
      dsimp only [part]
      split
      · rename_i hvalid
        have hchild := h.entry table role idx hrole (by omega) (huser idx hidx) hvalid
        rw [hheight] at hchild
        obtain ⟨hleaf, honce⟩ := ih hchild rfl fun _ _ => trivial
        exact ⟨fun x hx => ⟨hchild, hleaf x hx⟩, honce⟩
      · exact ⟨fun x hx => (not_mem_nil hx).elim, .nil⟩
    have hflat : rangeIter m (level + 1) table baseVa startVa endVa isFirst
        isLast = (interval (startIdx (level + 1) startVa isFirst)
          (endIdx (level + 1) endVa isLast)).flatMap part := rfl
    rw [hflat]
    constructor
    · intro x hx
      obtain ⟨idx, hidx, hx⟩ := mem_flatMap.mp hx
      obtain ⟨hchild, hbelow, hrest⟩ := (hpart idx (mem_interval.mp hidx).1).1 x hx
      exact ⟨⟨_, idx, hchild, hbelow⟩, hrest⟩
    refine pairwise_flatMap.mpr ⟨fun idx hidx => (hpart idx (mem_interval.mp hidx).1).2, ?_⟩
    refine List.Pairwise.imp_of_mem ?_ (interval_nodup _ _)
    intro idx idx' hidx hidx' hne x hx y hy heq
    obtain ⟨hchild, hbelow, -⟩ := (hpart idx (mem_interval.mp hidx).1).1 x hx
    obtain ⟨hchild', hbelow', -⟩ := (hpart idx' (mem_interval.mp hidx').1).1 y hy
    rw [heq] at hbelow
    rw [hbelow.unique hbelow', hchild'] at hchild
    simp only [some.injEq, Role.under.injEq, PteRef.mk.injEq] at hchild
    exact hne hchild.2.2.symm

lemma Keeps.release {height : Nat} (h : Keeps k low roles m roles' m')
    (hr : roles' r.table = some role) (huser : role.user r.idx)
    (hp : roles' p = some (.under height r)) (hlow : height < low) :
    Keeps k low roles m (update roles' p none) ((m'.setPte r .zero).freePage p) := by
  refine ⟨h.owned.release hr huser hp, fun q role' hq hheight => ?_, fun q hq hnone => ?_⟩
  · have hq := h.keeps q role' hq hheight
    rw [update_of_ne, hq]
    rintro rfl
    obtain rfl := some.inj (hq.symm.trans hp)
    exact absurd hheight (not_le.mpr hlow)
  obtain ⟨hnone, hmem⟩ := h.spare q hq hnone
  have hne : q ≠ p := by
    rintro rfl
    rw [hp] at hnone
    cases hnone
  exact ⟨by rw [update_of_ne hne, hnone], Owned.mem_freePage (m := m'.setPte r .zero) hmem hne⟩

lemma unmapEach_keeps {entries : List (Nat × PteRef)} (h : Owned k roles m)
    (hleaf : ∀ x ∈ entries, Leaf roles x.2 ∧ (m.pte x.2).isValid = true)
    (honce : entries.Pairwise fun x y => x.2 ≠ y.2) :
    ∃ roles', Keeps k 1 roles m roles' (entries.foldl (fun m entry => unmapEntry entry.2 m) m) := by
  induction entries generalizing roles m with
  | nil => exact ⟨roles, .refl h⟩
  | cons x entries ih =>
    obtain ⟨⟨parent, hr⟩, hvalid⟩ := hleaf x (mem_cons_self ..)
    obtain ⟨hfirst, honce⟩ := pairwise_cons.mp honce
    have hpage := h.pte hr Nat.one_pos trivial hvalid
    have hkeeps : Keeps k 1 roles m _ (unmapEntry x.2 m) :=
      (Keeps.refl h).release hr trivial hpage Nat.one_pos
    have hrest := ih hkeeps.owned (fun y hy => by
      obtain ⟨hy', hvalid'⟩ := hleaf y (mem_cons_of_mem x hy)
      refine ⟨hy'.keeps hkeeps, ?_⟩
      have hsame := setPte_pte_of_ne m (hfirst y hy).symm .zero
      exact (congrArg Pte.isValid hsame).trans hvalid') honce
    obtain ⟨roles', hrest⟩ := hrest
    exact ⟨roles', hkeeps.trans hrest⟩

def UserVa (va : Nat) : Prop := 0x200000000 ≤ va ∧ va < vaLimit

lemma UserVa.user (h : UserVa va) (id idx : Nat)
    (hidx : startIdx 2 va true ≤ idx) : (Role.root id).user idx := by
  rintro ⟨-, hend⟩
  rw [Vm.kernelIndexEnd_eq] at hend
  rw [startIdx, if_pos rfl, indexForVa, Nat.shiftRight_eq_div_pow,
    show 511 = 2 ^ 9 - 1 from rfl, Nat.and_two_pow_sub_one_eq_mod] at hidx
  obtain ⟨hlo, hhi⟩ := h
  rw [vaLimit] at hhi
  simp only [Vm.shift] at hidx
  omega

lemma vunmap_keeps {id root va size : Nat} (h : Owned k roles m)
    (hroot : roles root = some (.root id)) (hva : UserVa va) :
    ∃ roles', Keeps k 1 roles m roles' (vunmap root va size m) := by
  obtain ⟨hleaf, honce⟩ : (∀ x ∈ rangeOfEntries m root va (va + size), _) ∧
      (rangeOfEntries m root va (va + size)).Pairwise _ :=
    rangeIter_leaf h hroot rfl (hva.user id)
  exact unmapEach_keeps h (fun x hx => (hleaf x hx).2) honce

end

section

variable {src : PageSource} {id : Nat}

lemma vmap_keeps (h : Owned k roles m) (hroot : roles root = some (.root id))
    (hva : UserVa va) (hrun : vmap src refused root va size perm m = some out) :
    ∃ roles', Keeps k 1 roles m roles' out.1 := by
  rw [vmap] at hrun
  split at hrun
  · cases hrun
  · rename_i m₁ hwalk
    cases hrun
    exact walkRange_keeps h hroot rfl (hva.user id) hwalk
  rename_i m₁ brkAddr err hwalk
  obtain ⟨roles₁, hkeeps⟩ := walkRange_keeps h hroot rfl (hva.user id) hwalk
  split at hrun
  · cases hrun
  cases hrun
  obtain ⟨roles₂, hkeeps₂⟩ := vunmap_keeps hkeeps.owned
    (hkeeps.keeps root _ hroot (by simp [Role.height])) hva
  exact ⟨roles₂, hkeeps.trans hkeeps₂⟩

lemma walk_keeps (h : Owned k roles m) (hroot : roles root = some (.root id)) (hva : UserVa va)
    (hrun : walk src refused root va m = (m', found)) :
    ∃ roles', Keeps k 1 roles m roles' m' ∧ ∀ r ∈ found, Leaf roles' r := by
  rw [walk] at hrun
  split at hrun
  · cases hrun
    exact ⟨roles, .refl h, fun r hr => by cases hr⟩
  rename_i table m₁ htop
  obtain ⟨roles₁, hkeeps₁, hmid⟩ := ensureTable_keeps h
    (r := ⟨root, indexForVa 2 va⟩) hroot (by simp [Role.height])
    (hva.user id _ (le_refl _)) htop
  split at hrun
  · cases hrun
    exact ⟨roles₁, hkeeps₁, fun r hr => by cases hr⟩
  rename_i table' m₂ hnext
  cases hrun
  obtain ⟨roles₂, hkeeps₂, hleaf⟩ := ensureTable_keeps hkeeps₁.owned (r := ⟨table, indexForVa 1 va⟩)
    hmid (by simp [Role.height]) trivial hnext
  refine ⟨roles₂, hkeeps₁.trans hkeeps₂, fun r hr => ?_⟩
  cases hr
  exact ⟨_, hleaf⟩

lemma tryMap_keeps (h : Taken k roles m p m') (hroot : roles root = some (.root id))
    (hva : 0x200000000 ≤ va) (hrun : tryMap src refused root va p perm m' = some out) :
    ∃ roles', Keeps k 1 roles m roles' out.1 ∧ (out.2 ≠ .ok true → roles' p = none) := by
  have hm' := h.keeps 1
  rw [tryMap] at hrun
  split at hrun
  · cases hrun
  rename_i hlimit
  split at hrun
  all_goals
    rename_i hwalk
    obtain ⟨roles₁, hkeeps, hfound⟩ := walk_keeps hm'.owned hroot ⟨hva, not_le.mp hlimit⟩ hwalk
    obtain ⟨hnone, hissued⟩ := hkeeps.spare p h.issued h.new
  · cases hrun
    exact ⟨roles₁, hm'.trans hkeeps, fun _ => hnone⟩
  dsimp only at hrun
  split at hrun
  · cases hrun
    exact ⟨roles₁, hm'.trans hkeeps, fun _ => hnone⟩
  split at hrun
  · cases hrun
  · rename_i e haddr
    cases hrun
    obtain ⟨parent, hr⟩ := hfound _ rfl
    exact ⟨_, (hm'.trans hkeeps).put h.fresh hnone hissued h.kernel
      (fun hheight => absurd hheight (by simp [Role.height])) hr trivial
      (setPhysicalAddr_eq haddr _), fun hne => absurd rfl hne⟩

lemma Keeps.freePage (h : Keeps k low roles m roles' m') (hfresh : p ∉ m.heap.issued)
    (hnone : roles' p = none) (hkernel : ¬ k.table p) :
    Keeps k low roles m roles' (m'.freePage p) := by
  refine ⟨h.owned.freePage hnone hkernel, h.keeps, fun q hq hq' => ?_⟩
  obtain ⟨hq', hmem⟩ := h.spare q hq hq'
  exact ⟨hq', Owned.mem_freePage hmem fun heq => hfresh (heq ▸ hq)⟩

lemma vmapPage_keeps (h : Owned k roles m) (hroot : roles root = some (.root id))
    (hrun : vmapPage src refused root va perm m = some out) :
    ∃ roles', Keeps k 1 roles m roles' out.1 ∧ ∀ page, out.2 = .ok page → ¬ k.table page := by
  rw [vmapPage] at hrun
  split at hrun
  · cases hrun
  rename_i harea
  have hva : 0x200000000 ≤ va := by simpa [Vm.isVmapArea] using harea
  split at hrun
  · cases hrun
    exact ⟨roles, .refl h, fun page hpage => by cases hpage⟩
  rename_i page m₁ halloc
  have htaken := h.take halloc
  split at hrun
  · cases hrun
  all_goals
    rename_i hmap
    cases hrun
    obtain ⟨roles', hkeeps, hnone⟩ := tryMap_keeps htaken hroot hva hmap
  · refine ⟨roles', hkeeps, fun page hpage => ?_⟩
    cases hpage
    exact htaken.kernel
  · exact ⟨roles', hkeeps.freePage htaken.fresh (hnone (by simp)) htaken.kernel,
      fun page hpage => by cases hpage⟩
  · exact ⟨roles', hkeeps.freePage htaken.fresh (hnone (by simp)) htaken.kernel,
      fun page hpage => by cases hpage⟩

lemma getEntry_page {pte : Pte} (h : Owned k roles m) (hroot : roles root = some (.root id))
    (hva : 0x200000000 ≤ va) (hget : getEntry m root va = some (some pte)) :
    UserVa va ∧ ∃ mid low, roles mid = some (.under 2 ⟨root, indexForVa 2 va⟩) ∧
      roles low = some (.under 1 ⟨mid, indexForVa 1 va⟩) ∧
      roles pte.physicalAddr = some (.under 0 ⟨low, indexForVa 0 va⟩) := by
  rw [getEntry] at hget
  split at hget
  · cases hget
  rename_i hlimit
  dsimp only at hget
  split at hget
  · cases hget
  rename_i htop
  split at hget
  · cases hget
  rename_i hmid
  simp only [some.injEq] at hget
  split at hget
  · rename_i hleaf
    cases hget
    have hva : UserVa va := ⟨hva, not_le.mp hlimit⟩
    simp only [Bool.not_eq_true', Bool.not_eq_false] at htop hmid
    have hmid' := h.pte (r := ⟨root, indexForVa 2 va⟩) hroot
      (by simp [Role.height]) (hva.user id _ (le_refl _)) htop
    have hleaf' := h.pte (r := ⟨_, indexForVa 1 va⟩) hmid' (by simp [Role.height]) trivial hmid
    have hpage := h.pte (r := ⟨_, indexForVa 0 va⟩) hleaf' (by simp [Role.height]) trivial hleaf
    exact ⟨hva, _, _, hmid', hleaf', hpage⟩
  · cases hget

end

/-! ### The end of an address space -/

section

lemma clearEntry_keeps {below : Nat → Phys → Phys} (h : Owned k roles m)
    (hr : roles r.table = some role) (huser : role.user r.idx)
    (hheight : role.height = height + 1)
    (hbelow : ∀ table, roles table = some (.under height r) →
      ∃ roles', Keeps k height roles m roles' (below table m)) :
    ∃ roles', Keeps k (height + 1) roles m roles' (clearEntry below r m) := by
  simp only [clearEntry]
  split
  · rename_i hvalid
    have hpage := h.pte hr (by omega) huser hvalid
    rw [hheight, Nat.add_sub_cancel] at hpage
    obtain ⟨roles', hkeeps⟩ := hbelow _ hpage
    exact ⟨_, (hkeeps.mono (Nat.le_succ height)).release
      (hkeeps.keeps r.table role hr (by omega)) huser
      (hkeeps.keeps _ _ hpage (le_refl height)) (Nat.lt_succ_self height)⟩
  · exact ⟨roles, .refl h⟩

lemma clearEach_keeps {below : Nat → Phys → Phys} {table : Nat}
    {entries : List Nat} (h : Owned k roles m)
    (hr : roles table = some role) (hheight : role.height = height + 1)
    (huser : ∀ idx ∈ entries, role.user idx)
    (hbelow : ∀ roles m child idx, Owned k roles m →
      roles child = some (.under height ⟨table, idx⟩) →
      ∃ roles', Keeps k height roles m roles' (below child m)) :
    ∃ roles', Keeps k (height + 1) roles m roles'
      (entries.foldl (fun m idx => clearEntry below ⟨table, idx⟩ m) m) := by
  induction entries generalizing roles m with
  | nil => exact ⟨roles, .refl h⟩
  | cons idx entries ih =>
    obtain ⟨roles₁, hkeeps⟩ := clearEntry_keeps h (r := ⟨table, idx⟩) hr
      (huser idx (mem_cons_self ..)) hheight (fun child hchild => hbelow roles m child idx h hchild)
    obtain ⟨roles₂, hrest⟩ := ih hkeeps.owned (hkeeps.keeps table role hr (by omega))
      (fun idx hidx => huser idx (mem_cons_of_mem _ hidx))
    exact ⟨roles₂, hkeeps.trans hrest⟩

lemma clearRecursive_keeps (h : Owned k roles m) (hr : roles table = some (.under (level + 1) r)) :
    ∃ roles', Keeps k (level + 1) roles m roles' (clearRecursive level table m) := by
  induction level generalizing roles m table r with
  | zero => exact ⟨roles, .refl h⟩
  | succ level ih =>
    exact clearEach_keeps h hr rfl (fun _ _ => trivial)
      fun roles m child idx h hchild => ih h hchild

lemma clear_keeps {id root : Nat} (h : Owned k roles m) (hroot : roles root = some (.root id)) :
    ∃ roles', Keeps k 3 roles m roles' (clear root m) := by
  refine clearEach_keeps h hroot rfl (fun idx hidx => ?_)
    fun roles m child idx h hchild => clearRecursive_keeps h hchild
  rintro ⟨hlo, hhi⟩
  rw [mem_append, mem_interval, mem_interval] at hidx
  omega

lemma Keeps.freeRoot {id root : Nat} (h : Keeps k 3 roles m roles' m')
    (hroot : roles root = some (.root id)) :
    Owned k (update roles' root none) (m'.freePage root) ∧
      ∀ p id', p ≠ root → roles p = some (.root id') →
        update roles' root none p = some (.root id') := by
  have hroot' := h.keeps root _ hroot (le_refl 3)
  constructor
  · refine (h.owned.disown ?_).freePage (update_self ..) (h.owned.not_kernel hroot')
    rintro q role i hq hheight huser hvalid rfl
    have htarget := h.owned.entry q role i hq hheight huser hvalid
    rw [hroot'] at htarget
    cases htarget
  intro p id' hne hp
  rw [update_of_ne hne]
  exact h.keeps p _ hp (le_refl 3)

end
end Redwing.Shared
