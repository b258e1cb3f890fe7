/-
What the operations of the buddy allocator do to the blocks it keeps free.
Every operation links blocks into a free area or takes them out, so each of
them is described by these two updates and by the addresses that the free
blocks cover before and after.
-/
import Redwing.BuddyAreas

namespace Redwing.Buddy

open AlignedBlocks Function List Option Allocator

namespace Allocator

variable {b : Allocator} {cached : Nat → Prop} {order addr : Nat}

/-! ## Splitting and joining -/

/-- What the operations inside the allocator leave alone when they only
rearrange free blocks. -/
structure Keeps (b b' : Allocator) : Prop where
  start : b'.startAddress = b.startAddress
  cover : ∀ x, b'.freeCover x = b.freeCover x
  bytes : b'.freeBytes = b.freeBytes
  size : b'.freeSize = b.freeSize

lemma Keeps.refl (b : Allocator) : Keeps b b := ⟨rfl, fun _ => rfl, rfl, rfl⟩

lemma Keeps.trans (h : Keeps b₁ b₂) (h' : Keeps b₂ b₃) : Keeps b₁ b₃ :=
  ⟨h'.start.trans h.start, fun x => (h'.cover x).trans (h.cover x),
    h'.bytes.trans h.bytes, h'.size.trans h.size⟩

def split (b : Allocator) (order addr : Nat) : Allocator :=
  ((b.unlink (order + 1) addr).place order (addr + blockSize order)).place order addr

variable {a head lo : Nat} {rest : List Nat} {b' : Allocator}

lemma Wf.cell_eq_zero_of_cached (h : Wf cached b) (horder : order < maxOrder)
    (hmem : addr ∈ (b.freeArea order).list) (ha : cached a) : cell pgsize order addr a = 0 := by
  have hle := cell_le_freeCover horder hmem a
  have hnone := h.not_cached a ha
  omega

lemma Wf.split_upper (h : Wf cached b) (horder : order + 1 < maxOrder)
    (hmem : addr ∈ (b.freeArea (order + 1)).list) :
    Wf cached ((b.unlink (order + 1) addr).place order (addr + blockSize order)) := by
  have haligned := h.aligned (order + 1) horder addr hmem
  have hhalves := cell_succ pgsize order addr
  refine (h.unlink horder hmem).place (by omega) haligned.upper_half ?_ ?_
  · intro a ha
    have hparent := h.cell_eq_zero_of_cached horder hmem ha
    rw [hhalves] at hparent
    exact (Nat.add_eq_zero_iff.mp hparent).2
  intro x
  have hx := unlink_freeCover horder hmem x
  have honce := h.once x
  rw [hhalves] at hx
  simp only [blockSize]
  omega

lemma split_spec (h : Wf cached b) (horder : order + 1 < maxOrder)
    (hmem : addr ∈ (b.freeArea (order + 1)).list) :
    Wf cached (b.split order addr) ∧ Keeps b (b.split order addr) := by
  have hlow : order < maxOrder := by omega
  have haligned := h.aligned (order + 1) horder addr hmem
  have hcover := unlink_freeCover horder hmem
  have hbytes := unlink_freeBytes horder hmem
  have hhalves := cell_succ pgsize order addr
  refine ⟨(h.split_upper horder hmem).place hlow haligned.lower_half ?_ ?_, rfl, ?_, ?_, rfl⟩
  · intro a ha
    have hparent := h.cell_eq_zero_of_cached horder hmem ha
    rw [hhalves] at hparent
    exact (Nat.add_eq_zero_iff.mp hparent).1
  · intro x
    have hx := hcover x
    have honce := h.once x
    rw [hhalves] at hx
    rw [place_freeCover hlow]
    simp only [blockSize]
    omega
  · intro x
    have hx := hcover x
    rw [hhalves] at hx
    rw [split, place_freeCover hlow, place_freeCover hlow]
    simp only [blockSize]
    omega
  rw [split, place_freeBytes hlow, place_freeBytes hlow]
  rw [blockSize_succ] at hbytes
  omega

lemma areaExpand_nil (horder : order ≠ 0) (hnil : (b.freeArea order).list = []) :
    b.areaExpand order = some (none, b) := by
  simp [areaExpand, horder, popFront_nil hnil]

lemma setPage_self : b.setPage a (b.pages a) = b := by simp [setPage]

lemma Wf.areaExpand_cons (h : Wf cached b) (horder : order + 1 < maxOrder)
    (hcons : (b.freeArea (order + 1)).list = addr :: rest) :
    b.areaExpand (order + 1) =
      some (some (addr, addr + blockSize order), b.unlink (order + 1) addr) := by
  have hmem : addr ∈ (b.freeArea (order + 1)).list := by simp [hcons]
  have hsize : 1 <<< (order + 1 + 12) / 2 = blockSize order := by
    rw [Nat.shiftLeft_eq, blockSize, pgsize, pow_add, pow_succ]
    omega
  have haligned := h.aligned (order + 1) horder addr hmem
  have hpage : paddrToPage (addr + blockSize order) =
      some (addr + blockSize order) := h.paddrToPage_eq haligned.upper_half
  have hwf := h.unlink horder hmem
  have hcover := unlink_freeCover horder hmem
  have hzero : ∀ x, addr ≤ x → x < addr + blockSize (order + 1) →
      (b.unlink (order + 1) addr).freeCover x = 0 := by
    intro x hle hlt
    have hx := hcover x
    have honce := h.once x
    have hcell := cell_eq_one_iff.mpr (And.intro hle hlt)
    omega
  have hpos := blockSize_pos order
  have hsucc := blockSize_succ order
  have hclear : ∀ x, addr ≤ x → x < addr + blockSize (order + 1) →
      ((b.unlink (order + 1) addr).pages x).clearFree =
        (b.unlink (order + 1) addr).pages x := fun x hle hlt =>
    Page.clearFree_of_not_isFree (hwf.not_isFree_of_freeCover_eq_zero (hzero x hle hlt))
  simp only [areaExpand, Nat.add_eq_zero_iff, one_ne_zero, and_false,
    if_false, h.popFront_cons horder hcons, hsize, hpage, bind_eq_bind,
    bind_some, hclear addr (le_refl _) (by omega), setPage_self,
    hclear (addr + blockSize order) (by omega) (by omega)]

lemma place_pages_of_ne (hne : a ≠ addr) : (b.place order addr).pages a = b.pages a := by
  rw [place, link_pages, if_neg hne, setPage_pages, if_neg hne]

lemma place_setPage_comm (hne : addr ≠ a) (page : Page) : (b.setPage a page).place order addr =
    (b.place order addr).setPage a page := by
  simp only [place, link, setPage, setArea, update_of_ne hne, update_self, mk.injEq, true_and]
  simp only [update_idem, update_comm hne]

lemma Wf.expandFuel_cons (h : Wf cached b) (horder : order + 1 < maxOrder)
   (hcons : (b.freeArea (order + 1)).list = addr :: rest) (fuel : Nat) :
    expandFuel (fuel + 1) (order + 1) b = some (true, b.split order addr) := by
  have hlow : order < maxOrder := by omega
  have hmem : addr ∈ (b.freeArea (order + 1)).list := by simp [hcons]
  have hpos := blockSize_pos order
  have hne : addr ≠ addr + blockSize order := by omega
  have hhalves := cell_succ pgsize order addr
  have hself : cell pgsize order addr addr = 1 := cell_self (by decide) _ _
  have hupperSelf : cell pgsize order (addr + blockSize order)
      (addr + blockSize order) = 1 := cell_self (by decide) _ _
  have hcover := unlink_freeCover horder hmem
  have hwf := h.unlink horder hmem
  have hnot : ∀ x, cell pgsize (order + 1) addr x = 1 →
      (b.unlink (order + 1) addr).freeCover x = 0 ∧ ¬ cached x := by
    intro x hx
    have hsum := hcover x
    have honce := h.once x
    refine ⟨by omega, fun hcached => ?_⟩
    have hnone := h.not_cached x hcached
    omega
  have hloCell : cell pgsize (order + 1) addr addr = 1 := cell_self (by decide) _ _
  have hhiCell : cell pgsize (order + 1) addr (addr + blockSize order) = 1 := by
    have hle := cell_le_one pgsize (order + 1) addr (addr + blockSize order)
    have hx := hhalves (addr + blockSize order)
    have hup : cell pgsize order (addr + pgsize * 2 ^ order)
      (addr + blockSize order) = 1 := hupperSelf
    omega
  obtain ⟨hloZero, hloCached⟩ := hnot addr hloCell
  obtain ⟨hhiZero, hhiCached⟩ := hnot _ hhiCell
  obtain ⟨b₁, hb₁⟩ : ∃ b₁, b₁ = b.unlink (order + 1) addr := ⟨_, rfl⟩
  rw [← hb₁] at hwf hloZero hhiZero
  -- The order of the lower half is written before the upper half is linked.
  have hset := hwf.setOrder hlow (hwf.not_isFree_of_freeCover_eq_zero hloZero)
  have hfirst := hset.pushFront_setOrder hlow hhiZero hhiCached
  have hplaced := (h.split_upper horder hmem)
  rw [← hb₁] at hplaced
  have hplacedZero : (b₁.place order (addr + blockSize order)).freeCover addr = 0 := by
    have hx := hhalves addr
    rw [place_freeCover hlow, hloZero]
    simp only [blockSize]
    omega
  have hsecond := hplaced.pushFront_setOrder hlow hplacedZero hloCached
  rw [place_pages_of_ne hne] at hsecond
  rw [place_setPage_comm hne.symm] at hfirst
  simp only [expandFuel, Nat.add_eq_zero_iff, one_ne_zero, and_false, if_false, ge_iff_le,
    not_le.mpr horder, h.areaExpand_cons horder hcons, bind_eq_bind, bind_some,
    Nat.add_sub_cancel, ← hb₁, hfirst, hsecond]
  simp only [split, ← hb₁]

/-- How `expand` comes by two blocks of `order`: it splits a block one order up,
after it has made two of those if there was none. -/
inductive Expands : Nat → Allocator → Bool → Allocator → Prop
  | none {order : Nat} {b : Allocator}
      (hnil : ∀ k, order < k → k < maxOrder → (b.freeArea k).list = []) :
      Expands order b false b
  | here {order addr : Nat} {rest : List Nat} {b : Allocator}
      (horder : order + 1 < maxOrder)
      (hcons : (b.freeArea (order + 1)).list = addr :: rest) :
      Expands order b true (b.split order addr)
  | above {order addr : Nat} {rest : List Nat} {b b₁ : Allocator}
      (horder : order + 1 < maxOrder)
      (hnil : (b.freeArea (order + 1)).list = [])
      (hup : Expands (order + 1) b true b₁)
      (hcons : (b₁.freeArea (order + 1)).list = addr :: rest) :
      Expands order b true (b₁.split order addr)

lemma expandFuel_spec : ∀ (fuel order : Nat) (b : Allocator), Wf cached b →
    maxOrder < fuel + order + 1 → 0 < fuel →
    ∃ expanded b', expandFuel fuel (order + 1) b = some (expanded, b') ∧
      Wf cached b' ∧ Keeps b b' ∧ Expands order b expanded b' ∧
      (expanded = true → order < maxOrder ∧ (b'.freeArea order).list ≠ []) := by
  intro fuel
  induction fuel with
  | zero => intro order b _ _ hpos; omega
  | succ fuel ih =>
    intro order b h hfuel _
    by_cases horder : order + 1 < maxOrder
    · cases hlist : (b.freeArea (order + 1)).list with
      | cons addr rest =>
        have hmem : addr ∈ (b.freeArea (order + 1)).list := by simp [hlist]
        obtain ⟨hwf, hkeeps⟩ := split_spec h horder hmem
        exact ⟨true, _, h.expandFuel_cons horder hlist fuel, hwf, hkeeps,
          .here horder hlist, fun _ => ⟨by omega, place_list_ne_nil⟩⟩
      | nil =>
        obtain ⟨expanded, b₁, hrun, hwf, hkeeps, hexpands, hfound⟩ :=
          ih (order + 1) b h (by omega) (by omega)
        have hstep : expandFuel (fuel + 1) (order + 1) b =
            if expanded then expandFuel fuel (order + 1) b₁
            else some (false, b₁) := by
          simp only [expandFuel, Nat.add_eq_zero_iff, one_ne_zero, and_false, if_false, ge_iff_le,
            not_le.mpr horder, areaExpand_nil (Nat.succ_ne_zero order) hlist, bind_eq_bind,
            bind_some, hrun]
        cases expanded with
        | false =>
          cases hexpands with
          | none hnil =>
            refine ⟨false, b, by simp [hstep], hwf, hkeeps, .none fun k hk hmax => ?_, by simp⟩
            by_cases heq : k = order + 1
            · rw [heq, hlist]
            · exact hnil k (by omega) hmax
        | true =>
          -- The recursive call left a block, so the loop ends here.
          obtain ⟨addr, rest, hcons⟩ := exists_cons_of_ne_nil (hfound rfl).2
          have hmem : addr ∈ (b₁.freeArea (order + 1)).list := by simp [hcons]
          obtain ⟨hwf', hkeeps'⟩ := split_spec hwf horder hmem
          obtain ⟨more, rfl⟩ : ∃ more, fuel = more + 1 := ⟨fuel - 1, by omega⟩
          refine ⟨true, _, ?_, hwf', hkeeps.trans hkeeps', .above horder hlist hexpands hcons,
            fun _ => ⟨by omega, place_list_ne_nil⟩⟩
          rw [hstep]
          exact hwf.expandFuel_cons horder hcons more
    · refine ⟨false, b, ?_, h, Keeps.refl b, .none fun k hk hmax => by omega, by simp⟩
      simp only [expandFuel, Nat.add_eq_zero_iff, one_ne_zero, and_false,
        if_false, ge_iff_le, not_lt.mp horder, if_true]

lemma getBuddyAddr_eq (startAddress addr order : Nat) : getBuddyAddr startAddress addr order =
      buddyAddr 12 startAddress addr order := rfl

lemma Wf.mem_of_flags (h : Wf cached b) (horder : order < maxOrder)
    (hfree : (b.pages addr).isFree = true) (hpgf : (b.pages addr).pgfOrder = BitVec.ofNat 8 order) :
    addr ∈ (b.freeArea order).list := by
  obtain ⟨k, hk, hmem⟩ := h.flagged addr hfree
  have heq := (h.head k hk addr hmem).2.symm.trans hpgf
  exact order_eq_of_ofNat_eq hk horder heq ▸ hmem

lemma exists_parent (haligned : Aligned pgsize start order head) :
    ∃ lo, Aligned pgsize start (order + 1) lo ∧ (if head < getBuddyAddr start head order then head
        else getBuddyAddr start head order) = lo ∧
      head ≠ getBuddyAddr start head order ∧
      Aligned pgsize start order (getBuddyAddr start head order) ∧
      ∀ x, cell pgsize (order + 1) lo x = cell pgsize order head x +
        cell pgsize order (getBuddyAddr start head order) x := by
  have hpos : 0 < 2 ^ 12 * 2 ^ order := by positivity
  rw [getBuddyAddr_eq]
  have haligned' : Aligned (2 ^ 12) start order head := haligned
  rcases buddyAddr_cases haligned' with ⟨heq, hup⟩ | ⟨heq, hup⟩
  · rw [heq]
    refine ⟨head, hup, if_pos (by omega), by omega, hup.upper_half, fun x => ?_⟩
    exact cell_succ pgsize order head x
  refine ⟨_, hup, if_neg (by omega), by omega, hup.lower_half, fun x => ?_⟩
  have hsucc := cell_succ pgsize order (buddyAddr 12 start head order) x
  have hhead : buddyAddr 12 start head order + pgsize * 2 ^ order = head := heq.symm
  rw [hhead] at hsucc
  omega

lemma Wf.areaMerge_cases (h : Wf cached b) (horder : order + 1 < maxOrder) :
    (b.areaMerge order = some (none, b) ∧ ∀ head rest, (b.freeArea order).list = head :: rest →
        getBuddyAddr b.startAddress head order ∉ (b.freeArea order).list) ∨
      ∃ pgf1 pgf2 lo rest, b.areaMerge order =
          some (some lo, (b.unlink order pgf1).unlink order pgf2) ∧
        (b.freeArea order).list = pgf1 :: rest ∧
        pgf2 ∈ ((b.unlink order pgf1).freeArea order).list ∧
        Aligned pgsize b.startAddress (order + 1) lo ∧
        ∀ x, cell pgsize (order + 1) lo x =
          cell pgsize order pgf1 x + cell pgsize order pgf2 x := by
  have hlow : order < maxOrder := by omega
  cases hlist : (b.freeArea order).list with
  | nil => exact .inl ⟨by simp [areaMerge, hlist], by simp⟩
  | cons head rest =>
    have hmem : head ∈ (b.freeArea order).list := by simp [hlist]
    have haligned := h.aligned order hlow head hmem
    obtain ⟨lo, hup, hmin, hne, hbuddyAligned, hhalves⟩ := exists_parent haligned
    obtain ⟨other, hother⟩ : ∃ other, other = getBuddyAddr b.startAddress head order := ⟨_, rfl⟩
    rw [← hother] at hmin hne hbuddyAligned hhalves
    have hpage1 := h.paddrToPage_eq haligned
    have hpage2 := h.paddrToPage_eq hbuddyAligned
    by_cases hflags : (b.pages other).pgfOrder = BitVec.ofNat 8 order ∧
        (b.pages other).isFree = true
    · right
      have hbuddy := h.mem_of_flags hlow hflags.2 hflags.1
      have hrest : other ∈ rest := by
        rw [hlist] at hbuddy
        exact (mem_cons.mp hbuddy).resolve_left hne.symm
      refine ⟨head, other, lo, rest, ?_, rfl, ?_, hup, hhalves⟩
      · simp only [areaMerge, hlist, ← hother, hpage1, hpage2, hflags.1, hflags.2, bind_eq_bind,
          bind_some, bne_self_eq_false, Bool.not_true, Bool.or_self, Bool.false_eq_true, if_false,
          mem_cons, true_or, erase_cons_head, hrest, if_true, hmin, some.injEq, Prod.mk.injEq,
          true_and]
        simp only [Allocator.unlink, setPage, setArea, hlist, erase_cons_head, update_self,
          Nat.sub_sub, update_idem]
      · simpa [unlink_freeArea, hlist] using hrest
    · left
      have hcond : ((b.pages other).pgfOrder != BitVec.ofNat 8 order ||
          !(b.pages other).isFree) = true := by
        simp only [Bool.or_eq_true, bne_iff_ne, Bool.not_eq_eq_eq_not, Bool.not_true]
        rcases Bool.eq_false_or_eq_true (b.pages other).isFree with hf | hf
        · exact .inl fun heq => hflags ⟨heq, hf⟩
        · exact .inr hf
      constructor
      · simp only [areaMerge, hlist, ← hother, hpage2, bind_eq_bind, bind_some, hcond, if_true]
      intro head' rest' heq hbuddy
      obtain ⟨rfl, rfl⟩ := cons.inj heq
      rw [← hother, ← hlist] at hbuddy
      exact hflags (h.head order hlow other hbuddy).symm

lemma join_spec (h : Wf cached b) (horder : order + 1 < maxOrder)
    (hmem1 : pgf1 ∈ (b.freeArea order).list)
    (hmem2 : pgf2 ∈ ((b.unlink order pgf1).freeArea order).list)
    (haligned : Aligned pgsize b.startAddress (order + 1) lo)
    (hhalves : ∀ x, cell pgsize (order + 1) lo x =
      cell pgsize order pgf1 x + cell pgsize order pgf2 x) :
    let taken := (b.unlink order pgf1).unlink order pgf2
    Wf cached taken ∧ taken.freeCover lo = 0 ∧ ¬ cached lo ∧ Wf cached
      (taken.place (order + 1) lo) ∧ Keeps b (taken.place (order + 1) lo) := by
  intro taken
  have hlow : order < maxOrder := by omega
  have hwf := h.unlink hlow hmem1
  have htaken : Wf cached taken := hwf.unlink hlow hmem2
  have hcover : ∀ x, taken.freeCover x + cell pgsize (order + 1) lo x =
      b.freeCover x := by
    intro x
    have h1 := unlink_freeCover hlow hmem1 x
    have h2 : taken.freeCover x + _ = _ := unlink_freeCover hlow hmem2 x
    rw [hhalves]
    omega
  have hbytes : taken.freeBytes + blockSize (order + 1) = b.freeBytes := by
    have h1 := unlink_freeBytes hlow hmem1
    have h2 : taken.freeBytes + _ = _ := unlink_freeBytes hlow hmem2
    rw [blockSize_succ]
    omega
  have hself : cell pgsize (order + 1) lo lo = 1 := cell_self (by decide) _ _
  have hat := hcover lo
  have honce := h.once lo
  have hplace : Wf cached (taken.place (order + 1) lo) := by
    refine htaken.place horder haligned ?_ ?_
    · intro a ha
      have ha' := hcover a
      have hnone := h.not_cached a ha
      omega
    intro x
    have hx := hcover x
    have honce := h.once x
    omega
  refine ⟨htaken, by omega, ?_, hplace, rfl, ?_, ?_, rfl⟩
  · intro hcached
    have hnone := h.not_cached lo hcached
    omega
  · intro x
    rw [place_freeCover horder]
    exact hcover x
  · rw [place_freeBytes horder]
    exact hbytes

/-! ## Coalescing -/

/-- No two free blocks of an order that could be merged are buddies. -/
def Coalesced (b : Allocator) : Prop :=
  ∀ k, k + 1 < maxOrder → ∀ a ∈ (b.freeArea k).list,
    getBuddyAddr b.startAddress a k ∉ (b.freeArea k).list

def CoalescedBut (order head : Nat) (b : Allocator) : Prop :=
  ∀ k, k + 1 < maxOrder → ∀ a ∈ (b.freeArea k).list,
    getBuddyAddr b.startAddress a k ∈ (b.freeArea k).list →
      k = order ∧ (a = head ∨ getBuddyAddr b.startAddress a k = head)

lemma getBuddyAddr_twice (hle : start ≤ addr) :
    getBuddyAddr start (getBuddyAddr start addr order) order = addr := by
  rw [getBuddyAddr, getBuddyAddr, Nat.add_sub_cancel, Nat.xor_assoc,
    Nat.xor_self, Nat.xor_zero, Nat.sub_add_cancel hle]

lemma mem_of_mem_unlink (hmem : a ∈ ((b.unlink order addr).freeArea k).list) :
    a ∈ (b.freeArea k).list := by
  rw [unlink_freeArea] at hmem
  split at hmem
  · rename_i heq
    exact heq ▸ mem_of_mem_erase hmem
  · exact hmem

lemma place_freeArea : ((b.place order addr).freeArea k).list =
    if k = order then addr :: (b.freeArea order).list
    else (b.freeArea k).list := by
  rw [place, link_freeArea]
  split <;> rfl

lemma Wf.not_mem_unlink (h : Wf cached b) (horder : order < maxOrder)
    (hmem : addr ∈ (b.freeArea order).list) :
    addr ∉ ((b.unlink order addr).freeArea order).list := by
  have hcover := unlink_freeCover horder hmem addr
  have honce := h.once addr
  rw [cell_self (by decide)] at hcover
  exact not_mem_of_freeCover_eq_zero horder (by omega)

lemma Coalesced.unlink (hb : Coalesced b) : Coalesced (b.unlink order addr) :=
  fun k hk a ha hbuddy => hb k hk a (mem_of_mem_unlink ha) (mem_of_mem_unlink hbuddy)

lemma Coalesced.place (hb : Coalesced b) : CoalescedBut order addr (b.place order addr) := by
  intro k hk a ha hbuddy
  change getBuddyAddr b.startAddress a k ∈ _ at hbuddy
  rw [place_freeArea] at ha hbuddy
  split at ha
  · rename_i heq
    subst heq
    rw [if_pos rfl] at hbuddy
    refine ⟨rfl, ?_⟩
    rcases mem_cons.mp ha with rfl | ha
    · exact .inl rfl
    rcases mem_cons.mp hbuddy with heq | hbuddy
    · exact .inr heq
    · exact absurd hbuddy (hb k hk a ha)
  rename_i hne
  rw [if_neg hne] at hbuddy
  exact absurd hbuddy (hb k hk a ha)

lemma CoalescedBut.stop (h : Wf cached b) (hb : CoalescedBut order head b)
    (hnone : getBuddyAddr b.startAddress head order ∉ (b.freeArea order).list) : Coalesced b := by
  intro k hk a ha hbuddy
  obtain ⟨rfl, rfl | hhead⟩ := hb k hk a ha hbuddy
  · exact hnone hbuddy
  · rw [← hhead, getBuddyAddr_twice (h.aligned k (by omega) a ha).1] at hnone
    exact hnone ha

lemma CoalescedBut.join (h : Wf cached b) (horder : order < maxOrder)
    (hb : CoalescedBut order head b) (hmem : head ∈ (b.freeArea order).list) : CoalescedBut
    (order + 1) lo (((b.unlink order head).unlink order other).place (order + 1) lo) := by
  have hgone := h.not_mem_unlink horder hmem
  refine Coalesced.place fun k hk a ha hbuddy => ?_
  have ha := mem_of_mem_unlink ha
  have hbuddy := mem_of_mem_unlink hbuddy
  obtain ⟨rfl, rfl | hhead⟩ := hb k hk a (mem_of_mem_unlink ha) (mem_of_mem_unlink hbuddy)
  · exact hgone ha
  · change getBuddyAddr b.startAddress a k ∈ _ at hbuddy
    exact hgone (hhead ▸ hbuddy)

lemma split_freeArea : ((b.split order addr).freeArea k).list =
    if k = order then addr :: (addr + blockSize order) :: (b.freeArea order).list
    else ((b.unlink (order + 1) addr).freeArea k).list := by
  have hsame : (b.unlink (order + 1) addr).freeArea order =
      b.freeArea order := by
    rw [unlink_freeArea, if_neg (ne_of_lt (Nat.lt_succ_self order))]
  rw [split, place_freeArea, place_freeArea, place_freeArea, if_pos rfl, hsame]
  split <;> rfl

lemma Coalesced.split (hb : Coalesced (b.unlink (order + 1) addr))
    (haligned : Aligned pgsize b.startAddress (order + 1) addr)
    (hnil : (b.freeArea order).list = []) : Coalesced ((b.split order addr).unlink order addr) := by
  intro k hk a ha hbuddy
  change getBuddyAddr b.startAddress a k ∈ _ at hbuddy
  rw [unlink_freeArea] at ha hbuddy
  split at ha
  · rename_i heq
    subst heq
    rw [if_pos rfl] at hbuddy
    simp only [split_freeArea, if_true, hnil, erase_cons_head, mem_singleton] at ha hbuddy
    obtain ⟨_, -, -, hne, -⟩ := exists_parent haligned.upper_half
    rw [ha] at hbuddy
    exact hne hbuddy.symm
  rename_i hne
  rw [if_neg hne] at hbuddy
  rw [split_freeArea, if_neg hne] at ha hbuddy
  exact hb k hk a ha hbuddy

lemma Expands.exists_above (hexpands : Expands order b true b') :
    ∃ k, order ≤ k ∧ k < maxOrder ∧ (b.freeArea k).list ≠ [] := by
  generalize hexp : true = expanded at hexpands
  induction hexpands with
  | none => cases hexp
  | here horder hcons => exact ⟨_, by omega, horder, by simp [hcons]⟩
  | above _ _ _ _ ih =>
    obtain ⟨k, hk, hmax, hne⟩ := ih hexp
    exact ⟨k, by omega, hmax, hne⟩

lemma Expands.wf (h : Wf cached b) (hexpands : Expands order b expanded b') : Wf cached b' := by
  induction hexpands with
  | none => exact h
  | here horder hcons => exact (split_spec h horder (by simp [hcons])).1
  | above horder _ _ hcons ih => exact (split_spec (ih h) horder (by simp [hcons])).1

lemma Expands.lower (hexpands : Expands order b expanded b') (hk : k < order) :
    (b'.freeArea k).list = (b.freeArea k).list := by
  induction hexpands with
  | none => rfl
  | here => rw [split_freeArea, if_neg (by omega), unlink_freeArea, if_neg (by omega)]
  | above _ _ _ _ ih =>
    rw [split_freeArea, if_neg (by omega), unlink_freeArea, if_neg (by omega), ih (by omega)]

lemma Expands.coalesced (h : Wf cached b) (hb : Coalesced b)
    (hnil : (b.freeArea order).list = []) (hexpands : Expands order b true b')
    (hlist : (b'.freeArea order).list = lo :: rest) : Coalesced (b'.unlink order lo) := by
  generalize hexp : true = expanded at hexpands
  induction hexpands generalizing lo rest with
  | none => cases hexp
  | here horder hcons =>
    rw [split_freeArea, if_pos rfl] at hlist
    obtain ⟨rfl, -⟩ := cons.inj hlist
    exact Coalesced.split hb.unlink (h.aligned _ horder _ (by simp [hcons])) hnil
  | above horder hnil' hup hcons ih =>
    rw [split_freeArea, if_pos rfl] at hlist
    obtain ⟨rfl, -⟩ := cons.inj hlist
    refine Coalesced.split (ih h hb hnil' hcons rfl)
      ((hup.wf h).aligned _ horder _ (by simp [hcons])) ?_
    rw [hup.lower (Nat.lt_succ_self _), hnil]

lemma ofNat_succ (order : Nat) : BitVec.ofNat 8 order + 1 = BitVec.ofNat 8 (order + 1) := by
  simp [BitVec.ofNat_add]

lemma mergeLoop_spec : ∀ (n order : Nat) (b : Allocator), Wf cached b → order + n < maxOrder →
    ∃ b', mergeLoop n order b = some b' ∧ Wf cached b' ∧ Keeps b b' ∧
      ∀ head rest, order + n + 1 = maxOrder → (b.freeArea order).list = head :: rest →
        CoalescedBut order head b → Coalesced b' := by
  intro n
  induction n with
  | zero =>
    refine fun order b h _ => ⟨b, rfl, h, Keeps.refl b, ?_⟩
    intro head rest hmax _ hb k hk a ha hbuddy
    have heq := (hb k hk a ha hbuddy).1
    omega
  | succ n ih =>
    intro order b h hn
    have horder : order + 1 < maxOrder := by omega
    rcases h.areaMerge_cases horder with ⟨hnone, hbuddy⟩ |
      ⟨pgf1, pgf2, lo, rest, hmerge, hlist, hmem2, haligned, hhalves⟩
    · exact ⟨b, by simp [mergeLoop, hnone], h, Keeps.refl b,
        fun head rest _ hcons hb => hb.stop h (hbuddy head rest hcons)⟩
    have hmem1 : pgf1 ∈ (b.freeArea order).list := by simp [hlist]
    obtain ⟨htaken, hzero, hcached, hwf, hkeeps⟩ := join_spec h horder hmem1 hmem2 haligned hhalves
    obtain ⟨b', hrun, hwf', hkeeps', hcoalesced⟩ := ih (order + 1) _ hwf (by omega)
    refine ⟨b', ?_, hwf', hkeeps.trans hkeeps', ?_⟩
    · have hpush := htaken.pushFront_setOrder horder hzero hcached
      simp only [mergeLoop, hmerge, bind_eq_bind, bind_some, ofNat_succ, hpush, hrun]
    intro head rest' hmax hcons hb
    obtain ⟨rfl, -⟩ := cons.inj (hlist.symm.trans hcons)
    exact hcoalesced lo _ (by omega) ((place_freeArea).trans (if_pos rfl))
      (hb.join h (by omega) hmem1)

/-! ## Allocating and freeing -/

/-- Well-formed free areas with a correct `free_size`. -/
structure Ok (cached : Nat → Prop) (b : Allocator) : Prop where
  wf : Wf cached b
  sized : b.freeSize = b.freeBytes

lemma Wf.withFreeSize (h : Wf cached b) (size : Nat) : Wf cached { b with freeSize := size } :=
  ⟨h.page_aligned, h.aligned, h.head, h.flagged, h.linked, h.not_cached, h.counted, h.once⟩

lemma freeCover_withFreeSize (size x : Nat) :
    ({ b with freeSize := size } : Allocator).freeCover x = b.freeCover x := rfl

lemma freeBytes_withFreeSize (size : Nat) :
    ({ b with freeSize := size } : Allocator).freeBytes = b.freeBytes := rfl

lemma allocByOrder_pop (h : Ok cached b) (horder : order < maxOrder)
    (hcons : (b.freeArea order).list = addr :: rest) : let b' := { b.unlink order addr with
      freeSize := (b.unlink order addr).freeSize - blockSize order }
    (do
        let (popped, b) ← b.popFront order
        let pgf ← popped
        let b := { b with freeSize := b.freeSize - blockSize order }
        if (b.pages pgf).isFree || (b.pages pgf).linked then none
        else some (some pgf, b)) = some (some addr, b') ∧
      Ok cached b' ∧ Aligned pgsize b.startAddress order addr ∧
      ∀ x, b'.freeCover x + cell pgsize order addr x = b.freeCover x := by
  have hmem : addr ∈ (b.freeArea order).list := by simp [hcons]
  have hwf := h.wf.unlink horder hmem
  have hbytes := unlink_freeBytes horder hmem
  refine ⟨?_, ⟨hwf.withFreeSize _, ?_⟩, h.wf.aligned order horder addr hmem,
    unlink_freeCover horder hmem⟩
  · have hpage : (b.unlink order addr).pages addr = (b.pages addr).clearFree.setLinked false := by
      rw [unlink_pages, if_pos rfl]
    simp only [h.wf.popFront_cons horder hcons, bind_eq_bind,
      bind_some, hpage, Page.isFree_setLinked, Page.isFree_clearFree,
      Page.linked_setLinked, Bool.or_self, Bool.false_eq_true, if_false]
  change b.freeSize - blockSize order = _
  rw [freeBytes_withFreeSize, h.sized]
  omega

lemma allocByOrder_spec (h : Ok cached b) (horder : order < maxOrder) :
    ∃ result b', b.allocByOrder order = some (result, b') ∧ Ok cached b' ∧
      b'.startAddress = b.startAddress ∧ (Coalesced b → Coalesced b') ∧
      (match result with
        | none => b' = b ∧ ∀ k, order ≤ k → k < maxOrder →
            (b.freeArea k).list = []
        | some addr => Aligned pgsize b.startAddress order addr ∧
            (∀ x, b'.freeCover x + cell pgsize order addr x = b.freeCover x) ∧
            ∃ k, order ≤ k ∧ k < maxOrder ∧ (b.freeArea k).list ≠ []) := by
  cases hlist : (b.freeArea order).list with
  | cons addr rest =>
    obtain ⟨hpop, hok, haligned, hcover⟩ := allocByOrder_pop h horder hlist
    refine ⟨some addr, _, ?_, hok, rfl, fun hb => hb.unlink, haligned, hcover,
      order, le_refl _, horder, by simp [hlist]⟩
    rw [← hpop]
    simp only [allocByOrder, ge_iff_le, not_le.mpr horder, if_false, hlist, isEmpty_cons,
      Bool.false_eq_true, bind_eq_bind, bind_some, if_true]
  | nil =>
    obtain ⟨expanded, b₁, hrun, hwf, hkeeps, hexpands, hfound⟩ :=
      expandFuel_spec (maxOrder + 2) order b h.wf (by omega) (by omega)
    have hok : Ok cached b₁ := ⟨hwf, by rw [hkeeps.size, hkeeps.bytes, h.sized]⟩
    cases expanded with
    | false =>
      cases hexpands with
      | none hnil =>
        refine ⟨none, b, ?_, hok, rfl, id, rfl, fun k hk hmax => ?_⟩
        · simp only [allocByOrder, ge_iff_le, not_le.mpr horder, if_false, hlist, isEmpty_nil,
            if_true, expand, hrun, bind_eq_bind, bind_some, Bool.false_eq_true]
        rcases Nat.eq_or_lt_of_le hk with rfl | hk
        · exact hlist
        · exact hnil k hk hmax
    | true =>
      obtain ⟨addr, rest, hcons⟩ := exists_cons_of_ne_nil (hfound rfl).2
      obtain ⟨hpop, hok', haligned, hcover⟩ := allocByOrder_pop hok horder hcons
      refine ⟨some addr, _, ?_, hok', hkeeps.start,
        fun hb => hexpands.coalesced h.wf hb hlist hcons, hkeeps.start ▸ haligned,
        fun x => (hcover x).trans (hkeeps.cover x), hexpands.exists_above⟩
      rw [← hpop]
      simp only [allocByOrder, ge_iff_le, not_le.mpr horder, if_false, hlist, isEmpty_nil,
        if_true, expand, hrun, bind_eq_bind, bind_some]

lemma freeByOrder_spec (h : Ok cached b) (horder : order < maxOrder)
    (haligned : Aligned pgsize b.startAddress order addr)
    (hcached : ∀ a, cached a → cell pgsize order addr a = 0)
    (honce : ∀ x, b.freeCover x + cell pgsize order addr x ≤ 1) :
    ∃ b', b.freeByOrder addr order = some b' ∧ Ok cached b' ∧
      b'.startAddress = b.startAddress ∧ (Coalesced b → Coalesced b') ∧
      ∀ x, b'.freeCover x = b.freeCover x + cell pgsize order addr x := by
  have hself : cell pgsize order addr addr = 1 := cell_self (by decide) _ _
  have hzero : b.freeCover addr = 0 := by
    have hat := honce addr
    omega
  have hnot : ¬ cached addr := by
    intro ha
    have hnone := hcached addr ha
    omega
  have hfree := h.wf.not_isFree_of_freeCover_eq_zero hzero
  have hlinked := h.wf.not_linked hfree hnot
  have hplace := h.wf.place horder haligned hcached honce
  have hpush := h.wf.pushFront_setOrder horder hzero hnot
  obtain ⟨b', hrun, hwf, hkeeps, hcoalesced⟩ :=
    mergeLoop_spec (maxOrder - 1 - order) order _
      (hplace.withFreeSize ((b.place order addr).freeSize + blockSize order)) (by omega)
  refine ⟨b', ?_, ⟨hwf, ?_⟩, hkeeps.start, fun hb => ?_, ?_⟩
  · simp only [freeByOrder, ge_iff_le, not_le.mpr horder, if_false, h.wf.paddrToPage_eq haligned,
      hfree, hlinked, Bool.or_self, Bool.false_eq_true, bind_eq_bind, bind_some, hpush, merge, hrun]
  · rw [hkeeps.size, hkeeps.bytes]
    rw [freeBytes_withFreeSize, place_freeBytes horder, place_freeSize, h.sized]
  · exact hcoalesced addr _ (by omega) ((place_freeArea).trans (if_pos rfl)) hb.place
  intro x
  rw [hkeeps.cover]
  exact place_freeCover horder

/-! ## Initialisation -/

lemma initArea_spec (horder : order < maxOrder) :
    ∀ (n fuel addr : Nat) (b : Allocator), n ≤ fuel → Wf (fun _ => False) b →
    Aligned pgsize b.startAddress order addr →
    (∀ x, addr ≤ x → b.freeCover x = 0) →
    ∃ b', initArea fuel order (addr + n * blockSize order) addr b =
        some (addr + n * blockSize order, b') ∧
      Wf (fun _ => False) b' ∧ b'.startAddress = b.startAddress ∧
      b'.freeSize = b.freeSize ∧
      b'.freeBytes = b.freeBytes + n * blockSize order ∧
      (∀ k, k ≠ order → (b'.freeArea k).list = (b.freeArea k).list) ∧
      ∀ x, b'.freeCover x = b.freeCover x +
        if addr ≤ x ∧ x < addr + n * blockSize order then 1 else 0 := by
  have hpos := blockSize_pos order
  intro n
  induction n with
  | zero =>
    intro fuel addr b _ h _ _
    refine ⟨b, ?_, h, rfl, rfl, by simp, fun _ _ => rfl, fun x => ?_⟩
    · cases fuel with
      | zero => simp [initArea]
      | succ fuel =>
        have hend : ¬ addr + blockSize order ≤ addr := by omega
        simp only [initArea, zero_mul, add_zero, hend, if_false]
    · rw [if_neg (by omega)]
      simp
  | succ n ih =>
    intro fuel addr b hfuel h haligned hzero
    obtain ⟨fuel, rfl⟩ : ∃ more, fuel = more + 1 := ⟨fuel - 1, by omega⟩
    have hmul : (n + 1) * blockSize order =
        n * blockSize order + blockSize order := Nat.succ_mul _ _
    have hcell : ∀ x, cell pgsize order addr x =
        if addr ≤ x ∧ x < addr + blockSize order then 1 else 0 := fun _ => rfl
    have hplace := h.place horder haligned (fun _ ha => ha.elim) (by
      intro x
      have honce := h.once x
      have hz := hzero x
      rw [hcell]
      split
      · omega
      · omega)
    have hnext : Aligned pgsize b.startAddress order (addr + blockSize order) := by
      refine ⟨by have := haligned.1; omega, ?_⟩
      have hsub : addr + blockSize order - b.startAddress =
          (addr - b.startAddress) + blockSize order := by
        have := haligned.1
        omega
      rw [hsub]
      exact Nat.dvd_add haligned.2 (Nat.dvd_refl _)
    have hafter : ∀ x, addr + blockSize order ≤ x → (b.place order addr).freeCover x = 0 := by
      intro x hx
      rw [place_freeCover horder, hcell, hzero x (by omega), if_neg (by omega)]
    obtain ⟨b', hrun, hwf, hstart, hsize, hbytes, hothers, hcover⟩ :=
      ih fuel (addr + blockSize order) _ (by omega) hplace hnext hafter
    have hend : addr + blockSize order + n * blockSize order =
        addr + (n + 1) * blockSize order := by omega
    rw [hend] at hrun
    refine ⟨b', ?_, hwf, hstart, hsize, ?_, fun k hk => ?_, fun x => ?_⟩
    · have hle : addr + blockSize order ≤ addr + (n + 1) * blockSize order := by omega
      have hpush := h.pushFront_setOrder horder (hzero addr (le_refl _)) (fun ha => ha)
      simp only [initArea, hle, if_true, h.paddrToPage_eq haligned,
        bind_eq_bind, bind_some, hpush, hrun]
    · rw [hbytes, place_freeBytes horder]
      omega
    · rw [hothers k hk, place_freeArea, if_neg hk]
    · rw [hcover, place_freeCover horder, hcell, hend]
      split_ifs <;> omega

lemma initOrders_done : ∀ (n : Nat) (b : Allocator), initOrders n endAddr endAddr b = some b := by
  intro n
  induction n with
  | zero => exact fun b => rfl
  | succ n ih =>
    intro b
    simp [initOrders, initArea, ih]

lemma initOrders_of_initArea
    (hrun : initArea ((endAddr - saddr) / pgsize) order endAddr saddr b = some (endAddr, b')) :
    initOrders (order + 1) endAddr saddr b =
      some { b' with freeSize := b'.freeSize + (endAddr - saddr) } := by
  simp only [initOrders, hrun, bind_eq_bind, bind_some, initOrders_done]

lemma init_spec (hbase : pgsize ∣ base) (n : Nat) :
    ∃ b, init base (base + n * blockSize (maxOrder - 1)) = some b ∧
      Ok (fun _ => False) b ∧ b.startAddress = base ∧
      (∀ k, k ≠ maxOrder - 1 → (b.freeArea k).list = []) ∧
      ∀ x, b.freeCover x =
        if base ≤ x ∧ x < base + n * blockSize (maxOrder - 1) then 1 else 0 := by
  obtain ⟨b₀, hb₀⟩ : ∃ b₀ : Allocator, b₀ = { default with startAddress := base } := ⟨_, rfl⟩
  have hcover : ∀ x, b₀.freeCover x = 0 := by
    intro x
    simp [hb₀, freeCover, default]
  have hfresh : Wf (fun _ => False) b₀ := by
    subst hb₀
    refine ⟨hbase, ?_, ?_, ?_, ?_, by simp, ?_, fun x => by simp [hcover x]⟩
    · simp [default]
    · simp [default]
    · simp [default, Page.new, Page.isFree]
    · simp [default, Page.new, Page.isFree]
    · simp [default]
  have haligned : Aligned pgsize b₀.startAddress (maxOrder - 1) base := by
    subst hb₀
    exact ⟨le_refl _, by simp⟩
  have hfuel : n ≤ (base + n * blockSize (maxOrder - 1) - base) / pgsize := by
    have hsize : blockSize (maxOrder - 1) = 256 * pgsize := rfl
    rw [hsize, ← mul_assoc, Nat.add_sub_cancel_left, Nat.mul_div_cancel _ (by decide)]
    omega
  obtain ⟨b, hrun, hwf, hstart, hsize, hbytes, hothers, hfree⟩ :=
    initArea_spec (by decide) n _ base b₀ hfuel hfresh haligned (fun x _ => hcover x)
  refine ⟨{ b with freeSize := b.freeSize + (base + n * blockSize (maxOrder - 1) - base) }, ?_,
    ⟨hwf.withFreeSize _, ?_⟩, ?_, fun k hk => ?_, fun x => ?_⟩
  · rw [init, ← hb₀]
    exact initOrders_of_initArea hrun
  · have hnone : b₀.freeBytes = 0 := by simp [hb₀, freeBytes, default]
    have hzero : b₀.freeSize = 0 := by rw [hb₀]; rfl
    rw [freeBytes_withFreeSize, hsize, hbytes, hnone, hzero, Nat.add_sub_cancel_left]
  · rw [hb₀] at hstart
    exact hstart
  · refine (hothers k hk).trans ?_
    rw [hb₀]
    rfl
  · rw [freeCover_withFreeSize, hfree x, hcover x, zero_add]

end Allocator
end Redwing.Buddy
