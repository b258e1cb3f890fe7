/-
The free areas of the buddy allocator: page flags, the addresses that the free
blocks cover, and what linking one block into a free area or taking one out of
it does to them.
-/
import Redwing.Buddy

namespace Redwing.Buddy

open Function AlignedBlocks List

namespace Page

@[simp] lemma isFree_setFree (page : Page) : page.setFree.isFree = true := by
  have h : ∀ f : BitVec 8, ((f ||| 0x80#8) &&& 0x80#8 != 0#8) = true := by decide
  exact h page.buddyFlags

@[simp] lemma isFree_clearFree (page : Page) : page.clearFree.isFree = false := by
  have h : ∀ f : BitVec 8, (f &&& ~~~0x80#8 &&& 0x80#8 != 0#8) = false := by decide
  exact h page.buddyFlags

@[simp] lemma pgfOrder_setFree (page : Page) : page.setFree.pgfOrder = page.pgfOrder := by
  have h : ∀ f : BitVec 8, (f ||| 0x80#8) &&& ~~~0x80#8 = f &&& ~~~0x80#8 := by decide
  exact h page.buddyFlags

lemma top_bit (flags : BitVec 8) : flags &&& 0x80#8 = 0#8 ∨ flags &&& 0x80#8 = 0x80#8 := by
  have h : ∀ f : BitVec 8, f &&& 0x80#8 = 0#8 ∨ f &&& 0x80#8 = 0x80#8 := by decide
  exact h flags

lemma isFree_setPgfOrder (page : Page) (horder : order < maxOrder) :
    (page.setPgfOrder (BitVec.ofNat 8 order)).isFree = page.isFree := by
  have hclear : ∀ k : Fin 9, ((0#8 ||| BitVec.ofNat 8 k) &&& 0x80#8 != 0#8) = false := by decide
  have hset : ∀ k : Fin 9, ((0x80#8 ||| BitVec.ofNat 8 k) &&& 0x80#8 != 0#8) = true := by decide
  simp only [isFree, setPgfOrder]
  rcases top_bit page.buddyFlags with h | h
  · rw [h, hclear ⟨order, horder⟩]
    rfl
  · rw [h, hset ⟨order, horder⟩]
    rfl

lemma pgfOrder_setPgfOrder (page : Page) (horder : order < maxOrder) :
    (page.setPgfOrder (BitVec.ofNat 8 order)).pgfOrder =
      BitVec.ofNat 8 order := by
  have hclear : ∀ k : Fin 9,
      (0#8 ||| BitVec.ofNat 8 k) &&& ~~~0x80#8 = BitVec.ofNat 8 k := by decide
  have hset : ∀ k : Fin 9, (0x80#8 ||| BitVec.ofNat 8 k) &&& ~~~0x80#8 = BitVec.ofNat 8 k := by
    decide
  simp only [pgfOrder, setPgfOrder]
  rcases top_bit page.buddyFlags with h | h
  · rw [h]
    exact hclear ⟨order, horder⟩
  · rw [h]
    exact hset ⟨order, horder⟩

lemma clearFree_of_not_isFree {page : Page} (hfree : page.isFree = false) :
    page.clearFree = page := by
  have h : ∀ f : BitVec 8, (f &&& 0x80#8 != 0#8) = false → f &&& ~~~0x80#8 = f := by decide
  exact congrArg (Page.mk · page.linked) (h page.buddyFlags hfree)

section

variable (page : Page) (linked : Bool)

@[simp] lemma isFree_setLinked : (page.setLinked linked).isFree = page.isFree := rfl

@[simp] lemma pgfOrder_setLinked : (page.setLinked linked).pgfOrder = page.pgfOrder := rfl

@[simp] lemma linked_setLinked : (page.setLinked linked).linked = linked := rfl

end

@[simp] lemma linked_setPgfOrder (page : Page) (order : BitVec 8) :
    (page.setPgfOrder order).linked = page.linked := rfl

end Page

lemma order_eq_of_ofNat_eq (hj : j < maxOrder)
    (hk : k < maxOrder) (h : BitVec.ofNat 8 j = BitVec.ofNat 8 k) : j = k := by
  have hinj : ∀ j k : Fin 9, BitVec.ofNat 8 j = BitVec.ofNat 8 k → j = k := by decide
  exact congrArg Fin.val (hinj ⟨j, hj⟩ ⟨k, hk⟩ h)

namespace Allocator

variable {b : Allocator} {cached : Nat → Prop}

lemma setPage_pages (page : Page) :
    (b.setPage addr page).pages a = if a = addr then page else b.pages a := by
  simp [setPage, update_apply]

lemma setArea_freeArea (area : FreeArea) : (b.setArea order area).freeArea k =
    if k = order then area else b.freeArea k := by
  simp [setArea, update_apply]

def freeCover (b : Allocator) (x : Nat) : Nat :=
  ∑ k ∈ Finset.range maxOrder, coverage pgsize k (b.freeArea k).list x

def freeBytes (b : Allocator) : Nat :=
  ∑ k ∈ Finset.range maxOrder, (b.freeArea k).list.length * blockSize k

lemma blockSize_pos (order : Nat) : 0 < blockSize order := by simp [blockSize, pgsize]

lemma blockSize_succ (order : Nat) : blockSize (order + 1) = blockSize order + blockSize order := by
  simp only [blockSize, pow_succ]
  ring

/-- Well-formed free areas.  `cached` are the pages that hang in lists outside
of the allocator. -/
structure Wf (cached : Nat → Prop) (b : Allocator) : Prop where
  page_aligned : pgsize ∣ b.startAddress
  aligned : ∀ k < maxOrder, ∀ a ∈ (b.freeArea k).list, Aligned pgsize b.startAddress k a
  head : ∀ k < maxOrder, ∀ a ∈ (b.freeArea k).list,
    (b.pages a).isFree = true ∧ (b.pages a).pgfOrder = BitVec.ofNat 8 k
  flagged : ∀ a, (b.pages a).isFree = true → ∃ k < maxOrder, a ∈ (b.freeArea k).list
  linked : ∀ a, (b.pages a).linked = true ↔ (b.pages a).isFree = true ∨ cached a
  not_cached : ∀ a, cached a → b.freeCover a = 0
  counted : ∀ k < maxOrder, (b.freeArea k).nrFree = (b.freeArea k).list.length
  once : ∀ x, b.freeCover x ≤ 1

lemma cell_le_freeCover (horder : order < maxOrder) (hmem : addr ∈ (b.freeArea order).list)
    (x : Nat) : cell pgsize order addr x ≤ b.freeCover x :=
  le_trans (cell_le_coverage hmem pgsize order x) (Finset.single_le_sum
      (f := fun k => coverage pgsize k (b.freeArea k).list x)
      (fun _ _ => Nat.zero_le _) (Finset.mem_range.mpr horder))

lemma not_mem_of_freeCover_eq_zero (horder : order < maxOrder)
    (hzero : b.freeCover addr = 0) : addr ∉ (b.freeArea order).list := by
  intro hmem
  have hle := cell_le_freeCover horder hmem addr
  rw [cell_self (by decide)] at hle
  omega

lemma Wf.not_isFree_of_freeCover_eq_zero (h : Wf cached b)
    (hzero : b.freeCover addr = 0) : (b.pages addr).isFree = false := by
  by_contra hfree
  obtain ⟨k, hk, hmem⟩ := h.flagged addr (by simpa using hfree)
  exact not_mem_of_freeCover_eq_zero hk hzero hmem

lemma Wf.not_cached_of_mem (h : Wf cached b) (horder : order < maxOrder)
    (hmem : addr ∈ (b.freeArea order).list) : ¬ cached addr := by
  intro hcached
  exact not_mem_of_freeCover_eq_zero horder (h.not_cached addr hcached) hmem

lemma Wf.not_linked (h : Wf cached b) (hfree : (b.pages addr).isFree = false)
    (hcached : ¬ cached addr) : (b.pages addr).linked = false := by
  have hiff := h.linked addr
  simpa [hfree, hcached] using hiff

/-! ## Linking and unlinking one block -/

def link (b : Allocator) (order addr : Nat) : Allocator :=
  (b.setPage addr ((b.pages addr).setFree.setLinked true)).setArea order
    ⟨addr :: (b.freeArea order).list, (b.freeArea order).nrFree + 1⟩

def unlink (b : Allocator) (order addr : Nat) : Allocator :=
  (b.setPage addr ((b.pages addr).clearFree.setLinked false)).setArea order
    ⟨(b.freeArea order).list.erase addr, (b.freeArea order).nrFree - 1⟩

@[simp] lemma link_freeSize : (b.link order addr).freeSize = b.freeSize := rfl

@[simp] lemma link_startAddress : (b.link order addr).startAddress = b.startAddress := rfl

@[simp] lemma unlink_freeSize : (b.unlink order addr).freeSize = b.freeSize := rfl

@[simp] lemma unlink_startAddress : (b.unlink order addr).startAddress = b.startAddress := rfl

lemma link_freeArea (k : Nat) : (b.link order addr).freeArea k =
    if k = order then ⟨addr :: (b.freeArea order).list, (b.freeArea order).nrFree + 1⟩
    else b.freeArea k := by
  rw [link, setArea_freeArea, setPage_freeArea]

lemma unlink_freeArea (k : Nat) : (b.unlink order addr).freeArea k =
    if k = order then ⟨(b.freeArea order).list.erase addr, (b.freeArea order).nrFree - 1⟩
    else b.freeArea k := by
  rw [unlink, setArea_freeArea, setPage_freeArea]

lemma link_pages : (b.link order addr).pages a =
    if a = addr then (b.pages addr).setFree.setLinked true
    else b.pages a := by
  rw [link, setArea_pages, setPage_pages]

lemma unlink_pages : (b.unlink order addr).pages a =
    if a = addr then (b.pages addr).clearFree.setLinked false
    else b.pages a := by
  rw [unlink, setArea_pages, setPage_pages]

lemma link_freeCover (horder : order < maxOrder) : (b.link order addr).freeCover x =
    b.freeCover x + cell pgsize order addr x := by
  have hsum := sum_update_add horder (fun k => coverage pgsize k (b.freeArea k).list x)
    (fun k => coverage pgsize k ((b.link order addr).freeArea k).list x)
    (fun k hk => by simp only [link_freeArea, hk, if_false])
  simp only [link_freeArea order, if_true, coverage_cons] at hsum
  simp only [freeCover]
  omega

lemma link_freeBytes (horder : order < maxOrder) :
    (b.link order addr).freeBytes = b.freeBytes + blockSize order := by
  have hsum := sum_update_add horder (fun k => (b.freeArea k).list.length * blockSize k)
    (fun k => ((b.link order addr).freeArea k).list.length * blockSize k)
    (fun k hk => by simp only [link_freeArea, hk, if_false])
  simp only [link_freeArea order, if_true, length_cons, Nat.add_mul, Nat.one_mul] at hsum
  simp only [freeBytes]
  omega

lemma unlink_freeCover (horder : order < maxOrder) (hmem : addr ∈ (b.freeArea order).list)
    (x : Nat) : (b.unlink order addr).freeCover x + cell pgsize order addr x = b.freeCover x := by
  have hsum := sum_update_add horder (fun k => coverage pgsize k (b.freeArea k).list x)
    (fun k => coverage pgsize k ((b.unlink order addr).freeArea k).list x)
    (fun k hk => by simp only [unlink_freeArea, hk, if_false])
  have herase := coverage_erase hmem pgsize order x
  simp only [unlink_freeArea order, if_true] at hsum
  simp only [freeCover]
  omega

lemma unlink_freeBytes (horder : order < maxOrder) (hmem : addr ∈ (b.freeArea order).list) :
    (b.unlink order addr).freeBytes + blockSize order = b.freeBytes := by
  have hsum := sum_update_add horder (fun k => (b.freeArea k).list.length * blockSize k)
    (fun k => ((b.unlink order addr).freeArea k).list.length * blockSize k)
    (fun k hk => by simp only [unlink_freeArea, hk, if_false])
  have hlen := length_erase_add_one hmem
  have hmul : (b.freeArea order).list.length * blockSize order =
      ((b.freeArea order).list.erase addr).length * blockSize order +
        blockSize order := by
    rw [← hlen, Nat.add_mul, Nat.one_mul]
  simp only [unlink_freeArea order, if_true] at hsum
  simp only [freeBytes]
  omega

lemma Wf.link (h : Wf cached b) (horder : order < maxOrder)
    (haligned : Aligned pgsize b.startAddress order addr)
    (hpgf : (b.pages addr).pgfOrder = BitVec.ofNat 8 order)
    (hcached : ∀ a, cached a → cell pgsize order addr a = 0)
    (honce : ∀ x, b.freeCover x + cell pgsize order addr x ≤ 1) :
    Wf cached (b.link order addr) := by
  have hzero : b.freeCover addr = 0 := by
    have hat := honce addr
    rw [cell_self (by decide)] at hat
    omega
  have hne : ∀ k < maxOrder, ∀ a ∈ (b.freeArea k).list, a ≠ addr := by
    rintro k hk a hmem rfl
    exact not_mem_of_freeCover_eq_zero hk hzero hmem
  refine ⟨h.page_aligned, ?_, ?_, ?_, ?_, ?_, ?_, ?_⟩
  · intro k hk a hmem
    rw [link_freeArea] at hmem
    split at hmem
    · subst k
      rcases mem_cons.mp hmem with rfl | hmem
      · exact haligned
      · exact h.aligned order hk a hmem
    · exact h.aligned k hk a hmem
  · intro k hk a hmem
    rw [link_freeArea] at hmem
    rw [link_pages]
    split at hmem
    · subst k
      rcases mem_cons.mp hmem with rfl | hmem
      · simp [hpgf]
      · rw [if_neg (hne order hk a hmem)]
        exact h.head order hk a hmem
    · rw [if_neg (hne k hk a hmem)]
      exact h.head k hk a hmem
  · intro a hfree
    rw [link_pages] at hfree
    split at hfree
    · subst a
      exact ⟨order, horder, by simp [link_freeArea]⟩
    obtain ⟨k, hk, hmem⟩ := h.flagged a hfree
    refine ⟨k, hk, ?_⟩
    rw [link_freeArea]
    split
    · subst k
      exact mem_cons_of_mem _ hmem
    · exact hmem
  · intro a
    rw [link_pages]
    split
    · simp
    · exact h.linked a
  · intro a ha
    rw [link_freeCover horder, h.not_cached a ha, hcached a ha]
  · intro k hk
    rw [link_freeArea]
    split
    · simp [h.counted order horder]
    · exact h.counted k hk
  intro x
  rw [link_freeCover horder]
  exact honce x

lemma Wf.unlink (h : Wf cached b) (horder : order < maxOrder)
    (hmem : addr ∈ (b.freeArea order).list) : Wf cached (b.unlink order addr) := by
  have hcover := unlink_freeCover horder hmem
  have hzero : (b.unlink order addr).freeCover addr = 0 := by
    have hat := hcover addr
    have honce := h.once addr
    rw [cell_self (by decide)] at hat
    omega
  have hgone : ∀ k < maxOrder, ∀ a ∈ ((b.unlink order addr).freeArea k).list,
      a ≠ addr ∧ a ∈ (b.freeArea k).list := by
    intro k hk a ha
    refine ⟨?_, ?_⟩
    · rintro rfl
      exact not_mem_of_freeCover_eq_zero hk hzero ha
    rw [unlink_freeArea] at ha
    split at ha
    · subst k
      exact mem_of_mem_erase ha
    · exact ha
  have hcached := h.not_cached_of_mem horder hmem
  refine ⟨h.page_aligned, ?_, ?_, ?_, ?_, ?_, ?_, ?_⟩
  · intro k hk a ha
    exact h.aligned k hk a (hgone k hk a ha).2
  · intro k hk a ha
    obtain ⟨hne, ha⟩ := hgone k hk a ha
    rw [unlink_pages, if_neg hne]
    exact h.head k hk a ha
  · intro a hfree
    rw [unlink_pages] at hfree
    split at hfree
    · simp at hfree
    rename_i hne
    obtain ⟨k, hk, ha⟩ := h.flagged a hfree
    refine ⟨k, hk, ?_⟩
    rw [unlink_freeArea]
    split
    · subst k
      exact (mem_erase_of_ne hne).mpr ha
    · exact ha
  · intro a
    rw [unlink_pages]
    split
    · subst a
      simp [hcached]
    · exact h.linked a
  · intro a ha
    have hx := hcover a
    have hnone := h.not_cached a ha
    omega
  · intro k hk
    rw [unlink_freeArea]
    split
    · simp [h.counted order horder, length_erase_of_mem hmem]
    · exact h.counted k hk
  intro x
  have hx := hcover x
  have honce := h.once x
  omega

lemma Wf.setOrder (h : Wf cached b) (horder : order < maxOrder)
    (hfree : (b.pages addr).isFree = false) :
    Wf cached (b.setPage addr ((b.pages addr).setPgfOrder (BitVec.ofNat 8 order))) := by
  have hnot : ∀ k < maxOrder, ∀ a ∈ (b.freeArea k).list, a ≠ addr := by
    rintro k hk a hmem rfl
    simp [(h.head k hk a hmem).1] at hfree
  have hisFree : ∀ a, ((b.setPage addr
      ((b.pages addr).setPgfOrder (BitVec.ofNat 8 order))).pages a).isFree =
        (b.pages a).isFree := by
    intro a
    rw [setPage_pages]
    split
    · subst a
      exact Page.isFree_setPgfOrder _ horder
    · rfl
  refine ⟨h.page_aligned, h.aligned, ?_, ?_, ?_, h.not_cached, h.counted, h.once⟩
  · intro k hk a hmem
    rw [setPage_pages, if_neg (hnot k hk a hmem)]
    exact h.head k hk a hmem
  · intro a ha
    exact h.flagged a (by rwa [hisFree] at ha)
  intro a
  rw [hisFree, setPage_pages]
  split
  · subst a
    exact h.linked addr
  · exact h.linked a

/-- Write the order of a page and link it, which is how every block gets into
a free area. -/
def place (b : Allocator) (order addr : Nat) : Allocator :=
  (b.setPage addr ((b.pages addr).setPgfOrder (BitVec.ofNat 8 order))).link order addr

@[simp] lemma place_startAddress : (b.place order addr).startAddress = b.startAddress := rfl

@[simp] lemma place_freeSize : (b.place order addr).freeSize = b.freeSize := rfl

lemma place_freeCover (horder : order < maxOrder) : (b.place order addr).freeCover x =
    b.freeCover x + cell pgsize order addr x :=
  link_freeCover horder

lemma place_freeBytes (horder : order < maxOrder) :
    (b.place order addr).freeBytes = b.freeBytes + blockSize order :=
  link_freeBytes horder

lemma place_list_ne_nil : ((b.place order addr).freeArea order).list ≠ [] := by
  simp [place, link_freeArea]

lemma Wf.place (h : Wf cached b) (horder : order < maxOrder)
    (haligned : Aligned pgsize b.startAddress order addr)
    (hcached : ∀ a, cached a → cell pgsize order addr a = 0)
    (honce : ∀ x, b.freeCover x + cell pgsize order addr x ≤ 1) :
    Wf cached (b.place order addr) := by
  have hzero : b.freeCover addr = 0 := by
    have hat := honce addr
    rw [cell_self (by decide)] at hat
    omega
  have hset := h.setOrder horder (h.not_isFree_of_freeCover_eq_zero hzero)
  refine hset.link horder haligned ?_ hcached honce
  rw [setPage_pages, if_pos rfl]
  exact Page.pgfOrder_setPgfOrder _ horder

lemma pushFront_eq_link (hfree : (b.pages addr).isFree = false)
    (hlinked : (b.pages addr).linked = false) :
    b.pushFront order addr = some (b.link order addr) := by
  simp [pushFront, hfree, hlinked, Allocator.link]

lemma Wf.pushFront_setOrder (h : Wf cached b) (horder : order < maxOrder)
    (hzero : b.freeCover addr = 0) (hcached : ¬ cached addr) :
    (b.setPage addr ((b.pages addr).setPgfOrder (BitVec.ofNat 8 order))).pushFront order addr =
        some (b.place order addr) := by
  have hfree := h.not_isFree_of_freeCover_eq_zero hzero
  refine pushFront_eq_link ?_ ?_
  · rw [setPage_pages, if_pos rfl, Page.isFree_setPgfOrder _ horder, hfree]
  · rw [setPage_pages, if_pos rfl, Page.linked_setPgfOrder]
    exact h.not_linked hfree hcached

lemma popFront_nil (hnil : (b.freeArea order).list = []) : b.popFront order = some (none, b) := by
  simp [popFront, hnil]

lemma Wf.popFront_cons (h : Wf cached b) (horder : order < maxOrder)
    (hcons : (b.freeArea order).list = addr :: rest) :
    b.popFront order = some (some addr, b.unlink order addr) := by
  have hfree := (h.head order horder addr (by simp [hcons])).1
  simp [popFront, hcons, hfree, Allocator.unlink]

lemma Wf.paddrToPage_eq (h : Wf cached b) (haligned : Aligned pgsize b.startAddress order addr) :
    paddrToPage addr = some addr := by
  have hmod := Nat.mod_eq_zero_of_dvd (haligned.unit_dvd h.page_aligned)
  simp [paddrToPage, hmod]

end Allocator
end Redwing.Buddy
