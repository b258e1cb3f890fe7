/-
The address spaces of a whole system over one page allocator.  Every page
handed out hangs in exactly one live address space, as long as the calls keep
clear of the ranges that the page-table walks leave out.
-/
import Redwing.VmCopy

namespace Redwing.Vm

open Function Walks Finset

/-- How often a page hangs in an address space that may be gone. -/
def heldIn : Option VMInner → Nat → Nat
  | none, _ => 0
  | some vm, page => vm.pgTable.held page

namespace System

section

variable (s : System) (id : Nat) (vm : Option VMInner) (heap : Heap)

@[simp] lemma setVm_vms_self : (s.setVm id vm heap).vms id = vm := update_self ..

lemma setVm_vms_of_ne (hj : j ≠ id) : (s.setVm id vm heap).vms j = s.vms j := update_of_ne hj ..

lemma forall_setVm {P : VMInner → Prop} {s : System} {id : Nat} {vm : Option VMInner}
    (heap : Heap) (h : ∀ j x, s.vms j = some x → P x) (hvm : ∀ x, vm = some x → P x) :
    ∀ j x, (s.setVm id vm heap).vms j = some x → P x := by
  intro j x hx
  by_cases hj : j = id
  · subst hj
    rw [setVm_vms_self] at hx
    exact hvm x hx
  · rw [setVm_vms_of_ne _ _ _ _ hj] at hx
    exact h j x hx

end

/-- How often a page hangs in the address space `id`. -/
def heldBy (s : System) (id page : Nat) : Nat := heldIn (s.vms id) page

/-- How often a page is handed out to anybody but the address space `id`. -/
def baseOf (s : System) (id page : Nat) : Nat :=
  s.others.count page + ∑ j ∈ (Finset.range s.slots).erase id, s.heldBy j page

/-- Every page handed out since the start hangs in a live address space, and
none was returned twice. -/
structure Balanced (s : System) : Prop where
  count : ∀ page, s.heap.issued.count page =
    s.others.count page + ∑ id ∈ Finset.range s.slots, s.heldBy id page
  honest : s.heap.badFree = false

end System

/-- The page counts of a system, and the shape of its address spaces. -/
structure System.Counted (s : System) : Prop where
  kernel : s.kernel.Wf
  beyond : ∀ id, s.slots ≤ id → s.vms id = none
  balanced : s.Balanced
  vm : ∀ id vm, s.vms id = some vm → vm.pgTable.Wf ∧ SegmentsOk vm

/-- No address space has lost track of a page. -/
def System.Covered (s : System) : Prop := ∀ id vm, s.vms id = some vm → vm.Covered

namespace System.Counted

variable {s : System} {id : Nat} {vm : VMInner}

lemma lt_slots (h : s.Counted) (hvm : s.vms id = some vm) : id < s.slots := by
  by_contra hge
  rw [h.beyond id (by omega)] at hvm
  cases hvm

lemma issued_eq (h : s.Counted) (hvm : s.vms id = some vm) (page : Nat) :
    s.heap.issued.count page = s.baseOf id page + vm.pgTable.held page := by
  have hsum := add_sum_erase (range s.slots)
    (fun j => s.heldBy j page) (mem_range.mpr (h.lt_slots hvm))
  have hheld : s.heldBy id page = vm.pgTable.held page := by rw [heldBy, hvm, heldIn]
  rw [h.balanced.count, System.baseOf]
  omega

lemma held (h : s.Counted) (hvm : s.vms id = some vm) :
    Held (s.baseOf id) { vm, heap := s.heap } := by
  obtain ⟨hwf, hsegs⟩ := h.vm id vm hvm
  exact ⟨⟨hwf, h.issued_eq hvm, h.balanced.honest⟩, hsegs⟩

lemma baseOf_setVm (s : System) (id : Nat) (vm : Option VMInner) (heap : Heap) (page : Nat) :
    (s.setVm id vm heap).baseOf id page = s.baseOf id page := by
  rw [System.baseOf, System.baseOf, setVm_others, setVm_slots]
  congr 1
  apply sum_congr rfl
  intro j hj
  rw [heldBy, heldBy, setVm_vms_of_ne _ _ _ _ (ne_of_mem_erase hj)]

lemma setVm (h : s.Counted) (hlt : id < s.slots) {vm : Option VMInner}
    {heap : Heap} (hvm : ∀ x, vm = some x → x.pgTable.Wf ∧ SegmentsOk x)
    (hcount : ∀ page, heap.issued.count page = s.baseOf id page + heldIn vm page)
    (hhonest : heap.badFree = false) : (s.setVm id vm heap).Counted := by
  refine ⟨h.kernel, ?_, ⟨?_, hhonest⟩, forall_setVm _ h.vm hvm⟩
  · intro j hj
    rw [setVm_slots] at hj
    rw [setVm_vms_of_ne _ _ _ _ (by omega)]
    exact h.beyond j hj
  intro page
  have hsum := add_sum_erase (range s.slots)
    (fun j => (s.setVm id vm heap).heldBy j page) (mem_range.mpr hlt)
  have hself : (s.setVm id vm heap).heldBy id page = heldIn vm page := by
    rw [heldBy, setVm_vms_self]
  have hbase := baseOf_setVm s id vm heap page
  rw [System.baseOf, setVm_others, setVm_slots] at hbase
  rw [setVm_heap, setVm_others, setVm_slots, hcount]
  simp only [hself] at hsum
  omega

lemma update (h : s.Counted) (hvm : s.vms id = some vm) (hheld : Held (s.baseOf id) a) :
    (s.setVm id (some a.vm) a.heap).Counted := by
  apply h.setVm (h.lt_slots hvm)
  · rintro x ⟨rfl⟩
    exact ⟨hheld.owns.wf, hheld.segs⟩
  · exact hheld.owns.count
  · exact hheld.owns.honest

lemma heldBy_le_baseOf (h : s.Counted) (hne : id ≠ source) (hsource : s.vms source = some svm)
    (page : Nat) : svm.pgTable.held page ≤ s.baseOf id page := by
  have hmem : source ∈ (range s.slots).erase id :=
    mem_erase.mpr ⟨hne.symm, mem_range.mpr (h.lt_slots hsource)⟩
  have hle := single_le_sum (f := fun j => s.heldBy j page) (fun _ _ => Nat.zero_le _) hmem
  have hself : s.heldBy source page = svm.pgTable.held page := by rw [heldBy, hsource, heldIn]
  simp only [hself] at hle
  rw [System.baseOf]
  omega

lemma isSource (h : s.Counted) (hsource : s.vms source = some svm)
    (hbase : ∀ page, svm.pgTable.held page ≤ base page) : IsSource base svm.pgTable := by
  refine ⟨(h.vm source svm hsource).1, ?_⟩
  intro v e huser he
  have hheld := PageTable.refersTo_le_held huser.page_key he
  have hle := hbase e.physicalAddr
  omega

end System.Counted

section

variable {kernel : PageTable} {refused : Bool} {h : Heap} {a : AddrSpace}

lemma lookup_copyFromKernel (kernel : PageTable) (root level k : Nat) :
    (copyFromKernel { root, entry := fun _ _ => .zero } kernel).lookup level k =
      if isKernelKey level k then kernel.lookup level k else none := by
  simp only [PageTable.lookup, copyFromKernel]
  split <;> rfl

lemma withKernelVm_spec (hkernel : kernel.Wf)
    (hrun : withKernelVm src kernel refused h = some a) :
    a.vm.pgTable.Wf ∧ SegmentsOk a.vm ∧ NoUserPages a.space ∧ a.vm.areaList = [] ∧
      a.vm.userSpaceSize = 0 ∧ a.heap.badFree = h.badFree ∧
      (∀ page ∈ h.issued, a.heap.mem page = h.mem page) ∧
      ∀ page, a.heap.issued.count page = h.issued.count page + a.vm.pgTable.held page := by
  rw [withKernelVm, tryAlloc] at hrun
  cases halloc : h.allocZeroedPage src refused with
  | none => simp [halloc] at hrun
  | some granted =>
    obtain ⟨root, heap⟩ := granted
    simp only [halloc, Option.some.injEq] at hrun
    subst hrun
    have hlookup := lookup_copyFromKernel kernel root
    have huserNone : ∀ level k, UserKey level k →
        (copyFromKernel { root, entry := fun _ _ => .zero } kernel).lookup level k = none := by
      intro level k hkey
      rw [hlookup, hkey.user]
      rfl
    have hno : ∀ v, UserPage v → (copyFromKernel
        { root, entry := fun _ _ => .zero } kernel).lookup 0 v = none :=
      fun v huser => huserNone 0 v huser.page_key
    refine ⟨?_, ⟨by simp, List.Pairwise.nil, by simp [pgRoundUp]⟩, hno, rfl, rfl, ?_, ?_, ?_⟩
    · intro level k hlevel hnone
      rw [hlookup, ← isKernelKey_parent hlevel] at hnone
      rw [hlookup]
      split
      · rename_i hkey
        rw [if_pos hkey] at hnone
        exact hkernel level k hlevel hnone
      · rfl
    · obtain ⟨-, -, rfl⟩ := Heap.allocZeroedPage_eq_some halloc
      rfl
    · exact fun page hpage => (Heap.allocZeroedPage_issued halloc hpage).2
    intro page
    have hheld := PageTable.held_of_empty huserNone page
    obtain ⟨-, -, rfl⟩ := Heap.allocZeroedPage_eq_some halloc
    rw [hheld]
    simp [List.count_cons, copyFromKernel]

end

/-- The condition on a call under which no page gets lost: what it unmaps has
no page in the table that the range walk skips, and what it maps or copies is
not stopped at such a table boundary. -/
def Clean (s : System) : Action → Prop
  | .withKernelVm _ => True
  | .uvalloc id newSz _ isLazy turnedDown =>
    ∀ vm, s.vms id = some vm → UvallocClean (refusing turnedDown) newSz isLazy vm
  | .brk id newBrkPtr turnedDown =>
    ∀ vm, s.vms id = some vm → userBaseVaddr ≤ newBrkPtr → newBrkPtr ≤ userEndVaddr →
      UvallocClean (refusing turnedDown) (newBrkPtr - userBaseVaddr) true vm
  | .allocSegment id va size perm turnedDown =>
    ∀ vm, s.vms id = some vm → MapsClean (refusing turnedDown) vm.pgTable
        (VmArea.startPage { va, size, perm })
        (VmArea.endPage { va, size, perm })
  | .deallocSegment id va =>
    ∀ vm, s.vms id = some vm → ∀ area rest, removeByVa vm.areaList va.val = some (area, rest) →
      UnmapsAll vm.pgTable area.startPage area.endPage
  | .onPageFault _ _ _ => True
  | .copyUserContentFrom id source turnedDown =>
    (∀ vm, s.vms id = some vm → UnmapsEverything vm) ∧
    ∀ vm, s.vms source = some vm → CopiesClean (refusing turnedDown) vm
  | .store _ _ _ => True
  | .drop id => ∀ vm, s.vms id = some vm → UnmapsEverything vm

section

variable (refused : Refusals) (t : PageTable) (startPage endPage : Nat) (vm : VMInner)

instance : Decidable (UnmapsAll t startPage endPage) := inferInstanceAs (Decidable (∀ _ ∈ _, _))

instance (page : Nat) : Decidable (Blocked refused t page) :=
  decidable_of_iff (t.lookup 0 page ≠ none ∨ refused 0 page = true ∨
      ∃ level ∈ interval 1 3, t.lookup level (page / 512 ^ level) = none ∧
        refused level (page / 512 ^ level) = true)
    (by simp only [Blocked, mem_interval, Nat.one_le_iff_ne_zero, Nat.pos_iff_ne_zero, and_assoc])

instance : Decidable (MapsClean refused t startPage endPage) :=
  inferInstanceAs (Decidable (∀ _ ∈ _, _))

instance (newSz : Nat) (isLazy : Bool) : Decidable (UvallocClean refused newSz isLazy vm) :=
  inferInstanceAs (Decidable (_ → _ ∧ _))

instance : Decidable (UnmapsEverything vm) := inferInstanceAs (Decidable (_ ∧ _))

instance (v : Nat) : Decidable (StopsCopy refused t startPage v) :=
  inferInstanceAs (Decidable (_ ∨ _ ∨ _))

instance : Decidable (CopyClean refused t startPage endPage) :=
  inferInstanceAs (Decidable (∀ _ ∈ _, _))

instance : Decidable (CopiesClean refused vm) := inferInstanceAs (Decidable (_ ∧ _))

instance (s : System) : (action : Action) → Decidable (Clean s action)
  | .withKernelVm _ | .onPageFault _ _ _ | .store _ _ _ => isTrue trivial
  | .uvalloc id newSz _ isLazy turnedDown =>
    inferInstanceAs (Decidable (∀ vm ∈ s.vms id,
      UvallocClean (refusing turnedDown) newSz isLazy vm))
  | .brk id newBrkPtr turnedDown =>
    inferInstanceAs (Decidable (∀ vm ∈ s.vms id,
      userBaseVaddr ≤ newBrkPtr → newBrkPtr ≤ userEndVaddr →
      UvallocClean (refusing turnedDown) (newBrkPtr - userBaseVaddr) true vm))
  | .allocSegment id va size perm turnedDown =>
    inferInstanceAs (Decidable (∀ vm ∈ s.vms id, MapsClean (refusing turnedDown) vm.pgTable
        (VmArea.startPage { va, size, perm })
        (VmArea.endPage { va, size, perm })))
  | .deallocSegment id va =>
    decidable_of_iff (∀ vm ∈ s.vms id, ∀ removed ∈ removeByVa vm.areaList va.val,
        UnmapsAll vm.pgTable removed.1.startPage removed.1.endPage)
      (by simp only [Clean, Option.mem_def, Prod.forall])
  | .copyUserContentFrom id source turnedDown =>
    inferInstanceAs (Decidable ((∀ vm ∈ s.vms id, UnmapsEverything vm) ∧
      ∀ vm ∈ s.vms source, CopiesClean (refusing turnedDown) vm))
  | .drop id => inferInstanceAs (Decidable (∀ vm ∈ s.vms id, UnmapsEverything vm))

end

def Builds : Action → Bool
  | .withKernelVm _ | .uvalloc .. | .brk .. | .allocSegment ..
  | .onPageFault .. | .store .. => true
  | .deallocSegment .. | .copyUserContentFrom .. | .drop _ => false

/-- What clean calls keep. -/
structure System.Inv (s : System) : Prop extends s.Counted where
  covered : s.Covered

section

variable {s s' : System}

lemma System.Start.inv (h : s.Start) : s.Inv := by
  have hnone : ∀ id vm, s.vms id ≠ some vm := by
    intro id vm
    rw [h.vms]
    simp
  refine ⟨⟨?_, ?_, ⟨?_, h.honest⟩, fun id vm hvm => absurd hvm (hnone id vm)⟩,
    fun id vm hvm => absurd hvm (hnone id vm)⟩
  · intro level k hlevel hnone
    rw [PageTable.lookup_eq_none] at hnone ⊢
    exact h.kernel level k hlevel hnone
  · intro id _
    rw [h.vms]
  · intro page
    simp [h.issued, h.slots]

lemma System.onVm_eq_some {α : Type} {id : Nat} {op : AddrSpace → Option (AddrSpace × α)}
    (h : s.onVm id op = some s') :
    ∃ vm a result, s.vms id = some vm ∧ op { vm, heap := s.heap } = some (a, result) ∧
      s' = s.setVm id (some a.vm) a.heap := by
  rw [onVm] at h
  split at h
  · cases h
  rename_i vm hvm
  split at h
  · cases h
  rename_i a result hop
  cases h
  exact ⟨vm, a, result, hvm, hop, rfl⟩

lemma System.Counted.create (h : s.Counted) {refused : Bool} {a : AddrSpace}
    (hrun : withKernelVm src s.kernel refused s.heap = some a) :
    System.Counted { s.setVm s.slots (some a.vm) a.heap with
      slots := s.slots + 1 } := by
  obtain ⟨hwf, hsegs, -, -, -, hhonest, -, hcount⟩ := withKernelVm_spec h.kernel hrun
  have hold : ∀ j, j ≠ s.slots → (s.setVm s.slots (some a.vm) a.heap).vms j = s.vms j :=
    fun j hj => s.setVm_vms_of_ne _ _ _ hj
  refine ⟨h.kernel, ?_, ⟨?_, hhonest.trans h.balanced.honest⟩,
    forall_setVm (s := s) a.heap h.vm (by rintro x ⟨rfl⟩; exact ⟨hwf, hsegs⟩)⟩
  · intro j hj
    have hge : s.slots + 1 ≤ j := hj
    exact (hold j (by omega)).trans (h.beyond j (by omega))
  intro page
  have hsum : ∑ j ∈ range s.slots, heldIn ((s.setVm s.slots (some a.vm) a.heap).vms j) page =
      ∑ j ∈ range s.slots, s.heldBy j page := by
    apply sum_congr rfl
    intro j hj
    rw [heldBy, hold j (mem_range.mp hj).ne]
  have hself : heldIn ((s.setVm s.slots (some a.vm) a.heap).vms s.slots)
      page = a.vm.pgTable.held page := by
    rw [setVm_vms_self, heldIn]
  have hbefore := h.balanced.count page
  change a.heap.issued.count page = s.others.count page + ∑ j ∈ range (s.slots + 1),
      heldIn ((s.setVm s.slots (some a.vm) a.heap).vms j) page
  rw [sum_range_succ, hsum, hself, hcount]
  omega

lemma System.Counted.onVm (h : s.Counted) {α : Type} {id : Nat}
    {op : AddrSpace → Option (AddrSpace × α)} (clean : VMInner → Prop)
    (hop : ∀ vm a result, s.vms id = some vm → op { vm, heap := s.heap } = some (a, result) →
      Held (s.baseOf id) a ∧ (clean vm → vm.Covered → a.vm.Covered))
    (hrun : s.onVm id op = some s') :
    s'.Counted ∧ ((∀ vm, s.vms id = some vm → clean vm) → s.Covered → s'.Covered) := by
  obtain ⟨vm, a, result, hvm, hsome, rfl⟩ := System.onVm_eq_some hrun
  obtain ⟨hheld, hcovers⟩ := hop vm a result hvm hsome
  refine ⟨h.update hvm hheld, fun hclean hcovered => forall_setVm _ hcovered ?_⟩
  rintro x ⟨rfl⟩
  exact hcovers (hclean vm hvm) (hcovered id vm hvm)

lemma System.Counted.step {action : Action} (h : s.Counted) (hbuilds : Builds action = true)
    (hrun : Vm.step src s action = some s') :
    s'.Counted ∧ (Clean s action → s.Covered → s'.Covered) := by
  cases action with
  | withKernelVm refused =>
    rw [Vm.step] at hrun
    split at hrun
    · cases hrun
      exact ⟨h, fun _ hcovered => hcovered⟩
    rename_i a hcreate
    cases hrun
    obtain ⟨-, -, hno, -⟩ := withKernelVm_spec h.kernel hcreate
    refine ⟨h.create hcreate, fun _ hcovered => forall_setVm (s := s) a.heap hcovered ?_⟩
    rintro x ⟨rfl⟩ v huser hmapped
    exact absurd (hno v huser) hmapped
  | uvalloc id newSz perm isLazy turnedDown =>
    exact h.onVm _ (fun vm a _ hvm hop => uvalloc_spec (h.held hvm) hop) hrun
  | brk id newBrkPtr turnedDown =>
    exact h.onVm _ (fun vm a _ hvm hop => brk_spec (h.held hvm) hop) hrun
  | allocSegment id va size perm turnedDown =>
    rw [Vm.step] at hrun
    split at hrun
    · rename_i hallowed
      exact h.onVm _ (fun vm a _ hvm hop =>
        allocSegment_spec { va, size, perm } (h.held hvm) hallowed hop) hrun
    · cases hrun
  | onPageFault id addr turnedDown =>
    obtain ⟨hcounted, hcovers⟩ := h.onVm (fun _ => True) (fun vm a _ hvm hop => by
        obtain ⟨hheld, hcovers⟩ := onPageFault_spec (h.held hvm) hop
        exact ⟨hheld, fun _ => hcovers⟩) hrun
    exact ⟨hcounted, fun _ => hcovers fun _ _ => trivial⟩
  | store page offset byte =>
    cases hrun
    exact ⟨⟨h.kernel, h.beyond, ⟨h.balanced.count, h.balanced.honest⟩, h.vm⟩,
      fun _ hcovered => hcovered⟩
  | deallocSegment | copyUserContentFrom | drop => cases hbuilds

lemma System.Inv.sound (h : s.Inv) {id : Nat} {vm : VMInner} (hvm : s.vms id = some vm) :
    Sound (s.baseOf id) { vm, heap := s.heap } :=
  ⟨h.toCounted.held hvm, h.covered id vm hvm⟩

lemma System.Inv.update (h : s.Inv) {id : Nat} {vm : VMInner} (hvm : s.vms id = some vm)
    {a : AddrSpace} (hsound : Sound (s.baseOf id) a) : (s.setVm id (some a.vm) a.heap).Inv := by
  refine ⟨h.toCounted.update hvm hsound.toHeld, forall_setVm _ h.covered ?_⟩
  rintro x ⟨rfl⟩
  exact hsound.covered

lemma System.Inv.step {action : Action} (h : s.Inv) (hclean : Clean s action)
    (hrun : Vm.step src s action = some s') : s'.Inv := by
  by_cases hbuilds : Builds action = true
  · obtain ⟨hcounted, hcovers⟩ := h.toCounted.step hbuilds hrun
    exact ⟨hcounted, hcovers hclean h.covered⟩
  cases action with
  | deallocSegment id va =>
    rw [Vm.step] at hrun
    obtain ⟨vm, a, result, hvm, hop, rfl⟩ := System.onVm_eq_some hrun
    have hspec := deallocSegment_spec (h.sound hvm) (hclean vm hvm)
    rw [Option.some.inj hop] at hspec
    exact h.update hvm hspec
  | copyUserContentFrom id source turnedDown =>
    rw [Vm.step] at hrun
    split at hrun
    · cases hrun
    rename_i hne
    split at hrun
    · cases hrun
    rename_i svm hsource
    obtain ⟨vm, a, result, hvm, hop, rfl⟩ := System.onVm_eq_some hrun
    have hspec := copyUserContentFrom_spec (h.sound hvm) (hclean.1 vm hvm)
      (h.isSource hsource (h.heldBy_le_baseOf hne hsource)) (h.vm source svm hsource).2 hop
    cases result with
    | ok => exact h.update hvm hspec.sound
    | error err => exact h.update hvm (hspec (hclean.2 svm hsource))
  | drop id =>
    rw [Vm.step] at hrun
    split at hrun
    · cases hrun
    rename_i vm hvm
    cases hrun
    obtain ⟨hhonest, hcount⟩ := dropVm_spec (h.sound hvm) (hclean vm hvm)
    exact ⟨h.toCounted.setVm (h.lt_slots hvm) (by simp) hcount hhonest,
      forall_setVm _ h.covered (by simp)⟩
  | withKernelVm _ | uvalloc _ _ _ _ _ | brk _ _ _ | allocSegment _ _ _ _ _
  | onPageFault _ _ _ | store _ _ _ => exact absurd rfl hbuilds

lemma System.Inv.of_reachable (hs : (machine src).ReachableUnder Clean s) : s.Inv :=
  hs.invariant (fun _ hstart => System.Start.inv hstart)
    (fun _ _ _ hinv hclean hrun => System.Inv.step hinv hclean hrun)

end

/-- In every run of clean calls, on any number of address spaces and whatever
requests the page allocator turns down, every page handed out hangs in one of
the live address spaces: what a dropped address space obtained was returned,
once. -/
theorem balanced_of_clean_calls (src : PageSource) (s : System)
    (hs : (machine src).ReachableUnder Clean s) : s.Balanced :=
  (System.Inv.of_reachable hs).balanced

def nextPage : PageSource where
  pick := fun _ issued => (issued.foldr max 0 / 4096 + 1) * 4096
  fresh := by
    intro _ issued hmem
    have hle : ∀ pages : List Nat, ∀ p ∈ pages, p ≤ pages.foldr max 0 := by
      intro pages
      induction pages with
      | nil => simp
      | cons page rest ih =>
        intro p hp
        rw [List.foldr_cons]
        rcases List.mem_cons.mp hp with rfl | hrest
        · exact le_max_left ..
        · exact (ih p hrest).trans (le_max_right ..)
    have hmax := hle issued _ hmem
    omega
  aligned := by intros; omega
  ne_zero := by intros; omega

/-- A system without address spaces whose kernel maps nothing. -/
def System.boot : System where
  kernel := { root := 0, entry := fun _ _ => .zero }
  others := []
  heap := { issued := [], clock := 0, mem := fun _ _ => 0, badFree := false }
  slots := 0
  vms := fun _ => none

lemma System.boot_start : System.boot.Start := ⟨fun _ _ _ _ => rfl, rfl, rfl, rfl, rfl⟩

/-- A process with a trapframe page touches its heap, fails to grow it, forks,
shrinks it and exits; then its child exits. -/
def settledTrace : List Action :=
  [.withKernelVm false, .allocSegment 0 ⟨0x200009000, rfl⟩ ⟨0x1000, rfl⟩ .withRw none,
    .brk 0 0x300003000 none, .onPageFault 0 0x300000000 none,
    .uvalloc 0 0x5000 .withRw false (some (0, 0x300004)),
    .withKernelVm false, .copyUserContentFrom 1 0 none,
    .brk 0 0x300000000 none, .deallocSegment 0 ⟨0x200009000, rfl⟩,
    .drop 0, .drop 1]

set_option maxRecDepth 20000 in
lemma settledTrace_issued : ((machine nextPage).runUnder Clean .boot settledTrace).map
    (fun s => (s.slots, s.heap.issued)) = some (2, []) := by
  decide +kernel

theorem settledTrace_balanced : ∃ s, (machine nextPage).runUnder Clean .boot settledTrace = some s ∧
      s.slots = 2 ∧ s.heap.issued = [] ∧ s.Balanced := by
  obtain ⟨s, hrun, hend⟩ := Option.map_eq_some_iff.mp settledTrace_issued
  rw [Prod.mk.injEq] at hend
  refine ⟨s, hrun, hend.1, hend.2, balanced_of_clean_calls nextPage s ?_⟩
  exact Machine.ReachableUnder.runUnder (.start System.boot_start) hrun

/-- The heap grows lazily to exactly 2 MiB and one of its pages is touched.
The walk over the whole range leaves out its last table, here the only one, so
that dropping the address space misses the page. -/
def leakTrace : List Action :=
  [.withKernelVm false, .brk 0 0x300200000 none, .onPageFault 0 0x300000000 none, .drop 0]

set_option maxRecDepth 20000 in
lemma leakTrace_issued : ((machine nextPage).run .boot leakTrace).map
    (fun s => (s.slots, (s.vms 0).isNone, s.others, s.heap.issued)) =
    some (1, true, [], [0x2000]) := by
  decide +kernel

theorem leakTrace_not_balanced : ¬ ∀ src s, (machine src).Reachable s → s.Balanced := by
  intro hall
  obtain ⟨s, hrun, hend⟩ := Option.map_eq_some_iff.mp leakTrace_issued
  simp only [Prod.mk.injEq, Option.isNone_iff_eq_none] at hend
  obtain ⟨hslots, hgone, hothers, hissued⟩ := hend
  have hcount := (hall nextPage s
    (Machine.Reachable.run (.start System.boot_start) hrun)).count 0x2000
  have hheld : s.heldBy 0 0x2000 = 0 := by rw [System.heldBy, hgone, heldIn]
  rw [hslots, hothers, hissued, sum_range_one, hheld] at hcount
  simp at hcount

end Redwing.Vm
