/-
The law of `brk`: the break it sets, the pages it keeps, the addresses it makes
usable and those it takes away.  A call keeps the law exactly when it moves the
break over a page boundary and its walk gets to every page beyond the new end.
-/
import Redwing.VmFork

namespace Redwing.Vm

open Walks Option

/-- User code can read, write or execute the page. -/
def VMInner.accessible (vm : VMInner) (v : Nat) : Bool :=
  match vm.pgTable.lookup 0 v with
  | none => false
  | some e => e.perm.user && (e.perm.readable || e.perm.writable || e.perm.executable)

lemma VMInner.accessible_congr {vm vm' : VMInner} {v : Nat}
    (h : vm'.pgTable.lookup 0 v = vm.pgTable.lookup 0 v) : vm'.accessible v = vm.accessible v := by
  rw [accessible, accessible, h]

lemma VMInner.accessible_of_unmapped {vm : VMInner} {v : Nat}
    (h : vm.pgTable.lookup 0 v = none) : vm.accessible v = false := by
  rw [accessible, h]

def granting : Refusals := fun _ _ => false

/-- What a successful `brk(newBrkPtr)` from `a` to `a'` is to do. -/
structure BrkLaw (src : PageSource) (newBrkPtr : Nat) (a a' : AddrSpace) :
    Prop where
  queried : ∀ refused, brk src refused 0 a' = some (a', .ok newBrkPtr)
  kept : ∀ addr, addr < min (userBaseVaddr + a.vm.userSpaceSize) newBrkPtr →
    a.vm.accessible (addr / 4096) = true →
    a'.vm.pgTable.lookup 0 (addr / 4096) = a.vm.pgTable.lookup 0 (addr / 4096) ∧
      ∀ e, a.vm.pgTable.lookup 0 (addr / 4096) = some e →
        a'.heap.mem e.physicalAddr = a.heap.mem e.physicalAddr
  grown : ∀ addr, userBaseVaddr + a.vm.userSpaceSize ≤ addr →
    addr < newBrkPtr → a'.vm.pgTable.lookup 0 (addr / 4096) = none →
    ∃ b, onPageFault src granting addr a' = some (b, .ok ()) ∧
      ∃ e, b.vm.pgTable.lookup 0 (addr / 4096) = some e ∧
        e.perm.writable = true ∧ e.perm.user = true
  beyond : ∀ addr, (pgRoundUp newBrkPtr).val ≤ addr → addr < vaLimit →
    a'.vm.accessible (addr / 4096) = false ∧ ∀ refused, onPageFault src refused addr a' =
        some (a', .error SysErrorKind.outOfMemory.err)

def endPage (size : Nat) : Nat := userBasePage + (pgRoundUp size).page

/-- The break stays or moves over a page boundary, and the walk of `vunmap` gets
to every accessible page beyond the new end. -/
structure BrkSettles (newBrkPtr : Nat) (vm : VMInner) : Prop where
  moves : newBrkPtr = userBaseVaddr + vm.userSpaceSize ∨
    endPage (newBrkPtr - userBaseVaddr) ≠ vm.userEndPage
  walked : ∀ v, endPage (newBrkPtr - userBaseVaddr) ≤ v → v < 134217728 →
    vm.accessible v = true → v < vm.userEndPage - lastChunk vm.userEndPage

section

variable {base : Nat → Nat} {a : AddrSpace}

lemma tryMap_isSome (hlimit : page < 134217728) (haligned : addr / 4096 * 4096 = addr)
    (hne : addr ≠ 0) : (tryMap src refused (page * 4096) addr perm s).isSome := by
  have hva : ¬ vaLimit ≤ page * 4096 := by
    rw [vaLimit]
    omega
  have hset : ∀ e : Pte, e.setPhysicalAddr addr = some { e with ppn := addr / 4096 } := by
    intro e
    rw [Pte.setPhysicalAddr, if_pos ⟨by omega, hne⟩]
  rw [tryMap, if_neg hva]
  split
  · rfl
  · simp only [hset]
    split <;> rfl

lemma vmapPage_isSome (hlo : userBasePage ≤ page) (hlimit : page < 134217728) :
    (vmapPage src refused (page * 4096) perm s).isSome := by
  have harea : isVmapArea (page * 4096) = true := by
    rw [userBasePage] at hlo
    rw [isVmapArea, decide_eq_true_iff]
    omega
  rw [vmapPage, harea]
  cases halloc : s.heap.allocZeroedPage src (refused 0 (key 0 (page * 4096))) with
  | none => simp
  | some granted =>
    obtain ⟨addr, heap⟩ := granted
    obtain ⟨-, haligned, hne⟩ := Heap.allocZeroedPage_fresh halloc
    have htry : (tryMap src refused (page * 4096) addr perm
        { s with heap }).isSome := tryMap_isSome hlimit haligned hne
    obtain ⟨⟨s', outcome⟩, htry⟩ := isSome_iff_exists.mp htry
    simp only [htry]
    cases outcome with
    | error err => rfl
    | ok mapped =>
      cases mapped with
      | true => rfl
      | false => rfl

lemma getEntry_eq (hwf : t.Wf) (hlimit : page < 134217728) :
    getEntry t (page * 4096) = some (t.lookup 0 page) := by
  have hva : ¬ vaLimit ≤ page * 4096 := by
    rw [vaLimit]
    omega
  have hmissing : ∀ level, level ≤ 2 → (t.entry level (key level (page * 4096))).isValid = false →
      t.lookup 0 page = none := by
    intro level hlevel hinvalid
    rw [key_page, ← PageTable.lookup_eq_none] at hinvalid
    simpa [PageTable.mapped] using hwf.mapped_eq_false hlevel hinvalid
  rw [getEntry, if_neg hva]
  split
  · rename_i htop
    rw [hmissing 2 (by omega) (by simpa using htop)]
  split
  · rename_i hmid
    rw [hmissing 1 (by omega) (by simpa using hmid)]
  · rw [key_zero_page, PageTable.lookup]

lemma page_of_lt_break (h : Held base a) (hlo : userBaseVaddr ≤ addr)
    (hhi : addr < userBaseVaddr + a.vm.userSpaceSize) :
    userBasePage ≤ addr / 4096 ∧ addr / 4096 < 134217728 := by
  have hend := userEndPage_le h.segs.size
  have hround : a.vm.userSpaceSize ≤ (pgRoundUp a.vm.userSpaceSize).page * 4096 := by
    simp only [PageAligned.page, pgRoundUp]
    omega
  simp only [userBaseVaddr, userBasePage] at *
  omega

lemma userPage_of_le (h : userBasePage ≤ page ∧ page < 134217728) : UserPage page := by
  refine ⟨?_, h.2⟩
  have hle := h.1
  rw [userBasePage] at hle
  rw [kernelPages]
  omega

lemma onPageFault_maps (h : Held base a)
    (hrun : onPageFault src refused addr a = some (a', .ok ())) :
    Maps base refused ((EntryPerm.withRw.union .onlyUser).union .onlyValid)
      (addr / 4096) (addr / 4096 + 1) a.space a'.space := by
  rw [onPageFault] at hrun
  split at hrun
  · rename_i hrange
    have huser := userPage_of_le (page_of_lt_break h hrange.1 hrange.2)
    simp only [pgRoundDown] at hrun
    split at hrun
    · cases hrun
    · cases hrun
    split at hrun
    · cases hrun
    · rename_i s _ hmap
      cases hrun
      rcases vmapPage_spec h.owns huser hmap with ⟨_, -, hmaps, -⟩ | ⟨_, hfailed, -⟩
      · exact hmaps
      · cases hfailed
    · cases hrun
  · cases hrun

lemma onPageFault_granted (h : Held base a) (hlo : userBaseVaddr ≤ addr)
    (hhi : addr < userBaseVaddr + a.vm.userSpaceSize)
    (hnone : a.vm.pgTable.lookup 0 (addr / 4096) = none) :
    ∃ b, onPageFault src granting addr a = some (b, .ok ()) := by
  have hpage := page_of_lt_break h hlo hhi
  have hget := getEntry_eq h.owns.wf hpage.2
  rw [show a.space.table = a.vm.pgTable from rfl, hnone] at hget
  have hsome : (vmapPage src granting (addr / 4096 * 4096)
      (EntryPerm.withRw.union .onlyUser) a.space).isSome :=
    vmapPage_isSome hpage.1 hpage.2
  obtain ⟨⟨s, outcome⟩, hmap⟩ := isSome_iff_exists.mp hsome
  rcases vmapPage_spec h.owns (userPage_of_le hpage) hmap with
    ⟨page, rfl, -, -⟩ | ⟨err, -, -, hblocked⟩
  · refine ⟨a.put s, ?_⟩
    simp [onPageFault, hlo, hhi, and_self, pgRoundDown, hget, hmap]
  -- nothing stands in the way of the mapping
  rcases hblocked with hmapped | hrefused | ⟨level, -, -, -, hrefused⟩
  · exact absurd hnone hmapped
  · cases hrefused
  · cases hrefused

lemma onPageFault_beyond (hhi : userBaseVaddr + a.vm.userSpaceSize ≤ addr) :
    onPageFault src refused addr a = some (a, .error SysErrorKind.outOfMemory.err) := by
  rw [onPageFault, if_neg]
  omega

end

section

variable {base : Nat → Nat} {a a' : AddrSpace}

/-- What a successful change to the size `newSz` does: unless old and new size
end in the same page, the size changes, and a range of pages is unmapped. -/
structure Resized (newSz : Nat) (a a' : AddrSpace) : Prop where
  size : a'.vm.userSpaceSize =
    if a.vm.userEndPage = endPage newSz then a.vm.userSpaceSize else newSz
  gone : ∀ v, endPage newSz ≤ v → v < a.vm.userEndPage - lastChunk a.vm.userEndPage →
    a'.vm.pgTable.lookup 0 v = none
  other : ∀ v, ¬ (endPage newSz ≤ v ∧ v < a.vm.userEndPage - lastChunk a.vm.userEndPage) →
    a'.vm.pgTable.lookup 0 v = a.vm.pgTable.lookup 0 v
  mem : a'.heap.mem = a.heap.mem

lemma kernelPages_le_endPage (size : Nat) : kernelPages ≤ endPage size := by
  rw [kernelPages, endPage, userBasePage]
  omega

lemma uvalloc_resized (h : Held base a)
    (hrun : uvalloc src refused newSz .withRw true a = some (a', .ok ())) : Resized newSz a a' := by
  have hlimit := userEndPage_le h.segs.size
  have hold := (pgRoundUp a.vm.userSpaceSize).val_eq
  have hnew := (pgRoundUp newSz).val_eq
  rw [← VMInner.userEndPage] at hlimit
  rw [uvalloc] at hrun
  simp only [↓reduceIte] at hrun
  split at hrun
  · cases hrun
  split at hrun
  · -- both sizes end in the same page, and the old one stays
    cases hrun
    have hpages : a.vm.userEndPage = endPage newSz := by
      rw [VMInner.userEndPage, endPage]
      omega
    refine ⟨by rw [if_pos hpages], ?_, fun _ _ => rfl, rfl⟩
    intro v hv hv'
    omega
  have hpages : a.vm.userEndPage ≠ endPage newSz := by
    rw [VMInner.userEndPage, endPage]
    omega
  split at hrun
  · cases hrun
    refine ⟨by rw [if_neg hpages]; rfl, ?_, fun _ _ => rfl, rfl⟩
    intro v hv hv'
    rw [VMInner.userEndPage] at hv'
    rw [endPage] at hv
    omega
  have hle : endPage newSz ≤ a.vm.userEndPage := by
    rw [VMInner.userEndPage, endPage]
    omega
  have hunmaps := vunmap_spec h.owns (kernelPages_le_endPage newSz) hle
    (lt_of_le_of_lt hlimit (by decide))
  rw [userBase_add, sub_val, ← endPage, ← VMInner.userEndPage] at hrun
  cases hrun
  refine ⟨by rw [if_neg hpages]; rfl, ?_, hunmaps.other, hunmaps.mem⟩
  intro v hv hv'
  exact hunmaps.page v ⟨hv, hv'⟩

lemma brk_resized (h : Held base a) (hlo : userBaseVaddr ≤ newBrkPtr)
    (hrun : brk src refused newBrkPtr a = some (a', .ok r)) :
    Resized (newBrkPtr - userBaseVaddr) a a' := by
  have hne : newBrkPtr ≠ 0 := by
    rw [userBaseVaddr] at hlo
    omega
  rw [brk] at hrun
  simp only [hne, ↓reduceIte] at hrun
  split at hrun
  · cases hrun
  split at hrun
  · cases hrun
  · rename_i hgrow
    cases hrun
    exact uvalloc_resized h hgrow
  · cases hrun

lemma pgRoundUp_brk (hlo : userBaseVaddr ≤ newBrkPtr) :
    (pgRoundUp newBrkPtr).val = endPage (newBrkPtr - userBaseVaddr) * 4096 := by
  simp only [pgRoundUp, endPage, PageAligned.page, userBasePage, userBaseVaddr] at *
  omega

lemma brkLaw_of_settles (hlo : userBaseVaddr ≤ newBrkPtr)
    (hresized : Resized (newBrkPtr - userBaseVaddr) a a') (hheld : Held base a')
    (hsettles : BrkSettles newBrkPtr a.vm) : BrkLaw src newBrkPtr a a' := by
  have hsize : userBaseVaddr + a'.vm.userSpaceSize = newBrkPtr := by
    have hsize := hresized.size
    split at hsize
    · rename_i hsame
      rw [hsize]
      exact (hsettles.moves.resolve_right (not_not.mpr hsame.symm)).symm
    · omega
  have hround := pgRoundUp_brk hlo
  have hle : newBrkPtr ≤ (pgRoundUp newBrkPtr).val := by
    simp only [pgRoundUp]
    omega
  constructor
  · intro refused
    rw [brk]
    simp [hsize]
  · intro addr haddr _
    refine ⟨hresized.other _ ?_, ?_⟩
    · omega
    · intro e _
      rw [hresized.mem]
  · intro addr haddr hbelow hnone
    obtain ⟨b, hfault⟩ := onPageFault_granted hheld (by omega) (by omega) hnone
    obtain ⟨-, -, e, he, hperm, -⟩ :=
      (onPageFault_maps hheld hfault).page _ le_rfl (Nat.lt_succ_self _)
    exact ⟨b, hfault, e, he, by rw [hperm]; rfl, by rw [hperm]; rfl⟩
  intro addr haddr hlimit
  refine ⟨?_, fun refused => onPageFault_beyond (by omega)⟩
  by_cases hwalked : addr / 4096 < a.vm.userEndPage - lastChunk a.vm.userEndPage
  · exact VMInner.accessible_of_unmapped (hresized.gone _ (by omega) hwalked)
  rw [VMInner.accessible_congr (hresized.other _ (by omega))]
  rw [← Bool.not_eq_true]
  intro hacc
  rw [vaLimit] at hlimit
  exact hwalked (hsettles.walked _ (by omega) (by omega) hacc)

lemma settles_of_brkLaw (hlo : userBaseVaddr ≤ newBrkPtr)
    (hresized : Resized (newBrkPtr - userBaseVaddr) a a')
    (hlaw : BrkLaw src newBrkPtr a a') : BrkSettles newBrkPtr a.vm := by
  have hround := pgRoundUp_brk hlo
  constructor
  · have hquery := hlaw.queried granting
    rw [brk] at hquery
    simp only [↓reduceIte, some.injEq, Prod.mk.injEq, true_and, Except.ok.injEq] at hquery
    by_cases hsame : a.vm.userEndPage = endPage (newBrkPtr - userBaseVaddr)
    · have hsize := hresized.size
      rw [if_pos hsame] at hsize
      exact .inl (by rw [← hquery, hsize])
    · exact .inr (Ne.symm hsame)
  intro v hv hlimit hacc
  by_contra hwalked
  have hkept := hresized.other v (by omega)
  have hgone := (hlaw.beyond (v * 4096) (by omega) (by rw [vaLimit]; omega)).1
  rw [Nat.mul_div_cancel v (by decide), VMInner.accessible_congr hkept, hacc] at hgone
  cases hgone

/-- A successful `brk` keeps its law just when the break stays or moves over a
page boundary, and the walk of `vunmap` gets to every accessible page beyond the
new end. -/
theorem brk_law_iff (h : Held base a) (hlo : userBaseVaddr ≤ newBrkPtr)
    {r : Nat} (hrun : brk src refused newBrkPtr a = some (a', .ok r)) :
    BrkLaw src newBrkPtr a a' ↔ BrkSettles newBrkPtr a.vm := by
  have hresized := brk_resized h hlo hrun
  constructor
  · intro hlaw
    exact settles_of_brkLaw hlo hresized hlaw
  · intro hsettles
    exact brkLaw_of_settles hlo hresized (brk_spec h hrun).1 hsettles

end

/-! ### Runs -/

/-- Set the break of the first address space after a run of clean calls. -/
def brkAfter (actions : List Action) (newBrkPtr : Nat) :
    Option (System × VMInner × AddrSpace × Except SysError Nat) :=
  match (machine nextPage).runUnder Clean .boot actions with
  | none => none
  | some s =>
    match s.vms 0 with
    | none => none
    | some vm =>
      match brk nextPage granting newBrkPtr { vm, heap := s.heap } with
      | none => none
      | some (a', result) => some (s, vm, a', result)

lemma brkAfter_eq_some (h : brkAfter actions newBrkPtr = some (s, vm, a', result)) :
    Sound (s.baseOf 0) { vm, heap := s.heap } ∧
      brk nextPage granting newBrkPtr { vm, heap := s.heap } = some (a', result) := by
  rw [brkAfter] at h
  split at h
  · cases h
  rename_i s₁ hrun
  split at h
  · cases h
  rename_i vm₁ hvm
  split at h
  · cases h
  rename_i a₁ result₁ hbrk
  cases h
  have hreach := Machine.ReachableUnder.runUnder (.start System.boot_start) hrun
  exact ⟨(System.Inv.of_reachable hreach).sound hvm, hbrk⟩

/-- The user space grows over two tables, and its second page is touched. -/
def twoTablesTrace : List Action :=
  [.withKernelVm false, .brk 0 0x300203000 none, .onPageFault 0 0x300001000 none]

set_option maxRecDepth 20000 in
lemma twoTablesTrace_brk : (brkAfter twoTablesTrace 0x300001000).map (fun (_, vm, _, result) =>
    (result.toBool, vm.accessible 0x300001, vm.areaList,
      vm.userSpaceSize)) = some (true, true, [], 0x203000) := by
  decide +kernel

/-- Shrinking it to one page takes the touched page away. -/
theorem twoTablesTrace_brk_law : ∃ s vm a' r, brkAfter twoTablesTrace 0x300001000 =
        some (s, vm, a', .ok r) ∧ vm.accessible 0x300001 = true ∧
      BrkLaw nextPage 0x300001000 { vm, heap := s.heap } a' := by
  obtain ⟨⟨s, vm, a', result⟩, hrun, hend⟩ := map_eq_some_iff.mp twoTablesTrace_brk
  simp only [Prod.mk.injEq] at hend
  obtain ⟨hok, haccessible, hareas, hsize⟩ := hend
  obtain ⟨hsound, hbrk⟩ := brkAfter_eq_some hrun
  cases result with
  | error err => cases hok
  | ok r =>
    refine ⟨s, vm, a', r, hrun, haccessible, ?_⟩
    apply (brk_law_iff hsound.toHeld (by decide) hbrk).mpr
    have hend : vm.userEndPage = 0x300203 := by
      rw [VMInner.userEndPage, hsize]
      rfl
    have hchunk : lastChunk 0x300203 = 0 := by decide
    constructor
    · right
      rw [hend]
      decide
    intro v hv hlimit hacc
    have huser : UserPage v := ⟨(kernelPages_le_endPage _).trans hv, hlimit⟩
    have hmapped : vm.pgTable.lookup 0 v ≠ none := by
      intro hnone
      rw [VMInner.accessible_of_unmapped hnone] at hacc
      cases hacc
    rcases hsound.covered v huser hmapped with ⟨area, harea, -⟩ | hspace
    · simp only [hareas] at harea
      cases harea
    rw [hend, hchunk]
    rw [hend] at hspace
    exact hspace.2

/-- The user space has one page, of which 100 bytes are used. -/
def partPageTrace : List Action := [.withKernelVm false, .brk 0 0x300000064 none]

set_option maxRecDepth 20000 in
lemma partPageTrace_brk : (brkAfter partPageTrace 0x3000000c8).map (fun (_, _, a', result) =>
    (result.toBool, a'.vm.userSpaceSize)) = some (true, 0x64) := by
  decide +kernel

/-- Growing it to 200 bytes is reported as done and changes nothing. -/
theorem partPageTrace_not_brk_law : ¬ ∀ (src : PageSource) (refused : Refusals) (base : Nat → Nat)
      (a a' : AddrSpace) (newBrkPtr r : Nat), Held base a →
      userBaseVaddr ≤ newBrkPtr → newBrkPtr ≤ userEndVaddr →
      brk src refused newBrkPtr a = some (a', .ok r) →
      BrkLaw src newBrkPtr a a' := by
  intro hall
  obtain ⟨⟨s, vm, a', result⟩, hrun, hend⟩ := map_eq_some_iff.mp partPageTrace_brk
  simp only [Prod.mk.injEq] at hend
  obtain ⟨hok, hsize⟩ := hend
  obtain ⟨hsound, hbrk⟩ := brkAfter_eq_some hrun
  cases result with
  | error err => cases hok
  | ok r =>
    have hlaw := hall nextPage granting _ _ a' 0x3000000c8 r hsound.toHeld
      (by decide) (by decide) hbrk
    have hquery := hlaw.queried granting
    rw [brk] at hquery
    simp only [↓reduceIte, hsize, some.injEq, Prod.mk.injEq, true_and, Except.ok.injEq] at hquery
    exact absurd hquery (by decide)

end Redwing.Vm
