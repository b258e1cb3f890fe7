/-
What `fork` makes of an address space: a new one, filled by copying.  It is a
true copy exactly when no user page of the source lies in a part of the
address space that the range walks leave out.
-/
import Redwing.VmSystem

namespace Redwing.Vm

open Walks Option

/-- The pages that the walks over the segments and the user space get to.  If
a range ends where a table ends, its walk leaves out this last table. -/
def VMInner.Walked (vm : VMInner) (v : Nat) : Prop :=
  (∃ area ∈ vm.areaList, area.startPage ≤ v ∧ v < area.endPage - lastChunk area.endPage) ∨
  (userBasePage ≤ v ∧ v < vm.userEndPage - lastChunk vm.userEndPage)

lemma VMInner.mem_copied {vm : VMInner} {v : Nat} :
    v ∈ vm.copied ↔ vm.Walked v ∧ vm.pgTable.mapped v = true := by
  simp only [copied, Walked, List.mem_append, List.mem_flatMap, mem_visited]
  constructor
  · rintro (⟨area, harea, hrange, hmapped⟩ | ⟨hrange, hmapped⟩)
    · exact ⟨.inl ⟨area, harea, hrange⟩, hmapped⟩
    · exact ⟨.inr hrange, hmapped⟩
  rintro ⟨⟨area, harea, hrange⟩ | hrange, hmapped⟩
  · exact .inl ⟨area, harea, hrange, hmapped⟩
  · exact .inr ⟨hrange, hmapped⟩

/-- The address space `copy` is a copy of `source`, made when the page
allocator was in the state `before`: the same user pages are mapped, with the
same permissions and the same bytes, on pages apart from those of the source,
which are as they were. -/
structure IsCopy (source : VMInner) (before : Heap) (copy : AddrSpace) :
    Prop where
  pages : ∀ v, UserPage v → (copy.vm.pgTable.mapped v = true ↔ source.pgTable.mapped v = true)
  perm : ∀ v e e', UserPage v → source.pgTable.lookup 0 v = some e →
    copy.vm.pgTable.lookup 0 v = some e' → e'.perm = e.perm
  bytes : ∀ v e e', UserPage v → source.pgTable.lookup 0 v = some e →
    copy.vm.pgTable.lookup 0 v = some e' →
    copy.heap.mem e'.physicalAddr = before.mem e.physicalAddr
  kept : ∀ v e, UserPage v → source.pgTable.lookup 0 v = some e →
    copy.heap.mem e.physicalAddr = before.mem e.physicalAddr
  disjoint : ∀ v e w e', UserPage v → UserPage w → source.pgTable.lookup 0 v = some e →
    copy.vm.pgTable.lookup 0 w = some e' → e'.physicalAddr ≠ e.physicalAddr

section

variable {s : System} {source : Nat} {svm : VMInner} {turnedDown : Option (Nat × Nat)}
  {a a' : AddrSpace}

lemma System.Counted.of_reachable
    (hs : (machine src).ReachableUnder (fun _ action => Builds action = true) s) : s.Counted := by
  apply hs.invariant
  · intro start hstart
    exact (System.Start.inv hstart).toCounted
  · intro before action after hcounted hbuilds hrun
    exact (System.Counted.step hcounted hbuilds hrun).1

lemma unmapsEverything_of_empty {vm : VMInner} (hlist : vm.areaList = [])
    (hsize : vm.userSpaceSize = 0) : UnmapsEverything vm := by
  refine ⟨by simp [hlist], ?_⟩
  have hend : vm.userEndPage = userBasePage := by
    rw [VMInner.userEndPage, hsize]
    rfl
  rw [UnmapsAll, hend, interval_eq_nil (le_max_left ..)]
  simp

lemma fork_copies (h : s.Counted) (hsource : s.vms source = some svm)
    (hnew : withKernelVm src s.kernel refused s.heap = some a)
    (hcopy : copyUserContentFrom src (refusing turnedDown) svm a = some (a', .ok ())) :
    ∃ s₀ : Space, NoUserPages s₀ ∧ (∀ page ∈ s.heap.issued, page ∈ s₀.heap.issued) ∧
      (∀ page ∈ s.heap.issued, s₀.heap.mem page = s.heap.mem page) ∧
      Copies s.heap.issued.count svm.pgTable svm.copied s₀ a'.space := by
  obtain ⟨hwf, hsegs, hno, hlist, hsize, hhonest, hmem, hcount⟩ := withKernelVm_spec h.kernel hnew
  have hsound : Sound s.heap.issued.count a :=
    ⟨⟨⟨hwf, hcount, hhonest.trans h.balanced.honest⟩, hsegs⟩,
      fun v huser hmapped => absurd (hno v huser) hmapped⟩
  have hframes : IsSource s.heap.issued.count svm.pgTable := by
    apply h.isSource hsource
    intro page
    rw [h.issued_eq hsource]
    exact Nat.le_add_left ..
  obtain ⟨⟨s₀, hunmaps, hno₀, hcopies⟩, -⟩ := copyUserContentFrom_spec hsound
    (unmapsEverything_of_empty hlist hsize) hframes (h.vm source svm hsource).2 hcopy
  refine ⟨s₀, hno₀, fun page hpage => ?_, fun page hpage => ?_, hcopies⟩
  · exact hunmaps.owns.mem_issued (List.count_pos_iff.mpr hpage)
  · exact (congrFun hunmaps.mem page).trans (hmem page hpage)

lemma mapped_iff_lookup {t : PageTable} {v : Nat} :
    t.mapped v = true ↔ ∃ e, t.lookup 0 v = some e :=
  isSome_iff_exists

/-- The fork of an address space, however it was built up, whatever requests
the page allocator turned down on the way and whatever was written to it, is a
copy exactly when the walks over the ranges of the address space get to all of
its user pages. -/
theorem fork_isCopy_iff (src : PageSource) (s : System)
    (hs : (machine src).ReachableUnder (fun _ action => Builds action = true) s)
    (hsource : s.vms source = some svm) (hnew : withKernelVm src s.kernel refused s.heap = some a)
    (hcopy : copyUserContentFrom src (refusing turnedDown) svm a = some (a', .ok ())) :
    IsCopy svm s.heap a' ↔ ∀ v, UserPage v → svm.pgTable.mapped v = true → svm.Walked v := by
  have hcounted := System.Counted.of_reachable hs
  obtain ⟨s₀, hno, hissued, hmem, hcopies⟩ := fork_copies hcounted hsource hnew hcopy
  have hframe : ∀ v e, UserPage v → svm.pgTable.lookup 0 v = some e →
      e.physicalAddr ∈ s.heap.issued := by
    intro v e huser he
    rw [← List.count_pos_iff, hcounted.issued_eq hsource]
    have hheld := PageTable.refersTo_le_held huser.page_key he
    omega
  -- a page of the copy was copied by the loop
  have hcopied : ∀ v e', UserPage v → a'.vm.pgTable.lookup 0 v = some e' → v ∈ svm.copied := by
    intro v e' huser he'
    by_contra hnot
    have hsame := hcopies.other v hnot
    rw [hno v huser] at hsame
    exact absurd (he'.symm.trans hsame) (by simp)
  constructor
  · intro hcopy v huser hmapped
    obtain ⟨e', he'⟩ := mapped_iff_lookup.mp ((hcopy.pages v huser).mpr hmapped)
    exact (VMInner.mem_copied.mp (hcopied v e' huser he')).1
  intro hwalked
  refine ⟨?_, ?_, ?_, ?_, ?_⟩
  · intro v huser
    constructor
    · intro hmapped
      obtain ⟨e', he'⟩ := mapped_iff_lookup.mp hmapped
      exact (VMInner.mem_copied.mp (hcopied v e' huser he')).2
    intro hmapped
    obtain ⟨-, e, e', -, he', -⟩ := hcopies.page v
      (VMInner.mem_copied.mpr ⟨hwalked v huser hmapped, hmapped⟩)
    exact mapped_iff_lookup.mpr ⟨e', he'⟩
  · intro v e e' huser he he'
    obtain ⟨-, e₁, e₂, he₁, he₂, hperm, -⟩ := hcopies.page v (hcopied v e' huser he')
    rw [some.inj (he.symm.trans he₁), some.inj (he'.symm.trans he₂), hperm]
  · intro v e e' huser he he'
    obtain ⟨-, e₁, e₂, he₁, he₂, -, -, -, hbytes⟩ := hcopies.page v (hcopied v e' huser he')
    rw [← hmem _ (hframe v e huser he), some.inj (he.symm.trans he₁), some.inj (he'.symm.trans he₂)]
    exact hbytes
  · intro v e huser he
    have hpage := hframe v e huser he
    exact (hcopies.mem _ (hissued _ hpage)).trans (hmem _ hpage)
  intro v e w e' hv hw he he' heq
  obtain ⟨-, e₁, e₂, -, he₂, -, hfresh, -⟩ := hcopies.page w (hcopied w e' hw he')
  apply hfresh
  rw [← some.inj (he'.symm.trans he₂), heq]
  exact hissued _ (hframe v e hv he)

end

lemma VMInner.Covered.walked {vm : VMInner} (h : vm.Covered)
    (hareas : ∀ area ∈ vm.areaList, lastChunk area.endPage = 0)
    (hend : lastChunk vm.userEndPage = 0) {v : Nat} (huser : UserPage v)
    (hmapped : vm.pgTable.mapped v = true) : vm.Walked v := by
  obtain ⟨e, he⟩ := mapped_iff_lookup.mp hmapped
  rcases h v huser (by simp [he]) with ⟨area, harea, hrange⟩ | hrange
  · refine .inl ⟨area, harea, ?_⟩
    rw [hareas area harea]
    exact hrange
  refine .inr ?_
  rw [hend]
  exact hrange

/-- Build up an address space `0` by clean calls and copy it into a new one:
the state before, the source, the new address space before and after, and what
the copy returns. -/
def forkAfter (trace : List Action) : Option
    (System × VMInner × AddrSpace × AddrSpace × Except SysError Unit) :=
  ((machine nextPage).runUnder (fun s action => Builds action = true ∧ Clean s action) .boot
      trace).bind fun s =>
    (s.vms 0).bind fun svm =>
      (withKernelVm nextPage s.kernel false s.heap).bind fun a =>
        (copyUserContentFrom nextPage (refusing none) svm a).map fun out => (s, svm, a, out)

lemma forkAfter_eq_some {trace : List Action} {s : System} {svm : VMInner} {a a' : AddrSpace}
    {result : Except SysError Unit} (h : forkAfter trace = some (s, svm, a, a', result)) :
    (machine nextPage).ReachableUnder (fun s action => Builds action = true ∧ Clean s action) s ∧
      s.vms 0 = some svm ∧ withKernelVm nextPage s.kernel false s.heap = some a ∧
      copyUserContentFrom nextPage (refusing none) svm a = some (a', result) := by
  simp only [forkAfter, bind_eq_some_iff, map_eq_some_iff] at h
  obtain ⟨_, hrun, _, hsource, _, hnew, out, hcopy, heq⟩ := h
  cases heq
  exact ⟨Machine.ReachableUnder.runUnder (.start System.boot_start) hrun, hsource, hnew, hcopy⟩

lemma trapframe_aligned : 0x200009000 % 4096 = 0 := rfl

lemma page_aligned : 0x1000 % 4096 = 0 := rfl

/-- A trapframe page and a heap of three pages, the first of them touched. -/
def smallTrace : List Action :=
  [.withKernelVm false,
    .allocSegment 0 ⟨0x200009000, trapframe_aligned⟩ ⟨0x1000, page_aligned⟩ .withRw none,
    .brk 0 0x300003000 none, .onPageFault 0 0x300000000 none]

set_option maxRecDepth 20000 in
lemma smallTrace_fork : (forkAfter smallTrace).map (fun (_, svm, _, a', result) =>
    (result.toBool, svm.areaList.map fun area => lastChunk area.endPage,
      lastChunk svm.userEndPage, a'.vm.pgTable.mapped 0x300000)) =
    some (true, [0], 0, true) := by
  decide +kernel

theorem smallTrace_isCopy : ∃ s svm a a', forkAfter smallTrace = some (s, svm, a, a', .ok ()) ∧
      a'.vm.pgTable.mapped 0x300000 = true ∧ IsCopy svm s.heap a' := by
  obtain ⟨⟨s, svm, a, a', result⟩, hfork, hend⟩ := map_eq_some_iff.mp smallTrace_fork
  simp only [Prod.mk.injEq] at hend
  obtain ⟨hok, hareas, hsize, hpage⟩ := hend
  obtain ⟨hs, hsource, hnew, hcopy⟩ := forkAfter_eq_some hfork
  cases result with
  | error err => cases hok
  | ok =>
    refine ⟨s, svm, a, a', hfork, hpage, ?_⟩
    apply (fork_isCopy_iff nextPage s (hs.mono fun _ _ hstep => hstep.1) hsource hnew hcopy).mpr
    have hinv := System.Inv.of_reachable (hs.mono fun _ _ hstep => hstep.2)
    intro v huser hmapped
    refine (hinv.covered 0 svm hsource).walked ?_ hsize huser hmapped
    intro area harea
    exact List.mem_singleton.mp (hareas ▸ List.mem_map_of_mem harea)

/-- A heap of exactly 2 MiB, one table, with its first page touched. -/
def wholeTableTrace : List Action :=
  [.withKernelVm false, .brk 0 0x300200000 none, .onPageFault 0 0x300000000 none]

set_option maxRecDepth 20000 in
lemma wholeTableTrace_fork : (forkAfter wholeTableTrace).map (fun (_, svm, _, a', result) =>
    (result.toBool, svm.pgTable.mapped 0x300000,
      a'.vm.pgTable.mapped 0x300000)) = some (true, true, false) := by
  decide +kernel

theorem wholeTableTrace_not_isCopy :
    ¬ ∀ (src : PageSource) (s : System) (source : Nat) (svm : VMInner)
      (refused : Bool) (turnedDown : Option (Nat × Nat)) (a a' : AddrSpace),
      (machine src).ReachableUnder (fun _ action => Builds action = true) s →
      s.vms source = some svm →
      withKernelVm src s.kernel refused s.heap = some a →
      copyUserContentFrom src (refusing turnedDown) svm a = some (a', .ok ()) →
      IsCopy svm s.heap a' := by
  intro hall
  obtain ⟨⟨s, svm, a, a', result⟩, hfork, hend⟩ := map_eq_some_iff.mp wholeTableTrace_fork
  simp only [Prod.mk.injEq] at hend
  obtain ⟨hok, hpage, hmissing⟩ := hend
  obtain ⟨hs, hsource, hnew, hcopy⟩ := forkAfter_eq_some hfork
  cases result with
  | error err => cases hok
  | ok =>
    have hisCopy := hall nextPage s 0 svm false none a a'
      (hs.mono fun _ _ hstep => hstep.1) hsource hnew hcopy
    have huser : UserPage 0x300000 := by simp [UserPage, kernelPages]
    have hmapped := (hisCopy.pages 0x300000 huser).mpr hpage
    rw [hmissing] at hmapped
    cases hmapped

end Redwing.Vm
