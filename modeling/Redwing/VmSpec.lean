/-
What an address space keeps true: every page it holds hangs in its page
table, and every mapped user page lies in one of its segments or in the user
space.  A call keeps this as long as no page escapes the ranges it unmaps.
-/
import Redwing.PageTableMap
import Redwing.Vm

namespace Redwing.Vm

open Walks List

def PageAligned.page (p : PageAligned) : Nat := p.val / 4096

lemma PageAligned.val_eq (p : PageAligned) : p.val = p.page * 4096 := by
  have haligned := p.aligned
  rw [page]
  omega

def userBasePage : Nat := 0x300000

namespace VmArea

def startPage (area : VmArea) : Nat := area.va.page
def endPage (area : VmArea) : Nat := area.va.page + area.size.page

lemma size_val (area : VmArea) : area.size.val = area.endPage * 4096 - area.startPage * 4096 := by
  rw [area.size.val_eq, endPage, startPage]
  omega

def Pages (area : VmArea) (v : Nat) : Prop := area.startPage ≤ v ∧ v < area.endPage

end VmArea

namespace VMInner

def userEndPage (vm : VMInner) : Nat := userBasePage + (pgRoundUp vm.userSpaceSize).page

def Covers (vm : VMInner) (v : Nat) : Prop :=
  (∃ area ∈ vm.areaList, area.Pages v) ∨ (userBasePage ≤ v ∧ v < vm.userEndPage)

end VMInner

/-- The segments of an address space lie apart, below its user space. -/
structure SegmentsOk (vm : VMInner) : Prop where
  areas : ∀ area ∈ vm.areaList, segmentAllowed area.va area.size = true
  disjoint : vm.areaList.Pairwise fun x y => y.overlaps x = false
  size : (pgRoundUp vm.userSpaceSize).val ≤ userEndVaddr

def VMInner.Covered (vm : VMInner) : Prop :=
  ∀ v, UserPage v → vm.pgTable.lookup 0 v ≠ none → vm.Covers v

/-- What every call on an address space keeps. -/
structure Held (base : Nat → Nat) (a : AddrSpace) : Prop where
  owns : Owns base a.space
  segs : SegmentsOk a.vm

/-- What the calls keep that lose no page. -/
structure Sound (base : Nat → Nat) (a : AddrSpace) : Prop
    extends Held base a where
  covered : a.vm.Covered

lemma segmentAllowed_bounds {area : VmArea} (h : segmentAllowed area.va area.size = true) :
    kernelPages ≤ area.startPage ∧ area.startPage ≤ area.endPage ∧ area.endPage ≤ userBasePage := by
  simp only [segmentAllowed, isVmapArea, Bool.and_eq_true, decide_eq_true_eq] at h
  simp only [userBaseVaddr] at h
  have hva := area.va.val_eq
  have hsize := area.size.val_eq
  simp only [VmArea.startPage, VmArea.endPage, kernelPages, userBasePage]
  omega

lemma userEndPage_le {size : Nat} (h : (pgRoundUp size).val ≤ userEndVaddr) :
    userBasePage + (pgRoundUp size).page ≤ 6553600 := by
  have hval := (pgRoundUp size).val_eq
  simp only [userEndVaddr, userBasePage] at *
  omega

section

variable {base : Nat → Nat} {a : AddrSpace}

/-- No mapped page of the range stands in the table that `vunmap` skips. -/
def UnmapsAll (t : PageTable) (startPage endPage : Nat) : Prop :=
  ∀ v ∈ interval (max startPage (endPage - lastChunk endPage)) endPage, t.lookup 0 v = none

lemma vunmap_all {s : Space} {startPage endPage : Nat} (hs : Owns base s)
    (hkernel : kernelPages ≤ startPage) (hle : startPage ≤ endPage) (hlimit : endPage < 134217728)
    (hclean : UnmapsAll s.table startPage endPage) :
    Unmaps base (fun v => startPage ≤ v ∧ v < endPage) s
      (vunmap (startPage * 4096) (endPage * 4096 - startPage * 4096) s) := by
  apply (vunmap_spec hs hkernel hle hlimit).congr
  · intro v hv
    by_cases hvisited : v < endPage - lastChunk endPage
    · exact .inl ⟨hv.1, hvisited⟩
    · exact .inr (hclean v (by rw [mem_interval]; omega))
  · intro v hv
    exact .inl ⟨hv.1, by omega⟩

lemma UnmapsAll.fewer {s s' : Space} {removed : Nat → Prop} {startPage endPage : Nat}
    (h : Unmaps base removed s s') (hclean : UnmapsAll s.table startPage endPage) :
    UnmapsAll s'.table startPage endPage := by
  intro v hv
  by_cases hr : removed v
  · exact h.page v hr
  · rw [h.other v hr, hclean v hv]

lemma unmapArea_spec {area : VmArea} (hs : Owns base a.space)
    (harea : segmentAllowed area.va area.size = true)
    (hclean : UnmapsAll a.vm.pgTable area.startPage area.endPage) :
    Unmaps base area.Pages a.space (a.unmapArea area).space := by
  obtain ⟨hkernel, hle, hend⟩ := segmentAllowed_bounds harea
  have hlimit : area.endPage < 134217728 := by
    simp only [userBasePage] at hend
    omega
  have hunmaps := vunmap_all hs hkernel hle hlimit hclean
  rw [← area.size_val, VmArea.startPage, ← area.va.val_eq] at hunmaps
  exact hunmaps

lemma unmapAreas_spec {areas : List VmArea} (hs : Owns base a.space)
    (hareas : ∀ area ∈ areas, segmentAllowed area.va area.size = true)
    (hclean : ∀ area ∈ areas, UnmapsAll a.vm.pgTable area.startPage area.endPage) :
    Unmaps base (fun v => ∃ area ∈ areas, area.Pages v) a.space
        (areas.foldl AddrSpace.unmapArea a).space ∧
      (areas.foldl AddrSpace.unmapArea a).vm.areaList = a.vm.areaList ∧
      (areas.foldl AddrSpace.unmapArea a).vm.userSpaceSize =
        a.vm.userSpaceSize := by
  induction areas generalizing a with
  | nil =>
    refine ⟨(Unmaps.refl hs).congr ?_ ?_, rfl, rfl⟩
    · simp
    · simp
  | cons area rest ih =>
    have hfirst := unmapArea_spec hs (hareas area (mem_cons_self ..))
      (hclean area (mem_cons_self ..))
    obtain ⟨hrest, hlist, hsize⟩ := ih hfirst.owns (fun x hx => hareas x (mem_cons_of_mem _ hx))
      (fun x hx => (hclean x (mem_cons_of_mem _ hx)).fewer hfirst)
    refine ⟨(hfirst.trans hrest).congr ?_ ?_, hlist, hsize⟩
    · intro v hv
      exact .inl (by simpa using hv)
    · intro v hv
      exact .inl (by simpa using hv)

end

section

variable {base : Nat → Nat} {a a' : AddrSpace}

/-- A mapping call is not stopped at the first page of a table past the start
of its range. -/
def MapsClean (refused : Refusals) (t : PageTable) (startPage endPage : Nat) : Prop :=
  ∀ v ∈ interval (startPage + 1) endPage, 512 ∣ v →
    (∀ u ∈ interval startPage v, ¬ Blocked refused t u) →
    ¬ Blocked refused t v

variable {s : Space} {result : Except SysError Unit}

lemma RolledBack.same {startPage endPage : Nat} {s' : Space}
    (h : RolledBack base refused startPage endPage s s')
    (hclean : MapsClean refused s.table startPage endPage) :
    s'.table.lookup 0 v = s.table.lookup 0 v := by
  obtain ⟨stop, hstart, hrange, hblocked, hbefore, hsame⟩ := h.stop
  apply hsame
  by_cases hbegin : stop = startPage
  · exact .inl hbegin
  refine .inr fun hdvd => hclean stop ?_ hdvd ?_ hblocked
  · rw [mem_interval]
    omega
  · intro u hu
    rw [mem_interval] at hu
    exact hbefore u hu.1 hu.2

lemma Held.of_fewer (h : Held base a) (howns : Owns base a'.space)
    (hlist : a'.vm.areaList = a.vm.areaList)
    (hsize : a'.vm.userSpaceSize = a.vm.userSpaceSize) : Held base a' := by
  refine ⟨howns, ?_, ?_, ?_⟩
  · rw [hlist]
    exact h.segs.areas
  · rw [hlist]
    exact h.segs.disjoint
  · rw [hsize]
    exact h.segs.size

lemma Held.put (h : Held base a) (howns : Owns base s) : Held base (a.put s) :=
  h.of_fewer howns rfl rfl

lemma VMInner.Covered.of_fewer {vm vm' : VMInner} (h : vm.Covered)
    (hlist : vm'.areaList = vm.areaList) (hsize : vm'.userSpaceSize = vm.userSpaceSize)
    (hfewer : ∀ v, vm'.pgTable.lookup 0 v ≠ none → vm.pgTable.lookup 0 v ≠ none) : vm'.Covered := by
  intro v huser hmapped
  have hcovered := h v huser (hfewer v hmapped)
  rwa [VMInner.Covers, VMInner.userEndPage, ← hlist, ← hsize] at hcovered

lemma Held.resize (h : Held base a) (howns : Owns base s)
   (hsize : (pgRoundUp newSz).val ≤ userEndVaddr) : Held base ((a.put s).setSize newSz) :=
  ⟨howns, ⟨h.segs.areas, h.segs.disjoint, hsize⟩⟩

lemma VMInner.Covered.resize (h : a.vm.Covered) (hpages : ∀ v, s.table.lookup 0 v ≠ none →
      (a.vm.pgTable.lookup 0 v ≠ none ∧ (userBasePage ≤ v →
        v < a.vm.userEndPage → v < userBasePage + (pgRoundUp newSz).page)) ∨
      (userBasePage ≤ v ∧ v < userBasePage + (pgRoundUp newSz).page)) :
    ((a.put s).setSize newSz).vm.Covered := by
  intro v huser hmapped
  rcases hpages v hmapped with ⟨hbefore, hkept⟩ | hnew
  · rcases h v huser hbefore with hseg | ⟨hlo, hhi⟩
    · exact .inl hseg
    · exact .inr ⟨hlo, hkept hlo hhi⟩
  · exact .inr hnew

/-- What `uvalloc` needs: a growth that is not stopped at a table boundary, a
shrink that misses no page. -/
def UvallocClean (refused : Refusals) (newSz : Nat) (isLazy : Bool) (vm : VMInner) : Prop :=
  (pgRoundUp newSz).val ≤ userEndVaddr →
    (isLazy = false → MapsClean refused vm.pgTable vm.userEndPage
      (userBasePage + (pgRoundUp newSz).page)) ∧
    UnmapsAll vm.pgTable (userBasePage + (pgRoundUp newSz).page) vm.userEndPage

lemma userBase_add (p : PageAligned) : userBaseVaddr + p.val = (userBasePage + p.page) * 4096 := by
  rw [p.val_eq, userBaseVaddr, userBasePage]
  omega

lemma sub_val (p q : PageAligned) : p.val - q.val =
    (userBasePage + p.page) * 4096 - (userBasePage + q.page) * 4096 := by
  rw [p.val_eq, q.val_eq]
  omega

lemma uvalloc_spec (h : Held base a) {perm : EntryPerm} {isLazy : Bool}
    (hrun : uvalloc src refused newSz perm isLazy a = some (a', result)) :
    Held base a' ∧ (UvallocClean refused newSz isLazy a.vm → a.vm.Covered → a'.vm.Covered) := by
  have hold := userEndPage_le h.segs.size
  have holdVal := (pgRoundUp a.vm.userSpaceSize).val_eq
  have hnewVal := (pgRoundUp newSz).val_eq
  have hkernel : ∀ n, kernelPages ≤ userBasePage + n := by
    intro n
    simp only [kernelPages, userBasePage]
    omega
  rw [uvalloc] at hrun
  simp only at hrun
  split at hrun
  · cases hrun
    exact ⟨h, fun _ hcovered => hcovered⟩
  rename_i hfits
  have hfits := not_lt.mp hfits
  have hnew := userEndPage_le hfits
  split at hrun
  · cases hrun
    exact ⟨h, fun _ hcovered => hcovered⟩
  split at hrun
  · rename_i hgrow
    split at hrun
    · -- lazy growth only moves the end of the user space
      split at hrun
      · cases hrun
        refine ⟨h.resize h.owns hfits, fun _ hcovered =>
          VMInner.Covered.resize hcovered (s := a.space) ?_⟩
        intro v hv
        refine .inl ⟨hv, fun _ hhi => ?_⟩
        rw [VMInner.userEndPage] at hhi
        omega
      · cases hrun
    rename_i heager
    rw [userBase_add, sub_val] at hrun
    cases hvmap : vmap src refused ((userBasePage + (pgRoundUp a.vm.userSpaceSize).page) * 4096)
        ((userBasePage + (pgRoundUp newSz).page) * 4096 -
          (userBasePage + (pgRoundUp a.vm.userSpaceSize).page) * 4096)
        (perm.union .onlyUser) a.space with
    | none => simp [hvmap] at hrun
    | some mapped =>
      have hspec := vmap_spec h.owns (hkernel _) (by omega) (by omega) hvmap
      obtain ⟨s, outcome⟩ := mapped
      simp only [hvmap] at hrun
      cases outcome with
      | error err =>
        cases hrun
        refine ⟨h.put hspec.owns, fun hclean hcovered => hcovered.of_fewer rfl rfl fun v hv => ?_⟩
        exact hspec.same ((hclean hfits).1 (by simpa using heager)) ▸ hv
      | ok =>
        cases hrun
        refine ⟨h.resize hspec.owns hfits, fun _ hcovered => hcovered.resize fun v hv => ?_⟩
        by_cases hnewPage : userBasePage + (pgRoundUp a.vm.userSpaceSize).page ≤ v ∧
            v < userBasePage + (pgRoundUp newSz).page
        · exact .inr ⟨by omega, hnewPage.2⟩
        rw [hspec.other v (by omega)] at hv
        refine .inl ⟨hv, fun _ hhi => ?_⟩
        rw [VMInner.userEndPage] at hhi
        omega
  · rename_i hshrink
    rw [userBase_add, sub_val] at hrun
    cases hrun
    have hunmaps := vunmap_spec h.owns (hkernel (pgRoundUp newSz).page)
      (by omega : _ ≤ userBasePage + (pgRoundUp a.vm.userSpaceSize).page) (by omega)
    refine ⟨h.resize hunmaps.owns hfits, fun hclean hcovered => hcovered.resize fun v hv => ?_⟩
    have hall := vunmap_all h.owns (hkernel (pgRoundUp newSz).page)
      (by omega : _ ≤ userBasePage + (pgRoundUp a.vm.userSpaceSize).page)
      (by omega) (hclean hfits).2
    by_cases hgone : userBasePage + (pgRoundUp newSz).page ≤ v ∧
        v < userBasePage + (pgRoundUp a.vm.userSpaceSize).page
    · exact absurd (hall.page v hgone) hv
    rw [hall.other v hgone] at hv
    refine .inl ⟨hv, fun _ hhi => ?_⟩
    rw [VMInner.userEndPage] at hhi
    omega

lemma brk_spec (h : Held base a) {newBrkPtr : Nat} {result : Except SysError Nat}
    (hrun : brk src refused newBrkPtr a = some (a', result)) :
    Held base a' ∧ ((userBaseVaddr ≤ newBrkPtr → newBrkPtr ≤ userEndVaddr →
        UvallocClean refused (newBrkPtr - userBaseVaddr) true a.vm) →
        a.vm.Covered → a'.vm.Covered) := by
  rw [brk] at hrun
  split at hrun
  · cases hrun
    exact ⟨h, fun _ hcovered => hcovered⟩
  split at hrun
  · cases hrun
    exact ⟨h, fun _ hcovered => hcovered⟩
  rename_i hrange
  cases hgrow : uvalloc src refused (newBrkPtr - userBaseVaddr) .withRw true a with
  | none => simp [hgrow] at hrun
  | some grown =>
    obtain ⟨hheld, hcovers⟩ := uvalloc_spec h hgrow
    obtain ⟨b, outcome⟩ := grown
    simp only [hgrow] at hrun
    have hresult : b = a' := by
      cases outcome with
      | ok | error => cases hrun; rfl
    subst hresult
    exact ⟨hheld, fun hclean => hcovers (hclean (by omega) (by omega))⟩

lemma SegmentsOk.addArea (h : SegmentsOk vm) (hallowed : segmentAllowed area.va area.size = true)
    (hadd : Vm.addArea vm.areaList area = some list) :
    list = vm.areaList ++ [area] ∧ SegmentsOk { vm with areaList := list } := by
  rw [Vm.addArea] at hadd
  split at hadd
  · cases hadd
  rename_i hno
  cases hadd
  refine ⟨rfl, ?_, ?_, h.size⟩
  · intro x hx
    rcases mem_append.mp hx with hx | hx
    · exact h.areas x hx
    · rw [mem_singleton.mp hx]
      exact hallowed
  apply pairwise_append.mpr
  refine ⟨h.disjoint, pairwise_singleton _ _, ?_⟩
  intro x hx y hy
  rw [mem_singleton.mp hy]
  simp only [any_eq_true, not_exists, not_and, Bool.not_eq_true] at hno
  exact hno x hx

lemma allocSegment_spec (area : VmArea) (h : Held base a)
    (hallowed : segmentAllowed area.va area.size = true)
    (hrun : allocSegment src refused area.va area.size area.perm a = some (a', result)) :
    Held base a' ∧ (MapsClean refused a.vm.pgTable area.startPage area.endPage →
        a.vm.Covered → a'.vm.Covered) := by
  obtain ⟨hkernel, hle, hend⟩ := segmentAllowed_bounds hallowed
  rw [userBasePage] at hend
  rw [allocSegment] at hrun
  cases hvmap : vmap src refused area.va.val area.size.val area.perm a.space with
  | none => simp [hvmap] at hrun
  | some mapped =>
    have hspec := vmap_spec h.owns hkernel hle (by omega) (by
      rw [← area.size_val, VmArea.startPage, ← area.va.val_eq]
      exact hvmap)
    obtain ⟨s, outcome⟩ := mapped
    cases outcome with
    | error err =>
      simp only [hvmap] at hrun
      cases hrun
      refine ⟨h.put hspec.owns, fun hclean hcovered => hcovered.of_fewer rfl rfl fun v hv => ?_⟩
      exact hspec.same hclean ▸ hv
    | ok =>
      simp only [hvmap] at hrun
      split at hrun
      · cases hrun
      rename_i list hadd
      cases hrun
      obtain ⟨rfl, hsegs⟩ := h.segs.addArea hallowed hadd
      refine ⟨⟨hspec.owns, ⟨hsegs.areas, hsegs.disjoint, hsegs.size⟩⟩,
        fun _ hcovered v huser hmapped => ?_⟩
      by_cases hpage : area.Pages v
      · exact .inl ⟨area, mem_append_right _ (by simp), hpage⟩
      have hbefore : a.vm.pgTable.lookup 0 v ≠ none := by
        rw [VmArea.Pages] at hpage
        exact hspec.other v (by omega) ▸ hmapped
      rcases hcovered v huser hbefore with ⟨x, hx, hv⟩ | hv
      · exact .inl ⟨x, mem_append_left _ hx, hv⟩
      · exact .inr hv

lemma removeByVa_eq_some {list rest : List VmArea} {va : Nat}
    {area : VmArea} (h : removeByVa list va = some (area, rest)) :
    area ∈ list ∧ rest.Sublist list ∧ ∀ x ∈ list, x ≠ area → x ∈ rest := by
  rw [removeByVa] at h
  split at h
  · cases h
  rename_i found hfind
  cases h
  obtain ⟨hcontains, before, after, rfl, hbefore⟩ := find?_eq_some_iff_append.mp hfind
  have herase : (before ++ area :: after).eraseP (fun x => x.contains va) = before ++ after := by
    rw [eraseP_append_right]
    · simp [hcontains]
    · intro x hx
      simpa using hbefore x hx
  rw [herase]
  refine ⟨by simp, by simp, ?_⟩
  intro x hx hne
  simp only [mem_append, mem_cons] at hx ⊢
  tauto

lemma deallocSegment_spec (h : Sound base a) {va : PageAligned}
    (hclean : ∀ area rest, removeByVa a.vm.areaList va.val = some (area, rest) →
      UnmapsAll a.vm.pgTable area.startPage area.endPage) :
    Sound base (deallocSegment va a).1 := by
  rw [deallocSegment]
  split
  · exact h
  rename_i area rest hremove
  obtain ⟨hmem, hsub, hothers⟩ := removeByVa_eq_some hremove
  have hunmaps : Unmaps base area.Pages a.space ((a.setAreas rest).unmapArea area).space :=
    unmapArea_spec (a := a.setAreas rest) h.owns (h.segs.areas area hmem) (hclean area rest hremove)
  refine ⟨⟨hunmaps.owns, ⟨fun x hx => h.segs.areas x (hsub.subset hx),
    h.segs.disjoint.sublist hsub, h.segs.size⟩⟩, ?_⟩
  intro v huser hmapped
  by_cases hpage : area.Pages v
  · exact absurd (hunmaps.page v hpage) hmapped
  have hbefore : a.vm.pgTable.lookup 0 v ≠ none := by
    intro hnone
    exact hmapped ((hunmaps.other v hpage).trans hnone)
  rcases h.covered v huser hbefore with ⟨x, hx, hv⟩ | hv
  · refine .inl ⟨x, hothers x hx ?_, hv⟩
    rintro rfl
    exact hpage hv
  · exact .inr hv

def UnmapsEverything (vm : VMInner) : Prop :=
  (∀ area ∈ vm.areaList, UnmapsAll vm.pgTable area.startPage area.endPage) ∧
  UnmapsAll vm.pgTable userBasePage vm.userEndPage

lemma deallocAllSegments_spec (h : Held base a) (hclean : UnmapsEverything a.vm) :
    Unmaps base (fun v => ∃ area ∈ a.vm.areaList, area.Pages v) a.space
        (deallocAllSegments a).space ∧
      (deallocAllSegments a).vm.areaList = [] ∧
      (deallocAllSegments a).vm.userSpaceSize = a.vm.userSpaceSize :=
  unmapAreas_spec (a := a.setAreas []) h.owns h.segs.areas hclean.1

lemma unmapUserSpace_spec (h : Held base a) (hclean : UnmapsEverything a.vm) :
    Unmaps base a.vm.Covers a.space (vunmap userBaseVaddr (pgRoundUp a.vm.userSpaceSize).val
        (deallocAllSegments a).space) := by
  have hend := userEndPage_le h.segs.size
  obtain ⟨hsegs, -, -⟩ := deallocAllSegments_spec h hclean
  have hspace := vunmap_all hsegs.owns
    (by simp [kernelPages, userBasePage] : kernelPages ≤ userBasePage)
    (Nat.le_add_right userBasePage (pgRoundUp a.vm.userSpaceSize).page)
    (by omega) (hclean.2.fewer hsegs)
  have hlen : (userBasePage + (pgRoundUp a.vm.userSpaceSize).page) * 4096 -
      userBasePage * 4096 = (pgRoundUp a.vm.userSpaceSize).val := by
    rw [(pgRoundUp a.vm.userSpaceSize).val_eq, add_mul, Nat.add_sub_cancel_left]
  have hbase : userBasePage * 4096 = userBaseVaddr := rfl
  rw [hlen, hbase] at hspace
  exact hsegs.trans hspace

lemma VMInner.Covered.noUserPages (h : a.vm.Covered)
    (hunmaps : Unmaps base a.vm.Covers a.space s) : NoUserPages s := by
  intro v huser
  by_cases hcovers : a.vm.Covers v
  · exact hunmaps.page v hcovers
  rw [hunmaps.other v hcovers]
  by_contra hmapped
  exact hcovers (h v huser hmapped)

lemma uvalloc_zero_spec (h : Held base a)
    (hclean : UnmapsEverything a.vm) {perm : EntryPerm} {isLazy : Bool}
    (hrun : uvalloc src refused 0 perm isLazy (deallocAllSegments a) = some (a', result)) :
    result = .ok () ∧ Unmaps base a.vm.Covers a.space a'.space ∧
      a'.vm.areaList = [] ∧ a'.vm.userSpaceSize = 0 := by
  obtain ⟨hsegs, hlist, hsize⟩ := deallocAllSegments_spec h hclean
  have hzero : (pgRoundUp 0).val = 0 := rfl
  rw [uvalloc, hsize, hzero] at hrun
  simp only [Nat.not_lt_zero, ↓reduceIte] at hrun
  split at hrun
  · -- the user space is empty already
    rename_i hempty
    cases hrun
    have hpage : (pgRoundUp a.vm.userSpaceSize).page = 0 := by rw [PageAligned.page, hempty]
    refine ⟨rfl, hsegs.congr ?_ (fun v hv => .inl (.inl hv)), hlist, ?_⟩
    · intro v hv
      rcases hv with hseg | ⟨hlo, hhi⟩
      · exact .inl hseg
      · rw [VMInner.userEndPage, hpage] at hhi
        omega
    · simp only [pgRoundUp] at hempty
      omega
  · cases hrun
    exact ⟨rfl, unmapUserSpace_spec h hclean, hlist, rfl⟩

lemma dropVm_spec (h : Sound base a) (hclean : UnmapsEverything a.vm) :
    (dropVm a).badFree = false ∧ ∀ page, (dropVm a).issued.count page = base page := by
  have hunmaps := unmapUserSpace_spec h.toHeld hclean
  have hroot : (vunmap userBaseVaddr (pgRoundUp a.vm.userSpaceSize).val
      (deallocAllSegments a).space).table.root = a.vm.pgTable.root :=
    hunmaps.root
  obtain ⟨-, -, hsize⟩ := deallocAllSegments_spec h.toHeld hclean
  obtain ⟨hclearRoot, hhonest, hcount⟩ := clear_spec hunmaps.owns (h.covered.noUserPages hunmaps)
  rw [hroot] at hcount
  have hdrop : dropVm a = (clear (vunmap userBaseVaddr (pgRoundUp a.vm.userSpaceSize).val
      (deallocAllSegments a).space)).heap.freePage a.vm.pgTable.root := by
    simp only [dropVm, hsize, AddrSpace.put, AddrSpace.space] at hroot ⊢
    rw [hroot]
  obtain ⟨hfree, hback⟩ := Heap.freePage_count hcount
  rw [hdrop]
  exact ⟨hfree.trans hhonest, hback⟩

lemma onPageFault_spec (h : Held base a) {addr : Nat}
    (hrun : onPageFault src refused addr a = some (a', result)) :
    Held base a' ∧ (a.vm.Covered → a'.vm.Covered) := by
  rw [onPageFault] at hrun
  split at hrun
  · rename_i hrange
    simp only at hrun
    split at hrun
    · cases hrun
    · cases hrun
      exact ⟨h, id⟩
    have hend := userEndPage_le h.segs.size
    have hsize : a.vm.userSpaceSize ≤ (pgRoundUp a.vm.userSpaceSize).page * 4096 := by
      simp only [PageAligned.page, pgRoundUp]
      omega
    have hvaddr : userBaseVaddr = userBasePage * 4096 := rfl
    have huser : UserPage (pgRoundDown addr).page := by
      simp only [UserPage, kernelPages, PageAligned.page, pgRoundDown, userBasePage] at *
      omega
    rw [(pgRoundDown addr).val_eq] at hrun
    cases hmap : vmapPage src refused ((pgRoundDown addr).page * 4096)
        (EntryPerm.withRw.union .onlyUser) a.space with
    | none => simp [hmap] at hrun
    | some mapped =>
      obtain ⟨s, outcome⟩ := mapped
      simp only [hmap] at hrun
      rcases vmapPage_spec h.owns huser hmap with ⟨page, rfl, hmaps, -⟩ | ⟨err, rfl, hmaps, -⟩
      · cases hrun
        refine ⟨h.put hmaps.owns, fun hcovered v hv hmapped => ?_⟩
        by_cases hpage : v = (pgRoundDown addr).page
        · refine .inr ?_
          simp only [VMInner.userEndPage, AddrSpace.put]
          simp only [PageAligned.page, pgRoundDown, userBasePage] at *
          omega
        apply hcovered v hv
        intro hnone
        exact hmapped ((hmaps.other v (by omega)).trans hnone)
      cases hrun
      refine ⟨h.put hmaps.owns, fun hcovered => hcovered.of_fewer rfl rfl fun v hv => ?_⟩
      exact hmaps.other v (by omega) ▸ hv
  · cases hrun
    exact ⟨h, id⟩

end
end Redwing.Vm
