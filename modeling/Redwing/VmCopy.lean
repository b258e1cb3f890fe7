/-
The copy of an address space that `fork` makes.  It maps a new page for every
page that the range iteration finds in the source, with the same permissions
and the same bytes.
-/
import Redwing.VmSpec

namespace Redwing.Vm

open Function Walks List PageTable

/-- The pages of a range that the iteration over the source finds. -/
def visited (t : PageTable) (startPage endPage : Nat) : List Nat :=
  (interval startPage (endPage - lastChunk endPage)).filter t.mapped

lemma mem_visited {t : PageTable} {startPage endPage v : Nat} : v ∈ visited t startPage endPage ↔
    (startPage ≤ v ∧ v < endPage - lastChunk endPage) ∧ t.mapped v = true := by
  rw [visited, mem_filter, mem_interval]

/-- From `s` to `s'` the pages `done` of the source `t` were copied: each of
them, not mapped before, now is a page that nobody held, with the permissions
and the bytes of the source's page. -/
structure Copies (base : Nat → Nat) (t : PageTable) (done : List Nat)
    (s s' : Space) : Prop where
  root : s'.table.root = s.table.root
  page : ∀ v ∈ done, s.table.lookup 0 v = none ∧ ∃ e e', t.lookup 0 v = some e ∧
    s'.table.lookup 0 v = some e' ∧ e'.perm = e.perm ∧ e'.physicalAddr ∉ s.heap.issued ∧
    e'.physicalAddr ∈ s'.heap.issued ∧ s'.heap.mem e'.physicalAddr = s.heap.mem e.physicalAddr
  other : ∀ v, v ∉ done → s'.table.lookup 0 v = s.table.lookup 0 v
  issued : ∀ p, p ∈ s.heap.issued → p ∈ s'.heap.issued
  mem : ∀ p, p ∈ s.heap.issued → s'.heap.mem p = s.heap.mem p
  owns : Owns base s'

lemma Owns.mem_issued {base : Nat → Nat} {s : Space} (h : Owns base s)
    {page : Nat} (hpos : 0 < base page) : page ∈ s.heap.issued := by
  rw [← count_pos_iff, h.count]
  omega

namespace Copies

variable {base : Nat → Nat} {t : PageTable} {done' : List Nat} {s s' s'' : Space}

lemma refl (hs : Owns base s) : Copies base t [] s s :=
  ⟨rfl, by simp, fun _ _ => rfl, fun _ h => h, fun _ _ => rfl, hs⟩

lemma trans (h : Copies base t done s s') (h' : Copies base t done' s' s'')
    (hframes : ∀ v e, v ∈ done' → t.lookup 0 v = some e → e.physicalAddr ∈ s.heap.issued) :
    Copies base t (done ++ done') s s'' where
  root := h'.root.trans h.root
  page := by
    intro v hv
    by_cases hlater : v ∈ done'
    · obtain ⟨hnone, e, e', he, he', hperm, hfresh, hissued, hmem⟩ := h'.page v hlater
      have hnot : v ∉ done := by
        intro hdone
        obtain ⟨-, _, _, -, hsome, -⟩ := h.page v hdone
        simp [hnone] at hsome
      rw [h.other v hnot] at hnone
      refine ⟨hnone, e, e', he, he', hperm, fun hp => hfresh (h.issued _ hp), hissued, ?_⟩
      rw [hmem, h.mem _ (hframes v e hlater he)]
    have hdone := (mem_append.mp hv).resolve_right hlater
    obtain ⟨hnone, e, e', he, he', hperm, hfresh, hissued, hmem⟩ := h.page v hdone
    exact ⟨hnone, e, e', he, (h'.other v hlater).trans he', hperm, hfresh,
      h'.issued _ hissued, (h'.mem _ hissued).trans hmem⟩
  other := by
    intro v hv
    rw [mem_append, not_or] at hv
    rw [h'.other v hv.2, h.other v hv.1]
  issued := fun p hp => h'.issued p (h.issued p hp)
  mem := fun p hp => (h'.mem p (h.issued p hp)).trans (h.mem p hp)
  owns := h'.owns

lemma ofPage {refused : Refusals} {v : Nat} {e e' : Pte} (he : t.lookup 0 v = some e)
    (hmaps : Maps base refused (e.perm.union .onlyValid) v (v + 1) s s')
    (he' : s'.table.lookup 0 v = some e') (hframe : e.physicalAddr ∈ s.heap.issued)
    (hnew : e'.physicalAddr ∈ s'.heap.issued) :
    Copies base t [v] s { s' with
      heap := s'.heap.copyPage e'.physicalAddr e.physicalAddr } := by
  obtain ⟨hnone, -, e₁, he₁, hperm, hfresh⟩ := hmaps.page v le_rfl (by omega)
  obtain rfl : e₁ = e' := by
    rw [he'] at he₁
    exact (Option.some.inj he₁).symm
  have hvalid : e.perm.valid = true := (lookup_eq_some.mp he).2 ▸ (lookup_eq_some.mp he).1
  have hsame : e.perm.union .onlyValid = e.perm := by
    obtain ⟨ppn, perm⟩ := e
    simp only at hvalid
    simp [EntryPerm.union, EntryPerm.onlyValid, ← hvalid]
  refine ⟨hmaps.root, ?_, ?_, hmaps.issued, ?_, ?_⟩
  · intro u hu
    obtain rfl := mem_singleton.mp hu
    refine ⟨hnone, e, e₁, he, he', hperm.trans hsame, hfresh, hnew, ?_⟩
    exact (update_self ..).trans (hmaps.mem _ hframe)
  · intro u hu
    exact hmaps.other u (by simp at hu; omega)
  · intro p hp
    have hne : p ≠ e₁.physicalAddr := fun heq => hfresh (heq ▸ hp)
    exact (update_of_ne hne ..).trans (hmaps.mem p hp)
  · exact ⟨hmaps.owns.wf, hmaps.owns.count, hmaps.owns.honest⟩

lemma ofTables {refused : Refusals} {perm : EntryPerm} {v : Nat}
    (hmaps : Maps base refused perm v v s s') : Copies base t [] s s' :=
  ⟨hmaps.root, by simp, fun u _ => hmaps.other u (by omega), hmaps.issued, hmaps.mem, hmaps.owns⟩

end Copies

section

variable {base : Nat → Nat} {a a' : AddrSpace} {source : VMInner}

/-- What the copy relies on from its source: well-formed tables whose user
pages are held by somebody else than the copy. -/
structure IsSource (base : Nat → Nat) (t : PageTable) : Prop where
  wf : t.Wf
  frames : ∀ v e, UserPage v → t.lookup 0 v = some e → 0 < base e.physicalAddr

/-- A copy that failed at page `v`, after the pages `before`, and was rolled
back to the start of the range. -/
def CopyFailed (base : Nat → Nat) (refused : Refusals) (t : PageTable)
    (startPage endPage : Nat) (s s' : Space) : Prop :=
  ∃ before v after s₁ s₂, visited t startPage endPage = before ++ v :: after ∧
    Copies base t before s s₁ ∧ Blocked refused s₁.table v ∧
    Copies base t before s s₂ ∧
    s' = vunmap (startPage * 4096) (v * 4096 - startPage * 4096) s₂

lemma copyContentFrom_spec (hs : Owns base a.space) (hsource : IsSource base source.pgTable)
    (hkernel : kernelPages ≤ startPage) (hle : startPage ≤ endPage) (hlimit : endPage < 134217728)
    {out : AddrSpace × Except SysError Unit}
    (hrun : copyContentFrom src refused (startPage * 4096)
      (endPage * 4096 - startPage * 4096) source a = some out) :
    Outcome (fun a' => Copies base source.pgTable
        (visited source.pgTable startPage endPage) a.space a'.space)
      (fun a' _ => CopyFailed base refused source.pgTable startPage endPage a.space a'.space) out ∧
      out.1.vm.areaList = a.vm.areaList ∧
      out.1.vm.userSpaceSize = a.vm.userSpaceSize := by
  have hend := Nat.add_sub_of_le (Nat.mul_le_mul_right 4096 hle)
  have hpages : ∀ pages : List Nat, (pages.map (· * 4096)).map (· / 4096) = pages := by
    intro pages
    simp [comp_def]
  rw [copyContentFrom, hend, rangeOfEntries_eq hsource.wf hle hlimit] at hrun
  have hloop := tryEach_outcome (fun before a' => Copies base source.pgTable (before.map (· / 4096))
      a.space a'.space ∧ a'.vm.areaList = a.vm.areaList ∧
      a'.vm.userSpaceSize = a.vm.userSpaceSize)
    (fun a' _ => CopyFailed base refused source.pgTable startPage endPage
      a.space a'.space ∧ a'.vm.areaList = a.vm.areaList ∧
      a'.vm.userSpaceSize = a.vm.userSpaceSize)
    ?_ ⟨Copies.refl hs, rfl, rfl⟩ hrun
  · obtain ⟨b, result⟩ := out
    cases result with
    | ok =>
      rw [Outcome, hpages] at hloop
      exact hloop
    | error err => exact hloop
  intro before va after b out' hsplit hinv hbody
  obtain ⟨done, rest, hvisited, rfl, hrest⟩ := map_eq_append_iff.mp hsplit
  obtain ⟨v, later, rfl, rfl, rfl⟩ := map_eq_cons_iff.mp hrest
  rw [hpages] at hinv
  obtain ⟨hcopied, hlist, hsize⟩ := hinv
  have hmem : v ∈ visited source.pgTable startPage endPage := by
    rw [visited, hvisited]
    simp
  obtain ⟨hrange, hmapped⟩ := mem_visited.mp hmem
  have huser : UserPage v := ⟨by omega, by omega⟩
  obtain ⟨e, he⟩ := Option.isSome_iff_exists.mp hmapped
  have hentry := (lookup_eq_some.mp he).2
  have hframe := hs.mem_issued (hsource.frames v e huser he)
  rw [key_zero_page, hentry] at hbody
  cases hmap : vmapPage src refused (v * 4096) e.perm b.space with
  | none => simp [hmap] at hbody
  | some mapped =>
    obtain ⟨s₁, outcome⟩ := mapped
    simp only [hmap] at hbody
    rcases vmapPage_spec hcopied.owns huser hmap with
      ⟨addr, rfl, hmaps, e', he', rfl⟩ | ⟨err, rfl, hmaps, hblocked⟩
    · cases hbody
      have hnew : e'.physicalAddr ∈ s₁.heap.issued := by
        rw [← count_pos_iff, hmaps.owns.count]
        have hpos := refersTo_le_held huser.page_key he'
        omega
      have hpage := Copies.ofPage he hmaps he' (hcopied.issued _ hframe) hnew
      refine ⟨?_, hlist, hsize⟩
      rw [map_append, hpages]
      simp only [map_cons, map_nil, Nat.mul_div_cancel v (by decide : 0 < 4096)]
      apply hcopied.trans hpage
      intro u e₁ hu he₁
      rw [mem_singleton.mp hu, he] at he₁
      cases he₁
      exact hframe
    · cases hbody
      refine ⟨⟨done, v, later, b.space, s₁, hvisited, hcopied, hblocked, ?_, rfl⟩, hlist, hsize⟩
      have hboth := hcopied.trans (Copies.ofTables hmaps) (by simp)
      rwa [append_nil] at hboth

/-- The page allocator turns down a request that the copy makes when it gets
to page `v`: the page, its table, or the table above if `v` is the first page
copied below it. -/
def StopsCopy (refused : Refusals) (t : PageTable) (startPage v : Nat) : Prop :=
  refused 0 v = true ∨ refused 1 (v / 512) = true ∨ (refused 2 (v / 512 ^ 2) = true ∧
      ∀ u ∈ interval startPage v, t.mapped u = true → u / 512 ^ 2 ≠ v / 512 ^ 2)

/-- The copy of a range is not stopped at the first page of a table right
after pages that it has copied into the table before. -/
def CopyClean (refused : Refusals) (t : PageTable) (startPage endPage : Nat) : Prop :=
  ∀ v ∈ visited t startPage endPage, 512 ∣ v → StopsCopy refused t startPage v →
    ∀ u ∈ interval (max startPage (v - lastChunk v)) v, t.mapped u = false

lemma visited_split {t : PageTable} {before after : List Nat} {v : Nat}
    (h : visited t startPage endPage = before ++ v :: after) : v ∈ visited t startPage endPage ∧
    ∀ u, u ∈ before ↔ startPage ≤ u ∧ u < v ∧ t.mapped u = true := by
  have hsorted := (interval_pairwise startPage (endPage - lastChunk endPage)).filter t.mapped
  rw [← visited, h] at hsorted
  obtain ⟨-, htail, hcross⟩ := pairwise_append.mp hsorted
  have hv : v ∈ visited t startPage endPage := by simp [h]
  have hrange := (mem_visited.mp hv).1
  refine ⟨hv, fun u => ⟨fun hu => ?_, fun hu => ?_⟩⟩
  · have hmem : u ∈ visited t startPage endPage := by simp [h, hu]
    obtain ⟨hlo, hmapped⟩ := mem_visited.mp hmem
    exact ⟨hlo.1, hcross u hu v (mem_cons_self ..), hmapped⟩
  have hmem : u ∈ visited t startPage endPage := mem_visited.mpr ⟨⟨hu.1, by omega⟩, hu.2.2⟩
  rw [h] at hmem
  rcases mem_append.mp hmem with hbefore | hlater
  · exact hbefore
  rcases mem_cons.mp hlater with rfl | hlater
  · omega
  · have hgt := (pairwise_cons.mp htail).1 u hlater
    omega

lemma CopyFailed.stopsCopy {t : PageTable} {s s₁ : Space} {before after : List Nat} {v : Nat}
    (hsplit : visited t startPage endPage = before ++ v :: after)
    (hcopied : Copies base t before s s₁)
    (hempty : ∀ u, startPage ≤ u → u < endPage → s.table.lookup 0 u = none)
    (hblocked : Blocked refused s₁.table v) : StopsCopy refused t startPage v := by
  obtain ⟨hv, hbefore⟩ := visited_split hsplit
  have hrange := (mem_visited.mp hv).1
  rcases hblocked with hmapped | hrefused | ⟨level, hpos, hlt, hnone, hrefused⟩
  · have hnot : v ∉ before := fun hin => by
      have hlt := ((hbefore v).mp hin).2.1
      omega
    rw [hcopied.other v hnot, hempty v hrange.1 (by omega)] at hmapped
    exact absurd rfl hmapped
  · exact .inl hrefused
  obtain rfl | rfl : level = 1 ∨ level = 2 := by omega
  · rw [Nat.pow_one] at hrefused
    exact .inr (.inl hrefused)
  · refine .inr (.inr ⟨hrefused, ?_⟩)
    intro u hu hmapped heq
    -- an earlier page below the same table would have brought the table
    rw [mem_interval] at hu
    obtain ⟨-, _, e', -, he', -⟩ := hcopied.page u ((hbefore u).mpr ⟨hu.1, hu.2, hmapped⟩)
    rw [← heq] at hnone
    have hunmapped := hcopied.owns.wf.mapped_eq_false le_rfl hnone
    simp [mapped, he'] at hunmapped

lemma CopyFailed.fewer {t : PageTable} {s s' : Space}
    (h : CopyFailed base refused t startPage endPage s s')
    (hclean : CopyClean refused t startPage endPage)
    (hkernel : kernelPages ≤ startPage) (hlimit : endPage < 134217728)
    (hempty : ∀ v, startPage ≤ v → v < endPage → s.table.lookup 0 v = none) :
    Owns base s' ∧ ∀ v, s'.table.lookup 0 v ≠ none → s.table.lookup 0 v ≠ none := by
  obtain ⟨before, v, after, s₁, s₂, hsplit, hcopied, hblocked, hcopied', rfl⟩ := h
  obtain ⟨hv, hbefore⟩ := visited_split hsplit
  have hrange := (mem_visited.mp hv).1
  have hstops := CopyFailed.stopsCopy hsplit hcopied hempty hblocked
  have hunmaps := vunmap_spec hcopied'.owns hkernel hrange.1 (by omega)
  refine ⟨hunmaps.owns, fun u hmapped => ?_⟩
  by_cases hgone : startPage ≤ u ∧ u < v - lastChunk v
  · exact absurd (hunmaps.page u hgone) hmapped
  rw [hunmaps.other u hgone] at hmapped
  by_cases hin : u ∈ before
  · -- a page copied by this call that the rollback misses
    obtain ⟨hlo, hhi, hsource⟩ := (hbefore u).mp hin
    have hdvd : 512 ∣ v := by
      by_contra hnot
      rw [lastChunk_eq_zero hnot] at hgone
      omega
    have hnone := hclean v hv hdvd hstops u (by rw [mem_interval]; omega)
    simp [hnone] at hsource
  · rwa [hcopied'.other u hin] at hmapped

def VMInner.copied (vm : VMInner) : List Nat :=
  (vm.areaList.flatMap fun area => visited vm.pgTable area.startPage area.endPage) ++
  visited vm.pgTable userBasePage vm.userEndPage

/-- What the copy of an address space needs to fail without a trace. -/
def CopiesClean (refused : Refusals) (vm : VMInner) : Prop :=
  (∀ area ∈ vm.areaList, CopyClean refused vm.pgTable area.startPage area.endPage) ∧
  CopyClean refused vm.pgTable userBasePage vm.userEndPage

lemma not_pages_of_not_overlaps {x y : VmArea} (h : y.overlaps x = false)
    {v : Nat} (hx : x.Pages v) : ¬ y.Pages v := by
  intro hy
  rw [VmArea.overlaps, decide_eq_false_iff_not] at h
  apply h
  have hxva := x.va.val_eq
  have hyva := y.va.val_eq
  have hxsize := x.size.val_eq
  have hysize := y.size.val_eq
  simp only [VmArea.Pages, VmArea.startPage, VmArea.endPage, VmArea.startVa, VmArea.endVa] at *
  omega

/-- The state of the copy after the segments `before`. -/
structure SegmentsCopied (base : Nat → Nat) (source : VMInner)
    (before : List VmArea) (s : Space) (a : AddrSpace) : Prop where
  copies : Copies base source.pgTable (before.flatMap fun area =>
      visited source.pgTable area.startPage area.endPage) s a.space
  list : a.vm.areaList = before
  size : a.vm.userSpaceSize = 0

lemma visited_pages {t : PageTable} {area : VmArea} {v : Nat}
    (h : v ∈ visited t area.startPage area.endPage) : area.Pages v := by
  obtain ⟨⟨hlo, hhi⟩, -⟩ := mem_visited.mp h
  exact ⟨hlo, by omega⟩

lemma userPage_of_pages {area : VmArea} {v : Nat}
    (harea : segmentAllowed area.va area.size = true) (h : area.Pages v) : UserPage v := by
  obtain ⟨hkernel, -, hend⟩ := segmentAllowed_bounds harea
  obtain ⟨hlo, hhi⟩ := h
  rw [userBasePage] at hend
  exact ⟨by omega, by omega⟩

lemma SegmentsCopied.sound {before after : List VmArea} {s : Space}
    (h : SegmentsCopied base source before s a) (hno : NoUserPages s) (hok : SegmentsOk source)
    (hsplit : source.areaList = before ++ after) : Sound base a := by
  have hsub : before.Sublist source.areaList := by
    rw [hsplit]
    exact sublist_append_left ..
  refine ⟨⟨h.copies.owns, ?_, ?_, ?_⟩, ?_⟩
  · rw [h.list]
    exact fun area harea => hok.areas area (hsub.subset harea)
  · rw [h.list]
    exact hok.disjoint.sublist hsub
  · rw [h.size]
    exact Nat.zero_le _
  intro v huser hmapped
  by_cases hdone : v ∈ before.flatMap fun area => visited source.pgTable area.startPage area.endPage
  · obtain ⟨area, harea, hv⟩ := mem_flatMap.mp hdone
    exact .inl ⟨area, h.list ▸ harea, visited_pages hv⟩
  have hsame := h.copies.other v hdone
  rw [hno v huser] at hsame
  exact absurd hsame hmapped

lemma copySegments_spec {s : Space} (hs : Owns base s) (hno : NoUserPages s)
    (hsource : IsSource base source.pgTable) (hok : SegmentsOk source) (hspace : a.space = s)
    (hlist : a.vm.areaList = []) (hsize : a.vm.userSpaceSize = 0)
    {out : AddrSpace × Except SysError Unit}
    (hrun : tryEach (copySegment src refused source) source.areaList a = some out) :
    Outcome (SegmentsCopied base source source.areaList s) (fun a' _ => (∀ area ∈ source.areaList,
        CopyClean refused source.pgTable area.startPage area.endPage) →
        Sound base a') out := by
  apply tryEach_outcome (SegmentsCopied base source · s) _ ?_
    ⟨by rw [hspace]; exact Copies.refl hs, hlist, hsize⟩ hrun
  intro before area after b out' hsplit hinv hbody
  have harea : area ∈ source.areaList := by simp [hsplit]
  have hallowed := hok.areas area harea
  obtain ⟨hkernel, hle, hend⟩ := segmentAllowed_bounds hallowed
  rw [userBasePage] at hend
  have hbSound := hinv.sound hno hok hsplit
  rw [copySegment] at hbody
  cases hcopy : copyContentFrom src refused area.va.val area.size.val source b with
  | none => simp [hcopy] at hbody
  | some copied =>
    obtain ⟨hspec, hlist, hsize⟩ := copyContentFrom_spec hinv.copies.owns
      hsource hkernel hle (by omega) (by
        rw [← area.size_val, VmArea.startPage, ← area.va.val_eq]
        exact hcopy)
    obtain ⟨c, outcome⟩ := copied
    cases outcome with
    | error err =>
      simp only [hcopy] at hbody
      cases hbody
      intro hclean
      obtain ⟨howns, hfewer⟩ := CopyFailed.fewer hspec (hclean area harea) hkernel (by omega) (by
          intro v hlo hhi
          have hnot : v ∉ before.flatMap fun area =>
              visited source.pgTable area.startPage area.endPage := by
            intro hdone
            obtain ⟨x, hx, hv⟩ := mem_flatMap.mp hdone
            have hpairs := hok.disjoint
            rw [hsplit] at hpairs
            exact not_pages_of_not_overlaps ((pairwise_append.mp hpairs).2.2 x hx area
                (mem_cons_self ..)) (visited_pages hv) ⟨hlo, hhi⟩
          rw [hinv.copies.other v hnot]
          exact hno v (userPage_of_pages hallowed ⟨hlo, hhi⟩))
      exact ⟨hbSound.toHeld.of_fewer howns hlist hsize, hbSound.covered.of_fewer hlist hsize hfewer⟩
    | ok =>
      simp only [hcopy] at hbody
      split at hbody
      · cases hbody
      rename_i list hadd
      cases hbody
      refine ⟨?_, ?_, hsize.trans hinv.size⟩
      · rw [flatMap_append, flatMap_cons, flatMap_nil, append_nil]
        apply hinv.copies.trans hspec
        intro v e hv he
        exact hs.mem_issued (hsource.frames v e (userPage_of_pages hallowed (visited_pages hv)) he)
      rw [addArea, hlist, hinv.list] at hadd
      split at hadd
      · cases hadd
      · cases hadd
        rfl

/-- What a successful copy has done, from the emptied address space on. -/
structure CopiedAll (base : Nat → Nat) (source : VMInner) (a a' : AddrSpace) :
    Prop where
  copies : ∃ s, Unmaps base a.vm.Covers a.space s ∧ NoUserPages s ∧
    Copies base source.pgTable source.copied s a'.space
  sound : Sound base a'

lemma userEnd_val (vm : VMInner) : (pgRoundUp vm.userSpaceSize).val =
    vm.userEndPage * 4096 - userBasePage * 4096 := by
  rw [VMInner.userEndPage, (pgRoundUp vm.userSpaceSize).val_eq, Nat.add_mul,
    Nat.add_sub_cancel_left]

lemma copyUserSpace_spec {s : Space} {c : AddrSpace} (hs : Owns base s) (hno : NoUserPages s)
    (hsource : IsSource base source.pgTable) (hok : SegmentsOk source)
    (hsegs : SegmentsCopied base source source.areaList s c)
    {out : AddrSpace × Except SysError Unit}
    (hrun : copyContentFrom src refused userBaseVaddr
      (pgRoundUp source.userSpaceSize).val source c = some out) :
    Outcome (fun d => Copies base source.pgTable source.copied s d.space ∧
        Sound base (d.setSize source.userSpaceSize))
      (fun d _ => CopyClean refused source.pgTable userBasePage
        source.userEndPage → Sound base d) out := by
  have hcSound := hsegs.sound hno hok (append_nil _).symm
  have hend : source.userEndPage ≤ 6553600 := userEndPage_le hok.size
  have hkernel : kernelPages ≤ userBasePage := by simp [kernelPages, userBasePage]
  have hle : userBasePage ≤ source.userEndPage := Nat.le_add_right ..
  have hbase : userBaseVaddr = userBasePage * 4096 := rfl
  rw [userEnd_val, hbase] at hrun
  obtain ⟨hspec, hlist, hsize⟩ := copyContentFrom_spec hsegs.copies.owns
    hsource hkernel hle (by omega) hrun
  have huser : ∀ v, userBasePage ≤ v → v < source.userEndPage → UserPage v :=
    fun v hlo hhi => ⟨by omega, by omega⟩
  have hbelow : ∀ v, userBasePage ≤ v → v ∉ source.areaList.flatMap fun area =>
        visited source.pgTable area.startPage area.endPage := by
    intro v hlo hdone
    obtain ⟨area, harea, hv⟩ := mem_flatMap.mp hdone
    have hpages := visited_pages hv
    have hbounds := segmentAllowed_bounds (hok.areas area harea)
    rw [VmArea.Pages] at hpages
    omega
  obtain ⟨d, outcome⟩ := out
  cases outcome with
  | error err =>
    intro hclean
    obtain ⟨howns, hfewer⟩ := CopyFailed.fewer hspec hclean hkernel (by omega) (by
        intro v hlo hhi
        rw [hsegs.copies.other v (hbelow v hlo)]
        exact hno v (huser v hlo hhi))
    exact ⟨hcSound.toHeld.of_fewer howns hlist hsize, hcSound.covered.of_fewer hlist hsize hfewer⟩
  | ok =>
    have hall : Copies base source.pgTable source.copied s d.space := by
      apply hsegs.copies.trans hspec
      intro v e hv he
      obtain ⟨⟨hlo, hhi⟩, -⟩ := mem_visited.mp hv
      exact hs.mem_issued (hsource.frames v e (huser v hlo (by omega)) he)
    refine ⟨hall, ⟨hall.owns, ?_, ?_, hok.size⟩, ?_⟩
    · rw [AddrSpace.setSize, hlist, hsegs.list]
      exact hok.areas
    · rw [AddrSpace.setSize, hlist, hsegs.list]
      exact hok.disjoint
    intro v hv hmapped
    by_cases hcopied : v ∈ source.copied
    · rcases mem_append.mp hcopied with hseg | hspace
      · obtain ⟨area, harea, hv⟩ := mem_flatMap.mp hseg
        refine .inl ⟨area, ?_, visited_pages hv⟩
        rwa [AddrSpace.setSize, hlist, hsegs.list]
      · obtain ⟨⟨hlo, hhi⟩, -⟩ := mem_visited.mp hspace
        exact .inr ⟨hlo, by
          rw [AddrSpace.setSize]
          exact hhi.trans_le (Nat.sub_le _ _)⟩
    have hsame := hall.other v hcopied
    rw [hno v hv] at hsame
    exact absurd hsame hmapped

lemma copyUserContentFrom_spec (h : Sound base a) (hclean : UnmapsEverything a.vm)
    (hsource : IsSource base source.pgTable) (hok : SegmentsOk source)
    {out : AddrSpace × Except SysError Unit}
    (hrun : copyUserContentFrom src refused source a = some out) : Outcome (CopiedAll base source a)
    (fun a' _ => CopiesClean refused source → Sound base a') out := by
  rw [copyUserContentFrom] at hrun
  cases hempty : uvalloc src refused 0 .empty false (deallocAllSegments a) with
  | none => simp [hempty] at hrun
  | some emptied =>
    obtain ⟨b, outcome⟩ := emptied
    obtain ⟨rfl, hunmaps, hlist, hsize⟩ := uvalloc_zero_spec h.toHeld hclean hempty
    have hno := h.covered.noUserPages hunmaps
    simp only [hempty] at hrun
    cases hsegs : tryEach (copySegment src refused source) source.areaList b with
    | none => simp [hsegs] at hrun
    | some segs =>
      have hsegsSpec := copySegments_spec hunmaps.owns hno hsource hok rfl hlist hsize hsegs
      obtain ⟨c, outcome⟩ := segs
      cases outcome with
      | error err =>
        simp only [hsegs] at hrun
        cases hrun
        exact fun hcopies => hsegsSpec hcopies.1
      | ok =>
        simp only [hsegs] at hrun
        cases hspace : copyContentFrom src refused userBaseVaddr
            (pgRoundUp source.userSpaceSize).val source c with
        | none => simp [hspace] at hrun
        | some copied =>
          have hspaceSpec := copyUserSpace_spec hunmaps.owns hno hsource hok hsegsSpec hspace
          obtain ⟨d, outcome⟩ := copied
          cases outcome with
          | error err =>
            simp only [hspace] at hrun
            cases hrun
            exact fun hcopies => hspaceSpec hcopies.2
          | ok =>
            simp only [hspace] at hrun
            cases hrun
            exact ⟨⟨b.space, hunmaps, hno, hspaceSpec.1⟩, hspaceSpec.2⟩

end
end Redwing.Vm
