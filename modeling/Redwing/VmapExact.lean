/-
`vmap` over any part of the address space, the kernel's included: the pages it
takes from the page allocator, the pages it maps, and when it maps its whole
range.
-/
import Redwing.VmapTotal
import Redwing.VmSystem

namespace Redwing.Vm

open Walks List

/-- From `h` to `h'` the pages `news` were obtained, each of them zeroed and
handed out once. -/
structure Takes (h h' : Heap) (news : List Nat) : Prop where
  nodup : news.Nodup
  fresh : ∀ p ∈ news, p ∉ h.issued
  issued : h'.issued.Perm (news ++ h.issued)
  mem : ∀ p, p ∈ h.issued → h'.mem p = h.mem p
  zero : ∀ p ∈ news, h'.mem p = fun _ => 0
  badFree : h'.badFree = h.badFree

namespace Takes

variable {h h' h'' : Heap} {news news' : List Nat}

lemma refl (h : Heap) : Takes h h [] :=
  ⟨nodup_nil, by simp, .refl _, fun _ _ => rfl, by simp, rfl⟩

lemma mem_issued (ht : Takes h h' news) : p ∈ h'.issued ↔ p ∈ news ∨ p ∈ h.issued := by
  rw [ht.issued.mem_iff, mem_append]

lemma trans (ht : Takes h h' news) (ht' : Takes h' h'' news') : Takes h h'' (news' ++ news) where
  nodup := ht'.nodup.append ht.nodup fun p hp hp' => ht'.fresh p hp (ht.mem_issued.mpr (.inl hp'))
  fresh p hp hold := by
    rcases mem_append.mp hp with hp | hp
    · exact ht'.fresh p hp (ht.mem_issued.mpr (.inr hold))
    · exact ht.fresh p hp hold
  issued := by
    rw [append_assoc]
    exact ht'.issued.trans (ht.issued.append_left news')
  mem p hp := (ht'.mem p (ht.mem_issued.mpr (.inr hp))).trans (ht.mem p hp)
  zero p hp := by
    rcases mem_append.mp hp with hp | hp
    · exact ht'.zero p hp
    · rw [ht'.mem p (ht.mem_issued.mpr (.inl hp)), ht.zero p hp]
  badFree := ht'.badFree.trans ht.badFree

lemma perm (ht : Takes h h' news) (hperm : news.Perm news') : Takes h h' news' where
  nodup := hperm.nodup_iff.mp ht.nodup
  fresh p hp := ht.fresh p (hperm.mem_iff.mpr hp)
  issued := ht.issued.trans (hperm.append_right _)
  mem := ht.mem
  zero p hp := ht.zero p (hperm.mem_iff.mpr hp)
  badFree := ht.badFree

lemma alloc {src : PageSource} {refused : Bool} {page : Nat}
    (halloc : h.allocZeroedPage src refused = some (page, h')) : Takes h h' [page] := by
  have hfresh := (Heap.allocZeroedPage_fresh halloc).1
  refine ⟨nodup_singleton page, by simpa using hfresh, ?_,
    fun p hp => (Heap.allocZeroedPage_issued halloc hp).2, ?_, ?_⟩
  · obtain ⟨-, -, rfl⟩ := Heap.allocZeroedPage_eq_some halloc
    exact .refl _
  · obtain ⟨-, -, rfl⟩ := Heap.allocZeroedPage_eq_some halloc
    intro p hp
    obtain rfl := mem_singleton.mp hp
    exact Function.update_self ..
  · obtain ⟨-, -, rfl⟩ := Heap.allocZeroedPage_eq_some halloc
    rfl

lemma free {page : Nat} (ht : Takes h h' (page :: news)) : Takes h (h'.freePage page) news := by
  have hissued : page ∈ h'.issued := ht.mem_issued.mpr (.inl (mem_cons_self ..))
  rw [Heap.freePage, if_pos hissued]
  refine ⟨(nodup_cons.mp ht.nodup).2, fun p hp => ht.fresh p (mem_cons_of_mem _ hp), ?_, ht.mem,
    fun p hp => ht.zero p (mem_cons_of_mem _ hp), ht.badFree⟩
  have herase := ht.issued.erase page
  rwa [cons_append, erase_cons_head] at herase

end Takes

def framesIn (t : PageTable) (lo hi : Nat) : List Nat :=
  (interval lo hi).filterMap fun v => (t.lookup 0 v).map Pte.physicalAddr

lemma framesIn_congr (h : ∀ v, lo ≤ v → v < hi → t'.lookup 0 v = t.lookup 0 v) :
    framesIn t' lo hi = framesIn t lo hi := by
  apply filterMap_congr
  intro v hv
  rw [mem_interval] at hv
  rw [h v hv.1 hv.2]

lemma framesIn_append (t : PageTable) (hlo : lo ≤ mid) (hhi : mid ≤ hi) :
    framesIn t lo hi = framesIn t lo mid ++ framesIn t mid hi := by
  rw [framesIn, ← interval_append hlo hhi, filterMap_append]
  rfl

lemma framesIn_eq_nil (t : PageTable) (h : hi ≤ lo) : framesIn t lo hi = [] := by
  rw [framesIn, interval_eq_nil h]
  rfl

def NewTable (t t' : PageTable) (p : Nat) : Prop :=
  ∃ l k e, 0 < l ∧ l < 3 ∧ t.lookup l k = none ∧ t'.lookup l k = some e ∧ e.physicalAddr = p

/-- From `s` to `s'` the pages from `lo` up to `hi`, none of them mapped
before, were mapped with `perm` to the pages that were obtained and are not
new tables; everything else that was there stayed. -/
structure Fills (refused : Refusals) (perm : EntryPerm) (lo hi : Nat)
    (s s' : Space) : Prop where
  page : ∀ v, lo ≤ v → v < hi → s.table.lookup 0 v = none ∧ refused 0 v = false ∧
      ∃ e, s'.table.lookup 0 v = some e ∧ e.perm = perm
  other : ∀ v, ¬ (lo ≤ v ∧ v < hi) → s'.table.lookup 0 v = s.table.lookup 0 v
  table : ∀ l k e, 0 < l → s.table.lookup l k = some e → s'.table.lookup l k = some e
  newTable : ∀ l k, 0 < l → s.table.lookup l k = none →
    s'.table.lookup l k ≠ none → refused l k = false
  wf : s'.table.Wf
  taken : ∃ tables, (∀ p ∈ tables, NewTable s.table s'.table p) ∧
    Takes s.heap s'.heap (tables ++ framesIn s'.table lo hi)

namespace Fills

variable {perm : EntryPerm} {s s' s'' : Space}

lemma refl (hwf : s.table.Wf) (hle : hi ≤ lo) : Fills refused perm lo hi s s where
  page := fun v hlo hhi => by omega
  other := fun _ _ => rfl
  table := fun _ _ _ _ h => h
  newTable := fun _ _ _ hnone hsome => absurd hnone hsome
  wf := hwf
  taken := ⟨[], by simp, by
    rw [framesIn_eq_nil _ hle]
    exact .refl _⟩

lemma newTables (h : Fills refused perm lo mid s s') (h' : Fills refused perm mid hi s' s'')
    (hp : NewTable s'.table s''.table p ∨ NewTable s.table s'.table p) :
    NewTable s.table s''.table p := by
  rcases hp with ⟨l, k, e, hpos, hlt, hnone, he, rfl⟩ | ⟨l, k, e, hpos, hlt, hnone, he, rfl⟩
  · refine ⟨l, k, e, hpos, hlt, ?_, he, rfl⟩
    cases hold : s.table.lookup l k with
    | none => rfl
    | some e' =>
      rw [h.table l k e' hpos hold] at hnone
      cases hnone
  · exact ⟨l, k, e, hpos, hlt, hnone, h'.table l k e hpos he, rfl⟩

lemma trans (h : Fills refused perm lo mid s s') (h' : Fills refused perm mid hi s' s'')
    (hlo : lo ≤ mid) (hhi : mid ≤ hi) : Fills refused perm lo hi s s'' where
  page := by
    intro v hvlo hvhi
    by_cases hv : v < mid
    · obtain ⟨hfree, hgranted, e, he, hperm⟩ := h.page v hvlo hv
      exact ⟨hfree, hgranted, e, (h'.other v (by omega)).trans he, hperm⟩
    obtain ⟨hfree, hgranted, hmapped⟩ := h'.page v (by omega) hvhi
    rw [h.other v (by omega)] at hfree
    exact ⟨hfree, hgranted, hmapped⟩
  other := by
    intro v hv
    rw [h'.other v (by omega), h.other v (by omega)]
  table := fun l k e hl he => h'.table l k e hl (h.table l k e hl he)
  newTable := by
    intro l k hl hnone hsome
    by_cases hmid : s'.table.lookup l k = none
    · exact h'.newTable l k hl hmid hsome
    · exact h.newTable l k hl hnone hmid
  wf := h'.wf
  taken := by
    obtain ⟨tables, htables, htaken⟩ := h.taken
    obtain ⟨tables', htables', htaken'⟩ := h'.taken
    refine ⟨tables' ++ tables, fun p hp => h.newTables h' ?_, ?_⟩
    · exact (mem_append.mp hp).imp (htables' p) (htables p)
    have hkept : framesIn s''.table lo mid = framesIn s'.table lo mid :=
      framesIn_congr fun v _ hv => h'.other v (by omega)
    apply (htaken.trans htaken').perm
    rw [framesIn_append _ hlo hhi, hkept, perm_iff_count]
    intro p
    simp only [count_append]
    omega

lemma cast (h : Fills refused perm lo hi s s') (hempty : hi ≤ lo) (hempty' : hi' ≤ lo') :
    Fills refused perm lo' hi' s s' where
  page := fun v hlo hhi => by omega
  other := fun v _ => h.other v (by omega)
  table := h.table
  newTable := h.newTable
  wf := h.wf
  taken := by
    obtain ⟨tables, htables, htaken⟩ := h.taken
    rw [framesIn_eq_nil _ hempty] at htaken
    exact ⟨tables, htables, by rwa [framesIn_eq_nil _ hempty']⟩

lemma addTable (hwf : s.table.Wf) (hpos : 0 < level) (hlevel : level < 3)
    (hparent : level < 2 → s.table.lookup (level + 1) (k / 512) ≠ none)
    (hnone : s.table.lookup level k = none)
    (halloc : s.heap.allocZeroedPage src (refused level k) = some (addr, heap))
    (hhere : (s.table.linkTable level k addr).lookup level k = some (.makePde addr))
    (hother : ∀ l j, (l, j) ≠ (level, k) →
      (s.table.linkTable level k addr).lookup l j = s.table.lookup l j) :
    Fills refused perm lo lo s
      { table := s.table.linkTable level k addr, heap } where
  page := fun v hlo hhi => by omega
  other := fun v _ => hother 0 v (by simp; omega)
  table := by
    intro l j e _ he
    by_cases heq : (l, j) = (level, k)
    · cases heq
      simp [hnone] at he
    · exact (hother l j heq).trans he
  newTable := by
    intro l j _ hold hnew
    by_cases heq : (l, j) = (level, k)
    · cases heq
      exact (Heap.allocZeroedPage_eq_some halloc).1
    · exact absurd ((hother l j heq).trans hold) hnew
  wf := hwf.insert hother hparent (by simp [hhere])
  taken := by
    have haddr : (Pte.makePde addr).physicalAddr = addr := (Heap.allocZeroedPage_fresh halloc).2.1
    refine ⟨[addr], ?_, ?_⟩
    · intro p hp
      obtain rfl := mem_singleton.mp hp
      exact ⟨level, k, _, hpos, hlevel, hnone, hhere, haddr⟩
    · rw [framesIn_eq_nil _ le_rfl]
      exact .alloc halloc

lemma addPage {page addr : Nat} {heap : Heap} {e : Pte} (hwf : s.table.Wf)
    (hparent : s.table.lookup 1 (page / 512) ≠ none) (hnone : s.table.lookup 0 page = none)
    (halloc : s.heap.allocZeroedPage src (refused 0 page) = some (addr, heap))
    (hvalid : e.isValid = true) (hperm : e.perm = perm) (haddr : e.physicalAddr = addr) :
    Fills refused perm page (page + 1) s
      { table := s.table.setEntry 0 page e, heap } := by
  have hhere : (s.table.setEntry 0 page e).lookup 0 page = some e := by
    rw [PageTable.lookup_setEntry, if_pos ⟨rfl, rfl⟩, if_pos hvalid]
  have hother : ∀ l j, (l, j) ≠ (0, page) →
      (s.table.setEntry 0 page e).lookup l j = s.table.lookup l j := by
    intro l j hne
    rw [PageTable.lookup_setEntry, if_neg (by simpa using hne)]
  refine ⟨?_, ?_, ?_, ?_, hwf.insert hother (fun _ => hparent) (by simp [hhere]), [], by simp, ?_⟩
  · intro v hlo hhi
    obtain rfl : v = page := by omega
    exact ⟨hnone, (Heap.allocZeroedPage_eq_some halloc).1, e, hhere, hperm⟩
  · intro v hv
    exact hother 0 v (by simp; omega)
  · intro l k e' hl he'
    exact (hother l k (by simp; omega)).trans he'
  · intro l k hl hold hnew
    exact absurd ((hother l k (by simp; omega)).trans hold) hnew
  have hframes : framesIn (s.table.setEntry 0 page e) page (page + 1) = [addr] := by
    rw [framesIn, interval_cons (Nat.lt_succ_self page),
      interval_eq_nil le_rfl, filterMap_cons, hhere, ← haddr]
    rfl
  rw [hframes]
  exact .alloc halloc

lemma walkRules (src : PageSource) (refused : Refusals) (hperm : perm.valid = true) :
    WalkRules src refused perm (fun s => s.table.Wf) (fun _ => True) (Fills refused perm) where
  refl := .refl
  trans := .trans
  cast := .cast
  inv := wf
  other h hv := h.other _ hv
  table h hl he := h.table _ _ _ hl he
  ensure := by
    intro s va first level hwf _ hpos hlevel _ hparent
    have hensured := ensureTable_ensured src refused va hwf hlevel
    generalize ensureTable src refused level va s = out at hensured ⊢
    cases hensured with
    | refused hnone hrefused => exact ⟨hnone, hrefused⟩
    | present hhere => exact ⟨.refl hwf le_rfl, hhere⟩
    | added hnone halloc hhere hother =>
      exact ⟨.addTable hwf hpos hlevel hparent hnone halloc hhere hother,
        by simp [hhere]⟩
  entry := by
    intro s page out hwf _ hparent hrun
    cases vmapEntry_mapped hrun with
    | stopped hwhy => exact ⟨rfl, hwhy⟩
    | mapped hnone halloc hperm' haddr =>
      exact .addPage hwf hparent hnone halloc (by rw [Pte.isValid, hperm', hperm]) hperm' haddr

lemma not_blocked (h : Fills refused perm lo hi s s')
    (hlo : lo ≤ v) (hhi : v < hi) : ¬ Blocked refused s.table v := by
  obtain ⟨hfree, hgranted, e, he, -⟩ := h.page v hlo hhi
  exact not_blocked_of_mapped h.wf hfree hgranted he h.newTable

end Fills

section

variable {perm : EntryPerm} {endPage : Nat} {s s' : Space}

lemma vmap_fills (hwf : s.table.Wf) (hidxs : Indexes startPage endPage startVa (startVa + size))
    (hle : startPage ≤ endPage) (hlimit : endPage < 134217728)
    (hrun : vmap src refused startVa size perm s = some out) :
    Outcome (Fills refused (perm.union .onlyValid) startPage (endPage - lastChunk endPage) s)
      (fun s' _ => ∃ t brkAddr, StoppedBy (Fills refused (perm.union .onlyValid)) refused startPage
          endPage startVa startPage s t brkAddr ∧
        startVa ≤ brkAddr ∧ s' = vunmap startVa (brkAddr - startVa) t) out := by
  have hvalid := perm.valid_union_onlyValid
  rw [vmap] at hrun
  cases hwalk : walkRangeMutRecursive src refused (vmapEntry src refused (perm.union .onlyValid))
      2 0 startVa (startVa + size) true true s with
  | none => simp [hwalk] at hrun
  | some walked =>
    have hspec := walkRange_by (Fills.walkRules src refused hvalid) hidxs (fun _ _ _ => trivial)
      hlimit le_rfl (Meets.top hle hlimit) hwf (by omega) (by rw [zero_mul]; exact hwalk)
    rw [rangeHi_top hlimit] at hspec
    obtain ⟨t, result⟩ := walked
    cases result with
    | ok =>
      simp only [hwalk, Option.some.injEq] at hrun
      subst hrun
      exact hspec
    | error err =>
      obtain ⟨brkAddr, e⟩ := err
      simp only [hwalk] at hrun
      split at hrun
      · cases hrun
      rename_i hafter
      cases hrun
      exact ⟨t, brkAddr, hspec, Nat.le_of_not_lt hafter, rfl⟩

/-- What `vmap` is for: every page of the range is mapped with `perm` to a
zeroed page of its own that nobody held, and no other mapping changes. -/
structure MapsExactly (perm : EntryPerm) (lo hi : Nat) (s s' : Space) :
    Prop where
  page : ∀ v, lo ≤ v → v < hi → ∃ e, s'.table.lookup 0 v = some e ∧
    e.perm = perm ∧ e.physicalAddr ∉ s.heap.issued ∧
    s'.heap.mem e.physicalAddr = fun _ => 0
  own : ∀ v w e e', lo ≤ v → v < hi → lo ≤ w → w < hi → s'.table.lookup 0 v = some e →
    s'.table.lookup 0 w = some e' → e.physicalAddr = e'.physicalAddr → v = w
  other : ∀ v, ¬ (lo ≤ v ∧ v < hi) → s'.table.lookup 0 v = s.table.lookup 0 v

lemma mem_framesIn (hlo : lo ≤ v) (hhi : v < hi) (he : t.lookup 0 v = some e) :
    e.physicalAddr ∈ framesIn t lo hi :=
  mem_filterMap.mpr ⟨v, mem_interval.mpr ⟨hlo, hhi⟩, by rw [he]; rfl⟩

lemma framesIn_ne (hnodup : (framesIn t lo hi).Nodup) (hlo : lo ≤ v) (hlt : v < w)
    (hhi : w < hi) (he : t.lookup 0 v = some e) (he' : t.lookup 0 w = some e') :
    e.physicalAddr ≠ e'.physicalAddr := by
  rw [framesIn_append t (by omega : lo ≤ w) hhi.le, nodup_append] at hnodup
  exact hnodup.2.2 _ (mem_framesIn hlo hlt he) _ (mem_framesIn le_rfl hhi he')

lemma Fills.mapsExactly (h : Fills refused perm lo hi s s') : MapsExactly perm lo hi s s' where
  page := by
    intro v hlo hhi
    obtain ⟨-, -, e, he, hperm⟩ := h.page v hlo hhi
    obtain ⟨tables, -, htaken⟩ := h.taken
    have hmem := mem_append_right tables (mem_framesIn hlo hhi he)
    exact ⟨e, he, hperm, htaken.fresh _ hmem, htaken.zero _ hmem⟩
  own := by
    intro v w e e' hv hv' hw hw' he he' haddr
    obtain ⟨tables, -, htaken⟩ := h.taken
    have hnodup := (nodup_append.mp htaken.nodup).2.1
    rcases Nat.lt_trichotomy v w with hlt | heq | hlt
    · exact absurd haddr (framesIn_ne hnodup hv hlt hw' he he')
    · exact heq
    · exact absurd haddr.symm (framesIn_ne hnodup hw hlt hv' he' he)
  other := h.other

lemma vmap_empty (src : PageSource) (refused : Refusals) (perm : EntryPerm) (s : Space) {page : Nat}
    (hdvd : 512 ^ 2 ∣ page) : vmap src refused (page * 4096) 0 perm s = some (s, .ok ()) := by
  have hstop : endIdx 2 (page * 4096) true = startIdx 2 (page * 4096) true := by
    rw [endIdx, startIdx, if_pos rfl, if_pos rfl, upperBoundIndexForVa_page,
      if_pos (Nat.mod_eq_zero_of_dvd hdvd), indexForVa_page, add_zero]
  simp [vmap, walkRangeMutRecursive, hstop, interval_eq_nil le_rfl, tryEach]

/-- With memory for every request and no page of the range mapped, `vmap` maps
its range exactly if the range is empty or does not end with a table. -/
theorem vmap_mapsExactly_iff (src : PageSource) (refused : Refusals) (perm : EntryPerm)
    {s : Space} (hwf : s.table.Wf) {startPage size : Nat} (hlimit : startPage + size < 134217728)
    (hgrant : ∀ l k, refused l k = false)
    (hfree : ∀ v, startPage ≤ v → v < startPage + size → s.table.lookup 0 v = none) :
    (∃ s', vmap src refused (startPage * 4096) (size * 4096) perm s = some (s', .ok ()) ∧
      MapsExactly (perm.union .onlyValid) startPage (startPage + size) s s') ↔
    size = 0 ∨ ¬ 512 ∣ startPage + size := by
  have hsize : size * 4096 = (startPage + size) * 4096 - startPage * 4096 := by omega
  have hidxs : Indexes startPage (startPage + size) (startPage * 4096)
      (startPage * 4096 + size * 4096) := by
    rw [← add_mul]
    exact .refl _ _
  constructor
  · rintro ⟨s', hrun, hmaps⟩
    by_contra hnot
    obtain ⟨hpos, hdvd⟩ : size ≠ 0 ∧ 512 ∣ startPage + size := by simpa [not_or] using hnot
    -- the last page of the range is left out
    have hfills := vmap_fills hwf hidxs (Nat.le_add_right _ _) hlimit hrun
    have hchunk := le_lastChunk hdvd
    have hlast := hfills.other (startPage + size - 1) (by omega)
    obtain ⟨e, he, -⟩ := hmaps.page (startPage + size - 1) (by omega) (by omega)
    rw [hlast, hfree _ (by omega) (by omega)] at he
    cases he
  intro hcases
  obtain ⟨s', hrun⟩ : ∃ s', vmap src refused (startPage * 4096)
      (size * 4096) perm s = some (s', .ok ()) := by
    by_cases hempty : size = 0 ∧ 512 ^ 2 ∣ startPage
    · obtain ⟨rfl, hdvd⟩ := hempty
      exact ⟨s, vmap_empty src refused perm s hdvd⟩
    rw [hsize]
    have hgib : ¬ 512 ^ 2 ∣ startPage + size := by
      intro hdvd
      rcases hcases with rfl | hnot
      · exact hempty ⟨rfl, hdvd⟩
      · exact hnot ((Dvd.intro 512 rfl : 512 ∣ 512 ^ 2).trans hdvd)
    apply vmap_granted src perm hgrant (Nat.le_add_right _ _) hlimit ?_ hgib
    · intro v hlo hhi
      exact hfree v hlo (by omega)
    rintro ⟨hdvd, -, hlt⟩
    rcases hcases with rfl | hnot
    · omega
    · exact hnot hdvd
  have hfills := vmap_fills hwf hidxs (Nat.le_add_right _ _) hlimit hrun
  refine ⟨s', hrun, ?_⟩
  rcases hcases with rfl | hnot
  · exact (hfills.cast (Nat.sub_le _ _) le_rfl).mapsExactly
  · rw [lastChunk_eq_zero hnot, Nat.sub_zero] at hfills
    exact hfills.mapsExactly

def emptySpace : Space where
  table := { root := 4096, entry := fun _ _ => .zero }
  heap := { issued := [4096], clock := 1, mem := fun _ _ => 0, badFree := false }

lemma emptySpace_wf : emptySpace.table.Wf := fun _ _ _ _ => rfl

/-- Four pages over the border of two tables. -/
theorem vmap_mapsExactly_four_pages :
    ∃ s', vmap nextPage (fun _ _ => false) (510 * 4096) (4 * 4096) .withRw
        emptySpace = some (s', .ok ()) ∧
      MapsExactly (EntryPerm.withRw.union .onlyValid) 510 (510 + 4) emptySpace s' :=
  (vmap_mapsExactly_iff nextPage (fun _ _ => false) .withRw emptySpace_wf
    (by decide : 510 + 4 < 134217728) (fun _ _ => rfl) (fun _ _ _ => rfl)).mpr
    (.inr (by decide))

/-- The last page of a table: the slice of its entries panics. -/
theorem not_mapsExactly_last_page :
    ¬ ∃ s', vmap nextPage (fun _ _ => false) (511 * 4096) (1 * 4096) .withRw
        emptySpace = some (s', .ok ()) ∧
      MapsExactly (EntryPerm.withRw.union .onlyValid) 511 (511 + 1)
        emptySpace s' := by
  rintro ⟨s', hrun, -⟩
  have hpanic : vmap nextPage (fun _ _ => false) (511 * 4096) (1 * 4096)
      .withRw emptySpace = none := by
    apply Option.isNone_iff_eq_none.mp
    decide
  rw [hpanic] at hrun
  cases hrun

end
end Redwing.Vm
