/-
The rollback of `vmap`, for every range of pages: a range past the last virtual
address visits the entries that its addresses have in their 39 low bits.
-/
import Redwing.VmapExact

namespace Redwing.Vm

open Walks List

variable {endPage : Nat}

section

variable {t : PageTable}

lemma index_mod (page : Nat) (hlevel : level ≤ 2) :
    page % 134217728 / 512 ^ level % 512 = page / 512 ^ level % 512 := by
  obtain rfl | rfl | rfl : level = 0 ∨ level = 1 ∨ level = 2 := by omega
  · omega
  · omega
  · omega

lemma startIdx_mod (page : Nat) (hlevel : level ≤ 2) : startIdx level (page * 4096) isFirst =
    startIdx level (page % 134217728 * 4096) isFirst := by
  rw [startIdx, startIdx, indexForVa_page, indexForVa_page, index_mod page hlevel]

lemma endIdx_mod (page : Nat) (hlevel : level ≤ 2) : endIdx level (page * 4096) isLast =
    endIdx level (page % 134217728 * 4096) isLast := by
  have hlow : page % 134217728 % 512 ^ level = page % 512 ^ level :=
    Nat.mod_mod_of_dvd _ (Nat.pow_dvd_pow 512 (by omega : level ≤ 3))
  rw [endIdx, endIdx, upperBoundIndexForVa_page, upperBoundIndexForVa_page,
    index_mod page hlevel, hlow]

lemma Indexes.mod (startPage endPage : Nat) :
    Indexes (startPage % 134217728) (endPage % 134217728) (startPage * 4096) (endPage * 4096) :=
  ⟨fun _ _ hlevel => startIdx_mod startPage hlevel, fun _ _ hlevel => endIdx_mod endPage hlevel⟩

lemma Indexes.rangeIter (h : Indexes startPage endPage startVa endVa)
    (baseVa : Nat) (hlevel : level ≤ 2) :
    rangeIter t level baseVa startVa endVa isFirst isLast =
      Vm.rangeIter t level baseVa (startPage * 4096) (endPage * 4096) isFirst
        isLast := by
  induction level generalizing baseVa isFirst isLast with
  | zero => rw [Vm.rangeIter, Vm.rangeIter, h.start 0 _ hlevel, h.stop 0 _ hlevel]
  | succ level ih =>
    rw [Vm.rangeIter, Vm.rangeIter, h.start _ _ hlevel, h.stop _ _ hlevel]
    simp [ih _ (by omega : level ≤ 2)]

lemma vunmap_zero (hwf : s.table.Wf) (page : Nat) : vunmap (page * 4096) 0 s = s := by
  have hlimit := Nat.mod_lt page (by decide : 0 < 134217728)
  have hnone : rangeOfEntries s.table (page * 4096) (page * 4096) = [] := by
    rw [rangeOfEntries, (Indexes.mod page page).rangeIter 0 le_rfl]
    have hrange := rangeOfEntries_eq hwf (le_refl (page % 134217728)) hlimit
    rw [interval_eq_nil (Nat.sub_le _ _)] at hrange
    exact hrange
  rw [vunmap, Nat.add_zero, hnone]
  rfl

end

section

variable {perm : EntryPerm}

lemma idx_backwards (hdvd : 512 ^ (level + 1) ∣ pg) (hlo : pg ≤ endPage)
    (hlt : endPage < startPage) (hhi : startPage < pg + 512 ^ (level + 1)) :
    endIdx level (endPage * 4096) true ≤ startIdx level (startPage * 4096) true + 1 ∧
      (endIdx level (endPage * 4096) true = startIdx level (startPage * 4096) true + 1 →
        pg + startIdx level (startPage * 4096) true * 512 ^ level ≤ endPage ∧
        startPage < pg + (startIdx level (startPage * 4096) true + 1) * 512 ^ level) := by
  rw [Nat.pow_succ, Nat.mul_comm] at hdvd hhi
  obtain ⟨hstart, hstart'⟩ := index_bounds hdvd (by omega) hhi
  obtain ⟨hend, hend'⟩ := index_bounds hdvd hlo (by omega)
  rw [endIdx, startIdx, if_pos rfl, if_pos rfl, upperBoundIndexForVa_page, indexForVa_page]
  generalize startPage / 512 ^ level % 512 = a at *
  generalize endPage / 512 ^ level % 512 = b at *
  have hwidth : b * 512 ^ level < (a + 1) * 512 ^ level := by omega
  have hle : b < a + 1 := Nat.lt_of_mul_lt_mul_right hwidth
  have hspill : (if endPage % 512 ^ level = 0 then 0 else 1) ≤ 1 := by split <;> decide
  refine ⟨by omega, fun hlast => ?_⟩
  obtain rfl : b = a := by omega
  exact ⟨hend, hstart'⟩

lemma walkRange_backwards (hperm : perm.valid = true)
    (hidxs : Indexes startPage endPage startVa endVa) (hlevel : level ≤ 2)
    (hdvd : 512 ^ (level + 1) ∣ pg) (hlo : pg ≤ endPage)
    (hlt : endPage < startPage) (hhi : startPage < pg + 512 ^ (level + 1))
    (hwf : s.table.Wf)
    (hhere : level < 2 → s.table.lookup (level + 1) (pg / 512 ^ (level + 1)) ≠ none)
    (hrun : walkRangeMutRecursive src refused (vmapEntry src refused perm)
      level (pg * 4096) startVa endVa true true s = some out) :
    Outcome (Fills refused perm 0 0 s)
      (fun s' err => Fills refused perm 0 0 s s' ∧ err.1 = startVa) out := by
  induction level generalizing pg s out with
  | zero =>
    have hpanic : endIdx 0 (endPage * 4096) true < startIdx 0 (startPage * 4096) true := by
      rw [endIdx, startIdx, if_pos rfl, if_pos rfl, upperBoundIndexForVa_page, indexForVa_page,
        Nat.pow_zero, Nat.mod_one, if_pos rfl, Nat.div_one, Nat.div_one]
      omega
    rw [walkRangeMutRecursive, hidxs.start 0 _ hlevel, hidxs.stop 0 _ hlevel, if_pos hpanic] at hrun
    cases hrun
  | succ level ih =>
    obtain ⟨hle, hlast⟩ := idx_backwards hdvd hlo hlt hhi
    rw [walkRangeMutRecursive, hidxs.start _ _ hlevel, hidxs.stop _ _ hlevel] at hrun
    have hmax : startIdx (level + 1) (startPage * 4096) true < 512 := by
      rw [startIdx, if_pos rfl, indexForVa_page]
      exact Nat.mod_lt _ (by decide)
    generalize startIdx (level + 1) (startPage * 4096) true = idx at *
    by_cases hone : endIdx (level + 1) (endPage * 4096) true = idx + 1
    · simp only [hone, Nat.not_lt.mpr (Nat.le_succ _), if_false, interval, Nat.add_sub_cancel_left,
        range'_one, tryEach, Nat.add_sub_cancel, beq_self_eq_true, Bool.and_self] at hrun
      rw [baseVa_or_vaForIndex hdvd hmax] at hrun
      obtain ⟨hlo', hhi'⟩ := hlast hone
      have hdvd' : 512 ^ (level + 1) ∣ pg + idx * 512 ^ (level + 1) :=
        (Nat.dvd_add_right ((Nat.pow_dvd_pow 512 (by omega)).trans hdvd)).mpr (Nat.dvd_mul_left _ _)
      have hkey : key (level + 1) ((pg + idx * 512 ^ (level + 1)) * 4096) /
          512 = pg / 512 ^ (level + 2) := by
        rw [key_page, Nat.add_mul_div_right _ _ (Nat.pow_pos (by decide)),
          key_div hdvd hmax, Nat.div_div_eq_div_mul, ← Nat.pow_succ]
      have hensure := (Fills.walkRules src refused hperm).ensure hwf trivial (by omega) (by omega)
        (key_page (level + 1) (pg + idx * 512 ^ (level + 1)))
        (fun hlt => by rw [hkey]; exact hhere hlt)
      cases htable : ensureTable src refused (level + 1)
          ((pg + idx * 512 ^ (level + 1)) * 4096) s with
      | none =>
        rw [htable] at hrun
        cases hrun
        exact ⟨.refl hwf le_rfl, rfl⟩
      | some s' =>
        rw [htable] at hensure hrun
        obtain ⟨hadded, hpresent⟩ := hensure
        rw [key_page] at hpresent
        have hadded := hadded.cast le_rfl (le_refl 0)
        cases hwalk : walkRangeMutRecursive src refused (vmapEntry src refused perm) level
            ((pg + idx * 512 ^ (level + 1)) * 4096) startVa endVa true true s' with
        | none => simp [hwalk] at hrun
        | some next =>
          have hrest := ih (by omega) hdvd' hlo' (by rw [Nat.add_mul, Nat.one_mul] at hhi'; omega)
            hadded.wf (fun _ => hpresent) hwalk
          obtain ⟨t, result⟩ := next
          cases result with
          | ok =>
            simp only [hwalk] at hrun
            cases hrun
            exact hadded.trans hrest le_rfl le_rfl
          | error err =>
            simp only [hwalk] at hrun
            cases hrun
            exact ⟨hadded.trans hrest.1 le_rfl le_rfl, hrest.2⟩
    · simp only at hrun
      split at hrun
      · cases hrun
      rw [interval_eq_nil (by omega), tryEach] at hrun
      cases hrun
      exact .refl hwf le_rfl

end

/-- From `s` to `s'` the `pages` were unmapped and given back; of what was
obtained since `h₀`, `rest` is left. -/
structure Frees (h₀ : Heap) (rest pages : List Nat) (s s' : Space) : Prop where
  page : ∀ v ∈ pages, s'.table.lookup 0 v = none
  other : ∀ v, v ∉ pages → s'.table.lookup 0 v = s.table.lookup 0 v
  table : ∀ l k, 0 < l → s'.table.lookup l k = s.table.lookup l k
  taken : Takes h₀ s'.heap rest

section

variable {h₀ : Heap} {pages : List Nat} {s s' : Space}

lemma unmapEntry_lookup (s : Space) (page l k : Nat) :
    (unmapEntry (page * 4096) s).table.lookup l k =
      if l = 0 ∧ k = page then none else s.table.lookup l k := by
  rw [unmapEntry, key_zero_page, PageTable.lookup_setEntry]
  rfl

lemma unmapEach_frees (hnodup : pages.Nodup) (hmapped : ∀ v ∈ pages, s.table.lookup 0 v ≠ none)
    (htaken : Takes h₀ s.heap (pages.filterMap (fun v =>
      (s.table.lookup 0 v).map Pte.physicalAddr) ++ rest)) :
    Frees h₀ rest pages s ((pages.map (· * 4096)).foldl (fun s va => unmapEntry va s) s) := by
  induction pages generalizing s with
  | nil => exact ⟨by simp, fun _ _ => rfl, fun _ _ _ => rfl, htaken⟩
  | cons page pages ih =>
    obtain ⟨hnot, hnodup'⟩ := nodup_cons.mp hnodup
    obtain ⟨e, he⟩ := Option.ne_none_iff_exists'.mp (hmapped page (mem_cons_self ..))
    have hlookup : ∀ v ∈ pages, (unmapEntry (page * 4096) s).table.lookup 0 v =
        s.table.lookup 0 v := by
      intro v hv
      rw [unmapEntry_lookup, if_neg]
      rintro ⟨-, rfl⟩
      exact hnot hv
    have hheap : (unmapEntry (page * 4096) s).heap = s.heap.freePage e.physicalAddr := by
      rw [unmapEntry, key_zero_page, (PageTable.lookup_eq_some.mp he).2]
    have hrest := ih hnodup' (fun v hv => by
        rw [hlookup v hv]
        exact hmapped v (mem_cons_of_mem _ hv)) (by
      rw [hheap, filterMap_congr fun v hv => by rw [hlookup v hv]]
      rw [filterMap_cons, he] at htaken
      exact htaken.free)
    refine ⟨?_, ?_, ?_, hrest.taken⟩
    · intro v hv
      by_cases hin : v ∈ pages
      · exact hrest.page v hin
      · obtain rfl := (mem_cons.mp hv).resolve_right hin
        exact (hrest.other v hin).trans (by simp [unmapEntry_lookup])
    · intro v hv
      rw [mem_cons, not_or] at hv
      refine (hrest.other v hv.2).trans ?_
      rw [unmapEntry_lookup, if_neg fun h => hv.1 h.2]
    intro l k hl
    refine (hrest.table l k hl).trans ?_
    rw [unmapEntry_lookup, if_neg (by omega)]

end

/-- Every mapping is as before, and all that was obtained and not given back is
new tables. -/
def Restored (s s' : Space) : Prop :=
  (∀ v, s'.table.lookup 0 v = s.table.lookup 0 v) ∧
    ∃ tables, (∀ p ∈ tables, NewTable s.table s'.table p) ∧ Takes s.heap s'.heap tables

section

variable {perm : EntryPerm} {s s' t : Space}

lemma NewTable.congr {t t' t'' : PageTable} {p : Nat} (h : NewTable t t' p)
    (htable : ∀ l k, 0 < l → t''.lookup l k = t'.lookup l k) : NewTable t t'' p := by
  obtain ⟨l, k, e, hpos, hlt, hnone, he, haddr⟩ := h
  exact ⟨l, k, e, hpos, hlt, hnone, (htable l k hpos).trans he, haddr⟩

lemma Fills.restored (h : Fills refused perm lo hi s t) (hle : hi ≤ lo) : Restored s t := by
  obtain ⟨tables, htables, htaken⟩ := h.taken
  rw [framesIn_eq_nil _ hle, append_nil] at htaken
  exact ⟨fun v => h.other v (by omega), tables, htables, htaken⟩

lemma Fills.vunmap_frees (h : Fills refused perm startPage stop s t) (hle : startPage ≤ stop)
    (hlimit : stop < 134217728) : ∃ tables, (∀ p ∈ tables, NewTable s.table t.table p) ∧
    Frees s.heap (tables ++ framesIn t.table (max startPage (stop - lastChunk stop)) stop)
    (interval startPage (stop - lastChunk stop)) t
    (vunmap (startPage * 4096) (stop * 4096 - startPage * 4096) t) := by
  obtain ⟨tables, htables, htaken⟩ := h.taken
  refine ⟨tables, htables, ?_⟩
  have hend : startPage * 4096 + (stop * 4096 - startPage * 4096) = stop * 4096 := by omega
  have hmapped : ∀ v ∈ interval startPage (stop - lastChunk stop), t.table.lookup 0 v ≠ none := by
    intro v hv
    rw [mem_interval] at hv
    obtain ⟨-, -, e, he, -⟩ := h.page v hv.1 (by omega)
    simp [he]
  rw [vunmap, hend, rangeOfEntries_eq h.wf hle hlimit, filter_eq_self.mpr fun v hv => by
      simpa [PageTable.mapped, Option.isSome_iff_ne_none] using hmapped v hv]
  refine unmapEach_frees (interval_nodup _ _) hmapped (htaken.perm ?_)
  rw [framesIn_append t.table (le_max_left startPage (stop - lastChunk stop))
    (max_le hle (Nat.sub_le _ _)), framesIn, interval_max]
  rw [perm_iff_count]
  intro p
  simp only [count_append]
  omega

lemma Fills.vunmap_restored_iff (h : Fills refused perm startPage stop s t)
    (hle : startPage ≤ stop) (hlimit : stop < 134217728) :
    Restored s (vunmap (startPage * 4096) (stop * 4096 - startPage * 4096) t) ↔
      stop = startPage ∨ ¬ 512 ∣ stop := by
  obtain ⟨tables, htables, hfrees⟩ := h.vunmap_frees hle hlimit
  constructor
  · rintro ⟨hsame, -⟩
    by_contra hnot
    obtain ⟨hne, hdvd⟩ : stop ≠ startPage ∧ 512 ∣ stop := by simpa [not_or] using hnot
    -- the page before the blocked one stays mapped
    have hchunk := le_lastChunk hdvd
    have hlast := hfrees.other (stop - 1) (by
      rw [mem_interval]
      omega)
    obtain ⟨hnone, -, e, he, -⟩ := h.page (stop - 1) (by omega) (by omega)
    rw [hsame, hnone, he] at hlast
    cases hlast
  intro hcases
  have hcut : startPage < stop → lastChunk stop = 0 := by
    intro hlt
    exact lastChunk_eq_zero (hcases.resolve_left (by omega))
  have hrest : framesIn t.table (max startPage (stop - lastChunk stop)) stop = [] := by
    apply framesIn_eq_nil
    rcases hle.eq_or_lt with rfl | hlt
    · exact le_max_left _ _
    · rw [hcut hlt]
      exact le_max_right _ _
  rw [hrest, append_nil] at hfrees
  refine ⟨fun v => ?_, tables, fun p hp => (htables p hp).congr hfrees.table, hfrees.taken⟩
  by_cases hv : startPage ≤ v ∧ v < stop
  · have hgone := hfrees.page v (by
      rw [mem_interval, hcut (by omega)]
      exact hv)
    rw [hgone, (h.page v hv.1 hv.2).1]
  · rw [hfrees.other v (by rw [mem_interval]; omega), h.other v hv]

lemma mapsClean_iff (hstart : startPage ≤ stop) (hrange : stop = startPage ∨ stop < endPage)
    (hblocked : Blocked refused s.table stop)
    (hbefore : ∀ v, startPage ≤ v → v < stop → ¬ Blocked refused s.table v) :
    MapsClean refused s.table startPage endPage ↔ stop = startPage ∨ ¬ 512 ∣ stop := by
  constructor
  · intro hclean
    by_contra hnot
    obtain ⟨hne, hdvd⟩ : stop ≠ startPage ∧ 512 ∣ stop := by simpa [not_or] using hnot
    refine hclean stop ?_ hdvd (fun u hu => ?_) hblocked
    · rw [mem_interval]
      omega
    · rw [mem_interval] at hu
      exact hbefore u hu.1 hu.2
  intro hcases v hv hdvd hfirst hblocked'
  rw [mem_interval] at hv
  rcases Nat.lt_trichotomy v stop with hlt | rfl | hgt
  · exact hbefore v (by omega) hlt hblocked'
  · exact hcases.elim (by omega) fun hnot => hnot hdvd
  · exact hfirst stop (mem_interval.mpr ⟨hstart, hgt⟩) hblocked

lemma Fills.restored_iff (h : Fills refused perm startPage stop s t) (hle : startPage ≤ stop)
    (hbrk : stop = startPage ∨ 512 ∣ stop) : Restored s t ↔ stop = startPage ∨ ¬ 512 ∣ stop := by
  constructor
  · rintro ⟨hsame, -⟩
    by_contra hnot
    obtain ⟨hne, -⟩ := not_or.mp hnot
    obtain ⟨hnone, -, e, he, -⟩ := h.page startPage le_rfl (by omega)
    rw [hsame, hnone] at he
    cases he
  intro hcases
  have heq : stop = startPage := by
    rcases hbrk with heq | hdvd
    · exact heq
    · exact hcases.resolve_right (not_not.mpr hdvd)
  exact h.restored (Nat.le_of_eq heq)

lemma vmap_backwards (hwf : s.table.Wf) (hidxs : Indexes startPage endPage startVa (startVa + size))
    (hlt : endPage < startPage) (hlimit : startPage < 134217728)
    (hrun : vmap src refused startVa size perm s = some (s', .error err)) : ∃ t, Fills refused
    (perm.union .onlyValid) 0 0 s t ∧ s' = vunmap startVa 0 t := by
  have hvalid := perm.valid_union_onlyValid
  rw [vmap] at hrun
  split at hrun
  · cases hrun
  · cases hrun
  rename_i t brkAddr err' hwalk
  split at hrun
  · cases hrun
  cases hrun
  obtain ⟨hfills, hbrk⟩ := walkRange_backwards hvalid hidxs le_rfl (dvd_zero _) (Nat.zero_le _) hlt
    (by omega) hwf (by omega) (by rw [Nat.zero_mul]; exact hwalk)
  have hbrk : brkAddr = startVa := hbrk
  rw [hbrk, Nat.sub_self]
  exact ⟨t, hfills, rfl⟩

/-- A failed `vmap` leaves the mappings as they were, and gives every page back
that it mapped, exactly if it was not stopped at the first page of a table past
the start of its range.  The range may be any; addresses count modulo the size
of the address space. -/
theorem vmap_restored_iff (src : PageSource) (refused : Refusals) (perm : EntryPerm)
    {s s' : Space} {err : SysError} (hwf : s.table.Wf) (startPage size : Nat)
    (hrun : vmap src refused (startPage * 4096) (size * 4096) perm s = some (s', .error err)) :
    Restored s s' ↔ MapsClean refused s.table (startPage % 134217728)
        ((startPage + size) % 134217728) := by
  have hidxs := Indexes.mod startPage (startPage + size)
  rw [Nat.add_mul] at hidxs
  have hstartLimit := Nat.mod_lt startPage (by decide : 0 < 134217728)
  have hlimit := Nat.mod_lt (startPage + size) (by decide : 0 < 134217728)
  generalize hend : (startPage + size) % 134217728 = endPage at *
  by_cases hle : startPage % 134217728 ≤ endPage
  · obtain ⟨t, brkAddr, hstopped, hafter, rfl⟩ := vmap_fills hwf hidxs hle hlimit hrun
    obtain ⟨stop, hstart, hrange, hfills, hblocked, hbrk⟩ := hstopped
    rw [mapsClean_iff hstart hrange hblocked fun v hlo hhi => hfills.not_blocked hlo hhi]
    rcases hbrk with rfl | ⟨rfl, hbrk⟩
    · have hmod : startPage % 134217728 = startPage := Nat.mod_eq_of_lt (by omega)
      rw [hmod] at hfills hstart ⊢
      exact hfills.vunmap_restored_iff hstart (by omega)
    · rw [Nat.sub_self, vunmap_zero hfills.wf]
      exact hfills.restored_iff hstart hbrk
  have hlt := Nat.lt_of_not_le hle
  obtain ⟨t, hfills, rfl⟩ := vmap_backwards hwf hidxs hlt hstartLimit hrun
  rw [vunmap_zero hfills.wf]
  refine iff_of_true (hfills.restored le_rfl) fun v hv => ?_
  rw [mem_interval] at hv
  omega

def refusedPage (page : Nat) : Refusals := fun level k => level == 0 && k == page

theorem vmap_restored_second_page :
    ∃ s' err, vmap nextPage (refusedPage 1) (0 * 4096) (2 * 4096) .withRw
        emptySpace = some (s', .error err) ∧ Restored emptySpace s' := by
  have hfails : ((vmap nextPage (refusedPage 1) (0 * 4096) (2 * 4096) .withRw
      emptySpace).map fun out => out.2) = some (.error SysErrorKind.outOfMemory.err) := by
    decide
  obtain ⟨⟨s', result⟩, hrun, rfl⟩ := Option.map_eq_some_iff.mp hfails
  refine ⟨s', _, hrun, (vmap_restored_iff nextPage (refusedPage 1) .withRw
    emptySpace_wf 0 2 hrun).mpr fun v hv hdvd => ?_⟩
  rw [mem_interval] at hv
  omega

/-- The last page of a table is mapped, and there is no page for the one after
it.  The rollback leaves the first page mapped. -/
theorem not_restored_next_table :
    ¬ ∀ s', vmap nextPage (refusedPage 512) (511 * 4096) (2 * 4096) .withRw
        emptySpace = some (s', .error SysErrorKind.outOfMemory.err) →
      Restored emptySpace s' := by
  intro h
  have hmapped : ((vmap nextPage (refusedPage 512) (511 * 4096) (2 * 4096)
      .withRw emptySpace).map fun out => (out.2, out.1.table.mapped 511)) =
        some (.error SysErrorKind.outOfMemory.err, true) := by
    decide
  obtain ⟨⟨s', result⟩, hrun, hout⟩ := Option.map_eq_some_iff.mp hmapped
  obtain ⟨rfl, hmapped⟩ := Prod.mk.inj hout
  have hsame := (h s' hrun).1 511
  rw [PageTable.mapped, hsame] at hmapped
  cases hmapped

end
end Redwing.Vm
