/-
When `vmap` comes back and when it succeeds, and what holds of the pages it
maps: each is a page of its own, filled with zeros.
-/
import Redwing.PageTableMap

namespace Redwing.Vm

open Walks List PageTable

/-- A range inside one last-level table that ends with that table.  The walk
slices the entries of the table up to index 0. -/
def Cut (startPage endPage : Nat) : Prop :=
  512 ∣ endPage ∧ endPage < startPage + 512 ∧ startPage < endPage

instance (startPage endPage : Nat) : Decidable (Cut startPage endPage) :=
  inferInstanceAs (Decidable (_ ∧ _))

section

variable {src : PageSource} {perm : EntryPerm} {endPage : Nat} {s : Space}

lemma vmapEntry_isSome (src : PageSource) (refused : Refusals) (perm : EntryPerm) (curVa : Nat)
    (s : Space) : (vmapEntry src refused perm curVa s).isSome := by
  rw [vmapEntry]
  split
  · rfl
  cases halloc : s.heap.allocZeroedPage src (refused 0 (key 0 curVa)) with
  | none => rfl
  | some granted =>
    obtain ⟨page, heap⟩ := granted
    obtain ⟨-, haligned, hne⟩ := Heap.allocZeroedPage_fresh halloc
    have hframe : page % 4096 = 0 ∧ page ≠ 0 := ⟨by omega, hne⟩
    simp [Pte.setPhysicalAddr, hframe]

lemma Meets.start_le_stop_of_not_cut (h : Meets 0 pg startPage endPage isFirst isLast)
    (hcut : ¬ Cut startPage endPage) :
    startIdx 0 (startPage * 4096) isFirst ≤ endIdx 0 (endPage * 4096) isLast := by
  by_cases hend : isLast = true ∧ 512 ^ 1 ∣ endPage
  · obtain ⟨rfl, hdvd⟩ := hend
    cases isFirst with
    | false => exact Nat.zero_le _
    | true =>
      have hlo := h.lo_zero
      have hfirst := h.first rfl
      have hlast := h.last rfl
      have hbase := h.dvd
      have hle := h.le
      rw [rangeLo, if_pos rfl] at hlo
      rw [Cut] at hcut
      omega
  · exact h.start_le_stop fun hlast hdvd => hend ⟨hlast, hdvd⟩

lemma Meets.top (hle : startPage ≤ endPage) (hlimit : endPage < 134217728) :
    Meets 2 0 startPage endPage true true :=
  ⟨dvd_zero _, fun _ => by omega, fun _ => by omega, by simp, by simp, hle⟩

lemma walkRange_isSome (src : PageSource) (refused : Refusals) (perm : EntryPerm)
    (hcut : ¬ Cut startPage endPage) (hgib : ¬ 512 ^ 2 ∣ endPage)
    (h : Meets level pg startPage endPage isFirst isLast) (s : Space) :
    (walkRangeMutRecursive src refused (vmapEntry src refused perm) level
      (pg * 4096) (startPage * 4096) (endPage * 4096) isFirst isLast
      s).isSome := by
  induction level generalizing pg isFirst isLast s with
  | zero =>
    have hle := h.start_le_stop_of_not_cut hcut
    simp only [walkRangeMutRecursive, Nat.not_lt.mpr hle, ↓reduceIte]
    refine tryEach_isSome (fun _ _ => True) ?_ (fun _ _ _ _ _ _ _ _ => trivial) trivial
    intro _ idx _ s _ _
    obtain ⟨⟨t, result⟩, hentry⟩ := Option.isSome_iff_exists.mp
      (vmapEntry_isSome src refused perm (pg * 4096 ||| vaForIndex 0 idx) s)
    cases result with
    | ok | error => simp [hentry]
  | succ level ih =>
    have hnot : isLast = true → ¬ 512 ^ (level + 2) ∣ endPage :=
      fun _ hdvd => hgib ((Nat.pow_dvd_pow 512 (by omega)).trans hdvd)
    have hle := h.start_le_stop hnot
    have hmax := (h.stop_bounds hnot).2.1
    simp only [walkRangeMutRecursive, Nat.not_lt.mpr hle, ↓reduceIte]
    refine tryEach_isSome (fun _ _ => True) ?_ (fun _ _ _ _ _ _ _ _ => trivial) trivial
    intro _ idx _ s hsplit _
    obtain ⟨hidx, hidx', -⟩ := interval_split hsplit
    rw [baseVa_or_vaForIndex h.dvd (by omega)]
    cases ensureTable src refused (level + 1) ((pg + idx * 512 ^ (level + 1)) * 4096) s with
    | none => rfl
    | some s => exact ih (h.child hidx hidx') s

lemma vmap_isSome (src : PageSource) (refused : Refusals) (perm : EntryPerm) (hs : Owns base s)
    (hkernel : kernelPages ≤ startPage) (hle : startPage ≤ endPage) (hlimit : endPage < 134217728)
    (hcut : ¬ Cut startPage endPage) (hgib : ¬ 512 ^ 2 ∣ endPage) :
    (vmap src refused (startPage * 4096) (endPage * 4096 - startPage * 4096) perm s).isSome := by
  have hend := Nat.add_sub_of_le (Nat.mul_le_mul_right 4096 hle)
  have hvalid := perm.valid_union_onlyValid
  have hwalk := walkRange_isSome src refused (perm.union .onlyValid) hcut hgib
    (Meets.top hle hlimit) s
  obtain ⟨⟨t, result⟩, hwalk⟩ := Option.isSome_iff_exists.mp hwalk
  have hwalkSpec : WalkSpec src refused base (perm.union .onlyValid)
      startPage endPage 2 :=
    walkRange_spec hvalid hkernel hlimit le_rfl
  have hspec := hwalkSpec (Meets.top hle hlimit) hs (by omega) hwalk
  rw [Nat.zero_mul] at hwalk
  cases result with
  | ok => simp [vmap, hend, hwalk]
  | error err =>
    have hbrk : startPage * 4096 ≤ err.1 := by
      obtain ⟨stop, hstop, -, -, -, hbrk | ⟨hbrk, -⟩⟩ := hspec
      · have hstart : startPage ≤ stop := hstop
        omega
      · exact Nat.le_of_eq hbrk.symm
    simp [vmap, hend, hwalk, hbrk]

def MapsWithin (lo hi : Nat) (s s' : Space) : Prop :=
  ∀ v, ¬ (lo ≤ v ∧ v < hi) → s.table.lookup 0 v = none → s'.table.lookup 0 v = none

lemma MapsWithin.mono (h : MapsWithin lo hi s s')
    (hsub : ∀ v, lo ≤ v → v < hi → lo' ≤ v ∧ v < hi') : MapsWithin lo' hi' s s' :=
  fun v hv hnone => h v (fun hin => hv (hsub v hin.1 hin.2)) hnone

lemma MapsWithin.trans (h : MapsWithin lo hi s s') (h' : MapsWithin lo hi s' s'') :
    MapsWithin lo hi s s'' :=
  fun v hv hnone => h' v hv (h v hv hnone)

lemma ensureTable_granted (src : PageSource)
    (hgrant : ∀ l k, refused l k = false) (va : Nat) (s : Space) :
    ∃ s', ensureTable src refused (level + 1) va s = some s' ∧
      ∀ v, s.table.lookup 0 v = none → s'.table.lookup 0 v = none := by
  rw [ensureTable]
  split
  · exact ⟨s, rfl, fun _ h => h⟩
  simp only [Heap.allocZeroedPage, hgrant, Bool.false_eq_true, ↓reduceIte]
  refine ⟨_, rfl, fun v hv => ?_⟩
  rw [lookup_eq_none] at hv ⊢
  simp only [linkTable, setEntry, wipeTable]
  split
  · omega
  split
  · rfl
  · exact hv

lemma ensureTable_eq_none (h : ensureTable src refused level va s = none) :
    refused level (key level va) = true := by
  rw [ensureTable] at h
  split at h
  · cases h
  cases halloc : s.heap.allocZeroedPage src (refused level (key level va)) with
  | none => exact Heap.allocZeroedPage_eq_none halloc
  | some granted => simp [halloc] at h

lemma vmapEntry_granted (src : PageSource) (perm : EntryPerm)
    (hgrant : ∀ l k, refused l k = false) (hnone : s.table.lookup 0 page = none) :
    ∃ s', vmapEntry src refused perm (page * 4096) s = some (s', .ok ()) ∧
      MapsWithin page (page + 1) s s' := by
  obtain ⟨⟨s', result⟩, hentry⟩ := Option.isSome_iff_exists.mp
    (vmapEntry_isSome src refused perm (page * 4096) s)
  have hvalid := lookup_eq_none.mp hnone
  rw [vmapEntry, key_zero_page, hvalid] at hentry ⊢
  simp only [Heap.allocZeroedPage, hgrant, Bool.false_eq_true, ↓reduceIte] at hentry ⊢
  split at hentry
  · cases hentry
  rename_i entry hset
  refine ⟨_, rfl, fun v hv hv' => ?_⟩
  rw [lookup_setEntry, if_neg (by omega)]
  exact hv'

lemma walkRange_granted (hgrant : ∀ l k, refused l k = false)
    (hcut : ¬ Cut startPage endPage) (hgib : ¬ 512 ^ 2 ∣ endPage)
    (h : Meets level pg startPage endPage isFirst isLast)
    (hfree : ∀ v, rangeLo pg startPage isFirst ≤ v →
      v < rangeHi level pg endPage isLast → s.table.lookup 0 v = none) :
    ∃ s', walkRangeMutRecursive src refused (vmapEntry src refused perm) level
        (pg * 4096) (startPage * 4096) (endPage * 4096) isFirst isLast s = some (s', .ok ()) ∧
      MapsWithin (rangeLo pg startPage isFirst) (rangeHi level pg endPage isLast) s s' := by
  induction level generalizing pg isFirst isLast s with
  | zero =>
    have hle := h.start_le_stop_of_not_cut hcut
    have hlo := h.lo_zero
    simp only [walkRangeMutRecursive, Nat.not_lt.mpr hle, ↓reduceIte]
    generalize hstart : startIdx 0 (startPage * 4096) isFirst = start at *
    generalize hlow : rangeLo pg startPage isFirst = lo at *
    have hstop : ∀ idx, idx < endIdx 0 (endPage * 4096) isLast →
        endIdx 0 (endPage * 4096) isLast ≤ 512 ∧ rangeHi 0 pg endPage isLast =
            pg + endIdx 0 (endPage * 4096) isLast := by
      intro idx hidx
      have hnot : isLast = true → ¬ 512 ^ 1 ∣ endPage := by
        rintro rfl hdvd
        rw [Meets.stop_eq_zero hdvd] at hidx
        omega
      exact ⟨(h.stop_bounds hnot).2.1, h.hi_zero hnot⟩
    apply tryEach_ok fun before s' => MapsWithin lo (lo + before.length) s s'
    · intro before idx after s' hsplit hinv
      obtain ⟨hidx, hidx', heq⟩ := interval_split hsplit
      obtain ⟨hmax, hhi⟩ := hstop idx hidx'
      have hva := baseVa_or_vaForIndex h.dvd (by omega : idx < 512)
      rw [Nat.pow_zero, Nat.mul_one] at hva
      have hnone : s'.table.lookup 0 (pg + idx) = none :=
        hinv _ (by omega) (hfree _ (by omega) (by omega))
      obtain ⟨s'', hentry, hpage⟩ := vmapEntry_granted src perm hgrant hnone
      refine ⟨s'', ?_, ?_⟩
      · rw [hva, hentry]
      rw [length_append, length_singleton]
      exact (hinv.mono fun v hv hv' => ⟨hv, by omega⟩).trans (hpage.mono fun v hv hv' => by omega)
    · exact fun v _ hv => hv
    · intro s' hwithin
      apply hwithin.mono
      intro v hv hv'
      simp only [interval, length_range'] at hv'
      have hidx := hstop start (by omega)
      omega
  | succ level ih =>
    have hnot : isLast = true → ¬ 512 ^ (level + 2) ∣ endPage :=
      fun _ hdvd => hgib ((Nat.pow_dvd_pow 512 (by omega)).trans hdvd)
    have hle := h.start_le_stop hnot
    have hmax := (h.stop_bounds hnot).2.1
    have hlo := h.start_bounds.1
    have hhi := h.hi_le_stop hnot
    simp only [walkRangeMutRecursive, Nat.not_lt.mpr hle, ↓reduceIte]
    apply tryEach_ok fun before s' =>
      MapsWithin (rangeLo pg startPage isFirst) (min (rangeHi (level + 1) pg endPage isLast)
          (pg + (startIdx (level + 1) (startPage * 4096) isFirst +
            before.length) * 512 ^ (level + 1))) s s'
    · intro before idx after s' hsplit hinv
      obtain ⟨hidx, hidx', heq⟩ := interval_split hsplit
      rw [← heq] at hinv
      rw [length_append, length_singleton, ← Nat.add_assoc, ← heq]
      have hnext := Nat.add_mul idx 1 (512 ^ (level + 1))
      have hchildLo := h.child_lo hidx
      have hchildHi := h.child_hi hidx'
      rw [baseVa_or_vaForIndex h.dvd (by omega)]
      obtain ⟨s₁, htable, hsame⟩ := ensureTable_granted src hgrant
        ((pg + idx * 512 ^ (level + 1)) * 4096) s'
      obtain ⟨s₂, hrun, hwithin⟩ := ih (h.child hidx hidx') (s := s₁) (by
        intro v hv hv'
        rw [hchildLo] at hv
        rw [hchildHi] at hv'
        exact hsame v (hinv v (by omega) (hfree v (by omega) (by omega))))
      rw [hchildLo, hchildHi] at hwithin
      refine ⟨s₂, ?_, ?_⟩
      · rw [htable]
        exact hrun
      apply (hinv.mono fun v hv hv' => ⟨hv, by omega⟩).trans
      intro v hv hnone
      exact hwithin v (by omega) (hsame v hnone)
    · exact fun v _ hv => hv
    · intro s' hwithin
      exact hwithin.mono fun v hv hv' => ⟨hv, by omega⟩

lemma vmap_granted (src : PageSource) (perm : EntryPerm) (hgrant : ∀ l k, refused l k = false)
    (hle : startPage ≤ endPage) (hlimit : endPage < 134217728)
    (hcut : ¬ Cut startPage endPage) (hgib : ¬ 512 ^ 2 ∣ endPage)
    (hfree : ∀ v, startPage ≤ v → v < endPage - lastChunk endPage → s.table.lookup 0 v = none) :
    ∃ s', vmap src refused (startPage * 4096)
      (endPage * 4096 - startPage * 4096) perm s = some (s', .ok ()) := by
  have hend := Nat.add_sub_of_le (Nat.mul_le_mul_right 4096 hle)
  obtain ⟨s', hwalk, -⟩ : ∃ s', walkRangeMutRecursive src refused
        (vmapEntry src refused (perm.union .onlyValid)) 2 (0 * 4096)
        (startPage * 4096) (endPage * 4096) true true s = some (s', .ok ()) ∧
      MapsWithin _ _ s s' :=
    walkRange_granted hgrant hcut hgib (Meets.top hle hlimit) (by rwa [rangeHi_top hlimit])
  rw [Nat.zero_mul] at hwalk
  exact ⟨s', by simp only [vmap, hend, hwalk]⟩

lemma Meets.stop_eq_succ (h : Meets (level + 1) pg startPage endPage true true)
    (hnot : ¬ 512 ^ (level + 2) ∣ endPage) (hlt : startPage < endPage)
    (hblock : 512 ^ (level + 1) ∣ block)
    (hle : block ≤ startPage) (hend : endPage ≤ block + 512 ^ (level + 1)) :
    endIdx (level + 1) (endPage * 4096) true =
      startIdx (level + 1) (startPage * 4096) true + 1 := by
  have hpos : 0 < 512 ^ (level + 1) := Nat.pow_pos (by decide)
  obtain ⟨hstart, hstart'⟩ := h.start_bounds
  obtain ⟨-, -, hstop, -⟩ := h.stop_bounds fun _ => hnot
  obtain ⟨hstop, hstop'⟩ := hstop rfl
  rw [rangeLo, if_pos rfl] at hstart hstart'
  obtain ⟨c, rfl⟩ := hblock
  obtain ⟨d, rfl⟩ : 512 ^ (level + 1) ∣ pg := (Nat.pow_dvd_pow 512 (by omega)).trans h.dvd
  generalize startIdx (level + 1) (startPage * 4096) true = start at *
  generalize endIdx (level + 1) (endPage * 4096) true = stop at *
  generalize 512 ^ (level + 1) = width at *
  have hlow : d + start < c + 1 := by
    apply Nat.lt_of_mul_lt_mul_left (a := width)
    rw [Nat.mul_add, Nat.mul_add, Nat.mul_comm width start]
    omega
  have hlow' : c < d + start + 1 := by
    apply Nat.lt_of_mul_lt_mul_left (a := width)
    rw [Nat.add_assoc, Nat.mul_add, Nat.mul_comm width (start + 1)]
    omega
  have hhigh : d + (stop - 1) < c + 1 := by
    apply Nat.lt_of_mul_lt_mul_left (a := width)
    rw [Nat.mul_add, Nat.mul_add, Nat.mul_comm width (stop - 1)]
    omega
  have hhigh' : c < d + stop := by
    apply Nat.lt_of_mul_lt_mul_left (a := width)
    rw [Nat.mul_add, Nat.mul_comm width stop]
    omega
  omega

lemma walkRange_cut (hcut : Cut startPage endPage) (hgib : ¬ 512 ^ 2 ∣ endPage)
    (h : Meets level pg startPage endPage true true)
    (hrun : walkRangeMutRecursive src refused (vmapEntry src refused perm)
      level (pg * 4096) (startPage * 4096) (endPage * 4096) true true s = some out) :
    (∃ e, out.2 = .error e) ∧ ∃ l k, refused l k = true := by
  obtain ⟨hdvd, hlast, hlt⟩ := hcut
  induction level generalizing pg s out with
  | zero =>
    have hlo := h.lo_zero
    have hfirst := h.first rfl
    have hend := h.last rfl
    have hbase := h.dvd
    have hzero : endIdx 0 (endPage * 4096) true = 0 := Meets.stop_eq_zero hdvd
    rw [rangeLo, if_pos rfl] at hlo
    rw [walkRangeMutRecursive, hzero, if_pos (by omega)] at hrun
    cases hrun
  | succ level ih =>
    have hnot : ¬ 512 ^ (level + 2) ∣ endPage :=
      fun hdvd' => hgib ((Nat.pow_dvd_pow 512 (by omega)).trans hdvd')
    obtain ⟨block, hblock, hle, hend⟩ : ∃ block, 512 ^ (level + 1) ∣ block ∧
        block ≤ startPage ∧ endPage ≤ block + 512 ^ (level + 1) := by
      refine ⟨512 ^ (level + 1) * (startPage / 512 ^ (level + 1)),
        Nat.dvd_mul_right _ _, Nat.mul_div_le _ _, ?_⟩
      have hnext := Nat.lt_mul_div_succ startPage (Nat.pow_pos (by decide) : 0 < 512 ^ (level + 1))
      have hwidth : 512 ∣ 512 ^ (level + 1) * (startPage / 512 ^ (level + 1) + 1) :=
        (Dvd.intro_left _ rfl : 512 ∣ 512 ^ (level + 1)).mul_right _
      rw [Nat.mul_add, Nat.mul_one] at hnext hwidth
      omega
    have hstop := h.stop_eq_succ hnot hlt hblock hle hend
    have hmax := (h.stop_bounds fun _ => hnot).2.1
    have hchild := h.child le_rfl (by omega)
    rw [hstop, Nat.add_sub_cancel, beq_self_eq_true, Bool.and_self] at hchild
    simp only [walkRangeMutRecursive, hstop, Nat.not_lt.mpr (Nat.le_succ _),
      ↓reduceIte, interval, Nat.add_sub_cancel_left, range'_one,
      tryEach, Nat.add_sub_cancel, beq_self_eq_true, Bool.and_self] at hrun
    rw [baseVa_or_vaForIndex h.dvd (by omega)] at hrun
    generalize startIdx (level + 1) (startPage * 4096) true = idx at *
    cases htable : ensureTable src refused (level + 1)
        ((pg + idx * 512 ^ (level + 1)) * 4096) s with
    | none =>
      rw [htable] at hrun
      cases hrun
      refine ⟨⟨_, rfl⟩, level + 1, _, ensureTable_eq_none htable⟩
    | some s' =>
      rw [htable] at hrun
      cases hwalk : walkRangeMutRecursive src refused (vmapEntry src refused perm) level
          ((pg + idx * 512 ^ (level + 1)) * 4096) (startPage * 4096)
          (endPage * 4096) true true s' with
      | none => simp [hwalk] at hrun
      | some next =>
        obtain ⟨⟨e, he⟩, hrefused⟩ := ih hchild hwalk
        obtain ⟨t, result⟩ := next
        cases he
        simp only [hwalk] at hrun
        cases hrun
        exact ⟨⟨e, rfl⟩, hrefused⟩

lemma vmap_cut (hlimit : endPage < 134217728) (hcut : Cut startPage endPage)
    (hgib : ¬ 512 ^ 2 ∣ endPage)
    (hrun : vmap src refused (startPage * 4096)
      (endPage * 4096 - startPage * 4096) perm s = some (s', result)) :
    (∃ e, result = .error e) ∧ ∃ l k, refused l k = true := by
  have hend : startPage * 4096 + (endPage * 4096 - startPage * 4096) = endPage * 4096 := by
    have hlt := hcut.2.2
    omega
  rw [vmap, hend] at hrun
  rw [show (0 : Nat) = 0 * 4096 from rfl] at hrun
  split at hrun
  · cases hrun
  · rename_i t hwalk
    obtain ⟨⟨e, he⟩, -⟩ := walkRange_cut hcut hgib (Meets.top (Nat.le_of_lt hcut.2.2) hlimit) hwalk
    cases he
  rename_i t brkAddr err hwalk
  split at hrun
  · cases hrun
  cases hrun
  exact ⟨⟨err, rfl⟩, (walkRange_cut hcut hgib (Meets.top (Nat.le_of_lt hcut.2.2) hlimit) hwalk).2⟩

end

section

variable {src : PageSource} {perm : EntryPerm} {s s' : Space} {P : Heap → Prop}
  (halloc : ∀ h r page h', P h → h.allocZeroedPage src r = some (page, h') → P h')

include halloc

lemma ensureTable_keeps (hs : P s.heap)
    (hrun : ensureTable src refused level va s = some s') : P s'.heap := by
  rw [ensureTable] at hrun
  split at hrun
  · cases hrun
    exact hs
  cases hgrant : s.heap.allocZeroedPage src (refused level (key level va)) with
  | none => simp [hgrant] at hrun
  | some granted =>
    simp only [hgrant, Option.some.injEq] at hrun
    subst hrun
    exact halloc _ _ _ _ hs hgrant

lemma vmapEntry_keeps (hs : P s.heap)
    (hrun : vmapEntry src refused perm curVa s = some (s', result)) : P s'.heap := by
  rw [vmapEntry] at hrun
  split at hrun
  · cases hrun
    exact hs
  cases hgrant : s.heap.allocZeroedPage src (refused 0 (key 0 curVa)) with
  | none =>
    simp only [hgrant] at hrun
    cases hrun
    exact hs
  | some granted =>
    simp only [hgrant] at hrun
    split at hrun
    · cases hrun
    · cases hrun
      exact halloc _ _ _ _ hs hgrant

lemma walkRange_keeps (hs : P s.heap)
    (hrun : walkRangeMutRecursive src refused (vmapEntry src refused perm)
      level va startVa endVa isFirst isLast s = some out) : P out.1.heap := by
  suffices hkept : Walks.Outcome (fun s => P s.heap) (fun s _ => P s.heap) out by
    obtain ⟨t, result⟩ := out
    cases result with
    | ok | error => exact hkept
  induction level generalizing va isFirst isLast s out with
  | zero =>
    rw [walkRangeMutRecursive] at hrun
    split at hrun
    · cases hrun
    refine tryEach_outcome (fun _ s => P s.heap) (fun s _ => P s.heap) ?_ hs hrun
    intro before idx after s out _ hinv hbody
    cases hentry : vmapEntry src refused perm (va ||| vaForIndex 0 idx) s with
    | none => simp [hentry] at hbody
    | some next =>
      obtain ⟨t, result⟩ := next
      have hkept := vmapEntry_keeps halloc hinv hentry
      cases result with
      | ok | error =>
        simp only [hentry] at hbody
        cases hbody
        exact hkept
  | succ level ih =>
    rw [walkRangeMutRecursive] at hrun
    split at hrun
    · cases hrun
    refine tryEach_outcome (fun _ s => P s.heap) (fun s _ => P s.heap) ?_ hs hrun
    intro before idx after s out _ hinv hbody
    cases htable : ensureTable src refused (level + 1) (va ||| vaForIndex (level + 1) idx) s with
    | none =>
      simp only [htable] at hbody
      cases hbody
      exact hinv
    | some t =>
      simp only [htable] at hbody
      exact ih (ensureTable_keeps halloc hinv htable) hbody

lemma vmap_keeps (hfree : ∀ h page, P h → P (h.freePage page)) (hs : P s.heap)
    (hrun : vmap src refused startVa size perm s = some (s', result)) : P s'.heap := by
  have hunmap : ∀ (vas : List Nat) (s : Space), P s.heap →
      P (vas.foldl (fun s va => unmapEntry va s) s).heap := by
    intro vas
    induction vas with
    | nil => exact fun s hs => hs
    | cons va rest ih => exact fun s hs => ih _ (hfree _ _ hs)
  rw [vmap] at hrun
  split at hrun
  · cases hrun
  · rename_i t hwalk
    cases hrun
    exact walkRange_keeps halloc hs hwalk
  rename_i t brkAddr err hwalk
  split at hrun
  · cases hrun
  cases hrun
  exact hunmap _ _ (walkRange_keeps halloc hs hwalk)

end

lemma Owns.page_injective (hs : Owns base s) (hv : UserPage v) (hw : UserPage w)
    (he : s.table.lookup 0 v = some e) (he' : s.table.lookup 0 w = some e')
    (haddr : e.physicalAddr = e'.physicalAddr)
    (hcount : s.heap.issued.count e.physicalAddr = 1) : v = w := by
  by_contra hne
  have htwo : 2 ≤ occurrences (512 ^ (3 - 0)) (s.table.userTarget 0)
      e.physicalAddr := by
    apply two_le_occurrences hv.page_key.lt hw.page_key.lt hne
    · simp [userTarget, hv.page_key.user, he]
    · simp [userTarget, hw.page_key.user, he', haddr]
  have hle := Finset.single_le_sum (f := fun l => occurrences (512 ^ (3 - l)) (s.table.userTarget l)
      e.physicalAddr)
    (fun _ _ => Nat.zero_le _) (Finset.mem_range.mpr (by decide : 0 < 3))
  have hheld := hs.count e.physicalAddr
  rw [held] at hheld
  omega

/-- The pages obtained since `h₀` were each handed out once and hold zeros. -/
def NewPages (h₀ h : Heap) : Prop :=
  ∀ p ∈ h.issued, p ∉ h₀.issued → h.issued.count p = 1 ∧ h.mem p = fun _ => 0

lemma NewPages.alloc (hnew : NewPages h₀ h) (halloc : h.allocZeroedPage src r = some (page, h')) :
    NewPages h₀ h' := by
  have hfresh := (Heap.allocZeroedPage_fresh halloc).1
  obtain ⟨-, -, rfl⟩ := Heap.allocZeroedPage_eq_some halloc
  intro p hp hold
  by_cases heq : p = page
  · subst heq
    simp [count_eq_zero_of_not_mem hfresh]
  obtain ⟨hcount, hmem⟩ := hnew p ((mem_cons.mp hp).resolve_left heq) hold
  simp only [count_cons_of_ne (Ne.symm heq), Function.update_of_ne heq]
  exact ⟨hcount, hmem⟩

lemma NewPages.free (hnew : NewPages h₀ h) (page : Nat) : NewPages h₀ (h.freePage page) := by
  rw [Heap.freePage]
  split
  · intro p hp hold
    obtain ⟨hcount, hmem⟩ := hnew p (mem_of_mem_erase hp) hold
    refine ⟨?_, hmem⟩
    have hpos := count_pos_iff.mpr hp
    have hle := List.Sublist.count_le p (erase_sublist (a := page) (l := h.issued))
    simp only at hpos ⊢
    omega
  · exact hnew

lemma NewPages.refl (h : Heap) : NewPages h h := fun _ hp hold => absurd hp hold

lemma NewPages.vmap (hnew : NewPages h₀ s.heap)
    (hrun : vmap src refused startVa size perm s = some (s', result)) : NewPages h₀ s'.heap :=
  vmap_keeps (fun _ _ _ _ hnew halloc => hnew.alloc halloc)
    (fun _ page hnew => hnew.free page) hnew hrun

lemma vmap_newPages (hrun : vmap src refused startVa size perm s = some (s', result)) :
    NewPages s.heap s'.heap :=
  (NewPages.refl s.heap).vmap hrun

end Redwing.Vm
