/-
Mapping and unmapping ranges: how far the walk of `vmap` gets, what its
rollback leaves behind, which entries `vunmap` clears, and what is left of an
address space that `clear` has taken apart.
-/
import Redwing.PageTableSpec

namespace Redwing.Vm

open Walks List Option PageTable

/-- A page at which a mapping call stops: it is mapped already, or the page
allocator turns down the page itself or a table on the way to it. -/
def Blocked (refused : Refusals) (t : PageTable) (page : Nat) : Prop :=
  t.lookup 0 page ≠ none ∨ refused 0 page = true ∨ ∃ level, 0 < level ∧ level < 3 ∧
      t.lookup level (page / 512 ^ level) = none ∧
      refused level (page / 512 ^ level) = true

lemma Blocked.of_kept (hsame : t'.lookup 0 page = t.lookup 0 page)
    (htable : ∀ l k e, 0 < l → t.lookup l k = some e → t'.lookup l k = some e)
    (hblocked : Blocked refused t' page) : Blocked refused t page := by
  rcases hblocked with hmapped | hrefused | ⟨level, hpos, hlt, hnone, hrefused⟩
  · rw [hsame] at hmapped
    exact .inl hmapped
  · exact .inr (.inl hrefused)
  refine .inr (.inr ⟨level, hpos, hlt, ?_, hrefused⟩)
  cases hold : t.lookup level (page / 512 ^ level) with
  | none => rfl
  | some e =>
    rw [htable _ _ e hpos hold] at hnone
    cases hnone

lemma not_blocked_of_mapped {refused : Refusals} {t t' : PageTable} {page : Nat} {e : Pte}
    (hwf : t'.Wf) (hfree : t.lookup 0 page = none) (hgranted : refused 0 page = false)
    (he : t'.lookup 0 page = some e)
    (hnew : ∀ l k, 0 < l → t.lookup l k = none → t'.lookup l k ≠ none → refused l k = false) :
    ¬ Blocked refused t page := by
  rintro (hmapped | hrefused | ⟨level, hpos, hlt, hnone, hrefused⟩)
  · exact hmapped hfree
  · simp [hgranted] at hrefused
  have hpath : t'.lookup level (page / 512 ^ level) ≠ none := by
    intro hmissing
    have hunmapped := hwf.mapped_eq_false (by omega) hmissing
    simp [mapped, he] at hunmapped
  have hgrant := hnew level _ hpos hnone hpath
  simp [hgrant] at hrefused

/-- A walk over `[startPage, endPage)` that has mapped the pages from `lo` on
and stopped at the blocked page `stop`.  The address it reports is `stop`, or
else the start of the range, and then `stop` is the first page of a table. -/
def Stopped (base : Nat → Nat) (refused : Refusals) (perm : EntryPerm)
    (startPage endPage lo : Nat) (s s' : Space) (brkAddr : Nat) : Prop :=
  ∃ stop, lo ≤ stop ∧ (stop = startPage ∨ stop < endPage) ∧
    Maps base refused perm lo stop s s' ∧ Blocked refused s.table stop ∧
    (brkAddr = stop * 4096 ∨ (brkAddr = startPage * 4096 ∧ 512 ∣ stop))

/-- What the walk of `vmap` needs of a relation `M lo hi s s'` which says that
the pages from `lo` up to `hi` got mapped: `Inv` holds along the walk, which
visits the pages of `Page` only. -/
structure WalkRules (src : PageSource) (refused : Refusals) (perm : EntryPerm)
    (Inv : Space → Prop) (Page : Nat → Prop)
    (M : Nat → Nat → Space → Space → Prop) : Prop where
  refl : ∀ {lo hi s}, Inv s → hi ≤ lo → M lo hi s s
  trans : ∀ {lo mid hi s s' s''}, M lo mid s s' → M mid hi s' s'' →
    lo ≤ mid → mid ≤ hi → M lo hi s s''
  cast : ∀ {lo hi lo' hi' s s'}, M lo hi s s' → hi ≤ lo → hi' ≤ lo' → M lo' hi' s s'
  inv : ∀ {lo hi s s'}, M lo hi s s' → Inv s'
  other : ∀ {lo hi s s' v}, M lo hi s s' → ¬ (lo ≤ v ∧ v < hi) →
    s'.table.lookup 0 v = s.table.lookup 0 v
  table : ∀ {lo hi s s' l k e}, M lo hi s s' → 0 < l →
    s.table.lookup l k = some e → s'.table.lookup l k = some e
  ensure : ∀ {s va first level}, Inv s → Page first → 0 < level → level < 3 →
    key level va = first / 512 ^ level →
    (level < 2 → s.table.lookup (level + 1) (key level va / 512) ≠ none) →
    match ensureTable src refused level va s with
    | none => s.table.lookup level (key level va) = none ∧
        refused level (key level va) = true
    | some s' => M first first s s' ∧ s'.table.lookup level (key level va) ≠ none
  entry : ∀ {s page out}, Inv s → Page page → s.table.lookup 1 (page / 512) ≠ none →
    vmapEntry src refused perm (page * 4096) s = some out →
    Outcome (M page (page + 1) s) (fun s' _ => s' = s ∧
        (s.table.lookup 0 page ≠ none ∨ refused 0 page = true)) out

/-- A walk that has mapped the pages from `lo` on and stopped at the blocked
page `stop`; `startVa` is the start of the range. -/
def StoppedBy (M : Nat → Nat → Space → Space → Prop) (refused : Refusals)
    (startPage endPage startVa lo : Nat) (s s' : Space) (brkAddr : Nat) : Prop :=
  ∃ stop, lo ≤ stop ∧ (stop = startPage ∨ stop < endPage) ∧ M lo stop s s' ∧
    Blocked refused s.table stop ∧
    (brkAddr = stop * 4096 ∨ (brkAddr = startVa ∧ (stop = startPage ∨ 512 ∣ stop)))

/-- Addresses with the indices of a range of pages: the indices depend on the
39 low bits only. -/
structure Indexes (startPage endPage startVa endVa : Nat) : Prop where
  start : ∀ level isFirst, level ≤ 2 →
    startIdx level startVa isFirst = startIdx level (startPage * 4096) isFirst
  stop : ∀ level isLast, level ≤ 2 →
    endIdx level endVa isLast = endIdx level (endPage * 4096) isLast

lemma Indexes.refl (startPage endPage : Nat) :
    Indexes startPage endPage (startPage * 4096) (endPage * 4096) :=
  ⟨fun _ _ _ => rfl, fun _ _ _ => rfl⟩

namespace WalkRules

variable {src : PageSource} {refused : Refusals} {perm : EntryPerm}
  {Inv : Space → Prop} {Page : Nat → Prop}
  {M : Nat → Nat → Space → Space → Prop}
  {startPage endPage startVa lo mid hi : Nat} {s s' s'' : Space} {brkAddr : Nat}
  (R : WalkRules src refused perm Inv Page M)

include R

lemma extend (h : M lo mid s s') (h' : M mid hi s' s'') (hlo : lo ≤ mid) :
    M lo (max mid hi) s s'' := by
  rcases Nat.le_total mid hi with hle | hle
  · rw [Nat.max_eq_right hle]
    exact R.trans h h' hlo hle
  · rw [Nat.max_eq_left hle]
    exact R.trans h (R.cast h' hle le_rfl) hlo le_rfl

lemma of_max (h : M lo (max lo hi) s s') : M lo hi s s' := by
  rcases Nat.le_total lo hi with hle | hle
  · rwa [Nat.max_eq_right hle] at h
  · rw [Nat.max_eq_left hle] at h
    exact R.cast h le_rfl hle

lemma blocked (h : M lo mid s s') (hpage : mid ≤ page)
    (hblocked : Blocked refused s'.table page) : Blocked refused s.table page :=
  hblocked.of_kept (R.other h (by omega)) fun _ _ _ hl he => R.table h hl he

lemma prepend (h : M lo mid s s') (hlo : lo ≤ mid)
    (hstop : StoppedBy M refused startPage endPage startVa mid s' s'' brkAddr) :
    StoppedBy M refused startPage endPage startVa lo s s'' brkAddr := by
  obtain ⟨stop, hmid, hrange, hmaps, hblocked, hbrk⟩ := hstop
  exact ⟨stop, by omega, hrange, R.trans h hmaps hlo hmid, R.blocked h hmid hblocked, hbrk⟩

end WalkRules

section

variable {src : PageSource} {refused : Refusals} {perm : EntryPerm}
  {Inv : Space → Prop} {Page : Nat → Prop}
  {M : Nat → Nat → Space → Space → Prop}
  {level pg startPage endPage startVa endVa : Nat} {isFirst isLast : Bool}
  {s : Space} {out : Space × Except (Nat × SysError) Unit}
  (R : WalkRules src refused perm Inv Page M)
  (hidxs : Indexes startPage endPage startVa endVa)
  (hpages : ∀ v, startPage ≤ v → v < 134217728 → Page v)
  (hlimit : endPage < 134217728)

include R hidxs hpages hlimit in
lemma walkRange_zero (h : Meets 0 pg startPage endPage isFirst isLast)
    (hnot : isLast = true → ¬ 512 ^ 1 ∣ endPage)
    (hs : Inv s) (hhere : s.table.lookup 1 (pg / 512) ≠ none)
    (hrun : walkRangeMutRecursive src refused (vmapEntry src refused perm) 0
      (pg * 4096) startVa endVa isFirst isLast s = some out) :
    Outcome (M (rangeLo pg startPage isFirst) (rangeHi 0 pg endPage isLast) s)
      (fun s' err => StoppedBy M refused startPage endPage startVa
        (rangeLo pg startPage isFirst) s s' err.1) out := by
  have hle := h.start_le_stop hnot
  have hmax := (h.stop_bounds hnot).2.1
  have hlo := h.lo_zero
  have hhi := h.hi_zero hnot
  have hfrom := h.le_lo
  have hto := h.hi_le
  rw [walkRangeMutRecursive, hidxs.start 0 _ (by omega), hidxs.stop 0 _ (by omega)] at hrun
  generalize hstart : startIdx 0 (startPage * 4096) isFirst = start at *
  generalize hstop : endIdx 0 (endPage * 4096) isLast = stop at *
  simp only [Nat.not_lt.mpr hle, ↓reduceIte] at hrun
  rw [hhi]
  generalize rangeLo pg startPage isFirst = lo at *
  have hloop := tryEach_outcome (fun before s' => M lo (lo + before.length) s s')
    (fun s' err => StoppedBy M refused startPage endPage startVa lo s s' err.1)
    ?_ (R.refl hs (by simp)) hrun
  · rwa [show pg + stop = lo + (interval start stop).length by
      simp [interval]; omega]
  intro before idx after s' out' hsplit hinv hbody
  obtain ⟨hidx, hidx', heq⟩ := interval_split hsplit
  have hpage : pg + idx = lo + before.length := by omega
  have hva := baseVa_or_vaForIndex h.dvd (by omega : idx < 512)
  rw [Nat.pow_zero, Nat.mul_one, hpage] at hva
  rw [hva] at hbody
  have hvisited := hpages (lo + before.length) (by omega) (by omega)
  have hparent : s'.table.lookup 1 ((lo + before.length) / 512) ≠ none := by
    have hdvd := h.dvd
    rw [← hpage, show (pg + idx) / 512 = pg / 512 by omega]
    obtain ⟨e, he⟩ := ne_none_iff_exists'.mp hhere
    simp [R.table hinv (by decide) he]
  cases hentry : vmapEntry src refused perm ((lo + before.length) * 4096) s' with
  | none => simp [hentry] at hbody
  | some next =>
    have hspec := R.entry (R.inv hinv) hvisited hparent hentry
    obtain ⟨s'', result⟩ := next
    cases result with
    | ok =>
      simp only [hentry, some.injEq] at hbody
      subst hbody
      rw [Outcome, length_append, length_singleton]
      exact R.trans hinv hspec (by omega) (by omega)
    | error err =>
      simp only [hentry, some.injEq] at hbody
      subst hbody
      obtain ⟨rfl, hwhy⟩ := hspec
      refine ⟨lo + before.length, by omega, .inr (by omega), hinv, ?_, .inl rfl⟩
      apply R.blocked hinv le_rfl
      rcases hwhy with hmapped | hrefused
      · exact .inl hmapped
      · exact .inr (.inl hrefused)

def WalkSpecBy (src : PageSource) (refused : Refusals) (perm : EntryPerm) (Inv : Space → Prop)
    (M : Nat → Nat → Space → Space → Prop) (startPage endPage startVa endVa level : Nat) : Prop :=
  ∀ {pg : Nat} {isFirst isLast : Bool} {s : Space}
    {out : Space × Except (Nat × SysError) Unit},
    Meets level pg startPage endPage isFirst isLast → Inv s →
    (level < 2 → s.table.lookup (level + 1) (pg / 512 ^ (level + 1)) ≠ none) →
    walkRangeMutRecursive src refused (vmapEntry src refused perm) level
      (pg * 4096) startVa endVa isFirst isLast s = some out →
    Outcome (M (rangeLo pg startPage isFirst) (rangeHi level pg endPage isLast) s)
      (fun s' err => StoppedBy M refused startPage endPage startVa
        (rangeLo pg startPage isFirst) s s' err.1) out

section

variable {idx : Nat} (h : Meets (level + 1) pg startPage endPage isFirst isLast)
  (hlow : startIdx (level + 1) (startPage * 4096) isFirst ≤ idx)
  (hhigh : idx < endIdx (level + 1) (endPage * 4096) isLast)

include h hlow hhigh

lemma entry_first_page : max (rangeLo pg startPage isFirst) (pg + idx * 512 ^ (level + 1)) /
      512 ^ (level + 1) = pg / 512 ^ (level + 1) + idx ∧
    startPage ≤ max (rangeLo pg startPage isFirst) (pg + idx * 512 ^ (level + 1)) ∧
    (max (rangeLo pg startPage isFirst) (pg + idx * 512 ^ (level + 1)) = startPage ∨
      max (rangeLo pg startPage isFirst) (pg + idx * 512 ^ (level + 1)) < endPage) := by
  have hpos : 0 < 512 ^ (level + 1) := Nat.pow_pos (by decide)
  have hstart := h.start_bounds.2
  have hfrom := h.le_lo
  obtain ⟨-, hmax, hend, hall⟩ := h.stop_bounds (Meets.not_dvd_of_lt_stop hhigh)
  have hnext : (startIdx (level + 1) (startPage * 4096) isFirst + 1) *
      512 ^ (level + 1) ≤ (idx + 1) * 512 ^ (level + 1) :=
    Nat.mul_le_mul_right _ (by omega)
  have hbefore : pg + idx * 512 ^ (level + 1) < endPage := by
    cases isLast with
    | false =>
      have hrest := h.rest rfl
      have hle : (idx + 1) * 512 ^ (level + 1) ≤ 512 * 512 ^ (level + 1) :=
        Nat.mul_le_mul_right _ (by omega)
      rw [Nat.pow_succ, Nat.mul_comm _ 512] at hrest
      rw [Nat.add_mul, Nat.one_mul] at hle
      omega
    | true =>
      have hle : idx * 512 ^ (level + 1) ≤ (endIdx (level + 1) (endPage * 4096) true - 1) *
            512 ^ (level + 1) := Nat.mul_le_mul_right _ (by omega)
      have hlast := (hend rfl).1
      omega
  refine ⟨?_, by omega, ?_⟩
  · obtain ⟨c, rfl⟩ : 512 ^ (level + 1) ∣ pg := (Nat.pow_dvd_pow 512 (by omega)).trans h.dvd
    rw [Nat.mul_div_cancel_left _ hpos]
    apply Nat.div_eq_of_lt_le
    · rw [Nat.add_mul, Nat.mul_comm c]
      omega
    rw [Nat.add_assoc, Nat.add_mul, Nat.mul_comm c, Nat.max_lt]
    have hwidth := Nat.add_mul idx 1 (512 ^ (level + 1))
    omega
  cases isFirst with
  | false =>
    simp only [rangeLo, Bool.false_eq_true, ↓reduceIte]
    omega
  | true =>
    simp only [rangeLo, ↓reduceIte]
    omega

include R hpages hlimit in
lemma walkRange_entry (hlevel : level < 2)
    (ih : WalkSpecBy src refused perm Inv M startPage endPage startVa endVa level)
    (hmax : idx < 512)
    (hinv : M (rangeLo pg startPage isFirst)
      (max (rangeLo pg startPage isFirst) (pg + idx * 512 ^ (level + 1)))
      s s')
    (hhere : level + 1 < 2 → s.table.lookup (level + 2) (pg / 512 ^ (level + 2)) ≠ none)
    (hbody : (match ensureTable src refused (level + 1)
          ((pg + idx * 512 ^ (level + 1)) * 4096) s' with
      | none =>
        let brkAddr := if isFirst then startVa
          else (pg + idx * 512 ^ (level + 1)) * 4096
        some (s', .error (brkAddr, SysErrorKind.outOfMemory.err))
      | some s' =>
        walkRangeMutRecursive src refused (vmapEntry src refused perm) level
          ((pg + idx * 512 ^ (level + 1)) * 4096) startVa endVa
          (isFirst && idx == startIdx (level + 1) (startPage * 4096) isFirst)
          (isLast && idx == endIdx (level + 1) (endPage * 4096) isLast - 1)
          s') = some out) :
    Outcome (M (rangeLo pg startPage isFirst) (max (rangeLo pg startPage isFirst)
          (min (rangeHi (level + 1) pg endPage isLast) (pg + (idx + 1) * 512 ^ (level + 1)))) s)
      (fun s' err => StoppedBy M refused startPage endPage startVa
        (rangeLo pg startPage isFirst) s s' err.1) out := by
  obtain ⟨hunder, hfrom, hto⟩ := entry_first_page h hlow hhigh
  have hstart := h.le
  have hentryHi := h.entry_le_hi hhigh
  have hnext := Nat.add_mul idx 1 (512 ^ (level + 1))
  have hchild := h.child hlow hhigh
  have hchildLo := h.child_lo hlow
  have hchildHi := h.child_hi hhigh
  have hkey : key (level + 1) ((pg + idx * 512 ^ (level + 1)) * 4096) =
      pg / 512 ^ (level + 1) + idx := by
    rw [key_page, Nat.add_mul_div_right _ _ (Nat.pow_pos (by decide))]
  generalize hfirst : max (rangeLo pg startPage isFirst) (pg + idx * 512 ^ (level + 1)) = first at *
  have hvisited := hpages first (by omega) (by omega)
  have hparent : level + 1 < 2 → s'.table.lookup (level + 1 + 1)
      (key (level + 1) ((pg + idx * 512 ^ (level + 1)) * 4096) / 512) ≠
        none := by
    intro hlt
    have habove : (pg / 512 ^ (level + 1) + idx) / 512 = pg / 512 ^ (level + 2) := by
      rw [key_div h.dvd hmax, Nat.div_div_eq_div_mul, ← Nat.pow_succ]
    rw [hkey, habove]
    obtain ⟨e, he⟩ := ne_none_iff_exists'.mp (hhere hlt)
    simp [R.table hinv (by omega) he]
  have hensure := R.ensure (R.inv hinv) hvisited (by omega) (by omega)
    (hkey.trans hunder.symm) hparent
  cases htable : ensureTable src refused (level + 1) ((pg + idx * 512 ^ (level + 1)) * 4096) s' with
  | none =>
    rw [htable] at hensure hbody
    simp only [some.injEq] at hbody
    subst hbody
    refine ⟨first, by omega, hto, hinv, ?_, ?_⟩
    · apply R.blocked hinv le_rfl
      refine .inr (.inr ⟨level + 1, by omega, by omega, ?_⟩)
      rw [hunder, ← hkey]
      exact hensure
    -- the address for the rollback: right unless this is a later entry
    -- of the first table
    cases isFirst with
    | false =>
      have hlo : rangeLo pg startPage false = pg := rfl
      exact .inl (by
        rw [← hfirst, hlo, Nat.max_eq_right (Nat.le_add_right _ _)]
        rfl)
    | true =>
      have hlo : rangeLo pg startPage true = startPage := rfl
      rw [hlo] at hfirst
      by_cases hpast : pg + idx * 512 ^ (level + 1) ≤ startPage
      · rw [Nat.max_eq_left hpast] at hfirst
        exact .inr ⟨rfl, .inl hfirst.symm⟩
      refine .inr ⟨rfl, .inr ?_⟩
      rw [← hfirst, Nat.max_eq_right (by omega)]
      have hdvd : 512 ∣ 512 ^ (level + 1) := Dvd.intro_left _ rfl
      exact (Nat.dvd_add_right ((hdvd.trans (Nat.pow_dvd_pow 512 (by omega))).trans
          h.dvd)).mpr (hdvd.mul_left _)
  | some s'' =>
    rw [htable] at hensure hbody
    obtain ⟨hadded, hpresent⟩ := hensure
    have hgrown := R.trans hinv hadded (by omega) le_rfl
    have hrest := ih hchild (R.inv hadded) (fun _ => by
      rw [← key_page]; exact hpresent) hbody
    rw [hchildLo, hchildHi] at hrest
    obtain ⟨t, result⟩ := out
    cases result with
    | ok =>
      have hmaps := R.extend hgrown hrest (by omega)
      rwa [show max first (min (rangeHi (level + 1) pg endPage isLast)
          (pg + (idx + 1) * 512 ^ (level + 1))) =
        max (rangeLo pg startPage isFirst) (min (rangeHi (level + 1) pg endPage isLast)
            (pg + (idx + 1) * 512 ^ (level + 1))) by omega] at hmaps
    | error err => exact R.prepend hgrown (by omega) hrest

end

include R hidxs in
lemma walkRange_of_dvd (hlevel : level ≤ 2) (h : Meets level pg startPage endPage isFirst true)
    (hdvd : 512 ^ (level + 1) ∣ endPage) (hs : Inv s)
    (hrun : walkRangeMutRecursive src refused (vmapEntry src refused perm)
      level (pg * 4096) startVa endVa isFirst true s = some out) :
    Outcome (M (rangeLo pg startPage isFirst) (rangeHi level pg endPage true) s)
      (fun s' err => StoppedBy M refused startPage endPage startVa
        (rangeLo pg startPage isFirst) s s' err.1) out := by
  have hstop := (hidxs.stop level true hlevel).trans (Meets.stop_eq_zero hdvd)
  have hout : some (s, Except.ok ()) = some out := by
    rw [← hrun]
    cases level with
    | zero | succ =>
      simp only [walkRangeMutRecursive, hstop, interval_eq_nil (Nat.zero_le _), tryEach] at hrun ⊢
      split at hrun
      · cases hrun
      · rw [if_neg ‹_›]
  cases hout
  exact R.refl hs (h.hi_le_lo hdvd)

include R hidxs hpages hlimit in
lemma walkRange_by (hlevel : level ≤ 2) :
    WalkSpecBy src refused perm Inv M startPage endPage startVa endVa level := by
  induction level with
  | zero =>
    intro pg isFirst isLast s out h hs hhere hrun
    by_cases hend : isLast = true ∧ 512 ^ 1 ∣ endPage
    · obtain ⟨rfl, hdvd⟩ := hend
      exact walkRange_of_dvd R hidxs hlevel h hdvd hs hrun
    have hhere := hhere (by decide)
    rw [Nat.pow_one] at hhere
    exact walkRange_zero R hidxs hpages hlimit h
      (fun hlast hdvd => hend ⟨hlast, hdvd⟩) hs hhere hrun
  | succ level ih =>
    intro pg isFirst isLast s out h hs hhere hrun
    by_cases hend : isLast = true ∧ 512 ^ (level + 2) ∣ endPage
    · obtain ⟨rfl, hdvd⟩ := hend
      exact walkRange_of_dvd R hidxs hlevel h hdvd hs hrun
    have hnot : isLast = true → ¬ 512 ^ (level + 2) ∣ endPage :=
      fun hlast hdvd => hend ⟨hlast, hdvd⟩
    have hmax := (h.stop_bounds hnot).2.1
    have hstart := h.start_bounds.1
    have hhi := h.hi_le_stop hnot
    have hle := h.start_le_stop hnot
    rw [walkRangeMutRecursive, hidxs.start _ _ hlevel, hidxs.stop _ _ hlevel] at hrun
    simp only [Nat.not_lt.mpr hle, ↓reduceIte] at hrun
    have hloop := tryEach_outcome (fun before s' => M (rangeLo pg startPage isFirst)
        (max (rangeLo pg startPage isFirst) (min (rangeHi (level + 1) pg endPage isLast)
            (pg + (startIdx (level + 1) (startPage * 4096) isFirst +
              before.length) * 512 ^ (level + 1)))) s s')
      (fun s' err => StoppedBy M refused startPage endPage startVa
        (rangeLo pg startPage isFirst) s s' err.1)
      ?_ (R.refl hs (by
        simp only [length_nil, Nat.add_zero]
        omega)) hrun
    · have hlength : startIdx (level + 1) (startPage * 4096) isFirst +
          (interval (startIdx (level + 1) (startPage * 4096) isFirst)
            (endIdx (level + 1) (endPage * 4096) isLast)).length =
          endIdx (level + 1) (endPage * 4096) isLast := by
        simp only [interval, length_range']
        omega
      simp only [hlength, Nat.min_eq_left hhi] at hloop
      obtain ⟨t, result⟩ := out
      cases result with
      | ok => exact R.of_max hloop
      | error err => exact hloop
    intro before idx after s' out' hsplit hinv hbody
    obtain ⟨hidx, hidx', heq⟩ := interval_split hsplit
    rw [baseVa_or_vaForIndex h.dvd (by omega)] at hbody
    rw [← heq, Nat.min_eq_right (h.entry_le_hi hidx')] at hinv
    simp only [length_append, length_singleton, ← Nat.add_assoc, ← heq]
    exact walkRange_entry R hpages hlimit h hidx hidx' (by omega)
      (ih (by omega)) (by omega) hinv hhere hbody

end

section

variable {src : PageSource} {refused : Refusals} {base : Nat → Nat}
  {perm : EntryPerm} {level startPage endPage lo : Nat} {s s' : Space}
  {brkAddr : Nat}

lemma Maps.walkRules (src : PageSource) (refused : Refusals)
    (base : Nat → Nat) (hperm : perm.valid = true) :
    WalkRules src refused perm (Owns base) UserPage (Maps base refused perm) where
  refl := .refl
  trans := .trans
  cast := .cast
  inv := Maps.owns
  other h hv := h.other _ hv
  table h hl he := h.table _ _ _ hl he
  ensure hs huser hpos hlevel hkey hparent :=
    ensureTable_spec src refused perm _ _ hs (hkey ▸ huser.key hlevel) hpos hparent
  entry hs huser hparent hrun := vmapEntry_spec hs huser hparent hperm hrun

lemma StoppedBy.stopped (h : StoppedBy (Maps base refused perm) refused startPage endPage
      (startPage * 4096) lo s s' brkAddr) :
    Stopped base refused perm startPage endPage lo s s' brkAddr := by
  obtain ⟨stop, hlo, hrange, hmaps, hblocked, hbrk⟩ := h
  refine ⟨stop, hlo, hrange, hmaps, hblocked, ?_⟩
  rcases hbrk with hbrk | ⟨hbrk, rfl | hdvd⟩
  · exact .inl hbrk
  · exact .inl hbrk
  · exact .inr ⟨hbrk, hdvd⟩

lemma Maps.blocked {mid page : Nat} (h : Maps base refused perm lo mid s s') (hpage : mid ≤ page)
    (hblocked : Blocked refused s'.table page) : Blocked refused s.table page :=
  hblocked.of_kept (h.other page (by omega)) h.table

def WalkSpec (src : PageSource) (refused : Refusals) (base : Nat → Nat)
    (perm : EntryPerm) (startPage endPage level : Nat) : Prop :=
  ∀ {pg : Nat} {isFirst isLast : Bool} {s : Space}
    {out : Space × Except (Nat × SysError) Unit},
    Meets level pg startPage endPage isFirst isLast → Owns base s →
    (level < 2 → s.table.lookup (level + 1) (pg / 512 ^ (level + 1)) ≠ none) →
    walkRangeMutRecursive src refused (vmapEntry src refused perm) level
      (pg * 4096) (startPage * 4096) (endPage * 4096) isFirst isLast s = some out →
    Outcome (Maps base refused perm (rangeLo pg startPage isFirst)
        (rangeHi level pg endPage isLast) s)
      (fun s' err => Stopped base refused perm startPage endPage
        (rangeLo pg startPage isFirst) s s' err.1) out

lemma walkRange_spec (hperm : perm.valid = true) (hkernel : kernelPages ≤ startPage)
    (hlimit : endPage < 134217728) (hlevel : level ≤ 2) :
    WalkSpec src refused base perm startPage endPage level := by
  intro pg isFirst isLast s out h hs hhere hrun
  have hspec := walkRange_by (Maps.walkRules src refused base hperm) (.refl startPage endPage)
    (fun v hv hv' => ⟨hkernel.trans hv, hv'⟩) hlimit hlevel h hs hhere hrun
  obtain ⟨t, result⟩ := out
  cases result with
  | ok => exact hspec
  | error err => exact StoppedBy.stopped hspec

end

/-- From `s` to `s'` the `removed` pages were unmapped and given back; the
tables stayed. -/
structure Unmaps (base : Nat → Nat) (removed : Nat → Prop) (s s' : Space) :
    Prop where
  root : s'.table.root = s.table.root
  page : ∀ v, removed v → s'.table.lookup 0 v = none
  other : ∀ v, ¬ removed v → s'.table.lookup 0 v = s.table.lookup 0 v
  table : ∀ l k, 0 < l → s'.table.lookup l k = s.table.lookup l k
  mem : s'.heap.mem = s.heap.mem
  owns : Owns base s'

section

variable {base : Nat → Nat} {s s' s'' : Space} {removed removed' : Nat → Prop}

lemma Unmaps.refl (hs : Owns base s) : Unmaps base (fun _ => False) s s :=
  ⟨rfl, fun _ h => h.elim, fun _ _ => rfl, fun _ _ _ => rfl, rfl, hs⟩

lemma Unmaps.trans (h : Unmaps base removed s s') (h' : Unmaps base removed' s' s'') :
    Unmaps base (fun v => removed v ∨ removed' v) s s'' where
  root := h'.root.trans h.root
  page := by
    intro v hv
    by_cases hlater : removed' v
    · exact h'.page v hlater
    · rw [h'.other v hlater, h.page v (hv.resolve_right hlater)]
  other := by
    intro v hv
    rw [h'.other v fun hr => hv (.inr hr), h.other v fun hr => hv (.inl hr)]
  table := fun l k hl => (h'.table l k hl).trans (h.table l k hl)
  mem := h'.mem.trans h.mem
  owns := h'.owns

lemma Unmaps.congr (h : Unmaps base removed s s')
    (hin : ∀ v, removed' v → removed v ∨ s.table.lookup 0 v = none)
    (hout : ∀ v, removed v → removed' v ∨ s.table.lookup 0 v = none) :
    Unmaps base removed' s s' where
  root := h.root
  page := by
    intro v hv
    by_cases hr : removed v
    · exact h.page v hr
    · rw [h.other v hr, (hin v hv).resolve_left hr]
  other := by
    intro v hv
    by_cases hr : removed v
    · rw [h.page v hr, (hout v hr).resolve_left hv]
    · exact h.other v hr
  table := h.table
  mem := h.mem
  owns := h.owns

lemma unmapEntry_spec (hs : Owns base s)
    (huser : UserPage page) (hmapped : s.table.mapped page = true) :
    Unmaps base (· = page) s (unmapEntry (page * 4096) s) := by
  obtain ⟨e, he⟩ := isSome_iff_exists.mp hmapped
  have hentry := (lookup_eq_some.mp he).2
  have hhere : (s.table.setEntry 0 page .zero).lookup 0 page = none := by
    rw [lookup_setEntry, if_pos ⟨rfl, rfl⟩]
    rfl
  have hother : ∀ l j, (l, j) ≠ (0, page) →
      (s.table.setEntry 0 page .zero).lookup l j = s.table.lookup l j := by
    intro l j hne
    rw [lookup_setEntry, if_neg (by simpa using hne)]
  have hwf := hs.wf.remove hother hhere (fun l j hl => by omega)
  have hroot : (s.table.setEntry 0 page .zero).root = s.table.root := rfl
  have htransit := Owns.unhang huser.page_key hroot hother hwf hs he hhere
  have howns := htransit.giveBack
  rw [unmapEntry, key_zero_page, hentry]
  refine ⟨rfl, ?_, ?_, ?_, ?_, howns⟩
  · rintro v rfl
    exact hhere
  · intro v hv
    exact hother 0 v (by simpa using hv)
  · intro l k hl
    exact hother l k (by simp; omega)
  · simp only [Heap.freePage]
    split <;> rfl

lemma unmapEach_spec {pages : List Nat} (hs : Owns base s) (hnodup : pages.Nodup)
    (hpages : ∀ v ∈ pages, UserPage v ∧ s.table.mapped v = true) :
    Unmaps base (· ∈ pages) s ((pages.map (· * 4096)).foldl (fun s va => unmapEntry va s) s) := by
  induction pages generalizing s with
  | nil => exact (Unmaps.refl hs).congr (by simp) (by simp)
  | cons page rest ih =>
    obtain ⟨hnot, hrest⟩ := nodup_cons.mp hnodup
    obtain ⟨huser, hmapped⟩ := hpages page (mem_cons_self ..)
    have hfirst := unmapEntry_spec hs huser hmapped
    have hothers := ih hfirst.owns hrest (fun v hv => by
      obtain ⟨hvuser, hvmapped⟩ := hpages v (mem_cons_of_mem _ hv)
      refine ⟨hvuser, ?_⟩
      rwa [mapped, hfirst.other v (by rintro rfl; exact hnot hv)])
    rw [map_cons, foldl_cons]
    exact (hfirst.trans hothers).congr (fun v hv => .inl (by simpa using hv))
      (fun v hv => .inl (by simpa using hv))

lemma vunmap_spec {startPage endPage : Nat} (hs : Owns base s)
    (hkernel : kernelPages ≤ startPage) (hle : startPage ≤ endPage) (hlimit : endPage < 134217728) :
    Unmaps base (fun v => startPage ≤ v ∧ v < endPage - lastChunk endPage) s
      (vunmap (startPage * 4096) (endPage * 4096 - startPage * 4096) s) := by
  have hend := Nat.add_sub_of_le (Nat.mul_le_mul_right 4096 hle)
  rw [vunmap, hend, rangeOfEntries_eq hs.wf hle hlimit]
  apply (unmapEach_spec hs ((interval_nodup _ _).filter _) ?_).congr
  · intro v hv
    cases hmapped : s.table.mapped v with
    | false => exact .inr (by simpa [mapped] using hmapped)
    | true => exact .inl (by simp [hv, hmapped])
  · intro v hv
    simp only [mem_filter, mem_interval] at hv
    exact .inl hv.1
  intro v hv
  simp only [mem_filter, mem_interval] at hv
  exact ⟨⟨by omega, by omega⟩, hv.2⟩

end

/-- What a failed mapping call leaves: it stopped at the first blocked page,
and the mapped pages are those from before unless that page is the first one
of a table past the start. -/
structure RolledBack (base : Nat → Nat) (refused : Refusals)
    (startPage endPage : Nat) (s s' : Space) : Prop where
  root : s'.table.root = s.table.root
  stop : ∃ stop, startPage ≤ stop ∧ (stop = startPage ∨ stop < endPage) ∧
    Blocked refused s.table stop ∧
    (∀ v, startPage ≤ v → v < stop → ¬ Blocked refused s.table v) ∧
    (stop = startPage ∨ ¬ 512 ∣ stop → ∀ v, s'.table.lookup 0 v = s.table.lookup 0 v)
  outside : ∀ v, ¬ (startPage ≤ v ∧ v < endPage) → s'.table.lookup 0 v = s.table.lookup 0 v
  kernel : ∀ l k, 0 < l → l < 3 → isKernelKey l k = true → s'.table.lookup l k = s.table.lookup l k
  owns : Owns base s'

section

variable {src : PageSource} {refused : Refusals} {base : Nat → Nat}
  {perm : EntryPerm} {startPage endPage lo hi : Nat} {s s' : Space}

lemma Maps.not_blocked (h : Maps base refused perm lo hi s s')
    (hlo : lo ≤ v) (hhi : v < hi) : ¬ Blocked refused s.table v := by
  obtain ⟨hfree, hgranted, e, he, -, -⟩ := h.page v hlo hhi
  exact not_blocked_of_mapped h.owns.wf hfree hgranted he h.newTable

lemma lastChunk_eq_zero {endPage : Nat} (h : ¬ 512 ∣ endPage) : lastChunk endPage = 0 := by
  have hnot : ¬ 512 ^ 2 ∣ endPage := fun hdvd => h ((Dvd.intro 512 rfl : 512 ∣ 512 ^ 2).trans hdvd)
  rw [lastChunk, if_neg hnot, if_neg h]

lemma le_lastChunk {endPage : Nat} (h : 512 ∣ endPage) : 512 ≤ lastChunk endPage := by
  rw [lastChunk, if_pos h]
  split
  · decide
  · exact le_rfl

lemma Stopped.rolledBack (hkernel : kernelPages ≤ startPage) (hle : startPage ≤ endPage)
    (hlimit : endPage < 134217728)
    (h : Stopped base refused perm startPage endPage startPage s s' brkAddr) :
    RolledBack base refused startPage endPage s
      (vunmap (startPage * 4096) (brkAddr - startPage * 4096) s') := by
  obtain ⟨stop, hstart, hrange, hmaps, hblocked, hbrk⟩ := h
  obtain ⟨brk, rfl, hbrkLo, hbrkHi, hwhere⟩ : ∃ brk, brkAddr = brk * 4096 ∧
      startPage ≤ brk ∧ brk ≤ stop ∧
      (stop = startPage ∨ ¬ 512 ∣ stop → brk = stop) := by
    rcases hbrk with hstop | ⟨hbegin, hdvd⟩
    · exact ⟨stop, hstop, hstart, le_rfl, fun _ => rfl⟩
    · exact ⟨startPage, hbegin, le_rfl, hstart, fun hcases =>
        (hcases.resolve_right (not_not.mpr hdvd)).symm⟩
  have hunmaps := vunmap_spec hmaps.owns hkernel hbrkLo (by omega)
  have houtside : ∀ v, ¬ (startPage ≤ v ∧ v < stop) →
      (vunmap (startPage * 4096) (brk * 4096 - startPage * 4096)
        s').table.lookup 0 v = s.table.lookup 0 v := by
    intro v hv
    rw [hunmaps.other v (by omega), hmaps.other v hv]
  refine
    { root := hunmaps.root.trans hmaps.root
      stop := ⟨stop, hstart, hrange, hblocked, fun v hlo hhi => hmaps.not_blocked hlo hhi, ?_⟩
      outside := fun v hv => houtside v (by omega)
      kernel := fun l k hpos hl hk => (hunmaps.table l k hpos).trans (hmaps.kernel l k hl hk)
      owns := hunmaps.owns }
  intro hcases v
  by_cases hv : startPage ≤ v ∧ v < stop
  · -- the page was mapped by this call, and the rollback reaches it
    have hchunk : lastChunk stop = 0 := lastChunk_eq_zero (hcases.resolve_left (by omega))
    have hgone := hunmaps.page v (by
      rw [hwhere hcases, hchunk]
      exact hv)
    rw [hgone, (hmaps.page v hv.1 hv.2).1]
  · exact houtside v hv

lemma vmap_spec (hs : Owns base s) (hkernel : kernelPages ≤ startPage)
    (hle : startPage ≤ endPage) (hlimit : endPage < 134217728)
    (hrun : vmap src refused (startPage * 4096)
      (endPage * 4096 - startPage * 4096) perm s = some out) :
    Outcome (Maps base refused (perm.union .onlyValid) startPage (endPage - lastChunk endPage) s)
      (fun s' _ => RolledBack base refused startPage endPage s s') out := by
  have hmeets : Meets 2 0 startPage endPage true true :=
    ⟨dvd_zero _, fun _ => by omega, fun _ => by omega, by simp, by simp, hle⟩
  have hend := Nat.add_sub_of_le (Nat.mul_le_mul_right 4096 hle)
  have hvalid := perm.valid_union_onlyValid
  rw [vmap, hend] at hrun
  cases hwalk : walkRangeMutRecursive src refused (vmapEntry src refused (perm.union .onlyValid))
      2 0 (startPage * 4096) (endPage * 4096) true true s with
  | none => simp [hwalk] at hrun
  | some walked =>
    have hwalkSpec : WalkSpec src refused base (perm.union .onlyValid)
        startPage endPage 2 :=
      walkRange_spec hvalid hkernel hlimit le_rfl
    have hspec := hwalkSpec hmeets hs (by omega) (by rw [Nat.zero_mul]; exact hwalk)
    rw [rangeHi_top hlimit] at hspec
    obtain ⟨t, result⟩ := walked
    cases result with
    | ok =>
      simp only [hwalk, some.injEq] at hrun
      subst hrun
      exact hspec
    | error err =>
      obtain ⟨brkAddr, e⟩ := err
      simp only [hwalk] at hrun
      split at hrun
      · cases hrun
      · cases hrun
        exact Stopped.rolledBack hkernel hle hlimit hspec

end

section

variable {src : PageSource} {refused : Refusals} {base : Nat → Nat}
  {perm : EntryPerm} {s s' : Space} {page : Nat}

lemma walk_spec (src : PageSource) (refused : Refusals) (perm : EntryPerm) (hs : Owns base s)
    (huser : UserPage page) (hrun : walk src refused (page * 4096) s = (s', found)) :
    Maps base refused perm page page s s' ∧ (found = true → s'.table.lookup 1 (page / 512) ≠ none) ∧
      (found = false → Blocked refused s.table page) := by
  have hkey : ∀ level, key level (page * 4096) = page / 512 ^ level :=
    fun level => key_page level page
  have htop := ensureTable_spec src refused perm (page * 4096) page hs
    (by rw [hkey]; exact huser.key (by omega : 2 < 3)) (by omega) (by omega)
  cases htopRun : ensureTable src refused 2 (page * 4096) s with
  | none =>
    rw [htopRun, hkey] at htop
    simp only [walk, htopRun, Prod.mk.injEq] at hrun
    obtain ⟨rfl, rfl⟩ := hrun
    exact ⟨Maps.refl hs le_rfl, by simp, fun _ => .inr (.inr ⟨2, by omega, by omega, htop⟩)⟩
  | some s₁ =>
    rw [htopRun, hkey] at htop
    obtain ⟨hmaps, hpresent⟩ := htop
    have habove : key 1 (page * 4096) / 512 = page / 512 ^ 2 := by
      rw [hkey, Nat.div_div_eq_div_mul]
      rfl
    have hmid := ensureTable_spec src refused perm (page * 4096) page
      hmaps.owns (by rw [hkey]; exact huser.key (by omega : 1 < 3))
      (by omega) (fun _ => by rw [habove]; exact hpresent)
    cases hmidRun : ensureTable src refused 1 (page * 4096) s₁ with
    | none =>
      rw [hmidRun, hkey] at hmid
      simp only [walk, htopRun, hmidRun, Prod.mk.injEq] at hrun
      obtain ⟨rfl, rfl⟩ := hrun
      refine ⟨hmaps, by simp, fun _ => hmaps.blocked le_rfl ?_⟩
      exact .inr (.inr ⟨1, by omega, by omega, hmid⟩)
    | some s₂ =>
      rw [hmidRun, hkey, Nat.pow_one] at hmid
      simp only [walk, htopRun, hmidRun, Prod.mk.injEq] at hrun
      obtain ⟨rfl, rfl⟩ := hrun
      exact ⟨hmaps.trans hmid.1 le_rfl le_rfl, fun _ => hmid.2, by simp⟩

lemma Maps.giveBack (halloc : s.heap.allocZeroedPage src r = some (addr, heap))
    (h : Maps (withPage base addr) refused perm page page { s with heap } s') :
    Maps base refused perm page page s
      { s' with heap := s'.heap.freePage addr } := by
  have hfresh := (Heap.allocZeroedPage_fresh halloc).1
  have howns := h.owns.giveBack
  refine
    { root := h.root
      page := fun v hlo hhi => by omega
      other := h.other
      table := h.table
      newTable := h.newTable
      kernel := h.kernel
      issued := ?_
      mem := ?_
      owns := howns }
  · intro p hp
    have hissued := h.issued p (Heap.allocZeroedPage_issued halloc hp).1
    have hne : p ≠ addr := fun heq => hfresh (heq ▸ hp)
    simp only [Heap.freePage]
    split
    · exact (mem_erase_of_ne hne).mpr hissued
    · exact hissued
  intro p hp
  obtain ⟨hissued, hmem⟩ := Heap.allocZeroedPage_issued halloc hp
  rw [← hmem, ← h.mem p hissued]
  simp only [Heap.freePage]
  split <;> rfl

lemma tryMap_spec (hs : Owns base s) (huser : UserPage page)
    (halloc : s.heap.allocZeroedPage src (refused 0 page) = some (addr, heap))
    (hrun : tryMap src refused (page * 4096) addr perm { s with heap } = some (s', result)) :
    (result = .ok true ∧ Maps base refused (perm.union .onlyValid) page (page + 1) s s' ∧
      ∃ e, s'.table.lookup 0 page = some e ∧ e.physicalAddr = addr) ∨
    (result ≠ .ok true ∧ Maps (withPage base addr) refused (perm.union .onlyValid) page page
        { s with heap } s' ∧ Blocked refused s.table page) := by
  rw [tryMap] at hrun
  split at hrun
  · cases hrun
  cases hwalk : walk src refused (page * 4096) { s with heap } with
  | mk s₁ found =>
    obtain ⟨hpath, hfound, hlost⟩ := walk_spec src refused
      (perm.union .onlyValid) (hs.take halloc) huser hwalk
    have hsame : s₁.table.lookup 0 page = s.table.lookup 0 page := hpath.other page (by omega)
    cases found with
    | false =>
      simp only [hwalk, some.injEq, Prod.mk.injEq] at hrun
      obtain ⟨rfl, rfl⟩ := hrun
      exact .inr ⟨by simp, hpath, hlost rfl⟩
    | true =>
      by_cases hvalid : (s₁.table.entry 0 page).isValid = true
      · simp only [hwalk, key_zero_page, hvalid, ↓reduceIte, some.injEq, Prod.mk.injEq] at hrun
        obtain ⟨rfl, rfl⟩ := hrun
        refine .inr ⟨by simp, hpath, .inl ?_⟩
        rw [← hsame, ne_eq, lookup_eq_none, hvalid]
        decide
      obtain ⟨-, haddr, hne⟩ := Heap.allocZeroedPage_fresh halloc
      have hnone : s₁.table.lookup 0 page = none := by
        rw [lookup_eq_none]
        simpa using hvalid
      have hset : (s₁.table.entry 0 page).setPhysicalAddr addr =
          some { s₁.table.entry 0 page with ppn := addr / 4096 } := by
        rw [Pte.setPhysicalAddr, if_pos ⟨by omega, hne⟩]
      simp only [hwalk, key_zero_page, hvalid, Bool.false_eq_true,
        ↓reduceIte, hset, some.injEq, Prod.mk.injEq] at hrun
      obtain ⟨rfl, rfl⟩ := hrun
      have hentryValid : (Pte.setPerm
          { s₁.table.entry 0 page with ppn := addr / 4096 }
          (perm.union .onlyValid)).isValid = true := by
        simp [Pte.isValid, Pte.setPerm, EntryPerm.union, EntryPerm.onlyValid]
      have hentryAddr : (Pte.setPerm
          { s₁.table.entry 0 page with ppn := addr / 4096 }
          (perm.union .onlyValid)).physicalAddr = addr := haddr
      have hmaps := Maps.hangPage huser halloc hpath (hfound rfl) hnone hentryValid rfl hentryAddr
      refine .inl ⟨rfl, hmaps, _, ?_, hentryAddr⟩
      rw [lookup_setEntry, if_pos ⟨rfl, rfl⟩, if_pos hentryValid]

lemma vmapPage_spec (hs : Owns base s) (huser : UserPage page)
    (hrun : vmapPage src refused (page * 4096) perm s = some (s', result)) :
    (∃ addr, result = .ok addr ∧ Maps base refused (perm.union .onlyValid) page (page + 1) s s' ∧
      ∃ e, s'.table.lookup 0 page = some e ∧ e.physicalAddr = addr) ∨
    (∃ err, result = .error err ∧ Maps base refused (perm.union .onlyValid) page page s s' ∧
      Blocked refused s.table page) := by
  rw [vmapPage] at hrun
  split at hrun
  · cases hrun
  rw [key_zero_page] at hrun
  cases halloc : s.heap.allocZeroedPage src (refused 0 page) with
  | none =>
    simp only [halloc, some.injEq, Prod.mk.injEq] at hrun
    obtain ⟨rfl, rfl⟩ := hrun
    exact .inr ⟨_, rfl, Maps.refl hs le_rfl, .inr (.inl (Heap.allocZeroedPage_eq_none halloc))⟩
  | some granted =>
    obtain ⟨addr, heap⟩ := granted
    cases htry : tryMap src refused (page * 4096) addr perm
        { s with heap } with
    | none => simp [halloc, htry] at hrun
    | some tried =>
      obtain ⟨s₁, outcome⟩ := tried
      simp only [halloc, htry] at hrun
      rcases tryMap_spec hs huser halloc htry with ⟨rfl, hmaps, hentry⟩ | ⟨hfailed, hpath, hblocked⟩
      · cases hrun
        exact .inl ⟨addr, rfl, hmaps, hentry⟩
      have hback := hpath.giveBack halloc
      cases outcome with
      | error err =>
        cases hrun
        exact .inr ⟨err, rfl, hback, hblocked⟩
      | ok mapped =>
        cases mapped with
        | true => exact absurd rfl hfailed
        | false =>
          cases hrun
          exact .inr ⟨_, rfl, hback, hblocked⟩

end

section

variable {base : Nat → Nat} {s s' : Space}

def NoUserPages (s : Space) : Prop := ∀ page, UserPage page → s.table.lookup 0 page = none

/-- From `s` to `s'` the tables under the `cleared` keys of a level were given
back.  Tables of other keys and of the levels above stayed. -/
structure Clears (base : Nat → Nat) (level : Nat) (cleared : Nat → Prop)
    (s s' : Space) : Prop where
  root : s'.table.root = s.table.root
  gone : ∀ k, cleared k → s'.table.lookup level k = none
  other : ∀ l k, level ≤ l → ¬ (l = level ∧ cleared k) → s'.table.lookup l k = s.table.lookup l k
  fewer : ∀ l k, s.table.lookup l k = none → s'.table.lookup l k = none
  owns : Owns base s'

lemma Clears.noUserPages (h : Clears base level cleared s s') (hno : NoUserPages s) :
    NoUserPages s' :=
  fun page huser => h.fewer 0 page (hno page huser)

lemma clearEntry_spec {level k : Nat} {below : Nat → Space → Space} (hs : Owns base s)
    (hkey : UserKey (level + 1) k) (hbelow : Clears base level (· / 512 = k) s (below k s)) :
    Clears base (level + 1) (· = k) s (clearEntry below (level + 1) k s) := by
  rw [clearEntry]
  split
  · rename_i hvalid
    have hold : s.table.lookup (level + 1) k = some (s.table.entry (level + 1) k) :=
      lookup_eq_some.mpr ⟨hvalid, rfl⟩
    have hmid := hold
    rw [← hbelow.other (level + 1) k (by omega) (by omega)] at hmid
    have hempty : ∀ l j, l + 1 = level + 1 → j / 512 = k → (below k s).table.lookup l j = none := by
      intro l j hl hj
      obtain rfl : l = level := by omega
      exact hbelow.gone j hj
    have hlookup := fun l j => lookup_unlinkTable (t := (below k s).table) l j hempty
    have hhere := hlookup (level + 1) k
    rw [if_pos ⟨rfl, rfl⟩] at hhere
    have hother : ∀ l j, (l, j) ≠ (level + 1, k) →
        ((below k s).table.unlinkTable (level + 1) k).lookup l j =
          (below k s).table.lookup l j := by
      intro l j hne
      rw [hlookup, if_neg (by simpa using hne)]
    have hroot : ((below k s).table.unlinkTable (level + 1) k).root = (below k s).table.root := rfl
    have hwf := hbelow.owns.wf.remove hother hhere hempty
    have howns := (Owns.unhang hkey hroot hother hwf hbelow.owns hmid hhere).giveBack
    refine ⟨hbelow.root, ?_, ?_, ?_, howns⟩
    · rintro j rfl
      exact hhere
    · intro l j hl hne
      rw [← hbelow.other l j (by omega) (by omega)]
      exact hother l j (by simpa using hne)
    intro l j hnone
    rw [hlookup]
    split
    · rfl
    · exact hbelow.fewer l j hnone
  · rename_i hvalid
    refine ⟨rfl, ?_, fun _ _ _ _ => rfl, fun _ _ hnone => hnone, hs⟩
    rintro j rfl
    rw [lookup_eq_none]
    simpa using hvalid

lemma clearEach_spec {level : Nat} {below : Nat → Space → Space}
    (hbelow : ∀ s k, Owns base s → NoUserPages s → UserKey (level + 1) k →
      Clears base level (· / 512 = k) s (below k s))
    {keys : List Nat} (hkeys : ∀ k ∈ keys, UserKey (level + 1) k)
    (hs : Owns base s) (hno : NoUserPages s) :
    Clears base (level + 1) (· ∈ keys) s
      (keys.foldl (fun s k => clearEntry below (level + 1) k s) s) := by
  induction keys generalizing s with
  | nil => exact ⟨rfl, by simp, fun _ _ _ _ => rfl, fun _ _ hnone => hnone, hs⟩
  | cons k rest ih =>
    have hkey := hkeys k (mem_cons_self ..)
    have hfirst := clearEntry_spec hs hkey (hbelow s k hs hno hkey)
    have hrest := ih (fun j hj => hkeys j (mem_cons_of_mem _ hj))
      hfirst.owns (hfirst.noUserPages hno)
    rw [foldl_cons]
    refine ⟨hrest.root.trans hfirst.root, ?_, ?_, ?_, hrest.owns⟩
    · intro j hj
      rcases mem_cons.mp hj with rfl | hj
      · exact hrest.fewer _ _ (hfirst.gone j rfl)
      · exact hrest.gone j hj
    · intro l j hl hne
      simp only [mem_cons] at hne
      rw [hrest.other l j hl (by tauto), hfirst.other l j hl (by tauto)]
    · exact fun l j hnone => hrest.fewer l j (hfirst.fewer l j hnone)

lemma clearRecursive_spec (hlevel : level < 2)
    (hs : Owns base s) (hno : NoUserPages s) (hkey : UserKey (level + 1) k) :
    Clears base level (· / 512 = k) s (clearRecursive level k s) := by
  induction level generalizing s k with
  | zero =>
    refine ⟨rfl, ?_, fun _ _ _ _ => rfl, fun _ _ hnone => hnone, hs⟩
    rintro page rfl
    exact hno page ((userKey_parent (by omega)).mpr hkey).page
  | succ level ih =>
    have hkeys : ∀ j, j ∈ interval (k * 512) (k * 512 + 512) ↔ j / 512 = k := by
      intro j
      rw [mem_interval]
      omega
    have hall : Clears base (level + 1) (· ∈ interval (k * 512) (k * 512 + 512)) s
        (clearRecursive (level + 1) k s) :=
      clearEach_spec (fun s j hs hno hkey => ih (by omega) hs hno hkey)
        (fun j hj => (userKey_parent hlevel).mpr (((hkeys j).mp hj).symm ▸ hkey)) hs hno
    simp only [hkeys] at hall
    exact hall

lemma mem_clearKeys : k ∈ interval 0 kernelIndexStart ++
    interval (kernelIndexEnd + 1) 512 ↔ UserKey 2 k := by
  have hstart : kernelIndexStart = 0 := indexForVa_page 2 0
  have huser : isKernelKey 2 k = false ↔ 6 ≤ k := by simp [isKernelKey, kernelIndexEnd_eq]
  simp only [hstart, kernelIndexEnd_eq, mem_append, mem_interval]
  constructor
  · intro hk
    exact ⟨by omega, by norm_num; omega, huser.mpr (by omega)⟩
  intro hk
  have hlt := hk.lt
  have hle := huser.mp hk.user
  norm_num at hlt
  omega

lemma clear_spec (hs : Owns base s) (hno : NoUserPages s) : (clear s).table.root = s.table.root ∧
    (clear s).heap.badFree = false ∧
    ∀ page, (clear s).heap.issued.count page = withPage base s.table.root page := by
  have hall : Clears base 2 (· ∈ interval 0 kernelIndexStart ++
      interval (kernelIndexEnd + 1) 512) s (clear s) :=
    clearEach_spec (fun s k hs hno hkey => clearRecursive_spec (by omega) hs hno hkey)
      (fun k hk => mem_clearKeys.mp hk) hs hno
  -- what is left of the user part hangs below a top-level entry
  have htop : ∀ k, UserKey 2 k → (clear s).table.lookup 2 k = none :=
    fun k hk => hall.gone k (mem_clearKeys.mpr hk)
  have hmid : ∀ k, UserKey 1 k → (clear s).table.lookup 1 k = none :=
    fun k hk => hall.owns.wf 1 k (by omega) (htop _ ((userKey_parent (by omega)).mp hk))
  have hempty : ∀ level k, UserKey level k → (clear s).table.lookup level k = none := by
    intro level k hk
    have hlevel := hk.level_lt
    match level with
    | 0 => exact hall.noUserPages hno k hk.page
    | 1 => exact hmid k hk
    | 2 => exact htop k hk
  refine ⟨hall.root, hall.owns.honest, fun page => ?_⟩
  rw [hall.owns.count, held_of_empty hempty, hall.root, withPage]

end
end Redwing.Vm
