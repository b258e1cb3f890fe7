/-
No page is lost or handed out twice: the blocks of the callers, the cached
pages and the free blocks tile the managed range in every reachable state.
The invariant also accounts for blocks in the hand of the step that is being
taken, so each step is a chain of moves from one place to another.
-/
import Redwing.BuddySpec
import Redwing.PageCache

namespace Redwing.Buddy

open Function AlignedBlocks List Allocator State

namespace Allocator

variable {b : Allocator} {cached cached' : Nat → Prop}

lemma Wf.cache (h : Wf cached b) (hzero : b.freeCover pg = 0)
    (hcached : ∀ a, cached' a ↔ cached a ∨ a = pg) :
    Wf cached' (b.setPage pg ((b.pages pg).setLinked true)) := by
  have hfree := h.not_isFree_of_freeCover_eq_zero hzero
  refine ⟨h.page_aligned, h.aligned, ?_, ?_, ?_, ?_, h.counted, h.once⟩
  · intro k hk a hmem
    rw [setPage_pages]
    split
    · subst a
      exact absurd (h.head k hk pg hmem).1 (by simp [hfree])
    · exact h.head k hk a hmem
  · intro a ha
    rw [setPage_pages] at ha
    split at ha
    · subst a
      exact h.flagged pg ha
    · exact h.flagged a ha
  · intro a
    rw [setPage_pages, hcached]
    split
    · subst a
      simp
    · rename_i hne
      simpa [hne] using h.linked a
  intro a ha
  rcases (hcached a).mp ha with ha | rfl
  · exact h.not_cached a ha
  · exact hzero

lemma Wf.uncache (h : Wf cached b) (hpg : cached pg)
    (hcached : ∀ a, cached' a ↔ cached a ∧ a ≠ pg) :
    Wf cached' (b.setPage pg ((b.pages pg).setLinked false)) := by
  have hfree := h.not_isFree_of_freeCover_eq_zero (h.not_cached pg hpg)
  refine ⟨h.page_aligned, h.aligned, ?_, ?_, ?_, ?_, h.counted, h.once⟩
  · intro k hk a hmem
    rw [setPage_pages]
    split
    · subst a
      exact h.head k hk pg hmem
    · exact h.head k hk a hmem
  · intro a ha
    rw [setPage_pages] at ha
    split at ha
    · subst a
      exact h.flagged pg ha
    · exact h.flagged a ha
  · intro a
    rw [setPage_pages, hcached]
    split
    · subst a
      simp [hfree]
    · rename_i hne
      simpa [hne] using h.linked a
  · intro a ha
    exact h.not_cached a ((hcached a).mp ha).1

end Allocator

namespace State

variable {ncpu base limit cpu : Nat} {s : State} {hand : List (Nat × Nat)}

def cached (ncpu : Nat) (s : State) (a : Nat) : Prop := ∃ c < ncpu, a ∈ (s.cache c).cacheList

def cacheCover (ncpu : Nat) (s : State) (x : Nat) : Nat :=
  ∑ c ∈ Finset.range ncpu, coverage pgsize 0 (s.cache c).cacheList x

/-- Every address of the range is covered once by the free blocks, the cached
pages, the outstanding blocks and the blocks in `hand`. -/
structure Inv (ncpu base limit : Nat) (hand : List (Nat × Nat)) (s : State) :
    Prop where
  ok : Allocator.Ok (s.cached ncpu) s.buddy
  start : s.buddy.startAddress = base
  tiled : ∀ x, s.buddy.freeCover x + s.cacheCover ncpu x +
    mixedCoverage pgsize (hand ++ s.outstanding) x =
      if base ≤ x ∧ x < limit then 1 else 0
  cache_aligned : ∀ c < ncpu, ∀ a ∈ (s.cache c).cacheList, Aligned pgsize base 0 a
  out_aligned : ∀ block ∈ hand ++ s.outstanding,
    block.1 < maxOrder ∧ Aligned pgsize base block.1 block.2
  len : ∀ c < ncpu, (s.cache c).cacheListLen = (s.cache c).cacheList.length
  drains : ∀ c < ncpu, ∀ n, s.pc c = .drain n → n ≤ (s.cache c).cacheList.length
  running : s.panicked = false

lemma cell_le_cacheCover (hcpu : cpu < ncpu) (hmem : addr ∈ (s.cache cpu).cacheList) (x : Nat) :
    cell pgsize 0 addr x ≤ s.cacheCover ncpu x :=
  le_trans (cell_le_coverage hmem pgsize 0 x) (Finset.single_le_sum
      (f := fun c => coverage pgsize 0 (s.cache c).cacheList x)
      (fun _ _ => Nat.zero_le _) (Finset.mem_range.mpr hcpu))

lemma one_le_cacheCover_of_cached (hcached : s.cached ncpu addr) : 1 ≤ s.cacheCover ncpu addr := by
  obtain ⟨c, hc, hmem⟩ := hcached
  have hle := cell_le_cacheCover hc hmem addr
  rwa [cell_self (by decide)] at hle

lemma Inv.le_one (h : Inv ncpu base limit hand s) (x : Nat) :
    s.buddy.freeCover x + s.cacheCover ncpu x +
      mixedCoverage pgsize (hand ++ s.outstanding) x ≤ 1 := by
  rw [h.tiled]
  split <;> omega

/-! ## Moves between callers, caches and the allocator -/

lemma Inv.setPc (h : Inv ncpu base limit hand s) {pc : Pc}
    (hdrain : ∀ n, pc = .drain n → n ≤ (s.cache cpu).cacheList.length) :
    Inv ncpu base limit hand (s.setPc cpu pc) := by
  refine ⟨h.ok, h.start, h.tiled, h.cache_aligned, h.out_aligned, h.len, ?_, h.running⟩
  intro c hc n hn
  simp only [State.setPc, update_apply] at hn
  split at hn
  · subst c
    exact hdrain n hn
  · exact h.drains c hc n hn

lemma Inv.handOut (h : Inv ncpu base limit [(order, addr)] s) : Inv ncpu base limit []
    { s with outstanding := (order, addr) :: s.outstanding } :=
  ⟨h.ok, h.start, h.tiled, h.cache_aligned, h.out_aligned, h.len, h.drains, h.running⟩

lemma Inv.takeBack (h : Inv ncpu base limit [] s) (hmem : (order, addr) ∈ s.outstanding) :
    Inv ncpu base limit [(order, addr)]
      { s with outstanding := s.outstanding.erase (order, addr) } := by
  refine ⟨h.ok, h.start, ?_, h.cache_aligned, ?_, h.len, h.drains, h.running⟩
  · intro x
    have htiled := h.tiled x
    simp only [nil_append, ← mixedCoverage_erase hmem] at htiled
    simp only [singleton_append, mixedCoverage_cons, cacheCover] at htiled ⊢
    omega
  intro block hblock
  rcases mem_cons.mp hblock with rfl | hblock
  · exact h.out_aligned _ hmem
  · exact h.out_aligned _ (mem_of_mem_erase hblock)

lemma Inv.buddyAlloc (h : Inv ncpu base limit [] s) (horder : order < maxOrder) :
    ∃ result buddy, s.buddy.allocByOrder order = some (result, buddy) ∧
      Inv ncpu base limit (result.toList.map fun addr => (order, addr))
        { s with buddy := buddy } := by
  obtain ⟨result, buddy, hrun, hok, hstart, -, hresult⟩ := allocByOrder_spec h.ok horder
  refine ⟨result, buddy, hrun, hok, hstart.trans h.start, ?_, h.cache_aligned,
    ?_, h.len, h.drains, h.running⟩
  · intro x
    have htiled := h.tiled x
    cases result with
    | none =>
      obtain ⟨rfl, -⟩ := hresult
      exact htiled
    | some addr =>
      have hcover := hresult.2.1 x
      simp only [nil_append, cacheCover] at htiled
      simp only [Option.toList_some, map_cons, map_nil,
        singleton_append, mixedCoverage_cons, cacheCover]
      omega
  intro block hblock
  cases result with
  | none => exact h.out_aligned block hblock
  | some addr =>
    rcases mem_cons.mp hblock with rfl | hblock
    · exact ⟨horder, h.start ▸ hresult.1⟩
    · exact h.out_aligned block hblock

lemma Inv.buddyFree (h : Inv ncpu base limit [(order, addr)] s) :
    ∃ buddy, s.buddy.freeByOrder addr order = some buddy ∧
      Inv ncpu base limit [] { s with buddy := buddy } := by
  obtain ⟨horder, haligned⟩ : order < maxOrder ∧ Aligned pgsize base order addr :=
    h.out_aligned (order, addr) (by simp)
  have hle := h.le_one
  simp only [singleton_append, mixedCoverage_cons] at hle
  obtain ⟨buddy, hrun, hok, hstart, -, hcover⟩ :=
    freeByOrder_spec h.ok horder (h.start.symm ▸ haligned) (fun a ha => by
        have hcached := one_le_cacheCover_of_cached ha
        have hx := hle a
        omega)
      (fun x => by
        have hx := hle x
        omega)
  refine ⟨buddy, hrun, hok, hstart.trans h.start, ?_, h.cache_aligned, ?_,
    h.len, h.drains, h.running⟩
  · intro x
    have htiled := h.tiled x
    have hx := hcover x
    simp only [singleton_append, mixedCoverage_cons, cacheCover] at htiled
    simp only [nil_append, cacheCover]
    omega
  · intro block hblock
    exact h.out_aligned block (by simp_all)

lemma Inv.paddrToPage_eq (h : Inv ncpu base limit [(order, addr)] s) :
    paddrToPage addr = some addr :=
  h.ok.wf.paddrToPage_eq (h.start.symm ▸ (h.out_aligned (order, addr) (by simp)).2)

lemma setCache_cache (cache : PageCacheList) (c : Nat) :
    (s.setCache cpu cache).cache c = if c = cpu then cache else s.cache c := by
  simp [setCache, update_apply]

lemma setCache_cacheCover (hcpu : cpu < ncpu) (cache : PageCacheList) (x : Nat) :
    (s.setCache cpu cache).cacheCover ncpu x + coverage pgsize 0 (s.cache cpu).cacheList x =
      s.cacheCover ncpu x + coverage pgsize 0 cache.cacheList x := by
  have hsum := sum_update_add hcpu (fun c => coverage pgsize 0 (s.cache c).cacheList x)
    (fun c => coverage pgsize 0 ((s.setCache cpu cache).cache c).cacheList x)
    (fun c hc => by simp [setCache_cache, hc])
  simp only [setCache_cache cache cpu, if_true] at hsum
  exact hsum

lemma cached_setCache (hcpu : cpu < ncpu) (cache : PageCacheList) (a : Nat) :
    (s.setCache cpu cache).cached ncpu a ↔ a ∈ cache.cacheList ∨
      ∃ c < ncpu, c ≠ cpu ∧ a ∈ (s.cache c).cacheList := by
  constructor
  · rintro ⟨c, hc, hmem⟩
    rw [setCache_cache] at hmem
    split at hmem
    · exact .inl hmem
    · exact .inr ⟨c, hc, ‹_›, hmem⟩
  rintro (hmem | ⟨c, hc, hne, hmem⟩)
  · exact ⟨cpu, hcpu, by rwa [setCache_cache, if_pos rfl]⟩
  · exact ⟨c, hc, by rwa [setCache_cache, if_neg hne]⟩

lemma Inv.relink {pg : Nat} {linked : Bool} {cache : PageCacheList}
    {hand' : List (Nat × Nat)} (h : Inv ncpu base limit hand s)
    (hcpu : cpu < ncpu)
    (hwf : ((s.setLinked pg linked).setCache cpu cache).buddy.Wf
      (((s.setLinked pg linked).setCache cpu cache).cached ncpu))
    (hcover : ∀ x, coverage pgsize 0 cache.cacheList x + mixedCoverage pgsize hand' x =
      coverage pgsize 0 (s.cache cpu).cacheList x + mixedCoverage pgsize hand x)
    (hcache : ∀ a ∈ cache.cacheList, Aligned pgsize base 0 a)
    (hhand : ∀ block ∈ hand', block.1 < maxOrder ∧ Aligned pgsize base block.1 block.2)
    (hlen : cache.cacheListLen = cache.cacheList.length)
    (hdrain : ∀ n, s.pc cpu = .drain n → n ≤ cache.cacheList.length) :
    Inv ncpu base limit hand' ((s.setLinked pg linked).setCache cpu cache) := by
  have hget : ∀ c, ((s.setLinked pg linked).setCache cpu cache).cache c =
      if c = cpu then cache else s.cache c := setCache_cache cache
  refine ⟨⟨hwf, h.ok.sized⟩, h.start, ?_, ?_, ?_, ?_, ?_, h.running⟩
  · intro x
    have htiled := h.tiled x
    have hsum := setCache_cacheCover (s := s.setLinked pg linked) hcpu cache x
    have hx := hcover x
    change s.buddy.freeCover x + _ + mixedCoverage pgsize (hand' ++ s.outstanding) x = _
    change _ + coverage pgsize 0 (s.cache cpu).cacheList x = s.cacheCover ncpu x + _ at hsum
    rw [mixedCoverage_append] at htiled ⊢
    omega
  · intro c hc a ha
    rw [hget] at ha
    split at ha
    · exact hcache a ha
    · exact h.cache_aligned c hc a ha
  · intro block hblock
    rcases mem_append.mp hblock with hblock | hblock
    · exact hhand block hblock
    · exact h.out_aligned block (mem_append_right _ hblock)
  · intro c hc
    rw [hget]
    split
    · exact hlen
    · exact h.len c hc
  intro c hc n hn
  rw [hget]
  split
  · subst c
    exact hdrain n hn
  · exact h.drains c hc n hn

/-- The page in the hand goes to the front of a cache.  It is in no list, so
nothing panics. -/
lemma Inv.cachePush (h : Inv ncpu base limit [(0, addr)] s) (hcpu : cpu < ncpu) :
    ∃ t, s.cachePush cpu addr = some t ∧ Inv ncpu base limit [] t := by
  have hself : cell pgsize 0 addr addr = 1 := cell_self (by decide) _ _
  have hat := h.le_one addr
  simp only [singleton_append, mixedCoverage_cons] at hat
  have hzero : s.buddy.freeCover addr = 0 := by omega
  have hnot : ¬ s.cached ncpu addr := by
    intro hcached
    have hone := one_le_cacheCover_of_cached hcached
    omega
  have hlinked := h.ok.wf.not_linked (h.ok.wf.not_isFree_of_freeCover_eq_zero hzero) hnot
  have hrun : s.cachePush cpu addr = some ((s.setLinked addr true).setCache cpu
      ⟨addr :: (s.cache cpu).cacheList, (s.cache cpu).cacheListLen + 1⟩) := by
    simp [State.cachePush, hlinked]
  refine ⟨_, hrun, h.relink hcpu (h.ok.wf.cache hzero fun a => ?_) ?_ ?_ (by simp) ?_ ?_⟩
  · rw [cached_setCache hcpu]
    constructor
    · rintro (hmem | ⟨c, hc, _, hmem⟩)
      · rcases mem_cons.mp hmem with rfl | hmem
        · exact .inr rfl
        · exact .inl ⟨cpu, hcpu, hmem⟩
      · exact .inl ⟨c, hc, hmem⟩
    rintro (⟨c, hc, hmem⟩ | rfl)
    · by_cases hc' : c = cpu
      · subst c
        exact .inl (mem_cons_of_mem _ hmem)
      · exact .inr ⟨c, hc, hc', hmem⟩
    · exact .inl (by simp)
  · intro x
    simp only [coverage_cons, mixedCoverage_cons, mixedCoverage_nil]
    omega
  · intro a ha
    rcases mem_cons.mp ha with rfl | ha
    · exact (h.out_aligned (0, a) (by simp)).2
    · exact h.cache_aligned cpu hcpu a ha
  · simp [h.len cpu hcpu]
  · intro n hn
    have hle := h.drains cpu hcpu n hn
    simp only [length_cons]
    omega

lemma Inv.cacheRemove {rest : List Nat} (h : Inv ncpu base limit [] s)
    (hcpu : cpu < ncpu) (hperm : (s.cache cpu).cacheList.Perm (addr :: rest))
    (hdrain : ∀ n, s.pc cpu = .drain n → n ≤ rest.length) :
    Inv ncpu base limit [(0, addr)] (s.cacheRemove cpu addr rest) := by
  have hmem : addr ∈ (s.cache cpu).cacheList := hperm.mem_iff.mpr (by simp)
  have hcover : ∀ x, coverage pgsize 0 (s.cache cpu).cacheList x =
      cell pgsize 0 addr x + coverage pgsize 0 rest x := by
    intro x
    rw [← coverage_cons]
    exact (hperm.map _).sum_eq
  -- No other cached page covers the address of the removed one.
  have hgone : ∀ a, a ∈ rest ∨ (∃ c < ncpu, c ≠ cpu ∧ a ∈ (s.cache c).cacheList) → a ≠ addr := by
    rintro a hother rfl
    have hself : cell pgsize 0 a a = 1 := cell_self (by decide) _ _
    have hone := one_le_cacheCover_of_cached
      ((cached_setCache (s := s) hcpu ⟨rest, 0⟩ a).mpr hother)
    have hsum := setCache_cacheCover (s := s) hcpu ⟨rest, 0⟩ a
    have hle := h.le_one a
    have hx := hcover a
    simp only at hsum
    omega
  refine h.relink hcpu (h.ok.wf.uncache ⟨cpu, hcpu, hmem⟩ fun a => ?_) ?_ ?_ ?_ ?_ hdrain
  · rw [cached_setCache hcpu]
    constructor
    · intro hother
      refine ⟨?_, hgone a hother⟩
      rcases hother with hrest | ⟨c, hc, _, hmem⟩
      · exact ⟨cpu, hcpu, hperm.mem_iff.mpr (mem_cons_of_mem _ hrest)⟩
      · exact ⟨c, hc, hmem⟩
    rintro ⟨⟨c, hc, hmem⟩, hne⟩
    by_cases hc' : c = cpu
    · subst c
      exact .inl ((mem_cons.mp (hperm.mem_iff.mp hmem)).resolve_left hne)
    · exact .inr ⟨c, hc, hc', hmem⟩
  · intro x
    rw [hcover]
    simp only [mixedCoverage_cons, mixedCoverage_nil]
    omega
  · intro a ha
    exact h.cache_aligned cpu hcpu a (hperm.mem_iff.mpr (mem_cons_of_mem _ ha))
  · intro block hblock
    rw [mem_singleton.mp hblock]
    exact ⟨Nat.zero_lt_succ _, h.cache_aligned cpu hcpu addr hmem⟩
  · have hlen := hperm.length_eq
    simp [h.len cpu hcpu, hlen]

/-! ## One step -/

lemma Inv.setPc_of_not_drain (h : Inv ncpu base limit hand s) {pc : Pc}
    (hpc : ∀ n, pc ≠ .drain n) : Inv ncpu base limit hand (s.setPc cpu pc) :=
  h.setPc fun n hn => absurd hn (hpc n)

lemma Inv.allocPage (h : Inv ncpu base limit [] s) (hcpu : cpu < ncpu)
    (hpc : ∀ n, s.pc cpu ≠ .drain n) : Inv ncpu base limit [] (s.allocPage cpu) := by
  cases hlist : (s.cache cpu).cacheList with
  | nil =>
    simp only [State.allocPage, hlist]
    exact h.setPc_of_not_drain nofun
  | cons pg rest =>
    have hperm : (s.cache cpu).cacheList.Perm (pg :: rest) := by rw [hlist]
    have hremoved := h.cacheRemove hcpu hperm (fun n hn => absurd hn (hpc n))
    have hidle : Inv ncpu base limit [(0, pg)] ((s.cacheRemove cpu pg rest).setPc cpu .idle) :=
      hremoved.setPc_of_not_drain nofun
    simp only [State.allocPage, hlist]
    exact hidle.handOut

lemma Inv.refillStep (h : Inv ncpu base limit [] s) (hcpu : cpu < ncpu)
    {n oldLen : Nat} (hpc : s.pc cpu = .refill n oldLen) :
    ∃ t, s.refillStep cpu n oldLen = some t ∧ Inv ncpu base limit [] t := by
  cases n with
  | zero =>
    by_cases hlen : oldLen = (s.cache cpu).cacheListLen
    · exact ⟨s.setPc cpu .idle, by simp [State.refillStep, hlen], h.setPc_of_not_drain nofun⟩
    · exact ⟨s.allocPage cpu, by simp [State.refillStep, hlen], h.allocPage hcpu (by simp [hpc])⟩
  | succ n =>
    have horder : 0 < maxOrder := by decide
    obtain ⟨result, buddy, hrun, hinv⟩ := h.buddyAlloc horder
    cases result with
    | none =>
      refine ⟨State.setPc _ cpu (.refill 0 oldLen), ?_, hinv.setPc_of_not_drain nofun⟩
      simp [State.refillStep, hrun]
    | some pg =>
      have hpage := hinv.paddrToPage_eq
      obtain ⟨t, hpush, ht⟩ := hinv.cachePush hcpu
      refine ⟨t.setPc cpu (.refill n oldLen), ?_, ht.setPc_of_not_drain nofun⟩
      simp [State.refillStep, hrun, hpage, hpush]

lemma Inv.deallocPage (h : Inv ncpu base limit [(0, addr)] s) (hcpu : cpu < ncpu) :
    ∃ t, s.deallocPage cpu addr = some t ∧ Inv ncpu base limit [] t := by
  have hpage := h.paddrToPage_eq
  obtain ⟨t, hpush, ht⟩ := h.cachePush hcpu
  by_cases hlen : (t.cache cpu).cacheListLen < pageCacheListLimit
  · exact ⟨t, by simp [State.deallocPage, hpage, hpush, hlen], ht⟩
  refine ⟨t.setPc cpu (.drain pageCacheListBatchcount),
    by simp [State.deallocPage, hpage, hpush, hlen], ht.setPc ?_⟩
  intro n hn
  cases hn
  rw [ht.len cpu hcpu] at hlen
  simp only [pageCacheListLimit, pageCacheListBatchcount] at hlen ⊢
  omega

section

variable (h : Inv ncpu base limit [] s) (hcpu : cpu < ncpu)

include h hcpu

lemma Inv.drainStep {n : Nat} (hpc : s.pc cpu = .drain n) :
    ∃ t, s.drainStep cpu n = some t ∧ Inv ncpu base limit [] t := by
  cases n with
  | zero => exact ⟨s.setPc cpu .idle, rfl, h.setPc_of_not_drain nofun⟩
  | succ n =>
    have hlen := h.drains cpu hcpu (n + 1) hpc
    have hne : (s.cache cpu).cacheList ≠ [] := by
      intro hnil
      simp [hnil] at hlen
    obtain ⟨rest, pg, hlist⟩ : ∃ rest pg, (s.cache cpu).cacheList = rest ++ [pg] :=
      ⟨_, _, (dropLast_append_getLast hne).symm⟩
    have hrest : n ≤ rest.length := by simpa [hlist] using hlen
    have hperm : (s.cache cpu).cacheList.Perm (pg :: rest) := by
      rw [hlist]
      exact perm_append_singleton pg rest
    have hcounted : Inv ncpu base limit [] (s.setPc cpu (.drain n)) := by
      refine h.setPc ?_
      intro m hm
      cases hm
      omega
    have hremoved : Inv ncpu base limit [(0, pg)]
        ((s.setPc cpu (.drain n)).cacheRemove cpu pg rest) := by
      refine hcounted.cacheRemove hcpu hperm ?_
      intro m hm
      simp only [State.setPc, update_self, Pc.drain.injEq] at hm
      omega
    obtain ⟨buddy, hrun, hinv⟩ := hremoved.buddyFree
    refine ⟨_, ?_, hinv⟩
    have hfree : (s.cacheRemove cpu pg rest).buddy.freeByOrder pg 0 =
      some buddy := hrun
    simp only [State.drainStep, hlist, getLast?_append, getLast?_singleton,
      Option.some_or, Option.bind_eq_bind, Option.bind_some, dropLast_concat, hfree]
    rfl

lemma Inv.callAlloc (hpc : s.pc cpu = .idle) (horder : order < maxOrder) :
    ∃ t, s.callAlloc cpu order = some t ∧ Inv ncpu base limit [] t := by
  by_cases hzero : order = 0
  · exact ⟨s.allocPage cpu, by simp [State.callAlloc, hzero], h.allocPage hcpu (by simp [hpc])⟩
  obtain ⟨result, buddy, hrun, hinv⟩ := h.buddyAlloc horder
  cases result with
  | none => exact ⟨_, by simp [State.callAlloc, hzero, hrun], hinv⟩
  | some ptr =>
    refine ⟨_, ?_, hinv.handOut⟩
    simp [State.callAlloc, hzero, hrun]

lemma Inv.callFree (hmem : (order, addr) ∈ s.outstanding) :
    ∃ t, s.callFree cpu addr order = some t ∧ Inv ncpu base limit [] t := by
  have hback := h.takeBack hmem
  by_cases hzero : order = 0
  · subst order
    obtain ⟨t, hrun, ht⟩ := hback.deallocPage hcpu
    exact ⟨t, by simpa [State.callFree] using hrun, ht⟩
  obtain ⟨buddy, hrun, hinv⟩ := hback.buddyFree
  refine ⟨_, ?_, hinv⟩
  simp [State.callFree, hzero, hrun]

lemma Inv.advance : ∃ t, s.advance cpu = some t ∧ Inv ncpu base limit [] t := by
  cases hpc : s.pc cpu with
  | idle => exact ⟨s, by simp [State.advance, hpc], h⟩
  | refill n oldLen =>
    obtain ⟨t, hrun, ht⟩ := h.refillStep hcpu hpc
    exact ⟨t, by simp [State.advance, hpc, hrun], ht⟩
  | drain n =>
    obtain ⟨t, hrun, ht⟩ := h.drainStep hcpu hpc
    exact ⟨t, by simp [State.advance, hpc, hrun], ht⟩

end

lemma Inv.step (h : Inv ncpu base limit [] s) (action : Action)
    (hstep : s.step ncpu action = some t) : Inv ncpu base limit [] t := by
  simp only [State.step, h.running, Bool.false_eq_true, if_false] at hstep
  cases action with
  | allocByOrder cpu order =>
    simp only [Option.ite_none_right_eq_some, Option.some.injEq] at hstep
    obtain ⟨⟨hcpu, hpc, horder⟩, rfl⟩ := hstep
    obtain ⟨t, hrun, ht⟩ := h.callAlloc hcpu hpc horder
    simpa [orPanic, hrun] using ht
  | freeByOrder cpu ptr order =>
    simp only [Option.ite_none_right_eq_some, Option.some.injEq] at hstep
    obtain ⟨⟨hcpu, -, hmem⟩, rfl⟩ := hstep
    obtain ⟨t, hrun, ht⟩ := h.callFree hcpu hmem
    simpa [orPanic, hrun] using ht
  | advance cpu =>
    simp only [Option.ite_none_right_eq_some, Option.some.injEq] at hstep
    obtain ⟨⟨hcpu, -⟩, rfl⟩ := hstep
    obtain ⟨t, hrun, ht⟩ := h.advance hcpu
    simpa [orPanic, hrun] using ht

lemma inv_boot (ncpu : Nat) (hbase : pgsize ∣ base) (n : Nat) : Inv ncpu base
    (base + n * blockSize (maxOrder - 1)) [] (boot base (base + n * blockSize (maxOrder - 1))) := by
  obtain ⟨b, hinit, hok, hstart, -, hcover⟩ := init_spec hbase n
  have hcached : (boot base (base + n * blockSize (maxOrder - 1))).cached ncpu =
      fun _ => False := by
    funext a
    simp [cached, boot]
  refine ⟨?_, ?_, ?_, ?_, ?_, ?_, ?_, ?_⟩
  · rw [hcached]
    simpa [boot, hinit] using hok
  · simpa [boot, hinit] using hstart
  · intro x
    have hx := hcover x
    simpa [boot, hinit, cacheCover] using hx
  · simp [boot]
  · simp [boot]
  · simp [boot]
  · simp [boot]
  · simp [boot, hinit]

/-! ## Conservation -/

/-- The blocks in the hands of callers, the cached pages and the free blocks,
each as order and address. -/
def blocks (ncpu : Nat) (s : State) : List (Nat × Nat) :=
  s.outstanding ++ (List.range ncpu).flatMap (fun c => (s.cache c).cacheList.map fun a => (0, a)) ++
    (List.range maxOrder).flatMap (fun k => (s.buddy.freeArea k).list.map fun a => (k, a))

/-- Nothing is lost, nothing is shared and the books are right. -/
structure Conserved (ncpu base limit : Nat) (s : State) : Prop where
  disjoint : (s.blocks ncpu).Pairwise (Apart pgsize)
  aligned : ∀ block ∈ s.blocks ncpu, Aligned pgsize base block.1 block.2
  inside : ∀ block ∈ s.blocks ncpu, block.2 + Allocator.blockSize block.1 ≤ limit
  covers : ∀ x, base ≤ x → x < limit → ∃ block ∈ s.blocks ncpu,
    block.2 ≤ x ∧ x < block.2 + Allocator.blockSize block.1
  start : s.buddy.startAddress = base
  flags : ∀ a, (s.buddy.pages a).isFree = true ↔ ∃ k < maxOrder, a ∈ (s.buddy.freeArea k).list
  orders : ∀ k < maxOrder, ∀ a ∈ (s.buddy.freeArea k).list,
    (s.buddy.pages a).pgfOrder = BitVec.ofNat 8 k
  nr_free : ∀ k < maxOrder, (s.buddy.freeArea k).nrFree = (s.buddy.freeArea k).list.length
  free_size : s.buddy.freeSize = ∑ k ∈ Finset.range maxOrder,
    (s.buddy.freeArea k).list.length * Allocator.blockSize k
  no_panic : s.panicked = false

lemma mixedCoverage_blocks (s : State) :
    mixedCoverage pgsize (s.blocks ncpu) x =
      mixedCoverage pgsize s.outstanding x + s.cacheCover ncpu x +
        s.buddy.freeCover x := by
  simp only [blocks, mixedCoverage_append, mixedCoverage_flatMap,
    mixedCoverage_map, cacheCover, freeCover]

lemma Inv.aligned_of_mem_blocks (h : Inv ncpu base limit [] s) (hmem : block ∈ s.blocks ncpu) :
    Aligned pgsize base block.1 block.2 := by
  simp only [blocks, mem_append, mem_flatMap, mem_range, mem_map] at hmem
  rcases hmem with (hout | ⟨c, hc, a, ha, rfl⟩) | ⟨k, hk, a, ha, rfl⟩
  · exact (h.out_aligned block hout).2
  · exact h.cache_aligned c hc a ha
  · exact h.start ▸ h.ok.wf.aligned k hk a ha

lemma Inv.conserved (h : Inv ncpu base limit [] s) : Conserved ncpu base limit s := by
  have htiled : ∀ x, mixedCoverage pgsize (s.blocks ncpu) x =
      if base ≤ x ∧ x < limit then 1 else 0 := by
    intro x
    have hx := h.tiled x
    rw [nil_append] at hx
    rw [mixedCoverage_blocks]
    omega
  refine ⟨?_, fun block => h.aligned_of_mem_blocks, ?_, ?_, h.start, ?_, ?_,
    h.ok.wf.counted, h.ok.sized, h.running⟩
  · refine pairwise_apart_of_mixedCoverage_le_one (by decide) fun x => ?_
    rw [htiled]
    split <;> omega
  · intro block hmem
    -- The last byte of the block is covered, so it lies in the range.
    have hpos := blockSize_pos block.1
    have herase := mixedCoverage_erase hmem pgsize (block.2 + blockSize block.1 - 1)
    have hlast : cell pgsize block.1 block.2 (block.2 + blockSize block.1 - 1) = 1 := by
      refine cell_eq_one_iff.mpr ⟨by omega, ?_⟩
      simp only [blockSize] at hpos ⊢
      omega
    rw [hlast, htiled] at herase
    split at herase <;> omega
  · intro x hle hlt
    have hpos : 0 < mixedCoverage pgsize (s.blocks ncpu) x := by
      rw [htiled, if_pos ⟨hle, hlt⟩]
      omega
    obtain ⟨block, hmem, hone⟩ := exists_mem_of_mixedCoverage_pos hpos
    exact ⟨block, hmem, cell_eq_one_iff.mp hone⟩
  · intro a
    refine ⟨h.ok.wf.flagged a, ?_⟩
    rintro ⟨k, hk, ha⟩
    exact (h.ok.wf.head k hk a ha).1
  · intro k hk a ha
    exact (h.ok.wf.head k hk a ha).2

end State

/-- In every state that any number of CPUs reach by allocating and freeing, the
outstanding blocks, the cached pages and the free blocks tile the range, the
page flags mark exactly the heads of the free blocks, the counters are right
and no assertion has failed. -/
theorem conserved_of_reachable (ncpu n : Nat) {base : Nat} (hbase : pgsize ∣ base) {s : State}
    (hs : (machine ncpu base (base + n * blockSize (maxOrder - 1))).Reachable s) :
    s.Conserved ncpu base (base + n * blockSize (maxOrder - 1)) := by
  have hinv : State.Inv ncpu base (base + n * blockSize (maxOrder - 1)) [] s := by
    refine Machine.ReachableUnder.invariant ?_ ?_ hs
    · rintro s rfl
      exact inv_boot ncpu hbase n
    · intro s action t h _ hstep
      exact h.step action hstep
  exact hinv.conserved

/-- CPU 1 allocates eight pages while CPU 0 refills its cache, and gives back
both its block and the page of CPU 0. -/
def sharedTrace : List Action :=
  [.allocByOrder 0 0, .allocByOrder 1 3] ++ List.replicate 17 (.advance 0) ++
    [.freeByOrder 1 0x80000000 3, .freeByOrder 1 0x80017000 0]

def sharedState : State :=
  ((machine 2 0x80000000 0x80100000).run (State.boot 0x80000000 0x80100000)
    sharedTrace).getD (State.boot 0x80000000 0x80100000)

theorem sharedTrace_conserved :
    (machine 2 0x80000000 0x80100000).run (boot 0x80000000 0x80100000)
        sharedTrace = some sharedState ∧
      (sharedState.cache 1).cacheList = [0x80017000] ∧
      sharedState.Conserved 2 0x80000000 0x80100000 := by
  have hsome : ((machine 2 0x80000000 0x80100000).run
      (boot 0x80000000 0x80100000) sharedTrace).isSome = true := by
    decide +kernel
  have hrun : (machine 2 0x80000000 0x80100000).run
      (boot 0x80000000 0x80100000) sharedTrace = some sharedState := by
    obtain ⟨t, ht⟩ := Option.isSome_iff_exists.mp hsome
    rw [sharedState, ht, Option.getD_some]
  have hcache : (sharedState.cache 1).cacheList = [0x80017000] := by decide +kernel
  exact ⟨hrun, hcache, conserved_of_reachable 2 1 (by decide)
    (Machine.Reachable.run (.start rfl) hrun)⟩

end Redwing.Buddy
