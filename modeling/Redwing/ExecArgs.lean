/-
The arguments and the environment of a new program: what `write` puts into
the pages of the stack, which pages `init_user_stack` provides, and that the
program reads the two lists that `execve` was given.
-/
import Redwing.ExecStack
import Redwing.ElfFaithful

namespace Redwing.Exec

open Vm Walks Elf CStrings List

/-! ### Writing into mapped pages -/

def stackPerm : EntryPerm := (EntryPerm.withRw.union .onlyUser).union .onlyValid

/-- The pages from `lo` up to `hi` are mapped for the program, each to a page
frame of its own that the kernel can write. -/
structure Window (vm : VMInner) (lo hi : Nat) : Prop where
  wf : vm.pgTable.Wf
  limit : hi ≤ 134217728
  page : ∀ v, lo ≤ v → v < hi → ∃ e, vm.pgTable.lookup 0 v = some e ∧
    e.perm = stackPerm ∧ isValidPhyAddr e.physicalAddr = true
  apart : ∀ v w, lo ≤ v → v < hi → lo ≤ w → w < hi → ∀ e e',
    vm.pgTable.lookup 0 v = some e → vm.pgTable.lookup 0 w = some e' →
    e.physicalAddr = e'.physicalAddr → v = w

/-- The bytes were written at `start`, and nothing else in the pages from `lo`
up to `hi` changed. -/
structure Written (vm : VMInner) (lo hi start : Nat) (bytes : List UInt8)
    (h h' : Heap) : Prop where
  holds : Holds (userLoad vm h') start bytes
  other : ∀ addr, lo * 4096 ≤ addr → addr < hi * 4096 → addr < start ∨ start + bytes.length ≤ addr →
    userLoad vm h' addr = userLoad vm h addr
  issued : h'.issued = h.issued
  badFree : h'.badFree = h.badFree

section

variable {vm : VMInner} {va : Nat} {bytes : List UInt8} {h h' h'' : Heap}

lemma Written.nil (vm : VMInner) (lo hi start : Nat) (h : Heap) :
    Written vm lo hi start [] h h where
  holds := nofun
  other _ _ _ _ := rfl
  issued := rfl
  badFree := rfl

variable {e : Pte}

lemma Written.keeps (hw : Written vm lo hi start bytes h h')
    {old : List UInt8} (hold : Holds (userLoad vm h) addr old)
    (hlo : lo * 4096 ≤ addr) (hhi : addr + old.length ≤ hi * 4096)
    (hout : addr + old.length ≤ start ∨ start + bytes.length ≤ addr) :
    Holds (userLoad vm h') addr old := by
  apply hold.congr
  intro x hx hx'
  exact hw.other x (by omega) (by omega) (by omega)

lemma Written.append (hw : Written vm lo hi start bytes h h')
    (hw' : Written vm lo hi (start + bytes.length) rest h' h'') (hlo : lo * 4096 ≤ start)
    (hhi : start + bytes.length ≤ hi * 4096) : Written vm lo hi start (bytes ++ rest) h h'' where
  holds := holds_append.mpr ⟨hw'.keeps hw.holds hlo hhi (.inl le_rfl), hw'.holds⟩
  other addr haddr haddr' hout := by
    rw [length_append] at hout
    rw [hw'.other addr haddr haddr' (by omega), hw.other addr haddr haddr' (by omega)]
  issued := hw'.issued.trans hw.issued
  badFree := hw'.badFree.trans hw.badFree

lemma va2pa_eq (vm : VMInner) (hwf : vm.pgTable.Wf) {v : Nat} (hv : v < 134217728)
    (he : vm.pgTable.lookup 0 v = some e) : va2pa vm (v * 4096) = some (some e.physicalAddr) := by
  rw [va2pa, getEntry_eq hwf hv, he]
  rfl

lemma userLoad_eq (hw : Window vm lo hi) (hlo : lo ≤ addr / 4096) (hhi : addr / 4096 < hi)
    (he : vm.pgTable.lookup 0 (addr / 4096) = some e) :
    userLoad vm h addr = some (UInt8.ofBitVec (h.mem e.physicalAddr (addr % 4096))) := by
  have hlimit := hw.limit
  have haddr : addr < vaLimit := by
    rw [vaLimit]
    omega
  obtain ⟨e', he', hperm, -⟩ := hw.page _ hlo hhi
  cases he.symm.trans he'
  have hallowed : (e.perm.user && e.perm.readable) = true := by
    rw [hperm]
    rfl
  simp [userLoad, translate_eq haddr, he, hallowed]

lemma userLoad_congr {vm' : VMInner}
    (haddr : addr < vaLimit) (he : vm.pgTable.lookup 0 (addr / 4096) = some e)
    (he' : vm'.pgTable.lookup 0 (addr / 4096) = some e)
    (hmem : h'.mem e.physicalAddr = h.mem e.physicalAddr) :
    userLoad vm' h' addr = userLoad vm h addr := by
  simp [userLoad, translate_eq haddr, he, he', hmem]

lemma storeBytes_of_ne {page other : Nat} (hne : other ≠ page) (bytes : List UInt8) (h : Heap) :
    (storeBytes page offset bytes h).mem other = h.mem other := by
  simp only [storeBytes, Function.update_of_ne hne]

lemma storeBytes_written (hw : Window vm lo hi) {v : Nat} (hlo : lo ≤ v) (hhi : v < hi)
    (he : vm.pgTable.lookup 0 v = some e) (offset : Nat) (bytes : List UInt8)
    (hfit : offset + bytes.length ≤ 4096) (h : Heap) :
    Written vm lo hi (v * 4096 + offset) bytes h (storeBytes e.physicalAddr offset bytes h) := by
  refine ⟨fun i b hb => ?_, fun addr haddr haddr' hout => ?_, rfl, rfl⟩
  · obtain ⟨hi, rfl⟩ := List.getElem?_eq_some_iff.mp hb
    have hpage : (v * 4096 + offset + i) / 4096 = v := by omega
    have hoffset : (v * 4096 + offset + i) % 4096 = offset + i := by omega
    rw [userLoad_eq hw (by omega) (by omega) (hpage ▸ he), hoffset]
    simp [storeBytes, hi]
  obtain ⟨e', he', -⟩ := hw.page (addr / 4096) (by omega) (by omega)
  rw [userLoad_eq hw (by omega) (by omega) he', userLoad_eq hw (by omega) (by omega) he']
  by_cases hsame : e'.physicalAddr = e.physicalAddr
  · have hv := hw.apart _ _ (by omega) (by omega) hlo hhi _ _ he' he hsame
    have hoff : ¬ (offset ≤ addr % 4096 ∧ addr % 4096 < offset + bytes.length) := by omega
    simp [storeBytes, hsame, if_neg hoff]
  · rw [storeBytes_of_ne hsame]

lemma write_written (hw : Window vm lo hi) (va : Nat) (bytes : List UInt8)
    (hlo : lo * 4096 ≤ va) (hhi : va + bytes.length ≤ hi * 4096) (h : Heap) :
    ∃ h', write vm va bytes h = some (h', .ok (va + bytes.length)) ∧
      Written vm lo hi va bytes h h' := by
  induction hn : bytes.length using Nat.strong_induction_on generalizing va bytes h with
  | _ n ih =>
    subst hn
    by_cases hempty : bytes = []
    · subst hempty
      exact ⟨h, by rw [write, dif_pos rfl]; rfl, .nil vm lo hi va h⟩
    have hpos := length_pos_iff.mpr hempty
    obtain ⟨e, he, -, hphys⟩ := hw.page (va / 4096) (by omega) (by omega)
    have hlimit := hw.limit
    have hentry := va2pa_eq vm hw.wf (by omega) he
    -- one round copies what fits into the page
    obtain ⟨cp, hcp⟩ : ∃ cp, cp = min bytes.length (4096 - va % 4096) := ⟨_, rfl⟩
    have hfirst := storeBytes_written hw (by omega) (by omega) he (va % 4096)
      (bytes.take cp) (by rw [length_take]; omega) h
    have hva : va / 4096 * 4096 + va % 4096 = va := by omega
    have htake : (bytes.take cp).length = cp := by
      rw [length_take]
      omega
    have hdrop : (bytes.drop cp).length = bytes.length - cp := length_drop
    rw [hva] at hfirst
    obtain ⟨h', hrun, hrest⟩ := ih (bytes.length - cp) (by omega) (va + cp) (bytes.drop cp)
      (by omega) (by omega) (storeBytes e.physicalAddr (va % 4096) (bytes.take cp) h) hdrop
    refine ⟨h', ?_, ?_⟩
    · rw [write, dif_neg hempty, hentry]
      simp only [hphys, if_true, ← hcp, hrun]
      rw [show va + cp + (bytes.length - cp) = va + bytes.length by omega]
    · have hboth := hfirst.append (by rw [htake]; exact hrest) hlo (by omega)
      rwa [take_append_drop] at hboth

lemma length_terminated (cstrs : List (List UInt8)) :
    (terminated cstrs).length = (cstrs.map fun arg => arg.length + 1).sum := by
  simp [terminated, length_flatMap]

lemma writeCstrs_written (hw : Window vm lo hi) (va : Nat) (cstrs : List (List UInt8))
    (hlo : lo * 4096 ≤ va) (hhi : va + (terminated cstrs).length ≤ hi * 4096) (h : Heap) :
    ∃ h', writeCstrs vm cstrs va h = some (h', .ok (va + (terminated cstrs).length)) ∧
      Written vm lo hi va (terminated cstrs) h h' := by
  induction cstrs generalizing va h with
  | nil => exact ⟨h, rfl, .nil vm lo hi va h⟩
  | cons arg cstrs ih =>
    have hsplit : terminated (arg :: cstrs) = arg ++ ([0] ++ terminated cstrs) := by
      simp [terminated]
    rw [hsplit, length_append, length_append, length_singleton] at hhi
    obtain ⟨h₁, hrun₁, hw₁⟩ := write_written hw va arg hlo (by omega) h
    obtain ⟨h₂, hrun₂, hw₂⟩ := write_written hw (va + arg.length) [0]
      (by omega) (by rw [length_singleton]; omega) h₁
    obtain ⟨h₃, hrun₃, hw₃⟩ := ih (va + arg.length + 1) (by omega) (by omega) h₂
    refine ⟨h₃, ?_, ?_⟩
    · rw [writeCstrs, hrun₁, andThen_ok, hrun₂, andThen_ok, length_singleton, hrun₃, hsplit,
        length_append, length_append, length_singleton]
      rw [← add_assoc, ← add_assoc]
    rw [hsplit]
    exact hw₁.append (hw₂.append hw₃ (by omega) (by rw [length_singleton]; omega)) hlo (by omega)

end

/-! ### The blocks -/

def block (cstrs : List (List UInt8)) : List UInt8 := wordBytes cstrs.length ++ terminated cstrs

section

variable {cstrs : List (List UInt8)} {a : AddrSpace}

lemma length_block (cstrs : List (List UInt8)) :
    (block cstrs).length = 8 + (terminated cstrs).length := by
  rw [block, length_append, length_wordBytes]

lemma cstrsLayoutSz_bounds (cstrs : List (List UInt8)) :
    (block cstrs).length ≤ cstrsLayoutSz cstrs ∧ cstrsLayoutSz cstrs % 8 = 0 := by
  rw [length_block, length_terminated, cstrsLayoutSz, alignToWord]
  omega

lemma length_le_block (cstrs : List (List UInt8)) : cstrs.length ≤ (block cstrs).length := by
  rw [length_block, length_terminated]
  induction cstrs with
  | nil => simp
  | cons arg cstrs ih =>
    simp only [length_cons, map_cons, sum_cons]
    omega

lemma block_fits {size len : Nat} (hlen : 8 + len ≤ size)
    (hlo : lo * 4096 + size ≤ sp) (hhi : sp ≤ hi * 4096) :
    lo * 4096 ≤ sp - size ∧ sp - size + 8 ≤ hi * 4096 ∧ sp - size + 8 + len ≤ hi * 4096 := by
  omega

lemma pushCstrArray_written (hw : Window a.vm lo hi) {maxLen : Nat}
    (hmax : cstrsLayoutSz cstrs ≤ maxLen)
    (hlo : lo * 4096 + cstrsLayoutSz cstrs ≤ sp) (hhi : sp ≤ hi * 4096) :
    ∃ heap, pushCstrArray sp cstrs maxLen a =
        some ({ a with heap }, .ok (sp - cstrsLayoutSz cstrs)) ∧
      Written a.vm lo hi (sp - cstrsLayoutSz cstrs) (block cstrs) a.heap
        heap := by
  have hword := length_wordBytes cstrs.length
  have hbound := (cstrsLayoutSz_bounds cstrs).1
  rw [length_block] at hbound
  obtain ⟨hstart, hcount, hstrings⟩ := block_fits hbound hlo hhi
  obtain ⟨h₁, hrun₁, hw₁⟩ := write_written hw _ (wordBytes cstrs.length)
    hstart (hword ▸ hcount) a.heap
  rw [hword] at hrun₁
  obtain ⟨h₂, hrun₂, hw₂⟩ := writeCstrs_written hw _ cstrs
    (Nat.le_add_right_of_le hstart) hstrings h₁
  refine ⟨h₂, ?_, hw₁.append (hword ▸ hw₂) hstart (hword ▸ hcount)⟩
  rw [pushCstrArray, if_neg (not_lt.mpr hmax)]
  simp [hrun₁, andThen_ok, hrun₂]

lemma readCstrArray_block {mem : Memory} {ptr : Nat} (halign : ptr % 8 = 0)
    (hzero : ∀ s ∈ cstrs, 0 ∉ s) (hsize : (block cstrs).length ≤ vaLimit)
    (h : Holds mem ptr (block cstrs)) : readCstrArray mem ptr = some cstrs := by
  have hcount := length_le_block cstrs
  have hlength := length_block cstrs
  obtain ⟨hword, hstrings⟩ := holds_append.mp h
  rw [length_wordBytes] at hstrings
  have hload := loadWord_of_holds (by rw [vaLimit] at hsize; omega) hword
  rw [readCstrArray, if_neg (by omega), hload]
  exact loadStrings_of_holds hzero (by omega) hstrings

end

/-! ### The pages of the stack -/

section

variable {base : Nat → Nat} {a a' : AddrSpace}

lemma heap_held (h : Held base a) {heap : Heap} (hissued : heap.issued = a.heap.issued)
    (hhonest : heap.badFree = a.heap.badFree) : Held base { a with heap } := by
  refine ⟨⟨h.owns.wf, fun page => ?_, hhonest.trans h.owns.honest⟩, h.segs⟩
  exact (congrArg (count page) hissued).trans (h.owns.count page)

/-- An address space in which a program was loaded, and nothing else. -/
structure Image (base : Nat → Nat) (a : AddrSpace) : Prop where
  held : Held base a
  size : a.vm.userSpaceSize = 0
  areas : ∀ area ∈ a.vm.areaList, userElfBaseVaddr ≤ area.va.val

variable {perm : EntryPerm} {file : ExecFile}

lemma allocSegment_eq_ok {va size : PageAligned}
    (hrun : allocSegment src refused va size perm a = some (a', .ok ())) :
    ∃ s, vmap src refused va.val size.val perm a.space = some (s, .ok ()) ∧
      a' = (a.put s).setAreas (a.vm.areaList ++ [⟨va, size, perm⟩]) := by
  rw [allocSegment] at hrun
  split at hrun
  · cases hrun
  · cases hrun
  rename_i s hvmap
  refine ⟨s, hvmap, ?_⟩
  rw [addArea] at hrun
  split at hrun
  · cases hrun
  rename_i list hadd
  cases hrun
  split at hadd
  · cases hadd
  · cases hadd
    rfl

lemma copyLoop_frame {p : ProgramHeader} {pages : List Nat} {fileOffset : Nat} {h h' : Heap}
    {result : Except LoadError Unit}
    (hrun : copyLoop file p pages fileOffset h = some (h', result)) :
    h'.issued = h.issued ∧ h'.badFree = h.badFree := by
  induction pages generalizing fileOffset h with
  | nil =>
    rw [copyLoop] at hrun
    split at hrun
    · cases hrun
    · cases hrun
      exact ⟨rfl, rfl⟩
  | cons page rest ih =>
    rw [copyLoop] at hrun
    split at hrun
    · simp only at hrun
      split at hrun
      · cases hrun
      split at hrun
      · cases hrun
        exact ⟨rfl, rfl⟩
      · have hrest := ih hrun
        exact hrest
    · cases hrun
      exact ⟨rfl, rfl⟩

lemma Image.loadSegment (h : Image base a) {p : ProgramHeader} (hp : p.Bounds)
    (hrun : loadSegment src refused file p a = some (a', .ok ())) : Image base a' := by
  rw [loadSegment_eq hp] at hrun
  split at hrun
  · cases hrun
  · cases hrun
  rename_i a₁ halloc
  split at hrun
  · cases hrun
  rename_i heap result hcopy
  cases hrun
  have hheld := (allocSegment_spec p.area h.held (segmentAllowed_area hp) halloc).1
  obtain ⟨hissued, hhonest⟩ := copyLoop_frame hcopy
  refine ⟨heap_held hheld hissued hhonest, ?_, ?_⟩
  · obtain ⟨s, -, rfl⟩ := allocSegment_eq_ok halloc
    exact h.size
  obtain ⟨s, -, rfl⟩ := allocSegment_eq_ok halloc
  intro area harea
  rcases mem_append.mp harea with hold | hnew
  · exact h.areas area hold
  obtain rfl := mem_singleton.mp hnew
  have hbase := hp.base
  change userElfBaseVaddr ≤ p.area.va.val
  rw [area_va, userElfBaseVaddr]
  omega

lemma Image.loadElf (h : Image base a) {hdr : ElfHeader}
    (hrun : loadElf src refused file a = some (a', .ok hdr)) : Image base a' := by
  rw [Elf.loadElf] at hrun
  split at hrun
  · cases hrun
  split at hrun
  · cases hrun
  split at hrun
  · cases hrun
  · cases hrun
  rename_i hdr' _ _ _ hloop
  cases hrun
  refine tryEach_outcome (fun _ a => Image base a) (fun _ _ => True) ?_ h hloop
  intro before index after a out _ hinv hbody
  rw [loadPhdr] at hbody
  split at hbody
  · cases hbody
  · cases hbody
    trivial
  split at hbody
  · cases hbody
    exact hinv
  split at hbody
  · cases hbody
    trivial
  rename_i hvalid
  obtain ⟨a', result⟩ := out
  cases result with
  | error e => trivial
  | ok => exact hinv.loadSegment (ProgramHeader.bounds hvalid) hbody

lemma uvalloc_eager (h : Held base a) {newSz : Nat} (hlt : a.vm.userEndPage < endPage newSz)
    (hrun : uvalloc src refused newSz perm false a = some (a', .ok ())) :
    ∃ s, vmap src refused (a.vm.userEndPage * 4096) (endPage newSz * 4096 - a.vm.userEndPage * 4096)
        (perm.union .onlyUser) a.space = some (s, .ok ()) ∧
      a' = (a.put s).setSize newSz ∧
      Maps base refused ((perm.union .onlyUser).union .onlyValid)
        a.vm.userEndPage (endPage newSz - lastChunk (endPage newSz)) a.space
        s := by
  have hold := (pgRoundUp a.vm.userSpaceSize).val_eq
  have hnew := (pgRoundUp newSz).val_eq
  have hpages : (pgRoundUp a.vm.userSpaceSize).page < (pgRoundUp newSz).page :=
    Nat.lt_of_add_lt_add_left hlt
  rw [uvalloc] at hrun
  simp only at hrun
  split at hrun
  · cases hrun
  rename_i hfits
  rw [if_neg (by omega), if_pos (by omega), if_neg Bool.false_ne_true,
    userBase_add, sub_val, ← VMInner.userEndPage, ← endPage] at hrun
  split at hrun
  · cases hrun
  · rename_i s hvmap
    cases hrun
    have hlimit : endPage newSz < 134217728 :=
      lt_of_le_of_lt (userEndPage_le (not_lt.mp hfits)) (by decide)
    exact ⟨s, hvmap, rfl,
      vmap_spec h.owns (kernelPages_le_endPage a.vm.userSpaceSize) (le_of_lt hlt) hlimit hvmap⟩
  · cases hrun

lemma endPage_pages : endPage (n * 4096) = userBasePage + n := by
  simp only [endPage, pgRoundUp, PageAligned.page]
  omega

lemma uvalloc_pages (h : Held base a) {n m : Nat} (hold : a.vm.userSpaceSize = n * 4096)
    (hlt : n < m) (hm : ¬ 512 ∣ userBasePage + m)
    (hrun : uvalloc src refused (m * 4096) perm false a = some (a', .ok ())) :
    Held base a' ∧ a'.vm.userSpaceSize = m * 4096 ∧ a'.vm.areaList = a.vm.areaList ∧
      (∀ h₀, NewPages h₀ a.heap → NewPages h₀ a'.heap) ∧
      Maps base refused ((perm.union .onlyUser).union .onlyValid)
        (userBasePage + n) (userBasePage + m) a.space a'.space := by
  have hend : a.vm.userEndPage = userBasePage + n := by
    rw [VMInner.userEndPage, hold]
    exact endPage_pages
  have hgrow : a.vm.userEndPage < endPage (m * 4096) := by
    rw [hend, endPage_pages]
    exact Nat.add_lt_add_left hlt _
  obtain ⟨s, hvmap, rfl, hmaps⟩ := uvalloc_eager h hgrow hrun
  rw [hend, endPage_pages, lastChunk_eq_zero hm, Nat.sub_zero] at hmaps
  exact ⟨(uvalloc_spec h hrun).1, rfl, rfl, fun _ hnew => hnew.vmap hvmap, hmaps⟩

lemma uvalloc_lazy {n m : Nat} (hold : a.vm.userSpaceSize = n * 4096) (hlt : n < m)
    (hrun : uvalloc src refused (m * 4096) .withRw true a = some (a', .ok ())) :
    a' = a.setSize (m * 4096) := by
  have hval : ∀ k, (pgRoundUp (k * 4096)).val = k * 4096 := by
    intro k
    simp only [pgRoundUp]
    omega
  rw [uvalloc, hold, hval, hval] at hrun
  simp only [↓reduceIte] at hrun
  split at hrun
  · cases hrun
  rw [if_neg (by omega), if_pos (by omega)] at hrun
  cases hrun
  rfl

lemma initUserStack_window (h : Image base a) {sp : Nat}
    (hrun : initUserStack src refused a = some (a', .ok sp))
    (hframes : ∀ p ∈ a'.heap.issued, isValidPhyAddr p = true) :
    sp = (userBasePage + 33) * 4096 ∧ Held base a' ∧ a'.vm.areaList = a.vm.areaList ∧
      Window a'.vm (userBasePage + 29) (userBasePage + 33) := by
  obtain ⟨a₁, ⟨⟩, hguard, hrun⟩ := andThen_eq_ok hrun
  obtain ⟨a₂, ⟨⟩, hlazy, hrun⟩ := andThen_eq_ok hrun
  obtain ⟨a₃, ⟨⟩, heager, hrun⟩ := andThen_eq_ok hrun
  obtain ⟨a₄, ⟨⟩, hguard', hrun⟩ := andThen_eq_ok hrun
  cases hrun
  rw [uvgrowPage, h.size] at hguard
  obtain ⟨hheld₁, hsize₁, hareas₁, -⟩ := uvalloc_pages h.held (n := 0)
    (m := 1) h.size Nat.one_pos (by decide) hguard
  rw [hsize₁] at hlazy heager ⊢
  -- the lazy part only moves the end of the user space
  obtain rfl := uvalloc_lazy (m := 29) hsize₁ (by decide) hlazy
  have hheld₂ := (uvalloc_spec hheld₁ hlazy).1
  obtain ⟨hheld₃, hsize₃, hareas₃, hnew, hmaps⟩ := uvalloc_pages hheld₂
    (n := 29) (m := 33) rfl (by decide) (by decide) heager
  rw [uvgrowPage, hsize₃] at hguard'
  obtain ⟨hheld₄, -, hareas₄, hnew', hmaps'⟩ := uvalloc_pages hheld₃
    (n := 33) (m := 34) hsize₃ (by decide) (by decide) hguard'
  have huser : ∀ v, userBasePage + 29 ≤ v → v < userBasePage + 33 →
      UserPage v := by
    intro v hlo hhi
    refine userPage_of_le ⟨by omega, ?_⟩
    rw [userBasePage] at hhi
    omega
  have hpage : ∀ v, userBasePage + 29 ≤ v → v < userBasePage + 33 →
      ∃ e, a'.vm.pgTable.lookup 0 v = some e ∧ e.perm = stackPerm ∧
        e.physicalAddr ∈ a'.heap.issued ∧
        a'.heap.issued.count e.physicalAddr = 1 := by
    intro v hlo hhi
    obtain ⟨-, -, e, he, hperm, hfresh⟩ := hmaps.page v hlo hhi
    have hsame : a'.vm.pgTable.lookup 0 v = some e := (hmaps'.other v (by omega)).trans he
    have hissued := mem_issued_of_lookup hheld₄ (huser v hlo hhi) hsame
    have hcount := (hnew' _ (hnew _ (NewPages.refl _)) _ hissued hfresh).1
    exact ⟨e, hsame, hperm, hissued, hcount⟩
  refine ⟨rfl, hheld₄, hareas₄.trans (hareas₃.trans hareas₁), hheld₄.owns.wf,
    by decide, ?_, ?_⟩
  · intro v hlo hhi
    obtain ⟨e, he, hperm, hissued, -⟩ := hpage v hlo hhi
    exact ⟨e, he, hperm, hframes _ hissued⟩
  intro v w hvlo hvhi hwlo hwhi e e' he he' heq
  obtain ⟨f, hf, -, -, hcount⟩ := hpage v hvlo hvhi
  cases he.symm.trans hf
  exact hheld₄.owns.page_injective (huser v hvlo hvhi) (huser w hwlo hwhi) he he' heq hcount

lemma allocTrapframe_keeps {lo hi : Nat} (h : Held base a)
    (hareas : ∀ area ∈ a.vm.areaList, userElfBaseVaddr ≤ area.va.val) (hw : Window a.vm lo hi)
    (hlo : userBasePage ≤ lo) {tf : Signals.Trapframe}
    (hrun : allocTrapframe src refused tf a = some (a', .ok ())) {addr : Nat}
    (haddr : lo * 4096 ≤ addr) (haddr' : addr < hi * 4096) :
    userLoad a'.vm a'.heap addr = userLoad a.vm a.heap addr := by
  have hnone : removeByVa a.vm.areaList taskTrapframeBase.val = none := by
    rw [removeByVa, find?_eq_none.mpr]
    intro area harea hcontains
    have hle : area.va.val ≤ 0x200009000 := (of_decide_eq_true hcontains).1
    exact absurd (le_trans (hareas area harea) hle) (by decide)
  obtain ⟨a₁, ⟨⟩, halloc, hrun⟩ := andThen_eq_ok hrun
  rw [deallocSegment, hnone] at halloc
  obtain ⟨s, hvmap, rfl⟩ := allocSegment_eq_ok halloc
  have hmaps := vmap_spec h.owns (by decide : kernelPages ≤ 0x200009)
    (by decide : 0x200009 ≤ 0x20000A) (by decide) hvmap
  obtain ⟨e, he, hperm, -⟩ := hw.page (addr / 4096) (by omega) (by omega)
  have hlimit := hw.limit
  have hbelow : 0x20000A ≤ addr / 4096 := by
    rw [userBasePage] at hlo
    omega
  have hissued := mem_issued_of_lookup h (userPage_of_le ⟨by omega, by omega⟩) he
  have hsame : s.table.lookup 0 (addr / 4096) = some e := (hmaps.other _ (by omega)).trans he
  have hmem := hmaps.mem e.physicalAddr hissued
  obtain ⟨-, -, f, hf, -, hfresh⟩ := hmaps.page 0x200009 (by decide) (by decide)
  have hne : e.physicalAddr ≠ f.physicalAddr := fun heq => hfresh (heq ▸ hissued)
  have hpa := va2pa_eq { a.vm with pgTable := s.table } hmaps.owns.wf
    (by decide : 0x200009 < 134217728) hf
  have haddr : addr < vaLimit := by
    rw [vaLimit]
    omega
  split at hrun
  · rename_i pa hpa'
    cases hpa.symm.trans hpa'
    cases hrun
    exact userLoad_congr haddr he hsame ((storeBytes_of_ne hne _ s.heap).trans hmem)
  · cases hrun

end

/-! ### The round trip -/

lemma intoExec_ok {α : Type} (x : α) : intoExec (some (a, .ok x)) = some (a, .ok x) := rfl

lemma intoExec_eq_ok {α : Type} {r : Option (AddrSpace × Except SysError α)} {a : AddrSpace}
    {x : α} (h : intoExec r = some (a, .ok x)) : r = some (a, .ok x) := by
  match r, h with
  | some (a, .ok x), rfl => rfl

/-- Where the blocks of the arguments and the environment lie below `sp`. -/
structure Placed (sp : Nat) (userArgs envVars : List (List UInt8))
    (argsPtr envPtrs : Nat) : Prop where
  argsAligned : argsPtr % 8 = 0
  envAligned : envPtrs % 8 = 0
  env_le : envPtrs + cstrsLayoutSz envVars ≤ argsPtr
  args_le : argsPtr + cstrsLayoutSz userArgs ≤ sp
  inside : sp - 4 * 4096 ≤ envPtrs

lemma placed_below {lo sp : Nat} {userArgs envVars : List (List UInt8)} (hsp : (lo + 4) * 4096 = sp)
    (hargs : cstrsLayoutSz userArgs ≤ userArgumentsMaxSize)
    (henv : cstrsLayoutSz envVars ≤ envVarsMaxSize) : lo * 4096 + cstrsLayoutSz userArgs ≤ sp ∧
    lo * 4096 + cstrsLayoutSz envVars ≤ sp - cstrsLayoutSz userArgs ∧ Placed sp userArgs envVars
    (sp - cstrsLayoutSz userArgs) (sp - cstrsLayoutSz userArgs - cstrsLayoutSz envVars) := by
  have hargs8 := (cstrsLayoutSz_bounds userArgs).2
  have henv8 := (cstrsLayoutSz_bounds envVars).2
  rw [userArgumentsMaxSize] at hargs
  rw [envVarsMaxSize] at henv
  refine ⟨?_, ?_, ?_, ?_, ?_, ?_, ?_⟩ <;> omega

lemma image_of_new {src : PageSource} {kernel : PageTable} {r : Bool} {h : Heap} {a : AddrSpace}
    (hkernel : kernel.Wf) (hhonest : h.badFree = false)
    (hnew : withKernelVm src kernel r h = some a) : Image (fun page => h.issued.count page) a := by
  obtain ⟨hwf, hsegs, -, hareas, hsize, hbad, -, hcount⟩ := withKernelVm_spec hkernel hnew
  refine ⟨⟨⟨hwf, hcount, hbad.trans hhonest⟩, hsegs⟩, hsize, ?_⟩
  rw [hareas]
  exact nofun

lemma execve_eq_ok {src : PageSource} {refused : Refusals} {file : ExecFile}
    {elfhdr : ElfHeader} {newVm a₁ a₂ a₃ a₄ a' : AddrSpace} {sp argsPtr envPtrs : Nat}
    {userArgs envVars : List (List UInt8)} {tf : Signals.Trapframe}
    (hload : loadElf src refused file newVm = some (a₁, .ok elfhdr))
    (hstack : initUserStack src refused a₁ = some (a₂, .ok sp))
    (hargs : pushCstrArray sp userArgs userArgumentsMaxSize a₂ = some (a₃, .ok argsPtr))
    (henv : pushCstrArray argsPtr envVars envVarsMaxSize a₃ = some (a₄, .ok envPtrs))
    (hrun : execve src refused file userArgs envVars newVm = some (a', .ok tf)) :
    tf.a0 = BitVec.ofNat 64 argsPtr ∧ tf.a1 = BitVec.ofNat 64 envPtrs ∧
      allocTrapframe src refused tf a₄ = some (a', .ok ()) := by
  rw [execve, hload, andThen_ok, hstack, intoExec_ok, andThen_ok, hargs,
    intoExec_ok, andThen_ok, henv, intoExec_ok, andThen_ok] at hrun
  obtain ⟨a₅, ⟨⟩, htrapframe, hrun⟩ := andThen_eq_ok hrun
  cases hrun
  exact ⟨rfl, rfl, intoExec_eq_ok htrapframe⟩

/-- The lists that fit are written without an error, into the four pages below
the stack pointer, and the new program reads them back. -/
theorem arguments_round_trip (src : PageSource) (refused : Refusals) {kernel : PageTable}
    (hkernel : kernel.Wf) {h : Heap} (hhonest : h.badFree = false) {r : Bool} {newVm : AddrSpace}
    (hnew : withKernelVm src kernel r h = some newVm) {file : ExecFile} {elfhdr : ElfHeader}
    {a₁ a₂ : AddrSpace} {sp : Nat}
    (hload : loadElf src refused file newVm = some (a₁, .ok elfhdr))
    (hstack : initUserStack src refused a₁ = some (a₂, .ok sp))
    (hframes : ∀ p ∈ a₂.heap.issued, isValidPhyAddr p = true)
    (userArgs envVars : List (List UInt8)) (hargsZero : ∀ s ∈ userArgs, 0 ∉ s)
    (henvZero : ∀ s ∈ envVars, 0 ∉ s) (hargs : cstrsLayoutSz userArgs ≤ userArgumentsMaxSize)
    (henv : cstrsLayoutSz envVars ≤ envVarsMaxSize) :
    ∃ argsPtr envPtrs a₃ a₄, pushCstrArray sp userArgs userArgumentsMaxSize a₂ =
        some (a₃, .ok argsPtr) ∧
      pushCstrArray argsPtr envVars envVarsMaxSize a₃ = some (a₄, .ok envPtrs) ∧
      Placed sp userArgs envVars argsPtr envPtrs ∧
      Window a₂.vm (sp / 4096 - 4) (sp / 4096) ∧
      ∀ a' tf, execve src refused file userArgs envVars newVm = some (a', .ok tf) →
        tf.a0.toNat = argsPtr ∧ tf.a1.toNat = envPtrs ∧
        readCstrArray (userLoad a'.vm a'.heap) argsPtr = some userArgs ∧
        readCstrArray (userLoad a'.vm a'.heap) envPtrs = some envVars := by
  have himage := (image_of_new hkernel hhonest hnew).loadElf hload
  obtain ⟨rfl, hheld, hareas, hwindow⟩ := initUserStack_window himage hstack hframes
  have hareas₂ : ∀ area ∈ a₂.vm.areaList, userElfBaseVaddr ≤ area.va.val := by
    rw [hareas]
    exact himage.areas
  have hpages : (userBasePage + 33) * 4096 / 4096 = userBasePage + 33 :=
    Nat.mul_div_cancel _ (by decide)
  have hbelow : (userBasePage + 29 + 4) * 4096 = (userBasePage + 33) * 4096 := by rw [add_assoc]
  obtain ⟨hroom, hroom', hplaced⟩ := placed_below hbelow hargs henv
  obtain ⟨heap₃, hpush₃, hw₃⟩ := pushCstrArray_written hwindow hargs hroom le_rfl
  obtain ⟨heap₄, hpush₄, hw₄⟩ :=
    pushCstrArray_written (a := { a₂ with heap := heap₃ }) hwindow henv hroom' (Nat.sub_le _ _)
  refine ⟨_, _, _, _, hpush₃, hpush₄, hplaced, ?_, ?_⟩
  · rw [hpages]
    exact hwindow
  intro a' tf hrun
  obtain ⟨htf0, htf1, htrapframe⟩ := execve_eq_ok hload hstack hpush₃ hpush₄ hrun
  have hheld₄ := heap_held hheld (hw₄.issued.trans hw₃.issued) (hw₄.badFree.trans hw₃.badFree)
  have hsame : ∀ addr, (userBasePage + 29) * 4096 ≤ addr → addr < (userBasePage + 33) * 4096 →
      userLoad a'.vm a'.heap addr = userLoad a₂.vm heap₄ addr :=
    fun _ => allocTrapframe_keeps hheld₄ hareas₂ hwindow (Nat.le_add_right _ _) htrapframe
  have hargsLen := (cstrsLayoutSz_bounds userArgs).1
  have henvLen := (cstrsLayoutSz_bounds envVars).1
  generalize (userBasePage + 33) * 4096 - cstrsLayoutSz userArgs = argsPtr at *
  generalize argsPtr - cstrsLayoutSz envVars = envPtrs at *
  have hargsEnd := (Nat.add_le_add_left hargsLen argsPtr).trans hplaced.args_le
  have henvEnd := (Nat.add_le_add_left henvLen envPtrs).trans hplaced.env_le
  have hinside : (userBasePage + 29) * 4096 ≤ envPtrs := le_trans (by decide) hplaced.inside
  have hargsLt : argsPtr + (block userArgs).length < vaLimit := lt_of_le_of_lt hargsEnd (by decide)
  have henvLt : envPtrs + (block envVars).length < vaLimit :=
    lt_of_le_of_lt (henvEnd.trans (Nat.le_add_right _ _)) hargsLt
  have hptr : ∀ ptr len, ptr + len < vaLimit → (BitVec.ofNat 64 ptr).toNat = ptr := by
    intro ptr len hlt
    rw [BitVec.toNat_ofNat, Nat.mod_eq_of_lt]
    rw [vaLimit] at hlt
    omega
  -- neither the other block nor the trapframe changes what was written
  have hread : ∀ ptr cstrs, Holds (userLoad a₂.vm heap₄) ptr (block cstrs) →
      (userBasePage + 29) * 4096 ≤ ptr →
      ptr + (block cstrs).length ≤ (userBasePage + 33) * 4096 →
      ptr % 8 = 0 → (∀ s ∈ cstrs, 0 ∉ s) →
      readCstrArray (userLoad a'.vm a'.heap) ptr = some cstrs := by
    intro ptr cstrs hholds hlo hhi halign hzero
    apply readCstrArray_block halign hzero
    · exact (Nat.le_add_left _ ptr).trans (hhi.trans (by decide))
    · exact hholds.congr fun x hx hx' => hsame x (hlo.trans hx) (lt_of_lt_of_le hx' hhi)
  refine ⟨by rw [htf0]; exact hptr _ _ hargsLt,
    by rw [htf1]; exact hptr _ _ henvLt, ?_, ?_⟩
  · have hlo := hinside.trans ((Nat.le_add_right _ _).trans henvEnd)
    exact hread _ _ (hw₄.keeps hw₃.holds hlo hargsEnd (.inr henvEnd)) hlo
      hargsEnd hplaced.argsAligned hargsZero
  exact hread _ _ hw₄.holds hinside (henvEnd.trans ((Nat.le_add_right _ _).trans hargsEnd))
    hplaced.envAligned henvZero

def firstFrame : Heap :=
  { issued := [directMappingBaseVaddr], clock := 0, mem := fun _ _ => 0
    badFree := false }

def stackReady (src : PageSource) (refused : Refusals) (file : ExecFile)
    (newVm : AddrSpace) : Bool :=
  (andThen (loadElf src refused file newVm) fun _ a =>
    intoExec (initUserStack src refused a)).any fun out =>
      out.2.isOk && out.1.heap.issued.all isValidPhyAddr

lemma of_stackReady {src : PageSource} {refused : Refusals} {file : ExecFile}
    {newVm : AddrSpace} (h : stackReady src refused file newVm = true) :
    ∃ a₁ elfhdr a₂ sp, loadElf src refused file newVm = some (a₁, .ok elfhdr) ∧
      initUserStack src refused a₁ = some (a₂, .ok sp) ∧
      ∀ p ∈ a₂.heap.issued, isValidPhyAddr p = true := by
  obtain ⟨⟨a₂, result⟩, hrun, hready⟩ := (Option.any_eq_true _ _).mp h
  rw [Bool.and_eq_true] at hready
  cases result with
  | error e => cases hready.1
  | ok sp =>
    obtain ⟨a₁, elfhdr, hload, hstack⟩ := andThen_eq_ok hrun
    exact ⟨a₁, elfhdr, a₂, sp, hload, intoExec_eq_ok hstack, all_eq_true.mp hready.2⟩

lemma firstFrame_ready : (withKernelVm nextPage System.boot.kernel false firstFrame).any
    (stackReady nextPage granting (oneSegment 3)) = true := by
  decide +kernel

/-- The arguments `ls` and `-l`, and one variable. -/
theorem arguments_round_trip_ls : ∃ a₂ sp argsPtr envPtrs a₃ a₄,
      pushCstrArray sp [[108, 115], [45, 108]] userArgumentsMaxSize a₂ = some (a₃, .ok argsPtr) ∧
      pushCstrArray argsPtr [[65, 61, 49]] envVarsMaxSize a₃ = some (a₄, .ok envPtrs) ∧
      Placed sp [[108, 115], [45, 108]] [[65, 61, 49]] argsPtr envPtrs := by
  obtain ⟨newVm, hnew, hready⟩ := (Option.any_eq_true _ _).mp firstFrame_ready
  obtain ⟨a₁, elfhdr, a₂, sp, hload, hstack, hframes⟩ := of_stackReady hready
  obtain ⟨argsPtr, envPtrs, a₃, a₄, hargs, henv, hplaced, -⟩ :=
    arguments_round_trip nextPage granting (fun _ _ _ _ => rfl) rfl hnew hload
      hstack hframes [[108, 115], [45, 108]] [[65, 61, 49]] (by decide)
      (by decide) (by decide) (by decide)
  exact ⟨a₂, sp, argsPtr, envPtrs, a₃, a₄, hargs, henv, hplaced⟩

end Redwing.Exec
