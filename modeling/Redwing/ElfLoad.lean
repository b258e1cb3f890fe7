/-
What `load_elf` does with every file: which headers load, which are turned
down, which make the kernel panic, and what the memory of the segments holds
when the whole file has been loaded.
-/
import Redwing.Elf

namespace Redwing.Elf

open Function Vm Walks List PageTable

namespace ProgramHeader

section

variable (p : ProgramHeader)

def startPage : Nat := p.vaddr / 4096

def endPage : Nat := p.startPage + (pgRoundUp p.memsz).page

def mappedEnd : Nat := p.endPage - lastChunk p.endPage

def area : VmArea where
  va := pgRoundDown p.vaddr
  size := pgRoundUp p.memsz
  perm := (flagsToEntryPerm p.flags).union .onlyUser

end

def sharesPage (p q : ProgramHeader) : Bool :=
  decide (max p.startPage q.startPage < min p.mappedEnd q.mappedEnd)

structure Bounds (p : ProgramHeader) : Prop where
  vaddr : p.vaddr = p.startPage * 4096
  base : 0x200080 ≤ p.startPage
  le : p.startPage ≤ p.endPage
  end_le : p.endPage ≤ 0x220080
  memsz : p.memsz ≤ (p.endPage - p.startPage) * 4096
  lastPage : p.memsz = 0 ∧ p.endPage = p.startPage ∨ (p.endPage - p.startPage - 1) * 4096 < p.memsz
  filesz : p.filesz ≤ p.memsz

lemma bounds {p : ProgramHeader} (h : p.checkValid = .ok ()) : p.Bounds := by
  rw [checkValid] at h
  split at h
  · cases h
  split at h
  · cases h
  split at h
  · cases h
  split at h
  · cases h
  split at h
  · cases h
  rename_i haligned hwrap hfile hsize hrange
  simp only [userElfEndVaddr, userElfSize, userElfBaseVaddr] at hrange
  have hstart : p.vaddr = p.startPage * 4096 := by
    rw [startPage]
    omega
  have hend : p.endPage = p.startPage + (p.memsz + 4095) / 4096 := by
    simp [endPage, pgRoundUp, PageAligned.page]
  exact ⟨hstart, by omega, by omega, by omega, by omega, by omega, by omega⟩

end ProgramHeader

lemma area_va (p : ProgramHeader) : p.area.va.val = p.startPage * 4096 := rfl

lemma area_size (p : ProgramHeader) : p.area.size.val = p.endPage * 4096 - p.startPage * 4096 := by
  rw [ProgramHeader.endPage, Nat.add_mul, Nat.add_sub_cancel_left, ← PageAligned.val_eq]
  rfl

section

variable {p : ProgramHeader} (h : p.Bounds)

include h

lemma not_gib : ¬ 512 ^ 2 ∣ p.endPage := by
  have hbase := h.base
  have hle := h.le
  have hend := h.end_le
  omega

lemma lastChunk_endPage : lastChunk p.endPage = if 512 ∣ p.endPage then 512 else 0 := by
  rw [lastChunk, if_neg (not_gib h)]

lemma area_end : p.area.endVa = p.endPage * 4096 := by
  have hle := h.le
  rw [VmArea.endVa, area_va, area_size]
  omega

lemma segmentAllowed_area : segmentAllowed p.area.va p.area.size = true := by
  have hbase := h.base
  have hle := h.le
  have hend := h.end_le
  rw [segmentAllowed, area_size, area_va, isVmapArea, Bool.and_eq_true,
    decide_eq_true_eq, decide_eq_true_eq, userBaseVaddr]
  omega

end

/-- What becomes of a header. -/
inductive Fate
  | loads
  | fails
  | panics
deriving DecidableEq

def dataFate (file : ExecFile) (p : ProgramHeader) (pages : Nat) : Fate :=
  if p.filesz = 0 then .loads
  else if pages = 0 then .panics
  else if file.size < p.offset then
    if file.rejectsPastEnd then .fails else .panics
  else if p.offset + p.filesz ≤ file.size ∧ p.filesz ≤ pages * 4096 then .loads
  else .panics

def segmentFate (file : ExecFile) (earlier : List ProgramHeader) (p : ProgramHeader) : Fate :=
  if Cut p.startPage p.endPage then .panics
  else if earlier.any p.sharesPage then .fails
  else if earlier.any fun q => p.area.overlaps q.area then .panics
  else dataFate file p (p.mappedEnd - p.startPage)

/-! ### Copying the data -/

section

variable {file : ExecFile} {p : ProgramHeader}

def ExecFile.byte (file : ExecFile) (offset : Nat) : BitVec 8 :=
  (file.content.getD offset 0).toBitVec

lemma read_inside (file : ExecFile) (len : Nat) (hle : offset ≤ file.size) :
    ∃ bytes, file.read offset len = .ok bytes ∧ bytes.length = min len (file.size - offset) ∧
      ∀ i < bytes.length, (bytes.getD i 0).toBitVec = file.byte (offset + i) := by
  refine ⟨(file.content.drop offset).take len, if_neg (by omega), ?_, ?_⟩
  · rw [length_take, length_drop]
    rfl
  intro i hi
  rw [length_take] at hi
  rw [ExecFile.byte, getD_eq_getElem?_getD, getElem?_take,
    if_pos (by omega), getElem?_drop, ← getD_eq_getElem?_getD]

lemma no_wrap (file : ExecFile) (hle : offset ≤ file.size) : ¬ 2 ^ 64 ≤ offset := by
  have hsize := file.size_lt
  rw [← ExecFile.size] at hsize
  omega

variable {pages : List Nat}

lemma copyLoop_short (hshort : file.size < p.offset + p.filesz)
    (hle : p.offset + fileOffset ≤ file.size) (h : Heap) :
    copyLoop file p pages fileOffset h = none := by
  induction pages generalizing fileOffset h with
  | nil => rw [copyLoop, if_pos (by omega)]
  | cons page rest ih =>
    obtain ⟨bytes, hread, hlength, -⟩ := read_inside file (min (p.filesz - fileOffset) 4096) hle
    rw [copyLoop, if_pos (by omega), if_neg (no_wrap file hle)]
    simp only [hread]
    exact ih (by omega) _

lemma copyLoop_unfit (hfile : p.offset + p.filesz ≤ file.size)
    (hmore : fileOffset + pages.length * 4096 < p.filesz) (h : Heap) :
    copyLoop file p pages fileOffset h = none := by
  induction pages generalizing fileOffset h with
  | nil => rw [copyLoop, if_pos (by simpa using hmore)]
  | cons page rest ih =>
    rw [length_cons] at hmore
    obtain ⟨bytes, hread, hlength, -⟩ := read_inside file (min (p.filesz - fileOffset) 4096)
      (by omega : p.offset + fileOffset ≤ file.size)
    rw [copyLoop, if_pos (by omega), if_neg (no_wrap file (by omega))]
    simp only [hread]
    exact ih (by omega) _

/-- The pages hold the data from `fileOffset` on, and nothing else changes. -/
structure Filled (file : ExecFile) (p : ProgramHeader) (pages : List Nat)
    (fileOffset : Nat) (h h' : Heap) : Prop where
  issued : h'.issued = h.issued
  honest : h'.badFree = h.badFree
  other : ∀ page, page ∉ pages → h'.mem page = h.mem page
  data : ∀ k page, pages[k]? = some page → ∀ i < 4096, h'.mem page i =
      if fileOffset + k * 4096 + i < p.filesz then
        file.byte (p.offset + (fileOffset + k * 4096 + i))
      else h.mem page i

lemma fillPage_mem (bytes : List UInt8) (hlength : bytes.length = toRead) :
    (fillPage page bytes toRead h).mem page i =
      if i < toRead then (bytes.getD i 0).toBitVec else h.mem page i := by
  simp only [fillPage, update_self, hlength]
  split <;> rfl

lemma copyLoop_fit (hfile : p.offset + p.filesz ≤ file.size) (hnodup : pages.Nodup)
    (hle : fileOffset ≤ p.filesz) (hfit : p.filesz ≤ fileOffset + pages.length * 4096) (h : Heap) :
    ∃ h', copyLoop file p pages fileOffset h = some (h', .ok ()) ∧
      Filled file p pages fileOffset h h' := by
  induction pages generalizing fileOffset h with
  | nil =>
    rw [length_nil] at hfit
    exact ⟨h, by rw [copyLoop, if_neg (by omega)], ⟨rfl, rfl, fun _ _ => rfl, by simp⟩⟩
  | cons page rest ih =>
    rw [length_cons] at hfit
    obtain ⟨hnotin, hrest⟩ := nodup_cons.mp hnodup
    by_cases hdone : fileOffset < p.filesz
    · obtain ⟨bytes, hread, hlength, hbytes⟩ := read_inside file (min (p.filesz - fileOffset) 4096)
        (by omega : p.offset + fileOffset ≤ file.size)
      rw [copyLoop, if_pos hdone, if_neg (no_wrap file (by omega))]
      simp only [hread]
      have htoRead : bytes.length = min (p.filesz - fileOffset) 4096 := by omega
      obtain ⟨h', hrun, hfilled⟩ := ih hrest (by omega : fileOffset + bytes.length ≤ p.filesz)
        (by omega) (fillPage page bytes (min (p.filesz - fileOffset) 4096) h)
      refine ⟨h', hrun, hfilled.issued, hfilled.honest, ?_, ?_⟩
      · intro other hother
        have hne : other ≠ page := by
          rintro rfl
          exact hother mem_cons_self
        rw [hfilled.other other fun hin => hother (mem_cons_of_mem page hin)]
        exact update_of_ne hne _ _
      intro k page' hpage i hi
      cases k with
      | zero =>
        rw [getElem?_cons_zero, Option.some.injEq] at hpage
        subst hpage
        rw [hfilled.other page hnotin, fillPage_mem _ htoRead]
        by_cases hin : i < p.filesz - fileOffset
        · rw [if_pos (by omega), if_pos (by omega), hbytes i (by omega)]
          congr 1
          omega
        · rw [if_neg (by omega), if_neg (by omega)]
      | succ k =>
        rw [getElem?_cons_succ] at hpage
        have hne : page' ≠ page := fun heq => hnotin (heq ▸ mem_of_getElem? hpage)
        have hsame : (fillPage page bytes (min (p.filesz - fileOffset) 4096) h).mem page' =
              h.mem page' := update_of_ne hne _ _
        rw [hfilled.data k page' hpage i hi, htoRead, hsame]
        by_cases hfull : p.filesz - fileOffset < 4096
        · rw [if_neg (by omega), if_neg (by omega)]
        · rw [show fileOffset + min (p.filesz - fileOffset) 4096 +
            k * 4096 + i = fileOffset + (k + 1) * 4096 + i by omega]
    · refine ⟨h, by rw [copyLoop, if_neg hdone], ⟨rfl, rfl, fun _ _ => rfl, ?_⟩⟩
      intro k page _ i _
      rw [if_neg (by omega)]

lemma copyLoop_pastEnd (hfilesz : p.filesz ≠ 0)
    (hpast : file.size < p.offset) (haccept : file.rejectsPastEnd = false)
    (pages : List Nat) (h : Heap) : copyLoop file p pages 0 h = none := by
  induction pages generalizing h with
  | nil => rw [copyLoop, if_pos (by omega)]
  | cons page rest ih =>
    rw [copyLoop, if_pos (by omega)]
    split
    · rfl
    simp only [ExecFile.read, Nat.add_zero, if_pos hpast, haccept, Bool.false_eq_true, ↓reduceIte]
    exact ih _

lemma copyLoop_fate (file : ExecFile) (hoffset : p.offset < 2 ^ 64)
    (hnodup : pages.Nodup) (h : Heap) :
    match dataFate file p pages.length with
    | .loads => ∃ h', copyLoop file p pages 0 h = some (h', .ok ()) ∧
        Filled file p pages 0 h h'
    | .fails => ∃ h' e, copyLoop file p pages 0 h = some (h', .error e)
    | .panics => copyLoop file p pages 0 h = none := by
  rw [dataFate]
  by_cases hfilesz : p.filesz = 0
  · rw [if_pos hfilesz]
    refine ⟨h, ?_, rfl, rfl, fun _ _ => rfl, fun k page _ i _ => ?_⟩
    · cases pages with
      | nil | cons => rw [copyLoop, if_neg (by omega)]
    · rw [if_neg (by omega)]
  rw [if_neg hfilesz]
  by_cases hempty : pages.length = 0
  · rw [if_pos hempty, eq_nil_of_length_eq_zero hempty]
    exact if_pos (by omega)
  rw [if_neg hempty]
  by_cases hpast : file.size < p.offset
  · rw [if_pos hpast]
    by_cases hreject : file.rejectsPastEnd = true
    · rw [if_pos hreject]
      obtain ⟨page, rest, rfl⟩ := exists_cons_of_ne_nil fun hnil =>
        hempty (length_eq_zero_iff.mpr hnil)
      refine ⟨h, .sys SysErrorKind.invalidArgument.err, ?_⟩
      rw [copyLoop, if_pos (by omega), if_neg (by omega)]
      simp [ExecFile.read, if_pos hpast, if_pos hreject]
    · rw [if_neg hreject]
      exact copyLoop_pastEnd hfilesz hpast (by simpa using hreject) pages h
  rw [if_neg hpast]
  by_cases hfile : p.offset + p.filesz ≤ file.size
  · by_cases hfit : p.filesz ≤ pages.length * 4096
    · rw [if_pos ⟨hfile, hfit⟩]
      exact copyLoop_fit hfile hnodup (Nat.zero_le _) (by omega) h
    · rw [if_neg fun hboth => hfit hboth.2]
      exact copyLoop_unfit hfile (by omega) h
  · rw [if_neg fun hboth => hfile hboth.1]
    exact copyLoop_short (by omega) (by omega) h

end

/-! ### One segment -/

def ProgramHeader.byte (p : ProgramHeader) (file : ExecFile) (i : Nat) : BitVec 8 :=
  if i < p.filesz then file.byte (p.offset + i) else 0

def memoryByte (a : AddrSpace) (addr : Nat) : Option (BitVec 8) :=
  (translate a.vm.pgTable addr).map fun e => a.heap.mem e.physicalAddr (addr % 4096)

/-- An address space with the segments of some headers, and no others. -/
structure Loaded (base : Nat → Nat) (file : ExecFile)
    (earlier : List ProgramHeader) (a : AddrSpace) : Prop where
  held : Held base a
  areas : a.vm.areaList = earlier.map ProgramHeader.area
  mapped : ∀ v, UserPage v → (a.vm.pgTable.lookup 0 v ≠ none ↔
    ∃ q ∈ earlier, q.startPage ≤ v ∧ v < q.mappedEnd)
  bytes : ∀ q ∈ earlier, ∀ i, q.vaddr + i < q.mappedEnd * 4096 →
    memoryByte a (q.vaddr + i) = some (q.byte file i)

section

variable {base : Nat → Nat} {file : ExecFile} {earlier : List ProgramHeader} {a a' : AddrSpace}
  {p : ProgramHeader}

variable {i : Nat} {heap : Heap}

lemma userPage_of_bounds (hp : p.Bounds) (hlo : p.startPage ≤ v)
    (hhi : v < p.endPage) : UserPage v := by
  have hbase := hp.base
  have hend := hp.end_le
  refine ⟨?_, by omega⟩
  rw [kernelPages]
  omega

lemma Loaded.free_iff (h : Loaded base file earlier a) (hp : p.Bounds) :
    (∀ v, p.startPage ≤ v → v < p.mappedEnd →
      a.vm.pgTable.lookup 0 v = none) ↔ earlier.any p.sharesPage = false := by
  have huser : ∀ v, p.startPage ≤ v → v < p.mappedEnd → UserPage v :=
    fun v hlo hhi => userPage_of_bounds hp hlo (Nat.lt_of_lt_of_le hhi (Nat.sub_le _ _))
  rw [any_eq_false]
  constructor
  · intro hfree q hq
    rw [ProgramHeader.sharesPage, decide_eq_true_eq]
    intro hshare
    have hlo : p.startPage ≤ max p.startPage q.startPage := Nat.le_max_left _ _
    have hmapped := (h.mapped _ (huser _ hlo (by omega))).mpr
      ⟨q, hq, Nat.le_max_right _ _, by omega⟩
    exact hmapped (hfree _ hlo (by omega))
  intro hno v hlo hhi
  by_contra hmapped
  obtain ⟨q, hq, hqlo, hqhi⟩ := (h.mapped v (huser v hlo hhi)).mp hmapped
  apply hno q hq
  rw [ProgramHeader.sharesPage, decide_eq_true_eq]
  omega

/-- What `alloc_segment` did for a segment. -/
structure Allocated (base : Nat → Nat) (refused : Refusals)
    (p : ProgramHeader) (a a' : AddrSpace) : Prop where
  held : Held base a'
  areas : a'.vm.areaList = a.vm.areaList ++ [p.area]
  maps : Maps base refused (p.area.perm.union .onlyValid) p.startPage p.mappedEnd a.space a'.space
  newPages : NewPages a.heap a'.heap

lemma addArea_eq_none {list : List VmArea} {area : VmArea} :
    addArea list area = none ↔ list.any area.overlaps = true := by
  rw [addArea]
  split
  · rename_i hany
    exact iff_of_true rfl hany
  · rename_i hany
    exact iff_of_false (by simp) hany

lemma allocSegment_fate (src : PageSource) (refused : Refusals)
    (h : Loaded base file earlier a) (hp : p.Bounds) :
    match allocSegment src refused p.area.va p.area.size p.area.perm a with
    | none => Cut p.startPage p.endPage ∨
        (earlier.any p.sharesPage = false ∧ (earlier.any fun q => p.area.overlaps q.area) = true)
    | some (_, .error _) => (∀ l k, refused l k = false) →
        ¬ Cut p.startPage p.endPage ∧ earlier.any p.sharesPage = true
    | some (a', .ok ()) => ¬ Cut p.startPage p.endPage ∧
        earlier.any p.sharesPage = false ∧
        (earlier.any fun q => p.area.overlaps q.area) = false ∧
        Allocated base refused p a a' := by
  have hlimit : p.endPage < 134217728 := by
    have hend := hp.end_le
    omega
  have hkernel : kernelPages ≤ p.startPage := by
    have hbase := hp.base
    rw [kernelPages]
    omega
  have hany : (earlier.any fun q => p.area.overlaps q.area) =
      a.vm.areaList.any p.area.overlaps := by
    rw [h.areas, any_map]
    rfl
  rw [hany, allocSegment, area_va, area_size]
  cases hvmap : vmap src refused (p.startPage * 4096)
      (p.endPage * 4096 - p.startPage * 4096) p.area.perm a.space with
  | none =>
    refine .inl (by_contra fun hcut => ?_)
    have hsome := vmap_isSome src refused p.area.perm h.held.owns hkernel
      hp.le hlimit hcut (not_gib hp)
    simp [hvmap] at hsome
  | some mapped =>
    obtain ⟨s, result⟩ := mapped
    have hcut : Cut p.startPage p.endPage → (∃ e, result = .error e) ∧ ∃ l k, refused l k = true :=
      fun hcut => vmap_cut hlimit hcut (not_gib hp) hvmap
    have hmaps := vmap_spec h.held.owns hkernel hp.le hlimit hvmap
    cases result with
    | error err =>
      intro hgrant
      have hnotcut : ¬ Cut p.startPage p.endPage := by
        intro hcut'
        obtain ⟨l, k, hrefused⟩ := (hcut hcut').2
        rw [hgrant] at hrefused
        cases hrefused
      refine ⟨hnotcut, by_contra fun hshare => ?_⟩
      have hfree := (h.free_iff hp).mpr (Bool.eq_false_of_not_eq_true hshare)
      obtain ⟨s', hok⟩ : ∃ s', vmap src refused (p.startPage * 4096)
          (p.endPage * 4096 - p.startPage * 4096) p.area.perm a.space = some (s', .ok ()) :=
        vmap_granted src p.area.perm hgrant hp.le hlimit hnotcut (not_gib hp) hfree
      rw [hvmap] at hok
      cases hok
    | ok =>
      have hfree : earlier.any p.sharesPage = false :=
        (h.free_iff hp).mp fun v hlo hhi => (hmaps.page v hlo hhi).1
      cases hadd : addArea a.vm.areaList p.area with
      | none => exact .inr ⟨hfree, addArea_eq_none.mp hadd⟩
      | some list =>
        have hrun : allocSegment src refused p.area.va p.area.size
            p.area.perm a = some ((a.put s).setAreas list, .ok ()) := by
          rw [allocSegment, area_va, area_size, hvmap]
          simp [hadd]
        have hheld := (allocSegment_spec p.area h.held (segmentAllowed_area hp) hrun).1
        have hno : a.vm.areaList.any p.area.overlaps = false := by
          rw [← Bool.not_eq_true, ← addArea_eq_none, hadd]
          simp
        have hlist := (h.held.segs.addArea (segmentAllowed_area hp) hadd).1
        refine ⟨fun hcut' => ?_, hfree, hno, hheld, hlist, hmaps, vmap_newPages hvmap⟩
        obtain ⟨⟨e, he⟩, -⟩ := hcut hcut'
        cases he

def physPtrs (a : AddrSpace) (p : ProgramHeader) : List Nat :=
  (rangeOfEntries a.vm.pgTable p.area.va.val (p.area.va.val + p.area.size.val)).map fun va =>
      (a.vm.pgTable.entry 0 (key 0 va)).physicalAddr

lemma physPtrs_eq (hp : p.Bounds) (h : Allocated base refused p a a') :
    physPtrs a' p = (interval p.startPage p.mappedEnd).map fun v =>
      (a'.vm.pgTable.entry 0 v).physicalAddr := by
  have hend : p.area.va.val + p.area.size.val = p.endPage * 4096 := area_end hp
  have hlimit : p.endPage < 134217728 := by
    have hend_le := hp.end_le
    omega
  have hall : ∀ v ∈ interval p.startPage (p.endPage - lastChunk p.endPage),
      a'.vm.pgTable.mapped v = true := by
    intro v hv
    rw [mem_interval] at hv
    obtain ⟨-, -, e, he, -⟩ := h.maps.page v hv.1 hv.2
    exact mapped_iff_lookup.mpr ⟨e, he⟩
  have hwf : a'.vm.pgTable.Wf := h.held.owns.wf
  rw [physPtrs, hend, area_va, rangeOfEntries_eq hwf hp.le hlimit, filter_eq_self.mpr hall, map_map]
  apply map_congr_left
  intro v _
  rw [comp_apply, key_zero_page]

lemma mem_issued_of_lookup (h : Held base a) (hv : UserPage v)
    (he : a.vm.pgTable.lookup 0 v = some e) : e.physicalAddr ∈ a.heap.issued := by
  have hheld := refersTo_le_held hv.page_key he
  have hcount := h.owns.count e.physicalAddr
  apply count_pos_iff.mp
  have hsame : a.space.table.held e.physicalAddr = a.vm.pgTable.held e.physicalAddr := rfl
  have hissued : a.space.heap.issued = a.heap.issued := rfl
  rw [hissued, hsame] at hcount
  omega

lemma Allocated.page (h : Allocated base refused p a a') (hp : p.Bounds) (hlo : p.startPage ≤ v)
   (hhi : v < p.mappedEnd) : ∃ e, a'.vm.pgTable.lookup 0 v = some e ∧
   e.physicalAddr ∉ a.heap.issued ∧ a'.heap.issued.count e.physicalAddr = 1 ∧
   a'.heap.mem e.physicalAddr = fun _ => 0 := by
  obtain ⟨-, -, e, he, -, hnew⟩ := h.maps.page v hlo hhi
  have huser := userPage_of_bounds hp hlo (Nat.lt_of_lt_of_le hhi (Nat.sub_le _ _))
  exact ⟨e, he, hnew, h.newPages _ (mem_issued_of_lookup h.held huser he) hnew⟩

lemma physPtrs_nodup (hp : p.Bounds) (h : Allocated base refused p a a') :
    (physPtrs a' p).Nodup := by
  rw [physPtrs_eq hp h]
  apply List.Nodup.map_on _ (interval_nodup _ _)
  intro v hv w hw heq
  rw [mem_interval] at hv hw
  obtain ⟨e, he, -, hcount, -⟩ := h.page hp hv.1 hv.2
  obtain ⟨e', he', -⟩ := h.page hp hw.1 hw.2
  rw [(lookup_eq_some.mp he).2, (lookup_eq_some.mp he').2] at heq
  have hsub : p.mappedEnd ≤ p.endPage := Nat.sub_le _ _
  exact h.held.owns.page_injective (userPage_of_bounds hp hv.1 (by omega))
    (userPage_of_bounds hp hw.1 (by omega)) he he' heq hcount

lemma memoryByte_eq (hlt : addr < vaLimit) (he : a.vm.pgTable.lookup 0 (addr / 4096) = some e) :
    memoryByte a addr = some (a.heap.mem e.physicalAddr (addr % 4096)) := by
  rw [memoryByte, translate_eq hlt, he]
  rfl

lemma page_of_byte {q : ProgramHeader} (hq : q.Bounds) (hi : q.vaddr + i < q.mappedEnd * 4096) :
    q.startPage ≤ (q.vaddr + i) / 4096 ∧ (q.vaddr + i) / 4096 < q.mappedEnd ∧
      UserPage ((q.vaddr + i) / 4096) ∧ q.vaddr + i < vaLimit := by
  have hvaddr := hq.vaddr
  have hend := hq.end_le
  have hsub : q.mappedEnd ≤ q.endPage := Nat.sub_le _ _
  have hlo : q.startPage ≤ (q.vaddr + i) / 4096 := by omega
  have hhi : (q.vaddr + i) / 4096 < q.mappedEnd := by omega
  refine ⟨hlo, hhi, userPage_of_bounds hq hlo (by omega), ?_⟩
  rw [vaLimit]
  omega

lemma Loaded.bytes_kept (h : Loaded base file earlier a) (hp : p.Bounds)
    (halloc : Allocated base refused p a a')
    (hfilled : Filled file p (physPtrs a' p) 0 a'.heap heap) (hq : q ∈ earlier)
    (hbounds : q.Bounds) (hi : q.vaddr + i < q.mappedEnd * 4096) :
    memoryByte { a' with heap } (q.vaddr + i) = some (q.byte file i) := by
  obtain ⟨hlo, hhi, huser, hlt⟩ := page_of_byte hbounds hi
  obtain ⟨e, he⟩ := Option.ne_none_iff_exists'.mp ((h.mapped _ huser).mpr ⟨q, hq, hlo, hhi⟩)
  have hissued := mem_issued_of_lookup h.held huser he
  have hkept : a'.vm.pgTable.lookup 0 ((q.vaddr + i) / 4096) = some e := by
    rw [← he]
    apply halloc.maps.other
    rintro ⟨hplo, hphi⟩
    cases he.symm.trans (halloc.maps.page _ hplo hphi).1
  have hnotin : e.physicalAddr ∉ physPtrs a' p := by
    rw [physPtrs_eq hp halloc]
    intro hin
    obtain ⟨v, hv, heq⟩ := mem_map.mp hin
    rw [mem_interval] at hv
    obtain ⟨e', he', hnew, -⟩ := halloc.page hp hv.1 hv.2
    rw [(lookup_eq_some.mp he').2] at heq
    rw [heq] at hnew
    exact hnew hissued
  have hmapped : a'.heap.mem e.physicalAddr = a.heap.mem e.physicalAddr :=
    halloc.maps.mem e.physicalAddr hissued
  have hafter : memoryByte { a' with heap } (q.vaddr + i) =
      some (heap.mem e.physicalAddr ((q.vaddr + i) % 4096)) :=
    memoryByte_eq hlt hkept
  rw [← h.bytes q hq i hi, memoryByte_eq hlt he, hafter, hfilled.other _ hnotin, hmapped]

lemma Allocated.bytes (hp : p.Bounds) (halloc : Allocated base refused p a a')
    (hfilled : Filled file p (physPtrs a' p) 0 a'.heap heap)
    (hi : p.vaddr + i < p.mappedEnd * 4096) :
    memoryByte { a' with heap } (p.vaddr + i) = some (p.byte file i) := by
  obtain ⟨hlo, hhi, huser, hlt⟩ := page_of_byte hp hi
  obtain ⟨e, he, -, -, hzero⟩ := halloc.page hp hlo hhi
  have hvaddr := hp.vaddr
  have hpage : (p.vaddr + i) / 4096 = p.startPage + i / 4096 := by omega
  have hat : (physPtrs a' p)[i / 4096]? = some e.physicalAddr := by
    rw [physPtrs_eq hp halloc, getElem?_map, interval, getElem?_range' (by omega), Nat.one_mul,
      ← hpage, Option.map_some, (lookup_eq_some.mp he).2]
  have hmem := hfilled.data _ _ hat (i % 4096) (Nat.mod_lt _ (by decide))
  have hdecomp : 0 + i / 4096 * 4096 + i % 4096 = i := by omega
  rw [hdecomp, hzero] at hmem
  have hafter : memoryByte { a' with heap } (p.vaddr + i) =
      some (heap.mem e.physicalAddr ((p.vaddr + i) % 4096)) :=
    memoryByte_eq hlt he
  rw [hafter, show (p.vaddr + i) % 4096 = i % 4096 by omega, hmem]
  rfl

lemma Loaded.append (h : Loaded base file earlier a) (hp : p.Bounds)
    (hearlier : ∀ q ∈ earlier, q.Bounds) (halloc : Allocated base refused p a a')
    (hfilled : Filled file p (physPtrs a' p) 0 a'.heap heap) :
    Loaded base file (earlier ++ [p]) { a' with heap } := by
  constructor
  · refine ⟨⟨halloc.held.owns.wf, fun page => ?_, ?_⟩, halloc.held.segs⟩
    · exact (congrArg (count page) hfilled.issued).trans (halloc.held.owns.count page)
    · exact hfilled.honest.trans halloc.held.owns.honest
  · rw [map_append, ← h.areas]
    exact halloc.areas
  · intro v hv
    by_cases hin : p.startPage ≤ v ∧ v < p.mappedEnd
    · obtain ⟨e, he, -⟩ := halloc.page hp hin.1 hin.2
      exact iff_of_true (Option.ne_none_iff_exists'.mpr ⟨e, he⟩)
        ⟨p, mem_append_right _ (by simp), hin⟩
    have hsame : a'.vm.pgTable.lookup 0 v = a.vm.pgTable.lookup 0 v := halloc.maps.other v hin
    simp only [hsame, h.mapped v hv, mem_append, mem_singleton]
    constructor
    · rintro ⟨q, hq, hrange⟩
      exact ⟨q, .inl hq, hrange⟩
    rintro ⟨q, hq | rfl, hrange⟩
    · exact ⟨q, hq, hrange⟩
    · exact absurd hrange hin
  · intro q hq i hi
    rcases mem_append.mp hq with hold | hnew
    · exact h.bytes_kept hp halloc hfilled hold (hearlier q hold) hi
    · obtain rfl := mem_singleton.mp hnew
      exact halloc.bytes hp hfilled hi

lemma loadSegment_eq (hp : p.Bounds) : loadSegment src refused file p a =
      match allocSegment src refused p.area.va p.area.size p.area.perm a with
      | none => none
      | some (a, .error e) => some (a, .error (.sys e))
      | some (a, .ok ()) =>
        match copyLoop file p (physPtrs a p) 0 a.heap with
        | none => none
        | some (heap, result) => some ({ a with heap }, result) := by
  have haligned : p.vaddr % 4096 = 0 := by
    have hvaddr := hp.vaddr
    omega
  have hva : (⟨p.vaddr, haligned⟩ : PageAligned) = p.area.va :=
    PageAligned.mk.injEq _ _ _ _ |>.mpr hp.vaddr
  rw [loadSegment, dif_pos haligned, hva]
  rfl

lemma physPtrs_length (hp : p.Bounds) (h : Allocated base refused p a a') :
    (physPtrs a' p).length = p.mappedEnd - p.startPage := by
  rw [physPtrs_eq hp h, length_map, interval, length_range']

lemma loadSegment_fate (src : PageSource) (refused : Refusals) (h : Loaded base file earlier a)
    (hearlier : ∀ q ∈ earlier, q.Bounds) (hp : p.Bounds) (hoffset : p.offset < 2 ^ 64) :
    match loadSegment src refused file p a with
    | none => segmentFate file earlier p = .panics
    | some (_, .error _) => (∀ l k, refused l k = false) →
        segmentFate file earlier p = .fails
    | some (a', .ok ()) => segmentFate file earlier p = .loads ∧
        Loaded base file (earlier ++ [p]) a' := by
  have hfate := allocSegment_fate src refused h hp
  rw [loadSegment_eq hp, segmentFate]
  cases halloc : allocSegment src refused p.area.va p.area.size p.area.perm a
    with
  | none =>
    rw [halloc] at hfate
    by_cases hcut : Cut p.startPage p.endPage
    · exact if_pos hcut
    · obtain ⟨hfree, hover⟩ := hfate.resolve_left hcut
      simp [hcut, hfree, hover]
  | some next =>
    obtain ⟨a', result⟩ := next
    rw [halloc] at hfate
    cases result with
    | error e =>
      intro hgrant
      obtain ⟨hcut, hshare⟩ := hfate hgrant
      rw [if_neg hcut, if_pos hshare]
    | ok =>
      obtain ⟨hcut, hfree, hover, hallocated⟩ := hfate
      have hcopy := copyLoop_fate file hoffset (physPtrs_nodup hp hallocated) a'.heap
      rw [physPtrs_length hp hallocated] at hcopy
      simp only [hcut, hfree, hover, Bool.false_eq_true, ↓reduceIte]
      cases hdata : dataFate file p (p.mappedEnd - p.startPage) with
      | loads =>
        rw [hdata] at hcopy
        obtain ⟨heap, hrun, hfilled⟩ := hcopy
        simp only [hrun]
        exact ⟨trivial, h.append hp hearlier hallocated hfilled⟩
      | fails =>
        rw [hdata] at hcopy
        obtain ⟨heap, e, hrun⟩ := hcopy
        simp only [hrun]
        exact fun _ => trivial
      | panics =>
        rw [hdata] at hcopy
        simp [hcopy]

end
end Redwing.Elf
