/-
Loading a whole file: the conditions on its headers under which `load_elf`
comes back for every behaviour of the page allocator and, if it succeeds,
leaves in memory what the headers describe.
-/
import Redwing.ElfLoad

namespace Redwing.Elf

open Vm Walks List Option

section

variable (file : ExecFile) (hdr : ElfHeader)

def loadable (index : Nat) : Option ProgramHeader :=
  match ProgramHeader.loadFrom file hdr index with
  | some (.ok p) => if p.typ = ptLoad then some p else none
  | _ => none

def headersBefore (index : Nat) : List ProgramHeader :=
  (List.range index).filterMap (loadable file hdr)

def Passes (index : Nat) : Prop :=
  ∃ p, ProgramHeader.loadFrom file hdr index = some (.ok p) ∧
    (p.typ = ptLoad → p.checkValid = .ok () ∧
      segmentFate file (headersBefore file hdr index) p = .loads)

/-- The header makes the loader panic after the ones before it. -/
def Panics (index : Nat) : Prop :=
  ∃ p, ProgramHeader.loadFrom file hdr index = some (.ok p) ∧
    p.typ = ptLoad ∧ p.checkValid = .ok () ∧
      segmentFate file (headersBefore file hdr index) p = .panics

end

/-- The files for which the loader does what it should: no header makes it
panic that it gets to, and if all headers load then no segment ends where a
last-level page table ends. -/
structure Loadable (file : ExecFile) : Prop where
  comesBack : ∀ hdr, ElfHeader.loadFrom file = .ok hdr → hdr.checkValid = .ok () → ∀ i < hdr.phnum,
      (∀ j < i, Passes file hdr j) → ¬ Panics file hdr i
  whole : ∀ hdr, ElfHeader.loadFrom file = .ok hdr →
    hdr.checkValid = .ok () → (∀ j < hdr.phnum, Passes file hdr j) →
      ∀ p ∈ headersBefore file hdr hdr.phnum, p.memsz = 0 ∨ ¬ 512 ∣ p.endPage

/-- The memory of a segment: the data of the file, and zeros after it. -/
structure Holds (a : AddrSpace) (file : ExecFile) (p : ProgramHeader) :
    Prop where
  data : ∀ i < p.filesz, ∃ byte, file.content[p.offset + i]? = some byte ∧
    memoryByte a (p.vaddr + i) = some byte.toBitVec
  zeros : ∀ i, p.filesz ≤ i → i < p.memsz → memoryByte a (p.vaddr + i) = some 0

/-- `load_elf` comes back, and if it succeeds then every segment to load holds
its data. -/
def LoadsWell (src : PageSource) (refused : Refusals) (file : ExecFile) (a : AddrSpace) : Prop :=
  ∃ a' result, loadElf src refused file a = some (a', result) ∧
    ∀ hdr, result = .ok hdr → ∀ i < hdr.phnum, ∀ p,
      ProgramHeader.loadFrom file hdr i = some (.ok p) → p.typ = ptLoad → Holds a' file p

section

variable {file : ExecFile} {hdr : ElfHeader} {p : ProgramHeader}

lemma offset_le_size (hlen : 0 < len) (h : file.readStruct offset len = .ok bytes) :
    offset ≤ file.size := by
  by_contra hpast
  rw [ExecFile.readStruct, ExecFile.read, if_pos (by omega)] at h
  split at h
  · cases h
  rename_i bytes' hread
  split at hread
  · cases hread
  cases hread
  rw [if_pos (by simpa using hlen.ne)] at h
  cases h

lemma field_lt (bytes : List UInt8)
    (hbits : bits = 8 * width) : field bytes offset width < 2 ^ bits := by
  rw [hbits, Nat.pow_mul]
  exact Bytes.leValue_lt width _

lemma header_fields (h : ElfHeader.loadFrom file = .ok hdr) :
    hdr.phoff < 2 ^ 64 ∧ hdr.phentsize < 2 ^ 16 ∧ hdr.phnum < 2 ^ 16 := by
  rw [ElfHeader.loadFrom] at h
  split at h
  · cases h
  · cases h
    exact ⟨field_lt _ rfl, field_lt _ rfl, field_lt _ rfl⟩

lemma offset_lt (h : ProgramHeader.loadFrom file hdr index = some (.ok p)) : p.offset < 2 ^ 64 := by
  rw [ProgramHeader.loadFrom] at h
  split at h
  · cases h
  split at h
  · cases h
  · cases h
    exact field_lt _ rfl

/-- The offset of a header does not overflow: the first header is read first,
so the table starts inside the file. -/
lemma loadFrom_isSome (hhdr : ElfHeader.loadFrom file = .ok hdr) (hi : i < hdr.phnum)
    (hpass : ∀ j < i, Passes file hdr j) : (ProgramHeader.loadFrom file hdr i).isSome := by
  obtain ⟨hphoff, hphentsize, hphnum⟩ := header_fields hhdr
  have hnowrap : ¬ 2 ^ 64 ≤ hdr.phoff + hdr.phentsize * i := by
    cases i with
    | zero => omega
    | succ i =>
      obtain ⟨p, hp, -⟩ := hpass 0 (Nat.succ_pos i)
      have hsize := file.size_lt
      have hstart : hdr.phoff ≤ file.size := by
        rw [ProgramHeader.loadFrom, Nat.mul_zero, Nat.add_zero] at hp
        split at hp
        · cases hp
        split at hp
        · cases hp
        · rename_i hread
          exact offset_le_size (by decide) hread
      have htable : hdr.phentsize * (i + 1) ≤ 2 ^ 16 * 2 ^ 16 :=
        Nat.mul_le_mul (by omega) (by omega)
      rw [← ExecFile.size] at hsize
      omega
  rw [ProgramHeader.loadFrom, if_neg hnowrap]
  split <;> rfl

lemma headersBefore_succ (i : Nat) : headersBefore file hdr (i + 1) =
    headersBefore file hdr i ++ (loadable file hdr i).toList := by
  rw [headersBefore, range_succ, filterMap_append]
  rfl

lemma loadable_eq_some : loadable file hdr i = some p ↔
    ProgramHeader.loadFrom file hdr i = some (.ok p) ∧ p.typ = ptLoad := by
  rw [loadable]
  cases hread : ProgramHeader.loadFrom file hdr i with
  | none => simp
  | some read =>
    cases read with
    | error e => simp
    | ok q =>
      by_cases htyp : q.typ = ptLoad
      · simp only [if_pos htyp, some.injEq, Except.ok.injEq]
        exact ⟨fun heq => ⟨heq, heq ▸ htyp⟩, fun h => h.1⟩
      · simp only [if_neg htyp, some.injEq, Except.ok.injEq]
        exact ⟨nofun, fun h => absurd (h.1 ▸ h.2) htyp⟩

lemma mem_headersBefore : p ∈ headersBefore file hdr i ↔ ∃ j < i,
    ProgramHeader.loadFrom file hdr j = some (.ok p) ∧ p.typ = ptLoad := by
  simp only [headersBefore, mem_filterMap, mem_range, loadable_eq_some]

lemma Passes.loads (h : Passes file hdr i) (hp : ProgramHeader.loadFrom file hdr i = some (.ok p))
    (htyp : p.typ = ptLoad) : p.checkValid = .ok () ∧
      segmentFate file (headersBefore file hdr i) p = .loads := by
  obtain ⟨q, hq, hloads⟩ := h
  cases hp.symm.trans hq
  exact hloads htyp

lemma Passes.not_panics (h : Passes file hdr i) : ¬ Panics file hdr i := by
  rintro ⟨p, hp, htyp, -, hpanics⟩
  cases hpanics.symm.trans (h.loads hp htyp).2

lemma bounds_of_passes (hpass : ∀ j < i, Passes file hdr j) :
    ∀ q ∈ headersBefore file hdr i, q.Bounds := by
  intro q hq
  obtain ⟨j, hj, hread, htyp⟩ := mem_headersBefore.mp hq
  exact ProgramHeader.bounds ((hpass j hj).loads hread htyp).1

end

section

variable {base : Nat → Nat} {file : ExecFile} {hdr : ElfHeader} {a : AddrSpace}

lemma loadPhdr_fate (src : PageSource) (refused : Refusals)
    (hhdr : ElfHeader.loadFrom file = .ok hdr) (hi : i < hdr.phnum)
    (hpass : ∀ j < i, Passes file hdr j) (h : Loaded base file (headersBefore file hdr i) a) :
    match loadPhdr src refused file hdr i a with
    | none => Panics file hdr i
    | some (_, .error _) => (∀ l k, refused l k = false) →
        ¬ Passes file hdr i ∧ ¬ Panics file hdr i
    | some (a', .ok ()) => Passes file hdr i ∧
        Loaded base file (headersBefore file hdr (i + 1)) a' := by
  obtain ⟨read, hread⟩ := isSome_iff_exists.mp (loadFrom_isSome hhdr hi hpass)
  cases read with
  | error e =>
    rw [loadPhdr, hread]
    intro _
    constructor <;>
    · rintro ⟨p, hp, -⟩
      cases hread.symm.trans hp
  | ok p =>
    have hpanics : Panics file hdr i → p.typ = ptLoad ∧ p.checkValid = .ok () ∧
        segmentFate file (headersBefore file hdr i) p = .panics := by
      rintro ⟨q, hq, hpanics⟩
      cases hread.symm.trans hq
      exact hpanics
    by_cases htyp : p.typ = ptLoad
    · simp only [loadPhdr, hread, htyp, ne_eq, not_true_eq_false, ↓reduceIte]
      cases hvalid : p.checkValid with
      | error e =>
        refine fun _ => ⟨fun hpasses => ?_, fun hpanic => ?_⟩
        · cases hvalid.symm.trans (hpasses.loads hread htyp).1
        · cases hvalid.symm.trans (hpanics hpanic).2.1
      | ok =>
        have hfate := loadSegment_fate src refused h (bounds_of_passes hpass)
          (ProgramHeader.bounds hvalid) (offset_lt hread)
        have hnext : headersBefore file hdr (i + 1) = headersBefore file hdr i ++ [p] := by
          rw [headersBefore_succ, loadable_eq_some.mpr ⟨hread, htyp⟩]
          rfl
        cases hrun : loadSegment src refused file p a with
        | none =>
          rw [hrun] at hfate
          exact ⟨p, hread, htyp, hvalid, hfate⟩
        | some out =>
          obtain ⟨a', result⟩ := out
          rw [hrun] at hfate
          cases result with
          | error e =>
            intro hgrant
            have hfails := hfate hgrant
            refine ⟨fun hpasses => ?_, fun hpanic => ?_⟩
            · cases hfails.symm.trans (hpasses.loads hread htyp).2
            · cases hfails.symm.trans (hpanics hpanic).2.2
          | ok =>
            obtain ⟨hloads, hloaded⟩ := hfate
            exact ⟨⟨p, hread, fun _ => ⟨hvalid, hloads⟩⟩, hnext ▸ hloaded⟩
    · have hnext : headersBefore file hdr (i + 1) =
          headersBefore file hdr i := by
        rw [headersBefore_succ, loadable, hread]
        simp [htyp]
      simp only [loadPhdr, hread, ne_eq, htyp, not_false_eq_true, ↓reduceIte]
      exact ⟨⟨p, hread, fun hload => absurd hload htyp⟩, hnext ▸ h⟩

def Reached (base : Nat → Nat) (file : ExecFile) (hdr : ElfHeader)
    (done : List Nat) (a : AddrSpace) : Prop :=
  (∀ j < done.length, Passes file hdr j) ∧ Loaded base file (headersBefore file hdr done.length) a

lemma range_split {n i : Nat} {before after : List Nat}
    (h : List.range n = before ++ i :: after) : i = before.length ∧ i < n := by
  rw [range_eq_range'] at h
  have hsplit : interval 0 n = before ++ i :: after := h
  obtain ⟨-, hlt, heq⟩ := interval_split hsplit
  exact ⟨by omega, hlt⟩

lemma Reached.step (hhdr : ElfHeader.loadFrom file = .ok hdr) {before after : List Nat}
    {i : Nat} {a' : AddrSpace} (hsplit : List.range hdr.phnum = before ++ i :: after)
    (h : Reached base file hdr before a)
    (hrun : loadPhdr src refused file hdr i a = some (a', .ok ())) :
    Reached base file hdr (before ++ [i]) a' := by
  obtain ⟨rfl, hlt⟩ := range_split hsplit
  have hfate := loadPhdr_fate src refused hhdr hlt h.1 h.2
  rw [hrun] at hfate
  obtain ⟨hpasses, hloaded⟩ := hfate
  rw [Reached, length_append, length_singleton]
  refine ⟨fun j hj => ?_, hloaded⟩
  rcases Nat.lt_succ_iff_lt_or_eq.mp hj with hlt' | rfl
  · exact h.1 j hlt'
  · exact hpasses

lemma headers_granted (src : PageSource) (hgrant : ∀ l k, refused l k = false)
    (hhdr : ElfHeader.loadFrom file = .ok hdr) (hi : i ≤ hdr.phnum)
    (hpass : ∀ j < i, Passes file hdr j) (h : Loaded base file [] a) :
    ∃ a', tryEach (loadPhdr src refused file hdr) (List.range i) a =
        some (a', .ok ()) ∧ Loaded base file (headersBefore file hdr i) a' := by
  apply tryEach_ok fun done a => Loaded base file (headersBefore file hdr done.length) a
  · intro before j after a' hsplit hloaded
    obtain ⟨rfl, hlt⟩ := range_split hsplit
    have hfate := loadPhdr_fate src refused hhdr
      (Nat.lt_of_lt_of_le hlt hi) (fun k hk => hpass k (hk.trans hlt)) hloaded
    cases hrun : loadPhdr src refused file hdr before.length a' with
    | none =>
      rw [hrun] at hfate
      exact absurd hfate (hpass _ hlt).not_panics
    | some out =>
      obtain ⟨a'', result⟩ := out
      rw [hrun] at hfate
      cases result with
      | error e => exact absurd (hpass _ hlt) (hfate hgrant).1
      | ok =>
        rw [length_append, length_singleton]
        exact ⟨a'', rfl, hfate.2⟩
  · exact h
  · intro a' hloaded
    rwa [length_range] at hloaded

lemma not_loadsWell_of_panics (src : PageSource) (hgrant : ∀ l k, refused l k = false)
    (hhdr : ElfHeader.loadFrom file = .ok hdr) (hvalid : hdr.checkValid = .ok ())
    (hi : i < hdr.phnum) (hpass : ∀ j < i, Passes file hdr j) (hpanics : Panics file hdr i)
    (h : Loaded base file [] a) : ¬ LoadsWell src refused file a := by
  obtain ⟨a', hrun, hloaded⟩ := headers_granted src hgrant hhdr (Nat.le_of_lt hi) hpass h
  have hfate := loadPhdr_fate src refused hhdr hi hpass hloaded
  have hnone : loadPhdr src refused file hdr i a' = none := by
    cases hbody : loadPhdr src refused file hdr i a' with
    | none => rfl
    | some out =>
      obtain ⟨a'', result⟩ := out
      rw [hbody] at hfate
      cases result with
      | error e => exact absurd hpanics (hfate hgrant).2
      | ok => exact absurd hpanics hfate.1.not_panics
  have hrange : range hdr.phnum = range i ++ i :: (interval (i + 1) hdr.phnum) := by
    rw [range_eq_range', range_eq_range']
    change interval 0 hdr.phnum = interval 0 i ++ i :: interval (i + 1) hdr.phnum
    rw [← interval_append (Nat.zero_le i) (Nat.le_of_lt hi), ← interval_append (Nat.le_succ i) hi]
    simp [interval]
  rintro ⟨a'', result, hload, -⟩
  rw [loadElf, hhdr] at hload
  simp only [hvalid, hrange, tryEach_append hrun, tryEach, hnone] at hload
  cases hload

lemma lookup_of_memoryByte (h : memoryByte a addr = some byte) :
    addr < vaLimit ∧ a.vm.pgTable.lookup 0 (addr / 4096) ≠ none := by
  rw [memoryByte, map_eq_some_iff] at h
  obtain ⟨e, he, -⟩ := h
  have hlt := translate_lt he
  rw [translate_eq hlt] at he
  exact ⟨hlt, ne_none_iff_exists'.mpr ⟨e, he⟩⟩

lemma Holds.memoryByte_ne_none (h : Holds a file p)
    (hi : i < p.memsz) : ∃ byte, memoryByte a (p.vaddr + i) = some byte := by
  by_cases hdata : i < p.filesz
  · obtain ⟨byte, -, hbyte⟩ := h.data i hdata
    exact ⟨_, hbyte⟩
  · exact ⟨0, h.zeros i (by omega) hi⟩

lemma whole_of_holds (h : Loaded base file earlier a) (hearlier : ∀ q ∈ earlier, q.Bounds)
    (hp : p ∈ earlier) (hholds : Holds a file p) : p.memsz = 0 ∨ ¬ 512 ∣ p.endPage := by
  by_contra hcon
  simp only [not_or, not_not] at hcon
  obtain ⟨hmemsz, hdvd⟩ := hcon
  have hbounds := hearlier p hp
  have hpages : p.vaddr + (p.memsz - 1) < p.endPage * 4096 ∧
      (p.vaddr + (p.memsz - 1)) / 4096 = p.endPage - 1 ∧
      p.startPage < p.endPage := by
    have hvaddr := hbounds.vaddr
    have hmem := hbounds.memsz
    have hlast := hbounds.lastPage
    have hle := hbounds.le
    omega
  have hchunk : p.mappedEnd = p.endPage - 512 := by
    rw [ProgramHeader.mappedEnd, lastChunk_endPage hbounds, if_pos hdvd]
  obtain ⟨byte, hbyte⟩ := hholds.memoryByte_ne_none (by omega : p.memsz - 1 < p.memsz)
  have hlookup := (lookup_of_memoryByte hbyte).2
  rw [hpages.2.1] at hlookup
  obtain ⟨q, hq, hqlo, hqhi⟩ := (h.mapped _ (userPage_of_bounds hbounds
    (by omega : p.startPage ≤ p.endPage - 1) (by omega))).mp hlookup
  have hqend : q.mappedEnd ≤ q.endPage := Nat.sub_le _ _
  have hqbounds := hearlier q hq
  have hne : q.area ≠ p.area := by
    intro heq
    have hend := area_end hqbounds
    rw [heq, area_end hbounds] at hend
    rw [ProgramHeader.mappedEnd, ← Nat.eq_of_mul_eq_mul_right (by decide) hend,
      ← ProgramHeader.mappedEnd, hchunk] at hqhi
    omega
  have hsymm : Std.Symm fun x y : VmArea => y.overlaps x = false :=
    ⟨fun x y hxy => by simpa only [VmArea.overlaps, and_comm] using hxy⟩
  have hapart := h.held.segs.disjoint.forall (h.areas ▸ mem_map_of_mem hp)
    (h.areas ▸ mem_map_of_mem hq) hne.symm
  rw [VmArea.overlaps, decide_eq_false_iff_not, area_end hbounds, area_end hqbounds] at hapart
  apply hapart
  rw [VmArea.startVa, VmArea.startVa, area_va, area_va]
  omega

lemma holds_of_loaded (h : Loaded base file earlier a) (hp : p ∈ earlier) (hbounds : p.Bounds)
    (hwhole : p.memsz = 0 ∨ ¬ 512 ∣ p.endPage)
    (hfile : p.filesz = 0 ∨ p.offset + p.filesz ≤ file.size) : Holds a file p := by
  have hvaddr := hbounds.vaddr
  have hmemsz := hbounds.memsz
  have hfilesz := hbounds.filesz
  have hbytes : ∀ i < p.memsz, memoryByte a (p.vaddr + i) = some (p.byte file i) := by
    intro i hi
    have hend : p.mappedEnd = p.endPage := by
      rw [ProgramHeader.mappedEnd, lastChunk_eq_zero (hwhole.resolve_left (by omega)), Nat.sub_zero]
    exact h.bytes p hp i (by rw [hend]; omega)
  constructor
  · intro i hi
    have hlt : p.offset + i < file.content.length := by
      rw [← ExecFile.size]
      omega
    refine ⟨file.content[p.offset + i], getElem?_eq_getElem hlt, ?_⟩
    rw [hbytes i (by omega), ProgramHeader.byte, if_pos hi, ExecFile.byte, getD_eq_getElem _ _ hlt]
  · intro i hlo hhi
    rw [hbytes i hhi, ProgramHeader.byte, if_neg (by omega)]

lemma file_of_loads (h : segmentFate file earlier p = .loads) :
    p.filesz = 0 ∨ p.offset + p.filesz ≤ file.size := by
  rw [segmentFate] at h
  split at h
  · cases h
  split at h
  · cases h
  split at h
  · cases h
  rw [dataFate] at h
  split at h
  · exact .inl ‹_›
  split at h
  · cases h
  split at h
  · split at h <;> cases h
  split at h
  · rename_i hboth
    exact .inr hboth.1
  · cases h

lemma loadsWell_of_loadable (refused : Refusals) (hfile : Loadable file)
    (h : Loaded base file [] a) : LoadsWell src refused file a := by
  rw [LoadsWell, loadElf]
  cases hhdr : ElfHeader.loadFrom file with
  | error e => exact ⟨a, .error e, rfl, nofun⟩
  | ok hdr =>
    cases hvalid : hdr.checkValid with
    | error e => exact ⟨a, .error e, by simp only [hvalid], nofun⟩
    | ok =>
      have hstart : Reached base file hdr [] a := ⟨nofun, h⟩
      have hsome : (tryEach (loadPhdr src refused file hdr) (range hdr.phnum) a).isSome := by
        apply tryEach_isSome (Reached base file hdr) _ _ hstart
        · intro before i after a' hsplit hreached
          obtain ⟨rfl, hlt⟩ := range_split hsplit
          have hfate := loadPhdr_fate src refused hhdr hlt hreached.1 hreached.2
          rw [isSome_iff_ne_none]
          intro hnone
          rw [hnone] at hfate
          exact hfile.comesBack hdr hhdr hvalid _ hlt hreached.1 hfate
        · intro before i after a' a'' hsplit hreached hrun
          exact hreached.step hhdr hsplit hrun
      obtain ⟨⟨a', result⟩, hrun⟩ := isSome_iff_exists.mp hsome
      cases result with
      | error e => exact ⟨a', .error e, by simp only [hvalid, hrun], nofun⟩
      | ok =>
        have hreached : Walks.Outcome (Reached base file hdr (range hdr.phnum))
            (fun _ (_ : LoadError) => True) (a', .ok ()) := by
          apply tryEach_outcome (Reached base file hdr) (fun _ _ => True) _ hstart hrun
          intro before i after a₁ out hsplit hr hbody
          obtain ⟨a₂, result⟩ := out
          cases result with
          | error e => trivial
          | ok => exact hr.step hhdr hsplit hbody
        obtain ⟨hpass, hloaded⟩ := hreached
        rw [length_range] at hpass hloaded
        refine ⟨a', .ok hdr, by simp only [hvalid, hrun], ?_⟩
        intro hdr' heq i hi p hread htyp
        cases heq
        have hp := mem_headersBefore.mpr ⟨i, hi, hread, htyp⟩
        exact holds_of_loaded hloaded hp (bounds_of_passes hpass p hp)
          (hfile.whole hdr hhdr hvalid hpass p hp) (file_of_loads ((hpass i hi).loads hread htyp).2)

lemma loadable_of_loadsWell (src : PageSource) (hgrant : ∀ l k, refused l k = false)
    (h : Loaded base file [] a) (hwell : LoadsWell src refused file a) : Loadable file := by
  constructor
  · intro hdr hhdr hvalid i hi hpass hpanics
    exact not_loadsWell_of_panics src hgrant hhdr hvalid hi hpass hpanics h hwell
  intro hdr hhdr hvalid hpass p hp
  obtain ⟨a', hrun, hloaded⟩ := headers_granted src hgrant hhdr le_rfl hpass h
  obtain ⟨a'', result, hload, hholds⟩ := hwell
  rw [loadElf, hhdr] at hload
  simp only [hvalid, hrun] at hload
  cases hload
  obtain ⟨i, hi, hread, htyp⟩ := mem_headersBefore.mp hp
  exact whole_of_holds hloaded (bounds_of_passes hpass) hp (hholds hdr rfl i hi p hread htyp)

end

lemma loaded_of_new (file : ExecFile) (hkernel : kernel.Wf) (hhonest : h.badFree = false)
    (hnew : withKernelVm src kernel r h = some a) :
    Loaded (fun page => h.issued.count page) file [] a := by
  obtain ⟨hwf, hsegs, hno, hareas, -, hbad, -, hcount⟩ := withKernelVm_spec hkernel hnew
  refine ⟨⟨⟨hwf, hcount, hbad.trans hhonest⟩, hsegs⟩, hareas, ?_, nofun⟩
  intro v hv
  exact iff_of_false (fun hmapped => hmapped (hno v hv)) (by simp)

/-- Into a new address space the loader loads exactly the loadable files well,
for every behaviour of the page allocator. -/
theorem loadElf_total_faithful_iff (src : PageSource) {kernel : PageTable} (hkernel : kernel.Wf)
    {h : Heap} (hhonest : h.badFree = false) {r : Bool} {a : AddrSpace}
    (hnew : withKernelVm src kernel r h = some a) (file : ExecFile) :
    (∀ refused, LoadsWell src refused file a) ↔ Loadable file := by
  have hloaded := loaded_of_new file hkernel hhonest hnew
  constructor
  · intro hwell
    exact loadable_of_loadsWell src (fun _ _ => rfl) hloaded (hwell granting)
  · intro hfile refused
    exact loadsWell_of_loadable refused hfile hloaded

def leList (width value : Nat) : List UInt8 := (List.range width).map (Bytes.leBytes value)

/-- A file with one segment to load, of one page.  Its data starts after the
headers, and three bytes of it are there. -/
def oneSegment (filesz : Nat) : ExecFile where
  content :=
    magic ++ List.replicate 12 0 ++ leList 2 2 ++ leList 2 243 ++ leList 4 1 ++
      leList 8 0x200080000 ++ leList 8 64 ++ leList 8 0 ++ leList 4 0 ++
      leList 2 64 ++ leList 2 56 ++ leList 2 1 ++ leList 6 0 ++
      leList 4 1 ++ leList 4 5 ++ leList 8 120 ++ leList 8 0x200080000 ++
      leList 8 0x200080000 ++ leList 8 filesz ++ leList 8 4096 ++
      leList 8 4096 ++ [7, 8, 9]
  size_lt := by simp [leList, magic]
  rejectsPastEnd := true

def oneSegmentHeader : ElfHeader :=
  { ident := magic ++ List.replicate 12 0, entry := 0x200080000, phoff := 64
    phentsize := 56, phnum := 1 }

def oneSegmentPhdr (filesz : Nat) : ProgramHeader :=
  { typ := ptLoad, flags := 5, offset := 120, vaddr := 0x200080000, filesz
    memsz := 4096 }

lemma oneSegment_loadable : Loadable (oneSegment 3) := by
  have hhdr : ElfHeader.loadFrom (oneSegment 3) = .ok oneSegmentHeader := by decide +kernel
  have hread : ProgramHeader.loadFrom (oneSegment 3) oneSegmentHeader 0 =
      some (.ok (oneSegmentPhdr 3)) := by
    decide +kernel
  constructor
  · rintro hdr hhdr' - i hi - ⟨p, hp, -, -, hpanics⟩
    cases hhdr.symm.trans hhdr'
    obtain rfl : i = 0 := Nat.lt_one_iff.mp hi
    cases hread.symm.trans hp
    revert hpanics
    decide +kernel
  intro hdr hhdr' _ _ p hp
  cases hhdr.symm.trans hhdr'
  obtain ⟨i, hi, hp, -⟩ := mem_headersBefore.mp hp
  obtain rfl : i = 0 := Nat.lt_one_iff.mp hi
  cases hread.symm.trans hp
  exact .inr (by decide +kernel)

/-- The file with all of its data. -/
theorem oneSegment_loadsWell :
    ∃ a, withKernelVm nextPage System.boot.kernel false System.boot.heap = some a ∧
      ∀ refused, LoadsWell nextPage refused (oneSegment 3) a := by
  obtain ⟨a, hnew⟩ : ∃ a, withKernelVm nextPage System.boot.kernel false
      System.boot.heap = some a := ⟨_, rfl⟩
  have hkernel : System.boot.kernel.Wf := fun _ _ _ _ => rfl
  exact ⟨a, hnew, (loadElf_total_faithful_iff nextPage hkernel rfl hnew
    (oneSegment 3)).mpr oneSegment_loadable⟩

/-- The file whose header claims a byte more than there is: the loader asks for
a second page, and panics. -/
theorem oneSegment_panics : ∃ a, withKernelVm nextPage System.boot.kernel false System.boot.heap =
        some a ∧ loadElf nextPage granting (oneSegment 4) a = none := by
  refine ⟨_, rfl, ?_⟩
  rw [← isNone_iff_eq_none]
  decide +kernel

end Redwing.Elf
