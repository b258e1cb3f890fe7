/-
The pointers of system calls: the checks of `syscall/mod.rs` on references,
slices and C strings, and what happens when the kernel then uses the memory.
The checks compare addresses with constants; whether an access goes through is
up to the page table and the page fault handler.
-/
import Redwing.VmBrk

namespace Redwing.Vm

def userElfBaseVaddr : Nat := 0x200080000

/-- `is_from_user`; the end is computed with `checked_add`. -/
def isFromUser (addr size : Nat) : Bool :=
  decide (userElfBaseVaddr ≤ addr) && decide (addr + size < 2 ^ 64 ∧ addr + size ≤ userEndVaddr)

def sysArgRef (size align addr : Nat) : Except SysError Unit :=
  if isFromUser addr size = false ∨ addr % align ≠ 0 then .error SysErrorKind.fault.err
  else .ok ()

/-- The check of `sys_arg_slice_mut`; the product wraps around. -/
def sysArgSliceMut (elemSize align addr len : Nat) : Except SysError Unit :=
  let size := len * elemSize % 2 ^ 64
  if size ≠ 0 ∧ (isFromUser addr size = false ∨ addr % align ≠ 0) then .error SysErrorKind.fault.err
  else .ok ()

def sysArgSlice (elemSize align addr len : Nat) : Except SysError Unit :=
  sysArgSliceMut elemSize align addr len

/-- What the kernel does with the memory of an argument: `AccessType` without
the execution of instructions. -/
inductive DataAccess
  | write
  | read
deriving DecidableEq

/-- The entry for an address in the page table that the CPU walks. -/
def translate (t : PageTable) (addr : Nat) : Option Pte :=
  if vaLimit ≤ addr then none else t.lookup 0 (addr / 4096)

/-- Whether an entry lets the kernel access its page.  The kernel runs with the
SUM bit, so it may load from and store to the pages of the user. -/
def Pte.permits (e : Pte) : DataAccess → Bool
  | .write => e.perm.writable
  | .read => e.perm.readable

def permitted (t : PageTable) (access : DataAccess) (addr : Nat) : Bool :=
  (translate t addr).any fun e => e.permits access

section

variable (src : PageSource) (refused : Refusals)

def pageFaultHandler (addr : Nat) (a : AddrSpace) : Option (AddrSpace × Bool) :=
  match onPageFault src refused addr a with
  | none => none
  | some (a, .ok ()) => some (a, true)
  | some (a, .error _) => some (a, false)

/-- An access of the kernel.  A page fault is handled and the instruction
retried; `none` stands for a fault that the handler does not resolve, after
which the same instruction faults for ever. -/
def kernelAccess (access : DataAccess) (addr : Nat) (a : AddrSpace) : Option AddrSpace :=
  if permitted a.vm.pgTable access addr then some a
  else
    match pageFaultHandler src refused addr a with
    | some (a, true) =>
      if permitted a.vm.pgTable access addr then some a else none
    | _ => none

/-- The accesses of the kernel to the bytes of an object, from the first one on. -/
def kernelAccesses (access : DataAccess) : Nat → Nat → AddrSpace → Option AddrSpace
  | 0, _, a => some a
  | size + 1, addr, a =>
    match kernelAccess src refused access addr a with
    | none => none
    | some a => kernelAccesses access size (addr + 1) a

def byteAt (a : AddrSpace) (addr : Nat) : BitVec 8 :=
  match translate a.vm.pgTable addr with
  | none => 0
  | some e => a.heap.mem e.physicalAddr (addr % 4096)

structure CStringArg where
  baseAddr : Nat
  len : Nat
deriving DecidableEq

lemma lt_userEndVaddr_of_sysArgRef (h : sysArgRef 1 1 addr = .ok ()) : addr < userEndVaddr := by
  rw [sysArgRef] at h
  split at h
  · cases h
  rename_i hcheck
  simp only [isFromUser, Bool.and_eq_false_iff, decide_eq_false_iff_not, not_or, not_not] at hcheck
  omega

def cStringLoop (baseAddr addr : Nat) (a : AddrSpace) :
    Option (AddrSpace × Except SysError CStringArg) :=
  match _hcheck : sysArgRef 1 1 addr with
  | .error e => some (a, .error e)
  | .ok () =>
    match kernelAccess src refused .read addr a with
    | none => none
    | some a =>
      if byteAt a addr = 0 then some (a, .ok { baseAddr, len := addr - baseAddr })
      else cStringLoop baseAddr (addr + 1) a
termination_by userEndVaddr - addr
decreasing_by
  have := lt_userEndVaddr_of_sysArgRef _hcheck
  omega

def CStringArg.new (baseAddr : Nat) (a : AddrSpace) :
    Option (AddrSpace × Except SysError CStringArg) :=
  cStringLoop src refused baseAddr baseAddr a

end

/-- The page of the byte is mapped with user permission or lies in the lazily
allocated user space. -/
def UsablePage (a : AddrSpace) (addr : Nat) : Prop :=
  (∃ e, translate a.vm.pgTable addr = some e ∧ e.perm.user = true) ∨
    (translate a.vm.pgTable addr = none ∧ userBaseVaddr ≤ (pgRoundDown addr).val ∧
      (pgRoundDown addr).val < userBaseVaddr + a.vm.userSpaceSize)

/-- Every page of the object is one of the user, and while there are free pages
the kernel can access the object from its first to its last byte. -/
structure Usable (src : PageSource) (access : DataAccess) (start size : Nat)
    (a : AddrSpace) : Prop where
  pages : ∀ addr, start ≤ addr → addr < start + size → UsablePage a addr
  access : (kernelAccesses src granting access size start a).isSome

/-- The first byte that an object from `start` on has in the page of `addr`. -/
def firstInPage (start addr : Nat) : Nat := max start (addr / 4096 * 4096)

/-- The page of `addr` is mapped with the right of the access, or it is not
mapped and the first byte of the object in it is below the break: the fault
there maps the whole page. -/
def accessible (access : DataAccess) (vm : VMInner) (start addr : Nat) : Bool :=
  match translate vm.pgTable addr with
  | some e => e.permits access
  | none => decide (userBaseVaddr ≤ firstInPage start addr ∧
      firstInPage start addr < userBaseVaddr + vm.userSpaceSize)

def readyByte (access : DataAccess) (vm : VMInner) (start addr : Nat) : Bool :=
  (translate vm.pgTable addr).all (fun e => e.perm.user) && accessible access vm start addr

def Ready (access : DataAccess) (start size : Nat) (vm : VMInner) : Prop :=
  ∀ addr, start ≤ addr → addr < start + size → readyByte access vm start addr = true

section

variable {src : PageSource} {refused : Refusals} {base : Nat → Nat} {a a' : AddrSpace}
  {access : DataAccess}

lemma translate_lt (h : translate t addr = some e) : addr < vaLimit := by
  rw [translate] at h
  split at h
  · cases h
  · omega

lemma translate_eq (h : addr < vaLimit) : translate t addr = t.lookup 0 (addr / 4096) := by
  rw [translate, if_neg (by omega)]

lemma onPageFault_mapped (h : Held base a) (he : translate a.vm.pgTable addr = some e) :
    ∃ err, onPageFault src refused addr a = some (a, .error err) := by
  have hlt := translate_lt he
  rw [translate_eq hlt] at he
  rw [vaLimit] at hlt
  have hget := getEntry_eq h.owns.wf (by omega : addr / 4096 < 134217728)
  rw [show a.space.table = a.vm.pgTable from rfl, he] at hget
  by_cases hrange : userBaseVaddr ≤ addr ∧ addr < userBaseVaddr + a.vm.userSpaceSize
  · exact ⟨SysErrorKind.fault.err, by
      simp only [onPageFault, hrange, and_self, ↓reduceIte, pgRoundDown, hget]⟩
  · exact ⟨SysErrorKind.outOfMemory.err, by simp only [onPageFault, hrange, ↓reduceIte]⟩

lemma kernelAccess_permitted (h : permitted a.vm.pgTable access addr = true) :
    kernelAccess src refused access addr a = some a := by
  rw [kernelAccess, if_pos h]

lemma kernelAccess_eq_some (hrun : kernelAccess src refused access addr a = some a') :
    permitted a'.vm.pgTable access addr = true ∧
      (a' = a ∨ onPageFault src refused addr a = some (a', .ok ())) := by
  rw [kernelAccess] at hrun
  split at hrun
  · rename_i hpermitted
    cases hrun
    exact ⟨hpermitted, .inl rfl⟩
  split at hrun
  · rename_i b hhandled
    split at hrun
    · rename_i hpermitted
      cases hrun
      refine ⟨hpermitted, .inr ?_⟩
      rw [pageFaultHandler] at hhandled
      split at hhandled
      · cases hhandled
      · rename_i hfault
        cases hhandled
        exact hfault
      · cases hhandled
    · cases hrun
  · cases hrun

lemma permitted_eq_true_iff : permitted t access addr = true ↔
    ∃ e, translate t addr = some e ∧ e.permits access = true := by
  rw [permitted, Option.any_eq_true]

def Extends (a a' : AddrSpace) : Prop :=
  ∀ addr, translate a'.vm.pgTable addr = translate a.vm.pgTable addr ∨
    (translate a.vm.pgTable addr = none ∧
      ∃ e, translate a'.vm.pgTable addr = some e ∧ e.perm.user = true)

lemma Extends.refl (a : AddrSpace) : Extends a a := fun _ => .inl rfl

lemma Extends.trans (h : Extends a a') (h' : Extends a' b) : Extends a b := by
  intro addr
  rcases h addr with hsame | ⟨hnone, e, he, huser⟩
  · rw [← hsame]
    exact h' addr
  refine .inr ⟨hnone, ?_⟩
  rcases h' addr with hsame | ⟨hnone', -⟩
  · exact ⟨e, hsame.trans he, huser⟩
  · rw [he] at hnone'
    cases hnone'

lemma Extends.permitted (h : Extends a a')
    (hpermitted : permitted a.vm.pgTable access addr = true) :
    permitted a'.vm.pgTable access addr = true := by
  rcases h addr with hsame | ⟨hnone, -⟩
  · rwa [Vm.permitted, hsame]
  obtain ⟨e, he, -⟩ := permitted_eq_true_iff.mp hpermitted
  rw [hnone] at he
  cases he

lemma onPageFault_size (hrun : onPageFault src refused addr a = some (a', .ok ())) :
    a'.vm.userSpaceSize = a.vm.userSpaceSize := by
  rw [onPageFault] at hrun
  split at hrun
  · simp only at hrun
    split at hrun
    · cases hrun
    · cases hrun
    split at hrun
    · cases hrun
    · cases hrun
      rfl
    · cases hrun
  · cases hrun

lemma translate_congr (hpage : c / 4096 = addr / 4096) : translate t c = translate t addr := by
  rw [translate, translate, hpage]
  have hlimit : vaLimit ≤ c ↔ vaLimit ≤ addr := by
    rw [vaLimit]
    omega
  simp only [hlimit]

section

variable (h : Held base a)

include h

lemma onPageFault_other (hrun : onPageFault src refused addr a = some (a', .ok ()))
    (hpage : c / 4096 ≠ addr / 4096) :
    translate a'.vm.pgTable c = translate a.vm.pgTable c := by
  by_cases hc : vaLimit ≤ c
  · rw [translate, translate, if_pos hc, if_pos hc]
  · rw [translate_eq (not_le.mp hc), translate_eq (not_le.mp hc)]
    exact (onPageFault_maps h hrun).other _ (by omega)

lemma onPageFault_extends (hrun : onPageFault src refused addr a = some (a', .ok ())) :
    Extends a a' := by
  intro c
  by_cases hpage : c / 4096 = addr / 4096
  · by_cases hc : vaLimit ≤ c
    · exact .inl (by rw [translate, translate, if_pos hc, if_pos hc])
    · obtain ⟨hnone, -, e, he, hperm, -⟩ :=
        (onPageFault_maps h hrun).page _ le_rfl (Nat.lt_succ_self _)
      rw [translate_eq (not_le.mp hc), translate_eq (not_le.mp hc), hpage]
      exact .inr ⟨hnone, e, he, by rw [hperm]; rfl⟩
  · exact .inl (onPageFault_other h hrun hpage)

lemma onPageFault_permitted (hlt : addr < vaLimit)
    (hrun : onPageFault src refused addr a = some (a', .ok ())) :
    permitted a'.vm.pgTable access addr = true := by
  obtain ⟨-, -, e, he, hperm, -⟩ := (onPageFault_maps h hrun).page _ le_rfl (Nat.lt_succ_self _)
  rw [permitted_eq_true_iff, translate_eq hlt]
  refine ⟨e, he, ?_⟩
  cases access with
  | write | read => rw [Pte.permits, hperm]; rfl

lemma kernelAccess_extends (hrun : kernelAccess src refused access addr a = some a') :
    Held base a' ∧ Extends a a' := by
  rcases (kernelAccess_eq_some hrun).2 with rfl | hfault
  · exact ⟨h, Extends.refl a'⟩
  · exact ⟨(onPageFault_spec h hfault).1, onPageFault_extends h hfault⟩

lemma kernelAccess_isSome_iff : (kernelAccess src granting access addr a).isSome = true ↔
    accessible access a.vm addr addr = true := by
  have hfirst : firstInPage addr addr = addr :=
    Nat.max_eq_left (Nat.div_mul_le_self addr 4096)
  rw [accessible, hfirst]
  cases he : translate a.vm.pgTable addr with
  | some e =>
    have hpermitted : permitted a.vm.pgTable access addr = e.permits access := by
      rw [permitted, he]
      rfl
    obtain ⟨err, herr⟩ := onPageFault_mapped h he
    rw [kernelAccess, hpermitted, pageFaultHandler, herr]
    by_cases hpermits : e.permits access = true <;> simp [hpermits]
  | none =>
    have hpermitted : permitted a.vm.pgTable access addr = false := by
      rw [permitted, he]
      rfl
    rw [kernelAccess, hpermitted, if_neg Bool.false_ne_true, pageFaultHandler]
    simp only [decide_eq_true_eq]
    by_cases hrange : userBaseVaddr ≤ addr ∧ addr < userBaseVaddr + a.vm.userSpaceSize
    · have hlt : addr < vaLimit := by
        have hpage := (page_of_lt_break h hrange.1 hrange.2).2
        rw [vaLimit]
        omega
      rw [translate_eq hlt] at he
      obtain ⟨b, hfault⟩ := onPageFault_granted h hrange.1 hrange.2 he
      rw [hfault]
      simp [onPageFault_permitted h hlt hfault, hrange]
    · rw [onPageFault, if_neg hrange]
      simp [hrange]

/-- An access leaves the other pages of the object as they were, and of its own
page the bytes that follow can be accessed. -/
lemma accessible_succ (hrun : kernelAccess src granting access start a = some a')
    (hlt : start < addr) :
    accessible access a'.vm (start + 1) addr = accessible access a.vm start addr := by
  obtain ⟨hpermitted, hhow⟩ := kernelAccess_eq_some hrun
  by_cases hpage : addr / 4096 = start / 4096
  · have hbefore : accessible access a.vm start addr = accessible access a.vm start start := by
      rw [accessible, accessible, translate_congr hpage, firstInPage, firstInPage, hpage]
    have hnow : accessible access a.vm start start = true := by
      rw [← kernelAccess_isSome_iff h, hrun]
      rfl
    obtain ⟨e, he, hpermits⟩ := permitted_eq_true_iff.mp hpermitted
    rw [hbefore, hnow, accessible, translate_congr hpage, he]
    exact hpermits
  · have hfirst : firstInPage (start + 1) addr = firstInPage start addr := by
      simp only [firstInPage]
      omega
    obtain ⟨htranslate, hsize⟩ : translate a'.vm.pgTable addr = translate a.vm.pgTable addr ∧
        a'.vm.userSpaceSize = a.vm.userSpaceSize := by
      rcases hhow with rfl | hfault
      · exact ⟨rfl, rfl⟩
      · exact ⟨onPageFault_other h hfault hpage, onPageFault_size hfault⟩
    rw [accessible, accessible, htranslate, hsize, hfirst]

lemma kernelAccesses_isSome_iff (size : Nat) :
    (kernelAccesses src granting access size start a).isSome = true ↔
      ∀ addr, start ≤ addr → addr < start + size → accessible access a.vm start addr = true := by
  induction size generalizing start a with
  | zero => exact iff_of_true rfl fun addr hlo hhi => by omega
  | succ size ih =>
    rw [kernelAccesses]
    have hfirst : (kernelAccess src granting access start a).isSome = true ↔ _ :=
      kernelAccess_isSome_iff h
    cases hrun : kernelAccess src granting access start a with
    | none =>
      rw [hrun] at hfirst
      exact iff_of_false (by simp) fun hall =>
        absurd (hfirst.mpr (hall start le_rfl (by omega))) (by simp)
    | some b =>
      rw [hrun] at hfirst
      dsimp only
      rw [ih (kernelAccess_extends h hrun).1]
      constructor
      · intro hrest addr hlo hhi
        rcases Nat.eq_or_lt_of_le hlo with rfl | hlt
        · exact hfirst.mp rfl
        · rw [← accessible_succ h hrun hlt]
          exact hrest addr hlt (by omega)
      · intro hall addr hlo hhi
        rw [accessible_succ h hrun hlo]
        exact hall addr (by omega) (by omega)

lemma usable_iff_ready : Usable src access start size a ↔ Ready access start size a.vm := by
  constructor
  · rintro ⟨hpages, haccess⟩ addr hlo hhi
    have hbyte := (kernelAccesses_isSome_iff h size).mp haccess addr hlo hhi
    rw [readyByte, hbyte, Bool.and_true]
    rcases hpages addr hlo hhi with ⟨e, he, huser⟩ | ⟨hnone, -⟩
    · rw [he]
      exact huser
    · rw [hnone]
      rfl
  · intro hready
    refine ⟨fun addr hlo hhi => ?_, (kernelAccesses_isSome_iff h size).mpr fun addr hlo hhi =>
      (Bool.and_eq_true_iff.mp (hready addr hlo hhi)).2⟩
    obtain ⟨huser, hbyte⟩ := Bool.and_eq_true_iff.mp (hready addr hlo hhi)
    cases he : translate a.vm.pgTable addr with
    | some e =>
      rw [he] at huser
      exact .inl ⟨e, he, huser⟩
    | none =>
      rw [accessible, he] at hbyte
      have hbreak := of_decide_eq_true hbyte
      rw [firstInPage] at hbreak
      have hdown : (pgRoundDown addr).val = addr / 4096 * 4096 := rfl
      refine .inr ⟨he, ?_, ?_⟩
      · rw [hdown, userBaseVaddr] at *
        omega
      · rw [hdown]
        omega

lemma cStringLoop_spec (hle : baseAddr ≤ addr)
    (hrun : cStringLoop src refused baseAddr addr a = some (a', .ok arg)) :
    Held base a' ∧ Extends a a' ∧ ∀ c, addr ≤ c → c ≤ baseAddr + arg.len →
      permitted a'.vm.pgTable .read c = true := by
  fun_induction cStringLoop src refused baseAddr addr a with
  | case1 addr a e hcheck => cases hrun
  | case2 addr a hcheck hstuck => cases hrun
  | case3 addr a hcheck b hread hzero =>
    obtain ⟨hheld, hextends⟩ := kernelAccess_extends h hread
    cases hrun
    refine ⟨hheld, hextends, ?_⟩
    intro c hlo hhi
    have hc : c = addr := by
      simp only at hhi
      omega
    rw [hc]
    exact (kernelAccess_eq_some hread).1
  | case4 addr a hcheck b hread hnonzero ih =>
    obtain ⟨hheld, hextends⟩ := kernelAccess_extends h hread
    obtain ⟨hheld', hextends', hrest⟩ := ih hheld (by omega) hrun
    refine ⟨hheld', hextends.trans hextends', ?_⟩
    intro c hlo hhi
    by_cases hc : c = addr
    · rw [hc]
      exact hextends'.permitted (kernelAccess_eq_some hread).1
    · exact hrest c (by omega) hhi

lemma cString_usable_iff (hrun : CStringArg.new src refused baseAddr a = some (a', .ok arg)) :
    Usable src .read baseAddr (arg.len + 1) a' ↔
      ∀ addr, baseAddr ≤ addr → addr ≤ baseAddr + arg.len →
        ∀ e, translate a.vm.pgTable addr = some e → e.perm.user = true := by
  obtain ⟨hheld, hextends, hread⟩ := cStringLoop_spec h le_rfl hrun
  rw [usable_iff_ready hheld]
  constructor
  · intro hready addr hlo hhi e he
    have hbyte := hready addr hlo (by omega)
    rcases hextends addr with hsame | ⟨hnone, -⟩
    · rw [readyByte, hsame, he] at hbyte
      exact (Bool.and_eq_true_iff.mp hbyte).1
    · rw [hnone] at he
      cases he
  intro huser addr hlo hhi
  obtain ⟨e, he, hpermits⟩ := permitted_eq_true_iff.mp (hread addr hlo (by omega))
  rw [readyByte, accessible, he]
  refine Bool.and_eq_true_iff.mpr ⟨?_, hpermits⟩
  rcases hextends addr with hsame | ⟨-, e', he', huser'⟩
  · exact huser addr hlo (by omega) e (hsame.symm.trans he)
  rw [he] at he'
  cases he'
  exact huser'

end
end

lemma imp_iff_refused {check : Except SysError Unit} {P Q : Prop}
    (hcheck : check = .ok () ∨ check = .error SysErrorKind.fault.err) (h : P ↔ Q) :
    (check = .ok () → P) ↔ check = .error SysErrorKind.fault.err ∨ Q := by
  rcases hcheck with rfl | rfl
  · simpa using h
  · simp

/-- A pointer keeps what is claimed of accepted ones just when it is refused, or
every page of its object is mapped for the user with the rights of the access or
is not mapped and has its first byte of the object below the break.  An accepted
C string, which has been read, is usable just when no page of it had been mapped
for the kernel alone. -/
theorem accepted_arg_usable_iff (src : PageSource) {base : Nat → Nat}
    {a : AddrSpace} (h : Held base a) :
    (∀ access size align addr,
      (sysArgRef size align addr = .ok () → Usable src access addr size a) ↔
        sysArgRef size align addr = .error SysErrorKind.fault.err ∨
          Ready access addr size a.vm) ∧
    (∀ access elemSize align addr len, (sysArgSlice elemSize align addr len = .ok () ∨
        sysArgSliceMut elemSize align addr len = .ok () →
          Usable src access addr (len * elemSize) a) ↔
      sysArgSlice elemSize align addr len = .error SysErrorKind.fault.err ∨
        Ready access addr (len * elemSize) a.vm) ∧
    (∀ refused baseAddr a' arg, CStringArg.new src refused baseAddr a = some (a', .ok arg) →
      (Usable src .read baseAddr (arg.len + 1) a' ↔
        ∀ addr, baseAddr ≤ addr → addr ≤ baseAddr + arg.len →
          ∀ e, translate a.vm.pgTable addr = some e → e.perm.user = true)) := by
  refine ⟨?_, ?_, ?_⟩
  · intro access size align addr
    refine imp_iff_refused ?_ (usable_iff_ready h)
    unfold sysArgRef
    split <;> simp
  · intro access elemSize align addr len
    rw [← sysArgSlice, or_self]
    refine imp_iff_refused ?_ (usable_iff_ready h)
    unfold sysArgSlice sysArgSliceMut
    dsimp only
    split <;> simp
  · intro refused baseAddr a' arg hrun
    exact cString_usable_iff h hrun

/-! ### Slices in exact arithmetic -/

/-- A slice without elements, or one that is aligned and lies between the
constants as a whole. -/
def SliceInUser (elemSize align addr len : Nat) : Prop :=
  len = 0 ∨ userElfBaseVaddr ≤ addr ∧ addr + len * elemSize ≤ userEndVaddr ∧ addr % align = 0

def sliceRefused (align addr size : Nat) : Prop :=
  size ≠ 0 ∧ (isFromUser addr size = false ∨ addr % align ≠ 0)

lemma sysArgSliceMut_ok_iff : sysArgSliceMut elemSize align addr len = .ok () ↔
    ¬sliceRefused align addr (len * elemSize % 2 ^ 64) := by
  unfold sysArgSliceMut
  dsimp only
  split
  · rename_i hrefused
    exact iff_of_false (by rintro ⟨⟩) (not_not.mpr hrefused)
  · rename_i haccepted
    exact iff_of_true rfl haccepted

lemma inUser_of_not_sliceRefused (hsize : 0 < elemSize)
    (h : ¬sliceRefused align addr (len * elemSize)) : SliceInUser elemSize align addr len := by
  by_cases hlen : len = 0
  · exact .inl hlen
  right
  have hbytes : len * elemSize ≠ 0 := Nat.mul_ne_zero hlen hsize.ne'
  simp only [sliceRefused, isFromUser, Bool.and_eq_false_iff, decide_eq_false_iff_not] at h
  generalize len * elemSize = size at h hbytes ⊢
  omega

/-- Accepted slices lie in user space just when their byte length does not wrap
around, or what is left of it is refused. -/
theorem accepted_slice_inUser_iff (elemSize align addr len : Nat) (hsize : 0 < elemSize) :
    (sysArgSlice elemSize align addr len = .ok () ∨
        sysArgSliceMut elemSize align addr len = .ok () →
      SliceInUser elemSize align addr len) ↔
    len * elemSize < 2 ^ 64 ∨ sliceRefused align addr (len * elemSize % 2 ^ 64) := by
  rw [sysArgSlice, or_self, sysArgSliceMut_ok_iff]
  constructor
  · intro h
    by_contra hnot
    obtain ⟨hwraps, haccepted⟩ := not_or.mp hnot
    rcases h haccepted with rfl | ⟨-, hend, -⟩
    · exact hwraps (by rw [zero_mul]; decide)
    · have : userEndVaddr < 2 ^ 64 := by decide
      omega
  rintro (hexact | hrefused) haccepted
  · rw [Nat.mod_eq_of_lt hexact] at haccepted
    exact inUser_of_not_sliceRefused hsize haccepted
  · exact absurd hrefused haccepted

/-- A slice of two words at the start of the user programs. -/
theorem accepted_slice_two_words : sysArgSlice 8 8 0x200080000 2 = .ok () ∧
      SliceInUser 8 8 0x200080000 2 :=
  have haccepted : sysArgSlice 8 8 0x200080000 2 = .ok () := by decide
  ⟨haccepted, (accepted_slice_inUser_iff 8 8 0x200080000 2 (by decide)).mpr
    (.inl (by decide)) (.inl haccepted)⟩

/-- With `2 ^ 61` elements of eight bytes the byte length wraps around to zero,
and the slice is accepted at any address. -/
theorem accepted_slice_not_inUser : ¬ ∀ elemSize align addr len, 0 < elemSize →
      sysArgSlice elemSize align addr len = .ok () ∨
        sysArgSliceMut elemSize align addr len = .ok () →
      SliceInUser elemSize align addr len := by
  intro hall
  have hinUser := hall 8 8 0 (2 ^ 61) (by decide) (.inl (by decide))
  rcases hinUser with hlen | ⟨hbase, -⟩
  · exact absurd hlen (by decide)
  · exact absurd hbase (by decide)

/-! ### Runs -/

def firstVm (actions : List Action) : Option AddrSpace :=
  match (machine nextPage).runUnder Clean .boot actions with
  | none => none
  | some s => (s.vms 0).map fun vm => { vm, heap := s.heap }

lemma held_firstVm (h : firstVm actions = some a) : ∃ base, Held base a := by
  rw [firstVm] at h
  split at h
  · cases h
  rename_i s hrun
  obtain ⟨vm, hvm, rfl⟩ := Option.map_eq_some_iff.mp h
  have hreach := Machine.ReachableUnder.runUnder (.start System.boot_start) hrun
  exact ⟨_, ((System.Inv.of_reachable hreach).sound hvm).toHeld⟩

def threePagesTrace : List Action :=
  [.withKernelVm false, .brk 0 0x300003000 none, .onPageFault 0 0x300001000 none]

set_option maxRecDepth 20000 in
lemma threePagesTrace_ready : (firstVm threePagesTrace).map (fun a =>
    (Walks.interval 0x300000ff8 0x300001008).all (readyByte .write a.vm 0x300000ff8)) =
      some true := by
  decide +kernel

/-- A slice of two words over the border of the first two pages. -/
theorem threePagesTrace_usable : ∃ a, firstVm threePagesTrace = some a ∧
      sysArgSliceMut 8 8 0x300000ff8 2 = .ok () ∧
      Usable nextPage .write 0x300000ff8 (2 * 8) a := by
  obtain ⟨a, hrun, hready⟩ := Option.map_eq_some_iff.mp threePagesTrace_ready
  obtain ⟨base, hheld⟩ := held_firstVm hrun
  have haccepted : sysArgSliceMut 8 8 0x300000ff8 2 = .ok () := by decide
  refine ⟨a, hrun, haccepted, ?_⟩
  refine ((accepted_arg_usable_iff nextPage hheld).2.1 .write 8 8 0x300000ff8 2).mpr
    (.inr fun addr hlo hhi => ?_) (.inr haccepted)
  rw [List.all_eq_true] at hready
  exact hready addr (Walks.mem_interval.mpr ⟨hlo, hhi⟩)

set_option maxRecDepth 20000 in
lemma newVm_not_ready : (firstVm [.withKernelVm false]).map (fun a =>
    readyByte .read a.vm 0x300000000 0x300000000) = some false := by
  decide +kernel

/-- In a new address space, nothing is mapped and the user space is empty, and
yet a reference to its first byte is accepted. -/
theorem newVm_accepted_not_usable :
    ¬ ∀ (src : PageSource) (base : Nat → Nat) (a : AddrSpace), Held base a →
      ∀ access size align addr, sysArgRef size align addr = .ok () →
        Usable src access addr size a := by
  intro hall
  obtain ⟨a, hrun, hready⟩ := Option.map_eq_some_iff.mp newVm_not_ready
  obtain ⟨base, hheld⟩ := held_firstVm hrun
  have husable := hall nextPage base a hheld .read 1 1 0x300000000 (by decide)
  have hbyte := (usable_iff_ready hheld).mp husable 0x300000000 le_rfl (by decide)
  rw [hready] at hbyte
  cases hbyte

end Redwing.Vm
